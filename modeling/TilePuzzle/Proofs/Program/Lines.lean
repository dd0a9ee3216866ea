import Mathlib.Data.List.Basic
import TilePuzzle.Program

/-!
# Lines

What the lines of a program hold, and what changes when a program gets one more command. `linesWith`
lists the lines with commands of one kind, and `between` is the part of a program that lies strictly
between two lines.
-/

namespace TilePuzzle

namespace Program

variable {p p' : Program} {c : Command} {i j line : Nat} {q : Command → Bool}

/-- The lines with a command of the kind `q`, in ascending order. -/
def linesWith (p : Program) (q : Command → Bool) : List Nat :=
  (List.range' 1 p.length).filter fun line => (p.command? line).any q

/-- The commands strictly between two lines. -/
def between (p : Program) (i j : Nat) : List Command := (p.commands.take (j - 1)).drop i

theorem command?_succ (line : Nat) : p.command? (line + 1) = p.commands[line]? := by
  rw [command?, if_neg (Nat.succ_ne_zero line), Nat.add_sub_cancel]

theorem command?_eq_none_iff : p.command? line = none ↔ line = 0 ∨ p.length < line := by
  unfold command? length
  split
  · simp [*]
  · rw [List.getElem?_eq_none_iff]
    omega

theorem bounds_of_command? (h : p.command? line = some c) : 0 < line ∧ line ≤ p.length := by
  have hnone : ¬(line = 0 ∨ p.length < line) := by
    rw [← command?_eq_none_iff, h]
    exact Option.some_ne_none c
  omega

theorem bounds_of_any (h : (p.command? line).any q = true) : 0 < line ∧ line ≤ p.length := by
  cases hc : p.command? line with
  | none => rw [hc] at h; cases h
  | some c => exact bounds_of_command? hc

theorem mem_linesWith : line ∈ p.linesWith q ↔ (p.command? line).any q = true := by
  rw [linesWith, List.mem_filter, List.mem_range'_1]
  constructor
  · exact And.right
  · intro h
    have hbounds := bounds_of_any h
    exact ⟨by omega, h⟩

theorem ascending_linesWith (p : Program) (q : Command → Bool) :
    (p.linesWith q).Pairwise (· < ·) :=
  List.Pairwise.filter _ List.pairwise_lt_range'

theorem linesWith_congr (h : p'.commands = p.commands) : p'.linesWith q = p.linesWith q := by
  unfold linesWith length command?
  rw [h]

/-- What follows a line, up to another line and from there on. -/
theorem drop_eq_between (hj : p.command? j = some c) (hij : i < j) :
    p.commands.drop i = p.between i j ++ c :: p.commands.drop j := by
  obtain ⟨n, rfl⟩ := Nat.exists_eq_add_one.mpr (bounds_of_command? hj).1
  rw [command?_succ, List.getElem?_eq_some_iff] at hj
  obtain ⟨hn, hc⟩ := hj
  have hsplit : p.commands = p.commands.take n ++ c :: p.commands.drop (n + 1) := by
    rw [← hc, ← List.drop_eq_getElem_cons hn, List.take_append_drop]
  have hlength : i ≤ (p.commands.take n).length := by
    rw [List.length_take]
    omega
  rw [between, Nat.add_sub_cancel, ← List.drop_append_of_le_length hlength, ← hsplit]

/-! ## One more line -/

section Push

variable (h : p'.commands = p.commands ++ [c])

include h

theorem length_push : p'.length = p.length + 1 := by
  rw [length, h, List.length_append]
  rfl

theorem command?_push (line : Nat) :
    p'.command? line = if line = p.length + 1 then some c else p.command? line := by
  cases line with
  | zero => rfl
  | succ n =>
      rw [command?_succ, command?_succ, h, length]
      by_cases hn : n = p.commands.length
      · subst hn
        rw [List.getElem?_concat_length, if_pos rfl]
      · rw [if_neg (by omega)]
        by_cases hlt : n < p.commands.length
        · rw [List.getElem?_append_left hlt]
        · have hlength : (p.commands ++ [c]).length ≤ n := by
            rw [List.length_append, List.length_singleton]
            omega
          rw [List.getElem?_eq_none hlength, List.getElem?_eq_none (by omega)]

theorem linesWith_push :
    p'.linesWith q = p.linesWith q ++ if q c then [p.length + 1] else [] := by
  have hlast : p'.command? (p.length + 1) = some c := by rw [command?_push h, if_pos rfl]
  have hfirst : (List.range' 1 p.length).filter (fun line => (p'.command? line).any q)
      = p.linesWith q := by
    apply List.filter_congr
    intro line hline
    rw [List.mem_range'_1] at hline
    rw [command?_push h, if_neg (by omega)]
  rw [linesWith, length_push h, List.range'_1_concat, List.filter_append, hfirst,
    Nat.add_comm 1 p.length, List.filter_singleton, hlast, Option.any_some]
  cases q c <;> rfl

theorem between_push (hj : j ≤ p.length + 1) : p'.between i j = p.between i j := by
  have hpre : j - 1 ≤ p.commands.length := by
    unfold length at hj
    omega
  rw [between, h, List.take_append_of_le_length hpre, between]

end Push

end Program

end TilePuzzle
