import TilePuzzle.Proofs.Program.Lines
import TilePuzzle.Proofs.Program.Nesting

/-!
# Pairs of lines

An `if` and an `end if` are `Paired` when the lines strictly between them are balanced. No table of
jumps is needed to say so. The pairs of a program fit together: a line is in one pair only
(`Paired.left_unique`, `Paired.right_unique`), and of two pairs one is inside the other or they lie
apart (`Paired.nested`).

The argument follows the `level` of the lines, the height of all commands up to a line. Inside a
pair it does not fall below the level of the first line, and the last line is the first to fall
below.
-/

namespace TilePuzzle

namespace Program

variable {p p' : Program} {c : Command} {i i' j j' n : Nat}

/-! ## Levels -/

/-- The height of the commands up to a line. -/
def level (p : Program) (line : Nat) : Int := height (p.commands.take line)

theorem level_succ (h : p.command? (n + 1) = some c) :
    p.level (n + 1) = p.level n + height [c] := by
  rw [command?_succ] at h
  rw [level, List.take_add_one, h, height_append]
  rfl

theorem level_of_opens (h : (p.command? i).any Command.opens = true) :
    p.level i = p.level (i - 1) + 1 := by
  obtain ⟨c, hc, hopens⟩ := (Option.any_eq_true ..).mp h
  obtain ⟨n, rfl⟩ := Nat.exists_eq_add_one.mpr (bounds_of_command? hc).1
  obtain ⟨direction, condition, rfl⟩ := Command.opens_iff.mp hopens
  rw [level_succ hc, Nat.add_sub_cancel]
  rfl

theorem level_of_closes (h : (p.command? j).any Command.closes = true) :
    p.level j = p.level (j - 1) - 1 := by
  obtain ⟨c, hc, hcloses⟩ := (Option.any_eq_true ..).mp h
  obtain ⟨n, rfl⟩ := Nat.exists_eq_add_one.mpr (bounds_of_command? hc).1
  rw [Command.closes_iff] at hcloses
  subst hcloses
  rw [level_succ hc, Nat.add_sub_cancel]
  rfl

theorem height_drop (cs : List Command) (i : Nat) :
    height (cs.drop i) = height cs - height (cs.take i) := by
  have hsum : height cs = height (cs.take i) + height (cs.drop i) := by
    rw [← height_append, List.take_append_drop]
  omega

/-- The height of a part of a program is the difference of two levels. -/
theorem height_take_between (hi : i ≤ n) (hn : n < j) :
    height ((p.between i j).take (n - i)) = p.level n - p.level i := by
  rw [between, List.take_drop, Nat.add_sub_cancel' hi, List.take_take, Nat.min_eq_left (by omega),
    height_drop, List.take_take, Nat.min_eq_left hi]
  rfl

/-! ## Pairs -/

/-- The `if` on line `i` belongs to the `end if` on line `j`. -/
structure Paired (p : Program) (i j : Nat) : Prop where
  opens : (p.command? i).any Command.opens = true
  closes : (p.command? j).any Command.closes = true
  lt : i < j
  inside : Balanced (p.between i j)

theorem paired_congr (h : p'.commands = p.commands) : p'.Paired i j ↔ p.Paired i j := by
  obtain ⟨commands, jumps, endLines⟩ := p
  obtain ⟨commands', jumps', endLines'⟩ := p'
  cases h
  exact ⟨fun h => ⟨h.opens, h.closes, h.lt, h.inside⟩,
    fun h => ⟨h.opens, h.closes, h.lt, h.inside⟩⟩

namespace Paired

theorem push (hpair : p.Paired i j) (h : p'.commands = p.commands ++ [c]) : p'.Paired i j := by
  have hi := bounds_of_any hpair.opens
  have hj := bounds_of_any hpair.closes
  refine ⟨?_, ?_, hpair.lt, ?_⟩
  · rw [command?_push h, if_neg (by omega)]
    exact hpair.opens
  · rw [command?_push h, if_neg (by omega)]
    exact hpair.closes
  · rw [between_push h (by omega)]
    exact hpair.inside

theorem level_le (h : p.Paired i j) (hi : i ≤ n) (hn : n < j) : p.level i ≤ p.level n := by
  have hpre := (balanced_iff_height.mp h.inside).1 (n - i)
  rw [height_take_between hi hn] at hpre
  omega

theorem level_last (h : p.Paired i j) : p.level j = p.level i - 1 := by
  have htotal := (balanced_iff_height.mp h.inside).2
  have hlt := h.lt
  have hlength : (p.between i j).length ≤ j - 1 - i := by
    rw [between, List.length_drop, List.length_take]
    omega
  rw [← List.take_of_length_le hlength, height_take_between (by omega) (by omega)] at htotal
  rw [level_of_closes h.closes]
  omega

/-- An `if` belongs to one `end if`. -/
theorem right_unique (h : p.Paired i j) (h' : p.Paired i j') : j = j' := by
  have hlast := h.level_last
  have hlast' := h'.level_last
  have hlt := h.lt
  have hlt' := h'.lt
  rcases Nat.lt_trichotomy j j' with hj | hj | hj
  · have hinside := h'.level_le (n := j) (by omega) hj
    omega
  · exact hj
  · have hinside := h.level_le (n := j') (by omega) hj
    omega

/-- Another `if` inside a pair starts from a level that is no lower. -/
theorem level_inner (h : p.Paired i j) (h' : p.Paired i' j') (hi : i < i') (hj : i' ≤ j) :
    p.level i + 1 ≤ p.level i' := by
  have hinside := h.level_le (n := i' - 1) (by omega) (by omega)
  rw [level_of_opens h'.opens]
  omega

/-- An `end if` belongs to one `if`. -/
theorem left_unique (h : p.Paired i j) (h' : p.Paired i' j) : i = i' := by
  have hlast := h.level_last
  have hlast' := h'.level_last
  have hlt := h.lt
  have hlt' := h'.lt
  rcases Nat.lt_trichotomy i i' with hi | hi | hi
  · have hinner := h.level_inner h' hi (by omega)
    omega
  · exact hi
  · have hinner := h'.level_inner h hi (by omega)
    omega

/-- Two pairs lie apart, or one is inside the other. -/
theorem nested (h : p.Paired i j) (h' : p.Paired i' j') (hi : i < i') : j < i' ∨ j' < j := by
  by_contra hcross
  have hinner := h.level_inner h' hi (by omega)
  have hlast := h.level_last
  have hlast' := h'.level_last
  rcases Nat.lt_trichotomy j j' with hj | rfl | hj
  · have hinside := h'.level_le (n := j) (by omega) hj
    omega
  · omega
  · omega

end Paired

end Program

end TilePuzzle
