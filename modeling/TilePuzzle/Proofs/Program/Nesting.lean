import Mathlib.Data.List.Basic
import TilePuzzle.Command.Basic

/-!
# Nested commands

An `if` and its `end if` enclose commands like a pair of brackets. `Balanced` counts: no prefix
closes more than it opens, and in the end all is closed. `Nesting` reads the same commands as a
tree: `Nesting line cs T` says that the commands `cs`, the first of them on `line`, are the
statements `T`. A list of commands is balanced when it has a tree (`Nesting.balanced`), and then it
has only one (`Nesting.unique`).

Counting is done with the `height` of a list of commands, the `if`s in it less the `end if`s.
-/

namespace TilePuzzle

/-- The command begins the body of an `if`. -/
def Command.opens : Command → Bool
  | branch _ _ => true
  | _ => false

/-- The command ends the body of an `if`. -/
def Command.closes : Command → Bool
  | endBranch => true
  | _ => false

theorem Command.opens_iff {c : Command} : c.opens = true ↔ ∃ d q, c = .branch d q := by
  cases c <;> simp [opens]

theorem Command.closes_iff {c : Command} : c.closes = true ↔ c = .endBranch := by
  cases c <;> simp [closes]

/-- A command is an `if`, an `end if` or neither. -/
theorem Command.kinds (c : Command) :
    (∃ d q, c = .branch d q) ∨ c = .endBranch ∨ (c.opens = false ∧ c.closes = false) := by
  rw [← opens_iff, ← closes_iff]
  cases c.opens <;> cases c.closes <;> simp

/-- Every prefix has at least as many `if`s as `end if`s, and the totals are equal. -/
def Balanced (cs : List Command) : Prop :=
  (∀ n, (cs.take n).countP Command.closes ≤ (cs.take n).countP Command.opens) ∧
    cs.countP Command.closes = cs.countP Command.opens

/-! ## Heights -/

/-- How many more `if`s than `end if`s there are. -/
def height (cs : List Command) : Int := cs.countP Command.opens - cs.countP Command.closes

section Height

variable {cs ds : List Command} {c : Command} {direction : Direction} {condition : Condition}

@[simp] theorem height_nil : height [] = 0 := rfl

@[simp] theorem height_append : height (cs ++ ds) = height cs + height ds := by
  simp only [height, List.countP_append]
  omega

@[simp] theorem height_branch_cons :
    height (.branch direction condition :: cs) = height cs + 1 := by
  simp only [height, List.countP_cons, Command.opens, Command.closes]
  simp only [if_true, Bool.false_eq_true, if_false]
  omega

@[simp] theorem height_endBranch_cons : height (.endBranch :: cs) = height cs - 1 := by
  simp only [height, List.countP_cons, Command.opens, Command.closes]
  simp only [if_true, Bool.false_eq_true, if_false]
  omega

theorem height_plain_cons (ho : c.opens = false) (hc : c.closes = false) :
    height (c :: cs) = height cs := by
  simp [height, ho, hc]

theorem height_take_append (n : Nat) :
    height ((cs ++ ds).take n) = height (cs.take n) + height (ds.take (n - cs.length)) := by
  rw [List.take_append, height_append]

theorem balanced_iff_height : Balanced cs ↔ (∀ n, 0 ≤ height (cs.take n)) ∧ height cs = 0 := by
  unfold Balanced height
  constructor
  · rintro ⟨hpre, htotal⟩
    refine ⟨fun n => ?_, by omega⟩
    have := hpre n
    omega
  · rintro ⟨hpre, htotal⟩
    refine ⟨fun n => ?_, by omega⟩
    have := hpre n
    omega

theorem Balanced.nil : Balanced [] := by simp [balanced_iff_height]

theorem Balanced.append (hcs : Balanced cs) (hds : Balanced ds) : Balanced (cs ++ ds) := by
  rw [balanced_iff_height] at *
  obtain ⟨hpre, htotal⟩ := hcs
  obtain ⟨hpre', htotal'⟩ := hds
  refine ⟨fun n => ?_, by rw [height_append, htotal, htotal']; rfl⟩
  have h := hpre n
  have h' := hpre' (n - cs.length)
  rw [height_take_append]
  omega

theorem Balanced.cons_plain (ho : c.opens = false) (hc : c.closes = false) (hcs : Balanced cs) :
    Balanced (c :: cs) := by
  rw [balanced_iff_height] at *
  refine ⟨fun n => ?_, by rw [height_plain_cons ho hc, hcs.2]⟩
  cases n with
  | zero => simp
  | succ n =>
      rw [List.take_succ_cons, height_plain_cons ho hc]
      exact hcs.1 n

/-- Brackets around a balanced list. -/
theorem Balanced.enclose (direction : Direction) (condition : Condition) (hcs : Balanced cs) :
    Balanced (.branch direction condition :: (cs ++ [.endBranch])) := by
  rw [balanced_iff_height] at *
  obtain ⟨hpre, htotal⟩ := hcs
  have hlast : ∀ n, -1 ≤ height (([.endBranch] : List Command).take n) := by
    intro n
    cases n <;> simp
  refine ⟨fun n => ?_, by simp [htotal]⟩
  cases n with
  | zero => simp
  | succ n =>
      -- The last command takes one level at most, and the first one has given it.
      have h := hpre n
      have h' := hlast (n - cs.length)
      rw [List.take_succ_cons, height_branch_cons, height_take_append]
      omega

/-- What stands in a balanced list before an `end if` has an `if` more. -/
theorem Balanced.height_before (h : Balanced (cs ++ .endBranch :: ds)) : 0 < height cs := by
  have hpre := (balanced_iff_height.mp h).1 (cs.length + 1)
  rw [height_take_append, List.take_of_length_le (Nat.le_succ _), Nat.add_sub_cancel_left,
    List.take_succ_cons, height_endBranch_cons, List.take_zero, height_nil] at hpre
  omega

/-- An `end if` that follows a balanced list closes more than was opened. -/
theorem Balanced.not_append_endBranch (h : Balanced cs) : ¬Balanced (cs ++ .endBranch :: ds) := by
  intro happend
  have hbefore := happend.height_before
  rw [(balanced_iff_height.mp h).2] at hbefore
  exact Int.lt_irrefl 0 hbefore

/-- So it is the first `end if` to do so, and the list before it is known from the whole. -/
theorem Balanced.split_unique {cs' ds' : List Command} (hcs : Balanced cs) (hcs' : Balanced cs')
    (heq : cs ++ .endBranch :: ds = cs' ++ .endBranch :: ds') : cs = cs' ∧ ds = ds' := by
  rcases List.append_eq_append_iff.mp heq with ⟨as, rfl, hds⟩ | ⟨as, rfl, hds⟩
  · cases as with
    | nil => simpa using hds
    | cons a as =>
        rw [List.cons_append, List.cons.injEq] at hds
        rw [← hds.1] at hcs'
        exact absurd hcs' hcs.not_append_endBranch
  · cases as with
    | nil => simpa [eq_comm] using hds
    | cons a as =>
        rw [List.cons_append, List.cons.injEq] at hds
        rw [← hds.1] at hcs
        exact absurd hcs hcs'.not_append_endBranch

end Height

/-! ## Trees -/

/-- A statement of a program whose `if`s contain their bodies. -/
inductive Statement where
  /-- A single command. -/
  | leaf (line : Nat) (command : Command)
  /-- An `if` with its body and the line of its `end if`. -/
  | branch (line : Nat) (direction : Direction) (condition : Condition) (body : List Statement)
      (last : Nat)

/-- The commands `cs`, the first of them on `line`, are the statements of a tree. -/
inductive Nesting : Nat → List Command → List Statement → Prop
  | nil {line} : Nesting line [] []
  | leaf {line c cs T} : c.opens = false → c.closes = false → Nesting (line + 1) cs T →
      Nesting line (c :: cs) (.leaf line c :: T)
  | branch {line direction condition body B cs T} : Nesting (line + 1) body B →
      Nesting (line + body.length + 2) cs T →
      Nesting line (.branch direction condition :: (body ++ .endBranch :: cs))
        (.branch line direction condition B (line + body.length + 1) :: T)

/-- The line after a command and more commands. -/
theorem line_after_cons (line : Nat) (c : Command) (cs : List Command) :
    line + (c :: cs).length = line + 1 + cs.length := by
  rw [List.length_cons]
  omega

/-- The line after a pair with its body and more commands. -/
theorem line_after_pair (line : Nat) (c c' : Command) (body cs : List Command) :
    line + (c :: (body ++ c' :: cs)).length = line + body.length + 2 + cs.length := by
  rw [List.length_cons, List.length_append, List.length_cons]
  omega

namespace Nesting

variable {line : Nat} {cs ds : List Command} {S T : List Statement}

theorem append (hcs : Nesting line cs S) (hds : Nesting (line + cs.length) ds T) :
    Nesting line (cs ++ ds) (S ++ T) := by
  induction hcs with
  | nil => exact hds
  | leaf ho hc _ ih =>
      rw [line_after_cons] at hds
      exact .leaf ho hc (ih hds)
  | branch hbody _ _ ih =>
      rw [line_after_pair] at hds
      rw [List.cons_append, List.append_assoc]
      exact .branch hbody (ih hds)

/-- What has a tree is balanced. -/
theorem balanced (h : Nesting line cs T) : Balanced cs := by
  induction h with
  | nil => exact .nil
  | leaf ho hc _ ih => exact ih.cons_plain ho hc
  | @branch line direction condition body B cs T _ _ ihbody ih =>
      have hrest := (ihbody.enclose direction condition).append ih
      rwa [List.cons_append, List.append_assoc] at hrest

/-- Commands have at most one tree. -/
theorem unique (hS : Nesting line cs S) (hT : Nesting line cs T) : S = T := by
  induction hS generalizing T with
  | nil => cases hT; rfl
  | @leaf line c cs S ho _ _ ih =>
      cases hT with
      | leaf _ _ hT => rw [ih hT]
      | branch => cases ho
  | @branch line direction condition body B cs S hbody hrest ihbody ih =>
      -- The other tree may cut the commands elsewhere; balanced bodies leave one place for the cut.
      generalize hcs : body ++ .endBranch :: cs = tail at hT
      cases hT with
      | leaf ho => cases ho
      | @branch _ _ _ body' B' cs' T' hbody' hT =>
          obtain ⟨rfl, rfl⟩ := hbody.balanced.split_unique hbody'.balanced hcs
          rw [ihbody hbody', ih hT]

end Nesting

/-! ## The length of a tree -/

mutual

/-- The number of lines of a statement. -/
def Statement.lines : Statement → Nat
  | .leaf _ _ => 1
  | .branch _ _ _ body _ => linesOf body + 2

/-- The number of lines of a list of statements. -/
def linesOf : List Statement → Nat
  | [] => 0
  | s :: rest => s.lines + linesOf rest

end

theorem Nesting.linesOf_eq {line : Nat} {cs : List Command} {T : List Statement}
    (h : Nesting line cs T) : linesOf T = cs.length := by
  induction h with
  | nil => rfl
  | leaf _ _ _ ih => rw [linesOf, Statement.lines, ih, List.length_cons, Nat.add_comm]
  | branch _ _ ihbody ih =>
      rw [linesOf, Statement.lines, ihbody, ih]
      simp only [List.length_cons, List.length_append]
      omega

end TilePuzzle
