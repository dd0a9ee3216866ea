import Mathlib.Data.List.Induction

/-!
# Computations that may fail

A computation in `Except` succeeds exactly when all its steps do. The lemmas here take a success
apart into the successes of the steps, and carry an invariant along a list of steps.

Where the steps before an element decide whether the step for it fails, and with which error, a list
of steps succeeds when each element is fine after those before it (`foldlM_of_allFine`), and else
fails with the error of the first one that is not (`foldlM_of_firstFault`).
-/

namespace TilePuzzle

variable {ε ε' α β : Type} {x : Except ε α} {f : β → α → Except ε β} {b b' : β}

theorem bind_eq_ok_iff {g : α → Except ε β} :
    x >>= g = .ok b ↔ ∃ a, x = .ok a ∧ g a = .ok b := by
  cases x with
  | error e => exact iff_of_false (fun h => nomatch h) fun ⟨_, h, _⟩ => nomatch h
  | ok a =>
      constructor
      · intro h
        exact ⟨a, rfl, h⟩
      · rintro ⟨a', ha', hg⟩
        cases ha'
        exact hg

theorem mapError_eq_ok_iff {g : ε → ε'} {a : α} : x.mapError g = .ok a ↔ x = .ok a := by
  cases x with
  | error e => exact iff_of_false (fun h => nomatch h) fun h => nomatch h
  | ok a' =>
      show (Except.ok a' : Except ε' α) = .ok a ↔ _
      rw [Except.ok.injEq, Except.ok.injEq]

/-- What every step that succeeds keeps, a list of steps that succeeds keeps. -/
theorem foldlM_induction {P : β → Prop} (hstep : ∀ b a b', P b → f b a = .ok b' → P b') (l : List α)
    (h : l.foldlM f b = .ok b') (hb : P b) : P b' := by
  induction l generalizing b with
  | nil =>
      cases h
      exact hb
  | cons a rest ih =>
      rw [List.foldlM_cons, bind_eq_ok_iff] at h
      obtain ⟨b₁, hfirst, hrest⟩ := h
      exact ih hrest (hstep b a b₁ hb hfirst)

section FirstFault

variable {fine : List α → α → Prop} {front back l : List α} {a : α}

/-- Each element of the list is fine after those before it. -/
def AllFine (fine : List α → α → Prop) (l : List α) : Prop :=
  ∀ front a back, l = front ++ a :: back → fine front a

theorem allFine_append_singleton : AllFine fine (l ++ [a]) ↔ AllFine fine l ∧ fine l a := by
  constructor
  · intro h
    refine ⟨fun front b back hl => h front b (back ++ [a]) ?_, h l a [] rfl⟩
    rw [hl, List.append_assoc, List.cons_append]
  · rintro ⟨h, ha⟩ front b back hl
    rcases List.eq_nil_or_concat back with rfl | ⟨back, c, rfl⟩
    · obtain ⟨rfl, hb⟩ := List.append_inj' hl rfl
      rwa [(List.cons.inj hb).1] at ha
    · rw [List.concat_eq_append, ← List.cons_append, ← List.append_assoc] at hl
      exact h front b back (List.append_inj' hl rfl).1

theorem AllFine.of_append {l' : List α} (h : AllFine fine (l ++ l')) : AllFine fine l :=
  fun front a back hl => h front a (back ++ l') (by rw [hl, List.append_assoc, List.cons_append])

/-- Unless all elements are fine, there is a first one that is not. -/
theorem exists_first_of_not_allFine (h : ¬AllFine fine l) :
    ∃ front a back, l = front ++ a :: back ∧ AllFine fine front ∧ ¬fine front a := by
  induction l using List.reverseRecOn with
  | nil => exact absurd (fun front a back hl => by simp at hl) h
  | append_singleton l a ih =>
      by_cases hl : AllFine fine l
      · exact ⟨l, a, [], rfl, hl, fun ha => h (allFine_append_singleton.mpr ⟨hl, ha⟩)⟩
      · obtain ⟨front, b, back, rfl, hfront, hb⟩ := ih hl
        exact ⟨front, b, back ++ [a], by simp, hfront, hb⟩

variable {I : List α → β → Prop} (hinit : I [] b)
  (hfine : ∀ front a back b, l = front ++ a :: back → I front b → fine front a →
    ∃ b', f b a = .ok b' ∧ I (front ++ [a]) b')

include hinit hfine

theorem foldlM_of_allFine (h : AllFine fine l) : ∃ b', l.foldlM f b = .ok b' ∧ I l b' := by
  induction l using List.reverseRecOn with
  | nil => exact ⟨b, rfl, hinit⟩
  | append_singleton l a ih =>
      obtain ⟨hl, ha⟩ := allFine_append_singleton.mp h
      obtain ⟨b₁, hfold, hI⟩ := ih (fun front c back b₂ hcut =>
        hfine front c (back ++ [a]) b₂ (by rw [hcut]; simp)) hl
      obtain ⟨b', hstep, hI'⟩ := hfine l a [] b₁ rfl hI ha
      refine ⟨b', ?_, hI'⟩
      rw [List.foldlM_append, hfold]
      show [a].foldlM f b₁ = _
      rw [List.foldlM_cons, hstep]
      rfl

theorem foldlM_of_firstFault {e : ε} (hl : l = front ++ a :: back) (h : AllFine fine front)
    (hfault : ∀ b, I front b → f b a = .error e) : l.foldlM f b = .error e := by
  obtain ⟨b₁, hfold, hI⟩ := foldlM_of_allFine (l := front) hinit (fun front' c back' b₂ hcut =>
    hfine front' c (back' ++ a :: back) b₂ (by rw [hl, hcut]; simp)) h
  rw [hl, List.foldlM_append, hfold]
  show (a :: back).foldlM f b₁ = _
  rw [List.foldlM_cons, hfault b₁ hI]
  rfl

end FirstFault

end TilePuzzle
