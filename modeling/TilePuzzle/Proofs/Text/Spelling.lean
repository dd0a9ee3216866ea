import Mathlib.Logic.Relation
import TilePuzzle.Proofs.Text.Lowercase

/-!
# Spellings

An author may spell one word in several ways. A spelling changes step by step: a loose character is put
somewhere (`Strew`), a blank is put at an end (`Pad`), or a letter from A to Z changes its case
(`Recase`); `Respelled` allows any number of such steps and their reverses.

Each way of reading a word drops what it takes for loose and then looks at the lowercase. So it reads two
spellings alike if a single step makes no difference to it: `Respelled.lower_filter` for characters that
are loose everywhere, `Respelled.lower_trim` and `Respelled.trim_eq` for blanks at the ends.
-/

namespace TilePuzzle.Text

/-- A loose character is put somewhere into a text. -/
inductive Strew (loose : Char → Bool) : List Char → List Char → Prop
  | put (front back : List Char) {c : Char} :
    loose c = true → Strew loose (front ++ back) (front ++ c :: back)

/-- A blank is put at one end of a text. -/
inductive Pad : List Char → List Char → Prop
  | front (cs : List Char) {c : Char} : isBlank c = true → Pad cs (c :: cs)
  | back (cs : List Char) {c : Char} : isBlank c = true → Pad cs (cs ++ [c])

/-- A letter from A to Z changes its case. -/
inductive Recase : List Char → List Char → Prop
  | letter (front back : List Char) {c c' : Char} :
    c.toLower = c'.toLower → Recase (front ++ c :: back) (front ++ c' :: back)

/-- A step of the kind `step` is made, or a letter from A to Z changes its case. -/
def OrRecase (step : List Char → List Char → Prop) (cs cs' : List Char) : Prop :=
  step cs cs' ∨ Recase cs cs'

/-- Steps of the kind `step` and their reverses lead from one text to the other. -/
def Respelled (step : List Char → List Char → Prop) (s s' : String) : Prop :=
  Relation.EqvGen step s.toList s'.toList

variable {loose : Char → Bool} {step : List Char → List Char → Prop} {s s' : String}
  {cs cs' : List Char}

/-- What no step changes is the same for two spellings. -/
theorem Respelled.eq_of_step {α : Type} {f : List Char → α}
    (hstep : ∀ cs cs', step cs cs' → f cs = f cs') (h : Respelled step s s') :
    f s.toList = f s'.toList := by
  unfold Respelled at h
  generalize s.toList = cs, s'.toList = cs' at h ⊢
  induction h with
  | rel cs cs' h => exact hstep cs cs' h
  | refl cs => rfl
  | symm cs cs' _ ih => exact ih.symm
  | trans cs cs' cs'' _ _ ih ih' => exact ih.trans ih'

theorem Recase.map_toLower (h : Recase cs cs') : cs.map Char.toLower = cs'.map Char.toLower := by
  cases h with
  | letter front back hc => rw [List.map_append, List.map_append, List.map_cons, List.map_cons, hc]

/-! ## Characters that are loose everywhere -/

theorem Strew.filter_eq (h : Strew loose cs cs') :
    cs.filter (!loose ·) = cs'.filter (!loose ·) := by
  cases h with
  | put front back hc =>
      rw [List.filter_append, List.filter_append, List.filter_cons_of_neg]
      rw [hc]
      exact Bool.false_ne_true

theorem filter_map_toLower (hloose : ∀ c, loose c.toLower = loose c) (cs : List Char) :
    (cs.map Char.toLower).filter (!loose ·) = (cs.filter (!loose ·)).map Char.toLower := by
  have hkeep : (fun c => !loose c) ∘ Char.toLower = fun c => !loose c :=
    funext fun c => congrArg (!·) (hloose c)
  rw [List.filter_map, hkeep]

theorem Respelled.lower_filter (hloose : ∀ c, loose c.toLower = loose c)
    (h : Respelled (OrRecase (Strew loose)) s s') :
    lower (String.ofList (s.toList.filter (!loose ·)))
      = lower (String.ofList (s'.toList.filter (!loose ·))) := by
  apply lower_congr
  refine h.eq_of_step (f := fun cs => (cs.filter (!loose ·)).map Char.toLower)
    fun cs cs' hstep => ?_
  rcases hstep with hstep | hstep
  · exact congrArg (List.map Char.toLower) hstep.filter_eq
  · simp only [← filter_map_toLower hloose, hstep.map_toLower]

/-! ## Blanks at the ends -/

theorem Pad.trimChars_eq (h : Pad cs cs') : trimChars cs = trimChars cs' := by
  cases h with
  | front hc => rw [trimChars, trimChars, List.dropWhile_cons_of_pos hc]
  | back hc =>
      rw [trimChars, trimChars, List.dropWhile_append]
      split
      · next hempty =>
          rw [List.isEmpty_iff.mp hempty, List.dropWhile_cons_of_pos hc]
          rfl
      · rw [List.reverse_append, List.reverse_singleton, List.singleton_append,
          List.dropWhile_cons_of_pos hc]

theorem trimChars_map_toLower (cs : List Char) :
    trimChars (cs.map Char.toLower) = (trimChars cs).map Char.toLower := by
  have hblank : isBlank ∘ Char.toLower = isBlank := funext isBlank_toLower
  rw [trimChars, trimChars, List.dropWhile_map, hblank, ← List.map_reverse, List.dropWhile_map,
    hblank, List.map_reverse]

theorem Respelled.trim_eq (h : Respelled Pad s s') : trim s = trim s' :=
  congrArg String.ofList (h.eq_of_step fun _ _ hstep => hstep.trimChars_eq)

theorem Respelled.lower_trim (h : Respelled (OrRecase Pad) s s') :
    lower (trim s) = lower (trim s') := by
  apply lower_congr
  refine h.eq_of_step (f := fun cs => (trimChars cs).map Char.toLower) fun cs cs' hstep => ?_
  rcases hstep with hstep | hstep
  · exact congrArg (List.map Char.toLower) hstep.trimChars_eq
  · simp only [← trimChars_map_toLower, hstep.map_toLower]

end TilePuzzle.Text
