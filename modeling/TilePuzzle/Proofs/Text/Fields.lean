import TilePuzzle.Text.Timestamp

/-!
# Texts in lines and fields

A text that is made of lines can be taken apart into them again, and so can a line that is made of names
and numbers. What stands between them are blanks and brackets, commas, and the signs before the numbers
of an avatar and of a line; the `fields` of a text are what remains.

A text falls apart wherever a separator is (`split_append`). The rest follows from this and from the
texts that are a single piece.
-/

namespace TilePuzzle.Text

variable {α : Type} {p : α → Bool} {xs ys : List α} {x : α} {s t : String} {q : Char → Bool}

/-! ## Pieces -/

/-- The nonempty parts of a list between the elements that separate. -/
def pieces (p : α → Bool) (xs : List α) : List (List α) := (xs.splitOnP p).filter (!·.isEmpty)

theorem pieces_nil : pieces p [] = [] := rfl

theorem pieces_append_cons (h : p x = true) (xs ys : List α) :
    pieces p (xs ++ x :: ys) = pieces p xs ++ pieces p ys := by
  rw [pieces, List.splitOnP_append_cons xs ys h, List.filter_append]
  rfl

theorem pieces_cons (h : p x = true) (xs : List α) : pieces p (x :: xs) = pieces p xs :=
  pieces_append_cons h [] xs

theorem pieces_eq_singleton (hne : xs ≠ []) (h : ∀ x ∈ xs, p x = false) : pieces p xs = [xs] := by
  rw [pieces, List.splitOnP_eq_singleton h]
  simp [hne]

/-- Two lists fall apart where the first ends or the second begins with a separator. -/
theorem pieces_append (h : xs.getLast?.any p ∨ ys.head?.any p) :
    pieces p (xs ++ ys) = pieces p xs ++ pieces p ys := by
  rcases h with h | h
  · obtain ⟨x, hx, hp⟩ := (Option.any_eq_true ..).mp h
    obtain ⟨front, rfl⟩ := List.getLast?_eq_some_iff.mp hx
    rw [List.append_assoc, List.singleton_append, pieces_append_cons hp, pieces_append_cons hp,
      pieces_nil, List.append_nil]
  · obtain ⟨y, hy, hp⟩ := (Option.any_eq_true ..).mp h
    obtain ⟨rest, rfl⟩ := List.head?_eq_some_iff.mp hy
    rw [pieces_append_cons hp, pieces_cons hp]

/-- The nonempty parts of a text between the separators. -/
def split (q : Char → Bool) (s : String) : List String := (pieces q s.toList).map String.ofList

theorem split_append (h : s.toList.getLast?.any q ∨ t.toList.head?.any q) :
    split q (s ++ t) = split q s ++ split q t := by
  rw [split, String.toList_append, pieces_append h, List.map_append]
  rfl

/-- What stands between separators stands apart from both sides. -/
theorem split_around (s t u : String) (hhead : t.toList.head?.any q) (hlast : t.toList.getLast?.any q) :
    split q (s ++ t ++ u) = split q s ++ split q t ++ split q u := by
  have hend : (s ++ t).toList.getLast?.any q := by
    obtain ⟨c, hc, hq⟩ := (Option.any_eq_true ..).mp hlast
    rw [String.toList_append, List.getLast?_append, hc, Option.some_or, Option.any_some, hq]
  rw [split_append (.inl hend), split_append (.inr hhead)]

theorem split_eq_singleton (hne : s ≠ "") (h : ∀ c ∈ s.toList, q c = false) : split q s = [s] := by
  rw [split, pieces_eq_singleton (mt String.toList_eq_nil_iff.mp hne) h, List.map_singleton,
    String.ofList_toList]

/-! ## Groups -/

theorem splitOnP_append_of_forall (h : ∀ x ∈ xs, p x = false) (ys : List α) :
    (xs ++ ys).splitOnP p = (ys.splitOnP p).modifyHead (xs ++ ·) := by
  induction xs with
  | nil =>
      rw [List.nil_append]
      cases ys.splitOnP p <;> rfl
  | cons x xs ih =>
      obtain ⟨hx, hxs⟩ := List.forall_mem_cons.mp h
      rw [List.cons_append, List.splitOnP_cons_eq_if_modifyHead, hx, if_neg Bool.false_ne_true,
        ih hxs, List.modifyHead_modifyHead]
      rfl

/-- Where groups follow each other, and each has its separator at the front, these separate the rest. -/
theorem splitOnP_flatMap {β : Type} {l : List β} {head : β → α} {body : β → List α}
    (hhead : ∀ b ∈ l, p (head b) = true) (hbody : ∀ b ∈ l, ∀ x ∈ body b, p x = false) :
    (l.flatMap fun b => head b :: body b).splitOnP p = [] :: l.map body := by
  induction l with
  | nil => rfl
  | cons b l ih =>
      obtain ⟨hb, hl⟩ := List.forall_mem_cons.mp hhead
      obtain ⟨hb', hl'⟩ := List.forall_mem_cons.mp hbody
      rw [List.flatMap_cons, List.cons_append, List.splitOnP_cons_eq_if_modifyHead, if_pos hb,
        splitOnP_append_of_forall hb', ih hl hl', List.modifyHead_cons, List.append_nil, List.map_cons]

/-! ## Lines -/

/-- The lines of a text that are not empty. -/
def lines (s : String) : List String := split (· == '\n') s

/-- The text has no line break. -/
def Flat (s : String) : Prop := '\n' ∉ s.toList

instance (s : String) : Decidable (Flat s) := inferInstanceAs (Decidable (¬_))

@[simp] theorem flat_append : Flat (s ++ t) ↔ Flat s ∧ Flat t := by
  rw [Flat, String.toList_append, List.mem_append, not_or]
  rfl

theorem flat_replicate {c : Char} (hc : c ≠ '\n') (n : Nat) :
    Flat (String.ofList (List.replicate n c)) := by
  intro h
  rw [String.toList_ofList] at h
  exact hc (List.eq_of_mem_replicate h).symm

theorem flat_intercalate {ss : List String} (hs : Flat s) (h : ∀ t ∈ ss, Flat t) :
    Flat (s.intercalate ss) := by
  induction ss with
  | nil => exact List.not_mem_nil
  | cons t rest ih =>
      obtain ⟨ht, hrest⟩ := List.forall_mem_cons.mp h
      cases rest with
      | nil => rwa [String.intercalate_singleton]
      | cons u rest =>
          rw [String.intercalate_cons_cons, flat_append, flat_append]
          exact ⟨⟨ht, hs⟩, ih hrest⟩

/-- Lines that were put into one text are found again. -/
theorem lines_join {ls : List String} (h : ∀ l ∈ ls, l ≠ "" ∧ Flat l) :
    lines (String.join (ls.map (· ++ "\n"))) = ls := by
  induction ls with
  | nil => rfl
  | cons l ls ih =>
      obtain ⟨⟨hne, hflat⟩, hrest⟩ := List.forall_mem_cons.mp h
      have hl : split (· == '\n') l = [l] := split_eq_singleton hne fun c hc =>
        beq_false_of_ne fun hbreak => hflat (hbreak ▸ hc)
      rw [List.map_cons, String.join_cons, lines, split_around l "\n" _ rfl rfl, hl]
      exact congrArg (l :: ·) (ih hrest)

/-! ## Numbers -/

@[simp] theorem flat_natText (n : Nat) : Flat (natText n) := fun h =>
  absurd (isDigit_of_mem_natText h) (by decide)

theorem natText_ne (n : Nat) : natText n ≠ "" := by
  intro h
  have hread := readNat?_natText n
  rw [h] at hread
  cases hread

@[simp] theorem flat_intText (i : Int) : Flat (intText i) := fun h =>
  absurd (isDigit_of_mem_intText h) (by decide)

theorem intText_ne (i : Int) : intText i ≠ "" := by
  intro h
  have hread := readInt?_intText i
  rw [h] at hread
  cases hread

/-! ## Times -/

@[simp] theorem flat_padded (width n : Nat) : Flat (padded width n) :=
  flat_append.mpr ⟨flat_replicate (by decide) _, flat_natText n⟩

/-- The stamps of the clock are texts in a line. -/
theorem flat_timestamp (nanoseconds : Nat) : Flat (timestamp nanoseconds) := by
  have hfraction : ∀ n, Flat (fractionText n) := by
    intro n
    unfold fractionText
    repeat' split
    all_goals simp +decide
  simp +decide [timestamp, hfraction]

/-! ## Fields -/

/-- Whether the character separates fields. -/
def separates (c : Char) : Bool := c ∈ [' ', ',', '(', ')', '[', ']', '#', '@']

/-- The names and numbers in a text. -/
def fields (s : String) : List String := split separates s

theorem separates_of_isDigit {c : Char} (h : c = '-' ∨ c.isDigit = true) : separates c = false := by
  refine decide_eq_false fun hc => ?_
  simp only [List.mem_cons, List.not_mem_nil, or_false] at hc
  rcases hc with rfl | rfl | rfl | rfl | rfl | rfl | rfl | rfl
  all_goals exact absurd h (by decide)

theorem fields_natText (n : Nat) : fields (natText n) = [natText n] :=
  split_eq_singleton (natText_ne n) fun _ hc => separates_of_isDigit (.inr (isDigit_of_mem_natText hc))

theorem fields_intText (i : Int) : fields (intText i) = [intText i] :=
  split_eq_singleton (intText_ne i) fun _ hc => separates_of_isDigit (isDigit_of_mem_intText hc)

theorem fields_append (h : s.toList.getLast?.any separates ∨ t.toList.head?.any separates) :
    fields (s ++ t) = fields s ++ fields t := split_append h

theorem fields_around (s t u : String) (hhead : t.toList.head?.any separates)
    (hlast : t.toList.getLast?.any separates) :
    fields (s ++ t ++ u) = fields s ++ fields t ++ fields u := split_around s t u hhead hlast

theorem fields_intercalate (ss : List String) :
    fields (" ".intercalate ss) = ss.flatMap fields := by
  induction ss with
  | nil => rfl
  | cons s rest ih =>
      cases rest with
      | nil => rw [String.intercalate_singleton, List.flatMap_singleton]
      | cons t rest =>
          rw [String.intercalate_cons_cons, fields_around _ " " _ rfl rfl, ih,
            show fields " " = [] from rfl, List.append_nil]
          rfl

/-- Blanks before a text do not matter. -/
theorem fields_blanks_append (n : Nat) (s : String) :
    fields (String.ofList (List.replicate n ' ') ++ s) = fields s := by
  induction n with
  | zero => rw [List.replicate_zero, String.ofList_nil, String.empty_append]
  | succ n ih =>
      have hsplit : String.ofList (List.replicate (n + 1) ' ')
          = " " ++ String.ofList (List.replicate n ' ') := by
        rw [List.replicate_succ, ← List.singleton_append, String.ofList_append]
      rw [hsplit, String.append_assoc, fields_append (.inl rfl), ih]
      rfl

/-- A text with a field is not empty. -/
theorem ne_of_fields (h : fields s ≠ []) : s ≠ "" := fun hs => h (hs ▸ rfl)

example : fields "lines [#4@1 #7@12]" = ["lines", "4", "1", "7", "12"] := by decide

end TilePuzzle.Text
