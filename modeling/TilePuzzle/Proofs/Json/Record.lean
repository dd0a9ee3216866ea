import Mathlib.Data.List.Forall2
import Mathlib.Data.List.Nodup
import Mathlib.Data.List.Perm.Basic
import TilePuzzle.Json.Decoder

/-!
# Records in other words

An object that writes a record may have its members in any order, may have members that are no
fields, and may lack a field that has its default in the record. `Members` starts from the members
of a record as it is written and has a step for each of these changes.

What the reader of records needs of an object does not change by these steps: every field is there
once, or it is one that may be left out. So the reader finds in each of these objects what stands in
the record (`fields?_of_records`).
-/

namespace TilePuzzle.Json

/-- A field of a record. -/
structure Field where
  name : String
  /-- The value writes the field. -/
  Written : Json → Prop
  /-- The field has its default, and may be left out. -/
  Spare : Prop

namespace Field

/-- A field that is always there. -/
def required (name : String) (Written : Json → Prop) : Field := ⟨name, Written, False⟩

/-- What is found of a field in an object. -/
def Admits (f : Field) : Option Json → Prop
  | some v => f.Written v
  | none => f.Spare

variable {α : Type} {name : String} {Written : Json → Prop} {Spare : Prop} {o : Option Json}
  {read : Json → Option α} {a default : α}

theorem Admits.need (h : (required name Written).Admits o)
    (hread : ∀ v, Written v → read v = some a) : Json.need read o = some a := by
  cases o with
  | none => exact h.elim
  | some v => exact hread v h

theorem Admits.orElse (h : Admits ⟨name, Written, Spare⟩ o) (hspare : Spare → a = default)
    (hread : ∀ v, Written v → read v = some a) : Json.orElse default read o = some a := by
  cases o with
  | none => exact congrArg some (hspare h).symm
  | some v => exact hread v h

end Field

/-- The members of an object that writes a record with these fields. -/
inductive Members (fields : List Field) : List (String × Json) → Prop
  /-- All fields, in their order. -/
  | all {ms : List (String × Json)} :
      List.Forall₂ (fun f m => m.1 = f.name ∧ f.Written m.2) fields ms → Members fields ms
  | reorder {ms ms' : List (String × Json)} : Members fields ms → ms.Perm ms' →
      Members fields ms'
  /-- One more member, whose name is not that of a field, with any value. -/
  | extend {ms : List (String × Json)} (name : String) (v : Json) : Members fields ms →
      name ∉ fields.map (·.name) → Members fields ((name, v) :: ms)
  /-- Without a field that has its default. -/
  | leaveOut {ms : List (String × Json)} {f : Field} {v : Json} :
      Members fields ((f.name, v) :: ms) → f ∈ fields → f.Spare → Members fields ms

/-- The value is an object that writes a record with these fields. -/
def Records (fields : List Field) (v : Json) : Prop := ∃ ms, Members fields ms ∧ v = .record ms

/-- The value is an array that writes a list. -/
def Lists {α : Type} (Written : α → Json → Prop) (as : List α) (v : Json) : Prop :=
  ∃ vs, List.Forall₂ Written as vs ∧ v = .array vs

/-! ## Records -/

variable {fields : List Field} {f : Field} {ms ms' : List (String × Json)}

/-- The field is there once, or it is not there and may be left out. -/
def Given (f : Field) (ms : List (String × Json)) : Prop :=
  (∃ v, ms.filter (·.1 = f.name) = [(f.name, v)] ∧ f.Written v) ∨
    (ms.filter (·.1 = f.name) = [] ∧ f.Spare)

theorem Given.perm (h : Given f ms) (hperm : ms.Perm ms') : Given f ms' := by
  have hfilter := hperm.filter (·.1 = f.name)
  rcases h with ⟨v, hv, hwritten⟩ | ⟨hnil, hspare⟩
  · rw [hv] at hfilter
    exact .inl ⟨v, hfilter.singleton_eq.symm, hwritten⟩
  · rw [hnil] at hfilter
    exact .inr ⟨hfilter.nil_eq.symm, hspare⟩

theorem filter_cons_of_ne {name : String} (v : Json) (hne : name ≠ f.name) :
    ((name, v) :: ms).filter (·.1 = f.name) = ms.filter (·.1 = f.name) :=
  List.filter_cons_of_neg (by simpa using hne)

theorem map_fst_of_all (h : List.Forall₂ (fun f m => m.1 = f.name ∧ f.Written m.2) fields ms) :
    ms.map (·.1) = fields.map (·.name) := by
  induction h with
  | nil => rfl
  | cons hm _ ih => rw [List.map_cons, List.map_cons, hm.1, ih]

theorem given_of_all (hnames : (fields.map (·.name)).Nodup)
    (h : List.Forall₂ (fun f m => m.1 = f.name ∧ f.Written m.2) fields ms) :
    ∀ f ∈ fields, Given f ms := by
  induction h with
  | nil => exact nofun
  | @cons f m fields ms hm hrest ih =>
      obtain ⟨hnew, hnames⟩ := List.nodup_cons.mp hnames
      obtain ⟨name, v⟩ := m
      obtain ⟨rfl, hwritten⟩ := hm
      intro g hg
      rcases List.mem_cons.mp hg with rfl | hg
      · have hnone : ms.filter (·.1 = g.name) = [] := by
          rw [← map_fst_of_all hrest] at hnew
          rw [List.filter_eq_nil_iff]
          intro m hm hname
          exact hnew (List.mem_map.mpr ⟨m, hm, of_decide_eq_true hname⟩)
        exact .inl ⟨v, by rw [List.filter_cons_of_pos (by simp), hnone], hwritten⟩
      · have hne : f.name ≠ g.name := fun heq => hnew (List.mem_map.mpr ⟨g, hg, heq.symm⟩)
        unfold Given
        rw [filter_cons_of_ne v hne]
        exact ih hnames g hg

/-- Every field is there once, or may be left out. -/
theorem Members.given (hnames : (fields.map (·.name)).Nodup) (h : Members fields ms) :
    ∀ f ∈ fields, Given f ms := by
  induction h with
  | all hall => exact given_of_all hnames hall
  | reorder _ hperm ih => exact fun f hf => (ih f hf).perm hperm
  | extend name v _ hname ih =>
      intro f hf
      have hne : name ≠ f.name := fun heq => hname (List.mem_map.mpr ⟨f, hf, heq.symm⟩)
      unfold Given
      rw [filter_cons_of_ne v hne]
      exact ih f hf
  | @leaveOut ms g v _ hg hspare ih =>
      intro f hf
      have hgiven := ih f hf
      by_cases hsame : g.name = f.name
      · -- The field was there once, so nothing is left of it.
        obtain rfl : g = f := List.inj_on_of_nodup_map hnames hg hf hsame
        rw [Given, List.filter_cons_of_pos (by simp)] at hgiven
        rcases hgiven with ⟨w, hw, -⟩ | ⟨hnil, -⟩
        · exact .inr ⟨(List.cons.inj hw).2, hspare⟩
        · cases hnil
      · unfold Given at hgiven
        rwa [filter_cons_of_ne v hsame] at hgiven

/-- A field that has its default may be left out wherever it stands. -/
theorem Members.without {i : Nat} (hf : fields[i]? = some f) (hspare : f.Spare)
    (front back : List (String × Json)) (v : Json)
    (h : Members fields (front ++ (f.name, v) :: back)) : Members fields (front ++ back) :=
  .leaveOut (.reorder h List.perm_middle) (List.mem_of_getElem? hf) hspare

/-- What is found of a field. -/
def found (ms : List (String × Json)) (f : Field) : Option Json :=
  (ms.find? (·.1 = f.name)).map (·.2)

theorem Given.admits (h : Given f ms) : f.Admits (found ms f) := by
  rw [found, ← List.head?_filter]
  rcases h with ⟨v, hv, hwritten⟩ | ⟨hnil, hspare⟩
  · rw [hv]
    exact hwritten
  · rw [hnil]
    exact hspare

theorem Given.length_le_one (h : Given f ms) : (ms.filter (·.1 = f.name)).length ≤ 1 := by
  rcases h with ⟨v, hv, -⟩ | ⟨hnil, -⟩
  · rw [hv]
    exact Nat.le_refl 1
  · rw [hnil]
    exact Nat.zero_le 1

theorem fields?_record (h : ∀ f ∈ fields, Given f ms) (least : Nat) :
    (record ms).fields? (fields.map (·.name)) least = some (fields.map (found ms)) := by
  have hkey : ∀ name : String, (fun m : Option String × Json => decide (m.1 = some name))
      ∘ (fun m : String × Json => (some m.1, m.2)) = fun m => decide (m.1 = name) := by
    intro name
    funext m
    simp
  have hkeys : (ms.map fun m => (some m.1, m.2)).all (·.1.isSome) = true := by simp
  have honce : (fields.map (·.name)).all (fun name =>
      ((ms.map fun m => (some m.1, m.2)).filter (·.1 = some name)).length ≤ 1) = true := by
    rw [List.all_map, List.all_eq_true]
    intro f hf
    rw [Function.comp_apply, List.filter_map, hkey, List.length_map, decide_eq_true_eq]
    exact (h f hf).length_le_one
  have hfound : (fields.map (·.name)).map (fun name =>
      ((ms.map fun m => (some m.1, m.2)).find? (·.1 = some name)).map (·.2))
        = fields.map (found ms) := by
    rw [List.map_map]
    refine List.map_congr_left fun f _ => ?_
    rw [Function.comp_apply, List.find?_map, hkey, Option.map_map]
    rfl
  simp only [record, fields?, hkeys, honce, Bool.and_self, if_true, hfound]

/-- The reader finds in an object that writes a record what stands in the record. -/
theorem fields?_of_records (names : List String) (hfields : fields.map (·.name) = names)
    (hnames : names.Nodup) {v : Json} (h : Records fields v) (least : Nat) :
    ∃ values, v.fields? names least = some values ∧ List.Forall₂ Field.Admits fields values := by
  obtain ⟨ms, hms, rfl⟩ := h
  subst hfields
  have hgiven := hms.given hnames
  refine ⟨_, fields?_record hgiven least, ?_⟩
  rw [List.forall₂_map_right_iff, List.forall₂_same]
  exact fun f hf => (hgiven f hf).admits

/-! ## Lists and plain values -/

theorem lists_map {α : Type} {Written : α → Json → Prop} {write : α → Json}
    (hwrite : ∀ a, Written a (write a)) (as : List α) :
    Lists Written as (.array (as.map write)) := by
  refine ⟨_, ?_, rfl⟩
  rw [List.forall₂_map_right_iff, List.forall₂_same]
  exact fun a _ => hwrite a

theorem list?_of_lists {α : Type} {Written : α → Json → Prop} {read : Json → Option α}
    {as : List α} {v : Json} (h : Lists Written as v)
    (hread : ∀ a ∈ as, ∀ v, Written a v → read v = some a) : list? read v = some as := by
  obtain ⟨vs, hvs, rfl⟩ := h
  rw [list?]
  induction hvs with
  | nil => rfl
  | @cons a v as vs hv _ ih =>
      rw [List.mapM_cons, hread a List.mem_cons_self v hv,
        ih fun a ha => hread a (List.mem_cons_of_mem _ ha)]
      rfl

theorem int?_int {b : Bounds} {n : Int} (h : b.Has n) : (int n).int? b = some n :=
  Bounds.check_eq_some_iff.mpr ⟨rfl, h⟩

theorem nat?_int {b : Bounds} {n : Nat} (h : b.Has n) : (int n).nat? b = some n := by
  rw [nat?, int?_int h]
  rfl

end TilePuzzle.Json
