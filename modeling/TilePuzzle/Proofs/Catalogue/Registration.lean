import Mathlib.Data.List.Nodup
import TilePuzzle.Catalogue
import TilePuzzle.Proofs.Except
import TilePuzzle.Proofs.Text.Lowercase

/-!
# Registered types

A catalogue comes about by registrations. `contains` and `build` normalize a tag when they look it up,
while `tags` lists the forms that were normalized when they were registered. All of them tell of the same
types, because a normalized tag is its own normalized form (`normalizeTag_normalizeTag`).

`MadeBy` keeps the registrations beside the catalogue, in the order in which they were made. What they say
of a form is `latest?`, and `Recorded` is the invariant that the catalogue says the same. The main
statement is `answers_of_madeBy`.
-/

namespace TilePuzzle

open Text (isBlank lower squeeze bounds_of_isLower lower_lower lower_of_isLower
  not_isBlank_of_mem_lower not_isBlank_of_mem_squeeze)

/-! ## Normalized tags -/

theorem squeeze_of_not_isBlank {s : String} (h : ∀ c ∈ s.toList, isBlank c = false) :
    squeeze s = s := by
  have hkeep : s.toList.filter (!isBlank ·) = s.toList := by
    rw [List.filter_eq_self]
    intro c hc
    rw [h c hc]
    rfl
  rw [squeeze, hkeep, String.ofList_toList]

theorem normalizeTag_normalizeTag (tag : String) :
    normalizeTag (normalizeTag tag) = normalizeTag tag := by
  have hblank : ∀ c ∈ (normalizeTag tag).toList, isBlank c = false := fun _ =>
    not_isBlank_of_mem_lower fun _ => not_isBlank_of_mem_squeeze
  show lower (squeeze (normalizeTag tag)) = normalizeTag tag
  rw [squeeze_of_not_isBlank hblank]
  exact lower_lower _

/-- The visible ASCII characters are not blank. -/
theorem not_isBlank_of_bounds {c : Char} (hlow : 33 ≤ c.toNat) (hhigh : c.toNat ≤ 126) :
    isBlank c = false := by
  simp only [isBlank, Bool.or_eq_false_iff, Bool.and_eq_false_iff, decide_eq_false_iff_not,
    beq_eq_false_iff_ne]
  omega

/-- A word of letters from a to z is a tag in normal form. -/
theorem normalizeTag_of_isLower {tag : String} (h : tag.toList.all Char.isLower = true) :
    normalizeTag tag = tag := by
  have hblank : ∀ c ∈ tag.toList, isBlank c = false := by
    intro c hc
    obtain ⟨hlow, hhigh⟩ := bounds_of_isLower (List.all_eq_true.mp h c hc)
    exact not_isBlank_of_bounds (by omega) (by omega)
  rw [normalizeTag, squeeze_of_not_isBlank hblank, lower_of_isLower h]

/-- The parameters that the type requires and `ps` lacks, in the order in which it names them. -/
def BlockType.absent (type : BlockType) (ps : Parameters) : List String :=
  type.required.filter (!ps.contains ·)

theorem BlockType.absent_eq_nil_iff {type : BlockType} {ps : Parameters} :
    type.absent ps = [] ↔ ∀ key ∈ type.required, (ps.get? key).isSome = true := by
  simp [absent, SortedMap.contains, Option.isSome_iff_ne_none]

namespace Catalogue

variable {c : Catalogue} {d : Descriptor} {type : BlockType} {command : Command}
  {history : List (String × BlockType)} {tag form : String}

/-! ## Reading a descriptor of a known type -/

theorem build_of_unknown (h : c.find? d.type = none) :
    c.build d = .error (.unknownType d.index d.type) := by
  rw [build, h]

theorem build_of_present (h : c.find? d.type = some type) (ha : type.absent d.parameters = []) :
    c.build d = (type.read d.parameters).mapError (.invalidParameters d.index d.type) := by
  rw [BlockType.absent] at ha
  simp only [build, h, ha]

theorem build_of_absent (h : c.find? d.type = some type) (ha : type.absent d.parameters ≠ []) :
    c.build d
      = .error (.invalidParameters d.index d.type (.absent (type.absent d.parameters))) := by
  obtain ⟨key, keys, hkeys⟩ := List.exists_cons_of_ne_nil ha
  rw [hkeys]
  rw [BlockType.absent] at hkeys
  simp only [build, h, hkeys]

theorem build_eq_ok_iff :
    c.build d = .ok command ↔ ∃ type, c.find? d.type = some type ∧
      type.absent d.parameters = [] ∧ type.read d.parameters = .ok command := by
  cases h : c.find? d.type with
  | none =>
      rw [build_of_unknown h]
      exact iff_of_false (fun h => nomatch h) fun ⟨_, h, _⟩ => nomatch h
  | some type =>
      simp only [Option.some.injEq, exists_eq_left']
      by_cases ha : type.absent d.parameters = []
      · rw [build_of_present h ha, mapError_eq_ok_iff]
        exact (and_iff_right ha).symm
      · rw [build_of_absent h ha]
        exact iff_of_false (fun h => nomatch h) fun h => ha h.1

/-- Only a tag that the catalogue does not contain is refused as unknown. -/
theorem contains_iff_build :
    c.contains d.type = true ↔ ∀ index tag, c.build d ≠ .error (.unknownType index tag) := by
  unfold contains
  cases h : c.find? d.type with
  | none => exact iff_of_false (fun h => nomatch h) fun hno => hno _ _ (build_of_unknown h)
  | some type =>
      refine iff_of_true rfl fun index tag => ?_
      by_cases ha : type.absent d.parameters = []
      · rw [build_of_present h ha]
        cases type.read d.parameters <;> exact fun h => nomatch h
      · rw [build_of_absent h ha]
        exact fun h => nomatch h

/-! ## Registrations -/

/-- The built-in types, in the order in which they are registered. -/
def builtin : List (String × BlockType) := [
  ("move", ⟨["direction"], Parameters.readMove⟩),
  ("step", ⟨["direction"], Parameters.readMove⟩),
  ("pick up", ⟨[], fun _ => .ok .pickUp⟩),
  ("drop", ⟨[], fun _ => .ok .drop⟩),
  ("add", ⟨[], Parameters.readArithmetic .add⟩),
  ("subtract", ⟨[], Parameters.readArithmetic .subtract⟩),
  ("multiply", ⟨[], Parameters.readArithmetic .multiply⟩),
  ("divide", ⟨[], Parameters.readArithmetic .divide⟩),
  ("if", ⟨["direction", "condition"], Parameters.readBranch⟩),
  ("end if", ⟨[], fun _ => .ok .endBranch⟩)]

/-- The catalogue is made by the registrations of `history`, from an empty one or from the standard
one. -/
inductive MadeBy : Catalogue → List (String × BlockType) → Prop
  | empty : MadeBy empty []
  | standard : MadeBy standard builtin
  | register {c : Catalogue} {history : List (String × BlockType)} (tag : String)
    (type : BlockType) : MadeBy c history → MadeBy (c.register tag type) (history ++ [(tag, type)])

/-- The type registered last under a tag of the normalized form `form`. -/
def latest? (history : List (String × BlockType)) (form : String) : Option BlockType :=
  (history.reverse.find? fun call => normalizeTag call.1 = form).map (·.2)

theorem latest?_append :
    latest? (history ++ [(tag, type)]) form
      = if normalizeTag tag = form then some type else latest? history form := by
  unfold latest?
  rw [List.reverse_append, List.reverse_singleton, List.singleton_append, List.find?_cons]
  by_cases h : normalizeTag tag = form <;> simp [h]

theorem mem_of_latest? (h : latest? history form = some type) :
    ∃ tag, (tag, type) ∈ history ∧ normalizeTag tag = form := by
  obtain ⟨⟨tag, type'⟩, hfind, rfl⟩ := Option.map_eq_some_iff.mp h
  refine ⟨tag, List.mem_reverse.mp (List.mem_of_find?_eq_some hfind), ?_⟩
  simpa using List.find?_some hfind

theorem latest?_isSome_iff :
    (latest? history form).isSome = true ↔ ∃ call ∈ history, normalizeTag call.1 = form := by
  unfold latest?
  rw [Option.isSome_map, List.find?_isSome]
  simp

/-- Among registrations of distinct forms each is the last one of its form. -/
theorem latest?_of_mem (hforms : (history.map fun call => normalizeTag call.1).Nodup)
    (h : (tag, type) ∈ history) : latest? history (normalizeTag tag) = some type := by
  obtain ⟨type', htype'⟩ := Option.isSome_iff_exists.mp (latest?_isSome_iff.mpr ⟨_, h, rfl⟩)
  obtain ⟨tag', h', hform⟩ := mem_of_latest? htype'
  have hsame := List.inj_on_of_nodup_map hforms h' h hform
  rw [htype', (Prod.mk.inj hsame).2]

/-- The catalogue knows of each form what was registered for it last. -/
def Recorded (c : Catalogue) (history : List (String × BlockType)) : Prop :=
  ∀ form, c.entries.get? form = latest? history form

namespace Recorded

theorem register (h : Recorded c history) (tag : String) (type : BlockType) :
    Recorded (c.register tag type) (history ++ [(tag, type)]) := by
  intro form
  rw [latest?_append, ← h form]
  exact SortedMap.get?_insert c.entries (normalizeTag tag) form type

theorem foldl_register (h : Recorded c history) (calls : List (String × BlockType)) :
    Recorded (calls.foldl (fun c call => c.register call.1 call.2) c) (history ++ calls) := by
  induction calls generalizing c history with
  | nil => rwa [List.append_nil]
  | cons call rest ih =>
      have hrest := ih (h.register call.1 call.2)
      rwa [List.append_assoc, List.singleton_append] at hrest

theorem empty : Recorded empty [] := by
  intro form
  rw [latest?, List.reverse_nil, List.find?_nil]
  rfl

theorem standard : Recorded standard builtin := by
  -- The standard catalogue makes these registrations one after the other.
  have hfold : Catalogue.standard
      = builtin.foldl (fun c call => c.register call.1 call.2) Catalogue.empty := rfl
  rw [hfold]
  exact empty.foldl_register builtin

variable (h : Recorded c history)

include h

theorem find?_eq (tag : String) : c.find? tag = latest? history (normalizeTag tag) := h _

theorem mem_keys_iff : form ∈ c.entries.keys ↔ ∃ call ∈ history, normalizeTag call.1 = form := by
  rw [← latest?_isSome_iff, ← h form, SortedMap.keys, List.mem_map, Option.isSome_iff_exists]
  constructor
  · rintro ⟨⟨form, type⟩, he, rfl⟩
    exact ⟨type, SortedMap.get?_eq_some_iff.mpr he⟩
  · rintro ⟨type, htype⟩
    exact ⟨(form, type), SortedMap.get?_eq_some_iff.mp htype, rfl⟩

/-- The forms that are listed are normalized, so looking one up finds its entry. -/
theorem find?_of_mem (hmem : (form, type) ∈ c.entries.entries) : c.find? form = some type := by
  obtain ⟨call, -, rfl⟩ := h.mem_keys_iff.mp (List.mem_map.mpr ⟨_, hmem, rfl⟩)
  rw [find?, normalizeTag_normalizeTag]
  exact SortedMap.get?_eq_some_iff.mpr hmem

end Recorded

theorem MadeBy.recorded (h : MadeBy c history) : Recorded c history := by
  induction h with
  | empty => exact .empty
  | standard => exact .standard
  | register tag type _ ih => exact ih.register tag type

/-! ## The standard catalogue -/

theorem normalizeTag_builtin : ∀ call ∈ builtin, normalizeTag call.1 = squeeze call.1 := by
  have hletters : ∀ call ∈ builtin, (squeeze call.1).toList.all Char.isLower = true := by decide
  exact fun call hcall => lower_of_isLower (hletters call hcall)

theorem nodup_builtin : (builtin.map fun call => normalizeTag call.1).Nodup := by
  rw [List.map_congr_left normalizeTag_builtin]
  decide

theorem find?_standard (h : (tag, type) ∈ builtin) : standard.find? tag = some type :=
  (Recorded.standard.find?_eq tag).trans (latest?_of_mem nodup_builtin h)

theorem mem_builtin_of_find? (h : standard.find? tag = some type) : ∃ t, (t, type) ∈ builtin := by
  rw [Recorded.standard.find?_eq] at h
  obtain ⟨t, hmem, -⟩ := mem_of_latest? h
  exact ⟨t, hmem⟩

/-- A built-in type reads a command without parameters, a move, an operation or an `if`. -/
theorem builtin_cases {P : BlockType → Prop}
    (plain : ∀ command ∈ [Command.pickUp, .drop, .endBranch], P ⟨[], fun _ => .ok command⟩)
    (move : P ⟨["direction"], Parameters.readMove⟩)
    (arithmetic : ∀ op, P ⟨[], Parameters.readArithmetic op⟩)
    (branch : P ⟨["direction", "condition"], Parameters.readBranch⟩)
    (h : (tag, type) ∈ builtin) : P type := by
  have hpickUp := plain .pickUp (by simp)
  have hdrop := plain .drop (by simp)
  have hend := plain .endBranch (by simp)
  simp only [builtin, List.mem_cons, Prod.mk.injEq, List.not_mem_nil, or_false] at h
  rcases h with ⟨-, rfl⟩ | ⟨-, rfl⟩ | ⟨-, rfl⟩ | ⟨-, rfl⟩ | ⟨-, rfl⟩ | ⟨-, rfl⟩ | ⟨-, rfl⟩ |
    ⟨-, rfl⟩ | ⟨-, rfl⟩ | ⟨-, rfl⟩
  all_goals first | assumption | exact arithmetic _

/-! ## What a catalogue answers -/

/-- What the catalogue answers tells of the registrations in `history`. -/
structure Answers (c : Catalogue) (history : List (String × BlockType)) : Prop where
  contains : ∀ d : Descriptor, c.contains d.type = true ↔
    ∀ index tag, c.build d ≠ .error (.unknownType index tag)
  unknown : ∀ d : Descriptor, latest? history (normalizeTag d.type) = none →
    c.build d = .error (.unknownType d.index d.type)
  /-- A descriptor is read as the type that was registered last under its tag says. -/
  present : ∀ (d : Descriptor) type, latest? history (normalizeTag d.type) = some type →
    type.absent d.parameters = [] →
      c.build d = (type.read d.parameters).mapError (.invalidParameters d.index d.type)
  /-- If required parameters are absent then all of them are named, and nothing is read: the type
  may read as it likes. -/
  absent : ∀ (d : Descriptor) type, latest? history (normalizeTag d.type) = some type →
    type.absent d.parameters ≠ [] →
      c.build d
          = .error (.invalidParameters d.index d.type (.absent (type.absent d.parameters))) ∧
        ∀ read, (c.register d.type ⟨type.required, read⟩).build d = c.build d
  ascending : (c.tags.map (·.1)).Pairwise (· < ·)
  listed : ∀ form, form ∈ c.tags.map (·.1) ↔ ∃ call ∈ history, normalizeTag call.1 = form
  /-- What is listed can be looked up, and is found with its own entry. -/
  resolved : ∀ t ∈ c.tags, c.contains t.1 = true ∧
    ∃ type, (t.1, type) ∈ c.entries.entries ∧ c.find? t.1 = some type ∧ type.required = t.2

theorem find?_register (c : Catalogue) (tag : String) (type : BlockType) :
    (c.register tag type).find? tag = some type := by
  rw [find?, register, SortedMap.get?_insert, if_pos rfl]

theorem map_tags (c : Catalogue) : c.tags.map (·.1) = c.entries.keys := by
  rw [tags, List.map_map]
  rfl

/-- Whatever was registered, in whatever spelling, the answers of a catalogue agree. -/
theorem answers_of_madeBy (h : MadeBy c history) : Answers c history where
  contains := fun _ => contains_iff_build
  unknown := fun d hnone => build_of_unknown ((h.recorded.find?_eq d.type).trans hnone)
  present := fun d _ htype ha => build_of_present ((h.recorded.find?_eq d.type).trans htype) ha
  absent := by
    intro d type htype ha
    rw [build_of_absent ((h.recorded.find?_eq d.type).trans htype) ha]
    refine ⟨rfl, fun read => ?_⟩
    have hbuild := build_of_absent (find?_register c d.type ⟨type.required, read⟩) ha
    exact hbuild
  ascending := by
    rw [map_tags]
    exact List.pairwise_map.mpr c.entries.ascending
  listed := by
    intro form
    rw [map_tags, h.recorded.mem_keys_iff]
  resolved := by
    intro t ht
    obtain ⟨⟨form, type⟩, hmem, rfl⟩ := List.mem_map.mp ht
    have hfind := h.recorded.find?_of_mem hmem
    exact ⟨by rw [Catalogue.contains, hfind]; rfl, type, hmem, hfind, rfl⟩

theorem answers_of_madeBy_move :
    let type : BlockType := ⟨["to", "via"], fun _ => .ok .drop⟩
    let c := standard.register " Mo VE" type
    let history := builtin ++ [(" Mo VE", type)]
    MadeBy c history ∧ Answers c history ∧
      c.build ⟨1, "move", .ofList [("via", "door")]⟩
        = .error (.invalidParameters 1 "move" (.absent ["to"])) := by
  intro type c history
  have hmade : MadeBy c history := .register " Mo VE" type .standard
  have hanswers := answers_of_madeBy hmade
  have hform : normalizeTag " Mo VE" = normalizeTag "move" := by decide +kernel
  have htype : latest? history (normalizeTag "move") = some type := by
    rw [latest?_append, if_pos hform]
  have habsent : type.absent (.ofList [("via", "door")]) = ["to"] := by decide
  have hbuild := hanswers.absent ⟨1, "move", .ofList [("via", "door")]⟩ type htype
  rw [habsent] at hbuild
  exact ⟨hmade, hanswers, (hbuild (List.cons_ne_nil _ _)).1⟩

end Catalogue

end TilePuzzle
