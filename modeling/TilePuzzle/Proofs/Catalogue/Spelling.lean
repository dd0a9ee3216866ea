import TilePuzzle.Proofs.Catalogue.Reading
import TilePuzzle.Proofs.Text.Spelling

/-!
# Descriptors in other spellings

Each text of a descriptor has changes of spelling of its own that do no harm: blanks anywhere in a type or
a condition, in a direction hyphens and underscores too, but around a comparison or a value only at the
ends. `Descriptor.Respelled` puts them together. The index and the parameters that no reader asks for are
free.

What the readers take from the parameters stays the same (`Parameters.Alike`), and so does what the
standard catalogue builds. The main statement is `Catalogue.build_respelled`.
-/

namespace TilePuzzle

open Text (isBlank isBlank_toLower lower trim Strew Pad OrRecase apply_toLower)

/-- The characters that the name of a direction may hold anywhere. -/
def Direction.isLoose (c : Char) : Bool := isBlank c || c == '-' || c == '_'

/-- The descriptor `d'` is `d` in another spelling. -/
structure Descriptor.Respelled (d d' : Descriptor) : Prop where
  type : Text.Respelled (OrRecase (Strew isBlank)) d.type d'.type
  direction : Option.Rel (Text.Respelled (OrRecase (Strew Direction.isLoose)))
    (d.parameters.get? "direction") (d'.parameters.get? "direction")
  condition : Option.Rel (Text.Respelled (OrRecase (Strew isBlank)))
    (d.parameters.get? "condition") (d'.parameters.get? "condition")
  comparison : Option.Rel (Text.Respelled (OrRecase Pad))
    (d.parameters.get? "comparison") (d'.parameters.get? "comparison")
  value : Option.Rel (Text.Respelled Pad)
    (d.parameters.get? "value") (d'.parameters.get? "value")

/-! ## Single texts -/

variable {s s' : String}

theorem normalizeTag_respelled (h : Text.Respelled (OrRecase (Strew isBlank)) s s') :
    normalizeTag s = normalizeTag s' :=
  h.lower_filter isBlank_toLower

theorem Direction.isLoose_toLower (c : Char) : isLoose c.toLower = isLoose c :=
  apply_toLower (by decide) c

theorem Direction.ofText?_respelled (h : Text.Respelled (OrRecase (Strew isLoose)) s s') :
    ofText? s = ofText? s' := by
  have hkeep : ∀ c, (!isLoose c) = (!isBlank c && c != '-' && c != '_') := by
    intro c
    rw [isLoose, Bool.not_or, Bool.not_or]
    rfl
  have hname := h.lower_filter isLoose_toLower
  simp only [hkeep] at hname
  exact congrArg ofName? hname

theorem Comparison.ofText?_respelled (h : Text.Respelled (OrRecase Pad) s s') :
    ofText? s = ofText? s' :=
  congrArg ofName? h.lower_trim

/-- Two texts that a reader takes for the same, or none at all, are read alike. -/
theorem bind_eq_of_rel {α : Type} {R : String → String → Prop} {f : String → Option α}
    {text text' : Option String} (hf : ∀ s s', R s s' → f s = f s')
    (h : Option.Rel R text text') : text.bind f = text'.bind f := by
  cases h with
  | some h => exact hf _ _ h
  | none => rfl

theorem isSome_eq_of_rel {R : String → String → Prop} {text text' : Option String}
    (h : Option.Rel R text text') : text.isSome = text'.isSome := by
  cases h <;> rfl

/-! ## Parameters -/

/-- The parameters name the same things, as far as the readers ask for them. -/
structure Parameters.Alike (ps ps' : Parameters) : Prop where
  present : ∀ key ∈ ["direction", "condition"], (ps.get? key).isSome = (ps'.get? key).isSome
  direction? : ps.direction? = ps'.direction?
  conditionTag? : ps.conditionTag? = ps'.conditionTag?
  comparison? : ps.comparison? = ps'.comparison?
  value? : ps.value? = ps'.value?

theorem Descriptor.Respelled.alike {d d' : Descriptor} (h : d.Respelled d') :
    d.parameters.Alike d'.parameters where
  present := by
    intro key hkey
    rcases List.mem_pair.mp hkey with rfl | rfl
    · exact isSome_eq_of_rel h.direction
    · exact isSome_eq_of_rel h.condition
  direction? := bind_eq_of_rel (fun _ _ => Direction.ofText?_respelled) h.direction
  conditionTag? := by
    rw [Parameters.conditionTag?, Parameters.conditionTag?, Option.map_eq_bind, Option.map_eq_bind]
    exact bind_eq_of_rel (fun _ _ hs => congrArg some (normalizeTag_respelled hs)) h.condition
  comparison? := bind_eq_of_rel (fun _ _ => Comparison.ofText?_respelled) h.comparison
  value? := by
    refine bind_eq_of_rel (fun s s' hs => ?_) h.value
    rw [hs.trim_eq]

namespace Parameters

variable {ps ps' : Parameters} {type : BlockType} {tag : String} {command : Command}

theorem Alike.names_iff (h : ps.Alike ps') (q : Condition) :
    ps.Names tag q ↔ ps'.Names tag q := by
  rw [Names, Names, h.comparison?, h.value?]

/-- The built-in types read alike what is named alike. -/
theorem Alike.read_iff (h : ps.Alike ps') (hmem : (tag, type) ∈ Catalogue.builtin) :
    type.read ps = .ok command ↔ type.read ps' = .ok command := by
  apply Catalogue.builtin_cases (P := fun type =>
    type.read ps = .ok command ↔ type.read ps' = .ok command) ?_ ?_ ?_ ?_ hmem
  · intro c hc
    exact Iff.rfl
  · show ps.readMove = _ ↔ ps'.readMove = _
    rw [readMove_eq_ok_iff, readMove_eq_ok_iff, h.direction?]
  -- An operation without a direction is read too, so it matters that both have one or none.
  · intro op
    have hpresent := h.present "direction" (by simp)
    have hnone : ps.get? "direction" = none ↔ ps'.get? "direction" = none := by
      rw [← Option.not_isSome_iff_eq_none, ← Option.not_isSome_iff_eq_none, hpresent]
    show ps.readArithmetic op = _ ↔ ps'.readArithmetic op = _
    rw [readArithmetic_eq_ok_iff, readArithmetic_eq_ok_iff, h.direction?, hnone]
  · show ps.readBranch = _ ↔ ps'.readBranch = _
    rw [readBranch_eq_ok_iff, readBranch_eq_ok_iff, h.direction?, h.conditionTag?]
    simp only [h.names_iff]

theorem Alike.absent_iff (h : ps.Alike ps') (hmem : (tag, type) ∈ Catalogue.builtin) :
    type.absent ps = [] ↔ type.absent ps' = [] := by
  have hrequired : ∀ key ∈ type.required, key ∈ ["direction", "condition"] := by
    apply Catalogue.builtin_cases
      (P := fun type => ∀ key ∈ type.required, key ∈ ["direction", "condition"]) ?_ ?_ ?_ ?_ hmem
      <;> simp
  rw [BlockType.absent_eq_nil_iff, BlockType.absent_eq_nil_iff]
  exact forall₂_congr fun key hkey => by rw [h.present key (hrequired key hkey)]

end Parameters

namespace Catalogue

/-- The standard catalogue builds the same command from a descriptor in another spelling. -/
theorem build_respelled {d d' : Descriptor} (h : d.Respelled d') (command : Command) :
    standard.build d' = .ok command ↔ standard.build d = .ok command := by
  have hfind : standard.find? d'.type = standard.find? d.type := by
    unfold find?
    rw [normalizeTag_respelled h.type]
  rw [build_eq_ok_iff, build_eq_ok_iff, hfind]
  refine exists_congr fun type => and_congr_right fun hmem => ?_
  obtain ⟨tag, hbuiltin⟩ := mem_builtin_of_find? hmem
  rw [h.alike.absent_iff hbuiltin, h.alike.read_iff hbuiltin]

theorem build_respelled_number :
    let d : Descriptor := ⟨3, "if", .ofList [("direction", "ne"), ("condition", "number"),
      ("comparison", "ge"), ("value", "-5")]⟩
    let d' : Descriptor := ⟨8, "I f", .ofList [("colour", "red"), ("direction", "N-e"),
      ("condition", "number "), ("comparison", "gE"), ("value", "\t-5")]⟩
    d.Respelled d' ∧ standard.build d' = .ok (.branch .northEast (.number .atLeast (-5))) := by
  intro d d'
  have hif : Text.Respelled (OrRecase (Strew isBlank)) "if" "I f" :=
    .trans _ _ _ (.rel _ _ (.inr (.letter [] ['f'] (by decide))))
      (.rel _ _ (.inl (.put ['I'] ['f'] (by decide))))
  have hdirection : Text.Respelled (OrRecase (Strew Direction.isLoose)) "ne" "N-e" :=
    .trans _ _ _ (.rel _ _ (.inr (.letter [] ['e'] (by decide))))
      (.rel _ _ (.inl (.put ['N'] ['e'] (by decide))))
  have hcondition : Text.Respelled (OrRecase (Strew isBlank)) "number" "number " :=
    .rel _ _ (.inl (.put "number".toList [] (by decide)))
  have hcomparison : Text.Respelled (OrRecase Pad) "ge" "gE" :=
    .rel _ _ (.inr (.letter ['g'] [] (by decide)))
  have hvalue : Text.Respelled Pad "-5" "\t-5" := .rel _ _ (.front _ (by decide))
  have h : d.Respelled d' := by
    refine ⟨hif, ?_, ?_, ?_, ?_⟩
    · exact Option.Rel.some hdirection
    · exact Option.Rel.some hcondition
    · exact Option.Rel.some hcomparison
    · exact Option.Rel.some hvalue
  have hread : d.parameters.readBranch = .ok (.branch .northEast (.number .atLeast (-5))) :=
    Parameters.readBranch_eq_ok_iff.mpr ⟨.northEast, "number", _, by decide +kernel,
      by decide +kernel, .inr ⟨.inl rfl, .atLeast, -5, by decide +kernel, by decide +kernel, rfl⟩,
      rfl⟩
  have hfind : standard.find? d.type
      = some ⟨["direction", "condition"], Parameters.readBranch⟩ :=
    find?_standard (by simp [d, builtin])
  exact ⟨h, (build_respelled h _).mpr (build_eq_ok_iff.mpr ⟨_, hfind, rfl, hread⟩)⟩

end Catalogue

end TilePuzzle
