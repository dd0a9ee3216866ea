import TilePuzzle.Proofs.Catalogue.Registration

/-!
# What the readers accept

A command is read from parameters that are texts. What matters of each text is the value that it names:
`Parameters.direction?` and its like look a parameter up and read it in one step. For each reader there is
one lemma that says what it accepts in terms of these values, errors left aside, and none of the texts.
-/

namespace TilePuzzle

open Text (readInt? trim)

/-- The condition of a name in normal form, unless it compares numbers. -/
def Condition.ofName? : String → Option Condition
  | "block" | "datacube" => some block
  | "avatar" | "player" => some avatar
  | "empty" | "nothing" => some empty
  | tag => (Terrain.ofText? tag).map terrain

theorem readDirection_eq_ok_iff {s : String} {d : Direction} :
    readDirection s = .ok d ↔ Direction.ofText? s = some d := by
  unfold readDirection
  cases Direction.ofText? s <;> simp

theorem readComparison_eq_ok_iff {s : String} {c : Comparison} :
    readComparison s = .ok c ↔ Comparison.ofText? s = some c := by
  unfold readComparison
  cases Comparison.ofText? s <;> simp

theorem readValue_eq_ok_iff {s : String} {value : Int} :
    readValue s = .ok value ↔ (readInt? (trim s)).bind Bounds.int32.check = some value := by
  unfold readValue
  cases (readInt? (trim s)).bind Bounds.int32.check <;> simp

namespace Parameters

variable {ps : Parameters} {key text tag : String} {op : Operation} {command : Command}
  {q : Condition} {value : Int}

theorem read_eq_ok_iff : ps.read key = .ok text ↔ ps.get? key = some text := by
  unfold read
  cases ps.get? key <;> simp

/-- The direction that the parameters name. -/
def direction? (ps : Parameters) : Option Direction :=
  (ps.get? "direction").bind Direction.ofText?

/-- The condition that the parameters name, in normal form. -/
def conditionTag? (ps : Parameters) : Option String := (ps.get? "condition").map normalizeTag

/-- The comparison that the parameters name. -/
def comparison? (ps : Parameters) : Option Comparison :=
  (ps.get? "comparison").bind Comparison.ofText?

/-- The value to compare with that the parameters name. -/
def value? (ps : Parameters) : Option Int :=
  (ps.get? "value").bind fun s => (readInt? (trim s)).bind Bounds.int32.check

/-- The parameters name the condition `q` by the name `tag` in normal form. -/
def Names (ps : Parameters) (tag : String) (q : Condition) : Prop :=
  Condition.ofName? tag = some q ∨
    (tag = "number" ∨ tag = "value") ∧ ∃ comparison value, ps.comparison? = some comparison ∧
      ps.value? = some value ∧ q = .number comparison value

/-- The value to compare with fits into 32 bits. -/
theorem has_value? (h : ps.value? = some value) : Bounds.int32.Has value := by
  obtain ⟨s, -, hs⟩ := Option.bind_eq_some_iff.mp h
  obtain ⟨n, -, hn⟩ := Option.bind_eq_some_iff.mp hs
  obtain ⟨rfl, hhas⟩ := Bounds.check_eq_some_iff.mp hn
  exact hhas

theorem readMove_eq_ok_iff :
    ps.readMove = .ok command ↔
      ∃ d, ps.direction? = some d ∧ d ≠ .here ∧ command = .move d := by
  unfold readMove direction?
  simp only [bind_eq_ok_iff, read_eq_ok_iff, readDirection_eq_ok_iff, Option.bind_eq_some_iff]
  constructor
  · rintro ⟨text, htext, d, hd, h⟩
    split at h
    · cases h
    · next hne =>
        cases h
        exact ⟨d, ⟨text, htext, hd⟩, hne, rfl⟩
  · rintro ⟨d, ⟨text, htext, hd⟩, hne, rfl⟩
    exact ⟨text, htext, d, hd, if_neg hne⟩

theorem readArithmetic_eq_ok_iff :
    ps.readArithmetic op = .ok command ↔
      ∃ d, (ps.direction? = some d ∨ ps.get? "direction" = none ∧ d = .here) ∧
        command = .arithmetic op d := by
  unfold readArithmetic direction?
  cases ps.get? "direction" with
  | none => simp [eq_comm]
  | some text =>
      simp only [bind_eq_ok_iff, readDirection_eq_ok_iff, Option.bind_some]
      constructor
      · rintro ⟨d, hd, h⟩
        cases h
        exact ⟨d, .inl hd, rfl⟩
      · rintro ⟨d, hd | ⟨hnone, -⟩, rfl⟩
        · exact ⟨d, hd, rfl⟩
        · cases hnone

/-- The two names of a comparison of numbers name nothing else. -/
theorem ofName?_number (h : tag = "number" ∨ tag = "value") : Condition.ofName? tag = none := by
  rcases h with rfl | rfl <;> decide +kernel

theorem readCondition_eq_ok_iff :
    ps.readCondition text = .ok q ↔ ps.Names (normalizeTag text) q := by
  have hcompare : (do
      let comparison ← readComparison (← ps.read "comparison")
      let value ← readValue (← ps.read "value")
      return Condition.number comparison value) = Except.ok q ↔
      ∃ comparison value, ps.comparison? = some comparison ∧ ps.value? = some value ∧
        q = .number comparison value := by
    unfold comparison? value?
    simp only [bind_eq_ok_iff, read_eq_ok_iff, readComparison_eq_ok_iff, readValue_eq_ok_iff,
      Option.bind_eq_some_iff (x := ps.get? _)]
    constructor
    · rintro ⟨s, hs, comparison, hcomparison, t, ht, value, hvalue, h⟩
      cases h
      exact ⟨comparison, value, ⟨s, hs, hcomparison⟩, ⟨t, ht, hvalue⟩, rfl⟩
    · rintro ⟨comparison, value, ⟨s, hs, hcomparison⟩, ⟨t, ht, hvalue⟩, rfl⟩
      exact ⟨s, hs, comparison, hcomparison, t, ht, value, hvalue, rfl⟩
  unfold readCondition Names
  generalize normalizeTag text = tag
  split
  iterate 6 · simp [Condition.ofName?]
  · rw [hcompare, ofName?_number (.inl rfl)]
    simp
  · rw [hcompare, ofName?_number (.inr rfl)]
    simp
  · next hnumber hvalue =>
      have hname : Condition.ofName? tag = (Terrain.ofText? tag).map .terrain := by
        simp only [Condition.ofName?]
      have hother : ¬(tag = "number" ∨ tag = "value") := not_or.mpr ⟨hnumber, hvalue⟩
      rw [hname]
      cases Terrain.ofText? tag <;> simp [hother]

theorem readBranch_eq_ok_iff :
    ps.readBranch = .ok command ↔ ∃ d tag q, ps.direction? = some d ∧
      ps.conditionTag? = some tag ∧ ps.Names tag q ∧ command = .branch d q := by
  unfold readBranch direction? conditionTag?
  simp only [bind_eq_ok_iff, read_eq_ok_iff, readDirection_eq_ok_iff, readCondition_eq_ok_iff,
    Option.bind_eq_some_iff, Option.map_eq_some_iff]
  constructor
  · rintro ⟨text, htext, d, hd, name, hname, q, hq, h⟩
    cases h
    exact ⟨d, _, q, ⟨text, htext, hd⟩, ⟨name, hname, rfl⟩, hq, rfl⟩
  · rintro ⟨d, _, q, ⟨text, htext, hd⟩, ⟨name, hname, rfl⟩, hq, rfl⟩
    exact ⟨text, htext, d, hd, name, hname, q, hq, rfl⟩

end Parameters

end TilePuzzle
