import TilePuzzle.Proofs.Catalogue.Reading
import TilePuzzle.Proofs.Program.Matching

/-!
# Describing a command

A command is described by its own labels: `Command.descriptor` names its type, and as far as the command
has them its direction and its condition, by the words that a listing shows. The words come from other
tables than those that the readers use, so each label is read back here (`Direction.ofText?_label` and its
like), and from these the whole description (`Catalogue.build_descriptor`).

Not every command can be described. A move leads to another tile, and the number of a condition fits into
32 bits; `Command.Lawful` says so, and the commands that are built are exactly the lawful ones
(`Catalogue.lawful_of_build`). So a built program can be described again line by line, whatever the
descriptors were that it was built from (`Program.build_descriptors`). The main statement is
`Catalogue.descriptions_exact`.
-/

namespace TilePuzzle

open Text (intText isBlank trim trimChars readInt?_intText)

/-! ## Descriptions -/

/-- The name of the condition, as an author gives it. -/
def Condition.name : Condition → String
  | terrain t => t.label
  | block => "block"
  | avatar => "avatar"
  | empty => "empty"
  | number _ _ => "number"

/-- The parameters that name the condition. -/
def Condition.parameters (q : Condition) : List (String × String) :=
  match q with
  | number comparison value =>
    [("condition", q.name), ("comparison", comparison.symbol), ("value", intText value)]
  | _ => [("condition", q.name)]

/-- The parameters that name what the command does. -/
def Command.parameters : Command → Parameters
  | move direction => .ofList [("direction", direction.label)]
  | arithmetic _ direction => .ofList [("direction", direction.label)]
  | branch direction condition => .ofList (("direction", direction.label) :: condition.parameters)
  | pickUp | drop | endBranch => .empty

/-- The descriptor that names the command by its labels. -/
def Command.descriptor (index : Nat) (c : Command) : Descriptor where
  index := index
  type := c.label
  parameters := c.parameters

/-- The number that the condition compares with fits into 32 bits. -/
def Condition.Lawful : Condition → Prop
  | number _ value => Bounds.int32.Has value
  | _ => True

/-- A move leads to another tile, and the condition of an `if` is lawful. -/
def Command.Lawful : Command → Prop
  | move direction => direction ≠ .here
  | branch _ condition => condition.Lawful
  | _ => True

/-! ## Labels are read back -/

theorem Direction.ofText?_label (d : Direction) : ofText? d.label = some d := by
  cases d <;> decide +kernel

theorem Comparison.ofText?_symbol (c : Comparison) : ofText? c.symbol = some c := by
  cases c <;> decide +kernel

theorem Terrain.ofText?_label (t : Terrain) : ofText? t.label = some t := by
  cases t <;> decide +kernel

theorem trim_of_not_isBlank {s : String} (h : ∀ c ∈ s.toList, isBlank c = false) : trim s = s := by
  have hdrop : ∀ cs : List Char, (∀ c ∈ cs, isBlank c = false) → cs.dropWhile isBlank = cs := by
    intro cs hcs
    cases cs with
    | nil => rfl
    | cons c cs =>
        rw [List.dropWhile_cons_of_neg]
        rw [hcs c List.mem_cons_self]
        exact Bool.false_ne_true
  rw [trim, trimChars, hdrop _ h, hdrop _ fun c hc => h c (List.mem_reverse.mp hc),
    List.reverse_reverse, String.ofList_toList]

theorem not_isBlank_of_isDigit {c : Char} (h : c.isDigit = true) : isBlank c = false := by
  simp only [Char.isDigit, Bool.and_eq_true, decide_eq_true_eq] at h
  have hlow : 48 ≤ c.toNat := UInt32.le_iff_toNat_le.mp h.1
  have hhigh : c.toNat ≤ 57 := UInt32.le_iff_toNat_le.mp h.2
  exact not_isBlank_of_bounds (by omega) (by omega)

theorem not_isBlank_of_mem_intText {i : Int} {c : Char} (h : c ∈ (intText i).toList) :
    isBlank c = false := by
  rcases Text.isDigit_of_mem_intText h with rfl | h
  · decide
  · exact not_isBlank_of_isDigit h

theorem trim_intText (i : Int) : trim (intText i) = intText i :=
  trim_of_not_isBlank fun _ => not_isBlank_of_mem_intText

theorem Condition.normalizeTag_name (q : Condition) : normalizeTag q.name = q.name := by
  have hletters : ∀ name ∈ ["floor", "wall", "hole", "block", "avatar", "empty", "number"],
      name.toList.all Char.isLower = true := by
    decide
  refine normalizeTag_of_isLower (hletters _ ?_)
  rcases q with (_ | _ | _) | _ | _ | _ | _ <;> simp [name, Terrain.label]

/-! ## Descriptions are built -/

namespace Command

variable {c : Command} {d : Direction} {q : Condition} {op : Operation}

theorem get?_move : (move d).parameters.get? "direction" = some d.label := by
  simp [parameters, SortedMap.ofList, SortedMap.get?_insert]

theorem get?_branch : (branch d q).parameters.get? "direction" = some d.label ∧
    (branch d q).parameters.get? "condition" = some q.name := by
  cases q <;> simp [parameters, Condition.parameters, SortedMap.ofList, SortedMap.get?_insert]

theorem direction?_move : (move d).parameters.direction? = some d := by
  rw [Parameters.direction?, get?_move, Option.bind_some, Direction.ofText?_label]

theorem direction?_branch : (branch d q).parameters.direction? = some d := by
  rw [Parameters.direction?, get?_branch.1, Option.bind_some, Direction.ofText?_label]

theorem conditionTag?_branch : (branch d q).parameters.conditionTag? = some q.name := by
  rw [Parameters.conditionTag?, get?_branch.2, Option.map_some, q.normalizeTag_name]

theorem comparison?_number {comparison : Comparison} {value : Int} :
    (branch d (.number comparison value)).parameters.comparison? = some comparison := by
  have hget : (branch d (.number comparison value)).parameters.get? "comparison"
      = some comparison.symbol := by
    simp [parameters, Condition.parameters, SortedMap.ofList, SortedMap.get?_insert]
  rw [Parameters.comparison?, hget, Option.bind_some, Comparison.ofText?_symbol]

theorem value?_number {comparison : Comparison} {value : Int} (h : Bounds.int32.Has value) :
    (branch d (.number comparison value)).parameters.value? = some value := by
  have hget : (branch d (.number comparison value)).parameters.get? "value"
      = some (intText value) := by
    simp [parameters, Condition.parameters, SortedMap.ofList, SortedMap.get?_insert]
  rw [Parameters.value?, hget, Option.bind_some, trim_intText, readInt?_intText, Option.bind_some,
    Bounds.check_eq_some_iff.mpr ⟨rfl, h⟩]

theorem names_branch (h : q.Lawful) : (branch d q).parameters.Names q.name q := by
  cases q with
  | terrain t =>
      left
      have hname : Condition.ofName? t.label = (Terrain.ofText? t.label).map .terrain := by
        cases t <;> rfl
      rw [Condition.name, hname, Terrain.ofText?_label, Option.map_some]
  | block | avatar | empty => exact .inl rfl
  | number comparison value =>
      exact .inr ⟨.inl rfl, comparison, value, comparison?_number, value?_number h, rfl⟩

theorem readMove_parameters (h : d ≠ .here) :
    (move d).parameters.readMove = .ok (move d) :=
  Parameters.readMove_eq_ok_iff.mpr ⟨d, direction?_move, h, rfl⟩

theorem readArithmetic_parameters :
    (arithmetic op d).parameters.readArithmetic op = .ok (arithmetic op d) :=
  Parameters.readArithmetic_eq_ok_iff.mpr ⟨d, .inl direction?_move, rfl⟩

theorem readBranch_parameters (h : q.Lawful) :
    (branch d q).parameters.readBranch = .ok (branch d q) :=
  Parameters.readBranch_eq_ok_iff.mpr
    ⟨d, q.name, q, direction?_branch, conditionTag?_branch, names_branch h, rfl⟩

/-- The label of a command is the tag of a built-in type that reads the command back. -/
theorem exists_builtin (h : c.Lawful) : ∃ type, (c.label, type) ∈ Catalogue.builtin ∧
    type.absent c.parameters = [] ∧ type.read c.parameters = .ok c := by
  cases c with
  | move d =>
      have habsent : BlockType.absent ⟨["direction"], Parameters.readMove⟩ (move d).parameters
          = [] := by
        refine BlockType.absent_eq_nil_iff.mpr fun key hkey => ?_
        rw [List.mem_singleton.mp hkey, get?_move]
        rfl
      exact ⟨_, by simp [Catalogue.builtin, label], habsent, readMove_parameters h⟩
  | pickUp => exact ⟨⟨[], fun _ => .ok .pickUp⟩, by simp [Catalogue.builtin, label], rfl, rfl⟩
  | drop => exact ⟨⟨[], fun _ => .ok .drop⟩, by simp [Catalogue.builtin, label], rfl, rfl⟩
  | arithmetic op d =>
      have hmem : (op.label, ⟨[], Parameters.readArithmetic op⟩) ∈ Catalogue.builtin := by
        cases op <;> simp [Catalogue.builtin, Operation.label]
      exact ⟨_, hmem, rfl, readArithmetic_parameters⟩
  | branch d q =>
      have habsent : BlockType.absent ⟨["direction", "condition"], Parameters.readBranch⟩
          (branch d q).parameters = [] := by
        refine BlockType.absent_eq_nil_iff.mpr fun key hkey => ?_
        rcases List.mem_pair.mp hkey with rfl | rfl
        · rw [get?_branch.1]
          rfl
        · rw [get?_branch.2]
          rfl
      exact ⟨_, by simp [Catalogue.builtin, label], habsent, readBranch_parameters h⟩
  | endBranch => exact ⟨⟨[], fun _ => .ok .endBranch⟩, by simp [Catalogue.builtin, label], rfl, rfl⟩

end Command

namespace Catalogue

variable {c : Command} {d : Descriptor}

theorem build_descriptor (h : c.Lawful) (index : Nat) :
    standard.build (c.descriptor index) = .ok c := by
  obtain ⟨type, hmem, habsent, hread⟩ := c.exists_builtin h
  exact build_eq_ok_iff.mpr ⟨type, find?_standard hmem, habsent, hread⟩

/-! ## What is built is lawful -/

theorem lawful_of_names {ps : Parameters} {tag : String} {q : Condition} (h : ps.Names tag q) :
    q.Lawful := by
  rcases h with h | ⟨-, comparison, value, -, hvalue, rfl⟩
  · unfold Condition.ofName? at h
    split at h
    iterate 6
      · cases h
        trivial
    · obtain ⟨t, -, rfl⟩ := Option.map_eq_some_iff.mp h
      trivial
  · exact Parameters.has_value? hvalue

theorem lawful_of_build (h : standard.build d = .ok c) : c.Lawful := by
  obtain ⟨type, hfind, -, hread⟩ := build_eq_ok_iff.mp h
  obtain ⟨tag, hmem⟩ := mem_builtin_of_find? hfind
  have hlawful : ∀ ps c, type.read ps = .ok c → c.Lawful := by
    apply builtin_cases (P := fun type => ∀ ps c, type.read ps = .ok c → c.Lawful) ?_ ?_ ?_ ?_ hmem
    · intro command hcommand ps c hc
      cases hc
      rcases List.mem_cons.mp hcommand with rfl | hcommand
      · trivial
      · rcases List.mem_pair.mp hcommand with rfl | rfl <;> trivial
    · intro ps c hc
      obtain ⟨direction, -, hne, rfl⟩ := Parameters.readMove_eq_ok_iff.mp hc
      exact hne
    · intro op ps c hc
      obtain ⟨direction, -, rfl⟩ := Parameters.readArithmetic_eq_ok_iff.mp hc
      trivial
    · intro ps c hc
      obtain ⟨direction, tag, q, -, -, hq, rfl⟩ := Parameters.readBranch_eq_ok_iff.mp hc
      exact lawful_of_names hq
  exact hlawful d.parameters c hread

end Catalogue

/-! ## Programs -/

namespace Program

open Catalogue (standard build_descriptor lawful_of_build)

variable {ds : List Descriptor} {p : Program} {cs : List Command} {indices : List Nat}

theorem map_index_descriptors (hlength : indices.length = cs.length) :
    (List.zipWith Command.descriptor indices cs).map (·.index) = indices := by
  induction indices generalizing cs with
  | nil => rfl
  | cons index indices ih =>
      cases cs with
      | nil => cases hlength
      | cons c cs =>
          rw [List.zipWith_cons_cons, List.map_cons, ih (Nat.succ.inj hlength)]
          rfl

theorem map_build_descriptors (hlength : indices.length = cs.length) (h : ∀ c ∈ cs, c.Lawful) :
    (List.zipWith Command.descriptor indices cs).map standard.build = cs.map .ok := by
  induction indices generalizing cs with
  | nil =>
      rw [List.length_eq_zero_iff.mp hlength.symm]
      rfl
  | cons index indices ih =>
      cases cs with
      | nil => cases hlength
      | cons c cs =>
          obtain ⟨hc, hcs⟩ := List.forall_mem_cons.mp h
          rw [List.zipWith_cons_cons, List.map_cons, List.map_cons, build_descriptor hc,
            ih (Nat.succ.inj hlength) hcs]

theorem lawful_of_mem (h : build standard ds = .ok p) : ∀ c ∈ p.commands, c.Lawful := by
  intro c hc
  have hbuilt : Except.ok c ∈ (order ds).map standard.build := by
    rw [(sound_of_build h).2]
    exact List.mem_map_of_mem hc
  obtain ⟨d, -, hd⟩ := List.mem_map.mp hbuilt
  exact lawful_of_build hd

/-- The commands of a built program, described in their order, are built into the same program. -/
theorem build_descriptors (h : build standard ds = .ok p) (hlength : indices.length = p.length)
    (hindices : indices.Pairwise (· ≤ ·)) :
    build standard (List.zipWith Command.descriptor indices p.commands) = .ok p := by
  have horder : order (List.zipWith Command.descriptor indices p.commands)
      = List.zipWith Command.descriptor indices p.commands := by
    refine order_of_pairwise (List.pairwise_map.mp ?_)
    rw [map_index_descriptors hlength]
    exact hindices
  have hcommands := map_build_descriptors hlength (lawful_of_mem h)
  rw [← horder] at hcommands
  obtain ⟨hsound, -⟩ := sound_of_build h
  obtain ⟨p', hp'⟩ := build_ok hcommands hsound.balanced
  obtain ⟨hsound', hcommands'⟩ := sound_of_build hp'
  have heq : p'.commands = p.commands := by
    rw [hcommands'] at hcommands
    exact List.map_injective_iff.mpr (fun _ _ h => Except.ok.inj h) hcommands
  rw [hp', hsound.eq_of_commands hsound' heq]

end Program

namespace Catalogue

/-- The standard catalogue builds exactly the lawful commands, and each from its own labels. A built
program is built again from the labels of its commands, jumps and all, with any indices that keep
the commands in their order. -/
theorem descriptions_exact :
    (∀ (c : Command) index, standard.build (c.descriptor index) = .ok c ↔ c.Lawful) ∧
      (∀ d c, standard.build d = .ok c →
        c.Lawful ∧ ∀ index, standard.build (c.descriptor index) = .ok c) ∧
      ∀ ds p (indices : List Nat), Program.build standard ds = .ok p →
        indices.length = p.length → indices.Pairwise (· ≤ ·) →
          Program.build standard (List.zipWith Command.descriptor indices p.commands) = .ok p := by
  refine ⟨fun c index => ⟨lawful_of_build, fun h => build_descriptor h index⟩, fun d c h => ?_,
    fun ds p indices h hlength hindices => Program.build_descriptors h hlength hindices⟩
  have hlawful := lawful_of_build h
  exact ⟨hlawful, build_descriptor hlawful⟩

theorem descriptions_exact_least :
    let q : Condition := .number .atLeast (-2147483648)
    let ds : List Descriptor := [⟨9, "end if", .empty⟩,
      ⟨4, "if", .ofList [("direction", "Center"), ("condition", "value"), ("comparison", " GE"),
        ("value", "-02147483648 ")]⟩]
    let p : Program := ⟨[.branch .here q, .endBranch], .ofList [(1, 2)], [2]⟩
    Program.build standard ds = .ok p ∧
      Program.build standard [(Command.branch .here q).descriptor 1, Command.endBranch.descriptor 2]
        = .ok p := by
  intro q ds p
  have hbuild : Program.build standard ds = .ok p := by
    have horder : Program.order ds = ds.reverse := by
      simp [Program.order, ds, List.mergeSort, List.MergeSort.Internal.splitInTwo]
    have hif : standard.build ⟨4, "if", .ofList [("direction", "Center"), ("condition", "value"),
        ("comparison", " GE"), ("value", "-02147483648 ")]⟩ = .ok (.branch .here q) := by
      refine build_eq_ok_iff.mpr ⟨⟨["direction", "condition"], Parameters.readBranch⟩,
        find?_standard (by simp [builtin]), rfl, Parameters.readBranch_eq_ok_iff.mpr ?_⟩
      exact ⟨.here, "value", q, by decide +kernel, by decide +kernel,
        .inr ⟨.inr rfl, .atLeast, -2147483648, by decide +kernel, by decide +kernel, rfl⟩, rfl⟩
    have hend : standard.build ⟨9, "end if", .empty⟩ = .ok .endBranch :=
      build_descriptor (c := .endBranch) trivial 9
    rw [Program.build, horder]
    simp only [ds, List.reverse_cons, List.reverse_nil, List.nil_append, List.singleton_append,
      Program.assemble, List.foldlM_cons, hif, hend]
    rfl
  exact ⟨hbuild, descriptions_exact.2.2 ds p [1, 2] hbuild rfl (by decide)⟩

end Catalogue

end TilePuzzle
