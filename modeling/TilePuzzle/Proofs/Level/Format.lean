import TilePuzzle.Level.Format
import TilePuzzle.Proofs.Json.Record

/-!
# Reading level files

The records of a level file, each with the objects that write it (`Written`): what the writer makes
of it, and whatever comes of that when members change places, members that are no fields come in,
and fields that have their defaults are left out, in the record itself or in the records inside. The
reader takes all of them back to the record, if its integers have the widths that the file promises
(`Fits`).
-/

namespace TilePuzzle

open Json (Field Records Lists fields?_of_records int?_int nat?_int list?_of_lists
  lists_map)

variable {v : Json}

namespace Position

/-- The coordinates have 32 bits. -/
def Fits (p : Position) : Prop := Bounds.int32.Has p.x ∧ Bounds.int32.Has p.y

instance (p : Position) : Decidable p.Fits := inferInstanceAs (Decidable (_ ∧ _))

/-- The objects that write a position. -/
def Written (p : Position) : Json → Prop :=
  Records [.required "x" (· = .int p.x), .required "y" (· = .int p.y)]

theorem written_toJson (p : Position) : p.Written p.toJson := by
  refine ⟨_, ?_, rfl⟩
  exact .all (.cons ⟨rfl, rfl⟩ (.cons ⟨rfl, rfl⟩ .nil))

theorem ofJson?_of_written {p : Position} (hp : p.Fits) (h : p.Written v) : ofJson? v = some p := by
  obtain ⟨values, hvalues, hfields⟩ := fields?_of_records ["x", "y"] rfl (by decide) h 0
  rcases hfields with _ | ⟨hx, _ | ⟨hy, ⟨⟩⟩⟩
  have hx := hx.need fun _ hv => hv ▸ int?_int hp.1
  have hy := hy.need fun _ hv => hv ▸ int?_int hp.2
  rw [ofJson?, hvalues]
  simp only [Option.bind_eq_bind, Option.bind_some, hx, hy]
  rfl

end Position

namespace BlockTarget

/-- The position and the number have 32 bits. -/
def Fits (t : BlockTarget) : Prop := t.position.Fits ∧ Bounds.int32.Has t.number

instance (t : BlockTarget) : Decidable t.Fits := inferInstanceAs (Decidable (_ ∧ _))

/-- The objects that write a block target. -/
def Written (t : BlockTarget) : Json → Prop :=
  Records [.required "position" t.position.Written, .required "number" (· = .int t.number)]

theorem written_toJson (t : BlockTarget) : t.Written t.toJson := by
  refine ⟨_, ?_, rfl⟩
  exact .all (.cons ⟨rfl, t.position.written_toJson⟩ (.cons ⟨rfl, rfl⟩ .nil))

theorem ofJson?_of_written {t : BlockTarget} (ht : t.Fits) (h : t.Written v) :
    ofJson? v = some t := by
  obtain ⟨values, hvalues, hfields⟩ :=
    fields?_of_records ["position", "number"] rfl (by decide) h 0
  rcases hfields with _ | ⟨hposition, _ | ⟨hnumber, ⟨⟩⟩⟩
  have hposition := hposition.need fun _ => Position.ofJson?_of_written ht.1
  have hnumber := hnumber.need fun _ hv => hv ▸ int?_int ht.2
  rw [ofJson?, hvalues]
  simp only [Option.bind_eq_bind, Option.bind_some, hposition, hnumber]
  rfl

end BlockTarget

namespace Goal

/-- The marks and the budget have 64 bits, and the targets fit. -/
structure Fits (g : Goal) : Prop where
  idealTime : Bounds.int64.Has g.idealTime
  idealLines : Bounds.int64.Has g.idealLines
  budget : Bounds.int64.Has g.budget
  avatarTargets : ∀ p ∈ g.avatarTargets, p.Fits
  blockTargets : ∀ t ∈ g.blockTargets, t.Fits

instance (g : Goal) : Decidable g.Fits :=
  decidable_of_iff (Bounds.int64.Has g.idealTime ∧ Bounds.int64.Has g.idealLines
      ∧ Bounds.int64.Has g.budget ∧ (∀ p ∈ g.avatarTargets, p.Fits) ∧ ∀ t ∈ g.blockTargets, t.Fits)
    ⟨fun ⟨h₁, h₂, h₃, h₄, h₅⟩ => ⟨h₁, h₂, h₃, h₄, h₅⟩, fun ⟨h₁, h₂, h₃, h₄, h₅⟩ => ⟨h₁, h₂, h₃, h₄, h₅⟩⟩

/-- The objects that write a goal. -/
def Written (g : Goal) : Json → Prop :=
  Records [
    .required "ideal_time" (· = .int g.idealTime),
    .required "ideal_lines" (· = .int g.idealLines),
    .required "num_of_commands" (· = .int g.budget),
    ⟨"avatar_targets", Lists Position.Written g.avatarTargets, g.avatarTargets = []⟩,
    ⟨"block_targets", Lists BlockTarget.Written g.blockTargets, g.blockTargets = []⟩]

theorem written_toJson (g : Goal) : g.Written g.toJson := by
  have havatars := lists_map Position.written_toJson g.avatarTargets
  have hblocks := lists_map BlockTarget.written_toJson g.blockTargets
  refine ⟨_, ?_, rfl⟩
  exact .all (.cons ⟨rfl, rfl⟩ (.cons ⟨rfl, rfl⟩ (.cons ⟨rfl, rfl⟩
    (.cons ⟨rfl, havatars⟩ (.cons ⟨rfl, hblocks⟩ .nil)))))

theorem ofJson?_of_written {g : Goal} (hg : g.Fits) (h : g.Written v) : ofJson? v = some g := by
  obtain ⟨values, hvalues, hfields⟩ := fields?_of_records
    ["ideal_time", "ideal_lines", "num_of_commands", "avatar_targets", "block_targets"] rfl
    (by decide) h 0
  rcases hfields with _ | ⟨htime, _ | ⟨hlines, _ | ⟨hbudget, _ | ⟨havatars, _ | ⟨hblocks, ⟨⟩⟩⟩⟩⟩⟩
  have htime := htime.need fun _ hv => hv ▸ int?_int hg.idealTime
  have hlines := hlines.need fun _ hv => hv ▸ int?_int hg.idealLines
  have hbudget := hbudget.need fun _ hv => hv ▸ int?_int hg.budget
  have havatars := havatars.orElse id fun _ hv =>
    list?_of_lists hv fun p hp _ => Position.ofJson?_of_written (hg.avatarTargets p hp)
  have hblocks := hblocks.orElse id fun _ hv =>
    list?_of_lists hv fun t ht _ => BlockTarget.ofJson?_of_written (hg.blockTargets t ht)
  rw [ofJson?, hvalues]
  simp only [Option.bind_eq_bind, Option.bind_some, htime, hlines, hbudget, havatars, hblocks]
  rfl

end Goal

namespace SortedMap

variable {κ ν : Type} [LE κ] [LT κ] [Std.IsLinearOrder κ] [Std.LawfulOrderLT κ] [DecidableLT κ]

/-- A key behind all others goes to the end. -/
theorem insertEntry_of_lt {k : κ} (v : ν) {l : List (κ × ν)} (h : ∀ e ∈ l, e.1 < k) :
    insertEntry k v l = l ++ [(k, v)] := by
  induction l with
  | nil => rfl
  | cons e l ih =>
      have hlt := h e List.mem_cons_self
      have hnot : ¬k < e.1 := fun hgt => Std.lt_irrefl (Std.lt_trans hlt hgt)
      rw [insertEntry, if_neg hnot, if_pos hlt, ih fun e he => h e (List.mem_cons_of_mem _ he)]
      rfl

/-- The map of the entries of a map is this map. -/
theorem ofList_entries (m : SortedMap κ ν) : ofList m.entries = m := by
  have hfold : ∀ (l front : List (κ × ν)) (m : SortedMap κ ν), m.entries = front →
      (front ++ l).Pairwise (fun a b => a.1 < b.1) →
      (l.foldl (fun m e => m.insert e.1 e.2) m).entries = front ++ l := by
    intro l
    induction l with
    | nil => exact fun front m hm _ => hm.trans (List.append_nil front).symm
    | cons e l ih =>
        intro front m hm hsorted
        have hlt : ∀ a ∈ front, a.1 < e.1 := fun a ha =>
          (List.pairwise_append.mp hsorted).2.2 a ha e List.mem_cons_self
        have hinsert : (m.insert e.1 e.2).entries = front ++ [e] := by
          show insertEntry e.1 e.2 m.entries = _
          rw [hm, insertEntry_of_lt e.2 hlt]
        rw [List.append_cons] at hsorted ⊢
        exact ih _ _ hinsert hsorted
  exact ext (hfold m.entries [] empty rfl m.ascending)

end SortedMap

theorem Parameters.ofJson?_toJson (ps : Parameters) : ofJson? ps.toJson = some ps := by
  have hmapM : ∀ l : List (String × String), (l.map fun e => (some e.1, Json.text e.2)).mapM
      (fun m => (return (← m.1, ← m.2.text?) : Option (String × String))) = some l := by
    intro l
    induction l with
    | nil => rfl
    | cons e l ih =>
        rw [List.map_cons, List.mapM_cons, ih]
        rfl
  have hmembers : (ps.entries.map fun e => (e.1, Json.text e.2)).map (fun m => (some m.1, m.2))
      = ps.entries.map fun e => (some e.1, Json.text e.2) := by
    rw [List.map_map]
    rfl
  rw [toJson, Json.record, hmembers, ofJson?, hmapM]
  exact congrArg some (SortedMap.ofList_entries ps)

namespace Descriptor

/-- The index has 32 bits. -/
def Fits (d : Descriptor) : Prop := Bounds.nat32.Has d.index

instance (d : Descriptor) : Decidable d.Fits := inferInstanceAs (Decidable (Bounds.Has _ _))

/-- The objects that write a descriptor. -/
def Written (d : Descriptor) : Json → Prop :=
  Records [
    .required "index" (· = .int d.index),
    .required "type" (· = .text d.type),
    ⟨"parameters", (· = d.parameters.toJson), d.parameters = .empty⟩]

theorem written_toJson (d : Descriptor) : d.Written d.toJson := by
  refine ⟨_, ?_, rfl⟩
  exact .all (.cons ⟨rfl, rfl⟩ (.cons ⟨rfl, rfl⟩ (.cons ⟨rfl, rfl⟩ .nil)))

theorem ofJson?_of_written {d : Descriptor} (hd : d.Fits) (h : d.Written v) :
    ofJson? v = some d := by
  obtain ⟨values, hvalues, hfields⟩ :=
    fields?_of_records ["index", "type", "parameters"] rfl (by decide) h 0
  rcases hfields with _ | ⟨hindex, _ | ⟨htype, _ | ⟨hparameters, ⟨⟩⟩⟩⟩
  have hindex := hindex.need fun _ hv => hv ▸ nat?_int hd
  have htype : Json.need Json.text? _ = some d.type := htype.need fun _ hv => hv ▸ rfl
  have hparameters := hparameters.orElse id fun _ hv => hv ▸ Parameters.ofJson?_toJson d.parameters
  rw [ofJson?, hvalues]
  simp only [Option.bind_eq_bind, Option.bind_some, hindex, htype, hparameters]
  rfl

end Descriptor

namespace AvatarSpec

/-- The identifier and the position have 32 bits. -/
def Fits (a : AvatarSpec) : Prop := Bounds.nat32.Has a.id ∧ a.position.Fits

instance (a : AvatarSpec) : Decidable a.Fits := inferInstanceAs (Decidable (_ ∧ _))

/-- The objects that write an avatar of a level file. -/
def Written (a : AvatarSpec) : Json → Prop :=
  Records [
    .required "id" (· = .int a.id),
    .required "x" (· = .int a.position.x),
    .required "y" (· = .int a.position.y)]

theorem written_toJson (a : AvatarSpec) : a.Written a.toJson := by
  refine ⟨_, ?_, rfl⟩
  exact .all (.cons ⟨rfl, rfl⟩ (.cons ⟨rfl, rfl⟩ (.cons ⟨rfl, rfl⟩ .nil)))

theorem ofJson?_of_written {a : AvatarSpec} (ha : a.Fits) (h : a.Written v) :
    ofJson? v = some a := by
  obtain ⟨values, hvalues, hfields⟩ := fields?_of_records ["id", "x", "y"] rfl (by decide) h 0
  rcases hfields with _ | ⟨hid, _ | ⟨hx, _ | ⟨hy, ⟨⟩⟩⟩⟩
  have hid := hid.need fun _ hv => hv ▸ nat?_int ha.1
  have hx := hx.need fun _ hv => hv ▸ int?_int ha.2.1
  have hy := hy.need fun _ hv => hv ▸ int?_int ha.2.2
  rw [ofJson?, hvalues]
  simp only [Option.bind_eq_bind, Option.bind_some, hid, hx, hy]
  rfl

end AvatarSpec

namespace BlockSpec

/-- The identifier, the position and the number have 32 bits. -/
def Fits (b : BlockSpec) : Prop :=
  Bounds.nat32.Has b.id ∧ b.position.Fits ∧ Bounds.int32.Has b.number

instance (b : BlockSpec) : Decidable b.Fits := inferInstanceAs (Decidable (_ ∧ _))

/-- The objects that write a block of a level file. -/
def Written (b : BlockSpec) : Json → Prop :=
  Records [
    .required "id" (· = .int b.id),
    .required "x" (· = .int b.position.x),
    .required "y" (· = .int b.position.y),
    .required "number" (· = .int b.number)]

theorem written_toJson (b : BlockSpec) : b.Written b.toJson := by
  refine ⟨_, ?_, rfl⟩
  exact .all (.cons ⟨rfl, rfl⟩ (.cons ⟨rfl, rfl⟩ (.cons ⟨rfl, rfl⟩ (.cons ⟨rfl, rfl⟩ .nil))))

theorem ofJson?_of_written {b : BlockSpec} (hb : b.Fits) (h : b.Written v) :
    ofJson? v = some b := by
  obtain ⟨values, hvalues, hfields⟩ :=
    fields?_of_records ["id", "x", "y", "number"] rfl (by decide) h 0
  rcases hfields with _ | ⟨hid, _ | ⟨hx, _ | ⟨hy, _ | ⟨hnumber, ⟨⟩⟩⟩⟩⟩
  have hid := hid.need fun _ hv => hv ▸ nat?_int hb.1
  have hx := hx.need fun _ hv => hv ▸ int?_int hb.2.1.1
  have hy := hy.need fun _ hv => hv ▸ int?_int hb.2.1.2
  have hnumber := hnumber.need fun _ hv => hv ▸ int?_int hb.2.2
  rw [ofJson?, hvalues]
  simp only [Option.bind_eq_bind, Option.bind_some, hid, hx, hy, hnumber]
  rfl

end BlockSpec

namespace LevelFile

/-- All integers of the file have the widths that it promises. -/
structure Fits (f : LevelFile) : Prop where
  timeLimit : Bounds.int64.Has f.timeLimit
  avatars : ∀ a ∈ f.avatars, a.Fits
  blocks : ∀ b ∈ f.blocks, b.Fits
  goal : f.goal.Fits
  program : ∀ d ∈ f.program, d.Fits

instance (f : LevelFile) : Decidable f.Fits :=
  decidable_of_iff (Bounds.int64.Has f.timeLimit ∧ (∀ a ∈ f.avatars, a.Fits)
      ∧ (∀ b ∈ f.blocks, b.Fits) ∧ f.goal.Fits ∧ ∀ d ∈ f.program, d.Fits)
    ⟨fun ⟨h₁, h₂, h₃, h₄, h₅⟩ => ⟨h₁, h₂, h₃, h₄, h₅⟩, fun ⟨h₁, h₂, h₃, h₄, h₅⟩ => ⟨h₁, h₂, h₃, h₄, h₅⟩⟩

/-- The objects that write a level file. -/
def Written (f : LevelFile) : Json → Prop :=
  Records [
    ⟨"name", (· = .text f.name), f.name = ""⟩,
    ⟨"time_limit", (· = .int f.timeLimit), f.timeLimit = 300⟩,
    .required "layout" (Lists (fun row v => v = .text row) f.layout),
    ⟨"avatars", Lists AvatarSpec.Written f.avatars, f.avatars = []⟩,
    ⟨"blocks", Lists BlockSpec.Written f.blocks, f.blocks = []⟩,
    .required "goal" f.goal.Written,
    ⟨"program", Lists Descriptor.Written f.program, f.program = []⟩]

theorem written_toJson (f : LevelFile) : f.Written f.toJson := by
  have hlayout : Lists (fun row v => v = .text row) f.layout (.array (f.layout.map Json.text)) := by
    apply lists_map
    exact fun _ => rfl
  have havatars := lists_map AvatarSpec.written_toJson f.avatars
  have hblocks := lists_map BlockSpec.written_toJson f.blocks
  have hprogram := lists_map Descriptor.written_toJson f.program
  refine ⟨_, ?_, rfl⟩
  exact .all (.cons ⟨rfl, rfl⟩ (.cons ⟨rfl, rfl⟩ (.cons ⟨rfl, hlayout⟩ (.cons ⟨rfl, havatars⟩
    (.cons ⟨rfl, hblocks⟩ (.cons ⟨rfl, f.goal.written_toJson⟩ (.cons ⟨rfl, hprogram⟩ .nil)))))))

theorem ofJson?_of_written {f : LevelFile} (hf : f.Fits) (h : f.Written v) :
    ofJson? v = some f := by
  obtain ⟨values, hvalues, hfields⟩ := fields?_of_records
    ["name", "time_limit", "layout", "avatars", "blocks", "goal", "program"] rfl (by decide) h 0
  rcases hfields with _ | ⟨hname, _ | ⟨htime, _ | ⟨hlayout, _ | ⟨havatars, _ | ⟨hblocks,
    _ | ⟨hgoal, _ | ⟨hprogram, ⟨⟩⟩⟩⟩⟩⟩⟩⟩
  have hname : Json.orElse "" Json.text? _ = some f.name := hname.orElse id fun _ hv => hv ▸ rfl
  have htime := htime.orElse id fun _ hv => hv ▸ int?_int hf.timeLimit
  have hlayout : Json.need (Json.list? Json.text?) _ = some f.layout := hlayout.need fun _ hv =>
    list?_of_lists hv fun _ _ _ hrow => hrow ▸ rfl
  have havatars := havatars.orElse id fun _ hv =>
    list?_of_lists hv fun a ha _ => AvatarSpec.ofJson?_of_written (hf.avatars a ha)
  have hblocks := hblocks.orElse id fun _ hv =>
    list?_of_lists hv fun b hb _ => BlockSpec.ofJson?_of_written (hf.blocks b hb)
  have hgoal := hgoal.need fun _ => Goal.ofJson?_of_written hf.goal
  have hprogram := hprogram.orElse id fun _ hv =>
    list?_of_lists hv fun d hd _ => Descriptor.ofJson?_of_written (hf.program d hd)
  rw [ofJson?, hvalues]
  simp only [Option.bind_eq_bind, Option.bind_some, hname, htime, hlayout, havatars, hblocks,
    hgoal, hprogram, Descriptor.listOfJson?]
  rfl

end LevelFile

end TilePuzzle
