import TilePuzzle.Proofs.Json.Writer
import TilePuzzle.Proofs.Level.Format
import TilePuzzle.Proofs.Text.Utf8
import TilePuzzle.Snapshot

/-!
# Files are read back

A level file and a snapshot, written as JSON, are read back as they were. For this it does not
matter how the JSON is rendered, and which of the objects that write the records stand in it
(`Written`), in particular for the two writers that there are; nor whether characters or their bytes
are read.

The main statement is `read_back`.
-/

namespace TilePuzzle

open Json (Field Records Lists Renders fields?_of_records int?_int nat?_int list?_of_lists
  lists_map)

variable {v : Json}

/-! ## Snapshots -/

theorem Terrain.ofJson?_toJson (t : Terrain) : ofJson? t.toJson = some t := by
  cases t <;> rfl

namespace TerrainView

/-- The objects that write a tile. -/
def Written (t : TerrainView) : Json → Prop :=
  Records [.required "position" t.position.Written, .required "structure" (· = t.terrain.toJson)]

theorem written_toJson (t : TerrainView) : t.Written t.toJson := by
  refine ⟨_, ?_, rfl⟩
  exact .all (.cons ⟨rfl, t.position.written_toJson⟩ (.cons ⟨rfl, rfl⟩ .nil))

theorem ofJson?_of_written {t : TerrainView} (ht : t.position.Fits) (h : t.Written v) :
    ofJson? v = some t := by
  obtain ⟨values, hvalues, hfields⟩ :=
    fields?_of_records ["position", "structure"] rfl (by decide) h 0
  rcases hfields with _ | ⟨hposition, _ | ⟨hterrain, ⟨⟩⟩⟩
  have hposition := hposition.need fun _ => Position.ofJson?_of_written ht
  have hterrain := hterrain.need fun _ hv => hv ▸ t.terrain.ofJson?_toJson
  rw [ofJson?, hvalues]
  simp only [Option.bind_eq_bind, Option.bind_some, hposition, hterrain]
  rfl

end TerrainView

namespace Avatar

/-- The identifiers have 32 bits, the counter has 64. -/
def Fits (a : Avatar) : Prop :=
  Bounds.nat32.Has a.id ∧ a.position.Fits ∧ Bounds.nat64.Has a.counter ∧
    ∀ id ∈ a.held, Bounds.nat32.Has id

instance (a : Avatar) : Decidable a.Fits := inferInstanceAs (Decidable (_ ∧ _))

/-- The identifier of what an avatar holds, or `null`. -/
def heldJson (a : Avatar) : Json :=
  match a.held with
  | none => .null
  | some id => .int id

/-- The objects that write an avatar. -/
def Written (a : Avatar) : Json → Prop :=
  Records [
    .required "id" (· = .int a.id),
    .required "position" a.position.Written,
    .required "program_counter" (· = .int a.counter),
    ⟨"held_block", (· = a.heldJson), a.held = none⟩]

theorem written_toJson (a : Avatar) : a.Written a.toJson := by
  refine ⟨_, ?_, rfl⟩
  exact .all (.cons ⟨rfl, rfl⟩ (.cons ⟨rfl, a.position.written_toJson⟩ (.cons ⟨rfl, rfl⟩
    (.cons ⟨rfl, rfl⟩ .nil))))

theorem optional?_heldJson {a : Avatar} (h : ∀ id ∈ a.held, Bounds.nat32.Has id) :
    Json.optional? (Json.nat? .nat32) a.heldJson = some a.held := by
  unfold heldJson
  cases hheld : a.held with
  | none => rfl
  | some id =>
      show (Json.nat? .nat32 (.int id)).map some = _
      rw [nat?_int (h id hheld)]
      rfl

theorem ofJson?_of_written {a : Avatar} (ha : a.Fits) (h : a.Written v) : ofJson? v = some a := by
  obtain ⟨values, hvalues, hfields⟩ :=
    fields?_of_records ["id", "position", "program_counter", "held_block"] rfl (by decide) h 4
  rcases hfields with _ | ⟨hid, _ | ⟨hposition, _ | ⟨hcounter, _ | ⟨hheld, ⟨⟩⟩⟩⟩⟩
  have hid := hid.need fun _ hv => hv ▸ nat?_int ha.1
  have hposition := hposition.need fun _ => Position.ofJson?_of_written ha.2.1
  have hcounter := hcounter.need fun _ hv => hv ▸ nat?_int ha.2.2.1
  have hheld := hheld.orElse (fun hnone => hnone) fun _ hv => hv ▸ optional?_heldJson ha.2.2.2
  rw [ofJson?, hvalues]
  simp only [Option.bind_eq_bind, Option.bind_some, hid, hposition, hcounter, hheld]
  rfl

end Avatar

namespace Block

/-- The identifier, the position and the number have 32 bits. -/
def Fits (b : Block) : Prop :=
  Bounds.nat32.Has b.id ∧ b.position.Fits ∧ Bounds.int32.Has b.number

instance (b : Block) : Decidable b.Fits := inferInstanceAs (Decidable (_ ∧ _))

/-- The objects that write a block. -/
def Written (b : Block) : Json → Prop :=
  Records [
    .required "id" (· = .int b.id),
    .required "position" b.position.Written,
    .required "number" (· = .int b.number),
    .required "held" (· = .bool b.held)]

theorem written_toJson (b : Block) : b.Written b.toJson := by
  refine ⟨_, ?_, rfl⟩
  exact .all (.cons ⟨rfl, rfl⟩ (.cons ⟨rfl, b.position.written_toJson⟩ (.cons ⟨rfl, rfl⟩
    (.cons ⟨rfl, rfl⟩ .nil))))

theorem ofJson?_of_written {b : Block} (hb : b.Fits) (h : b.Written v) : ofJson? v = some b := by
  obtain ⟨values, hvalues, hfields⟩ :=
    fields?_of_records ["id", "position", "number", "held"] rfl (by decide) h 0
  rcases hfields with _ | ⟨hid, _ | ⟨hposition, _ | ⟨hnumber, _ | ⟨hheld, ⟨⟩⟩⟩⟩⟩
  have hid := hid.need fun _ hv => hv ▸ nat?_int hb.1
  have hposition := hposition.need fun _ => Position.ofJson?_of_written hb.2.1
  have hnumber := hnumber.need fun _ hv => hv ▸ int?_int hb.2.2
  have hheld : Json.need Json.bool? _ = some b.held := hheld.need fun _ hv => hv ▸ rfl
  rw [ofJson?, hvalues]
  simp only [Option.bind_eq_bind, Option.bind_some, hid, hposition, hnumber, hheld]
  rfl

end Block

namespace Snapshot

/-- All integers of the snapshot have the widths that it promises. -/
structure Fits (s : Snapshot) : Prop where
  tick : Bounds.nat64.Has s.tick
  score : Bounds.int64.Has s.score
  remaining : Bounds.int64.Has s.remaining
  rows : Bounds.int32.Has s.rows
  cols : Bounds.int32.Has s.cols
  avatars : ∀ a ∈ s.avatars, a.Fits
  blocks : ∀ b ∈ s.blocks, b.Fits
  terrain : ∀ t ∈ s.terrain, t.position.Fits

/-- The objects that write a snapshot. -/
def Written (s : Snapshot) : Json → Prop :=
  Records [
    .required "tick" (· = .int s.tick),
    .required "score" (· = .int s.score),
    .required "remaining_budget" (· = .int s.remaining),
    .required "rows" (· = .int s.rows),
    .required "cols" (· = .int s.cols),
    .required "avatars" (Lists Avatar.Written s.avatars),
    .required "blocks" (Lists Block.Written s.blocks),
    .required "structures" (Lists TerrainView.Written s.terrain)]

theorem written_toJson (s : Snapshot) : s.Written s.toJson := by
  have havatars := lists_map Avatar.written_toJson s.avatars
  have hblocks := lists_map Block.written_toJson s.blocks
  have hterrain := lists_map TerrainView.written_toJson s.terrain
  refine ⟨_, ?_, rfl⟩
  exact .all (.cons ⟨rfl, rfl⟩ (.cons ⟨rfl, rfl⟩ (.cons ⟨rfl, rfl⟩ (.cons ⟨rfl, rfl⟩
    (.cons ⟨rfl, rfl⟩ (.cons ⟨rfl, havatars⟩ (.cons ⟨rfl, hblocks⟩ (.cons ⟨rfl, hterrain⟩
      .nil))))))))

theorem ofJson?_of_written {s : Snapshot} (hs : s.Fits) (h : s.Written v) : ofJson? v = some s := by
  obtain ⟨values, hvalues, hfields⟩ := fields?_of_records
    ["tick", "score", "remaining_budget", "rows", "cols", "avatars", "blocks", "structures"] rfl
    (by decide) h 0
  rcases hfields with _ | ⟨htick, _ | ⟨hscore, _ | ⟨hremaining, _ | ⟨hrows, _ | ⟨hcols,
    _ | ⟨havatars, _ | ⟨hblocks, _ | ⟨hterrain, ⟨⟩⟩⟩⟩⟩⟩⟩⟩⟩
  have htick := htick.need fun _ hv => hv ▸ nat?_int hs.tick
  have hscore := hscore.need fun _ hv => hv ▸ int?_int hs.score
  have hremaining := hremaining.need fun _ hv => hv ▸ int?_int hs.remaining
  have hrows := hrows.need fun _ hv => hv ▸ int?_int hs.rows
  have hcols := hcols.need fun _ hv => hv ▸ int?_int hs.cols
  have havatars := havatars.need fun _ hv =>
    list?_of_lists hv fun a ha _ => Avatar.ofJson?_of_written (hs.avatars a ha)
  have hblocks := hblocks.need fun _ hv =>
    list?_of_lists hv fun b hb _ => Block.ofJson?_of_written (hs.blocks b hb)
  have hterrain := hterrain.need fun _ hv =>
    list?_of_lists hv fun t ht _ => TerrainView.ofJson?_of_written (hs.terrain t ht)
  rw [ofJson?, hvalues]
  simp only [Option.bind_eq_bind, Option.bind_some, htick, hscore, hremaining, hrows, hcols,
    havatars, hblocks, hterrain]
  rfl

end Snapshot

/-! ## Texts -/

/-- The bytes of a text are read like the text. -/
theorem Json.ofBytes?_toUTF8 (s : String) : ofBytes? s.toUTF8 = ofText? s := by
  rw [ofBytes?, Text.decode_toUTF8, ofText?]

theorem LevelFile.ofText?_of_written {f : LevelFile} (hf : f.Fits) (hv : f.Written v) {s : String}
    (hs : Renders v.tokens s.toList) : ofText? s = some f := by
  rw [ofText?, Json.ofText?_of_renders hs]
  exact ofJson?_of_written hf hv

theorem Snapshot.ofText?_of_written {s : Snapshot} (hs : s.Fits) (hv : s.Written v) {text : String}
    (htext : Renders v.tokens text.toList) : ofText? text = some s := by
  rw [ofText?, Json.ofText?_of_renders htext]
  exact ofJson?_of_written hs hv

/-- A level file whose integers have the widths that it promises is read back from what is written
of it, and also if the members of the records in it change places, if other members come in, and if
fields that have their defaults are left out; and so is a snapshot. -/
theorem read_back :
    (∀ f : LevelFile, f.Fits →
      LevelFile.ofText? f.toJson.compact = some f ∧ LevelFile.ofText? f.toJson.pretty = some f ∧
      ∀ v, f.Written v → ∀ s : String, Renders v.tokens s.toList →
        LevelFile.ofText? s = some f ∧ LevelFile.ofBytes? s.toUTF8 = some f) ∧
    ∀ s : Snapshot, s.Fits →
      Snapshot.ofText? s.toJson.compact = some s ∧ Snapshot.ofText? s.toJson.pretty = some s ∧
      ∀ v, s.Written v → ∀ text : String, Renders v.tokens text.toList →
        Snapshot.ofText? text = some s := by
  constructor
  · intro f hf
    refine ⟨?_, ?_, fun v hv s hs => ?_⟩
    · exact LevelFile.ofText?_of_written hf f.written_toJson (Json.renders_compact _)
    · exact LevelFile.ofText?_of_written hf f.written_toJson (Json.renders_pretty _)
    · have htext := LevelFile.ofText?_of_written hf hv hs
      refine ⟨htext, ?_⟩
      rw [LevelFile.ofBytes?, Json.ofBytes?_toUTF8]
      exact htext
  · intro s hs
    refine ⟨?_, ?_, fun v hv text htext => Snapshot.ofText?_of_written hs hv htext⟩
    · exact Snapshot.ofText?_of_written hs s.written_toJson (Json.renders_compact _)
    · exact Snapshot.ofText?_of_written hs s.written_toJson (Json.renders_pretty _)

/-- A level file with integers at the ends of their ranges, and with text that has to be escaped. -/
def motley : LevelFile where
  layout := ["#\t\"", "\\é"]
  blocks := [{ id := 4294967295, position := ⟨-2147483648, 0⟩, number := 2147483647 }]
  goal := { idealTime := -9223372036854775808, idealLines := 0, budget := 9223372036854775807 }

/-- What is written of `motley`, but with the block behind the goal, without the fields that have
their defaults, and with a member `author`. -/
def motleyJson : Json :=
  .record [
    ("author", .array [.number none, .string none]),
    ("layout", .array [.text "#\t\"", .text "\\é"]),
    ("goal", .record [
      ("ideal_time", .int (-9223372036854775808)),
      ("ideal_lines", .int 0),
      ("num_of_commands", .int 9223372036854775807)]),
    ("blocks", .array [.record [
      ("number", .int 2147483647),
      ("id", .int 4294967295),
      ("x", .int (-2147483648)),
      ("y", .int 0)]])]

theorem written_motleyJson : motley.Written motleyJson := by
  have hgoal : motley.goal.Written (.record [
      ("ideal_time", .int (-9223372036854775808)),
      ("ideal_lines", .int 0),
      ("num_of_commands", .int 9223372036854775807)]) := by
    refine ⟨_, ?_, rfl⟩
    refine .without (i := 4) rfl rfl [_, _, _] [] (.array []) ?_
    refine .without (i := 3) rfl rfl [_, _, _] [_] (.array []) ?_
    exact .all (.cons ⟨rfl, rfl⟩ (.cons ⟨rfl, rfl⟩ (.cons ⟨rfl, rfl⟩
      (.cons ⟨rfl, _, .nil, rfl⟩ (.cons ⟨rfl, _, .nil, rfl⟩ .nil)))))
  have hblock : BlockSpec.Written
      { id := 4294967295, position := ⟨-2147483648, 0⟩, number := 2147483647 }
      (.record [
        ("number", .int 2147483647),
        ("id", .int 4294967295),
        ("x", .int (-2147483648)),
        ("y", .int 0)]) := by
    refine ⟨_, ?_, rfl⟩
    refine .reorder ?_ (@List.perm_middle _ _ [_, _, _] _)
    exact .all (.cons ⟨rfl, rfl⟩ (.cons ⟨rfl, rfl⟩ (.cons ⟨rfl, rfl⟩ (.cons ⟨rfl, rfl⟩ .nil))))
  refine ⟨_, ?_, rfl⟩
  refine .extend _ _ ?_ (by decide)
  refine .reorder ?_ (.cons _ (.swap _ _ _))
  refine .without (i := 6) rfl rfl [_, _, _] [] (.array []) ?_
  refine .without (i := 3) rfl rfl [_] [_, _, _] (.array []) ?_
  refine .without (i := 1) rfl rfl [] _ (.int 300) ?_
  refine .without (i := 0) rfl rfl [] _ (.text "") ?_
  exact .all (.cons ⟨rfl, rfl⟩ (.cons ⟨rfl, rfl⟩ (.cons ⟨rfl, _, .cons rfl (.cons rfl .nil), rfl⟩
    (.cons ⟨rfl, _, .nil, rfl⟩ (.cons ⟨rfl, _, .cons hblock .nil, rfl⟩ (.cons ⟨rfl, hgoal⟩
      (.cons ⟨rfl, _, .nil, rfl⟩ .nil)))))))

/-- A snapshot with an avatar that holds a block, and one that holds none. -/
def keepsake : Snapshot where
  tick := 18446744073709551615
  remaining := -1
  rows := 1
  cols := 2147483647
  avatars := [
    { id := 0, position := ⟨0, -1⟩, counter := 18446744073709551615, held := some 4294967295 },
    { id := 1, position := ⟨0, 1⟩ }]
  blocks := [{ id := 4294967295, position := ⟨0, -1⟩, number := -2147483648, held := true }]
  terrain := [⟨⟨0, 7⟩, .hole⟩]

theorem read_back_motley :
    motley.Fits ∧ motley.Written motleyJson ∧
      LevelFile.ofText? motleyJson.pretty = some motley ∧
      keepsake.Fits ∧ Snapshot.ofText? keepsake.toJson.compact = some keepsake := by
  have hmotley : motley.Fits := {
    timeLimit := by decide
    avatars := by decide
    blocks := by decide
    goal := ⟨by decide, by decide, by decide, by decide, by decide⟩
    program := by decide }
  have hkeepsake : keepsake.Fits := {
    tick := by decide
    score := by decide
    remaining := by decide
    rows := by decide
    cols := by decide
    avatars := by decide
    blocks := by decide
    terrain := by decide }
  obtain ⟨hfiles, hsnapshots⟩ := read_back
  obtain ⟨-, -, htexts⟩ := hfiles motley hmotley
  have hpretty := htexts motleyJson written_motleyJson _ (Json.renders_pretty motleyJson)
  exact ⟨hmotley, written_motleyJson, hpretty.1, hkeepsake, (hsnapshots keepsake hkeepsake).1⟩

end TilePuzzle
