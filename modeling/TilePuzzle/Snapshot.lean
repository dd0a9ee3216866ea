import TilePuzzle.Engine.Basic
import TilePuzzle.Format

/-!
# Snapshots

A snapshot is a picture of a world, or of an engine, as a file: the avatars in their order, the blocks by
identifier, and every tile that is not floor, row by row.
-/

namespace TilePuzzle

open Json (fields? need int? nat? bool? list? optional?)

/-- A tile that is not floor. -/
structure TerrainView where
  position : Position
  terrain : Terrain
deriving DecidableEq, Repr

/-- A picture of a world. -/
structure Snapshot where
  tick : Nat := 0
  score : Int := 0
  remaining : Int := 0
  rows : Int
  cols : Int
  avatars : List Avatar
  blocks : List Block
  terrain : List TerrainView
deriving DecidableEq, Repr

/-- The tiles that are not floor, row by row. -/
def World.terrainViews (w : World) : List TerrainView :=
  w.grid.positions.filterMap fun position =>
    match w.terrain? position with
    | none | some .floor => none
    | some terrain => some { position, terrain }

/-- The picture of a world at rest. -/
def World.snapshot (w : World) : Snapshot where
  rows := w.grid.rows
  cols := w.grid.cols
  avatars := w.avatars
  blocks := w.blocks.mergeSort fun a b => a.id ≤ b.id
  terrain := w.terrainViews

/-- The picture of a run. -/
def Engine.snapshot (e : Engine) : Snapshot :=
  { e.world.snapshot with tick := e.ticks, score := e.score, remaining := e.remaining }

/-! ### As JSON -/

namespace Terrain

/-- Reads the name of a terrain, which may stand alone or as the key of `null`. -/
def ofJson? : Json → Option Terrain
  | .string (some "floor") | .object [(some "floor", .null)] => some floor
  | .string (some "wall") | .object [(some "wall", .null)] => some wall
  | .string (some "hole") | .object [(some "hole", .null)] => some hole
  | _ => none

/-- Writes the name of a terrain. -/
def toJson (t : Terrain) : Json := .text t.label

end Terrain

namespace TerrainView

/-- Reads a tile. -/
def ofJson? (v : Json) : Option TerrainView := do
  match ← v.fields? ["position", "structure"] 0 with
  | [position, terrain] =>
    return ⟨← need Position.ofJson? position, ← need Terrain.ofJson? terrain⟩
  | _ => none

/-- Writes a tile. -/
def toJson (t : TerrainView) : Json :=
  .record [("position", t.position.toJson), ("structure", t.terrain.toJson)]

end TerrainView

namespace Avatar

/-- Reads an avatar. What it holds may be left out of an object, but not of an array. -/
def ofJson? (v : Json) : Option Avatar := do
  match ← v.fields? ["id", "position", "program_counter", "held_block"] 4 with
  | [id, position, counter, held] =>
    return {
      id := ← need (nat? .nat32) id
      position := ← need Position.ofJson? position
      counter := ← need (nat? .nat64) counter
      held := ← Json.orElse none (optional? (nat? .nat32)) held }
  | _ => none

/-- Writes an avatar. -/
def toJson (a : Avatar) : Json :=
  .record [
    ("id", .int a.id),
    ("position", a.position.toJson),
    ("program_counter", .int a.counter),
    ("held_block", match a.held with
      | none => .null
      | some id => .int id)]

end Avatar

namespace Block

/-- Reads a block. -/
def ofJson? (v : Json) : Option Block := do
  match ← v.fields? ["id", "position", "number", "held"] 0 with
  | [id, position, number, held] =>
    return {
      id := ← need (nat? .nat32) id
      position := ← need Position.ofJson? position
      number := ← need (int? .int32) number
      held := ← need bool? held }
  | _ => none

/-- Writes a block. -/
def toJson (b : Block) : Json :=
  .record [
    ("id", .int b.id),
    ("position", b.position.toJson),
    ("number", .int b.number),
    ("held", .bool b.held)]

end Block

namespace Snapshot

/-- Reads a snapshot. -/
def ofJson? (v : Json) : Option Snapshot := do
  match ← v.fields?
    ["tick", "score", "remaining_budget", "rows", "cols", "avatars", "blocks", "structures"] 0 with
  | [tick, score, remaining, rows, cols, avatars, blocks, terrain] =>
    return {
      tick := ← need (nat? .nat64) tick
      score := ← need (int? .int64) score
      remaining := ← need (int? .int64) remaining
      rows := ← need (int? .int32) rows
      cols := ← need (int? .int32) cols
      avatars := ← need (list? Avatar.ofJson?) avatars
      blocks := ← need (list? Block.ofJson?) blocks
      terrain := ← need (list? TerrainView.ofJson?) terrain }
  | _ => none

/-- Writes a snapshot. -/
def toJson (s : Snapshot) : Json :=
  .record [
    ("tick", .int s.tick),
    ("score", .int s.score),
    ("remaining_budget", .int s.remaining),
    ("rows", .int s.rows),
    ("cols", .int s.cols),
    ("avatars", .array (s.avatars.map Avatar.toJson)),
    ("blocks", .array (s.blocks.map Block.toJson)),
    ("structures", .array (s.terrain.map TerrainView.toJson))]

/-- Reads the text of a snapshot. -/
def ofText? (s : String) : Option Snapshot := (Json.ofText? s).bind ofJson?

end Snapshot

end TilePuzzle
