import TilePuzzle.Format
import TilePuzzle.Level.Basic

/-!
# JSON of level files

The reader and the writer of level files. The layout and the goal have to be given; every other field may
be left out and then has its default.
-/

namespace TilePuzzle

open Json (fields? need orElse int? nat? text? list?)

namespace AvatarSpec

/-- Reads an avatar. -/
def ofJson? (v : Json) : Option AvatarSpec := do
  match ← v.fields? ["id", "x", "y"] 0 with
  | [id, x, y] =>
    return {
      id := ← need (nat? .nat32) id
      position := ⟨← need (int? .int32) x, ← need (int? .int32) y⟩ }
  | _ => none

/-- Writes an avatar. -/
def toJson (a : AvatarSpec) : Json :=
  .record [("id", .int a.id), ("x", .int a.position.x), ("y", .int a.position.y)]

end AvatarSpec

namespace BlockSpec

/-- Reads a block. -/
def ofJson? (v : Json) : Option BlockSpec := do
  match ← v.fields? ["id", "x", "y", "number"] 0 with
  | [id, x, y, number] =>
    return {
      id := ← need (nat? .nat32) id
      position := ⟨← need (int? .int32) x, ← need (int? .int32) y⟩
      number := ← need (int? .int32) number }
  | _ => none

/-- Writes a block. -/
def toJson (b : BlockSpec) : Json :=
  .record [
    ("id", .int b.id),
    ("x", .int b.position.x),
    ("y", .int b.position.y),
    ("number", .int b.number)]

end BlockSpec

namespace LevelFile

/-- Reads a level file. -/
def ofJson? (v : Json) : Option LevelFile := do
  match ← v.fields? ["name", "time_limit", "layout", "avatars", "blocks", "goal", "program"] 0 with
  | [name, timeLimit, layout, avatars, blocks, goal, program] =>
    return {
      name := ← orElse "" text? name
      timeLimit := ← orElse 300 (int? .int64) timeLimit
      layout := ← need (list? text?) layout
      avatars := ← orElse [] (list? AvatarSpec.ofJson?) avatars
      blocks := ← orElse [] (list? BlockSpec.ofJson?) blocks
      goal := ← need Goal.ofJson? goal
      program := ← orElse [] Descriptor.listOfJson? program }
  | _ => none

/-- Writes a level file, with all its fields. -/
def toJson (f : LevelFile) : Json :=
  .record [
    ("name", .text f.name),
    ("time_limit", .int f.timeLimit),
    ("layout", .array (f.layout.map Json.text)),
    ("avatars", .array (f.avatars.map AvatarSpec.toJson)),
    ("blocks", .array (f.blocks.map BlockSpec.toJson)),
    ("goal", f.goal.toJson),
    ("program", .array (f.program.map Descriptor.toJson))]

/-- Reads the text of a level file. -/
def ofText? (s : String) : Option LevelFile := (Json.ofText? s).bind ofJson?

/-- Reads the bytes of a level file. -/
def ofBytes? (bytes : ByteArray) : Option LevelFile := (Json.ofBytes? bytes).bind ofJson?

end LevelFile

end TilePuzzle
