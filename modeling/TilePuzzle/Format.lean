import TilePuzzle.Goal
import TilePuzzle.Descriptor
import TilePuzzle.Json.Decoder

/-!
# JSON of positions, goals and descriptors

The records that several files share, each with its reader and its writer. Integers have the bounds of
the words that the files promise: 32 bits for coordinates, numbers and indices, 64 bits for the marks
and the budget of a goal.
-/

namespace TilePuzzle

open Json (fields? need orElse int? nat? text? list?)

namespace Position

/-- Reads a position. -/
def ofJson? (v : Json) : Option Position := do
  match ← v.fields? ["x", "y"] 0 with
  | [x, y] => return ⟨← need (int? .int32) x, ← need (int? .int32) y⟩
  | _ => none

/-- Writes a position. -/
def toJson (p : Position) : Json := .record [("x", .int p.x), ("y", .int p.y)]

end Position

namespace BlockTarget

/-- Reads a block target. -/
def ofJson? (v : Json) : Option BlockTarget := do
  match ← v.fields? ["position", "number"] 0 with
  | [position, number] =>
    return ⟨← need Position.ofJson? position, ← need (int? .int32) number⟩
  | _ => none

/-- Writes a block target. -/
def toJson (t : BlockTarget) : Json :=
  .record [("position", t.position.toJson), ("number", .int t.number)]

end BlockTarget

namespace Goal

/-- Reads a goal; either list of targets may be left out. -/
def ofJson? (v : Json) : Option Goal := do
  match ← v.fields?
    ["ideal_time", "ideal_lines", "num_of_commands", "avatar_targets", "block_targets"] 0 with
  | [idealTime, idealLines, budget, avatarTargets, blockTargets] =>
    return {
      idealTime := ← need (int? .int64) idealTime
      idealLines := ← need (int? .int64) idealLines
      budget := ← need (int? .int64) budget
      avatarTargets := ← orElse [] (list? Position.ofJson?) avatarTargets
      blockTargets := ← orElse [] (list? BlockTarget.ofJson?) blockTargets }
  | _ => none

/-- Writes a goal. -/
def toJson (g : Goal) : Json :=
  .record [
    ("ideal_time", .int g.idealTime),
    ("ideal_lines", .int g.idealLines),
    ("num_of_commands", .int g.budget),
    ("avatar_targets", .array (g.avatarTargets.map Position.toJson)),
    ("block_targets", .array (g.blockTargets.map BlockTarget.toJson))]

end Goal

namespace Parameters

/-- Reads parameters: an object of texts. When a key is given twice, the later text counts. -/
def ofJson? : Json → Option Parameters
  | .object members => do
    let entries ← members.mapM fun (k, v) => return (← k, ← v.text?)
    return .ofList entries
  | _ => none

/-- Writes parameters, in the order of their keys. -/
def toJson (ps : Parameters) : Json := .record (ps.entries.map fun e => (e.1, .text e.2))

end Parameters

namespace Descriptor

/-- Reads a descriptor; its parameters may be left out. -/
def ofJson? (v : Json) : Option Descriptor := do
  match ← v.fields? ["index", "type", "parameters"] 0 with
  | [index, type, parameters] =>
    return {
      index := ← need (nat? .nat32) index
      type := ← need text? type
      parameters := ← orElse .empty Parameters.ofJson? parameters }
  | _ => none

/-- Writes a descriptor. -/
def toJson (d : Descriptor) : Json :=
  .record [
    ("index", .int d.index),
    ("type", .text d.type),
    ("parameters", d.parameters.toJson)]

/-- Reads a program file: a list of descriptors. -/
def listOfJson? : Json → Option (List Descriptor) := list? ofJson?

/-- Reads the bytes of a program file. An empty file has no descriptors. -/
def listOfBytes? (bytes : ByteArray) : Option (List Descriptor) :=
  if bytes.isEmpty then some [] else (Json.ofBytes? bytes).bind listOfJson?

end Descriptor

end TilePuzzle
