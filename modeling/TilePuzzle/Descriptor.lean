import TilePuzzle.Command.Basic
import TilePuzzle.SortedMap
import TilePuzzle.Text.Decimal

/-!
# Block descriptors

A descriptor is a command as an author writes it: an index that orders it, the text of its type, and
texts for its parameters. This module reads the parameters; each reader either gives a value of the
game or says in a `ParameterError` what is wrong with the text.
-/

namespace TilePuzzle

open Text (lower readInt? squeeze trim)

/-- The parameters of a descriptor, by name. -/
abbrev Parameters := SortedMap String String

/-- A command as an author writes it. -/
structure Descriptor where
  index : Nat
  type : String
  parameters : Parameters := .empty
deriving DecidableEq

/-- The form of a type or condition that ignores letter case and every blank. -/
def normalizeTag (s : String) : String := lower (squeeze s)

/-- What is wrong with the parameters of a descriptor. -/
inductive ParameterError where
  /-- Parameters that the type requires are absent. -/
  | absent (keys : List String)
  /-- A parameter that this command needs is absent. -/
  | missing (key : String)
  | unknownDirection (text : String)
  | stationaryMove
  | unknownComparison (text : String)
  | notInteger
  | unknownCondition (text : String)
  /-- A type of block that is not one of the standard ones refuses for a reason of its own. -/
  | other (reason : String)
deriving DecidableEq, Repr

/-- The error in words. -/
def ParameterError.message : ParameterError → String
  | absent keys => "missing parameter(s): " ++ ", ".intercalate keys
  | missing key => "missing parameter: " ++ key
  | unknownDirection text => "unknown direction '" ++ text ++ "'"
  | stationaryMove => "move needs a direction other than here"
  | unknownComparison text => "unknown comparison '" ++ text ++ "'"
  | notInteger => "value must be an integer"
  | unknownCondition text => "unknown condition '" ++ text ++ "'"
  | other reason => reason

/-- The direction that a text names; the error shows the text without the blanks around it. -/
def readDirection (s : String) : Except ParameterError Direction :=
  match Direction.ofText? s with
  | some direction => .ok direction
  | none => .error (.unknownDirection (trim s))

/-- The comparison that a text names; the error shows the text in lowercase, without the blanks around
it. -/
def readComparison (s : String) : Except ParameterError Comparison :=
  match Comparison.ofText? s with
  | some comparison => .ok comparison
  | none => .error (.unknownComparison (lower (trim s)))

/-- The integer of 32 bits that a text writes, whatever the blanks around it. -/
def readValue (s : String) : Except ParameterError Int :=
  match (readInt? (trim s)).bind Bounds.int32.check with
  | some value => .ok value
  | none => .error .notInteger

namespace Parameters

/-- The text of the parameter `key`. -/
def read (ps : Parameters) (key : String) : Except ParameterError String :=
  match ps.get? key with
  | some text => .ok text
  | none => .error (.missing key)

/-- The condition of an `if`. A comparison of numbers has parameters of its own. -/
def readCondition (ps : Parameters) (text : String) : Except ParameterError Condition :=
  match normalizeTag text with
  | "block" | "datacube" => .ok .block
  | "avatar" | "player" => .ok .avatar
  | "empty" | "nothing" => .ok .empty
  | "number" | "value" => do
    let comparison ← readComparison (← ps.read "comparison")
    let value ← readValue (← ps.read "value")
    return .number comparison value
  | tag =>
    match Terrain.ofText? tag with
    | some terrain => .ok (.terrain terrain)
    | none => .error (.unknownCondition (trim text))

/-- A move; it has to lead to another tile. -/
def readMove (ps : Parameters) : Except ParameterError Command := do
  let direction ← readDirection (← ps.read "direction")
  if direction = .here then .error .stationaryMove else return .move direction

/-- An operation on the held block; the operand rests here unless a direction is given. -/
def readArithmetic (op : Operation) (ps : Parameters) : Except ParameterError Command :=
  match ps.get? "direction" with
  | some text => return .arithmetic op (← readDirection text)
  | none => .ok (.arithmetic op .here)

/-- An `if`; its direction is read before its condition. -/
def readBranch (ps : Parameters) : Except ParameterError Command := do
  let direction ← readDirection (← ps.read "direction")
  let condition ← ps.readCondition (← ps.read "condition")
  return .branch direction condition

end Parameters

end TilePuzzle
