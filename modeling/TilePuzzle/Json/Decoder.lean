import TilePuzzle.Bounds
import TilePuzzle.Json.Parser

/-!
# Reading records from JSON

A record is written as an object, whose unknown members are ignored, or as an array of its fields in
their order, from which fields at the end may be left off. `fields?` takes both forms apart. A field that
is not there is `none`; whether it has to be there is decided where the record is read, by `need` or
`orElse`.
-/

namespace TilePuzzle.Json

/-- The values of the fields `names`. In an object no field may be given twice, and every key has to spell
a text. An array has to hold at least `least` values. -/
def fields? (names : List String) (least : Nat) : Json → Option (List (Option Json))
  | .object members =>
    if members.all (·.1.isSome)
        && names.all (fun name => (members.filter (·.1 = some name)).length ≤ 1) then
      some (names.map fun name => (members.find? (·.1 = some name)).map (·.2))
    else none
  | .array values =>
    if least ≤ values.length && values.length ≤ names.length then
      some (values.map some ++ List.replicate (names.length - values.length) none)
    else none
  | _ => none

/-- The value of a field that has to be there. -/
def need {α : Type} (read : Json → Option α) : Option Json → Option α
  | some v => read v
  | none => none

/-- The value of a field that may be left out. -/
def orElse {α : Type} (default : α) (read : Json → Option α) : Option Json → Option α
  | some v => read v
  | none => some default

/-- An integer within bounds. -/
def int? (b : Bounds) : Json → Option Int
  | .number (some n) => b.check n
  | _ => none

/-- A natural number within bounds. -/
def nat? (b : Bounds) (v : Json) : Option Nat := (v.int? b).map Int.toNat

/-- A truth value. -/
def bool? : Json → Option Bool
  | .bool b => some b
  | _ => none

/-- A text. -/
def text? : Json → Option String
  | .string s => s
  | _ => none

/-- A list. -/
def list? {α : Type} (read : Json → Option α) : Json → Option (List α)
  | .array values => values.mapM read
  | _ => none

/-- A value, or `null` for none. -/
def optional? {α : Type} (read : Json → Option α) : Json → Option (Option α)
  | .null => some none
  | v => (read v).map some

end TilePuzzle.Json
