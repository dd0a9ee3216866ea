import TilePuzzle.Json.Lexer
import TilePuzzle.Text.Utf8

/-!
# From tokens to a value

The parser takes one token at a time. What it knows is the list of arrays and objects that are still
open, innermost first, and what may come next; so nesting costs no recursion, and a text may nest
values to any depth. A text is a value if the machine ends right after one with nothing open.
-/

namespace TilePuzzle.Json

/-- An array or object that is still open: what came before, last first, and for an object the key of the
member whose value is being read. -/
inductive Frame where
  | array (before : List Json)
  | object (before : List (Option String × Json)) (key : Option String)

/-- What may come next. -/
inductive Expect where
  /-- A value. -/
  | value
  /-- The first element of an array, or its end. -/
  | firstElement
  /-- The first key of an object, or its end. -/
  | firstKey
  /-- A further key of an object. -/
  | key (before : List (Option String × Json))
  /-- The colon after a key. -/
  | colon (before : List (Option String × Json)) (key : Option String)
  /-- A comma or an end, after the value `v`. -/
  | after (v : Json)

/-- The machine after the first token of a value. -/
def begin? (opened : List Frame) : Token → Option (Expect × List Frame)
  | .openBracket => some (.firstElement, opened)
  | .openBrace => some (.firstKey, opened)
  | .null => some (.after .null, opened)
  | .bool b => some (.after (.bool b), opened)
  | .number n => some (.after (.number n), opened)
  | .string s => some (.after (.string s), opened)
  | _ => none

/-- The machine after one more token. -/
def step? : Expect × List Frame → Token → Option (Expect × List Frame)
  | (.value, opened), t => begin? opened t
  | (.firstElement, opened), .closeBracket => some (.after (.array []), opened)
  | (.firstElement, opened), t => begin? (.array [] :: opened) t
  | (.firstKey, opened), .closeBrace => some (.after (.object []), opened)
  | (.firstKey, opened), .string k => some (.colon [] k, opened)
  | (.key before, opened), .string k => some (.colon before k, opened)
  | (.colon before k, opened), .colon => some (.value, .object before k :: opened)
  | (.after v, .array before :: opened), .comma => some (.value, .array (v :: before) :: opened)
  | (.after v, .array before :: opened), .closeBracket =>
    some (.after (.array (v :: before).reverse), opened)
  | (.after v, .object before k :: opened), .comma => some (.key ((k, v) :: before), opened)
  | (.after v, .object before k :: opened), .closeBrace =>
    some (.after (.object ((k, v) :: before).reverse), opened)
  | _, _ => none

/-- The value that the tokens form. -/
def parse (tokens : List Token) : Option Json :=
  match tokens.foldlM step? (Expect.value, []) with
  | some (.after v, []) => some v
  | _ => none

/-- The value that a list of symbols writes. -/
def ofSymbols? (input : List Symbol) : Option Json := (lex input).bind parse

/-- The value that a text writes. -/
def ofText? (s : String) : Option Json := ofSymbols? (s.toList.map some)

/-- The value that the bytes of a text write. -/
def ofBytes? (bytes : ByteArray) : Option Json := ofSymbols? (Text.decode bytes.toList)

end TilePuzzle.Json
