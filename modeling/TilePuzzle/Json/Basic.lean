import TilePuzzle.Text.Decimal

/-!
# JSON values

A JSON text is read in two stages,

    characters ──lex──▶ tokens (List Token) ──parse──▶ value (Json),

and written by the same stages backwards: `Json.tokens` lists the tokens of a value, `Token.text` spells
one token.

The files of the game hold integers and Unicode text. Other numbers, and strings that spell no Unicode
text because a surrogate in them lacks its partner or their bytes are not UTF-8, may stand where a value
is ignored. So `number` and `string` keep an `Option`: `none` is a number that is not written as an
integer, or a string that spells no text.
-/

namespace TilePuzzle

/-- A JSON value. The members of an object keep their order and may repeat a key. -/
inductive Json where
  | null
  | bool (b : Bool)
  | number (n : Option Int)
  | string (s : Option String)
  | array (elements : List Json)
  | object (members : List (Option String × Json))
deriving Inhabited

namespace Json

/-- A token of JSON. -/
inductive Token where
  | openBrace
  | closeBrace
  | openBracket
  | closeBracket
  | colon
  | comma
  | null
  | bool (b : Bool)
  | number (n : Option Int)
  | string (s : Option String)
deriving DecidableEq, Repr

/-- A text as a value. -/
def text (s : String) : Json := .string (some s)

/-- An integer as a value. -/
def int (n : Int) : Json := .number (some n)

/-- An object with these members. -/
def record (members : List (String × Json)) : Json :=
  .object (members.map fun m => (some m.1, m.2))

end Json

end TilePuzzle
