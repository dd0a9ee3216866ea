import TilePuzzle.Json.Basic

/-!
# Writing JSON

`compact` writes a value without blanks; `pretty` puts every element and member on a line of its own,
indented by two spaces for each array or object around it, and writes an empty array or object as `[]`
or `{}`.

A string escapes the quote, the backslash and the control characters, and writes all else as it is. A
number that is no integer is written as `-0`, and a string that spells no text as a lone surrogate.
-/

namespace TilePuzzle.Json

open Text (intText)

/-- A hexadecimal digit in lowercase. -/
def hexDigit (n : Nat) : Char := (Nat.digitChar n)

/-- A character inside a string. -/
def quoteChar (c : Char) : List Char :=
  match c with
  | '"' => ['\\', '"']
  | '\\' => ['\\', '\\']
  | '\x08' => ['\\', 'b']
  | '\x0c' => ['\\', 'f']
  | '\n' => ['\\', 'n']
  | '\r' => ['\\', 'r']
  | '\t' => ['\\', 't']
  | c =>
    if c.toNat < 0x20 then
      ['\\', 'u', '0', '0', hexDigit (c.toNat / 16), hexDigit (c.toNat % 16)]
    else [c]

/-- A text as a string of JSON. -/
def quote (s : String) : List Char := '"' :: (s.toList.flatMap quoteChar ++ ['"'])

/-- The spelling of a token. -/
def Token.text : Token → List Char
  | openBrace => ['\x7b']
  | closeBrace => ['\x7d']
  | openBracket => ['[']
  | closeBracket => [']']
  | colon => [':']
  | comma => [',']
  | null => "null".toList
  | bool true => "true".toList
  | bool false => "false".toList
  | number none => ['-', '0']
  | number (some n) => (intText n).toList
  | string none => ['"', '\\', 'u', 'd', '8', '0', '0', '"']
  | string (some s) => quote s

mutual

/-- The tokens of a value. -/
def tokens : Json → List Token
  | .null => [.null]
  | .bool b => [.bool b]
  | .number n => [.number n]
  | .string s => [.string s]
  | .array [] => [.openBracket, .closeBracket]
  | .array (v :: vs) => .openBracket :: (tokens v ++ elementTokens vs)
  | .object [] => [.openBrace, .closeBrace]
  | .object ((k, v) :: ms) =>
    .openBrace :: .string k :: .colon :: (tokens v ++ memberTokens ms)

/-- The tokens of the elements after the first, up to the end of the array. -/
def elementTokens : List Json → List Token
  | [] => [.closeBracket]
  | v :: vs => .comma :: (tokens v ++ elementTokens vs)

/-- The tokens of the members after the first, up to the end of the object. -/
def memberTokens : List (Option String × Json) → List Token
  | [] => [.closeBrace]
  | (k, v) :: ms => .comma :: .string k :: .colon :: (tokens v ++ memberTokens ms)

end

/-- The value without blanks. -/
def compact (v : Json) : String := String.ofList (v.tokens.flatMap Token.text)

/-- A new line, indented for `depth` arrays and objects. -/
def newline (depth : Nat) : List Char := '\n' :: List.replicate (2 * depth) ' '

mutual

/-- The value on several lines, inside `depth` arrays and objects. -/
def layout (depth : Nat) : Json → List Char
  | .null => Token.null.text
  | .bool b => (Token.bool b).text
  | .number n => (Token.number n).text
  | .string s => (Token.string s).text
  | .array [] => ['[', ']']
  | .array (v :: vs) =>
    '[' :: (newline (depth + 1) ++ layout (depth + 1) v ++ layoutElements depth vs)
  | .object [] => ['\x7b', '\x7d']
  | .object ((k, v) :: ms) =>
    '\x7b' :: (newline (depth + 1) ++ (Token.string k).text ++ [':', ' '] ++ layout (depth + 1) v
      ++ layoutMembers depth ms)

/-- The elements after the first, and the end of the array. -/
def layoutElements (depth : Nat) : List Json → List Char
  | [] => newline depth ++ [']']
  | v :: vs => ',' :: (newline (depth + 1) ++ layout (depth + 1) v ++ layoutElements depth vs)

/-- The members after the first, and the end of the object. -/
def layoutMembers (depth : Nat) : List (Option String × Json) → List Char
  | [] => newline depth ++ ['\x7d']
  | (k, v) :: ms =>
    ',' :: (newline (depth + 1) ++ (Token.string k).text ++ [':', ' '] ++ layout (depth + 1) v
      ++ layoutMembers depth ms)

end

/-- The value on several lines. -/
def pretty (v : Json) : String := String.ofList (layout 0 v)

end TilePuzzle.Json
