/-!
# Arguments of a command

A command takes options and operands. An option has a long name and possibly a letter; some take a value,
which stands in the same word (`--name=value`, `-n=value`, `-nvalue`) or is the next word. Letters may be
joined into one word, of which only the last may take a value. After the word `--` every word is an
operand, and so is `-` alone.

The words are read one after the other, and the first that is out of place ends the reading: an unknown
option, an option given twice, a value that the option does not admit, an operand too many. A value that
is a word of its own must not look like an option. Every command knows `--help` and `-h`, which end the
reading too.
-/

namespace TilePuzzle

/-- An option of a command. -/
structure Switch where
  long : String
  letter : Option Char := none
  /-- Which values the option admits, if it takes one. -/
  admits : Option (String → Bool) := none

/-- Why the reading of words ends early. -/
inductive Halt where
  /-- The words are not what the command takes. -/
  | usage
  /-- The user asks for help. -/
  | help
deriving DecidableEq, Repr

/-- What a command takes: its options, and how many operands. An operand must not be empty. -/
structure Signature where
  switches : List Switch
  operands : Nat := 0

/-- What was read so far. -/
structure Arguments where
  /-- The options, by long name, with their values; an option without a value has the empty text. -/
  given : List (String × String) := []
  operands : List String := []
  /-- The option that waits for its value. -/
  waiting : Option Switch := none
  /-- Whether only operands follow. -/
  literal : Bool := false

namespace Arguments

/-- The value of an option. -/
def value? (a : Arguments) (long : String) : Option String :=
  (a.given.find? (·.1 = long)).map (·.2)

/-- Whether an option was given. -/
def has (a : Arguments) (long : String) : Bool := (a.value? long).isSome

/-- Takes an option with its value, which has to be admitted. -/
def take (a : Arguments) (switch : Switch) (value : String) : Except Halt Arguments :=
  if a.has switch.long || !switch.admits.all (· value) then .error .usage
  else .ok { a with given := a.given ++ [(switch.long, value)], waiting := none }

/-- Takes an operand. -/
def operand (a : Arguments) (s : Signature) (word : String) : Except Halt Arguments :=
  if word = "" ∨ s.operands ≤ a.operands.length then .error .usage
  else .ok { a with operands := a.operands ++ [word] }

/-- Reads a long option, without the two hyphens. -/
def readLong (a : Arguments) (s : Signature) (cs : List Char) : Except Halt Arguments :=
  let name := String.ofList (cs.takeWhile (· ≠ '='))
  let attached := cs.dropWhile (· ≠ '=')
  if name = "help" then .error (if attached.isEmpty then .help else .usage)
  else
    match s.switches.find? (·.long = name) with
    | none => .error .usage
    | some switch =>
      match switch.admits, attached with
      | none, [] => a.take switch ""
      | none, _ :: _ => .error .usage
      | some _, [] => .ok { a with waiting := some switch }
      | some _, _ :: value => a.take switch (String.ofList value)

/-- Reads joined letters. -/
def readLetters (s : Signature) (a : Arguments) : List Char → Except Halt Arguments
  | [] => .ok a
  | c :: rest =>
    if c = 'h' then .error .help
    else
      match s.switches.find? (·.letter = some c) with
      | none => .error .usage
      | some switch =>
        match switch.admits, rest with
        | none, _ =>
          match a.take switch "" with
          | .ok a => readLetters s a rest
          | .error halt => .error halt
        -- What follows the letter of an option with a value is the value, not further letters.
        | some _, [] => .ok { a with waiting := some switch }
        | some _, '=' :: value => a.take switch (String.ofList value)
        | some _, value => a.take switch (String.ofList value)

/-- Reads the word after an option that waits for its value. -/
def readValue (a : Arguments) (switch : Switch) (word : String) : Except Halt Arguments :=
  match word.toList with
  | '-' :: _ :: _ => .error .usage
  | _ => a.take switch word

/-- Reads one word. -/
def readWord (s : Signature) (a : Arguments) (word : String) : Except Halt Arguments :=
  if a.literal then a.operand s word
  else
    match a.waiting with
    | some switch => a.readValue switch word
    | none =>
      match word.toList with
      | ['-', '-'] => .ok { a with literal := true }
      | '-' :: '-' :: cs => a.readLong s cs
      | '-' :: c :: cs => readLetters s a (c :: cs)
      | _ => a.operand s word

/-- Reads all words. At the end no option may wait for a value, and no operand may be missing. -/
def read (s : Signature) (words : List String) : Except Halt Arguments := do
  let a ← words.foldlM (readWord s) {}
  if a.waiting.isSome ∨ a.operands.length < s.operands then .error .usage else .ok a

end Arguments

end TilePuzzle
