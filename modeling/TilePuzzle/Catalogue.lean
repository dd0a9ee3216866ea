import TilePuzzle.Descriptor

/-!
# The catalogue of block types

A catalogue maps normalized type tags to block types: the parameters that a type requires, and how a
command is read from the parameters. `Catalogue.build` reads a descriptor: its type is looked up, then
the required parameters are checked, and only then is the command read.
-/

namespace TilePuzzle

open Text (natText)

/-- What a catalogue knows of a type of block. -/
structure BlockType where
  required : List String
  read : Parameters → Except ParameterError Command

/-- Why a list of descriptors is no program. Every cause names the index of the block at fault. -/
inductive BuildError where
  | unknownType (index : Nat) (type : String)
  | invalidParameters (index : Nat) (type : String) (reason : ParameterError)
  | unmatchedIf (index : Nat)
  | unmatchedEndIf (index : Nat)
deriving DecidableEq, Repr

/-- The error in words. -/
def BuildError.message : BuildError → String
  | unknownType index type => "block " ++ natText index ++ ": unknown block type '" ++ type ++ "'"
  | invalidParameters index type reason =>
    "block " ++ natText index ++ " (" ++ type ++ "): " ++ reason.message
  | unmatchedIf index => "block " ++ natText index ++ ": if has no matching end if"
  | unmatchedEndIf index => "block " ++ natText index ++ ": end if has no matching if"

/-- Block types by normalized tag. -/
structure Catalogue where
  entries : SortedMap String BlockType

namespace Catalogue

/-- The catalogue that knows no type. -/
def empty : Catalogue := ⟨.empty⟩

/-- The catalogue with a type registered under a tag, in place of what had a tag of the same normalized
form. -/
def register (c : Catalogue) (tag : String) (type : BlockType) : Catalogue :=
  ⟨c.entries.insert (normalizeTag tag) type⟩

/-- The type registered under a tag of the same normalized form. -/
def find? (c : Catalogue) (tag : String) : Option BlockType := c.entries.get? (normalizeTag tag)

/-- Whether a type is registered under a tag of the same normalized form. -/
def contains (c : Catalogue) (tag : String) : Bool := (c.find? tag).isSome

/-- The normalized tags with the parameters that their types require, in the order of the tags. -/
def tags (c : Catalogue) : List (String × List String) :=
  c.entries.entries.map fun e => (e.1, e.2.required)

/-- The built-in block types. -/
def standard : Catalogue :=
  empty
    |>.register "move" ⟨["direction"], Parameters.readMove⟩
    |>.register "step" ⟨["direction"], Parameters.readMove⟩
    |>.register "pick up" ⟨[], fun _ => .ok .pickUp⟩
    |>.register "drop" ⟨[], fun _ => .ok .drop⟩
    |>.register "add" ⟨[], Parameters.readArithmetic .add⟩
    |>.register "subtract" ⟨[], Parameters.readArithmetic .subtract⟩
    |>.register "multiply" ⟨[], Parameters.readArithmetic .multiply⟩
    |>.register "divide" ⟨[], Parameters.readArithmetic .divide⟩
    |>.register "if" ⟨["direction", "condition"], Parameters.readBranch⟩
    |>.register "end if" ⟨[], fun _ => .ok .endBranch⟩

/-- The command that a descriptor describes. -/
def build (c : Catalogue) (d : Descriptor) : Except BuildError Command :=
  match c.find? d.type with
  | none => .error (.unknownType d.index d.type)
  | some type =>
    match type.required.filter (!d.parameters.contains ·) with
    | [] => (type.read d.parameters).mapError (.invalidParameters d.index d.type)
    | absent => .error (.invalidParameters d.index d.type (.absent absent))

end Catalogue

end TilePuzzle
