import TilePuzzle.Program

/-!
# Program listings

A listing shows the commands of a program with their lines. What stands between an `if` and its `end if`
is indented, and an arrow at the `if` names the line of the `end if`.
-/

namespace TilePuzzle

open Text (natText)

namespace Program

/-- The depth at which a command stands, when the line before leaves `depth` open. -/
def depthAt (depth : Nat) : Command → Nat
  | .endBranch => depth - 1
  | _ => depth

/-- The depth that a command at `depth` leaves open for the next line. -/
def depthAfter (depth : Nat) : Command → Nat
  | .branch _ _ => depth + 1
  | _ => depth

/-- The depths at which commands stand, when `depth` is open before the first. -/
def depths (depth : Nat) : List Command → List Nat
  | [] => []
  | c :: rest => depthAt depth c :: depths (depthAfter (depthAt depth c) c) rest

/-- A number in a column of four characters. -/
def numberColumn (n : Nat) : String :=
  String.ofList (List.replicate (4 - (natText n).length) ' ') ++ natText n

/-- The arrow of a line that jumps. -/
def arrow : Option Nat → String
  | some target => "    -> " ++ natText target
  | none => ""

/-- The lines of the listing, below its head. -/
def listingLines (p : Program) : List String :=
  ((p.commands.zip (depths 0 p.commands)).zipIdx 1).map fun ((command, depth), line) =>
    numberColumn line ++ "  " ++ String.ofList (List.replicate (2 * depth) ' ') ++ command.text
      ++ arrow (p.jump? line)

/-- The head of the listing. -/
def listingHead (p : Program) : String :=
  natText p.length ++ " line(s), " ++ natText p.jumps.size ++ " if-block(s)"

/-- The listing of a program. -/
def listing (p : Program) : List String := p.listingHead :: p.listingLines

end Program

end TilePuzzle
