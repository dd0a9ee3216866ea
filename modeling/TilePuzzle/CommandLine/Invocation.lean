import TilePuzzle.Binary64.Numeral
import TilePuzzle.Bounds
import TilePuzzle.CommandLine.Arguments

/-!
# Invocations

The words after the name of the program, read as one of the things that the program does: run a level,
check or list a program, show a level, or tell about itself.
-/

namespace TilePuzzle

open Text (readInt? readNat?)

/-- How a level is to be run. -/
structure RunOptions where
  level : String
  /-- The program file, in place of the program of the level. -/
  program : Option String := none
  maxTicks : Option Nat := none
  /-- Ticks in a second; where it is given it counts in place of the delay. -/
  tickRate : Option Binary64 := none
  /-- The pause between ticks, in milliseconds. -/
  delay : Nat := 0
  /-- The time limit, in place of that of the level. -/
  timeLimit : Option Int := none
  json : Bool := false
  transcript : Option String := none
  quiet : Bool := false
deriving DecidableEq, Repr

/-- What the program is asked to do. -/
inductive Invocation where
  | run (options : RunOptions)
  /-- Check the program in a file, or the one in a level file. -/
  | checkProgram (file : String) (inLevel : Bool)
  | listBlockTypes
  | showLevel (file : String) (json : Bool)
  /-- Tell how to use the command with this name. -/
  | help (topic : List String)
  | version
deriving DecidableEq, Repr

namespace Invocation

/-! ### Values of options -/

/-- A natural number of 64 bits. -/
def nat64? (s : String) : Option Nat := ((readNat? s).map Int.ofNat).bind fun n =>
  (Bounds.nat64.check n).map Int.toNat

/-- An integer of 64 bits. -/
def int64? (s : String) : Option Int := (readInt? s).bind Bounds.int64.check

/-! ### Signatures of the commands -/

/-- An option whose value is the path of a file. -/
def fileSwitch (long : String) (letter : Option Char := none) : Switch :=
  { long, letter, admits := some (· ≠ "") }

/-- An option whose value is read by `read?`. -/
def valueSwitch {α : Type} (long : String) (letter : Option Char) (read? : String → Option α) : Switch :=
  { long, letter, admits := some fun s => (read? s).isSome }

/-- What `run` takes. -/
def runSignature : Signature where
  switches := [
    fileSwitch "level" (some 'l'),
    fileSwitch "program" (some 'p'),
    valueSwitch "max-ticks" (some 't') nat64?,
    valueSwitch "tick-rate" none Binary64.ofText?,
    valueSwitch "delay-ms" (some 'd') nat64?,
    valueSwitch "time-limit" none int64?,
    { long := "json" },
    fileSwitch "transcript",
    { long := "quiet", letter := some 'q' }]

/-- What `program check` takes. -/
def checkSignature : Signature where
  switches := [{ long := "level" }]
  operands := 1

/-- What `program blocks` takes. -/
def blocksSignature : Signature where
  switches := []

/-- What `level show` takes. -/
def showSignature : Signature where
  switches := [{ long := "json" }]
  operands := 1

/-! ### Reading the words -/

/-- The invocation that arguments make, or the help on their command. -/
def ofArguments (topic : List String) (make : Arguments → Option Invocation) :
    Except Halt Arguments → Option Invocation
  | .ok a => make a
  | .error .help => some (.help topic)
  | .error .usage => none

/-- A run; the level has to be given. -/
def makeRun (a : Arguments) : Option Invocation := do
  let level ← a.value? "level"
  return .run {
    level
    program := a.value? "program"
    maxTicks := (a.value? "max-ticks").bind nat64?
    tickRate := (a.value? "tick-rate").bind Binary64.ofText?
    delay := ((a.value? "delay-ms").bind nat64?).getD 0
    timeLimit := (a.value? "time-limit").bind int64?
    json := a.has "json"
    transcript := a.value? "transcript"
    quiet := a.has "quiet" }

/-- A check of a program. -/
def makeCheck (a : Arguments) : Option Invocation :=
  a.operands.head?.map fun file => .checkProgram file (a.has "level")

/-- A look at a level. -/
def makeShow (a : Arguments) : Option Invocation :=
  a.operands.head?.map fun file => .showLevel file (a.has "json")

/-- The commands that help is given on. -/
def topics : List (List String) :=
  [[], ["help"], ["run"], ["program"], ["program", "help"], ["program", "check"], ["program", "blocks"],
    ["level"], ["level", "help"], ["level", "show"]]

/-- Help on a command. -/
def ofTopic? (topic : List String) : Option Invocation :=
  if topic ∈ topics then some (.help topic) else none

/-- A word in the place of a command: it may still ask for help. -/
def ofStray? (topic : List String) (word : String) : Option Invocation :=
  match word.toList with
  | '-' :: 'h' :: _ => some (.help topic)
  | _ => if word = "--help" then some (.help topic) else none

/-- What follows the word `program`. -/
def ofProgramWords? : List String → Option Invocation
  | "check" :: words => ofArguments ["program", "check"] makeCheck (Arguments.read checkSignature words)
  | "blocks" :: words =>
    ofArguments ["program", "blocks"] (fun _ => some .listBlockTypes) (Arguments.read blocksSignature words)
  | "help" :: topic => ofTopic? ("program" :: topic)
  | word :: _ => ofStray? ["program"] word
  | [] => none

/-- What follows the word `level`. -/
def ofLevelWords? : List String → Option Invocation
  | "show" :: words => ofArguments ["level", "show"] makeShow (Arguments.read showSignature words)
  | "help" :: topic => ofTopic? ("level" :: topic)
  | word :: _ => ofStray? ["level"] word
  | [] => none

/-- The invocation that the words make, if they are used as they should. -/
def ofWords? : List String → Option Invocation
  | "run" :: words => ofArguments ["run"] makeRun (Arguments.read runSignature words)
  | "program" :: words => ofProgramWords? words
  | "level" :: words => ofLevelWords? words
  | "help" :: topic => ofTopic? topic
  | word :: _ =>
    match word.toList with
    | '-' :: 'V' :: _ => some .version
    | _ => if word = "--version" then some .version else ofStray? [] word
  | [] => none

/-- The files that the invocation reads, if it comes that far. -/
def files : Invocation → List String
  | run options => options.level :: options.program.toList
  | checkProgram file _ => [file]
  | showLevel file _ => [file]
  | _ => []

end Invocation

end TilePuzzle
