import Std.Time.DateTime.Timestamp
import TilePuzzle.CommandLine.Session
import TilePuzzle.Text.Timestamp

/-!
# The command line

The program on real files with a real clock. What is read, decided and printed is settled in `Job` and
`Play`; here files are read, ticks wait for each other, and texts are printed.
-/

namespace TilePuzzle.CommandLine

/-- The reason for which the system did not read a file. The system's number comes with either sign. -/
def readErrorOf : IO.Error → ReadError
  | .noFileOrDirectory .. => .missing
  | .inappropriateType _ code _ => if code = 21 ∨ code = 0 - 21 then .isFolder else .notFolder
  | .invalidArgument _ code details =>
    if code = 36 ∨ code = 0 - 36 then .nameTooLong else .other details
  | error => .other error.toString

/-- Reads the files that an invocation may need. -/
def readFiles (paths : List String) : IO Reader := do
  let contents ← paths.mapM fun (path : String) => do
    try
      return (path, Except.ok (← IO.FS.readBinFile path))
    catch error => return (path, Except.error (readErrorOf error))
  return fun path => ((contents.find? (·.1 = path)).map (·.2)).getD (.error .missing)

/-- The folder that a path lies in, if the path names one. -/
def parent (path : String) : String :=
  String.ofList ((path.toList.reverse.dropWhile (· ≠ '/')).dropWhile (· = '/')).reverse

/-- Adds an entry to the transcript. A transcript that cannot be written is left alone. -/
def writeEntry (path entry : String) : IO Unit :=
  try
    unless (parent path).isEmpty do IO.FS.createDirAll (parent path)
    let handle ← IO.FS.Handle.mk path .append
    handle.putStr entry
  catch _ => return ()

/-- Waits between two ticks. -/
def wait (nanoseconds : Nat) : IO Unit :=
  let milliseconds := (nanoseconds + 999999) / 1000000
  if milliseconds = 0 then return () else IO.sleep (UInt32.ofNat (min milliseconds 4294967295))

/-- The present time in writing. -/
def stamp : IO String :=
  return Text.timestamp (← Std.Time.Timestamp.now).toNanosecondsSinceUnixEpoch.val.toNat

/-- Runs at most `limit` further ticks and shows each. -/
def runTicks (p : Play) (start : Nat) : Nat → Engine → List Engine.Turn → IO (List Engine.Turn)
  | 0, _, done => return done
  | limit + 1, e, done => do
    let now ← IO.monoNanosNow
    let turn := e.tick (Clock.ofTime 0 (now - start)).seconds
    IO.print (Session.unlines (p.progress turn))
    match p.transcript, turn.entry? (← stamp) with
    | some path, some entry => writeEntry path entry
    | _, _ => pure ()
    if turn.isLast then return done ++ [turn]
    else
      wait p.pause
      runTicks p start limit turn.engine (done ++ [turn])

/-- Goes through with a run. -/
def play (p : Play) : IO UInt32 := do
  let start ← IO.monoNanosNow
  IO.print (Session.unlines p.opening)
  let turns ← runTicks p start p.limit p.engine []
  match Play.result turns with
  | .ok last =>
    IO.print (Session.unlines (p.closing (p.engineAfter turns) last))
    return 0
  | .error fault =>
    IO.eprint (Session.refusalText (.fault fault))
    return 1

end TilePuzzle.CommandLine

open TilePuzzle in
/-- The program. -/
def main (words : List String) : IO UInt32 := do
  match Invocation.ofWords? words with
  | none =>
    IO.eprint Session.misuse.stderr
    return UInt32.ofNat Session.misuse.exit
  | some invocation =>
    match Job.ofInvocation (← CommandLine.readFiles invocation.files) invocation with
    | .error refusal =>
      IO.eprint (Session.refusalText refusal)
      return 1
    | .ok (.answer lines) =>
      IO.print (Session.unlines lines)
      return 0
    | .ok (.play p) => CommandLine.play p
