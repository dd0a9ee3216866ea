import TilePuzzle.CommandLine.Job

/-!
# Sessions

A session is one use of the program. `respond` reads the words, makes the job of them and goes through
with it, on the files of a `Storage` and with given readings of the clock. It exits with 0 when all went
well, with 1 when the job is refused, and with 2 when the words are used wrongly.
-/

namespace TilePuzzle

/-- What a session gives back: the number with which it exits, and what it printed. -/
structure Response where
  exit : Nat
  stdout : String := ""
  stderr : String := ""
deriving DecidableEq, Repr

namespace Session

/-- Lines as one text; every line ends. -/
def unlines (lines : List String) : String := String.join (lines.map (· ++ "\n"))

/-- What is printed about a refusal. -/
def refusalText (refusal : Refusal) : String := "error: " ++ refusal.message ++ "\n"

/-- The response to words that are used wrongly. -/
def misuse : Response := { exit := 2, stderr := unlines (Usage.page []) }

/-- The storage with the transcript of some ticks. -/
def writeTranscript (p : Play) (stamp : Nat → String) (turns : List Engine.Turn) (files : Storage) :
    Storage :=
  match p.transcript with
  | none => files
  | some path =>
    (turns.filterMap fun t => t.entry? (stamp t.engine.ticks)).foldl
      (fun files entry => files.append path entry.toUTF8) files

/-- Goes through with a run. -/
def perform (p : Play) (elapsed : Nat → Nat) (stamp : Nat → String) (files : Storage) :
    Response × Storage :=
  let turns := p.turns elapsed
  let shown := p.opening ++ turns.flatMap p.progress
  let response :=
    match Play.result turns with
    | .ok last => { exit := 0, stdout := unlines (shown ++ p.closing (p.engineAfter turns) last) }
    | .error fault => { exit := 1, stdout := unlines shown, stderr := refusalText (.fault fault) }
  (response, writeTranscript p stamp turns files)

/-- The response to the words after the name of the program, and the storage afterwards. The `k`-th tick of
a run is made when `elapsed k` seconds have passed; the entry of tick `n` is stamped `stamp n`. -/
def respond (elapsed : Nat → Nat) (stamp : Nat → String) (words : List String) (files : Storage) :
    Response × Storage :=
  match Invocation.ofWords? words with
  | none => (misuse, files)
  | some invocation =>
    match Job.ofInvocation files.read invocation with
    | .error refusal => ({ exit := 1, stderr := refusalText refusal }, files)
    | .ok (.answer lines) => ({ exit := 0, stdout := unlines lines }, files)
    | .ok (.play p) => perform p elapsed stamp files

end Session

end TilePuzzle
