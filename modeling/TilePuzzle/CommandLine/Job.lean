import TilePuzzle.CommandLine.Invocation
import TilePuzzle.CommandLine.Pace
import TilePuzzle.CommandLine.Play
import TilePuzzle.CommandLine.Usage
import TilePuzzle.Catalogue
import TilePuzzle.Level.Drawing
import TilePuzzle.Loading
import TilePuzzle.Program.Listing

/-!
# Jobs

An invocation becomes a job: lines to be shown, or a run. It is refused when a file cannot be loaded,
when a run has no blocks, when a program is not built, or when a run has no pace; of several reasons the
first in this order counts.
-/

namespace TilePuzzle

/-- Why a job is refused. -/
inductive Refusal where
  | load (error : LoadError)
  | noBlocks
  | rejected (error : BuildError)
  | pace (error : PaceError)
  | fault (reason : Fault)
deriving DecidableEq, Repr

/-- The refusal in words. -/
def Refusal.message : Refusal → String
  | load error => error.message
  | noBlocks => "no program blocks; pass --program or embed a program in the level"
  | rejected error => "program rejected: " ++ error.message
  | pace error => error.message
  | fault reason => "execution fault: " ++ reason.message

/-- What is to be done. -/
inductive Job where
  | answer (lines : List String)
  | play (play : Play)

namespace Job

/-- The run that the options ask for. -/
def ofRun (read : Reader) (o : RunOptions) : Except Refusal Job := do
  let level ← (loadLevel read o.level).mapError .load
  let descriptors ←
    match o.program with
    | some path => (loadProgram read path).mapError .load
    | none => .ok level.program
  if descriptors.isEmpty then .error .noBlocks
  else
    let program ← (Program.build .standard descriptors).mapError .rejected
    let pause ← (Pace.pause o.tickRate o.delay).mapError .pace
    return .play {
      name := level.name
      engine := {
        program
        world := level.world
        goal := level.goal
        timeLimit := o.timeLimit.getD level.timeLimit }
      maxTicks := o.maxTicks
      pause
      json := o.json
      quiet := o.quiet
      transcript := o.transcript }

/-- The listing of the program in a file. -/
def ofCheck (read : Reader) (file : String) (inLevel : Bool) : Except Refusal Job := do
  let descriptors ←
    if inLevel then ((loadLevel read file).mapError .load).map (·.program)
    else (loadProgram read file).mapError .load
  let program ← (Program.build .standard descriptors).mapError .rejected
  return .answer program.listing

/-- The overview of the level in a file. -/
def ofShow (read : Reader) (file : String) (json : Bool) : Except Refusal Job := do
  let level ← (loadLevel read file).mapError .load
  return .answer (level.overview ++ if json then [level.world.snapshot.toJson.pretty] else [])

/-- The tags of the block types, each with the parameters that it requires. -/
def blockTypes (c : Catalogue) : List String :=
  "Block types:" :: c.tags.map fun (tag, required) =>
    "  " ++ tag ++ if required.isEmpty then "" else " (" ++ ", ".intercalate required ++ ")"

/-- The job of an invocation. -/
def ofInvocation (read : Reader) : Invocation → Except Refusal Job
  | .run options => ofRun read options
  | .checkProgram file inLevel => ofCheck read file inLevel
  | .listBlockTypes => .ok (.answer (blockTypes .standard))
  | .showLevel file json => ofShow read file json
  | .help topic => .ok (.answer (Usage.page topic))
  | .version => .ok (.answer [Usage.versionLine])

end Job

end TilePuzzle
