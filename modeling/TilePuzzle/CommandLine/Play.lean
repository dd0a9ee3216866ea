import TilePuzzle.Json.Writer
import TilePuzzle.Snapshot

/-!
# A run on the screen

What a run shows: a head line, a section for each tick with its signals, a line about how the run ended,
and, if asked for, a snapshot of the end. A quiet run leaves out the head line and the sections. A
transcript has an entry for each tick, under a stamp of the time.
-/

namespace TilePuzzle

open Text (intText natText)

/-- A run that is ready to start, and how it is shown. -/
structure Play where
  /-- The name of the level. -/
  name : String
  engine : Engine
  /-- How many ticks are made, if the run does not end before. -/
  maxTicks : Option Nat := none
  /-- The pause between ticks, in nanoseconds. -/
  pause : Nat := 0
  json : Bool := false
  quiet : Bool := false
  transcript : Option String := none

/-! ### Ticks -/

namespace Report

/-- The head of the section of a tick. -/
def headline (r : Report) : String :=
  "Tick " ++ natText r.tick ++ ": " ++ natText r.lines.size ++ " avatar(s) stepped"

/-- How a run ended whose last tick was the one reported, after `ticks` ticks. The total of a win is the
exact sum, also when no word of 64 bits holds it. -/
def closing (r : Report) (ticks : Nat) : List String :=
  let count := natText ticks ++ " tick(s)"
  match r.outcome with
  | some outcome =>
    (match outcome with
      | .won remaining bonus =>
        "Won after " ++ count ++ ": budget left " ++ intText remaining ++ ", line bonus "
          ++ intText bonus.lines ++ ", time bonus " ++ intText bonus.time ++ ", total "
          ++ intText (remaining + bonus.lines + bonus.time)
      | .lost => "Out of commands after " ++ count ++ ". Level failed."
      | .finished => "Program finished after " ++ count ++ " without reaching the goal.")
      :: if r.timedOut then ["Time is up as well."] else []
  | none =>
    if r.timedOut then ["Time is up after " ++ count ++ "."]
    else ["Stopped after " ++ count ++ "; run still in progress."]

end Report

namespace Engine.Turn

/-- The section of a tick; a tick that failed has none. -/
def section? (t : Turn) : Option (List String) :=
  match t.result with
  | .ok report => some (report.headline :: t.signals.map fun signal => " - " ++ signal.text)
  | .error _ => none

/-- The entry of a tick in the transcript; a tick that failed has none. -/
def entry? (t : Turn) (stamp : String) : Option String :=
  match t.result with
  | .ok report =>
    some ("[" ++ stamp ++ "] tick=" ++ natText report.tick ++ "\n"
      ++ String.join (t.signals.map fun signal => "  " ++ signal.text ++ "\n"))
  | .error _ => none

end Engine.Turn

/-! ### Runs -/

namespace Play

/-- The most ticks that a run takes: an avatar that is not done goes on by a line in each tick, so the run
is over when there was one tick for each line and one more. -/
def limit (p : Play) : Nat :=
  match p.maxTicks with
  | some ticks => min ticks p.engine.program.finished
  | none => p.engine.program.finished

/-- The ticks of the run, the `k`-th of which is made when `elapsed k` seconds have passed. -/
def turns (p : Play) (elapsed : Nat → Nat) : List Engine.Turn := p.engine.run elapsed p.limit

/-- The head line, unless the run is quiet. -/
def opening (p : Play) : List String :=
  if p.quiet then []
  else
    ["Level '" ++ p.name ++ "' | " ++ natText p.engine.program.length ++ " line(s) | "
      ++ natText p.engine.world.avatars.length ++ " avatar(s) | budget "
      ++ intText p.engine.remaining ++ " | time limit " ++ intText p.engine.timeLimit ++ "s"]

/-- What a tick shows, unless the run is quiet. -/
def progress (p : Play) (t : Engine.Turn) : List String :=
  if p.quiet then [] else t.section?.getD []

/-- The line about the end of the run, and the snapshot if it is asked for. -/
def closing (p : Play) (e : Engine) (last : Option Report) : List String :=
  (match last with
    | some report => report.closing e.ticks
    | none => ["No ticks were run."])
    ++ if p.json then [e.snapshot.toJson.pretty] else []

/-- The engine after some ticks. -/
def engineAfter (p : Play) (turns : List Engine.Turn) : Engine :=
  (turns.getLast?.map (·.engine)).getD p.engine

/-- The fault at which a run broke off, or the report of its last tick. -/
def result (turns : List Engine.Turn) : Except Fault (Option Report) :=
  match turns.getLast? with
  | some turn => turn.result.map some
  | none => .ok none

end Play

end TilePuzzle
