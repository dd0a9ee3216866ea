import TilePuzzle.Engine.Signal
import TilePuzzle.Program

/-!
# The engine

The engine runs one program on every avatar of a world. In a *tick* each avatar executes at most one
command, in the order in which the avatars were added, and later avatars see what earlier ones did. An
avatar whose counter stands one past the last line has *finished*.

After each avatar the goal is looked at, and then the budget: the tick stops there when the run is won or
lost. Then the executed lines are announced, then the end of the run if every avatar has finished, and
last the time left. A tick fails with a `Fault` when the counter of an avatar is out of range; what the
avatars before it did stays.
-/

namespace TilePuzzle

open Text (natText)

/-- Why a tick cannot go on. Programs that `Program.build` makes, run from line 1, never meet one. -/
inductive Fault where
  | counterOutOfRange (avatar counter finished : Nat)
  | unresolvedJump (line : Nat)
  | world (error : WorldError)
deriving DecidableEq, Repr

/-- The fault in words. -/
def Fault.message : Fault → String
  | counterOutOfRange avatar counter finished =>
    "avatar " ++ natText avatar ++ ": program counter " ++ natText counter ++ " outside 1..="
      ++ natText finished
  | unresolvedJump line => "line " ++ natText line ++ ": if has no resolved end if"
  | world error => error.message

/-- How a run ends. -/
inductive Outcome where
  | won (remaining : Int) (bonus : Bonus)
  | lost
  /-- Every avatar finished the program, and the goal is not reached. -/
  | finished
deriving DecidableEq, Repr

/-- What a tick did. -/
structure Report where
  tick : Nat
  lines : LineUpdates
  outcome : Option Outcome
  timedOut : Bool
  timeLeft : Int
deriving DecidableEq

/-- Whether the run is over: it has an outcome, or its time is up. -/
def Report.isTerminal (r : Report) : Bool := r.outcome.isSome || r.timedOut

/-- A program on its way through a world. -/
structure Engine where
  program : Program
  world : World
  goal : Goal
  timeLimit : Int
  /-- The commands executed since the run began. -/
  score : Int := 0
  /-- The ticks since the engine was made. -/
  ticks : Nat := 0

namespace Program

/-- The counter that stands for a finished program. -/
def finished (p : Program) : Nat := p.length + 1

/-- The line after `line`, when the command there answered `flow`. -/
def next (p : Program) (line : Nat) : Flow → Except Fault Nat
  | .next => .ok (line + 1)
  | .skipBody =>
    match p.jump? line with
    | some target => .ok (target + 1)
    | none => .error (.unresolvedJump line)

end Program

namespace Engine

/-- What is left of the budget; negative when more was spent. The difference is exact and is not wrapped
around to a word of 64 bits. Words hold it in every run on moderate terms (`words_suffice`), and of the
budgets these leave out only the least word and the greatest one. -/
def remaining (e : Engine) : Int := e.goal.budget - e.score

/-- The seconds left when `elapsed` have passed, within 64 bits; negative once the limit is past. -/
def timeLeft (e : Engine) (elapsed : Nat) : Int :=
  Bounds.int64.clamp (e.timeLimit - Bounds.int64.clamp elapsed)

/-- Begins another run of the program. The world keeps what earlier runs did to it, apart from the
counters. -/
def reset (e : Engine) : Engine := { e with score := 0, world := e.world.resetCounters }

/-- Puts another world in place and begins another run. -/
def replaceWorld (e : Engine) (w : World) : Engine := reset { e with world := w }

/-! ### One avatar -/

/-- One command of one avatar. The answer is the line that it executed, if it had not finished. -/
def step (e : Engine) (id : Nat) : Except Fault (Option Nat × Engine) :=
  match e.world.avatar? id with
  | none => .ok (none, e)
  | some a =>
    let line := a.counter
    if line = 0 ∨ e.program.finished < line then
      .error (.counterOutOfRange id line e.program.finished)
    else
      match e.program.command? line with
      | none => .ok (none, e)
      | some command => do
        let (flow, world) := command.execute id e.world
        let counter ← e.program.next line flow
        let world ← (world.setCounter id counter).mapError .world
        return (some line, { e with world, score := e.score + 1 })

/-- Whether the run is decided now, `timeLeft` seconds before its limit. -/
def verdict (e : Engine) (timeLeft : Int) : Option Outcome :=
  if e.goal.reached e.world then
    some (.won e.remaining (e.goal.bonus e.program.length timeLeft))
  else if e.remaining < 0 then some .lost
  else none

/-! ### One tick -/

/-- What the avatars of a tick did so far. -/
structure Pass where
  engine : Engine
  lines : LineUpdates := .empty
  signals : List Signal := []

/-- Lets the avatars act one after the other until the run is decided. The answer is the decision. -/
def act (timeLeft : Int) : List Nat → Pass → Except Fault (Option Outcome) × Pass
  | [], pass => (.ok none, pass)
  | id :: rest, pass =>
    match pass.engine.step id with
    | .error fault => (.error fault, pass)
    | .ok (line, engine) =>
      let pass :=
        match line with
        | none => { pass with engine }
        | some line => {
            engine
            lines := pass.lines.insert id line
            signals := pass.signals ++ [.budget engine.remaining] }
      -- An avatar that had nothing to execute is followed by a look at the goal too.
      match engine.verdict timeLeft with
      | some outcome => (.ok (some outcome), pass)
      | none => act timeLeft rest pass

/-- What is announced when the run is won or lost. -/
def decisionSignals : Option Outcome → List Signal
  | some (.won remaining bonus) => [.win remaining bonus]
  | some .lost => [.budget 0, .lose]
  | _ => []

/-- The outcome of a tick: the decision made between the avatars, or else that none had anything left to
execute. -/
def outcome (decision : Option Outcome) (lines : LineUpdates) : Option Outcome :=
  match decision with
  | some outcome => some outcome
  | none => if lines.entries.isEmpty then some .finished else none

/-- A tick: the engine after it, what was announced, and the report or the fault. -/
structure Turn where
  engine : Engine
  signals : List Signal
  result : Except Fault Report

/-- What the clock shows during a tick, in seconds since its start: when a win is scored, and when the tick
ends. -/
structure Readings where
  scoring : Nat
  closing : Nat

/-- A tick so short that the clock shows the same all the time. -/
def Readings.still (elapsed : Nat) : Readings := ⟨elapsed, elapsed⟩

/-- Lets every avatar execute at most one command while the clock goes on. -/
def tickDuring (e : Engine) (clock : Readings) : Turn :=
  -- A tick counts even if it fails.
  let start : Pass := { engine := { e with ticks := e.ticks + 1 } }
  match act (e.timeLeft clock.scoring) e.world.avatarIds start with
  | (.error fault, pass) => ⟨pass.engine, pass.signals, .error fault⟩
  | (.ok decision, pass) =>
    let outcome := outcome decision pass.lines
    let engine := if outcome.isSome then { pass.engine with score := 0 } else pass.engine
    let timeLeft := e.timeLeft clock.closing
    let timedOut := decide (timeLeft ≤ 0)
    let shown := max timeLeft 0
    let signals := pass.signals ++ decisionSignals decision ++ [.lines pass.lines]
      ++ (if outcome = some .finished then [.endOfRun] else [])
      ++ [.time shown] ++ (if timedOut then [.timeout] else [])
    ⟨engine, signals, .ok ⟨engine.ticks, pass.lines, outcome, timedOut, shown⟩⟩

/-- Lets every avatar execute at most one command, `elapsed` seconds after the start of the clock. -/
def tick (e : Engine) (elapsed : Nat) : Turn := e.tickDuring (.still elapsed)

/-! ### Runs of ticks -/

/-- Whether no further tick follows: the run is over, or it has met a fault. -/
def Turn.isLast (t : Turn) : Bool :=
  match t.result with
  | .ok report => report.isTerminal
  | .error _ => true

/-- The ticks of a run until its last one, but at most `limit`. The `k`-th tick is made when `elapsed k`
seconds have passed, counting from `k = 0`. -/
def run (elapsed : Nat → Nat) : Nat → Engine → List Turn
  | 0, _ => []
  | limit + 1, e =>
    let turn := e.tick (elapsed 0)
    turn :: if turn.isLast then [] else run (fun k => elapsed (k + 1)) limit turn.engine

end Engine

end TilePuzzle
