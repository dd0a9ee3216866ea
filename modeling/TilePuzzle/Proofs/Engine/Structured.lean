import TilePuzzle.Engine.Basic
import TilePuzzle.Proofs.Program.Nesting

/-!
# The structured machine

This machine runs a tree of statements and knows neither lines to jump to nor counters. Each avatar
has a list of statements to do. A command at the front is executed and removed. An `if` at the front
is replaced by its body and its `end if` when its condition holds, and is removed with both when it
does not. Either costs one command.

A tick goes as in the engine: the avatars act in the order in which they were added, the run may be
decided after each of them, and a tick in which nothing was executed ends the run. No tick fails.
-/

namespace TilePuzzle

/-- The line on which a statement begins. -/
def Statement.line : Statement → Nat
  | leaf line _ => line
  | branch line _ _ _ _ => line

/-- A tree of statements on its way through a world. The counters of the avatars in the world mean
nothing here. -/
structure Machine where
  tree : List Statement
  world : World
  /-- What each avatar has to do yet. -/
  todo : Nat → List Statement
  goal : Goal
  timeLimit : Int
  score : Int
  ticks : Nat

namespace Machine

/-- The machine at the start of a program, in the surroundings of an engine. -/
def start (tree : List Statement) (e : Engine) : Machine where
  tree := tree
  world := e.world
  todo := fun _ => tree
  goal := e.goal
  timeLimit := e.timeLimit
  score := e.score
  ticks := e.ticks

/-- The line of the next statement of an avatar; one past the last line when there is none. -/
def counter (m : Machine) (id : Nat) : Nat :=
  (m.todo id).head?.elim (linesOf m.tree + 1) Statement.line

/-- What is left of the budget, as an exact difference like that of the engine. -/
def remaining (m : Machine) : Int := m.goal.budget - m.score

/-- The seconds left when `elapsed` have passed. -/
def timeLeft (m : Machine) (elapsed : Nat) : Int :=
  Bounds.int64.clamp (m.timeLimit - Bounds.int64.clamp elapsed)

/-- The machine after the avatar `id` has spent one command and has the statements `rest` to do. -/
def spend (m : Machine) (id : Nat) (rest : List Statement) : Machine :=
  { m with
    todo := fun j => if j = id then rest else m.todo j
    score := m.score + 1 }

/-- One statement of one avatar. The answer is the line that it executed, if it had anything to do.
-/
def step (m : Machine) (id : Nat) : Option Nat × Machine :=
  match m.world.avatar? id, m.todo id with
  | some _, .leaf line c :: rest =>
    (some line, { m.spend id rest with world := (c.execute id m.world).2 })
  | some a, .branch line direction condition body last :: rest =>
    if condition.evaluate m.world id (direction.apply a.position) then
      (some line, m.spend id (body ++ .leaf last .endBranch :: rest))
    else (some line, m.spend id rest)
  | _, _ => (none, m)

section Step

variable {m : Machine} {id line last : Nat} {a : Avatar} {body rest : List Statement}

theorem step_of_avatar?_eq_none (ha : m.world.avatar? id = none) : m.step id = (none, m) := by
  simp only [step, ha]

theorem step_of_nil (htodo : m.todo id = []) : m.step id = (none, m) := by
  rw [step, htodo]
  cases m.world.avatar? id <;> rfl

theorem step_of_leaf {c : Command} (ha : m.world.avatar? id = some a)
    (htodo : m.todo id = .leaf line c :: rest) :
    m.step id = (some line, { m.spend id rest with world := (c.execute id m.world).2 }) := by
  simp only [step, ha, htodo]

theorem step_of_branch {direction : Direction} {condition : Condition}
    (ha : m.world.avatar? id = some a)
    (htodo : m.todo id = .branch line direction condition body last :: rest) :
    m.step id = (some line,
      m.spend id (if condition.evaluate m.world id (direction.apply a.position) then
        body ++ .leaf last .endBranch :: rest else rest)) := by
  simp only [step, ha, htodo]
  split <;> rfl

end Step

/-- Whether the run is decided now. -/
def verdict (m : Machine) (timeLeft : Int) : Option Outcome :=
  if m.goal.reached m.world then
    some (.won m.remaining (m.goal.bonus (linesOf m.tree) timeLeft))
  else if m.remaining < 0 then some .lost
  else none

/-- What the avatars of a tick did so far. -/
structure Pass where
  machine : Machine
  lines : LineUpdates := .empty
  signals : List Signal := []

/-- The pass after a step of the avatar `id` that executed a line, or none. -/
def Pass.record (pass : Pass) (machine : Machine) (id : Nat) : Option Nat → Pass
  | none => { pass with machine }
  | some line => {
    machine
    lines := pass.lines.insert id line
    signals := pass.signals ++ [.budget machine.remaining] }

/-- Lets the avatars act one after the other until the run is decided. -/
def act (timeLeft : Int) : List Nat → Pass → Option Outcome × Pass
  | [], pass => (none, pass)
  | id :: rest, pass =>
    let answer := pass.machine.step id
    match answer.2.verdict timeLeft with
    | some outcome => (some outcome, pass.record answer.2 id answer.1)
    | none => act timeLeft rest (pass.record answer.2 id answer.1)

/-- A tick: the machine after it, what was announced, and the report. -/
structure Turn where
  machine : Machine
  signals : List Signal
  report : Report

/-- The end of a tick whose avatars have acted and came to `decision`. -/
def Pass.conclude (pass : Pass) (timeLeft : Int) (decision : Option Outcome) : Turn :=
  let outcome := Engine.outcome decision pass.lines
  { machine := if outcome.isSome then { pass.machine with score := 0 } else pass.machine
    signals := pass.signals ++ Engine.decisionSignals decision ++ [.lines pass.lines]
      ++ (if outcome = some .finished then [.endOfRun] else [])
      ++ [.time (max timeLeft 0)] ++ (if timeLeft ≤ 0 then [.timeout] else [])
    report := {
      tick := pass.machine.ticks
      lines := pass.lines
      outcome
      timedOut := decide (timeLeft ≤ 0)
      timeLeft := max timeLeft 0 } }

/-- Lets every avatar do at most one statement while the clock goes on. -/
def tick (m : Machine) (clock : Engine.Readings) : Turn :=
  let start : Pass := { machine := { m with ticks := m.ticks + 1 } }
  let answer := act (m.timeLeft clock.scoring) m.world.avatarIds start
  answer.2.conclude (m.timeLeft clock.closing) answer.1

/-- `n` ticks, whether they end the run or not; `clock k` is what the clock shows in the `k`-th,
from `k = 0`. -/
def turns (clock : Nat → Engine.Readings) : Nat → Machine → List Turn
  | 0, _ => []
  | n + 1, m =>
    let turn := m.tick (clock 0)
    turn :: turns (fun k => clock (k + 1)) n turn.machine

end Machine

end TilePuzzle
