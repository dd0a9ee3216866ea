import TilePuzzle.Engine.Basic
import TilePuzzle.Proofs.Program.Lines
import TilePuzzle.Proofs.Program.Nesting
import TilePuzzle.Proofs.World.Counters
import TilePuzzle.Proofs.World.Setting

/-!
# Ticks

What one avatar does in a tick is told by its counter: nothing when it has finished, a fault when
the counter is out of range, and else one command, after which the counter is set (`advance`). The
equations for `step` say so, and `step_cases` turns them around. All that a tick does to the world
is a row of such steps, so what commands and the setting of counters keep, ticks and whole runs keep
(`tick_induction`, `world_induction`).
-/

namespace TilePuzzle

namespace Engine

variable {e e' : Engine} {id : Nat} {a : Avatar} {c : Command} {n : Nat} {line : Option Nat}

/-! ## Commands and flow -/

theorem flow_of_plain (ho : c.opens = false) (id : Nat) (w : World) :
    (c.execute id w).1 = .next := by
  unfold Command.execute
  cases w.avatar? id with
  | none => rfl
  | some a =>
      cases c with
      | branch => cases ho
      | move | pickUp | drop | arithmetic | endBranch => rfl

/-- An `if` leaves the world as it is. -/
theorem world_of_branch (direction : Direction) (condition : Condition) (id : Nat) (w : World) :
    ((Command.branch direction condition).execute id w).2 = w := by
  unfold Command.execute
  cases w.avatar? id <;> rfl

theorem flow_of_branch {w : World} {a : Avatar} (ha : w.avatar? id = some a) (direction : Direction)
    (condition : Condition) : ((Command.branch direction condition).execute id w).1
      = if condition.evaluate w id (direction.apply a.position) then .next else .skipBody := by
  simp only [Command.execute, ha]

/-! ## One avatar -/

/-- The engine after the avatar `id` has executed `c` and its counter was set. -/
def advance (e : Engine) (id : Nat) (c : Command) (counter : Nat) : Engine :=
  { e with
    world := (c.execute id e.world).2.updateAvatar id ({ · with counter })
    score := e.score + 1 }

theorem step_of_avatar?_eq_none (ha : e.world.avatar? id = none) : e.step id = .ok (none, e) := by
  rw [step, ha]

theorem step_of_outOfRange (ha : e.world.avatar? id = some a)
    (hcounter : a.counter = 0 ∨ e.program.finished < a.counter) :
    e.step id = .error (.counterOutOfRange id a.counter e.program.finished) := by
  simp only [step, ha, if_pos hcounter]

theorem step_of_finished (ha : e.world.avatar? id = some a)
    (hcounter : a.counter = e.program.finished) : e.step id = .ok (none, e) := by
  have hrange : ¬(a.counter = 0 ∨ e.program.finished < a.counter) := by
    rw [hcounter, Program.finished]
    omega
  have hnone : e.program.command? a.counter = none :=
    Program.command?_eq_none_iff.mpr (.inr (Nat.le_of_eq hcounter.symm))
  simp only [step, ha, if_neg hrange, hnone]

/-- An avatar on no line of the program has finished, or its counter is out of range. -/
theorem step_of_command?_eq_none (ha : e.world.avatar? id = some a)
    (hc : e.program.command? a.counter = none) :
    e.step id = if a.counter = e.program.finished then .ok (none, e)
      else .error (.counterOutOfRange id a.counter e.program.finished) := by
  split
  · next hcounter => exact step_of_finished ha hcounter
  · next hcounter =>
      apply step_of_outOfRange ha
      rcases Program.command?_eq_none_iff.mp hc with h0 | hle
      · exact .inl h0
      · exact .inr (Nat.lt_of_le_of_ne hle (Ne.symm hcounter))

/-- An avatar that executes a command is still there afterwards. -/
theorem avatar?_execute (c : Command) (ha : e.world.avatar? id = some a) :
    ∃ a', (c.execute id e.world).2.avatar? id = some a' := by
  rw [← Option.ne_none_iff_exists', Ne, World.avatar?_eq_none_iff, World.avatarIds_execute,
    ← World.avatar?_eq_none_iff, ha]
  exact Option.some_ne_none a

/-- An avatar on a line of the program executes the command there. -/
theorem step_of_command (ha : e.world.avatar? id = some a)
    (hc : e.program.command? a.counter = some c) :
    e.step id = (e.program.next a.counter (c.execute id e.world).1).map
      fun counter => (some a.counter, e.advance id c counter) := by
  have hrange : ¬(a.counter = 0 ∨ e.program.finished < a.counter) := by
    intro hout
    have hnone : e.program.command? a.counter = none :=
      Program.command?_eq_none_iff.mpr (hout.imp_right Nat.le_of_lt)
    rw [hc] at hnone
    cases hnone
  obtain ⟨a', ha'⟩ := avatar?_execute c ha
  simp only [step, ha, if_neg hrange, hc]
  cases e.program.next a.counter (c.execute id e.world).1 with
  | error fault => rfl
  | ok counter =>
      show (do
        let world ← ((c.execute id e.world).2.setCounter id counter).mapError Fault.world
        return (some a.counter, { e with world, score := e.score + 1 })) = _
      rw [World.setCounter, ha']
      rfl

/-- A step that meets no fault does nothing, where the avatar has finished, or executes one command.
-/
theorem step_cases (h : e.step id = .ok (line, e')) :
    (line = none ∧ e' = e ∧ ∀ a, e.world.avatar? id = some a → a.counter = e.program.finished) ∨
      ∃ a c n, e.world.avatar? id = some a ∧ e.program.command? a.counter = some c ∧
        e.program.next a.counter (c.execute id e.world).1 = .ok n ∧
        line = some a.counter ∧ e' = e.advance id c n := by
  cases ha : e.world.avatar? id with
  | none =>
      rw [step_of_avatar?_eq_none ha] at h
      cases h
      exact .inl ⟨rfl, rfl, fun a ha' => nomatch ha'⟩
  | some a =>
      cases hc : e.program.command? a.counter with
      | some c =>
          rw [step_of_command ha hc] at h
          cases hn : e.program.next a.counter (c.execute id e.world).1 with
          | error fault => rw [hn] at h; cases h
          | ok n =>
              rw [hn] at h
              cases h
              exact .inr ⟨a, c, n, rfl, hc, hn, rfl, rfl⟩
      | none =>
          rw [step_of_command?_eq_none ha hc] at h
          split at h
          · next hcounter =>
              cases h
              refine .inl ⟨rfl, rfl, fun a' ha' => ?_⟩
              cases ha'
              exact hcounter
          · cases h

/-! ## One tick -/

/-- The pass after a step of the avatar `id` that executed a line, or none. -/
def Pass.record (pass : Pass) (e : Engine) (id : Nat) : Option Nat → Pass
  | none => { pass with engine := e }
  | some line => {
    engine := e
    lines := pass.lines.insert id line
    signals := pass.signals ++ [.budget e.remaining] }

@[simp] theorem engine_record (pass : Pass) (e : Engine) (id : Nat) (line : Option Nat) :
    (pass.record e id line).engine = e := by
  cases line <;> rfl

theorem act_of_error {timeLeft : Int} {rest : List Nat} {pass : Pass} {fault : Fault}
    (hs : pass.engine.step id = .error fault) :
    act timeLeft (id :: rest) pass = (.error fault, pass) := by
  rw [act, hs]

theorem act_of_ok {timeLeft : Int} {rest : List Nat} {pass : Pass}
    (hs : pass.engine.step id = .ok (line, e')) :
    act timeLeft (id :: rest) pass = match e'.verdict timeLeft with
      | some outcome => (.ok (some outcome), pass.record e' id line)
      | none => act timeLeft rest (pass.record e' id line) := by
  rw [act, hs]
  cases line <;> rfl

/-- What a step keeps, all avatars of a tick keep. -/
theorem act_induction {P : Engine → Prop}
    (hstep : ∀ {e id line e'}, P e → e.step id = .ok (line, e') → P e') (timeLeft : Int)
    (ids : List Nat) (pass : Pass) (h : P pass.engine) : P (act timeLeft ids pass).2.engine := by
  induction ids generalizing pass with
  | nil => exact h
  | cons id rest ih =>
      cases hs : pass.engine.step id with
      | error fault =>
          rw [act_of_error hs]
          exact h
      | ok answer =>
          obtain ⟨line, e'⟩ := answer
          have he' : P (pass.record e' id line).engine := by
            rw [engine_record]
            exact hstep h hs
          rw [act_of_ok hs]
          cases e'.verdict timeLeft with
          | some outcome => exact he'
          | none => exact ih _ he'

/-- The engine when the first avatar of a tick acts. -/
def opening (e : Engine) : Pass := { engine := { e with ticks := e.ticks + 1 } }

/-- The end of a tick whose avatars have acted and came to `decision`. -/
def Pass.conclude (pass : Pass) (timeLeft : Int) (decision : Option Outcome) : Turn where
  engine :=
    if (outcome decision pass.lines).isSome then { pass.engine with score := 0 } else pass.engine
  signals := pass.signals ++ decisionSignals decision ++ [.lines pass.lines]
    ++ (if outcome decision pass.lines = some .finished then [.endOfRun] else [])
    ++ [.time (max timeLeft 0)] ++ (if timeLeft ≤ 0 then [.timeout] else [])
  result := .ok {
    tick := pass.engine.ticks
    lines := pass.lines
    outcome := outcome decision pass.lines
    timedOut := decide (timeLeft ≤ 0)
    timeLeft := max timeLeft 0 }

theorem tick_of_ok {clock : Readings} {decision : Option Outcome} {pass : Pass}
    (h : act (e.timeLeft clock.scoring) e.world.avatarIds e.opening = (.ok decision, pass)) :
    e.tickDuring clock = pass.conclude (e.timeLeft clock.closing) decision := by
  rw [opening] at h
  have hticks : (if (outcome decision pass.lines).isSome then { pass.engine with score := 0 }
      else pass.engine).ticks = pass.engine.ticks := by
    split <;> rfl
  simp only [tickDuring, h, Pass.conclude, hticks, decide_eq_true_eq]

theorem tick_of_error {clock : Readings} {fault : Fault} {pass : Pass}
    (h : act (e.timeLeft clock.scoring) e.world.avatarIds e.opening = (.error fault, pass)) :
    e.tickDuring clock = ⟨pass.engine, pass.signals, .error fault⟩ := by
  rw [opening] at h
  simp only [tickDuring, h]

/-- A tick ends in the engine that the avatars leave, apart from the score. -/
theorem engine_tick (e : Engine) (clock : Readings) :
    ∃ score, (e.tickDuring clock).engine
      = { (act (e.timeLeft clock.scoring) e.world.avatarIds e.opening).2.engine with score } := by
  cases h : act (e.timeLeft clock.scoring) e.world.avatarIds e.opening with
  | mk answer pass =>
      cases answer with
      | error fault =>
          rw [tick_of_error h]
          exact ⟨pass.engine.score, rfl⟩
      | ok decision =>
          rw [tick_of_ok h, Pass.conclude]
          split
          · exact ⟨0, rfl⟩
          · exact ⟨pass.engine.score, rfl⟩

/-- What commands and counters keep of a world, a step keeps. -/
theorem step_induction {P : World → Prop}
    (hexecute : ∀ w id (c : Command), P w → P (c.execute id w).2)
    (hcounter : ∀ w id counter, P w → P (w.attempt (w.setCounter id counter)))
    (hs : e.step id = .ok (line, e')) (h : P e.world) : P e'.world := by
  rcases step_cases hs with ⟨-, rfl, -⟩ | ⟨a, c, counter, ha, -, -, -, rfl⟩
  · exact h
  · have hset := hcounter _ id counter (hexecute e.world id c h)
    obtain ⟨a', ha'⟩ := avatar?_execute c ha
    rw [World.setCounter, ha'] at hset
    exact hset

/-- What commands and counters keep of a world, a tick keeps. -/
theorem tick_induction {P : World → Prop}
    (hexecute : ∀ w id (c : Command), P w → P (c.execute id w).2)
    (hcounter : ∀ w id counter, P w → P (w.attempt (w.setCounter id counter))) (e : Engine)
    (clock : Readings) (h : P e.world) : P (e.tickDuring clock).engine.world := by
  obtain ⟨score, hengine⟩ := engine_tick e clock
  rw [hengine]
  exact act_induction (P := fun e => P e.world)
    (fun he hs => step_induction hexecute hcounter hs he) _ _ _ h

/-- A tick counts even if it meets a fault. -/
theorem ticks_tick (e : Engine) (clock : Readings) :
    (e.tickDuring clock).engine.ticks = e.ticks + 1 := by
  obtain ⟨score, hengine⟩ := engine_tick e clock
  rw [hengine]
  refine act_induction (P := fun e' => e'.ticks = e.ticks + 1) ?_ _ _ e.opening rfl
  intro e₁ id line e' h hs
  rcases step_cases hs with ⟨-, rfl, -⟩ | ⟨a, c, counter, -, -, -, -, rfl⟩
  · exact h
  · exact h

/-- A tick changes nothing of the setting. -/
theorem setting_tick (e : Engine) (clock : Readings) :
    World.SameSetting e.world (e.tickDuring clock).engine.world :=
  tick_induction (P := World.SameSetting e.world)
    (fun w id c h => h.trans (.execute c id w)) (fun w id n h => h.trans (.setCounter w id n))
    e clock (.refl _)

/-! ## Runs -/

/-- `n` ticks, whether they end the run or not; `clock k` is what the clock shows in the `k`-th,
from `k = 0`. -/
def turns (clock : Nat → Readings) : Nat → Engine → List Turn
  | 0, _ => []
  | n + 1, e =>
    let turn := e.tickDuring (clock 0)
    turn :: turns (fun k => clock (k + 1)) n turn.engine

/-- The engine after `n` ticks. -/
def after (e : Engine) (clock : Nat → Readings) : Nat → Engine
  | 0 => e
  | n + 1 => ((e.after clock n).tickDuring (clock n)).engine

/-- The tick that `n` others come before. -/
def turnAt (e : Engine) (clock : Nat → Readings) (n : Nat) : Turn :=
  (e.after clock n).tickDuring (clock n)

/-- The report of a tick that meets no fault. -/
def Turn.report? (t : Turn) : Option Report := t.result.toOption

/-- The outcome of a tick, if it ends the run. -/
def Turn.outcome? (t : Turn) : Option Outcome := t.report?.bind (·.outcome)

theorem Turn.outcome?_of_ok {t : Turn} {r : Report} (h : t.result = .ok r) :
    t.outcome? = r.outcome := by
  rw [outcome?, report?, h]
  rfl

theorem after_succ (e : Engine) (clock : Nat → Readings) (n : Nat) :
    e.after clock (n + 1) = (e.tickDuring (clock 0)).engine.after (fun k => clock (k + 1)) n := by
  induction n with
  | zero => rfl
  | succ n ih =>
      rw [after, ih]
      rfl

theorem turnAt_succ (e : Engine) (clock : Nat → Readings) (n : Nat) :
    e.turnAt clock (n + 1) = (e.tickDuring (clock 0)).engine.turnAt (fun k => clock (k + 1)) n := by
  rw [turnAt, after_succ, turnAt]

/-- A run changes nothing of the setting. -/
theorem setting_after (e : Engine) (clock : Nat → Readings) (n : Nat) :
    World.SameSetting e.world (e.after clock n).world := by
  induction n with
  | zero => exact .refl _
  | succ n ih => exact ih.trans (setting_tick _ (clock n))

theorem setting_turnAt (e : Engine) (clock : Nat → Readings) (n : Nat) :
    World.SameSetting e.world (e.turnAt clock n).engine.world :=
  setting_after e clock (n + 1)

/-- What can be asked of an engine. -/
inductive Event where
  | tick (clock : Readings)
  /-- Another run in the world as it is. -/
  | reset
  /-- Another run in the world of the level. -/
  | restart

/-- The engine after an event, in a level whose world is `start`. -/
def handle (start : World) (e : Engine) : Event → Engine
  | .tick clock => (e.tickDuring clock).engine
  | .reset => e.reset
  | .restart => e.replaceWorld start

/-- What commands and counters keep of a world, the events of an engine keep. -/
theorem world_induction {P : World → Prop}
    (hexecute : ∀ w id (c : Command), P w → P (c.execute id w).2)
    (hcounter : ∀ w id counter, P w → P (w.attempt (w.setCounter id counter)))
    (hreset : ∀ w, P w → P w.resetCounters) {start : World} (hstart : P start) (events : List Event)
    (e : Engine) (h : P e.world) : P (events.foldl (handle start) e).world := by
  induction events generalizing e with
  | nil => exact h
  | cons event rest ih =>
      apply ih
      cases event with
      | tick clock => exact tick_induction hexecute hcounter e clock h
      | reset => exact hreset _ h
      | restart => exact hreset _ hstart

end Engine

end TilePuzzle
