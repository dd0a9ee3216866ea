import TilePuzzle.Proofs.Engine.Progress
import TilePuzzle.Proofs.Engine.Terms

/-!
# Replays

An engine can be used for many runs. Whatever it was asked for before, and however its ticks ended,
with another world in place it is an engine that was just made for this world, except that it has
counted the ticks before. These are terms of the run, which no avatar sees. So the run that follows
is a fresh one, and its ticks have later numbers.

The main statement is `fresh_replay`.
-/

namespace TilePuzzle

namespace Engine

/-! ## Ticks that come later -/

/-- The tick as it is when `earlier` ticks more were made before. -/
def Turn.delayed (earlier : Nat) (turn : Turn) : Turn where
  engine := { turn.engine with ticks := turn.engine.ticks + earlier }
  signals := turn.signals
  result := turn.result.map fun r => { r with tick := r.tick + earlier }

theorem under_earlier {t : Terms} (ht : t.earlier = 0) (clock : Readings) (earlier : Nat)
    (turn : Turn) :
    turn.under { t with earlier } clock = (turn.under t clock).delayed earlier := by
  obtain ⟨engine, signals, result⟩ := turn
  obtain ⟨idealTime, idealLines, timeLimit, extra, _⟩ := t
  obtain rfl := ht
  cases result <;> rfl

/-- The ticks before have no part in a run. -/
theorem turnAt_delayed (e : Engine) (earlier : Nat) (clock : Nat → Readings) (n : Nat) :
    { e with ticks := e.ticks + earlier }.turnAt clock n = (e.turnAt clock n).delayed earlier := by
  have hunder : { e with ticks := e.ticks + earlier } = e.under { e.terms with earlier } := by
    simp [under, terms]
  have hturn : (e.under { e.terms with earlier }).turnAt clock n
      = (e.turnAt clock n).under { e.terms with earlier } (clock n) :=
    turnAt_under clock fun _ _ => .inl rfl
  rw [hunder, hturn, under_earlier rfl, turnAt_terms]

/-! ## Engines that were used -/

/-- Whether the call is a tick. -/
def Call.isTick : Call → Bool
  | tick _ => true
  | reset | replaceWorld _ => false

/-- Of a call nothing is left when another world is put in place, but that a tick was counted. -/
theorem replaceWorld_call (e : Engine) (c : Call) (w : World) :
    (e.call c).replaceWorld w
      = { e.replaceWorld w with ticks := e.ticks + if c.isTick then 1 else 0 } := by
  cases c with
  | tick clock =>
      have hframe := frame_tick e clock
      have hticks := ticks_tick e clock
      simp only [call, replaceWorld, reset, hframe.program, hframe.goal, hframe.timeLimit, hticks]
      rfl
  | reset => rfl
  | replaceWorld _ => rfl

theorem replaceWorld_calls (e : Engine) (calls : List Call) (w : World) :
    (calls.foldl call e).replaceWorld w
      = { e.replaceWorld w with ticks := e.ticks + calls.countP Call.isTick } := by
  -- By induction from the front: what the first call left is gone when the last one is made.
  induction calls generalizing e with
  | nil => rfl
  | cons c rest ih =>
      have hcall := replaceWorld_call e c w
      have hticks : (e.call c).ticks = e.ticks + if c.isTick then 1 else 0 :=
        congrArg Engine.ticks hcall
      rw [List.foldl_cons, ih, hcall, hticks, List.countP_cons, Nat.add_assoc,
        Nat.add_comm (List.countP ..)]

/-- After any calls, an engine with another world in place runs like one that was just made for the
world with all counters set to 1. Only the numbers of the ticks are greater, by the ticks that were
made before. -/
theorem fresh_replay (program : Program) (goal : Goal) (timeLimit : Int) (start w : World)
    (calls : List Call) (clock : Nat → Readings) (n : Nat) :
    let used := calls.foldl call { program, world := start, goal, timeLimit }
    let fresh : Engine := {
      program, goal, timeLimit
      world := { w with avatars := w.avatars.map ({ · with counter := 1 }) } }
    (used.replaceWorld w).turnAt clock n
      = (fresh.turnAt clock n).delayed (calls.countP Call.isTick) := by
  intro used fresh
  have hused : used.replaceWorld w
      = { fresh with ticks := fresh.ticks + calls.countP Call.isTick } :=
    replaceWorld_calls { program, world := start, goal, timeLimit } calls w
  rw [hused, turnAt_delayed]

end Engine

end TilePuzzle
