import TilePuzzle.Proofs.Engine.Terms

/-!
# Time

The clock is read within a tick, when a win is scored, and at its end. Neither reading has a part in
what the avatars do or in how the run is decided. So two runs that differ in the clock, in the time
limit or in the marks for the bonuses differ in the bonuses and times that are shown, and in nothing
else.

The main statement is `independent_of_time`.
-/

namespace TilePuzzle

/-- The outcome without its bonuses. -/
def Outcome.untimed : Outcome → Outcome
  | won remaining _ => won remaining ⟨0, 0⟩
  | lost => lost
  | finished => finished

/-- The report without its bonuses and times. -/
def Report.untimed (r : Report) : Report :=
  { r with
    outcome := r.outcome.map Outcome.untimed
    timedOut := false
    timeLeft := 0 }

/-- What is left of an announcement without bonuses and times, and nothing of a timeout. -/
def Signal.untimed : Signal → Option Signal
  | win remaining _ => some (win remaining ⟨0, 0⟩)
  | time _ => some (time 0)
  | timeout => none
  | lines updates => some (lines updates)
  | budget remaining => some (budget remaining)
  | lose => some lose
  | endOfRun => some endOfRun

section Time

variable {k : Reckoning} (hextra : k.extra = 0)

include hextra

theorem Report.untimed_reckon (hearlier : k.earlier = 0) (r : Report) :
    (r.reckon k).untimed = r.untimed := by
  have houtcome : ∀ o : Outcome, (o.reckon k).untimed = o.untimed := by
    rintro (⟨remaining, bonus⟩ | _ | _) <;> simp [Outcome.reckon, Outcome.untimed, hextra]
  simp [Report.reckon, Report.untimed, Option.map_map, Function.comp_def, houtcome, hearlier]

theorem Signal.untimed_reckon (signals : List Signal) :
    (signals.flatMap (·.reckon k)).filterMap Signal.untimed = signals.filterMap Signal.untimed := by
  induction signals with
  | nil => rfl
  | cons s rest ih =>
      have hone : (s.reckon k).filterMap Signal.untimed = [s].filterMap Signal.untimed := by
        cases s with
        | time _ =>
            rw [Signal.reckon]
            split <;> rfl
        | budget _ => simp [Signal.reckon, hextra]
        | win _ _ => simp [Signal.reckon, Signal.untimed, hextra]
        | lines _ | lose | endOfRun | timeout => rfl
      rw [List.flatMap_cons, List.filterMap_append, ih, hone, ← List.filterMap_append]
      rfl

end Time

namespace Engine

/-- The time has no part in a run: another clock, another time limit and other marks for the bonuses
leave the same worlds, scores and numbers of ticks, and the ticks meet the same faults and bring the
same reports and signals, without bonuses and times. -/
theorem independent_of_time (e : Engine) (timeLimit idealTime idealLines : Int)
    (clock clock' : Nat → Readings) (n : Nat) :
    let e' := { e with timeLimit, goal := { e.goal with idealTime, idealLines } }
    ((e'.after clock' n).world = (e.after clock n).world ∧
      (e'.after clock' n).score = (e.after clock n).score ∧
      (e'.after clock' n).ticks = (e.after clock n).ticks) ∧
    (e'.turnAt clock' n).result.map Report.untimed
      = (e.turnAt clock n).result.map Report.untimed ∧
    (e'.turnAt clock' n).signals.filterMap Signal.untimed
      = (e.turnAt clock n).signals.filterMap Signal.untimed := by
  intro e'
  let t : Terms := { idealTime, idealLines, timeLimit }
  -- The budget is the same, so `Terms.Keep` asks nothing of the ticks.
  have he' : e' = e.under t := by simp [e', t, under]
  have hafter : e'.after clock' n = (e.after clock n).under t := by
    rw [he']
    exact after_under clock' fun _ _ => .inl rfl
  have hturn : e'.turnAt clock' n = (e.turnAt clock n).under t (clock' n) := by
    rw [he']
    exact turnAt_under clock' fun _ _ => .inl rfl
  rw [hafter, hturn, Turn.under]
  generalize hk : (e.turnAt clock n).engine.reckoning t (clock' n) = k
  have hextra : k.extra = 0 := by rw [← hk]; rfl
  have hearlier : k.earlier = 0 := by rw [← hk]; rfl
  refine ⟨⟨rfl, rfl, rfl⟩, ?_, Signal.untimed_reckon hextra _⟩
  cases (e.turnAt clock n).result with
  | error fault => rfl
  | ok r => exact congrArg Except.ok (Report.untimed_reckon hextra hearlier r)

end Engine

end TilePuzzle
