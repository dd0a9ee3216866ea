import TilePuzzle.Proofs.Engine.Visits

/-!
# Terms

A run is made on terms that the avatars do not see: how many commands the budget allows, how long
the time limit is, from which marks the bonuses are counted, and how many ticks were made before.
Two engines that differ in their terms keep step. Each avatar executes the same line in the same
world or meets the same fault (`step_under`), and the tick is decided behind the same avatar, in the
same way (`act_under`). So a tick on other terms is the tick on these with its report and its
signals reckoned anew (`tick_under`).

Of the terms only the budget can decide a run. So it has to be the same, or it is larger and no tick
loses the run (`Terms.Keep`). The main statement is `turnAt_under`, which carries this through runs.
-/

namespace TilePuzzle

/-- What a run goes by apart from its program, its world and its targets. -/
structure Terms where
  idealTime : Int
  idealLines : Int
  timeLimit : Int
  /-- The commands that are allowed on top of the budget. -/
  extra : Nat := 0
  /-- The ticks that were made before. -/
  earlier : Nat := 0

/-- A larger budget does not change the outcome `o`: it is not larger, or the run is not lost. -/
def Terms.Keep (t : Terms) (o : Option Outcome) : Prop := t.extra = 0 ∨ o ≠ some .lost

/-- How the terms and the clock are shown in a tick. -/
structure Reckoning where
  earlier : Nat
  extra : Nat
  bonus : Bonus
  /-- The seconds left when the tick ends; negative once the limit is past. -/
  timeLeft : Int

/-- The outcome reckoned anew. -/
def Outcome.reckon (k : Reckoning) : Outcome → Outcome
  | won remaining _ => won (remaining + k.extra) k.bonus
  | lost => lost
  | finished => finished

/-- What takes the place of an announcement when it is reckoned anew. A timeout follows the seconds
left. -/
def Signal.reckon (k : Reckoning) : Signal → List Signal
  | lines updates => [lines updates]
  | budget remaining => [budget (remaining + k.extra)]
  | win remaining _ => [win (remaining + k.extra) k.bonus]
  | lose => [lose]
  | endOfRun => [endOfRun]
  | timeout => []
  | time _ => time (max k.timeLeft 0) :: if k.timeLeft ≤ 0 then [timeout] else []

/-- The report reckoned anew. -/
def Report.reckon (k : Reckoning) (r : Report) : Report where
  tick := r.tick + k.earlier
  lines := r.lines
  outcome := r.outcome.map (·.reckon k)
  timedOut := k.timeLeft ≤ 0
  timeLeft := max k.timeLeft 0

namespace Engine

variable {e e' : Engine} {t : Terms} {k : Reckoning} {pass : Pass} {decision : Option Outcome}

/-- The engine under other terms. -/
def under (t : Terms) (e : Engine) : Engine :=
  { e with
    goal := { e.goal with
      idealTime := t.idealTime
      idealLines := t.idealLines
      budget := e.goal.budget + t.extra }
    timeLimit := t.timeLimit
    ticks := e.ticks + t.earlier }

/-- How the terms and the clock are shown in a tick of an engine. -/
def reckoning (t : Terms) (clock : Readings) (e : Engine) : Reckoning where
  earlier := t.earlier
  extra := t.extra
  bonus := (e.under t).goal.bonus e.program.length ((e.under t).timeLeft clock.scoring)
  timeLeft := (e.under t).timeLeft clock.closing

/-- What the avatars do under other terms. -/
def Pass.under (t : Terms) (k : Reckoning) (pass : Pass) : Pass where
  engine := pass.engine.under t
  lines := pass.lines
  signals := pass.signals.flatMap (·.reckon k)

/-- The tick under other terms and by another clock. -/
def Turn.under (t : Terms) (clock : Readings) (turn : Turn) : Turn where
  engine := turn.engine.under t
  signals := turn.signals.flatMap (·.reckon (turn.engine.reckoning t clock))
  result := turn.result.map (·.reckon (turn.engine.reckoning t clock))

/-! ## One avatar -/

theorem remaining_under (t : Terms) (e : Engine) :
    (e.under t).remaining = e.remaining + t.extra := by
  show e.goal.budget + t.extra - e.score = e.goal.budget - e.score + t.extra
  omega

/-- Nothing in the reckoning changes in the course of a tick. -/
theorem reckoning_of_frame (h : Frame e e') (t : Terms) (clock : Readings) :
    e'.reckoning t clock = e.reckoning t clock := by
  simp only [reckoning, under, timeLeft, h.goal, h.program]

/-- The avatars do not see the terms. -/
theorem step_under (t : Terms) (e : Engine) (id : Nat) :
    (e.under t).step id = (e.step id).map fun answer => (answer.1, answer.2.under t) := by
  have hworld : (e.under t).world.avatar? id = e.world.avatar? id := rfl
  cases ha : e.world.avatar? id with
  | none =>
      rw [step_of_avatar?_eq_none ha, step_of_avatar?_eq_none (hworld.trans ha)]
      rfl
  | some a =>
      have hprogram : (e.under t).program.command? a.counter = e.program.command? a.counter := rfl
      cases hc : e.program.command? a.counter with
      | some c =>
          rw [step_of_command ha hc, step_of_command (hworld.trans ha) (hprogram.trans hc)]
          show (e.program.next a.counter (c.execute id e.world).1).map _ = _
          cases e.program.next a.counter (c.execute id e.world).1 <;> rfl
      | none =>
          rw [step_of_command?_eq_none ha hc,
            step_of_command?_eq_none (hworld.trans ha) (hprogram.trans hc)]
          show (if a.counter = e.program.finished then _ else _) = _
          split <;> rfl

/-- The run is decided in the same way. -/
theorem verdict_under (clock : Readings) {timeLeft : Int}
    (hkeep : t.Keep (e.verdict timeLeft)) :
    (e.under t).verdict ((e.under t).timeLeft clock.scoring)
      = (e.verdict timeLeft).map (·.reckon (e.reckoning t clock)) := by
  have hsame : (e.under t).goal.reached (e.under t).world = e.goal.reached e.world := rfl
  cases hreached : e.goal.reached e.world with
  | true =>
      rw [verdict_of_reached hreached, verdict_of_reached (hsame.trans hreached), remaining_under]
      rfl
  | false =>
      rw [verdict_of_not_reached hreached] at hkeep ⊢
      rw [verdict_of_not_reached (hsame.trans hreached), remaining_under]
      by_cases hspent : e.remaining < 0
      · -- The run is lost, so the budget does not change.
        rw [if_pos hspent] at hkeep ⊢
        have hextra : t.extra = 0 := hkeep.resolve_right fun h => h rfl
        rw [if_pos (by omega)]
        rfl
      · rw [if_neg hspent, if_neg (by omega)]
        rfl

/-! ## One tick -/

theorem record_under (hextra : k.extra = t.extra) (pass : Pass) (e : Engine) (id : Nat)
    (line : Option Nat) :
    (pass.under t k).record (e.under t) id line = (pass.record e id line).under t k := by
  cases line with
  | none => rfl
  | some line =>
      simp only [Pass.record, Pass.under, remaining_under, List.flatMap_append,
        List.flatMap_singleton, Signal.reckon, hextra]

theorem opening_under (t : Terms) (k : Reckoning) (e : Engine) :
    (e.under t).opening = e.opening.under t k := by
  have hticks : e.ticks + t.earlier + 1 = e.ticks + 1 + t.earlier := by omega
  show (⟨{ e.under t with ticks := e.ticks + t.earlier + 1 }, _, _⟩ : Pass) = _
  rw [hticks]
  rfl

/-- The avatars do the same, and their decision is reckoned anew. -/
theorem act_under (clock : Readings) {timeLeft : Int} (ids : List Nat) (pass : Pass)
    (hk : pass.engine.reckoning t clock = k)
    (hkeep : ∀ decision, (act timeLeft ids pass).1 = .ok decision → t.Keep decision) :
    act ((pass.engine.under t).timeLeft clock.scoring) ids (pass.under t k)
      = ((act timeLeft ids pass).1.map (Option.map (·.reckon k)),
        (act timeLeft ids pass).2.under t k) := by
  -- What a win is worth depends on the program and the goal, so `k` is the same in every pass.
  induction ids generalizing pass with
  | nil => rfl
  | cons id rest ih =>
      have hstep := step_under t pass.engine id
      cases hs : pass.engine.step id with
      | error fault =>
          rw [hs] at hstep
          rw [act_of_error hs, act_of_error hstep]
          rfl
      | ok answer =>
          obtain ⟨line, e'⟩ := answer
          rw [hs] at hstep
          have hk' : e'.reckoning t clock = k := by
            rw [reckoning_of_frame (frame_step hs), hk]
          have hextra : k.extra = t.extra := by rw [← hk]; rfl
          have htime : (pass.engine.under t).timeLeft clock.scoring
              = (e'.under t).timeLeft clock.scoring := rfl
          rw [act_of_ok hs] at hkeep ⊢
          rw [act_of_ok hstep, record_under hextra, htime]
          cases hverdict : e'.verdict timeLeft with
          | some o =>
              rw [hverdict] at hkeep
              rw [verdict_under clock (hverdict ▸ hkeep (some o) rfl), hverdict, hk']
              rfl
          | none =>
              -- No loss here, and whether a later avatar loses the run is left to `hkeep`.
              rw [hverdict] at hkeep
              have hopen : t.Keep (e'.verdict timeLeft) := .inr (by rw [hverdict]; simp)
              rw [verdict_under clock hopen, hverdict]
              have hih := ih (pass.record e' id line) (by rwa [engine_record]) hkeep
              rwa [engine_record] at hih

theorem outcome_reckon (k : Reckoning) (decision : Option Outcome) (lines : LineUpdates) :
    outcome (decision.map (·.reckon k)) lines = (outcome decision lines).map (·.reckon k) := by
  cases decision with
  | some o => rfl
  | none =>
      show (if lines.entries.isEmpty then some Outcome.finished else none)
        = (if lines.entries.isEmpty then some Outcome.finished else none).map _
      split <;> rfl

/-- A loss announces that nothing is left of the budget, whatever the budget was. -/
theorem decisionSignals_reckon (decision : Option Outcome)
    (hkeep : k.extra = 0 ∨ decision ≠ some .lost) :
    decisionSignals (decision.map (·.reckon k))
      = (decisionSignals decision).flatMap (·.reckon k) := by
  match decision, hkeep with
  | some (.won _ _), _ => rfl
  | some .lost, hkeep =>
      have hextra : k.extra = 0 := hkeep.resolve_right fun h => h rfl
      simp [decisionSignals, Outcome.reckon, Signal.reckon, hextra]
  | some .finished, _ => rfl
  | none, _ => rfl

theorem finished_reckon (k : Reckoning) (o : Option Outcome) :
    o.map (·.reckon k) = some .finished ↔ o = some .finished := by
  match o with
  | some (.won _ _) | some .lost | some .finished | none => simp [Outcome.reckon]

theorem endOfRun_reckon (k : Reckoning) (o : Option Outcome) :
    (if o = some .finished then [Signal.endOfRun] else []).flatMap (·.reckon k)
      = if o = some .finished then [Signal.endOfRun] else [] := by
  split <;> rfl

theorem time_reckon (k : Reckoning) (timeLeft : Int) :
    [Signal.time timeLeft].flatMap (·.reckon k)
      = [Signal.time (max k.timeLeft 0)] ++ if k.timeLeft ≤ 0 then [Signal.timeout] else [] :=
  List.append_nil _

theorem timeout_reckon (k : Reckoning) (timeLeft : Int) :
    (if timeLeft ≤ 0 then [Signal.timeout] else []).flatMap (·.reckon k) = [] := by
  split <;> rfl

theorem conclude_under (clock : Readings) (timeLeft : Int)
    (hk : pass.engine.reckoning t clock = k) (hkeep : t.Keep decision) :
    (pass.under t k).conclude k.timeLeft (decision.map (·.reckon k))
      = (pass.conclude timeLeft decision).under t clock := by
  have hreckoning : (pass.conclude timeLeft decision).engine.reckoning t clock = k := by
    rw [← hk, Pass.conclude]
    split <;> rfl
  have hlines : (pass.under t k).lines = pass.lines := rfl
  -- The engine, the signals and the report are compared one after the other.
  rw [Turn.under, hreckoning]
  simp only [Pass.conclude, hlines, outcome_reckon, finished_reckon, Option.isSome_map,
    Turn.mk.injEq]
  refine ⟨?_, ?_, ?_⟩
  · split <;> rfl
  · have hdecision := decisionSignals_reckon (k := k) decision (by rwa [← hk])
    have hsignals : (pass.under t k).signals = pass.signals.flatMap (·.reckon k) := rfl
    have hshown : [Signal.lines pass.lines].flatMap (·.reckon k) = [.lines pass.lines] := rfl
    simp only [hsignals, hdecision, List.flatMap_append, hshown, endOfRun_reckon, time_reckon,
      timeout_reckon, List.append_nil, List.append_assoc]
  · subst hk
    rfl

/-- A tick on other terms and by another clock is the tick reckoned anew. -/
theorem tick_under {clock : Readings} (clock' : Readings)
    (hkeep : t.Keep (e.tickDuring clock).outcome?) :
    (e.under t).tickDuring clock' = (e.tickDuring clock).under t clock' := by
  have hopening := opening_under t (e.reckoning t clock') e
  have hframe := (frame_opening e).trans
    (frame_act (e.timeLeft clock.scoring) e.world.avatarIds e.opening)
  cases hact : act (e.timeLeft clock.scoring) e.world.avatarIds e.opening with
  | mk answer pass =>
      rw [hact] at hframe
      have hk : pass.engine.reckoning t clock' = e.reckoning t clock' :=
        reckoning_of_frame hframe t clock'
      -- The outcome of the tick is lost when the decision is.
      have hkeep' : ∀ decision, answer = .ok decision → t.Keep decision := by
        rintro decision rfl
        rw [tick_of_ok hact] at hkeep
        refine hkeep.imp_right fun hne hlost => hne ?_
        rw [hlost]
        rfl
      have hact' := act_under (t := t) clock' e.world.avatarIds e.opening rfl (by rwa [hact])
      rw [hact] at hact'
      cases answer with
      | error fault =>
          rw [tick_of_error hact, tick_of_error (hopening ▸ hact'), Turn.under, hk]
          rfl
      | ok decision =>
          rw [tick_of_ok hact, tick_of_ok (hopening ▸ hact')]
          exact conclude_under clock' _ hk (hkeep' decision rfl)

/-! ## Runs -/

section Runs

variable {clock : Nat → Readings} (clock' : Nat → Readings) {n : Nat}

theorem after_under (hkeep : ∀ k < n, t.Keep (e.turnAt clock k).outcome?) :
    (e.under t).after clock' n = (e.after clock n).under t := by
  induction n with
  | zero => rfl
  | succ n ih =>
      have hbefore := ih fun k hk => hkeep k (Nat.lt_succ_of_lt hk)
      have hlast := tick_under (clock' n) (hkeep n (Nat.lt_succ_self n))
      rw [after, hbefore, hlast]
      rfl

/-- A tick of a run on other terms is the tick reckoned anew. -/
theorem turnAt_under (hkeep : ∀ k ≤ n, t.Keep (e.turnAt clock k).outcome?) :
    (e.under t).turnAt clock' n = (e.turnAt clock n).under t (clock' n) := by
  rw [turnAt, after_under clock' fun k hk => hkeep k (Nat.le_of_lt hk)]
  exact tick_under (clock' n) (hkeep n (Nat.le_refl n))

end Runs

/-- The terms of an engine. -/
def terms (e : Engine) : Terms where
  idealTime := e.goal.idealTime
  idealLines := e.goal.idealLines
  timeLimit := e.timeLimit

theorem under_terms (e : Engine) : e.under e.terms = e := by
  obtain ⟨program, world, goal, timeLimit, score, ticks⟩ := e
  simp [under, terms]

/-- On its own terms a tick is as it is. -/
theorem turnAt_terms (e : Engine) (clock : Nat → Readings) (n : Nat) :
    (e.turnAt clock n).under e.terms (clock n) = e.turnAt clock n := by
  have hsame : (e.under e.terms).turnAt clock n = (e.turnAt clock n).under e.terms (clock n) :=
    turnAt_under clock fun _ _ => .inl rfl
  rw [under_terms] at hsame
  exact hsame.symm

end Engine

end TilePuzzle
