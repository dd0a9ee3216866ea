import TilePuzzle.Proofs.Engine.Faults
import TilePuzzle.Proofs.Engine.TimeLimit

/-!
# Words of 64 bits

The score of a run, what is left of its budget and its bonuses are integers here. The numbers of a
level are words of 64 bits with a sign, and to count with such words comes to the same as long as no
result leaves them. Of the time this is seen to by `timeLeft`, which cuts it off where words end.

A run begins with a score of zero, and it executes one command at most that its budget does not
cover (`Covered`). So of all budgets only the least word and the greatest one can lead to numbers
that no word holds. The bonus for the lines leaves the words when the length of the program is too far
from its mark. On all other terms (`Moderate`) an engine counts alike on words and on integers,
whatever is asked of it.

The main statement is `words_suffice`.
-/

namespace TilePuzzle

/-- Words of 64 bits hold the bonuses. -/
structure Bonus.InWords (b : Bonus) : Prop where
  lines : Bounds.int64.Has b.lines
  time : Bounds.int64.Has b.time

/-- Words of 64 bits hold the numbers that are announced. -/
def Signal.InWords : Signal → Prop
  | budget remaining => Bounds.int64.Has remaining
  | win remaining bonus => Bounds.int64.Has remaining ∧ bonus.InWords
  | time timeLeft => Bounds.int64.Has timeLeft
  | lines _ | lose | endOfRun | timeout => True

namespace Engine

variable {e e' : Engine} {id excess : Nat} {line : Option Nat} {ids : List Nat} {vs : List Visit}
  {clock : Readings} {r : Report} {fault : Fault} {decision : Option Outcome} {last : Engine}

/-- Words of 64 bits hold the score and what is left of the budget. -/
structure InWords (e : Engine) : Prop where
  score : Bounds.int64.Has e.score
  remaining : Bounds.int64.Has e.remaining

/-- The terms of the engine leave room in words of 64 bits: for one command that the budget does not
cover, and for the bonus for the lines. -/
structure Moderate (e : Engine) : Prop where
  least_lt : Bounds.int64.least < e.goal.budget
  lt_greatest : e.goal.budget < Bounds.int64.greatest
  timeLimit : Bounds.int64.Has e.timeLimit
  lines : Bounds.int64.Has ((e.goal.idealLines - e.program.length) * Goal.scoringFactor)

/-- The budget covers the commands that were executed, except for `excess` of them at most. A budget
below zero covers none. -/
structure Covered (excess : Nat) (e : Engine) : Prop where
  nonneg : 0 ≤ e.score
  le : e.score ≤ max e.goal.budget 0 + excess

theorem Moderate.of_frame (h : Moderate e) (hframe : Frame e e') : Moderate e' := by
  obtain ⟨hleast, hgreatest, hlimit, hlines⟩ := h
  constructor
  · rwa [hframe.goal]
  · rwa [hframe.goal]
  · rwa [hframe.timeLimit]
  · rwa [hframe.goal, hframe.program]

/-! ## Steps -/

theorem covered_of_score_eq_zero (h : e.score = 0) : Covered 0 e where
  nonneg := by omega
  le := by omega

theorem Covered.opening (h : Covered excess e) : Covered excess e.opening.engine :=
  ⟨h.nonneg, h.le⟩

/-- A step executes one command at most. -/
theorem Covered.step (h : Covered 0 e) (hs : e.step id = .ok (line, e')) : Covered 1 e' := by
  have hscore := score_step hs
  obtain ⟨hnonneg, hle⟩ := h
  constructor
  · split at hscore <;> omega
  · rw [(frame_step hs).goal]
    split at hscore <;> omega

/-- As long as the run is open its budget is not overdrawn. -/
theorem Covered.of_not_decided (h : Covered excess e) (hopen : ¬e.Decided) : Covered 0 e where
  nonneg := h.nonneg
  le := by
    have hbalanced : 0 ≤ e.remaining := Int.not_lt.mp fun hlt => hopen (.inr hlt)
    rw [remaining] at hbalanced
    omega

/-- One command that is not covered leaves the words only when the budget is at an end of them. -/
theorem Covered.inWords (h : Covered excess e) (hexcess : excess ≤ 1) (hm : Moderate e) :
    InWords e := by
  obtain ⟨hnonneg, hle⟩ := h
  obtain ⟨hleast, hgreatest, -, -⟩ := hm
  simp only [Bounds.int64] at hleast hgreatest
  constructor
  · rw [has_int64_iff]
    omega
  · rw [has_int64_iff, remaining]
    omega

/-! ## Visits -/

theorem Path.covered (h : Path e vs e') (hopen : ∀ v ∈ vs, ¬v.engine.Decided)
    (hcovered : Covered 0 e) : Covered 0 e' := by
  induction h with
  | nil => exact hcovered
  | cons hs _ ih =>
      rw [List.forall_mem_cons] at hopen
      exact ih hopen.2 ((hcovered.step hs).of_not_decided hopen.1)

theorem covered_visits (ids : List Nat) (h : Covered 0 e) :
    ∀ v ∈ visits ids e, Frame e v.engine ∧ Covered 1 v.engine := by
  revert h
  apply visits_induction (P := fun _ e vs => Covered 0 e →
    ∀ v ∈ vs, Frame e v.engine ∧ Covered 1 v.engine)
  · intro e _ v hv
    cases hv
  · intro e id rest fault _ _ v hv
    cases hv
  · intro e id rest line e' hs _ h v hv
    obtain rfl := List.mem_singleton.mp hv
    exact ⟨frame_step hs, h.step hs⟩
  · intro e id rest line e' hs hopen ih h v hv
    have hstep := h.step hs
    rcases List.mem_cons.mp hv with rfl | hv
    · exact ⟨frame_step hs, hstep⟩
    · obtain ⟨hframe, hcovered⟩ := ih (hstep.of_not_decided hopen) v hv
      exact ⟨(frame_step hs).trans hframe, hcovered⟩

theorem inWords_of_mem_round (h : Covered 0 e) (hm : Moderate e) {v : Visit} (hv : v ∈ e.round) :
    v.engine.InWords := by
  obtain ⟨hframe, hcovered⟩ := covered_visits _ h.opening v hv
  exact hcovered.inWords (Nat.le_refl 1) (hm.of_frame ((frame_opening e).trans hframe))

theorem inWords_of_mem_budgets (h : Covered 0 e) (hm : Moderate e) {s : Signal}
    (hs : s ∈ budgets e.round) : s.InWords := by
  obtain ⟨v, hv, rfl⟩ := List.mem_map.mp hs
  exact (inWords_of_mem_round h hm (List.mem_filter.mp hv).1).remaining

/-! ## Ticks -/

/-- Whether a tick ends a run, goes on with it or meets a fault, nothing is overdrawn afterwards. -/
theorem Covered.tick (h : Covered 0 e) (clock : Readings) :
    Covered 0 (e.tickDuring clock).engine := by
  cases hr : (e.tickDuring clock).result with
  | error fault =>
      obtain ⟨hpath, hopen, -⟩ := round_of_error hr
      exact hpath.covered hopen h.opening
  | ok r =>
      obtain ⟨decision, last, hcourse⟩ := tick_cases hr
      by_cases hnone : r.outcome = none
      · rw [hcourse.engine_of_none hnone]
        exact hcourse.path.covered (hcourse.outcome_eq_none_iff.mp hnone).1 h.opening
      · exact covered_of_score_eq_zero (hcourse.score_of_outcome hnone)

/-- Words hold the bonuses, whatever the clock shows. -/
theorem Moderate.bonus (hm : Moderate e) (elapsed : Nat) :
    (e.goal.bonus e.program.length (e.timeLeft elapsed)).InWords where
  lines := hm.lines
  time := by
    rw [timeLeft_eq hm.timeLimit]
    exact (exactBonus_of_eq hm.timeLimit rfl).product

theorem Course.inWords_of_mem_decisionSignals (h : Course e clock r decision last)
    (hcovered : Covered 0 e) (hm : Moderate e) {s : Signal} (hs : s ∈ decisionSignals decision) :
    s.InWords := by
  match decision with
  | some (.won remaining bonus) =>
      rw [List.mem_singleton.mp hs]
      have hverdict := h.verdict_of_decision rfl
      -- The run is won in the state behind one of the visits.
      obtain ⟨v, hv, hdecided⟩ := h.decided_iff_exists.mp (Option.some_ne_none _)
      have hlast : last = v.engine := h.path.eq_of_decided hv hdecided
      have hbonus := bonus_of_verdict hverdict
      rw [h.goal, h.program] at hbonus
      rw [remaining_of_verdict hverdict, hbonus, hlast]
      exact ⟨(inWords_of_mem_round hcovered hm hv).remaining, hm.bonus clock.scoring⟩
  | some .lost =>
      rcases List.mem_pair.mp hs with rfl | rfl
      · exact has_int64_iff.mpr (by decide)
      · exact trivial
  | some .finished | none => cases hs

theorem inWords_of_mem_signals (h : Covered 0 e) (hm : Moderate e) {s : Signal}
    (hs : s ∈ (e.tickDuring clock).signals) : s.InWords := by
  cases hr : (e.tickDuring clock).result with
  | error fault =>
      rw [(round_of_error hr).2.2] at hs
      exact inWords_of_mem_budgets h hm hs
  | ok r =>
      obtain ⟨decision, last, hcourse⟩ := tick_cases hr
      have hlimit := has_int64_iff.mp hm.timeLimit
      have htime : Bounds.int64.Has r.timeLeft := by
        rw [(timed_of_tick hm.timeLimit hr).timeLeft, has_int64_iff]
        omega
      rw [hcourse.signals] at hs
      simp only [List.mem_append, List.mem_singleton, List.mem_ite_nil_right] at hs
      rcases hs with ((((hs | hs) | rfl) | ⟨-, rfl⟩) | rfl) | ⟨-, rfl⟩
      · exact inWords_of_mem_budgets h hm hs
      · exact hcourse.inWords_of_mem_decisionSignals h hm hs
      · exact trivial
      · exact trivial
      · exact htime
      · exact trivial

/-! ## Calls -/

theorem Covered.calls (h : Covered 0 e) (hm : Moderate e) (calls : List Call) :
    Covered 0 (calls.foldl call e) ∧ Moderate (calls.foldl call e) := by
  induction calls generalizing e with
  | nil => exact ⟨h, hm⟩
  | cons c rest ih =>
      cases c with
      | tick clock => exact ih (h.tick clock) (hm.of_frame (frame_tick e clock))
      | reset | replaceWorld w =>
          exact ih (covered_of_score_eq_zero rfl)
            ⟨hm.least_lt, hm.lt_greatest, hm.timeLimit, hm.lines⟩

/-- An engine on moderate terms that begins with a score of zero never comes to a number that words
of 64 bits do not hold: not between its calls, not behind any step of a tick, whether the tick goes
through or meets a fault, and not in what it announces. -/
theorem words_suffice (hm : Moderate e) (hzero : e.score = 0) (calls : List Call)
    (clock : Readings) :
    let e' := calls.foldl call e
    e'.InWords ∧ (∀ v ∈ e'.round, v.engine.InWords) ∧
      ∀ s ∈ (e'.tickDuring clock).signals, s.InWords := by
  intro e'
  obtain ⟨hcovered, hm'⟩ := (covered_of_score_eq_zero hzero).calls hm calls
  exact ⟨hcovered.inWords (Nat.zero_le 1) hm', fun v => inWords_of_mem_round hcovered hm',
    fun s => inWords_of_mem_signals hcovered hm'⟩

/-- With the least word for a budget, no word holds what one command leaves of it. -/
example : ¬Bounds.int64.Has (remaining { finale with
    goal := { finale.goal with budget := -9223372036854775808 }
    score := 1 }) := by
  decide

end Engine

end TilePuzzle
