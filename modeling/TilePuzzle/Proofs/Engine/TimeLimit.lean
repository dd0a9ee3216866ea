import TilePuzzle.Proofs.Engine.Announcements
import TilePuzzle.Proofs.Engine.Progress

/-!
# The time limit

The time that is left is a difference of two words of 64 bits. A clock can show more seconds than a
word with a sign holds, and the difference can be less than the least one, so both are cut off where
words end (`timeLeft_eq`). What is told of the time is the same as if nothing was cut off: the sign
of the difference decides about the timeout, and a difference that is shown lies between zero and
the limit. Only a bonus counts seconds below zero, and it is exact as long as nothing is cut off.

No call of an engine changes its limit. So when the clock does not go back, the time that is up
stays up, whatever the engine is asked for in between.

The main statement is `time_limit_exact`.
-/

namespace TilePuzzle

/-- Whether a signal tells of the time. -/
def Signal.IsTiming : Signal → Prop
  | time _ | timeout => True
  | lines _ | budget _ | win _ _ | lose | endOfRun => False

namespace Engine

variable {e : Engine} {clock : Readings} {r : Report} {decision : Option Outcome} {last : Engine}
  {limit : Int} {elapsed : Nat}

/-- The seconds that are left of `limit`, as far as words of 64 bits can tell. -/
def secondsLeft (limit : Int) (elapsed : Nat) : Int :=
  max Bounds.int64.least (limit - min (elapsed : Int) Bounds.int64.greatest)

/-- `time` is the bonus when `elapsed` seconds of `limit` have passed. Words of 64 bits hold it, and
all that it is calculated from; it is exact when they hold the seconds that have passed and those
that are left. -/
structure ExactBonus (limit : Int) (elapsed : Nat) (time : Int) : Prop where
  time_eq : time = Int.tdiv (secondsLeft limit elapsed) 60 * 10
  left : Bounds.int64.Has (secondsLeft limit elapsed)
  quotient : Bounds.int64.Has (Int.tdiv (secondsLeft limit elapsed) 60)
  product : Bounds.int64.Has time
  exact : elapsed ≤ Bounds.int64.greatest → Bounds.int64.least ≤ limit - elapsed →
    time = 10 * Int.tdiv (limit - elapsed) 60

/-- What a tick tells of the time under the limit `limit`. -/
structure Timed (limit : Int) (clock : Readings) (turn : Turn) (r : Report) : Prop where
  timedOut_iff : r.timedOut = true ↔ limit ≤ clock.closing
  timeLeft : r.timeLeft = max 0 (limit - clock.closing)
  /-- The time is announced once, as the last thing but for a timeout. -/
  signals : ∃ earlier, turn.signals = earlier ++ .time (max 0 (limit - clock.closing))
      :: (if limit ≤ clock.closing then [.timeout] else []) ∧ ∀ s ∈ earlier, ¬s.IsTiming
  bonus : ∀ remaining bonus, r.outcome = some (.won remaining bonus) →
    ExactBonus limit clock.scoring bonus.time

/-! ## Words -/

theorem has_int64_iff {n : Int} :
    Bounds.int64.Has n ↔ -9223372036854775808 ≤ n ∧ n ≤ 9223372036854775807 := Iff.rfl

theorem secondsLeft_eq (limit : Int) (elapsed : Nat) : secondsLeft limit elapsed
    = max (-9223372036854775808) (limit - min (elapsed : Int) 9223372036854775807) := rfl

theorem has_secondsLeft (hlimit : Bounds.int64.Has limit) (elapsed : Nat) :
    Bounds.int64.Has (secondsLeft limit elapsed) := by
  rw [has_int64_iff] at hlimit ⊢
  rw [secondsLeft_eq]
  omega

/-- A bonus is less than the time that it is for. -/
theorem exactBonus_of_eq (hlimit : Bounds.int64.Has limit) {time : Int}
    (h : time = Int.tdiv (secondsLeft limit elapsed) 60 * 10) : ExactBonus limit elapsed time := by
  have hleft := has_secondsLeft hlimit elapsed
  have hbounds := has_int64_iff.mp hleft
  have hquotient : (Int.tdiv (secondsLeft limit elapsed) 60).natAbs
      = (secondsLeft limit elapsed).natAbs / 60 := Int.natAbs_tdiv _ _
  exact {
    time_eq := h
    left := hleft
    quotient := by
      rw [has_int64_iff]
      omega
    product := by
      rw [has_int64_iff, h]
      omega
    exact := by
      intro hshown hless
      have heq : secondsLeft limit elapsed = limit - elapsed := by
        rw [has_int64_iff] at hlimit
        simp only [Bounds.int64] at hshown hless
        rw [secondsLeft_eq]
        omega
      rw [h, heq, Int.mul_comm] }

/-! ## Signals -/

theorem not_isTiming_of_mem_budgets {vs : List Visit} {s : Signal} (hs : s ∈ budgets vs) :
    ¬s.IsTiming := by
  obtain ⟨v, -, rfl⟩ := List.mem_map.mp hs
  exact id

theorem not_isTiming_of_mem_decisionSignals {s : Signal} (hs : s ∈ decisionSignals decision) :
    ¬s.IsTiming := by
  match decision with
  | some (.won remaining bonus) =>
      rw [List.mem_singleton.mp hs]
      exact id
  | some .lost =>
      rcases List.mem_pair.mp hs with rfl | rfl
      · exact id
      · exact id
  | some .finished | none => cases hs

/-! ## Ticks -/

section Limit

variable (hlimit : Bounds.int64.Has e.timeLimit)

include hlimit

theorem timeLeft_eq (elapsed : Nat) : e.timeLeft elapsed = secondsLeft e.timeLimit elapsed := by
  rw [has_int64_iff] at hlimit
  simp only [timeLeft, secondsLeft_eq, Bounds.clamp, Bounds.int64]
  omega

theorem timeLeft_nonpos_iff : e.timeLeft elapsed ≤ 0 ↔ e.timeLimit ≤ elapsed := by
  rw [timeLeft_eq hlimit, secondsLeft_eq]
  rw [has_int64_iff] at hlimit
  omega

theorem max_timeLeft : max (e.timeLeft elapsed) 0 = max 0 (e.timeLimit - elapsed) := by
  rw [timeLeft_eq hlimit, secondsLeft_eq]
  rw [has_int64_iff] at hlimit
  omega

theorem Course.timed (h : Course e clock r decision last) :
    Timed e.timeLimit clock (e.tickDuring clock) r where
  timedOut_iff := by
    rw [h.timedOut, decide_eq_true_eq, timeLeft_nonpos_iff hlimit]
  timeLeft := by
    rw [h.timeLeft, max_timeLeft hlimit]
  signals := by
    refine ⟨budgets e.round ++ decisionSignals decision ++ [.lines r.lines]
      ++ (if r.outcome = some .finished then [.endOfRun] else []), ?_, ?_⟩
    · rw [h.signals, h.timeLeft, max_timeLeft hlimit, h.timedOut]
      simp only [decide_eq_true_eq, timeLeft_nonpos_iff hlimit, List.append_assoc,
        List.singleton_append]
    · intro s hs
      rw [List.mem_append, List.mem_append, List.mem_append] at hs
      rcases hs with ((hs | hs) | hs) | hs
      · exact not_isTiming_of_mem_budgets hs
      · exact not_isTiming_of_mem_decisionSignals hs
      · rw [List.mem_singleton.mp hs]
        exact id
      · split at hs
        · rw [List.mem_singleton.mp hs]
          exact id
        · cases hs
  bonus := by
    intro remaining bonus hwon
    have hverdict := h.verdict_of_decision ((h.outcome_eq_some_iff (by simp)).mp hwon)
    rw [bonus_of_verdict hverdict, timeLeft_eq hlimit]
    exact exactBonus_of_eq hlimit rfl

end Limit

/-! ## Calls -/

/-- No call changes the limit. -/
theorem timeLimit_calls (e : Engine) (calls : List Call) :
    (calls.foldl call e).timeLimit = e.timeLimit := by
  induction calls generalizing e with
  | nil => rfl
  | cons c rest ih =>
      rw [List.foldl_cons, ih]
      cases c with
      | tick clock => exact (frame_tick e clock).timeLimit
      | reset | replaceWorld w => rfl

theorem timed_of_tick (hlimit : Bounds.int64.Has e.timeLimit)
    (hr : (e.tickDuring clock).result = .ok r) :
    Timed e.timeLimit clock (e.tickDuring clock) r := by
  obtain ⟨decision, last, h⟩ := tick_cases hr
  exact h.timed hlimit

/-- Whatever was asked of an engine before, a tick that meets no fault tells the time as on the
integers: it is up exactly when the clock has come to the limit, and what is shown of it is the
difference, or zero. A bonus for the time never leaves the words of 64 bits. If the clock does not
go back, later ticks find the time up too, whatever is asked of the engine in between. -/
theorem time_limit_exact (hlimit : Bounds.int64.Has e.timeLimit) (calls : List Call)
    (clock : Readings) :
    let turn := (calls.foldl call e).tickDuring clock
    (∀ r, turn.result = .ok r → Timed e.timeLimit clock turn r ∧
      (r.timedOut = true → ∀ (later : List Call) (clock' : Readings) r',
        clock.closing ≤ clock'.closing →
        ((later.foldl call turn.engine).tickDuring clock').result = .ok r' →
          r'.timedOut = true)) ∧
    ∀ (g : Goal) lines elapsed, ExactBonus e.timeLimit elapsed
      (g.bonus lines ((calls.foldl call e).timeLeft elapsed)).time := by
  intro turn
  have hkept := timeLimit_calls e calls
  have hlimit' : Bounds.int64.Has (calls.foldl call e).timeLimit := hkept ▸ hlimit
  refine ⟨fun r hr => ?_, fun g lines elapsed => ?_⟩
  · have htimed := timed_of_tick hlimit' hr
    refine ⟨hkept ▸ htimed, fun hout later clock' r' hclock hr' => ?_⟩
    have hlater : (later.foldl call turn.engine).timeLimit = (calls.foldl call e).timeLimit :=
      (timeLimit_calls turn.engine later).trans (frame_tick _ clock).timeLimit
    rw [(timed_of_tick (hlater ▸ hlimit') hr').timedOut_iff, hlater]
    have hpast := htimed.timedOut_iff.mp hout
    omega
  · rw [timeLeft_eq hlimit', hkept]
    exact exactBonus_of_eq hlimit rfl

/-- The engine of `finale` under the least limit there is. -/
def overdue : Engine := { finale with timeLimit := -9223372036854775808 }

/-- The clock shows all the seconds that it can show. The run is won in time that is up from the
start, and the time is still up in the next run. -/
theorem time_limit_exact_overdue :
    let clock : Readings := ⟨0, 18446744073709551615⟩
    Bounds.int64.Has overdue.timeLimit ∧ ∃ r, (overdue.tickDuring clock).result = .ok r ∧
      Timed overdue.timeLimit clock (overdue.tickDuring clock) r ∧ r.timeLeft = 0 ∧
        r.outcome = some (.won (-1) ⟨20, -1537228672809129300⟩) ∧
          ∃ r', ((overdue.tickDuring clock).engine.reset.tickDuring clock).result = .ok r' ∧
            r'.timedOut = true := by
  intro clock
  have hlimit : Bounds.int64.Has overdue.timeLimit := by decide
  obtain ⟨htick, -⟩ := time_limit_exact hlimit [] clock
  obtain ⟨r, hr⟩ : ∃ r, (overdue.tickDuring clock).result = .ok r := ⟨_, rfl⟩
  obtain ⟨r', hr'⟩ : ∃ r', ((overdue.tickDuring clock).engine.reset.tickDuring clock).result
    = .ok r' := ⟨_, rfl⟩
  obtain ⟨htimed, hlater⟩ := htick r hr
  have hout : r.timedOut = true := htimed.timedOut_iff.mpr (by decide)
  have hwon : (overdue.tickDuring clock).outcome?
      = some (.won (-1) ⟨20, -1537228672809129300⟩) := by decide
  rw [Turn.outcome?_of_ok hr] at hwon
  exact ⟨hlimit, r, hr, htimed, htimed.timeLeft, hwon, r', hr',
    hlater hout [.reset] clock r' (Nat.le_refl _) hr'⟩

end Engine

end TilePuzzle
