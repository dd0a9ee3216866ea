import TilePuzzle.Proofs.Engine.Budget

/-!
# Announcements

Who watches a run sees its signals and not its reports. A tick announces what is left of the budget
behind each command, then how the run was decided, and, when all avatars have acted, the lines, the
end of the run and the time. `Report.announcements` writes this row down from the report of the tick
alone; only what was left of the budget before the tick has to be known besides.

The main statement is `signals_exact`: the signals of a tick are that row, with none left out,
doubled or out of place.
-/

namespace TilePuzzle

/-- What a tick with the report `r` announces, when `left` was left of the budget before it. -/
def Report.announcements (r : Report) (left : Int) : List Signal :=
  (List.range r.lines.size).map (fun (i : Nat) => .budget (left - (i + 1)))
    ++ (match r.outcome with
      | some (.won remaining bonus) => [.win remaining bonus]
      | some .lost => [.budget 0, .lose]
      | some .finished | none => [])
    ++ [.lines r.lines]
    ++ (if r.outcome = some .finished then [.endOfRun] else [])
    ++ [.time r.timeLeft]
    ++ (if r.timedOut then [.timeout] else [])

namespace Engine

variable {e e' : Engine} {vs : List Visit} {clock : Readings} {r : Report}

/-- The executed commands count down, one by one, what is left of the budget. -/
theorem Path.budgets_eq (h : Path e vs e') : budgets vs
    = (List.range (executed vs).length).map fun (i : Nat) => .budget (e.remaining - (i + 1)) := by
  apply List.ext_getElem?
  intro i
  rw [budgets, List.getElem?_map, List.getElem?_map]
  cases hv : (executed vs)[i]? with
  | none =>
      have hlength := List.getElem?_eq_none_iff.mp hv
      rw [List.getElem?_eq_none (List.length_range.trans_le hlength)]
      rfl
  | some v =>
      have hlt : i < (executed vs).length := (List.getElem?_eq_some_iff.mp hv).1
      have hvisit : v ∈ vs := (List.mem_filter.mp (List.mem_of_getElem? hv)).1
      have hscore : v.engine.score = e.score + (i + 1 : Nat) := h.score_visit hv
      have hleft : v.engine.remaining = e.remaining - (i + 1) := by
        rw [remaining, remaining, (h.frame_visit hvisit).goal, hscore]
        omega
      rw [List.getElem?_range hlt, Option.map_some, Option.map_some, hleft]

/-- The bonuses of a win are those of the program and of the time when the win is scored. -/
theorem bonus_of_verdict {timeLeft remaining : Int} {bonus : Bonus}
    (h : e.verdict timeLeft = some (.won remaining bonus)) :
    bonus = e.goal.bonus e.program.length timeLeft := by
  unfold verdict at h
  split at h
  · cases h
    rfl
  · split at h <;> cases h

namespace Course

variable {decision : Option Outcome} {last : Engine} (h : Course e clock r decision last)

include h

/-- The decision that is announced can be told from the outcome. -/
theorem decisionSignals_eq : decisionSignals decision = match r.outcome with
    | some (.won remaining bonus) => [.win remaining bonus]
    | some .lost => [.budget 0, .lose]
    | some .finished | none => [] := by
  rw [h.outcome]
  match decision, h.ne_finished with
  | some (.won remaining bonus), _ => rfl
  | some .lost, _ => rfl
  | some .finished, hne => exact absurd rfl hne
  | none, _ =>
      rw [Engine.outcome]
      cases r.lines.entries.isEmpty <;> rfl

theorem announcements (hids : e.world.avatarIds.Nodup) :
    (e.tickDuring clock).signals = r.announcements e.remaining := by
  have hsize : (executed e.round).length = r.lines.size := by
    rw [h.size_lines hids, strides, List.length_map]
  have hbudgets := h.path.budgets_eq
  rw [hsize] at hbudgets
  rw [h.signals, hbudgets, h.decisionSignals_eq]
  rfl

end Course

/-- A tick that meets no fault announces what its report says, in one fixed order. A win is
announced with what the commands of the tick left of the budget, and with the bonuses for the length
of the program and for the minutes that are left when it is scored. That an identifier names one
avatar is so in every world that is made by actions (`World.ReachedBy.nodup_avatarIds`). -/
theorem signals_exact (hr : (e.tickDuring clock).result = .ok r)
    (hids : e.world.avatarIds.Nodup) :
    (e.tickDuring clock).signals = r.announcements (e.goal.budget - e.score) ∧
      ∀ remaining bonus, r.outcome = some (.won remaining bonus) →
        remaining = e.goal.budget - e.score - r.lines.size ∧
        bonus.lines = (e.goal.idealLines - e.program.length) * 10 ∧
        bonus.time = 10 * Int.tdiv (e.timeLeft clock.scoring) 60 := by
  obtain ⟨decision, last, h⟩ := tick_cases hr
  refine ⟨h.announcements hids, fun remaining bonus hwon => ?_⟩
  have hverdict := h.verdict_of_decision ((h.outcome_eq_some_iff (by simp)).mp hwon)
  have hbonus := bonus_of_verdict hverdict
  rw [h.goal, h.program] at hbonus
  subst hbonus
  refine ⟨?_, rfl, Int.mul_comm _ _⟩
  rw [remaining_of_verdict hverdict, Engine.remaining, h.goal, h.score, h.size_lines hids]
  omega

/-- Two avatars, of which the second one reaches the goal with its step, and a budget for one
command. The time limit passes while the win is scored. -/
def finale : Engine where
  program := { commands := [.move .east, .drop, .drop] }
  world := [.setDimensions 1 4, .addAvatar { id := 3, position := ⟨0, 0⟩ },
    .addAvatar { id := 4, position := ⟨0, 2⟩ }].foldl World.perform World.empty
  goal := { idealTime := 0, idealLines := 5, budget := 1, avatarTargets := [⟨0, 3⟩] }
  timeLimit := 200

theorem signals_exact_finale :
    ∃ r, (finale.tickDuring ⟨20, 200⟩).result = .ok r ∧
      r.announcements (finale.goal.budget - finale.score)
        = [.budget 0, .budget (-1), .win (-1) ⟨20, 30⟩, .lines (.ofList [(3, 1), (4, 1)]), .time 0,
          .timeout] ∧
      (finale.tickDuring ⟨20, 200⟩).signals
        = r.announcements (finale.goal.budget - finale.score) := by
  obtain ⟨r, hr⟩ : ∃ r, (finale.tickDuring ⟨20, 200⟩).result = .ok r := ⟨_, rfl⟩
  have hworld : World.Reachable finale.world := World.ReachedBy.empty.foldl _ (by decide)
  obtain ⟨hsignals, -⟩ := signals_exact hr hworld.nodup_avatarIds
  refine ⟨r, hr, ?_, hsignals⟩
  rw [← hsignals]
  decide

end Engine

end TilePuzzle
