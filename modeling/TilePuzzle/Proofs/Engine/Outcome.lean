import TilePuzzle.Proofs.Engine.Visits

/-!
# Outcomes

While the avatars of a tick act, the goal and the budget are looked at behind each of them. What the
report says can be told from the states before and after the tick all the same. The run is won
exactly when the goal is reached in the world that the tick leaves, for nobody acts once it is
reached. The run is finished exactly when nothing was left to execute and nothing decides it; an
avatar that has finished changes nothing, so this can be told from the state before the tick.

The main statement is `outcome_exact`.
-/

namespace TilePuzzle

namespace Engine

variable {e e' : Engine} {vs : List Visit} {v : Visit} {clock : Readings} {r : Report}

/-! ## Idle paths -/

/-- Where no command is executed, every visit finds and leaves the engine as it was at first. -/
theorem Path.step_of_idle (h : Path e vs e') (hidle : ∀ v ∈ vs, v.line = none) (hv : v ∈ vs) :
    v.engine = e ∧ e.step v.id = .ok (none, e) := by
  obtain ⟨e₁, front, back, rfl, hfront, hs, -⟩ := h.split hv
  obtain rfl := hfront.eq_of_idle fun v hv => hidle v (List.mem_append_left _ hv)
  rw [hidle v hv] at hs
  obtain hsame := Engine.eq_of_idle hs
  rw [hsame] at hs
  exact ⟨hsame, hs⟩

/-- Avatars that have finished execute nothing. -/
theorem Path.idle_of_finished (h : Path e vs e')
    (hend : ∀ v ∈ vs, e.world.counter? v.id = some e.program.finished) :
    ∀ v ∈ vs, v.line = none := by
  induction h with
  | nil => exact fun v hv => nomatch hv
  | @cons e e₁ e' id line vs hs _ ih =>
      have hdue : e.due id = none := by
        have hcounter : e.world.counter? id = some e.program.finished :=
          hend _ List.mem_cons_self
        simp [due, hcounter, Program.finished]
      have hline : line = none := (due_of_step hs).trans hdue
      subst hline
      obtain rfl := Engine.eq_of_idle hs
      rw [List.forall_mem_cons] at hend ⊢
      exact ⟨rfl, ih hend.2⟩

/-- An avatar that executes nothing has finished. -/
theorem counter?_of_idle_step {id : Nat} (hs : e.step id = .ok (none, e))
    (hid : id ∈ e.world.avatarIds) : e.world.counter? id = some e.program.finished := by
  obtain ⟨n, hn⟩ := World.mem_avatarIds_iff.mp hid
  obtain ⟨a, ha, rfl⟩ := Option.map_eq_some_iff.mp hn
  rcases step_cases hs with ⟨-, -, hfinished⟩ | ⟨_, _, _, -, -, -, hline, -⟩
  · rw [hn, hfinished a ha]
  · cases hline

/-! ## What the outcome says -/

theorem not_decided_iff : ¬e.Decided ↔ e.goal.reached e.world = false ∧ 0 ≤ e.remaining := by
  rw [Decided, not_or, Bool.not_eq_true, Int.not_lt]

namespace Course

variable {decision : Option Outcome} {last : Engine} (h : Course e clock r decision last)

include h

theorem won_iff (hne : e.world.avatars ≠ []) :
    (∃ remaining bonus, r.outcome = some (.won remaining bonus)) ↔
      e.goal.reached (e.tickDuring clock).engine.world = true := by
  have hdecided : ∀ remaining bonus, r.outcome = some (.won remaining bonus) ↔
      last.verdict (e.timeLeft clock.scoring) = some (.won remaining bonus) := by
    intro remaining bonus
    rw [h.outcome_eq_some_iff (by simp), h.verdict hne]
  simp only [hdecided]
  rw [verdict_won_iff, h.goal, h.world]

/-- When all avatars are visited and none of them executes a command, they have all finished. -/
theorem counter?_of_idle (hnone : decision = none) (hidle : ∀ v ∈ e.round, v.line = none) :
    ∀ id ∈ e.world.avatarIds, e.world.counter? id = some e.program.finished := by
  intro id hid
  obtain ⟨v, hv, rfl⟩ : ∃ v ∈ e.round, v.id = id := by
    rw [← List.mem_map, h.complete hnone]
    exact hid
  exact counter?_of_idle_step (e := e.opening.engine) (h.path.step_of_idle hidle hv).2 hid

theorem finished_iff (hne : e.world.avatars ≠ []) : r.outcome = some .finished ↔
    (∀ id ∈ e.world.avatarIds, e.world.counter? id = some e.program.finished) ∧
      e.goal.reached e.world = false ∧ 0 ≤ e.remaining := by
  rw [h.outcome_eq_finished_iff]
  constructor
  · rintro ⟨hundecided, hidle⟩
    have hnone := h.undecided.mpr hundecided
    obtain ⟨a, ha⟩ := List.exists_mem_of_ne_nil _ hne
    obtain ⟨v, hv, -⟩ : ∃ v ∈ e.round, v.id = a.id := by
      rw [← List.mem_map, h.complete hnone]
      exact List.mem_map_of_mem ha
    have hopen := hundecided v hv
    rw [(h.path.step_of_idle hidle hv).1] at hopen
    exact ⟨h.counter?_of_idle hnone hidle, not_decided_iff.mp hopen⟩
  · rintro ⟨hend, hopen⟩
    have hidle := h.path.idle_of_finished fun v hv => hend v.id (mem_avatarIds_of_mem_round hv)
    refine ⟨fun v hv => ?_, hidle⟩
    rw [(h.path.step_of_idle hidle hv).1]
    exact not_decided_iff.mpr hopen

/-- The tick that finds all avatars finished leaves the world as it is. -/
theorem world_of_finished (hfinished : r.outcome = some .finished) :
    (e.tickDuring clock).engine.world = e.world := by
  rw [h.world, h.path.eq_of_idle (h.outcome_eq_finished_iff.mp hfinished).2]
  rfl

theorem none_iff : r.outcome = none ↔
    (∀ v ∈ e.round, e.goal.reached v.engine.world = false ∧ 0 ≤ v.engine.remaining) ∧
      ∃ v ∈ e.round, v.line ≠ none := by
  rw [h.outcome_eq_none_iff]
  apply and_congr_left'
  apply forall₂_congr
  intro v hv
  rw [not_decided_iff, (h.path.frame_visit hv).goal]
  rfl

end Course

theorem finished_of_deserted (hempty : e.world.avatars = []) (clock : Readings) :
    ∃ r, (e.tickDuring clock).result = .ok r ∧ r.outcome = some .finished := by
  have hact : act (e.timeLeft clock.scoring) e.world.avatarIds e.opening
      = (.ok none, e.opening) := by
    rw [World.avatarIds, hempty]
    rfl
  rw [tick_of_ok hact]
  exact ⟨_, rfl, rfl⟩

/-- The outcome of a tick that meets no fault, for each of the three ways in which the run is not
lost. Without avatars there is nothing left to do, and no tick fails. -/
theorem outcome_exact (e : Engine) (clock : Readings) :
    (∀ r, (e.tickDuring clock).result = .ok r → e.world.avatars ≠ [] →
      ((∃ remaining bonus, r.outcome = some (.won remaining bonus)) ↔
        e.goal.reached (e.tickDuring clock).engine.world = true) ∧
      (r.outcome = some .finished ↔
        (∀ id ∈ e.world.avatarIds, e.world.counter? id = some e.program.finished) ∧
          e.goal.reached e.world = false ∧ 0 ≤ e.remaining) ∧
      (r.outcome = some .finished → (e.tickDuring clock).engine.world = e.world) ∧
      (r.outcome = none ↔
        (∀ v ∈ e.round, e.goal.reached v.engine.world = false ∧ 0 ≤ v.engine.remaining) ∧
          ∃ v ∈ e.round, v.line ≠ none)) ∧
    (e.world.avatars = [] →
      ∃ r, (e.tickDuring clock).result = .ok r ∧ r.outcome = some .finished) := by
  refine ⟨fun r hr hne => ?_, fun hempty => finished_of_deserted hempty clock⟩
  obtain ⟨decision, last, h⟩ := tick_cases hr
  exact ⟨h.won_iff hne, h.finished_iff hne, h.world_of_finished, h.none_iff⟩

/-- The first of two avatars reaches the goal with its first step. -/
def arrival : Engine where
  program := { commands := [.move .east] }
  world := [.setDimensions 1 3, .addAvatar { id := 3, position := ⟨0, 0⟩ },
    .addAvatar { id := 4, position := ⟨0, 2⟩ }].foldl World.perform World.empty
  goal := { idealTime := 0, idealLines := 0, budget := 9, avatarTargets := [⟨0, 1⟩] }
  timeLimit := 60

theorem outcome_exact_arrival :
    arrival.round.map (fun v => (v.id, v.line)) = [(3, some 1)] ∧
      ∃ r, (arrival.tickDuring ⟨2, 3⟩).result = .ok r ∧
        (∃ remaining bonus, r.outcome = some (.won remaining bonus)) ∧
        r.outcome ≠ some .finished := by
  obtain ⟨r, hr⟩ : ∃ r, (arrival.tickDuring ⟨2, 3⟩).result = .ok r := ⟨_, rfl⟩
  obtain ⟨hwon, hfinished, -, -⟩ := (outcome_exact arrival ⟨2, 3⟩).1 r hr (by decide)
  refine ⟨by decide, r, hr, hwon.mpr (by decide), fun hend => ?_⟩
  have hcounter := (hfinished.mp hend).1 3 (by decide)
  revert hcounter
  decide

end Engine

end TilePuzzle
