import TilePuzzle.Proofs.Engine.Progress
import TilePuzzle.Proofs.Engine.Terms

/-!
# Larger budgets

With a larger budget the same run is made on other terms (`Engine.under`). As long as no tick loses
it within the smaller budget, each tick comes to the same outcome within the larger one. A win is
then reported with the commands that are left in addition, and all else is the same.

The main statement is `larger_budget_harmless`.
-/

namespace TilePuzzle

/-- The outcome with more commands left. -/
def Outcome.raise (more : Int) : Outcome → Outcome
  | won remaining bonus => won (remaining + more) bonus
  | lost => lost
  | finished => finished

/-- A larger budget shows in the outcome alone. -/
theorem Report.reckon_extra {k : Reckoning} (hextra : k.extra = 0) (extra : Nat) (r : Report) :
    r.reckon { k with extra }
      = { r.reckon k with outcome := (r.reckon k).outcome.map (Outcome.raise extra) } := by
  have houtcome : ∀ o : Outcome, o.reckon { k with extra } = (o.reckon k).raise extra := by
    rintro (⟨remaining, bonus⟩ | _ | _) <;> simp [Outcome.reckon, Outcome.raise, hextra]
  simp [reckon, Option.map_map, Function.comp_def, houtcome]

theorem Outcome.raise_eq_lost_iff (more : Int) (o : Option Outcome) :
    o.map (Outcome.raise more) = some .lost ↔ o = some .lost := by
  match o with
  | some (.won _ _) | some .lost | some .finished | none => simp [Outcome.raise]

namespace Engine

variable {e : Engine} {clock : Nat → Readings} {n : Nat} {r : Report}

/-- On the terms of its engine a report is as it is. -/
theorem reckon_terms (hr : (e.turnAt clock n).result = .ok r) :
    r.reckon ((e.turnAt clock n).engine.reckoning e.terms (clock n)) = r := by
  have hown := congrArg Turn.result (turnAt_terms e clock n)
  rw [Turn.under, hr] at hown
  exact Except.ok.inj hown

/-- The result of a tick within a larger budget. -/
theorem result_extra (hr : (e.turnAt clock n).result = .ok r) (extra : Nat) :
    ((e.turnAt clock n).under { e.terms with extra } (clock n)).result
      = .ok { r with outcome := r.outcome.map (Outcome.raise extra) } := by
  have hown := reckon_terms hr
  generalize hk : (e.turnAt clock n).engine.reckoning e.terms (clock n) = k at hown
  have hk' : (e.turnAt clock n).engine.reckoning { e.terms with extra } (clock n)
      = { k with extra } := by rw [← hk]; rfl
  have hextra : k.extra = 0 := by rw [← hk]; rfl
  have hraised := Report.reckon_extra hextra extra r
  rw [hown] at hraised
  rw [Turn.under, hk', hr, ← hraised]
  rfl

/-- What a run comes to without a loss within its budget, it comes to in the same ticks within a
larger one. A win then leaves as much more as the budget is larger. -/
theorem larger_budget_harmless {c : Catalogue} {ds : List Descriptor} {e : Engine} {budget : Int}
    {n : Nat} (h : Program.build c ds = .ok e.program) (hrange : e.program.InRange e.world)
    (hle : e.goal.budget ≤ budget) (clock : Nat → Readings)
    (hlost : ∀ k < n, (e.turnAt clock k).outcome? ≠ some .lost) :
    let e' := { e with goal := { e.goal with budget } }
    ∀ k < n, ∃ r, (e.turnAt clock k).result = .ok r ∧
      (e'.turnAt clock k).result
        = .ok { r with outcome := r.outcome.map (Outcome.raise (budget - e.goal.budget)) } ∧
      (e'.turnAt clock k).outcome? ≠ some .lost ∧
      (e'.turnAt clock k).engine.world = (e.turnAt clock k).engine.world ∧
      (e'.turnAt clock k).engine.score = (e.turnAt clock k).engine.score := by
  obtain ⟨extra, rfl⟩ := Int.le.dest hle
  intro e' k hk
  -- No tick up to the `k`-th loses the run, so all of them are the same on the larger budget.
  have he' : e' = e.under { e.terms with extra } := rfl
  have hturn : e'.turnAt clock k = (e.turnAt clock k).under { e.terms with extra } (clock k) := by
    rw [he']
    exact turnAt_under clock fun j hj => .inr (hlost j (Nat.lt_of_le_of_lt hj hk))
  have hmore : e.goal.budget + extra - e.goal.budget = extra := by omega
  obtain ⟨r, hr⟩ := ((Ready.of_build h hrange).after clock k).tick (clock k)
  have hresult := result_extra hr extra
  rw [hturn, hmore]
  refine ⟨r, hr, hresult, ?_, rfl, rfl⟩
  rw [Turn.outcome?_of_ok hresult]
  show r.outcome.map _ ≠ _
  rw [Ne, Outcome.raise_eq_lost_iff, ← Turn.outcome?_of_ok hr]
  exact hlost k hk

/-- Steps to the right. -/
def arrows : Catalogue := ⟨.ofList [(">", ⟨[], fun _ => .ok (.move .east)⟩)]⟩

/-- Two steps to the right. -/
def errand : List Descriptor := [{ index := 1, type := ">" }, { index := 2, type := ">" }]

/-- Two avatars in the program of `errand`. The goal is reached with the fourth command, and the
budget is for three. -/
def walkers : Engine where
  program := { commands := [.move .east, .move .east] }
  world := [.setDimensions 2 3, .addAvatar { id := 3, position := ⟨0, 0⟩ },
    .addAvatar { id := 4, position := ⟨1, 0⟩ }].foldl World.perform World.empty
  goal := { idealTime := 0, idealLines := 2, budget := 3, avatarTargets := [⟨1, 2⟩] }
  timeLimit := 60

theorem larger_budget_harmless_walkers :
    let clock : Nat → Readings := fun k => ⟨k, k + 1⟩
    let rich := { walkers with goal := { walkers.goal with budget := 8 } }
    (walkers.turnAt clock 1).outcome? = some (.won (-1) ⟨0, 0⟩) ∧
      ∃ r, (walkers.turnAt clock 1).result = .ok r ∧
        (rich.turnAt clock 1).result = .ok { r with outcome := r.outcome.map (Outcome.raise 5) } ∧
        r.outcome.map (Outcome.raise 5) = some (.won 4 ⟨0, 0⟩) := by
  intro clock rich
  have hbuild : Program.build arrows errand = .ok walkers.program := by
    rw [Program.build, Program.order_of_pairwise (by decide)]
    rfl
  have hrange : walkers.program.InRange walkers.world := by decide
  have hlost : ∀ k < 2, (walkers.turnAt clock k).outcome? ≠ some .lost := by decide
  have hwon : (walkers.turnAt clock 1).outcome? = some (.won (-1) ⟨0, 0⟩) := by decide
  have hle : walkers.goal.budget ≤ 8 := by decide
  obtain ⟨r, hr, hr', -⟩ := larger_budget_harmless hbuild hrange hle clock hlost 1 (by decide)
  refine ⟨hwon, r, hr, hr', ?_⟩
  rw [← Turn.outcome?_of_ok hr, hwon]
  rfl

end Engine

end TilePuzzle
