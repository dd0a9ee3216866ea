import TilePuzzle.Proofs.Engine.Progress

/-!
# Budgets

Each command costs one, whoever executes it. As long as a run goes on, its score is the number of
commands that all avatars have executed in it, and the budget covers them. One command more than the
budget covers can be executed: if it reaches the goal the run is won, with a remainder of `-1`, and
else it is lost. The next run begins with a score of 0.

The ticks of a run are counted in two ways, by the lines that are reported (`spent`) and by the
worlds behind the commands (`trail`). The main statement is `budget_exact`.
-/

namespace TilePuzzle

namespace Engine

variable {e : Engine} {clock : Readings} {r : Report} {b s m n : Nat}

/-! ## Counting -/

/-- How many commands were executed in a tick. -/
def Turn.executed (t : Turn) : Nat := t.report?.elim 0 (·.lines.size)

/-- How many commands are executed in `n` ticks, of which the first comes after `m` others. -/
def spent (e : Engine) (clock : Nat → Readings) (m : Nat) : Nat → Nat
  | 0 => 0
  | n + 1 => e.spent clock m n + (e.turnAt clock (m + n)).executed

/-- The worlds right behind each command that is executed in the next tick. -/
def strides (e : Engine) : List World := (executed e.round).map (·.engine.world)

/-- The worlds right behind each command that is executed in `n` ticks, of which the first comes
after `m` others. -/
def trail (e : Engine) (clock : Nat → Readings) (m : Nat) : Nat → List World
  | 0 => []
  | n + 1 => e.trail clock m n ++ (e.after clock (m + n)).strides

/-- The `n` ticks that come after `m` others, and the tick after these, are in one run: the first of
them begins a run, and none of the `n` ends it. -/
structure OneRun (e : Engine) (clock : Nat → Readings) (m n : Nat) : Prop where
  begins : ∀ k, m = k + 1 → (e.turnAt clock k).outcome? ≠ none
  ongoing : ∀ i < n, (e.turnAt clock (m + i)).outcome? = none

theorem OneRun.succ {clock : Nat → Readings} (h : OneRun e clock m n)
    (hnone : (e.turnAt clock (m + n)).outcome? = none) : OneRun e clock m (n + 1) := by
  refine ⟨h.begins, fun i hi => ?_⟩
  rcases Nat.lt_succ_iff_lt_or_eq.mp hi with hlt | rfl
  · exact h.ongoing i hlt
  · exact hnone

/-- Every tick is in a run. -/
theorem exists_oneRun (e : Engine) (clock : Nat → Readings) (k : Nat) :
    ∃ m n, m + n = k ∧ OneRun e clock m n := by
  induction k with
  | zero => exact ⟨0, 0, rfl, ⟨fun k hk => by omega, fun i hi => by omega⟩⟩
  | succ k ih =>
      obtain ⟨m, n, rfl, hrun⟩ := ih
      by_cases hnone : (e.turnAt clock (m + n)).outcome? = none
      · exact ⟨m, n + 1, rfl, hrun.succ hnone⟩
      · refine ⟨m + n + 1, 0, rfl, ⟨fun k hk => ?_, fun i hi => by omega⟩⟩
        obtain rfl : m + n = k := Nat.succ.inj hk
        exact hnone

/-! ## One tick -/

namespace Course

variable {decision : Option Outcome} {last : Engine} (h : Course e clock r decision last)

include h

theorem size_lines (hids : e.world.avatarIds.Nodup) : r.lines.size = e.strides.length := by
  rw [h.lines, size_marks (nodup_round hids) fun _ _ => rfl, strides, List.length_map]
  exact Nat.zero_add _

theorem score : last.score = e.score + e.strides.length := by
  rw [strides, List.length_map]
  exact h.path.score

theorem score_of_outcome (hsome : r.outcome ≠ none) : (e.tickDuring clock).engine.score = 0 := by
  rw [h.engine, if_pos (Option.isSome_iff_ne_none.mpr hsome)]

/-- A decision is made by an avatar, and it is the verdict on the state that the avatars leave. -/
theorem verdict_of_decision {o : Outcome} (ho : decision = some o) :
    last.verdict (e.timeLeft clock.scoring) = some o := by
  obtain ⟨v, hv, -⟩ := h.decided_iff_exists.mp (by simp [ho])
  rw [← h.verdict (avatars_ne_nil_of_mem_round hv), ho]

section Spending

variable (hb : e.goal.budget = b) (hscore : e.score = s)

include hb hscore

theorem remaining : last.remaining = b - (s + e.strides.length : Nat) := by
  rw [Engine.remaining, h.goal, hb, h.score, hscore]
  omega

theorem neg_one_le_remaining (hs : s ≤ b) : -1 ≤ last.remaining := by
  apply h.path.neg_one_le_remaining
  show 0 ≤ e.goal.budget - e.score
  omega

/-- The command that the budget does not cover is the last one of the tick. -/
theorem of_overdrawn (hs : s ≤ b) {w : World} (hw : e.strides[b - s]? = some w) :
    e.world.avatars ≠ [] ∧ last.world = w ∧ last.remaining < 0 := by
  rw [strides, List.getElem?_map, Option.map_eq_some_iff] at hw
  obtain ⟨v, hv, rfl⟩ := hw
  have hround : v ∈ e.round := (List.mem_filter.mp (List.mem_of_getElem? hv)).1
  have hvisit : v.engine.score = e.score + (b - s + 1 : Nat) := h.path.score_visit hv
  have hgoal : v.engine.goal = e.goal := (h.path.frame_visit hround).goal
  have hoverdrawn : v.engine.remaining < 0 := by
    rw [Engine.remaining, hgoal, hb, hvisit, hscore]
    omega
  have hlast : last = v.engine := h.path.eq_of_decided hround (.inr hoverdrawn)
  exact ⟨avatars_ne_nil_of_mem_round hround, by rw [hlast], by rwa [hlast]⟩

theorem strides_of_overdrawn (hs : s ≤ b) (hr : last.remaining < 0) :
    e.strides[b - s]? = some last.world := by
  have hlt : b - s < e.strides.length := by
    have hremaining := h.remaining hb hscore
    omega
  have hw := List.getElem?_eq_getElem hlt
  rw [hw, (h.of_overdrawn hb hscore hs hw).2.1]

theorem lost_iff (hs : s ≤ b) : r.outcome = some .lost ↔
    ∃ w, e.strides[b - s]? = some w ∧ e.goal.reached w = false := by
  rw [h.outcome_eq_some_iff (by simp), ← h.goal]
  constructor
  · intro hlost
    obtain ⟨hreached, hr⟩ := verdict_lost_iff.mp (h.verdict_of_decision hlost)
    exact ⟨last.world, h.strides_of_overdrawn hb hscore hs hr, hreached⟩
  · rintro ⟨w, hw, hreached⟩
    obtain ⟨hne, rfl, hr⟩ := h.of_overdrawn hb hscore hs hw
    rw [h.verdict hne]
    exact verdict_lost_iff.mpr ⟨hreached, hr⟩

theorem remaining_of_won {remaining : Int} {bonus : Bonus}
    (hwon : r.outcome = some (.won remaining bonus)) :
    remaining = b - (s + e.strides.length : Nat) := by
  rw [h.outcome_eq_some_iff (by simp)] at hwon
  rw [remaining_of_verdict (h.verdict_of_decision hwon)]
  exact h.remaining hb hscore

theorem within_of_none (hnone : r.outcome = none) : s + e.strides.length ≤ b := by
  obtain ⟨hundecided, v, hv, -⟩ := h.outcome_eq_none_iff.mp hnone
  have hlast : ¬last.Decided := by
    rw [← verdict_eq_none_iff, ← h.verdict (avatars_ne_nil_of_mem_round hv)]
    exact h.undecided.mpr hundecided
  have hnonneg : ¬last.remaining < 0 := fun hlt => hlast (.inr hlt)
  have hremaining := h.remaining hb hscore
  omega

end Spending

end Course

/-! ## Runs -/

section Runs

variable {clock : Nat → Readings} (h : Ready e) (hids : e.world.avatarIds.Nodup)

include h

theorem Ready.score_of_begins (hzero : e.score = 0)
    (hm : ∀ k, m = k + 1 → (e.turnAt clock k).outcome? ≠ none) : (e.after clock m).score = 0 := by
  cases m with
  | zero => exact hzero
  | succ k =>
      obtain ⟨r, decision, last, -, houtcome, hcourse⟩ := h.course clock k
      apply hcourse.score_of_outcome
      rw [← houtcome]
      exact hm k rfl

include hids

theorem Ready.spent_succ : e.spent clock m (n + 1)
    = e.spent clock m n + (e.after clock (m + n)).strides.length := by
  obtain ⟨r, decision, last, hr, -, hcourse⟩ := h.course clock (m + n)
  have hids' : (e.after clock (m + n)).world.avatarIds.Nodup := by
    rwa [(frame_after e clock (m + n)).avatarIds]
  rw [spent, Turn.executed, Turn.report?, hr, ← hcourse.size_lines hids']
  rfl

/-- Both ways of counting come to the same. -/
theorem Ready.length_trail : (e.trail clock m n).length = e.spent clock m n := by
  induction n with
  | zero => rfl
  | succ n ih => rw [trail, List.length_append, ih, h.spent_succ hids]

/-- While a run goes on, the score counts its commands, and the budget covers them. -/
theorem Ready.score_of_oneRun (hb : e.goal.budget = b) (hzero : e.score = 0)
    (hrun : OneRun e clock m n) :
    (e.after clock (m + n)).score = e.spent clock m n ∧ e.spent clock m n ≤ b := by
  obtain ⟨hbegins, hongoing⟩ := hrun
  induction n with
  | zero => exact ⟨h.score_of_begins hzero hbegins, Nat.zero_le b⟩
  | succ n ih =>
      obtain ⟨hscore, -⟩ := ih fun i hi => hongoing i (Nat.lt_succ_of_lt hi)
      have hb' : (e.after clock (m + n)).goal.budget = b := by
        rw [(frame_after e clock (m + n)).goal, hb]
      obtain ⟨r, decision, last, -, houtcome, hcourse⟩ := h.course clock (m + n)
      rw [hongoing n (Nat.lt_succ_self n)] at houtcome
      have hafter : e.after clock (m + (n + 1)) = last := hcourse.engine_of_none houtcome.symm
      rw [hafter, hcourse.score, hscore, h.spent_succ hids]
      exact ⟨rfl, hcourse.within_of_none hb' hscore houtcome.symm⟩

end Runs

/-- The account of a run with the budget `b`, drawn up with its tick after `n` others, which brings
the report `r`. -/
structure Account (e : Engine) (clock : Nat → Readings) (b m n : Nat) (r : Report) : Prop where
  counted : (e.trail clock m (n + 1)).length = e.spent clock m (n + 1)
  ongoing : r.outcome = none → (e.after clock (m + n + 1)).score = e.spent clock m (n + 1) ∧
    0 ≤ (e.after clock (m + n + 1)).score ∧ (e.after clock (m + n + 1)).score ≤ b
  closed : r.outcome ≠ none → (e.after clock (m + n + 1)).score = 0
  limit : e.spent clock m (n + 1) ≤ b + 1
  /-- The run is lost with the first command that the budget does not cover. -/
  lost : r.outcome = some .lost ↔
    ∃ w, (e.trail clock m (n + 1))[b]? = some w ∧ e.goal.reached w = false
  won : ∀ remaining bonus, r.outcome = some (.won remaining bonus) →
    remaining = b - e.spent clock m (n + 1) ∧ -1 ≤ remaining

/-- Every tick of an engine with a built program is in a run, and the account of the run is right
after each of its ticks. That an identifier names one avatar is so in every world that is made by
actions (`World.ReachedBy.nodup_avatarIds`). -/
theorem budget_exact {c : Catalogue} {ds : List Descriptor} {e : Engine} {b : Nat}
    (h : Program.build c ds = .ok e.program) (hrange : e.program.InRange e.world)
    (hids : e.world.avatarIds.Nodup) (hb : e.goal.budget = b) (hzero : e.score = 0)
    (clock : Nat → Readings) :
    (∀ k, ∃ m n, m + n = k ∧ OneRun e clock m n) ∧
      ∀ m n, OneRun e clock m n →
        ∃ r, (e.turnAt clock (m + n)).result = .ok r ∧ Account e clock b m n r := by
  refine ⟨exists_oneRun e clock, fun m n hrun => ?_⟩
  have hready := Ready.of_build h hrange
  have hframe := frame_after e clock (m + n)
  have hb' : (e.after clock (m + n)).goal.budget = b := by rw [hframe.goal, hb]
  obtain ⟨hscore, hwithin⟩ := hready.score_of_oneRun hids hb hzero hrun
  obtain ⟨r, decision, last, hr, houtcome, hcourse⟩ := hready.course clock (m + n)
  have hspent : e.spent clock m (n + 1)
      = e.spent clock m n + (e.after clock (m + n)).strides.length := hready.spent_succ hids
  have hremaining := hcourse.remaining hb' hscore
  have hlimit := hcourse.neg_one_le_remaining hb' hscore hwithin
  refine ⟨r, hr, {
    counted := hready.length_trail hids
    ongoing := fun hnone => ?_
    closed := hcourse.score_of_outcome
    limit := by omega
    lost := ?_
    won := fun remaining bonus hwon => ?_ }⟩
  · obtain ⟨hafter, hbalanced⟩ :=
      hready.score_of_oneRun hids hb hzero (hrun.succ (houtcome.trans hnone))
    change (e.after clock (m + n + 1)).score = e.spent clock m (n + 1) at hafter
    exact ⟨hafter, by omega, by omega⟩
  · -- The budget covers all the ticks before, so what it does not cover is in this tick.
    have hlength : (e.trail clock m n).length = e.spent clock m n := hready.length_trail hids
    have hlast : (e.trail clock m (n + 1))[b]?
        = (e.after clock (m + n)).strides[b - e.spent clock m n]? := by
      rw [trail, List.getElem?_append_right (by omega), hlength]
    rw [hcourse.lost_iff hb' hscore hwithin, hframe.goal, hlast]
  · have hrest := hcourse.remaining_of_won hb' hscore hwon
    exact ⟨by omega, by omega⟩

/-- Two avatars that have two lines before them, and a budget for two commands. -/
def spenders : Engine where
  program := Program.nested
  world := [.setDimensions 1 2, .addAvatar { id := 3, position := ⟨0, 0⟩, counter := 4 },
    .addAvatar { id := 4, position := ⟨0, 1⟩, counter := 4 }].foldl World.perform World.empty
  goal := { idealTime := 0, idealLines := 0, budget := 2 }
  timeLimit := 60

theorem budget_exact_spenders :
    let clock : Nat → Readings := fun k => ⟨k, k + 1⟩
    (∃ r, (spenders.turnAt clock 1).result = .ok r ∧ spenders.spent clock 0 2 = 3 ∧
        Account spenders clock 2 0 1 r ∧ r.outcome = some .lost) ∧
      ∃ r, (spenders.turnAt clock 2).result = .ok r ∧ spenders.spent clock 2 1 = 1 ∧
        Account spenders clock 2 2 0 r := by
  intro clock
  have hbuild : Program.build Program.signs Program.nest = .ok spenders.program :=
    Program.build_nest
  have hrange : spenders.program.InRange spenders.world := by decide
  have hworld : World.Reachable spenders.world := World.ReachedBy.empty.foldl _ (by decide)
  have hids := hworld.nodup_avatarIds
  obtain ⟨-, haccount⟩ := budget_exact hbuild hrange hids rfl rfl clock
  have hlost : (spenders.turnAt clock 1).outcome? = some .lost := by decide
  have hfirst : OneRun spenders clock 0 1 := ⟨fun k hk => by omega, by decide⟩
  have hsecond : OneRun spenders clock 2 0 := by
    refine ⟨fun k hk => ?_, fun i hi => by omega⟩
    obtain rfl : 1 = k := Nat.succ.inj hk
    rw [hlost]
    exact Option.some_ne_none _
  obtain ⟨r, hr, hfirst'⟩ := haccount 0 1 hfirst
  obtain ⟨r', hr', hsecond'⟩ := haccount 2 0 hsecond
  exact ⟨⟨r, hr, by decide, hfirst', hfirst'.lost.mpr ⟨_, rfl, rfl⟩⟩, r', hr', by decide, hsecond'⟩

end Engine

end TilePuzzle
