import TilePuzzle.Proofs.Engine.Outcome
import TilePuzzle.Proofs.Engine.Termination
import TilePuzzle.Proofs.World.Effects

/-!
# How far a tick reaches

A tick asks the avatars in their order, up to the one whose step decides the run, and each of them
executes one command at most. `Extent` describes the tick by the list of the avatars that it asks.
The report has a line for each of them that had not finished, and whatever differs after the tick
is due to one of these: its counter goes on as the flow of its command tells, and only it and the
block that it carries, before the tick or after it, have changed.

What one avatar can change is known from its command (`confined_step`). Along a path a change of an
avatar or of a block can then be traced back to a visit, because nobody is visited twice.

The main statement is `extent_of_tick`.
-/

namespace TilePuzzle

namespace Engine

open World (Confined Reachable ReachedBy SameSetting)

variable {e e₁ e' last : Engine} {id k n : Nat} {line : Option Nat} {ids : List Nat}
  {vs : List Visit} {v : Visit} {clock : Readings} {r : Report} {decision : Option Outcome}

/-- The engine after a step of each of the avatars `ids`. A step that meets a fault is left out. -/
def afterSteps (e : Engine) : List Nat → Engine
  | [] => e
  | id :: rest =>
    match e.step id with
    | .ok (_, e') => e'.afterSteps rest
    | .error _ => e.afterSteps rest

/-- A tick with the report `r` has asked the avatars `ids`, one after the other, and nobody else. -/
structure Extent (e : Engine) (clock : Readings) (r : Report) (ids : List Nat) : Prop where
  inOrder : ids <+: e.world.avatarIds
  /-- Everybody is asked, unless the run is won or lost. -/
  whole : ¬r.Decisive → ids = e.world.avatarIds
  asked : r.Decisive → ids ≠ []
  /-- The run is decided behind the last avatar that is asked, and behind no other one. -/
  decided_iff : ∀ front id back, ids = front ++ id :: back →
    ((e.opening.engine.afterSteps (front ++ [id])).Decided ↔ back = [] ∧ r.Decisive)
  lines : ∀ id n, r.lines.get? id = some n ↔
    id ∈ ids ∧ e.world.counter? id = some n ∧ n ≤ e.program.length
  /-- An avatar goes on behind its `if` when the condition fails as the avatars before it leave the
  world, and else on the next line. -/
  counters : ∀ front id back n, ids = front ++ id :: back → r.lines.get? id = some n →
    ∃ c, e.program.command? n = some c ∧
      let found := (e.opening.engine.afterSteps front).world
      let counter := (e.tickDuring clock).engine.world.counter? id
      (c.Declines id found →
        ∃ target, e.program.jump? n = some target ∧ counter = some (target + 1)) ∧
      (¬c.Declines id found → counter = some (n + 1))
  still : ∀ id, r.lines.get? id = none →
    (e.tickDuring clock).engine.world.avatar? id = e.world.avatar? id
  blocks : ∀ k, (e.tickDuring clock).engine.world.block? k ≠ e.world.block? k →
    ∃ id n, r.lines.get? id = some n ∧
      (e.world.load? id = some k ∨ (e.tickDuring clock).engine.world.load? id = some k)
  setting : SameSetting e.world (e.tickDuring clock).engine.world

/-! ## Steps -/

theorem afterSteps_cons (hs : e.step id = .ok (line, e')) :
    e.afterSteps (id :: ids) = e'.afterSteps ids := by
  rw [afterSteps, hs]

/-- A step changes its avatar, and what that avatar carries. -/
theorem confined_step (h : e.step id = .ok (line, e')) : Confined id e.world e'.world := by
  rcases step_cases h with ⟨-, rfl, -⟩ | ⟨a, c, n, -, -, -, -, rfl⟩
  · exact .refl id e'.world
  · exact (Confined.execute c id e.world).updateAvatar (by intro; rfl) (by intro; rfl)

theorem load?_step (h : e.step id = .ok (line, e')) {j : Nat} (hj : j ≠ id) :
    e'.world.load? j = e.world.load? j :=
  World.load?_congr ((confined_step h).avatar? j hj)

/-- An avatar that executes a command goes on as the flow of the command tells. -/
theorem counter?_step_self (hs : e.step id = .ok (some n, e')) :
    ∃ c, e.program.command? n = some c ∧
      (c.Declines id e.world →
        ∃ target, e.program.jump? n = some target ∧ e'.world.counter? id = some (target + 1)) ∧
      (¬c.Declines id e.world → e'.world.counter? id = some (n + 1)) := by
  rcases step_cases hs with ⟨hline, -⟩ | ⟨a, c, counter, ha, hc, hnext, hline, rfl⟩
  · cases hline
  · obtain rfl : n = a.counter := Option.some.inj hline
    have hcounter : (e.advance id c counter).world.counter? id = some counter := by
      rw [counter?_advance, if_pos rfl, World.counter?, ha]
      rfl
    refine ⟨c, hc, fun hdeclines => ?_, fun hdeclines => ?_⟩
    · rw [Command.flow_eq_skipBody_iff.mpr hdeclines, Program.next] at hnext
      split at hnext
      · next target hjump =>
          cases hnext
          exact ⟨target, hjump, hcounter⟩
      · cases hnext
    · have hflow : (c.execute id e.world).1 = .next := by
        cases hflow : (c.execute id e.world).1 with
        | next => rfl
        | skipBody => exact absurd (Command.flow_eq_skipBody_iff.mp hflow) hdeclines
      rw [hflow] at hnext
      cases hnext
      exact hcounter

/-! ## Paths -/

namespace Path

theorem append_iff {front back : List Visit} :
    Path e (front ++ back) e' ↔ ∃ e₁, Path e front e₁ ∧ Path e₁ back e' := by
  constructor
  · intro h
    induction front generalizing e with
    | nil => exact ⟨e, .nil, h⟩
    | cons v front ih =>
        cases h with
        | cons hs hrest =>
            obtain ⟨e₁, hfront, hback⟩ := ih hrest
            exact ⟨e₁, .cons hs hfront, hback⟩
  · rintro ⟨e₁, hfront, hback⟩
    induction hfront with
    | nil => exact hback
    | cons hs _ ih => exact .cons hs (ih hback)

theorem afterSteps (h : Path e vs e') : e.afterSteps (vs.map (·.id)) = e' := by
  induction h with
  | nil => rfl
  | cons hs _ ih => rw [List.map_cons, afterSteps_cons hs, ih]

/-- Each way to cut the identifiers in two cuts the path. -/
theorem cut {front back : List Nat} (h : Path e vs e')
    (heq : vs.map (·.id) = front ++ id :: back) : ∃ first v second,
      vs = first ++ v :: second ∧ first.map (·.id) = front ∧ v.id = id ∧
        second.map (·.id) = back ∧ Path e first (e.afterSteps front) ∧
        (e.afterSteps front).step id = .ok (v.line, v.engine) ∧ Path v.engine second e' := by
  obtain ⟨first, tail, rfl, rfl, htail⟩ := List.map_eq_append_iff.mp heq
  obtain ⟨v, second, rfl, rfl, rfl⟩ := List.map_eq_cons_iff.mp htail
  obtain ⟨e₁, hfirst, hrest⟩ := append_iff.mp h
  cases hrest with
  | cons hs hsecond =>
      rw [hfirst.afterSteps]
      exact ⟨first, _, second, rfl, rfl, rfl, rfl, hfirst, hs, hsecond⟩

/-- An avatar that executes no command is as it was. -/
theorem avatar?_of_idle (h : Path e vs e') (hidle : ∀ v ∈ vs, v.id = id → v.line = none) :
    e'.world.avatar? id = e.world.avatar? id := by
  induction h with
  | nil => rfl
  | @cons e e₁ e' i line vs hs _ ih =>
      rw [List.forall_mem_cons] at hidle
      rw [ih hidle.2]
      by_cases hid : i = id
      · have hline : line = none := hidle.1 hid
        subst hline
        rw [Engine.eq_of_idle hs]
      · exact (confined_step hs).avatar? id (Ne.symm hid)

/-- A block that nobody carries who executes a command, neither before nor after the path, is as it
was. -/
theorem block?_of_unloaded (h : Path e vs e') (hids : (vs.map (·.id)).Nodup)
    (hk : ∀ v ∈ vs, v.line ≠ none →
      e.world.load? v.id ≠ some k ∧ e'.world.load? v.id ≠ some k) :
    e'.world.block? k = e.world.block? k := by
  induction h with
  | nil => rfl
  | @cons e e₁ e' i line vs hs hrest ih =>
      rw [List.map_cons, List.nodup_cons] at hids
      rw [List.forall_mem_cons] at hk
      obtain ⟨hnew, hids⟩ := hids
      obtain ⟨hfirst, hk⟩ := hk
      have hlater : e'.world.block? k = e₁.world.block? k := by
        apply ih hids
        intro v hv hline
        have hne : v.id ≠ i := fun heq => hnew (List.mem_map.mpr ⟨v, hv, heq⟩)
        rw [load?_step hs hne]
        exact hk v hv hline
      rw [hlater]
      cases line with
      | none => rw [Engine.eq_of_idle hs]
      | some n =>
          -- The avatar is not visited again, so it ends with what it carries now.
          have hload : e'.world.load? i = e₁.world.load? i := by
            have hidle : ∀ v ∈ vs, v.id = i → v.line = none :=
              fun v hv heq => absurd (List.mem_map.mpr ⟨v, hv, heq⟩) hnew
            exact World.load?_congr (hrest.avatar?_of_idle hidle)
          obtain ⟨hbefore, hafter⟩ := hfirst (Option.some_ne_none n)
          rw [hload] at hafter
          exact (confined_step hs).block? k hbefore hafter

end Path

/-! ## Ticks -/

/-- Only the last visit decides the run. -/
theorem eq_nil_of_decided {front back : List Visit} (h : visits ids e = front ++ v :: back)
    (hd : v.engine.Decided) : back = [] := by
  revert front
  apply visits_induction
    (P := fun _ _ vs => ∀ {front}, vs = front ++ v :: back → back = [])
  · intro e front h
    simp at h
  · intro e id rest fault _ front h
    simp at h
  · intro e id rest line e' _ _ front h
    cases front with
    | nil => exact (List.cons.inj h).2.symm
    | cons v' front => simp at h
  · intro e id rest line e' _ hopen ih front h
    cases front with
    | nil =>
        obtain ⟨rfl, -⟩ := List.cons.inj h
        exact absurd hd hopen
    | cons v' front => exact ih (List.cons.inj h).2

namespace Course

variable (h : Course e clock r decision last)

include h

theorem decisive_iff : r.Decisive ↔ decision ≠ none := by
  constructor
  · rintro (hlost | ⟨remaining, bonus, hwon⟩)
    · rw [(h.outcome_eq_some_iff (by simp)).mp hlost]
      exact Option.some_ne_none _
    · rw [(h.outcome_eq_some_iff (by simp)).mp hwon]
      exact Option.some_ne_none _
  · intro hdecided
    by_contra hopen
    exact hdecided (h.decision_eq_none hopen)

theorem decisive_iff_exists : r.Decisive ↔ ∃ v ∈ e.round, v.engine.Decided := by
  rw [h.decisive_iff, h.decided_iff_exists]

theorem decided_iff_of_visit {front back : List Visit} (hvisits : e.round = front ++ v :: back) :
    v.engine.Decided ↔ back = [] ∧ r.Decisive := by
  rw [h.decisive_iff_exists]
  constructor
  · intro hd
    exact ⟨eq_nil_of_decided hvisits hd, v, hvisits ▸ List.mem_append_cons_self, hd⟩
  · -- Whoever decides the run is visited last.
    rintro ⟨rfl, v', hv', hd⟩
    obtain ⟨front', back', hvisits'⟩ := List.append_of_mem hv'
    obtain rfl := eq_nil_of_decided hvisits' hd
    rw [hvisits] at hvisits'
    obtain ⟨-, hsame⟩ := List.append_inj' hvisits' rfl
    rwa [(List.cons.inj hsame).1]

section Nodup

variable (hids : e.world.avatarIds.Nodup)

include hids

theorem get?_lines_of_visit (hv : v ∈ e.round) : r.lines.get? v.id = v.line := by
  rw [h.lines, get?_marks (nodup_round hids) hv, SortedMap.get?_empty, Option.or_none]

theorem get?_lines_eq_some_iff : r.lines.get? id = some n ↔
    id ∈ e.round.map (·.id) ∧ e.world.counter? id = some n ∧ n ≤ e.program.length := by
  constructor
  · intro hline
    rw [h.lines] at hline
    obtain ⟨v, hv, rfl, hvline⟩ := (exists_of_get?_marks hline).resolve_left (by simp)
    rw [h.path.line_eq_due (nodup_round hids) hv] at hvline
    exact ⟨List.mem_map_of_mem hv, due_eq_some_iff.mp hvline⟩
  · rintro ⟨hid, hdue⟩
    obtain ⟨v, hv, rfl⟩ := List.mem_map.mp hid
    rw [h.get?_lines_of_visit hids hv, h.path.line_eq_due (nodup_round hids) hv]
    exact due_eq_some_iff.mpr hdue

/-- The counter that a step sets is the one after the tick. -/
theorem counter?_of_visit {front back : List Visit} (hvisits : e.round = front ++ v :: back)
    (hback : Path v.engine back last) :
    (e.tickDuring clock).engine.world.counter? v.id = v.engine.world.counter? v.id := by
  have hround := nodup_round hids
  rw [hvisits, List.map_append, List.map_cons, List.nodup_append, List.nodup_cons] at hround
  obtain ⟨-, ⟨hnew, -⟩, -⟩ := hround
  rw [h.world, hback.counter?_of_unvisited hnew]

/-- The avatars that are asked are those of the visits. -/
theorem extent : Extent e clock r (e.round.map (·.id)) where
  inOrder := ids_visits _ _
  whole := by
    intro hopen
    rw [h.decisive_iff, not_not] at hopen
    exact h.complete hopen
  asked := by
    intro hdecisive
    obtain ⟨v, hv, -⟩ := h.decisive_iff_exists.mp hdecisive
    exact List.ne_nil_of_mem (List.mem_map_of_mem hv)
  decided_iff := by
    intro front id back heq
    obtain ⟨first, v, second, hvisits, rfl, rfl, rfl, hfirst, hs, -⟩ := h.path.cut heq
    have hpath : Path e.opening.engine (first ++ [v]) v.engine :=
      Path.append_iff.mpr ⟨_, hfirst, .cons hs .nil⟩
    have hlast : e.opening.engine.afterSteps (first.map (·.id) ++ [v.id]) = v.engine := by
      simpa using hpath.afterSteps
    rw [hlast, h.decided_iff_of_visit hvisits, List.map_eq_nil_iff]
  lines := fun id n => h.get?_lines_eq_some_iff hids
  counters := by
    intro front id back n heq hline
    obtain ⟨first, v, second, hvisits, rfl, rfl, rfl, hfirst, hs, hsecond⟩ := h.path.cut heq
    have hv : v ∈ e.round := hvisits ▸ List.mem_append_cons_self
    rw [h.get?_lines_of_visit hids hv] at hline
    rw [hline] at hs
    obtain ⟨c, hc, hcounter⟩ := counter?_step_self hs
    rw [hfirst.frame.program] at hc hcounter
    rw [← h.counter?_of_visit hids hvisits hsecond] at hcounter
    exact ⟨c, hc, hcounter⟩
  still := by
    intro id hline
    rw [h.world]
    refine h.path.avatar?_of_idle fun v hv heq => ?_
    rw [← h.get?_lines_of_visit hids hv, heq, hline]
  blocks := by
    intro k hchanged
    by_contra hnobody
    push Not at hnobody
    apply hchanged
    rw [h.world]
    refine h.path.block?_of_unloaded (nodup_round hids) fun v hv hline => ?_
    obtain ⟨n, hn⟩ := Option.ne_none_iff_exists'.mp hline
    rw [← h.get?_lines_of_visit hids hv] at hn
    rw [← h.world]
    exact hnobody v.id n hn
  setting := setting_tick e clock

end Nodup

end Course

/-- Every tick that meets no fault asks the avatars in their order, each for one command, and
touches nobody else. -/
theorem extent_of_tick (hw : Reachable e.world) (hr : (e.tickDuring clock).result = .ok r) :
    ∃ ids, Extent e clock r ids := by
  obtain ⟨decision, last, h⟩ := tick_cases hr
  exact ⟨_, h.extent hw.nodup_avatarIds⟩

/-- The first avatar wins, so the second one is not asked. -/
theorem extent_of_tick_arrival : Reachable arrival.world ∧
    ∃ r ids, (arrival.tickDuring ⟨2, 3⟩).result = .ok r ∧ r.lines.entries = [(3, 1)] ∧
      Extent arrival ⟨2, 3⟩ r ids := by
  have h : Reachable arrival.world := ReachedBy.empty.foldl _ (by decide)
  obtain ⟨r, hr, hlines⟩ : ∃ r, (arrival.tickDuring ⟨2, 3⟩).result = .ok r ∧
      r.lines.entries = [(3, 1)] := ⟨_, rfl, rfl⟩
  obtain ⟨ids, hextent⟩ := extent_of_tick h hr
  exact ⟨h, r, ids, hr, hlines, hextent⟩

end Engine

end TilePuzzle
