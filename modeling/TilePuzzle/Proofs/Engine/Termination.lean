import TilePuzzle.CommandLine.Play
import TilePuzzle.Proofs.Engine.Progress

/-!
# Termination

A tick that ends nothing moves every avatar onward that has not finished. So after as many such
ticks as the program has lines all avatars have finished, and the next tick ends the run, if time
has not ended it before. `Loops` is the loop of ticks that goes on until then and knows no limit; it
stops, and with the ticks that `Play.turns` makes.

In a program without `if`s the avatars go through the lines side by side, one line in each tick.
The main statement is `ends_within_length`.
-/

namespace TilePuzzle

/-- The run was won or lost in this tick. -/
def Report.Decisive (r : Report) : Prop :=
  r.outcome = some .lost ∨ ∃ remaining bonus, r.outcome = some (.won remaining bonus)

/-- There is no `if` in the program. -/
def Program.Straight (p : Program) : Prop := ∀ command ∈ p.commands, command.opens = false

instance (p : Program) : Decidable p.Straight :=
  inferInstanceAs (Decidable (∀ command ∈ p.commands, command.opens = false))

namespace Engine

variable {e e₁ e' : Engine} {id n k : Nat} {line : Option Nat} {vs : List Visit} {clock : Readings}
  {r : Report}

/-! ## Distance -/

/-- Every avatar is on `line` or farther on, as far as the program goes. -/
def Past (e : Engine) (line : Nat) : Prop :=
  ∀ id n, e.world.counter? id = some n → min line e.program.finished ≤ n

theorem Ready.past_one (h : Ready e) : e.Past 1 := fun _ _ hn =>
  Nat.le_trans (Nat.min_le_left _ _) (h.inRange.counter? hn).1

/-- An avatar that executes nothing is behind the last line. -/
theorem lt_of_idle_step (hs : e.step id = .ok (none, e')) (hn : e.world.counter? id = some n) :
    e.program.length < n := by
  have hdue : ¬(e.world.counter? id = some n ∧ n ≤ e.program.length) := by
    rw [← due_eq_some_iff, ← due_of_step hs]
    exact fun hnone => nomatch hnone
  exact Nat.not_le.mp fun hle => hdue ⟨hn, hle⟩

/-- An avatar that is visited has finished, or it is farther on at the end of the path. -/
theorem Ready.past_of_visit (h : Ready e) (hpath : Path e vs e') (hid : id ∈ vs.map (·.id))
    (hn : e.world.counter? id = some n) :
    ∃ n', e'.world.counter? id = some n' ∧ min (n + 1) e.program.finished ≤ n' := by
  obtain ⟨⟨id, line, e₂⟩, hv, rfl⟩ := List.mem_map.mp hid
  cases line with
  | some line =>
      obtain ⟨n', hn', hlt⟩ := h.lt_of_visit hpath hv rfl hn
      exact ⟨n', hn', by omega⟩
  | none =>
      obtain ⟨e₁, front, back, -, hfront, hs, hback⟩ := hpath.split hv
      obtain ⟨h₁, hbefore⟩ := h.path hfront
      obtain ⟨n₁, hn₁, -⟩ := hbefore id n hn
      have hbehind := lt_of_idle_step hs hn₁
      obtain ⟨n', hn', hle⟩ := (h₁.path (.cons hs hback)).2 id n₁ hn₁
      rw [hfront.frame.program] at hbehind
      exact ⟨n', hn', by unfold Program.finished; omega⟩

section Distance

variable {decision : Option Outcome} {last : Engine} (h : Ready e)
  (hcourse : Course e clock r decision last)

include h hcourse

/-- A tick without an outcome gets every avatar past one line more. -/
theorem Ready.past_of_none (hnone : r.outcome = none) (hpast : e.Past k) : last.Past (k + 1) := by
  intro id n' hn'
  have hid : id ∈ e.world.avatarIds := by
    rw [← hcourse.avatarIds]
    exact World.mem_avatarIds_iff.mpr ⟨n', hn'⟩
  obtain ⟨n, hn⟩ := World.mem_avatarIds_iff.mp hid
  have hundecided := hcourse.undecided.mpr (hcourse.outcome_eq_none_iff.mp hnone).1
  rw [← hcourse.complete hundecided] at hid
  obtain ⟨n'', hn'', hle⟩ := h.opening.past_of_visit hcourse.path hid hn
  rw [hn', Option.some.injEq] at hn''
  subst hn''
  have hbefore := hpast id n hn
  rw [hcourse.program]
  change min (n + 1) e.program.finished ≤ n' at hle
  omega

/-- When all avatars have finished, a tick ends the run. -/
theorem Ready.outcome_of_past (hpast : e.Past e.program.finished) : r.outcome ≠ none := by
  intro hnone
  obtain ⟨v, hv, hline⟩ := (hcourse.outcome_eq_none_iff.mp hnone).2
  obtain ⟨n, hn⟩ := World.mem_avatarIds_iff.mp (mem_avatarIds_of_mem_round hv)
  -- The avatar that executes a command would have to go beyond the end of the program.
  obtain ⟨n', hn', hlt⟩ :=
    h.opening.lt_of_visit hcourse.path hv (Option.isSome_iff_ne_none.mpr hline) hn
  have hrange := (h.opening.path hcourse.path).1.inRange.counter? hn'
  have hfar := hpast _ n hn
  rw [hcourse.program] at hrange
  omega

end Distance

/-! ## The end of a run -/

/-- After ticks without an outcome every avatar is as many lines on, as far as the program goes. -/
theorem Ready.past_after (h : Ready e) (clock : Nat → Readings) (n : Nat)
    (hnone : ∀ i < n, (e.turnAt clock i).outcome? = none) : (e.after clock n).Past (n + 1) := by
  induction n with
  | zero => exact h.past_one
  | succ n ih =>
      obtain ⟨r, decision, last, -, houtcome, hcourse⟩ := h.course clock n
      rw [hnone n (Nat.lt_succ_self n)] at houtcome
      rw [Engine.after, hcourse.engine_of_none houtcome.symm]
      apply (h.after clock n).past_of_none hcourse houtcome.symm
      exact ih fun i hi => hnone i (Nat.lt_succ_of_lt hi)

theorem Ready.exists_terminal (h : Ready e) (clock : Nat → Readings) :
    ∃ n ≤ e.program.length, ∃ r, (e.turnAt clock n).result = .ok r ∧ r.isTerminal = true := by
  by_contra hnever
  push Not at hnever
  have hnone : ∀ i ≤ e.program.length, (e.turnAt clock i).outcome? = none := by
    intro i hi
    obtain ⟨r, decision, last, hr, houtcome, -⟩ := h.course clock i
    have hopen := hnever i hi r hr
    rw [houtcome]
    by_contra hsome
    rw [Report.isTerminal, Option.isSome_iff_ne_none.mpr hsome] at hopen
    exact hopen rfl
  have hpast := h.past_after clock e.program.length fun i hi => hnone i (Nat.le_of_lt hi)
  obtain ⟨r, decision, last, -, houtcome, hcourse⟩ := h.course clock e.program.length
  rw [hnone _ (Nat.le_refl _)] at houtcome
  refine (h.after clock _).outcome_of_past hcourse ?_ houtcome.symm
  rw [(frame_after e clock _).program]
  exact hpast

/-! ## The loop -/

/-- The loop of ticks that goes on until a tick is the last one; the `k`-th tick is made when
`elapsed k` seconds have passed. -/
inductive Loops : (Nat → Nat) → Engine → List Turn → Prop
  | last {elapsed : Nat → Nat} {e : Engine} : (e.tick (elapsed 0)).isLast = true →
      Loops elapsed e [e.tick (elapsed 0)]
  | again {elapsed : Nat → Nat} {e : Engine} {ts : List Turn} :
      (e.tick (elapsed 0)).isLast = false →
      Loops (fun k => elapsed (k + 1)) (e.tick (elapsed 0)).engine ts →
      Loops elapsed e (e.tick (elapsed 0) :: ts)

/-- A limit behind the last tick is no limit. -/
theorem loops_run {elapsed : Nat → Nat} {n limit : Nat}
    (hlast : (e.turnAt (fun k => .still (elapsed k)) n).isLast = true) (hn : n < limit) :
    Loops elapsed e (e.run elapsed limit) := by
  induction n generalizing e elapsed limit with
  | zero =>
      obtain ⟨m, rfl⟩ := Nat.exists_eq_add_one.mpr hn
      have hstop : (e.tick (elapsed 0)).isLast = true := hlast
      rw [run, if_pos hstop]
      exact .last hstop
  | succ n ih =>
      obtain ⟨m, rfl⟩ := Nat.exists_eq_add_one.mpr (Nat.zero_lt_of_lt hn)
      rw [run]
      cases hstop : (e.tick (elapsed 0)).isLast with
      | true => exact .last hstop
      | false =>
          rw [turnAt_succ] at hlast
          exact .again hstop (ih hlast (Nat.lt_of_succ_lt_succ hn))

/-- A loop that stops in a ready engine stops with a report that ends the run. -/
theorem Loops.result {elapsed : Nat → Nat} {ts : List Turn} (h : Loops elapsed e ts)
    (he : Ready e) : ∃ r, Play.result ts = .ok (some r) ∧ r.isTerminal = true := by
  induction h with
  | @last elapsed e hstop =>
      obtain ⟨r, hr⟩ := he.tick (.still (elapsed 0))
      change (e.tick (elapsed 0)).result = .ok r at hr
      refine ⟨r, ?_, ?_⟩
      · show (e.tick (elapsed 0)).result.map some = _
        rw [hr]
        rfl
      · rwa [Turn.isLast, hr] at hstop
  | @again elapsed e ts _ hrest ih =>
      obtain ⟨r, hr, hterminal⟩ := ih (he.of_tick _)
      refine ⟨r, ?_, hterminal⟩
      have hts : ts ≠ [] := by
        rintro rfl
        cases hrest
      rw [Play.result, List.getLast?_cons_of_ne_nil hts]
      exact hr

/-- A play without a limit of its own is the loop. -/
theorem Ready.loops {play : Play} (h : Ready play.engine) (hlimit : play.maxTicks = none)
    (elapsed : Nat → Nat) : Loops elapsed play.engine (play.turns elapsed) := by
  obtain ⟨k, hk, r, hr, hterminal⟩ := h.exists_terminal fun k => .still (elapsed k)
  have hlast : (play.engine.turnAt (fun k => .still (elapsed k)) k).isLast = true := by
    rw [Turn.isLast, hr]
    exact hterminal
  rw [Play.turns, Play.limit, hlimit]
  exact loops_run hlast (Nat.lt_succ_of_le hk)

/-! ## Straight programs -/

/-- Without `if`s an avatar goes on to the next line. -/
theorem counter?_step_of_straight (hp : e.program.Straight) (h : e.step id = .ok (some n, e')) :
    e'.world.counter? id = some (n + 1) := by
  rcases step_cases h with ⟨hline, -⟩ | ⟨a, c, m, ha, hc, hnext, hline, rfl⟩
  · cases hline
  · cases hline
    obtain ⟨i, hi⟩ := Nat.exists_eq_add_one.mpr (Program.bounds_of_command? hc).1
    rw [hi, Program.command?_succ] at hc
    rw [flow_of_plain (hp c (List.mem_of_getElem? hc)) id e.world] at hnext
    cases hnext
    rw [counter?_advance, if_pos rfl, World.counter?, ha]
    rfl

theorem Path.counter?_of_visit (h : Path e vs e') (hp : e.program.Straight)
    (hids : (vs.map (·.id)).Nodup) {v : Visit} (hv : v ∈ vs) (hline : v.line = some n) :
    e'.world.counter? v.id = some (n + 1) := by
  obtain ⟨e₁, front, back, hfront, -, hs, hback, hnew⟩ := h.split_of_nodup hids hv
  rw [hline] at hs
  rw [hback.counter?_of_unvisited hnew]
  exact counter?_step_of_straight (hfront.frame.program ▸ hp) hs

/-- All avatars are on `line`. -/
def Abreast (e : Engine) (line : Nat) : Prop :=
  ∀ id ∈ e.world.avatarIds, e.world.counter? id = some line

theorem Abreast.due (h : e.Abreast k) (hid : id ∈ e.world.avatarIds) :
    e.due id = if k ≤ e.program.length then some k else none := by
  simp only [Engine.due, h id hid, Option.filter_some, decide_eq_true_eq]

/-- A tick that does not win or lose the run leaves no avatar out. -/
theorem Course.decision_eq_none {decision : Option Outcome} {last : Engine}
    (h : Course e clock r decision last) (hopen : ¬r.Decisive) : decision = none := by
  have hundecided : ∀ o, decision ≠ some o := by
    intro o ho
    cases o with
    | won remaining bonus =>
        exact hopen (.inr ⟨remaining, bonus, (h.outcome_eq_some_iff (by simp)).mpr ho⟩)
    | lost => exact hopen (.inl ((h.outcome_eq_some_iff (by simp)).mpr ho))
    | finished => exact h.ne_finished ho
  cases decision with
  | none => rfl
  | some o => exact absurd rfl (hundecided o)

section Straight

variable {decision : Option Outcome} {last : Engine} (h : Course e clock r decision last)
  (hids : e.world.avatarIds.Nodup)

include h hids

/-- Avatars side by side execute the line on which they are. -/
theorem Course.line_of_abreast (habreast : e.Abreast k) {v : Visit} (hv : v ∈ e.round) :
    v.line = if k ≤ e.program.length then some k else none := by
  rw [h.path.line_eq_due (nodup_round hids) hv]
  exact habreast.due (mem_avatarIds_of_mem_round hv)

/-- They are all in the report of a tick that does not win or lose the run. -/
theorem Course.get?_lines (habreast : e.Abreast k) (hk : k ≤ e.program.length)
    (hopen : ¬r.Decisive) (id : Nat) :
    r.lines.get? id = if id ∈ e.world.avatarIds then some k else none := by
  have hcomplete := h.complete (h.decision_eq_none hopen)
  rw [h.lines, ← hcomplete]
  split
  · next hid =>
      obtain ⟨v, hv, rfl⟩ := List.mem_map.mp hid
      rw [get?_marks (hcomplete ▸ hids) hv, h.line_of_abreast hids habreast hv, if_pos hk]
      rfl
  · next hid => exact get?_marks_of_unvisited hid

theorem Course.lines_eq_empty (habreast : e.Abreast e.program.finished) : r.lines = .empty := by
  have hidle : ∀ v ∈ e.round, v.line = none := by
    intro v hv
    rw [h.line_of_abreast hids habreast hv]
    exact if_neg (Nat.not_succ_le_self _)
  exact SortedMap.ext (List.isEmpty_iff.mp (h.lines_isEmpty_iff.mpr hidle))

theorem Course.abreast (hp : e.program.Straight) (habreast : e.Abreast k)
    (hk : k ≤ e.program.length) (hnone : decision = none) : last.Abreast (k + 1) := by
  intro id hid
  have hcomplete := h.complete hnone
  rw [h.avatarIds, ← hcomplete] at hid
  obtain ⟨v, hv, rfl⟩ := List.mem_map.mp hid
  refine h.path.counter?_of_visit hp (hcomplete ▸ hids) hv ?_
  rw [h.line_of_abreast hids habreast hv, if_pos hk]

end Straight

theorem abreast_one (hstart : ∀ a ∈ e.world.avatars, a.counter = 1) : e.Abreast 1 := by
  intro id hid
  obtain ⟨n, hn⟩ := World.mem_avatarIds_iff.mp hid
  obtain ⟨a, ha, rfl⟩ := Option.map_eq_some_iff.mp hn
  rw [hn, hstart a (World.mem_of_avatar? ha)]

/-- Avatars that begin side by side stay side by side until a tick has an outcome. -/
theorem Ready.abreast_after (h : Ready e) (hp : e.program.Straight)
    (hids : e.world.avatarIds.Nodup) (hstart : e.Abreast 1) (clock : Nat → Readings)
    (hk : k ≤ e.program.length) (hnone : ∀ i < k, (e.turnAt clock i).outcome? = none) :
    (e.after clock k).Abreast (k + 1) := by
  induction k with
  | zero => exact hstart
  | succ k ih =>
      have habreast := ih (Nat.le_of_succ_le hk) fun i hi => hnone i (Nat.lt_succ_of_lt hi)
      have hframe := frame_after e clock k
      obtain ⟨r, decision, last, -, houtcome, hcourse⟩ := h.course clock k
      rw [hnone k (Nat.lt_succ_self k)] at houtcome
      have hundecided := hcourse.undecided.mpr (hcourse.outcome_eq_none_iff.mp houtcome.symm).1
      rw [Engine.after, hcourse.engine_of_none houtcome.symm]
      refine hcourse.abreast (hframe.avatarIds ▸ hids) (hframe.program ▸ hp) habreast ?_ hundecided
      rwa [hframe.program]

/-- In a built program of `n` lines the first `n + 1` ticks of every run bring a report that ends
the run, so the loop of ticks stops. In a program without `if`s all avatars that begin on line 1
execute the `k`-th line in the `k`-th tick, and nothing is left for the tick after the last line.
That an identifier names one avatar is so in every world that is made by actions
(`World.ReachedBy.nodup_avatarIds`). -/
theorem ends_within_length {c : Catalogue} {ds : List Descriptor} {e : Engine}
    (h : Program.build c ds = .ok e.program) (hrange : e.program.InRange e.world) :
    (∀ clock : Nat → Readings, ∃ k ≤ e.program.length, ∃ r,
      (e.turnAt clock k).result = .ok r ∧ r.isTerminal = true) ∧
    (∀ play : Play, play.engine = e → play.maxTicks = none → ∀ elapsed : Nat → Nat,
      Loops elapsed e (play.turns elapsed) ∧
        ∃ r, Play.result (play.turns elapsed) = .ok (some r) ∧ r.isTerminal = true) ∧
    (e.program.Straight → e.world.avatarIds.Nodup → (∀ a ∈ e.world.avatars, a.counter = 1) →
      ∀ clock : Nat → Readings, ∀ k ≤ e.program.length,
        (∀ i < k, (e.turnAt clock i).outcome? = none) →
        ∃ r, (e.turnAt clock k).result = .ok r ∧
          (k < e.program.length → ¬r.Decisive →
            ∀ id, r.lines.get? id = if id ∈ e.world.avatarIds then some (k + 1) else none) ∧
          (k = e.program.length →
            r.lines = .empty ∧ (¬r.Decisive → r.outcome = some .finished))) := by
  have hready := Ready.of_build h hrange
  refine ⟨hready.exists_terminal, ?_, ?_⟩
  · rintro play rfl hlimit elapsed
    have hloop := hready.loops hlimit elapsed
    exact ⟨hloop, hloop.result hready⟩
  · intro hp hids hstart clock k hk hnone
    have habreast := hready.abreast_after hp hids (abreast_one hstart) clock hk hnone
    have hframe := frame_after e clock k
    rw [← hframe.avatarIds] at hids ⊢
    obtain ⟨r, decision, last, hr, -, hcourse⟩ := hready.course clock k
    refine ⟨r, hr, fun hlt hopen => ?_, ?_⟩
    · exact hcourse.get?_lines hids habreast (hframe.program ▸ hlt) hopen
    · rintro rfl
      have hempty : r.lines = .empty := by
        apply hcourse.lines_eq_empty hids
        rw [Program.finished, hframe.program]
        exact habreast
      refine ⟨hempty, fun hopen => ?_⟩
      rw [hcourse.outcome, hcourse.decision_eq_none hopen, hempty]
      rfl

/-- Two lines without an `if`. -/
def pickings : List Descriptor := [{ index := 1, type := "^" }, { index := 2, type := "^" }]

/-- Two avatars in the program of `pickings`. -/
def pickers : Engine where
  program := { commands := [.pickUp, .pickUp] }
  world := [.setDimensions 1 2, .addAvatar { id := 3, position := ⟨0, 0⟩ },
    .addAvatar { id := 4, position := ⟨0, 1⟩ }].foldl World.perform World.empty
  goal := { idealTime := 0, idealLines := 0, budget := 9 }
  timeLimit := 60

theorem ends_within_length_pickers :
    let clock : Nat → Readings := fun k => ⟨k, k + 1⟩
    let play : Play := { name := "", engine := pickers }
    (∃ k ≤ 2, ∃ r, (pickers.turnAt clock k).result = .ok r ∧ r.isTerminal = true) ∧
      Loops (· + 1) pickers (play.turns (· + 1)) ∧
      (∃ r, (pickers.turnAt clock 1).result = .ok r ∧ r.lines.get? 4 = some 2) ∧
      ∃ r, (pickers.turnAt clock 2).result = .ok r ∧ r.lines = .empty := by
  intro clock play
  have hbuild : Program.build Program.signs pickings = .ok pickers.program := by
    rw [Program.build, Program.order_of_pairwise (by decide)]
    rfl
  have hrange : pickers.program.InRange pickers.world := by decide
  have hworld : World.Reachable pickers.world := World.ReachedBy.empty.foldl _ (by decide)
  have hids := hworld.nodup_avatarIds
  obtain ⟨hend, hplay, hstraight⟩ := ends_within_length hbuild hrange
  obtain ⟨r, hr, hlines, -⟩ :=
    hstraight (by decide) hids (by decide) clock 1 (by decide) (by decide)
  obtain ⟨r', hr', -, hempty⟩ :=
    hstraight (by decide) hids (by decide) clock 2 (by decide) (by decide)
  have hopen : ¬r.Decisive := by
    have hnone : (pickers.turnAt clock 1).outcome? = none := by decide
    rw [Turn.outcome?_of_ok hr] at hnone
    simp [Report.Decisive, hnone]
  refine ⟨hend clock, (hplay play rfl rfl _).1, ⟨r, hr, ?_⟩, r', hr', (hempty rfl).1⟩
  rw [hlines (by decide) hopen 4]
  decide

end Engine

end TilePuzzle
