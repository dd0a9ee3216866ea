import TilePuzzle.Proofs.Engine.Visits
import TilePuzzle.Proofs.Program.Matching

/-!
# Progress

In a built program every line leads onward: the next line is a later one, and it is at most one past
the last (`next_ok`). So an engine whose counters are in range is `Ready`: each of its steps goes
through, its ticks meet no fault, and it is ready afterwards.

No tick moves an avatar back, and a tick moves every avatar onward that executes a command in it.
The main statement is `never_faults`.
-/

namespace TilePuzzle

/-- Every avatar stands on a line of the program or one past the last line. -/
def Program.InRange (p : Program) (w : World) : Prop :=
  ∀ a ∈ w.avatars, 1 ≤ a.counter ∧ a.counter ≤ p.finished

instance (p : Program) (w : World) : Decidable (p.InRange w) :=
  inferInstanceAs (Decidable (∀ a ∈ w.avatars, 1 ≤ a.counter ∧ a.counter ≤ p.finished))

namespace Program

variable {p : Program} {w : World} {c : Command} {id line n : Nat}

theorem inRange_iff_roster :
    p.InRange w ↔ ∀ entry ∈ w.roster, 1 ≤ entry.2 ∧ entry.2 ≤ p.finished := by
  rw [World.roster, List.forall_mem_map]
  rfl

theorem InRange.counter? (h : p.InRange w) (hn : w.counter? id = some n) :
    1 ≤ n ∧ n ≤ p.finished :=
  inRange_iff_roster.mp h _ (World.mem_roster_of_counter? hn)

theorem inRange_resetCounters (p : Program) (w : World) : p.InRange w.resetCounters := by
  intro a ha
  obtain ⟨a, -, rfl⟩ := List.mem_map.mp ha
  exact ⟨Nat.le_refl 1, Nat.le_add_left 1 p.length⟩

/-- A command leads to a later line, or behind the last one. -/
theorem Draft.Sound.next_ok (hp : Draft.Sound { program := p }) (hc : p.command? line = some c)
    (id : Nat) (w : World) :
    ∃ n, p.next line (c.execute id w).1 = .ok n ∧ line < n ∧ n ≤ p.finished := by
  have hline := bounds_of_command? hc
  cases hflow : (c.execute id w).1 with
  | next => exact ⟨line + 1, rfl, Nat.lt_succ_self line, Nat.succ_le_succ hline.2⟩
  | skipBody =>
      have hopens : c.opens = true := by
        by_contra hplain
        rw [Engine.flow_of_plain (Bool.not_eq_true _ ▸ hplain)] at hflow
        cases hflow
      have hkeyed : (p.command? line).any Command.opens = true := by rwa [hc]
      -- All `if`s of a finished draft are closed, so this one is in the table of jumps.
      rcases hp.keyed hkeyed with hopen | ⟨last, hlast⟩
      · cases hopen
      · have hpair := hp.paired hlast
        have hbounds := bounds_of_any hpair.closes
        have hlt := hpair.lt
        refine ⟨last + 1, by rw [next, hlast], by omega, Nat.succ_le_succ hbounds.2⟩

end Program

namespace Engine

variable {e e₁ e' : Engine} {id n : Nat} {line : Option Nat} {vs : List Visit}

/-! ## Onward -/

/-- No avatar is farther back than before. -/
def Onward (w w' : World) : Prop :=
  ∀ id n, w.counter? id = some n → ∃ n', w'.counter? id = some n' ∧ n ≤ n'

theorem Onward.refl (w : World) : Onward w w := fun _ n hn => ⟨n, hn, Nat.le_refl n⟩

theorem Onward.trans {w w₁ w' : World} (h : Onward w w₁) (h' : Onward w₁ w') : Onward w w' := by
  intro id n hn
  obtain ⟨n₁, hn₁, hle⟩ := h id n hn
  obtain ⟨n', hn', hle'⟩ := h' id n₁ hn₁
  exact ⟨n', hn', Nat.le_trans hle hle'⟩

/-! ## Ready engines -/

/-- A step goes through if the counter of its avatar is in range. -/
theorem step_of_inRange (hp : Program.Draft.Sound { program := e.program })
    (hrange : ∀ n, e.world.counter? id = some n → 1 ≤ n ∧ n ≤ e.program.finished) :
    ∃ line e', e.step id = .ok (line, e') := by
  cases ha : e.world.avatar? id with
  | none => exact ⟨none, e, step_of_avatar?_eq_none ha⟩
  | some a =>
      have hcounter := hrange a.counter (by rw [World.counter?, ha]; rfl)
      cases hc : e.program.command? a.counter with
      | some c =>
          obtain ⟨n, hn, -⟩ := hp.next_ok hc id e.world
          refine ⟨some a.counter, e.advance id c n, ?_⟩
          rw [step_of_command ha hc, hn]
          rfl
      | none =>
          refine ⟨none, e, step_of_finished ha ?_⟩
          unfold Program.finished at *
          rcases Program.command?_eq_none_iff.mp hc with hzero | hlt <;> omega

/-- The program is built, and the avatars stand in it. -/
structure Ready (e : Engine) : Prop where
  sound : Program.Draft.Sound { program := e.program }
  inRange : e.program.InRange e.world

namespace Ready

theorem of_build {c : Catalogue} {ds : List Descriptor} (h : Program.build c ds = .ok e.program)
    (hrange : e.program.InRange e.world) : Ready e :=
  ⟨(Program.sound_of_build h).1, hrange⟩

theorem advance (h : Ready e) (c : Command) (hn : 1 ≤ n ∧ n ≤ e.program.finished) :
    Ready (e.advance id c n) where
  sound := h.sound
  inRange := by
    rw [Program.inRange_iff_roster]
    intro entry hentry
    change entry ∈ ((c.execute id e.world).2.updateAvatar id _).roster at hentry
    rw [World.roster_updateAvatar_counter, World.roster_execute, List.mem_map] at hentry
    obtain ⟨old, hold, rfl⟩ := hentry
    show 1 ≤ (if old.1 = id then n else old.2) ∧ (if old.1 = id then n else old.2) ≤ _
    split
    · exact hn
    · exact Program.inRange_iff_roster.mp h.inRange old hold

/-- A step goes through. -/
theorem step (h : Ready e) (id : Nat) : ∃ line e', e.step id = .ok (line, e') :=
  step_of_inRange h.sound fun _ hn => h.inRange.counter? hn

/-- A step keeps the avatars in range, moves none of them back and moves the one onward that
executes a command. -/
theorem of_step (h : Ready e) (hs : e.step id = .ok (line, e')) :
    Ready e' ∧ Onward e.world e'.world ∧
      (line.isSome → ∀ n, e.world.counter? id = some n →
        ∃ n', e'.world.counter? id = some n' ∧ n < n') := by
  rcases step_cases hs with ⟨rfl, rfl, -⟩ | ⟨a, c, n, ha, hc, hn, rfl, rfl⟩
  · exact ⟨h, .refl _, fun hline => nomatch hline⟩
  · obtain ⟨n', hn', hlt, hle⟩ := h.sound.next_ok hc id e.world
    obtain rfl : n = n' := Except.ok.inj (hn.symm.trans hn')
    have hcounter : e.world.counter? id = some a.counter := by
      rw [World.counter?, ha]
      rfl
    have hafter : (e.advance id c n).world.counter? id = some n := by
      rw [counter?_advance, if_pos rfl, hcounter]
      rfl
    refine ⟨h.advance c ⟨by omega, hle⟩, ?_, ?_⟩
    · intro j m hm
      by_cases hj : j = id
      · subst hj
        rw [hcounter, Option.some.injEq] at hm
        exact ⟨n, hafter, by omega⟩
      · refine ⟨m, ?_, Nat.le_refl m⟩
        rw [counter?_advance, if_neg hj, hm]
    · intro _ m hm
      rw [hcounter, Option.some.injEq] at hm
      exact ⟨n, hafter, by omega⟩

theorem path (h : Ready e) (hpath : Path e vs e') : Ready e' ∧ Onward e.world e'.world := by
  induction hpath with
  | nil => exact ⟨h, .refl _⟩
  | cons hs _ ih =>
      obtain ⟨h₁, honward, -⟩ := h.of_step hs
      obtain ⟨h', hrest⟩ := ih h₁
      exact ⟨h', honward.trans hrest⟩

/-- An avatar that executes a command on a path is farther on at its end. -/
theorem lt_of_visit (h : Ready e) (hpath : Path e vs e') {v : Visit} (hv : v ∈ vs)
    (hline : v.line.isSome) (hn : e.world.counter? v.id = some n) :
    ∃ n', e'.world.counter? v.id = some n' ∧ n < n' := by
  obtain ⟨e₁, front, back, -, hfront, hs, hback⟩ := hpath.split hv
  obtain ⟨h₁, hbefore⟩ := h.path hfront
  obtain ⟨h₂, -, hstep⟩ := h₁.of_step hs
  obtain ⟨n₁, hn₁, hle⟩ := hbefore _ n hn
  obtain ⟨n₂, hn₂, hlt⟩ := hstep hline n₁ hn₁
  obtain ⟨n', hn', hle'⟩ := (h₂.path hback).2 _ n₂ hn₂
  exact ⟨n', hn', by omega⟩

theorem opening (h : Ready e) : Ready e.opening.engine := ⟨h.sound, h.inRange⟩

theorem act (timeLeft : Int) (ids : List Nat) (pass : Pass) (h : Ready pass.engine) :
    ∃ decision final, Engine.act timeLeft ids pass = (.ok decision, final) := by
  induction ids generalizing pass with
  | nil => exact ⟨none, pass, rfl⟩
  | cons id rest ih =>
      obtain ⟨line, e', hs⟩ := h.step id
      rw [act_of_ok hs]
      cases e'.verdict timeLeft with
      | some o => exact ⟨some o, _, rfl⟩
      | none =>
          apply ih
          rw [engine_record]
          exact (h.of_step hs).1

/-- A tick meets no fault. -/
theorem tick (h : Ready e) (clock : Readings) : ∃ r, (e.tickDuring clock).result = .ok r := by
  obtain ⟨decision, final, hact⟩ := act (e.timeLeft clock.scoring) e.world.avatarIds _ h.opening
  rw [tick_of_ok hact]
  exact ⟨_, rfl⟩

/-- An engine is ready after a tick. -/
theorem of_tick (h : Ready e) (clock : Readings) : Ready (e.tickDuring clock).engine := by
  obtain ⟨r, hr⟩ := h.tick clock
  obtain ⟨decision, last, hcourse⟩ := tick_cases hr
  have hlast : Ready last := (h.opening.path hcourse.path).1
  rw [hcourse.engine]
  split
  · exact ⟨hlast.sound, hlast.inRange⟩
  · exact hlast

theorem after (h : Ready e) (clock : Nat → Readings) (n : Nat) : Ready (e.after clock n) := by
  induction n with
  | zero => exact h
  | succ n ih => exact ih.of_tick (clock n)

/-- Every tick of a run takes its course. -/
theorem course (h : Ready e) (clock : Nat → Readings) (n : Nat) :
    ∃ r decision last, (e.turnAt clock n).result = .ok r ∧ (e.turnAt clock n).outcome? = r.outcome ∧
      Course (e.after clock n) (clock n) r decision last := by
  obtain ⟨r, hr⟩ := (h.after clock n).tick (clock n)
  obtain ⟨decision, last, hcourse⟩ := tick_cases hr
  exact ⟨r, decision, last, hr, Turn.outcome?_of_ok hr, hcourse⟩

end Ready

/-! ## Calls -/

/-- What can be asked of an engine, if any world may be put in place. -/
inductive Call where
  | tick (clock : Readings)
  | reset
  | replaceWorld (w : World)

/-- The engine after a call. -/
def call (e : Engine) : Call → Engine
  | .tick clock => (e.tickDuring clock).engine
  | .reset => e.reset
  | .replaceWorld w => e.replaceWorld w

theorem Ready.call (h : Ready e) (c : Call) :
    Ready (e.call c) ∧ (e.call c).program = e.program := by
  cases c with
  | tick clock => exact ⟨h.of_tick clock, (frame_tick e clock).program⟩
  | reset => exact ⟨⟨h.sound, Program.inRange_resetCounters _ _⟩, rfl⟩
  | replaceWorld w => exact ⟨⟨h.sound, Program.inRange_resetCounters _ _⟩, rfl⟩

theorem Ready.calls (h : Ready e) (calls : List Call) :
    Ready (calls.foldl Engine.call e) ∧ (calls.foldl Engine.call e).program = e.program := by
  induction calls generalizing e with
  | nil => exact ⟨h, rfl⟩
  | cons c rest ih =>
      obtain ⟨hc, hprogram⟩ := h.call c
      obtain ⟨hrest, hsame⟩ := ih hc
      exact ⟨hrest, hsame.trans hprogram⟩

/-- An engine with a built program whose counters are in range may be called in any way: afterwards
the counters are in range, and a tick meets no fault, moves no avatar back and moves every avatar
onward that executes a command. -/
theorem never_faults {c : Catalogue} {ds : List Descriptor} {e : Engine}
    (h : Program.build c ds = .ok e.program) (hrange : e.program.InRange e.world)
    (calls : List Call) :
    e.program.InRange (calls.foldl call e).world ∧
      ∀ clock : Readings, ∃ r, ((calls.foldl call e).tickDuring clock).result = .ok r ∧
        ∀ id n, (calls.foldl call e).world.counter? id = some n →
          ∃ n', ((calls.foldl call e).tickDuring clock).engine.world.counter? id = some n' ∧
            n ≤ n' ∧ (r.lines.contains id = true → n < n') := by
  obtain ⟨hready, hprogram⟩ := (Ready.of_build h hrange).calls calls
  refine ⟨hprogram ▸ hready.inRange, fun clock => ?_⟩
  generalize calls.foldl call e = e' at hready
  obtain ⟨r, hr⟩ := hready.tick clock
  obtain ⟨decision, last, hcourse⟩ := tick_cases hr
  refine ⟨r, hr, fun id n hn => ?_⟩
  rw [hcourse.world]
  by_cases hline : r.lines.contains id = true
  · obtain ⟨line, hline⟩ := Option.isSome_iff_exists.mp hline
    rw [hcourse.lines] at hline
    rcases exists_of_get?_marks hline with hempty | ⟨v, hv, rfl, hv'⟩
    · cases hempty
    · obtain ⟨n', hn', hlt⟩ := hready.opening.lt_of_visit hcourse.path hv (by rw [hv']; rfl) hn
      exact ⟨n', hn', Nat.le_of_lt hlt, fun _ => hlt⟩
  · obtain ⟨n', hn', hle⟩ := (hready.opening.path hcourse.path).2 id n hn
    exact ⟨n', hn', hle, fun hcontains => absurd hcontains hline⟩

/-- Two avatars in the program of `nest`. One has finished, and one is on the second line. -/
def stragglers : Engine where
  program := Program.nested
  world := [.setDimensions 1 2, .addAvatar { id := 3, position := ⟨0, 0⟩, counter := 6 },
    .addAvatar { id := 4, position := ⟨0, 1⟩, counter := 2 }].foldl World.perform World.empty
  goal := { idealTime := 0, idealLines := 0, budget := 9 }
  timeLimit := 60

/-- A world whose avatar is outside of every short program. -/
def stray : World :=
  [.setDimensions 1 1, .addAvatar { id := 5, position := ⟨0, 0⟩, counter := 99 }].foldl
    World.perform World.empty

theorem never_faults_stragglers :
    let e := [Call.tick ⟨0, 1⟩, .replaceWorld stray].foldl call stragglers
    stray.counter? 5 = some 99 ∧ stragglers.program.InRange e.world ∧
      ∃ r, (e.tickDuring ⟨4, 4⟩).result = .ok r ∧ r.lines.contains 5 = true ∧
        ∃ n, (e.tickDuring ⟨4, 4⟩).engine.world.counter? 5 = some n ∧ 1 < n := by
  intro e
  have hbuild : Program.build Program.signs Program.nest = .ok stragglers.program :=
    Program.build_nest
  have hrange : stragglers.program.InRange stragglers.world := by decide
  obtain ⟨hend, htick⟩ := never_faults hbuild hrange [.tick ⟨0, 1⟩, .replaceWorld stray]
  obtain ⟨r, hr, honward⟩ := htick ⟨4, 4⟩
  have hline : (e.tickDuring ⟨4, 4⟩).result.toOption.any (·.lines.contains 5) = true := by decide
  change (e.tickDuring ⟨4, 4⟩).result = .ok r at hr
  rw [hr] at hline
  obtain ⟨n, hn, -, hlt⟩ := honward 5 1 (by decide)
  exact ⟨by decide, hend, r, hr, hline, n, hn, hlt hline⟩

end Engine

end TilePuzzle
