import TilePuzzle.Proofs.Engine.Announcements
import TilePuzzle.Proofs.Engine.Extent
import TilePuzzle.Proofs.Engine.Progress

/-!
# Ticks that meet a fault

Worlds come with any counters, so an avatar may be `Astray` when its turn comes. In a built program
this is the only thing that can go wrong. The tick ends there, between two avatars, and what the
avatars before have done stays: nothing is taken back, nothing more is announced, and the run is not
ended.

A tick that is decided earlier does not come to the avatar that is astray. `Meets` says that it does,
and in terms of the world before the tick, as nobody else sets the counter of an avatar. Up to there
the tick is a path (`exists_path`), which `act` walks along while the run is open
(`act_path_append`). From there `Interrupted` is read off.

The main statement is `interrupted_iff`.
-/

namespace TilePuzzle

/-- The avatar is on no line of the program, and not one past the last line either. -/
def Program.Astray (p : Program) (a : Avatar) : Prop := a.counter = 0 ∨ p.finished < a.counter

theorem Program.not_astray_iff {p : Program} {a : Avatar} :
    ¬p.Astray a ↔ 1 ≤ a.counter ∧ a.counter ≤ p.finished := by
  rw [Astray]
  omega

namespace Engine

variable {e e' : Engine} {id : Nat} {ids : List Nat} {front back : List Avatar} {a : Avatar}
  {vs : List Visit} {fault : Fault} {timeLeft : Int} {clock : Readings} {pass final : Pass}

/-- A tick lets the avatars `front` act and then comes to `a`, the first one that is astray. -/
structure Meets (e : Engine) (front : List Avatar) (a : Avatar) (back : List Avatar) : Prop where
  avatars : e.world.avatars = front ++ a :: back
  astray : e.program.Astray a
  first : ∀ b ∈ front, ¬e.program.Astray b
  /-- The run is neither won nor lost before. -/
  undecided : ∀ ids, ids <+: front.map (·.id) → ids ≠ [] →
    ¬(e.opening.engine.afterSteps ids).Decided

/-- What a tick leaves behind that ends at `a`. -/
structure Interrupted (e : Engine) (clock : Readings) (front : List Avatar) (a : Avatar)
    (back : List Avatar) : Prop where
  result : (e.tickDuring clock).result
    = .error (.counterOutOfRange a.id a.counter (e.program.length + 1))
  ticks : (e.tickDuring clock).engine.ticks = e.ticks + 1
  /-- The avatars before `a` make their steps, and these are all that happens and is announced. -/
  steps : ∃ vs, vs.map (·.id) = front.map (·.id) ∧
    Path e.opening.engine vs (e.tickDuring clock).engine ∧ (e.tickDuring clock).signals = budgets vs
  engine : (e.tickDuring clock).engine = e.opening.engine.afterSteps (front.map (·.id))
  /-- Each of them that had not finished counts the score up by one. -/
  score : (e.tickDuring clock).engine.score
    = e.score + front.countP fun b => b.counter ≤ e.program.length
  signals : (e.tickDuring clock).signals
    = (List.range (front.countP fun b => b.counter ≤ e.program.length)).map
      fun (i : Nat) => .budget (e.remaining - (i + 1))
  untouched : ∀ b ∈ a :: back, (e.tickDuring clock).engine.world.avatar? b.id = some b

/-! ## Steps -/

/-- In a built program a step fails only for an avatar that is astray. -/
theorem step_error (hp : Program.Draft.Sound { program := e.program })
    (h : e.step id = .error fault) : ∃ a, e.world.avatar? id = some a ∧ e.program.Astray a ∧
      fault = .counterOutOfRange id a.counter e.program.finished := by
  cases ha : e.world.avatar? id with
  | none =>
      rw [step_of_avatar?_eq_none ha] at h
      cases h
  | some a =>
      by_cases hastray : e.program.Astray a
      · rw [step_of_outOfRange ha hastray] at h
        cases h
        exact ⟨a, rfl, hastray, rfl⟩
      · obtain ⟨line, e', hs⟩ : ∃ line e', e.step id = .ok (line, e') := by
          refine step_of_inRange hp fun n hn => ?_
          rw [World.counter?, ha] at hn
          cases hn
          exact Program.not_astray_iff.mp hastray
        rw [hs] at h
        cases h

theorem not_astray_of_step {line : Option Nat} (ha : e.world.avatar? id = some a)
    (hs : e.step id = .ok (line, e')) : ¬e.program.Astray a := by
  intro hastray
  rw [step_of_outOfRange ha hastray] at hs
  cases hs

/-- Avatars that are not astray can make a step one after the other, since none of them sets the
counter of another one. -/
theorem exists_path (hp : Program.Draft.Sound { program := e.program }) (hids : ids.Nodup)
    (hrange : ∀ id ∈ ids, ∀ n, e.world.counter? id = some n → 1 ≤ n ∧ n ≤ e.program.finished) :
    ∃ vs e', vs.map (·.id) = ids ∧ Path e vs e' := by
  induction ids generalizing e with
  | nil => exact ⟨[], e, rfl, .nil⟩
  | cons id rest ih =>
      obtain ⟨hnew, hrest⟩ := List.nodup_cons.mp hids
      obtain ⟨line, e₁, hs⟩ := step_of_inRange hp (hrange id List.mem_cons_self)
      have hprogram := (frame_step hs).program
      have hrange₁ : ∀ j ∈ rest, ∀ n, e₁.world.counter? j = some n →
          1 ≤ n ∧ n ≤ e₁.program.finished := by
        intro j hj n hn
        have hne : j ≠ id := fun heq => hnew (heq ▸ hj)
        rw [counter?_step hs hne] at hn
        rw [hprogram]
        exact hrange j (List.mem_cons_of_mem _ hj) n hn
      obtain ⟨vs, e', hvs, hpath⟩ := ih (by rwa [hprogram]) hrest hrange₁
      exact ⟨⟨id, line, e₁⟩ :: vs, e', by rw [List.map_cons, hvs], .cons hs hpath⟩

/-! ## Passes -/

/-- Along a path that does not decide the run, all avatars act. -/
theorem act_path_append (pass : Pass) (timeLeft : Int) (rest : List Nat)
    (h : Path pass.engine vs e') (hopen : ∀ v ∈ vs, ¬v.engine.Decided) :
    act timeLeft (vs.map (·.id) ++ rest) pass
      = act timeLeft rest {
          engine := e'
          lines := vs.foldl Visit.mark pass.lines
          signals := pass.signals ++ budgets vs } := by
  generalize hstart : pass.engine = start at h
  induction h generalizing pass with
  | nil =>
      subst hstart
      have hsignals : pass.signals ++ budgets [] = pass.signals := List.append_nil _
      rw [hsignals]
      rfl
  | @cons e e₁ e' id line vs hs _ ih =>
      subst hstart
      rw [List.forall_mem_cons] at hopen
      rw [List.map_cons, List.cons_append, act_of_ok hs, verdict_eq_none_iff.mpr hopen.1]
      show act timeLeft (vs.map (·.id) ++ rest) (pass.record e₁ id line) = _
      rw [ih _ hopen.2 (engine_record ..), lines_record, signals_record, List.append_assoc,
        ← budgets_cons]
      rfl

/-- The avatars before a fault have acted, and the run was open behind each of them. -/
theorem path_of_error (h : act timeLeft ids pass = (.error fault, final)) :
    ∃ vs id rest, ids = vs.map (·.id) ++ id :: rest ∧ Path pass.engine vs final.engine ∧
      (∀ v ∈ vs, ¬v.engine.Decided) ∧ final.engine.step id = .error fault := by
  induction ids generalizing pass with
  | nil => cases h
  | cons id rest ih =>
      cases hs : pass.engine.step id with
      | error fault' =>
          rw [act_of_error hs] at h
          cases h
          exact ⟨[], id, rest, rfl, .nil, by simp, hs⟩
      | ok answer =>
          obtain ⟨line, e'⟩ := answer
          rw [act_of_ok hs] at h
          cases hv : e'.verdict timeLeft with
          | some outcome =>
              rw [hv] at h
              cases h
          | none =>
              rw [hv] at h
              obtain ⟨vs, j, back, hcut, hpath, hopen, hfault⟩ := ih h
              rw [engine_record] at hpath
              refine ⟨⟨id, line, e'⟩ :: vs, j, back, ?_, .cons hs hpath, ?_, hfault⟩
              · rw [hcut, List.map_cons, List.cons_append]
              · rw [List.forall_mem_cons]
                exact ⟨verdict_eq_none_iff.mp hv, hopen⟩

/-- Avatars that leave the run open are all visited. -/
theorem visits_append_of_path (h : Path e vs e') (hopen : ∀ v ∈ vs, ¬v.engine.Decided)
    (ids : List Nat) : visits (vs.map (·.id) ++ ids) e = vs ++ visits ids e' := by
  induction h with
  | nil => rfl
  | cons hs _ ih =>
      rw [List.forall_mem_cons] at hopen
      rw [List.map_cons, List.cons_append, visits_of_undecided hs hopen.1, ih hopen.2]
      rfl

/-- A tick that meets a fault has made its visits, and none of them decides the run. -/
theorem round_of_error (h : (e.tickDuring clock).result = .error fault) :
    Path e.opening.engine e.round (e.tickDuring clock).engine ∧
      (∀ v ∈ e.round, ¬v.engine.Decided) ∧ (e.tickDuring clock).signals = budgets e.round := by
  cases hact : act (e.timeLeft clock.scoring) e.world.avatarIds e.opening with
  | mk answer final =>
      cases answer with
      | ok decision =>
          rw [tick_of_ok hact] at h
          cases h
      | error fault' =>
          obtain ⟨vs, id, rest, hcut, hpath, hopen, hfault⟩ := path_of_error hact
          have hnone : visits (id :: rest) final.engine = [] := by rw [visits, hfault]
          have hround : e.round = vs := by
            rw [round, hcut, visits_append_of_path hpath hopen, hnone, List.append_nil]
          have hsignals : final.signals = budgets vs := by
            generalize final.engine = last at hpath hfault
            rw [hcut, act_path_append _ _ _ hpath hopen, act_of_error hfault] at hact
            cases hact
            exact List.nil_append _
          rw [tick_of_error hact, hround]
          exact ⟨hpath, hopen, hsignals⟩

/-! ## The avatars in front -/

/-- The run is open behind each visit exactly when it is open behind each part of the path. -/
theorem Path.undecided_iff (h : Path e vs e') : (∀ v ∈ vs, ¬v.engine.Decided) ↔
    ∀ ids, ids <+: vs.map (·.id) → ids ≠ [] → ¬(e.afterSteps ids).Decided := by
  constructor
  · intro hopen ids hprefix hne
    obtain ⟨later, hlater⟩ := hprefix
    obtain ⟨before, id, rfl⟩ := List.eq_nil_or_concat ids |>.resolve_left hne
    rw [List.concat_eq_append, List.append_assoc] at hlater
    obtain ⟨first, v, second, hvisits, rfl, rfl, -, hfirst, hs, -⟩ := h.cut hlater.symm
    have hafter := (append_iff.mpr ⟨_, hfirst, .cons hs .nil⟩).afterSteps
    rw [List.map_append, List.map_singleton] at hafter
    rw [List.concat_eq_append, hafter]
    exact hopen v (hvisits ▸ List.mem_append_cons_self)
  · intro hopen v hv
    obtain ⟨e₁, first, second, rfl, hfirst, hs, -⟩ := h.split hv
    have hlast : Path e (first ++ [v]) v.engine := append_iff.mpr ⟨e₁, hfirst, .cons hs .nil⟩
    rw [← hlast.afterSteps]
    exact hopen _ ⟨second.map (·.id), by simp⟩ (by simp)

theorem avatar?_of_mem (hids : e.world.avatarIds.Nodup) (ha : a ∈ e.world.avatars) :
    e.world.avatar? a.id = some a :=
  (find?_key_eq_some_iff Avatar.id hids).mpr ⟨ha, rfl⟩

theorem counter?_of_mem (hids : e.world.avatarIds.Nodup) (ha : a ∈ e.world.avatars) :
    e.world.counter? a.id = some a.counter := by
  rw [World.counter?, avatar?_of_mem hids ha]
  rfl

namespace Path

variable {tail : List Avatar}

/-- An avatar that a path does not visit is as it was. -/
theorem avatar?_of_unvisited (hids : e.world.avatarIds.Nodup) (h : Path e.opening.engine vs e')
    (ha : a ∈ e.world.avatars) (hnew : a.id ∉ vs.map (·.id)) :
    e'.world.avatar? a.id = some a := by
  rw [h.avatar?_of_idle fun v hv heq => absurd (List.mem_map.mpr ⟨v, hv, heq⟩) hnew]
  exact avatar?_of_mem hids ha

section Front

-- The path visits the first avatars of the world.
variable (hids : e.world.avatarIds.Nodup) (havatars : e.world.avatars = front ++ tail)
  (hvs : vs.map (·.id) = front.map (·.id)) (h : Path e.opening.engine vs e')

include hids havatars hvs

theorem nodup_front : (vs.map (·.id)).Nodup := by
  rw [World.avatarIds, havatars, List.map_append, List.nodup_append] at hids
  exact hvs ▸ hids.1

include h

theorem avatar?_of_tail (ha : a ∈ tail) : e'.world.avatar? a.id = some a := by
  refine h.avatar?_of_unvisited hids (havatars ▸ List.mem_append_right _ ha) fun hid => ?_
  rw [World.avatarIds, havatars, List.map_append, List.nodup_append] at hids
  exact hids.2.2 a.id (hvs ▸ hid) a.id (List.mem_map_of_mem ha) rfl

/-- Each of them has made its step with the counter that it had before the tick. -/
theorem not_astray_of_front (ha : a ∈ front) : ¬e.program.Astray a := by
  obtain ⟨v, hv, hid⟩ : ∃ v ∈ vs, v.id = a.id :=
    List.mem_map.mp (hvs ▸ List.mem_map_of_mem (f := (·.id)) ha)
  obtain ⟨e₁, first, second, hfirst, hnew, hs, -⟩ :=
    h.split_of_nodup (nodup_front hids havatars hvs) hv
  rw [hid] at hnew hs
  have ha' : e₁.world.avatar? a.id = some a :=
    hfirst.avatar?_of_unvisited hids (havatars ▸ List.mem_append_left _ ha) hnew
  have hprogram : e₁.program = e.program := hfirst.frame.program
  exact hprogram ▸ not_astray_of_step ha' hs

/-- Those of them execute a command that had not finished. -/
theorem length_executed :
    (executed vs).length = front.countP fun b => b.counter ≤ e.program.length := by
  have hdue : ∀ b ∈ front, (e.opening.engine.due b.id).isSome = true
      ↔ decide (b.counter ≤ e.program.length) = true := by
    intro b hb
    have hcounter : e.opening.engine.world.counter? b.id = some b.counter :=
      counter?_of_mem hids (havatars ▸ List.mem_append_left _ hb)
    rw [Option.isSome_iff_exists, decide_eq_true_eq]
    simp only [due_eq_some_iff, hcounter, Option.some.injEq]
    constructor
    · rintro ⟨n, rfl, hn⟩
      exact hn
    · intro hn
      exact ⟨b.counter, rfl, hn⟩
  calc (executed vs).length
      = vs.countP (·.line.isSome) := List.countP_eq_length_filter.symm
    _ = vs.countP fun v => (e.opening.engine.due v.id).isSome :=
        List.countP_congr fun v hv => by
          rw [h.line_eq_due (nodup_front hids havatars hvs) hv]
    _ = (vs.map (·.id)).countP fun id => (e.opening.engine.due id).isSome := by
        rw [List.countP_map]
        rfl
    _ = front.countP fun b => (e.opening.engine.due b.id).isSome := by
        rw [hvs, List.countP_map]
        rfl
    _ = front.countP fun b => b.counter ≤ e.program.length := List.countP_congr hdue

end Front

end Path

/-! ## Ticks -/

section Built

variable (hp : Program.Draft.Sound { program := e.program }) (hids : e.world.avatarIds.Nodup)

include hp hids

/-- The avatars in front of the one that is astray make their steps, and the run stays open. -/
theorem Meets.exists_path (h : e.Meets front a back) : ∃ vs last,
    vs.map (·.id) = front.map (·.id) ∧ Path e.opening.engine vs last ∧
      ∀ v ∈ vs, ¬v.engine.Decided := by
  have hnodup := hids
  rw [World.avatarIds, h.avatars, List.map_append, List.nodup_append] at hnodup
  obtain ⟨vs, last, hvs, hpath⟩ :=
    Engine.exists_path (e := e.opening.engine) hp hnodup.1 fun id hid n hn => by
      obtain ⟨b, hb, rfl⟩ := List.mem_map.mp hid
      have hcounter : e.opening.engine.world.counter? b.id = some b.counter :=
        counter?_of_mem hids (h.avatars ▸ List.mem_append_left _ hb)
      obtain rfl : b.counter = n := Option.some.inj (hcounter.symm.trans hn)
      exact Program.not_astray_iff.mp (h.first b hb)
  exact ⟨vs, last, hvs, hpath, hpath.undecided_iff.mpr (hvs ▸ h.undecided)⟩

/-- A tick that meets an avatar astray ends there. -/
theorem Meets.interrupted (h : e.Meets front a back) (clock : Readings) :
    e.Interrupted clock front a back := by
  obtain ⟨vs, last, hvs, hpath, hopen⟩ := h.exists_path hp hids
  have huntouched : ∀ b ∈ a :: back, last.world.avatar? b.id = some b :=
    fun b hb => hpath.avatar?_of_tail hids h.avatars hvs hb
  have hprogram : last.program = e.program := hpath.frame.program
  have hstep : last.step a.id
      = .error (.counterOutOfRange a.id a.counter (e.program.length + 1)) := by
    rw [step_of_outOfRange (huntouched a List.mem_cons_self) (hprogram ▸ h.astray), hprogram]
    rfl
  have hact := act_path_append e.opening (e.timeLeft clock.scoring) (a.id :: back.map (·.id)) hpath
    hopen
  have hcut : front.map (·.id) ++ a.id :: back.map (·.id) = e.world.avatarIds := by
    rw [World.avatarIds, h.avatars, List.map_append, List.map_cons]
  have hsignals : e.opening.signals ++ budgets vs = budgets vs := List.nil_append _
  rw [act_of_error hstep, hvs, hcut] at hact
  have htick := tick_of_error hact
  rw [hsignals] at htick
  have hexecuted := hpath.length_executed hids h.avatars hvs
  exact {
    result := by rw [htick]
    ticks := ticks_tick e clock
    steps := ⟨vs, hvs, by rw [htick]; exact hpath, by rw [htick]⟩
    engine := by rw [htick, ← hvs, hpath.afterSteps]
    score := by
      rw [htick, ← hexecuted]
      exact hpath.score
    signals := by
      rw [htick, ← hexecuted]
      exact hpath.budgets_eq
    untouched := by
      rw [htick]
      exact huntouched }

/-- A tick that fails has met an avatar astray. -/
theorem meets_of_error (h : (e.tickDuring clock).result = .error fault) : ∃ front a back,
    e.Meets front a back ∧ fault = .counterOutOfRange a.id a.counter (e.program.length + 1) := by
  cases hact : act (e.timeLeft clock.scoring) e.world.avatarIds e.opening with
  | mk answer final =>
      cases answer with
      | ok decision =>
          rw [tick_of_ok hact] at h
          cases h
      | error fault' =>
          rw [tick_of_error hact] at h
          cases h
          obtain ⟨vs, id, rest, hcut, hpath, hopen, hfault⟩ := path_of_error hact
          obtain ⟨front, tail, havatars, hvs, htail⟩ := List.map_eq_append_iff.mp hcut
          obtain ⟨a, back, rfl, rfl, rfl⟩ := List.map_eq_cons_iff.mp htail
          have hprogram : final.engine.program = e.program := hpath.frame.program
          have ha := hpath.avatar?_of_tail hids havatars hvs.symm List.mem_cons_self
          obtain ⟨a', ha', hastray, rfl⟩ := step_error (hprogram ▸ hp) hfault
          obtain rfl : a = a' := Option.some.inj (ha.symm.trans ha')
          rw [hprogram] at hastray
          refine ⟨front, a, back, ⟨havatars, hastray, ?_, ?_⟩, by rw [hprogram]; rfl⟩
          · exact fun b hb => hpath.not_astray_of_front hids havatars hvs.symm hb
          · exact hvs ▸ hpath.undecided_iff.mp hopen

end Built

/-- A tick of a built program fails exactly when it meets an avatar that is astray, with this avatar
as the only reason. Everything stays as the avatars before have left it. -/
theorem interrupted_iff {c : Catalogue} {ds : List Descriptor}
    (h : Program.build c ds = .ok e.program) (hids : e.world.avatarIds.Nodup) (clock : Readings) :
    (∀ fault, (e.tickDuring clock).result = .error fault ↔ ∃ front a back,
      e.Meets front a back ∧
        fault = .counterOutOfRange a.id a.counter (e.program.length + 1)) ∧
      ∀ front a back, e.Meets front a back → e.Interrupted clock front a back := by
  have hp := (Program.sound_of_build h).1
  refine ⟨fun fault => ⟨meets_of_error hp hids, ?_⟩, fun _ _ _ hmeets =>
    hmeets.interrupted hp hids clock⟩
  rintro ⟨front, a, back, hmeets, rfl⟩
  exact (hmeets.interrupted hp hids clock).result

/-- Three avatars in the program of `nest`, the second of them astray. -/
def derailed : Engine where
  program := Program.nested
  world := [.setDimensions 1 3, .addAvatar { id := 3, position := ⟨0, 0⟩, counter := 2 },
    .addAvatar { id := 4, position := ⟨0, 1⟩, counter := 7 },
    .addAvatar { id := 5, position := ⟨0, 2⟩ }].foldl World.perform World.empty
  goal := { idealTime := 0, idealLines := 0, budget := 9 }
  timeLimit := 60

/-- The first avatar acts, and the third one does not. -/
theorem interrupted_iff_derailed :
    Program.build Program.signs Program.nest = .ok derailed.program ∧
      derailed.world.avatarIds.Nodup ∧
      derailed.Meets [⟨3, ⟨0, 0⟩, 2, none⟩] ⟨4, ⟨0, 1⟩, 7, none⟩ [⟨5, ⟨0, 2⟩, 1, none⟩] ∧
      (derailed.tickDuring ⟨1, 2⟩).result = .error (.counterOutOfRange 4 7 6) ∧
      (derailed.tickDuring ⟨1, 2⟩).signals = [.budget 8] ∧
      (derailed.tickDuring ⟨1, 2⟩).engine.world.counter? 3 = some 3 ∧
      (derailed.tickDuring ⟨1, 2⟩).engine.world.counter? 5 = some 1 := by
  have hbuild : Program.build Program.signs Program.nest = .ok derailed.program :=
    Program.build_nest
  have hids : derailed.world.avatarIds.Nodup := by decide
  have hmeets : derailed.Meets [⟨3, ⟨0, 0⟩, 2, none⟩] ⟨4, ⟨0, 1⟩, 7, none⟩
      [⟨5, ⟨0, 2⟩, 1, none⟩] := {
    avatars := by decide
    astray := .inr (by decide)
    first := by
      intro b hb
      obtain rfl := List.mem_singleton.mp hb
      exact Program.not_astray_iff.mpr (by decide)
    undecided := by
      intro ids hprefix hne
      cases ids with
      | nil => exact absurd rfl hne
      | cons id rest =>
          obtain ⟨rfl, hrest⟩ := List.cons_prefix_cons.mp hprefix
          obtain rfl := List.prefix_nil.mp hrest
          decide }
  have h := (interrupted_iff hbuild hids ⟨1, 2⟩).2 _ _ _ hmeets
  exact ⟨hbuild, hids, hmeets, h.result, h.signals, by decide, by decide⟩

end Engine

end TilePuzzle
