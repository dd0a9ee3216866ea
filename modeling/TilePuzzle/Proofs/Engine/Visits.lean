import TilePuzzle.Proofs.Engine.Tick

/-!
# Visits

A tick goes from avatar to avatar, in the order in which they were added, and stops behind the first
one whose step decides the run. Each of these steps is a *visit*, and the visits of a tick are its
`round`. A round is a `Path`, a row of steps from one engine to another one, so what is true of a
step is carried along it by induction.

All that the avatars of a tick do can be read off the visits. `tick_cases` says how, once and for
every tick that meets no fault; statements about ticks are proved from it and do not look at `act`
again.
-/

namespace TilePuzzle

namespace Engine

variable {e e₁ e' : Engine} {id j n : Nat} {line : Option Nat} {ids : List Nat} {timeLeft : Int}
  {decision : Option Outcome}

/-! ## Decided runs -/

/-- The run ends here: the goal is reached, or more than the budget is spent. -/
def Decided (e : Engine) : Prop := e.goal.reached e.world = true ∨ e.remaining < 0

instance : DecidablePred Decided := fun _ => inferInstanceAs (Decidable (_ ∨ _))

theorem verdict_of_reached (h : e.goal.reached e.world = true) (timeLeft : Int) :
    e.verdict timeLeft = some (.won e.remaining (e.goal.bonus e.program.length timeLeft)) :=
  if_pos h

theorem verdict_of_not_reached (h : e.goal.reached e.world = false) (timeLeft : Int) :
    e.verdict timeLeft = if e.remaining < 0 then some .lost else none :=
  if_neg (Bool.not_eq_true _ ▸ h)

theorem verdict_eq_none_iff : e.verdict timeLeft = none ↔ ¬e.Decided := by
  unfold verdict Decided
  split
  · next h => simp [h]
  · next h => split <;> simp_all

theorem verdict_won_iff : (∃ remaining bonus, e.verdict timeLeft = some (.won remaining bonus)) ↔
    e.goal.reached e.world = true := by
  unfold verdict
  split
  · next h => simp [h]
  · next h => split <;> simp [h]

theorem verdict_lost_iff :
    e.verdict timeLeft = some .lost ↔ e.goal.reached e.world = false ∧ e.remaining < 0 := by
  unfold verdict
  split
  · next h => simp [h]
  · next h => split <;> simp_all

theorem remaining_of_verdict {remaining : Int} {bonus : Bonus}
    (h : e.verdict timeLeft = some (.won remaining bonus)) : remaining = e.remaining := by
  unfold verdict at h
  split at h
  · cases h
    rfl
  · split at h <;> cases h

/-- The end of a program is no matter of the verdict. -/
theorem verdict_ne_finished : e.verdict timeLeft ≠ some .finished := by
  unfold verdict
  split
  · simp
  · split <;> simp

/-! ## Steps -/

/-- The line that the avatar `id` executes when it is visited. -/
def due (e : Engine) (id : Nat) : Option Nat :=
  (e.world.counter? id).filter (· ≤ e.program.length)

theorem due_eq_some_iff :
    e.due id = some n ↔ e.world.counter? id = some n ∧ n ≤ e.program.length := by
  rw [due, Option.filter_eq_some_iff, decide_eq_true_eq]

theorem due_of_step (h : e.step id = .ok (line, e')) : line = e.due id := by
  rcases step_cases h with ⟨rfl, -, hfinished⟩ | ⟨a, c, -, ha, hc, -, rfl, -⟩
  · symm
    rw [Option.eq_none_iff_forall_ne_some]
    intro n hn
    obtain ⟨hcounter, hle⟩ := due_eq_some_iff.mp hn
    obtain ⟨a, ha, rfl⟩ := Option.map_eq_some_iff.mp hcounter
    have hlast := hfinished a ha
    unfold Program.finished at hlast
    omega
  · symm
    rw [due_eq_some_iff, World.counter?, ha]
    exact ⟨rfl, (Program.bounds_of_command? hc).2⟩

theorem eq_of_idle (h : e.step id = .ok (none, e')) : e' = e := by
  rcases step_cases h with ⟨-, heq, -⟩ | ⟨a, c, n, -, -, -, hline, -⟩
  · exact heq
  · cases hline

/-- What no step changes, and no tick. -/
structure Frame (e e' : Engine) : Prop where
  program : e'.program = e.program
  goal : e'.goal = e.goal
  timeLimit : e'.timeLimit = e.timeLimit
  avatarIds : e'.world.avatarIds = e.world.avatarIds

theorem Frame.refl (e : Engine) : Frame e e := ⟨rfl, rfl, rfl, rfl⟩

theorem Frame.trans (h : Frame e e₁) (h' : Frame e₁ e') : Frame e e' :=
  ⟨h'.program.trans h.program, h'.goal.trans h.goal, h'.timeLimit.trans h.timeLimit,
    h'.avatarIds.trans h.avatarIds⟩

theorem frame_advance (e : Engine) (id : Nat) (c : Command) (n : Nat) :
    Frame e (e.advance id c n) where
  program := rfl
  goal := rfl
  timeLimit := rfl
  avatarIds := by
    show ((c.execute id e.world).2.updateAvatar id _).avatarIds = _
    rw [World.avatarIds_updateAvatar (by intro; rfl), World.avatarIds_execute]

theorem frame_step (h : e.step id = .ok (line, e')) : Frame e e' := by
  rcases step_cases h with ⟨-, rfl, -⟩ | ⟨a, c, n, -, -, -, -, rfl⟩
  · exact .refl e'
  · exact frame_advance e id c n

theorem score_step (h : e.step id = .ok (line, e')) :
    e'.score = e.score + if line.isSome then 1 else 0 := by
  rcases step_cases h with ⟨rfl, rfl, -⟩ | ⟨a, c, n, -, -, -, rfl, rfl⟩
  · exact (Int.add_zero _).symm
  · rfl

/-- A step spends one command at most. -/
theorem remaining_step (h : e.step id = .ok (line, e')) : e.remaining - 1 ≤ e'.remaining := by
  have hscore := score_step h
  rw [remaining, remaining, (frame_step h).goal]
  split at hscore <;> omega

theorem counter?_advance (c : Command) :
    (e.advance id c n).world.counter? j
      = if j = id then (e.world.counter? j).map fun _ => n else e.world.counter? j := by
  show ((c.execute id e.world).2.updateAvatar id _).counter? j = _
  rw [World.counter?_updateAvatar, World.counter?_execute]

/-- A step sets the counter of no other avatar. -/
theorem counter?_step (h : e.step id = .ok (line, e')) (hj : j ≠ id) :
    e'.world.counter? j = e.world.counter? j := by
  rcases step_cases h with ⟨-, rfl, -⟩ | ⟨a, c, n, -, -, -, -, rfl⟩
  · rfl
  · rw [counter?_advance, if_neg hj]

/-! ## Visits and paths -/

/-- A step of one avatar: the line that it executed, if any, and the engine after it. -/
structure Visit where
  id : Nat
  line : Option Nat
  engine : Engine

/-- The visits of the avatars `ids`. They end behind the first one that decides the run, and before
one that would meet a fault. -/
def visits : List Nat → Engine → List Visit
  | [], _ => []
  | id :: rest, e =>
    match e.step id with
    | .error _ => []
    | .ok (line, e') => ⟨id, line, e'⟩ :: if e'.Decided then [] else visits rest e'

/-- The visits of the next tick. -/
def round (e : Engine) : List Visit := visits e.world.avatarIds e.opening.engine

/-- The visits in which a command is executed. -/
def executed (vs : List Visit) : List Visit := vs.filter (·.line.isSome)

theorem length_executed_cons (v : Visit) (vs : List Visit) :
    (executed (v :: vs)).length = (if v.line.isSome then 1 else 0) + (executed vs).length := by
  rw [executed, List.filter_cons]
  split
  · exact Nat.add_comm _ _
  · exact (Nat.zero_add _).symm

/-- What the visits announce: behind each command, what is left of the budget. -/
def budgets (vs : List Visit) : List Signal :=
  (executed vs).map fun v => .budget v.engine.remaining

theorem budgets_cons (v : Visit) (vs : List Visit) :
    budgets (v :: vs) = budgets [v] ++ budgets vs := by
  rw [budgets, executed, ← List.singleton_append, List.filter_append, List.map_append]
  rfl

theorem visits_of_decided (hs : e.step id = .ok (line, e')) (hd : e'.Decided) :
    visits (id :: ids) e = [⟨id, line, e'⟩] := by
  rw [visits, hs]
  exact congrArg _ (if_pos hd)

theorem visits_of_undecided (hs : e.step id = .ok (line, e')) (hd : ¬e'.Decided) :
    visits (id :: ids) e = ⟨id, line, e'⟩ :: visits ids e' := by
  rw [visits, hs]
  exact congrArg _ (if_neg hd)

/-- The visits end with the avatars, before a fault, or behind a decision. -/
theorem visits_induction {P : List Nat → Engine → List Visit → Prop} (hnil : ∀ e, P [] e [])
    (hfault : ∀ e id rest fault, e.step id = .error fault → P (id :: rest) e [])
    (hdecided : ∀ e id rest line e', e.step id = .ok (line, e') → e'.Decided →
      P (id :: rest) e [⟨id, line, e'⟩])
    (hundecided : ∀ e id rest line e', e.step id = .ok (line, e') → ¬e'.Decided →
      P rest e' (visits rest e') → P (id :: rest) e (⟨id, line, e'⟩ :: visits rest e'))
    (ids : List Nat) (e : Engine) : P ids e (visits ids e) := by
  induction ids generalizing e with
  | nil => exact hnil e
  | cons id rest ih =>
      cases hs : e.step id with
      | error fault =>
          rw [visits, hs]
          exact hfault e id rest fault hs
      | ok answer =>
          obtain ⟨line, e'⟩ := answer
          by_cases hd : e'.Decided
          · rw [visits_of_decided hs hd]
            exact hdecided e id rest line e' hs hd
          · rw [visits_of_undecided hs hd]
            exact hundecided e id rest line e' hs hd (ih e')

/-- The avatars that are visited come first. -/
theorem ids_visits (ids : List Nat) (e : Engine) : (visits ids e).map (·.id) <+: ids := by
  apply visits_induction (P := fun ids _ vs => vs.map (·.id) <+: ids)
  · exact fun e => List.nil_prefix
  · exact fun e id rest fault hs => List.nil_prefix
  · exact fun e id rest line e' hs hd => ⟨rest, rfl⟩
  · intro e id rest line e' hs hd ih
    rw [List.map_cons, List.prefix_cons_inj]
    exact ih

/-- When an identifier names one avatar, no avatar is visited twice. -/
theorem nodup_round (hids : e.world.avatarIds.Nodup) : (e.round.map (·.id)).Nodup :=
  hids.sublist (ids_visits _ _).sublist

theorem mem_avatarIds_of_mem_round {v : Visit} (hv : v ∈ e.round) : v.id ∈ e.world.avatarIds :=
  (ids_visits _ _).subset (List.mem_map_of_mem hv)

theorem avatars_ne_nil_of_mem_round {v : Visit} (hv : v ∈ e.round) : e.world.avatars ≠ [] := by
  intro hempty
  have hid := mem_avatarIds_of_mem_round hv
  rw [World.avatarIds, hempty] at hid
  cases hid

/-- From one engine to another one by the steps that the visits record. -/
inductive Path : Engine → List Visit → Engine → Prop
  | nil {e : Engine} : Path e [] e
  | cons {e e₁ e' : Engine} {id : Nat} {line : Option Nat} {vs : List Visit} :
      e.step id = .ok (line, e₁) → Path e₁ vs e' → Path e (⟨id, line, e₁⟩ :: vs) e'

namespace Path

variable {vs : List Visit} {v : Visit}

/-- A visit cuts its path in two. -/
theorem split (h : Path e vs e') (hv : v ∈ vs) : ∃ e₁ front back, vs = front ++ v :: back ∧
    Path e front e₁ ∧ e₁.step v.id = .ok (v.line, v.engine) ∧ Path v.engine back e' := by
  induction h with
  | nil => cases hv
  | @cons e e₁ e' id line vs hs hrest ih =>
      rcases List.mem_cons.mp hv with rfl | hv
      · exact ⟨e, [], vs, rfl, .nil, hs, hrest⟩
      · obtain ⟨e₂, front, back, rfl, hfront, hvisit, hback⟩ := ih hv
        exact ⟨e₂, ⟨id, line, e₁⟩ :: front, back, rfl, .cons hs hfront, hvisit, hback⟩

/-- When each avatar is visited once, neither part has a visit of the same avatar. -/
theorem split_of_nodup (h : Path e vs e') (hids : (vs.map (·.id)).Nodup) (hv : v ∈ vs) :
    ∃ e₁ front back, Path e front e₁ ∧ v.id ∉ front.map (·.id) ∧
      e₁.step v.id = .ok (v.line, v.engine) ∧ Path v.engine back e' ∧ v.id ∉ back.map (·.id) := by
  obtain ⟨e₁, front, back, rfl, hfront, hs, hback⟩ := h.split hv
  rw [List.map_append, List.map_cons, List.nodup_append, List.nodup_cons] at hids
  obtain ⟨-, ⟨hnew, -⟩, hapart⟩ := hids
  have hbefore : v.id ∉ front.map (·.id) := fun hid => hapart _ hid _ List.mem_cons_self rfl
  exact ⟨e₁, front, back, hfront, hbefore, hs, hback, hnew⟩

theorem frame (h : Path e vs e') : Frame e e' := by
  induction h with
  | nil => exact .refl _
  | cons hs _ ih => exact (frame_step hs).trans ih

theorem frame_visit (h : Path e vs e') (hv : v ∈ vs) : Frame e v.engine := by
  obtain ⟨e₁, front, back, -, hfront, hs, -⟩ := h.split hv
  exact hfront.frame.trans (frame_step hs)

/-- A path sets the counter of no avatar that it does not visit. -/
theorem counter?_of_unvisited (h : Path e vs e') (hid : id ∉ vs.map (·.id)) :
    e'.world.counter? id = e.world.counter? id := by
  induction h with
  | nil => rfl
  | cons hs _ ih =>
      rw [List.map_cons, List.mem_cons, not_or] at hid
      rw [ih hid.2, counter?_step hs hid.1]

theorem score (h : Path e vs e') : e'.score = e.score + (executed vs).length := by
  induction h with
  | nil => exact (Int.add_zero _).symm
  | @cons e e₁ e' id line vs hs _ ih =>
      rw [ih, score_step hs, length_executed_cons]
      split <;> omega

/-- The executed commands count the score up one by one. -/
theorem score_visit (h : Path e vs e') {i : Nat} (hv : (executed vs)[i]? = some v) :
    v.engine.score = e.score + (i + 1 : Nat) := by
  induction h generalizing i with
  | nil => cases hv
  | @cons e e₁ e' id line vs hs _ ih =>
      have hscore := score_step hs
      rw [executed, List.filter_cons] at hv
      cases line with
      | none =>
          rw [ih hv, hscore]
          simp
      | some line =>
          cases i with
          | zero =>
              cases hv
              exact hscore
          | succ i =>
              rw [ih hv, hscore]
              simp only [Option.isSome_some, if_true]
              omega

/-- Visits without a command change nothing. -/
theorem eq_of_idle (h : Path e vs e') (hidle : ∀ v ∈ vs, v.line = none) : e' = e := by
  induction h with
  | nil => rfl
  | @cons e e₁ e' id line vs hs _ ih =>
      have hline : line = none := hidle _ List.mem_cons_self
      subst hline
      rw [ih fun v hv => hidle v (List.mem_cons_of_mem _ hv), Engine.eq_of_idle hs]

/-- When each avatar is visited once, it executes the line on which the path finds it. -/
theorem line_eq_due (h : Path e vs e') (hids : (vs.map (·.id)).Nodup) (hv : v ∈ vs) :
    v.line = e.due v.id := by
  obtain ⟨e₁, front, back, hfront, hnew, hs, -⟩ := h.split_of_nodup hids hv
  rw [due_of_step hs, due, hfront.counter?_of_unvisited hnew, hfront.frame.program, due]

/-- A decision ends the visits. -/
theorem eq_of_decided (h : Path e (visits ids e) e') (hv : v ∈ visits ids e)
    (hd : v.engine.Decided) : e' = v.engine := by
  revert e' v
  apply visits_induction (P := fun _ e vs => ∀ {e' v}, Path e vs e' → v ∈ vs →
    v.engine.Decided → e' = v.engine)
  · intro e e' v _ hv
    cases hv
  · intro e id rest fault _ e' v _ hv
    cases hv
  · intro e id rest line e₁ _ _ e' v h hv _
    obtain rfl := List.mem_singleton.mp hv
    cases h with
    | cons _ hrest =>
        cases hrest
        rfl
  · intro e id rest line e₁ _ hopen ih e' v h hv hd
    cases h with
    | cons _ hrest =>
        rcases List.mem_cons.mp hv with rfl | hv
        · exact absurd hd hopen
        · exact ih hrest hv hd

/-- Before a visit the budget is not overdrawn, so a path overdraws it by one at most. -/
theorem neg_one_le_remaining (h : Path e (visits ids e) e') (hr : 0 ≤ e.remaining) :
    -1 ≤ e'.remaining := by
  revert e'
  revert hr
  apply visits_induction (P := fun _ e vs => 0 ≤ e.remaining → ∀ {e'}, Path e vs e' →
    -1 ≤ e'.remaining)
  · intro e hr e' h
    cases h
    omega
  · intro e id rest fault _ hr e' h
    cases h
    omega
  · intro e id rest line e₁ hs _ hr e' h
    have hstep := remaining_step hs
    cases h with
    | cons _ hrest =>
        cases hrest
        omega
  · intro e id rest line e₁ _ hopen ih _ e' h
    have hbalanced : 0 ≤ e₁.remaining := Int.not_lt.mp fun hlt => hopen (.inr hlt)
    cases h with
    | cons _ hrest => exact ih hbalanced hrest

end Path

/-! ## The lines of a tick -/

section Lines

variable {lines : LineUpdates} {vs : List Visit}

/-- Notes the line of a visit. -/
def Visit.mark (lines : LineUpdates) (v : Visit) : LineUpdates :=
  v.line.elim lines (lines.insert v.id)

theorem Visit.get?_mark (v : Visit) :
    (v.mark lines).get? id = if v.id = id then v.line.or (lines.get? id) else lines.get? id := by
  obtain ⟨i, line, engine⟩ := v
  cases line with
  | none => simp [mark]
  | some line =>
      show (lines.insert i line).get? id = _
      rw [SortedMap.get?_insert]
      rfl

/-- A line that is noted is the line of a visit. -/
theorem exists_of_get?_marks (h : (vs.foldl Visit.mark lines).get? id = some n) :
    lines.get? id = some n ∨ ∃ v ∈ vs, v.id = id ∧ v.line = some n := by
  induction vs generalizing lines with
  | nil => exact .inl h
  | cons v vs ih =>
      rcases ih h with hlines | ⟨v', hv', hline⟩
      · rw [Visit.get?_mark] at hlines
        split at hlines
        · next hid =>
            rcases Option.or_eq_some_iff.mp hlines with hline | ⟨-, hold⟩
            · exact .inr ⟨v, List.mem_cons_self, hid, hline⟩
            · exact .inl hold
        · exact .inl hlines
      · exact .inr ⟨v', List.mem_cons_of_mem _ hv', hline⟩

theorem get?_marks_of_unvisited (h : id ∉ vs.map (·.id)) :
    (vs.foldl Visit.mark lines).get? id = lines.get? id := by
  induction vs generalizing lines with
  | nil => rfl
  | cons v vs ih =>
      rw [List.map_cons, List.mem_cons, not_or] at h
      rw [List.foldl_cons, ih h.2, Visit.get?_mark, if_neg (Ne.symm h.1)]

/-- When each avatar is visited once, the noted lines are those of the visits. -/
theorem get?_marks (hids : (vs.map (·.id)).Nodup) {v : Visit} (hv : v ∈ vs) :
    (vs.foldl Visit.mark lines).get? v.id = v.line.or (lines.get? v.id) := by
  induction vs generalizing lines with
  | nil => cases hv
  | cons v' vs ih =>
      obtain ⟨hnew, hrest⟩ := List.nodup_cons.mp hids
      rcases List.mem_cons.mp hv with rfl | hv
      · rw [List.foldl_cons, get?_marks_of_unvisited hnew, Visit.get?_mark, if_pos rfl]
      · have hne : v'.id ≠ v.id := fun heq => hnew (List.mem_map.mpr ⟨v, hv, heq.symm⟩)
        rw [List.foldl_cons, ih hrest hv, Visit.get?_mark, if_neg hne]

/-- When each avatar is visited once, every command executed adds a line. -/
theorem size_marks (hids : (vs.map (·.id)).Nodup) (hnew : ∀ v ∈ vs, lines.get? v.id = none) :
    (vs.foldl Visit.mark lines).size = lines.size + (executed vs).length := by
  induction vs generalizing lines with
  | nil => rfl
  | cons v vs ih =>
      obtain ⟨hfirst, hrest⟩ := List.nodup_cons.mp hids
      have hnew' : ∀ v' ∈ vs, (v.mark lines).get? v'.id = none := by
        intro v' hv'
        have hne : v.id ≠ v'.id := fun heq => hfirst (List.mem_map.mpr ⟨v', hv', heq.symm⟩)
        rw [Visit.get?_mark, if_neg hne]
        exact hnew v' (List.mem_cons_of_mem _ hv')
      have hsize : (v.mark lines).size = lines.size + if v.line.isSome then 1 else 0 := by
        have hget := hnew v List.mem_cons_self
        obtain ⟨id, line, engine⟩ := v
        cases line with
        | none => rfl
        | some line => exact SortedMap.size_insert hget line
      rw [List.foldl_cons, ih hrest hnew', hsize, length_executed_cons, Nat.add_assoc]

/-- No line is noted exactly when no command is executed. -/
theorem marks_isEmpty_iff : (vs.foldl Visit.mark lines).entries.isEmpty = true ↔
    lines.entries.isEmpty = true ∧ ∀ v ∈ vs, v.line = none := by
  induction vs generalizing lines with
  | nil => simp
  | cons v vs ih =>
      rw [List.foldl_cons, ih]
      obtain ⟨id, line, engine⟩ := v
      cases line with
      | none => simp [Visit.mark]
      | some line =>
          have hsome : (lines.insert id line).entries ≠ [] := SortedMap.insertEntry_ne_nil _ _ _
          simp [Visit.mark, hsome]

end Lines

/-! ## Ticks -/

theorem frame_act (timeLeft : Int) (ids : List Nat) (pass : Pass) :
    Frame pass.engine (act timeLeft ids pass).2.engine :=
  act_induction (P := Frame pass.engine) (fun h hs => h.trans (frame_step hs)) timeLeft ids pass
    (.refl _)

theorem frame_opening (e : Engine) : Frame e e.opening.engine := ⟨rfl, rfl, rfl, rfl⟩

theorem frame_tick (e : Engine) (clock : Readings) : Frame e (e.tickDuring clock).engine := by
  obtain ⟨score, hengine⟩ := engine_tick e clock
  rw [hengine]
  have hact := frame_act (e.timeLeft clock.scoring) e.world.avatarIds e.opening
  exact { (frame_opening e).trans hact with }

theorem frame_after (e : Engine) (clock : Nat → Readings) (n : Nat) :
    Frame e (e.after clock n) := by
  induction n with
  | zero => exact .refl e
  | succ n ih => exact ih.trans (frame_tick _ _)

theorem lines_record (pass : Pass) (e : Engine) (id : Nat) (line : Option Nat) :
    (pass.record e id line).lines = Visit.mark pass.lines ⟨id, line, e⟩ := by
  cases line <;> rfl

theorem signals_record (pass : Pass) (e : Engine) (id : Nat) (line : Option Nat) :
    (pass.record e id line).signals = pass.signals ++ budgets [⟨id, line, e⟩] := by
  cases line with
  | none => exact (List.append_nil _).symm
  | some line => rfl

/-- What the avatars `ids` do in a tick that meets no fault, from `pass` to `final`. -/
structure Acted (timeLeft : Int) (ids : List Nat) (pass : Pass) (decision : Option Outcome)
    (final : Pass) : Prop where
  path : Path pass.engine (visits ids pass.engine) final.engine
  lines : final.lines = (visits ids pass.engine).foldl Visit.mark pass.lines
  signals : final.signals = pass.signals ++ budgets (visits ids pass.engine)
  undecided : decision = none ↔ ∀ v ∈ visits ids pass.engine, ¬v.engine.Decided
  /-- The run is decided by the state in which the avatars leave it. -/
  verdict : ids ≠ [] → decision = final.engine.verdict timeLeft
  complete : decision = none → (visits ids pass.engine).map (·.id) = ids

theorem acted_of_ok {pass final : Pass} (h : act timeLeft ids pass = (.ok decision, final)) :
    Acted timeLeft ids pass decision final := by
  induction ids generalizing pass with
  | nil =>
      cases h
      exact {
        path := .nil
        lines := rfl
        signals := (List.append_nil _).symm
        undecided := by simp [visits]
        verdict := fun hne => absurd rfl hne
        complete := fun _ => rfl }
  | cons id rest ih =>
      cases hs : pass.engine.step id with
      | error fault =>
          rw [act_of_error hs] at h
          cases h
      | ok answer =>
          obtain ⟨line, e'⟩ := answer
          rw [act_of_ok hs] at h
          have hlines := lines_record pass e' id line
          have hsignals := signals_record pass e' id line
          cases hv : e'.verdict timeLeft with
          | some outcome =>
              have hd : e'.Decided := by
                by_contra hd
                rw [verdict_eq_none_iff.mpr hd] at hv
                cases hv
              rw [hv] at h
              cases h
              have hvisits : visits (id :: rest) pass.engine = _ := visits_of_decided hs hd
              exact {
                path := by
                  rw [hvisits, engine_record]
                  exact .cons hs .nil
                lines := by rw [hvisits, hlines]; rfl
                signals := by rw [hvisits, hsignals]
                undecided := by simp [hvisits, hd]
                verdict := fun _ => by rw [engine_record, hv]
                complete := fun hnone => nomatch hnone }
          | none =>
              have hd : ¬e'.Decided := verdict_eq_none_iff.mp hv
              rw [hv] at h
              obtain ⟨hpath, hlines', hsignals', hundecided, hverdict, hcomplete⟩ := ih h
              rw [engine_record] at hpath hlines' hsignals' hundecided hcomplete
              have hvisits : visits (id :: rest) pass.engine = _ := visits_of_undecided hs hd
              exact {
                path := by
                  rw [hvisits]
                  exact .cons hs hpath
                lines := by rw [hvisits, hlines', hlines]; rfl
                signals := by rw [hvisits, hsignals', hsignals, List.append_assoc, ← budgets_cons]
                undecided := by simp [hvisits, hundecided, hd]
                verdict := fun _ => by
                  cases rest with
                  | nil =>
                      cases h
                      rw [engine_record, hv]
                  | cons id' rest => exact hverdict (List.cons_ne_nil _ _)
                complete := fun hnone => by rw [hvisits, List.map_cons, hcomplete hnone] }

theorem Acted.decision_ne_finished {pass final : Pass}
    (h : Acted timeLeft ids pass decision final) : decision ≠ some .finished := by
  cases ids with
  | nil =>
      rw [h.undecided.mpr fun v hv => nomatch hv]
      exact fun hsome => nomatch hsome
  | cons id rest =>
      rw [h.verdict (List.cons_ne_nil _ _)]
      exact verdict_ne_finished

/-- What a tick does that meets no fault: its avatars come to `decision` and leave the engine
`last`. -/
structure Course (e : Engine) (clock : Readings) (r : Report) (decision : Option Outcome)
    (last : Engine) : Prop where
  path : Path e.opening.engine e.round last
  lines : r.lines = e.round.foldl Visit.mark .empty
  outcome : r.outcome = outcome decision r.lines
  timedOut : r.timedOut = decide (e.timeLeft clock.closing ≤ 0)
  timeLeft : r.timeLeft = max (e.timeLeft clock.closing) 0
  signals : (e.tickDuring clock).signals = budgets e.round ++ decisionSignals decision
    ++ [.lines r.lines] ++ (if r.outcome = some .finished then [.endOfRun] else [])
    ++ [.time r.timeLeft] ++ (if r.timedOut then [.timeout] else [])
  engine : (e.tickDuring clock).engine = if r.outcome.isSome then { last with score := 0 } else last
  undecided : decision = none ↔ ∀ v ∈ e.round, ¬v.engine.Decided
  verdict : e.world.avatars ≠ [] → decision = last.verdict (e.timeLeft clock.scoring)
  complete : decision = none → e.round.map (·.id) = e.world.avatarIds
  ne_finished : decision ≠ some .finished

theorem tick_cases {clock : Readings} {r : Report} (h : (e.tickDuring clock).result = .ok r) :
    ∃ decision last, Course e clock r decision last := by
  cases hact : act (e.timeLeft clock.scoring) e.world.avatarIds e.opening with
  | mk answer final =>
      cases answer with
      | error fault =>
          rw [tick_of_error hact] at h
          cases h
      | ok decision =>
          have hturn := tick_of_ok hact
          rw [hturn] at h
          cases h
          have hacted := acted_of_ok hact
          exact ⟨decision, final.engine, {
            path := hacted.path
            lines := hacted.lines
            outcome := rfl
            timedOut := rfl
            timeLeft := rfl
            signals := by
              have hsignals : final.signals = budgets e.round := hacted.signals
              rw [hturn, Pass.conclude, hsignals]
              simp only [decide_eq_true_eq]
            engine := by rw [hturn]; rfl
            undecided := hacted.undecided
            verdict := fun hne => hacted.verdict (mt List.map_eq_nil_iff.mp hne)
            complete := hacted.complete
            ne_finished := hacted.decision_ne_finished }⟩

namespace Course

variable {clock : Readings} {r : Report} {last : Engine} (h : Course e clock r decision last)

include h

theorem program : last.program = e.program := h.path.frame.program

theorem goal : last.goal = e.goal := h.path.frame.goal

theorem avatarIds : last.world.avatarIds = e.world.avatarIds := h.path.frame.avatarIds

theorem world : (e.tickDuring clock).engine.world = last.world := by
  rw [h.engine]
  split <;> rfl

theorem decided_iff_exists : decision ≠ none ↔ ∃ v ∈ e.round, v.engine.Decided := by
  rw [Ne, h.undecided]
  push Not
  rfl

theorem engine_of_none (hnone : r.outcome = none) : (e.tickDuring clock).engine = last := by
  rw [h.engine, hnone]
  rfl

theorem lines_isEmpty_iff : r.lines.entries.isEmpty = true ↔ ∀ v ∈ e.round, v.line = none := by
  rw [h.lines, marks_isEmpty_iff]
  exact and_iff_right rfl

/-- A tick ends nothing exactly when no visit decides the run and a command is executed. -/
theorem outcome_eq_none_iff : r.outcome = none ↔
    (∀ v ∈ e.round, ¬v.engine.Decided) ∧ ∃ v ∈ e.round, v.line ≠ none := by
  have hopen : r.outcome = none ↔ decision = none ∧ ¬r.lines.entries.isEmpty = true := by
    rw [h.outcome]
    cases decision with
    | none => cases hempty : r.lines.entries.isEmpty <;> simp [Engine.outcome, hempty]
    | some o => simp [Engine.outcome]
  rw [hopen, h.undecided, h.lines_isEmpty_iff]
  push Not
  rfl

theorem outcome_eq_finished_iff : r.outcome = some .finished ↔
    (∀ v ∈ e.round, ¬v.engine.Decided) ∧ ∀ v ∈ e.round, v.line = none := by
  have hend : r.outcome = some .finished ↔ decision = none ∧ r.lines.entries.isEmpty = true := by
    have hne := h.ne_finished
    rw [h.outcome]
    cases decision with
    | none => cases hempty : r.lines.entries.isEmpty <;> simp [Engine.outcome, hempty]
    | some o => simpa [Engine.outcome] using hne
  rw [hend, h.undecided, h.lines_isEmpty_iff]

/-- A tick is won or lost when its avatars decide it. -/
theorem outcome_eq_some_iff {o : Outcome} (ho : o ≠ .finished) :
    r.outcome = some o ↔ decision = some o := by
  rw [h.outcome]
  cases decision with
  | none => cases hempty : r.lines.entries.isEmpty <;> simp [Engine.outcome, hempty, Ne.symm ho]
  | some o' => rfl

end Course

end Engine

end TilePuzzle
