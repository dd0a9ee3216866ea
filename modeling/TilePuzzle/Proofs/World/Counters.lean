import TilePuzzle.Goal
import TilePuzzle.Proofs.World.Reachable

/-!
# Counters

The counter of an avatar belongs to the program that it runs and not to the world that it stands in.
Two facts say so, for every world: a command leaves every counter as it is (`roster_execute`), and
no command and no goal looks at one (`execute_resetCounters`, `reached_resetCounters`). Worlds that
differ in counters only have the same `resetCounters`.

A counter is found by the identifier of its avatar (`counter?`), and in every world that comes about
by actions an identifier names one avatar (`ReachedBy.nodup_avatarIds`).
-/

namespace TilePuzzle

namespace World

variable {w : World} {id j k : Nat} {p target : Position} {a : Avatar}

/-! ## Counters stay -/

/-- The avatars with their counters, in the order in which the avatars were added. -/
def roster (w : World) : List (Nat × Nat) := w.avatars.map fun a => (a.id, a.counter)

theorem avatarIds_eq_roster (w : World) : w.avatarIds = w.roster.map (·.1) := by
  rw [roster, List.map_map]
  rfl

theorem roster_updateAvatar {f : Avatar → Avatar} (hid : ∀ a, (f a).id = a.id)
    (hcounter : ∀ a, (f a).counter = a.counter) : (w.updateAvatar id f).roster = w.roster := by
  simp only [roster, World.updateAvatar, List.map_map]
  apply List.map_congr_left
  intro a _
  show ((if a.id = id then f a else a).id, (if a.id = id then f a else a).counter)
    = (a.id, a.counter)
  split
  · rw [hid, hcounter]
  · rfl

/-- Setting the counter of one avatar changes its entry and no other. -/
theorem roster_updateAvatar_counter (counter : Nat) :
    (w.updateAvatar id ({ · with counter })).roster
      = w.roster.map fun e => (e.1, if e.1 = id then counter else e.2) := by
  simp only [roster, World.updateAvatar, List.map_map]
  apply List.map_congr_left
  intro a _
  show ((if a.id = id then { a with counter } else a).id,
    (if a.id = id then { a with counter } else a).counter)
      = (a.id, if a.id = id then counter else a.counter)
  split <;> rfl

theorem roster_moveAvatar (w : World) (id : Nat) (target : Position) :
    (w.moveAvatar id target).2.roster = w.roster := by
  rcases w.moveAvatar_cases id target with heq | ⟨a, -, -, -, heq⟩
  · rw [heq]
  · have hput : (w.putAvatar a.id a.position target).roster = w.roster :=
      roster_updateAvatar (by intro; rfl) (by intro; rfl)
    rw [heq, shift]
    cases a.held with
    | none => exact hput
    | some k => exact hput

theorem roster_pickUp (w : World) (id : Nat) : (w.pickUp id).2.roster = w.roster := by
  rcases w.pickUp_cases id with heq | ⟨a, b, -, -, -, heq⟩
  · rw [heq]
  · rw [heq]
    exact roster_updateAvatar (by intro; rfl) (by intro; rfl)

theorem roster_drop (w : World) (id : Nat) : (w.drop id).2.roster = w.roster := by
  rcases w.drop_cases id with heq | ⟨a, k, b, -, -, -, -, heq⟩
  · rw [heq]
  · rw [heq]
    exact roster_updateAvatar (by intro; rfl) (by intro; rfl)

theorem roster_calculate (w : World) (id : Nat) (op : Operation) (p : Position) :
    (w.calculate id op p).roster = w.roster := by
  rcases w.calculate_cases id op p with heq | ⟨_, k, _, _, _, -, -, -, -, -, heq⟩
  · rw [heq]
  · rw [heq]
    rfl

/-- A command leaves every counter as it is. -/
theorem roster_execute (c : Command) (id : Nat) (w : World) :
    (c.execute id w).2.roster = w.roster := by
  apply execute_cases (P := fun w' => w'.roster = w.roster) w id c rfl
  · exact w.roster_moveAvatar id
  · exact w.roster_pickUp id
  · exact w.roster_drop id
  · exact w.roster_calculate id

theorem avatarIds_congr {w' : World} (h : w'.roster = w.roster) : w'.avatarIds = w.avatarIds := by
  rw [avatarIds_eq_roster, h, ← avatarIds_eq_roster]

theorem avatarIds_execute (c : Command) (id : Nat) (w : World) :
    (c.execute id w).2.avatarIds = w.avatarIds :=
  avatarIds_congr (roster_execute c id w)

/-! ## The counter of one avatar -/

/-- The line that the avatar `id` executes next. -/
def counter? (w : World) (id : Nat) : Option Nat := (w.avatar? id).map (·.counter)

theorem counter?_eq_roster (w : World) (id : Nat) :
    w.counter? id = (w.roster.find? (·.1 = id)).map (·.2) := by
  rw [roster, List.find?_map, Option.map_map]
  rfl

theorem mem_avatarIds_iff : id ∈ w.avatarIds ↔ ∃ n, w.counter? id = some n := by
  rw [← Option.ne_none_iff_exists', Ne, counter?, Option.map_eq_none_iff, avatar?_eq_none_iff,
    not_not]

theorem mem_roster_of_counter? {n : Nat} (h : w.counter? id = some n) : (id, n) ∈ w.roster := by
  obtain ⟨a, ha, rfl⟩ := Option.map_eq_some_iff.mp h
  rw [← id_of_avatar? ha]
  exact List.mem_map_of_mem (mem_of_avatar? ha)

theorem counter?_execute (c : Command) (w : World) :
    (c.execute id w).2.counter? j = w.counter? j := by
  rw [counter?_eq_roster, roster_execute, ← counter?_eq_roster]

theorem counter?_updateAvatar (counter : Nat) :
    (w.updateAvatar id ({ · with counter })).counter? j
      = if j = id then (w.counter? j).map fun _ => counter else w.counter? j := by
  rw [counter?, avatar?_updateAvatar (by intro; rfl)]
  split
  · rw [counter?, Option.map_map, Option.map_map]
    rfl
  · rfl

/-! ## Counters are not looked at -/

theorem avatar?_resetCounters :
    w.resetCounters.avatar? id = (w.avatar? id).map ({ · with counter := 1 }) :=
  find?_key_map Avatar.id (f := ({ · with counter := 1 })) (fun _ => rfl) _ id

theorem avatarIds_resetCounters : w.resetCounters.avatarIds = w.avatarIds := by
  show (w.avatars.map _).map _ = w.avatars.map _
  rw [List.map_map]
  rfl

theorem resetCounters_of_forall (h : ∀ a ∈ w.avatars, a.counter = 1) : w.resetCounters = w := by
  have havatars : w.avatars.map ({ · with counter := 1 }) = w.avatars := by
    refine (List.map_congr_left fun a ha => ?_).trans (List.map_id _)
    show ({ a with counter := 1 } : Avatar) = a
    rw [← h a ha]
  rw [resetCounters, havatars]

theorem updateAvatar_resetCounters {f : Avatar → Avatar}
    (hf : ∀ a, f { a with counter := 1 } = { f a with counter := 1 }) :
    w.resetCounters.updateAvatar id f = (w.updateAvatar id f).resetCounters := by
  simp only [resetCounters, World.updateAvatar, List.map_map]
  congr 1
  apply List.map_congr_left
  intro a _
  show (if a.id = id then f { a with counter := 1 } else { a with counter := 1 })
    = { (if a.id = id then f a else a) with counter := 1 }
  split
  · exact hf a
  · rfl

/-- Setting a counter makes a difference in counters only. -/
theorem resetCounters_updateAvatar (counter : Nat) :
    (w.updateAvatar id ({ · with counter })).resetCounters = w.resetCounters := by
  simp only [resetCounters, World.updateAvatar, List.map_map]
  congr 1
  apply List.map_congr_left
  intro a _
  show ({ (if a.id = id then { a with counter } else a) with counter := 1 } : Avatar) = _
  split <;> rfl

theorem avatarOn?_resetCounters :
    w.resetCounters.avatarOn? p = (w.avatarOn? p).map ({ · with counter := 1 }) := by
  have hfind : w.resetCounters.avatar? = fun id => (w.avatar? id).map ({ · with counter := 1 }) :=
    funext fun _ => avatar?_resetCounters
  show (w.tile? p).bind (fun t => t.occupants.ids.findSome? w.resetCounters.avatar?) = _
  rw [hfind, avatarOn?]
  cases w.tile? p with
  | none => rfl
  | some t => exact List.map_findSome?.symm

@[simp] theorem terrain?_resetCounters : w.resetCounters.terrain? p = w.terrain? p := rfl

@[simp] theorem blockOn?_resetCounters : w.resetCounters.blockOn? p = w.blockOn? p := rfl

@[simp] theorem block?_resetCounters : w.resetCounters.block? k = w.block? k := rfl

theorem blockedFor_resetCounters : w.resetCounters.blockedFor id p = w.blockedFor id p := by
  rw [blockedFor, avatarOn?_resetCounters, Option.any_map]
  rfl

theorem shift_resetCounters :
    w.resetCounters.shift { a with counter := 1 } target = (w.shift a target).resetCounters := by
  have hput : w.resetCounters.putAvatar a.id a.position target
      = (w.putAvatar a.id a.position target).resetCounters :=
    updateAvatar_resetCounters (w := w.relocate a.id a.position target) (by intro; rfl)
  unfold shift
  cases a.held with
  | none => exact hput
  | some k => exact congrArg (putBlock · k a.position target) hput

theorem link_resetCounters : w.resetCounters.link id k = (w.link id k).resetCounters :=
  updateAvatar_resetCounters (w := w.updateBlock k ({ · with held := true })) (by intro; rfl)

theorem unlink_resetCounters : w.resetCounters.unlink id k = (w.unlink id k).resetCounters :=
  updateAvatar_resetCounters (w := w.updateBlock k ({ · with held := false })) (by intro; rfl)

theorem moveAvatar_resetCounters (w : World) (id : Nat) (target : Position) :
    w.resetCounters.moveAvatar id target
      = ((w.moveAvatar id target).1, (w.moveAvatar id target).2.resetCounters) := by
  cases ha : w.avatar? id with
  | none => simp only [moveAvatar, avatar?_resetCounters, ha, Option.map_none]
  | some a =>
      have ha' : w.resetCounters.avatar? id = some { a with counter := 1 } := by
        rw [avatar?_resetCounters, ha]
        rfl
      rw [moveAvatar_eq ha, moveAvatar_eq ha', terrain?_resetCounters, blockedFor_resetCounters,
        shift_resetCounters]
      split <;> rfl

theorem pickUp_resetCounters (w : World) (id : Nat) :
    w.resetCounters.pickUp id = ((w.pickUp id).1, (w.pickUp id).2.resetCounters) := by
  rw [pickUp, avatar?_resetCounters, pickUp]
  cases w.avatar? id with
  | none => rfl
  | some a =>
      simp only [Option.map_some, blockOn?_resetCounters]
      cases a.held with
      | some k => rfl
      | none =>
          cases w.blockOn? a.position with
          | none => rfl
          | some b => exact congrArg (Prod.mk (some b.id)) link_resetCounters

theorem drop_resetCounters (w : World) (id : Nat) :
    w.resetCounters.drop id = ((w.drop id).1, (w.drop id).2.resetCounters) := by
  cases ha : w.avatar? id with
  | none => simp only [drop, avatar?_resetCounters, ha, Option.map_none]
  | some a =>
      have ha' : w.resetCounters.avatar? id = some { a with counter := 1 } := by
        rw [avatar?_resetCounters, ha]
        rfl
      cases hk : a.held with
      | none => simp only [drop, ha, ha', hk]
      | some k =>
          rw [drop_eq ha hk, drop_eq ha' hk, blockOn?_resetCounters, block?_resetCounters,
            unlink_resetCounters]
          split <;> rfl

theorem calculate_resetCounters (w : World) (id : Nat) (op : Operation) (p : Position) :
    w.resetCounters.calculate id op p = (w.calculate id op p).resetCounters := by
  have hnumber : w.resetCounters.heldNumber? id = w.heldNumber? id := by
    rw [heldNumber?, avatar?_resetCounters, heldNumber?]
    cases w.avatar? id <;> rfl
  have hheld : (w.resetCounters.avatar? id).bind (·.held) = (w.avatar? id).bind (·.held) := by
    rw [avatar?_resetCounters]
    cases w.avatar? id <;> rfl
  rw [calculate, hheld, hnumber, blockOn?_resetCounters, calculate]
  split
  · split
    · rw [setBlockNumber, block?_resetCounters, setBlockNumber]
      split <;> rfl
    · rfl
  · rfl

theorem evaluate_resetCounters (q : Condition) :
    q.evaluate w.resetCounters id p = q.evaluate w id p := by
  have hsome : ∀ j, (w.resetCounters.avatar? j).isSome = (w.avatar? j).isSome := fun j => by
    rw [avatar?_resetCounters, Option.isSome_map]
  have hall : (w.resetCounters.avatarOn? p).all (·.id = id) = (w.avatarOn? p).all (·.id = id) := by
    rw [avatarOn?_resetCounters]
    cases w.avatarOn? p <;> rfl
  unfold Condition.evaluate
  rw [show w.resetCounters.tile? p = w.tile? p from rfl]
  cases w.tile? p with
  | none => rfl
  | some t =>
      cases q with
      | terrain t => rfl
      | block => rfl
      | avatar => simp only [hsome]
      | empty => simp only [blockOn?_resetCounters, hall]
      | number comparison value => rfl

/-- No command looks at a counter. -/
theorem execute_resetCounters (c : Command) (id : Nat) (w : World) :
    c.execute id w.resetCounters = ((c.execute id w).1, (c.execute id w).2.resetCounters) := by
  unfold Command.execute
  rw [avatar?_resetCounters]
  cases w.avatar? id with
  | none => rfl
  | some a =>
      cases c with
      | move direction => exact congrArg (Prod.mk _) (by rw [moveAvatar_resetCounters])
      | pickUp => exact congrArg (Prod.mk _) (by rw [pickUp_resetCounters])
      | drop => exact congrArg (Prod.mk _) (by rw [drop_resetCounters])
      | arithmetic op direction => exact congrArg (Prod.mk _) (calculate_resetCounters w id op _)
      | branch direction condition => simp only [Option.map_some, evaluate_resetCounters]
      | endBranch => rfl

/-- No goal looks at a counter. -/
theorem reached_resetCounters (g : Goal) (w : World) : g.reached w.resetCounters = g.reached w := by
  have hsome : ∀ p, (w.resetCounters.avatarOn? p).isSome = (w.avatarOn? p).isSome := fun p => by
    rw [avatarOn?_resetCounters, Option.isSome_map]
  simp only [Goal.reached, hsome, blockOn?_resetCounters]

/-! ## Identifiers

Adding an element whose identifier is in use is refused, and nothing else adds an avatar. So in
every world that any actions make, an identifier names one avatar. -/

theorem nodup_avatarIds_insertAvatar (hnew : w.avatar? a.id = none) (h : w.avatarIds.Nodup) :
    (w.insertAvatar a).avatarIds.Nodup := by
  have hids : (w.insertAvatar a).avatarIds = w.avatarIds ++ [a.id] := List.map_append
  rw [avatar?_eq_none_iff] at hnew
  rw [hids, List.nodup_append]
  refine ⟨h, List.nodup_singleton _, fun i hi j hj hij => hnew ?_⟩
  rw [← List.mem_singleton.mp hj, ← hij]
  exact hi

theorem ReachedBy.nodup_avatarIds {allowed : Action → Prop} (h : ReachedBy allowed w) :
    w.avatarIds.Nodup := by
  induction h with
  | empty => exact List.nodup_nil
  | @perform w action _ _ ih =>
      cases action with
      | setDimensions rows cols =>
          rcases w.setDimensions_cases rows cols with heq | ⟨-, heq⟩
          · rwa [World.perform, heq]
          · rwa [World.perform, heq]
      | setTerrain p terrain =>
          rw [World.perform, World.setTerrain]
          split <;> exact ih
      | addAvatar a =>
          rcases w.addAvatar_cases a with heq | ⟨hnew, -, -, heq⟩
          · rwa [World.perform, heq]
          · rw [World.perform, heq]
            exact nodup_avatarIds_insertAvatar hnew ih
      | addBlock b =>
          rcases w.addBlock_cases b with heq | ⟨-, -, -, heq⟩
          · rwa [World.perform, heq]
          · rwa [World.perform, heq]
      | moveAvatar id target => rwa [World.perform, avatarIds_congr (w.roster_moveAvatar id target)]
      | pickUp id => rwa [World.perform, avatarIds_congr (w.roster_pickUp id)]
      | drop id => rwa [World.perform, avatarIds_congr (w.roster_drop id)]
      | setBlockNumber id number =>
          rw [World.perform, World.setBlockNumber]
          cases w.block? id <;> exact ih
      | setCounter id counter =>
          rw [World.perform, World.setCounter]
          cases w.avatar? id with
          | none => exact ih
          | some a =>
              show (w.updateAvatar id _).avatarIds.Nodup
              rwa [avatarIds_updateAvatar (by intro; rfl)]
      | resetCounters => rwa [World.perform, avatarIds_resetCounters]
      | execute id command => rwa [World.perform, avatarIds_execute]

end World

end TilePuzzle
