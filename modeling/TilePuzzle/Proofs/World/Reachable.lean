import TilePuzzle.Command.Basic
import TilePuzzle.Proofs.World.Lookup

/-!
# Reachable worlds

A world comes about by actions on the empty world, one after the other: it gets its size, its
terrain and its elements, and then avatars act in it. Any action may be tried at any time, with any
arguments; one that is refused leaves the world as it is.

`Reachable` is the set of worlds that arise when elements enter the world out of any carrying link,
avatars with empty hands and blocks at rest. Each operation that can succeed has a lemma here that
says exactly what it does then (`moveAvatar_cases`, `pickUp_cases`, `drop_cases`,
`calculate_cases`); an invariant is proved from these, without another look at the definitions.
-/

namespace TilePuzzle

/-- Something that can be asked of a world. -/
inductive Action where
  | setDimensions (rows cols : Int)
  | setTerrain (position : Position) (terrain : Terrain)
  | addAvatar (avatar : Avatar)
  | addBlock (block : Block)
  | moveAvatar (id : Nat) (target : Position)
  | pickUp (id : Nat)
  | drop (id : Nat)
  | setBlockNumber (id : Nat) (number : Int)
  | setCounter (id counter : Nat)
  | resetCounters
  | execute (id : Nat) (command : Command)

/-- The action adds no element that is already part of a carrying link. -/
def Action.Plain : Action → Prop
  | addAvatar a => a.held = none
  | addBlock b => b.held = false
  | _ => True

instance : DecidablePred Action.Plain
  | .addAvatar a => inferInstanceAs (Decidable (a.held = none))
  | .addBlock b => inferInstanceAs (Decidable (b.held = false))
  | .setDimensions .. | .setTerrain .. | .moveAvatar .. | .pickUp _ | .drop _ | .setBlockNumber ..
  | .setCounter .. | .resetCounters | .execute .. => .isTrue trivial

namespace World

variable {w w' : World} {id j k : Nat} {p target : Position} {a : Avatar}

/-- The world that a change makes of `w`; a change that is refused leaves it as it is. -/
def attempt (w : World) : Except WorldError World → World
  | .ok w' => w'
  | .error _ => w

/-- The world after an action, whether it succeeds or not. -/
def perform (w : World) : Action → World
  | .setDimensions rows cols => w.attempt (w.setDimensions rows cols)
  | .setTerrain p terrain => w.attempt (w.setTerrain p terrain)
  | .addAvatar a => w.attempt (w.addAvatar a)
  | .addBlock b => w.attempt (w.addBlock b)
  | .moveAvatar id target => (w.moveAvatar id target).2
  | .pickUp id => (w.pickUp id).2
  | .drop id => (w.drop id).2
  | .setBlockNumber id number => (w.setBlockNumber id number).2
  | .setCounter id counter => w.attempt (w.setCounter id counter)
  | .resetCounters => w.resetCounters
  | .execute id command => (command.execute id w).2

/-- The worlds that arise from the empty world by actions of the allowed kind. -/
inductive ReachedBy (allowed : Action → Prop) : World → Prop
  | empty : ReachedBy allowed empty
  | perform {w : World} {action : Action} :
      ReachedBy allowed w → allowed action → ReachedBy allowed (w.perform action)

/-- The worlds that arise from the empty world when elements are added with empty hands and at rest.
-/
abbrev Reachable (w : World) : Prop := ReachedBy Action.Plain w

theorem ReachedBy.foldl {allowed : Action → Prop} (h : ReachedBy allowed w) (actions : List Action)
    (hactions : ∀ action ∈ actions, allowed action) :
    ReachedBy allowed (actions.foldl World.perform w) := by
  induction actions generalizing w with
  | nil => exact h
  | cons action rest ih =>
      exact ih (h.perform (hactions action List.mem_cons_self))
        fun x hx => hactions x (List.mem_cons_of_mem _ hx)

theorem ReachedBy.mono {allowed allowed' : Action → Prop} (h : ReachedBy allowed w)
    (hle : ∀ action, allowed action → allowed' action) : ReachedBy allowed' w := by
  induction h with
  | empty => exact .empty
  | perform _ hallowed ih => exact ih.perform (hle _ hallowed)

/-! ## What an operation does when it succeeds

A refused operation answers the world before. When an operation is not refused, its guards hold and
its result is one of the worlds named here. -/

/-- The world with one avatar more, on its tile. -/
def insertAvatar (w : World) (a : Avatar) : World :=
  { w.enter a.id a.position with avatars := w.avatars ++ [a] }

/-- The world with one block more, on its tile. -/
def insertBlock (w : World) (b : Block) : World :=
  { w.enter b.id b.position with blocks := w.blocks ++ [b] }

/-- The world in which the avatar `id` has gone from `source` to `target`. -/
def putAvatar (w : World) (id : Nat) (source target : Position) : World :=
  (w.relocate id source target).updateAvatar id ({ · with position := target })

/-- The world in which the block `k` has gone from `source` to `target`. -/
def putBlock (w : World) (k : Nat) (source target : Position) : World :=
  (w.relocate k source target).updateBlock k ({ · with position := target })

/-- The world in which the avatar, and the block that it carries, have gone to `target`. -/
def shift (w : World) (a : Avatar) (target : Position) : World :=
  match a.held with
  | none => w.putAvatar a.id a.position target
  | some k => (w.putAvatar a.id a.position target).putBlock k a.position target

/-- The world in which the avatar `id` carries the block `k`. -/
def link (w : World) (id k : Nat) : World :=
  (w.updateBlock k ({ · with held := true })).updateAvatar id ({ · with held := some k })

/-- The world in which the avatar `id` carries nothing and the block `k` rests. -/
def unlink (w : World) (id k : Nat) : World :=
  (w.updateBlock k ({ · with held := false })).updateAvatar id ({ · with held := none })

/-- A new avatar is refused, or its name is new and its position is on the grid. -/
theorem addAvatar_cases (w : World) (a : Avatar) :
    w.attempt (w.addAvatar a) = w ∨
      w.avatar? a.id = none ∧ w.block? a.id = none ∧ w.grid.Contains a.position ∧
        w.attempt (w.addAvatar a) = w.insertAvatar a := by
  unfold addAvatar
  split
  · exact .inl rfl
  · next hnew =>
      rw [Bool.not_eq_true, registered_eq_false_iff] at hnew
      split
      · next hcontains => exact .inr ⟨hnew.1, hnew.2, hcontains, rfl⟩
      · exact .inl rfl

/-- A new block is refused, or its name is new and its position is on the grid. -/
theorem addBlock_cases (w : World) (b : Block) :
    w.attempt (w.addBlock b) = w ∨
      w.avatar? b.id = none ∧ w.block? b.id = none ∧ w.grid.Contains b.position ∧
        w.attempt (w.addBlock b) = w.insertBlock b := by
  unfold addBlock
  split
  · exact .inl rfl
  · next hnew =>
      rw [Bool.not_eq_true, registered_eq_false_iff] at hnew
      split
      · next hcontains => exact .inr ⟨hnew.1, hnew.2, hcontains, rfl⟩
      · exact .inl rfl

/-- The size is set only while the grid has no tile; then every tile is floor with nothing on it. -/
theorem setDimensions_cases (w : World) (rows cols : Int) :
    w.attempt (w.setDimensions rows cols) = w ∨
      w.grid.cells.size = 0 ∧ w.attempt (w.setDimensions rows cols)
        = { w with grid := .replicate rows.toNat cols.toNat {} } := by
  unfold setDimensions
  split
  · exact .inl rfl
  · next hempty =>
      rw [Bool.not_eq_true', Bool.not_eq_false, Array.isEmpty_iff_size_eq_zero] at hempty
      split
      · exact .inl rfl
      · exact .inr ⟨hempty, rfl⟩

/-- An avatar moves exactly onto floor without another avatar. -/
theorem moveAvatar_eq (ha : w.avatar? id = some a) (target : Position) :
    w.moveAvatar id target
      = if w.terrain? target = some .floor ∧ w.blockedFor id target = false then
          (true, w.shift a target)
        else (false, w) := by
  have hid : a.id = id := id_of_avatar? ha
  subst hid
  have hwalk : (w.terrain? target).any (·.walkable) = true ↔ w.terrain? target = some .floor := by
    cases w.terrain? target with
    | none => simp
    | some t => simp [Terrain.walkable_iff]
  have hguard : (!(w.terrain? target).any (·.walkable) || w.blockedFor a.id target) = true
      ↔ ¬(w.terrain? target = some .floor ∧ w.blockedFor a.id target = false) := by
    rw [Bool.or_eq_true, ← hwalk]
    cases (w.terrain? target).any (·.walkable) <;> cases w.blockedFor a.id target <;> simp
  simp only [moveAvatar, ha, hguard, ite_not]
  split
  · unfold shift
    cases a.held <;> rfl
  · rfl

/-- A move is refused, or it leads onto floor without another avatar. -/
theorem moveAvatar_cases (w : World) (id : Nat) (target : Position) :
    w.moveAvatar id target = (false, w) ∨
      ∃ a, w.avatar? id = some a ∧ w.terrain? target = some .floor ∧
        w.blockedFor id target = false ∧ w.moveAvatar id target = (true, w.shift a target) := by
  cases ha : w.avatar? id with
  | none => exact .inl (by simp only [moveAvatar, ha])
  | some a =>
      rw [moveAvatar_eq ha]
      split
      · next hguard => exact .inr ⟨a, rfl, hguard.1, hguard.2, rfl⟩
      · exact .inl rfl

/-- Picking up is refused, or the hands are empty and a block rests at the position. -/
theorem pickUp_cases (w : World) (id : Nat) :
    w.pickUp id = (none, w) ∨
      ∃ a b, w.avatar? id = some a ∧ a.held = none ∧ w.blockOn? a.position = some b ∧
        w.pickUp id = (some b.id, w.link id b.id) := by
  cases ha : w.avatar? id with
  | none => exact .inl (by simp only [pickUp, ha])
  | some a =>
      cases hheld : a.held with
      | some k => exact .inl (by simp only [pickUp, ha, hheld])
      | none =>
          cases hb : w.blockOn? a.position with
          | none => exact .inl (by simp only [pickUp, ha, hheld, hb])
          | some b =>
              refine .inr ⟨a, b, rfl, hheld, hb, ?_⟩
              simp only [pickUp, ha, hheld, hb]
              rfl

/-- An avatar drops its block exactly where no block rests. -/
theorem drop_eq (ha : w.avatar? id = some a) (hk : a.held = some k) :
    w.drop id = if w.blockOn? a.position = none ∧ (w.block? k).isSome then (some k, w.unlink id k)
      else (none, w) := by
  have hguard : ((w.blockOn? a.position).isSome || (w.block? k).isNone) = true
      ↔ ¬(w.blockOn? a.position = none ∧ (w.block? k).isSome) := by
    cases w.blockOn? a.position <;> cases w.block? k <;> simp
  simp only [drop, ha, hk, hguard, ite_not]
  rfl

/-- Dropping is refused, or the avatar carries a block and no other one rests at its position. -/
theorem drop_cases (w : World) (id : Nat) :
    w.drop id = (none, w) ∨
      ∃ a k b, w.avatar? id = some a ∧ a.held = some k ∧ w.block? k = some b ∧
        w.blockOn? a.position = none ∧ w.drop id = (some k, w.unlink id k) := by
  cases ha : w.avatar? id with
  | none => exact .inl (by simp only [drop, ha])
  | some a =>
      cases hk : a.held with
      | none => exact .inl (by simp only [drop, ha, hk])
      | some k =>
          rw [drop_eq ha hk]
          split
          · next hguard =>
              obtain ⟨b, hb⟩ := Option.isSome_iff_exists.mp hguard.2
              exact .inr ⟨a, k, b, rfl, hk, hb, hguard.1, rfl⟩
          · exact .inl rfl

/-- A calculation changes nothing, or the carried block and a block at `p` have a result. -/
theorem calculate_cases (w : World) (id : Nat) (op : Operation) (p : Position) :
    w.calculate id op p = w ∨
      ∃ a k b operand result, w.avatar? id = some a ∧ a.held = some k ∧ w.block? k = some b ∧
        w.blockOn? p = some operand ∧ op.result? b.number operand.number = some result ∧
        w.calculate id op p = w.updateBlock k ({ · with number := result }) := by
  cases ha : w.avatar? id with
  | none => exact .inl (by simp [calculate, ha])
  | some a =>
      cases hheld : a.held with
      | none => exact .inl (by simp [calculate, ha, hheld])
      | some k =>
          cases hb : w.block? k with
          | none => exact .inl (by simp [calculate, heldNumber?, ha, hheld, hb])
          | some b =>
              cases ho : w.blockOn? p with
              | none => exact .inl (by simp [calculate, ha, hheld, ho])
              | some operand =>
                  cases hr : op.result? b.number operand.number with
                  | none => exact .inl (by simp [calculate, heldNumber?, ha, hheld, hb, ho, hr])
                  | some result =>
                      refine .inr ⟨a, k, b, operand, result, rfl, hheld, hb, rfl, hr, ?_⟩
                      simp [calculate, heldNumber?, setBlockNumber, ha, hheld, hb, ho, hr]

/-- Executing a command is one of the operations of its avatar, or it leaves the world as it is. -/
theorem execute_cases {P : World → Prop} (w : World) (id : Nat) (c : Command) (hstay : P w)
    (hmove : ∀ target, P (w.moveAvatar id target).2) (hpick : P (w.pickUp id).2)
    (hdrop : P (w.drop id).2) (hcalculate : ∀ op p, P (w.calculate id op p)) :
    P (c.execute id w).2 := by
  unfold Command.execute
  cases w.avatar? id with
  | none => exact hstay
  | some a =>
      cases c with
      | move direction => exact hmove _
      | pickUp => exact hpick
      | drop => exact hdrop
      | arithmetic op direction => exact hcalculate op _
      | branch direction condition => exact hstay
      | endBranch => exact hstay

end World

end TilePuzzle
