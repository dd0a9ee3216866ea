import TilePuzzle.Proofs.Engine.Tick
import TilePuzzle.Proofs.Level.Build
import TilePuzzle.Proofs.World.Setting

/-!
# Carrying

Carrying pairs some of the avatars with some of the blocks, one to one, and the two of a pair share
their position. `PairedCarrying` says so about the avatars and blocks of a world as they stand in
its lists. It follows from consistency, so every reachable world has it; and since a run makes
reachable worlds of reachable worlds and neither adds nor removes a block, no run loses, doubles or
orphans a block.

The main statement is `carrying_paired`.
-/

namespace TilePuzzle

namespace World

variable {w : World} {k : Nat} {a a' : Avatar} {b : Block}

/-- Avatars and held blocks are paired one to one, at the same positions. -/
structure PairedCarrying (w : World) : Prop where
  /-- Each identifier names one element. -/
  distinct : (w.avatarIds ++ w.blockIds).Nodup
  /-- What an avatar carries is a held block at the position of the avatar. -/
  load : ∀ a ∈ w.avatars, ∀ k, a.held = some k →
    ∃ b, w.block? k = some b ∧ b.held = true ∧ b.position = a.position
  /-- No block is carried twice. -/
  injective : ∀ a ∈ w.avatars, ∀ a' ∈ w.avatars, ∀ k, a.held = some k → a'.held = some k → a = a'
  /-- A held block has exactly one carrier. -/
  carrier : ∀ b ∈ w.blocks, b.held = true → ∃! a, a ∈ w.avatars ∧ a.held = some b.id

namespace Consistent

theorem load?_of_mem (h : Consistent w) (ha : a ∈ w.avatars) : w.load? a.id = a.held :=
  load?_of_avatar? (h.avatar?_eq_some_iff.mpr ⟨ha, rfl⟩)

theorem eq_of_held (h : Consistent w) (ha : a ∈ w.avatars) (ha' : a' ∈ w.avatars)
    (hk : a.held = some k) (hk' : a'.held = some k) : a = a' := by
  rw [← h.load?_of_mem ha] at hk
  rw [← h.load?_of_mem ha'] at hk'
  have hid : a.id = a'.id := h.load?_inj hk hk'
  have hfind : w.avatar? a.id = some a := h.avatar?_eq_some_iff.mpr ⟨ha, rfl⟩
  have hfind' : w.avatar? a.id = some a' := h.avatar?_eq_some_iff.mpr ⟨ha', hid.symm⟩
  rw [hfind] at hfind'
  exact Option.some.inj hfind'

/-- Where the records of a world agree, carrying is a pairing. -/
theorem pairedCarrying (h : Consistent w) : PairedCarrying w where
  distinct := h.nodup
  load := by
    intro a ha k hk
    obtain ⟨b, hb, hheld, hposition, -⟩ := h.held_block (h.avatar?_eq_some_iff.mpr ⟨ha, rfl⟩) hk
    exact ⟨b, hb, hheld, hposition⟩
  injective := fun a ha a' ha' k hk hk' => h.eq_of_held ha ha' hk hk'
  carrier := by
    intro b hb hheld
    obtain ⟨id, hid⟩ := h.carrier ⟨b, h.block?_eq_some_iff.mpr ⟨hb, rfl⟩, hheld⟩
    obtain ⟨a, ha⟩ := Option.isSome_iff_exists.mp (isSome_avatar?_of_load? hid)
    have hmem : a ∈ w.avatars := mem_of_avatar? ha
    rw [load?, ha] at hid
    exact ⟨a, ⟨hmem, hid⟩, fun a' ha' => h.eq_of_held ha'.1 hmem ha'.2 hid⟩

end Consistent

/-- A command neither adds nor removes a block. -/
theorem blockIds_execute (c : Command) (id : Nat) (w : World) :
    (c.execute id w).2.blockIds = w.blockIds :=
  (SameSetting.execute c id w).blockIds

end World

namespace Engine

open World (PairedCarrying Reachable)

/-- In every reachable world carrying is a pairing, and a run of any program in a level keeps it one
and keeps the blocks of the level. -/
theorem carrying_paired :
    (∀ w, Reachable w → PairedCarrying w) ∧
      ∀ (f : LevelFile) (level : Level), f.build = .ok level →
        ∀ e : Engine, e.world = level.world → ∀ events : List Event,
          PairedCarrying (events.foldl (handle level.world) e).world ∧
            (events.foldl (handle level.world) e).world.blockIds = level.world.blockIds := by
  refine ⟨fun w hw => hw.consistent.pairedCarrying, fun f level hf e he events => ?_⟩
  let P : World → Prop := fun w => Reachable w ∧ w.blockIds = level.world.blockIds
  have hexecute : ∀ w id (c : Command), P w → P (c.execute id w).2 := by
    intro w id c ⟨hw, hids⟩
    have hperform : Reachable (w.perform (.execute id c)) := hw.perform trivial
    exact ⟨hperform, by rw [World.blockIds_execute, hids]⟩
  have hcounter : ∀ w id counter, P w → P (w.attempt (w.setCounter id counter)) := by
    intro w id counter ⟨hw, hids⟩
    have hperform : Reachable (w.perform (.setCounter id counter)) := hw.perform trivial
    have hsame : (w.attempt (w.setCounter id counter)).blockIds = w.blockIds := by
      rw [World.setCounter]
      cases w.avatar? id <;> rfl
    exact ⟨hperform, hsame.trans hids⟩
  have hreset : ∀ w, P w → P w.resetCounters := by
    intro w ⟨hw, hids⟩
    have hperform : Reachable (w.perform .resetCounters) := hw.perform trivial
    exact ⟨hperform, hids⟩
  have hlevel : P level.world := ⟨LevelFile.world_reachable hf, rfl⟩
  have hstart : P e.world := he ▸ hlevel
  obtain ⟨hw, hids⟩ := world_induction hexecute hcounter hreset hlevel events e hstart
  exact ⟨hw.consistent.pairedCarrying, hids⟩

/-- A level of two tiles in a row, with an avatar and a block on the left one. -/
def shelf : LevelFile where
  layout := [".."]
  avatars := [{ id := 3, position := ⟨0, 0⟩ }]
  blocks := [{ id := 8, position := ⟨0, 0⟩, number := 5 }]
  goal := { idealTime := 0, idealLines := 0, budget := 9 }

/-- The level of `shelf`. -/
def shelfLevel : Level where
  name := ""
  world := [.setDimensions 1 2, .addAvatar { id := 3, position := ⟨0, 0⟩ },
    .addBlock { id := 8, position := ⟨0, 0⟩, number := 5 }].foldl World.perform World.empty
  goal := shelf.goal
  timeLimit := 300
  program := []

/-- The avatar of the shelf picks the block up and moves on to the right. -/
def porter : Engine where
  program := { commands := [.pickUp, .move .east] }
  world := shelfLevel.world
  goal := shelfLevel.goal
  timeLimit := shelfLevel.timeLimit

theorem carrying_porter :
    PairedCarrying (shelfLevel.world.perform (.pickUp 3)) ∧
      (let events : List Event := [.tick ⟨0, 1⟩, .tick ⟨4, 4⟩, .reset]
        let w := (events.foldl (handle shelfLevel.world) porter).world
        w.avatars = [{ id := 3, position := ⟨0, 1⟩, counter := 1, held := some 8 }] ∧
          PairedCarrying w) := by
  have hshelf : Reachable shelfLevel.world := World.ReachedBy.empty.foldl _ (by decide)
  have hpicked : Reachable (shelfLevel.world.perform (.pickUp 3)) := hshelf.perform trivial
  have hbuild : shelf.build = .ok shelfLevel := rfl
  refine ⟨carrying_paired.1 _ hpicked, by decide, ?_⟩
  exact (carrying_paired.2 shelf shelfLevel hbuild porter rfl _).1

end Engine

end TilePuzzle
