import TilePuzzle.Proofs.Engine.Image
import TilePuzzle.Proofs.Level.Rearrangement

/-!
# Snapshots and the ticks that follow

What a run does from now on can be told from a snapshot of its engine. The order of the blocks is
all that a snapshot of a reachable world leaves open (`Consistent.snapshot_eq_iff`), and worlds that
differ in it are images of each other under the motion that moves nothing. So their ticks keep step:
they bring the same reports and signals, and they leave worlds that differ in the order of their
blocks again.

The main statement is `determined_by_snapshot`. Since the blocks of a level file enter its world in
the order of the file, it also says that a level does not depend on that order.
-/

namespace TilePuzzle

namespace Motion

theorem program_identity (p : Program) : identity.program p = p := program_of_turn rfl p

theorem goal_identity (g : Goal) : identity.goal g = g := by
  have havatars : g.avatarTargets.map identity.place = g.avatarTargets := List.map_id _
  have hblocks : (g.blockTargets.map fun t => { t with position := identity.place t.position })
      = g.blockTargets := List.map_id _
  rw [goal, havatars, hblocks]

end Motion

namespace Engine

open World (Reachable Rearranged)

variable {e : Engine} {w' : World}

/-- From `e'` come the same reports, signals and snapshots as from `e`, whatever the clock shows. -/
structure Indistinguishable (e e' : Engine) : Prop where
  result : ∀ clock n, (e'.turnAt clock n).result = (e.turnAt clock n).result
  signals : ∀ clock n, (e'.turnAt clock n).signals = (e.turnAt clock n).signals
  snapshot : ∀ clock n, (e'.after clock n).snapshot = (e.after clock n).snapshot

theorem image_of_rearranged (hids : e.world.blockIds.Nodup) (h : Rearranged e.world w') :
    Image .identity e { e with world := w' } where
  program := (Motion.program_identity _).symm
  goal := (Motion.goal_identity _).symm
  timeLimit := rfl
  score := rfl
  ticks := rfl
  world := h.image hids

/-- The ticks in a rearranged world leave rearranged worlds. -/
theorem rearranged_after (havatars : e.world.avatarIds.Nodup) (hblocks : e.world.blockIds.Nodup)
    (h : Rearranged e.world w') (clock : Nat → Readings) (n : Nat) :
    Rearranged (e.after clock n).world ({ e with world := w' }.after clock n).world := by
  have himage := ((image_of_rearranged hblocks h).after clock n).world
  have hsetting := setting_after e clock n
  have hsetting' := setting_after { e with world := w' } clock n
  have hblocks' : w'.blockIds.Nodup := (h.blocks.map Block.id).nodup_iff.mpr hblocks
  apply himage.rearranged
  · rw [hsetting'.rows, hsetting.rows, h.grid]
  · rw [hsetting'.cols, hsetting.cols, h.grid]
  · rwa [hsetting.avatarIds]
  · rwa [hsetting.blockIds]
  · rwa [hsetting'.blockIds]

theorem indistinguishable_of_rearranged (hw : Reachable e.world) (h : Rearranged e.world w') :
    Indistinguishable e { e with world := w' } := by
  have hconsistent := hw.consistent
  have himage := image_of_rearranged hconsistent.nodup_blockIds h
  refine ⟨fun clock n => ?_, fun clock n => ?_, fun clock n => ?_⟩
  · exact ((himage.after clock n).tick (clock n)).result
  · exact ((himage.after clock n).tick (clock n)).signals
  · have hn := himage.after clock n
    have hworld := (rearranged_after hconsistent.nodup_avatarIds hconsistent.nodup_blockIds h clock
      n).snapshot ((setting_after e clock n).blockIds ▸ hconsistent.nodup_blockIds)
    rw [snapshot, snapshot, hworld, hn.ticks, hn.score, hn.remaining]

/-- Reachable worlds with one snapshot have the same tiles and the same avatars, and engines that
are in them and are otherwise the same cannot be told apart by any ticks. So a level file may list
its blocks in any order: it makes a level all the same, and no run of any program tells the level
from the one that was made before. -/
theorem determined_by_snapshot :
    (∀ w w' : World, Reachable w → Reachable w' → w'.snapshot = w.snapshot →
      w'.grid = w.grid ∧ w'.avatars = w.avatars ∧
        ∀ e : Engine, e.world = w → Indistinguishable e { e with world := w' }) ∧
    ∀ (f : LevelFile) (level : Level) (blocks : List BlockSpec), f.build = .ok level →
      blocks.Perm f.blocks → ∃ w', { f with blocks }.build = .ok { level with world := w' } ∧
        ∀ e : Engine, e.world = level.world → Indistinguishable e { e with world := w' } := by
  refine ⟨fun w w' hw hw' hs => ?_, fun f level blocks hf hblocks => ?_⟩
  · have h := (hw.consistent.snapshot_eq_iff hw'.consistent).mp hs
    refine ⟨h.grid, h.avatars, ?_⟩
    rintro e rfl
    exact indistinguishable_of_rearranged hw h
  · obtain ⟨w', hbuild, h⟩ := LevelFile.build_rearranged hf hblocks
    refine ⟨w', hbuild, fun e he => ?_⟩
    rw [← he] at h
    exact indistinguishable_of_rearranged (he ▸ LevelFile.world_reachable hf) h

/-- Two blocks on one tile under an avatar. The second one has the lesser identifier. -/
def stack : LevelFile where
  layout := [".."]
  avatars := [{ id := 5, position := ⟨0, 0⟩ }]
  blocks := [{ id := 7, position := ⟨0, 0⟩, number := 9 },
    { id := 2, position := ⟨0, 0⟩, number := 4 }]
  goal := { idealTime := 0, idealLines := 3, budget := 9, blockTargets := [⟨⟨0, 1⟩, 4⟩] }

/-- The level of `stack`. -/
def stackLevel : Level where
  name := ""
  world := [.setDimensions 1 2, .addAvatar { id := 5, position := ⟨0, 0⟩ },
    .addBlock { id := 7, position := ⟨0, 0⟩, number := 9 },
    .addBlock { id := 2, position := ⟨0, 0⟩, number := 4 }].foldl World.perform World.empty
  goal := stack.goal
  timeLimit := 300
  program := []

/-- The world of `stack`, in which the lesser block was there first, and was lifted once before. -/
def restacked : World :=
  [.setDimensions 1 2, .addBlock { id := 2, position := ⟨0, 0⟩, number := 3 },
    .addAvatar { id := 5, position := ⟨0, 0⟩ }, .pickUp 5, .setBlockNumber 2 4, .drop 5,
    .addBlock { id := 7, position := ⟨0, 0⟩, number := 9 }].foldl World.perform World.empty

/-- The avatar takes a block to the right. -/
def stacker : Engine where
  program := { commands := [.pickUp, .move .east, .drop] }
  world := stackLevel.world
  goal := stackLevel.goal
  timeLimit := stackLevel.timeLimit

theorem determined_by_snapshot_stacker :
    let clock : Nat → Readings := fun k => .still k
    restacked.blocks ≠ stacker.world.blocks ∧ restacked.snapshot = stacker.world.snapshot ∧
      (stacker.turnAt clock 2).outcome? = some (.won 6 ⟨0, 40⟩) ∧
      Indistinguishable stacker { stacker with world := restacked } ∧
      ∃ w', { stack with blocks := stack.blocks.reverse }.build
          = .ok { stackLevel with world := w' } ∧
        Indistinguishable stacker { stacker with world := w' } := by
  have hworld : Reachable stacker.world := World.ReachedBy.empty.foldl _ (by decide)
  have hrestacked : Reachable restacked := World.ReachedBy.empty.foldl _ (by decide)
  have hbuild : stack.build = .ok stackLevel := rfl
  have hsnapshot : restacked.snapshot = stacker.world.snapshot :=
    (hworld.consistent.snapshot_eq_iff hrestacked.consistent).mpr ⟨rfl, rfl, by decide⟩
  obtain ⟨hworlds, hlevels⟩ := determined_by_snapshot
  obtain ⟨-, -, hsame⟩ := hworlds _ _ hworld hrestacked hsnapshot
  obtain ⟨w', hbuild', hlevel⟩ := hlevels stack stackLevel _ hbuild (List.reverse_perm _)
  exact ⟨by decide, hsnapshot, by decide, hsame stacker rfl, w', hbuild', hlevel stacker rfl⟩

end Engine

end TilePuzzle
