import TilePuzzle.Proofs.Engine.Image
import TilePuzzle.Proofs.Level.Build

/-!
# The edge of the grid

A level may be drawn with a ring of walls around it, or its grid may just end there. To move one row
down and one column to the right makes room for the ring, and in the world with the ring every
position looks as it did without: the tiles of the level have moved, and around them is bare wall
either way. So the world with the ring is an image of the world, and no run can tell one from the
other.

The main statement is `border_unseen`.
-/

namespace TilePuzzle

namespace Position

theorem offset_offset (p : Position) (dx dy dx' dy' : Int) :
    (p.offset dx dy).offset dx' dy' = p.offset (dx + dx') (dy + dy') := by
  simp only [offset, Int.add_assoc]

theorem offset_zero (p : Position) : p.offset 0 0 = p := by
  simp only [offset, Int.add_zero]

theorem offset_apply (dx dy : Int) (d : Direction) (p : Position) :
    (d.apply p).offset dx dy = d.apply (p.offset dx dy) := by
  simp only [Direction.apply, offset, mk.injEq]
  omega

end Position

namespace Motion

/-- One row down and one column to the right. -/
def inward : Motion where
  place := {
    toFun := fun p => p.offset 1 1
    invFun := fun p => p.offset (-1) (-1)
    left_inv := fun p => (p.offset_offset 1 1 (-1) (-1)).trans p.offset_zero
    right_inv := fun p => (p.offset_offset (-1) (-1) 1 1).trans p.offset_zero }
  turn := id
  place_apply := Position.offset_apply 1 1

theorem program_inward (p : Program) : inward.program p = p := program_of_turn rfl p

end Motion

namespace World

/-- The world in a ring of bare wall. Everything is one row further down and one column further to
the right. -/
def bordered (w : World) : World where
  grid := .tabulate (w.grid.rows + 2) (w.grid.cols + 2) fun p =>
    (w.tile? (p.offset (-1) (-1))).getD .bareWall
  avatars := w.avatars.map fun a => { a with position := a.position.offset 1 1 }
  blocks := w.blocks.map fun b => { b with position := b.position.offset 1 1 }

variable {w : World}

theorem bordered_eq (w : World) :
    w.bordered = w.imageIn .inward (w.grid.rows + 2) (w.grid.cols + 2) := rfl

theorem contains_bordered {p : Position} : w.bordered.grid.Contains (p.offset 1 1)
    ↔ -1 ≤ p.x ∧ p.x ≤ w.grid.rows ∧ -1 ≤ p.y ∧ p.y ≤ w.grid.cols := by
  simp only [Grid.Contains, bordered, Grid.tabulate, Position.offset]
  omega

theorem bounds_of_contains {p : Position} (hp : w.grid.Contains p) :
    -1 ≤ p.x ∧ p.x ≤ w.grid.rows ∧ -1 ≤ p.y ∧ p.y ≤ w.grid.cols := by
  obtain ⟨hx, hx', hy, hy'⟩ := hp
  omega

/-- Inside the ring are the tiles of the world, and the ring is bare wall. -/
theorem tile?_bordered (w : World) (p : Position) : w.bordered.tile? (p.offset 1 1)
    = if w.grid.Contains p then w.tile? p
      else if -1 ≤ p.x ∧ p.x ≤ w.grid.rows ∧ -1 ≤ p.y ∧ p.y ≤ w.grid.cols then some .bareWall
      else none := by
  have hseen : w.seen (Motion.inward.place.symm (p.offset 1 1)) = w.seen p :=
    congrArg w.seen (Motion.inward.place.symm_apply_apply p)
  rw [bordered_eq, tile?_imageIn, ← bordered_eq, hseen]
  simp only [contains_bordered]
  by_cases hp : w.grid.Contains p
  · rw [if_pos hp, tile?_eq_seen, if_pos hp, if_pos (bounds_of_contains hp)]
  · rw [if_neg hp, seen_of_outside hp]

theorem fits_inward (havatars : w.avatarIds.Nodup) (hblocks : w.blockIds.Nodup) :
    Fits .inward (w.grid.rows + 2) (w.grid.cols + 2) w where
  avatarIds := havatars
  blockIds := hblocks
  contains := fun _ hp => contains_bordered.mpr (bounds_of_contains hp)

end World

namespace Engine

/-- The same program in the world with the ring, with the targets of the goal moved along. -/
def bordered (e : Engine) : Engine :=
  { e with world := e.world.bordered, goal := Motion.inward.goal e.goal }

def Turn.bordered (t : Turn) : Turn := { t with engine := t.engine.bordered }

theorem bordered_eq (e : Engine) :
    e.bordered = e.imageIn .inward (e.world.grid.rows + 2) (e.world.grid.cols + 2) := by
  rw [imageIn, Motion.program_inward]
  rfl

/-- A level with a ring of walls around it cannot be told from the level without, by any program and
for any goal: each tick of a run announces and reports the same, and leaves the same world but for
the ring. -/
theorem border_unseen {e : Engine} (hw : World.Reachable e.world) :
    (∀ p, e.world.bordered.tile? (p.offset 1 1)
      = if e.world.grid.Contains p then e.world.tile? p
        else if -1 ≤ p.x ∧ p.x ≤ e.world.grid.rows ∧ -1 ≤ p.y ∧ p.y ≤ e.world.grid.cols then
          some .bareWall
        else none) ∧
    ∀ clock n, e.bordered.turnAt clock n = (e.turnAt clock n).bordered := by
  refine ⟨World.tile?_bordered e.world, fun clock n => ?_⟩
  have hfits := World.fits_inward hw.consistent.nodup_avatarIds hw.consistent.nodup_blockIds
  have hsetting := setting_turnAt e clock n
  rw [bordered_eq, turnAt_imageIn hfits, Turn.imageIn, Turn.bordered, bordered_eq, hsetting.rows,
    hsetting.cols]

/-- A row of floor and a hole, with an avatar and a block on the floor. -/
def ledge : LevelFile where
  layout := [".o"]
  avatars := [{ id := 3, position := ⟨0, 0⟩ }]
  blocks := [{ id := 8, position := ⟨0, 0⟩, number := 5 }]
  goal := { idealTime := 0, idealLines := 4, budget := 9, avatarTargets := [⟨0, -1⟩] }

/-- The level of `ledge`. -/
def ledgeLevel : Level where
  name := ""
  world := [.setDimensions 1 2, .setTerrain ⟨0, 1⟩ .hole,
    .addAvatar { id := 3, position := ⟨0, 0⟩ },
    .addBlock { id := 8, position := ⟨0, 0⟩, number := 5 }].foldl World.perform World.empty
  goal := ledge.goal
  timeLimit := 300
  program := []

/-- The avatar finds wall in the north, tries to go there, and finds no block in the west. -/
def climber : Engine where
  program := {
    commands := [.branch .north (.terrain .wall), .move .north, .endBranch, .branch .west .block,
      .pickUp, .endBranch]
    jumps := .ofList [(1, 3), (4, 6)]
    endLines := [3, 6] }
  world := ledgeLevel.world
  goal := ledgeLevel.goal
  timeLimit := ledgeLevel.timeLimit

theorem border_unseen_climber :
    World.Reachable climber.world ∧
      climber.bordered.world.tile? ⟨0, 1⟩ = some .bareWall ∧
      (let clock : Nat → Readings := fun k => .still k
        let turn := climber.bordered.turnAt clock 3
        turn.signals = [.budget 5, .lines (.ofList [(3, 4)]), .time 297] ∧
          turn = (climber.turnAt clock 3).bordered) := by
  have hbuild : ledge.build = .ok ledgeLevel := rfl
  have hw : World.Reachable climber.world := LevelFile.world_reachable hbuild
  exact ⟨hw, by decide, by decide, (border_unseen hw).2 _ 3⟩

end Engine

end TilePuzzle
