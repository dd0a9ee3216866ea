import Mathlib.Logic.Equiv.Basic
import TilePuzzle.Proofs.Engine.Image
import TilePuzzle.Proofs.Level.Build

/-!
# Symmetries of the grid

Nothing in a level tells left from right, up from down, or rows from columns, apart from the
directions that a program names. The two mirrors and the transposition of rows and columns generate
all symmetries of a rectangle; each is a motion under which the grid fills the mirrored grid, so a
run of the turned program in the mirrored level is the image of the run. A symmetry is a list of
reflections here, made one after the other.

The main statement is `runs_equivariant`.
-/

namespace TilePuzzle

/-- The reflections that generate the symmetries of a rectangle. -/
inductive Reflection where
  | leftRight
  | topBottom
  /-- Rows become columns. -/
  | transpose
deriving DecidableEq

namespace Reflection

/-- Where a position goes on a grid of `rows` by `cols` tiles. -/
def place (rows cols : Nat) : Reflection → Position → Position
  | leftRight, p => ⟨p.x, cols - 1 - p.y⟩
  | topBottom, p => ⟨rows - 1 - p.x, p.y⟩
  | transpose, p => ⟨p.y, p.x⟩

/-- What a direction becomes. -/
def turn : Reflection → Direction → Direction
  | _, .here => .here
  | leftRight, .north => .north
  | leftRight, .south => .south
  | leftRight, .east => .west
  | leftRight, .west => .east
  | leftRight, .northEast => .northWest
  | leftRight, .northWest => .northEast
  | leftRight, .southEast => .southWest
  | leftRight, .southWest => .southEast
  | topBottom, .north => .south
  | topBottom, .south => .north
  | topBottom, .east => .east
  | topBottom, .west => .west
  | topBottom, .northEast => .southEast
  | topBottom, .northWest => .southWest
  | topBottom, .southEast => .northEast
  | topBottom, .southWest => .northWest
  | transpose, .north => .west
  | transpose, .south => .east
  | transpose, .east => .south
  | transpose, .west => .north
  | transpose, .northEast => .southWest
  | transpose, .northWest => .northWest
  | transpose, .southEast => .southEast
  | transpose, .southWest => .northEast

/-- The rows of the grid afterwards, when it had `rows` by `cols` tiles. -/
def rowsAfter (rows cols : Nat) : Reflection → Nat
  | leftRight | topBottom => rows
  | transpose => cols

/-- The columns of the grid afterwards. -/
def colsAfter (rows cols : Nat) : Reflection → Nat
  | leftRight | topBottom => cols
  | transpose => rows

theorem place_involutive (r : Reflection) (rows cols : Nat) :
    Function.Involutive (r.place rows cols) := by
  intro p
  cases r with
  | leftRight =>
      have hback : (cols : Int) - 1 - (cols - 1 - p.y) = p.y := by omega
      simp only [place, hback]
  | topBottom =>
      have hback : (rows : Int) - 1 - (rows - 1 - p.x) = p.x := by omega
      simp only [place, hback]
  | transpose => rfl

/-- A mirror turns around one of the two coordinates of a step, and transposing exchanges them. -/
theorem delta_turn (r : Reflection) (d : Direction) : (r.turn d).delta = match r with
    | leftRight => (d.delta.1, -d.delta.2)
    | topBottom => (-d.delta.1, d.delta.2)
    | transpose => (d.delta.2, d.delta.1) := by
  cases r <;> cases d <;> rfl

theorem place_apply (r : Reflection) (rows cols : Nat) (d : Direction) (p : Position) :
    r.place rows cols (d.apply p) = (r.turn d).apply (r.place rows cols p) := by
  rw [Direction.apply, Direction.apply, delta_turn]
  cases r <;> simp only [place, Position.offset, Position.mk.injEq, true_and, and_true] <;> omega

/-- The reflection of a grid of `rows` by `cols` tiles, as a motion. -/
def motion (r : Reflection) (rows cols : Nat) : Motion where
  place := (r.place_involutive rows cols).toPerm
  turn := r.turn
  place_apply := r.place_apply rows cols

end Reflection

namespace World

variable {w : World} {r : Reflection} {p : Position}

/-- The mirrored world. -/
def reflect (r : Reflection) (w : World) : World :=
  w.imageIn (r.motion w.grid.rows w.grid.cols) (r.rowsAfter w.grid.rows w.grid.cols)
    (r.colsAfter w.grid.rows w.grid.cols)

theorem contains_reflect : (w.reflect r).grid.Contains (r.place w.grid.rows w.grid.cols p)
    ↔ w.grid.Contains p := by
  cases r <;>
    simp only [Grid.Contains, reflect, imageIn, Grid.tabulate, Reflection.place,
      Reflection.rowsAfter, Reflection.colsAfter] <;> omega

theorem tile?_reflect (r : Reflection) (w : World) (p : Position) :
    (w.reflect r).tile? (r.place w.grid.rows w.grid.cols p) = w.tile? p := by
  have hseen : w.seen ((r.motion w.grid.rows w.grid.cols).place.symm
      (r.place w.grid.rows w.grid.cols p)) = w.seen p :=
    congrArg w.seen (r.place_involutive w.grid.rows w.grid.cols p)
  rw [tile?_eq_seen w, reflect, tile?_imageIn, ← reflect, hseen]
  simp only [contains_reflect]

theorem fits_reflection (r : Reflection) (havatars : w.avatarIds.Nodup)
    (hblocks : w.blockIds.Nodup) :
    Fits (r.motion w.grid.rows w.grid.cols) (r.rowsAfter w.grid.rows w.grid.cols)
      (r.colsAfter w.grid.rows w.grid.cols) w where
  avatarIds := havatars
  blockIds := hblocks
  contains := fun _ hp => contains_reflect.mpr hp

end World

namespace Engine

variable {e : Engine}

/-- The turned program for the mirrored goal in the mirrored world. -/
def reflect (e : Engine) (r : Reflection) : Engine where
  program := (r.motion e.world.grid.rows e.world.grid.cols).program e.program
  world := e.world.reflect r
  goal := (r.motion e.world.grid.rows e.world.grid.cols).goal e.goal
  timeLimit := e.timeLimit
  score := e.score
  ticks := e.ticks

/-- The engine after one reflection after the other. -/
def transform (e : Engine) (rs : List Reflection) : Engine := rs.foldl reflect e

def Turn.transform (t : Turn) (rs : List Reflection) : Turn :=
  { t with engine := t.engine.transform rs }

/-- A tick of a run in the mirrored level is the mirrored tick. -/
theorem turnAt_reflect (havatars : e.world.avatarIds.Nodup) (hblocks : e.world.blockIds.Nodup)
    (r : Reflection) (clock : Nat → Readings) (n : Nat) :
    (e.reflect r).turnAt clock n
      = { e.turnAt clock n with engine := (e.turnAt clock n).engine.reflect r } := by
  have hsetting := setting_turnAt e clock n
  have hfits := World.fits_reflection r havatars hblocks
  calc (e.reflect r).turnAt clock n = (e.turnAt clock n).imageIn _ _ _ :=
        turnAt_imageIn hfits clock n
    _ = _ := by
        rw [Turn.imageIn, reflect, World.reflect, hsetting.rows, hsetting.cols]
        rfl

theorem turnAt_transform (havatars : e.world.avatarIds.Nodup) (hblocks : e.world.blockIds.Nodup)
    (rs : List Reflection) (clock : Nat → Readings) (n : Nat) :
    (e.transform rs).turnAt clock n = (e.turnAt clock n).transform rs := by
  induction rs generalizing e with
  | nil => rfl
  | cons r rest ih =>
      have havatars' : (e.reflect r).world.avatarIds.Nodup := by
        rw [reflect, World.reflect, World.avatarIds_imageIn]
        exact havatars
      have hblocks' : (e.reflect r).world.blockIds.Nodup := by
        rw [reflect, World.reflect, World.blockIds_imageIn]
        exact hblocks
      calc (e.transform (r :: rest)).turnAt clock n
          = ((e.reflect r).turnAt clock n).transform rest := ih havatars' hblocks'
        _ = (e.turnAt clock n).transform (r :: rest) := by
            rw [turnAt_reflect havatars hblocks]
            rfl

/-- Runs are the same up to the symmetries of the grid: in a level that was mirrored, with the
program turned and the goal mirrored along, each tick announces and reports the same and leaves the
mirrored world. The mirrored world has the same tiles in the mirrored places. -/
theorem runs_equivariant (hw : World.Reachable e.world) :
    (∀ r p, (e.world.reflect r).tile? (r.place e.world.grid.rows e.world.grid.cols p)
      = e.world.tile? p) ∧
    ∀ rs clock n, (e.transform rs).turnAt clock n = (e.turnAt clock n).transform rs :=
  ⟨fun r p => World.tile?_reflect r e.world p,
    turnAt_transform hw.consistent.nodup_avatarIds hw.consistent.nodup_blockIds⟩

/-- Two rows of three tiles with a hole in a corner, an avatar and a block. -/
def garden : LevelFile where
  layout := ["...", "o.."]
  avatars := [{ id := 2, position := ⟨0, 0⟩ }]
  blocks := [{ id := 1, position := ⟨0, 1⟩, number := 4 }]
  goal := { idealTime := 0, idealLines := 3, budget := 9, blockTargets := [⟨⟨1, 2⟩, 4⟩] }

/-- The level of `garden`. -/
def gardenLevel : Level where
  name := ""
  world := [.setDimensions 2 3, .setTerrain ⟨1, 0⟩ .hole,
    .addAvatar { id := 2, position := ⟨0, 0⟩ },
    .addBlock { id := 1, position := ⟨0, 1⟩, number := 4 }].foldl World.perform World.empty
  goal := garden.goal
  timeLimit := 300
  program := []

/-- The avatar brings the block to the corner across from the hole. -/
def gardener : Engine where
  program := { commands := [.move .east, .pickUp, .move .southEast, .drop] }
  world := gardenLevel.world
  goal := gardenLevel.goal
  timeLimit := gardenLevel.timeLimit

/-- A quarter turn takes the steps to the south and to the southwest, and the avatar wins there in
the same tick. -/
theorem runs_equivariant_gardener :
    World.Reachable gardener.world ∧
      (let turned := gardener.transform [.transpose, .leftRight]
        let clock : Nat → Readings := fun k => .still k
        turned.program.commands = [.move .south, .pickUp, .move .southWest, .drop] ∧
          turned.world.tile? ⟨0, 0⟩ = gardener.world.tile? ⟨1, 0⟩ ∧
          (turned.turnAt clock 3).outcome? = some (.won 5 ⟨-10, 40⟩) ∧
          turned.turnAt clock 3
            = (gardener.turnAt clock 3).transform [.transpose, .leftRight]) := by
  have hbuild : garden.build = .ok gardenLevel := rfl
  have hw : World.Reachable gardener.world := LevelFile.world_reachable hbuild
  exact ⟨hw, by decide, by decide, by decide, (runs_equivariant hw).2 _ _ 3⟩

end Engine

end TilePuzzle
