import TilePuzzle.Descriptor
import TilePuzzle.Goal

/-!
# Levels

A level file draws the tiles as rows of characters, lists the avatars and blocks on them, and gives the
goal, the time limit and, if it likes, a program. `LevelFile.build` makes the level of it: a world, ready
to run. Rows may have different lengths; what lies right of the end of a row is floor.

Faults are looked for in this order: no tile at all, a character that stands for no terrain (row by row),
an avatar that cannot be placed, a block that cannot be placed.
-/

namespace TilePuzzle

open Text (natText)

/-- An avatar of a level file. -/
structure AvatarSpec where
  id : Nat
  position : Position
deriving DecidableEq, Repr

/-- A block of a level file. -/
structure BlockSpec where
  id : Nat
  position : Position
  number : Int
deriving DecidableEq, Repr

/-- What a level file says. -/
structure LevelFile where
  name : String := ""
  timeLimit : Int := 300
  layout : List String
  avatars : List AvatarSpec := []
  blocks : List BlockSpec := []
  goal : Goal
  program : List Descriptor := []
deriving DecidableEq

/-- A world with all that a run of it needs. -/
structure Level where
  name : String
  world : World
  goal : Goal
  timeLimit : Int
  program : List Descriptor

/-- Why a level file makes no level. -/
inductive LevelError where
  | emptyLayout
  | unknownTile (row col : Nat) (symbol : Char)
  | world (error : WorldError)
deriving DecidableEq, Repr

/-- The error in words. -/
def LevelError.message : LevelError → String
  | emptyLayout => "level layout is empty"
  | unknownTile row col symbol =>
    "unknown tile '" ++ symbol.toString ++ "' at row " ++ natText row ++ ", column " ++ natText col
  | world error => error.message

namespace LevelFile

/-- The number of rows of the layout. -/
def rows (f : LevelFile) : Nat := f.layout.length

/-- The length of the longest row of the layout. -/
def cols (f : LevelFile) : Nat := (f.layout.map String.length).foldl max 0

/-- The characters of the layout with their positions, row by row. -/
def symbols (f : LevelFile) : List (Nat × Nat × Char) :=
  f.layout.zipIdx.flatMap fun (row, x) => row.toList.zipIdx.map fun (symbol, y) => (x, y, symbol)

/-- Puts the terrain of one character onto its tile. Tiles start as floor. -/
def placeTerrain (w : World) : Nat × Nat × Char → Except LevelError World
  | (x, y, symbol) =>
    match Terrain.ofText? (String.singleton symbol) with
    | none => .error (.unknownTile x y symbol)
    | some .floor => .ok w
    | some terrain => (w.setTerrain ⟨x, y⟩ terrain).mapError .world

/-- Puts an avatar into the world, at line 1 and with empty hands. -/
def placeAvatar (w : World) (spec : AvatarSpec) : Except LevelError World :=
  (w.addAvatar { id := spec.id, position := spec.position }).mapError .world

/-- Puts a block into the world, at rest. -/
def placeBlock (w : World) (spec : BlockSpec) : Except LevelError World :=
  (w.addBlock { id := spec.id, position := spec.position, number := spec.number }).mapError .world

/-- The world that the file draws and fills. -/
def buildWorld (f : LevelFile) : Except LevelError World := do
  if f.rows = 0 ∨ f.cols = 0 then .error .emptyLayout
  else
    let w ← (World.withDimensions f.rows f.cols).mapError .world
    -- Unlike in a move, the terrain of a tile and what is on it are not looked at.
    let w ← f.symbols.foldlM placeTerrain w
    let w ← f.avatars.foldlM placeAvatar w
    f.blocks.foldlM placeBlock w

/-- The level that the file describes. -/
def build (f : LevelFile) : Except LevelError Level := do
  let world ← f.buildWorld
  return { name := f.name, world, goal := f.goal, timeLimit := f.timeLimit, program := f.program }

end LevelFile

end TilePuzzle
