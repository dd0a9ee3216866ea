import TilePuzzle.Grid
import TilePuzzle.IdSet
import TilePuzzle.Terrain

/-!
# The world

A world is a grid of tiles with avatars and numbered blocks on it. Avatars and blocks are *elements*:
they share one space of identifiers, and each tile keeps the set of the elements on it. A block that
an avatar carries is *held*; the others *rest*.

A world starts without tiles. It gets its size once, then its terrain and elements; each step of this
either succeeds or names a `WorldError`, and the order in which elements were added is kept.
-/

namespace TilePuzzle

open Text (intText natText)

/-- One cell of the grid: its terrain and the elements on it. -/
structure Tile where
  terrain : Terrain := .floor
  occupants : IdSet := .empty
deriving DecidableEq, Inhabited

/-- An actor. Its counter is the line of the program that it executes next. -/
structure Avatar where
  id : Nat
  position : Position
  counter : Nat := 1
  held : Option Nat := none
deriving DecidableEq, Repr, Inhabited

/-- A numbered block. -/
structure Block where
  id : Nat
  position : Position
  number : Int
  held : Bool := false
deriving DecidableEq, Repr, Inhabited

/-- Why a world cannot be changed as asked. -/
inductive WorldError where
  | alreadySized
  | invalidDimensions (rows cols : Int)
  | outOfBounds (position : Position)
  | duplicateElement (id : Nat)
  | avatarNotFound (id : Nat)
deriving DecidableEq, Repr

/-- The error in words. -/
def WorldError.message : WorldError → String
  | alreadySized => "grid dimensions are already set"
  | invalidDimensions rows cols =>
    "grid dimensions must be positive (got " ++ intText rows ++ "x" ++ intText cols ++ ")"
  | outOfBounds position => "position " ++ position.text ++ " is outside the grid"
  | duplicateElement id => "element " ++ natText id ++ " is already registered"
  | avatarNotFound id => "avatar " ++ natText id ++ " not found"

/-- Tiles, avatars and blocks; avatars and blocks in the order in which they were added. -/
structure World where
  grid : Grid Tile := .empty
  avatars : List Avatar := []
  blocks : List Block := []

namespace World

instance : Inhabited World := ⟨{}⟩

/-- The world without tiles and elements. -/
def empty : World := {}

/-! ### Look-ups -/

/-- The tile at `p`, if `p` lies on the grid. -/
def tile? (w : World) (p : Position) : Option Tile := w.grid.get? p

/-- The terrain at `p`, if `p` lies on the grid. -/
def terrain? (w : World) (p : Position) : Option Terrain := (w.tile? p).map (·.terrain)

/-- The avatar named `id`. -/
def avatar? (w : World) (id : Nat) : Option Avatar := w.avatars.find? (·.id = id)

/-- The block named `id`. -/
def block? (w : World) (id : Nat) : Option Block := w.blocks.find? (·.id = id)

/-- The identifiers of the avatars, in the order in which they were added. -/
def avatarIds (w : World) : List Nat := w.avatars.map (·.id)

/-- Whether an element is named `id`. -/
def registered (w : World) (id : Nat) : Bool :=
  w.avatars.any (·.id = id) || w.blocks.any (·.id = id)

/-- The block that rests at `p`; of several, the one with the least identifier. -/
def blockOn? (w : World) (p : Position) : Option Block := do
  let tile ← w.tile? p
  tile.occupants.ids.findSome? fun id => (w.block? id).filter (!·.held)

/-- The avatar at `p`; of several, the one with the least identifier. -/
def avatarOn? (w : World) (p : Position) : Option Avatar := do
  let tile ← w.tile? p
  tile.occupants.ids.findSome? w.avatar?

/-- The number of the block that the avatar `id` carries. -/
def heldNumber? (w : World) (id : Nat) : Option Int := do
  let avatar ← w.avatar? id
  let block ← w.block? (← avatar.held)
  pure block.number

/-! ### Building -/

/-- The world with its size set; this can be done once. -/
def setDimensions (w : World) (rows cols : Int) : Except WorldError World :=
  if !w.grid.cells.isEmpty then .error .alreadySized
  else if rows ≤ 0 ∨ cols ≤ 0 then .error (.invalidDimensions rows cols)
  else .ok { w with grid := .replicate rows.toNat cols.toNat {} }

/-- A world of floor without elements. -/
def withDimensions (rows cols : Int) : Except WorldError World := empty.setDimensions rows cols

/-- The world with other terrain at `p`. -/
def setTerrain (w : World) (p : Position) (terrain : Terrain) : Except WorldError World :=
  if w.grid.Contains p then .ok { w with grid := w.grid.modify p ({ · with terrain }) }
  else .error (.outOfBounds p)

/-- Puts the element `id` into the occupants of the tile at `p`. -/
def enter (w : World) (id : Nat) (p : Position) : World :=
  { w with grid := w.grid.modify p fun t => { t with occupants := t.occupants.insert id } }

/-- Takes the element `id` from the occupants of the tile at `p`. -/
def leave (w : World) (id : Nat) (p : Position) : World :=
  { w with grid := w.grid.modify p fun t => { t with occupants := t.occupants.erase id } }

theorem tile?_enter (w : World) (id : Nat) (p q : Position) :
    (w.enter id p).tile? q =
      if p = q then (w.tile? q).map fun t => { t with occupants := t.occupants.insert id }
      else w.tile? q :=
  Grid.get?_modify _ _ _ _

theorem tile?_leave (w : World) (id : Nat) (p q : Position) :
    (w.leave id p).tile? q =
      if p = q then (w.tile? q).map fun t => { t with occupants := t.occupants.erase id }
      else w.tile? q :=
  Grid.get?_modify _ _ _ _

/-- Who stands on the tiles does not matter for the terrain. -/
@[simp] theorem terrain?_enter (w : World) (id : Nat) (p q : Position) :
    (w.enter id p).terrain? q = w.terrain? q := by
  rw [terrain?, tile?_enter]
  split <;> simp [terrain?, Function.comp_def]

@[simp] theorem terrain?_leave (w : World) (id : Nat) (p q : Position) :
    (w.leave id p).terrain? q = w.terrain? q := by
  rw [terrain?, tile?_leave]
  split <;> simp [terrain?, Function.comp_def]

/-- The world with one avatar more. A name in use is refused before a position off the grid. -/
def addAvatar (w : World) (a : Avatar) : Except WorldError World :=
  if w.registered a.id then .error (.duplicateElement a.id)
  else if w.grid.Contains a.position then
    .ok { w.enter a.id a.position with avatars := w.avatars ++ [a] }
  else .error (.outOfBounds a.position)

/-- The world with one block more. A name in use is refused before a position off the grid. -/
def addBlock (w : World) (b : Block) : Except WorldError World :=
  if w.registered b.id then .error (.duplicateElement b.id)
  else if w.grid.Contains b.position then
    .ok { w.enter b.id b.position with blocks := w.blocks ++ [b] }
  else .error (.outOfBounds b.position)

/-! ### Changes to one element -/

/-- The world with the avatar `id` changed by `f`. -/
def updateAvatar (w : World) (id : Nat) (f : Avatar → Avatar) : World :=
  { w with avatars := w.avatars.map fun a => if a.id = id then f a else a }

/-- The world with the block `id` changed by `f`. -/
def updateBlock (w : World) (id : Nat) (f : Block → Block) : World :=
  { w with blocks := w.blocks.map fun b => if b.id = id then f b else b }

/-- The world in which the avatar `id` executes line `counter` next. -/
def setCounter (w : World) (id counter : Nat) : Except WorldError World :=
  match w.avatar? id with
  | none => .error (.avatarNotFound id)
  | some _ => .ok (w.updateAvatar id ({ · with counter }))

/-- The world in which every avatar executes line 1 next. -/
def resetCounters (w : World) : World :=
  { w with avatars := w.avatars.map ({ · with counter := 1 }) }

/-- Gives the block `id` another number. The answer tells whether there is such a block. -/
def setBlockNumber (w : World) (id : Nat) (number : Int) : Bool × World :=
  match w.block? id with
  | none => (false, w)
  | some _ => (true, w.updateBlock id ({ · with number }))

end World

end TilePuzzle
