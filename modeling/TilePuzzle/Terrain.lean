import TilePuzzle.Text.Blank
import TilePuzzle.Text.Lowercase

/-!
# Terrain

What a tile is made of. Avatars go onto floor only.
-/

namespace TilePuzzle

open Text (lower trim)

/-- What a tile is made of. -/
inductive Terrain where
  | floor
  | wall
  | hole
deriving DecidableEq, Repr, Inhabited

namespace Terrain

/-- The name of the terrain. -/
def label : Terrain → String
  | floor => "floor"
  | wall => "wall"
  | hole => "hole"

/-- The character that stands for the terrain in a layout and in a drawing. -/
def symbol : Terrain → Char
  | floor => '.'
  | wall => '#'
  | hole => 'o'

/-- Whether an avatar may stand on it. -/
def walkable : Terrain → Bool
  | floor => true
  | wall | hole => false

/-- The terrain of a name or symbol in lowercase. -/
def ofName? : String → Option Terrain
  | "floor" | "." => some floor
  | "wall" | "#" => some wall
  | "hole" | "o" => some hole
  | _ => none

/-- The terrain that a text names, whatever its letter case and the blanks around it. -/
def ofText? (s : String) : Option Terrain := ofName? (lower (trim s))

theorem walkable_iff {t : Terrain} : t.walkable = true ↔ t = floor := by
  cases t <;> simp [walkable]

end Terrain

end TilePuzzle
