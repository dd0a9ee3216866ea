import TilePuzzle.Position
import TilePuzzle.Text.Blank
import TilePuzzle.Text.Lowercase

/-!
# Directions

A direction is a step to one of the eight neighbours of a position, or `here`. Several words name each;
`ofText?` reads them whatever their letter case, blanks, hyphens and underscores, so that `North-East`
and `north_east` are one.
-/

namespace TilePuzzle

open Text (isBlank lower)

/-- The eight compass directions, and `here`. -/
inductive Direction where
  | here
  | north
  | south
  | east
  | west
  | northEast
  | northWest
  | southEast
  | southWest
deriving DecidableEq, Repr, Inhabited

namespace Direction

/-- Rows and columns that a step in the direction covers. North is up, east is right. -/
def delta : Direction → Int × Int
  | here => (0, 0)
  | north => (-1, 0)
  | south => (1, 0)
  | east => (0, 1)
  | west => (0, -1)
  | northEast => (-1, 1)
  | northWest => (-1, -1)
  | southEast => (1, 1)
  | southWest => (1, -1)

/-- The neighbour of `p` in the direction. -/
def apply (d : Direction) (p : Position) : Position := p.offset d.delta.1 d.delta.2

/-- The short name that a program listing shows. -/
def label : Direction → String
  | here => "here"
  | north => "n"
  | south => "s"
  | east => "e"
  | west => "w"
  | northEast => "ne"
  | northWest => "nw"
  | southEast => "se"
  | southWest => "sw"

/-- The direction of a name in lowercase. -/
def ofName? : String → Option Direction
  | "here" | "self" | "center" => some here
  | "n" | "north" | "up" => some north
  | "s" | "south" | "down" => some south
  | "e" | "east" | "right" => some east
  | "w" | "west" | "left" => some west
  | "ne" | "northeast" => some northEast
  | "nw" | "northwest" => some northWest
  | "se" | "southeast" => some southEast
  | "sw" | "southwest" => some southWest
  | _ => none

/-- The direction that a text names. -/
def ofText? (s : String) : Option Direction :=
  ofName? (lower (String.ofList (s.toList.filter fun c => !isBlank c && c != '-' && c != '_')))

/-- A step changes each coordinate by at most one. -/
theorem natAbs_delta_le (d : Direction) : d.delta.1.natAbs ≤ 1 ∧ d.delta.2.natAbs ≤ 1 := by
  cases d <;> decide

theorem ofName?_label (d : Direction) : ofName? d.label = some d := by
  cases d <;> rfl

end Direction

end TilePuzzle
