import TilePuzzle.Text.Decimal

/-!
# Positions

A position counts rows downwards (`x`) and columns to the right (`y`) from the top left corner. It may
lie off the grid, above or to the left of it included.
-/

namespace TilePuzzle

open Text (intText)

/-- A place on the plane that the grid is cut from: row `x`, column `y`. -/
structure Position where
  x : Int
  y : Int
deriving DecidableEq, Repr, Inhabited

namespace Position

/-- The position `dx` rows further down and `dy` columns further to the right. -/
def offset (p : Position) (dx dy : Int) : Position := ⟨p.x + dx, p.y + dy⟩

/-- The position in writing, as in `(2, -1)`. -/
def text (p : Position) : String := "(" ++ intText p.x ++ ", " ++ intText p.y ++ ")"

end Position

end TilePuzzle
