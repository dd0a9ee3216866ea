import TilePuzzle.Command.Arithmetic
import TilePuzzle.World.Basic

/-!
# Conditions

What an `if` asks about a tile. A position off the grid answers like a wall: the only condition that
holds there is that the terrain is wall.
-/

namespace TilePuzzle

open Text (intText)

/-- A question about a tile. -/
inductive Condition where
  /-- The tile is made of this terrain. -/
  | terrain (terrain : Terrain)
  /-- A block rests on the tile. -/
  | block
  /-- Another avatar stands on the tile. -/
  | avatar
  /-- The tile is floor without a resting block, and no other avatar answers for it. -/
  | empty
  /-- A block rests on the tile, and its number compares so with `value`. -/
  | number (comparison : Comparison) (value : Int)
deriving DecidableEq, Repr

namespace Condition

/-- Whether the condition holds at `p`, asked by the avatar `id`. -/
def evaluate (c : Condition) (w : World) (id : Nat) (p : Position) : Bool :=
  match w.tile? p with
  | none => c = terrain .wall
  | some tile =>
    match c with
    | terrain t => tile.terrain = t
    | block => (w.blockOn? p).isSome
    | avatar => tile.occupants.ids.any fun other => other ≠ id && (w.avatar? other).isSome
    | empty => tile.terrain.walkable && (w.blockOn? p).isNone && (w.avatarOn? p).all (·.id = id)
    | number comparison value => (w.blockOn? p).any fun b => comparison.holds b.number value

/-- The condition as a program listing shows it. -/
def text : Condition → String
  | terrain t => t.label
  | block => "block"
  | avatar => "avatar"
  | empty => "empty"
  | number comparison value => "number " ++ comparison.symbol ++ " " ++ intText value

end Condition

end TilePuzzle
