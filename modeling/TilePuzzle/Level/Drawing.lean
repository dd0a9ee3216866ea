import TilePuzzle.Level.Basic

/-!
# Drawings of levels

A level is shown by a summary of its goal and a drawing of its tiles. A tile shows the avatar on it, or
else the block that rests on it, or else its terrain. Without avatars and blocks a drawing is a layout.
-/

namespace TilePuzzle

open Text (intText natText)

namespace World

/-- The character of a resting block: its number, if that is one digit. -/
def blockSymbol (number : Int) : Char :=
  if 0 ≤ number ∧ number ≤ 9 then Nat.digitChar number.toNat else '*'

/-- The character of a tile. -/
def symbolAt (w : World) (p : Position) : Char :=
  if (w.avatarOn? p).isSome then 'A'
  else
    match w.blockOn? p with
    | some block => blockSymbol block.number
    | none => ((w.terrain? p).getD .floor).symbol

/-- The rows of the drawing. -/
def drawing (w : World) : List String :=
  (List.range w.grid.rows).map fun (x : Nat) =>
    String.ofList ((List.range w.grid.cols).map fun (y : Nat) => w.symbolAt ⟨(x : Int), (y : Int)⟩)

end World

namespace Level

/-- The size of the level and what it holds. -/
def headline (l : Level) : String :=
  "Level '" ++ l.name ++ "': " ++ natText l.world.grid.rows ++ "x" ++ natText l.world.grid.cols
    ++ " | avatars=" ++ natText l.world.avatars.length
    ++ " | blocks=" ++ natText l.world.blocks.length
    ++ " | program lines=" ++ natText l.program.length

/-- The budget and the marks of the goal, and the time limit. -/
def marks (l : Level) : String :=
  "Goal: budget " ++ intText l.goal.budget ++ " command(s), ideal " ++ intText l.goal.idealLines
    ++ " line(s) / " ++ intText l.goal.idealTime ++ "s, time limit " ++ intText l.timeLimit ++ "s"

/-- The targets of the goal, or a remark that there are none. -/
def targets (l : Level) : List String :=
  l.goal.avatarTargets.map (fun p => " - avatar target at " ++ p.text)
    ++ l.goal.blockTargets.map (fun t =>
      " - block " ++ intText t.number ++ " wanted at " ++ t.position.text)
    ++ if l.goal.hasTargets then [] else [" - no targets; the run can only finish, lose or time out"]

/-- The summary of the goal, then the drawing, set in by two blanks. -/
def overview (l : Level) : List String :=
  l.headline :: l.marks :: l.targets ++ l.world.drawing.map ("  " ++ ·)

end Level

end TilePuzzle
