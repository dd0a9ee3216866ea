import TilePuzzle.Goal
import TilePuzzle.SortedMap

/-!
# Signals

What a run announces while it goes on, in the order in which it happens, and the text of each
announcement.
-/

namespace TilePuzzle

open Text (intText natText)

/-- The line that each avatar executed, by the identifier of the avatar. -/
abbrev LineUpdates := SortedMap Nat Nat

/-- An announcement of a run. -/
inductive Signal where
  /-- The lines executed in a tick. -/
  | lines (updates : LineUpdates)
  /-- What is left of the budget. -/
  | budget (remaining : Int)
  | win (remaining : Int) (bonus : Bonus)
  | lose
  | endOfRun
  | timeout
  /-- The seconds left. -/
  | time (remaining : Int)
deriving DecidableEq

/-- The announcement in words. -/
def Signal.text : Signal → String
  | lines updates =>
    "lines [" ++ " ".intercalate
      (updates.entries.map fun e => "#" ++ natText e.1 ++ "@" ++ natText e.2) ++ "]"
  | budget remaining => "budget " ++ intText remaining
  | win remaining bonus =>
    "win (budget left " ++ intText remaining ++ ", line bonus " ++ intText bonus.lines
      ++ ", time bonus " ++ intText bonus.time ++ ")"
  | lose => "lose"
  | endOfRun => "end of run"
  | timeout => "timeout"
  | time remaining => "time left " ++ intText remaining ++ "s"

end TilePuzzle
