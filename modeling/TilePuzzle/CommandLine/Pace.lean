import TilePuzzle.Binary64.Shortest
import TilePuzzle.Clock

/-!
# The pace of a run

The pause between two ticks is a delay in milliseconds, or follows from a rate of ticks in a second. A
rate has to be positive and finite, and so great that the pause lasts less than `2 ^ 64` seconds.
-/

namespace TilePuzzle

/-- Why a rate of ticks gives no pause. -/
inductive PaceError where
  | notPositive
  | tooSmall (rate : Binary64)
deriving DecidableEq, Repr

/-- The error in words. -/
def PaceError.message : PaceError → String
  | notPositive => "tick_rate must be a finite number greater than 0"
  | tooSmall rate => "tick_rate " ++ rate.text ++ " is too small"

namespace Pace

/-- The pause in nanoseconds that a rate asks for. -/
def ofRate (rate : Binary64) : Except PaceError Nat :=
  match rate with
  | .finite false mantissa exponent =>
    let (num, den) := Binary64.quotient mantissa exponent
    if num = 0 then .error .notPositive
    else if Clock.secondsLimit * num ≤ den then .error (.tooSmall rate)
    else .ok (Clock.perSecond * den / num)
  | _ => .error .notPositive

/-- The pause in nanoseconds: of the rate if there is one, or else of the delay in milliseconds. -/
def pause (rate : Option Binary64) (delay : Nat) : Except PaceError Nat :=
  match rate with
  | some rate => ofRate rate
  | none => .ok (delay * 1000000)

end Pace

end TilePuzzle
