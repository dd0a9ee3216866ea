import TilePuzzle.Binary64.Basic
import TilePuzzle.Text.Decimal

/-!
# Shortest decimals

A binary number is printed with the fewest digits that read back as the same number. The reals that round
to `mantissa · 2 ^ exponent` form an interval around it; `shortest` looks at coarser grids of decimals
before finer ones and takes the first grid with a point in the interval. Only the two points of a grid
that are next to the number can lie there first; of two, the nearer is taken, and the greater at a tie.

The text is always positional: zeros fill the places up to the point, and no exponent is written.
-/

namespace TilePuzzle

open Text (natText)

/-- The decimal `digits · 10 ^ exponent`. -/
structure Decimal where
  digits : Nat
  exponent : Int
deriving DecidableEq, Repr

namespace Decimal

/-- The decimal in writing, with a point only if a fraction follows it. -/
def text (d : Decimal) : String :=
  let digits := Nat.toDigits 10 d.digits
  match d.exponent with
  | .ofNat k => String.ofList (digits ++ List.replicate k '0')
  | .negSucc k =>
    let padded := List.replicate (k + 2 - digits.length) '0' ++ digits
    let point := padded.length - (k + 1)
    String.ofList (padded.take point ++ '.' :: padded.drop point)

end Decimal

/-- An interval of reals around a value. The three numerators share one denominator. -/
structure Neighbourhood where
  low : Nat
  value : Nat
  high : Nat
  denominator : Nat
  /-- Whether the ends belong to the interval. -/
  closed : Bool

namespace Neighbourhood

/-- The reals that round to `mantissa · 2 ^ exponent`. Below a power of two the numbers are twice as close
as above it. -/
def ofFinite (mantissa : Nat) (exponent : Int) : Neighbourhood :=
  let (unit, denominator) := Binary64.quotient 1 exponent
  let narrow := mantissa = Binary64.leastFull ∧ Binary64.leastExponent < exponent
  { low := (4 * mantissa - if narrow then 1 else 2) * unit
    value := 4 * mantissa * unit
    high := (4 * mantissa + 2) * unit
    denominator := 4 * denominator
    closed := mantissa % 2 = 0 }

/-- Numerator and denominator of `10 ^ exponent`. -/
def powerOfTen : Int → Nat × Nat
  | .ofNat k => (Nat.pow 10 k, 1)
  | .negSucc k => (1, Nat.pow 10 (k + 1))

/-- Whether the decimal lies in the interval. -/
def contains (i : Neighbourhood) (d : Decimal) : Bool :=
  let (p, r) := powerOfTen d.exponent
  let point := d.digits * p * i.denominator
  if i.closed then i.low * r ≤ point && point ≤ i.high * r
  else i.low * r < point && point < i.high * r

/-- The decimal of the grid of multiples of `10 ^ exponent` to be printed, if the interval holds one. -/
def onGrid? (i : Neighbourhood) (exponent : Int) : Option Decimal :=
  let (p, r) := powerOfTen exponent
  let step := p * i.denominator
  let below : Decimal := ⟨i.value * r / step, exponent⟩
  let above : Decimal := ⟨below.digits + 1, exponent⟩
  -- Of two hits the nearer counts, and the greater at a tie.
  if i.contains below then
    if i.contains above ∧ above.digits * step - i.value * r ≤ i.value * r - below.digits * step then
      some above
    else some below
  else if i.contains above then some above
  else none

/-- The exponent of the greatest power of ten that is at most `num / den`, for a positive `num`. -/
def leadingPlace (num den : Nat) : Int :=
  if den ≤ num then (Nat.toDigits 10 (num / den)).length - 1
  else -((Nat.toDigits 10 ((den + num - 1) / num - 1)).length : Int)

/-- The digits that are enough for any number of the format. -/
def enoughDigits : Nat := 17

/-- The shortest decimal in the interval. -/
def shortest (i : Neighbourhood) : Decimal :=
  let place := leadingPlace i.value i.denominator + 1
  ((List.range (enoughDigits + 1)).findSome? fun (n : Nat) => i.onGrid? (place - n)).getD ⟨0, 0⟩

end Neighbourhood

namespace Binary64

/-- The number in writing. -/
def text : Binary64 → String
  | nan => "NaN"
  | infinite negative => (if negative then "-" else "") ++ "inf"
  | finite negative mantissa exponent =>
    (if negative then "-" else "")
      ++ if mantissa = 0 then "0" else (Neighbourhood.ofFinite mantissa exponent).shortest.text

end Binary64

end TilePuzzle
