import TilePuzzle.Binary64.Basic
import TilePuzzle.Text.Decimal

/-!
# Decimal numerals

How a number with a fraction is written: a sign or none, digits with a point or none, and an exponent or
none; or a word for an infinity or for "not a number", in any letter case. `Numeral.round` gives the
binary number that is nearest to what a numeral writes.
-/

namespace TilePuzzle

open Text (readDigits?)

/-- What a numeral writes; a decimal is `digits · 10 ^ exponent`. -/
inductive Numeral where
  | nan
  | infinity (negative : Bool)
  | decimal (negative : Bool) (digits : Nat) (exponent : Int)
deriving DecidableEq, Repr

namespace Numeral

/-- The exponent after the letter `e`: digits, after a sign or none. -/
def readExponent? : List Char → Option Int
  | '-' :: cs => (readDigits? cs).map fun n => -Int.ofNat n
  | '+' :: cs => (readDigits? cs).map Int.ofNat
  | cs => (readDigits? cs).map Int.ofNat

/-- A decimal without its sign: digits on at least one side of the point, then the exponent. -/
def readDecimal? (negative : Bool) (cs : List Char) : Option Numeral := do
  let whole := cs.takeWhile Char.isDigit
  let (fraction, rest) :=
    match cs.dropWhile Char.isDigit with
    | '.' :: cs => (cs.takeWhile Char.isDigit, cs.dropWhile Char.isDigit)
    | cs => ([], cs)
  let digits ← readDigits? (whole ++ fraction)
  let exponent ←
    match rest with
    | [] => some 0
    | 'e' :: cs | 'E' :: cs => readExponent? cs
    | _ => none
  return .decimal negative digits (exponent - fraction.length)

/-- A numeral without its sign. -/
def readUnsigned? (negative : Bool) (cs : List Char) : Option Numeral :=
  match String.ofList (cs.map Char.toLower) with
  | "nan" => some .nan
  | "inf" | "infinity" => some (.infinity negative)
  | _ => readDecimal? negative cs

/-- The numeral that a text is. -/
def ofText? (s : String) : Option Numeral :=
  match s.toList with
  | '-' :: cs => readUnsigned? true cs
  | '+' :: cs => readUnsigned? false cs
  | cs => readUnsigned? false cs

/-- Sizes of at least `10 ^ farthest` round to an infinity, sizes below `10 ^ -farthest` to zero. -/
def farthest : Int := 400

/-- The binary number nearest to what the numeral writes. -/
def round : Numeral → Binary64
  | nan => .nan
  | infinity negative => .infinite negative
  | decimal negative digits exponent =>
    -- Powers of ten are only computed for sizes near those of the format.
    let size := (Nat.toDigits 10 digits).length + exponent
    if farthest < size then .ofQuotient negative (if digits = 0 then 0 else Nat.pow 10 farthest.toNat) 1
    else if size < -farthest then .ofQuotient negative 0 1
    else
      match exponent with
      | .ofNat k => .ofQuotient negative (digits * Nat.pow 10 k) 1
      | .negSucc k => .ofQuotient negative digits (Nat.pow 10 (k + 1))

end Numeral

/-- The binary number nearest to what a text writes, if it is a numeral. -/
def Binary64.ofText? (s : String) : Option Binary64 := (Numeral.ofText? s).map Numeral.round

end TilePuzzle
