/-!
# Binary floating point

A finite `Binary64` is `mantissa · 2 ^ exponent` with a mantissa below `2 ^ 53`; beside the finite
numbers stand two infinities and "not a number". `ofQuotient` is the one way to make one: it rounds an
exact quotient to the nearest number of the format, and a quotient half-way between two to the one with
the even mantissa. Rounding itself is `roundQuotient`, which is never off by more than a half.
-/

namespace TilePuzzle

/-- A number of the binary format of 64 bits. -/
inductive Binary64 where
  | nan
  | infinite (negative : Bool)
  | finite (negative : Bool) (mantissa : Nat) (exponent : Int)
deriving DecidableEq, Repr, Inhabited

namespace Binary64

/-- The exponent of the numbers nearest to zero. -/
def leastExponent : Int := -1074

/-- The exponent of the greatest finite numbers. -/
def greatestExponent : Int := 971

/-- The least mantissa of 53 binary digits. Only numbers of the least exponent have a smaller one. -/
def leastFull : Nat := 4503599627370496

/-- The quotient of two naturals, rounded to the nearest natural; a half goes to the even one. -/
def roundQuotient (num den : Nat) : Nat :=
  let whole := num / den
  let rest := num % den
  if 2 * rest < den then whole
  else if den < 2 * rest then whole + 1
  else if whole % 2 = 0 then whole
  else whole + 1

theorem roundQuotient_near (num : Nat) {den : Nat} (h : 0 < den) :
    den * roundQuotient num den * 2 ≤ 2 * num + den ∧ 2 * num ≤ den * roundQuotient num den * 2 + den := by
  have hsum : den * (num / den) + num % den = num := Nat.div_add_mod num den
  have hrest : num % den < den := Nat.mod_lt _ h
  simp only [roundQuotient]
  generalize num / den = whole at *
  generalize num % den = rest at *
  split
  · omega
  · split
    · rw [Nat.mul_add]; omega
    · split
      · omega
      · rw [Nat.mul_add]; omega

/-- Numerator and denominator of `num / den / 2 ^ exponent`. -/
def scale (num den : Nat) : Int → Nat × Nat
  | .ofNat k => (num, den <<< k)
  | .negSucc k => (num <<< (k + 1), den)

/-- The exponent of the greatest power of two that is at most `num / den`. -/
def magnitude (num den : Nat) : Int :=
  let guess := (num.log2 : Int) - den.log2
  let (n, d) := scale num den guess
  if d ≤ n then guess else guess - 1

/-- The number nearest to `num / den`, with the given sign. -/
def ofQuotient (negative : Bool) (num den : Nat) : Binary64 :=
  if num = 0 then .finite negative 0 leastExponent
  else
    let exponent := max (magnitude num den - 52) leastExponent
    let (n, d) := scale num den exponent
    let mantissa := roundQuotient n d
    -- Rounding up may fill the mantissa with one digit too many.
    let (mantissa, exponent) :=
      if mantissa = 2 * leastFull then (leastFull, exponent + 1) else (mantissa, exponent)
    if greatestExponent < exponent then .infinite negative
    else .finite negative mantissa exponent

/-- Numerator and denominator of the size of a finite number. -/
def quotient (mantissa : Nat) (exponent : Int) : Nat × Nat := scale mantissa 1 (-exponent)

end Binary64

end TilePuzzle
