/-!
# Bounds of integers

Integers are unbounded in the rules of the game. Where a file, a parameter or an argument gives one, it
has to lie within the bounds of a machine word; `Bounds` names those bounds. The number of a block is
checked against them, and the time left is cut off where they end.

What a run counts is exact: its ticks and its score, what is left of its budget, the bonuses of a win and
their total. A result that lies outside of the bounds is not wrapped around to a word. In
`TilePuzzle.Proofs.Engine.Words` it is shown when words of 64 bits hold the score, what is left and the
bonuses.
-/

namespace TilePuzzle

/-- A closed range of integers. -/
structure Bounds where
  least : Int
  greatest : Int

namespace Bounds

/-- The integers of 32 bits with a sign. -/
def int32 : Bounds := ⟨-2147483648, 2147483647⟩

/-- The integers of 64 bits with a sign. -/
def int64 : Bounds := ⟨-9223372036854775808, 9223372036854775807⟩

/-- The integers of 32 bits without a sign. -/
def nat32 : Bounds := ⟨0, 4294967295⟩

/-- The integers of 64 bits without a sign. -/
def nat64 : Bounds := ⟨0, 18446744073709551615⟩

/-- `n` lies within the bounds. -/
def Has (b : Bounds) (n : Int) : Prop := b.least ≤ n ∧ n ≤ b.greatest

instance (b : Bounds) (n : Int) : Decidable (b.Has n) := inferInstanceAs (Decidable (_ ∧ _))

/-- `n`, unless it lies outside the bounds. -/
def check (b : Bounds) (n : Int) : Option Int := if b.Has n then some n else none

/-- The integer within the bounds that is nearest to `n`. -/
def clamp (b : Bounds) (n : Int) : Int := max b.least (min n b.greatest)

theorem check_eq_some_iff {b : Bounds} {m n : Int} : b.check m = some n ↔ m = n ∧ b.Has n := by
  unfold check
  split
  · next h =>
    constructor
    · rintro ⟨⟩; exact ⟨rfl, h⟩
    · rintro ⟨rfl, _⟩; rfl
  · next h =>
    constructor
    · rintro ⟨⟩
    · rintro ⟨rfl, h'⟩; exact absurd h' h

end Bounds

end TilePuzzle
