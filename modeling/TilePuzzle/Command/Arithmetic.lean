import TilePuzzle.Bounds
import TilePuzzle.Text.Blank
import TilePuzzle.Text.Lowercase

/-!
# Arithmetic and comparisons of block numbers

The number of a block is an integer of 32 bits. An operation whose exact result does not fit, and a
division by zero, have no result; nothing ever wraps around.
-/

namespace TilePuzzle

open Text (lower trim)

/-- The four operations on the number of a held block. -/
inductive Operation where
  | add
  | subtract
  | multiply
  | divide
deriving DecidableEq, Repr

namespace Operation

/-- The exact result on the integers; a quotient is truncated toward zero. -/
def integer? : Operation → Int → Int → Option Int
  | add, held, operand => some (held + operand)
  | subtract, held, operand => some (held - operand)
  | multiply, held, operand => some (held * operand)
  | divide, held, operand => if operand = 0 then none else some (Int.tdiv held operand)

/-- The result, if there is one and it fits into 32 bits. -/
def result? (op : Operation) (held operand : Int) : Option Int :=
  (op.integer? held operand).bind Bounds.int32.check

/-- The name of the operation. -/
def label : Operation → String
  | add => "add"
  | subtract => "subtract"
  | multiply => "multiply"
  | divide => "divide"

theorem result?_eq_some_iff {op : Operation} {held operand n : Int} :
    op.result? held operand = some n ↔ op.integer? held operand = some n ∧ Bounds.int32.Has n := by
  simp only [result?, Option.bind_eq_some_iff, Bounds.check_eq_some_iff]
  constructor
  · rintro ⟨_, h, rfl, hn⟩; exact ⟨h, hn⟩
  · rintro ⟨h, hn⟩; exact ⟨n, h, rfl, hn⟩

end Operation

/-- The six comparisons of two numbers. -/
inductive Comparison where
  | equal
  | unequal
  | less
  | atMost
  | greater
  | atLeast
deriving DecidableEq, Repr

namespace Comparison

/-- Whether the comparison holds between `m` on its left and `n` on its right. -/
def holds : Comparison → Int → Int → Bool
  | equal, m, n => m = n
  | unequal, m, n => m ≠ n
  | less, m, n => m < n
  | atMost, m, n => m ≤ n
  | greater, m, n => n < m
  | atLeast, m, n => n ≤ m

/-- The sign of the comparison. -/
def symbol : Comparison → String
  | equal => "=="
  | unequal => "!="
  | less => "<"
  | atMost => "<="
  | greater => ">"
  | atLeast => ">="

/-- The comparison of a sign or of a name in lowercase. -/
def ofName? : String → Option Comparison
  | "==" | "=" | "eq" | "equals" => some equal
  | "!=" | "<>" | "ne" => some unequal
  | "<" | "lt" => some less
  | "<=" | "le" => some atMost
  | ">" | "gt" => some greater
  | ">=" | "ge" => some atLeast
  | _ => none

/-- The comparison that a text names, whatever its letter case and the blanks around it. -/
def ofText? (s : String) : Option Comparison := ofName? (lower (trim s))

theorem ofName?_symbol (c : Comparison) : ofName? c.symbol = some c := by
  cases c <;> rfl

end Comparison

end TilePuzzle
