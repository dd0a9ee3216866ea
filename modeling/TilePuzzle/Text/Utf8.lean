/-!
# Reading UTF-8

`decode` reads bytes as characters. A byte that is no part of a well-formed sequence does not end the
reading: it becomes a gap, `none`, and the reading goes on with the next byte. So bytes are well-formed
UTF-8 exactly when no gap appears.
-/

namespace TilePuzzle.Text

/-- A continuation byte carries six bits. -/
def continuation? (b : UInt8) : Option Nat :=
  if 0x80 ≤ b.toNat && b.toNat ≤ 0xBF then some (b.toNat - 0x80) else none

/-- The number that the six-bit groups of continuation bytes extend. -/
def extend (n : Nat) (groups : List Nat) : Nat := groups.foldl (fun n g => n * 64 + g) n

/-- The character with the code point `n`. There is none when `n` is below `least`, because then fewer
bytes would do, nor when `n` is a surrogate or lies beyond Unicode. -/
def scalar? (least n : Nat) : Option Char :=
  if least ≤ n ∧ n.isValidChar then some (Char.ofNat n) else none

/-- The character whose encoding starts the bytes, and how many bytes after the first it takes. -/
def sequence? (b : UInt8) (rest : List UInt8) : Option (Char × Nat) :=
  let n := b.toNat
  let tail (length least bits : Nat) : Option (Char × Nat) := do
    let groups ← (rest.take length).mapM continuation?
    if groups.length = length then
      let c ← scalar? least (extend bits groups)
      pure (c, length)
    else none
  if n < 0x80 then (scalar? 0 n).map (·, 0)
  else if 0xC0 ≤ n && n < 0xE0 then tail 1 0x80 (n - 0xC0)
  else if 0xE0 ≤ n && n < 0xF0 then tail 2 0x800 (n - 0xE0)
  else if 0xF0 ≤ n && n < 0xF8 then tail 3 0x10000 (n - 0xF0)
  else none

/-- The characters of the bytes, with a gap for each byte that belongs to none. -/
def decode : List UInt8 → List (Option Char)
  | [] => []
  | b :: rest =>
    match sequence? b rest with
    | some (c, length) => some c :: decode (rest.drop length)
    | none => none :: decode rest
termination_by bytes => bytes.length
decreasing_by
  · simp only [List.length_drop, List.length_cons]; omega
  · simp

end TilePuzzle.Text
