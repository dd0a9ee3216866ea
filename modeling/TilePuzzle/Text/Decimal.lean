/-!
# Decimal integers as text

`natText` and `intText` write an integer with the fewest digits and a sign only when it is negative.
The readers accept more: leading zeros and a plus sign. What is written reads back
(`readNat?_natText`, `readInt?_intText`).
-/

namespace TilePuzzle.Text

/-- The decimal text of a natural number. -/
def natText (n : Nat) : String := String.ofList (Nat.toDigits 10 n)

/-- The decimal text of an integer. -/
def intText : Int → String
  | .ofNat n => natText n
  | .negSucc n => String.ofList ('-' :: Nat.toDigits 10 (n + 1))

/-- The number that one or more ASCII digits write. -/
def readDigits? (cs : List Char) : Option Nat :=
  if !cs.isEmpty && cs.all Char.isDigit then some (Nat.ofDigitChars 10 cs 0) else none

/-- The natural number written by digits, after a plus sign or none. -/
def readNat? (s : String) : Option Nat :=
  match s.toList with
  | '+' :: cs => readDigits? cs
  | cs => readDigits? cs

/-- The integer written by digits, after a sign or none. -/
def readInt? (s : String) : Option Int :=
  match s.toList with
  | '+' :: cs => (readDigits? cs).map Int.ofNat
  | '-' :: cs => (readDigits? cs).map fun n => -Int.ofNat n
  | cs => (readDigits? cs).map Int.ofNat

/-! ### What is written reads back -/

theorem readDigits?_toDigits (n : Nat) : readDigits? (Nat.toDigits 10 n) = some n := by
  have hne : (Nat.toDigits 10 n).isEmpty = false := by
    simp [Nat.toDigits_ne_nil]
  have hall : (Nat.toDigits 10 n).all Char.isDigit = true :=
    List.all_eq_true.2 fun _ => Nat.isDigit_of_mem_toDigits (by decide) (by decide)
  simp [readDigits?, hne, hall, Nat.ofDigitChars_toDigits]

/-- Digits start with no sign. -/
theorem toDigits_ne_cons_of_not_isDigit {n : Nat} {c : Char} {cs : List Char}
    (hc : c.isDigit = false) : Nat.toDigits 10 n ≠ c :: cs := by
  intro h
  have := Nat.isDigit_of_mem_toDigits (n := n) (b := 10) (c := c) (by decide) (by decide)
    (by simp [h])
  simp [hc] at this

theorem readNat?_natText (n : Nat) : readNat? (natText n) = some n := by
  simp only [readNat?, natText, String.toList_ofList]
  split
  · next h => exact absurd h (toDigits_ne_cons_of_not_isDigit rfl)
  · exact readDigits?_toDigits n

theorem readInt?_intText (i : Int) : readInt? (intText i) = some i := by
  cases i with
  | ofNat n =>
    simp only [readInt?, intText, natText, String.toList_ofList]
    split
    · next h => exact absurd h (toDigits_ne_cons_of_not_isDigit rfl)
    · next h => exact absurd h (toDigits_ne_cons_of_not_isDigit rfl)
    · simp [readDigits?_toDigits]
  | negSucc n =>
    simp [readInt?, intText, readDigits?_toDigits, Int.negSucc_eq]

/-! ### What is written is in digits -/

theorem isDigit_of_mem_natText {n : Nat} {c : Char} (h : c ∈ (natText n).toList) :
    c.isDigit = true := by
  rw [natText, String.toList_ofList] at h
  exact Nat.isDigit_of_mem_toDigits (by decide) (by decide) h

theorem isDigit_of_mem_intText {i : Int} {c : Char} (h : c ∈ (intText i).toList) :
    c = '-' ∨ c.isDigit = true := by
  cases i with
  | ofNat n => exact .inr (isDigit_of_mem_natText h)
  | negSucc n =>
    rw [intText, String.toList_ofList, List.mem_cons] at h
    exact h.imp_right (Nat.isDigit_of_mem_toDigits (by decide) (by decide))

end TilePuzzle.Text
