/-!
# Blank characters

A character is *blank* when it has the Unicode property `White_Space`: the five controls from tab to
carriage return, the space, and nineteen more. The zero-width space, the byte-order mark and the
separators U+001C–U+001F are not blank.

Two readings of a word use the property: `trim` drops the blanks at both ends, `squeeze` drops them
everywhere.
-/

namespace TilePuzzle.Text

/-- The `White_Space` property of Unicode. -/
def isBlank (c : Char) : Bool :=
  let n := c.toNat
  (0x09 ≤ n && n ≤ 0x0D) || n == 0x20 || n == 0x85 || n == 0xA0 || n == 0x1680
    || (0x2000 ≤ n && n ≤ 0x200A) || n == 0x2028 || n == 0x2029 || n == 0x202F
    || n == 0x205F || n == 0x3000

/-- `cs` without the blanks at its ends. -/
def trimChars (cs : List Char) : List Char :=
  ((cs.dropWhile isBlank).reverse.dropWhile isBlank).reverse

/-- `s` without the blanks at its ends. -/
def trim (s : String) : String := String.ofList (trimChars s.toList)

/-- `s` without any blank. -/
def squeeze (s : String) : String := String.ofList (s.toList.filter (!isBlank ·))

@[simp] theorem toList_squeeze (s : String) :
    (squeeze s).toList = s.toList.filter (!isBlank ·) := by
  simp [squeeze]

theorem not_isBlank_of_mem_squeeze {s : String} {c : Char} (h : c ∈ (squeeze s).toList) :
    isBlank c = false := by
  have hc := (List.mem_filter.1 (toList_squeeze s ▸ h)).2
  cases hb : isBlank c
  · rfl
  · simp [hb] at hc

end TilePuzzle.Text
