import TilePuzzle.Json.Basic

/-!
# Tokens of a JSON text

The lexer reads a list of *symbols*: characters, and gaps (`none`) for bytes that belong to no character.
A gap is allowed inside a string only, and that string then spells no text. Blanks are the space, the tab
and the two line ends, and nothing else.

Each reader of a token answers what is left of the input, which is shorter than before; `lex` recurses on
that length.
-/

namespace TilePuzzle.Json

/-- A character, or a gap in the place of a byte that belongs to none. -/
abbrev Symbol := Option Char

/-- The blanks between tokens. -/
def isSpace (s : Symbol) : Bool := s = some ' ' || s = some '\t' || s = some '\n' || s = some '\r'

/-! ### Numbers -/

/-- Whether the symbol is an ASCII digit. -/
def isDigit (s : Symbol) : Bool := s.any Char.isDigit

/-- The digits in front. -/
def digits (input : List Symbol) : List Char := (input.takeWhile isDigit).filterMap id

/-- What follows the digits in front. -/
def afterDigits (input : List Symbol) : List Symbol := input.dropWhile isDigit

/-- What follows the fraction in front, and whether there is one; `none` if digits are missing. -/
def fraction? : List Symbol → Option (Bool × List Symbol)
  | some '.' :: rest => if (digits rest).isEmpty then none else some (true, afterDigits rest)
  | input => some (false, input)

/-- The input without the sign of an exponent. -/
def dropSign : List Symbol → List Symbol
  | some '+' :: rest => rest
  | some '-' :: rest => rest
  | input => input

/-- What follows the exponent in front, and whether there is one; `none` if digits are missing. -/
def exponent? : List Symbol → Option (Bool × List Symbol)
  | some 'e' :: rest | some 'E' :: rest =>
    let rest := dropSign rest
    if (digits rest).isEmpty then none else some (true, afterDigits rest)
  | input => some (false, input)

/-- Whether digits may stand before the point: at least one, and a zero only alone. -/
def isWhole : List Char → Bool
  | [] => false
  | ['0'] => true
  | c :: _ => c ≠ '0'

/-- The number in front without its sign, which is an integer if it has neither fraction nor
exponent. -/
def unsigned? (input : List Symbol) : Option (Option Nat × List Symbol) := do
  let whole := digits input
  if isWhole whole then
    let (hasFraction, rest) ← fraction? (afterDigits input)
    let (hasExponent, rest) ← exponent? rest
    let value := Nat.ofDigitChars 10 whole 0
    pure (if hasFraction || hasExponent then none else some value, rest)
  else none

/-- The negative of a natural number; minus zero is not written as an integer. -/
def negated : Option Nat → Option Int
  | some (n + 1) => some (.negSucc n)
  | _ => none

/-- The number in front. -/
def number? : List Symbol → Option (Option Int × List Symbol)
  | some '-' :: rest => (unsigned? rest).map fun (n, rest) => (negated n, rest)
  | input => (unsigned? input).map fun (n, rest) => (n.map Int.ofNat, rest)

/-! ### Strings -/

/-- What one part of a string spells: a character, a UTF-16 unit written by its number, or nothing. -/
inductive Piece where
  | char (c : Char)
  | unit (n : Nat)
  | gap
deriving DecidableEq, Repr

/-- The value of a hexadecimal digit. -/
def hexDigit? : Symbol → Option Nat
  | none => none
  | some c =>
    if c.isDigit then some (c.toNat - '0'.toNat)
    else if 'a' ≤ c ∧ c ≤ 'f' then some (c.toNat - 'a'.toNat + 10)
    else if 'A' ≤ c ∧ c ≤ 'F' then some (c.toNat - 'A'.toNat + 10)
    else none

/-- The number that four hexadecimal digits write. -/
def hex4? (a b c d : Symbol) : Option Nat := do
  pure ((((← hexDigit? a) * 16 + (← hexDigit? b)) * 16 + (← hexDigit? c)) * 16 + (← hexDigit? d))

/-- The part that an escape spells, read after its backslash, and what follows it. -/
def escape? : List Symbol → Option (Piece × List Symbol)
  | some 'u' :: a :: b :: c :: d :: rest => (hex4? a b c d).map fun n => (.unit n, rest)
  | some '"' :: rest => some (.char '"', rest)
  | some '\\' :: rest => some (.char '\\', rest)
  | some '/' :: rest => some (.char '/', rest)
  | some 'b' :: rest => some (.char '\x08', rest)
  | some 'f' :: rest => some (.char '\x0c', rest)
  | some 'n' :: rest => some (.char '\n', rest)
  | some 'r' :: rest => some (.char '\r', rest)
  | some 't' :: rest => some (.char '\t', rest)
  | _ => none

theorem length_escape? {input rest : List Symbol} {p : Piece} (h : escape? input = some (p, rest)) :
    rest.length < input.length := by
  unfold escape? at h
  split at h
  · obtain ⟨n, _, hn⟩ := Option.map_eq_some_iff.1 h
    cases hn
    simp only [List.length_cons]; omega
  all_goals first
    | (cases h; simp only [List.length_cons]; omega)
    | cases h

/-- The parts of a string up to its closing quote, and what follows the quote. Control characters have
to be escaped. -/
def pieces? (input : List Symbol) : Option (List Piece × List Symbol) :=
  match input with
  | [] => none
  | none :: rest => (pieces? rest).map fun (ps, r) => (.gap :: ps, r)
  | some c :: rest =>
    if c = '"' then some ([], rest)
    else if c = '\\' then
      match _h : escape? rest with
      | none => none
      | some (p, rest') => (pieces? rest').map fun (ps, r) => (p :: ps, r)
    else if c.toNat < 0x20 then none
    else (pieces? rest).map fun (ps, r) => (.char c :: ps, r)
termination_by input.length
decreasing_by
  · simp
  · have := length_escape? ‹escape? rest = some _›
    simp only [List.length_cons]; omega
  · simp

/-- The characters that the parts spell. A high surrogate and the low one right after it are one
character; any other surrogate spells nothing. -/
def spell? : List Piece → Option (List Char)
  | [] => some []
  | .char c :: rest => (spell? rest).map (c :: ·)
  | .gap :: _ => none
  | .unit n :: rest =>
    if 0xD800 ≤ n ∧ n < 0xDC00 then
      match rest with
      | .unit m :: rest =>
        if 0xDC00 ≤ m ∧ m < 0xE000 then
          (spell? rest).map (Char.ofNat (0x10000 + (n - 0xD800) * 0x400 + (m - 0xDC00)) :: ·)
        else none
      | _ => none
    else if 0xDC00 ≤ n ∧ n < 0xE000 then none
    else (spell? rest).map (Char.ofNat n :: ·)

/-- The text of a string whose opening quote has been read, and what follows it. -/
def string? (input : List Symbol) : Option (Option String × List Symbol) :=
  (pieces? input).map fun (ps, rest) => ((spell? ps).map String.ofList, rest)

/-! ### All tokens -/

/-- The token in front of an input that starts with no blank, and what follows it. -/
def token? (input : List Symbol) : Option (Token × List Symbol) :=
  match input with
  | some '\x7b' :: rest => some (.openBrace, rest)
  | some '\x7d' :: rest => some (.closeBrace, rest)
  | some '[' :: rest => some (.openBracket, rest)
  | some ']' :: rest => some (.closeBracket, rest)
  | some ':' :: rest => some (.colon, rest)
  | some ',' :: rest => some (.comma, rest)
  | some '"' :: rest => (string? rest).map fun (s, rest) => (.string s, rest)
  | some 'n' :: some 'u' :: some 'l' :: some 'l' :: rest => some (.null, rest)
  | some 't' :: some 'r' :: some 'u' :: some 'e' :: rest => some (.bool true, rest)
  | some 'f' :: some 'a' :: some 'l' :: some 's' :: some 'e' :: rest => some (.bool false, rest)
  | input => (number? input).map fun (n, rest) => (.number n, rest)

/-! ### What is left is shorter -/

theorem length_pieces? {input rest : List Symbol} {ps : List Piece}
    (h : pieces? input = some (ps, rest)) : rest.length < input.length := by
  fun_induction pieces? input generalizing ps rest with
  | case1 => cases h
  | case2 r ih =>
    obtain ⟨⟨qs, s⟩, hq, he⟩ := Option.map_eq_some_iff.1 h
    cases he
    have := ih hq
    simp only [List.length_cons]; omega
  | case3 r => cases h; simp
  | case4 => cases h
  | case5 =>
    rename_i ih
    obtain ⟨⟨qs, s⟩, hq, he⟩ := Option.map_eq_some_iff.1 h
    cases he
    have := ih hq
    have := length_escape? ‹escape? _ = some _›
    simp only [List.length_cons]; omega
  | case6 => cases h
  | case7 c r _ _ _ ih =>
    obtain ⟨⟨qs, s⟩, hq, he⟩ := Option.map_eq_some_iff.1 h
    cases he
    have := ih hq
    simp only [List.length_cons]; omega

theorem length_afterDigits_le (input : List Symbol) :
    (afterDigits input).length ≤ input.length := (List.dropWhile_sublist _).length_le

theorem length_afterDigits_lt {input : List Symbol} (h : (digits input).isEmpty = false) :
    (afterDigits input).length < input.length := by
  cases input with
  | nil => simp [digits] at h
  | cons c rest =>
    cases hc : isDigit c with
    | false => simp [digits, hc] at h
    | true =>
      have := length_afterDigits_le rest
      simp only [afterDigits, List.dropWhile_cons, hc, List.length_cons] at this ⊢
      simp only [if_true]; omega

theorem length_fraction? {input rest : List Symbol} {b : Bool}
    (h : fraction? input = some (b, rest)) : rest.length ≤ input.length := by
  unfold fraction? at h
  split at h
  · next r =>
    split at h
    · cases h
    · cases h
      have := length_afterDigits_le r
      simp only [List.length_cons]; omega
  · cases h; exact Nat.le_refl _

theorem length_dropSign (input : List Symbol) : (dropSign input).length ≤ input.length := by
  unfold dropSign
  split <;> simp

theorem length_exponent? {input rest : List Symbol} {b : Bool}
    (h : exponent? input = some (b, rest)) : rest.length ≤ input.length := by
  have key : ∀ r : List Symbol,
      (if (digits (dropSign r)).isEmpty then none
        else some (true, afterDigits (dropSign r))) = some (b, rest) → rest.length ≤ r.length := by
    intro r hr
    split at hr
    · cases hr
    · cases hr
      exact Nat.le_trans (length_afterDigits_le _) (length_dropSign _)
  unfold exponent? at h
  split at h
  · next r => exact Nat.le_succ_of_le (key r h)
  · next r => exact Nat.le_succ_of_le (key r h)
  · cases h; exact Nat.le_refl _

theorem length_unsigned? {input rest : List Symbol} {n : Option Nat}
    (h : unsigned? input = some (n, rest)) : rest.length < input.length := by
  unfold unsigned? at h
  simp only at h
  split at h
  · next hw =>
    obtain ⟨⟨f, r⟩, hf, h⟩ := Option.bind_eq_some_iff.1 h
    obtain ⟨⟨e, r'⟩, he, h⟩ := Option.bind_eq_some_iff.1 h
    cases h
    have hd : (digits input).isEmpty = false := by
      cases hc : digits input with
      | nil => simp [hc, isWhole] at hw
      | cons => rfl
    have := length_afterDigits_lt hd
    have := length_fraction? hf
    have := length_exponent? he
    simp only at *
    omega
  · cases h

theorem length_number? {input rest : List Symbol} {n : Option Int}
    (h : number? input = some (n, rest)) : rest.length < input.length := by
  unfold number? at h
  split at h <;> obtain ⟨⟨m, r⟩, hm, he⟩ := Option.map_eq_some_iff.1 h <;> cases he
  · exact Nat.lt_succ_of_lt (length_unsigned? hm)
  · exact length_unsigned? hm

theorem length_token? {input rest : List Symbol} {t : Token} (h : token? input = some (t, rest)) :
    rest.length < input.length := by
  unfold token? at h
  split at h
  case h_7 r =>
    obtain ⟨⟨s, r'⟩, hs, he⟩ := Option.map_eq_some_iff.1 h
    cases he
    obtain ⟨⟨ps, r''⟩, hp, he⟩ := Option.map_eq_some_iff.1 hs
    cases he
    exact Nat.lt_succ_of_lt (length_pieces? hp)
  case h_11 =>
    obtain ⟨⟨n, r⟩, hn, he⟩ := Option.map_eq_some_iff.1 h
    cases he
    exact length_number? hn
  all_goals
    cases h
    simp only [List.length_cons]
    omega

/-- The tokens of a JSON text. -/
def lex (input : List Symbol) : Option (List Token) :=
  match input with
  | [] => some []
  | c :: rest =>
    if isSpace c then lex rest
    else
      match _h : token? (c :: rest) with
      | none => none
      | some (t, rest') => (lex rest').map (t :: ·)
termination_by input.length
decreasing_by
  · simp
  · exact length_token? ‹token? (c :: rest) = some _›

end TilePuzzle.Json
