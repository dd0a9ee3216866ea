import TilePuzzle.Json.Lexer

/-!
# Renderings of tokens

The lexer is a function, and its reverse is not one: a number may have leading minus, fraction and
exponent, a character of a string may be escaped or not, and blanks stand between tokens as one
likes. `Renders ts cs` says that the characters `cs` write the tokens `ts` in any of these ways.

The blanks may be missing. A text without any can be read in one way only, because nothing that may
follow a number goes on like a number. So two numbers that are neighbours are the one thing that the
reverse relation leaves open, and `lex_of_renders` asks that there are none.
-/

namespace TilePuzzle.Json

/-! ## The relation -/

/-- Digits, at least one. -/
def IsDigits (cs : List Char) : Prop := cs ≠ [] ∧ ∀ c ∈ cs, c.isDigit = true

/-- A fraction, or none. -/
inductive IsFraction : Bool → List Char → Prop
  | absent : IsFraction false []
  | present {ds : List Char} : IsDigits ds → IsFraction true ('.' :: ds)

/-- An exponent, or none. -/
inductive IsExponent : Bool → List Char → Prop
  | absent : IsExponent false []
  | present {mark : Char} {sign ds : List Char} : mark ∈ ['e', 'E'] → sign ∈ [[], ['+'], ['-']] →
      IsDigits ds → IsExponent true (mark :: (sign ++ ds))

/-- A number. It is an integer if it has no fraction and no exponent, and is not minus zero. -/
inductive IsNumber : Option Int → List Char → Prop
  | plain {whole fraction exponent : List Char} {b b' : Bool} : IsDigits whole →
      (whole = ['0'] ∨ whole.head? ≠ some '0') → IsFraction b fraction → IsExponent b' exponent →
      IsNumber (if b || b' then none else some (Nat.ofDigitChars 10 whole 0))
        (whole ++ fraction ++ exponent)
  | minus {whole fraction exponent : List Char} {b b' : Bool} : IsDigits whole →
      (whole = ['0'] ∨ whole.head? ≠ some '0') → IsFraction b fraction → IsExponent b' exponent →
      IsNumber (if b || b' || Nat.ofDigitChars 10 whole 0 = 0 then none
        else some (-(Nat.ofDigitChars 10 whole 0 : Nat)))
        ('-' :: (whole ++ fraction ++ exponent))

/-- The characters that have an escape of two characters, with the second of them. -/
def escapes : List (Char × Char) :=
  [('"', '"'), ('\\', '\\'), ('/', '/'), ('\x08', 'b'), ('\x0c', 'f'), ('\n', 'n'), ('\r', 'r'),
    ('\t', 't')]

/-- A part of a string. -/
inductive IsPiece : Piece → List Char → Prop
  | plain {c : Char} : 0x20 ≤ c.toNat → c ≠ '"' → c ≠ '\\' → IsPiece (.char c) [c]
  | escape {c e : Char} : (c, e) ∈ escapes → IsPiece (.char c) ['\\', e]
  | unit {a b c d : Char} {n : Nat} : hex4? a b c d = some n →
      IsPiece (.unit n) ['\\', 'u', a, b, c, d]

/-- The parts of a string. -/
inductive ArePieces : List Piece → List Char → Prop
  | nil : ArePieces [] []
  | cons {p : Piece} {ps : List Piece} {cs rest : List Char} : IsPiece p cs → ArePieces ps rest →
      ArePieces (p :: ps) (cs ++ rest)

/-- A token. -/
inductive Token.Renders : Token → List Char → Prop
  | openBrace : Renders .openBrace ['\x7b']
  | closeBrace : Renders .closeBrace ['\x7d']
  | openBracket : Renders .openBracket ['[']
  | closeBracket : Renders .closeBracket [']']
  | colon : Renders .colon [':']
  | comma : Renders .comma [',']
  | null : Renders .null ['n', 'u', 'l', 'l']
  | bool_true : Renders (.bool true) ['t', 'r', 'u', 'e']
  | bool_false : Renders (.bool false) ['f', 'a', 'l', 's', 'e']
  | number {n : Option Int} {cs : List Char} : IsNumber n cs → Renders (.number n) cs
  | string {ps : List Piece} {cs : List Char} : ArePieces ps cs →
      Renders (.string ((spell? ps).map String.ofList)) ('"' :: (cs ++ ['"']))

/-- A run of blanks, possibly empty. -/
def AreBlanks (cs : List Char) : Prop := ∀ c ∈ cs, isSpace (some c) = true

/-- Tokens with blanks around them. -/
inductive Renders : List Token → List Char → Prop
  | nil {blanks : List Char} : AreBlanks blanks → Renders [] blanks
  | cons {t : Token} {ts : List Token} {blanks cs rest : List Char} : AreBlanks blanks →
      t.Renders cs → Renders ts rest → Renders (t :: ts) (blanks ++ (cs ++ rest))

/-- The token is a number. -/
def Token.IsNumber : Token → Prop
  | number _ => True
  | _ => False

/-- No two numbers are neighbours. -/
def Separate : List Token → Prop
  | [] => True
  | t :: ts => (t.IsNumber → ∀ u ∈ ts.head?, ¬u.IsNumber) ∧ Separate ts

/-! ## Numbers -/

variable {cs ds whole fraction exponent : List Char} {input rest : List Symbol} {b b' : Bool}

/-- The input does not go on like a number. -/
def Stops (input : List Symbol) : Prop :=
  ∀ s ∈ input.head?, isDigit s = false ∧ s ≠ some '.' ∧ s ≠ some 'e' ∧ s ≠ some 'E'

theorem takeWhile_of_head {p : Symbol → Bool} (h : ∀ s ∈ rest.head?, p s = false) :
    rest.takeWhile p = [] := by
  cases rest with
  | nil => rfl
  | cons s rest => exact List.takeWhile_cons_of_neg (by simp [h s rfl])

theorem dropWhile_of_head {p : Symbol → Bool} (h : ∀ s ∈ rest.head?, p s = false) :
    rest.dropWhile p = rest := by
  cases rest with
  | nil => rfl
  | cons s rest => exact List.dropWhile_cons_of_neg (by simp [h s rfl])

section Digits

variable (hds : ∀ c ∈ ds, c.isDigit = true) (hrest : ∀ s ∈ rest.head?, isDigit s = false)

include hds hrest

theorem digits_append : digits (ds.map some ++ rest) = ds := by
  have hall : ∀ s ∈ ds.map some, isDigit s = true := by
    simpa [isDigit] using hds
  rw [digits, List.takeWhile_append_of_pos hall, takeWhile_of_head hrest, List.append_nil,
    List.filterMap_map]
  exact List.filterMap_some

theorem afterDigits_append : afterDigits (ds.map some ++ rest) = rest := by
  have hall : ∀ s ∈ ds.map some, isDigit s = true := by
    simpa [isDigit] using hds
  rw [afterDigits, List.dropWhile_append_of_pos hall, dropWhile_of_head hrest]

end Digits

theorem IsDigits.isEmpty (h : IsDigits ds) : ds.isEmpty = false := by
  simpa using h.1

theorem fraction?_append (h : IsFraction b fraction)
    (hrest : ∀ s ∈ rest.head?, isDigit s = false ∧ s ≠ some '.') :
    fraction? (fraction.map some ++ rest) = some (b, rest) := by
  cases h with
  | absent =>
      unfold fraction?
      split
      · next r heq =>
          rw [List.map_nil, List.nil_append] at heq
          exact absurd rfl (hrest (some '.') (by rw [heq]; rfl)).2
      · rfl
  | present hds =>
      have hdigits := digits_append hds.2 fun s hs => (hrest s hs).1
      have hafter := afterDigits_append hds.2 fun s hs => (hrest s hs).1
      simp only [List.map_cons, List.cons_append, fraction?, hdigits, hafter, hds.isEmpty]
      rfl

theorem dropSign_append {sign : List Char} (hsign : sign ∈ [[], ['+'], ['-']]) (hds : IsDigits ds)
    (rest : List Symbol) : dropSign ((sign ++ ds).map some ++ rest) = ds.map some ++ rest := by
  obtain ⟨c, ds, rfl⟩ := List.exists_cons_of_ne_nil hds.1
  have hc : c.isDigit = true := hds.2 c List.mem_cons_self
  simp only [List.mem_cons, List.not_mem_nil, or_false] at hsign
  rcases hsign with rfl | rfl | rfl
  · -- Without a sign the first digit stays, as it is no sign itself.
    simp only [List.nil_append, List.map_cons, List.cons_append]
    unfold dropSign
    split
    · next heq => cases heq; cases hc
    · next heq => cases heq; cases hc
    · rfl
  · rfl
  · rfl

theorem exponent?_append (h : IsExponent b exponent) (hrest : Stops rest) :
    exponent? (exponent.map some ++ rest) = some (b, rest) := by
  cases h with
  | absent =>
      -- What follows must not be taken for the mark of an exponent.
      rw [List.map_nil, List.nil_append]
      unfold exponent?
      split
      · exact absurd rfl (hrest _ rfl).2.2.1
      · exact absurd rfl (hrest _ rfl).2.2.2
      · rfl
  | @present mark sign ds hmark hsign hds =>
      have hstop : ∀ s ∈ rest.head?, isDigit s = false := fun s hs => (hrest s hs).1
      simp only [List.mem_cons, List.not_mem_nil, or_false] at hmark
      rcases hmark with rfl | rfl <;>
        simp only [List.map_cons, List.cons_append, exponent?, dropSign_append hsign hds,
          digits_append hds.2 hstop, afterDigits_append hds.2 hstop, hds.isEmpty] <;> rfl

theorem head_exponent (h : IsExponent b exponent) (hrest : Stops rest) :
    ∀ s ∈ (exponent.map some ++ rest).head?, isDigit s = false ∧ s ≠ some '.' := by
  cases h with
  | absent => exact fun s hs => ⟨(hrest s hs).1, (hrest s hs).2.1⟩
  | present hmark _ _ =>
      rintro s ⟨⟩
      simp only [List.mem_cons, List.not_mem_nil, or_false] at hmark
      rcases hmark with rfl | rfl <;> exact ⟨rfl, by decide⟩

theorem head_fraction (h : IsFraction b fraction)
    (hrest : ∀ s ∈ rest.head?, isDigit s = false ∧ s ≠ some '.') :
    ∀ s ∈ (fraction.map some ++ rest).head?, isDigit s = false := by
  cases h with
  | absent => exact fun s hs => (hrest s hs).1
  | present _ =>
      rintro s ⟨⟩
      rfl

theorem isWhole_eq_true (hw : IsDigits whole) (hz : whole = ['0'] ∨ whole.head? ≠ some '0') :
    isWhole whole = true := by
  obtain ⟨c, rest, rfl⟩ := List.exists_cons_of_ne_nil hw.1
  unfold isWhole
  split
  · next heq => cases heq
  · rfl
  · next hne heq =>
      cases heq
      rcases hz with hzero | hhead
      · cases hzero
        exact absurd rfl (hne rfl)
      · simpa using hhead

theorem unsigned?_append (hw : IsDigits whole) (hz : whole = ['0'] ∨ whole.head? ≠ some '0')
    (hf : IsFraction b fraction) (he : IsExponent b' exponent) (hrest : Stops rest) :
    unsigned? ((whole ++ fraction ++ exponent).map some ++ rest)
      = some (if b || b' then none else some (Nat.ofDigitChars 10 whole 0), rest) := by
  have hexponent := head_exponent he hrest
  have hhead := head_fraction hf hexponent
  rw [List.map_append, List.map_append, List.append_assoc, List.append_assoc]
  simp only [unsigned?, digits_append hw.2 hhead, afterDigits_append hw.2 hhead,
    isWhole_eq_true hw hz, if_true, fraction?_append hf hexponent, exponent?_append he hrest,
    Option.bind_eq_bind, Option.bind_some]
  rfl

theorem number?_append {n : Option Int} (h : IsNumber n cs) (hrest : Stops rest) :
    number? (cs.map some ++ rest) = some (n, rest) := by
  cases h with
  | @plain whole fraction exponent b b' hw hz hf he =>
      obtain ⟨c, ds, rfl⟩ := List.exists_cons_of_ne_nil hw.1
      have hc : c.isDigit = true := hw.2 c List.mem_cons_self
      have hvalue := unsigned?_append hw hz hf he hrest
      unfold number?
      split
      · next heq =>
          cases heq
          cases hc
      · rw [hvalue]
        split <;> rfl
  | @minus whole fraction exponent b b' hw hz hf he =>
      have hvalue := unsigned?_append hw hz hf he hrest
      rw [List.map_cons, List.cons_append, number?, hvalue, Option.map_some]
      generalize Nat.ofDigitChars 10 whole 0 = n
      cases b || b' with
      | true => rfl
      | false => cases n <;> rfl

/-! ## Strings -/

theorem escape?_cons {c e : Char} (h : (c, e) ∈ escapes) (rest : List Symbol) :
    escape? (some e :: rest) = some (.char c, rest) := by
  simp only [escapes, List.mem_cons, Prod.mk.injEq, List.not_mem_nil, or_false] at h
  rcases h with ⟨rfl, rfl⟩ | ⟨rfl, rfl⟩ | ⟨rfl, rfl⟩ | ⟨rfl, rfl⟩ | ⟨rfl, rfl⟩ | ⟨rfl, rfl⟩ |
    ⟨rfl, rfl⟩ | ⟨rfl, rfl⟩ <;> rfl

theorem pieces?_escape {p : Piece} (h : escape? input = some (p, rest)) :
    pieces? (some '\\' :: input) = (pieces? rest).map fun (ps, r) => (p :: ps, r) := by
  rw [pieces?, if_neg (by decide), if_pos rfl]
  split
  · next hnone =>
      rw [h] at hnone
      cases hnone
  · next hsome =>
      rw [h] at hsome
      cases hsome
      rfl

theorem pieces?_append {p : Piece} (h : IsPiece p cs) (rest : List Symbol) :
    pieces? (cs.map some ++ rest) = (pieces? rest).map fun (ps, r) => (p :: ps, r) := by
  cases h with
  | @plain c hc hquote hslash =>
      show pieces? (some c :: rest) = _
      rw [pieces?, if_neg hquote, if_neg hslash, if_neg (Nat.not_lt.mpr hc)]
  | escape h => exact pieces?_escape (escape?_cons h rest)
  | @unit a b c d n h =>
      apply pieces?_escape
      show escape? (some 'u' :: some a :: some b :: some c :: some d :: rest) = _
      rw [escape?, h]
      rfl

theorem string?_append {ps : List Piece} (h : ArePieces ps cs) (rest : List Symbol) :
    pieces? ((cs ++ ['"']).map some ++ rest) = some (ps, rest) := by
  induction h with
  | nil =>
      show pieces? (some '"' :: rest) = _
      rw [pieces?, if_pos rfl]
  | cons hp _ ih =>
      rw [List.append_assoc, List.map_append, List.append_assoc, pieces?_append hp, ih]
      rfl

/-! ## Tokens -/

/-- A number begins with a digit or a minus. -/
theorem IsNumber.head {n : Option Int} (h : IsNumber n cs) :
    ∃ c rest, cs = c :: rest ∧ (c.isDigit = true ∨ c = '-') := by
  cases h with
  | plain hw _ _ _ =>
      obtain ⟨c, ds, rfl⟩ := List.exists_cons_of_ne_nil hw.1
      exact ⟨c, _, rfl, .inl (hw.2 c List.mem_cons_self)⟩
  | minus => exact ⟨'-', _, rfl, .inr rfl⟩

/-- No token begins with a blank, and none but a number with something that may go on a number. -/
theorem Token.Renders.head {t : Token} (h : t.Renders cs) :
    ∃ c rest, cs = c :: rest ∧ isSpace (some c) = false ∧
      (¬t.IsNumber → c.isDigit = false ∧ c ≠ '.' ∧ c ≠ 'e' ∧ c ≠ 'E') := by
  cases h with
  | number h =>
      obtain ⟨c, rest, rfl, hc⟩ := h.head
      refine ⟨c, rest, rfl, ?_, fun hno => absurd trivial hno⟩
      rcases hc with hc | rfl
      · simp only [isSpace, Option.some.injEq, Bool.or_eq_false_iff, decide_eq_false_iff_not]
        refine ⟨⟨⟨?_, ?_⟩, ?_⟩, ?_⟩ <;> rintro rfl <;> cases hc
      · rfl
  | string | openBrace | closeBrace | openBracket | closeBracket | colon | comma | null
  | bool_true | bool_false => exact ⟨_, _, rfl, rfl, fun _ => by decide⟩

theorem token?_append {t : Token} (h : t.Renders cs) (hrest : t.IsNumber → Stops rest) :
    token? (cs.map some ++ rest) = some (t, rest) := by
  cases h with
  | @number n _ h =>
      have hvalue := number?_append h (hrest trivial)
      obtain ⟨c, ds, rfl, hc⟩ := h.head
      have hnumber : ∀ input, input = (c :: ds).map some ++ rest →
          token? input = (number? input).map fun p => (.number p.1, p.2) := by
        intro input hinput
        -- The other tokens begin with other characters.
        unfold token?
        split
        case h_11 => rfl
        all_goals
          have hfirst := congrArg List.head? hinput
          cases hfirst
          rcases hc with hc | hc <;> cases hc
      rw [hnumber _ rfl, hvalue]
      rfl
  | @string ps cs h =>
      show (string? ((cs ++ ['"']).map some ++ rest)).map _ = _
      rw [string?, string?_append h]
      rfl
  | openBrace | closeBrace | openBracket | closeBracket | colon | comma | null | bool_true
  | bool_false => rfl

/-! ## Texts -/

theorem lex_blanks (h : AreBlanks cs) (rest : List Symbol) :
    lex (cs.map some ++ rest) = lex rest := by
  induction cs with
  | nil => rfl
  | cons c cs ih =>
      show lex (some c :: (cs.map some ++ rest)) = _
      rw [lex, if_pos (h c List.mem_cons_self)]
      exact ih fun c hc => h c (List.mem_cons_of_mem _ hc)

theorem lex_token {t : Token} (h : t.Renders cs) (hrest : t.IsNumber → Stops rest) :
    lex (cs.map some ++ rest) = (lex rest).map (t :: ·) := by
  have htoken := token?_append h hrest
  obtain ⟨c, ds, rfl, hblank, -⟩ := h.head
  rw [List.map_cons, List.cons_append] at htoken ⊢
  rw [lex, hblank, if_neg Bool.false_ne_true]
  split
  · next hnone =>
      rw [htoken] at hnone
      cases hnone
  · next hsome =>
      rw [htoken] at hsome
      cases hsome
      rfl

/-- What may follow a number does not go on like one. -/
theorem Renders.stops {ts : List Token} (h : Renders ts cs)
    (hfirst : ∀ u ∈ ts.head?, ¬u.IsNumber) : Stops (cs.map some) := by
  -- Either a blank comes first, or the blanks do not matter.
  have hblank : ∀ {blanks rest : List Char}, AreBlanks blanks →
      (blanks = [] → Stops (rest.map some)) → Stops ((blanks ++ rest).map some) := by
    intro blanks rest hblanks hrest
    cases blanks with
    | nil => exact hrest rfl
    | cons c blanks =>
        rintro s ⟨⟩
        have hc := hblanks c List.mem_cons_self
        simp only [isSpace, Option.some.injEq, Bool.or_eq_true, decide_eq_true_eq] at hc
        rcases hc with ((rfl | rfl) | rfl) | rfl <;> decide
  cases h with
  | nil hblanks =>
      rw [← List.append_nil cs]
      exact hblank hblanks fun _ _ hs => nomatch hs
  | @cons t ts blanks cs rest hblanks ht _ =>
      refine hblank hblanks fun _ => ?_
      obtain ⟨c, ds, rfl, -, hc⟩ := ht.head
      obtain ⟨hdigit, hpoint, hmark, hmark'⟩ := hc (hfirst t rfl)
      rintro s ⟨⟩
      simp only [ne_eq, Option.some.injEq]
      exact ⟨hdigit, hpoint, hmark, hmark'⟩

theorem lex_of_renders {ts : List Token} (h : Renders ts cs) (hts : Separate ts) :
    lex (cs.map some) = some ts := by
  induction h with
  | nil hblanks =>
      rw [← List.append_nil (List.map some _), lex_blanks hblanks, lex]
  | @cons t ts blanks cs rest hblanks ht hrest ih =>
      rw [List.map_append, List.map_append, lex_blanks hblanks,
        lex_token ht fun hnumber => hrest.stops (hts.1 hnumber), ih hts.2]
      rfl

end TilePuzzle.Json
