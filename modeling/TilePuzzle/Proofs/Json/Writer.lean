import TilePuzzle.Proofs.Json.Parser

/-!
# Written values are read back

Both writers render the tokens of a value: `compact` with no blanks at all, `pretty` with line ends
and indentation. So what either of them writes is read as the value itself, whatever the value is
(`ofText?_compact`, `ofText?_pretty`).
-/

namespace TilePuzzle.Json

open Text (intText natText)

/-! ## Tokens -/

theorem isDigits_toDigits (n : Nat) : IsDigits (Nat.toDigits 10 n) :=
  ⟨Nat.toDigits_ne_nil, fun _ => Nat.isDigit_of_mem_toDigits (by decide) (by decide)⟩

/-- The digits of a positive number do not start with a zero. -/
theorem head?_toDigits {n : Nat} (hn : 0 < n) : (Nat.toDigits 10 n).head? ≠ some '0' := by
  induction n using Nat.strongRecOn with
  | ind n ih =>
      by_cases hlt : n < 10
      · rw [Nat.toDigits_of_lt_base hlt, List.head?_cons, Ne, Option.some.injEq,
          Nat.digitChar_eq_zero]
        exact Nat.ne_of_gt hn
      · -- The first digit is that of the number without its last digit.
        have hle : 10 ≤ n := Nat.not_lt.mp hlt
        have hfront := ih (n / 10) (by omega) (by omega)
        obtain ⟨c, cs, hcs⟩ := List.exists_cons_of_ne_nil (Nat.toDigits_ne_nil (n := n / 10))
        rw [Nat.toDigits_of_base_le (by decide) hle, hcs]
        rwa [hcs] at hfront

theorem whole_toDigits (n : Nat) :
    Nat.toDigits 10 n = ['0'] ∨ (Nat.toDigits 10 n).head? ≠ some '0' := by
  rcases Nat.eq_zero_or_pos n with rfl | hn
  · exact .inl (Nat.toDigits_zero 10)
  · exact .inr (head?_toDigits hn)

theorem isNumber_intText (n : Int) : IsNumber (some n) (intText n).toList := by
  cases n with
  | ofNat n =>
      have h := IsNumber.plain (isDigits_toDigits n) (whole_toDigits n) .absent .absent
      simpa [intText, natText] using h
  | negSucc n =>
      have h := IsNumber.minus (isDigits_toDigits (n + 1)) (whole_toDigits (n + 1)) .absent .absent
      simpa [intText, Int.negSucc_eq] using h

theorem spell?_unit {n : Nat} (hn : n < 0xD800) (ps : List Piece) :
    spell? (.unit n :: ps) = (spell? ps).map (Char.ofNat n :: ·) := by
  have hlow : ¬(0xD800 ≤ n ∧ n < 0xDC00) := by omega
  have hhigh : ¬(0xDC00 ≤ n ∧ n < 0xE000) := by omega
  rw [spell?.eq_def]
  show (if 0xD800 ≤ n ∧ n < 0xDC00 then _ else if 0xDC00 ≤ n ∧ n < 0xE000 then none
    else (spell? ps).map (Char.ofNat n :: ·)) = _
  rw [if_neg hlow, if_neg hhigh]

theorem spell?_char (c : Char) (ps : List Piece) :
    spell? (.char c :: ps) = (spell? ps).map (c :: ·) := by
  rw [spell?]

/-- A written character of a string is a part that spells this character. -/
theorem exists_piece (c : Char) : ∃ p, IsPiece p (quoteChar c) ∧
    ∀ ps, spell? (p :: ps) = (spell? ps).map (c :: ·) := by
  unfold quoteChar
  split
  case h_8 hquote hslash _ _ _ _ _ =>
    split
    · next hlt =>
        have hhex : ∀ n < 0x20,
            hex4? '0' '0' (hexDigit (n / 16)) (hexDigit (n % 16)) = some n := by decide
        refine ⟨.unit c.toNat, .unit (hhex _ hlt), fun ps => ?_⟩
        rw [spell?_unit (Nat.lt_trans hlt (by decide)), Char.ofNat_toNat]
    · next hge =>
        exact ⟨.char c, .plain (Nat.not_lt.mp hge) hquote hslash, spell?_char c⟩
  all_goals
    refine ⟨.char _, .escape ?_, spell?_char _⟩
    decide

theorem exists_pieces (cs : List Char) :
    ∃ ps, ArePieces ps (cs.flatMap quoteChar) ∧ spell? ps = some cs := by
  induction cs with
  | nil => exact ⟨[], .nil, rfl⟩
  | cons c cs ih =>
      obtain ⟨ps, hps, hspell⟩ := ih
      obtain ⟨p, hp, hspelt⟩ := exists_piece c
      exact ⟨p :: ps, .cons hp hps, by rw [hspelt, hspell, Option.map_some]⟩

/-- A token is rendered by its own text. -/
theorem renders_text (t : Token) : t.Renders t.text := by
  cases t with
  | openBrace => exact .openBrace
  | closeBrace => exact .closeBrace
  | openBracket => exact .openBracket
  | closeBracket => exact .closeBracket
  | colon => exact .colon
  | comma => exact .comma
  | null => exact .null
  | bool b =>
      cases b with
      | true => exact .bool_true
      | false => exact .bool_false
  | number n =>
      cases n with
      | none => exact .number (.minus (isDigits_toDigits 0) (whole_toDigits 0) .absent .absent)
      | some n => exact .number (isNumber_intText n)
  | string s =>
      cases s with
      | none =>
          have hhex : hex4? 'd' '8' '0' '0' = some 0xD800 := by decide
          exact .string (.cons (.unit hhex) .nil)
      | some s =>
          obtain ⟨ps, hps, hspell⟩ := exists_pieces s.toList
          have h := Token.Renders.string hps
          rwa [hspell, Option.map_some, String.ofList_toList] at h

/-! ## Values -/

theorem areBlanks_newline (depth : Nat) : AreBlanks (newline depth) := by
  intro c hc
  rcases List.mem_cons.mp hc with rfl | hc
  · rfl
  · rw [List.eq_of_mem_replicate hc]
    rfl

/-- Blanks in front of a rendering. -/
theorem Renders.blanks {ts : List Token} {blanks cs : List Char} (hblanks : AreBlanks blanks)
    (h : Renders ts cs) : Renders ts (blanks ++ cs) := by
  cases h with
  | nil h =>
      exact .nil fun c hc => (List.mem_append.mp hc).elim (hblanks c) (h c)
  | cons h ht hrest =>
      rw [← List.append_assoc]
      exact .cons (fun c hc => (List.mem_append.mp hc).elim (hblanks c) (h c)) ht hrest

/-- A token in front of a rendering. -/
theorem Renders.token {ts : List Token} {cs : List Char} (t : Token) (h : Renders ts cs) :
    Renders (t :: ts) (t.text ++ cs) := by
  have hblanks : AreBlanks [] := nofun
  exact .cons hblanks (renders_text t) h

theorem renders_flatMap (ts : List Token) : Renders ts (ts.flatMap Token.text) := by
  induction ts with
  | nil => exact .nil nofun
  | cons t ts ih => exact ih.token t

/-- A key on a line of its own, in front of the rendering of its value. -/
theorem renders_member (k : Option String) (depth : Nat) {ts : List Token} {cs : List Char}
    (h : Renders ts cs) : Renders (.string k :: .colon :: ts)
      (newline depth ++ ((Token.string k).text ++ (':' :: ' ' :: cs))) := by
  have hspace : AreBlanks [' '] := fun c hc => by
    rw [List.mem_singleton.mp hc]
    rfl
  exact (((h.blanks hspace).token .colon).token (.string k)).blanks (areBlanks_newline depth)

-- What follows the value is a parameter, so that a token is only ever put in front of a rendering.
mutual

theorem renders_layout (depth : Nat) : (v : Json) → ∀ ts cs, Renders ts cs →
    Renders (v.tokens ++ ts) (layout depth v ++ cs)
  | .null, _, _, h | .bool _, _, _, h | .number _, _, _, h | .string _, _, _, h => by
    rw [tokens, layout]
    exact h.token _
  | .array [], _, _, h => by
    rw [tokens, layout]
    exact (h.token .closeBracket).token .openBracket
  | .object [], _, _, h => by
    rw [tokens, layout]
    exact (h.token .closeBrace).token .openBrace
  | .array (v :: vs), ts, cs, h => by
    have hrest := renders_layout (depth + 1) v _ _ (renders_layoutElements depth vs ts cs h)
    have hfull := (hrest.blanks (areBlanks_newline (depth + 1))).token .openBracket
    simpa [tokens, layout, Token.text, List.append_assoc] using hfull
  | .object ((k, v) :: ms), ts, cs, h => by
    have hrest := renders_layout (depth + 1) v _ _ (renders_layoutMembers depth ms ts cs h)
    have hfull := (renders_member k (depth + 1) hrest).token .openBrace
    simpa [tokens, layout, Token.text, List.append_assoc] using hfull

theorem renders_layoutElements (depth : Nat) : (vs : List Json) → ∀ ts cs, Renders ts cs →
    Renders (elementTokens vs ++ ts) (layoutElements depth vs ++ cs)
  | [], ts, cs, h => by
    have hfull := (h.token .closeBracket).blanks (areBlanks_newline depth)
    simpa [elementTokens, layoutElements, Token.text, List.append_assoc] using hfull
  | v :: vs, ts, cs, h => by
    have hrest := renders_layout (depth + 1) v _ _ (renders_layoutElements depth vs ts cs h)
    have hfull := (hrest.blanks (areBlanks_newline (depth + 1))).token .comma
    simpa [elementTokens, layoutElements, Token.text, List.append_assoc] using hfull

theorem renders_layoutMembers (depth : Nat) : (ms : List (Option String × Json)) → ∀ ts cs,
    Renders ts cs → Renders (memberTokens ms ++ ts) (layoutMembers depth ms ++ cs)
  | [], ts, cs, h => by
    have hfull := (h.token .closeBrace).blanks (areBlanks_newline depth)
    simpa [memberTokens, layoutMembers, Token.text, List.append_assoc] using hfull
  | (k, v) :: ms, ts, cs, h => by
    have hrest := renders_layout (depth + 1) v _ _ (renders_layoutMembers depth ms ts cs h)
    have hfull := (renders_member k (depth + 1) hrest).token .comma
    simpa [memberTokens, layoutMembers, Token.text, List.append_assoc] using hfull

end

theorem renders_compact (v : Json) : Renders v.tokens v.compact.toList := by
  rw [compact, String.toList_ofList]
  exact renders_flatMap v.tokens

theorem renders_pretty (v : Json) : Renders v.tokens v.pretty.toList := by
  rw [pretty, String.toList_ofList]
  simpa using renders_layout 0 v [] [] (.nil nofun)

/-- What is written without blanks is read back. -/
theorem ofText?_compact (v : Json) : ofText? v.compact = some v :=
  ofText?_of_renders (renders_compact v)

/-- What is written on several lines is read back. -/
theorem ofText?_pretty (v : Json) : ofText? v.pretty = some v :=
  ofText?_of_renders (renders_pretty v)

end TilePuzzle.Json
