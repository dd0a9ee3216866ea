import TilePuzzle.Json.Parser
import TilePuzzle.Json.Writer
import TilePuzzle.Proofs.Json.Lexer

/-!
# Texts of a value

The parser takes the tokens of a value to this value, whatever is open around it, and what follows
is read as if the value had stood there as a whole. So each text that renders the tokens of a value
is read as this value (`ofText?_of_renders`).
-/

namespace TilePuzzle.Json

/-! ## The machine -/

/-- The machine after some tokens. -/
def machine (ts : List Token) (state : Expect × List Frame) : Option (Expect × List Frame) :=
  ts.foldlM step? state

theorem machine_cons (t : Token) (ts : List Token) (state : Expect × List Frame) :
    machine (t :: ts) state = (step? state t).bind (machine ts) := rfl

/-- A value starts with a token that ends no array. -/
theorem tokens_eq_cons (v : Json) : ∃ t ts, v.tokens = t :: ts ∧ t ≠ .closeBracket := by
  cases v with
  | array elements => cases elements <;> exact ⟨_, _, by rw [tokens], by decide⟩
  | object members => cases members <;> exact ⟨_, _, by rw [tokens], by decide⟩
  | null | bool | number | string =>
      rw [tokens]
      exact ⟨_, _, rfl, nofun⟩

/-- The first element of an array is read like any value. -/
theorem machine_firstElement (v : Json) (rest : List Token) (opened : List Frame) :
    machine (v.tokens ++ rest) (.firstElement, opened)
      = machine (v.tokens ++ rest) (.value, .array [] :: opened) := by
  obtain ⟨t, ts, hv, hclose⟩ := tokens_eq_cons v
  have hstep : step? (.firstElement, opened) t = step? (.value, .array [] :: opened) t := by
    cases t with
    | closeBracket => exact absurd rfl hclose
    | _ => rfl
  rw [hv, List.cons_append, machine_cons, machine_cons, hstep]

-- By induction on the value. The machine inside of an array or an object has the frames of what is
-- open around it, so all three statements are about any list of frames.
mutual

theorem machine_tokens : (v : Json) → ∀ rest opened,
    machine (v.tokens ++ rest) (.value, opened) = machine rest (.after v, opened)
  | .null, _, _ | .bool _, _, _ | .number _, _, _ | .string _, _, _ => by
    rw [tokens]
    rfl
  | .array [], _, _ | .object [], _, _ => by
    rw [tokens]
    rfl
  | .array (v :: vs), rest, opened => by
    rw [tokens, List.cons_append, List.append_assoc]
    show machine (v.tokens ++ (elementTokens vs ++ rest)) (.firstElement, opened) = _
    rw [machine_firstElement, machine_tokens v, machine_elementTokens vs]
    rfl
  | .object ((k, v) :: ms), rest, opened => by
    rw [tokens, List.cons_append, List.cons_append, List.cons_append, List.append_assoc]
    show machine (v.tokens ++ (memberTokens ms ++ rest)) (.value, .object [] k :: opened) = _
    rw [machine_tokens v, machine_memberTokens ms]
    rfl

theorem machine_elementTokens : (vs : List Json) → ∀ rest v before opened,
    machine (elementTokens vs ++ rest) (.after v, .array before :: opened)
      = machine rest (.after (.array (before.reverse ++ v :: vs)), opened)
  | [], rest, v, before, opened => by
    rw [elementTokens]
    show machine rest (.after (.array (v :: before).reverse), opened) = _
    rw [List.reverse_cons]
  | w :: vs, rest, v, before, opened => by
    rw [elementTokens, List.cons_append, List.append_assoc]
    show machine (w.tokens ++ (elementTokens vs ++ rest)) (.value, .array (v :: before) :: opened)
      = _
    rw [machine_tokens w, machine_elementTokens vs, List.reverse_cons, List.append_assoc]
    rfl

theorem machine_memberTokens : (ms : List (Option String × Json)) → ∀ rest k v before opened,
    machine (memberTokens ms ++ rest) (.after v, .object before k :: opened)
      = machine rest (.after (.object (before.reverse ++ (k, v) :: ms)), opened)
  | [], rest, k, v, before, opened => by
    rw [memberTokens]
    show machine rest (.after (.object ((k, v) :: before).reverse), opened) = _
    rw [List.reverse_cons]
  | (j, w) :: ms, rest, k, v, before, opened => by
    rw [memberTokens, List.cons_append, List.cons_append, List.cons_append, List.append_assoc]
    show machine (w.tokens ++ (memberTokens ms ++ rest))
      (.value, .object ((k, v) :: before) j :: opened) = _
    rw [machine_tokens w, machine_memberTokens ms, List.reverse_cons, List.append_assoc]
    rfl

end

theorem parse_tokens (v : Json) : parse v.tokens = some v := by
  have h : v.tokens.foldlM step? (Expect.value, []) = some (.after v, []) := by
    have h := machine_tokens v [] []
    rwa [List.append_nil] at h
  simp only [parse, h]

/-! ## Numbers in a value -/

/-- The tokens are separate, also when they follow a number. -/
def Trails (ts : List Token) : Prop := Separate ts ∧ ∀ u ∈ ts.head?, ¬u.IsNumber

theorem trails_cons {t : Token} {ts : List Token} (ht : ¬t.IsNumber) (hts : Separate ts) :
    Trails (t :: ts) := by
  refine ⟨⟨fun hnumber => absurd hnumber ht, hts⟩, ?_⟩
  rintro u ⟨⟩
  exact ht

mutual

theorem separate_tokens : (v : Json) → ∀ rest, Trails rest → Separate (v.tokens ++ rest)
  | .null, _, h | .bool _, _, h | .number _, _, h | .string _, _, h => by
    rw [tokens]
    exact ⟨fun _ => h.2, h.1⟩
  | .array [], _, h | .object [], _, h => by
    rw [tokens]
    exact ⟨nofun, nofun, h.1⟩
  | .array (v :: vs), rest, h => by
    rw [tokens, List.cons_append, List.append_assoc]
    exact ⟨nofun, separate_tokens v _ (trails_elementTokens vs rest h.1)⟩
  | .object ((k, v) :: ms), rest, h => by
    rw [tokens, List.cons_append, List.cons_append, List.cons_append, List.append_assoc]
    exact ⟨nofun, nofun, nofun, separate_tokens v _ (trails_memberTokens ms rest h.1)⟩

theorem trails_elementTokens : (vs : List Json) → ∀ rest, Separate rest →
    Trails (elementTokens vs ++ rest)
  | [], rest, h => by
    rw [elementTokens]
    exact trails_cons nofun h
  | v :: vs, rest, h => by
    rw [elementTokens, List.cons_append, List.append_assoc]
    exact trails_cons nofun (separate_tokens v _ (trails_elementTokens vs rest h))

theorem trails_memberTokens : (ms : List (Option String × Json)) → ∀ rest, Separate rest →
    Trails (memberTokens ms ++ rest)
  | [], rest, h => by
    rw [memberTokens]
    exact trails_cons nofun h
  | (k, v) :: ms, rest, h => by
    rw [memberTokens, List.cons_append, List.cons_append, List.cons_append, List.append_assoc]
    exact trails_cons nofun
      ⟨nofun, nofun, separate_tokens v _ (trails_memberTokens ms rest h)⟩

end

/-- A text that renders the tokens of a value is read as this value. -/
theorem ofText?_of_renders {v : Json} {s : String} (h : Renders v.tokens s.toList) :
    ofText? s = some v := by
  have hseparate := separate_tokens v [] ⟨trivial, nofun⟩
  rw [List.append_nil] at hseparate
  rw [ofText?, ofSymbols?, lex_of_renders h hseparate]
  exact parse_tokens v

end TilePuzzle.Json
