import TilePuzzle.CommandLine.Session
import TilePuzzle.Proofs.Program.Listing
import TilePuzzle.Proofs.Text.Fields

/-!
# Listings are read back

The text of a command tells which command it is, and a listing tells the commands of its program, in
whatever way the lines are indented and wherever the arrows lead.

The fields of a command are read from the front, and what comes after them is left alone
(`ofFields?_fields`). So it does not matter for a line of a listing whether an arrow stands at its end.
-/

namespace TilePuzzle

open Text (intText natText Flat fields_append fields_around)

/-- The operation of a name that an operation has in texts. -/
def Operation.ofName? : String → Option Operation
  | "add" => some add
  | "subtract" => some subtract
  | "multiply" => some multiply
  | "divide" => some divide
  | _ => none

theorem Operation.ofName?_label (op : Operation) : ofName? op.label = some op := by
  cases op <;> rfl

theorem Direction.fields_label (d : Direction) : Text.fields d.label = [d.label] := by
  cases d <;> rfl

@[simp] theorem Direction.flat_label (d : Direction) : Flat d.label := by
  cases d <;> decide

/-! ## Conditions -/

namespace Condition

def fields : Condition → List String
  | terrain t => [t.label]
  | block => ["block"]
  | avatar => ["avatar"]
  | empty => ["empty"]
  | number comparison value => ["number", comparison.symbol, intText value]

/-- The condition whose fields stand first in a list. -/
def ofFields? : List String → Option Condition
  | "block" :: _ => some block
  | "avatar" :: _ => some avatar
  | "empty" :: _ => some empty
  | "number" :: symbol :: value :: _ =>
    (Comparison.ofName? symbol).bind fun comparison => (Text.readInt? value).map (number comparison)
  | name :: _ => (Terrain.ofName? name).map terrain
  | [] => none

theorem ofFields?_fields (c : Condition) (rest : List String) :
    ofFields? (c.fields ++ rest) = some c := by
  cases c with
  | terrain t => cases t <;> rfl
  | block | avatar | empty => rfl
  | number comparison value =>
      show (Comparison.ofName? comparison.symbol).bind
        (fun comparison => (Text.readInt? (intText value)).map (number comparison)) = _
      rw [Comparison.ofName?_symbol, Text.readInt?_intText]
      rfl

theorem fields_text (c : Condition) : Text.fields c.text = c.fields := by
  cases c with
  | terrain t => cases t <;> rfl
  | block | avatar | empty => rfl
  | number comparison value =>
      have hsymbol : Text.fields ("number " ++ comparison.symbol) = ["number", comparison.symbol] := by
        cases comparison <;> rfl
      rw [text, fields_around _ " " _ rfl rfl, hsymbol, Text.fields_intText]
      rfl

@[simp] theorem flat_text (c : Condition) : Flat c.text := by
  cases c with
  | terrain t => cases t <;> decide
  | block | avatar | empty => decide
  | number comparison value =>
      have hsymbol : Flat comparison.symbol := by cases comparison <;> decide
      simp +decide [text, hsymbol]

end Condition

/-! ## Commands -/

namespace Command

def fields : Command → List String
  | move direction => ["move", direction.label]
  | pickUp => ["pick", "up"]
  | drop => ["drop"]
  | arithmetic op direction => [op.label, direction.label]
  | branch direction condition => "if" :: direction.label :: "is" :: condition.fields
  | endBranch => ["end", "if"]

/-- The command whose fields stand first in a list. -/
def ofFields? : List String → Option Command
  | "move" :: direction :: _ => (Direction.ofName? direction).map move
  | "pick" :: _ => some pickUp
  | "drop" :: _ => some drop
  | "end" :: _ => some endBranch
  | "if" :: direction :: "is" :: rest =>
    (Direction.ofName? direction).bind fun direction => (Condition.ofFields? rest).map (branch direction)
  | op :: direction :: _ =>
    (Operation.ofName? op).bind fun op => (Direction.ofName? direction).map (arithmetic op)
  | _ => none

theorem ofFields?_fields (c : Command) (rest : List String) :
    ofFields? (c.fields ++ rest) = some c := by
  cases c with
  | move direction => cases direction <;> rfl
  | pickUp | drop | endBranch => rfl
  | arithmetic op direction =>
      have hop : ofFields? ((arithmetic op direction).fields ++ rest) = (Operation.ofName? op.label).bind
          fun op => (Direction.ofName? direction.label).map (arithmetic op) := by
        cases op <;> rfl
      rw [hop, Operation.ofName?_label, Direction.ofName?_label]
      rfl
  | branch direction condition =>
      show (Direction.ofName? direction.label).bind (fun direction =>
        (Condition.ofFields? (condition.fields ++ rest)).map (branch direction)) = _
      rw [Direction.ofName?_label, Condition.ofFields?_fields]
      rfl

theorem fields_text (c : Command) : Text.fields c.text = c.fields := by
  cases c with
  | pickUp | drop | endBranch => rfl
  | move direction =>
      rw [text, fields_append (.inl rfl), direction.fields_label]
      rfl
  | arithmetic op direction =>
      have hop : Text.fields op.label = [op.label] := by cases op <;> rfl
      rw [text, fields_around _ " " _ rfl rfl, hop, direction.fields_label]
      rfl
  | branch direction condition =>
      have hdirection : Text.fields ("if " ++ direction.label) = ["if", direction.label] := by
        rw [fields_append (.inl rfl), direction.fields_label]
        rfl
      rw [text, fields_around _ " is " _ rfl rfl, hdirection, condition.fields_text]
      rfl

@[simp] theorem flat_text (c : Command) : Flat c.text := by
  cases c with
  | pickUp | drop | endBranch => decide
  | move direction => simp +decide [text]
  | arithmetic op direction =>
      have hop : Flat op.label := by cases op <;> decide
      simp +decide [text, hop]
  | branch direction condition => simp +decide [text]

/-- No two commands have one text. -/
theorem text_inj {c d : Command} : c.text = d.text ↔ c = d := by
  refine ⟨fun h => ?_, congrArg text⟩
  have hread : ∀ c : Command, ofFields? (Text.fields c.text) = some c := fun c => by
    rw [c.fields_text, ← List.append_nil c.fields, c.ofFields?_fields]
  exact Option.some.inj ((hread c).symm.trans (h ▸ hread d))

end Command

/-! ## Listings -/

namespace Program

/-- What stands on a line of a listing, whatever the depth and wherever an arrow leads. -/
def lineOf (line depth : Nat) (c : Command) (target : Option Nat) : String :=
  numberColumn line ++ "  " ++ String.ofList (List.replicate (2 * depth) ' ') ++ c.text
    ++ arrow target

theorem fields_lineOf (line depth : Nat) (c : Command) (target : Option Nat) :
    ∃ rest, Text.fields (lineOf line depth c target) = natText line :: (c.fields ++ rest) := by
  have hnumber : Text.fields (numberColumn line) = [natText line] := by
    rw [numberColumn, Text.fields_blanks_append, Text.fields_natText]
  have hcommand : Text.fields (numberColumn line ++ "  "
      ++ String.ofList (List.replicate (2 * depth) ' ') ++ c.text) = natText line :: c.fields := by
    rw [String.append_assoc, fields_around _ "  " _ rfl rfl, hnumber, Text.fields_blanks_append,
      c.fields_text]
    rfl
  cases target with
  | none =>
      refine ⟨[], ?_⟩
      rw [lineOf, arrow, String.append_empty, hcommand, List.append_nil]
  | some target =>
      refine ⟨["->", natText target], ?_⟩
      rw [lineOf, arrow, ← String.append_assoc, fields_around _ "    -> " _ rfl rfl, hcommand,
        Text.fields_natText, List.append_assoc]
      rfl

theorem flat_lineOf (line depth : Nat) (c : Command) (target : Option Nat) :
    Flat (lineOf line depth c target) := by
  have hblanks : ∀ n, Flat (String.ofList (List.replicate n ' ')) := Text.flat_replicate (by decide)
  have harrow : Flat (arrow target) := by
    cases target with
    | none => decide
    | some target => simp +decide [arrow]
  simp +decide [lineOf, numberColumn, hblanks, harrow]

theorem listingLines_eq (p : Program) : p.listingLines
    = ((p.commands.zip (depths 0 p.commands)).zipIdx 1).map fun e =>
        lineOf e.2 e.1.2 e.1.1 (p.jump? e.2) := rfl

theorem lines_listing (p : Program) : Text.lines (Session.unlines p.listing) = p.listing := by
  refine Text.lines_join fun l hl => ?_
  rcases List.mem_cons.mp hl with rfl | hl
  · have hne : p.listingHead ≠ "" := fun h =>
      absurd (String.append_eq_empty_iff.mp h).2 (by decide)
    exact ⟨hne, by simp +decide [listingHead]⟩
  · rw [listingLines_eq] at hl
    obtain ⟨⟨⟨c, depth⟩, line⟩, -, rfl⟩ := List.mem_map.mp hl
    obtain ⟨rest, hfields⟩ := fields_lineOf line depth c (p.jump? line)
    exact ⟨Text.ne_of_fields (hfields ▸ List.cons_ne_nil _ _),
      flat_lineOf line depth c (p.jump? line)⟩

/-- The commands that the lines of a listing show, below its head. -/
def readListing (text : String) : List (Option Command) :=
  (Text.lines text).tail.map fun line => Command.ofFields? (Text.fields line).tail

theorem readListing_listing (p : Program) :
    readListing (Session.unlines p.listing) = p.commands.map some := by
  have hline : ∀ e : (Command × Nat) × Nat, Command.ofFields?
      (Text.fields (lineOf e.2 e.1.2 e.1.1 (p.jump? e.2))).tail = some e.1.1 := by
    rintro ⟨⟨c, depth⟩, line⟩
    obtain ⟨rest, hfields⟩ := fields_lineOf line depth c (p.jump? line)
    rw [hfields, List.tail_cons, c.ofFields?_fields]
  calc readListing (Session.unlines p.listing)
      = p.listingLines.map fun line => Command.ofFields? (Text.fields line).tail := by
        rw [readListing, lines_listing]
        rfl
    _ = ((p.commands.zip (depths 0 p.commands)).zipIdx 1).map fun e => some e.1.1 := by
        rw [listingLines_eq, List.map_map]
        exact List.map_congr_left fun e _ => by rw [Function.comp_apply, hline]
    _ = (((p.commands.zip (depths 0 p.commands)).zipIdx 1).map Prod.fst).map fun e => some e.1 := by
        rw [List.map_map]
        rfl
    _ = ((p.commands.zip (depths 0 p.commands)).map Prod.fst).map some := by
        rw [List.zipIdx_map_fst, List.map_map]
        rfl
    _ = p.commands.map some := by
        rw [List.map_fst_zip (Nat.le_of_eq (length_depths 0 p.commands).symm)]

end Program

end TilePuzzle
