import TilePuzzle.Catalogue

/-!
# Programs

A program is a list of commands, on lines that count from 1. An `if` jumps to the line after its
`end if` when its condition fails; `jumps` maps the line of each `if` to the line of its `end if`.

`Program.build` orders the descriptors by index, descriptors of one index as they are listed, and reads
them one after the other. Each `end if` closes the `if` opened last. The first fault met is reported:
a descriptor that the catalogue refuses, or an `end if` with no `if` open. When the end is reached with
an `if` open, the one opened last is to blame.
-/

namespace TilePuzzle

/-- Commands by line, with the jumps of the `if`s. -/
structure Program where
  commands : List Command := []
  jumps : SortedMap Nat Nat := .empty
  endLines : List Nat := []
deriving DecidableEq

namespace Program

/-- The number of lines. -/
def length (p : Program) : Nat := p.commands.length

/-- The command on a line; lines count from 1. -/
def command? (p : Program) (line : Nat) : Option Command :=
  if line = 0 then none else p.commands[line - 1]?

/-- The line of the `end if` of the `if` on a line. -/
def jump? (p : Program) (line : Nat) : Option Nat := p.jumps.get? line

/-- A program under construction: what was read so far, and line and index of each `if` that is still
open, the one opened last in front. -/
structure Draft where
  program : Program := {}
  opened : List (Nat × Nat) := []

/-- The draft with one more command, which was read from the block `index`. -/
def Draft.add (d : Draft) (index : Nat) (command : Command) : Except BuildError Draft :=
  let line := d.program.length + 1
  let program := { d.program with commands := d.program.commands ++ [command] }
  match command with
  -- The jump of an `if` is known once its `end if` is read.
  | .branch _ _ => .ok { program, opened := (line, index) :: d.opened }
  | .endBranch =>
    match d.opened with
    | [] => .error (.unmatchedEndIf index)
    | (start, _) :: opened =>
      .ok {
        program := { program with
          jumps := program.jumps.insert start line
          endLines := program.endLines ++ [line] }
        opened }
  | _ => .ok { d with program }

/-- The program of a draft, unless an `if` is still open. -/
def Draft.finish (d : Draft) : Except BuildError Program :=
  match d.opened with
  | [] => .ok d.program
  | (_, index) :: _ => .error (.unmatchedIf index)

/-- The descriptors in the order of their lines. -/
def order (ds : List Descriptor) : List Descriptor :=
  ds.mergeSort fun a b => a.index ≤ b.index

/-- The draft after reading descriptors in the order of their lines. -/
def assemble (c : Catalogue) (ds : List Descriptor) (d : Draft) : Except BuildError Draft :=
  ds.foldlM (fun d descriptor => do d.add descriptor.index (← c.build descriptor)) d

/-- The program that the descriptors describe. -/
def build (c : Catalogue) (ds : List Descriptor) : Except BuildError Program := do
  (← assemble c (order ds) {}).finish

end Program

end TilePuzzle
