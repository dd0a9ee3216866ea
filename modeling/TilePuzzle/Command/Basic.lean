import TilePuzzle.Command.Condition
import TilePuzzle.Direction
import TilePuzzle.World.Play

/-!
# Commands

The instructions of a program. A command acts for one avatar: it changes the world, or it tells by its
`Flow` that the body of an `if` is to be skipped. A command that cannot do its work changes nothing,
and the program goes on.
-/

namespace TilePuzzle

/-- An instruction of a program. -/
inductive Command where
  | move (direction : Direction)
  | pickUp
  | drop
  | arithmetic (op : Operation) (direction : Direction)
  | branch (direction : Direction) (condition : Condition)
  | endBranch
deriving DecidableEq, Repr

/-- Where a program goes on after a command. -/
inductive Flow where
  /-- On the next line. -/
  | next
  /-- After the end of the `if`. -/
  | skipBody
deriving DecidableEq, Repr

namespace Command

/-- The name of the command. -/
def label : Command → String
  | move _ => "move"
  | pickUp => "pick up"
  | drop => "drop"
  | arithmetic op _ => op.label
  | branch _ _ => "if"
  | endBranch => "end if"

/-- The command as a program listing shows it. -/
def text : Command → String
  | move direction => "move " ++ direction.label
  | arithmetic op direction => op.label ++ " " ++ direction.label
  | branch direction condition => "if " ++ direction.label ++ " is " ++ condition.text
  | c => c.label

end Command

namespace World

/-- The avatar combines the number of the block that it carries with the number of the block that rests
at `p`. The carried block takes the result; nothing changes if a block or the result is missing. -/
def calculate (w : World) (id : Nat) (op : Operation) (p : Position) : World :=
  match (w.avatar? id).bind (·.held), w.heldNumber? id, w.blockOn? p with
  | some held, some number, some operand =>
    match op.result? number operand.number with
    | some result => (w.setBlockNumber held result).2
    | none => w
  | _, _, _ => w

end World

namespace Command

/-- Executes the command for the avatar `id`. -/
def execute (c : Command) (id : Nat) (w : World) : Flow × World :=
  match w.avatar? id with
  | none => (.next, w)
  | some a =>
    match c with
    | move direction => (.next, (w.moveAvatar id (direction.apply a.position)).2)
    | pickUp => (.next, (w.pickUp id).2)
    | drop => (.next, (w.drop id).2)
    | arithmetic op direction => (.next, w.calculate id op (direction.apply a.position))
    | branch direction condition =>
      (if condition.evaluate w id (direction.apply a.position) then .next else .skipBody, w)
    | endBranch => (.next, w)

end Command

end TilePuzzle
