import TilePuzzle.World.Basic

/-!
# Moving and carrying

The three things an avatar does to the world: it moves, it picks a block up, it drops the block that it
carries. Each answers what it did and the world afterwards; when it is refused, the world afterwards is
the world before.
-/

namespace TilePuzzle

namespace World

/-- Whether another avatar than `id` answers for the tile at `p`. -/
def blockedFor (w : World) (id : Nat) (p : Position) : Bool :=
  (w.avatarOn? p).any (·.id ≠ id)

/-- Takes the element `id` from the tile at `source` and puts it onto the tile at `target`. -/
def relocate (w : World) (id : Nat) (source target : Position) : World :=
  (w.leave id source).enter id target

/-- Moves the avatar, and the block that it carries, to `target`. This is refused unless `target` is a
walkable tile without another avatar. The answer tells whether it moved. -/
def moveAvatar (w : World) (id : Nat) (target : Position) : Bool × World :=
  match w.avatar? id with
  | none => (false, w)
  | some a =>
    if !(w.terrain? target).any (·.walkable) || w.blockedFor id target then (false, w)
    else
      let moved := (w.relocate id a.position target).updateAvatar id ({ · with position := target })
      match a.held with
      | none => (true, moved)
      | some held =>
        -- The carried block goes along.
        (true, (moved.relocate held a.position target).updateBlock held
          ({ · with position := target }))

/-- The avatar picks up the block that rests at its position. This is refused when it carries one
already or none rests there. The answer is the block. -/
def pickUp (w : World) (id : Nat) : Option Nat × World :=
  match w.avatar? id with
  | none => (none, w)
  | some a =>
    match a.held, w.blockOn? a.position with
    | none, some b =>
      (some b.id, (w.updateBlock b.id ({ · with held := true })).updateAvatar id
        ({ · with held := some b.id }))
    | _, _ => (none, w)

/-- The avatar drops the block that it carries. This is refused when another block rests at its
position. The answer is the block. -/
def drop (w : World) (id : Nat) : Option Nat × World :=
  match w.avatar? id with
  | none => (none, w)
  | some a =>
    match a.held with
    | none => (none, w)
    | some held =>
      if (w.blockOn? a.position).isSome || (w.block? held).isNone then (none, w)
      else
        (some held, (w.updateBlock held ({ · with held := false })).updateAvatar id
          ({ · with held := none }))

end World

end TilePuzzle
