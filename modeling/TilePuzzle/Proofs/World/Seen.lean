import TilePuzzle.Proofs.World.Reachable

/-!
# What is seen of a world

Whoever looks at a position off the grid gets the answers of a wall with nothing on it. `seen` makes
that a definition: the tile at a position, and bare wall where there is no tile. It is a total
function of the plane, and all that avatars ask of a world factors through it: where they can walk,
who answers for a tile, whether a condition holds. So the edge of the grid has no place in a
statement about what avatars do.

What avatars change is seen as changed too. Nobody enters a position off the grid, since only floor
is entered, and to leave one changes nothing.
-/

namespace TilePuzzle

/-- A wall with nothing on it. -/
def Tile.bareWall : Tile := { terrain := .wall }

namespace World

variable {w : World} {id : Nat} {p q target : Position}

/-- The tile at `p`, or bare wall if `p` lies off the grid. -/
def seen (w : World) (p : Position) : Tile := (w.tile? p).getD .bareWall

theorem seen_of_tile? {t : Tile} (ht : w.tile? p = some t) : w.seen p = t := by
  rw [seen, ht, Option.getD_some]

theorem seen_of_outside (hp : ¬w.grid.Contains p) : w.seen p = .bareWall := by
  have hnone : w.tile? p = none := Grid.get?_eq_none_iff.mpr hp
  rw [seen, hnone, Option.getD_none]

theorem tile?_eq_seen (w : World) (p : Position) :
    w.tile? p = if w.grid.Contains p then some (w.seen p) else none := by
  split
  · next hp =>
      obtain ⟨t, ht⟩ := Option.isSome_iff_exists.mp (Grid.get?_isSome_iff.mpr hp)
      have ht' : w.tile? p = some t := ht
      rw [ht', seen_of_tile? ht']
  · next hp => exact Grid.get?_eq_none_iff.mpr hp

/-! ## Look-ups -/

/-- There is no floor off the grid. -/
theorem terrain?_eq_floor_iff : w.terrain? p = some .floor ↔ (w.seen p).terrain = .floor := by
  rw [terrain?, seen]
  cases w.tile? p with
  | none => simp [Tile.bareWall]
  | some t => simp

theorem avatarOn?_eq_seen (w : World) (p : Position) :
    w.avatarOn? p = (w.seen p).occupants.ids.findSome? w.avatar? := by
  rw [avatarOn?, seen]
  cases w.tile? p <;> rfl

theorem blockOn?_eq_seen (w : World) (p : Position) :
    w.blockOn? p
      = (w.seen p).occupants.ids.findSome? fun id => (w.block? id).filter (!·.held) := by
  rw [blockOn?, seen]
  cases w.tile? p <;> rfl

/-- A condition about a position off the grid holds if it holds of bare wall. -/
theorem evaluate_eq_seen (c : Condition) (w : World) (id : Nat) (p : Position) :
    c.evaluate w id p = match c with
      | .terrain t => decide ((w.seen p).terrain = t)
      | .block => (w.blockOn? p).isSome
      | .avatar => (w.seen p).occupants.ids.any fun other =>
          other ≠ id && (w.avatar? other).isSome
      | .empty => (w.seen p).terrain.walkable && (w.blockOn? p).isNone
          && (w.avatarOn? p).all (·.id = id)
      | .number comparison value =>
          (w.blockOn? p).any fun b => comparison.holds b.number value := by
  rw [Condition.evaluate, seen]
  cases ht : w.tile? p with
  | some t => rfl
  | none =>
      have hblock : w.blockOn? p = none := by
        rw [blockOn?, ht]
        rfl
      cases c with
      | terrain t => cases t <;> rfl
      | avatar | empty => rfl
      | block | number =>
          rw [hblock]
          rfl

/-! ## Entering and leaving -/

theorem seen_enter (hp : w.grid.Contains p) : (w.enter id p).seen q
    = if p = q then { w.seen q with occupants := (w.seen q).occupants.insert id }
      else w.seen q := by
  rw [seen, tile?_enter]
  split
  · next hpq =>
      subst hpq
      rw [tile?_eq_seen, if_pos hp]
      rfl
  · rfl

/-- Leaving a position off the grid changes nothing, as nothing is there. -/
theorem seen_leave : (w.leave id p).seen q
    = if p = q then { w.seen q with occupants := (w.seen q).occupants.erase id }
      else w.seen q := by
  rw [seen, tile?_leave]
  split
  · rw [seen]
    cases w.tile? q <;> rfl
  · rfl

theorem seen_relocate {source : Position} (htarget : w.grid.Contains target) :
    (w.relocate id source target).seen q
      = if target = q then
          { (w.leave id source).seen q with
            occupants := ((w.leave id source).seen q).occupants.insert id }
        else (w.leave id source).seen q :=
  seen_enter (Grid.contains_modify.mpr htarget)

theorem contains_of_floor (h : (w.seen p).terrain = .floor) : w.grid.Contains p := by
  by_contra hp
  rw [seen_of_outside hp] at h
  cases h

end World

end TilePuzzle
