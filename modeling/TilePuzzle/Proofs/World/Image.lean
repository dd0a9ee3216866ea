import Mathlib.Logic.Equiv.Defs
import TilePuzzle.Goal
import TilePuzzle.Proofs.World.Seen
import TilePuzzle.Proofs.World.Setting

/-!
# Images of worlds

A motion moves the positions of the plane and turns the directions with them, so that a step in the
turned direction from the moved position leads to where the step has moved. A world is an image of
another one when it looks the same after the motion: the avatars answer to the same identifiers in
the same order, each element is found where it has moved, and at each moved position the same tile
is seen. An image may have another size, and its blocks may come in another order.

Whatever an avatar asks about an image has the same answer (`Image.evaluate`, `Image.reached`), so
it makes the same move in both worlds and leaves an image again (`Image.execute`). Size and order of
the blocks are all that an image leaves open (`Image.unique`); `imageIn` is the image with a given
size and the blocks in their order.
-/

namespace TilePuzzle

/-- A motion of the plane, and how it turns the directions. -/
structure Motion where
  place : Position ≃ Position
  turn : Direction → Direction
  place_apply : ∀ d p, place (d.apply p) = (turn d).apply (place p)

namespace Motion

variable (m : Motion)

def avatar (a : Avatar) : Avatar := { a with position := m.place a.position }

def block (b : Block) : Block := { b with position := m.place b.position }

/-- The command with its direction turned. -/
def command : Command → Command
  | .move direction => .move (m.turn direction)
  | .arithmetic op direction => .arithmetic op (m.turn direction)
  | .branch direction condition => .branch (m.turn direction) condition
  | .pickUp => .pickUp
  | .drop => .drop
  | .endBranch => .endBranch

/-- The goal with its targets moved. -/
def goal (g : Goal) : Goal :=
  { g with
    avatarTargets := g.avatarTargets.map m.place
    blockTargets := g.blockTargets.map fun t => { t with position := m.place t.position } }

end Motion

namespace Grid

variable {α : Type}

/-- The grid of `rows` by `cols` cells that holds `f p` at the position `p`. -/
def tabulate (rows cols : Nat) (f : Position → α) : Grid α where
  rows := rows
  cols := cols
  cells := Array.ofFn fun i : Fin (rows * cols) => f ⟨(i / cols : Nat), (i % cols : Nat)⟩
  size_cells := Array.size_ofFn

theorem get?_tabulate (rows cols : Nat) (f : Position → α) (p : Position) :
    (tabulate rows cols f).get? p
      = if (tabulate rows cols f).Contains p then some (f p) else none := by
  rw [get?]
  split
  · next hp =>
      obtain ⟨x, y⟩ := p
      obtain ⟨hx, -, hy, hcol⟩ := hp
      lift x to Nat using hx
      lift y to Nat using hy
      have hcol' : y < cols := Int.ofNat_lt.mp hcol
      simp only [tabulate, index, Int.toNat_natCast, Array.getElem_ofFn, Nat.mul_comm x cols,
        Nat.mul_add_div (Nat.zero_lt_of_lt hcol'), Nat.div_eq_of_lt hcol', Nat.mul_add_mod,
        Nat.mod_eq_of_lt hcol', Nat.add_zero]
  · rfl

end Grid

section Key

variable {α : Type} (key : α → Nat)

/-- A list with distinct keys can be read off its keys and the search by key. -/
theorem filterMap_find?_key {l : List α} (hl : (l.map key).Nodup) :
    (l.map key).filterMap (fun k => l.find? fun x => decide (key x = k)) = l := by
  rw [List.filterMap_map]
  calc l.filterMap ((fun k => l.find? fun x => decide (key x = k)) ∘ key)
      = l.filterMap some := List.filterMap_congr fun a ha =>
          (find?_key_eq_some_iff key hl).mpr ⟨ha, rfl⟩
    _ = l := List.filterMap_some

theorem eq_of_find?_key {l l' : List α} (hkeys : l'.map key = l.map key) (hl : (l.map key).Nodup)
    (hfind : ∀ k, l'.find? (fun x => decide (key x = k)) = l.find? fun x => decide (key x = k)) :
    l' = l := by
  have hl' : (l'.map key).Nodup := hkeys ▸ hl
  rw [← filterMap_find?_key key hl, ← filterMap_find?_key key hl', hkeys]
  exact List.filterMap_congr fun k _ => hfind k

end Key

namespace World

variable {m : Motion} {w w' w₁ : World} {id k : Nat} {p target : Position} {a : Avatar}

/-- `w'` looks like `w` after the motion. -/
structure Image (m : Motion) (w w' : World) : Prop where
  avatarIds : w'.avatarIds = w.avatarIds
  avatar? : ∀ id, w'.avatar? id = (w.avatar? id).map m.avatar
  block? : ∀ id, w'.block? id = (w.block? id).map m.block
  seen : ∀ p, w'.seen (m.place p) = w.seen p

/-- The number that an avatar carries, by its load. -/
theorem heldNumber?_eq (w : World) (id : Nat) :
    w.heldNumber? id = (w.load? id).bind fun k => (w.block? k).map (·.number) := by
  unfold World.heldNumber? load?
  cases w.avatar? id with
  | none => rfl
  | some a =>
      obtain ⟨_, _, _, held⟩ := a
      cases held with
      | none => rfl
      | some k => exact Option.map_eq_bind.symm

namespace Image

/-! ## Look-ups -/

section

variable (h : Image m w w')

include h

theorem floor_iff : w'.terrain? (m.place p) = some .floor ↔ w.terrain? p = some .floor := by
  rw [terrain?_eq_floor_iff, terrain?_eq_floor_iff, h.seen]

theorem avatarOn? (p : Position) : w'.avatarOn? (m.place p) = (w.avatarOn? p).map m.avatar := by
  rw [avatarOn?_eq_seen, avatarOn?_eq_seen, h.seen, funext h.avatar?, List.map_findSome?]
  rfl

theorem blockOn? (p : Position) : w'.blockOn? (m.place p) = (w.blockOn? p).map m.block := by
  rw [blockOn?_eq_seen, blockOn?_eq_seen, h.seen, List.map_findSome?]
  congr 1
  funext id
  rw [h.block?, Option.filter_map]
  rfl

theorem load? (id : Nat) : w'.load? id = w.load? id := by
  rw [World.load?, World.load?, h.avatar?]
  cases w.avatar? id <;> rfl

theorem heldNumber? (id : Nat) : w'.heldNumber? id = w.heldNumber? id := by
  rw [heldNumber?_eq, heldNumber?_eq, h.load?]
  cases w.load? id with
  | none => rfl
  | some k =>
      show (w'.block? k).map (·.number) = (w.block? k).map (·.number)
      rw [h.block?, Option.map_map]
      rfl

theorem blockedFor (id : Nat) (p : Position) :
    w'.blockedFor id (m.place p) = w.blockedFor id p := by
  rw [World.blockedFor, World.blockedFor, h.avatarOn?, Option.any_map]
  rfl

theorem evaluate (c : Condition) (id : Nat) (p : Position) :
    c.evaluate w' id (m.place p) = c.evaluate w id p := by
  rw [evaluate_eq_seen, evaluate_eq_seen, h.seen, h.avatarOn?, h.blockOn?]
  cases c with
  | terrain t => rfl
  | block => exact Option.isSome_map
  | avatar => simp only [h.avatar?, Option.isSome_map]
  | empty =>
      simp only [Option.isNone_map, Option.all_map]
      rfl
  | number comparison value =>
      simp only [Option.any_map]
      rfl

theorem reached (g : Goal) : (m.goal g).reached w' = g.reached w := by
  have htargets : (m.goal g).hasTargets = g.hasTargets := by
    simp only [Goal.hasTargets, Motion.goal, List.isEmpty_map]
  rw [Goal.reached, Goal.reached, htargets]
  simp only [Motion.goal, List.all_map, Function.comp_def, h.avatarOn?, h.blockOn?,
    Option.isSome_map, Option.any_map]
  rfl

/-! ## Changes -/

theorem updateAvatar (id : Nat) {f f' : Avatar → Avatar} (hf : ∀ a, (f a).id = a.id)
    (hf' : ∀ a, (f' a).id = a.id) (hmove : ∀ a, f' (m.avatar a) = m.avatar (f a)) :
    Image m (w.updateAvatar id f) (w'.updateAvatar id f') where
  avatarIds := by rw [avatarIds_updateAvatar hf, avatarIds_updateAvatar hf', h.avatarIds]
  avatar? := by
    intro j
    rw [avatar?_updateAvatar hf, avatar?_updateAvatar hf', h.avatar?]
    split
    · rw [Option.map_map, Option.map_map]
      congr 1
      funext a
      exact hmove a
    · rfl
  block? := h.block?
  seen := h.seen

theorem updateBlock (k : Nat) {g g' : Block → Block} (hg : ∀ b, (g b).id = b.id)
    (hg' : ∀ b, (g' b).id = b.id) (hmove : ∀ b, g' (m.block b) = m.block (g b)) :
    Image m (w.updateBlock k g) (w'.updateBlock k g') where
  avatarIds := h.avatarIds
  avatar? := h.avatar?
  block? := by
    intro j
    rw [block?_updateBlock hg, block?_updateBlock hg', h.block?]
    split
    · rw [Option.map_map, Option.map_map]
      congr 1
      funext b
      exact hmove b
    · rfl
  seen := h.seen

theorem relocate (id : Nat) (source : Position) (hfloor : w.terrain? target = some .floor) :
    Image m (w.relocate id source target)
      (w'.relocate id (m.place source) (m.place target)) where
  avatarIds := h.avatarIds
  avatar? := h.avatar?
  block? := h.block?
  seen := by
    intro q
    have htarget := contains_of_floor (terrain?_eq_floor_iff.mp hfloor)
    have htarget' := contains_of_floor (terrain?_eq_floor_iff.mp (h.floor_iff.mpr hfloor))
    rw [seen_relocate htarget, seen_relocate htarget', seen_leave, seen_leave, h.seen]
    simp only [m.place.apply_eq_iff_eq]

theorem shift (a : Avatar) (hfloor : w.terrain? target = some .floor) :
    Image m (w.shift a target) (w'.shift (m.avatar a) (m.place target)) := by
  have hput : Image m (w.putAvatar a.id a.position target)
      (w'.putAvatar a.id (m.place a.position) (m.place target)) :=
    (h.relocate a.id a.position hfloor).updateAvatar a.id (by intro; rfl) (by intro; rfl)
      (by intro; rfl)
  have hheld' : (m.avatar a).held = a.held := rfl
  unfold World.shift
  rw [hheld']
  cases a.held with
  | none => exact hput
  | some k =>
      have hfloor' : (w.putAvatar a.id a.position target).terrain? target = some .floor := by
        rw [← hfloor]
        exact (World.SameSetting.relocate w a.id a.position target).terrain target
      exact (hput.relocate k a.position hfloor').updateBlock k (by intro; rfl) (by intro; rfl)
        (by intro; rfl)

theorem link (id k : Nat) : Image m (w.link id k) (w'.link id k) :=
  (h.updateBlock k (by intro; rfl) (by intro; rfl) (by intro; rfl)).updateAvatar id
    (by intro; rfl) (by intro; rfl) (by intro; rfl)

theorem unlink (id k : Nat) : Image m (w.unlink id k) (w'.unlink id k) :=
  (h.updateBlock k (by intro; rfl) (by intro; rfl) (by intro; rfl)).updateAvatar id
    (by intro; rfl) (by intro; rfl) (by intro; rfl)

/-! ## What avatars do -/

theorem moveAvatar (id : Nat) (target : Position) :
    Image m (w.moveAvatar id target).2 (w'.moveAvatar id (m.place target)).2 := by
  have ha' := h.avatar? id
  cases ha : w.avatar? id with
  | none =>
      rw [ha] at ha'
      simp only [World.moveAvatar, ha, ha', Option.map_none]
      exact h
  | some a =>
      rw [ha] at ha'
      rw [moveAvatar_eq ha, moveAvatar_eq ha']
      simp only [h.floor_iff, h.blockedFor]
      split
      · next hguard => exact h.shift a hguard.1
      · exact h

theorem pickUp (id : Nat) : Image m (w.pickUp id).2 (w'.pickUp id).2 := by
  unfold World.pickUp
  rw [h.avatar?]
  cases w.avatar? id with
  | none => exact h
  | some a =>
      have hon : w'.blockOn? (m.avatar a).position = _ := h.blockOn? a.position
      have hheld : (m.avatar a).held = a.held := rfl
      simp only [Option.map_some, hon, hheld]
      cases a.held with
      | some k => exact h
      | none =>
          cases w.blockOn? a.position with
          | none => exact h
          | some b => exact h.link id b.id

theorem drop (id : Nat) : Image m (w.drop id).2 (w'.drop id).2 := by
  unfold World.drop
  rw [h.avatar?]
  cases w.avatar? id with
  | none => exact h
  | some a =>
      have hon : w'.blockOn? (m.avatar a).position = _ := h.blockOn? a.position
      have hheld : (m.avatar a).held = a.held := rfl
      simp only [Option.map_some, hon, hheld]
      cases a.held with
      | none => exact h
      | some k =>
          simp only [h.block?, Option.isSome_map, Option.isNone_map]
          split
          · exact h
          · exact h.unlink id k

theorem setBlockNumber (k : Nat) (number : Int) :
    Image m (w.setBlockNumber k number).2 (w'.setBlockNumber k number).2 := by
  unfold World.setBlockNumber
  rw [h.block?]
  cases w.block? k with
  | none => exact h
  | some b => exact h.updateBlock k (by intro; rfl) (by intro; rfl) (by intro; rfl)

theorem calculate (id : Nat) (op : Operation) (p : Position) :
    Image m (w.calculate id op p) (w'.calculate id op (m.place p)) := by
  have hload : (w'.avatar? id).bind (·.held) = (w.avatar? id).bind (·.held) := h.load? id
  unfold World.calculate
  rw [hload, h.heldNumber?, h.blockOn?]
  cases (w.avatar? id).bind (·.held) with
  | none => exact h
  | some k =>
      cases w.heldNumber? id with
      | none => exact h
      | some number =>
          cases w.blockOn? p with
          | none => exact h
          | some operand =>
              have hnumber : (m.block operand).number = operand.number := rfl
              simp only [Option.map_some, hnumber]
              cases op.result? number operand.number with
              | none => exact h
              | some result => exact h.setBlockNumber k result

/-- The turned command does in the image what the command does, and goes on in the same way. -/
theorem execute (c : Command) (id : Nat) :
    ((m.command c).execute id w').1 = (c.execute id w).1 ∧
      Image m (c.execute id w).2 ((m.command c).execute id w').2 := by
  unfold Command.execute
  rw [h.avatar?]
  cases w.avatar? id with
  | none => exact ⟨rfl, h⟩
  | some a =>
      have hstep : ∀ d : Direction,
          (m.turn d).apply (m.avatar a).position = m.place (d.apply a.position) :=
        fun d => (m.place_apply d a.position).symm
      cases c with
      | move direction =>
          simp only [Option.map_some, Motion.command, hstep]
          exact ⟨trivial, h.moveAvatar id _⟩
      | pickUp => exact ⟨rfl, h.pickUp id⟩
      | drop => exact ⟨rfl, h.drop id⟩
      | arithmetic op direction =>
          simp only [Option.map_some, Motion.command, hstep]
          exact ⟨trivial, h.calculate id op _⟩
      | branch direction condition =>
          simp only [Option.map_some, Motion.command, hstep, h.evaluate]
          exact ⟨trivial, h⟩
      | endBranch => exact ⟨rfl, h⟩

end

/-! ## Size and order -/

/-- Two images of one size have the same tiles. -/
theorem grid_eq (h : Image m w w₁) (h' : Image m w w') (hrows : w'.grid.rows = w₁.grid.rows)
    (hcols : w'.grid.cols = w₁.grid.cols) : w'.grid = w₁.grid := by
  have hcontains : ∀ p, w'.grid.Contains p ↔ w₁.grid.Contains p := by
    intro p
    rw [Grid.Contains, hrows, hcols, Grid.Contains]
  refine Grid.ext_get? hrows hcols fun p => ?_
  obtain ⟨q, rfl⟩ := m.place.surjective p
  show w'.tile? (m.place q) = w₁.tile? (m.place q)
  rw [tile?_eq_seen, tile?_eq_seen, h'.seen, h.seen]
  simp only [hcontains]

/-- Two images have the same avatars. -/
theorem avatars_eq (h : Image m w w₁) (h' : Image m w w') (hids : w₁.avatarIds.Nodup) :
    w'.avatars = w₁.avatars :=
  eq_of_find?_key Avatar.id (h'.avatarIds.trans h.avatarIds.symm) hids
    fun id => (h'.avatar? id).trans (h.avatar? id).symm

/-- Two images of one size with their blocks in one order are equal. -/
theorem unique (h : Image m w w₁) (h' : Image m w w') (hrows : w'.grid.rows = w₁.grid.rows)
    (hcols : w'.grid.cols = w₁.grid.cols) (hblocks : w'.blockIds = w₁.blockIds)
    (havatarIds : w₁.avatarIds.Nodup) (hblockIds : w₁.blockIds.Nodup) : w' = w₁ := by
  have hgrid : w'.grid = w₁.grid := h.grid_eq h' hrows hcols
  have havatars : w'.avatars = w₁.avatars := h.avatars_eq h' havatarIds
  have hblocks' : w'.blocks = w₁.blocks :=
    eq_of_find?_key Block.id hblocks hblockIds fun k => (h'.block? k).trans (h.block? k).symm
  calc w' = ⟨w'.grid, w'.avatars, w'.blocks⟩ := rfl
    _ = ⟨w₁.grid, w₁.avatars, w₁.blocks⟩ := by rw [hgrid, havatars, hblocks']

end Image

/-- The image of `w` on a grid of `rows` by `cols` tiles, with the blocks in the order of `w`. -/
def imageIn (m : Motion) (rows cols : Nat) (w : World) : World where
  grid := .tabulate rows cols fun p => w.seen (m.place.symm p)
  avatars := w.avatars.map m.avatar
  blocks := w.blocks.map m.block

/-- The tiles of `w` stay on a grid of `rows` by `cols` tiles when they move. Moreover, each
identifier of `w` names one avatar at most, and one block at most. -/
structure Fits (m : Motion) (rows cols : Nat) (w : World) : Prop where
  avatarIds : w.avatarIds.Nodup
  blockIds : w.blockIds.Nodup
  contains : ∀ p, w.grid.Contains p → (w.imageIn m rows cols).grid.Contains (m.place p)

section Fits

variable {rows cols : Nat}

theorem tile?_imageIn (m : Motion) (rows cols : Nat) (w : World) (p : Position) :
    (w.imageIn m rows cols).tile? p
      = if (w.imageIn m rows cols).grid.Contains p then some (w.seen (m.place.symm p)) else none :=
  Grid.get?_tabulate rows cols _ p

theorem avatarIds_imageIn : (w.imageIn m rows cols).avatarIds = w.avatarIds :=
  List.map_map

theorem blockIds_imageIn : (w.imageIn m rows cols).blockIds = w.blockIds :=
  List.map_map

/-- Where all tiles stay, nothing of what is seen is lost: all else is bare wall to begin with. -/
theorem Fits.image (h : Fits m rows cols w) : Image m w (w.imageIn m rows cols) where
  avatarIds := avatarIds_imageIn
  avatar? := fun id => find?_key_map Avatar.id (f := m.avatar) (fun _ => rfl) w.avatars id
  block? := fun k => find?_key_map Block.id (f := m.block) (fun _ => rfl) w.blocks k
  seen := by
    intro p
    rw [seen, tile?_imageIn, m.place.symm_apply_apply]
    split
    · rfl
    · next hout =>
        rw [seen_of_outside fun hp => hout (h.contains p hp)]
        rfl

theorem Fits.of_setting (h : Fits m rows cols w) (hs : SameSetting w w') :
    Fits m rows cols w' where
  avatarIds := hs.avatarIds ▸ h.avatarIds
  blockIds := hs.blockIds ▸ h.blockIds
  contains := fun p hp => h.contains p (hs.contains_iff.mp hp)

end Fits

end World

end TilePuzzle
