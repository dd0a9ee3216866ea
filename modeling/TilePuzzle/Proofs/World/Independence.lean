import TilePuzzle.Proofs.World.Effects

/-!
# Avatars that are far apart

A command asks about one tile, that of its avatar or a neighbour of it, and it changes the avatar and
the block that it carries, which stay on that tile or come to a neighbour of it. So it depends on the
elements that are within one step of its avatar, and it changes no others. The blocks are looked up
in one list, wherever they are, but by identifier, and the tiles name only those that are there.

Both halves are said of two worlds. `SameAround` is what a command needs to do the same in both
(`SameAround.execute`), and `ChangesAround` is what it leaves alone (`changesAround_execute`). Between
avatars that are three rows or three columns apart no tile is within one step of both. What one of
them does therefore leaves the world the same around the other.

The main statement is `independent_of_apart`.
-/

namespace TilePuzzle

/-! ## Neighbourhoods -/

namespace Position

variable {p q r : Position}

/-- `q` is `p` or one of its eight neighbours. -/
def Touches (p q : Position) : Prop := (q.x - p.x).natAbs ≤ 1 ∧ (q.y - p.y).natAbs ≤ 1

/-- The positions differ by at least three rows or by at least three columns. -/
def Apart (p q : Position) : Prop := 3 ≤ (p.x - q.x).natAbs ∨ 3 ≤ (p.y - q.y).natAbs

instance : Decidable (p.Apart q) := inferInstanceAs (Decidable (_ ∨ _))

theorem touches_self (p : Position) : p.Touches p := by
  simp [Touches]

theorem touches_apply (d : Direction) (p : Position) : p.Touches (d.apply p) := by
  have ⟨hx, hy⟩ := d.natAbs_delta_le
  simp only [Touches, Direction.apply, offset]
  omega

theorem Apart.symm (h : p.Apart q) : q.Apart p := by
  simp only [Apart] at h ⊢
  omega

/-- Positions that are apart have no common neighbour. -/
theorem Apart.not_touches (h : p.Apart q) (hp : p.Touches r) : ¬q.Touches r := by
  simp only [Apart, Touches] at h hp ⊢
  omega

end Position

namespace World

variable {w w₁ w' : World} {id k : Nat} {p q target : Position} {a b : Avatar}

/-- The element `k` is within one step of `p`. -/
def Near (w : World) (p : Position) (k : Nat) : Prop := ∃ q, w.place? k = some q ∧ p.Touches q

/-- The element `k` is the same in both worlds, or it is in neither. -/
structure Agree (w w' : World) (k : Nat) : Prop where
  avatar? : w'.avatar? k = w.avatar? k
  block? : w'.block? k = w.block? k

/-- From `w` to `w'` only elements that are and stay within one step of `p` have changed. -/
def ChangesAround (p : Position) (w w' : World) : Prop :=
  ∀ k, Agree w w' k ∨ w.Near p k ∧ w'.Near p k

/-- Two consistent worlds that are the same within one step of `p`. -/
structure SameAround (p : Position) (w w' : World) : Prop where
  consistent : Consistent w
  consistent' : Consistent w'
  terrain : ∀ q, p.Touches q → w'.terrain? q = w.terrain? q
  near : ∀ k, w.Near p k ∨ w'.Near p k → Agree w w' k

theorem near_of_avatar? (ha : w.avatar? id = some a) : w.Near a.position id :=
  ⟨a.position, Consistent.place?_of_avatar? ha, a.position.touches_self⟩

/-- An element is not within one step of two positions that are apart. -/
theorem Near.not_near (h : w.Near p k) (hapart : p.Apart q) : ¬w.Near q k := by
  rintro ⟨r, hr, hqr⟩
  obtain ⟨r', hr', hpr⟩ := h
  obtain rfl : r' = r := Option.some.inj (hr'.symm.trans hr)
  exact hapart.not_touches hpr hqr

/-! ## Elements that agree -/

namespace Agree

theorem refl (w : World) (k : Nat) : Agree w w k := ⟨rfl, rfl⟩

theorem symm (h : Agree w w' k) : Agree w' w k := ⟨h.avatar?.symm, h.block?.symm⟩

theorem trans (h : Agree w w₁ k) (h' : Agree w₁ w' k) : Agree w w' k :=
  ⟨h'.avatar?.trans h.avatar?, h'.block?.trans h.block?⟩

variable (h : Agree w w' k)

include h

theorem place? : w'.place? k = w.place? k := by
  rw [World.place?, h.avatar?, h.block?, World.place?]

theorem updateAvatar (id : Nat) {f : Avatar → Avatar} (hf : ∀ a, (f a).id = a.id) :
    Agree (w.updateAvatar id f) (w'.updateAvatar id f) k where
  avatar? := by rw [avatar?_updateAvatar hf, avatar?_updateAvatar hf, h.avatar?]
  block? := h.block?

theorem updateBlock (i : Nat) {g : Block → Block} (hg : ∀ b, (g b).id = b.id) :
    Agree (w.updateBlock i g) (w'.updateBlock i g) k where
  avatar? := h.avatar?
  block? := by rw [block?_updateBlock hg, block?_updateBlock hg, h.block?]

theorem shift (a : Avatar) (target : Position) : Agree (w.shift a target) (w'.shift a target) k := by
  have hrelocate : ∀ {v v' : World} (i : Nat) (source : Position), Agree v v' k →
      Agree (v.relocate i source target) (v'.relocate i source target) k :=
    fun _ _ hv => ⟨hv.avatar?, hv.block?⟩
  have hput : Agree (w.putAvatar a.id a.position target) (w'.putAvatar a.id a.position target) k :=
    (hrelocate a.id a.position h).updateAvatar a.id (by intro; rfl)
  unfold World.shift
  cases a.held with
  | none => exact hput
  | some i => exact (hrelocate i a.position hput).updateBlock i (by intro; rfl)

theorem link (id i : Nat) : Agree (w.link id i) (w'.link id i) k :=
  (h.updateBlock i (by intro; rfl)).updateAvatar id (by intro; rfl)

theorem unlink (id i : Nat) : Agree (w.unlink id i) (w'.unlink id i) k :=
  (h.updateBlock i (by intro; rfl)).updateAvatar id (by intro; rfl)

end Agree

/-- Consistent worlds with one setting are equal if all of their elements are. -/
theorem Consistent.eq_of_agree (h : Consistent w) (h' : Consistent w') (hsetting : SameSetting w w')
    (hagree : ∀ k, Agree w w' k) : w' = w := by
  refine h.eq_of_elements h' hsetting ?_ ?_
  · exact eq_of_find?_key Avatar.id hsetting.avatarIds h.nodup_avatarIds fun k => (hagree k).avatar?
  · exact eq_of_find?_key Block.id hsetting.blockIds h.nodup_blockIds fun k => (hagree k).block?

/-! ## What a command changes -/

/-- Who changes nobody but himself and his blocks changes only what is where he is, if nothing moves.
-/
theorem changesAround_of_place? (h : Consistent w) (h' : Consistent w')
    (ha : w.avatar? a.id = some a) (hconfined : Confined a.id w w')
    (hplace : ∀ k, w'.place? k = w.place? k) : ChangesAround a.position w w' := by
  intro k
  have hself : w.place? a.id = some a.position := Consistent.place?_of_avatar? ha
  -- The avatar and its blocks, before and afterwards, have one position.
  have hnear : w.place? k = w.place? a.id → w.Near a.position k ∧ w'.Near a.position k := by
    intro hk
    have hk' : w.place? k = some a.position := hk.trans hself
    exact ⟨⟨_, hk', a.position.touches_self⟩,
      ⟨_, (hplace k).trans hk', a.position.touches_self⟩⟩
  by_cases hid : k = a.id
  · exact .inr (hnear (by rw [hid]))
  by_cases hbefore : w.load? a.id = some k
  · exact .inr (hnear (h.loaded hbefore).2)
  by_cases hafter : w'.load? a.id = some k
  · have hk := (h'.loaded hafter).2
    rw [hplace, hplace] at hk
    exact .inr (hnear hk)
  · exact .inl ⟨hconfined.avatar? k hid, hconfined.block? k hbefore hafter⟩

section Change

variable (h : Consistent w) (ha : w.avatar? a.id = some a)

include h ha

theorem changesAround_shift (htarget : a.position.Touches target) :
    ChangesAround a.position w (w.shift a target) := by
  intro k
  have hload : w.load? a.id = a.held := load?_of_avatar? ha
  by_cases hk : k = a.id ∨ a.held = some k
  · have hsame : w.place? k = w.place? a.id := by
      rcases hk with rfl | hk
      · rfl
      · exact (h.loaded (hload.trans hk)).2
    have hplace : (w.shift a target).place? k = some target := by
      rw [h.place?_shift ha, if_pos hk]
    exact .inr ⟨⟨_, hsame.trans (Consistent.place?_of_avatar? ha), a.position.touches_self⟩,
      ⟨_, hplace, htarget⟩⟩
  · rw [not_or] at hk
    have hconfined := Confined.shift ha target
    rw [← hload] at hk
    exact .inl ⟨hconfined.avatar? k hk.1, hconfined.block? k hk.2 (by rw [load?_shift]; exact hk.2)⟩

/-- A command changes nothing that is further than one step away. -/
theorem changesAround_execute (c : Command) :
    ChangesAround a.position w (c.execute a.id w).2 := by
  have hstay : ChangesAround a.position w w := fun k => .inl (.refl w k)
  have hplace := fun hplace => changesAround_of_place? h (h.execute a.id c) ha
    (Confined.execute c a.id w) hplace
  simp only [Command.execute, ha] at hplace ⊢
  cases c with
  | move direction =>
      rcases w.moveAvatar_cases a.id (direction.apply a.position) with
        heq | ⟨a', ha', -, -, heq⟩
      · simp only [heq]
        exact hstay
      · obtain rfl : a = a' := Option.some.inj (ha.symm.trans ha')
        simp only [heq]
        exact changesAround_shift h ha (Position.touches_apply direction a.position)
  | pickUp =>
      refine hplace fun k => ?_
      rcases w.pickUp_cases a.id with heq | ⟨_, _, -, -, -, heq⟩
      · simp only [heq]
      · simp only [heq, place?_link]
  | drop =>
      refine hplace fun k => ?_
      rcases w.drop_cases a.id with heq | ⟨_, _, _, -, -, -, -, heq⟩
      · simp only [heq]
      · simp only [heq, place?_unlink]
  | arithmetic op direction =>
      refine hplace fun k => ?_
      rcases w.calculate_cases a.id op (direction.apply a.position) with
        heq | ⟨_, _, _, _, _, -, -, -, -, -, heq⟩
      · simp only [heq]
      · simp only [heq]
        exact place?_updateBlock (by intro; rfl) (by intro; rfl)
  | branch direction condition => exact hstay
  | endBranch => exact hstay

end Change

/-! ## What a command depends on -/

namespace SameAround

section Tile

variable (h : SameAround p w w') (hq : p.Touches q)

include h hq

theorem seen : w'.seen q = w.seen q := by
  have htile : w'.tile? q = w.tile? q := by
    refine tile?_eq_of_occupies_iff (h.terrain q hq) fun k => ?_
    rw [h.consistent.occupies_iff, h.consistent'.occupies_iff]
    constructor
    · intro hk
      exact (h.near k (.inr ⟨q, hk, hq⟩)).place? ▸ hk
    · intro hk
      exact (h.near k (.inl ⟨q, hk, hq⟩)).place?.trans hk
  rw [World.seen, htile, World.seen]

theorem agree_of_mem (hk : k ∈ (w.seen q).occupants.ids) : Agree w w' k := by
  refine h.near k (.inl ⟨q, h.consistent.occupies_iff.mp ?_, hq⟩)
  rw [World.seen] at hk
  cases ht : w.tile? q with
  | none =>
      rw [ht] at hk
      cases hk
  | some t =>
      rw [ht] at hk
      exact ⟨t, ht, hk⟩

theorem avatarOn? : w'.avatarOn? q = w.avatarOn? q := by
  rw [avatarOn?_eq_seen, avatarOn?_eq_seen, h.seen hq, ← List.head?_filterMap,
    ← List.head?_filterMap]
  exact congrArg _ (List.filterMap_congr fun k hk => (h.agree_of_mem hq hk).avatar?)

theorem blockOn? : w'.blockOn? q = w.blockOn? q := by
  rw [blockOn?_eq_seen, blockOn?_eq_seen, h.seen hq, ← List.head?_filterMap,
    ← List.head?_filterMap]
  exact congrArg _ (List.filterMap_congr fun k hk => by rw [(h.agree_of_mem hq hk).block?])

theorem blockedFor (id : Nat) : w'.blockedFor id q = w.blockedFor id q := by
  rw [World.blockedFor, h.avatarOn? hq, World.blockedFor]

theorem evaluate (c : Condition) (id : Nat) : c.evaluate w' id q = c.evaluate w id q := by
  rw [evaluate_eq_seen, evaluate_eq_seen, h.seen hq, h.avatarOn? hq, h.blockOn? hq]
  cases c with
  | avatar =>
      rw [Bool.eq_iff_iff]
      simp only [List.any_eq_true]
      refine exists_congr fun k => and_congr_right fun hk => ?_
      rw [(h.agree_of_mem hq hk).avatar?]
  | terrain | block | empty | number => rfl

end Tile

section Actor

variable (h : SameAround a.position w w') (ha : w.avatar? a.id = some a)

include h ha

theorem avatar? : w'.avatar? a.id = some a :=
  (h.near a.id (.inl (near_of_avatar? ha))).avatar?.trans ha

/-- What the avatar carries is where the avatar is. -/
theorem block?_of_held (hk : a.held = some k) : w'.block? k = w.block? k := by
  have hplace := (h.consistent.loaded ((load?_of_avatar? ha).trans hk)).2
  exact (h.near k (.inl ⟨a.position, hplace.trans (Consistent.place?_of_avatar? ha),
    a.position.touches_self⟩)).block?

variable (hk : Agree w w' k)

include hk

theorem moveAvatar (htarget : a.position.Touches target) :
    Agree (w.moveAvatar a.id target).2 (w'.moveAvatar a.id target).2 k := by
  rw [moveAvatar_eq ha, moveAvatar_eq (h.avatar? ha), h.terrain target htarget,
    h.blockedFor htarget]
  split
  · exact hk.shift a target
  · exact hk

theorem pickUp : Agree (w.pickUp a.id).2 (w'.pickUp a.id).2 k := by
  simp only [World.pickUp, ha, h.avatar? ha, h.blockOn? a.position.touches_self]
  cases a.held with
  | some i => exact hk
  | none =>
      cases w.blockOn? a.position with
      | none => exact hk
      | some b => exact hk.link a.id b.id

theorem drop : Agree (w.drop a.id).2 (w'.drop a.id).2 k := by
  cases hi : a.held with
  | none =>
      simp only [World.drop, ha, h.avatar? ha, hi]
      exact hk
  | some i =>
      rw [drop_eq ha hi, drop_eq (h.avatar? ha) hi, h.blockOn? a.position.touches_self,
        h.block?_of_held ha hi]
      split
      · exact hk.unlink a.id i
      · exact hk

theorem calculate (op : Operation) (hq : a.position.Touches q) :
    Agree (w.calculate a.id op q) (w'.calculate a.id op q) k := by
  have hload : w.load? a.id = a.held := load?_of_avatar? ha
  have hload' : w'.load? a.id = a.held := load?_of_avatar? (h.avatar? ha)
  have hnumber : w'.heldNumber? a.id = w.heldNumber? a.id := by
    rw [heldNumber?_eq, heldNumber?_eq, hload, hload']
    cases hi : a.held with
    | none => rfl
    | some i => exact congrArg (Option.map _) (h.block?_of_held ha hi)
  rw [World.load?] at hload hload'
  simp only [World.calculate, hload, hload', hnumber, h.blockOn? hq]
  cases hi : a.held with
  | none => exact hk
  | some i =>
      cases w.heldNumber? a.id with
      | none => exact hk
      | some number =>
          cases w.blockOn? q with
          | none => exact hk
          | some operand =>
              simp only
              cases op.result? number operand.number with
              | none => exact hk
              | some result =>
                  simp only [setBlockNumber, h.block?_of_held ha hi]
                  cases w.block? i with
                  | none => exact hk
                  | some b => exact hk.updateBlock i (by intro; rfl)

end Actor

/-- Around its avatar, a command goes on in the same way in both worlds, and elements that agreed in
them agree afterwards, wherever they are. -/
theorem execute (h : SameAround a.position w w') (ha : w.avatar? a.id = some a) (c : Command) :
    (c.execute a.id w').1 = (c.execute a.id w).1 ∧
      ∀ k, Agree w w' k → Agree (c.execute a.id w).2 (c.execute a.id w').2 k := by
  have htouch := fun d : Direction => Position.touches_apply d a.position
  simp only [Command.execute, ha, h.avatar? ha]
  cases c with
  | move direction => exact ⟨rfl, fun k hk => h.moveAvatar ha hk (htouch direction)⟩
  | pickUp => exact ⟨rfl, fun k hk => h.pickUp ha hk⟩
  | drop => exact ⟨rfl, fun k hk => h.drop ha hk⟩
  | arithmetic op direction => exact ⟨rfl, fun k hk => h.calculate ha hk op (htouch direction)⟩
  | branch direction condition =>
      simp only [h.evaluate (htouch direction)]
      exact ⟨trivial, fun k hk => hk⟩
  | endBranch => exact ⟨rfl, fun k hk => hk⟩

end SameAround

/-! ## Two avatars -/

/-- What changes around one position leaves the world the same around another one that is apart. -/
theorem ChangesAround.sameAround (hchanges : ChangesAround p w w') (h : Consistent w)
    (h' : Consistent w') (hsetting : SameSetting w w') (hapart : p.Apart q) :
    SameAround q w w' where
  consistent := h
  consistent' := h'
  terrain := fun r _ => hsetting.terrain r
  near := by
    intro k hk
    rcases hchanges k with hagree | ⟨hp, hp'⟩
    · exact hagree
    · exact absurd hk (not_or.mpr ⟨hp.not_near hapart, hp'.not_near hapart⟩)

theorem sameAround_execute (h : Consistent w) (ha : w.avatar? a.id = some a) (c : Command)
    (hapart : a.position.Apart q) : SameAround q w (c.execute a.id w).2 :=
  (changesAround_execute h ha c).sameAround h (h.execute a.id c) (.execute c a.id w) hapart

section Pair

variable (h : Consistent w) (ha : w.avatar? a.id = some a) (hb : w.avatar? b.id = some b)
  (hapart : a.position.Apart b.position) (c d : Command)

include h ha hb hapart

/-- What `a` does not change in `w`, it does not change after a command of `b` either. -/
theorem agree_after (hk : Agree w (c.execute a.id w).2 k) :
    Agree (d.execute b.id w).2 (c.execute a.id (d.execute b.id w).2).2 k := by
  have hsame : SameAround a.position w (d.execute b.id w).2 :=
    sameAround_execute h hb d hapart.symm
  rcases changesAround_execute hsame.consistent' (hsame.avatar? ha) c k with hagree | ⟨hnear, -⟩
  · exact hagree
  · -- Around `a` the command of `b` has changed nothing.
    have hunchanged : Agree w (d.execute b.id w).2 k := hsame.near k (.inr hnear)
    exact hunchanged.symm.trans (hk.trans ((hsame.execute ha c).2 k hunchanged))

/-- For what `a` does not change in `w`, it does not matter who goes first. -/
theorem agree_orders (hk : Agree w (c.execute a.id w).2 k) :
    Agree (c.execute a.id (d.execute b.id w).2).2 (d.execute b.id (c.execute a.id w).2).2 k := by
  have hsame : SameAround b.position w (c.execute a.id w).2 := sameAround_execute h ha c hapart
  exact (agree_after h ha hb hapart c d hk).symm.trans ((hsame.execute hb d).2 k hk)

theorem execute_execute : (d.execute b.id (c.execute a.id w).2).2
    = (c.execute a.id (d.execute b.id w).2).2 := by
  -- No element is within reach of both avatars, so one of them does not change it.
  have hagree : ∀ k, Agree (c.execute a.id (d.execute b.id w).2).2
      (d.execute b.id (c.execute a.id w).2).2 k := by
    intro k
    rcases changesAround_execute h ha c k with hk | ⟨hnear, -⟩
    · exact agree_orders h ha hb hapart c d hk
    · rcases changesAround_execute h hb d k with hk | ⟨hnear', -⟩
      · exact (agree_orders h hb ha hapart.symm d c hk).symm
      · exact absurd hnear' (hnear.not_near hapart)
  have hfirst : SameSetting w (d.execute b.id (c.execute a.id w).2).2 :=
    (SameSetting.execute c a.id w).trans (.execute d b.id _)
  have hsecond : SameSetting w (c.execute a.id (d.execute b.id w).2).2 :=
    (SameSetting.execute d b.id w).trans (.execute c a.id _)
  have hconsistent : Consistent (d.execute b.id (c.execute a.id w).2).2 :=
    (h.execute a.id c).execute b.id d
  have hconsistent' : Consistent (c.execute a.id (d.execute b.id w).2).2 :=
    (h.execute b.id d).execute a.id c
  exact hconsistent'.eq_of_agree hconsistent (hsecond.symm.trans hfirst) hagree

end Pair

/-- Two avatars at the ends of a corridor of four tiles. The left one stands on a block, and the
right one carries one. -/
def corridor : World :=
  [.setDimensions 1 4, .addAvatar ⟨1, ⟨0, 0⟩, 1, none⟩, .addAvatar ⟨2, ⟨0, 3⟩, 1, none⟩,
    .addBlock ⟨3, ⟨0, 0⟩, 4, false⟩, .addBlock ⟨4, ⟨0, 3⟩, 5, false⟩, .pickUp 2].foldl perform empty

end World

/-! ## Independent commands -/

namespace Command

open World (Reachable ReachedBy)

/-- The avatar `i` executes `c` and the avatar `j` executes `d`, and it does not matter in which
order. -/
structure Independent (c : Command) (i : Nat) (d : Command) (j : Nat) (w : World) : Prop where
  world : (d.execute j (c.execute i w).2).2 = (c.execute i (d.execute j w).2).2
  /-- The first one goes on in the same way after the other one. -/
  flow : (c.execute i (d.execute j w).2).1 = (c.execute i w).1
  flow' : (d.execute j (c.execute i w).2).1 = (d.execute j w).1

/-- In every reachable world, commands of two avatars that are at least three rows or three columns
apart are independent. -/
theorem independent_of_apart {w : World} {a b : Avatar} (hw : Reachable w) (ha : a ∈ w.avatars)
    (hb : b ∈ w.avatars) (hapart : a.position.Apart b.position) (c d : Command) :
    Independent c a.id d b.id w := by
  have h := hw.consistent
  have ha' : w.avatar? a.id = some a := h.avatar?_eq_some_iff.mpr ⟨ha, rfl⟩
  have hb' : w.avatar? b.id = some b := h.avatar?_eq_some_iff.mpr ⟨hb, rfl⟩
  exact {
    world := World.execute_execute h ha' hb' hapart c d
    flow := ((World.sameAround_execute h hb' d hapart.symm).execute ha' c).1
    flow' := ((World.sameAround_execute h ha' c hapart).execute hb' d).1 }

/-- The left avatar of the corridor picks its block up while the right one carries its own to the
next tile. -/
theorem independent_of_apart_corridor :
    Reachable World.corridor ∧ ⟨1, ⟨0, 0⟩, 1, none⟩ ∈ World.corridor.avatars ∧
      ⟨2, ⟨0, 3⟩, 1, some 4⟩ ∈ World.corridor.avatars ∧
      Independent .pickUp 1 (.move .west) 2 World.corridor := by
  have hw : Reachable World.corridor := ReachedBy.empty.foldl _ (by decide)
  have ha : ⟨1, ⟨0, 0⟩, 1, none⟩ ∈ World.corridor.avatars := by decide
  have hb : ⟨2, ⟨0, 3⟩, 1, some 4⟩ ∈ World.corridor.avatars := by decide
  exact ⟨hw, ha, hb, independent_of_apart hw ha hb (by decide) _ _⟩

/-- With one tile less between them, both could want the same one, and the first to move gets it. -/
example : let w := (move .east).execute 1 World.corridor |>.2
    ¬Independent (.move .east) 1 (.move .west) 2 w := by
  intro w h
  exact absurd (congrArg (·.avatars) h.world) (by decide)

end Command

end TilePuzzle
