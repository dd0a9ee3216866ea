import TilePuzzle.Proofs.World.Effects

/-!
# Taking an action back

Dropping takes back what picking up has done, picking up takes back what dropping has done, and a
move back to the old position takes back a move. Each of them touches several records, the avatar,
the block and two tiles, and all of them have to come back to what they were.

Two things can be in the way. Who has picked up one of several blocks at rest cannot put it back
among the others, and who has left a tile that cannot be entered, or another avatar that shared it,
cannot return. Nothing else is: the records agree, so it is enough that the elements come back
(`Consistent.eq_of_elements`).

The main statement is `undone_of_reachable`.
-/

namespace TilePuzzle

/-- To change the elements with a property, and then to change them back, changes nothing. -/
theorem map_ite_undo {α : Type} {q : α → Prop} [DecidablePred q] {f g : α → α} {l : List α}
    (hq : ∀ x ∈ l, q x → q (f x)) (hback : ∀ x ∈ l, q x → g (f x) = x) :
    (l.map fun x => if q x then f x else x).map (fun x => if q x then g x else x) = l := by
  rw [List.map_map]
  refine (List.map_congr_left fun x hx => ?_).trans (List.map_id _)
  rw [Function.comp_apply]
  by_cases hx' : q x
  · rw [if_pos hx', if_pos (hq x hx hx'), hback x hx hx']
    rfl
  · rw [if_neg hx', if_neg hx']
    rfl

namespace World

variable {w w' : World} {id k : Nat} {p target : Position} {a : Avatar} {b : Block}

/-- No block but `k` rests at `p`. -/
def RestsAlone (w : World) (k : Nat) (p : Position) : Prop :=
  ∀ b ∈ w.blocks, b.position = p → b.held = false → b.id = k

/-- `p` is floor, and no avatar but `id` is there. -/
def ClearBut (w : World) (id : Nat) (p : Position) : Prop :=
  w.terrain? p = some .floor ∧ ∀ c ∈ w.avatars, c.position = p → c.id = id

/-- What comes of taking back an action of the avatar `a` in the world `w`. -/
structure Undone (w : World) (a : Avatar) : Prop where
  /-- What was dropped can be picked up again. -/
  drop : ∀ k w', w.drop a.id = (some k, w') → w'.pickUp a.id = (some k, w)
  /-- What was picked up can be dropped again if it lay alone. -/
  pickUp : ∀ k w', w.pickUp a.id = (some k, w') →
    (w'.drop a.id = (some k, w) ↔ w.RestsAlone k a.position) ∧
      (¬w.RestsAlone k a.position → w'.drop a.id = (none, w'))
  /-- A tile that was left can be entered again if it is floor and nobody stayed behind. -/
  move : ∀ target w', target ≠ a.position → w.moveAvatar a.id target = (true, w') →
    (w'.moveAvatar a.id a.position = (true, w) ↔ w.ClearBut a.id a.position) ∧
      (¬w.ClearBut a.id a.position → w'.moveAvatar a.id a.position = (false, w'))

/-! ## After the action -/

theorem avatar?_link (ha : w.avatar? id = some a) :
    (w.link id k).avatar? id = some { a with held := some k } := by
  refine (avatar?_updateAvatar (w := w.updateBlock k _) (by intro; rfl)).trans ?_
  rw [if_pos rfl, avatar?_updateBlock, ha]
  rfl

theorem avatar?_unlink (ha : w.avatar? id = some a) :
    (w.unlink id k).avatar? id = some { a with held := none } := by
  refine (avatar?_updateAvatar (w := w.updateBlock k _) (by intro; rfl)).trans ?_
  rw [if_pos rfl, avatar?_updateBlock, ha]
  rfl

/-- After picking up, a tile is bare if nothing else rested there. -/
theorem bare_link_iff : (w.link id k).Bare p ↔ w.RestsAlone k p := by
  have hblocks : (w.link id k).blocks
      = w.blocks.map fun b => if b.id = k then { b with held := true } else b := rfl
  rw [Bare, hblocks, List.forall_mem_map]
  refine forall₂_congr fun b _ => ?_
  by_cases hk : b.id = k
  · simp [hk]
  · simp [hk]

/-- The tile that an avatar has left is clear if nobody stayed behind. -/
theorem clear_shift_iff (hne : target ≠ a.position) :
    (w.shift a target).Clear a.position ↔ w.ClearBut a.id a.position := by
  rw [Clear, ClearBut, (SameSetting.shift w a target).terrain, Tidy.avatars_shift,
    List.forall_mem_map]
  refine and_congr_right fun _ => forall₂_congr fun c _ => ?_
  by_cases hid : c.id = a.id
  · simp [hid, hne]
  · simp [hid]

/-! ## Picking up and dropping -/

namespace Consistent

section Hands

variable (h : Consistent w)

include h

/-- The two records of a carrying link that get their old values back leave no trace. -/
theorem hands_restored (ha : w.avatar? id = some a) (hb : w.block? k = some b)
    (load : Option Nat) (mark : Bool) :
    let w' := (w.updateBlock k ({ · with held := mark })).updateAvatar id ({ · with held := load })
    (w'.updateBlock k ({ · with held := b.held })).updateAvatar id ({ · with held := a.held })
      = w := by
  intro w'
  have havatars : (w'.updateAvatar id ({ · with held := a.held })).avatars = w.avatars := by
    refine map_ite_undo (fun _ _ hc => hc) fun c hc hid => ?_
    rw [h.eq_of_avatar? ha hc hid]
  have hblocks : (w'.updateBlock k ({ · with held := b.held })).blocks = w.blocks := by
    refine map_ite_undo (fun _ _ hc => hc) fun c hc hid => ?_
    rw [h.eq_of_block? hb hc hid]
  calc (w'.updateBlock k ({ · with held := b.held })).updateAvatar id ({ · with held := a.held })
      = ⟨w.grid, (w'.updateAvatar id ({ · with held := a.held })).avatars,
          (w'.updateBlock k ({ · with held := b.held })).blocks⟩ := rfl
    _ = w := by rw [havatars, hblocks]

theorem unlink_link (ha : w.avatar? id = some a) (hempty : a.held = none)
    (hb : w.block? k = some b) (hrests : b.held = false) : (w.link id k).unlink id k = w := by
  have hrestored := h.hands_restored ha hb (some k) true
  rw [hempty, hrests] at hrestored
  exact hrestored

theorem link_unlink (ha : w.avatar? id = some a) (hk : a.held = some k)
    (hb : w.block? k = some b) (hheld : b.held = true) : (w.unlink id k).link id k = w := by
  have hrestored := h.hands_restored ha hb none false
  rw [hk, hheld] at hrestored
  exact hrestored

theorem carried_block (ha : w.avatar? a.id = some a) (hk : a.held = some k)
    (hb : w.block? k = some b) : b.held = true ∧ b.position = a.position := by
  obtain ⟨b', hb', hheld, hposition, -⟩ := h.held_block ha hk
  obtain rfl := Option.some.inj (hb.symm.trans hb')
  exact ⟨hheld, hposition⟩

/-- A block that is put down on a bare tile answers for it. -/
theorem restsFirst_unlink (ha : w.avatar? a.id = some a) (hk : a.held = some k)
    (hb : w.block? k = some b) (hbare : w.Bare a.position) :
    (w.unlink a.id k).RestsFirst a.position { b with held := false } := by
  obtain ⟨-, hposition⟩ := h.carried_block ha hk hb
  have hblocks : (w.unlink a.id k).blocks
      = w.blocks.map fun c => if c.id = k then { c with held := false } else c := rfl
  have hid : b.id = k := id_of_block? hb
  refine ⟨⟨?_, hposition, rfl⟩, fun c hc hat hrests => ?_⟩
  · rw [hblocks]
    exact List.mem_map.mpr ⟨b, mem_of_block? hb, if_pos hid⟩
  · rw [hblocks] at hc
    obtain ⟨c, hc', rfl⟩ := List.mem_map.mp hc
    by_cases hck : c.id = k
    · rw [if_pos hck]
      exact (hid.trans hck.symm).le
    · rw [if_neg hck] at hat hrests
      rw [hbare c hc' hat] at hrests
      cases hrests

theorem drop_of_bare (ha : w.avatar? id = some a) (hk : a.held = some k)
    (hbare : w.Bare a.position) : w.drop id = (some k, w.unlink id k) := by
  obtain rfl := id_of_avatar? ha
  obtain ⟨b, hb, -⟩ := h.held_block ha hk
  rw [drop_eq ha hk, if_pos ⟨h.bare_iff.mp hbare, by rw [hb]; rfl⟩]

theorem drop_of_not_bare (ha : w.avatar? id = some a) (hk : a.held = some k)
    (hbare : ¬w.Bare a.position) : w.drop id = (none, w) := by
  rw [drop_eq ha hk, if_neg fun hguard => hbare (h.bare_iff.mpr hguard.1)]

theorem pickUp_of_drop {k : Nat} (ha : w.avatar? a.id = some a)
    (hdrop : w.drop a.id = (some k, w')) : w'.pickUp a.id = (some k, w) := by
  rcases w.drop_cases a.id with heq | ⟨a', k', b, ha', hk, hb, hfree, heq⟩
  · rw [heq] at hdrop
    cases hdrop
  · rw [ha, Option.some.injEq] at ha'
    subst ha'
    rw [heq, Prod.mk.injEq, Option.some.injEq] at hdrop
    obtain ⟨rfl, rfl⟩ := hdrop
    obtain ⟨hheld, -⟩ := h.carried_block ha hk hb
    have hfirst := h.restsFirst_unlink ha hk hb (h.bare_iff.mpr hfree)
    have hon := (h.unlink ha hk hb).blockOn?_eq_some_iff_restsFirst.mpr hfirst
    rw [pickUp_of_blockOn? (avatar?_unlink ha) rfl hon]
    show (some b.id, (w.unlink a.id k').link a.id b.id) = _
    rw [id_of_block? hb, h.link_unlink ha hk hb hheld]

theorem drop_of_pickUp (ha : w.avatar? a.id = some a) (hpick : w.pickUp a.id = (some k, w')) :
    (w.RestsAlone k a.position → w'.drop a.id = (some k, w)) ∧
      (¬w.RestsAlone k a.position → w'.drop a.id = (none, w')) := by
  rcases w.pickUp_cases a.id with heq | ⟨a', b, ha', hempty, hon, heq⟩
  · rw [heq] at hpick
    cases hpick
  · rw [ha, Option.some.injEq] at ha'
    subst ha'
    rw [heq, Prod.mk.injEq, Option.some.injEq] at hpick
    obtain ⟨rfl, rfl⟩ := hpick
    obtain ⟨hb, hrests, -⟩ := World.blockOn?_eq_some_iff.mp hon
    have hlinked := h.link ha hempty hon
    constructor
    · intro halone
      rw [hlinked.drop_of_bare (avatar?_link ha) rfl (bare_link_iff.mpr halone),
        h.unlink_link ha hempty hb hrests]
    · intro hothers
      exact hlinked.drop_of_not_bare (avatar?_link ha) rfl (mt bare_link_iff.mp hothers)

end Hands

/-! ## Moves -/

section Move

variable (h : Consistent w) (ha : w.avatar? a.id = some a)

include h ha

theorem avatar?_shift (htarget : w.grid.Contains target) :
    (w.shift a target).avatar? a.id = some { a with position := target } := by
  refine (h.shift ha htarget).avatar?_eq_some_iff.mpr ⟨?_, rfl⟩
  rw [Tidy.avatars_shift]
  exact List.mem_map.mpr ⟨a, mem_of_avatar? ha, if_pos rfl⟩

/-- To move back to where one came from leaves no trace. -/
theorem shift_shift (hplace : w.grid.Contains a.position) (htarget : w.grid.Contains target) :
    (w.shift a target).shift { a with position := target } a.position = w := by
  have hmoved := h.shift ha htarget
  have hsetting : SameSetting w (w.shift a target) := .shift w a target
  refine h.eq_of_elements ?_ (hsetting.trans (.shift _ _ _)) ?_ ?_
  · exact hmoved.shift (h.avatar?_shift ha htarget) (hsetting.contains_iff.mpr hplace)
  · rw [Tidy.avatars_shift, Tidy.avatars_shift]
    refine map_ite_undo (fun _ _ hc => hc) fun c hc hid => ?_
    rw [h.eq_of_avatar? ha hc hid]
  · rw [blocks_shift, blocks_shift]
    refine map_ite_undo (fun _ _ hc => hc) fun c hc hk => ?_
    -- The block that moves along was where its carrier was.
    obtain ⟨b, hb, -, hposition, -⟩ := h.held_block ha hk
    rw [h.eq_of_block? hb hc rfl, ← hposition]

theorem moveAvatar_back {target : Position} (hplace : w.grid.Contains a.position)
    (hne : target ≠ a.position) (hmove : w.moveAvatar a.id target = (true, w')) :
    (w.ClearBut a.id a.position → w'.moveAvatar a.id a.position = (true, w)) ∧
      (¬w.ClearBut a.id a.position → w'.moveAvatar a.id a.position = (false, w')) := by
  rcases w.moveAvatar_cases a.id target with heq | ⟨a', ha', hfloor, -, heq⟩
  · rw [heq] at hmove
    cases hmove
  · rw [ha, Option.some.injEq] at ha'
    subst ha'
    rw [heq, Prod.mk.injEq] at hmove
    obtain ⟨-, rfl⟩ := hmove
    have htarget := contains_of_floor (terrain?_eq_floor_iff.mp hfloor)
    have hmoved := h.shift ha htarget
    have ha' := h.avatar?_shift ha htarget
    constructor
    · intro hclear
      rw [hmoved.moveAvatar_of_clear (a := { a with position := target }) ha'
        ((clear_shift_iff hne).mpr hclear), h.shift_shift ha hplace htarget]
    · intro hblocked
      exact hmoved.moveAvatar_of_not_clear (a := { a with position := target }) ha' hne.symm
        (mt (clear_shift_iff hne).mp hblocked)

end Move

end Consistent

/-- In every reachable world, what was dropped can be picked up again, what was picked up can be
dropped again where no other block rests, and a move can be taken back onto floor where no other
avatar is. This restores the world in all of its parts; what cannot be taken back is refused. -/
theorem undone_of_reachable (hw : Reachable w) (ha : a ∈ w.avatars) : Undone w a := by
  have h := hw.consistent
  have ha' : w.avatar? a.id = some a := h.avatar?_eq_some_iff.mpr ⟨ha, rfl⟩
  exact {
    drop := fun k w' hdrop => h.pickUp_of_drop ha' hdrop
    pickUp := by
      intro k w' hpick
      obtain ⟨hback, hrefused⟩ := h.drop_of_pickUp ha' hpick
      refine ⟨⟨fun hdrop => ?_, hback⟩, hrefused⟩
      by_contra hothers
      rw [hrefused hothers] at hdrop
      cases hdrop
    move := by
      intro target w' hne hmove
      have hplace := h.contains_of_place? (h.place?_of_mem_avatars ha)
      obtain ⟨hback, hrefused⟩ := h.moveAvatar_back ha' hplace hne hmove
      refine ⟨⟨fun hreturn => ?_, hback⟩, hrefused⟩
      by_contra hblocked
      rw [hrefused hblocked] at hreturn
      cases hreturn }

/-- A tile with the avatars 1 and 2 and the blocks 6 and 8 at rest; the avatar 2 carries the block 4
there. -/
def stacked : World :=
  [.setDimensions 1 2, .addAvatar { id := 1, position := ⟨0, 0⟩ },
    .addAvatar { id := 2, position := ⟨0, 0⟩ },
    .addBlock { id := 8, position := ⟨0, 0⟩, number := 3 },
    .addBlock { id := 4, position := ⟨0, 0⟩, number := 5 },
    .addBlock { id := 6, position := ⟨0, 0⟩, number := -1 }, .pickUp 2].foldl perform empty

/-- The avatar 1 picks up the block 6, and then it cannot put it back beside the block 8. -/
theorem undone_of_reachable_stacked :
    Reachable stacked ∧ { id := 1, position := ⟨0, 0⟩ } ∈ stacked.avatars ∧
      (stacked.pickUp 1).1 = some 6 ∧ ((stacked.pickUp 1).2.drop 1).1 = none ∧
      Undone stacked { id := 1, position := ⟨0, 0⟩ } := by
  have h : Reachable stacked := ReachedBy.empty.foldl _ (by decide)
  have ha : { id := 1, position := ⟨0, 0⟩ } ∈ stacked.avatars := by decide
  exact ⟨h, ha, by decide, by decide, undone_of_reachable h ha⟩

end World

end TilePuzzle
