import Mathlib.Order.MinMax
import TilePuzzle.Proofs.World.Occupancy
import TilePuzzle.Proofs.World.Setting

/-!
# Nothing piles up

An avatar enters only floor on which no other avatar answers, and a block is put down only where
none answers. Both tests ask who answers for a tile and count nobody. In a consistent world they
come to the same, for somebody answers as soon as there is anybody. So what avatars do makes no tile
fuller than it was, unless to hold a single avatar and a single resting block. `Tidy` says this of a
world and a later one, together with the rest that play keeps: the setting, and that avatars only go
where there is floor.

Elements are counted by a test on the lists (`avatarsAt`, `restingAt`). An operation changes the
elements of one identifier. Either it makes no further element pass the test (`countP_update_le`),
or the changed one is the only one that passes (`countP_update_le_one`).
-/

namespace TilePuzzle

section Key

variable {α : Type} (key : α → Nat) {f : α → α} {q : α → Bool} {l : List α} {i : Nat}

theorem countP_update_le (h : ∀ a ∈ l, q (if key a = i then f a else a) = true → q a = true) :
    (l.map fun a => if key a = i then f a else a).countP q ≤ l.countP q := by
  rw [List.countP_map]
  exact List.countP_mono_left h

/-- With distinct keys, one element at most passes a test that only the key `i` passes. -/
theorem countP_update_le_one (hl : (l.map key).Nodup)
    (h : ∀ a ∈ l, q (if key a = i then f a else a) = true → key a = i) :
    (l.map fun a => if key a = i then f a else a).countP q ≤ 1 := by
  rw [List.countP_map]
  calc l.countP (q ∘ fun a => if key a = i then f a else a)
      ≤ l.countP (fun a => key a == i) :=
        List.countP_mono_left fun a ha hq => beq_iff_eq.mpr (h a ha hq)
    _ = (l.map key).count i := by
        rw [List.count, List.countP_map]
        rfl
    _ ≤ 1 := List.nodup_iff_count_le_one.mp hl i

end Key

namespace World

variable {w w₁ w' : World} {id k : Nat} {a : Avatar} {b : Block} {p target : Position}

/-- How many avatars are at `p`. -/
def avatarsAt (w : World) (p : Position) : Nat := w.avatars.countP (·.position = p)

/-- How many blocks rest at `p`. -/
def restingAt (w : World) (p : Position) : Nat :=
  w.blocks.countP fun b => b.position = p ∧ b.held = false

/-- Between `w` and `w'` nothing has piled up, and nobody has gone where there is no floor. -/
structure Tidy (w w' : World) : Prop where
  setting : SameSetting w w'
  avatars : ∀ p, w'.avatarsAt p ≤ max 1 (w.avatarsAt p)
  blocks : ∀ p, w'.restingAt p ≤ max 1 (w.restingAt p)
  /-- Every avatar is where it was, or on floor. -/
  footing : ∀ a' ∈ w'.avatars, (∃ a ∈ w.avatars, a.id = a'.id ∧ a.position = a'.position) ∨
    w'.terrain? a'.position = some .floor

/-- No two avatars share a tile, and no two resting blocks do. -/
structure Spread (w : World) : Prop where
  avatars : (w.avatars.map (·.position)).Nodup
  blocks : ((w.blocks.filter (!·.held)).map (·.position)).Nodup

theorem avatarsAt_eq_count (w : World) (p : Position) :
    w.avatarsAt p = (w.avatars.map (·.position)).count p := by
  rw [List.count, List.countP_map]
  rfl

theorem restingAt_eq_count (w : World) (p : Position) :
    w.restingAt p = ((w.blocks.filter (!·.held)).map (·.position)).count p := by
  rw [List.count, List.countP_map, List.countP_filter, restingAt]
  congr 1
  funext b
  rw [Bool.decide_and, Function.comp_apply, Bool.decide_eq_false]
  rfl

theorem spread_iff : w.Spread ↔ ∀ p, w.avatarsAt p ≤ 1 ∧ w.restingAt p ≤ 1 := by
  constructor
  · intro h p
    rw [avatarsAt_eq_count, restingAt_eq_count]
    exact ⟨List.nodup_iff_count_le_one.mp h.avatars p, List.nodup_iff_count_le_one.mp h.blocks p⟩
  · intro h
    constructor
    · exact List.nodup_iff_count_le_one.mpr fun p => avatarsAt_eq_count w p ▸ (h p).1
    · exact List.nodup_iff_count_le_one.mpr fun p => restingAt_eq_count w p ▸ (h p).2

namespace Tidy

/-- Elements that are spread out stay so. -/
theorem spread (h : Tidy w w') (hw : w.Spread) : w'.Spread := by
  rw [spread_iff] at hw ⊢
  intro p
  have havatars := h.avatars p
  have hblocks := h.blocks p
  have hbefore := hw p
  omega

theorem refl (w : World) : Tidy w w where
  setting := .refl w
  avatars := fun _ => Nat.le_max_right _ _
  blocks := fun _ => Nat.le_max_right _ _
  footing := fun a ha => .inl ⟨a, ha, rfl, rfl⟩

theorem trans (h : Tidy w w₁) (h' : Tidy w₁ w') : Tidy w w' where
  setting := h.setting.trans h'.setting
  avatars := by
    intro p
    have hfirst := h.avatars p
    have hthen := h'.avatars p
    omega
  blocks := by
    intro p
    have hfirst := h.blocks p
    have hthen := h'.blocks p
    omega
  footing := by
    intro a' ha'
    rcases h'.footing a' ha' with ⟨a₁, ha₁, hid₁, hposition₁⟩ | hfloor
    · rcases h.footing a₁ ha₁ with ⟨a, ha, hid, hposition⟩ | hfloor
      · exact .inl ⟨a, ha, hid.trans hid₁, hposition.trans hposition₁⟩
      · rw [hposition₁, ← h'.setting.terrain] at hfloor
        exact .inr hfloor
    · exact .inr hfloor

/-! ## Changes in place -/

/-- A change of an avatar that leaves its position alone. -/
theorem updateAvatar (w : World) (id : Nat) {f : Avatar → Avatar} (hid : ∀ a, (f a).id = a.id)
    (hposition : ∀ a, (f a).position = a.position) : Tidy w (w.updateAvatar id f) where
  setting := .updateAvatar w id hid
  avatars := by
    intro p
    refine le_max_of_le_right (countP_update_le Avatar.id fun a _ hp => ?_)
    split at hp
    · rwa [hposition a] at hp
    · exact hp
  blocks := fun _ => Nat.le_max_right _ _
  footing := by
    intro a' ha'
    obtain ⟨a, ha, rfl⟩ := List.mem_map.mp ha'
    refine .inl ⟨a, ha, ?_⟩
    split
    · exact ⟨(hid a).symm, (hposition a).symm⟩
    · exact ⟨rfl, rfl⟩

/-- A change of a block that leaves its position alone and does not put it down. -/
theorem updateBlock (w : World) (k : Nat) {g : Block → Block} (hid : ∀ b, (g b).id = b.id)
    (hposition : ∀ b, (g b).position = b.position)
    (hheld : ∀ b, (g b).held = false → b.held = false) : Tidy w (w.updateBlock k g) where
  setting := .updateBlock w k hid
  avatars := fun _ => Nat.le_max_right _ _
  blocks := by
    intro p
    refine le_max_of_le_right (countP_update_le Block.id fun b _ hp => ?_)
    rw [decide_eq_true_eq] at hp ⊢
    split at hp
    · rw [hposition b] at hp
      exact ⟨hp.1, hheld b hp.2⟩
    · exact hp
  footing := fun a ha => .inl ⟨a, ha, rfl, rfl⟩

theorem link (w : World) (id k : Nat) : Tidy w (w.link id k) :=
  (updateBlock w k (by intro; rfl) (by intro; rfl) (by intro _ h; cases h)).trans
    (updateAvatar _ id (by intro; rfl) (by intro; rfl))

/-! ## Moves -/

theorem avatars_shift (w : World) (a : Avatar) (target : Position) : (w.shift a target).avatars
    = w.avatars.map fun c => if c.id = a.id then { c with position := target } else c := by
  unfold shift
  cases a.held <;> rfl

section Shift

variable (h : Consistent w) (ha : w.avatar? a.id = some a)

include h ha

/-- The tile that an avatar enters is its own, or nobody is there. -/
theorem clear_of_blockedFor (hclear : w.blockedFor a.id target = false) :
    a.position = target ∨ ∀ c ∈ w.avatars, c.position ≠ target := by
  cases hon : w.avatarOn? target with
  | none => exact .inr (h.avatarOn?_eq_none_iff.mp hon)
  | some c =>
      rw [blockedFor, hon, Option.any_some, decide_eq_false_iff_not, not_not] at hclear
      obtain ⟨⟨hc, hposition⟩, -⟩ := h.avatarOn?_eq_some_iff.mp hon
      obtain rfl := h.eq_of_avatar? ha hc hclear
      exact .inl hposition

theorem avatarsAt_shift_le (hclear : w.blockedFor a.id target = false) (p : Position) :
    (w.shift a target).avatarsAt p ≤ max 1 (w.avatarsAt p) := by
  rw [avatarsAt, avatars_shift]
  by_cases hp : p = target ∧ a.position ≠ target
  · obtain ⟨rfl, hne⟩ := hp
    refine le_max_of_le_left (countP_update_le_one Avatar.id h.nodup_avatarIds ?_)
    intro c hc hat
    by_contra hid
    rw [if_neg hid, decide_eq_true_eq] at hat
    exact (clear_of_blockedFor h ha hclear).resolve_left hne c hc hat
  · refine le_max_of_le_right (countP_update_le Avatar.id fun c hc hat => ?_)
    rw [decide_eq_true_eq] at hat ⊢
    split at hat
    · next hid =>
        obtain rfl := h.eq_of_avatar? ha hc hid
        by_contra hne
        exact hp ⟨hat.symm, fun hsame => hne (hsame.trans hat)⟩
    · exact hat

/-- The block that moves along is carried, so no resting block moves. -/
theorem restingAt_shift_le (p : Position) : (w.shift a target).restingAt p ≤ w.restingAt p := by
  unfold shift
  cases hk : a.held with
  | none => exact Nat.le_refl _
  | some k =>
      obtain ⟨b, hb, hheld, -⟩ := h.held_block ha hk
      refine countP_update_le Block.id fun c hc hat => ?_
      rw [decide_eq_true_eq] at hat ⊢
      split at hat
      · next hid =>
          obtain rfl := h.eq_of_block? hb hc hid
          exact absurd hat.2 (by simp [hheld])
      · exact hat

theorem shift (hfloor : w.terrain? target = some .floor)
    (hclear : w.blockedFor a.id target = false) : Tidy w (w.shift a target) where
  setting := .shift w a target
  avatars := avatarsAt_shift_le h ha hclear
  blocks := fun p => le_max_of_le_right (restingAt_shift_le h ha p)
  footing := by
    intro a' ha'
    rw [avatars_shift] at ha'
    obtain ⟨c, hc, rfl⟩ := List.mem_map.mp ha'
    split
    · rw [(SameSetting.shift w a target).terrain]
      exact .inr hfloor
    · exact .inl ⟨c, hc, rfl, rfl⟩

end Shift

/-! ## Blocks put down -/

theorem unlink (h : Consistent w) (ha : w.avatar? id = some a) (hk : a.held = some k)
    (hfree : w.blockOn? a.position = none) : Tidy w (w.unlink id k) where
  setting := .unlink w id k
  avatars := (updateAvatar (w.updateBlock k _) id (by intro; rfl) (by intro; rfl)).avatars
  blocks := by
    intro p
    have hid : a.id = id := id_of_avatar? ha
    subst hid
    obtain ⟨b, hb, -, hposition, -⟩ := h.held_block ha hk
    -- The block is put down at the position of the avatar, where no other one rests.
    by_cases hp : p = a.position
    · refine le_max_of_le_left (countP_update_le_one Block.id h.nodup_blockIds ?_)
      intro c hc hat
      by_contra hne
      rw [if_neg hne, decide_eq_true_eq] at hat
      have hcarried := h.blockOn?_eq_none_iff.mp hfree c hc (hat.1.trans hp)
      exact absurd hat.2 (by simp [hcarried])
    · refine le_max_of_le_right (countP_update_le Block.id fun c hc hat => ?_)
      rw [decide_eq_true_eq] at hat ⊢
      split at hat
      · next hid =>
          obtain rfl := h.eq_of_block? hb hc hid
          exact absurd (hat.1.symm.trans hposition) hp
      · exact hat
  footing := (updateAvatar (w.updateBlock k _) id (by intro; rfl) (by intro; rfl)).footing

/-! ## What avatars do -/

theorem moveAvatar (h : Consistent w) (id : Nat) (target : Position) :
    Tidy w (w.moveAvatar id target).2 := by
  rcases w.moveAvatar_cases id target with heq | ⟨a, ha, hfloor, hclear, heq⟩
  · rw [heq]
    exact refl w
  · rw [heq]
    obtain rfl : a.id = id := id_of_avatar? ha
    exact shift h ha hfloor hclear

theorem pickUp (w : World) (id : Nat) : Tidy w (w.pickUp id).2 := by
  rcases w.pickUp_cases id with heq | ⟨a, b, -, -, -, heq⟩
  · rw [heq]
    exact refl w
  · rw [heq]
    exact link w id b.id

theorem drop (h : Consistent w) (id : Nat) : Tidy w (w.drop id).2 := by
  rcases w.drop_cases id with heq | ⟨a, k, b, ha, hk, -, hfree, heq⟩
  · rw [heq]
    exact refl w
  · rw [heq]
    exact unlink h ha hk hfree

theorem calculate (w : World) (id : Nat) (op : Operation) (p : Position) :
    Tidy w (w.calculate id op p) := by
  rcases w.calculate_cases id op p with heq | ⟨_, k, _, _, _, -, -, -, -, -, heq⟩
  · rw [heq]
    exact refl w
  · rw [heq]
    exact updateBlock w k (by intro; rfl) (by intro; rfl) (by intro _ h; exact h)

theorem execute (h : Consistent w) (id : Nat) (c : Command) : Tidy w (c.execute id w).2 :=
  execute_cases w id c (refl w) (moveAvatar h id) (pickUp w id) (drop h id) (calculate w id)

theorem setCounter (w : World) (id counter : Nat) :
    Tidy w (w.attempt (w.setCounter id counter)) := by
  unfold World.setCounter
  cases w.avatar? id with
  | none => exact refl w
  | some a => exact updateAvatar w id (by intro; rfl) (by intro; rfl)

end Tidy

end World

end TilePuzzle
