import TilePuzzle.Proofs.World.Reachable

/-!
# Consistent worlds

A world records twice where an element is, in the element and in the occupants of a tile, and it
records twice that a block is carried, in the avatar and in the block. `Consistent` says that the
records agree. The two halves need each other: a move takes two elements to another tile, which
keeps the tiles right only because a carried block is where its carrier is.

Every action keeps a world consistent (`Consistent.perform`), so every reachable world is consistent
(`Reachable.consistent`). Each action is one of a few changes of the three views `place?`, `load?`
and `IsHeld`; the lemmas in front say what each change does to the views.
-/

namespace TilePuzzle

namespace World

variable {w w' : World} {id j k : Nat} {p target : Position} {a : Avatar} {b : Block}

/-! ## The views after a change -/

/-- A change of an avatar that leaves its position alone moves nothing. -/
theorem place?_updateAvatar {f : Avatar → Avatar} (hid : ∀ a, (f a).id = a.id)
    (hposition : ∀ a, (f a).position = a.position) :
    (w.updateAvatar id f).place? j = w.place? j := by
  rw [place?, avatar?_updateAvatar hid, place?]
  by_cases hj : j = id
  · rw [if_pos hj]
    cases w.avatar? j with
    | none => rfl
    | some a => exact congrArg some (hposition a)
  · rw [if_neg hj]
    rfl

/-- A change of a block that leaves its position alone moves nothing. -/
theorem place?_updateBlock {g : Block → Block} (hid : ∀ b, (g b).id = b.id)
    (hposition : ∀ b, (g b).position = b.position) :
    (w.updateBlock id g).place? j = w.place? j := by
  have hblock :
      ((w.updateBlock id g).block? j).map (·.position) = (w.block? j).map (·.position) := by
    rw [block?_updateBlock hid]
    split
    · rw [Option.map_map]
      exact congrArg (Option.map · _) (funext hposition)
    · rfl
  rw [place?, avatar?_updateBlock, hblock]
  rfl

theorem place?_updateAvatar_position (ha : w.avatar? id = some a) :
    (w.updateAvatar id ({ · with position := target })).place? j
      = if j = id then some target else w.place? j := by
  rw [place?, avatar?_updateAvatar (by intro; rfl)]
  by_cases hj : j = id
  · subst hj
    rw [if_pos rfl, if_pos rfl, ha]
    rfl
  · rw [if_neg hj, if_neg hj]
    rfl

theorem place?_updateBlock_position (ha : w.avatar? k = none) (hb : w.block? k = some b) :
    (w.updateBlock k ({ · with position := target })).place? j
      = if j = k then some target else w.place? j := by
  rw [place?, avatar?_updateBlock, block?_updateBlock (by intro; rfl)]
  by_cases hj : j = k
  · subst hj
    rw [if_pos rfl, if_pos rfl, ha, hb]
    rfl
  · rw [if_neg hj, if_neg hj]
    rfl

/-- A change of an avatar that leaves its hands alone changes no load. -/
theorem load?_updateAvatar {f : Avatar → Avatar} (hid : ∀ a, (f a).id = a.id)
    (hheld : ∀ a, (f a).held = a.held) : (w.updateAvatar id f).load? j = w.load? j := by
  rw [load?, avatar?_updateAvatar hid, load?]
  by_cases hj : j = id
  · rw [if_pos hj]
    cases w.avatar? j with
    | none => rfl
    | some a => exact hheld a
  · rw [if_neg hj]

theorem load?_updateAvatar_held (ha : w.avatar? id = some a) {load : Option Nat} :
    (w.updateAvatar id ({ · with held := load })).load? j = if j = id then load else w.load? j := by
  rw [load?, avatar?_updateAvatar (by intro; rfl)]
  by_cases hj : j = id
  · subst hj
    rw [if_pos rfl, if_pos rfl, ha]
    rfl
  · rw [if_neg hj, if_neg hj]
    rfl

/-- A change of a block that leaves its mark alone marks and releases nothing. -/
theorem isHeld_updateBlock {g : Block → Block} (hid : ∀ b, (g b).id = b.id)
    (hheld : ∀ b, (g b).held = b.held) : (w.updateBlock k g).IsHeld j ↔ w.IsHeld j := by
  rw [IsHeld, block?_updateBlock hid, IsHeld]
  by_cases hj : j = k
  · rw [if_pos hj]
    simp [hheld]
  · rw [if_neg hj]

theorem isHeld_updateBlock_held (hb : w.block? k = some b) {mark : Bool} :
    (w.updateBlock k ({ · with held := mark })).IsHeld j
      ↔ if j = k then mark = true else w.IsHeld j := by
  rw [IsHeld, block?_updateBlock (by intro; rfl)]
  by_cases hj : j = k
  · subst hj
    simp [hb]
  · rw [if_neg hj, if_neg hj]
    rfl

theorem place?_putAvatar {source : Position} (ha : w.avatar? id = some a) :
    (w.putAvatar id source target).place? j = if j = id then some target else w.place? j :=
  place?_updateAvatar_position (w := w.relocate id source target) ha

theorem place?_putBlock {source : Position} (ha : w.avatar? k = none) (hb : w.block? k = some b) :
    (w.putBlock k source target).place? j = if j = k then some target else w.place? j :=
  place?_updateBlock_position (w := w.relocate k source target) ha hb

@[simp] theorem load?_shift : (w.shift a target).load? j = w.load? j := by
  have hput : (w.putAvatar a.id a.position target).load? j = w.load? j :=
    load?_updateAvatar (by intro; rfl) (by intro; rfl)
  unfold shift
  cases a.held with
  | none => exact hput
  | some k => exact hput

@[simp] theorem isHeld_shift : (w.shift a target).IsHeld j ↔ w.IsHeld j := by
  unfold shift
  cases a.held with
  | none => rfl
  | some k => exact isHeld_updateBlock (by intro; rfl) (by intro; rfl)

@[simp] theorem avatarIds_shift : (w.shift a target).avatarIds = w.avatarIds := by
  have hput : (w.putAvatar a.id a.position target).avatarIds = w.avatarIds :=
    avatarIds_updateAvatar (by intro; rfl)
  unfold shift
  cases a.held with
  | none => exact hput
  | some k => exact hput

@[simp] theorem blockIds_shift : (w.shift a target).blockIds = w.blockIds := by
  unfold shift
  cases a.held with
  | none => rfl
  | some k => exact blockIds_updateBlock (by intro; rfl)

theorem place?_link : (w.link id k).place? j = w.place? j :=
  (place?_updateAvatar (by intro; rfl) (by intro; rfl)).trans
    (place?_updateBlock (by intro; rfl) (by intro; rfl))

theorem load?_link (ha : w.avatar? id = some a) :
    (w.link id k).load? j = if j = id then some k else w.load? j :=
  load?_updateAvatar_held (w := w.updateBlock k ({ · with held := true })) ha

theorem isHeld_link (hb : w.block? k = some b) : (w.link id k).IsHeld j ↔ j = k ∨ w.IsHeld j := by
  show (w.updateBlock k _).IsHeld j ↔ _
  rw [isHeld_updateBlock_held hb]
  by_cases hj : j = k <;> simp [hj]

@[simp] theorem avatarIds_link : (w.link id k).avatarIds = w.avatarIds :=
  avatarIds_updateAvatar (by intro; rfl)

@[simp] theorem blockIds_link : (w.link id k).blockIds = w.blockIds :=
  blockIds_updateBlock (by intro; rfl)

theorem place?_unlink : (w.unlink id k).place? j = w.place? j :=
  (place?_updateAvatar (by intro; rfl) (by intro; rfl)).trans
    (place?_updateBlock (by intro; rfl) (by intro; rfl))

theorem load?_unlink (ha : w.avatar? id = some a) :
    (w.unlink id k).load? j = if j = id then none else w.load? j :=
  load?_updateAvatar_held (w := w.updateBlock k ({ · with held := false })) ha

theorem isHeld_unlink (hb : w.block? k = some b) :
    (w.unlink id k).IsHeld j ↔ j ≠ k ∧ w.IsHeld j := by
  show (w.updateBlock k _).IsHeld j ↔ _
  rw [isHeld_updateBlock_held hb]
  by_cases hj : j = k <;> simp [hj]

@[simp] theorem avatarIds_unlink : (w.unlink id k).avatarIds = w.avatarIds :=
  avatarIds_updateAvatar (by intro; rfl)

@[simp] theorem blockIds_unlink : (w.unlink id k).blockIds = w.blockIds :=
  blockIds_updateBlock (by intro; rfl)

theorem avatar?_insertAvatar (hnew : w.avatar? a.id = none) :
    (w.insertAvatar a).avatar? j = if j = a.id then some a else w.avatar? j :=
  find?_key_append Avatar.id hnew j

theorem block?_insertBlock (hnew : w.block? b.id = none) :
    (w.insertBlock b).block? j = if j = b.id then some b else w.block? j :=
  find?_key_append Block.id hnew j

theorem isSome_avatar?_of_load? (hk : w.load? id = some k) : (w.avatar? id).isSome := by
  rw [load?] at hk
  cases ha : w.avatar? id with
  | none => rw [ha] at hk; cases hk
  | some a => rfl

/-! ## The invariant -/

/-- The two records of every place agree, and so do the two records of every carried block. -/
structure Consistent (w : World) : Prop where
  nodup : (w.avatarIds ++ w.blockIds).Nodup
  /-- The tiles and the elements agree on where each element is. -/
  occupies_iff : ∀ {id p}, w.Occupies id p ↔ w.place? id = some p
  /-- What an avatar carries is a marked block at its own position. -/
  loaded : ∀ {id k}, w.load? id = some k → w.IsHeld k ∧ w.place? k = w.place? id
  /-- No two avatars carry the same block. -/
  load?_inj : ∀ {i j k}, w.load? i = some k → w.load? j = some k → i = j
  /-- A marked block has a carrier. -/
  carrier : ∀ {k}, w.IsHeld k → ∃ i, w.load? i = some k

namespace Consistent

theorem nodup_avatarIds (h : Consistent w) : w.avatarIds.Nodup := (List.nodup_append.mp h.nodup).1

theorem nodup_blockIds (h : Consistent w) : w.blockIds.Nodup := (List.nodup_append.mp h.nodup).2.1

theorem avatar?_eq_some_iff (h : Consistent w) :
    w.avatar? id = some a ↔ a ∈ w.avatars ∧ a.id = id :=
  find?_key_eq_some_iff Avatar.id h.nodup_avatarIds

theorem block?_eq_some_iff (h : Consistent w) :
    w.block? id = some b ↔ b ∈ w.blocks ∧ b.id = id :=
  find?_key_eq_some_iff Block.id h.nodup_blockIds

/-- Avatars and blocks share no identifier. -/
theorem avatar?_eq_none (h : Consistent w) (hb : w.block? id = some b) : w.avatar? id = none := by
  rw [avatar?_eq_none_iff]
  intro ha
  have hk : id ∈ w.blockIds := by
    rw [← id_of_block? hb]
    exact List.mem_map_of_mem (mem_of_block? hb)
  exact (List.nodup_append.mp h.nodup).2.2 id ha id hk rfl

theorem ne_of_isHeld (h : Consistent w) (hk : w.IsHeld k) (hj : (w.avatar? j).isSome) : k ≠ j := by
  rintro rfl
  obtain ⟨b, hb, -⟩ := hk
  rw [h.avatar?_eq_none hb] at hj
  cases hj

theorem place?_of_avatar? (ha : w.avatar? id = some a) : w.place? id = some a.position := by
  simp [place?, ha]

theorem place?_of_block? (h : Consistent w) (hb : w.block? id = some b) :
    w.place? id = some b.position := by
  simp [place?, h.avatar?_eq_none hb, hb]

/-- A consistent world stays so when only parts change that no record is about. -/
theorem of_views (h : Consistent w) (havatars : w'.avatarIds = w.avatarIds)
    (hblocks : w'.blockIds = w.blockIds) (hoccupies : ∀ id p, w'.Occupies id p ↔ w.Occupies id p)
    (hplace : ∀ id, w'.place? id = w.place? id) (hload : ∀ id, w'.load? id = w.load? id)
    (hheld : ∀ k, w'.IsHeld k ↔ w.IsHeld k) : Consistent w' where
  nodup := by
    rw [havatars, hblocks]
    exact h.nodup
  occupies_iff := by
    intro id p
    rw [hoccupies, hplace]
    exact h.occupies_iff
  loaded := by
    intro id k hk
    rw [hheld, hplace, hplace]
    rw [hload] at hk
    exact h.loaded hk
  load?_inj := by
    intro i j k hi hj
    rw [hload] at hi hj
    exact h.load?_inj hi hj
  carrier := by
    intro k hk
    rw [hheld] at hk
    obtain ⟨i, hi⟩ := h.carrier hk
    exact ⟨i, by rw [hload, hi]⟩

/-! ## Changes that keep the records in step

### Counters, numbers and terrain

No record is about these. -/

theorem updateAvatar (h : Consistent w) {f : Avatar → Avatar} (hid : ∀ a, (f a).id = a.id)
    (hposition : ∀ a, (f a).position = a.position) (hheld : ∀ a, (f a).held = a.held) :
    Consistent (w.updateAvatar id f) :=
  h.of_views (avatarIds_updateAvatar hid) rfl (fun _ _ => Iff.rfl)
    (fun _ => place?_updateAvatar hid hposition) (fun _ => load?_updateAvatar hid hheld)
    fun _ => Iff.rfl

theorem updateBlock (h : Consistent w) {g : Block → Block} (hid : ∀ b, (g b).id = b.id)
    (hposition : ∀ b, (g b).position = b.position) (hheld : ∀ b, (g b).held = b.held) :
    Consistent (w.updateBlock id g) :=
  h.of_views rfl (blockIds_updateBlock hid) (fun _ _ => Iff.rfl)
    (fun _ => place?_updateBlock hid hposition) (fun _ => rfl) fun _ => isHeld_updateBlock hid hheld

theorem resetCounters (h : Consistent w) : Consistent w.resetCounters := by
  have havatar : ∀ j, w.resetCounters.avatar? j = (w.avatar? j).map ({ · with counter := 1 }) :=
    fun j => find?_key_map Avatar.id (f := ({ · with counter := 1 })) (fun _ => rfl) _ j
  refine h.of_views ?_ rfl (fun _ _ => Iff.rfl) (fun j => ?_) (fun j => ?_) fun _ => Iff.rfl
  · show (w.avatars.map _).map _ = w.avatars.map _
    rw [List.map_map]
    rfl
  · rw [place?, havatar, place?]
    cases w.avatar? j <;> rfl
  · rw [load?, havatar, load?]
    cases w.avatar? j <;> rfl

theorem setTerrain (h : Consistent w) (p : Position) (terrain : Terrain) :
    Consistent (w.attempt (w.setTerrain p terrain)) := by
  unfold World.setTerrain
  split
  · refine h.of_views rfl rfl (fun id q => ?_) (fun _ => rfl) (fun _ => rfl) fun _ => Iff.rfl
    show (∃ t, (w.grid.modify p _).get? q = some t ∧ id ∈ t.occupants) ↔ w.Occupies id q
    rw [Grid.get?_modify]
    show _ ↔ ∃ t, w.grid.get? q = some t ∧ id ∈ t.occupants
    split
    · cases w.grid.get? q <;> simp
    · rfl
  · exact h

/-! ### Moves -/

section Shift

variable (h : Consistent w) (ha : w.avatar? a.id = some a)

include h ha

/-- The block that an avatar carries is another element, at the position of the avatar. -/
theorem held_block (hk : a.held = some k) :
    ∃ b, w.block? k = some b ∧ b.held = true ∧ b.position = a.position ∧ k ≠ a.id := by
  have hload : w.load? a.id = some k := (load?_of_avatar? ha).trans hk
  obtain ⟨⟨b, hb, hheld⟩, hplace⟩ := h.loaded hload
  refine ⟨b, hb, hheld, ?_, ?_⟩
  · rw [place?_of_avatar? ha, h.place?_of_block? hb] at hplace
    exact Option.some.inj hplace
  · rintro rfl
    rw [h.avatar?_eq_none hb] at ha
    cases ha

/-- A move gives the avatar and its block the target as their position. -/
theorem place?_shift :
    (w.shift a target).place? j
      = if j = a.id ∨ a.held = some j then some target else w.place? j := by
  unfold shift
  cases hk : a.held with
  | none =>
      show (w.putAvatar _ _ _).place? j = _
      rw [place?_putAvatar ha]
      simp
  | some k =>
      obtain ⟨b, hb, -, -, hne⟩ := h.held_block ha hk
      have hnone : (w.putAvatar a.id a.position target).avatar? k = none := by
        rw [putAvatar, avatar?_updateAvatar (by intro; rfl), if_neg hne]
        exact h.avatar?_eq_none hb
      have hb' : (w.putAvatar a.id a.position target).block? k = some b := hb
      show ((w.putAvatar _ _ _).putBlock _ _ _).place? j = _
      rw [place?_putBlock hnone hb', place?_putAvatar ha]
      by_cases hj : j = k
      · subst hj
        simp
      · simp [hj, Ne.symm hj]

/-- A move takes the avatar and its block from their tile to the target. -/
theorem occupies_shift (htarget : w.grid.Contains target) :
    (w.shift a target).Occupies j p
      ↔ if j = a.id ∨ a.held = some j then p = target else w.Occupies j p := by
  have hhome : ∀ q, w.Occupies a.id q → q = a.position := fun q ho => by
    rw [h.occupies_iff, place?_of_avatar? ha] at ho
    exact (Option.some.inj ho).symm
  unfold shift
  cases hk : a.held with
  | none =>
      show (w.relocate _ _ _).Occupies j p ↔ _
      rw [occupies_relocate_of_home hhome htarget]
      simp
  | some k =>
      obtain ⟨b, hb, -, hposition, hne⟩ := h.held_block ha hk
      have hhome' : ∀ q, (w.putAvatar a.id a.position target).Occupies k q → q = a.position := by
        intro q ho
        change (w.relocate _ _ _).Occupies k q at ho
        rw [occupies_relocate_of_home hhome htarget, if_neg hne, h.occupies_iff,
          h.place?_of_block? hb, hposition] at ho
        exact (Option.some.inj ho).symm
      have htarget' : (w.putAvatar a.id a.position target).grid.Contains target := by
        simpa [putAvatar, relocate, enter, leave, World.updateAvatar] using htarget
      show ((w.putAvatar _ _ _).relocate _ _ _).Occupies j p ↔ _
      rw [occupies_relocate_of_home hhome' htarget']
      show (if j = k then _ else (w.relocate _ _ _).Occupies j p) ↔ _
      rw [occupies_relocate_of_home hhome htarget]
      by_cases hj : j = k
      · subst hj
        simp
      · simp [hj, Ne.symm hj]

theorem shift (htarget : w.grid.Contains target) : Consistent (w.shift a target) where
  nodup := by
    rw [avatarIds_shift, blockIds_shift]
    exact h.nodup
  occupies_iff := by
    intro j p
    rw [h.occupies_shift ha htarget, h.place?_shift ha]
    split
    · rw [Option.some.injEq, eq_comm]
    · exact h.occupies_iff
  loaded := by
    intro i k hk
    rw [load?_shift] at hk
    obtain ⟨hheld, hplace⟩ := h.loaded hk
    refine ⟨isHeld_shift.mpr hheld, ?_⟩
    -- The block goes along exactly when its carrier goes.
    have hcarrier : k = a.id ∨ a.held = some k ↔ i = a.id ∨ a.held = some i := by
      have hload : w.load? a.id = a.held := load?_of_avatar? ha
      constructor
      · rintro (rfl | hak)
        · exact absurd rfl (h.ne_of_isHeld hheld (by rw [ha]; rfl))
        · exact .inl (h.load?_inj hk (hload.trans hak))
      · rintro (rfl | hai)
        · exact .inr (hload.symm.trans hk)
        · have hi := (h.loaded (hload.trans hai)).1
          exact absurd rfl (h.ne_of_isHeld hi (isSome_avatar?_of_load? hk))
    rw [h.place?_shift ha, h.place?_shift ha]
    simp only [hcarrier, hplace]
  load?_inj := by
    intro i j k hi hj
    rw [load?_shift] at hi hj
    exact h.load?_inj hi hj
  carrier := by
    intro k hk
    rw [isHeld_shift] at hk
    obtain ⟨i, hi⟩ := h.carrier hk
    exact ⟨i, by rw [load?_shift, hi]⟩

end Shift

/-! ### Picking up and dropping -/

/-- The block that rests at a position has that position. -/
theorem place?_of_blockOn? (h : Consistent w) (hb : w.blockOn? p = some b) :
    w.place? b.id = some p :=
  h.occupies_iff.mp (blockOn?_eq_some_iff.mp hb).2.2.1

theorem link (h : Consistent w) (ha : w.avatar? id = some a) (hempty : a.held = none)
    (hb : w.blockOn? a.position = some b) : Consistent (w.link id b.id) := by
  obtain ⟨hblock, hrests, -, -⟩ := blockOn?_eq_some_iff.mp hb
  -- A block at rest has no carrier.
  have hnone : ∀ j, w.load? j ≠ some b.id := fun j hj => by
    obtain ⟨c, hc, hmark⟩ := (h.loaded hj).1
    rw [hblock] at hc
    cases hc
    rw [hrests] at hmark
    cases hmark
  exact {
    nodup := by
      rw [avatarIds_link, blockIds_link]
      exact h.nodup
    occupies_iff := by
      intro j p
      rw [place?_link]
      exact h.occupies_iff
    loaded := by
      intro i k hi
      rw [load?_link ha] at hi
      rw [isHeld_link hblock, place?_link, place?_link]
      split at hi
      · next hid =>
          cases hi
          rw [hid, h.place?_of_blockOn? hb, place?_of_avatar? ha]
          exact ⟨.inl rfl, rfl⟩
      · obtain ⟨hheld, hplace⟩ := h.loaded hi
        exact ⟨.inr hheld, hplace⟩
    load?_inj := by
      intro i j k hi hj
      rw [load?_link ha] at hi hj
      split at hi <;> split at hj
      · next hi' hj' => rw [hi', hj']
      · cases hi
        exact absurd hj (hnone j)
      · cases hj
        exact absurd hi (hnone i)
      · exact h.load?_inj hi hj
    carrier := by
      intro k hk
      rcases (isHeld_link hblock).mp hk with rfl | hk
      · exact ⟨id, by rw [load?_link ha, if_pos rfl]⟩
      · obtain ⟨i, hi⟩ := h.carrier hk
        have hne : i ≠ id := by
          rintro rfl
          rw [load?, ha] at hi
          exact absurd (hempty.symm.trans hi) (by simp)
        exact ⟨i, by rw [load?_link ha, if_neg hne, hi]⟩ }

theorem unlink (h : Consistent w) (ha : w.avatar? id = some a) (hk : a.held = some k)
    (hb : w.block? k = some b) : Consistent (w.unlink id k) := by
  have hcarry : w.load? id = some k := (load?_of_avatar? ha).trans hk
  exact {
    nodup := by
      rw [avatarIds_unlink, blockIds_unlink]
      exact h.nodup
    occupies_iff := by
      intro j p
      rw [place?_unlink]
      exact h.occupies_iff
    loaded := by
      intro i j hi
      rw [load?_unlink ha] at hi
      split at hi
      · cases hi
      · next hne =>
          obtain ⟨hheld, hplace⟩ := h.loaded hi
          rw [isHeld_unlink hb, place?_unlink, place?_unlink]
          refine ⟨⟨?_, hheld⟩, hplace⟩
          -- Only the avatar that drops carried this block.
          rintro rfl
          exact hne (h.load?_inj hi hcarry)
    load?_inj := by
      intro i j m hi hj
      rw [load?_unlink ha] at hi hj
      split at hi
      · cases hi
      · split at hj
        · cases hj
        · exact h.load?_inj hi hj
    carrier := by
      intro j hj
      obtain ⟨hne, hheld⟩ := (isHeld_unlink hb).mp hj
      obtain ⟨i, hi⟩ := h.carrier hheld
      refine ⟨i, ?_⟩
      have hid : i ≠ id := by
        rintro rfl
        exact hne (Option.some.inj (hi.symm.trans hcarry))
      rw [load?_unlink ha, if_neg hid, hi] }

/-! ### New elements -/

/-- A world into which an element has come that carries nothing and is not carried. -/
theorem of_arrival (h : Consistent w) (id : Nat) (p : Position) (hnew : w.place? id = none)
    (hnodup : (w'.avatarIds ++ w'.blockIds).Nodup)
    (hoccupies : ∀ j q, w'.Occupies j q ↔ w.Occupies j q ∨ (j = id ∧ q = p))
    (hplace : ∀ j, w'.place? j = if j = id then some p else w.place? j)
    (hload : ∀ j, w'.load? j = w.load? j) (hheld : ∀ k, w'.IsHeld k ↔ w.IsHeld k) :
    Consistent w' where
  nodup := hnodup
  occupies_iff := by
    intro j q
    rw [hoccupies, hplace, h.occupies_iff]
    by_cases hj : j = id
    · subst hj
      simp [hnew, eq_comm]
    · simp [hj]
  loaded := by
    intro i k hk
    rw [hload] at hk
    obtain ⟨⟨b, hb, hmark⟩, hsame⟩ := h.loaded hk
    have hk' : k ≠ id := by
      rintro rfl
      rw [h.place?_of_block? hb] at hnew
      cases hnew
    have hi' : i ≠ id := by
      rintro rfl
      rw [← hsame, h.place?_of_block? hb] at hnew
      cases hnew
    rw [hheld, hplace, hplace, if_neg hk', if_neg hi']
    exact ⟨⟨b, hb, hmark⟩, hsame⟩
  load?_inj := by
    intro i j k hi hj
    rw [hload] at hi hj
    exact h.load?_inj hi hj
  carrier := by
    intro k hk
    rw [hheld] at hk
    obtain ⟨i, hi⟩ := h.carrier hk
    exact ⟨i, by rw [hload, hi]⟩

theorem insertAvatar (h : Consistent w) (hheld : a.held = none) (havatar : w.avatar? a.id = none)
    (hblock : w.block? a.id = none) (hcontains : w.grid.Contains a.position) :
    Consistent (w.insertAvatar a) := by
  refine h.of_arrival a.id a.position ?_ ?_ (fun j q => ?_) (fun j => ?_) (fun j => ?_)
    fun _ => Iff.rfl
  · rw [place?, havatar, hblock]
    rfl
  · rw [avatar?_eq_none_iff] at havatar
    rw [block?_eq_none_iff] at hblock
    have hids : (w.insertAvatar a).avatarIds = w.avatarIds ++ [a.id] := List.map_append
    rw [hids, List.append_assoc]
    show (w.avatarIds ++ a.id :: w.blockIds).Nodup
    rw [List.nodup_middle, List.nodup_cons]
    exact ⟨by simp [havatar, hblock], h.nodup⟩
  · show (w.enter a.id a.position).Occupies j q ↔ _
    rw [occupies_enter]
    simp [hcontains]
  · rw [place?, avatar?_insertAvatar havatar]
    split <;> rfl
  · rw [load?, avatar?_insertAvatar havatar, load?]
    split
    · next hj => rw [hj, havatar]; exact hheld
    · rfl

theorem insertBlock (h : Consistent w) (hrests : b.held = false) (havatar : w.avatar? b.id = none)
    (hblock : w.block? b.id = none) (hcontains : w.grid.Contains b.position) :
    Consistent (w.insertBlock b) := by
  refine h.of_arrival b.id b.position ?_ ?_ (fun j q => ?_) (fun j => ?_)
    (fun _ => rfl) fun j => ?_
  · rw [place?, havatar, hblock]
    rfl
  · rw [avatar?_eq_none_iff] at havatar
    rw [block?_eq_none_iff] at hblock
    have hids : (w.insertBlock b).blockIds = w.blockIds ++ [b.id] := List.map_append
    rw [hids]
    show (w.avatarIds ++ (w.blockIds ++ [b.id])).Nodup
    rw [← List.append_assoc, List.nodup_append_comm, List.singleton_append, List.nodup_cons]
    exact ⟨by simp [havatar, hblock], h.nodup⟩
  · show (w.enter b.id b.position).Occupies j q ↔ _
    rw [occupies_enter]
    simp [hcontains]
  · rw [place?, block?_insertBlock hblock]
    by_cases hj : j = b.id
    · rw [if_pos hj, if_pos hj, hj]
      show ((w.avatar? b.id).map _).or _ = _
      rw [havatar]
      rfl
    · rw [if_neg hj, if_neg hj]
      rfl
  · rw [IsHeld, block?_insertBlock hblock, IsHeld]
    by_cases hj : j = b.id
    · rw [if_pos hj, hj, hblock]
      simp [hrests]
    · rw [if_neg hj]

theorem setDimensions (h : Consistent w) (rows cols : Int) :
    Consistent (w.attempt (w.setDimensions rows cols)) := by
  rcases w.setDimensions_cases rows cols with heq | ⟨hsize, heq⟩
  · rw [heq]
    exact h
  · rw [heq]
    refine h.of_views rfl rfl (fun id p => iff_of_false ?_ ?_) (fun _ => rfl) (fun _ => rfl)
      fun _ => Iff.rfl
    · rintro ⟨t, ht, hid⟩
      change (Grid.replicate _ _ _).get? p = some t at ht
      rw [Grid.get?_replicate] at ht
      split at ht
      · cases ht
        exact IdSet.not_mem_empty id hid
      · cases ht
    -- A grid without tiles holds nothing yet.
    · intro ho
      have := Grid.index_lt ho.contains
      omega

/-! ## Reachable worlds -/

theorem empty : Consistent World.empty where
  nodup := List.nodup_nil
  occupies_iff := by
    intro id p
    refine iff_of_false ?_ (by simp [place?, avatar?, block?, World.empty])
    intro ho
    have := Grid.index_lt ho.contains
    exact absurd this (Nat.not_lt_zero _)
  loaded := by
    intro id k hk
    cases hk
  load?_inj := by
    intro i j k hi
    cases hi
  carrier := by
    rintro k ⟨b, hb, -⟩
    cases hb

theorem moveAvatar (h : Consistent w) (id : Nat) (target : Position) :
    Consistent (w.moveAvatar id target).2 := by
  rcases w.moveAvatar_cases id target with heq | ⟨a, ha, hfloor, -, heq⟩
  · rw [heq]
    exact h
  · rw [heq]
    have hid : a.id = id := id_of_avatar? ha
    subst hid
    apply h.shift ha
    rw [← Grid.get?_isSome_iff]
    show (w.tile? target).isSome
    rw [terrain?] at hfloor
    cases ht : w.tile? target with
    | none => rw [ht] at hfloor; cases hfloor
    | some t => rfl

theorem pickUp (h : Consistent w) (id : Nat) : Consistent (w.pickUp id).2 := by
  rcases w.pickUp_cases id with heq | ⟨a, b, ha, hempty, hb, heq⟩
  · rw [heq]
    exact h
  · rw [heq]
    exact h.link ha hempty hb

theorem drop (h : Consistent w) (id : Nat) : Consistent (w.drop id).2 := by
  rcases w.drop_cases id with heq | ⟨a, k, b, ha, hk, hb, -, heq⟩
  · rw [heq]
    exact h
  · rw [heq]
    exact h.unlink ha hk hb

theorem calculate (h : Consistent w) (id : Nat) (op : Operation) (p : Position) :
    Consistent (w.calculate id op p) := by
  rcases w.calculate_cases id op p with heq | ⟨_, k, _, _, result, -, -, -, -, -, heq⟩
  · rw [heq]
    exact h
  · rw [heq]
    exact h.updateBlock (by intro; rfl) (by intro; rfl) (by intro; rfl)

theorem execute (h : Consistent w) (id : Nat) (c : Command) : Consistent (c.execute id w).2 :=
  execute_cases w id c h (h.moveAvatar id) (h.pickUp id) (h.drop id) (h.calculate id)

theorem setCounter (h : Consistent w) (id counter : Nat) :
    Consistent (w.attempt (w.setCounter id counter)) := by
  unfold World.setCounter
  split
  · exact h
  · exact h.updateAvatar (by intro; rfl) (by intro; rfl) (by intro; rfl)

theorem setBlockNumber (h : Consistent w) (k : Nat) (number : Int) :
    Consistent (w.setBlockNumber k number).2 := by
  unfold World.setBlockNumber
  split
  · exact h
  · exact h.updateBlock (by intro; rfl) (by intro; rfl) (by intro; rfl)

/-- Every action keeps a world consistent, refused or not. -/
theorem perform (h : Consistent w) {action : Action} (hplain : action.Plain) :
    Consistent (w.perform action) := by
  cases action with
  | setDimensions rows cols => exact h.setDimensions rows cols
  | setTerrain p terrain => exact h.setTerrain p terrain
  | addAvatar a =>
      show Consistent (w.attempt (w.addAvatar a))
      rcases w.addAvatar_cases a with heq | ⟨havatar, hblock, hcontains, heq⟩
      · rw [heq]
        exact h
      · rw [heq]
        exact h.insertAvatar hplain havatar hblock hcontains
  | addBlock b =>
      show Consistent (w.attempt (w.addBlock b))
      rcases w.addBlock_cases b with heq | ⟨havatar, hblock, hcontains, heq⟩
      · rw [heq]
        exact h
      · rw [heq]
        exact h.insertBlock hplain havatar hblock hcontains
  | moveAvatar id target => exact h.moveAvatar id target
  | pickUp id => exact h.pickUp id
  | drop id => exact h.drop id
  | setBlockNumber k number => exact h.setBlockNumber k number
  | setCounter id counter => exact h.setCounter id counter
  | resetCounters => exact h.resetCounters
  | execute id command => exact h.execute id command

end Consistent

theorem Reachable.consistent (h : Reachable w) : Consistent w := by
  induction h with
  | empty => exact .empty
  | perform _ hplain ih => exact ih.perform hplain

end World

end TilePuzzle
