import TilePuzzle.Proofs.World.Consistency

/-!
# Tiles as an index of the elements

A tile keeps the set of the elements on it, so that a look-up of a tile need not go through all
elements. `ExactIndex` says that nothing is lost by that: the tiles list every element where the
list of elements has it and nowhere else, and the avatar or block that answers for a tile is the one
that a scan of all elements would give.

The main statement is `exactIndex_of_reachable`.
-/

namespace TilePuzzle

namespace World

variable {w : World} {id : Nat} {p : Position} {a : Avatar} {b : Block}

/-- The avatar with the least identifier at `p`, by a scan of all avatars. -/
def scanAvatars (w : World) (p : Position) : Option Avatar :=
  (w.avatars.filter fun a => a.position = p).minOn? (·.id)

/-- The block with the least identifier that rests at `p`, by a scan of all blocks. -/
def scanBlocks (w : World) (p : Position) : Option Block :=
  (w.blocks.filter fun b => b.position = p ∧ b.held = false).minOn? (·.id)

/-- Of the blocks that rest at `p`, `b` is the one with the least identifier. -/
def RestsFirst (w : World) (p : Position) (b : Block) : Prop :=
  (b ∈ w.blocks ∧ b.position = p ∧ b.held = false) ∧
    ∀ c ∈ w.blocks, c.position = p → c.held = false → b.id ≤ c.id

/-- The tiles list the elements exactly. -/
structure ExactIndex (w : World) : Prop where
  /-- There is a tile for each position of the rectangle. -/
  size : w.grid.cells.size = w.grid.rows * w.grid.cols
  /-- Each identifier names one element. -/
  distinct : (w.avatarIds ++ w.blockIds).Nodup
  avatars_contained : ∀ a ∈ w.avatars, w.grid.Contains a.position
  blocks_contained : ∀ b ∈ w.blocks, w.grid.Contains b.position
  /-- The occupants of a tile are the elements that have its position. -/
  occupants : ∀ p, w.grid.Contains p → ∃ t, w.tile? p = some t ∧ ∀ id, id ∈ t.occupants ↔
    (∃ a ∈ w.avatars, a.id = id ∧ a.position = p) ∨ (∃ b ∈ w.blocks, b.id = id ∧ b.position = p)
  avatarOn?_eq : ∀ p, w.avatarOn? p = w.scanAvatars p
  blockOn?_eq : ∀ p, w.blockOn? p = w.scanBlocks p

/-! ## Scans -/

/-- A scan for the least key finds an element when that element is the only one with the least key.
-/
theorem minOn?_eq_of_forall_iff {α : Type} {key : α → Nat} {l : List α} {o : Option α}
    (ho : ∀ x, o = some x ↔ x ∈ l ∧ ∀ y ∈ l, key x ≤ key y) : o = l.minOn? key := by
  cases hmin : l.minOn? key with
  | some x =>
      refine (ho x).mpr ⟨List.minOn?_mem hmin, fun y hy => ?_⟩
      have hle := List.apply_get_minOn?_le_of_mem (f := key) hy
      simpa only [hmin, Option.get_some] using hle
  | none =>
      cases o with
      | none => rfl
      | some x =>
          have hx := List.isSome_minOn?_of_mem (f := key) ((ho x).mp rfl).1
          rw [hmin] at hx
          cases hx

namespace Consistent

theorem place?_eq_some_iff (h : Consistent w) :
    w.place? id = some p ↔ (∃ a ∈ w.avatars, a.id = id ∧ a.position = p) ∨
      ∃ b ∈ w.blocks, b.id = id ∧ b.position = p := by
  constructor
  · intro hp
    rw [place?, Option.or_eq_some_iff] at hp
    rcases hp with ha | ⟨-, hb⟩
    · obtain ⟨a, ha, hposition⟩ := Option.map_eq_some_iff.mp ha
      exact .inl ⟨a, mem_of_avatar? ha, id_of_avatar? ha, hposition⟩
    · obtain ⟨b, hb, hposition⟩ := Option.map_eq_some_iff.mp hb
      exact .inr ⟨b, mem_of_block? hb, id_of_block? hb, hposition⟩
  · rintro (⟨a, ha, rfl, rfl⟩ | ⟨b, hb, rfl, rfl⟩)
    · exact place?_of_avatar? (h.avatar?_eq_some_iff.mpr ⟨ha, rfl⟩)
    · exact h.place?_of_block? (h.block?_eq_some_iff.mpr ⟨hb, rfl⟩)

theorem contains_of_place? (h : Consistent w) (hp : w.place? id = some p) : w.grid.Contains p :=
  (h.occupies_iff.mpr hp).contains

theorem place?_of_mem_avatars (h : Consistent w) (ha : a ∈ w.avatars) :
    w.place? a.id = some a.position :=
  h.place?_eq_some_iff.mpr (.inl ⟨a, ha, rfl, rfl⟩)

theorem place?_of_mem_blocks (h : Consistent w) (hb : b ∈ w.blocks) :
    w.place? b.id = some b.position :=
  h.place?_eq_some_iff.mpr (.inr ⟨b, hb, rfl, rfl⟩)

theorem occupies_avatar_iff (h : Consistent w) (ha : a ∈ w.avatars) :
    w.Occupies a.id p ↔ a.position = p := by
  rw [h.occupies_iff, h.place?_of_mem_avatars ha, Option.some.injEq]

theorem occupies_block_iff (h : Consistent w) (hb : b ∈ w.blocks) :
    w.Occupies b.id p ↔ b.position = p := by
  rw [h.occupies_iff, h.place?_of_mem_blocks hb, Option.some.injEq]

/-- An identifier names one avatar at most. -/
theorem eq_of_avatar? (h : Consistent w) (ha : w.avatar? id = some a) {c : Avatar}
    (hc : c ∈ w.avatars) (hid : c.id = id) : c = a := by
  have hsame : w.avatar? id = some c := h.avatar?_eq_some_iff.mpr ⟨hc, hid⟩
  rw [ha] at hsame
  exact (Option.some.inj hsame).symm

/-- An identifier names one block at most. -/
theorem eq_of_block? (h : Consistent w) (hb : w.block? id = some b) {c : Block}
    (hc : c ∈ w.blocks) (hid : c.id = id) : c = b := by
  have hsame : w.block? id = some c := h.block?_eq_some_iff.mpr ⟨hc, hid⟩
  rw [hb] at hsame
  exact (Option.some.inj hsame).symm

/-- The avatar that answers for a tile, without a word about tiles. -/
theorem avatarOn?_eq_some_iff (h : Consistent w) :
    w.avatarOn? p = some a ↔ (a ∈ w.avatars ∧ a.position = p) ∧
      ∀ c ∈ w.avatars, c.position = p → a.id ≤ c.id := by
  have hmem : ∀ {c : Avatar}, w.avatar? c.id = some c ↔ c ∈ w.avatars := by
    intro c
    rw [h.avatar?_eq_some_iff, and_iff_left rfl]
  rw [World.avatarOn?_eq_some_iff, hmem]
  constructor
  · rintro ⟨ha, hplace, hleast⟩
    refine ⟨⟨ha, (h.occupies_avatar_iff ha).mp hplace⟩, fun c hc hposition => ?_⟩
    exact hleast c (hmem.mpr hc) ((h.occupies_avatar_iff hc).mpr hposition)
  · rintro ⟨⟨ha, hplace⟩, hleast⟩
    refine ⟨ha, (h.occupies_avatar_iff ha).mpr hplace, fun c hc hoccupies => ?_⟩
    exact hleast c (hmem.mp hc) ((h.occupies_avatar_iff (hmem.mp hc)).mp hoccupies)

/-- The block that answers for a tile, without a word about tiles. -/
theorem blockOn?_eq_some_iff (h : Consistent w) :
    w.blockOn? p = some b ↔ (b ∈ w.blocks ∧ b.position = p ∧ b.held = false) ∧
      ∀ c ∈ w.blocks, c.position = p → c.held = false → b.id ≤ c.id := by
  have hmem : ∀ {c : Block}, w.block? c.id = some c ↔ c ∈ w.blocks := by
    intro c
    rw [h.block?_eq_some_iff, and_iff_left rfl]
  rw [World.blockOn?_eq_some_iff, hmem]
  constructor
  · rintro ⟨hb, hrests, hplace, hleast⟩
    refine ⟨⟨hb, (h.occupies_block_iff hb).mp hplace, hrests⟩, fun c hc hposition hfree => ?_⟩
    exact hleast c (hmem.mpr hc) hfree ((h.occupies_block_iff hc).mpr hposition)
  · rintro ⟨⟨hb, hplace, hrests⟩, hleast⟩
    refine ⟨hb, hrests, (h.occupies_block_iff hb).mpr hplace, fun c hc hfree hoccupies => ?_⟩
    exact hleast c (hmem.mp hc) ((h.occupies_block_iff (hmem.mp hc)).mp hoccupies) hfree

/-- No avatar answers for a tile exactly when no avatar is there. -/
theorem avatarOn?_eq_none_iff (h : Consistent w) :
    w.avatarOn? p = none ↔ ∀ a ∈ w.avatars, a.position ≠ p := by
  constructor
  · rintro hnone a ha rfl
    obtain ⟨t, ht, hid⟩ := (h.occupies_avatar_iff ha).mpr rfl
    rw [avatarOn?, ht] at hnone
    have ha' := List.findSome?_eq_none_iff.mp hnone a.id hid
    rw [h.avatar?_eq_some_iff.mpr ⟨ha, rfl⟩] at ha'
    cases ha'
  · intro hnobody
    rw [Option.eq_none_iff_forall_ne_some]
    intro a ha
    obtain ⟨⟨hmem, hposition⟩, -⟩ := h.avatarOn?_eq_some_iff.mp ha
    exact hnobody a hmem hposition

/-- No block answers for a tile exactly when all blocks there are carried. -/
theorem blockOn?_eq_none_iff (h : Consistent w) :
    w.blockOn? p = none ↔ ∀ b ∈ w.blocks, b.position = p → b.held = true := by
  constructor
  · rintro hnone b hb rfl
    obtain ⟨t, ht, hid⟩ := (h.occupies_block_iff hb).mpr rfl
    rw [blockOn?, ht] at hnone
    have hb' := List.findSome?_eq_none_iff.mp hnone b.id hid
    rw [h.block?_eq_some_iff.mpr ⟨hb, rfl⟩] at hb'
    simpa using hb'
  · intro hcarried
    rw [Option.eq_none_iff_forall_ne_some]
    intro b hb
    obtain ⟨⟨hmem, hposition, hrests⟩, -⟩ := h.blockOn?_eq_some_iff.mp hb
    rw [hcarried b hmem hposition] at hrests
    cases hrests

/-- Whoever answers for a tile rests there first. -/
theorem blockOn?_eq_some_iff_restsFirst (h : Consistent w) :
    w.blockOn? p = some b ↔ w.RestsFirst p b :=
  h.blockOn?_eq_some_iff

end Consistent

/-- In every reachable world the tiles are an exact index of the elements. -/
theorem exactIndex_of_reachable (hw : Reachable w) : ExactIndex w := by
  have h := hw.consistent
  exact {
    size := w.grid.size_cells
    distinct := h.nodup
    avatars_contained := fun _ ha => h.contains_of_place? (h.place?_of_mem_avatars ha)
    blocks_contained := fun _ hb => h.contains_of_place? (h.place?_of_mem_blocks hb)
    occupants := by
      intro p hp
      obtain ⟨t, ht⟩ := Option.isSome_iff_exists.mp (Grid.get?_isSome_iff.mpr hp)
      have ht' : w.tile? p = some t := ht
      refine ⟨t, ht', fun id => ?_⟩
      rw [← h.place?_eq_some_iff, ← h.occupies_iff, Occupies, ht']
      simp
    avatarOn?_eq := by
      intro p
      apply minOn?_eq_of_forall_iff
      intro a
      rw [h.avatarOn?_eq_some_iff]
      simp only [List.mem_filter, decide_eq_true_eq, and_imp]
    blockOn?_eq := by
      intro p
      apply minOn?_eq_of_forall_iff
      intro b
      rw [h.blockOn?_eq_some_iff]
      simp only [List.mem_filter, decide_eq_true_eq, and_imp] }

/-- A world of two tiles in which the avatar 5 has carried the block 2 to the right, onto the tile
of the block 7, and has tried to leave the grid. -/
def carried : World :=
  [.setDimensions 1 2, .addAvatar { id := 5, position := ⟨0, 0⟩ },
    .addBlock { id := 2, position := ⟨0, 0⟩, number := 4 },
    .addBlock { id := 7, position := ⟨0, 1⟩, number := 9 }, .pickUp 5, .moveAvatar 5 ⟨0, 1⟩,
    .moveAvatar 5 ⟨0, 2⟩].foldl perform empty

theorem exactIndex_carried :
    Reachable carried ∧ (carried.tile? ⟨0, 1⟩).map (·.occupants.ids) = some [2, 5, 7] ∧
      ExactIndex carried := by
  have h : Reachable carried := ReachedBy.empty.foldl _ (by decide)
  exact ⟨h, by decide, exactIndex_of_reachable h⟩

end World

end TilePuzzle
