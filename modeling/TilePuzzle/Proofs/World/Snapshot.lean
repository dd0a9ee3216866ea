import TilePuzzle.Proofs.Sorting
import TilePuzzle.Proofs.World.Image
import TilePuzzle.Snapshot

/-!
# What a snapshot tells of a world

A snapshot has no word on who is on a tile, and it lists the blocks by identifier, whatever the
order in which they were added. The first leaves nothing out: in a consistent world the elements
tell where they are. The second does, so two consistent worlds have one snapshot exactly when they
are the same up to the order of their blocks (`Consistent.snapshot_eq_iff`).

No look-up depends on that order, because identifiers are distinct. Worlds that are the same up to
the order of their blocks are therefore images of each other under the motion that moves nothing,
and the other way round (`Rearranged.image`, `Image.rearranged`).
-/

namespace TilePuzzle

section Key

variable {α : Type} (key : α → Nat)

/-- A search by distinct keys finds the same in every order of the elements. -/
theorem find?_key_of_perm {l l' : List α} (hl : (l.map key).Nodup) (h : l'.Perm l) (k : Nat) :
    l'.find? (fun a => decide (key a = k)) = l.find? fun a => decide (key a = k) := by
  have hl' : (l'.map key).Nodup := (h.map key).nodup_iff.mpr hl
  apply Option.ext
  intro a
  rw [find?_key_eq_some_iff key hl, find?_key_eq_some_iff key hl', h.mem_iff]

end Key

/-- The motion that moves nothing. -/
def Motion.identity : Motion := ⟨Equiv.refl _, id, fun _ _ => rfl⟩

namespace World

variable {w w' : World} {p : Position}

/-- `w'` is `w`, but its blocks may come in another order. -/
structure Rearranged (w w' : World) : Prop where
  grid : w'.grid = w.grid
  avatars : w'.avatars = w.avatars
  blocks : w'.blocks.Perm w.blocks

/-! ## Terrain -/

theorem mem_terrainViews {v : TerrainView} :
    v ∈ w.terrainViews ↔ w.terrain? v.position = some v.terrain ∧ v.terrain ≠ .floor := by
  obtain ⟨p, t⟩ := v
  rw [terrainViews, List.mem_filterMap]
  constructor
  · rintro ⟨q, -, hq⟩
    split at hq
    · cases hq
    · cases hq
    · next terrain hterrain hfloor =>
        obtain ⟨rfl, rfl⟩ := TerrainView.mk.inj (Option.some.inj hq)
        exact ⟨hfloor, hterrain⟩
  · rintro ⟨hp, hfloor⟩
    refine ⟨p, ?_, ?_⟩
    · rw [Grid.mem_positions, ← Grid.get?_isSome_iff]
      obtain ⟨tile, htile, -⟩ := Option.map_eq_some_iff.mp hp
      exact Option.isSome_iff_exists.mpr ⟨tile, htile⟩
    · change w.terrain? p = some t at hp
      rw [hp]
      cases t with
      | floor => exact absurd rfl hfloor
      | wall | hole => rfl

theorem isSome_terrain?_iff : (w.terrain? p).isSome ↔ w.grid.Contains p := by
  rw [terrain?, Option.isSome_map]
  exact Grid.get?_isSome_iff

/-- A position on the grid that is in no view is floor. -/
theorem terrain?_eq_of_views (hrows : w'.grid.rows = w.grid.rows)
    (hcols : w'.grid.cols = w.grid.cols) (hviews : w'.terrainViews = w.terrainViews)
    (p : Position) : w'.terrain? p = w.terrain? p := by
  have hon : (w'.terrain? p).isSome ↔ (w.terrain? p).isSome := by
    rw [isSome_terrain?_iff, isSome_terrain?_iff, Grid.Contains, hrows, hcols, Grid.Contains]
  have hviewed : ∀ t, t ≠ .floor → (w'.terrain? p = some t ↔ w.terrain? p = some t) := by
    intro t ht
    have hview := mem_terrainViews (w := w) (v := ⟨p, t⟩)
    rw [← hviews, mem_terrainViews] at hview
    simpa only [ht, ne_eq, not_false_eq_true, and_true] using hview
  cases hp : w.terrain? p with
  | none =>
      rw [hp] at hon
      exact Option.not_isSome_iff_eq_none.mp (mt hon.mp Bool.false_ne_true)
  | some t =>
      by_cases ht : t = .floor
      · subst ht
        rw [hp] at hon
        obtain ⟨t', hp'⟩ := Option.isSome_iff_exists.mp (hon.mpr rfl)
        rw [hp', Option.some.injEq]
        by_contra ht'
        rw [(hviewed t' ht').mp hp', Option.some.injEq] at hp
        exact ht' hp
      · exact (hviewed t ht).mpr hp

/-! ## Rearranged worlds -/

namespace Rearranged

variable (h : Rearranged w w')

include h

theorem snapshot (hids : w.blockIds.Nodup) : w'.snapshot = w.snapshot := by
  have hblocks := (mergeSort_key_eq_iff_perm Block.id hids).mpr h.blocks
  have hterrain : w'.terrainViews = w.terrainViews := by
    unfold terrainViews terrain? tile?
    rw [h.grid]
  rw [World.snapshot, World.snapshot, h.grid, h.avatars, hblocks, hterrain]

/-- All that is looked up in a rearranged world has the same answer. -/
theorem image (hids : w.blockIds.Nodup) : Image .identity w w' where
  avatarIds := by rw [avatarIds, h.avatars, avatarIds]
  avatar? := by
    intro id
    rw [avatar?, h.avatars]
    exact Option.map_id'.symm
  block? := by
    intro k
    rw [block?, find?_key_of_perm Block.id hids h.blocks]
    exact Option.map_id'.symm
  seen := by
    intro p
    rw [seen, tile?, h.grid]
    rfl

end Rearranged

/-- A world that looks the same at every position is the same up to its size and the order of its
blocks. -/
theorem Image.rearranged (h : Image .identity w w') (hrows : w'.grid.rows = w.grid.rows)
    (hcols : w'.grid.cols = w.grid.cols) (havatars : w.avatarIds.Nodup)
    (hblocks : w.blockIds.Nodup) (hblocks' : w'.blockIds.Nodup) : Rearranged w w' := by
  have hself : Image .identity w w := Rearranged.image ⟨rfl, rfl, .refl _⟩ hblocks
  refine ⟨hself.grid_eq h hrows hcols, hself.avatars_eq h havatars, ?_⟩
  refine (List.perm_ext_iff_of_nodup (.of_map _ hblocks') (.of_map _ hblocks)).mpr fun b => ?_
  have hfind : w'.block? b.id = w.block? b.id :=
    (h.block? b.id).trans (hself.block? b.id).symm
  have hmem : w.block? b.id = some b ↔ b ∈ w.blocks ∧ b.id = b.id :=
    find?_key_eq_some_iff Block.id hblocks
  have hmem' : w'.block? b.id = some b ↔ b ∈ w'.blocks ∧ b.id = b.id :=
    find?_key_eq_some_iff Block.id hblocks'
  rw [and_iff_left rfl] at hmem hmem'
  rw [← hmem, ← hmem', hfind]

/-- Tiles that have one terrain and list the same elements are the same. -/
theorem tile?_eq_of_occupies_iff (hterrain : w'.terrain? p = w.terrain? p)
    (hoccupies : ∀ id, w'.Occupies id p ↔ w.Occupies id p) : w'.tile? p = w.tile? p := by
  simp only [terrain?, Occupies] at hterrain hoccupies
  cases ht : w.tile? p with
  | none =>
      rw [ht, Option.map_none, Option.map_eq_none_iff] at hterrain
      exact hterrain
  | some t =>
      rw [ht, Option.map_some] at hterrain
      obtain ⟨t', ht', hsame⟩ := Option.map_eq_some_iff.mp hterrain
      obtain ⟨terrain, occupants⟩ := t
      obtain ⟨terrain', occupants'⟩ := t'
      have hset : occupants' = occupants := by
        apply IdSet.ext_mem
        intro id
        simpa [ht, ht'] using hoccupies id
      rw [ht', hset, show terrain' = terrain from hsame]

namespace Consistent

/-- The elements tell who is on a tile, so the occupants are no difference of their own. -/
theorem rearranged (h : Consistent w) (h' : Consistent w') (hrows : w'.grid.rows = w.grid.rows)
    (hcols : w'.grid.cols = w.grid.cols) (hterrain : ∀ p, w'.terrain? p = w.terrain? p)
    (havatars : w'.avatars = w.avatars) (hblocks : w'.blocks.Perm w.blocks) : Rearranged w w' := by
  refine ⟨Grid.ext_get? hrows hcols fun p => ?_, havatars, hblocks⟩
  refine tile?_eq_of_occupies_iff (hterrain p) fun id => ?_
  have hplace : w'.place? id = w.place? id := by
    rw [place?, avatar?, havatars, block?, find?_key_of_perm Block.id h.nodup_blockIds hblocks]
    rfl
  rw [h.occupies_iff, h'.occupies_iff, hplace]

/-- Consistent worlds with one setting and the same elements are equal. -/
theorem eq_of_elements (h : Consistent w) (h' : Consistent w') (hsetting : SameSetting w w')
    (havatars : w'.avatars = w.avatars) (hblocks : w'.blocks = w.blocks) : w' = w := by
  have hgrid : w'.grid = w.grid := (h.rearranged h' hsetting.rows hsetting.cols hsetting.terrain
    havatars (hblocks ▸ .refl _)).grid
  calc w' = ⟨w'.grid, w'.avatars, w'.blocks⟩ := rfl
    _ = w := by rw [hgrid, havatars, hblocks]

/-- Two consistent worlds have one snapshot exactly when they are the same up to the order of their
blocks. -/
theorem snapshot_eq_iff (h : Consistent w) (h' : Consistent w') :
    w'.snapshot = w.snapshot ↔ Rearranged w w' := by
  refine ⟨fun hs => ?_, fun hr => hr.snapshot h.nodup_blockIds⟩
  simp only [snapshot, Snapshot.mk.injEq, Int.natCast_inj, true_and] at hs
  obtain ⟨hrows, hcols, havatars, hsorted, hviews⟩ := hs
  have hblocks := (mergeSort_key_eq_iff_perm Block.id h.nodup_blockIds).mp hsorted
  exact h.rearranged h' hrows hcols (terrain?_eq_of_views hrows hcols hviews) havatars hblocks

end Consistent

end World

end TilePuzzle
