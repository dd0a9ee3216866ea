import TilePuzzle.Proofs.Level.Build
import TilePuzzle.Proofs.World.Snapshot

/-!
# The order of the blocks in a level file

The blocks of a level file enter its world one after the other, until one is refused. Whether one is
refused does not depend on their order: all of them have to find their position on the grid, under
identifiers that are new and distinct (`foldlM_placeBlock_eq_ok_iff`). So a file that lists its
blocks in another order makes a level as well, and the two worlds are the same up to the order of
their blocks (`build_rearranged`).
-/

namespace TilePuzzle

/-- The block that a level file lists, at rest. -/
def BlockSpec.block (spec : BlockSpec) : Block :=
  { id := spec.id, position := spec.position, number := spec.number }

namespace World

variable {w w' : World} {spec : BlockSpec} {specs specs' : List BlockSpec} {b : Block}

/-- The world has a place for the block, and no element of its name. -/
def Vacant (w : World) (spec : BlockSpec) : Prop :=
  w.registered spec.id = false ∧ w.grid.Contains spec.position

/-- The world with the blocks put into it one after the other. -/
def withBlocks (w : World) (specs : List BlockSpec) : World :=
  specs.foldl (fun w spec => w.insertBlock spec.block) w

theorem vacant_insertBlock : (w.insertBlock b).Vacant spec ↔ w.Vacant spec ∧ spec.id ≠ b.id := by
  have hregistered : (w.insertBlock b).registered spec.id = false
      ↔ w.registered spec.id = false ∧ spec.id ≠ b.id := by
    simp [registered, insertBlock, enter, and_assoc, @eq_comm _ b.id]
  have hcontains : (w.insertBlock b).grid.Contains spec.position ↔ w.grid.Contains spec.position :=
    Grid.contains_modify
  rw [Vacant, Vacant, hregistered, hcontains, and_right_comm]

/-- New blocks leave all else as it is. -/
theorem withBlocks_spec (w : World) (specs : List BlockSpec) :
    (w.withBlocks specs).grid.rows = w.grid.rows ∧ (w.withBlocks specs).grid.cols = w.grid.cols ∧
      (∀ p, (w.withBlocks specs).terrain? p = w.terrain? p) ∧
      (w.withBlocks specs).avatars = w.avatars ∧
      (w.withBlocks specs).blocks = w.blocks ++ specs.map BlockSpec.block := by
  induction specs generalizing w with
  | nil => exact ⟨rfl, rfl, fun _ => rfl, rfl, (List.append_nil _).symm⟩
  | cons spec rest ih =>
      obtain ⟨hrows, hcols, hterrain, havatars, hblocks⟩ := ih (w.insertBlock spec.block)
      refine ⟨hrows.trans (Grid.rows_modify _ _ _), hcols.trans (Grid.cols_modify _ _ _),
        fun p => (hterrain p).trans (terrain?_enter _ _ _ _), havatars, ?_⟩
      refine hblocks.trans ?_
      show w.blocks ++ [spec.block] ++ rest.map BlockSpec.block = _
      rw [List.append_assoc]
      rfl

theorem rearranged_withBlocks (h : Consistent (w.withBlocks specs))
    (h' : Consistent (w.withBlocks specs')) (hspecs : specs'.Perm specs) :
    Rearranged (w.withBlocks specs) (w.withBlocks specs') := by
  obtain ⟨hrows, hcols, hterrain, havatars, hblocks⟩ := w.withBlocks_spec specs
  obtain ⟨hrows', hcols', hterrain', havatars', hblocks'⟩ := w.withBlocks_spec specs'
  refine h.rearranged h' (hrows'.trans hrows.symm) (hcols'.trans hcols.symm)
    (fun p => (hterrain' p).trans (hterrain p).symm) (havatars'.trans havatars.symm) ?_
  rw [hblocks, hblocks']
  exact (hspecs.map _).append_left _

end World

namespace LevelFile

open World (Vacant Rearranged)

variable {f : LevelFile} {level : Level} {w w' : World} {spec : BlockSpec}
  {specs specs' : List BlockSpec}

theorem placeBlock_eq_ok_iff :
    placeBlock w spec = .ok w' ↔ w.Vacant spec ∧ w.insertBlock spec.block = w' := by
  rw [placeBlock, mapError_eq_ok_iff, World.addBlock, Vacant]
  show (if w.registered spec.id then _ else if w.grid.Contains spec.position then
    Except.ok (w.insertBlock spec.block) else _) = _ ↔ _
  split
  · next hused => simp [hused]
  · next hnew =>
      split
      · next hcontains => simp [hnew, hcontains]
      · next hout => simp [hout]

/-- Blocks can be put into a world exactly when each of them finds a place there and no two of them
have one name. -/
theorem foldlM_placeBlock_eq_ok_iff : specs.foldlM placeBlock w = .ok w' ↔
    (specs.map (·.id)).Nodup ∧ (∀ spec ∈ specs, w.Vacant spec) ∧ w.withBlocks specs = w' := by
  induction specs generalizing w with
  | nil => simp [pure, Except.pure, World.withBlocks]
  | cons spec rest ih =>
      have hrest : (w.insertBlock spec.block).withBlocks rest = w.withBlocks (spec :: rest) := rfl
      have hname : spec.block.id = spec.id := rfl
      have hnew : spec.id ∉ rest.map (·.id) ↔ ∀ s ∈ rest, s.id ≠ spec.id := by
        simp only [List.mem_map, not_exists, not_and, ne_eq]
      simp only [List.foldlM_cons, bind_eq_ok_iff, placeBlock_eq_ok_iff, ih, and_assoc,
        exists_and_left, exists_eq_left', World.vacant_insertBlock, hname, hrest, forall_and,
        List.map_cons, List.nodup_cons, hnew, List.forall_mem_cons]
      constructor
      · rintro ⟨hfirst, hdistinct, hvacant, hother, hw⟩
        exact ⟨hother, hdistinct, hfirst, hvacant, hw⟩
      · rintro ⟨hother, hdistinct, hfirst, hvacant, hw⟩
        exact ⟨hfirst, hdistinct, hvacant, hother, hw⟩

/-- Blocks that can be put into a world can be put into it in any order. -/
theorem foldlM_placeBlock_of_perm (h : specs.foldlM placeBlock w = .ok w')
    (hspecs : specs'.Perm specs) :
    w.withBlocks specs = w' ∧ specs'.foldlM placeBlock w = .ok (w.withBlocks specs') := by
  obtain ⟨hdistinct, hvacant, hw⟩ := foldlM_placeBlock_eq_ok_iff.mp h
  refine ⟨hw, foldlM_placeBlock_eq_ok_iff.mpr ⟨?_, ?_, rfl⟩⟩
  · exact (hspecs.map _).nodup_iff.mpr hdistinct
  · exact fun spec hspec => hvacant spec (hspecs.mem_iff.mp hspec)

/-- The blocks come last. -/
theorem buildWorld_eq_bind (f : LevelFile) : f.buildWorld
    = { f with blocks := [] }.buildWorld >>= fun w => f.blocks.foldlM placeBlock w := by
  show (if f.rows = 0 ∨ f.cols = 0 then _ else _)
    = (if f.rows = 0 ∨ f.cols = 0 then _ else _) >>= fun w => f.blocks.foldlM placeBlock w
  split
  · rfl
  · simp only [bind_assoc, List.foldlM_nil, pure_bind]
    rfl

/-- A file that lists its blocks in another order makes the same level, up to the order of the
blocks in its world. -/
theorem build_rearranged (h : f.build = .ok level) (hspecs : specs.Perm f.blocks) :
    ∃ w', { f with blocks := specs }.build = .ok { level with world := w' } ∧
      Rearranged level.world w' := by
  unfold build at h
  rw [bind_eq_ok_iff] at h
  obtain ⟨w, hw, hlevel⟩ := h
  cases hlevel
  have hreachable := reachable_buildWorld hw
  rw [buildWorld_eq_bind, bind_eq_ok_iff] at hw
  obtain ⟨w₀, h₀, hblocks⟩ := hw
  obtain ⟨rfl, hblocks'⟩ := foldlM_placeBlock_of_perm hblocks hspecs
  have hbuild : { f with blocks := specs }.buildWorld = .ok (w₀.withBlocks specs) := by
    rw [buildWorld_eq_bind, bind_eq_ok_iff]
    exact ⟨w₀, h₀, hblocks'⟩
  refine ⟨w₀.withBlocks specs, ?_, ?_⟩
  · unfold build
    rw [hbuild]
    rfl
  · exact World.rearranged_withBlocks hreachable.consistent
      (reachable_buildWorld hbuild).consistent hspecs

end LevelFile

end TilePuzzle
