import TilePuzzle.Level.Basic
import TilePuzzle.Proofs.Except
import TilePuzzle.Proofs.World.Reachable

/-!
# Levels are reachable

The world of a level is built by the actions that any world is built by, and the elements of a level
file enter it with empty hands and at rest. So what holds of every reachable world holds of the
worlds of all levels.
-/

namespace TilePuzzle

namespace LevelFile

variable {f : LevelFile} {level : Level} {w w' : World}

open World (Reachable ReachedBy)

theorem reachable_placeTerrain (hw : Reachable w) {symbol : Nat × Nat × Char}
    (h : placeTerrain w symbol = .ok w') : Reachable w' := by
  obtain ⟨x, y, c⟩ := symbol
  simp only [placeTerrain] at h
  generalize Terrain.ofText? (String.singleton c) = answer at h
  have hset : ∀ terrain, (w.setTerrain ⟨x, y⟩ terrain).mapError LevelError.world = .ok w' →
      Reachable w' := by
    intro terrain hset
    rw [mapError_eq_ok_iff] at hset
    have hperform : w.perform (.setTerrain ⟨x, y⟩ terrain) = w' := by
      rw [World.perform, hset]
      rfl
    rw [← hperform]
    exact hw.perform trivial
  match answer with
  | none => cases h
  | some .floor =>
      cases h
      exact hw
  | some .wall => exact hset .wall h
  | some .hole => exact hset .hole h

theorem reachable_placeAvatar (hw : Reachable w) {spec : AvatarSpec}
    (h : placeAvatar w spec = .ok w') : Reachable w' := by
  rw [placeAvatar, mapError_eq_ok_iff] at h
  have hperform : w.perform (.addAvatar { id := spec.id, position := spec.position }) = w' := by
    rw [World.perform, h]
    rfl
  rw [← hperform]
  exact hw.perform rfl

theorem reachable_placeBlock (hw : Reachable w) {spec : BlockSpec}
    (h : placeBlock w spec = .ok w') : Reachable w' := by
  rw [placeBlock, mapError_eq_ok_iff] at h
  have hperform : w.perform
      (.addBlock { id := spec.id, position := spec.position, number := spec.number }) = w' := by
    rw [World.perform, h]
    rfl
  rw [← hperform]
  exact hw.perform rfl

theorem reachable_buildWorld (h : f.buildWorld = .ok w) : Reachable w := by
  unfold buildWorld at h
  split at h
  · cases h
  · simp only [bind_eq_ok_iff, mapError_eq_ok_iff] at h
    obtain ⟨w₀, hsize, w₁, hterrain, w₂, havatars, hblocks⟩ := h
    have hperform : World.empty.perform (.setDimensions f.rows f.cols) = w₀ := by
      rw [World.withDimensions] at hsize
      rw [World.perform, hsize]
      rfl
    have h₀ : Reachable w₀ := by
      rw [← hperform]
      exact ReachedBy.empty.perform trivial
    have h₁ : Reachable w₁ :=
      foldlM_induction (fun _ _ _ hw h => reachable_placeTerrain hw h) _ hterrain h₀
    have h₂ : Reachable w₂ :=
      foldlM_induction (fun _ _ _ hw h => reachable_placeAvatar hw h) _ havatars h₁
    exact foldlM_induction (fun _ _ _ hw h => reachable_placeBlock hw h) _ hblocks h₂

theorem world_reachable (h : f.build = .ok level) : Reachable level.world := by
  unfold build at h
  rw [bind_eq_ok_iff] at h
  obtain ⟨w, hw, hlevel⟩ := h
  cases hlevel
  exact reachable_buildWorld hw

end LevelFile

end TilePuzzle
