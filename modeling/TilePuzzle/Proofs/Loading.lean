import TilePuzzle.Loading
import TilePuzzle.Proofs.Except
import TilePuzzle.Proofs.RoundTrip

/-!
# Loading a level

A level comes from a path when the file there can be read as a level file, and this one makes a level.
`ReadFrom` is the part about the files, so that the rest can be said about level files alone.
-/

namespace TilePuzzle

variable {read : Reader} {path : String} {f : LevelFile} {level : Level}

/-- The text of the file at the path is that of a level file. -/
def LevelFile.ReadFrom (f : LevelFile) (read : Reader) (path : String) : Prop :=
  ∃ bytes, read path = .ok bytes ∧ LevelFile.ofBytes? bytes = some f

theorem LevelFile.ReadFrom.loadLevel_eq (h : f.ReadFrom read path) :
    loadLevel read path = f.build.mapError .levelInvalid := by
  obtain ⟨bytes, hread, hf⟩ := h
  have hok : (Except.ok bytes).mapError (LoadError.levelUnread path) = .ok bytes := rfl
  simp only [loadLevel, hread, hok, bind, Except.bind, hf]

/-- A level file that is written at a path is read from there. -/
theorem LevelFile.readFrom_of_written {v : Json} {text : String}
    (hread : read path = .ok text.toUTF8) (hf : f.Fits) (hv : f.Written v)
    (htext : Json.Renders v.tokens text.toList) : f.ReadFrom read path := by
  refine ⟨_, hread, ?_⟩
  rw [LevelFile.ofBytes?, Json.ofBytes?_toUTF8]
  exact LevelFile.ofText?_of_written hf hv htext

theorem exists_readFrom (h : loadLevel read path = .ok level) :
    ∃ f : LevelFile, f.ReadFrom read path ∧ f.build = .ok level := by
  rw [loadLevel, bind_eq_ok_iff] at h
  obtain ⟨bytes, hread, h⟩ := h
  rw [mapError_eq_ok_iff] at hread
  cases hf : LevelFile.ofBytes? bytes with
  | none => simp [hf] at h
  | some f =>
      simp only [hf, mapError_eq_ok_iff] at h
      exact ⟨f, ⟨bytes, hread, hf⟩, h⟩

end TilePuzzle
