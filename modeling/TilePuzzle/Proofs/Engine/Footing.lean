import TilePuzzle.Proofs.Engine.Crowding
import TilePuzzle.Proofs.Level.Rearrangement

/-!
# Where avatars stand

A move leads onto floor without another avatar. But a level file may put its avatars anywhere on the
grid, onto walls and holes and onto each other, and an avatar that does not move stays there. So the
avatars of a run stand on floor, one on a tile, exactly when the level file has put them so
(`footed_misplaced` has a file that does not).

The main statement is `footed_as_placed`.
-/

namespace TilePuzzle

/-- The avatar that a level file lists, at line 1 and with empty hands. -/
def AvatarSpec.avatar (spec : AvatarSpec) : Avatar := { id := spec.id, position := spec.position }

/-- Every avatar is on a tile that avatars may stand on, and no two avatars share a tile. -/
structure World.Footed (w : World) : Prop where
  walkable : ∀ a ∈ w.avatars, ∃ t, w.terrain? a.position = some t ∧ t.walkable = true
  apart : (w.avatars.map (·.position)).Nodup

namespace LevelFile

variable {f : LevelFile} {level : Level} {w w' : World} {specs : List AvatarSpec}

/-! ## The avatars of a level -/

theorem avatars_placeTerrain {symbol : Nat × Nat × Char} (h : placeTerrain w symbol = .ok w') :
    w'.avatars = w.avatars := by
  obtain ⟨x, y, c⟩ := symbol
  have hset : ∀ terrain, (w.setTerrain ⟨x, y⟩ terrain).mapError LevelError.world = .ok w' →
      w'.avatars = w.avatars := by
    intro terrain hset
    rw [mapError_eq_ok_iff, World.setTerrain] at hset
    split at hset <;> cases hset
    rfl
  simp only [placeTerrain] at h
  split at h
  · cases h
  · cases h
    rfl
  · exact hset _ h

theorem avatars_placeAvatar {spec : AvatarSpec} (h : placeAvatar w spec = .ok w') :
    w'.avatars = w.avatars ++ [spec.avatar] := by
  rw [placeAvatar, mapError_eq_ok_iff, World.addAvatar] at h
  split at h
  · cases h
  · split at h <;> cases h
    rfl

theorem avatars_foldlM_placeAvatar (h : specs.foldlM placeAvatar w = .ok w') :
    w'.avatars = w.avatars ++ specs.map AvatarSpec.avatar := by
  induction specs generalizing w with
  | nil =>
      cases h
      exact (List.append_nil _).symm
  | cons spec rest ih =>
      rw [List.foldlM_cons, bind_eq_ok_iff] at h
      obtain ⟨w₁, hfirst, hrest⟩ := h
      rw [ih hrest, avatars_placeAvatar hfirst, List.append_assoc]
      rfl

/-- The avatars of a level are those of its file, in the order of the file. -/
theorem avatars_buildWorld (h : f.buildWorld = .ok w) :
    w.avatars = f.avatars.map AvatarSpec.avatar := by
  unfold buildWorld at h
  split at h
  · cases h
  · simp only [bind_eq_ok_iff, mapError_eq_ok_iff] at h
    obtain ⟨w₀, hsize, w₁, hterrain, w₂, havatars, hblocks⟩ := h
    have h₀ : w₀.avatars = [] := by
      rw [World.withDimensions, World.setDimensions] at hsize
      split at hsize
      · cases hsize
      · split at hsize <;> cases hsize
        rfl
    have h₁ : w₁.avatars = [] := foldlM_induction (P := fun w => w.avatars = [])
      (fun _ _ _ hw h => (avatars_placeTerrain h).trans hw) _ hterrain h₀
    obtain ⟨-, -, rfl⟩ := foldlM_placeBlock_eq_ok_iff.mp hblocks
    obtain ⟨-, -, -, hkept, -⟩ := w₂.withBlocks_spec f.blocks
    rw [hkept, avatars_foldlM_placeAvatar havatars, h₁, List.nil_append]

theorem avatars_build (h : f.build = .ok level) :
    level.world.avatars = f.avatars.map AvatarSpec.avatar := by
  unfold build at h
  rw [bind_eq_ok_iff] at h
  obtain ⟨w, hw, hlevel⟩ := h
  cases hlevel
  exact avatars_buildWorld hw

theorem footed_build_iff (h : f.build = .ok level) : level.world.Footed ↔
    (∀ spec ∈ f.avatars, ∃ t, level.world.terrain? spec.position = some t ∧ t.walkable = true) ∧
      (f.avatars.map (·.position)).Nodup := by
  have hpositions : level.world.avatars.map (·.position) = f.avatars.map (·.position) := by
    rw [avatars_build h, List.map_map]
    rfl
  have hall : (∀ a ∈ level.world.avatars,
        ∃ t, level.world.terrain? a.position = some t ∧ t.walkable = true)
      ↔ ∀ spec ∈ f.avatars,
        ∃ t, level.world.terrain? spec.position = some t ∧ t.walkable = true := by
    rw [avatars_build h, List.forall_mem_map]
    rfl
  rw [← hpositions, ← hall]
  exact ⟨fun hw => ⟨hw.walkable, hw.apart⟩, fun hw => ⟨hw.1, hw.2⟩⟩

end LevelFile

namespace World

variable {w w' : World}

/-- A world into which avatars have only gone over floor, without crowding, is footed if the world
before was. -/
theorem Tidy.footed (h : Tidy w w') (hw : w.Footed) : w'.Footed where
  walkable := by
    intro a' ha'
    rcases h.footing a' ha' with ⟨a, ha, -, hposition⟩ | hfloor
    · obtain ⟨t, ht, hwalkable⟩ := hw.walkable a ha
      exact ⟨t, by rw [h.setting.terrain, ← hposition, ht], hwalkable⟩
    · exact ⟨.floor, hfloor, rfl⟩
  apart := by
    rw [List.nodup_iff_count_le_one]
    intro p
    have hbefore := List.nodup_iff_count_le_one.mp hw.apart p
    have hthen := h.avatars p
    rw [avatarsAt_eq_count, avatarsAt_eq_count] at hthen
    omega

end World

namespace Engine

open World (Reachable)

/-- In every run in a level each avatar is on floor or where the file has put it, and no tile has
more avatars than one or than the file has put there. So the avatars stand on floor, one on a tile,
during the whole run exactly when the file has put them onto floor, one on a tile. -/
theorem footed_as_placed {f : LevelFile} {level : Level} (hf : f.build = .ok level) {e : Engine}
    (he : e.world = level.world) (clock : Nat → Readings) :
    (∀ n, ∀ a ∈ (e.after clock n).world.avatars,
      (∃ t, (e.after clock n).world.terrain? a.position = some t ∧ t.walkable = true) ∨
        ∃ spec ∈ f.avatars, spec.id = a.id ∧ spec.position = a.position) ∧
    (∀ n p, (e.after clock n).world.avatarsAt p ≤ max 1 (f.avatars.countP (·.position = p))) ∧
    ((∀ n, (e.after clock n).world.Footed) ↔
      (∀ spec ∈ f.avatars, ∃ t, level.world.terrain? spec.position = some t ∧ t.walkable = true) ∧
        (f.avatars.map (·.position)).Nodup) := by
  have hreachable : Reachable e.world := he ▸ LevelFile.world_reachable hf
  have havatars : e.world.avatars = f.avatars.map AvatarSpec.avatar :=
    he ▸ LevelFile.avatars_build hf
  have hstart : e.world.InOrder e.world := ⟨hreachable, .refl _⟩
  have htidy : ∀ n, World.Tidy e.world (e.after clock n).world := fun n =>
    (hstart.after clock n).2
  have hfooted : e.world.Footed ↔
      (∀ spec ∈ f.avatars, ∃ t, level.world.terrain? spec.position = some t ∧ t.walkable = true) ∧
        (f.avatars.map (·.position)).Nodup := by
    rw [← LevelFile.footed_build_iff hf, he]
  refine ⟨fun n a ha => ?_, fun n p => ?_, ?_⟩
  · rcases (htidy n).footing a ha with ⟨a₀, ha₀, hid, hposition⟩ | hfloor
    · rw [havatars, List.mem_map] at ha₀
      obtain ⟨spec, hspec, rfl⟩ := ha₀
      exact .inr ⟨spec, hspec, hid, hposition⟩
    · exact .inl ⟨.floor, hfloor, rfl⟩
  · have hle := (htidy n).avatars p
    have hplaced : e.world.avatarsAt p = f.avatars.countP (·.position = p) := by
      rw [World.avatarsAt, havatars, List.countP_map]
      rfl
    rwa [hplaced] at hle
  · rw [← hfooted]
    exact ⟨fun h => h 0, fun h n => (htidy n).footed h⟩

/-- Two avatars on floor, each on a tile of its own, at the left of a hole. -/
def placed : LevelFile where
  layout := ["..o"]
  avatars := [{ id := 1, position := ⟨0, 0⟩ }, { id := 2, position := ⟨0, 1⟩ }]
  goal := { idealTime := 0, idealLines := 0, budget := 9 }

/-- The level of `placed`. -/
def placedLevel : Level where
  name := ""
  world := [.setDimensions 1 3, .setTerrain ⟨0, 2⟩ .hole,
    .addAvatar { id := 1, position := ⟨0, 0⟩ },
    .addAvatar { id := 2, position := ⟨0, 1⟩ }].foldl World.perform World.empty
  goal := placed.goal
  timeLimit := 300
  program := []

/-- A wall and a floor tile, with an avatar on the wall and two more on the floor tile. -/
def misplaced : LevelFile where
  layout := ["#."]
  avatars := [{ id := 1, position := ⟨0, 0⟩ }, { id := 2, position := ⟨0, 1⟩ },
    { id := 3, position := ⟨0, 1⟩ }]
  goal := placed.goal

/-- The level of `misplaced`. -/
def misplacedLevel : Level where
  name := ""
  world := [.setDimensions 1 2, .setTerrain ⟨0, 0⟩ .wall,
    .addAvatar { id := 1, position := ⟨0, 0⟩ },
    .addAvatar { id := 2, position := ⟨0, 1⟩ },
    .addAvatar { id := 3, position := ⟨0, 1⟩ }].foldl World.perform World.empty
  goal := placed.goal
  timeLimit := 300
  program := []

/-- An engine that sends every avatar of a level to the right, twice. -/
def sender (level : Level) : Engine where
  program := { commands := [.move .east, .move .east] }
  world := level.world
  goal := level.goal
  timeLimit := level.timeLimit

theorem footed_as_placed_sender :
    placed.build = .ok placedLevel ∧
      ∀ n, ((sender placedLevel).after (fun k => .still k) n).world.Footed := by
  have hbuild : placed.build = .ok placedLevel := rfl
  obtain ⟨-, -, hfooted⟩ := footed_as_placed hbuild (e := sender placedLevel) rfl fun k => .still k
  refine ⟨hbuild, hfooted.mpr ⟨?_, by decide⟩⟩
  intro spec hspec
  have hfloor : ∀ spec ∈ placed.avatars,
      placedLevel.world.terrain? spec.position = some .floor := by
    decide
  exact ⟨.floor, hfloor spec hspec, rfl⟩

/-- The file is a level all the same. After a tick the avatar 1 still stands on the wall, and the
other two still share their tile. -/
theorem footed_misplaced :
    misplaced.build = .ok misplacedLevel ∧
      let w := ((sender misplacedLevel).after (fun k => .still k) 1).world
      (w.avatar? 1).map (·.position) = some ⟨0, 0⟩ ∧ w.terrain? ⟨0, 0⟩ = some .wall ∧
        w.avatarsAt ⟨0, 1⟩ = 2 ∧ ¬w.Footed := by
  refine ⟨rfl, by decide, by decide, by decide, fun h => ?_⟩
  exact absurd h.apart (by decide)

end Engine

end TilePuzzle
