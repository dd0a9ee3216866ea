import TilePuzzle.Proofs.World.Consistency

/-!
# The setting of a run

Avatars move, carry and calculate, and in a run they go on in their program. None of this touches
the setting: the size of the grid, the terrain, and which elements there are, in which order.
`SameSetting` says so of two worlds; commands and counters keep it.
-/

namespace TilePuzzle

namespace World

variable {w w₁ w' : World} {id k : Nat} {a : Avatar} {target : Position}

/-- `w'` has the size, the terrain and the elements of `w`. -/
structure SameSetting (w w' : World) : Prop where
  rows : w'.grid.rows = w.grid.rows
  cols : w'.grid.cols = w.grid.cols
  terrain : ∀ p, w'.terrain? p = w.terrain? p
  avatarIds : w'.avatarIds = w.avatarIds
  blockIds : w'.blockIds = w.blockIds

namespace SameSetting

theorem refl (w : World) : SameSetting w w := ⟨rfl, rfl, fun _ => rfl, rfl, rfl⟩

theorem trans (h : SameSetting w w₁) (h' : SameSetting w₁ w') : SameSetting w w' where
  rows := h'.rows.trans h.rows
  cols := h'.cols.trans h.cols
  terrain := fun p => (h'.terrain p).trans (h.terrain p)
  avatarIds := h'.avatarIds.trans h.avatarIds
  blockIds := h'.blockIds.trans h.blockIds

theorem symm (h : SameSetting w w') : SameSetting w' w :=
  ⟨h.rows.symm, h.cols.symm, fun p => (h.terrain p).symm, h.avatarIds.symm, h.blockIds.symm⟩

theorem contains_iff (h : SameSetting w w') {p : Position} :
    w'.grid.Contains p ↔ w.grid.Contains p := by
  rw [Grid.Contains, h.rows, h.cols, Grid.Contains]

/-! ## Small changes -/

theorem relocate (w : World) (id : Nat) (source target : Position) :
    SameSetting w (w.relocate id source target) where
  rows := by simp [World.relocate, enter, leave]
  cols := by simp [World.relocate, enter, leave]
  terrain := by simp [World.relocate]
  avatarIds := rfl
  blockIds := rfl

theorem updateAvatar (w : World) (id : Nat) {f : Avatar → Avatar} (hf : ∀ a, (f a).id = a.id) :
    SameSetting w (w.updateAvatar id f) :=
  ⟨rfl, rfl, fun _ => rfl, avatarIds_updateAvatar hf, rfl⟩

theorem updateBlock (w : World) (k : Nat) {g : Block → Block} (hg : ∀ b, (g b).id = b.id) :
    SameSetting w (w.updateBlock k g) :=
  ⟨rfl, rfl, fun _ => rfl, rfl, blockIds_updateBlock hg⟩

theorem shift (w : World) (a : Avatar) (target : Position) :
    SameSetting w (w.shift a target) := by
  have hput : SameSetting w (w.putAvatar a.id a.position target) :=
    (relocate w a.id a.position target).trans (updateAvatar _ _ (by intro; rfl))
  unfold World.shift
  cases a.held with
  | none => exact hput
  | some k =>
      exact hput.trans ((relocate _ k a.position target).trans (updateBlock _ _ (by intro; rfl)))

theorem link (w : World) (id k : Nat) : SameSetting w (w.link id k) :=
  (updateBlock w k (by intro; rfl)).trans (updateAvatar _ id (by intro; rfl))

theorem unlink (w : World) (id k : Nat) : SameSetting w (w.unlink id k) :=
  (updateBlock w k (by intro; rfl)).trans (updateAvatar _ id (by intro; rfl))

/-! ## What avatars do -/

theorem moveAvatar (w : World) (id : Nat) (target : Position) :
    SameSetting w (w.moveAvatar id target).2 := by
  rcases w.moveAvatar_cases id target with heq | ⟨a, -, -, -, heq⟩
  · rw [heq]
    exact refl w
  · rw [heq]
    exact shift w a target

theorem pickUp (w : World) (id : Nat) : SameSetting w (w.pickUp id).2 := by
  rcases w.pickUp_cases id with heq | ⟨a, b, -, -, -, heq⟩
  · rw [heq]
    exact refl w
  · rw [heq]
    exact link w id b.id

theorem drop (w : World) (id : Nat) : SameSetting w (w.drop id).2 := by
  rcases w.drop_cases id with heq | ⟨a, k, b, -, -, -, -, heq⟩
  · rw [heq]
    exact refl w
  · rw [heq]
    exact unlink w id k

theorem calculate (w : World) (id : Nat) (op : Operation) (p : Position) :
    SameSetting w (w.calculate id op p) := by
  rcases w.calculate_cases id op p with heq | ⟨_, k, _, _, _, -, -, -, -, -, heq⟩
  · rw [heq]
    exact refl w
  · rw [heq]
    exact updateBlock w k (by intro; rfl)

/-- A command changes nothing of the setting. -/
theorem execute (c : Command) (id : Nat) (w : World) : SameSetting w (c.execute id w).2 :=
  execute_cases w id c (refl w) (moveAvatar w id) (pickUp w id) (drop w id) (calculate w id)

theorem setCounter (w : World) (id counter : Nat) :
    SameSetting w (w.attempt (w.setCounter id counter)) := by
  unfold World.setCounter
  cases w.avatar? id with
  | none => exact refl w
  | some a => exact updateAvatar w id (by intro; rfl)

end SameSetting

end World

end TilePuzzle
