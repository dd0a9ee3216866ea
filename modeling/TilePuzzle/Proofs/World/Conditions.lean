import TilePuzzle.Command.Condition
import TilePuzzle.Proofs.World.Occupancy
import TilePuzzle.Proofs.World.Seen

/-!
# Conditions and elements

Each condition of an `if` looks its tile up in a way of its own. One goes through all occupants,
others ask the avatar or the block that answers for the tile. In a consistent world each of them can
be told from the lists of avatars and blocks alone, and from that it follows how they hang together.

Two of them do not fit together on a tile that avatars share. There `avatar` sees all of them, but
`empty` asks only the one with the least identifier. If this is the avatar that asks, both hold
(`empty_shared`). An avatar that shares its tile with nobody finds a tile empty exactly when there
is floor without a resting block and without another avatar.

The main statement is `coherent_of_reachable`.
-/

namespace TilePuzzle

open World (Reachable ReachedBy Consistent)

namespace Comparison

/-- The comparison that holds exactly when this one does not. -/
def opposite : Comparison → Comparison
  | equal => unequal
  | unequal => equal
  | less => atLeast
  | atLeast => less
  | greater => atMost
  | atMost => greater

theorem holds_opposite (c : Comparison) (m n : Int) : c.opposite.holds m n = !c.holds m n := by
  rw [Bool.eq_iff_iff]
  cases c <;> simp [opposite, holds]

/-- Of two numbers, either both are equal or one of them is the lesser one. -/
theorem countP_holds (m n : Int) : [equal, less, greater].countP (·.holds m n) = 1 := by
  rcases Int.lt_trichotomy m n with h | h | h
  · have hne : m ≠ n := by omega
    have hnot : ¬n < m := by omega
    simp [holds, h, hne, hnot]
  · subst h
    simp [holds]
  · have hne : m ≠ n := by omega
    have hnot : ¬m < n := by omega
    simp [holds, h, hne, hnot]

end Comparison

namespace Condition

variable {w : World} {id : Nat} {a : Avatar} {p : Position}

/-! ## What a condition says of the elements -/

theorem evaluate_terrain_iff {t : Terrain} :
    (terrain t).evaluate w id p = true ↔ (w.seen p).terrain = t := by
  rw [World.evaluate_eq_seen, decide_eq_true_eq]

theorem evaluate_number_iff {comparison : Comparison} {value : Int} :
    (number comparison value).evaluate w id p = true
      ↔ ∃ b, w.blockOn? p = some b ∧ comparison.holds b.number value = true := by
  rw [World.evaluate_eq_seen, Option.any_eq_true]

theorem evaluate_number_opposite {comparison : Comparison} {value : Int} :
    (number comparison.opposite value).evaluate w id p = true ↔
      block.evaluate w id p = true ∧ (number comparison value).evaluate w id p = false := by
  rw [World.evaluate_eq_seen, World.evaluate_eq_seen, World.evaluate_eq_seen]
  cases w.blockOn? p <;> simp [Comparison.holds_opposite]

theorem countP_evaluate_number {value : Int} : [Comparison.equal, .less, .greater].countP
    (fun comparison => (number comparison value).evaluate w id p) = 1
      ↔ block.evaluate w id p = true := by
  simp only [World.evaluate_eq_seen]
  cases w.blockOn? p with
  | none => simp
  | some b => simpa using Comparison.countP_holds b.number value

/-- Off the grid there is bare wall, and nothing else can be said about it. -/
theorem evaluate_outside (hp : ¬w.grid.Contains p) (c : Condition) :
    c.evaluate w id p = true ↔ c = terrain .wall := by
  have hnone : w.tile? p = none := Grid.get?_eq_none_iff.mpr hp
  rw [evaluate, hnone, decide_eq_true_eq]

/-- `avatar` goes through all occupants of the tile. -/
theorem evaluate_avatar_iff_occupies : avatar.evaluate w id p = true
    ↔ ∃ other, w.Occupies other p ∧ other ≠ id ∧ (w.avatar? other).isSome := by
  unfold evaluate World.Occupies
  cases w.tile? p with
  | none => simp
  | some t => simp [IdSet.mem_def]

/-- `empty` asks who answers for the tile. -/
theorem evaluate_empty_iff_answer : empty.evaluate w id p = true
    ↔ (terrain .floor).evaluate w id p = true ∧ block.evaluate w id p = false ∧
      ∀ c, w.avatarOn? p = some c → c.id = id := by
  rw [evaluate_terrain_iff, World.evaluate_eq_seen empty, World.evaluate_eq_seen block,
    Bool.and_eq_true, Bool.and_eq_true, Terrain.walkable_iff, and_assoc,
    Option.isNone_iff_eq_none, Option.isSome_eq_false_iff, Option.isNone_iff_eq_none,
    Option.all_eq_true]
  simp only [decide_eq_true_eq]

section Consistent

variable (h : Consistent w)

include h

theorem evaluate_block_iff : block.evaluate w id p = true
    ↔ ∃ b ∈ w.blocks, b.position = p ∧ b.held = false := by
  rw [World.evaluate_eq_seen, Option.isSome_iff_ne_none, Ne, h.blockOn?_eq_none_iff]
  simp only [not_forall, Bool.not_eq_true, exists_prop]

theorem evaluate_avatar_iff : avatar.evaluate w id p = true
    ↔ ∃ c ∈ w.avatars, c.position = p ∧ c.id ≠ id := by
  rw [evaluate_avatar_iff_occupies]
  constructor
  · rintro ⟨other, hoccupies, hother, hsome⟩
    obtain ⟨c, hc⟩ := Option.isSome_iff_exists.mp hsome
    obtain ⟨hmem, rfl⟩ := h.avatar?_eq_some_iff.mp hc
    exact ⟨c, hmem, (h.occupies_avatar_iff hmem).mp hoccupies, hother⟩
  · rintro ⟨c, hc, hposition, hid⟩
    have hsame : w.avatar? c.id = some c := h.avatar?_eq_some_iff.mpr ⟨hc, rfl⟩
    exact ⟨c.id, (h.occupies_avatar_iff hc).mpr hposition, hid, by rw [hsame]; rfl⟩

/-- Nobody else answers for a tile exactly when everybody else there comes after `a`. -/
theorem answer_iff (ha : a ∈ w.avatars) : (∀ c, w.avatarOn? p = some c → c.id = a.id)
    ↔ ∀ c ∈ w.avatars, c.position = p → c.id ≠ a.id → a.position = p ∧ a.id < c.id := by
  constructor
  · -- Somebody is there, so somebody answers; and that is `a`, the first of all that are there.
    intro hanswer c hc hposition hid
    cases hon : w.avatarOn? p with
    | none => exact absurd hposition (h.avatarOn?_eq_none_iff.mp hon c hc)
    | some d =>
        obtain ⟨⟨hd, hplace⟩, hleast⟩ := h.avatarOn?_eq_some_iff.mp hon
        have hda : d.id = a.id := hanswer d hon
        have hsame : d = a := h.eq_of_avatar? (h.avatar?_eq_some_iff.mpr ⟨ha, rfl⟩) hd hda
        have hle := hleast c hc hposition
        exact ⟨hsame ▸ hplace, by omega⟩
  · intro hothers c hon
    obtain ⟨⟨hc, hposition⟩, hleast⟩ := h.avatarOn?_eq_some_iff.mp hon
    by_contra hid
    obtain ⟨hplace, hlt⟩ := hothers c hc hposition hid
    exact absurd (hleast a ha hplace) (Nat.not_le.mpr hlt)

/-- `empty` holds of floor without a resting block if everybody else there comes after `a`. -/
theorem evaluate_empty_iff (ha : a ∈ w.avatars) : empty.evaluate w a.id p = true
    ↔ (terrain .floor).evaluate w a.id p = true ∧ block.evaluate w a.id p = false ∧
      ∀ c ∈ w.avatars, c.position = p → c.id ≠ a.id → a.position = p ∧ a.id < c.id := by
  rw [evaluate_empty_iff_answer, answer_iff h ha]

end Consistent

/-! ## How the conditions hang together -/

/-- What the conditions say that the avatar `a` asks about `p`, and how they hang together. -/
structure Coherent (w : World) (a : Avatar) (p : Position) : Prop where
  outside : ¬w.grid.Contains p → ∀ c : Condition, c.evaluate w a.id p = true ↔ c = terrain .wall
  terrain_iff : w.grid.Contains p →
    ∀ t, (terrain t).evaluate w a.id p = true ↔ w.terrain? p = some t
  avatar_iff : avatar.evaluate w a.id p = true ↔ ∃ c ∈ w.avatars, c.position = p ∧ c.id ≠ a.id
  block_iff : block.evaluate w a.id p = true ↔ ∃ b ∈ w.blocks, b.position = p ∧ b.held = false
  /-- On its own tile `a` overlooks the avatars whose identifiers are greater than its own. -/
  empty_iff : empty.evaluate w a.id p = true ↔
    (∃ t, w.terrain? p = some t ∧ t.walkable = true) ∧
    (∀ b ∈ w.blocks, b.position = p → b.held = true) ∧
    ∀ c ∈ w.avatars, c.position = p → c.id ≠ a.id → a.position = p ∧ a.id < c.id
  /-- Where `a` shares its tile with nobody, `empty` is floor without a block and an avatar. -/
  empty_of_alone : (a.position = p → ∀ c ∈ w.avatars, c.position = p → c.id = a.id) →
    (empty.evaluate w a.id p = true ↔ (terrain .floor).evaluate w a.id p = true ∧
      block.evaluate w a.id p = false ∧ avatar.evaluate w a.id p = false)
  block_of_number : ∀ comparison value,
    (number comparison value).evaluate w a.id p = true → block.evaluate w a.id p = true
  /-- Of the three comparisons that exclude each other, one holds of a number that is there. -/
  settled_iff : ∀ value, [Comparison.equal, .less, .greater].countP
    (fun comparison => (number comparison value).evaluate w a.id p) = 1
      ↔ block.evaluate w a.id p = true
  opposite_iff : ∀ comparison value,
    (number comparison.opposite value).evaluate w a.id p = true ↔
      block.evaluate w a.id p = true ∧ (number comparison value).evaluate w a.id p = false

/-- In every reachable world the conditions that an avatar asks about a position agree with the
elements and with each other, but for this: `empty` and `avatar` both hold on its own tile if it
shares floor without a resting block with avatars of greater identifiers only. -/
theorem coherent_of_reachable (hw : Reachable w) (ha : a ∈ w.avatars) (p : Position) :
    Coherent w a p := by
  have h := hw.consistent
  have hblock : block.evaluate w a.id p = false
      ↔ ∀ b ∈ w.blocks, b.position = p → b.held = true := by
    rw [← Bool.not_eq_true, evaluate_block_iff h]
    simp only [not_exists, not_and, Bool.not_eq_false]
  have hfloor : (terrain .floor).evaluate w a.id p = true
      ↔ ∃ t, w.terrain? p = some t ∧ t.walkable = true := by
    rw [evaluate_terrain_iff, ← World.terrain?_eq_floor_iff]
    simp only [Terrain.walkable_iff, exists_eq_right]
  exact {
    outside := evaluate_outside
    terrain_iff := fun hp t => by
      rw [evaluate_terrain_iff, World.terrain?, World.tile?_eq_seen, if_pos hp, Option.map_some,
        Option.some.injEq]
    avatar_iff := evaluate_avatar_iff h
    block_iff := evaluate_block_iff h
    empty_iff := by rw [evaluate_empty_iff h ha, hfloor, hblock]
    empty_of_alone := by
      intro halone
      rw [evaluate_empty_iff h ha, ← Bool.not_eq_true (avatar.evaluate ..), evaluate_avatar_iff h]
      refine and_congr_right fun _ => and_congr_right fun _ => ?_
      constructor
      · rintro hothers ⟨c, hc, hposition, hid⟩
        exact hid (halone (hothers c hc hposition hid).1 c hc hposition)
      · intro hnobody c hc hposition hid
        exact absurd ⟨c, hc, hposition, hid⟩ hnobody
    block_of_number := fun comparison value hnumber => by
      obtain ⟨b, hb, -⟩ := evaluate_number_iff.mp hnumber
      rw [World.evaluate_eq_seen, hb]
      rfl
    settled_iff := fun value => countP_evaluate_number
    opposite_iff := fun comparison value => evaluate_number_opposite }

/-- Two avatars and a resting block at the left of a hole, the avatar 1 with company on its tile. -/
def company : World :=
  [.setDimensions 1 3, .setTerrain ⟨0, 2⟩ .hole, .addAvatar { id := 1, position := ⟨0, 0⟩ },
    .addAvatar { id := 2, position := ⟨0, 0⟩ },
    .addBlock { id := 3, position := ⟨0, 1⟩, number := 7 }].foldl World.perform World.empty

theorem coherent_of_reachable_company :
    Reachable company ∧ { id := 1, position := ⟨0, 0⟩ } ∈ company.avatars ∧
      ∀ p, Coherent company { id := 1, position := ⟨0, 0⟩ } p := by
  have h : Reachable company := ReachedBy.empty.foldl _ (by decide)
  have ha : { id := 1, position := ⟨0, 0⟩ } ∈ company.avatars := by decide
  exact ⟨h, ha, coherent_of_reachable h ha⟩

/-- The avatar 1 finds its tile empty and finds the avatar 2 there; the avatar 2 does not find the
tile empty. -/
theorem empty_shared : Reachable company ∧ empty.evaluate company 1 ⟨0, 0⟩ = true ∧
    avatar.evaluate company 1 ⟨0, 0⟩ = true ∧ empty.evaluate company 2 ⟨0, 0⟩ = false :=
  ⟨ReachedBy.empty.foldl _ (by decide), by decide, by decide, by decide⟩

end Condition

end TilePuzzle
