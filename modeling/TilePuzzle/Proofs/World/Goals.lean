import TilePuzzle.Goal
import TilePuzzle.Proofs.World.Occupancy

/-!
# Goals and elements

A goal looks at its targets through the tiles. An avatar target asks whether anybody answers for the
tile, and somebody does as soon as an avatar is there. A block target asks the block that answers,
which is the first of all blocks that rest there. So a goal that is reached is fulfilled by the
elements. But where several blocks rest on one tile, a block with the right number may stand behind
one with another number, and then a goal that is fulfilled is not reached (`reached_shadowed`).

The main statement is `settled_of_reachable`.
-/

namespace TilePuzzle

open World (Reachable ReachedBy Consistent RestsFirst)

namespace Goal

variable {g g' : Goal} {w : World}

/-- Each target is satisfied by some element, and there is a target. -/
structure Fulfilled (g : Goal) (w : World) : Prop where
  targets : g.avatarTargets ≠ [] ∨ g.blockTargets ≠ []
  avatars : ∀ p ∈ g.avatarTargets, ∃ a ∈ w.avatars, a.position = p
  blocks : ∀ t ∈ g.blockTargets,
    ∃ b ∈ w.blocks, b.position = t.position ∧ b.held = false ∧ b.number = t.number

/-- The two goals name the same targets, in any order and any number of times. -/
structure SameTargets (g g' : Goal) : Prop where
  avatars : ∀ p, p ∈ g'.avatarTargets ↔ p ∈ g.avatarTargets
  blocks : ∀ t, t ∈ g'.blockTargets ↔ t ∈ g.blockTargets

/-! ## Targets and tiles -/

theorem hasTargets_iff : g.hasTargets = true ↔ g.avatarTargets ≠ [] ∨ g.blockTargets ≠ [] := by
  rw [hasTargets, Bool.or_eq_true, Bool.not_eq_true', Bool.not_eq_true', Ne, Ne,
    ← List.isEmpty_iff, ← List.isEmpty_iff, Bool.not_eq_true, Bool.not_eq_true]

/-- A goal is reached by those who answer for the tiles of its targets. -/
theorem reached_iff_answers : g.reached w = true ↔
    (g.avatarTargets ≠ [] ∨ g.blockTargets ≠ []) ∧
      (∀ p ∈ g.avatarTargets, ∃ a, w.avatarOn? p = some a) ∧
      ∀ t ∈ g.blockTargets, ∃ b, w.blockOn? t.position = some b ∧ b.number = t.number := by
  simp only [reached, Bool.and_eq_true, hasTargets_iff, List.all_eq_true, and_assoc,
    Option.isSome_iff_exists, Option.any_eq_true, decide_eq_true_eq]

theorem SameTargets.reached_eq (h : SameTargets g g') (w : World) :
    g'.reached w = g.reached w := by
  have havatars : g'.avatarTargets ≠ [] ↔ g.avatarTargets ≠ [] := by
    simp only [← List.isEmpty_eq_false_iff, List.isEmpty_eq_false_iff_exists_mem, h.avatars]
  have hblocks : g'.blockTargets ≠ [] ↔ g.blockTargets ≠ [] := by
    simp only [← List.isEmpty_eq_false_iff, List.isEmpty_eq_false_iff_exists_mem, h.blocks]
  rw [Bool.eq_iff_iff, reached_iff_answers, reached_iff_answers, havatars, hblocks]
  simp only [h.avatars, h.blocks]

/-! ## Targets and elements -/

section Consistent

variable (h : Consistent w)

include h

theorem avatarOn?_isSome_iff {p : Position} :
    (∃ a, w.avatarOn? p = some a) ↔ ∃ a ∈ w.avatars, a.position = p := by
  rw [← Option.ne_none_iff_exists', Ne, h.avatarOn?_eq_none_iff]
  push Not
  rfl

/-- A goal is reached when it is fulfilled and no target asks a block with another number. -/
theorem reached_iff_fulfilled : g.reached w = true ↔
    g.Fulfilled w ∧
      ∀ t ∈ g.blockTargets, ∀ b, w.RestsFirst t.position b → b.number = t.number := by
  simp only [reached_iff_answers, avatarOn?_isSome_iff h, ← h.blockOn?_eq_some_iff_restsFirst]
  constructor
  · rintro ⟨htargets, havatars, hblocks⟩
    refine ⟨⟨htargets, havatars, fun t ht => ?_⟩, fun t ht b hb => ?_⟩
    · obtain ⟨b, hb, hnumber⟩ := hblocks t ht
      obtain ⟨⟨hmem, hposition, hrests⟩, -⟩ := h.blockOn?_eq_some_iff.mp hb
      exact ⟨b, hmem, hposition, hrests, hnumber⟩
    · obtain ⟨b', hb', hnumber⟩ := hblocks t ht
      rw [hb] at hb'
      cases hb'
      exact hnumber
  · rintro ⟨⟨htargets, havatars, hblocks⟩, hfirst⟩
    refine ⟨htargets, havatars, fun t ht => ?_⟩
    obtain ⟨b, hmem, hposition, hrests, -⟩ := hblocks t ht
    -- A block rests there, so one of them answers.
    cases hon : w.blockOn? t.position with
    | none =>
        rw [h.blockOn?_eq_none_iff.mp hon b hmem hposition] at hrests
        cases hrests
    | some b' => exact ⟨b', rfl, hfirst t ht b' hon⟩

theorem contains_of_fulfilled (hg : g.Fulfilled w) :
    (∀ p ∈ g.avatarTargets, w.grid.Contains p) ∧
      ∀ t ∈ g.blockTargets, w.grid.Contains t.position := by
  constructor
  · intro p hp
    obtain ⟨a, ha, rfl⟩ := hg.avatars p hp
    exact h.contains_of_place? (h.place?_of_mem_avatars ha)
  · intro t ht
    obtain ⟨b, hb, hposition, -⟩ := hg.blocks t ht
    exact hposition ▸ h.contains_of_place? (h.place?_of_mem_blocks hb)

end Consistent

/-- How the verdict on a goal and the elements of the world hang together. -/
structure Settled (g : Goal) (w : World) : Prop where
  /-- Of several blocks that rest on the tile of a target, the first one counts. -/
  reached_iff : g.reached w = true ↔
    g.Fulfilled w ∧
      ∀ t ∈ g.blockTargets, ∀ b, w.RestsFirst t.position b → b.number = t.number
  /-- Where the blocks that rest on the tile of a target agree, it does not matter who is first. -/
  reached_of_agreement :
    (∀ t ∈ g.blockTargets, ∀ b ∈ w.blocks, ∀ c ∈ w.blocks,
      b.position = t.position → c.position = t.position → b.held = false → c.held = false →
        b.number = c.number) →
    (g.reached w = true ↔ g.Fulfilled w)
  same_targets : ∀ g', SameTargets g g' → g'.reached w = g.reached w
  contained : g.reached w = true →
    (∀ p ∈ g.avatarTargets, w.grid.Contains p) ∧
      ∀ t ∈ g.blockTargets, w.grid.Contains t.position

/-- In every reachable world a goal is reached exactly when it has a target, every avatar target has
an avatar and every block target has a resting block, the first one on its tile, with the number of
the target. Neither the order of the targets nor their repetition matters, and no target of a goal
that is reached lies off the grid. -/
theorem settled_of_reachable (hw : Reachable w) (g : Goal) : Settled g w := by
  have h := hw.consistent
  exact {
    reached_iff := reached_iff_fulfilled h
    reached_of_agreement := by
      intro hagree
      rw [reached_iff_fulfilled h, and_iff_left_iff_imp]
      intro hg t ht b hb
      obtain ⟨c, hc, hposition, hrests, hnumber⟩ := hg.blocks t ht
      rw [← hnumber]
      exact hagree t ht b hb.1.1 c hc hb.1.2.1 hposition hb.1.2.2 hrests
    same_targets := fun g' hg' => hg'.reached_eq w
    contained := fun hg => contains_of_fulfilled h ((reached_iff_fulfilled h).mp hg).1 }

/-- Two blocks that rest on one tile and an avatar that stands beside them. -/
def pile : World :=
  [.setDimensions 1 2, .addBlock { id := 1, position := ⟨0, 0⟩, number := 5 },
    .addBlock { id := 2, position := ⟨0, 0⟩, number := 6 },
    .addAvatar { id := 3, position := ⟨0, 1⟩ }].foldl World.perform World.empty

/-- A block with this number has to rest on the tile of the pile. -/
def piled (number : Int) : Goal where
  idealTime := 0
  idealLines := 0
  budget := 9
  avatarTargets := [⟨0, 1⟩]
  blockTargets := [⟨⟨0, 0⟩, number⟩]

theorem settled_of_reachable_pile :
    Reachable pile ∧ Settled (piled 5) pile ∧ (piled 5).Fulfilled pile := by
  have h : Reachable pile := ReachedBy.empty.foldl _ (by decide)
  have hsettled := settled_of_reachable h (piled 5)
  exact ⟨h, hsettled, (hsettled.reached_iff.mp (by decide)).1⟩

/-- The block 2 rests on the tile and has the number 6, but the block 1 comes before it. -/
theorem reached_shadowed :
    Reachable pile ∧ (piled 6).Fulfilled pile ∧ (piled 6).reached pile = false := by
  refine ⟨ReachedBy.empty.foldl _ (by decide), ⟨by decide, by decide, by decide⟩, by decide⟩

end Goal

end TilePuzzle
