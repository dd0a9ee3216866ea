import Mathlib.Data.Set.Function
import Mathlib.Order.Interval.Set.Defs
import TilePuzzle.Proofs.Engine.Extent
import TilePuzzle.Proofs.Level.Format

/-!
# Coordinates within words

A size has 32 bits at most, and so has each coordinate of a tile. What an avatar looks at, or moves to,
is a neighbour of its own tile, and this may lie off the grid by one. So it is one more than a size at
most in a word of its own: a grid of the greatest size still leaves room for it.

`InRange` says so of a world, and that the cells of its grid are the positions of it, one to one. It
holds in every world that is made within sizes of 32 bits, and in the middle of every tick of a run
there. The main statement is `coordinates_in_range`.
-/

namespace TilePuzzle

/-- The action asks for no size beyond 32 bits. -/
def Action.Sized : Action → Prop
  | setDimensions rows cols => Bounds.int32.Has rows ∧ Bounds.int32.Has cols
  | _ => True

instance : DecidablePred Action.Sized
  | .setDimensions rows cols =>
    inferInstanceAs (Decidable (Bounds.int32.Has rows ∧ Bounds.int32.Has cols))
  | .setTerrain .. | .addAvatar _ | .addBlock _ | .moveAvatar .. | .pickUp _ | .drop _
  | .setBlockNumber .. | .setCounter .. | .resetCounters | .execute .. => .isTrue trivial

/-- The action adds no element that is part of a carrying link, and asks for no size beyond 32 bits. -/
def Action.Bounded (action : Action) : Prop := action.Plain ∧ action.Sized

instance : DecidablePred Action.Bounded := fun _ => inferInstanceAs (Decidable (_ ∧ _))

/-- The row-major index numbers the positions of the grid without a gap and without a repetition. -/
theorem Grid.bijOn_index {α : Type} (g : Grid α) :
    Set.BijOn g.index {p | g.Contains p} (Set.Iio g.cells.size) :=
  ⟨fun _ hp => index_lt hp, fun _ hp _ hq h => index_inj hp hq h, fun _ hi => exists_index_eq hi⟩

namespace World

variable {w w' : World} {p : Position}

/-- The cells of the grid are its positions, and no neighbour of an avatar is beyond 32 bits. -/
structure InRange (w : World) : Prop where
  index : Set.BijOn w.grid.index {p | w.grid.Contains p} (Set.Iio w.grid.cells.size)
  /-- A look-up at a position of the grid finds the cell with its index. -/
  tile : ∀ p, w.grid.Contains p → ∃ t, w.grid.cells[w.grid.index p]? = some t ∧ w.tile? p = some t
  /-- The indices fit into words of 64 bits. -/
  size : Bounds.nat64.Has w.grid.cells.size
  contained : ∀ a ∈ w.avatars, w.grid.Contains a.position
  neighbour : ∀ a ∈ w.avatars, ∀ direction : Direction, (direction.apply a.position).Fits

/-! ## Sizes -/

/-- Nothing but setting the size changes the size. -/
theorem size_perform (w : World) (action : Action) :
    ((w.perform action).grid.rows = w.grid.rows ∧ (w.perform action).grid.cols = w.grid.cols) ∨
      ∃ rows cols, action = .setDimensions rows cols ∧
        (w.perform action).grid = .replicate rows.toNat cols.toNat {} := by
  have hsame : ∀ {w'}, SameSetting w w' → w'.grid.rows = w.grid.rows ∧ w'.grid.cols = w.grid.cols :=
    fun h => ⟨h.rows, h.cols⟩
  cases action with
  | setDimensions rows cols =>
      rcases w.setDimensions_cases rows cols with heq | ⟨-, heq⟩
      · rw [perform, heq]
        exact .inl ⟨rfl, rfl⟩
      · refine .inr ⟨rows, cols, rfl, ?_⟩
        rw [perform, heq]
  | setTerrain p terrain =>
      rw [perform, setTerrain]
      split
      · exact .inl ⟨Grid.rows_modify _ _ _, Grid.cols_modify _ _ _⟩
      · exact .inl ⟨rfl, rfl⟩
  | addAvatar a =>
      rcases w.addAvatar_cases a with heq | ⟨-, -, -, heq⟩
      · rw [perform, heq]
        exact .inl ⟨rfl, rfl⟩
      · rw [perform, heq]
        exact .inl ⟨Grid.rows_modify _ _ _, Grid.cols_modify _ _ _⟩
  | addBlock b =>
      rcases w.addBlock_cases b with heq | ⟨-, -, -, heq⟩
      · rw [perform, heq]
        exact .inl ⟨rfl, rfl⟩
      · rw [perform, heq]
        exact .inl ⟨Grid.rows_modify _ _ _, Grid.cols_modify _ _ _⟩
  | moveAvatar id target => exact .inl (hsame (.moveAvatar w id target))
  | pickUp id => exact .inl (hsame (.pickUp w id))
  | drop id => exact .inl (hsame (.drop w id))
  | setBlockNumber id number =>
      rw [perform, setBlockNumber]
      cases w.block? id <;> exact .inl ⟨rfl, rfl⟩
  | setCounter id counter => exact .inl (hsame (.setCounter w id counter))
  | resetCounters => exact .inl ⟨rfl, rfl⟩
  | execute id command => exact .inl (hsame (.execute command id w))

theorem has_toNat {n : Int} (h : Bounds.int32.Has n) : Bounds.int32.Has n.toNat := by
  have := h.1
  have := h.2
  simp only [Bounds.Has, Bounds.int32] at *
  omega

/-- Where no size beyond 32 bits is asked for, no grid has one. -/
theorem ReachedBy.size_has (h : ReachedBy Action.Bounded w) :
    Bounds.int32.Has w.grid.rows ∧ Bounds.int32.Has w.grid.cols := by
  induction h with
  | empty => decide
  | @perform w action _ hallowed ih =>
      rcases w.size_perform action with ⟨hrows, hcols⟩ | ⟨rows, cols, rfl, hgrid⟩
      · rwa [hrows, hcols]
      · rw [hgrid]
        exact ⟨has_toNat hallowed.2.1, has_toNat hallowed.2.2⟩

/-- The product of two sizes of 32 bits fits into 64 bits. -/
theorem size_cells_has (hrows : Bounds.int32.Has w.grid.rows) (hcols : Bounds.int32.Has w.grid.cols) :
    Bounds.nat64.Has w.grid.cells.size := by
  have hle : w.grid.rows * w.grid.cols ≤ 2147483647 * 2147483647 :=
    Nat.mul_le_mul (Int.ofNat_le.mp hrows.2) (Int.ofNat_le.mp hcols.2)
  rw [← w.grid.size_cells] at hle
  refine ⟨Int.natCast_nonneg _, ?_⟩
  simp only [Bounds.nat64]
  omega

/-- A neighbour lies off the grid by one at most, above zero or below the size. -/
theorem fits_neighbour (hrows : Bounds.int32.Has w.grid.rows) (hcols : Bounds.int32.Has w.grid.cols)
    (hp : w.grid.Contains p) (direction : Direction) : (direction.apply p).Fits := by
  obtain ⟨hx, hy⟩ := direction.natAbs_delta_le
  obtain ⟨hx₀, hx₁, hy₀, hy₁⟩ := hp
  simp only [Position.Fits, Direction.apply, Position.offset, Bounds.Has, Bounds.int32] at *
  omega

theorem ReachedBy.inRange (h : ReachedBy Action.Bounded w) : InRange w := by
  obtain ⟨hrows, hcols⟩ := h.size_has
  have hconsistent : Consistent w := Reachable.consistent (h.mono fun _ => And.left)
  have hcontained : ∀ a ∈ w.avatars, w.grid.Contains a.position := fun a ha =>
    hconsistent.contains_of_place? (hconsistent.place?_of_mem_avatars ha)
  exact {
    index := w.grid.bijOn_index
    tile := fun p hp => ⟨_, Array.getElem?_eq_getElem (Grid.index_lt hp), dif_pos hp⟩
    size := size_cells_has hrows hcols
    contained := hcontained
    neighbour := fun a ha => fits_neighbour hrows hcols (hcontained a ha) }

end World

namespace Engine

open World (ReachedBy InRange)

variable {e : Engine}

/-! ## Runs -/

theorem reachedBy_execute (w : World) (id : Nat) (c : Command) (h : ReachedBy Action.Bounded w) :
    ReachedBy Action.Bounded (c.execute id w).2 := by
  have hperform : ReachedBy Action.Bounded (w.perform (.execute id c)) :=
    h.perform ⟨trivial, trivial⟩
  exact hperform

theorem reachedBy_setCounter (w : World) (id counter : Nat) (h : ReachedBy Action.Bounded w) :
    ReachedBy Action.Bounded (w.attempt (w.setCounter id counter)) := by
  have hperform : ReachedBy Action.Bounded (w.perform (.setCounter id counter)) :=
    h.perform ⟨trivial, trivial⟩
  exact hperform

theorem reachedBy_resetCounters {w : World} (h : ReachedBy Action.Bounded w) :
    ReachedBy Action.Bounded w.resetCounters := by
  have hperform : ReachedBy Action.Bounded (w.perform .resetCounters) :=
    h.perform ⟨trivial, trivial⟩
  exact hperform

theorem reachedBy_afterSteps (h : ReachedBy Action.Bounded e.world) (ids : List Nat) :
    ReachedBy Action.Bounded (e.afterSteps ids).world := by
  induction ids generalizing e with
  | nil => exact h
  | cons id rest ih =>
      rw [afterSteps]
      cases hs : e.step id with
      | error fault => exact ih h
      | ok answer => exact ih (step_induction reachedBy_execute reachedBy_setCounter hs h)

theorem reachedBy_call (h : ReachedBy Action.Bounded e.world) (c : Call)
    (hc : ∀ w, c = .replaceWorld w → ReachedBy Action.Bounded w) :
    ReachedBy Action.Bounded (e.call c).world := by
  cases c with
  | tick clock => exact tick_induction reachedBy_execute reachedBy_setCounter e clock h
  | reset => exact reachedBy_resetCounters h
  | replaceWorld w => exact reachedBy_resetCounters (hc w rfl)

theorem reachedBy_calls (h : ReachedBy Action.Bounded e.world) (calls : List Call)
    (hcalls : ∀ w, .replaceWorld w ∈ calls → ReachedBy Action.Bounded w) :
    ReachedBy Action.Bounded (calls.foldl call e).world := by
  induction calls generalizing e with
  | nil => exact h
  | cons c rest ih =>
      refine ih (reachedBy_call h c fun w hw => hcalls w ?_) fun w hw =>
        hcalls w (List.mem_cons_of_mem _ hw)
      exact hw ▸ List.mem_cons_self

/-- In every world that is made within sizes of 32 bits, the cells are numbered one to one and each
neighbour of an avatar has coordinates of 32 bits. A run that begins in such a world, and goes on in
others of them, keeps this up: whenever an avatar is to act in a tick, after any others, it is so. -/
theorem coordinates_in_range :
    (∀ w, ReachedBy Action.Bounded w → InRange w) ∧
      ∀ e : Engine, ReachedBy Action.Bounded e.world → ∀ calls : List Call,
        (∀ w, .replaceWorld w ∈ calls → ReachedBy Action.Bounded w) →
          ∀ front, InRange ((calls.foldl call e).opening.engine.afterSteps front).world :=
  ⟨fun _ hw => hw.inRange, fun _ he calls hcalls front =>
    (reachedBy_afterSteps (e := (calls.foldl call _).opening.engine)
      (reachedBy_calls he calls hcalls) front).inRange⟩

/-- A grid of one column, with an avatar on the last tile and another one above it. -/
def precipice (rows : Int) : World :=
  [.setDimensions rows 1, .addAvatar { id := 4, position := ⟨rows - 1, 0⟩ },
    .addAvatar { id := 2, position := ⟨rows - 2, 0⟩ }].foldl World.perform World.empty

/-- An engine whose avatars go down. -/
def diver (rows : Int) : Engine where
  program := { commands := [.move .south] }
  world := precipice rows
  goal := { idealTime := 0, idealLines := 0, budget := 9 }
  timeLimit := 60

/-- Below the last row of the greatest grid is the greatest coordinate. -/
theorem coordinates_in_range_diver :
    let w := precipice 2147483647
    let calls := [Call.tick ⟨0, 1⟩, .replaceWorld w]
    ReachedBy Action.Bounded w ∧
      w.avatars.map (fun a => Direction.south.apply a.position)
        = [⟨2147483647, 0⟩, ⟨2147483646, 0⟩] ∧
      InRange w ∧
      InRange ((calls.foldl call (diver 2147483647)).opening.engine.afterSteps [4]).world := by
  intro w calls
  have h : ReachedBy Action.Bounded w := ReachedBy.empty.foldl _ (by decide)
  have hcalls : ∀ w', .replaceWorld w' ∈ calls → ReachedBy Action.Bounded w' := by
    intro w' hw'
    obtain rfl : w' = w := by simpa [calls] using hw'
    exact h
  exact ⟨h, by decide, coordinates_in_range.1 w h,
    coordinates_in_range.2 (diver 2147483647) h calls hcalls [4]⟩

end Engine

end TilePuzzle
