import TilePuzzle.Position

/-!
# Rectangular grids

A `Grid α` keeps one cell for each position of a rectangle, row by row in one array. The array has
exactly the cells of the rectangle by type, so a look-up inside the rectangle never fails
(`get?_isSome_iff`). Two positions of the rectangle never share a cell (`index_inj`); hence `modify`
changes one cell and leaves every other look-up alone (`get?_modify`), and two grids of one size that
answer every look-up alike are equal (`ext_get?`).
-/

namespace TilePuzzle

/-- Cells of a rectangle, in row-major order. -/
structure Grid (α : Type) where
  rows : Nat
  cols : Nat
  cells : Array α
  size_cells : cells.size = rows * cols

namespace Grid

variable {α : Type}

/-- The grid without cells. -/
def empty : Grid α := ⟨0, 0, #[], rfl⟩

instance : Inhabited (Grid α) := ⟨empty⟩

/-- The grid of `rows` by `cols` cells that all hold `a`. -/
def replicate (rows cols : Nat) (a : α) : Grid α :=
  ⟨rows, cols, Array.replicate (rows * cols) a, by simp⟩

/-- `p` lies in the rectangle. -/
def Contains (g : Grid α) (p : Position) : Prop :=
  0 ≤ p.x ∧ p.x < g.rows ∧ 0 ≤ p.y ∧ p.y < g.cols

instance (g : Grid α) (p : Position) : Decidable (g.Contains p) :=
  inferInstanceAs (Decidable (_ ∧ _))

/-- The place of `p` in the array of cells, for a `p` in the rectangle. -/
def index (g : Grid α) (p : Position) : Nat := p.x.toNat * g.cols + p.y.toNat

theorem index_lt {g : Grid α} {p : Position} (h : g.Contains p) : g.index p < g.cells.size := by
  obtain ⟨hx, hx', hy, hy'⟩ := h
  have hrow : p.x.toNat + 1 ≤ g.rows := by omega
  have hcol : p.y.toNat < g.cols := by omega
  have := Nat.mul_le_mul_right g.cols hrow
  rw [Nat.add_mul, Nat.one_mul] at this
  rw [g.size_cells, index]
  omega

theorem index_inj {g : Grid α} {p q : Position} (hp : g.Contains p) (hq : g.Contains q)
    (h : g.index p = g.index q) : p = q := by
  obtain ⟨hx, _, hy, hy'⟩ := hp
  obtain ⟨hx', _, hz, hz'⟩ := hq
  have hpc : p.y.toNat < g.cols := by omega
  have hqc : q.y.toNat < g.cols := by omega
  have hpos : 0 < g.cols := by omega
  have hdiv := congrArg (· / g.cols) h
  have hmod := congrArg (· % g.cols) h
  simp only [index, Nat.mul_comm _ g.cols, Nat.mul_add_div hpos, Nat.div_eq_of_lt hpc,
    Nat.div_eq_of_lt hqc, Nat.mul_add_mod, Nat.mod_eq_of_lt hpc, Nat.mod_eq_of_lt hqc] at hdiv hmod
  obtain ⟨px, py⟩ := p
  obtain ⟨qx, qy⟩ := q
  simp only [Position.mk.injEq] at *
  omega

/-- Every cell is the cell of a position. -/
theorem exists_index_eq {g : Grid α} {i : Nat} (hi : i < g.cells.size) :
    ∃ p, g.Contains p ∧ g.index p = i := by
  rw [g.size_cells] at hi
  have hpos : 0 < g.cols := by
    rcases Nat.eq_zero_or_pos g.cols with h | h
    · rw [h, Nat.mul_zero] at hi; omega
    · exact h
  refine ⟨⟨((i / g.cols : Nat) : Int), ((i % g.cols : Nat) : Int)⟩, ⟨Int.natCast_nonneg _, ?_,
    Int.natCast_nonneg _, ?_⟩, ?_⟩
  · exact Int.ofNat_lt.2 ((Nat.div_lt_iff_lt_mul hpos).2 hi)
  · exact Int.ofNat_lt.2 (Nat.mod_lt _ hpos)
  · simp only [index, Int.toNat_natCast, Nat.div_add_mod']

/-- The cell at `p`, if `p` lies in the rectangle. -/
def get? (g : Grid α) (p : Position) : Option α :=
  if h : g.Contains p then
    have := index_lt h
    some g.cells[g.index p]
  else none

/-- The grid with the cell at `p` changed by `f`; nothing changes if `p` lies outside. -/
def modify (g : Grid α) (p : Position) (f : α → α) : Grid α :=
  if g.Contains p then
    { g with
      cells := g.cells.modify (g.index p) f
      size_cells := by simp [g.size_cells] }
  else g

/-- The positions of the rectangle, row by row. -/
def positions (g : Grid α) : List Position :=
  (List.range g.rows).flatMap fun (x : Nat) =>
    (List.range g.cols).map fun (y : Nat) => ⟨(x : Int), (y : Int)⟩

/-! ### Look-ups -/

theorem get?_isSome_iff {g : Grid α} {p : Position} : (g.get? p).isSome ↔ g.Contains p := by
  unfold get?
  split <;> simp [*]

theorem get?_eq_none_iff {g : Grid α} {p : Position} : g.get? p = none ↔ ¬g.Contains p := by
  unfold get?
  split <;> simp [*]

@[simp] theorem rows_modify (g : Grid α) (p : Position) (f : α → α) :
    (g.modify p f).rows = g.rows := by
  unfold modify; split <;> rfl

@[simp] theorem cols_modify (g : Grid α) (p : Position) (f : α → α) :
    (g.modify p f).cols = g.cols := by
  unfold modify; split <;> rfl

@[simp] theorem contains_modify {g : Grid α} {p q : Position} {f : α → α} :
    (g.modify p f).Contains q ↔ g.Contains q := by
  simp [Contains]

theorem get?_modify (g : Grid α) (p q : Position) (f : α → α) :
    (g.modify p f).get? q = if p = q then (g.get? q).map f else g.get? q := by
  by_cases hp : g.Contains p
  · by_cases hq : g.Contains q
    · have hne : p ≠ q → g.index p ≠ g.index q := fun h h' => h (index_inj hp hq h')
      have hq' : (g.modify p f).Contains q := contains_modify.2 hq
      rw [get?, dif_pos hq', get?, dif_pos hq]
      simp only [modify, if_pos hp, index, Array.getElem_modify]
      by_cases h : p = q
      · subst h; simp
      · have := hne h
        simp only [index] at this
        simp [h, this]
    · have hq' : ¬(g.modify p f).Contains q := fun h => hq (contains_modify.1 h)
      rw [get?_eq_none_iff.2 hq', get?_eq_none_iff.2 hq]
      simp
  · rw [modify, if_neg hp]
    by_cases h : p = q
    · subst h; simp [get?_eq_none_iff.2 hp]
    · simp [h]

theorem get?_replicate (rows cols : Nat) (a : α) (p : Position) :
    (replicate rows cols a).get? p =
      if (replicate rows cols a).Contains p then some a else none := by
  simp only [get?]
  split
  · simp [replicate]
  · rfl

theorem mem_positions {g : Grid α} {p : Position} : p ∈ g.positions ↔ g.Contains p := by
  simp only [positions, Contains, List.mem_flatMap, List.mem_map, List.mem_range]
  constructor
  · rintro ⟨x, hx, y, hy, rfl⟩
    simp only
    omega
  · rintro ⟨hx, hx', hy, hy'⟩
    refine ⟨p.x.toNat, by omega, p.y.toNat, by omega, ?_⟩
    obtain ⟨x, y⟩ := p
    simp only [Position.mk.injEq] at *
    omega

/-- Two grids of one size with the same look-ups are equal. -/
theorem ext_get? {g h : Grid α} (hr : g.rows = h.rows) (hc : g.cols = h.cols)
    (hget : ∀ p, g.get? p = h.get? p) : g = h := by
  obtain ⟨rows, cols, cells, hsize⟩ := g
  obtain ⟨rows', cols', cells', hsize'⟩ := h
  simp only at hr hc
  subst hr hc
  have hcells : cells = cells' := by
    refine Array.ext (hsize.trans hsize'.symm) fun i hi hi' => ?_
    obtain ⟨p, hp, rfl⟩ := exists_index_eq (g := ⟨rows, cols, cells, hsize⟩) hi
    have hp' : (Grid.mk rows cols cells' hsize').Contains p := hp
    have := hget p
    rw [get?, dif_pos hp, get?, dif_pos hp', Option.some.injEq] at this
    exact this
  subst hcells
  rfl

end Grid

end TilePuzzle
