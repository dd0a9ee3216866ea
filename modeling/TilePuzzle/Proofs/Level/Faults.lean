import TilePuzzle.Proofs.Engine.Footing
import TilePuzzle.Proofs.Level.Rearrangement

/-!
# What a level file makes, and what is wrong with it

A level file is read in three passes, over the characters of its layout, its avatars and its blocks,
and the first thing that does not fit ends the reading. `Valid` says without any passes which files
make a level, and `Depicts` says of the level what the file says. Whatever is not valid has a
`FirstFault`, and that is the error that is reported.

Avatars and blocks share their identifiers, so the second and the third pass are one pass over the
`elements` of the file. Each pass is a list of steps in which an element is fine or not by what
comes before it (`foldlM_of_allFine`, `foldlM_of_firstFault`). `Painted` and `Furnished` describe
the world on the way.

The main statement is `exact_of_file`.
-/

namespace TilePuzzle

/-- The terrain that a character of a layout stands for. -/
def Terrain.ofSymbol? (c : Char) : Option Terrain := ofText? (String.singleton c)

namespace LevelFile

/-- What a level file places on the tiles. -/
inductive Element where
  | avatar (spec : AvatarSpec)
  | block (spec : BlockSpec)
deriving DecidableEq, Repr

namespace Element

def id : Element → Nat
  | avatar spec => spec.id
  | block spec => spec.id

def position : Element → Position
  | avatar spec => spec.position
  | block spec => spec.position

def avatar? : Element → Option Avatar
  | avatar spec => some spec.avatar
  | block _ => none

def block? : Element → Option Block
  | avatar _ => none
  | block spec => some spec.block

end Element

variable {f : LevelFile} {level : Level} {w w' w₁ : World} {front back els : List Element}
  {el : Element} {x y : Nat} {c : Char} {p : Position} {err : LevelError}

/-- The elements of the file in the order in which they are placed. -/
def elements (f : LevelFile) : List Element := f.avatars.map .avatar ++ f.blocks.map .block

/-- The character `y` of the row `x`; characters and rows count from 0. -/
def symbolAt? (f : LevelFile) (x y : Nat) : Option Char := f.layout[x]?.bind (·.toList[y]?)

/-- `p` lies on the grid that the layout draws. -/
def Holds (f : LevelFile) (p : Position) : Prop :=
  0 ≤ p.x ∧ p.x < f.rows ∧ 0 ≤ p.y ∧ p.y < f.cols

/-- There is a tile, and every character stands for a terrain. -/
structure Drawn (f : LevelFile) : Prop where
  tile : ∃ row ∈ f.layout, row ≠ ""
  known : ∀ x y c, f.symbolAt? x y = some c → Terrain.ofSymbol? c ≠ none

/-- No two of the elements have one name, and each of them has its position on the grid. -/
structure Placeable (f : LevelFile) (els : List Element) : Prop where
  distinct : (els.map Element.id).Nodup
  contained : ∀ el ∈ els, f.Holds el.position

/-- The file makes a level. -/
structure Valid (f : LevelFile) : Prop where
  drawn : f.Drawn
  placeable : f.Placeable f.elements

/-- The fault that is met first when the file is read. -/
inductive FirstFault (f : LevelFile) : LevelError → Prop
  | emptyLayout : (∀ row ∈ f.layout, row = "") → f.FirstFault .emptyLayout
  /-- The character stands for no terrain, and it is the first one row by row. -/
  | unknownTile {x y : Nat} {c : Char} : f.symbolAt? x y = some c → Terrain.ofSymbol? c = none →
      (∀ x' y' c', x' < x ∨ x' = x ∧ y' < y → f.symbolAt? x' y' = some c' →
        Terrain.ofSymbol? c' ≠ none) →
      f.FirstFault (.unknownTile x y c)
  /-- Of two elements with one name the later one is at fault, wherever it is. -/
  | duplicate {front back : List Element} {el : Element} : f.Drawn →
      f.elements = front ++ el :: back → f.Placeable front → el.id ∈ front.map Element.id →
      f.FirstFault (.world (.duplicateElement el.id))
  | outOfBounds {front back : List Element} {el : Element} : f.Drawn →
      f.elements = front ++ el :: back → f.Placeable front → el.id ∉ front.map Element.id →
      ¬f.Holds el.position → f.FirstFault (.world (.outOfBounds el.position))

/-- The level is what the file says. -/
structure Depicts (f : LevelFile) (level : Level) : Prop where
  name : level.name = f.name
  goal : level.goal = f.goal
  timeLimit : level.timeLimit = f.timeLimit
  program : level.program = f.program
  rows : level.world.grid.rows = f.layout.length
  /-- The grid is as wide as the longest row. -/
  cols_le : ∀ row ∈ f.layout, row.length ≤ level.world.grid.cols
  cols_eq : ∃ row ∈ f.layout, row.length = level.world.grid.cols
  /-- Behind the end of a row there is floor. -/
  terrain : ∀ x y : Nat, x < level.world.grid.rows → y < level.world.grid.cols →
    level.world.terrain? ⟨x, y⟩ = (f.symbolAt? x y).elim (some .floor) Terrain.ofSymbol?
  avatars : level.world.avatars = f.avatars.map AvatarSpec.avatar
  blocks : level.world.blocks = f.blocks.map BlockSpec.block
  occupies_iff : ∀ id p, level.world.Occupies id p ↔
    ∃ el ∈ f.elements, el.id = id ∧ el.position = p

/-! ## The layout -/

theorem mem_symbols_iff : (x, y, c) ∈ f.symbols ↔ f.symbolAt? x y = some c := by
  simp only [symbols, symbolAt?, List.mem_flatMap, List.mem_map, Prod.exists, Prod.mk.injEq,
    List.mem_zipIdx_iff_getElem?, Option.bind_eq_some_iff]
  constructor
  · rintro ⟨row, x', hrow, c', y', hc, rfl, rfl, rfl⟩
    exact ⟨row, hrow, hc⟩
  · rintro ⟨row, hrow, hc⟩
    exact ⟨row, x, hrow, c, y, hc, rfl, rfl, rfl⟩

theorem symbolAt?_of_cut {front back : List (Nat × Nat × Char)}
    (hcut : f.symbols = front ++ (x, y, c) :: back) : f.symbolAt? x y = some c :=
  mem_symbols_iff.mp (hcut ▸ List.mem_append_cons_self)

theorem pairwise_zipIdx {α : Type} (l : List α) : l.zipIdx.Pairwise fun a b => a.2 < b.2 := by
  rw [← List.pairwise_map (f := Prod.snd) (R := (· < ·)), List.zipIdx_map_snd]
  exact List.pairwise_lt_range'

/-- The characters come row by row. -/
theorem pairwise_symbols (f : LevelFile) :
    f.symbols.Pairwise fun s t => s.1 < t.1 ∨ s.1 = t.1 ∧ s.2.1 < t.2.1 := by
  rw [symbols, List.pairwise_flatMap]
  constructor
  · rintro ⟨row, x⟩ -
    exact List.pairwise_map.mpr ((pairwise_zipIdx _).imp fun hlt => .inr ⟨rfl, hlt⟩)
  · refine (pairwise_zipIdx _).imp ?_
    rintro ⟨row, x⟩ ⟨row', x'⟩ hlt s hs t ht
    obtain ⟨_, -, rfl⟩ := List.mem_map.mp hs
    obtain ⟨_, -, rfl⟩ := List.mem_map.mp ht
    exact .inl hlt

theorem length_le_cols {row : String} (hrow : row ∈ f.layout) : row.length ≤ f.cols := by
  rw [cols, List.foldl_max, Nat.zero_max]
  exact List.le_max?_getD_of_mem (List.mem_map_of_mem hrow)

theorem exists_length_eq_cols (h : f.layout ≠ []) : ∃ row ∈ f.layout, row.length = f.cols := by
  rw [cols, List.foldl_max, Nat.zero_max]
  cases hmax : (f.layout.map String.length).max? with
  | none => exact absurd (List.map_eq_nil_iff.mp (List.max?_eq_none_iff.mp hmax)) h
  | some n => exact List.mem_map.mp (List.max?_mem hmax)

theorem holds_of_symbolAt? (h : f.symbolAt? x y = some c) : f.Holds ⟨x, y⟩ := by
  obtain ⟨row, hrow, hc⟩ := Option.bind_eq_some_iff.mp h
  obtain ⟨hx, rfl⟩ := List.getElem?_eq_some_iff.mp hrow
  obtain ⟨hy, -⟩ := List.getElem?_eq_some_iff.mp hc
  have hle : (f.layout[x]).length ≤ f.cols := length_le_cols (List.getElem_mem hx)
  rw [String.length_toList] at hy
  exact ⟨Int.natCast_nonneg x, Int.ofNat_lt.mpr hx, Int.natCast_nonneg y,
    Int.ofNat_lt.mpr (Nat.lt_of_lt_of_le hy hle)⟩

/-- There is a tile as soon as some row has a character. -/
theorem empty_iff : f.rows = 0 ∨ f.cols = 0 ↔ ∀ row ∈ f.layout, row = "" := by
  constructor
  · rintro (hrows | hcols) row hrow
    · rw [rows, List.length_eq_zero_iff] at hrows
      rw [hrows] at hrow
      cases hrow
    · have hle := length_le_cols hrow
      rw [hcols, Nat.le_zero] at hle
      exact String.length_eq_zero_iff.mp hle
  · intro hempty
    by_cases hrows : f.layout = []
    · exact .inl (List.length_eq_zero_iff.mpr hrows)
    · obtain ⟨row, hrow, hlength⟩ := exists_length_eq_cols hrows
      rw [hempty row hrow] at hlength
      exact .inr hlength.symm

/-- The characters before a cut are those that come first row by row. -/
theorem mem_front_iff {front back : List (Nat × Nat × Char)} {x' y' : Nat} {c' : Char}
    (hcut : f.symbols = front ++ (x, y, c) :: back) :
    (x', y', c') ∈ front ↔ f.symbolAt? x' y' = some c' ∧ (x' < x ∨ x' = x ∧ y' < y) := by
  have hordered := f.pairwise_symbols
  rw [hcut, List.pairwise_append, List.pairwise_cons] at hordered
  obtain ⟨-, ⟨hback, -⟩, hfront⟩ := hordered
  rw [← mem_symbols_iff, hcut]
  constructor
  · intro hmem
    exact ⟨List.mem_append_left _ hmem, hfront _ hmem _ List.mem_cons_self⟩
  · rintro ⟨hmem, hlt⟩
    rcases List.mem_append.mp hmem with hmem | hmem
    · exact hmem
    · rcases List.mem_cons.mp hmem with hsame | hmem
      · simp only [Prod.mk.injEq] at hsame
        omega
      · have hgt := hback _ hmem
        simp only at hgt
        omega

/-! ## The terrain

The first pass begins with floor everywhere. A floor character is passed over, for its tile is floor
until its character is read. -/

/-- A world of floor, of the size that the layout draws. -/
def blank (f : LevelFile) : World := { World.empty with grid := .replicate f.rows f.cols {} }

/-- The terrain of the characters `front` is on the tiles, and nothing else. -/
structure Painted (f : LevelFile) (front : List (Nat × Nat × Char)) (w : World) : Prop where
  rows : w.grid.rows = f.rows
  cols : w.grid.cols = f.cols
  avatars : w.avatars = []
  blocks : w.blocks = []
  painted : ∀ x y c, (x, y, c) ∈ front → w.terrain? ⟨x, y⟩ = Terrain.ofSymbol? c
  floor : ∀ p, f.Holds p → (∀ x y c, (x, y, c) ∈ front → p ≠ ⟨x, y⟩) → w.terrain? p = some .floor

theorem contains_iff_holds (hrows : w.grid.rows = f.rows) (hcols : w.grid.cols = f.cols) :
    w.grid.Contains p ↔ f.Holds p := by
  rw [Grid.Contains, hrows, hcols, Holds]

theorem painted_blank (f : LevelFile) : Painted f [] f.blank where
  rows := rfl
  cols := rfl
  avatars := rfl
  blocks := rfl
  painted := fun x y c hmem => nomatch hmem
  floor := by
    intro p hp _
    have hin : (Grid.replicate f.rows f.cols ({} : Tile)).Contains p := hp
    show ((Grid.replicate f.rows f.cols ({} : Tile)).get? p).map _ = _
    rw [Grid.get?_replicate, if_pos hin]
    rfl

/-- `w'` is `w` with other terrain at `p`. -/
structure Repainted (w : World) (p : Position) (terrain : Terrain) (w' : World) : Prop where
  rows : w'.grid.rows = w.grid.rows
  cols : w'.grid.cols = w.grid.cols
  avatars : w'.avatars = w.avatars
  blocks : w'.blocks = w.blocks
  terrain?_eq : ∀ q, w'.terrain? q = if p = q then some terrain else w.terrain? q

theorem repainted_self {terrain : Terrain} (hp : w.terrain? p = some terrain) :
    Repainted w p terrain w where
  rows := rfl
  cols := rfl
  avatars := rfl
  blocks := rfl
  terrain?_eq := by
    intro q
    split
    · next hq => rw [← hq, hp]
    · rfl

theorem repainted_modify (hp : w.grid.Contains p) (terrain : Terrain) :
    Repainted w p terrain { w with grid := w.grid.modify p ({ · with terrain }) } where
  rows := Grid.rows_modify _ _ _
  cols := Grid.cols_modify _ _ _
  avatars := rfl
  blocks := rfl
  terrain?_eq := by
    intro q
    show ((w.grid.modify p _).get? q).map _ = _
    rw [Grid.get?_modify]
    split
    · next hq =>
        subst hq
        obtain ⟨t, ht⟩ := Option.isSome_iff_exists.mp (Grid.get?_isSome_iff.mpr hp)
        rw [ht]
        rfl
    · rfl

/-- A character that stands for a terrain puts it onto its tile, if that is floor before. -/
theorem placeTerrain_of_known {terrain : Terrain} (hfloor : w.terrain? ⟨x, y⟩ = some .floor)
    (hterrain : Terrain.ofSymbol? c = some terrain) :
    ∃ w', placeTerrain w (x, y, c) = .ok w' ∧ Repainted w ⟨x, y⟩ terrain w' := by
  have hp : w.grid.Contains ⟨x, y⟩ := World.isSome_terrain?_iff.mp (by rw [hfloor]; rfl)
  rw [Terrain.ofSymbol?] at hterrain
  have hset : (w.setTerrain ⟨x, y⟩ terrain).mapError LevelError.world
      = .ok { w with grid := w.grid.modify ⟨x, y⟩ ({ · with terrain }) } := by
    rw [World.setTerrain, if_pos hp]
    rfl
  simp only [placeTerrain, hterrain]
  cases terrain with
  | floor => exact ⟨w, rfl, repainted_self hfloor⟩
  | wall | hole => exact ⟨_, hset, repainted_modify hp _⟩

theorem placeTerrain_of_unknown (hunknown : Terrain.ofSymbol? c = none) :
    placeTerrain w (x, y, c) = .error (.unknownTile x y c) := by
  rw [Terrain.ofSymbol?] at hunknown
  simp only [placeTerrain, hunknown]

section Cut

variable {front back : List (Nat × Nat × Char)} (h : Painted f front w)
  (hcut : f.symbols = front ++ (x, y, c) :: back)

include h hcut

/-- The tile of a character is floor until it is read. -/
theorem Painted.terrain?_eq_floor : w.terrain? ⟨x, y⟩ = some .floor := by
  refine h.floor _ (holds_of_symbolAt? (symbolAt?_of_cut hcut)) ?_
  intro x' y' c' hmem hsame
  have hlt := ((mem_front_iff hcut).mp hmem).2
  simp only [Position.mk.injEq, Int.natCast_inj] at hsame
  omega

theorem Painted.append {terrain : Terrain} (hterrain : Terrain.ofSymbol? c = some terrain)
    (hw' : Repainted w ⟨x, y⟩ terrain w') : Painted f (front ++ [(x, y, c)]) w' where
  rows := hw'.rows.trans h.rows
  cols := hw'.cols.trans h.cols
  avatars := hw'.avatars.trans h.avatars
  blocks := hw'.blocks.trans h.blocks
  painted := by
    intro x' y' c' hmem
    rw [hw'.terrain?_eq]
    rcases List.mem_append.mp hmem with hmem | hmem
    · have hlt := ((mem_front_iff hcut).mp hmem).2
      rw [if_neg, h.painted x' y' c' hmem]
      simp only [Position.mk.injEq, Int.natCast_inj]
      omega
    · obtain ⟨rfl, rfl, rfl⟩ : x' = x ∧ y' = y ∧ c' = c := by simpa using hmem
      rw [if_pos rfl, hterrain]
  floor := by
    intro p hp hother
    rw [hw'.terrain?_eq, if_neg (hother x y c (by simp)).symm]
    exact h.floor p hp fun x' y' c' hmem => hother x' y' c' (List.mem_append_left _ hmem)

end Cut

/-! ## The elements -/

/-- The element has a new name and its position on the grid. -/
def Admits (f : LevelFile) (front : List Element) (el : Element) : Prop :=
  el.id ∉ front.map Element.id ∧ f.Holds el.position

/-- Why an element is refused. -/
def refusal (front : List Element) (el : Element) : WorldError :=
  if el.id ∈ front.map Element.id then .duplicateElement el.id else .outOfBounds el.position

theorem allFine_admits_iff : AllFine f.Admits els ↔ f.Placeable els := by
  induction els using List.reverseRecOn with
  | nil =>
      refine iff_of_true (fun front el back hcut => by simp at hcut) ⟨List.nodup_nil, ?_⟩
      exact fun el hel => nomatch hel
  | append_singleton els el ih =>
      rw [allFine_append_singleton, ih]
      constructor
      · rintro ⟨⟨hdistinct, hcontained⟩, hnew, hholds⟩
        refine ⟨?_, List.forall_mem_append.mpr ⟨hcontained, by simpa using hholds⟩⟩
        rw [List.map_append, List.nodup_append]
        refine ⟨hdistinct, List.nodup_singleton _, fun i hi j hj hij => hnew ?_⟩
        rw [← List.mem_singleton.mp hj, ← hij]
        exact hi
      · rintro ⟨hdistinct, hcontained⟩
        rw [List.map_append, List.nodup_append] at hdistinct
        obtain ⟨hcontained, hholds⟩ := List.forall_mem_append.mp hcontained
        refine ⟨⟨hdistinct.1, hcontained⟩, fun hid => ?_, hholds el List.mem_cons_self⟩
        exact hdistinct.2.2 _ hid _ List.mem_cons_self rfl

/-- Puts an element into the world. -/
def placeElement (w : World) : Element → Except LevelError World
  | .avatar spec => placeAvatar w spec
  | .block spec => placeBlock w spec

/-- The world with the element in it. -/
def insertElement (w : World) : Element → World
  | .avatar spec => w.insertAvatar spec.avatar
  | .block spec => w.insertBlock spec.block

theorem placeElement_eq (w : World) (el : Element) : placeElement w el =
    if w.registered el.id then .error (.world (.duplicateElement el.id))
    else if w.grid.Contains el.position then .ok (insertElement w el)
    else .error (.world (.outOfBounds el.position)) := by
  cases el with
  | avatar spec =>
      rw [placeElement, placeAvatar, World.addAvatar, apply_ite (Except.mapError _),
        apply_ite (Except.mapError _)]
      rfl
  | block spec =>
      rw [placeElement, placeBlock, World.addBlock, apply_ite (Except.mapError _),
        apply_ite (Except.mapError _)]
      rfl

/-- The second and the third pass are one pass. -/
theorem foldlM_elements (f : LevelFile) (w : World) : f.elements.foldlM placeElement w
    = f.avatars.foldlM placeAvatar w >>= fun w => f.blocks.foldlM placeBlock w := by
  rw [elements, List.foldlM_append, List.foldlM_map]
  simp only [List.foldlM_map]
  rfl

/-- The elements `front` have entered the world `w₁`. -/
structure Furnished (f : LevelFile) (w₁ : World) (front : List Element) (w : World) : Prop where
  rows : w.grid.rows = f.rows
  cols : w.grid.cols = f.cols
  terrain : ∀ p, w.terrain? p = w₁.terrain? p
  avatars : w.avatars = front.filterMap Element.avatar?
  blocks : w.blocks = front.filterMap Element.block?

namespace Furnished

variable (h : Furnished f w₁ front w)

include h

theorem registered_iff {id : Nat} : w.registered id = true ↔ id ∈ front.map Element.id := by
  rw [World.registered, h.avatars, h.blocks]
  simp only [Bool.or_eq_true, List.any_eq_true, List.mem_filterMap, decide_eq_true_eq,
    List.mem_map]
  constructor
  · rintro (⟨a, ⟨el, hel, ha⟩, rfl⟩ | ⟨b, ⟨el, hel, hb⟩, rfl⟩)
    · cases el with
      | avatar spec =>
          cases ha
          exact ⟨_, hel, rfl⟩
      | block spec => cases ha
    · cases el with
      | avatar spec => cases hb
      | block spec =>
          cases hb
          exact ⟨_, hel, rfl⟩
  · rintro ⟨el, hel, rfl⟩
    cases el with
    | avatar spec => exact .inl ⟨spec.avatar, ⟨_, hel, rfl⟩, rfl⟩
    | block spec => exact .inr ⟨spec.block, ⟨_, hel, rfl⟩, rfl⟩

theorem insert (el : Element) : Furnished f w₁ (front ++ [el]) (insertElement w el) := by
  cases el with
  | avatar spec => exact {
      rows := (Grid.rows_modify _ _ _).trans h.rows
      cols := (Grid.cols_modify _ _ _).trans h.cols
      terrain := fun p => (World.terrain?_enter _ _ _ _).trans (h.terrain p)
      avatars := by
        rw [List.filterMap_append, ← h.avatars]
        rfl
      blocks := by
        rw [List.filterMap_append, ← h.blocks]
        exact (List.append_nil _).symm }
  | block spec => exact {
      rows := (Grid.rows_modify _ _ _).trans h.rows
      cols := (Grid.cols_modify _ _ _).trans h.cols
      terrain := fun p => (World.terrain?_enter _ _ _ _).trans (h.terrain p)
      avatars := by
        rw [List.filterMap_append, ← h.avatars]
        exact (List.append_nil _).symm
      blocks := by
        rw [List.filterMap_append, ← h.blocks]
        rfl }

theorem place_of_admits (hadmits : f.Admits front el) :
    placeElement w el = .ok (insertElement w el) := by
  obtain ⟨hnew, hholds⟩ := hadmits
  rw [← h.registered_iff] at hnew
  rw [← contains_iff_holds h.rows h.cols] at hholds
  rw [placeElement_eq, if_neg hnew, if_pos hholds]

theorem place_of_not_admits (hadmits : ¬f.Admits front el) :
    placeElement w el = .error (.world (refusal front el)) := by
  rw [placeElement_eq, refusal]
  by_cases hid : el.id ∈ front.map Element.id
  · rw [if_pos (h.registered_iff.mpr hid), if_pos hid]
  · have hout : ¬w.grid.Contains el.position := by
      rw [contains_iff_holds h.rows h.cols]
      exact fun hholds => hadmits ⟨hid, hholds⟩
    rw [if_neg (mt h.registered_iff.mp hid), if_neg hout, if_neg hid]

end Furnished

/-! ## The passes -/

/-- The character stands for a terrain, whatever comes before it. -/
def Known (_ : List (Nat × Nat × Char)) (symbol : Nat × Nat × Char) : Prop :=
  Terrain.ofSymbol? symbol.2.2 ≠ none

theorem known_iff {front : List (Nat × Nat × Char)} :
    Known front (x, y, c) ↔ Terrain.ofSymbol? c ≠ none := Iff.rfl

theorem allFine_known_iff {front back : List (Nat × Nat × Char)}
    (hcut : f.symbols = front ++ (x, y, c) :: back) : AllFine Known front ↔
      ∀ x' y' c', x' < x ∨ x' = x ∧ y' < y → f.symbolAt? x' y' = some c' →
        Terrain.ofSymbol? c' ≠ none := by
  constructor
  · intro h x' y' c' hlt hc'
    obtain ⟨first, second, hfront⟩ := List.append_of_mem ((mem_front_iff hcut).mpr ⟨hc', hlt⟩)
    exact known_iff.mp (h first _ second hfront)
  · rintro h first ⟨x', y', c'⟩ second hfront
    obtain ⟨hc', hlt⟩ := (mem_front_iff hcut).mp (hfront ▸ List.mem_append_cons_self)
    exact known_iff.mpr (h x' y' c' hlt hc')

/-- Where a character is known, the first pass goes on. -/
theorem Painted.place_of_known (f : LevelFile) : ∀ front symbol back w,
    f.symbols = front ++ symbol :: back → Painted f front w → Known front symbol →
      ∃ w', placeTerrain w symbol = .ok w' ∧ Painted f (front ++ [symbol]) w' := by
  rintro front ⟨x, y, c⟩ back w hcut h hknown
  obtain ⟨terrain, hterrain⟩ := Option.ne_none_iff_exists'.mp hknown
  obtain ⟨w', hplace, hw'⟩ := placeTerrain_of_known (h.terrain?_eq_floor hcut) hterrain
  exact ⟨w', hplace, h.append hcut hterrain hw'⟩

theorem buildWorld_eq (h : ¬∀ row ∈ f.layout, row = "") : f.buildWorld
    = f.symbols.foldlM placeTerrain f.blank >>= fun w => f.elements.foldlM placeElement w := by
  rw [← empty_iff] at h
  have hsize : World.withDimensions f.rows f.cols = .ok f.blank := by
    have hpositive : ¬((f.rows : Int) ≤ 0 ∨ (f.cols : Int) ≤ 0) := by omega
    rw [World.withDimensions, World.setDimensions, if_neg (by decide), if_neg hpositive]
    rfl
  rw [buildWorld, if_neg h, hsize]
  show f.symbols.foldlM placeTerrain f.blank >>= _ = _
  simp only [foldlM_elements]

/-- A layout without a fault is painted, and what remains are the elements. -/
theorem buildWorld_of_drawn (h : f.Drawn) : ∃ w₁, Painted f f.symbols w₁ ∧
    f.buildWorld = f.elements.foldlM placeElement w₁ := by
  have hknown : AllFine Known f.symbols := by
    rintro front ⟨x, y, c⟩ back hcut
    exact known_iff.mpr (h.known x y c (symbolAt?_of_cut hcut))
  obtain ⟨w₁, hfold, hpainted⟩ :=
    foldlM_of_allFine (painted_blank f) (Painted.place_of_known f) hknown
  refine ⟨w₁, hpainted, ?_⟩
  obtain ⟨row, hrow, hne⟩ := h.tile
  rw [buildWorld_eq fun hempty => hne (hempty row hrow), hfold]
  rfl

theorem Painted.furnished (h : Painted f f.symbols w₁) : Furnished f w₁ [] w₁ where
  rows := h.rows
  cols := h.cols
  terrain := fun _ => rfl
  avatars := h.avatars
  blocks := h.blocks

/-- Where an element is admitted, the second pass goes on. -/
theorem Furnished.step (f : LevelFile) (w₁ : World) : ∀ front el back w,
    f.elements = front ++ el :: back → Furnished f w₁ front w → f.Admits front el →
      ∃ w', placeElement w el = .ok w' ∧ Furnished f w₁ (front ++ [el]) w' :=
  fun _ el _ _ _ h hadmits => ⟨_, h.place_of_admits hadmits, h.insert el⟩

theorem buildWorld_of_valid (h : f.Valid) : ∃ w₁ w, Painted f f.symbols w₁ ∧
    Furnished f w₁ f.elements w ∧ f.buildWorld = .ok w := by
  obtain ⟨w₁, hpainted, hbuild⟩ := buildWorld_of_drawn h.drawn
  obtain ⟨w, hfold, hfurnished⟩ := foldlM_of_allFine hpainted.furnished
    (Furnished.step f w₁) (allFine_admits_iff.mpr h.placeable)
  exact ⟨w₁, w, hpainted, hfurnished, hbuild.trans hfold⟩

theorem buildWorld_of_refusal (h : f.Drawn) (hcut : f.elements = front ++ el :: back)
    (hfront : f.Placeable front) (hadmits : ¬f.Admits front el) :
    f.buildWorld = .error (.world (refusal front el)) := by
  obtain ⟨w₁, hpainted, hbuild⟩ := buildWorld_of_drawn h
  rw [hbuild]
  exact foldlM_of_firstFault hpainted.furnished (Furnished.step f w₁) hcut
    (allFine_admits_iff.mpr hfront) fun w hw => hw.place_of_not_admits hadmits

theorem buildWorld_of_firstFault (h : f.FirstFault err) : f.buildWorld = .error err := by
  cases h with
  | emptyLayout hempty => rw [buildWorld, if_pos (empty_iff.mpr hempty)]
  -- The characters before it are known, so the first pass comes to it.
  | @unknownTile x y c hc hunknown hfirst =>
      obtain ⟨front, back, hcut⟩ := List.append_of_mem (mem_symbols_iff.mpr hc)
      have hfold : f.symbols.foldlM placeTerrain f.blank = .error (.unknownTile x y c) :=
        foldlM_of_firstFault (painted_blank f) (Painted.place_of_known f) hcut
          ((allFine_known_iff hcut).mpr hfirst) fun w _ => placeTerrain_of_unknown hunknown
      have hne : ¬∀ row ∈ f.layout, row = "" := by
        rw [← empty_iff]
        have hin := holds_of_symbolAt? hc
        simp only [Holds] at hin
        omega
      rw [buildWorld_eq hne, hfold]
      rfl
  | duplicate hdrawn hcut hfront hid =>
      rw [buildWorld_of_refusal hdrawn hcut hfront fun hadmits => hadmits.1 hid, refusal,
        if_pos hid]
  | outOfBounds hdrawn hcut hfront hid hout =>
      rw [buildWorld_of_refusal hdrawn hcut hfront fun hadmits => hout hadmits.2, refusal,
        if_neg hid]

/-- What is not valid has a first fault. -/
theorem valid_or_firstFault (f : LevelFile) : f.Valid ∨ ∃ err, f.FirstFault err := by
  by_cases hempty : ∀ row ∈ f.layout, row = ""
  · exact .inr ⟨_, .emptyLayout hempty⟩
  by_cases hknown : AllFine Known f.symbols
  · have hdrawn : f.Drawn := by
      refine ⟨by simpa using hempty, fun x y c hc => ?_⟩
      obtain ⟨front, back, hcut⟩ := List.append_of_mem (mem_symbols_iff.mpr hc)
      exact known_iff.mp (hknown front _ back hcut)
    by_cases hadmits : AllFine f.Admits f.elements
    · exact .inl ⟨hdrawn, allFine_admits_iff.mp hadmits⟩
    · obtain ⟨front, el, back, hcut, hfront, hel⟩ := exists_first_of_not_allFine hadmits
      rw [allFine_admits_iff] at hfront
      rw [Admits, not_and] at hel
      by_cases hid : el.id ∈ front.map Element.id
      · exact .inr ⟨_, .duplicate hdrawn hcut hfront hid⟩
      · exact .inr ⟨_, .outOfBounds hdrawn hcut hfront hid (hel hid)⟩
  · obtain ⟨front, ⟨x, y, c⟩, back, hcut, hfront, hc⟩ := exists_first_of_not_allFine hknown
    exact .inr ⟨_, .unknownTile (symbolAt?_of_cut hcut) (not_not.mp hc)
      ((allFine_known_iff hcut).mp hfront)⟩

/-! ## The level -/

theorem Painted.terrain?_eq (h : Painted f f.symbols w) (hp : f.Holds ⟨x, y⟩) :
    w.terrain? ⟨x, y⟩ = (f.symbolAt? x y).elim (some .floor) Terrain.ofSymbol? := by
  cases hc : f.symbolAt? x y with
  | some c =>
      rw [Option.elim_some]
      exact h.painted x y c (mem_symbols_iff.mpr hc)
  | none =>
      rw [Option.elim_none]
      refine h.floor _ hp fun x' y' c hmem hsame => ?_
      simp only [Position.mk.injEq, Int.natCast_inj] at hsame
      obtain ⟨rfl, rfl⟩ := hsame
      rw [mem_symbols_iff, hc] at hmem
      cases hmem

theorem filterMap_avatar?_elements (f : LevelFile) :
    f.elements.filterMap Element.avatar? = f.avatars.map AvatarSpec.avatar := by
  have hblocks : (f.blocks.map Element.block).filterMap Element.avatar? = [] := by
    simp [List.filterMap_map, Function.comp_def, Element.avatar?]
  rw [elements, List.filterMap_append, hblocks, List.append_nil, List.filterMap_map]
  exact congrFun List.filterMap_eq_map _

theorem filterMap_block?_elements (f : LevelFile) :
    f.elements.filterMap Element.block? = f.blocks.map BlockSpec.block := by
  have havatars : (f.avatars.map Element.avatar).filterMap Element.block? = [] := by
    simp [List.filterMap_map, Function.comp_def, Element.block?]
  rw [elements, List.filterMap_append, havatars, List.nil_append, List.filterMap_map]
  exact congrFun List.filterMap_eq_map _

/-- The elements of a level know their tiles, and so do the tiles their elements. -/
theorem occupies_iff_elements (hw : World.Reachable w)
    (havatars : w.avatars = f.avatars.map AvatarSpec.avatar)
    (hblocks : w.blocks = f.blocks.map BlockSpec.block) {id : Nat} :
    w.Occupies id p ↔ ∃ el ∈ f.elements, el.id = id ∧ el.position = p := by
  rw [hw.consistent.occupies_iff, hw.consistent.place?_eq_some_iff, havatars, hblocks, elements]
  simp only [List.mem_append, or_and_right, exists_or, List.mem_map, exists_exists_and_eq_and]
  rfl

theorem build_eq_ok_iff : f.build = .ok level ↔
    f.buildWorld = .ok level.world ∧
      level = ⟨f.name, level.world, f.goal, f.timeLimit, f.program⟩ := by
  rw [build, bind_eq_ok_iff]
  constructor
  · rintro ⟨w, hw, hlevel⟩
    cases hlevel
    exact ⟨hw, rfl⟩
  · rintro ⟨hw, hlevel⟩
    exact ⟨level.world, hw, congrArg Except.ok hlevel.symm⟩

theorem build_eq_error_iff : f.build = .error err ↔ f.buildWorld = .error err := by
  rw [build]
  cases f.buildWorld with
  | error err' =>
      constructor
      · intro h
        cases h
        rfl
      · intro h
        cases h
        rfl
  | ok w => exact iff_of_false (fun h => nomatch h) fun h => nomatch h

theorem depicts_of_build (h : f.Valid) (hbuild : f.build = .ok level) : f.Depicts level := by
  obtain ⟨w₁, w, hpainted, hfurnished, hworld⟩ := buildWorld_of_valid h
  obtain ⟨hlevel, hparts⟩ := build_eq_ok_iff.mp hbuild
  rw [hworld, Except.ok.injEq] at hlevel
  subst hlevel
  have havatars := hfurnished.avatars.trans (filterMap_avatar?_elements f)
  have hblocks := hfurnished.blocks.trans (filterMap_block?_elements f)
  obtain ⟨row, hrow, -⟩ := h.drawn.tile
  exact {
    name := congrArg Level.name hparts
    goal := congrArg Level.goal hparts
    timeLimit := congrArg Level.timeLimit hparts
    program := congrArg Level.program hparts
    rows := hfurnished.rows
    cols_le := fun row hrow => hfurnished.cols ▸ length_le_cols hrow
    cols_eq := hfurnished.cols ▸ exists_length_eq_cols (List.ne_nil_of_mem hrow)
    terrain := by
      intro x y hx hy
      rw [hfurnished.rows] at hx
      rw [hfurnished.cols] at hy
      rw [hfurnished.terrain]
      exact hpainted.terrain?_eq ⟨Int.natCast_nonneg x, Int.ofNat_lt.mpr hx, Int.natCast_nonneg y,
        Int.ofNat_lt.mpr hy⟩
    avatars := havatars
    blocks := hblocks
    occupies_iff := fun _ _ =>
      occupies_iff_elements (world_reachable hbuild) havatars hblocks }

/-- What a level file makes, and what is wrong with it. -/
structure Exact (f : LevelFile) : Prop where
  makes_iff : (∃ level, f.build = .ok level) ↔ f.Valid
  depicts : ∀ level, f.build = .ok level → f.Depicts level
  fails_iff : ∀ err, f.build = .error err ↔ f.FirstFault err

/-- A level file makes the level that it depicts exactly when it is valid, and else it is refused
with its first fault. -/
theorem exact_of_file (f : LevelFile) : Exact f := by
  have hfault : ∀ err, f.FirstFault err → f.build = .error err :=
    fun err h => build_eq_error_iff.mpr (buildWorld_of_firstFault h)
  have hvalid : ∀ level, f.build = .ok level → f.Valid := by
    intro level hbuild
    rcases f.valid_or_firstFault with h | ⟨err, herr⟩
    · exact h
    · rw [hfault err herr] at hbuild
      cases hbuild
  exact {
    makes_iff := by
      constructor
      · rintro ⟨level, hbuild⟩
        exact hvalid level hbuild
      · intro h
        obtain ⟨w₁, w, -, -, hworld⟩ := buildWorld_of_valid h
        exact ⟨⟨f.name, w, f.goal, f.timeLimit, f.program⟩, build_eq_ok_iff.mpr ⟨hworld, rfl⟩⟩
    depicts := fun level hbuild => depicts_of_build (hvalid level hbuild) hbuild
    fails_iff := by
      intro err
      refine ⟨fun hbuild => ?_, hfault err⟩
      rcases f.valid_or_firstFault with h | ⟨err', herr'⟩
      · obtain ⟨w₁, w, -, -, hworld⟩ := buildWorld_of_valid h
        rw [build_eq_error_iff, hworld] at hbuild
        cases hbuild
      · rw [hfault err' herr'] at hbuild
        cases hbuild
        exact herr' }

/-- The block comes after an avatar of its name, and that counts before its position. -/
example : ({
    layout := ["..", "#"]
    avatars := [{ id := 3, position := ⟨1, 1⟩ }]
    blocks := [{ id := 3, position := ⟨9, 9⟩, number := 5 }]
    goal := { idealTime := 0, idealLines := 0, budget := 9 } } : LevelFile).build
      = .error (.world (.duplicateElement 3)) := rfl

end LevelFile

end TilePuzzle
