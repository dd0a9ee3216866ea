import TilePuzzle.CommandLine.Job
import TilePuzzle.Proofs.Level.Faults
import TilePuzzle.Proofs.Loading

/-!
# Drawings and layouts

A level is shown by a drawing of its tiles, and the layout of a level file is a drawing of them too. The
two have one alphabet for the terrain, but a layout may use more of it: its letters may be capitals, and
a row may end before the floor that it ends with. A drawing is the plain one of the layouts for its
terrain. Where nobody is on the tiles it can be taken for a layout again, and that makes the same world.

`Pictures` says what a drawing shows, from the lists of avatars and blocks alone. A drawing itself asks
the tiles; that this comes to the same is known of consistent worlds (`shows_symbolAt`). The main
statement is `drawing_agrees`.
-/

namespace TilePuzzle

open Text (intText natText)

namespace World

variable {w : World} {p : Position} {c : Char} {x y : Nat} {b : Block}

/-- The character shows what there is at `p`: an avatar rather than a block, of several blocks the one
with the least identifier, and the terrain where nothing is. -/
structure Shows (w : World) (p : Position) (c : Char) : Prop where
  avatar_iff : c = 'A' ↔ ∃ a ∈ w.avatars, a.position = p
  /-- A number of one digit is shown by its digit. -/
  block : (∀ a ∈ w.avatars, a.position ≠ p) → (∃ b ∈ w.blocks, b.position = p) →
    ∃ b ∈ w.blocks, b.position = p ∧ (∀ b' ∈ w.blocks, b'.position = p → b.id ≤ b'.id) ∧
      if 0 ≤ b.number ∧ b.number ≤ 9 then intText b.number = String.singleton c else c = '*'
  terrain : (∀ a ∈ w.avatars, a.position ≠ p) → (∀ b ∈ w.blocks, b.position ≠ p) →
    w.terrain? p = some .wall ∧ c = '#' ∨ w.terrain? p = some .hole ∧ c = 'o' ∨
      w.terrain? p = some .floor ∧ c = '.'

/-- The texts are a picture of the world, with a text for each row of tiles and a character for each
tile. -/
structure Pictures (w : World) (rows : List String) : Prop where
  height : rows.length = w.grid.rows
  width : ∀ row ∈ rows, row.length = w.grid.cols
  shows : ∀ (x y : Nat) c, rows[x]?.bind (·.toList[y]?) = some c → w.Shows ⟨x, y⟩ c

/-! ## The characters -/

theorem blockSymbol_of_digit {n : Int} (h : 0 ≤ n ∧ n ≤ 9) :
    intText n = String.singleton (blockSymbol n) := by
  obtain ⟨d, rfl⟩ := Int.eq_ofNat_of_zero_le h.1
  have hd : d < 10 := by omega
  rw [blockSymbol, if_pos h]
  show natText d = _
  rw [natText, Nat.toDigits_of_lt_base hd]
  rfl

theorem blockSymbol_ne (n : Int) : blockSymbol n ≠ 'A' := by
  have hdigit : ∀ d < 10, Nat.digitChar d ≠ 'A' := by decide
  unfold blockSymbol
  split
  · exact hdigit _ (by omega)
  · decide

theorem symbol_ne (t : Terrain) : t.symbol ≠ 'A' := by
  cases t <;> decide

theorem symbolAt_of_avatarOn? (h : (w.avatarOn? p).isSome) : w.symbolAt p = 'A' := if_pos h

theorem symbolAt_of_blockOn? (ha : w.avatarOn? p = none) (hb : w.blockOn? p = some b) :
    w.symbolAt p = blockSymbol b.number := by
  simp [symbolAt, ha, hb]

theorem symbolAt_of_bare (ha : w.avatarOn? p = none) (hb : w.blockOn? p = none) :
    w.symbolAt p = ((w.terrain? p).getD .floor).symbol := by
  simp [symbolAt, ha, hb]

/-- Where all blocks rest, a character shows what the lists of avatars and blocks have at its place. -/
theorem Consistent.shows_symbolAt (h : Consistent w) (hrest : ∀ b ∈ w.blocks, b.held = false)
    (hp : w.grid.Contains p) : w.Shows p (w.symbolAt p) := by
  have havatar : (∃ a ∈ w.avatars, a.position = p) ↔ (w.avatarOn? p).isSome := by
    rw [← not_iff_not, Bool.not_eq_true, Option.isSome_eq_false_iff, Option.isNone_iff_eq_none,
      h.avatarOn?_eq_none_iff]
    push Not
    rfl
  exact {
    avatar_iff := by
      rw [havatar]
      refine ⟨fun hA => ?_, symbolAt_of_avatarOn?⟩
      by_contra hnone
      rw [Bool.not_eq_true, Option.isSome_eq_false_iff, Option.isNone_iff_eq_none] at hnone
      cases hb : w.blockOn? p with
      | some b => exact blockSymbol_ne _ (symbolAt_of_blockOn? hnone hb ▸ hA)
      | none => exact symbol_ne _ (symbolAt_of_bare hnone hb ▸ hA)
    block := by
      intro ha hb
      have hnone := h.avatarOn?_eq_none_iff.mpr ha
      obtain ⟨b, hb⟩ : ∃ b, w.blockOn? p = some b := by
        rw [← Option.ne_none_iff_exists', Ne, h.blockOn?_eq_none_iff]
        intro hcarried
        obtain ⟨b, hmem, hposition⟩ := hb
        exact Bool.false_ne_true ((hrest b hmem).symm.trans (hcarried b hmem hposition))
      obtain ⟨⟨hmem, hposition, -⟩, hleast⟩ := h.blockOn?_eq_some_iff.mp hb
      refine ⟨b, hmem, hposition, fun b' hb' hp' => hleast b' hb' hp' (hrest b' hb'), ?_⟩
      rw [symbolAt_of_blockOn? hnone hb]
      split
      · next hdigit => exact blockSymbol_of_digit hdigit
      · next hdigit => exact if_neg hdigit
    terrain := by
      intro ha hb
      have hnone := h.avatarOn?_eq_none_iff.mpr ha
      have hbare : w.blockOn? p = none :=
        h.blockOn?_eq_none_iff.mpr fun b hmem hposition => absurd hposition (hb b hmem)
      obtain ⟨t, ht⟩ := Option.isSome_iff_exists.mp (isSome_terrain?_iff.mpr hp)
      rw [symbolAt_of_bare hnone hbare, ht]
      cases t with
      | wall => exact .inl ⟨rfl, rfl⟩
      | hole => exact .inr (.inl ⟨rfl, rfl⟩)
      | floor => exact .inr (.inr ⟨rfl, rfl⟩) }

/-! ## The rows -/

theorem length_drawing (w : World) : w.drawing.length = w.grid.rows := by
  rw [drawing, List.length_map, List.length_range]

theorem length_of_mem_drawing {row : String} (h : row ∈ w.drawing) : row.length = w.grid.cols := by
  obtain ⟨x, -, rfl⟩ := List.mem_map.mp h
  rw [String.length_ofList, List.length_map, List.length_range]

theorem getElem?_map_range {α : Type} {f : Nat → α} {n i : Nat} {a : α} :
    ((List.range n).map f)[i]? = some a ↔ i < n ∧ f i = a := by
  rw [List.getElem?_eq_some_iff]
  simp

/-- There is a character for each position of the grid, and no other. -/
theorem drawn_eq_some_iff : w.drawing[x]?.bind (·.toList[y]?) = some c ↔
    (x < w.grid.rows ∧ y < w.grid.cols) ∧ w.symbolAt ⟨x, y⟩ = c := by
  simp only [drawing, Option.bind_eq_some_iff, getElem?_map_range]
  constructor
  · rintro ⟨_, ⟨hx, rfl⟩, hc⟩
    rw [String.toList_ofList, getElem?_map_range] at hc
    exact ⟨⟨hx, hc.1⟩, hc.2⟩
  · rintro ⟨⟨hx, hy⟩, hc⟩
    refine ⟨_, ⟨hx, rfl⟩, ?_⟩
    rw [String.toList_ofList, getElem?_map_range]
    exact ⟨hy, hc⟩

theorem contains_natCast : w.grid.Contains ⟨x, y⟩ ↔ x < w.grid.rows ∧ y < w.grid.cols := by
  simp only [Grid.Contains]
  omega

theorem Consistent.pictures_drawing (h : Consistent w) (hrest : ∀ b ∈ w.blocks, b.held = false) :
    w.Pictures w.drawing where
  height := w.length_drawing
  width := fun _ => length_of_mem_drawing
  shows := by
    intro x y c hc
    obtain ⟨hp, rfl⟩ := drawn_eq_some_iff.mp hc
    exact h.shows_symbolAt hrest (contains_natCast.mpr hp)

/-- On a tile with nothing on it the drawing has the character of the terrain. -/
theorem Consistent.symbolAt_of_deserted (h : Consistent w) (ha : w.avatars = [])
    (hb : w.blocks = []) (p : Position) :
    w.symbolAt p = ((w.terrain? p).getD .floor).symbol := by
  apply symbolAt_of_bare
  · rw [h.avatarOn?_eq_none_iff, ha]
    exact List.forall_mem_nil _
  · rw [h.blockOn?_eq_none_iff, hb]
    exact List.forall_mem_nil _

end World

/-- A terrain is read from its own character. -/
theorem Terrain.ofSymbol?_symbol (t : Terrain) : ofSymbol? t.symbol = some t := by
  cases t <;> decide

namespace LevelFile

open World (Consistent SameSetting)

variable {f g : LevelFile} {level : Level}

theorem valid_of_build (h : f.build = .ok level) : f.Valid := by
  rcases f.valid_or_firstFault with hvalid | ⟨err, herr⟩
  · exact hvalid
  · rw [build_eq_error_iff.mpr (buildWorld_of_firstFault herr)] at h
    cases h

theorem exists_level_of_valid (h : f.Valid) : ∃ level, f.build = .ok level := by
  obtain ⟨w₁, w, -, -, hworld⟩ := buildWorld_of_valid h
  exact ⟨⟨f.name, w, f.goal, f.timeLimit, f.program⟩, build_eq_ok_iff.mpr ⟨hworld, rfl⟩⟩

theorem Depicts.rests (h : f.Depicts level) : ∀ b ∈ level.world.blocks, b.held = false := by
  rw [h.blocks, List.forall_mem_map]
  exact fun spec _ => rfl

/-- A level has a tile. -/
theorem Depicts.size_pos (h : f.Depicts level) (hf : f.Drawn) :
    0 < level.world.grid.rows ∧ 0 < level.world.grid.cols := by
  obtain ⟨row, hrow, hne⟩ := hf.tile
  rw [h.rows]
  refine ⟨List.length_pos_of_mem hrow, Nat.lt_of_lt_of_le ?_ (h.cols_le row hrow)⟩
  exact Nat.pos_of_ne_zero (mt String.length_eq_zero_iff.mp hne)

/-! ## Drawings as layouts -/

section Redrawn

variable (hw : Consistent level.world) (ha : level.world.avatars = [])
  (hb : level.world.blocks = []) (hlayout : g.layout = level.world.drawing)

include hw ha hb hlayout

/-- The characters of the new layout are those of the terrain. -/
theorem symbolAt?_of_drawing {x y : Nat} {c : Char} : g.symbolAt? x y = some c ↔
    ∃ t, level.world.terrain? ⟨x, y⟩ = some t ∧ t.symbol = c := by
  rw [symbolAt?, hlayout, World.drawn_eq_some_iff, ← World.contains_natCast,
    ← World.isSome_terrain?_iff, hw.symbolAt_of_deserted ha hb]
  cases level.world.terrain? ⟨x, y⟩ <;> simp

theorem drawn_of_drawing (hpos : 0 < level.world.grid.rows ∧ 0 < level.world.grid.cols) :
    g.Drawn where
  tile := by
    obtain ⟨row, hrow⟩ : ∃ row, row ∈ level.world.drawing :=
      List.exists_mem_of_length_pos (level.world.length_drawing ▸ hpos.1)
    refine ⟨row, hlayout ▸ hrow, ?_⟩
    rintro rfl
    have := World.length_of_mem_drawing hrow
    simp at this
    omega
  known := by
    intro x y c hc
    obtain ⟨t, -, rfl⟩ := (symbolAt?_of_drawing hw ha hb hlayout).mp hc
    rw [Terrain.ofSymbol?_symbol]
    exact Option.some_ne_none t

theorem sameSetting_of_drawing {level' : Level} (h' : g.Depicts level') (hga : g.avatars = [])
    (hgb : g.blocks = []) : SameSetting level.world level'.world := by
  have hrows : level'.world.grid.rows = level.world.grid.rows := by
    rw [h'.rows, hlayout, World.length_drawing]
  have hcols : level'.world.grid.cols = level.world.grid.cols := by
    obtain ⟨row, hrow, hlength⟩ := h'.cols_eq
    rw [← hlength, World.length_of_mem_drawing (hlayout ▸ hrow)]
  have hterrain : ∀ p, level'.world.terrain? p = level.world.terrain? p := by
    intro p
    have hon : (level'.world.terrain? p).isSome ↔ (level.world.terrain? p).isSome := by
      rw [World.isSome_terrain?_iff, World.isSome_terrain?_iff, Grid.Contains, hrows, hcols,
        Grid.Contains]
    cases ht : level.world.terrain? p with
    | none => simpa [ht] using hon
    | some t =>
        obtain ⟨px, py⟩ := p
        obtain ⟨hpx, -, hpy, -⟩ := World.isSome_terrain?_iff.mp (Option.isSome_of_mem ht)
        obtain ⟨x, rfl⟩ := Int.eq_ofNat_of_zero_le hpx
        obtain ⟨y, rfl⟩ := Int.eq_ofNat_of_zero_le hpy
        have hc : g.symbolAt? x y = some t.symbol :=
          (symbolAt?_of_drawing hw ha hb hlayout).mpr ⟨t, ht, rfl⟩
        have hp : level'.world.grid.Contains ⟨x, y⟩ :=
          World.isSome_terrain?_iff.mp (hon.mpr (ht ▸ rfl))
        obtain ⟨hx, hy⟩ := World.contains_natCast.mp hp
        rw [h'.terrain x y hx hy, hc, Option.elim_some, Terrain.ofSymbol?_symbol]
  exact {
    rows := hrows
    cols := hcols
    terrain := hterrain
    avatarIds := by rw [World.avatarIds, h'.avatars, hga, World.avatarIds, ha, List.map_nil]
    blockIds := by rw [World.blockIds, h'.blocks, hgb, World.blockIds, hb, List.map_nil] }

theorem build_of_drawing (hpos : 0 < level.world.grid.rows ∧ 0 < level.world.grid.cols)
    (hga : g.avatars = []) (hgb : g.blocks = []) :
    ∃ level', g.build = .ok level' ∧ level'.world = level.world := by
  have helements : g.elements = [] := by rw [elements, hga, hgb]; rfl
  have hvalid : g.Valid := by
    refine ⟨drawn_of_drawing hw ha hb hlayout hpos, ?_, ?_⟩
    · rw [helements]
      exact List.nodup_nil
    · rw [helements]
      exact List.forall_mem_nil _
  obtain ⟨level', hbuild⟩ := exists_level_of_valid hvalid
  have h' : g.Depicts level' := depicts_of_build hvalid hbuild
  refine ⟨level', hbuild, hw.eq_of_elements (world_reachable hbuild).consistent
    (sameSetting_of_drawing hw ha hb hlayout h' hga hgb) ?_ ?_⟩
  · rw [h'.avatars, hga, ha, List.map_nil]
  · rw [h'.blocks, hgb, hb, List.map_nil]

end Redrawn

/-- A level that loads is shown by a picture of its world. If nothing is on the tiles, the picture is a
layout for the same world. -/
theorem drawing_agrees {read : Reader} {path : String} (h : loadLevel read path = .ok level) :
    level.world.Pictures level.world.drawing ∧
      (∀ json, Job.ofShow read path json = .ok (.answer
        (level.headline :: level.marks :: level.targets ++ level.world.drawing.map ("  " ++ ·)
          ++ if json then [level.world.snapshot.toJson.pretty] else []))) ∧
      (level.world.avatars = [] → level.world.blocks = [] → ∀ read' path' (g : LevelFile),
        g.ReadFrom read' path' → g.layout = level.world.drawing → g.avatars = [] → g.blocks = [] →
          ∃ level', loadLevel read' path' = .ok level' ∧ level'.world = level.world ∧
            level'.world.drawing = level.world.drawing) := by
  obtain ⟨f, -, hbuild⟩ := exists_readFrom h
  have hvalid := valid_of_build hbuild
  have hdepicts := depicts_of_build hvalid hbuild
  have hw : Consistent level.world := (world_reachable hbuild).consistent
  refine ⟨hw.pictures_drawing hdepicts.rests, fun json => by rw [Job.ofShow, h]; rfl, ?_⟩
  intro ha hb read' path' g hg hlayout hga hgb
  obtain ⟨level', hbuild', hworld⟩ :=
    build_of_drawing hw ha hb hlayout (hdepicts.size_pos hvalid.drawn) hga hgb
  refine ⟨level', ?_, hworld, hworld ▸ rfl⟩
  rw [hg.loadLevel_eq, hbuild']
  rfl

/-- A wall, a hole in capitals and floor behind the end of a row, with an avatar on a block and two blocks
on one tile. -/
def yard : LevelFile where
  layout := ["#O.", "."]
  avatars := [{ id := 6, position := ⟨1, 0⟩ }]
  blocks := [{ id := 2, position := ⟨1, 0⟩, number := 3 }, { id := 5, position := ⟨1, 1⟩, number := 7 },
    { id := 9, position := ⟨0, 2⟩, number := 4 }, { id := 8, position := ⟨0, 2⟩, number := -4 }]
  goal := { idealTime := 0, idealLines := 0, budget := 9 }

/-- The yard with nothing in it. -/
def clearing : LevelFile := { yard with avatars := [], blocks := [] }

/-- The drawing of the clearing as a layout. -/
def redrawn : LevelFile := { clearing with layout := ["#o.", "..."] }

theorem drawing_agrees_yard :
    let read (f : LevelFile) : Reader := fun _ => .ok f.toJson.compact.toUTF8
    (∃ level, loadLevel (read yard) "l" = .ok level ∧ level.world.drawing = ["#o*", "A7."] ∧
      level.world.Pictures ["#o*", "A7."]) ∧
    ∃ level level', loadLevel (read clearing) "l" = .ok level ∧
      redrawn.layout = level.world.drawing ∧ redrawn.ReadFrom (read redrawn) "l" ∧
      loadLevel (read redrawn) "l" = .ok level' ∧ level'.world = level.world := by
  intro read
  have hfits : yard.Fits ∧ clearing.Fits ∧ redrawn.Fits := by decide
  obtain ⟨level, hbuild, hrows⟩ : ∃ level, yard.build = .ok level ∧
      level.world.drawing = ["#o*", "A7."] := ⟨_, rfl, rfl⟩
  obtain ⟨bare, hbare, hdrawing, ha, hb⟩ : ∃ level, clearing.build = .ok level ∧
      level.world.drawing = redrawn.layout ∧ level.world.avatars = [] ∧ level.world.blocks = [] :=
    ⟨_, rfl, rfl, rfl, rfl⟩
  have hread : ∀ f : LevelFile, f.Fits → f.ReadFrom (read f) "l" := fun f hf =>
    readFrom_of_written rfl hf f.written_toJson (Json.renders_compact _)
  have hload : loadLevel (read yard) "l" = .ok level := by
    rw [(hread yard hfits.1).loadLevel_eq, hbuild]
    rfl
  have hload' : loadLevel (read clearing) "l" = .ok bare := by
    rw [(hread clearing hfits.2.1).loadLevel_eq, hbare]
    rfl
  have hredrawn : redrawn.ReadFrom (read redrawn) "l" := hread redrawn hfits.2.2
  obtain ⟨level', hlevel', hworld, -⟩ :=
    (drawing_agrees hload').2.2 ha hb (read redrawn) "l" redrawn hredrawn hdrawing.symm rfl rfl
  exact ⟨⟨level, hload, hrows, hrows ▸ (drawing_agrees hload).1⟩,
    bare, level', hload', hdrawing.symm, hredrawn, hlevel', hworld⟩

end LevelFile
end TilePuzzle
