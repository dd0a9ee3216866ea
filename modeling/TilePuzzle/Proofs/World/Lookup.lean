import Mathlib.Data.List.Nodup
import TilePuzzle.World.Play

/-!
# Look-ups after a change

The operations of a world are built from a few small changes: `updateAvatar` and `updateBlock`
change one element, `enter` and `leave` change the occupants of one tile. This module says once what
each small change does to the look-ups, so that a statement about an operation is a composition of
look-ups and never unfolds the lists of elements.

Three views of a world carry the statements about occupancy and carrying: `Occupies` reads the
tiles, `place?` reads the positions of the elements, and `load?` with `IsHeld` reads both ends of
the link between an avatar and the block that it carries.
-/

namespace TilePuzzle

/-! ## Searching by a key -/

section Key

variable {α : Type} (key : α → Nat)

/-- Among elements with distinct keys, a search by key finds exactly the element with that key. -/
theorem find?_key_eq_some_iff {l : List α} (hl : (l.map key).Nodup) {k : Nat} {a : α} :
    l.find? (fun x => decide (key x = k)) = some a ↔ a ∈ l ∧ key a = k := by
  constructor
  · intro h
    exact ⟨List.mem_of_find?_eq_some h, by simpa using List.find?_some h⟩
  · rintro ⟨ha, rfl⟩
    obtain ⟨c, hc⟩ : ∃ c, l.find? (fun x => decide (key x = key a)) = some c := by
      rw [← Option.isSome_iff_exists, List.find?_isSome]
      exact ⟨a, ha, by simp⟩
    have hkey : key c = key a := by simpa using List.find?_some hc
    rw [hc, List.inj_on_of_nodup_map hl (List.mem_of_find?_eq_some hc) ha hkey]

variable {f : α → α}

/-- A change that leaves the keys alone changes what a search by key finds, and nothing else. -/
theorem find?_key_map (hf : ∀ a, key (f a) = key a) (l : List α) (k : Nat) :
    (l.map f).find? (fun x => decide (key x = k))
      = (l.find? fun x => decide (key x = k)).map f := by
  rw [List.find?_map]
  congr 2
  funext a
  show decide (key (f a) = k) = decide (key a = k)
  rw [hf a]

theorem key_ite (hf : ∀ a, key (f a) = key a) (i : Nat) (a : α) :
    key (if key a = i then f a else a) = key a := by
  split
  · exact hf a
  · rfl

/-- Changing the elements with key `i` matters only to a search for `i`. -/
theorem find?_key_update (hf : ∀ a, key (f a) = key a) (l : List α) (i k : Nat) :
    (l.map fun a => if key a = i then f a else a).find? (fun x => decide (key x = k))
      = if k = i then (l.find? fun x => decide (key x = k)).map f
        else l.find? fun x => decide (key x = k) := by
  rw [find?_key_map key (key_ite key hf i)]
  cases h : l.find? fun x => decide (key x = k) with
  | none => simp
  | some a =>
      have hk : key a = k := by simpa using List.find?_some h
      rw [Option.map_some, hk]
      split <;> rfl

theorem map_key_update (hf : ∀ a, key (f a) = key a) (l : List α) (i : Nat) :
    (l.map fun a => if key a = i then f a else a).map key = l.map key := by
  rw [List.map_map]
  exact List.map_congr_left fun a _ => key_ite key hf i a

/-- An element with a new key is found by its key, and the others as before. -/
theorem find?_key_append {l : List α} {a : α}
    (hnew : l.find? (fun x => decide (key x = key a)) = none) (k : Nat) :
    (l ++ [a]).find? (fun x => decide (key x = k))
      = if k = key a then some a else l.find? fun x => decide (key x = k) := by
  rw [List.find?_append]
  by_cases hk : k = key a
  · subst hk
    rw [hnew, if_pos rfl]
    simp
  · rw [if_neg hk]
    simp [Ne.symm hk]

/-- Along ascending identifiers, the first value found is the one with the least identifier. -/
theorem findSome?_ascending {l : List Nat} (hl : l.Pairwise (· < ·)) {g : Nat → Option α}
    (hg : ∀ i a, g i = some a → key a = i) {a : α} :
    l.findSome? g = some a
      ↔ key a ∈ l ∧ g (key a) = some a ∧ ∀ i ∈ l, (g i).isSome → key a ≤ i := by
  induction l with
  | nil => simp
  | cons i rest ih =>
      have ⟨hi, hrest⟩ := List.pairwise_cons.mp hl
      rw [List.findSome?_cons]
      cases hgi : g i with
      | none =>
          have hne : g (key a) = some a → key a ≠ i := by
            rintro ha rfl
            rw [hgi] at ha
            cases ha
          rw [ih hrest]
          constructor
          · rintro ⟨hmem, ha, hleast⟩
            refine ⟨List.mem_cons_of_mem _ hmem, ha, fun j hj hsome => ?_⟩
            rcases List.mem_cons.mp hj with rfl | hj
            · rw [hgi] at hsome
              cases hsome
            · exact hleast j hj hsome
          · rintro ⟨hmem, ha, hleast⟩
            exact ⟨(List.mem_cons.mp hmem).resolve_left (hne ha), ha,
              fun j hj => hleast j (List.mem_cons_of_mem _ hj)⟩
      | some c =>
          have hc : key c = i := hg i c hgi
          constructor
          · rintro ⟨⟩
            refine ⟨hc ▸ List.mem_cons_self, by rw [hc, hgi], fun j hj _ => ?_⟩
            rcases List.mem_cons.mp hj with rfl | hj
            · exact Nat.le_of_eq hc
            · exact Nat.le_of_lt (hc ▸ hi j hj)
          · rintro ⟨hmem, ha, hleast⟩
            have hle : key a ≤ i := hleast i List.mem_cons_self (by rw [hgi]; rfl)
            rcases List.mem_cons.mp hmem with heq | hmem
            · rw [heq, hgi] at ha
              exact ha
            · exact absurd (hi _ hmem) (Nat.not_lt.mpr hle)

end Key

namespace World

variable {w : World} {id j : Nat} {p q : Position} {a : Avatar} {b : Block}

/-! ## Elements by identifier -/

/-- The identifiers of the blocks, in the order in which they were added. -/
def blockIds (w : World) : List Nat := w.blocks.map (·.id)

theorem id_of_avatar? (h : w.avatar? id = some a) : a.id = id := by
  simpa using List.find?_some h

theorem mem_of_avatar? (h : w.avatar? id = some a) : a ∈ w.avatars :=
  List.mem_of_find?_eq_some h

theorem avatar?_eq_none_iff : w.avatar? id = none ↔ id ∉ w.avatarIds := by
  simp [avatar?, avatarIds]

theorem id_of_block? (h : w.block? id = some b) : b.id = id := by
  simpa using List.find?_some h

theorem mem_of_block? (h : w.block? id = some b) : b ∈ w.blocks :=
  List.mem_of_find?_eq_some h

theorem block?_eq_none_iff : w.block? id = none ↔ id ∉ w.blockIds := by
  simp [block?, blockIds]

theorem registered_eq_false_iff :
    w.registered id = false ↔ w.avatar? id = none ∧ w.block? id = none := by
  simp [registered, avatar?, block?]

/-! ## One element changed -/

section Update

variable {f : Avatar → Avatar} {g : Block → Block}

theorem avatar?_updateAvatar (hf : ∀ a, (f a).id = a.id) :
    (w.updateAvatar id f).avatar? j = if j = id then (w.avatar? j).map f else w.avatar? j :=
  find?_key_update Avatar.id hf w.avatars id j

theorem block?_updateBlock (hg : ∀ b, (g b).id = b.id) :
    (w.updateBlock id g).block? j = if j = id then (w.block? j).map g else w.block? j :=
  find?_key_update Block.id hg w.blocks id j

theorem avatarIds_updateAvatar (hf : ∀ a, (f a).id = a.id) :
    (w.updateAvatar id f).avatarIds = w.avatarIds :=
  map_key_update Avatar.id hf w.avatars id

theorem blockIds_updateBlock (hg : ∀ b, (g b).id = b.id) :
    (w.updateBlock id g).blockIds = w.blockIds :=
  map_key_update Block.id hg w.blocks id

end Update

/-! ## Everything else stays

Each small change leaves the other parts of the world as they are. -/

@[simp] theorem avatar?_updateBlock (g : Block → Block) :
    (w.updateBlock id g).avatar? j = w.avatar? j := rfl

/-! ## Occupancy

The tiles and the elements both tell where an element is; these are the two answers. -/

/-- The tile at `p` lists the element `id`. -/
def Occupies (w : World) (id : Nat) (p : Position) : Prop :=
  ∃ t, w.tile? p = some t ∧ id ∈ t.occupants

/-- The position that the element `id` has. -/
def place? (w : World) (id : Nat) : Option Position :=
  ((w.avatar? id).map (·.position)).or ((w.block? id).map (·.position))

theorem Occupies.contains (h : w.Occupies id p) : w.grid.Contains p := by
  obtain ⟨t, ht, _⟩ := h
  rw [← Grid.get?_isSome_iff, show w.grid.get? p = some t from ht]
  rfl

theorem occupies_enter :
    (w.enter id q).Occupies j p ↔ w.Occupies j p ∨ (j = id ∧ p = q ∧ w.grid.Contains q) := by
  rw [← Grid.get?_isSome_iff]
  show _ ↔ _ ∨ (_ ∧ _ ∧ (w.tile? q).isSome)
  simp only [Occupies, tile?_enter]
  by_cases hq : q = p
  · subst hq
    cases w.tile? q <;> simp [or_comm]
  · simp [hq, Ne.symm hq]

theorem occupies_leave :
    (w.leave id q).Occupies j p ↔ w.Occupies j p ∧ ¬(j = id ∧ p = q) := by
  simp only [Occupies, tile?_leave]
  by_cases hq : q = p
  · subst hq
    cases w.tile? q <;> simp
  · simp [hq, Ne.symm hq]

theorem occupies_relocate {source target : Position} :
    (w.relocate id source target).Occupies j p ↔
      (w.Occupies j p ∧ ¬(j = id ∧ p = source)) ∨
        (j = id ∧ p = target ∧ w.grid.Contains target) := by
  rw [relocate, occupies_enter, occupies_leave]
  have hgrid : (w.leave id source).grid.Contains target ↔ w.grid.Contains target :=
    Grid.contains_modify
  rw [hgrid]

/-- An element that leaves the only tile it is on is on its new tile afterwards, and nowhere else.
-/
theorem occupies_relocate_of_home {source target : Position}
    (hhome : ∀ r, w.Occupies id r → r = source)
    (htarget : w.grid.Contains target) :
    (w.relocate id source target).Occupies j p ↔ if j = id then p = target else w.Occupies j p := by
  rw [occupies_relocate]
  by_cases hj : j = id
  · subst hj
    simp only [true_and, if_true]
    constructor
    · rintro (⟨ho, hne⟩ | ⟨rfl, -⟩)
      · exact absurd (hhome p ho) hne
      · rfl
    · rintro rfl
      exact .inr ⟨rfl, htarget⟩
  · simp [hj]

/-! ## Who answers for a tile

Of several elements on a tile, the one with the least identifier answers. -/

theorem avatarOn?_eq_some_iff :
    w.avatarOn? p = some a ↔ w.avatar? a.id = some a ∧ w.Occupies a.id p ∧
      ∀ c, w.avatar? c.id = some c → w.Occupies c.id p → a.id ≤ c.id := by
  unfold avatarOn? Occupies
  cases ht : w.tile? p with
  | none => simp
  | some t =>
      show t.occupants.ids.findSome? w.avatar? = some a ↔ _
      rw [findSome?_ascending Avatar.id t.occupants.ascending fun _ _ => id_of_avatar?]
      constructor
      · rintro ⟨hmem, ha, hleast⟩
        refine ⟨ha, ⟨t, rfl, hmem⟩, ?_⟩
        rintro c hc ⟨_, ⟨⟩, hcmem⟩
        exact hleast c.id hcmem (by rw [hc]; rfl)
      · rintro ⟨ha, ⟨_, ⟨⟩, hmem⟩, hleast⟩
        refine ⟨hmem, ha, fun i hi hsome => ?_⟩
        obtain ⟨c, hc⟩ := Option.isSome_iff_exists.mp hsome
        have hci : c.id = i := id_of_avatar? hc
        subst hci
        exact hleast c hc ⟨t, rfl, hi⟩

theorem blockOn?_eq_some_iff :
    w.blockOn? p = some b ↔ w.block? b.id = some b ∧ b.held = false ∧ w.Occupies b.id p ∧
      ∀ c, w.block? c.id = some c → c.held = false → w.Occupies c.id p → b.id ≤ c.id := by
  unfold blockOn? Occupies
  have hrests : ∀ {i : Nat} {c : Block}, (w.block? i).filter (!·.held) = some c
      ↔ w.block? i = some c ∧ c.held = false := by
    intro i c
    rw [Option.filter_eq_some_iff, Bool.not_eq_true']
  cases ht : w.tile? p with
  | none => simp
  | some t =>
      show t.occupants.ids.findSome? (fun id => (w.block? id).filter (!·.held)) = some b ↔ _
      rw [findSome?_ascending Block.id t.occupants.ascending
        fun _ _ h => id_of_block? (hrests.mp h).1, hrests]
      constructor
      · rintro ⟨hmem, ⟨hb, hfree⟩, hleast⟩
        refine ⟨hb, hfree, ⟨t, rfl, hmem⟩, ?_⟩
        rintro c hc hcfree ⟨_, ⟨⟩, hcmem⟩
        exact hleast c.id hcmem (by rw [hrests.mpr ⟨hc, hcfree⟩]; rfl)
      · rintro ⟨hb, hfree, ⟨_, ⟨⟩, hmem⟩, hleast⟩
        refine ⟨hmem, ⟨hb, hfree⟩, fun i hi hsome => ?_⟩
        obtain ⟨c, hc⟩ := Option.isSome_iff_exists.mp hsome
        obtain ⟨hc, hcfree⟩ := hrests.mp hc
        have hci : c.id = i := id_of_block? hc
        subst hci
        exact hleast c hc hcfree ⟨t, rfl, hi⟩

/-! ## Carrying

A carried block is recorded twice as well: the avatar names it, and the block is marked. -/

/-- The block that the avatar `id` names as the one it carries. -/
def load? (w : World) (id : Nat) : Option Nat := (w.avatar? id).bind (·.held)

theorem load?_of_avatar? (ha : w.avatar? id = some a) : w.load? id = a.held := by
  rw [load?, ha]
  rfl

theorem load?_congr {w' : World} (h : w'.avatar? id = w.avatar? id) : w'.load? id = w.load? id := by
  rw [load?, h, load?]

/-- The block `id` is marked as carried. -/
def IsHeld (w : World) (id : Nat) : Prop := ∃ b, w.block? id = some b ∧ b.held = true

end World

end TilePuzzle
