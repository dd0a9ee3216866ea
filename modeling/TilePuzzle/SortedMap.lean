/-!
# Maps in key order

A `SortedMap` lists its entries in strictly ascending order of their keys, so each key has one entry
and two maps that answer every look-up alike are equal (`ext_get?`). `get?_insert` says what an
insertion does to the look-ups.
-/

namespace TilePuzzle

/-- A finite map, as the list of its entries in ascending order of the keys. -/
structure SortedMap (κ ν : Type) [LT κ] where
  entries : List (κ × ν)
  ascending : entries.Pairwise fun a b => a.1 < b.1

namespace SortedMap

section LookUp

variable {κ ν : Type} [LT κ]

@[ext] theorem ext {m n : SortedMap κ ν} (h : m.entries = n.entries) : m = n := by
  cases m; cases n; cases h; rfl

instance [DecidableEq κ] [DecidableEq ν] : DecidableEq (SortedMap κ ν) := fun _ _ =>
  decidable_of_iff _ ⟨ext, congrArg entries⟩

/-- The map without entries. -/
def empty : SortedMap κ ν := ⟨[], .nil⟩

instance : Inhabited (SortedMap κ ν) := ⟨empty⟩

/-- What `k` is mapped to. -/
def get? [DecidableEq κ] (m : SortedMap κ ν) (k : κ) : Option ν :=
  (m.entries.find? (·.1 = k)).map (·.2)

/-- Whether `k` has an entry. -/
def contains [DecidableEq κ] (m : SortedMap κ ν) (k : κ) : Bool := (m.get? k).isSome

/-- The keys, in ascending order. -/
def keys (m : SortedMap κ ν) : List κ := m.entries.map (·.1)

/-- The number of entries. -/
def size (m : SortedMap κ ν) : Nat := m.entries.length

@[simp] theorem get?_empty [DecidableEq κ] (k : κ) : (empty : SortedMap κ ν).get? k = none := rfl

/-- The entries with `k` mapped to `v`, in place of what `k` was mapped to. -/
def insertEntry [DecidableLT κ] (k : κ) (v : ν) : List (κ × ν) → List (κ × ν)
  | [] => [(k, v)]
  | e :: rest =>
    if k < e.1 then (k, v) :: e :: rest
    else if e.1 < k then e :: insertEntry k v rest
    else (k, v) :: rest

theorem mem_insertEntry [DecidableLT κ] {k : κ} {v : ν} {a : κ × ν} {l : List (κ × ν)}
    (h : a ∈ insertEntry k v l) : a = (k, v) ∨ a ∈ l := by
  induction l with
  | nil => simpa [insertEntry] using h
  | cons e rest ih =>
    simp only [insertEntry] at h
    split at h
    · simpa using h
    · split at h
      · rcases List.mem_cons.1 h with rfl | h
        · simp
        · rcases ih h with h | h <;> simp [h]
      · rcases List.mem_cons.1 h with h | h <;> simp [h]

theorem insertEntry_ne_nil [DecidableLT κ] (k : κ) (v : ν) (l : List (κ × ν)) :
    insertEntry k v l ≠ [] := by
  cases l with
  | nil => simp [insertEntry]
  | cons e rest =>
    simp only [insertEntry]
    split
    · simp
    · split <;> simp

theorem get?_eq_some_iff [DecidableEq κ] [Std.Irrefl (α := κ) (· < ·)]
    {m : SortedMap κ ν} {k : κ} {v : ν} :
    m.get? k = some v ↔ (k, v) ∈ m.entries := by
  obtain ⟨l, hl⟩ := m
  simp only [get?]
  induction l with
  | nil => simp
  | cons e rest ih =>
    obtain ⟨j, u⟩ := e
    have ⟨he, hrest⟩ := List.pairwise_cons.1 hl
    by_cases h : j = k
    · subst h
      have hno : (j, v) ∉ rest := fun hm => absurd (he (j, v) hm) Std.lt_irrefl
      simp [hno, eq_comm]
    · have hne : ¬(k = j ∧ v = u) := fun hke => h hke.1.symm
      simp [h, hne, ih hrest]

/-- Two maps with the same look-ups are equal. -/
theorem ext_get? [DecidableEq κ] [Trans (α := κ) (· < ·) (· < ·) (· < ·)]
    [Std.Irrefl (α := κ) (· < ·)] {m n : SortedMap κ ν} (h : ∀ k, m.get? k = n.get? k) : m = n := by
  have hmem : ∀ e, e ∈ m.entries ↔ e ∈ n.entries := fun e => by
    rw [← get?_eq_some_iff (k := e.1) (v := e.2), ← get?_eq_some_iff (k := e.1) (v := e.2), h]
  have hnodup : ∀ l : SortedMap κ ν, l.entries.Nodup := fun l =>
    l.ascending.imp fun {a b} (hab : a.1 < b.1) (heq : a = b) => Std.lt_irrefl (heq ▸ hab)
  exact ext (List.Perm.eq_of_pairwise
    (fun a b _ _ (hab : a.1 < b.1) hba => absurd (Std.lt_trans hab hba) Std.lt_irrefl)
    m.ascending n.ascending ((List.perm_ext_iff_of_nodup (hnodup m) (hnodup n)).2 (hmem)))

end LookUp

section Insertion

variable {κ ν : Type} [LE κ] [LT κ] [Std.IsLinearOrder κ] [Std.LawfulOrderLT κ] [DecidableLT κ]

theorem pairwise_insertEntry (k : κ) (v : ν) {l : List (κ × ν)}
    (h : l.Pairwise fun a b => a.1 < b.1) :
    (insertEntry k v l).Pairwise fun a b => a.1 < b.1 := by
  induction l with
  | nil => simp [insertEntry]
  | cons e rest ih =>
    have ⟨he, hrest⟩ := List.pairwise_cons.1 h
    simp only [insertEntry]
    split
    · next hk =>
      refine List.pairwise_cons.2 ⟨fun a ha => ?_, h⟩
      rcases List.mem_cons.1 ha with rfl | ha
      · exact hk
      · exact Std.lt_trans hk (he a ha)
    · next hk =>
      split
      · next hk' =>
        refine List.pairwise_cons.2 ⟨fun a ha => ?_, ih hrest⟩
        rcases mem_insertEntry ha with rfl | ha
        · exact hk'
        · exact he a ha
      · next hk' =>
        have heq : k = e.1 := Std.le_antisymm (Std.not_lt.1 hk') (Std.not_lt.1 hk)
        exact List.pairwise_cons.2 ⟨fun a ha => heq ▸ he a ha, hrest⟩

/-- The map with `k` mapped to `v`, in place of what `k` was mapped to. -/
def insert (m : SortedMap κ ν) (k : κ) (v : ν) : SortedMap κ ν :=
  ⟨insertEntry k v m.entries, pairwise_insertEntry k v m.ascending⟩

/-- The map of a list of pairs; of two pairs with one key the later counts. -/
def ofList (l : List (κ × ν)) : SortedMap κ ν := l.foldl (fun m e => m.insert e.1 e.2) empty

variable [DecidableEq κ]

theorem find?_insertEntry (k j : κ) (v : ν) (l : List (κ × ν)) :
    ((insertEntry k v l).find? (·.1 = j)).map (·.2)
      = if k = j then some v else (l.find? (·.1 = j)).map (·.2) := by
  induction l with
  | nil => by_cases h : k = j <;> simp [insertEntry, h]
  | cons e rest ih =>
    simp only [insertEntry]
    split
    · by_cases h : k = j <;> simp [h]
    · next hk =>
      split
      · next hk' =>
        by_cases he : e.1 = j
        · have : k ≠ j := by rintro rfl; exact Std.lt_irrefl (he ▸ hk')
          simp [he, this]
        · simpa [he] using ih
      · next hk' =>
        have heq : e.1 = k := Std.le_antisymm (Std.not_lt.1 hk) (Std.not_lt.1 hk')
        by_cases h : k = j <;> simp [h, heq]

theorem get?_insert (m : SortedMap κ ν) (k j : κ) (v : ν) :
    (m.insert k v).get? j = if k = j then some v else m.get? j :=
  find?_insertEntry k j v m.entries

/-- A new key adds an entry. -/
theorem size_insert {m : SortedMap κ ν} {k : κ} (h : m.get? k = none) (v : ν) :
    (m.insert k v).size = m.size + 1 := by
  obtain ⟨l, hl⟩ := m
  simp only [get?, Option.map_eq_none_iff] at h
  show (insertEntry k v l).length = l.length + 1
  clear hl
  induction l with
  | nil => rfl
  | cons e rest ih =>
    have ⟨hne, hrest⟩ : e.1 ≠ k ∧ rest.find? (·.1 = k) = none := by simpa using h
    simp only [insertEntry]
    split
    · rfl
    · next hk =>
      split
      · simp [ih (by simpa using hrest)]
      · next hk' => exact absurd (Std.le_antisymm (Std.not_lt.1 hk) (Std.not_lt.1 hk')) hne

end Insertion

end SortedMap

end TilePuzzle
