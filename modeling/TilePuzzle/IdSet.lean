/-!
# Sets of identifiers

A finite set of natural numbers, kept in ascending order. The least member that satisfies a test is
therefore the first one, and two sets with the same members are equal (`ext_mem`).
-/

namespace TilePuzzle

/-- A finite set of identifiers, in ascending order. -/
structure IdSet where
  ids : List Nat
  ascending : ids.Pairwise (· < ·)

namespace IdSet

theorem ext {s t : IdSet} (h : s.ids = t.ids) : s = t := by
  cases s; cases t; cases h; rfl

instance : DecidableEq IdSet := fun _ _ => decidable_of_iff _ ⟨ext, congrArg ids⟩

/-- The set without members. -/
def empty : IdSet := ⟨[], .nil⟩

instance : Inhabited IdSet := ⟨empty⟩

instance : Membership Nat IdSet := ⟨fun s id => id ∈ s.ids⟩

instance (id : Nat) (s : IdSet) : Decidable (id ∈ s) := inferInstanceAs (Decidable (id ∈ s.ids))

/-- An ascending list with `id` added in its place. -/
def insertId (id : Nat) : List Nat → List Nat
  | [] => [id]
  | j :: rest => if id < j then id :: j :: rest else if j < id then j :: insertId id rest else j :: rest

theorem mem_insertId {id j : Nat} {l : List Nat} : j ∈ insertId id l ↔ j = id ∨ j ∈ l := by
  induction l with
  | nil => simp [insertId]
  | cons k rest ih =>
    simp only [insertId]
    split
    · simp
    · split
      · simp only [List.mem_cons, ih]
        constructor
        · rintro (h | h | h) <;> simp [h]
        · rintro (h | h | h) <;> simp [h]
      · have : id = k := by omega
        subst this
        simp

theorem pairwise_insertId (id : Nat) {l : List Nat} (h : l.Pairwise (· < ·)) :
    (insertId id l).Pairwise (· < ·) := by
  induction l with
  | nil => simp [insertId]
  | cons k rest ih =>
    have ⟨hk, hrest⟩ := List.pairwise_cons.1 h
    simp only [insertId]
    split
    · next hlt =>
      refine List.pairwise_cons.2 ⟨fun j hj => ?_, h⟩
      rcases List.mem_cons.1 hj with rfl | hj
      · exact hlt
      · exact Nat.lt_trans hlt (hk j hj)
    · split
      · next hlt =>
        refine List.pairwise_cons.2 ⟨fun j hj => ?_, ih hrest⟩
        rcases mem_insertId.1 hj with rfl | hj
        · exact hlt
        · exact hk j hj
      · exact h

/-- The set with `id` as a member. -/
def insert (s : IdSet) (id : Nat) : IdSet := ⟨insertId id s.ids, pairwise_insertId id s.ascending⟩

/-- The set without `id`. -/
def erase (s : IdSet) (id : Nat) : IdSet :=
  ⟨s.ids.filter (· ≠ id), s.ascending.filter _⟩

/-! ### Membership -/

theorem mem_def {s : IdSet} {id : Nat} : id ∈ s ↔ id ∈ s.ids := Iff.rfl

@[simp] theorem not_mem_empty (id : Nat) : id ∉ empty := by simp [mem_def, empty]

@[simp] theorem mem_insert {s : IdSet} {id j : Nat} : j ∈ s.insert id ↔ j = id ∨ j ∈ s :=
  mem_insertId

@[simp] theorem mem_erase {s : IdSet} {id j : Nat} : j ∈ s.erase id ↔ j ∈ s ∧ j ≠ id := by
  simp [mem_def, erase]

/-- Two sets with the same members are equal. -/
theorem ext_mem {s t : IdSet} (h : ∀ id, id ∈ s ↔ id ∈ t) : s = t := by
  have hnodup : ∀ u : IdSet, u.ids.Nodup := fun u => u.ascending.imp Nat.ne_of_lt
  exact ext (List.Perm.eq_of_pairwise (fun _ _ _ _ hab hba => absurd hab (Nat.lt_asymm hba))
    s.ascending t.ascending ((List.perm_ext_iff_of_nodup (hnodup s) (hnodup t)).2 h))

end IdSet

end TilePuzzle
