import Mathlib.Data.List.Nodup

/-!
# Sorting by a key

`List.mergeSort` by a numeric key brings a list into ascending order and keeps the elements of one key
in the order in which they are listed. Together the two leave no choice (`eq_of_filter_key_eq`). If no
two elements have the same key, then it does not even matter how they are listed
(`mergeSort_key_eq_iff_perm`).
-/

namespace TilePuzzle

variable {α : Type} (key : α → Nat)

theorem key_le_trans (a b c : α) (hab : decide (key a ≤ key b) = true)
    (hbc : decide (key b ≤ key c) = true) : decide (key a ≤ key c) = true :=
  decide_eq_true (Nat.le_trans (of_decide_eq_true hab) (of_decide_eq_true hbc))

theorem key_le_total (a b : α) : (decide (key a ≤ key b) || decide (key b ≤ key a)) = true := by
  rw [Bool.or_eq_true]
  exact (Nat.le_total (key a) (key b)).imp decide_eq_true decide_eq_true

theorem pairwise_mergeSort_key (l : List α) :
    (l.mergeSort fun a b => decide (key a ≤ key b)).Pairwise fun a b => key a ≤ key b :=
  (List.pairwise_mergeSort (key_le_trans key) (key_le_total key) l).imp of_decide_eq_true

/-- Elements of one key are in order as they are listed, so sorting keeps them in this order. -/
theorem filter_mergeSort_key (l : List α) (k : Nat) :
    (l.mergeSort fun a b => decide (key a ≤ key b)).filter (fun a => decide (key a = k))
      = l.filter fun a => decide (key a = k) := by
  have hsame : (l.filter fun a => decide (key a = k)).Pairwise
      fun a b => decide (key a ≤ key b) = true := by
    rw [List.pairwise_filter]
    refine List.pairwise_of_forall fun a b ha hb => decide_eq_true (Nat.le_of_eq ?_)
    rw [of_decide_eq_true ha, of_decide_eq_true hb]
  have hsublist := (List.sublist_mergeSort (key_le_trans key) (key_le_total key) hsame
    List.filter_sublist).filter fun a => decide (key a = k)
  rw [List.filter_filter] at hsublist
  simp only [Bool.and_self] at hsublist
  exact (hsublist.eq_of_length ((List.mergeSort_perm l _).filter _).length_eq.symm).symm

theorem mem_of_filter_key_eq {l l' : List α} {a : α}
    (h : l'.filter (fun b => decide (key b = key a)) = l.filter fun b => decide (key b = key a))
    (ha : a ∈ l) : a ∈ l' := by
  have hkey : a ∈ l'.filter fun b => decide (key b = key a) := by
    rw [h]
    exact List.mem_filter.mpr ⟨ha, decide_eq_true rfl⟩
  exact (List.mem_filter.mp hkey).1

/-- An ascending list is known from its elements of each key. -/
theorem eq_of_filter_key_eq {l l' : List α} (hl : l.Pairwise fun a b => key a ≤ key b)
    (hl' : l'.Pairwise fun a b => key a ≤ key b)
    (h : ∀ k, l'.filter (fun a => decide (key a = k)) = l.filter fun a => decide (key a = k)) :
    l' = l := by
  induction l generalizing l' with
  | nil =>
      cases l' with
      | nil => rfl
      | cons b l' => cases mem_of_filter_key_eq key (h (key b)).symm List.mem_cons_self
  | cons a l ih =>
      cases l' with
      | nil => cases mem_of_filter_key_eq key (h (key a)) List.mem_cons_self
      | cons b l' =>
          obtain ⟨ha, hrest⟩ := List.pairwise_cons.mp hl
          obtain ⟨hb, hrest'⟩ := List.pairwise_cons.mp hl'
          have ha' : a ∈ b :: l' := mem_of_filter_key_eq key (h (key a)) List.mem_cons_self
          have hb' : b ∈ a :: l := mem_of_filter_key_eq key (h (key b)).symm List.mem_cons_self
          -- Both lists begin with the least key, and so with the first element of that key.
          have hkey : key b = key a := by
            apply Nat.le_antisymm
            · rcases List.mem_cons.mp ha' with rfl | ha'
              · exact Nat.le_refl _
              · exact hb a ha'
            · rcases List.mem_cons.mp hb' with rfl | hb'
              · exact Nat.le_refl _
              · exact ha b hb'
          have hfirst := h (key a)
          simp only [List.filter_cons, hkey, decide_true, if_true, List.cons.injEq] at hfirst
          obtain rfl := hfirst.1
          rw [ih hrest hrest' fun k => ?_]
          have hk := h k
          simp only [List.filter_cons] at hk
          split at hk
          · exact (List.cons.inj hk).2
          · exact hk

/-- Lists with distinct keys are sorted by them into one list exactly when they have the same
elements. -/
theorem mergeSort_key_eq_iff_perm {l l' : List α} (hl : (l.map key).Nodup) :
    (l'.mergeSort fun a b => decide (key a ≤ key b))
        = (l.mergeSort fun a b => decide (key a ≤ key b))
      ↔ l'.Perm l := by
  have hperm : ∀ l : List α, (l.mergeSort fun a b => decide (key a ≤ key b)).Perm l :=
    fun l => List.mergeSort_perm l _
  constructor
  · intro heq
    exact (hperm l').symm.trans (heq ▸ hperm l)
  · intro h
    refine List.Perm.eq_of_pairwise ?_ (pairwise_mergeSort_key key l')
      (pairwise_mergeSort_key key l) ((hperm l').trans (h.trans (hperm l).symm))
    intro a b ha hb hab hba
    have ha' : a ∈ l := h.mem_iff.mp ((hperm l').mem_iff.mp ha)
    exact List.inj_on_of_nodup_map hl ha' ((hperm l).mem_iff.mp hb) (Nat.le_antisymm hab hba)

end TilePuzzle
