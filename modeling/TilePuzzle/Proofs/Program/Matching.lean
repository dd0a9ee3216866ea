import Mathlib.Data.List.Sort
import TilePuzzle.Proofs.Program.Build
import TilePuzzle.Proofs.Sorting

/-!
# Building is bracket matching

`Program.build` brings the descriptors into the order of their indices and matches `if`s with `end
if`s. `build_exact` says that it does this and nothing else: it succeeds exactly when every
descriptor describes a command and these commands are balanced, and then the tables of the program
are a `Matching`.
-/

namespace TilePuzzle

namespace Program

variable {c : Catalogue} {ds : List Descriptor} {p : Program}

/-- The descriptors in ascending order of their indices, those of one index as they are listed. -/
structure InLineOrder (ds ordered : List Descriptor) : Prop where
  perm : ordered.Perm ds
  ascending : ordered.Pairwise fun d d' => d.index ≤ d'.index
  stable : ∀ index, ordered.filter (·.index = index) = ds.filter (·.index = index)

/-- The tables of a program pair its `if`s with its `end if`s like brackets. -/
structure Matching (p : Program) : Prop where
  keys : p.jumps.keys = p.linesWith Command.opens
  /-- Each line of an `end if` is the value of one key. -/
  values : (p.jumps.entries.map (·.2)).Perm (p.linesWith Command.closes)
  forward : ∀ e ∈ p.jumps.entries, e.1 < e.2
  inside : ∀ e ∈ p.jumps.entries, Balanced (p.between e.1 e.2)
  /-- Two pairs lie apart, or one is inside the other. -/
  nested : ∀ e ∈ p.jumps.entries, ∀ e' ∈ p.jumps.entries, e.1 < e'.1 → e.2 < e'.1 ∨ e'.2 < e.2
  endLines : p.endLines = p.linesWith Command.closes
  ascending : p.endLines.Pairwise (· < ·)

/-! ## The order of the lines -/

theorem inLineOrder_order (ds : List Descriptor) : InLineOrder ds (order ds) where
  perm := List.mergeSort_perm ds _
  ascending := pairwise_mergeSort_key Descriptor.index ds
  stable := filter_mergeSort_key Descriptor.index ds

/-- There is no other order of the lines. -/
theorem InLineOrder.eq_order {ordered : List Descriptor} (h : InLineOrder ds ordered) :
    ordered = order ds :=
  eq_of_filter_key_eq Descriptor.index (inLineOrder_order ds).ascending h.ascending
    fun index => (h.stable index).trans ((inLineOrder_order ds).stable index).symm

/-- Descriptors that are listed in the order of their lines are read as they are listed. -/
theorem order_of_pairwise {ds : List Descriptor} (h : ds.Pairwise (·.index ≤ ·.index)) :
    order ds = ds :=
  List.mergeSort_of_pairwise (h.imp decide_eq_true)

/-! ## The tables -/

/-- The tables of a sound draft are a matching when no `if` is open. -/
theorem Draft.Sound.matching (h : Draft.Sound { program := p }) : Matching p := by
  have hmem : ∀ {i j}, (i, j) ∈ p.jumps.entries ↔ p.jump? i = some j :=
    SortedMap.get?_eq_some_iff.symm
  have hpaired : ∀ {e}, e ∈ p.jumps.entries → p.Paired e.1 e.2 := fun he => h.paired (hmem.mp he)
  have hkeys : p.jumps.keys.Pairwise (· < ·) := List.pairwise_map.mpr p.jumps.ascending
  have hdistinct : (p.jumps.entries.map (·.2)).Nodup := by
    rw [List.Nodup, List.pairwise_map]
    apply p.jumps.ascending.imp_of_mem
    intro e e' he he' hlt heq
    have hpair' := hpaired he'
    rw [← heq] at hpair'
    have hsame := (hpaired he).left_unique hpair'
    omega
  exact {
    keys := by
      apply hkeys.eq_of_mem_iff (ascending_linesWith p _)
      intro i
      rw [mem_linesWith, SortedMap.keys, List.mem_map]
      constructor
      · rintro ⟨e, he, rfl⟩
        exact (hpaired he).opens
      · intro hi
        obtain hopen | ⟨j, hj⟩ := h.keyed hi
        · cases hopen
        · exact ⟨(i, j), hmem.mpr hj, rfl⟩
    values := by
      refine (List.perm_ext_iff_of_nodup hdistinct ?_).mpr fun j => ?_
      · exact (ascending_linesWith p _).imp Nat.ne_of_lt
      · rw [mem_linesWith, List.mem_map]
        constructor
        · rintro ⟨e, he, rfl⟩
          exact (hpaired he).closes
        · intro hj
          obtain ⟨i, hi⟩ := h.valued hj
          exact ⟨(i, j), hmem.mpr hi, rfl⟩
    forward := fun _ he => (hpaired he).lt
    inside := fun _ he => (hpaired he).inside
    nested := fun _ he _ he' => (hpaired he).nested (hpaired he')
    endLines := h.endLines
    ascending := by
      rw [h.endLines]
      exact ascending_linesWith p _ }

/-- A list of descriptors is built exactly when it describes balanced commands, and then line by
line as described, with matching tables. -/
theorem build_exact (c : Catalogue) (ds : List Descriptor) :
    InLineOrder ds (order ds) ∧
      ((∃ p, build c ds = .ok p) ↔
        ∃ cs, (order ds).map c.build = cs.map .ok ∧ Balanced cs) ∧
      ∀ p, build c ds = .ok p → (order ds).map c.build = p.commands.map .ok ∧ Matching p := by
  refine ⟨inLineOrder_order ds, ⟨?_, ?_⟩, ?_⟩
  · rintro ⟨p, hp⟩
    obtain ⟨hsound, hcommands⟩ := sound_of_build hp
    exact ⟨p.commands, hcommands, hsound.balanced⟩
  · rintro ⟨cs, hcs, hb⟩
    exact build_ok hcs hb
  · intro p hp
    obtain ⟨hsound, hcommands⟩ := sound_of_build hp
    exact ⟨hcommands, hsound.matching⟩

/-- A catalogue with signs for its three types. -/
def signs : Catalogue :=
  ⟨.ofList [("(", ⟨[], fun _ => .ok (.branch .here .block)⟩), (")", ⟨[], fun _ => .ok .endBranch⟩),
    ("^", ⟨[], fun _ => .ok .pickUp⟩)]⟩

/-- One pair inside another one; two descriptors have the same index. -/
def nest : List Descriptor :=
  [{ index := 9, type := ")" }, { index := 4, type := "(" }, { index := 2, type := "(" },
    { index := 4, type := ")" }, { index := 3, type := "^" }]

/-- The program of `nest`. -/
def nested : Program where
  commands := [.branch .here .block, .pickUp, .branch .here .block, .endBranch, .endBranch]
  jumps := .ofList [(1, 5), (3, 4)]
  endLines := [4, 5]

theorem order_nest : order nest =
    [{ index := 2, type := "(" }, { index := 3, type := "^" }, { index := 4, type := "(" },
      { index := 4, type := ")" }, { index := 9, type := ")" }] := by
  simp [order, nest, List.mergeSort, List.MergeSort.Internal.splitInTwo]

theorem build_nest : build signs nest = .ok nested := by
  rw [build, order_nest]
  rfl

theorem build_exact_nest : build signs nest = .ok nested ∧ Matching nested :=
  ⟨build_nest, ((build_exact signs nest).2.2 nested build_nest).2⟩

end Program

end TilePuzzle
