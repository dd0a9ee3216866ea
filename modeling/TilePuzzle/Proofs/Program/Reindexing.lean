import Mathlib.Order.Monotone.Defs
import TilePuzzle.Proofs.Program.Matching

/-!
# Only the order of the indices matters

An author gives each block an index, and the list of blocks comes in any order. `Program.build` uses
the indices to sort the list and to name the block at fault, and for nothing else.

So descriptors with other indices in the same relative order build the same program, and if they fail,
then for the same reason at the block that has the other index now (`build_reindex`). A draft keeps
the indices of the open `if`s, so it changes as well, but each step does the same with it
(`Draft.add_reindex`). How the list comes makes no difference unless descriptors share an index
(`build_of_perm`), and those stay as they are listed.

The main statement is `build_onlyOrder`.
-/

namespace TilePuzzle

/-- The descriptor with another index. -/
def Descriptor.reindex (f : Nat → Nat) (d : Descriptor) : Descriptor :=
  { d with index := f d.index }

/-- The error with another index of the block at fault. -/
def BuildError.reindex (f : Nat → Nat) : BuildError → BuildError
  | unknownType index type => unknownType (f index) type
  | invalidParameters index type reason => invalidParameters (f index) type reason
  | unmatchedIf index => unmatchedIf (f index)
  | unmatchedEndIf index => unmatchedEndIf (f index)

variable {c : Catalogue} {f : Nat → Nat}

/-- The command does not depend on the index. -/
theorem Catalogue.build_reindex (c : Catalogue) (f : Nat → Nat) (d : Descriptor) :
    c.build (d.reindex f) = (c.build d).mapError (·.reindex f) := by
  have hparameters : (d.reindex f).parameters = d.parameters := rfl
  unfold Catalogue.build
  rw [hparameters]
  cases hfind : c.find? d.type with
  | none =>
      simp only [Descriptor.reindex, hfind]
      rfl
  | some type =>
      simp only [Descriptor.reindex, hfind]
      cases type.required.filter (!d.parameters.contains ·) with
      | cons key keys => rfl
      | nil => cases type.read d.parameters <;> rfl

namespace Program

variable {ds ds' : List Descriptor} {d : Draft} {command : Command} {index : Nat}

/-- The draft with other indices of the open `if`s. -/
def Draft.reindex (f : Nat → Nat) (d : Draft) : Draft :=
  { d with opened := d.opened.map fun o => (o.1, f o.2) }

/-- The draft, or the error, with other indices. -/
def reindexed (f : Nat → Nat) : Except BuildError Draft → Except BuildError Draft
  | .ok d => .ok (d.reindex f)
  | .error e => .error (e.reindex f)

theorem Draft.add_reindex :
    (d.reindex f).add (f index) command = reindexed f (d.add index command) := by
  cases command with
  | endBranch =>
      obtain ⟨program, opened⟩ := d
      cases opened with
      | nil => rfl
      | cons o opened => rfl
  | move | pickUp | drop | arithmetic | branch => rfl

theorem assemble_reindex :
    assemble c (ds.map (·.reindex f)) (d.reindex f) = reindexed f (assemble c ds d) := by
  induction ds generalizing d with
  | nil => rfl
  | cons descriptor ds ih =>
      unfold assemble at ih ⊢
      rw [List.map_cons, List.foldlM_cons, List.foldlM_cons, Catalogue.build_reindex]
      cases c.build descriptor with
      | error e => rfl
      | ok command =>
          show (d.reindex f).add (f descriptor.index) command >>= _
            = reindexed f (d.add descriptor.index command >>= _)
          rw [Draft.add_reindex]
          cases d.add descriptor.index command with
          | error e => rfl
          | ok d' => exact ih

theorem Draft.finish_reindex : (d.reindex f).finish = d.finish.mapError (·.reindex f) := by
  obtain ⟨program, opened⟩ := d
  cases opened <;> rfl

/-- Sorting sees nothing of the indices but their order. -/
theorem order_reindex (hf : StrictMonoOn f { index | index ∈ ds.map (·.index) }) :
    order (ds.map (·.reindex f)) = (order ds).map (·.reindex f) := by
  refine (List.map_mergeSort fun a ha b hb => ?_).symm
  have hle : f a.index ≤ f b.index ↔ a.index ≤ b.index :=
    hf.le_iff_le (List.mem_map_of_mem ha) (List.mem_map_of_mem hb)
  exact (decide_eq_decide.mpr hle).symm

theorem build_reindex (hf : StrictMonoOn f { index | index ∈ ds.map (·.index) }) :
    build c (ds.map (·.reindex f)) = (build c ds).mapError (·.reindex f) := by
  have hassemble : assemble c ((order ds).map (·.reindex f)) {}
      = reindexed f (assemble c (order ds) {}) := assemble_reindex (d := {})
  rw [build, order_reindex hf, hassemble, build]
  cases assemble c (order ds) {} with
  | error e => rfl
  | ok d => exact Draft.finish_reindex

theorem build_of_perm (hindices : (ds.map (·.index)).Nodup) (h : ds'.Perm ds) :
    build c ds' = build c ds := by
  have horder : order ds' = order ds :=
    (mergeSort_key_eq_iff_perm Descriptor.index hindices).mpr h
  rw [build, horder, build]

/-- What `Program.build` makes of the indices of the descriptors, and of the order in which they are
listed. -/
structure OnlyOrder (c : Catalogue) (ds : List Descriptor) : Prop where
  /-- Descriptors with distinct indices may be listed in any order. -/
  listed : (ds.map (·.index)).Nodup → ∀ ds' : List Descriptor, ds'.Perm ds →
    build c ds' = build c ds
  /-- Other indices in the same order make a difference only to the index that an error names. -/
  reindexed : ∀ f : Nat → Nat, StrictMonoOn f { index | index ∈ ds.map (·.index) } →
    build c (ds.map (·.reindex f)) = (build c ds).mapError (·.reindex f)
  /-- The lines ascend by index, and descriptors of one index stay as they are listed. -/
  lines : ∀ ordered, InLineOrder ds ordered ↔ ordered = order ds
  commands : ∀ p, build c ds = .ok p → (order ds).map c.build = p.commands.map .ok

/-- The program depends on the indices through their order alone. -/
theorem build_onlyOrder (c : Catalogue) (ds : List Descriptor) : OnlyOrder c ds where
  listed := fun hindices _ h => build_of_perm hindices h
  reindexed := fun _ hf => build_reindex hf
  lines := by
    intro ordered
    constructor
    · exact InLineOrder.eq_order
    · rintro rfl
      exact inLineOrder_order ds
  commands := fun _ h => (sound_of_build h).2

/-- The indices of `nest` with room between them. -/
example : build signs (nest.map (·.reindex (10 * ·))) = .ok nested := by
  rw [build_reindex (fun i _ j _ (h : i < j) => show 10 * i < 10 * j by omega), build_nest]
  rfl

end Program

end TilePuzzle
