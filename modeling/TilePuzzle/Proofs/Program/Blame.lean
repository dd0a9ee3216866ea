import Mathlib.Order.Bounds.Basic
import TilePuzzle.Proofs.Program.Matching

/-!
# Which block is to blame

`Program.build` stops at the first descriptor that is at fault: the catalogue refuses it, or it is an
`end if` with no `if` open. Whether an `if` before it stays open makes no difference then. Only when
every descriptor has been read are the open `if`s looked at, and the one opened last is blamed.

All of this is said here without the list of open `if`s that `Program.build` keeps. An `if` is open
behind some commands when none of them is its `end if` (`LeftOpen`), the descriptors before another
one decide whether that one is at fault (`AtFault`), and `Blamed` puts the errors in their order.

The front part of a list that builds has no fault. It fails when it keeps an `if` without its `end
if`, and then for the last one that it keeps so (`build_take`). An `end if` that is left out together
with its `if` is not missed, so to leave out an `end if` is no reason to fail (`not_every_cut_fails`).

The main statement is `build_blames`.
-/

namespace TilePuzzle

namespace Program

variable {c : Catalogue} {ds front back : List Descriptor} {descriptor : Descriptor} {e : BuildError}
  {cs : List Command} {command : Command} {p : Program} {i j n start index : Nat}

/-- The commands that the descriptors describe; one that is refused describes none. -/
def described (c : Catalogue) (ds : List Descriptor) : List Command :=
  ds.filterMap fun d => (c.build d).toOption

/-- On line `i` of the commands `cs` is an `if` that none of them closes. -/
structure LeftOpen (cs : List Command) (i : Nat) : Prop where
  opens : (({ commands := cs } : Program).command? i).any Command.opens = true
  unpaired : ∀ j, ¬Paired { commands := cs } i j

/-- Behind the descriptors `front`, a descriptor is at fault with an error. -/
inductive AtFault (c : Catalogue) (front : List Descriptor) : Descriptor → BuildError → Prop
  | refused {d e} : c.build d = .error e → AtFault c front d e
  | unmatched {d} : c.build d = .ok .endBranch → (∀ i, ¬LeftOpen (described c front) i) →
      AtFault c front d (.unmatchedEndIf d.index)

/-- No descriptor is at fault. -/
def Flawless (c : Catalogue) (ds : List Descriptor) : Prop :=
  AllFine (fun front d => ∀ e, ¬AtFault c front d e) ds

/-- The error that descriptors in the order of their lines have: that of the first one at fault, or
else the innermost `if` that is left open. -/
inductive Blamed (c : Catalogue) (ds : List Descriptor) : BuildError → Prop
  | first {front d back e} : ds = front ++ d :: back → Flawless c front → AtFault c front d e →
      Blamed c ds e
  | innermost {i d} : Flawless c ds → IsGreatest { i | LeftOpen (described c ds) i } i →
      ds[i - 1]? = some d → Blamed c ds (.unmatchedIf d.index)

/-- The first `n` lines of `p` keep the `if` on line `i`, but not its `end if`. -/
def Severed (p : Program) (n i : Nat) : Prop := i ≤ n ∧ ∃ j, p.jump? i = some j ∧ n < j

theorem described_eq (h : ds.map c.build = cs.map .ok) : described c ds = cs := by
  calc described c ds
      = (ds.map c.build).filterMap Except.toOption := by
        rw [List.filterMap_map]
        rfl
    _ = cs.filterMap some := by
        rw [h, List.filterMap_map]
        rfl
    _ = cs := List.filterMap_some

/-! ## Open `if`s -/

namespace Draft

variable {d d' : Draft}

theorem Sound.mem_opened (h : d.Sound) (hi : LeftOpen d.program.commands i) :
    i ∈ d.opened.map (·.1) := by
  rcases h.keyed hi.opens with hmem | ⟨j, hj⟩
  · exact hmem
  · have hpair := h.paired hj
    exact absurd ⟨hpair.opens, hpair.closes, hpair.lt, hpair.inside⟩ (hi.unpaired j)

/-- Of the `if`s that are left open, the one in front of the list is the innermost one. -/
theorem Sound.isGreatest_start (h : d.Sound) {opened : List (Nat × Nat)}
    (ho : d.opened = (start, index) :: opened) :
    IsGreatest { i | LeftOpen d.program.commands i } start := by
  refine ⟨⟨(h.innermost ho).1, fun j hpair => ?_⟩, fun i hi => ?_⟩
  · exact h.not_paired_innermost (j := j) ho
      ⟨hpair.opens, hpair.closes, hpair.lt, hpair.inside⟩
  · have hpending := h.pending
    have hmem := h.mem_opened hi
    rw [ho, List.map_cons] at hpending hmem
    exact hpending.le_start hmem

/-- What a command adds to the list of open `if`s is its own line, with the index it was read from.
-/
theorem mem_opened_of_add (hadd : d.add index command = .ok d') {o : Nat × Nat}
    (ho : o ∈ d'.opened) : o ∈ d.opened ∨ o = (d.program.length + 1, index) := by
  rcases command.kinds with ⟨direction, condition, rfl⟩ | rfl | ⟨hopens, hcloses⟩
  · cases hadd
    exact (List.mem_cons.mp ho).symm
  · cases hopened : d.opened with
    | nil =>
        rw [Draft.add, hopened] at hadd
        cases hadd
    | cons o' opened =>
        rw [Draft.add, hopened] at hadd
        cases hadd
        exact .inl (List.mem_cons_of_mem _ ho)
  · rw [Draft.add_plain hopens hcloses] at hadd
    cases hadd
    exact .inl ho

/-- The draft is what has been read from the descriptors `front`. -/
structure ReadFrom (c : Catalogue) (front : List Descriptor) (d : Draft) : Prop where
  sound : d.Sound
  commands : front.map c.build = d.program.commands.map .ok
  /-- With the line of each open `if` goes the index of the descriptor on this line. -/
  opened : ∀ o ∈ d.opened, ∃ descriptor, front[o.1 - 1]? = some descriptor ∧ descriptor.index = o.2

namespace ReadFrom

theorem empty : ReadFrom c [] {} := ⟨.empty, rfl, nofun⟩

variable (h : d.ReadFrom c front)

include h

theorem described_eq : described c front = d.program.commands := Program.described_eq h.commands

theorem length_eq : front.length = d.program.length := by
  have hlength := congrArg List.length h.commands
  rwa [List.length_map, List.length_map] at hlength

theorem add (hcommand : c.build descriptor = .ok command)
    (hadd : d.add descriptor.index command = .ok d') :
    d'.ReadFrom c (front ++ [descriptor]) where
  sound := (h.sound.add hadd).1
  commands := by
    rw [(h.sound.add hadd).2, List.map_append, List.map_append, h.commands, List.map_singleton,
      List.map_singleton, hcommand]
  opened := by
    intro o ho
    rcases mem_opened_of_add hadd ho with ho | rfl
    · obtain ⟨descriptor', hdescriptor, hindex⟩ := h.opened o ho
      have hlt := (List.getElem?_eq_some_iff.mp hdescriptor).1
      exact ⟨descriptor', by rw [List.getElem?_append_left hlt, hdescriptor], hindex⟩
    · refine ⟨descriptor, ?_, rfl⟩
      rw [Nat.add_sub_cancel, ← h.length_eq, List.getElem?_concat_length]

/-- A descriptor that is not at fault is read. -/
theorem add_of_fine (hfine : ∀ e, ¬AtFault c front descriptor e) :
    ∃ d', c.build descriptor >>= d.add descriptor.index = .ok d' ∧
      d'.ReadFrom c (front ++ [descriptor]) := by
  cases hcommand : c.build descriptor with
  | error e => exact absurd (.refused hcommand) (hfine e)
  | ok command =>
      obtain ⟨d', hadd⟩ : ∃ d', d.add descriptor.index command = .ok d' := by
        rcases command.kinds with ⟨direction, condition, rfl⟩ | rfl | ⟨hopens, hcloses⟩
        · exact ⟨_, rfl⟩
        · -- Unless an `if` were open, this `end if` would be at fault.
          obtain ⟨i, hi⟩ : ∃ i, LeftOpen (described c front) i := by
            by_contra hnone
            exact hfine _ (.unmatched hcommand (not_exists.mp hnone))
          rw [h.described_eq] at hi
          have hmem := h.sound.mem_opened hi
          cases ho : d.opened with
          | nil =>
              rw [ho] at hmem
              cases hmem
          | cons o opened => exact ⟨_, by rw [Draft.add, ho]⟩
        · exact ⟨_, Draft.add_plain hopens hcloses⟩
      exact ⟨d', hadd, h.add hcommand hadd⟩

/-- A descriptor that is at fault ends the reading. -/
theorem add_of_fault (hfault : AtFault c front descriptor e) :
    c.build descriptor >>= d.add descriptor.index = .error e := by
  cases hfault with
  | refused hrefused =>
      rw [hrefused]
      rfl
  | unmatched hcommand hnone =>
      rw [hcommand]
      show d.add descriptor.index .endBranch = _
      cases ho : d.opened with
      | nil => rw [Draft.add, ho]
      | cons o opened =>
          have hopen := (h.sound.isGreatest_start ho).1
          rw [Set.mem_ofPred_eq, ← h.described_eq] at hopen
          exact absurd hopen (hnone o.1)

end ReadFrom

end Draft

/-! ## The first fault -/

theorem build_of_fault (hcut : order ds = front ++ descriptor :: back) (hfront : Flawless c front)
    (hfault : AtFault c front descriptor e) : build c ds = .error e := by
  have hassemble : assemble c (order ds) {} = .error e :=
    foldlM_of_firstFault (I := Draft.ReadFrom c) Draft.ReadFrom.empty
      (fun _ _ _ _ _ h hfine => h.add_of_fine hfine) hcut hfront fun _ h => h.add_of_fault hfault
  rw [build, hassemble]
  rfl

/-- Without a fault, all depends on the `if`s that are left open. -/
theorem build_of_flawless (h : Flawless c (order ds)) :
    ((∀ i, ¬LeftOpen (described c (order ds)) i) ∧ ∃ p, build c ds = .ok p) ∨
      ∃ i d, IsGreatest { i | LeftOpen (described c (order ds)) i } i ∧
        (order ds)[i - 1]? = some d ∧ build c ds = .error (.unmatchedIf d.index) := by
  obtain ⟨d, hassemble, hread⟩ :
      ∃ d : Draft, assemble c (order ds) {} = .ok d ∧ d.ReadFrom c (order ds) :=
    foldlM_of_allFine (I := Draft.ReadFrom c) Draft.ReadFrom.empty
      (fun _ _ _ _ _ h hfine => h.add_of_fine hfine) h
  have hbuild : build c ds = d.finish := by
    rw [build, hassemble]
    rfl
  rw [hbuild, hread.described_eq]
  cases ho : d.opened with
  | nil =>
      refine .inl ⟨fun i hi => ?_, d.program, Draft.finish_eq_ok_iff.mpr ⟨ho, rfl⟩⟩
      have hmem := hread.sound.mem_opened hi
      rw [ho] at hmem
      cases hmem
  | cons o opened =>
      obtain ⟨start, index⟩ := o
      obtain ⟨descriptor, hdescriptor, rfl⟩ := hread.opened (start, index) (by rw [ho]; simp)
      exact .inr ⟨start, descriptor, hread.sound.isGreatest_start ho, hdescriptor,
        by rw [Draft.finish, ho]⟩

theorem flawless_of_build (h : build c ds = .ok p) : Flawless c (order ds) := by
  by_contra hflaw
  obtain ⟨front, d, back, hcut, hfront, hfault⟩ := exists_first_of_not_allFine hflaw
  obtain ⟨e, he⟩ := not_forall_not.mp hfault
  rw [build_of_fault hcut hfront he] at h
  cases h

theorem build_eq_error_iff : build c ds = .error e ↔ Blamed c (order ds) e := by
  constructor
  · intro herror
    by_cases hflawless : Flawless c (order ds)
    · rcases build_of_flawless hflawless with ⟨-, p, hp⟩ | ⟨i, d, hi, hd, hbuild⟩
      · rw [hp] at herror
        cases herror
      · rw [hbuild] at herror
        cases herror
        exact .innermost hflawless hi hd
    · obtain ⟨front, d, back, hcut, hfront, hfault⟩ := exists_first_of_not_allFine hflawless
      obtain ⟨e', he'⟩ := not_forall_not.mp hfault
      rw [build_of_fault hcut hfront he'] at herror
      cases herror
      exact .first hcut hfront he'
  · intro hblamed
    cases hblamed with
    | first hcut hfront hfault => exact build_of_fault hcut hfront hfault
    | innermost hflawless hi hd =>
        rcases build_of_flawless hflawless with ⟨hnone, -⟩ | ⟨i', d', hi', hd', hbuild⟩
        · exact absurd hi.1 (hnone _)
        · obtain rfl := hi.unique hi'
          rw [hd, Option.some.injEq] at hd'
          rw [hbuild, hd']

theorem exists_build_iff : (∃ p, build c ds = .ok p) ↔
    Flawless c (order ds) ∧ ∀ i, ¬LeftOpen (described c (order ds)) i := by
  constructor
  · rintro ⟨p, hp⟩
    have hflawless := flawless_of_build hp
    rcases build_of_flawless hflawless with ⟨hnone, -⟩ | ⟨i, d, -, -, hbuild⟩
    · exact ⟨hflawless, hnone⟩
    · rw [hp] at hbuild
      cases hbuild
  · rintro ⟨hflawless, hnone⟩
    rcases build_of_flawless hflawless with ⟨-, hok⟩ | ⟨i, d, hi, -, -⟩
    · exact hok
    · exact absurd hi.1 (hnone i)

/-! ## Parts of a program -/

theorem command?_take (hi : i ≤ n) :
    ({ commands := p.commands.take n } : Program).command? i = p.command? i := by
  unfold command?
  split
  · rfl
  · exact List.getElem?_take_of_lt (by omega)

theorem paired_take :
    Paired { commands := p.commands.take n } i j ↔ p.Paired i j ∧ j ≤ n := by
  have hbetween : j ≤ n →
      ({ commands := p.commands.take n } : Program).between i j = p.between i j := by
    intro hj
    rw [between, between, List.take_take, Nat.min_eq_left (by omega)]
  constructor
  · intro h
    have hj := (bounds_of_any h.closes).2
    rw [length, List.length_take] at hj
    have hjn : j ≤ n := by omega
    have hin : i ≤ n := Nat.le_trans (Nat.le_of_lt h.lt) hjn
    refine ⟨⟨?_, ?_, h.lt, ?_⟩, hjn⟩
    · rw [← command?_take hin]
      exact h.opens
    · rw [← command?_take hjn]
      exact h.closes
    · rw [← hbetween hjn]
      exact h.inside
  · rintro ⟨h, hjn⟩
    have hin : i ≤ n := Nat.le_trans (Nat.le_of_lt h.lt) hjn
    refine ⟨?_, ?_, h.lt, ?_⟩
    · rw [command?_take hin]
      exact h.opens
    · rw [command?_take hjn]
      exact h.closes
    · rw [hbetween hjn]
      exact h.inside

/-- The first lines of a built program leave those `if`s open whose `end if`s come later. -/
theorem leftOpen_take_iff (h : Draft.Sound { program := p }) :
    LeftOpen (p.commands.take n) i ↔ p.Severed n i := by
  constructor
  · intro hi
    have hin := (bounds_of_any hi.opens).2
    rw [length, List.length_take] at hin
    have hopens := hi.opens
    rw [command?_take (by omega)] at hopens
    obtain hopen | ⟨j, hj⟩ := h.keyed hopens
    · cases hopen
    · refine ⟨by omega, j, hj, ?_⟩
      by_contra hjn
      exact hi.unpaired j (paired_take.mpr ⟨h.paired hj, Nat.le_of_not_lt hjn⟩)
  · rintro ⟨hin, j, hj, hnj⟩
    have hpair : p.Paired i j := h.paired hj
    refine ⟨?_, fun j' hpair' => ?_⟩
    · rw [command?_take hin]
      exact hpair.opens
    · obtain ⟨hpair', hj'⟩ := paired_take.mp hpair'
      have hsame := hpair.right_unique hpair'
      omega

/-- The front part of a list that builds fails if it keeps an `if` without its `end if`. -/
theorem build_take (h : build c ds = .ok p) (hsevered : ∃ i, p.Severed n i) :
    ∃ i d, IsGreatest { i | p.Severed n i } i ∧ (order ds)[i - 1]? = some d ∧
      build c ((order ds).take n) = .error (.unmatchedIf d.index) := by
  obtain ⟨hsound, hcommands⟩ := sound_of_build h
  have horder : order ((order ds).take n) = (order ds).take n :=
    order_of_pairwise ((inLineOrder_order ds).ascending.sublist (List.take_sublist n _))
  have hflawless : Flawless c (order ((order ds).take n)) := by
    have hall := flawless_of_build h
    rw [← List.take_append_drop n (order ds)] at hall
    rw [horder]
    exact AllFine.of_append hall
  have hdescribed : described c (order ((order ds).take n)) = p.commands.take n := by
    rw [horder]
    exact described_eq (by rw [List.map_take, hcommands, List.map_take])
  have hopen : { i | LeftOpen (described c (order ((order ds).take n))) i }
      = { i | p.Severed n i } := by
    rw [hdescribed]
    exact Set.ext fun i => leftOpen_take_iff hsound
  rcases build_of_flawless hflawless with ⟨hnone, -⟩ | ⟨i, d, hi, hd, hbuild⟩
  · obtain ⟨i, hi⟩ := hsevered
    have hi' : i ∈ { i | p.Severed n i } := hi
    rw [← hopen] at hi'
    exact absurd hi' (hnone i)
  · rw [hopen] at hi
    rw [horder, List.getElem?_take] at hd
    split at hd
    · exact ⟨i, d, hi, hd, hbuild⟩
    · cases hd

/-! ## Who is blamed -/

/-- When the descriptors build, and what is reported if they do not. -/
structure Blames (c : Catalogue) (ds : List Descriptor) : Prop where
  lines : InLineOrder ds (order ds)
  ok_iff : (∃ p, build c ds = .ok p) ↔
    Flawless c (order ds) ∧ ∀ i, ¬LeftOpen (described c (order ds)) i
  error_iff : ∀ e, build c ds = .error e ↔ Blamed c (order ds) e
  /-- Of a list that builds, the first lines fail for the last `if` that they keep without its `end
  if`. -/
  severed : ∀ p n, build c ds = .ok p → (∃ i, p.Severed n i) →
    ∃ i d, IsGreatest { i | p.Severed n i } i ∧ (order ds)[i - 1]? = some d ∧
      build c ((order ds).take n) = .error (.unmatchedIf d.index)

/-- Every list of descriptors that does not build fails for the first descriptor at fault, whatever
is open then, and if there is none, for the innermost `if` that is left open. -/
theorem build_blames (c : Catalogue) (ds : List Descriptor) : Blames c ds where
  lines := inLineOrder_order ds
  ok_iff := exists_build_iff
  error_iff := fun _ => build_eq_error_iff
  severed := fun _ _ => build_take

/-- The first block is never closed, but the second one is at fault. -/
example : build signs [{ index := 1, type := "(" }, { index := 2, type := "?" }]
    = .error (.unknownType 2 "?") := by
  rw [build, order_of_pairwise (by decide)]
  rfl

/-- A plain command and a pair behind it. -/
def pairAtEnd : List Descriptor :=
  [{ index := 1, type := "^" }, { index := 2, type := "(" }, { index := 3, type := ")" }]

/-- The first lines of a list that builds need not fail when an `end if` is among the other ones. -/
theorem not_every_cut_fails :
    ¬∀ (c : Catalogue) (ds : List Descriptor) (p : Program) (n : Nat), build c ds = .ok p →
      (∃ j, n < j ∧ (p.command? j).any Command.closes = true) →
      ∃ index, build c ((order ds).take n) = .error (.unmatchedIf index) := by
  intro h
  have horder : order pairAtEnd = pairAtEnd := order_of_pairwise (by decide)
  have hbuild : build signs pairAtEnd = .ok {
      commands := [.pickUp, .branch .here .block, .endBranch]
      jumps := .ofList [(2, 3)]
      endLines := [3] } := by
    rw [build, horder]
    rfl
  -- The pair is left out as a whole, so the plain command is a program.
  have hfront : build signs (pairAtEnd.take 1) = .ok { commands := [.pickUp] } := by
    rw [build, order_of_pairwise (by decide)]
    rfl
  obtain ⟨index, hfails⟩ := h signs pairAtEnd _ 1 hbuild ⟨3, by decide, by decide⟩
  rw [horder, hfront] at hfails
  cases hfails

end Program

end TilePuzzle
