import TilePuzzle.Proofs.Except
import TilePuzzle.Proofs.Program.Pairing

/-!
# Building programs

`Program.build` keeps a list of the open `if`s, a table of jumps and a list of the closed lines in
step. The invariant that carries it, `Draft.Sound`, says what they are at any time: the open `if`s
are those that the commands so far leave open (`Pending`), and the rest is paired in the table.

A draft that is sound refuses a command only where no continuation is balanced, so exactly the
balanced lists are built (`sound_of_build`, `build_ok`).
-/

namespace TilePuzzle

/-- Of the commands `cs`, which begin on line 1, the `if`s on the lines `starts` are open, the
innermost first. -/
inductive Pending : List Command → List Nat → Prop
  | closed {cs T} : Nesting 1 cs T → Pending cs []
  | opened {cs starts direction condition body B} : Pending cs starts →
      Nesting (cs.length + 2) body B →
      Pending (cs ++ .branch direction condition :: body) ((cs.length + 1) :: starts)

namespace Pending

variable {cs ds : List Command} {starts : List Nat} {start : Nat} {T : List Statement}

theorem append (h : Pending cs starts) (hds : Nesting (cs.length + 1) ds T) :
    Pending (cs ++ ds) starts := by
  induction h with
  | closed hcs =>
      rw [Nat.add_comm] at hds
      exact .closed (hcs.append hds)
  | @opened cs starts direction condition body B hcs hbody _ =>
      have hlength : (cs ++ .branch direction condition :: body).length + 1
          = cs.length + 2 + body.length := by
        simp only [List.length_append, List.length_cons]
        omega
      rw [hlength] at hds
      rw [List.append_assoc, List.cons_append]
      exact .opened hcs (hbody.append hds)

/-- What follows the innermost open `if` is balanced; an `end if` closes it. -/
theorem close (h : Pending cs (start :: starts)) :
    (∃ n direction condition, start = n + 1 ∧ cs[n]? = some (.branch direction condition)) ∧
      Balanced (cs.drop start) ∧ Pending (cs ++ [.endBranch]) starts := by
  cases h with
  | @opened cs starts direction condition body B hcs hbody =>
      refine ⟨⟨cs.length, direction, condition, rfl, ?_⟩, ?_, ?_⟩
      · rw [List.getElem?_append_right (Nat.le_refl _), Nat.sub_self]
        rfl
      · rw [← List.drop_drop, List.drop_left]
        exact hbody.balanced
      · rw [List.append_assoc, List.cons_append]
        exact hcs.append (.branch hbody .nil)

theorem le_length (h : Pending cs starts) {i : Nat} (hi : i ∈ starts) : i ≤ cs.length := by
  induction h with
  | closed _ => cases hi
  | opened _ _ ih =>
      rw [List.length_append, List.length_cons]
      rcases List.mem_cons.mp hi with rfl | hi
      · omega
      · have hle := ih hi
        omega

/-- The innermost open `if` is on the last of their lines. -/
theorem le_start (h : Pending cs (start :: starts)) {i : Nat} (hi : i ∈ start :: starts) :
    i ≤ start := by
  cases h with
  | opened hcs _ =>
      rcases List.mem_cons.mp hi with rfl | hi
      · exact Nat.le_refl _
      · exact Nat.le_succ_of_le (hcs.le_length hi)

/-- Commands that leave no `if` open have a tree. -/
theorem nesting (h : Pending cs []) : ∃ T, Nesting 1 cs T := by
  cases h with
  | closed hT => exact ⟨_, hT⟩

theorem height_eq (h : Pending cs starts) : height cs = starts.length := by
  induction h with
  | closed hcs => exact (balanced_iff_height.mp hcs.balanced).2
  | opened _ hbody ih =>
      rw [height_append, height_branch_cons, (balanced_iff_height.mp hbody.balanced).2, ih]
      simp

end Pending

namespace Program

variable {c : Catalogue} {ds : List Descriptor} {cs : List Command} {p : Program}
  {command : Command} {i j index start : Nat}

/-! ## Drafts -/

namespace Draft

variable {d d' : Draft}

/-- The program so far with one more command. -/
def push (p : Program) (command : Command) : Program :=
  { p with commands := p.commands ++ [command] }

theorem add_plain (ho : command.opens = false) (hc : command.closes = false) :
    d.add index command = .ok { d with program := push d.program command } := by
  cases command with
  | branch => cases ho
  | endBranch => cases hc
  | move | pickUp | drop | arithmetic => rfl

/-- The tables of a draft say what its commands say. -/
structure Sound (d : Draft) : Prop where
  pending : Pending d.program.commands (d.opened.map (·.1))
  paired : ∀ {i j}, d.program.jump? i = some j → d.program.Paired i j
  /-- An `if` is open or in the table. -/
  keyed : ∀ {i}, (d.program.command? i).any Command.opens = true →
    i ∈ d.opened.map (·.1) ∨ ∃ j, d.program.jump? i = some j
  valued : ∀ {j}, (d.program.command? j).any Command.closes = true → ∃ i, d.program.jump? i = some j
  endLines : d.program.endLines = d.program.linesWith Command.closes

namespace Sound

theorem empty : Sound {} where
  pending := .closed .nil
  paired := by
    intro i j h
    cases h
  keyed := by
    intro i h
    rw [command?_eq_none_iff.mpr (by show i = 0 ∨ 0 < i; omega)] at h
    cases h
  valued := by
    intro j h
    rw [command?_eq_none_iff.mpr (by show j = 0 ∨ 0 < j; omega)] at h
    cases h
  endLines := rfl

/-- A command of another kind on the last line adds no line of the kind `q`. -/
theorem any_push {q : Command → Bool} (hq : q command = false) :
    ((push p command).command? i).any q = (p.command? i).any q := by
  rw [command?_push (p := p) rfl]
  split
  · next hi =>
      have hnone : p.command? i = none := command?_eq_none_iff.mpr (.inr (by omega))
      rw [hnone, Option.any_some, hq]
      rfl
  · rfl

theorem add_plain (h : d.Sound) (ho : command.opens = false) (hc : command.closes = false) :
    Sound { d with program := push d.program command } where
  pending := h.pending.append (.leaf ho hc .nil)
  paired := fun hj => (h.paired hj).push rfl
  keyed := by
    intro i hi
    rw [any_push ho] at hi
    exact h.keyed hi
  valued := by
    intro j hj
    rw [any_push hc] at hj
    exact h.valued hj
  endLines := by
    rw [linesWith_push (p := d.program) rfl, hc, ← h.endLines]
    exact (List.append_nil _).symm

theorem add_branch (h : d.Sound) (direction : Direction) (condition : Condition) (index : Nat) :
    Sound {
      program := push d.program (.branch direction condition)
      opened := (d.program.length + 1, index) :: d.opened } where
  pending := .opened h.pending .nil
  paired := fun hj => (h.paired hj).push rfl
  keyed := by
    intro i hi
    rw [command?_push (p := d.program) rfl] at hi
    rw [List.map_cons, List.mem_cons]
    split at hi
    · next heq => exact .inl (.inl heq)
    · exact (h.keyed hi).imp_left .inr
  valued := by
    intro j hj
    rw [any_push rfl] at hj
    exact h.valued hj
  endLines := by
    rw [linesWith_push (p := d.program) rfl, ← h.endLines]
    exact (List.append_nil _).symm

section Close

variable {opened : List (Nat × Nat)} (h : d.Sound) (ho : d.opened = (start, index) :: opened)

include h ho

theorem innermost :
    (d.program.command? start).any Command.opens = true ∧
      Balanced (d.program.commands.drop start) ∧
      Pending (d.program.commands ++ [.endBranch]) (opened.map (·.1)) := by
  have hpending := h.pending
  rw [ho, List.map_cons] at hpending
  obtain ⟨⟨n, direction, condition, rfl, hcommand⟩, hrest⟩ := hpending.close
  refine ⟨?_, hrest⟩
  rw [command?_succ, hcommand]
  rfl

/-- An `end if` on the next line is paired with the innermost open `if`. -/
theorem paired_next (hp : p.commands = d.program.commands ++ [.endBranch]) :
    p.Paired start (d.program.length + 1) := by
  obtain ⟨hopens, hinside, -⟩ := h.innermost ho
  have hstart := bounds_of_any hopens
  refine ⟨?_, ?_, by omega, ?_⟩
  · rw [command?_push hp, if_neg (by omega)]
    exact hopens
  · rw [command?_push hp, if_pos rfl]
    rfl
  · rw [between_push hp (Nat.le_refl _), between, Nat.add_sub_cancel]
    show Balanced ((d.program.commands.take d.program.commands.length).drop start)
    rwa [List.take_length]

/-- The innermost open `if` has no `end if` yet. -/
theorem not_paired_innermost : ¬d.program.Paired start j := by
  -- Its pair would close more than is opened after it.
  intro hpair
  obtain ⟨c, hc, hcloses⟩ := (Option.any_eq_true ..).mp hpair.closes
  obtain ⟨-, hinside, -⟩ := h.innermost ho
  rw [Command.closes_iff] at hcloses
  subst hcloses
  rw [drop_eq_between hc hpair.lt] at hinside
  exact hpair.inside.not_append_endBranch hinside

theorem jump?_innermost : d.program.jump? start = none := by
  rw [Option.eq_none_iff_forall_ne_some]
  intro j hj
  exact h.not_paired_innermost ho (h.paired hj)

theorem add_endBranch :
    Sound {
      program := { push d.program .endBranch with
        jumps := d.program.jumps.insert start (d.program.length + 1)
        endLines := d.program.endLines ++ [d.program.length + 1] }
      opened } where
  pending := (h.innermost ho).2.2
  paired := by
    intro i j hj
    change (d.program.jumps.insert start (d.program.length + 1)).get? i = some j at hj
    rw [SortedMap.get?_insert] at hj
    split at hj
    · next heq =>
        cases heq
        cases hj
        exact h.paired_next ho rfl
    · exact (h.paired hj).push rfl
  keyed := by
    intro i hi
    change ((push d.program .endBranch).command? i).any Command.opens = true at hi
    rw [any_push rfl] at hi
    show _ ∨ ∃ j, (d.program.jumps.insert start (d.program.length + 1)).get? i = some j
    rw [SortedMap.get?_insert]
    -- The `if` that is closed goes from the open ones into the table; the others stay.
    by_cases heq : start = i
    · exact .inr ⟨_, if_pos heq⟩
    · rw [if_neg heq]
      have hold := h.keyed hi
      rw [ho, List.map_cons, List.mem_cons] at hold
      rcases hold with (rfl | hi) | hj
      · exact absurd rfl heq
      · exact .inl hi
      · exact .inr hj
  valued := by
    intro j hj
    change ((push d.program .endBranch).command? j).any Command.closes = true at hj
    rw [command?_push (p := d.program) rfl] at hj
    show ∃ i, (d.program.jumps.insert start (d.program.length + 1)).get? i = some j
    split at hj
    · next heq =>
        refine ⟨start, ?_⟩
        rw [SortedMap.get?_insert, if_pos rfl, heq]
    -- The new entry replaces none, so the old lines keep their keys.
    · obtain ⟨i, hi⟩ := h.valued hj
      refine ⟨i, ?_⟩
      have hne : start ≠ i := by
        rintro rfl
        rw [h.jump?_innermost ho] at hi
        cases hi
      rw [SortedMap.get?_insert, if_neg hne]
      exact hi
  endLines := by
    show d.program.endLines ++ [d.program.length + 1] = (push d.program .endBranch).linesWith _
    rw [linesWith_push (p := d.program) rfl, ← h.endLines]
    rfl

end Close

/-- A sound draft stays sound, and has the command that it was given. -/
theorem add (h : d.Sound) (hadd : d.add index command = .ok d') :
    d'.Sound ∧ d'.program.commands = d.program.commands ++ [command] := by
  rcases command.kinds with ⟨direction, condition, rfl⟩ | rfl | ⟨hopens, hcloses⟩
  · cases hadd
    exact ⟨h.add_branch direction condition index, rfl⟩
  · cases ho : d.opened with
    | nil =>
        rw [Draft.add, ho] at hadd
        cases hadd
    | cons o opened =>
        rw [Draft.add, ho] at hadd
        cases hadd
        exact ⟨h.add_endBranch ho, rfl⟩
  · rw [Draft.add_plain hopens hcloses] at hadd
    cases hadd
    exact ⟨h.add_plain hopens hcloses, rfl⟩

/-- A sound draft refuses a command only where it cannot be balanced any more. -/
theorem add_ok (h : d.Sound) (index : Nat) (hb : Balanced (d.program.commands ++ command :: cs)) :
    ∃ d', d.add index command = .ok d' := by
  rcases command.kinds with ⟨direction, condition, rfl⟩ | rfl | ⟨hopens, hcloses⟩
  · exact ⟨_, rfl⟩
  · cases ho : d.opened with
    | nil =>
        -- All is closed, so one more `end if` closes too much.
        have hpending := h.pending
        rw [ho, List.map_nil] at hpending
        have hbefore := hb.height_before
        rw [hpending.height_eq] at hbefore
        exact absurd hbefore (Int.lt_irrefl 0)
    | cons o opened => exact ⟨_, by rw [Draft.add, ho]⟩
  · exact ⟨_, Draft.add_plain hopens hcloses⟩

/-- Reading descriptors keeps a draft sound. -/
theorem assemble (h : d.Sound) (hd : Program.assemble c ds d = .ok d') :
    d'.Sound ∧
      ∃ cs, ds.map c.build = cs.map .ok ∧ d'.program.commands = d.program.commands ++ cs := by
  induction ds generalizing d with
  | nil =>
      cases hd
      exact ⟨h, [], rfl, (List.append_nil _).symm⟩
  | cons descriptor ds ih =>
      rw [Program.assemble, List.foldlM_cons, bind_eq_ok_iff] at hd
      obtain ⟨d₁, hfirst, hrest⟩ := hd
      obtain ⟨command, hcommand, hadd⟩ := bind_eq_ok_iff.mp hfirst
      obtain ⟨h₁, hcommands⟩ := h.add hadd
      obtain ⟨h', cs, hcs, hcommands'⟩ := ih h₁ hrest
      refine ⟨h', command :: cs, ?_, ?_⟩
      · rw [List.map_cons, List.map_cons, hcommand, hcs]
      · rw [hcommands', hcommands, List.append_assoc]
        rfl

/-- Descriptors whose commands balance the draft can be read. -/
theorem assemble_ok (h : d.Sound) (hcs : ds.map c.build = cs.map .ok)
    (hb : Balanced (d.program.commands ++ cs)) : ∃ d', Program.assemble c ds d = .ok d' := by
  induction ds generalizing d cs with
  | nil => exact ⟨d, rfl⟩
  | cons descriptor ds ih =>
      cases cs with
      | nil => cases hcs
      | cons command cs =>
          rw [List.map_cons, List.map_cons, List.cons.injEq] at hcs
          obtain ⟨hcommand, hcs⟩ := hcs
          obtain ⟨d₁, hadd⟩ := h.add_ok descriptor.index hb
          obtain ⟨h₁, hcommands⟩ := h.add hadd
          have hb₁ : Balanced (d₁.program.commands ++ cs) := by
            rw [hcommands, List.append_assoc]
            exact hb
          obtain ⟨d', hd'⟩ := ih h₁ hcs hb₁
          refine ⟨d', ?_⟩
          rw [Program.assemble, List.foldlM_cons, bind_eq_ok_iff]
          exact ⟨d₁, bind_eq_ok_iff.mpr ⟨command, hcommand, hadd⟩, hd'⟩

end Sound

theorem finish_eq_ok_iff : d.finish = .ok p ↔ d.opened = [] ∧ d.program = p := by
  unfold finish
  split
  · next ho => simp [ho]
  · next ho => simp [ho]

end Draft

/-! ## Built programs -/

/-- A built program is a sound draft without open `if`s, of the commands that the descriptors
describe. -/
theorem sound_of_build (h : build c ds = .ok p) :
    Draft.Sound { program := p } ∧ (order ds).map c.build = p.commands.map .ok := by
  obtain ⟨d, hd, hfinish⟩ := bind_eq_ok_iff.mp h
  obtain ⟨ho, rfl⟩ := Draft.finish_eq_ok_iff.mp hfinish
  obtain ⟨hsound, cs, hcs, hcommands⟩ := Draft.Sound.empty.assemble hd
  obtain ⟨program, opened⟩ := d
  subst ho
  refine ⟨hsound, ?_⟩
  rw [hcs, hcommands]
  rfl

theorem Draft.Sound.nesting (h : Draft.Sound { program := p }) : ∃ T, Nesting 1 p.commands T :=
  Pending.nesting h.pending

theorem Draft.Sound.balanced (h : Draft.Sound { program := p }) : Balanced p.commands := by
  obtain ⟨T, hT⟩ := h.nesting
  exact hT.balanced

/-- The table of jumps leads to the `end if` that belongs to an `if`. -/
theorem Draft.Sound.jump?_eq (hp : Draft.Sound { program := p }) (h : p.Paired i j) :
    p.jump? i = some j := by
  rcases hp.keyed h.opens with hopen | ⟨j', hj'⟩
  · cases hopen
  · rw [h.right_unique (hp.paired hj')]
    exact hj'

theorem Draft.Sound.jump?_eq_some_iff (hp : Draft.Sound { program := p }) :
    p.jump? i = some j ↔ p.Paired i j :=
  ⟨hp.paired, hp.jump?_eq⟩

/-- The commands of a sound program determine its tables. -/
theorem Draft.Sound.eq_of_commands {p' : Program} (hp : Draft.Sound { program := p })
    (hp' : Draft.Sound { program := p' }) (h : p'.commands = p.commands) : p' = p := by
  have hjumps : p'.jumps = p.jumps := SortedMap.ext_get? fun i => Option.ext fun j => by
    show p'.jump? i = some j ↔ p.jump? i = some j
    rw [hp.jump?_eq_some_iff, hp'.jump?_eq_some_iff, paired_congr h]
  have hlines : p'.endLines = p.endLines :=
    hp'.endLines.trans ((linesWith_congr h).trans hp.endLines.symm)
  obtain ⟨commands, jumps, endLines⟩ := p
  obtain ⟨commands', jumps', endLines'⟩ := p'
  cases h
  cases hjumps
  cases hlines
  rfl

/-- Descriptors of balanced commands are built. -/
theorem build_ok (hcs : (order ds).map c.build = cs.map .ok) (hb : Balanced cs) :
    ∃ p, build c ds = .ok p := by
  obtain ⟨d, hd⟩ := Draft.Sound.empty.assemble_ok hcs hb
  obtain ⟨hsound, cs', hcs', hcommands⟩ := Draft.Sound.empty.assemble hd
  have hread : cs' = cs := by
    rw [hcs'] at hcs
    exact List.map_injective_iff.mpr (fun _ _ h => Except.ok.inj h) hcs
  have hheight : height cs = (d.opened.map (·.1)).length := by
    rw [← hsound.pending.height_eq, hcommands, hread]
    rfl
  have hopened : d.opened = [] := by
    rw [(balanced_iff_height.mp hb).2, List.length_map] at hheight
    exact List.length_eq_zero_iff.mp (by omega)
  refine ⟨d.program, ?_⟩
  rw [build, bind_eq_ok_iff]
  exact ⟨d, hd, Draft.finish_eq_ok_iff.mpr ⟨hopened, rfl⟩⟩

end Program

end TilePuzzle
