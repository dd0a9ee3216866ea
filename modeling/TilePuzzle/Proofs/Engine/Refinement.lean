import TilePuzzle.Proofs.Engine.Structured
import TilePuzzle.Proofs.Engine.Tick
import TilePuzzle.Proofs.Program.Matching

/-!
# Jumps implement nesting

The engine finds its way through a program by counters and a table of jumps, the structured machine
by lists of statements. They do the same.

What links a counter to a list of statements is `Program.At`: the list is what the lines from the
counter on say. These lines may begin inside of bodies, so they are not balanced; `Continues` is the
`Nesting` of such a rest, in which the `end if`s of the bodies around it are statements of their
own. `At.cases` gives the first statement of the rest and what follows it, on either way; there the
table of jumps comes in. From there on a step of the engine is a step of the machine
(`Simulates.step`), and so are ticks and runs.
-/

namespace TilePuzzle

/-- The commands `cs`, the first of them on `line`, are the statements `K`. An `end if` that closes
an earlier `if` is a statement. -/
inductive Continues : Nat → List Command → List Statement → Prop
  | nil {line} : Continues line [] []
  | leaf {line c cs K} : c.opens = false → Continues (line + 1) cs K →
      Continues line (c :: cs) (.leaf line c :: K)
  | branch {line direction condition body B cs K} : Nesting (line + 1) body B →
      Continues (line + body.length + 2) cs K →
      Continues line (.branch direction condition :: (body ++ .endBranch :: cs))
        (.branch line direction condition B (line + body.length + 1) :: K)

theorem Continues.append {line : Nat} {body cs : List Command} {B K : List Statement}
    (hbody : Nesting line body B) (h : Continues (line + body.length) cs K) :
    Continues line (body ++ cs) (B ++ K) := by
  induction hbody with
  | nil => exact h
  | leaf ho _ _ ih =>
      rw [line_after_cons] at h
      exact .leaf ho (ih h)
  | branch hinner _ _ ih =>
      rw [line_after_pair] at h
      rw [List.cons_append, List.append_assoc]
      exact .branch hinner (ih h)

namespace Program

variable {p : Program} {line i j : Nat} {K : List Statement}

/-- The statements `K` are what `p` says from `line` on. -/
structure At (p : Program) (line : Nat) (K : List Statement) : Prop where
  pos : 0 < line
  le : line ≤ p.finished
  continues : Continues line (p.commands.drop (line - 1)) K

theorem at_one {T : List Statement} (h : Nesting 1 p.commands T) : p.At 1 T := by
  have hcontinues : Continues 1 (p.commands ++ []) (T ++ []) := .append h .nil
  rw [List.append_nil, List.append_nil] at hcontinues
  exact ⟨Nat.one_pos, Nat.succ_le_succ (Nat.zero_le _), hcontinues⟩

theorem of_drop_eq_cons {c : Command} {cs : List Command} {n : Nat}
    (h : p.commands.drop n = c :: cs) :
    p.command? (n + 1) = some c ∧ p.commands.drop (n + 1) = cs := by
  constructor
  · have hfirst : (p.commands.drop n)[0]? = some c := by
      rw [h]
      rfl
    rw [List.getElem?_drop, Nat.add_zero] at hfirst
    rw [command?_succ, hfirst]
  · rw [← List.drop_drop, h]
    rfl

/-- What is left to do is nothing, a command, or an `if` with two ways to go on. -/
theorem At.cases (h : p.At line K) :
    (K = [] ∧ line = p.finished) ∨
      (∃ c rest, K = .leaf line c :: rest ∧ p.command? line = some c ∧ c.opens = false ∧
        p.At (line + 1) rest) ∨
      ∃ direction condition body last rest, K = .branch line direction condition body last :: rest ∧
        p.command? line = some (.branch direction condition) ∧ p.Paired line last ∧
        p.At (line + 1) (body ++ .leaf last .endBranch :: rest) ∧ p.At (last + 1) rest := by
  obtain ⟨hpos, hle, hcontinues⟩ := h
  obtain ⟨n, rfl⟩ := Nat.exists_eq_add_one.mpr hpos
  rw [Nat.add_sub_cancel] at hcontinues
  generalize hcs : p.commands.drop n = cs at hcontinues
  cases hcontinues with
  | nil =>
      have hlength : p.length ≤ n := List.drop_eq_nil_iff.mp hcs
      refine .inl ⟨rfl, ?_⟩
      unfold finished at *
      omega
  | @leaf _ c cs rest ho hrest =>
      obtain ⟨hcommand, hdrop⟩ := of_drop_eq_cons hcs
      have hbounds := bounds_of_command? hcommand
      refine .inr (.inl ⟨c, rest, rfl, hcommand, ho, Nat.succ_pos _, ?_, ?_⟩)
      · unfold finished
        omega
      · rw [Nat.add_sub_cancel, hdrop]
        exact hrest
  | @branch _ direction condition body B cs rest hbody hrest =>
      -- The lines are the `if`, the body, the `end if` and `cs`; each of them is found by dropping
      -- the ones before it.
      obtain ⟨hcommand, hdrop⟩ := of_drop_eq_cons hcs
      have hlast : p.commands.drop (n + 1 + body.length) = .endBranch :: cs := by
        rw [← List.drop_drop, hdrop, List.drop_left]
      obtain ⟨hend, hafter⟩ := of_drop_eq_cons hlast
      have hbounds := bounds_of_command? hend
      have hbetween : p.between (n + 1) (n + 1 + body.length + 1) = body := by
        rw [between, Nat.add_sub_cancel, List.drop_take, hdrop, Nat.add_sub_cancel_left,
          List.take_left]
      refine .inr (.inr ⟨direction, condition, B, _, rest, rfl, hcommand, ?_, ?_, ?_⟩)
      · refine ⟨?_, ?_, by omega, ?_⟩
        · rw [hcommand]
          rfl
        · rw [hend]
          rfl
        · rw [hbetween]
          exact hbody.balanced
      · refine ⟨Nat.succ_pos _, ?_, ?_⟩
        · unfold finished
          omega
        · rw [Nat.add_sub_cancel, hdrop]
          apply Continues.append hbody
          rw [Nat.add_right_comm]
          exact .leaf rfl hrest
      · refine ⟨Nat.succ_pos _, ?_, ?_⟩
        · unfold finished
          omega
        · rw [Nat.add_sub_cancel, hafter]
          exact hrest

/-- The counter is the line of the first statement left. -/
theorem At.line_eq (h : p.At line K) : line = K.head?.elim p.finished Statement.line := by
  rcases h.cases with ⟨rfl, heq⟩ | ⟨_, _, rfl, -⟩ | ⟨_, _, _, _, _, rfl, -⟩
  · exact heq
  · rfl
  · rfl

end Program

namespace Engine

variable {e : Engine} {m : Machine} {id : Nat}

/-! ## The simulation -/

/-- The engine and the structured machine are at the same point of the same program. -/
structure Simulates (e : Engine) (m : Machine) : Prop where
  sound : Program.Draft.Sound { program := e.program }
  length : linesOf m.tree = e.program.length
  world : m.world = e.world.resetCounters
  goal : m.goal = e.goal
  timeLimit : m.timeLimit = e.timeLimit
  score : m.score = e.score
  ticks : m.ticks = e.ticks
  /-- What an avatar has to do is what the program says from its counter on. -/
  todo : ∀ entry ∈ e.world.roster, e.program.At entry.2 (m.todo entry.1)

namespace Simulates

/-- A command is executed on both sides, and the avatar goes on with `rest` at `counter`. -/
theorem advance (h : Simulates e m) (id : Nat) (c : Command) {counter : Nat} {rest : List Statement}
    (hat : e.program.At counter rest) :
    Simulates (e.advance id c counter)
      { m.spend id rest with world := (c.execute id m.world).2 } where
  sound := h.sound
  length := h.length
  world := by
    show (c.execute id m.world).2 = ((c.execute id e.world).2.updateAvatar id _).resetCounters
    rw [h.world, World.execute_resetCounters, World.resetCounters_updateAvatar]
  goal := h.goal
  timeLimit := h.timeLimit
  score := congrArg (· + 1) h.score
  ticks := h.ticks
  todo := by
    intro entry hentry
    change entry ∈ ((c.execute id e.world).2.updateAvatar id _).roster at hentry
    rw [World.roster_updateAvatar_counter, World.roster_execute, List.mem_map] at hentry
    obtain ⟨old, hold, rfl⟩ := hentry
    show e.program.At (if old.1 = id then counter else old.2)
      (if old.1 = id then rest else m.todo old.1)
    split
    · exact hat
    · exact h.todo old hold

/-- The same for an `if`, which changes no world. -/
theorem advance_branch (h : Simulates e m) (id : Nat) (direction : Direction)
    (condition : Condition) {counter : Nat} {rest : List Statement}
    (hat : e.program.At counter rest) :
    Simulates (e.advance id (.branch direction condition) counter) (m.spend id rest) := by
  have hadvance := h.advance id (.branch direction condition) hat
  rw [world_of_branch] at hadvance
  exact hadvance

/-- The machine sees the avatars of the engine with other counters. -/
theorem avatar?_eq (h : Simulates e m) {a : Avatar} (ha : e.world.avatar? id = some a) :
    m.world.avatar? id = some { a with counter := 1 } := by
  rw [h.world, World.avatar?_resetCounters, ha]
  rfl

theorem at_counter (h : Simulates e m) {a : Avatar} (ha : e.world.avatar? id = some a) :
    e.program.At a.counter (m.todo id) := by
  have hentry : (id, a.counter) ∈ e.world.roster := by
    rw [← World.id_of_avatar? ha]
    exact List.mem_map_of_mem (World.mem_of_avatar? ha)
  exact h.todo _ hentry

/-- A step of the engine is a step of the structured machine. -/
theorem step (h : Simulates e m) (id : Nat) :
    ∃ e', e.step id = .ok ((m.step id).1, e') ∧ Simulates e' (m.step id).2 := by
  cases ha : e.world.avatar? id with
  | none =>
      have ha' : m.world.avatar? id = none := by
        rw [h.world, World.avatar?_resetCounters, ha]
        rfl
      rw [Machine.step_of_avatar?_eq_none ha']
      exact ⟨e, step_of_avatar?_eq_none ha, h⟩
  | some a =>
      have ha' := h.avatar?_eq ha
      rcases (h.at_counter ha).cases with ⟨htodo, hfinished⟩ | ⟨c, rest, htodo, hc, ho, hnext⟩ |
        ⟨direction, condition, body, last, rest, htodo, hc, hpair, hbody, hskip⟩
      · rw [Machine.step_of_nil htodo]
        exact ⟨e, step_of_finished ha hfinished, h⟩
      · rw [Machine.step_of_leaf ha' htodo, step_of_command ha hc, flow_of_plain ho]
        exact ⟨_, rfl, h.advance id c hnext⟩
      · have hcondition : condition.evaluate m.world id (direction.apply a.position)
            = condition.evaluate e.world id (direction.apply a.position) := by
          rw [h.world, World.evaluate_resetCounters]
        rw [Machine.step_of_branch ha' htodo, step_of_command ha hc, flow_of_branch ha, hcondition]
        -- The engine goes on in the body, or after the `end if`, where the table of jumps leads.
        by_cases hholds : condition.evaluate e.world id (direction.apply a.position) = true
        · rw [if_pos hholds, if_pos hholds]
          exact ⟨_, rfl, h.advance_branch id direction condition hbody⟩
        · have hjump : e.program.next a.counter .skipBody = .ok (last + 1) := by
            rw [Program.next, h.sound.jump?_eq hpair]
          rw [if_neg hholds, if_neg hholds, hjump]
          exact ⟨_, rfl, h.advance_branch id direction condition hskip⟩

theorem remaining_eq (h : Simulates e m) : m.remaining = e.remaining := by
  rw [Machine.remaining, h.goal, h.score, Engine.remaining]

theorem timeLeft_eq (h : Simulates e m) (elapsed : Nat) :
    m.timeLeft elapsed = e.timeLeft elapsed := by
  rw [Machine.timeLeft, h.timeLimit, Engine.timeLeft]

theorem verdict_eq (h : Simulates e m) (timeLeft : Int) :
    m.verdict timeLeft = e.verdict timeLeft := by
  rw [Machine.verdict, h.world, h.goal, World.reached_resetCounters, h.remaining_eq, h.length,
    Engine.verdict]

end Simulates

/-- What the avatars of a tick did so far is the same on both sides. -/
structure Alike (pass : Pass) (pass' : Machine.Pass) : Prop where
  simulates : Simulates pass.engine pass'.machine
  lines : pass'.lines = pass.lines
  signals : pass'.signals = pass.signals

namespace Alike

variable {pass : Pass} {pass' : Machine.Pass}

theorem record (h : Alike pass pass') (hm : Simulates e m) (id : Nat) (line : Option Nat) :
    Alike (pass.record e id line) (pass'.record m id line) := by
  cases line with
  | none => exact ⟨hm, h.lines, h.signals⟩
  | some line =>
      refine ⟨hm, congrArg (·.insert id line) h.lines, ?_⟩
      show pass'.signals ++ [.budget m.remaining] = pass.signals ++ [.budget e.remaining]
      rw [h.signals, hm.remaining_eq]

/-- The avatars of a tick act alike. -/
theorem act (h : Alike pass pass') (timeLeft : Int) (ids : List Nat) :
    ∃ final, Engine.act timeLeft ids pass = (.ok (Machine.act timeLeft ids pass').1, final) ∧
      Alike final (Machine.act timeLeft ids pass').2 := by
  induction ids generalizing pass pass' with
  | nil => exact ⟨pass, rfl, h⟩
  | cons id rest ih =>
      obtain ⟨e', hstep, hsimulates⟩ := h.simulates.step id
      have hrecord := h.record hsimulates id (pass'.machine.step id).1
      rw [act_of_ok hstep]
      simp only [Machine.act, hsimulates.verdict_eq]
      cases e'.verdict timeLeft with
      | some outcome => exact ⟨_, rfl, hrecord⟩
      | none => exact ih hrecord

end Alike

/-- A tick of the engine and one of the structured machine give the same: the report, the
announcements, the score and, apart from counters, the world. The counter of an avatar is the line
of the first statement that it has to do. -/
structure Agree (turn : Turn) (turn' : Machine.Turn) : Prop where
  result : turn.result = .ok turn'.report
  signals : turn.signals = turn'.signals
  score : turn.engine.score = turn'.machine.score
  world : turn.engine.world.resetCounters = turn'.machine.world
  counter : ∀ a ∈ turn.engine.world.avatars, a.counter = turn'.machine.counter a.id

theorem Simulates.counter_eq (h : Simulates e m) {a : Avatar} (ha : a ∈ e.world.avatars) :
    a.counter = m.counter a.id := by
  have hline := (h.todo _ (List.mem_map_of_mem ha)).line_eq
  rw [Machine.counter, h.length]
  exact hline

theorem Alike.conclude {pass : Pass} {pass' : Machine.Pass} (h : Alike pass pass') (timeLeft : Int)
    (decision : Option Outcome) :
    Agree (pass.conclude timeLeft decision) (pass'.conclude timeLeft decision) ∧
      Simulates (pass.conclude timeLeft decision).engine
        (pass'.conclude timeLeft decision).machine := by
  have hmachine : Simulates (pass.conclude timeLeft decision).engine
      (pass'.conclude timeLeft decision).machine := by
    simp only [Pass.conclude, Machine.Pass.conclude, h.lines]
    split
    · exact { h.simulates with score := rfl }
    · exact h.simulates
  refine ⟨?_, hmachine⟩
  exact {
    result := by simp only [Pass.conclude, Machine.Pass.conclude, h.lines, h.simulates.ticks]
    signals := by simp only [Pass.conclude, Machine.Pass.conclude, h.lines, h.signals]
    score := hmachine.score.symm
    world := hmachine.world.symm
    counter := fun a ha => hmachine.counter_eq ha }

/-- A tick of the engine is a tick of the structured machine. -/
theorem Simulates.tick (h : Simulates e m) (clock : Readings) :
    Agree (e.tickDuring clock) (m.tick clock) ∧
      Simulates (e.tickDuring clock).engine (m.tick clock).machine := by
  have hids : m.world.avatarIds = e.world.avatarIds := by
    rw [h.world, World.avatarIds_resetCounters]
  have hopening : Alike e.opening { machine := { m with ticks := m.ticks + 1 } } := by
    refine ⟨?_, rfl, rfl⟩
    exact { h with ticks := congrArg (· + 1) h.ticks }
  obtain ⟨final, hact, hfinal⟩ := hopening.act (e.timeLeft clock.scoring) e.world.avatarIds
  rw [tick_of_ok hact]
  simp only [Machine.tick, h.timeLeft_eq, hids]
  exact hfinal.conclude _ _

theorem Simulates.turns (h : Simulates e m) (clock : Nat → Readings) (n : Nat) :
    List.Forall₂ Agree (e.turns clock n) (m.turns clock n) := by
  induction n generalizing e m clock with
  | zero => exact .nil
  | succ n ih =>
      obtain ⟨hagree, hnext⟩ := h.tick (clock 0)
      exact .cons hagree (ih hnext _)

/-- The engine and the machine are at the same point when all avatars are on line 1. -/
theorem Simulates.start {T : List Statement} (hp : Program.Draft.Sound { program := e.program })
    (hT : Nesting 1 e.program.commands T) (hline : ∀ a ∈ e.world.avatars, a.counter = 1) :
    Simulates e (.start T e) where
  sound := hp
  length := hT.linesOf_eq
  world := (World.resetCounters_of_forall hline).symm
  goal := rfl
  timeLimit := rfl
  score := rfl
  ticks := rfl
  todo := by
    intro entry hentry
    obtain ⟨a, ha, rfl⟩ := List.mem_map.mp hentry
    show e.program.At a.counter T
    rw [hline a ha]
    exact Program.at_one hT

/-- A program that is built has exactly one tree, and when all avatars begin on line 1, any number
of ticks of the engine give what the structured machine gives on this tree. -/
theorem refines_structured (c : Catalogue) (ds : List Descriptor) (p : Program)
    (h : Program.build c ds = .ok p) :
    ∃ T, (∀ S, Nesting 1 p.commands S ↔ S = T) ∧
      ∀ e : Engine, e.program = p → (∀ a ∈ e.world.avatars, a.counter = 1) →
        ∀ (clock : Nat → Readings) (n : Nat),
          List.Forall₂ Agree (e.turns clock n) ((Machine.start T e).turns clock n) := by
  obtain ⟨hsound, -⟩ := Program.sound_of_build h
  obtain ⟨T, hT⟩ := hsound.nesting
  refine ⟨T, fun S => ⟨fun hS => hS.unique hT, ?_⟩, ?_⟩
  · rintro rfl
    exact hT
  · rintro e rfl hline clock n
    exact (Simulates.start hsound hT hline).turns clock n

/-- Two avatars run the program of `nest`. A block rests where the first one stands, until it is
picked up. -/
def seekers : Engine where
  program := Program.nested
  world := [.setDimensions 1 2, .addAvatar { id := 3, position := ⟨0, 0⟩ },
    .addAvatar { id := 4, position := ⟨0, 1⟩ },
    .addBlock { id := 8, position := ⟨0, 0⟩, number := 5 }].foldl World.perform World.empty
  goal := { idealTime := 0, idealLines := 0, budget := 9 }
  timeLimit := 60

theorem refines_structured_seekers :
    let clock : Nat → Readings := fun k => ⟨k, k + 1⟩
    (seekers.turns clock 5).map (fun turn => turn.result.toOption.map (·.lines.entries))
        = [some [(3, 1), (4, 1)], some [(3, 2)], some [(3, 3)], some [(3, 5)], some []] ∧
      ∃ T, List.Forall₂ Agree (seekers.turns clock 5)
        ((Machine.start T seekers).turns clock 5) := by
  intro clock
  refine ⟨by decide, ?_⟩
  obtain ⟨T, -, hT⟩ :=
    refines_structured Program.signs Program.nest Program.nested Program.build_nest
  exact ⟨T, hT seekers rfl (by decide) clock 5⟩

end Engine

end TilePuzzle
