import TilePuzzle.Proofs.Engine.Crowding
import TilePuzzle.Proofs.Engine.Faults
import TilePuzzle.Proofs.World.Arithmetic

/-!
# Numbers in a run

A block gets another number only while it is carried, by a calculation of its carrier. Nobody acts
twice in a tick, so the number of a block goes through one calculation in a tick at most, and that
avatar carries the block from the start of the tick to its end (`number?_cases`). A block that
rests before a tick or after it keeps its number; the others get an exact result, which a word of 32
bits holds.

The main statement is `numbers_exact`.
-/

namespace TilePuzzle

namespace World

variable {w w' : World} {id j k : Nat} {a : Avatar} {b : Block} {c : Command}

/-- The number of the block `k`. -/
def number? (w : World) (k : Nat) : Option Int := (w.block? k).map (·.number)

/-- Every number is one that a word of 32 bits holds. -/
def WordSized (w : World) : Prop := ∀ b ∈ w.blocks, Bounds.int32.Has b.number

theorem Consistent.wordSized_iff (h : Consistent w) :
    w.WordSized ↔ ∀ k n, w.number? k = some n → Bounds.int32.Has n := by
  constructor
  · intro hfits k n hn
    obtain ⟨b, hb, rfl⟩ := Option.map_eq_some_iff.mp hn
    exact hfits b (mem_of_block? hb)
  · intro hfits b hb
    refine hfits b.id b.number ?_
    rw [number?, h.block?_eq_some_iff.mpr ⟨hb, rfl⟩]
    rfl

/-- What rests is carried by nobody. -/
theorem Consistent.load?_ne_of_rests (h : Consistent w) (hb : w.block? k = some b)
    (hrests : b.held = false) (id : Nat) : w.load? id ≠ some k := by
  intro hk
  obtain ⟨b', hb', hheld⟩ := (h.loaded hk).1
  obtain rfl : b = b' := Option.some.inj (hb.symm.trans hb')
  rw [hrests] at hheld
  cases hheld

theorem SameSetting.exists_number? {n : Int} (h : SameSetting w w')
    (hn : w'.number? k = some n) : ∃ m, w.number? k = some m := by
  obtain ⟨b, hb, -⟩ := Option.map_eq_some_iff.mp hn
  have hk : k ∈ w.blockIds := by
    rw [← h.blockIds, ← id_of_block? hb]
    exact List.mem_map_of_mem (mem_of_block? hb)
  have hsome : w.block? k ≠ none := fun hnone => block?_eq_none_iff.mp hnone hk
  obtain ⟨b, hb⟩ := Option.ne_none_iff_exists'.mp hsome
  exact ⟨b.number, by rw [number?, hb]; rfl⟩

/-! ## Commands -/

/-- A change of a block that leaves its number alone changes no number. -/
theorem number?_updateBlock {g : Block → Block} (hid : ∀ b, (g b).id = b.id)
    (hnumber : ∀ b, (g b).number = b.number) : (w.updateBlock k g).number? j = w.number? j := by
  rw [number?, block?_updateBlock hid, number?]
  split
  · rw [Option.map_map]
    exact congrArg (Option.map · _) (funext hnumber)
  · rfl

theorem number?_moveAvatar (id : Nat) (target : Position) :
    (w.moveAvatar id target).2.number? j = w.number? j := by
  rcases w.moveAvatar_cases id target with heq | ⟨a, -, -, -, heq⟩
  · rw [heq]
  · rw [heq, shift]
    cases a.held with
    | none => rfl
    | some k => exact number?_updateBlock (by intro; rfl) (by intro; rfl)

theorem number?_pickUp (id : Nat) : (w.pickUp id).2.number? j = w.number? j := by
  rcases w.pickUp_cases id with heq | ⟨a, b, -, -, -, heq⟩
  · rw [heq]
  · rw [heq]
    exact number?_updateBlock (by intro; rfl) (by intro; rfl)

theorem number?_drop (id : Nat) : (w.drop id).2.number? j = w.number? j := by
  rcases w.drop_cases id with heq | ⟨a, k, b, -, -, -, -, heq⟩
  · rw [heq]
  · rw [heq]
    exact number?_updateBlock (by intro; rfl) (by intro; rfl)

/-- A command other than a calculation changes no number. -/
theorem number?_execute (hc : ∀ op direction, c ≠ .arithmetic op direction) (id : Nat) :
    (c.execute id w).2.number? j = w.number? j := by
  unfold Command.execute
  cases w.avatar? id with
  | none => rfl
  | some a =>
      cases c with
      | move direction => exact number?_moveAvatar id _
      | pickUp => exact number?_pickUp id
      | drop => exact number?_drop id
      | arithmetic op direction => exact absurd rfl (hc op direction)
      | branch direction condition => rfl
      | endBranch => rfl

/-- A calculation changes the number of a block that stays in the hands, to its exact result. -/
theorem Consistent.number?_arithmetic (h : Consistent w) (ha : w.avatar? a.id = some a)
    (op : Operation) (direction : Direction) (j : Nat) :
    let w' := ((Command.arithmetic op direction).execute a.id w).2
    w'.number? j = w.number? j ∨ ∃ n, w.Alters a op (direction.apply a.position) j n ∧
      w'.number? j = some n ∧ w'.load? a.id = some j := by
  intro w'
  by_cases hchanges : ∃ k n, w.Alters a op (direction.apply a.position) k n
  · obtain ⟨k, n, halters⟩ := hchanges
    have hw' : w' = w.updateBlock k ({ · with number := n }) := h.arithmetic_of_alters ha halters
    have ⟨b, operand, hk, hb, _⟩ := halters
    have hblock : w'.block? j
        = if j = k then (w.block? j).map ({ · with number := n }) else w.block? j := by
      rw [hw', block?_updateBlock (by intro; rfl)]
    by_cases hj : j = k
    · subst hj
      rw [if_pos rfl, hb] at hblock
      refine .inr ⟨n, halters, by rw [number?, hblock]; rfl, ?_⟩
      rw [hw']
      exact (load?_of_avatar? ha).trans hk
    · rw [if_neg hj] at hblock
      exact .inl (by rw [number?, hblock, number?])
  · have hw' : w' = w := h.arithmetic_of_not_alters ha hchanges
    exact .inl (by rw [hw'])

end World

namespace Engine

open World (Consistent Reachable ReachedBy)

variable {e e₁ e' : Engine} {id k : Nat} {line : Option Nat} {front : List Nat} {vs : List Visit}
  {m n : Int} {clock : Readings}

/-- When the avatars `front` have acted, the avatar `id` calculates, and the block `k` that it
carries has a number that goes from `m` to `n`. -/
def Calculates (e : Engine) (front : List Nat) (id k : Nat) (m n : Int) : Prop :=
  ∃ a op direction operand, e.world.avatar? id = some a ∧ a.held = some k ∧
    e.program.command? a.counter = some (.arithmetic op direction) ∧
    (e.afterSteps front).world.RestsFirst (direction.apply a.position) operand ∧
    op.Exact m operand.number n ∧ Bounds.int32.Has n

/-- What a tick from `e` to `e'` does to the numbers. -/
structure Tallied (e e' : Engine) : Prop where
  /-- A number that changes does so once, by a calculation of an avatar that keeps the block. -/
  changed : ∀ k m n, e.world.number? k = some m → e'.world.number? k = some n → m ≠ n →
    ∃ front id back, e.world.avatarIds = front ++ id :: back ∧
      e.opening.engine.Calculates front id k m n ∧ e'.world.load? id = some k
  rested : ∀ k b, e.world.block? k = some b → b.held = false →
    e'.world.number? k = some b.number
  rests : ∀ k b, e'.world.block? k = some b → b.held = false →
    e.world.number? k = some b.number

/-! ## Steps -/

theorem consistent_step (h : Consistent e.world) (hs : e.step id = .ok (line, e')) :
    Consistent e'.world := by
  rcases step_cases hs with ⟨-, rfl, -⟩ | ⟨a, c, n, -, -, -, -, rfl⟩
  · exact h
  · exact (h.execute id c).updateAvatar (by intro; rfl) (by intro; rfl) (by intro; rfl)

/-- A step changes the number of a block by a calculation of the avatar that carries it. -/
theorem number?_step (h : Consistent e.world) (hs : e.step id = .ok (line, e'))
    (hm : e.world.number? k = some m) : e'.world.number? k = some m ∨
      ∃ n, e'.world.number? k = some n ∧ e.Calculates [] id k m n ∧
        e'.world.load? id = some k := by
  rcases step_cases hs with ⟨-, rfl, -⟩ | ⟨a, c, counter, ha, hc, -, -, rfl⟩
  · exact .inl hm
  · obtain rfl := World.id_of_avatar? ha
    show (c.execute a.id e.world).2.number? k = _ ∨ _
    by_cases hcalculation : ∃ op direction, c = .arithmetic op direction
    · obtain ⟨op, direction, rfl⟩ := hcalculation
      rcases h.number?_arithmetic ha op direction k with hsame | ⟨n, halters, hn, hload⟩
      · rw [hsame]
        exact .inl hm
      · obtain ⟨b, operand, hk, hb, hoperand, hexact, hfits, -⟩ := halters
        rw [World.number?, hb, Option.map_some, Option.some.injEq] at hm
        subst hm
        refine .inr ⟨n, hn, ⟨a, op, direction, operand, ha, hk, hc, hoperand, hexact, hfits⟩, ?_⟩
        show ((Command.execute _ a.id e.world).2.updateAvatar a.id _).load? a.id = _
        rw [World.load?_updateAvatar (by intro; rfl) (by intro; rfl), hload]
    · rw [World.number?_execute fun op direction heq => hcalculation ⟨op, direction, heq⟩]
      exact .inl hm

/-! ## Paths -/

theorem Calculates.load? (h : e.Calculates front id k m n) : e.world.load? id = some k := by
  obtain ⟨a, -, -, -, ha, hk, -⟩ := h
  exact (World.load?_of_avatar? ha).trans hk

/-- What an avatar finds when another one has acted, it finds behind that one. -/
theorem Calculates.cons (hs : e.step id = .ok (line, e₁)) {j : Nat} (hj : j ≠ id)
    (h : e₁.Calculates front j k m n) : e.Calculates (id :: front) j k m n := by
  obtain ⟨a, op, direction, operand, ha, hk, hc, hoperand, hexact⟩ := h
  rw [(confined_step hs).avatar? j hj] at ha
  rw [(frame_step hs).program] at hc
  rw [← afterSteps_cons hs] at hoperand
  exact ⟨a, op, direction, operand, ha, hk, hc, hoperand, hexact⟩

/-- Along a path that visits each avatar once, a number changes at one visit at most. -/
theorem Path.number?_cases (h : Path e vs e') (hw : Consistent e.world)
    (hids : (vs.map (·.id)).Nodup) (hm : e.world.number? k = some m) :
    e'.world.number? k = some m ∨ ∃ n front id back, e'.world.number? k = some n ∧
      vs.map (·.id) = front ++ id :: back ∧ e.Calculates front id k m n ∧
        e'.world.load? id = some k := by
  induction h generalizing m with
  | nil => exact .inl hm
  | @cons e e₁ e' id line vs hs hrest ih =>
      rw [List.map_cons, List.nodup_cons] at hids
      obtain ⟨hnew, hids⟩ := hids
      have hw₁ := consistent_step hw hs
      rcases number?_step hw hs hm with hm₁ | ⟨n, hn, hcalculates, hload⟩
      · rcases ih hw₁ hids hm₁ with hm' | ⟨n, front, j, back, hn, hcut, hcalculates, hload⟩
        · exact .inl hm'
        · have hj : j ≠ id := by
            rintro rfl
            exact hnew (hcut ▸ List.mem_append_right _ List.mem_cons_self)
          exact .inr ⟨n, id :: front, j, back, hn, by rw [List.map_cons, hcut]; rfl,
            hcalculates.cons hs hj, hload⟩
      · -- The avatar has acted, and nobody else can have its block.
        rcases ih hw₁ hids hn with hn' | ⟨_, front, j, back, -, hcut, hcalculates', -⟩
        · have hidle : ∀ v ∈ vs, v.id = id → v.line = none :=
            fun v hv heq => absurd (List.mem_map.mpr ⟨v, hv, heq⟩) hnew
          have hload' : e'.world.load? id = e₁.world.load? id :=
            World.load?_congr (hrest.avatar?_of_idle hidle)
          exact .inr ⟨n, [], id, vs.map (·.id), hn', rfl, hcalculates, hload'.trans hload⟩
        · obtain rfl := hw₁.load?_inj hload hcalculates'.load?
          exact absurd (hcut ▸ List.mem_append_right _ List.mem_cons_self) hnew

/-! ## Ticks -/

/-- Whether it meets a fault or not, a tick is a path that visits avatars in their order. -/
theorem exists_path_tick (e : Engine) (clock : Readings) : ∃ vs last,
    vs.map (·.id) <+: e.world.avatarIds ∧ Path e.opening.engine vs last ∧
      (e.tickDuring clock).engine.world = last.world := by
  obtain ⟨score, hengine⟩ := engine_tick e clock
  rw [hengine]
  cases hact : act (e.timeLeft clock.scoring) e.world.avatarIds e.opening with
  | mk answer final =>
      cases answer with
      | error fault =>
          obtain ⟨vs, id, rest, hcut, hpath, -⟩ := path_of_error hact
          exact ⟨vs, final.engine, ⟨_, hcut.symm⟩, hpath, rfl⟩
      | ok decision =>
          exact ⟨e.round, final.engine, ids_visits _ _, (acted_of_ok hact).path, rfl⟩

theorem tallied_tick (hw : Reachable e.world) (hw' : Reachable (e.tickDuring clock).engine.world) :
    Tallied e (e.tickDuring clock).engine := by
  have h := hw.consistent
  have h' := hw'.consistent
  obtain ⟨vs, last, hprefix, hpath, hworld⟩ := exists_path_tick e clock
  have hids : (vs.map (·.id)).Nodup := h.nodup_avatarIds.sublist hprefix.sublist
  have hcases : ∀ {k m}, e.world.number? k = some m →
      (e.tickDuring clock).engine.world.number? k = some m ∨ ∃ n front id back,
        (e.tickDuring clock).engine.world.number? k = some n ∧
        vs.map (·.id) = front ++ id :: back ∧ e.opening.engine.Calculates front id k m n ∧
          (e.tickDuring clock).engine.world.load? id = some k := by
    intro k m hm
    rw [hworld]
    exact hpath.number?_cases (e := e.opening.engine) h hids hm
  exact {
    changed := by
      intro k m n hm hn hne
      rcases hcases hm with hm' | ⟨n', front, id, back, hn', hcut, hcalculates, hload⟩
      · exact absurd (Option.some.inj (hm'.symm.trans hn)) hne
      · obtain rfl : n' = n := Option.some.inj (hn'.symm.trans hn)
        obtain ⟨rest, hrest⟩ := hprefix
        refine ⟨front, id, back ++ rest, ?_, hcalculates, hload⟩
        rw [← hrest, hcut, List.append_assoc, List.cons_append]
    rested := by
      intro k b hb hrests
      have hm : e.world.number? k = some b.number := by
        rw [World.number?, hb]
        rfl
      rcases hcases hm with hm' | ⟨n, front, id, back, -, -, hcalculates, -⟩
      · exact hm'
      · exact absurd hcalculates.load? (h.load?_ne_of_rests hb hrests id)
    rests := by
      intro k b hb hrests
      have hn : (e.tickDuring clock).engine.world.number? k = some b.number := by
        rw [World.number?, hb]
        rfl
      obtain ⟨m, hm⟩ := (setting_tick e clock).exists_number? hn
      rcases hcases hm with hm' | ⟨n, front, id, back, -, -, -, hload⟩
      · rw [hm, ← hm', hn]
      · exact absurd hload (h'.load?_ne_of_rests hb hrests id) }

/-- Words hold the numbers after a tick if they held them before. -/
theorem Tallied.wordSized (h : Tallied e e') (hw : Consistent e.world) (hw' : Consistent e'.world)
    (hsetting : World.SameSetting e.world e'.world) (hfits : e.world.WordSized) :
    e'.world.WordSized := by
  rw [hw.wordSized_iff] at hfits
  rw [hw'.wordSized_iff]
  intro k n hn
  obtain ⟨m, hm⟩ := hsetting.exists_number? hn
  by_cases hmn : m = n
  · exact hmn ▸ hfits k m hm
  · obtain ⟨front, id, back, -, hcalculates, -⟩ := h.changed k m n hm hn hmn
    obtain ⟨a, op, direction, operand, -, -, -, -, -, hn'⟩ := hcalculates
    exact hn'

/-! ## Runs -/

/-- In every reachable world a calculation is exact, or it changes nothing. So in a run of any
program that starts there no number wraps around: each change of a number is one exact result, of an
avatar that carries the block all the while, and blocks at rest keep their numbers. -/
theorem numbers_exact {w : World} (hw : Reachable w) :
    (∀ a ∈ w.avatars, ∀ op direction, w.Calculated a op (direction.apply a.position)
      ((Command.arithmetic op direction).execute a.id w).2) ∧
    ∀ e : Engine, e.world = w → ∀ clock n,
      Tallied (e.after clock n) (e.after clock (n + 1)) ∧
        (w.WordSized → (e.after clock n).world.WordSized) := by
  refine ⟨fun a ha op direction => ?_, ?_⟩
  · have ha' : w.avatar? a.id = some a := hw.consistent.avatar?_eq_some_iff.mpr ⟨ha, rfl⟩
    exact hw.consistent.calculated ha' op direction
  · rintro e rfl clock
    have hstart : e.world.InOrder e.world := ⟨hw, .refl _⟩
    have hreachable : ∀ n, Reachable (e.after clock n).world := fun n => (hstart.after clock n).1
    have htallied : ∀ n, Tallied (e.after clock n) (e.after clock (n + 1)) := fun n =>
      tallied_tick (hreachable n) (hreachable (n + 1))
    refine fun n => ⟨htallied n, fun hfits => ?_⟩
    induction n with
    | zero => exact hfits
    | succ n ih =>
        exact (htallied n).wordSized (hreachable n).consistent (hreachable (n + 1)).consistent
          (setting_tick _ (clock n)) ih

/-- An avatar with the block of the least number in its hands, beside a block of the number -1. -/
def scales : World :=
  [.setDimensions 1 2, .addAvatar { id := 5, position := ⟨0, 0⟩ },
    .addBlock { id := 2, position := ⟨0, 0⟩, number := -2147483648 },
    .addBlock { id := 7, position := ⟨0, 1⟩, number := -1 }, .pickUp 5].foldl
      World.perform World.empty

/-- An engine that divides the one number by the other one, adds the other one, and takes it away.
-/
def reckoner : Engine where
  program := { commands :=
    [.arithmetic .divide .east, .arithmetic .add .east, .arithmetic .subtract .east] }
  world := scales
  goal := { idealTime := 0, idealLines := 0, budget := 9 }
  timeLimit := 60

/-- Neither the quotient nor the sum fits into a word, so both leave the number as it is. -/
theorem numbers_exact_scales :
    Reachable scales ∧ scales.WordSized ∧
      let run := reckoner.after fun k => .still k
      (run 2).world.number? 2 = some (-2147483648) ∧
        (run 3).world.number? 2 = some (-2147483647) ∧ Tallied (run 2) (run 3) ∧
          (run 3).world.WordSized := by
  have h : Reachable scales := ReachedBy.empty.foldl _ (by decide)
  have hfits : scales.WordSized := by
    unfold World.WordSized
    decide
  have hrun := (numbers_exact h).2 reckoner rfl fun k => .still k
  exact ⟨h, hfits, by decide, by decide, (hrun 2).1, (hrun 3).2 hfits⟩

end Engine

end TilePuzzle
