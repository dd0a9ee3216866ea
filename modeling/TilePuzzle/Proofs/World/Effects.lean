import TilePuzzle.Proofs.World.Counters
import TilePuzzle.Proofs.World.Crowding
import TilePuzzle.Proofs.World.Snapshot

/-!
# What a command changes

A command names an avatar, but it acts through look-ups of tiles, of loads and of identifiers, and
each of them could lead to somebody else. `Confined` says that none does: the avatar that acts and
the block that it carries, before or afterwards, are all that a command can change
(`Confined.execute`). This holds of every world, however its records fit together.

What becomes of these two is `Command.Effect`. It tells from the elements alone when a command is
refused, and what the world is afterwards if it is not. Here the records have to agree: who answers
for a tile is then who is there, and an avatar that moves to its own tile leaves no trace.

The main statement is `executed_of_reachable`.
-/

namespace TilePuzzle

namespace World

variable {w w' : World} {id j k : Nat} {p target : Position} {a : Avatar} {b : Block}

/-- `p` is floor, and no avatar is there. -/
def Clear (w : World) (p : Position) : Prop :=
  w.terrain? p = some .floor ∧ ∀ c ∈ w.avatars, c.position ≠ p

/-- All blocks at `p` are carried. -/
def Bare (w : World) (p : Position) : Prop := ∀ b ∈ w.blocks, b.position = p → b.held = true

/-- `w'` is `w` with `a`, and the block that it carries, at `target`. -/
structure Moved (w : World) (a : Avatar) (target : Position) (w' : World) : Prop where
  setting : SameSetting w w'
  avatars : w'.avatars
    = w.avatars.map fun c => if c.id = a.id then { c with position := target } else c
  blocks : w'.blocks
    = w.blocks.map fun b => if a.held = some b.id then { b with position := target } else b
  occupies_iff : ∀ j p, w'.Occupies j p ↔
    if j = a.id ∨ a.held = some j then p = target else w.Occupies j p

/-- The block `k` that `a` carries and the first block that rests at `p` have the result `n`. -/
def Computes (w : World) (a : Avatar) (op : Operation) (p : Position) (k : Nat) (n : Int) : Prop :=
  a.held = some k ∧ ∃ b operand, w.block? k = some b ∧ w.RestsFirst p operand ∧
    op.result? b.number operand.number = some n

/-! ## Nobody else -/

/-- From `w` to `w'`, only the avatar `id` has changed, and blocks that it carries in one of them.
-/
structure Confined (id : Nat) (w w' : World) : Prop where
  avatar? : ∀ j, j ≠ id → w'.avatar? j = w.avatar? j
  block? : ∀ k, w.load? id ≠ some k → w'.load? id ≠ some k → w'.block? k = w.block? k

namespace Confined

theorem refl (id : Nat) (w : World) : Confined id w w := ⟨fun _ _ => rfl, fun _ _ _ => rfl⟩

/-- The avatar may change once more, if it keeps what it carries. -/
theorem updateAvatar (h : Confined id w w') {f : Avatar → Avatar} (hid : ∀ a, (f a).id = a.id)
    (hheld : ∀ a, (f a).held = a.held) : Confined id w (w'.updateAvatar id f) where
  avatar? := by
    intro j hj
    rw [avatar?_updateAvatar hid, if_neg hj]
    exact h.avatar? j hj
  block? := by
    intro k hbefore hafter
    rw [load?_updateAvatar hid hheld] at hafter
    exact h.block? k hbefore hafter

theorem updateBlock (hk : w.load? id = some k) {g : Block → Block} (hid : ∀ b, (g b).id = b.id) :
    Confined id w (w.updateBlock k g) where
  avatar? := fun _ _ => rfl
  block? := by
    intro i hbefore _
    rw [block?_updateBlock hid, if_neg]
    rintro rfl
    exact hbefore hk

theorem shift (ha : w.avatar? a.id = some a) (target : Position) :
    Confined a.id w (w.shift a target) where
  avatar? := by
    have hput : ∀ j, j ≠ a.id → (w.putAvatar a.id a.position target).avatar? j = w.avatar? j :=
      fun j hj => (avatar?_updateAvatar (by intro; rfl)).trans (if_neg hj)
    unfold World.shift
    cases a.held with
    | none => exact hput
    | some k => exact hput
  block? := by
    intro i hbefore _
    rw [load?_of_avatar? ha] at hbefore
    unfold World.shift
    cases hk : a.held with
    | none => rfl
    | some k =>
        refine (block?_updateBlock (by intro; rfl)).trans (if_neg ?_)
        rintro rfl
        exact hbefore hk

theorem link (ha : w.avatar? id = some a) (k : Nat) : Confined id w (w.link id k) where
  avatar? := fun j hj => (avatar?_updateAvatar (by intro; rfl)).trans (if_neg hj)
  block? := by
    intro i _ hafter
    rw [load?_link ha, if_pos rfl, ne_eq, Option.some.injEq] at hafter
    exact (block?_updateBlock (by intro; rfl)).trans (if_neg (Ne.symm hafter))

theorem unlink (hk : w.load? id = some k) : Confined id w (w.unlink id k) where
  avatar? := fun j hj => (avatar?_updateAvatar (by intro; rfl)).trans (if_neg hj)
  block? := by
    intro i hbefore _
    refine (block?_updateBlock (by intro; rfl)).trans (if_neg ?_)
    rintro rfl
    exact hbefore hk

/-- A command changes nobody but the avatar that executes it, and what that avatar carries. -/
theorem execute (c : Command) (id : Nat) (w : World) : Confined id w (c.execute id w).2 := by
  apply execute_cases (P := Confined id w) w id c (refl id w)
  · intro target
    rcases w.moveAvatar_cases id target with heq | ⟨a, ha, -, -, heq⟩
    · rw [heq]
      exact refl id w
    · rw [heq]
      obtain rfl : a.id = id := id_of_avatar? ha
      exact shift ha target
  · rcases w.pickUp_cases id with heq | ⟨a, b, ha, -, -, heq⟩
    · rw [heq]
      exact refl id w
    · rw [heq]
      exact link ha b.id
  · rcases w.drop_cases id with heq | ⟨a, k, b, ha, hk, -, -, heq⟩
    · rw [heq]
      exact refl id w
    · rw [heq]
      exact unlink ((load?_of_avatar? ha).trans hk)
  · intro op p
    rcases w.calculate_cases id op p with heq | ⟨a, k, _, _, _, ha, hk, -, -, -, heq⟩
    · rw [heq]
      exact refl id w
    · rw [heq]
      exact updateBlock ((load?_of_avatar? ha).trans hk) (by intro; rfl)

end Confined

/-! ## Moves -/

theorem blocks_shift (w : World) (a : Avatar) (target : Position) : (w.shift a target).blocks
    = w.blocks.map fun b => if a.held = some b.id then { b with position := target } else b := by
  unfold shift
  cases a.held with
  | none => exact (List.map_id _).symm
  | some k =>
      refine List.map_congr_left fun b _ => ?_
      simp only [Option.some.injEq, eq_comm]

namespace Consistent

section Move

variable (h : Consistent w) (ha : w.avatar? a.id = some a)

include h ha

theorem moved_shift (htarget : w.grid.Contains target) : Moved w a target (w.shift a target) where
  setting := .shift w a target
  avatars := Tidy.avatars_shift w a target
  blocks := blocks_shift w a target
  occupies_iff := fun _ _ => h.occupies_shift ha htarget

/-- To move to where one is changes nothing. -/
theorem shift_self (hplace : w.grid.Contains a.position) : w.shift a a.position = w := by
  have havatars : (w.shift a a.position).avatars = w.avatars := by
    rw [Tidy.avatars_shift]
    refine (List.map_congr_left fun c hc => ?_).trans (List.map_id _)
    split
    · next hid =>
        obtain rfl := h.eq_of_avatar? ha hc hid
        rfl
    · rfl
  have hblocks : (w.shift a a.position).blocks = w.blocks := by
    rw [blocks_shift]
    refine (List.map_congr_left fun c hc => ?_).trans (List.map_id _)
    split
    · next hk =>
        obtain ⟨b, hb, -, hposition, -⟩ := h.held_block ha hk
        obtain rfl := h.eq_of_block? hb hc rfl
        rw [← hposition]
        rfl
    · rfl
  exact h.eq_of_elements (h.shift ha hplace) (.shift w a a.position) havatars hblocks

/-- A tile is blocked for an avatar that is elsewhere exactly when somebody is there. -/
theorem blockedFor_eq_false_iff (hne : target ≠ a.position) :
    w.blockedFor a.id target = false ↔ ∀ c ∈ w.avatars, c.position ≠ target := by
  constructor
  · intro hunblocked
    exact (Tidy.clear_of_blockedFor h ha hunblocked).resolve_left hne.symm
  · intro hnobody
    rw [blockedFor, h.avatarOn?_eq_none_iff.mpr hnobody]
    rfl

omit h in
theorem ne_of_clear (hclear : w.Clear target) : target ≠ a.position :=
  fun hsame => hclear.2 a (mem_of_avatar? ha) hsame.symm

theorem moveAvatar_of_clear (hclear : w.Clear target) :
    w.moveAvatar a.id target = (true, w.shift a target) := by
  rw [moveAvatar_eq ha, if_pos]
  exact ⟨hclear.1, (h.blockedFor_eq_false_iff ha (ne_of_clear ha hclear)).mpr hclear.2⟩

theorem moveAvatar_of_not_clear (hne : target ≠ a.position) (hclear : ¬w.Clear target) :
    w.moveAvatar a.id target = (false, w) := by
  rw [moveAvatar_eq ha, if_neg]
  rintro ⟨hfloor, hunblocked⟩
  exact hclear ⟨hfloor, (h.blockedFor_eq_false_iff ha hne).mp hunblocked⟩

/-- An avatar that moves to its own tile changes nothing, refused or not. -/
theorem moveAvatar_self : (w.moveAvatar a.id a.position).2 = w := by
  rw [moveAvatar_eq ha]
  split
  · next hguard => exact h.shift_self ha (contains_of_floor (terrain?_eq_floor_iff.mp hguard.1))
  · rfl

end Move

/-- A tile is bare exactly when no block answers for it. -/
theorem bare_iff (h : Consistent w) : w.Bare p ↔ w.blockOn? p = none :=
  h.blockOn?_eq_none_iff.symm

end Consistent

/-! ## Picking up and calculating -/

theorem pickUp_of_blockOn? (ha : w.avatar? id = some a) (hempty : a.held = none)
    (hb : w.blockOn? a.position = some b) : w.pickUp id = (some b.id, w.link id b.id) := by
  simp only [pickUp, ha, hempty, hb]
  rfl

theorem calculate_of_result {op : Operation} {operand : Block} {n : Int}
    (ha : w.avatar? id = some a) (hk : a.held = some k) (hb : w.block? k = some b)
    (hoperand : w.blockOn? p = some operand) (hn : op.result? b.number operand.number = some n) :
    w.calculate id op p = w.updateBlock k ({ · with number := n }) := by
  simp [calculate, heldNumber?, setBlockNumber, ha, hk, hb, hoperand, hn]

end World

/-! ## What becomes of the world -/

open World (Consistent Confined Reachable ReachedBy SameSetting)

/-- `w'` is what becomes of `w` when the avatar `a` executes the command. A command that is refused
changes nothing; the elements tell when it is refused. -/
def Command.Effect (w : World) (a : Avatar) (w' : World) : Command → Prop
  | .move direction =>
    let target := direction.apply a.position
    (target ≠ a.position → ((w.moveAvatar a.id target).1 = true ↔ w.Clear target)) ∧
      (w.Clear target → w.Moved a target w') ∧ (¬w.Clear target → w' = w)
  | .pickUp =>
    (∀ b, a.held = none → w.RestsFirst a.position b → w' = w.link a.id b.id) ∧
      (a.held ≠ none ∨ w.Bare a.position → w' = w)
  | .drop =>
    (∀ k, a.held = some k → w.Bare a.position → w' = w.unlink a.id k) ∧
      (a.held = none ∨ ¬w.Bare a.position → w' = w)
  | .arithmetic op direction =>
    let target := direction.apply a.position
    (∀ k n, w.Computes a op target k n → w' = w.updateBlock k ({ · with number := n })) ∧
      ((∀ k n, ¬w.Computes a op target k n) → w' = w)
  | .branch _ _ => w' = w
  | .endBranch => w' = w

/-- The command is an `if` whose condition does not hold for the avatar `id`. -/
def Command.Declines (c : Command) (id : Nat) (w : World) : Prop :=
  ∃ a direction condition, w.avatar? id = some a ∧ c = .branch direction condition ∧
    condition.evaluate w id (direction.apply a.position) = false

namespace Command

variable {w : World} {a : Avatar} {c : Command} {id : Nat}

section Consistent

variable (h : Consistent w) (ha : w.avatar? a.id = some a)

include h ha

theorem effect_move (direction : Direction) :
    (move direction).Effect w a (w.moveAvatar a.id (direction.apply a.position)).2 := by
  refine ⟨fun hne => ?_, fun hclear => ?_, fun hclear => ?_⟩
  · by_cases hclear : w.Clear (direction.apply a.position)
    · rw [h.moveAvatar_of_clear ha hclear]
      exact iff_of_true rfl hclear
    · rw [h.moveAvatar_of_not_clear ha hne hclear]
      exact iff_of_false Bool.false_ne_true hclear
  · rw [h.moveAvatar_of_clear ha hclear]
    exact h.moved_shift ha (World.contains_of_floor (World.terrain?_eq_floor_iff.mp hclear.1))
  · -- A move to the own tile may go through, but then it changes nothing.
    by_cases hself : direction.apply a.position = a.position
    · rw [hself]
      exact h.moveAvatar_self ha
    · rw [h.moveAvatar_of_not_clear ha hself hclear]

theorem effect_pickUp : pickUp.Effect w a (w.pickUp a.id).2 := by
  refine ⟨fun b hempty hb => ?_, fun hrefused => ?_⟩
  · rw [World.pickUp_of_blockOn? ha hempty (h.blockOn?_eq_some_iff_restsFirst.mpr hb)]
  · rcases w.pickUp_cases a.id with heq | ⟨a', b, ha', hempty, hb, -⟩
    · rw [heq]
    · rw [ha] at ha'
      cases ha'
      rw [h.bare_iff, hb] at hrefused
      exact hrefused.elim (absurd hempty) nofun

theorem effect_drop : drop.Effect w a (w.drop a.id).2 := by
  refine ⟨fun k hk hbare => ?_, fun hrefused => ?_⟩
  · obtain ⟨b, hb, -⟩ := h.held_block ha hk
    rw [World.drop_eq ha hk, if_pos ⟨h.bare_iff.mp hbare, by rw [hb]; rfl⟩]
  · rcases w.drop_cases a.id with heq | ⟨a', k, b, ha', hk, -, hfree, -⟩
    · rw [heq]
    · rw [ha] at ha'
      cases ha'
      rw [h.bare_iff, hk] at hrefused
      exact hrefused.elim nofun (absurd hfree)

theorem effect_arithmetic (op : Operation) (direction : Direction) :
    (arithmetic op direction).Effect w a
      (w.calculate a.id op (direction.apply a.position)) := by
  refine ⟨?_, fun hrefused => ?_⟩
  · rintro k n ⟨hk, b, operand, hb, hoperand, hn⟩
    exact World.calculate_of_result ha hk hb (h.blockOn?_eq_some_iff_restsFirst.mpr hoperand) hn
  · rcases w.calculate_cases a.id op (direction.apply a.position) with
      heq | ⟨a', k, b, operand, n, ha', hk, hb, hoperand, hn, -⟩
    · exact heq
    · rw [ha] at ha'
      cases ha'
      rw [h.blockOn?_eq_some_iff_restsFirst] at hoperand
      exact absurd ⟨hk, b, operand, hb, hoperand, hn⟩ (hrefused k n)

theorem effect_execute (c : Command) : c.Effect w a (c.execute a.id w).2 := by
  simp only [execute, ha]
  cases c with
  | move direction => exact effect_move h ha direction
  | pickUp => exact effect_pickUp h ha
  | drop => exact effect_drop h ha
  | arithmetic op direction => exact effect_arithmetic h ha op direction
  | branch direction condition => rfl
  | endBranch => rfl

end Consistent

theorem flow_eq_skipBody_iff : (c.execute id w).1 = .skipBody ↔ c.Declines id w := by
  unfold execute Declines
  cases w.avatar? id with
  | none => simp
  | some a => cases c <;> simp

/-- All that the execution of a command by the avatar `id` does. -/
structure Executed (c : Command) (id : Nat) (w : World) : Prop where
  /-- Nobody executes nothing. -/
  absent : w.avatar? id = none → c.execute id w = (.next, w)
  flow : (c.execute id w).1 = .skipBody ↔ c.Declines id w
  setting : SameSetting w (c.execute id w).2
  counters : (c.execute id w).2.roster = w.roster
  confined : Confined id w (c.execute id w).2
  effect : ∀ a, w.avatar? id = some a → c.Effect w a (c.execute id w).2

/-- In every reachable world a command leaves the setting, all counters and all other elements as
they are, and does with the avatar that executes it and with its block what it is there for. -/
theorem executed_of_reachable (hw : Reachable w) (c : Command) (id : Nat) : Executed c id w where
  absent := by
    intro hnone
    rw [execute, hnone]
  flow := flow_eq_skipBody_iff
  setting := .execute c id w
  counters := World.roster_execute c id w
  confined := .execute c id w
  effect := by
    intro a ha
    obtain rfl : a.id = id := World.id_of_avatar? ha
    exact effect_execute hw.consistent ha c

/-- The avatar 5 adds the number of the block 7, on whose tile it stands, to that of its own block.
-/
theorem executed_of_reachable_carried :
    Reachable World.carried ∧ Executed (.arithmetic .add .here) 5 World.carried ∧
      (((arithmetic .add .here).execute 5 World.carried).2.block? 2).map (·.number) = some 13 := by
  have h : Reachable World.carried := ReachedBy.empty.foldl _ (by decide)
  exact ⟨h, executed_of_reachable h _ _, by decide⟩

end Command

end TilePuzzle
