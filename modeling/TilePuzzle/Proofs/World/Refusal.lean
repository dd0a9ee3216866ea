import TilePuzzle.Proofs.World.Counters
import TilePuzzle.Proofs.World.Setting

/-!
# Refused changes

An action is refused by its answer: an error, `false`, or no block. The operations of a world make
all their tests in front, so by their definitions a refusal changes nothing. But an action can also
be carried out on a world that is changed in place, one record after the other, with a search for
the next record in between. A search that fails then ends the action half-way, and what has been
written by then stays written.

`Procedure` is such a change, and `World.carryOut` carries every action out in this way. In each
world that is made by actions, however badly its records fit together, it answers what the operation
answers and leaves the world that the operation leaves, as no search fails behind a write.

The main statement is `unchanged_of_refused`.
-/

namespace TilePuzzle

section Key

variable {α : Type} (key : α → Nat)

/-- Among elements with distinct keys, to change the first one with a key is to change each one with
that key. -/
theorem modify_findIdx_key {f : α → α} {l : List α} (hl : (l.map key).Nodup) (k : Nat) :
    l.modify (l.findIdx fun a => key a = k) f = l.map fun a => if key a = k then f a else a := by
  induction l with
  | nil => rfl
  | cons a rest ih =>
      obtain ⟨hnew, hrest⟩ := List.nodup_cons.mp hl
      rw [List.findIdx_cons, List.map_cons]
      by_cases ha : key a = k
      · have hothers : ∀ b ∈ rest, key b ≠ k := fun b hb hk =>
          hnew (List.mem_map.mpr ⟨b, hb, hk.trans ha.symm⟩)
        rw [if_pos ha, List.map_congr_left fun b hb => if_neg (hothers b hb), List.map_id']
        simp [ha]
      · rw [if_neg ha, ← ih hrest]
        simp [ha]

/-- A key that no element has changes nothing. -/
theorem map_key_of_find?_eq_none {f : α → α} {l : List α} {k : Nat}
    (h : l.find? (fun a => decide (key a = k)) = none) :
    (l.map fun a => if key a = k then f a else a) = l := by
  have hother : ∀ a ∈ l, key a ≠ k := by simpa using h
  exact (List.map_congr_left fun a ha => if_neg (hother a ha)).trans (List.map_id' _)

end Key

namespace World

variable {w : World} {id k : Nat} {a : Avatar} {b : Block}

theorem updateAvatar_of_absent (h : w.avatar? id = none) (f : Avatar → Avatar) :
    w.updateAvatar id f = w := by
  rw [updateAvatar, map_key_of_find?_eq_none Avatar.id h]

theorem updateBlock_of_absent (h : w.block? k = none) (f : Block → Block) :
    w.updateBlock k f = w := by
  rw [updateBlock, map_key_of_find?_eq_none Block.id h]

/-! ## Changes in place -/

/-- A change that is made step by step. A step that fails ends it, and what was written by then
stays. -/
abbrev Procedure (ε α : Type) := ExceptT ε (StateM World) α

namespace Procedure

variable {ε α β : Type}

/-- What a procedure answers in the world `w`, and the world that it leaves. -/
def exec (p : Procedure ε α) (w : World) : Except ε α × World := p.run.run w

/-- What a search finds. -/
def find (search : World → Option α) (e : ε) : Procedure ε α := do
  match search (← get) with
  | some a => return a
  | none => throw e

/-- Goes on if the test holds. -/
def ensure (test : World → Bool) (e : ε) : Procedure ε Unit := do
  if test (← get) then return () else throw e

/-- Goes on whether `p` fails or not. -/
def optionally (p : Procedure ε α) : Procedure β Unit := modify fun w => (p.exec w).2

/-- Changes the tile at `p`. -/
def writeTile (p : Position) (f : Tile → Tile) (e : ε) : Procedure ε Unit := do
  ensure (fun w => decide (w.grid.Contains p)) e
  modify fun w => { w with grid := w.grid.modify p f }

/-- Changes the first avatar named `id`. -/
def writeAvatar (id : Nat) (f : Avatar → Avatar) (e : ε) : Procedure ε Unit := do
  let _ ← find (·.avatar? id) e
  modify fun w => { w with avatars := w.avatars.modify (w.avatars.findIdx (·.id = id)) f }

/-- Changes the first block named `id`. -/
def writeBlock (id : Nat) (f : Block → Block) (e : ε) : Procedure ε Unit := do
  let _ ← find (·.block? id) e
  modify fun w => { w with blocks := w.blocks.modify (w.blocks.findIdx (·.id = id)) f }

/-! ### The operations in place -/

/-- Lets the element `id` enter the tile at `p`. -/
def enter (id : Nat) (p : Position) (e : ε) : Procedure ε Unit :=
  writeTile p (fun t => { t with occupants := t.occupants.insert id }) e

/-- Lets the element `id` leave the tile at `p`. -/
def leave (id : Nat) (p : Position) (e : ε) : Procedure ε Unit :=
  writeTile p (fun t => { t with occupants := t.occupants.erase id }) e

/-- Takes the element `id` from one tile to another one, as far as they are on the grid. -/
def relocate (id : Nat) (source target : Position) : Procedure Unit Unit := do
  optionally (leave id source ())
  optionally (enter id target ())

def setDimensions (rows cols : Int) : Procedure WorldError Unit := do
  ensure (·.grid.cells.isEmpty) .alreadySized
  ensure (fun _ => !decide (rows ≤ 0 ∨ cols ≤ 0)) (.invalidDimensions rows cols)
  modify ({ · with grid := .replicate rows.toNat cols.toNat {} })

def setTerrain (p : Position) (terrain : Terrain) : Procedure WorldError Unit :=
  writeTile p ({ · with terrain }) (.outOfBounds p)

/-- Puts an element onto its tile, and then with `append` into the list of its kind. -/
def add (id : Nat) (p : Position) (append : World → World) : Procedure WorldError Unit := do
  ensure (!·.registered id) (.duplicateElement id)
  enter id p (.outOfBounds p)
  modify append

def addAvatar (a : Avatar) : Procedure WorldError Unit :=
  add a.id a.position fun w => { w with avatars := w.avatars ++ [a] }

def addBlock (b : Block) : Procedure WorldError Unit :=
  add b.id b.position fun w => { w with blocks := w.blocks ++ [b] }

def setCounter (id counter : Nat) : Procedure WorldError Unit :=
  writeAvatar id ({ · with counter }) (.avatarNotFound id)

def setBlockNumber (id : Nat) (number : Int) : Procedure Unit Unit :=
  writeBlock id ({ · with number }) ()

def moveAvatar (id : Nat) (target : Position) : Procedure Unit Unit := do
  let a ← find (·.avatar? id) ()
  ensure (fun w => (w.terrain? target).any (·.walkable)) ()
  ensure (fun w => !w.blockedFor id target) ()
  -- The tiles come first, also those of the carried block, and then the two elements.
  relocate id a.position target
  a.held.forM fun k => relocate k a.position target
  optionally (writeAvatar id ({ · with position := target }) ())
  a.held.forM fun k => optionally (writeBlock k ({ · with position := target }) ())

def pickUp (id : Nat) : Procedure Unit Nat := do
  let a ← find (·.avatar? id) ()
  ensure (fun _ => a.held.isNone) ()
  let b ← find (·.blockOn? a.position) ()
  writeBlock b.id ({ · with held := true }) ()
  writeAvatar id ({ · with held := some b.id }) ()
  return b.id

def drop (id : Nat) : Procedure Unit Nat := do
  let a ← find (·.avatar? id) ()
  let k ← find (fun _ => a.held) ()
  ensure (fun w => (w.blockOn? a.position).isNone) ()
  writeBlock k ({ · with held := false }) ()
  writeAvatar id ({ · with held := none }) ()
  return k

def calculate (id : Nat) (op : Operation) (p : Position) : Procedure Unit Unit := do
  let k ← find (fun w => (w.avatar? id).bind (·.held)) ()
  let number ← find (·.heldNumber? id) ()
  let operand ← find (·.blockOn? p) ()
  let result ← find (fun _ => op.result? number operand.number) ()
  setBlockNumber k result

/-- A command that cannot do its work does nothing, and the program goes on. -/
def execute (c : Command) (id : Nat) : Procedure Empty Flow := do
  match (← get).avatar? id with
  | none => return .next
  | some a =>
    match c with
    | .move direction =>
      optionally (moveAvatar id (direction.apply a.position))
      return .next
    | .pickUp =>
      optionally (pickUp id)
      return .next
    | .drop =>
      optionally (drop id)
      return .next
    | .arithmetic op direction =>
      optionally (calculate id op (direction.apply a.position))
      return .next
    | .branch direction condition =>
      let holds := condition.evaluate (← get) id (direction.apply a.position)
      return if holds then .next else .skipBody
    | .endBranch => return .next

/-! ### Steps -/

section Steps

variable (w)

@[simp] theorem exec_pure (a : α) : exec (pure a : Procedure ε α) w = (.ok a, w) := rfl

@[simp] theorem exec_throw (e : ε) : exec (throw e : Procedure ε α) w = (.error e, w) := rfl

@[simp] theorem exec_get : exec (get : Procedure ε World) w = (.ok w, w) := rfl

@[simp] theorem exec_modify (f : World → World) :
    exec (modify f : Procedure ε Unit) w = (.ok (), f w) := rfl

@[simp] theorem exec_bind (p : Procedure ε α) (g : α → Procedure ε β) : exec (p >>= g) w
    = match exec p w with
      | (.ok a, w') => exec (g a) w'
      | (.error e, w') => (.error e, w') := by
  rw [exec, exec, ExceptT.run_bind, StateT.run_bind]
  rcases p.run.run w with ⟨_ | _, _⟩ <;> rfl

@[simp] theorem exec_map (f : α → β) (p : Procedure ε α) :
    exec (f <$> p) w = ((exec p w).1.map f, (exec p w).2) := by
  rw [← bind_pure_comp, exec_bind]
  rcases exec p w with ⟨_ | _, _⟩ <;> rfl

@[simp] theorem exec_find (search : World → Option α) (e : ε) : exec (find search e) w
    = match search w with
      | some a => (.ok a, w)
      | none => (.error e, w) := by
  cases h : search w <;> simp [find, h]

@[simp] theorem exec_ensure (test : World → Bool) (e : ε) :
    exec (ensure test e) w = if test w then (.ok (), w) else (.error e, w) := by
  cases h : test w <;> simp [ensure, h]

@[simp] theorem exec_optionally (p : Procedure ε α) :
    exec (optionally p : Procedure β Unit) w = (.ok (), (exec p w).2) := rfl

end Steps

/-! ### Writing -/

theorem exec_writeTile (p : Position) (f : Tile → Tile) (e : ε) : exec (writeTile p f e) w
    = if w.grid.Contains p then (.ok (), { w with grid := w.grid.modify p f })
      else (.error e, w) := by
  by_cases hp : w.grid.Contains p <;> simp [writeTile, hp]

/-- Off the grid there is nothing to write. -/
theorem world_writeTile (p : Position) (f : Tile → Tile) (e : ε) :
    (exec (writeTile p f e) w).2 = { w with grid := w.grid.modify p f } := by
  rw [exec_writeTile, Grid.modify]
  split <;> rfl

theorem exec_relocate (id : Nat) (source target : Position) :
    exec (relocate id source target) w = (.ok (), w.relocate id source target) := by
  have hleave : (exec (leave id source ()) w).2 = w.leave id source := world_writeTile _ _ _
  have henter : (exec (enter id target ()) (w.leave id source)).2 = w.relocate id source target :=
    world_writeTile _ _ _
  simp [relocate, hleave, henter]

theorem exec_writeAvatar (hids : w.avatarIds.Nodup) (id : Nat) (f : Avatar → Avatar) (e : ε) :
    exec (writeAvatar id f e) w
      = (if (w.avatar? id).isSome then .ok () else .error e, w.updateAvatar id f) := by
  cases ha : w.avatar? id with
  | none => simp [writeAvatar, ha, updateAvatar_of_absent]
  | some a => simp [writeAvatar, ha, updateAvatar, modify_findIdx_key Avatar.id hids]

theorem exec_writeBlock (hids : w.blockIds.Nodup) (id : Nat) (f : Block → Block) (e : ε) :
    exec (writeBlock id f e) w
      = (if (w.block? id).isSome then .ok () else .error e, w.updateBlock id f) := by
  cases hb : w.block? id with
  | none => simp [writeBlock, hb, updateBlock_of_absent]
  | some b => simp [writeBlock, hb, updateBlock, modify_findIdx_key Block.id hids]

/-! ### What the operations leave -/

/-- The answer to a change, and the world after it. -/
def answer (w : World) (result : Except WorldError World) : Except WorldError Unit × World :=
  (result.map fun _ => (), w.attempt result)

theorem exec_setDimensions (rows cols : Int) :
    exec (setDimensions rows cols) w = answer w (w.setDimensions rows cols) := by
  rw [setDimensions, World.setDimensions]
  cases hcells : w.grid.cells.isEmpty with
  | false => simp [hcells, answer, attempt, Except.map]
  | true =>
      by_cases hsize : rows ≤ 0 ∨ cols ≤ 0
      · simp [hcells, hsize, answer, attempt, Except.map]
      · simp [hcells, hsize, answer, attempt, Except.map]

theorem exec_setTerrain (p : Position) (terrain : Terrain) :
    exec (setTerrain p terrain) w = answer w (w.setTerrain p terrain) := by
  rw [setTerrain, World.setTerrain, exec_writeTile]
  split <;> rfl

theorem exec_add (id : Nat) (p : Position) (append : World → World) : exec (add id p append) w
    = answer w (if w.registered id then .error (.duplicateElement id)
        else if w.grid.Contains p then .ok (append (w.enter id p))
        else .error (.outOfBounds p)) := by
  rw [add, enter, answer]
  cases hnew : w.registered id with
  | true => simp [hnew, attempt, Except.map]
  | false =>
      by_cases hp : w.grid.Contains p
      · simp [hnew, hp, exec_writeTile, attempt, Except.map, World.enter]
      · simp [hnew, hp, exec_writeTile, attempt, Except.map]

section Distinct

variable (havatars : w.avatarIds.Nodup) (hblocks : w.blockIds.Nodup)

include havatars in
theorem exec_setCounter (id counter : Nat) :
    exec (setCounter id counter) w = answer w (w.setCounter id counter) := by
  rw [setCounter, World.setCounter, exec_writeAvatar havatars]
  cases ha : w.avatar? id with
  | none =>
      rw [updateAvatar_of_absent ha]
      rfl
  | some a => rfl

include hblocks in
theorem exec_setBlockNumber (id : Nat) (number : Int) : exec (setBlockNumber id number) w
    = (if (w.setBlockNumber id number).1 then .ok () else .error (),
      (w.setBlockNumber id number).2) := by
  rw [setBlockNumber, World.setBlockNumber, exec_writeBlock hblocks]
  cases hb : w.block? id with
  | none =>
      rw [updateBlock_of_absent hb]
      rfl
  | some b => rfl

include hblocks in
theorem exec_calculate (id : Nat) (op : Operation) (p : Position) :
    (exec (calculate id op p) w).2 = w.calculate id op p := by
  rw [calculate, World.calculate]
  cases hk : (w.avatar? id).bind (·.held) with
  | none => simp [hk]
  | some k =>
      cases hnumber : w.heldNumber? id with
      | none => simp [hk, hnumber]
      | some number =>
          cases hoperand : w.blockOn? p with
          | none => simp [hk, hnumber, hoperand]
          | some operand =>
              cases hresult : op.result? number operand.number with
              | none => simp [hk, hnumber, hoperand, hresult]
              | some result => simp [hk, hnumber, hoperand, hresult, exec_setBlockNumber hblocks]

include havatars hblocks

theorem exec_pickUp (id : Nat) : exec (pickUp id) w
    = ((w.pickUp id).1.elim (.error ()) .ok, (w.pickUp id).2) := by
  rw [pickUp, World.pickUp]
  cases ha : w.avatar? id with
  | none => simp [ha]
  | some a =>
      cases hheld : a.held with
      | some k => simp [ha, hheld]
      | none =>
          cases hb : w.blockOn? a.position with
          | none => simp [ha, hheld, hb]
          | some b =>
              -- The block that answers for the tile is found again by its name, and the avatar too.
              have hblock : w.block? b.id = some b := (blockOn?_eq_some_iff.mp hb).1
              have hwrite := exec_writeAvatar (w := w.updateBlock b.id ({ · with held := true }))
                havatars id ({ · with held := some b.id }) ()
              simp [ha, hheld, hb, hblock, exec_writeBlock hblocks, hwrite, Except.map]

theorem exec_drop (id : Nat) : exec (drop id) w
    = ((w.drop id).1.elim (.error ()) .ok, (w.drop id).2) := by
  rw [drop, World.drop]
  cases ha : w.avatar? id with
  | none => simp [ha]
  | some a =>
      cases hheld : a.held with
      | none => simp [ha, hheld]
      | some k =>
          cases hb : w.blockOn? a.position with
          | some b => simp [ha, hheld, hb]
          | none =>
              cases hblock : w.block? k with
              | none =>
                  -- A block that is carried by name only is missed before anything is written.
                  simp [ha, hheld, hb, hblock, exec_writeBlock hblocks, updateBlock_of_absent]
              | some b =>
                  have hwrite := exec_writeAvatar (w := w.updateBlock k ({ · with held := false }))
                    havatars id ({ · with held := none }) ()
                  simp [ha, hheld, hb, hblock, exec_writeBlock hblocks, hwrite, Except.map]

theorem exec_moveAvatar (id : Nat) (target : Position) : exec (moveAvatar id target) w
    = (if (w.moveAvatar id target).1 then .ok () else .error (), (w.moveAvatar id target).2) := by
  rw [moveAvatar, World.moveAvatar]
  cases ha : w.avatar? id with
  | none => simp [ha]
  | some a =>
      cases hwalk : (w.terrain? target).any (·.walkable) with
      | false => simp [ha, hwalk]
      | true =>
          cases hblocked : w.blockedFor id target with
          | true => simp [ha, hwalk, hblocked]
          | false =>
              have hmoved := exec_writeAvatar (w := w.relocate id a.position target) havatars id
                ({ · with position := target }) ()
              cases hheld : a.held with
              | none => simp [ha, hwalk, hblocked, hheld, exec_relocate, hmoved]
              | some k =>
                  let w₁ := (w.relocate id a.position target).relocate k a.position target
                  have hmoved := exec_writeAvatar (w := w₁) havatars id
                    ({ · with position := target }) ()
                  have hcarried := exec_writeBlock
                    (w := w₁.updateAvatar id ({ · with position := target })) hblocks k
                    ({ · with position := target }) ()
                  simp [ha, hwalk, hblocked, hheld, exec_relocate, w₁, hmoved, hcarried]
                  rfl

theorem exec_execute (c : Command) (id : Nat) :
    exec (execute c id) w = (.ok (c.execute id w).1, (c.execute id w).2) := by
  rw [execute, Command.execute]
  cases ha : w.avatar? id with
  | none => simp [ha]
  | some a =>
      cases c with
      | move direction => simp [ha, Except.map, exec_moveAvatar havatars hblocks]
      | pickUp => simp [ha, Except.map, exec_pickUp havatars hblocks]
      | drop => simp [ha, Except.map, exec_drop havatars hblocks]
      | arithmetic op direction => simp [ha, Except.map, exec_calculate hblocks]
      | branch direction condition => simp [ha, Except.map]
      | endBranch => simp [ha]

end Distinct

end Procedure

/-! ## Replies -/

/-- What an action answers. -/
inductive Reply where
  /-- Done, or not done for a reason. -/
  | result (result : Except WorldError Unit)
  /-- Whether it was done. -/
  | done (yes : Bool)
  /-- The block that was picked up or dropped, if there was one. -/
  | block (id : Option Nat)
  /-- Where the program goes on. -/
  | flow (flow : Flow)

/-- The reply is a refusal. -/
def Reply.Refuses : Reply → Prop
  | result (.error _) | done false | block none => True
  | result (.ok _) | done true | block (some _) | flow _ => False

/-- What the operations of the world answer. -/
def reply (w : World) : Action → Reply
  | .setDimensions rows cols => .result ((w.setDimensions rows cols).map fun _ => ())
  | .setTerrain p terrain => .result ((w.setTerrain p terrain).map fun _ => ())
  | .addAvatar a => .result ((w.addAvatar a).map fun _ => ())
  | .addBlock b => .result ((w.addBlock b).map fun _ => ())
  | .moveAvatar id target => .done (w.moveAvatar id target).1
  | .pickUp id => .block (w.pickUp id).1
  | .drop id => .block (w.drop id).1
  | .setBlockNumber id number => .done (w.setBlockNumber id number).1
  | .setCounter id counter => .result ((w.setCounter id counter).map fun _ => ())
  | .resetCounters => .done true
  | .execute id command => .flow (command.execute id w).1

/-- The reply to a procedure, told from its answer, and the world that it leaves. -/
def Procedure.respond {ε α : Type} (p : Procedure ε α) (w : World)
    (tell : Except ε α → Reply) : Reply × World := (tell (p.exec w).1, (p.exec w).2)

/-- The reply to an action that is carried out in place, and the world that it leaves. -/
def carryOut (w : World) : Action → Reply × World
  | .setDimensions rows cols => (Procedure.setDimensions rows cols).respond w .result
  | .setTerrain p terrain => (Procedure.setTerrain p terrain).respond w .result
  | .addAvatar a => (Procedure.addAvatar a).respond w .result
  | .addBlock b => (Procedure.addBlock b).respond w .result
  | .moveAvatar id target => (Procedure.moveAvatar id target).respond w (.done ·.isOk)
  | .pickUp id => (Procedure.pickUp id).respond w (.block ·.toOption)
  | .drop id => (Procedure.drop id).respond w (.block ·.toOption)
  | .setBlockNumber id number => (Procedure.setBlockNumber id number).respond w (.done ·.isOk)
  | .setCounter id counter => (Procedure.setCounter id counter).respond w .result
  | .resetCounters => (.done true, w.resetCounters)
  | .execute id command => (Procedure.execute command id).respond w
      fun | .ok flow => .flow flow

/-- Where identifiers name one avatar and one block, an action that is carried out in place comes to
what the operations say. -/
theorem carryOut_eq (havatars : w.avatarIds.Nodup) (hblocks : w.blockIds.Nodup) (action : Action) :
    w.carryOut action = (w.reply action, w.perform action) := by
  cases action with
  | setDimensions rows cols => rw [carryOut, Procedure.respond, Procedure.exec_setDimensions]; rfl
  | setTerrain p terrain => rw [carryOut, Procedure.respond, Procedure.exec_setTerrain]; rfl
  | addAvatar a => rw [carryOut, Procedure.respond, Procedure.addAvatar, Procedure.exec_add]; rfl
  | addBlock b => rw [carryOut, Procedure.respond, Procedure.addBlock, Procedure.exec_add]; rfl
  | moveAvatar id target =>
      rw [carryOut, Procedure.respond, Procedure.exec_moveAvatar havatars hblocks, reply, perform]
      cases (w.moveAvatar id target).1 <;> rfl
  | pickUp id =>
      rw [carryOut, Procedure.respond, Procedure.exec_pickUp havatars hblocks, reply, perform]
      cases (w.pickUp id).1 <;> rfl
  | drop id =>
      rw [carryOut, Procedure.respond, Procedure.exec_drop havatars hblocks, reply, perform]
      cases (w.drop id).1 <;> rfl
  | setBlockNumber id number =>
      rw [carryOut, Procedure.respond, Procedure.exec_setBlockNumber hblocks, reply, perform]
      cases (w.setBlockNumber id number).1 <;> rfl
  | setCounter id counter =>
      rw [carryOut, Procedure.respond, Procedure.exec_setCounter havatars]; rfl
  | resetCounters => rfl
  | execute id command =>
      rw [carryOut, Procedure.respond, Procedure.exec_execute havatars hblocks]; rfl

/-- What is refused is not done. -/
theorem perform_of_refuses {action : Action} (h : (w.reply action).Refuses) :
    w.perform action = w := by
  have hattempt : ∀ {result : Except WorldError World},
      (Reply.result (result.map fun _ => ())).Refuses → w.attempt result = w := by
    rintro (e | w') hrefused
    · rfl
    · exact hrefused.elim
  cases action with
  | setDimensions rows cols => exact hattempt h
  | setTerrain p terrain => exact hattempt h
  | addAvatar a => exact hattempt h
  | addBlock b => exact hattempt h
  | setCounter id counter => exact hattempt h
  | moveAvatar id target =>
      rw [reply] at h
      rw [perform]
      rcases w.moveAvatar_cases id target with heq | ⟨a, -, -, -, heq⟩
      · rw [heq]
      · rw [heq] at h
        exact h.elim
  | pickUp id =>
      rw [reply] at h
      rw [perform]
      rcases w.pickUp_cases id with heq | ⟨a, b, -, -, -, heq⟩
      · rw [heq]
      · rw [heq] at h
        exact h.elim
  | drop id =>
      rw [reply] at h
      rw [perform]
      rcases w.drop_cases id with heq | ⟨a, k, b, -, -, -, -, heq⟩
      · rw [heq]
      · rw [heq] at h
        exact h.elim
  | setBlockNumber id number =>
      rw [reply, World.setBlockNumber] at h
      rw [perform, World.setBlockNumber]
      cases hb : w.block? id with
      | none => rfl
      | some b =>
          rw [hb] at h
          exact h.elim
  | resetCounters => exact h.elim
  | execute id command => exact h.elim

/-! ## Identifiers -/

theorem nodup_blockIds_insertBlock (hnew : w.block? b.id = none) (h : w.blockIds.Nodup) :
    (w.insertBlock b).blockIds.Nodup := by
  have hids : (w.insertBlock b).blockIds = w.blockIds ++ [b.id] := List.map_append
  rw [block?_eq_none_iff] at hnew
  rw [hids, List.nodup_append_comm, List.singleton_append, List.nodup_cons]
  exact ⟨hnew, h⟩

/-- In every world that any actions make, an identifier names one block. -/
theorem ReachedBy.nodup_blockIds {allowed : Action → Prop} (h : ReachedBy allowed w) :
    w.blockIds.Nodup := by
  induction h with
  | empty => exact List.nodup_nil
  | @perform w action _ _ ih =>
      cases action with
      | setDimensions rows cols =>
          rcases w.setDimensions_cases rows cols with heq | ⟨-, heq⟩
          · rwa [World.perform, heq]
          · rwa [World.perform, heq]
      | setTerrain p terrain =>
          rw [World.perform, World.setTerrain]
          split <;> exact ih
      | addAvatar a =>
          rcases w.addAvatar_cases a with heq | ⟨-, -, -, heq⟩
          · rwa [World.perform, heq]
          · rwa [World.perform, heq]
      | addBlock b =>
          rcases w.addBlock_cases b with heq | ⟨-, hnew, -, heq⟩
          · rwa [World.perform, heq]
          · rw [World.perform, heq]
            exact nodup_blockIds_insertBlock hnew ih
      | moveAvatar id target => rwa [World.perform, (SameSetting.moveAvatar w id target).blockIds]
      | pickUp id => rwa [World.perform, (SameSetting.pickUp w id).blockIds]
      | drop id => rwa [World.perform, (SameSetting.drop w id).blockIds]
      | setBlockNumber id number =>
          rw [World.perform, World.setBlockNumber]
          cases w.block? id with
          | none => exact ih
          | some b =>
              show (w.updateBlock id _).blockIds.Nodup
              rwa [blockIds_updateBlock (by intro; rfl)]
      | setCounter id counter => rwa [World.perform, (SameSetting.setCounter w id counter).blockIds]
      | resetCounters => exact ih
      | execute id command => rwa [World.perform, (SameSetting.execute command id w).blockIds]

/-- Whatever actions have made a world, also by adding elements that are carried by nobody, by
several avatars or that are not there: an action that is refused leaves the world as it was, even
when it is carried out in place and ends half-way. -/
theorem unchanged_of_refused (h : ReachedBy (fun _ => True) w) (action : Action) :
    w.carryOut action = (w.reply action, w.perform action) ∧
      ((w.reply action).Refuses → (w.carryOut action).2 = w) := by
  have heq := carryOut_eq h.nodup_avatarIds h.nodup_blockIds action
  refine ⟨heq, fun hrefused => ?_⟩
  rw [heq]
  exact perform_of_refuses hrefused

/-- A world in which the avatars 1 and 2 carry the same block, from different tiles, and the avatar
3 carries a block that is not there. -/
def muddled : World :=
  [.setDimensions 1 2, .addBlock { id := 7, position := ⟨0, 1⟩, number := 4, held := true },
    .addAvatar { id := 1, position := ⟨0, 0⟩, held := some 7 },
    .addAvatar { id := 2, position := ⟨0, 1⟩, counter := 0, held := some 7 },
    .addAvatar { id := 3, position := ⟨0, 0⟩, held := some 9 }].foldl perform empty

/-- The avatar 3 cannot drop its block, which is noticed on a bare tile only. -/
theorem unchanged_of_refused_muddled :
    ReachedBy (fun _ => True) muddled ∧ (muddled.reply (.drop 3)).Refuses ∧
      (muddled.carryOut (.drop 3)).2 = muddled := by
  have h : ReachedBy (fun _ => True) muddled := ReachedBy.empty.foldl _ fun _ _ => trivial
  have hrefused : (muddled.reply (.drop 3)).Refuses := trivial
  exact ⟨h, hrefused, (unchanged_of_refused h _).2 hrefused⟩

end World

end TilePuzzle
