import TilePuzzle.Proofs.Engine.Tick
import TilePuzzle.Proofs.World.Crowding

/-!
# Nothing piles up in play

Once a world is made, avatars act in it by single operations, by commands, or by the ticks of
engines, in any order. Whatever they do leaves the world reachable, and tidy with respect to the
world when play began: both are kept by each deed, so they are kept by any row of deeds
(`foldl_undergo`) and by the ticks of a run (`after`).

The main statement is `never_crowded`. It is not about avatars and blocks that start on distinct
tiles only; those stay on distinct tiles, as the second half says.
-/

namespace TilePuzzle

/-- Something that happens in a world during play. -/
inductive Deed where
  | moveAvatar (id : Nat) (target : Position)
  | pickUp (id : Nat)
  | drop (id : Nat)
  | execute (id : Nat) (command : Command)
  /-- A tick of an engine with this program, goal, time limit and score. -/
  | tick (engine : Engine) (clock : Engine.Readings)

namespace World

variable {w w' : World}

/-- The world after a deed, whether it succeeds or not. -/
def undergo (w : World) : Deed → World
  | .moveAvatar id target => (w.moveAvatar id target).2
  | .pickUp id => (w.pickUp id).2
  | .drop id => (w.drop id).2
  | .execute id command => (command.execute id w).2
  | .tick engine clock => ({ engine with world := w }.tickDuring clock).engine.world

/-- `w'` can be reached, and between `w` and `w'` nothing has piled up. -/
def InOrder (w w' : World) : Prop := Reachable w' ∧ Tidy w w'

namespace InOrder

/-- An action of avatars keeps order if nothing piles up by it. -/
theorem perform (h : InOrder w w') (action : Action) (hplain : action.Plain)
    (htidy : Tidy w' (w'.perform action)) : InOrder w (w'.perform action) :=
  ⟨ReachedBy.perform h.1 hplain, h.2.trans htidy⟩

theorem execute (h : InOrder w w') (id : Nat) (c : Command) : InOrder w (c.execute id w').2 :=
  h.perform (.execute id c) trivial (.execute h.1.consistent id c)

theorem setCounter (h : InOrder w w') (id counter : Nat) :
    InOrder w (w'.attempt (w'.setCounter id counter)) :=
  h.perform (.setCounter id counter) trivial (.setCounter w' id counter)

theorem tick {e : Engine} (h : InOrder w e.world) (clock : Engine.Readings) :
    InOrder w (e.tickDuring clock).engine.world :=
  Engine.tick_induction (P := InOrder w) (fun _ id c h => h.execute id c)
    (fun _ id counter h => h.setCounter id counter) e clock h

theorem undergo (h : InOrder w w') (deed : Deed) : InOrder w (w'.undergo deed) := by
  cases deed with
  | moveAvatar id target =>
      exact h.perform (.moveAvatar id target) trivial
        (.moveAvatar h.1.consistent id target)
  | pickUp id => exact h.perform (.pickUp id) trivial (.pickUp w' id)
  | drop id => exact h.perform (.drop id) trivial (.drop h.1.consistent id)
  | execute id command => exact h.execute id command
  | tick engine clock => exact tick (e := { engine with world := w' }) h clock

theorem foldl_undergo (h : InOrder w w') (deeds : List Deed) :
    InOrder w (deeds.foldl World.undergo w') := by
  induction deeds generalizing w' with
  | nil => exact h
  | cons deed rest ih => exact ih (h.undergo deed)

theorem after {e : Engine} (h : InOrder w e.world) (clock : Nat → Engine.Readings) (n : Nat) :
    InOrder w (e.after clock n).world := by
  induction n with
  | zero => exact h
  | succ n ih => exact ih.tick (clock n)

end InOrder

end World

namespace Engine

open World (Reachable Tidy)

/-- Whatever happens in a reachable world, no tile gets a second avatar or a second resting block
by it, the setting stays, and avatars leave their places for floor only. So avatars and resting
blocks on distinct tiles keep to distinct tiles, in play of any kind and in runs of any program. -/
theorem never_crowded {w : World} (hw : Reachable w) :
    (∀ deeds : List Deed, Tidy w (deeds.foldl World.undergo w) ∧
      (w.Spread → (deeds.foldl World.undergo w).Spread)) ∧
    ∀ e : Engine, e.world = w → ∀ clock n,
      Tidy w (e.after clock n).world ∧ (w.Spread → (e.after clock n).world.Spread) := by
  have hstart : w.InOrder w := ⟨hw, .refl w⟩
  constructor
  · intro deeds
    have htidy := (hstart.foldl_undergo deeds).2
    exact ⟨htidy, htidy.spread⟩
  · rintro e rfl clock n
    have htidy := (hstart.after clock n).2
    exact ⟨htidy, htidy.spread⟩

/-- Two avatars and a block on one tile, with a second block to the right of them, at the left of a
wall. -/
def huddle : World :=
  [.setDimensions 1 3, .setTerrain ⟨0, 2⟩ .wall, .addAvatar { id := 6, position := ⟨0, 0⟩ },
    .addAvatar { id := 4, position := ⟨0, 0⟩ },
    .addBlock { id := 1, position := ⟨0, 0⟩, number := 7 },
    .addBlock { id := 9, position := ⟨0, 1⟩, number := 8 }].foldl World.perform World.empty

/-- An engine that sends every avatar to the right, then to where it came from. -/
def pacer : Engine where
  program := { commands := [.move .east, .drop, .move .west] }
  world := huddle
  goal := { idealTime := 0, idealLines := 0, budget := 20 }
  timeLimit := 60

/-- The two avatars start on one tile. The first one carries the block off and cannot put it down,
and the second one does not come after it. -/
theorem never_crowded_huddle :
    Reachable huddle ∧ huddle.avatarsAt ⟨0, 0⟩ = 2 ∧
      (let deeds : List Deed := [.pickUp 6, .tick pacer ⟨0, 0⟩, .drop 6, .moveAvatar 4 ⟨0, 1⟩]
        let w := deeds.foldl World.undergo huddle
        w.avatarsAt ⟨0, 1⟩ = 1 ∧ w.restingAt ⟨0, 1⟩ = 1 ∧ Tidy huddle w) ∧
      Tidy huddle (pacer.after (fun _ => ⟨0, 0⟩) 3).world := by
  have h : Reachable huddle := World.ReachedBy.empty.foldl _ (by decide)
  refine ⟨h, by decide, ⟨by decide, by decide, ?_⟩, ?_⟩
  · exact ((never_crowded h).1 _).1
  · exact ((never_crowded h).2 pacer rfl _ 3).1

end Engine

end TilePuzzle
