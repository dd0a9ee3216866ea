import TilePuzzle.Proofs.Engine.Tick
import TilePuzzle.Proofs.World.Image

/-!
# Images of runs

When the commands of a program are turned with a motion and the targets of a goal are moved by it,
the program does in an image of a world what it does in the world. Two such engines keep step: each
avatar executes the same line or meets the same fault (`Image.step`), the run is decided in the same
way (`Image.verdict`), and so a tick announces and reports the same and leaves an image
(`Image.tick`).

An image is determined by its size and the order of its blocks, and neither changes in a run. So the
ticks in the image of a given size are the images of the ticks (`turnAt_imageIn`).
-/

namespace TilePuzzle

/-- The program with its directions turned. -/
def Motion.program (m : Motion) (p : Program) : Program :=
  { p with commands := p.commands.map m.command }

/-- A motion that turns no direction changes no program. -/
theorem Motion.program_of_turn {m : Motion} (h : m.turn = id) (p : Program) : m.program p = p := by
  have hcommand : m.command = id := by
    funext c
    cases c <;> simp only [Motion.command, h, id]
  rw [program, hcommand, List.map_id]

namespace Program

variable (m : Motion) (p : Program)

theorem length_motion : (m.program p).length = p.length := List.length_map m.command

theorem finished_motion : (m.program p).finished = p.finished := by
  rw [finished, length_motion, finished]

theorem command?_motion (line : Nat) :
    (m.program p).command? line = (p.command? line).map m.command := by
  unfold command?
  split
  · rfl
  · exact List.getElem?_map

/-- Turning leaves the jumps alone. -/
theorem next_motion (line : Nat) (flow : Flow) :
    (m.program p).next line flow = p.next line flow := by
  cases flow <;> rfl

end Program

namespace Engine

variable {m : Motion} {e e' : Engine} {pass pass' : Pass} {t t' : Turn} {clock : Readings}
  {rows cols : Nat}

/-- `e'` runs the turned program for the moved goal in an image of the world of `e`. -/
structure Image (m : Motion) (e e' : Engine) : Prop where
  program : e'.program = m.program e.program
  goal : e'.goal = m.goal e.goal
  timeLimit : e'.timeLimit = e.timeLimit
  score : e'.score = e.score
  ticks : e'.ticks = e.ticks
  world : World.Image m e.world e'.world

/-- The engines of the passes are images, and all else is the same. -/
structure Pass.Image (m : Motion) (pass pass' : Pass) : Prop where
  engine : Engine.Image m pass.engine pass'.engine
  lines : pass'.lines = pass.lines
  signals : pass'.signals = pass.signals

/-- The ticks announce and answer the same, and leave an image. -/
structure Turn.Image (m : Motion) (t t' : Turn) : Prop where
  engine : Engine.Image m t.engine t'.engine
  signals : t'.signals = t.signals
  result : t'.result = t.result

namespace Image

variable (h : Image m e e')

include h

/-! ## One avatar -/

theorem finished : e'.program.finished = e.program.finished := by
  rw [h.program, Program.finished_motion]

theorem remaining : e'.remaining = e.remaining := by
  rw [Engine.remaining, Engine.remaining, h.goal, h.score]
  rfl

theorem advance (id : Nat) (c : Command) (counter : Nat) :
    Image m (e.advance id c counter) (e'.advance id (m.command c) counter) where
  program := h.program
  goal := h.goal
  timeLimit := h.timeLimit
  score := congrArg (· + 1) h.score
  ticks := h.ticks
  world := (h.world.execute c id).2.updateAvatar id (by intro; rfl) (by intro; rfl) (by intro; rfl)

/-- Each avatar meets the same fault, or executes the same line. -/
theorem step (id : Nat) :
    match e.step id with
    | .error fault => e'.step id = .error fault
    | .ok (line, e₁) => ∃ e₁', e'.step id = .ok (line, e₁') ∧ Image m e₁ e₁' := by
  have ha' := h.world.avatar? id
  cases ha : e.world.avatar? id with
  | none =>
      rw [ha] at ha'
      rw [step_of_avatar?_eq_none ha, step_of_avatar?_eq_none ha']
      exact ⟨e', rfl, h⟩
  | some a =>
      rw [ha] at ha'
      have hc' : e'.program.command? (m.avatar a).counter
          = (e.program.command? a.counter).map m.command := by
        rw [h.program]
        exact Program.command?_motion m e.program a.counter
      cases hc : e.program.command? a.counter with
      | some c =>
          rw [hc] at hc'
          have hstep' : e'.step id = (e.program.next a.counter (c.execute id e.world).1).map
              fun counter => (some a.counter, e'.advance id (m.command c) counter) := by
            rw [step_of_command ha' hc', (h.world.execute c id).1, h.program, Program.next_motion]
            rfl
          rw [step_of_command ha hc, hstep']
          cases e.program.next a.counter (c.execute id e.world).1 with
          | error fault => rfl
          | ok n => exact ⟨_, rfl, h.advance id c n⟩
      | none =>
          have hcounter : (m.avatar a).counter = a.counter := rfl
          rw [hc] at hc'
          rw [step_of_command?_eq_none ha hc, step_of_command?_eq_none ha' hc', h.finished,
            hcounter]
          by_cases hfinished : a.counter = e.program.finished
          · rw [if_pos hfinished, if_pos hfinished]
            exact ⟨e', rfl, h⟩
          · rw [if_neg hfinished, if_neg hfinished]

/-- The run is decided in the same way. -/
theorem verdict (timeLeft : Int) : e'.verdict timeLeft = e.verdict timeLeft := by
  have hlength : e'.program.length = e.program.length := by
    rw [h.program, Program.length_motion]
  rw [Engine.verdict, Engine.verdict, h.remaining, hlength, h.goal, h.world.reached]
  rfl

end Image

/-! ## One tick -/

theorem Pass.Image.record (h : Pass.Image m pass pass') (he : Engine.Image m e e') (id : Nat)
    (line : Option Nat) : Pass.Image m (pass.record e id line) (pass'.record e' id line) := by
  cases line with
  | none => exact ⟨he, h.lines, h.signals⟩
  | some line =>
      refine ⟨he, ?_, ?_⟩
      · rw [Pass.record, h.lines, Pass.record]
      · rw [Pass.record, h.signals, he.remaining, Pass.record]

theorem Pass.Image.act (h : Pass.Image m pass pass') (timeLeft : Int) (ids : List Nat) :
    (act timeLeft ids pass').1 = (act timeLeft ids pass).1 ∧
      Pass.Image m (act timeLeft ids pass).2 (act timeLeft ids pass').2 := by
  induction ids generalizing pass pass' with
  | nil => exact ⟨rfl, h⟩
  | cons id rest ih =>
      have hstep := h.engine.step id
      cases hs : pass.engine.step id with
      | error fault =>
          rw [hs] at hstep
          rw [act_of_error hs, act_of_error hstep]
          exact ⟨rfl, h⟩
      | ok answer =>
          obtain ⟨line, e₁⟩ := answer
          rw [hs] at hstep
          obtain ⟨e₁', hs', he⟩ := hstep
          have hrecord := h.record he id line
          rw [act_of_ok hs, act_of_ok hs', he.verdict]
          cases e₁.verdict timeLeft with
          | some outcome => exact ⟨rfl, hrecord⟩
          | none => exact ih hrecord

theorem Pass.Image.conclude (h : Pass.Image m pass pass') (timeLeft : Int)
    (decision : Option Outcome) :
    Turn.Image m (pass.conclude timeLeft decision) (pass'.conclude timeLeft decision) where
  engine := by
    simp only [Pass.conclude, h.lines]
    split
    · exact { h.engine with score := rfl }
    · exact h.engine
  signals := by simp only [Pass.conclude, h.lines, h.signals]
  result := by simp only [Pass.conclude, h.lines, h.engine.ticks]

theorem Image.opening (h : Image m e e') : Pass.Image m e.opening e'.opening where
  engine := { h with ticks := congrArg (· + 1) h.ticks }
  lines := rfl
  signals := rfl

/-- A tick announces and reports the same in an image, and leaves an image. -/
theorem Image.tick (h : Image m e e') (clock : Readings) :
    Turn.Image m (e.tickDuring clock) (e'.tickDuring clock) := by
  have htime : ∀ elapsed, e'.timeLeft elapsed = e.timeLeft elapsed := by
    intro elapsed
    rw [timeLeft, h.timeLimit, timeLeft]
  obtain ⟨hanswer, hpass⟩ := h.opening.act (e.timeLeft clock.scoring) e.world.avatarIds
  cases hact : Engine.act (e.timeLeft clock.scoring) e.world.avatarIds e.opening with
  | mk answer pass =>
      cases hact' : Engine.act (e.timeLeft clock.scoring) e.world.avatarIds e'.opening with
      | mk answer' pass' =>
          rw [hact, hact'] at hanswer hpass
          obtain rfl : answer' = answer := hanswer
          rw [← htime, ← h.world.avatarIds] at hact'
          cases answer' with
          | error fault =>
              rw [tick_of_error hact, tick_of_error hact']
              exact ⟨hpass.engine, hpass.signals, rfl⟩
          | ok decision =>
              rw [tick_of_ok hact, tick_of_ok hact', htime]
              exact hpass.conclude _ decision

/-- Ticks leave an image. -/
theorem Image.after (h : Image m e e') (clock : Nat → Readings) (n : Nat) :
    Image m (e.after clock n) (e'.after clock n) := by
  induction n with
  | zero => exact h
  | succ n ih => exact (ih.tick (clock n)).engine

/-! ## The image of a given size -/

/-- The engine for the turned program and the moved goal, in the image of the world of this size. -/
def imageIn (m : Motion) (rows cols : Nat) (e : Engine) : Engine :=
  { e with
    program := m.program e.program
    world := e.world.imageIn m rows cols
    goal := m.goal e.goal }

/-- The tick with the image of its engine. -/
def Turn.imageIn (m : Motion) (rows cols : Nat) (t : Turn) : Turn :=
  { t with engine := t.engine.imageIn m rows cols }

theorem Turn.Image.eq_imageIn (h : Turn.Image m t t')
    (hworld : t'.engine.world = t.engine.world.imageIn m rows cols) :
    t' = t.imageIn m rows cols := by
  obtain ⟨⟨program, world, goal, timeLimit, score, ticks⟩, signals, result⟩ := t'
  obtain ⟨⟨rfl, rfl, rfl, rfl, rfl, -⟩, rfl, rfl⟩ := h
  rw [Turn.imageIn, Engine.imageIn, ← hworld]

open World (Fits)

/-- A tick in the image of a given size is the image of the tick. -/
theorem tick_imageIn (h : Fits m rows cols e.world) (clock : Readings) :
    (e.imageIn m rows cols).tickDuring clock = (e.tickDuring clock).imageIn m rows cols := by
  have himage : Image m e (e.imageIn m rows cols) := ⟨rfl, rfl, rfl, rfl, rfl, h.image⟩
  have hturn := himage.tick clock
  have hfits : Fits m rows cols (e.tickDuring clock).engine.world :=
    h.of_setting (setting_tick e clock)
  have hsetting := setting_tick (e.imageIn m rows cols) clock
  have hblocks : ((e.imageIn m rows cols).tickDuring clock).engine.world.blockIds
      = ((e.tickDuring clock).engine.world.imageIn m rows cols).blockIds := by
    rw [hsetting.blockIds, World.blockIds_imageIn, (setting_tick e clock).blockIds]
    exact World.blockIds_imageIn
  have havatars : ((e.tickDuring clock).engine.world.imageIn m rows cols).avatarIds.Nodup := by
    rw [World.avatarIds_imageIn]
    exact hfits.avatarIds
  have hdistinct : ((e.tickDuring clock).engine.world.imageIn m rows cols).blockIds.Nodup := by
    rw [World.blockIds_imageIn]
    exact hfits.blockIds
  exact hturn.eq_imageIn (hfits.image.unique hturn.engine.world hsetting.rows hsetting.cols hblocks
    havatars hdistinct)

/-- The ticks of a run in the image of a given size are the images of the ticks. -/
theorem turnAt_imageIn (h : Fits m rows cols e.world) (clock : Nat → Readings) (n : Nat) :
    (e.imageIn m rows cols).turnAt clock n = (e.turnAt clock n).imageIn m rows cols := by
  induction n generalizing e clock with
  | zero => exact tick_imageIn h (clock 0)
  | succ n ih =>
      rw [turnAt_succ, turnAt_succ, tick_imageIn h]
      exact ih (h.of_setting (setting_tick e (clock 0))) _

end Engine

end TilePuzzle
