import TilePuzzle.CommandLine.Session
import TilePuzzle.Proofs.Engine.Footing
import TilePuzzle.Proofs.Engine.Termination
import TilePuzzle.Proofs.Loading
import TilePuzzle.Proofs.Storage

/-!
# What a session tells about a run

A session runs a level until a limit of ticks or the end of the run, whichever is first. The end is
a matter of the engine alone (`Engine.Ends`), and the ticks of a session are the first ones of those
up to the end. So a limit cuts the sections and the entries of the transcript off, and nothing more:
what is told about a tick does not depend on the limit.

The main statement is `account_of_run`.
-/

namespace TilePuzzle

open Text (intText natText)

/-! ## The end of a run -/

namespace Engine

variable {e : Engine} {total : Nat}

/-- The run ends with tick `total`: up to it, tick `k + 1` brings `reports k`, and the last of these
reports, and no other, is terminal. -/
structure Ends (e : Engine) (clock : Nat → Readings) (total : Nat) (reports : Nat → Report) :
    Prop where
  pos : 0 < total
  result : ∀ k < total, (e.turnAt clock k).result = .ok (reports k)
  terminal_iff : ∀ k < total, (reports k).isTerminal = true ↔ k + 1 = total

theorem Ready.exists_ends (h : Ready e) (clock : Nat → Readings) :
    ∃ total ≤ e.program.finished, ∃ reports, e.Ends clock total reports := by
  classical
  choose reports hreports using fun k => (h.after clock k).tick (clock k)
  have hexists : ∃ k, (reports k).isTerminal = true := by
    obtain ⟨k, -, r, hr, hterminal⟩ := h.exists_terminal clock
    obtain rfl : reports k = r := Except.ok.inj ((hreports k).symm.trans hr)
    exact ⟨k, hterminal⟩
  have hle : Nat.find hexists ≤ e.program.length := by
    obtain ⟨k, hk, r, hr, hterminal⟩ := h.exists_terminal clock
    obtain rfl : reports k = r := Except.ok.inj ((hreports k).symm.trans hr)
    exact Nat.le_trans (Nat.find_le hterminal) hk
  refine ⟨Nat.find hexists + 1, Nat.succ_le_succ hle, reports, Nat.succ_pos _, ?_, ?_⟩
  · exact fun k _ => hreports k
  · intro k hk
    constructor
    · intro hterminal
      have := Nat.find_le (h := hexists) hterminal
      omega
    · intro hsame
      obtain rfl : k = Nat.find hexists := Nat.succ_injective hsame
      exact Nat.find_spec hexists

/-- The rest of a run that does not end with its first tick. -/
theorem Ends.tail {clock : Nat → Readings} {reports : Nat → Report}
    (h : e.Ends clock (total + 1) reports) (hpos : 0 < total) :
    (e.tickDuring (clock 0)).engine.Ends (fun k => clock (k + 1)) total
      (fun k => reports (k + 1)) where
  pos := hpos
  result := fun k hk => by
    rw [← turnAt_succ]
    exact h.result (k + 1) (Nat.succ_lt_succ hk)
  terminal_iff := fun k hk => by
    rw [h.terminal_iff (k + 1) (Nat.succ_lt_succ hk), Nat.succ_inj]

/-- The ticks that are made under a limit are the first ones of those up to the end. -/
theorem Ends.run {elapsed : Nat → Nat} {reports : Nat → Report} {limit : Nat}
    (h : e.Ends (fun k => .still (elapsed k)) total reports) :
    e.run elapsed limit
      = (List.range (min total limit)).map (e.turnAt fun k => .still (elapsed k)) := by
  -- After the first tick the rest of the run is a run of its own, with a limit that is less by one.
  induction limit generalizing e elapsed total reports with
  | zero => rw [Nat.min_zero]; rfl
  | succ limit ih =>
      obtain ⟨rest, rfl⟩ := Nat.exists_eq_add_one.mpr h.pos
      have hfirst : (e.tick (elapsed 0)).result = .ok (reports 0) := h.result 0 h.pos
      have hlast : (e.tick (elapsed 0)).isLast = true ↔ rest = 0 := by
        rw [Turn.isLast, hfirst, h.terminal_iff 0 h.pos]
        omega
      rw [Engine.run, Nat.add_min_add_right, List.range_succ_eq_map, List.map_cons, List.map_map]
      refine congrArg (e.tick (elapsed 0) :: ·) ?_
      rcases Nat.eq_zero_or_pos rest with hzero | hpos
      · rw [if_pos (hlast.mpr hzero), hzero, Nat.zero_min]
        rfl
      · have hopen : ¬(e.tick (elapsed 0)).isLast = true := fun hstop =>
          absurd (hlast.mp hstop) (Nat.ne_of_gt hpos)
        rw [if_neg hopen]
        show Engine.run (fun k => elapsed (k + 1)) limit
          (e.tickDuring (.still (elapsed 0))).engine = _
        rw [ih (h.tail hpos)]
        refine List.map_congr_left fun k _ => ?_
        rw [Function.comp_apply, turnAt_succ]

theorem ticks_after (e : Engine) (clock : Nat → Readings) (n : Nat) :
    (e.after clock n).ticks = e.ticks + n := by
  induction n with
  | zero => rfl
  | succ n ih => rw [after, ticks_tick, ih, Nat.add_assoc]

/-- A report has the number of its tick. -/
theorem tick_of_result {clock : Readings} {r : Report} (h : (e.tickDuring clock).result = .ok r) :
    r.tick = e.ticks + 1 := by
  rw [← ticks_tick e clock]
  cases hact : act (e.timeLeft clock.scoring) e.world.avatarIds e.opening with
  | mk answer pass =>
      cases answer with
      | error fault =>
          rw [tick_of_error hact] at h
          cases h
      | ok decision =>
          rw [tick_of_ok hact] at h ⊢
          cases h
          rw [Pass.conclude]
          split <;> rfl

end Engine

/-! ## What is told -/

/-- The line about the end of a run that came to its end with this report. -/
def Report.conclusion (r : Report) (ticks : Nat) : String :=
  match r.outcome with
  | some (.won remaining bonus) =>
    "Won after " ++ natText ticks ++ " tick(s): budget left " ++ intText remaining
      ++ ", line bonus " ++ intText bonus.lines ++ ", time bonus " ++ intText bonus.time
      ++ ", total " ++ intText (remaining + bonus.lines + bonus.time)
  | some .lost => "Out of commands after " ++ natText ticks ++ " tick(s). Level failed."
  | some .finished =>
    "Program finished after " ++ natText ticks ++ " tick(s) without reaching the goal."
  | none => "Time is up after " ++ natText ticks ++ " tick(s)."

/-- What is told about the end after `count` of `total` ticks. -/
def ending (reports : Nat → Report) (total count : Nat) : List String :=
  if count = 0 then ["No ticks were run."]
  else if count < total then
    ["Stopped after " ++ natText count ++ " tick(s); run still in progress."]
  else
    (reports (count - 1)).conclusion count
      :: if (reports (count - 1)).outcome.isSome ∧ (reports (count - 1)).timedOut = true then
          ["Time is up as well."]
        else []

/-- A run that came to its end is not told to have been stopped, or never to have begun. -/
theorem Report.conclusion_ne (r : Report) (ticks : Nat) :
    r.conclusion ticks ≠ "No ticks were run." ∧
      ¬"Stopped after ".toList <+: (r.conclusion ticks).toList := by
  unfold conclusion
  split <;> simp [String.ext_iff]

theorem noTicks_mem_ending_iff {reports : Nat → Report} {total count : Nat} :
    "No ticks were run." ∈ ending reports total count ↔ count = 0 := by
  unfold ending
  split
  · next hzero => simp [hzero]
  · next hpos =>
      have hne := (reports (count - 1)).conclusion_ne count
      split
      · simp [String.ext_iff, hpos]
      · split <;> simp [hne.1.symm, hpos]

theorem stopped_mem_ending_iff {reports : Nat → Report} {total count : Nat} :
    (∃ line ∈ ending reports total count, "Stopped after ".toList <+: line.toList)
      ↔ 1 ≤ count ∧ count < total := by
  unfold ending
  split
  · next hzero => simp [hzero]
  · next hpos =>
      have hne := (reports (count - 1)).conclusion_ne count
      split
      · next hlt => simp [hlt, Nat.one_le_iff_ne_zero, hpos]
      · next hle => split <;> simpa [hle] using hne.2

namespace Play

variable (p : Play) (elapsed : Nat → Nat) (stamp : Nat → String) (reports : Nat → Report)

/-- The tick that `k` others come before. -/
def turnAt (k : Nat) : Engine.Turn := p.engine.turnAt (fun k => .still (elapsed k)) k

/-- What is shown about each of the first `count` ticks: how many avatars stepped, and the signals
in their order. -/
def sections (count : Nat) : List (List String) :=
  (List.range count).map fun k =>
    ("Tick " ++ natText (k + 1) ++ ": " ++ natText (reports k).lines.size ++ " avatar(s) stepped")
      :: (p.turnAt elapsed k).signals.map fun signal => " - " ++ signal.text

/-- What is written about each of the first `count` ticks: the same signals in the same order. -/
def entries (count : Nat) : List String :=
  (List.range count).map fun k =>
    "[" ++ stamp (k + 1) ++ "] tick=" ++ natText (k + 1) ++ "\n"
      ++ String.join ((p.turnAt elapsed k).signals.map fun signal => "  " ++ signal.text ++ "\n")

theorem sections_prefix {m n : Nat} (h : m ≤ n) :
    p.sections elapsed reports m <+: p.sections elapsed reports n := by
  have hrange : List.range m <+: List.range n := by
    rw [← Nat.min_eq_left h, ← List.take_range]
    exact List.take_prefix m _
  exact hrange.map _

theorem opening_eq : p.opening = if p.quiet then [] else { p with quiet := false }.opening := by
  unfold opening
  cases p.quiet <;> rfl

/-- The head line, and the sections of the first `count` ticks. -/
def commentary (count : Nat) : List String :=
  { p with quiet := false }.opening ++ (p.sections elapsed reports count).flatten

/-- What is told after the first `count` of `total` ticks. -/
def outro (total count : Nat) : List String :=
  ending reports total count
    ++ if p.json then
        [(p.engine.after (fun k => .still (elapsed k)) count).snapshot.toJson.pretty]
      else []

/-- The storage with the entries of the first `count` ticks. -/
def record (count : Nat) (files : Storage) : Storage :=
  match p.transcript with
  | none => files
  | some path =>
    (p.entries elapsed stamp count).foldl (fun s entry => s.append path entry.toUTF8) files

/-- The entries arrive in a file that receives them. -/
theorem read_record {files : Storage} {path : String} {old : ByteArray} {count : Nat}
    (hpath : p.transcript = some path) (h : files.Receives path old) (hcount : 0 < count) :
    (p.record elapsed stamp count files).read path
      = .ok (old ++ (String.join (p.entries elapsed stamp count)).toUTF8) := by
  have hne : p.entries elapsed stamp count ≠ [] := by
    simpa [entries] using Nat.ne_of_gt hcount
  rw [record, hpath]
  exact h.foldl_append hne

end Play

/-! ## What a session tells -/

namespace Engine.Ends

variable {p : Play} {elapsed : Nat → Nat} {stamp : Nat → String} {reports : Nat → Report}
  {total k count : Nat}

section

variable {e : Engine} {clock : Nat → Engine.Readings} (h : e.Ends clock total reports)

include h

/-- What is told at the end tells whether the run came to its end. -/
theorem closing (hk : k < total) :
    (reports k).closing (k + 1) = ending reports total (k + 1) := by
  have hterminal := h.terminal_iff k hk
  rw [ending, if_neg (Nat.succ_ne_zero k), Nat.add_sub_cancel]
  split
  · next hlt =>
      have hopen : ¬(reports k).isTerminal = true := fun hend =>
        Nat.ne_of_lt hlt (hterminal.mp hend)
      rw [Report.isTerminal, Bool.or_eq_true, not_or, Bool.not_eq_true, Bool.not_eq_true,
        Option.isSome_eq_false_iff, Option.isNone_iff_eq_none] at hopen
      rw [Report.closing, hopen.1]
      simp [hopen.2, String.append_assoc]
  · next hlt =>
      have hend : (reports k).isTerminal = true := hterminal.mpr (by omega)
      rw [Report.isTerminal] at hend
      unfold Report.closing Report.conclusion
      cases houtcome : (reports k).outcome with
      | none =>
          rw [houtcome] at hend
          simp [(show (reports k).timedOut = true from hend), String.append_assoc]
      | some o => cases o <;> simp [String.append_assoc]

theorem tick_eq (hticks : e.ticks = 0) (hk : k < total) : (reports k).tick = k + 1 := by
  rw [tick_of_result (h.result k hk), ticks_after, hticks, Nat.zero_add]

end

variable (h : p.engine.Ends (fun k => .still (elapsed k)) total reports)

include h

theorem turns (hlimit : total ≤ p.engine.program.finished) :
    p.turns elapsed
      = (List.range (p.maxTicks.elim total (min total))).map (p.turnAt elapsed) := by
  -- The limit that every run has is not met before the end.
  have hcount : min total p.limit = p.maxTicks.elim total (min total) := by
    unfold Play.limit
    cases p.maxTicks with
    | none => exact Nat.min_eq_left hlimit
    | some m => simp only [Option.elim_some]; omega
  rw [Play.turns, h.run, hcount]
  rfl

theorem result_turnAt (hk : k < total) : (p.turnAt elapsed k).result = .ok (reports k) :=
  h.result k hk

theorem sections (hticks : p.engine.ticks = 0) (hcount : count ≤ total) :
    ((List.range count).map (p.turnAt elapsed)).flatMap p.progress
      = if p.quiet then [] else (p.sections elapsed reports count).flatten := by
  rw [List.flatMap_map]
  cases hquiet : p.quiet with
  | true => simp [Play.progress, hquiet]
  | false =>
      rw [if_neg Bool.false_ne_true, List.flatMap_def, Play.sections]
      refine congrArg List.flatten (List.map_congr_left fun k hk => ?_)
      have hlt : k < total := Nat.lt_of_lt_of_le (List.mem_range.mp hk) hcount
      rw [Play.progress, hquiet, if_neg Bool.false_ne_true, Engine.Turn.section?,
        h.result_turnAt hlt]
      show (reports k).headline :: _ = _
      rw [Report.headline, h.tick_eq hticks hlt]

theorem record (hticks : p.engine.ticks = 0) (hcount : count ≤ total) (files : Storage) :
    Session.writeTranscript p stamp ((List.range count).map (p.turnAt elapsed)) files
      = p.record elapsed stamp count files := by
  unfold Session.writeTranscript Play.record
  cases p.transcript with
  | none => rfl
  | some path =>
      have hentries : ((List.range count).map (p.turnAt elapsed)).filterMap
          (fun t => t.entry? (stamp t.engine.ticks)) = p.entries elapsed stamp count := by
        rw [List.filterMap_map, Play.entries, ← List.filterMap_eq_map]
        refine List.filterMap_congr fun k hk => ?_
        have hlt : k < total := Nat.lt_of_lt_of_le (List.mem_range.mp hk) hcount
        have hengine : (p.turnAt elapsed k).engine.ticks = k + 1 := by
          rw [Play.turnAt, Engine.turnAt, ticks_tick, ticks_after, hticks, Nat.zero_add]
        rw [Function.comp_apply, Engine.Turn.entry?, h.result_turnAt hlt, hengine]
        show some _ = some _
        rw [h.tick_eq hticks hlt]
      simp only [hentries]

theorem outro (hticks : p.engine.ticks = 0) (hcount : count ≤ total) :
    let turns := (List.range count).map (p.turnAt elapsed)
    ∃ last, Play.result turns = .ok last ∧
      p.closing (p.engineAfter turns) last = p.outro elapsed reports total count := by
  intro turns
  cases count with
  | zero => exact ⟨none, rfl, rfl⟩
  | succ k =>
      have hlast : turns.getLast? = some (p.turnAt elapsed k) := by
        simp only [turns, List.range_succ, List.map_append, List.map_singleton,
          List.getLast?_concat]
      have hengine : p.engineAfter turns
          = p.engine.after (fun k => .still (elapsed k)) (k + 1) := by
        rw [Play.engineAfter, hlast]
        rfl
      refine ⟨some (reports k), ?_, ?_⟩
      · rw [Play.result, hlast]
        show (p.turnAt elapsed k).result.map some = _
        rw [h.result_turnAt hcount]
        rfl
      · rw [hengine, Play.closing, Play.outro, ← h.closing hcount, ticks_after, hticks,
          Nat.zero_add]

theorem perform (hticks : p.engine.ticks = 0) (hlimit : total ≤ p.engine.program.finished)
    (files : Storage) :
    let count := p.maxTicks.elim total (min total)
    Session.perform p elapsed stamp files
      = ({ exit := 0
           stdout := Session.unlines ((if p.quiet then [] else p.commentary elapsed reports count)
             ++ p.outro elapsed reports total count) },
         p.record elapsed stamp count files) := by
  intro count
  have hcount : count ≤ total := by
    show p.maxTicks.elim total (min total) ≤ total
    cases p.maxTicks with
    | none => exact Nat.le_refl total
    | some m => exact Nat.min_le_left total m
  obtain ⟨last, hresult, hclosing⟩ := h.outro hticks hcount
  have hshown : p.opening ++ ((List.range count).map (p.turnAt elapsed)).flatMap p.progress
      = if p.quiet then [] else p.commentary elapsed reports count := by
    rw [h.sections hticks hcount, Play.opening_eq]
    split <;> rfl
  have hturns : p.turns elapsed = (List.range count).map (p.turnAt elapsed) := h.turns hlimit
  clear_value count
  simp only [Session.perform, hturns, hresult, hshown, hclosing, h.record hticks hcount]

end Engine.Ends

/-! ## Sessions -/

namespace Job

variable {read : Reader} {o : RunOptions} {p : Play}

/-- A level file that is written at a path is loaded from there. -/
theorem loadLevel_of_written {path : String} {f : LevelFile} {level : Level} {v : Json}
    {text : String} (hread : read path = .ok text.toUTF8) (hf : f.Fits) (hv : f.Written v)
    (htext : Json.Renders v.tokens text.toList) (hbuild : f.build = .ok level) :
    loadLevel read path = .ok level := by
  rw [(LevelFile.readFrom_of_written hread hf hv htext).loadLevel_eq, hbuild]
  rfl

/-- The descriptors of the program file, or those of the level if no file is named. -/
def descriptors (read : Reader) (o : RunOptions) (level : Level) :
    Except Refusal (List Descriptor) :=
  match o.program with
  | some path => (loadProgram read path).mapError .load
  | none => .ok level.program

/-- The run of a program in a level. -/
def playOf (o : RunOptions) (level : Level) (program : Program) (pause : Nat) : Play where
  name := level.name
  engine := {
    program
    world := level.world
    goal := level.goal
    timeLimit := o.timeLimit.getD level.timeLimit }
  maxTicks := o.maxTicks
  pause
  json := o.json
  quiet := o.quiet
  transcript := o.transcript

/-- What has to go well for a run. -/
theorem ofRun_eq_play_iff : ofRun read o = .ok (.play p) ↔
    ∃ level ds program pause, loadLevel read o.level = .ok level ∧
      descriptors read o level = .ok ds ∧ ds.isEmpty = false ∧
      Program.build .standard ds = .ok program ∧ Pace.pause o.tickRate o.delay = .ok pause ∧
      playOf o level program pause = p := by
  have hrun : ofRun read o = (do
      let level ← (loadLevel read o.level).mapError .load
      let ds ← descriptors read o level
      if ds.isEmpty then .error .noBlocks
      else
        let program ← (Program.build .standard ds).mapError .rejected
        let pause ← (Pace.pause o.tickRate o.delay).mapError .pace
        return .play (playOf o level program pause)) := by
    unfold ofRun descriptors
    cases o.program <;> rfl
  rw [hrun]
  simp only [bind_eq_ok_iff, mapError_eq_ok_iff]
  constructor
  · rintro ⟨level, hlevel, ds, hds, h⟩
    split at h
    · cases h
    · next hne =>
        simp only [bind_eq_ok_iff, mapError_eq_ok_iff] at h
        obtain ⟨program, hprogram, pause, hpause, h⟩ := h
        cases h
        exact ⟨level, ds, program, pause, hlevel, hds, Bool.not_eq_true _ ▸ hne, hprogram, hpause,
          rfl⟩
  · rintro ⟨level, ds, program, pause, hlevel, hds, hne, hprogram, hpause, rfl⟩
    refine ⟨level, hlevel, ds, hds, ?_⟩
    rw [if_neg (by simp [hne]), hprogram, hpause]
    rfl

/-- The limit and the quiet are not looked at when a run is made. -/
theorem ofRun_limited (h : ofRun read o = .ok (.play p)) (limit : Option Nat) (quiet : Bool) :
    ofRun read { o with maxTicks := limit, quiet }
      = .ok (.play { p with maxTicks := limit, quiet }) := by
  rw [ofRun_eq_play_iff] at h ⊢
  obtain ⟨level, ds, program, pause, hlevel, hds, hne, hprogram, hpause, rfl⟩ := h
  exact ⟨level, ds, program, pause, hlevel, hds, hne, hprogram, hpause, rfl⟩

/-- All avatars of a run begin on the first line. -/
theorem ready_of_ofRun (h : ofRun read o = .ok (.play p)) : p.engine.Ready := by
  obtain ⟨level, ds, program, pause, hlevel, -, -, hprogram, -, rfl⟩ := ofRun_eq_play_iff.mp h
  refine Engine.Ready.of_build hprogram fun a ha => ?_
  unfold loadLevel at hlevel
  rw [bind_eq_ok_iff] at hlevel
  obtain ⟨bytes, -, hlevel⟩ := hlevel
  split at hlevel
  · cases hlevel
  · next file _ =>
      rw [mapError_eq_ok_iff] at hlevel
      change a ∈ level.world.avatars at ha
      rw [LevelFile.avatars_build hlevel, List.mem_map] at ha
      obtain ⟨spec, -, rfl⟩ := ha
      exact ⟨Nat.le_refl 1, Nat.le_add_left 1 program.length⟩

end Job

/-- A session goes through with the run that is asked for. -/
theorem Session.respond_eq_of_run {files : Storage} {o : RunOptions} {p : Play}
    (h : Job.ofRun files.read o = .ok (.play p)) {elapsed : Nat → Nat} {stamp : Nat → String}
    {words : List String} (hwords : Invocation.ofWords? words = some (.run o)) :
    respond elapsed stamp words files = perform p elapsed stamp files := by
  simp only [respond, hwords, Job.ofInvocation, h]

/-- The run is made under the limit that is asked for. -/
theorem Session.respond_eq_perform {files : Storage} {o : RunOptions} {p : Play}
    (h : Job.ofRun files.read o = .ok (.play p)) {elapsed : Nat → Nat} {stamp : Nat → String}
    {limit : Option Nat} {quiet : Bool} {words : List String}
    (hwords : Invocation.ofWords? words = some (.run { o with maxTicks := limit, quiet })) :
    respond elapsed stamp words files
      = perform { p with maxTicks := limit, quiet } elapsed stamp files :=
  respond_eq_of_run (Job.ofRun_limited h limit quiet) hwords

/-- A session that runs the options `o`, whatever the limit and quiet or not, and the run that they
ask for: `total` ticks are made if no limit ends them before. -/
structure Account (o : RunOptions) (p : Play) (elapsed : Nat → Nat) (stamp : Nat → String)
    (files : Storage) (total : Nat) (reports : Nat → Report) : Prop where
  /-- As many ticks are told about as the limit allows, and as there are. A quiet session tells the
  end alone, and leaves the same transcript. -/
  respond : ∀ limit quiet words,
    Invocation.ofWords? words = some (.run { o with maxTicks := limit, quiet }) →
    let count := limit.elim total (min total)
    Session.respond elapsed stamp words files
      = ({ exit := 0
           stdout := Session.unlines ((if quiet then [] else p.commentary elapsed reports count)
             ++ p.outro elapsed reports total count) },
         p.record elapsed stamp count files)
  /-- A lower limit cuts sections off. -/
  sections_prefix : ∀ m n, m ≤ n →
    p.sections elapsed reports (min total m) <+: p.sections elapsed reports (min total n)
  /-- A limit behind the end is no limit. -/
  unlimited : ∀ m, total ≤ m → ∀ quiet words words',
    Invocation.ofWords? words = some (.run { o with maxTicks := some m, quiet }) →
    Invocation.ofWords? words' = some (.run { o with maxTicks := none, quiet }) →
    Session.respond elapsed stamp words files = Session.respond elapsed stamp words' files
  noTicks_iff : ∀ limit : Option Nat,
    "No ticks were run." ∈ ending reports total (limit.elim total (min total)) ↔ limit = some 0
  stopped_iff : ∀ limit : Option Nat,
    (∃ line ∈ ending reports total (limit.elim total (min total)),
      "Stopped after ".toList <+: line.toList) ↔ ∃ m, limit = some m ∧ 1 ≤ m ∧ m < total
  /-- What is written about the ticks arrives in the transcript, behind what was there. -/
  transcript : ∀ path, o.transcript = some path → ∀ old, files.Receives path old →
    ∀ count, 0 < count → (p.record elapsed stamp count files).read path
      = .ok (old ++ (String.join (p.entries elapsed stamp count)).toUTF8)

/-- Every run that is not refused comes to an end, and the sessions that ask for it tell about its
ticks: those with a limit about the first ones, and those without about all of them. -/
theorem account_of_run {files : Storage} {o : RunOptions} {p : Play}
    (h : Job.ofRun files.read o = .ok (.play p)) (elapsed : Nat → Nat) (stamp : Nat → String) :
    ∃ total reports, p.engine.Ends (fun k => .still (elapsed k)) total reports ∧
      Account o p elapsed stamp files total reports := by
  have hready := Job.ready_of_ofRun h
  obtain ⟨total, hlimit, reports, hends⟩ := hready.exists_ends fun k => .still (elapsed k)
  have hstart : p.engine.ticks = 0 ∧ p.transcript = o.transcript := by
    obtain ⟨level, ds, program, pause, -, -, -, -, -, rfl⟩ := Job.ofRun_eq_play_iff.mp h
    exact ⟨rfl, rfl⟩
  have hanswer : ∀ limit quiet words,
      Invocation.ofWords? words = some (.run { o with maxTicks := limit, quiet }) →
      let count := limit.elim total (min total)
      Session.respond elapsed stamp words files
        = ({ exit := 0
             stdout := Session.unlines ((if quiet then [] else p.commentary elapsed reports count)
               ++ p.outro elapsed reports total count) },
           p.record elapsed stamp count files) := by
    intro limit quiet words hwords
    rw [Session.respond_eq_perform h hwords]
    exact Engine.Ends.perform (p := { p with maxTicks := limit, quiet }) hends hstart.1 hlimit files
  refine ⟨total, reports, hends, {
    respond := hanswer
    sections_prefix := ?_
    unlimited := ?_
    noTicks_iff := ?_
    stopped_iff := ?_
    transcript := ?_ }⟩
  · intro m n hle
    exact p.sections_prefix elapsed reports (Nat.le_min.mpr ⟨Nat.min_le_left .., by omega⟩)
  · intro m hm quiet words words' hwords hwords'
    rw [hanswer _ _ _ hwords, hanswer _ _ _ hwords', Option.elim_some, Nat.min_eq_left hm]
    rfl
  · intro limit
    rw [noTicks_mem_ending_iff]
    have := hends.pos
    cases limit with
    | none => simp; omega
    | some m => simp; omega
  · intro limit
    rw [stopped_mem_ending_iff]
    cases limit with
    | none => simp
    | some m => simp; omega
  · exact fun path hpath old hreceives count hcount =>
      p.read_record elapsed stamp (hstart.2.trans hpath) hreceives hcount

/-- One avatar on one tile, and a program of two lines. -/
def tour : LevelFile where
  layout := ["."]
  avatars := [{ id := 1, position := ⟨0, 0⟩ }]
  goal := { idealTime := 0, idealLines := 0, budget := 9 }
  program := [{ index := 1, type := "drop" }, { index := 2, type := "drop" }]

/-- The level of `tour`. -/
def tourLevel : Level where
  name := ""
  world := [.setDimensions 1 1, .addAvatar { id := 1, position := ⟨0, 0⟩ }].foldl World.perform
    World.empty
  goal := tour.goal
  timeLimit := 300
  program := tour.program

/-- A folder with the file `l`, in which `tour` is written. -/
def tourFiles : Storage := { files := [(["l"], tour.toJson.compact.toUTF8)] }

/-- A run of `tour` that writes the transcript `t`. -/
def tourOptions : RunOptions := { level := "l", json := true, transcript := some "t" }

theorem account_of_run_tour :
    let p := Job.playOf tourOptions tourLevel { commands := [.drop, .drop] } 0
    let clock : Nat → Engine.Readings := fun k => .still k
    Job.ofRun tourFiles.read tourOptions = .ok (.play p) ∧
      Invocation.ofWords? ["run", "-ll", "-t1", "-q", "--json", "--transcript=t"]
        = some (.run { tourOptions with maxTicks := some 1, quiet := true }) ∧
      tourFiles.Receives "t" .empty ∧
      ∃ total reports, p.engine.Ends clock total reports ∧
        Account tourOptions p id Text.natText tourFiles total reports := by
  intro p clock
  have hfits : tour.Fits := {
    timeLimit := by decide
    avatars := by decide
    blocks := by decide
    goal := ⟨by decide, by decide, by decide, by decide, by decide⟩
    program := by decide }
  have hwords : Storage.words "l" = ["l"] ∧ Storage.words "t" = ["t"] := by
    constructor <;>
    · rw [Storage.words, String.splitOn, if_neg (by decide), String.splitOnAux,
        if_neg (by decide), if_neg (by decide), String.splitOnAux, if_pos (by decide)]
      decide
  have hread : tourFiles.read "l" = .ok tour.toJson.compact.toUTF8 := by
    have hleads : tourFiles.Leads "l" ["l"] :=
      ⟨rfl, [], "l", [], hwords.1, ⟨by decide, by decide, by decide, by decide⟩, rfl, rfl⟩
    exact hleads.read rfl rfl
  have hlevel : loadLevel tourFiles.read "l" = .ok tourLevel :=
    Job.loadLevel_of_written hread hfits tour.written_toJson (Json.renders_compact _) rfl
  have hprogram : Program.build .standard tour.program = .ok { commands := [.drop, .drop] } := by
    rw [Program.build, Program.order_of_pairwise (by decide)]
    decide +kernel
  have hrun : Job.ofRun tourFiles.read tourOptions = .ok (.play p) :=
    Job.ofRun_eq_play_iff.mpr
      ⟨tourLevel, tour.program, _, 0, hlevel, rfl, rfl, hprogram, rfl, rfl⟩
  have htranscript : tourFiles.Leads "t" ["t"] :=
    ⟨rfl, [], "t", [], hwords.2, ⟨by decide, by decide, by decide, by decide⟩, rfl, rfl⟩
  exact ⟨hrun, rfl, .new htranscript rfl, account_of_run hrun id Text.natText⟩

end TilePuzzle
