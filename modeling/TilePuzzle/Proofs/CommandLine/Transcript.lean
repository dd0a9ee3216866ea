import TilePuzzle.Proofs.CommandLine.Run
import TilePuzzle.Proofs.Program.Readable

/-!
# Transcripts are read back

A transcript has an entry for each tick: a line with a stamp, and below it a line for each signal. The
text of a signal tells which signal it is, whatever numbers are in it and however many avatars stepped
(`text_inj`). A line with a stamp begins with a bracket and a line with a signal with a blank, so a
transcript also tells to which tick a signal belongs (`readTranscript_entries`).

The main statement is `printed_determines`.
-/

namespace TilePuzzle

open Text (intText natText readInt? readNat? Flat fields_append fields_around)

/-! ## Signals -/

namespace Signal

def fields : Signal → List String
  | lines updates => "lines" :: updates.entries.flatMap fun e => [natText e.1, natText e.2]
  | budget remaining => ["budget", intText remaining]
  | win remaining bonus =>
    ["win", "budget", "left", intText remaining, "line", "bonus", intText bonus.lines, "time",
      "bonus", intText bonus.time]
  | lose => ["lose"]
  | endOfRun => ["end", "of", "run"]
  | timeout => ["timeout"]
  | time remaining => ["time", "left", intText remaining ++ "s"]

/-- The pairs of numbers that follow each other in a list of fields. -/
def readPairs? : List String → Option (List (Nat × Nat))
  | [] => some []
  | [_] => none
  | id :: line :: rest =>
    (readNat? id).bind fun id => (readNat? line).bind fun line =>
      (readPairs? rest).map ((id, line) :: ·)

theorem readPairs?_fields (entries : List (Nat × Nat)) :
    readPairs? (entries.flatMap fun e => [natText e.1, natText e.2]) = some entries := by
  induction entries with
  | nil => rfl
  | cons e entries ih =>
      rw [List.flatMap_cons, List.cons_append, List.singleton_append, readPairs?,
        Text.readNat?_natText, Text.readNat?_natText, ih]
      rfl

/-- The signal with the fields. -/
def ofFields? : List String → Option Signal
  | "lines" :: rest => (readPairs? rest).map fun entries => lines (.ofList entries)
  | ["budget", remaining] => (readInt? remaining).map budget
  | ["win", _, _, remaining, _, _, line, _, _, seconds] =>
    (readInt? remaining).bind fun remaining => (readInt? line).bind fun line =>
      (readInt? seconds).map fun seconds => win remaining ⟨line, seconds⟩
  | ["lose"] => some lose
  | ["end", _, _] => some endOfRun
  | ["timeout"] => some timeout
  | ["time", _, remaining] => (readInt? (String.ofList remaining.toList.dropLast)).map time
  | _ => none

theorem ofFields?_fields (s : Signal) : ofFields? s.fields = some s := by
  cases s with
  | lines updates =>
      show (readPairs? _).map (fun entries => lines (.ofList entries)) = _
      rw [readPairs?_fields, Option.map_some, SortedMap.ofList_entries]
  | budget remaining =>
      show (readInt? (intText remaining)).map budget = _
      rw [Text.readInt?_intText, Option.map_some]
  | win remaining bonus =>
      show ((readInt? (intText remaining)).bind fun remaining =>
        (readInt? (intText bonus.lines)).bind fun line =>
          (readInt? (intText bonus.time)).map fun seconds => win remaining ⟨line, seconds⟩) = _
      rw [Text.readInt?_intText, Text.readInt?_intText, Text.readInt?_intText]
      rfl
  | lose | endOfRun | timeout => rfl
  | time remaining =>
      show (readInt? (String.ofList (intText remaining ++ "s").toList.dropLast)).map time = _
      have hseconds : String.ofList (intText remaining ++ "s").toList.dropLast = intText remaining := by
        rw [String.toList_append, show "s".toList = ['s'] from rfl, List.dropLast_concat,
          String.ofList_toList]
      rw [hseconds, Text.readInt?_intText, Option.map_some]

/-- The text of an avatar and the line that it executed. -/
theorem fields_update (e : Nat × Nat) :
    Text.fields ("#" ++ natText e.1 ++ "@" ++ natText e.2) = [natText e.1, natText e.2] := by
  rw [fields_around _ "@" _ rfl rfl, fields_append (.inl rfl), Text.fields_natText,
    Text.fields_natText]
  rfl

theorem fields_seconds (i : Int) : Text.fields (intText i ++ "s") = [intText i ++ "s"] := by
  refine Text.split_eq_singleton (fun h => absurd (String.append_eq_empty_iff.mp h).2 (by decide)) ?_
  intro c hc
  rw [String.toList_append, List.mem_append] at hc
  rcases hc with hc | hc
  · exact Text.separates_of_isDigit (Text.isDigit_of_mem_intText hc)
  · obtain rfl : c = 's' := List.mem_singleton.mp hc
    rfl

theorem fields_text (s : Signal) : Text.fields s.text = s.fields := by
  unfold text
  cases s with
  | lines updates =>
      rw [fields_append (.inr rfl), fields_append (.inl rfl), Text.fields_intercalate,
        List.flatMap_map, List.flatMap_congr fun e _ => fields_update e,
        show Text.fields "]" = [] from rfl, List.append_nil]
      rfl
  | budget remaining =>
      rw [fields_append (.inl rfl), Text.fields_intText]
      rfl
  | win remaining bonus =>
      rw [fields_append (.inr rfl), fields_around _ ", time bonus " _ rfl rfl,
        fields_around _ ", line bonus " _ rfl rfl, fields_append (.inl rfl), Text.fields_intText,
        Text.fields_intText, Text.fields_intText]
      rfl
  | lose | endOfRun | timeout => rfl
  | time remaining =>
      show Text.fields ("time left " ++ intText remaining ++ "s") = _
      rw [String.append_assoc, fields_append (.inl rfl), fields_seconds]
      rfl

@[simp] theorem flat_text (s : Signal) : Flat s.text := by
  unfold text
  cases s with
  | lines updates =>
      have hparts : ∀ part ∈ updates.entries.map fun e => "#" ++ natText e.1 ++ "@" ++ natText e.2,
          Flat part := by
        rw [List.forall_mem_map]
        exact fun e _ => by simp +decide
      have hjoined := Text.flat_intercalate (s := " ") (by decide) hparts
      simp +decide [hjoined]
  | budget remaining => simp +decide
  | win remaining bonus => simp +decide
  | lose | endOfRun | timeout => decide
  | time remaining => simp +decide

/-- No two signals have one text. -/
theorem text_inj {s t : Signal} : s.text = t.text ↔ s = t := by
  refine ⟨fun h => ?_, congrArg text⟩
  have hread : ∀ s : Signal, ofFields? (Text.fields s.text) = some s := fun s => by
    rw [s.fields_text, s.ofFields?_fields]
  exact Option.some.inj ((hread s).symm.trans (h ▸ hread t))

end Signal

/-! ## Transcripts -/

theorem Session.unlines_flatMap {α : Type} (l : List α) (f : α → List String) :
    unlines (l.flatMap f) = String.join (l.map fun a => unlines (f a)) := by
  induction l with
  | nil => rfl
  | cons a l ih =>
      rw [List.flatMap_cons, unlines, List.map_append, String.join_append, List.map_cons,
        String.join_cons, ← ih]
      rfl

namespace Play

variable {p : Play} {elapsed : Nat → Nat} {stamp : Nat → String}

/-- The line with the stamp begins with a bracket. -/
def heads (line : String) : Bool := line.toList.head? == some '['

/-- The lines of the entry of a tick. -/
def entryLines (p : Play) (elapsed : Nat → Nat) (stamp : Nat → String) (k : Nat) : List String :=
  ("[" ++ stamp (k + 1) ++ "] tick=" ++ natText (k + 1))
    :: (p.turnAt elapsed k).signals.map fun signal => "  " ++ signal.text

theorem join_entries (p : Play) (elapsed : Nat → Nat) (stamp : Nat → String) (count : Nat) :
    String.join (p.entries elapsed stamp count)
      = Session.unlines ((List.range count).flatMap (p.entryLines elapsed stamp)) := by
  have hentry : ∀ k, Session.unlines (p.entryLines elapsed stamp k)
      = "[" ++ stamp (k + 1) ++ "] tick=" ++ natText (k + 1) ++ "\n"
        ++ String.join ((p.turnAt elapsed k).signals.map fun signal =>
          "  " ++ signal.text ++ "\n") := by
    intro k
    rw [entryLines, Session.unlines, List.map_cons, String.join_cons, List.map_map]
    rfl
  rw [entries, Session.unlines_flatMap]
  simp only [hentry]

theorem isLine_of_mem_entryLines (hstamp : ∀ n, Flat (stamp n)) {k : Nat} {line : String}
    (h : line ∈ p.entryLines elapsed stamp k) : line ≠ "" ∧ Flat line := by
  rcases List.mem_cons.mp h with rfl | h
  · refine ⟨fun h => Text.natText_ne _ (String.append_eq_empty_iff.mp h).2, ?_⟩
    simp +decide [hstamp]
  · obtain ⟨signal, -, rfl⟩ := List.mem_map.mp h
    exact ⟨fun h => absurd (String.append_eq_empty_iff.mp h).1 (by decide),
      by simp +decide⟩

/-- The signals that a transcript shows, entry by entry. -/
def readTranscript (text : String) : List (List (Option Signal)) :=
  ((Text.lines text).splitOnP heads).tail.map fun lines =>
    lines.map fun line => Signal.ofFields? (Text.fields line)

theorem readTranscript_entries (hstamp : ∀ n, Flat (stamp n)) (count : Nat) :
    readTranscript (String.join (p.entries elapsed stamp count))
      = (List.range count).map fun k => (p.turnAt elapsed k).signals.map some := by
  have hlines : Text.lines (String.join (p.entries elapsed stamp count))
      = (List.range count).flatMap (p.entryLines elapsed stamp) := by
    rw [join_entries]
    refine Text.lines_join fun line hline => ?_
    obtain ⟨k, -, hk⟩ := List.mem_flatMap.mp hline
    exact isLine_of_mem_entryLines hstamp hk
  have hgroups : ((List.range count).flatMap (p.entryLines elapsed stamp)).splitOnP heads
      = [] :: (List.range count).map fun k =>
          (p.turnAt elapsed k).signals.map fun signal => "  " ++ signal.text := by
    refine Text.splitOnP_flatMap (fun k _ => ?_) fun k _ line hline => ?_
    · rw [heads, String.append_assoc, String.append_assoc, String.toList_append]
      rfl
    · obtain ⟨signal, -, rfl⟩ := List.mem_map.mp hline
      rw [heads, String.toList_append]
      rfl
  have hsignal : ∀ signal : Signal,
      Signal.ofFields? (Text.fields ("  " ++ signal.text)) = some signal := by
    intro signal
    rw [fields_append (.inl rfl), show Text.fields "  " = [] from rfl, List.nil_append,
      signal.fields_text, signal.ofFields?_fields]
  rw [readTranscript, hlines, hgroups, List.tail_cons, List.map_map]
  refine List.map_congr_left fun k _ => ?_
  rw [Function.comp_apply, List.map_map]
  exact List.map_congr_left fun signal _ => by rw [Function.comp_apply, hsignal]

end Play

/-- The ticks of a run, and what it writes about them. -/
theorem Job.exists_total {read : Reader} {o : RunOptions} {p : Play}
    (h : ofRun read o = .ok (.play p)) (elapsed : Nat → Nat) :
    ∃ total, 0 < total ∧
      let count := p.maxTicks.elim total (min total)
      p.turns elapsed = (List.range count).map (p.turnAt elapsed) ∧ ∀ stamp files,
        (Session.perform p elapsed stamp files).2 = p.record elapsed stamp count files := by
  obtain ⟨total, hlimit, reports, hends⟩ := (ready_of_ofRun h).exists_ends fun k => .still (elapsed k)
  have hticks : p.engine.ticks = 0 := by
    obtain ⟨level, ds, program, pause, -, -, -, -, -, rfl⟩ := ofRun_eq_play_iff.mp h
    rfl
  refine ⟨total, hends.pos, hends.turns hlimit, fun stamp files => ?_⟩
  rw [hends.perform hticks hlimit files]

namespace Session

/-- A session goes through with a run, and adds something to its transcript. No stamp has a line break;
those that the clock makes have none (`flat_timestamp`). -/
structure Transcribes (files : Storage) (words : List String) (elapsed : Nat → Nat)
    (stamp : Nat → String) (p : Play) (added : ByteArray) : Prop where
  run : ∃ o, Invocation.ofWords? words = some (.run o) ∧ Job.ofRun files.read o = .ok (.play p)
  flat : ∀ n, Flat (stamp n)
  arrives : ∃ path old, p.transcript = some path ∧ files.Receives path old ∧
    (respond elapsed stamp words files).2.read path = .ok (old ++ added)

variable {files : Storage} {words : List String} {elapsed : Nat → Nat} {stamp : Nat → String}
  {p : Play} {added : ByteArray}

/-- What is added to a transcript shows the signals of the ticks that are made. -/
theorem Transcribes.exists_text (h : Transcribes files words elapsed stamp p added) :
    ∃ text, added = text.toUTF8 ∧
      Play.readTranscript text = (p.turns elapsed).map fun t => t.signals.map some := by
  obtain ⟨o, hwords, hrun⟩ := h.run
  obtain ⟨path, old, hpath, hreceives, hread⟩ := h.arrives
  obtain ⟨total, -, hturns, hfiles⟩ := Job.exists_total hrun elapsed
  rw [respond_eq_of_run hrun hwords, hfiles] at hread
  generalize p.maxTicks.elim total (min total) = count at hread hturns
  refine ⟨String.join (p.entries elapsed stamp count), ?_, ?_⟩
  · rw [← ByteArray.append_right_inj old]
    rcases Nat.eq_zero_or_pos count with rfl | hpos
    · have hrecord : p.record elapsed stamp 0 files = files := by
        rw [Play.record, hpath]
        rfl
      have hnothing : (String.join (p.entries elapsed stamp 0)).toUTF8 = .empty := rfl
      rw [hrecord] at hread
      rw [hreceives.eq_of_read hread, hnothing, ByteArray.append_empty]
    · exact Except.ok.inj (hread.symm.trans (p.read_record elapsed stamp hpath hreceives hpos))
  · rw [Play.readTranscript_entries h.flat, hturns, List.map_map]
    rfl

end Session

/-- No two signals and no two commands have one text. So the listing of a program tells its commands, and
what a session adds to its transcript tells the signals of every tick that it made, whatever the stamps
are. -/
theorem printed_determines :
    Function.Injective Signal.text ∧ Function.Injective Command.text ∧
      (∀ p q : Program,
        Session.unlines p.listing = Session.unlines q.listing → p.commands = q.commands) ∧
      ∀ files files' words words' elapsed elapsed' stamp stamp' p p' added,
        Session.Transcribes files words elapsed stamp p added →
          Session.Transcribes files' words' elapsed' stamp' p' added →
            (p.turns elapsed).map (·.signals) = (p'.turns elapsed').map (·.signals) := by
  refine ⟨fun _ _ => Signal.text_inj.mp, fun _ _ => Command.text_inj.mp, ?_, ?_⟩
  · intro p q h
    have hread : p.commands.map some = q.commands.map some := by
      rw [← p.readListing_listing, h, q.readListing_listing]
    exact List.map_injective_iff.mpr (Option.some_injective _) hread
  · intro files files' words words' elapsed elapsed' stamp stamp' p p' added h h'
    obtain ⟨text, hadded, hread⟩ := h.exists_text
    obtain ⟨text', hadded', hread'⟩ := h'.exists_text
    obtain rfl : text = text' := String.toByteArray_inj.mp (hadded.symm.trans hadded')
    have hsignals : ((p.turns elapsed).map (·.signals)).map (List.map some)
        = ((p'.turns elapsed').map (·.signals)).map (List.map some) := by
      rw [List.map_map, List.map_map]
      exact hread.symm.trans hread'
    exact List.map_injective_iff.mpr (List.map_injective_iff.mpr (Option.some_injective _)) hsignals

/-- The level of `tour` with one more tile. -/
def lane : LevelFile := { tour with layout := [".."] }

def laneLevel : Level where
  name := ""
  world := [.setDimensions 1 2, .addAvatar { id := 1, position := ⟨0, 0⟩ }].foldl World.perform
    World.empty
  goal := lane.goal
  timeLimit := 300
  program := lane.program

/-- The run of one tick in a level with the program of `tour`. -/
def firstTick (level : Level) : Play :=
  Job.playOf { level := "l", maxTicks := some 1, transcript := some "t" } level
    { commands := [.drop, .drop] } 0

theorem transcribes_firstTick {f : LevelFile} {level : Level} (hf : f.Fits)
    (hbuild : f.build = .ok level) (hprogram : level.program = tour.program) :
    let stamp := fun n => Text.timestamp (1000000000 * n)
    Session.Transcribes { files := [(["l"], f.toJson.compact.toUTF8)] }
      ["run", "-ll", "-t1", "--transcript=t"] id stamp (firstTick level)
      (String.join ((firstTick level).entries id stamp 1)).toUTF8 := by
  intro stamp
  let files : Storage := { files := [(["l"], f.toJson.compact.toUTF8)] }
  have hwords : Storage.words "l" = ["l"] ∧ Storage.words "t" = ["t"] := by
    constructor <;>
    · rw [Storage.words, String.splitOn, if_neg (by decide), String.splitOnAux,
        if_neg (by decide), if_neg (by decide), String.splitOnAux, if_pos (by decide)]
      decide
  have hlevel : files.Leads "l" ["l"] :=
    ⟨rfl, [], "l", [], hwords.1, ⟨by decide, by decide, by decide, by decide⟩, rfl, rfl⟩
  have htranscript : files.Leads "t" ["t"] :=
    ⟨rfl, [], "t", [], hwords.2, ⟨by decide, by decide, by decide, by decide⟩, rfl, rfl⟩
  have hload : loadLevel files.read "l" = .ok level :=
    Job.loadLevel_of_written (hlevel.read rfl rfl) hf f.written_toJson (Json.renders_compact _) hbuild
  have hcommands : Program.build .standard tour.program = .ok { commands := [.drop, .drop] } := by
    rw [Program.build, Program.order_of_pairwise (by decide)]
    decide +kernel
  have hrun : Job.ofRun files.read { level := "l", maxTicks := some 1, transcript := some "t" }
      = .ok (.play (firstTick level)) :=
    Job.ofRun_eq_play_iff.mpr
      ⟨level, tour.program, _, 0, hload, congrArg Except.ok hprogram, rfl, hcommands, rfl, rfl⟩
  have hoptions : Invocation.ofWords? ["run", "-ll", "-t1", "--transcript=t"]
      = some (.run { level := "l", maxTicks := some 1, transcript := some "t" }) := rfl
  have hreceives : files.Receives "t" .empty := .new htranscript rfl
  refine ⟨⟨_, hoptions, hrun⟩, fun n => Text.flat_timestamp _, "t", .empty, rfl, hreceives, ?_⟩
  obtain ⟨total, hpos, -, hfiles⟩ := Job.exists_total hrun id
  have hcount : min total 1 = 1 := by omega
  rw [Session.respond_eq_of_run hrun hoptions, hfiles]
  show ((firstTick level).record id stamp (min total 1) files).read "t" = _
  rw [hcount]
  exact (firstTick level).read_record id stamp rfl hreceives Nat.zero_lt_one

theorem printed_determines_tour :
    let stamp := fun n => Text.timestamp (1000000000 * n)
    let words := ["run", "-ll", "-t1", "--transcript=t"]
    let p := firstTick tourLevel
    let q := firstTick laneLevel
    let files (f : LevelFile) : Storage := { files := [(["l"], f.toJson.compact.toUTF8)] }
    (∃ added, Session.Transcribes (files tour) words id stamp p added ∧
      Session.Transcribes (files lane) words id stamp q added ∧
      (p.turns id).map (·.signals) = (q.turns id).map (·.signals)) ∧
    -- A listing leaves out the lines of the ends.
    let nested : Program := ⟨[.branch .north .block, .endBranch], .ofList [(1, 2)], [2]⟩
    let unmarked : Program := { nested with endLines := [] }
    Session.unlines nested.listing = Session.unlines unmarked.listing ∧
      nested.commands = unmarked.commands := by
  intro stamp words p q files
  have hsignals : (p.turnAt id 0).signals = (q.turnAt id 0).signals := by decide +kernel
  have hentries : p.entries id stamp 1 = q.entries id stamp 1 := by
    refine List.map_congr_left fun k hk => ?_
    obtain rfl : k = 0 := Nat.lt_one_iff.mp (List.mem_range.mp hk)
    rw [hsignals]
  have hfits : tour.Fits ∧ lane.Fits := by decide
  have hp : Session.Transcribes (files tour) words id stamp p
      (String.join (p.entries id stamp 1)).toUTF8 := transcribes_firstTick hfits.1 rfl rfl
  have hq : Session.Transcribes (files lane) words id stamp q
      (String.join (q.entries id stamp 1)).toUTF8 := transcribes_firstTick hfits.2 rfl rfl
  rw [← hentries] at hq
  exact ⟨⟨_, hp, hq, printed_determines.2.2.2 _ _ _ _ _ _ _ _ _ _ _ hp hq⟩,
    rfl, printed_determines.2.2.1 _ _ rfl⟩

end TilePuzzle
