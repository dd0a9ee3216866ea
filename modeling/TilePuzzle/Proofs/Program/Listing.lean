import TilePuzzle.CommandLine.Job
import TilePuzzle.Proofs.Program.Matching

/-!
# Listings show the pairs

A listing indents its lines by a counter of its own: an `if` counts up, an `end if` counts down, and the
table of jumps is not asked. Yet a line is indented by the number of the pairs in the table that lie
around it (`enclosing`).

Both are told by the commands before the line. The counter is their `height`, which balanced commands
never let fall below zero (`openAfter_eq_height`). The pairs around a line are those that were opened
before it, less those that are closed by then, which is the same height (`enclosing_eq`). The main
statement is `listing_exact`.
-/

namespace TilePuzzle

open Text (natText)

namespace Program

variable {p : Program} {c : Command} {cs : List Command} {i j line n : Nat}

/-- What is open after commands, when `depth` was open before them. -/
def openAfter (depth : Nat) (cs : List Command) : Nat :=
  cs.foldl (fun depth c => depthAfter (depthAt depth c) c) depth

/-- The number of pairs in the table of jumps that lie around a line. -/
def enclosing (p : Program) (line : Nat) : Nat :=
  p.jumps.entries.countP fun e => e.1 < line ∧ line < e.2

/-- What the listing shows on a line before the arrow. -/
def lineText (p : Program) (line : Nat) (c : Command) : String :=
  numberColumn line ++ "  " ++ String.ofList (List.replicate (2 * p.enclosing line) ' ') ++ c.text

/-! ## The counter -/

theorem length_depths (depth : Nat) (cs : List Command) : (depths depth cs).length = cs.length := by
  induction cs generalizing depth with
  | nil => rfl
  | cons c cs ih => rw [depths, List.length_cons, List.length_cons, ih]

/-- A command stands at the depth that the commands before it leave open. -/
theorem getElem?_depths (depth : Nat) (cs : List Command) (n : Nat) :
    (depths depth cs)[n]? = cs[n]?.map (depthAt (openAfter depth (cs.take n))) := by
  induction cs generalizing depth n with
  | nil => rfl
  | cons c cs ih =>
      cases n with
      | zero => rfl
      | succ n =>
          rw [depths, List.getElem?_cons_succ, List.getElem?_cons_succ, ih, List.take_succ_cons,
            openAfter, openAfter, List.foldl_cons]

/-- A command changes the counter as it changes the height, unless the counter sticks at zero. -/
theorem depthAfter_eq_height {depth : Nat} (h : 0 ≤ depth + height [c]) :
    (depthAfter (depthAt depth c) c : Int) = depth + height [c] := by
  rcases c.kinds with ⟨direction, condition, rfl⟩ | rfl | ⟨hopens, hcloses⟩
  · rw [height_branch_cons, height_nil]
    rfl
  · rw [height_endBranch_cons, height_nil] at h ⊢
    show ((depth - 1 : Nat) : Int) = depth + (0 - 1)
    omega
  · have hsame : depthAfter (depthAt depth c) c = depth := by
      cases c with
      | branch => cases hopens
      | endBranch => cases hcloses
      | move | pickUp | drop | arithmetic => rfl
    rw [hsame, height_plain_cons hopens hcloses, height_nil, Int.add_zero]

/-- The counter is never stuck if the height does not fall below zero, and then keeps the height. -/
theorem openAfter_eq_height (depth : Nat) (cs : List Command)
    (h : ∀ n, 0 ≤ depth + height (cs.take n)) : (openAfter depth cs : Int) = depth + height cs := by
  induction cs generalizing depth with
  | nil => simp [openAfter]
  | cons c cs ih =>
      have hstep : (depthAfter (depthAt depth c) c : Int) = depth + height [c] :=
        depthAfter_eq_height (h 1)
      have hcons : ∀ ds, height (c :: ds) = height [c] + height ds := fun ds => by
        rw [← height_append, List.singleton_append]
      -- A prefix of the rest is a prefix of the whole that is one command longer.
      have hrest := ih (depthAfter (depthAt depth c) c) fun n => by
        have hn := h (n + 1)
        rw [List.take_succ_cons, hcons] at hn
        omega
      rw [hcons, openAfter, List.foldl_cons]
      rw [openAfter] at hrest
      omega

/-- In balanced commands the counter keeps the level of the lines. -/
theorem openAfter_eq_level (hb : Balanced p.commands) (n : Nat) :
    (openAfter 0 (p.commands.take n) : Int) = p.level n := by
  have hpre := (balanced_iff_height.mp hb).1
  have hopen := openAfter_eq_height 0 (p.commands.take n) fun m => by
    rw [List.take_take]
    have hm := hpre (min m n)
    omega
  rw [hopen, level]
  omega

/-! ## The pairs around a line -/

/-- The lines of one kind up to a line are as many as the commands of that kind. -/
theorem countP_linesWith (p : Program) (q : Command → Bool) (n : Nat) :
    (p.linesWith q).countP (· ≤ n) = (p.commands.take n).countP q := by
  obtain ⟨cs, jumps, endLines⟩ := p
  induction cs using List.reverseRecOn with
  | nil => simp [linesWith, length]
  | append_singleton cs c ih =>
      rw [linesWith_push (p := ⟨cs, jumps, endLines⟩) rfl, List.countP_append, ih,
        List.take_append, List.countP_append]
      congr 1
      show (if q c then [cs.length + 1] else []).countP (· ≤ n)
        = ([c].take (n - cs.length)).countP q
      cases hn : n - cs.length with
      | zero =>
          have hlast : ¬cs.length + 1 ≤ n := by omega
          cases q c <;> simp [hlast]
      | succ m =>
          have hlast : cs.length + 1 ≤ n := by omega
          cases hq : q c <;> simp [hlast, hq]

/-- Of the pairs that begin before a line, those that lie around it have not ended by then. -/
theorem countP_around {pairs : List (Nat × Nat)} (h : ∀ e ∈ pairs, e.1 < e.2) (line : Nat) :
    pairs.countP (fun e => e.1 < line ∧ line < e.2) + pairs.countP (fun e => e.2 ≤ line)
      = pairs.countP fun e => e.1 < line := by
  induction pairs with
  | nil => rfl
  | cons e pairs ih =>
      obtain ⟨hfirst, hrest⟩ := List.forall_mem_cons.mp h
      have htail := ih hrest
      simp only [List.countP_cons, decide_eq_true_eq]
      split <;> split <;> split <;> omega

theorem enclosing_add (h : Matching p) (n : Nat) :
    p.enclosing (n + 1) + (p.commands.take (n + 1)).countP Command.closes
      = (p.commands.take n).countP Command.opens := by
  have hends : p.jumps.entries.countP (fun e => e.2 ≤ n + 1)
      = (p.commands.take (n + 1)).countP Command.closes := by
    rw [← countP_linesWith, ← h.values.countP_eq, List.countP_map]
    rfl
  have hstarts : p.jumps.entries.countP (fun e => e.1 < n + 1)
      = (p.commands.take n).countP Command.opens := by
    rw [← countP_linesWith, ← h.keys, SortedMap.keys, List.countP_map]
    exact List.countP_congr fun e _ => by
      simp only [Function.comp_apply, decide_eq_true_eq, Nat.lt_succ_iff]
  rw [← hends, ← hstarts]
  exact countP_around h.forward (n + 1)

/-- The pairs around a line are as many as the level before it, less one for an `end if`. -/
theorem enclosing_eq (h : Matching p) (hc : p.command? (n + 1) = some c) :
    (p.enclosing (n + 1) : Int) = p.level n - if c.closes then 1 else 0 := by
  have hadd := enclosing_add h n
  rw [command?_succ] at hc
  rw [List.take_add_one, hc, List.countP_append] at hadd
  rw [level, height]
  cases hcloses : c.closes <;> simp [hcloses] at hadd ⊢ <;> omega

theorem enclosing_of_opens (h : Matching p) (hi : (p.command? i).any Command.opens = true) :
    (p.enclosing i : Int) = p.level i - 1 := by
  obtain ⟨c, hc, hopens⟩ := (Option.any_eq_true ..).mp hi
  obtain ⟨n, rfl⟩ := Nat.exists_eq_add_one.mpr (bounds_of_command? hc).1
  obtain ⟨direction, condition, rfl⟩ := Command.opens_iff.mp hopens
  have hlevel := level_of_opens hi
  have hcloses : ¬(Command.branch direction condition).closes = true := Bool.false_ne_true
  rw [enclosing_eq h hc, if_neg hcloses, hlevel, Nat.add_sub_cancel]
  omega

theorem enclosing_of_closes (h : Matching p) (hj : (p.command? j).any Command.closes = true) :
    (p.enclosing j : Int) = p.level j := by
  obtain ⟨c, hc, hcloses⟩ := (Option.any_eq_true ..).mp hj
  obtain ⟨n, rfl⟩ := Nat.exists_eq_add_one.mpr (bounds_of_command? hc).1
  rw [enclosing_eq h hc, if_pos hcloses, level_of_closes hj, Nat.add_sub_cancel]

/-- The same pairs lie around an `if` and around its `end if`. -/
theorem Paired.enclosing_eq (hpair : p.Paired i j) (h : Matching p) :
    p.enclosing i = p.enclosing j := by
  have hi := enclosing_of_opens h hpair.opens
  have hj := enclosing_of_closes h hpair.closes
  have hlast := hpair.level_last
  omega

theorem Paired.enclosing_lt (hpair : p.Paired i j) (h : Matching p) (hi : i < line)
    (hj : line < j) : p.enclosing i < p.enclosing line := by
  have hfirst := enclosing_of_opens h hpair.opens
  have hlength := (bounds_of_any hpair.closes).2
  -- An `end if` stands on the level that it leaves, any other command on the level before it.
  by_cases hcloses : (p.command? line).any Command.closes = true
  · have henclosing := enclosing_of_closes h hcloses
    have hlevel := hpair.level_le (Nat.le_of_lt hi) hj
    omega
  · obtain ⟨n, rfl⟩ := Nat.exists_eq_add_one.mpr (Nat.zero_lt_of_lt hi)
    have hlevel := hpair.level_le (n := n) (by omega) (by omega)
    cases hc : p.command? (n + 1) with
    | none =>
        have hnone := command?_eq_none_iff.mp hc
        omega
    | some c =>
        rw [hc, Option.any_some] at hcloses
        have henclosing := Program.enclosing_eq h hc
        rw [if_neg hcloses] at henclosing
        omega

/-! ## The lines of a listing -/

/-- What stands before an `end if` leaves an `if` open. -/
theorem openAfter_pos (hb : Balanced p.commands) (hc : p.commands[n]? = some .endBranch) :
    0 < openAfter 0 (p.commands.take n) := by
  obtain ⟨hn, hget⟩ := List.getElem?_eq_some_iff.mp hc
  have hsplit : p.commands = p.commands.take n ++ .endBranch :: p.commands.drop (n + 1) := by
    rw [← hget, ← List.drop_eq_getElem_cons hn, List.take_append_drop]
  have hlevel := openAfter_eq_level hb n
  rw [hsplit] at hb
  have hbefore := hb.height_before
  rw [level] at hlevel
  omega

/-- A command stands at the depth of the pairs around it. -/
theorem depthAt_eq_enclosing (hb : Balanced p.commands) (h : Matching p)
    (hc : p.commands[n]? = some c) :
    depthAt (openAfter 0 (p.commands.take n)) c = p.enclosing (n + 1) := by
  have hlevel := openAfter_eq_level hb n
  have henclosing := enclosing_eq h (p.command?_succ n ▸ hc)
  by_cases hcloses : c.closes = true
  · obtain rfl := Command.closes_iff.mp hcloses
    have hpos := openAfter_pos hb hc
    rw [if_pos hcloses] at henclosing
    show openAfter 0 (p.commands.take n) - 1 = _
    omega
  · have hdepth : depthAt (openAfter 0 (p.commands.take n)) c
        = openAfter 0 (p.commands.take n) := by
      cases c with
      | endBranch => exact absurd rfl hcloses
      | _ => rfl
    rw [if_neg hcloses] at henclosing
    omega

theorem getElem?_listingLines (hb : Balanced p.commands) (h : Matching p)
    (hc : p.command? (n + 1) = some c) :
    p.listingLines[n]? = some (p.lineText (n + 1) c ++ arrow (p.jump? (n + 1))) := by
  rw [command?_succ] at hc
  have hdepth : (depths 0 p.commands)[n]? = some (p.enclosing (n + 1)) := by
    rw [getElem?_depths, hc, Option.map_some, depthAt_eq_enclosing hb h hc]
  have hzip : (p.commands.zip (depths 0 p.commands))[n]? = some (c, p.enclosing (n + 1)) :=
    List.getElem?_zip_eq_some.mpr ⟨hc, hdepth⟩
  rw [listingLines, List.getElem?_map, List.getElem?_zipIdx, hzip, Nat.add_comm 1 n]
  rfl

theorem length_listing (p : Program) : p.listing.length = p.length + 1 := by
  rw [listing, List.length_cons, listingLines, List.length_map, List.length_zipIdx,
    List.length_zip, length_depths, Nat.min_self]
  rfl

theorem size_jumps (h : Matching p) : p.jumps.size = p.commands.countP Command.opens := by
  have hlines : ∀ line ∈ p.linesWith Command.opens, decide (line ≤ p.length) = true := by
    intro line hline
    exact decide_eq_true (bounds_of_any (mem_linesWith.mp hline)).2
  have hcount := countP_linesWith p Command.opens p.length
  rw [List.countP_eq_length.mpr hlines, ← h.keys, length, List.take_length] at hcount
  rw [← hcount, SortedMap.keys, List.length_map]
  rfl

/-- The output shows the commands of the program, and the pairs in its table of jumps. -/
structure Shows (p : Program) (output : List String) : Prop where
  length : output.length = p.length + 1
  head : output[0]? = some (natText p.length ++ " line(s), " ++
    natText (p.commands.countP Command.opens) ++ " if-block(s)")
  /-- The arrow of an `if` names the line of its `end if`. -/
  branch : ∀ {line c}, p.command? line = some c → c.opens = true → ∃ j, p.Paired line j ∧
    output[line]? = some (p.lineText line c ++ "    -> " ++ natText j)
  plain : ∀ {line c}, p.command? line = some c → c.opens = false →
    output[line]? = some (p.lineText line c)
  ends : ∀ e ∈ p.jumps.entries, p.enclosing e.1 = p.enclosing e.2
  inside : ∀ e ∈ p.jumps.entries, ∀ line, e.1 < line → line < e.2 →
    p.enclosing e.1 < p.enclosing line
  /-- The counter has something to take from at every `end if`. -/
  positive : ∀ n, p.commands[n]? = some .endBranch → 0 < openAfter 0 (p.commands.take n)
  closed : openAfter 0 p.commands = 0

theorem shows_listing (hp : Draft.Sound { program := p }) : Shows p p.listing := by
  have hb : Balanced p.commands := hp.balanced
  have hmatching : Matching p := hp.matching
  have hpaired : ∀ e ∈ p.jumps.entries, p.Paired e.1 e.2 := fun e he =>
    hp.paired (SortedMap.get?_eq_some_iff.mpr he)
  have hline : ∀ {line c}, p.command? line = some c →
      p.listing[line]? = some (p.lineText line c ++ arrow (p.jump? line)) := by
    intro line c hc
    obtain ⟨n, rfl⟩ := Nat.exists_eq_add_one.mpr (bounds_of_command? hc).1
    rw [listing, List.getElem?_cons_succ, getElem?_listingLines hb hmatching hc]
  exact {
    length := length_listing p
    head := by
      rw [← size_jumps hmatching]
      rfl
    branch := by
      intro line c hc hopens
      have hany : (p.command? line).any Command.opens = true := by
        rw [hc, Option.any_some, hopens]
      obtain hopen | ⟨j, hj⟩ := hp.keyed hany
      · cases hopen
      · have hj : p.jump? line = some j := hj
        refine ⟨j, hp.paired hj, ?_⟩
        rw [hline hc, hj, arrow, String.append_assoc]
    plain := by
      intro line c hc hopens
      have hnone : p.jump? line = none := by
        rw [Option.eq_none_iff_forall_ne_some]
        intro j hj
        have hany := (hp.jump?_eq_some_iff.mp hj).opens
        rw [hc, Option.any_some, hopens] at hany
        cases hany
      rw [hline hc, hnone, arrow, String.append_empty]
    ends := fun e he => (hpaired e he).enclosing_eq hmatching
    inside := fun e he line => (hpaired e he).enclosing_lt hmatching
    positive := fun n => openAfter_pos hb
    closed := by
      have hlevel := openAfter_eq_level hb p.length
      rw [length, List.take_length, level, List.take_length,
        (balanced_iff_height.mp hb).2] at hlevel
      exact Int.ofNat.inj hlevel }

/-- What is listed for a program file is a program that the standard catalogue has built. -/
theorem listing_of_ofCheck {read : Reader} {file : String} {inLevel : Bool} {job : Job}
    (h : Job.ofCheck read file inLevel = .ok job) :
    ∃ ds p, build .standard ds = .ok p ∧ job = .answer p.listing := by
  unfold Job.ofCheck at h
  split at h
  all_goals
    obtain ⟨ds, -, hrest⟩ := bind_eq_ok_iff.mp h
    obtain ⟨p, hp, hjob⟩ := bind_eq_ok_iff.mp hrest
    exact ⟨ds, p, mapError_eq_ok_iff.mp hp, (Except.ok.inj hjob).symm⟩

/-- The listing of a built program shows its pairs, and a program that is checked is listed. -/
theorem listing_exact :
    (∀ c ds p, build c ds = .ok p → Shows p p.listing) ∧
      ∀ read file inLevel job, Job.ofCheck read file inLevel = .ok job →
        ∃ ds p, build .standard ds = .ok p ∧ job = .answer p.listing :=
  ⟨fun _ _ _ h => shows_listing (sound_of_build h).1, fun _ _ _ _ h => listing_of_ofCheck h⟩

theorem listing_exact_pair :
    let read : Reader := fun _ => .ok ("[\x7b\"index\":7,\"type\":\"End If\"\x7d," ++
      "\x7b\"index\":3,\"type\":\"if\",\"parameters\":" ++
        "\x7b\"direction\":\"north\",\"condition\":\"wall\"\x7d\x7d]").toUTF8
    let output := ["2 line(s), 1 if-block(s)", "   1  if n is wall    -> 2", "   2  end if"]
    Shows nested nested.listing ∧ Job.ofCheck read "p" false = .ok (.answer output) ∧
      ∃ ds p, build .standard ds = .ok p ∧ Job.answer output = .answer p.listing := by
  intro read output
  let ds : List Descriptor := [⟨7, "End If", .empty⟩,
    ⟨3, "if", .ofList [("direction", "north"), ("condition", "wall")]⟩]
  let p : Program := ⟨[.branch .north (.terrain .wall), .endBranch], .ofList [(1, 2)], [2]⟩
  have hload : loadProgram read "p" = .ok ds := by decide +kernel
  have hbuild : build .standard ds = .ok p := by
    have horder : order ds = ds.reverse := by
      simp [order, ds, List.mergeSort, List.MergeSort.Internal.splitInTwo]
    rw [build, horder]
    decide +kernel
  have hlisting : p.listing = output := by decide +kernel
  have hcheck : Job.ofCheck read "p" false = .ok (.answer output) := by
    unfold Job.ofCheck
    rw [if_neg Bool.false_ne_true, hload]
    show ((build .standard ds).mapError Refusal.rejected >>= fun p =>
      Except.ok (Job.answer p.listing)) = _
    rw [hbuild]
    exact congrArg (fun lines => Except.ok (Job.answer lines)) hlisting
  exact ⟨listing_exact.1 signs nest nested build_nest, hcheck, listing_exact.2 _ _ _ _ hcheck⟩

end Program

end TilePuzzle
