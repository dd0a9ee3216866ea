import Mathlib.Data.List.Basic
import TilePuzzle.Text.Blank
import TilePuzzle.Text.Lowercase

/-!
# What lowercasing leaves

A lowercase text has nothing left to lower (`lower_lower`), and lowercasing makes no blanks
(`not_isBlank_of_mem_lower`). Both are facts of the table: the images of a run lie in no run and are not
blank. The runs are in ascending order, so `CaseRun.avoids` need not look at those beyond the images.

The case of the letters from A to Z makes no difference to the lowercase of a text (`lower_congr`). This
includes the sigmas of the text, as these letters are cased in either case.
-/

namespace TilePuzzle.Text

/-! ## Runs and their images -/

namespace CaseRun

variable {r : CaseRun} {runs : List CaseRun} {n : Nat}

/-- The code points of the run. -/
def points (r : CaseRun) : List Nat :=
  List.range' r.first ((r.last - r.first) / r.step + 1) r.step

/-- The code point of the lowercase of `n`. -/
def image (r : CaseRun) (n : Nat) : Nat := (n + r.shift).toNat

/-- No image of the run lies in one of the ascending `runs`. -/
def avoids (r : CaseRun) : List CaseRun → Bool
  | [] => true
  | s :: rest =>
    if s.last < r.image r.first then r.avoids rest
    else if r.image r.last < s.first then true
    else (r.points.all fun n => !s.covers (r.image n)) && r.avoids rest

theorem covers_iff : r.covers n = true ↔ r.first ≤ n ∧ n ≤ r.last ∧ (n - r.first) % r.step = 0 := by
  simp [covers, and_assoc]

theorem mem_points_of_covers (h : r.covers n = true) : n ∈ r.points := by
  obtain ⟨hfirst, hlast, hstep⟩ := covers_iff.mp h
  have hle : (n - r.first) / r.step ≤ (r.last - r.first) / r.step :=
    Nat.div_le_div_right (by omega)
  refine List.mem_range'.mpr ⟨(n - r.first) / r.step, by omega, ?_⟩
  rw [Nat.mul_div_cancel' (Nat.dvd_of_mod_eq_zero hstep)]
  omega

theorem image_mono {m : Nat} (h : m ≤ n) : r.image m ≤ r.image n := by
  unfold image
  omega

theorem not_covers_of_avoids (hrun : r.covers n = true)
    (hascending : runs.Pairwise fun s s' => s.first ≤ s'.first) (h : r.avoids runs = true) :
    ∀ s ∈ runs, s.covers (r.image n) = false := by
  obtain ⟨hfirst, hlast, -⟩ := covers_iff.mp hrun
  have hleast : r.image r.first ≤ r.image n := image_mono hfirst
  have hgreatest : r.image n ≤ r.image r.last := image_mono hlast
  induction runs with
  | nil => exact fun s hs => nomatch hs
  | cons s rest ih =>
      obtain ⟨hle, hrest⟩ := List.pairwise_cons.mp hascending
      rw [avoids] at h
      split at h
      · next hbelow =>
          refine List.forall_mem_cons.mpr ⟨?_, ih hrest h⟩
          rw [← Bool.not_eq_true, covers_iff]
          omega
      · split at h
        · next hbeyond =>
            -- The images end before this run, and so before those after it.
            refine List.forall_mem_cons.mpr ⟨?_, fun s' hs' => ?_⟩
            · rw [← Bool.not_eq_true, covers_iff]
              omega
            · have hfirst' := hle s' hs'
              rw [← Bool.not_eq_true, covers_iff]
              omega
        · obtain ⟨hpoints, hlater⟩ := Bool.and_eq_true_iff.mp h
          have hpoint := List.all_eq_true.mp hpoints n (mem_points_of_covers hrun)
          rw [Bool.not_eq_true'] at hpoint
          exact List.forall_mem_cons.mpr ⟨hpoint, ih hrest hlater⟩

end CaseRun

theorem ascending_lowercaseRuns : lowercaseRuns.Pairwise fun r r' => r.first ≤ r'.first := by
  have hchain : lowercaseRuns.IsChain fun r r' => r.first ≤ r'.first := by decide +kernel
  exact hchain.pairwise

theorem avoids_lowercaseRuns : ∀ r ∈ lowercaseRuns, r.avoids lowercaseRuns = true := by
  decide +kernel

theorem image_lowercaseRuns : ∀ r ∈ lowercaseRuns, ∀ n ∈ r.points,
    (r.image n).isValidChar ∧ Char.ofNat (r.image n) ≠ 'İ' ∧
      isBlank (Char.ofNat (r.image n)) = false := by
  decide +kernel

/-! ## Characters -/

section Characters

variable {c d : Char}

theorem lowerChar_of_not_covers (hc : c ≠ 'İ')
    (h : ∀ r ∈ lowercaseRuns, r.covers c.toNat = false) : lowerChar c = [c] := by
  have hfind : lowercaseRuns.find? (·.covers c.toNat) = none := by
    rw [List.find?_eq_none]
    intro r hr
    rw [h r hr]
    exact Bool.false_ne_true
  rw [lowerChar, if_neg hc, hfind]

/-- The lowercase of a character has two characters, or it is an image of a run, or the character
itself. -/
theorem lowerChar_cases (c : Char) :
    lowerChar c = ['i', '\u0307'] ∨
      (∃ r ∈ lowercaseRuns, r.covers c.toNat = true ∧
        lowerChar c = [Char.ofNat (r.image c.toNat)]) ∨
      lowerChar c = [c] := by
  unfold lowerChar
  split
  · exact .inl rfl
  · split
    · next r hr =>
        have hcovers : r.covers c.toNat = true := by simpa using List.find?_some hr
        exact .inr (.inl ⟨r, List.mem_of_find?_eq_some hr, hcovers, rfl⟩)
    · exact .inr (.inr rfl)

/-- Both characters of the lowercase of `İ` are in lowercase, and of the sigmas the capital one is not. -/
theorem lowerChar_special :
    lowerChar 'Σ' ≠ ['Σ'] ∧ lowerChar 'σ' = ['σ'] ∧ lowerChar 'ς' = ['ς'] ∧
      lowerChar 'i' = ['i'] ∧ lowerChar '\u0307' = ['\u0307'] := by
  decide +kernel

/-- What a lowercase consists of is its own lowercase. -/
theorem lowerChar_of_mem_lowerChar (h : d ∈ lowerChar c) : lowerChar d = [d] := by
  rcases lowerChar_cases c with heq | ⟨r, hr, hcovers, heq⟩ | heq
  · rw [heq] at h
    rcases List.mem_pair.mp h with rfl | rfl
    · exact lowerChar_special.2.2.2.1
    · exact lowerChar_special.2.2.2.2
  · rw [heq, List.mem_singleton] at h
    obtain ⟨hvalid, hne, -⟩ := image_lowercaseRuns r hr _ (CaseRun.mem_points_of_covers hcovers)
    have havoids := CaseRun.not_covers_of_avoids hcovers ascending_lowercaseRuns
      (avoids_lowercaseRuns r hr)
    have htoNat : (Char.ofNat (r.image c.toNat)).toNat = r.image c.toNat := by
      rw [Char.ofNat, dif_pos hvalid]
      rfl
    subst h
    refine lowerChar_of_not_covers hne ?_
    rwa [htoNat]
  · rw [heq, List.mem_singleton] at h
    rw [h, heq]

theorem not_isBlank_of_mem_lowerChar (hc : isBlank c = false) (h : d ∈ lowerChar c) :
    isBlank d = false := by
  rcases lowerChar_cases c with heq | ⟨r, hr, hcovers, heq⟩ | heq
  · rw [heq] at h
    rcases List.mem_pair.mp h with rfl | rfl <;> decide
  · rw [heq, List.mem_singleton] at h
    rw [h]
    exact (image_lowercaseRuns r hr _ (CaseRun.mem_points_of_covers hcovers)).2.2
  · rw [heq, List.mem_singleton] at h
    rw [h, hc]

end Characters

/-! ## Texts -/

section Texts

variable {s : String} {c : Char} {before cs : List Char}

theorem mem_lowerAfter (h : c ∈ lowerAfter before cs) :
    (c = 'ς' ∨ c = 'σ') ∨ ∃ d ∈ cs, c ∈ lowerChar d := by
  induction cs generalizing before with
  | nil => cases h
  | cons d rest ih =>
      rw [lowerAfter, List.mem_append] at h
      rcases h with h | h
      · split at h
        · left
          rw [List.mem_singleton.mp h, lowerSigma]
          split
          · exact .inl rfl
          · exact .inr rfl
        · exact .inr ⟨d, List.mem_cons_self, h⟩
      · rcases ih h with hsigma | ⟨d', hd', h⟩
        · exact .inl hsigma
        · exact .inr ⟨d', List.mem_cons_of_mem d hd', h⟩

theorem lowerChar_of_mem_lower (h : c ∈ (lower s).toList) : lowerChar c = [c] := by
  rw [toList_lower] at h
  rcases mem_lowerAfter h with (rfl | rfl) | ⟨d, -, h⟩
  · exact lowerChar_special.2.2.1
  · exact lowerChar_special.2.1
  · exact lowerChar_of_mem_lowerChar h

/-- Lowercasing a text without blanks gives a text without blanks. -/
theorem not_isBlank_of_mem_lower (hs : ∀ d ∈ s.toList, isBlank d = false)
    (h : c ∈ (lower s).toList) : isBlank c = false := by
  rw [toList_lower] at h
  rcases mem_lowerAfter h with (rfl | rfl) | ⟨d, hd, h⟩
  · decide
  · decide
  · exact not_isBlank_of_mem_lowerChar (hs d hd) h

theorem lowerAfter_of_settled (h : ∀ c ∈ cs, lowerChar c = [c]) : lowerAfter before cs = cs := by
  induction cs generalizing before with
  | nil => rfl
  | cons c rest ih =>
      obtain ⟨hc, hrest⟩ := List.forall_mem_cons.mp h
      have hsigma : c ≠ 'Σ' := by
        rintro rfl
        exact lowerChar_special.1 hc
      rw [lowerAfter, if_neg hsigma, hc, ih hrest]
      rfl

theorem lower_of_settled (h : ∀ c ∈ s.toList, lowerChar c = [c]) : lower s = s := by
  rw [lower, lowerAfter_of_settled h, String.ofList_toList]

theorem lower_lower (s : String) : lower (lower s) = lower s :=
  lower_of_settled fun _ => lowerChar_of_mem_lower

theorem lowercaseRuns_ascii : ∀ r ∈ lowercaseRuns, 65 ≤ r.first ∧ r.last ≤ 90 ∨ 128 ≤ r.first := by
  decide +kernel

theorem bounds_of_isLower {c : Char} (h : c.isLower = true) : 97 ≤ c.toNat ∧ c.toNat ≤ 122 := by
  have hboth := Bool.and_eq_true_iff.mp h
  exact ⟨UInt32.le_iff_toNat_le.mp (of_decide_eq_true hboth.1),
    UInt32.le_iff_toNat_le.mp (of_decide_eq_true hboth.2)⟩

/-- A text of letters from a to z is its own lowercase. -/
theorem lower_of_isLower (h : s.toList.all Char.isLower = true) : lower s = s := by
  refine lower_of_settled fun c hc => ?_
  have hbounds := bounds_of_isLower (List.all_eq_true.mp h c hc)
  refine lowerChar_of_not_covers ?_ fun r hr => ?_
  · rintro rfl
    exact absurd hbounds (by decide)
  · have hrun := lowercaseRuns_ascii r hr
    rw [← Bool.not_eq_true, CaseRun.covers_iff]
    omega

end Texts

/-! ## Letters from A to Z -/

section Letters

/-- What is alike for the two cases of every letter from A to Z does not see the case of these
letters. -/
theorem apply_toLower {α : Type} {f : Char → α}
    (h : ∀ n ∈ List.range' 65 26, f (Char.ofNat n).toLower = f (Char.ofNat n)) (c : Char) :
    f c.toLower = f c := by
  by_cases hupper : 'A'.val ≤ c.val ∧ c.val ≤ 'Z'.val
  · have hn : c.toNat ∈ List.range' 65 26 := by
      rw [List.mem_range'_1]
      exact ⟨UInt32.le_iff_toNat_le.mp hupper.1,
        Nat.lt_succ_of_le (UInt32.le_iff_toNat_le.mp hupper.2)⟩
    have hletter := h c.toNat hn
    rwa [Char.ofNat_toNat] at hletter
  · have hsame : c.toLower = c := dif_neg hupper
    rw [hsame]

theorem isBlank_toLower (c : Char) : isBlank c.toLower = isBlank c :=
  apply_toLower (by decide) c

/-- The two cases of a letter from A to Z are cased alike and have one lowercase. -/
theorem letters_checked : ∀ n ∈ List.range' 65 26,
    isCased (Char.ofNat n).toLower = isCased (Char.ofNat n) ∧
      lowerChar (Char.ofNat n).toLower = lowerChar (Char.ofNat n) := by
  decide +kernel

theorem isCased_toLower (c : Char) : isCased c.toLower = isCased c :=
  apply_toLower (fun n hn => (letters_checked n hn).1) c

theorem caseIgnorableRanges_apart : ∀ r ∈ caseIgnorableRanges,
    r.2 < 65 ∨ (90 < r.1 ∧ r.2 < 97) ∨ 122 < r.1 := by
  decide +kernel

theorem not_isCaseIgnorable_letter {c : Char}
    (h : (65 ≤ c.toNat ∧ c.toNat ≤ 90) ∨ (97 ≤ c.toNat ∧ c.toNat ≤ 122)) :
    isCaseIgnorable c = false := by
  rw [isCaseIgnorable, inRanges, List.any_eq_false]
  intro r hr hc
  rw [Bool.and_eq_true, decide_eq_true_eq, decide_eq_true_eq] at hc
  have hapart := caseIgnorableRanges_apart r hr
  omega

theorem isCaseIgnorable_toLower (c : Char) : isCaseIgnorable c.toLower = isCaseIgnorable c := by
  refine apply_toLower (fun n hn => ?_) c
  have hupper : ∀ n ∈ List.range' 65 26, 65 ≤ (Char.ofNat n).toNat ∧ (Char.ofNat n).toNat ≤ 90 := by
    decide
  have hlower : ∀ n ∈ List.range' 65 26,
      97 ≤ (Char.ofNat n).toLower.toNat ∧ (Char.ofNat n).toLower.toNat ≤ 122 := by
    decide
  rw [not_isCaseIgnorable_letter (.inr (hlower n hn)),
    not_isCaseIgnorable_letter (.inl (hupper n hn))]

theorem lowerChar_toLower (c : Char) : lowerChar c.toLower = lowerChar c :=
  apply_toLower (fun n hn => (letters_checked n hn).2) c

theorem toLower_eq_sigma_iff {c : Char} : c.toLower = 'Σ' ↔ c = 'Σ' := by
  have h := apply_toLower (f := fun c => decide (c = 'Σ')) (by decide) c
  exact decide_eq_decide.mp h

theorem startsCased_map_toLower (cs : List Char) :
    startsCased (cs.map Char.toLower) = startsCased cs := by
  have hignorable : isCaseIgnorable ∘ Char.toLower = isCaseIgnorable :=
    funext isCaseIgnorable_toLower
  unfold startsCased
  rw [List.dropWhile_map, hignorable]
  cases cs.dropWhile isCaseIgnorable with
  | nil => rfl
  | cons c rest => exact isCased_toLower c

theorem lowerAfter_map_toLower (before cs : List Char) :
    lowerAfter (before.map Char.toLower) (cs.map Char.toLower) = lowerAfter before cs := by
  induction cs generalizing before with
  | nil => rfl
  | cons c rest ih =>
      have hrest := ih (c :: before)
      rw [List.map_cons] at hrest
      rw [List.map_cons, lowerAfter, lowerAfter, hrest, lowerSigma, lowerSigma,
        startsCased_map_toLower, startsCased_map_toLower, lowerChar_toLower]
      simp only [toLower_eq_sigma_iff]

/-- Texts that differ in the case of letters from A to Z have the same lowercase. -/
theorem lower_congr {cs cs' : List Char} (h : cs.map Char.toLower = cs'.map Char.toLower) :
    lower (String.ofList cs) = lower (String.ofList cs') := by
  have hlower := (lowerAfter_map_toLower [] cs).symm.trans
    ((congrArg (lowerAfter []) h).trans (lowerAfter_map_toLower [] cs'))
  rw [lower, lower, String.toList_ofList, String.toList_ofList, hlower]

end Letters

end TilePuzzle.Text
