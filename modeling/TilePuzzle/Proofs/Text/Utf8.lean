import TilePuzzle.Text.Utf8

/-!
# Encoded texts are decoded

The bytes of a text are decoded to the characters of the text, without a gap.
-/

namespace TilePuzzle.Text

theorem mark_ofNat {mark bits : Nat} (h : bits + mark < 256) :
    (UInt8.ofNat (bits + mark)).toNat = mark + bits := by
  rw [UInt8.toNat_ofNat_of_lt' h, Nat.add_comm]

/-- What six bits are written as is read as six bits. -/
theorem continuation?_ofNat {n : Nat} (h : n < 64) :
    continuation? (UInt8.ofNat (n + 128)) = some n := by
  have hbyte : (UInt8.ofNat (n + 128)).toNat = n + 128 :=
    UInt8.toNat_ofNat_of_lt' (show n + 128 < 256 by omega)
  have hrange : (0x80 ≤ n + 128 && n + 128 ≤ 0xBF) = true := by
    simp only [Bool.and_eq_true, decide_eq_true_eq]
    omega
  rw [continuation?, hbyte, if_pos hrange]
  exact congrArg some (Nat.add_sub_cancel ..)

theorem scalar?_toNat {c : Char} {least n : Nat} (hn : n = c.toNat) (h : least ≤ n) :
    scalar? least n = some c := by
  subst hn
  have hvalid : c.toNat.isValidChar := c.valid
  rw [scalar?, if_pos ⟨h, hvalid⟩, Char.ofNat_toNat]

/-- How many continuation bytes a first byte asks for, the least number that is written so, what
stands in front of the bits of the first byte, and how many values these have. -/
def forms : List (Nat × Nat × Nat × Nat) :=
  [(1, 0x80, 0xC0, 0x20), (2, 0x800, 0xE0, 0x10), (3, 0x10000, 0xF0, 8)]

theorem sequence?_of_groups {b : UInt8} {rest : List UInt8} {groups : List Nat} {c : Char}
    {least mark count bits : Nat} (hform : (groups.length, least, mark, count) ∈ forms)
    (hb : b.toNat = mark + bits) (hbits : bits < count)
    (hgroups : (rest.take groups.length).mapM continuation? = some groups)
    (hvalue : extend bits groups = c.toNat) (hleast : least ≤ c.toNat) :
    sequence? b rest = some (c, groups.length) := by
  have hscalar := scalar?_toNat hvalue (hvalue ▸ hleast)
  simp only [forms, List.mem_cons, Prod.mk.injEq, List.not_mem_nil, or_false] at hform
  have htail : ∀ length, length = groups.length → (do
      let groups ← (rest.take length).mapM continuation?
      if groups.length = length then
        let c ← scalar? least (extend bits groups)
        pure (c, length)
      else none) = some (c, groups.length) := by
    rintro length rfl
    rw [hgroups]
    show (if groups.length = groups.length then _ else none) = _
    rw [if_pos rfl, hscalar]
    rfl
  have hlead : ∀ low high : Nat, (low ≤ b.toNat && b.toNat < high) = true
      ↔ low ≤ b.toNat ∧ b.toNat < high := by simp
  unfold sequence?
  dsimp only
  rcases hform with ⟨hlength, rfl, rfl, rfl⟩ | ⟨hlength, rfl, rfl, rfl⟩ | ⟨hlength, rfl, rfl, rfl⟩
  · rw [if_neg (by omega), if_pos ((hlead _ _).mpr (by omega)), hb, Nat.add_sub_cancel_left]
    exact htail 1 hlength.symm
  · rw [if_neg (by omega), if_neg (mt (hlead _ _).mp (by omega)),
      if_pos ((hlead _ _).mpr (by omega)), hb, Nat.add_sub_cancel_left]
    exact htail 2 hlength.symm
  · rw [if_neg (by omega), if_neg (mt (hlead _ _).mp (by omega)),
      if_neg (mt (hlead _ _).mp (by omega)), if_pos ((hlead _ _).mpr (by omega)), hb,
      Nat.add_sub_cancel_left]
    exact htail 3 hlength.symm

theorem sequence?_encoded (c : Char) (rest : List UInt8) :
    ∃ b more, String.utf8EncodeChar c = b :: more ∧
      sequence? b (more ++ rest) = some (c, more.length) := by
  have hc : c.toNat < 0x110000 := by
    have hvalid : c.toNat.isValidChar := c.valid
    unfold Nat.isValidChar at hvalid
    omega
  have hv : c.val.toNat = c.toNat := rfl
  unfold String.utf8EncodeChar
  simp only [hv]
  -- One case for each number of bytes, from one to four.
  split
  · next h1 =>
      refine ⟨_, _, rfl, ?_⟩
      simp only [sequence?, UInt8.toNat_ofNat_of_lt' (show c.toNat < 256 by omega),
        if_pos (show c.toNat < 128 by omega), scalar?_toNat rfl (Nat.zero_le _), Option.map_some]
      rfl
  · next h1 =>
      have hlow := continuation?_ofNat (Nat.mod_lt c.toNat (by decide : 0 < 64))
      have hmiddle := continuation?_ofNat (Nat.mod_lt (c.toNat / 64) (by decide : 0 < 64))
      have hhigh := continuation?_ofNat (Nat.mod_lt (c.toNat / 4096) (by decide : 0 < 64))
      split
      · have hform : ([c.toNat % 64].length, 0x80, 0xC0, 0x20) ∈ forms := by simp [forms]
        refine ⟨_, _, rfl, sequence?_of_groups hform (mark_ofNat (by omega)) (by omega)
          ?_ ?_ (by omega)⟩
        · show [_].mapM continuation? = _
          rw [List.mapM_cons, hlow]
          rfl
        · show c.toNat / 64 % 32 * 64 + c.toNat % 64 = c.toNat
          omega
      · split
        · have hform : ([c.toNat / 64 % 64, c.toNat % 64].length, 0x800, 0xE0, 0x10) ∈ forms := by
            simp [forms]
          refine ⟨_, _, rfl, sequence?_of_groups hform (mark_ofNat (by omega))
            (by omega) ?_ ?_ (by omega)⟩
          · show [_, _].mapM continuation? = _
            rw [List.mapM_cons, List.mapM_cons, hmiddle, hlow]
            rfl
          · show (c.toNat / 4096 % 16 * 64 + c.toNat / 64 % 64) * 64 + c.toNat % 64 = c.toNat
            omega
        · have hform : ([c.toNat / 4096 % 64, c.toNat / 64 % 64, c.toNat % 64].length, 0x10000,
              0xF0, 8) ∈ forms := by
            simp [forms]
          refine ⟨_, _, rfl, sequence?_of_groups hform (mark_ofNat (by omega))
            (by omega) ?_ ?_ (by omega)⟩
          · show [_, _, _].mapM continuation? = _
            rw [List.mapM_cons, List.mapM_cons, List.mapM_cons, hhigh, hmiddle, hlow]
            rfl
          · show ((c.toNat / 262144 % 8 * 64 + c.toNat / 4096 % 64) * 64 + c.toNat / 64 % 64) * 64
              + c.toNat % 64 = c.toNat
            omega

/-- The characters of a text are decoded one after the other. -/
theorem decode_flatMap (cs : List Char) :
    decode (cs.flatMap String.utf8EncodeChar) = cs.map some := by
  induction cs with
  | nil => rw [List.flatMap_nil, decode]; rfl
  | cons c cs ih =>
      obtain ⟨b, more, hbytes, hsequence⟩ := sequence?_encoded c (cs.flatMap String.utf8EncodeChar)
      rw [List.flatMap_cons, hbytes, List.cons_append, decode, hsequence]
      simp only [List.drop_left, ih, List.map_cons]

theorem toList_eq_data (bytes : ByteArray) : bytes.toList = bytes.data.toList := by
  have hloop : ∀ n i r, bytes.size - i = n →
      ByteArray.toList.loop bytes i r = r.reverse ++ bytes.data.toList.drop i := by
    intro n
    induction n with
    | zero =>
        intro i r hn
        have hend : bytes.data.toList.drop i = [] :=
          List.drop_eq_nil_of_le (Nat.le_of_sub_eq_zero hn)
        rw [ByteArray.toList.loop, if_neg (by omega), hend, List.append_nil]
    | succ n ih =>
        intro i r hn
        have hsize : i < bytes.size := by omega
        have hi : i < bytes.data.toList.length := hsize
        have hget : bytes.get! i = bytes.data.toList[i] := getElem!_pos bytes.data i hi
        rw [ByteArray.toList.loop, if_pos hsize, ih (i + 1) _ (by omega),
          List.drop_eq_getElem_cons hi, hget, List.reverse_cons, List.append_assoc]
        rfl
  exact hloop _ 0 [] rfl

theorem decode_toUTF8 (s : String) : decode s.toUTF8.toList = s.toList.map some := by
  rw [String.toUTF8_eq_toByteArray, ← String.utf8Encode_toList, List.utf8Encode,
    toList_eq_data, List.toList_data_toByteArray, decode_flatMap]

end TilePuzzle.Text
