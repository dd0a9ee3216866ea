import TilePuzzle.Proofs.Except
import TilePuzzle.Storage

/-!
# Adding to files

A path leads to a file if its last word is a name and the words before it lead to a folder. Then
nothing has to be made on the way when something is added to the file, and afterwards the same walk
leads to it: a walk sees which files there are, and not what they hold.

So a path `Receives` what is added to it, if it leads to a file that can be read or to one that is
yet to be made.
-/

namespace TilePuzzle

namespace Storage

variable {s t : Storage} {path word : String} {place : Place} {file folder ws : List String}
  {old bytes : ByteArray}

/-! ## The walk to a file -/

/-- The word is the name of something: no word that stays in place or goes up, and not too long. -/
structure Names (word : String) : Prop where
  ne_empty : word ≠ ""
  ne_dot : word ≠ "."
  ne_dots : word ≠ ".."
  short : word.utf8ByteSize < nameLimit

theorem enter_of_names (h : Names word) (folder : List String) :
    s.enter (.folder folder) word = s.lookup (folder ++ [word]) := by
  rw [enter, if_neg (not_or.mpr ⟨h.ne_empty, h.ne_dot⟩), if_neg h.ne_dots,
    if_neg (Nat.not_le.mpr h.short)]

theorem eq_of_lookup {p : List String} (h : s.lookup p = .ok (.file file)) : p = file := by
  unfold lookup at h
  split at h
  · cases h
    rfl
  · split at h <;> cases h

/-- Only a name leads to a file, and it does from a folder. -/
theorem enter_eq_file (h : s.enter place word = .ok (.file file)) :
    ∃ folder, place = .folder folder ∧ Names word ∧ folder ++ [word] = file := by
  cases place with
  | file => cases h
  | outside =>
      simp only [enter] at h
      split at h
      · cases h
      · split at h <;> cases h
  | folder folder =>
      simp only [enter] at h
      split at h
      · cases h
      · next hstay =>
          split at h
          · split at h <;> cases h
          · next hup =>
              split at h
              · cases h
              · next hshort =>
                  rw [not_or] at hstay
                  exact ⟨folder, rfl, ⟨hstay.1, hstay.2, hup, Nat.not_le.mp hshort⟩,
                    eq_of_lookup h⟩

/-- The walk along the path comes to a folder, and the last word of the path names `file` there. -/
structure Leads (s : Storage) (path : String) (file : List String) : Prop where
  checked : checkPath path = .ok ()
  walk : ∃ front word folder, words path = front ++ [word] ∧ Names word ∧
    front.foldlM s.enter (origin path) = .ok (.folder folder) ∧ folder ++ [word] = file

theorem Leads.find (h : s.Leads path file) : s.find path = s.lookup file := by
  obtain ⟨front, word, folder, hwords, hword, hfront, rfl⟩ := h.walk
  rw [Storage.find, h.checked, hwords, List.foldlM_append, hfront]
  show [word].foldlM s.enter (.folder folder) = _
  rw [List.foldlM_cons, enter_of_names hword]
  exact bind_pure _

theorem leads_of_find (h : s.find path = .ok (.file file)) : s.Leads path file := by
  unfold Storage.find at h
  rw [bind_eq_ok_iff] at h
  obtain ⟨⟨⟩, hcheck, hwalk⟩ := h
  refine ⟨hcheck, ?_⟩
  rcases List.eq_nil_or_concat (words path) with hnil | ⟨front, word, hwords⟩
  · rw [hnil, origin] at hwalk
    split at hwalk <;> cases hwalk
  · rw [List.concat_eq_append] at hwords
    rw [hwords, List.foldlM_append, bind_eq_ok_iff] at hwalk
    obtain ⟨last, hfront, hlast⟩ := hwalk
    replace hlast : s.enter last word = .ok (.file file) := by simpa using hlast
    obtain ⟨folder, rfl, hword, hfile⟩ := enter_eq_file hlast
    exact ⟨front, word, folder, hwords, hword, hfront, hfile⟩

/-- What is found in `s` is found in `t`. -/
def Extends (s t : Storage) : Prop := ∀ p q, s.lookup p = .ok q → t.lookup p = .ok q

theorem Extends.enter {next : Place} (h : Extends s t) (hs : s.enter place word = .ok next) :
    t.enter place word = .ok next := by
  cases place with
  | file | outside => exact hs
  | folder folder =>
      simp only [Storage.enter] at hs ⊢
      split at hs
      · next hstay => rwa [if_pos hstay]
      · next hstay =>
          rw [if_neg hstay]
          split at hs
          · next hup => rwa [if_pos hup]
          · next hup =>
              rw [if_neg hup]
              split at hs
              · cases hs
              · next hshort => rw [if_neg hshort, h _ _ hs]

theorem Extends.walk {next : Place} (h : Extends s t) (hs : ws.foldlM s.enter place = .ok next) :
    ws.foldlM t.enter place = .ok next := by
  induction ws generalizing place with
  | nil => exact hs
  | cons word rest ih =>
      rw [List.foldlM_cons, bind_eq_ok_iff] at hs ⊢
      obtain ⟨p, hp, hrest⟩ := hs
      exact ⟨p, h.enter hp, ih hrest⟩

theorem Leads.of_extends (hleads : s.Leads path file) (h : Extends s t) : t.Leads path file := by
  obtain ⟨front, word, folder, hwords, hword, hfront, hfile⟩ := hleads.walk
  exact ⟨hleads.checked, front, word, folder, hwords, hword, h.walk hfront, hfile⟩

/-! ## Making nothing on the way -/

theorem foldlM_enter_file_ne (hs : ws.foldlM s.enter place = .ok (.folder folder)) :
    place ≠ .file file := by
  rintro rfl
  cases ws <;> cases hs

/-- The walk that makes missing folders makes none where all are there. -/
theorem foldlM_openFolder (h : ws.foldlM s.enter place = .ok (.folder folder)) :
    (ws.filter fun word => word ≠ "" ∧ word ≠ ".").foldlM
      (fun (s, place) word => openFolder s place word) (s, place) = .ok (s, .folder folder) := by
  induction ws generalizing place with
  | nil =>
      cases h
      rfl
  | cons word rest ih =>
      have hplace : ∀ file, place ≠ .file file := fun _ => foldlM_enter_file_ne h
      rw [List.foldlM_cons, bind_eq_ok_iff] at h
      obtain ⟨next, hnext, hrest⟩ := h
      by_cases hstay : word = "" ∨ word = "."
      · -- The walk that makes folders leaves such a word out, and the other one stays in place.
        have hsame : next = place := by
          cases place with
          | file file => exact absurd rfl (hplace file)
          | folder | outside =>
              rcases hstay with rfl | rfl <;> exact (Except.ok.inj hnext).symm
        rw [List.filter_cons_of_neg (by simpa [← not_or] using hstay)]
        exact ih (hsame ▸ hrest)
      · have hopen : s.openFolder place word = .ok (s, next) := by
          unfold openFolder
          rw [hnext]
          cases next with
          | file file => exact absurd rfl (foldlM_enter_file_ne hrest)
          | folder | outside => rfl
        rw [List.filter_cons_of_pos (by simpa [← not_or] using hstay), List.foldlM_cons]
        show (s.openFolder place word >>= _) = _
        rw [hopen]
        exact ih hrest

theorem Leads.append_eq (h : s.Leads path file) (ht : s.appendAt file bytes = .ok t) :
    s.append path bytes = t := by
  obtain ⟨front, word, folder, hwords, hword, hfront, rfl⟩ := h.walk
  have hmake : s.makeFolders path = .ok s := by
    have hkept : [word].filter (fun word => word ≠ "" ∧ word ≠ ".") = [word] := by
      simp [hword.ne_empty, hword.ne_dot]
    rw [makeFolders, hwords, List.filter_append, hkept, List.dropLast_concat,
      foldlM_openFolder hfront]
    rfl
  have hname : ¬(word = "" ∨ word = "." ∨ word = "..") := by
    simp [hword.ne_empty, hword.ne_dot, hword.ne_dots]
  have hsize : ¬nameLimit ≤ word.utf8ByteSize := Nat.not_le.mpr hword.short
  unfold append
  extract_lets name result
  have hlast : name = word := by simp [name, hwords]
  have hresult : result = .ok t := by
    refine bind_eq_ok_iff.mpr ⟨(), h.checked, bind_eq_ok_iff.mpr ⟨s, hmake, ?_⟩⟩
    rw [hwords, List.dropLast_concat, hlast]
    simp only [if_neg hname, if_neg hsize]
    exact bind_eq_ok_iff.mpr ⟨.folder folder, hfront, ht⟩
  rw [hresult]

/-! ## Receiving -/

/-- The path leads to a file that holds `old`, or, if `old` is empty, to one that is yet to be made.
-/
inductive Receives (s : Storage) (path : String) : ByteArray → Prop
  | file {old : ByteArray} : s.read path = .ok old → Receives s path old
  | new {file : List String} : s.Leads path file → s.lookup file = .error .missing →
      Receives s path .empty

/-- What is read is in the list of files. -/
theorem read_eq_ok_iff : s.read path = .ok old ↔
    ∃ file, s.find path = .ok (.file file) ∧ s.files.find? (·.1 = file) = some (file, old) := by
  unfold read
  rw [bind_eq_ok_iff]
  constructor
  · rintro ⟨place, hfind, h⟩
    cases place with
    | folder | outside => cases h
    | file file =>
        refine ⟨file, hfind, ?_⟩
        cases hentry : s.files.find? (·.1 = file) with
        | none => simp only [hentry] at h; cases h
        | some entry =>
            simp only [hentry] at h
            have hkey : entry.1 = file := by simpa using List.find?_some hentry
            cases h
            rw [← hkey]
  · rintro ⟨file, hfind, hentry⟩
    refine ⟨.file file, hfind, ?_⟩
    simp only [hentry]
    rfl

theorem Leads.read (h : s.Leads path file) (hfile : s.lookup file = .ok (.file file))
    (hentry : s.files.find? (·.1 = file) = some (file, old)) : s.read path = .ok old :=
  read_eq_ok_iff.mpr ⟨file, h.find.trans hfile, hentry⟩

/-- The storage in which the file at a place is longer by some bytes. -/
def grow (s : Storage) (file : List String) (bytes : ByteArray) : Storage :=
  { s with files := s.files.map fun f => if f.1 = file then (f.1, f.2 ++ bytes) else f }

theorem lookup_grow (s : Storage) (file : List String) (bytes : ByteArray) (p : List String) :
    (s.grow file bytes).lookup p = s.lookup p := by
  have hany : (s.grow file bytes).files.any (·.1 = p) = s.files.any (·.1 = p) := by
    rw [grow, List.any_map]
    congr 1
    funext f
    show decide ((if f.1 = file then (f.1, f.2 ++ bytes) else f).1 = p) = decide (f.1 = p)
    split <;> rfl
  rw [lookup, hany]
  rfl

theorem find?_grow (h : s.files.find? (·.1 = file) = some (file, old)) :
    (s.grow file bytes).files.find? (·.1 = file) = some (file, old ++ bytes) := by
  have hkey : (fun f : List String × ByteArray => decide (f.1 = file))
      ∘ (fun f => if f.1 = file then (f.1, f.2 ++ bytes) else f)
        = fun f => decide (f.1 = file) := by
    funext f
    show decide ((if f.1 = file then (f.1, f.2 ++ bytes) else f).1 = file) = decide (f.1 = file)
    split <;> rfl
  rw [grow, List.find?_map, hkey, h, Option.map_some, if_pos rfl]

/-- The storage with one more file. -/
def create (s : Storage) (file : List String) (bytes : ByteArray) : Storage :=
  { s with files := s.files ++ [(file, bytes)] }

theorem not_any_of_missing (h : s.lookup file = .error .missing) :
    s.files.any (·.1 = file) = false ∧ s.folders.contains file = false := by
  unfold lookup at h
  split at h
  · cases h
  · next hfile =>
      split at h
      · cases h
      · next hfolder => exact ⟨Bool.not_eq_true _ ▸ hfile, Bool.not_eq_true _ ▸ hfolder⟩

theorem lookup_create_self (s : Storage) (file : List String) (bytes : ByteArray) :
    (s.create file bytes).lookup file = .ok (.file file) := by
  rw [lookup, if_pos]
  simp [create]

theorem extends_create (h : s.lookup file = .error .missing) : Extends s (s.create file bytes) := by
  intro p q hp
  by_cases hsame : p = file
  · rw [hsame, h] at hp
    cases hp
  · have hany : (s.create file bytes).files.any (·.1 = p) = s.files.any (·.1 = p) := by
      simp [create, Ne.symm hsame]
    rw [lookup, hany]
    exact hp

theorem find?_create (h : s.lookup file = .error .missing) :
    (s.create file bytes).files.find? (·.1 = file) = some (file, bytes) := by
  have hnone : s.files.find? (·.1 = file) = none := by
    rw [List.find?_eq_none]
    simpa using (not_any_of_missing h).1
  rw [create, List.find?_append, hnone, Option.none_or]
  simp

/-- What is read is what the path receives the rest behind. -/
theorem Receives.eq_of_read (h : s.Receives path old) (hread : s.read path = .ok bytes) :
    bytes = old := by
  cases h with
  | file hold => exact Except.ok.inj (hread.symm.trans hold)
  | new hleads hmissing =>
      obtain ⟨file, hfind, -⟩ := read_eq_ok_iff.mp hread
      rw [hleads.find, hmissing] at hfind
      cases hfind

/-- What is added arrives at the end of the file. -/
theorem Receives.append (h : s.Receives path old) (bytes : ByteArray) :
    (s.append path bytes).read path = .ok (old ++ bytes) := by
  cases h with
  | file hread =>
      obtain ⟨file, hfind, hentry⟩ := read_eq_ok_iff.mp hread
      have hleads := leads_of_find hfind
      have hfile := hleads.find.symm.trans hfind
      have happend : s.append path bytes = s.grow file bytes :=
        hleads.append_eq (by rw [appendAt, hfile]; rfl)
      have hextends : Extends s (s.grow file bytes) := fun p q hp => (lookup_grow ..).trans hp
      rw [happend]
      exact (hleads.of_extends hextends).read (hextends _ _ hfile) (find?_grow hentry)
  | @new file hleads hmissing =>
      have happend : s.append path bytes = s.create file bytes :=
        hleads.append_eq (by rw [appendAt, hmissing]; rfl)
      rw [happend, ByteArray.empty_append]
      exact (hleads.of_extends (extends_create hmissing)).read (lookup_create_self ..)
        (find?_create hmissing)

/-- Texts that are added one after the other stand in the file in this order. -/
theorem Receives.foldl_append (h : s.Receives path old) {texts : List String} (hne : texts ≠ []) :
    (texts.foldl (fun s text => s.append path text.toUTF8) s).read path
      = .ok (old ++ (String.join texts).toUTF8) := by
  induction texts generalizing s old with
  | nil => exact absurd rfl hne
  | cons text rest ih =>
      have hfirst := h.append text.toUTF8
      cases rest with
      | nil => simpa using hfirst
      | cons next rest =>
          rw [List.foldl_cons, ih (.file hfirst) (List.cons_ne_nil next rest)]
          simp only [String.toUTF8, String.join_cons, String.toByteArray_append,
            ByteArray.append_assoc]

end Storage

end TilePuzzle
