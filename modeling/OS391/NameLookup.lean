/-
# What `read_dentry_by_name` leaves in the dentry of its caller

`readDentryByName` returns the dentry it fills in; the functions of `filesys.c` fill in one
of their caller's and return `0` or `-1`.  Here they are with that dentry, and with the
local `str1`, which holds anything at first and the padded name of an entry after each turn.

The two versions agree (`readDentryByNameInto_eq`), and the lookup is exact
(`readDentryByName_exact`): the lowest-numbered entry with just this name is filled in, or
nothing is.
-/

import OS391.Lookup

namespace OS391

open Lib

/-- The three fields of an entry that are copied into a dentry. -/
def Dentry.fill (dentry entry : Dentry) : Dentry where
  filename := strncpy dentry.filename entry.filename dentryFileNameLen
  fileType := entry.fileType
  inodeNum := entry.inodeNum

section Into

variable (fs : FileSys)

/-- `read_dentry_by_index`, with the dentry of the caller. -/
def readDentryByIndexInto (index : ℕ) (dentry : Dentry) : ℤ × Dentry :=
  if fs.dirCount ≤ index then (u32 (-1), dentry) else (0, dentry.fill (fs.direntries index))

/-- The loop of `read_dentry_by_name` from entry `i` on, with `k` entries left. -/
def searchDentriesInto (fname : CString) : ℕ → ℕ → (ℕ → UInt8) → Dentry → ℤ × Dentry
  | 0, _, _, dentry => (u32 (-1), dentry)
  | k + 1, i, str1, dentry =>
    let str1 := strncpy str1 (fs.direntries i).filename dentryFileNameLen
    if strncmp str1 fname.get dentryFileNameLen = 0 then readDentryByIndexInto fs i dentry
    else searchDentriesInto fname k (i + 1) str1 dentry

/-- `read_dentry_by_name`, with the dentry of the caller and what `str1` holds at first. -/
def readDentryByNameInto (fname : CString) (str1 : ℕ → UInt8) (dentry : Dentry) : ℤ × Dentry :=
  if dentryFileNameLen < fname.strlen then (u32 (-1), dentry)
  else searchDentriesInto fs fname fs.dirCount 0 str1 dentry

end Into

variable {fs : FileSys} {fname : CString} {str1 : ℕ → UInt8} {dentry d : Dentry}

/-- What a bounded comparison says of a bounded copy does not depend on where it was copied
to. -/
theorem strncmp_strncpy_congr (dest dest' src s : ℕ → UInt8) (n : ℕ) :
    strncmp (strncpy dest src n) s n = 0 ↔ strncmp (strncpy dest' src n) s n = 0 := by
  have hle := strnlen_le src n
  rw [strncmp_eq_zero_iff, strncmp_eq_zero_iff, strnlen_strncpy, strnlen_strncpy]
  refine and_congr_right fun _ => forall₂_congr fun i hi => ?_
  rw [strncpy_apply (by omega), strncpy_apply (by omega)]

/-- A name copied from a padded copy is the name copied. -/
theorem Dentry.fill_padded (dentry d : Dentry) : dentry.fill d.padded = dentry.fill d := by
  have hname : strncpy dentry.filename (strncpy (fun _ => 0) d.filename dentryFileNameLen)
      dentryFileNameLen = strncpy dentry.filename d.filename dentryFileNameLen := by
    funext i
    rcases Nat.lt_or_ge i dentryFileNameLen with hi | hi
    · rw [strncpy_apply hi, strncpy_apply hi, strnlen_strncpy]
      split_ifs with hlt
      · rw [strncpy_apply hi, if_pos hlt]
      · rw [strncpy_apply hi, if_neg hlt]
    · have hout (src : ℕ → UInt8) :
          strncpy dentry.filename src dentryFileNameLen i = dentry.filename i := by
        have hle := strnlen_le src dentryFileNameLen
        rw [strncpy, copyLoop_outside (by omega), copyLoop_outside (by omega)]
      rw [hout, hout]
  rw [Dentry.fill, Dentry.padded, hname]
  rfl

theorem searchDentriesInto_eq {k i : ℕ} (hk : i + k ≤ fs.dirCount) :
    searchDentriesInto fs fname k i str1 dentry
      = (searchDentries fs fname k i).elim (u32 (-1), dentry) fun d => (0, dentry.fill d) := by
  induction k generalizing i str1 with
  | zero => rfl
  | succ k ih =>
    have hcmp := strncmp_strncpy_congr str1 (fun _ => 0) (fs.direntries i).filename fname.get
      dentryFileNameLen
    rw [searchDentriesInto, searchDentries]
    split_ifs with h₁ h₂ h₂
    · rw [readDentryByIndexInto, readDentryByIndex, if_neg (by omega), if_neg (by omega)]
      exact Prod.ext rfl (Dentry.fill_padded dentry _).symm
    · exact absurd (hcmp.1 h₁) h₂
    · exact absurd (hcmp.2 h₂) h₁
    · exact ih (by omega)

/-- **The two versions of `read_dentry_by_name` agree.** -/
theorem readDentryByNameInto_eq :
    readDentryByNameInto fs fname str1 dentry
      = (readDentryByName fs fname).elim (u32 (-1), dentry) fun d => (0, dentry.fill d) := by
  unfold readDentryByNameInto readDentryByName
  split_ifs with h
  · rfl
  · exact searchDentriesInto_eq (by omega)

/-- Entry `i` is the lowest-numbered one with the name. -/
structure FileSys.LowestNamed (fs : FileSys) (fname : CString) (i : ℕ) : Prop where
  lt : i < fs.dirCount
  name : (fs.direntries i).name = fname.bytes
  lowest : ∀ j < i, (fs.direntries j).name ≠ fname.bytes

theorem FileSys.LowestNamed.lookup {i : ℕ} (h : fs.LowestNamed fname i) :
    fs.lookup fname = some (fs.direntries i) := by
  rw [FileSys.lookup, List.find?_eq_some_iff_getElem]
  refine ⟨by simpa using h.name, i, by simpa using h.lt, by simp, fun j hj => ?_⟩
  simpa using h.lowest j hj

theorem FileSys.lookup_eq_none (h : ∀ i < fs.dirCount, (fs.direntries i).name ≠ fname.bytes) :
    fs.lookup fname = none := by
  rw [FileSys.lookup, List.find?_eq_none]
  simpa using h

/-- A filled-in dentry has the type and the inode number of the entry, and its name padded with
NULs. -/
structure Dentry.Shows (r entry : Dentry) : Prop where
  fileType : r.fileType = entry.fileType
  inodeNum : r.inodeNum = entry.inodeNum
  filename : ∀ k < dentryFileNameLen, r.filename k = entry.name.getD k 0

theorem Dentry.fill_shows (dentry entry : Dentry) : (dentry.fill entry).Shows entry := by
  refine ⟨rfl, rfl, fun k hk => ?_⟩
  dsimp only [Dentry.fill]
  rw [strncpy_apply hk, Dentry.name]
  split_ifs with hlt
  · simp [hlt]
  · rw [List.getD_eq_default _ _ (by simpa using hlt)]

/-- Two entries that show the same are named the same. -/
theorem Dentry.Shows.name {r entry : Dentry} (h : r.Shows entry) : r.name = entry.name := by
  have hle := strnlen_le entry.filename dentryFileNameLen
  have hlen : entry.name.length = strnlen entry.filename dentryFileNameLen := by
    simp [Dentry.name]
  have hbyte {k : ℕ} (hk : k < strnlen entry.filename dentryFileNameLen) :
      r.filename k = entry.filename k := by
    rw [h.filename k (by omega), List.getD_eq_getElem _ _ (by omega)]
    simp [Dentry.name]
  have hstr : strnlen r.filename dentryFileNameLen = strnlen entry.filename dentryFileNameLen := by
    refine strnlen_eq hle (fun k hk => ?_) fun hlt => ?_
    · rw [hbyte hk]
      exact ne_zero_of_lt_strnlen hk
    · rw [h.filename _ hlt, List.getD_eq_default _ _ (by omega)]
  rw [Dentry.name, Dentry.name, hstr]
  exact List.map_congr_left fun k hk => hbyte (List.mem_range.1 hk)

/-- **Name lookup is exact.**  If an entry has the name `fname`, the lowest-numbered such entry
is filled in and `0` returned; otherwise, and so for a name of more than 32 bytes, `-1` is
returned and the dentry left alone.  What is filled in is named `fname`, so neither a proper
prefix nor an extension of an entry's name finds it. -/
theorem readDentryByName_exact (fs : FileSys) (fname : CString) (str1 : ℕ → UInt8)
    (dentry : Dentry) :
    (∀ i, fname.strlen ≤ dentryFileNameLen → fs.LowestNamed fname i →
      (readDentryByNameInto fs fname str1 dentry).1 = 0 ∧
        (readDentryByNameInto fs fname str1 dentry).2.Shows (fs.direntries i)) ∧
    (¬ (fname.strlen ≤ dentryFileNameLen ∧
        ∃ i < fs.dirCount, (fs.direntries i).name = fname.bytes) →
      readDentryByNameInto fs fname str1 dentry = (u32 (-1), dentry)) ∧
    ((readDentryByNameInto fs fname str1 dentry).1 = 0 →
      (readDentryByNameInto fs fname str1 dentry).2.name = fname.bytes) := by
  rw [readDentryByNameInto_eq, readDentryByName_eq]
  refine ⟨fun i _ hi => ?_, fun hnone => ?_, fun hret => ?_⟩
  · rw [hi.lookup, Option.map_some, Option.elim_some, Dentry.fill_padded]
    exact ⟨rfl, Dentry.fill_shows _ _⟩
  · rw [FileSys.lookup_eq_none, Option.map_none, Option.elim_none]
    intro i hi hname
    refine hnone ⟨?_, i, hi, hname⟩
    have hlen := (fs.direntries i).length_name_le
    rwa [hname] at hlen
  · cases hfound : fs.lookup fname with
    | none =>
      rw [hfound] at hret
      exact absurd (show u32 (-1) = 0 from hret) (by decide)
    | some d =>
      obtain ⟨i, -, -, hname⟩ := FileSys.exists_of_lookup hfound
      rw [Option.map_some, Option.elim_some, Dentry.fill_padded, (Dentry.fill_shows _ d).name,
          hname]

end OS391
