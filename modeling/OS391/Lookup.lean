/-
# Names of directory entries

The name of a directory entry is what stands in its 32 bytes before the first NUL, or all of
them (`Dentry.name`).  `read_dentry_by_name` finds the first entry that has the name it is
given (`readDentryByName_eq`): its bounded comparison takes neither a beginning of a name for
the name, nor a longer one.
-/

import OS391.FileSys
import Mathlib.Data.List.GetD
import Mathlib.Tactic.Common

namespace OS391

open Lib

/-! ### The bounded comparison -/

section Strncmp

variable {s t : ℕ → UInt8} {n i : ℕ}

theorem strnlen_le (s : ℕ → UInt8) (n : ℕ) : strnlen s n ≤ n := by
  induction n generalizing s with
  | zero => exact Nat.le_refl _
  | succ n ih =>
    rw [strnlen]
    split_ifs
    · exact Nat.zero_le _
    · exact Nat.succ_le_succ (ih _)

/-- No byte before the end is a NUL. -/
theorem ne_zero_of_lt_strnlen (h : i < strnlen s n) : s i ≠ 0 := by
  induction n generalizing s i with
  | zero => exact absurd h (Nat.not_lt_zero i)
  | succ n ih =>
    rw [strnlen] at h
    split_ifs at h with hzero
    · exact absurd h (Nat.not_lt_zero i)
    · cases i with
      | zero => exact hzero
      | succ i => exact ih (s := fun i => s (i + 1)) (Nat.lt_of_succ_lt_succ h)

theorem int8_inj {a b : UInt8} (h : int8 a = int8 b) : a = b := by
  have ha := a.toNat_lt
  have hb := b.toNat_lt
  refine UInt8.toNat_inj.1 ?_
  simp only [int8] at h
  split_ifs at h <;> omega

/-- **`strncmp` is zero** when the strings end at the same place and agree up to there. -/
theorem strncmp_eq_zero_iff :
    strncmp s t n = 0 ↔ strnlen s n = strnlen t n ∧ ∀ i < strnlen s n, s i = t i := by
  induction n generalizing s t with
  | zero => exact ⟨fun _ => ⟨rfl, fun i hi => absurd hi (Nat.not_lt_zero i)⟩, fun _ => rfl⟩
  | succ n ih =>
    rw [strncmp]
    by_cases hne : s 0 = t 0
    · by_cases hzero : s 0 = 0
      · rw [if_pos (Or.inr hzero), hne, Int.sub_self, strnlen, strnlen, if_pos hzero,
          if_pos (hne ▸ hzero)]
        exact ⟨fun _ => ⟨rfl, fun i hi => absurd hi (Nat.not_lt_zero i)⟩, fun _ => rfl⟩
      · rw [if_neg (by simp [hne, hne ▸ hzero]), ih, strnlen, strnlen, if_neg hzero,
          if_neg (hne ▸ hzero)]
        constructor
        · rintro ⟨hlen, hsame⟩
          refine ⟨congrArg (· + 1) hlen, fun i hi => ?_⟩
          cases i with
          | zero => exact hne
          | succ i => exact hsame i (Nat.lt_of_succ_lt_succ hi)
        · rintro ⟨hlen, hsame⟩
          exact ⟨Nat.succ_inj.1 hlen, fun i hi => hsame (i + 1) (Nat.succ_lt_succ hi)⟩
    · rw [if_pos (Or.inl hne)]
      constructor
      · intro h
        exact absurd (int8_inj (Int.sub_eq_zero.1 h)) hne
      · rintro ⟨hlen, hsame⟩
        rw [strnlen, strnlen] at hlen
        rw [strnlen] at hsame
        split_ifs at hlen hsame with hs ht
        · exact absurd (hs.trans ht.symm) hne
        · exact absurd (hsame 0 (Nat.succ_pos _)) hne

/-- `strncpy` copies up to the end, and NULs from there on. -/
theorem strncpy_apply (h : i < n) :
    strncpy s t n i = if i < strnlen t n then t i else 0 := by
  have hle := strnlen_le t n
  rw [strncpy]
  split_ifs with hi
  · rw [copyLoop_outside (Or.inl hi), copyLoop_start hi]
  · rw [copyLoop_inside (by omega) (by omega)]

theorem strnlen_strncpy : strnlen (strncpy s t n) n = strnlen t n := by
  have hle := strnlen_le t n
  refine strnlen_eq hle (fun i hi => ?_) fun hlt => ?_
  · rw [strncpy_apply (by omega), if_pos hi]
    exact ne_zero_of_lt_strnlen hi
  · rw [strncpy_apply hlt, if_neg (Nat.lt_irrefl _)]

theorem CString.strnlen_get {name : CString} (h : name.strlen ≤ n) :
    strnlen name.get n = name.strlen := by
  refine strnlen_eq h (fun i hi hzero => ?_) fun _ => ?_
  · rw [CString.get, List.getD_eq_getElem _ _ hi] at hzero
    exact name.noNul (hzero ▸ List.getElem_mem hi)
  · exact List.getD_eq_default _ _ (Nat.le_refl _)

end Strncmp

/-! ### The lookup -/

/-- The name of an entry. -/
def Dentry.name (d : Dentry) : List UInt8 :=
  (List.range (strnlen d.filename dentryFileNameLen)).map d.filename

/-- What the kernel copies of an entry: its name is padded with NULs. -/
def Dentry.padded (d : Dentry) : Dentry :=
  { d with filename := strncpy (fun _ => 0) d.filename dentryFileNameLen }

/-- The first entry with a name. -/
def FileSys.lookup (fs : FileSys) (name : CString) : Option Dentry :=
  ((List.range fs.dirCount).map fs.direntries).find? fun d => d.name = name.bytes

variable {fs : FileSys} {name : CString} {d : Dentry}

theorem Dentry.length_name_le (d : Dentry) : d.name.length ≤ dentryFileNameLen := by
  rw [Dentry.name, List.length_map, List.length_range]
  exact strnlen_le _ _

/-- **The comparison is exact:** it tells whether the entry has the name. -/
theorem strncmp_name (h : name.strlen ≤ dentryFileNameLen) :
    strncmp (strncpy (fun _ => 0) d.filename dentryFileNameLen) name.get dentryFileNameLen = 0
      ↔ d.name = name.bytes := by
  have hle := strnlen_le d.filename dentryFileNameLen
  rw [strncmp_eq_zero_iff, strnlen_strncpy, CString.strnlen_get h]
  constructor
  · rintro ⟨hlen, hsame⟩
    refine List.ext_getElem (by simpa [Dentry.name, CString.strlen] using hlen) fun i hi hi' => ?_
    have hlt : i < strnlen d.filename dentryFileNameLen := by simpa [Dentry.name] using hi
    have hi := hsame i hlt
    rw [strncpy_apply (by omega), if_pos hlt, CString.get, List.getD_eq_getElem _ _ hi'] at hi
    simpa [Dentry.name] using hi
  · intro heq
    have hlen : strnlen d.filename dentryFileNameLen = name.strlen := by
      simpa [Dentry.name, CString.strlen] using congrArg List.length heq
    refine ⟨hlen, fun i hi => ?_⟩
    rw [strncpy_apply (by omega), if_pos hi, CString.get, ← heq, List.getD_eq_getElem _ _
      (by simpa [Dentry.name] using hi)]
    simp [Dentry.name]

theorem searchDentries_eq (h : name.strlen ≤ dentryFileNameLen) {k i : ℕ}
    (hk : i + k ≤ fs.dirCount) :
    searchDentries fs name k i
      = (((List.range' i k).map fs.direntries).find? fun d => d.name = name.bytes).map
          Dentry.padded := by
  induction k generalizing i with
  | zero => rfl
  | succ k ih =>
    rw [searchDentries, List.range'_succ, List.map_cons]
    by_cases hname : (fs.direntries i).name = name.bytes
    · rw [if_pos ((strncmp_name h).2 hname), List.find?_cons_of_pos (by simpa using hname),
        readDentryByIndex, if_neg (by omega)]
      rfl
    · rw [if_neg fun hcmp => hname ((strncmp_name h).1 hcmp),
        List.find?_cons_of_neg (by simpa using hname), ih (by omega)]

/-- **`read_dentry_by_name`** finds the first entry with the name. -/
theorem readDentryByName_eq (fs : FileSys) (name : CString) :
    readDentryByName fs name = (fs.lookup name).map Dentry.padded := by
  unfold readDentryByName FileSys.lookup
  split_ifs with hlong
  · have hnone : ((List.range fs.dirCount).map fs.direntries).find?
        (fun d => decide (d.name = name.bytes)) = none := by
      refine List.find?_eq_none.2 fun d _ hname => ?_
      have hlen := d.length_name_le
      rw [of_decide_eq_true hname] at hlen
      exact absurd hlen (Nat.not_le_of_lt hlong)
    rw [hnone]
    rfl
  · rw [searchDentries_eq (by omega) (by omega), List.range_eq_range']

/-- An entry that a lookup finds is one of the image's. -/
theorem FileSys.exists_of_lookup (h : fs.lookup name = some d) :
    ∃ i < fs.dirCount, fs.direntries i = d ∧ d.name = name.bytes := by
  obtain ⟨i, hi, rfl⟩ := List.mem_map.1 (List.mem_of_find?_eq_some h)
  exact ⟨i, List.mem_range.1 hi, rfl, by simpa using List.find?_some h⟩

end OS391
