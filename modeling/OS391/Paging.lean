/-
# Page directory entries

The unions of `paging.h`, and the functions of `system_call.c` and `scheduling.c`
that write page directory and page table entries: `paging_execute`,
`disable_child_page`, and the video mapping that `vidmap` and `scheduler` share; and
`init_paging`, which sets the tables up.

A packed union is the fields of its bit-field, most significant first, put side by
side; a number stored in a field loses the bits the field has no room for.
`flush_tlb` reloads `cr3`; the directory is what the processor reads here, so it does
nothing.
-/

import OS391.Kernel

namespace OS391

open Lib

/-- `pd_entry_page`: a directory entry that points to a 4 MB page. -/
structure PdEntryPage where
  present : BitVec 1
  rW : BitVec 1
  uS : BitVec 1
  pwt : BitVec 1
  pcd : BitVec 1
  accessed : BitVec 1
  dirty : BitVec 1
  pageSize : BitVec 1
  global : BitVec 1
  avl : BitVec 3
  pat : BitVec 1
  reserved : BitVec 9
  pageBase : BitVec 10

/-- `pd_entry_pt`: a directory entry that points to a page table. -/
structure PdEntryPt where
  present : BitVec 1
  rW : BitVec 1
  uS : BitVec 1
  pwt : BitVec 1
  pcd : BitVec 1
  accessed : BitVec 1
  ignored : BitVec 1
  pageSize : BitVec 1
  global : BitVec 1
  avl : BitVec 3
  pageBase : BitVec 20

/-- `pt_entry_page`: a page table entry. -/
structure PtEntryPage where
  present : BitVec 1
  rW : BitVec 1
  uS : BitVec 1
  pwt : BitVec 1
  pcd : BitVec 1
  accessed : BitVec 1
  dirty : BitVec 1
  pat : BitVec 1
  global : BitVec 1
  avl : BitVec 3
  pageBase : BitVec 20

/-- The word of the union. -/
def PdEntryPage.val (e : PdEntryPage) : BitVec 32 :=
  (e.pageBase ++ e.reserved ++ e.pat ++ e.avl ++ e.global ++ e.pageSize ++ e.dirty ++ e.accessed ++
    e.pcd ++ e.pwt ++ e.uS ++ e.rW ++ e.present).cast rfl

/-- The word of the union. -/
def PdEntryPt.val (e : PdEntryPt) : BitVec 32 :=
  (e.pageBase ++ e.avl ++ e.global ++ e.pageSize ++ e.ignored ++ e.accessed ++ e.pcd ++ e.pwt ++
    e.uS ++ e.rW ++ e.present).cast rfl

/-- The word of the union. -/
def PtEntryPage.val (e : PtEntryPage) : BitVec 32 :=
  (e.pageBase ++ e.avl ++ e.global ++ e.pat ++ e.dirty ++ e.accessed ++ e.pcd ++ e.pwt ++ e.uS ++
    e.rW ++ e.present).cast rfl

/-! ### What the processor reads in a directory entry -/

/-- Bit 0: the entry is present. -/
def pdPresent (v : BitVec 32) : Bool := v.getLsbD 0

/-- Bit 2: user code may use the mapping. -/
def pdUser (v : BitVec 32) : Bool := v.getLsbD 2

/-- Bit 7: the entry maps a 4 MB page. -/
def pdLarge (v : BitVec 32) : Bool := v.getLsbD 7

/-- Bits 31 to 22: the physical 4 MB page. -/
def pdPageBase (v : BitVec 32) : BitVec 10 := v.extractLsb' 22 10

namespace PdEntryPage

variable (e : PdEntryPage)

theorem pdPresent_val : pdPresent e.val = e.present.getLsbD 0 := by
  simp only [pdPresent, val, BitVec.getLsbD_cast, BitVec.getLsbD_append]
  simp

theorem pdUser_val : pdUser e.val = e.uS.getLsbD 0 := by
  simp only [pdUser, val, BitVec.getLsbD_cast, BitVec.getLsbD_append]
  simp

theorem pdLarge_val : pdLarge e.val = e.pageSize.getLsbD 0 := by
  simp only [pdLarge, val, BitVec.getLsbD_cast, BitVec.getLsbD_append]
  simp

theorem pdPageBase_val : pdPageBase e.val = e.pageBase := by
  ext i hi
  simp only [pdPageBase, val, BitVec.getElem_extractLsb', BitVec.getLsbD_cast,
    BitVec.getLsbD_append]
  have hi' : 13 + i - 3 - 1 - 9 = i := by omega
  have h₁ : ¬ 13 + i < 3 := by omega
  have h₂ : ¬ 13 + i - 3 = 0 := by omega
  have h₃ : ¬ 13 + i - 3 - 1 < 9 := by omega
  simp [hi', hi, h₁, h₂, h₃]

end PdEntryPage

/-- Bits 31 to 12: the physical 4 KB page of a page table. -/
def pdTableBase (v : BitVec 32) : BitVec 20 := v.extractLsb' 12 20

namespace PdEntryPt

variable (e : PdEntryPt)

theorem pdPresent_val : pdPresent e.val = e.present.getLsbD 0 := by
  simp only [pdPresent, val, BitVec.getLsbD_cast, BitVec.getLsbD_append]
  simp

theorem pdUser_val : pdUser e.val = e.uS.getLsbD 0 := by
  simp only [pdUser, val, BitVec.getLsbD_cast, BitVec.getLsbD_append]
  simp

theorem pdLarge_val : pdLarge e.val = e.pageSize.getLsbD 0 := by
  simp only [pdLarge, val, BitVec.getLsbD_cast, BitVec.getLsbD_append]
  simp

theorem pdTableBase_val : pdTableBase e.val = e.pageBase := by
  ext i hi
  simp only [pdTableBase, val, BitVec.getElem_extractLsb', BitVec.getLsbD_cast,
    BitVec.getLsbD_append]
  have hi' : 3 + i - 3 = i := by omega
  have h₁ : ¬ 3 + i < 3 := by omega
  simp [hi', hi, h₁]

end PdEntryPt

/-! ### What the processor reads in a page table entry -/

/-- Bit 0: the page is present. -/
def ptPresent (v : BitVec 32) : Bool := v.getLsbD 0

/-- Bit 2: user code may use the page. -/
def ptUser (v : BitVec 32) : Bool := v.getLsbD 2

/-- Bits 31 to 12: the physical 4 KB page. -/
def ptPageBase (v : BitVec 32) : BitVec 20 := v.extractLsb' 12 20

namespace PtEntryPage

variable (e : PtEntryPage)

theorem ptPresent_val : ptPresent e.val = e.present.getLsbD 0 := by
  simp only [ptPresent, val, BitVec.getLsbD_cast, BitVec.getLsbD_append]
  simp

theorem ptUser_val : ptUser e.val = e.uS.getLsbD 0 := by
  simp only [ptUser, val, BitVec.getLsbD_cast, BitVec.getLsbD_append]
  simp

theorem ptPageBase_val : ptPageBase e.val = e.pageBase := by
  ext i hi
  simp only [ptPageBase, val, BitVec.getElem_extractLsb', BitVec.getLsbD_cast,
    BitVec.getLsbD_append]
  have hi' : 3 + i - 3 = i := by omega
  have h₁ : ¬ 3 + i < 3 := by omega
  simp [hi', hi, h₁]

end PtEntryPage

/-! ### The page of a process -/

/-- `phys_mem_val` of `paging_execute`: the physical page of a process. -/
def physMemVal (localProcessNum : ℤ) : ℤ := u32 (8 + localProcessNum * 4) / 4

/-- The entry `paging_execute` writes. -/
def userPage (localProcessNum : ℤ) : PdEntryPage :=
  { present := 1, rW := 1, uS := 1, pwt := 0, pcd := 1, accessed := 0, dirty := 0, pageSize := 1
    global := 0, avl := 0, pat := 0, reserved := 0
    pageBase := BitVec.ofInt 10 (physMemVal localProcessNum) }

/-- The entry `disable_child_page` writes. -/
def disabledPage (physMemVal : ℤ) : PdEntryPage :=
  { present := 0, rW := 0, uS := 0, pwt := 0, pcd := 0, accessed := 0, dirty := 0, pageSize := 0
    global := 0, avl := 0, pat := 0, reserved := 0
    pageBase := BitVec.ofInt 10 physMemVal }

/-- `ONE_TWENTLY_EIGHT_MB / FOUR_MEGABYTES` -/
def userPageIndex : ℕ := 128 / 4

namespace Kernel

/-- `paging_execute` -/
def pagingExecute (s : Kernel) (localProcessNum : ℤ) : Kernel :=
  { s with pageDir := Function.update s.pageDir userPageIndex (userPage localProcessNum).val }

/-- `disable_child_page`.  The index is the physical page of the process after the one
that halts. -/
def disableChildPage (s : Kernel) : Kernel :=
  let val := u32 (8 + (s.processNum + 1) * 4) / 4
  { s with pageDir := Function.update s.pageDir val.toNat (disabledPage val).val }

/-- The entry for 128 MB maps the physical 4 MB page `pid + 2` for user code. -/
structure MapsUserPage (s : Kernel) (pid : ℤ) : Prop where
  present : pdPresent (s.pageDir userPageIndex) = true
  user : pdUser (s.pageDir userPageIndex) = true
  large : pdLarge (s.pageDir userPageIndex) = true
  pageBase : ((pdPageBase (s.pageDir userPageIndex)).toNat : ℤ) = pid + 2

/-- What the directory maps at 128 MB is read off one entry. -/
theorem MapsUserPage.congr {s t : Kernel} {pid : ℤ} (h : s.MapsUserPage pid)
    (heq : t.pageDir userPageIndex = s.pageDir userPageIndex) : t.MapsUserPage pid := by
  constructor <;> rw [heq]
  exacts [h.present, h.user, h.large, h.pageBase]

/-- **`paging_execute` maps the page of its process.** -/
theorem mapsUserPage_pagingExecute (s : Kernel) {pid : ℤ} (h₀ : 0 ≤ pid) (h₁ : pid < 1022) :
    (s.pagingExecute pid).MapsUserPage pid := by
  have hdir : (s.pagingExecute pid).pageDir userPageIndex = (userPage pid).val := by
    simp [pagingExecute]
  have hval : physMemVal pid = pid + 2 := by
    rw [physMemVal, u32_of_bounds (by omega) (by omega)]
    omega
  refine ⟨?_, ?_, ?_, ?_⟩ <;> rw [hdir]
  · simp [PdEntryPage.pdPresent_val, userPage]
  · simp [PdEntryPage.pdUser_val, userPage]
  · simp [PdEntryPage.pdLarge_val, userPage]
  · rw [PdEntryPage.pdPageBase_val, userPage, hval, BitVec.toNat_ofInt]
    omega

/-- The directory entry `disable_child_page` clears is number `process_num + 3`. -/
theorem disableChildPage_pageDir (s : Kernel) (h₀ : 0 ≤ s.processNum) (h₁ : s.processNum < 1022)
    (k : ℕ) : s.disableChildPage.pageDir k
      = if (k : ℤ) = s.processNum + 3 then (disabledPage (s.processNum + 3)).val
        else s.pageDir k := by
  have hval : u32 (8 + (s.processNum + 1) * 4) / 4 = s.processNum + 3 := by
    rw [u32_of_bounds (by omega) (by omega)]
    omega
  simp only [disableChildPage, hval, Function.update_apply]
  by_cases h : (k : ℤ) = s.processNum + 3
  · rw [if_pos h, if_pos (by omega)]
  · rw [if_neg h, if_neg (by omega)]

theorem not_pdPresent_disabledPage (val : ℤ) : pdPresent (disabledPage val).val = false := by
  simp [PdEntryPage.pdPresent_val, disabledPage]

/-! ### The video mapping at 132 MB -/

/-- Entry `i` of `vidmap_page_table`: the first maps `frame` for user code, the others
are not present. -/
def vidmapEntry (frame i : ℕ) : PtEntryPage :=
  { present := if i = 0 then 1 else 0, rW := 1, uS := 1, pwt := 0, pcd := 0, accessed := 0
    dirty := 0, pat := 0, global := 0, avl := 0
    pageBase := BitVec.ofNat 20 (if i = 0 then frame else i) }

/-- The directory entry that points to `vidmap_page_table`. -/
def vidMemPt (s : Kernel) : PdEntryPt :=
  { present := 1, rW := 1, uS := 1, pwt := 0, pcd := 0, accessed := 0, ignored := 0, pageSize := 0
    global := 0, avl := 0, pageBase := BitVec.ofNat 20 (s.vidmapPageTableAddr / 4096) }

/-- The loop over `vidmap_page_table` and the entry `ONE_THIRTY_TWO_MB / FOUR_MB` of the
directory. -/
def mapVideo (s : Kernel) (frame : ℕ) : Kernel :=
  { s with
    vidmapPageTable := copyLoop s.vidmapPageTable 0 (fun i => (vidmapEntry frame i).val) 1024
    pageDir := Function.update s.pageDir 33 (vidMemPt s).val }

/-- What an entry of `vidmap_page_table` maps. -/
theorem ptPageBase_vidmapEntry {frame : ℕ} (h : frame < 1048576) :
    (ptPageBase (vidmapEntry frame 0).val).toNat = frame := by
  rw [PtEntryPage.ptPageBase_val, vidmapEntry]
  exact Nat.mod_eq_of_lt h

theorem ptPresent_vidmapEntry (frame i : ℕ) :
    ptPresent (vidmapEntry frame i).val = decide (i = 0) := by
  rw [PtEntryPage.ptPresent_val, vidmapEntry]
  split_ifs with h <;> simp [h]

theorem ptUser_vidmapEntry (frame i : ℕ) : ptUser (vidmapEntry frame i).val = true := by
  simp [PtEntryPage.ptUser_val, vidmapEntry]

theorem mapVideo_vidmapPageTable (s : Kernel) (frame : ℕ) {k : ℕ} (hk : k < 1024) :
    (s.mapVideo frame).vidmapPageTable k = (vidmapEntry frame k).val := by
  unfold mapVideo
  exact copyLoop_start hk

end Kernel

/-! ### The tables at the start -/

/-- What `init_paging` writes in every entry of the directory first. -/
def resetPageDirectoryEntry : PdEntryPage :=
  { present := 0, rW := 0, uS := 0, pwt := 0, pcd := 0, accessed := 0, dirty := 0, pageSize := 1
    global := 0, avl := 0, pat := 0, reserved := 0, pageBase := 0 }

/-- The entry that points to `first_page_table`. -/
def firstPdEntry (firstPageTableAddr : ℕ) : PdEntryPt :=
  { present := 1, rW := 1, uS := 0, pwt := 0, pcd := 0, accessed := 0, ignored := 0, pageSize := 0
    global := 0, avl := 0, pageBase := BitVec.ofNat 20 (firstPageTableAddr / 4096) }

/-- Entry `i` of `first_page_table`: the text pages are present. -/
def pageTableEntry (i : ℕ) : PtEntryPage :=
  { present :=
      if i = 0xB8000 / 4096 ∨ i = (0xB8000 + 4096) / 4096 ∨ i = (0xB8000 + 4096 * 2) / 4096 ∨
        i = (0xB8000 + 4096 * 3) / 4096 then 1 else 0
    rW := 1, uS := 0, pwt := 0, pcd := 0, accessed := 0, dirty := 0, pat := 0, global := 0, avl := 0
    pageBase := BitVec.ofNat 20 i }

/-- The entry of the kernel's 4 MB page. -/
def kernelPage : PdEntryPage :=
  { present := 1, rW := 1, uS := 0, pwt := 0, pcd := 1, accessed := 0, dirty := 0, pageSize := 1
    global := 1, avl := 0, pat := 0, reserved := 0, pageBase := 1 }

/-- `init_paging`: the kernel, and `first_page_table`, which no other function writes. -/
def Kernel.initPaging (s : Kernel) (firstPageTableAddr : ℕ) (firstPageTable : ℕ → BitVec 32) :
    Kernel × (ℕ → BitVec 32) :=
  let pageDir := copyLoop s.pageDir 0 (fun _ => resetPageDirectoryEntry.val) 1024
  let pageDir := Function.update pageDir 0 (firstPdEntry firstPageTableAddr).val
  let firstPageTable := copyLoop firstPageTable 0 (fun i => (pageTableEntry i).val) 1024
  let pageDir := Function.update pageDir 1 kernelPage.val
  ({ s with pageDir := pageDir }, firstPageTable)

/-- **The directory at the start:** two supervisor entries, and nothing else present. -/
theorem Kernel.initPaging_pageDir (s : Kernel) (firstPageTableAddr : ℕ)
    (firstPageTable : ℕ → BitVec 32) {k : ℕ} (hk : k < 1024) :
    (s.initPaging firstPageTableAddr firstPageTable).1.pageDir k
      = if k = 0 then (firstPdEntry firstPageTableAddr).val
        else if k = 1 then kernelPage.val else resetPageDirectoryEntry.val := by
  simp only [initPaging, Function.update_apply]
  split_ifs with h₁ h₀
  · omega
  · rfl
  · rfl
  · exact copyLoop_start hk

/-- The first page table maps the four text pages, for the kernel only. -/
theorem Kernel.initPaging_firstPageTable (s : Kernel) (firstPageTableAddr : ℕ)
    (firstPageTable : ℕ → BitVec 32) {k : ℕ} (hk : k < 1024) :
    let v := (s.initPaging firstPageTableAddr firstPageTable).2 k
    (ptPresent v = true ↔ 0xB8 ≤ k ∧ k ≤ 0xBB) ∧ ptUser v = false ∧ (ptPageBase v).toNat = k := by
  have hentry : (s.initPaging firstPageTableAddr firstPageTable).2 k = (pageTableEntry k).val :=
    copyLoop_start hk
  rw [hentry]
  refine ⟨?_, ?_, ?_⟩
  · rw [PtEntryPage.ptPresent_val, pageTableEntry]
    split_ifs with h
    · simp
      omega
    · simp
      omega
  · simp [PtEntryPage.ptUser_val, pageTableEntry]
  · rw [PtEntryPage.ptPageBase_val, pageTableEntry]
    exact Nat.mod_eq_of_lt (by omega)

end OS391
