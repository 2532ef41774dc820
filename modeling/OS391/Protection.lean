/-
# Memory protection

What user code can reach is what the page directory and `vidmap_page_table` say.  Four
functions write them at indices and with frame numbers computed from process numbers; two
of them are called with a process number that is read from a PCB, and one clears the entry
of a number that grows with it.

The process numbers are in range in every run (`Book.Bounded`).  Then the entries stay what
they should be (`Tables`): user code reaches one 4 MB page above the kernel's, and one of the
four text pages (`protected_of_run`).
-/

import OS391.CleanTable

namespace OS391

open Lib

/-- Where the linker put the two page tables; they are declared with
`aligned (FOUR_KB)`. -/
structure Linking where
  firstPageTable : ℕ
  vidmapPageTable : ℕ
  first_aligned : firstPageTable % 4096 = 0
  first_lt : firstPageTable < 4294967296
  vidmap_aligned : vidmapPageTable % 4096 = 0
  vidmap_lt : vidmapPageTable < 4294967296

namespace Kernel

variable {fs : FileSys} {s t : Kernel} {pid : ℤ}

/-! ### The entries of the tables -/

/-- What the directory and `vidmap_page_table` hold at any time. -/
structure Tables (l : Linking) (s : Kernel) : Prop where
  addr : s.vidmapPageTableAddr = l.vidmapPageTable
  first : s.pageDir 0 = (firstPdEntry l.firstPageTable).val
  kernel : s.pageDir 1 = kernelPage.val
  program : pdPresent (s.pageDir 32) = true →
    ∃ pid : ℤ, 0 ≤ pid ∧ pid ≤ maxPcb ∧ s.pageDir 32 = (userPage pid).val
  video : pdPresent (s.pageDir 33) = true → s.pageDir 33 = s.vidMemPt.val ∧
    ∃ j < 4, s.vidmapPageTable 0 = (vidmapEntry (0xB8000 / 4096 + j) 0).val
  absent : ∀ k < 1024, k ≠ 0 → k ≠ 1 → k ≠ 32 → k ≠ 33 → pdPresent (s.pageDir k) = false
  closed : ∀ k < 1024, k ≠ 0 → ptPresent (s.vidmapPageTable k) = false

variable {l : Linking}

/-- The tables are what matters. -/
theorem Tables.congr (h : s.Tables l) (hdir : t.pageDir = s.pageDir)
    (htable : t.vidmapPageTable = s.vidmapPageTable)
    (haddr : t.vidmapPageTableAddr = s.vidmapPageTableAddr) : t.Tables l := by
  have hpt : t.vidMemPt = s.vidMemPt := by rw [vidMemPt, vidMemPt, haddr]
  refine ⟨haddr.trans h.addr, ?_, ?_, ?_, ?_, ?_, ?_⟩ <;> simp only [hdir, htable, hpt]
  exacts [h.first, h.kernel, h.program, h.video, h.absent, h.closed]

theorem Tables.sameVideo (h : s.Tables l) (hvideo : s.SameVideo t)
    (hdir : t.pageDir = s.pageDir) : t.Tables l :=
  h.congr hdir hvideo.table hvideo.addr

/-- `paging_execute` of a process number in range. -/
theorem Tables.pagingExecute (h : s.Tables l) (hpid : 0 ≤ pid ∧ pid ≤ maxPcb) :
    (s.pagingExecute pid).Tables l := by
  have hdir (k : ℕ) (hk : k ≠ 32) : (s.pagingExecute pid).pageDir k = s.pageDir k :=
    Function.update_of_ne hk _ _
  have hself : (s.pagingExecute pid).pageDir 32 = (userPage pid).val := by
    simp [Kernel.pagingExecute, userPageIndex]
  refine ⟨h.addr, ?_, ?_, fun _ => ⟨pid, hpid.1, hpid.2, hself⟩, fun hpresent => ?_,
    fun k hk h₀ h₁ h₂ h₃ => ?_, h.closed⟩
  · rw [hdir 0 (by decide)]
    exact h.first
  · rw [hdir 1 (by decide)]
    exact h.kernel
  · rw [hdir 33 (by decide)] at hpresent ⊢
    exact h.video hpresent
  · rw [hdir k h₂]
    exact h.absent k hk h₀ h₁ h₂ h₃

/-- `disable_child_page` while a process runs: the entry it clears is above the kernel's. -/
theorem Tables.disableChildPage (h : s.Tables l) (hpos : 0 ≤ s.processNum)
    (hmax : s.processNum ≤ maxPcb) : s.disableChildPage.Tables l := by
  have hlt : s.processNum < 1022 := by
    unfold maxPcb at hmax
    omega
  have hdir := s.disableChildPage_pageDir hpos hlt
  have habsent := not_pdPresent_disabledPage (s.processNum + 3)
  refine ⟨h.addr, ?_, ?_, fun hpresent => ?_, fun hpresent => ?_,
    fun k hk h₀ h₁ h₂ h₃ => ?_, h.closed⟩
  · rw [hdir, if_neg (by omega)]
    exact h.first
  · rw [hdir, if_neg (by omega)]
    exact h.kernel
  · rw [hdir] at hpresent ⊢
    split_ifs at hpresent ⊢
    · rw [habsent] at hpresent
      contradiction
    · exact h.program hpresent
  · rw [hdir] at hpresent ⊢
    split_ifs at hpresent ⊢
    · rw [habsent] at hpresent
      contradiction
    · exact h.video hpresent
  · rw [hdir]
    split_ifs
    · exact habsent
    · exact h.absent k hk h₀ h₁ h₂ h₃

/-- The video mapping set to one of the text pages. -/
theorem Tables.mapVideo (h : s.Tables l) {j : ℕ} (hj : j < 4) :
    (s.mapVideo (0xB8000 / 4096 + j)).Tables l := by
  have hdir (k : ℕ) (hk : k ≠ 33) :
      (s.mapVideo (0xB8000 / 4096 + j)).pageDir k = s.pageDir k := Function.update_of_ne hk _ _
  have hself : (s.mapVideo (0xB8000 / 4096 + j)).pageDir 33 = s.vidMemPt.val := by
    simp [Kernel.mapVideo]
  refine ⟨h.addr, ?_, ?_, fun hpresent => ?_, fun _ => ⟨hself, j, hj, ?_⟩,
    fun k hk h₀ h₁ h₂ h₃ => ?_, fun k hk h₀ => ?_⟩
  · rw [hdir 0 (by decide)]
    exact h.first
  · rw [hdir 1 (by decide)]
    exact h.kernel
  · rw [hdir 32 (by decide)] at hpresent ⊢
    exact h.program hpresent
  · exact mapVideo_vidmapPageTable s _ (by decide)
  · rw [hdir k h₃]
    exact h.absent k hk h₀ h₁ h₂ h₃
  · rw [mapVideo_vidmapPageTable s _ hk, ptPresent_vidmapEntry]
    exact decide_eq_false h₀

/-! ### The operations -/

theorem tables_execute (fs : FileSys) (hb : s.book.Bounded) (h : s.Tables l)
    (command : CString) (frame : Frame) :
    (s.execute fs command frame).2.Tables l := by
  have hvideo := sameVideo_execute fs s command frame
  rcases s.execute_cases fs command frame hb.processNum.2 with ⟨pid, hlaunch⟩ | hstop
  · have hge : -1 ≤ s.processNum := hb.processNum.1
    have habove := hlaunch.firstFree.above
    have hmap := h.pagingExecute ⟨by omega, hlaunch.firstFree.le_max⟩
    refine hmap.congr ?_ hvideo.table hvideo.addr
    obtain ⟨t, entryPoint, isShellFlag, hparsed, -, heq⟩ := hlaunch
    obtain ⟨pcb, array, curr, count, hframe⟩ :=
      (t.pagingExecute pid).launch_frame pid entryPoint isShellFlag frame
    rw [heq, hframe]
    unfold Kernel.pagingExecute
    rw [hparsed.pageDir]
  · exact h.sameVideo hvideo hstop.2.pageDir

theorem tables_halt (hb : s.book.Bounded) (h : s.Tables l)
    (hrun : 0 ≤ s.processNum) (status : ℤ) (frame : Frame) :
    (s.halt status frame).Tables l := by
  have hvideo := s.sameVideo_halt status frame
  cases hbase : (s.pcb s.processNum).isBaseShell with
  | false =>
    have hparent := (hb.pcb s.processNum).parentId hbase
    have hmap := (h.pagingExecute hparent).disableChildPage hrun hb.processNum.2
    exact hmap.congr (s.halt_frame status frame hbase).2.2.1 hvideo.table hvideo.addr
  | true => exact h.sameVideo hvideo (s.restart_frame status frame hbase).2.2.1

/-- **A tick** maps the page of the next process, and a text page. -/
theorem tables_switchProcess (hb : s.switchProcess.book.Bounded) (h : s.Tables l) :
    s.switchProcess.Tables l := by
  have hfits := hb.pcb s.rotate.processNum
  have hterminal : (s.pcb s.rotate.processNum).terminalNum < 3 := hfits.terminalNum
  have hframe : ∃ j < 4, s.rotate.videoFrame (s.pcb s.rotate.processNum).terminalNum
      = 0xB8000 / 4096 + j := by
    unfold videoFrame
    split_ifs
    · exact ⟨0, by decide, rfl⟩
    · exact ⟨(s.pcb s.rotate.processNum).terminalNum + 1, by omega, Nat.add_assoc ..⟩
  obtain ⟨j, hj, hj'⟩ := hframe
  have hrotate : s.rotate.Tables l := h.congr rfl rfl rfl
  have hmap := (hrotate.mapVideo hj).pagingExecute hfits.pid
  rw [← hj'] at hmap
  exact hmap.congr rfl rfl rfl

theorem tables_scheduler (fs : FileSys) (hb : s.book.Bounded) (h : s.Tables l)
    (frame : Frame) : (s.scheduler fs frame).Tables l := by
  have hbook := bounded_scheduler fs hb frame
  by_cases hpit : s.pitCount < 3
  · rw [scheduler_of_boot fs s frame hpit, bootShell]
    split_ifs
    · have hclear (f : Console → Console) : (s.modifyConsole f).Tables l := h.congr rfl rfl rfl
      exact tables_execute (s := s.modifyConsole _) fs hb (hclear _) _ _
    · have hnext : s.nextTerminal.book.Bounded := by
        rw [nextTerminal_book]
        exact hb.nextTerminal
      have htables : s.nextTerminal.Tables l := h.congr rfl rfl rfl
      exact tables_execute fs hnext htables _ _
  · rw [scheduler, if_neg (by omega), if_neg (by omega)] at hbook ⊢
    have hfinish : s.saveContext.finishBoot.Tables l := by
      unfold finishBoot
      split_ifs
      · exact h.congr rfl rfl rfl
      · exact h.congr rfl rfl rfl
    exact tables_switchProcess hbook hfinish

theorem tables_vidmap (h : s.Tables l) (screenStart : ℕ) :
    (s.vidmap screenStart).2.Tables l := by
  simp only [vidmap]
  split_ifs
  · exact h.congr rfl rfl rfl
  · have hcli : s.cli.Tables l := h.congr rfl rfl rfl
    exact (hcli.mapVideo (show 0 < 4 by decide)).congr rfl rfl rfl

end Kernel

/-! ### Steps and runs -/

section Runs

variable {fs : FileSys} {s t : Kernel} {e : Event} {es : List Event} {l : Linking}

/-- **A step** keeps the tables in order. -/
theorem Step.tables (hb : s.book.Bounded) (h : s.Tables l) (hstep : Step fs s e t) :
    t.Tables l := by
  cases hstep with
  | tick esp ebp frame =>
    have hregs : (s.withRegisters esp ebp).Tables l := h.congr rfl rfl rfl
    exact Kernel.tables_scheduler (s := s.withRegisters esp ebp) fs hb hregs frame
  | execute _ command frame => exact Kernel.tables_execute fs hb h command frame
  | systemHalt hrun status frame => exact Kernel.tables_halt hb h hrun _ frame
  | exceptionHalt hrun status frame => exact Kernel.tables_halt hb h hrun _ frame
  | getargs _ buf nbytes =>
    obtain ⟨stored, console, flag, hframe⟩ := s.getargs_frame buf nbytes
    rw [hframe]
    exact h.congr rfl rfl rfl
  | openCall _ filename junk =>
    obtain ⟨pcb, rtc, flag, hframe⟩ := s.openCall_frame fs filename junk
    rw [hframe]
    exact h.congr rfl rfl rfl
  | close _ fd =>
    obtain ⟨pcb, flag, hframe⟩ := s.close_frame fd
    rw [hframe]
    exact h.congr rfl rfl rfl
  | vidmap _ screenStart => exact Kernel.tables_vidmap h screenStart
  | switchTerminals next => exact h.congr rfl rfl rfl

/-- The tables that `init_paging` leaves. -/
theorem Kernel.tables_initPaging (haddr : s.vidmapPageTableAddr = l.vidmapPageTable)
    (htable : ∀ k < 1024, s.vidmapPageTable k = 0) (firstPageTable : ℕ → BitVec 32) :
    (s.initPaging l.firstPageTable firstPageTable).1.Tables l := by
  have hdir {k : ℕ} (hk : k < 1024) := s.initPaging_pageDir l.firstPageTable firstPageTable hk
  have hreset : pdPresent resetPageDirectoryEntry.val = false := by
    simp [PdEntryPage.pdPresent_val, resetPageDirectoryEntry]
  have habsent {k : ℕ} (hk : k < 1024) (h₀ : k ≠ 0) (h₁ : k ≠ 1) :
      pdPresent ((s.initPaging l.firstPageTable firstPageTable).1.pageDir k) = false := by
    rw [hdir hk, if_neg h₀, if_neg h₁]
    exact hreset
  refine ⟨haddr, hdir (by decide), hdir (by decide), fun hpresent => ?_, fun hpresent => ?_,
    fun k hk h₀ h₁ _ _ => habsent hk h₀ h₁, fun k hk _ => ?_⟩
  · rw [habsent (by decide) (by decide) (by decide)] at hpresent
    contradiction
  · rw [habsent (by decide) (by decide) (by decide)] at hpresent
    contradiction
  · show ptPresent (s.vidmapPageTable k) = false
    rw [htable k hk]
    rfl

/-- What user code can reach. -/
structure Protected (l : Linking) (s : Kernel) : Prop where
  /-- The entry of the first 4 MB is as `init_paging` wrote it, for the kernel only. -/
  first : s.pageDir 0 = (firstPdEntry l.firstPageTable).val ∧ pdUser (s.pageDir 0) = false
  /-- The kernel's page too. -/
  kernel : s.pageDir 1 = kernelPage.val ∧ pdUser (s.pageDir 1) = false
  /-- User code reaches what is behind entries 32 and 33, and nothing else. -/
  user : ∀ k < 1024, pdPresent (s.pageDir k) = true → pdUser (s.pageDir k) = true →
    k = 32 ∨ k = 33
  /-- Entry 32 maps the page of a process. -/
  program : pdPresent (s.pageDir 32) = true → ∃ pid : ℤ, 0 ≤ pid ∧ pid ≤ maxPcb ∧
    s.pageDir 32 = (userPage pid).val ∧ pdLarge (s.pageDir 32) = true ∧
    ((pdPageBase (s.pageDir 32)).toNat : ℤ) = pid + 2
  /-- Entry 33 points to `vidmap_page_table`, whose first entry maps a text page. -/
  video : pdPresent (s.pageDir 33) = true → pdLarge (s.pageDir 33) = false ∧
    (pdTableBase (s.pageDir 33)).toNat * 4096 = l.vidmapPageTable ∧
    ptPresent (s.vidmapPageTable 0) = true ∧
    ∃ j < 4, (ptPageBase (s.vidmapPageTable 0)).toNat * 4096 = 0xB8000 + 4096 * j
  closed : ∀ k < 1024, k ≠ 0 → ptPresent (s.vidmapPageTable k) = false

/-- The number of the physical page of a process has room in its field. -/
theorem pdPageBase_userPage {pid : ℤ} (h₀ : 0 ≤ pid) (h₁ : pid ≤ maxPcb) :
    ((pdPageBase (userPage pid).val).toNat : ℤ) = pid + 2 := by
  have hlt : pid < 1022 := by
    unfold maxPcb at h₁
    omega
  have hpage := (Kernel.mapsUserPage_pagingExecute default h₀ hlt).pageBase
  simpa [Kernel.pagingExecute] using hpage

theorem Kernel.Tables.toProtected (h : s.Tables l) : Protected l s := by
  have hfirst : pdUser (s.pageDir 0) = false := by
    rw [h.first]
    simp [PdEntryPt.pdUser_val, firstPdEntry]
  have hkernel : pdUser (s.pageDir 1) = false := by
    rw [h.kernel]
    simp [PdEntryPage.pdUser_val, kernelPage]
  refine ⟨⟨h.first, hfirst⟩, ⟨h.kernel, hkernel⟩, fun k hk hpresent huser => ?_, fun hpresent => ?_,
    fun hpresent => ?_, h.closed⟩
  · by_contra hother
    have h₀ : k ≠ 0 := by
      rintro rfl
      simp [hfirst] at huser
    have h₁ : k ≠ 1 := by
      rintro rfl
      simp [hkernel] at huser
    have habsent := h.absent k hk h₀ h₁ (by omega) (by omega)
    simp [habsent] at hpresent
  · obtain ⟨pid, hpos, hmax, hentry⟩ := h.program hpresent
    refine ⟨pid, hpos, hmax, hentry, ?_, ?_⟩ <;> rw [hentry]
    · simp [PdEntryPage.pdLarge_val, userPage]
    · exact pdPageBase_userPage hpos hmax
  · obtain ⟨hentry, j, hj, htable⟩ := h.video hpresent
    have hlt := l.vidmap_lt
    have haligned := l.vidmap_aligned
    rw [hentry, htable]
    refine ⟨?_, ?_, ?_, j, hj, ?_⟩
    · simp [PdEntryPt.pdLarge_val, Kernel.vidMemPt]
    · rw [PdEntryPt.pdTableBase_val, Kernel.vidMemPt, h.addr, BitVec.toNat_ofNat,
        Nat.mod_eq_of_lt (by omega)]
      omega
    · exact Kernel.ptPresent_vidmapEntry _ 0
    · rw [Kernel.ptPageBase_vidmapEntry (by omega)]
      omega

/-- **Memory protection:** in every run from the tables of `init_paging` user code reaches the
page of one process and a text page; the pages of processes are distinct. -/
theorem protected_of_run (hboot : PowerOn s) (haddr : s.vidmapPageTableAddr = l.vidmapPageTable)
    (htable : ∀ k < 1024, s.vidmapPageTable k = 0) (firstPageTable : ℕ → BitVec 32)
    (hr : Run (Step fs) (s.initPaging l.firstPageTable firstPageTable).1 es t) :
    Protected l t ∧ ∀ pid pid' : ℤ, 0 ≤ pid → pid ≤ maxPcb → 0 ≤ pid' → pid' ≤ maxPcb →
      pdPageBase (userPage pid).val = pdPageBase (userPage pid').val → pid = pid' := by
  constructor
  · have hinv : t.book.Bounded ∧ t.Tables l :=
      hr.invariant (I := fun s => s.book.Bounded ∧ s.Tables l)
        (fun _ _ _ hs hstep => ⟨hstep.bounded hs.1, hstep.tables hs.1 hs.2⟩)
        ⟨hboot.bounded, s.tables_initPaging haddr htable firstPageTable⟩
    exact hinv.2.toProtected
  · intro pid pid' h₀ h₁ h₀' h₁' heq
    have hpage := pdPageBase_userPage h₀ h₁
    rw [heq, pdPageBase_userPage h₀' h₁'] at hpage
    omega

/-- The two page tables at 4 MB and after. -/
def linking : Linking where
  firstPageTable := 0x405000
  vidmapPageTable := 0x406000
  first_aligned := rfl
  first_lt := by decide
  vidmap_aligned := rfl
  vidmap_lt := by decide

/-- The kernel when `init_paging` has been called. -/
def pagingKernel : Kernel :=
  ({ powerOnKernel with vidmapPageTableAddr := 0x406000 }.initPaging 0x405000 fun _ => 0).1

/-- The memory is protected when the three shells have been started, the first has its turn again
and has called `vidmap`. -/
theorem protected_vidmap :
    Protected linking ((ticked (ticked (ticked (ticked pagingKernel)))).vidmap 0x8000000).2 ∧
      ∀ pid pid' : ℤ, 0 ≤ pid → pid ≤ maxPcb → 0 ≤ pid' → pid' ≤ maxPcb →
        pdPageBase (userPage pid).val = pdPageBase (userPage pid').val → pid = pid' :=
  have hboot : PowerOn { powerOnKernel with vidmapPageTableAddr := 0x406000 } :=
    ⟨rfl, rfl, rfl, powerOn_powerOnKernel.pcb⟩
  have htick (s : Kernel) : Step shellImage s (.tick 0 0 zeroFrame) (ticked s) :=
    .tick s 0 0 zeroFrame
  protected_of_run hboot rfl (fun _ _ => rfl) (fun _ => 0)
    (.cons (htick _) (.cons (htick _) (.cons (htick _) (.cons (htick _)
      (.single (.vidmap (by decide +kernel) 0x8000000))))))

end Runs

end OS391
