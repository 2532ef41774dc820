/-
# The page and the kernel stack of the running process

The entry of the page directory for 128 MB and `tss.esp0` should be those of the running
process (`InContext`).  `execute`, the scheduler and the two halts each write both, and
each leaves them right, with one exception: a halt goes on to call `disable_child_page`,
which clears the entry numbered like the physical page above the process that ends.  For
process 29 that is entry 32, the one for 128 MB, just written for its parent.

So a run keeps the context right as long as process 29 does not halt
(`inContext_of_run`), and 27 programs started from one another on the third terminal,
and the halt of the last, lead to a state where it is wrong (`not_inContext_after_halt29`).
-/

import OS391.Consistency

namespace OS391

open Lib

/-- The page and the kernel stack are those of the running process. -/
structure InContext (s : Kernel) : Prop where
  page : s.MapsUserPage s.processNum
  stack : s.tssEsp0 = 0x800000 - 8192 * s.processNum - 4

/-- `tss.esp0` does not wrap. -/
theorem kernelStack_eq {pid : ℤ} (h₀ : 0 ≤ pid) (h₁ : pid ≤ maxPcb) :
    kernelStack pid = 0x800000 - 8192 * pid - 4 := by
  unfold maxPcb at h₁
  rw [kernelStack, u32_of_bounds (by omega) (by omega)]

namespace Kernel

variable {s t u : Kernel} {pid : ℤ}

/-- The context after the page and the stack of `pid` were set up. -/
theorem inContext_of_eq (h₀ : 0 ≤ pid) (h₁ : pid ≤ maxPcb)
    (hnum : t.processNum = pid) (hstack : t.tssEsp0 = kernelStack pid)
    (hdir : t.pageDir userPageIndex = (u.pagingExecute pid).pageDir userPageIndex) :
    InContext t where
  page := hnum ▸ (u.mapsUserPage_pagingExecute h₀ (by unfold maxPcb at h₁; omega)).congr hdir
  stack := by rw [hstack, hnum, kernelStack_eq h₀ h₁]

end Kernel

/-- The context is read off three fields. -/
theorem InContext.congr {s t : Kernel} (h : InContext s) (hnum : t.processNum = s.processNum)
    (hstack : t.tssEsp0 = s.tssEsp0)
    (hdir : t.pageDir userPageIndex = s.pageDir userPageIndex) : InContext t where
  page := hnum ▸ h.page.congr hdir
  stack := by rw [hstack, hnum, h.stack]

/-- The kernel after boot has the first shell's page and stack. -/
theorem inContext_bootedKernel : InContext bootedKernel where
  page := (bootedKernel.mapsUserPage_pagingExecute (Int.le_refl 0) (by decide)).congr rfl
  stack := by decide

/-! ### Runs -/

/-- Process 29 does not halt. -/
def NoHalt29 (s : Kernel) (e : Event) : Prop :=
  match e with
  | .systemHalt .. | .exceptionHalt .. => s.processNum ≠ 29
  | _ => True

section Runs

variable {fs : FileSys} {s t : Kernel} {es : List Event}

/-- **A halt** leaves the context right, unless it is process 29 that halts. -/
theorem InContext.halt (h : Running s) (hc : InContext s) {status : ℤ} {frame : Frame}
    (ht : Running (s.halt status frame)) (hne : s.processNum ≠ 29) :
    InContext (s.halt status frame) := by
  obtain ⟨hpos, hmax⟩ := h.processNum_bounds
  obtain ⟨hpos', hmax'⟩ := ht.processNum_bounds
  unfold maxPcb at hmax
  by_cases hbase : (s.pcb s.processNum).isBaseShell = false
  · obtain ⟨hnum, hstack, hdir, -⟩ := s.halt_frame status frame hbase
    refine Kernel.inContext_of_eq (u := s) hpos' hmax' rfl (hnum ▸ hstack) ?_
    rw [hdir, hnum, Kernel.disableChildPage_pageDir (s.pagingExecute (s.pcb s.processNum).parentId)
      hpos (show s.processNum < 1022 by omega), if_neg]
    intro h32
    have h32' : (32 : ℤ) = s.processNum + 3 := h32
    omega
  · have hbase' : (s.pcb s.processNum).isBaseShell = true := by simpa using hbase
    obtain ⟨hnum, hstack, hdir, -⟩ := s.restart_frame status frame hbase'
    rw [h.pid_processNum.1] at hnum hstack
    refine hc.congr hnum ?_ (congrFun hdir _)
    rw [hstack, hc.stack, kernelStack_eq hpos (by unfold maxPcb; omega)]

/-- **A tick** maps the page of the next process. -/
theorem InContext.tick (h : Running s) {frame : Frame} (ht : Running (s.scheduler fs frame)) :
    InContext (s.scheduler fs frame) := by
  obtain ⟨hpos, hmax⟩ := ht.processNum_bounds
  have hpid := ht.pid_processNum.1
  have hpit := h.1
  rw [Kernel.scheduler, if_neg (by omega), if_neg (by omega)] at hpos hmax hpid ⊢
  set u := s.saveContext.finishBoot
  have hsame : (u.pcb u.rotate.processNum).pid = u.rotate.processNum := hpid
  refine Kernel.inContext_of_eq
    (u := u.rotate.mapVideo (u.rotate.videoFrame (u.pcb u.rotate.processNum).terminalNum))
    hpos hmax rfl (congrArg kernelStack hsame) ?_
  rw [← hpid]
  rfl

/-- **A step** leaves the context right, unless process 29 halts. -/
theorem InContext.step {e : Event} (h : Running s) (hc : InContext s) (hstep : Step fs s e t)
    (hne : NoHalt29 s e) : InContext t := by
  have ht := h.step hstep
  obtain ⟨hpos, hmax⟩ := ht.processNum_bounds
  cases hstep with
  | tick esp ebp frame => exact InContext.tick (s := s.withRegisters esp ebp) h ht
  | execute hrun command frame =>
    rcases s.execute_cases fs command frame h.processNum_bounds.2 with ⟨pid, hlaunch⟩ | hstop
    · obtain ⟨u, entryPoint, isShellFlag, hparsed, hfirst, heq⟩ := hlaunch
      obtain ⟨pcb, array, curr, count, hframe⟩ :=
        (u.pagingExecute pid).launch_frame pid entryPoint isShellFlag frame
      have hflag : (u.pagingExecute pid).shellHaltFlag = false := hparsed.shellHaltFlag
      have hstart := h.processNum_bounds.1
      have habove := hfirst.above
      simp only [hflag] at hframe
      rw [heq, hframe]
      exact Kernel.inContext_of_eq (u := u) (by omega) hfirst.le_max rfl rfl rfl
    · exact hc.congr hstop.2.processNum hstop.2.tssEsp0 (congrFun hstop.2.pageDir _)
  | systemHalt hrun status frame => exact hc.halt h ht hne
  | exceptionHalt hrun status frame => exact hc.halt h ht hne
  | getargs hrun buf nbytes =>
    obtain ⟨stored, console, flag, hframe⟩ := s.getargs_frame buf nbytes
    rw [hframe]
    exact hc.congr rfl rfl rfl
  | openCall hrun filename junk =>
    obtain ⟨pcb, rtc, flag, hframe⟩ := s.openCall_frame fs filename junk
    rw [hframe]
    exact hc.congr rfl rfl rfl
  | close hrun fd =>
    obtain ⟨pcb, flag, hframe⟩ := s.close_frame fd
    rw [hframe]
    exact hc.congr rfl rfl rfl
  | vidmap hrun screenStart =>
    obtain ⟨dir, table, flag, hframe, hdir⟩ := s.vidmap_frame screenStart
    rw [hframe]
    exact hc.congr rfl rfl hdir
  | switchTerminals next => exact hc.congr rfl rfl rfl

/-- **The context is right after every run** in which process 29 does not halt. -/
theorem inContext_of_run (hboot : Booted s) (hc : InContext s)
    (hr : Run (Guarded NoHalt29 (Step fs)) s es t) : InContext t := by
  have hinv : Running t ∧ InContext t :=
    hr.invariant (I := fun s => Running s ∧ InContext s)
      (fun _ _ _ hs hstep => ⟨hs.1.step hstep.2, hs.2.step hs.1 hstep.2 hstep.1⟩)
      ⟨hboot.running, hc⟩
  exact hinv.2

end Runs

/-- The context is right after a tick, which gives the second terminal its turn, and the halt
of its base shell. -/
theorem inContext_of_tick_halt :
    InContext (((bootedKernel.withRegisters 8 16).scheduler default zeroFrame).systemHalt 0
      zeroFrame) := by
  set s := (bootedKernel.withRegisters 8 16).scheduler default zeroFrame with hs
  have htick : Guarded NoHalt29 (Step default) bootedKernel (.tick 8 16 zeroFrame) s :=
    ⟨trivial, .tick bootedKernel 8 16 zeroFrame⟩
  have hnum : s.processNum = 1 := rfl
  have hhalt : Guarded NoHalt29 (Step default) s (.systemHalt 0 zeroFrame) _ :=
    ⟨show s.processNum ≠ 29 by omega, .systemHalt (by omega) 0 zeroFrame⟩
  exact inContext_of_run booted_bootedKernel inContext_bootedKernel (.cons htick (.single hhalt))

/-! ### The run to process 29 -/

/-- An image with one program, `a`: a header of 40 bytes. -/
def programImage : FileSys :=
  { (default : FileSys) with
    dirCount := 1
    inodeCount := 1
    dataCount := 1
    direntries := fun _ =>
      { filename := fun i => if i = 0 then 97 else 0, fileType := 2, inodeNum := 0 }
    inodes := fun _ => { length := 40, dataBlocks := fun _ => 0 }
    data := fun x => [0x7f, 0x45, 0x4c, 0x46].getD x 0 }

/-- An image with the program `a` and one more entry. -/
def entryImage (name : CString) (fileType : ℕ) : FileSys :=
  { programImage with
    dirCount := 2
    direntries := fun i =>
      if i = 0 then programImage.direntries 0
      else { filename := name.get, fileType := fileType, inodeNum := 0 } }

/-- The command `a`. -/
def programCommand : CString where
  bytes := [97]
  noNul := by decide

theorem readDentryByName_program : readDentryByName programImage (getFileName programCommand)
    = readDentryByIndex programImage 0 := by
  have hshort : ¬ dentryFileNameLen < (getFileName programCommand).strlen := by decide +kernel
  have hname : strncmp (strncpy (fun _ => 0) (programImage.direntries 0).filename dentryFileNameLen)
      (getFileName programCommand).get dentryFileNameLen = 0 := by decide +kernel
  rw [readDentryByName, if_neg hshort, show programImage.dirCount = 1 from rfl, searchDentries,
    if_pos hname]

/-- Process `p` runs, and no process above it is active. -/
structure Topmost (s : Kernel) (p : ℤ) : Prop where
  running : Running s
  processNum : s.processNum = p
  free : ∀ q, p < q → (s.pcb q).active = false

/-- **One program more:** the topmost process starts `a`. -/
theorem Topmost.execute {s : Kernel} {p : ℤ} (h : Topmost s p) (hp : p < maxPcb) :
    ∃ t, Step programImage s (.execute programCommand zeroFrame) t ∧ Topmost t (p + 1) := by
  have hnum := h.processNum
  have hname : Kernel.isShellName (getFileName programCommand) = false := by decide +kernel
  have hexec : isExecutable (readData programImage 0 0 zeroFrame.header 40).2 = true := by
    decide +kernel
  obtain ⟨pid, hlaunch⟩ := s.execute_launches programImage zeroFrame hname readDentryByName_program
    hexec h.running.processNum_bounds.2 (by omega) (by omega) (h.free (p + 1) (by omega))
  obtain ⟨habove, -, hfree, hfirst⟩ := hlaunch.firstFree
  have hpid : pid = p + 1 := by
    by_contra hne
    have hactive := hfirst (p + 1) (by omega) (by omega)
    rw [h.free _ (by omega)] at hactive
    exact Bool.false_ne_true hactive
  have hstep : Step programImage s (.execute programCommand zeroFrame) _ :=
    .execute h.running.processNum_bounds.1 programCommand zeroFrame
  obtain ⟨hpit, m, hm⟩ := h.running
  have hbook := hm.launches_book (by omega) hlaunch
  refine ⟨_, hstep, h.running.step hstep, ?_, fun q hq => ?_⟩
  · exact (congrArg Book.processNum hbook).trans hpid
  · have hq' := congrArg (fun b : Book => (b.pcb q).active) hbook
    dsimp only at hq'
    rw [Function.update_of_ne (by omega)] at hq'
    exact hq'.trans (h.free q (by omega))

/-- **`n` programs more,** as long as there are PCBs. -/
theorem Topmost.nest {s : Kernel} {p : ℤ} (h : Topmost s p) :
    ∀ n : ℕ, p + n ≤ maxPcb → ∃ t,
      Run (Step programImage) s (List.replicate n (.execute programCommand zeroFrame)) t ∧
        Topmost t (p + n) := by
  intro n
  induction n with
  | zero => exact fun _ => ⟨s, .nil s, by simpa using h⟩
  | succ n ih =>
    intro hn
    obtain ⟨t, hr, ht⟩ := ih (by omega)
    obtain ⟨u, hstep, hu⟩ := ht.execute (by omega)
    refine ⟨u, ?_, ?_⟩
    · rw [List.replicate_succ']
      exact hr.append (.single hstep)
    · rw [show p + ((n + 1 : ℕ) : ℤ) = p + n + 1 by omega]
      exact hu

/-- A process number from 3 on is not that of a base shell. -/
theorem Running.isBaseShell_eq_false {s : Kernel} (h : Running s) (hnum : 3 ≤ s.processNum) :
    (s.pcb s.processNum).isBaseShell = false := by
  obtain ⟨-, m, hm⟩ := h
  obtain ⟨hcur, rest, -, hlinked⟩ := hm.exists_stack
  by_contra hbase
  have hbase' : (s.book.pcb s.processNum).isBaseShell = true := by
    simpa [Kernel.book, Pcb.book] using hbase
  have heq : s.processNum = m.current := (hlinked.eq_singleton hbase').2
  have hstarted := hm.sound.started_le
  omega

/-- **The halt of process 29** leaves its parent without a page. -/
theorem not_inContext_halt29 {s : Kernel} (h : Running s) (hnum : s.processNum = 29) (status : ℤ)
    (frame : Frame) : ¬ InContext (s.halt status frame) := by
  intro hc
  have hbase := h.isBaseShell_eq_false (by omega)
  obtain ⟨-, -, hdir, -⟩ := s.halt_frame status frame hbase
  have hpresent := hc.page.present
  have hbounds : (s.pagingExecute (s.pcb s.processNum).parentId).processNum = 29 := hnum
  rw [hdir, Kernel.disableChildPage_pageDir _ (by omega) (by omega), if_pos (by rw [hbounds]; rfl),
    Kernel.not_pdPresent_disabledPage] at hpresent
  exact Bool.false_ne_true hpresent

/-- After two ticks the third shell runs, and no process is above it. -/
theorem topmost_thirdShell : ∃ t,
    Run (Step programImage) bootedKernel [.tick 0 0 zeroFrame, .tick 0 0 zeroFrame] t ∧
      Topmost t 2 := by
  set s := (bootedKernel.withRegisters 0 0).scheduler programImage zeroFrame with hs
  have hbook : s.book = bootedKernel.book.rotate :=
    Kernel.scheduler_book programImage (bootedKernel.withRegisters 0 0) zeroFrame (by decide)
  have hpit : s.pitCount = 4 := congrArg Book.pitCount hbook
  have hbook' : ((s.withRegisters 0 0).scheduler programImage zeroFrame).book
      = bootedKernel.book.rotate.rotate := by
    rw [Kernel.scheduler_book programImage (s.withRegisters 0 0) zeroFrame
      (show 3 ≤ s.pitCount by omega), Kernel.withRegisters_book, hbook]
    rfl
  have hr : Run (Step programImage) bootedKernel [.tick 0 0 zeroFrame, .tick 0 0 zeroFrame] _ :=
    .cons (.tick bootedKernel 0 0 zeroFrame) (.single (.tick s 0 0 zeroFrame))
  refine ⟨_, hr, booted_bootedKernel.running.run hr, congrArg Book.processNum hbook',
    fun q hq => ?_⟩
  exact (congrArg (fun b : Book => (b.pcb q).active) hbook').trans
    (booted_bootedKernel.fresh q (by omega)).active

/-- **The context can go wrong:** from the state after boot, where it is right, the third
shell starts a chain of 27 programs, and the last of them, process 29, halts. -/
theorem not_inContext_after_halt29 :
    Booted bootedKernel ∧ InContext bootedKernel ∧ ∃ t, Run (Step programImage) bootedKernel
      ([.tick 0 0 zeroFrame, .tick 0 0 zeroFrame] ++
        List.replicate 27 (.execute programCommand zeroFrame) ++ [.systemHalt 0 zeroFrame]) t ∧
      ¬ InContext t := by
  obtain ⟨s, hr, hs⟩ := topmost_thirdShell
  obtain ⟨t, hr', ht⟩ := hs.nest 27 (by decide)
  have hhalt : Run (Step programImage) t [.systemHalt 0 zeroFrame] (t.systemHalt 0 zeroFrame) :=
    .single (.systemHalt ht.running.processNum_bounds.1 0 zeroFrame)
  exact ⟨booted_bootedKernel, inContext_bootedKernel, _, (hr.append hr').append hhalt,
    not_inContext_halt29 ht.running ht.processNum _ _⟩

end OS391
