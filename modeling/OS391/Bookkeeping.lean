/-
# Who runs where

The kernel keeps the running processes in four places: `process_num`,
`schedule_array`, the `curr_pid` of the terminals, and the PCBs.  `Kernel.book` is the
projection of the state to them, with the cursor of the scheduler and its count of
ticks.

The operations that start, end and switch processes have a shadow on this projection
(`Book.launch`, `Book.restart`, `Book.halt`, `Book.rotate`), and the theorems of this
module say that the shadow is what the operation does: `Launches.book`,
`halt_book_of_not_baseShell`, `halt_book_of_baseShell`, `scheduler_book`.  Everything else
the kernel does leaves the projection as it is (the simp lemmas `..._book`).
-/

import OS391.Operations

namespace OS391

open Lib

/-- What the bookkeeping reads in a PCB. -/
@[ext] structure PcbBook where
  pid : ℤ
  parentId : ℤ
  active : Bool
  isBaseShell : Bool
  terminalNum : ℕ

/-- The four places, and the scheduler's own two numbers. -/
@[ext] structure Book where
  processNum : ℤ
  scheduleIdx : ℕ
  pitCount : ℕ
  scheduleArray : ℕ → ℤ
  currPid : ℕ → ℤ
  pcb : ℤ → PcbBook

/-- The bookkeeping part of a PCB. -/
def Pcb.book (p : Pcb) : PcbBook :=
  { pid := p.pid, parentId := p.parentId, active := p.active, isBaseShell := p.isBaseShell
    terminalNum := p.terminalNum }

namespace Book

variable (b : Book)

/-- The bookkeeping of one PCB changed. -/
def modifyPcb (pid : ℤ) (f : PcbBook → PcbBook) : Book :=
  { b with pcb := Function.update b.pcb pid (f (b.pcb pid)) }

/-- A process made the running one of a terminal. -/
def schedule (t : ℕ) (pid : ℤ) : Book :=
  { b with
    scheduleArray := Function.update b.scheduleArray t pid
    currPid := Function.update b.currPid t pid }

/-- The PCB of a launched process before the terminals are looked at. -/
def setup (pid : ℤ) : Book :=
  b.modifyPcb pid fun p =>
    { p with
      parentId := if p.parentId ≠ -1 then b.processNum else p.parentId
      pid := pid
      active := true }

/-- `enqueue` of one of the first three processes. -/
def enqueueBaseShell (pid : ℤ) : Book :=
  { (b.modifyPcb pid fun p =>
      { p with terminalNum := b.pitCount, isBaseShell := true, parentId := -1 }).schedule
        b.pitCount b.pitCount with
    pitCount := b.pitCount + 1 }

/-- The terminal of a later process: its own for a base shell, else its parent's. -/
def terminalOf (pid : ℤ) : ℕ :=
  if (b.pcb pid).isBaseShell = false then (b.pcb (b.pcb pid).parentId).terminalNum
  else (b.pcb pid).terminalNum

/-- `enqueue` -/
def enqueue (pid : ℤ) : Book :=
  if b.pitCount < 3 then b.enqueueBaseShell pid
  else (b.modifyPcb pid fun p => { p with terminalNum := b.terminalOf pid }).schedule
    (b.terminalOf pid) pid

/-- What `launch` does for a new process. -/
def launch (pid : ℤ) : Book := { (b.setup pid).enqueue pid with processNum := pid }

/-- What the restart of a base shell does. -/
def restart (pid : ℤ) : Book :=
  (b.modifyPcb pid fun p => { p with isBaseShell := true, parentId := -1 }).launch pid

/-- What the halt of process `pid`, not a base shell, does. -/
def halt (pid : ℤ) : Book :=
  let parent := (b.pcb pid).parentId
  { ((b.modifyPcb pid fun p => { p with active := false }).modifyPcb parent fun p =>
      { p with active := true }) with
    scheduleArray := Function.update b.scheduleArray (b.pcb pid).terminalNum (b.pcb parent).pid
    currPid := Function.update b.currPid (b.pcb pid).terminalNum parent
    processNum := parent }

/-- The cursor moved to the next terminal. -/
def rotate : Book :=
  let scheduleIdx := if b.scheduleIdx < 2 then b.scheduleIdx + 1 else 0
  { b with scheduleIdx := scheduleIdx, processNum := b.scheduleArray scheduleIdx }

/-- What the fourth tick does once for the third shell. -/
def finishBoot : Book :=
  if b.pitCount = 3 then
    { b.modifyPcb b.processNum fun p =>
        { p with isBaseShell := true, parentId := -1, active := true } with
      pitCount := b.pitCount + 1 }
  else b

/-- What the second and third tick do before they start a shell. -/
def nextTerminal : Book :=
  { b.modifyPcb b.processNum fun p => { p with active := true } with
    scheduleIdx := b.scheduleIdx + 1 }

end Book

namespace Kernel

/-- The bookkeeping of the kernel. -/
def book (s : Kernel) : Book :=
  { processNum := s.processNum
    scheduleIdx := s.scheduleIdx
    pitCount := s.pitCount
    scheduleArray := s.scheduleArray
    currPid := s.currPid
    pcb := fun pid => (s.pcb pid).book }

variable (fs : FileSys) (s : Kernel)

/-! ### What the bookkeeping does not see -/

@[simp] theorem cli_book : s.cli.book = s.book := rfl

@[simp] theorem sti_book : s.sti.book = s.book := rfl

@[simp] theorem withRegisters_book (esp ebp : ℕ) : (s.withRegisters esp ebp).book = s.book := rfl

@[simp] theorem modifyConsole_book (f : Console → Console) :
    (s.modifyConsole f).book = s.book := rfl

@[simp] theorem pagingExecute_book (pid : ℤ) : (s.pagingExecute pid).book = s.book := rfl

/-- A change of a PCB outside the bookkeeping fields is not seen. -/
theorem modifyPcb_book_of_eq {pid : ℤ} {f : Pcb → Pcb} (h : ∀ p, (f p).book = p.book) :
    (s.modifyPcb pid f).book = s.book := by
  have hpcb : (s.modifyPcb pid f).book.pcb = s.book.pcb := by
    funext q
    by_cases hq : q = pid
    · subst hq
      simp [book, h]
    · simp [book, modifyPcb_pcb_of_ne hq]
  exact congrArg (fun m => { s.book with pcb := m }) hpcb

/-- A change of the bookkeeping fields of a PCB is the same change of the
bookkeeping. -/
theorem modifyPcb_book (pid : ℤ) {f : Pcb → Pcb} {g : PcbBook → PcbBook}
    (h : ∀ p, (f p).book = g p.book) : (s.modifyPcb pid f).book = s.book.modifyPcb pid g := by
  have hpcb : (s.modifyPcb pid f).book.pcb = (s.book.modifyPcb pid g).pcb := by
    funext q
    by_cases hq : q = pid
    · subst hq
      simp [book, Book.modifyPcb, h]
    · simp [book, Book.modifyPcb, modifyPcb_pcb_of_ne hq, Function.update_of_ne hq]
  exact congrArg (fun m => { s.book with pcb := m }) hpcb

@[simp] theorem modifyDescriptor_book (pid fd : ℤ) (f : FileDescriptor → FileDescriptor) :
    (s.modifyDescriptor pid fd f).book = s.book :=
  s.modifyPcb_book_of_eq fun _ => rfl

@[simp] theorem saveContext_book : s.saveContext.book = s.book :=
  s.modifyPcb_book_of_eq fun _ => rfl

theorem openDescriptor_book (pid : ℤ) (fop : FopTable) (fileType : ℕ) (inodeOf : Dentry → ℕ)
    (filename : CString) :
    (s.openDescriptor fs pid fop fileType inodeOf filename).2.book = s.book := by
  unfold openDescriptor
  split
  · rfl
  · split
    · rfl
    · split_ifs <;> simp

theorem closeDescriptor_book (pid fd freeResult : ℤ) :
    (s.closeDescriptor pid fd freeResult).2.book = s.book := by
  unfold closeDescriptor
  split_ifs <;> simp

@[simp] theorem openCall_book (filename : Option CString) (junk : ℤ) :
    (s.openCall fs filename junk).2.book = s.book := by
  unfold openCall
  split
  · rfl
  · split
    · rfl
    · simp only [sti_book]
      split_ifs
      · exact openDescriptor_book fs _ _ _ _ _ _
      · exact openDescriptor_book fs _ _ _ _ _ _
      · exact openDescriptor_book fs _ _ _ _ _ _
      · rfl

@[simp] theorem closeHandler_book (fop : FopTable) (fd : ℤ) :
    (s.closeHandler fop fd).2.book = s.book := by
  cases fop with
  | stdin | stdout => rfl
  | rtc => exact closeDescriptor_book _ _ _ _
  | directory => exact closeDescriptor_book _ _ _ _
  | file => exact closeDescriptor_book _ _ _ _

@[simp] theorem close_book (fd : ℤ) : (s.close fd).2.book = s.book := by
  simp only [close]
  split_ifs <;> simp

@[simp] theorem getargs_book (buf : ℕ → UInt8) (nbytes : ℤ) :
    (s.getargs buf nbytes).kernel.book = s.book := by
  simp only [getargs]
  split_ifs <;> rfl

@[simp] theorem vidmap_book (screenStart : ℕ) : (s.vidmap screenStart).2.book = s.book := by
  obtain ⟨dir, table, flag, hframe, -⟩ := s.vidmap_frame screenStart
  rw [hframe]
  rfl

@[simp] theorem closeIfOpen_book (pid i : ℤ) : (s.closeIfOpen pid i).book = s.book := by
  unfold closeIfOpen
  split_ifs <;> simp

/-- The loop of a halt over the descriptors is not seen. -/
theorem closeCode_book (pid : ℤ) : (runAll (closeCode pid) s).book = s.book :=
  runAll_invariant (P := fun t : Kernel => t.book = s.book)
    (fun f hf t ht => by
      obtain ⟨i, _, rfl⟩ := List.mem_map.1 hf
      rw [closeIfOpen_book, ht]) rfl

/-! ### Starting a process -/

@[simp] theorem schedule_book (t : ℕ) (pid : ℤ) :
    (s.schedule t pid).book = s.book.schedule t pid := rfl

theorem enqueue_book (pid : ℤ) : (s.enqueue pid).book = s.book.enqueue pid := by
  unfold enqueue Book.enqueue
  by_cases h : s.pitCount < 3
  · rw [if_pos h, if_pos (show s.book.pitCount < 3 from h)]
    have hb := s.modifyPcb_book pid
      (f := fun p => { p with terminalNum := s.pitCount, isBaseShell := true, parentId := -1 })
      (g := fun p => { p with terminalNum := s.pitCount, isBaseShell := true, parentId := -1 })
      fun _ => rfl
    exact congrArg (fun b : Book =>
      { b.schedule s.pitCount s.pitCount with pitCount := s.pitCount + 1 }) hb
  · rw [if_neg h, if_neg (show ¬ s.book.pitCount < 3 from h), schedule_book]
    have hb := s.modifyPcb_book pid
      (f := fun p => { p with terminalNum := s.terminalOf pid })
      (g := fun p => { p with terminalNum := s.terminalOf pid }) fun _ => rfl
    exact congrArg (fun b : Book => b.schedule (s.terminalOf pid) pid) hb

/-- **`start`** is `launch` of the bookkeeping. -/
theorem start_book (pid : ℤ) (isShellFlag : Bool) (frame : Frame) :
    (s.start pid isShellFlag frame).book = s.book.launch pid := by
  have hsetup : (s.modifyPcb pid fun p => setupPcb p pid s.processNum frame isShellFlag).book
      = s.book.setup pid := s.modifyPcb_book _ fun _ => rfl
  have hqueue := enqueue_book
    (s.modifyPcb pid fun p => setupPcb p pid s.processNum frame isShellFlag) pid
  rw [hsetup] at hqueue
  exact congrArg (fun b : Book => { b with processNum := pid }) hqueue

/-- **`launch` of a new process.** -/
theorem launch_book {pid : ℤ} {entryPoint : ℕ} {isShellFlag : Bool} {frame : Frame}
    (h : s.shellHaltFlag = false) :
    (s.launch pid entryPoint isShellFlag frame).1 = pid ∧
      (s.launch pid entryPoint isShellFlag frame).2.book = s.book.launch pid := by
  have hinit : (s.initPcb pid entryPoint).book = s.book := by
    rw [initPcb, if_neg (by simp [h])]
    exact s.modifyPcb_book_of_eq fun _ => rfl
  simp only [launch, h, start_book]
  exact ⟨rfl, congrArg (fun b : Book => b.launch pid) hinit⟩

/-- **`launch` of a base shell that restarts.** -/
theorem restart_book {entryPoint : ℕ} {localProcessNum : ℤ} {isShellFlag : Bool} {frame : Frame}
    (h : s.shellHaltFlag = true) :
    (s.launch localProcessNum entryPoint isShellFlag frame).2.book
      = s.book.restart s.baseShellId := by
  have hinit : (s.initPcb s.baseShellId entryPoint).book
      = s.book.modifyPcb s.baseShellId fun p => { p with isBaseShell := true, parentId := -1 } := by
    have hb := s.modifyPcb_book s.baseShellId
      (f := fun p => { p with isBaseShell := true, parentId := -1 })
      (g := fun p => { p with isBaseShell := true, parentId := -1 }) fun _ => rfl
    rw [initPcb, if_pos h]
    exact hb
  simp only [launch, h, if_true, start_book]
  exact congrArg (fun b : Book => b.launch s.baseShellId) hinit

theorem Parsed.book {command : CString} {t : Kernel} (h : Parsed s command t) :
    t.book = s.book := by
  simp only [Kernel.book, h.processNum, h.scheduleIdx, h.pitCount, h.scheduleArray, h.currPid, h.pcb]

/-- **`execute`** of a program that is launched. -/
theorem Launches.book {command : CString} {frame : Frame} {pid : ℤ}
    (h : s.Launches fs command frame pid) :
    (s.execute fs command frame).2.book = s.book.launch pid := by
  obtain ⟨t, entryPoint, isShellFlag, hparsed, -, heq⟩ := h
  rw [heq]
  have hflag : (t.pagingExecute pid).shellHaltFlag = false := hparsed.shellHaltFlag
  rw [(launch_book (t.pagingExecute pid) hflag).2, pagingExecute_book, hparsed.book]

/-- **`execute`** of a program that is not. -/
theorem Stops.book {command : CString} {frame : Frame} (h : s.Stops fs command frame) :
    (s.execute fs command frame).2.book = s.book :=
  Parsed.book s h.2

/-! ### Ending a process -/

theorem setActive_book (pid : ℤ) (active : Bool) :
    (s.setActive pid active).book = s.book.modifyPcb pid fun p => { p with active := active } :=
  s.modifyPcb_book _ fun _ => rfl

theorem resumeParent_book (pid : ℤ) : (runAll (resumeParent pid) s).book = s.book.halt pid := by
  have hpcb : ((s.setActive pid false).setActive (s.pcb pid).parentId true).book
      = (s.book.modifyPcb pid fun p => { p with active := false }).modifyPcb (s.pcb pid).parentId
        fun p => { p with active := true } := by
    rw [setActive_book, setActive_book]
  rw [resumeParent_eq]
  ext1
  · rfl
  · rfl
  · rfl
  · rfl
  · rfl
  · have h := congrArg Book.pcb hpcb
    exact h

/-- **The halt of a process that is not a base shell.** -/
theorem halt_book_of_not_baseShell (status : ℤ) (frame : Frame)
    (h : (s.pcb s.processNum).isBaseShell = false) :
    (s.halt status frame).book = s.book.halt s.processNum := by
  simp only [halt]
  rw [if_pos h, haltCode_eq, resumeParent_book, closeCode_book]
  rfl

/-- A base shell that halts is launched again when its descriptors are closed, which the
bookkeeping does not see. -/
theorem halt_eq_launch (status : ℤ) (frame : Frame)
    (h : (s.pcb s.processNum).isBaseShell = true) : ∃ pcb flag,
      ({ s.beforeRestart s.processNum status with pcb := pcb, interruptFlag := flag } :
        Kernel).book = s.book ∧
      (pcb s.processNum).pid = (s.pcb s.processNum).pid ∧
      s.halt status frame = (launch
        { s.beforeRestart s.processNum status with
          pcb := pcb, interruptFlag := flag, baseShellId := (pcb s.processNum).pid }
        0 (pcb s.processNum).entryPoint frame.isShellFlag frame).2 := by
  obtain ⟨pcb, flag, hclose⟩ := closeCode_frame (s.beforeRestart s.processNum status) s.processNum
  have hbook := closeCode_book (s.beforeRestart s.processNum status) s.processNum
  rw [hclose] at hbook
  refine ⟨pcb, flag, hbook, congrArg (fun b : Book => (b.pcb s.processNum).pid) hbook, ?_⟩
  simp only [halt]
  rw [if_neg (by simp [h]), restartCode_eq, hclose]

/-- **The halt of a base shell** restarts it. -/
theorem halt_book_of_baseShell (status : ℤ) (frame : Frame)
    (h : (s.pcb s.processNum).isBaseShell = true) :
    (s.halt status frame).book = s.book.restart (s.pcb s.processNum).pid := by
  obtain ⟨pcb, flag, hbook, hpid, hhalt⟩ := s.halt_eq_launch status frame h
  rw [hhalt, restart_book _ rfl]
  dsimp only
  rw [hpid]
  exact congrArg (fun b : Book => b.restart (s.pcb s.processNum).pid) hbook

/-- The fields outside the bookkeeping that the halt of an ordinary process sets. -/
theorem halt_frame (status : ℤ) (frame : Frame) (h : (s.pcb s.processNum).isBaseShell = false) :
    (s.halt status frame).processNum = (s.pcb s.processNum).parentId ∧
      (s.halt status frame).tssEsp0 = kernelStack (s.pcb s.processNum).parentId ∧
      (s.halt status frame).pageDir
        = (s.pagingExecute (s.pcb s.processNum).parentId).disableChildPage.pageDir ∧
      (s.halt status frame).storedBuf = s.storedBuf := by
  simp only [halt]
  rw [if_pos h, haltCode_eq, resumeParent_eq]
  obtain ⟨pcb, flag, hclose⟩ := closeCode_frame (s.beforeClose s.processNum status) s.processNum
  have hbook := closeCode_book (s.beforeClose s.processNum status) s.processNum
  rw [hclose] at hbook ⊢
  have hparent : (pcb s.processNum).parentId = (s.pcb s.processNum).parentId :=
    congrArg (fun b : Book => (b.pcb s.processNum).parentId) hbook
  exact ⟨hparent, rfl, rfl, rfl⟩

/-- The same fields after the halt of a base shell. -/
theorem restart_frame (status : ℤ) (frame : Frame) (h : (s.pcb s.processNum).isBaseShell = true) :
    (s.halt status frame).processNum = (s.pcb s.processNum).pid ∧
      (s.halt status frame).tssEsp0 = kernelStack (s.pcb s.processNum).pid ∧
      (s.halt status frame).pageDir = s.pageDir ∧
      (s.halt status frame).storedBuf = s.storedBuf := by
  obtain ⟨pcb, flag, -, hpid, hhalt⟩ := s.halt_eq_launch status frame h
  obtain ⟨pcb', array, curr, count, hlaunch⟩ := launch_frame
    { s.beforeRestart s.processNum status with
      pcb := pcb, interruptFlag := flag, baseShellId := (pcb s.processNum).pid }
    0 (pcb s.processNum).entryPoint frame.isShellFlag frame
  rw [hhalt, hlaunch]
  exact ⟨hpid, congrArg kernelStack hpid, rfl, rfl⟩

/-! ### The scheduler -/

theorem finishBoot_book : s.finishBoot.book = s.book.finishBoot := by
  unfold finishBoot Book.finishBoot
  by_cases h : s.pitCount = 3
  · rw [if_pos h, if_pos (show s.book.pitCount = 3 from h)]
    have hb := s.modifyPcb_book s.processNum
      (f := fun p => { p with isShell := true, isBaseShell := true, parentId := -1, active := true })
      (g := fun p => { p with isBaseShell := true, parentId := -1, active := true }) fun _ => rfl
    exact congrArg (fun b : Book => { b with pitCount := s.pitCount + 1 }) hb
  · rw [if_neg h, if_neg (show ¬ s.book.pitCount = 3 from h)]

theorem switchProcess_book : s.switchProcess.book = s.book.rotate := rfl

/-- **A tick once the three shells run.** -/
theorem scheduler_book (frame : Frame) (h : 3 ≤ s.pitCount) :
    (s.scheduler fs frame).book = s.book.finishBoot.rotate := by
  rw [scheduler, if_neg (by omega), if_neg (by omega), switchProcess_book, finishBoot_book,
    saveContext_book]

/-- **The second and third tick**, up to the shell they start. -/
theorem nextTerminal_book : s.nextTerminal.book = s.book.nextTerminal := by
  have hb := s.saveContext.modifyPcb_book s.processNum
    (f := fun p => { p with isShell := true, active := true })
    (g := fun p => { p with active := true }) fun _ => rfl
  rw [saveContext_book] at hb
  exact congrArg (fun b : Book => { b with scheduleIdx := s.scheduleIdx + 1 }) hb

end Kernel

end OS391
