/-
# What the operations leave alone

`Bookkeeping` says what the operations do to the records of who runs where; this module
is about the rest of the state.  `open` and `close` change nothing of a PCB but its
descriptors (`Reopens`), and no PCB but those of the process that calls (`Spares`).  A start
changes the PCB it starts and no other (`launch_pcb`), a halt changes no more than descriptors
and `active`, and neither touches the registers that the scheduler saved (`SameSaved`).  Only
`vidmap`, the scheduler and the keyboard change the page table behind the screen, the number of
the visible terminal or whose turn it is (`SameVideo`).  None of them touches the masks of the
interrupt controllers (`SameMasks`).
-/

import OS391.Bookkeeping
import OS391.KeyInput

namespace OS391

open Lib

/-! ### Descriptors only -/

/-- `q` is the PCB `p` with other descriptors. -/
def Pcb.Reopened (p q : Pcb) : Prop := ∃ d, q = { p with fileDescriptor := d }

theorem Pcb.Reopened.refl (p : Pcb) : p.Reopened p := ⟨p.fileDescriptor, rfl⟩

theorem Pcb.Reopened.trans {p q r : Pcb} (h : p.Reopened q) (h' : q.Reopened r) :
    p.Reopened r := by
  obtain ⟨_, rfl⟩ := h
  obtain ⟨d, rfl⟩ := h'
  exact ⟨d, rfl⟩

namespace Kernel

variable {fs : FileSys} {s t u : Kernel} {pid : ℤ}

/-- No PCB changed but for its descriptors. -/
def Reopens (s t : Kernel) : Prop := ∀ q, (s.pcb q).Reopened (t.pcb q)

theorem Reopens.trans (h : s.Reopens t) (h' : t.Reopens u) : s.Reopens u :=
  fun q => (h q).trans (h' q)

theorem reopens_of_pcb_eq (h : t.pcb = s.pcb) : s.Reopens t := by
  intro q
  rw [h]
  exact .refl _

theorem reopens_modifyDescriptor (s : Kernel) (pid fd : ℤ) (f : FileDescriptor → FileDescriptor) :
    s.Reopens (s.modifyDescriptor pid fd f) := by
  intro q
  unfold modifyDescriptor
  rw [modifyPcb_pcb]
  split_ifs with hq
  · rw [hq]
    exact ⟨_, rfl⟩
  · exact .refl _

theorem reopens_openDescriptor (fs : FileSys) (s : Kernel) (pid : ℤ) (fop : FopTable)
    (fileType : ℕ) (inodeOf : Dentry → ℕ) (filename : CString) :
    s.Reopens (s.openDescriptor fs pid fop fileType inodeOf filename).2 := by
  unfold openDescriptor
  split
  · exact reopens_of_pcb_eq rfl
  · split
    · exact reopens_of_pcb_eq rfl
    · split_ifs
      · exact reopens_of_pcb_eq rfl
      · dsimp only
        exact s.reopens_modifyDescriptor _ _ _
      · exact reopens_of_pcb_eq rfl

theorem reopens_openCall (fs : FileSys) (s : Kernel) (filename : Option CString) (junk : ℤ) :
    s.Reopens (s.openCall fs filename junk).2 := by
  unfold openCall
  split
  · exact reopens_of_pcb_eq rfl
  · split
    · exact reopens_of_pcb_eq rfl
    · dsimp only
      split_ifs
      · exact reopens_openDescriptor fs s.cli.cli.resetRtc _ _ _ _ _
      · exact reopens_openDescriptor fs s.cli _ _ _ _ _
      · exact reopens_openDescriptor fs s.cli _ _ _ _ _
      · exact reopens_of_pcb_eq rfl

theorem reopens_closeDescriptor (s : Kernel) (pid fd freeResult : ℤ) :
    s.Reopens (s.closeDescriptor pid fd freeResult).2 := by
  unfold closeDescriptor
  split_ifs
  · exact reopens_of_pcb_eq rfl
  · dsimp only
    exact s.reopens_modifyDescriptor _ _ _
  · exact reopens_of_pcb_eq rfl

theorem reopens_closeHandler (s : Kernel) (fop : FopTable) (fd : ℤ) :
    s.Reopens (s.closeHandler fop fd).2 := by
  cases fop with
  | stdin | stdout => exact reopens_of_pcb_eq rfl
  | rtc => exact s.cli.reopens_closeDescriptor _ _ _
  | directory | file => exact s.reopens_closeDescriptor _ _ _

theorem reopens_close (s : Kernel) (fd : ℤ) : s.Reopens (s.close fd).2 := by
  unfold close
  dsimp only
  split_ifs
  · exact reopens_of_pcb_eq rfl
  · exact s.cli.reopens_closeHandler _ fd

theorem reopens_closeIfOpen (s : Kernel) (pid i : ℤ) : s.Reopens (s.closeIfOpen pid i) := by
  unfold closeIfOpen
  split_ifs
  · exact s.reopens_closeHandler _ i
  · exact reopens_of_pcb_eq rfl

/-- **The close loop of a halt** changes descriptors only. -/
theorem reopens_closeCode (s : Kernel) (pid : ℤ) : s.Reopens (runAll (closeCode pid) s) :=
  runAll_invariant (P := fun t : Kernel => s.Reopens t)
    (fun f hf t ht => by
      obtain ⟨i, _, rfl⟩ := List.mem_map.1 hf
      exact ht.trans (t.reopens_closeIfOpen pid i))
    (reopens_of_pcb_eq rfl)

/-! ### The PCBs of other processes -/

/-- No PCB changed but those that system calls work on. -/
def Spares (s t : Kernel) : Prop :=
  ∀ q, q ≠ s.processNum → q ≠ s.scheduledPid → t.pcb q = s.pcb q

theorem spares_of_pcb_eq (h : t.pcb = s.pcb) : s.Spares t := fun q _ _ => congrFun h q

theorem Spares.trans (h : s.Spares t) (hbook : t.book = s.book) (h' : t.Spares u) :
    s.Spares u := by
  intro q hnum hsched
  have hnum' : t.processNum = s.processNum := congrArg Book.processNum hbook
  have hsched' : t.scheduledPid = s.scheduledPid :=
    congrArg (fun b : Book => b.currPid b.scheduleIdx) hbook
  rw [h' q (hnum'.symm ▸ hnum) (hsched'.symm ▸ hsched), h q hnum hsched]

theorem modifyDescriptor_pcb_of_ne (s : Kernel) {pid q : ℤ} (fd : ℤ)
    (f : FileDescriptor → FileDescriptor) (hq : q ≠ pid) :
    (s.modifyDescriptor pid fd f).pcb q = s.pcb q := modifyPcb_pcb_of_ne hq

theorem openDescriptor_pcb_of_ne (fs : FileSys) (s : Kernel) {pid q : ℤ} (fop : FopTable)
    (fileType : ℕ) (inodeOf : Dentry → ℕ) (filename : CString) (hq : q ≠ pid) :
    (s.openDescriptor fs pid fop fileType inodeOf filename).2.pcb q = s.pcb q := by
  unfold openDescriptor
  split
  · rfl
  · split
    · rfl
    · split_ifs
      · rfl
      · dsimp only
        exact s.modifyDescriptor_pcb_of_ne _ _ hq
      · rfl

theorem spares_openCall (fs : FileSys) (s : Kernel) (filename : Option CString) (junk : ℤ) :
    s.Spares (s.openCall fs filename junk).2 := by
  intro q hnum hsched
  unfold openCall
  split
  · rfl
  · split
    · rfl
    · dsimp only
      split_ifs
      · exact openDescriptor_pcb_of_ne fs s.cli.cli.resetRtc _ _ _ _ hsched
      · exact openDescriptor_pcb_of_ne fs s.cli _ _ _ _ hnum
      · exact openDescriptor_pcb_of_ne fs s.cli _ _ _ _ hnum
      · rfl

theorem closeDescriptor_pcb_of_ne (s : Kernel) {pid q : ℤ} (fd freeResult : ℤ) (hq : q ≠ pid) :
    (s.closeDescriptor pid fd freeResult).2.pcb q = s.pcb q := by
  unfold closeDescriptor
  split_ifs
  · rfl
  · dsimp only
    exact s.modifyDescriptor_pcb_of_ne _ _ hq
  · rfl

theorem spares_closeHandler (s : Kernel) (fop : FopTable) (fd : ℤ) :
    s.Spares (s.closeHandler fop fd).2 := by
  intro q hnum hsched
  cases fop with
  | stdin | stdout => rfl
  | rtc => exact s.cli.closeDescriptor_pcb_of_ne _ _ hsched
  | directory | file => exact s.closeDescriptor_pcb_of_ne _ _ hnum

theorem spares_close (s : Kernel) (fd : ℤ) : s.Spares (s.close fd).2 := by
  unfold close
  dsimp only
  split_ifs
  · exact spares_of_pcb_eq rfl
  · exact s.cli.spares_closeHandler _ fd

theorem spares_closeIfOpen (s : Kernel) (pid i : ℤ) : s.Spares (s.closeIfOpen pid i) := by
  unfold closeIfOpen
  split_ifs
  · exact s.spares_closeHandler _ i
  · exact spares_of_pcb_eq rfl

/-- **The close loop of a halt** leaves the PCBs of other processes alone. -/
theorem spares_closeCode (s : Kernel) (pid : ℤ) : s.Spares (runAll (closeCode pid) s) :=
  (runAll_invariant (P := fun t : Kernel => t.book = s.book ∧ s.Spares t)
    (fun f hf t ht => by
      obtain ⟨i, _, rfl⟩ := List.mem_map.1 hf
      exact ⟨(t.closeIfOpen_book pid i).trans ht.1, ht.2.trans ht.1 (t.spares_closeIfOpen pid i)⟩)
    ⟨rfl, spares_of_pcb_eq rfl⟩).2

/-! ### Starting a process -/

/-- `enqueue` changes where the process stands, not what it is. -/
theorem enqueue_pcb (s : Kernel) (pid q : ℤ) :
    ∃ terminalNum isBaseShell parentId, (s.enqueue pid).pcb q
      = { s.pcb q with
          terminalNum := terminalNum, isBaseShell := isBaseShell, parentId := parentId } := by
  have hmodify (f : Pcb → Pcb) (hf : ∀ p : Pcb, ∃ terminalNum isBaseShell parentId, f p
      = { p with terminalNum := terminalNum, isBaseShell := isBaseShell, parentId := parentId }) :
      ∃ terminalNum isBaseShell parentId, (s.modifyPcb pid f).pcb q
        = { s.pcb q with
            terminalNum := terminalNum, isBaseShell := isBaseShell, parentId := parentId } := by
    rw [modifyPcb_pcb]
    split_ifs with hq
    · rw [hq]
      exact hf _
    · exact ⟨_, _, _, rfl⟩
  unfold enqueue
  split_ifs
  · exact hmodify _ fun _ => ⟨_, _, _, rfl⟩
  · exact hmodify _ fun p => ⟨_, p.isBaseShell, p.parentId, rfl⟩

theorem enqueue_pcb_of_ne {q : ℤ} (hq : q ≠ pid) : (s.enqueue pid).pcb q = s.pcb q := by
  unfold enqueue enqueueBaseShell schedule
  split_ifs
  · dsimp only
    exact modifyPcb_pcb_of_ne hq
  · dsimp only
    exact modifyPcb_pcb_of_ne hq

/-- What a start does to the PCBs. -/
structure PcbStarted (s t : Kernel) (pid : ℤ) (isShellFlag : Bool) : Prop where
  others : ∀ q, q ≠ pid → t.pcb q = s.pcb q
  active : (t.pcb pid).active = true
  isShell : (t.pcb pid).isShell = isShellFlag
  savedEsp : (t.pcb pid).savedEsp = (s.pcb pid).savedEsp
  savedEbp : (t.pcb pid).savedEbp = (s.pcb pid).savedEbp

/-- **`launch`** changes the PCB of the process it starts, and there not the registers the
scheduler saved. -/
theorem launch_pcb (s : Kernel) (localProcessNum : ℤ) (entryPoint : ℕ) (isShellFlag : Bool)
    (frame : Frame) :
    s.PcbStarted (s.launch localProcessNum entryPoint isShellFlag frame).2
      (if s.shellHaltFlag then s.baseShellId else localProcessNum) isShellFlag := by
  simp only [launch]
  generalize (if s.shellHaltFlag then s.baseShellId else localProcessNum) = pid
  have hinit (q : ℤ) : (q ≠ pid → (s.initPcb pid entryPoint).pcb q = s.pcb q) ∧
      ((s.initPcb pid entryPoint).pcb pid).savedEsp = (s.pcb pid).savedEsp ∧
      ((s.initPcb pid entryPoint).pcb pid).savedEbp = (s.pcb pid).savedEbp := by
    unfold initPcb modifyPcb
    split_ifs
    · refine ⟨fun hq => Function.update_of_ne hq _ _, ?_, ?_⟩ <;>
        simp only [Function.update_self]
    · refine ⟨fun hq => Function.update_of_ne hq _ _, ?_, ?_⟩ <;>
        simp only [Function.update_self]
  set u := s.initPcb pid entryPoint
  set v := u.modifyPcb pid fun p => setupPcb p pid u.processNum frame isShellFlag with hv
  have hself : v.pcb pid = setupPcb (u.pcb pid) pid u.processNum frame isShellFlag := by
    rw [hv, modifyPcb_pcb_self]
  obtain ⟨terminalNum, isBaseShell, parentId, hqueue⟩ := v.enqueue_pcb pid pid
  rw [hself] at hqueue
  have hstart : (u.start pid isShellFlag frame).pcb = (v.enqueue pid).pcb := rfl
  refine ⟨fun q hq => ?_, ?_, ?_, ?_, ?_⟩ <;> rw [hstart]
  · rw [enqueue_pcb_of_ne hq, hv, modifyPcb_pcb_of_ne hq]
    exact (hinit q).1 hq
  · rw [hqueue]
    rfl
  · rw [hqueue]
    rfl
  · rw [hqueue]
    exact (hinit pid).2.1
  · rw [hqueue]
    exact (hinit pid).2.2

/-- **A process that `execute` launches.** -/
theorem Launches.pcbStarted {command : CString} {frame : Frame}
    (h : s.Launches fs command frame pid) :
    ∃ isShellFlag, s.PcbStarted (s.execute fs command frame).2 pid isShellFlag := by
  obtain ⟨t, entryPoint, isShellFlag, hparsed, -, heq⟩ := h
  have hflag : (t.pagingExecute pid).shellHaltFlag = false := hparsed.shellHaltFlag
  have hpcb : (t.pagingExecute pid).pcb = s.pcb := hparsed.pcb
  have hlaunch := (t.pagingExecute pid).launch_pcb pid entryPoint isShellFlag frame
  simp only [hflag, Bool.false_eq_true, if_false] at hlaunch
  rw [heq]
  refine ⟨isShellFlag, fun q hq => ?_, hlaunch.active, hlaunch.isShell, ?_, ?_⟩
  · rw [hlaunch.others q hq, hpcb]
  · rw [hlaunch.savedEsp, hpcb]
  · rw [hlaunch.savedEbp, hpcb]

/-! ### The registers that the scheduler saved -/

/-- The saved registers of every process are as before. -/
def SameSaved (s t : Kernel) : Prop :=
  ∀ q, (t.pcb q).savedEsp = (s.pcb q).savedEsp ∧ (t.pcb q).savedEbp = (s.pcb q).savedEbp

theorem SameSaved.trans (h : s.SameSaved t) (h' : t.SameSaved u) : s.SameSaved u :=
  fun q => ⟨(h' q).1.trans (h q).1, (h' q).2.trans (h q).2⟩

theorem sameSaved_of_pcb_eq (h : t.pcb = s.pcb) : s.SameSaved t := by
  intro q
  rw [h]
  exact ⟨rfl, rfl⟩

theorem Reopens.sameSaved (h : s.Reopens t) : s.SameSaved t := by
  intro q
  obtain ⟨d, hq⟩ := h q
  rw [hq]
  exact ⟨rfl, rfl⟩

theorem PcbStarted.sameSaved {isShellFlag : Bool} (h : s.PcbStarted t pid isShellFlag) :
    s.SameSaved t := by
  intro q
  by_cases hq : q = pid
  · rw [hq]
    exact ⟨h.savedEsp, h.savedEbp⟩
  · rw [h.others q hq]
    exact ⟨rfl, rfl⟩

/-- The end of a halt changes nothing of a PCB but `active`. -/
theorem resumeParent_pcb (s : Kernel) (pid q : ℤ) :
    ∃ active, (runAll (resumeParent pid) s).pcb q = { s.pcb q with active := active } := by
  rw [resumeParent_eq]
  refine ⟨(((s.setActive pid false).setActive (s.pcb pid).parentId true).pcb q).active, ?_⟩
  have h := (s.setActive pid false).setActive_pcb (s.pcb pid).parentId q true
  rw [s.setActive_pcb pid q false] at h
  exact h

/-- **A halt** of a process that is not a base shell changes nothing of a PCB but its
descriptors and `active`. -/
theorem halt_pcb (s : Kernel) (status : ℤ) (frame : Frame)
    (h : (s.pcb s.processNum).isBaseShell = false) (q : ℤ) :
    ∃ d active, (s.halt status frame).pcb q
      = { s.pcb q with fileDescriptor := d, active := active } := by
  have hclose := (s.beforeClose s.processNum status).reopens_closeCode s.processNum q
  simp only [halt]
  rw [if_pos h, haltCode_eq]
  obtain ⟨active, hq⟩ := (runAll (closeCode s.processNum)
    (s.beforeClose s.processNum status)).resumeParent_pcb s.processNum q
  obtain ⟨d, hd⟩ := hclose
  rw [hq, hd]
  exact ⟨d, active, rfl⟩

/-- **A halt** of a process that is not a base shell leaves alone the PCBs of all but itself and
its parent. -/
theorem halt_pcb_of_ne (s : Kernel) (status : ℤ) (frame : Frame)
    (h : (s.pcb s.processNum).isBaseShell = false) {q : ℤ} (hnum : q ≠ s.processNum)
    (hsched : q ≠ s.scheduledPid) (hparent : q ≠ (s.halt status frame).processNum) :
    (s.halt status frame).pcb q = s.pcb q := by
  have hclose := (s.beforeClose s.processNum status).spares_closeCode s.processNum q hnum hsched
  simp only [halt] at hparent ⊢
  rw [if_pos h, haltCode_eq, resumeParent_eq] at hparent ⊢
  set u := runAll (closeCode s.processNum) (s.beforeClose s.processNum status)
  dsimp only at hparent ⊢
  rw [setActive, modifyPcb_pcb_of_ne hparent, setActive, modifyPcb_pcb_of_ne hnum]
  exact hclose

/-- **The restart of a base shell** closes descriptors, and starts its process. -/
theorem restart_pcbStarted (s : Kernel) (status : ℤ) (frame : Frame)
    (h : (s.pcb s.processNum).isBaseShell = true) :
    ∃ t, s.Reopens t ∧ s.Spares t ∧
      t.PcbStarted (s.halt status frame) (s.pcb s.processNum).pid frame.isShellFlag := by
  have hclose := (s.beforeRestart s.processNum status).reopens_closeCode s.processNum
  have hspares := (s.beforeRestart s.processNum status).spares_closeCode s.processNum
  simp only [halt]
  rw [if_neg (by simp [h]), restartCode_eq]
  obtain ⟨pcb, flag, hframe⟩ := closeCode_frame (s.beforeRestart s.processNum status) s.processNum
  rw [hframe] at hclose hspares ⊢
  have hreopens : s.Reopens { s.beforeRestart s.processNum status with
      pcb := pcb, interruptFlag := flag, baseShellId := (pcb s.processNum).pid } := hclose
  have hpid : (pcb s.processNum).pid = (s.pcb s.processNum).pid := by
    obtain ⟨d, hd⟩ := hclose s.processNum
    have hpid := congrArg Pcb.pid hd
    exact hpid
  refine ⟨_, hreopens, hspares, ?_⟩
  rw [← hpid]
  exact launch_pcb _ 0 _ frame.isShellFlag frame

/-- **No halt** touches the saved registers. -/
theorem sameSaved_halt (s : Kernel) (status : ℤ) (frame : Frame) :
    s.SameSaved (s.halt status frame) := by
  cases hbase : (s.pcb s.processNum).isBaseShell with
  | false =>
    intro q
    obtain ⟨d, active, hq⟩ := s.halt_pcb status frame hbase q
    rw [hq]
    exact ⟨rfl, rfl⟩
  | true =>
    obtain ⟨t, hreopens, -, hstarted⟩ := s.restart_pcbStarted status frame hbase
    exact hreopens.sameSaved.trans hstarted.sameSaved

/-! ### The scheduler -/

/-- **A tick after the boot** in one step: the registers are saved, and the next terminal has
its turn. -/
theorem scheduler_eq (fs : FileSys) (s : Kernel) (frame : Frame) (h : s.pitCount = 4) :
    s.scheduler fs frame = s.saveContext.switchProcess := by
  have hfinish : s.saveContext.finishBoot = s.saveContext :=
    if_neg (show ¬ s.pitCount = 3 by omega)
  rw [scheduler, if_neg (by omega), if_neg (by omega), hfinish]

/-- It changes nothing of a PCB but the saved registers. -/
theorem scheduler_pcb (fs : FileSys) (s : Kernel) (frame : Frame) (h : s.pitCount = 4) (q : ℤ) :
    (s.scheduler fs frame).pcb q =
      if q = s.processNum then { s.pcb q with savedEsp := s.esp, savedEbp := s.ebp }
      else s.pcb q := by
  rw [scheduler_eq fs s frame h]
  show s.saveContext.pcb q = _
  unfold saveContext
  rw [modifyPcb_pcb]
  split_ifs with hq
  · rw [hq]
  · rfl

/-! ### The screen of the running process -/

/-- The same page table behind the video mapping, the same terminal visible, and the same
terminal's turn. -/
structure SameVideo (s t : Kernel) : Prop where
  table : t.vidmapPageTable = s.vidmapPageTable
  addr : t.vidmapPageTableAddr = s.vidmapPageTableAddr
  visible : t.console.terminalNum = s.console.terminalNum
  scheduleIdx : t.scheduleIdx = s.scheduleIdx

theorem sameVideo_launch (s : Kernel) (localProcessNum : ℤ) (entryPoint : ℕ) (isShellFlag : Bool)
    (frame : Frame) : s.SameVideo (s.launch localProcessNum entryPoint isShellFlag frame).2 := by
  obtain ⟨pcb, array, curr, count, h⟩ := s.launch_frame localProcessNum entryPoint isShellFlag frame
  rw [h]
  exact ⟨rfl, rfl, rfl, rfl⟩

/-- **`execute`** leaves the screen of the running process, whatever it returns. -/
theorem sameVideo_execute (fs : FileSys) (s : Kernel) (command : CString) (frame : Frame) :
    s.SameVideo (s.execute fs command frame).2 := by
  have hload (t : Kernel) (fileName : CString) : t.SameVideo (t.load fs fileName frame).2 := by
    unfold load
    split
    · exact ⟨rfl, rfl, rfl, rfl⟩
    · dsimp only
      split_ifs
      · exact ⟨rfl, rfl, rfl, rfl⟩
      · exact ⟨rfl, rfl, rfl, rfl⟩
      · obtain ⟨htable, haddr, hvisible, hidx⟩ := sameVideo_launch (t.pagingExecute
          (t.findPcb (maxPcb - t.processNum).toNat t.processNum + 1)) _ _ _ frame
        exact ⟨htable, haddr, hvisible, hidx⟩
  simp only [execute]
  split_ifs
  · exact ⟨rfl, rfl, (Console.sameLines_printf _ _).num, rfl⟩
  · obtain ⟨htable, haddr, hvisible, hidx⟩ :=
      hload ((s.parseCommand command).setFlags (getFileName command)) (getFileName command)
    exact ⟨htable, haddr, hvisible, hidx⟩

/-- **A halt** leaves it. -/
theorem sameVideo_halt (s : Kernel) (status : ℤ) (frame : Frame) :
    s.SameVideo (s.halt status frame) := by
  simp only [halt]
  split_ifs with hbase
  · rw [haltCode_eq, resumeParent_eq]
    obtain ⟨pcb, flag, hclose⟩ := closeCode_frame (s.beforeClose s.processNum status) s.processNum
    rw [hclose]
    exact ⟨rfl, rfl, rfl, rfl⟩
  · rw [restartCode_eq]
    obtain ⟨pcb, flag, hclose⟩ := closeCode_frame (s.beforeRestart s.processNum status) s.processNum
    rw [hclose]
    obtain ⟨htable, haddr, hvisible, hidx⟩ := sameVideo_launch
      { s.beforeRestart s.processNum status with
        pcb := pcb, interruptFlag := flag, baseShellId := (pcb s.processNum).pid }
      0 (pcb s.processNum).entryPoint frame.isShellFlag frame
    exact ⟨htable, haddr, hvisible, hidx⟩

theorem sameVideo_getargs (s : Kernel) (buf : ℕ → UInt8) (nbytes : ℤ) :
    s.SameVideo (s.getargs buf nbytes).kernel := by
  simp only [getargs]
  split_ifs
  · exact ⟨rfl, rfl, rfl, rfl⟩
  · exact ⟨rfl, rfl, (Console.sameLines_printf _ _).num, rfl⟩
  · exact ⟨rfl, rfl, rfl, rfl⟩
  · exact ⟨rfl, rfl, rfl, rfl⟩

theorem sameVideo_openCall (fs : FileSys) (s : Kernel) (filename : Option CString) (junk : ℤ) :
    s.SameVideo (s.openCall fs filename junk).2 := by
  obtain ⟨pcb, rtc, flag, h⟩ := s.openCall_frame fs filename junk
  rw [h]
  exact ⟨rfl, rfl, rfl, rfl⟩

theorem sameVideo_close (s : Kernel) (fd : ℤ) : s.SameVideo (s.close fd).2 := by
  obtain ⟨pcb, flag, h⟩ := s.close_frame fd
  rw [h]
  exact ⟨rfl, rfl, rfl, rfl⟩

/-! ### The masks -/

/-- The masks are as before. -/
def SameMasks (s t : Kernel) : Prop := t.masterMask = s.masterMask ∧ t.slaveMask = s.slaveMask

theorem SameMasks.trans (h : s.SameMasks t) (h' : t.SameMasks u) : s.SameMasks u :=
  ⟨h'.1.trans h.1, h'.2.trans h.2⟩

theorem sameMasks_launch (s : Kernel) (localProcessNum : ℤ) (entryPoint : ℕ)
    (isShellFlag : Bool) (frame : Frame) :
    s.SameMasks (s.launch localProcessNum entryPoint isShellFlag frame).2 := by
  obtain ⟨pcb, array, curr, count, h⟩ := s.launch_frame localProcessNum entryPoint isShellFlag frame
  rw [h]
  exact ⟨rfl, rfl⟩

theorem sameMasks_execute (fs : FileSys) (s : Kernel) (command : CString) (frame : Frame) :
    s.SameMasks (s.execute fs command frame).2 := by
  have hload (t : Kernel) (fileName : CString) : t.SameMasks (t.load fs fileName frame).2 := by
    unfold load
    split
    · exact ⟨rfl, rfl⟩
    · dsimp only
      split_ifs
      · exact ⟨rfl, rfl⟩
      · exact ⟨rfl, rfl⟩
      · obtain ⟨hmaster, hslave⟩ := sameMasks_launch (t.pagingExecute
          (t.findPcb (maxPcb - t.processNum).toNat t.processNum + 1)) _ _ _ frame
        exact ⟨hmaster, hslave⟩
  simp only [execute]
  split_ifs
  · exact ⟨rfl, rfl⟩
  · obtain ⟨hmaster, hslave⟩ :=
      hload ((s.parseCommand command).setFlags (getFileName command)) (getFileName command)
    exact ⟨hmaster, hslave⟩

theorem sameMasks_halt (s : Kernel) (status : ℤ) (frame : Frame) :
    s.SameMasks (s.halt status frame) := by
  simp only [halt]
  split_ifs
  · rw [haltCode_eq, resumeParent_eq]
    obtain ⟨pcb, flag, hclose⟩ := closeCode_frame (s.beforeClose s.processNum status) s.processNum
    rw [hclose]
    exact ⟨rfl, rfl⟩
  · rw [restartCode_eq]
    obtain ⟨pcb, flag, hclose⟩ := closeCode_frame (s.beforeRestart s.processNum status) s.processNum
    rw [hclose]
    exact sameMasks_launch
      { s.beforeRestart s.processNum status with
        pcb := pcb, interruptFlag := flag, baseShellId := (pcb s.processNum).pid }
      0 (pcb s.processNum).entryPoint frame.isShellFlag frame

theorem sameMasks_scheduler (fs : FileSys) (s : Kernel) (frame : Frame) :
    s.SameMasks (s.scheduler fs frame) := by
  have hnext : s.SameMasks s.nextTerminal := ⟨rfl, rfl⟩
  unfold scheduler
  split_ifs
  · exact sameMasks_execute fs (s.modifyConsole fun c => c.clear.switchTerminals 0 0) _ frame
  · exact hnext.trans (sameMasks_execute fs s.nextTerminal _ frame)
  · have hboot : s.SameMasks s.saveContext.finishBoot := by
      unfold finishBoot
      split_ifs <;> exact ⟨rfl, rfl⟩
    exact hboot

end Kernel

/-- **The operations of the system** leave the masks. -/
theorem Step.sameMasks {fs : FileSys} {s t : Kernel} {e : Event} (h : Step fs s e t) :
    s.SameMasks t := by
  cases h with
  | tick esp ebp frame => exact Kernel.sameMasks_scheduler fs (s.withRegisters esp ebp) frame
  | execute _ command frame => exact s.sameMasks_execute fs command frame
  | systemHalt _ status frame => exact s.sameMasks_halt _ frame
  | exceptionHalt _ status frame => exact s.sameMasks_halt _ frame
  | getargs _ buf nbytes =>
    obtain ⟨stored, console, flag, h⟩ := s.getargs_frame buf nbytes
    rw [h]
    exact ⟨rfl, rfl⟩
  | openCall _ filename junk =>
    obtain ⟨pcb, rtc, flag, h⟩ := s.openCall_frame fs filename junk
    rw [h]
    exact ⟨rfl, rfl⟩
  | close _ fd =>
    obtain ⟨pcb, flag, h⟩ := s.close_frame fd
    rw [h]
    exact ⟨rfl, rfl⟩
  | vidmap _ screenStart =>
    obtain ⟨dir, table, flag, h, -⟩ := s.vidmap_frame screenStart
    rw [h]
    exact ⟨rfl, rfl⟩
  | switchTerminals next => exact ⟨rfl, rfl⟩

end OS391
