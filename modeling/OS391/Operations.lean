/-
# What starting and ending a process can do

One inversion lemma for each of the larger operations, so that no invariant has to open
them again.

`execute_cases`: a call of `execute` parses the command (`Parsed` lists what is as
before and what is not), and then stops or launches a process in a free PCB.
`findPcb_spec` is the search for that PCB.  A halt is `haltCode_eq` and `resumeParent_eq`,
or `restartCode_eq`, around the loop over the descriptors.  The theorems `..._frame` say
which fields the other operations can change.
-/

import OS391.System

namespace OS391

open Lib

namespace Kernel

variable (fs : FileSys) (s : Kernel)

/-! ### `execute` -/

/-- **The search for a PCB** stops at the first free one above, or at `MAX_PCB`. -/
theorem findPcb_spec (k : ℕ) (temp : ℤ) (hk : temp + k = maxPcb) :
    temp ≤ s.findPcb k temp ∧ s.findPcb k temp ≤ maxPcb ∧
      (∀ q, temp < q → q ≤ s.findPcb k temp → (s.pcb q).active = true) ∧
      (s.findPcb k temp ≠ maxPcb → (s.pcb (s.findPcb k temp + 1)).active = false) := by
  induction k generalizing temp with
  | zero =>
    rw [findPcb]
    exact ⟨Int.le_refl _, by omega, fun q h h' => by omega, fun h => absurd (by omega) h⟩
  | succ k ih =>
    rw [findPcb]
    split_ifs with h
    · obtain ⟨hle, hmax, hused, hfree⟩ := ih (temp + 1) (by omega)
      refine ⟨by omega, hmax, fun q hq hq' => ?_, hfree⟩
      by_cases hnext : q = temp + 1
      · rw [hnext]
        exact h.1
      · exact hused q (by omega) hq'
    · have hlt : temp < maxPcb := by omega
      exact ⟨Int.le_refl _, by omega, fun q hq hq' => by omega, fun _ => by simpa [hlt] using h⟩

/-- The kernel `t` when `execute`, called in `s`, has parsed its command: the arguments
are stored, and no process is touched. -/
structure Parsed (s : Kernel) (command : CString) (t : Kernel) : Prop where
  storedBuf : t.storedBuf = parseArgs command s.storedBuf
  shellHaltFlag : t.shellHaltFlag = false
  pcb : t.pcb = s.pcb
  processNum : t.processNum = s.processNum
  scheduleIdx : t.scheduleIdx = s.scheduleIdx
  pitCount : t.pitCount = s.pitCount
  scheduleArray : t.scheduleArray = s.scheduleArray
  currPid : t.currPid = s.currPid
  pageDir : t.pageDir = s.pageDir
  tssEsp0 : t.tssEsp0 = s.tssEsp0

/-- PCB `pid` is the first free one above that of the running process. -/
structure FirstFree (pid : ℤ) : Prop where
  above : s.processNum < pid
  le_max : pid ≤ maxPcb
  free : (s.pcb pid).active = false
  first : ∀ q, s.processNum < q → q < pid → (s.pcb q).active = true

/-- A call that launches `pid`: a process in the first free PCB above the caller's,
started from a kernel that has parsed the command. -/
def Launches (command : CString) (frame : Frame) (pid : ℤ) : Prop :=
  ∃ t entryPoint isShellFlag, Parsed s command t ∧ s.FirstFree pid ∧
    s.execute fs command frame
      = (.launched pid, ((t.pagingExecute pid).launch pid entryPoint isShellFlag frame).2)

variable {fs s} in
theorem Launches.firstFree {command : CString} {frame : Frame} {pid : ℤ}
    (h : s.Launches fs command frame pid) : s.FirstFree pid := by
  obtain ⟨_, _, _, _, hfirst, _⟩ := h
  exact hfirst

variable {fs s} in
theorem Launches.result {command : CString} {frame : Frame} {pid : ℤ}
    (h : s.Launches fs command frame pid) : (s.execute fs command frame).1 = .launched pid := by
  obtain ⟨_, _, _, _, _, heq⟩ := h
  rw [heq]

/-- A call that ends without a process. -/
def Stops (command : CString) (frame : Frame) : Prop :=
  (∀ pid, (s.execute fs command frame).1 ≠ .launched pid) ∧
    Parsed s command (s.execute fs command frame).2

theorem load_cases (fileName : CString) (frame : Frame) (hmax : s.processNum ≤ maxPcb) :
    (∃ pid entryPoint isShellFlag, s.FirstFree pid ∧ s.load fs fileName frame
        = (.launched ((s.pagingExecute pid).launch pid entryPoint isShellFlag frame).1,
          ((s.pagingExecute pid).launch pid entryPoint isShellFlag frame).2)) ∨
    ((∀ pid, (s.load fs fileName frame).1 ≠ .launched pid) ∧ (s.load fs fileName frame).2 = s) := by
  obtain ⟨hle, hmax', hused, hfree⟩ := s.findPcb_spec (maxPcb - s.processNum).toNat
    s.processNum (by omega)
  set temp := s.findPcb (maxPcb - s.processNum).toNat s.processNum with htemp
  unfold load
  split
  · exact Or.inr ⟨fun _ => nofun, rfl⟩
  · dsimp only
    split_ifs with hexec hfull
    · exact Or.inr ⟨fun _ => nofun, rfl⟩
    · exact Or.inr ⟨fun _ => nofun, rfl⟩
    · refine Or.inl ⟨temp + 1, _, _, ⟨by omega, by omega, hfree hfull, fun q hq hq' => ?_⟩, rfl⟩
      exact hused q hq (by omega)

theorem parsed_setFlags (command : CString) (fileName : CString) :
    Parsed s command ((s.parseCommand command).setFlags fileName) :=
  ⟨rfl, rfl, rfl, rfl, rfl, rfl, rfl, rfl, rfl, rfl⟩

/-- **What `execute` can do.** -/
theorem execute_cases (command : CString) (frame : Frame) (hmax : s.processNum ≤ maxPcb) :
    (∃ pid, s.Launches fs command frame pid) ∨ s.Stops fs command frame := by
  have hparsed := s.parsed_setFlags command (getFileName command)
  simp only [Launches, Stops, execute]
  split_ifs with hlimit
  · exact Or.inr ⟨fun _ => nofun, ⟨rfl, rfl, rfl, rfl, rfl, rfl, rfl, rfl, rfl, rfl⟩⟩
  · rcases load_cases fs ((s.parseCommand command).setFlags (getFileName command))
      (getFileName command) frame (hparsed.processNum ▸ hmax) with
      ⟨pid, entryPoint, isShellFlag, ⟨hlt, hle, hfree, hfirst⟩, h⟩ | ⟨hne, h⟩
    · refine Or.inl ⟨pid, _, entryPoint, isShellFlag, hparsed, ⟨hlt, hle, hfree, hfirst⟩, ?_⟩
      rw [h]
      rfl
    · refine Or.inr ⟨hne, ?_⟩
      rw [h]
      exact hparsed

theorem load_launches {fileName : CString} (frame : Frame) {d : Dentry} {q : ℤ}
    (hdentry : readDentryByName fs fileName = some d)
    (hexec : isExecutable (readData fs d.inodeNum 0 frame.header 40).2 = true)
    (hq : s.processNum < q) (hq' : q ≤ maxPcb) (hfree : (s.pcb q).active = false) :
    ∃ pid, (s.load fs fileName frame).1 = .launched pid := by
  obtain ⟨-, hle, hused, -⟩ := s.findPcb_spec (maxPcb - s.processNum).toNat s.processNum (by omega)
  have hroom : s.findPcb (maxPcb - s.processNum).toNat s.processNum ≠ maxPcb := fun h => by
    have hactive := hused q hq (by omega)
    rw [hfree] at hactive
    exact Bool.false_ne_true hactive
  rw [load, hdentry]
  dsimp only
  rw [if_neg (by simp [hexec]), if_neg hroom]
  exact ⟨_, rfl⟩

/-- **A program that is there is launched,** when it is no shell and a PCB is free. -/
theorem execute_launches {command : CString} (frame : Frame) {d : Dentry} {q : ℤ}
    (hname : isShellName (getFileName command) = false)
    (hdentry : readDentryByName fs (getFileName command) = some d)
    (hexec : isExecutable (readData fs d.inodeNum 0 frame.header 40).2 = true)
    (hmax : s.processNum ≤ maxPcb) (hq : s.processNum < q) (hq' : q ≤ maxPcb)
    (hfree : (s.pcb q).active = false) : ∃ pid, s.Launches fs command frame pid := by
  rcases s.execute_cases fs command frame hmax with h | hstop
  · exact h
  · obtain ⟨pid, hload⟩ := load_launches fs ((s.parseCommand command).setFlags (getFileName command))
      frame hdentry hexec hq hq' hfree
    refine absurd ?_ (hstop.1 pid)
    rw [execute, if_neg (by simp [hname])]
    exact hload

/-! ### What the operations leave alone

Each of these says which fields an operation can change; every other one is as before. -/

theorem enqueue_frame (pid : ℤ) :
    ∃ pcb array curr count, s.enqueue pid
      = { s with pcb := pcb, scheduleArray := array, currPid := curr, pitCount := count } := by
  unfold enqueue
  split_ifs
  · exact ⟨_, _, _, _, rfl⟩
  · exact ⟨_, _, _, s.pitCount, rfl⟩

/-- `launch` makes its process the running one, on its own kernel stack. -/
theorem launch_frame (localProcessNum : ℤ) (entryPoint : ℕ) (isShellFlag : Bool) (frame : Frame) :
    let pid := if s.shellHaltFlag then s.baseShellId else localProcessNum
    ∃ pcb array curr count, (s.launch localProcessNum entryPoint isShellFlag frame).2
      = { s with
          pcb := pcb, scheduleArray := array, currPid := curr, pitCount := count
          shellHaltFlag := false, tssSs0 := kernelDs, tssEsp0 := kernelStack pid
          processNum := pid, interruptFlag := true } := by
  intro pid
  have hinit : ∃ pcb, s.initPcb pid entryPoint = { s with pcb := pcb, shellHaltFlag := false } := by
    unfold initPcb
    by_cases h : s.shellHaltFlag = true
    · rw [if_pos h]
      exact ⟨_, rfl⟩
    · have hfalse : s.shellHaltFlag = false := by simpa using h
      rw [if_neg h, ← hfalse]
      exact ⟨_, rfl⟩
  obtain ⟨pcb, hinit⟩ := hinit
  have hstart : ∀ u : Kernel, ∃ pcb array curr count, u.start pid isShellFlag frame
      = { u with
          pcb := pcb, scheduleArray := array, currPid := curr, pitCount := count
          tssSs0 := kernelDs, tssEsp0 := kernelStack pid, processNum := pid
          interruptFlag := true } := fun u => by
    obtain ⟨pcb, array, curr, count, h⟩ :=
      (u.modifyPcb pid fun p => setupPcb p pid u.processNum frame isShellFlag).enqueue_frame pid
    exact ⟨pcb, array, curr, count, by rw [start, h]; rfl⟩
  obtain ⟨pcb', array, curr, count, h⟩ := hstart { s with pcb := pcb, shellHaltFlag := false }
  refine ⟨pcb', array, curr, count, ?_⟩
  rw [← h, ← hinit]
  rfl

theorem openDescriptor_frame (pid : ℤ) (fop : FopTable) (fileType : ℕ) (inodeOf : Dentry → ℕ)
    (filename : CString) :
    ∃ pcb, (s.openDescriptor fs pid fop fileType inodeOf filename).2 = { s with pcb := pcb } := by
  unfold openDescriptor
  split
  · exact ⟨s.pcb, rfl⟩
  · split
    · exact ⟨s.pcb, rfl⟩
    · split_ifs
      · exact ⟨s.pcb, rfl⟩
      · exact ⟨_, rfl⟩
      · exact ⟨s.pcb, rfl⟩

theorem openCall_frame (filename : Option CString) (junk : ℤ) :
    ∃ pcb rtc flag, (s.openCall fs filename junk).2
      = { s with pcb := pcb, rtc := rtc, interruptFlag := flag } := by
  unfold openCall
  split
  · exact ⟨s.pcb, s.rtc, true, rfl⟩
  · split
    · exact ⟨s.pcb, s.rtc, true, rfl⟩
    · dsimp only
      split_ifs
      · obtain ⟨pcb, h⟩ := openDescriptor_frame fs s.cli.cli.resetRtc s.cli.cli.resetRtc.scheduledPid
          .rtc rtcFileType (fun _ => 0) ‹CString›
        exact ⟨pcb, _, true, congrArg (fun u : Kernel => u.sti.sti) h⟩
      · obtain ⟨pcb, h⟩ := openDescriptor_frame fs s.cli s.cli.processNum .directory
          directoryFileType (fun _ => 0) ‹CString›
        exact ⟨pcb, s.rtc, true, congrArg sti h⟩
      · obtain ⟨pcb, h⟩ := openDescriptor_frame fs s.cli s.cli.processNum .file regularFileType
          Dentry.inodeNum ‹CString›
        exact ⟨pcb, s.rtc, true, congrArg sti h⟩
      · exact ⟨s.pcb, s.rtc, true, rfl⟩

theorem closeDescriptor_frame (pid fd freeResult : ℤ) :
    ∃ pcb, (s.closeDescriptor pid fd freeResult).2 = { s with pcb := pcb } := by
  unfold closeDescriptor
  split_ifs
  · exact ⟨s.pcb, rfl⟩
  · exact ⟨_, rfl⟩
  · exact ⟨s.pcb, rfl⟩

theorem closeHandler_frame (fop : FopTable) (fd : ℤ) :
    ∃ pcb flag, (s.closeHandler fop fd).2 = { s with pcb := pcb, interruptFlag := flag } := by
  cases fop with
  | stdin | stdout => exact ⟨s.pcb, s.interruptFlag, rfl⟩
  | rtc =>
    obtain ⟨pcb, h⟩ := closeDescriptor_frame s.cli s.cli.scheduledPid fd 0
    exact ⟨pcb, true, congrArg sti h⟩
  | directory =>
    obtain ⟨pcb, h⟩ := closeDescriptor_frame s s.processNum fd (-1)
    exact ⟨pcb, s.interruptFlag, h⟩
  | file =>
    obtain ⟨pcb, h⟩ := closeDescriptor_frame s s.processNum fd 0
    exact ⟨pcb, s.interruptFlag, h⟩

theorem close_frame (fd : ℤ) :
    ∃ pcb flag, (s.close fd).2 = { s with pcb := pcb, interruptFlag := flag } := by
  simp only [close]
  split_ifs
  · exact ⟨s.pcb, true, rfl⟩
  · obtain ⟨pcb, flag, h⟩ := closeHandler_frame s.cli (s.cli.scheduledDescriptor fd).fop fd
    exact ⟨pcb, true, congrArg sti h⟩

theorem getargs_frame (buf : ℕ → UInt8) (nbytes : ℤ) :
    ∃ stored console flag, (s.getargs buf nbytes).kernel
      = { s with storedBuf := stored, console := console, interruptFlag := flag } := by
  simp only [getargs]
  split_ifs
  · exact ⟨_, s.console, true, rfl⟩
  · exact ⟨_, _, true, rfl⟩
  · exact ⟨_, s.console, true, rfl⟩
  · exact ⟨_, s.console, true, rfl⟩

/-- `vidmap` maps its page beside that of the process. -/
theorem vidmap_frame (screenStart : ℕ) :
    ∃ dir table flag, (s.vidmap screenStart).2
        = { s with pageDir := dir, vidmapPageTable := table, interruptFlag := flag } ∧
      dir userPageIndex = s.pageDir userPageIndex := by
  simp only [vidmap]
  split_ifs
  · exact ⟨s.pageDir, s.vidmapPageTable, true, rfl, rfl⟩
  · exact ⟨_, _, true, rfl, rfl⟩

/-! ### The close loop of a halt -/

theorem closeIfOpen_frame (pid i : ℤ) :
    ∃ pcb flag, s.closeIfOpen pid i = { s with pcb := pcb, interruptFlag := flag } := by
  unfold closeIfOpen
  split_ifs
  · exact closeHandler_frame s _ i
  · exact ⟨s.pcb, s.interruptFlag, rfl⟩

/-- Turns of the close loop change PCBs and the interrupt flag only. -/
theorem closeTurns_frame (pid : ℤ) (l : List ℤ) :
    ∃ pcb flag, runAll (l.map fun i t => closeIfOpen t pid i) s
      = { s with pcb := pcb, interruptFlag := flag } :=
  runAll_invariant
    (P := fun t : Kernel => ∃ pcb flag, t = { s with pcb := pcb, interruptFlag := flag })
    (fun f hf t ⟨pcb, flag, ht⟩ => by
      obtain ⟨i, _, rfl⟩ := List.mem_map.1 hf
      subst ht
      exact closeIfOpen_frame _ pid i)
    ⟨s.pcb, s.interruptFlag, rfl⟩

/-- **The close loop** changes PCBs and the interrupt flag only. -/
theorem closeCode_frame (pid : ℤ) :
    ∃ pcb flag, runAll (closeCode pid) s = { s with pcb := pcb, interruptFlag := flag } :=
  s.closeTurns_frame pid _

/-! ### The two halts -/

/-- Setting `active` leaves the rest of every PCB. -/
theorem setActive_pcb (pid q : ℤ) (a : Bool) :
    (s.setActive pid a).pcb q = { s.pcb q with active := ((s.setActive pid a).pcb q).active } := by
  unfold setActive
  rw [modifyPcb_pcb]
  split_ifs with h
  · rw [h]
  · rfl

section SetActive

variable (pid q : ℤ) (a : Bool)

@[simp] theorem setActive_parentId :
    ((s.setActive pid a).pcb q).parentId = (s.pcb q).parentId := by rw [setActive_pcb]

@[simp] theorem setActive_isShell :
    ((s.setActive pid a).pcb q).isShell = (s.pcb q).isShell := by rw [setActive_pcb]

@[simp] theorem setActive_savedParentsEsp :
    ((s.setActive pid a).pcb q).savedParentsEsp = (s.pcb q).savedParentsEsp := by rw [setActive_pcb]

@[simp] theorem setActive_savedParentsEbp :
    ((s.setActive pid a).pcb q).savedParentsEbp = (s.pcb q).savedParentsEbp := by rw [setActive_pcb]

theorem setActive_fileDescriptor :
    ((s.setActive pid a).pcb q).fileDescriptor = (s.pcb q).fileDescriptor := by rw [setActive_pcb]

end SetActive

/-- **The end of a halt** in one step. -/
theorem resumeParent_eq (pid : ℤ) :
    runAll (resumeParent pid) s =
      { (s.setActive pid false).setActive (s.pcb pid).parentId true with
        scheduleArray := Function.update s.scheduleArray (s.pcb pid).terminalNum
          (s.pcb (s.pcb pid).parentId).pid
        currPid := Function.update s.currPid (s.pcb pid).terminalNum (s.pcb pid).parentId
        processNum := (s.pcb pid).parentId
        shellProcessCount := if (s.pcb pid).isShell then s.shellProcessCount - 1
          else s.shellProcessCount
        esp := (s.pcb pid).savedParentsEsp
        ebp := (s.pcb pid).savedParentsEbp
        eax := s.savedStatusNum } := by
  simp only [resumeParent, runAll_cons, runAll_nil, setActive_parentId, setActive_isShell]
  split_ifs <;> simp only [setActive_savedParentsEsp, setActive_savedParentsEbp] <;> rfl

/-- The kernel when the halt of a process that is not a base shell reaches the close
loop. -/
def beforeClose (pid status : ℤ) : Kernel :=
  ({ s with
    interruptFlag := false
    processCount := s.processCount - 1
    savedStatusNum := status
    tssEsp0 := kernelStack (s.pcb pid).parentId
    tssSs0 := kernelDs }.pagingExecute (s.pcb pid).parentId).disableChildPage

/-- The kernel when the halt of a base shell reaches it. -/
def beforeRestart (pid status : ℤ) : Kernel :=
  { s with
    interruptFlag := false
    processCount := s.processCount - 1
    savedStatusNum := status
    shellHaltFlag := true
    tssSs0 := kernelDs
    tssEsp0 := kernelStack (s.pcb pid).pid }

/-- A halt is the part before the close loop, the loop, and the rest. -/
theorem haltCode_eq (pid status : ℤ) :
    runAll (haltCode pid status) s
      = runAll (resumeParent pid) (runAll (closeCode pid) (s.beforeClose pid status)) := by
  simp only [haltCode, runAll_append]
  rfl

theorem restartCode_eq (pid status : ℤ) :
    runAll (restartCode pid status) s
      = { runAll (closeCode pid) (s.beforeRestart pid status) with
          baseShellId := ((runAll (closeCode pid) (s.beforeRestart pid status)).pcb pid).pid } := by
  simp only [restartCode, runAll_append]
  rfl

end Kernel

end OS391
