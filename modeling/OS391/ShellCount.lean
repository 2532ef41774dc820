/-
# How many shells there are

`shell_process_count` is counted up when the name of a command starts with `shell`, before
the file is looked for, and down when a process halts whose PCB says that it is a shell.  A
record of the names the processes were started with, which the kernel does not keep
(`Programs`), tells how many live processes run the program `shell` (`shellCount`).

The two numbers agree as long as every counted command starts a shell (`CountsRight`): its
name is `shell` and nothing else, the file is there, and a PCB up to 511 is free.
-/

import OS391.CleanTable
import OS391.FailedExecute
import OS391.Frames
import OS391.Lib.Tally

namespace OS391

open Lib

/-! ### `execute` and the counter -/

namespace Kernel

variable {fs : FileSys} {s t : Kernel} {command : CString} {frame : Frame} {pid : ℤ}

/-- The program is there. -/
def Loadable (fs : FileSys) (command : CString) (frame : Frame) : Prop :=
  ∃ d, readDentryByName fs (getFileName command) = some d ∧
    isExecutable (readData fs d.inodeNum 0 frame.header 40).2 = true

/-- A PCB above that of the running process, up to PCB `last`, is free. -/
def FreePcb (s : Kernel) (last : ℤ) : Prop :=
  ∃ q, s.processNum < q ∧ q ≤ last ∧ (s.pcb q).active = false

/-- The program is there, and a PCB is free.  PCB 511 is the last one whose page is present: a
search that comes to PCB 512 faults. -/
def Startable (fs : FileSys) (s : Kernel) (command : CString) (frame : Frame) : Prop :=
  Loadable fs command frame ∧ s.FreePcb 511

/-- The command is that of a shell too many. -/
def AtLimit (s : Kernel) (command : CString) : Prop :=
  isShellName (getFileName command) = true ∧ s.shellProcessCount ≥ shellLimit

theorem execute_of_atLimit (h : s.AtLimit command) : s.execute fs command frame
    = (.refused, (s.parseCommand command).modifyConsole fun c => c.printf sixthShell) :=
  if_pos h

theorem execute_of_not_atLimit (h : ¬ s.AtLimit command) :
    s.execute fs command frame =
      ((s.parseCommand command).setFlags (getFileName command)).load fs (getFileName command)
        frame :=
  if_neg h

/-- What `execute` counts before it looks for the file. -/
theorem setFlags_shellProcessCount (s : Kernel) (command : CString) :
    ((s.parseCommand command).setFlags (getFileName command)).shellProcessCount =
      s.shellProcessCount + (if isShellName (getFileName command) then 1 else 0) := by
  show (if isShellName (getFileName command) then s.shellProcessCount + 1
    else s.shellProcessCount) = _
  split_ifs
  · rfl
  · exact (Int.add_zero _).symm

/-- A process that `load` launches is a shell if its name starts so; it is not counted here. -/
theorem load_shell (hflag : s.shellHaltFlag = false) {fileName : CString}
    (h : (s.load fs fileName frame).1 = .launched pid) :
    (s.load fs fileName frame).2.shellProcessCount = s.shellProcessCount ∧
      ((s.load fs fileName frame).2.pcb pid).isShell = isShellName fileName := by
  unfold load at h ⊢
  cases hdentry : readDentryByName fs fileName with
  | none => simp [hdentry] at h
  | some d =>
    rw [hdentry] at h
    dsimp only at h ⊢
    split_ifs at h ⊢
    set q := s.findPcb (maxPcb - s.processNum).toNat s.processNum + 1
    have hflag' : (s.pagingExecute q).shellHaltFlag = false := hflag
    have hpcb := (s.pagingExecute q).launch_pcb q
      (word32At (readData fs d.inodeNum 0 frame.header 40).2 24) (isShellName fileName) frame
    obtain ⟨pcb, array, curr, count, hframe⟩ := (s.pagingExecute q).launch_frame q
      (word32At (readData fs d.inodeNum 0 frame.header 40).2 24) (isShellName fileName) frame
    simp only [hflag', Bool.false_eq_true, if_false] at hpcb
    have hpid : q = pid := by
      simpa [launch, hflag'] using h
    rw [← hpid]
    refine ⟨?_, hpcb.isShell⟩
    rw [hframe]
    rfl

/-- **A launched process** is counted, and marked, if its name starts with `shell`. -/
theorem execute_shell (h : (s.execute fs command frame).1 = .launched pid) :
    (s.execute fs command frame).2.shellProcessCount =
        s.shellProcessCount + (if isShellName (getFileName command) then 1 else 0) ∧
      ((s.execute fs command frame).2.pcb pid).isShell = isShellName (getFileName command) ∧
      ¬ s.AtLimit command := by
  have hlimit : ¬ s.AtLimit command := fun hlimit => by
    simp [execute_of_atLimit hlimit] at h
  rw [execute_of_not_atLimit hlimit] at h ⊢
  obtain ⟨hcount, hshell⟩ :=
    load_shell (s := (s.parseCommand command).setFlags (getFileName command)) rfl h
  exact ⟨hcount.trans (s.setFlags_shellProcessCount command), hshell, hlimit⟩

/-- **A call that launches nothing** counts all the same. -/
theorem execute_shellProcessCount (hmax : s.processNum ≤ maxPcb)
    (h : ∀ pid, (s.execute fs command frame).1 ≠ .launched pid)
    (hcounted : isShellName (getFileName command) = true → s.AtLimit command) :
    (s.execute fs command frame).2.shellProcessCount = s.shellProcessCount := by
  by_cases hlimit : s.AtLimit command
  · rw [execute_of_atLimit hlimit]
    rfl
  · have hname : isShellName (getFileName command) = false := by
      by_contra hname
      exact hlimit (hcounted (by simpa using hname))
    rw [execute_of_not_atLimit hlimit] at h ⊢
    rcases load_cases fs ((s.parseCommand command).setFlags (getFileName command))
      (getFileName command) frame hmax with ⟨pid, _, _, -, hload⟩ | ⟨-, hload⟩
    · exact absurd (by rw [hload]) (h _)
    · rw [hload, setFlags_shellProcessCount, hname]
      exact Int.add_zero _

/-- **A program that is there is launched,** if a PCB is free, but for a shell too many. -/
theorem Loadable.launched (h : Loadable fs command frame) (hfree : s.FreePcb maxPcb)
    (hlimit : ¬ s.AtLimit command) : ∃ pid, (s.execute fs command frame).1 = .launched pid := by
  obtain ⟨d, hdentry, hexec⟩ := h
  obtain ⟨q, hq, hq', hfree⟩ := hfree
  obtain ⟨pid, hload⟩ := load_launches fs ((s.parseCommand command).setFlags (getFileName command))
    frame hdentry hexec hq hq' hfree
  refine ⟨pid, ?_⟩
  rw [execute_of_not_atLimit hlimit]
  exact hload

theorem Startable.launched (h : Startable fs s command frame) (hlimit : ¬ s.AtLimit command) :
    ∃ pid, (s.execute fs command frame).1 = .launched pid := by
  obtain ⟨hload, q, hq, hq', hfree⟩ := h
  exact hload.launched ⟨q, hq, Int.le_trans hq' (by decide), hfree⟩ hlimit

/-! ### A halt and the counter -/

/-- A process that ends is counted down if it is marked. -/
theorem halt_shellProcessCount (status : ℤ) (h : (s.pcb s.processNum).isBaseShell = false) :
    (s.halt status frame).shellProcessCount =
      s.shellProcessCount - (if (s.pcb s.processNum).isShell then 1 else 0) := by
  have hclosed := (s.beforeClose s.processNum status).reopens_closeCode s.processNum s.processNum
  simp only [halt]
  rw [if_pos h, haltCode_eq, resumeParent_eq]
  obtain ⟨pcb, flag, hclose⟩ := closeCode_frame (s.beforeClose s.processNum status) s.processNum
  rw [hclose] at hclosed ⊢
  obtain ⟨d, hd⟩ := hclosed
  have hshell : (pcb s.processNum).isShell = (s.pcb s.processNum).isShell := by
    have hshell := congrArg Pcb.isShell hd
    exact hshell
  dsimp only
  rw [hshell]
  split_ifs
  · rfl
  · exact (Int.sub_zero _).symm

/-- A base shell that restarts is not counted again. -/
theorem restart_shellProcessCount (status : ℤ) (h : (s.pcb s.processNum).isBaseShell = true) :
    (s.halt status frame).shellProcessCount = s.shellProcessCount := by
  obtain ⟨pcb, flag, -, -, hhalt⟩ := s.halt_eq_launch status frame h
  obtain ⟨pcb', array, curr, count, hlaunch⟩ := launch_frame
    { s.beforeRestart s.processNum status with
      pcb := pcb, interruptFlag := flag, baseShellId := (pcb s.processNum).pid }
    0 (pcb s.processNum).entryPoint frame.isShellFlag frame
  rw [hhalt, hlaunch]
  rfl

end Kernel

/-! ### The record of names -/

/-- The names of the programs that the processes were started with. -/
abbrev Programs : Type := ℤ → CString

/-- The record after an operation: a launched process has the name that was looked up. -/
def Programs.next (fs : FileSys) (s : Kernel) (names : Programs) (e : Event) : Programs :=
  match e with
  | .execute command frame =>
    match (s.execute fs command frame).1 with
    | .launched pid => Function.update names pid (getFileName command)
    | _ => names
  | _ => names

/-- The record after the boot: all that has been started is shells. -/
def Programs.boot : Programs := fun _ => Kernel.shellCommand

/-- Process `q` is alive and runs the program `shell`. -/
def runsShell (s : Kernel) (names : Programs) (q : ℤ) : Bool :=
  (s.pcb q).active && decide (names q = Kernel.shellCommand)

/-- How many such processes there are. -/
def shellCount (s : Kernel) (names : Programs) : ℕ :=
  tally (maxPcb.toNat + 1) fun q => runsShell s names q

/-- A call of `execute` that counts a shell starts one: its name is `shell`, and it can be
started. -/
def CountsRight (fs : FileSys) (s : Kernel) (e : Event) : Prop :=
  match e with
  | .execute command frame =>
    Kernel.isShellName (getFileName command) = true → ¬ s.AtLimit command →
      getFileName command = Kernel.shellCommand ∧ Kernel.Startable fs s command frame
  | _ => True

/-- The counter is right, and so are the marks it is counted down by. -/
structure Tallied (s : Kernel) (names : Programs) : Prop where
  mark : ∀ q, 0 ≤ q → (s.pcb q).active = true → (s.pcb q).isBaseShell = false →
    (s.pcb q).isShell = decide (names q = Kernel.shellCommand)
  count : s.shellProcessCount = shellCount s names
  le_limit : s.shellProcessCount ≤ shellLimit

section Runs

variable {fs : FileSys} {s t : Kernel} {names : Programs} {e : Event} {es : List Event} {pid : ℤ}

/-- One process more, or one less. -/
theorem shellCount_change {names' : Programs} (hpid : 0 ≤ pid) (hmax : pid ≤ maxPcb)
    (hactive : ∀ q, q ≠ pid → (t.pcb q).active = (s.pcb q).active)
    (hnames : ∀ q, q ≠ pid → names' q = names q) :
    shellCount t names' + (runsShell s names pid).toNat
      = shellCount s names + (runsShell t names' pid).toNat := by
  obtain ⟨k, rfl⟩ := Int.eq_ofNat_of_zero_le hpid
  refine tally_change (p := fun q => runsShell s names q) (q := fun q => runsShell t names' q)
    (k := k) (by omega) fun i hi => ?_
  have hne : (i : ℤ) ≠ k := by omega
  dsimp only [runsShell]
  rw [hactive i hne, hnames i hne]

/-- A step that starts and ends no process. -/
theorem Tallied.congr (h : Tallied s names) (hcount : t.shellProcessCount = s.shellProcessCount)
    (hactive : ∀ q, 0 ≤ q → (t.pcb q).active = (s.pcb q).active)
    (hmark : ∀ q, (t.pcb q).isBaseShell = false →
      (s.pcb q).isBaseShell = false ∧ (t.pcb q).isShell = (s.pcb q).isShell) :
    Tallied t names := by
  have hsame : shellCount t names = shellCount s names := tally_congr fun i _ => by
    dsimp only [runsShell]
    rw [hactive i (by omega)]
  refine ⟨fun q hq hactive' hbase => ?_, ?_, hcount ▸ h.le_limit⟩
  · obtain ⟨hbase', hshell⟩ := hmark q hbase
    rw [hshell]
    exact h.mark q hq (hactive q hq ▸ hactive') hbase'
  · rw [hcount, hsame, h.count]

/-- What is counted as a shell below the limit is one. -/
theorem isShellName_eq_decide {command : CString} {frame : Frame}
    (hright : CountsRight fs s (.execute command frame)) (hlimit : ¬ s.AtLimit command) :
    Kernel.isShellName (getFileName command)
      = decide (getFileName command = Kernel.shellCommand) := by
  cases hcounted : Kernel.isShellName (getFileName command) with
  | true => exact (decide_eq_true (hright hcounted hlimit).1).symm
  | false =>
    refine (decide_eq_false fun heq => ?_).symm
    rw [heq] at hcounted
    exact absurd hcounted (by decide +kernel)

/-- A process is started. -/
theorem Tallied.launches (h : Tallied s names) (hrun : Running s) {command : CString}
    {frame : Frame} (hright : CountsRight fs s (.execute command frame))
    (hlaunch : s.Launches fs command frame pid) :
    Tallied (s.execute fs command frame).2 (Function.update names pid (getFileName command)) := by
  obtain ⟨hcount, hshell, hlimit⟩ := Kernel.execute_shell hlaunch.result
  obtain ⟨isShellFlag, hstarted⟩ := hlaunch.pcbStarted
  obtain ⟨habove, hmax, hfree, -⟩ := hlaunch.firstFree
  have hpos := hrun.processNum_bounds.1
  have hname := isShellName_eq_decide hright hlimit
  refine ⟨fun q hq hactive hbase => ?_, ?_, ?_⟩
  · by_cases hqp : q = pid
    · rw [hqp, hshell, hname, Function.update_self]
    · rw [Function.update_of_ne hqp]
      rw [hstarted.others q hqp] at hactive hbase ⊢
      exact h.mark q hq hactive hbase
  · have hchange := shellCount_change (s := s) (t := (s.execute fs command frame).2)
      (show 0 ≤ pid by omega) hmax (fun q hq => by rw [hstarted.others q hq])
      fun q hq => Function.update_of_ne hq (getFileName command) names
    have hbefore : runsShell s names pid = false := by
      unfold runsShell
      rw [hfree]
      rfl
    have hafter : runsShell (s.execute fs command frame).2
        (Function.update names pid (getFileName command)) pid
        = Kernel.isShellName (getFileName command) := by
      unfold runsShell
      rw [hstarted.active, Function.update_self, hname]
      rfl
    rw [hbefore, hafter] at hchange
    rw [hcount, h.count]
    cases hcounted : Kernel.isShellName (getFileName command) with
    | true =>
      rw [hcounted, Bool.toNat_false, Bool.toNat_true] at hchange
      rw [if_pos rfl]
      omega
    | false =>
      rw [hcounted, Bool.toNat_false] at hchange
      rw [if_neg Bool.false_ne_true]
      omega
  · rw [hcount]
    have hle := h.le_limit
    split_ifs with hcounted
    · have hlt : ¬ s.shellProcessCount ≥ shellLimit := fun hge => hlimit ⟨hcounted, hge⟩
      omega
    · omega

/-- No process is started. -/
theorem Tallied.stops (h : Tallied s names) (hrun : Running s) {command : CString} {frame : Frame}
    (hright : CountsRight fs s (.execute command frame)) (hstop : s.Stops fs command frame) :
    Tallied (s.execute fs command frame).2 names := by
  have hlimit (hcounted : Kernel.isShellName (getFileName command) = true) :
      s.AtLimit command := by
    by_contra hlimit
    obtain ⟨pid, hpid⟩ := (hright hcounted hlimit).2.launched hlimit
    exact hstop.1 pid hpid
  have hcount := Kernel.execute_shellProcessCount hrun.processNum_bounds.2 hstop.1 hlimit
  refine h.congr hcount (fun q _ => ?_) fun q hbase => ?_
  · rw [hstop.2.pcb]
  · rw [hstop.2.pcb] at hbase ⊢
    exact ⟨hbase, rfl⟩

/-- **A call of `execute`** that meets the condition. -/
theorem Tallied.execute (h : Tallied s names) (hrun : Running s) (command : CString)
    (frame : Frame) (hright : CountsRight fs s (.execute command frame)) :
    Tallied (s.execute fs command frame).2 (names.next fs s (.execute command frame)) := by
  rcases s.execute_cases fs command frame hrun.processNum_bounds.2 with ⟨pid, hlaunch⟩ | hstop
  · have hnext : names.next fs s (.execute command frame)
        = Function.update names pid (getFileName command) := by
      simp only [Programs.next, hlaunch.result]
    rw [hnext]
    exact h.launches hrun hright hlaunch
  · have hnext : names.next fs s (.execute command frame) = names := by
      simp only [Programs.next]
      split
      · next pid heq => exact absurd heq (hstop.1 pid)
      · rfl
    rw [hnext]
    exact h.stops hrun hright hstop

/-- A process that ends, but for a base shell, is not active, and all others are as before. -/
theorem Running.halt_active (h : Running s) (status : ℤ) (frame : Frame)
    (hbase : (s.pcb s.processNum).isBaseShell = false) (q : ℤ) :
    ((s.halt status frame).pcb q).active =
      if q = s.processNum then false else (s.pcb q).active := by
  obtain ⟨-, m, hm⟩ := h
  have hbook := congrArg Book.pcb (Kernel.halt_book_of_not_baseShell s status frame hbase)
  have hpcb := congrArg PcbBook.active (congrFun (hbook.trans (hm.halt_pcb hbase)) q)
  rw [Function.update_apply] at hpcb
  refine hpcb.trans ?_
  show PcbBook.active (if q = s.processNum then _ else _) = _
  split_ifs <;> rfl

/-- A base shell that halts starts again. -/
theorem Tallied.restart (h : Tallied s names) (hrun : Running s) (status : ℤ) (frame : Frame)
    (hbase : (s.pcb s.processNum).isBaseShell = true) : Tallied (s.halt status frame) names := by
  obtain ⟨hpit, m, hm⟩ := hrun
  have hbook := hm.halt_book hpit status frame hbase
  have hpcb (q : ℤ) : ((s.halt status frame).pcb q).book = (s.pcb q).book :=
    congrArg (fun b : Book => b.pcb q) hbook
  obtain ⟨u, hreopens, -, hstarted⟩ := s.restart_pcbStarted status frame hbase
  have hpid : (s.pcb s.processNum).pid = s.processNum := (hm.of_mem hm.processNum_mem).2.1
  refine h.congr (Kernel.restart_shellProcessCount status hbase)
    (fun q _ => congrArg PcbBook.active (hpcb q)) fun q hq => ?_
  have hq' : (s.pcb q).isBaseShell = false :=
    (congrArg PcbBook.isBaseShell (hpcb q)).symm.trans hq
  refine ⟨hq', ?_⟩
  have hne : q ≠ (s.pcb s.processNum).pid := by
    rintro rfl
    rw [hpid, hbase] at hq'
    contradiction
  obtain ⟨d, hd⟩ := hreopens q
  rw [hstarted.others q hne, hd]

/-- A process that is no base shell ends, and is no longer counted if it was marked. -/
theorem Tallied.ends (h : Tallied s names) (hrun : Running s) (status : ℤ) (frame : Frame)
    (hbase : (s.pcb s.processNum).isBaseShell = false) : Tallied (s.halt status frame) names := by
  obtain ⟨hpos, hmax⟩ := hrun.processNum_bounds
  have hlive := hrun.pid_processNum.2
  have hended : ((s.halt status frame).pcb s.processNum).active = false := by
    rw [hrun.halt_active status frame hbase, if_pos rfl]
  have hothers (q : ℤ) (hq : q ≠ s.processNum) :
      ((s.halt status frame).pcb q).active = (s.pcb q).active := by
    rw [hrun.halt_active status frame hbase, if_neg hq]
  refine ⟨fun q hq hactive hbase' => ?_, ?_, ?_⟩
  · have hne : q ≠ s.processNum := by
      rintro rfl
      rw [hended] at hactive
      contradiction
    obtain ⟨d, active, hsame⟩ := s.halt_pcb status frame hbase q
    rw [hothers q hne] at hactive
    rw [hsame] at hbase' ⊢
    exact h.mark q hq hactive hbase'
  · have hchange : shellCount (s.halt status frame) names
          + (runsShell s names s.processNum).toNat
        = shellCount s names + (runsShell (s.halt status frame) names s.processNum).toNat :=
      shellCount_change hpos hmax hothers fun _ _ => rfl
    have hbefore : runsShell s names s.processNum = (s.pcb s.processNum).isShell := by
      unfold runsShell
      rw [hlive, h.mark _ hpos hlive hbase]
      rfl
    have hafter : runsShell (s.halt status frame) names s.processNum = false := by
      unfold runsShell
      rw [hended]
      rfl
    rw [hbefore, hafter] at hchange
    rw [Kernel.halt_shellProcessCount status hbase, h.count]
    cases hmark : (s.pcb s.processNum).isShell with
    | true =>
      rw [hmark, Bool.toNat_false, Bool.toNat_true] at hchange
      rw [if_pos rfl]
      omega
    | false =>
      rw [hmark, Bool.toNat_false] at hchange
      rw [if_neg Bool.false_ne_true]
      omega
  · rw [Kernel.halt_shellProcessCount status hbase]
    have hle := h.le_limit
    split_ifs <;> omega

/-- **A halt.** -/
theorem Tallied.halt (h : Tallied s names) (hrun : Running s) (status : ℤ) (frame : Frame) :
    Tallied (s.halt status frame) names := by
  cases hbase : (s.pcb s.processNum).isBaseShell with
  | true => exact h.restart hrun status frame hbase
  | false => exact h.ends hrun status frame hbase

/-- **A step** that meets the condition keeps the counter right. -/
theorem Tallied.step (h : Tallied s names) (hrun : Running s) (hright : CountsRight fs s e)
    (hstep : Step fs s e t) : Tallied t (names.next fs s e) := by
  have hreopened (hcount : t.shellProcessCount = s.shellProcessCount) (hreopens : s.Reopens t) :
      Tallied t names := by
    refine h.congr hcount (fun q _ => ?_) fun q hbase => ?_ <;> obtain ⟨d, hd⟩ := hreopens q
    · rw [hd]
    · rw [hd] at hbase ⊢
      exact ⟨hbase, rfl⟩
  cases hstep with
  | tick esp ebp frame =>
    have hpcb := Kernel.scheduler_pcb fs (s.withRegisters esp ebp) frame hrun.1
    refine h.congr ?_ (fun q _ => ?_) fun q hbase => ?_
    · rw [Kernel.scheduler_eq fs (s.withRegisters esp ebp) frame hrun.1]
      rfl
    · rw [hpcb]
      split_ifs <;> rfl
    · rw [hpcb] at hbase ⊢
      split_ifs at hbase ⊢ <;> exact ⟨hbase, rfl⟩
  | execute _ command frame => exact h.execute hrun command frame hright
  | systemHalt _ status frame => exact h.halt hrun _ frame
  | exceptionHalt _ status frame => exact h.halt hrun _ frame
  | getargs _ buf nbytes =>
    obtain ⟨stored, console, flag, hframe⟩ := s.getargs_frame buf nbytes
    rw [hframe] at hreopened ⊢
    exact hreopened rfl (Kernel.reopens_of_pcb_eq rfl)
  | openCall _ filename junk =>
    have hreopens := Kernel.reopens_openCall fs s filename junk
    obtain ⟨pcb, rtc, flag, hframe⟩ := s.openCall_frame fs filename junk
    rw [hframe] at hreopened hreopens ⊢
    exact hreopened rfl hreopens
  | close _ fd =>
    have hreopens := s.reopens_close fd
    obtain ⟨pcb, flag, hframe⟩ := s.close_frame fd
    rw [hframe] at hreopened hreopens ⊢
    exact hreopened rfl hreopens
  | vidmap _ screenStart =>
    obtain ⟨dir, table, flag, hframe, -⟩ := s.vidmap_frame screenStart
    rw [hframe] at hreopened ⊢
    exact hreopened rfl (Kernel.reopens_of_pcb_eq rfl)
  | switchTerminals next => exact hreopened rfl (Kernel.reopens_of_pcb_eq rfl)

/-- After the boot there are three shells. -/
theorem Booted.tallied (h : Booted s) (hcount : s.shellProcessCount = 3) :
    Tallied s .boot := by
  have hbase (q : ℕ) (hq : q < 3) : (s.pcb q).active = true ∧ (s.pcb q).isBaseShell = true :=
    ⟨congrArg PcbBook.active (h.shell q hq), congrArg PcbBook.isBaseShell (h.shell q hq)⟩
  refine ⟨fun q hq hactive hnot => ?_, ?_, ?_⟩
  · obtain ⟨k, rfl⟩ := Int.eq_ofNat_of_zero_le hq
    by_cases hk : k < 3
    · rw [(hbase k hk).2] at hnot
      contradiction
    · rw [(h.fresh k (by omega)).active] at hactive
      contradiction
  · have hthree : shellCount s .boot = tally (maxPcb.toNat + 1) fun q => decide (q < 3) :=
      tally_congr fun q _ => by
        unfold runsShell
        by_cases hq : q < 3
        · rw [(hbase q hq).1, decide_eq_true hq]
          rfl
        · rw [(h.fresh q (by omega)).active, decide_eq_false hq]
          rfl
    rw [hcount, hthree]
    decide +kernel
  · rw [hcount]
    decide

/-- **The counter is exact** after every run in which every counted command starts a shell, and a
shell that can be started is refused just when `SHELL_LIMIT` of them are alive. -/
theorem shellCount_of_run (hboot : Booted s) (hcount : s.shellProcessCount = 3)
    (hr : Run (Recorded (Programs.next fs) (Guarded (CountsRight fs) (Step fs))) (s, .boot) es
      (t, names)) :
    t.shellProcessCount = shellCount t names ∧ ∀ command frame,
      getFileName command = Kernel.shellCommand → Kernel.Startable fs t command frame →
        ((t.execute fs command frame).1 = .refused ↔ (shellCount t names : ℤ) = shellLimit) := by
  have hinv : Running t ∧ Tallied t names :=
    hr.invariant (I := fun p => Running p.1 ∧ Tallied p.1 p.2)
      (fun _ _ _ hs hstep => by
        obtain ⟨⟨hright, hstep⟩, hnext⟩ := hstep
        rw [hnext]
        exact ⟨hs.1.step hstep, hs.2.step hs.1 hright hstep⟩)
      ⟨hboot.running, hboot.tallied hcount⟩
  obtain ⟨-, htally⟩ := hinv
  refine ⟨htally.count, fun command frame hname hstart => ?_⟩
  have hlimit : t.AtLimit command ↔ (shellCount t names : ℤ) = shellLimit := by
    have hle := htally.le_limit
    unfold Kernel.AtLimit
    rw [hname, and_iff_right (by decide +kernel), ← htally.count]
    omega
  rw [← hlimit]
  constructor
  · intro hrefused
    by_contra hbelow
    obtain ⟨pid, hpid⟩ := hstart.launched hbelow
    rw [hpid] at hrefused
    contradiction
  · intro hat
    rw [Kernel.execute_of_atLimit hat]

end Runs

/-! ### A shell that starts, and three that do not -/

/-- The shell can be started on the image that has it. -/
theorem startable_shell {s : Kernel} {q : ℤ} (hq : s.processNum < q) (hmax : q ≤ 511)
    (hfree : (s.pcb q).active = false) :
    Kernel.Startable shellImage s Kernel.shellCommand zeroFrame := by
  have hfound : (readDentryByName shellImage (getFileName Kernel.shellCommand)).any (fun d =>
      isExecutable (readData shellImage d.inodeNum 0 zeroFrame.header 40).2) = true := by
    decide +kernel
  exact ⟨by simpa [Kernel.Loadable, Option.any_eq_true] using hfound, q, hq, hmax, hfree⟩

/-- The kernel when the first shell has started another. -/
def fourthShell : Kernel := (bootedKernel.execute shellImage Kernel.shellCommand zeroFrame).2

/-- The record then. -/
def fourthNames : Programs :=
  Programs.next shellImage bootedKernel .boot (.execute Kernel.shellCommand zeroFrame)

/-- The counter is right with four shells. -/
theorem shellCount_fourth :
    fourthShell.shellProcessCount = shellCount fourthShell fourthNames ∧ ∀ command frame,
      getFileName command = Kernel.shellCommand →
      Kernel.Startable shellImage fourthShell command frame →
        ((fourthShell.execute shellImage command frame).1 = .refused ↔
          (shellCount fourthShell fourthNames : ℤ) = shellLimit) :=
  have hright : CountsRight shellImage bootedKernel (.execute Kernel.shellCommand zeroFrame) :=
    fun _ _ => ⟨by decide +kernel, startable_shell (q := 3) (by decide) (by decide) (by decide)⟩
  shellCount_of_run booted_bootedKernel rfl
    (.single ⟨⟨hright, .execute (by decide) Kernel.shellCommand zeroFrame⟩, rfl⟩)

/-- The kernel after three calls of `execute` for `shellx a`, which is not there. -/
def miscounted : Kernel :=
  let fail (s : Kernel) := (s.execute shellImage shellxCommand zeroFrame).2
  fail (fail (fail bootedKernel))

/-- **Three failed commands use up the shells:** three shells are alive, the counter says six,
and a new one is refused. -/
theorem not_shellCount_miscounted :
    Run (Recorded (Programs.next shellImage) (Step shellImage)) (bootedKernel, .boot)
        (List.replicate 3 (.execute shellxCommand zeroFrame)) (miscounted, .boot) ∧
      shellCount miscounted .boot = 3 ∧ miscounted.shellProcessCount = 6 ∧
      (miscounted.execute shellImage Kernel.shellCommand zeroFrame).1 = .refused := by
  refine ⟨?_, by decide +kernel, by decide +kernel, by decide +kernel⟩
  have hfail (s : Kernel) (hrun : 0 ≤ s.processNum)
      (hfailed : (s.execute shellImage shellxCommand zeroFrame).1 = .failed) :
      Recorded (Programs.next shellImage) (Step shellImage) (s, .boot)
        (.execute shellxCommand zeroFrame)
        ((s.execute shellImage shellxCommand zeroFrame).2, .boot) := by
    refine ⟨.execute hrun shellxCommand zeroFrame, ?_⟩
    simp only [Programs.next, hfailed]
  exact .cons (hfail _ (by decide) (by decide +kernel))
    (.cons (hfail _ (by decide +kernel) (by decide +kernel))
      (.single (hfail _ (by decide +kernel) (by decide +kernel))))

end OS391
