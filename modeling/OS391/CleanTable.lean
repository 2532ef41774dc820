/-
# The descriptors a new process finds

`execute` opens descriptors 0 and 1 of the PCB it takes and does not look at the others: a
new process has a clean table only if the PCB was left clean, by the boot or by the process
that had it before.  The close loop of a halt does not come to descriptor 7.  So the tables
are clean in every run in which no process but a base shell halts with a descriptor open that
the loop does not free (`onlyStdio_of_run`), and a process that does leaves it to the next one
with its number (`not_onlyStdio_after_halt`).

From step to step the argument is `Kernel.Keeps`: descriptors stay as they are or are freed,
and active PCBs stay active.  Only `open` and the halt of a process that is not a base shell
do more.  The run may start and end processes also while the three shells are started: then
the records of who runs where need not agree, and what the RTC's handlers take for the PCB of
the running process may be another one (`LeavesClean`).  Once they agree, descriptor 7 is all
there is to say (`leavesClean_of_run`).
-/

import OS391.DescriptorMap
import OS391.ProcessNumbers
import OS391.Frames

namespace OS391

open Lib

/-! ### What an operation leaves of a PCB -/

namespace Pcb

/-- From 2 on the descriptors are as before, or free. -/
def Frees (p p' : Pcb) : Prop :=
  ∀ i, fdMin ≤ i → p'.fileDescriptor i = p.fileDescriptor i ∨ (p'.fileDescriptor i).flags = false

/-- The PCB stays active, and its descriptors are as before or free. -/
structure Keeps (p p' : Pcb) : Prop where
  frees : p.Frees p'
  active : p'.active = false → p.active = false

/-- Descriptors 2 to 7 are free. -/
def AllFree (p : Pcb) : Prop := ∀ i, fdMin ≤ i → i ≤ fdMax → (p.fileDescriptor i).flags = false

/-- A PCB that is not in use has its descriptors free. -/
def Idle (p : Pcb) : Prop := p.active = false → p.AllFree

/-- Exactly descriptors 0 and 1 are in use. -/
def OnlyStdio (p : Pcb) : Prop :=
  ∀ i, 0 ≤ i → i ≤ fdMax → ((p.fileDescriptor i).flags = true ↔ i = 0 ∨ i = 1)

variable {p q r : Pcb}

theorem Frees.refl (p : Pcb) : p.Frees p := fun _ _ => Or.inl rfl

theorem Frees.trans (h : p.Frees q) (h' : q.Frees r) : p.Frees r := by
  intro i hi
  rcases h' i hi with heq | hfree
  · rw [heq]
    exact h i hi
  · exact Or.inr hfree

theorem Frees.typed (h : p.Frees q) (hp : p.Typed) : q.Typed := by
  intro i hi hi' hopen
  rcases h i hi with heq | hfree
  · rw [heq] at hopen ⊢
    exact hp i hi hi' hopen
  · exact absurd (hfree.symm.trans hopen) Bool.false_ne_true

theorem Frees.allFree (h : p.Frees q) (hp : p.AllFree) : q.AllFree := by
  intro i hi hi'
  rcases h i hi with heq | hfree
  · rw [heq]
    exact hp i hi hi'
  · exact hfree

theorem Keeps.refl (p : Pcb) : p.Keeps p := ⟨.refl p, id⟩

theorem Keeps.trans (h : p.Keeps q) (h' : q.Keeps r) : p.Keeps r :=
  ⟨h.frees.trans h'.frees, fun hr => h.active (h'.active hr)⟩

theorem Keeps.idle (h : p.Keeps q) (hp : p.Idle) : q.Idle := by
  intro hq
  exact h.frees.allFree (hp (h.active hq))

/-- What leaves the descriptors and `active` alone keeps the PCB. -/
theorem keeps_of_eq (hfd : q.fileDescriptor = p.fileDescriptor) (hactive : q.active = p.active) :
    p.Keeps q :=
  ⟨fun i _ => Or.inl (congrFun hfd i), fun h => hactive ▸ h⟩

/-- A PCB that is set active keeps what it has. -/
theorem keeps_of_active (hfd : ∀ i, fdMin ≤ i → q.fileDescriptor i = p.fileDescriptor i)
    (hactive : q.active = true) : p.Keeps q :=
  ⟨fun i hi => Or.inl (hfd i hi), fun h => absurd (h.symm.trans hactive) Bool.false_ne_true⟩

end Pcb

namespace Kernel

/-- Every PCB is kept. -/
def Keeps (s t : Kernel) : Prop := ∀ q, (s.pcb q).Keeps (t.pcb q)

variable {fs : FileSys} {s t u : Kernel} {pid : ℤ}

theorem Keeps.trans (h : s.Keeps t) (h' : t.Keeps u) : s.Keeps u := fun q => (h q).trans (h' q)

theorem keeps_of_pcb_eq (h : t.pcb = s.pcb) : s.Keeps t := by
  intro q
  rw [h]
  exact Pcb.Keeps.refl _

theorem keeps_modifyPcb (s : Kernel) (pid : ℤ) {f : Pcb → Pcb} (h : ∀ p : Pcb, p.Keeps (f p)) :
    s.Keeps (s.modifyPcb pid f) := by
  intro q
  rw [modifyPcb_pcb]
  split_ifs with hq
  · rw [hq]
    exact h _
  · exact Pcb.Keeps.refl _

/-! ### `execute` and the scheduler -/

theorem keeps_initPcb (s : Kernel) (pid : ℤ) (entryPoint : ℕ) :
    s.Keeps (s.initPcb pid entryPoint) := by
  unfold initPcb
  split_ifs
  · have h := s.keeps_modifyPcb pid (f := fun p => { p with isBaseShell := true, parentId := -1 })
      fun _ => Pcb.keeps_of_eq rfl rfl
    exact h
  · exact s.keeps_modifyPcb pid fun _ => Pcb.keeps_of_eq rfl rfl

/-- From 2 on the descriptors are not touched. -/
theorem openStdio_of_le (p : Pcb) {i : ℤ} (hi : fdMin ≤ i) :
    (openStdio p).fileDescriptor i = p.fileDescriptor i := by
  unfold fdMin at hi
  show Function.update (Function.update p.fileDescriptor 0 _) 1 _ i = _
  rw [Function.update_of_ne (by omega), Function.update_of_ne (by omega)]

/-- `enqueue` leaves the descriptors and `active` alone. -/
theorem keeps_enqueue (s : Kernel) (pid : ℤ) :
    s.Keeps (s.enqueue pid) ∧
      ∀ q, ((s.enqueue pid).pcb q).fileDescriptor = (s.pcb q).fileDescriptor := by
  have hmodify {f : Pcb → Pcb} (hfd : ∀ p, (f p).fileDescriptor = p.fileDescriptor)
      (hactive : ∀ p, (f p).active = p.active) : s.Keeps (s.modifyPcb pid f) ∧
        ∀ q, ((s.modifyPcb pid f).pcb q).fileDescriptor = (s.pcb q).fileDescriptor :=
    ⟨s.keeps_modifyPcb pid fun p => Pcb.keeps_of_eq (hfd p) (hactive p), fun q => by
      rw [modifyPcb_pcb]
      split_ifs with hq
      · rw [hq, hfd]
      · rfl⟩
  unfold enqueue
  split_ifs
  · have h := hmodify (f := fun p =>
      { p with terminalNum := s.pitCount, isBaseShell := true, parentId := -1 })
      (fun _ => rfl) fun _ => rfl
    exact h
  · have h := hmodify (f := fun p => { p with terminalNum := s.terminalOf pid })
      (fun _ => rfl) fun _ => rfl
    exact h

/-- **A process that is started** gets descriptors 0 and 1, and keeps the others. -/
theorem keeps_start (s : Kernel) (pid : ℤ) (isShellFlag : Bool) (frame : Frame) :
    s.Keeps (s.start pid isShellFlag frame) ∧
      ((s.start pid isShellFlag frame).pcb pid).fileDescriptor
        = (openStdio (s.pcb pid)).fileDescriptor := by
  set u := s.modifyPcb pid fun p => setupPcb p pid s.processNum frame isShellFlag with hu
  obtain ⟨hkeeps, hfd⟩ := u.keeps_enqueue pid
  have hsetup : s.Keeps u := s.keeps_modifyPcb pid fun p =>
    Pcb.keeps_of_active (fun i hi => openStdio_of_le p hi) rfl
  refine ⟨hsetup.trans hkeeps, (hfd pid).trans ?_⟩
  rw [hu, modifyPcb_pcb_self]
  rfl

theorem keeps_launch (s : Kernel) (localProcessNum : ℤ) (entryPoint : ℕ) (isShellFlag : Bool)
    (frame : Frame) : s.Keeps (s.launch localProcessNum entryPoint isShellFlag frame).2 :=
  (s.keeps_initPcb _ entryPoint).trans (keeps_start _ _ isShellFlag frame).1

/-- **A new process** has the descriptors of its PCB, with 0 and 1 opened. -/
theorem Launches.keeps {command : CString} {frame : Frame} (h : s.Launches fs command frame pid) :
    s.Keeps (s.execute fs command frame).2 ∧
      ((s.execute fs command frame).2.pcb pid).fileDescriptor
        = (openStdio (s.pcb pid)).fileDescriptor := by
  obtain ⟨t, entryPoint, isShellFlag, hparsed, -, heq⟩ := h
  have hflag : (t.pagingExecute pid).shellHaltFlag = false := hparsed.shellHaltFlag
  have hpcb : (t.pagingExecute pid).pcb = s.pcb := hparsed.pcb
  rw [heq]
  refine ⟨(keeps_of_pcb_eq hpcb).trans (keeps_launch _ pid entryPoint isShellFlag frame), ?_⟩
  have hinit : ((t.pagingExecute pid).initPcb pid entryPoint).pcb pid
      = { s.pcb pid with entryPoint := entryPoint } := by
    rw [initPcb, if_neg (by simp [hflag]), modifyPcb_pcb_self, hpcb]
  have hlaunch : ((t.pagingExecute pid).launch pid entryPoint isShellFlag frame).2
      = ((t.pagingExecute pid).initPcb pid entryPoint).start pid isShellFlag frame := by
    simp only [launch, hflag, Bool.false_eq_true, if_false]
  rw [hlaunch, (keeps_start _ pid isShellFlag frame).2, hinit]
  rfl

/-- **A tick** once the three shells run keeps every PCB. -/
theorem keeps_scheduler (fs : FileSys) (s : Kernel) (frame : Frame) (h : 3 ≤ s.pitCount) :
    s.Keeps (s.scheduler fs frame) := by
  have hsave : s.Keeps s.saveContext := s.keeps_modifyPcb _ fun _ => Pcb.keeps_of_eq rfl rfl
  have hfinish : s.saveContext.Keeps s.saveContext.finishBoot := by
    unfold finishBoot
    split_ifs
    · have h := s.saveContext.keeps_modifyPcb s.processNum
        (f := fun p => { p with isShell := true, isBaseShell := true, parentId := -1, active := true })
        fun _ => Pcb.keeps_of_active (fun _ _ => rfl) rfl
      exact h
    · exact keeps_of_pcb_eq rfl
  rw [scheduler, if_neg (by omega), if_neg (by omega)]
  exact (hsave.trans hfinish).trans (keeps_of_pcb_eq rfl)

theorem keeps_nextTerminal (s : Kernel) : s.Keeps s.nextTerminal := by
  have hsave : s.Keeps s.saveContext := s.keeps_modifyPcb _ fun _ => Pcb.keeps_of_eq rfl rfl
  have hmodify := s.saveContext.keeps_modifyPcb s.processNum
    (f := fun p => { p with isShell := true, active := true })
    fun _ => Pcb.keeps_of_active (fun _ _ => rfl) rfl
  exact hsave.trans hmodify

theorem keeps_execute (fs : FileSys) (s : Kernel) (command : CString) (frame : Frame)
    (hmax : s.processNum ≤ maxPcb) : s.Keeps (s.execute fs command frame).2 := by
  rcases s.execute_cases fs command frame hmax with ⟨pid, hlaunch⟩ | hstop
  · exact hlaunch.keeps.1
  · exact keeps_of_pcb_eq hstop.2.pcb

/-! ### `close` and the halts -/

/-- The `close` handlers free a descriptor, or do nothing. -/
theorem keeps_closeHandler (s : Kernel) (fop : FopTable) (fd : ℤ) :
    s.Keeps (s.closeHandler fop fd).2 := by
  intro q
  constructor
  · intro i _
    rcases s.closeHandler_fileDescriptor fop fd q i with heq | ⟨-, heq⟩
    · exact Or.inl heq
    · exact Or.inr (by rw [heq])
  · intro hq
    have hbook := congrArg (fun b : Book => (b.pcb q).active) (s.closeHandler_book fop fd)
    exact hbook.symm.trans hq

theorem keeps_close (s : Kernel) (fd : ℤ) : s.Keeps (s.close fd).2 := by
  have hhandler := s.cli.keeps_closeHandler (s.cli.scheduledDescriptor fd).fop fd
  simp only [Kernel.close]
  split_ifs
  · exact keeps_of_pcb_eq rfl
  · exact hhandler

theorem keeps_closeIfOpen (s : Kernel) (pid i : ℤ) : s.Keeps (s.closeIfOpen pid i) := by
  unfold closeIfOpen
  split_ifs
  · exact s.keeps_closeHandler _ i
  · exact keeps_of_pcb_eq rfl

theorem keeps_closeTurns (s : Kernel) (pid : ℤ) (l : List ℤ) :
    s.Keeps (runAll (l.map fun i t => closeIfOpen t pid i) s) :=
  runAll_invariant (P := s.Keeps)
    (fun f hf t ht => by
      obtain ⟨i, _, rfl⟩ := List.mem_map.1 hf
      exact ht.trans (t.keeps_closeIfOpen pid i))
    (keeps_of_pcb_eq rfl)

/-- **The halt of a base shell** keeps every PCB. -/
theorem keeps_restart (s : Kernel) (status : ℤ) (frame : Frame)
    (hbase : (s.pcb s.processNum).isBaseShell = true) : s.Keeps (s.halt status frame) := by
  have hclose := (s.beforeRestart s.processNum status).keeps_closeTurns s.processNum
    [0, 1, 2, 3, 4, 5, 6]
  have hrestart : s.Keeps (runAll (restartCode s.processNum status) s) := fun q => by
    rw [restartCode_eq]
    exact hclose q
  simp only [halt]
  rw [if_neg (by simp [hbase])]
  exact hrestart.trans (keeps_launch _ 0 _ frame.isShellFlag frame)

/-- **The halt of another process** frees descriptors, and makes no other process inactive. -/
theorem frees_halt (s : Kernel) (status : ℤ) (frame : Frame)
    (hbase : (s.pcb s.processNum).isBaseShell = false) (q : ℤ) :
    (s.pcb q).Frees ((s.halt status frame).pcb q) ∧
      (q ≠ s.processNum → (s.pcb q).Keeps ((s.halt status frame).pcb q)) := by
  set u := runAll (closeCode s.processNum) (s.beforeClose s.processNum status) with hu
  have hclose : s.Keeps u := keeps_closeTurns (s.beforeClose s.processNum status) s.processNum _
  have hhalt : (s.halt status frame).pcb
      = ((u.setActive s.processNum false).setActive (u.pcb s.processNum).parentId true).pcb := by
    simp only [halt]
    rw [if_pos hbase, haltCode_eq, resumeParent_eq]
  have hfd : ((s.halt status frame).pcb q).fileDescriptor = (u.pcb q).fileDescriptor := by
    rw [hhalt, setActive_fileDescriptor, setActive_fileDescriptor]
  have hfrees : (s.pcb q).Frees ((s.halt status frame).pcb q) := fun i hi => by
    rw [hfd]
    exact (hclose q).frees i hi
  refine ⟨hfrees, fun hne => ⟨hfrees, fun hidle => (hclose q).active ?_⟩⟩
  rw [hhalt, setActive, modifyPcb_pcb] at hidle
  split_ifs at hidle with hparent
  rwa [setActive, modifyPcb_pcb_of_ne hne] at hidle

/-- The close loop frees the descriptor, if it is open: it comes to it, and the handler looks
for the process in the right place, which the RTC's does where the schedule says. -/
def Releases (s : Kernel) (i : ℤ) : Prop :=
  i < fdMax ∧
    (((s.pcb s.processNum).fileDescriptor i).fop = .rtc → s.scheduledPid = s.processNum)

/-- **A turn of the close loop** leaves the descriptor open when the RTC's handler looks for
the process elsewhere. -/
theorem closeIfOpen_flags (h : (s.pcb s.processNum).Typed) {i : ℤ}
    (hi : fdMin ≤ i ∧ i ≤ fdMax) :
    (((s.closeIfOpen s.processNum i).pcb s.processNum).fileDescriptor i).flags = true ↔
      ((s.pcb s.processNum).fileDescriptor i).flags = true ∧
        ((s.pcb s.processNum).fileDescriptor i).fop = .rtc ∧ s.scheduledPid ≠ s.processNum := by
  by_cases hopen : ((s.pcb s.processNum).fileDescriptor i).flags = true
  · have hkind : ((s.pcb s.processNum).fileDescriptor i).fop.kind ≠ none := h i hi.1 hi.2 hopen
    rw [closeIfOpen, if_pos hopen]
    cases hfop : ((s.pcb s.processNum).fileDescriptor i).fop with
    | stdin | stdout => exact absurd (by rw [hfop]; rfl) hkind
    | rtc =>
      show (((s.cli.closeDescriptor s.scheduledPid i 0).2.pcb s.processNum).fileDescriptor
        i).flags = true ↔ _
      rw [closeDescriptor_fileDescriptor]
      split_ifs with hself
      · exact ⟨nofun, fun hne => absurd hself.1.symm hne.2.2⟩
      · refine ⟨fun hflags => ⟨hopen, rfl, fun hsched => hself ⟨hsched.symm, rfl, hi⟩⟩, ?_⟩
        exact fun hflags => hflags.1
    | directory | file =>
      show (((s.closeDescriptor s.processNum i _).2.pcb s.processNum).fileDescriptor
        i).flags = true ↔ _
      rw [closeDescriptor_fileDescriptor, if_pos ⟨rfl, rfl, hi⟩]
      exact ⟨nofun, fun hrtc => absurd hrtc.2.1 nofun⟩
  · rw [closeIfOpen, if_neg hopen]
    exact ⟨fun hflags => absurd hflags hopen, fun hflags => absurd hflags.1 hopen⟩

/-- **Turns of the close loop,** for any list of descriptors. -/
theorem closeTurns_flags (h : (s.pcb s.processNum).Typed) (hpid : s.processNum = pid) {i : ℤ}
    (hi : fdMin ≤ i ∧ i ≤ fdMax) (l : List ℤ) :
    (((runAll (l.map fun j t => closeIfOpen t pid j) s).pcb pid).fileDescriptor i).flags = true ↔
      ((s.pcb pid).fileDescriptor i).flags = true ∧
        (i ∈ l → ((s.pcb pid).fileDescriptor i).fop = .rtc ∧ s.scheduledPid ≠ pid) := by
  induction l generalizing s with
  | nil => exact ⟨fun hopen => ⟨hopen, fun hmem => absurd hmem List.not_mem_nil⟩, And.left⟩
  | cons j l ih =>
    have hbook := s.closeIfOpen_book pid j
    have hnum : (s.closeIfOpen pid j).processNum = s.processNum := congrArg Book.processNum hbook
    have hsched : (s.closeIfOpen pid j).scheduledPid = s.scheduledPid :=
      congrArg (fun b : Book => b.currPid b.scheduleIdx) hbook
    have htyped : ((s.closeIfOpen pid j).pcb (s.closeIfOpen pid j).processNum).Typed := by
      rw [hnum]
      exact (s.keeps_closeIfOpen pid j _).frees.typed h
    refine (ih htyped (hnum.trans hpid)).trans ?_
    rw [hsched]
    subst hpid
    by_cases hij : i = j
    · subst hij
      have hfop : (((s.closeIfOpen s.processNum i).pcb s.processNum).fileDescriptor i).fop
          = ((s.pcb s.processNum).fileDescriptor i).fop := by
        rcases s.closeIfOpen_fileDescriptor s.processNum i s.processNum i with heq | ⟨-, heq⟩
        · rw [heq]
        · rw [heq]
      rw [closeIfOpen_flags h hi, hfop]
      constructor
      · exact fun hopen => ⟨hopen.1.1, fun _ => hopen.1.2⟩
      · exact fun hopen =>
          ⟨⟨hopen.1, hopen.2 (List.mem_cons_self ..)⟩, fun _ => hopen.2 (List.mem_cons_self ..)⟩
    · have hsame : ((s.closeIfOpen s.processNum j).pcb s.processNum).fileDescriptor i
          = (s.pcb s.processNum).fileDescriptor i :=
        (s.closeIfOpen_fileDescriptor s.processNum j s.processNum i).resolve_right
          fun heq => hij heq.1
      rw [hsame, List.mem_cons, or_iff_right hij]

/-- **A halt frees every descriptor** of its process exactly when its close loop frees those
that are open. -/
theorem allFree_halt_iff (h : (s.pcb s.processNum).Typed) (status : ℤ) (frame : Frame)
    (hbase : (s.pcb s.processNum).isBaseShell = false) :
    ((s.halt status frame).pcb s.processNum).AllFree ↔
      ∀ i, fdMin ≤ i → i ≤ fdMax → ((s.pcb s.processNum).fileDescriptor i).flags = true →
        s.Releases i := by
  have hfd : ((s.halt status frame).pcb s.processNum).fileDescriptor
      = ((runAll (closeCode s.processNum) (s.beforeClose s.processNum status)).pcb
          s.processNum).fileDescriptor := by
    simp only [halt]
    rw [if_pos hbase, haltCode_eq, resumeParent_eq]
    exact (setActive_fileDescriptor _ _ _ _).trans (setActive_fileDescriptor _ _ _ _)
  refine forall_congr' fun i => forall_congr' fun hi => forall_congr' fun hi' => ?_
  have hturns := closeTurns_flags (s := s.beforeClose s.processNum status) h rfl ⟨hi, hi'⟩
    [0, 1, 2, 3, 4, 5, 6]
  have hmem : i ∈ [(0 : ℤ), 1, 2, 3, 4, 5, 6] ↔ i < fdMax := by
    simp only [List.mem_cons, List.not_mem_nil, or_false]
    unfold fdMin at hi
    unfold fdMax
    omega
  rw [hmem] at hturns
  rw [hfd, ← Bool.not_eq_true]
  refine (not_congr hturns).trans ?_
  show ¬ (((s.pcb s.processNum).fileDescriptor i).flags = true ∧
    (i < fdMax → ((s.pcb s.processNum).fileDescriptor i).fop = .rtc ∧
      s.scheduledPid ≠ s.processNum)) ↔ _
  unfold Releases
  tauto

/-! ### `open` -/

/-- The process in whose table `open` looks for a free descriptor, if the name has an entry. -/
def openPid (fs : FileSys) (s : Kernel) (filename : Option CString) : Option ℤ :=
  match filename with
  | none => none
  | some filename =>
    match readDentryByName fs filename with
    | none => none
    | some dentry =>
      if dentry.fileType = rtcFileType then some s.scheduledPid
      else if dentry.fileType = directoryFileType then some s.processNum
      else if dentry.fileType = regularFileType then some s.processNum
      else none

/-- The `open` functions leave every table typed. -/
theorem typed_openDescriptor (fs : FileSys) {pid : ℤ} {fop : FopTable} (hfop : fop.kind ≠ none)
    {fileType : ℕ} {inodeOf : Dentry → ℕ} {filename : CString} {q : ℤ} (h : (s.pcb q).Typed) :
    ((s.openDescriptor fs pid fop fileType inodeOf filename).2.pcb q).Typed := by
  unfold openDescriptor
  split
  · exact h
  · split
    · exact h
    · split_ifs
      · exact h
      · intro i hi hi'
        dsimp only
        rw [modifyDescriptor_fileDescriptor]
        split_ifs
        · exact fun _ => hfop
        · exact h i hi hi'
      · exact h

/-- **`open`** leaves every table typed. -/
theorem typed_openCall (fs : FileSys) (filename : Option CString) (junk : ℤ) {q : ℤ}
    (h : (s.pcb q).Typed) : ((s.openCall fs filename junk).2.pcb q).Typed := by
  have hcli : (s.cli.pcb q).Typed := h
  have hreset : (s.cli.cli.resetRtc.pcb q).Typed := h
  unfold openCall
  split
  · exact h
  · split
    · exact h
    · dsimp only
      split_ifs
      · exact typed_openDescriptor fs (by decide) hreset
      · exact typed_openDescriptor fs (by decide) hcli
      · exact typed_openDescriptor fs (by decide) hcli
      · exact h

/-- **`open`** changes no other table than the one it looks in. -/
theorem openCall_pcb_of_ne (fs : FileSys) (s : Kernel) (filename : Option CString) (junk : ℤ)
    {q : ℤ} (hq : q ∉ s.openPid fs filename) :
    (s.openCall fs filename junk).2.pcb q = s.pcb q := by
  unfold openPid at hq
  unfold openCall
  split
  · rfl
  · split
    · rfl
    · rename_i dentry hfound
      simp only [hfound] at hq
      dsimp only
      split_ifs at hq ⊢
      · exact openDescriptor_pcb_of_ne fs s.cli.cli.resetRtc _ _ _ _ fun heq =>
          hq (Option.mem_some.2 heq.symm)
      · exact openDescriptor_pcb_of_ne fs s.cli _ _ _ _ fun heq =>
          hq (Option.mem_some.2 heq.symm)
      · exact openDescriptor_pcb_of_ne fs s.cli _ _ _ _ fun heq =>
          hq (Option.mem_some.2 heq.symm)
      · rfl

end Kernel

/-! ### Steps -/

section Steps

variable {fs : FileSys} {s t u : Kernel} {e : Event} {es : List Event} {pid : ℤ}

/-- The two operations that end a process. -/
def Event.IsHalt : Event → Prop
  | .systemHalt .. | .exceptionHalt .. => True
  | _ => False

/-- **A step keeps the PCBs,** unless it is an `open` or the halt of a process that is not a
base shell. -/
theorem Step.keeps_cases (hmax : s.processNum ≤ maxPcb) (hstep : Step fs s e t) :
    s.Keeps t ∨
      (∃ filename junk, e = .openCall filename junk ∧ t = (s.openCall fs filename junk).2) ∨
      (e.IsHalt ∧ (s.pcb s.processNum).isBaseShell = false ∧
        ∃ status frame, t = s.halt status frame) := by
  have hhalt (he : e.IsHalt) (status : ℤ) (frame : Frame) (heq : t = s.halt status frame) :
      s.Keeps t ∨
        (∃ filename junk, e = .openCall filename junk ∧ t = (s.openCall fs filename junk).2) ∨
        (e.IsHalt ∧ (s.pcb s.processNum).isBaseShell = false ∧
          ∃ status frame, t = s.halt status frame) := by
    cases hbase : (s.pcb s.processNum).isBaseShell with
    | true => exact Or.inl (heq ▸ s.keeps_restart status frame hbase)
    | false => exact Or.inr (Or.inr ⟨he, rfl, status, frame, heq⟩)
  cases hstep with
  | tick esp ebp frame =>
    refine Or.inl ?_
    by_cases hpit : s.pitCount < 3
    · rw [Kernel.scheduler_of_boot fs (s.withRegisters esp ebp) frame hpit, Kernel.bootShell]
      split_ifs
      · exact Kernel.keeps_execute fs ((s.withRegisters esp ebp).modifyConsole _) _ frame hmax
      · exact (s.withRegisters esp ebp).keeps_nextTerminal.trans
          (Kernel.keeps_execute fs _ _ frame hmax)
    · exact Kernel.keeps_scheduler fs (s.withRegisters esp ebp) frame (show 3 ≤ s.pitCount by omega)
  | execute hrun command frame => exact Or.inl (Kernel.keeps_execute fs s command frame hmax)
  | systemHalt hrun status frame => exact hhalt trivial _ frame rfl
  | exceptionHalt hrun status frame => exact hhalt trivial _ frame rfl
  | getargs hrun buf nbytes =>
    obtain ⟨stored, console, flag, hframe⟩ := s.getargs_frame buf nbytes
    rw [hframe]
    exact Or.inl (Kernel.keeps_of_pcb_eq rfl)
  | openCall hrun filename junk => exact Or.inr (Or.inl ⟨filename, junk, rfl, rfl⟩)
  | close hrun fd => exact Or.inl (s.keeps_close fd)
  | vidmap hrun screenStart =>
    obtain ⟨dir, table, flag, hframe, -⟩ := s.vidmap_frame screenStart
    rw [hframe]
    exact Or.inl (Kernel.keeps_of_pcb_eq rfl)
  | switchTerminals next => exact Or.inl (Kernel.keeps_of_pcb_eq rfl)

/-- **Every step** leaves every table typed. -/
theorem Step.typed (hmax : s.processNum ≤ maxPcb) (h : ∀ q, (s.pcb q).Typed)
    (hstep : Step fs s e t) (q : ℤ) : (t.pcb q).Typed := by
  rcases hstep.keeps_cases hmax with hkeeps | ⟨filename, junk, -, rfl⟩ |
    ⟨-, hbase, status, frame, rfl⟩
  · exact (hkeeps q).frees.typed (h q)
  · exact Kernel.typed_openCall fs filename junk (h q)
  · exact (s.frees_halt status frame hbase q).1.typed (h q)

/-! ### Runs -/

/-- The step leaves no descriptor open in a PCB that is not in use: `open` looks in the table
of an active PCB, and a process that is not a base shell halts with no descriptor open but
those that the close loop frees. -/
def LeavesClean (fs : FileSys) (s : Kernel) : Event → Prop
  | .openCall filename _ => ∀ pid ∈ s.openPid fs filename, (s.pcb pid).active = true
  | .systemHalt .. | .exceptionHalt .. => (s.pcb s.processNum).isBaseShell = true ∨
      ∀ i, fdMin ≤ i → i ≤ fdMax → ((s.pcb s.processNum).fileDescriptor i).flags = true →
        s.Releases i
  | _ => True

theorem LeavesClean.releases (h : LeavesClean fs s e) (he : e.IsHalt)
    (hbase : (s.pcb s.processNum).isBaseShell = false) (i : ℤ) (hi : fdMin ≤ i) (hi' : i ≤ fdMax)
    (hopen : ((s.pcb s.processNum).fileDescriptor i).flags = true) : s.Releases i := by
  cases e with
  | systemHalt | exceptionHalt => exact h.resolve_left (by simp [hbase]) i hi hi' hopen
  | _ => exact he.elim

/-- The numbers are in range, every table is typed, and free PCBs are clean. -/
structure Tidy (s : Kernel) : Prop where
  bounded : s.book.Bounded
  typed : ∀ q, (s.pcb q).Typed
  idle : ∀ q, (s.pcb q).Idle

theorem PowerOn.typed (h : PowerOn s) (q : ℤ) : (s.pcb q).Typed := by
  intro i _ _ hopen
  exact absurd (((h.pcb q).flags i).symm.trans hopen) Bool.false_ne_true

theorem PowerOn.tidy (h : PowerOn s) : Tidy s where
  bounded := h.bounded
  typed := h.typed
  idle := fun q _ i _ _ => (h.pcb q).flags i

/-- **A step** keeps free PCBs clean, if it leaves no descriptor open in one. -/
theorem Tidy.step (h : Tidy s) (hstep : Step fs s e t) (hclean : LeavesClean fs s e) :
    Tidy t where
  bounded := hstep.bounded h.bounded
  typed := hstep.typed h.bounded.processNum.2 h.typed
  idle := by
    intro q
    rcases hstep.keeps_cases h.bounded.processNum.2 with hkeeps |
      ⟨filename, junk, rfl, rfl⟩ | ⟨he, hbase, status, frame, rfl⟩
    · exact (hkeeps q).idle (h.idle q)
    · by_cases hq : q ∈ s.openPid fs filename
      · have hbook := congrArg (fun b : Book => (b.pcb q).active) (s.openCall_book fs filename junk)
        exact fun hidle =>
          absurd (hidle.symm.trans (hbook.trans (hclean q hq))) Bool.false_ne_true
      · rw [Kernel.openCall_pcb_of_ne fs s filename junk hq]
        exact h.idle q
    · by_cases hq : q = s.processNum
      · subst hq
        exact fun _ =>
          (s.allFree_halt_iff (h.typed _) status frame hbase).2 (hclean.releases he hbase)
      · exact ((s.frees_halt status frame hbase q).2 hq).idle (h.idle q)

/-- **A new process has descriptors 0 and 1 only** exactly when its PCB was left clean. -/
theorem Kernel.Launches.onlyStdio_iff {command : CString} {frame : Frame}
    (h : s.Launches fs command frame pid) :
    ((s.execute fs command frame).2.pcb pid).OnlyStdio ↔ (s.pcb pid).AllFree := by
  have hfd := h.keeps.2
  constructor
  · intro honly i hi hi'
    have hclosed := (honly i (by unfold fdMin at hi; omega) hi').not
    rw [hfd, openStdio_of_le _ hi] at hclosed
    exact Bool.eq_false_iff.2 (hclosed.2 (by unfold fdMin at hi; omega))
  · intro hfree i hi hi'
    rw [hfd]
    by_cases hmin : fdMin ≤ i
    · rw [openStdio_of_le _ hmin, hfree i hmin hi']
      unfold fdMin at hmin
      exact ⟨nofun, by omega⟩
    · unfold fdMin at hmin
      obtain rfl | rfl : i = 0 ∨ i = 1 := by omega
      · exact ⟨fun _ => Or.inl rfl, fun _ => rfl⟩
      · exact ⟨fun _ => Or.inr rfl, fun _ => rfl⟩

theorem Kernel.Launches.onlyStdio {command : CString} {frame : Frame}
    (h : s.Launches fs command frame pid) (hidle : (s.pcb pid).Idle) :
    ((s.execute fs command frame).2.pcb pid).OnlyStdio :=
  h.onlyStdio_iff.2 (hidle h.firstFree.free)

/-- The operation starts process `pid`: it is a successful call of `execute`, by a process or
by one of the first three ticks. -/
def Starts (fs : FileSys) (s : Kernel) (pid : ℤ) : Event → Prop
  | .execute command frame => (s.execute fs command frame).1 = .launched pid
  | .tick esp ebp frame => s.pitCount < 3 ∧
      ((s.withRegisters esp ebp).bootShell fs frame).1 = .launched pid
  | _ => False

/-- **A process that starts** while free PCBs are clean. -/
theorem Tidy.onlyStdio (h : Tidy s) (hstep : Step fs s e t) (hstarts : Starts fs s pid e) :
    (t.pcb pid).OnlyStdio := by
  have hmax := h.bounded.processNum.2
  cases hstep with
  | execute hrun command frame => exact (launches_of_eq hmax hstarts).onlyStdio (h.idle pid)
  | tick esp ebp frame =>
    obtain ⟨hpit, hpid⟩ := hstarts
    rw [Kernel.scheduler_of_boot fs (s.withRegisters esp ebp) frame hpit]
    unfold Kernel.bootShell at hpid ⊢
    split_ifs at hpid ⊢
    · refine (launches_of_eq ?_ hpid).onlyStdio ?_
      · exact hmax
      · exact h.idle pid
    · refine (launches_of_eq ?_ hpid).onlyStdio ?_
      · exact hmax
      · exact ((s.withRegisters esp ebp).keeps_nextTerminal pid).idle (h.idle pid)
  | _ => exact hstarts.elim

/-- **Every process starts with descriptors 0 and 1 only,** in every run from power-on in which
no process but a base shell halts with a descriptor open that the close loop does not free, and
`open` looks in tables of active PCBs. -/
theorem onlyStdio_of_run (hboot : PowerOn s)
    (hr : Run (Guarded (LeavesClean fs) (Step fs)) s es t) (hstep : Step fs t e u)
    (hstarts : Starts fs t pid e) : (u.pcb pid).OnlyStdio := by
  have htidy : Tidy t := hr.invariant (I := Tidy)
    (fun _ _ _ hs hstep => hs.step hstep.2 hstep.1) hboot.tidy
  exact htidy.onlyStdio hstep hstarts

/-! ### Runs with an orderly boot -/

/-- The running process of a state that boot led to can make system calls. -/
theorem Started.serving (h : Started s) (htyped : ∀ q, (s.pcb q).Typed) (hrun : 0 ≤ s.processNum) :
    s.Serving := by
  obtain ⟨m, hm⟩ := h.represents hrun
  exact ⟨hm.running_eq.1.symm, htyped _⟩

/-- **System calls work** in every state reached from power-on. -/
theorem serving_of_run (hboot : PowerOn s) (hr : Run (Guarded (Orderly fs) (Step fs)) s es t)
    (hrun : 0 ≤ t.processNum) : t.Serving := by
  have hinv : Started t ∧ ∀ q, (t.pcb q).Typed :=
    hr.invariant (I := fun s => Started s ∧ ∀ q, (s.pcb q).Typed)
      (fun _ _ _ hs hstep =>
        ⟨hs.1.step hstep.2 hstep.1, hstep.2.typed hs.1.processNum_le hs.2⟩)
      ⟨Or.inl hboot, hboot.typed⟩
  exact hinv.1.serving hinv.2 hrun

/-- A process that is not a base shell has descriptor 7 free when it halts. -/
def FreesSeventh (s : Kernel) (e : Event) : Prop :=
  e.IsHalt → (s.pcb s.processNum).isBaseShell = true ∨
    ((s.pcb s.processNum).fileDescriptor fdMax).flags = false

/-- The running process of an orderly run is active, and it is the one that the RTC's handlers
find. -/
theorem Started.running (h : Started s) (hrun : 0 ≤ s.processNum) :
    s.scheduledPid = s.processNum ∧ (s.pcb s.processNum).active = true := by
  obtain ⟨m, hm⟩ := h.represents hrun
  exact ⟨hm.running_eq.1, (hm.of_mem hm.processNum_mem).2.2.1⟩

/-- **In an orderly run** a step leaves free PCBs clean if it leaves no descriptor 7 open. -/
theorem Started.leavesClean (h : Started s) (hstep : Step fs s e t)
    (hseventh : FreesSeventh s e) : LeavesClean fs s e := by
  have hreleases (hrun : 0 ≤ s.processNum) (he : e.IsHalt) :
      (s.pcb s.processNum).isBaseShell = true ∨
        ∀ i, fdMin ≤ i → i ≤ fdMax → ((s.pcb s.processNum).fileDescriptor i).flags = true →
          s.Releases i := by
    refine (hseventh he).imp_right fun hfree i _ hi' hopen => ⟨?_, fun _ => (h.running hrun).1⟩
    refine lt_of_le_of_ne hi' fun hlast => ?_
    subst hlast
    exact absurd (hfree.symm.trans hopen) Bool.false_ne_true
  cases hstep with
  | systemHalt hrun => exact hreleases hrun trivial
  | exceptionHalt hrun => exact hreleases hrun trivial
  | openCall hrun filename junk =>
    intro pid hpid
    obtain ⟨hsched, hactive⟩ := h.running hrun
    have hself : pid = s.processNum := by
      unfold Kernel.openPid at hpid
      split at hpid
      · exact absurd hpid nofun
      · split at hpid
        · exact absurd hpid nofun
        · split_ifs at hpid
          · exact (Option.mem_some.1 hpid).symm.trans hsched
          · exact (Option.mem_some.1 hpid).symm
          · exact (Option.mem_some.1 hpid).symm
          · exact absurd hpid nofun
    exact hself ▸ hactive
  | _ => trivial

/-- **After an orderly boot** descriptor 7 decides: a run in which no process but a base shell
halts with it open leaves free PCBs clean in every step. -/
theorem leavesClean_of_run (hboot : PowerOn s)
    (hr : Run (Guarded (fun s e => Orderly fs s e ∧ FreesSeventh s e) (Step fs)) s es t) :
    Run (Guarded (LeavesClean fs) (Step fs)) s es t := by
  obtain ⟨_, ⟨rfl, -⟩, hclean⟩ := hr.simulate (Guarded (LeavesClean fs) (Step fs))
    (R := fun s s' => s' = s ∧ Started s)
    (fun _ _ t _ hs hstep => by
      obtain ⟨rfl, hstarted⟩ := hs
      have hclean := hstarted.leavesClean hstep.2 hstep.1.2
      exact ⟨t, ⟨rfl, hstarted.step hstep.2 hstep.1.1⟩, hclean, hstep.2⟩)
    ⟨rfl, Or.inl hboot⟩
  exact hclean

end Steps

/-! ### Two runs -/

/-- The kernel at power-on, with its memory zero. -/
def powerOnKernel : Kernel := { (default : Kernel) with processNum := -1 }

/-- An image with the shell only. -/
def shellImage : FileSys :=
  { programImage with
    direntries := fun _ =>
      { filename := Kernel.shellCommand.get, fileType := regularFileType, inodeNum := 0 } }

/-- A tick. -/
def ticked (s : Kernel) : Kernel := (s.withRegisters 0 0).scheduler shellImage zeroFrame

/-- The kernel after the fourth tick. -/
def shellsKernel : Kernel := ticked (ticked (ticked (ticked powerOnKernel)))

/-- The first shell has started another. -/
def childKernel : Kernel := (shellsKernel.execute shellImage Kernel.shellCommand zeroFrame).2

/-- The running process has opened the file of the shell. -/
def opened (s : Kernel) : Kernel := (s.openCall shellImage (some Kernel.shellCommand) 0).2

/-- The child has opened it six times. -/
def fullKernel : Kernel := opened (opened (opened (opened (opened (opened childKernel)))))

/-- Memory is zero before the first tick. -/
theorem powerOn_powerOnKernel : PowerOn powerOnKernel :=
  ⟨rfl, rfl, rfl, fun _ => ⟨rfl, rfl, rfl, rfl, rfl, rfl, fun _ => rfl⟩⟩

/-- The boot is orderly. -/
theorem run_childKernel :
    Run (Guarded (fun s e => Orderly shellImage s e ∧ FreesSeventh s e) (Step shellImage))
      powerOnKernel
      (List.replicate 4 (.tick 0 0 zeroFrame) ++ [.execute Kernel.shellCommand zeroFrame])
      childKernel := by
  have htick (s : Kernel) (h : s.pitCount < 3 → ∃ pid,
      ((s.withRegisters 0 0).bootShell shellImage zeroFrame).1 = .launched pid) :
      Guarded (fun s e => Orderly shellImage s e ∧ FreesSeventh s e) (Step shellImage) s
        (.tick 0 0 zeroFrame) (ticked s) :=
    ⟨⟨Or.inr h, False.elim⟩, .tick s 0 0 zeroFrame⟩
  have hexecute : Guarded (fun s e => Orderly shellImage s e ∧ FreesSeventh s e) (Step shellImage)
      shellsKernel (.execute Kernel.shellCommand zeroFrame) childKernel :=
    ⟨⟨Or.inl (by decide +kernel), False.elim⟩, .execute (by decide +kernel) _ zeroFrame⟩
  exact .cons (htick _ fun _ => ⟨0, by decide +kernel⟩)
    (.cons (htick _ fun _ => ⟨1, by decide +kernel⟩)
      (.cons (htick _ fun _ => ⟨2, by decide +kernel⟩)
        (.cons (htick _ fun h => absurd h (by decide +kernel)) (.single hexecute))))

/-- The child opens a file and halts, and the next one has descriptors 0 and 1 only. -/
theorem onlyStdio_after_open :
    ((((opened childKernel).systemHalt 0 zeroFrame).execute shellImage Kernel.shellCommand
      zeroFrame).2.pcb 3).OnlyStdio := by
  have hopen : Guarded (fun s e => Orderly shellImage s e ∧ FreesSeventh s e) (Step shellImage)
      childKernel (.openCall (some Kernel.shellCommand) 0) (opened childKernel) :=
    ⟨⟨Or.inl (by decide +kernel), False.elim⟩, .openCall (by decide +kernel) _ 0⟩
  have hhalt : Guarded (fun s e => Orderly shellImage s e ∧ FreesSeventh s e) (Step shellImage)
      (opened childKernel) (.systemHalt 0 zeroFrame)
      ((opened childKernel).systemHalt 0 zeroFrame) :=
    ⟨⟨Or.inl (by decide +kernel), fun _ => Or.inr (by decide +kernel)⟩,
      .systemHalt (by decide +kernel) 0 zeroFrame⟩
  have hclean := leavesClean_of_run powerOn_powerOnKernel
    (run_childKernel.append (.cons hopen (.single hhalt)))
  exact onlyStdio_of_run powerOn_powerOnKernel hclean
    (.execute (by decide +kernel) Kernel.shellCommand zeroFrame)
    (show (Kernel.execute ..).1 = .launched 3 by decide +kernel)

/-- **A process can find a descriptor open:** the first shell starts another, which opens six
files and halts; the next process with its number finds descriptor 7 open. -/
theorem not_onlyStdio_after_halt :
    PowerOn powerOnKernel ∧
      Run (Guarded (Orderly shellImage) (Step shellImage)) powerOnKernel
        (List.replicate 4 (.tick 0 0 zeroFrame) ++ [.execute Kernel.shellCommand zeroFrame] ++
          List.replicate 6 (.openCall (some Kernel.shellCommand) 0) ++ [.systemHalt 0 zeroFrame])
        (fullKernel.systemHalt 0 zeroFrame) ∧
      ((fullKernel.systemHalt 0 zeroFrame).execute shellImage Kernel.shellCommand zeroFrame).1
        = .launched 3 ∧
      ¬ (((fullKernel.systemHalt 0 zeroFrame).execute shellImage Kernel.shellCommand
        zeroFrame).2.pcb 3).OnlyStdio := by
  have hopen (s : Kernel) (hrun : 0 ≤ s.processNum) (hpit : s.pitCount = 4) :
      Guarded (Orderly shellImage) (Step shellImage) s (.openCall (some Kernel.shellCommand) 0)
        (opened s) :=
    ⟨Or.inl hpit, .openCall hrun _ 0⟩
  have hhalt : Guarded (Orderly shellImage) (Step shellImage) fullKernel (.systemHalt 0 zeroFrame)
      (fullKernel.systemHalt 0 zeroFrame) :=
    ⟨Or.inl (by decide +kernel), .systemHalt (by decide +kernel) 0 zeroFrame⟩
  have hboot : Run (Guarded (Orderly shellImage) (Step shellImage)) powerOnKernel
      (List.replicate 4 (.tick 0 0 zeroFrame) ++ [.execute Kernel.shellCommand zeroFrame])
      childKernel := run_childKernel.mono fun _ _ _ h => ⟨h.1.1, h.2⟩
  have hfull : Run (Guarded (Orderly shellImage) (Step shellImage)) childKernel
      (List.replicate 6 (.openCall (some Kernel.shellCommand) 0)) fullKernel :=
    .cons (hopen _ (by decide +kernel) (by decide +kernel))
      (.cons (hopen _ (by decide +kernel) (by decide +kernel))
        (.cons (hopen _ (by decide +kernel) (by decide +kernel))
          (.cons (hopen _ (by decide +kernel) (by decide +kernel))
            (.cons (hopen _ (by decide +kernel) (by decide +kernel))
              (.single (hopen _ (by decide +kernel) (by decide +kernel)))))))
  have hrun := (hboot.append hfull).append (.single hhalt)
  have hlaunched : ((fullKernel.systemHalt 0 zeroFrame).execute shellImage Kernel.shellCommand
      zeroFrame).1 = .launched 3 := by decide +kernel
  have hserving : fullKernel.Serving :=
    serving_of_run powerOn_powerOnKernel (hboot.append hfull) (by decide +kernel)
  have hnum : fullKernel.processNum = 3 := by decide +kernel
  refine ⟨powerOn_powerOnKernel, hrun, hlaunched, fun honly => ?_⟩
  have hfree := (launches_of_eq (by decide +kernel) hlaunched).onlyStdio_iff.1 honly
  have hreleased := (fullKernel.allFree_halt_iff hserving.typed 0 zeroFrame (by decide +kernel)).1
    (hnum.symm ▸ hfree) fdMax (by decide) (Int.le_refl _) (by decide +kernel)
  exact absurd hreleased.1 (Int.lt_irrefl _)

end OS391
