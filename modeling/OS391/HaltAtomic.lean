/-
# A halt and the timer

A halt clears the interrupt flag in its first statement.  Between then and the jump to the
parent there are points where the page and the kernel stack are the parent's while
`process_num` and `schedule_array` still name the child; a tick taken there would switch
away from a process that is half gone.  `HaltAtomic` says that no tick can be taken, at any
point and whatever the earlier interrupts did, and that the parent resumes with its page
and its child's status.

It holds exactly when none of the descriptors that the halt closes belongs to the RTC and
the process is not number 29 (`haltAtomic_iff`): `rtc_close` ends with `sti`, and for
process 29 `disable_child_page` clears the parent's page.
-/

import OS391.Context
import OS391.Table

namespace OS391

open Lib

namespace Kernel

/-- Where an interrupt can be taken.  What it leaves is not restricted. -/
def Interruptible (s _t : Kernel) : Prop := s.interruptFlag = true

variable (s : Kernel)

/-- The points a halt of the running process can reach after its first statement. -/
def HaltPoint (status : ℤ) (p : Point Kernel) : Prop :=
  Point.Reach Interruptible (haltCode s.processNum status).tail s.cli p

/-- **The halt of the running process is atomic.** -/
structure HaltAtomic (status : ℤ) : Prop where
  /-- The interrupt flag stays clear up to the jump to the parent. -/
  masked : ∀ p, s.HaltPoint status p → p.state.interruptFlag = false
  /-- Then the parent is the running process, on its own page and with the status. -/
  resumes : ∀ p, s.HaltPoint status p → p.rest = [] →
    p.state.processNum = (s.pcb s.processNum).parentId ∧
      p.state.MapsUserPage (s.pcb s.processNum).parentId ∧ p.state.eax = status

/-- Process `pid` has a descriptor of the RTC open among those that a halt closes. -/
def OpenRtc (pid : ℤ) : Prop :=
  ∃ i ∈ [(0 : ℤ), 1, 2, 3, 4, 5, 6], ((s.pcb pid).fileDescriptor i).flags = true ∧
    ((s.pcb pid).fileDescriptor i).fop = .rtc

instance (pid : ℤ) : Decidable (s.OpenRtc pid) := inferInstanceAs (Decidable (∃ i ∈ _, _))

/-- Interrupts are off, and process `pid` has nothing open that turns them on. -/
structure Quiet (pid : ℤ) : Prop where
  flag : s.interruptFlag = false
  noRtc : ¬ s.OpenRtc pid

/-! ### Halts that stay masked -/

section Quiet

variable {s} {t : Kernel} {pid status : ℤ}

theorem Quiet.congr (h : s.Quiet pid) (hflag : t.interruptFlag = s.interruptFlag)
    (hpcb : ∀ i, (t.pcb pid).fileDescriptor i = (s.pcb pid).fileDescriptor i) : t.Quiet pid where
  flag := hflag.trans h.flag
  noRtc := fun ⟨i, hi, hopen⟩ => h.noRtc ⟨i, hi, by rwa [hpcb] at hopen⟩

/-- Only the handler of the RTC touches the interrupt flag. -/
theorem closeHandler_interruptFlag {fop : FopTable} (h : fop ≠ .rtc) (fd : ℤ) :
    (s.closeHandler fop fd).2.interruptFlag = s.interruptFlag := by
  cases fop with
  | stdin | stdout => rfl
  | rtc => exact absurd rfl h
  | directory =>
    obtain ⟨pcb, hframe⟩ := closeDescriptor_frame s s.processNum fd (-1)
    have hflag := congrArg interruptFlag hframe
    exact hflag
  | file =>
    obtain ⟨pcb, hframe⟩ := closeDescriptor_frame s s.processNum fd 0
    have hflag := congrArg interruptFlag hframe
    exact hflag

/-- A turn of the close loop stays quiet. -/
theorem Quiet.closeIfOpen (h : s.Quiet pid) {j : ℤ} (hj : j ∈ [(0 : ℤ), 1, 2, 3, 4, 5, 6]) :
    (s.closeIfOpen pid j).Quiet pid where
  flag := by
    unfold Kernel.closeIfOpen
    split_ifs with hopen
    · exact (closeHandler_interruptFlag (fun hrtc => h.noRtc ⟨j, hj, hopen, hrtc⟩) j).trans h.flag
    · exact h.flag
  noRtc := by
    rintro ⟨i, hi, hopen, hrtc⟩
    rcases s.closeIfOpen_fileDescriptor pid j pid i with heq | ⟨-, heq⟩
    · rw [heq] at hopen hrtc
      exact h.noRtc ⟨i, hi, hopen, hrtc⟩
    · rw [heq] at hopen
      exact Bool.false_ne_true hopen

/-- **Every statement of a halt stays quiet.** -/
theorem Quiet.stmt (h : s.Quiet pid) {f : Kernel → Kernel}
    (hf : f ∈ (haltCode pid status).tail) : (f s).Quiet pid := by
  have hsame {t : Kernel} (hflag : t.interruptFlag = s.interruptFlag) (hpcb : t.pcb = s.pcb) :
      t.Quiet pid := h.congr hflag fun i => by rw [hpcb]
  have hactive (q : ℤ) (a : Bool) : (s.setActive q a).Quiet pid :=
    h.congr rfl fun i => by rw [setActive_fileDescriptor]
  rcases List.mem_append.1 (show f ∈ (haltHead status).tail ++ _ from hf) with hf | hf
  · simp only [haltHead, List.tail_cons, List.mem_cons, List.not_mem_nil, or_false] at hf
    rcases hf with rfl | rfl <;> exact hsame rfl rfl
  rcases List.mem_append.1 hf with hf | hf
  · simp only [restoreParent, List.mem_cons, List.not_mem_nil, or_false] at hf
    rcases hf with rfl | rfl | rfl | rfl <;> exact hsame rfl rfl
  rcases List.mem_append.1 hf with hf | hf
  · obtain ⟨j, hj, rfl⟩ := List.mem_map.1 hf
    exact h.closeIfOpen hj
  · simp only [resumeParent, List.mem_cons, List.not_mem_nil, or_false] at hf
    rcases hf with rfl | rfl | rfl | rfl | rfl | rfl | rfl | rfl | rfl
    · exact hsame rfl rfl
    · exact hsame rfl rfl
    · exact hactive _ _
    · exact hactive _ _
    · exact hsame rfl rfl
    · dsimp only
      split_ifs
      · exact hsame rfl rfl
      · exact h
    · exact hsame rfl rfl
    · exact hsame rfl rfl
    · exact hsame rfl rfl

/-- **Without an open RTC descriptor** every point of a halt is one it passes by itself, and
is masked. -/
theorem Quiet.haltPoint (h : ¬ s.OpenRtc s.processNum) {p : Point Kernel}
    (hp : s.HaltPoint status p) :
    p.state.interruptFlag = false ∧
      ∃ pre, (haltCode s.processNum status).tail = pre ++ p.rest ∧ p.state = runAll pre s.cli := by
  have hquiet : ∀ pre post, (haltCode s.processNum status).tail = pre ++ post →
      (runAll pre s.cli).Quiet s.processNum := fun pre post hcode =>
    runAll_invariant (P := fun t : Kernel => t.Quiet s.processNum)
      (fun f hf t ht => ht.stmt (hcode ▸ List.mem_append_left post hf)) ⟨rfl, h⟩
  obtain ⟨pre, hcode, hstate⟩ := Point.exists_of_reach
    (fun pre post hcode t henv =>
      Bool.false_ne_true ((hquiet pre post hcode).flag.symm.trans henv)) hp
  exact ⟨hstate ▸ (hquiet pre p.rest hcode).flag, pre, hcode, hstate⟩

end Quiet

/-! ### Halts that do not -/

/-- **With an open RTC descriptor** interrupts come on in the close loop: the page and the
stack are the parent's, and the child is still the running process. -/
theorem OpenRtc.exists_haltPoint (status : ℤ) (h : s.OpenRtc s.processNum) :
    ∃ p, s.HaltPoint status p ∧ p.state.interruptFlag = true ∧
      p.state.processNum = s.processNum ∧ p.state.scheduleArray = s.scheduleArray ∧
      p.state.tssEsp0 = kernelStack (s.pcb s.processNum).parentId ∧
      p.state.pageDir = (s.pagingExecute (s.pcb s.processNum).parentId).disableChildPage.pageDir := by
  obtain ⟨i, hi, hopen, hrtc⟩ := h
  obtain ⟨before, after, hsplit, hnot⟩ := List.eq_append_cons_of_mem hi
  set turn : ℤ → Kernel → Kernel := fun j t => closeIfOpen t s.processNum j with hturn
  have hclose : closeCode s.processNum = before.map turn ++ (turn i :: after.map turn) := by
    rw [← List.map_cons, ← List.map_append, ← hsplit]
    rfl
  set u := runAll (before.map turn) (s.beforeClose s.processNum status) with hu
  obtain ⟨pcb, flag, hframe⟩ :=
    closeTurns_frame (s.beforeClose s.processNum status) s.processNum before
  have hsame : (u.pcb s.processNum).fileDescriptor i = (s.pcb s.processNum).fileDescriptor i :=
    closeTurns_fileDescriptor (s.beforeClose s.processNum status) hnot
  have hthis : turn i u = (u.rtcClose i).2 := by
    simp only [hturn, closeIfOpen, hsame, hopen, hrtc, if_true]
    rfl
  obtain ⟨pcb', hframe'⟩ := closeDescriptor_frame u.cli u.cli.scheduledPid i 0
  have hreach := Point.reach_append Interruptible
    ((haltHead status).tail ++ restoreParent s.processNum ++ before.map turn ++ [turn i])
    (after.map turn ++ resumeParent s.processNum) s.cli
  have hstate : runAll ((haltHead status).tail ++ restoreParent s.processNum ++ before.map turn ++
      [turn i]) s.cli = (u.rtcClose i).2 := by
    rw [runAll_append, runAll_append, ← hthis]
    rfl
  rw [hstate] at hreach
  refine ⟨⟨after.map turn ++ resumeParent s.processNum, (u.rtcClose i).2⟩, ?_, rfl, ?_⟩
  · rw [HaltPoint, haltCode, hclose]
    simpa [haltHead] using hreach
  · rw [rtcClose]
    dsimp only
    rw [hframe', hu, hframe]
    exact ⟨rfl, rfl, rfl, rfl⟩

/-- The end of a halt is a point it reaches. -/
theorem haltPoint_end (status : ℤ) :
    s.HaltPoint status ⟨[], runAll (haltCode s.processNum status) s⟩ := by
  have hreach := Point.reach_append Interruptible (haltCode s.processNum status).tail [] s.cli
  rw [List.append_nil] at hreach
  exact hreach

/-! ### When a halt is atomic -/

/-- What a halt leaves, when no interrupt comes in between. -/
theorem haltCode_end (status : ℤ) (h : (s.pcb s.processNum).isBaseShell = false) :
    let t := runAll (haltCode s.processNum status) s
    t.processNum = (s.pcb s.processNum).parentId ∧ t.eax = status ∧
      t.pageDir = (s.pagingExecute (s.pcb s.processNum).parentId).disableChildPage.pageDir := by
  have hcode : s.halt status default = runAll (haltCode s.processNum status) s := if_pos h
  obtain ⟨hnum, -, hdir, -⟩ := s.halt_frame status default h
  rw [hcode] at hnum hdir
  refine ⟨hnum, ?_, hdir⟩
  obtain ⟨pcb, flag, hclose⟩ := closeCode_frame (s.beforeClose s.processNum status) s.processNum
  rw [haltCode_eq, resumeParent_eq, hclose]
  rfl

/-- **A halt is atomic exactly when** nothing it closes belongs to the RTC and it is not
process 29 that ends.  Process numbers are those of PCBs. -/
theorem haltAtomic_iff (status : ℤ) (hbase : (s.pcb s.processNum).isBaseShell = false)
    (hpid : 0 ≤ s.processNum ∧ s.processNum ≤ maxPcb)
    (hparent : 0 ≤ (s.pcb s.processNum).parentId ∧ (s.pcb s.processNum).parentId ≤ maxPcb) :
    s.HaltAtomic status ↔ ¬ s.OpenRtc s.processNum ∧ s.processNum ≠ 29 := by
  unfold maxPcb at hpid hparent
  obtain ⟨hnum, heax, hdir⟩ := s.haltCode_end status hbase
  set u := s.pagingExecute (s.pcb s.processNum).parentId with hu
  have hentry : u.disableChildPage.pageDir userPageIndex
      = if (32 : ℤ) = s.processNum + 3 then (disabledPage (s.processNum + 3)).val
        else u.pageDir userPageIndex :=
    u.disableChildPage_pageDir hpid.1 (show s.processNum < 1022 by omega) userPageIndex
  constructor
  · intro h
    constructor
    · intro hrtc
      obtain ⟨p, hp, hflag, -⟩ := hrtc.exists_haltPoint s status
      exact Bool.false_ne_true ((h.masked p hp).symm.trans hflag)
    · intro h29
      have hpresent := (h.resumes _ (s.haltPoint_end status) rfl).2.1.present
      rw [hdir, hentry, if_pos (by omega), not_pdPresent_disabledPage] at hpresent
      exact Bool.false_ne_true hpresent
  · rintro ⟨hrtc, h29⟩
    refine ⟨fun p hp => (Quiet.haltPoint hrtc hp).1, fun p hp hend => ?_⟩
    obtain ⟨-, pre, hcode, hstate⟩ := Quiet.haltPoint hrtc hp
    rw [hend, List.append_nil] at hcode
    have hstate' : p.state = runAll (haltCode s.processNum status) s := by
      rw [hstate, ← hcode]
      rfl
    rw [hstate']
    refine ⟨hnum, ?_, heax⟩
    refine (s.mapsUserPage_pagingExecute hparent.1 (by omega)).congr ?_
    rw [hdir, hentry, if_neg (by omega)]

end Kernel

/-- The halt of the program `a`, started from the first shell, is atomic. -/
theorem haltAtomic_program :
    (bootedKernel.execute programImage programCommand zeroFrame).2.HaltAtomic 0 :=
  (Kernel.haltAtomic_iff _ 0 (by decide +kernel) (by decide +kernel) (by decide +kernel)).2
    (by decide +kernel)

/-! ### A program that leaves the RTC open -/

/-- The name `rtc`. -/
def rtcName : CString where
  bytes := ascii "rtc".toList
  noNul := by decide

/-- An image with the program `a` and the device `rtc`. -/
def rtcImage : FileSys := entryImage rtcName rtcFileType

/-- The kernel after the first shell has started `a` and `a` has opened `rtc`. -/
def rtcKernel : Kernel :=
  ((bootedKernel.execute rtcImage programCommand zeroFrame).2.openCall rtcImage (some rtcName) 0).2

/-- **A halt that is not atomic:** from the state after boot `a` is started, opens `rtc` and
halts.  Interrupts are on while process 3 still runs, on the kernel stack of its parent. -/
theorem not_haltAtomic_rtcKernel :
    Booted bootedKernel ∧
      Run (Step rtcImage) bootedKernel
        [.execute programCommand zeroFrame, .openCall (some rtcName) 0] rtcKernel ∧
      (rtcKernel.pcb rtcKernel.processNum).isBaseShell = false ∧
      (∃ p, rtcKernel.HaltPoint 0 p ∧ p.state.interruptFlag = true ∧ p.state.processNum = 3 ∧
        p.state.scheduleArray 0 = 3 ∧ p.state.tssEsp0 = kernelStack 0) ∧
      ¬ rtcKernel.HaltAtomic 0 := by
  have hrtc : rtcKernel.OpenRtc rtcKernel.processNum := by decide +kernel
  have hnum : rtcKernel.processNum = 3 := by decide +kernel
  have harray : rtcKernel.scheduleArray 0 = 3 := by decide +kernel
  have hparent : (rtcKernel.pcb rtcKernel.processNum).parentId = 0 := by decide +kernel
  obtain ⟨p, hp, hflag, hpnum, hparray, hstack, -⟩ := hrtc.exists_haltPoint rtcKernel 0
  have hrun : Run (Step rtcImage) bootedKernel
      [.execute programCommand zeroFrame, .openCall (some rtcName) 0] rtcKernel :=
    .cons (.execute (by decide) programCommand zeroFrame)
      (.single (.openCall (by decide +kernel) (some rtcName) 0))
  refine ⟨booted_bootedKernel, hrun, by decide +kernel, ⟨p, hp, hflag, hpnum.trans hnum, ?_, ?_⟩,
    fun h => Bool.false_ne_true ((h.masked p hp).symm.trans hflag)⟩
  · rw [hparray, harray]
  · rw [hstack, hparent]

end OS391
