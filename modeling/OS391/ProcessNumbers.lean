/-
# The numbers stay in range

The kernel computes addresses, page numbers and indices from process numbers and terminal
numbers that it reads from its PCBs and from `schedule_array`.  They stay in range in every
run from power-on, in whatever order the operations come, also during the boot, where the
records of who runs where need not agree yet (`Step.bounded`).
-/

import OS391.Consistency

namespace OS391

open Lib

/-! ### The records -/

/-- The numbers of a PCB are in range. -/
structure PcbBook.Fits (p : PcbBook) : Prop where
  pid : 0 ≤ p.pid ∧ p.pid ≤ maxPcb
  parentId : p.isBaseShell = false → 0 ≤ p.parentId ∧ p.parentId ≤ maxPcb
  terminalNum : p.terminalNum < 3

/-- The process numbers and terminals that the kernel reads are in range. -/
structure Book.Bounded (b : Book) : Prop where
  processNum : -1 ≤ b.processNum ∧ b.processNum ≤ maxPcb
  /-- From the third shell on a process runs. -/
  running : 3 ≤ b.pitCount → 0 ≤ b.processNum
  pcb : ∀ q, (b.pcb q).Fits
  scheduleArray : ∀ t < 3, t < b.pitCount → 0 ≤ b.scheduleArray t ∧ b.scheduleArray t ≤ maxPcb

namespace Book

variable {b : Book} {pid : ℤ}

/-- One PCB changed into one that fits. -/
theorem fits_modifyPcb (h : ∀ q, (b.pcb q).Fits) (pid : ℤ) {f : PcbBook → PcbBook}
    (hf : (b.pcb pid).Fits → (f (b.pcb pid)).Fits) (q : ℤ) : ((b.modifyPcb pid f).pcb q).Fits := by
  simp only [modifyPcb, Function.update_apply]
  split_ifs
  · exact hf (h pid)
  · exact h q

/-- A process number in range put in `schedule_array`. -/
theorem Bounded.update (h : b.Bounded) {q : ℤ} (hq : 0 ≤ q ∧ q ≤ maxPcb) {t u : ℕ} (hu : u < 3)
    (hpit : u < b.pitCount ∨ u = t) :
    0 ≤ Function.update b.scheduleArray t q u ∧ Function.update b.scheduleArray t q u ≤ maxPcb := by
  rw [Function.update_apply]
  split_ifs with hut
  · exact hq
  · exact h.scheduleArray u hu (hpit.resolve_right hut)

/-- **A start** keeps the numbers in range. -/
theorem Bounded.launch (h : b.Bounded) (hpid : 0 ≤ pid ∧ pid ≤ maxPcb) :
    (b.launch pid).Bounded := by
  by_cases hpit : b.pitCount < 3
  · rw [launch_eq_of_boot hpit]
    have hnew : 0 ≤ (b.pitCount : ℤ) ∧ (b.pitCount : ℤ) ≤ maxPcb := by
      unfold maxPcb
      omega
    have hge : -1 ≤ pid := by omega
    refine ⟨⟨hge, hpid.2⟩, fun _ => hpid.1, fun q => ?_, fun t ht htpit => ?_⟩
    · dsimp only
      rw [Function.update_apply]
      split_ifs
      · exact ⟨hpid, nofun, hpit⟩
      · exact h.pcb q
    · dsimp only at htpit ⊢
      exact h.update hnew ht (by omega)
  · have hsetup : ∀ q, ((b.setup pid).pcb q).Fits := fits_modifyPcb h.pcb pid fun hfits => by
      refine ⟨hpid, fun hbase => ?_, hfits.terminalNum⟩
      have hparent := hfits.parentId hbase
      dsimp only
      rw [if_pos (by omega)]
      exact ⟨h.running (by omega), h.processNum.2⟩
    have hterminal : (b.setup pid).terminalOf pid < 3 := by
      unfold terminalOf
      split_ifs
      · exact (hsetup _).terminalNum
      · exact (hsetup _).terminalNum
    have hqueue := fits_modifyPcb hsetup pid
      (f := fun p => { p with terminalNum := (b.setup pid).terminalOf pid })
      fun hfits => ⟨hfits.pid, hfits.parentId, hterminal⟩
    rw [Book.launch, enqueue, if_neg (show ¬ (b.setup pid).pitCount < 3 from hpit)]
    have hge : -1 ≤ pid := by omega
    exact ⟨⟨hge, hpid.2⟩, fun _ => hpid.1, hqueue,
      fun t ht htpit => h.update hpid ht (Or.inl htpit)⟩

theorem Bounded.restart (h : b.Bounded) (hpid : 0 ≤ pid ∧ pid ≤ maxPcb) :
    (b.restart pid).Bounded := by
  have hbase : (b.modifyPcb pid fun p => { p with isBaseShell := true, parentId := -1 }).Bounded :=
    ⟨h.processNum, h.running,
      fits_modifyPcb h.pcb pid fun hfits => ⟨hfits.pid, nofun, hfits.terminalNum⟩, h.scheduleArray⟩
  exact hbase.launch hpid

/-- **The halt** of a process that is not a base shell. -/
theorem Bounded.halt (h : b.Bounded) (hbase : (b.pcb pid).isBaseShell = false) :
    (b.halt pid).Bounded := by
  have hparent := (h.pcb pid).parentId hbase
  have hchild := fits_modifyPcb h.pcb pid (f := fun p => { p with active := false })
    fun hfits => ⟨hfits.pid, hfits.parentId, hfits.terminalNum⟩
  have hboth := fits_modifyPcb hchild (b.pcb pid).parentId
    (f := fun p => { p with active := true })
    fun hfits => ⟨hfits.pid, hfits.parentId, hfits.terminalNum⟩
  have hge : -1 ≤ (b.pcb pid).parentId := by omega
  exact ⟨⟨hge, hparent.2⟩, fun _ => hparent.1, hboth,
    fun t ht htpit => h.update (h.pcb _).pid ht (Or.inl htpit)⟩

/-- **A tick** once the three shells run. -/
theorem Bounded.finishBoot_rotate (h : b.Bounded) (hpit : 3 ≤ b.pitCount) :
    b.finishBoot.rotate.Bounded := by
  have hfinish : b.finishBoot.Bounded := by
    unfold finishBoot
    split_ifs
    · have hpcb := fits_modifyPcb h.pcb b.processNum
        (f := fun p => { p with isBaseShell := true, parentId := -1, active := true })
        fun hfits => ⟨hfits.pid, nofun, hfits.terminalNum⟩
      exact ⟨h.processNum, fun _ => h.running hpit, hpcb,
        fun t ht _ => h.scheduleArray t ht (by omega)⟩
    · exact h
  have hcount : 3 ≤ b.finishBoot.pitCount := by
    unfold finishBoot
    split_ifs
    · dsimp only
      omega
    · exact hpit
  have hnext : (if b.finishBoot.scheduleIdx < 2 then b.finishBoot.scheduleIdx + 1 else 0) < 3 := by
    split_ifs <;> omega
  have hpid := hfinish.scheduleArray _ hnext (by omega)
  have hge : -1 ≤ b.finishBoot.rotate.processNum := by
    have hpos : 0 ≤ b.finishBoot.rotate.processNum := hpid.1
    omega
  exact ⟨⟨hge, hpid.2⟩, fun _ => hpid.1, hfinish.pcb,
    hfinish.scheduleArray⟩

theorem Bounded.nextTerminal (h : b.Bounded) : b.nextTerminal.Bounded := by
  have hpcb := fits_modifyPcb h.pcb b.processNum (f := fun p => { p with active := true })
    fun hfits => ⟨hfits.pid, hfits.parentId, hfits.terminalNum⟩
  exact ⟨h.processNum, h.running, hpcb, h.scheduleArray⟩

end Book

namespace Kernel

variable {s : Kernel}

/-! ### The operations -/

theorem bounded_execute (fs : FileSys) (h : s.book.Bounded) (command : CString) (frame : Frame) :
    (s.execute fs command frame).2.book.Bounded := by
  rcases s.execute_cases fs command frame h.processNum.2 with ⟨pid, hlaunch⟩ | hstop
  · have habove := hlaunch.firstFree.above
    have hge : -1 ≤ s.processNum := h.processNum.1
    rw [hlaunch.book]
    exact h.launch ⟨by omega, hlaunch.firstFree.le_max⟩
  · rw [hstop.book]
    exact h

theorem bounded_halt (h : s.book.Bounded) (status : ℤ) (frame : Frame) :
    (s.halt status frame).book.Bounded := by
  cases hbase : (s.pcb s.processNum).isBaseShell with
  | false =>
    rw [halt_book_of_not_baseShell s status frame hbase]
    exact h.halt hbase
  | true =>
    rw [halt_book_of_baseShell s status frame hbase]
    exact h.restart (h.pcb _).pid

theorem bounded_scheduler (fs : FileSys) (h : s.book.Bounded) (frame : Frame) :
    (s.scheduler fs frame).book.Bounded := by
  by_cases hpit : s.pitCount < 3
  · rw [scheduler_of_boot fs s frame hpit, bootShell]
    split_ifs
    · exact bounded_execute (s := s.modifyConsole _) fs h _ _
    · refine bounded_execute fs ?_ _ _
      rw [nextTerminal_book]
      exact h.nextTerminal
  · rw [scheduler_book fs s frame (by omega)]
    exact h.finishBoot_rotate (show 3 ≤ s.pitCount by omega)

end Kernel

/-! ### Steps -/

section Steps

variable {fs : FileSys} {s t : Kernel} {e : Event}

/-- **A step** keeps the numbers in range. -/
theorem Step.bounded (hb : s.book.Bounded) (hstep : Step fs s e t) : t.book.Bounded := by
  cases hstep with
  | tick esp ebp frame =>
    exact Kernel.bounded_scheduler (s := s.withRegisters esp ebp) fs hb frame
  | execute _ command frame => exact Kernel.bounded_execute fs hb command frame
  | systemHalt _ status frame => exact Kernel.bounded_halt hb _ frame
  | exceptionHalt _ status frame => exact Kernel.bounded_halt hb _ frame
  | getargs _ buf nbytes => rwa [Kernel.getargs_book]
  | openCall _ filename junk => rwa [Kernel.openCall_book]
  | close _ fd => rwa [Kernel.close_book]
  | vidmap _ screenStart => rwa [Kernel.vidmap_book]
  | switchTerminals next => exact hb

/-- Before the first tick the numbers are in range. -/
theorem PowerOn.bounded (h : PowerOn s) : s.book.Bounded := by
  have hnum : s.book.processNum = -1 := h.processNum
  have hpit : s.book.pitCount = 0 := h.pitCount
  refine ⟨?_, fun hthree => by omega, fun q => ?_, fun t _ ht => by omega⟩
  · rw [hnum]
    decide
  · obtain ⟨hpid, hparent, -, -, -, hterminal, -⟩ := h.pcb q
    refine ⟨?_, fun _ => ?_, ?_⟩
    · rw [show (s.book.pcb q).pid = 0 from hpid]
      decide
    · rw [show (s.book.pcb q).parentId = 0 from hparent]
      decide
    · rw [show (s.book.pcb q).terminalNum = 0 from hterminal]
      decide

end Steps

end OS391
