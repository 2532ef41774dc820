/-
# A call of `read`

What the proofs about `read` share.  A handler that waits gives the process back its place,
its PCB and its terminal (`Resumed`, `Waits.resumed`); the mask of the timer is another
matter, and is followed on its own (`Waits.timer`).
-/

import OS391.SystemCall

namespace OS391

open Lib

namespace Kernel

variable {fs : FileSys} {s t u : Kernel} {r : Resume} {fd n : ℤ} {buf : ℕ → UInt8}

/-! ### Waiting -/

/-- The process is back at its place with its PCB, up to the registers a tick saves there. -/
structure Resumed (s t : Kernel) : Prop where
  processNum : t.processNum = s.processNum
  scheduleIdx : t.scheduleIdx = s.scheduleIdx
  scheduledPid : t.scheduledPid = s.scheduledPid
  pcb : (t.pcb s.scheduledPid).unsaved = (s.pcb s.scheduledPid).unsaved

theorem Resumed.refl (s : Kernel) : Resumed s s := ⟨rfl, rfl, rfl, rfl⟩

theorem Resumed.trans (h : Resumed s t) (h' : Resumed t u) : Resumed s u where
  processNum := h'.processNum.trans h.processNum
  scheduleIdx := h'.scheduleIdx.trans h.scheduleIdx
  scheduledPid := h'.scheduledPid.trans h.scheduledPid
  pcb := by rw [← h.pcb, ← h.scheduledPid, h'.pcb]

theorem Interrupted.resumed (h : Interrupted s t) : Resumed s t :=
  ⟨h.processNum, h.scheduleIdx, h.scheduledPid, h.pcb⟩

theorem resumed_disableIrq (s : Kernel) : Resumed s (s.disableIrq 0) := ⟨rfl, rfl, rfl, rfl⟩

theorem resumed_enableIrq (s : Kernel) : Resumed s (s.enableIrq 0) := ⟨rfl, rfl, rfl, rfl⟩

theorem resumed_modifyConsole (s : Kernel) (f : Console → Console) :
    Resumed s (s.modifyConsole f) := ⟨rfl, rfl, rfl, rfl⟩

theorem WaitLine.resumed {pid : ℤ} (h : WaitLine pid s t) : Resumed s t := by
  induction h with
  | ready h _ => exact (resumed_disableIrq _).trans h.resumed
  | again h _ h' _ ih =>
    exact (((resumed_disableIrq _).trans h.resumed).trans (resumed_enableIrq _)).trans
      (h'.resumed.trans ih)

theorem WaitRtc.resumed (h : WaitRtc s t) : Resumed s t := by
  induction h with
  | ready h => exact ⟨rfl, rfl, rfl, rfl⟩
  | @again s t u _ h' _ ih =>
    have hstart : Resumed s s.cli.sti := ⟨rfl, rfl, rfl, rfl⟩
    exact hstart.trans (h'.resumed.trans ih)

/-- The process has its descriptors. -/
theorem Resumed.fileDescriptor (h : Resumed s t) :
    (t.pcb s.scheduledPid).fileDescriptor = (s.pcb s.scheduledPid).fileDescriptor :=
  Pcb.fileDescriptor_of_unsaved h.pcb

theorem Resumed.scheduledDescriptor (h : Resumed s t) (fd : ℤ) :
    t.scheduledDescriptor fd = s.scheduledDescriptor fd := by
  unfold Kernel.scheduledDescriptor
  rw [h.scheduledPid, h.fileDescriptor]

/-- The process has its terminal. -/
theorem Resumed.waitTerminal (h : Resumed s t) :
    t.waitTerminal s.scheduledPid = s.waitTerminal s.scheduledPid :=
  Pcb.terminalNum_of_unsaved h.pcb

/-- **A wait ends** with the process where it was. -/
theorem Waits.resumed (h : s.Waits fd r) : Resumed s r.ready := by
  unfold Waits at h
  split at h
  · obtain ⟨⟨s', hint, hwait⟩, -⟩ := h
    exact ((resumed_disableIrq s).trans hint.resumed).trans hwait.resumed
  · have hstart : Resumed s s.cli := ⟨rfl, rfl, rfl, rfl⟩
    exact hstart.trans h.resumed
  · exact h ▸ Resumed.refl s

/-- A call that waits for a line. -/
theorem Waits.stdin (h : s.Waits fd r) (hfop : (s.scheduledDescriptor fd).fop = .stdin) :
    (∃ s', Interrupted (s.disableIrq 0) s' ∧ WaitLine s.scheduledPid s' r.ready) ∧
      r.Chained s.scheduledPid := by
  rw [Waits, hfop] at h
  exact h

theorem waits_self (hin : (s.scheduledDescriptor fd).fop ≠ .stdin)
    (hrtc : (s.scheduledDescriptor fd).fop ≠ .rtc) : s.Waits fd s := by
  unfold Waits
  split
  · exact absurd ‹_› hin
  · exact absurd ‹_› hrtc
  · rfl

/-- The interrupts after the wait leave the process where it was too. -/
theorem resumed_chained {pid : ℤ} (h : r.Chained pid) :
    (∀ i, Resumed r.ready (r.copy i)) ∧ Resumed r.ready r.newline ∧ Resumed r.ready r.exit ∧
      Resumed r.ready r.unmask := by
  have hcopy (i : ℕ) : Resumed r.ready (r.copy i) := by
    induction i with
    | zero => exact h.copy.resumed
    | succ i ih => exact ih.trans (h.next i).resumed
  have hnewline := (hcopy 0).trans (h.newline 0).resumed
  have hexit := (hnewline.trans h.save.resumed).trans h.exit.resumed
  have hclear := hexit.trans h.clear.resumed
  have hreset := (hclear.trans (resumed_modifyConsole _ _)).trans h.reset.resumed
  exact ⟨hcopy, hnewline, hexit, (hreset.trans (resumed_modifyConsole _ _)).trans h.unmask.resumed⟩

/-! ### The call -/

theorem resumed_readHead (s : Kernel) (fd : ℤ) : Resumed s (s.readHead fd) := by
  simp only [readHead]
  split_ifs <;> exact ⟨rfl, rfl, rfl, rfl⟩

/-- The descriptor a call works on is the one it finds at its start. -/
theorem readHead_scheduledDescriptor (s : Kernel) (fd : ℤ) :
    (s.readHead fd).scheduledDescriptor fd = s.scheduledDescriptor fd :=
  (s.resumed_readHead fd).scheduledDescriptor fd

/-- Whether a call is refused does not depend on the masking at its start. -/
theorem badInput_readHead (s : Kernel) (fd : ℤ) (nonNull : Bool) (n : ℤ) :
    (s.readHead fd).BadInput fd nonNull n ↔ s.BadInput fd nonNull n := by
  rw [BadInput, BadInput, readHead_scheduledDescriptor]

/-- What the handler of a call returns. -/
def handled (fs : FileSys) (s : Kernel) (fd : ℤ) (buf : ℕ → UInt8) (n : ℤ) (resume : Resume) :
    ReadResult :=
  resume.readHandler fs (s.scheduledDescriptor fd).fop s.scheduledPid fd buf n

/-- **A call that is not refused** hands on the handler's buffer, and `0` and `-1`; for any
other value it returns `n`. -/
theorem read_of_good {nonNull : Bool} (h : ¬ s.BadInput fd nonNull n) (resume : Resume) :
    s.read fs fd nonNull buf n resume =
      { ret := if (handled fs s fd buf n resume).ret = 0 then 0
          else if (handled fs s fd buf n resume).ret = -1 then -1 else n
        buf := (handled fs s fd buf n resume).buf
        kernel := (handled fs s fd buf n resume).kernel.sti } := by
  have hpid : (s.readHead fd).scheduledPid = s.scheduledPid := (s.resumed_readHead fd).scheduledPid
  have hgood : ¬ (s.readHead fd).BadInput fd nonNull n := fun hbad =>
    h ((badInput_readHead s fd nonNull n).1 hbad)
  have hreturn (r : ReadResult) :
      (if r.ret = 0 then (⟨0, r.buf, r.kernel.sti⟩ : ReadResult)
        else if r.ret = -1 then ⟨-1, r.buf, r.kernel.sti⟩ else ⟨n, r.buf, r.kernel.sti⟩)
        = ⟨if r.ret = 0 then 0 else if r.ret = -1 then -1 else n, r.buf, r.kernel.sti⟩ := by
    split_ifs <;> rfl
  simp only [read, if_neg hgood, readHead_scheduledDescriptor, hpid]
  exact hreturn _

/-- A call that is refused. -/
theorem read_of_bad {nonNull : Bool} (h : s.BadInput fd nonNull n) (resume : Resume) :
    s.read fs fd nonNull buf n resume = ⟨-1, buf, (s.readHead fd).sti⟩ := by
  rw [read, if_pos ((badInput_readHead s fd nonNull n).2 h)]

end Kernel

end OS391
