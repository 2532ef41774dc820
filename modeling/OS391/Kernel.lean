/-
# The kernel state

The globals of `system_call.h`, `scheduling.h`, `i8259.c`, `paging.h` and `rtc.c`,
the PCBs, and the registers the kernel saves and loads, as one record.  The file
system image is not part of it: nothing writes it.

A PCB lies at `8MB - 8KB * (pid + 1)`, so memory is a function from process numbers
to PCBs.  Fields the code only ever sets to `0` and `1` are `Bool`.  `fileDescriptor` is
indexed by an `int32_t` that is not always checked first, hence by `ℤ`.  The name
`curr_pid` of `terminal_storage` is kept beside `schedule_array`, as the other half of
the same record of who runs in a terminal.
-/

import OS391.Console
import OS391.FileSys
import Mathlib.Logic.Function.Basic

namespace OS391

/-- The five `fop_table_t`. -/
inductive FopTable
  | stdin | stdout | rtc | directory | file
  deriving DecidableEq, Repr, Inhabited

/-- `file_descriptor` -/
structure FileDescriptor where
  fop : FopTable
  inode : ℕ
  filePosition : ℕ
  flags : Bool
  deriving DecidableEq, Inhabited

/-- `pcb_struct` -/
structure Pcb where
  pid : ℤ
  parentId : ℤ
  savedEsp : ℕ
  savedEbp : ℕ
  savedParentsEsp : ℕ
  savedParentsEbp : ℕ
  active : Bool
  entryPoint : ℕ
  isShell : Bool
  isBaseShell : Bool
  terminalNum : ℕ
  fileDescriptor : ℤ → FileDescriptor
  deriving Inhabited

namespace Pcb

/-- The PCB up to the registers the scheduler saves in it whenever a tick takes the process
off the processor. -/
def unsaved (p : Pcb) : Pcb := { p with savedEsp := 0, savedEbp := 0 }

variable {p q : Pcb}

theorem terminalNum_of_unsaved (h : p.unsaved = q.unsaved) : p.terminalNum = q.terminalNum := by
  have hfield := congrArg Pcb.terminalNum h
  exact hfield

theorem fileDescriptor_of_unsaved (h : p.unsaved = q.unsaved) :
    p.fileDescriptor = q.fileDescriptor := by
  have hfield := congrArg Pcb.fileDescriptor h
  exact hfield

end Pcb

/-- The virtual RTC of `rtc.c`, an entry for each terminal. -/
structure Rtc where
  desiredVirtualizedFrequency : ℕ → ℤ
  interruptFlag : ℕ → ℕ
  interruptCount : ℕ → ℕ
  rtcIdx : ℕ
  deriving Inhabited

/-- The kernel. -/
@[ext] structure Kernel where
  /-- `IF` of the processor. -/
  interruptFlag : Bool
  esp : ℕ
  ebp : ℕ
  eax : ℤ
  masterMask : BitVec 8
  slaveMask : BitVec 8
  tssEsp0 : ℤ
  tssSs0 : ℕ
  pageDir : ℕ → BitVec 32
  vidmapPageTable : ℕ → BitVec 32
  /-- Where the linker put `vidmap_page_table`. -/
  vidmapPageTableAddr : ℕ
  processNum : ℤ
  processCount : ℤ
  savedStatusNum : ℤ
  storedBuf : ℕ → UInt8
  shellHaltFlag : Bool
  shellProcessCount : ℤ
  baseShellId : ℤ
  pcb : ℤ → Pcb
  scheduleIdx : ℕ
  pitCount : ℕ
  scheduleArray : ℕ → ℤ
  currPid : ℕ → ℤ
  console : Console
  rtc : Rtc
  deriving Inhabited

namespace Kernel

variable (s : Kernel)

/-- The PCB of process `pid` changed. -/
def modifyPcb (pid : ℤ) (f : Pcb → Pcb) : Kernel :=
  { s with pcb := Function.update s.pcb pid (f (s.pcb pid)) }

/-- Descriptor `fd` of process `pid` changed. -/
def modifyDescriptor (pid fd : ℤ) (f : FileDescriptor → FileDescriptor) : Kernel :=
  s.modifyPcb pid fun p =>
    { p with
      fileDescriptor := Function.update p.fileDescriptor fd (f (p.fileDescriptor fd)) }

/-- The screen and the keyboard buffers changed. -/
def modifyConsole (f : Console → Console) : Kernel :=
  { s with console := f s.console }

/-- `cli` -/
def cli : Kernel := { s with interruptFlag := false }

/-- `sti` -/
def sti : Kernel := { s with interruptFlag := true }

/-- `enable_irq` -/
def enableIrq (irqNum : ℕ) : Kernel :=
  if irqNum < 8 then { s with masterMask := s.masterMask &&& ~~~(1#8 <<< irqNum) }
  else { s with slaveMask := s.slaveMask &&& ~~~(1#8 <<< (irqNum - 8)) }

/-- `disable_irq`.  It ends with `sti`. -/
def disableIrq (irqNum : ℕ) : Kernel :=
  let s := s.cli
  let s := if irqNum < 8 then { s with masterMask := s.masterMask ||| 1#8 <<< irqNum }
    else { s with slaveMask := s.slaveMask ||| 1#8 <<< (irqNum - 8) }
  s.sti

/-- The process that `terminal[schedule_idx].curr_pid` names. -/
def scheduledPid : ℤ := s.currPid s.scheduleIdx

/-! ### What the small changes leave -/

variable {s} {pid q fd : ℤ} {f : Pcb → Pcb}

@[simp] theorem modifyPcb_pcb_self : (s.modifyPcb pid f).pcb pid = f (s.pcb pid) := by
  simp [modifyPcb]

theorem modifyPcb_pcb_of_ne (h : q ≠ pid) : (s.modifyPcb pid f).pcb q = s.pcb q := by
  simp [modifyPcb, h]

theorem modifyPcb_pcb : (s.modifyPcb pid f).pcb q = if q = pid then f (s.pcb pid) else s.pcb q := by
  by_cases h : q = pid <;> simp [modifyPcb, h]

end Kernel

end OS391
