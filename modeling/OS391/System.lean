/-
# The system

What the kernel does on behalf of its processes, one operation after the other: the
timer interrupt, the system calls that start, end and change processes, and the switch
of the visible terminal.  `Step fs s e t` says that operation `e` leads from `s` to `t`;
`Lib.Run (Step fs)` are the runs.  A system call needs a process that makes it, so before
the first tick (`process_num == -1`) there is only the timer.
-/

import OS391.Lib.Transition
import OS391.Process

namespace OS391

open Lib

/-- An operation, with what it is given: the registers a tick interrupts, the frame of
`execute`, the arguments of the call. -/
inductive Event
  | tick (esp ebp : ℕ) (frame : Frame)
  | execute (command : CString) (frame : Frame)
  | systemHalt (status : UInt8) (frame : Frame)
  | exceptionHalt (status : UInt16) (frame : Frame)
  | getargs (buf : ℕ → UInt8) (nbytes : ℤ)
  | openCall (filename : Option CString) (junk : ℤ)
  | close (fd : ℤ)
  | vidmap (screenStart : ℕ)
  | switchTerminals (next : ℕ)

/-- The registers of the processor when an interrupt is taken. -/
def Kernel.withRegisters (s : Kernel) (esp ebp : ℕ) : Kernel := { s with esp := esp, ebp := ebp }

/-- One operation. -/
inductive Step (fs : FileSys) : Kernel → Event → Kernel → Prop
  | tick (s : Kernel) (esp ebp : ℕ) (frame : Frame) :
      Step fs s (.tick esp ebp frame) ((s.withRegisters esp ebp).scheduler fs frame)
  | execute {s : Kernel} (hrun : 0 ≤ s.processNum) (command : CString) (frame : Frame) :
      Step fs s (.execute command frame) (s.execute fs command frame).2
  | systemHalt {s : Kernel} (hrun : 0 ≤ s.processNum) (status : UInt8) (frame : Frame) :
      Step fs s (.systemHalt status frame) (s.systemHalt status frame)
  | exceptionHalt {s : Kernel} (hrun : 0 ≤ s.processNum) (status : UInt16) (frame : Frame) :
      Step fs s (.exceptionHalt status frame) (s.exceptionHalt status frame)
  | getargs {s : Kernel} (hrun : 0 ≤ s.processNum) (buf : ℕ → UInt8) (nbytes : ℤ) :
      Step fs s (.getargs buf nbytes) (s.getargs buf nbytes).kernel
  | openCall {s : Kernel} (hrun : 0 ≤ s.processNum) (filename : Option CString) (junk : ℤ) :
      Step fs s (.openCall filename junk) (s.openCall fs filename junk).2
  | close {s : Kernel} (hrun : 0 ≤ s.processNum) (fd : ℤ) : Step fs s (.close fd) (s.close fd).2
  | vidmap {s : Kernel} (hrun : 0 ≤ s.processNum) (screenStart : ℕ) :
      Step fs s (.vidmap screenStart) (s.vidmap screenStart).2
  | switchTerminals (s : Kernel) (next : ℕ) :
      Step fs s (.switchTerminals next)
        (s.modifyConsole fun c => c.switchTerminals c.terminalNum next)

end OS391
