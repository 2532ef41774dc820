/-
# Interrupts, their handlers and the contexts they interrupt

`i8259.c`, `hardware_handler` (`student-distrib/idt_handler.c`) and the handlers of the timer,
the keyboard and the RTC, down to the points where an interrupt can come in between.  The
kernel runs on two controllers (`Lib.Pics`); a handler is the list of its operations, among
them the bytes it writes to the controllers, and an operation that is a whole function of the
kernel, such as `scheduler`, is one that no interrupt can split.

`Board.Step` is the system: devices ask for interrupts at any time, the processor takes them
when `IF` is set, a handler goes on by one operation, the running process does what it likes to
`IF`, masks and unmasks the timer, and makes system calls.  A tick leaves the context it
interrupted where it is and goes on with that of another terminal.
-/

import OS391.Keyboard
import OS391.Lib.Pic
import OS391.Preemption
import OS391.RtcClock

namespace OS391

open Lib

/-! ### The handlers -/

/-- What a handler does in one piece. -/
inductive Op
  | cli
  | sti
  | outb (value : BitVec 8) (port : BitVec 16)
  | scheduler
  /-- `keyboard_handler` up to its end of interrupt. -/
  | keyboard
  /-- `rtc_handler` -/
  | rtc
  deriving DecidableEq

namespace Op

/-- `send_eoi` -/
def sendEoi (irqNum : ℕ) : List Op :=
  if 8 ≤ irqNum then [.outb (0x60 ||| .ofNat 8 (irqNum - 8)) 0xA0, .outb (0x60 ||| 2) 0x20]
  else [.outb (0x60 ||| .ofNat 8 irqNum) 0x20]

/-- `pit_handler` -/
def pitHandler : List Op := [.cli, .scheduler, .sti]

/-- `keyboard_handler`, each of whose branches ends in the same way. -/
def keyboardHandler : List Op := [.cli, .keyboard] ++ sendEoi 1 ++ [.sti]

/-- `hardware_handler` -/
def hardwareHandler (intrNum : ℕ) : List Op :=
  .cli ::
    match intrNum with
    | 32 => pitHandler
    | 33 => keyboardHandler ++ .sti :: sendEoi 1
    | 40 => .rtc :: .sti :: sendEoi 8
    | _ => []

end Op

/-! ### The system -/

/-- What is on the kernel stack of a terminal: the handlers that have not returned, the
innermost first, each with what is left of it. -/
abbrev Context : Type := List (List Op)

/-- The kernel, the controllers and the contexts.  `schedule_idx` goes 0, 1, 2, 0, …, so the
other terminals wait in a queue.  Nothing returns to an abandoned context. -/
structure Board where
  kernel : Kernel
  pics : Pics
  current : Context
  others : List Context
  abandoned : List Context

namespace Board

variable (b : Board)

/-- `enable_irq` -/
def enableIrq (irqNum : ℕ) : Board :=
  let kernel := b.kernel.enableIrq irqNum
  { b with
    kernel := kernel
    pics :=
      if irqNum < 8 then b.pics.outb kernel.masterMask 0x21 else b.pics.outb kernel.slaveMask 0xA1 }

/-- `disable_irq` -/
def disableIrq (irqNum : ℕ) : Board :=
  let kernel := b.kernel.disableIrq irqNum
  { b with
    kernel := kernel
    pics :=
      if irqNum < 8 then b.pics.outb kernel.masterMask 0x21 else b.pics.outb kernel.slaveMask 0xA1 }

/-- `i8259_init` -/
def i8259Init : Board :=
  let pics := b.pics.outb 0xFF 0x21 |>.outb 0xFF 0xA1
    |>.outb 0x11 0x20 |>.outb 0x20 0x21 |>.outb 0x04 0x21 |>.outb 0x01 0x21
    |>.outb 0x11 0xA0 |>.outb 0x28 0xA1 |>.outb 0x02 0xA1 |>.outb 0x01 0xA1
  { b with pics := pics }.enableIrq 2

/-- `cli` -/
def cli : Board := { b with kernel := b.kernel.cli }

/-- `sti` -/
def sti : Board := { b with kernel := b.kernel.sti }

/-- What `keyboard_init` does to the controllers. -/
def keyboardInit : Board := b.enableIrq 1

/-- `rtc_init` -/
def rtcInit : Board :=
  let kernel := b.kernel.rtcInit
  { b with kernel := kernel, pics := b.pics.outb kernel.slaveMask 0xA1 }

/-- `pit_init` -/
def pitInit : Board := (b.cli.enableIrq 0).sti

/-- `entry`, from the setup of the controllers on. -/
def entry : Board :=
  let b := b.i8259Init.keyboardInit.rtcInit
  let kernel := { b.kernel with
    processNum := -1, shellProcessCount := 0, scheduleIdx := 0, pitCount := 0, processCount := 0 }
  { b with kernel := kernel }.pitInit.sti

/-- `scheduler` has led the kernel to `t`, and `context` is what it interrupted: before the first
shell that is `entry`, of which nothing is saved; the next two ticks start a shell as well; all
others resume the terminal whose turn it is.  Every branch has ended the interrupt. -/
def reschedule (t : Kernel) (context : Context) : Board :=
  let b' : Board := { b with kernel := t, pics := b.pics.outb (0x60 ||| 0) 0x20 }
  if b.kernel.pitCount < 3 then
    if t.pitCount = b.kernel.pitCount then { b' with current := context }
    else if b.kernel.pitCount = 0 then
      { b' with current := [], abandoned := context :: b.abandoned }
    else { b' with current := [], others := b.others ++ [context] }
  else
    match b.others with
    | [] => { b' with current := context }
    | next :: others => { b' with current := next, others := others ++ [context] }

end Board

/-- What happens next. -/
inductive Board.Move
  | request (n : Fin 16)
  | interrupt (v : BitVec 8)
  | op (o : Op)
  | iret
  | cli
  | sti
  | enableTimer
  | disableTimer
  | call (e : Event)

/-- The kernel at the end of an operation that is no write to a controller. -/
inductive Op.Effect (fs : FileSys) : Kernel → Op → Kernel → Prop
  | cli (s : Kernel) : Effect fs s .cli s.cli
  | sti (s : Kernel) : Effect fs s .sti s.sti
  | keyboard (s : Kernel) (keys : Keys) (scanCode : UInt8) :
      Effect fs s .keyboard
        (s.modifyConsole fun c => (OS391.keyboardHandler keys c scanCode).2)
  | rtc (s : Kernel) : Effect fs s .rtc s.rtcHandler

/-- One step of the system. -/
inductive Board.Step (fs : FileSys) : Board → Board.Move → Board → Prop
  | request (b : Board) (n : Fin 16) :
      Step fs b (.request n) { b with pics := b.pics.request n }
  | interrupt {b : Board} {v : BitVec 8} {pics : Pics} (hflag : b.kernel.interruptFlag = true)
      (hack : b.pics.acknowledge = some (v, pics)) :
      Step fs b (.interrupt v)
        { b with
          kernel := b.kernel.cli, pics := pics
          current := Op.hardwareHandler v.toNat :: b.current }
  | effect {b : Board} {o : Op} {ops : List Op} {context : Context} {t : Kernel}
      (hcur : b.current = (o :: ops) :: context) (h : Op.Effect fs b.kernel o t) :
      Step fs b (.op o) { b with kernel := t, current := ops :: context }
  | outb {b : Board} {value : BitVec 8} {port : BitVec 16} {ops : List Op} {context : Context}
      (hcur : b.current = (.outb value port :: ops) :: context) :
      Step fs b (.op (.outb value port))
        { b with pics := b.pics.outb value port, current := ops :: context }
  | scheduler {b : Board} {ops : List Op} {context : Context} {esp ebp : ℕ} {frame : Frame}
      {t : Kernel} (hcur : b.current = (.scheduler :: ops) :: context)
      (h : OS391.Step fs b.kernel (.tick esp ebp frame) t) :
      Step fs b (.op .scheduler) (b.reschedule t (ops :: context))
  /-- Only code with `IF` set is interrupted, so `iret` sets it. -/
  | iret {b : Board} {context : Context} (hcur : b.current = [] :: context) :
      Step fs b .iret { b.sti with current := context }
  | cli {b : Board} (hcur : b.current = []) : Step fs b .cli b.cli
  | sti {b : Board} (hcur : b.current = []) : Step fs b .sti b.sti
  | enableTimer {b : Board} (hcur : b.current = []) : Step fs b .enableTimer (b.enableIrq 0)
  | disableTimer {b : Board} (hcur : b.current = []) : Step fs b .disableTimer (b.disableIrq 0)
  | call {b : Board} {e : Event} {t : Kernel} (hcur : b.current = []) (htick : NoTick e)
      (h : OS391.Step fs b.kernel e t) : Step fs b (.call e) { b with kernel := t }

end OS391
