/-
# `terminal_read` and `terminal_write`

`terminal.c`.  `terminal_read` waits for Enter with the timer masked at every look and
unmasked between two looks.  Once the line is there the rest of the function runs with the
timer masked but with interrupts enabled, so a key may come between any two of its pieces:
the copy of each byte of the line, the newline, the length that is returned, the NUL after
`exit`, the release of the keyboard buffer and the reset of the Enter flag.  `Resume` holds the
kernel that each piece finds.
-/

import OS391.Descriptors
import OS391.Lookup

namespace OS391

open Lib

/-- `ROW_LIM` -/
def rowLim : ℤ := 80

/-- How many bytes `terminal_read` copies into a buffer of `n`. -/
def copyCount (n : ℤ) : ℕ := if n > bufferLim then bufferLim - 1 else (n - 1).toNat

theorem copyCount_of_le {n : ℤ} (h : 128 ≤ n) : copyCount n = 127 := by
  unfold copyCount bufferLim
  split_ifs <;> omega

theorem copyCount_le {n : ℤ} (h : 0 ≤ n) : copyCount n ≤ n.toNat := by
  unfold copyCount bufferLim
  split_ifs <;> omega

/-- The buffer as `terminal_read` fills it from a pending line: the characters, at most
`n - 1` and at most `127`, and a newline where the line ends. -/
def copyLine (m : Terminal) (buf : ℕ → UInt8) (n : ℤ) : ℕ → UInt8 :=
  Function.update (copyLoop buf 0 m.keyboardBuffer (copyCount n)) m.bufferCt.toNat 10

/-- The bytes of `exit` and a newline, as memory. -/
def exitLine (i : ℕ) : UInt8 := (ascii "exit\n".toList).getD i 0

/-- **The test for `exit`** compares six bytes, the NUL behind the newline included. -/
theorem strncmp_exitLine_iff {buf : ℕ → UInt8} :
    strncmp buf exitLine 6 = 0 ↔ ∀ i < 6, buf i = exitLine i := by
  have hlength : strnlen exitLine 6 = 5 := by decide
  have hne : ∀ i < 5, exitLine i ≠ 0 := by decide
  rw [strncmp_eq_zero_iff, hlength]
  constructor
  · rintro ⟨hlen, hsame⟩ i hi
    rw [hlen] at hsame
    by_contra hdiff
    have hsix : strnlen buf 6 = 6 := by
      refine strnlen_eq (Nat.le_refl 6) (fun j hj hzero => ?_) (fun h => absurd h (Nat.lt_irrefl 6))
      by_cases hj' : j < 5
      · exact hne j hj' ((hsame j hj').symm.trans hzero)
      · have hi' : ¬ i < 5 := fun hi' => hdiff (hsame i hi')
        obtain rfl : j = 5 := by omega
        obtain rfl : i = 5 := by omega
        exact hdiff hzero
    omega
  · intro hsame
    have hlen : strnlen buf 6 = 5 := by
      refine strnlen_eq (by omega) (fun i hi => ?_) fun _ => hsame 5 (by omega)
      rw [hsame i (by omega)]
      exact hne i hi
    rw [hlen]
    exact ⟨rfl, fun i hi => hsame i (by omega)⟩

namespace Kernel

variable (s : Kernel)

/-- The terminal whose line a process waits for: `current_pcb_local->terminal_num`. -/
def waitTerminal (pid : ℤ) : ℕ := (s.pcb pid).terminalNum

/-- The test of the waiting loop: Enter was pressed and the terminal is the visible
one. -/
def LineReady (pid : ℤ) : Prop :=
  (s.console.terminal (s.waitTerminal pid)).enterRead = true ∧
    s.console.terminalNum = s.scheduleIdx

instance (pid : ℤ) : Decidable (s.LineReady pid) := inferInstanceAs (Decidable (_ ∧ _))

/-- The waiting loop of `terminal_read`, from its head to the `break`. -/
inductive WaitLine (pid : ℤ) : Kernel → Kernel → Prop
  | ready {s t : Kernel} (h : Interrupted (s.disableIrq 0) t) (hready : t.LineReady pid) :
      WaitLine pid s t
  | again {s t u v : Kernel} (h : Interrupted (s.disableIrq 0) t) (hready : ¬ t.LineReady pid)
      (h' : Interrupted (t.enableIrq 0) u) (hwait : WaitLine pid u v) : WaitLine pid s v

/-- `enter_read` of a terminal cleared. -/
def resetEnterRead (t : ℕ) : Kernel :=
  s.modifyConsole fun c => c.modifyTerminal t fun m => { m with enterRead := false }

/-- The terminal that `terminal_read` reads from. -/
def waitLine (pid : ℤ) : Terminal := s.console.terminal (s.waitTerminal pid)

/-- Where the line of the visible terminal ends. -/
def visibleCt : ℕ := (s.console.terminal s.console.terminalNum).bufferCt.toNat

/-- The buffer after the `exit` test. -/
def terminateExit (buf : ℕ → UInt8) : ℕ → UInt8 :=
  if strncmp buf exitLine 6 = 0 then Function.update buf s.visibleCt 0 else buf

end Kernel

/-! ### After the wait -/

/-- The kernel at each piece of `terminal_read` behind the waiting loop: at its end, at the
copy of each byte, and at the pieces after the copy.  The last one is at `enable_irq(0)`. -/
structure Resume where
  ready : Kernel
  copy : ℕ → Kernel
  newline : Kernel
  save : Kernel
  exit : Kernel
  clear : Kernel
  reset : Kernel
  unmask : Kernel

namespace Resume

/-- The pieces one after the other, with nothing between them. -/
def still (s : Kernel) (pid : ℤ) : Resume where
  ready := s
  copy _ := s
  newline := s
  save := s
  exit := s
  clear := s
  reset := s.modifyConsole Console.clearBuffer
  unmask := (s.modifyConsole Console.clearBuffer).resetEnterRead (s.waitTerminal pid)

instance : Coe Kernel Resume := ⟨fun s => still s s.scheduledPid⟩

variable (r : Resume) (pid : ℤ)

/-- The pieces of a call of process `pid`, with interrupts between them. -/
structure Chained : Prop where
  copy : Kernel.Interrupted r.ready (r.copy 0)
  next (i : ℕ) : Kernel.Interrupted (r.copy i) (r.copy (i + 1))
  newline (i : ℕ) : Kernel.Interrupted (r.copy i) r.newline
  save : Kernel.Interrupted r.newline r.save
  exit : Kernel.Interrupted r.save r.exit
  clear : Kernel.Interrupted r.exit r.clear
  reset : Kernel.Interrupted (r.clear.modifyConsole Console.clearBuffer) r.reset
  unmask : Kernel.Interrupted (r.reset.resetEnterRead (r.reset.waitTerminal pid)) r.unmask

/-- There may be no interrupts. -/
theorem chained_still (s : Kernel) : (still s pid).Chained pid :=
  ⟨.refl _, fun _ => .refl _, fun _ => .refl _, .refl _, .refl _, .refl _, .refl _, .refl _⟩

/-- Where the newline goes: the end of the line when that is looked up. -/
def newlineCt : ℕ := (r.newline.waitLine pid).bufferCt.toNat

/-- Byte `i` of the line when it is copied. -/
def key (i : ℕ) : UInt8 := ((r.copy i).waitLine pid).keyboardBuffer i

/-- The buffer with the copied bytes and the newline. -/
def line (buf : ℕ → UInt8) (n : ℤ) : ℕ → UInt8 :=
  Function.update (copyLoop buf 0 (r.key pid) (copyCount n)) (r.newlineCt pid) 10

/-- `terminal_read` after the waiting loop, for the process whose PCB it holds. -/
def terminalReadTail (fd : ℤ) (buf : ℕ → UInt8) (n : ℤ) : ReadResult :=
  if n < 0 ∨ fd > 1 then ⟨-1, buf, r.ready⟩
  else ⟨(r.save.waitLine pid).bufferCt.toNat + 1, r.exit.terminateExit (r.line pid buf n),
    r.unmask.enableIrq 0⟩

end Resume

namespace Kernel

variable (s : Kernel)

/-- `terminal_read` after the waiting loop when nothing comes between its pieces. -/
def terminalReadTail (pid fd : ℤ) (buf : ℕ → UInt8) (n : ℤ) : ReadResult :=
  (Resume.still s pid).terminalReadTail pid fd buf n

theorem terminalReadTail_of_good (pid : ℤ) {fd n : ℤ} (buf : ℕ → UInt8) (hn : 0 ≤ n)
    (hfd : fd ≤ 1) : s.terminalReadTail pid fd buf n =
      ⟨(s.waitLine pid).bufferCt.toNat + 1, s.terminateExit (copyLine (s.waitLine pid) buf n),
        ((s.modifyConsole Console.clearBuffer).resetEnterRead (s.waitTerminal pid)).enableIrq 0⟩ :=
  if_neg (by omega)

/-! ### Output -/

/-- `putc` or `background_putc`, as the terminal is visible or not. -/
def emit (ch : UInt8) : Kernel :=
  s.modifyConsole fun c =>
    if s.scheduleIdx ≠ c.terminalNum then c.backgroundPutc ch s.scheduleIdx else c.putc ch

/-- One turn of the loop of `terminal_write`. -/
def writeByte (ch : UInt8) : Kernel :=
  let s :=
    if s.console.lineCt = rowLim ∧ ch ≠ 0 ∧ ch ≠ 10 then
      (s.emit 10).modifyConsole fun c => { c with lineCt := 0 }
    else if ch = 10 then s.modifyConsole fun c => { c with lineCt := 0 }
    else s
  if ch ≠ 0 then
    (s.modifyConsole fun c =>
      { c with bytesWritten := c.bytesWritten + 1, lineCt := c.lineCt + 1 }).emit ch
  else s

/-- The loop of `terminal_write`. -/
def writeBytes (buf : ℕ → UInt8) : ℕ → Kernel
  | 0 => s
  | n + 1 => (writeBytes buf n).writeByte (buf n)

/-- `strncmp(buf, text, n) == 0` for a text of the source. -/
def startsWith (buf : ℕ → UInt8) (text : String) (n : ℕ) : Bool :=
  strncmp buf (fun i => (ascii text.toList).getD i 0) n = 0

/-- The flags `terminal_write` looks at before its loop. -/
def writeHead (buf : ℕ → UInt8) : Kernel :=
  s.modifyConsole fun c =>
    let c := if c.helloFlag then { c with lineCt := 7, helloFlag := false } else c
    if startsWith buf "Hi, what's your name? " 23 then { c with rowLetterCt := 22 }
    else if startsWith buf "Enter the Test Number: (0): 100, (1): 10000, (2): 100000\n" 58 then
      { c with rowLetterCt := 0 }
    else c

/-- The flags and newlines at the end of `terminal_write`. -/
def writeTail (buf : ℕ → UInt8) : Kernel :=
  s.modifyConsole fun c =>
    let c := { c with helloFlag := startsWith buf "Hello, " 8 }
    let c := if startsWith buf "exit" 5 then c.putc 10 else c
    if c.catFlag s.scheduleIdx ∧ ¬ startsWith buf "391OS> " 9 then c.putc 10
    else { c with catFlag := Function.update c.catFlag s.scheduleIdx false }

/-- `terminal_write`; `nonNull` says whether `buf` is a pointer at all. -/
def terminalWrite (fd : ℤ) (nonNull : Bool) (buf : ℕ → UInt8) (n : ℤ) : ℤ × Kernel :=
  let s := s.modifyConsole fun c => { c with bytesWritten := 0, lineCt := 0 }
  if nonNull = false ∨ n < 0 ∨ fd > 1 then (-1, s)
  else
    let s := (((s.writeHead buf).writeBytes buf n.toNat).writeTail buf)
    (s.console.bytesWritten, s)

end Kernel

end OS391
