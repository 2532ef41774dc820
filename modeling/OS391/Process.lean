/-
# Starting and ending processes

`execute`, `system_halt`, `exception_halt` and `scheduler`, with the helpers
`parse_args`, `get_file_name` and `is_executable`.

The end of `execute`, from the label `shell_halt` on, is `Kernel.launch`: `execute`
falls into it, and a base shell that halts jumps to it.  A halt is a list of
statements, because `cli` at its start is what keeps the timer out and whether it does
is a question about every point between two statements; `systemHalt` and
`exceptionHalt` run the list without interruption.  `is_base_shell` is tested twice in
the source and written nowhere between, so the two cases are two lists.
-/

import OS391.Lib.StraightLine
import OS391.SystemCall

namespace OS391

open Lib

/-- `BUFSIZE` -/
def bufSize : ℕ := 1024

/-- `MAX_PCB` -/
def maxPcb : ℤ := 512

/-- `SHELL_LIMIT` -/
def shellLimit : ℤ := 6

/-- `KERNEL_DS` -/
def kernelDs : ℕ := 0x18

/-- `parse_args`: what is left in `stored_buf`. -/
def parseArgs (command : CString) (storedBuf : ℕ → UInt8) : ℕ → UInt8 :=
  -- skip front spaces, then skip till the argument
  match (command.bytes.dropWhile (· = 32)).dropWhile (· ≠ 32) with
  | [] => fillLoop storedBuf 0 1024
  | _ :: args =>
    let idx := min args.length bufSize
    let storedBuf := copyLoop storedBuf 0 (fun i => args.getD i 0) idx
    if idx < bufSize - 1 then Function.update storedBuf idx (args.getD idx 0) else storedBuf

/-- Where `get_file_name` puts the end of the name. -/
def fileNameEnd (command : CString) : ℕ :=
  (command.bytes.takeWhile (· = 32)).length +
    ((command.bytes.dropWhile (· = 32)).takeWhile fun b => b ≠ 32 ∧ b ≠ 10).length

/-- `get_file_name`: the string at `command` once the NUL is written into it. -/
def getFileName (command : CString) : CString where
  bytes := command.bytes.take (fileNameEnd command)
  noNul := fun h => command.noNul (List.mem_of_mem_take h)

/-- `is_executable`: is the magic number there? -/
def isExecutable (buffer : ℕ → UInt8) : Bool :=
  buffer 0 = 0x7f && buffer 1 = 0x45 && buffer 2 = 0x4c && buffer 3 = 0x46

/-- A `uint32_t` in memory. -/
def word32At (buffer : ℕ → UInt8) (i : ℕ) : ℕ :=
  (buffer i).toNat + 256 * (buffer (i + 1)).toNat + 65536 * (buffer (i + 2)).toNat +
    16777216 * (buffer (i + 3)).toNat

/-- `tss.esp0` for process `pid`. -/
def kernelStack (pid : ℤ) : ℤ := u32 (0x800000 - 8192 * pid - 4)

/-- The stack frame `execute` runs in: the registers it saves, and what it finds in two
locals before they are set. -/
structure Frame where
  esp : ℕ
  ebp : ℕ
  /-- The local `buffer` for the header of a program. -/
  header : ℕ → UInt8
  /-- The place of `is_shell_flag` for a base shell that enters at `shell_halt`. -/
  isShellFlag : Bool
  deriving Inhabited

/-- How a call of `execute` ends: `-1`, the jump to `return_to_exe` of a refused program, or
a process that runs. -/
inductive ExecResult
  | failed
  | refused
  | launched (pid : ℤ)
  deriving DecidableEq, Repr

namespace Kernel

variable (fs : FileSys) (s : Kernel)

/-! ### `execute` -/

/-- The loop that looks for a free PCB, with `k` turns left. -/
def findPcb : ℕ → ℤ → ℤ
  | 0, temp => temp
  | k + 1, temp =>
    if (s.pcb (temp + 1)).active = true ∧ temp < maxPcb then findPcb k (temp + 1) else temp

/-- `file_operations_table_pointer` of descriptors 0 and 1 set, and the two opened. -/
def openStdio (p : Pcb) : Pcb :=
  let d := Function.update p.fileDescriptor 0
    { p.fileDescriptor 0 with fop := .stdin, flags := true }
  { p with fileDescriptor := Function.update d 1 { d 1 with fop := .stdout, flags := true } }

/-- The PCB set up before the terminals are looked at. -/
def setupPcb (p : Pcb) (localProcessNum processNum : ℤ) (frame : Frame) (isShellFlag : Bool) :
    Pcb :=
  openStdio
    { p with
      parentId := if p.parentId ≠ -1 then processNum else p.parentId
      pid := localProcessNum
      active := true
      savedParentsEsp := frame.esp
      savedParentsEbp := frame.ebp
      isShell := isShellFlag }

/-- `schedule_array` and `curr_pid` set for a terminal. -/
def schedule (t : ℕ) (pid : ℤ) : Kernel :=
  { s with
    scheduleArray := Function.update s.scheduleArray t pid
    currPid := Function.update s.currPid t pid }

/-- The scheduler told about one of the first three processes: it becomes the base shell
of its terminal. -/
def enqueueBaseShell (pid : ℤ) : Kernel :=
  { (s.modifyPcb pid fun p =>
      { p with terminalNum := s.pitCount, isBaseShell := true, parentId := -1 }).schedule
        s.pitCount s.pitCount with
    pitCount := s.pitCount + 1 }

/-- The terminal of a later process: its own for a base shell, else its parent's. -/
def terminalOf (pid : ℤ) : ℕ :=
  if (s.pcb pid).isBaseShell = false then (s.pcb (s.pcb pid).parentId).terminalNum
  else (s.pcb pid).terminalNum

/-- The scheduler told about the process. -/
def enqueue (pid : ℤ) : Kernel :=
  if s.pitCount < 3 then s.enqueueBaseShell pid
  else (s.modifyPcb pid fun p => { p with terminalNum := s.terminalOf pid }).schedule
    (s.terminalOf pid) pid

/-- `tss` and `process_num` set for the process, and `context_switch`, which enters user
mode with interrupts on. -/
def enter (pid : ℤ) : Kernel :=
  { s with tssSs0 := kernelDs, tssEsp0 := kernelStack pid, processNum := pid, interruptFlag := true }

/-- The PCB of a program that `execute` found, and of a base shell that restarts, before
what both have in common. -/
def initPcb (pid : ℤ) (entryPoint : ℕ) : Kernel :=
  if s.shellHaltFlag then
    { s.modifyPcb pid fun p => { p with isBaseShell := true, parentId := -1 } with
      shellHaltFlag := false }
  else s.modifyPcb pid fun p => { p with entryPoint := entryPoint }

/-- The PCB set up, the scheduler told, and the process entered. -/
def start (pid : ℤ) (isShellFlag : Bool) (frame : Frame) : Kernel :=
  ((s.modifyPcb pid fun p => setupPcb p pid s.processNum frame isShellFlag).enqueue pid).enter pid

/-- `execute` from the label `shell_halt` on. -/
def launch (localProcessNum : ℤ) (entryPoint : ℕ) (isShellFlag : Bool) (frame : Frame) :
    ℤ × Kernel :=
  let pid := if s.shellHaltFlag then s.baseShellId else localProcessNum
  (pid, (s.initPcb pid entryPoint).start pid isShellFlag frame)

/-- The name `shell`, as `strncmp` is given it. -/
def shellName : ℕ → UInt8 := fun i => (ascii "shell".toList).getD i 0

/-- The name `cat`. -/
def catName : ℕ → UInt8 := fun i => (ascii "cat".toList).getD i 0

/-- The text `execute` prints for a seventh shell. -/
def sixthShell : List UInt8 := ascii "Already at 6th Shell! Can't open more \n".toList

/-- `execute` up to the check of the shell limit. -/
def parseCommand (command : CString) : Kernel :=
  { s.cli with storedBuf := parseArgs command s.storedBuf, shellHaltFlag := false }

/-- Is the program named `shell`? -/
def isShellName (fileName : CString) : Bool := strncmp fileName.get shellName 5 = 0

/-- The count of shells and the flag for `cat`, set before the file is looked for. -/
def setFlags (fileName : CString) : Kernel :=
  let count := if isShellName fileName then s.shellProcessCount + 1 else s.shellProcessCount
  { s with shellProcessCount := count }.modifyConsole fun c =>
    { c with
      catFlag := Function.update c.catFlag s.scheduleIdx (strncmp fileName.get catName 3 = 0 : Bool) }

/-- `execute` from the lookup of the file on: the check of the header, the search for a
PCB, and the launch.  The program itself is read into user memory. -/
def load (fileName : CString) (frame : Frame) : ExecResult × Kernel :=
  match readDentryByName fs fileName with
  | none => (.failed, s)
  | some currDentry =>
    let buffer := (readData fs currDentry.inodeNum 0 frame.header 40).2
    if isExecutable buffer = false then (.failed, s)
    else
      let temp := s.findPcb (maxPcb - s.processNum).toNat s.processNum
      if temp = maxPcb then (.refused, s)
      else
        let r := (s.pagingExecute (temp + 1)).launch (temp + 1) (word32At buffer 24)
          (isShellName fileName) frame
        (.launched r.1, r.2)

/-- `execute` -/
def execute (command : CString) (frame : Frame) : ExecResult × Kernel :=
  let s := s.parseCommand command
  let fileName := getFileName command
  if isShellName fileName ∧ s.shellProcessCount ≥ shellLimit then
    (.refused, s.modifyConsole fun c => c.printf sixthShell)
  else (s.setFlags fileName).load fs fileName frame

/-! ### `system_halt` and `exception_halt` -/

/-- `if (curr_fd[i].flags == 1) ...close(i)` for the descriptors of process `pid`. -/
def closeIfOpen (pid i : ℤ) : Kernel :=
  if ((s.pcb pid).fileDescriptor i).flags = true then
    (s.closeHandler ((s.pcb pid).fileDescriptor i).fop i).2
  else s

/-- The loop over the descriptors; it ends before `FD_MAX`. -/
def closeCode (pid : ℤ) : List (Kernel → Kernel) :=
  [0, 1, 2, 3, 4, 5, 6].map fun i s => s.closeIfOpen pid i

/-- `active` of a PCB set. -/
def setActive (pid : ℤ) (active : Bool) : Kernel :=
  s.modifyPcb pid fun p => { p with active := active }

/-- The three statements every halt starts with. -/
def haltHead (status : ℤ) : List (Kernel → Kernel) :=
  [cli,
    fun s => { s with processCount := s.processCount - 1 },
    fun s => { s with savedStatusNum := status }]

/-- A halt of process `pid`, not a base shell, up to the loop that closes its
descriptors. -/
def restoreParent (pid : ℤ) : List (Kernel → Kernel) :=
  [fun s => { s with tssEsp0 := kernelStack (s.pcb pid).parentId },
    fun s => { s with tssSs0 := kernelDs },
    fun s => s.pagingExecute (s.pcb pid).parentId,
    disableChildPage]

/-- The rest of that halt, up to the jump to the parent. -/
def resumeParent (pid : ℤ) : List (Kernel → Kernel) :=
  [fun s => { s with
      scheduleArray := Function.update s.scheduleArray (s.pcb pid).terminalNum
        (s.pcb (s.pcb pid).parentId).pid },
    fun s => { s with
      currPid := Function.update s.currPid (s.pcb pid).terminalNum (s.pcb pid).parentId },
    fun s => s.setActive pid false,
    fun s => s.setActive (s.pcb pid).parentId true,
    fun s => { s with processNum := (s.pcb pid).parentId },
    fun s => if (s.pcb pid).isShell then
        { s with shellProcessCount := s.shellProcessCount - 1 } else s,
    fun s => { s with esp := (s.pcb pid).savedParentsEsp },
    fun s => { s with ebp := (s.pcb pid).savedParentsEbp },
    fun s => { s with eax := s.savedStatusNum }]

/-- A halt of process `pid`, not a base shell. -/
def haltCode (pid status : ℤ) : List (Kernel → Kernel) :=
  haltHead status ++ (restoreParent pid ++ (closeCode pid ++ resumeParent pid))

/-- A halt of a base shell, up to the jump to `shell_halt`. -/
def restartCode (pid status : ℤ) : List (Kernel → Kernel) :=
  haltHead status ++
    ([fun s => { s with shellHaltFlag := true },
      fun s => { s with tssSs0 := kernelDs },
      fun s => { s with tssEsp0 := kernelStack (s.pcb pid).pid }] ++
    (closeCode pid ++ [fun s => { s with baseShellId := (s.pcb pid).pid }]))

/-- Both halts.  At the label `shell_halt` a base shell finds `0` and its entry point in
the registers, and `frame` on its stack. -/
def halt (status : ℤ) (frame : Frame) : Kernel :=
  let pid := s.processNum
  if (s.pcb pid).isBaseShell = false then runAll (haltCode pid status) s
  else
    let t := runAll (restartCode pid status) s
    (t.launch 0 (t.pcb pid).entryPoint frame.isShellFlag frame).2

/-- `system_halt` -/
def systemHalt (status : UInt8) (frame : Frame) : Kernel := s.halt status.toNat frame

/-- `exception_halt` -/
def exceptionHalt (status : UInt16) (frame : Frame) : Kernel := s.halt status.toNat frame

/-! ### The scheduler -/

/-- The command of the three shells the scheduler starts. -/
def shellCommand : CString where
  bytes := ascii "shell".toList
  noNul := by decide

/-- The `esp` and `ebp` of the process that is interrupted saved in its PCB. -/
def saveContext : Kernel :=
  s.modifyPcb s.processNum fun p => { p with savedEsp := s.esp, savedEbp := s.ebp }

/-- What the fourth tick does once for the third shell. -/
def finishBoot : Kernel :=
  if s.pitCount = 3 then
    { s.modifyPcb s.processNum fun p =>
        { p with isShell := true, isBaseShell := true, parentId := -1, active := true } with
      pitCount := s.pitCount + 1 }
  else s

/-- The physical page behind the video mapping of a process of terminal `t`. -/
def videoFrame (t : ℕ) : ℕ :=
  if t = s.console.terminalNum then 0xB8000 / 4096 else 0xB8000 / 4096 + t + 1

/-- The cursor moved to the next terminal, and `process_num` to its process. -/
def rotate : Kernel :=
  let scheduleIdx := if s.scheduleIdx < 2 then s.scheduleIdx + 1 else 0
  { s with scheduleIdx := scheduleIdx, processNum := s.scheduleArray scheduleIdx }

/-- The `tss`, `esp` and `ebp` of process `pid`. -/
def restoreContext (pid : ℤ) : Kernel :=
  { s with
    tssSs0 := kernelDs
    tssEsp0 := kernelStack (s.pcb pid).pid
    esp := (s.pcb pid).savedEsp
    ebp := (s.pcb pid).savedEbp }

/-- The switch to the process of the next terminal. -/
def switchProcess : Kernel :=
  let s := s.rotate
  let nextPid := s.processNum
  let s := s.mapVideo (s.videoFrame (s.pcb nextPid).terminalNum)
  (s.pagingExecute (s.pcb nextPid).pid).restoreContext nextPid

/-- What the second and third tick do before they start a shell. -/
def nextTerminal : Kernel :=
  let s := s.saveContext.modifyPcb s.processNum fun p => { p with isShell := true, active := true }
  ({ s with scheduleIdx := s.scheduleIdx + 1 }).modifyConsole fun c =>
    c.switchTerminals (s.pitCount - 1) s.pitCount

/-- `scheduler`; `frame` is for the shells that the first three ticks start. -/
def scheduler (frame : Frame) : Kernel :=
  if s.pitCount = 0 then
    ((s.modifyConsole fun c => c.clear.switchTerminals 0 0).execute fs shellCommand frame).2
  else if s.pitCount < 3 then (s.nextTerminal.execute fs shellCommand frame).2
  else s.saveContext.finishBoot.switchProcess

end Kernel

end OS391
