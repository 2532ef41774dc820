/-
# The descriptor operations of files, directories and the RTC

`file_*` and `directory_*` of `filesys.c`, `rtc_*` of `rtc.c`.  The three `open`
functions differ in the table they install, the type of entry they accept and where
they look for the PCB, and the three `close` functions in the value they return for a
free descriptor; each family is one definition, and its members are instances.

The file and directory functions find the PCB through `process_num`, the RTC functions
through `terminal[schedule_idx].curr_pid`.  A handler that waits lets other processes run; what
they and the interrupt handlers can do meanwhile is `Kernel.Interrupted`.
-/

import OS391.Kernel

namespace OS391

open Lib

/-- `FD_MIN` -/
def fdMin : ℤ := 2

/-- `FD_MAX` -/
def fdMax : ℤ := 7

/-- `RTC_FILE_TYPE` -/
def rtcFileType : ℕ := 0

/-- `DIRECTORY_FILE_TYPE` -/
def directoryFileType : ℕ := 1

/-- `REGULAR_FILE_TYPE` -/
def regularFileType : ℕ := 2

/-- `MAX_FREQUENCY` -/
def maxFrequency : ℤ := 1024

/-- What a function that fills a buffer leaves: its return value, the buffer and the
kernel. -/
structure ReadResult where
  ret : ℤ
  buf : ℕ → UInt8
  kernel : Kernel

/-- The loop over the slots of a table: the first one that is free. -/
def freeDescriptor (p : Pcb) : Option ℤ :=
  [2, 3, 4, 5, 6, 7].find? fun fd => !(p.fileDescriptor fd).flags

variable (fs : FileSys)

namespace Kernel

variable (s : Kernel)

/-- What the `open` functions share: a free slot of process `pid`, the dentry and its
type, and the descriptor. -/
def openDescriptor (pid : ℤ) (fop : FopTable) (fileType : ℕ) (inodeOf : Dentry → ℕ)
    (filename : CString) : ℤ × Kernel :=
  match freeDescriptor (s.pcb pid) with
  | none => (-1, s)
  | some fd =>
    match readDentryByName fs filename with
    | none => (-1, s)
    | some dentry =>
      if dentry.fileType ≠ fileType then (-1, s)
      else if ((s.pcb pid).fileDescriptor fd).flags = false then
        (fd, s.modifyDescriptor pid fd fun _ =>
          { fop := fop, inode := inodeOf dentry, filePosition := 0, flags := true })
      else (-1, s)

/-- What the `close` functions share; `freeResult` is returned for a free descriptor. -/
def closeDescriptor (pid fd freeResult : ℤ) : ℤ × Kernel :=
  if fd < fdMin ∨ fd > fdMax then (-1, s)
  else if ((s.pcb pid).fileDescriptor fd).flags = true then
    (0, s.modifyDescriptor pid fd fun d => { d with flags := false })
  else (freeResult, s)

/-- What can happen to a process while an interrupt is handled, up to its return.  The
keyboard and RTC handlers change neither PCBs nor masks.  A timer interrupt saves `esp` and
`ebp` in the PCB of the process and lets others run; they leave it the rest of its PCB and
its place in the schedule, and as only another timer interrupt brings it back, the timer is
unmasked then as it was before. -/
structure Interrupted (s s' : Kernel) : Prop where
  processNum : s'.processNum = s.processNum
  scheduleIdx : s'.scheduleIdx = s.scheduleIdx
  scheduledPid : s'.scheduledPid = s.scheduledPid
  pcb : (s'.pcb s.scheduledPid).unsaved = (s.pcb s.scheduledPid).unsaved
  timer : s'.masterMask.getLsbD 0 = s.masterMask.getLsbD 0

namespace Interrupted

variable {s t u : Kernel}

theorem refl (s : Kernel) : s.Interrupted s := ⟨rfl, rfl, rfl, rfl, rfl⟩

theorem trans (h : s.Interrupted t) (h' : t.Interrupted u) : s.Interrupted u where
  processNum := h'.processNum.trans h.processNum
  scheduleIdx := h'.scheduleIdx.trans h.scheduleIdx
  scheduledPid := h'.scheduledPid.trans h.scheduledPid
  pcb := by rw [← h.pcb, ← h.scheduledPid, h'.pcb]
  timer := h'.timer.trans h.timer

end Interrupted

/-! ### Regular files -/

/-- `file_open` -/
def fileOpen (filename : CString) : ℤ × Kernel :=
  s.openDescriptor fs s.processNum .file regularFileType Dentry.inodeNum filename

/-- `file_close` -/
def fileClose (fd : ℤ) : ℤ × Kernel := s.closeDescriptor s.processNum fd 0

/-- `file_read`.  The buffer is cleared twice before `read_data` fills it. -/
def fileRead (fd : ℤ) (buf : ℕ → UInt8) (nbytes : ℤ) : ReadResult :=
  let d := (s.pcb s.processNum).fileDescriptor fd
  if d.flags = false then ⟨-1, buf, s⟩
  else
    let buf := fillLoop (fillLoop buf 0 nbytes.toNat) 0 (u32 nbytes).toNat
    let (readBytes, buf) := readData fs d.inode d.filePosition buf (u32 nbytes).toNat
    if readBytes = u32 (-1) then ⟨-1, buf, s⟩
    else
      ⟨i32 readBytes, buf, s.modifyDescriptor s.processNum fd fun d =>
        { d with filePosition := (u32 (d.filePosition + readBytes)).toNat }⟩

/-- `file_write` -/
def fileWrite : ℤ × Kernel := (-1, s)

/-! ### Directories -/

/-- `directory_open` -/
def directoryOpen (filename : CString) : ℤ × Kernel :=
  s.openDescriptor fs s.processNum .directory directoryFileType (fun _ => 0) filename

/-- `directory_close` -/
def directoryClose (fd : ℤ) : ℤ × Kernel := s.closeDescriptor s.processNum fd (-1)

/-- `directory_read`.  It copies all of a name, whatever `nbytes` is. -/
def directoryRead (fd : ℤ) (buf : ℕ → UInt8) (nbytes : ℤ) : ReadResult :=
  let d := (s.pcb s.processNum).fileDescriptor fd
  if fd < fdMin ∨ fd > fdMax then ⟨-1, buf, s⟩
  else if d.flags = false then ⟨-1, buf, s⟩
  else if fs.dirCount ≤ d.filePosition then ⟨0, buf, s⟩
  else
    let buf := fillLoop (fillLoop buf 0 nbytes.toNat) 0 (u32 nbytes).toNat
    match readDentryByIndex fs d.filePosition with
    | none => ⟨-1, buf, s⟩
    | some dentry =>
      ⟨dentryFileNameLen, copyLoop buf 0 dentry.filename dentryFileNameLen,
        s.modifyDescriptor s.processNum fd fun d =>
          { d with filePosition := (u32 (d.filePosition + 1)).toNat }⟩

/-- `directory_write` -/
def directoryWrite : ℤ × Kernel := (-1, s)

/-! ### The RTC -/

/-- The three arrays of `rtc.c` changed at `schedule_idx`. -/
def resetRtc : Kernel :=
  { s with
    rtc := { s.rtc with
      desiredVirtualizedFrequency :=
        Function.update s.rtc.desiredVirtualizedFrequency s.scheduleIdx 2
      interruptCount := Function.update s.rtc.interruptCount s.scheduleIdx 0
      interruptFlag := Function.update s.rtc.interruptFlag s.scheduleIdx 1 } }

/-- `rtc_open` -/
def rtcOpen (filename : CString) : ℤ × Kernel :=
  let s := s.cli.resetRtc
  let r := s.openDescriptor fs s.scheduledPid .rtc rtcFileType (fun _ => 0) filename
  (r.1, r.2.sti)

/-- `rtc_close` -/
def rtcClose (fd : ℤ) : ℤ × Kernel :=
  let s := s.cli
  let r := s.closeDescriptor s.scheduledPid fd 0
  (r.1, r.2.sti)

/-- The waiting loop of `rtc_read`: it looks at the flag with interrupts off and lets
them in between two looks. -/
inductive WaitRtc : Kernel → Kernel → Prop
  | ready {s : Kernel} (h : s.rtc.interruptFlag s.scheduleIdx ≠ 1) : WaitRtc s s.cli
  | again {s t u : Kernel} (h : s.rtc.interruptFlag s.scheduleIdx = 1)
      (h' : Interrupted s.cli.sti t) (hwait : WaitRtc t u) : WaitRtc s u

/-- `rtc_read` after the waiting loop. -/
def rtcReadTail (buf : ℕ → UInt8) : ReadResult :=
  let s := { s with
    rtc := { s.rtc with interruptFlag := Function.update s.rtc.interruptFlag s.scheduleIdx 1 } }
  ⟨0, buf, s.sti⟩

/-- Is `rate` a power of two, by the bit trick of `rtc_write`? -/
def isPowerOfTwo (rate : ℤ) : Bool :=
  rate ≠ 0 && BitVec.ofInt 32 rate &&& BitVec.ofInt 32 (rate - 1) = 0

/-- The `int32_t` at the start of a buffer. -/
def int32At (buf : ℕ → UInt8) : ℤ :=
  i32 ((buf 0).toNat + 256 * (buf 1).toNat + 65536 * (buf 2).toNat + 16777216 * (buf 3).toNat : ℕ)

/-- `rtc_write`.  The two error paths return without `sti`. -/
def rtcWrite (buf : ℕ → UInt8) (nbytes : ℤ) : ℤ × Kernel :=
  let s := s.cli
  if nbytes ≠ 4 then (-1, s)
  else
    let interruptRate := int32At buf
    if interruptRate > maxFrequency ∨ interruptRate ≤ 0 ∨ ¬ isPowerOfTwo interruptRate then (-1, s)
    else
      (0, { s with
        rtc := { s.rtc with
          desiredVirtualizedFrequency := Function.update s.rtc.desiredVirtualizedFrequency
            s.scheduleIdx interruptRate } }.sti)

end Kernel

end OS391
