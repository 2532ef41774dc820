/-
# The system calls on descriptors

`read`, `write`, `open`, `close`, `getargs` and `vidmap` of `system_call.c`, and the
two tables of handlers they call through.

A handler of `read` may wait, and interrupts come to it after the wait too.
`Kernel.Waits s fd r` says that the handler called in `s` can go on as `r` from the end of its
wait, and the call is a function of both: `s`, the kernel at the call, and `resume`, the kernel
at the end of the wait and at each later piece of the handler.  A handler that does not wait
has `resume` equal to where it was called.
-/

import OS391.Paging
import OS391.TerminalIo

namespace OS391

open Lib

/-- The `read` handlers, from the end of their wait; `invalid_terminal_read` is that of
`stdout`. -/
def Resume.readHandler (fs : FileSys) (r : Resume) (fop : FopTable) (pid fd : ℤ)
    (buf : ℕ → UInt8) (n : ℤ) : ReadResult :=
  match fop with
  | .stdin => r.terminalReadTail pid fd buf n
  | .stdout => ⟨-1, buf, r.ready⟩
  | .rtc => r.ready.rtcReadTail buf
  | .directory => r.ready.directoryRead fs fd buf n
  | .file => r.ready.fileRead fs fd buf n

namespace Kernel

variable (fs : FileSys) (s : Kernel)

/-- Descriptor `fd` of the process the system calls work for. -/
def scheduledDescriptor (fd : ℤ) : FileDescriptor := (s.pcb s.scheduledPid).fileDescriptor fd

/-- The check at the start of `read` and `write`. -/
def BadInput (fd : ℤ) (nonNull : Bool) (n : ℤ) : Prop :=
  fd < 0 ∨ fd > fdMax ∨ nonNull = false ∨ n < 0 ∨ (s.scheduledDescriptor fd).flags = false

instance (fd : ℤ) (nonNull : Bool) (n : ℤ) : Decidable (s.BadInput fd nonNull n) :=
  inferInstanceAs (Decidable (_ ∨ _))

/-! ### `read` -/

/-- The masking at the start of `read`. -/
def readHead (fd : ℤ) : Kernel :=
  let s := s.cli.disableIrq 0
  let s := if fd ≠ 0 then s.enableIrq 0 else s
  s.cli

/-- The handler of `fd`, called in `s`, can go on as `r` from the end of its wait. -/
def Waits (fd : ℤ) (r : Resume) : Prop :=
  match (s.scheduledDescriptor fd).fop with
  | .stdin => (∃ s', Interrupted (s.disableIrq 0) s' ∧ WaitLine s.scheduledPid s' r.ready) ∧
      r.Chained s.scheduledPid
  | .rtc => WaitRtc s.cli r.ready
  | _ => r.ready = s

/-- `read` -/
def read (fd : ℤ) (nonNull : Bool) (buf : ℕ → UInt8) (n : ℤ) (resume : Resume) : ReadResult :=
  let s := s.readHead fd
  if s.BadInput fd nonNull n then ⟨-1, buf, s.sti⟩
  else
    let r := resume.readHandler fs (s.scheduledDescriptor fd).fop s.scheduledPid fd buf n
    if r.ret = 0 then ⟨0, r.buf, r.kernel.sti⟩
    else if r.ret = -1 then ⟨-1, r.buf, r.kernel.sti⟩
    else ⟨n, r.buf, r.kernel.sti⟩

/-- A call of `read` in `s` can return with `r`. -/
def ReadReturns (fd : ℤ) (nonNull : Bool) (buf : ℕ → UInt8) (n : ℤ) (r : ReadResult) : Prop :=
  ∃ resume : Resume, (¬ (s.readHead fd).BadInput fd nonNull n → (s.readHead fd).Waits fd resume) ∧
    r = s.read fs fd nonNull buf n resume

/-! ### `write` -/

/-- The `write` handlers; `invalid_terminal_write` is that of `stdin`. -/
def writeHandler (fop : FopTable) (fd : ℤ) (nonNull : Bool) (buf : ℕ → UInt8) (n : ℤ) :
    ℤ × Kernel :=
  match fop with
  | .stdin => (-1, s)
  | .stdout => s.terminalWrite fd nonNull buf n
  | .rtc => s.rtcWrite buf n
  | .directory => s.directoryWrite
  | .file => s.fileWrite

/-- `write` -/
def write (fd : ℤ) (nonNull : Bool) (buf : ℕ → UInt8) (n : ℤ) : ℤ × Kernel :=
  let s := s.cli
  if s.BadInput fd nonNull n then (-1, s.sti)
  else
    let r := s.writeHandler (s.scheduledDescriptor fd).fop fd nonNull buf n
    if r.1 = -1 then (-1, r.2.sti) else (n, r.2.sti)

/-! ### `open` and `close` -/

/-- `open`; no `filename` stands for the null pointer.  For an entry of another type
`open_success` is returned as it was found, `junk`. -/
def openCall (filename : Option CString) (junk : ℤ) : ℤ × Kernel :=
  let s := s.cli
  match filename with
  | none => (-1, s.sti)
  | some filename =>
    match readDentryByName fs filename with
    | none => (-1, s.sti)
    | some dentry =>
      let r :=
        if dentry.fileType = rtcFileType then s.rtcOpen fs filename
        else if dentry.fileType = directoryFileType then s.directoryOpen fs filename
        else if dentry.fileType = regularFileType then s.fileOpen fs filename
        else (junk, s)
      (r.1, r.2.sti)

/-- The `close` handlers; `terminal_close` does nothing. -/
def closeHandler (fop : FopTable) (fd : ℤ) : ℤ × Kernel :=
  match fop with
  | .stdin | .stdout => (-1, s)
  | .rtc => s.rtcClose fd
  | .directory => s.directoryClose fd
  | .file => s.fileClose fd

/-- `close`.  The descriptor is looked at before its number is checked. -/
def close (fd : ℤ) : ℤ × Kernel :=
  let s := s.cli
  if (s.scheduledDescriptor fd).flags = false ∨ fd < fdMin ∨ fd > fdMax then (-1, s.sti)
  else
    let r := s.closeHandler (s.scheduledDescriptor fd).fop fd
    (1, r.2.sti)

/-! ### `getargs` -/

/-- The text `getargs` prints. -/
def noArguments : List UInt8 := ascii "Error, No arguments! \n".toList

/-- The first loop of `getargs`: the newlines among the first `n` bytes become NULs. -/
def clearNewlines (n : ℕ) : Kernel :=
  { s with storedBuf := mapLoop (fun b => if b = 10 then 0 else b) s.storedBuf n }

/-- `getargs`.  The copy stops at the first NUL, or when the buffer is full; `nbytes` is
compared as an unsigned number. -/
def getargs (buf : ℕ → UInt8) (nbytes : ℤ) : ReadResult :=
  let n := (u32 nbytes).toNat
  let s := s.cli.clearNewlines n
  let count := strnlen s.storedBuf n
  let buf := copyLoop buf 0 s.storedBuf count
  if s.storedBuf count ≠ 0 then ⟨-1, buf, s.sti⟩
  else if count = 0 then ⟨-1, buf, (s.modifyConsole fun c => c.printf noArguments).sti⟩
  else if count = n then ⟨-1, buf, s.sti⟩
  else ⟨0, Function.update buf count (s.storedBuf count), s.sti⟩

/-! ### `vidmap` -/

/-- `vidmap`.  On success it also stores `ONE_THIRTY_TWO_MB` at `screen_start`, in user
memory. -/
def vidmap (screenStart : ℕ) : ℤ × Kernel :=
  let s := s.cli
  if screenStart < 0x8000000 ∨ screenStart > 0x8400000 then (-1, s.sti)
  else (0, (s.mapVideo (0xB8000 / 4096)).sti)

end Kernel

end OS391
