/-
# Where `read`, `write` and `close` touch the descriptor table

The three calls and their handlers again, with every subscript of `file_descriptor` they
evaluate, in the order of the source.  `read` and `write` look at a descriptor only after
`fd < FD_STDIN || fd > FD_MAX` was false; `close` reads its `flags` first and compares
`fd` afterwards.

All three refuse a number outside their range and change nothing but the interrupt flag and
masks.  They stay inside the eight entries for every number, except that `close` does so only
when it is given the number of an entry (`checked_iff`).
-/

import OS391.ReadCall
import OS391.Lib.Traced

namespace OS391

open Lib Traced

namespace Kernel

variable (fs : FileSys) (s : Kernel)

/-! ### The handlers, traced -/

/-- `pcb->file_descriptor[fd]` read, for the PCB of `pid`. -/
@[reducible] def entry (pid fd : ℤ) : Traced ℤ FileDescriptor :=
  Traced.load (s.pcb pid).fileDescriptor fd

/-- `pcb->file_descriptor[fd]` changed. -/
def setEntry (pid fd : ℤ) (f : FileDescriptor → FileDescriptor) : Traced ℤ Kernel :=
  ⟨s.modifyDescriptor pid fd f, [fd]⟩

/-- `file_read` -/
def fileReadTraced (fd : ℤ) (buf : ℕ → UInt8) (nbytes : ℤ) : Traced ℤ ReadResult := do
  let d ← s.entry s.processNum fd
  if d.flags = false then pure ⟨-1, buf, s⟩
  else
    let buf := fillLoop (fillLoop buf 0 nbytes.toNat) 0 (u32 nbytes).toNat
    let d ← s.entry s.processNum fd
    let r := readData fs d.inode d.filePosition buf (u32 nbytes).toNat
    if r.1 = u32 (-1) then pure ⟨-1, r.2, s⟩
    else
      let t ← s.setEntry s.processNum fd fun d =>
        { d with filePosition := (u32 (d.filePosition + r.1)).toNat }
      pure ⟨i32 r.1, r.2, t⟩

/-- `directory_read` -/
def directoryReadTraced (fd : ℤ) (buf : ℕ → UInt8) (nbytes : ℤ) : Traced ℤ ReadResult := do
  if fd < fdMin ∨ fd > fdMax then pure ⟨-1, buf, s⟩
  else
    let d ← s.entry s.processNum fd
    if d.flags = false then pure ⟨-1, buf, s⟩
    else
      let d ← s.entry s.processNum fd
      if fs.dirCount ≤ d.filePosition then pure ⟨0, buf, s⟩
      else
        let buf := fillLoop (fillLoop buf 0 nbytes.toNat) 0 (u32 nbytes).toNat
        let d ← s.entry s.processNum fd
        match readDentryByIndex fs d.filePosition with
        | none => pure ⟨-1, buf, s⟩
        | some dentry =>
          let t ← s.setEntry s.processNum fd fun d =>
            { d with filePosition := (u32 (d.filePosition + 1)).toNat }
          pure ⟨dentryFileNameLen, copyLoop buf 0 dentry.filename dentryFileNameLen, t⟩

/-- What the `close` functions share. -/
def closeDescriptorTraced (pid fd freeResult : ℤ) : Traced ℤ (ℤ × Kernel) := do
  if fd < fdMin ∨ fd > fdMax then pure (-1, s)
  else
    let d ← s.entry pid fd
    if d.flags = true then
      let t ← s.setEntry pid fd fun d => { d with flags := false }
      pure (0, t)
    else pure (freeResult, s)

/-- The `read` handlers; those of the terminal and the RTC have no use for a descriptor. -/
def readHandlerTraced (r : Resume) (fop : FopTable) (pid fd : ℤ) (buf : ℕ → UInt8) (n : ℤ) :
    Traced ℤ ReadResult :=
  match fop with
  | .directory => r.ready.directoryReadTraced fs fd buf n
  | .file => r.ready.fileReadTraced fs fd buf n
  | fop => pure (r.readHandler fs fop pid fd buf n)

/-- The `close` handlers. -/
def closeHandlerTraced (fop : FopTable) (fd : ℤ) : Traced ℤ (ℤ × Kernel) :=
  match fop with
  | .rtc => do
    let r ← s.cli.closeDescriptorTraced s.scheduledPid fd 0
    pure (r.1, r.2.sti)
  | .directory => s.closeDescriptorTraced s.processNum fd (-1)
  | .file => s.closeDescriptorTraced s.processNum fd 0
  | fop => pure (s.closeHandler fop fd)

/-! ### The calls, traced -/

/-- `fd < FD_STDIN || fd > FD_MAX || buf == NULL || n < 0 || flags == 0`, in that order. -/
def badInputTraced (fd : ℤ) (nonNull : Bool) (n : ℤ) : Traced ℤ Bool :=
  Traced.or (pure (fd < 0)) <| Traced.or (pure (fd > fdMax)) <| Traced.or (pure (!nonNull)) <|
    Traced.or (pure (n < 0)) do
      let d ← s.entry s.scheduledPid fd
      pure (!d.flags)

/-- `read` -/
def readTraced (fd : ℤ) (nonNull : Bool) (buf : ℕ → UInt8) (n : ℤ) (resume : Resume) :
    Traced ℤ ReadResult := do
  let s := s.readHead fd
  let bad ← s.badInputTraced fd nonNull n
  if bad then pure ⟨-1, buf, s.sti⟩
  else
    let d ← s.entry s.scheduledPid fd
    let r ← readHandlerTraced fs resume d.fop s.scheduledPid fd buf n
    pure (if r.ret = 0 then ⟨0, r.buf, r.kernel.sti⟩
      else if r.ret = -1 then ⟨-1, r.buf, r.kernel.sti⟩
      else ⟨n, r.buf, r.kernel.sti⟩)

/-- `write`; no handler of it looks at a descriptor. -/
def writeTraced (fd : ℤ) (nonNull : Bool) (buf : ℕ → UInt8) (n : ℤ) : Traced ℤ (ℤ × Kernel) := do
  let s := s.cli
  let bad ← s.badInputTraced fd nonNull n
  if bad then pure (-1, s.sti)
  else
    let d ← s.entry s.scheduledPid fd
    let r := s.writeHandler d.fop fd nonNull buf n
    pure (if r.1 = -1 then (-1, r.2.sti) else (n, r.2.sti))

/-- `close`: `flags == 0 || fd < FD_MIN || fd > FD_MAX`, in that order. -/
def closeTraced (fd : ℤ) : Traced ℤ (ℤ × Kernel) := do
  let s := s.cli
  let bad ← Traced.or (do
      let d ← s.entry s.scheduledPid fd
      pure (!d.flags)) <| Traced.or (pure (fd < fdMin)) (pure (fd > fdMax))
  if bad then pure (-1, s.sti)
  else
    let d ← s.entry s.scheduledPid fd
    let r ← s.closeHandlerTraced d.fop fd
    pure (1, r.2.sti)

/-! ### They are the same functions -/

section Values

variable {s} (fop : FopTable) (pid fd freeResult : ℤ) (nonNull : Bool) (buf : ℕ → UInt8) (n : ℤ)

@[simp] theorem val_setEntry (f : FileDescriptor → FileDescriptor) :
    (s.setEntry pid fd f).val = s.modifyDescriptor pid fd f := rfl

theorem val_fileReadTraced : (s.fileReadTraced fs fd buf n).val = s.fileRead fs fd buf n := by
  unfold fileReadTraced fileRead
  rw [val_bind, val_ite, val_bind, val_ite]
  rfl

theorem val_directoryReadTraced :
    (s.directoryReadTraced fs fd buf n).val = s.directoryRead fs fd buf n := by
  unfold directoryReadTraced directoryRead
  rw [val_ite, val_bind, val_ite, val_bind, val_ite, val_bind]
  dsimp only [val_load]
  cases readDentryByIndex fs ((s.pcb s.processNum).fileDescriptor fd).filePosition <;> rfl

theorem val_closeDescriptorTraced :
    (s.closeDescriptorTraced pid fd freeResult).val = s.closeDescriptor pid fd freeResult := by
  unfold closeDescriptorTraced closeDescriptor
  rw [val_ite, val_bind, val_ite]
  rfl

theorem val_readHandlerTraced (r : Resume) :
    (readHandlerTraced fs r fop pid fd buf n).val = r.readHandler fs fop pid fd buf n := by
  cases fop with
  | directory => exact val_directoryReadTraced fs fd buf n
  | file => exact val_fileReadTraced fs fd buf n
  | stdin | stdout | rtc => rfl

theorem val_closeHandlerTraced : (s.closeHandlerTraced fop fd).val = s.closeHandler fop fd := by
  cases fop with
  | rtc =>
    exact congrArg (fun r : ℤ × Kernel => (r.1, r.2.sti)) (val_closeDescriptorTraced _ fd 0)
  | directory => exact val_closeDescriptorTraced _ fd (-1)
  | file => exact val_closeDescriptorTraced _ fd 0
  | stdin | stdout => rfl

theorem val_badInputTraced :
    (s.badInputTraced fd nonNull n).val = decide (s.BadInput fd nonNull n) := by
  rw [Bool.eq_iff_iff]
  simp [badInputTraced, BadInput, scheduledDescriptor]

/-- **Tracing `read` changes nothing.** -/
theorem val_readTraced (resume : Resume) :
    (s.readTraced fs fd nonNull buf n resume).val = s.read fs fd nonNull buf n resume := by
  unfold readTraced read
  rw [val_bind, val_badInputTraced, val_ite, val_bind, val_bind, val_readHandlerTraced]
  simp only [decide_eq_true_eq, val_pure]
  rfl

/-- **Tracing `write` changes nothing.** -/
theorem val_writeTraced : (s.writeTraced fd nonNull buf n).val = s.write fd nonNull buf n := by
  unfold writeTraced write
  rw [val_bind, val_badInputTraced, val_ite, val_bind]
  simp only [decide_eq_true_eq, val_pure]
  rfl

/-- **Tracing `close` changes nothing.** -/
theorem val_closeTraced : (s.closeTraced fd).val = s.close fd := by
  unfold closeTraced close
  rw [val_bind, val_ite, val_bind, val_bind, val_closeHandlerTraced]
  simp [scheduledDescriptor]

end Values

/-! ### The subscripts they evaluate -/

section Within

variable {fs} {s} {p : ℤ → Prop} {fop : FopTable} {pid fd freeResult : ℤ} {nonNull : Bool}
  {buf : ℕ → UInt8} {n : ℤ}

@[simp] theorem within_setEntry {f : FileDescriptor → FileDescriptor} :
    (s.setEntry pid fd f).Within p ↔ p fd :=
  List.forall_mem_singleton

theorem within_closeDescriptorTraced (h : p fd) :
    (s.closeDescriptorTraced pid fd freeResult).Within p := by
  unfold closeDescriptorTraced
  split_ifs
  · exact within_pure _
  · refine within_bind.2 ⟨within_load.2 h, ?_⟩
    split_ifs
    · exact within_bind.2 ⟨within_setEntry.2 h, within_pure _⟩
    · exact within_pure _

theorem within_fileReadTraced (h : p fd) : (s.fileReadTraced fs fd buf n).Within p := by
  refine within_bind.2 ⟨within_load.2 h, ?_⟩
  split_ifs
  · exact within_pure _
  · refine within_bind.2 ⟨within_load.2 h, ?_⟩
    dsimp only
    split_ifs
    · exact within_pure _
    · exact within_bind.2 ⟨within_setEntry.2 h, within_pure _⟩

theorem within_directoryReadTraced (h : p fd) : (s.directoryReadTraced fs fd buf n).Within p := by
  unfold directoryReadTraced
  split_ifs
  · exact within_pure _
  · refine within_bind.2 ⟨within_load.2 h, ?_⟩
    split_ifs
    · exact within_pure _
    · refine within_bind.2 ⟨within_load.2 h, ?_⟩
      split_ifs
      · exact within_pure _
      · refine within_bind.2 ⟨within_load.2 h, ?_⟩
        cases readDentryByIndex fs _ with
        | none => exact within_pure _
        | some dentry => exact within_bind.2 ⟨within_setEntry.2 h, within_pure _⟩

/-- **The handlers touch the descriptor they were called for** and no other. -/
theorem within_readHandlerTraced (h : p fd) (r : Resume) :
    (readHandlerTraced fs r fop pid fd buf n).Within p := by
  cases fop with
  | directory => exact within_directoryReadTraced h
  | file => exact within_fileReadTraced h
  | stdin | stdout | rtc => exact within_pure _

theorem within_closeHandlerTraced (h : p fd) : (s.closeHandlerTraced fop fd).Within p := by
  cases fop with
  | rtc => exact within_bind.2 ⟨within_closeDescriptorTraced h, within_pure _⟩
  | directory | file => exact within_closeDescriptorTraced h
  | stdin | stdout => exact within_pure _

/-- **The check of `read` and `write` looks at the descriptor last.** -/
theorem within_badInputTraced (h : 0 ≤ fd → fd ≤ fdMax → p fd) :
    (s.badInputTraced fd nonNull n).Within p := by
  simp only [badInputTraced, within_or, within_pure, val_pure, true_and, decide_eq_false_iff_not,
    Int.not_lt, within_bind, within_load, and_true]
  exact fun h₀ h₁ _ _ => h h₀ h₁

/-- Once the check has passed, the number is that of an entry. -/
theorem fd_of_val_badInputTraced (h : ¬ (s.badInputTraced fd nonNull n).val = true) :
    0 ≤ fd ∧ fd ≤ fdMax := by
  rw [val_badInputTraced, decide_eq_true_eq] at h
  simp only [BadInput, not_or, Int.not_lt] at h
  exact ⟨h.1, h.2.1⟩

theorem within_readTraced (h : 0 ≤ fd → fd ≤ fdMax → p fd) (resume : Resume) :
    (s.readTraced fs fd nonNull buf n resume).Within p := by
  refine within_bind.2 ⟨within_badInputTraced h, ?_⟩
  split_ifs with hbad
  · exact within_pure _
  · have hp : p fd := h (fd_of_val_badInputTraced hbad).1 (fd_of_val_badInputTraced hbad).2
    exact within_bind.2 ⟨within_load.2 hp,
      within_bind.2 ⟨within_readHandlerTraced hp resume, within_pure _⟩⟩

theorem within_writeTraced (h : 0 ≤ fd → fd ≤ fdMax → p fd) :
    (s.writeTraced fd nonNull buf n).Within p := by
  refine within_bind.2 ⟨within_badInputTraced h, ?_⟩
  split_ifs with hbad
  · exact within_pure _
  · have hp : p fd := h (fd_of_val_badInputTraced hbad).1 (fd_of_val_badInputTraced hbad).2
    exact within_bind.2 ⟨within_load.2 hp, within_pure _⟩

/-- **`close` looks at the descriptor first.** -/
theorem within_closeTraced : (s.closeTraced fd).Within p ↔ p fd := by
  refine ⟨fun h => within_load.1 (within_bind.1 (within_or.1 (within_bind.1 h).1).1).1,
    fun h => within_bind.2 ⟨?_, ?_⟩⟩
  · simp [within_or, h]
  · split_ifs
    · exact within_pure _
    · exact within_bind.2 ⟨within_load.2 h,
        within_bind.2 ⟨within_closeHandlerTraced h, within_pure _⟩⟩

end Within

end Kernel

/-! ### The three calls together -/

/-- One of the three calls, with its arguments apart from the number of the descriptor.  For
`read`, `resume` is the kernel at the end of its handler's wait and after it. -/
inductive DescriptorCall
  | read (nonNull : Bool) (buf : ℕ → UInt8) (n : ℤ) (resume : Resume)
  | write (nonNull : Bool) (buf : ℕ → UInt8) (n : ℤ)
  | close

namespace DescriptorCall

/-- The return value and the kernel, with the subscripts of `file_descriptor`. -/
def run (fs : FileSys) (s : Kernel) (fd : ℤ) : DescriptorCall → Traced ℤ (ℤ × Kernel)
  | .read nonNull buf n resume => do
    let r ← s.readTraced fs fd nonNull buf n resume
    pure (r.ret, r.kernel)
  | .write nonNull buf n => s.writeTraced fd nonNull buf n
  | .close => s.closeTraced fd

/-- The number is in the range valid for the call: that of `close` leaves out the two
descriptors of the terminal. -/
def Valid (fd : ℤ) : DescriptorCall → Prop
  | .close => fdMin ≤ fd ∧ fd ≤ fdMax
  | _ => 0 ≤ fd ∧ fd ≤ fdMax

end DescriptorCall

/-- Nothing but the interrupt flag and the masks of the interrupt controllers differs. -/
def SameButMasks (s t : Kernel) : Prop :=
  t = { s with
    interruptFlag := t.interruptFlag, masterMask := t.masterMask, slaveMask := t.slaveMask }

/-- **The number is checked before use:** every subscript is that of one of the eight entries,
and a number out of range is refused with `-1` and no change. -/
def Checked (fs : FileSys) (s : Kernel) (fd : ℤ) (c : DescriptorCall) : Prop :=
  (c.run fs s fd).Within (fun i => 0 ≤ i ∧ i ≤ 7) ∧
    (¬ c.Valid fd → (c.run fs s fd).val.1 = -1 ∧ SameButMasks s (c.run fs s fd).val.2)

section Checked

variable {fs : FileSys} {s : Kernel} {fd : ℤ}

theorem sameButMasks_readHead (s : Kernel) (fd : ℤ) : SameButMasks s (s.readHead fd).sti := by
  unfold Kernel.readHead
  dsimp only
  split_ifs <;> rfl

/-- **A number out of range is refused.** -/
theorem refused_of_not_valid {c : DescriptorCall} (h : ¬ c.Valid fd) :
    (c.run fs s fd).val.1 = -1 ∧ SameButMasks s (c.run fs s fd).val.2 := by
  have hbad {u : Kernel} {nonNull : Bool} {n : ℤ} (h : ¬ (0 ≤ fd ∧ fd ≤ fdMax)) :
      u.BadInput fd nonNull n := by
    unfold Kernel.BadInput
    omega
  cases c with
  | read nonNull buf n resume =>
    have hval := Kernel.val_readTraced (s := s) fs fd nonNull buf n resume
    rw [Kernel.read, if_pos (hbad h)] at hval
    simp only [DescriptorCall.run, val_bind, val_pure, hval]
    exact ⟨trivial, sameButMasks_readHead s fd⟩
  | write nonNull buf n =>
    have hval := Kernel.val_writeTraced (s := s) fd nonNull buf n
    rw [Kernel.write, if_pos (hbad h)] at hval
    simp only [DescriptorCall.run, hval]
    exact ⟨trivial, rfl⟩
  | close =>
    have hval := Kernel.val_closeTraced (s := s) fd
    have hout : fd < fdMin ∨ fd > fdMax := by
      simp only [DescriptorCall.Valid] at h
      omega
    rw [Kernel.close, if_pos (Or.inr hout)] at hval
    simp only [DescriptorCall.run, hval]
    exact ⟨trivial, rfl⟩

/-- **Descriptor numbers are checked before use** in `read` and `write`, whatever the number;
`close` does so exactly when it is given the number of an entry. -/
theorem checked_iff (fs : FileSys) (s : Kernel) (fd : ℤ) (c : DescriptorCall) :
    Checked fs s fd c ↔ (c = .close → 0 ≤ fd ∧ fd ≤ 7) := by
  have hentry : 0 ≤ fd → fd ≤ fdMax → 0 ≤ fd ∧ fd ≤ 7 := fun h₀ h₁ => ⟨h₀, h₁⟩
  cases c with
  | read nonNull buf n resume =>
    refine iff_of_true ⟨?_, refused_of_not_valid⟩ (fun h => by contradiction)
    exact within_bind.2 ⟨Kernel.within_readTraced hentry resume, within_pure _⟩
  | write nonNull buf n =>
    exact iff_of_true ⟨Kernel.within_writeTraced hentry, refused_of_not_valid⟩
      (fun h => by contradiction)
  | close =>
    constructor
    · exact fun h _ => Kernel.within_closeTraced.1 h.1
    · exact fun h => ⟨Kernel.within_closeTraced.2 (h rfl), refused_of_not_valid⟩

/-- **`close` looks outside of the table:** with `-1` for the number, and with one beyond every
table, it reads the `flags` of an entry that does not exist. -/
theorem not_checked_close :
    ¬ Checked default default (-1) .close ∧ ¬ Checked default default 1000000 .close := by
  constructor <;> exact fun h => absurd (Kernel.within_closeTraced.1 h.1) (by decide)

end Checked

end OS391
