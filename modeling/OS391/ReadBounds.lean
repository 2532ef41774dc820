/-
# Where a call of `read` writes

A call for `n` bytes should write to the first `n` bytes of its buffer and no further
(`WritesWithin`).  `file_read` does, for every image, well-formed or not
(`fileRead_sameFrom`): each phase of `read_data` stays in what is left of the buffer
(`ReadState.Within`).  `rtc_read` writes nothing.

`terminal_read` and `directory_read` do not look at `n` for everything they write: the
newline goes where the line ends, the NUL after `exit` where the line of the visible terminal
ends, and all 32 bytes of a name are copied.  Keys can arrive between these stores, so each is
about the kernel it finds (`Resume`).  The exact condition is `writesWithin_iff`.
-/

import OS391.ReadCall
import OS391.Context

namespace OS391

open Lib

/-! ### `read_data` -/

section ReadData

variable {fs : FileSys} {src : Inode} {st : ReadState} {buf : ℕ → UInt8} {n : ℕ}

/-- What is still to be copied fits into the `n` bytes of the buffer, and nothing was
written behind them. -/
structure ReadState.Within (st : ReadState) (buf : ℕ → UInt8) (n : ℕ) : Prop where
  bufOffset : 0 ≤ st.bufOffset
  bytesToRead : 0 ≤ st.bytesToRead
  room : st.bufOffset + st.bytesToRead ≤ n
  sameFrom : SameFrom n buf st.buf

theorem sameFrom_copyFromBlock {off k : ℤ} (b blockOffset : ℤ) (hoff : 0 ≤ off) (hk : 0 ≤ k)
    (h : off + k ≤ n) : SameFrom n buf (copyFromBlock fs buf off b blockOffset k) :=
  sameFrom_copyLoop _ _ (by omega)

theorem ReadState.Within.readPartial (h : st.Within buf n) (hstart : st.bufOffset = 0)
    {blockOffset : ℤ} (hblock : 0 ≤ blockOffset) (hblock' : blockOffset < 4096)
    (hn : n < 2147483648) : (readPartial fs src blockOffset st).Within buf n := by
  obtain ⟨hoff, hbytes, hroom, hsame⟩ := h
  unfold OS391.readPartial
  split_ifs with hne hin
  · exact ⟨hoff, Int.le_refl 0, by dsimp only; omega,
      hsame.trans (sameFrom_copyFromBlock _ _ (Int.le_refl 0) hbytes (by omega))⟩
  · -- the sum can only wrap around upwards, and then it is negative
    have hlarge : 4096 - blockOffset ≤ st.bytesToRead := by
      unfold i32 at hin
      omega
    exact ⟨by dsimp only; omega, by dsimp only; omega, by dsimp only; omega,
      hsame.trans (sameFrom_copyFromBlock _ _ (Int.le_refl 0) (by omega) (by omega))⟩
  · exact ⟨hoff, hbytes, hroom, hsame⟩

theorem ReadState.Within.readBlocks (h : st.Within buf n) (k : ℕ) :
    (readBlocks fs src k st).Within buf n := by
  induction k generalizing st with
  | zero => exact h
  | succ k ih =>
    rw [OS391.readBlocks]
    split_ifs with hpos
    · obtain ⟨hoff, hbytes, hroom, hsame⟩ := h
      exact ih ⟨by dsimp only [readBlock]; omega, by dsimp only [readBlock]; omega,
        by dsimp only [readBlock]; omega,
        hsame.trans (sameFrom_copyFromBlock _ _ hoff (by omega) (by omega))⟩
    · exact h

theorem ReadState.Within.readTail (h : st.Within buf n) : SameFrom n buf (readTail fs st).buf := by
  unfold OS391.readTail
  split_ifs
  · exact h.sameFrom.trans (sameFrom_copyFromBlock _ _ h.bufOffset h.bytesToRead h.room)
  · exact h.sameFrom

theorem clipToEof_bounds {fileLength offset : ℕ} (ho : offset < fileLength)
    (hn : n < 2147483648) :
    0 ≤ clipToEof fileLength offset n ∧ clipToEof fileLength offset n ≤ n := by
  unfold clipToEof u32 i32
  split_ifs <;> omega

/-- **`read_data` stays in its buffer,** whatever the image. -/
theorem readData_sameFrom (fs : FileSys) (inodeIndex offset : ℕ) (buf : ℕ → UInt8)
    (hn : n < 2147483648) : SameFrom n buf (readData fs inodeIndex offset buf n).2 := by
  rw [readData]
  by_cases hinode : fs.inodeCount ≤ inodeIndex
  · rw [if_pos hinode]
    exact SameFrom.refl n buf
  rw [if_neg hinode]
  dsimp only
  by_cases heof : (fs.inodes inodeIndex).length ≤ offset
  · rw [if_pos heof]
    exact SameFrom.refl n buf
  rw [if_neg heof]
  obtain ⟨hpos, hle⟩ := clipToEof_bounds (Nat.lt_of_not_le heof) hn
  have hblock : 0 ≤ (if (offset : ℤ) / 4096 > 0 then i32 (i32 offset - i32 (offset / 4096 * 4096))
      else i32 offset) ∧ (if (offset : ℤ) / 4096 > 0 then
        i32 (i32 offset - i32 (offset / 4096 * 4096)) else i32 offset) < 4096 := by
    unfold i32
    split_ifs <;> omega
  generalize clipToEof (fs.inodes inodeIndex).length offset n = b at hpos hle ⊢
  have hstart : ReadState.Within
      { buf := buf, bytesToRead := b, bufOffset := 0, result := 0, i := (offset : ℤ) / 4096
        currDataBlock := i32 ((fs.inodes inodeIndex).dataBlocks ((offset : ℤ) / 4096).toNat) } buf n :=
    ⟨Int.le_refl 0, hpos, by dsimp only; omega, SameFrom.refl n buf⟩
  exact ((hstart.readPartial rfl hblock.1 hblock.2 hn).readBlocks _).readTail

end ReadData

/-! ### The handlers -/

namespace Kernel

section Handlers

variable {fs : FileSys} {s resume : Kernel} {pid fd n : ℤ} {buf : ℕ → UInt8}

/-- **`file_read` stays in its buffer.** -/
theorem fileRead_sameFrom (fs : FileSys) (s : Kernel) (fd : ℤ) (buf : ℕ → UInt8) (h₀ : 0 ≤ n)
    (h₁ : n < 2147483648) : SameFrom n.toNat buf (s.fileRead fs fd buf n).buf := by
  have hu : (u32 n).toNat = n.toNat := by rw [u32_of_bounds h₀ (by omega)]
  have hfill : SameFrom n.toNat buf (fillLoop (fillLoop buf 0 n.toNat) 0 n.toNat) :=
    (sameFrom_fillLoop buf 0 (Nat.le_refl _)).trans (sameFrom_fillLoop _ 0 (Nat.le_refl _))
  have hdata (inodeIndex offset : ℕ) := hfill.trans
    (readData_sameFrom fs inodeIndex offset (fillLoop (fillLoop buf 0 n.toNat) 0 n.toNat)
      (show n.toNat < 2147483648 by omega))
  simp only [fileRead, hu]
  split_ifs
  · exact SameFrom.refl _ _
  · exact hdata _ _
  · exact hdata _ _

/-- `directory_read` stays in a buffer that holds a name. -/
theorem directoryRead_sameFrom (fs : FileSys) (s : Kernel) (fd : ℤ) (buf : ℕ → UInt8)
    (h : 32 ≤ n) (h₁ : n < 2147483648) : SameFrom n.toNat buf (s.directoryRead fs fd buf n).buf := by
  have hu : (u32 n).toNat = n.toNat := by rw [u32_of_bounds (by omega) (by omega)]
  have hfill : SameFrom n.toNat buf (fillLoop (fillLoop buf 0 n.toNat) 0 n.toNat) :=
    (sameFrom_fillLoop buf 0 (Nat.le_refl _)).trans (sameFrom_fillLoop _ 0 (Nat.le_refl _))
  simp only [directoryRead, hu]
  split_ifs
  · exact SameFrom.refl _ _
  · exact SameFrom.refl _ _
  · exact SameFrom.refl _ _
  · split
    · exact hfill
    · exact hfill.trans (sameFrom_copyLoop _ _ (by simp only [dentryFileNameLen]; omega))

/-- What `directory_read` does at the end, or for a descriptor that cannot be one. -/
theorem directoryRead_buf_of_end (h : fd < fdMin ∨
    fs.dirCount ≤ ((s.pcb s.processNum).fileDescriptor fd).filePosition) :
    (s.directoryRead fs fd buf n).buf = buf := by
  simp only [directoryRead]
  split_ifs
  · rfl
  · rfl
  · rfl
  · omega

/-- The entry that comes next in a directory. -/
theorem readDentryByIndex_of_lt {index : ℕ} (h : index < fs.dirCount) :
    readDentryByIndex fs index = some
      { filename := strncpy (fun _ => 0) (fs.direntries index).filename dentryFileNameLen
        fileType := (fs.direntries index).fileType
        inodeNum := (fs.direntries index).inodeNum } := if_neg (Nat.not_le_of_lt h)

/-- A name is copied with all its 32 bytes. -/
theorem directoryRead_buf {i : ℕ} (hfd : fdMin ≤ fd ∧ fd ≤ fdMax)
    (hopen : ((s.pcb s.processNum).fileDescriptor fd).flags = true)
    (hpos : ((s.pcb s.processNum).fileDescriptor fd).filePosition < fs.dirCount) (hi : i < 32) :
    (s.directoryRead fs fd buf n).buf i = strncpy (fun _ => 0)
      (fs.direntries ((s.pcb s.processNum).fileDescriptor fd).filePosition).filename
        dentryFileNameLen i := by
  simp only [directoryRead]
  rw [if_neg (by omega), if_neg (by simp [hopen]), if_neg (by omega), readDentryByIndex_of_lt hpos]
  exact copyLoop_start hi

/-- The copied bytes and the newline, where they lie in the first six bytes of the buffer, are
those of `exit` with its newline and NUL; the other bytes are the caller's. -/
def CanSpellExit (r : Resume) (pid n : ℤ) : Prop :=
  (r.newlineCt pid < 6 → r.newlineCt pid = 4) ∧
    ∀ i < 6, i < copyCount n → i ≠ r.newlineCt pid → r.key pid i = exitLine i

/-- The NUL that `terminal_read` stores behind `exit` goes into the buffer.  It is stored where
another line may end than the one copied, and may replace a NUL, so that no byte changes. -/
def ExitWithin (r : Resume) (pid fd : ℤ) (buf : ℕ → UInt8) (n : ℤ) : Prop :=
  fd ≤ 1 → strncmp (r.line pid buf n) exitLine 6 = 0 → r.exit.visibleCt < n

theorem line_apply (r : Resume) (i : ℕ) : r.line pid buf n i =
    if i = r.newlineCt pid then 10 else if i < copyCount n then r.key pid i else buf i := by
  unfold Resume.line
  split_ifs with hend hi
  · rw [hend, Function.update_self]
  · rw [Function.update_of_ne hend, copyLoop_start hi]
  · rw [Function.update_of_ne hend, copyLoop_outside (by omega)]

/-- **Some buffer passes the test for `exit`** when the bytes that are stored let it. -/
theorem exists_strncmp_line_iff {r : Resume} :
    (∃ buf, strncmp (r.line pid buf n) exitLine 6 = 0) ↔ CanSpellExit r pid n := by
  simp only [strncmp_exitLine_iff, line_apply]
  constructor
  · rintro ⟨buf, hbuf⟩
    refine ⟨fun hend => ?_, fun i hi hcopied hne => ?_⟩
    · have hbyte := hbuf _ hend
      rw [if_pos rfl] at hbyte
      exact (by decide : ∀ i < 6, 10 = exitLine i → i = 4) _ hend hbyte
    · have hbyte := hbuf i hi
      rw [if_neg hne, if_pos hcopied] at hbyte
      exact hbyte
  · rintro ⟨hend, hkeys⟩
    refine ⟨exitLine, fun i hi => ?_⟩
    split_ifs with hnewline hcopied
    · rw [hnewline, hend (hnewline ▸ hi)]
      decide
    · exact hkeys i hi hcopied hnewline
    · rfl

/-- The bytes of a line with room for its newline. -/
theorem sameFrom_line {r : Resume} (h₀ : 0 ≤ n) (h : r.newlineCt pid < n) :
    SameFrom n.toNat buf (r.line pid buf n) :=
  (sameFrom_copyLoop _ _ (Or.inl (by have := copyCount_le h₀; omega))).trans
    (sameFrom_update _ _ (by omega))

/-- Where the line ends there is a newline, or a NUL after `exit`. -/
theorem terminateExit_line (r : Resume) (buf : ℕ → UInt8) :
    r.exit.terminateExit (r.line pid buf n) (r.newlineCt pid) = 10 ∨
      r.exit.terminateExit (r.line pid buf n) (r.newlineCt pid) = 0 := by
  have hnewline : r.line pid buf n (r.newlineCt pid) = 10 := Function.update_self _ _ _
  unfold terminateExit
  split_ifs
  · by_cases hct : r.newlineCt pid = r.exit.visibleCt
    · rw [hct]
      exact Or.inr (Function.update_self _ _ _)
    · exact Or.inl ((Function.update_of_ne hct _ _).trans hnewline)
  · exact Or.inl hnewline

/-- **`terminal_read` stays in its buffer exactly when** the line and its newline fit, and so
does the NUL if there can be one. -/
theorem terminalReadTail_within_iff {r : Resume} (h₀ : 0 ≤ n) :
    (∀ buf, SameFrom n.toNat buf (r.terminalReadTail pid fd buf n).buf ∧
        ExitWithin r pid fd buf n) ↔
      1 < fd ∨ (r.newlineCt pid < n ∧ (CanSpellExit r pid n → r.exit.visibleCt < n)) := by
  by_cases hfd : 1 < fd
  · refine iff_of_true (fun buf => ⟨?_, fun hfd' => absurd hfd (Int.not_lt.2 hfd')⟩) (Or.inl hfd)
    rw [Resume.terminalReadTail, if_pos (Or.inr hfd)]
    exact SameFrom.refl _ _
  have htail (buf : ℕ → UInt8) : (r.terminalReadTail pid fd buf n).buf
      = r.exit.terminateExit (r.line pid buf n) := by
    rw [Resume.terminalReadTail, if_neg (by omega)]
  simp only [htail, hfd, false_or]
  constructor
  · intro hwithin
    refine ⟨?_, fun hspell => ?_⟩
    · by_contra hroom
      have hbyte := (hwithin fun _ => 1).1 (r.newlineCt pid) (by omega)
      rcases terminateExit_line r fun _ => 1 with h | h
      · exact absurd (h.symm.trans hbyte) (show (10 : UInt8) ≠ 1 by decide)
      · exact absurd (h.symm.trans hbyte) (show (0 : UInt8) ≠ 1 by decide)
    · obtain ⟨buf, hbuf⟩ := exists_strncmp_line_iff.2 hspell
      exact (hwithin buf).2 (Int.not_lt.1 hfd) hbuf
  · rintro ⟨hroom, hnul⟩ buf
    have hexit : ExitWithin r pid fd buf n := fun _ htest =>
      hnul (exists_strncmp_line_iff.1 ⟨buf, htest⟩)
    refine ⟨(sameFrom_line h₀ hroom).trans ?_, hexit⟩
    unfold terminateExit
    split_ifs with htest
    · have := hexit (Int.not_lt.1 hfd) htest
      exact sameFrom_update _ _ (by omega)
    · exact SameFrom.refl _ _

/-- **`directory_read` stays in its buffer exactly when** it holds a whole name, or there is
none. -/
theorem directoryRead_sameFrom_iff (hfd : fd ≤ fdMax)
    (hopen : ((s.pcb s.processNum).fileDescriptor fd).flags = true) (hn : n < 2147483648) :
    (∀ buf, SameFrom n.toNat buf (s.directoryRead fs fd buf n).buf) ↔
      fd < fdMin ∨
        fs.dirCount ≤ ((s.pcb s.processNum).fileDescriptor fd).filePosition ∨ 32 ≤ n := by
  constructor
  · intro hwithin
    by_contra hroom
    obtain ⟨hmin, hpos, hlt⟩ := not_or.1 hroom |>.imp_right not_or.1
    -- the last byte of the name is the same whatever was there before
    have hname (buf : ℕ → UInt8) : (s.directoryRead fs fd buf n).buf 31 = _ :=
      directoryRead_buf ⟨Int.not_lt.1 hmin, hfd⟩ hopen (Nat.lt_of_not_le hpos) (by decide)
    have hbyte (v : UInt8) := (hname fun _ => v).symm.trans (hwithin (fun _ => v) 31 (by omega))
    exact absurd ((hbyte 0).symm.trans (hbyte 1)) (show (0 : UInt8) ≠ 1 by decide)
  · rintro (hmin | hend | hroom) buf
    · exact (directoryRead_buf_of_end (Or.inl hmin)).symm ▸ SameFrom.refl _ _
    · exact (directoryRead_buf_of_end (Or.inr hend)).symm ▸ SameFrom.refl _ _
    · exact directoryRead_sameFrom fs s fd buf hroom hn

end Handlers

/-! ### The call -/

/-- **The call `read(fd, buf, n)` writes only to `buf[0..n)`,** whatever is in the buffer. -/
def WritesWithin (fs : FileSys) (s : Kernel) (fd n : ℤ) (resume : Resume) : Prop :=
  ∀ buf, SameFrom n.toNat buf (s.read fs fd true buf n resume).buf ∧
    ((s.scheduledDescriptor fd).fop = .stdin → ExitWithin resume s.scheduledPid fd buf n)

/-- There is room for what the handler of the descriptor writes: for the line with its
newline, and the NUL if it can be stored; for a name; and in a file or from the RTC always. -/
def HasRoom (fs : FileSys) (s : Kernel) (fd n : ℤ) (resume : Resume) : Prop :=
  match (s.scheduledDescriptor fd).fop with
  | .stdin => 1 < fd ∨ (resume.newlineCt s.scheduledPid < n ∧
      (CanSpellExit resume s.scheduledPid n → resume.exit.visibleCt < n))
  | .directory => fd < fdMin ∨ fs.dirCount ≤ (s.scheduledDescriptor fd).filePosition ∨ 32 ≤ n
  | _ => True

variable {fs : FileSys} {s : Kernel} {resume : Resume} {fd n : ℤ}

/-- When nothing comes between the pieces of `terminal_read` there has to be room for the line
with its newline. -/
theorem hasRoom_still_iff {t : Kernel} (hfop : (s.scheduledDescriptor fd).fop = .stdin)
    (hvisible : t.console.terminalNum = t.waitTerminal s.scheduledPid) :
    s.HasRoom fs fd n (Resume.still t s.scheduledPid) ↔
      1 < fd ∨ (t.waitLine s.scheduledPid).bufferCt.toNat < n := by
  have hct : t.visibleCt = (t.waitLine s.scheduledPid).bufferCt.toNat := by
    rw [visibleCt, hvisible, waitLine]
  rw [HasRoom, hfop]
  show _ ∨ ((t.waitLine s.scheduledPid).bufferCt.toNat < n ∧ (_ → t.visibleCt < n)) ↔ _
  rw [hct]
  exact or_congr_right ⟨fun h => h.1, fun h => ⟨h, fun _ => h⟩⟩

/-- **A call of `read` stays in its buffer exactly when there is room** for what its handler
writes.  The process is the scheduled one, as in every state that is reached. -/
theorem writesWithin_iff (hn : n < 2147483648) (hpid : s.processNum = s.scheduledPid)
    (hgood : ¬ s.BadInput fd true n) (hwait : (s.readHead fd).Waits fd resume) :
    s.WritesWithin fs fd n resume ↔ s.HasRoom fs fd n resume := by
  have hres := (s.resumed_readHead fd).trans hwait.resumed
  have hdesc : (resume.ready.pcb resume.ready.processNum).fileDescriptor fd
      = s.scheduledDescriptor fd := by
    rw [hres.processNum, hpid, hres.fileDescriptor, scheduledDescriptor]
  obtain ⟨hfd₀, hfd₇, -, hn₀, hopen⟩ : ¬ fd < 0 ∧ ¬ fd > fdMax ∧ ¬ true = false ∧ ¬ n < 0 ∧
      ¬ (s.scheduledDescriptor fd).flags = false := by
    simpa only [BadInput, not_or] using hgood
  simp only [WritesWithin, read_of_good hgood, HasRoom, handled, Resume.readHandler]
  cases hfop : (s.scheduledDescriptor fd).fop with
  | stdin =>
    simp only [forall_const]
    exact terminalReadTail_within_iff (Int.not_lt.1 hn₀)
  | stdout | rtc =>
    simp only [reduceCtorEq, false_implies, and_true, iff_true]
    exact fun buf => SameFrom.refl _ _
  | directory =>
    simp only [reduceCtorEq, false_implies, and_true]
    rw [← hdesc]
    exact directoryRead_sameFrom_iff (Int.not_lt.1 hfd₇) (by rw [hdesc]; simpa using hopen) hn
  | file =>
    simp only [reduceCtorEq, false_implies, and_true, iff_true]
    exact fun buf => fileRead_sameFrom fs resume.ready fd buf (by omega) hn

end Kernel

/-! ### A directory read into a small buffer -/

/-- The name `.`. -/
def directoryName : CString where
  bytes := ascii ".".toList
  noNul := by decide

/-- An image with the program `a` and the directory `.`. -/
def directoryImage : FileSys := entryImage directoryName directoryFileType

/-- The kernel after the first shell has started `a` and `a` has opened `.`. -/
def directoryKernel : Kernel :=
  ((bootedKernel.execute directoryImage programCommand zeroFrame).2.openCall directoryImage
    (some directoryName) 0).2

theorem directoryKernel_fop : (directoryKernel.scheduledDescriptor 2).fop = .directory := by
  decide +kernel

/-- A read from a directory does not wait. -/
theorem directoryKernel_waits :
    (directoryKernel.readHead 2).Waits 2 (directoryKernel.readHead 2) := by
  have hfop := directoryKernel_fop
  rw [← Kernel.readHead_scheduledDescriptor] at hfop
  exact Kernel.waits_self (by rw [hfop]; decide) (by rw [hfop]; decide)

/-- A buffer of 32 bytes is large enough for a directory. -/
theorem writesWithin_directoryKernel :
    directoryKernel.WritesWithin directoryImage 2 32 (directoryKernel.readHead 2) :=
  (Kernel.writesWithin_iff (by decide) (by decide +kernel) (by decide +kernel)
    directoryKernel_waits).2 (by
      rw [Kernel.HasRoom, directoryKernel_fop]
      exact Or.inr (Or.inr (by decide)))

/-- **A read of one byte can write 32:** from the state after boot `a` is started, opens `.`
and reads one byte of it.  The call succeeds, and the last byte of the name has
overwritten byte 31 of the memory behind the buffer. -/
theorem not_writesWithin_directoryKernel :
    Run (Step directoryImage) bootedKernel
        [.execute programCommand zeroFrame, .openCall (some directoryName) 0] directoryKernel ∧
      (directoryKernel.readHead 2).Waits 2 (directoryKernel.readHead 2) ∧
      (directoryKernel.read directoryImage 2 true (fun _ => 7) 1 (directoryKernel.readHead 2)).ret
        = 1 ∧
      ¬ directoryKernel.WritesWithin directoryImage 2 1 (directoryKernel.readHead 2) := by
  have hrun : Run (Step directoryImage) bootedKernel
      [.execute programCommand zeroFrame, .openCall (some directoryName) 0] directoryKernel :=
    .cons (.execute (by decide) programCommand zeroFrame)
      (.single (.openCall (by decide +kernel) (some directoryName) 0))
  refine ⟨hrun, directoryKernel_waits, by decide +kernel, fun hwithin => ?_⟩
  have hbyte : (directoryKernel.read directoryImage 2 true (fun _ => 7) 1
      (directoryKernel.readHead 2)).buf 31 = 0 := by decide +kernel
  exact absurd (hbyte.symm.trans ((hwithin fun _ => 7).1 31 (by decide)))
    (show (0 : UInt8) ≠ 7 by decide)

end OS391
