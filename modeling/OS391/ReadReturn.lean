/-
# What a call of `read` returns

The handlers of `read` return how many bytes they delivered (`Kernel.Delivered`), but the
call hands on only `0` and `-1` and replaces every other value by `n`.  So the value is
right exactly when the handler delivered as much as was asked for, or nothing
(`returnsDelivered_iff`).

A program that reads a file to its end and adds up the values gets the length of the file
rounded up to a multiple of `n` (`readAll_eq`).
-/

import OS391.ReadData
import OS391.ReadBounds
import OS391.Table

namespace OS391

open Lib

namespace Kernel

variable {fs : FileSys} {s : Kernel} {resume : Resume} {fd n : ℤ} {buf : ℕ → UInt8}

/-! ### Files -/

/-- The value of `read_data`, at the end of a file too. -/
theorem readData_fst {inodeIndex offset length : ℕ} (buf : ℕ → UInt8)
    (hi : inodeIndex < fs.inodeCount) (hL : (fs.inodes inodeIndex).length ≤ 1023 * 4096)
    (hlength : length < 2147483648) :
    (readData fs inodeIndex offset buf length).1
      = (min length ((fs.inodes inodeIndex).length - offset) : ℕ) := by
  by_cases ho : offset < (fs.inodes inodeIndex).length
  · rw [readData_eq fs buf hi ho hL hlength]
  · rw [readData, if_neg (by omega)]
    dsimp only
    rw [if_pos (by omega), Nat.sub_eq_zero_of_le (by omega), Nat.min_zero]
    rfl

/-- How many bytes a read from a file finds. -/
def bytesLeft (fs : FileSys) (d : FileDescriptor) (n : ℤ) : ℕ :=
  min n.toNat ((fs.inodes d.inode).length - d.filePosition)

/-- **`file_read`** returns the bytes it found and moves the position by as much. -/
theorem fileRead_eq (buf : ℕ → UInt8) (hwf : fs.WellFormed) (h₀ : 0 ≤ n) (h₁ : n < 2147483648)
    {d : FileDescriptor} (hd : (s.pcb s.processNum).fileDescriptor fd = d) (hopen : d.flags = true)
    (hinode : d.inode < fs.inodeCount) :
    (s.fileRead fs fd buf n).ret = bytesLeft fs d n ∧
      (s.fileRead fs fd buf n).kernel = s.modifyDescriptor s.processNum fd fun d' =>
        { d' with filePosition := (u32 (d'.filePosition + bytesLeft fs d n)).toNat } := by
  have hu : (u32 n).toNat = n.toNat := by rw [u32_of_bounds h₀ (by omega)]
  have hdata : (readData fs d.inode d.filePosition (fillLoop (fillLoop buf 0 n.toNat) 0 n.toNat)
      n.toNat).1 = bytesLeft fs d n :=
    readData_fst _ hinode (hwf.length_le _ hinode) (show n.toNat < 2147483648 by omega)
  have hle : bytesLeft fs d n ≤ n.toNat := Nat.min_le_left _ _
  have hne : ((bytesLeft fs d n : ℕ) : ℤ) ≠ u32 (-1) := by
    unfold u32
    omega
  simp only [fileRead, hd, hu, hdata, hopen]
  rw [if_neg (by decide), if_neg hne]
  exact ⟨i32_of_bounds (by omega) (by omega), rfl⟩

/-- `file_read` of a file that is not there. -/
theorem fileRead_ret_of_not_lt
    (hinode : fs.inodeCount ≤ ((s.pcb s.processNum).fileDescriptor fd).inode) :
    (s.fileRead fs fd buf n).ret = -1 := by
  simp only [fileRead]
  split_ifs with hopen hdata
  · rfl
  · rfl
  · exact absurd (congrArg Prod.fst (if_pos hinode)) hdata

/-- **`directory_read`** returns `32` for every entry, and `0` at the end. -/
theorem directoryRead_ret (hfd : fdMin ≤ fd ∧ fd ≤ fdMax)
    (hopen : ((s.pcb s.processNum).fileDescriptor fd).flags = true) :
    (s.directoryRead fs fd buf n).ret =
      if ((s.pcb s.processNum).fileDescriptor fd).filePosition < fs.dirCount then dentryFileNameLen
      else 0 := by
  simp only [directoryRead]
  rw [if_neg (by omega), if_neg (by simp [hopen])]
  by_cases hpos : ((s.pcb s.processNum).fileDescriptor fd).filePosition < fs.dirCount
  · rw [if_neg (by omega), readDentryByIndex_of_lt hpos, if_pos hpos]
  · rw [if_pos (by omega), if_neg hpos]
    rfl

/-! ### The call -/

/-- What the handler of the descriptor delivers when it succeeds: the bytes left of the file
or as many as are asked for, a name, or the line up to the newline it was given. -/
def Delivered (fs : FileSys) (s : Kernel) (fd n : ℤ) (resume : Resume) : ℤ :=
  match (s.scheduledDescriptor fd).fop with
  | .file => bytesLeft fs (s.scheduledDescriptor fd) n
  | .directory =>
    ((if (s.scheduledDescriptor fd).filePosition < fs.dirCount then dentryFileNameLen else 0 : ℕ) : ℤ)
  | .stdin => resume.newlineCt s.scheduledPid + 1
  | _ => 0

/-- **A call of `read` that succeeds** returns what its handler delivered. -/
def ReturnsDelivered (fs : FileSys) (s : Kernel) (fd n : ℤ) (resume : Resume) : Prop :=
  ∀ buf, (s.read fs fd true buf n resume).ret ≠ -1 →
    (s.read fs fd true buf n resume).ret = s.Delivered fs fd n resume

/-- The handler fails, or delivers nothing, or as much as is asked for. -/
def FullRead (fs : FileSys) (s : Kernel) (fd n : ℤ) (resume : Resume) : Prop :=
  match (s.scheduledDescriptor fd).fop with
  | .file =>
    fs.inodeCount ≤ (s.scheduledDescriptor fd).inode ∨
      (fs.inodes (s.scheduledDescriptor fd).inode).length ≤ (s.scheduledDescriptor fd).filePosition ∨
      n ≤ (fs.inodes (s.scheduledDescriptor fd).inode).length - (s.scheduledDescriptor fd).filePosition
  | .directory =>
    fd < fdMin ∨ fs.dirCount ≤ (s.scheduledDescriptor fd).filePosition ∨ n = dentryFileNameLen
  | .stdin => 1 < fd ∨ n = resume.newlineCt s.scheduledPid + 1
  | _ => True

/-- The handler fails: for a descriptor that cannot be one of its kind, or a file that is not
there. -/
def HandlerFails (fs : FileSys) (s : Kernel) (fd : ℤ) : Prop :=
  match (s.scheduledDescriptor fd).fop with
  | .file => fs.inodeCount ≤ (s.scheduledDescriptor fd).inode
  | .directory => fd < fdMin
  | .stdin => 1 < fd
  | .stdout => True
  | .rtc => False

/-- The value of a call, from that of its handler. -/
theorem read_ret (hgood : ¬ s.BadInput fd true n) (buf : ℕ → UInt8) (resume : Resume) :
    (s.read fs fd true buf n resume).ret =
      if (handled fs s fd buf n resume).ret = 0 then 0
      else if (handled fs s fd buf n resume).ret = -1 then -1 else n :=
  congrArg ReadResult.ret (read_of_good hgood resume)

/-- When the handler always fails there is nothing to return. -/
theorem returnsDelivered_of_fail (hgood : ¬ s.BadInput fd true n)
    (h : ∀ buf, (handled fs s fd buf n resume).ret = -1) : s.ReturnsDelivered fs fd n resume := by
  intro buf hne
  rw [read_ret hgood, h buf] at hne
  exact absurd rfl hne

/-- When the handler succeeds, what it delivers has to be nothing or `n`. -/
theorem returnsDelivered_iff_of_ret (hgood : ¬ s.BadInput fd true n)
    (h : ∀ buf, ((handled fs s fd buf n resume).ret = 0 ↔ s.Delivered fs fd n resume = 0) ∧
      (handled fs s fd buf n resume).ret ≠ -1) :
    s.ReturnsDelivered fs fd n resume ↔
      s.Delivered fs fd n resume = 0 ∨ n = s.Delivered fs fd n resume := by
  have hn : ¬ n < 0 := fun hn => hgood (Or.inr (Or.inr (Or.inr (Or.inl hn))))
  by_cases hzero : s.Delivered fs fd n resume = 0
  · refine iff_of_true (fun buf _ => ?_) (Or.inl hzero)
    rw [read_ret hgood, if_pos ((h buf).1.2 hzero), hzero]
  · have hret (buf : ℕ → UInt8) : (s.read fs fd true buf n resume).ret = n := by
      rw [read_ret hgood, if_neg fun hret => hzero ((h buf).1.1 hret), if_neg (h buf).2]
    simp only [ReturnsDelivered, hret, hzero, false_or]
    exact ⟨fun hall => hall (fun _ => 0) (by omega), fun heq _ _ => heq⟩

theorem handled_ret_of_fails
    (hdesc : (resume.ready.pcb resume.ready.processNum).fileDescriptor fd = s.scheduledDescriptor fd)
    (hfails : s.HandlerFails fs fd) (buf : ℕ → UInt8) :
    (handled fs s fd buf n resume).ret = -1 := by
  rw [handled]
  rw [HandlerFails] at hfails
  cases hfop : (s.scheduledDescriptor fd).fop with
  | stdin =>
    rw [hfop] at hfails
    exact congrArg ReadResult.ret (if_pos (Or.inr hfails))
  | stdout => rfl
  | rtc =>
    rw [hfop] at hfails
    exact hfails.elim
  | directory =>
    rw [hfop] at hfails
    exact congrArg ReadResult.ret (if_pos (Or.inl hfails))
  | file =>
    rw [hfop] at hfails
    exact fileRead_ret_of_not_lt (by rw [hdesc]; exact hfails)

/-- **A handler that does not fail** returns `0` exactly when it delivers nothing, and never
`-1`.  From a file or a directory the value is what was delivered; for a line it is the length
that was looked up after the newline was stored. -/
theorem handled_ret (hwf : fs.WellFormed) (h₀ : 0 ≤ n) (h₁ : n < 2147483648) (hfd : fd ≤ fdMax)
    (hdesc : (resume.ready.pcb resume.ready.processNum).fileDescriptor fd = s.scheduledDescriptor fd)
    (hopen : (s.scheduledDescriptor fd).flags = true) (hfails : ¬ s.HandlerFails fs fd)
    (buf : ℕ → UInt8) :
    ((handled fs s fd buf n resume).ret = 0 ↔ s.Delivered fs fd n resume = 0) ∧
      (handled fs s fd buf n resume).ret ≠ -1 := by
  have hsame {a b : ℤ} (h : a = b) (hb : 0 ≤ b) : (a = 0 ↔ b = 0) ∧ a ≠ -1 := by omega
  rw [handled, Delivered]
  rw [HandlerFails] at hfails
  cases hfop : (s.scheduledDescriptor fd).fop with
  | stdin =>
    rw [hfop] at hfails
    simp only [Resume.readHandler, Resume.terminalReadTail]
    rw [if_neg (by omega)]
    dsimp only
    omega
  | stdout =>
    rw [hfop] at hfails
    exact absurd trivial hfails
  | rtc => exact hsame rfl (Int.le_refl 0)
  | directory =>
    rw [hfop] at hfails
    have hret : (resume.ready.directoryRead fs fd buf n).ret = _ :=
      directoryRead_ret ⟨Int.not_lt.1 hfails, hfd⟩ (by rw [hdesc, hopen])
    rw [hdesc] at hret
    exact hsame hret (Int.natCast_nonneg _)
  | file =>
    rw [hfop] at hfails
    exact hsame (fileRead_eq _ hwf h₀ h₁ hdesc hopen (Nat.lt_of_not_le hfails)).1
      (Int.natCast_nonneg _)

/-- A full read is one that fails, delivers nothing, or delivers `n`. -/
theorem fullRead_iff (h₀ : 0 ≤ n) : s.FullRead fs fd n resume ↔
    s.HandlerFails fs fd ∨ s.Delivered fs fd n resume = 0 ∨ n = s.Delivered fs fd n resume := by
  unfold FullRead HandlerFails Delivered
  cases hfop : (s.scheduledDescriptor fd).fop with
  | stdin =>
    dsimp only
    omega
  | stdout => exact ⟨fun _ => Or.inl trivial, fun _ => trivial⟩
  | rtc => exact ⟨fun _ => Or.inr (Or.inl rfl), fun _ => trivial⟩
  | directory =>
    dsimp only
    unfold dentryFileNameLen
    split_ifs <;> omega
  | file =>
    dsimp only
    unfold bytesLeft
    omega

/-- **A call of `read` returns what was delivered exactly when** that is nothing or as much
as was asked for. -/
theorem returnsDelivered_iff (hwf : fs.WellFormed) (hn : n < 2147483648)
    (hpid : s.processNum = s.scheduledPid) (hgood : ¬ s.BadInput fd true n)
    (hwait : (s.readHead fd).Waits fd resume) :
    s.ReturnsDelivered fs fd n resume ↔ s.FullRead fs fd n resume := by
  have hres := (s.resumed_readHead fd).trans hwait.resumed
  have hdesc : (resume.ready.pcb resume.ready.processNum).fileDescriptor fd
      = s.scheduledDescriptor fd := by
    rw [hres.processNum, hpid, hres.fileDescriptor, scheduledDescriptor]
  obtain ⟨-, hfd, -, hn₀, hopen⟩ : ¬ fd < 0 ∧ ¬ fd > fdMax ∧ ¬ true = false ∧ ¬ n < 0 ∧
      ¬ (s.scheduledDescriptor fd).flags = false := by
    simpa only [BadInput, not_or] using hgood
  rw [fullRead_iff (Int.not_lt.1 hn₀)]
  by_cases hfails : s.HandlerFails fs fd
  · exact ⟨fun _ => Or.inl hfails,
      fun _ => returnsDelivered_of_fail hgood (handled_ret_of_fails hdesc hfails)⟩
  · have hret := handled_ret hwf (Int.not_lt.1 hn₀) hn (Int.not_lt.1 hfd) hdesc
      (by simpa using hopen) hfails
    rw [returnsDelivered_iff_of_ret hgood hret, or_iff_right hfails]

/-! ### A file read to its end -/

/-- The loop of a program that reads until it gets `0` and adds up the values, with fuel for
`k` calls; there is no total when a call fails or the fuel runs out.  The descriptor is one
that does not wait. -/
def readAll (fs : FileSys) (fd n : ℤ) : ℕ → (ℕ → UInt8) → Kernel → Option ℤ
  | 0, _, _ => none
  | k + 1, buf, s =>
    let r := s.read fs fd true buf n (s.readHead fd)
    if r.ret = 0 then some 0
    else if r.ret = -1 then none
    else (readAll fs fd n k r.buf r.kernel).map (r.ret + ·)

/-- Descriptor `fd` of the running process is a regular file, read up to position `p`. -/
structure FileAt (s : Kernel) (fd : ℤ) (inode p : ℕ) : Prop where
  processNum : s.processNum = s.scheduledPid
  bounds : 0 ≤ fd ∧ fd ≤ fdMax
  descriptor : s.scheduledDescriptor fd =
    { fop := .file, inode := inode, filePosition := p, flags := true }

section Loop

variable {inode p : ℕ}

theorem FileAt.good (h : s.FileAt fd inode p) (hn : 0 < n) : ¬ s.BadInput fd true n := by
  have := h.bounds
  rw [BadInput, h.descriptor]
  simp only [Bool.true_eq_false, or_false, false_or, not_or]
  omega

/-- **One call** returns `n` unless the file is at its end, and moves the position by the
bytes that were left. -/
theorem FileAt.read (hwf : fs.WellFormed) (hn : 0 < n) (hn' : n < 2147483648)
    (hinode : inode < fs.inodeCount) (h : s.FileAt fd inode p) (buf : ℕ → UInt8) :
    (s.read fs fd true buf n (s.readHead fd)).ret
        = (if min n.toNat ((fs.inodes inode).length - p) = 0 then 0 else n) ∧
      (p ≤ (fs.inodes inode).length → FileAt (s.read fs fd true buf n (s.readHead fd)).kernel fd inode
        (p + min n.toNat ((fs.inodes inode).length - p))) := by
  set k := min n.toNat ((fs.inodes inode).length - p) with hk
  have hres := s.resumed_readHead fd
  set u := s.readHead fd with hu
  have hhandled : handled fs s fd buf n u = u.fileRead fs fd buf n := by
    rw [handled, h.descriptor]
    rfl
  have hdesc : (u.pcb u.processNum).fileDescriptor fd
      = { fop := .file, inode := inode, filePosition := p, flags := true } := by
    rw [hres.processNum, h.processNum, hres.fileDescriptor, ← scheduledDescriptor, h.descriptor]
  obtain ⟨hret, hkernel⟩ := fileRead_eq buf hwf (Int.le_of_lt hn) hn' hdesc rfl hinode
  have hbytes : bytesLeft fs { fop := .file, inode := inode, filePosition := p, flags := true } n
      = k := rfl
  rw [hbytes] at hret hkernel
  rw [read_of_good (h.good hn), hhandled]
  refine ⟨?_, fun hp => ?_⟩
  · simp only [hret]
    by_cases hzero : k = 0
    · rw [if_pos (by omega), if_pos hzero]
    · rw [if_neg (by omega), if_neg (by omega), if_neg hzero]
  · have hlength := hwf.length_le inode hinode
    dsimp only
    rw [hkernel]
    refine ⟨hres.processNum.trans (h.processNum.trans hres.scheduledPid.symm), h.bounds, ?_⟩
    have hthis : u.scheduledPid = u.processNum := by
      rw [hres.scheduledPid, hres.processNum, h.processNum]
    have hmove := modifyDescriptor_fileDescriptor u u.processNum fd u.processNum fd
      fun d => { d with filePosition := (u32 (d.filePosition + k)).toNat }
    rw [if_pos ⟨rfl, rfl⟩, hdesc] at hmove
    have hwrap : (u32 ((p : ℤ) + k)).toNat = p + k := by
      rw [u32_of_bounds (by omega) (by omega)]
      omega
    dsimp only at hmove
    rw [hwrap] at hmove
    rw [← hmove, ← hthis]
    rfl

/-- **The loop ends,** and its total is what was left of the file rounded up to a multiple
of `n`. -/
theorem readAll_eq (fd : ℤ) (hwf : fs.WellFormed) (hn : 0 < n) (hn' : n < 2147483648)
    (hinode : inode < fs.inodeCount) (hp : p ≤ (fs.inodes inode).length) :
    ∃ m : ℕ, (fs.inodes inode).length - p ≤ n.toNat * m ∧
      n.toNat * m < (fs.inodes inode).length - p + n.toNat ∧
      ∀ (s : Kernel) (buf : ℕ → UInt8) (k : ℕ), s.FileAt fd inode p →
        (fs.inodes inode).length - p < k →
          readAll fs fd n k buf s = some ((n.toNat * m : ℕ) : ℤ) := by
  generalize hleft : (fs.inodes inode).length - p = left
  induction left using Nat.strongRecOn generalizing p with
  | ind left ih =>
    rcases Nat.eq_zero_or_pos left with hzero | hpos
    · refine ⟨0, by omega, by omega, fun s buf k h hk => ?_⟩
      obtain ⟨k, rfl⟩ : ∃ k', k = k' + 1 := ⟨k - 1, by omega⟩
      have hret := (h.read hwf hn hn' hinode buf).1
      rw [if_pos (by omega)] at hret
      rw [readAll, if_pos hret]
      rfl
    · set d := min n.toNat ((fs.inodes inode).length - p) with hd
      obtain ⟨m, hle, hlt, hloop⟩ := ih (left - d) (by omega) (p := p + d) (by omega) (by omega)
      have hmul : n.toNat * (m + 1) = n.toNat * m + n.toNat := Nat.mul_succ _ _
      have hlast : left < n.toNat → n.toNat * m = 0 := fun hshort => by
        have hm : m < 1 := Nat.lt_of_mul_lt_mul_left (a := n.toNat) (by omega)
        rw [Nat.lt_one_iff.1 hm, Nat.mul_zero]
      refine ⟨m + 1, by omega, by omega, fun s buf k h hk => ?_⟩
      obtain ⟨k, rfl⟩ : ∃ k', k = k' + 1 := ⟨k - 1, by omega⟩
      obtain ⟨hret, hnext⟩ := h.read hwf hn hn' hinode buf
      rw [if_neg (by omega)] at hret
      rw [readAll, if_neg (by omega), if_neg (by omega), hloop _ _ k (hnext hp) (by omega), hret]
      refine congrArg some (show n + ((n.toNat * m : ℕ) : ℤ) = _ from ?_)
      omega

/-- A total rounded up to a multiple of `n` is right exactly for lengths that are multiples. -/
theorem roundUp_eq_iff {L N m : ℕ} (hle : L ≤ N * m) (hlt : N * m < L + N) :
    N * m = L ↔ N ∣ L := by
  constructor
  · exact fun h => ⟨m, h.symm⟩
  · rintro ⟨c, rfl⟩
    have hcm : c ≤ m := Nat.le_of_mul_le_mul_left hle (by omega)
    have hmc : m < c + 1 := Nat.lt_of_mul_lt_mul_left (a := N) (by rw [Nat.mul_succ]; omega)
    rw [Nat.le_antisymm hcm (Nat.le_of_lt_succ hmc)]

end Loop

/-- **What `read` returns.**  A call returns what was delivered exactly when that is nothing
or as much as was asked for; and the values of the calls that read a file to its end add up
to its length exactly when that is a multiple of `n`. -/
theorem read_returns_iff (hwf : fs.WellFormed) (hn : n < 2147483648)
    (hpid : s.processNum = s.scheduledPid) (hgood : ¬ s.BadInput fd true n)
    (hwait : (s.readHead fd).Waits fd resume) :
    (s.ReturnsDelivered fs fd n resume ↔ s.FullRead fs fd n resume) ∧
      ∀ inode < fs.inodeCount, s.FileAt fd inode 0 → 0 < n → ∃ total : ℤ,
        (∀ buf k, (fs.inodes inode).length < k → readAll fs fd n k buf s = some total) ∧
          (total = (fs.inodes inode).length ↔ n ∣ (fs.inodes inode).length) := by
  refine ⟨returnsDelivered_iff hwf hn hpid hgood hwait, fun inode hinode hfile hpos => ?_⟩
  obtain ⟨m, hle, hlt, hloop⟩ := readAll_eq fd hwf hpos hn hinode (Nat.zero_le _)
  refine ⟨_, fun buf k hk => hloop s buf k hfile hk, ?_⟩
  rw [Nat.sub_zero] at hle hlt
  rw [Int.natCast_inj, roundUp_eq_iff hle hlt, ← Int.natCast_dvd_natCast,
    Int.toNat_of_nonneg (by omega)]

end Kernel

/-! ### A file read with a larger buffer -/

theorem programImage_wellFormed : programImage.WellFormed :=
  ⟨fun _ _ => show 40 ≤ 1023 * 4096 by decide, fun _ _ _ _ => show 0 < 1 by decide⟩

/-- The kernel after the first shell has started `a` and `a` has opened its own file, of 40
bytes. -/
def fileKernel : Kernel :=
  ((bootedKernel.execute programImage programCommand zeroFrame).2.openCall programImage
    (some programCommand) 0).2

theorem fileKernel_fop : (fileKernel.scheduledDescriptor 2).fop = .file := by decide +kernel

/-- A read from a file does not wait. -/
theorem fileKernel_waits : (fileKernel.readHead 2).Waits 2 (fileKernel.readHead 2) := by
  have hfop := fileKernel_fop
  rw [← Kernel.readHead_scheduledDescriptor] at hfop
  exact Kernel.waits_self (by rw [hfop]; decide) (by rw [hfop]; decide)

/-- A read of all 40 bytes returns 40. -/
theorem returnsDelivered_fileKernel :
    fileKernel.ReturnsDelivered programImage 2 40 (fileKernel.readHead 2) :=
  (Kernel.read_returns_iff programImage_wellFormed (by decide) (by decide +kernel)
    (by decide +kernel) fileKernel_waits).1.2 (by
      rw [Kernel.FullRead, fileKernel_fop]
      exact Or.inr (Or.inr (by decide +kernel)))

/-- **A read of 100 bytes returns 100,** where the file has 40; a program that reads until it
gets `0` counts 100 bytes too. -/
theorem not_returnsDelivered_fileKernel :
    Run (Step programImage) bootedKernel
        [.execute programCommand zeroFrame, .openCall (some programCommand) 0] fileKernel ∧
      (fileKernel.readHead 2).Waits 2 (fileKernel.readHead 2) ∧
      ¬ fileKernel.ReturnsDelivered programImage 2 100 (fileKernel.readHead 2) ∧
      Kernel.readAll programImage 2 100 3 (fun _ => 0) fileKernel = some 100 := by
  have hrun : Run (Step programImage) bootedKernel
      [.execute programCommand zeroFrame, .openCall (some programCommand) 0] fileKernel :=
    .cons (.execute (by decide) programCommand zeroFrame)
      (.single (.openCall (by decide +kernel) (some programCommand) 0))
  refine ⟨hrun, fileKernel_waits, fun hret => ?_, by decide +kernel⟩
  have hvalue : (fileKernel.read programImage 2 true (fun _ => 0) 100 (fileKernel.readHead 2)).ret
      = 100 := by decide +kernel
  have hdelivered : fileKernel.Delivered programImage 2 100 (fileKernel.readHead 2) = 40 := by
    decide +kernel
  have heq := hret (fun _ => 0) (by rw [hvalue]; decide)
  rw [hvalue, hdelivered] at heq
  exact absurd heq (by decide)

end OS391
