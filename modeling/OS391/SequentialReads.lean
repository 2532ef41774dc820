/-
# Reading a file piece by piece

A process opens a regular file and reads it with calls of `file_read` of any sizes, while
it and other processes open, read and close other descriptors, of the same file too.  The
bytes delivered are the file from its start, in order and without a gap
(`reads_reassemble`).

The calls are those of the handler tables.  Between two of them the scheduler may bring
another process to the processor (`Resumes`); what it saves in a PCB then are `esp` and `ebp`.
-/

import OS391.DescriptorMap
import OS391.ReadReturn

namespace OS391

open Lib

/-! ### The calls -/

/-- A call of a function that works on descriptors. -/
inductive FileCall
  | fileOpen (filename : CString)
  | directoryOpen (filename : CString)
  | rtcOpen (filename : CString)
  | read (fop : FopTable) (fd : ℤ) (buf : ℕ → UInt8) (n : ℤ)
  | close (fop : FopTable) (fd : ℤ)

namespace FileCall

/-- The descriptor a call is given. -/
def fd? : FileCall → Option ℤ
  | read _ fd _ _ | close _ fd => some fd
  | _ => none

/-- How many bytes a call asks for. -/
def size : FileCall → ℕ
  | read _ _ _ n => n.toNat
  | _ => 0

/-- What a call does; only a read has a buffer. -/
def run (fs : FileSys) (s : Kernel) : FileCall → ReadResult
  | fileOpen name => ⟨(s.fileOpen fs name).1, fun _ => 0, (s.fileOpen fs name).2⟩
  | directoryOpen name => ⟨(s.directoryOpen fs name).1, fun _ => 0, (s.directoryOpen fs name).2⟩
  | rtcOpen name => ⟨(s.rtcOpen fs name).1, fun _ => 0, (s.rtcOpen fs name).2⟩
  | read fop fd buf n => (s : Resume).readHandler fs fop s.processNum fd buf n
  | close fop fd => ⟨(s.closeHandler fop fd).1, fun _ => 0, (s.closeHandler fop fd).2⟩

end FileCall

/-- A call, with the process that makes it and its result. -/
structure FileEvent where
  pid : ℤ
  call : FileCall
  result : ReadResult

/-- Process `pid` is brought to the processor. -/
structure Resumes (s : Kernel) (pid : ℤ) (t : Kernel) : Prop where
  pcb : ∀ q, (t.pcb q).unsaved = (s.pcb q).unsaved
  processNum : t.processNum = pid
  scheduledPid : t.scheduledPid = pid

theorem Resumes.fileDescriptor {s t : Kernel} {pid : ℤ} (h : Resumes s pid t) (q : ℤ) :
    (t.pcb q).fileDescriptor = (s.pcb q).fileDescriptor := Pcb.fileDescriptor_of_unsaved (h.pcb q)

/-- One call, of any process. -/
inductive FileStep (fs : FileSys) : Kernel → FileEvent → Kernel → Prop
  | call {s t : Kernel} {pid : ℤ} (h : Resumes s pid t) (c : FileCall) :
      FileStep fs s ⟨pid, c, c.run fs t⟩ (c.run fs t).kernel

section Trace

variable (pid fd : ℤ)

/-- The call is for descriptor `fd` of process `pid`. -/
def FileEvent.IsOn (e : FileEvent) : Prop := e.pid = pid ∧ e.call.fd? = some fd

instance (e : FileEvent) : Decidable (e.IsOn pid fd) := inferInstanceAs (Decidable (_ ∧ _))

/-- On the descriptor only `file_read` is called; any calls are made on others. -/
def OnlyReads (_ : Kernel) (e : FileEvent) : Prop :=
  e.IsOn pid fd → ∃ buf n, e.call = .read .file fd buf n ∧ 0 ≤ n ∧ n < 2147483648

/-- The bytes a call delivers. -/
def ReadResult.bytes (r : ReadResult) : List UInt8 := (List.range r.ret.toNat).map r.buf

/-- The bytes delivered through the descriptor, one call after the other. -/
def delivered : List FileEvent → List UInt8
  | [] => []
  | e :: es => (if e.IsOn pid fd then e.result.bytes else []) ++ delivered es

/-- The sum of the sizes asked for. -/
def asked : List FileEvent → ℕ
  | [] => 0
  | e :: es => (if e.IsOn pid fd then e.call.size else 0) + asked es

end Trace

/-! ### What the calls leave alone -/

section Frame

variable {fs : FileSys} {s : Kernel} {pid fd : ℤ}

/-- An `open` function takes a free descriptor. -/
theorem openDescriptor_fileDescriptor (p : ℤ) (fop : FopTable) (fileType : ℕ)
    (inodeOf : Dentry → ℕ) (name : CString)
    (hopen : ((s.pcb pid).fileDescriptor fd).flags = true) :
    ((s.openDescriptor fs p fop fileType inodeOf name).2.pcb pid).fileDescriptor fd
      = (s.pcb pid).fileDescriptor fd := by
  unfold Kernel.openDescriptor
  split
  · rfl
  · split
    · rfl
    · split_ifs with htype hfree
      · rfl
      · rw [Kernel.modifyDescriptor_fileDescriptor, if_neg]
        rintro ⟨rfl, rfl⟩
        exact absurd (hopen.symm.trans hfree) (Bool.false_ne_true ∘ Eq.symm)
      · rfl

/-- `file_read` and `directory_read` change their descriptor, or nothing. -/
theorem fileRead_kernel (fs : FileSys) (s : Kernel) (fd : ℤ) (buf : ℕ → UInt8) (n : ℤ) :
    (s.fileRead fs fd buf n).kernel = s ∨
      ∃ f, (s.fileRead fs fd buf n).kernel = s.modifyDescriptor s.processNum fd f := by
  simp only [Kernel.fileRead]
  split_ifs
  · exact Or.inl rfl
  · exact Or.inl rfl
  · dsimp only
    exact Or.inr ⟨_, rfl⟩

theorem directoryRead_kernel (fs : FileSys) (s : Kernel) (fd : ℤ) (buf : ℕ → UInt8) (n : ℤ) :
    (s.directoryRead fs fd buf n).kernel = s ∨
      ∃ f, (s.directoryRead fs fd buf n).kernel = s.modifyDescriptor s.processNum fd f := by
  simp only [Kernel.directoryRead]
  split_ifs
  · exact Or.inl rfl
  · exact Or.inl rfl
  · exact Or.inl rfl
  · split
    · exact Or.inl rfl
    · dsimp only
      exact Or.inr ⟨_, rfl⟩

/-- **A call on another descriptor** leaves one that is open as it is. -/
theorem FileCall.run_fileDescriptor {p : ℤ} (hnum : s.processNum = p) (hsched : s.scheduledPid = p)
    (c : FileCall) (hopen : ((s.pcb pid).fileDescriptor fd).flags = true)
    (hother : ¬ (p = pid ∧ c.fd? = some fd)) :
    ((c.run fs s).kernel.pcb pid).fileDescriptor fd = (s.pcb pid).fileDescriptor fd := by
  have hmodify (fd' : ℤ) (f : FileDescriptor → FileDescriptor) (h : ¬ (p = pid ∧ fd' = fd)) :
      ((s.modifyDescriptor s.processNum fd' f).pcb pid).fileDescriptor fd
        = (s.pcb pid).fileDescriptor fd := by
    rw [Kernel.modifyDescriptor_fileDescriptor, hnum, if_neg]
    rintro ⟨rfl, rfl⟩
    exact h ⟨rfl, rfl⟩
  have hclose (u : Kernel) (hu : u.pcb = s.pcb) (fd' r : ℤ) (h : ¬ (p = pid ∧ fd' = fd)) :
      ((u.closeDescriptor p fd' r).2.pcb pid).fileDescriptor fd
        = (s.pcb pid).fileDescriptor fd := by
    rw [Kernel.closeDescriptor_fileDescriptor, hu, if_neg]
    rintro ⟨rfl, rfl, -⟩
    exact h ⟨rfl, rfl⟩
  cases c with
  | fileOpen name => exact openDescriptor_fileDescriptor _ _ _ _ name hopen
  | directoryOpen name => exact openDescriptor_fileDescriptor _ _ _ _ name hopen
  | rtcOpen name =>
    exact openDescriptor_fileDescriptor (s := s.cli.resetRtc) _ _ _ _ name hopen
  | read fop fd' buf n =>
    have hne : ¬ (p = pid ∧ fd' = fd) := fun h => hother ⟨h.1, congrArg some h.2⟩
    cases fop with
    | stdin =>
      simp only [FileCall.run, Resume.readHandler, Resume.terminalReadTail]
      split_ifs <;> rfl
    | stdout => rfl
    | rtc => rfl
    | directory =>
      show ((s.directoryRead fs fd' buf n).kernel.pcb pid).fileDescriptor fd = _
      rcases directoryRead_kernel fs s fd' buf n with h | ⟨f, h⟩
      · rw [h]
      · rw [h, hmodify fd' f hne]
    | file =>
      show ((s.fileRead fs fd' buf n).kernel.pcb pid).fileDescriptor fd = _
      rcases fileRead_kernel fs s fd' buf n with h | ⟨f, h⟩
      · rw [h]
      · rw [h, hmodify fd' f hne]
  | close fop fd' =>
    have hne : ¬ (p = pid ∧ fd' = fd) := fun h => hother ⟨h.1, congrArg some h.2⟩
    subst hnum
    cases fop with
    | stdin | stdout => rfl
    | rtc =>
      show ((s.cli.closeDescriptor s.scheduledPid fd' 0).2.pcb pid).fileDescriptor fd = _
      rw [hsched, hclose s.cli rfl fd' 0 hne]
    | directory => exact hclose s rfl fd' (-1) hne
    | file => exact hclose s rfl fd' 0 hne

end Frame

/-! ### One read -/

section Read

variable {fs : FileSys} {s : Kernel} {fd n : ℤ}

/-- Descriptor `fd` of a PCB is open on a regular file, at a position. -/
def Pcb.OpenAt (p : Pcb) (fd : ℤ) (inode position : ℕ) : Prop :=
  p.fileDescriptor fd = { fop := .file, inode := inode, filePosition := position, flags := true }

/-- A call of `file_read` that succeeds puts into the buffer what `read_data` does, on NULs. -/
theorem fileRead_buf (hwf : fs.WellFormed) {inode p : ℕ} (hinode : inode < fs.inodeCount)
    (h : (s.pcb s.processNum).OpenAt fd inode p) (hp : p ≤ (fs.contents inode).length)
    (hn₀ : 0 ≤ n) (hn : n < 2147483648) (buf : ℕ → UInt8) :
    (s.fileRead fs fd buf n).buf =
      (readData fs inode p (fillLoop (fillLoop buf 0 n.toNat) 0 n.toNat) n.toNat).2 := by
  have hL := hwf.length_le inode hinode
  have hlen := fs.contents_length inode
  have hu : (u32 n).toNat = n.toNat := by rw [u32_of_bounds hn₀ (by omega)]
  have hne : (readData fs inode p (fillLoop (fillLoop buf 0 n.toNat) 0 n.toNat) n.toNat).1
      ≠ u32 (-1) := by
    rw [Kernel.readData_fst _ hinode hL (by omega)]
    unfold u32
    omega
  simp only [Kernel.fileRead, show (s.pcb s.processNum).fileDescriptor fd = _ from h, hu]
  rw [if_neg (by decide), if_neg hne]

/-- **One call of `file_read`** delivers what it is asked for and the file still has, fills the
buffer up with NULs, and moves the position by what it delivers. -/
theorem fileRead_spec (hwf : fs.WellFormed) {inode p : ℕ} (hinode : inode < fs.inodeCount)
    (h : (s.pcb s.processNum).OpenAt fd inode p) (hp : p ≤ (fs.contents inode).length)
    (hn₀ : 0 ≤ n) (hn : n < 2147483648) (buf : ℕ → UInt8) :
    let r := s.fileRead fs fd buf n
    let k := min n.toNat ((fs.contents inode).length - p)
    r.ret = k ∧ (∀ j < k, (fs.contents inode)[p + j]? = some (r.buf j)) ∧
      (∀ j, k ≤ j → j < n.toNat → r.buf j = 0) ∧
      (r.kernel.pcb s.processNum).OpenAt fd inode (p + k) := by
  intro r k
  have hL := hwf.length_le inode hinode
  have hlen := fs.contents_length inode
  obtain ⟨hret, hkernel⟩ := Kernel.fileRead_eq buf hwf hn₀ hn h rfl hinode
  have hleft : Kernel.bytesLeft fs
      { fop := .file, inode := inode, filePosition := p, flags := true } n = k := by
    simp only [Kernel.bytesLeft, k, hlen]
  rw [hleft] at hret hkernel
  have hdata (hlt : p < (fs.inodes inode).length) (x : ℕ → UInt8) :
      (readData fs inode p x n.toNat).2 = copyLoop x 0 (wanted fs (fs.inodes inode) p) k := by
    rw [readData_eq fs x hinode hlt hL (by omega), ← hlen]
  have hbuf : r.buf = _ := fileRead_buf hwf hinode h hp hn₀ hn buf
  refine ⟨hret, fun j hj => ?_, fun j hj hj' => ?_, ?_⟩
  · rw [hbuf, hdata (by omega), copyLoop_start hj]
    exact FileSys.contents_getElem? fs inode (by omega)
  · have hzero : fillLoop (fillLoop buf 0 n.toNat) 0 n.toNat j = 0 := by
      rw [fillLoop_apply, if_pos hj']
    rw [hbuf]
    by_cases hlt : p < (fs.inodes inode).length
    · rw [hdata hlt, copyLoop_outside (by omega), hzero]
    · rw [readData_of_le fs _ _ hinode (by omega)]
      exact hzero
  · have hmove : r.kernel = _ := hkernel
    rw [Pcb.OpenAt, hmove, Kernel.modifyDescriptor_fileDescriptor, if_pos ⟨rfl, rfl⟩,
      show (s.pcb s.processNum).fileDescriptor fd = _ from h]
    have hwrap : (u32 ((p : ℤ) + k)).toNat = p + k := by
      rw [u32_of_bounds (by omega) (by omega)]
      omega
    rw [hwrap]

end Read

/-! ### Sequences of calls -/

section Sequence

variable {fs : FileSys} {s t : Kernel} {pid fd : ℤ} {inode p : ℕ} {e : FileEvent}
  {es : List FileEvent}

/-- The bytes of one call are the next ones of the file. -/
theorem bytes_eq {l : List UInt8} {r : ReadResult} {n : ℕ}
    (hret : r.ret = (min n (l.length - p) : ℕ))
    (hbuf : ∀ j < min n (l.length - p), l[p + j]? = some (r.buf j)) :
    r.bytes = (l.drop p).take n := by
  refine List.ext_getElem? fun j => ?_
  rw [ReadResult.bytes, hret, Int.toNat_natCast, List.getElem?_map]
  by_cases hj : j < min n (l.length - p)
  · rw [List.getElem?_range hj, Option.map_some, List.getElem?_take_of_lt (by omega),
      List.getElem?_drop, hbuf j hj]
  · rw [List.getElem?_eq_none (by rw [List.length_range]; omega), Option.map_none]
    refine (List.getElem?_eq_none ?_).symm
    rw [List.length_take, List.length_drop]
    omega

/-- **One step:** a call on the descriptor delivers the next bytes, one on another descriptor
leaves it. -/
theorem FileStep.openAt (hwf : fs.WellFormed) (hinode : inode < fs.inodeCount)
    (hstep : FileStep fs s e t) (honly : OnlyReads pid fd s e)
    (h : (s.pcb pid).OpenAt fd inode p) (hp : p ≤ (fs.contents inode).length) :
    let n := if e.IsOn pid fd then e.call.size else 0
    (if e.IsOn pid fd then e.result.bytes else []) = ((fs.contents inode).drop p).take n ∧
      (t.pcb pid).OpenAt fd inode (p + min n ((fs.contents inode).length - p)) := by
  cases hstep with
  | @call u q hres c =>
    have hu : (u.pcb pid).OpenAt fd inode p := by
      rw [Pcb.OpenAt, hres.fileDescriptor]
      exact h
    dsimp only
    split_ifs with hon
    · obtain ⟨buf, n, hc, hn₀, hn⟩ := honly hon
      obtain rfl : q = pid := hon.1
      obtain rfl : c = .read .file fd buf n := hc
      have hnum := hres.processNum
      obtain ⟨hret, hbuf, -, hopen⟩ := fileRead_spec hwf hinode (hnum.symm ▸ hu) hp hn₀ hn buf
      exact ⟨bytes_eq hret hbuf, hnum ▸ hopen⟩
    · rw [Nat.zero_min, Nat.add_zero, List.take_zero]
      refine ⟨rfl, ?_⟩
      have hflags : ((u.pcb pid).fileDescriptor fd).flags = true := by rw [hu]
      exact (FileCall.run_fileDescriptor hres.processNum hres.scheduledPid c hflags hon).trans hu

/-- **A run:** the bytes delivered are those of the file from the position on. -/
theorem openAt_of_run (hwf : fs.WellFormed) (hinode : inode < fs.inodeCount)
    (hr : Run (Guarded (OnlyReads pid fd) (FileStep fs)) s es t)
    (h : (s.pcb pid).OpenAt fd inode p) (hp : p ≤ (fs.contents inode).length) :
    delivered pid fd es = ((fs.contents inode).drop p).take (asked pid fd es) ∧
      (t.pcb pid).OpenAt fd inode (p + min (asked pid fd es) ((fs.contents inode).length - p)) := by
  induction hr generalizing p with
  | nil s =>
    rw [asked, delivered, List.take_zero, Nat.zero_min, Nat.add_zero]
    exact ⟨rfl, h⟩
  | @cons s u t e es hstep _ ih =>
    obtain ⟨hbytes, hopen⟩ := hstep.2.openAt hwf hinode hstep.1 h hp
    set n := if e.IsOn pid fd then e.call.size else 0 with hn
    obtain ⟨hrest, hlast⟩ := ih hopen (by omega)
    have hdrop : (fs.contents inode).drop (p + min n ((fs.contents inode).length - p))
        = (fs.contents inode).drop (p + n) := by
      rcases Nat.le_total n ((fs.contents inode).length - p) with hle | hle
      · rw [Nat.min_eq_left hle]
      · rw [Nat.min_eq_right hle, List.drop_eq_nil_of_le (by omega),
          List.drop_eq_nil_of_le (by omega)]
    constructor
    · rw [delivered, asked, hbytes, hrest, hdrop, ← hn, List.take_add, List.drop_drop]
    · rw [asked, ← hn]
      have hpos : p + min n ((fs.contents inode).length - p) + min (asked pid fd es)
            ((fs.contents inode).length - (p + min n ((fs.contents inode).length - p)))
          = p + min (n + asked pid fd es) ((fs.contents inode).length - p) := by omega
      exact hpos ▸ hlast

/-- A name of a regular file of the image. -/
structure FileSys.RegularFile (fs : FileSys) (name : CString) (inode : ℕ) : Prop where
  lookup : ∃ d, fs.lookup name = some d ∧ d.fileType = regularFileType ∧ d.inodeNum = inode
  inode_lt : inode < fs.inodeCount

/-- **What an `open` function that succeeds has found and left:** a free slot, an entry of its
type with the name, and the descriptor of that entry at the start. -/
theorem openDescriptor_opened {q : ℤ} {fop : FopTable} {fileType : ℕ} {inodeOf : Dentry → ℕ}
    {name : CString} (hopen : (s.openDescriptor fs q fop fileType inodeOf name).1 = fd)
    (hfd : fd ≠ -1) :
    (fdMin ≤ fd ∧ fd ≤ fdMax) ∧ ∃ d, fs.lookup name = some d ∧ d.fileType = fileType ∧
      ((s.openDescriptor fs q fop fileType inodeOf name).2.pcb q).fileDescriptor fd
        = { fop := fop, inode := inodeOf d.padded, filePosition := 0, flags := true } := by
  unfold Kernel.openDescriptor at hopen ⊢
  cases hfree : freeDescriptor (s.pcb q) with
  | none =>
    rw [hfree] at hopen
    exact absurd hopen.symm hfd
  | some i =>
    rw [hfree, readDentryByName_eq] at hopen
    rw [readDentryByName_eq]
    cases hlookup : fs.lookup name with
    | none =>
      rw [hlookup] at hopen
      exact absurd hopen.symm hfd
    | some d =>
      have hflags : ((s.pcb q).fileDescriptor i).flags = false := by
        simpa using List.find?_some hfree
      rw [hlookup, Option.map_some] at hopen
      rw [Option.map_some]
      dsimp only at hopen ⊢
      split_ifs at hopen ⊢ with htype
      · exact absurd hopen.symm hfd
      · obtain rfl : i = fd := hopen
        refine ⟨mem_slots.1 (List.mem_of_find?_eq_some hfree), d, rfl, not_not.1 htype, ?_⟩
        rw [Kernel.modifyDescriptor_fileDescriptor, if_pos ⟨rfl, rfl⟩]

/-- **`file_open`** puts the descriptor at the start of the file. -/
theorem openAt_fileOpen {name : CString} (hfile : fs.RegularFile name inode)
    (hopen : (s.fileOpen fs name).1 = fd) (hfd : fd ≠ -1) :
    ((s.fileOpen fs name).2.pcb s.processNum).OpenAt fd inode 0 := by
  obtain ⟨d, hlookup, -, hinode⟩ := hfile.lookup
  obtain ⟨-, d', hlookup', -, hdescriptor⟩ := openDescriptor_opened hopen hfd
  obtain rfl : d = d' := Option.some.inj (hlookup.symm.trans hlookup')
  rw [← hinode]
  exact hdescriptor

/-- **Sequential reads reassemble the file.**  After any calls, `file_read` with any sizes on
the descriptor among them, the bytes delivered are the file up to the position, which is the
sum of the sizes or the end of the file; the next call delivers what it is asked for and is
left, and NULs; and at the end of the file it returns `0` and stays there. -/
theorem reads_reassemble (hwf : fs.WellFormed) {name : CString}
    (hfile : fs.RegularFile name inode) (hopen : (s.fileOpen fs name).1 = fd) (hfd : fd ≠ -1)
    (hr : Run (Guarded (OnlyReads s.processNum fd) (FileStep fs)) (s.fileOpen fs name).2 es t) :
    let L := (fs.contents inode).length
    let pos := min (asked s.processNum fd es) L
    delivered s.processNum fd es = (fs.contents inode).take pos ∧
      ((t.pcb s.processNum).fileDescriptor fd).filePosition = pos ∧
      ∀ u, Resumes t s.processNum u → ∀ buf n, 0 ≤ n → n < 2147483648 →
        let r := u.fileRead fs fd buf n
        r.ret = (min n.toNat (L - pos) : ℕ) ∧
          (∀ j < min n.toNat (L - pos), (fs.contents inode)[pos + j]? = some (r.buf j)) ∧
          (∀ j, min n.toNat (L - pos) ≤ j → j < n.toNat → r.buf j = 0) ∧
          (pos = L → r.ret = 0 ∧
            ((r.kernel.pcb s.processNum).fileDescriptor fd).filePosition = pos) := by
  intro L pos
  have hstart := openAt_fileOpen hfile hopen hfd
  obtain ⟨hbytes, hend⟩ := openAt_of_run hwf hfile.inode_lt hr hstart (Nat.zero_le _)
  have hpos : 0 + min (asked s.processNum fd es) ((fs.contents inode).length - 0) = pos := by
    omega
  rw [hpos] at hend
  refine ⟨?_, by rw [hend], fun u hres buf n hn₀ hn => ?_⟩
  · rw [hbytes, List.drop_zero, List.take_eq_take_min]
  · have hu : (u.pcb u.processNum).OpenAt fd inode pos := by
      rw [Pcb.OpenAt, hres.fileDescriptor, hres.processNum]
      exact hend
    obtain ⟨hret, hbuf, hzero, hnext⟩ :=
      fileRead_spec hwf hfile.inode_lt hu (Nat.min_le_right _ _) hn₀ hn buf
    refine ⟨hret, hbuf, hzero, fun heof => ?_⟩
    have hnone : min n.toNat ((fs.contents inode).length - pos) = 0 := by omega
    rw [hnone] at hret hnext
    rw [← hres.processNum, hnext]
    exact ⟨hret, rfl⟩

end Sequence

/-! ### A file read in two pieces -/

/-- The name `a` is that of a regular file. -/
theorem regularFile_program : programImage.RegularFile programCommand 0 where
  lookup := ⟨programImage.direntries 0, rfl, rfl, rfl⟩
  inode_lt := by decide

/-- A program has opened its own file. -/
def readerKernel : Kernel := (programKernel.fileOpen programImage programCommand).2

/-- A call for 30 bytes. -/
def read30 : FileCall := .read .file 2 (fun _ => 7) 30

/-- The program reads 30 bytes twice, from a file of 40. -/
theorem reads_reassemble_program :
    delivered 3 2 [⟨3, read30, read30.run programImage readerKernel⟩,
        ⟨3, read30, read30.run programImage (read30.run programImage readerKernel).kernel⟩]
      = (programImage.contents 0).take (min 60 (programImage.contents 0).length) := by
  have hnum : programKernel.processNum = 3 := by decide +kernel
  have hfd : (programKernel.fileOpen programImage programCommand).1 = 2 := by decide +kernel
  have hresumes {s : Kernel} (h : s.processNum = 3) (h' : s.scheduledPid = 3) : Resumes s 3 s :=
    ⟨fun _ => rfl, h, h'⟩
  have honly (s : Kernel) (r : ReadResult) :
      OnlyReads programKernel.processNum 2 s ⟨3, read30, r⟩ := fun _ =>
    ⟨_, 30, rfl, by decide, by decide⟩
  have hfirst : FileStep programImage readerKernel ⟨3, read30, _⟩ _ :=
    .call (hresumes (by decide +kernel) (by decide +kernel)) read30
  have hsecond : FileStep programImage (read30.run programImage readerKernel).kernel
      ⟨3, read30, _⟩ _ := .call (hresumes (by decide +kernel) (by decide +kernel)) read30
  have hread := reads_reassemble programImage_wellFormed regularFile_program hfd (by decide)
    (.cons ⟨honly _ _, hfirst⟩ (.single ⟨honly _ _, hsecond⟩))
  rw [hnum] at hread
  exact hread.1

end OS391
