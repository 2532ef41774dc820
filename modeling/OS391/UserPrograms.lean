/-
# The programs `cat` and `ls`

`main` of `syscalls/ece391cat.c`, from its call of `open` on, `main` of `syscalls/ece391ls.c`, and
`ece391_fdputs` of `syscalls/ece391support.c`.  Both programs open something, read it piece by
piece, and write each piece to the terminal until `read` returns `0` (`printAll`).  Between their
calls other processes run (`others`), and come back with the process in its place.

`cat` reads 1024 bytes at a time, and `read` says 1024 for the last piece too, however short that
is.  But `file_read` has filled the buffer up with NULs, and `terminal_write` leaves NULs out, so
the terminal gets the file (`cat_spec`), and in the same way the names without their padding
(`ls_spec`): everything in order, and between it only newlines that `terminal_write` adds.
-/

import OS391.DirectoryListing
import OS391.WriteText

namespace OS391

open Lib

/-! ### The program -/

namespace Kernel

/-- The `write` handlers, with the characters that they output. -/
def writeHandlerTraced (s : Kernel) (fop : FopTable) (fd : ℤ) (buf : ℕ → UInt8) (n : ℤ) :
    Traced UInt8 (ℤ × Kernel) :=
  match fop with
  | .stdout => s.terminalWriteTraced fd true buf n
  | fop => pure (s.writeHandler fop fd true buf n)

/-- `write`, with the characters that it outputs. -/
def writeOutTraced (s : Kernel) (fd : ℤ) (buf : ℕ → UInt8) (n : ℤ) : Traced UInt8 (ℤ × Kernel) := do
  let s := s.cli
  if s.BadInput fd true n then pure (-1, s.sti)
  else do
    let r ← s.writeHandlerTraced (s.scheduledDescriptor fd).fop fd buf n
    pure (if r.1 = -1 then (-1, r.2.sti) else (n, r.2.sti))

variable (s : Kernel) (fd : ℤ) (buf : ℕ → UInt8) (n : ℤ)

theorem val_writeHandlerTraced (fop : FopTable) :
    (s.writeHandlerTraced fop fd buf n).val = s.writeHandler fop fd true buf n := by
  cases fop with
  | stdout => exact s.val_terminalWriteTraced fd true buf n
  | stdin | rtc | directory | file => rfl

/-- **The record changes nothing** in what is computed. -/
theorem val_writeOutTraced : (s.writeOutTraced fd buf n).val = s.write fd true buf n := by
  simp only [writeOutTraced, write, Traced.val_ite, Traced.val_bind, Traced.val_pure,
    val_writeHandlerTraced]

end Kernel

/-- `ece391_fdputs(1, text)` -/
def fdputs (s : Kernel) (text : String) : Traced UInt8 Kernel := do
  let r ← s.writeOutTraced 1 (textBuf text) text.length
  pure r.2

section Program

variable (fs : FileSys) (others : ℕ → Kernel → Kernel)

/-- The loop of the programs, with fuel for `k` turns: the value that `main` returns, or none when
the fuel runs out.  `size` bytes are read at a time, `prepare` makes of them what is written, and
`i` counts the calls.  The reads are ones that do not wait. -/
def printLoop (fd size : ℤ) (failed : String)
    (prepare : (ℕ → UInt8) → ℤ → (ℕ → UInt8) × ℤ) :
    ℕ → ℕ → (ℕ → UInt8) → Kernel → Traced UInt8 (Option ℤ × Kernel)
  | 0, _, _, s => pure (none, s)
  | k + 1, i, buf, s => do
    let s := others i s
    let r := s.read fs fd true buf size (s.readHead fd)
    let s := others (i + 1) r.kernel
    if r.ret = 0 then pure (some 0, s)
    else if r.ret = -1 then do
      let s ← fdputs s failed
      pure (some 3, s)
    else do
      let out := prepare r.buf r.ret
      let w ← s.writeOutTraced 1 out.1 out.2
      if w.1 = -1 then pure (some 3, w.2)
      else printLoop fd size failed prepare k (i + 2) out.1 w.2

/-- What the programs do from `open` on. -/
def printAll (name : CString) (notOpened : String) (size : ℤ) (failed : String)
    (prepare : (ℕ → UInt8) → ℤ → (ℕ → UInt8) × ℤ) (k : ℕ) (junk : ℤ) (buf : ℕ → UInt8)
    (s : Kernel) : Traced UInt8 (Option ℤ × Kernel) := do
  let o := s.openCall fs (some name) junk
  if o.1 = -1 then do
    let s ← fdputs (others 0 o.2) notOpened
    pure (some 2, s)
  else printLoop fs others o.1 size failed prepare k 0 buf o.2

/-- `main` of `cat`, from `open` on, with the name in its buffer. -/
def cat (k : ℕ) (name : CString) (junk : ℤ) (buf : ℕ → UInt8) (s : Kernel) :
    Traced UInt8 (Option ℤ × Kernel) :=
  printAll fs others name "file not found\n" 1024 "file read failed\n" (fun buf cnt => (buf, cnt))
    k junk buf s

/-- `main` of `ls`.  It puts a newline behind the 32 bytes of an entry. -/
def ls (k : ℕ) (junk : ℤ) (buf : ℕ → UInt8) (s : Kernel) : Traced UInt8 (Option ℤ × Kernel) :=
  printAll fs others directoryName "directory open failed\n" 32 "directory entry read failed\n"
    (fun buf cnt => (Function.update buf cnt.toNat 10, cnt + 1)) k junk buf s

end Program

/-! ### Newlines added -/

/-- `out` is `text` with newlines added. -/
structure AddsNewlines (text out : List UInt8) : Prop where
  sublist : text.Sublist out
  rest : out.filter (· ≠ 10) = text.filter (· ≠ 10)

namespace AddsNewlines

variable {text out text' out' : List UInt8}

theorem append (h : AddsNewlines text out) (h' : AddsNewlines text' out') :
    AddsNewlines (text ++ text') (out ++ out') where
  sublist := h.sublist.append h'.sublist
  rest := by rw [List.filter_append, List.filter_append, h.rest, h'.rest]

theorem newline (h : AddsNewlines text out) (b : Prop) [Decidable b] :
    AddsNewlines text (out ++ if b then [10] else []) where
  sublist := h.sublist.trans (List.sublist_append_left _ _)
  rest := by
    rw [List.filter_append, h.rest]
    split_ifs <;> simp

theorem of_interspersed (h : Interspersed text out) : AddsNewlines text out := by
  induction h with
  | nil => exact ⟨.slnil, rfl⟩
  | char c _ ih => exact append ⟨.refl [c], rfl⟩ ih
  | wrap c hc _ ih =>
    exact append ⟨List.sublist_append_right [10] [c], by simp [hc]⟩ ih

end AddsNewlines

/-! ### A write to the terminal -/

namespace Kernel

variable {fs : FileSys} {s t : Kernel} {fd : ℤ} {inode p : ℕ}

/-- `terminal_write` outputs the text with newlines added, and does not fail. -/
theorem terminalWriteTraced_addsNewlines (s : Kernel) (buf : ℕ → UInt8) {n : ℤ} (hn : 0 ≤ n) :
    AddsNewlines (nonNul buf n.toNat) (s.terminalWriteTraced 1 true buf n).touched ∧
      (s.terminalWriteTraced 1 true buf n).val.1 ≠ -1 := by
  set t := s.modifyConsole fun c => { c with bytesWritten := 0, lineCt := 0 }
  obtain ⟨htouched, hcounters⟩ := (t.writeHead buf).writeBytes_layout buf n.toNat
  have hrefused : ¬ (true = false ∨ n < 0 ∨ (1 : ℤ) > 1) := by
    simp
    omega
  constructor
  · unfold terminalWriteTraced
    rw [if_neg hrefused]
    simp only [Traced.touched_bind, Traced.touched_pure, List.append_nil, touched_writeTailTraced]
    rw [htouched, ← List.append_assoc]
    exact ((AddsNewlines.of_interspersed (interspersed_layout _ _)).newline _).newline _
  · have hputc (c : Console) : (c.putc 10).bytesWritten = c.bytesWritten :=
      congrArg Prod.fst (c.counters_putc 10)
    have htail (u : Kernel) :
        (u.writeTail buf).console.bytesWritten = u.console.bytesWritten := by
      unfold writeTail modifyConsole
      dsimp only
      split_ifs <;> simp only [hputc]
    have hhead : (t.writeHead buf).console.bytesWritten = 0 := by
      unfold writeHead modifyConsole
      dsimp only
      split_ifs <;> rfl
    have hbytes := congrArg Prod.fst hcounters
    rw [val_terminalWriteTraced, terminalWrite, if_neg hrefused]
    dsimp only [Console.counters] at hbytes ⊢
    rw [htail, hbytes, hhead]
    omega

/-- `stdout` is open. -/
def StdoutOpen (s : Kernel) : Prop :=
  (s.scheduledDescriptor 1).fop = .stdout ∧ (s.scheduledDescriptor 1).flags = true

theorem StdoutOpen.resumed (h : s.StdoutOpen) (hres : Resumed s t) : t.StdoutOpen := by
  unfold StdoutOpen
  rw [hres.scheduledDescriptor]
  exact h

/-- **A write to the terminal** outputs the text and returns its length. -/
theorem StdoutOpen.write (h : s.StdoutOpen) (buf : ℕ → UInt8) {n : ℤ} (hn : 0 ≤ n) :
    (s.writeOutTraced 1 buf n).val.1 = n ∧ Resumed s (s.writeOutTraced 1 buf n).val.2 ∧
      AddsNewlines (nonNul buf n.toNat) (s.writeOutTraced 1 buf n).touched := by
  have hcli : s.cli.StdoutOpen := h
  have hgood : ¬ s.cli.BadInput 1 true n := by
    rw [BadInput, hcli.2]
    simp [fdMax]
    omega
  obtain ⟨htext, hret⟩ := s.cli.terminalWriteTraced_addsNewlines buf hn
  have hres : Resumed s (s.cli.terminalWriteTraced 1 true buf n).val.2 := by
    rw [val_terminalWriteTraced]
    have hstart : Resumed s s.cli := ⟨rfl, rfl, rfl, rfl⟩
    exact hstart.trans (s.cli.resumed_terminalWrite 1 true buf n)
  simp only [writeOutTraced, if_neg hgood, hcli.1, writeHandlerTraced, Traced.val_bind,
    Traced.val_pure, Traced.touched_bind, Traced.touched_pure, List.append_nil, if_neg hret,
    true_and]
  exact ⟨hres.trans ⟨rfl, rfl, rfl, rfl⟩, htext⟩

/-- A descriptor above `stdout` that is open, of the process the system calls work for. -/
structure Opened (s : Kernel) (fd : ℤ) (d : FileDescriptor) : Prop where
  processNum : s.processNum = s.scheduledPid
  slot : fdMin ≤ fd ∧ fd ≤ fdMax
  descriptor : s.scheduledDescriptor fd = d
  flags : d.flags = true

theorem Opened.resumed {d : FileDescriptor} (h : s.Opened fd d) (hres : Resumed s t) :
    t.Opened fd d where
  processNum := by rw [hres.processNum, hres.scheduledPid, h.processNum]
  slot := h.slot
  descriptor := by rw [hres.scheduledDescriptor, h.descriptor]
  flags := h.flags

/-- Where the handler of a read finds the descriptor. -/
theorem Opened.readHead {d : FileDescriptor} (h : s.Opened fd d) :
    ((s.readHead fd).pcb (s.readHead fd).processNum).fileDescriptor fd = d := by
  have hopen := h.resumed (s.resumed_readHead fd)
  rw [hopen.processNum]
  exact hopen.descriptor

theorem Opened.fileAt
    (h : s.Opened fd { fop := .file, inode := inode, filePosition := p, flags := true }) :
    s.FileAt fd inode p where
  processNum := h.processNum
  bounds := by
    have hslot := h.slot
    have hmin : fdMin = 2 := rfl
    exact ⟨by omega, hslot.2⟩
  descriptor := h.descriptor

theorem Opened.good {d : FileDescriptor} (h : s.Opened fd d) {n : ℤ} (hn : 0 ≤ n) :
    ¬ s.BadInput fd true n := by
  have hslot := h.slot
  have hmin : fdMin = 2 := rfl
  rw [BadInput, h.descriptor, h.flags]
  simp only [Bool.true_eq_false, or_false, false_or, not_or]
  omega

/-- A change of the descriptor alone. -/
theorem Opened.modified {d d' : FileDescriptor} (h : s.Opened fd d) {u : Kernel}
    (hu : u = s ∨ ∃ f, u = s.modifyDescriptor s.processNum fd f)
    (hd : (u.pcb s.processNum).fileDescriptor fd = d') (hflags : d'.flags = true) :
    u.sti.Opened fd d' := by
  have hframe : u.sti.processNum = s.processNum ∧ u.sti.scheduledPid = s.scheduledPid := by
    rcases hu with rfl | ⟨f, rfl⟩ <;> exact ⟨rfl, rfl⟩
  refine ⟨by rw [hframe.1, hframe.2, h.processNum], h.slot, ?_, hflags⟩
  rw [Kernel.scheduledDescriptor, hframe.2, ← h.processNum]
  exact hd

/-- It leaves `stdout`. -/
theorem Opened.stdout {d : FileDescriptor} (h : s.Opened fd d) {u : Kernel}
    (hu : u = s ∨ ∃ f, u = s.modifyDescriptor s.processNum fd f) :
    u.sti.scheduledDescriptor 1 = s.scheduledDescriptor 1 := by
  have hslot := h.slot
  have hmin : fdMin = 2 := rfl
  rcases hu with rfl | ⟨f, rfl⟩
  · rfl
  · have hmove := s.modifyDescriptor_fileDescriptor s.processNum fd s.scheduledPid 1 f
    rwa [if_neg (by omega)] at hmove

end Kernel

/-! ### The text of a buffer -/

/-- NULs behind `k` bytes are no part of the text. -/
theorem nonNul_of_zero {buf : ℕ → UInt8} {k : ℕ} (m : ℕ) (h : ∀ j, k ≤ j → j < k + m → buf j = 0) :
    nonNul buf (k + m) = nonNul buf k := by
  induction m with
  | zero => rfl
  | succ m ih =>
    rw [← Nat.add_assoc, nonNul_succ, if_pos (h _ (by omega) (by omega)), List.append_nil]
    exact ih fun j hj hj' => h j hj (by omega)

/-- What `file_read` leaves in the buffer: the next bytes of the file, and NULs. -/
theorem nonNul_fileRead {fs : FileSys} {s : Kernel} {fd n : ℤ} {inode p : ℕ} (hwf : fs.WellFormed)
    (hinode : inode < fs.inodeCount) (h : (s.pcb s.processNum).OpenAt fd inode p)
    (hp : p ≤ (fs.contents inode).length) (hn₀ : 0 ≤ n) (hn : n < 2147483648) (buf : ℕ → UInt8) :
    nonNul (s.fileRead fs fd buf n).buf n.toNat
      = (((fs.contents inode).drop p).take n.toNat).filter (· ≠ 0) := by
  obtain ⟨hcount, hbytes, hzero, -⟩ := fileRead_spec hwf hinode h hp hn₀ hn buf
  have hpiece := bytes_eq hcount hbytes
  rw [ReadResult.bytes, hcount, Int.toNat_natCast] at hpiece
  set k := min n.toNat ((fs.contents inode).length - p)
  have hk : k + (n.toNat - k) = n.toNat := Nat.add_sub_cancel' (Nat.min_le_left _ _)
  have hnul := nonNul_of_zero (n.toNat - k) fun i hi hi' => hzero i hi (hk ▸ hi')
  rw [hk] at hnul
  exact hnul.trans (congrArg _ hpiece)

/-- A name padded with NULs. -/
theorem nonNul_name {d : Dentry} {buf : ℕ → UInt8}
    (h : ∀ j < dentryFileNameLen, buf j = d.name.getD j 0) :
    nonNul buf dentryFileNameLen = d.name := by
  have hlen := d.length_name_le
  have hnul := nonNul_of_zero (k := d.name.length) (dentryFileNameLen - d.name.length)
    fun j hj hj' => (h j (by omega)).trans (List.getD_eq_default _ _ hj)
  have hname : (List.range d.name.length).map buf = d.name := by
    refine List.ext_getElem (by simp) fun j hj hj' => ?_
    rw [List.getElem_map, List.getElem_range, h j (by omega), List.getD_eq_getElem _ _ hj']
  rw [Nat.add_sub_cancel' hlen] at hnul
  rw [hnul, nonNul, hname, List.filter_eq_self]
  intro c hc
  obtain ⟨j, hj, rfl⟩ := List.mem_map.1 hc
  exact decide_eq_true (ne_zero_of_lt_strnlen (List.mem_range.1 hj))

/-- A list is its pieces. -/
theorem flatMap_pieces (l : List UInt8) (m n : ℕ) :
    (List.range n).flatMap (fun j => (l.drop (m * j)).take m) = l.take (m * n) := by
  induction n with
  | zero => simp
  | succ n ih =>
    rw [List.range_succ, List.flatMap_append, List.flatMap_singleton, ih, Nat.mul_succ,
      List.take_add]

/-! ### The loop -/

/-- A descriptor that delivers `n` pieces: `At j` says that the next one is piece `j`. -/
structure Delivers (fs : FileSys) (fd size : ℤ) (prepare : (ℕ → UInt8) → ℤ → (ℕ → UInt8) × ℤ)
    (piece : ℕ → List UInt8) (n : ℕ) (At : ℕ → Kernel → Prop) : Prop where
  resumed : ∀ {j s t}, At j s → Kernel.Resumed s t → At j t
  last : ∀ {s} buf, At n s → (s.read fs fd true buf size (s.readHead fd)).ret = 0
  next : ∀ {j s} buf, j < n → At j s →
    let r := s.read fs fd true buf size (s.readHead fd)
    let out := prepare r.buf r.ret
    0 < r.ret ∧ 0 ≤ out.2 ∧ nonNul out.1 out.2.toNat = piece j ∧ At (j + 1) r.kernel ∧
      r.kernel.scheduledDescriptor 1 = s.scheduledDescriptor 1

/-- **A file** delivers its bytes that are no NULs, 1024 at a time. -/
theorem delivers_file {fs : FileSys} {fd : ℤ} {inode : ℕ} (hwf : fs.WellFormed)
    (hinode : inode < fs.inodeCount) :
    Delivers fs fd 1024 (fun buf cnt => (buf, cnt))
      (fun j => (((fs.contents inode).drop (1024 * j)).take 1024).filter (· ≠ 0))
      (((fs.contents inode).length + 1023) / 1024)
      fun j s => s.Opened fd { fop := .file, inode := inode, flags := true
                               filePosition := min (1024 * j) (fs.contents inode).length } := by
  have hlen := fs.contents_length inode
  refine ⟨fun h => h.resumed, fun {s} buf h => ?_, fun {j s} buf hj h => ?_⟩
  · rw [(h.fileAt.read hwf (n := 1024) (by decide) (by decide) hinode buf).1, ← hlen]
    exact if_pos (by omega)
  · have hp : min (1024 * j) (fs.contents inode).length = 1024 * j := by omega
    rw [hp] at h
    obtain ⟨hret, hnext⟩ := h.fileAt.read hwf (n := 1024) (by decide) (by decide) hinode buf
    have hr : s.read fs fd true buf 1024 (s.readHead fd)
        = ⟨(s.read fs fd true buf 1024 (s.readHead fd)).ret,
          ((s.readHead fd).fileRead fs fd buf 1024).buf,
          ((s.readHead fd).fileRead fs fd buf 1024).kernel.sti⟩ := by
      rw [Kernel.read_of_good (h.good (by decide)), Kernel.handled, h.descriptor]
      rfl
    have hret : (s.read fs fd true buf 1024 (s.readHead fd)).ret = 1024 := by
      rw [hret]
      exact if_neg (show ¬ min 1024 _ = 0 by omega)
    dsimp only
    rw [hret]
    refine ⟨by decide, by decide, ?_, ?_, ?_⟩
    · rw [hr]
      exact nonNul_fileRead hwf hinode h.readHead (by omega) (by decide) (by decide) buf
    · have hfile := hnext (by omega)
      refine ⟨hfile.processNum, h.slot, hfile.descriptor.trans ?_, rfl⟩
      rw [← hlen]
      have hpos : 1024 * j + min 1024 ((fs.contents inode).length - 1024 * j)
          = min (1024 * (j + 1)) (fs.contents inode).length := by omega
      exact congrArg (FileDescriptor.mk _ _ · _) hpos
    · rw [hr, ← (s.resumed_readHead fd).scheduledDescriptor]
      exact (h.resumed (s.resumed_readHead fd)).stdout (fileRead_kernel fs _ fd buf 1024)

/-- **A directory** delivers the names of its entries, and `ls` puts a newline behind each. -/
theorem delivers_directory {fs : FileSys} {fd : ℤ} (hcount : fs.dirCount ≤ 63) :
    Delivers fs fd 32 (fun buf cnt => (Function.update buf cnt.toNat 10, cnt + 1))
      (fun j => (fs.direntries j).name ++ [10]) fs.dirCount
      fun j s => s.Opened fd
        { fop := .directory, inode := 0, filePosition := j, flags := true } := by
  have hlist {j : ℕ} {s : Kernel}
      (h : s.Opened fd { fop := .directory, inode := 0, filePosition := j, flags := true }) :
      ((s.readHead fd).pcb (s.readHead fd).processNum).ListingAt fd j := h.readHead
  have hread {j : ℕ} {s : Kernel} (buf : ℕ → UInt8)
      (h : s.Opened fd { fop := .directory, inode := 0, filePosition := j, flags := true }) :
      Kernel.handled fs s fd buf 32 (s.readHead fd)
        = (s.readHead fd).directoryRead fs fd buf 32 := by
    rw [Kernel.handled, h.descriptor]
    rfl
  refine ⟨fun h => h.resumed, fun {s} buf h => ?_, fun {j s} buf hj h => ?_⟩
  · rw [Kernel.read_of_good (h.good (by decide)), hread buf h,
      directoryRead_end h.slot (hlist h) (Nat.le_refl _)]
    rfl
  · obtain ⟨hret, hbuf, hnext⟩ := directoryRead_entry (n := 32) h.slot (hlist h) hj hcount
      (by decide) (by decide) buf
    have hr : s.read fs fd true buf 32 (s.readHead fd)
        = ⟨32, ((s.readHead fd).directoryRead fs fd buf 32).buf,
          ((s.readHead fd).directoryRead fs fd buf 32).kernel.sti⟩ := by
      rw [Kernel.read_of_good (h.good (by decide)), hread buf h, hret]
      rfl
    rw [hr]
    set b := ((s.readHead fd).directoryRead fs fd buf 32).buf
    have hhead := h.resumed (s.resumed_readHead fd)
    have hkernel := directoryRead_kernel fs (s.readHead fd) fd buf 32
    refine ⟨show (0 : ℤ) < 32 by decide, show (0 : ℤ) ≤ 32 + 1 by decide, ?_, ?_, ?_⟩
    · have hname : nonNul (Function.update b 32 10) 32 = (fs.direntries j).name := by
        refine nonNul_name fun i hi => ?_
        rw [Function.update_of_ne (Nat.ne_of_lt (show i < 32 from hi))]
        exact hbuf i hi
      show nonNul (Function.update b 32 10) (32 + 1) = _
      rw [nonNul_succ, hname, Function.update_self]
      rfl
    · exact hhead.modified hkernel hnext rfl
    · rw [← (s.resumed_readHead fd).scheduledDescriptor]
      exact hhead.stdout hkernel

section Programs

variable {fs : FileSys} {others : ℕ → Kernel → Kernel} {s : Kernel} {fd size : ℤ}
  {failed : String} {prepare : (ℕ → UInt8) → ℤ → (ℕ → UInt8) × ℤ} {piece : ℕ → List UInt8}
  {n j inode : ℕ}

/-- **The loop** ends and has output the pieces that were left. -/
theorem printLoop_spec {At : ℕ → Kernel → Prop}
    (h : Delivers fs fd size prepare piece n At)
    (hothers : ∀ i s, Kernel.Resumed s (others i s)) (hat : At j s) (hj : j ≤ n)
    (hout : s.StdoutOpen) {k : ℕ} (hk : n - j < k) (i : ℕ) (buf : ℕ → UInt8) :
    (printLoop fs others fd size failed prepare k i buf s).val.1 = some 0 ∧
      AddsNewlines ((List.range' j (n - j)).flatMap piece)
        (printLoop fs others fd size failed prepare k i buf s).touched := by
  induction k generalizing s j i buf with
  | zero => omega
  | succ k ih =>
    have hback := hothers i s
    have hat := h.resumed hat hback
    rw [printLoop]
    rcases Nat.eq_or_lt_of_le hj with rfl | hlt
    · rw [if_pos (h.last buf hat), Nat.sub_self]
      exact ⟨rfl, .refl _, rfl⟩
    · obtain ⟨hret, hsize, htext, hnext, hstdout⟩ := h.next buf hlt hat
      set r := (others i s).read fs fd true buf size ((others i s).readHead fd)
      have hback' := hothers (i + 1) r.kernel
      have hout' : r.kernel.StdoutOpen := by
        rw [Kernel.StdoutOpen, hstdout]
        exact hout.resumed hback
      obtain ⟨hwritten, hresumed, hadds⟩ :=
        (hout'.resumed hback').write (prepare r.buf r.ret).1 hsize
      obtain ⟨hval, hrest⟩ := ih (h.resumed (h.resumed hnext hback') hresumed) hlt
        ((hout'.resumed hback').resumed hresumed) (by omega) (i + 2) (prepare r.buf r.ret).1
      rw [if_neg (by omega), if_neg (by omega), Traced.val_bind, Traced.touched_bind, hwritten,
        if_neg (by omega)]
      refine ⟨hval, ?_⟩
      have hall := hadds.append hrest
      rwa [htext, ← List.flatMap_cons, ← List.range'_succ,
        show n - (j + 1) + 1 = n - j by omega] at hall

/-- What an `open` function that succeeds leaves to the process. -/
theorem Kernel.StdoutOpen.openDescriptor {name : CString} {fop : FopTable} {fileType : ℕ}
    {inodeOf : Dentry → ℕ} (h : s.StdoutOpen) (hnum : s.processNum = s.scheduledPid)
    (hopen : (s.openDescriptor fs s.processNum fop fileType inodeOf name).1 = fd) (hfd : fd ≠ -1) :
    let u := (s.openDescriptor fs s.processNum fop fileType inodeOf name).2.sti
    u.StdoutOpen ∧ ∃ d, fs.lookup name = some d ∧
      u.Opened fd { fop := fop, inode := inodeOf d.padded, filePosition := 0, flags := true } := by
  intro u
  obtain ⟨hslot, d, hlookup, -, hdescriptor⟩ := openDescriptor_opened hopen hfd
  obtain ⟨pcb, hframe⟩ :=
    s.openDescriptor_frame fs s.processNum fop fileType inodeOf name
  have hpid : u.scheduledPid = s.scheduledPid := by
    simp only [u, hframe]
    rfl
  have hproc : u.processNum = s.processNum := by
    simp only [u, hframe]
    rfl
  have hkeep : (u.pcb s.scheduledPid).fileDescriptor 1 = s.scheduledDescriptor 1 :=
    openDescriptor_fileDescriptor _ _ _ _ _ h.2
  refine ⟨?_, d, hlookup, (hproc.trans hnum).trans hpid.symm, hslot, ?_, rfl⟩
  · rw [Kernel.StdoutOpen, Kernel.scheduledDescriptor, hpid, hkeep]
    exact h
  · rw [Kernel.scheduledDescriptor, hpid, ← hnum]
    exact hdescriptor

/-- An `open` function fails without a free descriptor; -/
theorem openDescriptor_full {name : CString} {fop : FopTable} {fileType : ℕ}
    {inodeOf : Dentry → ℕ} (hfull : freeDescriptor (s.pcb s.processNum) = none) :
    s.openDescriptor fs s.processNum fop fileType inodeOf name = (-1, s) := by
  rw [Kernel.openDescriptor, hfull]

/-- with one it opens what has its type. -/
theorem openDescriptor_ne {name : CString} {fop : FopTable} {d : Dentry} {inodeOf : Dentry → ℕ}
    (hlookup : fs.lookup name = some d)
    (hfree : freeDescriptor (s.pcb s.processNum) ≠ none) :
    (s.openDescriptor fs s.processNum fop d.fileType inodeOf name).1 ≠ -1 := by
  obtain ⟨i, hi⟩ := Option.ne_none_iff_exists'.1 hfree
  have hflags : ((s.pcb s.processNum).fileDescriptor i).flags = false := by
    simpa using List.find?_some hi
  have hslot := mem_slots.1 (List.mem_of_find?_eq_some hi)
  have hmin : fdMin = 2 := rfl
  have htype : d.padded.fileType = d.fileType := rfl
  simp only [Kernel.openDescriptor, hi, readDentryByName_eq, hlookup, Option.map_some, htype,
    hflags]
  rw [if_neg (by simp), if_pos trivial]
  dsimp only
  omega

/-- **The programs** return 2 without a free descriptor, and 0 after all pieces otherwise. -/
theorem printAll_spec {name : CString} {notOpened : String} {d : Dentry} {fop : FopTable}
    {inodeOf : Dentry → ℕ} {At : ℤ → ℕ → Kernel → Prop} (hlookup : fs.lookup name = some d)
    {junk : ℤ}
    (hcall : s.openCall fs (some name) junk =
      ((s.cli.openDescriptor fs s.cli.processNum fop d.fileType inodeOf name).1,
        (s.cli.openDescriptor fs s.cli.processNum fop d.fileType inodeOf name).2.sti))
    (hdelivers : ∀ fd, Delivers fs fd size prepare piece n (At fd))
    (hat : ∀ fd u, Kernel.Opened u fd
      { fop := fop, inode := inodeOf d.padded, filePosition := 0, flags := true } → At fd 0 u)
    (hothers : ∀ i s, Kernel.Resumed s (others i s)) (hnum : s.processNum = s.scheduledPid)
    (hout : s.StdoutOpen) {k : ℕ} (hk : n < k) (buf : ℕ → UInt8) :
    let r := printAll fs others name notOpened size failed prepare k junk buf s
    if freeDescriptor (s.pcb s.processNum) = none then
      r.val.1 = some 2 ∧ AddsNewlines (nonNul (textBuf notOpened) notOpened.length) r.touched
    else r.val.1 = some 0 ∧ AddsNewlines ((List.range n).flatMap piece) r.touched := by
  intro r
  have hcli : s.cli.StdoutOpen := hout
  simp only [r, printAll]
  rw [hcall]
  by_cases hfull : freeDescriptor (s.pcb s.processNum) = none
  · have hres : Kernel.Resumed s s.cli.sti := ⟨rfl, rfl, rfl, rfl⟩
    obtain ⟨-, -, htext⟩ := ((hout.resumed hres).resumed (hothers 0 _)).write
      (textBuf notOpened) (n := notOpened.length) (Int.natCast_nonneg _)
    rw [if_pos hfull, openDescriptor_full (s := s.cli) hfull, if_pos rfl]
    simp only [fdputs, Traced.val_bind, Traced.val_pure, Traced.touched_bind, Traced.touched_pure,
      List.append_nil, true_and]
    exact htext
  · have hfd : (s.cli.openDescriptor fs s.cli.processNum fop d.fileType inodeOf name).1 ≠ -1 :=
      openDescriptor_ne hlookup hfull
    obtain ⟨hout', d', hlookup', hopened⟩ := hcli.openDescriptor hnum rfl hfd
    obtain rfl : d = d' := Option.some.inj (hlookup.symm.trans hlookup')
    rw [if_neg hfull, if_neg hfd, List.range_eq_range']
    exact printLoop_spec (hdelivers _) hothers (hat _ _ hopened) (Nat.zero_le _) hout' hk 0 buf

/-- **`cat` prints the file.**  With `stdout` open, and whatever other processes do between its
calls, `cat` of a regular file returns 0 and has output every byte of the file that is no NUL, in
order; without a free descriptor it returns 2. -/
theorem cat_spec (hwf : fs.WellFormed) {name : CString} (hfile : fs.RegularFile name inode)
    (hothers : ∀ i s, Kernel.Resumed s (others i s)) (hnum : s.processNum = s.scheduledPid)
    (hout : s.StdoutOpen) {k : ℕ} (hk : ((fs.contents inode).length + 1023) / 1024 < k) (junk : ℤ)
    (buf : ℕ → UInt8) :
    let r := cat fs others k name junk buf s
    if freeDescriptor (s.pcb s.processNum) = none then
      r.val.1 = some 2 ∧
        AddsNewlines (nonNul (textBuf "file not found\n") "file not found\n".length) r.touched
    else r.val.1 = some 0 ∧ AddsNewlines ((fs.contents inode).filter (· ≠ 0)) r.touched := by
  intro r
  obtain ⟨d, hlookup, htype, hinode⟩ := hfile.lookup
  have htype' : d.padded.fileType = regularFileType := htype
  have hcall : s.openCall fs (some name) junk =
      ((s.cli.openDescriptor fs s.cli.processNum .file d.fileType Dentry.inodeNum name).1,
        (s.cli.openDescriptor fs s.cli.processNum .file d.fileType Dentry.inodeNum name).2.sti) := by
    simp only [Kernel.openCall, readDentryByName_eq, hlookup, Option.map_some, htype', htype]
    rfl
  -- the pieces together are the file
  have hall : (List.range (((fs.contents inode).length + 1023) / 1024)).flatMap
      (fun j => (((fs.contents inode).drop (1024 * j)).take 1024).filter (· ≠ 0))
      = (fs.contents inode).filter (· ≠ 0) := by
    rw [← List.filter_flatMap, flatMap_pieces, List.take_of_length_le (by omega)]
  rw [← hall]
  refine printAll_spec hlookup hcall (fun _ => delivers_file hwf hfile.inode_lt)
    (fun _ _ hu => ?_) hothers hnum hout hk buf
  rw [Nat.mul_zero, Nat.zero_min, ← hinode]
  exact hu

/-- The program `a` prints its own file: of the 40 bytes four are no NULs. -/
theorem cat_spec_program :
    let r := cat programImage (fun _ s => s) 2 programCommand 0 (fun _ => 0) programKernel
    r.val.1 = some 0 ∧ AddsNewlines [0x7f, 0x45, 0x4c, 0x46] r.touched := by
  have hfree : freeDescriptor (programKernel.pcb programKernel.processNum) ≠ none := by
    decide +kernel
  have hlength : (programImage.contents 0).length = 40 := programImage.contents_length 0
  have hbytes : (programImage.contents 0).filter (· ≠ 0) = [0x7f, 0x45, 0x4c, 0x46] := by
    decide +kernel
  have hout : programKernel.StdoutOpen := ⟨by decide +kernel, by decide +kernel⟩
  have hspec := cat_spec programImage_wellFormed regularFile_program
    (fun _ => Kernel.Resumed.refl) (by decide +kernel) hout (k := 2) (by omega) 0 (fun _ => 0)
  rw [if_neg hfree, hbytes] at hspec
  exact hspec

/-- **`ls` prints the names.**  With `stdout` open, and whatever other processes do between its
calls, `ls` returns 0 and has output the name of every entry of the directory, in order and each
with a newline; without a free descriptor it returns 2. -/
theorem ls_spec (hcount : fs.dirCount ≤ 63) {d : Dentry}
    (hlookup : fs.lookup directoryName = some d) (htype : d.fileType = directoryFileType)
    (hothers : ∀ i s, Kernel.Resumed s (others i s)) (hnum : s.processNum = s.scheduledPid)
    (hout : s.StdoutOpen) {k : ℕ} (hk : fs.dirCount < k) (junk : ℤ) (buf : ℕ → UInt8) :
    let r := ls fs others k junk buf s
    if freeDescriptor (s.pcb s.processNum) = none then
      r.val.1 = some 2 ∧ AddsNewlines
        (nonNul (textBuf "directory open failed\n") "directory open failed\n".length) r.touched
    else r.val.1 = some 0 ∧ AddsNewlines
      ((List.range fs.dirCount).flatMap fun j => (fs.direntries j).name ++ [10]) r.touched := by
  have htype' : d.padded.fileType = directoryFileType := htype
  have hcall : s.openCall fs (some directoryName) junk =
      ((s.cli.openDescriptor fs s.cli.processNum .directory d.fileType (fun _ => 0)
          directoryName).1,
        (s.cli.openDescriptor fs s.cli.processNum .directory d.fileType (fun _ => 0)
          directoryName).2.sti) := by
    simp only [Kernel.openCall, readDentryByName_eq, hlookup, Option.map_some, htype', htype]
    rfl
  exact printAll_spec hlookup hcall (fun _ => delivers_directory hcount) (fun _ _ hu => hu)
    hothers hnum hout hk buf

/-- The directory of `a` and `.`. -/
theorem ls_spec_directory :
    let r := ls directoryImage (fun _ s => s) 3 0 (fun _ => 0) programKernel
    r.val.1 = some 0 ∧ AddsNewlines (ascii "a\n.\n".toList) r.touched := by
  have hfree : freeDescriptor (programKernel.pcb programKernel.processNum) ≠ none := by
    decide +kernel
  have hout : programKernel.StdoutOpen := ⟨by decide +kernel, by decide +kernel⟩
  have hnames : ((List.range directoryImage.dirCount).flatMap fun j =>
      (directoryImage.direntries j).name ++ [10]) = ascii "a\n.\n".toList := by
    decide +kernel
  have hlookup : directoryImage.lookup directoryName = some (directoryImage.direntries 1) := rfl
  have hcount : directoryImage.dirCount = 2 := rfl
  have hspec := ls_spec (by omega) hlookup rfl (fun _ => Kernel.Resumed.refl) (by decide +kernel)
    hout (k := 3) (by omega) 0 (fun _ => 0)
  rw [if_neg hfree, hnames] at hspec
  exact hspec

end Programs

end OS391
