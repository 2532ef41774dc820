/-
# What `read_data` delivers

`read_data` (`student-distrib/filesys.c`) copies in three phases: the rest of a
block the offset falls into, whole blocks, and a tail.  The reference it is compared
with is the contents of a file, its data blocks one after the other, cut at the
file's length (`FileSys.contents`).

After `d` bytes every phase leaves the running variables in one state,
`progress … d`: the buffer holds the first `d` bytes wanted, and `i` and
`curr_data_block` are those of the byte to come.  Each phase moves `progress` on
(`readPartial_progress`, `readBlocks_progress`, `readTail_progress`), so that they
join for every alignment of offset, length and end of file.
-/

import OS391.FileSys

namespace OS391

open Lib

/-! ### The reference -/

/-- Byte `o` of data block `b`. -/
def FileSys.byte (fs : FileSys) (b o : ℕ) : UInt8 := fs.data (u32 (b * 4096 + o)).toNat

/-- Data block `b`. -/
def FileSys.block (fs : FileSys) (b : ℕ) : List UInt8 := (List.range 4096).map (fs.byte b)

/-- The contents of a file: its data blocks in order, cut at its length. -/
def FileSys.contents (fs : FileSys) (inodeIndex : ℕ) : List UInt8 :=
  let src := fs.inodes inodeIndex
  ((List.range ((src.length + 4095) / 4096)).flatMap fun j => fs.block (src.dataBlocks j)).take
    src.length

/-- A well-formed image: each file fits the 1023 block numbers of an inode, and the
block numbers it needs exist. -/
structure FileSys.WellFormed (fs : FileSys) : Prop where
  length_le : ∀ i < fs.inodeCount, (fs.inodes i).length ≤ 1023 * 4096
  block_lt : ∀ i < fs.inodeCount, ∀ j < ((fs.inodes i).length + 4095) / 4096,
    (fs.inodes i).dataBlocks j < fs.dataCount

theorem length_flatMap_range {α : Type*} (f : ℕ → List α) {m : ℕ} (hf : ∀ j, (f j).length = m)
    (n : ℕ) : ((List.range n).flatMap f).length = n * m := by
  induction n with
  | zero => simp
  | succ n ih =>
    rw [List.range_succ, List.flatMap_append, List.length_append, ih, List.flatMap_singleton, hf,
      Nat.add_mul, Nat.one_mul]

/-- Element `q * m + r` of `n` lists of length `m` in a row is element `r` of list `q`. -/
theorem getElem?_flatMap_range {α : Type*} (f : ℕ → List α) {m : ℕ} (hf : ∀ j, (f j).length = m)
    {n q r : ℕ} (hq : q < n) (hr : r < m) : ((List.range n).flatMap f)[q * m + r]? = (f q)[r]? := by
  induction n with
  | zero => omega
  | succ n ih =>
    rw [List.range_succ, List.flatMap_append, List.flatMap_singleton]
    have hlen := length_flatMap_range f hf n
    rcases Nat.lt_succ_iff_lt_or_eq.1 hq with h | rfl
    · have hlt : q * m + r < n * m := by
        have := Nat.mul_le_mul_right m h
        rw [Nat.succ_mul] at this
        omega
      rw [List.getElem?_append_left (by rw [hlen]; exact hlt), ih h]
    · rw [List.getElem?_append_right (by rw [hlen]; omega), hlen, Nat.add_sub_cancel_left]

theorem FileSys.block_length (fs : FileSys) (b : ℕ) : (fs.block b).length = 4096 := by
  simp [FileSys.block]

/-- Byte `x` of a file is byte `x % 4096` of its data block number `x / 4096`. -/
theorem FileSys.contents_getElem? (fs : FileSys) (inodeIndex : ℕ) {x : ℕ}
    (hx : x < (fs.inodes inodeIndex).length) :
    (fs.contents inodeIndex)[x]?
      = some (fs.byte ((fs.inodes inodeIndex).dataBlocks (x / 4096)) (x % 4096)) := by
  have hq : x / 4096 < ((fs.inodes inodeIndex).length + 4095) / 4096 := by omega
  have hr : x % 4096 < 4096 := Nat.mod_lt _ (by omega)
  have h := getElem?_flatMap_range (fun j => fs.block ((fs.inodes inodeIndex).dataBlocks j))
    (fun j => fs.block_length _) hq hr
  rw [Nat.div_add_mod' x 4096] at h
  simp only [FileSys.contents]
  rw [List.getElem?_take_of_lt hx, h]
  simp [FileSys.block, hr]

theorem FileSys.contents_length (fs : FileSys) (inodeIndex : ℕ) :
    (fs.contents inodeIndex).length = (fs.inodes inodeIndex).length := by
  have h := length_flatMap_range (fun j => fs.block ((fs.inodes inodeIndex).dataBlocks j))
    (fun j => fs.block_length _) (((fs.inodes inodeIndex).length + 4095) / 4096)
  simp only [FileSys.contents, List.length_take, h]
  omega

/-! ### The three phases -/

section Phases

variable (fs : FileSys) (src : Inode) (buf : ℕ → UInt8) (o b : ℕ)

/-- The byte a read from offset `o` delivers at index `k`. -/
def wanted (k : ℕ) : UInt8 := fs.byte (src.dataBlocks ((o + k) / 4096)) ((o + k) % 4096)

/-- The running variables of `read_data` when `d` of the `b` bytes wanted from offset
`o` have been copied. -/
def progress (d : ℕ) : ReadState :=
  { buf := copyLoop buf 0 (wanted fs src o) d
    bytesToRead := b - d
    bufOffset := d
    result := d
    i := ((o + d) / 4096 : ℕ)
    currDataBlock := i32 (src.dataBlocks ((o + d) / 4096)) }

/-- Copying from inside one block moves the buffer of `progress` on. -/
theorem copyFromBlock_progress {d n : ℕ} (h : (o + d) % 4096 + n ≤ 4096) :
    copyFromBlock fs (copyLoop buf 0 (wanted fs src o) d) d
        (i32 (src.dataBlocks ((o + d) / 4096))) ((o + d) % 4096 : ℕ) n
      = copyLoop buf 0 (wanted fs src o) (d + n) := by
  have happ := copyLoop_append buf 0 (wanted fs src o)
    (fun c => fs.data (u32 (i32 (src.dataBlocks ((o + d) / 4096)) * 4096
      + ((o + d) % 4096 : ℕ) + c)).toNat) (wanted fs src o) (n := d) (m := n) (fun _ _ => rfl) ?_
  · rw [Nat.zero_add] at happ
    simpa only [copyFromBlock, Int.toNat_natCast] using happ
  · intro c hc
    have hq : (o + (d + c)) / 4096 = (o + d) / 4096 := by omega
    have hr : (o + (d + c)) % 4096 = (o + d) % 4096 + c := by omega
    have haddr : u32 (i32 (src.dataBlocks ((o + d) / 4096)) * 4096 + ((o + d) % 4096 : ℕ) + c)
        = u32 ((src.dataBlocks ((o + d) / 4096) : ℕ) * 4096 + ((o + d) % 4096 + c : ℕ)) := by
      unfold u32 i32
      omega
    rw [haddr, wanted, FileSys.byte, hq, hr]

theorem readBlock_progress {d : ℕ} (h : (o + d) % 4096 = 0) :
    readBlock fs src (progress fs src buf o b d) = progress fs src buf o b (d + 4096) := by
  have hi : (o + (d + 4096)) / 4096 = (o + d) / 4096 + 1 := by omega
  have hc := copyFromBlock_progress fs src buf o (d := d) (n := 4096) (by omega)
  rw [h] at hc
  simp only [readBlock, progress, hi]
  rw [ReadState.mk.injEq]
  refine ⟨hc, by omega, by omega, by omega, by omega, ?_⟩
  congr 3

/-- **Whole blocks.**  From a block boundary the loop copies as many whole blocks as
are wanted. -/
theorem readBlocks_progress (k : ℕ) {d : ℕ} (h : (o + d) % 4096 = 0) (hk : d + 4096 * k ≤ b) :
    readBlocks fs src k (progress fs src buf o b d) = progress fs src buf o b (d + 4096 * k) := by
  induction k generalizing d with
  | zero => rfl
  | succ k ih =>
    have hpos : (progress fs src buf o b d).bytesToRead / 4096 > 0 := by
      simp only [progress]; omega
    rw [readBlocks, if_pos hpos, readBlock_progress fs src buf o b h, ih (by omega) (by omega)]
    congr 1
    omega

/-- **The tail** copies what is left, less than a block, from a block boundary. -/
theorem readTail_progress {d : ℕ} (h : (o + d) % 4096 = 0 ∨ d = b) (hd : d ≤ b) (hb : b < d + 4096) :
    (readTail fs (progress fs src buf o b d)).result = b ∧
      (readTail fs (progress fs src buf o b d)).buf = copyLoop buf 0 (wanted fs src o) b := by
  by_cases hpos : (progress fs src buf o b d).bytesToRead > 0
  · have hlt : d < b := by simp only [progress] at hpos; omega
    have hc := copyFromBlock_progress fs src buf o (d := d) (n := b - d) (by omega)
    rw [show (o + d) % 4096 = 0 by omega, Nat.add_sub_cancel' hd, Int.ofNat_sub hd] at hc
    rw [readTail, if_pos hpos]
    exact ⟨by simp only [progress]; omega, hc⟩
  · have heq : d = b := by simp only [progress] at hpos; omega
    rw [readTail, if_neg hpos, heq]
    exact ⟨rfl, rfl⟩

/-- Where the read ends, seen from the start of the first block, is not wrapped. -/
theorem partialEnd_eq (hb : b < 2147479552) :
    i32 ((o % 4096 : ℕ) + (progress fs src buf o b 0).bytesToRead) = (o % 4096 : ℕ) + b := by
  simp only [progress]
  rw [i32_of_bounds] <;> omega

/-- **The first block.**  An offset inside a block is read to the end of the block, or
to the end of the bytes wanted. -/
theorem readPartial_progress (hb : b < 2147479552) :
    (∃ d, readPartial fs src (o % 4096 : ℕ) (progress fs src buf o b 0)
        = progress fs src buf o b d ∧ d ≤ b ∧ (o + d) % 4096 = 0) ∨
      ((readPartial fs src (o % 4096 : ℕ) (progress fs src buf o b 0)).bytesToRead = 0 ∧
        (readPartial fs src (o % 4096 : ℕ) (progress fs src buf o b 0)).result = b ∧
        (readPartial fs src (o % 4096 : ℕ) (progress fs src buf o b 0)).buf
          = copyLoop buf 0 (wanted fs src o) b) := by
  by_cases hr : ((o % 4096 : ℕ) : ℤ) ≠ 0
  · rw [readPartial, if_pos hr, partialEnd_eq fs src buf o b hb]
    by_cases hlt : ((o % 4096 : ℕ) : ℤ) + b < 4096
    · have hc := copyFromBlock_progress fs src buf o (d := 0) (n := b) (by omega)
      rw [if_pos hlt]
      refine Or.inr ⟨rfl, by simp [progress], ?_⟩
      simpa [progress] using hc
    · have hc := copyFromBlock_progress fs src buf o (d := 0) (n := 4096 - o % 4096) (by omega)
      have hi : (o + (4096 - o % 4096)) / 4096 = (o + 0) / 4096 + 1 := by omega
      rw [if_neg hlt]
      refine Or.inl ⟨4096 - o % 4096, ?_, by omega, by omega⟩
      have hle : o % 4096 ≤ 4096 := by omega
      simp only [progress, hi] at hc ⊢
      rw [ReadState.mk.injEq]
      refine ⟨?_, by omega, by omega, by omega,
        by omega, by congr 3⟩
      simpa [Int.ofNat_sub hle] using hc
  · rw [readPartial, if_neg hr]
    exact Or.inl ⟨0, rfl, by omega, by omega⟩

/-- **The phases join.**  Together they deliver the `b` bytes from offset `o` on. -/
theorem phases_eq (hb : b < 2147479552) :
    let st := readPartial fs src (o % 4096 : ℕ) (progress fs src buf o b 0)
    let st' := readTail fs (readBlocks fs src (st.bytesToRead / 4096).toNat st)
    st'.result = b ∧ st'.buf = copyLoop buf 0 (wanted fs src o) b := by
  intro st st'
  rcases readPartial_progress fs src buf o b hb with ⟨d, hst, hd, hmod⟩ | ⟨hbytes, hres, hbuf⟩
  · have hk : ((progress fs src buf o b d).bytesToRead / 4096).toNat = (b - d) / 4096 := by
      simp only [progress]; omega
    have hloop := readBlocks_progress fs src buf o b ((b - d) / 4096) hmod (by omega)
    simp only [st', st, hst, hk, hloop]
    exact readTail_progress fs src buf o b (Or.inl (by omega)) (by omega) (by omega)
  · have hbytes' : st.bytesToRead = 0 := hbytes
    have hst' : st' = st := by
      simp only [st', hbytes']
      rw [show ((0 : ℤ) / 4096).toNat = 0 from rfl, readBlocks, readTail, if_neg (by omega)]
    rw [hst']
    exact ⟨hres, hbuf⟩

end Phases

/-! ### The value and the buffer -/

section Value

variable (fs : FileSys) (src : Inode)

theorem readPartial_buf (blockOffset : ℤ) (st : ReadState) (x : ℕ → UInt8) :
    ∃ y, readPartial fs src blockOffset { st with buf := x }
      = { readPartial fs src blockOffset st with buf := y } := by
  unfold readPartial
  dsimp only
  split_ifs <;> exact ⟨_, rfl⟩

theorem readBlocks_buf (k : ℕ) (st : ReadState) (x : ℕ → UInt8) :
    ∃ y, readBlocks fs src k { st with buf := x } = { readBlocks fs src k st with buf := y } := by
  induction k generalizing st x with
  | zero => exact ⟨x, rfl⟩
  | succ k ih =>
    rw [readBlocks, readBlocks]
    dsimp only
    split_ifs
    · exact ih (readBlock fs src st) _
    · exact ⟨x, rfl⟩

theorem readTail_buf (st : ReadState) (x : ℕ → UInt8) :
    (readTail fs { st with buf := x }).result = (readTail fs st).result := by
  unfold readTail
  dsimp only
  split_ifs <;> rfl

/-- **What `read_data` returns does not depend on the buffer.** -/
theorem readData_fst_congr (inodeIndex offset length : ℕ) (buf buf' : ℕ → UInt8) :
    (readData fs inodeIndex offset buf length).1
      = (readData fs inodeIndex offset buf' length).1 := by
  have hphases (src : Inode) (blockOffset bytes i c : ℤ) :
      let st := readPartial fs src blockOffset ⟨buf, bytes, 0, 0, i, c⟩
      let st' := readPartial fs src blockOffset ⟨buf', bytes, 0, 0, i, c⟩
      (readTail fs (readBlocks fs src (st.bytesToRead / 4096).toNat st)).result
        = (readTail fs (readBlocks fs src (st'.bytesToRead / 4096).toNat st')).result := by
    obtain ⟨y, hy⟩ := readPartial_buf fs src blockOffset ⟨buf', bytes, 0, 0, i, c⟩ buf
    obtain ⟨z, hz⟩ := readBlocks_buf fs src
      ((readPartial fs src blockOffset ⟨buf', bytes, 0, 0, i, c⟩).bytesToRead / 4096).toNat
      (readPartial fs src blockOffset ⟨buf', bytes, 0, 0, i, c⟩) y
    dsimp only at hy
    simp only [hy, hz, readTail_buf]
  rw [readData, readData]
  by_cases hinode : fs.inodeCount ≤ inodeIndex
  · rw [if_pos hinode, if_pos hinode]
  rw [if_neg hinode, if_neg hinode]
  by_cases heof : (fs.inodes inodeIndex).length ≤ offset
  · dsimp only
    rw [if_pos heof, if_pos heof]
  · dsimp only
    rw [if_neg heof, if_neg heof]
    exact congrArg u32 (hphases _ _ _ _ _)

end Value

/-! ### The reference met -/

/-- The bytes `read_data` sets out to copy are those the file still has. -/
theorem clipToEof_eq_of_lt {L o n : ℕ} (ho : o < L) (hsum : o + n < 4294967296)
    (hn : n < 2147483648) : clipToEof L o n = (min n (L - o) : ℕ) := by
  unfold clipToEof u32 i32
  split_ifs with h <;> omega

theorem clipToEof_eq {L o n : ℕ} (ho : o < L) (hL : L ≤ 1023 * 4096) (hn : n < 2147483648) :
    clipToEof L o n = (min n (L - o) : ℕ) :=
  clipToEof_eq_of_lt ho (by omega) hn

/-- `block_offset` is the offset inside its block. -/
theorem blockOffset_eq {offset : ℕ} (h : offset < 2147483648) :
    (if (offset : ℤ) / 4096 > 0 then i32 (i32 offset - i32 (offset / 4096 * 4096)) else i32 offset)
      = (offset % 4096 : ℕ) := by
  rw [i32_of_bounds (x := offset) (by omega) (by omega),
    i32_of_bounds (x := (offset : ℤ) / 4096 * 4096) (by omega) (by omega),
    i32_of_bounds (by omega) (by omega)]
  split_ifs <;> omega

/-- A read that starts inside the file copies the bytes from `offset` on, as many as
are asked for and left. -/
theorem readData_eq_of_lt (fs : FileSys) {inodeIndex offset length : ℕ} (buf : ℕ → UInt8)
    (hi : inodeIndex < fs.inodeCount) (ho : offset < (fs.inodes inodeIndex).length)
    (hoffset : offset < 2147483648) (hsum : offset + length < 4294967296)
    (hlength : length < 2147483648)
    (hfew : min length ((fs.inodes inodeIndex).length - offset) < 2147479552) :
    readData fs inodeIndex offset buf length
      = (((min length ((fs.inodes inodeIndex).length - offset) : ℕ) : ℤ),
        copyLoop buf 0 (wanted fs (fs.inodes inodeIndex) offset)
          (min length ((fs.inodes inodeIndex).length - offset))) := by
  set src := fs.inodes inodeIndex with hsrc
  set k := min length (src.length - offset) with hk
  have hstart : (⟨buf, k, 0, 0, (offset : ℤ) / 4096,
      i32 (src.dataBlocks ((offset : ℤ) / 4096).toNat)⟩ : ReadState)
      = progress fs src buf offset k 0 := by
    have hi : ((offset : ℤ) / 4096).toNat = (offset + 0) / 4096 := by omega
    rw [progress, ReadState.mk.injEq, hi, copyLoop_zero]
    exact ⟨rfl, by omega, rfl, rfl, by omega, rfl⟩
  obtain ⟨hres, hbuf⟩ := phases_eq fs src buf offset k hfew
  rw [readData, if_neg (by omega)]
  simp only [← hsrc]
  rw [if_neg (by omega), clipToEof_eq_of_lt ho hsum hlength, blockOffset_eq hoffset, ← hk, hstart,
    hres, hbuf, u32_of_bounds (by omega) (by omega)]

/-- In a file of a size the format allows every read is like that. -/
theorem readData_eq (fs : FileSys) {inodeIndex offset length : ℕ} (buf : ℕ → UInt8)
    (hi : inodeIndex < fs.inodeCount) (ho : offset < (fs.inodes inodeIndex).length)
    (hL : (fs.inodes inodeIndex).length ≤ 1023 * 4096) (hlength : length < 2147483648) :
    readData fs inodeIndex offset buf length
      = (((min length ((fs.inodes inodeIndex).length - offset) : ℕ) : ℤ),
        copyLoop buf 0 (wanted fs (fs.inodes inodeIndex) offset)
          (min length ((fs.inodes inodeIndex).length - offset))) :=
  readData_eq_of_lt fs buf hi ho (by omega) (by omega) hlength (by omega)

/-- A read at or past the end of the file delivers nothing. -/
theorem readData_of_le (fs : FileSys) {inodeIndex offset : ℕ} (buf : ℕ → UInt8) (length : ℕ)
    (hi : inodeIndex < fs.inodeCount) (ho : (fs.inodes inodeIndex).length ≤ offset) :
    readData fs inodeIndex offset buf length = (0, buf) := by
  rw [readData, if_neg (by omega)]
  exact if_pos ho

/-- **`read_data` against the contents of the file.**  An inode number out of range
gives `-1`, an offset at or past the end `0`; otherwise `k`, the smaller of `length`
and what is left of the file, with the `k` bytes of the file from `offset` on at the
start of the buffer and every later byte of the buffer as it was. -/
theorem readData_spec (fs : FileSys) (hwf : fs.WellFormed) (inodeIndex offset length : ℕ)
    (hlength : length < 2147483648) (buf : ℕ → UInt8) :
    (fs.inodeCount ≤ inodeIndex → readData fs inodeIndex offset buf length = (u32 (-1), buf)) ∧
    (inodeIndex < fs.inodeCount → (fs.inodes inodeIndex).length ≤ offset →
      readData fs inodeIndex offset buf length = (0, buf)) ∧
    (inodeIndex < fs.inodeCount → offset < (fs.inodes inodeIndex).length →
      ∃ k, k = min length ((fs.inodes inodeIndex).length - offset) ∧
        (readData fs inodeIndex offset buf length).1 = k ∧
        (∀ j < k, (fs.contents inodeIndex)[offset + j]?
          = some ((readData fs inodeIndex offset buf length).2 j)) ∧
        ∀ j, k ≤ j → (readData fs inodeIndex offset buf length).2 j = buf j) := by
  refine ⟨fun h => if_pos h, fun h h' => ?_, fun h h' => ?_⟩
  · rw [readData, if_neg (by omega)]
    exact if_pos h'
  · rw [readData_eq fs buf h h' (hwf.length_le inodeIndex h) hlength]
    refine ⟨_, rfl, rfl, fun j hj => ?_, fun j hj => copyLoop_outside (Or.inr (by omega))⟩
    have hb : copyLoop buf 0 (wanted fs (fs.inodes inodeIndex) offset)
        (min length ((fs.inodes inodeIndex).length - offset)) j
        = wanted fs (fs.inodes inodeIndex) offset j := copyLoop_start hj
    rw [FileSys.contents_getElem? fs inodeIndex (by omega)]
    exact congrArg some hb.symm

/-- An image of one file: 5 bytes in data block 1 of 2, each byte of a block its own
offset. -/
def tinyImage : FileSys :=
  { (default : FileSys) with
    inodeCount := 1
    dataCount := 2
    inodes := fun _ => { length := 5, dataBlocks := fun _ => 1 }
    data := fun x => UInt8.ofNat (x % 4096) }

theorem tinyImage_wellFormed : tinyImage.WellFormed :=
  ⟨fun _ _ => show 5 ≤ 1023 * 4096 by decide, fun _ _ _ _ => show 1 < 2 by decide⟩

/-- Reading 8 bytes from offset 2 of `tinyImage` delivers the 3 bytes left. -/
theorem readData_spec_tinyImage :
    ∃ k : ℕ, k = min 8 (5 - 2) ∧ (readData tinyImage 0 2 (fun _ => 7) 8).1 = k ∧
      (∀ j < k, (tinyImage.contents 0)[2 + j]?
        = some ((readData tinyImage 0 2 (fun _ => 7) 8).2 j)) ∧
      ∀ j, k ≤ j → (readData tinyImage 0 2 (fun _ => 7) 8).2 j = 7 :=
  (readData_spec tinyImage tinyImage_wellFormed 0 2 8 (by decide) (fun _ => 7)).2.2
    (by decide) (by decide)

end OS391
