/-
# The block numbers `read_data` looks up

`read_data` loads `src->data_blocks[i]` before its first block, and again behind each block
it has copied to the end, for the block to come.  The functions `...Traced` are those of
`FileSys` with a record of the subscripts.

A read of `b` bytes from offset `o` on looks up the numbers `o / 4096` to `(o + b) / 4096`, one
after the other (`mem_touched_readDataTraced`).  The last of them is looked up ahead of need, and
when the read ends with a file of the largest size, 1023 blocks, it is entry 1023, behind the end
of the array.
-/

import OS391.Lib.Traced
import OS391.ReadData

namespace OS391

open Lib

/-- `src->data_blocks[i]` -/
def Inode.blockTraced (src : Inode) (i : ℤ) : Traced ℤ ℤ :=
  Traced.load (fun j : ℤ => i32 (src.dataBlocks j.toNat)) i

section Definitions

variable (fs : FileSys) (src : Inode)

/-- The whole block the `while` loop of `read_data` copies in one turn. -/
def readBlockTraced (st : ReadState) : Traced ℤ ReadState := do
  let currDataBlock ← src.blockTraced (st.i + 1)
  pure { readBlock fs src st with currDataBlock := currDataBlock }

/-- `while (bytes_to_read / FOUR_KB > 0)`, at most `k` turns. -/
def readBlocksTraced : ℕ → ReadState → Traced ℤ ReadState
  | 0, st => pure st
  | k + 1, st =>
    if st.bytesToRead / 4096 > 0 then do
      let st ← readBlockTraced fs src st
      readBlocksTraced k st
    else pure st

/-- The first, partial block. -/
def readPartialTraced (blockOffset : ℤ) (st : ReadState) : Traced ℤ ReadState :=
  if blockOffset ≠ 0 then
    if i32 (blockOffset + st.bytesToRead) < 4096 then pure (readPartial fs src blockOffset st)
    else do
      let currDataBlock ← src.blockTraced (st.i + 1)
      pure { readPartial fs src blockOffset st with currDataBlock := currDataBlock }
  else pure st

/-- `read_data` -/
def readDataTraced (inodeIndex offset : ℕ) (buf : ℕ → UInt8) (length : ℕ) :
    Traced ℤ (ℤ × (ℕ → UInt8)) :=
  if fs.inodeCount ≤ inodeIndex then pure (u32 (-1), buf)
  else
    let src := fs.inodes inodeIndex
    if src.length ≤ offset then pure (0, buf)
    else do
      let bytesToRead := clipToEof src.length offset length
      let i : ℤ := offset / 4096
      let blockOffset := if i > 0 then i32 (i32 offset - i32 (i * 4096)) else i32 offset
      let currDataBlock ← src.blockTraced i
      let st ← readPartialTraced fs src blockOffset
        { buf := buf, bytesToRead := bytesToRead, bufOffset := 0, result := 0, i := i,
          currDataBlock := currDataBlock }
      let st ← readBlocksTraced fs src (st.bytesToRead / 4096).toNat st
      let st := readTail fs st
      pure (u32 st.result, st.buf)

end Definitions

/-! ### Values -/

section Val

variable (fs : FileSys) (src : Inode)

theorem val_readBlockTraced (st : ReadState) :
    (readBlockTraced fs src st).val = readBlock fs src st := rfl

theorem val_readBlocksTraced (k : ℕ) (st : ReadState) :
    (readBlocksTraced fs src k st).val = readBlocks fs src k st := by
  induction k generalizing st with
  | zero => rfl
  | succ k ih =>
    rw [readBlocksTraced, readBlocks, Traced.val_ite, Traced.val_bind, ih, val_readBlockTraced,
      Traced.val_pure]

theorem val_readPartialTraced (blockOffset : ℤ) (st : ReadState) :
    (readPartialTraced fs src blockOffset st).val = readPartial fs src blockOffset st := by
  unfold readPartialTraced readPartial
  split_ifs <;> rfl

/-- **The record changes nothing** in what is read. -/
theorem val_readDataTraced (inodeIndex offset : ℕ) (buf : ℕ → UInt8) (length : ℕ) :
    (readDataTraced fs inodeIndex offset buf length).val
      = readData fs inodeIndex offset buf length := by
  unfold readDataTraced readData
  simp only [Traced.val_ite, Traced.val_bind, Traced.val_pure, val_readPartialTraced,
    val_readBlocksTraced, Inode.blockTraced]

end Val

/-! ### Subscripts -/

section Subscripts

variable (fs : FileSys) (src : Inode) (buf : ℕ → UInt8) (o b : ℕ)

/-- **Whole blocks.**  Behind each of `k` blocks the number of the next one is looked up. -/
theorem mem_touched_readBlocksTraced (k : ℕ) {d : ℕ} (h : (o + d) % 4096 = 0)
    (hk : d + 4096 * k ≤ b) (q : ℤ) :
    q ∈ (readBlocksTraced fs src k (progress fs src buf o b d)).touched ↔
      ((o + d) / 4096 : ℕ) < q ∧ q ≤ ((o + d) / 4096 + k : ℕ) := by
  induction k generalizing d with
  | zero =>
    show q ∈ [] ↔ _
    rw [iff_false_left (List.not_mem_nil)]
    omega
  | succ k ih =>
    have hpos : (progress fs src buf o b d).bytesToRead / 4096 > 0 := by
      simp only [progress]; omega
    have hfirst : (readBlockTraced fs src (progress fs src buf o b d)).touched
        = [(((o + d) / 4096 : ℕ) : ℤ) + 1] := rfl
    rw [readBlocksTraced, if_pos hpos, Traced.touched_bind, val_readBlockTraced,
      readBlock_progress fs src buf o b h, List.mem_append, ih (by omega) (by omega), hfirst,
      List.mem_singleton]
    omega

/-- **The first block.**  The number of the next one is looked up if the read goes to the end of
the first. -/
theorem mem_touched_readPartialTraced (hb : b < 2147479552) :
    ∃ m : ℕ,
      (∀ q, q ∈ (readPartialTraced fs src (o % 4096 : ℕ) (progress fs src buf o b 0)).touched ↔
        (o / 4096 : ℕ) < q ∧ q ≤ m) ∧
      ((∃ d, readPartial fs src (o % 4096 : ℕ) (progress fs src buf o b 0)
          = progress fs src buf o b d ∧ d ≤ b ∧ (o + d) % 4096 = 0 ∧ m = (o + d) / 4096) ∨
        ((readPartial fs src (o % 4096 : ℕ) (progress fs src buf o b 0)).bytesToRead = 0 ∧
          m = (o + b) / 4096)) := by
  by_cases hr : ((o % 4096 : ℕ) : ℤ) ≠ 0
  · have hwrap := partialEnd_eq fs src buf o b hb
    by_cases hlt : ((o % 4096 : ℕ) : ℤ) + b < 4096
    · refine ⟨o / 4096, fun q => ?_, Or.inr ⟨?_, by omega⟩⟩
      · rw [readPartialTraced, if_pos hr, hwrap, if_pos hlt, Traced.touched_pure,
          iff_false_left (List.not_mem_nil)]
        omega
      · rw [readPartial, if_pos hr, hwrap, if_pos hlt]
    · have htouched : (readPartialTraced fs src (o % 4096 : ℕ) (progress fs src buf o b 0)).touched
          = [((o / 4096 : ℕ) : ℤ) + 1] := by
        rw [readPartialTraced, if_pos hr, hwrap, if_neg hlt]
        rfl
      have hi : (readPartial fs src (o % 4096 : ℕ) (progress fs src buf o b 0)).i
          = ((o / 4096 : ℕ) : ℤ) + 1 := by
        rw [readPartial, if_pos hr, hwrap, if_neg hlt]
        rfl
      have hbytes : (readPartial fs src (o % 4096 : ℕ) (progress fs src buf o b 0)).bytesToRead
          = (b : ℤ) - (4096 - (o % 4096 : ℕ)) := by
        rw [readPartial, if_pos hr, hwrap, if_neg hlt]
        simp only [progress]
        omega
      refine ⟨o / 4096 + 1, fun q => ?_, ?_⟩
      · rw [htouched, List.mem_singleton]
        omega
      · rcases readPartial_progress fs src buf o b hb with ⟨d, hst, hd, hmod⟩ | ⟨hzero, -, -⟩
        · refine Or.inl ⟨d, hst, hd, hmod, ?_⟩
          rw [hst] at hi
          simp only [progress] at hi
          omega
        · exact Or.inr ⟨hzero, by omega⟩
  · refine ⟨o / 4096, fun q => ?_, Or.inl ⟨0, ?_, by omega, by omega, rfl⟩⟩
    · rw [readPartialTraced, if_neg hr, Traced.touched_pure, iff_false_left (List.not_mem_nil)]
      omega
    · rw [readPartial, if_neg hr]

end Subscripts

/-- **The subscripts of a read** of `b` bytes from offset `o` on are the numbers from `o / 4096`
to `(o + b) / 4096`. -/
theorem mem_touched_readDataTraced (fs : FileSys) {inodeIndex offset length : ℕ}
    (buf : ℕ → UInt8) (hi : inodeIndex < fs.inodeCount)
    (ho : offset < (fs.inodes inodeIndex).length)
    (hL : (fs.inodes inodeIndex).length ≤ 1023 * 4096) (hlength : length < 2147483648) (q : ℤ) :
    q ∈ (readDataTraced fs inodeIndex offset buf length).touched ↔
      (offset / 4096 : ℕ) ≤ q ∧
        q ≤ ((offset + min length ((fs.inodes inodeIndex).length - offset)) / 4096 : ℕ) := by
  set src := fs.inodes inodeIndex with hsrc
  set b := min length (src.length - offset) with hb
  have hstart : (⟨buf, b, 0, 0, (offset : ℤ) / 4096,
      i32 (src.dataBlocks ((offset : ℤ) / 4096).toNat)⟩ : ReadState)
      = progress fs src buf offset b 0 := by
    have hi : ((offset : ℤ) / 4096).toNat = (offset + 0) / 4096 := by omega
    rw [progress, ReadState.mk.injEq, hi, copyLoop_zero]
    exact ⟨rfl, by omega, rfl, rfl, by omega, rfl⟩
  obtain ⟨m, hpartial, hrest⟩ := mem_touched_readPartialTraced fs src buf offset b (by omega)
  rw [readDataTraced, if_neg (by omega)]
  simp only [← hsrc]
  rw [if_neg (by omega), clipToEof_eq ho hL hlength, blockOffset_eq (by omega), ← hb]
  simp only [Traced.touched_bind, Traced.touched_pure, List.append_nil, Inode.blockTraced, hstart,
    val_readPartialTraced, List.mem_append, hpartial, List.mem_singleton]
  rcases hrest with ⟨d, hst, hd, hmod, rfl⟩ | ⟨hzero, rfl⟩
  · have hk : ((progress fs src buf offset b d).bytesToRead / 4096).toNat = (b - d) / 4096 := by
      simp only [progress]; omega
    rw [hst, hk, mem_touched_readBlocksTraced fs src buf offset b _ hmod (by omega)]
    omega
  · rw [hzero]
    show _ ∨ _ ∨ q ∈ [] ↔ _
    simp only [List.not_mem_nil, or_false]
    omega

/-! ### The end of the array -/

/-- Every subscript at which `data_blocks` is read lies inside its 1023 entries. -/
def SubscriptsInside (fs : FileSys) (inodeIndex offset : ℕ) (buf : ℕ → UInt8) (length : ℕ) : Prop :=
  (readDataTraced fs inodeIndex offset buf length).Within fun i => 0 ≤ i ∧ i ≤ 1022

/-- **When no subscript is past the end:** unless the read goes up to the end of a file of the
largest size. -/
theorem subscriptsInside_iff (fs : FileSys) (hwf : fs.WellFormed) (inodeIndex offset length : ℕ)
    (hlength : length < 2147483648) (buf : ℕ → UInt8) :
    SubscriptsInside fs inodeIndex offset buf length ↔
      fs.inodeCount ≤ inodeIndex ∨ (fs.inodes inodeIndex).length ≤ offset ∨
        (fs.inodes inodeIndex).length < 1023 * 4096 ∨
        offset + length < (fs.inodes inodeIndex).length := by
  unfold SubscriptsInside
  rcases Nat.lt_or_ge inodeIndex fs.inodeCount with hi | hi
  · rcases Nat.lt_or_ge offset (fs.inodes inodeIndex).length with ho | ho
    · have hL := hwf.length_le inodeIndex hi
      have hmem := mem_touched_readDataTraced fs buf hi ho hL hlength
      simp only [Traced.Within, hmem]
      constructor
      · intro h
        have hlast := (h _ ⟨by omega, Int.le_refl _⟩).2
        omega
      · intro h q hq
        omega
    · rw [readDataTraced, if_neg (by omega)]
      dsimp only
      rw [if_pos ho]
      exact iff_of_true (Traced.within_pure _) (Or.inr (Or.inl ho))
  · rw [readDataTraced, if_pos hi]
    exact iff_of_true (Traced.within_pure _) (Or.inl hi)

/-- An image with one file of the largest size. -/
def largestImage : FileSys :=
  { (default : FileSys) with
    inodeCount := 1
    dataCount := 1023
    inodes := fun _ => { length := 1023 * 4096, dataBlocks := fun j => j } }

theorem largestImage_wellFormed : largestImage.WellFormed :=
  ⟨fun _ _ => Nat.le_refl _, fun _ _ j hj => by
    have hlt : j < (1023 * 4096 + 4095) / 4096 := hj
    show j < 1023
    omega⟩

/-- Reading 4 bytes inside the file of `largestImage`, near its end. -/
theorem subscriptsInside_largestImage :
    SubscriptsInside largestImage 0 (1023 * 4096 - 8) (fun _ => 0) 4 :=
  (subscriptsInside_iff largestImage largestImage_wellFormed 0 (1023 * 4096 - 8) 4 (by decide)
    (fun _ => 0)).2 (by decide)

/-- **Reading the last block** of the file whole loads `data_blocks[1023]`. -/
theorem not_subscriptsInside_largestImage :
    ¬ ∀ (fs : FileSys), fs.WellFormed → ∀ (inodeIndex offset length : ℕ), offset < 2147483648 →
      length < 2147483648 → ∀ buf : ℕ → UInt8,
        SubscriptsInside fs inodeIndex offset buf length := by
  intro h
  have hinside := h largestImage largestImage_wellFormed 0 (1022 * 4096) 4096 (by decide)
    (by decide) (fun _ => 0)
  have hmem : 1023 ∈ (readDataTraced largestImage 0 (1022 * 4096) (fun _ => 0) 4096).touched :=
    (mem_touched_readDataTraced largestImage _ (by decide) (by decide) (Nat.le_refl _) (by decide)
      1023).2 ⟨by decide, by decide⟩
  exact absurd (hinside 1023 hmem).2 (by decide)

end OS391
