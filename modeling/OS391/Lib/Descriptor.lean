/-
# Descriptors of the IA-32

A descriptor is eight bytes whose fields are cut up and put together in a fixed order.  Here
are the two the processor reads on its way into and out of a kernel, as it decodes them: the
gate of an interrupt table and the segment of a segment table.  `Sys.ofTables` is the system
that a pair of tables describes.
-/

import OS391.Lib.X86

namespace OS391
namespace Lib
namespace X86

/-- A gate: `01110` is an interrupt gate, `01111` a trap gate, both of 32 bits. -/
def Gate.decode (d : BitVec 64) : Option Gate :=
  if !d.getLsbD 44 && d.getLsbD 43 && d.getLsbD 42 && d.getLsbD 41 then
    some {
      offset := d.extractLsb' 48 16 ++ d.extractLsb' 0 16
      selector := d.extractLsb' 16 16
      dpl := d.extractLsb' 45 2
      present := d.getLsbD 47
      trap := d.getLsbD 40 }
  else none

/-- A segment: the limit counts units of 4 kB when `granularity` is set. -/
structure Segment where
  base : Word
  limit : BitVec 20
  type : BitVec 4
  sys : Bool
  dpl : BitVec 2
  present : Bool
  opsize : Bool
  granularity : Bool
  deriving DecidableEq

def Segment.decode (d : BitVec 64) : Segment where
  base := d.extractLsb' 56 8 ++ (d.extractLsb' 32 8 ++ d.extractLsb' 16 16)
  limit := d.extractLsb' 48 4 ++ d.extractLsb' 0 16
  type := d.extractLsb' 40 4
  sys := d.getLsbD 44
  dpl := d.extractLsb' 45 2
  present := d.getLsbD 47
  opsize := d.getLsbD 54
  granularity := d.getLsbD 55

section Fields

variable {n m i k : ℕ} (x : BitVec n) (y : BitVec m)

/-- A field of the lower of two parts. -/
theorem extractLsb'_append_lo (h : i + k ≤ m) :
    (x ++ y).extractLsb' i k = y.extractLsb' i k := by
  ext j hj
  simp [BitVec.getLsbD_append]
  omega

/-- A field of the upper of two parts. -/
theorem extractLsb'_append_hi (h : m ≤ i) :
    (x ++ y).extractLsb' i k = x.extractLsb' (i - m) k := by
  ext j hj
  simp [BitVec.getLsbD_append, show ¬ i + j < m by omega, show i + j - m = i - m + j by omega]

theorem getLsbD_append_lo (h : i < m) : (x ++ y).getLsbD i = y.getLsbD i := by
  rw [BitVec.getLsbD_append, if_pos h]

theorem getLsbD_append_hi (h : m ≤ i) : (x ++ y).getLsbD i = x.getLsbD (i - m) := by
  rw [BitVec.getLsbD_append, if_neg (by omega)]

/-- A whole part. -/
theorem extractLsb'_self : x.extractLsb' 0 n = x := by
  ext j hj
  simp

end Fields

/-! ### Fields cut out of a word -/

/-- The field of `k` bits at `i`, cut out with a mask and a shift. -/
theorem setWidth_shiftRight_mask (w : Word) {i k : ℕ} (h : i + k ≤ 32) :
    ((w &&& BitVec.ofNat 32 (2 ^ k - 1) <<< i) >>> i).setWidth k = w.extractLsb' i k := by
  ext j hj
  simp only [BitVec.getElem_setWidth, BitVec.getLsbD_ushiftRight, BitVec.getLsbD_and,
    BitVec.getLsbD_shiftLeft, Mem.getLsbD_mask (show k ≤ 32 by omega), BitVec.getElem_extractLsb']
  grind

/-- The lowest `k` bits, cut out with a mask. -/
theorem setWidth_mask (w : Word) {k : ℕ} (h : k ≤ 32) :
    (w &&& BitVec.ofNat 32 (2 ^ k - 1)).setWidth k = w.extractLsb' 0 k := by
  ext j hj
  simp only [BitVec.getElem_setWidth, BitVec.getLsbD_and, Mem.getLsbD_mask h,
    BitVec.getElem_extractLsb']
  grind

/-- The entry of a segment table that a selector names. -/
def selected (gdt : List (BitVec 64)) (sel : BitVec 16) : BitVec 64 :=
  gdt.getD (sel >>> 3).toNat 0

/-- The system of an interrupt table, a segment table and the stack of the task-state
segment. -/
def Sys.ofTables (idt : BitVec 8 → BitVec 64) (gdt : List (BitVec 64)) (esp0 : Word)
    (ss0 : BitVec 16) : Sys where
  gate n := Gate.decode (idt n)
  esp0 := esp0
  ss0 := ss0
  dpl sel := (Segment.decode (selected gdt sel)).dpl

end X86
end Lib
end OS391
