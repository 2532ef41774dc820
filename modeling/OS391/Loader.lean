/-
# Where the program loader writes

`execute` reads a program into user memory with one call of `read_data`, from
`EXECUTE_ADDR` on and for the whole length in its inode.  The page mapped for the process is
the 4 MB from 128 MB on, and the program starts 288 KB into it, while an inode can describe
nearly 4 MB.

The loader stays in the page exactly when the file is at most `0x3B8000` bytes long
(`executeMemory_inPage_iff`); a longer one, which `execute` accepts just as well, is written
past its end.
-/

import OS391.ReadReturn

namespace OS391

open Lib

/-- `EXECUTE_ADDR` -/
def executeAddr : ℕ := 0x08048000

/-- User memory, by virtual address, after `read_data(inode, 0, EXECUTE_ADDR, length)` with the
length in the inode. -/
def loadProgram (fs : FileSys) (inodeNum : ℕ) (mem : ℕ → UInt8) (a : ℕ) : UInt8 :=
  if a < executeAddr then mem a
  else (readData fs inodeNum 0 (fun i => mem (executeAddr + i)) (fs.inodes inodeNum).length).2
    (a - executeAddr)

/-- User memory after `execute`, which loads the program when it is about to launch it. -/
def Kernel.executeMemory (fs : FileSys) (s : Kernel) (command : CString) (frame : Frame)
    (mem : ℕ → UInt8) : ℕ → UInt8 :=
  match (s.execute fs command frame).1, readDentryByName fs (getFileName command) with
  | .launched _, some currDentry => loadProgram fs currDentry.inodeNum mem
  | _, _ => mem

/-- The 4 MB user page at 128 MB. -/
def InUserPage (a : ℕ) : Prop := 0x08000000 ≤ a ∧ a < 0x08400000

section Loader

variable {fs : FileSys} {inodeNum : ℕ} {mem : ℕ → UInt8} {a : ℕ}

/-- **What the loader writes:** the bytes of the file, one after the other. -/
theorem loadProgram_of_lt (hwf : fs.WellFormed) (hinode : inodeNum < fs.inodeCount)
    (h : executeAddr ≤ a) (h' : a < executeAddr + (fs.inodes inodeNum).length) :
    loadProgram fs inodeNum mem a = wanted fs (fs.inodes inodeNum) 0 (a - executeAddr) := by
  have hlen := hwf.length_le inodeNum hinode
  rw [loadProgram, if_neg (by omega), readData_eq fs _ hinode (by omega) hlen (by omega)]
  exact copyLoop_start (by omega)

/-- **What it leaves alone:** everything else. -/
theorem loadProgram_outside (hwf : fs.WellFormed)
    (h : a < executeAddr ∨ (inodeNum < fs.inodeCount →
      executeAddr + (fs.inodes inodeNum).length ≤ a)) :
    loadProgram fs inodeNum mem a = mem a := by
  rw [loadProgram]
  split_ifs with hlow
  · rfl
  · have hhigh := h.resolve_left hlow
    have hself : mem (executeAddr + (a - executeAddr)) = mem a := by
      rw [Nat.add_sub_cancel' (Nat.le_of_not_lt hlow)]
    rcases Nat.lt_or_ge inodeNum fs.inodeCount with hinode | hinode
    · have hend := hhigh hinode
      have hlen := hwf.length_le inodeNum hinode
      rcases Nat.eq_zero_or_pos (fs.inodes inodeNum).length with hzero | hpos
      · rw [readData_of_le fs _ _ hinode (by omega)]
        exact hself
      · rw [readData_eq fs _ hinode hpos hlen (by omega)]
        exact (copyLoop_outside (by omega)).trans hself
    · rw [readData, if_pos hinode]
      exact hself

/-- **The loader stays in the user page exactly when** the file, if there is one of that number,
is at most `0x3B8000` bytes long. -/
theorem loadProgram_inPage_iff (hwf : fs.WellFormed) :
    (∀ mem a, ¬ InUserPage a → loadProgram fs inodeNum mem a = mem a) ↔
      (inodeNum < fs.inodeCount → (fs.inodes inodeNum).length ≤ 0x3B8000) := by
  have hbase : executeAddr = 0x08048000 := rfl
  constructor
  · intro h hinode
    by_contra hlong
    -- the byte behind the page differs from memory filled with anything else
    set b := wanted fs (fs.inodes inodeNum) 0 0x3B8000 with hb
    have hwrite : loadProgram fs inodeNum (fun _ => b + 1) 0x08400000 = b := by
      rw [loadProgram_of_lt hwf hinode (by omega) (by omega), hb]
      exact congrArg _ (by omega)
    rw [h _ _ (fun hin => absurd hin.2 (by omega))] at hwrite
    simp at hwrite
  · intro h mem a ha
    refine loadProgram_outside hwf ?_
    rcases Nat.lt_or_ge a executeAddr with hlow | hhigh
    · exact Or.inl hlow
    · refine Or.inr fun hinode => ?_
      have hlen := h hinode
      have hout : ¬ (0x08000000 ≤ a ∧ a < 0x08400000) := ha
      omega

/-- **`execute` writes inside the user page exactly when** the program it launches is at most
`0x3B8000` bytes long. -/
theorem executeMemory_inPage_iff (hwf : fs.WellFormed) {s : Kernel} {command : CString}
    {frame : Frame} {pid : ℤ} {currDentry : Dentry}
    (hlaunched : (s.execute fs command frame).1 = .launched pid)
    (hfile : readDentryByName fs (getFileName command) = some currDentry) :
    (∀ mem a, ¬ InUserPage a → s.executeMemory fs command frame mem a = mem a) ↔
      (currDentry.inodeNum < fs.inodeCount →
        (fs.inodes currDentry.inodeNum).length ≤ 0x3B8000) := by
  have hmem (mem : ℕ → UInt8) :
      s.executeMemory fs command frame mem = loadProgram fs currDentry.inodeNum mem := by
    rw [Kernel.executeMemory, hlaunched, hfile]
  simp only [hmem]
  exact loadProgram_inPage_iff hwf

end Loader

/-- The program `a` of 40 bytes, started by the first shell, leaves address 0 as it was. -/
theorem executeMemory_program :
    bootedKernel.executeMemory programImage programCommand zeroFrame (fun _ => 7) 0 = 7 :=
  (executeMemory_inPage_iff programImage_wellFormed
    (by decide +kernel : (bootedKernel.execute programImage programCommand zeroFrame).1 = .launched 3)
    (readDentryByName_program.trans (if_neg (by decide)))).2 (fun _ => by decide) _ 0
      fun h => absurd h.1 (by decide)

/-! ### The longest program -/

/-- The image of `a`, its length as large as an inode can represent. -/
def largeImage : FileSys :=
  { programImage with inodes := fun _ => { length := 1023 * 4096, dataBlocks := fun _ => 0 } }

theorem largeImage_wellFormed : largeImage.WellFormed :=
  ⟨fun _ _ => Nat.le_refl _, fun _ _ _ _ => Nat.one_pos⟩

/-- **A program can be loaded past the user page:** `execute` accepts a file of `1023` blocks and
writes its bytes behind the 4 MB. -/
theorem not_executeMemory_inPage :
    largeImage.WellFormed ∧
      (bootedKernel.execute largeImage programCommand zeroFrame).1 = .launched 3 ∧
      ¬ InUserPage 0x08400000 ∧
      bootedKernel.executeMemory largeImage programCommand zeroFrame (fun _ => 0) 0x08400000
        = 0x7f := by
  have hlaunched : (bootedKernel.execute largeImage programCommand zeroFrame).1 = .launched 3 := by
    decide +kernel
  have hfile : readDentryByName largeImage (getFileName programCommand)
      = readDentryByIndex largeImage 0 := readDentryByName_program
  refine ⟨largeImage_wellFormed, hlaunched, fun h => absurd h.2 (by decide), ?_⟩
  rw [Kernel.executeMemory, hlaunched, hfile, readDentryByIndex, if_neg (by decide)]
  dsimp only
  rw [loadProgram_of_lt largeImage_wellFormed (by decide) (by decide) (by decide)]
  decide +kernel

end OS391
