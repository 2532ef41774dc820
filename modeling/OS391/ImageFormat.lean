/-
# The format of the file system image

`init_filesys` (`student-distrib/filesys.c`) is given the address of the image in memory and
finds its parts by the layout of `filesys.h`: the boot block, with at most 63 entries of 64
bytes behind a head of 64, then a block of 4096 bytes for each inode, then the data blocks.
`initFilesys` reads the image through these pointers.

What an image is for is an `Archive`: entries with names, and files with contents.  A `Layout`
says in which data blocks the files are, anywhere and in any order.  A memory that holds an
archive in some layout (`Image`) gives back the archive: the image is well-formed, a lookup finds
the first entry with a name, the contents of the inodes are the files (`initFilesys_archive`),
and what a process reads from a file that it opens is the file (`reads_archive`).  `bytes` writes
such an image for every layout whose blocks are distinct (`image_of_stores`).
-/

import Mathlib.Data.List.Find
import OS391.DirectoryListing
import OS391.Lib.ByteMemory

namespace OS391

open Lib

/-! ### The image in memory -/

/-- `dentry_t` -/
def dentryAt (m : Mem) (a : BitVec 32) : Dentry where
  filename j := .ofBitVec (m (a + BitVec.ofNat 32 j))
  fileType := (m.load (a + BitVec.ofNat 32 32)).toNat
  inodeNum := (m.load (a + BitVec.ofNat 32 36)).toNat

/-- `inode` -/
def inodeAt (m : Mem) (a : BitVec 32) : Inode where
  length := (m.load a).toNat
  dataBlocks j := (m.load (a + BitVec.ofNat 32 4 + BitVec.ofNat 32 (j * 4))).toNat

/-- `init_filesys`: the image behind `bb`, `inodes` and `data`. -/
def initFilesys (m : Mem) (addr : BitVec 32) : FileSys :=
  let inodeCount := (m.load (addr + BitVec.ofNat 32 4)).toNat
  let inodes := addr + BitVec.ofNat 32 4096
  let data := addr + BitVec.ofNat 32 ((inodeCount + 1) * 4096)
  { dirCount := (m.load addr).toNat
    inodeCount := inodeCount
    dataCount := (m.load (addr + BitVec.ofNat 32 8)).toNat
    direntries i := dentryAt m (addr + BitVec.ofNat 32 64 + BitVec.ofNat 32 (i * 64))
    inodes i := inodeAt m (inodes + BitVec.ofNat 32 (i * 4096))
    data o := .ofBitVec (m (data + BitVec.ofNat 32 o)) }

/-! ### Archives -/

/-- How many blocks of 4096 bytes `n` bytes take. -/
def blocksFor (n : ℕ) : ℕ := (n + 4095) / 4096

/-- An entry of the directory. -/
structure DirEntry where
  name : CString
  fileType : BitVec 32
  inodeNum : BitVec 32
  name_le : name.strlen ≤ dentryFileNameLen

/-- A directory and the files.  The entries fit the boot block, and a file the 1023 block numbers
of an inode. -/
structure Archive where
  dirCount : ℕ
  entry : ℕ → DirEntry
  fileCount : ℕ
  file : ℕ → List UInt8
  dirCount_le : dirCount ≤ 63
  file_le : ∀ k < fileCount, (file k).length ≤ 1023 * 4096

/-- Padding. -/
def zeroBytes (n : ℕ) : List (BitVec 8) := List.replicate n 0

/-- A name, padded with NULs. -/
def DirEntry.nameBytes (e : DirEntry) : List (BitVec 8) :=
  e.name.bytes.map UInt8.toBitVec ++ zeroBytes (dentryFileNameLen - e.name.strlen)

/-- An entry: its name, its type and its inode number.  24 bytes behind it are reserved. -/
def DirEntry.bytes (e : DirEntry) : List (BitVec 8) :=
  e.nameBytes ++ Mem.bytes e.fileType ++ Mem.bytes e.inodeNum

namespace Archive

/-- The first entry with a name. -/
def find (A : Archive) (name : CString) : Option DirEntry :=
  ((List.range A.dirCount).map A.entry).find? fun e => e.name.bytes = name.bytes

/-- How many data blocks a file takes. -/
def blockCount (A : Archive) (k : ℕ) : ℕ := blocksFor (A.file k).length

/-- Where the files are among the data blocks: `block k j` is the number of block `j` of file `k`.
All of it fits the address space. -/
structure Layout (A : Archive) where
  dataCount : ℕ
  block : ℕ → ℕ → ℕ
  block_lt : ∀ k < A.fileCount, ∀ j < A.blockCount k, block k j < dataCount
  size_le : (1 + A.fileCount + dataCount) * 4096 ≤ 2 ^ 32

variable {A : Archive}

/-- The memory from `addr` on holds the archive as `filesys.h` says.  What is reserved or not in
use, also behind the end of a file, may be anything. -/
structure Layout.Image (L : A.Layout) (m : Mem) (addr : BitVec 32) : Prop where
  dirCount : m.load addr = BitVec.ofNat 32 A.dirCount
  fileCount : m.load (addr + BitVec.ofNat 32 4) = BitVec.ofNat 32 A.fileCount
  dataCount : m.load (addr + BitVec.ofNat 32 8) = BitVec.ofNat 32 L.dataCount
  entry : ∀ i < A.dirCount,
    m.Stores (addr + BitVec.ofNat 32 64 + BitVec.ofNat 32 (i * 64)) (A.entry i).bytes
  length : ∀ k < A.fileCount,
    m.load (addr + BitVec.ofNat 32 4096 + BitVec.ofNat 32 (k * 4096))
      = BitVec.ofNat 32 (A.file k).length
  block : ∀ k < A.fileCount, ∀ j < A.blockCount k,
    m.load (addr + BitVec.ofNat 32 4096 + BitVec.ofNat 32 (k * 4096) + BitVec.ofNat 32 4
      + BitVec.ofNat 32 (j * 4)) = BitVec.ofNat 32 (L.block k j)
  data : ∀ k < A.fileCount, ∀ x (hx : x < (A.file k).length),
    m (addr + BitVec.ofNat 32 ((A.fileCount + 1) * 4096)
      + BitVec.ofNat 32 (L.block k (x / 4096) * 4096 + x % 4096)) = (A.file k)[x].toBitVec

end Archive

/-! ### The image read back -/

section ReadBack

variable {m : Mem} {a addr : BitVec 32} {A : Archive} {L : A.Layout} {k : ℕ}

theorem toNat_of_eq {w : BitVec 32} {n : ℕ} (h : w = BitVec.ofNat 32 n) (hn : n < 2 ^ 32) :
    w.toNat = n := by
  rw [h, BitVec.toNat_ofNat, Nat.mod_eq_of_lt hn]

theorem le_blocksFor (n : ℕ) : n ≤ blocksFor n * 4096 := by
  unfold blocksFor
  omega

@[simp] theorem length_zeroBytes (n : ℕ) : (zeroBytes n).length = n := List.length_replicate

theorem DirEntry.length_nameBytes (e : DirEntry) : e.nameBytes.length = 32 := by
  have hlen := e.name_le
  rw [nameBytes, List.length_append, List.length_map, length_zeroBytes]
  exact Nat.add_sub_cancel' hlen

@[simp] theorem DirEntry.length_bytes (e : DirEntry) : e.bytes.length = 40 := by
  simp [DirEntry.bytes, length_nameBytes]

/-- A dentry that shows an entry of a directory. -/
structure Dentry.ShowsEntry (d : Dentry) (e : DirEntry) : Prop where
  filename : ∀ j < dentryFileNameLen, d.filename j = e.name.get j
  fileType : d.fileType = e.fileType.toNat
  inodeNum : d.inodeNum = e.inodeNum.toNat

/-- The name is found although no NUL follows 32 bytes of it. -/
theorem Dentry.ShowsEntry.name {d : Dentry} {e : DirEntry} (h : d.ShowsEntry e) :
    d.name = e.name.bytes := by
  have hget {j : ℕ} (hj : j < e.name.bytes.length) : d.filename j = e.name.bytes[j] := by
    rw [h.filename j (Nat.lt_of_lt_of_le hj e.name_le), CString.get, List.getD_eq_getElem _ _ hj]
  have hlen : strnlen d.filename dentryFileNameLen = e.name.strlen := by
    refine strnlen_eq e.name_le (fun j hj hzero => ?_) fun hlt => ?_
    · rw [hget hj] at hzero
      exact e.name.noNul (hzero ▸ List.getElem_mem hj)
    · rw [h.filename _ hlt]
      exact List.getD_eq_default _ _ (Nat.le_refl _)
  refine List.ext_getElem (by simp [Dentry.name, hlen, CString.strlen]) fun j hj hj' => ?_
  rw [← hget hj']
  simp [Dentry.name]

/-- What the kernel copies of a dentry shows the same entry. -/
theorem Dentry.ShowsEntry.padded {d : Dentry} {e : DirEntry} (h : d.ShowsEntry e) :
    d.padded.ShowsEntry e where
  filename j hj := (strncpy_filename d hj).trans (by rw [h.name, CString.get])
  fileType := h.fileType
  inodeNum := h.inodeNum

/-- **An entry** is shown by what `init_filesys` takes for its dentry. -/
theorem DirEntry.showsEntry {e : DirEntry} (h : m.Stores a e.bytes) :
    (dentryAt m a).ShowsEntry e := by
  simp only [DirEntry.bytes, Mem.stores_append, List.length_append, length_nameBytes,
    Mem.length_bytes] at h
  obtain ⟨⟨hname, htype⟩, hinode⟩ := h
  refine ⟨fun j hj => ?_, congrArg BitVec.toNat htype.load, congrArg BitVec.toNat hinode.load⟩
  dsimp only [dentryAt]
  rw [hname.getElem (e.length_nameBytes.symm ▸ hj), CString.get]
  unfold nameBytes
  rcases Nat.lt_or_ge j e.name.bytes.length with hlt | hge
  · rw [List.getElem_append_left (by simpa using hlt), List.getElem_map,
      List.getD_eq_getElem _ _ hlt]
  · rw [List.getElem_append_right (by simpa using hge), List.getD_eq_default _ _ hge]
    simp [zeroBytes]

namespace Archive.Layout

/-- The counts of the boot block. -/
theorem counts (h : L.Image m addr) :
    (initFilesys m addr).dirCount = A.dirCount ∧ (initFilesys m addr).inodeCount = A.fileCount ∧
      (initFilesys m addr).dataCount = L.dataCount := by
  have hsize := L.size_le
  have hdir := A.dirCount_le
  exact ⟨toNat_of_eq h.dirCount (by omega), toNat_of_eq h.fileCount (by omega),
    toNat_of_eq h.dataCount (by omega)⟩

theorem showsEntry (h : L.Image m addr) (hk : k < A.dirCount) :
    ((initFilesys m addr).direntries k).ShowsEntry (A.entry k) :=
  DirEntry.showsEntry (h.entry k hk)

/-- **An inode** has the length of the file and the numbers of its blocks. -/
theorem inode_eq (h : L.Image m addr) (hk : k < A.fileCount) :
    ((initFilesys m addr).inodes k).length = (A.file k).length ∧
      ∀ j < A.blockCount k, ((initFilesys m addr).inodes k).dataBlocks j = L.block k j := by
  have hsize := L.size_le
  have hlen := A.file_le k hk
  refine ⟨toNat_of_eq (h.length k hk) (by omega), fun j hj => ?_⟩
  have hlast := L.block_lt k hk j hj
  exact toNat_of_eq (h.block k hk j hj) (by omega)

/-- **The contents of an inode** are the file. -/
theorem contents_eq (h : L.Image m addr) (hk : k < A.fileCount) :
    (initFilesys m addr).contents k = A.file k := by
  have hsize := L.size_le
  obtain ⟨hlen, hblocks⟩ := inode_eq h hk
  refine List.ext_getElem (by rw [FileSys.contents_length, hlen]) fun x hx hx' => ?_
  have hle : (A.file k).length ≤ A.blockCount k * 4096 := le_blocksFor _
  have hin : x / 4096 < A.blockCount k := by omega
  have hlast := L.block_lt k hk _ hin
  have hbyte := FileSys.contents_getElem? (initFilesys m addr) k (hlen.symm ▸ hx')
  rw [List.getElem?_eq_getElem hx, hblocks (x / 4096) hin] at hbyte
  have hoff : (u32 (((L.block k (x / 4096) : ℕ) : ℤ) * 4096 + (x % 4096 : ℕ))).toNat
      = L.block k (x / 4096) * 4096 + x % 4096 := by
    rw [u32_of_bounds (by omega) (by omega)]
    omega
  have hcount : (m.load (addr + BitVec.ofNat 32 4)).toNat = A.fileCount := (counts h).2.1
  rw [Option.some.inj hbyte, FileSys.byte, hoff]
  dsimp only [initFilesys]
  rw [hcount, h.data k hk x hx']

/-- The image is well-formed. -/
theorem wellFormed (h : L.Image m addr) : (initFilesys m addr).WellFormed := by
  obtain ⟨-, hinodes, hblocks⟩ := counts h
  constructor
  · intro k hk
    rw [hinodes] at hk
    rw [(inode_eq h hk).1]
    exact A.file_le k hk
  · intro k hk j hj
    rw [hinodes] at hk
    obtain ⟨hlen, hblock⟩ := inode_eq h hk
    have hj' : j < A.blockCount k := by rwa [hlen] at hj
    rw [hblock j hj', hblocks]
    exact L.block_lt k hk j hj'

/-- A lookup in the image finds the entry that a lookup in the archive finds. -/
theorem exists_lookup (h : L.Image m addr) (name : CString) :
    ∃ o : Option ℕ, (∀ i ∈ o, i < A.dirCount) ∧
      (initFilesys m addr).lookup name = o.map (initFilesys m addr).direntries ∧
      A.find name = o.map A.entry := by
  refine ⟨(List.range A.dirCount).find? fun i => (A.entry i).name.bytes = name.bytes,
    fun i hi => List.mem_range.1 (List.mem_of_find?_eq_some hi), ?_, ?_⟩
  · rw [FileSys.lookup, (counts h).1, List.find?_map]
    refine congrArg _ (List.find?_congr fun i hi => ?_)
    rw [Function.comp_apply, (showsEntry h (List.mem_range.1 hi)).name]
  · rw [find, List.find?_map]
    rfl

/-- **A name of the archive** is found. -/
theorem exists_readDentryByName (h : L.Image m addr) {name : CString} {e : DirEntry}
    (he : A.find name = some e) :
    ∃ d, readDentryByName (initFilesys m addr) name = some d ∧ d.ShowsEntry e := by
  obtain ⟨o, ho, hlookup, hfind⟩ := exists_lookup h name
  rw [hfind] at he
  obtain ⟨i, rfl, rfl⟩ := Option.map_eq_some_iff.1 he
  rw [readDentryByName_eq, hlookup]
  exact ⟨_, rfl, (showsEntry h (ho i rfl)).padded⟩

end Archive.Layout

/-- **An image gives back its archive.**  In memory that holds the image of an archive, wherever,
`init_filesys` finds a well-formed image; `read_dentry_by_name` finds the first entry of the
archive with the name, and nothing for a name that it does not have; and the contents of the
inodes are the files. -/
theorem initFilesys_archive (h : L.Image m addr) :
    (initFilesys m addr).WellFormed ∧
    (∀ name, A.find name = none → readDentryByName (initFilesys m addr) name = none) ∧
    (∀ name e, A.find name = some e →
      ∃ d, readDentryByName (initFilesys m addr) name = some d ∧ d.ShowsEntry e) ∧
    (initFilesys m addr).inodeCount = A.fileCount ∧
    ∀ k < A.fileCount, (initFilesys m addr).contents k = A.file k := by
  refine ⟨L.wellFormed h, fun name hnone => ?_, fun _ _ he => L.exists_readDentryByName h he,
    (L.counts h).2.1, fun k hk => L.contents_eq h hk⟩
  obtain ⟨o, -, hlookup, hfind⟩ := L.exists_lookup h name
  rw [hfind, Option.map_eq_none_iff] at hnone
  rw [readDentryByName_eq, hlookup, hnone]
  rfl

/-! ### Writing an image -/

/-- A number in four bytes. -/
def numBytes (n : ℕ) : List (BitVec 8) := Mem.bytes (.ofNat 32 n)

@[simp] theorem length_numBytes (n : ℕ) : (numBytes n).length = 4 := rfl

namespace Archive.Layout

variable (L) (spare : ℕ → ℕ → BitVec 8)

/-- No two blocks of files are in one data block. -/
def Distinct : Prop :=
  ∀ k < A.fileCount, ∀ j < A.blockCount k, ∀ k' < A.fileCount, ∀ j' < A.blockCount k',
    L.block k j = L.block k' j' → k = k' ∧ j = j'

/-- The block of a file that is in a data block. -/
def owner (b : ℕ) : Option (ℕ × ℕ) :=
  ((List.range A.fileCount).flatMap fun k =>
    (List.range (A.blockCount k)).map fun j => (k, j)).find? fun p => L.block p.1 p.2 = b

/-- The three counts of the boot block, and 52 reserved bytes. -/
def headBytes : List (BitVec 8) :=
  numBytes A.dirCount ++ numBytes A.fileCount ++ numBytes L.dataCount ++ zeroBytes 52

/-- A slot of the directory. -/
def slotBytes (A : Archive) (i : ℕ) : List (BitVec 8) :=
  if i < A.dirCount then (A.entry i).bytes ++ zeroBytes 24 else zeroBytes 64

/-- The inode of a file: its length and its block numbers. -/
def inodeBytes (k : ℕ) : List (BitVec 8) :=
  numBytes (A.file k).length ++
    (List.range 1023).flatMap fun j => numBytes (if j < A.blockCount k then L.block k j else 0)

/-- Byte `o` of a data block: of the file in it, or one that no file uses. -/
def blockByte (b o : ℕ) : BitVec 8 :=
  match L.owner b with
  | some (k, j) => ((A.file k)[j * 4096 + o]?.map UInt8.toBitVec).getD (spare b o)
  | none => spare b o

/-- A data block. -/
def blockBytes (b : ℕ) : List (BitVec 8) := (List.range 4096).map (L.blockByte spare b)

/-- The image of an archive, with `spare` where no file is. -/
def bytes : List (BitVec 8) :=
  L.headBytes ++ (List.range 63).flatMap (slotBytes A)
    ++ (List.range A.fileCount).flatMap L.inodeBytes
    ++ (List.range L.dataCount).flatMap (L.blockBytes spare)

theorem length_headBytes : L.headBytes.length = 64 := by simp [headBytes]

theorem length_slotBytes (i : ℕ) : (slotBytes A i).length = 64 := by
  unfold slotBytes
  split_ifs <;> simp

theorem length_inodeBytes (k : ℕ) : (L.inodeBytes k).length = 4096 := by
  have hwords := length_flatMap_range
    (fun j => numBytes (if j < A.blockCount k then L.block k j else 0))
    (fun _ => length_numBytes _) 1023
  rw [inodeBytes, List.length_append, length_numBytes, hwords]

theorem length_blockBytes (b : ℕ) : (L.blockBytes spare b).length = 4096 := by simp [blockBytes]

theorem length_bytes : (L.bytes spare).length = (1 + A.fileCount + L.dataCount) * 4096 := by
  rw [bytes, List.length_append, List.length_append, List.length_append, length_headBytes,
    length_flatMap_range _ length_slotBytes, length_flatMap_range _ L.length_inodeBytes,
    length_flatMap_range _ (L.length_blockBytes spare)]
  omega

variable {L spare}

/-- The block of a file is found in its data block. -/
theorem owner_block (hdistinct : L.Distinct) (hk : k < A.fileCount) {j : ℕ}
    (hj : j < A.blockCount k) : L.owner (L.block k j) = some (k, j) := by
  have hmem : (k, j) ∈ (List.range A.fileCount).flatMap fun k =>
      (List.range (A.blockCount k)).map fun j => (k, j) :=
    List.mem_flatMap.2 ⟨k, List.mem_range.2 hk, List.mem_map.2 ⟨j, List.mem_range.2 hj, rfl⟩⟩
  cases hfound : L.owner (L.block k j) with
  | none =>
    have hnone := List.find?_eq_none.1 hfound (k, j) hmem
    exact absurd (decide_eq_true rfl) hnone
  | some p =>
    have hblock : L.block p.1 p.2 = L.block k j := by simpa using List.find?_some hfound
    obtain ⟨k', hk', hp⟩ := List.mem_flatMap.1 (List.mem_of_find?_eq_some hfound)
    obtain ⟨j', hj', rfl⟩ := List.mem_map.1 hp
    obtain ⟨rfl, rfl⟩ := hdistinct _ (List.mem_range.1 hk') _ (List.mem_range.1 hj') k hk j hj
      hblock
    rfl

/-- **The parts of the image.** -/
theorem stores_parts (h : m.Stores addr (L.bytes spare)) :
    m.Stores addr L.headBytes ∧
    m.Stores (addr + BitVec.ofNat 32 64) ((List.range 63).flatMap (slotBytes A)) ∧
    m.Stores (addr + BitVec.ofNat 32 4096) ((List.range A.fileCount).flatMap L.inodeBytes) ∧
    m.Stores (addr + BitVec.ofNat 32 ((A.fileCount + 1) * 4096))
      ((List.range L.dataCount).flatMap (L.blockBytes spare)) := by
  simp only [bytes, Mem.stores_append, List.length_append, length_headBytes,
    length_flatMap_range _ length_slotBytes, length_flatMap_range _ L.length_inodeBytes] at h
  obtain ⟨⟨⟨hhead, hdir⟩, hinodes⟩, hblocks⟩ := h
  rw [show 64 + 63 * 64 + A.fileCount * 4096 = (A.fileCount + 1) * 4096 by omega] at hblocks
  exact ⟨hhead, hdir, hinodes, hblocks⟩

/-- The bytes of a file are in its data blocks. -/
theorem stores_file (hdistinct : L.Distinct) (h : m.Stores addr (L.bytes spare))
    (hk : k < A.fileCount) {x : ℕ} (hx : x < (A.file k).length) :
    m (addr + BitVec.ofNat 32 ((A.fileCount + 1) * 4096)
      + BitVec.ofNat 32 (L.block k (x / 4096) * 4096 + x % 4096)) = (A.file k)[x].toBitVec := by
  have hle : (A.file k).length ≤ A.blockCount k * 4096 := le_blocksFor _
  have hin : x / 4096 < A.blockCount k := by omega
  have hmod : x % 4096 < (L.blockBytes spare (L.block k (x / 4096))).length := by
    rw [length_blockBytes]
    omega
  obtain ⟨-, -, -, hblocks⟩ := stores_parts h
  have hblock := hblocks.flatMap (L.block_lt k hk _ hin)
  rw [length_flatMap_range _ (L.length_blockBytes spare)] at hblock
  rw [← Mem.add_ofNat_add, hblock.getElem hmod]
  simp only [blockBytes, List.getElem_map, List.getElem_range, blockByte,
    owner_block hdistinct hk hin]
  rw [show x / 4096 * 4096 + x % 4096 = x by omega, List.getElem?_eq_getElem hx]
  rfl

/-- **What is written is an image,** wherever the files are. -/
theorem image_of_stores (hdistinct : L.Distinct) (h : m.Stores addr (L.bytes spare)) :
    L.Image m addr := by
  obtain ⟨hhead, hdir, hinodes, -⟩ := stores_parts h
  rw [headBytes, Mem.stores_append, Mem.stores_append, Mem.stores_append] at hhead
  obtain ⟨⟨⟨hdirs, hfiles⟩, hblocks⟩, -⟩ := hhead
  have hinode (k : ℕ) (hk : k < A.fileCount) := hinodes.flatMap hk
  simp only [length_flatMap_range _ L.length_inodeBytes, inodeBytes, Mem.stores_append] at hinode
  refine ⟨hdirs.load, hfiles.load, hblocks.load, fun i hi => ?_, fun k hk => (hinode k hk).1.load,
    fun k hk j hj => ?_, fun k hk x hx => stores_file hdistinct h hk hx⟩
  · have hslot := hdir.flatMap (Nat.lt_of_lt_of_le hi A.dirCount_le)
    rw [length_flatMap_range _ length_slotBytes, slotBytes, if_pos hi, Mem.stores_append] at hslot
    exact hslot.1
  · have hle := A.file_le k hk
    have hcount : j < 1023 := by
      unfold blockCount blocksFor at hj
      omega
    have hblock := (hinode k hk).2.flatMap hcount
    rw [length_flatMap_range _ fun _ => length_numBytes _, if_pos hj] at hblock
    exact hblock.load

end Archive.Layout

/-- An archive of two regular files: `a`, of two bytes, and one of 5000 bytes. -/
def smallArchive : Archive where
  dirCount := 1
  entry _ := { name := programCommand, fileType := 2, inodeNum := 0, name_le := by decide }
  fileCount := 2
  file k := if k = 0 then [104, 105] else List.replicate 5000 65
  dirCount_le := by decide
  file_le k _ := by
    split_ifs
    · decide
    · rw [List.length_replicate]
      decide

theorem blockCount_smallArchive (k : ℕ) :
    smallArchive.blockCount k = if k = 0 then 1 else 2 := by
  unfold Archive.blockCount smallArchive
  dsimp only
  split_ifs
  · rfl
  · rw [List.length_replicate]
    rfl

/-- The first file is in block 3, and the other one in blocks 4 and 1. -/
def smallLayout : smallArchive.Layout where
  dataCount := 6
  block k j := if k = 0 then 3 else 4 - 3 * j
  block_lt k _ j _ := by
    split_ifs <;> omega
  size_le := by decide

theorem distinct_smallLayout : smallLayout.Distinct := by
  intro k hk j hj k' hk' j' hj' heq
  rw [blockCount_smallArchive] at hj hj'
  have hfiles : smallArchive.fileCount = 2 := rfl
  simp only [smallLayout] at heq
  split_ifs at hj hj' heq <;> omega

/-- Its image, where the boot loader has put it. -/
def smallMem : Mem := Mem.write (fun _ => 0) 0x40C000 (smallLayout.bytes fun _ _ => 0x5A)

theorem image_smallMem : smallLayout.Image smallMem 0x40C000 :=
  Archive.Layout.image_of_stores distinct_smallLayout
    (Mem.stores_write (smallLayout.length_bytes _ ▸ smallLayout.size_le))

theorem find_smallArchive : smallArchive.find programCommand = some (smallArchive.entry 0) := rfl

theorem initFilesys_archive_small :
    (initFilesys smallMem 0x40C000).WellFormed ∧
    (initFilesys smallMem 0x40C000).contents 0 = [104, 105] ∧
    (initFilesys smallMem 0x40C000).contents 1 = List.replicate 5000 65 ∧
    ∃ d, readDentryByName (initFilesys smallMem 0x40C000) programCommand = some d ∧
      d.fileType = 2 := by
  obtain ⟨hwf, -, hname, -, hfile⟩ := initFilesys_archive image_smallMem
  obtain ⟨d, hd, hshows⟩ := hname programCommand _ find_smallArchive
  exact ⟨hwf, hfile 0 (by decide), hfile 1 (by decide), d, hd, hshows.fileType⟩

/-- **Reading a file of the archive.**  If a process opens a file of such an image, the archive
has a regular file with that name, and if its inode exists, what the process reads from the
descriptor, with calls of any sizes among any other calls, is that file from its start. -/
theorem reads_archive {name : CString} {s t : Kernel} {fd : ℤ} {es : List FileEvent}
    (h : L.Image m addr) (hopen : (s.fileOpen (initFilesys m addr) name).1 = fd)
    (hfd : fd ≠ -1)
    (hr : Run (Guarded (OnlyReads s.processNum fd) (FileStep (initFilesys m addr)))
      (s.fileOpen (initFilesys m addr) name).2 es t) :
    ∃ e, A.find name = some e ∧ e.fileType.toNat = regularFileType ∧
      (e.inodeNum.toNat < A.fileCount →
        delivered s.processNum fd es
          = (A.file e.inodeNum.toNat).take (asked s.processNum fd es)) := by
  obtain ⟨-, d, hlookup, htype, hdescriptor⟩ := openDescriptor_opened hopen hfd
  obtain ⟨o, ho, hlookup', hfind⟩ := L.exists_lookup h name
  rw [hlookup'] at hlookup
  obtain ⟨i, rfl, rfl⟩ := Option.map_eq_some_iff.1 hlookup
  have hshows := L.showsEntry h (ho i rfl)
  refine ⟨_, hfind, hshows.fileType.symm.trans htype, fun hinode => ?_⟩
  have hcount := (L.counts h).2.1
  have hstart : ((s.fileOpen (initFilesys m addr) name).2.pcb s.processNum).OpenAt fd
      (A.entry i).inodeNum.toNat 0 := by
    rw [← hshows.inodeNum]
    exact hdescriptor
  obtain ⟨hbytes, -⟩ := openAt_of_run (L.wellFormed h) (hcount.symm ▸ hinode) hr hstart
    (Nat.zero_le _)
  rw [hbytes, L.contents_eq h hinode, List.drop_zero]

/-- A program opens the file `a` and asks for 30 bytes of it. -/
theorem reads_archive_small :
    let fs := initFilesys smallMem 0x40C000
    let s := (programKernel.fileOpen fs programCommand).2
    delivered 3 2 [⟨3, read30, read30.run fs s⟩] = [104, 105] := by
  intro fs s
  have hnum : programKernel.processNum = 3 := by decide +kernel
  have hsched : programKernel.scheduledPid = 3 := by decide +kernel
  have hfree : freeDescriptor (programKernel.pcb programKernel.processNum) = some 2 := by
    decide +kernel
  have hflags : ((programKernel.pcb programKernel.processNum).fileDescriptor 2).flags = false := by
    decide +kernel
  obtain ⟨d, hd, hshows⟩ := Archive.Layout.exists_readDentryByName image_smallMem find_smallArchive
  have htype : d.fileType = regularFileType := hshows.fileType
  have hopen : programKernel.fileOpen fs programCommand = (2, programKernel.modifyDescriptor
      programKernel.processNum 2 fun _ =>
        { fop := .file, inode := d.inodeNum, filePosition := 0, flags := true }) := by
    simp only [fs, Kernel.fileOpen, Kernel.openDescriptor, hfree, hd, htype, hflags]
    rfl
  have hs : s = _ := congrArg Prod.snd hopen
  have hstep : FileStep fs s ⟨3, read30, read30.run fs s⟩ (read30.run fs s).kernel :=
    .call ⟨fun _ => rfl, hs ▸ hnum, hs ▸ hsched⟩ read30
  have honly : OnlyReads programKernel.processNum 2 s ⟨3, read30, read30.run fs s⟩ :=
    fun _ => ⟨_, 30, rfl, by decide, by decide⟩
  obtain ⟨e, he, -, hread⟩ := reads_archive image_smallMem (congrArg Prod.fst hopen)
    (show (2 : ℤ) ≠ -1 by decide) (.single ⟨honly, hstep⟩)
  obtain rfl := Option.some.inj (he.symm.trans find_smallArchive)
  rw [hnum] at hread
  exact hread (by decide)

end ReadBack

end OS391
