/-
# The file system image

`boot_block`, `dentry_t` and `inode` of `student-distrib/filesys.h`, and the three
module functions `read_dentry_by_name`, `read_dentry_by_index` and `read_data` of
`filesys.c`.  The image is loaded by the boot loader and never written, so it is a
value here and not a part of the kernel's state.

The reserved bytes of the image are left out; nothing reads them.  `data` is the
memory at and above the first data block, indexed by the 32-bit distance of an
address from it.  `direntries` and `dataBlocks` are total functions because
`dir_count` and an offset can lead past the end of the two arrays.
-/

import OS391.CString
import OS391.Lib.CInt

namespace OS391

open Lib

/-- `DENTRY_FILE_NAME_LEN` -/
def dentryFileNameLen : ℕ := 32

/-- `dentry_t` -/
structure Dentry where
  filename : ℕ → UInt8
  fileType : ℕ
  inodeNum : ℕ
  deriving Inhabited

/-- `inode` -/
structure Inode where
  length : ℕ
  dataBlocks : ℕ → ℕ
  deriving Inhabited

/-- The image: `boot_block`, the inodes and the data blocks. -/
structure FileSys where
  dirCount : ℕ
  inodeCount : ℕ
  dataCount : ℕ
  direntries : ℕ → Dentry
  inodes : ℕ → Inode
  data : ℕ → UInt8
  deriving Inhabited

variable (fs : FileSys)

/-- `read_dentry_by_index`: the dentry it fills in, `none` for the return value `-1`. -/
def readDentryByIndex (index : ℕ) : Option Dentry :=
  if fs.dirCount ≤ index then none
  else some
    { filename := strncpy (fun _ => 0) (fs.direntries index).filename dentryFileNameLen
      fileType := (fs.direntries index).fileType
      inodeNum := (fs.direntries index).inodeNum }

/-- The loop of `read_dentry_by_name` from entry `i` on, with `k` entries left. -/
def searchDentries (fname : CString) : ℕ → ℕ → Option Dentry
  | 0, _ => none
  | k + 1, i =>
    if strncmp (strncpy (fun _ => 0) (fs.direntries i).filename dentryFileNameLen) fname.get
        dentryFileNameLen = 0 then readDentryByIndex fs i
    else searchDentries fname k (i + 1)

/-- `read_dentry_by_name` -/
def readDentryByName (fname : CString) : Option Dentry :=
  if dentryFileNameLen < fname.strlen then none
  else searchDentries fs fname fs.dirCount 0

/-- The running variables of `read_data` once the first block is dealt with. -/
structure ReadState where
  buf : ℕ → UInt8
  bytesToRead : ℤ
  bufOffset : ℤ
  result : ℤ
  i : ℤ
  currDataBlock : ℤ

/-- `n` bytes of block `b` from `blockOffset` on, copied to `buf + off`. -/
def copyFromBlock (buf : ℕ → UInt8) (off b blockOffset n : ℤ) : ℕ → UInt8 :=
  copyLoop buf off.toNat (fun count => fs.data (u32 (b * 4096 + blockOffset + count)).toNat) n.toNat

/-- The whole block the `while` loop of `read_data` copies in one turn. -/
def readBlock (src : Inode) (st : ReadState) : ReadState :=
  { buf := copyFromBlock fs st.buf st.bufOffset st.currDataBlock 0 4096
    bytesToRead := st.bytesToRead - 4096
    bufOffset := st.bufOffset + 4096
    result := st.result + 4096
    i := st.i + 1
    currDataBlock := i32 (src.dataBlocks (st.i + 1).toNat) }

/-- `while (bytes_to_read / FOUR_KB > 0)`, at most `k` turns. -/
def readBlocks (src : Inode) : ℕ → ReadState → ReadState
  | 0, st => st
  | k + 1, st =>
    if st.bytesToRead / 4096 > 0 then readBlocks src k (readBlock fs src st) else st

/-- The first, partial block: `if (block_offset != 0) ...`. -/
def readPartial (src : Inode) (blockOffset : ℤ) (st : ReadState) : ReadState :=
  if blockOffset ≠ 0 then
    if i32 (blockOffset + st.bytesToRead) < 4096 then
      { st with
        buf := copyFromBlock fs st.buf 0 st.currDataBlock blockOffset st.bytesToRead
        result := st.result + st.bytesToRead
        bytesToRead := 0 }
    else
      { buf := copyFromBlock fs st.buf 0 st.currDataBlock blockOffset (4096 - blockOffset)
        bytesToRead := st.bytesToRead - (4096 - blockOffset)
        bufOffset := st.bufOffset + (4096 - blockOffset)
        result := st.result + (4096 - blockOffset)
        i := st.i + 1
        currDataBlock := i32 (src.dataBlocks (st.i + 1).toNat) }
  else st

/-- The last, partial block: `if (bytes_to_read > 0) ...`. -/
def readTail (st : ReadState) : ReadState :=
  if st.bytesToRead > 0 then
    { st with
      buf := copyFromBlock fs st.buf st.bufOffset st.currDataBlock 0 st.bytesToRead
      result := st.result + st.bytesToRead }
  else st

/-- `bytes_to_read` after the check for the end of the file. -/
def clipToEof (fileLength offset length : ℕ) : ℤ :=
  if u32 (offset + i32 length) > fileLength then
    i32 (i32 length - u32 (offset + i32 length - fileLength))
  else i32 length

/-- `read_data`: the return value as a `uint32_t`, and the buffer. -/
def readData (inodeIndex offset : ℕ) (buf : ℕ → UInt8) (length : ℕ) : ℤ × (ℕ → UInt8) :=
  if fs.inodeCount ≤ inodeIndex then (u32 (-1), buf)
  else
    let src := fs.inodes inodeIndex
    if src.length ≤ offset then (0, buf)
    else
      let bytesToRead := clipToEof src.length offset length
      let i : ℤ := offset / 4096
      let blockOffset := if i > 0 then i32 (i32 offset - i32 (i * 4096)) else i32 offset
      let st := readPartial fs src blockOffset
        { buf := buf, bytesToRead := bytesToRead, bufOffset := 0, result := 0, i := i,
          currDataBlock := i32 (src.dataBlocks i.toNat) }
      let st := readTail fs (readBlocks fs src (st.bytesToRead / 4096).toNat st)
      (u32 st.result, st.buf)

end OS391
