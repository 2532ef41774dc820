/-
# The screen and the keyboard buffers

What `lib.c` and `keyboard.c` keep of the three terminals: the visible page at
`VIDEO` with its cursor, the pages `VIDEO + (t + 1) * 4096` of the terminals in the
background with their saved cursors, and the keyboard buffers.  The functions are
those that output goes through (`putc`, `background_putc`, the scrolling loops,
`clear`, `printf`), `switch_terminals` and `clear_buffer`.

`video` is memory by address.  A backspace can move the cursor to column `-1`, so
coordinates and addresses are integers, and `%` and `/` are those of C
(`Int.tmod`, `Int.tdiv`).  `update_cursor` only writes to the ports of the display
controller, which nothing reads back; it is left out.
-/

import OS391.CString
import OS391.Lib.Memory

namespace OS391

open Lib

/-- `VIDEO` -/
def videoBase : ℤ := 0xB8000

/-- `NUM_COLS` -/
def numCols : ℤ := 80

/-- `NUM_ROWS` -/
def numRows : ℤ := 25

/-- `ATTRIB` -/
def attrib : UInt8 := 0x7

/-- `BUFFER_LIM` -/
def bufferLim : ℕ := 128

/-- `terminal_storage` without `curr_pid`, which the scheduler keeps. -/
structure Terminal where
  saveX : ℤ
  saveY : ℤ
  keyboardBuffer : ℕ → UInt8
  bufferCt : UInt8
  enterRead : Bool
  deriving Inhabited

/-- The state behind the screen. -/
structure Console where
  terminalNum : ℕ
  screenX : ℤ
  screenY : ℤ
  videoMem : ℤ
  video : ℤ → UInt8
  terminal : ℕ → Terminal
  rowLetterCt : UInt8
  bytesWritten : ℤ
  lineCt : ℤ
  helloFlag : Bool
  catFlag : ℕ → Bool
  deriving Inhabited

/-- The address of the character in column `x` of row `y`. -/
def cellAddr (videoMem x y : ℤ) : ℤ := videoMem + 2 * (numCols * y + x)

/-- A character and its attribute written to a cell. -/
def putCell (video : ℤ → UInt8) (addr : ℤ) (c : UInt8) : ℤ → UInt8 :=
  Function.update (Function.update video addr c) (addr + 1) attrib

/-- The loop of `clear` and `clear_screen_row`: `n` blanks from cell `idx` on. -/
def clearCells (video : ℤ → UInt8) (videoMem : ℤ) (idx : ℤ) : ℕ → ℤ → UInt8
  | 0 => video
  | n + 1 => putCell (clearCells video videoMem idx n) (videoMem + 2 * (idx + n)) 32

/-- The first `n` turns of the scrolling loop: each cell takes what is one row below. -/
def scrollCells (video : ℤ → UInt8) (videoMem : ℤ) : ℕ → ℤ → UInt8
  | 0 => video
  | n + 1 =>
    let v := scrollCells video videoMem n
    let v := Function.update v (videoMem + 2 * n) (v (videoMem + 2 * (n + numCols)))
    Function.update v (videoMem + 2 * n + 1) (v (videoMem + 2 * (n + numCols) + 1))

/-- `memcpy` of the page at `src` to the page at `dst`. -/
def copyPage (video : ℤ → UInt8) (dst src : ℤ) : ℤ → UInt8 := fun a =>
  if dst ≤ a ∧ a < dst + 4096 then video (src + (a - dst)) else video a

namespace Console

variable (t : Console)

/-- `clear` -/
def clear : Console :=
  { t with video := clearCells t.video videoBase 0 2000, screenX := 0, screenY := 0 }

/-- `clear_screen_row` -/
def clearScreenRow (row : ℤ) : Console :=
  { t with video := clearCells t.video t.videoMem (row * numCols) 80 }

/-- `vertical_scroll` -/
def verticalScroll : Console :=
  clearScreenRow
    { t with video := scrollCells t.video t.videoMem 1920, screenX := 0, screenY := numRows - 1 }
    (numRows - 1)

/-- The head of `putc`: output goes to `VIDEO`, and a full screen rolls up. -/
def putcStart : Console :=
  let t := { t with videoMem := videoBase }
  if numCols * t.screenY + t.screenX ≥ numCols * numRows then t.verticalScroll else t

/-- `putc` of a newline. -/
def putcNewline : Console :=
  let t := t.putcStart
  { t with screenX := 0, screenY := t.screenY + 1 }

/-- `screen_x` moved to `x`, and wrapped as `putc` does. -/
def moveTo (x : ℤ) : Console :=
  { t with
    screenX := x.tmod numCols
    screenY := (t.screenY + (x.tmod numCols).tdiv numCols).tmod numRows }

/-- `c` at the cursor. -/
def draw (c : UInt8) : Console :=
  { t with video := putCell t.video (cellAddr t.videoMem t.screenX t.screenY) c }

/-- One of the four spaces of a tab. -/
def putcTabSpace : Console :=
  let t := if t.rowLetterCt = 80 then { t.putcNewline with rowLetterCt := 0 } else t
  (moveTo { t with rowLetterCt := t.rowLetterCt + 1 } (t.screenX + 1)).draw 32

/-- `putc` -/
def putc (c : UInt8) : Console :=
  if c = 10 ∨ c = 13 then t.putcNewline
  else
    let t := t.putcStart
    if c = 8 then (t.moveTo (t.screenX - 1)).draw 32
    else if c = 9 then t.putcTabSpace.putcTabSpace.putcTabSpace.putcTabSpace
    else (t.draw c).moveTo (t.screenX + 1)

/-- `printf` of a text without `%`, the only kind the functions modelled print. -/
def printf (text : List UInt8) : Console := text.foldl putc t

/-- The fields of one terminal changed. -/
def modifyTerminal (idx : ℕ) (f : Terminal → Terminal) : Console :=
  { t with terminal := Function.update t.terminal idx (f (t.terminal idx)) }

/-- `background_scroll` -/
def backgroundScroll (termIdx : ℕ) (vidmem : ℤ) : Console :=
  let t := { t with video := scrollCells t.video vidmem 1920 }
  let t := t.modifyTerminal termIdx fun m => { m with saveX := 0, saveY := numRows - 1 }
  { t with video := clearCells t.video vidmem (24 * numCols) 80 }

/-- `save_x` of a terminal moved to `x`, and wrapped as `background_putc` does. -/
def backgroundMoveTo (idx : ℕ) (x : ℤ) : Console :=
  t.modifyTerminal idx fun m =>
    { m with
      saveX := x.tmod numCols
      saveY := (m.saveY + (x.tmod numCols).tdiv numCols).tmod numRows }

/-- `c` at the saved cursor of a terminal. -/
def backgroundDraw (idx : ℕ) (c : UInt8) : Console :=
  { t with
    video := putCell t.video
      (cellAddr t.videoMem (t.terminal idx).saveX (t.terminal idx).saveY) c }

/-- One of the four spaces of a tab in the background. -/
def backgroundTabSpace (idx : ℕ) : Console :=
  (t.backgroundMoveTo idx ((t.terminal idx).saveX + 1)).backgroundDraw idx 32

/-- `background_putc` -/
def backgroundPutc (c : UInt8) (idx : ℕ) : Console :=
  let t := { t with videoMem := videoBase + (idx + 1) * 4096 }
  let t := if numCols * (t.terminal idx).saveY + (t.terminal idx).saveX ≥ numCols * numRows then
      t.backgroundScroll idx t.videoMem else t
  if c = 8 then (t.backgroundMoveTo idx ((t.terminal idx).saveX - 1)).backgroundDraw idx 32
  else if c = 9 then
    (((t.backgroundTabSpace idx).backgroundTabSpace idx).backgroundTabSpace idx).backgroundTabSpace
      idx
  else if c = 10 ∨ c = 13 then
    t.modifyTerminal idx fun m => { m with saveX := 0, saveY := m.saveY + 1 }
  else (t.backgroundDraw idx c).backgroundMoveTo idx ((t.terminal idx).saveX + 1)

/-- `switch_video_mem` -/
def switchVideoMem (previous next : ℕ) : Console :=
  let t := t.modifyTerminal previous fun m => { m with saveX := t.screenX, saveY := t.screenY }
  { t with screenX := (t.terminal next).saveX, screenY := (t.terminal next).saveY }

/-- `switch_terminals` -/
def switchTerminals (previous next : ℕ) : Console :=
  let t := t.switchVideoMem previous next
  let video := copyPage t.video (videoBase + (previous + 1) * 4096) videoBase
  { t with
    video := copyPage video videoBase (videoBase + (next + 1) * 4096)
    terminalNum := next }

/-- `clear_buffer` -/
def clearBuffer : Console :=
  t.modifyTerminal t.terminalNum fun m =>
    { m with keyboardBuffer := fillLoop m.keyboardBuffer 0 (bufferLim - 1), bufferCt := 0 }

end Console

end OS391
