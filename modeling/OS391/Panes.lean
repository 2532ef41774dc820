/-
# A page and a cursor

`putc` and `background_putc` are two pieces of code for one thing: a character written to a
page of video memory at a cursor.  `Pane` is the page and the cursor, and `Pane.putc` what a
character does to them; `Console.backgroundPutc_eq` and `Console.putc_eq` show it in the two
functions, the one for the terminal's page and saved cursor, the other for `VIDEO` and the
cursor of the screen.  Only the tab of `putc` is its own: it counts the characters of the row.
-/

import OS391.Console
import OS391.Lib.CInt
import OS391.Lib.Window

namespace OS391

open Lib

/-! ### The loops over the cells -/

section Cells

variable {v v' : ℤ → UInt8} {b b' : ℤ}

/-- A cell written at the same place of two pages. -/
theorem sameWindow_putCell (h : SameWindow 4096 v b v' b') (k : ℤ) (c : UInt8) :
    SameWindow 4096 (putCell v (b + k) c) b (putCell v' (b' + k) c) b' := by
  have hattr := (h.update k (v := c) fun _ _ => rfl).update (k + 1) (v := attrib) fun _ _ => rfl
  unfold putCell
  rwa [Int.add_assoc, Int.add_assoc]

theorem sameWindow_clearCells (h : SameWindow 4096 v b v' b') (idx : ℤ) (n : ℕ) :
    SameWindow 4096 (clearCells v b idx n) b (clearCells v' b' idx n) b' := by
  induction n with
  | zero => exact h
  | succ n ih => exact sameWindow_putCell ih _ 32

/-- **The scrolling loop** moves the same cells in two pages that are the same. -/
theorem sameWindow_scrollCells (h : SameWindow 4096 v b v' b') {n : ℕ} (hn : n ≤ 1920) :
    SameWindow 4096 (scrollCells v b n) b (scrollCells v' b' n) b' := by
  induction n with
  | zero => exact h
  | succ n ih =>
    have hrow := ih (by omega)
    have hcell : scrollCells v b n (b + 2 * (n + numCols)) =
        scrollCells v' b' n (b' + 2 * (n + numCols)) :=
      hrow _ (by unfold numCols; omega) (by unfold numCols; omega)
    have hchar := hrow.update (2 * n) fun _ _ => hcell
    have hattr := hchar.update (2 * n + 1) fun _ _ =>
      hchar (2 * (n + numCols) + 1) (by unfold numCols; omega) (by unfold numCols; omega)
    simp only [← Int.add_assoc] at hattr
    exact hattr

/-- A cell of a page. -/
theorem writesIn_putCell (h : WritesIn 4000 b v v') {k : ℤ} (h₀ : 0 ≤ k) (h₁ : k < 2000)
    (c : UInt8) : WritesIn 4000 b v (putCell v' (b + 2 * k) c) :=
  (h.update (by omega) (by omega) c).update (by omega) (by omega) attrib

theorem writesIn_clearCells (h : WritesIn 4000 b v v') {idx : ℤ} (h₀ : 0 ≤ idx) {n : ℕ}
    (h₁ : idx + n ≤ 2000) : WritesIn 4000 b v (clearCells v' b idx n) := by
  induction n with
  | zero => exact h
  | succ n ih => exact writesIn_putCell (ih (by omega)) (by omega) (by omega) 32

/-- **The scrolling loop** stays on its page. -/
theorem writesIn_scrollCells (h : WritesIn 4000 b v v') {n : ℕ} (hn : n ≤ 1920) :
    WritesIn 4000 b v (scrollCells v' b n) := by
  induction n with
  | zero => exact h
  | succ n ih =>
    exact ((ih (by omega)).update (by omega) (by omega) _).update (by omega) (by omega) _

end Cells

/-! ### Panes -/

/-- Video memory, and the cursor of one of its pages. -/
structure Pane where
  video : ℤ → UInt8
  x : ℤ
  y : ℤ

namespace Pane

variable (p : Pane) (b : ℤ)

/-- A full page rolled up. -/
def start : Pane :=
  if numCols * p.y + p.x ≥ numCols * numRows then
    { video := clearCells (scrollCells p.video b 1920) b ((numRows - 1) * numCols) 80
      x := 0
      y := numRows - 1 }
  else p

/-- The cursor at the beginning of the next row. -/
def newline : Pane := { p with x := 0, y := p.y + 1 }

/-- The cursor in column `x`, wrapped. -/
def moveTo (x : ℤ) : Pane :=
  { p with x := x.tmod numCols, y := (p.y + (x.tmod numCols).tdiv numCols).tmod numRows }

/-- `c` at the cursor. -/
def draw (c : UInt8) : Pane := { p with video := putCell p.video (cellAddr b p.x p.y) c }

/-- One of the four spaces of a tab. -/
def space : Pane := (p.moveTo (p.x + 1)).draw b 32

/-- A move within a row, or one column beyond it. -/
theorem moveTo_eq {x : ℤ} (hx : -80 ≤ x) (hx' : x ≤ 80) (hy : 0 ≤ p.y) (hy' : p.y ≤ 25) :
    p.moveTo x =
      { p with x := if x = 80 ∨ x = -80 then 0 else x, y := if p.y = 25 then 0 else p.y } := by
  have hcol : x.tmod numCols = if x = 80 ∨ x = -80 then 0 else x := tmod_of_abs_le hx hx'
  have hdiv : (x.tmod numCols).tdiv numCols = 0 := by
    refine tdiv_of_abs_lt ?_ ?_ <;> rw [hcol, numCols] <;> split_ifs <;> omega
  have hrow : (p.y + 0).tmod numRows = if p.y = 25 then 0 else p.y := by
    rw [Int.add_zero, numRows, tmod_of_abs_le (by omega) hy']
    exact if_congr (by omega) rfl rfl
  rw [moveTo, hdiv, hcol, hrow]

/-- **A character written to the page that starts at `b`.** -/
def putc (c : UInt8) : Pane :=
  let p := p.start b
  if c = 8 then (p.moveTo (p.x - 1)).draw b 32
  else if c = 9 then (((p.space b).space b).space b).space b
  else if c = 10 ∨ c = 13 then p.newline
  else (p.draw b c).moveTo (p.x + 1)

end Pane

/-- The page of a terminal in the background. -/
def pageAddr (idx : ℕ) : ℤ := videoBase + (idx + 1) * 4096

namespace Console

variable (t : Console) (idx : ℕ)

/-- What `putc` works on. -/
def pane : Pane := { video := t.video, x := t.screenX, y := t.screenY }

/-- What `background_putc` works on. -/
def backgroundPane : Pane :=
  { video := t.video, x := (t.terminal idx).saveX, y := (t.terminal idx).saveY }

/-- Video memory and the cursor of the screen replaced. -/
def withPane (p : Pane) : Console :=
  { t with videoMem := videoBase, video := p.video, screenX := p.x, screenY := p.y }

/-- Video memory and the saved cursor of a terminal replaced. -/
def withBackground (p : Pane) : Console :=
  { t with
    videoMem := pageAddr idx
    video := p.video
    terminal := Function.update t.terminal idx { t.terminal idx with saveX := p.x, saveY := p.y } }

theorem putcStart_eq : t.putcStart = t.withPane (t.pane.start videoBase) := by
  unfold putcStart Pane.start
  by_cases hfull : numCols * t.screenY + t.screenX ≥ numCols * numRows
  · rw [if_pos (show numCols * t.pane.y + t.pane.x ≥ numCols * numRows from hfull)]
    exact if_pos hfull
  · rw [if_neg (show ¬ numCols * t.pane.y + t.pane.x ≥ numCols * numRows from hfull)]
    exact if_neg hfull

theorem putcNewline_eq : t.putcNewline = t.withPane (t.pane.start videoBase).newline := by
  rw [putcNewline, putcStart_eq]
  rfl

/-- **`putc` writes to `VIDEO`,** but for a tab. -/
theorem putc_eq {c : UInt8} (h : c ≠ 9) : t.putc c = t.withPane (t.pane.putc videoBase c) := by
  unfold putc Pane.putc
  by_cases hnew : c = 10 ∨ c = 13
  · have hback : ¬ c = 8 := by
      rintro rfl
      revert hnew
      decide
    rw [if_pos hnew, putcNewline_eq]
    dsimp only
    rw [if_neg hback, if_neg h, if_pos hnew]
  · rw [if_neg hnew, putcStart_eq]
    dsimp only
    rw [if_neg h, if_neg h, if_neg hnew]
    by_cases hback : c = 8
    · rw [if_pos hback, if_pos hback]
      rfl
    · rw [if_neg hback, if_neg hback]
      rfl

/-- One of the four spaces of the tab of `putc`: the row may be full. -/
theorem putcTabSpace_eq : ∃ n, t.putcTabSpace =
    { t.withPane
        (if t.rowLetterCt = 80 then ((t.pane.start videoBase).newline.space videoBase)
          else (t.pane.space t.videoMem)) with
      videoMem := if t.rowLetterCt = 80 then videoBase else t.videoMem
      rowLetterCt := n } := by
  unfold putcTabSpace
  split_ifs
  · rw [putcNewline_eq]
    exact ⟨_, rfl⟩
  · exact ⟨_, rfl⟩

/-- **What `putc` can change,** whatever the character: video memory and the cursor, and with a
tab the counter of the row. -/
theorem putc_frame (c : UInt8) : ∃ p mem n,
    t.putc c = { t.withPane p with videoMem := mem, rowLetterCt := n } := by
  by_cases htab : c = 9
  · subst htab
    have hspace (u : Console)
        (h : ∃ p mem n, u = { t.withPane p with videoMem := mem, rowLetterCt := n }) :
        ∃ p mem n, u.putcTabSpace = { t.withPane p with videoMem := mem, rowLetterCt := n } := by
      obtain ⟨p, mem, n, rfl⟩ := h
      obtain ⟨n', hspace⟩ := putcTabSpace_eq
        { t.withPane p with videoMem := mem, rowLetterCt := n }
      exact ⟨_, _, n', hspace⟩
    exact hspace _ (hspace _ (hspace _ (hspace _ ⟨_, _, _, t.putcStart_eq⟩)))
  · exact ⟨_, _, _, t.putc_eq htab⟩

theorem withBackground_pane : { t with videoMem := pageAddr idx }
    = t.withBackground idx (t.backgroundPane idx) := by
  have hsame : Function.update t.terminal idx
      { t.terminal idx with saveX := (t.terminal idx).saveX, saveY := (t.terminal idx).saveY }
      = t.terminal := Function.update_eq_self idx t.terminal
  unfold withBackground backgroundPane
  rw [hsame]

section WithBackground

variable {t idx} {p : Pane}

theorem backgroundPane_withBackground : (t.withBackground idx p).backgroundPane idx = p := by
  simp [withBackground, backgroundPane]

theorem modifyTerminal_withBackground {f : Terminal → Terminal} {x y : ℤ}
    (hf : ∀ m : Terminal, f { m with saveX := p.x, saveY := p.y } =
      { m with saveX := x, saveY := y }) :
    (t.withBackground idx p).modifyTerminal idx f =
      t.withBackground idx { p with x := x, y := y } := by
  simp only [modifyTerminal, withBackground, Function.update_self, hf, Function.update_idem]

theorem backgroundDraw_withBackground (c : UInt8) : (t.withBackground idx p).backgroundDraw idx c
    = t.withBackground idx (p.draw (pageAddr idx) c) := by
  simp only [backgroundDraw, withBackground, Function.update_self]
  rfl

theorem backgroundMoveTo_withBackground (x : ℤ) : (t.withBackground idx p).backgroundMoveTo idx x
    = t.withBackground idx (p.moveTo x) := modifyTerminal_withBackground fun _ => rfl

theorem backgroundTabSpace_withBackground : (t.withBackground idx p).backgroundTabSpace idx
    = t.withBackground idx (p.space (pageAddr idx)) := by
  rw [backgroundTabSpace, backgroundMoveTo_withBackground, backgroundDraw_withBackground]
  simp [withBackground, Pane.space]

theorem backgroundScroll_withBackground :
    (t.withBackground idx p).backgroundScroll idx (pageAddr idx)
      = t.withBackground idx
        { video := clearCells (scrollCells p.video (pageAddr idx) 1920) (pageAddr idx)
            ((numRows - 1) * numCols) 80
          x := 0
          y := numRows - 1 } := by
  set q : Pane := { p with video := scrollCells p.video (pageAddr idx) 1920 }
  have h : (t.withBackground idx q).modifyTerminal idx
      (fun m => { m with saveX := 0, saveY := numRows - 1 }) =
        t.withBackground idx { q with x := 0, y := numRows - 1 } :=
    modifyTerminal_withBackground fun _ => rfl
  exact congrArg
    (fun u : Console => { u with video := clearCells u.video (pageAddr idx) (24 * numCols) 80 }) h

end WithBackground

/-- **`background_putc` writes to the page of its terminal.** -/
theorem backgroundPutc_eq (c : UInt8) : t.backgroundPutc c idx
    = t.withBackground idx ((t.backgroundPane idx).putc (pageAddr idx) c) := by
  have hstart :
      (if numCols * (t.terminal idx).saveY + (t.terminal idx).saveX ≥ numCols * numRows then
        { t with videoMem := pageAddr idx }.backgroundScroll idx (pageAddr idx)
      else { t with videoMem := pageAddr idx })
      = t.withBackground idx ((t.backgroundPane idx).start (pageAddr idx)) := by
    rw [withBackground_pane, backgroundScroll_withBackground]
    unfold Pane.start backgroundPane
    dsimp only
    split_ifs <;> rfl
  unfold backgroundPutc Pane.putc
  dsimp only
  rw [show videoBase + ((idx : ℤ) + 1) * 4096 = pageAddr idx from rfl, hstart]
  set p := (t.backgroundPane idx).start (pageAddr idx)
  have hx : ((t.withBackground idx p).terminal idx).saveX = p.x := by simp [withBackground]
  split_ifs
  · rw [hx, backgroundMoveTo_withBackground, backgroundDraw_withBackground]
  · simp only [backgroundTabSpace_withBackground]
  · exact modifyTerminal_withBackground fun _ => rfl
  · rw [backgroundDraw_withBackground, backgroundMoveTo_withBackground]
    simp [withBackground, Pane.draw]

end Console

end OS391
