/-
# Output of a program in the background

`terminal_write` chooses between `putc` and `background_putc` for every character, but
not for the newlines that it adds at its end: those are for `VIDEO` whoever writes.  So a
write in the background leaves the visible screen and the other terminals alone exactly
when it is refused, or adds no newline and starts on the page (`invisible_iff`).
-/

import OS391.ScreenBounds

namespace OS391

open Lib

/-! ### Characters on a page, one after the other -/

theorem putCell_attrib (v : ℤ → UInt8) (b j k : ℤ) (c : UInt8) :
    putCell v (b + 2 * k) c (b + 2 * j + 1) = if j = k then attrib else v (b + 2 * j + 1) := by
  unfold putCell
  split_ifs with h
  · rw [h, Function.update_self]
  · rw [Function.update_of_ne (by omega), Function.update_of_ne (by omega)]

theorem clearCells_blank (v : ℤ → UInt8) (b idx : ℤ) {n k : ℕ} (h : k < n) :
    clearCells v b idx n (b + 2 * (idx + k)) = 32 := by
  induction n with
  | zero => omega
  | succ n ih =>
    rw [clearCells, putCell]
    by_cases hk : k = n
    · rw [hk, Function.update_of_ne (by omega), Function.update_self]
    · rw [Function.update_of_ne (by omega), Function.update_of_ne (by omega)]
      exact ih (by omega)

/-- The first character of a text is output on the page: the cursor is on it, or there is no
character, or it is a newline, or a tab from the column before the page. -/
def StartsOnPage (x y : ℤ) (c : Option UInt8) : Prop :=
  0 < y ∨ 0 ≤ x ∨ c = none ∨ c = some 10 ∨ c = some 13 ∨ c = some 9 ∧ x = -1

namespace Pane

variable {p : Pane} {b j : ℤ} {c : UInt8} {cs : List UInt8}

/-- Characters without backspaces, from a cursor on the page. -/
theorem foldl_putc_inPage (h : InPage True p.x p.y) (hplain : (8 : UInt8) ∉ cs) :
    WritesIn 4000 b p.video (cs.foldl (fun p c => p.putc b c) p).video := by
  induction cs generalizing p with
  | nil => exact WritesIn.refl _ _ _
  | cons c cs ih =>
    obtain ⟨hc, hplain⟩ := List.ne_and_not_mem_of_not_mem_cons hplain
    obtain ⟨hwrites, hin⟩ := putc_inPage (b := b) (c := c) h fun _ h => absurd h.symm hc
    exact (hwrites trivial).trans (ih hin hplain)

/-- A page that is not full is not rolled up. -/
theorem start_eq (h : numCols * p.y + p.x < numCols * numRows) : p.start b = p :=
  if_neg (Int.not_le.mpr h)

/-- The first row of a page is not the last. -/
theorem start_first (hy : p.y = 0) (hx : p.x < 0) : p.start b = p := by
  refine start_eq ?_
  rw [hy, numCols, numRows]
  omega

/-- A newline before the page leads to the second row. -/
theorem putc_return (hy : p.y = 0) (hx : p.x < 0) (hc : c = 10 ∨ c = 13) :
    WritesIn 4000 b p.video (p.putc b c).video ∧ InPage True (p.putc b c).x (p.putc b c).y := by
  rw [putc_newline p b hc, start_first hy hx]
  have hin : InPage True 0 (p.y + 1) :=
    ⟨⟨by decide, by decide, by omega, by omega, by omega⟩, by omega⟩
  exact ⟨WritesIn.refl _ _ _, hin⟩

/-- A tab before the page is four spaces. -/
theorem putc_tab_first (hy : p.y = 0) (hx : p.x < 0) :
    p.putc b 9 = (((p.space b).space b).space b).space b := by
  unfold Pane.putc
  rw [start_first hy hx]
  rfl

/-- A tab from the column before the page leads to the first cell. -/
theorem putc_tab (h : Wrapped p.x p.y) (hy : p.y = 0) (hx : p.x = -1) (hc : c = 9) :
    WritesIn 4000 b p.video (p.putc b c).video ∧ InPage True (p.putc b c).x (p.putc b c).y := by
  have hspace : (True → WritesIn 4000 b p.video (p.space b).video) ∧
      InPage True (p.space b).x (p.space b).y :=
    space_spec h (fun _ _ => Int.le_of_eq hx.symm) fun _ => WritesIn.refl _ _ _
  obtain ⟨h₁, hin₁⟩ := hspace
  obtain ⟨h₂, hin₂⟩ := space_inPage hin₁ h₁
  obtain ⟨h₃, hin₃⟩ := space_inPage hin₂ h₂
  obtain ⟨h₄, hin₄⟩ := space_inPage hin₃ h₃
  rw [hc, putc_tab_first hy (by omega)]
  exact ⟨h₄ trivial, hin₄⟩

/-- **Characters that start on the page** stay there. -/
theorem foldl_putc_writesIn (h : Wrapped p.x p.y) (hplain : (8 : UInt8) ∉ cs)
    (hstart : StartsOnPage p.x p.y cs.head?) :
    WritesIn 4000 b p.video (cs.foldl (fun p c => p.putc b c) p).video := by
  by_cases hon : 0 < p.y ∨ 0 ≤ p.x
  · exact foldl_putc_inPage ⟨h, fun _ hy => by omega⟩ hplain
  have hy : p.y = 0 := by
    have := h.top
    omega
  have hx : p.x < 0 := by omega
  cases cs with
  | nil => exact WritesIn.refl _ _ _
  | cons c cs =>
    obtain ⟨hc, hplain⟩ := List.ne_and_not_mem_of_not_mem_cons hplain
    have hfirst : (WritesIn 4000 b p.video (p.putc b c).video) ∧
        InPage True (p.putc b c).x (p.putc b c).y := by
      have hroll := start_first (b := b) hy hx
      obtain h0 | h0 | h0 | h10 | h13 | ⟨h9, hcolumn⟩ := hstart
      · omega
      · omega
      · exact nomatch h0
      · exact putc_return hy hx (Or.inl (Option.some.inj h10))
      · exact putc_return hy hx (Or.inr (Option.some.inj h13))
      · exact putc_tab h hy hcolumn (Option.some.inj h9)
    exact hfirst.1.trans (foldl_putc_inPage hfirst.2 hplain)

theorem draw_attrib_eq (p : Pane) (b j : ℤ) (c : UInt8) : (p.draw b c).video (b + 2 * j + 1) =
    if j = numCols * p.y + p.x then attrib else p.video (b + 2 * j + 1) :=
  putCell_attrib _ _ _ _ _

/-- The attribute of a cell before the page stays once it is there. -/
theorem draw_attrib (h : p.video (b + 2 * j + 1) = attrib) (c : UInt8) :
    (p.draw b c).video (b + 2 * j + 1) = attrib := by
  rw [draw_attrib_eq, h, ite_self]

theorem space_attrib (h : p.video (b + 2 * j + 1) = attrib) :
    (p.space b).video (b + 2 * j + 1) = attrib :=
  draw_attrib (p := p.moveTo (p.x + 1)) h 32

theorem putc_attrib (hj : j < 0) (h : p.video (b + 2 * j + 1) = attrib) (c : UInt8) :
    (p.putc b c).video (b + 2 * j + 1) = attrib := by
  have hstart : (p.start b).video (b + 2 * j + 1) = attrib := by
    rw [(p.start_spec b).1 _ (by omega), h]
  unfold Pane.putc
  dsimp only
  split_ifs
  · exact draw_attrib (p := (p.start b).moveTo _) hstart 32
  · exact space_attrib (space_attrib (space_attrib (space_attrib hstart)))
  · exact hstart
  · exact draw_attrib hstart c

theorem foldl_putc_attrib (hj : j < 0) (h : p.video (b + 2 * j + 1) = attrib) :
    (cs.foldl (fun p c => p.putc b c) p).video (b + 2 * j + 1) = attrib := by
  induction cs generalizing p with
  | nil => exact h
  | cons c cs ih => exact ih (putc_attrib hj h c)

/-- **Characters that do not start on the page** leave an attribute before it. -/
theorem foldl_putc_before (h : Wrapped p.x p.y) (hplain : (8 : UInt8) ∉ cs)
    (hstart : ¬ StartsOnPage p.x p.y cs.head?) : ∃ j, -80 < j ∧ j < 0 ∧
      (cs.foldl (fun p c => p.putc b c) p).video (b + 2 * j + 1) = attrib := by
  simp only [StartsOnPage, not_or, not_and] at hstart
  obtain ⟨hrow, hcolumn, hsome, h10, h13, h9⟩ := hstart
  have hy : p.y = 0 := by
    have := h.top
    omega
  have hx : p.x < 0 := by omega
  have hleft := h.left
  cases cs with
  | nil => exact absurd rfl hsome
  | cons c cs =>
    obtain ⟨hc, -⟩ := List.ne_and_not_mem_of_not_mem_cons hplain
    have hroll := start_first (b := b) hy hx
    have hdraw (q : Pane) (hq : q.y = 0) (c : UInt8) :
        (q.draw b c).video (b + 2 * q.x + 1) = attrib := by
      rw [draw_attrib_eq, hq, if_pos (by omega)]
    by_cases htab : c = 9
    · have hne : p.x ≠ -1 := h9 (congrArg some htab)
      have hmove : p.moveTo (p.x + 1) = { p with x := p.x + 1, y := 0 } := by
        rw [moveTo_eq p (by omega) (by omega) h.top h.bottom, if_neg (by omega), hy]
        rfl
      refine ⟨p.x + 1, by omega, by omega, foldl_putc_attrib (p := p.putc b c)
        (by omega) ?_⟩
      rw [htab, putc_tab_first hy hx]
      refine space_attrib (space_attrib (space_attrib ?_))
      have hfirst := hdraw (p.moveTo (p.x + 1)) (congrArg Pane.y hmove) 32
      rwa [congrArg Pane.x hmove] at hfirst
    · refine ⟨p.x, hleft, hx, foldl_putc_attrib (p := p.putc b c) hx ?_⟩
      have hplain : p.putc b c = (p.draw b c).moveTo (p.x + 1) := by
        unfold Pane.putc
        rw [hroll]
        have hnew : ¬ (c = 10 ∨ c = 13) := by
          rintro (rfl | rfl)
          · exact h10 rfl
          · exact h13 rfl
        exact (if_neg (Ne.symm hc)).trans ((if_neg htab).trans (if_neg hnew))
      rw [hplain]
      exact hdraw p hy c

end Pane

/-! ### The loop of a write in the background -/

/-- The first byte that is output. -/
def firstByte (buf : ℕ → UInt8) (n : ℕ) : Option UInt8 :=
  ((List.range n).map buf).find? (· ≠ 0)

theorem firstByte_succ (buf : ℕ → UInt8) (n : ℕ) : firstByte buf (n + 1) =
    (firstByte buf n).or (if buf n = 0 then none else some (buf n)) := by
  unfold firstByte
  rw [List.range_succ, List.map_append, List.find?_append]
  by_cases hzero : buf n = 0 <;> simp [hzero]

/-- `t` differs from `s` at most in terminal `idx` and its page, and in the counters. -/
structure Console.Behind (idx : ℕ) (s t : Console) : Prop where
  num : t.terminalNum = s.terminalNum
  x : t.screenX = s.screenX
  y : t.screenY = s.screenY
  others : ∀ k, k ≠ idx → t.terminal k = s.terminal k
  catFlag : t.catFlag = s.catFlag

namespace Console

variable {s t u : Console} {idx : ℕ}

theorem Behind.refl (idx : ℕ) (s : Console) : Behind idx s s := ⟨rfl, rfl, rfl, fun _ _ => rfl, rfl⟩

theorem Behind.trans (h : Behind idx s t) (h' : Behind idx t u) : Behind idx s u :=
  ⟨h'.num.trans h.num, h'.x.trans h.x, h'.y.trans h.y,
    fun k hk => (h'.others k hk).trans (h.others k hk), h'.catFlag.trans h.catFlag⟩

theorem behind_withBackground (s : Console) (idx : ℕ) (p : Pane) :
    Behind idx s (s.withBackground idx p) :=
  ⟨rfl, rfl, rfl, fun _ hk => Function.update_of_ne hk _ _, rfl⟩

end Console

namespace Kernel

variable {s : Kernel} {c : UInt8} {buf : ℕ → UInt8} {n : ℕ}

/-- The page and the saved cursor of the terminal whose process runs. -/
def scheduledPane (s : Kernel) : Pane := s.console.backgroundPane s.scheduleIdx

/-- `t` is `s` after the characters `cs` output in the background. -/
structure Outputs (s : Kernel) (cs : List UInt8) (t : Kernel) : Prop where
  idx : t.scheduleIdx = s.scheduleIdx
  behind : Console.Behind s.scheduleIdx s.console t.console
  pane : t.scheduledPane =
    cs.foldl (fun p c => p.putc (pageAddr s.scheduleIdx) c) s.scheduledPane

theorem Outputs.refl (s : Kernel) : Outputs s [] s := ⟨rfl, .refl _ _, rfl⟩

theorem Outputs.trans {t u : Kernel} {cs ds : List UInt8} (h : Outputs s cs t)
    (h' : Outputs t ds u) : Outputs s (cs ++ ds) u := by
  refine ⟨h'.idx.trans h.idx, ?_, ?_⟩
  · have hbehind := h'.behind
    rw [h.idx] at hbehind
    exact h.behind.trans hbehind
  · rw [h'.pane, h.pane, h.idx, List.foldl_append]

/-- A character in the background. -/
theorem emit_outputs (hback : s.scheduleIdx ≠ s.console.terminalNum) (c : UInt8) :
    Outputs s [c] (s.emit c) := by
  have hemit : (s.emit c).console = s.console.backgroundPutc c s.scheduleIdx := if_pos hback
  rw [Console.backgroundPutc_eq] at hemit
  refine ⟨rfl, ?_, ?_⟩
  · rw [hemit]
    exact Console.behind_withBackground _ _ _
  · unfold scheduledPane
    rw [hemit]
    exact Console.backgroundPane_withBackground

/-- The counters are no output. -/
theorem outputs_modifyConsole {f : Console → Console}
    (hf : ∀ t : Console, Console.Behind s.scheduleIdx t (f t) ∧
      (f t).backgroundPane s.scheduleIdx = t.backgroundPane s.scheduleIdx) :
    Outputs s [] (s.modifyConsole f) :=
  ⟨rfl, (hf _).1, (hf _).2⟩

/-- Whoever is in the background stays there. -/
theorem Outputs.background {t : Kernel} {cs : List UInt8} (h : Outputs s cs t)
    (hback : s.scheduleIdx ≠ s.console.terminalNum) : t.scheduleIdx ≠ t.console.terminalNum := by
  rw [h.idx, h.behind.num]
  exact hback

/-- The counters are moved on, and the character is output. -/
theorem emit_count_outputs (hback : s.scheduleIdx ≠ s.console.terminalNum) (c : UInt8) :
    Outputs s [c] ((s.modifyConsole fun t =>
      { t with bytesWritten := t.bytesWritten + 1, lineCt := t.lineCt + 1 }).emit c) := by
  have hcount : Outputs s [] (s.modifyConsole fun t =>
      { t with bytesWritten := t.bytesWritten + 1, lineCt := t.lineCt + 1 }) :=
    outputs_modifyConsole fun _ => ⟨⟨rfl, rfl, rfl, fun _ _ => rfl, rfl⟩, rfl⟩
  exact hcount.trans (emit_outputs (hcount.background hback) c)

theorem outputs_lineCt (s : Kernel) :
    Outputs s [] (s.modifyConsole fun t => { t with lineCt := 0 }) :=
  outputs_modifyConsole fun _ => ⟨⟨rfl, rfl, rfl, fun _ _ => rfl, rfl⟩, rfl⟩

theorem turn_plain (s : Kernel) {c : UInt8} (hc : c ≠ 8) : (8 : UInt8) ∉ s.turn c := by
  unfold turn
  split_ifs <;> simp [Ne.symm hc]

/-- **One turn** of the loop. -/
theorem writeByte_outputs (hback : s.scheduleIdx ≠ s.console.terminalNum) (c : UInt8) :
    Outputs s (s.turn c) (s.writeByte c) := by
  have hcase := s.writeByte_cases c
  generalize s.turn c = cs at hcase ⊢
  generalize s.writeByte c = t at hcase ⊢
  cases hcase with
  | nul => exact .refl s
  | wrap =>
    have hline := (emit_outputs hback 10).trans (outputs_lineCt _)
    exact hline.trans (emit_count_outputs (hline.background hback) c)
  | newline =>
    have hzero := outputs_lineCt s
    exact hzero.trans (emit_count_outputs (hzero.background hback) c)
  | plain => exact emit_count_outputs hback c

/-- **The loop** outputs a text that starts with the first byte that is not `0`. -/
theorem writeBytes_outputs (hback : s.scheduleIdx ≠ s.console.terminalNum)
    (hline : s.console.lineCt ≠ rowLim) (hplain : ∀ i < n, buf i ≠ 8) :
    ∃ cs, Outputs s cs (s.writeBytes buf n) ∧ (8 : UInt8) ∉ cs ∧ cs.head? = firstByte buf n ∧
      (cs = [] → (s.writeBytes buf n).console.lineCt = s.console.lineCt) := by
  induction n with
  | zero => exact ⟨[], .refl s, List.not_mem_nil, rfl, fun _ => rfl⟩
  | succ n ih =>
    obtain ⟨cs, hout, hcs, hfirst, hct⟩ := ih fun i hi => hplain i (by omega)
    set t := s.writeBytes buf n with ht
    have hnext : s.writeBytes buf (n + 1) = t.writeByte (buf n) := rfl
    have hturn := hout.trans (writeByte_outputs (hout.background hback) (buf n))
    rw [hnext, firstByte_succ, ← hfirst]
    by_cases hzero : buf n = 0
    · rw [hzero, writeByte_zero, if_pos rfl, Option.or_none]
      exact ⟨cs, hout, hcs, rfl, hct⟩
    · refine ⟨cs ++ t.turn (buf n), hturn, ?_, ?_, ?_⟩
      · rw [List.mem_append, not_or]
        exact ⟨hcs, t.turn_plain (hplain n (by omega))⟩
      · rw [List.head?_append, if_neg hzero]
        cases cs with
        | cons d cs => rfl
        | nil =>
          -- nothing was output yet, so no line is full
          have hroom : ¬ (t.console.lineCt = rowLim ∧ buf n ≠ 10) := by
            rintro ⟨hfull, -⟩
            exact hline ((hct rfl).symm.trans hfull)
          rw [turn, if_neg hzero, if_neg hroom]
          rfl
      · intro hnil
        have hempty := (List.append_eq_nil_iff.mp hnil).2
        rw [turn, if_neg hzero] at hempty
        split_ifs at hempty

end Kernel

/-! ### The newlines at the end -/

namespace Console

/-- The screen rolls up before the next character. -/
def Full (t : Console) : Prop := 2000 ≤ 80 * t.screenY + t.screenX

/-- **A newline on the screen** moves the cursor to the next row, or rolls the screen up and
leaves the last row blank. -/
theorem putc_newline_cases (t : Console) :
    t.Full ∧ (t.putc 10).screenX = 0 ∧ (t.putc 10).screenY = 25 ∧
        (t.putc 10).video (videoBase + 3840) = 32 ∨
      ¬ t.Full ∧ (t.putc 10).screenX = 0 ∧ (t.putc 10).screenY = t.screenY + 1 := by
  rw [putc_eq t (by decide), Pane.putc_newline _ _ (Or.inl rfl)]
  by_cases hfull : t.Full
  · have hroll : t.pane.start videoBase =
        { video := clearCells (scrollCells t.video videoBase 1920) videoBase
            ((numRows - 1) * numCols) 80
          x := 0
          y := numRows - 1 } := if_pos hfull
    have hlast : videoBase + 3840 = videoBase + 2 * ((numRows - 1) * numCols + (0 : ℕ)) := rfl
    have hblank := clearCells_blank (scrollCells t.video videoBase 1920) videoBase
      ((numRows - 1) * numCols) (k := 0) (n := 80) (by decide)
    rw [hroll, hlast]
    generalize clearCells (scrollCells t.video videoBase 1920) videoBase
      ((numRows - 1) * numCols) 80 = v at hblank ⊢
    exact Or.inl ⟨hfull, rfl, rfl, hblank⟩
  · have hkeep : t.pane.start videoBase = t.pane := if_neg hfull
    rw [hkeep]
    exact Or.inr ⟨hfull, rfl, rfl⟩

end Console

namespace Kernel

variable {s : Kernel} {buf : ℕ → UInt8}

/-- `terminal_write` adds a newline: after `exit`, or after what a `cat` prints. -/
def AddsNewline (s : Kernel) (buf : ℕ → UInt8) : Prop :=
  startsWith buf "exit" 5 = true ∨
    s.console.catFlag s.scheduleIdx = true ∧ startsWith buf "391OS> " 9 = false

theorem writeTail_quiet (h : ¬ s.AddsNewline buf) : (s.writeTail buf).console =
    { s.console with
      helloFlag := startsWith buf "Hello, " 8
      catFlag := Function.update s.console.catFlag s.scheduleIdx false } := by
  obtain ⟨hexit, hcat⟩ := not_or.mp h
  unfold writeTail modifyConsole
  dsimp only
  rw [if_neg hexit]
  exact if_neg fun hnew => hcat ⟨hnew.1, Bool.eq_false_iff.mpr hnew.2⟩

/-- The last newline is on the screen as it was, or after one other newline. -/
theorem writeTail_last (h : s.AddsNewline buf) :
    ∃ t : Console, t.screenX = s.console.screenX ∧ t.screenY = s.console.screenY ∧
      ∃ u, (u = t ∨ u = t.putc 10) ∧
        (s.writeTail buf).console.video = (u.putc 10).video ∧
        (s.writeTail buf).console.screenX = (u.putc 10).screenX ∧
        (s.writeTail buf).console.screenY = (u.putc 10).screenY := by
  set t : Console := { s.console with helloFlag := startsWith buf "Hello, " 8 } with ht
  refine ⟨t, rfl, rfl, ?_⟩
  unfold writeTail modifyConsole
  dsimp only
  by_cases hexit : startsWith buf "exit" 5 = true
  · rw [if_pos hexit]
    by_cases hcat : (t.putc 10).catFlag s.scheduleIdx = true ∧ ¬ startsWith buf "391OS> " 9 = true
    · rw [if_pos hcat]
      exact ⟨t.putc 10, Or.inr rfl, rfl, rfl, rfl⟩
    · rw [if_neg hcat]
      exact ⟨t, Or.inl rfl, rfl, rfl, rfl⟩
  · have hcat : t.catFlag s.scheduleIdx = true ∧ ¬ startsWith buf "391OS> " 9 = true := by
      obtain hexit' | ⟨hflag, hprompt⟩ := h
      · exact absurd hexit' hexit
      · exact ⟨hflag, Bool.eq_false_iff.mp hprompt⟩
    rw [if_neg hexit, if_pos hcat]
    exact ⟨t, Or.inl rfl, rfl, rfl, rfl⟩

/-- A newline that leaves the cursor where it was has rolled the screen up. -/
theorem writeTail_noisy (h : s.AddsNewline buf)
    (hx : (s.writeTail buf).console.screenX = s.console.screenX)
    (hy : (s.writeTail buf).console.screenY = s.console.screenY) :
    (s.writeTail buf).console.video (videoBase + 3840) = 32 := by
  obtain ⟨t, htx, hty, u, hu, hvideo, hux, huy⟩ := writeTail_last h
  rw [hux, ← htx] at hx
  rw [huy, ← hty] at hy
  rw [hvideo]
  obtain ⟨-, -, -, hblank⟩ | ⟨hroom, -, hrow⟩ := u.putc_newline_cases
  · exact hblank
  obtain rfl | rfl := hu
  · omega
  · unfold Console.Full at hroom
    obtain ⟨-, hx₁, hy₁, -⟩ | ⟨-, -, hy₁⟩ := t.putc_newline_cases <;> omega

end Kernel

/-! ### A write in the background -/

/-- Nothing but terminal `idx` and its page is changed. -/
structure Invisible (idx : ℕ) (s t : Console) : Prop where
  visible : SameWindow 4096 t.video videoBase s.video videoBase
  x : t.screenX = s.screenX
  y : t.screenY = s.screenY
  pages : ∀ k < 3, k ≠ idx → SameWindow 4096 t.video (pageAddr k) s.video (pageAddr k)
  cursors : ∀ k < 3, k ≠ idx → (t.terminal k).saveX = (s.terminal k).saveX ∧
    (t.terminal k).saveY = (s.terminal k).saveY

namespace Kernel

/-- The same state with other contents of video memory. -/
def withVideo (s : Kernel) (v : ℤ → UInt8) : Kernel :=
  s.modifyConsole fun c => { c with video := v }

/-- The write is refused, or adds no newline and starts on the page of its terminal. -/
def WritesQuietly (s : Kernel) (fd : ℤ) (nonNull : Bool) (buf : ℕ → UInt8) (n : ℤ) : Prop :=
  (nonNull = false ∨ n < 0 ∨ fd > 1) ∨
    ¬ s.AddsNewline buf ∧ StartsOnPage (s.console.terminal s.scheduleIdx).saveX
      (s.console.terminal s.scheduleIdx).saveY (firstByte buf n.toNat)

variable {s : Kernel} {fd n : ℤ} {nonNull : Bool} {buf : ℕ → UInt8}

/-- A write that is not refused: the text is output, and then the tail runs. -/
theorem terminalWrite_outputs (hback : s.scheduleIdx ≠ s.console.terminalNum)
    (hplain : ∀ i < n.toNat, buf i ≠ 8) (haccepted : ¬ (nonNull = false ∨ n < 0 ∨ fd > 1)) :
    ∃ cs t, Outputs s cs t ∧ (8 : UInt8) ∉ cs ∧ cs.head? = firstByte buf n.toNat ∧
      (s.terminalWrite fd nonNull buf n).2 = t.writeTail buf := by
  set start := (s.modifyConsole fun c => { c with bytesWritten := 0, lineCt := 0 }).writeHead buf
    with hstart
  have hhead : Outputs s [] start := by
    have hzero :
        Outputs s [] (s.modifyConsole fun c => { c with bytesWritten := 0, lineCt := 0 }) :=
      outputs_modifyConsole fun _ => ⟨⟨rfl, rfl, rfl, fun _ _ => rfl, rfl⟩, rfl⟩
    refine hzero.trans (outputs_modifyConsole fun t => ?_)
    split_ifs <;> exact ⟨⟨rfl, rfl, rfl, fun _ _ => rfl, rfl⟩, rfl⟩
  have hline : start.console.lineCt ≠ rowLim := by
    rw [hstart]
    unfold writeHead modifyConsole
    dsimp only
    have hseven : (7 : ℤ) ≠ rowLim := by decide
    have hzero : (0 : ℤ) ≠ rowLim := by decide
    split_ifs <;> assumption
  obtain ⟨cs, hout, hcs, hfirst, -⟩ := writeBytes_outputs (hhead.background hback) hline hplain
  exact ⟨cs, _, hhead.trans hout, hcs, hfirst, congrArg Prod.snd (if_neg haccepted)⟩

/-- The text changes nothing that the newline after it depends on. -/
theorem Outputs.addsNewline_iff {cs : List UInt8} {t : Kernel} (h : Outputs s cs t) :
    t.AddsNewline buf ↔ s.AddsNewline buf := by
  unfold AddsNewline
  rw [h.behind.catFlag, h.idx]

/-- A text that starts on the page, and no newline after it. -/
theorem Outputs.invisible {cs : List UInt8} {t : Kernel} (h : Outputs s cs t)
    (hcursor : Wrapped (s.console.terminal s.scheduleIdx).saveX
      (s.console.terminal s.scheduleIdx).saveY) (hplain : (8 : UInt8) ∉ cs)
    (hstart : StartsOnPage (s.console.terminal s.scheduleIdx).saveX
      (s.console.terminal s.scheduleIdx).saveY cs.head?) (hquiet : ¬ t.AddsNewline buf) :
    Invisible s.scheduleIdx s.console (t.writeTail buf).console := by
  have hwrites : WritesIn 4000 (pageAddr s.scheduleIdx) s.console.video t.console.video := by
    have hpage := Pane.foldl_putc_writesIn (p := s.scheduledPane) (b := pageAddr s.scheduleIdx)
      hcursor hplain hstart
    rwa [← h.pane] at hpage
  rw [writeTail_quiet hquiet]
  refine ⟨?_, h.behind.x, h.behind.y, fun k _ hne => ?_, fun k _ hne => ?_⟩
  · exact sameWindow_of_apart hwrites (Or.inl (videoBase_apart s.scheduleIdx))
  · refine sameWindow_of_apart hwrites ((pageAddr_apart hne).imp id fun hle => ?_)
    omega
  · have hsame := h.behind.others k hne
    exact ⟨congrArg Terminal.saveX hsame, congrArg Terminal.saveY hsame⟩

/-- A text that starts before the page shows on blank memory. -/
theorem Outputs.not_invisible {cs : List UInt8} {t : Kernel} (h : Outputs s cs t)
    (hidx : s.scheduleIdx < 3) (hblank : s.console.video = fun _ => 0)
    (hcursor : Wrapped (s.console.terminal s.scheduleIdx).saveX
      (s.console.terminal s.scheduleIdx).saveY) (hplain : (8 : UInt8) ∉ cs)
    (hstart : ¬ StartsOnPage (s.console.terminal s.scheduleIdx).saveX
      (s.console.terminal s.scheduleIdx).saveY cs.head?) (hquiet : ¬ t.AddsNewline buf) :
    ¬ Invisible s.scheduleIdx s.console (t.writeTail buf).console := by
  rw [writeTail_quiet hquiet]
  intro hinvisible
  obtain ⟨j, hj, hj', hcell⟩ := Pane.foldl_putc_before (p := s.scheduledPane)
    (b := pageAddr s.scheduleIdx) hcursor hplain hstart
  rw [← h.pane] at hcell
  have hold : t.console.video (pageAddr s.scheduleIdx + 2 * j + 1) = 0 := by
    -- the cell is at the end of the page before
    by_cases hzero : s.scheduleIdx = 0
    · have hsame := hinvisible.visible (4096 + 2 * j + 1) (by omega) (by omega)
      rw [hblank] at hsame
      have haddr : videoBase + (4096 + 2 * j + 1) = pageAddr s.scheduleIdx + 2 * j + 1 := by
        unfold pageAddr
        omega
      rwa [haddr] at hsame
    · have hsame := hinvisible.pages (s.scheduleIdx - 1) (by omega) (by omega)
        (4096 + 2 * j + 1) (by omega) (by omega)
      rw [hblank] at hsame
      have haddr : pageAddr (s.scheduleIdx - 1) + (4096 + 2 * j + 1) =
          pageAddr s.scheduleIdx + 2 * j + 1 := by
        unfold pageAddr
        omega
      rwa [haddr] at hsame
  exact absurd (hcell.symm.trans hold) (by decide)

/-- **Output in the background is invisible** exactly when it is refused, or adds no newline
and starts on the page of its terminal. -/
theorem invisible_iff (hback : s.scheduleIdx ≠ s.console.terminalNum) (hidx : s.scheduleIdx < 3)
    (hcursor : Wrapped (s.console.terminal s.scheduleIdx).saveX
      (s.console.terminal s.scheduleIdx).saveY) (hplain : ∀ i < n.toNat, buf i ≠ 8) :
    (∀ v, Invisible s.scheduleIdx (s.withVideo v).console
        ((s.withVideo v).terminalWrite fd nonNull buf n).2.console) ↔
      s.WritesQuietly fd nonNull buf n := by
  constructor
  · intro hinvisible
    by_contra hnoise
    obtain ⟨haccepted, hloud⟩ := not_or.mp hnoise
    -- what is written shows on blank memory
    have hblank := hinvisible fun _ => 0
    set b := s.withVideo fun _ => 0 with hb
    obtain ⟨cs, t, hout, hcs, hfirst, hwrite⟩ :=
      terminalWrite_outputs (s := b) hback hplain haccepted
    rw [hwrite] at hblank
    by_cases hadds : s.AddsNewline buf
    · have hadds' : t.AddsNewline buf := hout.addsNewline_iff.mpr hadds
      have hrow := writeTail_noisy hadds' (hblank.x.trans hout.behind.x.symm)
        (hblank.y.trans hout.behind.y.symm)
      rw [hblank.visible 3840 (by decide) (by decide)] at hrow
      exact absurd hrow (show (0 : UInt8) ≠ 32 by decide)
    · have hadds' : ¬ t.AddsNewline buf := fun ht => hadds (hout.addsNewline_iff.mp ht)
      refine hout.not_invisible hidx rfl hcursor hcs (fun hstart => hloud ⟨hadds, ?_⟩) hadds' hblank
      rwa [hfirst] at hstart
  · intro hquiet v
    by_cases hrefused : nonNull = false ∨ n < 0 ∨ fd > 1
    · have hwrite : ((s.withVideo v).terminalWrite fd nonNull buf n).2 =
          (s.withVideo v).modifyConsole fun c => { c with bytesWritten := 0, lineCt := 0 } :=
        congrArg Prod.snd (if_pos hrefused)
      rw [hwrite]
      exact ⟨.refl _ _ _, rfl, rfl, fun _ _ _ => .refl _ _ _, fun _ _ _ => ⟨rfl, rfl⟩⟩
    · obtain ⟨hadds, hstart⟩ := hquiet.resolve_left hrefused
      obtain ⟨cs, t, hout, hcs, hfirst, hwrite⟩ :=
        terminalWrite_outputs (s := s.withVideo v) hback hplain hrefused
      have hadds' : ¬ t.AddsNewline buf := fun ht => hadds (hout.addsNewline_iff.mp ht)
      rw [← hfirst] at hstart
      rw [hwrite]
      exact hout.invisible hcursor hcs hstart hadds'

/-- The second terminal's process runs while the first is visible. -/
def backgroundKernel : Kernel := { (default : Kernel) with scheduleIdx := 1 }

/-- A greeting. -/
def greeting (i : ℕ) : UInt8 := (ascii "hi".toList).getD i 0

/-- A greeting in the background is invisible. -/
theorem invisible_greeting : Invisible 1 (backgroundKernel.withVideo fun _ => 0).console
    ((backgroundKernel.withVideo fun _ => 0).terminalWrite 1 true greeting 2).2.console := by
  refine (invisible_iff (s := backgroundKernel) (by decide) (by decide) ?_ (by decide)).mpr
    (Or.inr ⟨?_, Or.inr (Or.inl (by decide))⟩) fun _ => 0
  · exact ⟨by decide, by decide, by decide, by decide, by decide⟩
  · rintro (hexit | ⟨hcat, -⟩)
    · exact absurd hexit (by decide)
    · exact absurd hcat (by decide)

/-- The program in the background is `cat`. -/
def catKernel : Kernel :=
  backgroundKernel.modifyConsole fun c => { c with catFlag := Function.update c.catFlag 1 true }

/-- What `cat` prints in the background moves the visible cursor. -/
theorem not_invisible_cat : catKernel.scheduleIdx ≠ catKernel.console.terminalNum ∧
    (∀ i < 2, greeting i ≠ 8) ∧
      ¬ Invisible 1 catKernel.console (catKernel.terminalWrite 1 true greeting 2).2.console := by
  refine ⟨by decide, by decide, fun hinvisible => ?_⟩
  have hrow := hinvisible.y
  revert hrow
  decide +kernel

end Kernel

end OS391
