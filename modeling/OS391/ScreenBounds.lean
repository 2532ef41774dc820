/-
# Where a character can go on its page

The cursor of a screen is kept in range by C's `%`, which leaves a column between `-79` and
`79`.  From a cleared screen on, a row above the first is never reached, and what is output
stays among the 2000 cells of its page, unless a backspace is output with the cursor in the
upper left corner: it goes to column `-1` of row `0`, which is before the page.
-/

import OS391.Lib.Transition
import OS391.Keyboard
import OS391.Screens
import OS391.TerminalIo

namespace OS391

open Lib

/-! ### A character and its cursor -/

/-- A cursor as `%` leaves it: below the last row it is in the first column. -/
structure Wrapped (x y : ℤ) : Prop where
  left : -80 < x
  right : x < 80
  top : 0 ≤ y
  bottom : y ≤ 25
  below : y = 25 → x = 0

/-- A wrapped cursor; if `safe`, it is not before the page either. -/
structure InPage (safe : Prop) (x y : ℤ) : Prop extends Wrapped x y where
  first : safe → y = 0 → 0 ≤ x

variable {safe : Prop}

theorem inPage_home : InPage safe 0 0 :=
  ⟨⟨by decide, by decide, by decide, by decide, by decide⟩, fun _ _ => Int.le_refl 0⟩

namespace Pane

variable {p : Pane} {b : ℤ} {v : ℤ → UInt8} {c : UInt8}

/-- Rolled up if it was full, the cursor is in a row of the page. -/
theorem start_wrapped (h : Wrapped p.x p.y) :
    Wrapped (p.start b).x (p.start b).y ∧ (p.start b).y ≤ 24 := by
  obtain ⟨_, hroom, ⟨hx, hy⟩ | ⟨hx, hy⟩⟩ := p.start_spec b
  · rw [hx, hy]
    exact ⟨⟨by decide, by decide, by decide, by decide, by decide⟩, Int.le_refl 24⟩
  · rw [hx, hy] at hroom ⊢
    have hbelow := h.below
    have hbottom := h.bottom
    exact ⟨h, by omega⟩

theorem start_inPage (h : InPage safe p.x p.y) : InPage safe (p.start b).x (p.start b).y := by
  refine ⟨(start_wrapped h.toWrapped).1, fun hsafe hfirst => ?_⟩
  obtain ⟨_, _, ⟨_, hy⟩ | ⟨hx, hy⟩⟩ := p.start_spec b
  · omega
  · rw [hx]
    exact h.first hsafe (hy ▸ hfirst)

/-- A move by one column, to the left or to the right. -/
theorem moveTo_wrapped (h : Wrapped p.x p.y) {x : ℤ} (hx : -80 ≤ x) (hx' : x ≤ 80) :
    Wrapped (p.moveTo x).x (p.moveTo x).y ∧ (p.moveTo x).y ≤ 24 := by
  obtain ⟨hleft, hright, htop, hbottom, -⟩ := h
  rw [moveTo_eq p hx hx' htop hbottom]
  dsimp only
  refine ⟨⟨?_, ?_, ?_, ?_, ?_⟩, ?_⟩ <;> split_ifs <;> omega

theorem moveTo_inPage (h : Wrapped p.x p.y) {x : ℤ} (hx : -80 ≤ x) (hx' : x ≤ 80)
    (hfirst : safe → p.y = 0 ∨ p.y = 25 → 0 ≤ x) : InPage safe (p.moveTo x).x (p.moveTo x).y := by
  refine ⟨(moveTo_wrapped h hx hx').1, fun hsafe => ?_⟩
  have hfirst := hfirst hsafe
  rw [moveTo_eq p hx hx' h.top h.bottom]
  dsimp only
  split_ifs <;> omega

/-- A character at a cursor in a row of the page. -/
theorem draw_inPage (h : InPage safe p.x p.y) (hrow : p.y ≤ 24)
    (hw : safe → WritesIn 4000 b v p.video) (c : UInt8) :
    safe → WritesIn 4000 b v (p.draw b c).video := by
  intro hsafe
  have hw := hw hsafe
  have hfirst := h.first hsafe
  obtain ⟨hleft, hright, htop, -, -⟩ := h.toWrapped
  exact draw_writesIn hw (by omega) (by omega) c

/-- A space is drawn one column to the right. -/
theorem space_spec (h : Wrapped p.x p.y) (hfirst : safe → p.y = 0 → -1 ≤ p.x)
    (hw : safe → WritesIn 4000 b v p.video) :
    (safe → WritesIn 4000 b v (p.space b).video) ∧ InPage safe (p.space b).x (p.space b).y := by
  have hleft := h.left
  have hright := h.right
  have hmove : InPage safe (p.moveTo (p.x + 1)).x (p.moveTo (p.x + 1)).y := by
    have hbelow := h.below
    refine moveTo_inPage h (by omega) (by omega) fun hsafe => ?_
    have hfirst := hfirst hsafe
    omega
  have hrow := (moveTo_wrapped h (x := p.x + 1) (by omega) (by omega)).2
  exact ⟨draw_inPage hmove hrow hw 32, hmove⟩

theorem space_inPage (h : InPage safe p.x p.y) (hw : safe → WritesIn 4000 b v p.video) :
    (safe → WritesIn 4000 b v (p.space b).video) ∧ InPage safe (p.space b).x (p.space b).y :=
  space_spec h.toWrapped (fun hsafe hy => Int.le_trans (by decide) (h.first hsafe hy)) hw

theorem newline_inPage (h : InPage safe p.x p.y) (hrow : p.y ≤ 24) :
    InPage safe p.newline.x p.newline.y := by
  have htop := h.top
  unfold newline
  refine ⟨⟨?_, ?_, ?_, ?_, ?_⟩, ?_⟩ <;> dsimp only <;> omega

/-- **A character stays on its page,** unless it is a backspace in the first cell. -/
theorem putc_inPage (h : InPage safe p.x p.y) (hback : safe → c = 8 → p.y = 0 → 0 < p.x) :
    (safe → WritesIn 4000 b p.video (p.putc b c).video) ∧
      InPage safe (p.putc b c).x (p.putc b c).y := by
  obtain ⟨hpage, -, hpos⟩ := p.start_spec b
  have hstart := start_inPage (b := b) h
  have hrow := (start_wrapped (b := b) h.toWrapped).2
  unfold Pane.putc
  dsimp only
  set q := p.start b
  have hleft := hstart.left
  have hright := hstart.right
  have hpage (_ : safe) := hpage
  split_ifs with hbs htab hnew
  · have hcell : safe → q.y = 0 ∨ q.y = 25 → 0 ≤ q.x - 1 := fun hsafe => by
      have hfirst := hstart.first hsafe
      have hcorner := hback hsafe hbs
      omega
    have hmove := moveTo_inPage hstart.toWrapped (x := q.x - 1) (by omega) (by omega) hcell
    have hrow' := (moveTo_wrapped hstart.toWrapped (x := q.x - 1) (by omega) (by omega)).2
    exact ⟨draw_inPage hmove hrow' hpage 32, hmove⟩
  · obtain ⟨h₁, hin₁⟩ := space_inPage hstart hpage
    obtain ⟨h₂, hin₂⟩ := space_inPage hin₁ h₁
    obtain ⟨h₃, hin₃⟩ := space_inPage hin₂ h₂
    exact space_inPage hin₃ h₃
  · exact ⟨hpage, newline_inPage hstart hrow⟩
  · exact ⟨draw_inPage hstart hrow hpage c,
      moveTo_inPage (p := q.draw b c) hstart.toWrapped (by omega) (by omega) fun hsafe hrow => by
        have hfirst := hstart.first hsafe
        have hrow : q.y = 0 ∨ q.y = 25 := hrow
        omega⟩

theorem putc_newline (p : Pane) (b : ℤ) (h : c = 10 ∨ c = 13) :
    p.putc b c = (p.start b).newline := by
  have hback : c ≠ 8 := by
    rintro rfl
    exact absurd h (by decide)
  have htab : c ≠ 9 := by
    rintro rfl
    exact absurd h (by decide)
  unfold Pane.putc
  exact (if_neg hback).trans ((if_neg htab).trans (if_pos h))

/-- A backspace that ends in the first row was output there. -/
theorem putc_backspace_first (h : InPage safe p.x p.y) (hroom : p.y = 0 → 0 < p.x)
    (hend : (p.putc b 8).y = 0) : p.y = 0 ∧ (p.putc b 8).x = p.x - 1 := by
  have hputc : p.putc b 8 = ((p.start b).moveTo ((p.start b).x - 1)).draw b 32 := by
    unfold Pane.putc
    exact if_pos rfl
  obtain ⟨hleft, hright, htop, hbottom, -⟩ := (start_inPage (b := b) h).toWrapped
  rw [hputc, moveTo_eq _ (by omega) (by omega) htop hbottom] at hend ⊢
  have hrow := (start_wrapped (b := b) h.toWrapped).2
  have hfirst : (p.start b).y = 0 := by
    dsimp only [draw] at hend
    split_ifs at hend <;> omega
  obtain ⟨-, -, ⟨-, hy⟩ | ⟨hx, hy⟩⟩ := p.start_spec b
  · omega
  · refine ⟨hy ▸ hfirst, ?_⟩
    have hcolumn := hroom (hy ▸ hfirst)
    dsimp only [draw]
    rw [if_neg (by omega), hx]

end Pane

/-! ### Output at `VIDEO` -/

namespace Console

variable {s t u : Console} {c : UInt8}

/-- `t` is `s` after output at `VIDEO` that stays on the page. -/
structure Foreground (safe : Prop) (s t : Console) : Prop where
  writes : safe → WritesIn 4000 videoBase s.video t.video
  cursor : InPage safe t.screenX t.screenY
  num : t.terminalNum = s.terminalNum
  saved : ∀ k, (t.terminal k).saveX = (s.terminal k).saveX ∧
    (t.terminal k).saveY = (s.terminal k).saveY

theorem Foreground.refl (h : InPage safe s.screenX s.screenY) : s.Foreground safe s :=
  ⟨fun _ => WritesIn.refl _ _ _, h, rfl, fun _ => ⟨rfl, rfl⟩⟩

theorem Foreground.trans (h : s.Foreground safe t) (h' : t.Foreground safe u) :
    s.Foreground safe u :=
  ⟨fun hsafe => (h.writes hsafe).trans (h'.writes hsafe), h'.cursor, h'.num.trans h.num, fun k =>
    ⟨(h'.saved k).1.trans (h.saved k).1, (h'.saved k).2.trans (h.saved k).2⟩⟩

/-- A change of a terminal's buffer is no output. -/
theorem foreground_modifyTerminal (h : InPage safe s.screenX s.screenY) (k : ℕ)
    {f : Terminal → Terminal} (hf : ∀ m, (f m).saveX = m.saveX ∧ (f m).saveY = m.saveY) :
    s.Foreground safe (s.modifyTerminal k f) := by
  refine ⟨fun _ => WritesIn.refl _ _ _, h, rfl, fun j => ?_⟩
  by_cases hj : j = k
  · subst hj
    simpa [modifyTerminal] using hf (s.terminal j)
  · simp [modifyTerminal, Function.update_of_ne hj]

/-- One of the four spaces of a tab. -/
theorem putcTabSpace_foreground (h : InPage safe s.screenX s.screenY)
    (hmem : s.videoMem = videoBase) :
    s.Foreground safe s.putcTabSpace ∧ s.putcTabSpace.videoMem = videoBase := by
  obtain ⟨n, hspace⟩ := s.putcTabSpace_eq
  rw [hspace, hmem]
  by_cases hfull : s.rowLetterCt = 80
  · rw [if_pos hfull, if_pos hfull]
    have hstart := Pane.start_inPage (p := s.pane) (b := videoBase) h
    have hrow := (Pane.start_wrapped (p := s.pane) (b := videoBase) h.toWrapped).2
    obtain ⟨hwrites, hin⟩ := Pane.space_inPage (Pane.newline_inPage hstart hrow)
      fun _ => (s.pane.start_spec videoBase).1
    exact ⟨⟨hwrites, hin, rfl, fun _ => ⟨rfl, rfl⟩⟩, rfl⟩
  · rw [if_neg hfull, if_neg hfull]
    obtain ⟨hwrites, hin⟩ := Pane.space_inPage (p := s.pane) (b := videoBase) h
      fun _ => WritesIn.refl _ _ s.video
    exact ⟨⟨hwrites, hin, rfl, fun _ => ⟨rfl, rfl⟩⟩, rfl⟩

/-- **`putc` stays on the page at `VIDEO`,** unless it is a backspace in the first cell. -/
theorem putc_foreground (h : InPage safe s.screenX s.screenY)
    (hback : safe → c = 8 → s.screenY = 0 → 0 < s.screenX) : s.Foreground safe (s.putc c) := by
  by_cases htab : c = 9
  · subst htab
    have hstart : s.Foreground safe s.putcStart ∧ s.putcStart.videoMem = videoBase := by
      rw [putcStart_eq]
      exact ⟨⟨fun _ => (s.pane.start_spec videoBase).1, Pane.start_inPage (p := s.pane) h, rfl,
        fun _ => ⟨rfl, rfl⟩⟩, rfl⟩
    obtain ⟨h₀, hmem₀⟩ := hstart
    obtain ⟨h₁, hmem₁⟩ := putcTabSpace_foreground h₀.cursor hmem₀
    obtain ⟨h₂, hmem₂⟩ := putcTabSpace_foreground h₁.cursor hmem₁
    obtain ⟨h₃, hmem₃⟩ := putcTabSpace_foreground h₂.cursor hmem₂
    obtain ⟨h₄, -⟩ := putcTabSpace_foreground h₃.cursor hmem₃
    exact h₀.trans (h₁.trans (h₂.trans (h₃.trans h₄)))
  · obtain ⟨hwrites, hin⟩ := Pane.putc_inPage (p := s.pane) (b := videoBase) h hback
    rw [putc_eq s htab]
    exact ⟨hwrites, hin, rfl, fun _ => ⟨rfl, rfl⟩⟩

/-- A text without backspaces. -/
theorem printf_foreground (text : List UInt8) (h : InPage safe s.screenX s.screenY)
    (hplain : (8 : UInt8) ∉ text) : s.Foreground safe (s.printf text) := by
  induction text generalizing s with
  | nil => exact .refl h
  | cons c text ih =>
    obtain ⟨hc, hplain⟩ := List.ne_and_not_mem_of_not_mem_cons hplain
    have hputc := putc_foreground (c := c) h fun _ hback => absurd hback.symm hc
    exact hputc.trans (ih hputc.cursor hplain)

/-- As many backspaces as there are columns before the cursor in the first row. -/
theorem backspaces_foreground {n : ℕ} (h : InPage safe s.screenX s.screenY)
    (hroom : safe → s.screenY = 0 → n ≤ s.screenX) :
    s.Foreground safe ((List.replicate n 8).foldl putc s) := by
  induction n generalizing s with
  | zero => exact .refl h
  | succ n ih =>
    have hcolumn (hsafe : safe) (hy : s.screenY = 0) : 0 < s.screenX := by
      have hn := hroom hsafe hy
      omega
    have hputc := putc_foreground (c := 8) h fun hsafe _ => hcolumn hsafe
    have hfirst (hsafe : safe) : (s.putc 8).screenY = 0 → n ≤ (s.putc 8).screenX := by
      rw [putc_eq s (by decide)]
      intro hend
      obtain ⟨hy, hx⟩ := Pane.putc_backspace_first (p := s.pane) (b := videoBase) h
        (hcolumn hsafe) hend
      have hn := hroom hsafe hy
      have hx : (s.withPane (s.pane.putc videoBase 8)).screenX = s.screenX - 1 := hx
      omega
    exact hputc.trans (ih hputc.cursor hfirst)

theorem foreground_rowLetterCt (h : InPage safe s.screenX s.screenY) (n : UInt8) :
    s.Foreground safe { s with rowLetterCt := n } :=
  ⟨fun _ => WritesIn.refl _ _ _, h, rfl, fun _ => ⟨rfl, rfl⟩⟩

theorem storeKey_foreground (h : InPage safe s.screenX s.screenY) (c : UInt8) :
    s.Foreground safe (s.storeKey c) := by
  unfold storeKey
  split_ifs
  · exact foreground_modifyTerminal h _ fun _ => ⟨rfl, rfl⟩
  · exact .refl h

theorem dropKey_foreground (h : InPage safe s.screenX s.screenY) : s.Foreground safe s.dropKey := by
  have hrow := foreground_rowLetterCt h (s.rowLetterCt - 1)
  exact hrow.trans (foreground_modifyTerminal hrow.cursor s.terminalNum fun _ => ⟨rfl, rfl⟩)

theorem backspaceKey_foreground (h : InPage safe s.screenX s.screenY)
    (hroom : safe → s.visible.bufferCt ≠ 0 → s.screenY = 0 → s.lastColumns ≤ s.screenX) :
    s.Foreground safe s.backspaceKey := by
  unfold backspaceKey
  split_ifs with hct
  · have hbacks := backspaces_foreground h fun hsafe => hroom hsafe hct
    exact hbacks.trans (dropKey_foreground hbacks.cursor)
  · exact .refl h

theorem clear_foreground (s : Console) : s.Foreground safe s.clear :=
  ⟨fun _ => writesIn_clearCells (WritesIn.refl _ _ _) (by decide) (by decide),
    inPage_home, rfl, fun _ => ⟨rfl, rfl⟩⟩

end Console

/-! ### The keys -/

section Keys

variable {k : Keys} {t : Console} {scanCode : UInt8}

theorem wrapRow_foreground (h : InPage safe t.screenX t.screenY) :
    t.Foreground safe (wrapRow k t).2 := by
  unfold wrapRow
  split_ifs
  · have hline := Console.printf_foreground [10] h (by decide)
    exact hline.trans (Console.foreground_rowLetterCt hline.cursor 0)
  · exact .refl h

theorem symbolKey_foreground (h : InPage safe t.screenX t.screenY) {plain shifted : UInt8}
    (hplain : plain ≠ 8) (hshifted : shifted ≠ 8) :
    t.Foreground safe (symbolKey k t plain shifted).2 := by
  unfold symbolKey
  by_cases hrefuses : Refuses k t
  · rw [if_pos hrefuses]
    exact .refl h
  · rw [if_neg hrefuses]
    set c := if (wrapRow k t).1.shift = true then shifted else plain with hc
    have hwrap := wrapRow_foreground (k := k) h
    have hprint := Console.putc_foreground (c := c) hwrap.cursor fun _ hback => by
      rw [hc] at hback
      split_ifs at hback
      · exact absurd hback hshifted
      · exact absurd hback hplain
    have hstore := Console.storeKey_foreground hprint.cursor c
    exact hwrap.trans (hprint.trans (hstore.trans (Console.foreground_rowLetterCt hstore.cursor _)))

theorem printedChar_ne_backspace (k : Keys) (scanCode : UInt8) : printedChar k scanCode ≠ 8 :=
  printedChar_of_tables (P := (· ≠ 8)) (by decide) (by decide +kernel) (by decide +kernel) k
    scanCode

theorem printableKey_foreground (h : InPage safe t.screenX t.screenY) :
    t.Foreground safe (printableKey k t scanCode).2 := by
  unfold printableKey
  by_cases hrefuses : Refuses k t
  · rw [if_pos hrefuses]
    exact .refl h
  · rw [if_neg hrefuses]
    have hwrap := wrapRow_foreground (k := k) h
    have hrow := Console.foreground_rowLetterCt hwrap.cursor ((wrapRow k t).2.rowLetterCt + 1)
    have hstore := Console.storeKey_foreground hrow.cursor
      (printedChar (wrapRow k t).1 scanCode)
    exact hwrap.trans (hrow.trans (hstore.trans (Console.putc_foreground hstore.cursor
      fun _ hback => absurd hback (printedChar_ne_backspace _ _))))

theorem spaceKey_foreground (h : InPage safe t.screenX t.screenY) :
    t.Foreground safe (spaceKey k t).2 := by
  unfold spaceKey
  by_cases hrefuses : Refuses k t
  · rw [if_pos hrefuses]
    exact .refl h
  · rw [if_neg hrefuses]
    have hwrap := wrapRow_foreground (k := k) h
    have hprint := Console.printf_foreground [32] hwrap.cursor (by decide)
    have hrow := Console.foreground_rowLetterCt hprint.cursor
      (((wrapRow k t).2.printf [32]).rowLetterCt + 1)
    exact hwrap.trans (hprint.trans (hrow.trans (Console.storeKey_foreground hrow.cursor 32)))

theorem tabKey_foreground (h : InPage safe t.screenX t.screenY) :
    t.Foreground safe (tabKey k t) := by
  unfold tabKey
  split_ifs
  · exact .refl h
  · have hstore := Console.storeKey_foreground h 9
    exact hstore.trans (Console.putc_foreground hstore.cursor fun _ htab => absurd htab (by decide))

theorem enterKey_foreground (h : InPage safe t.screenX t.screenY) :
    t.Foreground safe (enterKey k t).2 := by
  have hready := Console.foreground_modifyTerminal (s := t) h t.terminalNum
    (f := fun m => { m with enterRead := true }) fun _ => ⟨rfl, rfl⟩
  have hline := Console.printf_foreground [10] hready.cursor (by decide)
  exact hready.trans (hline.trans (Console.foreground_rowLetterCt hline.cursor headerLen))

theorem clearKey_foreground (t : Console) : t.Foreground safe (clearKey t) := by
  have hblank : t.Foreground safe t.clear := t.clear_foreground
  have hrow := Console.foreground_rowLetterCt hblank.cursor headerLen
  exact hblank.trans (hrow.trans
    (Console.printf_foreground (ascii "391OS> ".toList) hrow.cursor (by decide +kernel)))

/-- **A key stays on the page at `VIDEO`,** unless it erases beyond the first cell. -/
theorem keyboardHandler_foreground (h : InPage safe t.screenX t.screenY)
    (hswitch : ¬ Switches k scanCode)
    (hroom : safe → Erases k t scanCode → t.screenY = 0 → t.lastColumns ≤ t.screenX) :
    t.Foreground safe (keyboardHandler k t scanCode).2 := by
  have hcases := keyboardHandler_cases k t scanCode
  generalize keyboardHandler k t scanCode = r at hcases ⊢
  cases hcases with
  | enter => exact enterKey_foreground h
  | switch next hnext hs => exact absurd hs hswitch
  | clear => exact clearKey_foreground t
  | flags k' => exact .refl h
  | backspace hcode hctrl halt =>
    exact Console.backspaceKey_foreground h fun hsafe hct => hroom hsafe ⟨hcode, hctrl, halt, hct⟩
  | space => exact spaceKey_foreground h
  | tab => exact tabKey_foreground h
  | symbol plain shifted hcode =>
    have hne : plain ≠ 8 ∧ shifted ≠ 8 := by
      revert hcode
      simp only [List.mem_cons, Prod.mk.injEq, List.not_mem_nil, or_false]
      rintro (⟨-, rfl, rfl⟩ | ⟨-, rfl, rfl⟩ | ⟨-, rfl, rfl⟩) <;> decide
    exact symbolKey_foreground h hne.1 hne.2
  | printable => exact printableKey_foreground h
  | ignored => exact .refl h

end Keys

/-! ### Output to any of the three -/

namespace Console

variable {s t u : Console} {idx : ℕ} {c : UInt8}

/-- One of the three is visible, and no cursor is before its page. -/
structure InPages (safe : Prop) (s : Console) : Prop where
  visible : s.terminalNum < 3
  cursors : ∀ k < 3, InPage safe (s.cursor k).1 (s.cursor k).2

/-- `t` is `s` after output to terminal `idx` that stays on its page. -/
structure OutputAt (safe : Prop) (idx : ℕ) (s t : Console) : Prop where
  writes : safe → WritesIn 4000 (s.screenAddr idx) s.video t.video
  num : t.terminalNum = s.terminalNum
  inPages : t.InPages safe

theorem OutputAt.trans (h : OutputAt safe idx s t) (h' : OutputAt safe idx t u) :
    OutputAt safe idx s u := by
  refine ⟨fun hsafe => ?_, h'.num.trans h.num, h'.inPages⟩
  have hwrites := h'.writes hsafe
  unfold screenAddr at hwrites
  rw [h.num] at hwrites
  exact (h.writes hsafe).trans hwrites

theorem InPages.screen (h : s.InPages safe) : InPage safe s.screenX s.screenY := by
  have hvisible := h.cursors _ h.visible
  rwa [Console.cursor, if_pos rfl] at hvisible

theorem Foreground.outputAt (h : s.Foreground safe t) (hs : s.InPages safe) :
    OutputAt safe s.terminalNum s t := by
  refine ⟨?_, h.num, h.num ▸ hs.visible, fun k hk => ?_⟩
  · rw [screenAddr, if_pos rfl]
    exact h.writes
  · have hold := hs.cursors k hk
    unfold Console.cursor at hold ⊢
    rw [h.num, (h.saved k).1, (h.saved k).2]
    split_ifs at hold ⊢
    · exact h.cursor
    · exact hold

/-- A change of the counters and flags is no output. -/
theorem outputAt_same (hs : s.InPages safe) (idx : ℕ) (hvideo : t.video = s.video)
    (hnum : t.terminalNum = s.terminalNum) (hcursor : ∀ k, t.cursor k = s.cursor k) :
    OutputAt safe idx s t :=
  ⟨fun _ => hvideo ▸ WritesIn.refl _ _ _, hnum, hnum ▸ hs.visible,
    fun k hk => (hcursor k).symm ▸ hs.cursors k hk⟩

theorem backgroundPutc_outputAt (hs : s.InPages safe) (hidx : idx < 3) (hback : idx ≠ s.terminalNum)
    (hroom : safe → c = 8 → (s.cursor idx).2 = 0 → 0 < (s.cursor idx).1) :
    OutputAt safe idx s (s.backgroundPutc c idx) := by
  have hcursor := hs.cursors idx hidx
  rw [Console.cursor, if_neg hback] at hcursor hroom
  obtain ⟨hwrites, hin⟩ := Pane.putc_inPage (p := s.backgroundPane idx) (b := pageAddr idx)
    hcursor hroom
  rw [backgroundPutc_eq]
  refine ⟨?_, rfl, hs.visible, fun k hk => ?_⟩
  · rw [screenAddr, if_neg hback]
    exact hwrites
  · have hold := hs.cursors k hk
    unfold Console.cursor at hold ⊢
    by_cases hk' : k = idx
    · subst hk'
      rw [if_neg (show k ≠ (s.withBackground k _).terminalNum from hback)]
      simpa [withBackground] using hin
    · have hterminal (p : Pane) : (s.withBackground idx p).terminal k = s.terminal k :=
        Function.update_of_ne hk' _ _
      rw [hterminal]
      exact hold

end Console

namespace Kernel

variable {s : Kernel} {c : UInt8}

/-- **A character of a program** stays on the page of its terminal. -/
theorem emit_outputAt (hs : s.console.InPages safe) (hidx : s.scheduleIdx < 3)
    (hroom : safe → c = 8 → (s.console.cursor s.scheduleIdx).2 = 0 →
      0 < (s.console.cursor s.scheduleIdx).1) :
    Console.OutputAt safe s.scheduleIdx s.console (s.emit c).console := by
  unfold emit modifyConsole
  dsimp only
  by_cases hback : s.scheduleIdx ≠ s.console.terminalNum
  · rw [if_pos hback]
    exact Console.backgroundPutc_outputAt hs hidx hback hroom
  · have hnum := not_ne_iff.mp hback
    rw [if_neg hback, hnum]
    rw [hnum, Console.cursor, if_pos rfl] at hroom
    exact (Console.putc_foreground hs.screen hroom).outputAt hs

/-- After a newline the cursor is not in the first row. -/
theorem emit_newline_row (hs : s.console.InPages safe) (hidx : s.scheduleIdx < 3) :
    0 < ((s.emit 10).console.cursor s.scheduleIdx).2 := by
  unfold emit modifyConsole
  dsimp only
  by_cases hback : s.scheduleIdx ≠ s.console.terminalNum
  · have hcursor := hs.cursors _ hidx
    rw [Console.cursor, if_neg hback] at hcursor
    have hstart := Pane.start_wrapped (p := s.console.backgroundPane s.scheduleIdx)
      (b := pageAddr s.scheduleIdx) hcursor.toWrapped
    have htop := hstart.1.top
    rw [if_pos hback, Console.backgroundPutc_eq, Pane.putc_newline _ _ (Or.inl rfl),
      Console.cursor]
    rw [if_neg (show s.scheduleIdx ≠ (s.console.withBackground _ _).terminalNum from hback)]
    simp only [Console.withBackground, Function.update_self, Pane.newline]
    omega
  · have hnum := not_ne_iff.mp hback
    have hstart := Pane.start_wrapped (p := s.console.pane) (b := videoBase) hs.screen.toWrapped
    have htop := hstart.1.top
    rw [if_neg hback, Console.putc_eq _ (by decide), Pane.putc_newline _ _ (Or.inl rfl),
      Console.cursor]
    rw [if_pos (show s.scheduleIdx = (s.console.withPane _).terminalNum from hnum)]
    simp only [Console.withPane, Pane.newline]
    omega

/-- The counters that a turn of the loop moves on before its character. -/
theorem emit_count_outputAt {u : Kernel} (hs : u.console.InPages safe) (hidx : u.scheduleIdx < 3)
    (hroom : safe → c = 8 → (u.console.cursor u.scheduleIdx).2 = 0 →
      0 < (u.console.cursor u.scheduleIdx).1) :
    Console.OutputAt safe u.scheduleIdx u.console
      ((u.modifyConsole fun t =>
        { t with bytesWritten := t.bytesWritten + 1, lineCt := t.lineCt + 1 }).emit c).console := by
  have hcount : Console.OutputAt safe u.scheduleIdx u.console (u.modifyConsole fun t =>
      { t with bytesWritten := t.bytesWritten + 1, lineCt := t.lineCt + 1 }).console :=
    Console.outputAt_same hs _ rfl rfl fun _ => rfl
  exact hcount.trans (emit_outputAt hcount.inPages hidx hroom)

theorem writeByte_zero (s : Kernel) : s.writeByte 0 = s := by
  unfold writeByte
  simp

/-- What one turn of the loop outputs. -/
def turn (s : Kernel) (c : UInt8) : List UInt8 :=
  if c = 0 then [] else if s.console.lineCt = rowLim ∧ c ≠ 10 then [10, c] else [c]

/-- The branch a turn takes, with what it outputs and what it leaves. -/
inductive TurnCase (s : Kernel) (c : UInt8) : List UInt8 → Kernel → Prop
  | nul (hnul : c = 0) : TurnCase s c [] s
  | wrap (hfull : s.console.lineCt = rowLim) (hnul : c ≠ 0) (hnew : c ≠ 10) :
      TurnCase s c [10, c]
        ((((s.emit 10).modifyConsole fun t => { t with lineCt := 0 }).modifyConsole
          fun t => { t with bytesWritten := t.bytesWritten + 1, lineCt := t.lineCt + 1 }).emit c)
  | newline (hnew : c = 10) :
      TurnCase s c [c] (((s.modifyConsole fun t => { t with lineCt := 0 }).modifyConsole
        fun t => { t with bytesWritten := t.bytesWritten + 1, lineCt := t.lineCt + 1 }).emit c)
  | plain (hnul : c ≠ 0) (hnew : c ≠ 10) (hroom : s.console.lineCt ≠ rowLim) :
      TurnCase s c [c] ((s.modifyConsole
        fun t => { t with bytesWritten := t.bytesWritten + 1, lineCt := t.lineCt + 1 }).emit c)

theorem writeByte_cases (s : Kernel) (c : UInt8) : TurnCase s c (s.turn c) (s.writeByte c) := by
  by_cases hzero : c = 0
  · subst hzero
    rw [writeByte_zero, turn, if_pos rfl]
    exact .nul rfl
  unfold turn writeByte
  rw [if_neg hzero]
  dsimp only
  rw [if_pos hzero]
  by_cases hnewline : c = 10
  · rw [if_neg fun h => h.2 hnewline, if_neg fun h => h.2.2 hnewline, if_pos hnewline]
    exact .newline hnewline
  by_cases hfull : s.console.lineCt = rowLim
  · rw [if_pos ⟨hfull, hnewline⟩, if_pos ⟨hfull, hzero, hnewline⟩]
    exact .wrap hfull hzero hnewline
  · rw [if_neg fun h => hfull h.1, if_neg fun h => hfull h.1, if_neg hnewline]
    exact .plain hzero hnewline hfull

/-- Where no line is wrapped, the character is the first output of the turn. -/
theorem writeByte_outputAt (hs : s.console.InPages safe) (hidx : s.scheduleIdx < 3)
    (hroom : safe → c = 8 → s.console.lineCt ≠ rowLim → (s.console.cursor s.scheduleIdx).2 = 0 →
      0 < (s.console.cursor s.scheduleIdx).1) :
    Console.OutputAt safe s.scheduleIdx s.console (s.writeByte c).console := by
  have hcase := s.writeByte_cases c
  generalize s.turn c = cs at hcase
  generalize s.writeByte c = t at hcase ⊢
  cases hcase with
  | nul => exact Console.outputAt_same hs _ rfl rfl fun _ => rfl
  | wrap =>
    have hline := emit_outputAt (c := 10) hs hidx fun _ h => absurd h (by decide)
    have hzero := Console.outputAt_same hline.inPages s.scheduleIdx
      (t := { (s.emit 10).console with lineCt := 0 }) rfl rfl fun _ => rfl
    have hrow := emit_newline_row hs hidx
    refine (hline.trans hzero).trans (emit_count_outputAt (u := (s.emit 10).modifyConsole
      fun t => { t with lineCt := 0 }) hzero.inPages hidx fun _ _ hfirst => ?_)
    exact absurd hfirst (Int.ne_of_gt hrow)
  | newline hnew =>
    have hzero := Console.outputAt_same hs s.scheduleIdx
      (t := { s.console with lineCt := 0 }) rfl rfl fun _ => rfl
    refine hzero.trans (emit_count_outputAt (u := s.modifyConsole
      fun t => { t with lineCt := 0 }) hzero.inPages hidx fun _ hback => ?_)
    exact absurd (hback.symm.trans hnew) (by decide)
  | plain hnul hnew hlimit =>
    exact emit_count_outputAt hs hidx fun hsafe hback => hroom hsafe hback hlimit

theorem writeHead_outputAt (hs : s.console.InPages safe) (idx : ℕ) (buf : ℕ → UInt8) :
    Console.OutputAt safe idx s.console (s.writeHead buf).console := by
  refine Console.outputAt_same hs idx ?_ ?_ ?_ <;> unfold writeHead modifyConsole <;> dsimp only
  · split_ifs <;> rfl
  · split_ifs <;> rfl
  · intro k
    split_ifs <;> rfl

/-- The newlines at the end of `terminal_write` go to `VIDEO`. -/
theorem writeTail_foreground (h : InPage safe s.console.screenX s.console.screenY)
    (buf : ℕ → UInt8) :
    s.console.Foreground safe (s.writeTail buf).console := by
  have hflag :
      s.console.Foreground safe { s.console with helloFlag := startsWith buf "Hello, " 8 } :=
    ⟨fun _ => WritesIn.refl _ _ _, h, rfl, fun _ => ⟨rfl, rfl⟩⟩
  have hline {t : Console} (ht : InPage safe t.screenX t.screenY) : t.Foreground safe (t.putc 10) :=
    Console.putc_foreground ht fun _ h => absurd h (by decide)
  have hexit : s.console.Foreground safe (if startsWith buf "exit" 5 then
      { s.console with helloFlag := startsWith buf "Hello, " 8 }.putc 10
      else { s.console with helloFlag := startsWith buf "Hello, " 8 }) := by
    split_ifs
    · exact hflag.trans (hline hflag.cursor)
    · exact hflag
  unfold writeTail modifyConsole
  dsimp only
  generalize (if startsWith buf "exit" 5 = true then
    { s.console with helloFlag := startsWith buf "Hello, " 8 }.putc 10
    else { s.console with helloFlag := startsWith buf "Hello, " 8 }) = t at hexit ⊢
  by_cases hcat : t.catFlag s.scheduleIdx = true ∧ ¬ startsWith buf "391OS> " 9 = true
  · rw [if_pos hcat]
    exact hexit.trans (hline hexit.cursor)
  · rw [if_neg hcat]
    exact hexit.trans ⟨fun _ => WritesIn.refl _ _ _, hexit.cursor, rfl, fun _ => ⟨rfl, rfl⟩⟩

end Kernel

/-! ### Runs -/

/-- The kernel, and the flags of the keyboard. -/
structure Desk where
  kernel : Kernel
  keys : Keys
  deriving Inhabited

/-- What outputs: a key, a switch, or a piece of a `terminal_write` made by the process of
terminal `idx`, whose loop may be interrupted between two turns. -/
inductive DeskEvent
  | key (scanCode : UInt8)
  | switchTerminals (next : ℕ)
  | writeHead (buf : ℕ → UInt8)
  | writeByte (idx : ℕ) (ch : UInt8)
  | writeTail (idx : ℕ) (buf : ℕ → UInt8)

/-- Only the three terminals are named. -/
def DeskEvent.Valid : DeskEvent → Prop
  | switchTerminals next => next < 3
  | writeByte idx _ | writeTail idx _ => idx < 3
  | _ => True

namespace Desk

variable (s : Desk)

/-- The state after an event. -/
def next : DeskEvent → Desk
  | .key scanCode =>
    let r := keyboardHandler s.keys s.kernel.console scanCode
    { kernel := { s.kernel with console := r.2 }, keys := r.1 }
  | .switchTerminals next =>
    { s with kernel := s.kernel.modifyConsole fun c => c.switchTerminals c.terminalNum next }
  | .writeHead buf =>
    let kernel := s.kernel.modifyConsole fun c => { c with bytesWritten := 0, lineCt := 0 }
    { s with kernel := kernel.writeHead buf }
  | .writeByte idx ch =>
    { s with kernel := { s.kernel with scheduleIdx := idx }.writeByte ch }
  | .writeTail idx buf =>
    { s with kernel := { s.kernel with scheduleIdx := idx }.writeTail buf }

/-- The page the output of an event is for; a switch copies pages and outputs nothing. -/
def target : DeskEvent → Option ℤ
  | .key scanCode => if Switches s.keys scanCode then none else some videoBase
  | .switchTerminals _ | .writeHead _ => none
  | .writeByte idx _ => some (s.kernel.console.screenAddr idx)
  | .writeTail _ _ => some videoBase

/-- The same state with other contents of video memory. -/
def withVideo (v : ℤ → UInt8) : Desk :=
  { s with kernel := s.kernel.modifyConsole fun c => { c with video := v } }

/-- **What is written stays on the page:** its 2000 cells, whatever video memory holds. -/
def StaysOnPage (e : DeskEvent) : Prop :=
  ∀ b, s.target e = some b → ∀ v,
    WritesIn 4000 b v ((s.withVideo v).next e).kernel.console.video

/-- No backspace is output with the cursor in the first cell: in the first row there are
as many columns before the cursor as the key erases, and a program's backspace is not in
the first cell, unless a line is wrapped before it. -/
def Fits : DeskEvent → Prop
  | .key scanCode => Erases s.keys s.kernel.console scanCode →
      s.kernel.console.screenY = 0 → s.kernel.console.lastColumns ≤ s.kernel.console.screenX
  | .writeByte idx ch => ch = 8 → s.kernel.console.lineCt ≠ rowLim →
      (s.kernel.console.cursor idx).2 = 0 → 0 < (s.kernel.console.cursor idx).1
  | _ => True

/-- The screen is cleared: every cursor is in the upper left corner. -/
structure Cleared : Prop where
  visible : s.kernel.console.terminalNum < 3
  cursors : ∀ k < 3, s.kernel.console.cursor k = (0, 0)

end Desk

/-- One event. -/
def DeskStep (s : Desk) (e : DeskEvent) (t : Desk) : Prop := e.Valid ∧ t = s.next e

/-! ### A call of `terminal_write` in pieces -/

theorem run_next {es : List DeskEvent} (s : Desk) (hvalid : ∀ e ∈ es, e.Valid) :
    Run DeskStep s es (es.foldl Desk.next s) := by
  induction es generalizing s with
  | nil => exact .nil s
  | cons e es ih =>
    obtain ⟨he, hes⟩ := List.forall_mem_cons.mp hvalid
    exact .cons ⟨he, rfl⟩ (ih _ hes)

@[simp] theorem Kernel.scheduleIdx_writeByte (s : Kernel) (ch : UInt8) :
    (s.writeByte ch).scheduleIdx = s.scheduleIdx := by
  unfold Kernel.writeByte Kernel.emit Kernel.modifyConsole
  split_ifs <;> rfl

@[simp] theorem Kernel.scheduleIdx_writeBytes (s : Kernel) (buf : ℕ → UInt8) (n : ℕ) :
    (s.writeBytes buf n).scheduleIdx = s.scheduleIdx := by
  induction n with
  | zero => rfl
  | succ n ih => exact (Kernel.scheduleIdx_writeByte _ _).trans ih

/-- **A call of `terminal_write`** is its head, the turns of its loop and its tail. -/
theorem run_terminalWrite (s : Desk) (hidx : s.kernel.scheduleIdx < 3) {fd n : ℤ} (hn : 0 ≤ n)
    (hfd : fd ≤ 1) (buf : ℕ → UInt8) :
    Run DeskStep s
      (.writeHead buf ::
        ((List.range n.toNat).map fun i => .writeByte s.kernel.scheduleIdx (buf i)) ++
          [.writeTail s.kernel.scheduleIdx buf])
      { s with kernel := (s.kernel.terminalWrite fd true buf n).2 } := by
  set start := (s.kernel.modifyConsole fun c => { c with bytesWritten := 0, lineCt := 0 }).writeHead
    buf with hstart
  have hkeep (m : ℕ) : { start.writeBytes buf m with scheduleIdx := s.kernel.scheduleIdx } =
      start.writeBytes buf m := by
    have hsame : start.scheduleIdx = s.kernel.scheduleIdx := rfl
    rw [← hsame, ← start.scheduleIdx_writeBytes buf m]
  have hloop (m : ℕ) : Run DeskStep { s with kernel := start }
      ((List.range m).map fun i => .writeByte s.kernel.scheduleIdx (buf i))
      { s with kernel := start.writeBytes buf m } := by
    induction m with
    | zero => exact .nil _
    | succ m ih =>
      rw [List.range_succ, List.map_append]
      refine ih.append (.single ⟨hidx, ?_⟩)
      exact congrArg (fun k : Kernel => { s with kernel := k.writeByte (buf m) }) (hkeep m).symm
  have htail : DeskStep { s with kernel := start.writeBytes buf n.toNat }
      (.writeTail s.kernel.scheduleIdx buf)
      { s with kernel := (start.writeBytes buf n.toNat).writeTail buf } := by
    refine ⟨hidx, ?_⟩
    exact congrArg (fun k : Kernel => { s with kernel := k.writeTail buf }) (hkeep n.toNat).symm
  have hcall : s.kernel.terminalWrite fd true buf n =
      (((start.writeBytes buf n.toNat).writeTail buf).console.bytesWritten,
        (start.writeBytes buf n.toNat).writeTail buf) := by
    refine if_neg ?_
    rintro (h | h | h)
    · exact absurd h (by decide)
    · omega
    · omega
  rw [hcall]
  exact .cons ⟨trivial, rfl⟩ ((hloop n.toNat).append (.single htail))

section Runs

variable {s t : Desk} {e : DeskEvent} {es : List DeskEvent}

/-- **One event** that fits. -/
theorem Desk.next_spec (hs : s.kernel.console.InPages safe) (hvalid : e.Valid)
    (hfits : safe → s.Fits e) :
    (safe → ∀ b, s.target e = some b → WritesIn 4000 b s.kernel.console.video
      (s.next e).kernel.console.video) ∧ (s.next e).kernel.console.InPages safe := by
  have hvisible (t : Console) (h : s.kernel.console.Foreground safe t) :
      (safe → ∀ b, some videoBase = some b → WritesIn 4000 b s.kernel.console.video t.video) ∧
        t.InPages safe := by
    refine ⟨?_, (h.outputAt hs).inPages⟩
    rintro hsafe b ⟨⟩
    exact h.writes hsafe
  have hswitch (next : ℕ) (hnext : next < 3) : (s.kernel.console.switchTerminals
      s.kernel.console.terminalNum next).InPages safe := by
    refine ⟨hnext, fun k hk => ?_⟩
    rw [(s.kernel.console.switchTerminals_spec next k).2]
    exact hs.cursors k hk
  cases e with
  | key scanCode =>
    dsimp only [Desk.target]
    split_ifs with hsw
    · obtain ⟨next, hnext, hkey⟩ := keyboardHandler_switches s.kernel.console hsw
      have hconsole : (s.next (.key scanCode)).kernel.console =
          (keyboardHandler s.keys s.kernel.console scanCode).2 := rfl
      refine ⟨fun _ b hb => (nomatch hb), ?_⟩
      rw [hconsole, hkey]
      exact hswitch next hnext
    · exact hvisible _ (keyboardHandler_foreground hs.screen hsw hfits)
  | switchTerminals next => exact ⟨fun _ b hb => (nomatch hb), hswitch next hvalid⟩
  | writeHead buf =>
    have hzero := Console.outputAt_same hs 0
      (t := { s.kernel.console with bytesWritten := 0, lineCt := 0 }) rfl rfl fun _ => rfl
    exact ⟨fun _ b hb => (nomatch hb), (Kernel.writeHead_outputAt (s := s.kernel.modifyConsole
      fun c => { c with bytesWritten := 0, lineCt := 0 }) hzero.inPages 0 buf).inPages⟩
  | writeByte idx ch =>
    have hout := Kernel.writeByte_outputAt (s := { s.kernel with scheduleIdx := idx }) (c := ch)
      hs hvalid hfits
    refine ⟨?_, hout.inPages⟩
    rintro hsafe b ⟨⟩
    exact hout.writes hsafe
  | writeTail idx buf =>
    exact hvisible _ (Kernel.writeTail_foreground (s := { s.kernel with scheduleIdx := idx })
      hs.screen buf)

theorem Desk.Cleared.inPages (h : s.Cleared) : s.kernel.console.InPages safe := by
  refine ⟨h.visible, fun k hk => ?_⟩
  rw [h.cursors k hk]
  exact inPage_home

theorem inPages_of_run (hr : Run (Guarded (fun s e => safe → s.Fits e) DeskStep) s es t)
    (hs : s.kernel.console.InPages safe) : t.kernel.console.InPages safe := by
  refine hr.invariant (I := fun s : Desk => s.kernel.console.InPages safe) ?_ hs
  rintro s e _ hs ⟨hfits, hvalid, rfl⟩
  exact (Desk.next_spec hs hvalid hfits).2

/-- **Every cursor stays as `%` leaves it,** whatever is output. -/
theorem wrapped_of_run (hcleared : s.Cleared) (hr : Run DeskStep s es t) {k : ℕ} (hk : k < 3) :
    Wrapped (t.kernel.console.cursor k).1 (t.kernel.console.cursor k).2 := by
  have hfree : Run (Guarded (fun s e => False → s.Fits e) DeskStep) s es t :=
    hr.mono fun _ _ _ hstep => ⟨False.elim, hstep⟩
  exact ((inPages_of_run hfree hcleared.inPages).cursors k hk).toWrapped

/-- **No output leaves the screen.**  From a cleared screen on, in every run of keys, switches
and pieces of `terminal_write` calls in any order in which no backspace is output with the
cursor in the first cell, whatever is written stays among the 2000 cells of its page. -/
theorem staysOnPage_of_run (hcleared : s.Cleared) (hr : Run (Guarded Desk.Fits DeskStep) s es t)
    (hvalid : e.Valid) (hfits : t.Fits e) : t.StaysOnPage e := by
  have hend : t.kernel.console.InPages True :=
    inPages_of_run (hr.mono fun _ _ _ hstep => ⟨fun _ => hstep.1, hstep.2⟩) hcleared.inPages
  intro b hb v
  have hvideo : (t.withVideo v).kernel.console.InPages True := ⟨hend.visible, hend.cursors⟩
  have hsame : (t.withVideo v).Fits e := by
    cases e <;> exact hfits
  have htarget : (t.withVideo v).target e = some b := by
    cases e <;> exact hb
  exact (Desk.next_spec hvideo hvalid fun _ => hsame).1 trivial b htarget

end Runs

/-- A cleared screen. -/
def clearedDesk : Desk := default

theorem cleared_clearedDesk : clearedDesk.Cleared := by
  refine ⟨by decide, fun k _ => ?_⟩
  unfold Console.cursor
  split_ifs <;> rfl

/-- A letter, a letter of a background program, and a backspace. -/
theorem staysOnPage_backspace :
    ∃ t, Run (Guarded Desk.Fits DeskStep) clearedDesk [.key 0x1E, .writeByte 1 98] t ∧
      t.StaysOnPage (.key Scan.backspace) := by
  have hr : Run (Guarded Desk.Fits DeskStep) clearedDesk [.key 0x1E, .writeByte 1 98] _ :=
    .cons ⟨fun h => absurd h.1 (by decide), trivial, rfl⟩ <|
    .cons ⟨fun h => absurd h (by decide), (by decide : 1 < 3), rfl⟩ <| .nil _
  refine ⟨_, hr, staysOnPage_of_run cleared_clearedDesk hr trivial fun _ _ => ?_⟩
  decide +kernel

/-- Eight letters, Ctrl and L, and seven backspaces: the line still has a letter, and the
cursor is in the upper left corner. -/
def backspaces : List DeskEvent :=
  (List.replicate 8 0x1E ++ [0x1D, Scan.l, 0x9D] ++ List.replicate 7 Scan.backspace).map .key

/-- The eighth backspace goes before the page. -/
theorem not_staysOnPage_backspaces :
    clearedDesk.Cleared ∧
      Run DeskStep clearedDesk backspaces (backspaces.foldl Desk.next clearedDesk) ∧
      ¬ (backspaces.foldl Desk.next clearedDesk).StaysOnPage (.key Scan.backspace) := by
  refine ⟨cleared_clearedDesk, run_next _ ?_, fun hstays => ?_⟩
  · unfold backspaces
    intro e he
    obtain ⟨_, -, rfl⟩ := List.mem_map.mp he
    trivial
  · have hcell := hstays videoBase (by decide +kernel) (fun _ => 0) (videoBase - 2)
      (Or.inl (by decide))
    revert hcell
    decide +kernel

end OS391
