/-
# Three screens that do not see each other

The visible terminal has its page at `VIDEO` and its cursor in `screen_x` and `screen_y`;
the others have a page and a saved cursor of their own, written by `background_putc`.
Whatever is output and however the terminals are switched, each of the three screens is
what a console of its own would show after the output directed at it
(`screens_independent`).
-/

import OS391.Lib.Transition
import OS391.Panes

namespace OS391

open Lib

/-! ### Output, and what it is directed at -/

/-- Output to one terminal. -/
inductive Output
  | putc (c : UInt8)
  | clear

/-- A console that stands alone. -/
def Console.output (t : Console) : Output → Console
  | .putc c => t.putc c
  | .clear => t.clear

/-- What happens to the three. -/
inductive ScreenEvent
  | putc (c : UInt8)
  | backgroundPutc (c : UInt8) (idx : ℕ)
  | clear
  | switchTerminals (next : ℕ)

/-- One event; `background_putc` is for a terminal that is not visible. -/
inductive ScreenStep : Console → ScreenEvent → Console → Prop
  | putc (s : Console) (c : UInt8) : ScreenStep s (.putc c) (s.putc c)
  | backgroundPutc {s : Console} {idx : ℕ} (hidx : idx < 3) (hback : idx ≠ s.terminalNum)
      (c : UInt8) : ScreenStep s (.backgroundPutc c idx) (s.backgroundPutc c idx)
  | clear (s : Console) : ScreenStep s .clear s.clear
  | switchTerminals (s : Console) {next : ℕ} (hnext : next < 3) :
      ScreenStep s (.switchTerminals next) (s.switchTerminals s.terminalNum next)

namespace ScreenEvent

/-- No character is a backspace or a tab. -/
def Plain : ScreenEvent → Prop
  | putc c | backgroundPutc c _ => c ≠ 8 ∧ c ≠ 9
  | _ => True

/-- What an event directs at terminal `k` while `visible` is visible. -/
def directedAt (visible k : ℕ) : ScreenEvent → List Output
  | putc c => if k = visible then [.putc c] else []
  | backgroundPutc c idx => if k = idx then [.putc c] else []
  | clear => if k = visible then [.clear] else []
  | switchTerminals _ => []

/-- The visible terminal after an event. -/
def visibleAfter (visible : ℕ) : ScreenEvent → ℕ
  | switchTerminals next => next
  | _ => visible

end ScreenEvent

/-- The output directed at terminal `k`, in order. -/
def directed (k : ℕ) : ℕ → List ScreenEvent → List Output
  | _, [] => []
  | visible, e :: es => e.directedAt visible k ++ directed k (e.visibleAfter visible) es

namespace Console

variable (s : Console) (k : ℕ)

/-- Where the screen of terminal `k` is. -/
def screenAddr : ℤ := if k = s.terminalNum then videoBase else pageAddr k

/-- The cursor of terminal `k`. -/
def cursor : ℤ × ℤ :=
  if k = s.terminalNum then (s.screenX, s.screenY)
  else ((s.terminal k).saveX, (s.terminal k).saveY)

/-- The screen of terminal `k` is that of the console `c`. -/
structure Shows (c : Console) : Prop where
  page : SameWindow 4096 s.video (s.screenAddr k) c.video videoBase
  cursor : s.cursor k = (c.screenX, c.screenY)

end Console

/-- A cursor in one of the 80 columns, and in a row or just below the last. -/
def OnScreen (cursor : ℤ × ℤ) : Prop :=
  0 ≤ cursor.1 ∧ cursor.1 < 80 ∧ 0 ≤ cursor.2 ∧ cursor.2 ≤ 25

/-! ### A character on a page -/

namespace Pane

variable {p q : Pane} {b b' : ℤ} {c : UInt8}

/-- Two pages that are the same, with the same cursor. -/
structure Same (p : Pane) (b : ℤ) (q : Pane) (b' : ℤ) : Prop where
  page : SameWindow 4096 p.video b q.video b'
  x : p.x = q.x
  y : p.y = q.y

theorem Same.start (h : p.Same b q b') : (p.start b).Same b (q.start b') b' := by
  unfold Pane.start
  rw [h.x, h.y]
  split_ifs
  · exact ⟨sameWindow_clearCells (sameWindow_scrollCells h.page (by decide)) _ 80, rfl, rfl⟩
  · exact h

theorem Same.moveTo (h : p.Same b q b') (x : ℤ) : (p.moveTo x).Same b (q.moveTo x) b' :=
  ⟨h.page, rfl, by rw [Pane.moveTo, Pane.moveTo, h.y]⟩

theorem Same.draw (h : p.Same b q b') (c : UInt8) : (p.draw b c).Same b (q.draw b' c) b' := by
  refine ⟨?_, h.x, h.y⟩
  unfold Pane.draw cellAddr
  rw [h.x, h.y]
  exact sameWindow_putCell h.page _ c

theorem Same.space (h : p.Same b q b') : (p.space b).Same b (q.space b') b' := by
  unfold Pane.space
  rw [h.x]
  exact (h.moveTo _).draw 32

/-- **The same character** on two pages that are the same. -/
theorem Same.putc (h : p.Same b q b') (c : UInt8) : (p.putc b c).Same b (q.putc b' c) b' := by
  have hstart := h.start
  unfold Pane.putc
  dsimp only
  rw [hstart.x]
  split_ifs
  · exact (hstart.moveTo _).draw 32
  · exact hstart.space.space.space.space
  · exact ⟨hstart.page, rfl, congrArg (· + 1) hstart.y⟩
  · exact (hstart.draw c).moveTo _

/-- A page rolls up on itself, and then the cursor is in a row. -/
theorem start_spec (p : Pane) (b : ℤ) : WritesIn 4000 b p.video (p.start b).video ∧
    80 * (p.start b).y + (p.start b).x < 2000 ∧
    ((p.start b).x = 0 ∧ (p.start b).y = 24 ∨ (p.start b).x = p.x ∧ (p.start b).y = p.y) := by
  unfold Pane.start numCols numRows
  split_ifs with hfull
  · exact ⟨writesIn_clearCells (writesIn_scrollCells (WritesIn.refl _ _ _) (by decide))
      (by decide) (by decide), show (80 : ℤ) * 24 + 0 < 2000 by decide, Or.inl ⟨rfl, rfl⟩⟩
  · exact ⟨WritesIn.refl _ _ _, by omega, Or.inr ⟨rfl, rfl⟩⟩

/-- A cell of the page is written. -/
theorem draw_writesIn {v : ℤ → UInt8} (h : WritesIn 4000 b v p.video) (h₀ : 0 ≤ 80 * p.y + p.x)
    (h₁ : 80 * p.y + p.x < 2000) (c : UInt8) : WritesIn 4000 b v (p.draw b c).video :=
  writesIn_putCell h h₀ h₁ c

/-- **A character stays on its page,** and leaves the cursor on the screen. -/
theorem putc_onScreen (hcursor : OnScreen (p.x, p.y)) (hback : c ≠ 8) (htab : c ≠ 9) :
    WritesIn 4000 b p.video (p.putc b c).video ∧ OnScreen ((p.putc b c).x, (p.putc b c).y) := by
  obtain ⟨hpage, hlt, hpos⟩ := p.start_spec b
  obtain ⟨hx, hx', hy, hy'⟩ := hcursor
  dsimp only at hx hx' hy hy'
  have hq : 0 ≤ (p.start b).x ∧ (p.start b).x < 80 ∧ 0 ≤ (p.start b).y ∧ (p.start b).y ≤ 24 := by
    omega
  unfold Pane.putc
  dsimp only
  rw [if_neg hback, if_neg htab]
  set q := p.start b
  split_ifs
  · exact ⟨hpage, Int.le_refl 0, show (0 : ℤ) < 80 by decide, show 0 ≤ q.y + 1 by omega,
      show q.y + 1 ≤ 25 by omega⟩
  · refine ⟨draw_writesIn hpage (by omega) (by omega) c, ?_⟩
    have hy : (q.draw b c).y = q.y := rfl
    rw [Pane.moveTo_eq _ (by omega) (by omega) (by omega) (by omega)]
    dsimp only
    split_ifs <;> refine ⟨?_, ?_, ?_, ?_⟩ <;> dsimp only <;> omega

end Pane

/-! ### The pages are apart -/

theorem videoBase_apart (k : ℕ) : videoBase + 4096 ≤ pageAddr k := by
  unfold pageAddr
  omega

theorem pageAddr_apart {k k' : ℕ} (h : k ≠ k') :
    pageAddr k + 4096 ≤ pageAddr k' ∨ pageAddr k' + 4096 ≤ pageAddr k := by
  unfold pageAddr
  omega

theorem sameWindow_copyPage (v : ℤ → UInt8) (dst src : ℤ) :
    SameWindow 4096 (copyPage v dst src) dst v src := by
  intro i h₀ h₁
  have hoff : dst + i - dst = i := by omega
  unfold copyPage
  rw [if_pos (by omega), hoff]

theorem writesIn_copyPage (v : ℤ → UInt8) (dst src : ℤ) :
    WritesIn 4096 dst v (copyPage v dst src) := fun a ha => if_neg (by omega)

/-- What is written on a page of 4000 bytes leaves a page apart from it. -/
theorem sameWindow_of_apart {v v' : ℤ → UInt8} {b b' : ℤ} (h : WritesIn 4000 b v v')
    (hapart : b' + 4096 ≤ b ∨ b + 4096 ≤ b') : SameWindow 4096 v' b' v b' :=
  h.sameWindow (by omega)

namespace Console

variable {s c : Console} {k next : ℕ}

theorem shows_of_visible (h : k = s.terminalNum) :
    s.Shows k c ↔ s.pane.Same videoBase c.pane videoBase := by
  constructor
  · rintro ⟨hpage, hcursor⟩
    rw [screenAddr, if_pos h] at hpage
    rw [Console.cursor, if_pos h] at hcursor
    exact ⟨hpage, congrArg Prod.fst hcursor, congrArg Prod.snd hcursor⟩
  · rintro ⟨hpage, hx, hy⟩
    refine ⟨?_, ?_⟩
    · rw [screenAddr, if_pos h]
      exact hpage
    · rw [Console.cursor, if_pos h]
      exact Prod.ext hx hy

theorem shows_of_background (h : k ≠ s.terminalNum) :
    s.Shows k c ↔ (s.backgroundPane k).Same (pageAddr k) c.pane videoBase := by
  constructor
  · rintro ⟨hpage, hcursor⟩
    rw [screenAddr, if_neg h] at hpage
    rw [Console.cursor, if_neg h] at hcursor
    exact ⟨hpage, congrArg Prod.fst hcursor, congrArg Prod.snd hcursor⟩
  · rintro ⟨hpage, hx, hy⟩
    refine ⟨?_, ?_⟩
    · rw [screenAddr, if_neg h]
      exact hpage
    · rw [Console.cursor, if_neg h]
      exact Prod.ext hx hy

/-- **A switch** changes no screen and no cursor. -/
theorem switchTerminals_spec (s : Console) (next k : ℕ) :
    let t := s.switchTerminals s.terminalNum next
    SameWindow 4096 t.video (t.screenAddr k) s.video (s.screenAddr k) ∧
      t.cursor k = s.cursor k := by
  intro t
  set v := copyPage s.video (pageAddr s.terminalNum) videoBase with hv
  have hold : SameWindow 4096 v (pageAddr s.terminalNum) s.video videoBase :=
    sameWindow_copyPage _ _ _
  have hothers (j : ℕ) (hj : j ≠ s.terminalNum) :
      SameWindow 4096 v (pageAddr j) s.video (pageAddr j) :=
    (writesIn_copyPage _ _ _).sameWindow (pageAddr_apart hj)
  have hkept (j : ℕ) : SameWindow 4096 v (pageAddr j) s.video (s.screenAddr j) := by
    unfold screenAddr
    split_ifs with hj
    · exact hj ▸ hold
    · exact hothers j hj
  have hsave (j : ℕ) : (((s.switchVideoMem s.terminalNum next).terminal j).saveX,
      ((s.switchVideoMem s.terminalNum next).terminal j).saveY) = s.cursor j := by
    simp only [switchVideoMem, modifyTerminal, Function.update_apply, Console.cursor]
    split_ifs with hj <;> simp_all
  by_cases hk : k = next
  · have haddr : t.screenAddr k = videoBase := if_pos hk
    have hcursor : t.cursor k = _ := if_pos hk
    rw [haddr, hcursor]
    refine ⟨(sameWindow_copyPage v videoBase (pageAddr next)).trans ?_, ?_⟩
    · exact hk ▸ hkept k
    · exact hk ▸ hsave next
  · have haddr : t.screenAddr k = pageAddr k := if_neg hk
    have hcursor : t.cursor k = _ := if_neg hk
    rw [haddr, hcursor]
    exact ⟨((writesIn_copyPage v videoBase (pageAddr next)).sameWindow
      (Or.inr (videoBase_apart k))).trans (hkept k), hsave k⟩

end Console

/-! ### Runs -/

/-- Each of the three screens is that of its own console. -/
structure Apart (s : Console) (c : ℕ → Console) : Prop where
  visible : s.terminalNum < 3
  shows : ∀ k < 3, s.Shows k (c k)
  onScreen : ∀ k < 3, OnScreen (s.cursor k)

section Runs

variable {s t : Console} {e : ScreenEvent} {es : List ScreenEvent} {c : ℕ → Console}

/-- Output at `VIDEO` is for the visible terminal. -/
theorem Apart.foreground (h : Apart s c) (hnum : t.terminalNum = s.terminalNum)
    (hterminal : t.terminal = s.terminal) (hwrites : WritesIn 4000 videoBase s.video t.video)
    (hcursor : OnScreen (t.screenX, t.screenY)) {o : Output}
    (hsame : t.pane.Same videoBase ((c s.terminalNum).output o).pane videoBase) :
    Apart t fun k => (if k = s.terminalNum then [o] else []).foldl Console.output (c k) := by
  refine ⟨hnum ▸ h.visible, fun k hk => ?_, fun k hk => ?_⟩
  · by_cases hv : k = s.terminalNum
    · rw [Console.shows_of_visible (hv.trans hnum.symm), if_pos hv, hv]
      exact hsame
    · have hshows := (Console.shows_of_background hv).mp (h.shows k hk)
      rw [Console.shows_of_background fun heq => hv (heq.trans hnum), if_neg hv]
      have hpage : SameWindow 4096 t.video (pageAddr k) s.video (pageAddr k) :=
        sameWindow_of_apart hwrites (Or.inr (Int.le_trans (by decide) (videoBase_apart k)))
      refine ⟨hpage.trans hshows.page, ?_, ?_⟩
      · exact (congrArg (fun m => (m k).saveX) hterminal).trans hshows.x
      · exact (congrArg (fun m => (m k).saveY) hterminal).trans hshows.y
  · have hold := h.onScreen k hk
    unfold Console.cursor at hold ⊢
    rw [hnum, hterminal]
    split_ifs at hold ⊢ with hv
    · exact hcursor
    · exact hold

/-- Output at the page of a terminal in the background is for that terminal. -/
theorem Apart.background (h : Apart s c) {idx : ℕ} (hback : idx ≠ s.terminalNum) {p : Pane}
    (hwrites : WritesIn 4000 (pageAddr idx) s.video p.video) (hcursor : OnScreen (p.x, p.y))
    {o : Output} (hsame : p.Same (pageAddr idx) ((c idx).output o).pane videoBase) :
    Apart (s.withBackground idx p)
      fun k => (if k = idx then [o] else []).foldl Console.output (c k) := by
  refine ⟨h.visible, fun k hk => ?_, fun k hk => ?_⟩
  · by_cases hidx : k = idx
    · rw [if_pos hidx, hidx, Console.shows_of_background (s := s.withBackground idx p) hback,
        Console.backgroundPane_withBackground]
      exact hsame
    · rw [if_neg hidx]
      by_cases hv : k = s.terminalNum
      · have hshows := (Console.shows_of_visible hv).mp (h.shows k hk)
        have hpage : SameWindow 4096 p.video videoBase s.video videoBase :=
          sameWindow_of_apart hwrites (Or.inl (videoBase_apart idx))
        refine (Console.shows_of_visible (s := s.withBackground idx p) hv).mpr ?_
        exact ⟨hpage.trans hshows.page, hshows.x, hshows.y⟩
      · have hshows := (Console.shows_of_background hv).mp (h.shows k hk)
        have hpage : SameWindow 4096 p.video (pageAddr k) s.video (pageAddr k) :=
          sameWindow_of_apart hwrites <|
            (pageAddr_apart hidx).imp id fun hle => Int.le_trans (by omega) hle
        have hterminal : (s.withBackground idx p).terminal k = s.terminal k :=
          Function.update_of_ne hidx _ _
        refine (Console.shows_of_background (s := s.withBackground idx p) hv).mpr ?_
        refine ⟨hpage.trans hshows.page, ?_, ?_⟩
        · exact (congrArg Terminal.saveX hterminal).trans hshows.x
        · exact (congrArg Terminal.saveY hterminal).trans hshows.y
  · have hold := h.onScreen k hk
    unfold Console.cursor at hold ⊢
    by_cases hidx : k = idx
    · subst hidx
      rw [if_neg (show k ≠ (s.withBackground k p).terminalNum from hback)]
      simpa [Console.withBackground] using hcursor
    · have hterminal : (s.withBackground idx p).terminal k = s.terminal k :=
        Function.update_of_ne hidx _ _
      rw [hterminal]
      exact hold

/-- **One event** does to each screen what the output directed at it does. -/
theorem Apart.step (h : Apart s c) (hstep : ScreenStep s e t) (hplain : e.Plain) :
    t.terminalNum = e.visibleAfter s.terminalNum ∧
      Apart t fun k => (e.directedAt s.terminalNum k).foldl Console.output (c k) := by
  cases hstep with
  | putc ch =>
    obtain ⟨hback, htab⟩ := hplain
    have hshows := (Console.shows_of_visible rfl).mp (h.shows _ h.visible)
    have hcursor := h.onScreen _ h.visible
    rw [Console.cursor, if_pos rfl] at hcursor
    obtain ⟨hwrites, honScreen⟩ := Pane.putc_onScreen (p := s.pane) (b := videoBase)
      hcursor hback htab
    rw [Console.putc_eq s htab]
    refine ⟨rfl, h.foreground (t := s.withPane _) (o := .putc ch) rfl rfl hwrites honScreen ?_⟩
    rw [Console.output, Console.putc_eq _ htab]
    exact hshows.putc ch
  | @backgroundPutc idx hidx hback ch =>
    obtain ⟨hbs, htab⟩ := hplain
    have hshows := (Console.shows_of_background hback).mp (h.shows _ hidx)
    have hcursor := h.onScreen _ hidx
    rw [Console.cursor, if_neg hback] at hcursor
    obtain ⟨hwrites, honScreen⟩ := Pane.putc_onScreen (p := s.backgroundPane idx)
      (b := pageAddr idx) hcursor hbs htab
    rw [Console.backgroundPutc_eq s idx ch]
    refine ⟨rfl, h.background (o := .putc ch) hback hwrites honScreen ?_⟩
    rw [Console.output, Console.putc_eq _ htab]
    exact hshows.putc ch
  | clear =>
    have hshows := (Console.shows_of_visible rfl).mp (h.shows _ h.visible)
    have hhome : OnScreen (s.clear.screenX, s.clear.screenY) := by
      show OnScreen (0, 0)
      unfold OnScreen
      decide
    refine ⟨rfl, h.foreground (t := s.clear) (o := .clear) rfl rfl ?_ hhome ?_⟩
    · exact writesIn_clearCells (WritesIn.refl _ _ _) (by decide) (by decide)
    · exact ⟨sameWindow_clearCells hshows.page 0 2000, rfl, rfl⟩
  | @switchTerminals next hnext =>
    refine ⟨rfl, hnext, fun k hk => ?_, fun k hk => ?_⟩
    · obtain ⟨hpage, hcursor⟩ := s.switchTerminals_spec next k
      have hshows := h.shows k hk
      exact ⟨hpage.trans hshows.page, hcursor.trans hshows.cursor⟩
    · rw [(s.switchTerminals_spec next k).2]
      exact h.onScreen k hk

/-- A run does to each screen what the output directed at it does. -/
theorem Apart.run (hr : Run (Guarded (fun _ e => e.Plain) ScreenStep) s es t) (h : Apart s c) :
    Apart t fun k => (directed k s.terminalNum es).foldl Console.output (c k) := by
  induction hr generalizing c with
  | nil => exact h
  | cons hstep _ ih =>
    obtain ⟨hplain, hstep⟩ := hstep
    obtain ⟨hnum, hnext⟩ := h.step hstep hplain
    have hrest := ih hnext
    rw [hnum] at hrest
    simpa only [directed, List.foldl_append] using hrest

/-- **Three screens that do not see each other.**  From any pages and any cursors on the
screen, each of the three shows in the end what a console of its own shows that started
with the same page and cursor and received the output directed at it, in order; and a
switch to any terminal changes no screen and no cursor. -/
theorem screens_independent (hvisible : s.terminalNum < 3) (hshows : ∀ k < 3, s.Shows k (c k))
    (hcursor : ∀ k < 3, OnScreen (s.cursor k))
    (hr : Run (Guarded (fun _ e => e.Plain) ScreenStep) s es t) :
    (∀ k < 3, t.Shows k ((directed k s.terminalNum es).foldl Console.output (c k))) ∧
      ∀ next < 3, ∀ k < 3,
        let u := t.switchTerminals t.terminalNum next
        SameWindow 4096 u.video (u.screenAddr k) t.video (t.screenAddr k) ∧
          u.cursor k = t.cursor k :=
  ⟨(Apart.run hr ⟨hvisible, hshows, hcursor⟩).shows,
    fun next _ k _ => t.switchTerminals_spec next k⟩

/-- Output to the first two terminals, and a switch between them. -/
theorem screens_independent_switch :
    let es : List ScreenEvent :=
      [.putc 97, .backgroundPutc 98 1, .switchTerminals 1, .putc 99, .backgroundPutc 10 0, .clear]
    ∃ t, Run (Guarded (fun _ e => e.Plain) ScreenStep) default es t ∧
      ∀ k < 3, t.Shows k ((directed k 0 es).foldl Console.output default) := by
  intro es
  have hhome : OnScreen (0, 0) := by
    unfold OnScreen
    decide
  have hr : Run (Guarded (fun _ e => e.Plain) ScreenStep) default es _ :=
    .cons ⟨⟨by decide, by decide⟩, .putc _ 97⟩ <|
    .cons ⟨⟨by decide, by decide⟩, .backgroundPutc (by decide) (by decide) 98⟩ <|
    .cons ⟨trivial, .switchTerminals _ (by decide)⟩ <|
    .cons ⟨⟨by decide, by decide⟩, .putc _ 99⟩ <|
    .cons ⟨⟨by decide, by decide⟩, .backgroundPutc (by decide) (by decide) 10⟩ <|
    .cons ⟨trivial, .clear _⟩ <| .nil _
  refine ⟨_, hr, (screens_independent (c := fun _ => default) (by decide) ?_ ?_ hr).1⟩
  · exact fun k _ => ⟨fun _ _ _ => rfl, by unfold Console.cursor; split_ifs <;> rfl⟩
  · intro k _
    unfold Console.cursor
    split_ifs <;> exact hhome

end Runs

end OS391
