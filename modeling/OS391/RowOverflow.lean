/-
# Row overflow

After a character in column 79 `putc` goes on at the start of the same row: the row is moved on
by a column that has already been reduced modulo 80.  That the next row is taken is left to the
callers, who count characters and print a newline at 80, `terminal_write` those of one call
(`line_ct`) and the keyboard those of a typed line (`row_letter_ct`).  Neither looks at the
column.

Beside the state we keep what has been written where (`Written`).  Up to the cursor its row is
written and behind it blank, or it is written whole and the cursor is back at its start
(`Layout`): a character goes to a blank cell unless it directly follows one in column 79.  So text
is kept exactly as long as the counter that is looked at is 80 whenever that happens
(`keepsText_of_run`).
-/

import OS391.BackgroundWrite
import OS391.KeyInput

namespace OS391

open Lib

/-! ### The cells of a page that is scrolled -/

section Cells

variable (v : ℤ → UInt8) (b : ℤ) (k : ℤ)

theorem putCell_char (j : ℤ) (c : UInt8) :
    putCell v (b + 2 * j) c (b + 2 * k) = if k = j then c else v (b + 2 * k) := by
  unfold putCell
  rw [Function.update_of_ne (by omega)]
  split_ifs with h
  · rw [h, Function.update_self]
  · rw [Function.update_of_ne (by omega)]

theorem clearCells_char {idx : ℤ} {n : ℕ} (h : k < idx ∨ idx + n ≤ k) :
    clearCells v b idx n (b + 2 * k) = v (b + 2 * k) := by
  induction n with
  | zero => rfl
  | succ n ih =>
    rw [clearCells, putCell_char, if_neg (by omega), ih (by omega)]

/-- **The scrolling loop** takes each character from one row below. -/
theorem scrollCells_char (n : ℕ) : scrollCells v b n (b + 2 * k)
    = if 0 ≤ k ∧ k < n then v (b + 2 * (k + 80)) else v (b + 2 * k) := by
  induction n generalizing k with
  | zero => rw [scrollCells, if_neg (by omega)]
  | succ n ih =>
    have hrow : scrollCells v b n (b + 2 * (n + numCols)) = v (b + 2 * (n + 80)) := by
      rw [ih, if_neg (by unfold numCols; omega)]
      rfl
    dsimp only [scrollCells]
    rw [Function.update_of_ne (by omega)]
    by_cases hk : k = n
    · rw [hk, Function.update_self, hrow, if_pos (by omega)]
    · rw [Function.update_of_ne (by omega), ih]
      exact if_congr (by omega) rfl rfl

end Cells

/-- **The row is never moved on:** the column that is divided is below 80 already. -/
theorem Pane.moveTo_next {p : Pane} (hx : 0 ≤ p.x) (hx' : p.x < 80) (hy : 0 ≤ p.y)
    (hy' : p.y ≤ 24) : p.moveTo (p.x + 1) = { p with x := if p.x = 79 then 0 else p.x + 1 } := by
  rw [Pane.moveTo_eq p (by omega) (by omega) hy (by omega)]
  congr 1
  · split_ifs <;> omega
  · exact if_neg (by omega)

/-- **A character in the row of the cursor,** on a page that is not full. -/
theorem Pane.putc_next {p : Pane} (hx : 0 ≤ p.x) (hx' : p.x < 80) (hy : 0 ≤ p.y) (hy' : p.y ≤ 24)
    {c : UInt8} (hc : c ∉ [8, 9, 10, 13]) : p.putc videoBase c =
      { p.draw videoBase c with x := if p.x = 79 then 0 else p.x + 1 } := by
  have hpage : ¬ numCols * p.y + p.x ≥ numCols * numRows := by
    unfold numCols numRows
    omega
  have hstart : p.start videoBase = p := if_neg hpage
  simp only [List.mem_cons, List.not_mem_nil, or_false, not_or] at hc
  rw [Pane.putc, hstart]
  dsimp only
  rw [if_neg hc.1, if_neg hc.2.1, if_neg (not_or.mpr hc.2.2)]
  exact Pane.moveTo_next (p := p.draw videoBase c) hx hx' hy hy'

/-! ### What is written where -/

/-- The characters on the screen by column and row, and what became of those before. -/
structure Written where
  shown : ℤ → ℤ → Option UInt8
  /-- The row of the last character, if it is in column 79. -/
  edge : Option ℤ
  /-- A character was put where one was. -/
  overwritten : Bool
  /-- A character was put no lower than the one in column 79 it follows. -/
  stayed : Bool

namespace Written

/-- A screen that has been cleared. -/
def blank : Written := ⟨fun _ _ => none, none, false, false⟩

/-- The rows moved up; the first is lost. -/
def scroll (h : Written) : Written :=
  { h with
    shown := fun x y => if 0 ≤ y then h.shown x (y + 1) else none
    edge := h.edge.map (· - 1) }

/-- The page rolls up if it is full. -/
def roll (h : Written) (p : Pane) : Written :=
  if numCols * p.y + p.x ≥ numCols * numRows then h.scroll else h

/-- A character at the cursor, or a newline. -/
def draw (h : Written) (p : Pane) (c : UInt8) : Written :=
  if c = 10 ∨ c = 13 then h
  else
    { shown := fun x y => if x = p.x ∧ y = p.y then some c else h.shown x y
      edge := if p.x = 79 then some p.y else none
      overwritten := h.overwritten || (h.shown p.x p.y).isSome
      stayed := h.stayed || h.edge.any (p.y ≤ ·) }

/-- A character put on the screen whose cursor is that of `p`. -/
def put (h : Written) (p : Pane) (c : UInt8) : Written := (h.roll p).draw (p.start videoBase) c

/-- A text. -/
def puts (h : Written) : Pane → List UInt8 → Written
  | _, [] => h
  | p, c :: cs => (h.put p c).puts (p.putc videoBase c) cs

end Written

/-- A piece of text: newlines, and a character at its end. -/
def IsPiece (cs : List UInt8) : Prop := (∀ c ∈ cs, c ∉ [8, 9, 13]) ∧ ∀ c ∈ cs.dropLast, c = 10

theorem isPiece_nil : IsPiece [] := by simp [IsPiece]

theorem isPiece_char {c : UInt8} (hc : c ∉ [8, 9, 13]) : IsPiece [c] := by
  simpa [IsPiece] using hc

theorem isPiece_newline_char {c : UInt8} (hc : c ∉ [8, 9, 13]) : IsPiece [10, c] := by
  simpa [IsPiece] using hc

/-- The text of the screen is kept: no character was put where one was, each character after
one in column 79 is below it, and video memory holds what is written. -/
structure KeepsText (h : Written) (v : ℤ → UInt8) : Prop where
  kept : h.overwritten = false
  nextRow : h.stayed = false
  shown : ∀ x y c, h.shown x y = some c → v (cellAddr videoBase x y) = c

/-- The row of the cursor is written up to the cursor and blank behind it, or written whole
with the cursor at its start; the rows below are blank. -/
structure Layout (p : Pane) (h : Written) : Prop extends KeepsText h p.video where
  onScreen : OnScreen (p.x, p.y)
  below : p.y = 25 → p.x = 0
  inside : ∀ x y c, h.shown x y = some c → 0 ≤ x ∧ x < 80 ∧ 0 ≤ y ∧ y ≤ p.y
  behind : h.edge ≠ some p.y → ∀ x, p.x ≤ x → h.shown x p.y = none
  before : ∀ x, 0 ≤ x → x < p.x → (h.shown x p.y).isSome = true
  above : ∀ r, h.edge = some r → r ≤ p.y
  edge : h.edge = some p.y → p.x = 0 ∧ p.y ≤ 24 ∧ (h.shown 0 p.y).isSome = true

namespace Layout

variable {p : Pane} {h : Written} {c : UInt8}

/-- A cleared screen. -/
theorem blank (hx : p.x = 0) (hy : p.y = 0) : Layout p .blank := by
  refine ⟨⟨rfl, rfl, ?_⟩, ?_, fun _ => hx, ?_, fun _ _ _ => rfl, fun x h₀ h₁ => ?_, ?_, ?_⟩
  · intro x y c hc
    contradiction
  · rw [hx, hy]
    exact ⟨Int.le_refl 0, by decide, Int.le_refl 0, by decide⟩
  · intro x y c hc
    contradiction
  · omega
  · intro r hedge
    contradiction
  · intro hedge
    contradiction

/-- A full page: the cursor is at the start of the row below it, and that row is blank. -/
theorem of_full (hf : Layout p h) (hfull : numCols * p.y + p.x ≥ numCols * numRows) :
    h.edge ≠ some p.y ∧
      ∀ x y c, h.shown x y = some c → 0 ≤ x ∧ x < 80 ∧ 0 ≤ y ∧ y ≤ 24 := by
  obtain ⟨-, hx, -, hy⟩ := hf.onScreen
  dsimp only at hx hy
  have hrow : p.y = 25 := by
    unfold numCols numRows at hfull
    omega
  have hedge : h.edge ≠ some p.y := by
    intro hedge
    have hlast := (hf.edge hedge).2.1
    omega
  refine ⟨hedge, fun x y c hc => ?_⟩
  obtain ⟨h₀, h₁, h₂, h₃⟩ := hf.inside x y c hc
  refine ⟨h₀, h₁, h₂, ?_⟩
  by_contra hgt
  have hcolumn := hf.below hrow
  have hnone := hf.behind hedge x (by omega)
  rw [show p.y = y by omega, hc] at hnone
  contradiction

/-- **A full page rolls up,** and what is written with it. -/
theorem start (hf : Layout p h) :
    Layout (p.start videoBase) (h.roll p) ∧ (p.start videoBase).y ≤ 24 := by
  by_cases hfull : numCols * p.y + p.x ≥ numCols * numRows
  · obtain ⟨hedge, hpage⟩ := hf.of_full hfull
    have hscroll {x y : ℤ} {c : UInt8} (hc : h.scroll.shown x y = some c) :
        h.shown x (y + 1) = some c ∧ 0 ≤ x ∧ x < 80 ∧ 0 ≤ y ∧ y ≤ 23 := by
      have hif : (if 0 ≤ y then h.shown x (y + 1) else none) = some c := hc
      split_ifs at hif with hpos
      obtain ⟨h₀, h₁, -, h₃⟩ := hpage x (y + 1) c hif
      exact ⟨hif, h₀, h₁, hpos, by omega⟩
    have habove {r : ℤ} (hr : h.scroll.edge = some r) : r < 24 := by
      obtain ⟨r', hr', rfl⟩ := Option.map_eq_some_iff.mp hr
      have hle := hf.above r' hr'
      have hbelow := hf.onScreen.2.2.2
      dsimp only at hbelow
      have hne : r' ≠ p.y := fun heq => hedge (heq ▸ hr')
      omega
    have hstart : p.start videoBase =
        { video := clearCells (scrollCells p.video videoBase 1920) videoBase
            ((numRows - 1) * numCols) 80
          x := 0
          y := 24 } := if_pos hfull
    have hroll : h.roll p = h.scroll := if_pos hfull
    rw [hstart, hroll]
    refine ⟨⟨⟨hf.kept, hf.nextRow, fun x y c hc => ?_⟩, ?_, fun _ => rfl, fun x y c hc => ?_,
      fun _ x _ => ?_, fun x h₀ h₁ => ?_, fun r hr => ?_, fun hr => ?_⟩, Int.le_refl 24⟩
    · obtain ⟨hc, h₀, h₁, h₂, h₃⟩ := hscroll hc
      have hcell := hf.shown x (y + 1) c hc
      unfold cellAddr numCols at hcell ⊢
      dsimp only
      rw [clearCells_char _ _ _ (Or.inl (by unfold numRows; omega)), scrollCells_char,
        if_pos (by omega), ← hcell]
      congr 1
      omega
    · simp [OnScreen]
    · obtain ⟨-, h₀, h₁, h₂, h₃⟩ := hscroll hc
      exact ⟨h₀, h₁, h₂, show y ≤ 24 by omega⟩
    · cases hshown : h.scroll.shown x 24 with
      | none => rfl
      | some c =>
        have hle := (hscroll hshown).2.2.2.2
        omega
    · have hlt : x < 0 := h₁
      omega
    · exact Int.le_of_lt (habove hr)
    · have hlt : (24 : ℤ) < 24 := habove hr
      omega
  · have hstart : p.start videoBase = p := if_neg hfull
    have hroll : h.roll p = h := if_neg hfull
    rw [hstart, hroll]
    unfold numCols numRows at hfull
    obtain ⟨hx, -, -, -⟩ := hf.onScreen
    dsimp only at hx
    exact ⟨hf, by omega⟩

/-- What is rolled up with the cursor is what was in the row of the cursor. -/
theorem edge_of_roll (hf : Layout p h) (hedge : (h.roll p).edge = some (p.start videoBase).y) :
    h.edge = some p.y := by
  unfold Written.roll Pane.start at hedge
  split_ifs at hedge with hfull
  · obtain ⟨-, hx, -, hy⟩ := hf.onScreen
    dsimp only at hx hy
    obtain ⟨r, hr, hlast⟩ := Option.map_eq_some_iff.mp hedge
    unfold numCols numRows at hfull
    rw [hr, show r = p.y by dsimp only [numRows] at hlast; omega]
  · exact hedge

/-- **A newline** takes the cursor to a blank row. -/
theorem newline (hf : Layout p h) (hrow : p.y ≤ 24) : Layout p.newline h := by
  obtain ⟨-, -, hy, -⟩ := hf.onScreen
  dsimp only at hy
  refine ⟨hf.toKeepsText, ?_, fun _ => rfl, fun x y c hc => ?_,
    fun _ x _ => ?_, fun x h₀ h₁ => ?_, fun r hr => ?_, fun hr => ?_⟩
  · exact ⟨Int.le_refl 0, show (0 : ℤ) < 80 by decide, show 0 ≤ p.y + 1 by omega,
      show p.y + 1 ≤ 25 by omega⟩
  · obtain ⟨h₀, h₁, h₂, h₃⟩ := hf.inside x y c hc
    exact ⟨h₀, h₁, h₂, show y ≤ p.y + 1 by omega⟩
  · cases hshown : h.shown x (p.y + 1) with
    | none => exact hshown
    | some c =>
      have hle := (hf.inside x (p.y + 1) c hshown).2.2.2
      omega
  · have hlt : x < 0 := h₁
    omega
  · have hle := hf.above r hr
    exact show r ≤ p.y + 1 by omega
  · have hle := hf.above (p.y + 1) hr
    omega

/-- What is drawn is below the last character in column 79, unless that is in its row. -/
theorem not_any_edge (hf : Layout p h) (hedge : h.edge ≠ some p.y) :
    h.edge.any (p.y ≤ ·) = false := by
  cases hlast : h.edge with
  | none => rfl
  | some r =>
    have hle := hf.above r hlast
    have hne : r ≠ p.y := fun heq => hedge (heq ▸ hlast)
    simp only [Option.any_some, decide_eq_false_iff_not]
    omega

/-- **A character** that does not follow one in column 79 of its row goes to a blank cell. -/
theorem char (hf : Layout p h) (hrow : p.y ≤ 24) (hc : ¬ (c = 10 ∨ c = 13))
    (hedge : h.edge ≠ some p.y) :
    Layout ((p.draw videoBase c).moveTo (p.x + 1)) (h.draw p c) := by
  obtain ⟨hx, hx', hy, -⟩ := hf.onScreen
  dsimp only at hx hx' hy
  have hblank : h.shown p.x p.y = none := hf.behind hedge p.x (Int.le_refl _)
  have hdraw : h.draw p c = _ := if_neg hc
  have hmove : (p.draw videoBase c).moveTo (p.x + 1) =
      { p.draw videoBase c with x := if p.x = 79 then 0 else p.x + 1, y := p.y } :=
    Pane.moveTo_next (p := p.draw videoBase c) hx hx' hy hrow
  have hcell (x y : ℤ) : (p.draw videoBase c).video (cellAddr videoBase x y)
      = if numCols * y + x = numCols * p.y + p.x then c else p.video (cellAddr videoBase x y) :=
    putCell_char _ _ _ _ _
  rw [hdraw, hmove]
  refine ⟨⟨?_, ?_, fun x y d hd => ?_⟩, ?_, fun h25 => ?_, fun x y d hd => ?_, fun hnot x hle => ?_,
    fun x h₀ h₁ => ?_, fun r hr => ?_, fun hlast => ?_⟩
  · simp [hf.kept, hblank]
  · simp [hf.nextRow, hf.not_any_edge hedge]
  · dsimp only at hd ⊢
    rw [hcell]
    split_ifs at hd with hat
    · rw [hat.1, hat.2, if_pos rfl]
      exact Option.some.inj hd
    · obtain ⟨h₀, h₁, -, -⟩ := hf.inside x y d hd
      rw [if_neg (by unfold numCols; omega)]
      exact hf.shown x y d hd
  · refine ⟨?_, ?_, hy, show p.y ≤ 25 by omega⟩ <;> dsimp only <;> split_ifs <;> omega
  · dsimp only at h25
    omega
  · dsimp only at hd ⊢
    split_ifs at hd with hat
    · omega
    · exact hf.inside x y d hd
  · dsimp only at hnot hle ⊢
    have hne : p.x ≠ 79 := fun heq => hnot (if_pos heq)
    rw [if_neg hne] at hle
    rw [if_neg (by omega)]
    exact hf.behind hedge x (by omega)
  · dsimp only at h₁ ⊢
    split_ifs at h₁ with hlast
    · omega
    · by_cases hat : x = p.x
      · simp [hat]
      · rw [if_neg (by omega)]
        exact hf.before x h₀ (by omega)
  · dsimp only at hr ⊢
    split_ifs at hr
    · exact Int.le_of_eq (Option.some.inj hr).symm
  · dsimp only at hlast ⊢
    split_ifs at hlast with heq
    rw [if_pos heq, if_neg (by omega)]
    exact ⟨rfl, hrow, hf.before 0 (Int.le_refl 0) (by omega)⟩

/-- **A character or a newline:** after one in column 79 it must be a newline. -/
theorem put (hf : Layout p h) (hback : c ≠ 8) (htab : c ≠ 9)
    (hedge : h.edge = some p.y → c = 10 ∨ c = 13) : Layout (p.putc videoBase c) (h.put p c) := by
  obtain ⟨hstart, hrow⟩ := hf.start
  unfold Pane.putc Written.put Written.draw
  dsimp only
  rw [if_neg hback, if_neg htab]
  by_cases hnew : c = 10 ∨ c = 13
  · rw [if_pos hnew, if_pos hnew]
    exact hstart.newline hrow
  · rw [if_neg hnew, if_neg hnew]
    have hchar := hstart.char hrow hnew
    unfold Written.draw at hchar
    rw [if_neg hnew] at hchar
    exact hchar fun hlast => hnew (hedge (hf.edge_of_roll hlast))

/-- **Any other** is put where a character is, no lower than the one in column 79. -/
theorem put_overwrites (hf : Layout p h) (hedge : h.edge = some p.y) (hc : ¬ (c = 10 ∨ c = 13)) :
    (h.put p c).overwritten = true ∧ (h.put p c).stayed = true := by
  obtain ⟨hx, hy, hshown⟩ := hf.edge hedge
  have hroom : ¬ numCols * p.y + p.x ≥ numCols * numRows := by
    unfold numCols numRows
    omega
  have hstart : p.start videoBase = p := if_neg hroom
  have hroll : h.roll p = h := if_neg hroom
  have hdraw : h.draw p c = _ := if_neg hc
  rw [Written.put, hstart, hroll, hdraw]
  dsimp only
  rw [hx, hshown, hedge]
  simp

/-- A newline leaves the row of what is written. -/
theorem edge_newline (hf : Layout p h) : (h.put p 10).edge ≠ some (p.putc videoBase 10).y := by
  have hput : h.put p 10 = h.roll p := by simp [Written.put, Written.draw]
  rw [hput, Pane.putc_newline _ _ (Or.inl rfl)]
  intro hedge
  have hle := hf.start.1.above _ hedge
  have hlt : (p.start videoBase).y + 1 ≤ (p.start videoBase).y := hle
  omega

/-- **A piece of text:** after a character in column 79 it must start with a newline. -/
theorem puts {cs : List UInt8} (hf : Layout p h) (hpiece : IsPiece cs)
    (hedge : h.edge = some p.y → ∀ c ∈ cs.head?, c = 10) :
    Layout (cs.foldl (fun p c => p.putc videoBase c) p) (h.puts p cs) := by
  induction cs generalizing p h with
  | nil => exact hf
  | cons c cs ih =>
    obtain ⟨hplain, hlines⟩ := hpiece
    obtain ⟨hc, hplain⟩ := List.forall_mem_cons.mp hplain
    have hput := hf.put (fun heq => hc (by simp [heq])) (fun heq => hc (by simp [heq]))
      fun hlast => Or.inl (hedge hlast c rfl)
    cases cs with
    | nil => exact hput
    | cons d cs =>
      have hnew : c = 10 := hlines c List.mem_cons_self
      refine ih hput ⟨hplain, fun c hc => hlines c (List.mem_cons_of_mem _ hc)⟩ fun hlast => ?_
      rw [hnew] at hlast
      exact absurd hlast hf.edge_newline

/-- **It keeps the text** exactly then. -/
theorem keepsText_puts_iff {cs : List UInt8} (hf : Layout p h) (hpiece : IsPiece cs) :
    KeepsText (h.puts p cs) (cs.foldl (fun p c => p.putc videoBase c) p).video ↔
      (h.edge = some p.y → ∀ c ∈ cs.head?, c = 10) := by
  refine ⟨fun hkeeps hedge c hc => ?_, fun hedge => (hf.puts hpiece hedge).toKeepsText⟩
  by_contra hne
  cases cs with
  | nil => exact absurd hc (by simp)
  | cons d cs =>
    obtain rfl : d = c := Option.some.inj hc
    cases cs with
    | nil =>
      have hchar : ¬ (d = 10 ∨ d = 13) := by
        rintro (h10 | h13)
        · exact hne h10
        · exact hpiece.1 d List.mem_cons_self (by simp [h13])
      have hover := (hf.put_overwrites hedge hchar).1
      rw [show (h.put p d).overwritten = false from hkeeps.kept] at hover
      contradiction
    | cons e cs => exact hne (hpiece.2 d List.mem_cons_self)

end Layout

/-! ### What is output -/

/-- What the echo of a character outputs. -/
def Console.echoed (t : Console) (c : UInt8) : List UInt8 :=
  if t.visible.bufferCt = 127 then [] else if t.rowLetterCt = 80 then [10, c] else [c]

/-- What a key outputs, by what it means. -/
def Console.keyOutputs (t : Console) : Option KeyInput → List UInt8
  | some .enter => [10]
  | some (.char c) => t.echoed c
  | _ => []

section Keys

variable {k : Keys} {t : Console}

theorem newline_ne_tab : (10 : UInt8) ≠ 9 := by decide

theorem pane_putc (t : Console) {c : UInt8} (h : c ≠ 9) :
    (t.putc c).pane = t.pane.putc videoBase c := by
  rw [Console.putc_eq t h]
  rfl

theorem pane_wrapRow (k : Keys) (t : Console) : (wrapRow k t).2.pane =
    if t.rowLetterCt = 80 then t.pane.putc videoBase 10 else t.pane := by
  unfold wrapRow
  split_ifs
  · exact pane_putc t newline_ne_tab
  · rfl

theorem pane_storeKey (t : Console) (c : UInt8) : (t.storeKey c).pane = t.pane := by
  unfold Console.storeKey
  split_ifs <;> rfl

/-- With no modifier down, a character is echoed after the row is wrapped. -/
theorem foldl_echoed (hmod : ¬ (k.ctrl = true ∨ k.alt = true)) (c : UInt8) :
    (t.echoed c).foldl (fun p c => p.putc videoBase c) t.pane =
      if Refuses k t then t.pane else (wrapRow k t).2.pane.putc videoBase c := by
  have hrefuses : Refuses k t ↔ t.visible.bufferCt = 127 := by
    unfold Refuses
    rw [← or_assoc]
    exact or_iff_right hmod
  rw [pane_wrapRow, Console.echoed]
  simp only [hrefuses]
  split_ifs <;> rfl

theorem pane_symbolKey (hmod : ¬ (k.ctrl = true ∨ k.alt = true)) {plain shifted : UInt8}
    (htab : (if k.shift then shifted else plain) ≠ 9) : (symbolKey k t plain shifted).2.pane =
      (t.echoed (if k.shift then shifted else plain)).foldl (fun p c => p.putc videoBase c)
        t.pane := by
  rw [foldl_echoed hmod]
  unfold symbolKey
  by_cases hrefuses : Refuses k t
  · rw [if_pos hrefuses, if_pos hrefuses]
  · rw [if_neg hrefuses, if_neg hrefuses]
    dsimp only
    rw [(shift_wrapRow k t).1]
    exact (pane_storeKey _ _).trans (pane_putc _ htab)

theorem pane_printableKey (hmod : ¬ (k.ctrl = true ∨ k.alt = true)) {scanCode : UInt8}
    (htab : printedChar k scanCode ≠ 9) : (printableKey k t scanCode).2.pane =
      (t.echoed (printedChar k scanCode)).foldl (fun p c => p.putc videoBase c) t.pane := by
  rw [foldl_echoed hmod]
  unfold printableKey
  split_ifs with hrefuses
  · rfl
  · dsimp only
    rw [printedChar_wrapRow, pane_putc _ htab, pane_storeKey]
    rfl

theorem pane_spaceKey (hmod : ¬ (k.ctrl = true ∨ k.alt = true)) : (spaceKey k t).2.pane =
    (t.echoed 32).foldl (fun p c => p.putc videoBase c) t.pane := by
  rw [foldl_echoed hmod]
  unfold spaceKey
  split_ifs with hrefuses
  · rfl
  · dsimp only
    rw [pane_storeKey]
    exact pane_putc _ (show (32 : UInt8) ≠ 9 by decide)

end Keys

/-- `u` is `t` after the characters `cs` output on the screen. -/
structure Console.Prints (t : Console) (cs : List UInt8) (u : Console) : Prop where
  num : u.terminalNum = t.terminalNum
  pane : u.pane = cs.foldl (fun p c => p.putc videoBase c) t.pane

section Prints

variable {s : Kernel} {t u v : Console} {c : UInt8} {cs ds : List UInt8}

theorem Console.Prints.trans (h : Prints t cs u) (h' : Prints u ds v) : Prints t (cs ++ ds) v := by
  refine ⟨h'.num.trans h.num, ?_⟩
  rw [h'.pane, h.pane, List.foldl_append]

theorem Console.prints_putc (t : Console) (hc : c ≠ 9) : Prints t [c] (t.putc c) := by
  refine ⟨?_, pane_putc t hc⟩
  rw [putc_eq t hc]
  rfl

/-- A character of the visible terminal's process. -/
theorem Kernel.emit_prints (hvisible : s.scheduleIdx = s.console.terminalNum) (hc : c ≠ 9) :
    Console.Prints s.console [c] (s.emit c).console := by
  have hemit : (s.emit c).console = s.console.putc c := if_neg (not_not.mpr hvisible)
  rw [hemit]
  exact Console.prints_putc _ hc

/-- **One turn** of the loop on the visible terminal. -/
theorem Kernel.writeByte_prints (hvisible : s.scheduleIdx = s.console.terminalNum) (hc : c ≠ 9) :
    Console.Prints s.console (s.turn c) (s.writeByte c).console := by
  have hcase := s.writeByte_cases c
  generalize s.turn c = cs at hcase ⊢
  generalize s.writeByte c = t at hcase ⊢
  cases hcase with
  | nul => exact ⟨rfl, rfl⟩
  | wrap =>
    have hline := emit_prints hvisible newline_ne_tab
    set u := ((s.emit 10).modifyConsole fun t => { t with lineCt := 0 }).modifyConsole fun t =>
      { t with bytesWritten := t.bytesWritten + 1, lineCt := t.lineCt + 1 }
    have hnext : Console.Prints s.console [10] u.console := ⟨hline.num, hline.pane⟩
    exact hnext.trans (emit_prints (hvisible.trans hline.num.symm) hc)
  | newline =>
    have hchar := emit_prints (s := (s.modifyConsole fun t => { t with lineCt := 0 }).modifyConsole
      fun t => { t with bytesWritten := t.bytesWritten + 1, lineCt := t.lineCt + 1 }) hvisible hc
    exact ⟨hchar.num, hchar.pane⟩
  | plain =>
    have hchar := emit_prints (s := s.modifyConsole fun t =>
      { t with bytesWritten := t.bytesWritten + 1, lineCt := t.lineCt + 1 }) hvisible hc
    exact ⟨hchar.num, hchar.pane⟩

end Prints

namespace Desk

variable (s : Desk)

/-- What an event outputs on the visible terminal. -/
def outputs : DeskEvent → List UInt8
  | .key scanCode => s.kernel.console.keyOutputs (keyInput s.keys scanCode)
  | .writeByte _ ch => s.kernel.turn ch
  | .writeTail idx buf =>
    (if Kernel.startsWith buf "exit" 5 then [10] else []) ++
      (if s.kernel.console.catFlag idx ∧ ¬ Kernel.startsWith buf "391OS> " 9 then [10] else [])
  | _ => []

/-- A key that echoes text or nothing, or a piece of a `terminal_write` of text by the process
of the visible terminal: no backspace, tab, clear or switch. -/
def TextEvent : DeskEvent → Prop
  | .key scanCode => scanCode ≠ Scan.backspace ∧ scanCode ≠ Scan.tab ∧
      ¬ Switches s.keys scanCode ∧ ¬ (s.keys.ctrl = true ∧ scanCode = Scan.l)
  | .switchTerminals _ => False
  | .writeHead _ => True
  | .writeByte idx ch => idx = s.kernel.console.terminalNum ∧ ch ∉ [8, 9, 13]
  | .writeTail idx _ => idx = s.kernel.console.terminalNum

/-- The counter that is looked at is in step with the screen: when the last character is in
column 79 and the cursor still in its row, it is 80 at the next character. -/
def InStep (h : Written) (e : DeskEvent) : Prop :=
  h.edge = some s.kernel.console.screenY →
    match e with
    | .key scanCode => ∀ c, keyInput s.keys scanCode = some (.char c) →
        s.kernel.console.visible.bufferCt ≠ 127 → s.kernel.console.rowLetterCt = 80
    | .writeByte _ ch => ch ≠ 0 → ch ≠ 10 → s.kernel.console.lineCt = rowLim
    | _ => True

variable {s} {e : DeskEvent}

/-- **What a key outputs.** -/
theorem key_prints {scanCode : UInt8} (htext : s.TextEvent (.key scanCode)) :
    Console.Prints s.kernel.console (s.kernel.console.keyOutputs (keyInput s.keys scanCode))
        (keyboardHandler s.keys s.kernel.console scanCode).2 ∧
      ∀ c, keyInput s.keys scanCode = some (.char c) → c ∉ [8, 9, 10, 13] := by
  obtain ⟨hback, htab, hswitch, hclear⟩ := htext
  have hmeans := keyboardHandler_means s.keys s.kernel.console scanCode
  have hnum := (keyboardHandler_pressed s.keys s.kernel.console scanCode).num
  generalize keyInput s.keys scanCode = i at hmeans hnum ⊢
  generalize keyboardHandler s.keys s.kernel.console scanCode = r at hmeans hnum ⊢
  cases hmeans with
  | enter =>
    refine ⟨⟨hnum, pane_putc _ newline_ne_tab⟩, ?_⟩
    rintro c ⟨⟩
  | switch next h => contradiction
  | clear hctrl hcode => exact absurd ⟨hctrl, hcode⟩ hclear
  | silent k' =>
    refine ⟨⟨hnum, rfl⟩, ?_⟩
    rintro c ⟨⟩
  | backspace hcode => contradiction
  | space hmod =>
    refine ⟨⟨hnum, pane_spaceKey hmod⟩, ?_⟩
    rintro c ⟨⟩
    decide
  | tab hmod hcode => contradiction
  | symbol hmod plain shifted hpair =>
    have hplain : (if s.keys.shift then shifted else plain) ∉ [(8 : UInt8), 9, 10, 13] := by
      simp only [List.mem_cons, Prod.mk.injEq, List.not_mem_nil, or_false] at hpair
      rcases hpair with ⟨rfl, rfl⟩ | ⟨rfl, rfl⟩ | ⟨rfl, rfl⟩ <;> split_ifs <;> decide
    refine ⟨⟨hnum, pane_symbolKey hmod fun htab => hplain ?_⟩, ?_⟩
    · rw [htab]
      decide
    · rintro c ⟨⟩
      exact hplain
  | printable hmod =>
    have hplain := printedChar_of_tables (P := fun c => c ∉ [(8 : UInt8), 9, 10, 13]) (by decide)
      (by decide +kernel) (by decide +kernel) s.keys scanCode
    refine ⟨⟨hnum, pane_printableKey hmod fun htab => hplain ?_⟩, ?_⟩
    · rw [htab]
      decide
    · rintro c ⟨⟩
      exact hplain

/-- **What an event outputs** goes through `putc`, character by character. -/
theorem next_prints (htext : s.TextEvent e) :
    Console.Prints s.kernel.console (s.outputs e) (s.next e).kernel.console := by
  cases e with
  | key scanCode => exact (key_prints htext).1
  | switchTerminals next => contradiction
  | writeHead buf =>
    unfold next Kernel.writeHead Kernel.modifyConsole outputs
    dsimp only
    split_ifs <;> exact ⟨rfl, rfl⟩
  | writeByte idx ch =>
    obtain ⟨hidx, hplain⟩ := htext
    have htab : ch ≠ 9 := fun htab => hplain (by simp [htab])
    exact Kernel.writeByte_prints (s := { s.kernel with scheduleIdx := idx }) hidx htab
  | writeTail idx buf =>
    have hnew (t : Console) := t.prints_putc newline_ne_tab
    have hflags (t : Console) : (t.putc 10).catFlag = t.catFlag := by
      rw [Console.putc_eq t newline_ne_tab]
      rfl
    set t : Console := { s.kernel.console with helloFlag := Kernel.startsWith buf "Hello, " 8 }
    have hhello : Console.Prints s.kernel.console [] t := ⟨rfl, rfl⟩
    have hlast (u : Console) (f : ℕ → Bool) : Console.Prints u [] { u with catFlag := f } :=
      ⟨rfl, rfl⟩
    unfold next Kernel.writeTail Kernel.modifyConsole outputs
    dsimp only
    by_cases hexit : Kernel.startsWith buf "exit" 5 = true
    · rw [if_pos hexit, if_pos hexit, hflags]
      have hexited := hhello.trans (hnew t)
      split_ifs
      · exact hexited.trans (hnew _)
      · exact hexited.trans (hlast _ _)
    · rw [if_neg hexit, if_neg hexit]
      split_ifs
      · exact hhello.trans (hnew t)
      · exact hhello.trans (hlast t _)

theorem isPiece_outputs (htext : s.TextEvent e) : IsPiece (s.outputs e) := by
  have hnew : (10 : UInt8) ∉ [8, 9, 13] := by decide
  cases e with
  | key scanCode =>
    have hplain := (key_prints htext).2
    unfold outputs
    dsimp only
    cases hkey : keyInput s.keys scanCode with
    | none => exact isPiece_nil
    | some i =>
      cases i with
      | enter => exact isPiece_char hnew
      | switch next => exact isPiece_nil
      | erase => exact isPiece_nil
      | char c =>
        have hsub : ∀ d ∈ [(8 : UInt8), 9, 13], d ∈ [(8 : UInt8), 9, 10, 13] := by simp
        have hc : c ∉ [8, 9, 13] := fun hmem => hplain c hkey (hsub c hmem)
        unfold Console.keyOutputs Console.echoed
        dsimp only
        split_ifs
        · exact isPiece_nil
        · exact isPiece_newline_char hc
        · exact isPiece_char hc
  | switchTerminals next => exact isPiece_nil
  | writeHead buf => exact isPiece_nil
  | writeByte idx ch =>
    unfold outputs Kernel.turn
    dsimp only
    split_ifs
    · exact isPiece_nil
    · exact isPiece_newline_char htext.2
    · exact isPiece_char htext.2
  | writeTail idx buf =>
    unfold outputs
    dsimp only
    split_ifs
    · exact isPiece_newline_char hnew
    · exact isPiece_char hnew
    · exact isPiece_char hnew
    · exact isPiece_nil

/-- **The counter is in step** exactly when a character in column 79 is followed by a
newline. -/
theorem inStep_iff (htext : s.TextEvent e) {h : Written} : s.InStep h e ↔
    (h.edge = some s.kernel.console.pane.y → ∀ c ∈ (s.outputs e).head?, c = 10) := by
  refine imp_congr Iff.rfl ?_
  cases e with
  | key scanCode =>
    have hplain := (key_prints htext).2
    unfold outputs
    dsimp only
    generalize keyInput s.keys scanCode = i at hplain
    cases i with
    | none => simp [Console.keyOutputs]
    | some i =>
      cases i with
      | enter => simp [Console.keyOutputs]
      | switch next => simp [Console.keyOutputs]
      | erase => simp [Console.keyOutputs]
      | char c =>
        have hc : c ≠ 10 := fun heq => hplain c rfl (by simp [heq])
        unfold Console.keyOutputs Console.echoed
        split_ifs <;> simp [*]
  | switchTerminals next => contradiction
  | writeHead buf => simp [outputs]
  | writeByte idx ch =>
    unfold outputs Kernel.turn
    by_cases hnul : ch = 0
    · simp [hnul]
    by_cases hnew : ch = 10
    · simp [hnew]
    by_cases hfull : s.kernel.console.lineCt = rowLim <;> simp [hnul, hnew, hfull]
  | writeTail idx buf =>
    unfold outputs
    dsimp only
    split_ifs <;> simp

end Desk

/-- What is written after an event. -/
def Written.next (s : Desk) (h : Written) (e : DeskEvent) : Written :=
  h.puts s.kernel.console.pane (s.outputs e)

/-- **Displayed text is kept while the counters are in step.**  From a cleared screen on, in
every run of keys and of pieces of `terminal_write` calls of text on the visible terminal, in
any order, in which the counter is 80 at each character that directly follows one in column 79,
no character is put where one was and each after column 79 is in a lower row; the next event
keeps it so exactly when it meets the condition too. -/
theorem keepsText_of_run {s t : Desk} {h : Written} {es : List DeskEvent}
    (hx : s.kernel.console.screenX = 0) (hy : s.kernel.console.screenY = 0)
    (hr : Run (Guarded (fun p e => p.1.TextEvent e ∧ p.1.InStep p.2 e)
      (Recorded Written.next DeskStep)) (s, .blank) es (t, h)) :
    KeepsText h t.kernel.console.video ∧
      ∀ e u, t.TextEvent e → DeskStep t e u →
        (KeepsText (Written.next t h e) u.kernel.console.video ↔ t.InStep h e) := by
  have hlayout : Layout t.kernel.console.pane h := by
    refine hr.invariant (I := fun p : Desk × Written => Layout p.1.kernel.console.pane p.2) ?_
      (Layout.blank hx hy)
    rintro ⟨s, h⟩ e ⟨t, h'⟩ hf ⟨⟨htext, hstep⟩, ⟨-, rfl⟩, rfl⟩
    dsimp only
    rw [(Desk.next_prints htext).pane]
    exact hf.puts (Desk.isPiece_outputs htext) ((Desk.inStep_iff htext).mp hstep)
  refine ⟨hlayout.toKeepsText, ?_⟩
  rintro e u htext ⟨-, rfl⟩
  have hvideo : (t.next e).kernel.console.video = (t.next e).kernel.console.pane.video := rfl
  rw [hvideo, (Desk.next_prints htext).pane, Desk.inStep_iff htext]
  exact hlayout.keepsText_puts_iff (Desk.isPiece_outputs htext)

/-! ### A full row -/

/-- A letter counts. -/
theorem Desk.lineCt_writeByte {s : Desk} (hnum : s.kernel.console.terminalNum = 0)
    (hroom : s.kernel.console.lineCt ≠ rowLim) :
    (s.next (.writeByte 0 97)).kernel.console.lineCt = s.kernel.console.lineCt + 1 := by
  have hcase := Kernel.writeByte_cases { s.kernel with scheduleIdx := 0 } 97
  have hnext : (s.next (.writeByte 0 97)).kernel =
      Kernel.writeByte { s.kernel with scheduleIdx := 0 } 97 := rfl
  rw [hnext]
  generalize Kernel.turn _ 97 = cs at hcase
  generalize Kernel.writeByte _ 97 = t at hcase ⊢
  cases hcase with
  | nul hnul => exact absurd hnul (by decide)
  | wrap hfull => exact absurd hfull hroom
  | newline hnew => exact absurd hnew (by decide)
  | plain =>
    unfold Kernel.emit Kernel.modifyConsole
    dsimp only
    rw [if_neg (not_not.mpr hnum.symm), Console.putc_eq _ (by decide)]
    rfl

/-- The first terminal's process has written `n` letters to the first row in a call, and nothing
else is on the screen. -/
structure InFirstRow (p : Desk × Written) (n : ℕ) : Prop where
  terminalNum : p.1.kernel.console.terminalNum = 0
  lineCt : p.1.kernel.console.lineCt = n
  screenX : p.1.kernel.console.screenX = if n = 80 then 0 else (n : ℤ)
  screenY : p.1.kernel.console.screenY = 0
  edge : p.2.edge = if n = 80 then some 0 else none

/-- **One letter more** takes the cursor a column on, from the last one to the first. -/
theorem InFirstRow.next {s : Desk} {h : Written} {n : ℕ} (hrow : InFirstRow (s, h) n)
    (hn : n < 80) :
    InFirstRow (s.next (.writeByte 0 97), Written.next s h (.writeByte 0 97)) (n + 1) := by
  obtain ⟨hnum, hline, hx, hy, -⟩ := hrow
  dsimp only at hnum hline hx hy
  rw [if_neg (by omega)] at hx
  have hroom : s.kernel.console.lineCt ≠ rowLim := by
    unfold rowLim
    omega
  have houtputs : s.outputs (.writeByte 0 97) = [97] := by simp [Desk.outputs, Kernel.turn, hroom]
  have hprints := Desk.next_prints (s := s) (e := .writeByte 0 97) ⟨hnum.symm, by decide⟩
  rw [houtputs] at hprints
  set p := s.kernel.console.pane with hp
  have hx' : p.x = n := hx
  have hy' : p.y = 0 := hy
  have hpage : ¬ numCols * p.y + p.x ≥ numCols * numRows := by
    unfold numCols numRows
    omega
  have hstart : p.start videoBase = p := if_neg hpage
  have hroll : h.roll p = h := if_neg hpage
  have hpane : (s.next (.writeByte 0 97)).kernel.console.pane =
      { p.draw videoBase 97 with x := if p.x = 79 then 0 else p.x + 1 } := by
    rw [hprints.pane, List.foldl_cons, List.foldl_nil]
    exact Pane.putc_next (p := p) (by omega) (by omega) (by omega) (by omega) (by decide)
  have hwritten : (Written.next s h (.writeByte 0 97)).edge =
      if p.x = 79 then some p.y else none := by
    rw [Written.next, houtputs, Written.puts, Written.puts, Written.put, hstart, hroll]
    rfl
  refine ⟨hprints.num.trans hnum, ?_, ?_, (congrArg Pane.y hpane).trans hy, ?_⟩
  · refine (Desk.lineCt_writeByte hnum hroom).trans ?_
    rw [hline]
    rfl
  · refine (congrArg Pane.x hpane).trans ?_
    dsimp only
    rw [hx']
    split_ifs <;> omega
  · rw [hwritten, hx', hy']
    exact if_congr (by omega) rfl rfl

/-- **A row of letters** meets the condition on the way, by induction on the letters. -/
theorem run_firstRow {n : ℕ} (hn : n ≤ 80) :
    ∃ p, Run (Guarded (fun p e => p.1.TextEvent e ∧ p.1.InStep p.2 e)
        (Recorded Written.next DeskStep)) (clearedDesk, .blank)
        (.writeHead (fun _ => 97) :: List.replicate n (.writeByte 0 97)) p ∧ InFirstRow p n := by
  induction n with
  | zero =>
    exact ⟨_, .single ⟨⟨trivial, fun _ => trivial⟩, ⟨trivial, rfl⟩, rfl⟩,
      ⟨by decide +kernel, by decide +kernel, by decide +kernel, by decide +kernel, rfl⟩⟩
  | succ n ih =>
    obtain ⟨⟨s, h⟩, hr, hrow⟩ := ih (by omega)
    have hedge : h.edge = none := hrow.edge.trans (if_neg (by omega))
    refine ⟨_, ?_, hrow.next (by omega)⟩
    rw [List.replicate_succ', ← List.cons_append]
    refine hr.append (.single ⟨⟨⟨hrow.terminalNum.symm, by decide⟩, fun hlast => ?_⟩,
      ⟨show 0 < 3 by decide, rfl⟩, rfl⟩)
    rw [hedge] at hlast
    contradiction

/-- 80 letters in a call, the last of them in column 79, and one more: it is put below. -/
theorem keepsText_letters :
    ∃ p u, Run (Guarded (fun p e => p.1.TextEvent e ∧ p.1.InStep p.2 e)
        (Recorded Written.next DeskStep)) (clearedDesk, .blank)
        (.writeHead (fun _ => 97) :: List.replicate 80 (.writeByte 0 97)) p ∧
      p.2.edge = some p.1.kernel.console.screenY ∧ DeskStep p.1 (.writeByte 0 98) u ∧
      KeepsText (Written.next p.1 p.2 (.writeByte 0 98)) u.kernel.console.video := by
  obtain ⟨⟨s, h⟩, hr, hrow⟩ := run_firstRow (Nat.le_refl 80)
  have hstep : DeskStep s (.writeByte 0 98) _ := ⟨show 0 < 3 by decide, rfl⟩
  have htext : s.TextEvent (.writeByte 0 98) := ⟨hrow.terminalNum.symm, by decide⟩
  refine ⟨(s, h), _, hr, hrow.edge.trans ?_, hstep, ?_⟩
  · rw [hrow.screenY]
    rfl
  · exact ((keepsText_of_run rfl rfl hr).2 _ _ htext hstep).mpr fun _ _ _ => hrow.lineCt

/-! ### Two calls -/

/-- Pieces of text for the first terminal, and what is written by them. -/
theorem run_text {s t : Desk} {es : List DeskEvent} (hr : Run DeskStep s es t) {h : Written}
    (hnum : s.kernel.console.terminalNum = 0)
    (htext : ∀ e ∈ es, ∀ t : Desk, t.kernel.console.terminalNum = 0 → t.TextEvent e) :
    Run (Guarded (fun p e => p.1.TextEvent e) (Recorded Written.next DeskStep)) (s, h) es
      (t, (es.foldl (fun p e => (p.1.next e, Written.next p.1 p.2 e)) (s, h)).2) := by
  induction hr generalizing h with
  | nil => exact .nil _
  | cons hstep _ ih =>
    obtain ⟨hvalid, rfl⟩ := hstep
    obtain ⟨hevent, hevents⟩ := List.forall_mem_cons.mp htext
    exact .cons ⟨hevent _ hnum, ⟨hvalid, rfl⟩, rfl⟩
      (ih (((Desk.next_prints (hevent _ hnum)).num).trans hnum) hevents)

/-- A call of `terminal_write` with `n` letters, by the first terminal's process. -/
def writeLetters (n : ℕ) : List DeskEvent :=
  .writeHead (fun _ => 97) :: (List.range n).map (fun _ => .writeByte 0 97) ++
    [.writeTail 0 fun _ => 97]

/-- The state after the call. -/
def Desk.afterLetters (s : Desk) (n : ℕ) : Desk :=
  { s with kernel := (s.kernel.terminalWrite 1 true (fun _ => 97) n).2 }

theorem run_writeLetters {s : Desk} (hidx : s.kernel.scheduleIdx = 0) (n : ℕ) :
    Run DeskStep s (writeLetters n) (s.afterLetters n) := by
  have hr := run_terminalWrite s (by omega) (Int.natCast_nonneg n) (Int.le_refl 1) fun _ => 97
  rwa [hidx] at hr

theorem text_writeLetters {n : ℕ} {e : DeskEvent} (he : e ∈ writeLetters n) :
    ∀ t : Desk, t.kernel.console.terminalNum = 0 → t.TextEvent e := by
  simp only [writeLetters, List.cons_append, List.mem_cons, List.mem_append, List.mem_map,
    List.not_mem_nil, or_false] at he
  rcases he with rfl | ⟨i, -, rfl⟩ | rfl
  · exact fun _ _ => trivial
  · exact fun t hnum => ⟨hnum.symm, by decide⟩
  · exact fun t hnum => hnum.symm

/-- 80 letters and one more: it is put where the first is. -/
theorem not_keepsText_writeLetters :
    clearedDesk.kernel.console.screenX = 0 ∧ clearedDesk.kernel.console.screenY = 0 ∧
      ∃ h, Run (Guarded (fun p e => p.1.TextEvent e) (Recorded Written.next DeskStep))
          (clearedDesk, .blank) (writeLetters 80 ++ writeLetters 1)
          ((clearedDesk.afterLetters 80).afterLetters 1, h) ∧
        h.overwritten = true ∧ h.stayed = true ∧
        ¬ KeepsText h ((clearedDesk.afterLetters 80).afterLetters 1).kernel.console.video := by
  have hcalls : Run DeskStep clearedDesk (writeLetters 80 ++ writeLetters 1)
      ((clearedDesk.afterLetters 80).afterLetters 1) :=
    (run_writeLetters rfl 80).append (run_writeLetters (by decide +kernel) 1)
  have hr := run_text hcalls (h := .blank) rfl fun e he =>
    (List.mem_append.mp he).elim text_writeLetters text_writeLetters
  have hover : ∀ h, h = ((writeLetters 80 ++ writeLetters 1).foldl
      (fun p e => (p.1.next e, Written.next p.1 p.2 e)) (clearedDesk, .blank)).2 →
      h.overwritten = true ∧ h.stayed = true := by
    intro h hwritten
    rw [hwritten]
    decide +kernel
  obtain ⟨hoverwritten, hstayed⟩ := hover _ rfl
  refine ⟨rfl, rfl, _, hr, hoverwritten, hstayed, fun hkeeps => ?_⟩
  exact Bool.false_ne_true (hkeeps.kept.symm.trans hoverwritten)

end OS391
