/-
# The keyboard interrupt handler

`keyboard.c`.  `keyboardHandler` is what one scan code does to the flags of the modifier
keys and to the console; the branches are those of the source, in its order.  The quote,
the back tick and the backslash have a branch of one shape, `symbolKey`.  The interrupt
controller and `update_cursor` are left out: nothing reads back what they write.
-/

import OS391.Console

namespace OS391

/-- `ctrl`, `shift`, `caps`, `alt` and `newline_bs_flag` -/
structure Keys where
  ctrl : Bool
  shift : Bool
  caps : Bool
  alt : Bool
  newlineBsFlag : Bool
  deriving Inhabited, DecidableEq

/-- `HEADER_LEN` -/
def headerLen : UInt8 := 7

namespace Scan

/-- `ENTER` -/
def enter : UInt8 := 0x1C

/-- `BACKSPACE` -/
def backspace : UInt8 := 0x0E

/-- `SPACEBAR` -/
def spacebar : UInt8 := 0x39

/-- `TAB` -/
def tab : UInt8 := 0x0F

/-- `L_SCAN_CODE` -/
def l : UInt8 := 0x26

/-- `SINGLE_QUOTE_SCAN_CODE` -/
def singleQuote : UInt8 := 0x28

/-- `BACK_TICK_SCAN_CODE` -/
def backTick : UInt8 := 0x29

/-- `BACKSLASH_SCAN_CODE` -/
def backslash : UInt8 := 0x2B

end Scan

/-- `scan_to_char` -/
def scanToChar : List UInt8 :=
  ascii (("..1234567890" ++ "-=..qwertyui" ++ "op[]..asdfghj" ++ "kl;.`..zxcvbnm,./").toList)

/-- `shift_scan` -/
def shiftScan : List UInt8 :=
  ascii (("..!@#$%^&*()" ++ "_+..QWERTYUI" ++ "OP\x7b\x7d..ASDFGHJ" ++ "KL:....ZXCVBNM<>?").toList)

/-- `is_printable` -/
def isPrintable (scanCode : UInt8) : Bool :=
  (0x02 ≤ scanCode ∧ scanCode ≤ 0x0D) ∨ (0x10 ≤ scanCode ∧ scanCode ≤ 0x1B) ∨
    (0x1E ≤ scanCode ∧ scanCode ≤ 0x27) ∨ (0x2C ≤ scanCode ∧ scanCode ≤ 0x35)

/-- `is_letter` -/
def isLetter (scanCode : UInt8) : Bool :=
  (0x10 ≤ scanCode ∧ scanCode ≤ 0x19) ∨ (0x1E ≤ scanCode ∧ scanCode ≤ 0x26) ∨
    (0x2C ≤ scanCode ∧ scanCode ≤ 0x32)

/-- `flag_setters`, where a flag was set -/
def flagSetters (k : Keys) (scanCode : UInt8) : Option Keys :=
  if scanCode = 0x2A ∨ scanCode = 0x36 then some { k with shift := true }
  else if scanCode = 0xAA ∨ scanCode = 0xB6 then some { k with shift := false }
  else if scanCode = 0x1D then some { k with ctrl := true }
  else if scanCode = 0x9D then some { k with ctrl := false }
  else if scanCode = 0x38 then some { k with alt := true }
  else if scanCode = 0xB8 then some { k with alt := false }
  else if scanCode = 0x3A then some { k with caps := !k.caps }
  else none

/-- The character of a printable key. -/
def printedChar (k : Keys) (scanCode : UInt8) : UInt8 :=
  if k.caps = false ∧ k.shift = false then scanToChar.getD scanCode.toNat 0
  else if k.shift = false ∧ isLetter scanCode then shiftScan.getD scanCode.toNat 0
  else if k.shift = false then scanToChar.getD scanCode.toNat 0
  else if k.caps = false then shiftScan.getD scanCode.toNat 0
  else if isLetter scanCode then scanToChar.getD scanCode.toNat 0
  else shiftScan.getD scanCode.toNat 0

/-- What holds of the characters of both tables holds of what is printed. -/
theorem printedChar_of_tables {P : UInt8 → Prop} (hnul : P 0) (hplain : ∀ c ∈ scanToChar, P c)
    (hshifted : ∀ c ∈ shiftScan, P c) (k : Keys) (scanCode : UInt8) :
    P (printedChar k scanCode) := by
  have hgetD {table : List UInt8} (htable : ∀ c ∈ table, P c) (i : ℕ) : P (table.getD i 0) := by
    rw [List.getD_eq_getElem?_getD]
    cases hi : table[i]? with
    | none => exact hnul
    | some c => exact htable c (List.mem_of_getElem? hi)
  have hchar := hgetD hplain scanCode.toNat
  have hshift := hgetD hshifted scanCode.toNat
  unfold printedChar
  generalize scanToChar.getD scanCode.toNat 0 = plain at hchar ⊢
  generalize shiftScan.getD scanCode.toNat 0 = shifted at hshift ⊢
  split_ifs <;> assumption

namespace Console

variable (t : Console)

/-- The visible terminal. -/
def visible : Terminal := t.terminal t.terminalNum

/-- `row_letter_ct++` -/
def incRowLetterCt : Console := { t with rowLetterCt := t.rowLetterCt + 1 }

/-- A character put into the keyboard buffer, if there is room. -/
def storeKey (c : UInt8) : Console :=
  if t.visible.bufferCt < 127 then
    t.modifyTerminal t.terminalNum fun m =>
      { m with
        keyboardBuffer := Function.update m.keyboardBuffer m.bufferCt.toNat c
        bufferCt := m.bufferCt + 1 }
  else t

/-- The last character of the keyboard buffer taken out. -/
def dropKey : Console :=
  { t with rowLetterCt := t.rowLetterCt - 1 }.modifyTerminal t.terminalNum fun m =>
    { m with
      keyboardBuffer := Function.update m.keyboardBuffer (m.bufferCt - 1).toNat 0
      bufferCt := m.bufferCt - 1 }

/-- The last character of the line: four columns of a tab, or one. -/
def lastColumns : ℕ :=
  if t.visible.keyboardBuffer (t.visible.bufferCt.toNat - 1) = 9 then 4 else 1

/-- The backspace key. -/
def backspaceKey : Console :=
  if t.visible.bufferCt ≠ 0 then ((List.replicate t.lastColumns 8).foldl putc t).dropKey else t

end Console

/-- A full row ends before the next character. -/
def wrapRow (k : Keys) (t : Console) : Keys × Console :=
  if t.rowLetterCt = 80 then
    ({ k with newlineBsFlag := false }, { t.printf [10] with rowLetterCt := 0 })
  else (k, t)

/-- `space_handler` -/
def spaceHandler (k : Keys) (t : Console) : Keys × Console :=
  let (k, t) := wrapRow k t
  (k, (t.printf [32]).incRowLetterCt)

/-- No character is taken: a modifier is down, or the buffer is full. -/
def Refuses (k : Keys) (t : Console) : Prop :=
  k.ctrl = true ∨ k.alt = true ∨ t.visible.bufferCt = 127

instance (k : Keys) (t : Console) : Decidable (Refuses k t) := inferInstanceAs (Decidable (_ ∨ _))

/-- The branches of the quote, the back tick and the backslash. -/
def symbolKey (k : Keys) (t : Console) (plain shifted : UInt8) : Keys × Console :=
  if Refuses k t then (k, t)
  else
    let (k, t) := wrapRow k t
    let c := if k.shift then shifted else plain
    (k, ((t.printf [c]).storeKey c).incRowLetterCt)

/-- The branch of the printable characters. -/
def printableKey (k : Keys) (t : Console) (scanCode : UInt8) : Keys × Console :=
  if Refuses k t then (k, t)
  else
    let (k, t) := wrapRow k t
    let c := printedChar k scanCode
    (k, (t.incRowLetterCt.storeKey c).putc c)

/-- The branch of Enter. -/
def enterKey (k : Keys) (t : Console) : Keys × Console :=
  let t := t.modifyTerminal t.terminalNum fun m => { m with enterRead := true }
  ({ k with newlineBsFlag := true }, { t.printf [10] with rowLetterCt := headerLen })

/-- The branch of Ctrl and L. -/
def clearKey (t : Console) : Console :=
  { t.clear with rowLetterCt := headerLen }.printf (ascii "391OS> ".toList)

/-- The branch of the space bar. -/
def spaceKey (k : Keys) (t : Console) : Keys × Console :=
  if Refuses k t then (k, t)
  else
    let (k, t) := spaceHandler k t
    (k, t.storeKey 32)

/-- The branch of the tab. -/
def tabKey (k : Keys) (t : Console) : Console :=
  if Refuses k t then t else (t.storeKey 9).putc 9

/-- The branches of `keyboard_handler` after the flags. -/
def typingKey (k : Keys) (t : Console) (scanCode : UInt8) : Keys × Console :=
  if scanCode = Scan.backspace then
    if k.ctrl = true ∨ k.alt = true then (k, t) else (k, t.backspaceKey)
  else if scanCode = Scan.spacebar then spaceKey k t
  else if scanCode = Scan.tab then (k, tabKey k t)
  -- the codes of `'` and `"`, of the back tick and `~`, of the backslash and `|`
  else if scanCode = Scan.singleQuote then symbolKey k t 39 34
  else if scanCode = Scan.backTick then symbolKey k t 96 126
  else if scanCode = Scan.backslash then symbolKey k t 92 124
  else if isPrintable scanCode then printableKey k t scanCode
  else (k, t)

/-- `keyboard_handler` -/
def keyboardHandler (k : Keys) (t : Console) (scanCode : UInt8) : Keys × Console :=
  if scanCode = Scan.enter then enterKey k t
  else if k.alt = true ∧ scanCode = 0x3B then (k, t.switchTerminals t.terminalNum 0)
  else if k.alt = true ∧ scanCode = 0x3C then (k, t.switchTerminals t.terminalNum 1)
  else if k.alt = true ∧ scanCode = 0x3D then (k, t.switchTerminals t.terminalNum 2)
  else if k.ctrl = true ∧ scanCode = Scan.l then (k, clearKey t)
  else
    match flagSetters k scanCode with
    | some k => (k, t)
    | none => typingKey k t scanCode

/-! ### What a key can do -/

/-- The key switches terminals. -/
def Switches (k : Keys) (scanCode : UInt8) : Prop :=
  k.alt = true ∧ (scanCode = 0x3B ∨ scanCode = 0x3C ∨ scanCode = 0x3D)

instance (k : Keys) (scanCode : UInt8) : Decidable (Switches k scanCode) :=
  inferInstanceAs (Decidable (_ ∧ _))

/-- The key takes the last character of the line out. -/
def Erases (k : Keys) (t : Console) (scanCode : UInt8) : Prop :=
  scanCode = Scan.backspace ∧ k.ctrl = false ∧ k.alt = false ∧ t.visible.bufferCt ≠ 0

instance (k : Keys) (t : Console) (scanCode : UInt8) : Decidable (Erases k t scanCode) :=
  inferInstanceAs (Decidable (_ ∧ _))

/-- The branch a scan code takes, and what it leaves. -/
inductive KeyCase (k : Keys) (t : Console) (scanCode : UInt8) : Keys × Console → Prop
  | enter (h : scanCode = Scan.enter) : KeyCase k t scanCode (enterKey k t)
  | switch (next : ℕ) (hnext : next < 3) (h : Switches k scanCode)
      (hcode : scanCode = UInt8.ofNat (0x3B + next)) :
      KeyCase k t scanCode (k, t.switchTerminals t.terminalNum next)
  | clear (h : k.ctrl = true) (hcode : scanCode = Scan.l) : KeyCase k t scanCode (k, clearKey t)
  | flags (k' : Keys) (h : flagSetters k scanCode = some k') : KeyCase k t scanCode (k', t)
  | backspace (hcode : scanCode = Scan.backspace) (hctrl : k.ctrl = false)
      (halt : k.alt = false) : KeyCase k t scanCode (k, t.backspaceKey)
  | space (hcode : scanCode = Scan.spacebar) : KeyCase k t scanCode (spaceKey k t)
  | tab (hcode : scanCode = Scan.tab) : KeyCase k t scanCode (k, tabKey k t)
  | symbol (plain shifted : UInt8) (hcode : (scanCode, plain, shifted) ∈
      [(Scan.singleQuote, 39, 34), (Scan.backTick, 96, 126), (Scan.backslash, 92, 124)]) :
      KeyCase k t scanCode (symbolKey k t plain shifted)
  | printable (h : isPrintable scanCode = true) : KeyCase k t scanCode (printableKey k t scanCode)
  | ignored (h : scanCode = Scan.backspace ∧ (k.ctrl = true ∨ k.alt = true) ∨
      isPrintable scanCode = false) : KeyCase k t scanCode (k, t)

theorem typingKey_cases (k : Keys) (t : Console) (scanCode : UInt8) :
    KeyCase k t scanCode (typingKey k t scanCode) := by
  unfold typingKey
  by_cases hback : scanCode = Scan.backspace
  · rw [if_pos hback]
    by_cases hmod : k.ctrl = true ∨ k.alt = true
    · rw [if_pos hmod]
      exact .ignored (Or.inl ⟨hback, hmod⟩)
    · rw [if_neg hmod]
      obtain ⟨hctrl, halt⟩ := not_or.mp hmod
      exact .backspace hback (Bool.eq_false_iff.mpr hctrl) (Bool.eq_false_iff.mpr halt)
  rw [if_neg hback]
  by_cases hspace : scanCode = Scan.spacebar
  · rw [if_pos hspace]
    exact .space hspace
  rw [if_neg hspace]
  by_cases htab : scanCode = Scan.tab
  · rw [if_pos htab]
    exact .tab htab
  rw [if_neg htab]
  by_cases hquote : scanCode = Scan.singleQuote
  · rw [if_pos hquote]
    exact .symbol 39 34 (by rw [hquote]; decide)
  rw [if_neg hquote]
  by_cases htick : scanCode = Scan.backTick
  · rw [if_pos htick]
    exact .symbol 96 126 (by rw [htick]; decide)
  rw [if_neg htick]
  by_cases hslash : scanCode = Scan.backslash
  · rw [if_pos hslash]
    exact .symbol 92 124 (by rw [hslash]; decide)
  rw [if_neg hslash]
  by_cases hprint : isPrintable scanCode = true
  · rw [if_pos hprint]
    exact .printable hprint
  · rw [if_neg hprint]
    exact .ignored (Or.inr (Bool.eq_false_iff.mpr hprint))

theorem keyboardHandler_cases (k : Keys) (t : Console) (scanCode : UInt8) :
    KeyCase k t scanCode (keyboardHandler k t scanCode) := by
  unfold keyboardHandler
  by_cases henter : scanCode = Scan.enter
  · rw [if_pos henter]
    exact .enter henter
  rw [if_neg henter]
  by_cases h0 : k.alt = true ∧ scanCode = 0x3B
  · rw [if_pos h0]
    exact .switch 0 (by decide) ⟨h0.1, Or.inl h0.2⟩ h0.2
  rw [if_neg h0]
  by_cases h1 : k.alt = true ∧ scanCode = 0x3C
  · rw [if_pos h1]
    exact .switch 1 (by decide) ⟨h1.1, Or.inr (Or.inl h1.2)⟩ h1.2
  rw [if_neg h1]
  by_cases h2 : k.alt = true ∧ scanCode = 0x3D
  · rw [if_pos h2]
    exact .switch 2 (by decide) ⟨h2.1, Or.inr (Or.inr h2.2)⟩ h2.2
  rw [if_neg h2]
  by_cases hclear : k.ctrl = true ∧ scanCode = Scan.l
  · rw [if_pos hclear]
    exact .clear hclear.1 hclear.2
  rw [if_neg hclear]
  cases hflags : flagSetters k scanCode with
  | some k' => exact .flags k' hflags
  | none => exact typingKey_cases k t scanCode

theorem keyboardHandler_switches {k : Keys} {scanCode : UInt8} (t : Console)
    (h : Switches k scanCode) : ∃ next < 3,
      keyboardHandler k t scanCode = (k, t.switchTerminals t.terminalNum next) := by
  unfold keyboardHandler
  obtain ⟨halt, rfl | rfl | rfl⟩ := h
  · exact ⟨0, by decide, if_neg (by decide) |>.trans (if_pos ⟨halt, rfl⟩)⟩
  · refine ⟨1, by decide, ?_⟩
    rw [if_neg (by decide), if_neg (fun h => absurd h.2 (by decide))]
    exact if_pos ⟨halt, rfl⟩
  · refine ⟨2, by decide, ?_⟩
    rw [if_neg (by decide), if_neg (fun h => absurd h.2 (by decide)),
      if_neg (fun h => absurd h.2 (by decide))]
    exact if_pos ⟨halt, rfl⟩

end OS391
