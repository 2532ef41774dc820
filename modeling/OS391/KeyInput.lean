/-
# What a key means for the line

Of what `keyboard_handler` does, the line a program reads sees little: a character, a
backspace or Enter on the visible terminal, or a switch to another.  `keyInput` is that
meaning of a scan code, read off the modifier keys alone; `keyboardHandler_pressed` says
that the handler does to the keyboard buffers, their counts and the Enter flags what the
meaning says, and nothing else.
-/

import OS391.Keyboard
import OS391.Panes

namespace OS391

open Lib

/-- What a key can mean. -/
inductive KeyInput
  | enter
  | switch (next : ℕ)
  | char (c : UInt8)
  | erase
  deriving DecidableEq

/-- What a scan code means while the modifier keys are as in `k`. -/
def keyInput (k : Keys) (scanCode : UInt8) : Option KeyInput :=
  if scanCode = Scan.enter then some .enter
  else if k.alt = true ∧ scanCode = 0x3B then some (.switch 0)
  else if k.alt = true ∧ scanCode = 0x3C then some (.switch 1)
  else if k.alt = true ∧ scanCode = 0x3D then some (.switch 2)
  else if (flagSetters k scanCode).isSome ∨ k.ctrl = true ∨ k.alt = true then none
  else if scanCode = Scan.backspace then some .erase
  else if scanCode = Scan.spacebar then some (.char 32)
  else if scanCode = Scan.tab then some (.char 9)
  else if scanCode = Scan.singleQuote then some (.char (if k.shift then 34 else 39))
  else if scanCode = Scan.backTick then some (.char (if k.shift then 126 else 96))
  else if scanCode = Scan.backslash then some (.char (if k.shift then 124 else 92))
  else if isPrintable scanCode then some (.char (printedChar k scanCode))
  else none

namespace Terminal

/-- What a key does to the line of the visible terminal. -/
def press (m : Terminal) : KeyInput → Terminal
  | .enter => { m with enterRead := true }
  | .switch _ => m
  | .char c =>
    if m.bufferCt < 127 then
      { m with
        keyboardBuffer := Function.update m.keyboardBuffer m.bufferCt.toNat c
        bufferCt := m.bufferCt + 1 }
    else m
  | .erase =>
    if m.bufferCt ≠ 0 then
      { m with
        keyboardBuffer := Function.update m.keyboardBuffer (m.bufferCt - 1).toNat 0
        bufferCt := m.bufferCt - 1 }
    else m

/-- The same line: the buffer, its count and the Enter flag. -/
structure SameLine (m m' : Terminal) : Prop where
  buffer : m.keyboardBuffer = m'.keyboardBuffer
  count : m.bufferCt = m'.bufferCt
  enterRead : m.enterRead = m'.enterRead

theorem SameLine.refl (m : Terminal) : SameLine m m := ⟨rfl, rfl, rfl⟩

theorem SameLine.of_eq {m m' : Terminal} (h : m = m') : SameLine m m' := h ▸ .refl m

theorem SameLine.trans {m m' m'' : Terminal} (h : SameLine m m') (h' : SameLine m' m'') :
    SameLine m m'' :=
  ⟨h.buffer.trans h'.buffer, h.count.trans h'.count, h.enterRead.trans h'.enterRead⟩

theorem SameLine.press {m m' : Terminal} (h : SameLine m m') (i : KeyInput) :
    SameLine (m.press i) (m'.press i) := by
  obtain ⟨hbuffer, hcount, henter⟩ := h
  cases i with
  | enter => exact ⟨hbuffer, hcount, rfl⟩
  | switch next => exact ⟨hbuffer, hcount, henter⟩
  | char c =>
    dsimp only [Terminal.press]
    rw [hcount, hbuffer]
    split_ifs
    · exact ⟨rfl, rfl, henter⟩
    · exact ⟨hbuffer, hcount, henter⟩
  | erase =>
    dsimp only [Terminal.press]
    rw [hcount, hbuffer]
    split_ifs
    · exact ⟨rfl, rfl, henter⟩
    · exact ⟨hbuffer, hcount, henter⟩

end Terminal

open Terminal (SameLine)

/-! ### Output is no input -/

namespace Console

variable {s t u : Console} {c : UInt8}

/-- What output leaves. -/
structure SameLines (s t : Console) : Prop where
  num : t.terminalNum = s.terminalNum
  lines : ∀ j, SameLine (t.terminal j) (s.terminal j)

theorem SameLines.refl (s : Console) : SameLines s s := ⟨rfl, fun _ => .refl _⟩

theorem SameLines.trans (h : SameLines s t) (h' : SameLines t u) : SameLines s u :=
  ⟨h'.num.trans h.num, fun j => (h'.lines j).trans (h.lines j)⟩

theorem sameLines_of_terminal (hnum : t.terminalNum = s.terminalNum)
    (hterminal : t.terminal = s.terminal) : SameLines s t :=
  ⟨hnum, fun _ => hterminal ▸ .refl _⟩

theorem sameLines_putc (s : Console) (c : UInt8) : SameLines s (s.putc c) := by
  obtain ⟨p, mem, n, hputc⟩ := s.putc_frame c
  rw [hputc]
  exact sameLines_of_terminal rfl rfl

theorem sameLines_printf (s : Console) (text : List UInt8) : SameLines s (s.printf text) := by
  induction text generalizing s with
  | nil => exact .refl s
  | cons c text ih => exact (sameLines_putc s c).trans (ih (s.putc c))

theorem sameLines_switchTerminals (s : Console) (previous next : ℕ) (j : ℕ) :
    SameLine ((s.switchTerminals previous next).terminal j) (s.terminal j) := by
  unfold switchTerminals switchVideoMem modifyTerminal
  dsimp only
  by_cases hj : j = previous
  · subst hj
    rw [Function.update_self]
    exact ⟨rfl, rfl, rfl⟩
  · rw [Function.update_of_ne hj]
    exact .refl _

end Console

/-- The visible terminal after a key. -/
def visibleAfterKey (visible : ℕ) : Option KeyInput → ℕ
  | some (.switch next) => next
  | _ => visible

/-- Only the three terminals can be switched to. -/
theorem visibleAfterKey_lt {k : Keys} {visible : ℕ} (scanCode : UInt8) (h : visible < 3) :
    visibleAfterKey visible (keyInput k scanCode) < 3 := by
  have hif {p : Prop} [Decidable p] {i j : Option KeyInput} (hi : visibleAfterKey visible i < 3)
      (hj : visibleAfterKey visible j < 3) : visibleAfterKey visible (if p then i else j) < 3 := by
    split_ifs <;> assumption
  have hchar (c : UInt8) : visibleAfterKey visible (some (.char c)) < 3 := h
  unfold keyInput
  have hswitch {next : ℕ} (hnext : next < 3) :
      visibleAfterKey visible (some (.switch next)) < 3 := hnext
  refine hif h (hif (hswitch (by decide)) (hif (hswitch (by decide)) (hif (hswitch (by decide))
    (hif h (hif h ?_)))))
  exact hif (hchar _) (hif (hchar _) (hif (hchar _) (hif (hchar _) (hif (hchar _)
    (hif (hchar _) h)))))

/-- The line of the visible terminal after a key. -/
def Terminal.pressed (m : Terminal) : Option KeyInput → Terminal
  | some i => m.press i
  | none => m

/-- `t` is `s` after a key that means `i`. -/
structure Pressed (i : Option KeyInput) (s t : Console) : Prop where
  num : t.terminalNum = visibleAfterKey s.terminalNum i
  line : SameLine (t.terminal s.terminalNum) ((s.terminal s.terminalNum).pressed i)
  others : ∀ j, j ≠ s.terminalNum → SameLine (t.terminal j) (s.terminal j)

section Pressed

variable {i : Option KeyInput} {s t u : Console}

theorem pressed_none (h : s.SameLines t) : Pressed none s t :=
  ⟨h.num, h.lines _, fun j _ => h.lines j⟩

theorem Pressed.before (h : s.SameLines t) (h' : Pressed i t u) : Pressed i s u := by
  obtain ⟨hnum, hline, hothers⟩ := h'
  rw [h.num] at hnum hline hothers
  refine ⟨hnum, ?_, fun j hj => (hothers j hj).trans (h.lines j)⟩
  cases i with
  | none => exact hline.trans (h.lines _)
  | some i => exact hline.trans ((h.lines _).press i)

theorem Pressed.after (h : Pressed i s t) (h' : t.SameLines u) : Pressed i s u :=
  ⟨h'.num.trans h.num, (h'.lines _).trans h.line, fun j hj => (h'.lines j).trans (h.others j hj)⟩

/-- The visible terminal's line changed as a key does. -/
theorem pressed_modifyTerminal (s : Console) {i : KeyInput} {f : Terminal → Terminal}
    (hf : SameLine (f (s.terminal s.terminalNum)) ((s.terminal s.terminalNum).press i))
    (hi : ∀ next, i ≠ .switch next) : Pressed (some i) s (s.modifyTerminal s.terminalNum f) := by
  refine ⟨?_, ?_, fun j hj => ?_⟩
  · cases i with
    | switch next => exact absurd rfl (hi next)
    | _ => rfl
  · rw [Console.modifyTerminal]
    dsimp only
    rw [Function.update_self]
    exact hf
  · rw [Console.modifyTerminal]
    dsimp only
    rw [Function.update_of_ne hj]
    exact .refl _

end Pressed

/-! ### The branches of the handler -/

section Branches

variable {k : Keys} {t : Console} {scanCode : UInt8}

/-- A character that does not fit. -/
theorem pressed_full {c : UInt8} (h : ¬ (t.terminal t.terminalNum).bufferCt < 127) :
    Pressed (some (.char c)) t t := by
  have hpress : (t.terminal t.terminalNum).press (.char c) = t.terminal t.terminalNum := if_neg h
  exact ⟨rfl, .of_eq hpress.symm, fun _ _ => .refl _⟩

theorem pressed_storeKey (t : Console) (c : UInt8) :
    Pressed (some (.char c)) t (t.storeKey c) := by
  unfold Console.storeKey
  split_ifs with hroom
  · refine pressed_modifyTerminal t ?_ fun _ => KeyInput.noConfusion
    have hpress : (t.terminal t.terminalNum).press (.char c) = _ := if_pos hroom
    exact .of_eq hpress.symm
  · exact pressed_full hroom

theorem sameLines_wrapRow (k : Keys) (t : Console) : t.SameLines (wrapRow k t).2 := by
  unfold wrapRow
  split_ifs
  · exact (t.sameLines_printf [10]).trans (Console.sameLines_of_terminal rfl rfl)
  · exact .refl t

/-- The flags that a character depends on. -/
theorem shift_wrapRow (k : Keys) (t : Console) :
    (wrapRow k t).1.shift = k.shift ∧ (wrapRow k t).1.caps = k.caps := by
  unfold wrapRow
  split_ifs <;> exact ⟨rfl, rfl⟩

/-- A character that is refused for want of room. -/
theorem pressed_refused (hmod : ¬ (k.ctrl = true ∨ k.alt = true)) (h : Refuses k t) (c : UInt8) :
    Pressed (some (.char c)) t t := by
  obtain hctrl | halt | hfull := h
  · exact absurd (Or.inl hctrl) hmod
  · exact absurd (Or.inr halt) hmod
  · have hroom : ¬ (t.terminal t.terminalNum).bufferCt < 127 := by
      rw [show (t.terminal t.terminalNum).bufferCt = 127 from hfull]
      decide
    exact pressed_full hroom

theorem pressed_symbolKey (hmod : ¬ (k.ctrl = true ∨ k.alt = true)) (plain shifted : UInt8) :
    Pressed (some (.char (if k.shift then shifted else plain))) t
      (symbolKey k t plain shifted).2 := by
  unfold symbolKey
  by_cases hrefuses : Refuses k t
  · rw [if_pos hrefuses]
    exact pressed_refused hmod hrefuses _
  · rw [if_neg hrefuses]
    dsimp only
    rw [(shift_wrapRow k t).1]
    set c := if k.shift = true then shifted else plain
    have hprint := (sameLines_wrapRow k t).trans (Console.sameLines_printf _ [c])
    exact ((pressed_storeKey _ c).before hprint).after (Console.sameLines_of_terminal rfl rfl)

theorem printedChar_wrapRow (k : Keys) (t : Console) (scanCode : UInt8) :
    printedChar (wrapRow k t).1 scanCode = printedChar k scanCode := by
  unfold printedChar
  rw [(shift_wrapRow k t).1, (shift_wrapRow k t).2]

theorem pressed_printableKey (hmod : ¬ (k.ctrl = true ∨ k.alt = true)) :
    Pressed (some (.char (printedChar k scanCode))) t (printableKey k t scanCode).2 := by
  unfold printableKey
  by_cases hrefuses : Refuses k t
  · rw [if_pos hrefuses]
    exact pressed_refused hmod hrefuses _
  · rw [if_neg hrefuses]
    dsimp only
    rw [printedChar_wrapRow]
    have hrow : t.SameLines (wrapRow k t).2.incRowLetterCt :=
      (sameLines_wrapRow k t).trans (Console.sameLines_of_terminal rfl rfl)
    exact ((pressed_storeKey _ _).before hrow).after (Console.sameLines_putc _ _)

theorem pressed_spaceKey (hmod : ¬ (k.ctrl = true ∨ k.alt = true)) :
    Pressed (some (.char 32)) t (spaceKey k t).2 := by
  unfold spaceKey
  by_cases hrefuses : Refuses k t
  · rw [if_pos hrefuses]
    exact pressed_refused hmod hrefuses _
  · rw [if_neg hrefuses]
    have hspace : t.SameLines (spaceHandler k t).2 := by
      have hprint := (sameLines_wrapRow k t).trans (Console.sameLines_printf _ [32])
      exact hprint.trans (Console.sameLines_of_terminal rfl rfl)
    exact (pressed_storeKey _ 32).before hspace

theorem pressed_tabKey (hmod : ¬ (k.ctrl = true ∨ k.alt = true)) :
    Pressed (some (.char 9)) t (tabKey k t) := by
  unfold tabKey
  split_ifs with hrefuses
  · exact pressed_refused hmod hrefuses _
  · exact (pressed_storeKey t 9).after (Console.sameLines_putc _ _)

theorem pressed_enterKey (k : Keys) (t : Console) : Pressed (some .enter) t (enterKey k t).2 := by
  have hflag := pressed_modifyTerminal t (i := .enter)
    (f := fun m => { m with enterRead := true }) (.refl _) fun _ => KeyInput.noConfusion
  have hline := hflag.after (Console.sameLines_printf _ [10])
  exact hline.after (Console.sameLines_of_terminal rfl rfl)

theorem sameLines_clearKey (t : Console) : t.SameLines (clearKey t) :=
  Console.SameLines.trans (t := { t.clear with rowLetterCt := headerLen })
    (Console.sameLines_of_terminal rfl rfl) (Console.sameLines_printf _ _)

theorem pressed_backspaceKey (t : Console) : Pressed (some .erase) t t.backspaceKey := by
  unfold Console.backspaceKey
  split_ifs with hct
  · have hbacks : t.SameLines ((List.replicate t.lastColumns 8).foldl Console.putc t) :=
      Console.sameLines_printf t _
    set u := (List.replicate t.lastColumns 8).foldl Console.putc t
    have hrow : u.SameLines { u with rowLetterCt := u.rowLetterCt - 1 } :=
      Console.sameLines_of_terminal rfl rfl
    refine Pressed.before (hbacks.trans hrow) (pressed_modifyTerminal _ ?_ fun _ =>
      KeyInput.noConfusion)
    have hline := hbacks.lines u.terminalNum
    have hpress : (u.terminal u.terminalNum).press .erase = _ := if_pos (by
      rw [hline.count, hbacks.num]
      exact hct)
    exact .of_eq hpress.symm
  · have hpress : (t.terminal t.terminalNum).press .erase = t.terminal t.terminalNum := if_neg hct
    exact ⟨rfl, .of_eq hpress.symm, fun _ _ => .refl _⟩

theorem pressed_switchTerminals (t : Console) (next : ℕ) :
    Pressed (some (.switch next)) t (t.switchTerminals t.terminalNum next) :=
  ⟨rfl, t.sameLines_switchTerminals _ next _, fun j _ => t.sameLines_switchTerminals _ next j⟩

/-- With Ctrl or Alt down no key types. -/
theorem typingKey_modifier (t : Console) (scanCode : UInt8)
    (hmod : k.ctrl = true ∨ k.alt = true) : typingKey k t scanCode = (k, t) := by
  have hrefuses : Refuses k t := hmod.imp id Or.inl
  unfold typingKey spaceKey tabKey symbolKey printableKey
  simp only [if_pos hmod, if_pos hrefuses, ite_self]

/-- What a key means, and the branch of the handler that does it. -/
inductive KeyMeans (k : Keys) (t : Console) (scanCode : UInt8) :
    Option KeyInput → Keys × Console → Prop
  | enter (hcode : scanCode = Scan.enter) : KeyMeans k t scanCode (some .enter) (enterKey k t)
  | switch (next : ℕ) (h : Switches k scanCode) :
      KeyMeans k t scanCode (some (.switch next)) (k, t.switchTerminals t.terminalNum next)
  | clear (hctrl : k.ctrl = true) (hcode : scanCode = Scan.l) :
      KeyMeans k t scanCode none (k, clearKey t)
  | silent (k' : Keys) : KeyMeans k t scanCode none (k', t)
  | backspace (hcode : scanCode = Scan.backspace) :
      KeyMeans k t scanCode (some .erase) (k, t.backspaceKey)
  | space (hmod : ¬ (k.ctrl = true ∨ k.alt = true)) :
      KeyMeans k t scanCode (some (.char 32)) (spaceKey k t)
  | tab (hmod : ¬ (k.ctrl = true ∨ k.alt = true)) (hcode : scanCode = Scan.tab) :
      KeyMeans k t scanCode (some (.char 9)) (k, tabKey k t)
  | symbol (hmod : ¬ (k.ctrl = true ∨ k.alt = true)) (plain shifted : UInt8)
      (hpair : (plain, shifted) ∈ [((39 : UInt8), (34 : UInt8)), (96, 126), (92, 124)]) :
      KeyMeans k t scanCode (some (.char (if k.shift then shifted else plain)))
        (symbolKey k t plain shifted)
  | printable (hmod : ¬ (k.ctrl = true ∨ k.alt = true)) :
      KeyMeans k t scanCode (some (.char (printedChar k scanCode))) (printableKey k t scanCode)

theorem typingKey_means (t : Console) (scanCode : UInt8)
    (hmod : ¬ (k.ctrl = true ∨ k.alt = true)) :
    KeyMeans k t scanCode (if scanCode = Scan.backspace then some .erase
      else if scanCode = Scan.spacebar then some (.char 32)
      else if scanCode = Scan.tab then some (.char 9)
      else if scanCode = Scan.singleQuote then some (.char (if k.shift then 34 else 39))
      else if scanCode = Scan.backTick then some (.char (if k.shift then 126 else 96))
      else if scanCode = Scan.backslash then some (.char (if k.shift then 124 else 92))
      else if isPrintable scanCode then some (.char (printedChar k scanCode))
      else none) (typingKey k t scanCode) := by
  unfold typingKey
  by_cases hback : scanCode = Scan.backspace
  · rw [if_pos hback, if_pos hback, if_neg hmod]
    exact .backspace hback
  rw [if_neg hback, if_neg hback]
  by_cases hspace : scanCode = Scan.spacebar
  · rw [if_pos hspace, if_pos hspace]
    exact .space hmod
  rw [if_neg hspace, if_neg hspace]
  by_cases htab : scanCode = Scan.tab
  · rw [if_pos htab, if_pos htab]
    exact .tab hmod htab
  rw [if_neg htab, if_neg htab]
  by_cases hquote : scanCode = Scan.singleQuote
  · rw [if_pos hquote, if_pos hquote]
    exact .symbol hmod 39 34 (by simp)
  rw [if_neg hquote, if_neg hquote]
  by_cases htick : scanCode = Scan.backTick
  · rw [if_pos htick, if_pos htick]
    exact .symbol hmod 96 126 (by simp)
  rw [if_neg htick, if_neg htick]
  by_cases hslash : scanCode = Scan.backslash
  · rw [if_pos hslash, if_pos hslash]
    exact .symbol hmod 92 124 (by simp)
  rw [if_neg hslash, if_neg hslash]
  by_cases hprint : isPrintable scanCode = true
  · rw [if_pos hprint, if_pos hprint]
    exact .printable hmod
  · rw [if_neg hprint, if_neg hprint]
    exact .silent k

/-- **The handler does what the key means.** -/
theorem keyboardHandler_means (k : Keys) (t : Console) (scanCode : UInt8) :
    KeyMeans k t scanCode (keyInput k scanCode) (keyboardHandler k t scanCode) := by
  unfold keyboardHandler keyInput
  by_cases henter : scanCode = Scan.enter
  · rw [if_pos henter, if_pos henter]
    exact .enter henter
  rw [if_neg henter, if_neg henter]
  by_cases h0 : k.alt = true ∧ scanCode = 0x3B
  · rw [if_pos h0, if_pos h0]
    exact .switch 0 ⟨h0.1, Or.inl h0.2⟩
  rw [if_neg h0, if_neg h0]
  by_cases h1 : k.alt = true ∧ scanCode = 0x3C
  · rw [if_pos h1, if_pos h1]
    exact .switch 1 ⟨h1.1, Or.inr (Or.inl h1.2)⟩
  rw [if_neg h1, if_neg h1]
  by_cases h2 : k.alt = true ∧ scanCode = 0x3D
  · rw [if_pos h2, if_pos h2]
    exact .switch 2 ⟨h2.1, Or.inr (Or.inr h2.2)⟩
  rw [if_neg h2, if_neg h2]
  by_cases hclear : k.ctrl = true ∧ scanCode = Scan.l
  · rw [if_pos hclear, if_pos (Or.inr (Or.inl hclear.1))]
    exact .clear hclear.1 hclear.2
  rw [if_neg hclear]
  cases hflags : flagSetters k scanCode with
  | some k' =>
    rw [if_pos (Or.inl Option.isSome_some)]
    exact .silent k'
  | none =>
    by_cases hmod : k.ctrl = true ∨ k.alt = true
    · rw [if_pos (Or.inr hmod)]
      dsimp only
      rw [typingKey_modifier t scanCode hmod]
      exact .silent k
    · rw [if_neg (by rintro (hsome | h); exacts [absurd hsome (by decide), hmod h])]
      exact typingKey_means t scanCode hmod

/-- **The handler does to the lines what the key means.** -/
theorem keyboardHandler_pressed (k : Keys) (t : Console) (scanCode : UInt8) :
    Pressed (keyInput k scanCode) t (keyboardHandler k t scanCode).2 := by
  have hmeans := keyboardHandler_means k t scanCode
  generalize keyInput k scanCode = i at hmeans ⊢
  generalize keyboardHandler k t scanCode = r at hmeans ⊢
  cases hmeans with
  | enter => exact pressed_enterKey k t
  | switch next => exact pressed_switchTerminals t next
  | clear => exact pressed_none (sameLines_clearKey t)
  | silent k' => exact pressed_none (.refl t)
  | backspace => exact pressed_backspaceKey t
  | space hmod => exact pressed_spaceKey hmod
  | tab hmod => exact pressed_tabKey hmod
  | symbol hmod plain shifted => exact pressed_symbolKey hmod plain shifted
  | printable hmod => exact pressed_printableKey hmod

end Branches

end OS391
