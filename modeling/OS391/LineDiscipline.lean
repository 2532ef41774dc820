/-
# The keyboard line discipline

Between two Enters the line of a terminal is a stack of at most 127 characters: a key that
types pushes the character that shift and caps select, Backspace pops, and every other key
leaves the line (`typeKey`).  Six branches of `keyboard_handler` do this to an array and a
counter, each with its own checks.  `HoldsLine` is what each of them keeps: the array holds
the line and NULs behind it, and nothing behind its 127 bytes is written.

`terminal_read` copies 127 bytes whatever the counter is, so the NULs are what makes its
copy right (`HoldsLine.reads`).
-/

import OS391.Lookup
import OS391.TypedLines

namespace OS391

open Lib

/-! ### The line as a stack -/

/-- The modifier keys after a key. -/
def nextKeys (k : Keys) (scanCode : UInt8) : Keys := (flagSetters k scanCode).getD k

/-- The character of a printable key: shift selects the upper one, and caps turns the choice
around for a letter. -/
def selectedChar (k : Keys) (scanCode : UInt8) : UInt8 :=
  if k.shift ≠ (k.caps && isLetter scanCode) then shiftScan.getD scanCode.toNat 0
  else scanToChar.getD scanCode.toNat 0

/-- The character a key types. -/
def typedChar (k : Keys) (scanCode : UInt8) : Option UInt8 :=
  if scanCode = Scan.spacebar then some 32
  else if scanCode = Scan.tab then some 9
  else if scanCode = Scan.singleQuote then some (if k.shift then 34 else 39)
  else if scanCode = Scan.backTick then some (if k.shift then 126 else 96)
  else if scanCode = Scan.backslash then some (if k.shift then 124 else 92)
  else if isPrintable scanCode then some (selectedChar k scanCode)
  else none

/-- A character pushed on the line, if there is room. -/
def pushChar (line : List UInt8) (c : UInt8) : List UInt8 :=
  if line.length < 127 then line ++ [c] else line

/-- What a key does to the line. -/
def stackKey (k : Keys) (line : List UInt8) (scanCode : UInt8) : List UInt8 :=
  if k.ctrl = true ∨ k.alt = true then line
  else if scanCode = Scan.backspace then line.dropLast
  else (typedChar k scanCode).elim line (pushChar line)

/-- A key, for the modifier keys and the line. -/
def typeKey (p : Keys × List UInt8) (scanCode : UInt8) : Keys × List UInt8 :=
  (nextKeys p.1 scanCode, stackKey p.1 p.2 scanCode)

/-- The line that a sequence of keys leaves of an empty one. -/
def typedLine (k : Keys) (codes : List UInt8) : List UInt8 := (codes.foldl typeKey (k, [])).2

theorem printedChar_eq_selectedChar (k : Keys) (scanCode : UInt8) :
    printedChar k scanCode = selectedChar k scanCode := by
  unfold printedChar selectedChar
  -- the tables stay out of the case analysis
  have htable (caps shift letter : Bool) (plain shifted : UInt8) :
      (if caps = false ∧ shift = false then plain
        else if shift = false ∧ letter then shifted
        else if shift = false then plain
        else if caps = false then shifted
        else if letter then plain
        else shifted) = if shift ≠ (caps && letter) then shifted else plain := by
    cases caps <;> cases shift <;> cases letter <;> rfl
  exact htable k.caps k.shift _ _ _

/-- No key types a newline. -/
theorem typedChar_ne (k : Keys) (scanCode : UInt8) : typedChar k scanCode ≠ some 10 := by
  have hselected : selectedChar k scanCode ≠ 10 := by
    rw [← printedChar_eq_selectedChar]
    exact printedChar_of_tables (P := (· ≠ 10)) (by decide) (by decide +kernel)
      (by decide +kernel) k scanCode
  unfold typedChar
  split_ifs <;> simp [hselected]

theorem newline_notMem_stackKey (k : Keys) {line : List UInt8} (h : 10 ∉ line)
    (scanCode : UInt8) : 10 ∉ stackKey k line scanCode := by
  unfold stackKey
  split_ifs
  · exact h
  · exact fun hmem => h (List.dropLast_subset _ hmem)
  · cases hc : typedChar k scanCode with
    | none => exact h
    | some c =>
      have hne : c ≠ 10 := fun heq => typedChar_ne k scanCode (heq ▸ hc)
      rw [Option.elim_some, pushChar]
      split_ifs
      · simp [h, Ne.symm hne]
      · exact h

theorem newline_notMem_foldl (codes : List UInt8) {p : Keys × List UInt8} (h : 10 ∉ p.2) :
    10 ∉ (codes.foldl typeKey p).2 := by
  induction codes generalizing p with
  | nil => exact h
  | cons c codes ih => exact ih (newline_notMem_stackKey p.1 h c)

/-! ### What the handler makes of a key -/

section Handler

variable {k : Keys} {t : Console} {scanCode : UInt8}

/-- A key that sets a flag does not type. -/
theorem stackKey_of_flagSetters (h : (flagSetters k scanCode).isSome) (line : List UInt8) :
    stackKey k line scanCode = line := by
  have hcode : scanCode ∈ [0x2A, 0x36, 0xAA, 0xB6, 0x1D, 0x9D, 0x38, 0xB8, 0x3A] := by
    by_contra hnot
    simp only [List.mem_cons, List.not_mem_nil, or_false, not_or] at hnot
    simp [flagSetters, hnot] at h
  have hkey : scanCode ≠ Scan.backspace ∧ typedChar k scanCode = none := by
    simp only [List.mem_cons, List.not_mem_nil, or_false] at hcode
    rcases hcode with rfl | rfl | rfl | rfl | rfl | rfl | rfl | rfl | rfl <;>
      exact ⟨by decide, rfl⟩
  unfold stackKey
  rw [if_neg hkey.1, hkey.2, Option.elim_none, ite_self]

/-- **A key means for the line what it does to the stack.** -/
theorem keyInput_stackKey (henter : scanCode ≠ Scan.enter) (hswitch : ¬ Switches k scanCode)
    (line : List UInt8) :
    (keyInput k scanCode = none ∧ stackKey k line scanCode = line) ∨
      (keyInput k scanCode = some .erase ∧ stackKey k line scanCode = line.dropLast) ∨
      ∃ c, keyInput k scanCode = some (.char c) ∧ stackKey k line scanCode = pushChar line c := by
  have h0 : ¬ (k.alt = true ∧ scanCode = 0x3B) := fun h => hswitch ⟨h.1, Or.inl h.2⟩
  have h1 : ¬ (k.alt = true ∧ scanCode = 0x3C) := fun h => hswitch ⟨h.1, Or.inr (Or.inl h.2)⟩
  have h2 : ¬ (k.alt = true ∧ scanCode = 0x3D) := fun h => hswitch ⟨h.1, Or.inr (Or.inr h.2)⟩
  unfold keyInput
  rw [if_neg henter, if_neg h0, if_neg h1, if_neg h2]
  by_cases hflags : (flagSetters k scanCode).isSome
  · exact Or.inl ⟨if_pos (Or.inl hflags), stackKey_of_flagSetters hflags line⟩
  by_cases hmod : k.ctrl = true ∨ k.alt = true
  · exact Or.inl ⟨if_pos (Or.inr hmod), if_pos hmod⟩
  rw [if_neg (not_or.mpr ⟨hflags, hmod⟩), stackKey, if_neg hmod]
  by_cases hback : scanCode = Scan.backspace
  · rw [if_pos hback, if_pos hback]
    exact Or.inr (Or.inl ⟨rfl, rfl⟩)
  rw [if_neg hback, if_neg hback, printedChar_eq_selectedChar]
  -- what is left of both is the table of the keys that type
  suffices hinput : ∀ i, i = (typedChar k scanCode).map KeyInput.char →
      (i = none ∧ (typedChar k scanCode).elim line (pushChar line) = line) ∨
        (i = some .erase ∧ (typedChar k scanCode).elim line (pushChar line) = line.dropLast) ∨
        ∃ c, i = some (.char c) ∧ (typedChar k scanCode).elim line (pushChar line)
          = pushChar line c by
    refine hinput _ ?_
    simp only [typedChar, apply_ite (Option.map KeyInput.char), Option.map_some, Option.map_none]
  rintro i rfl
  cases typedChar k scanCode with
  | none => exact Or.inl ⟨rfl, rfl⟩
  | some c => exact Or.inr (Or.inr ⟨c, rfl, rfl⟩)

/-- `newline_bs_flag` is the only flag that a full row changes. -/
theorem keys_wrapRow (k : Keys) (t : Console) :
    ∃ b, (wrapRow k t).1 = { k with newlineBsFlag := b } := by
  unfold wrapRow
  split_ifs
  · exact ⟨false, rfl⟩
  · exact ⟨k.newlineBsFlag, rfl⟩

theorem keys_typingKey (k : Keys) (t : Console) (scanCode : UInt8) :
    ∃ b, (typingKey k t scanCode).1 = { k with newlineBsFlag := b } := by
  have hwrap := keys_wrapRow k t
  have hsame : ∃ b, k = { k with newlineBsFlag := b } := ⟨k.newlineBsFlag, rfl⟩
  unfold typingKey spaceKey symbolKey printableKey
  split_ifs <;> first | exact hsame | exact hwrap

/-- **The modifier keys after a key.** -/
theorem keys_keyboardHandler (t : Console) (henter : scanCode ≠ Scan.enter)
    (hswitch : ¬ Switches k scanCode) :
    ∃ b, (keyboardHandler k t scanCode).1 = { nextKeys k scanCode with newlineBsFlag := b } := by
  have h0 : ¬ (k.alt = true ∧ scanCode = 0x3B) := fun h => hswitch ⟨h.1, Or.inl h.2⟩
  have h1 : ¬ (k.alt = true ∧ scanCode = 0x3C) := fun h => hswitch ⟨h.1, Or.inr (Or.inl h.2)⟩
  have h2 : ¬ (k.alt = true ∧ scanCode = 0x3D) := fun h => hswitch ⟨h.1, Or.inr (Or.inr h.2)⟩
  unfold keyboardHandler nextKeys
  rw [if_neg henter, if_neg h0, if_neg h1, if_neg h2]
  by_cases hclear : k.ctrl = true ∧ scanCode = Scan.l
  · rw [if_pos hclear, hclear.2]
    exact ⟨k.newlineBsFlag, rfl⟩
  rw [if_neg hclear]
  cases hflags : flagSetters k scanCode with
  | some k' => exact ⟨k'.newlineBsFlag, rfl⟩
  | none => exact keys_typingKey k t scanCode

/-- `newline_bs_flag` means nothing for the line. -/
theorem foldl_typeKey_flag (k : Keys) (b : Bool) (line : List UInt8) (codes : List UInt8) :
    (codes.foldl typeKey ({ k with newlineBsFlag := b }, line)).2
      = (codes.foldl typeKey (k, line)).2 := by
  have hnext (k : Keys) (c : UInt8) :
      nextKeys { k with newlineBsFlag := b } c = { nextKeys k c with newlineBsFlag := b } := by
    unfold nextKeys flagSetters
    split_ifs <;> rfl
  induction codes generalizing k line with
  | nil => rfl
  | cons c codes ih =>
    rw [List.foldl_cons, List.foldl_cons, typeKey, hnext]
    exact ih (nextKeys k c) (stackKey k line c)

end Handler

/-! ### The array holds the line -/

/-- A terminal's buffer holds a line: the characters and NULs behind them in its 127 bytes,
and what is behind these is as it was in `base`. -/
structure Terminal.HoldsLine (m : Terminal) (base : ℕ → UInt8) (line : List UInt8) : Prop where
  count : m.bufferCt.toNat = line.length
  room : line.length ≤ 127
  buffer : ∀ i < 127, m.keyboardBuffer i = line.getD i 0
  outside : SameFrom 127 base m.keyboardBuffer

/-- A cleared buffer: `buffer_ct` is zero and the 127 bytes are NUL. -/
def Terminal.Cleared (m : Terminal) : Prop :=
  m.bufferCt = 0 ∧ ∀ i < 127, m.keyboardBuffer i = 0

namespace Terminal

variable {m m' : Terminal} {base : ℕ → UInt8} {line : List UInt8}

/-- **The first `buffer_ct` bytes** are the line. -/
theorem HoldsLine.text (h : m.HoldsLine base line) : m.text = line := by
  refine List.ext_getElem (by rw [Terminal.text, length_cells, h.count]) fun i hi hi' => ?_
  have hroom := h.room
  simp only [Terminal.text, cells, List.getElem_map, List.getElem_range]
  rw [h.buffer i (by omega), List.getD_eq_getElem line 0 hi']

/-- **The bytes from `buffer_ct` on** are NUL. -/
theorem HoldsLine.nul (h : m.HoldsLine base line) {i : ℕ} (hi : m.bufferCt.toNat ≤ i)
    (hi' : i < 127) : m.keyboardBuffer i = 0 := by
  rw [h.buffer i hi', List.getD_eq_default line 0 (h.count ▸ hi)]

theorem Cleared.holdsLine (h : m.Cleared) : m.HoldsLine m.keyboardBuffer [] where
  count := by rw [h.1]; rfl
  room := Nat.zero_le _
  buffer i hi := h.2 i hi
  outside := SameFrom.refl _ _

theorem HoldsLine.congr (h : m.HoldsLine base line) (hbuffer : m'.keyboardBuffer = m.keyboardBuffer)
    (hcount : m'.bufferCt = m.bufferCt) : m'.HoldsLine base line :=
  ⟨hcount ▸ h.count, h.room, hbuffer ▸ h.buffer, hbuffer ▸ h.outside⟩

/-- **A character** is pushed if there is room. -/
theorem HoldsLine.char (h : m.HoldsLine base line) (c : UInt8) :
    (m.press (.char c)).HoldsLine base (pushChar line c) := by
  obtain ⟨hcount, hroom, hbuffer, houtside⟩ := h
  have hlt : m.bufferCt < 127 ↔ line.length < 127 := by
    rw [UInt8.lt_iff_toNat_lt, hcount]
    rfl
  unfold Terminal.press pushChar
  dsimp only
  split_ifs with hct hlength hlength
  · have hnext : (m.bufferCt + 1).toNat = line.length + 1 := by
      rw [toNat_add_one_of_lt (by omega), hcount]
    refine ⟨hnext.trans (by simp), by simp; omega, fun i hi => ?_, ?_⟩
    · dsimp only
      rw [hcount]
      rcases Nat.lt_trichotomy i line.length with h | rfl | h
      · rw [Function.update_of_ne (by omega), hbuffer i hi,
          List.getD_append line [c] 0 i h]
      · rw [Function.update_self]
        simp
      · rw [Function.update_of_ne (by omega), hbuffer i hi,
          List.getD_eq_default _ _ (by omega), List.getD_eq_default _ _ (by simp; omega)]
    · rw [hcount]
      exact houtside.trans (sameFrom_update _ _ hlength)
  · exact absurd (hlt.1 hct) hlength
  · exact absurd (hlt.2 hlength) hct
  · exact ⟨hcount, hroom, hbuffer, houtside⟩

/-- **A backspace** pops if there is something to pop. -/
theorem HoldsLine.erase (h : m.HoldsLine base line) :
    (m.press .erase).HoldsLine base line.dropLast := by
  obtain ⟨hcount, hroom, hbuffer, houtside⟩ := h
  unfold Terminal.press
  dsimp only
  split_ifs with hct
  · have hsucc := toNat_sub_one_add_one hct
    have hprev : (m.bufferCt - 1).toNat = line.length - 1 := by omega
    refine ⟨hprev.trans (by simp), by simp; omega, fun i hi => ?_, ?_⟩
    · dsimp only
      rw [hprev]
      rcases Nat.lt_trichotomy i (line.length - 1) with h | rfl | h
      · have h' : i < line.length := by omega
        rw [Function.update_of_ne (by omega), hbuffer i hi, List.getD_eq_getElem line 0 h',
          List.getD_eq_getElem _ 0 (by simpa using h), List.getElem_dropLast]
      · rw [Function.update_self, List.getD_eq_default _ _ (by simp)]
      · rw [Function.update_of_ne (by omega), hbuffer i hi,
          List.getD_eq_default _ _ (by omega), List.getD_eq_default _ _ (by simp; omega)]
    · rw [hprev]
      exact houtside.trans (sameFrom_update _ _ (by omega))
  · have hnil : line = [] := by
      rw [← List.length_eq_zero_iff, ← hcount, not_not.1 hct]
      rfl
    subst hnil
    exact ⟨hcount, hroom, hbuffer, houtside⟩

end Terminal

/-! ### Runs of keys -/

section Runs

variable {k : Keys} {t : Console} {codes : List UInt8} {q : Keys × Console}

/-- One scan code. -/
def KeyStep (p : Keys × Console) (scanCode : UInt8) (q : Keys × Console) : Prop :=
  q = keyboardHandler p.1 p.2 scanCode

/-- The code is neither Enter nor a terminal switch. -/
def Types (p : Keys × Console) (scanCode : UInt8) : Prop :=
  scanCode ≠ Scan.enter ∧ ¬ Switches p.1 scanCode

instance (p : Keys × Console) (scanCode : UInt8) : Decidable (Types p scanCode) :=
  inferInstanceAs (Decidable (_ ∧ _))

/-- **One key** does to the buffer what it does to the stack. -/
theorem holdsLine_keyboardHandler {base : ℕ → UInt8} {line : List UInt8} {scanCode : UInt8}
    (h : t.visible.HoldsLine base line) (htypes : Types (k, t) scanCode) :
    (keyboardHandler k t scanCode).2.terminalNum = t.terminalNum ∧
      (keyboardHandler k t scanCode).2.visible.HoldsLine base (stackKey k line scanCode) := by
  have hpressed := keyboardHandler_pressed k t scanCode
  obtain ⟨hkey, hstack⟩ | ⟨hkey, hstack⟩ | ⟨c, hkey, hstack⟩ :=
    keyInput_stackKey htypes.1 htypes.2 line
  all_goals
    rw [hkey] at hpressed
    obtain ⟨hnum, hline, -⟩ := hpressed
    rw [hstack, Console.visible, hnum]
    refine ⟨rfl, ?_⟩
  · exact h.congr hline.buffer hline.count
  · exact h.erase.congr hline.buffer hline.count
  · exact (h.char c).congr hline.buffer hline.count

/-- **A sequence of keys** does to the buffer what it does to the stack. -/
theorem holdsLine_run {base : ℕ → UInt8} {line : List UInt8} (h : t.visible.HoldsLine base line)
    (hr : Run (Guarded Types KeyStep) (k, t) codes q) :
    q.2.terminalNum = t.terminalNum ∧
      q.2.visible.HoldsLine base (codes.foldl typeKey (k, line)).2 := by
  induction codes generalizing k t line with
  | nil =>
    cases hr
    exact ⟨rfl, h⟩
  | cons c codes ih =>
    cases hr with
    | cons hstep hr =>
      obtain ⟨htypes, rfl⟩ := hstep
      obtain ⟨hnum, hline⟩ := holdsLine_keyboardHandler h htypes
      obtain ⟨b, hkeys⟩ := keys_keyboardHandler t htypes.1 htypes.2
      obtain ⟨hnum', hline'⟩ := ih (k := (keyboardHandler k t c).1) hline hr
      rw [hkeys, foldl_typeKey_flag] at hline'
      exact ⟨hnum'.trans hnum, hline'⟩

end Runs

/-! ### The read -/

/-- What a read with room for the longest line delivers: the line, a newline or after `exit`
a NUL, and NULs up to index 126. -/
structure ReadResult.Delivers (r : ReadResult) (line : List UInt8) : Prop where
  ret : r.ret = line.length + 1
  text : cells r.buf line.length = line
  newline : r.buf line.length = if line = ascii "exit".toList then 0 else 10
  nul : ∀ i, line.length < i → i < 127 → r.buf i = 0

section Read

variable {m : Terminal} {base buf : ℕ → UInt8} {line : List UInt8} {n : ℤ}

/-- The fixed-length copy, and the newline behind the line. -/
theorem copyLine_apply (h : m.HoldsLine base line) (hn : 128 ≤ n) {i : ℕ} (hi : i < 127) :
    copyLine m buf n i = if i = line.length then 10 else line.getD i 0 := by
  unfold copyLine
  rw [copyCount_of_le hn, h.count]
  split_ifs with hend
  · rw [hend, Function.update_self]
  · rw [Function.update_of_ne hend, copyLoop_start hi, h.buffer i hi]

theorem copyLine_newline (h : m.HoldsLine base line) :
    copyLine m buf n line.length = 10 := by
  unfold copyLine
  rw [h.count]
  exact Function.update_self _ _ _

/-- **The test for `exit`** holds of the line `exit` only. -/
theorem strncmp_exitLine (hline : 10 ∉ line)
    (hbuf : ∀ i < 127, buf i = if i = line.length then 10 else line.getD i 0) :
    strncmp buf exitLine 6 = 0 ↔ line = ascii "exit".toList := by
  have hexit : ∀ i < 6, (if i = 4 then 10 else (ascii "exit".toList).getD i 0) = exitLine i := by
    decide
  rw [strncmp_exitLine_iff]
  constructor
  · intro hsame
    have hbyte (i : ℕ) (hi : i < 6) :
        (if i = line.length then 10 else line.getD i 0) = exitLine i := by
      rw [← hbuf i (by omega)]
      exact hsame i hi
    -- the newline of the line is the newline of `exit`
    have hfour : line.length = 4 := by
      rcases Nat.lt_trichotomy line.length 4 with h | h | h
      · have hend := hbyte line.length (by omega)
        rw [if_pos rfl] at hend
        exact absurd hend.symm ((by decide : ∀ i < 4, exitLine i ≠ 10) _ h)
      · exact h
      · have hend := hbyte 4 (by omega)
        rw [if_neg (by omega), List.getD_eq_getElem line 0 h] at hend
        have hmem := List.getElem_mem h
        rw [hend] at hmem
        exact absurd hmem hline
    refine List.ext_getElem hfour fun i hi hi' => ?_
    have hend := (hbyte i (by omega)).trans (hexit i (by omega)).symm
    rw [if_neg (by omega), if_neg (by omega), List.getD_eq_getElem line 0 hi,
      List.getD_eq_getElem _ 0 hi'] at hend
    exact hend
  · rintro rfl i hi
    exact (hbuf i (by omega)).trans (hexit i hi)

variable {s : Kernel} {pid fd : ℤ}

/-- **The read** delivers the line that the buffer of the caller's terminal holds. -/
theorem delivers_terminalReadTail
    (h : (s.console.terminal (s.waitTerminal pid)).HoldsLine base line) (hline : 10 ∉ line)
    (hvisible : s.console.terminalNum = s.waitTerminal pid) (hfd : fd ≤ 1) (hn : 128 ≤ n) :
    (s.terminalReadTail pid fd buf n).Delivers line := by
  rw [s.terminalReadTail_of_good pid buf (by omega) hfd, Kernel.waitLine, Kernel.terminateExit,
    Kernel.visibleCt, hvisible]
  set m := s.console.terminal (s.waitTerminal pid) with hm
  have hcopy (i : ℕ) (hi : i < 127) :
      copyLine m buf n i = if i = line.length then 10 else line.getD i 0 :=
    copyLine_apply h hn hi
  have hexit := strncmp_exitLine hline hcopy
  have hroom := h.room
  -- but for the end of the line the two buffers are one
  have hbuf (i : ℕ) (hi : i ≠ line.length) :
      (if strncmp (copyLine m buf n) exitLine 6 = 0
        then Function.update (copyLine m buf n) m.bufferCt.toNat 0 else copyLine m buf n) i
        = copyLine m buf n i := by
    split_ifs
    · exact Function.update_of_ne (by rw [h.count]; exact hi) _ _
    · rfl
  refine ⟨?_, ?_, ?_, fun i hi hi' => ?_⟩
  · dsimp only
    rw [h.count]
  · refine List.ext_getElem (length_cells _ _) fun i hi hi' => ?_
    simp only [cells, List.getElem_map, List.getElem_range]
    rw [hbuf i (by omega), hcopy i (by omega), if_neg (by omega), List.getD_eq_getElem line 0 hi']
  · dsimp only
    split_ifs with htest hword hword
    · rw [← h.count]
      exact Function.update_self _ _ _
    · exact absurd (hexit.1 htest) hword
    · exact absurd (hexit.2 hword) htest
    · exact copyLine_newline h
  · refine (hbuf i (by omega)).trans ?_
    rw [hcopy i hi', if_neg (by omega), List.getD_eq_default line 0 (by omega)]

/-- **The read** leaves the buffer cleared. -/
theorem cleared_terminalReadTail (hvisible : s.console.terminalNum = s.waitTerminal pid)
    (hfd : fd ≤ 1) (hn : 0 ≤ n) :
    ((s.terminalReadTail pid fd buf n).kernel.console.terminal (s.waitTerminal pid)).Cleared := by
  have hconsole : (s.terminalReadTail pid fd buf n).kernel.console.terminal (s.waitTerminal pid) =
      { s.console.terminal (s.waitTerminal pid) with
        keyboardBuffer := fillLoop (s.console.terminal (s.waitTerminal pid)).keyboardBuffer 0 127
        bufferCt := 0
        enterRead := false } := by
    rw [s.terminalReadTail_of_good pid buf hn hfd]
    show ((s.modifyConsole Console.clearBuffer).resetEnterRead
      (s.waitTerminal pid)).console.terminal (s.waitTerminal pid) = _
    unfold Kernel.resetEnterRead Kernel.modifyConsole Console.clearBuffer Console.modifyTerminal
    dsimp only
    rw [Function.update_self, hvisible, Function.update_self]
    rfl
  rw [hconsole]
  exact ⟨rfl, fun i hi => (fillLoop_apply _ _ _ _).trans (if_pos hi)⟩

/-- **The line discipline.**  In every state of a run of keys that are neither Enter nor a
terminal switch, the buffer of the visible terminal, cleared at first, holds the line of the
stack and NULs behind it, and nothing behind its 127 bytes is written.  When Enter follows, a
read of the terminal's process can go on, delivers the line, and leaves the buffer cleared;
between the two there may be any output. -/
theorem lineDiscipline {k : Keys} {t : Console} {codes : List UInt8} {q : Keys × Console}
    (hclear : t.visible.Cleared) (hr : Run (Guarded Types KeyStep) (k, t) codes q) :
    q.2.terminalNum = t.terminalNum ∧
      q.2.visible.HoldsLine t.visible.keyboardBuffer (typedLine k codes) ∧
      ∀ (s : Kernel) (pid fd : ℤ) (buf : ℕ → UInt8) (n : ℤ),
        (keyboardHandler q.1 q.2 Scan.enter).2.SameLines s.console →
        s.waitTerminal pid = t.terminalNum → fd ≤ 1 → 128 ≤ n →
        (s.scheduleIdx = t.terminalNum → s.LineReady pid) ∧
          (s.terminalReadTail pid fd buf n).Delivers (typedLine k codes) ∧
          ((s.terminalReadTail pid fd buf n).kernel.console.terminal t.terminalNum).Cleared := by
  obtain ⟨hnum, hline⟩ := holdsLine_run hclear.holdsLine hr
  refine ⟨hnum, hline, fun s pid fd buf n hlines hwait hfd hn => ?_⟩
  obtain ⟨henterNum, henter, -⟩ := keyboardHandler_pressed q.1 q.2 Scan.enter
  -- Enter leaves the line and sets the flag; what follows it leaves both
  have hsame := (hlines.lines q.2.terminalNum).trans henter
  have hnewline : 10 ∉ typedLine k codes := newline_notMem_foldl codes List.not_mem_nil
  have hvisible : s.console.terminalNum = s.waitTerminal pid := by
    rw [hlines.num, henterNum, hwait]
    exact hnum
  rw [hnum, ← hwait] at hsame
  refine ⟨fun hidx => ⟨hsame.enterRead, ?_⟩, ?_, ?_⟩
  · rw [hvisible, hwait, hidx]
  · rw [Console.visible, hnum, ← hwait] at hline
    exact delivers_terminalReadTail (hline.congr hsame.buffer hsame.count) hnewline hvisible hfd hn
  · rw [← hwait]
    exact cleared_terminalReadTail hvisible hfd (by omega)

/-- Shift and `a`, and a space that is taken back. -/
def someKeys : List UInt8 := [0x2A, 0x1E, 0xAA, Scan.spacebar, Scan.backspace]

/-- The kernel of a process of the first terminal, with a console. -/
def kernelOf (t : Console) : Kernel := { (default : Kernel) with console := t }

theorem lineDiscipline_someKeys :
    ∃ q, Run (Guarded Types KeyStep) ((default : Keys), (default : Console)) someKeys q ∧
      q.2.visible.HoldsLine (fun _ => 0) [65] ∧
      let s := kernelOf (keyboardHandler q.1 q.2 Scan.enter).2
      s.LineReady 0 ∧ (s.terminalReadTail 0 0 (fun _ => 0) 128).Delivers [65] := by
  have hr : Run (Guarded Types KeyStep) ((default : Keys), (default : Console)) someKeys _ :=
    .cons ⟨by decide, rfl⟩ <| .cons ⟨by decide +kernel, rfl⟩ <| .cons ⟨by decide +kernel, rfl⟩ <|
      .cons ⟨by decide +kernel, rfl⟩ <| .cons ⟨by decide +kernel, rfl⟩ <| .nil _
  obtain ⟨-, hline, hread⟩ := lineDiscipline ⟨rfl, fun _ _ => rfl⟩ hr
  obtain ⟨hready, hdelivers, -⟩ := hread (kernelOf _) 0 0 (fun _ => 0) 128 (.refl _) rfl (by decide)
    (by decide)
  exact ⟨_, hr, hline, hready rfl, hdelivers⟩

end Read

end OS391
