/-
# What `terminal_write` depends on, and what it emits

`terminal_write` prints the first `n` bytes of its buffer.  Before and after that it compares
the buffer with texts of the user programs, up to their own lengths, which may be more than `n`:
with four or five of them, as one comparison is made only if another fails, and one only while
output of `cat` is on the screen.  So it depends on the first `n` bytes and on the bytes that the
comparisons it makes read (`terminalWrite_congr`): up to the first that differs from the text, or
that is NUL.

The functions `...Traced` are those of `TerminalIo` with a record of the characters that are
handed to `putc` and `background_putc`.  What is emitted is the text laid out (`layout`): the
bytes but for the NULs, with a newline put in front of a byte when `line_ct` is 80, and at the
end a newline after `exit` and one after output of `cat` (`terminalWrite_spec`).  `line_ct`
counts from 0 where the call starts, but from 1 behind a newline of the text (`nextCount`): the
first line of a text has room for 80 characters, and the others have room for 79.
-/

import OS391.Consistency
import OS391.Lib.Traced
import OS391.ScreenBounds

namespace OS391

open Lib

/-! ### What a comparison reads -/

/-- `strncmp` looks at byte `i` of its first string. -/
def StrncmpReads (s t : ℕ → UInt8) (n i : ℕ) : Prop := i < n ∧ ∀ j < i, s j = t j ∧ s j ≠ 0

/-- **`strncmp` depends on the bytes it looks at.** -/
theorem strncmp_congr {s s' t : ℕ → UInt8} {n : ℕ} (h : ∀ i, StrncmpReads s t n i → s' i = s i) :
    strncmp s' t n = strncmp s t n := by
  induction n generalizing s s' t with
  | zero => rfl
  | succ n ih =>
    have hfirst : s' 0 = s 0 := h 0 ⟨Nat.succ_pos n, fun j hj => absurd hj (Nat.not_lt_zero j)⟩
    rw [strncmp, strncmp, hfirst]
    split_ifs with hstop
    · rfl
    · obtain ⟨hsame, hnul⟩ := not_or.1 hstop
      refine ih fun i hi => h (i + 1) ⟨Nat.succ_lt_succ hi.1, fun j hj => ?_⟩
      cases j with
      | zero => exact ⟨not_not.1 hsame, hnul⟩
      | succ j => exact hi.2 j (Nat.lt_of_succ_lt_succ hj)

namespace Kernel

/-- The comparison with a text, up to `n` bytes, looks at byte `i` of the buffer. -/
def TextReads (buf : ℕ → UInt8) (text : String) (n i : ℕ) : Prop :=
  StrncmpReads buf (fun j => (ascii text.toList).getD j 0) n i

/-- A comparison that `terminal_write` makes looks at byte `i` of the buffer.  The second is made
if the first fails, and the last if output of `cat` is on the screen. -/
inductive Compares (s : Kernel) (buf : ℕ → UInt8) (i : ℕ) : Prop
  | name (h : TextReads buf "Hi, what's your name? " 23 i)
  | test (hname : startsWith buf "Hi, what's your name? " 23 = false)
      (h : TextReads buf "Enter the Test Number: (0): 100, (1): 10000, (2): 100000\n" 58 i)
  | hello (h : TextReads buf "Hello, " 8 i)
  | exit (h : TextReads buf "exit" 5 i)
  | prompt (hcat : s.console.catFlag s.scheduleIdx = true) (h : TextReads buf "391OS> " 9 i)

theorem startsWith_congr {buf buf' : ℕ → UInt8} {text : String} {n : ℕ}
    (h : ∀ i, TextReads buf text n i → buf' i = buf i) :
    startsWith buf' text n = startsWith buf text n := by
  rw [startsWith, startsWith, strncmp_congr h]

theorem writeBytes_congr (s : Kernel) {buf buf' : ℕ → UInt8} {n : ℕ}
    (h : ∀ i < n, buf' i = buf i) : s.writeBytes buf' n = s.writeBytes buf n := by
  induction n with
  | zero => rfl
  | succ n ih =>
    rw [writeBytes, writeBytes, ih fun i hi => h i (Nat.lt_succ_of_lt hi), h n (Nat.lt_succ_self n)]

theorem writeHead_congr (s : Kernel) {buf buf' : ℕ → UInt8}
    (h : ∀ i, s.Compares buf i → buf' i = buf i) : s.writeHead buf' = s.writeHead buf := by
  have hname : startsWith buf' "Hi, what's your name? " 23
      = startsWith buf "Hi, what's your name? " 23 :=
    startsWith_congr fun i hi => h i (.name hi)
  rw [writeHead, writeHead, hname]
  cases hcase : startsWith buf "Hi, what's your name? " 23 with
  | true => rfl
  | false =>
    rw [startsWith_congr fun i hi => h i (.test hcase hi)]

theorem writeTail_congr (s : Kernel) {buf buf' : ℕ → UInt8}
    (h : ∀ i, s.Compares buf i → buf' i = buf i) : s.writeTail buf' = s.writeTail buf := by
  have hhello : startsWith buf' "Hello, " 8 = startsWith buf "Hello, " 8 :=
    startsWith_congr fun i hi => h i (.hello hi)
  have hexit : startsWith buf' "exit" 5 = startsWith buf "exit" 5 :=
    startsWith_congr fun i hi => h i (.exit hi)
  have hputc (t : Console) : (t.putc 10).catFlag = t.catFlag := by
    obtain ⟨p, mem, n, hframe⟩ := t.putc_frame 10
    rw [hframe]
    rfl
  rw [writeTail, writeTail, hhello, hexit]
  cases hcat : s.console.catFlag s.scheduleIdx with
  | true => rw [startsWith_congr fun i hi => h i (.prompt hcat hi)]
  | false =>
    -- the flag is still clear when it is looked at
    unfold modifyConsole
    dsimp only
    split_ifs <;> simp_all

/-! ### The characters emitted -/

variable (s : Kernel)

/-- `emit`, with the character. -/
def emitTraced (ch : UInt8) : Traced UInt8 Kernel := ⟨s.emit ch, [ch]⟩

/-- `putc`, with the character. -/
def putcTraced (ch : UInt8) : Traced UInt8 Kernel := ⟨s.modifyConsole fun c => c.putc ch, [ch]⟩

/-- One turn of the loop of `terminal_write`. -/
def writeByteTraced (ch : UInt8) : Traced UInt8 Kernel := do
  let s ←
    if s.console.lineCt = rowLim ∧ ch ≠ 0 ∧ ch ≠ 10 then do
      let s ← s.emitTraced 10
      pure (s.modifyConsole fun c => { c with lineCt := 0 })
    else if ch = 10 then pure (s.modifyConsole fun c => { c with lineCt := 0 })
    else pure s
  if ch ≠ 0 then
    (s.modifyConsole fun c =>
      { c with bytesWritten := c.bytesWritten + 1, lineCt := c.lineCt + 1 }).emitTraced ch
  else pure s

/-- The loop of `terminal_write`. -/
def writeBytesTraced (buf : ℕ → UInt8) (n : ℕ) : Traced UInt8 Kernel :=
  Traced.forLoop (fun i s => s.writeByteTraced (buf i)) n s

/-- The flags and newlines at the end of `terminal_write`. -/
def writeTailTraced (buf : ℕ → UInt8) : Traced UInt8 Kernel := do
  let s := s.modifyConsole fun c => { c with helloFlag := startsWith buf "Hello, " 8 }
  let s ← if startsWith buf "exit" 5 then s.putcTraced 10 else pure s
  if s.console.catFlag s.scheduleIdx ∧ ¬ startsWith buf "391OS> " 9 then s.putcTraced 10
  else pure (s.modifyConsole fun c =>
    { c with catFlag := Function.update c.catFlag s.scheduleIdx false })

/-- `terminal_write` -/
def terminalWriteTraced (fd : ℤ) (nonNull : Bool) (buf : ℕ → UInt8) (n : ℤ) :
    Traced UInt8 (ℤ × Kernel) := do
  let s := s.modifyConsole fun c => { c with bytesWritten := 0, lineCt := 0 }
  if nonNull = false ∨ n < 0 ∨ fd > 1 then pure (-1, s)
  else do
    let s ← (s.writeHead buf).writeBytesTraced buf n.toNat
    let s ← s.writeTailTraced buf
    pure (s.console.bytesWritten, s)

section Val

theorem val_writeByteTraced (ch : UInt8) : (s.writeByteTraced ch).val = s.writeByte ch := by
  unfold writeByteTraced writeByte
  simp only [Traced.val_bind, Traced.val_ite, Traced.val_pure, emitTraced]
  split_ifs <;> rfl

theorem val_writeBytesTraced (buf : ℕ → UInt8) (n : ℕ) :
    (s.writeBytesTraced buf n).val = s.writeBytes buf n := by
  unfold writeBytesTraced
  induction n with
  | zero => rfl
  | succ n ih => rw [Traced.forLoop, Traced.val_bind, ih, val_writeByteTraced, writeBytes]

theorem val_writeTailTraced (buf : ℕ → UInt8) : (s.writeTailTraced buf).val = s.writeTail buf := by
  unfold writeTailTraced writeTail modifyConsole putcTraced
  simp only [Traced.val_bind, Traced.val_ite, Traced.val_pure]
  split_ifs <;> first | rfl | contradiction

/-- **The record changes nothing** in what is computed. -/
theorem val_terminalWriteTraced (fd : ℤ) (nonNull : Bool) (buf : ℕ → UInt8) (n : ℤ) :
    (s.terminalWriteTraced fd nonNull buf n).val = s.terminalWrite fd nonNull buf n := by
  unfold terminalWriteTraced terminalWrite
  simp only [Traced.val_bind, Traced.val_ite, Traced.val_pure, val_writeBytesTraced,
    val_writeTailTraced]

end Val

end Kernel

/-! ### The counters of `terminal_write` -/

namespace Console

variable (t : Console)

/-- What `terminal_write` counts, and the flags it keeps: no output of a character changes
them. -/
def counters : ℤ × ℤ × Bool × (ℕ → Bool) := (t.bytesWritten, t.lineCt, t.helloFlag, t.catFlag)

@[simp] theorem counters_putc (c : UInt8) : (t.putc c).counters = t.counters := by
  obtain ⟨p, mem, n, hputc⟩ := t.putc_frame c
  rw [hputc]
  rfl

@[simp] theorem counters_backgroundPutc (c : UInt8) (idx : ℕ) :
    (t.backgroundPutc c idx).counters = t.counters := by
  rw [backgroundPutc_eq]
  rfl

end Console

namespace Kernel

variable (s : Kernel)

@[simp] theorem counters_emit (ch : UInt8) :
    (s.emit ch).console.counters = s.console.counters := by
  show (if _ then _ else _ : Console).counters = _
  split_ifs <;> simp

end Kernel

/-! ### The layout of a text -/

/-- The count of the line after a character. -/
def nextCount (count : ℤ) (c : UInt8) : ℤ := if c = 10 ∨ count = rowLim then 1 else count + 1

/-- A character, and the newline in front of it when the line is full. -/
def wrapped (count : ℤ) (c : UInt8) : List UInt8 :=
  if count = rowLim ∧ c ≠ 10 then [10, c] else [c]

/-- A text laid out, from a line with `count` characters on. -/
def layout : ℤ → List UInt8 → List UInt8
  | _, [] => []
  | count, c :: cs => wrapped count c ++ layout (nextCount count c) cs

theorem layout_append (count : ℤ) (cs ds : List UInt8) :
    layout count (cs ++ ds) = layout count cs ++ layout (cs.foldl nextCount count) ds := by
  induction cs generalizing count with
  | nil => rfl
  | cons c cs ih => rw [List.cons_append, layout, ih, layout, List.append_assoc, List.foldl_cons]

/-- `out` is the text `cs`, with a newline in front of some of its characters. -/
inductive Interspersed : List UInt8 → List UInt8 → Prop
  | nil : Interspersed [] []
  | char (c : UInt8) {cs out : List UInt8} (h : Interspersed cs out) :
      Interspersed (c :: cs) (c :: out)
  | wrap (c : UInt8) (hc : c ≠ 10) {cs out : List UInt8} (h : Interspersed cs out) :
      Interspersed (c :: cs) (10 :: c :: out)

/-- **A layout** is the text with newlines put in front of characters that are none. -/
theorem interspersed_layout (count : ℤ) (cs : List UInt8) : Interspersed cs (layout count cs) := by
  induction cs generalizing count with
  | nil => exact .nil
  | cons c cs ih =>
    rw [layout, wrapped]
    split_ifs with h
    · exact .wrap c h.2 (ih _)
    · exact .char c (ih _)

/-- Nothing is put behind the last character. -/
theorem Interspersed.getLast?_eq {cs out : List UInt8} (h : Interspersed cs out) :
    out.getLast? = cs.getLast? := by
  induction h with
  | nil => rfl
  | char c _ ih => rw [List.getLast?_cons, List.getLast?_cons, ih]
  | wrap c _ _ ih => simp [List.getLast?_cons, ih]

/-- The bytes of a buffer that are no NULs. -/
def nonNul (buf : ℕ → UInt8) (n : ℕ) : List UInt8 := ((List.range n).map buf).filter (· ≠ 0)

theorem nonNul_succ (buf : ℕ → UInt8) (n : ℕ) :
    nonNul buf (n + 1) = nonNul buf n ++ if buf n = 0 then [] else [buf n] := by
  rw [nonNul, List.range_succ, List.map_append, List.filter_append, ← nonNul]
  by_cases h : buf n = 0 <;> simp [h]

/-! ### The text emitted -/

namespace Kernel

variable (s : Kernel)

theorem touched_writeByteTraced (ch : UInt8) : (s.writeByteTraced ch).touched = s.turn ch := by
  unfold writeByteTraced turn
  simp only [Traced.touched_bind, Traced.touched_ite, Traced.touched_pure, emitTraced]
  split_ifs <;> simp_all

/-- **What a turn counts:** the byte, and where it stands in its line. -/
theorem counters_writeByte (ch : UInt8) :
    (s.writeByte ch).console.counters = if ch = 0 then s.console.counters else
      (s.console.bytesWritten + 1, nextCount s.console.lineCt ch, s.console.helloFlag,
        s.console.catFlag) := by
  have hcase := s.writeByte_cases ch
  generalize s.turn ch = cs at hcase
  generalize s.writeByte ch = t at hcase ⊢
  cases hcase with
  | nul hnul => rw [if_pos hnul]
  | wrap hfull hnul hnew =>
    have hline := s.counters_emit 10
    simp only [Console.counters, Prod.mk.injEq] at hline
    obtain ⟨hbytes, -, hhello, hcat⟩ := hline
    rw [if_neg hnul, counters_emit, nextCount, if_pos (Or.inr hfull), ← hbytes, ← hhello, ← hcat]
    rfl
  | newline hnew =>
    subst hnew
    rw [if_neg (by decide), counters_emit, nextCount, if_pos (Or.inl rfl)]
    rfl
  | plain hnul hnew hroom =>
    rw [if_neg hnul, counters_emit, nextCount, if_neg (not_or.2 ⟨hnew, hroom⟩)]
    rfl

/-- **The loop** emits the bytes that are no NULs, laid out, and counts them. -/
theorem writeBytes_layout (buf : ℕ → UInt8) (n : ℕ) :
    (s.writeBytesTraced buf n).touched = layout s.console.lineCt (nonNul buf n) ∧
      (s.writeBytes buf n).console.counters = (s.console.bytesWritten + (nonNul buf n).length,
        (nonNul buf n).foldl nextCount s.console.lineCt, s.console.helloFlag,
        s.console.catFlag) := by
  induction n with
  | zero => exact ⟨rfl, by simp [nonNul, writeBytes, Console.counters]⟩
  | succ n ih =>
    obtain ⟨htouched, hcounters⟩ := ih
    have hstep := (s.writeBytes buf n).counters_writeByte (buf n)
    rw [hcounters] at hstep
    simp only [Console.counters, Prod.mk.injEq] at hcounters
    obtain ⟨hbytes, hline, hhello, hcat⟩ := hcounters
    have htrace : (s.writeBytesTraced buf (n + 1)).touched
        = (s.writeBytesTraced buf n).touched ++ (s.writeBytes buf n).turn (buf n) := by
      rw [← touched_writeByteTraced, ← val_writeBytesTraced]
      rfl
    rw [htrace, htouched, nonNul_succ, writeBytes, hstep, layout_append, turn, hline]
    by_cases hnul : buf n = 0
    · simp [hnul, layout]
    · simp [hnul, layout, wrapped, hbytes, hhello, hcat, Int.add_assoc]

theorem touched_writeTailTraced (buf : ℕ → UInt8) :
    (s.writeTailTraced buf).touched =
      (if startsWith buf "exit" 5 then [10] else []) ++
        if s.console.catFlag s.scheduleIdx ∧ ¬ startsWith buf "391OS> " 9 then [10] else [] := by
  have hcat : ∀ t : Console, (t.putc 10).catFlag = t.catFlag := fun t => by
    have h := t.counters_putc 10
    simp only [Console.counters, Prod.mk.injEq] at h
    exact h.2.2.2
  unfold writeTailTraced putcTraced modifyConsole
  cases startsWith buf "exit" 5 with
  | false => simp [apply_ite Traced.touched]
  | true => simp [apply_ite Traced.touched, hcat]

theorem writeHead_lineCt (buf : ℕ → UInt8) :
    (s.writeHead buf).console.lineCt
        = (if s.console.helloFlag then 7 else s.console.lineCt) ∧
      (s.writeHead buf).console.catFlag = s.console.catFlag := by
  unfold writeHead modifyConsole
  dsimp only
  split_ifs <;> exact ⟨rfl, rfl⟩

/-- The comparisons depend on a flag of the console. -/
theorem Compares.congr {t : Kernel} {buf : ℕ → UInt8} {i : ℕ}
    (hcat : t.console.catFlag t.scheduleIdx = s.console.catFlag s.scheduleIdx)
    (h : t.Compares buf i) : s.Compares buf i := by
  cases h with
  | name h => exact .name h
  | test hname h => exact .test hname h
  | hello h => exact .hello h
  | exit h => exact .exit h
  | prompt hflag h => exact .prompt (hcat ▸ hflag) h

/-- What precedes the end of `terminal_write` does not touch that flag. -/
theorem catFlag_written (buf : ℕ → UInt8) (n : ℕ) :
    let t := (s.writeHead buf).writeBytes buf n
    t.console.catFlag t.scheduleIdx = s.console.catFlag s.scheduleIdx := by
  have hcounters := ((s.writeHead buf).writeBytes_layout buf n).2
  simp only [Console.counters, Prod.mk.injEq] at hcounters
  have hidx : ((s.writeHead buf).writeBytes buf n).scheduleIdx = s.scheduleIdx := by
    rw [scheduleIdx_writeBytes]
    rfl
  dsimp only
  rw [hidx, hcounters.2.2.2, (s.writeHead_lineCt buf).2]

/-- **Two buffers that agree** on their first `n` bytes, and on what the comparisons read, are
written in the same way. -/
theorem terminalWrite_congr (fd : ℤ) (nonNull : Bool) {buf buf' : ℕ → UInt8} {n : ℤ}
    (h : ∀ i < n.toNat, buf' i = buf i)
    (hread : fd ≤ 1 → ∀ i, s.Compares buf i → buf' i = buf i) :
    s.terminalWrite fd nonNull buf' n = s.terminalWrite fd nonNull buf n := by
  unfold terminalWrite
  dsimp only
  split_ifs with hbad
  · rfl
  · have hfd : fd ≤ 1 := by
      by_contra hgt
      exact hbad (Or.inr (Or.inr (Int.not_le.1 hgt)))
    set t := s.modifyConsole fun c => { c with bytesWritten := 0, lineCt := 0 }
    have hhead (i : ℕ) (hi : t.Compares buf i) : buf' i = buf i :=
      hread hfd i (Compares.congr s (t := t) rfl hi)
    have htail (i : ℕ) (hi : ((t.writeHead buf).writeBytes buf n.toNat).Compares buf i) :
        buf' i = buf i := hhead i (hi.congr t (t.catFlag_written buf n.toNat))
    rw [t.writeHead_congr hhead, (t.writeHead buf).writeBytes_congr h, writeTail_congr _ htail]

/-- **`terminal_write` writes the text it is given.**  It depends on the first `n` bytes and on
what the comparisons it makes read, and it emits the bytes that are no NULs, in order, with a
newline in front of a byte when `line_ct` is 80; then a newline if the buffer is `exit`, and one
if a `cat` is running and the buffer is not the prompt. -/
theorem terminalWrite_spec (fd : ℤ) (buf : ℕ → UInt8) {n : ℤ} (hn : 0 ≤ n) :
    (∀ buf', (∀ i < n.toNat, buf' i = buf i) →
      (fd ≤ 1 → ∀ i, s.Compares buf i → buf' i = buf i) →
      s.terminalWrite fd true buf' n = s.terminalWrite fd true buf n) ∧
    (s.terminalWriteTraced fd true buf n).val = s.terminalWrite fd true buf n ∧
    (s.terminalWriteTraced fd true buf n).touched =
      (if fd > 1 then [] else
        layout (if s.console.helloFlag then 7 else 0) (nonNul buf n.toNat) ++
          (if startsWith buf "exit" 5 then [10] else []) ++
          if s.console.catFlag s.scheduleIdx ∧ ¬ startsWith buf "391OS> " 9 then [10] else []) ∧
    ∀ count, Interspersed (nonNul buf n.toNat) (layout count (nonNul buf n.toNat)) := by
  refine ⟨fun buf' => s.terminalWrite_congr fd true, s.val_terminalWriteTraced fd true buf n, ?_,
    fun count => interspersed_layout count _⟩
  set t := s.modifyConsole fun c => { c with bytesWritten := 0, lineCt := 0 }
  have hline : (t.writeHead buf).console.lineCt = if s.console.helloFlag then 7 else 0 :=
    (t.writeHead_lineCt buf).1
  have hcat : ((t.writeHead buf).writeBytes buf n.toNat).console.catFlag
      ((t.writeHead buf).writeBytes buf n.toNat).scheduleIdx
        = s.console.catFlag s.scheduleIdx := t.catFlag_written buf n.toNat
  have htouched := ((t.writeHead buf).writeBytes_layout buf n.toNat).1
  unfold terminalWriteTraced
  by_cases hfd : fd > 1
  · rw [if_pos (Or.inr (Or.inr hfd)), if_pos hfd]
    rfl
  · rw [if_neg (by simp; omega), if_neg hfd]
    simp only [Traced.touched_bind, Traced.touched_pure, val_writeBytesTraced,
      touched_writeTailTraced, List.append_nil, List.append_assoc]
    rw [htouched, hline, hcat]

end Kernel

/-- A buffer that holds a text and NULs. -/
def textBuf (text : String) (i : ℕ) : UInt8 := (ascii text.toList).getD i 0

/-- The shell writes `exit`. -/
theorem terminalWrite_spec_exit :
    (bootedKernel.terminalWriteTraced 1 true (textBuf "exit") 4).touched
      = ascii "exit\n".toList :=
  (bootedKernel.terminalWrite_spec 1 (textBuf "exit") (by decide : (0 : ℤ) ≤ 4)).2.2.1.trans
    (by decide +kernel)

/-- **`terminal_write` looks past the bytes it is given:** with `n = 0` a buffer that holds `exit`
moves the cursor to the next line, and an empty one does not.  And it writes more than it is
given: the newline behind `exit` wraps no line. -/
theorem not_writesText :
    (¬ ∀ (s : Kernel) (fd : ℤ) (buf buf' : ℕ → UInt8) (n : ℤ), 0 ≤ n →
      (∀ i < n.toNat, buf' i = buf i) →
        s.terminalWrite fd true buf' n = s.terminalWrite fd true buf n) ∧
    ¬ ∀ (s : Kernel) (buf : ℕ → UInt8) (n : ℤ), 0 ≤ n →
      Interspersed (nonNul buf n.toNat) (s.terminalWriteTraced 1 true buf n).touched := by
  constructor
  · intro h
    have heq := h bootedKernel 1 (textBuf "exit") (textBuf "") 0 (by decide) (by simp)
    have hrow : (bootedKernel.terminalWrite 1 true (textBuf "") 0).2.console.screenY
        ≠ (bootedKernel.terminalWrite 1 true (textBuf "exit") 0).2.console.screenY := by
      decide +kernel
    exact hrow (by rw [heq])
  · intro h
    have hlast := (h bootedKernel (textBuf "exit") 4 (by decide)).getLast?_eq
    exact absurd hlast (by decide +kernel)

end OS391
