/-
# The counter of the typed columns

`row_letter_ct` says when a typed line is full, by a test for equality with `ROW_LIM`.  The
branches of the keys that type count it up, and so does the tab of `putc`; Enter, Ctrl and L
and two prompts of `terminal_write` set it.  Each of them leaves it in `0..80` if it was there
(`ColumnMove.le`).  It is counted down in one place: a backspace that finds a character in the
keyboard buffer takes one off, and looks at `buffer_ct` only.  The two counters do not fall
together: a full row, Ctrl and L, and Enter set this one back and leave the buffer.  So a
backspace over the end of a wrapped row takes one off zero, which leaves 255.

`rowCounter_of_run` says that this is all that goes wrong: in a run without such a backspace
the counter is in its range after every step, and the step that leaves it is that backspace.
-/

import OS391.ScreenBounds

namespace OS391

open Lib Relation

/-! ### How the counter moves -/

/-- A column counted: a full row is ended first. -/
def nextColumn (n : UInt8) : UInt8 := (if n = 80 then 0 else n) + 1

/-- What is done to the counter where nothing is erased: a column is counted, or it is set,
to zero, to `HEADER_LEN` or to the length of a prompt. -/
inductive ColumnMove (n : UInt8) : UInt8 → Prop
  | column : ColumnMove n (nextColumn n)
  | start {m : UInt8} (h : m ∈ [0, headerLen, 22]) : ColumnMove n m

theorem ColumnMove.le {n m : UInt8} (h : ColumnMove n m) (hn : n ≤ 80) : m ≤ 80 := by
  cases h with
  | column =>
    unfold nextColumn
    split_ifs with hfull
    · simp
    · have hne : n.toNat ≠ 80 := fun h => hfull (UInt8.toNat_inj.mp h)
      have hle : n.toNat ≤ 80 := UInt8.le_iff_toNat_le.1 hn
      rw [UInt8.le_iff_toNat_le, toNat_add_one_of_lt (by omega)]
      show n.toNat + 1 ≤ 80
      omega
  | start h =>
    simp only [List.mem_cons, List.not_mem_nil, or_false] at h
    rcases h with rfl | rfl | rfl
    · simp
    · simp [headerLen]
    · simp

/-- **Nothing but a backspace leaves the range.** -/
theorem columns_le {n m : UInt8} (h : ReflTransGen ColumnMove n m) (hn : n ≤ 80) : m ≤ 80 := by
  induction h with
  | refl => exact hn
  | tail _ hmove ih => exact hmove.le ih

/-- One taken off stays in the range unless it is taken off zero. -/
theorem sub_one_le_iff {n : UInt8} (hn : n ≤ 80) : n - 1 ≤ 80 ↔ n ≠ 0 := by
  constructor
  · rintro h rfl
    exact absurd h (by decide)
  · intro hne
    have hsucc := toNat_sub_one_add_one hne
    have hle : n.toNat ≤ 80 := UInt8.le_iff_toNat_le.1 hn
    rw [UInt8.le_iff_toNat_le]
    show (n - 1).toNat ≤ 80
    omega

/-! ### Output -/

namespace Console

variable {t : Console} {c : UInt8}

theorem rowLetterCt_putcTabSpace (t : Console) :
    t.putcTabSpace.rowLetterCt = nextColumn t.rowLetterCt := by
  unfold putcTabSpace nextColumn
  split_ifs
  · rfl
  · rfl

theorem rowLetterCt_putc (h : c ≠ 9) : (t.putc c).rowLetterCt = t.rowLetterCt := by
  rw [putc_eq t h]
  rfl

/-- **A character** leaves the counter alone, and a tab counts its four columns. -/
theorem columns_putc (t : Console) (c : UInt8) :
    ReflTransGen ColumnMove t.rowLetterCt (t.putc c).rowLetterCt := by
  by_cases htab : c = 9
  · subst htab
    have hspace (u : Console) :
        ReflTransGen ColumnMove u.rowLetterCt u.putcTabSpace.rowLetterCt := by
      rw [rowLetterCt_putcTabSpace]
      exact .single .column
    have hstart : t.putcStart.rowLetterCt = t.rowLetterCt := by
      rw [putcStart_eq]
      rfl
    rw [← hstart]
    exact (hspace _).trans ((hspace _).trans ((hspace _).trans (hspace _)))
  · rw [rowLetterCt_putc htab]

theorem columns_printf (t : Console) (text : List UInt8) :
    ReflTransGen ColumnMove t.rowLetterCt (t.printf text).rowLetterCt := by
  induction text generalizing t with
  | nil => exact .refl
  | cons c text ih => exact (columns_putc t c).trans (ih (t.putc c))

theorem rowLetterCt_backspaces (t : Console) (n : ℕ) :
    ((List.replicate n 8).foldl putc t).rowLetterCt = t.rowLetterCt := by
  induction n generalizing t with
  | zero => rfl
  | succ n ih => exact (ih (t.putc 8)).trans (rowLetterCt_putc (by decide))

@[simp] theorem rowLetterCt_storeKey (t : Console) (c : UInt8) :
    (t.storeKey c).rowLetterCt = t.rowLetterCt := by
  unfold storeKey
  split_ifs
  · rfl
  · rfl

/-- **The backspace key** looks at `buffer_ct` only. -/
theorem rowLetterCt_backspaceKey (t : Console) : t.backspaceKey.rowLetterCt =
    if t.visible.bufferCt ≠ 0 then t.rowLetterCt - 1 else t.rowLetterCt := by
  unfold backspaceKey
  split_ifs
  · exact congrArg (· - 1) (rowLetterCt_backspaces t t.lastColumns)
  · rfl

end Console

/-! ### The keys -/

section Keys

variable {k : Keys} {t : Console} {scanCode : UInt8}

/-- The test for a full row and a column. -/
theorem rowLetterCt_wrapRow (k : Keys) (t : Console) :
    (wrapRow k t).2.rowLetterCt + 1 = nextColumn t.rowLetterCt := by
  unfold wrapRow nextColumn
  split_ifs
  · rfl
  · rfl

theorem columns_symbolKey (k : Keys) (t : Console) {plain shifted : UInt8} (hplain : plain ≠ 9)
    (hshifted : shifted ≠ 9) :
    ReflTransGen ColumnMove t.rowLetterCt (symbolKey k t plain shifted).2.rowLetterCt := by
  have hne : (if (wrapRow k t).1.shift = true then shifted else plain) ≠ 9 := by
    split_ifs
    · exact hshifted
    · exact hplain
  unfold symbolKey
  split_ifs with hrefuses
  · exact .refl
  · simp only [Console.incRowLetterCt, Console.rowLetterCt_storeKey, Console.printf,
      List.foldl_cons, List.foldl_nil]
    rw [Console.rowLetterCt_putc hne, rowLetterCt_wrapRow]
    exact .single .column

theorem columns_printableKey (k : Keys) (t : Console) (scanCode : UInt8) :
    ReflTransGen ColumnMove t.rowLetterCt (printableKey k t scanCode).2.rowLetterCt := by
  unfold printableKey
  split_ifs
  · exact .refl
  · refine .trans ?_ (Console.columns_putc _ _)
    rw [Console.rowLetterCt_storeKey, Console.incRowLetterCt]
    rw [rowLetterCt_wrapRow]
    exact .single .column

theorem columns_spaceKey (k : Keys) (t : Console) :
    ReflTransGen ColumnMove t.rowLetterCt (spaceKey k t).2.rowLetterCt := by
  unfold spaceKey
  split_ifs
  · exact .refl
  · simp only [spaceHandler, Console.rowLetterCt_storeKey, Console.incRowLetterCt, Console.printf,
      List.foldl_cons, List.foldl_nil]
    rw [Console.rowLetterCt_putc (by decide), rowLetterCt_wrapRow]
    exact .single .column

/-- The tab is counted by `putc`. -/
theorem columns_tabKey (k : Keys) (t : Console) :
    ReflTransGen ColumnMove t.rowLetterCt (tabKey k t).rowLetterCt := by
  unfold tabKey
  split_ifs
  · exact .refl
  · have hputc := Console.columns_putc (t.storeKey 9) 9
    rwa [Console.rowLetterCt_storeKey] at hputc

theorem columns_clearKey (t : Console) :
    ReflTransGen ColumnMove t.rowLetterCt (clearKey t).rowLetterCt := by
  unfold clearKey
  refine .trans (.single (.start (m := headerLen) (by simp))) ?_
  exact Console.columns_printf { t.clear with rowLetterCt := headerLen } _

theorem keyboardHandler_backspace (hctrl : k.ctrl = false) (halt : k.alt = false) (t : Console) :
    keyboardHandler k t Scan.backspace = (k, t.backspaceKey) := by
  simp [keyboardHandler, typingKey, flagSetters, Scan.backspace, Scan.enter, hctrl, halt]

/-- **A backspace that erases** takes one off. -/
theorem rowLetterCt_of_erases (h : Erases k t scanCode) :
    (keyboardHandler k t scanCode).2.rowLetterCt = t.rowLetterCt - 1 := by
  obtain ⟨rfl, hctrl, halt, hct⟩ := h
  rw [keyboardHandler_backspace hctrl halt, Console.rowLetterCt_backspaceKey, if_pos hct]

/-- **Every other key** counts columns. -/
theorem columns_keyboardHandler (h : ¬ Erases k t scanCode) :
    ReflTransGen ColumnMove t.rowLetterCt (keyboardHandler k t scanCode).2.rowLetterCt := by
  have hcases := keyboardHandler_cases k t scanCode
  generalize keyboardHandler k t scanCode = r at hcases ⊢
  cases hcases with
  | enter => exact .single (.start (by simp [enterKey]))
  | switch next hnext hs => exact .refl
  | clear => exact columns_clearKey t
  | flags k' => exact .refl
  | backspace hcode hctrl halt =>
    have hempty : ¬ t.visible.bufferCt ≠ 0 := fun hct => h ⟨hcode, hctrl, halt, hct⟩
    show ReflTransGen ColumnMove t.rowLetterCt t.backspaceKey.rowLetterCt
    rw [Console.rowLetterCt_backspaceKey, if_neg hempty]
  | space => exact columns_spaceKey k t
  | tab => exact columns_tabKey k t
  | symbol plain shifted hcode =>
    have hne : plain ≠ 9 ∧ shifted ≠ 9 := by
      revert hcode
      simp only [List.mem_cons, Prod.mk.injEq, List.not_mem_nil, or_false]
      rintro (⟨-, rfl, rfl⟩ | ⟨-, rfl, rfl⟩ | ⟨-, rfl, rfl⟩) <;> decide
    exact columns_symbolKey k t hne.1 hne.2
  | printable => exact columns_printableKey k t scanCode
  | ignored => exact .refl

end Keys

/-! ### `terminal_write` -/

namespace Kernel

variable {s : Kernel}

theorem columns_emit (s : Kernel) (ch : UInt8) :
    ReflTransGen ColumnMove s.console.rowLetterCt (s.emit ch).console.rowLetterCt := by
  unfold emit modifyConsole
  dsimp only
  split_ifs
  · rw [Console.backgroundPutc_eq]
    exact .refl
  · exact Console.columns_putc _ _

/-- The counters that a turn of the loop moves on are others. -/
theorem columns_emit_count (s : Kernel) (ch : UInt8) :
    ReflTransGen ColumnMove s.console.rowLetterCt
      ((s.modifyConsole fun t =>
        { t with bytesWritten := t.bytesWritten + 1, lineCt := t.lineCt + 1 }).emit
          ch).console.rowLetterCt :=
  columns_emit (s.modifyConsole fun t =>
    { t with bytesWritten := t.bytesWritten + 1, lineCt := t.lineCt + 1 }) ch

theorem columns_writeByte (s : Kernel) (ch : UInt8) :
    ReflTransGen ColumnMove s.console.rowLetterCt (s.writeByte ch).console.rowLetterCt := by
  have hcase := s.writeByte_cases ch
  generalize s.turn ch = cs at hcase
  generalize s.writeByte ch = t at hcase ⊢
  cases hcase with
  | nul => exact .refl
  | wrap =>
    have hline := columns_emit s 10
    exact hline.trans (columns_emit_count ((s.emit 10).modifyConsole
      fun t => { t with lineCt := 0 }) ch)
  | newline => exact columns_emit_count (s.modifyConsole fun t => { t with lineCt := 0 }) ch
  | plain => exact columns_emit_count s ch

/-- The two prompts that `terminal_write` knows set the counter. -/
theorem columns_writeHead (s : Kernel) (buf : ℕ → UInt8) :
    ReflTransGen ColumnMove s.console.rowLetterCt (s.writeHead buf).console.rowLetterCt := by
  unfold writeHead modifyConsole
  dsimp only
  split_ifs
  all_goals first | exact .refl | exact .single (.start (by simp))

theorem columns_writeTail (s : Kernel) (buf : ℕ → UInt8) :
    ReflTransGen ColumnMove s.console.rowLetterCt (s.writeTail buf).console.rowLetterCt := by
  have hflag : ({ s.console with helloFlag := startsWith buf "Hello, " 8 } : Console).rowLetterCt
      = s.console.rowLetterCt := rfl
  unfold writeTail modifyConsole
  dsimp only
  rw [← hflag]
  generalize ({ s.console with helloFlag := startsWith buf "Hello, " 8 } : Console) = t
  have hexit : ReflTransGen ColumnMove t.rowLetterCt
      (if startsWith buf "exit" 5 = true then t.putc 10 else t).rowLetterCt := by
    split_ifs
    · exact Console.columns_putc t 10
    · exact .refl
  generalize (if startsWith buf "exit" 5 = true then t.putc 10 else t) = u at hexit ⊢
  split_ifs
  · exact hexit.trans (Console.columns_putc u 10)
  · exact hexit

end Kernel

/-! ### Runs -/

/-- A key, a switch or a piece of a `terminal_write`, or one of the two writes to the keyboard
buffers with which a `terminal_read` ends. -/
inductive TypingEvent
  | desk (e : DeskEvent)
  | clearBuffer
  | readDone (pid : ℤ)

/-- One event. -/
inductive TypingStep : Desk → TypingEvent → Desk → Prop
  | desk {s t : Desk} {e : DeskEvent} (h : DeskStep s e t) : TypingStep s (.desk e) t
  | clearBuffer (s : Desk) : TypingStep s .clearBuffer
      { s with kernel := s.kernel.modifyConsole Console.clearBuffer }
  | readDone (s : Desk) (pid : ℤ) : TypingStep s (.readDone pid)
      { s with kernel := (s.kernel.resetEnterRead (s.kernel.waitTerminal pid)).enableIrq 0 }

/-- The end of a `terminal_read` that found its line. -/
theorem run_terminalReadTail (s : Desk) (pid : ℤ) {fd n : ℤ} (hn : 0 ≤ n) (hfd : fd ≤ 1)
    (buf : ℕ → UInt8) : Run TypingStep s [.clearBuffer, .readDone pid]
      { s with kernel := (s.kernel.terminalReadTail pid fd buf n).kernel } := by
  rw [s.kernel.terminalReadTail_of_good pid buf hn hfd]
  exact .cons (.clearBuffer s) (.cons (.readDone _ pid) (.nil _))

theorem run_desk {s t : Desk} {es : List DeskEvent} (hr : Run DeskStep s es t) :
    Run TypingStep s (es.map .desk) t := by
  induction hr with
  | nil => exact .nil _
  | cons h _ ih => exact .cons (.desk h) ih

namespace Desk

variable (s : Desk)

/-- `row_letter_ct` -/
def column : UInt8 := s.kernel.console.rowLetterCt

/-- The event is a backspace that takes a character out of the keyboard buffer. -/
def Uncounts : TypingEvent → Prop
  | .desk (.key scanCode) => Erases s.keys s.kernel.console scanCode
  | _ => False

/-- It finds a column to take off. -/
def HasColumn (e : TypingEvent) : Prop := s.Uncounts e → s.column ≠ 0

/-- The event leaves `row_letter_ct` in `0..80`, and takes one off it only if there is one. -/
structure CountsColumns (e : TypingEvent) (t : Desk) : Prop where
  range : t.column ≤ 80
  back : s.Uncounts e → t.column.toNat + 1 = s.column.toNat

end Desk

section Runs

variable {s t : Desk} {e : TypingEvent} {es : List TypingEvent}

/-- **An event** counts columns, unless it is a backspace, which takes one off. -/
theorem column_step (h : TypingStep s e t) :
    (s.Uncounts e ∧ t.column = s.column - 1) ∨
      (¬ s.Uncounts e ∧ ReflTransGen ColumnMove s.column t.column) := by
  cases h with
  | @desk _ e h =>
    obtain ⟨-, rfl⟩ := h
    cases e with
    | key scanCode =>
      rcases Classical.em (Erases s.keys s.kernel.console scanCode) with herases | hnot
      · exact Or.inl ⟨herases, rowLetterCt_of_erases herases⟩
      · exact Or.inr ⟨hnot, columns_keyboardHandler hnot⟩
    | switchTerminals next => exact Or.inr ⟨id, .refl⟩
    | writeHead buf =>
      exact Or.inr ⟨id, Kernel.columns_writeHead (s.kernel.modifyConsole
        fun c => { c with bytesWritten := 0, lineCt := 0 }) buf⟩
    | writeByte idx ch =>
      exact Or.inr ⟨id, Kernel.columns_writeByte { s.kernel with scheduleIdx := idx } ch⟩
    | writeTail idx buf =>
      exact Or.inr ⟨id, Kernel.columns_writeTail { s.kernel with scheduleIdx := idx } buf⟩
  | clearBuffer => exact Or.inr ⟨id, .refl⟩
  | readDone pid => exact Or.inr ⟨id, .refl⟩

/-- **From a counter in its range,** an event counts as it should exactly if it is no backspace
at column zero. -/
theorem countsColumns_iff (h : TypingStep s e t) (hs : s.column ≤ 80) :
    s.CountsColumns e t ↔ s.HasColumn e := by
  rcases column_step h with ⟨hback, hsub⟩ | ⟨hnot, hmove⟩
  · have hrange := sub_one_le_iff hs
    rw [← hsub] at hrange
    constructor
    · exact fun hcounts _ => hrange.1 hcounts.range
    · intro hhas
      have hne := hhas hback
      refine ⟨hrange.2 hne, fun _ => ?_⟩
      rw [hsub]
      exact toNat_sub_one_add_one hne
  · exact iff_of_true ⟨columns_le hmove hs, fun h => absurd h hnot⟩ fun h => absurd h hnot

/-- **The counter in a run** that starts with `row_letter_ct` as it is initialized and in which
every backspace that erases finds a column to take off: after every step it is in `0..80`, and
the next step keeps it there, and takes one off only where there is one, exactly if it is no
backspace that erases at column zero. -/
theorem rowCounter_of_run (hboot : s.column = headerLen)
    (hr : Run (Guarded Desk.HasColumn TypingStep) s es t) :
    t.column ≤ 80 ∧ ∀ e u, TypingStep t e u → (t.CountsColumns e u ↔ t.HasColumn e) := by
  have hrange : t.column ≤ 80 := by
    refine hr.invariant (I := fun u : Desk => u.column ≤ 80) ?_ ?_
    · intro s e t hs hstep
      exact ((countsColumns_iff hstep.2 hs).2 hstep.1).range
    · rw [hboot]
      simp [headerLen]
  exact ⟨hrange, fun e u h => countsColumns_iff h hrange⟩

end Runs

/-- The screen is cleared and `row_letter_ct` is `HEADER_LEN`. -/
def bootedDesk : Desk :=
  { clearedDesk with
    kernel := clearedDesk.kernel.modifyConsole fun c => { c with rowLetterCt := headerLen } }

/-- A letter, a backspace and Enter, and the end of the read of the empty line. -/
theorem rowCounter_emptyLine : ∃ t,
    Run (Guarded Desk.HasColumn TypingStep) bootedDesk
      [.desk (.key 0x1E), .desk (.key Scan.backspace), .desk (.key Scan.enter), .clearBuffer,
        .readDone 0] t ∧
      t.column ≤ 80 ∧ ∀ e u, TypingStep t e u → (t.CountsColumns e u ↔ t.HasColumn e) := by
  have hr : Run (Guarded Desk.HasColumn TypingStep) bootedDesk
      [.desk (.key 0x1E), .desk (.key Scan.backspace), .desk (.key Scan.enter), .clearBuffer,
        .readDone 0] _ :=
    .cons ⟨fun h => absurd h.1 (by decide), .desk ⟨trivial, rfl⟩⟩ <|
    .cons ⟨fun _ => by decide +kernel, .desk ⟨trivial, rfl⟩⟩ <|
    .cons ⟨fun h => absurd h.1 (by decide), .desk ⟨trivial, rfl⟩⟩ <|
    .cons ⟨False.elim, .clearBuffer _⟩ <|
    .cons ⟨False.elim, .readDone _ 0⟩ <| .nil _
  exact ⟨_, hr, rowCounter_of_run rfl hr⟩

/-- 74 letters and two backspaces: the 74th letter begins a new row. -/
def wrappedLine : List DeskEvent :=
  (List.replicate 74 0x1E ++ List.replicate 2 Scan.backspace).map .key

/-- The second backspace takes one off zero. -/
theorem not_rowCounter_wrappedLine :
    bootedDesk.column = headerLen ∧
      Run TypingStep bootedDesk (wrappedLine.map .desk) (wrappedLine.foldl Desk.next bootedDesk) ∧
      (wrappedLine.foldl Desk.next bootedDesk).column = 255 := by
  refine ⟨rfl, run_desk (run_next _ ?_), ?_⟩
  · unfold wrappedLine
    intro e he
    obtain ⟨_, -, rfl⟩ := List.mem_map.mp he
    trivial
  · decide +kernel

end OS391
