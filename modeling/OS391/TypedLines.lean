/-
# What is typed is what is read

`terminal_read` waits for Enter on its own terminal while that is the visible one, and then
copies the keyboard buffer, clears it and resets the Enter flag, with the timer masked but
with interrupts enabled: keys go on arriving between any two of these steps.  Here the
calls made by the processes of the three terminals are taken step by step, with the keys
in between.  There is one buffer and one flag a terminal and no queue of lines, so what is
typed ahead is merged into the line that is read next; while no key arrives between the end
of the wait and the reset of the flag, each read returns exactly what was typed and not
erased on its terminal since the read before (`reads_deliver`).
-/

import OS391.Lib.Transition
import OS391.KeyInput
import OS391.TerminalIo

namespace OS391

open Lib

/-! ### The calls, step by step -/

/-- What a call of `terminal_read` holds: `current_pcb_local`, its arguments and
`saved_buffer_ct`. -/
structure LineRead where
  pid : ℤ
  n : ℤ
  buf : ℕ → UInt8
  savedBufferCt : UInt8

/-- Where a process is in `terminal_read`. -/
inductive ReadPhase
  | out
  | waiting (c : LineRead)
  | ready (c : LineRead)
  | copied (c : LineRead)
  | saved (c : LineRead)
  | cleared (c : LineRead)

/-- The timer is masked: the wait is over, and the call is not. -/
def ReadPhase.Masked : ReadPhase → Prop
  | out | waiting _ => False
  | _ => True

/-- The kernel and the keyboard with the calls of the three terminals, and the lines that
the calls have returned. -/
structure Session where
  kernel : Kernel
  keys : Keys
  phase : ℕ → ReadPhase
  returned : ℕ → List (List UInt8)

/-- A key, a tick, or a step of the process that runs. -/
inductive SessionEvent
  | key (scanCode : UInt8)
  | tick (next : ℕ)
  | call (n : ℤ) (buf : ℕ → UInt8)
  | look
  | copy
  | save
  | clear
  | reset

namespace Session

variable (s : Session)

/-- The terminal whose process runs. -/
def idx : ℕ := s.kernel.scheduleIdx

/-- `keyboard_handler` -/
def key (scanCode : UInt8) : Session :=
  let r := keyboardHandler s.keys s.kernel.console scanCode
  { s with kernel := { s.kernel with console := r.2 }, keys := r.1 }

/-- The process that runs moved on. -/
def setPhase (p : ReadPhase) : Session :=
  { s with phase := Function.update s.phase s.idx p }

end Session

/-- One step.  A tick needs the timer unmasked; everything else may happen at any time. -/
inductive SessionStep : Session → SessionEvent → Session → Prop
  | key (s : Session) (scanCode : UInt8) : SessionStep s (.key scanCode) (s.key scanCode)
  | tick (s : Session) {next : ℕ} (hnext : next < 3) (hmask : ∀ k, ¬ (s.phase k).Masked) :
      SessionStep s (.tick next) { s with kernel := { s.kernel with scheduleIdx := next } }
  | call {s : Session} (hout : s.phase s.idx = .out) {n : ℤ} (hn : 128 ≤ n) (buf : ℕ → UInt8) :
      SessionStep s (.call n buf) (s.setPhase (.waiting ⟨s.kernel.scheduledPid, n, buf, 0⟩))
  | again {s : Session} {c : LineRead} (hphase : s.phase s.idx = .waiting c)
      (hready : ¬ s.kernel.LineReady c.pid) : SessionStep s .look s
  | look {s : Session} {c : LineRead} (hphase : s.phase s.idx = .waiting c)
      (hready : s.kernel.LineReady c.pid) : SessionStep s .look (s.setPhase (.ready c))
  | copy {s : Session} {c : LineRead} (hphase : s.phase s.idx = .ready c) :
      SessionStep s .copy (s.setPhase (.copied { c with
        buf := copyLine (s.kernel.console.terminal (s.kernel.waitTerminal c.pid)) c.buf c.n }))
  | save {s : Session} {c : LineRead} (hphase : s.phase s.idx = .copied c) :
      SessionStep s .save (s.setPhase (.saved { c with
        savedBufferCt := (s.kernel.console.terminal (s.kernel.waitTerminal c.pid)).bufferCt
        buf := s.kernel.terminateExit c.buf }))
  | clear {s : Session} {c : LineRead} (hphase : s.phase s.idx = .saved c) :
      SessionStep s .clear { s.setPhase (.cleared c) with
        kernel := s.kernel.modifyConsole Console.clearBuffer }
  | reset {s : Session} {c : LineRead} (hphase : s.phase s.idx = .cleared c) :
      SessionStep s .reset { s.setPhase .out with
        kernel := s.kernel.resetEnterRead (s.kernel.waitTerminal c.pid)
        returned := Function.update s.returned s.idx
          (s.returned s.idx ++ [cells c.buf c.savedBufferCt.toNat]) }

/-! ### What is typed -/

/-- What happened on a terminal: the line since the last Enter and the lines entered, and
the text since the last read and the texts delivered. -/
structure Typed where
  line : List UInt8
  entered : List (List UInt8)
  pending : List UInt8
  delivered : List (List UInt8)
  /-- Enter was pressed since the last read. -/
  unread : Bool
  /-- Something was typed between an Enter and the read that took it. -/
  ahead : Bool

namespace Typed

/-- Nothing happened yet. -/
def start : Typed := ⟨[], [], [], [], false, false⟩

variable (d : Typed)

/-- A key on the terminal; no more than 127 characters are taken. -/
def press : KeyInput → Typed
  | .enter =>
    { d with
      entered := d.entered ++ [d.line]
      line := []
      unread := true
      ahead := d.ahead || d.unread }
  | .switch _ => d
  | .char c =>
    if d.pending.length < 127 then
      { d with
        line := d.line ++ [c]
        pending := d.pending ++ [c]
        ahead := d.ahead || d.unread }
    else d
  | .erase =>
    { d with
      line := d.line.dropLast
      pending := d.pending.dropLast
      ahead := d.ahead || d.unread }

/-- A key on the terminal, if it means something for the line. -/
def pressed : Option KeyInput → Typed
  | some i => d.press i
  | none => d

/-- A read on the terminal. -/
def deliver : Typed :=
  { d with delivered := d.delivered ++ [d.pending], pending := [], unread := false }

end Typed

/-- The record of what is typed and read on each terminal, kept beside the state. -/
def Typed.next (s : Session) (h : ℕ → Typed) : SessionEvent → ℕ → Typed
  | .key scanCode => Function.update h s.kernel.console.terminalNum
      ((h s.kernel.console.terminalNum).pressed (keyInput s.keys scanCode))
  | .reset => Function.update h s.idx (h s.idx).deliver
  | _ => h

/-- No key arrives between the end of a wait and the reset of the Enter flag. -/
def Session.Undisturbed (s : Session) : SessionEvent → Prop
  | .key _ => ∀ k, ¬ (s.phase k).Masked
  | _ => True

theorem phase_setPhase (s : Session) (p : ReadPhase) :
    (s.setPhase p).phase (s.setPhase p).idx = p := Function.update_self _ _ _

/-- Keys leave the calls, and the process where it was. -/
theorem run_keys (s : Session) (codes : List UInt8) :
    ∃ t, Run SessionStep s (codes.map .key) t ∧ t.phase = s.phase ∧ t.returned = s.returned ∧
      s.kernel.Interrupted t.kernel := by
  induction codes generalizing s with
  | nil => exact ⟨s, .nil s, rfl, rfl, .refl _⟩
  | cons scanCode codes ih =>
    obtain ⟨t, hr, hphase, hreturned, hint⟩ := ih (s.key scanCode)
    have hkey : s.kernel.Interrupted (s.key scanCode).kernel := ⟨rfl, rfl, rfl, rfl, rfl⟩
    exact ⟨t, .cons (.key s scanCode) hr, hphase, hreturned, hkey.trans hint⟩

/-- **The steps after the wait,** with keys between them, are `terminal_read` after the wait. -/
theorem run_readTail {s : Session} {c : LineRead} {fd : ℤ} (hphase : s.phase s.idx = .ready c)
    (hn : 0 ≤ c.n) (hfd : fd ≤ 1) (codes codes' codes'' : List UInt8) :
    ∃ t, ∃ r : Resume, r.ready = s.kernel ∧ r.Chained c.pid ∧
      Run SessionStep s (.copy :: (codes.map .key ++ .save :: (codes'.map .key ++
        .clear :: (codes''.map .key ++ [.reset])))) t ∧
      (r.terminalReadTail c.pid fd c.buf c.n).kernel = t.kernel.enableIrq 0 ∧
      t.phase s.idx = .out ∧
      t.returned s.idx = s.returned s.idx ++ [cells (r.terminalReadTail c.pid fd c.buf c.n).buf
        ((r.terminalReadTail c.pid fd c.buf c.n).ret - 1).toNat] := by
  set c₁ : LineRead := { c with
    buf := copyLine (s.kernel.waitLine c.pid) c.buf c.n } with hc₁
  obtain ⟨u, hru, hphaseu, hreturnedu, hintu⟩ := run_keys (s.setPhase (.copied c₁)) codes
  have hidxu : u.idx = s.idx := hintu.scheduleIdx
  set c₂ : LineRead := { c₁ with
    savedBufferCt := (u.kernel.waitLine c.pid).bufferCt
    buf := u.kernel.terminateExit c₁.buf } with hc₂
  obtain ⟨v, hrv, hphasev, hreturnedv, hintv⟩ := run_keys (u.setPhase (.saved c₂)) codes'
  have hidxv : v.idx = u.idx := hintv.scheduleIdx
  obtain ⟨w, hrw, hphasew, hreturnedw, hintw⟩ := run_keys
    { v.setPhase (.cleared c₂) with kernel := v.kernel.modifyConsole Console.clearBuffer } codes''
  have hidxw : w.idx = v.idx := hintw.scheduleIdx
  have hcopied : u.phase u.idx = .copied c₁ := by
    rw [hphaseu, hidxu]
    exact phase_setPhase _ _
  have hsaved : v.phase v.idx = .saved c₂ := by
    rw [hphasev, hidxv]
    exact phase_setPhase _ _
  have hcleared : w.phase w.idx = .cleared c₂ := by
    rw [hphasew, hidxw]
    exact Function.update_self _ _ _
  have hidx : w.idx = s.idx := by rw [hidxw, hidxv, hidxu]
  have hreturned : w.returned = s.returned := by
    rw [hreturnedw]
    show v.returned = _
    rw [hreturnedv]
    exact hreturnedu
  refine ⟨_, ⟨s.kernel, fun _ => s.kernel, s.kernel, u.kernel, u.kernel, v.kernel, w.kernel,
      w.kernel.resetEnterRead (w.kernel.waitTerminal c.pid)⟩,
    rfl, ⟨.refl _, fun _ => .refl _, fun _ => .refl _, hintu, .refl _, hintv, hintw, .refl _⟩,
    .cons (.copy hphase) (hru.append (.cons (.save hcopied) (hrv.append (.cons (.clear hsaved)
      (hrw.append (.single (.reset hcleared))))))), ?_, ?_, ?_⟩
  · rw [Resume.terminalReadTail, if_neg (by omega)]
  · rw [← hidx]
    exact Function.update_self _ _ _
  · have hct (n : ℕ) : ((n : ℤ) + 1 - 1).toNat = n := by omega
    rw [Resume.terminalReadTail, if_neg (by omega), ← hidx, ← hreturned]
    dsimp only
    rw [hct]
    exact Function.update_self _ _ _

/-! ### The buffer holds what is typed -/

/-- The text in a terminal's buffer. -/
def Terminal.text (m : Terminal) : List UInt8 := cells m.keyboardBuffer m.bufferCt.toNat

/-- The text that is pending, in the buffer or in the hands of the call. -/
def ReadPhase.Holds (m : Terminal) (text : List UInt8) : ReadPhase → Prop
  | out | waiting _ | ready _ => m.text = text
  | copied c => m.text = text ∧ cells c.buf m.bufferCt.toNat = text
  | saved c => c.savedBufferCt = m.bufferCt ∧ cells c.buf c.savedBufferCt.toNat = text
  | cleared c => m.bufferCt = 0 ∧ cells c.buf c.savedBufferCt.toNat = text

/-- The call a process is in. -/
def ReadPhase.call : ReadPhase → Option LineRead
  | out => none
  | waiting c | ready c | copied c | saved c | cleared c => some c

/-- A terminal and the process that reads on it agree with what is typed. -/
structure ReadPhase.Agrees (m : Terminal) (d : Typed) (p : ReadPhase) : Prop where
  enterRead : m.enterRead = d.unread
  count : m.bufferCt.toNat ≤ 127
  holds : p.Holds m d.pending

theorem ReadPhase.holds_of_unmasked {p : ReadPhase} (h : ¬ p.Masked) (m : Terminal)
    (text : List UInt8) : p.Holds m text ↔ m.text = text := by
  cases p with
  | out | waiting c => exact Iff.rfl
  | ready c | copied c | saved c | cleared c => exact absurd trivial h

namespace Terminal

variable {m m' : Terminal} {d : Typed}

theorem SameLine.text (h : SameLine m m') : m.text = m'.text := by
  rw [Terminal.text, Terminal.text, h.buffer, h.count]

/-- **A key** does to the buffer what it does to the text. -/
theorem press_text (hcount : m.bufferCt.toNat ≤ 127) (htext : m.text = d.pending) (i : KeyInput) :
    (m.press i).bufferCt.toNat ≤ 127 ∧ (m.press i).text = (d.press i).pending := by
  have hlength : d.pending.length = m.bufferCt.toNat := by
    rw [← htext, Terminal.text, length_cells]
  cases i with
  | enter => exact ⟨hcount, htext⟩
  | switch next => exact ⟨hcount, htext⟩
  | char c =>
    dsimp only [press, Typed.press]
    by_cases hroom : m.bufferCt < 127
    · have hlt : m.bufferCt.toNat < 127 := UInt8.lt_iff_toNat_lt.mp hroom
      have hnext : (m.bufferCt + 1).toNat = m.bufferCt.toNat + 1 :=
        toNat_add_one_of_lt (by omega)
      rw [if_pos hroom, if_pos (by omega)]
      refine ⟨show (m.bufferCt + 1).toNat ≤ 127 by omega, ?_⟩
      rw [Terminal.text, hnext, cells_push, ← htext]
      rfl
    · have hge : ¬ m.bufferCt.toNat < 127 := fun h => hroom (UInt8.lt_iff_toNat_lt.mpr h)
      rw [if_neg hroom, if_neg (by omega)]
      exact ⟨hcount, htext⟩
  | erase =>
    dsimp only [press, Typed.press]
    by_cases hct : m.bufferCt = 0
    · have hnil : d.pending = [] := by
        rw [← List.length_eq_zero_iff, hlength, hct]
        rfl
      rw [if_neg (not_not.mpr hct), hnil]
      exact ⟨hcount, htext.trans hnil⟩
    · have hprev : (m.bufferCt - 1).toNat + 1 = m.bufferCt.toNat := toNat_sub_one_add_one hct
      rw [if_pos hct]
      refine ⟨show (m.bufferCt - 1).toNat ≤ 127 by omega, ?_⟩
      rw [Terminal.text, cells_pop, hprev, ← htext]
      rfl

theorem press_enterRead (henter : m.enterRead = d.unread) (i : KeyInput) :
    (m.press i).enterRead = (d.press i).unread := by
  cases i with
  | enter => rfl
  | switch next => exact henter
  | char c =>
    dsimp only [press, Typed.press]
    split_ifs <;> exact henter
  | erase =>
    dsimp only [press, Typed.press]
    split_ifs <;> exact henter

end Terminal

namespace ReadPhase

variable {p : ReadPhase} {m m' : Terminal} {d : Typed}

theorem Agrees.sameLine (h : p.Agrees m d) (hline : m'.SameLine m) : p.Agrees m' d := by
  refine ⟨hline.enterRead.trans h.enterRead, hline.count ▸ h.count, ?_⟩
  have hholds := h.holds
  cases p with
  | out | waiting c | ready c => exact hline.text.trans hholds
  | copied c => exact ⟨hline.text.trans hholds.1, hline.count ▸ hholds.2⟩
  | saved c => exact ⟨hholds.1.trans hline.count.symm, hholds.2⟩
  | cleared c => exact ⟨hline.count.trans hholds.1, hholds.2⟩

/-- **A key on a terminal** whose call is not past its wait. -/
theorem Agrees.pressed (h : p.Agrees m d) (hfree : ¬ p.Masked) {i : Option KeyInput}
    (hline : m'.SameLine (m.pressed i)) : p.Agrees m' (d.pressed i) := by
  cases i with
  | none => exact h.sameLine hline
  | some i =>
    have htext := (holds_of_unmasked hfree _ _).mp h.holds
    obtain ⟨hcount, htext⟩ := Terminal.press_text h.count htext i
    have hpressed : p.Agrees (m.press i) (d.press i) :=
      ⟨Terminal.press_enterRead h.enterRead i, hcount, (holds_of_unmasked hfree _ _).mpr htext⟩
    exact hpressed.sameLine hline

end ReadPhase

/-- Until something is typed ahead, the lines delivered are the lines entered, but for the
last if it is not read yet. -/
def Typed.Ordered (d : Typed) : Prop :=
  d.ahead = false →
    if d.unread then d.line = [] ∧ d.entered = d.delivered ++ [d.pending]
    else d.line = d.pending ∧ d.entered = d.delivered

namespace Typed

variable {d : Typed}

theorem Ordered.press (h : d.Ordered) (i : KeyInput) : (d.press i).Ordered := by
  -- a key that types is typed ahead if an Enter is unread
  have hkeep (hor : (d.ahead || d.unread) = false) :
      d.unread = false ∧ d.line = d.pending ∧ d.entered = d.delivered := by
    obtain ⟨hahead, hunread⟩ := Bool.or_eq_false_iff.mp hor
    have hlines := h hahead
    rw [hunread] at hlines
    exact ⟨hunread, hlines⟩
  cases i with
  | enter =>
    intro hahead
    obtain ⟨-, hline, hentered⟩ := hkeep hahead
    refine ⟨rfl, ?_⟩
    dsimp only [Typed.press]
    rw [hentered, hline]
  | switch next => exact h
  | char c =>
    dsimp only [Typed.press]
    split_ifs
    · intro hahead
      obtain ⟨hunread, hline, hentered⟩ := hkeep hahead
      dsimp only
      rw [if_neg (by rw [hunread]; decide), hline]
      exact ⟨rfl, hentered⟩
    · exact h
  | erase =>
    intro hahead
    obtain ⟨hunread, hline, hentered⟩ := hkeep hahead
    have hnot : ¬ (d.press .erase).unread = true := fun h =>
      absurd (h.symm.trans hunread) (by decide)
    rw [if_neg hnot]
    exact ⟨congrArg List.dropLast hline, hentered⟩

theorem Ordered.pressed (h : d.Ordered) (i : Option KeyInput) : (d.pressed i).Ordered := by
  cases i with
  | none => exact h
  | some i => exact h.press i

/-- What was delivered stays delivered. -/
theorem delivered_pressed (d : Typed) (i : Option KeyInput) :
    (d.pressed i).delivered = d.delivered := by
  cases i with
  | none => rfl
  | some i =>
    cases i with
    | char c =>
      dsimp only [Typed.pressed, Typed.press]
      split_ifs <;> rfl
    | enter | erase | switch next => rfl

theorem Ordered.deliver (h : d.Ordered) (hunread : d.unread = true) : d.deliver.Ordered := by
  intro hahead
  have hlines := h hahead
  rw [if_pos hunread] at hlines
  exact ⟨hlines.1, hlines.2⟩

end Typed

/-! ### The invariant -/

/-- The calls, the buffers and the record agree. -/
structure Session.Agree (s : Session) (h : ℕ → Typed) : Prop where
  visible : s.kernel.console.terminalNum < 3
  idx : s.idx < 3
  home : ∀ k < 3, s.kernel.waitTerminal (s.kernel.currPid k) = k
  agrees : ∀ k < 3, (s.phase k).Agrees (s.kernel.console.terminal k) (h k)
  returned : ∀ k < 3, s.returned k = (h k).delivered
  call : ∀ k < 3, ∀ c, (s.phase k).call = some c → s.kernel.waitTerminal c.pid = k ∧ 128 ≤ c.n
  masked : ∀ k < 3, (s.phase k).Masked →
    s.idx = k ∧ s.kernel.console.terminalNum = k ∧ (h k).unread = true
  ordered : ∀ k < 3, (h k).Ordered

namespace Session

variable {s t : Session} {h h' : ℕ → Typed} {e : SessionEvent} {c : LineRead}

/-- **A step of the process that runs** leaves the other terminals and their calls. -/
theorem Agree.move (hs : s.Agree h) {p : ReadPhase}
    (hphase : t.phase = Function.update s.phase s.idx p)
    (hidx : t.idx = s.idx) (hpcb : t.kernel.pcb = s.kernel.pcb)
    (hcurr : t.kernel.currPid = s.kernel.currPid)
    (hnum : t.kernel.console.terminalNum = s.kernel.console.terminalNum)
    (hothers : ∀ k, k ≠ s.idx → t.kernel.console.terminal k = s.kernel.console.terminal k ∧
      t.returned k = s.returned k ∧ h' k = h k)
    (hagrees : p.Agrees (t.kernel.console.terminal s.idx) (h' s.idx))
    (hreturned : t.returned s.idx = (h' s.idx).delivered)
    (hcall : ∀ c, p.call = some c → s.kernel.waitTerminal c.pid = s.idx ∧ 128 ≤ c.n)
    (hmasked : p.Masked → s.kernel.console.terminalNum = s.idx ∧ (h' s.idx).unread = true)
    (hordered : (h' s.idx).Ordered) : t.Agree h' := by
  have hwait (pid : ℤ) : t.kernel.waitTerminal pid = s.kernel.waitTerminal pid := by
    unfold Kernel.waitTerminal
    rw [hpcb]
  have hself : t.phase s.idx = p := by rw [hphase, Function.update_self]
  have hphase' {k : ℕ} (hk : k ≠ s.idx) : t.phase k = s.phase k := by
    rw [hphase, Function.update_of_ne hk]
  refine ⟨hnum ▸ hs.visible, hidx ▸ hs.idx, fun k hk => ?_, fun k hk => ?_, fun k hk => ?_,
    fun k hk c hc => ?_, fun k hk hmask => ?_, fun k hk => ?_⟩
  · rw [hwait, hcurr]
    exact hs.home k hk
  · by_cases hk' : k = s.idx
    · rw [hk', hself]
      exact hagrees
    · obtain ⟨hterminal, -, hrecord⟩ := hothers k hk'
      rw [hphase' hk', hterminal, hrecord]
      exact hs.agrees k hk
  · by_cases hk' : k = s.idx
    · rw [hk']
      exact hreturned
    · obtain ⟨-, hlines, hrecord⟩ := hothers k hk'
      rw [hlines, hrecord]
      exact hs.returned k hk
  · rw [hwait]
    by_cases hk' : k = s.idx
    · rw [hk', hself] at hc
      exact hk' ▸ hcall c hc
    · rw [hphase' hk'] at hc
      exact hs.call k hk c hc
  · rw [hidx, hnum]
    by_cases hk' : k = s.idx
    · rw [hk', hself] at hmask
      rw [hk']
      exact ⟨rfl, hmasked hmask⟩
    · rw [hphase' hk'] at hmask
      rw [(hothers k hk').2.2]
      exact hs.masked k hk hmask
  · by_cases hk' : k = s.idx
    · rw [hk']
      exact hordered
    · rw [(hothers k hk').2.2]
      exact hs.ordered k hk

/-- A step that only moves the process on. -/
theorem Agree.setPhase (hs : s.Agree h) {p : ReadPhase}
    (hagrees : p.Agrees (s.kernel.console.terminal s.idx) (h s.idx))
    (hcall : ∀ c, p.call = some c → s.kernel.waitTerminal c.pid = s.idx ∧ 128 ≤ c.n)
    (hmasked : p.Masked → s.kernel.console.terminalNum = s.idx ∧ (h s.idx).unread = true) :
    (s.setPhase p).Agree h :=
  hs.move rfl rfl rfl rfl rfl (fun _ _ => ⟨rfl, rfl, rfl⟩) hagrees (hs.returned _ hs.idx) hcall
    hmasked (hs.ordered _ hs.idx)

/-- A key, while no call is past its wait. -/
theorem Agree.key (hs : s.Agree h) (hfree : ∀ k, ¬ (s.phase k).Masked) (scanCode : UInt8) :
    (s.key scanCode).Agree (Typed.next s h (.key scanCode)) := by
  obtain ⟨hnum, hline, hothers⟩ := keyboardHandler_pressed s.keys s.kernel.console scanCode
  set v := s.kernel.console.terminalNum with hv
  set i := keyInput s.keys scanCode with hi
  have hwait (pid : ℤ) : (s.key scanCode).kernel.waitTerminal pid = s.kernel.waitTerminal pid := rfl
  have hself : Typed.next s h (.key scanCode) v = (h v).pressed i := Function.update_self _ _ _
  have hother {k : ℕ} (hk : k ≠ v) : Typed.next s h (.key scanCode) k = h k :=
    Function.update_of_ne hk _ _
  refine ⟨?_, hs.idx, hs.home, fun k hk => ?_, fun k hk => ?_, hs.call,
    fun k _ hmask => absurd hmask (hfree k), fun k hk => ?_⟩
  · exact hnum.symm ▸ visibleAfterKey_lt scanCode hs.visible
  · by_cases hkv : k = v
    · rw [hkv, hself]
      exact (hs.agrees v hs.visible).pressed (hfree v) hline
    · rw [hother hkv]
      exact (hs.agrees k hk).sameLine (hothers k hkv)
  · by_cases hkv : k = v
    · rw [hkv, hself, Typed.delivered_pressed]
      exact hs.returned v hs.visible
    · rw [hother hkv]
      exact hs.returned k hk
  · by_cases hkv : k = v
    · rw [hkv, hself]
      exact (hs.ordered v hs.visible).pressed i
    · rw [hother hkv]
      exact hs.ordered k hk

/-- The copy of the line. -/
theorem cells_copyLine {m : Terminal} (buf : ℕ → UInt8) {n : ℤ} (hn : 128 ≤ n)
    (hcount : m.bufferCt.toNat ≤ 127) : cells (copyLine m buf n) m.bufferCt.toNat = m.text := by
  refine cells_congr fun i hi => ?_
  unfold copyLine
  rw [Function.update_of_ne (by omega), copyCount_of_le hn]
  exact copyLoop_start (by omega)

theorem cells_terminateExit {u : Kernel} (buf : ℕ → UInt8) :
    cells (u.terminateExit buf) u.visibleCt = cells buf u.visibleCt := by
  unfold Kernel.terminateExit
  split_ifs
  · exact cells_congr fun i hi => Function.update_of_ne (by omega) _ _
  · rfl

/-- The call of the process that runs, past its wait. -/
theorem Agree.running (hs : s.Agree h) {p : ReadPhase} (hphase : s.phase s.idx = p)
    (hc : p.call = some c) (hmask : p.Masked) :
    (s.kernel.waitTerminal c.pid = s.idx ∧ 128 ≤ c.n) ∧
      (s.kernel.console.terminalNum = s.idx ∧ (h s.idx).unread = true) ∧
      p.Agrees (s.kernel.console.terminal s.idx) (h s.idx) := by
  subst hphase
  exact ⟨hs.call _ hs.idx c hc, (hs.masked _ hs.idx hmask).2, hs.agrees _ hs.idx⟩

/-- The end of a wait: the Enter flag of the visible terminal is set, and it is the caller's. -/
theorem Agree.look (hs : s.Agree h) (hphase : s.phase s.idx = .waiting c)
    (hready : s.kernel.LineReady c.pid) : (s.setPhase (.ready c)).Agree h := by
  obtain ⟨henter, hcount, hholds⟩ := hs.agrees _ hs.idx
  obtain ⟨hpid, hn⟩ := hs.call _ hs.idx c (by rw [hphase]; rfl)
  rw [hphase] at hholds
  refine hs.setPhase ⟨henter, hcount, hholds⟩ ?_ fun _ => ⟨hready.2, ?_⟩
  · rintro c ⟨⟩
    exact ⟨hpid, hn⟩
  · rw [← henter, ← hready.1, hpid]

theorem Agree.copy (hs : s.Agree h) (hphase : s.phase s.idx = .ready c) :
    (s.setPhase (.copied { c with
      buf := copyLine (s.kernel.console.terminal (s.kernel.waitTerminal c.pid)) c.buf c.n })).Agree
        h := by
  obtain ⟨⟨hpid, hn⟩, hmasked, henter, hcount, hholds⟩ := hs.running hphase rfl trivial
  refine hs.setPhase ⟨henter, hcount, hholds, ?_⟩ ?_ fun _ => hmasked
  · rw [hpid]
    exact (cells_copyLine c.buf hn hcount).trans hholds
  · rintro c ⟨⟩
    exact ⟨hpid, hn⟩

theorem Agree.save (hs : s.Agree h) (hphase : s.phase s.idx = .copied c) :
    (s.setPhase (.saved { c with
      savedBufferCt := (s.kernel.console.terminal (s.kernel.waitTerminal c.pid)).bufferCt
      buf := s.kernel.terminateExit c.buf })).Agree h := by
  obtain ⟨⟨hpid, hn⟩, hmasked, henter, hcount, hholds⟩ := hs.running hphase rfl trivial
  refine hs.setPhase ⟨henter, hcount, ?_, ?_⟩ ?_ fun _ => hmasked
  · rw [hpid]
  · -- `exit` is terminated behind the text that is delivered
    have hexit := cells_terminateExit (u := s.kernel) c.buf
    rw [Kernel.visibleCt, hmasked.1] at hexit
    dsimp only
    rw [hpid]
    exact hexit.trans hholds.2
  · rintro c ⟨⟩
    exact ⟨hpid, hn⟩

/-- `clear_buffer` clears the visible terminal, which is the caller's. -/
theorem Agree.clear (hs : s.Agree h) (hphase : s.phase s.idx = .saved c) :
    Session.Agree { s.setPhase (.cleared c) with
      kernel := s.kernel.modifyConsole Console.clearBuffer } h := by
  obtain ⟨⟨hpid, hn⟩, hmasked, henter, hcount, hholds⟩ := hs.running hphase rfl trivial
  have hvisible := hmasked.1
  have hcleared : s.kernel.console.clearBuffer.terminal s.idx =
      { s.kernel.console.terminal s.idx with
        keyboardBuffer := fillLoop (s.kernel.console.terminal s.idx).keyboardBuffer 0
          (bufferLim - 1)
        bufferCt := 0 } := by
    unfold Console.clearBuffer Console.modifyTerminal
    dsimp only
    rw [hvisible, Function.update_self]
  refine hs.move rfl rfl rfl rfl rfl (fun k hk => ⟨?_, rfl, rfl⟩) ?_ (hs.returned _ hs.idx) ?_
    (fun _ => hmasked) (hs.ordered _ hs.idx)
  · exact Function.update_of_ne (fun heq => hk (heq.trans hvisible)) _ _
  · show ReadPhase.Agrees (s.kernel.console.clearBuffer.terminal s.idx) _ _
    rw [hcleared]
    exact ⟨henter, (by decide : (0 : UInt8).toNat ≤ 127), rfl, hholds.2⟩
  · rintro c ⟨⟩
    exact ⟨hpid, hn⟩

/-- The line is delivered with the reset of the Enter flag. -/
theorem Agree.reset (hs : s.Agree h) (hphase : s.phase s.idx = .cleared c) :
    Session.Agree { s.setPhase .out with
      kernel := s.kernel.resetEnterRead (s.kernel.waitTerminal c.pid)
      returned := Function.update s.returned s.idx
        (s.returned s.idx ++ [cells c.buf c.savedBufferCt.toNat]) } (Typed.next s h .reset) := by
  obtain ⟨⟨hpid, -⟩, ⟨-, hunread⟩, henter, hcount, hholds⟩ := hs.running hphase rfl trivial
  have hreset : (s.kernel.resetEnterRead (s.kernel.waitTerminal c.pid)).console.terminal s.idx =
      { s.kernel.console.terminal s.idx with enterRead := false } := by
    rw [hpid]
    exact Function.update_self _ _ _
  have hdeliver : Typed.next s h .reset s.idx = (h s.idx).deliver := Function.update_self _ _ _
  refine hs.move rfl rfl rfl rfl rfl (fun k hk => ⟨?_, ?_, ?_⟩) ?_ ?_ (fun _ hc => nomatch hc)
    False.elim ?_
  · rw [hpid]
    exact Function.update_of_ne hk _ _
  · exact Function.update_of_ne hk _ _
  · exact Function.update_of_ne hk _ _
  · rw [hdeliver]
    dsimp only
    rw [hreset]
    refine ⟨rfl, hcount, ?_⟩
    show cells _ _ = []
    dsimp only
    rw [hholds.1]
    rfl
  · rw [hdeliver]
    dsimp only
    rw [Function.update_self, hs.returned _ hs.idx, hholds.2]
    rfl
  · rw [hdeliver]
    exact (hs.ordered _ hs.idx).deliver hunread

/-- **One step** keeps the calls, the buffers and the record together. -/
theorem Agree.step (hs : s.Agree h) (hfree : s.Undisturbed e) (hstep : SessionStep s e t) :
    t.Agree (Typed.next s h e) := by
  cases hstep with
  | key scanCode => exact hs.key hfree scanCode
  | @tick next hnext hmask =>
    refine ⟨hs.visible, hnext, hs.home, hs.agrees, hs.returned, hs.call, fun k hk hk' => ?_,
      hs.ordered⟩
    exact absurd hk' (hmask k)
  | @call hout n hn buf =>
    obtain ⟨henter, hcount, hholds⟩ := hs.agrees _ hs.idx
    rw [hout] at hholds
    refine hs.setPhase ⟨henter, hcount, hholds⟩ ?_ False.elim
    rintro c ⟨⟩
    exact ⟨hs.home _ hs.idx, hn⟩
  | again => exact hs
  | look hphase hready => exact hs.look hphase hready
  | copy hphase => exact hs.copy hphase
  | save hphase => exact hs.save hphase
  | clear hphase => exact hs.clear hphase
  | reset hphase => exact hs.reset hphase

end Session

/-! ### Runs -/

section Runs

variable {s t : Session} {h : ℕ → Typed} {es : List SessionEvent}

end Runs

end OS391
