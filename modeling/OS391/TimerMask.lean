/-
# The timer after a call of `read`

`read` masks the timer for descriptor 0, and `terminal_read` masks it for every descriptor
it is called for; only the last statements of `terminal_read` unmask it.  On every other way
out of a call for descriptor 0, and when `terminal_read` refuses its descriptor, the timer
stays masked: no tick comes any more, and the other terminals stand still.

`timer_unmasked_iff` says which calls these are.
-/

import OS391.Context
import OS391.Preemption
import OS391.ReadCall

namespace OS391

open Lib

namespace Kernel

/-- The timer is masked: bit 0 of `master_mask`. -/
def timerMasked (s : Kernel) : Bool := s.masterMask.getLsbD 0

variable {fs : FileSys} {s t : Kernel} {fd n : ℤ} {buf : ℕ → UInt8} {nonNull : Bool}
  {r : ReadResult}

/-! ### Masking and unmasking -/

@[simp] theorem timerMasked_disableIrq (s : Kernel) : (s.disableIrq 0).timerMasked = true := by
  simp [timerMasked, disableIrq, cli, sti]

@[simp] theorem timerMasked_enableIrq (s : Kernel) : (s.enableIrq 0).timerMasked = false := by
  simp [timerMasked, enableIrq]

@[simp] theorem timerMasked_cli (s : Kernel) : s.cli.timerMasked = s.timerMasked := rfl

@[simp] theorem timerMasked_sti (s : Kernel) : s.sti.timerMasked = s.timerMasked := rfl

/-- The start of a call leaves the timer masked for descriptor 0. -/
theorem timerMasked_readHead (s : Kernel) (fd : ℤ) :
    (s.readHead fd).timerMasked = decide (fd = 0) := by
  simp only [readHead, timerMasked_cli]
  by_cases h : fd = 0
  · rw [if_neg (not_not_intro h), timerMasked_disableIrq, decide_eq_true h]
  · rw [if_pos h, timerMasked_enableIrq, decide_eq_false h]

/-- The wait for Enter ends with the timer masked. -/
theorem WaitLine.timerMasked {pid : ℤ} (h : WaitLine pid s t) : t.timerMasked = true := by
  induction h with
  | ready h _ => exact h.timer.trans (timerMasked_disableIrq _)
  | again _ _ _ _ ih => exact ih

/-- The wait for the RTC leaves it as it was. -/
theorem WaitRtc.timerMasked (h : WaitRtc s t) : t.timerMasked = s.timerMasked := by
  induction h with
  | ready _ => rfl
  | again _ h' _ ih => exact ih.trans h'.timer

/-! ### The handlers -/

/-- No handler but `terminal_read` touches the masks. -/
theorem timerMasked_readHandler {resume : Resume} {fop : FopTable} (h : fop ≠ .stdin) (pid : ℤ) :
    (resume.readHandler fs fop pid fd buf n).kernel.timerMasked = resume.ready.timerMasked := by
  cases fop with
  | stdin => exact absurd rfl h
  | stdout => rfl
  | rtc => rfl
  | directory =>
    simp only [Resume.readHandler, directoryRead]
    split_ifs
    · rfl
    · rfl
    · rfl
    · split <;> rfl
  | file =>
    simp only [Resume.readHandler, fileRead]
    split_ifs <;> rfl

/-- `terminal_read` unmasks the timer unless it refuses its arguments. -/
theorem timerMasked_terminalReadTail (resume : Resume) (pid : ℤ) :
    (resume.terminalReadTail pid fd buf n).kernel.timerMasked
      = if n < 0 ∨ fd > 1 then resume.ready.timerMasked else false := by
  simp only [Resume.terminalReadTail]
  by_cases hrefused : n < 0 ∨ fd > 1
  · rw [if_pos hrefused, if_pos hrefused]
  · rw [if_neg hrefused, if_neg hrefused]
    exact timerMasked_enableIrq _

/-! ### The call -/

/-- A call for descriptor 0 that reaches `terminal_read`, or a call for another one that
does not, or for descriptor 1. -/
def TimerKept (s : Kernel) (fd : ℤ) (nonNull : Bool) (n : ℤ) : Prop :=
  if fd = 0 then ¬ s.BadInput fd nonNull n ∧ (s.scheduledDescriptor fd).fop = .stdin
  else s.BadInput fd nonNull n ∨ (s.scheduledDescriptor fd).fop ≠ .stdin ∨ fd ≤ 1

instance (s : Kernel) (fd : ℤ) (nonNull : Bool) (n : ℤ) : Decidable (s.TimerKept fd nonNull n) :=
  inferInstanceAs (Decidable (ite _ _ _))

/-- After its handler a call that was not refused has the timer masked when `terminal_read`
refused the descriptor, or another handler served descriptor 0. -/
theorem timerMasked_handled {resume : Resume} (hn : 0 ≤ n)
    (hwait : (s.readHead fd).Waits fd resume) :
    (handled fs s fd buf n resume).kernel.timerMasked
      = if (s.scheduledDescriptor fd).fop = .stdin then decide (1 < fd) else decide (fd = 0) := by
  rw [handled]
  by_cases hfop : (s.scheduledDescriptor fd).fop = .stdin
  · have hmasked : resume.ready.timerMasked = true := by
      obtain ⟨⟨s', -, hline⟩, -⟩ := hwait.stdin (by rw [readHead_scheduledDescriptor, hfop])
      exact hline.timerMasked
    rw [hfop, Resume.readHandler, timerMasked_terminalReadTail, hmasked, if_pos rfl]
    by_cases hfd : 1 < fd
    · rw [if_pos (Or.inr hfd), decide_eq_true hfd]
    · rw [if_neg (by omega), decide_eq_false hfd]
  · have hkept : resume.ready.timerMasked = (s.readHead fd).timerMasked := by
      unfold Waits at hwait
      rw [readHead_scheduledDescriptor] at hwait
      split at hwait
      · exact absurd ‹_› hfop
      · exact hwait.timerMasked
      · rw [hwait]
    rw [timerMasked_readHandler hfop, hkept, timerMasked_readHead, if_neg hfop]

/-- **When `read` returns the timer is unmasked exactly when** the call was for descriptor 0
and was served by `terminal_read`, or for another one and was not refused by it. -/
theorem timer_unmasked_iff (h : s.ReadReturns fs fd nonNull buf n r) :
    r.kernel.timerMasked = false ↔ s.TimerKept fd nonNull n := by
  obtain ⟨resume, hwait, rfl⟩ := h
  unfold TimerKept
  by_cases hbad : s.BadInput fd nonNull n
  · rw [read_of_bad hbad, timerMasked_sti, timerMasked_readHead, decide_eq_false_iff_not]
    split_ifs with hfd
    · exact ⟨fun h => absurd hfd h, fun h => absurd hbad h.1⟩
    · exact ⟨fun _ => Or.inl hbad, fun _ => hfd⟩
  · have hwait := hwait fun h => hbad ((badInput_readHead s fd nonNull n).1 h)
    have hn : 0 ≤ n := by
      by_contra hneg
      exact hbad (Or.inr (Or.inr (Or.inr (Or.inl (Int.not_le.1 hneg)))))
    rw [read_of_good hbad, timerMasked_sti, timerMasked_handled hn hwait]
    by_cases hfop : (s.scheduledDescriptor fd).fop = .stdin
    · rw [if_pos hfop, decide_eq_false_iff_not]
      split_ifs with hfd
      · exact ⟨fun _ => ⟨hbad, hfop⟩, fun _ => by omega⟩
      · constructor
        · intro hle
          exact Or.inr (Or.inr (Int.not_lt.1 hle))
        · rintro (h | h | h)
          · exact absurd h hbad
          · exact absurd hfop h
          · exact Int.not_lt.2 h
    · rw [if_neg hfop, decide_eq_false_iff_not]
      split_ifs with hfd
      · exact ⟨fun h => absurd hfd h, fun h => absurd h.2 hfop⟩
      · exact ⟨fun _ => Or.inr (Or.inl hfop), fun _ => hfd⟩

/-- A call that is refused returns at once. -/
theorem readReturns_of_bad (fs : FileSys) (buf : ℕ → UInt8) (h : s.BadInput fd nonNull n) :
    s.ReadReturns fs fd nonNull buf n (s.read fs fd nonNull buf n s) :=
  ⟨s, fun hgood => absurd ((badInput_readHead s fd nonNull n).2 h) hgood, rfl⟩

/-- Enter is pressed, and the other two terminals have a turn. -/
def afterTurn (s : Kernel) : Kernel :=
  let s := { s with console := (keyboardHandler default s.console Scan.enter).2 }
  ((s.tick default 8 16 zeroFrame).tick default 8 16 zeroFrame).tick default 8 16 zeroFrame

theorem interrupted_afterTurn (h : Running s) : s.Interrupted (afterTurn s) := by
  set t : Kernel := { s with console := (keyboardHandler default s.console Scan.enter).2 } with ht
  have hkey : s.Interrupted t := ⟨rfl, rfl, rfl, rfl, rfl⟩
  have hrun : Running t := h
  exact hkey.trans (hrun.interrupted ⟨_, .nil _⟩ ⟨_, .nil _⟩)

/-- The first shell waits for a line: it looks, is preempted while Enter is pressed, and looks
again. -/
def lineKernel : Kernel :=
  (afterTurn ((((bootedKernel.readHead 0).disableIrq 0).disableIrq 0).enableIrq 0)).disableIrq 0

theorem readReturns_lineKernel :
    bootedKernel.ReadReturns default 0 true (fun _ => 0) 128
      (bootedKernel.read default 0 true (fun _ => 0) 128 lineKernel) := by
  have hfop : ((bootedKernel.readHead 0).scheduledDescriptor 0).fop = .stdin := by decide +kernel
  have hrun : Running ((((bootedKernel.readHead 0).disableIrq 0).disableIrq 0).enableIrq 0) :=
    booted_bootedKernel.running
  have hwait : WaitLine 0 ((bootedKernel.readHead 0).disableIrq 0) lineKernel :=
    .again (.refl _) (by decide +kernel) (interrupted_afterTurn hrun)
      (.ready (.refl _) (by decide +kernel))
  refine ⟨lineKernel, fun _ => ?_, rfl⟩
  rw [Waits, hfop]
  exact ⟨⟨_, .refl _, hwait⟩, Resume.chained_still _ _⟩

/-- A read that waits for its line, over a preemption, leaves the timer unmasked. -/
theorem timer_unmasked_waited :
    (bootedKernel.read default 0 true (fun _ => 0) 128 lineKernel).kernel.timerMasked = false :=
  (timer_unmasked_iff readReturns_lineKernel).2 (by decide +kernel)

/-- **A read into a null pointer from descriptor 0** returns `-1` and leaves the timer masked:
in the state after boot, where it is not. -/
theorem timer_masked_null :
    Booted bootedKernel ∧ bootedKernel.timerMasked = false ∧
      ∃ r, bootedKernel.ReadReturns default 0 false (fun _ => 0) 5 r ∧ r.ret = -1 ∧
        r.kernel.timerMasked = true :=
  ⟨booted_bootedKernel, by decide,
    _, readReturns_of_bad default _ (by decide +kernel), by decide +kernel, by decide +kernel⟩

end Kernel

end OS391
