/-
# How often a process waits for the virtual RTC

The chip interrupts 1024 times a second.  `rtc_handler` counts every third interrupt for a
terminal and clears its flag when `1024 / (3 f)` have been counted, for the rate `f` it asked
for.  From any phase of `rtc_idx` the flag has been cleared `(n + e) / 3 / (1024 / (3 f))` times
after `n` interrupts, `e` depending on the phase (`wakeups_eq`), and with every one of the `n`
when the quotient is 0 (`wakeups_eq_self`).

The quotient is cut off, so for no rate but 1024 is the terminal held to `n f / 1024 + 1`: at
512 Hz it is woken with each interrupt, and below, where three times the quotient is short of
`1024 / f`, the lead grows by a little every time (`paced_iff`).
-/

import OS391.Lib.Divider
import OS391.Lib.Tally
import OS391.HaltAtomic
import OS391.RtcRates
import Mathlib.Algebra.Order.Field.Rat
import Mathlib.Tactic.FieldSimp
import Mathlib.Tactic.NormNum

namespace OS391

open Lib

namespace Rtc

theorem countInterrupt_self (r : Rtc) : r.countInterrupt.interruptCount r.rtcIdx
    = (u32 (r.interruptCount r.rtcIdx + 1)).toNat :=
  Function.update_self ..

theorem countInterrupt_of_ne {r : Rtc} {t : ℕ} (h : r.rtcIdx ≠ t) :
    r.countInterrupt.interruptCount t = r.interruptCount t :=
  Function.update_of_ne (Ne.symm h) ..

end Rtc

namespace Kernel

variable {fs : FileSys} {s : Kernel} {k T idx q : ℕ}

/-- Does `rtc_handler`, called in `s`, clear the flag of the scheduled terminal? -/
def clears (s : Kernel) : Bool := s.rtc.countInterrupt.isDue s.scheduleIdx

/-- How many of `n` calls of `rtc_handler` in a row clear the flag of the scheduled terminal. -/
def wakeups (s : Kernel) (n : ℕ) : ℕ := tally n fun i => (rtcHandler^[i] s).clears

theorem rtcHandler_rtc (s : Kernel) : s.rtcHandler.rtc =
    if s.clears then s.rtc.countInterrupt.clearFlag s.scheduleIdx else s.rtc.countInterrupt := rfl

@[simp] theorem rtcHandler_scheduleIdx (s : Kernel) : s.rtcHandler.scheduleIdx = s.scheduleIdx :=
  rfl

/-! ### One interrupt -/

/-- Terminal `k` is scheduled, with `T` interrupts to a wake-up and `q` counted so far, and the
next interrupt is counted for terminal `idx`. -/
structure Counting (s : Kernel) (k T idx q : ℕ) : Prop where
  scheduleIdx : s.scheduleIdx = k
  period : maxFrequency / s.rtc.divisor k = T
  rtcIdx : s.rtc.rtcIdx = idx
  count : s.rtc.interruptCount k = q % T

theorem Counting.period_next (h : s.Counting k T idx q) :
    maxFrequency / s.rtcHandler.rtc.divisor k = T := by
  unfold Rtc.divisor
  rw [rtcHandler_frequency]
  exact h.period

theorem rtcHandler_rtcIdx (s : Kernel) :
    s.rtcHandler.rtc.rtcIdx = if s.rtc.rtcIdx < 2 then s.rtc.rtcIdx + 1 else 0 := by
  rw [rtcHandler_rtc]
  split_ifs <;> simp [Rtc.countInterrupt, Rtc.clearFlag, *]

/-- **An interrupt for another terminal** is not counted. -/
theorem Counting.other (h : s.Counting k T idx q) (hT : 0 < T) (hidx : idx ≠ k) :
    s.clears = false ∧ s.rtcHandler.Counting k T (if idx < 2 then idx + 1 else 0) q := by
  have hcount : s.rtc.countInterrupt.interruptCount k = q % T := by
    rw [Rtc.countInterrupt_of_ne (by rw [h.rtcIdx]; exact hidx), h.count]
  have hclears : s.clears = false := by
    have hlt := Nat.mod_lt q hT
    rw [clears, h.scheduleIdx, Rtc.isDue, hcount, decide_eq_false_iff_not,
      show s.rtc.countInterrupt.divisor k = s.rtc.divisor k from rfl, h.period]
    omega
  refine ⟨hclears, h.scheduleIdx, h.period_next, ?_, ?_⟩
  · rw [rtcHandler_rtcIdx, h.rtcIdx]
  · rw [rtcHandler_rtc, if_neg (by simp [hclears]), hcount]

/-- **An interrupt for the terminal** is counted, and the flag is cleared at every `T`-th. -/
theorem Counting.own (h : s.Counting k T k q) (hT : 0 < T) (hT' : T ≤ 1024) :
    q / T + s.clears.toNat = (q + 1) / T ∧
      s.rtcHandler.Counting k T (if k < 2 then k + 1 else 0) (q + 1) := by
  obtain ⟨hfire, hmove⟩ := div_mod_succ hT q
  have hlt := Nat.mod_lt q hT
  have hcount : s.rtc.countInterrupt.interruptCount k = q % T + 1 := by
    have hself := s.rtc.countInterrupt_self
    rw [h.rtcIdx, h.count, u32_of_bounds (by omega) (by omega)] at hself
    omega
  have hclears : s.clears = decide (T ≤ q % T + 1) := by
    rw [clears, h.scheduleIdx, Rtc.isDue, hcount,
      show s.rtc.countInterrupt.divisor k = s.rtc.divisor k from rfl, h.period]
    exact decide_eq_decide.2 (by omega)
  have hidx : s.rtcHandler.rtc.rtcIdx = if k < 2 then k + 1 else 0 := by
    rw [rtcHandler_rtcIdx, h.rtcIdx]
  rcases Nat.lt_or_ge (q % T + 1) T with hless | hfull
  · obtain ⟨hdiv, hmod⟩ := hmove hless
    have hfalse : s.clears = false := by rw [hclears, decide_eq_false_iff_not]; omega
    refine ⟨by rw [hfalse, hdiv]; rfl, h.scheduleIdx, h.period_next, hidx, ?_⟩
    rw [rtcHandler_rtc, if_neg (by simp [hfalse]), hcount, hmod]
  · obtain ⟨hdiv, hmod⟩ := hfire hfull
    have htrue : s.clears = true := by rw [hclears, decide_eq_true_eq]; exact hfull
    refine ⟨by rw [htrue, hdiv]; rfl, h.scheduleIdx, h.period_next, hidx, ?_⟩
    rw [rtcHandler_rtc, if_pos htrue, h.scheduleIdx, hmod]
    exact Function.update_self ..

/-! ### Many interrupts -/

/-- How far the first interrupt counted for the scheduled terminal is ahead of the third. -/
def lead (s : Kernel) : ℕ := 2 - (s.scheduleIdx + 3 - s.rtc.rtcIdx) % 3

/-- **The wake-ups of `n` interrupts:** of the interrupts one in three is counted, and of those
one in `T` clears the flag. -/
theorem Counting.iterate (hk : s.scheduleIdx < 3) (hidx : s.rtc.rtcIdx < 3)
    (h : s.Counting s.scheduleIdx T s.rtc.rtcIdx 0) (hT : 0 < T) (hT' : T ≤ 1024) (n : ℕ) :
    s.wakeups n = (n + s.lead) / 3 / T ∧
      (rtcHandler^[n] s).Counting s.scheduleIdx T ((s.rtc.rtcIdx + n) % 3) ((n + s.lead) / 3) := by
  set k := s.scheduleIdx with hk'
  set i := s.rtc.rtcIdx with hi'
  have hlead : s.lead = 2 - (k + 3 - i) % 3 := rfl
  induction n with
  | zero =>
    rw [Nat.zero_add, Nat.add_zero, Nat.mod_eq_of_lt hidx, show s.lead / 3 = 0 by omega,
      Nat.zero_div]
    exact ⟨rfl, h⟩
  | succ n ih =>
    obtain ⟨hwakeups, hcounting⟩ := ih
    have hnext : (if (i + n) % 3 < 2 then (i + n) % 3 + 1 else 0) = (i + (n + 1)) % 3 := by
      split_ifs <;> omega
    rw [wakeups, tally_succ, ← wakeups, hwakeups, Function.iterate_succ_apply']
    by_cases hown : (i + n) % 3 = k
    · have hq : (n + 1 + s.lead) / 3 = (n + s.lead) / 3 + 1 := by omega
      rw [hown] at hcounting
      obtain ⟨hclears, hcounting'⟩ := hcounting.own hT hT'
      rw [← hown, hnext, hown] at hcounting'
      rw [hq]
      exact ⟨hclears, hcounting'⟩
    · have hq : (n + 1 + s.lead) / 3 = (n + s.lead) / 3 := by omega
      obtain ⟨hclears, hcounting'⟩ := hcounting.other hT hown
      rw [hnext] at hcounting'
      rw [hq, hclears]
      exact ⟨rfl, hcounting'⟩

/-- With a quotient of 0 every interrupt clears the flag. -/
theorem wakeups_eq_self (h : maxFrequency / s.rtc.divisor s.scheduleIdx = 0) (n : ℕ) :
    s.wakeups n = n := by
  have hiterate (n : ℕ) : (rtcHandler^[n] s).scheduleIdx = s.scheduleIdx ∧
      (rtcHandler^[n] s).rtc.desiredVirtualizedFrequency = s.rtc.desiredVirtualizedFrequency := by
    induction n with
    | zero => exact ⟨rfl, rfl⟩
    | succ n ih =>
      rw [Function.iterate_succ_apply', rtcHandler_frequency]
      exact ih
  have hclears (n : ℕ) : (rtcHandler^[n] s).clears = true := by
    obtain ⟨hidx, hfrequency⟩ := hiterate n
    rw [clears, Rtc.isDue, decide_eq_true_eq]
    have hperiod : maxFrequency / (rtcHandler^[n] s).rtc.countInterrupt.divisor
        (rtcHandler^[n] s).scheduleIdx = 0 := by
      rw [← h, hidx]
      unfold Rtc.divisor
      rw [show (rtcHandler^[n] s).rtc.countInterrupt.desiredVirtualizedFrequency
        = s.rtc.desiredVirtualizedFrequency from hfrequency]
    rw [hperiod]
    exact Int.natCast_nonneg _
  induction n with
  | zero => rfl
  | succ n ih =>
    rw [wakeups, tally_succ, ← wakeups, ih, hclears]
    rfl

/-! ### The rate asked for -/

/-- What `rtc_open` and then `rtc_write` leave, and what `rtc_write` returns. -/
def program (fs : FileSys) (s : Kernel) (filename : CString) (buf : ℕ → UInt8) : ℤ × Kernel :=
  (s.rtcOpen fs filename).2.rtcWrite buf 4

/-- **No faster than asked for:** of `n` interrupts at 1024 Hz at most `n f / 1024 + 1` wake a
process that asked for `f` Hz. -/
def Paced (s : Kernel) (f n : ℕ) : Prop := (s.wakeups n : ℚ) ≤ n * f / 1024 + 1

theorem paced_iff_mul {f n : ℕ} : s.Paced f n ↔ s.wakeups n * 1024 ≤ n * f + 1024 := by
  rw [Paced, div_add_one (by norm_num), le_div_iff₀ (by norm_num)]
  norm_cast

/-- The number of interrupts at which a process that asked for `f` Hz, `f` not 1024, has been
woken once too often. -/
def firstTooMany (f e : ℕ) : ℕ :=
  if f = 512 then 3
  else 3 * (1024 / (3 * f)) * ((1024 - e * f) / (1024 - 3 * (1024 / (3 * f)) * f) + 1) - e

/-- Three times the quotient is short of `1024 / f`, and not equal to it. -/
theorem period_lt {f : ℕ} : 3 * (1024 / (3 * f)) * f < 1024 := by
  have hle : 3 * f * (1024 / (3 * f)) ≤ 1024 := Nat.mul_div_le ..
  have heq : 3 * (1024 / (3 * f)) * f = 3 * (1024 / (3 * f) * f) := Nat.mul_assoc ..
  have heq' : 3 * f * (1024 / (3 * f)) = 3 * (1024 / (3 * f) * f) := by
    rw [Nat.mul_assoc, Nat.mul_comm f]
  omega

theorem rate_cases {f : ℕ} (h : ValidRate f) : f = 1024 ∨ f = 512 ∨ 1 ≤ f ∧ f ≤ 256 := by
  obtain ⟨hpos, hle, j, hj⟩ := h
  have hpow : f = 2 ^ j := by exact_mod_cast hj
  have hmax : (f : ℤ) ≤ 1024 := hle
  rcases Nat.lt_or_ge j 9 with hlt | hge
  · have hle : 2 ^ j ≤ 2 ^ 8 := Nat.pow_le_pow_right (by decide) (by omega)
    omega
  · have hj' : j < 11 :=
      (Nat.pow_lt_pow_iff_right (by decide : 1 < 2)).1 (by omega : 2 ^ j < 2 ^ 11)
    obtain rfl | rfl : j = 9 ∨ j = 10 := by omega
    · omega
    · omega

variable {filename : CString} {buf : ℕ → UInt8}

/-- After `rtc_open` and `rtc_write` nothing has been counted for the new rate. -/
theorem program_cases (hwrite : (s.program fs filename buf).1 = 0) :
    ValidRate (int32At buf) ∧
      (s.program fs filename buf).2.rtc.desiredVirtualizedFrequency s.scheduleIdx = int32At buf ∧
      (s.program fs filename buf).2.rtc.interruptCount s.scheduleIdx = 0 ∧
      (s.program fs filename buf).2.rtc.rtcIdx = s.rtc.rtcIdx ∧
      (s.program fs filename buf).2.scheduleIdx = s.scheduleIdx := by
  have hframe : ∃ pcb, (s.rtcOpen fs filename).2 =
      { s.resetRtc with pcb := pcb, interruptFlag := true } := rtcOpen_frame s filename
  obtain ⟨pcb, hopen⟩ := hframe
  have hreset : (s.rtcOpen fs filename).2.rtc = s.resetRtc.rtc := by rw [hopen]
  have hschedule : (s.rtcOpen fs filename).2.scheduleIdx = s.scheduleIdx := by rw [hopen]; rfl
  rw [program] at hwrite ⊢
  rcases rtcWrite_cases (s.rtcOpen fs filename).2 buf 4 with ⟨-, hvalid, -, hrtc⟩ | ⟨-, hret, -⟩
  · rw [rtcWrite_scheduleIdx, hrtc, hschedule, hreset]
    refine ⟨hvalid, ?_, ?_, rfl, rfl⟩
    · dsimp only
      rw [Function.update_self]
    · simp only [resetRtc, Function.update_self]
  · rw [hret] at hwrite
    exact absurd hwrite (by decide)

/-- **How often a programmed terminal is woken.** -/
theorem wakeups_eq (hk : s.scheduleIdx < 3) (hidx : s.rtc.rtcIdx < 3)
    (hwrite : (s.program fs filename buf).1 = 0) {f : ℕ} (hf : int32At buf = f) (n : ℕ) :
    (s.program fs filename buf).2.wakeups n
      = if f < 512 then (n + s.lead) / 3 / (1024 / (3 * f)) else n := by
  obtain ⟨hvalid, hfrequency, hcount, hrtcIdx, hschedule⟩ := program_cases hwrite
  rw [hf] at hvalid hfrequency
  set t := (s.program fs filename buf).2
  have hfpos : 1 ≤ (f : ℤ) := hvalid.1
  have hfmax : (f : ℤ) ≤ 1024 := hvalid.2.1
  have hperiod : maxFrequency / t.rtc.divisor s.scheduleIdx = (1024 / (3 * f) : ℕ) := by
    rw [Rtc.divisor, hfrequency, u32_of_bounds (by omega) (by omega), maxFrequency, Nat.mul_comm]
    push_cast
    rfl
  have hlead : t.lead = s.lead := by rw [lead, lead, hschedule, hrtcIdx]
  split_ifs with hlt
  · have hcounting : t.Counting t.scheduleIdx (1024 / (3 * f)) t.rtc.rtcIdx 0 := by
      refine ⟨rfl, ?_, rfl, ?_⟩
      · rw [hschedule, hperiod]
      · rw [hschedule, hcount, Nat.zero_mod]
    have hT : 0 < 1024 / (3 * f) := by
      have hfew : f ≤ 256 := by rcases rate_cases hvalid with h | h | ⟨-, h⟩ <;> omega
      exact Nat.div_pos (by omega) (by omega)
    have hk' : t.scheduleIdx < 3 := by rw [hschedule]; exact hk
    have hidx' : t.rtc.rtcIdx < 3 := by rw [hrtcIdx]; exact hidx
    rw [(hcounting.iterate hk' hidx' hT (Nat.div_le_self ..) n).1, hlead]
  · refine wakeups_eq_self ?_ n
    rw [hschedule, hperiod, Nat.div_eq_of_lt (by omega)]
    rfl

/-- **How long a terminal is woken no faster than it asked for.**  At 1024 Hz, always.  At any
other rate it is woken too often sooner or later, and `firstTooMany` says when first. -/
theorem paced_iff (hk : s.scheduleIdx < 3) (hidx : s.rtc.rtcIdx < 3)
    (hwrite : (s.program fs filename buf).1 = 0) {f : ℕ} (hf : int32At buf = f) :
    ((∀ n, (s.program fs filename buf).2.Paced f n) ↔ f = 1024) ∧
      (f ≠ 1024 → ∀ n,
        ((∀ m ≤ n, (s.program fs filename buf).2.Paced f m) ↔ n < firstTooMany f s.lead)) := by
  have hvalid := (program_cases hwrite).1
  rw [hf] at hvalid
  have hwakeups := wakeups_eq hk hidx hwrite hf
  set t := (s.program fs filename buf).2
  have hfirst (hne : f ≠ 1024) (n : ℕ) :
      (∀ m ≤ n, t.Paced f m) ↔ n < firstTooMany f s.lead := by
    simp only [paced_iff_mul, hwakeups]
    rcases rate_cases hvalid with h | rfl | ⟨hpos, hle⟩
    · exact absurd h hne
    · simp only [Nat.lt_irrefl, if_false, firstTooMany, if_true]
      exact ⟨fun h => by have := h n le_rfl; omega, fun h m hm => by omega⟩
    · have hlead : s.lead ≤ 2 := Nat.sub_le ..
      have hT : 0 < 1024 / (3 * f) := Nat.div_pos (by omega) (by omega)
      have he : s.lead * f ≤ 2 * f := Nat.mul_le_mul_right f hlead
      simp only [if_pos (by omega : f < 512), Nat.div_div_eq_div_mul]
      rw [firings_le_iff (by omega) period_lt (by omega), firstTooMany, if_neg (by omega)]
      omega
  refine ⟨⟨fun h => ?_, ?_⟩, hfirst⟩
  · by_contra hne
    exact absurd ((hfirst hne (firstTooMany f s.lead)).1 fun m _ => h m) (Nat.lt_irrefl _)
  · rintro rfl n
    rw [paced_iff_mul, hwakeups, if_neg (by omega)]
    omega

end Kernel

/-- Four bytes that ask for 512 Hz. -/
def rate512 : ℕ → UInt8 := fun i => if i = 1 then 2 else 0

/-- Four bytes that ask for 2 Hz. -/
def rate2 : ℕ → UInt8 := fun i => if i = 0 then 2 else 0

/-- At 2 Hz it takes some two minutes: the 256th wake-up comes with interrupt 130558. -/
theorem paced_iff_rate2 :
    ((∀ n, (rtcStart.program default rtcName rate2).2.Paced 2 n) ↔ 2 = 1024) ∧
      (2 ≠ 1024 → ∀ n, (∀ m ≤ n, (rtcStart.program default rtcName rate2).2.Paced 2 m) ↔
        n < Kernel.firstTooMany 2 rtcStart.lead) :=
  Kernel.paced_iff (by decide) (by decide) (by decide +kernel) (by decide +kernel)

example : Kernel.firstTooMany 2 rtcStart.lead = 130558 := by decide +kernel

/-- **At 512 Hz every interrupt wakes the process:** three of three, where two and a half are the
most that was asked for. -/
theorem not_paced_rate512 :
    ¬ ∀ (fs : FileSys) (s : Kernel) (filename : CString) (buf : ℕ → UInt8) (f n : ℕ),
      s.scheduleIdx < 3 → s.rtc.rtcIdx < 3 → Kernel.int32At buf = f →
      (s.program fs filename buf).1 = 0 → (s.program fs filename buf).2.Paced f n := by
  intro h
  have hpaced := h default rtcStart rtcName rate512 512 3 (by decide) (by decide)
    (by decide +kernel) (by decide +kernel)
  have hwakeups : (rtcStart.program default rtcName rate512).2.wakeups 3 = 3 := by decide +kernel
  rw [Kernel.paced_iff_mul, hwakeups] at hpaced
  omega

end OS391
