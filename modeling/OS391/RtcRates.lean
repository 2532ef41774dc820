/-
# The rates of the virtual RTC

`rtc_init` and `rtc_handler` of `rtc.c`, and what holds of the three rates in any order of
calls and interrupts, with `schedule_idx` moved in between (`RtcStep`).

Each rate is written by three functions.  `rtc_init` and `rtc_open` write 2, and `rtc_write`
what it has checked: at least 1, at most `MAX_FREQUENCY`, and a power of two by the bit trick,
which is right for every `int32_t` (`isPowerOfTwo_iff`).  So `rtc_handler` never divides by
zero, and the product in its divisor does not wrap (`rates_of_run`).  The ports of the chip
are left out.
-/

import OS391.Operations
import Mathlib.Algebra.Ring.Int.Defs

namespace OS391

open Lib

/-! ### Setup and interrupts -/

namespace Rtc

/-- `interrupt_count[rtc_idx]++`, and `rtc_idx` moved on. -/
def countInterrupt (r : Rtc) : Rtc :=
  { r with
    interruptCount := Function.update r.interruptCount r.rtcIdx
      (u32 (r.interruptCount r.rtcIdx + 1)).toNat
    rtcIdx := if r.rtcIdx < 2 then r.rtcIdx + 1 else 0 }

/-- What `rtc_handler` divides `MAX_FREQUENCY` by. -/
def divisor (r : Rtc) (t : ℕ) : ℤ := u32 (r.desiredVirtualizedFrequency t * 3)

/-- Has terminal `t` counted as many interrupts as its rate asks for? -/
def isDue (r : Rtc) (t : ℕ) : Bool := (r.interruptCount t : ℤ) ≥ maxFrequency / r.divisor t

/-- The flag of terminal `t` cleared, and its count. -/
def clearFlag (r : Rtc) (t : ℕ) : Rtc :=
  { r with
    interruptFlag := Function.update r.interruptFlag t 0
    interruptCount := Function.update r.interruptCount t 0 }

/-- The arrays as they are initialised. -/
structure Initial (r : Rtc) : Prop where
  frequency : ∀ t < 3, r.desiredVirtualizedFrequency t = 2
  flag : ∀ t < 3, r.interruptFlag t = 1
  count : ∀ t < 3, r.interruptCount t = 0
  rtcIdx : r.rtcIdx = 0

end Rtc

namespace Kernel

variable (s : Kernel)

/-- `rtc_init` -/
def rtcInit : Kernel :=
  let s := s.cli
  let s := { s with
    rtc := { s.rtc with
      desiredVirtualizedFrequency :=
        Function.update s.rtc.desiredVirtualizedFrequency s.scheduleIdx 2 } }
  (s.enableIrq 8).sti

/-- `rtc_handler` -/
def rtcHandler : Kernel :=
  let s := s.cli
  let r := s.rtc.countInterrupt
  { s with rtc := if r.isDue s.scheduleIdx then r.clearFlag s.scheduleIdx else r }.sti

end Kernel

/-- A call of an RTC function, an RTC interrupt, or a move of `schedule_idx`. -/
inductive RtcEvent
  | rtcInit
  | rtcOpen (filename : CString)
  | rtcWrite (buf : ℕ → UInt8) (nbytes : ℤ)
  | rtcClose (fd : ℤ)
  | rtcHandler
  | schedule (t : ℕ)

/-- One call, interrupt or move. -/
inductive RtcStep (fs : FileSys) : Kernel → RtcEvent → Kernel → Prop
  | rtcInit (s : Kernel) : RtcStep fs s .rtcInit s.rtcInit
  | rtcOpen (s : Kernel) (filename : CString) :
      RtcStep fs s (.rtcOpen filename) (s.rtcOpen fs filename).2
  | rtcWrite (s : Kernel) (buf : ℕ → UInt8) (nbytes : ℤ) :
      RtcStep fs s (.rtcWrite buf nbytes) (s.rtcWrite buf nbytes).2
  | rtcClose (s : Kernel) (fd : ℤ) : RtcStep fs s (.rtcClose fd) (s.rtcClose fd).2
  | rtcHandler (s : Kernel) : RtcStep fs s .rtcHandler s.rtcHandler
  | schedule (s : Kernel) {t : ℕ} (ht : t < 3) :
      RtcStep fs s (.schedule t) { s with scheduleIdx := t }

/-! ### Powers of two -/

/-- A rate `rtc_write` should accept. -/
def ValidRate (rate : ℤ) : Prop := 1 ≤ rate ∧ rate ≤ maxFrequency ∧ ∃ j : ℕ, rate = 2 ^ j

theorem validRate_two : ValidRate 2 := ⟨by decide, by decide, 1, rfl⟩

/-- **The bit trick** finds the powers of two among the positive numbers. -/
theorem isPowerOfTwo_iff {rate : ℤ} (hpos : 0 < rate) (hlt : rate < 2147483648) :
    Kernel.isPowerOfTwo rate = true ↔ ∃ j : ℕ, rate = 2 ^ j := by
  obtain ⟨rate, rfl⟩ := Int.eq_ofNat_of_zero_le (Int.le_of_lt hpos)
  have hpred : ((rate : ℤ) - 1) = ((rate - 1 : ℕ) : ℤ) := by omega
  have hbits : BitVec.ofInt 32 rate &&& BitVec.ofInt 32 ((rate : ℤ) - 1) = 0#32 ↔
      rate &&& (rate - 1) = 0 := by
    rw [hpred, BitVec.ofInt_natCast, BitVec.ofInt_natCast, BitVec.toNat_eq, BitVec.toNat_and,
      BitVec.toNat_ofNat, BitVec.toNat_ofNat, Nat.mod_eq_of_lt (by omega),
      Nat.mod_eq_of_lt (by omega)]
    rfl
  have hne : rate ≠ 0 := by omega
  simp only [Kernel.isPowerOfTwo, Bool.and_eq_true, decide_eq_true_eq]
  rw [and_iff_right (by omega : (rate : ℤ) ≠ 0)]
  refine hbits.trans ((Nat.and_sub_one_eq_zero_iff_isPowerOfTwo hne).trans ?_)
  constructor
  · rintro ⟨j, hj⟩
    exact ⟨j, by exact_mod_cast hj⟩
  · rintro ⟨j, hj⟩
    exact ⟨j, by exact_mod_cast hj⟩

/-- **The check of `rtc_write`** rejects what is no valid rate, negative numbers among it. -/
theorem rejected_iff (rate : ℤ) :
    (rate > maxFrequency ∨ rate ≤ 0 ∨ ¬ Kernel.isPowerOfTwo rate) ↔ ¬ ValidRate rate := by
  unfold ValidRate
  rcases Int.lt_or_le maxFrequency rate with hgt | hle
  · exact iff_of_true (Or.inl hgt) fun h => absurd h.2.1 (by omega)
  · rcases Int.lt_or_le 0 rate with hpos | hneg
    · have hmax : rate ≤ 1024 := hle
      rw [isPowerOfTwo_iff hpos (by omega)]
      constructor
      · rintro (h | h | h)
        · omega
        · omega
        · exact fun hvalid => h hvalid.2.2
      · exact fun h => Or.inr (Or.inr fun hpow => h ⟨by omega, hle, hpow⟩)
    · exact iff_of_true (Or.inr (Or.inl hneg)) fun h => absurd h.1 (by omega)

/-! ### What each function does to the rates -/

section Rates

variable {fs : FileSys} {s t : Kernel} {e : RtcEvent} {es : List RtcEvent}

/-- **`rtc_write`** sets the rate of the scheduled terminal if it is given four bytes with a
valid one, and otherwise fails and leaves the RTC alone. -/
theorem rtcWrite_cases (s : Kernel) (buf : ℕ → UInt8) (nbytes : ℤ) :
    (nbytes = 4 ∧ ValidRate (Kernel.int32At buf) ∧ (s.rtcWrite buf nbytes).1 = 0 ∧
      (s.rtcWrite buf nbytes).2.rtc = { s.rtc with
        desiredVirtualizedFrequency := Function.update s.rtc.desiredVirtualizedFrequency
          s.scheduleIdx (Kernel.int32At buf) }) ∨
    (¬ (nbytes = 4 ∧ ValidRate (Kernel.int32At buf)) ∧ (s.rtcWrite buf nbytes).1 = -1 ∧
      (s.rtcWrite buf nbytes).2.rtc = s.rtc) := by
  simp only [Kernel.rtcWrite]
  split_ifs with hbytes hrate
  · exact Or.inr ⟨fun h => hbytes h.1, rfl, rfl⟩
  · exact Or.inr ⟨fun h => (rejected_iff _).1 hrate h.2, rfl, rfl⟩
  · exact Or.inl ⟨not_not.1 hbytes, not_not.1 (mt (rejected_iff _).2 hrate), rfl, rfl⟩

theorem rtcWrite_scheduleIdx (s : Kernel) (buf : ℕ → UInt8) (nbytes : ℤ) :
    (s.rtcWrite buf nbytes).2.scheduleIdx = s.scheduleIdx := by
  simp only [Kernel.rtcWrite]
  split_ifs
  · rfl
  · rfl
  · rfl

/-- `rtc_open` resets the RTC, and opens a descriptor at most. -/
theorem rtcOpen_frame (s : Kernel) (filename : CString) :
    ∃ pcb, (s.rtcOpen fs filename).2 = { s.resetRtc with pcb := pcb, interruptFlag := true } := by
  obtain ⟨pcb, h⟩ := Kernel.openDescriptor_frame fs s.cli.resetRtc s.cli.resetRtc.scheduledPid .rtc
    rtcFileType (fun _ => 0) filename
  exact ⟨pcb, congrArg Kernel.sti h⟩

theorem rtcClose_rtc (s : Kernel) (fd : ℤ) : (s.rtcClose fd).2.rtc = s.rtc := by
  obtain ⟨pcb, h⟩ := s.cli.closeDescriptor_frame s.cli.scheduledPid fd 0
  show (s.cli.closeDescriptor s.cli.scheduledPid fd 0).2.rtc = s.rtc
  rw [h]
  rfl

theorem rtcHandler_frequency (s : Kernel) :
    s.rtcHandler.rtc.desiredVirtualizedFrequency = s.rtc.desiredVirtualizedFrequency := by
  unfold Kernel.rtcHandler Kernel.sti
  dsimp only
  split_ifs
  · rfl
  · rfl

/-- **A step leaves the rates,** or it sets that of the scheduled terminal to a valid one. -/
theorem RtcStep.frequency (h : RtcStep fs s e t) :
    t.rtc.desiredVirtualizedFrequency = s.rtc.desiredVirtualizedFrequency ∨
      ∃ rate, ValidRate rate ∧ t.rtc.desiredVirtualizedFrequency
        = Function.update s.rtc.desiredVirtualizedFrequency s.scheduleIdx rate := by
  cases h with
  | rtcInit => exact Or.inr ⟨2, validRate_two, rfl⟩
  | rtcOpen filename =>
    obtain ⟨pcb, h⟩ := rtcOpen_frame s filename
    exact Or.inr ⟨2, validRate_two, by rw [h]; rfl⟩
  | rtcWrite buf nbytes =>
    rcases rtcWrite_cases s buf nbytes with ⟨-, hvalid, -, hrtc⟩ | ⟨-, -, hrtc⟩
    · exact Or.inr ⟨_, hvalid, by rw [hrtc]⟩
    · exact Or.inl (by rw [hrtc])
  | rtcClose fd => exact Or.inl (by rw [rtcClose_rtc])
  | rtcHandler => exact Or.inl (rtcHandler_frequency s)
  | schedule => exact Or.inl rfl

/-- Each terminal has a valid rate. -/
def Rtc.RatesValid (r : Rtc) : Prop := ∀ t < 3, ValidRate (r.desiredVirtualizedFrequency t)

theorem Rtc.Initial.ratesValid {r : Rtc} (h : r.Initial) : r.RatesValid := fun t ht => by
  rw [h.frequency t ht]
  exact validRate_two

/-- One step keeps the rates valid. -/
theorem RtcStep.ratesValid (h : RtcStep fs s e t) (hs : s.rtc.RatesValid) : t.rtc.RatesValid := by
  intro i hi
  rcases h.frequency with heq | ⟨rate, hvalid, heq⟩
  · rw [heq]
    exact hs i hi
  · rw [heq, Function.update_apply]
    split_ifs
    · exact hvalid
    · exact hs i hi

/-- A valid rate makes a divisor that is positive and does not wrap. -/
theorem Rtc.RatesValid.divisor {r : Rtc} (h : r.RatesValid) {i : ℕ} (hi : i < 3) :
    r.divisor i = r.desiredVirtualizedFrequency i * 3 ∧ 0 < r.divisor i := by
  obtain ⟨hpos, hle, -⟩ := h i hi
  have hmax : r.desiredVirtualizedFrequency i ≤ 1024 := hle
  have heq : r.divisor i = r.desiredVirtualizedFrequency i * 3 :=
    u32_of_bounds (by omega) (by omega)
  exact ⟨heq, by omega⟩

/-- **The rates of the virtual RTC** in every state of a run: each is a power of two up to 1024,
and no divisor of `rtc_handler` is zero or wraps; `rtc_write` succeeds just on four bytes with
such a rate and else leaves the RTC alone; and a step changes no rate but that of the terminal
scheduled. -/
theorem rates_of_run (hs : s.rtc.Initial) (hr : Run (RtcStep fs) s es t) :
    t.rtc.RatesValid ∧
      (∀ i < 3, t.rtc.divisor i = t.rtc.desiredVirtualizedFrequency i * 3 ∧ 0 < t.rtc.divisor i) ∧
      (∀ buf nbytes,
        ((t.rtcWrite buf nbytes).1 = 0 ↔ nbytes = 4 ∧ ValidRate (Kernel.int32At buf)) ∧
        ((t.rtcWrite buf nbytes).1 ≠ 0 →
          (t.rtcWrite buf nbytes).1 = -1 ∧ (t.rtcWrite buf nbytes).2.rtc = t.rtc)) ∧
      ∀ e u, RtcStep fs t e u → ∀ i, i ≠ t.scheduleIdx →
        u.rtc.desiredVirtualizedFrequency i = t.rtc.desiredVirtualizedFrequency i := by
  have hvalid : t.rtc.RatesValid :=
    hr.invariant (I := fun u => u.rtc.RatesValid) (fun _ _ _ hu h => h.ratesValid hu) hs.ratesValid
  refine ⟨hvalid, fun i hi => hvalid.divisor hi, fun buf nbytes => ?_, fun e u h i hi => ?_⟩
  · rcases rtcWrite_cases t buf nbytes with ⟨hbytes, hrate, hret, -⟩ | ⟨hnot, hret, hrtc⟩
    · exact ⟨iff_of_true hret ⟨hbytes, hrate⟩, fun h => absurd hret h⟩
    · refine ⟨iff_of_false ?_ hnot, fun _ => ⟨hret, hrtc⟩⟩
      rw [hret]
      decide
  · rcases h.frequency with heq | ⟨rate, -, heq⟩
    · rw [heq]
    · rw [heq, Function.update_of_ne hi]

end Rates

/-- The kernel with the RTC as it is initialised. -/
def rtcStart : Kernel :=
  { (default : Kernel) with
    rtc := {
      desiredVirtualizedFrequency := fun _ => 2
      interruptFlag := fun _ => 1
      interruptCount := fun _ => 0
      rtcIdx := 0 } }

/-- Four bytes that ask for 64 Hz. -/
def rate64 : ℕ → UInt8 := fun i => if i = 0 then 64 else 0

/-- The second terminal asks for 64 Hz, and an interrupt comes. -/
theorem rates_of_run_rate64 :
    let s := { rtcStart.rtcInit with scheduleIdx := 1 }
    let t := (s.rtcWrite rate64 4).2.rtcHandler
    t.rtc.RatesValid ∧
      (∀ i < 3, t.rtc.divisor i = t.rtc.desiredVirtualizedFrequency i * 3 ∧ 0 < t.rtc.divisor i) ∧
      (∀ buf nbytes,
        ((t.rtcWrite buf nbytes).1 = 0 ↔ nbytes = 4 ∧ ValidRate (Kernel.int32At buf)) ∧
        ((t.rtcWrite buf nbytes).1 ≠ 0 →
          (t.rtcWrite buf nbytes).1 = -1 ∧ (t.rtcWrite buf nbytes).2.rtc = t.rtc)) ∧
      ∀ e u, RtcStep default t e u → ∀ i, i ≠ t.scheduleIdx →
        u.rtc.desiredVirtualizedFrequency i = t.rtc.desiredVirtualizedFrequency i :=
  rates_of_run (s := rtcStart) ⟨fun _ _ => rfl, fun _ _ => rfl, fun _ _ => rfl, rfl⟩
    (.cons (.rtcInit _) (.cons (.schedule _ (by decide))
      (.cons (.rtcWrite _ rate64 4) (.single (.rtcHandler _)))))

end OS391
