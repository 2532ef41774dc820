/-
# Counting down a clock

A divider counts some of the ticks of a clock and fires at every `T`-th one it counts.  After
`q` counted ticks it has fired `q / T` times and stands at `q % T`; one more tick either makes
it fire or moves it on (`div_mod_succ`).

A divider that counts one tick in three is meant to fire `f` times in `M` ticks.  It keeps to
that, up to one firing too many, as long as few enough ticks have passed
(`firings_le_iff`): with period `3 T` too short for the rate, every period adds to the lead.
-/

import Mathlib.Tactic.Ring
import Mathlib.Tactic.Linarith

namespace OS391
namespace Lib

/-- **One more tick counted:** the divider fires and starts again, or it moves on. -/
theorem div_mod_succ {T : ℕ} (hT : 0 < T) (q : ℕ) :
    (T ≤ q % T + 1 → (q + 1) / T = q / T + 1 ∧ (q + 1) % T = 0) ∧
      (q % T + 1 < T → (q + 1) / T = q / T ∧ (q + 1) % T = q % T + 1) := by
  have hlt := Nat.mod_lt q hT
  have hq := Nat.div_add_mod q T
  constructor
  · intro h
    have hsucc : q + 1 = T * (q / T + 1) := by rw [Nat.mul_add]; omega
    rw [hsucc]
    exact ⟨Nat.mul_div_cancel_left _ hT, Nat.mul_mod_right ..⟩
  · intro h
    have hsucc : q + 1 = T * (q / T) + (q % T + 1) := by omega
    rw [hsucc, Nat.mul_add_div hT, Nat.mul_add_mod, Nat.div_eq_of_lt h, Nat.mod_eq_of_lt h]
    exact ⟨rfl, rfl⟩

/-- **How long a divider keeps to a rate.**  It fires at the ticks `P m - e`, and `f` firings in
`M` ticks are meant.  A period is short of `M / f` by `(M - P f) / f`, so the lead grows by that
much with every firing, and the first firing too many is number `(M - e f) / (M - P f) + 1`. -/
theorem firings_le_iff {P e f M : ℕ} (hP : e < P) (hshort : P * f < M) (hlead : e * f ≤ M) (N : ℕ) :
    (∀ n ≤ N, (n + e) / P * M ≤ n * f + M) ↔ N + e < P * ((M - e * f) / (M - P * f) + 1) := by
  set x := M - e * f
  set y := M - P * f
  have hy : 0 < y := by omega
  constructor
  · intro h
    by_contra hge
    have hpos : P * 1 ≤ P * (x / y + 1) := Nat.mul_le_mul_left P (Nat.le_add_left 1 _)
    have hn := h (P * (x / y + 1) - e) (by omega)
    rw [Nat.sub_add_cancel (by omega), Nat.mul_div_cancel_left _ (by omega), Nat.sub_mul] at hn
    have hx : x < y * (x / y + 1) := Nat.lt_mul_div_succ x hy
    have hM : (x / y + 1) * M = y * (x / y + 1) + P * (x / y + 1) * f := by
      rw [show M = y + P * f by omega]
      ring
    have hle : e * f ≤ P * (x / y + 1) * f := Nat.mul_le_mul_right f (by omega)
    omega
  · intro h n hn
    have hq : (n + e) / P < x / y + 1 :=
      Nat.div_lt_of_lt_mul (by omega)
    have hx : (n + e) / P * y ≤ x :=
      (Nat.le_div_iff_mul_le hy).1 (by omega)
    have hM : (n + e) / P * M = (n + e) / P * y + (n + e) / P * P * f := by
      rw [show M = y + P * f by omega]
      ring
    have hle : (n + e) / P * P * f ≤ (n + e) * f := Nat.mul_le_mul_right f (Nat.div_mul_le_self ..)
    rw [Nat.add_mul] at hle
    omega

end Lib
end OS391
