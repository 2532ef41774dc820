/-
# C integers

`uint32_t` and `int32_t` are two's complement.  An expression is evaluated here
over `ℤ` and brought back to its type with `u32` or `i32` where the C code
stores it or converts between the two types, so the places where a value can
wrap are the places where one of the two functions stands.  A `uint8_t` is a
`UInt8`; a counter of that type does not wrap while it is neither full nor zero.
-/

import Mathlib.Data.Int.Notation
import Mathlib.Tactic.Common

namespace OS391
namespace Lib

/-- Conversion to `uint32_t`. -/
def u32 (x : ℤ) : ℤ := x % 4294967296

/-- Conversion to `int32_t`, two's complement. -/
def i32 (x : ℤ) : ℤ := (x + 2147483648) % 4294967296 - 2147483648

/-- A value in range survives the conversion to `uint32_t`. -/
theorem u32_of_bounds {x : ℤ} (h₀ : 0 ≤ x) (h₁ : x < 4294967296) : u32 x = x := by
  unfold u32; omega

/-- A value in range survives the conversion to `int32_t`. -/
theorem i32_of_bounds {x : ℤ} (h₀ : -2147483648 ≤ x) (h₁ : x < 2147483648) : i32 x = x := by
  unfold i32; omega

/-- C's `/` of a value smaller than the divisor, of either sign. -/
theorem tdiv_of_abs_lt {x n : ℤ} (h₀ : -n < x) (h₁ : x < n) : x.tdiv n = 0 := by
  rcases Int.le_total 0 x with hpos | hneg
  · exact Int.tdiv_eq_zero_of_lt hpos h₁
  · rw [← Int.neg_neg x, Int.neg_tdiv, Int.tdiv_eq_zero_of_lt (by omega) (by omega)]
    rfl

/-- C's `%` of such a value, or of the divisor itself. -/
theorem tmod_of_abs_le {x n : ℤ} (h₀ : -n ≤ x) (h₁ : x ≤ n) :
    x.tmod n = if x = n ∨ x = -n then 0 else x := by
  split_ifs with h
  · rcases h with rfl | rfl
    · exact Int.tmod_self
    · exact Int.neg_tmod_self n
  · rcases Int.le_total 0 x with hpos | hneg
    · exact Int.tmod_eq_of_lt hpos (by omega)
    · rw [← Int.neg_neg x, Int.neg_tmod, Int.tmod_eq_of_lt (by omega) (by omega)]

/-- One more than a `uint8_t` that is not full. -/
theorem toNat_add_one_of_lt {n : UInt8} (h : n.toNat < 255) : (n + 1).toNat = n.toNat + 1 := by
  rw [UInt8.toNat_add, UInt8.toNat_one]
  exact Nat.mod_eq_of_lt (by omega)

/-- One less than a `uint8_t` that is not zero. -/
theorem toNat_sub_one_add_one {n : UInt8} (h : n ≠ 0) : (n - 1).toNat + 1 = n.toNat := by
  have hpos : n.toNat ≠ 0 := fun hzero => h (UInt8.toNat_inj.mp hzero)
  have hle : (1 : UInt8) ≤ n := by
    rw [UInt8.le_iff_toNat_le, UInt8.toNat_one]
    omega
  rw [UInt8.toNat_sub_of_le n 1 hle, UInt8.toNat_one]
  omega

end Lib
end OS391
