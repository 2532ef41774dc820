/-
# Counting the entries of a table

`tally n p` is how many of the first `n` entries of a table meet the condition `p`.  When
one entry changes (`tally_change`) the number changes by what that entry counts for, and
by no more.
-/

import Mathlib.Data.List.Range
import Mathlib.Data.Int.Notation

namespace OS391
namespace Lib

/-- How many of the numbers below `n` meet `p`. -/
def tally (n : ℕ) (p : ℕ → Bool) : ℕ := (List.range n).countP p

variable {p q : ℕ → Bool} {n k : ℕ}

@[simp] theorem tally_zero : tally 0 p = 0 := rfl

theorem tally_succ (n : ℕ) (p : ℕ → Bool) : tally (n + 1) p = tally n p + (p n).toNat := by
  unfold tally
  rw [List.range_succ, List.countP_append, List.countP_singleton]
  cases p n <;> rfl

/-- The tally looks at the first `n` entries only. -/
theorem tally_congr (h : ∀ i < n, q i = p i) : tally n q = tally n p := by
  induction n with
  | zero => rfl
  | succ n ih =>
    rw [tally_succ, tally_succ, ih fun i hi => h i (by omega), h n (by omega)]

/-- **One entry changed:** what it counted for leaves the tally, and what it counts for now
enters it. -/
theorem tally_change (hk : k < n) (h : ∀ i, i ≠ k → q i = p i) :
    tally n q + (p k).toNat = tally n p + (q k).toNat := by
  induction n with
  | zero => omega
  | succ n ih =>
    rw [tally_succ, tally_succ]
    by_cases hkn : k = n
    · subst hkn
      rw [tally_congr fun i hi => h i (by omega)]
      omega
    · have := ih (by omega)
      rw [h n (Ne.symm hkn)]
      omega

end Lib
end OS391
