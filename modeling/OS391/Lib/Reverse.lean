/-
# Lists written to a memory, and their reversal in place

A number is converted to text from its last digit to its first, each digit one cell further,
and the cells are then reversed where they are.  `writeAll` is the list that such a loop has
written, and `reverseLoop` the reversal by two indices that run towards each other; each has
one lemma that says what every cell holds afterwards, and `reverseLoop_writeAll` puts
the two together.
-/

import OS391.Lib.Memory
import Mathlib.Data.Int.Notation
import Mathlib.Data.List.GetD

namespace OS391
namespace Lib

variable {α : Type*}

/-- The memory with the values of a list from cell `off` on. -/
def writeAll (m : ℕ → α) (off : ℕ) : List α → ℕ → α
  | [] => m
  | v :: vs => writeAll (Function.update m off v) (off + 1) vs

theorem writeAll_apply (m : ℕ → α) (off : ℕ) (vs : List α) (i : ℕ) :
    writeAll m off vs i = if off ≤ i then vs.getD (i - off) (m i) else m i := by
  induction vs generalizing m off with
  | nil => simp [writeAll]
  | cons v vs ih =>
    rw [writeAll, ih]
    rcases Nat.lt_trichotomy i off with hlt | rfl | hgt
    · rw [if_neg (by omega), if_neg (by omega), Function.update_of_ne (by omega)]
    · rw [if_neg (by omega), if_pos (Nat.le_refl i), Function.update_self, Nat.sub_self]
      rfl
    · obtain ⟨d, rfl⟩ := Nat.exists_eq_add_of_lt hgt
      rw [if_pos (by omega), if_pos (by omega), Function.update_of_ne (by omega),
        show off + d + 1 - off = d + 1 by omega, show off + d + 1 - (off + 1) = d by omega]
      rfl

theorem writeAll_start (m : ℕ → α) (vs : List α) (i : ℕ) :
    writeAll m 0 vs i = vs.getD i (m i) := by
  rw [writeAll_apply, if_pos (Nat.zero_le i), Nat.sub_zero]

/-- One value more, behind the list. -/
theorem update_writeAll (m : ℕ → α) (vs : List α) (v : α) :
    Function.update (writeAll m 0 vs) vs.length v = writeAll m 0 (vs ++ [v]) := by
  funext i
  rcases eq_or_ne i vs.length with rfl | hne
  · rw [Function.update_self, writeAll_start, List.getD_append_right _ _ _ _ (Nat.le_refl _),
      Nat.sub_self]
    rfl
  · rw [Function.update_of_ne hne, writeAll_start, writeAll_start]
    rcases Nat.lt_or_gt_of_ne hne with hlt | hgt
    · rw [List.getD_append _ _ _ _ hlt]
    · rw [List.getD_eq_default _ _ (Nat.le_of_lt hgt),
        List.getD_eq_default _ _ (by rw [List.length_append, List.length_singleton]; omega)]

/-- The value behind the list may be there before it. -/
theorem writeAll_update (m : ℕ → α) (vs : List α) (v : α) :
    writeAll (Function.update m vs.length v) 0 vs = writeAll m 0 (vs ++ [v]) := by
  rw [← update_writeAll]
  funext i
  rw [writeAll_start]
  rcases eq_or_ne i vs.length with rfl | hne
  · rw [List.getD_eq_default _ _ (Nat.le_refl _), Function.update_self, Function.update_self]
  · rw [Function.update_of_ne hne, Function.update_of_ne hne, writeAll_start]

/-! ### Reversal in place -/

/-- `while (beg < end) { tmp = m[end]; m[end] = m[beg]; m[beg] = tmp; beg++; end--; }`, at most
`k` turns. -/
def reverseLoop (m : ℕ → α) : ℕ → ℤ → ℤ → ℕ → α
  | 0, _, _ => m
  | k + 1, beg, last =>
    if beg < last then
      reverseLoop (Function.update (Function.update m last.toNat (m beg.toNat)) beg.toNat
        (m last.toNat)) k (beg + 1) (last - 1)
    else m

/-- **What a reversal leaves:** the cells from `beg` to `last` in the opposite order, every other
cell as before. -/
theorem reverseLoop_apply (m : ℕ → α) {k : ℕ} {beg last : ℤ} (hbeg : 0 ≤ beg)
    (hk : last - beg < 2 * k) (i : ℕ) :
    reverseLoop m k beg last i = if beg ≤ i ∧ (i : ℤ) ≤ last then m (beg + last - i).toNat else m i := by
  induction k generalizing m beg last with
  | zero => rw [reverseLoop, if_neg (by omega)]
  | succ k ih =>
    rw [reverseLoop]
    rcases Int.lt_or_le beg last with hlt | hge
    · rw [if_pos hlt, ih _ (by omega) (by omega)]
      have hne : last.toNat ≠ beg.toNat := by omega
      rcases eq_or_ne i beg.toNat with rfl | hfirst
      · rw [if_neg (by omega), if_pos (by omega), Function.update_self]
        congr 1
        omega
      rcases eq_or_ne i last.toNat with rfl | hlast
      · rw [if_neg (by omega), if_pos (by omega), Function.update_of_ne hne, Function.update_self]
        congr 1
        omega
      split_ifs with hin hout hout
      · rw [Function.update_of_ne (by omega), Function.update_of_ne (by omega)]
        congr 1
        omega
      · omega
      · omega
      · rw [Function.update_of_ne hfirst, Function.update_of_ne hlast]
    · rw [if_neg (by omega)]
      split_ifs with hin
      · congr 1
        omega
      · rfl

/-- A list written and reversed is the reversed list, followed by what was behind it. -/
theorem reverseLoop_writeAll (m : ℕ → α) (vs : List α) {k : ℕ} (hk : vs.length ≤ 2 * k) :
    reverseLoop (writeAll m 0 vs) k 0 (vs.length - 1) = writeAll m 0 vs.reverse := by
  funext i
  rw [reverseLoop_apply _ (Int.le_refl 0) (by omega)]
  simp only [writeAll_start]
  rcases Nat.lt_or_ge i vs.length with hlt | hge
  · rw [if_pos (by omega), show (0 + ((vs.length : ℤ) - 1) - i).toNat = vs.length - 1 - i by omega,
      List.getD_eq_getElem _ _ (by omega), List.getD_eq_getElem _ _ (by simpa using hlt),
      List.getElem_reverse]
  · rw [if_neg (by omega), List.getD_eq_default _ _ hge,
      List.getD_eq_default _ _ (by rwa [List.length_reverse])]

end Lib
end OS391
