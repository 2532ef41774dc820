/-
# Windows on a memory

A memory by address is a function on `ℤ`.  `SameWindow n m b m' b'` says that `n` cells
from `b` on in `m` hold what those from `b'` on hold in `m'`; writes at the same offset keep
it (`SameWindow.update`).  `WritesIn n b m m'` says that `m'` is `m` but for the `n` cells
from `b` on; a window apart from them is as before (`WritesIn.sameWindow`).
-/

import Mathlib.Data.Int.Notation
import Mathlib.Logic.Function.Basic
import Mathlib.Tactic.Common

namespace OS391
namespace Lib

variable {α : Type*} {n k b b' b'' : ℤ} {m m' m'' : ℤ → α}

/-- The same `n` cells at two places. -/
def SameWindow (n : ℤ) (m : ℤ → α) (b : ℤ) (m' : ℤ → α) (b' : ℤ) : Prop :=
  ∀ i, 0 ≤ i → i < n → m (b + i) = m' (b' + i)

/-- Only the `n` cells from `b` on are changed. -/
def WritesIn (n b : ℤ) (m m' : ℤ → α) : Prop := ∀ a, a < b ∨ b + n ≤ a → m' a = m a

theorem SameWindow.refl (n : ℤ) (m : ℤ → α) (b : ℤ) : SameWindow n m b m b := fun _ _ _ => rfl

theorem SameWindow.symm (h : SameWindow n m b m' b') : SameWindow n m' b' m b :=
  fun i h₀ h₁ => (h i h₀ h₁).symm

theorem SameWindow.trans (h : SameWindow n m b m' b') (h' : SameWindow n m' b' m'' b'') :
    SameWindow n m b m'' b'' := fun i h₀ h₁ => (h i h₀ h₁).trans (h' i h₀ h₁)

/-- **A write at the same offset.** -/
theorem SameWindow.update (h : SameWindow n m b m' b') (k : ℤ) {v v' : α}
    (hv : 0 ≤ k → k < n → v = v') :
    SameWindow n (Function.update m (b + k) v) b (Function.update m' (b' + k) v') b' := by
  intro i h₀ h₁
  by_cases hi : i = k
  · subst hi
    rw [Function.update_self, Function.update_self, hv h₀ h₁]
  · rw [Function.update_of_ne (by omega), Function.update_of_ne (by omega), h i h₀ h₁]

theorem WritesIn.refl (n b : ℤ) (m : ℤ → α) : WritesIn n b m m := fun _ _ => rfl

theorem WritesIn.trans (h : WritesIn n b m m') (h' : WritesIn n b m' m'') : WritesIn n b m m'' :=
  fun a ha => (h' a ha).trans (h a ha)

theorem WritesIn.update (h : WritesIn n b m m') (h₀ : b ≤ k) (h₁ : k < b + n) (v : α) :
    WritesIn n b m (Function.update m' k v) := fun a ha => by
  rw [Function.update_of_ne (by omega), h a ha]

/-- **A window apart from the cells written** is as before. -/
theorem WritesIn.sameWindow {n' : ℤ} (h : WritesIn n b m m') (hapart : b' + n' ≤ b ∨ b + n ≤ b') :
    SameWindow n' m' b' m b' := fun i h₀ h₁ => h _ (by omega)

end Lib
end OS391
