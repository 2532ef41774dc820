/-
# Computations that record where they touch an array

A `Traced ι α` is a value together with the positions of an array that were read or
written on the way to it, in order.  Reading and writing (`load`, `store`) record their
position, computations compose as a monad, and C's `||` does not evaluate its right operand
when the left one is true (`Traced.or`).  `Traced.Within p` says that every position
touched satisfies `p`, with one rule for each way of composing.

What a traced computation returns is not changed by the record: `val` of a composition is
the composition of the `val`s.
-/

import Mathlib.Logic.Function.Basic
import Mathlib.Data.List.Basic

namespace OS391
namespace Lib

universe u

/-- A value and the positions touched on the way to it. -/
structure Traced (ι α : Type*) where
  val : α
  touched : List ι

namespace Traced

variable {ι : Type*} {α β : Type u}

instance : Monad (Traced ι) where
  pure a := ⟨a, []⟩
  bind x f := ⟨(f x.val).val, x.touched ++ (f x.val).touched⟩

/-- Every position touched satisfies `p`. -/
def Within (p : ι → Prop) (x : Traced ι α) : Prop := ∀ i ∈ x.touched, p i

/-- `m[i]` read. -/
@[reducible] def load (m : ι → α) (i : ι) : Traced ι α := ⟨m i, [i]⟩

/-- `m[i] = v;` -/
def store [DecidableEq ι] (m : ι → α) (i : ι) (v : α) : Traced ι (ι → α) :=
  ⟨Function.update m i v, [i]⟩

/-- C's `x || y`. -/
def or (x y : Traced ι Bool) : Traced ι Bool := do
  if ← x then pure true else y

/-- `for (i = 0; i < n; i++) a = body(i, a);` -/
def forLoop (body : ℕ → α → Traced ι α) : ℕ → α → Traced ι α
  | 0, a => pure a
  | n + 1, a => do
    let a ← forLoop body n a
    body n a

/-! ### Values -/

@[simp] theorem val_pure (a : α) : (pure a : Traced ι α).val = a := rfl

@[simp] theorem val_bind (x : Traced ι α) (f : α → Traced ι β) :
    (x >>= f).val = (f x.val).val := rfl

@[simp] theorem val_load (m : ι → α) (i : ι) : (load m i).val = m i := rfl

@[simp] theorem val_store [DecidableEq ι] (m : ι → α) (i : ι) (v : α) :
    (store m i v).val = Function.update m i v := rfl

@[simp] theorem val_ite (c : Prop) [Decidable c] (x y : Traced ι α) :
    (if c then x else y).val = if c then x.val else y.val := by
  split_ifs <;> rfl

@[simp] theorem val_or (x y : Traced ι Bool) : (x.or y).val = (x.val || y.val) := by
  cases h : x.val <;> simp [or, h]

/-! ### Positions -/

@[simp] theorem touched_pure (a : α) : (pure a : Traced ι α).touched = [] := rfl

@[simp] theorem touched_bind (x : Traced ι α) (f : α → Traced ι β) :
    (x >>= f).touched = x.touched ++ (f x.val).touched := rfl

@[simp] theorem touched_ite (c : Prop) [Decidable c] (x y : Traced ι α) :
    (if c then x else y).touched = if c then x.touched else y.touched := by
  split_ifs <;> rfl

section Within

variable {p : ι → Prop}

@[simp] theorem within_pure (a : α) : (pure a : Traced ι α).Within p := nofun

/-- **A composition stays inside** when its first part does and its second part does, run
on what the first one returns. -/
@[simp] theorem within_bind {x : Traced ι α} {f : α → Traced ι β} :
    (x >>= f).Within p ↔ x.Within p ∧ (f x.val).Within p :=
  List.forall_mem_append

@[simp] theorem within_load {m : ι → α} {i : ι} : (load m i).Within p ↔ p i :=
  List.forall_mem_singleton

@[simp] theorem within_store [DecidableEq ι] {m : ι → α} {i : ι} {v : α} :
    (store m i v).Within p ↔ p i :=
  List.forall_mem_singleton

/-- **The right operand of `||` counts only when the left one is false.** -/
@[simp] theorem within_or {x y : Traced ι Bool} :
    (x.or y).Within p ↔ x.Within p ∧ (x.val = false → y.Within p) := by
  rw [or, within_bind]
  cases x.val <;> simp

/-- **A loop stays inside exactly when each turn does,** run on what the turns before it
leave. -/
theorem within_forLoop {body : ℕ → α → Traced ι α} {n : ℕ} {a : α} :
    (forLoop body n a).Within p ↔ ∀ i < n, (body i (forLoop body i a).val).Within p := by
  induction n with
  | zero => exact ⟨fun _ i hi => absurd hi (Nat.not_lt_zero i), fun _ => within_pure a⟩
  | succ n ih =>
    rw [forLoop, within_bind, ih]
    constructor
    · rintro ⟨hbefore, hlast⟩ i hi
      rcases Nat.lt_succ_iff_lt_or_eq.1 hi with hlt | rfl
      · exact hbefore i hlt
      · exact hlast
    · intro h
      exact ⟨fun i hi => h i (Nat.lt_succ_of_lt hi), h n (Nat.lt_succ_self n)⟩

end Within

end Traced

end Lib
end OS391
