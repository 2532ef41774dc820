/-
# Families of stacks

One stack for each index, the top first.  `Separate st` says that no element stands
twice, in one stack or in two.  A push of a new element and a pop keep it.
-/

import Mathlib.Data.List.Nodup
import Mathlib.Logic.Function.Basic
import Mathlib.Tactic.Common

namespace OS391
namespace Lib

variable {ι α : Type*}

/-- No element stands twice in the stacks. -/
structure Separate (st : ι → List α) : Prop where
  nodup : ∀ i, (st i).Nodup
  disjoint : ∀ i j, i ≠ j → ∀ a ∈ st i, a ∉ st j

section Update

variable [DecidableEq ι] {st : ι → List α} {i j : ι} {a b : α}

/-- `a` pushed on stack `i`. -/
def push (st : ι → List α) (i : ι) (a : α) : ι → List α := Function.update st i (a :: st i)

/-- The top of stack `i` popped. -/
def pop (st : ι → List α) (i : ι) : ι → List α := Function.update st i (st i).tail

@[simp] theorem push_self : push st i a i = a :: st i := by simp [push]

theorem push_of_ne (h : j ≠ i) : push st i a j = st j := by simp [push, h]

@[simp] theorem pop_self : pop st i i = (st i).tail := by simp [pop]

theorem pop_of_ne (h : j ≠ i) : pop st i j = st j := by simp [pop, h]

/-- An element of the stacks after a push is the new one or was there. -/
theorem mem_push (h : b ∈ push st i a j) : (j = i ∧ b = a) ∨ b ∈ st j := by
  by_cases hj : j = i
  · subst hj
    rw [push_self] at h
    rcases List.mem_cons.1 h with rfl | h
    · exact Or.inl ⟨rfl, rfl⟩
    · exact Or.inr h
  · rw [push_of_ne hj] at h
    exact Or.inr h

theorem mem_push_of_mem (h : b ∈ st j) : b ∈ push st i a j := by
  by_cases hj : j = i
  · subst hj
    rw [push_self]
    exact List.mem_cons_of_mem _ h
  · rwa [push_of_ne hj]

theorem mem_of_mem_pop (h : b ∈ pop st i j) : b ∈ st j := by
  by_cases hj : j = i
  · subst hj
    rw [pop_self] at h
    exact List.mem_of_mem_tail h
  · rwa [pop_of_ne hj] at h

/-- **A push of a new element** keeps the stacks separate. -/
theorem Separate.push (h : Separate st) (hfresh : ∀ j, a ∉ st j) : Separate (push st i a) := by
  constructor
  · intro j
    by_cases hj : j = i
    · subst hj
      rw [push_self]
      exact List.nodup_cons.2 ⟨hfresh j, h.nodup j⟩
    · rw [push_of_ne hj]
      exact h.nodup j
  · intro j k hjk b hb hb'
    rcases mem_push hb with ⟨rfl, rfl⟩ | hj
    · rw [push_of_ne (Ne.symm hjk)] at hb'
      exact hfresh k hb'
    · rcases mem_push hb' with ⟨-, rfl⟩ | hk
      · exact hfresh j hj
      · exact h.disjoint j k hjk b hj hk

/-- **A pop** keeps the stacks separate. -/
theorem Separate.pop (h : Separate st) : Separate (pop st i) := by
  constructor
  · intro j
    by_cases hj : j = i
    · subst hj
      rw [pop_self]
      exact (h.nodup j).tail
    · rw [pop_of_ne hj]
      exact h.nodup j
  · intro j k hjk b hb hb'
    exact h.disjoint j k hjk b (mem_of_mem_pop hb) (mem_of_mem_pop hb')

end Update

/-- Empty stacks are separate. -/
theorem separate_empty : Separate fun _ : ι => ([] : List α) :=
  ⟨fun _ => List.nodup_nil, fun _ _ _ _ h => absurd h List.not_mem_nil⟩

end Lib
end OS391
