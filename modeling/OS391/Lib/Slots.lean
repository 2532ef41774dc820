/-
# Partial maps with slots

A table with a fixed list of slots is a partial map from slots to contents.  To put
something in is to take the least free slot; a search through the slots in order finds it
(`leastFree_of_find?`), or finds that there is none (`full_of_find?`).
-/

import Mathlib.Order.Defs.PartialOrder
import Mathlib.Data.List.Basic

namespace OS391
namespace Lib

variable {κ α : Type*}

/-- Nothing is free. -/
def Full (slots : List κ) (m : κ → Option α) : Prop := ∀ k ∈ slots, m k ≠ none

/-- Slot `k` is free, and none before it is. -/
structure LeastFree [LT κ] (slots : List κ) (m : κ → Option α) (k : κ) : Prop where
  mem : k ∈ slots
  free : m k = none
  least : ∀ j ∈ slots, j < k → m j ≠ none

theorem full_of_find? {slots : List κ} {m : κ → Option α}
    (h : slots.find? (fun k => (m k).isNone) = none) : Full slots m := fun k hk hnone => by
  have hsome := List.find?_eq_none.1 h k hk
  rw [hnone] at hsome
  exact hsome rfl

/-- **A search in order finds the least free slot.** -/
theorem leastFree_of_find? [Preorder κ] {slots : List κ} {m : κ → Option α} {k : κ}
    (hsorted : slots.Pairwise (· < ·)) (h : slots.find? (fun k => (m k).isNone) = some k) :
    LeastFree slots m k := by
  obtain ⟨hfree, before, after, rfl, hbefore⟩ := List.find?_eq_some_iff_append.1 h
  refine ⟨List.mem_append_right _ (List.mem_cons_self ..), by simpa using hfree,
    fun j hj hlt hnone => ?_⟩
  rcases List.mem_append.1 hj with hj | hj
  · have hused := hbefore j hj
    simp [hnone] at hused
  · rcases List.mem_cons.1 hj with rfl | hj
    · exact absurd hlt (lt_irrefl _)
    · have hgt := (List.pairwise_cons.1 (List.pairwise_append.1 hsorted).2.1).1 j hj
      exact absurd (lt_trans hlt hgt) (lt_irrefl _)

end Lib
end OS391
