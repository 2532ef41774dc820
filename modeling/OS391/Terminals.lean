/-
# Three terminals, each with a stack of processes

What the scheduler is for, without its data structures: the terminals that have their
shell, the one whose process runs, and for each terminal the processes that wait for one
another, the running one on top and the shell at the bottom.

A terminal gets its shell, the running process starts a process or ends, or the next
terminal has its turn (`Move`).  Whatever happens, each stack of a started terminal ends
in its shell, and no process stands twice (`Sound`, `Sound.move`).
-/

import OS391.Lib.Stacks
import Mathlib.Data.Int.Notation

namespace OS391

open Lib

/-- The terminals: how many have their shell, whose turn it is, and the stacks. -/
structure Terminals where
  started : ℕ
  current : ℕ
  stack : ℕ → List ℤ

namespace Terminals

/-- What can happen. -/
inductive Move : Terminals → Terminals → Prop
  | boot {m : Terminals} (h : m.started < 3) (hfresh : ∀ t, (m.started : ℤ) ∉ m.stack t) :
      Move m { started := m.started + 1, current := m.started
               stack := push m.stack m.started m.started }
  | start {m : Terminals} (h : 0 < m.started) (pid : ℤ) (hfresh : ∀ t, pid ∉ m.stack t) :
      Move m { m with stack := push m.stack m.current pid }
  | finish {m : Terminals} (h : 2 ≤ (m.stack m.current).length) :
      Move m { m with stack := pop m.stack m.current }
  | rotate {m : Terminals} (h : m.started = 3) :
      Move m { m with current := (m.current + 1) % 3 }

/-- What holds of the terminals at any time. -/
structure Sound (m : Terminals) : Prop where
  started_le : m.started ≤ 3
  current_lt : 0 < m.started → m.current < m.started
  separate : Separate m.stack
  bottom : ∀ t < m.started, (m.stack t).getLast? = some (t : ℤ)
  empty : ∀ t, m.started ≤ t → m.stack t = []

/-- No terminal has been started. -/
def off : Terminals := { started := 0, current := 0, stack := fun _ => [] }

/-- The terminals when their shells run and the first has its turn. -/
def shells : Terminals :=
  { started := 3, current := 0, stack := fun t => if t < 3 then [(t : ℤ)] else [] }

theorem sound_off : off.Sound :=
  ⟨by simp [off], by simp [off], separate_empty, by simp [off], fun _ _ => rfl⟩

theorem sound_shells : shells.Sound where
  started_le := Nat.le_refl 3
  current_lt := fun h => h
  separate := by
    constructor
    · intro t
      simp only [shells]
      split_ifs <;> simp
    · intro t u htu q hq hq'
      simp only [shells] at hq hq'
      split_ifs at hq hq' <;> simp at hq hq'
      omega
  bottom := fun t ht => by
    simp only [shells] at ht ⊢
    rw [if_pos ht]
    rfl
  empty := fun t ht => by
    simp only [shells] at ht ⊢
    exact if_neg (by omega)

variable {m m' : Terminals}

theorem getLast?_cons_of_getLast? {α : Type*} {l : List α} {a b : α} (h : l.getLast? = some b) :
    (a :: l).getLast? = some b := by
  cases l with
  | nil => simp at h
  | cons c l => simpa using h

theorem getLast?_tail {α : Type*} {l : List α} (h : 2 ≤ l.length) :
    l.tail.getLast? = l.getLast? := by
  match l, h with
  | _ :: _ :: _, _ => simp

/-- **A move keeps the terminals sound.** -/
theorem Sound.move (h : m.Sound) (hmove : Move m m') : m'.Sound := by
  cases hmove with
  | boot hlt hfresh =>
    have hnil := h.empty m.started (Nat.le_refl _)
    refine ⟨hlt, fun _ => Nat.lt_succ_self _, h.separate.push hfresh, fun t ht => ?_, fun t ht => ?_⟩
    all_goals dsimp only at ht ⊢
    · by_cases ht' : t = m.started
      · subst ht'
        simp [hnil]
      · rw [push_of_ne ht']
        exact h.bottom t (by omega)
    · rw [push_of_ne (by omega)]
      exact h.empty t (by omega)
  | start hpos pid hfresh =>
    have hcur := h.current_lt hpos
    refine ⟨h.started_le, h.current_lt, h.separate.push hfresh, fun t ht => ?_, fun t ht => ?_⟩
    all_goals dsimp only at ht ⊢
    · by_cases ht' : t = m.current
      · subst ht'
        rw [push_self]
        exact getLast?_cons_of_getLast? (h.bottom _ hcur)
      · rw [push_of_ne ht']
        exact h.bottom t ht
    · rw [push_of_ne (by omega)]
      exact h.empty t ht
  | finish hlen =>
    refine ⟨h.started_le, h.current_lt, h.separate.pop, fun t ht => ?_, fun t ht => ?_⟩
    all_goals dsimp only at ht ⊢
    · by_cases ht' : t = m.current
      · subst ht'
        rw [pop_self, getLast?_tail hlen]
        exact h.bottom _ ht
      · rw [pop_of_ne ht']
        exact h.bottom t ht
    · have hne : t ≠ m.current := by
        rintro rfl
        rw [h.empty _ ht] at hlen
        simp at hlen
      rw [pop_of_ne hne]
      exact h.empty t ht
  | rotate hthree =>
    refine ⟨h.started_le, fun _ => ?_, h.separate, h.bottom, h.empty⟩
    simp only [hthree]
    exact Nat.mod_lt _ (by omega)

/-- A process is in the stack of one terminal only. -/
theorem Sound.eq_of_mem (h : m.Sound) {t u : ℕ} {q : ℤ} (ht : q ∈ m.stack t) (hu : q ∈ m.stack u) :
    t = u := by
  by_contra hne
  exact h.separate.disjoint t u hne q ht hu

end Terminals

end OS391
