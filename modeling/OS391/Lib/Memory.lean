/-
# Byte loops over a memory

A memory, or the part of it behind a pointer, is a function from offsets to
values.  The loops C code runs over it (`for (i = 0; i < n; i++) dst[i] = ...`)
are recursions on the number of turns, with the offset written in each turn, and
each has one lemma that says what every cell holds afterwards.
-/

import Mathlib.Logic.Function.Basic
import Mathlib.Tactic.Common

namespace OS391
namespace Lib

variable {α : Type*}

/-- `for (count = 0; count < n; count++) (dst + off)[count] = src[count];` -/
def copyLoop (dst : ℕ → α) (off : ℕ) (src : ℕ → α) : ℕ → ℕ → α
  | 0 => dst
  | n + 1 => Function.update (copyLoop dst off src n) (off + n) (src n)

/-- `for (i = 0; i < n; i++) dst[i] = v;` -/
def fillLoop (dst : ℕ → α) (v : α) (n : ℕ) : ℕ → α := copyLoop dst 0 (fun _ => v) n

/-- `for (i = 0; i < n; i++) dst[i] = f(dst[i]);` -/
def mapLoop (f : α → α) (dst : ℕ → α) : ℕ → ℕ → α
  | 0 => dst
  | n + 1 => Function.update (mapLoop f dst n) n (f (mapLoop f dst n n))

/-- **What a copy loop leaves:** the `n` cells from `off` on hold the source, every
other cell is as before. -/
theorem copyLoop_apply (dst : ℕ → α) (off : ℕ) (src : ℕ → α) (n i : ℕ) :
    copyLoop dst off src n i = if off ≤ i ∧ i < off + n then src (i - off) else dst i := by
  induction n with
  | zero => rw [copyLoop, if_neg (by omega)]
  | succ n ih =>
    rw [copyLoop]
    by_cases hi : i = off + n
    · subst hi
      rw [Function.update_self, if_pos (by omega), Nat.add_sub_cancel_left]
    · rw [Function.update_of_ne hi, ih]
      by_cases h : off ≤ i ∧ i < off + n
      · rw [if_pos h, if_pos (by omega)]
      · rw [if_neg h, if_neg (by omega)]

theorem copyLoop_inside {dst : ℕ → α} {off : ℕ} {src : ℕ → α} {n i : ℕ} (h : off ≤ i)
    (h' : i < off + n) : copyLoop dst off src n i = src (i - off) := by
  rw [copyLoop_apply, if_pos ⟨h, h'⟩]

theorem copyLoop_outside {dst : ℕ → α} {off : ℕ} {src : ℕ → α} {n i : ℕ}
    (h : i < off ∨ off + n ≤ i) : copyLoop dst off src n i = dst i := by
  rw [copyLoop_apply, if_neg (by omega)]

theorem copyLoop_start {dst : ℕ → α} {src : ℕ → α} {n i : ℕ} (h : i < n) :
    copyLoop dst 0 src n i = src i := by
  rw [copyLoop_inside (Nat.zero_le i) (by omega), Nat.sub_zero]

theorem fillLoop_apply (dst : ℕ → α) (v : α) (n i : ℕ) :
    fillLoop dst v n i = if i < n then v else dst i := by
  rw [fillLoop, copyLoop_apply]
  simp

theorem mapLoop_apply (f : α → α) (dst : ℕ → α) (n i : ℕ) :
    mapLoop f dst n i = if i < n then f (dst i) else dst i := by
  induction n generalizing i with
  | zero => rw [mapLoop, if_neg (by omega)]
  | succ n ih =>
    rw [mapLoop]
    by_cases hi : i = n
    · subst hi
      rw [Function.update_self, ih, if_neg (by omega), if_pos (by omega)]
    · rw [Function.update_of_ne hi, ih]
      by_cases h : i < n
      · rw [if_pos h, if_pos (by omega)]
      · rw [if_neg h, if_neg (by omega)]

/-- Two copy loops in a row are one, when the second starts where the first
stopped. -/
theorem copyLoop_append (dst : ℕ → α) (off : ℕ) (src src' whole : ℕ → α) {n m : ℕ}
    (h : ∀ i < n, whole i = src i) (h' : ∀ i < m, whole (n + i) = src' i) :
    copyLoop (copyLoop dst off src n) (off + n) src' m = copyLoop dst off whole (n + m) := by
  funext i
  rw [copyLoop_apply, copyLoop_apply, copyLoop_apply]
  by_cases hlt : off + n ≤ i ∧ i < off + n + m
  · rw [if_pos hlt, if_pos (by omega), ← h' (i - (off + n)) (by omega)]
    congr 1
    omega
  · rw [if_neg hlt]
    by_cases hin : off ≤ i ∧ i < off + n
    · rw [if_pos hin, if_pos (by omega), h _ (by omega)]
    · rw [if_neg hin, if_neg (by omega)]

@[simp] theorem copyLoop_zero (dst : ℕ → α) (off : ℕ) (src : ℕ → α) :
    copyLoop dst off src 0 = dst := rfl

/-- The cells of a list, changed one after the other. -/
def mapOver (f : ℕ → α → α) (l : List ℕ) (dst : ℕ → α) : ℕ → α :=
  l.foldl (fun m i => Function.update m i (f i (m i))) dst

/-- Each cell of the list is changed once, the others are as before. -/
theorem mapOver_apply {f : ℕ → α → α} {l : List ℕ} (h : l.Nodup) (dst : ℕ → α) (i : ℕ) :
    mapOver f l dst i = if i ∈ l then f i (dst i) else dst i := by
  induction l generalizing dst with
  | nil => simp [mapOver]
  | cons j l ih =>
    obtain ⟨hj, hl⟩ := List.nodup_cons.1 h
    have hstep : mapOver f (j :: l) dst = mapOver f l (Function.update dst j (f j (dst j))) := rfl
    rw [hstep, ih hl]
    rcases eq_or_ne i j with rfl | hij
    · rw [if_neg hj, if_pos (List.mem_cons_self ..), Function.update_self]
    · simp [hij]

/-! ### Writes that stay in front of a cell -/

/-- The memories agree from cell `n` on. -/
def SameFrom (n : ℕ) (m m' : ℕ → α) : Prop := ∀ i, n ≤ i → m' i = m i

theorem SameFrom.refl (n : ℕ) (m : ℕ → α) : SameFrom n m m := fun _ _ => rfl

theorem SameFrom.trans {n : ℕ} {m m' m'' : ℕ → α} (h : SameFrom n m m') (h' : SameFrom n m' m'') :
    SameFrom n m m'' := fun i hi => (h' i hi).trans (h i hi)

theorem sameFrom_copyLoop {n off k : ℕ} (m src : ℕ → α) (h : off + k ≤ n ∨ k = 0) :
    SameFrom n m (copyLoop m off src k) := fun i hi => copyLoop_outside (by omega)

theorem sameFrom_fillLoop {n k : ℕ} (m : ℕ → α) (v : α) (h : k ≤ n) :
    SameFrom n m (fillLoop m v k) := sameFrom_copyLoop m _ (by omega)

theorem sameFrom_update {n i : ℕ} (m : ℕ → α) (v : α) (h : i < n) :
    SameFrom n m (Function.update m i v) := fun _ hj => Function.update_of_ne (by omega) v m

/-! ### A buffer with a count -/

/-- The first `n` cells, in order. -/
def cells (m : ℕ → α) (n : ℕ) : List α := (List.range n).map m

@[simp] theorem cells_zero (m : ℕ → α) : cells m 0 = [] := rfl

@[simp] theorem length_cells (m : ℕ → α) (n : ℕ) : (cells m n).length = n := by simp [cells]

theorem cells_congr {m m' : ℕ → α} {n : ℕ} (h : ∀ i < n, m i = m' i) : cells m n = cells m' n :=
  List.map_congr_left fun i hi => h i (List.mem_range.mp hi)

theorem cells_succ (m : ℕ → α) (n : ℕ) : cells m (n + 1) = cells m n ++ [m n] := by
  simp [cells, List.range_succ]

/-- A value written behind the cells is one cell more. -/
theorem cells_push (m : ℕ → α) (n : ℕ) (v : α) :
    cells (Function.update m n v) (n + 1) = cells m n ++ [v] := by
  rw [cells_succ, Function.update_self]
  exact congrArg (· ++ [v]) (cells_congr fun i hi => Function.update_of_ne (by omega) v m)

/-- A value written over the last cell leaves the others. -/
theorem cells_pop (m : ℕ → α) (n : ℕ) (v : α) :
    cells (Function.update m n v) n = (cells m (n + 1)).dropLast := by
  rw [cells_succ, List.dropLast_concat]
  exact cells_congr fun i hi => Function.update_of_ne (by omega) v m

-- The turns of a loop over a page or a file are never to be unrolled.
attribute [irreducible] copyLoop mapLoop

end Lib
end OS391
