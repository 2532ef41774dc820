/-
# Numbers as text

`itoa` and `strrev` (`student-distrib/lib.c`).  `itoa` puts the digits of a number in the buffer
from the last to the first, a NUL behind them, and has `strrev` reverse the string where it is.
What is then in the buffer is the numeral of the number in the usual order, and nothing else has
changed (`itoa_eq`); it can be read back (`numeralValue_numeral`), and it is as short as its
radix allows (`length_numeral_le`).
-/

import OS391.Lookup
import OS391.Lib.Reverse
import Mathlib.Data.Nat.Digits.Lemmas

namespace OS391

open Lib

/-! ### The functions -/

/-- `lookup` of `itoa` -/
def digitChars : List UInt8 := ascii "0123456789ABCDEFGHIJKLMNOPQRSTUVWXYZ".toList

/-- The `while` loop of `itoa`, at most `k` turns: the buffer and `newbuf` after it. -/
def itoaLoop (radix : ℕ) : ℕ → ℕ → ℕ → (ℕ → UInt8) → (ℕ → UInt8) × ℕ
  | 0, _, newbuf, buf => (buf, newbuf)
  | k + 1, newval, newbuf, buf =>
    if 0 < newval then
      itoaLoop radix k (newval / radix) (newbuf + 1)
        (Function.update buf newbuf (digitChars.getD (newval % radix) 0))
    else (buf, newbuf)

/-- `strrev` of a string that ends in the first `k` cells. -/
def strrev (k : ℕ) (s : ℕ → UInt8) : ℕ → UInt8 := reverseLoop s k 0 (strnlen s k - 1)

/-- `itoa`.  A `uint32_t` has at most 32 digits. -/
def itoa (value : ℕ) (buf : ℕ → UInt8) (radix : ℕ) : ℕ → UInt8 :=
  if value = 0 then Function.update (Function.update buf 0 48) 1 0
  else
    let (buf, newbuf) := itoaLoop radix 32 value 0 buf
    strrev 33 (Function.update buf newbuf 0)

/-! ### Numerals -/

/-- The numeral of a number, its first digit first. -/
def numeral (radix value : ℕ) : List UInt8 :=
  if value = 0 then [48] else ((Nat.digits radix value).map (digitChars.getD · 0)).reverse

/-- The number of a numeral. -/
def numeralValue (radix : ℕ) (text : List UInt8) : ℕ :=
  text.foldl (fun n c => n * radix + digitChars.idxOf c) 0

section Numeral

variable {radix value k : ℕ}

/-- The character of a digit, and back. -/
theorem idxOf_digitChars {d : ℕ} (h : d < 36) : digitChars.idxOf (digitChars.getD d 0) = d := by
  have hall : ∀ d < 36, digitChars.idxOf (digitChars.getD d 0) = d := by decide +kernel
  exact hall d h

theorem digitChars_ne_zero {d : ℕ} (h : d < 36) : digitChars.getD d 0 ≠ 0 := by
  have hall : ∀ d < 36, digitChars.getD d 0 ≠ 0 := by decide +kernel
  exact hall d h

/-- The digits of a number are below its radix. -/
theorem digit_lt (hradix : 2 ≤ radix) (hmax : radix ≤ 36) {d : ℕ}
    (hd : d ∈ Nat.digits radix value) : d < 36 :=
  Nat.lt_of_lt_of_le (Nat.digits_lt_base hradix hd) hmax

/-- **A numeral is read back** as the number it was written for. -/
theorem numeralValue_numeral (hradix : 2 ≤ radix) (hmax : radix ≤ 36) (value : ℕ) :
    numeralValue radix (numeral radix value) = value := by
  rw [numeral]
  split_ifs with hzero
  · rw [hzero, numeralValue, List.foldl_cons, List.foldl_nil, Nat.zero_mul, Nat.zero_add]
    exact idxOf_digitChars (show 0 < 36 by omega)
  · have hfold : ∀ ds : List ℕ, (∀ d ∈ ds, d < 36) →
        numeralValue radix (ds.map (digitChars.getD · 0)).reverse = Nat.ofDigits radix ds := by
      intro ds hds
      rw [numeralValue, List.foldl_reverse, List.foldr_map]
      induction ds with
      | nil => rfl
      | cons d ds ih =>
        rw [List.foldr_cons, ih fun e he => hds e (List.mem_cons_of_mem d he),
          idxOf_digitChars (hds d (List.mem_cons_self ..)), Nat.ofDigits_cons, Nat.mul_comm,
          Nat.add_comm]
    rw [hfold _ fun d hd => digit_lt hradix hmax hd, Nat.ofDigits_digits]

theorem zero_notMem_numeral (hradix : 2 ≤ radix) (hmax : radix ≤ 36) :
    (0 : UInt8) ∉ numeral radix value := by
  rw [numeral]
  split_ifs
  · decide
  · intro hmem
    obtain ⟨d, hd, hzero⟩ := List.mem_map.1 (List.mem_reverse.1 hmem)
    exact digitChars_ne_zero (digit_lt hradix hmax hd) hzero

/-- A number below `radix ^ k` has at most `k` digits. -/
theorem length_numeral_le (hradix : 2 ≤ radix) (hk : 0 < k) (h : value < radix ^ k) :
    (numeral radix value).length ≤ k := by
  rw [numeral]
  split_ifs
  · exact hk
  · rw [List.length_reverse, List.length_map]
    exact (Nat.digits_length_le_iff hradix value).2 h

end Numeral

/-! ### What `itoa` leaves -/

section Itoa

variable {radix value k : ℕ}

/-- **The loop** writes the digits, the last one first. -/
theorem itoaLoop_eq (hradix : 2 ≤ radix) (h : value < radix ^ k) (off : ℕ) (buf : ℕ → UInt8) :
    itoaLoop radix k value off buf =
      (writeAll buf off ((Nat.digits radix value).map (digitChars.getD · 0)),
        off + (Nat.digits radix value).length) := by
  induction k generalizing value off buf with
  | zero =>
    obtain rfl : value = 0 := by simpa using h
    rw [Nat.digits_zero]
    rfl
  | succ k ih =>
    rw [itoaLoop]
    rcases Nat.eq_zero_or_pos value with rfl | hpos
    · rw [if_neg (Nat.lt_irrefl 0), Nat.digits_zero]
      rfl
    · rw [if_pos hpos, ih (Nat.div_lt_of_lt_mul (by rwa [← Nat.pow_succ'])),
        Nat.digits_def' hradix hpos, List.map_cons, List.length_cons, writeAll, Nat.add_assoc,
        Nat.add_comm 1]

/-- A string with its terminator. -/
theorem strnlen_writeAll (buf : ℕ → UInt8) {text : List UInt8} (hnul : (0 : UInt8) ∉ text)
    {n : ℕ} (hn : text.length ≤ n) : strnlen (writeAll buf 0 (text ++ [0])) n = text.length := by
  refine strnlen_eq hn (fun i hi hzero => ?_) fun _ => ?_
  · rw [writeAll_start, List.getD_append _ _ _ _ hi, List.getD_eq_getElem _ _ hi] at hzero
    exact hnul (hzero ▸ List.getElem_mem hi)
  · rw [writeAll_start, List.getD_append_right _ _ _ _ (Nat.le_refl _), Nat.sub_self]
    rfl

/-- `strrev` reverses a string where it is. -/
theorem strrev_writeAll (buf : ℕ → UInt8) {text : List UInt8} (hnul : (0 : UInt8) ∉ text)
    (hk : text.length ≤ k) :
    strrev k (writeAll buf 0 (text ++ [0])) = writeAll buf 0 (text.reverse ++ [0]) := by
  rw [strrev, strnlen_writeAll buf hnul hk, ← writeAll_update, reverseLoop_writeAll _ _ (by omega),
    ← text.length_reverse, writeAll_update]

/-- **What `itoa` leaves**: the numeral with a NUL behind it, and the rest of the buffer as it
was. -/
theorem itoa_eq (hradix : 2 ≤ radix) (hmax : radix ≤ 36) (h : value < 2 ^ 32)
    (buf : ℕ → UInt8) : itoa value buf radix = writeAll buf 0 (numeral radix value ++ [0]) := by
  rw [itoa, numeral]
  split_ifs with hzero
  · rfl
  · have hdigits : value < radix ^ 32 := Nat.lt_of_lt_of_le h (Nat.pow_le_pow_left hradix 32)
    have hlen : (Nat.digits radix value).length ≤ 32 := (Nat.digits_length_le_iff hradix value).2 hdigits
    have hnul : (0 : UInt8) ∉ (Nat.digits radix value).map (digitChars.getD · 0) := by
      intro hmem
      obtain ⟨d, hd, hzero⟩ := List.mem_map.1 hmem
      exact digitChars_ne_zero (digit_lt hradix hmax hd) hzero
    rw [itoaLoop_eq hradix hdigits]
    have hupdate := update_writeAll buf ((Nat.digits radix value).map (digitChars.getD · 0)) 0
    rw [List.length_map] at hupdate
    simp only [Nat.zero_add]
    rw [hupdate, strrev_writeAll buf hnul (by rw [List.length_map]; omega)]

/-- A numeral begins with a zero for zero only. -/
theorem head_numeral (hradix : 2 ≤ radix) (hmax : radix ≤ 36)
    (h : (numeral radix value).head? = some 48) : value = 0 := by
  by_contra hzero
  have hne : Nat.digits radix value ≠ [] := Nat.digits_ne_nil_iff_ne_zero.2 hzero
  have hlast := Nat.getLast_digit_ne_zero radix hzero
  rw [numeral, if_neg hzero, List.head?_reverse, List.getLast?_map,
    List.getLast?_eq_some_getLast hne] at h
  have hlt := digit_lt hradix hmax (List.getLast_mem hne)
  have hindex := idxOf_digitChars hlt
  have hchar : digitChars.getD ((Nat.digits radix value).getLast hne) 0 = 48 := Option.some.inj h
  rw [hchar] at hindex
  exact hlast hindex.symm

/-- **`itoa` writes a number as text**: without leading zeros, in at most 32 characters, with a
NUL behind it and nothing else changed, so that the number can be read back. -/
theorem itoa_spec (hradix : 2 ≤ radix) (hmax : radix ≤ 36) (h : value < 2 ^ 32)
    (buf : ℕ → UInt8) :
    ∃ text : List UInt8, itoa value buf radix = writeAll buf 0 (text ++ [0]) ∧
      (0 : UInt8) ∉ text ∧ text.length ≤ 32 ∧ (text.head? = some 48 → value = 0) ∧
      numeralValue radix text = value :=
  ⟨numeral radix value, itoa_eq hradix hmax h buf, zero_notMem_numeral hradix hmax,
    length_numeral_le hradix (by omega) (Nat.lt_of_lt_of_le h (Nat.pow_le_pow_left hradix 32)),
    head_numeral hradix hmax, numeralValue_numeral hradix hmax value⟩

/-- The largest number in hexadecimal. -/
theorem itoa_spec_hex :
    ∃ text : List UInt8, itoa 0xFFFFFFFF (fun _ => 0) 16 = writeAll (fun _ => 0) 0 (text ++ [0]) ∧
      (0 : UInt8) ∉ text ∧ text.length ≤ 32 ∧ (text.head? = some 48 → 0xFFFFFFFF = 0) ∧
      numeralValue 16 text = 0xFFFFFFFF :=
  itoa_spec (by omega) (by omega) (by omega) (fun _ => 0)

end Itoa

end OS391
