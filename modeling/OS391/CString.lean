/-
# The string functions of `lib.c`

`strlen`, `strncmp` and `strncpy` (`student-distrib/lib.c`).  A string the kernel
is handed is NUL-terminated: a `CString` is its bytes before the terminator, and
`CString.get` reads it as memory, with the terminator at index `strlen`.  The
fixed-width fields of the file system are not terminated when they are full, so the
two bounded functions take memory, not a `CString`.
-/

import OS391.Lib.Memory
import Mathlib.Data.Int.Notation

namespace OS391

open Lib

/-- A NUL-terminated string: its bytes before the terminator. -/
structure CString where
  bytes : List UInt8
  noNul : (0 : UInt8) ∉ bytes
  deriving DecidableEq

/-- The bytes of an ASCII text. -/
def ascii (cs : List Char) : List UInt8 := cs.map fun c => UInt8.ofNat c.toNat

namespace CString

/-- `strlen` -/
def strlen (s : CString) : ℕ := s.bytes.length

/-- The string as memory: its bytes, then the terminator. -/
def get (s : CString) (i : ℕ) : UInt8 := s.bytes.getD i 0

end CString

/-- A `char` read as a signed number. -/
def int8 (b : UInt8) : ℤ := if b.toNat < 128 then b.toNat else b.toNat - 256

/-- `strncmp`: the difference at the first of the `n` positions where the strings
differ or `s₁` ends, `0` if there is none. -/
def strncmp (s₁ s₂ : ℕ → UInt8) : ℕ → ℤ
  | 0 => 0
  | n + 1 =>
    if s₁ 0 ≠ s₂ 0 ∨ s₁ 0 = 0 then int8 (s₁ 0) - int8 (s₂ 0)
    else strncmp (fun i => s₁ (i + 1)) (fun i => s₂ (i + 1)) n

/-- How many of the first `n` bytes stand before the first NUL. -/
def strnlen (s : ℕ → UInt8) : ℕ → ℕ
  | 0 => 0
  | n + 1 => if s 0 = 0 then 0 else strnlen (fun i => s (i + 1)) n + 1

/-- **The bytes before the first NUL** are as many as stand before it. -/
theorem strnlen_eq {s : ℕ → UInt8} {n k : ℕ} (hk : k ≤ n) (hne : ∀ i < k, s i ≠ 0)
    (hend : k < n → s k = 0) : strnlen s n = k := by
  induction n generalizing s k with
  | zero => rw [strnlen, Nat.le_zero.1 hk]
  | succ n ih =>
    rw [strnlen]
    cases k with
    | zero => rw [if_pos (hend (Nat.succ_pos n))]
    | succ k =>
      rw [if_neg (hne 0 (Nat.succ_pos k)), ih (Nat.le_of_succ_le_succ hk)
        (fun i hi => hne (i + 1) (Nat.succ_lt_succ hi)) fun h => hend (Nat.succ_lt_succ h)]

/-- `strncpy`: the bytes of `src` up to its NUL or to `n`, then NULs up to `n`. -/
def strncpy (dest src : ℕ → UInt8) (n : ℕ) : ℕ → UInt8 :=
  copyLoop (copyLoop dest 0 src (strnlen src n)) (strnlen src n) (fun _ => 0)
    (n - strnlen src n)

end OS391
