/-
# `printf`

`puts` and `printf` (`student-distrib/lib.c`).  `printf` walks over its format with a pointer
that stops at a NUL, and a `%` makes it look one character ahead, past any number of `#`s, for
the kind of the argument to print.

A format is text and conversions, one after the other (`Piece`), unless it ends in the middle of
a conversion.  Of the first kind `printf` prints what the pieces say, in order, each with its
argument (`printf_spec`); at the end of the others it steps over the NUL, and what it does
then is up to the memory behind the format (`staysInFormat_iff`).
-/

import OS391.Console
import OS391.Itoa

namespace OS391

open Lib

/-! ### The functions -/

/-- The words on the stack above the format, and the strings at their addresses. -/
structure VarArgs where
  word : ℕ → BitVec 32
  string : BitVec 32 → CString

/-- The running variables of `printf`: `buf - format`, the words of the stack used, and the
screen. -/
@[ext] structure PrintState where
  buf : ℕ
  esp : ℕ
  console : Console

/-- The loop of `puts` from `index` on, at most `k` turns: the number of bytes and the screen. -/
def puts (s : ℕ → UInt8) : ℕ → ℕ → Console → ℕ × Console
  | 0, index, c => (index, c)
  | k + 1, index, c => if s index = 0 then (index, c) else puts s k (index + 1) (c.putc (s index))

/-- `itoa(value, &buf[off], radix)` -/
def itoaAt (value : ℕ) (buf : ℕ → UInt8) (off radix : ℕ) : ℕ → UInt8 := fun i =>
  if i < off then buf i else itoa value (fun j => buf (off + j)) radix (i - off)

/-- `case 'x'`, with what is in `conv_buf` before. -/
def printHex (alternate : Bool) (value : ℕ) (convBuf : ℕ → UInt8) (c : Console) : Console :=
  if !alternate then (puts (itoa value convBuf 16) 64 0 c).2
  else
    let convBuf := itoaAt value convBuf 8 16
    let startingIndex := strnlen (fun i => convBuf (8 + i)) 56
    let convBuf := copyLoop convBuf startingIndex (fun _ => 48) (8 - startingIndex)
    (puts (fun i => convBuf (startingIndex + i)) 64 0 c).2

/-- `case 'd'` -/
def printSigned (value : ℤ) (convBuf : ℕ → UInt8) (c : Console) : Console :=
  if value < 0 then
    (puts (itoaAt (u32 (i32 (-value))).toNat (Function.update convBuf 0 45) 1 10) 36 0 c).2
  else (puts (itoa value.toNat convBuf 10) 36 0 c).2

section Printf

variable (va : VarArgs) (junk : ℕ → UInt8) (fmt : ℕ → UInt8)

/-- The conversion specifiers, but for the `#`. -/
def conversion (alternate : Bool) (c : UInt8) (st : PrintState) : PrintState :=
  if c = 37 then { st with console := st.console.putc 37 }
  else if c = 120 then
    { st with
      console := printHex alternate (va.word st.esp).toNat junk st.console, esp := st.esp + 1 }
  else if c = 117 then
    { st with
      console := (puts (itoa (va.word st.esp).toNat junk 10) 36 0 st.console).2, esp := st.esp + 1 }
  else if c = 100 then
    { st with
      console := printSigned (va.word st.esp).toInt junk st.console, esp := st.esp + 1 }
  else if c = 99 then
    { st with
      console := st.console.putc (UInt8.ofNat (va.word st.esp).toNat), esp := st.esp + 1 }
  else if c = 115 then
    let s := va.string (va.word st.esp)
    { st with console := (puts s.get (s.strlen + 1) 0 st.console).2, esp := st.esp + 1 }
  else st

/-- `format_char_switch`, at most `k` times. -/
def formatCharSwitch : ℕ → Bool → PrintState → PrintState
  | 0, _, st => st
  | k + 1, alternate, st =>
    if fmt st.buf = 35 then formatCharSwitch k true { st with buf := st.buf + 1 }
    else conversion va junk alternate (fmt st.buf) st

/-- The loop of `printf`, at most `k` turns. -/
def printfLoop : ℕ → PrintState → PrintState
  | 0, st => st
  | k + 1, st =>
    if fmt st.buf = 0 then st
    else
      let st := if fmt st.buf = 37 then
          formatCharSwitch va junk fmt k false { st with buf := st.buf + 1 }
        else { st with console := st.console.putc (fmt st.buf) }
      printfLoop k { st with buf := st.buf + 1 }

/-- `printf` with at most `k` turns of its loop: the return value and the screen. -/
def printf (k : ℕ) (c : Console) : ℕ × Console :=
  let st := printfLoop va junk fmt k ⟨0, 0, c⟩
  (st.buf, st.console)

end Printf

/-! ### Formats -/

/-- Digits with zeros in front of them, eight in all. -/
def padded (digits : List UInt8) : List UInt8 := List.replicate (8 - digits.length) 48 ++ digits

/-- A character of text, or a conversion with its `#`s. -/
inductive Piece
  | text (c : UInt8)
  | spec (hashes : ℕ) (c : UInt8)
  deriving DecidableEq

namespace Piece

def bytes : Piece → List UInt8
  | text c => [c]
  | spec hashes c => 37 :: (List.replicate hashes 35 ++ [c])

def Valid : Piece → Prop
  | text c => c ≠ 0 ∧ c ≠ 37
  | spec _ c => c ≠ 35

instance : DecidablePred Valid
  | text _ => inferInstanceAs (Decidable (_ ∧ _))
  | spec _ _ => inferInstanceAs (Decidable (_ ≠ _))

theorem length_bytes_pos (p : Piece) : 0 < p.bytes.length := by
  cases p <;> exact Nat.succ_pos _

/-- Whether the conversion takes a word from the stack. -/
def takes : Piece → ℕ
  | text _ => 0
  | spec _ c => if c ∈ [120, 117, 100, 99, 115] then 1 else 0

/-- A number in hexadecimal, with eight digits after a `#`. -/
def hexText (alternate : Bool) (value : ℕ) : List UInt8 :=
  let digits := numeral 16 value
  if alternate then padded digits else digits

/-- A number with its sign. -/
def signedText (value : ℤ) : List UInt8 :=
  if value < 0 then 45 :: numeral 10 value.natAbs else numeral 10 value.natAbs

/-- What a piece prints when the next word on the stack is `w`. -/
def render (va : VarArgs) (w : BitVec 32) : Piece → List UInt8
  | text c => [c]
  | spec hashes c =>
    if c = 37 then [37]
    else if c = 120 then hexText (0 < hashes) w.toNat
    else if c = 117 then numeral 10 w.toNat
    else if c = 100 then signedText w.toInt
    else if c = 99 then [UInt8.ofNat w.toNat]
    else if c = 115 then (va.string w).bytes
    else []

end Piece

/-- The text of a format. -/
def formatText (ps : List Piece) : List UInt8 := ps.flatMap Piece.bytes

/-- What the pieces print, from word `esp` of the stack on. -/
def renderAll (va : VarArgs) : ℕ → List Piece → List UInt8
  | _, [] => []
  | esp, p :: ps => p.render va (va.word esp) ++ renderAll va (esp + p.takes) ps

/-! ### What is printed -/

section Puts

variable {s : ℕ → UInt8} {text : List UInt8} {k index : ℕ}

/-- **`puts` prints a string** up to its NUL. -/
theorem puts_eq (hnul : (0 : UInt8) ∉ text) (hk : text.length < k)
    (hs : ∀ i ≤ text.length, s (index + i) = text.getD i 0) (c : Console) :
    puts s k index c = (index + text.length, c.printf text) := by
  induction text generalizing k index c with
  | nil =>
    obtain ⟨k, rfl⟩ := Nat.exists_eq_add_of_lt hk
    have hzero : s index = 0 := hs 0 (Nat.le_refl 0)
    rw [puts, if_pos hzero]
    rfl
  | cons x text ih =>
    obtain ⟨k, rfl⟩ := Nat.exists_eq_add_of_lt hk
    rw [List.mem_cons, not_or] at hnul
    have hx : s index = x := hs 0 (Nat.zero_le _)
    rw [puts, if_neg (by rw [hx]; exact Ne.symm hnul.1), ih hnul.2 (by simp; omega) (fun i hi => ?_),
      hx]
    · simp [Console.printf, Nat.add_comm, Nat.add_left_comm]
    · have := hs (i + 1) (by simpa using hi)
      rwa [show index + 1 + i = index + (i + 1) by omega]

/-- A text with its terminator, read as memory. -/
theorem getD_terminated (text : List UInt8) {i : ℕ} (hi : i ≤ text.length) (d : UInt8) :
    (text ++ [0]).getD i d = text.getD i 0 := by
  rcases Nat.lt_or_eq_of_le hi with hlt | rfl
  · rw [List.getD_append _ _ _ _ hlt, List.getD_eq_getElem _ _ hlt, List.getD_eq_getElem _ _ hlt]
  · rw [List.getD_append_right _ _ _ _ (Nat.le_refl _), Nat.sub_self,
      List.getD_eq_default _ _ (Nat.le_refl _)]
    rfl

/-- `puts` of a numeral in a buffer. -/
theorem puts_itoa {value radix : ℕ} (hradix : 2 ≤ radix) (hmax : radix ≤ 36)
    (h : value < 2 ^ 32) (hk : (numeral radix value).length < k) (buf : ℕ → UInt8) (c : Console) :
    (puts (itoa value buf radix) k 0 c).2 = c.printf (numeral radix value) := by
  have hs : ∀ i ≤ (numeral radix value).length,
      itoa value buf radix (0 + i) = (numeral radix value).getD i 0 := by
    intro i hi
    rw [itoa_eq hradix hmax h, Nat.zero_add, writeAll_start, getD_terminated _ hi]
  rw [puts_eq (zero_notMem_numeral hradix hmax) hk hs]

/-- `itoa` from a cell on. -/
theorem itoaAt_eq {value radix : ℕ} (hradix : 2 ≤ radix) (hmax : radix ≤ 36)
    (h : value < 2 ^ 32) (buf : ℕ → UInt8) (off : ℕ) :
    itoaAt value buf off radix = writeAll buf off (numeral radix value ++ [0]) := by
  funext i
  rw [itoaAt, writeAll_apply, itoa_eq hradix hmax h, writeAll_start]
  rcases Nat.lt_or_ge i off with hlt | hge
  · rw [if_pos hlt, if_neg (by omega)]
  · rw [if_neg (by omega), if_pos hge, show off + (i - off) = i by omega]

section Padded

variable {digits : List UInt8} {i : ℕ}

theorem length_padded (h : digits.length ≤ 8) : (padded digits).length = 8 := by
  rw [padded, List.length_append, List.length_replicate]
  omega

theorem zero_notMem_padded (h : (0 : UInt8) ∉ digits) : (0 : UInt8) ∉ padded digits := by
  simp [padded, h]

/-- The buffer of `%#x`: the zeros end where the digits begin. -/
theorem padded_apply (buf : ℕ → UInt8) (h : digits.length ≤ 8) (hi : i ≤ (padded digits).length) :
    copyLoop (writeAll buf 8 (digits ++ [0])) digits.length (fun _ => 48) (8 - digits.length)
      (digits.length + i) = (padded digits).getD i 0 := by
  rw [length_padded h] at hi
  rcases Nat.lt_or_ge i (8 - digits.length) with hlt | hge
  · rw [copyLoop_inside (by omega) (by omega), padded,
      List.getD_append _ _ _ _ (by rwa [List.length_replicate]), List.getD_replicate _ hlt]
  · rw [copyLoop_outside (by omega), writeAll_apply, if_pos (by omega),
      getD_terminated _ (by omega), padded,
      List.getD_append_right _ _ _ _ (by rwa [List.length_replicate]), List.length_replicate]
    congr 1
    omega

end Padded

/-- A number in hexadecimal. -/
theorem printHex_eq (alternate : Bool) {value : ℕ} (h : value < 2 ^ 32) (convBuf : ℕ → UInt8)
    (c : Console) :
    printHex alternate value convBuf c = c.printf (Piece.hexText alternate value) := by
  have hlen : (numeral 16 value).length ≤ 8 := length_numeral_le (by omega) (by omega) h
  have hnul : (0 : UInt8) ∉ numeral 16 value := zero_notMem_numeral (by omega) (by omega)
  rw [printHex, Piece.hexText]
  cases alternate with
  | false => exact puts_itoa (by omega) (by omega) h (by omega) convBuf c
  | true =>
    have htail : (fun i => itoaAt value convBuf 8 16 (8 + i)) =
        itoa value (fun j => convBuf (8 + j)) 16 := by
      funext i
      rw [itoaAt, if_neg (by omega), Nat.add_sub_cancel_left]
    have hstart : strnlen (fun i => itoaAt value convBuf 8 16 (8 + i)) 56 =
        (numeral 16 value).length := by
      rw [htail, itoa_eq (by omega) (by omega) h, strnlen_writeAll _ hnul (by omega)]
    simp only [hstart]
    rw [itoaAt_eq (by omega) (by omega) h]
    exact congrArg Prod.snd (puts_eq (zero_notMem_padded hnul) (by rw [length_padded hlen]; omega)
      (fun i hi => by simpa using padded_apply convBuf hlen hi) c)

/-- A number with its sign. -/
theorem printSigned_eq {value : ℤ} (hmin : -2 ^ 31 ≤ value) (hmax : value < 2 ^ 31)
    (convBuf : ℕ → UInt8) (c : Console) :
    printSigned value convBuf c = c.printf (Piece.signedText value) := by
  rw [printSigned, Piece.signedText]
  have hlen : ∀ n < 2 ^ 32, (numeral 10 n).length ≤ 10 := fun n hn =>
    length_numeral_le (by omega) (by omega) (by omega)
  rcases Int.lt_or_le value 0 with hneg | hpos
  · have habs : (u32 (i32 (-value))).toNat = value.natAbs := by
      unfold u32 i32
      omega
    have hbound : value.natAbs < 2 ^ 32 := by omega
    have hs : ∀ i ≤ (45 :: numeral 10 value.natAbs).length,
        itoaAt value.natAbs (Function.update convBuf 0 45) 1 10 (0 + i) =
          (45 :: numeral 10 value.natAbs).getD i 0 := by
      intro i hi
      rw [itoaAt_eq (by omega) (by omega) hbound, writeAll_apply, Nat.zero_add]
      cases i with
      | zero => rfl
      | succ i =>
        rw [if_pos (by omega), Nat.add_sub_cancel, getD_terminated _ (by simpa using hi)]
        rfl
    have hnul : (0 : UInt8) ∉ 45 :: numeral 10 value.natAbs := by
      rw [List.mem_cons, not_or]
      exact ⟨by decide, zero_notMem_numeral (by omega) (by omega)⟩
    have hdigits := hlen _ hbound
    rw [if_pos hneg, if_pos hneg, habs, puts_eq hnul (by rw [List.length_cons]; omega) hs]
  · rw [if_neg (by omega), if_neg (by omega), show value.toNat = value.natAbs by omega]
    have hdigits := hlen value.natAbs (by omega)
    exact puts_itoa (by omega) (by omega) (by omega) (by omega) convBuf c

end Puts

/-! ### The loop -/

section Loop

variable {va : VarArgs} {junk fmt : ℕ → UInt8} {k : ℕ} {st : PrintState}

/-- The state behind a piece. -/
def PrintState.behind (st : PrintState) (va : VarArgs) (p : Piece) : PrintState where
  buf := st.buf + p.bytes.length
  esp := st.esp + p.takes
  console := st.console.printf (p.render va (va.word st.esp))

/-- A conversion prints its argument. -/
theorem conversion_eq (hashes : ℕ) (c : UInt8) :
    conversion va junk (0 < hashes) c st =
      { st with
        esp := st.esp + (Piece.spec hashes c).takes
        console := st.console.printf ((Piece.spec hashes c).render va (va.word st.esp)) } := by
  have hword := (va.word st.esp).isLt
  have hten : (numeral 10 (va.word st.esp).toNat).length ≤ 10 :=
    length_numeral_le (by omega) (by omega) (by omega)
  rw [conversion, Piece.render, Piece.takes]
  rcases eq_or_ne c 37 with rfl | h₁
  · simp [Console.printf]
  rcases eq_or_ne c 120 with rfl | h₂
  · simp [printHex_eq _ hword]
  rcases eq_or_ne c 117 with rfl | h₃
  · simp [puts_itoa (show 2 ≤ 10 by omega) (show 10 ≤ 36 by omega) hword
      (show (numeral 10 (va.word st.esp).toNat).length < 36 by omega)]
  rcases eq_or_ne c 100 with rfl | h₄
  · simp [printSigned_eq (va.word st.esp).le_toInt (va.word st.esp).toInt_lt]
  rcases eq_or_ne c 99 with rfl | h₅
  · simp [Console.printf]
  rcases eq_or_ne c 115 with rfl | h₆
  · have hputs := puts_eq (k := (va.string (va.word st.esp)).strlen + 1)
      (va.string (va.word st.esp)).noNul (Nat.lt_succ_self _)
      (fun i _ => congrArg (va.string (va.word st.esp)).get (Nat.zero_add i)) st.console
    simp [hputs]
  · simp [h₁, h₂, h₃, h₄, h₅, h₆, Console.printf]

/-- The `#`s before a specifier. -/
theorem formatCharSwitch_eq {hashes : ℕ} {c : UInt8} (hk : hashes < k)
    (hhash : ∀ i < hashes, fmt (st.buf + i) = 35) (hc : fmt (st.buf + hashes) = c) (hne : c ≠ 35)
    (alternate : Bool) :
    formatCharSwitch va junk fmt k alternate st =
      conversion va junk (alternate || 0 < hashes) c { st with buf := st.buf + hashes } := by
  induction hashes generalizing k st alternate with
  | zero =>
    obtain ⟨k, rfl⟩ := Nat.exists_eq_add_of_lt hk
    have hc' : fmt st.buf = c := hc
    simp only [formatCharSwitch, hc', if_neg hne]
    simp
  | succ n ih =>
    obtain ⟨k, rfl⟩ := Nat.exists_eq_add_of_lt hk
    have hfirst : fmt st.buf = 35 := hhash 0 (Nat.succ_pos n)
    have hrest : ∀ i < n, fmt (st.buf + 1 + i) = 35 := by
      intro i hi
      have := hhash (i + 1) (by omega)
      rwa [← Nat.add_assoc, Nat.add_right_comm] at this
    have hlast : fmt (st.buf + 1 + n) = c := by
      rwa [← Nat.add_assoc, Nat.add_right_comm] at hc
    have hnext : formatCharSwitch va junk fmt (n + 1 + k) true { st with buf := st.buf + 1 } = _ :=
      ih (by omega) hrest hlast true
    rw [formatCharSwitch, if_pos hfirst, hnext]
    simp [Nat.add_assoc, Nat.add_comm 1]

/-- **A turn of the loop** prints one piece. -/
theorem printfLoop_piece {p : Piece} (hp : p.Valid) (hk : p.bytes.length ≤ k + 1)
    (hfmt : ∀ i < p.bytes.length, fmt (st.buf + i) = p.bytes.getD i 0) :
    printfLoop va junk fmt (k + 1) st = printfLoop va junk fmt k (st.behind va p) := by
  cases p with
  | text c =>
    obtain ⟨hne, hpercent⟩ := hp
    have hc : fmt st.buf = c := hfmt 0 (Nat.succ_pos 0)
    rw [printfLoop, if_neg (by rwa [hc])]
    simp only [hc, if_neg hpercent]
    rfl
  | spec hashes c =>
    have hfirst : fmt st.buf = 37 := hfmt 0 (Nat.succ_pos _)
    have hlen : (Piece.spec hashes c).bytes.length = hashes + 2 := by simp [Piece.bytes]
    have hhash : ∀ i < hashes, fmt (st.buf + 1 + i) = 35 := by
      intro i hi
      rw [Nat.add_assoc, Nat.add_comm 1, hfmt _ (by omega), Piece.bytes, List.getD_cons_succ,
        List.getD_append _ _ _ _ (by rwa [List.length_replicate]), List.getD_replicate _ hi]
    have hc : fmt (st.buf + 1 + hashes) = c := by
      rw [Nat.add_assoc, Nat.add_comm 1, hfmt _ (by omega), Piece.bytes, List.getD_cons_succ,
        List.getD_append_right _ _ _ _ (by rw [List.length_replicate]), List.length_replicate,
        Nat.sub_self]
      rfl
    have hswitch :
        formatCharSwitch va junk fmt k false { st with buf := st.buf + 1 } = _ :=
      formatCharSwitch_eq (by omega) hhash hc hp false
    rw [printfLoop, if_neg (by rw [hfirst]; decide)]
    simp only [hfirst, if_true, hswitch, Bool.false_or, conversion_eq]
    rw [PrintState.behind, hlen, show st.buf + 1 + hashes + 1 = st.buf + (hashes + 2) by omega]

/-- The state behind the pieces. -/
def PrintState.behindAll (va : VarArgs) : List Piece → PrintState → PrintState
  | [], st => st
  | p :: ps, st => behindAll va ps (st.behind va p)

/-- **The loop** prints the pieces. -/
theorem printfLoop_pieces {ps : List Piece} (hps : ∀ p ∈ ps, p.Valid)
    (hk : (formatText ps).length ≤ k)
    (hfmt : ∀ i < (formatText ps).length, fmt (st.buf + i) = (formatText ps).getD i 0) :
    printfLoop va junk fmt k st =
      printfLoop va junk fmt (k - ps.length) (st.behindAll va ps) := by
  induction ps generalizing k st with
  | nil => rfl
  | cons p ps ih =>
    have hlen : (formatText (p :: ps)).length = p.bytes.length + (formatText ps).length :=
      List.length_append
    have hpos : 0 < p.bytes.length := p.length_bytes_pos
    obtain ⟨k, rfl⟩ : ∃ n, k = n + 1 := ⟨k - 1, by omega⟩
    have hhead : ∀ i < p.bytes.length, fmt (st.buf + i) = p.bytes.getD i 0 := by
      intro i hi
      rw [hfmt i (by omega)]
      exact List.getD_append _ _ _ _ hi
    have htail : ∀ i < (formatText ps).length,
        fmt ((st.behind va p).buf + i) = (formatText ps).getD i 0 := by
      intro i hi
      rw [PrintState.behind, Nat.add_assoc, hfmt _ (by omega)]
      refine (List.getD_append_right p.bytes _ _ _ (Nat.le_add_right ..)).trans ?_
      rw [Nat.add_sub_cancel_left]
      rfl
    rw [printfLoop_piece (hps p (List.mem_cons_self ..)) (by omega) hhead,
      ih (fun q hq => hps q (List.mem_cons_of_mem p hq)) (by omega) htail]
    simp [PrintState.behindAll]

/-- Where the pieces lead. -/
theorem buf_behindAll (va : VarArgs) (ps : List Piece) :
    (st.behindAll va ps).buf = st.buf + (formatText ps).length := by
  induction ps generalizing st with
  | nil => rfl
  | cons p ps ih =>
    rw [PrintState.behindAll, ih, PrintState.behind, Nat.add_assoc]
    exact congrArg (st.buf + ·) List.length_append.symm

/-- What the pieces print. -/
theorem console_behindAll (va : VarArgs) (ps : List Piece) :
    (st.behindAll va ps).console = st.console.printf (renderAll va st.esp ps) := by
  induction ps generalizing st with
  | nil => rfl
  | cons p ps ih =>
    rw [PrintState.behindAll, ih, renderAll, Console.printf, Console.printf, List.foldl_append]
    rfl

end Loop

theorem length_le_formatText (ps : List Piece) : ps.length ≤ (formatText ps).length := by
  induction ps with
  | nil => exact Nat.le_refl 0
  | cons p ps ih =>
    have hlen : (formatText (p :: ps)).length = p.bytes.length + (formatText ps).length :=
      List.length_append
    have := p.length_bytes_pos
    rw [List.length_cons]
    omega

/-- At a NUL the loop ends. -/
theorem printfLoop_nul {va : VarArgs} {junk fmt : ℕ → UInt8} {st : PrintState}
    (h : fmt st.buf = 0) (k : ℕ) : printfLoop va junk fmt k st = st := by
  cases k with
  | zero => rfl
  | succ k => rw [printfLoop, if_pos h]

/-! ### Whole formats -/

/-- The format is text and whole conversions. -/
def Complete (format : CString) : Prop :=
  ∃ ps : List Piece, (∀ p ∈ ps, p.Valid) ∧ format.bytes = formatText ps

/-- **A format is complete**, or it ends in a `%` with its `#`s. -/
theorem exists_pieces (l : List UInt8) (hnul : (0 : UInt8) ∉ l) :
    ∃ ps : List Piece, (∀ p ∈ ps, p.Valid) ∧
      (l = formatText ps ∨ ∃ n, l = formatText ps ++ 37 :: List.replicate n 35) := by
  induction h : l.length using Nat.strong_induction_on generalizing l with
  | h n ih =>
    subst h
    -- the first piece, and the rest by induction
    have hcons : ∀ (p : Piece) (rest : List UInt8), p.Valid → l = p.bytes ++ rest →
        ∃ ps : List Piece, (∀ p ∈ ps, p.Valid) ∧
          (l = formatText ps ∨ ∃ n, l = formatText ps ++ 37 :: List.replicate n 35) := by
      intro p rest hp hl
      have hlen : l.length = p.bytes.length + rest.length := by rw [hl, List.length_append]
      have hpos := p.length_bytes_pos
      obtain ⟨ps, hps, hrest⟩ := ih rest.length (by omega) rest
        (fun hmem => hnul (hl ▸ List.mem_append_right _ hmem)) rfl
      refine ⟨p :: ps, fun q hq => ?_, ?_⟩
      · rcases List.mem_cons.1 hq with rfl | hq
        · exact hp
        · exact hps q hq
      · rcases hrest with hrest | ⟨n, hrest⟩
        · exact Or.inl (by rw [hl, hrest]; rfl)
        · exact Or.inr ⟨n, by rw [hl, hrest, ← List.append_assoc]; rfl⟩
    cases l with
    | nil => exact ⟨[], fun _ hq => absurd hq List.not_mem_nil, Or.inl rfl⟩
    | cons c l =>
      rcases eq_or_ne c 37 with rfl | hc
      · have hsplit := List.takeWhile_append_dropWhile (p := (· == (35 : UInt8))) (l := l)
        have hhash : l.takeWhile (· == (35 : UInt8)) =
            List.replicate (l.takeWhile (· == (35 : UInt8))).length 35 :=
          List.eq_replicate_of_mem fun d hd => by
            simpa using List.all_eq_true.1 (List.all_takeWhile (l := l)) d hd
        cases hdrop : l.dropWhile (· == (35 : UInt8)) with
        | nil =>
          rw [hdrop, List.append_nil] at hsplit
          refine ⟨[], fun _ hq => absurd hq List.not_mem_nil, Or.inr ⟨l.length, ?_⟩⟩
          rw [hsplit] at hhash
          exact congrArg (List.cons 37) hhash
        | cons d rest =>
          have hd : d ≠ 35 := by
            have := List.head_dropWhile_not (p := (· == (35 : UInt8))) (l := l) (by simp [hdrop])
            simpa [hdrop] using this
          refine hcons (.spec (l.takeWhile (· == (35 : UInt8))).length d) rest hd ?_
          rw [Piece.bytes, ← hhash, List.cons_append, List.append_assoc]
          rw [hdrop] at hsplit
          exact congrArg (List.cons 37) hsplit.symm
      · have hzero : c ≠ 0 := fun h => hnul (h ▸ List.mem_cons_self ..)
        exact hcons (.text c) l ⟨hzero, hc⟩ rfl

section Whole

variable {va : VarArgs} {junk m : ℕ → UInt8} {format : CString} {k : ℕ} {c : Console}

/-- `printf` of whole pieces. -/
theorem printf_pieces {ps : List Piece} (hps : ∀ p ∈ ps, p.Valid)
    (hformat : format.bytes = formatText ps) (hm : ∀ i ≤ format.strlen, m i = format.get i)
    (hk : format.strlen ≤ k) :
    printf va junk m k c = (format.strlen, c.printf (renderAll va 0 ps)) := by
  have hlen : (formatText ps).length = format.strlen := congrArg List.length hformat.symm
  have hfmt : ∀ i < (formatText ps).length,
      m ((⟨0, 0, c⟩ : PrintState).buf + i) = (formatText ps).getD i 0 := by
    intro i hi
    rw [Nat.zero_add, hm i (by omega), CString.get, hformat]
  have hend : m ((⟨0, 0, c⟩ : PrintState).behindAll va ps).buf = 0 := by
    rw [buf_behindAll, Nat.zero_add, hlen, hm _ (Nat.le_refl _), CString.get]
    exact List.getD_eq_default _ _ (Nat.le_refl _)
  rw [printf, printfLoop_pieces hps (by omega) hfmt, printfLoop_nul hend, buf_behindAll,
    console_behindAll, Nat.zero_add, hlen]

/-- A format without `%` is printed as it is. -/
theorem printf_text (htext : (37 : UInt8) ∉ format.bytes)
    (hm : ∀ i ≤ format.strlen, m i = format.get i) (hk : format.strlen ≤ k) :
    printf va junk m k c = (format.strlen, c.printf format.bytes) := by
  have hps : ∀ p ∈ format.bytes.map Piece.text, p.Valid := by
    intro p hp
    obtain ⟨x, hx, rfl⟩ := List.mem_map.1 hp
    exact ⟨fun h => format.noNul (h ▸ hx), fun h => htext (h ▸ hx)⟩
  have hformat : format.bytes = formatText (format.bytes.map Piece.text) := by
    simp [formatText, Piece.bytes, List.flatMap_map]
  have hrender : ∀ (l : List UInt8) (esp : ℕ), renderAll va esp (l.map Piece.text) = l := by
    intro l
    induction l with
    | nil => exact fun _ => rfl
    | cons x l ih => exact fun esp => congrArg (List.cons x) (ih esp)
  rw [printf_pieces hps hformat hm hk, hrender]

/-- **`printf` of a complete format** prints its pieces, in order and each with its argument,
whatever is in its buffer and behind the format, and returns the length of the format. -/
theorem printf_spec (h : Complete format) :
    ∃ ps : List Piece, (∀ p ∈ ps, p.Valid) ∧ format.bytes = formatText ps ∧
      ∀ va junk m k c, (∀ i ≤ format.strlen, m i = format.get i) → format.strlen ≤ k →
        printf va junk m k c = (format.strlen, c.printf (renderAll va 0 ps)) := by
  obtain ⟨ps, hps, hformat⟩ := h
  exact ⟨ps, hps, hformat, fun _ _ _ _ _ hm hk => printf_pieces hps hformat hm hk⟩

/-- `%d: %#x` -/
def reportFormat : CString where
  bytes := ascii "%d: %#x".toList
  noNul := by decide +kernel

/-- A number and an address. -/
theorem printf_spec_report :
    ∃ ps : List Piece, (∀ p ∈ ps, p.Valid) ∧ reportFormat.bytes = formatText ps ∧
      ∀ va junk m k c, (∀ i ≤ reportFormat.strlen, m i = reportFormat.get i) →
        reportFormat.strlen ≤ k →
        printf va junk m k c = (reportFormat.strlen, c.printf (renderAll va 0 ps)) :=
  printf_spec ⟨[.spec 0 100, .text 58, .text 32, .spec 1 120], by decide, by decide +kernel⟩

example : renderAll ⟨fun i => if i = 0 then -42 else 0xBEEF, fun _ => ⟨[], by decide⟩⟩ 0
    [.spec 0 100, .text 58, .text 32, .spec 1 120] = ascii "-42: 0000BEEF".toList := by
  simp [renderAll, Piece.render, Piece.takes, Piece.signedText, Piece.hexText, numeral, padded]
  decide +kernel

/-- A format that ends in a conversion is read on behind its NUL. -/
theorem printf_incomplete {ps : List Piece} {n : ℕ} (hps : ∀ p ∈ ps, p.Valid)
    (hformat : format.bytes = formatText ps ++ 37 :: List.replicate n 35) :
    ∃ st j, st.buf = format.strlen + 1 ∧ ∀ m, (∀ i ≤ format.strlen, m i = format.get i) →
      printf va junk m (format.strlen + 2) c =
        ((printfLoop va junk m (j + 1) st).buf, (printfLoop va junk m (j + 1) st).console) := by
  have htext : formatText (ps ++ [.spec n 0]) = format.bytes ++ [0] := by
    rw [formatText, List.flatMap_append, hformat]
    simp [Piece.bytes, formatText]
  have hvalid : ∀ p ∈ ps ++ [Piece.spec n 0], p.Valid := by
    intro p hp
    rcases List.mem_append.1 hp with hp | hp
    · exact hps p hp
    · obtain rfl := List.mem_singleton.1 hp
      exact show (0 : UInt8) ≠ 35 by decide
  have hlen : (formatText (ps ++ [Piece.spec n 0])).length = format.strlen + 1 := by
    rw [htext, List.length_append]
    rfl
  have hcount := length_le_formatText (ps ++ [Piece.spec n 0])
  obtain ⟨j, hj⟩ : ∃ j, format.strlen + 2 - (ps ++ [Piece.spec n 0]).length = j + 1 :=
    ⟨format.strlen + 1 - (ps ++ [Piece.spec n 0]).length, by omega⟩
  refine ⟨(⟨0, 0, c⟩ : PrintState).behindAll va (ps ++ [.spec n 0]), j, ?_, fun m hm => ?_⟩
  · rw [buf_behindAll, Nat.zero_add, hlen]
  · have hfmt : ∀ i < (formatText (ps ++ [Piece.spec n 0])).length,
        m ((⟨0, 0, c⟩ : PrintState).buf + i) = (formatText (ps ++ [Piece.spec n 0])).getD i 0 := by
      intro i hi
      rw [Nat.zero_add, hm i (by omega), CString.get, htext]
      exact (getD_terminated format.bytes (show i ≤ format.strlen by omega) 0).symm
    rw [printf, printfLoop_pieces hvalid (by omega) hfmt, hj]

/-- What `printf` does depends on its format, and not on the memory behind it. -/
def StaysInFormat (va : VarArgs) (junk : ℕ → UInt8) (format : CString) (c : Console) : Prop :=
  ∀ k m m', format.strlen ≤ k → (∀ i ≤ format.strlen, m i = format.get i) →
    (∀ i ≤ format.strlen, m' i = format.get i) →
    printf va junk m k c = printf va junk m' k c

/-- **When it does:** exactly for the complete formats. -/
theorem staysInFormat_iff : StaysInFormat va junk format c ↔ Complete format := by
  constructor
  · intro h
    obtain ⟨ps, hps, hformat | ⟨n, hformat⟩⟩ := exists_pieces format.bytes format.noNul
    · exact ⟨ps, hps, hformat⟩
    · -- behind the NUL, nothing or one more character
      obtain ⟨st, j, hst, hprint⟩ := printf_incomplete (c := c) hps hformat
      have hover : ∀ i ≤ format.strlen,
          Function.update format.get (format.strlen + 1) 65 i = format.get i :=
        fun i hi => Function.update_of_ne (by omega) _ _
      have hsame := h (format.strlen + 2) format.get _ (by omega) (fun _ _ => rfl) hover
      rw [hprint _ fun _ _ => rfl, hprint _ hover, Prod.mk.injEq] at hsame
      have hget : ∀ i, format.strlen ≤ i → format.get i = 0 := fun i hi =>
        List.getD_eq_default _ _ hi
      have hmore : Function.update format.get (format.strlen + 1) 65 st.buf = 65 := by
        rw [hst, Function.update_self]
      have hend : Function.update format.get (format.strlen + 1) 65 (st.buf + 1) = 0 := by
        rw [hst, Function.update_of_ne (by omega), hget _ (by omega)]
      rw [printfLoop_nul (by rw [hst, hget _ (by omega)]), printfLoop, hmore,
        if_neg (by decide), if_neg (by decide), printfLoop_nul hend] at hsame
      exact absurd hsame.1 (Nat.ne_of_lt (Nat.lt_succ_self _))
  · rintro ⟨ps, hps, hformat⟩ k m m' hk hm hm'
    rw [printf_pieces hps hformat hm hk, printf_pieces hps hformat hm' hk]

end Whole

end OS391
