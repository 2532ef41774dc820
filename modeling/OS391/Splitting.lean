/-
# How a command is split

`get_file_name` and `parse_args` walk the same command one after the other.  The name of the
program should be the first run of characters other than blanks and newlines, and the
arguments the text behind it and the blanks after it (`firstToken`, `argumentText`).

`get_file_name` skips the blanks in front with one pointer and returns another, and
`parse_args` skips just one blank behind the name and goes on looking for it past a newline.
So a command is split as it should be exactly when it does not start with a blank, when its
name ends the command or is followed by exactly one blank, and when the arguments fit into
`stored_buf` (`splitsRight_iff`).
-/

import OS391.StoredBuf

namespace OS391

open Lib

/-! ### What the two functions are for -/

/-- The first run of characters other than blanks and newlines, after any blanks. -/
def firstToken (bytes : List UInt8) : List UInt8 :=
  (bytes.dropWhile (· = 32)).takeWhile fun b => b ≠ 32 ∧ b ≠ 10

/-- What follows the first token. -/
def afterToken (bytes : List UInt8) : List UInt8 :=
  (bytes.dropWhile (· = 32)).dropWhile fun b => b ≠ 32 ∧ b ≠ 10

/-- The text behind the first token and the blanks after it. -/
def argumentText (bytes : List UInt8) : List UInt8 := (afterToken bytes).dropWhile (· = 32)

/-- `stored_buf` holds the text and a NUL behind it. -/
structure StoresText (text : List UInt8) (stored : ℕ → UInt8) : Prop where
  lt : text.length < bufSize
  bytes : ∀ i (h : i < text.length), stored i = text[i]
  terminator : stored text.length = 0

/-- **The command is split as it should be.** -/
def SplitsRight (command : CString) (stored : ℕ → UInt8) : Prop :=
  (getFileName command).bytes = firstToken command.bytes ∧
    StoresText (argumentText command.bytes) (parseArgs command stored)

/-! ### The name -/

theorem getFileName_bytes (command : CString) :
    (getFileName command).bytes
      = command.bytes.takeWhile (· = 32) ++ firstToken command.bytes := by
  have hsplit : command.bytes = command.bytes.takeWhile (· = 32) ++
      (firstToken command.bytes ++ afterToken command.bytes) := by
    rw [firstToken, afterToken, List.takeWhile_append_dropWhile, List.takeWhile_append_dropWhile]
  have hlen : fileNameEnd command
      = (command.bytes.takeWhile (· = 32) ++ firstToken command.bytes).length := by
    rw [List.length_append]
    rfl
  calc (getFileName command).bytes
      = command.bytes.take (fileNameEnd command) := rfl
    _ = (command.bytes.takeWhile (· = 32) ++ firstToken command.bytes ++
          afterToken command.bytes).take (fileNameEnd command) := by
        rw [List.append_assoc, ← hsplit]
    _ = command.bytes.takeWhile (· = 32) ++ firstToken command.bytes := by
        rw [hlen, List.take_left]

/-- **The name is right exactly when no blank stands in front.** -/
theorem getFileName_eq_iff (command : CString) :
    (getFileName command).bytes = firstToken command.bytes ↔ command.bytes.head? ≠ some 32 := by
  rw [getFileName_bytes, List.append_left_eq_self]
  cases command.bytes with
  | nil => simp
  | cons b bytes =>
    by_cases hb : b = 32
    · simp [hb]
    · simp [hb]

/-! ### The arguments -/

/-- What `parse_args` stores is found by a scan that does not stop at a newline. -/
theorem args_eq_afterToken (command : CString) :
    command.args = ((afterToken command.bytes).dropWhile (· ≠ 32)).tail := by
  have hscan (l : List UInt8) :
      (l.dropWhile fun b => b ≠ 32 ∧ b ≠ 10).dropWhile (· ≠ 32) = l.dropWhile (· ≠ 32) := by
    induction l with
    | nil => rfl
    | cons b l ih =>
      by_cases hstop : b ≠ 32 ∧ b ≠ 10
      · rw [List.dropWhile_cons_of_pos (by simpa using hstop),
          List.dropWhile_cons_of_pos (by simpa using hstop.1), ih]
      · rw [List.dropWhile_cons_of_neg (by simpa using hstop)]
  rw [CString.args, afterToken, hscan]

/-- Both scans leave the same text when the name is followed by nothing or by one blank. -/
theorem args_eq_argumentText_iff (command : CString) :
    command.args = argumentText command.bytes ↔
      afterToken command.bytes = [] ∨
        ∃ rest, afterToken command.bytes = 32 :: rest ∧ rest.head? ≠ some 32 := by
  rw [args_eq_afterToken, argumentText]
  have hstart : ∀ b ∈ (afterToken command.bytes).head?, b = 32 ∨ b = 10 := by
    intro b hb
    have hnot := List.head?_dropWhile_not (fun b => decide (b ≠ 32 ∧ b ≠ 10))
      (command.bytes.dropWhile (· = 32))
    rw [← afterToken, Option.mem_def.1 hb] at hnot
    by_contra hb'
    simp_all
  cases hafter : afterToken command.bytes with
  | nil => simp
  | cons b rest =>
    rw [hafter] at hstart
    rcases hstart b rfl with rfl | rfl
    · -- the blank that ends the name
      rw [List.dropWhile_cons_of_neg (by simp), List.tail_cons,
        List.dropWhile_cons_of_pos (by simp)]
      constructor
      · intro heq
        refine Or.inr ⟨rest, rfl, fun hhead => ?_⟩
        have hnot := List.head?_dropWhile_not (fun b => decide (b = (32 : UInt8))) rest
        rw [← heq, hhead] at hnot
        simp at hnot
      · rintro (hnil | ⟨rest', heq, hhead⟩)
        · exact absurd hnil (List.cons_ne_nil _ _)
        · obtain rfl := (List.cons.inj heq).2
          cases rest with
          | nil => rfl
          | cons c rest =>
            rw [List.dropWhile_cons_of_neg]
            simpa using hhead
    · -- a newline: the text keeps it, the scan goes past it
      constructor
      · intro heq
        have hlen := congrArg List.length heq
        have hle := (List.dropWhile_sublist (l := rest) fun b => decide (b ≠ 32)).length_le
        rw [List.dropWhile_cons_of_pos (by decide), List.dropWhile_cons_of_neg (by decide),
          List.length_tail, List.length_cons] at hlen
        omega
      · rintro (hnil | ⟨rest', heq, -⟩)
        · exact absurd hnil (List.cons_ne_nil _ _)
        · exact absurd (List.cons.inj heq).1 (by decide)

/-- **The text is stored** when it is what `parse_args` finds and leaves room for a NUL. -/
theorem storesText_parseArgs_iff {command : CString} {stored : ℕ → UInt8} {text : List UInt8}
    (htext : 0 ∉ text) :
    StoresText text (parseArgs command stored) ↔
      command.args = text ∧ HasNul (parseArgs command stored) := by
  constructor
  · intro h
    have hlt := h.lt
    have hle : command.args.length ≤ text.length := by
      by_contra hlong
      have hbyte : parseArgs command stored text.length = command.args[text.length] :=
        parseArgs_apply (Nat.lt_of_not_le hlong) hlt
      rw [h.terminator] at hbyte
      exact command.zero_notMem_args (hbyte ▸ List.getElem_mem _)
    have hge : text.length ≤ command.args.length := by
      by_contra hshort
      have hbyte := h.bytes command.args.length (Nat.lt_of_not_le hshort)
      rw [parseArgs_terminator (by omega)] at hbyte
      exact htext (hbyte ▸ List.getElem_mem _)
    refine ⟨List.ext_getElem (Nat.le_antisymm hle hge) fun i hi hi' => ?_,
      text.length, hlt, h.terminator⟩
    rw [← parseArgs_apply hi (Nat.lt_trans hi' hlt), h.bytes i hi']
  · rintro ⟨rfl, hnul⟩
    have hfits := hasNul_parseArgs.1 hnul
    have hpos : 0 < bufSize := by decide
    have hlt : command.args.length < bufSize := by omega
    refine ⟨hlt, fun i hi => parseArgs_apply hi (Nat.lt_trans hi hlt), ?_⟩
    rcases hfits with hshort | ⟨hlen, h0⟩
    · exact parseArgs_terminator hshort
    · rw [hlen, parseArgs_last hlen, h0]

theorem zero_notMem_argumentText (command : CString) : 0 ∉ argumentText command.bytes := fun h =>
  command.noNul (List.dropWhile_subset _ (List.dropWhile_subset _ (List.dropWhile_subset _ h)))

/-! ### Both together -/

/-- No blank stands in front, and the name ends the command or is followed by just one
blank. -/
structure SingleSpaced (bytes : List UInt8) : Prop where
  front : bytes.head? ≠ some 32
  behind : afterToken bytes = [] ∨ ∃ rest, afterToken bytes = 32 :: rest ∧ rest.head? ≠ some 32

/-- **A command is split as it should be exactly when** it is spaced with single blanks and its
arguments fit into `stored_buf` with a NUL. -/
theorem splitsRight_iff (command : CString) (s : Kernel) :
    SplitsRight command s.storedBuf ↔
      SingleSpaced command.bytes ∧ s.FitsBuffer (.parseArgs command) := by
  rw [SplitsRight, getFileName_eq_iff, storesText_parseArgs_iff (zero_notMem_argumentText command),
    args_eq_argumentText_iff, hasNul_parseArgs]
  constructor
  · rintro ⟨hfront, hbehind, hfits⟩
    exact ⟨⟨hfront, hbehind⟩, hfits⟩
  · rintro ⟨⟨hfront, hbehind⟩, hfits⟩
    exact ⟨hfront, hbehind, hfits⟩

/-- The command `ls` with a blank in front. -/
def leadingBlank : CString where
  bytes := ascii " ls".toList
  noNul := by decide

/-- The command `cat f` with two blanks in the middle. -/
def doubleBlank : CString where
  bytes := ascii "cat  f".toList
  noNul := by decide

/-- **Blanks change the name and the arguments:** with one in front the program looked up is
" ls", and with one more in the middle the argument is " f". -/
theorem not_splitsRight_blanks :
    (getFileName leadingBlank).bytes ≠ firstToken leadingBlank.bytes ∧
      ¬ SplitsRight leadingBlank (fun _ => 0) ∧ ¬ SplitsRight doubleBlank (fun _ => 0) := by
  have hname : (getFileName leadingBlank).bytes ≠ firstToken leadingBlank.bytes := by decide
  refine ⟨hname, fun h => hname h.1, fun h => ?_⟩
  have hpos : 0 < (argumentText doubleBlank.bytes).length := by decide
  have hbyte := h.2.bytes 0 hpos
  have hfirst : (argumentText doubleBlank.bytes).getD 0 0 = 102 := by decide
  rw [← List.getD_eq_getElem _ 0 hpos, hfirst, parseArgs_apply (by decide) (by decide)] at hbyte
  exact absurd hbyte (by decide)

end OS391
