/-
# From a command to `getargs` and back

A program reads its arguments with a buffer of some size, and may try again with another.
After `parse_args` of a name, a blank and an argument string, a call of `getargs` answers
with the string when it fits into the buffer with a NUL, and with `-1` when it does not,
however often it was called before and with whatever sizes (`getargs_roundTrip`).  Newlines
the calls clear, and bytes of older arguments behind the string, make no difference.
-/

import OS391.StoredBuf

namespace OS391

open Lib

/-- The command is a name, a blank, an argument string and perhaps a newline. -/
structure CommandLine (name args newline : List UInt8) (command : CString) : Prop where
  bytes : command.bytes = name ++ 32 :: (args ++ newline)
  name_ne : name ≠ []
  name_plain : ∀ b ∈ name, b ≠ 32 ∧ b ≠ 10
  args_ne : args ≠ []
  args_plain : ∀ b ∈ args, b ≠ 10
  ending : newline = [] ∨ newline = [10]
  fits : (args ++ newline).length ≤ bufSize - 2

section CommandLine

variable {name args newline : List UInt8} {command : CString}

theorem CommandLine.args_eq (h : CommandLine name args newline command) :
    command.args = args ++ newline := by
  have hname {b : UInt8} (hb : b ∈ name) : decide (b ≠ 32) = true :=
    decide_eq_true (h.name_plain b hb).1
  cases hcons : name with
  | nil => exact absurd hcons h.name_ne
  | cons b rest =>
    have hb : b ≠ 32 := of_decide_eq_true (hname (hcons ▸ List.mem_cons_self))
    have hskip : command.bytes.dropWhile (· = 32) = command.bytes := by
      rw [h.bytes, hcons, List.cons_append, List.dropWhile_cons_of_neg (by simpa using hb)]
    rw [CString.args, hskip, h.bytes, List.dropWhile_append_of_pos fun _ hb => hname hb,
      List.dropWhile_cons_of_neg (by simp), List.tail_cons]

theorem CommandLine.argString_eq (h : CommandLine name args newline command) :
    argString command = args := by
  have hargs : ∀ b ∈ args, decide (b ≠ 10) = true := fun b hb => decide_eq_true (h.args_plain b hb)
  rw [argString, h.args_eq, List.takeWhile_append_of_pos hargs]
  rcases h.ending with rfl | rfl
  · exact List.append_nil args
  · exact List.append_nil args

end CommandLine

/-! ### Calls of `getargs` -/

/-- A call of `getargs`: the buffer and its size. -/
structure GetargsCall where
  buf : ℕ → UInt8
  nbytes : ℤ

/-- The size is one a program can name for a buffer of its own. -/
def GetargsCall.Sized (c : GetargsCall) : Prop := 0 ≤ c.nbytes ∧ c.nbytes ≤ bufSize

/-- Calls of `getargs`, each with such a size. -/
def GetargsRun : Kernel → List GetargsCall → Kernel → Prop :=
  Run (Guarded (fun _ c => c.Sized) fun s c t => t = (s.getargs c.buf c.nbytes).kernel)

/-- The kernel after `parse_args(command)`. -/
def Kernel.storeArgs (s : Kernel) (command : CString) : Kernel :=
  { s with storedBuf := parseArgs command s.storedBuf }

/-- **The answer for an argument string:** `0` and the string with a NUL behind it when it is
shorter than the size, `-1` otherwise. -/
def Answers (s : Kernel) (args : List UInt8) (c : GetargsCall) : Prop :=
  if args ≠ [] ∧ args.length < c.nbytes then
    (s.getargs c.buf c.nbytes).ret = 0 ∧ HoldsString args c.buf (s.getargs c.buf c.nbytes).buf
  else (s.getargs c.buf c.nbytes).ret = -1

section Calls

variable {s t : Kernel} {command : CString} {c : GetargsCall} {cs : List GetargsCall}

theorem GetargsCall.Sized.toNat (h : c.Sized) :
    ((u32 c.nbytes).toNat : ℤ) = c.nbytes ∧ (u32 c.nbytes).toNat ≤ bufSize := by
  have h₀ := h.1
  have h₁ := h.2
  have hsize : (bufSize : ℤ) = 1024 := rfl
  rw [u32_of_bounds h₀ (by omega)]
  omega

/-- `getargs` returns `0` or `-1`. -/
theorem getargs_ret (s : Kernel) (buf : ℕ → UInt8) (nbytes : ℤ) :
    (s.getargs buf nbytes).ret = 0 ∨ (s.getargs buf nbytes).ret = -1 := by
  simp only [Kernel.getargs]
  split_ifs <;> simp

/-- **A call answers for the argument string that is stored,** provided the string leaves room
for a NUL. -/
theorem Stored.answers (h : Stored command s.storedBuf)
    (hlen : (argString command).length < bufSize - 1 ∨ argString command = []) (hc : c.Sized) :
    Answers s (argString command) c := by
  obtain ⟨hn, hle⟩ := hc.toNat
  rw [Answers]
  split_ifs with hfits
  · refine getargs_of_fits c.buf h hle ⟨List.length_pos_iff.2 hfits.1, by omega, fun hfull _ => ?_⟩
    rcases hlen with hshort | hnil
    · omega
    · exact absurd hnil hfits.1
  · refine (getargs_ret s c.buf c.nbytes).resolve_left (getargs_of_not_fits h hle fun hf => ?_)
    have hpos := hf.pos
    have hlt := hf.lt
    exact hfits ⟨List.length_pos_iff.1 hpos, by omega⟩

/-- **After any calls of `getargs`** the arguments are still stored. -/
theorem GetargsRun.stored (hr : GetargsRun s cs t) (h : Stored command s.storedBuf) :
    Stored command t.storedBuf := by
  refine hr.invariant (I := fun s => Stored command s.storedBuf) ?_ h
  rintro s c t hs ⟨-, rfl⟩
  rw [Kernel.getargs_storedBuf]
  exact hs.clearNewlines _

/-- **`parse_args` and `getargs` are a round trip.**  After `parse_args` of a name, a blank
and an argument string, every call of `getargs`, the first and any later one, answers for this
string; after a command without arguments every call returns `-1`. -/
theorem getargs_roundTrip (s : Kernel) (command : CString) {t : Kernel} {cs : List GetargsCall}
    (hr : GetargsRun (s.storeArgs command) cs t) {c : GetargsCall} (hc : c.Sized) :
    (∀ name args newline, CommandLine name args newline command →
      if args.length < c.nbytes then
        (t.getargs c.buf c.nbytes).ret = 0 ∧ HoldsString args c.buf (t.getargs c.buf c.nbytes).buf
      else (t.getargs c.buf c.nbytes).ret = -1) ∧
    (argString command = [] → (t.getargs c.buf c.nbytes).ret = -1) := by
  have hstored : Stored command t.storedBuf :=
    hr.stored (stored_parseArgs command s.storedBuf)
  constructor
  · intro name args newline hline
    have hfits := hline.fits
    have hsize : bufSize = 1024 := rfl
    have hanswer := hstored.answers (c := c) (Or.inl (by
      rw [hline.argString_eq]
      rw [List.length_append] at hfits
      omega)) hc
    rw [hline.argString_eq, Answers] at hanswer
    simpa [hline.args_ne] using hanswer
  · intro hnil
    have hanswer := hstored.answers (Or.inr hnil) hc
    rw [hnil, Answers] at hanswer
    simpa using hanswer

/-- The command `a x` is such a command line. -/
theorem commandLine_firstCommand : CommandLine [97] [120] [] firstCommand where
  bytes := by decide
  name_ne := by decide
  name_plain := List.forall_mem_singleton.2 ⟨by decide, by decide⟩
  args_ne := by decide
  args_plain := List.forall_mem_singleton.2 (by decide)
  ending := Or.inl rfl
  fits := by decide

/-- After `parse_args` of `a x` and a call whose buffer is too small, one with two bytes gets
the argument. -/
theorem getargs_roundTrip_firstCommand :
    let c : GetargsCall := ⟨fun _ => 7, 1⟩
    let t := ((default : Kernel).storeArgs firstCommand |>.getargs c.buf c.nbytes).kernel
    (t.getargs (fun _ => 7) 2).ret = 0 ∧
      HoldsString [120] (fun _ => 7) (t.getargs (fun _ => 7) 2).buf := by
  have hsmall : GetargsCall.Sized ⟨fun _ => 7, 1⟩ := ⟨by decide, by decide⟩
  have hr : GetargsRun ((default : Kernel).storeArgs firstCommand) [⟨fun _ => 7, 1⟩] _ :=
    .single ⟨hsmall, rfl⟩
  have hboth := getargs_roundTrip default firstCommand hr (c := ⟨fun _ => 7, 2⟩)
    ⟨by decide, by decide⟩
  simpa using hboth.1 _ _ _ commandLine_firstCommand

end Calls

end OS391
