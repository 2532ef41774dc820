/-
# Where `stored_buf` is touched

`parse_args` and `getargs` again, this time with every index at which they read or write
`stored_buf`.  `parse_args` never leaves the buffer.  `getargs` walks it twice, first up to
the size its caller names, which nothing bounds, and then up to the first NUL, which
`parse_args` writes only when there is room for it.

A call stays in the buffer and leaves a NUL in it exactly when the size is at most `BUFSIZE`,
and the arguments are shorter than `BUFSIZE - 1`, or just as long while the last byte of the
buffer is still NUL (`inBuffer_iff`); and so for every sequence of calls
(`inBuffer_run_iff`).
-/

import OS391.Arguments
import OS391.Lookup
import OS391.Lib.Traced

namespace OS391

open Lib Traced

/-! ### The two functions, traced -/

/-- `parse_args`, with the indices of `stored_buf` it writes. -/
def parseArgsTraced (command : CString) (storedBuf : ℕ → UInt8) : Traced ℕ (ℕ → UInt8) :=
  match (command.bytes.dropWhile (· = 32)).dropWhile (· ≠ 32) with
  | [] => forLoop (fun i m => store m i 0) 1024 storedBuf
  | _ :: args => do
    let idx := min args.length bufSize
    let m ← forLoop (fun i m => store m i (args.getD i 0)) idx storedBuf
    if idx < bufSize - 1 then store m idx (args.getD idx 0) else pure m

/-- One turn of the first loop of `getargs`. -/
def clearTurn (i : ℕ) (m : ℕ → UInt8) : Traced ℕ (ℕ → UInt8) := do
  let b ← Traced.load m i
  if b = 10 then store m i 0 else pure m

/-- The second loop of `getargs`, from `count` on with room for `k` more bytes in the user's
buffer: where it stopped, unless there was no room for a byte, and that buffer. -/
def copyArguments (m : ℕ → UInt8) : ℕ → ℕ → (ℕ → UInt8) → Traced ℕ (Option ℕ × (ℕ → UInt8))
  | 0, count, buf => do
    let b ← Traced.load m count
    pure (if b ≠ 0 then none else some count, buf)
  | k + 1, count, buf => do
    let b ← Traced.load m count
    if b ≠ 0 then
      let b ← Traced.load m count
      copyArguments m k (count + 1) (Function.update buf count b)
    else pure (some count, buf)

/-- `getargs`, with the indices of `stored_buf` it reads and writes. -/
def Kernel.getargsTraced (s : Kernel) (buf : ℕ → UInt8) (nbytes : ℤ) : Traced ℕ ReadResult := do
  let n := (u32 nbytes).toNat
  let m ← forLoop clearTurn n s.storedBuf
  let s := { s.cli with storedBuf := m }
  let r ← copyArguments m n 0 buf
  match r.1 with
  | none => pure ⟨-1, r.2, s.sti⟩
  | some count =>
    if count = 0 then pure ⟨-1, r.2, (s.modifyConsole fun c => c.printf noArguments).sti⟩
    else if count = n then pure ⟨-1, r.2, s.sti⟩
    else
      let b ← Traced.load m count
      pure ⟨0, Function.update r.2 count b, s.sti⟩

/-! ### They are the same functions -/

theorem val_storeLoop (v : ℕ → UInt8) (n : ℕ) (m : ℕ → UInt8) :
    (forLoop (fun i m => store m i (v i)) n m).val = copyLoop m 0 v n := by
  induction n with
  | zero => rw [forLoop, copyLoop, val_pure]
  | succ n ih => rw [forLoop, copyLoop, val_bind, ih, val_store, Nat.zero_add]

theorem val_clearLoop (n : ℕ) (m : ℕ → UInt8) :
    (forLoop clearTurn n m).val = mapLoop (fun b => if b = 10 then 0 else b) m n := by
  induction n with
  | zero => rw [forLoop, mapLoop, val_pure]
  | succ n ih =>
    rw [forLoop, mapLoop, val_bind, ih, clearTurn]
    simp only [val_bind, val_ite, val_store, val_pure]
    split_ifs
    · rfl
    · exact (Function.update_eq_self n _).symm

/-- **Tracing `parse_args` changes nothing.** -/
theorem val_parseArgsTraced (command : CString) (stored : ℕ → UInt8) :
    (parseArgsTraced command stored).val = parseArgs command stored := by
  unfold parseArgsTraced parseArgs
  cases (command.bytes.dropWhile (· = 32)).dropWhile (· ≠ 32) with
  | nil => exact val_storeLoop (fun _ => 0) 1024 stored
  | cons b args =>
    dsimp only
    rw [val_bind, val_storeLoop, val_ite, val_store, val_pure]

theorem strnlen_succ (m : ℕ → UInt8) (count k : ℕ) :
    strnlen (fun i => m (count + i)) (k + 1)
      = if m count = 0 then 0 else strnlen (fun i => m (count + 1 + i)) k + 1 := by
  have hshift : (fun i => m (count + (i + 1))) = fun i => m (count + 1 + i) := by
    funext i
    rw [Nat.add_assoc, Nat.add_comm 1 i]
  rw [strnlen, hshift, Nat.add_zero]

/-- The second loop stops at the first NUL, or when the buffer is full. -/
theorem val_copyArguments (m : ℕ → UInt8) (k count : ℕ) (buf : ℕ → UInt8) :
    (copyArguments m k count buf).val =
      (if m (count + strnlen (fun i => m (count + i)) k) ≠ 0 then none
        else some (count + strnlen (fun i => m (count + i)) k),
        copyLoop buf count (fun i => m (count + i)) (strnlen (fun i => m (count + i)) k)) := by
  induction k generalizing count buf with
  | zero =>
    rw [copyArguments, strnlen, copyLoop_zero]
    rfl
  | succ k ih =>
    rw [copyArguments, val_bind, val_ite, strnlen_succ]
    by_cases h : m count = 0
    · rw [if_neg (not_not_intro h), if_pos h, copyLoop_zero, Nat.add_zero, if_neg (not_not_intro h)]
      rfl
    · rw [if_pos h, if_neg h, val_bind, ih]
      set c := strnlen (fun i => m (count + 1 + i)) k
      have hindex : count + 1 + c = count + (c + 1) := by omega
      rw [hindex]
      refine Prod.ext rfl (funext fun i => ?_)
      dsimp only
      rw [copyLoop_apply, copyLoop_apply]
      by_cases hi : i = count
      · subst hi
        rw [if_neg (by omega), if_pos (by omega), Function.update_self, Nat.sub_self, Nat.add_zero]
      · rw [Function.update_of_ne hi]
        by_cases hin : count ≤ i ∧ i < count + (c + 1)
        · rw [if_pos hin, if_pos (by omega)]
          congr 1
          omega
        · rw [if_neg hin, if_neg (by omega)]

/-- **Tracing `getargs` changes nothing.** -/
theorem Kernel.val_getargsTraced (s : Kernel) (buf : ℕ → UInt8) (nbytes : ℤ) :
    (s.getargsTraced buf nbytes).val = s.getargs buf nbytes := by
  unfold Kernel.getargsTraced Kernel.getargs Kernel.clearNewlines
  set n := (u32 nbytes).toNat
  rw [val_bind, val_clearLoop, val_bind, val_copyArguments]
  set m := mapLoop (fun b => if b = 10 then 0 else b) s.storedBuf n
  simp only [Nat.zero_add]
  by_cases h : m (strnlen m n) = 0
  · refine Eq.trans ?_ (if_neg (not_not_intro h)).symm
    rw [if_neg (not_not_intro h)]
    dsimp only
    rw [val_ite, val_ite]
    rfl
  · rw [if_pos h]
    exact (if_pos h).symm

/-! ### The indices they touch -/

section Within

variable {p : ℕ → Prop}

theorem within_storeLoop {v : ℕ → UInt8} {n : ℕ} {m : ℕ → UInt8} :
    (forLoop (fun i m => store m i (v i)) n m).Within p ↔ ∀ i < n, p i := by
  simp only [within_forLoop, within_store]

theorem within_clearLoop {n : ℕ} {m : ℕ → UInt8} :
    (forLoop clearTurn n m).Within p ↔ ∀ i < n, p i := by
  have hturn (i : ℕ) (m : ℕ → UInt8) : (clearTurn i m).Within p ↔ p i := by
    rw [clearTurn, within_bind, within_load]
    split_ifs <;> simp
  simp only [within_forLoop, hturn]

/-- The second loop looks at every byte up to where it stops. -/
theorem within_copyArguments {m : ℕ → UInt8} {k count : ℕ} {buf : ℕ → UInt8} :
    (copyArguments m k count buf).Within p ↔
      ∀ i ≤ strnlen (fun i => m (count + i)) k, p (count + i) := by
  induction k generalizing count buf with
  | zero =>
    rw [copyArguments, strnlen, within_bind, within_load]
    constructor
    · rintro ⟨h, -⟩ i hi
      obtain rfl := Nat.le_zero.1 hi
      exact h
    · exact fun h => ⟨h 0 (Nat.le_refl 0), within_pure _⟩
  | succ k ih =>
    rw [copyArguments, within_bind, within_load, strnlen_succ]
    by_cases h : m count = 0
    · rw [if_neg (not_not_intro h), if_pos h]
      constructor
      · rintro ⟨hp, -⟩ i hi
        obtain rfl := Nat.le_zero.1 hi
        exact hp
      · exact fun hp => ⟨hp 0 (Nat.le_refl 0), within_pure _⟩
    · rw [if_pos h, if_neg h, within_bind, within_load, ih]
      constructor
      · rintro ⟨hp, -, hrest⟩ i hi
        cases i with
        | zero => exact hp
        | succ i =>
          rw [Nat.add_comm i 1, ← Nat.add_assoc]
          exact hrest i (Nat.le_of_succ_le_succ hi)
      · intro hp
        have h₀ := hp 0 (Nat.zero_le _)
        refine ⟨h₀, h₀, fun i hi => ?_⟩
        rw [Nat.add_assoc, Nat.add_comm 1 i]
        exact hp (i + 1) (Nat.succ_le_succ hi)

end Within

/-- `stored_buf` holds a NUL. -/
def HasNul (stored : ℕ → UInt8) : Prop := ∃ i < bufSize, stored i = 0

/-- **`parse_args` stays in `stored_buf`,** whatever the command. -/
theorem within_parseArgsTraced (command : CString) (stored : ℕ → UInt8) :
    (parseArgsTraced command stored).Within (· < bufSize) := by
  unfold parseArgsTraced
  cases (command.bytes.dropWhile (· = 32)).dropWhile (· ≠ 32) with
  | nil => exact within_storeLoop.2 fun i hi => hi
  | cons b args =>
    have hcopy (i : ℕ) (hi : i < min args.length bufSize) : i < bufSize :=
      Nat.lt_of_lt_of_le hi (Nat.min_le_right _ _)
    refine within_bind.2 ⟨within_storeLoop.2 hcopy, ?_⟩
    split_ifs with hshort
    · exact within_store.2 (Nat.lt_of_lt_of_le hshort (Nat.sub_le _ _))
    · exact within_pure _

/-- **`parse_args` leaves a NUL** unless the arguments fill the buffer. -/
theorem hasNul_parseArgs {command : CString} {stored : ℕ → UInt8} :
    HasNul (parseArgs command stored) ↔ command.args.length < bufSize - 1 ∨
      command.args.length = bufSize - 1 ∧ stored (bufSize - 1) = 0 := by
  constructor
  · rintro ⟨i, hi, h0⟩
    -- no byte of the arguments is NUL
    have hout : command.args.length ≤ i := by
      by_contra hlt
      rw [parseArgs_apply (Nat.lt_of_not_le hlt) hi] at h0
      exact command.zero_notMem_args (h0 ▸ List.getElem_mem _)
    rcases Nat.lt_or_ge command.args.length (bufSize - 1) with hshort | hlong
    · exact Or.inl hshort
    · obtain ⟨hlen, rfl⟩ : command.args.length = bufSize - 1 ∧ i = bufSize - 1 := by omega
      exact Or.inr ⟨hlen, (parseArgs_last hlen).symm.trans h0⟩
  · rintro (hshort | ⟨hlen, h0⟩)
    · exact ⟨command.args.length, by omega, parseArgs_terminator hshort⟩
    · exact ⟨bufSize - 1, by decide, (parseArgs_last hlen).trans h0⟩

/-- Clearing newlines leaves the NULs. -/
theorem HasNul.clearNewlines {stored : ℕ → UInt8} (h : HasNul stored) (n : ℕ) :
    HasNul (mapLoop (fun b => if b = 10 then 0 else b) stored n) := by
  obtain ⟨i, hi, h0⟩ := h
  refine ⟨i, hi, ?_⟩
  rw [mapLoop_apply, h0]
  split_ifs <;> rfl

/-- The bytes before the first NUL end in front of any NUL. -/
theorem HasNul.strnlen_lt {stored : ℕ → UInt8} (h : HasNul stored) (n : ℕ) :
    strnlen stored n < bufSize := by
  obtain ⟨i, hi, h0⟩ := h
  by_contra hle
  exact ne_zero_of_lt_strnlen (Nat.lt_of_lt_of_le hi (Nat.not_lt.1 hle)) h0

/-- **`getargs` stays in `stored_buf`** when it is asked for no more than is there, provided
there is a NUL. -/
theorem Kernel.within_getargsTraced {s : Kernel} (h : HasNul s.storedBuf) (buf : ℕ → UInt8)
    (nbytes : ℤ) :
    (s.getargsTraced buf nbytes).Within (· < bufSize) ↔ (u32 nbytes).toNat ≤ bufSize := by
  unfold Kernel.getargsTraced
  set n := (u32 nbytes).toNat
  rw [within_bind, within_bind, within_clearLoop, within_copyArguments, val_clearLoop,
    val_copyArguments]
  simp only [Nat.zero_add]
  have hcount := (h.clearNewlines n).strnlen_lt n
  set m := mapLoop (fun b => if b = 10 then 0 else b) s.storedBuf n
  constructor
  · rintro ⟨hfirst, -⟩
    by_contra hlt
    exact Nat.lt_irrefl _ (hfirst bufSize (Nat.lt_of_not_le hlt))
  · intro hn
    refine ⟨fun i hi => Nat.lt_of_lt_of_le hi hn, fun i hi => Nat.lt_of_le_of_lt hi hcount, ?_⟩
    by_cases h0 : m (strnlen m n) = 0
    · rw [if_neg (not_not_intro h0)]
      dsimp only
      split_ifs
      · exact within_pure _
      · exact within_pure _
      · exact within_bind.2 ⟨within_load.2 hcount, within_pure _⟩
    · rw [if_pos h0]
      exact within_pure _

/-! ### Sequences of calls -/

/-- A call of one of the two functions. -/
inductive ArgumentCall
  | parseArgs (command : CString)
  | getargs (buf : ℕ → UInt8) (nbytes : ℤ)

/-- What the call does, and where it touches `stored_buf`. -/
def ArgumentCall.run (s : Kernel) : ArgumentCall → Traced ℕ Kernel
  | .parseArgs command => do
    let m ← parseArgsTraced command s.storedBuf
    pure { s with storedBuf := m }
  | .getargs buf nbytes => do
    let r ← s.getargsTraced buf nbytes
    pure r.kernel

/-- The step of a call. -/
def ArgumentStep (s : Kernel) (c : ArgumentCall) (t : Kernel) : Prop := t = (c.run s).val

namespace Kernel

/-- **The call stays in `stored_buf`** and leaves a NUL there. -/
def InBuffer (s : Kernel) (c : ArgumentCall) : Prop :=
  (c.run s).Within (· < bufSize) ∧ HasNul (c.run s).val.storedBuf

/-- The arguments and their terminator fit, and the size is not beyond the buffer. -/
def FitsBuffer (s : Kernel) : ArgumentCall → Prop
  | .parseArgs command => command.args.length < bufSize - 1 ∨
      command.args.length = bufSize - 1 ∧ s.storedBuf (bufSize - 1) = 0
  | .getargs _ nbytes => (u32 nbytes).toNat ≤ bufSize

end Kernel

section Calls

variable {s t : Kernel} {c : ArgumentCall} {cs : List ArgumentCall}

/-- **One call.** -/
theorem inBuffer_iff (h : HasNul s.storedBuf) : s.InBuffer c ↔ s.FitsBuffer c := by
  cases c with
  | parseArgs command =>
    have hval : ((ArgumentCall.parseArgs command).run s).val.storedBuf
        = parseArgs command s.storedBuf := val_parseArgsTraced command s.storedBuf
    rw [Kernel.InBuffer, hval, hasNul_parseArgs]
    exact and_iff_right (within_bind.2 ⟨within_parseArgsTraced _ _, within_pure _⟩)
  | getargs buf nbytes =>
    have hval : ((ArgumentCall.getargs buf nbytes).run s).val
        = (s.getargs buf nbytes).kernel :=
      congrArg ReadResult.kernel (s.val_getargsTraced buf nbytes)
    rw [Kernel.InBuffer, hval, Kernel.getargs_storedBuf, ArgumentCall.run, within_bind,
      Kernel.within_getargsTraced h]
    exact ⟨fun hin => hin.1.1, fun hn => ⟨⟨hn, within_pure _⟩, h.clearNewlines _⟩⟩

/-- **Every call of a sequence stays in `stored_buf`** and leaves a NUL there exactly when every
call fits. -/
theorem inBuffer_run_iff (h : HasNul s.storedBuf) :
    Run (Guarded Kernel.InBuffer ArgumentStep) s cs t ↔
      Run (Guarded Kernel.FitsBuffer ArgumentStep) s cs t := by
  refine Run.guarded_congr (I := fun s => HasNul s.storedBuf) (fun s c hs => inBuffer_iff hs) ?_ h
  rintro s c t - hin rfl
  exact hin.2

end Calls

/-- The arguments of `a x`, read back with a size of ten bytes. -/
theorem inBuffer_run_firstCommand :
    ∃ t, Run (Guarded Kernel.InBuffer ArgumentStep) default
      [.parseArgs firstCommand, .getargs (fun _ => 0) 10] t :=
  ⟨_, (inBuffer_run_iff ⟨0, by decide, rfl⟩).2
    (.cons ⟨Or.inl (by decide), rfl⟩ (.single ⟨(by decide : (u32 10).toNat ≤ bufSize), rfl⟩))⟩

/-- **`getargs` can pass the end of `stored_buf`:** with `1025` for the size it reads the byte
behind the buffer, and with `-1`, which is `2³² - 1` to the comparison, all of memory. -/
theorem not_inBuffer_getargs :
    ¬ ((ArgumentCall.getargs (fun _ => 0) 1025).run default).Within (· < bufSize) ∧
      ¬ ((ArgumentCall.getargs (fun _ => 0) (-1)).run default).Within (· < bufSize) := by
  have hnul : HasNul (default : Kernel).storedBuf := ⟨0, by decide, rfl⟩
  constructor <;> intro h <;>
    exact absurd ((Kernel.within_getargsTraced hnul _ _).1 (within_bind.1 h).1) (by decide)

end OS391
