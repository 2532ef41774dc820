/-
# Whose arguments `getargs` returns

The kernel has one `stored_buf`: every call of `execute` writes the arguments of its command
there, before it knows whether there is such a program, and `getargs` reads what it finds.
A `History` records what the kernel does not: the command each process was started with, and
the command of the latest call of `execute`.

After every run `stored_buf` holds the arguments of that latest command
(`HistoryRun.stored`), so `getargs` is right about its caller exactly when the caller's
own command has the same argument string, or when the string does not fit and the call
fails (`ownArguments_iff`).
-/

import OS391.Context
import Mathlib.Data.List.GetD
import Mathlib.Data.List.TakeWhile

namespace OS391

open Lib

/-! ### Argument strings -/

/-- The bytes after the blank that ends the name of the program. -/
def CString.args (command : CString) : List UInt8 :=
  ((command.bytes.dropWhile (· = 32)).dropWhile (· ≠ 32)).tail

/-- The argument string of a command: the arguments up to the first newline. -/
def argString (command : CString) : List UInt8 := command.args.takeWhile (· ≠ 10)

/-- `r` is `buf` with a string and its terminator written at the start. -/
def HoldsString (str : List UInt8) (buf r : ℕ → UInt8) : Prop :=
  ∀ i, r i = if i < str.length then str.getD i 0 else if i = str.length then 0 else buf i

/-- Where the argument string ends before the arguments do there is a newline. -/
theorem getElem_length_takeWhile {l : List UInt8} {p : UInt8 → Bool}
    (h : (l.takeWhile p).length < l.length) : p l[(l.takeWhile p).length] = false := by
  induction l with
  | nil => simp at h
  | cons b l ih =>
    by_cases hb : p b = true
    · simp only [List.takeWhile_cons_of_pos hb, List.length_cons, List.getElem_cons_succ]
      exact ih (by simpa [List.takeWhile_cons_of_pos hb] using h)
    · simpa [List.takeWhile_cons_of_neg hb] using hb

theorem getElem_argString {command : CString} {i : ℕ} (h : i < (argString command).length) :
    ∃ h' : i < command.args.length, command.args[i] = (argString command)[i] ∧
      (argString command)[i] ≠ 10 := by
  have hbefore : argString command <+: command.args := List.takeWhile_prefix _
  refine ⟨Nat.lt_of_lt_of_le h hbefore.length_le, (hbefore.getElem h).symm, ?_⟩
  simpa using List.mem_takeWhile_imp (List.getElem_mem h)

theorem CString.zero_notMem_args (command : CString) : (0 : UInt8) ∉ command.args := fun h =>
  command.noNul (List.dropWhile_subset _ (List.dropWhile_subset _ (List.mem_of_mem_tail h)))

theorem zero_notMem_argString (command : CString) : (0 : UInt8) ∉ argString command := fun h =>
  command.zero_notMem_args (List.takeWhile_subset _ h)

/-- What a buffer holds determines the string. -/
theorem HoldsString.unique {a b : List UInt8} {buf r : ℕ → UInt8} (ha : HoldsString a buf r)
    (hb : HoldsString b buf r) (ha₀ : 0 ∉ a) (hb₀ : 0 ∉ b) : a = b := by
  have hne {l : List UInt8} (h : HoldsString l buf r) (h₀ : 0 ∉ l) {i : ℕ} (hi : i < l.length) :
      r i = l[i] ∧ r i ≠ 0 := by
    have hri := h i
    rw [if_pos hi, List.getD_eq_getElem _ _ hi] at hri
    exact ⟨hri, fun h0 => h₀ (h0 ▸ hri ▸ List.getElem_mem hi)⟩
  have hend {l : List UInt8} (h : HoldsString l buf r) : r l.length = 0 := by
    have hri := h l.length
    rwa [if_neg (Nat.lt_irrefl _), if_pos rfl] at hri
  have hlen : a.length = b.length := by
    rcases Nat.lt_trichotomy a.length b.length with h | h | h
    · exact absurd (hend ha) (hne hb hb₀ h).2
    · exact h
    · exact absurd (hend hb) (hne ha ha₀ h).2
  refine List.ext_getElem hlen fun i hi hi' => ?_
  rw [← (hne ha ha₀ hi).1, (hne hb hb₀ hi').1]

/-! ### `stored_buf` -/

/-- `stored_buf` holds the arguments of a command, some of their newlines perhaps cleared. -/
structure Stored (command : CString) (stored : ℕ → UInt8) : Prop where
  bytes : ∀ i (h : i < command.args.length), i < bufSize →
    stored i = command.args[i] ∨ command.args[i] = 10 ∧ stored i = 0
  terminator : command.args.length < bufSize - 1 → stored command.args.length = 0

section ParseArgs

variable {command : CString} {stored : ℕ → UInt8}

/-- What `parse_args` leaves, by the length of the arguments. -/
theorem parseArgs_cases (command : CString) (stored : ℕ → UInt8) :
    parseArgs command stored = fillLoop stored 0 1024 ∧ command.args = [] ∨
      parseArgs command stored
        = let idx := min command.args.length bufSize
          let m := copyLoop stored 0 (fun i => command.args.getD i 0) idx
          if idx < bufSize - 1 then Function.update m idx (command.args.getD idx 0) else m := by
  have hargs : command.args = ((command.bytes.dropWhile (· = 32)).dropWhile (· ≠ 32)).tail := rfl
  unfold parseArgs
  cases hrest : (command.bytes.dropWhile (· = 32)).dropWhile (· ≠ 32) with
  | nil => exact Or.inl ⟨rfl, by rw [hargs, hrest, List.tail_nil]⟩
  | cons b args =>
    rw [hrest, List.tail_cons] at hargs
    rw [hargs]
    exact Or.inr rfl

/-- The arguments are copied up to the end of the buffer. -/
theorem parseArgs_apply {i : ℕ} (hi : i < command.args.length) (hsize : i < bufSize) :
    parseArgs command stored i = command.args[i] := by
  rcases parseArgs_cases command stored with ⟨-, hnil⟩ | heq
  · simp [hnil] at hi
  · have hcopy : copyLoop stored 0 (fun i => command.args.getD i 0)
        (min command.args.length bufSize) i = command.args[i] := by
      rw [copyLoop_start (by omega), List.getD_eq_getElem _ _ hi]
    rw [heq]
    dsimp only
    split_ifs
    · rw [Function.update_of_ne (by omega), hcopy]
    · exact hcopy

/-- A NUL follows where it is not the last byte of the buffer. -/
theorem parseArgs_terminator (h : command.args.length < bufSize - 1) :
    parseArgs command stored command.args.length = 0 := by
  rcases parseArgs_cases command stored with ⟨heq, hnil⟩ | heq
  · rw [heq, hnil, fillLoop_apply]
    rfl
  · have hmin : min command.args.length bufSize = command.args.length := by omega
    rw [heq, hmin]
    dsimp only
    rw [if_pos h, Function.update_self, List.getD_eq_default _ _ (Nat.le_refl _)]

/-- The last byte of the buffer is left as it was. -/
theorem parseArgs_last (h : command.args.length = bufSize - 1) :
    parseArgs command stored (bufSize - 1) = stored (bufSize - 1) := by
  rcases parseArgs_cases command stored with ⟨-, hnil⟩ | heq
  · rw [hnil] at h
    exact absurd h (by decide)
  · have hmin : min command.args.length bufSize = bufSize - 1 := by omega
    rw [heq, hmin]
    dsimp only
    rw [if_neg (Nat.lt_irrefl _), copyLoop_outside (by omega)]

/-- **`parse_args` stores the arguments.** -/
theorem stored_parseArgs (command : CString) (stored : ℕ → UInt8) :
    Stored command (parseArgs command stored) :=
  ⟨fun _ hi hsize => Or.inl (parseArgs_apply hi hsize), parseArgs_terminator⟩

end ParseArgs

/-- The loop over newlines keeps the arguments. -/
theorem Stored.clearNewlines {command : CString} {stored : ℕ → UInt8} (h : Stored command stored)
    (n : ℕ) : Stored command (mapLoop (fun b => if b = 10 then 0 else b) stored n) := by
  refine ⟨fun i hi hsize => ?_, fun hlen => ?_⟩ <;> rw [mapLoop_apply]
  · have hi' := h.bytes i hi hsize
    split_ifs with hlt h10
    · rcases hi' with heq | ⟨heq, h0⟩
      · exact Or.inr ⟨heq ▸ h10, rfl⟩
      · exact Or.inr ⟨heq, rfl⟩
    · exact hi'
    · exact hi'
  · rw [h.terminator hlen]
    split_ifs <;> rfl

/-! ### `getargs` -/

/-- The argument string and its terminator fit into `n` bytes.  A string that fills
`stored_buf` to the last byte was given no terminator there. -/
structure Fits (command : CString) (stored : ℕ → UInt8) (n : ℕ) : Prop where
  pos : 0 < (argString command).length
  lt : (argString command).length < n
  terminated : (argString command).length = bufSize - 1 → command.args.length = bufSize - 1 →
    stored (bufSize - 1) = 0 ∨ stored (bufSize - 1) = 10

section Getargs

variable {command : CString} {stored : ℕ → UInt8} {n : ℕ}

/-- The cleared buffer holds the argument string, as far as it was cleared. -/
theorem Stored.cleared (h : Stored command stored) (hn : n ≤ bufSize) {i : ℕ} (hin : i < n)
    (hi : i < (argString command).length) :
    mapLoop (fun b => if b = 10 then 0 else b) stored n i = (argString command)[i] := by
  obtain ⟨hlen, hbyte, hne⟩ := getElem_argString hi
  have hstored : stored i = (argString command)[i] := by
    rcases h.bytes i hlen (by omega) with heq | ⟨heq, -⟩
    · exact heq.trans hbyte
    · exact absurd (hbyte.symm.trans heq) hne
  rw [mapLoop_apply, if_pos hin, hstored, if_neg hne]

theorem Stored.cleared_ne_zero (h : Stored command stored) (hn : n ≤ bufSize) {i : ℕ} (hin : i < n)
    (hi : i < (argString command).length) :
    mapLoop (fun b => if b = 10 then 0 else b) stored n i ≠ 0 := by
  rw [h.cleared hn hin hi]
  exact fun h0 => zero_notMem_argString command (h0 ▸ List.getElem_mem hi)

/-- Behind the argument string there is a NUL, unless it fills `stored_buf`. -/
theorem Stored.cleared_end (h : Stored command stored) (hn : n ≤ bufSize)
    (hlt : (argString command).length < n)
    (hterm : (argString command).length = bufSize - 1 → command.args.length = bufSize - 1 →
      stored (bufSize - 1) = 0 ∨ stored (bufSize - 1) = 10) :
    mapLoop (fun b => if b = 10 then 0 else b) stored n (argString command).length = 0 := by
  have hzero {b : UInt8} (hb : b = 0 ∨ b = 10) : (if b = 10 then 0 else b) = 0 := by
    rcases hb with rfl | rfl <;> rfl
  have hle : (argString command).length ≤ command.args.length :=
    (List.takeWhile_prefix _).length_le
  rw [mapLoop_apply, if_pos hlt]
  apply hzero
  by_cases hin : (argString command).length < command.args.length
  · have h10 : command.args[(argString command).length] = 10 := by
      have hstop := getElem_length_takeWhile (p := fun b => decide (b ≠ 10)) hin
      exact Decidable.not_not.1 (of_decide_eq_false hstop)
    rcases h.bytes _ hin (by omega) with heq | ⟨-, h0⟩
    · exact Or.inr (heq.trans h10)
    · exact Or.inl h0
  · have hall : (argString command).length = command.args.length := by omega
    by_cases hfull : command.args.length < bufSize - 1
    · rw [hall]
      exact Or.inl (h.terminator hfull)
    · have hlast : command.args.length = bufSize - 1 := by omega
      rw [hall, hlast] at hterm ⊢
      exact hterm rfl rfl

variable {s : Kernel} {buf : ℕ → UInt8} {nbytes : ℤ}

/-- **`getargs` returns the stored argument string** when it fits. -/
theorem getargs_of_fits (buf : ℕ → UInt8) (h : Stored command s.storedBuf)
    (hn : (u32 nbytes).toNat ≤ bufSize) (hfits : Fits command s.storedBuf (u32 nbytes).toNat) :
    (s.getargs buf nbytes).ret = 0 ∧
      HoldsString (argString command) buf (s.getargs buf nbytes).buf := by
  set n := (u32 nbytes).toNat with hdef
  have hend := h.cleared_end hn hfits.lt hfits.terminated
  have hcount : strnlen (mapLoop (fun b => if b = 10 then 0 else b) s.storedBuf n) n
      = (argString command).length :=
    strnlen_eq (by have := hfits.lt; omega)
      (fun i hi => h.cleared_ne_zero hn (Nat.lt_trans hi hfits.lt) hi) fun _ => hend
  have hpos := hfits.pos
  have hlt := hfits.lt
  simp only [Kernel.getargs, Kernel.clearNewlines, Kernel.cli, ← hdef, hcount]
  rw [if_neg (by simp [hend]), if_neg (by omega), if_neg (by omega)]
  refine ⟨rfl, fun i => ?_⟩
  dsimp only
  by_cases hi : i < (argString command).length
  · rw [if_pos hi, Function.update_of_ne (by omega), copyLoop_start hi,
      h.cleared hn (by omega) hi, List.getD_eq_getElem _ _ hi]
  · rw [if_neg hi]
    by_cases heq : i = (argString command).length
    · rw [if_pos heq, heq, Function.update_self, hend]
    · rw [if_neg heq, Function.update_of_ne heq, copyLoop_outside (by omega)]

/-- **`getargs` fails** when the stored argument string does not fit. -/
theorem getargs_of_not_fits (h : Stored command s.storedBuf) (hn : (u32 nbytes).toNat ≤ bufSize)
    (hfits : ¬ Fits command s.storedBuf (u32 nbytes).toNat) : (s.getargs buf nbytes).ret ≠ 0 := by
  set n := (u32 nbytes).toNat with hdef
  set m := mapLoop (fun b => if b = 10 then 0 else b) s.storedBuf n with hm
  have hcount : strnlen m n = 0 ∨ strnlen m n = n := by
    by_cases hlt : (argString command).length < n
    · by_cases hpos : 0 < (argString command).length
      · refine Or.inr (strnlen_eq (Nat.le_refl n) (fun i hi => ?_) fun hi => absurd hi (by omega))
        by_cases hin : i < (argString command).length
        · exact h.cleared_ne_zero hn hi hin
        · -- the string fills `stored_buf`, and the last byte is no terminator
          have hterm : ¬ ((argString command).length = bufSize - 1 →
              command.args.length = bufSize - 1 →
                s.storedBuf (bufSize - 1) = 0 ∨ s.storedBuf (bufSize - 1) = 10) :=
            fun hterm => hfits ⟨hpos, hlt, hterm⟩
          push Not at hterm
          obtain ⟨hfull, -, h0, h10⟩ := hterm
          obtain rfl : i = bufSize - 1 := by omega
          rw [hm, mapLoop_apply, if_pos hi, if_neg h10]
          exact h0
      · refine Or.inl (strnlen_eq (Nat.zero_le n) (fun i hi => absurd hi (Nat.not_lt_zero i))
          fun _ => ?_)
        have hnil : (argString command).length = 0 := by omega
        have hend := h.cleared_end hn hlt (fun hfull => absurd hfull (by rw [hnil]; decide))
        rwa [hnil] at hend
    · exact Or.inr (strnlen_eq (Nat.le_refl n)
        (fun i hi => h.cleared_ne_zero hn hi (by omega)) fun hi => absurd hi (Nat.lt_irrefl n))
  simp only [Kernel.getargs, Kernel.clearNewlines, Kernel.cli, ← hdef, ← hm]
  have hone : (-1 : ℤ) ≠ 0 := by decide
  split_ifs with h₁ h₂ h₃
  · exact hone
  · exact hone
  · exact hone
  · exact absurd hcount (by omega)

end Getargs

/-! ### Runs with a history -/

/-- What the kernel does not record: the command each process was started with, and the
command of the latest call of `execute`, whether it started a process or not. -/
structure History where
  command : ℤ → CString
  latest : CString

/-- The history after boot: the latest command started the third shell. -/
def History.boot : History :=
  { command := fun _ => Kernel.shellCommand, latest := Kernel.shellCommand }

/-- What an operation adds.  A base shell that restarts keeps its command. -/
def History.next (fs : FileSys) (s : Kernel) (h : History) : Event → History
  | .execute command frame =>
    { latest := command
      command := match (s.execute fs command frame).1 with
        | .launched pid => Function.update h.command pid command
        | _ => h.command }
  | _ => h

/-- The operation does not pass the end of `stored_buf`. -/
def InStoredBuf (_ : Kernel) (e : Event) : Prop :=
  match e with
  | .getargs _ nbytes => (u32 nbytes).toNat ≤ bufSize
  | _ => True

/-- A run with its history, in which no `getargs` passes the end of `stored_buf`. -/
def HistoryRun (fs : FileSys) : Kernel × History → List Event → Kernel × History → Prop :=
  Run (Recorded (History.next fs) (Guarded InStoredBuf (Step fs)))

/-- **A call of `getargs` that succeeds** returns the argument string of the command that
the running process was started with. -/
def OwnArguments (s : Kernel) (h : History) (buf : ℕ → UInt8) (nbytes : ℤ) : Prop :=
  (s.getargs buf nbytes).ret = 0 →
    HoldsString (argString (h.command s.processNum)) buf (s.getargs buf nbytes).buf

section Runs

variable {fs : FileSys} {s t : Kernel} {es : List Event}

theorem Kernel.getargs_storedBuf (buf : ℕ → UInt8) (nbytes : ℤ) :
    (s.getargs buf nbytes).kernel.storedBuf
      = mapLoop (fun b => if b = 10 then 0 else b) s.storedBuf (u32 nbytes).toNat := by
  simp only [Kernel.getargs]
  split_ifs <;> rfl

theorem Kernel.scheduler_storedBuf (frame : Frame) (h : 3 ≤ s.pitCount) :
    (s.scheduler fs frame).storedBuf = s.storedBuf := by
  have hswitch (u : Kernel) : u.switchProcess.storedBuf = u.storedBuf := rfl
  have hfinish (u : Kernel) : u.finishBoot.storedBuf = u.storedBuf := by
    unfold Kernel.finishBoot
    split_ifs <;> rfl
  rw [Kernel.scheduler, if_neg (by omega), if_neg (by omega), hswitch, hfinish]
  rfl

theorem Kernel.halt_storedBuf (status : ℤ) (frame : Frame) :
    (s.halt status frame).storedBuf = s.storedBuf := by
  cases hbase : (s.pcb s.processNum).isBaseShell with
  | false => exact (s.halt_frame status frame hbase).2.2.2
  | true => exact (s.restart_frame status frame hbase).2.2.2

/-- **A call of `execute` stores its arguments,** whatever becomes of it. -/
theorem Kernel.execute_storedBuf (command : CString) (frame : Frame)
    (hmax : s.processNum ≤ maxPcb) :
    (s.execute fs command frame).2.storedBuf = parseArgs command s.storedBuf := by
  rcases s.execute_cases fs command frame hmax with ⟨pid, hlaunch⟩ | hstop
  · obtain ⟨u, entryPoint, isShellFlag, hparsed, -, heq⟩ := hlaunch
    obtain ⟨pcb, array, curr, count, hframe⟩ :=
      (u.pagingExecute pid).launch_frame pid entryPoint isShellFlag frame
    rw [heq, hframe]
    exact hparsed.storedBuf
  · exact hstop.2.storedBuf

/-- **A step** leaves the arguments of the latest command in `stored_buf`. -/
theorem Step.stored {h : History} {e : Event} (hs : Running s)
    (hstored : Stored h.latest s.storedBuf) (hstep : Step fs s e t) :
    Stored (h.next fs s e).latest t.storedBuf := by
  have hsame (heq : t.storedBuf = s.storedBuf) : Stored h.latest t.storedBuf := heq ▸ hstored
  cases hstep with
  | tick esp ebp frame =>
    refine hsame (Kernel.scheduler_storedBuf (s := s.withRegisters esp ebp) frame ?_)
    exact hs.1 ▸ (by decide : 3 ≤ 4)
  | execute hrun command frame =>
    rw [Kernel.execute_storedBuf command frame hs.processNum_bounds.2]
    exact stored_parseArgs command s.storedBuf
  | systemHalt hrun status frame => exact hsame (Kernel.halt_storedBuf _ frame)
  | exceptionHalt hrun status frame => exact hsame (Kernel.halt_storedBuf _ frame)
  | getargs hrun buf nbytes =>
    rw [Kernel.getargs_storedBuf]
    exact hstored.clearNewlines _
  | openCall hrun filename junk =>
    obtain ⟨pcb, rtc, flag, hframe⟩ := s.openCall_frame fs filename junk
    exact hsame (by rw [hframe])
  | close hrun fd =>
    obtain ⟨pcb, flag, hframe⟩ := s.close_frame fd
    exact hsame (by rw [hframe])
  | vidmap hrun screenStart =>
    obtain ⟨dir, table, flag, hframe, -⟩ := s.vidmap_frame screenStart
    exact hsame (by rw [hframe])
  | switchTerminals next => exact hsame rfl

/-- **After every run** `stored_buf` holds the arguments of the latest command. -/
theorem HistoryRun.stored {h : History} (hboot : Booted s) (hargs : s.storedBuf 0 = 0)
    (hr : HistoryRun fs (s, .boot) es (t, h)) : Stored h.latest t.storedBuf := by
  have hnil : Kernel.shellCommand.args.length = 0 := by decide
  have hshell : Stored Kernel.shellCommand s.storedBuf :=
    ⟨fun i hi => absurd hi (by omega), fun _ => hnil ▸ hargs⟩
  have hinv := hr.invariant (I := fun p => Running p.1 ∧ Stored p.2.latest p.1.storedBuf)
    (fun p e q ⟨hrunning, hstored⟩ ⟨hstep, hnext⟩ =>
      ⟨hrunning.step hstep.2, hnext ▸ hstep.2.stored hrunning hstored⟩) ⟨hboot.running, hshell⟩
  exact hinv.2

/-- **`getargs` is right about its caller exactly when** the latest command that `execute`
parsed, of whatever process and with whatever success, has the caller's own argument
string, or one that does not fit. -/
theorem ownArguments_iff {h : History} (hboot : Booted s) (hargs : s.storedBuf 0 = 0)
    (hr : HistoryRun fs (s, .boot) es (t, h)) (buf : ℕ → UInt8) {nbytes : ℤ}
    (hn : (u32 nbytes).toNat ≤ bufSize) :
    OwnArguments t h buf nbytes ↔
      argString h.latest = argString (h.command t.processNum) ∨
        ¬ Fits h.latest t.storedBuf (u32 nbytes).toNat := by
  have hstored := hr.stored hboot hargs
  by_cases hfits : Fits h.latest t.storedBuf (u32 nbytes).toNat
  · obtain ⟨hret, hholds⟩ := getargs_of_fits buf hstored hn hfits
    constructor
    · intro hown
      exact Or.inl (hholds.unique (hown hret) (zero_notMem_argString _) (zero_notMem_argString _))
    · intro hcond _
      exact hcond.resolve_right (not_not_intro hfits) ▸ hholds
  · exact ⟨fun _ => Or.inr hfits, fun _ hret => absurd hret (getargs_of_not_fits hstored hn hfits)⟩

end Runs

/-! ### Two commands -/

/-- The command `a x`, for a program that is there. -/
def firstCommand : CString where
  bytes := ascii "a x".toList
  noNul := by decide

/-- The command `b y`, for one that is not. -/
def secondCommand : CString where
  bytes := ascii "b y".toList
  noNul := by decide

/-- A history in which `a x` is started from the first shell. -/
theorem historyRun_firstCommand :
    HistoryRun programImage (bootedKernel, .boot) [.execute firstCommand zeroFrame]
      ((bootedKernel.execute programImage firstCommand zeroFrame).2,
        History.next programImage bootedKernel .boot (.execute firstCommand zeroFrame)) :=
  .single ⟨⟨trivial, .execute (by decide) firstCommand zeroFrame⟩, rfl⟩

/-- The process started with `a x` gets its own arguments. -/
theorem ownArguments_firstCommand :
    OwnArguments (bootedKernel.execute programImage firstCommand zeroFrame).2
      (History.next programImage bootedKernel .boot (.execute firstCommand zeroFrame))
      (fun _ => 0) 10 :=
  (ownArguments_iff booted_bootedKernel rfl historyRun_firstCommand (fun _ => 0) (by decide)).2
    (Or.inl (by decide +kernel))

/-- The kernel when `a x` runs in the first terminal, `b y` has failed in the second, and
two ticks have gone by. -/
def secondKernel : Kernel :=
  let tick (s : Kernel) := (s.withRegisters 0 0).scheduler programImage zeroFrame
  let s := tick (bootedKernel.execute programImage firstCommand zeroFrame).2
  tick (tick (s.execute programImage secondCommand zeroFrame).2)

/-- **`getargs` can return the arguments of another terminal's failed command:** `a x` runs
in the first terminal and is interrupted; the shell of the second calls `execute` for
`b y`, which returns `-1`; when `a` has its turn again, it gets `y`. -/
theorem not_ownArguments_secondKernel :
    Booted bootedKernel ∧ ∃ h,
      HistoryRun programImage (bootedKernel, .boot)
        [.execute firstCommand zeroFrame, .tick 0 0 zeroFrame, .execute secondCommand zeroFrame,
          .tick 0 0 zeroFrame, .tick 0 0 zeroFrame] (secondKernel, h) ∧
      h.command secondKernel.processNum = firstCommand ∧
      ¬ OwnArguments secondKernel h (fun _ => 0) 10 := by
  set s₁ := (bootedKernel.execute programImage firstCommand zeroFrame).2 with hs₁
  set s₂ := (s₁.withRegisters 0 0).scheduler programImage zeroFrame with hs₂
  set s₃ := (s₂.execute programImage secondCommand zeroFrame).2 with hs₃
  set s₄ := (s₃.withRegisters 0 0).scheduler programImage zeroFrame with hs₄
  have hlaunch : (bootedKernel.execute programImage firstCommand zeroFrame).1 = .launched 3 := by
    decide +kernel
  have hfail : (s₂.execute programImage secondCommand zeroFrame).1 = .failed := by decide +kernel
  have hnum : secondKernel.processNum = 3 := by decide +kernel
  have hcommand : (History.next programImage s₂ (History.next programImage bootedKernel .boot
      (.execute firstCommand zeroFrame)) (.execute secondCommand zeroFrame)).command 3
        = firstCommand := by
    simp only [History.next, hlaunch, hfail, Function.update_self]
  have htick (s : Kernel) (h : History) : Recorded (History.next programImage)
      (Guarded InStoredBuf (Step programImage)) (s, h) (.tick 0 0 zeroFrame)
      ((s.withRegisters 0 0).scheduler programImage zeroFrame, h) :=
    ⟨⟨trivial, .tick s 0 0 zeroFrame⟩, rfl⟩
  have hpos : 0 ≤ s₂.processNum := by decide +kernel
  have hexec (h : History) : Recorded (History.next programImage)
      (Guarded InStoredBuf (Step programImage)) (s₂, h) (.execute secondCommand zeroFrame)
      (s₃, h.next programImage s₂ (.execute secondCommand zeroFrame)) :=
    ⟨⟨trivial, .execute hpos secondCommand zeroFrame⟩, rfl⟩
  have hrun := historyRun_firstCommand.append
    (.cons (htick s₁ _) (.cons (hexec _) (.cons (htick s₃ _) (.single (htick s₄ _)))))
  refine ⟨booted_bootedKernel, _, hrun, hnum ▸ hcommand, fun hown => ?_⟩
  have hret : (secondKernel.getargs (fun _ => 0) 10).ret = 0 := by decide +kernel
  have hbyte : (secondKernel.getargs (fun _ => 0) 10).buf 0 = 121 := by decide +kernel
  have hholds := hown hret 0
  rw [hbyte, hnum] at hholds
  rw [show argString _ = argString firstCommand from congrArg argString hcommand] at hholds
  exact absurd hholds (by decide +kernel)

end OS391
