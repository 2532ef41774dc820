/-
# The descriptor table as a partial map

What `open`, `read`, `write` and `close` do to the descriptors of a process is what they
would do to a partial map from `{2..7}` to a kind, an inode and a position: `Table.Step`
says it on the map, with nothing of how the kernel finds a PCB, searches a slot or marks it.

`CallStep.refines` matches a call of the kernel with a step of the map, and `table_refines`
a sequence of calls with a run, return values included.
-/

import OS391.Context
import OS391.Lib.Slots
import OS391.Lookup
import OS391.ReadCall
import OS391.ReadData
import OS391.Table
import Mathlib.Data.List.Find

namespace OS391

open Lib

/-! ### The map -/

/-- What a descriptor from 2 on is of. -/
inductive Kind
  | rtc | directory | file
  deriving DecidableEq

/-- What a bound descriptor is bound to. -/
@[ext] structure Entry where
  kind : Kind
  inode : ℕ
  position : ℕ

/-- The bound descriptors. -/
abbrev Table := ℤ → Option Entry

/-- The descriptors that can be bound. -/
def slots : List ℤ := [2, 3, 4, 5, 6, 7]

/-- A call, with its arguments; `junk` is what `open` would return for an entry of a type
it does not know. -/
inductive Call
  | openCall (filename : Option CString) (junk : ℤ)
  | read (fd : ℤ) (nonNull : Bool) (buf : ℕ → UInt8) (n : ℤ)
  | write (fd : ℤ) (nonNull : Bool) (buf : ℕ → UInt8) (n : ℤ)
  | close (fd : ℤ)

/-- What `open` binds to a directory entry. -/
def Dentry.entry (d : Dentry) : Entry :=
  if d.fileType = rtcFileType then { kind := .rtc, inode := 0, position := 0 }
  else if d.fileType = directoryFileType then { kind := .directory, inode := 0, position := 0 }
  else { kind := .file, inode := d.inodeNum, position := 0 }

/-- The position after `n` bytes are read: past the bytes there were, past the entry there
was, and in the RTC where it was. -/
def Entry.moved (fs : FileSys) (e : Entry) (n : ℤ) : ℕ :=
  match e.kind with
  | .rtc => e.position
  | .directory => if e.position < fs.dirCount then (u32 (e.position + 1)).toNat else e.position
  | .file =>
    let readBytes := (readData fs e.inode e.position (fun _ => 0) (u32 n).toNat).1
    if readBytes = u32 (-1) then e.position else (u32 (e.position + readBytes)).toNat

/-- **A call on the map,** with its return value. -/
inductive Table.Step (fs : FileSys) : Table → Call × ℤ → Table → Prop
  /-- The least free descriptor is bound to the entry of that name. -/
  | bind {m : Table} {fd : ℤ} {name : CString} {d : Dentry} {junk : ℤ}
      (hname : fs.lookup name = some d) (hfd : LeastFree slots m fd) :
      Step fs m (.openCall (some name) junk, fd) (Function.update m fd (some d.entry))
  | full {m : Table} {name : CString} {junk : ℤ} (h : Full slots m) :
      Step fs m (.openCall (some name) junk, -1) m
  | absent {m : Table} {name : CString} {junk : ℤ} (h : fs.lookup name = none) :
      Step fs m (.openCall (some name) junk, -1) m
  | noName {m : Table} {junk : ℤ} : Step fs m (.openCall none junk, -1) m
  /-- A bound descriptor is read from, and its position moves. -/
  | read {m : Table} {fd n r : ℤ} {e : Entry} {buf : ℕ → UInt8} (h : m fd = some e) (hn : 0 ≤ n) :
      Step fs m (.read fd true buf n, r)
        (Function.update m fd (some { e with position := e.moved fs n }))
  | readRefused {m : Table} {fd n : ℤ} {nonNull : Bool} {buf : ℕ → UInt8}
      (h : nonNull = false ∨ n < 0) : Step fs m (.read fd nonNull buf n, -1) m
  | readUnbound {m : Table} {fd n : ℤ} {nonNull : Bool} {buf : ℕ → UInt8} (h : m fd = none)
      (hfd : fdMin ≤ fd) : Step fs m (.read fd nonNull buf n, -1) m
  | readStdio {m : Table} {fd n r : ℤ} {nonNull : Bool} {buf : ℕ → UInt8} (hfd : fd < fdMin) :
      Step fs m (.read fd nonNull buf n, r) m
  | write {m : Table} {fd n r : ℤ} {e : Entry} {nonNull : Bool} {buf : ℕ → UInt8}
      (h : m fd = some e) : Step fs m (.write fd nonNull buf n, r) m
  | writeUnbound {m : Table} {fd n : ℤ} {nonNull : Bool} {buf : ℕ → UInt8} (h : m fd = none)
      (hfd : fdMin ≤ fd) : Step fs m (.write fd nonNull buf n, -1) m
  | writeStdio {m : Table} {fd n r : ℤ} {nonNull : Bool} {buf : ℕ → UInt8} (hfd : fd < fdMin) :
      Step fs m (.write fd nonNull buf n, r) m
  /-- A bound descriptor is freed, and only it. -/
  | close {m : Table} {fd : ℤ} {e : Entry} (h : m fd = some e) :
      Step fs m (.close fd, 1) (Function.update m fd none)
  | closeUnbound {m : Table} {fd : ℤ} (h : m fd = none) : Step fs m (.close fd, -1) m

/-! ### The table of a process -/

/-- The kind of the operations of a descriptor. -/
def FopTable.kind : FopTable → Option Kind
  | .stdin | .stdout => none
  | .rtc => some .rtc
  | .directory => some .directory
  | .file => some .file

/-- What a descriptor is bound to. -/
def FileDescriptor.entry (d : FileDescriptor) : Option Entry :=
  if d.flags = true then
    d.fop.kind.map fun kind => { kind := kind, inode := d.inode, position := d.filePosition }
  else none

/-- The map that the descriptors of a process stand for. -/
def Pcb.table (p : Pcb) : Table := fun fd =>
  if fdMin ≤ fd ∧ fd ≤ fdMax then (p.fileDescriptor fd).entry else none

/-- An open descriptor has the operations of a kind. -/
def FileDescriptor.Typed (d : FileDescriptor) : Prop := d.flags = true → d.fop.kind ≠ none

/-- From 2 on every open descriptor has a kind. -/
def Pcb.Typed (p : Pcb) : Prop := ∀ fd, fdMin ≤ fd → fd ≤ fdMax → (p.fileDescriptor fd).Typed

section Pcb

variable {p q : Pcb} {fd : ℤ}

theorem FileDescriptor.entry_eq_none {d : FileDescriptor} (h : d.flags = false) :
    d.entry = none := by
  simp [entry, h]

/-- A typed descriptor is open when it is bound. -/
theorem FileDescriptor.Typed.entry_isNone {d : FileDescriptor} (h : d.Typed) :
    d.entry.isNone = !d.flags := by
  cases hflags : d.flags with
  | false => rw [FileDescriptor.entry_eq_none hflags]; rfl
  | true =>
    cases hkind : d.fop.kind with
    | none => exact absurd hkind (h hflags)
    | some kind => simp [FileDescriptor.entry, hflags, hkind]

theorem mem_slots : fd ∈ slots ↔ fdMin ≤ fd ∧ fd ≤ fdMax := by
  simp only [slots, List.mem_cons, List.not_mem_nil, or_false, fdMin, fdMax]
  omega

theorem Pcb.table_of_mem (h : fdMin ≤ fd ∧ fd ≤ fdMax) : p.table fd = (p.fileDescriptor fd).entry :=
  if_pos h

/-- **The search of the `open` functions** is the search of the map. -/
theorem freeDescriptor_eq (h : p.Typed) :
    freeDescriptor p = slots.find? fun fd => (p.table fd).isNone := by
  refine List.find?_congr fun fd hfd => ?_
  have hfd' := mem_slots.1 hfd
  rw [Pcb.table_of_mem hfd', (h fd hfd'.1 hfd'.2).entry_isNone]

end Pcb

/-! ### The running process -/

namespace Kernel

/-- The system calls work for the running process, and its table is typed. -/
structure Serving (s : Kernel) : Prop where
  scheduled : s.processNum = s.scheduledPid
  typed : (s.pcb s.processNum).Typed

/-- The map of the running process. -/
def table (s : Kernel) : Table := (s.pcb s.processNum).table

section Serving

variable {fs : FileSys} {s t : Kernel} {fd : ℤ}

/-- What leaves the process its descriptors from 2 on leaves its table. -/
theorem Serving.of_fileDescriptor (h : s.Serving) (hnum : t.processNum = s.processNum)
    (hsched : t.scheduledPid = s.scheduledPid)
    (hfd : ∀ i, fdMin ≤ i → i ≤ fdMax →
      (t.pcb s.processNum).fileDescriptor i = (s.pcb s.processNum).fileDescriptor i) :
    t.Serving ∧ t.table = s.table := by
  refine ⟨⟨by rw [hnum, hsched, h.scheduled], fun i hi hi' => ?_⟩, funext fun i => ?_⟩
  · rw [hnum, hfd i hi hi']
    exact h.typed i hi hi'
  · rw [table, table, hnum]
    by_cases hi : fdMin ≤ i ∧ i ≤ fdMax
    · rw [Pcb.table_of_mem hi, Pcb.table_of_mem hi, hfd i hi.1 hi.2]
    · exact (if_neg hi).trans (if_neg hi).symm

/-- What leaves the process its PCB leaves its table. -/
theorem Serving.resumed (h : s.Serving) (hres : Resumed s t) : t.Serving ∧ t.table = s.table :=
  h.of_fileDescriptor hres.processNum hres.scheduledPid fun i _ _ => by
    rw [h.scheduled, hres.fileDescriptor]

/-- **One descriptor changed** is one value of the map changed. -/
theorem Serving.modifyDescriptor (h : s.Serving) (hfd : fdMin ≤ fd ∧ fd ≤ fdMax)
    {f : FileDescriptor → FileDescriptor}
    (htyped : (f ((s.pcb s.processNum).fileDescriptor fd)).Typed) :
    (s.modifyDescriptor s.processNum fd f).Serving ∧
      (s.modifyDescriptor s.processNum fd f).table
        = Function.update s.table fd (f ((s.pcb s.processNum).fileDescriptor fd)).entry := by
  have hpcb (i : ℤ) :=
    s.modifyDescriptor_fileDescriptor s.processNum fd s.processNum i f
  refine ⟨⟨h.scheduled, fun i hi hi' => ?_⟩, funext fun i => ?_⟩
  · refine (hpcb i).symm ▸ ?_
    split_ifs with heq
    · exact heq.2 ▸ htyped
    · exact h.typed i hi hi'
  · show (if fdMin ≤ i ∧ i ≤ fdMax then _ else none) = _
    by_cases heq : i = fd
    · subst heq
      rw [if_pos hfd, Function.update_self]
      exact congrArg FileDescriptor.entry ((hpcb i).trans (if_pos ⟨rfl, rfl⟩))
    · rw [Function.update_of_ne heq]
      exact congrArg (fun d : FileDescriptor => if fdMin ≤ i ∧ i ≤ fdMax then d.entry else none)
        ((hpcb i).trans (if_neg fun hand => heq hand.2))

/-- A descriptor below 2 is not in the map. -/
theorem Serving.modifyDescriptor_of_lt (h : s.Serving) (hfd : fd < fdMin)
    (f : FileDescriptor → FileDescriptor) :
    (s.modifyDescriptor s.processNum fd f).Serving ∧
      (s.modifyDescriptor s.processNum fd f).table = s.table :=
  h.of_fileDescriptor rfl rfl fun i hi _ => by
    rw [modifyDescriptor_fileDescriptor, if_neg (by omega)]

/-- A bound descriptor is open, and its operations are those of its kind. -/
theorem table_eq_some {e : Entry} (h : s.table fd = some e) :
    (fdMin ≤ fd ∧ fd ≤ fdMax) ∧ ((s.pcb s.processNum).fileDescriptor fd).flags = true ∧
      ((s.pcb s.processNum).fileDescriptor fd).fop.kind = some e.kind ∧
      ((s.pcb s.processNum).fileDescriptor fd).inode = e.inode ∧
      ((s.pcb s.processNum).fileDescriptor fd).filePosition = e.position := by
  unfold table Pcb.table FileDescriptor.entry at h
  split_ifs at h with hfd hopen
  obtain ⟨kind, hkind, rfl⟩ := Option.map_eq_some_iff.1 h
  exact ⟨hfd, hopen, hkind, rfl, rfl⟩

/-- A descriptor in the range that is not bound is closed. -/
theorem Serving.flags_of_none (h : s.Serving) (hfd : fdMin ≤ fd ∧ fd ≤ fdMax)
    (hnone : s.table fd = none) : ((s.pcb s.processNum).fileDescriptor fd).flags = false := by
  have hentry := (h.typed fd hfd.1 hfd.2).entry_isNone
  rw [← Pcb.table_of_mem hfd, show (s.pcb s.processNum).table fd = none from hnone] at hentry
  simpa using hentry.symm

/-! ### `open` -/

/-- **The `open` functions** bind the least free descriptor, or fail when there is none. -/
theorem Serving.openDescriptor (h : s.Serving) (fop : FopTable) {fileType : ℕ}
    (inodeOf : Dentry → ℕ) (junk : ℤ) {name : CString} {d : Dentry}
    (hname : fs.lookup name = some d) (htype : d.fileType = fileType)
    (hentry : FileDescriptor.entry
      { fop := fop, inode := inodeOf d.padded, filePosition := 0, flags := true } = some d.entry) :
    let r := s.openDescriptor fs s.processNum fop fileType inodeOf name
    r.2.Serving ∧ Table.Step fs s.table (.openCall (some name) junk, r.1) r.2.table := by
  have hfree := freeDescriptor_eq h.typed
  unfold Kernel.openDescriptor
  cases hsearch : freeDescriptor (s.pcb s.processNum) with
  | none => exact ⟨h, .full (full_of_find? (hfree.symm.trans hsearch))⟩
  | some fd =>
    have hleast : LeastFree slots s.table fd :=
      leastFree_of_find? (by decide) (hfree.symm.trans hsearch)
    have hflags : ((s.pcb s.processNum).fileDescriptor fd).flags = false := by
      simpa using List.find?_some hsearch
    have htyped : FileDescriptor.Typed
        { fop := fop, inode := inodeOf d.padded, filePosition := 0, flags := true } := by
      intro _ hkind
      simp [FileDescriptor.entry, hkind] at hentry
    obtain ⟨hserving, htable⟩ := h.modifyDescriptor (mem_slots.1 hleast.mem)
      (f := fun _ => { fop := fop, inode := inodeOf d.padded, filePosition := 0, flags := true })
      htyped
    dsimp only
    rw [readDentryByName_eq, hname, Option.map_some]
    dsimp only
    rw [if_neg (not_not_intro (show d.padded.fileType = fileType from htype)), if_pos hflags]
    rw [hentry] at htable
    exact ⟨hserving, htable ▸ .bind hname hleast⟩

/-- What follows a call leaves the table. -/
theorem Serving.sti {m : Table} {c : Call × ℤ} (h : s.Serving ∧ Table.Step fs m c s.table) :
    s.sti.Serving ∧ Table.Step fs m c s.sti.table := by
  obtain ⟨hserving, htable⟩ := h.1.resumed (t := s.sti) ⟨rfl, rfl, rfl, rfl⟩
  exact ⟨hserving, htable ▸ h.2⟩

/-- **`open`** is a step of the map. -/
theorem Serving.openCall (h : s.Serving)
    (himage : ∀ i < fs.dirCount, (fs.direntries i).fileType ≤ 2) (filename : Option CString)
    (junk : ℤ) :
    (s.openCall fs filename junk).2.Serving ∧
      Table.Step fs s.table (.openCall filename junk, (s.openCall fs filename junk).1)
        (s.openCall fs filename junk).2.table := by
  obtain ⟨hcli, htable⟩ := h.resumed (t := s.cli) ⟨rfl, rfl, rfl, rfl⟩
  rw [← htable]
  unfold Kernel.openCall
  cases filename with
  | none => exact Serving.sti ⟨hcli, .noName⟩
  | some name =>
    dsimp only
    rw [readDentryByName_eq]
    cases hname : fs.lookup name with
    | none => exact Serving.sti ⟨hcli, .absent hname⟩
    | some d =>
      obtain ⟨i, hi, rfl, -⟩ := FileSys.exists_of_lookup hname
      have htype := himage i hi
      set d := fs.direntries i
      simp only [Option.map_some, show d.padded.fileType = d.fileType from rfl]
      by_cases hrtc : d.fileType = rtcFileType
      · rw [if_pos hrtc]
        obtain ⟨hreset, htable'⟩ := hcli.resumed (t := s.cli.cli.resetRtc) ⟨rfl, rfl, rfl, rfl⟩
        have hentry : d.entry = { kind := .rtc, inode := 0, position := 0 } := if_pos hrtc
        have hopen := hreset.openDescriptor .rtc (fun _ => 0) junk hname hrtc (by rw [hentry]; rfl)
        rw [hreset.scheduled, htable'] at hopen
        exact Serving.sti (Serving.sti hopen)
      rw [if_neg hrtc]
      by_cases hdir : d.fileType = directoryFileType
      · rw [if_pos hdir]
        have hentry : d.entry = { kind := .directory, inode := 0, position := 0 } := by
          rw [Dentry.entry, if_neg hrtc, if_pos hdir]
        exact Serving.sti (hcli.openDescriptor .directory (fun _ => 0) junk hname hdir
          (by rw [hentry]; rfl))
      rw [if_neg hdir]
      have hfile : d.fileType = regularFileType := by
        simp only [rtcFileType, directoryFileType, regularFileType] at hrtc hdir ⊢
        omega
      have hentry : d.entry = { kind := .file, inode := d.inodeNum, position := 0 } := by
        rw [Dentry.entry, if_neg hrtc, if_neg hdir]
      rw [if_pos hfile]
      exact Serving.sti (hcli.openDescriptor .file Dentry.inodeNum junk hname hfile
        (by rw [hentry]; rfl))

/-! ### `close` -/

/-- The `close` functions free the descriptor they are called for. -/
theorem Serving.closeDescriptor (h : s.Serving) {e : Entry} (hbound : s.table fd = some e)
    (freeResult : ℤ) :
    (s.closeDescriptor s.processNum fd freeResult).2.Serving ∧
      (s.closeDescriptor s.processNum fd freeResult).2.table = Function.update s.table fd none := by
  obtain ⟨hfd, hopen, -⟩ := table_eq_some hbound
  have hmodify := h.modifyDescriptor hfd (f := fun d => { d with flags := false })
    (fun hflags => absurd hflags Bool.false_ne_true)
  rw [Kernel.closeDescriptor, if_neg (by omega), if_pos hopen]
  exact hmodify

theorem Serving.closeHandler (h : s.Serving) {e : Entry} (hbound : s.table fd = some e) :
    (s.closeHandler ((s.pcb s.processNum).fileDescriptor fd).fop fd).2.Serving ∧
      (s.closeHandler ((s.pcb s.processNum).fileDescriptor fd).fop fd).2.table
        = Function.update s.table fd none := by
  have hkind := (table_eq_some hbound).2.2.1
  cases hfop : ((s.pcb s.processNum).fileDescriptor fd).fop with
  | stdin => rw [hfop] at hkind; exact absurd hkind nofun
  | stdout => rw [hfop] at hkind; exact absurd hkind nofun
  | rtc =>
    obtain ⟨hcli, htable⟩ := h.resumed (t := s.cli) ⟨rfl, rfl, rfl, rfl⟩
    obtain ⟨hclose, htable'⟩ := hcli.closeDescriptor (htable.symm ▸ hbound) 0
    rw [hcli.scheduled] at hclose htable'
    obtain ⟨hsti, htable''⟩ := hclose.resumed
      (t := (s.cli.closeDescriptor s.cli.scheduledPid fd 0).2.sti) ⟨rfl, rfl, rfl, rfl⟩
    exact ⟨hsti, htable''.trans (htable'.trans (by rw [htable]))⟩
  | directory => exact h.closeDescriptor hbound (-1)
  | file => exact h.closeDescriptor hbound 0

/-- **`close`** is a step of the map. -/
theorem Serving.close (h : s.Serving) (fd : ℤ) :
    (s.close fd).2.Serving ∧
      Table.Step fs s.table (.close fd, (s.close fd).1) (s.close fd).2.table := by
  obtain ⟨hcli, htable⟩ := h.resumed (t := s.cli) ⟨rfl, rfl, rfl, rfl⟩
  have hdesc : s.cli.scheduledDescriptor fd = (s.cli.pcb s.cli.processNum).fileDescriptor fd := by
    rw [scheduledDescriptor, hcli.scheduled]
  rw [← htable]
  simp only [Kernel.close, hdesc]
  cases hbound : s.cli.table fd with
  | none =>
    have hrefused : ((s.cli.pcb s.cli.processNum).fileDescriptor fd).flags = false ∨ fd < fdMin ∨
        fd > fdMax := by
      by_cases hfd : fdMin ≤ fd ∧ fd ≤ fdMax
      · exact Or.inl (hcli.flags_of_none hfd hbound)
      · omega
    rw [if_pos hrefused]
    exact Serving.sti ⟨hcli, .closeUnbound hbound⟩
  | some e =>
    obtain ⟨hfd, hopen, -⟩ := table_eq_some hbound
    obtain ⟨hclose, hclosed⟩ := hcli.closeHandler hbound
    rw [if_neg (by rw [hopen]; simp only [Bool.true_eq_false, false_or]; omega)]
    exact Serving.sti ⟨hclose, hclosed ▸ .close hbound⟩

/-! ### `read` -/

/-- A read from a bound descriptor moves its position. -/
theorem Serving.readHandler (fs : FileSys) {resume : Resume} (hs : resume.ready = s)
    (h : s.Serving) {e : Entry} (hbound : s.table fd = some e) (pid : ℤ) (buf : ℕ → UInt8) (n : ℤ) :
    let r := resume.readHandler fs ((s.pcb s.processNum).fileDescriptor fd).fop pid fd buf n
    r.kernel.Serving ∧ r.kernel.table
      = Function.update s.table fd (some { e with position := e.moved fs n }) := by
  obtain ⟨hfd, hopen, hkind, hinode, hposition⟩ := table_eq_some hbound
  have hstay (heq : e.moved fs n = e.position) :
      s.table = Function.update s.table fd (some { e with position := e.moved fs n }) := by
    rw [heq, ← hbound, Function.update_eq_self]
  have hmove (position : FileDescriptor → ℕ)
      (heq : e.moved fs n = position ((s.pcb s.processNum).fileDescriptor fd)) :
      (s.modifyDescriptor s.processNum fd fun d => { d with filePosition := position d }).Serving ∧
        (s.modifyDescriptor s.processNum fd fun d => { d with filePosition := position d }).table
          = Function.update s.table fd (some { e with position := e.moved fs n }) := by
    obtain ⟨hserving, htable⟩ := h.modifyDescriptor hfd
      (f := fun d => { d with filePosition := position d }) fun _ => by simp [hkind]
    refine ⟨hserving, htable.trans ?_⟩
    rw [heq, FileDescriptor.entry, if_pos hopen, hkind, ← hinode]
    rfl
  cases hfop : ((s.pcb s.processNum).fileDescriptor fd).fop with
  | stdin => rw [hfop] at hkind; exact absurd hkind nofun
  | stdout => rw [hfop] at hkind; exact absurd hkind nofun
  | rtc =>
    have heq : e.kind = .rtc := by rw [hfop] at hkind; exact (Option.some.inj hkind).symm
    obtain ⟨hserving, htable⟩ := h.resumed (t := (s.rtcReadTail buf).kernel) ⟨rfl, rfl, rfl, rfl⟩
    simp only [Resume.readHandler, hs]
    exact ⟨hserving, htable.trans (hstay (by rw [Entry.moved, heq]))⟩
  | directory =>
    have heq : e.kind = .directory := by rw [hfop] at hkind; exact (Option.some.inj hkind).symm
    simp only [Resume.readHandler, hs, directoryRead]
    rw [if_neg (by omega), if_neg (by simp [hopen])]
    by_cases hend : fs.dirCount ≤ e.position
    · rw [if_pos (hposition ▸ hend)]
      exact ⟨h, hstay (by simp only [Entry.moved, heq]; rw [if_neg (by omega)])⟩
    · rw [if_neg (hposition ▸ hend), hposition, readDentryByIndex, if_neg hend]
      refine hmove (fun d => (u32 (d.filePosition + 1)).toNat) ?_
      simp only [Entry.moved, heq, hposition]
      rw [if_pos (by omega)]
  | file =>
    have heq : e.kind = .file := by rw [hfop] at hkind; exact (Option.some.inj hkind).symm
    have hvalue (buf : ℕ → UInt8) := readData_fst_congr fs e.inode e.position (u32 n).toNat buf
      fun _ => 0
    simp only [Resume.readHandler, hs, fileRead, hopen, hinode, hposition, hvalue]
    rw [if_neg (by decide)]
    split_ifs with hfail
    · exact ⟨h, hstay (by simp only [Entry.moved, heq]; rw [if_pos hfail])⟩
    · refine hmove (fun d => (u32 (d.filePosition + _)).toNat) ?_
      simp only [Entry.moved, heq, hposition]
      rw [if_neg hfail]

theorem resumed_terminalReadTail {resume : Resume} {pid : ℤ} (h : resume.Chained pid) (fd : ℤ)
    (buf : ℕ → UInt8) (n : ℤ) :
    Resumed resume.ready (resume.terminalReadTail pid fd buf n).kernel := by
  obtain ⟨-, -, -, hunmask⟩ := resumed_chained h
  unfold Resume.terminalReadTail
  split_ifs
  · exact Resumed.refl _
  · exact hunmask.trans (resumed_enableIrq _)

/-- A read from descriptor 0 or 1 leaves the map. -/
theorem Serving.readHandler_of_lt (fs : FileSys) {resume : Resume} (hs : resume.ready = s)
    (h : s.Serving) (hfd : fd < fdMin) (fop : FopTable) {pid : ℤ}
    (hchain : fop = .stdin → resume.Chained pid) (buf : ℕ → UInt8) (n : ℤ) :
    (resume.readHandler fs fop pid fd buf n).kernel.Serving ∧
      (resume.readHandler fs fop pid fd buf n).kernel.table = s.table := by
  subst hs
  cases fop with
  | stdin => exact h.resumed (resumed_terminalReadTail (hchain rfl) fd buf n)
  | stdout => exact ⟨h, rfl⟩
  | rtc => exact h.resumed ⟨rfl, rfl, rfl, rfl⟩
  | directory =>
    simp only [Resume.readHandler, directoryRead]
    rw [if_pos (Or.inl hfd)]
    exact ⟨h, rfl⟩
  | file =>
    simp only [Resume.readHandler, fileRead]
    split_ifs
    · exact ⟨h, rfl⟩
    · exact ⟨h, rfl⟩
    · have hmove (k : ℤ) := h.modifyDescriptor_of_lt hfd
        fun d => { d with filePosition := (u32 (d.filePosition + k)).toNat }
      exact hmove _

/-- **`read`** is a step of the map, whenever it returns. -/
theorem Serving.read (h : s.Serving) (hfd : fd ≤ fdMax) {nonNull : Bool} {buf : ℕ → UInt8} {n : ℤ}
    {r : ReadResult} (hr : s.ReadReturns fs fd nonNull buf n r) :
    r.kernel.Serving ∧ Table.Step fs s.table (.read fd nonNull buf n, r.ret) r.kernel.table := by
  obtain ⟨resume, hwait, rfl⟩ := hr
  have hdesc : s.scheduledDescriptor fd = (s.pcb s.processNum).fileDescriptor fd := by
    rw [scheduledDescriptor, h.scheduled]
  by_cases hbad : s.BadInput fd nonNull n
  · obtain ⟨hserving, htable⟩ := h.resumed (s.resumed_readHead fd)
    rw [read_of_bad hbad]
    suffices hstep : Table.Step fs s.table (.read fd nonNull buf n, -1) s.table from
      Serving.sti ⟨hserving, htable.symm ▸ hstep⟩
    by_cases hlt : fd < fdMin
    · exact .readStdio hlt
    cases hbound : s.table fd with
    | none => exact .readUnbound hbound (by omega)
    | some e =>
      have hopen := (table_eq_some hbound).2.1
      have hpos : ¬ fd < 0 := by unfold fdMin at hlt; omega
      rcases hbad with hneg | hlarge | hnull | hn | hclosed
      · exact absurd hneg hpos
      · exact absurd hlarge (by omega)
      · exact .readRefused (Or.inl hnull)
      · exact .readRefused (Or.inr hn)
      · rw [hdesc, hopen] at hclosed
        exact absurd hclosed.symm Bool.false_ne_true
  · have hwait := hwait fun hbad' => hbad ((badInput_readHead s fd nonNull n).1 hbad')
    have hres := (s.resumed_readHead fd).trans hwait.resumed
    obtain ⟨hserving, htable⟩ := h.resumed hres
    have hfop : (s.scheduledDescriptor fd).fop
        = ((resume.ready.pcb resume.ready.processNum).fileDescriptor fd).fop := by
      rw [hres.processNum, h.scheduled, hres.fileDescriptor, scheduledDescriptor]
    have hchain
        (hin : ((resume.ready.pcb resume.ready.processNum).fileDescriptor fd).fop = .stdin) :
        resume.Chained s.scheduledPid := by
      rw [← (s.resumed_readHead fd).scheduledPid]
      exact (hwait.stdin (by rw [readHead_scheduledDescriptor, hfop, hin])).2
    have hnull : nonNull = true := by
      by_contra hnull
      exact hbad (Or.inr (Or.inr (Or.inl (by simpa using hnull))))
    have hn : ¬ n < 0 := fun hn => hbad (Or.inr (Or.inr (Or.inr (Or.inl hn))))
    rw [read_of_good hbad, handled, hfop]
    by_cases hlt : fd < fdMin
    · obtain ⟨hserving', htable'⟩ := hserving.readHandler_of_lt fs rfl hlt
        ((resume.ready.pcb resume.ready.processNum).fileDescriptor fd).fop hchain buf n
      exact Serving.sti ⟨hserving', (htable'.trans htable).symm ▸ .readStdio hlt⟩
    cases hbound : s.table fd with
    | none =>
      have hclosed := h.flags_of_none ⟨by omega, hfd⟩ hbound
      exact absurd (Or.inr (Or.inr (Or.inr (Or.inr (hdesc ▸ hclosed))))) hbad
    | some e =>
      obtain ⟨hserving', htable'⟩ := hserving.readHandler fs rfl (htable.symm ▸ hbound)
        s.scheduledPid buf n
      rw [htable] at htable'
      subst hnull
      exact Serving.sti ⟨hserving', htable' ▸ .read hbound (by omega)⟩

/-! ### `write` -/

/-- The loop of `terminal_write` changes the screen only. -/
theorem resumed_writeBytes (s : Kernel) (buf : ℕ → UInt8) (k : ℕ) :
    Resumed s (s.writeBytes buf k) := by
  have hemit (u : Kernel) (ch : UInt8) : Resumed u (u.emit ch) := u.resumed_modifyConsole _
  have hput {u v : Kernel} (ch : UInt8) (h : Resumed u v) :
      Resumed u (if ch ≠ 0 then
        (v.modifyConsole fun c =>
          { c with bytesWritten := c.bytesWritten + 1, lineCt := c.lineCt + 1 }).emit ch
        else v) := by
    split_ifs
    · exact (h.trans (v.resumed_modifyConsole _)).trans (hemit _ ch)
    · exact h
  have hbyte (u : Kernel) (ch : UInt8) : Resumed u (u.writeByte ch) := by
    rw [writeByte]
    refine hput ch ?_
    split_ifs
    · exact (hemit u 10).trans (resumed_modifyConsole _ _)
    · exact u.resumed_modifyConsole _
    · exact Resumed.refl u
  induction k with
  | zero => exact Resumed.refl s
  | succ k ih => exact ih.trans (hbyte _ (buf k))

theorem resumed_terminalWrite (s : Kernel) (fd : ℤ) (nonNull : Bool) (buf : ℕ → UInt8) (n : ℤ) :
    Resumed s (s.terminalWrite fd nonNull buf n).2 := by
  have hstart := s.resumed_modifyConsole fun c => { c with bytesWritten := 0, lineCt := 0 }
  have hhead (u : Kernel) : Resumed u (u.writeHead buf) := u.resumed_modifyConsole _
  have htail (u : Kernel) : Resumed u (u.writeTail buf) := u.resumed_modifyConsole _
  rw [terminalWrite]
  by_cases hrefused : nonNull = false ∨ n < 0 ∨ fd > 1
  · rw [if_pos hrefused]
    exact hstart
  · rw [if_neg hrefused]
    exact ((hstart.trans (hhead _)).trans (resumed_writeBytes _ buf n.toNat)).trans (htail _)

theorem resumed_writeHandler (s : Kernel) (fop : FopTable) (fd : ℤ) (nonNull : Bool)
    (buf : ℕ → UInt8) (n : ℤ) : Resumed s (s.writeHandler fop fd nonNull buf n).2 := by
  cases fop with
  | stdout => exact s.resumed_terminalWrite fd nonNull buf n
  | rtc =>
    simp only [writeHandler, rtcWrite]
    split_ifs <;> exact ⟨rfl, rfl, rfl, rfl⟩
  | stdin | directory | file => exact Resumed.refl s

/-- **`write`** is a step of the map. -/
theorem Serving.write (h : s.Serving) (hfd : fd ≤ fdMax) (nonNull : Bool) (buf : ℕ → UInt8)
    (n : ℤ) :
    (s.write fd nonNull buf n).2.Serving ∧
      Table.Step fs s.table (.write fd nonNull buf n, (s.write fd nonNull buf n).1)
        (s.write fd nonNull buf n).2.table := by
  have hcli : Resumed s s.cli := ⟨rfl, rfl, rfl, rfl⟩
  have hdesc : s.cli.scheduledDescriptor fd = (s.pcb s.processNum).fileDescriptor fd := by
    rw [h.scheduled]
    rfl
  have hres : Resumed s (s.write fd nonNull buf n).2 := by
    have hhandler := hcli.trans (s.cli.resumed_writeHandler (s.cli.scheduledDescriptor fd).fop fd
      nonNull buf n)
    unfold Kernel.write
    dsimp only
    split_ifs
    · exact ⟨rfl, rfl, rfl, rfl⟩
    · exact hhandler.trans ⟨rfl, rfl, rfl, rfl⟩
    · exact hhandler.trans ⟨rfl, rfl, rfl, rfl⟩
  obtain ⟨hserving, htable⟩ := h.resumed hres
  refine ⟨hserving, ?_⟩
  rw [htable]
  by_cases hlt : fd < fdMin
  · exact .writeStdio hlt
  cases hbound : s.table fd with
  | some e => exact .write hbound
  | none =>
    have hclosed : (s.cli.scheduledDescriptor fd).flags = false :=
      hdesc ▸ h.flags_of_none ⟨by omega, hfd⟩ hbound
    have hret : (s.write fd nonNull buf n).1 = -1 := by
      unfold Kernel.write
      dsimp only
      rw [if_pos (show s.cli.BadInput fd nonNull n from Or.inr (Or.inr (Or.inr (Or.inr hclosed))))]
    rw [hret]
    exact .writeUnbound hbound (by omega)

end Serving

end Kernel

/-! ### Sequences of calls -/

/-- A call of the kernel, with the value it returns. -/
inductive CallStep (fs : FileSys) : Kernel → Call × ℤ → Kernel → Prop
  | openCall (s : Kernel) (filename : Option CString) (junk : ℤ) :
      CallStep fs s (.openCall filename junk, (s.openCall fs filename junk).1)
        (s.openCall fs filename junk).2
  | read {s : Kernel} {fd n : ℤ} {nonNull : Bool} {buf : ℕ → UInt8} {r : ReadResult}
      (hfd : 0 ≤ fd ∧ fd ≤ fdMax) (hr : s.ReadReturns fs fd nonNull buf n r) :
      CallStep fs s (.read fd nonNull buf n, r.ret) r.kernel
  | write {s : Kernel} {fd : ℤ} (hfd : 0 ≤ fd ∧ fd ≤ fdMax) (nonNull : Bool) (buf : ℕ → UInt8)
      (n : ℤ) :
      CallStep fs s (.write fd nonNull buf n, (s.write fd nonNull buf n).1)
        (s.write fd nonNull buf n).2
  | close {s : Kernel} {fd : ℤ} (hfd : 0 ≤ fd ∧ fd ≤ fdMax) :
      CallStep fs s (.close fd, (s.close fd).1) (s.close fd).2

variable {fs : FileSys} {s t : Kernel}

/-- **A call refines a step of the map.** -/
theorem CallStep.refines {c : Call × ℤ} (himage : ∀ i < fs.dirCount, (fs.direntries i).fileType ≤ 2)
    (h : s.Serving) (hstep : CallStep fs s c t) : t.Serving ∧ Table.Step fs s.table c t.table := by
  cases hstep with
  | openCall filename junk => exact h.openCall himage filename junk
  | read hfd hr => exact h.read hfd.2 hr
  | write hfd nonNull buf n => exact h.write hfd.2 nonNull buf n
  | close hfd => exact h.close _

/-- A call, after interrupts that may have let other processes run. -/
def TurnStep (fs : FileSys) (s : Kernel) (c : Call × ℤ) (t : Kernel) : Prop :=
  ∃ u, Kernel.Resumed s u ∧ CallStep fs u c t

/-- **The descriptor table refines the map:** what a sequence of calls does to the table of a
process, and what it returns, is a run of the map, however often the process is preempted. -/
theorem table_refines {calls : List (Call × ℤ)}
    (himage : ∀ i < fs.dirCount, (fs.direntries i).fileType ≤ 2) (h : s.Serving)
    (hr : Run (TurnStep fs) s calls t) : Run (Table.Step fs) s.table calls t.table := by
  obtain ⟨m, ⟨-, rfl⟩, hrun⟩ := hr.simulate (Table.Step fs)
    (R := fun s m => s.Serving ∧ s.table = m)
    (fun s c t m ⟨hs, hm⟩ ⟨u, hres, hstep⟩ => by
      obtain ⟨hu, htable⟩ := hs.resumed hres
      obtain ⟨ht, hmap⟩ := hstep.refines himage hu
      exact ⟨t.table, ⟨ht, rfl⟩, hm ▸ htable ▸ hmap⟩) ⟨h, rfl⟩
  exact hrun

/-- The kernel after the first shell has started `a`. -/
def programKernel : Kernel := (bootedKernel.execute programImage programCommand zeroFrame).2

/-- The program opens the file it was read from, and closes it. -/
theorem table_refines_programKernel :
    Run (Table.Step programImage) programKernel.table
      [(.openCall (some programCommand) 0, 2), (.close 2, 1)]
      ((programKernel.openCall programImage (some programCommand) 0).2.close 2).2.table := by
  have hclosed : ∀ fd ∈ slots,
      ((programKernel.pcb programKernel.processNum).fileDescriptor fd).flags = false := by
    decide +kernel
  have hserving : programKernel.Serving :=
    ⟨by decide +kernel, fun fd h h' hopen =>
      absurd ((hclosed fd (mem_slots.2 ⟨h, h'⟩)).symm.trans hopen) Bool.false_ne_true⟩
  have hfd : (programKernel.openCall programImage (some programCommand) 0).1 = 2 := by
    decide +kernel
  have hret : ((programKernel.openCall programImage (some programCommand) 0).2.close 2).1 = 1 := by
    decide +kernel
  have hopen : CallStep programImage programKernel (.openCall (some programCommand) 0, _) _ :=
    .openCall programKernel (some programCommand) 0
  have hclose : CallStep programImage
      (programKernel.openCall programImage (some programCommand) 0).2 (.close 2, _) _ :=
    .close (by decide)
  rw [hfd] at hopen
  rw [hret] at hclose
  exact table_refines (fun _ _ => Nat.le_refl 2) hserving
    (.cons ⟨_, .refl _, hopen⟩ (.single ⟨_, .refl _, hclose⟩))

end OS391
