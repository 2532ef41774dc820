/-
# Listing a directory

A process opens a directory and calls `directory_read` again and again, while it and others
work with other descriptors.  Call number `k` delivers the name of entry `k`, padded with
NULs; after the last entry every call returns `0` and changes nothing.  And what is delivered
can be handed back: looked up with `read_dentry_by_name`, a delivered name yields the entry it
was read from, also when it fills all of its 32 bytes and has no NUL of its own
(`listing_agrees`).
-/

import OS391.NameLookup
import OS391.SequentialReads

namespace OS391

open Lib

/-! ### One call -/

section Read

variable {fs : FileSys} {s : Kernel} {fd n : ℤ} {k : ℕ}

/-- Descriptor `fd` of a PCB is open on a directory, before entry `k`. -/
def Pcb.ListingAt (p : Pcb) (fd : ℤ) (k : ℕ) : Prop :=
  p.fileDescriptor fd = { fop := .directory, inode := 0, filePosition := k, flags := true }

/-- The name copied into a dentry is the name of the entry and NULs. -/
theorem strncpy_filename (d : Dentry) {j : ℕ} (hj : j < dentryFileNameLen) :
    strncpy (fun _ => 0) d.filename dentryFileNameLen j = d.name.getD j 0 :=
  (Dentry.fill_shows { filename := fun _ => 0, fileType := 0, inodeNum := 0 } d).filename j hj

/-- **A call in front of an entry** delivers its name and goes on to the next one. -/
theorem directoryRead_entry (hfd : fdMin ≤ fd ∧ fd ≤ fdMax)
    (h : (s.pcb s.processNum).ListingAt fd k) (hk : k < fs.dirCount) (hcount : fs.dirCount ≤ 63)
    (hn : 32 ≤ n) (hn' : n < 2147483648) (buf : ℕ → UInt8) :
    let r := s.directoryRead fs fd buf n
    r.ret = dentryFileNameLen ∧
      (∀ j < n.toNat, r.buf j = (fs.direntries k).name.getD j 0) ∧
      (r.kernel.pcb s.processNum).ListingAt fd (k + 1) := by
  intro r
  have hu : (u32 n).toNat = n.toNat := by rw [u32_of_bounds (by omega) (by omega)]
  have hr : r = ⟨dentryFileNameLen,
      copyLoop (fillLoop (fillLoop buf 0 n.toNat) 0 n.toNat) 0
        (strncpy (fun _ => 0) (fs.direntries k).filename dentryFileNameLen) dentryFileNameLen,
      s.modifyDescriptor s.processNum fd fun d =>
        { d with filePosition := (u32 (d.filePosition + 1)).toNat }⟩ := by
    simp only [r, Kernel.directoryRead, show (s.pcb s.processNum).fileDescriptor fd = _ from h, hu]
    rw [if_neg (by omega), if_neg (by decide), if_neg (by omega),
      Kernel.readDentryByIndex_of_lt hk]
  rw [hr]
  refine ⟨rfl, fun j hj => ?_, ?_⟩
  · dsimp only
    rcases Nat.lt_or_ge j dentryFileNameLen with hlt | hge
    · rw [copyLoop_start hlt, strncpy_filename _ hlt]
    · have hlen := (fs.direntries k).length_name_le
      rw [copyLoop_outside (by omega), fillLoop_apply, if_pos hj,
        List.getD_eq_default _ _ (by omega)]
  · rw [Pcb.ListingAt, Kernel.modifyDescriptor_fileDescriptor, if_pos ⟨rfl, rfl⟩,
      show (s.pcb s.processNum).fileDescriptor fd = _ from h]
    have hnext : (u32 ((k : ℤ) + 1)).toNat = k + 1 := by
      rw [u32_of_bounds (by omega) (by omega)]
      omega
    rw [hnext]

/-- **A call behind the last entry** returns `0` and changes nothing. -/
theorem directoryRead_end (hfd : fdMin ≤ fd ∧ fd ≤ fdMax)
    (h : (s.pcb s.processNum).ListingAt fd k) (hk : fs.dirCount ≤ k) (buf : ℕ → UInt8) :
    s.directoryRead fs fd buf n = ⟨0, buf, s⟩ := by
  simp only [Kernel.directoryRead, show (s.pcb s.processNum).fileDescriptor fd = _ from h]
  rw [if_neg (by omega), if_neg (by decide), if_pos hk]

end Read

/-! ### Looking a delivered name up -/

/-- The string in a buffer: the bytes before the first NUL, at most 32. -/
def nameIn (buf : ℕ → UInt8) : CString where
  bytes := (List.range (strnlen buf dentryFileNameLen)).map buf
  noNul := fun h => by
    obtain ⟨i, hi, h0⟩ := List.mem_map.1 h
    exact ne_zero_of_lt_strnlen (List.mem_range.1 hi) h0

/-- No two entries have the same name. -/
def FileSys.DistinctNames (fs : FileSys) : Prop :=
  ∀ i < fs.dirCount, ∀ j < fs.dirCount, (fs.direntries i).name = (fs.direntries j).name → i = j

section Lookup

variable {fs : FileSys} {k : ℕ} {buf : ℕ → UInt8}

/-- The string read back is the name of the entry. -/
theorem nameIn_bytes {d : Dentry} (h : ∀ j < dentryFileNameLen, buf j = d.name.getD j 0) :
    (nameIn buf).bytes = d.name :=
  Dentry.Shows.name (r := { d with filename := buf }) ⟨rfl, rfl, h⟩

/-- **A delivered name finds the entry it is the name of.** -/
theorem readDentryByName_delivered (hdistinct : fs.DistinctNames) (hk : k < fs.dirCount)
    (h : ∀ j < dentryFileNameLen, buf j = (fs.direntries k).name.getD j 0) (str1 : ℕ → UInt8)
    (dentry : Dentry) :
    (readDentryByNameInto fs (nameIn buf) str1 dentry).1 = 0 ∧
      (readDentryByNameInto fs (nameIn buf) str1 dentry).2.Shows (fs.direntries k) := by
  have hname := nameIn_bytes h
  have hlowest : fs.LowestNamed (nameIn buf) k :=
    ⟨hk, hname.symm, fun j hj heq =>
      absurd (hdistinct j (by omega) k hk (heq.trans hname)) (by omega)⟩
  rw [readDentryByNameInto_eq, readDentryByName_eq, hlowest.lookup, Option.map_some,
    Option.elim_some, Dentry.fill_padded]
  exact ⟨rfl, Dentry.fill_shows _ _⟩

end Lookup

/-! ### Sequences of calls -/

section Sequence

variable (pid fd : ℤ)

/-- On the descriptor only `directory_read` is called, with room for a name; any calls are made
on others. -/
def OnlyLists (_ : Kernel) (e : FileEvent) : Prop :=
  e.IsOn pid fd → ∃ buf n, e.call = .read .directory fd buf n ∧ 32 ≤ n ∧ n < 2147483648

/-- How often the descriptor was read. -/
def readsOn (es : List FileEvent) : ℕ := es.countP fun e => e.IsOn pid fd

variable {pid fd} {fs : FileSys} {s t : Kernel} {e : FileEvent} {es : List FileEvent} {k : ℕ}

/-- **One step:** a call on the descriptor goes on to the next entry, one on another leaves
it. -/
theorem FileStep.listingAt (hfd : fdMin ≤ fd ∧ fd ≤ fdMax) (hcount : fs.dirCount ≤ 63)
    (hstep : FileStep fs s e t) (honly : OnlyLists pid fd s e) (h : (s.pcb pid).ListingAt fd k) :
    (t.pcb pid).ListingAt fd (if e.IsOn pid fd ∧ k < fs.dirCount then k + 1 else k) := by
  cases hstep with
  | @call u q hres c =>
    have hu : (u.pcb pid).ListingAt fd k := by
      rw [Pcb.ListingAt, hres.fileDescriptor]
      exact h
    rcases Classical.em (FileEvent.IsOn pid fd ⟨q, c, c.run fs u⟩) with hon | hoff
    · obtain ⟨buf, n, hc, hn, hn'⟩ := honly hon
      obtain rfl : q = pid := hon.1
      obtain rfl : c = .read .directory fd buf n := hc
      have hnum := hres.processNum
      rcases Nat.lt_or_ge k fs.dirCount with hk | hk
      · rw [if_pos ⟨hon, hk⟩]
        obtain ⟨-, -, hnext⟩ := directoryRead_entry hfd (hnum.symm ▸ hu) hk hcount hn hn' buf
        exact hnum ▸ hnext
      · rw [if_neg fun hand => absurd hand.2 (by omega)]
        have hend := directoryRead_end (n := n) hfd (hnum.symm ▸ hu) hk buf
        show ((u.directoryRead fs fd buf n).kernel.pcb q).ListingAt fd k
        rw [hend]
        exact hu
    · rw [if_neg fun hand => hoff hand.1]
      have hflags : ((u.pcb pid).fileDescriptor fd).flags = true := by rw [hu]
      exact (FileCall.run_fileDescriptor hres.processNum hres.scheduledPid c hflags hoff).trans hu

/-- **A run:** the position counts the reads, up to the number of entries. -/
theorem listingAt_of_run (hfd : fdMin ≤ fd ∧ fd ≤ fdMax) (hcount : fs.dirCount ≤ 63)
    (hr : Run (Guarded (OnlyLists pid fd) (FileStep fs)) s es t)
    (h : (s.pcb pid).ListingAt fd k) (hk : k ≤ fs.dirCount) :
    (t.pcb pid).ListingAt fd (min (k + readsOn pid fd es) fs.dirCount) := by
  induction hr generalizing k with
  | nil s =>
    rw [readsOn, List.countP_nil, Nat.add_zero, Nat.min_eq_left hk]
    exact h
  | @cons s u t e es hstep _ ih =>
    have hnext := ih (hstep.2.listingAt hfd hcount hstep.1 h) (by split_ifs <;> omega)
    have hpos : min ((if e.IsOn pid fd ∧ k < fs.dirCount then k + 1 else k) + readsOn pid fd es)
          fs.dirCount
        = min (k + readsOn pid fd (e :: es)) fs.dirCount := by
      have hcons : readsOn pid fd (e :: es)
          = readsOn pid fd es + if e.IsOn pid fd then 1 else 0 := by
        simp [readsOn, List.countP_cons]
      rw [hcons]
      rcases Nat.lt_or_ge k fs.dirCount with hlt | hge
      · simp only [hlt, and_true]
        split_ifs <;> omega
      · rw [if_neg fun hand => absurd hand.2 (by omega)]
        omega
    exact hpos ▸ hnext

/-- **Directory listing and lookup agree.**  After `directory_open` and any calls, of which
`readsOn` were `directory_read` on the descriptor, the next one delivers the name of the entry
of that number, padded with NULs, and looking that name up yields the entry's type and inode
number; when there is no such entry it returns `0` and changes nothing. -/
theorem listing_agrees (hcount : fs.dirCount ≤ 63) (hdistinct : fs.DistinctNames) {name : CString}
    (hopen : (s.directoryOpen fs name).1 = fd) (hfd : fd ≠ -1)
    (hr : Run (Guarded (OnlyLists s.processNum fd) (FileStep fs)) (s.directoryOpen fs name).2
      es t) :
    let k := readsOn s.processNum fd es
    ∀ u, Resumes t s.processNum u → ∀ buf n, 32 ≤ n → n < 2147483648 →
      let r := u.directoryRead fs fd buf n
      (k < fs.dirCount →
        r.ret = dentryFileNameLen ∧
        (∀ j < n.toNat, r.buf j = (fs.direntries k).name.getD j 0) ∧
        ∀ str1 dentry, (readDentryByNameInto fs (nameIn r.buf) str1 dentry).1 = 0 ∧
          (readDentryByNameInto fs (nameIn r.buf) str1 dentry).2.Shows (fs.direntries k)) ∧
      (fs.dirCount ≤ k → r = ⟨0, buf, u⟩) := by
  intro k u hres buf n hn hn' r
  obtain ⟨hslot, d, -, -, hdescriptor⟩ := openDescriptor_opened hopen hfd
  have hstart : ((s.directoryOpen fs name).2.pcb s.processNum).ListingAt fd 0 := hdescriptor
  have hend := listingAt_of_run hslot hcount hr hstart (Nat.zero_le _)
  rw [Nat.zero_add] at hend
  have hu : (u.pcb u.processNum).ListingAt fd (min k fs.dirCount) := by
    rw [Pcb.ListingAt, hres.fileDescriptor, hres.processNum]
    exact hend
  constructor
  · intro hk
    rw [Nat.min_eq_left (Nat.le_of_lt hk)] at hu
    obtain ⟨hret, hbytes, -⟩ := directoryRead_entry hslot hu hk hcount hn hn' buf
    refine ⟨hret, hbytes, readDentryByName_delivered hdistinct hk fun j hj => hbytes j ?_⟩
    have hlen : dentryFileNameLen = 32 := rfl
    omega
  · intro hk
    rw [Nat.min_eq_right hk] at hu
    exact directoryRead_end hslot hu (Nat.le_refl _) buf

end Sequence

/-! ### A directory of two entries -/

/-- A program has opened the directory. -/
def listerKernel : Kernel := (programKernel.directoryOpen directoryImage directoryName).2

/-- A call for 40 bytes. -/
def list40 : FileCall := .read .directory 2 (fun _ => 7) 40

theorem distinctNames_directoryImage : directoryImage.DistinctNames := by
  unfold FileSys.DistinctNames
  decide +kernel

/-- The second call delivers the name of the second entry, which the lookup finds again. -/
theorem listing_agrees_directory :
    let u := (list40.run directoryImage listerKernel).kernel
    let r := u.directoryRead directoryImage 2 (fun _ => 7) 40
    r.ret = dentryFileNameLen ∧
      (readDentryByNameInto directoryImage (nameIn r.buf) (fun _ => 7) default).1 = 0 := by
  have hnum : programKernel.processNum = 3 := by decide +kernel
  have hopen : (programKernel.directoryOpen directoryImage directoryName).1 = 2 := by
    decide +kernel
  have hstep : FileStep directoryImage listerKernel ⟨3, list40, _⟩ _ :=
    .call ⟨fun _ => rfl, by decide +kernel, by decide +kernel⟩ list40
  have honly (r : ReadResult) : OnlyLists programKernel.processNum 2 listerKernel ⟨3, list40, r⟩ :=
    fun _ => ⟨_, 40, rfl, by decide, by decide⟩
  have hlist := listing_agrees (by decide) distinctNames_directoryImage hopen (by decide)
    (.single ⟨honly _, hstep⟩)
  rw [hnum] at hlist
  obtain ⟨hentry, -⟩ := hlist _ ⟨fun _ => rfl, by decide +kernel, by decide +kernel⟩ (fun _ => 7) 40
    (by decide) (by decide)
  obtain ⟨hret, -, hlookup⟩ := hentry (by decide +kernel)
  exact ⟨hret, (hlookup _ _).1⟩

end OS391
