/-
# Which files `execute` runs

`execute` reads the first forty bytes of a file into a local buffer and looks for the magic
number and the entry point there.  It does not look at how many bytes `read_data` delivered,
nor at the type of the entry.  What the file does not fill of the buffer is what the stack
held before (`header_apply`), so for a short file, or an entry whose inode number is out of
range, the stack may decide; and a directory or the RTC can be run.

`accepted` is what a call decides.  The file decides it just when a byte of the magic number
is there and wrong, or the file is a regular one that reaches the entry point
(`HeaderDecided`), unless the call is refused for another reason (`dependsOnFile_iff`).
-/

import OS391.ReadData
import OS391.ShellCount

namespace OS391

open Lib

/-! ### The header -/

/-- `MAGIC_NUM_ZERO` to `MAGIC_NUM_THREE` -/
def magicNumber : List UInt8 := [0x7f, 0x45, 0x4c, 0x46]

/-- The bytes of a file from byte `i` on, as a `uint32_t`. -/
def FileSys.word (fs : FileSys) (inodeIndex i : ℕ) : ℕ :=
  word32At (fun j => (fs.contents inodeIndex).getD j 0) i

/-- An entry for a program: a regular file with the magic number that reaches its entry
point. -/
structure FileSys.IsProgram (fs : FileSys) (d : Dentry) : Prop where
  regular : d.fileType = regularFileType
  inode_lt : d.inodeNum < fs.inodeCount
  length_ge : 28 ≤ (fs.contents d.inodeNum).length
  magic : (fs.contents d.inodeNum).take 4 = magicNumber

/-- The file behind an entry decides whether it is run: a byte of the magic number is there
and wrong, or it is a regular file that reaches its entry point. -/
def FileSys.HeaderDecided (fs : FileSys) (d : Dentry) : Prop :=
  d.inodeNum < fs.inodeCount ∧
    ((∃ i < 4, ∃ b, (fs.contents d.inodeNum)[i]? = some b ∧ magicNumber[i]? ≠ some b) ∨
      d.fileType = regularFileType ∧ 28 ≤ (fs.contents d.inodeNum).length)

theorem isExecutable_iff {buffer : ℕ → UInt8} :
    isExecutable buffer = true ↔ ∀ i < 4, magicNumber[i]? = some (buffer i) := by
  simp only [isExecutable, Bool.and_eq_true, decide_eq_true_eq, and_assoc]
  constructor
  · rintro ⟨h0, h1, h2, h3⟩ i hi
    obtain rfl | rfl | rfl | rfl : i = 0 ∨ i = 1 ∨ i = 2 ∨ i = 3 := by omega
    · exact congrArg some h0.symm
    · exact congrArg some h1.symm
    · exact congrArg some h2.symm
    · exact congrArg some h3.symm
  · intro h
    exact ⟨(Option.some.inj (h 0 (by omega))).symm, (Option.some.inj (h 1 (by omega))).symm,
      (Option.some.inj (h 2 (by omega))).symm, (Option.some.inj (h 3 (by omega))).symm⟩

section Header

variable (fs : FileSys) (inodeIndex : ℕ) (header : ℕ → UInt8)

theorem header_of_no_inode (h : fs.inodeCount ≤ inodeIndex) :
    (readData fs inodeIndex 0 header 40).2 = header := by
  rw [readData, if_pos h]

/-- **The header** holds the bytes the file has, and past its end what was there before. -/
theorem header_apply (h : inodeIndex < fs.inodeCount) {i : ℕ} (hi : i < 40) :
    (readData fs inodeIndex 0 header 40).2 i
      = ((fs.contents inodeIndex)[i]?).getD (header i) := by
  rcases Nat.eq_zero_or_pos (fs.inodes inodeIndex).length with hzero | hpos
  · have hcontents : (fs.contents inodeIndex)[i]? = none := by
      rw [List.getElem?_eq_none_iff, fs.contents_length]
      omega
    rw [hcontents, readData, if_neg (by omega)]
    dsimp only
    rw [if_pos (by omega)]
    rfl
  · rw [readData_eq_of_lt fs header h hpos (by omega) (by omega) (by omega) (by omega)]
    dsimp only
    rcases Nat.lt_or_ge i (fs.inodes inodeIndex).length with hlt | hge
    · rw [copyLoop_start (by omega), fs.contents_getElem? inodeIndex hlt, wanted, Nat.zero_add]
      rfl
    · have hcontents : (fs.contents inodeIndex)[i]? = none := by
        rw [List.getElem?_eq_none_iff, fs.contents_length]
        exact hge
      rw [hcontents, copyLoop_outside (Or.inr (by omega))]
      rfl

theorem header_of_lt (h : inodeIndex < fs.inodeCount) {i : ℕ} (hi : i < 40)
    (hlen : i < (fs.contents inodeIndex).length) :
    (readData fs inodeIndex 0 header 40).2 i = (fs.contents inodeIndex).getD i 0 := by
  rw [header_apply fs inodeIndex header h hi, List.getD_eq_getElem?_getD,
    List.getElem?_eq_getElem hlen]
  rfl

variable {fs inodeIndex}

/-- A wrong byte in the file is a wrong byte in the header. -/
theorem not_isExecutable_of_wrong (h : inodeIndex < fs.inodeCount) {i : ℕ} (hi : i < 4)
    {b : UInt8} (hb : (fs.contents inodeIndex)[i]? = some b) (hne : magicNumber[i]? ≠ some b) :
    isExecutable (readData fs inodeIndex 0 header 40).2 = false := by
  rw [Bool.eq_false_iff]
  intro hexec
  have hbyte := isExecutable_iff.1 hexec i hi
  rw [header_apply fs inodeIndex header h (by omega), hb] at hbyte
  exact hne hbyte

/-- A file without a wrong byte is taken for a program when the stack completes the magic
number. -/
theorem isExecutable_of_not_wrong
    (h : inodeIndex < fs.inodeCount → ∀ i < 4, ∀ b, (fs.contents inodeIndex)[i]? = some b →
      magicNumber[i]? = some b)
    (hheader : isExecutable header = true) :
    isExecutable (readData fs inodeIndex 0 header 40).2 = true := by
  rcases Nat.lt_or_ge inodeIndex fs.inodeCount with hlt | hge
  · refine isExecutable_iff.2 fun i hi => ?_
    rw [header_apply fs inodeIndex header hlt (by omega)]
    cases hb : (fs.contents inodeIndex)[i]? with
    | none => exact isExecutable_iff.1 hheader i hi
    | some b => exact h hlt i hi b hb
  · rw [header_of_no_inode fs inodeIndex header hge]
    exact hheader

/-- In a long enough file the first four bytes are the magic number or not. -/
theorem take_eq_magicNumber (h : inodeIndex < fs.inodeCount)
    (hlen : 28 ≤ (fs.contents inodeIndex).length)
    (hexec : isExecutable (readData fs inodeIndex 0 header 40).2 = true) :
    (fs.contents inodeIndex).take 4 = magicNumber := by
  refine List.ext_getElem? fun i => ?_
  rcases Nat.lt_or_ge i 4 with hi | hi
  · rw [List.getElem?_take_of_lt hi, isExecutable_iff.1 hexec i hi,
      header_apply fs inodeIndex header h (by omega), List.getElem?_eq_getElem (by omega)]
    rfl
  · rw [List.getElem?_eq_none (by rw [List.length_take]; omega), List.getElem?_eq_none hi]

/-- The entry point of a long enough file. -/
theorem word32At_header (h : inodeIndex < fs.inodeCount)
    (hlen : 28 ≤ (fs.contents inodeIndex).length) :
    word32At (readData fs inodeIndex 0 header 40).2 24 = fs.word inodeIndex 24 := by
  have hbyte (i : ℕ) (hi : i < 28) := header_of_lt fs inodeIndex header h (by omega : i < 40)
    (by omega)
  simp only [FileSys.word, word32At]
  rw [hbyte 24 (by omega), hbyte 25 (by omega), hbyte 26 (by omega), hbyte 27 (by omega)]

end Header

/-! ### What a call decides -/

namespace Kernel

variable {fs : FileSys} {s : Kernel} {command : CString}

/-- What `execute` decides: the process and the entry point it records, `none` for a call that
starts nothing. -/
def accepted (fs : FileSys) (s : Kernel) (command : CString) (frame : Frame) : Option (ℤ × ℕ) :=
  match s.execute fs command frame with
  | (.launched pid, t) => some (pid, (t.pcb pid).entryPoint)
  | (.failed, _) => none
  | (.refused, _) => none

/-- No PCB above that of the running process is free. -/
def NoFreePcb (s : Kernel) : Prop :=
  s.processNum ≤ maxPcb ∧ ∀ q, s.processNum < q → q ≤ maxPcb → (s.pcb q).active = true

theorem findPcb_eq_maxPcb_iff :
    s.findPcb (maxPcb - s.processNum).toNat s.processNum = maxPcb ↔ s.NoFreePcb := by
  rcases lt_or_ge maxPcb s.processNum with hgt | hle
  · rw [Int.toNat_of_nonpos (by omega), findPcb]
    exact ⟨fun h => absurd h (by omega), fun h => absurd h.1 (by omega)⟩
  · obtain ⟨-, hmax, hused, hfree⟩ := s.findPcb_spec (maxPcb - s.processNum).toNat s.processNum
      (by omega)
    constructor
    · intro h
      exact ⟨hle, fun q hq hq' => hused q hq (by omega)⟩
    · rintro ⟨-, hall⟩
      by_contra hne
      have hlt := lt_of_le_of_ne hmax hne
      have hactive := hall (s.findPcb (maxPcb - s.processNum).toNat s.processNum + 1)
        (by have := (s.findPcb_spec (maxPcb - s.processNum).toNat s.processNum (by omega)).1; omega)
        (by omega)
      rw [hfree hne] at hactive
      exact Bool.false_ne_true hactive

/-- **The entry point** goes into the PCB of the process that is launched. -/
theorem launch_entryPoint {u : Kernel} (hflag : u.shellHaltFlag = false) (pid : ℤ)
    (entryPoint : ℕ) (isShellFlag : Bool) (frame : Frame) :
    (u.launch pid entryPoint isShellFlag frame).1 = pid ∧
      ((u.launch pid entryPoint isShellFlag frame).2.pcb pid).entryPoint = entryPoint := by
  simp only [launch, hflag, Bool.false_eq_true, if_false]
  refine ⟨trivial, ?_⟩
  set v := (u.initPcb pid entryPoint).modifyPcb pid fun p =>
    setupPcb p pid (u.initPcb pid entryPoint).processNum frame isShellFlag with hv
  obtain ⟨terminalNum, isBaseShell, parentId, hqueue⟩ := v.enqueue_pcb pid pid
  have hinit : ((u.initPcb pid entryPoint).pcb pid).entryPoint = entryPoint := by
    rw [initPcb, if_neg (by simp [hflag]), modifyPcb_pcb_self]
  show ((v.enqueue pid).pcb pid).entryPoint = entryPoint
  rw [hqueue, hv, modifyPcb_pcb_self]
  exact hinit

theorem findPcb_setFlags (k : ℕ) (temp : ℤ) :
    ((s.parseCommand command).setFlags (getFileName command)).findPcb k temp
      = s.findPcb k temp := by
  induction k generalizing temp with
  | zero => rfl
  | succ k ih => exact if_congr Iff.rfl (ih _) rfl

/-- A call that the number of shells or of processes forbids decides nothing else. -/
theorem accepted_of_refused (h : s.AtLimit command ∨ s.NoFreePcb) (frame : Frame) :
    s.accepted fs command frame = none := by
  unfold accepted
  by_cases hlimit : s.AtLimit command
  · rw [execute_of_atLimit hlimit]
  · have hfull := findPcb_eq_maxPcb_iff.2 (h.resolve_left hlimit)
    rw [execute_of_not_atLimit hlimit, load]
    cases readDentryByName fs (getFileName command) with
    | none => rfl
    | some d =>
      dsimp only
      have hnum : ((s.parseCommand command).setFlags (getFileName command)).processNum
        = s.processNum := rfl
      rw [findPcb_setFlags, hnum, hfull, if_pos rfl]
      split_ifs
      · rfl
      · rfl

/-- **What any other call decides.** -/
theorem accepted_of_room (hlimit : ¬ s.AtLimit command) (hroom : ¬ s.NoFreePcb) (frame : Frame) :
    s.accepted fs command frame = (readDentryByName fs (getFileName command)).bind fun d =>
      if isExecutable (readData fs d.inodeNum 0 frame.header 40).2 = true then
        some (s.findPcb (maxPcb - s.processNum).toNat s.processNum + 1,
          word32At (readData fs d.inodeNum 0 frame.header 40).2 24)
      else none := by
  have hfull := mt findPcb_eq_maxPcb_iff.1 hroom
  unfold accepted
  rw [execute_of_not_atLimit hlimit, load]
  cases readDentryByName fs (getFileName command) with
  | none => rfl
  | some d =>
    dsimp only [Option.bind]
    have hnum : ((s.parseCommand command).setFlags (getFileName command)).processNum
      = s.processNum := rfl
    rw [findPcb_setFlags, hnum]
    set t := (s.parseCommand command).setFlags (getFileName command)
    set temp := s.findPcb (maxPcb - s.processNum).toNat s.processNum
    rw [if_neg hfull]
    cases hexec : isExecutable (readData fs d.inodeNum 0 frame.header 40).2 with
    | false => rfl
    | true =>
      obtain ⟨hpid, hentry⟩ := launch_entryPoint (u := t.pagingExecute (temp + 1)) rfl (temp + 1)
        (word32At (readData fs d.inodeNum 0 frame.header 40).2 24)
        (isShellName (getFileName command)) frame
      rw [if_neg (by simp), if_pos rfl]
      dsimp only
      rw [hpid, hentry]

/-- **The file alone decides:** whatever the local buffer of `execute` held before, the call
starts the same process at the same entry point or none, and what it starts is a program, at
the entry point in the file. -/
structure DependsOnFile (fs : FileSys) (s : Kernel) (command : CString) : Prop where
  header : ∀ (frame : Frame) (header' : ℕ → UInt8),
    s.accepted fs command { frame with header := header' } = s.accepted fs command frame
  accepts : ∀ frame pid entryPoint, s.accepted fs command frame = some (pid, entryPoint) →
    ∃ d, readDentryByName fs (getFileName command) = some d ∧ fs.IsProgram d ∧
      entryPoint = fs.word d.inodeNum 24

theorem dependsOnFile_of_none (h : ∀ frame, s.accepted fs command frame = none) :
    s.DependsOnFile fs command :=
  ⟨fun frame header' => (h _).trans (h frame).symm, fun frame pid entryPoint haccepted => by
    simp [h frame] at haccepted⟩

/-- A decided header is the same for every buffer. -/
theorem dependsOnFile_of_decided (hlimit : ¬ s.AtLimit command) (hroom : ¬ s.NoFreePcb)
    {d : Dentry} (hdentry : readDentryByName fs (getFileName command) = some d)
    (h : fs.HeaderDecided d) : s.DependsOnFile fs command := by
  have haccepted (frame : Frame) : s.accepted fs command frame = _ :=
    accepted_of_room hlimit hroom frame
  simp only [hdentry, Option.bind_some] at haccepted
  obtain ⟨hinode, ⟨i, hi, b, hb, hne⟩ | ⟨hregular, hlen⟩⟩ := h
  · refine dependsOnFile_of_none fun frame => ?_
    rw [haccepted, not_isExecutable_of_wrong frame.header hinode hi hb hne]
    exact if_neg Bool.false_ne_true
  · have hexec (header header' : ℕ → UInt8)
        (h : isExecutable (readData fs d.inodeNum 0 header 40).2 = true) :
        isExecutable (readData fs d.inodeNum 0 header' 40).2 = true := by
      refine isExecutable_iff.2 fun i hi => ?_
      rw [header_of_lt fs d.inodeNum header' hinode (by omega) (by omega),
        ← header_of_lt fs d.inodeNum header hinode (by omega) (by omega)]
      exact isExecutable_iff.1 h i hi
    constructor
    · intro frame header'
      simp only [haccepted, word32At_header _ hinode hlen]
      exact if_congr ⟨hexec _ _, hexec _ _⟩ rfl rfl
    · intro frame pid entryPoint h
      rw [haccepted, word32At_header _ hinode hlen] at h
      split_ifs at h with hmagic
      obtain ⟨-, rfl⟩ := Prod.mk.inj (Option.some.inj h)
      have htake := take_eq_magicNumber frame.header hinode hlen hmagic
      exact ⟨d, hdentry, ⟨hregular, hinode, hlen, htake⟩, rfl⟩

/-- A frame whose stack holds the magic number where the header will be. -/
def magicFrame : Frame :=
  { (default : Frame) with header := fun i => magicNumber.getD i 0 }

/-- On such a stack an undecided header is accepted. -/
theorem decided_of_dependsOnFile (hlimit : ¬ s.AtLimit command) (hroom : ¬ s.NoFreePcb)
    {d : Dentry} (hdentry : readDentryByName fs (getFileName command) = some d)
    (h : s.DependsOnFile fs command) : fs.HeaderDecided d := by
  by_contra hnot
  have haccepted : s.accepted fs command magicFrame = _ :=
    accepted_of_room hlimit hroom magicFrame
  have hexec : isExecutable (readData fs d.inodeNum 0 magicFrame.header 40).2 = true := by
    refine isExecutable_of_not_wrong _ (fun hinode i hi b hb => ?_) (by decide)
    by_contra hne
    exact hnot ⟨hinode, Or.inl ⟨i, hi, b, hb, hne⟩⟩
  rw [hdentry, Option.bind_some, if_pos hexec] at haccepted
  obtain ⟨d', hd', hprogram, -⟩ := h.accepts _ _ _ haccepted
  obtain rfl := Option.some.inj (hdentry.symm.trans hd')
  exact hnot ⟨hprogram.inode_lt, Or.inr ⟨hprogram.regular, hprogram.length_ge⟩⟩

/-- **When the file alone decides:** the call is refused for another reason, there is no such
file, or its header is decided. -/
theorem dependsOnFile_iff : s.DependsOnFile fs command ↔
    s.AtLimit command ∨ s.NoFreePcb ∨
      ∀ d, readDentryByName fs (getFileName command) = some d → fs.HeaderDecided d := by
  by_cases hrefused : s.AtLimit command ∨ s.NoFreePcb
  · exact iff_of_true (dependsOnFile_of_none (accepted_of_refused hrefused))
      (hrefused.imp_right Or.inl)
  · obtain ⟨hlimit, hroom⟩ := not_or.1 hrefused
    constructor
    · intro h
      exact Or.inr (Or.inr fun d hdentry => decided_of_dependsOnFile hlimit hroom hdentry h)
    · intro h
      have hdecided := (h.resolve_left hlimit).resolve_left hroom
      cases hdentry : readDentryByName fs (getFileName command) with
      | none =>
        refine dependsOnFile_of_none fun frame => ?_
        rw [accepted_of_room hlimit hroom, hdentry]
        rfl
      | some d => exact dependsOnFile_of_decided hlimit hroom hdentry (hdecided d hdentry)

end Kernel

/-- The command `empty`. -/
def emptyCommand : CString where
  bytes := ascii "empty".toList
  noNul := by decide

/-- An image with one file, `empty`, of no bytes. -/
def emptyFileImage : FileSys :=
  { entryImage emptyCommand regularFileType with
    inodes := fun _ => { length := 0, dataBlocks := fun _ => 0 } }

/-- **A file of no bytes is run** when the magic number of the program that was started before
is still on the stack, and not when the stack is clean. -/
theorem not_dependsOnFile_empty :
    ¬ ∀ (fs : FileSys) (s : Kernel) (command : CString), s.DependsOnFile fs command := by
  intro h
  exact absurd ((h emptyFileImage bootedKernel emptyCommand).header zeroFrame
    Kernel.magicFrame.header) (by decide +kernel)

end OS391
