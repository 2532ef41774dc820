/-
# A call of `execute` that returns -1

`execute` parses its command before it looks for the program: the arguments go to
`stored_buf`, a NUL is put behind the name in the caller's string, a shell is counted and
`cat_flag` is set.  Then the file may turn out not to exist or not to be a program
(`execute_failed_iff`).  What has been written stays (`execute_eq_of_failed`), but nothing
that says which processes there are, who runs or what is mapped has been touched by then
(`undisturbed_of_failed`).
-/

import OS391.Context

namespace OS391

open Lib

/-- The bytes at `command` once `get_file_name` has put a NUL behind the name. -/
def eosAfterName (command : CString) : ℕ → UInt8 :=
  Function.update command.get (fileNameEnd command) 0

theorem fileNameEnd_le (command : CString) : fileNameEnd command ≤ command.strlen := by
  have hsplit := congrArg List.length
    (List.takeWhile_append_dropWhile (p := (· = 32)) (l := command.bytes))
  have hname := (List.takeWhile_prefix (fun b => decide (b ≠ 32 ∧ b ≠ 10))
    (l := command.bytes.dropWhile (· = 32))).length_le
  rw [List.length_append] at hsplit
  unfold fileNameEnd CString.strlen
  omega

/-- A string that ends with its name is not changed by that, and no other. -/
theorem eosAfterName_eq_iff (command : CString) :
    eosAfterName command = command.get ↔ fileNameEnd command = command.strlen := by
  have hle := fileNameEnd_le command
  constructor
  · intro h
    have hnul : command.get (fileNameEnd command) = 0 := by
      rw [← h]
      exact Function.update_self ..
    by_contra hne
    have hlt : fileNameEnd command < command.bytes.length := by
      unfold CString.strlen at hle hne
      omega
    rw [CString.get, List.getD_eq_getElem?_getD, List.getElem?_eq_getElem hlt] at hnul
    exact command.noNul (hnul ▸ List.getElem_mem hlt)
  · intro h
    have hnul : command.get (fileNameEnd command) = 0 := by
      rw [CString.get, List.getD_eq_getElem?_getD, List.getElem?_eq_none (by
        rw [h]
        exact Nat.le_refl _)]
      rfl
    rw [eosAfterName, ← hnul, Function.update_eq_self]

namespace Kernel

variable {fs : FileSys} {s : Kernel} {command : CString} {frame : Frame}

/-- `load` fails when there is no such file, or it is no program. -/
theorem load_failed_iff (fileName : CString) : (s.load fs fileName frame).1 = .failed ↔
    ∀ d, readDentryByName fs fileName = some d →
      isExecutable (readData fs d.inodeNum 0 frame.header 40).2 = false := by
  unfold load
  cases hdentry : readDentryByName fs fileName with
  | none => exact iff_of_true rfl nofun
  | some d =>
    dsimp only
    split_ifs with hexec hfull
    · refine iff_of_true rfl fun d' hd' => ?_
      rwa [← Option.some.inj hd']
    · exact iff_of_false nofun fun h => hexec (h d rfl)
    · exact iff_of_false nofun fun h => hexec (h d rfl)

/-- **When `execute` returns -1:** the command is not that of a seventh shell, and there is no
such file or it is no program. -/
theorem execute_failed_iff : (s.execute fs command frame).1 = .failed ↔
    ¬ (isShellName (getFileName command) = true ∧ s.shellProcessCount ≥ shellLimit) ∧
      ∀ d, readDentryByName fs (getFileName command) = some d →
        isExecutable (readData fs d.inodeNum 0 frame.header 40).2 = false := by
  simp only [execute]
  split_ifs with hlimit
  · refine iff_of_false ?_ fun h => h.1 hlimit
    intro heq
    contradiction
  · exact (load_failed_iff _).trans (and_iff_right hlimit).symm

/-- **What it has done by then.** -/
theorem execute_eq_of_failed (h : (s.execute fs command frame).1 = .failed) :
    (s.execute fs command frame).2 = (s.parseCommand command).setFlags (getFileName command) := by
  simp only [execute] at h ⊢
  split_ifs at h ⊢
  unfold load at h ⊢
  cases hdentry : readDentryByName fs (getFileName command) with
  | none => rfl
  | some d =>
    rw [hdentry] at h
    dsimp only at h ⊢
    split_ifs at h ⊢
    rfl

/-- The kernel `t` after a call that fails: who runs, what each process is and what is mapped
are as in `s`; a command without traces in the rest of the state leaves that too. -/
structure Undisturbed (s : Kernel) (command : CString) (t : Kernel) : Prop where
  pcb : t.pcb = s.pcb
  processNum : t.processNum = s.processNum
  scheduleArray : t.scheduleArray = s.scheduleArray
  currPid : t.currPid = s.currPid
  scheduleIdx : t.scheduleIdx = s.scheduleIdx
  pitCount : t.pitCount = s.pitCount
  pageDir : t.pageDir = s.pageDir
  /-- The flags of the other terminals. -/
  catFlag : ∀ i, i ≠ s.scheduleIdx → t.console.catFlag i = s.console.catFlag i
  scheduledCatFlag :
    s.console.catFlag s.scheduleIdx = decide (strncmp (getFileName command).get catName 3 = 0) →
      t.console.catFlag = s.console.catFlag
  shellProcessCount : isShellName (getFileName command) = false →
    t.shellProcessCount = s.shellProcessCount
  storedBuf : parseArgs command s.storedBuf = s.storedBuf → t.storedBuf = s.storedBuf

/-- **A failed `execute` starts, ends and maps nothing.**  In the caller's string it changes the
byte behind the name, and so none just when the string ends there. -/
theorem undisturbed_of_failed (h : (s.execute fs command frame).1 = .failed) :
    s.Undisturbed command (s.execute fs command frame).2 ∧
      (∀ i, i ≠ fileNameEnd command → eosAfterName command i = command.get i) ∧
      (eosAfterName command = command.get ↔ fileNameEnd command = command.strlen) := by
  refine ⟨?_, fun i hi => Function.update_of_ne hi _ _, eosAfterName_eq_iff command⟩
  rw [execute_eq_of_failed h]
  refine
    { pcb := rfl, processNum := rfl, scheduleArray := rfl, currPid := rfl, scheduleIdx := rfl
      pitCount := rfl, pageDir := rfl
      catFlag := fun i hi => Function.update_of_ne hi _ _
      scheduledCatFlag := fun hcat => ?_
      shellProcessCount := fun hname => ?_
      storedBuf := fun hargs => hargs }
  · show Function.update s.console.catFlag s.scheduleIdx _ = _
    rw [← hcat, Function.update_eq_self]
  · show (if isShellName (getFileName command) then _ else _) = _
    rw [hname]
    rfl

end Kernel

/-- The command `fish 1`. -/
def fishCommand : CString where
  bytes := ascii "fish 1".toList
  noNul := by decide

/-- The command `shellx a`. -/
def shellxCommand : CString where
  bytes := ascii "shellx a".toList
  noNul := by decide

/-- An image with the program `a` and a file `fish` of 40 zero bytes. -/
def fishImage : FileSys :=
  { programImage with
    dirCount := 2
    inodeCount := 2
    dataCount := 2
    direntries := fun i =>
      if i = 0 then programImage.direntries 0
      else
        { filename := (getFileName fishCommand).get, fileType := regularFileType, inodeNum := 1 }
    inodes := fun i => { length := 40, dataBlocks := fun _ => i } }

/-- `fish` is found, but it is not a program. -/
theorem undisturbed_fish :
    bootedKernel.Undisturbed fishCommand
        (bootedKernel.execute fishImage fishCommand zeroFrame).2 ∧
      (∀ i, i ≠ fileNameEnd fishCommand → eosAfterName fishCommand i = fishCommand.get i) ∧
      (eosAfterName fishCommand = fishCommand.get ↔ fileNameEnd fishCommand = fishCommand.strlen) :=
  Kernel.undisturbed_of_failed (by decide +kernel)

/-- **A failed call does leave traces:** where there is no `shellx`, for `shellx a` a shell is
counted, the argument is stored and the name is cut off the command. -/
theorem not_untouched_shellx :
    (bootedKernel.execute fishImage shellxCommand zeroFrame).1 = .failed ∧
      (bootedKernel.execute fishImage shellxCommand zeroFrame).2.shellProcessCount ≠
        bootedKernel.shellProcessCount ∧
      (bootedKernel.execute fishImage shellxCommand zeroFrame).2.storedBuf ≠
        bootedKernel.storedBuf ∧
      eosAfterName shellxCommand ≠ shellxCommand.get := by
  refine ⟨by decide +kernel, by decide +kernel, fun h => ?_, fun h => ?_⟩
  · exact absurd (congrFun h 0) (by decide +kernel)
  · exact absurd (congrFun h 6) (by decide +kernel)

end OS391
