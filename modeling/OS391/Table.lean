/-
# What the operations do to a descriptor table

A changed descriptor is the only one changed (`modifyDescriptor_fileDescriptor`), and `close`
frees the one it is given (`closeDescriptor_fileDescriptor`).  The close handlers of a halt
find the process in two ways; whichever way it is, the descriptor they are called for is
freed or left, and all others are left (`closeHandler_fileDescriptor`,
`closeTurns_fileDescriptor`).
-/

import OS391.Process

namespace OS391

open Lib

namespace Kernel

variable (fs : FileSys) (s : Kernel)

theorem modifyDescriptor_fileDescriptor (pid fd q i : ℤ) (f : FileDescriptor → FileDescriptor) :
    ((s.modifyDescriptor pid fd f).pcb q).fileDescriptor i
      = if q = pid ∧ i = fd then f ((s.pcb q).fileDescriptor i)
        else (s.pcb q).fileDescriptor i := by
  by_cases hq : q = pid
  · subst hq
    by_cases hi : i = fd
    · subst hi
      simp [modifyDescriptor]
    · simp [modifyDescriptor, hi]
  · rw [if_neg fun h => hq h.1, modifyDescriptor, modifyPcb_pcb_of_ne hq]

/-- A free descriptor is not changed by freeing it. -/
theorem clear_flags_of_eq {d : FileDescriptor} (h : d.flags = false) :
    { d with flags := false } = d := by
  cases d
  simp_all

/-- **The `close` functions** free their descriptor, and only it. -/
theorem closeDescriptor_fileDescriptor (pid fd freeResult q i : ℤ) :
    ((s.closeDescriptor pid fd freeResult).2.pcb q).fileDescriptor i
      = if q = pid ∧ i = fd ∧ fdMin ≤ fd ∧ fd ≤ fdMax then
          { (s.pcb q).fileDescriptor i with flags := false }
        else (s.pcb q).fileDescriptor i := by
  unfold closeDescriptor
  by_cases hbad : fd < fdMin ∨ fd > fdMax
  · rw [if_pos hbad, if_neg (by omega)]
  · rw [if_neg hbad]
    by_cases hopen : ((s.pcb pid).fileDescriptor fd).flags = true
    · rw [if_pos hopen, modifyDescriptor_fileDescriptor]
      exact if_congr (by omega) rfl rfl
    · rw [if_neg hopen]
      split_ifs with hthis
      · obtain ⟨rfl, rfl, -⟩ := hthis
        exact (clear_flags_of_eq (by simpa using hopen)).symm
      · rfl

/-- **The `close` handlers** free the descriptor they are called for, or change nothing. -/
theorem closeHandler_fileDescriptor (fop : FopTable) (fd q i : ℤ) :
    ((s.closeHandler fop fd).2.pcb q).fileDescriptor i = (s.pcb q).fileDescriptor i ∨
      i = fd ∧ ((s.closeHandler fop fd).2.pcb q).fileDescriptor i
        = { (s.pcb q).fileDescriptor i with flags := false } := by
  have hclose (pid r : ℤ) (u : Kernel) (hu : u.pcb = s.pcb) :
      ((u.closeDescriptor pid fd r).2.pcb q).fileDescriptor i = (s.pcb q).fileDescriptor i ∨
        i = fd ∧ ((u.closeDescriptor pid fd r).2.pcb q).fileDescriptor i
          = { (s.pcb q).fileDescriptor i with flags := false } := by
    rw [closeDescriptor_fileDescriptor, hu]
    split_ifs with h
    · exact Or.inr ⟨h.2.1, rfl⟩
    · exact Or.inl rfl
  cases fop with
  | stdin | stdout => exact Or.inl rfl
  | rtc => exact hclose _ _ s.cli rfl
  | directory => exact hclose _ _ s rfl
  | file => exact hclose _ _ s rfl

/-- One turn of the close loop of a halt. -/
theorem closeIfOpen_fileDescriptor (pid j q i : ℤ) :
    ((s.closeIfOpen pid j).pcb q).fileDescriptor i = (s.pcb q).fileDescriptor i ∨
      i = j ∧ ((s.closeIfOpen pid j).pcb q).fileDescriptor i
        = { (s.pcb q).fileDescriptor i with flags := false } := by
  unfold closeIfOpen
  split_ifs
  · exact s.closeHandler_fileDescriptor _ j q i
  · exact Or.inl rfl

/-- Turns of the close loop for other descriptors leave one alone. -/
theorem closeTurns_fileDescriptor {pid i : ℤ} {l : List ℤ} (hi : i ∉ l) :
    ((runAll (l.map fun j t => closeIfOpen t pid j) s).pcb pid).fileDescriptor i
      = (s.pcb pid).fileDescriptor i :=
  runAll_invariant (P := fun t : Kernel =>
      (t.pcb pid).fileDescriptor i = (s.pcb pid).fileDescriptor i)
    (fun f hf t ht => by
      obtain ⟨j, hj, rfl⟩ := List.mem_map.1 hf
      rcases t.closeIfOpen_fileDescriptor pid j pid i with heq | ⟨rfl, -⟩
      · exact heq.trans ht
      · exact absurd hj hi) rfl

end Kernel

end OS391
