/-
# Where `execute` looks for a PCB

PCB `pid` and the kernel stack of process `pid` lie below `8MB - 8KB * pid`, in the 4 MB page
of the kernel for the numbers from 0 to 511.  The loop of `execute` looks at the PCB after
`temp_process_num` before it compares `temp_process_num` with `MAX_PCB`, and `MAX_PCB` is 512:
when those up to 511 are in use it looks at PCB 512, which lies below 4 MB in a page that is not
present.

`findPcbTraced` is the loop with a record of the PCBs it looks at: those above the running
process's, up to the one it stops at (`mem_touched_findPcbTraced`).  So they are all in the page
just when one of them is free (`allocatesInPage_iff`).
-/

import OS391.Context
import OS391.Lib.Traced

namespace OS391

open Lib

/-- The address of PCB `pid`: `8MB - 8KB * (pid + 1)`. -/
def pcbAddr (pid : ℤ) : ℤ := 0x800000 - 8192 * (pid + 1)

/-- An address in the page of the kernel, from 4 MB to 8 MB. -/
def InKernelPage (a : ℤ) : Prop := 0x400000 ≤ a ∧ a < 0x800000

theorem inKernelPage_pcbAddr {pid : ℤ} : InKernelPage (pcbAddr pid) ↔ 0 ≤ pid ∧ pid ≤ 511 := by
  unfold InKernelPage pcbAddr
  omega

theorem inKernelPage_kernelStack {pid : ℤ} (h : 0 ≤ pid) (h' : pid ≤ 511) :
    InKernelPage (kernelStack pid) := by
  unfold InKernelPage kernelStack
  rw [u32_of_bounds] <;> omega

namespace Kernel

variable (s : Kernel)

/-- The loop that looks for a free PCB.  Each turn reads `next_pcb->active` first, the last one
too. -/
def findPcbTraced : ℕ → ℤ → Traced ℤ ℤ
  | 0, temp => do
    let _ ← Traced.load s.pcb (temp + 1)
    pure temp
  | k + 1, temp => do
    let nextPcb ← Traced.load s.pcb (temp + 1)
    if nextPcb.active = true ∧ temp < maxPcb then findPcbTraced k (temp + 1) else pure temp

/-- How many turns the loop can make from process `process_num` on. -/
def searchTurns : ℕ := (maxPcb - s.processNum).toNat

theorem val_findPcbTraced (k : ℕ) (temp : ℤ) : (s.findPcbTraced k temp).val = s.findPcb k temp := by
  induction k generalizing temp with
  | zero => rfl
  | succ k ih =>
    rw [findPcbTraced, findPcb, Traced.val_bind, Traced.val_load, Traced.val_ite, ih]
    rfl

theorem le_findPcb (k : ℕ) (temp : ℤ) : temp ≤ s.findPcb k temp := by
  induction k generalizing temp with
  | zero => exact Int.le_refl temp
  | succ k ih =>
    rw [findPcb]
    split_ifs
    · exact Int.le_trans (by omega) (ih (temp + 1))
    · exact Int.le_refl temp

/-- **The search ends:** more turns than lead to `MAX_PCB` change nothing. -/
theorem findPcb_of_le {k : ℕ} (hk : s.searchTurns ≤ k) :
    s.findPcb k s.processNum = s.findPcb s.searchTurns s.processNum := by
  have hmore (k : ℕ) (temp : ℤ) (h : maxPcb ≤ temp + k) :
      s.findPcb (k + 1) temp = s.findPcb k temp := by
    induction k generalizing temp with
    | zero => exact if_neg fun hturn => by omega
    | succ k ih => exact if_congr Iff.rfl (ih (temp + 1) (by omega)) rfl
  have hturns : maxPcb ≤ s.processNum + s.searchTurns := by
    unfold searchTurns
    omega
  obtain ⟨d, rfl⟩ := Nat.exists_eq_add_of_le hk
  induction d with
  | zero => rfl
  | succ d ih => rw [← Nat.add_assoc, hmore _ _ (by omega), ih (Nat.le_add_right _ d)]

/-- **The loop looks at** the PCBs after the first, up to the one it stops at. -/
theorem mem_touched_findPcbTraced (k : ℕ) (temp q : ℤ) :
    q ∈ (s.findPcbTraced k temp).touched ↔ temp < q ∧ q ≤ s.findPcb k temp + 1 := by
  induction k generalizing temp with
  | zero =>
    show q ∈ [temp + 1] ↔ temp < q ∧ q ≤ temp + 1
    rw [List.mem_singleton]
    omega
  | succ k ih =>
    rw [findPcbTraced, findPcb, Traced.touched_bind, Traced.touched_ite, Traced.val_load]
    split_ifs
    · have hle := s.le_findPcb k (temp + 1)
      rw [List.singleton_append, List.mem_cons, ih]
      omega
    · rw [List.singleton_append, Traced.touched_pure, List.mem_singleton]
      omega

/-- **The first free PCB in the page** is what the search stops at, if there is one. -/
theorem findPcb_le_iff : s.findPcb s.searchTurns s.processNum + 1 ≤ 511 ↔
    ∃ q, s.processNum < q ∧ q ≤ 511 ∧ (s.pcb q).active = false := by
  have hmax : maxPcb = 512 := rfl
  have hle := s.le_findPcb s.searchTurns s.processNum
  rcases Int.lt_or_le maxPcb s.processNum with hgt | hnum
  · exact iff_of_false (by omega) fun ⟨q, hq, hq', _⟩ => by omega
  · obtain ⟨-, -, hused, hfree⟩ := s.findPcb_spec s.searchTurns s.processNum
      (by unfold searchTurns; omega)
    constructor
    · intro h
      exact ⟨_, by omega, h, hfree (by omega)⟩
    · rintro ⟨q, hq, hq', hactive⟩
      by_contra hgt
      have hbusy := hused q hq (by omega)
      rw [hactive] at hbusy
      exact Bool.false_ne_true hbusy

/-- **The allocation of PCBs stays in the page of the kernel:** the search ends; each PCB it looks
at is in the page; so are the PCB of a process that is launched and the top of its kernel stack;
and when no PCB of the page is free, the search runs into `MAX_PCB`. -/
structure AllocatesInPage (s : Kernel) : Prop where
  terminates : ∃ temp, ∀ k ≥ s.searchTurns, s.findPcb k s.processNum = temp
  examined : (s.findPcbTraced s.searchTurns s.processNum).Within fun q => InKernelPage (pcbAddr q)
  launched : ∀ fs command frame pid, (s.execute fs command frame).1 = .launched pid →
    InKernelPage (pcbAddr pid) ∧ InKernelPage (s.execute fs command frame).2.tssEsp0
  refused : (∀ q, s.processNum < q → InKernelPage (pcbAddr q) → (s.pcb q).active = true) →
    s.findPcb s.searchTurns s.processNum = maxPcb

/-- A launched process is in the first free PCB, and runs on its kernel stack. -/
theorem launched_firstFree (hmax : s.processNum ≤ maxPcb) {fs : FileSys} {command : CString}
    {frame : Frame} {pid : ℤ} (h : (s.execute fs command frame).1 = .launched pid) :
    s.FirstFree pid ∧ (s.execute fs command frame).2.tssEsp0 = kernelStack pid := by
  rcases s.execute_cases fs command frame hmax with ⟨q, hlaunch⟩ | hstop
  · obtain rfl : q = pid := ExecResult.launched.inj (hlaunch.result.symm.trans h)
    refine ⟨hlaunch.firstFree, ?_⟩
    obtain ⟨u, entryPoint, isShellFlag, hparsed, -, heq⟩ := hlaunch
    have hflag : (u.pagingExecute q).shellHaltFlag = false := hparsed.shellHaltFlag
    obtain ⟨pcb, array, curr, count, hframe⟩ :=
      (u.pagingExecute q).launch_frame q entryPoint isShellFlag frame
    rw [heq, hframe]
    simp [hflag]
  · exact absurd h (hstop.1 pid)

/-- **When it does:** exactly when a PCB of the page above the running process's is free. -/
theorem allocatesInPage_iff (hpid : -1 ≤ s.processNum) :
    s.AllocatesInPage ↔ ∃ q, s.processNum < q ∧ q ≤ 511 ∧ (s.pcb q).active = false := by
  have hle := s.le_findPcb s.searchTurns s.processNum
  rw [← findPcb_le_iff]
  constructor
  · intro h
    have hlast := h.examined (s.findPcb s.searchTurns s.processNum + 1)
      ((s.mem_touched_findPcbTraced _ _ _).2 ⟨by omega, Int.le_refl _⟩)
    exact (inKernelPage_pcbAddr.1 hlast).2
  · intro h
    obtain ⟨q, hq, hq', hfree⟩ := s.findPcb_le_iff.1 h
    refine ⟨⟨_, fun k hk => s.findPcb_of_le hk⟩, fun i hi => ?_,
      fun fs command frame pid hrun => ?_, fun hfull => ?_⟩
    · obtain ⟨hlow, hhigh⟩ := (s.mem_touched_findPcbTraced _ _ _).1 hi
      exact inKernelPage_pcbAddr.2 ⟨by omega, by omega⟩
    · obtain ⟨hfirst, hstack⟩ := s.launched_firstFree (by unfold maxPcb; omega) hrun
      -- the first free PCB is not after `q`
      have hpidq : pid ≤ q := by
        by_contra hlt
        have hbusy := hfirst.first q hq (by omega)
        rw [hfree] at hbusy
        exact Bool.false_ne_true hbusy
      have habove := hfirst.above
      rw [hstack]
      exact ⟨inKernelPage_pcbAddr.2 ⟨by omega, by omega⟩,
        inKernelPage_kernelStack (by omega) (by omega)⟩
    · have hbusy := hfull q hq (inKernelPage_pcbAddr.2 ⟨by omega, hq'⟩)
      rw [hfree] at hbusy
      exact absurd hbusy Bool.false_ne_true

end Kernel

/-- The booted kernel has 509 PCBs left. -/
theorem allocatesInPage_bootedKernel :
    bootedKernel.AllocatesInPage ↔
      ∃ q, bootedKernel.processNum < q ∧ q ≤ 511 ∧ (bootedKernel.pcb q).active = false :=
  bootedKernel.allocatesInPage_iff (by decide)

/-- Every PCB of the page is in use, and the process of the last one runs. -/
def crowdedKernel : Kernel :=
  { bootedKernel with
    processNum := 511
    pcb := fun q => { zeroPcb with pid := q, active := decide (q ≤ 511) } }

/-- **PCB 512 is looked at** when the page is full, and it lies below 4 MB. -/
theorem not_allocatesInPage_full :
    ¬ ∀ s : Kernel, -1 ≤ s.processNum → s.AllocatesInPage := by
  intro h
  have hlooked : (512 : ℤ) ∈
      (crowdedKernel.findPcbTraced crowdedKernel.searchTurns crowdedKernel.processNum).touched :=
    (crowdedKernel.mem_touched_findPcbTraced _ _ _).2 ⟨by decide, by decide +kernel⟩
  have hpage := (h crowdedKernel (by decide)).examined 512 hlooked
  exact absurd (inKernelPage_pcbAddr.1 hpage).2 (by decide)

end OS391
