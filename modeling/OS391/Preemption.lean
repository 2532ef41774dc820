/-
# What a tick brings back

A tick saves `esp` and `ebp` in the PCB of `process_num` and loads them from that of
`schedule_array[schedule_idx]`; `execute` and `halt` move both, and PCBs are used again.  The
record `Saved` says what a tick should find: the registers with which each process was last
preempted, and nothing for a process that has been started or returned to since.

The processes of the other two terminals have been preempted, and their PCBs hold what the
record says (`Preempted`).  So every tick resumes its process with the registers it was
preempted with, and three ticks go once around the terminals (`resumed_of_run`).

What runs meanwhile leaves a preempted process its PCB, up to the saved registers, and its place
in the schedule (`KeepsPlace`).  So a turn of the other terminals is what a waiting process sees
as one interrupt (`Running.interrupted`).
-/

import OS391.Consistency
import OS391.Frames

namespace OS391

open Lib

/-- The registers with which a process was preempted, if it was. -/
abbrev Saved : Type := ℤ → Option (ℕ × ℕ)

/-- The process that a halt of the running one leads to: itself again for a base shell, its
parent otherwise. -/
def returnsTo (s : Kernel) : ℤ :=
  if (s.pcb s.processNum).isBaseShell = false then (s.pcb s.processNum).parentId else s.processNum

/-- The record after an operation. -/
def Saved.next (fs : FileSys) (s : Kernel) (saved : Saved) (e : Event) : Saved :=
  match e with
  | .tick esp ebp _ => Function.update saved s.processNum (some (esp, ebp))
  | .execute command frame =>
    match (s.execute fs command frame).1 with
    | .launched pid => Function.update saved pid none
    | _ => saved
  | .systemHalt .. | .exceptionHalt .. => Function.update saved (returnsTo s) none
  | _ => saved

/-- The record after the boot: its third and fourth tick preempted shells 1 and 2. -/
def Saved.boot (s : Kernel) : Saved := fun q =>
  if q = 1 ∨ q = 2 then some ((s.pcb q).savedEsp, (s.pcb q).savedEbp) else none

/-- The operation is no tick. -/
def NoTick (e : Event) : Prop :=
  match e with
  | .tick .. => False
  | _ => True

section Runs

variable {fs : FileSys} {s t : Kernel} {saved : Saved} {e : Event} {es : List Event}

/-- The processes that have their turn in different terminals are different. -/
theorem Running.scheduleArray_ne (h : Running s) {k l : ℕ} (hk : k < 3) (hl : l < 3) (hne : k ≠ l) :
    s.scheduleArray k ≠ s.scheduleArray l := by
  obtain ⟨chain, htop, -, hdisjoint, -⟩ := h.consistent.chains
  intro heq
  have hmem (i : ℕ) (hi : i < 3) : s.scheduleArray i ∈ chain i :=
    List.mem_of_mem_head? (htop i hi).1
  exact hdisjoint k hk l hl hne _ (hmem k hk) (heq ▸ hmem l hl)

/-- What an operation other than a tick leaves: the turn, the processes of the other
terminals, and the saved registers.  Only the process that runs afterwards can have been
started or returned to. -/
structure LeavesOthers (s t : Kernel) (saved saved' : Saved) : Prop where
  scheduleIdx : t.scheduleIdx = s.scheduleIdx
  scheduleArray : ∀ k, k ≠ s.scheduleIdx → t.scheduleArray k = s.scheduleArray k
  sameSaved : s.SameSaved t
  record : ∀ q, q ≠ t.processNum → saved' q = saved q

theorem leavesOthers_of_book (hbook : t.book = s.book) (hsaved : s.SameSaved t) :
    LeavesOthers s t saved saved :=
  ⟨congrArg Book.scheduleIdx hbook, fun k _ => congrFun (congrArg Book.scheduleArray hbook) k,
    hsaved, fun _ _ => rfl⟩

/-- A halt leads to the parent, or to the base shell itself. -/
theorem Running.leavesOthers_halt (hrun : Running s) (status : ℤ) (frame : Frame) :
    LeavesOthers s (s.halt status frame) saved (Function.update saved (returnsTo s) none) := by
  have hsaved := s.sameSaved_halt status frame
  cases hbase : (s.pcb s.processNum).isBaseShell with
  | false =>
    have hbook := Kernel.halt_book_of_not_baseShell s status frame hbase
    refine ⟨congrArg Book.scheduleIdx hbook, fun k hk => ?_, hsaved, fun q hq => ?_⟩
    · have harray := congrFun (congrArg Book.scheduleArray hbook) k
      rw [← hrun.consistent.terminalNum] at hk
      exact harray.trans (Function.update_of_ne hk _ _)
    · rw [(s.halt_frame status frame hbase).1] at hq
      rw [returnsTo, if_pos hbase]
      exact Function.update_of_ne hq _ _
  | true =>
    obtain ⟨hpit, m, hm⟩ := hrun
    have hbook := hm.halt_book hpit status frame hbase
    refine ⟨congrArg Book.scheduleIdx hbook,
      fun k _ => congrFun (congrArg Book.scheduleArray hbook) k, hsaved, fun q hq => ?_⟩
    have hnum : (s.halt status frame).processNum = s.processNum := congrArg Book.processNum hbook
    rw [hnum] at hq
    rw [returnsTo, if_neg (by simp [hbase])]
    exact Function.update_of_ne hq _ _

/-- A process that is started runs in place of the one that started it. -/
theorem Running.leavesOthers_launches (hrun : Running s) {command : CString} {frame : Frame}
    {pid : ℤ} (hlaunch : s.Launches fs command frame pid) :
    LeavesOthers s (s.execute fs command frame).2 saved (Function.update saved pid none) := by
  obtain ⟨isShellFlag, hstarted⟩ := hlaunch.pcbStarted
  have hterminal := hrun.consistent.terminalNum
  have hpit : 3 ≤ s.pitCount := by
    have := hrun.1
    omega
  obtain ⟨-, m, hm⟩ := hrun
  have hbook := hm.launches_book hpit hlaunch
  rw [hterminal] at hbook
  refine ⟨congrArg Book.scheduleIdx hbook, fun k hk => ?_, hstarted.sameSaved, fun q hq => ?_⟩
  · have harray := congrFun (congrArg Book.scheduleArray hbook) k
    exact harray.trans (Function.update_of_ne hk _ _)
  · have hnum : (s.execute fs command frame).2.processNum = pid := congrArg Book.processNum hbook
    rw [hnum] at hq
    exact Function.update_of_ne hq _ _

/-- The process that a call of `execute` starts runs. -/
theorem Kernel.Launches.processNum {command : CString} {frame : Frame} {pid : ℤ}
    (h : s.Launches fs command frame pid) : (s.execute fs command frame).2.processNum = pid :=
  congrArg Book.processNum (Kernel.Launches.book fs s h)

/-- **An operation other than a tick.** -/
theorem Step.leavesOthers (hrun : Running s) (hstep : Step fs s e t) (htick : NoTick e) :
    LeavesOthers s t saved (saved.next fs s e) := by
  cases hstep with
  | tick esp ebp frame => exact htick.elim
  | execute _ command frame =>
    rcases s.execute_cases fs command frame hrun.processNum_bounds.2 with ⟨pid, hlaunch⟩ | hstop
    · have hnext : saved.next fs s (.execute command frame) = Function.update saved pid none := by
        simp only [Saved.next, hlaunch.result]
      rw [hnext]
      exact hrun.leavesOthers_launches hlaunch
    · have hnext : saved.next fs s (.execute command frame) = saved := by
        simp only [Saved.next]
        split
        · next pid heq => exact absurd heq (hstop.1 pid)
        · rfl
      rw [hnext]
      exact leavesOthers_of_book hstop.book (Kernel.sameSaved_of_pcb_eq hstop.2.pcb)
  | systemHalt _ status frame => exact hrun.leavesOthers_halt _ frame
  | exceptionHalt _ status frame => exact hrun.leavesOthers_halt _ frame
  | getargs _ buf nbytes =>
    refine leavesOthers_of_book (s.getargs_book buf nbytes) ?_
    obtain ⟨stored, console, flag, hframe⟩ := s.getargs_frame buf nbytes
    rw [hframe]
    exact Kernel.sameSaved_of_pcb_eq rfl
  | openCall _ filename junk =>
    exact leavesOthers_of_book (s.openCall_book fs filename junk)
      (Kernel.reopens_openCall fs s filename junk).sameSaved
  | close _ fd => exact leavesOthers_of_book (s.close_book fd) (s.reopens_close fd).sameSaved
  | vidmap _ screenStart =>
    refine leavesOthers_of_book (s.vidmap_book screenStart) ?_
    obtain ⟨dir, table, flag, hframe, -⟩ := s.vidmap_frame screenStart
    rw [hframe]
    exact Kernel.sameSaved_of_pcb_eq rfl
  | switchTerminals next =>
    exact leavesOthers_of_book rfl (Kernel.sameSaved_of_pcb_eq rfl)

/-- **The halt** of a process leaves alone the PCBs of all that neither run before nor after. -/
theorem Running.halt_pcb_of_ne (hrun : Running s) (status : ℤ) (frame : Frame) {q : ℤ}
    (hq : q ≠ s.processNum) (hq' : q ≠ (s.halt status frame).processNum) :
    (s.halt status frame).pcb q = s.pcb q := by
  have hsched : q ≠ s.scheduledPid := by rwa [hrun.consistent.scheduledPid]
  cases hbase : (s.pcb s.processNum).isBaseShell with
  | false => exact s.halt_pcb_of_ne status frame hbase hq hsched hq'
  | true =>
    obtain ⟨u, -, hspares, hstarted⟩ := s.restart_pcbStarted status frame hbase
    rw [hstarted.others q (by rwa [hrun.pid_processNum.1]), hspares q hq hsched]

/-- **An operation other than a tick** leaves alone the PCBs of all that neither run before nor
after. -/
theorem Step.pcb_of_ne (hrun : Running s) (hstep : Step fs s e t) (htick : NoTick e) {q : ℤ}
    (hq : q ≠ s.processNum) (hq' : q ≠ t.processNum) : t.pcb q = s.pcb q := by
  have hsched : q ≠ s.scheduledPid := by rwa [hrun.consistent.scheduledPid]
  cases hstep with
  | tick esp ebp frame => exact htick.elim
  | execute _ command frame =>
    rcases s.execute_cases fs command frame hrun.processNum_bounds.2 with ⟨pid, hlaunch⟩ | hstop
    · obtain ⟨isShellFlag, hstarted⟩ := hlaunch.pcbStarted
      exact hstarted.others q (by rwa [hlaunch.processNum] at hq')
    · rw [hstop.2.pcb]
  | systemHalt _ status frame => exact hrun.halt_pcb_of_ne _ frame hq hq'
  | exceptionHalt _ status frame => exact hrun.halt_pcb_of_ne _ frame hq hq'
  | getargs _ buf nbytes =>
    obtain ⟨stored, console, flag, hframe⟩ := s.getargs_frame buf nbytes
    rw [hframe]
  | openCall _ filename junk => exact Kernel.spares_openCall fs s filename junk q hq hsched
  | close _ fd => exact s.spares_close fd q hq hsched
  | vidmap _ screenStart =>
    obtain ⟨dir, table, flag, hframe, -⟩ := s.vidmap_frame screenStart
    rw [hframe]
  | switchTerminals next => rfl

/-! ### The processes of the other terminals -/

/-- The process of each terminal that does not have its turn has been preempted, and its PCB holds
the registers it was preempted with. -/
def Preempted (s : Kernel) (saved : Saved) : Prop :=
  ∀ k < 3, k ≠ s.scheduleIdx → saved (s.scheduleArray k)
    = some ((s.pcb (s.scheduleArray k)).savedEsp, (s.pcb (s.scheduleArray k)).savedEbp)

/-- **An operation other than a tick** leaves the other terminals alone. -/
theorem Preempted.leavesOthers {saved' : Saved} (h : Preempted s saved)
    (hleaves : LeavesOthers s t saved saved') (hrun : Running t) : Preempted t saved' := by
  intro k hk hne
  have hidx := hrun.consistent.scheduleIdx
  have hother : t.scheduleArray k ≠ t.processNum := by
    rw [hrun.consistent.processNum]
    exact hrun.scheduleArray_ne hk hidx hne
  rw [hleaves.record _ hother]
  rw [hleaves.scheduleIdx] at hne
  rw [hleaves.scheduleArray k hne, h k hk hne]
  obtain ⟨hesp, hebp⟩ := hleaves.sameSaved (s.scheduleArray k)
  rw [hesp, hebp]

/-- The next terminal. -/
def nextIdx (idx : ℕ) : ℕ := if idx < 2 then idx + 1 else 0

theorem nextIdx_lt (idx : ℕ) : nextIdx idx < 3 := by
  unfold nextIdx
  split_ifs <;> omega

theorem nextIdx_ne {idx : ℕ} : nextIdx idx ≠ idx := by
  unfold nextIdx
  split_ifs <;> omega

/-- Three turns. -/
theorem nextIdx_perm {idx : ℕ} (h : idx < 3) :
    [nextIdx idx, nextIdx (nextIdx idx), nextIdx (nextIdx (nextIdx idx))].Perm [0, 1, 2] := by
  obtain rfl | rfl | rfl : idx = 0 ∨ idx = 1 ∨ idx = 2 := by omega
  · decide
  · decide
  · decide

/-- The kernel after a tick that interrupts a process with `esp` and `ebp`. -/
def Kernel.tick (fs : FileSys) (s : Kernel) (esp ebp : ℕ) (frame : Frame) : Kernel :=
  (s.withRegisters esp ebp).scheduler fs frame

section Tick

variable (fs) (esp ebp : ℕ) (frame : Frame)

/-- Whose turn it is after a tick, and what it loads. -/
theorem Running.tick_turn (hrun : Running s) :
    (s.tick fs esp ebp frame).scheduleIdx = nextIdx s.scheduleIdx ∧
      (s.tick fs esp ebp frame).scheduleArray = s.scheduleArray ∧
      (s.tick fs esp ebp frame).processNum = s.scheduleArray (nextIdx s.scheduleIdx) ∧
      (s.tick fs esp ebp frame).esp
        = ((s.tick fs esp ebp frame).pcb (s.tick fs esp ebp frame).processNum).savedEsp ∧
      (s.tick fs esp ebp frame).ebp
        = ((s.tick fs esp ebp frame).pcb (s.tick fs esp ebp frame).processNum).savedEbp := by
  unfold Kernel.tick
  rw [Kernel.scheduler_eq fs (s.withRegisters esp ebp) frame hrun.1]
  exact ⟨rfl, rfl, rfl, rfl, rfl⟩

/-- What it saves. -/
theorem Running.tick_pcb (hrun : Running s) (q : ℤ) : (s.tick fs esp ebp frame).pcb q =
    if q = s.processNum then { s.pcb q with savedEsp := esp, savedEbp := ebp } else s.pcb q :=
  Kernel.scheduler_pcb fs (s.withRegisters esp ebp) frame hrun.1 q

/-- **A tick** preempts the process that runs. -/
theorem Preempted.tick (h : Preempted s saved) (hrun : Running s) :
    Preempted (s.tick fs esp ebp frame) (Function.update saved s.processNum (some (esp, ebp))) := by
  obtain ⟨hturn, harray, -⟩ := hrun.tick_turn fs esp ebp frame
  have hidx := hrun.consistent.scheduleIdx
  intro k hk hne
  rw [harray, hrun.tick_pcb]
  by_cases hkidx : k = s.scheduleIdx
  · rw [hkidx, ← hrun.consistent.processNum, Function.update_self, if_pos rfl]
  · have hother : s.scheduleArray k ≠ s.processNum := by
      rw [hrun.consistent.processNum]
      exact hrun.scheduleArray_ne hk hidx hkidx
    rw [Function.update_of_ne hother, if_neg hother]
    exact h k hk hkidx

/-- **A tick** loads the registers with which its process was preempted. -/
theorem Preempted.resumed (h : Preempted s saved) (hrun : Running s) :
    saved (s.tick fs esp ebp frame).processNum
      = some ((s.tick fs esp ebp frame).esp, (s.tick fs esp ebp frame).ebp) := by
  obtain ⟨-, -, hnum, hesp, hebp⟩ := hrun.tick_turn fs esp ebp frame
  have hidx := hrun.consistent.scheduleIdx
  have hother : s.scheduleArray (nextIdx s.scheduleIdx) ≠ s.processNum := by
    rw [hrun.consistent.processNum]
    exact hrun.scheduleArray_ne (nextIdx_lt _) hidx nextIdx_ne
  rw [hesp, hebp, hnum, hrun.tick_pcb, if_neg hother]
  exact h _ (nextIdx_lt _) nextIdx_ne

end Tick

/-- Once after the boot. -/
theorem Booted.preempted (h : Booted s) : Preempted s (.boot s) := by
  intro k hk hne
  rw [h.scheduleIdx] at hne
  rw [h.scheduleArray k hk, Saved.boot, if_pos (by omega)]

/-- **One step.** -/
theorem Preempted.step (h : Preempted s saved) (hrun : Running s) (hstep : Step fs s e t) :
    Preempted t (saved.next fs s e) := by
  have hrun' := hrun.step hstep
  cases e with
  | tick esp ebp frame =>
    cases hstep
    exact h.tick fs esp ebp frame hrun
  | _ => exact h.leavesOthers (hstep.leavesOthers hrun trivial) hrun'

/-! ### Runs -/

/-- Runs without a tick. -/
def TickFree (fs : FileSys) (s t : Kernel) : Prop :=
  ∃ es, Run (Guarded (fun _ e => NoTick e) (Step fs)) s es t

theorem TickFree.scheduleIdx (hrun : Running s) (h : TickFree fs s t) :
    Running t ∧ t.scheduleIdx = s.scheduleIdx := by
  obtain ⟨es, hr⟩ := h
  exact hr.invariant (I := fun u => Running u ∧ u.scheduleIdx = s.scheduleIdx)
    (fun u e v hu hstep => by
      have hleaves : LeavesOthers u v (.boot u) (.next fs u (.boot u) e) :=
        hstep.2.leavesOthers hu.1 hstep.1
      exact ⟨hu.1.step hstep.2, hleaves.scheduleIdx.trans hu.2⟩)
    ⟨hrun, rfl⟩

/-- The process of terminal `k` has its place in the schedule, and its PCB up to the saved
registers; the same lines are masked. -/
structure KeepsPlace (k : ℕ) (s t : Kernel) : Prop where
  scheduleArray : t.scheduleArray k = s.scheduleArray k
  pcb : (t.pcb (s.scheduleArray k)).unsaved = (s.pcb (s.scheduleArray k)).unsaved
  masks : s.SameMasks t

theorem KeepsPlace.trans {k : ℕ} {u : Kernel} (h : KeepsPlace k s t) (h' : KeepsPlace k t u) :
    KeepsPlace k s u := by
  refine ⟨h'.scheduleArray.trans h.scheduleArray, ?_, h.masks.trans h'.masks⟩
  rw [← h.pcb, ← h.scheduleArray, h'.pcb]

/-- **A tick** saves registers, and nothing else in a PCB. -/
theorem Running.keepsPlace_tick (hrun : Running s) (k : ℕ) (esp ebp : ℕ) (frame : Frame) :
    KeepsPlace k s (s.tick fs esp ebp frame) := by
  refine ⟨congrFun (hrun.tick_turn fs esp ebp frame).2.1 k, ?_, ?_⟩
  · rw [hrun.tick_pcb]
    split_ifs <;> rfl
  · exact (s.withRegisters esp ebp).sameMasks_scheduler fs frame

/-- **What runs between two ticks** leaves the processes of the other terminals their places. -/
theorem TickFree.keepsPlace (hrun : Running s) (h : TickFree fs s t) {k : ℕ} (hk : k < 3)
    (hne : k ≠ s.scheduleIdx) : KeepsPlace k s t := by
  obtain ⟨es, hr⟩ := h
  have hinv : Running t ∧ t.scheduleIdx = s.scheduleIdx ∧ KeepsPlace k s t := by
    refine hr.invariant
      (I := fun u => Running u ∧ u.scheduleIdx = s.scheduleIdx ∧ KeepsPlace k s u) ?_
      ⟨hrun, rfl, rfl, rfl, rfl, rfl⟩
    rintro u e v ⟨hu, hidx, hplace⟩ ⟨htick, hstep⟩
    have hv := hu.step hstep
    have hleaves : LeavesOthers u v (.boot u) (.next fs u (.boot u) e) :=
      hstep.leavesOthers hu htick
    rw [← hidx] at hne
    have harray := hleaves.scheduleArray k hne
    refine ⟨hv, hleaves.scheduleIdx.trans hidx, hplace.trans ⟨harray, ?_, hstep.sameMasks⟩⟩
    have hbefore : u.scheduleArray k ≠ u.processNum := by
      rw [hu.consistent.processNum]
      exact hu.scheduleArray_ne hk hu.consistent.scheduleIdx hne
    have hafter : u.scheduleArray k ≠ v.processNum := by
      rw [hv.consistent.processNum, ← harray]
      exact hv.scheduleArray_ne hk hv.consistent.scheduleIdx (hleaves.scheduleIdx ▸ hne)
    rw [hstep.pcb_of_ne hu htick hbefore hafter]
  exact hinv.2.2

theorem nextIdx_three {idx : ℕ} (h : idx < 3) : nextIdx (nextIdx (nextIdx idx)) = idx := by
  unfold nextIdx
  split_ifs <;> omega

theorem ne_nextIdx_nextIdx {idx : ℕ} (h : idx < 3) : idx ≠ nextIdx (nextIdx idx) := by
  unfold nextIdx
  split_ifs <;> omega

/-- **A turn of the other terminals is an interrupt:** three ticks, with any operations of the
processes that run between them, bring the process that was preempted back to its place with its
PCB, up to the saved registers. -/
theorem Running.interrupted (hrun : Running s) {u v : Kernel} {esp ebp esp' ebp' esp'' ebp'' : ℕ}
    {frame frame' frame'' : Frame} (hu : TickFree fs (s.tick fs esp ebp frame) u)
    (hv : TickFree fs (u.tick fs esp' ebp' frame') v) :
    s.Interrupted (v.tick fs esp'' ebp'' frame'') := by
  have hafter {w : Kernel} (hw : Running w) (esp ebp : ℕ) (frame : Frame) :
      Running (w.tick fs esp ebp frame) := hw.step (.tick w esp ebp frame)
  have hidx := hrun.consistent.scheduleIdx
  have htick := hafter hrun esp ebp frame
  obtain ⟨hrunu, hidxu⟩ := hu.scheduleIdx htick
  have hticku := hafter hrunu esp' ebp' frame'
  obtain ⟨hrunv, hidxv⟩ := hv.scheduleIdx hticku
  have htickv := hafter hrunv esp'' ebp'' frame''
  have hturn := (hrun.tick_turn fs esp ebp frame).1
  have hturnu := (hrunu.tick_turn fs esp' ebp' frame').1
  have hturnv := (hrunv.tick_turn fs esp'' ebp'' frame'').1
  -- the other two terminals have their turns, and then the first again
  have hsecond : KeepsPlace s.scheduleIdx s u :=
    (hrun.keepsPlace_tick _ esp ebp frame).trans
      (hu.keepsPlace htick hidx (by rw [hturn]; exact nextIdx_ne.symm))
  have hthird : KeepsPlace s.scheduleIdx u v := by
    refine (hrunu.keepsPlace_tick _ esp' ebp' frame').trans (hv.keepsPlace hticku hidx ?_)
    rw [hturnu, hidxu, hturn]
    exact ne_nextIdx_nextIdx hidx
  have hplace : KeepsPlace s.scheduleIdx s (v.tick fs esp'' ebp'' frame'') :=
    (hsecond.trans hthird).trans (hrunv.keepsPlace_tick _ esp'' ebp'' frame'')
  have hback : (v.tick fs esp'' ebp'' frame'').scheduleIdx = s.scheduleIdx := by
    rw [hturnv, hidxv, hturnu, hidxu, hturn, nextIdx_three hidx]
  have hnum : (v.tick fs esp'' ebp'' frame'').processNum = s.processNum := by
    rw [htickv.consistent.processNum, hback, hplace.scheduleArray, hrun.consistent.processNum]
  refine ⟨hnum, hback, ?_, ?_, by rw [hplace.masks.1]⟩
  · rw [htickv.consistent.scheduledPid, hnum, hrun.consistent.scheduledPid]
  · rw [hrun.consistent.scheduledPid, hrun.consistent.processNum]
    exact hplace.pcb

/-- **Contexts are neither lost nor swapped:** after every run a tick resumes its process with the
registers with which that was last preempted, and not started or returned to since.  Three ticks,
with other operations between them or none, give each terminal its turn once. -/
theorem resumed_of_run (hboot : Booted s)
    (hr : Run (Recorded (Saved.next fs) (Step fs)) (s, .boot s) es (t, saved)) :
    (∀ esp ebp frame, saved (t.tick fs esp ebp frame).processNum
      = some ((t.tick fs esp ebp frame).esp, (t.tick fs esp ebp frame).ebp)) ∧
    ∀ esp ebp frame esp' ebp' frame' esp'' ebp'' frame'' u v,
      TickFree fs (t.tick fs esp ebp frame) u → TickFree fs (u.tick fs esp' ebp' frame') v →
        [(t.tick fs esp ebp frame).scheduleIdx, (u.tick fs esp' ebp' frame').scheduleIdx,
          (v.tick fs esp'' ebp'' frame'').scheduleIdx].Perm [0, 1, 2] := by
  have hinv : Running t ∧ Preempted t saved :=
    hr.invariant (I := fun p => Running p.1 ∧ Preempted p.1 p.2)
      (fun _ _ _ hp hstep => by
        obtain ⟨hstep, hnext⟩ := hstep
        rw [hnext]
        exact ⟨hp.1.step hstep, hp.2.step hp.1 hstep⟩)
      ⟨hboot.running, hboot.preempted⟩
  obtain ⟨hrun, hpre⟩ := hinv
  refine ⟨fun esp ebp frame => hpre.resumed fs esp ebp frame hrun, ?_⟩
  intro esp ebp frame esp' ebp' frame' esp'' ebp'' frame'' u v hu hv
  have hafter {w : Kernel} (hw : Running w) (esp ebp : ℕ) (frame : Frame) :
      Running (w.tick fs esp ebp frame) := hw.step (.tick w esp ebp frame)
  obtain ⟨hrunu, hidxu⟩ := hu.scheduleIdx (hafter hrun esp ebp frame)
  obtain ⟨hrunv, hidxv⟩ := hv.scheduleIdx (hafter hrunu esp' ebp' frame')
  rw [(hrun.tick_turn fs esp ebp frame).1] at hidxu ⊢
  rw [(hrunu.tick_turn fs esp' ebp' frame').1, hidxu] at hidxv ⊢
  rw [(hrunv.tick_turn fs esp'' ebp'' frame'').1, hidxv]
  exact nextIdx_perm hrun.consistent.scheduleIdx

/-- The kernel when the first shell has been preempted with 8 and 16. -/
def firstPreempted : Kernel := bootedKernel.tick default 8 16 zeroFrame

/-- Contexts are not lost from there on. -/
theorem resumed_firstPreempted :
    (∀ esp ebp frame, Saved.next default bootedKernel (.boot bootedKernel) (.tick 8 16 zeroFrame)
        (firstPreempted.tick default esp ebp frame).processNum
      = some ((firstPreempted.tick default esp ebp frame).esp,
        (firstPreempted.tick default esp ebp frame).ebp)) ∧
    ∀ esp ebp frame esp' ebp' frame' esp'' ebp'' frame'' u v,
      TickFree default (firstPreempted.tick default esp ebp frame) u →
      TickFree default (u.tick default esp' ebp' frame') v →
        [(firstPreempted.tick default esp ebp frame).scheduleIdx,
          (u.tick default esp' ebp' frame').scheduleIdx,
          (v.tick default esp'' ebp'' frame'').scheduleIdx].Perm [0, 1, 2] :=
  resumed_of_run booted_bootedKernel (.single ⟨.tick bootedKernel 8 16 zeroFrame, rfl⟩)

end Runs

end OS391
