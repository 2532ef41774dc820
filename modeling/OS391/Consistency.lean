/-
# Every run keeps the bookkeeping consistent

From the state after boot, after any number of operations in any order, the four records
of who runs where agree (`Consistent`): each terminal has one chain of processes, linked
by `parent_id` from its entry of `schedule_array` down to its base shell, the chains share
no process, and together they are the active PCBs.

The proof is one simulation, `Step.represents`: what the kernel does is answered by a move
of the terminals.  It also covers the boot, as long as nothing starts or ends a process
before the fourth tick and the scheduler's three shells start (`Orderly`).
-/

import OS391.Refinement

namespace OS391

open Lib

/-! ### Power-on and boot -/

/-- A PCB in memory that is zero. -/
structure Pcb.Zeroed (p : Pcb) : Prop where
  pid : p.pid = 0
  parentId : p.parentId = 0
  active : p.active = false
  isShell : p.isShell = false
  isBaseShell : p.isBaseShell = false
  terminalNum : p.terminalNum = 0
  flags : ∀ fd, (p.fileDescriptor fd).flags = false

/-- The kernel before the first tick, with its PCBs still zero. -/
structure PowerOn (s : Kernel) : Prop where
  processNum : s.processNum = -1
  scheduleIdx : s.scheduleIdx = 0
  pitCount : s.pitCount = 0
  pcb : ∀ q, (s.pcb q).Zeroed

/-- The kernel after the fourth tick: the three base shells run, the first has its turn,
and all other PCBs are zero. -/
structure Booted (s : Kernel) : Prop where
  processNum : s.processNum = 0
  scheduleIdx : s.scheduleIdx = 0
  pitCount : s.pitCount = 4
  scheduleArray : ∀ t : ℕ, t < 3 → s.scheduleArray t = (t : ℤ)
  currPid : ∀ t : ℕ, t < 3 → s.currPid t = (t : ℤ)
  shell : ∀ t : ℕ, t < 3 → (s.pcb (t : ℤ)).book =
    { pid := (t : ℤ), parentId := -1, active := true, isBaseShell := true, terminalNum := t }
  fresh : ∀ q, 3 ≤ q → (s.pcb q).Zeroed

/-- A PCB of zeros. -/
def zeroPcb : Pcb := default

/-- The PCB of a base shell after boot. -/
def shellPcb (t : ℕ) : Pcb :=
  { Kernel.openStdio zeroPcb with
    pid := t, parentId := -1, active := true, isShell := true, isBaseShell := true, terminalNum := t }

/-- A kernel after boot. -/
def bootedKernel : Kernel :=
  { (default : Kernel) with
    pitCount := 4
    shellProcessCount := 3
    scheduleArray := fun t => t
    currPid := fun t => t
    pcb := fun q => if 0 ≤ q ∧ q < 3 then shellPcb q.toNat else zeroPcb
    pageDir := fun k => if k = 32 then (userPage 0).val else 0
    tssEsp0 := kernelStack 0 }

theorem zeroed_zeroPcb : zeroPcb.Zeroed :=
  ⟨rfl, rfl, rfl, rfl, rfl, rfl, fun _ => rfl⟩

theorem booted_bootedKernel : Booted bootedKernel where
  processNum := rfl
  scheduleIdx := rfl
  pitCount := rfl
  scheduleArray := fun _ _ => rfl
  currPid := fun _ _ => rfl
  shell := fun t ht => by
    have hif : (0 : ℤ) ≤ t ∧ (t : ℤ) < 3 := by omega
    simp only [bootedKernel, if_pos hif]
    rfl
  fresh := fun q hq => by
    have hif : ¬ (0 ≤ q ∧ q < 3) := by omega
    simp only [bootedKernel, if_neg hif]
    exact zeroed_zeroPcb

namespace Kernel

variable (fs : FileSys) (s : Kernel)

/-- The call of `execute` that one of the first three ticks makes. -/
def bootShell (frame : Frame) : ExecResult × Kernel :=
  if s.pitCount = 0 then
    (s.modifyConsole fun c => c.clear.switchTerminals 0 0).execute fs shellCommand frame
  else s.nextTerminal.execute fs shellCommand frame

theorem scheduler_of_boot (frame : Frame) (h : s.pitCount < 3) :
    s.scheduler fs frame = (s.bootShell fs frame).2 := by
  unfold scheduler bootShell
  split_ifs <;> rfl

end Kernel

/-- A step that the boot allows for: before the fourth tick no process starts another or
ends, and the scheduler's shells start. -/
def Orderly (fs : FileSys) (s : Kernel) (e : Event) : Prop :=
  s.pitCount = 4 ∨
    match e with
    | .tick esp ebp frame => s.pitCount < 3 →
        ∃ pid, ((s.withRegisters esp ebp).bootShell fs frame).1 = .launched pid
    | .execute .. | .systemHalt .. | .exceptionHalt .. => False
    | _ => True

/-! ### The simulation -/

section Simulation

variable {fs : FileSys} {s t : Kernel} {m : Terminals}

/-- **After the boot** the records show three shells. -/
theorem Booted.represents (h : Booted s) : Represents s.book .shells := by
  have hstack : ∀ t < 3, Terminals.shells.stack t = [(t : ℤ)] := fun t ht => if_pos ht
  refine
    { sound := Terminals.sound_shells
      started := by decide
      pitCount := Or.inr ⟨h.pitCount, rfl⟩
      booting := fun hlt => absurd hlt (by simp [Kernel.book, h.pitCount])
      current := h.scheduleIdx
      running := ?_
      scheduled := fun t ht => (h.currPid t ht).trans (h.scheduleArray t ht).symm
      top := fun t ht => ?_
      linked := fun t ht => ?_
      covered := fun q hq hactive => ?_
      idle := fun q hq hidle => ?_
      range := fun t q hq => ?_ }
  · simp [Kernel.book, h.processNum, h.scheduleIdx, h.scheduleArray 0 (by decide)]
  · rw [hstack t ht]
    exact congrArg some (h.scheduleArray t ht).symm
  · rw [hstack t ht]
    exact ⟨rfl, h.shell t ht⟩
  · by_cases hlt : q < 3
    · refine ⟨q.toNat, show q.toNat < 3 by omega, ?_⟩
      rw [hstack _ (by omega), List.mem_singleton]
      omega
    · have := (h.fresh q (by omega)).active
      simp [Kernel.book, Pcb.book, this] at hactive
  · by_cases hlt : q < 3
    · have hshell := h.shell q.toNat (by omega)
      rw [show ((q.toNat : ℕ) : ℤ) = q by omega] at hshell
      have : (s.book.pcb q).active = true := congrArg PcbBook.active hshell
      simp [this] at hidle
    · have hzero := h.fresh q (by omega)
      simp [Kernel.book, Pcb.book, hzero.isBaseShell, hzero.parentId]
  · have hlt : t < 3 := by
      by_contra hle
      rw [Terminals.sound_shells.empty t (show 3 ≤ t by omega)] at hq
      exact absurd hq List.not_mem_nil
    rw [hstack t hlt, List.mem_singleton] at hq
    simp only [maxPcb]
    omega

/-- A call of `execute` that launches a process is a `Launches`. -/
theorem launches_of_eq {command : CString} {frame : Frame} {pid : ℤ}
    (hmax : s.processNum ≤ maxPcb) (h : (s.execute fs command frame).1 = .launched pid) :
    s.Launches fs command frame pid := by
  rcases s.execute_cases fs command frame hmax with ⟨pid', hlaunch⟩ | hstop
  · obtain ⟨u, entryPoint, isShellFlag, hparsed, hfirst, heq⟩ := hlaunch
    rw [heq] at h
    obtain rfl : pid' = pid := ExecResult.launched.inj h
    exact ⟨u, entryPoint, isShellFlag, hparsed, hfirst, heq⟩
  · exact absurd h (hstop.1 pid)

/-- **The first tick** starts the shell of the first terminal. -/
theorem PowerOn.represents (h : PowerOn s) {frame : Frame} {pid : ℤ}
    (hpid : (s.bootShell fs frame).1 = .launched pid) :
    Represents (s.bootShell fs frame).2.book
      { started := 1, current := 0, stack := push Terminals.off.stack 0 0 } := by
  have hnot : ∀ t, (0 : ℤ) ∉ Terminals.off.stack t := fun _ => List.not_mem_nil
  have hzero : ∀ q, (s.book.pcb q).active = false ∧ (s.book.pcb q).isBaseShell = false ∧
      (s.book.pcb q).parentId = 0 := fun q =>
    ⟨(h.pcb q).active, (h.pcb q).isBaseShell, (h.pcb q).parentId⟩
  rw [Kernel.bootShell, if_pos h.pitCount] at hpid ⊢
  have hlaunch := launches_of_eq (by simp [Kernel.modifyConsole, h.processNum, maxPcb]) hpid
  obtain ⟨habove, -, -, hfirst⟩ := hlaunch.firstFree
  have hpid : pid = 0 := by
    have hgt : -1 < pid := h.processNum ▸ habove
    by_contra hne
    have hactive := hfirst 0 (by simp [Kernel.modifyConsole, h.processNum]) (by omega)
    simp [Kernel.modifyConsole, (h.pcb 0).active] at hactive
  subst hpid
  rw [Kernel.Launches.book fs _ hlaunch, Kernel.modifyConsole_book,
    Book.launch_eq_of_boot (by simp [Kernel.book, h.pitCount])]
  have hpcb : ∀ q ≠ (0 : ℤ), Function.update s.book.pcb 0
      { pid := 0, parentId := -1, active := true, isBaseShell := true
        terminalNum := s.book.pitCount } q = s.book.pcb q := fun q hq => Function.update_of_ne hq _ _
  have hpit : s.book.pitCount = 0 := h.pitCount
  refine
    { sound := Terminals.sound_off.move (.boot (by decide) hnot)
      started := by decide
      pitCount := Or.inl (by simp [hpit])
      booting := fun _ => ⟨rfl, fun t ht => ?_⟩
      current := h.scheduleIdx
      running := by simp [Kernel.book, h.pitCount, h.scheduleIdx]
      scheduled := fun t ht => ?_
      top := fun t ht => ?_
      linked := fun t ht => ?_
      covered := fun q hq hactive => ?_
      idle := fun q hq hidle => ?_
      range := fun t q hq => ?_ }
  all_goals dsimp only at *
  · obtain rfl : t = 0 := by omega
    rfl
  · obtain rfl : t = 0 := by omega
    simp [hpit]
  · obtain rfl : t = 0 := by omega
    simp [hpit]
  · obtain rfl : t = 0 := by omega
    exact ⟨rfl, by simp [hpit]⟩
  · by_cases hq0 : q = 0
    · exact ⟨0, by omega, by simp [hq0]⟩
    · rw [hpcb q hq0, (hzero q).1] at hactive
      exact absurd hactive Bool.false_ne_true
  · by_cases hq0 : q = 0
    · simp [hq0] at hidle
    · rw [hpcb q hq0, (hzero q).2.1, (hzero q).2.2]
      exact ⟨rfl, by omega⟩
  · rcases mem_push hq with ⟨-, rfl⟩ | hmem
    · exact ⟨by omega, by decide⟩
    · exact absurd hmem List.not_mem_nil

/-- **A process started after boot,** in the bookkeeping. -/
theorem Represents.launches_book (h : Represents s.book m) (hpit : 3 ≤ s.pitCount)
    {command : CString} {frame : Frame} {pid : ℤ} (hlaunch : s.Launches fs command frame pid) :
    (s.execute fs command frame).2.book =
      { processNum := pid
        scheduleIdx := s.scheduleIdx
        pitCount := s.pitCount
        pcb := Function.update s.book.pcb pid
          { pid := pid, parentId := s.processNum, active := true, isBaseShell := false
            terminalNum := (s.pcb s.processNum).terminalNum }
        scheduleArray := Function.update s.scheduleArray (s.pcb s.processNum).terminalNum pid
        currPid := Function.update s.currPid (s.pcb s.processNum).terminalNum pid } := by
  have habove : s.book.processNum < pid := hlaunch.firstFree.above
  have hpos := h.running_eq.2.2.1
  obtain ⟨hbase, hparent⟩ := h.idle pid (by omega) hlaunch.firstFree.free
  rw [Kernel.Launches.book fs s hlaunch, Book.launch_eq hpit hbase hparent (by omega)]
  rfl

/-- **The second and third tick** start the shell of the next terminal. -/
theorem Represents.bootShell (h : Represents s.book m) (hpit : s.pitCount < 3) {frame : Frame}
    {pid : ℤ} (hpid : (s.bootShell fs frame).1 = .launched pid) :
    Represents (s.bootShell fs frame).2.book
      { started := m.started + 1, current := m.started
        stack := push m.stack m.started m.started } := by
  have hpos : s.pitCount ≠ 0 := by
    have := h.started
    rcases h.pitCount with hp | hp <;> simp only [Kernel.book] at hp <;> omega
  obtain ⟨hcur, hstacks⟩ := h.booting (show s.pitCount < 4 by omega)
  have hbook := s.nextTerminal_book
  rw [Book.nextTerminal, Book.modifyPcb_eq_self (by
    rw [← (h.of_mem h.processNum_mem).2.2.1])] at hbook
  have hnext : s.nextTerminal.processNum = m.current := by
    have hmem := h.processNum_mem
    rw [hstacks _ (by omega), List.mem_singleton] at hmem
    exact (congrArg Book.processNum hbook).trans hmem
  have hactive (q : ℤ) : (s.nextTerminal.pcb q).active = (s.book.pcb q).active :=
    congrArg (fun b : Book => (b.pcb q).active) hbook
  have hmax : s.nextTerminal.processNum ≤ maxPcb := by
    have := h.sound.started_le
    simp only [hnext, maxPcb]
    omega
  rw [Kernel.bootShell, if_neg hpos] at hpid ⊢
  have hlaunch := launches_of_eq hmax hpid
  obtain ⟨habove, -, -, hfirst⟩ := hlaunch.firstFree
  have hpid : pid = m.started := by
    by_contra hne
    have hused := hfirst m.started (by omega) (by omega)
    rw [hactive] at hused
    obtain ⟨t, ht, hmem⟩ := h.covered m.started (by omega) hused
    rw [hstacks t ht, List.mem_singleton] at hmem
    omega
  rw [Kernel.Launches.book fs _ hlaunch, Kernel.nextTerminal_book, hpid]
  exact h.boot hpit

/-- **The halt of a base shell** is nothing to the bookkeeping. -/
theorem Represents.halt_book (h : Represents s.book m) (hpit : s.pitCount = 4) (status : ℤ)
    (frame : Frame) (hbase : (s.pcb s.processNum).isBaseShell = true) :
    (s.halt status frame).book = s.book := by
  rw [Kernel.halt_book_of_baseShell s status frame hbase]
  exact h.restart hpit hbase

/-- **A halt** is a pop, or nothing. -/
theorem Represents.haltStep (h : Represents s.book m) (hpit : s.pitCount = 4) (status : ℤ)
    (frame : Frame) :
    ∃ m', Represents (s.halt status frame).book m' ∧ Relation.ReflTransGen Terminals.Move m m' := by
  by_cases hbase : (s.pcb s.processNum).isBaseShell = false
  · obtain ⟨hlen, hrep⟩ := h.halt hpit hbase
    rw [Kernel.halt_book_of_not_baseShell s status frame hbase]
    exact ⟨_, hrep, .single (.finish hlen)⟩
  · have hbase' : (s.pcb s.processNum).isBaseShell = true := by simpa using hbase
    rw [h.halt_book hpit status frame hbase']
    exact ⟨m, h, .refl⟩

/-- **A step of the kernel is answered by the terminals:** with a move or, when it
neither starts, ends nor switches a process, with none. -/
theorem Step.represents {e : Event} (h : Represents s.book m) (hstep : Step fs s e t)
    (horderly : Orderly fs s e) :
    ∃ m', Represents t.book m' ∧ Relation.ReflTransGen Terminals.Move m m' := by
  cases hstep with
  | tick esp ebp frame =>
    by_cases hpit : s.pitCount < 3
    · obtain ⟨pid, hpid⟩ := horderly.resolve_left (by omega) hpit
      rw [Kernel.scheduler_of_boot fs (s.withRegisters esp ebp) frame hpit]
      have hfresh : ∀ t, (m.started : ℤ) ∉ m.stack t := fun t ht => by
        have hlt := (h.of_mem ht).1
        rw [(h.booting (show s.pitCount < 4 by omega)).2 t hlt, List.mem_singleton] at ht
        omega
      have hstarted : m.started < 3 := by
        rcases h.pitCount with hp | hp <;> simp only [Kernel.book] at hp <;> omega
      exact ⟨_, Represents.bootShell (s := s.withRegisters esp ebp) h hpit hpid,
        .single (.boot hstarted hfresh)⟩
    · have hrotate := h.rotate (show 3 ≤ s.pitCount by omega)
      refine ⟨_, ?_, .single (.rotate hrotate.1)⟩
      rw [Kernel.scheduler_book fs (s.withRegisters esp ebp) frame (show 3 ≤ s.pitCount by omega)]
      exact hrotate.2
  | execute hrun command frame =>
    have hpit : s.pitCount = 4 := horderly.resolve_right id
    rcases s.execute_cases fs command frame h.running_eq.2.2.2 with ⟨pid, hlaunch⟩ | hstop
    · have hfirst := hlaunch.firstFree
      rw [Kernel.Launches.book fs s hlaunch]
      exact ⟨_, h.launch hpit hfirst.above hfirst.le_max hfirst.free,
        .single (.start h.started pid (h.not_mem_of_free hfirst.free))⟩
    · rw [Kernel.Stops.book fs s hstop]
      exact ⟨m, h, .refl⟩
  | systemHalt hrun status frame => exact h.haltStep (horderly.resolve_right id) _ frame
  | exceptionHalt hrun status frame => exact h.haltStep (horderly.resolve_right id) _ frame
  | getargs hrun buf nbytes => exact ⟨m, by rwa [Kernel.getargs_book], .refl⟩
  | openCall hrun filename junk => exact ⟨m, by rwa [Kernel.openCall_book], .refl⟩
  | close hrun fd => exact ⟨m, by rwa [Kernel.close_book], .refl⟩
  | vidmap hrun screenStart => exact ⟨m, by rwa [Kernel.vidmap_book], .refl⟩
  | switchTerminals next => exact ⟨m, by rwa [Kernel.modifyConsole_book], .refl⟩

/-- The boot stays over. -/
theorem Step.pitCount_eq {e : Event} (h : Represents s.book m) (hstep : Step fs s e t)
    (hpit : s.pitCount = 4) : t.pitCount = 4 := by
  have hhalt (status : ℤ) (frame : Frame) : (s.halt status frame).book.pitCount = 4 := by
    by_cases hbase : (s.pcb s.processNum).isBaseShell = false
    · rw [Kernel.halt_book_of_not_baseShell s status frame hbase]
      exact hpit
    · have hbase' : (s.pcb s.processNum).isBaseShell = true := by simpa using hbase
      rw [h.halt_book hpit status frame hbase']
      exact hpit
  cases hstep with
  | tick esp ebp frame =>
    have hbook := Kernel.scheduler_book fs (s.withRegisters esp ebp) frame
      (show 3 ≤ s.pitCount by omega)
    have hfinish : s.book.finishBoot = s.book := if_neg (by simp [Kernel.book, hpit])
    rw [Kernel.withRegisters_book, hfinish] at hbook
    exact (congrArg Book.pitCount hbook).trans hpit
  | execute hrun command frame =>
    rcases s.execute_cases fs command frame h.running_eq.2.2.2 with ⟨pid, hlaunch⟩ | hstop
    · have hbook := h.launches_book (by omega) hlaunch
      exact (congrArg Book.pitCount hbook).trans hpit
    · exact hstop.2.pitCount.trans hpit
  | systemHalt hrun status frame => exact hhalt _ frame
  | exceptionHalt hrun status frame => exact hhalt _ frame
  | getargs hrun buf nbytes =>
    exact (congrArg Book.pitCount (s.getargs_book buf nbytes)).trans hpit
  | openCall hrun filename junk =>
    exact (congrArg Book.pitCount (s.openCall_book fs filename junk)).trans hpit
  | close hrun fd => exact (congrArg Book.pitCount (s.close_book fd)).trans hpit
  | vidmap hrun screenStart => exact (congrArg Book.pitCount (s.vidmap_book screenStart)).trans hpit
  | switchTerminals next => exact hpit

end Simulation

/-! ### Runs from power-on -/

/-- The kernel before the first tick, or with the records of some terminals. -/
def Started (s : Kernel) : Prop := PowerOn s ∨ ∃ m, Represents s.book m

section Started

variable {fs : FileSys} {s t : Kernel} {e : Event}

theorem Started.processNum_le (h : Started s) : s.processNum ≤ maxPcb := by
  rcases h with hoff | ⟨m, hm⟩
  · rw [hoff.processNum]
    decide
  · exact hm.running_eq.2.2.2

/-- Once a process runs there are terminals. -/
theorem Started.represents (h : Started s) (hrun : 0 ≤ s.processNum) :
    ∃ m, Represents s.book m := by
  rcases h with hoff | hm
  · rw [hoff.processNum] at hrun
    exact absurd hrun (by decide)
  · exact hm

/-- **An orderly step** leads from power-on to the first terminal, and on from there. -/
theorem Started.step (h : Started s) (hstep : Step fs s e t) (horderly : Orderly fs s e) :
    Started t := by
  rcases h with hoff | ⟨m, hm⟩
  · have hpit : s.pitCount ≠ 4 := by
      rw [hoff.pitCount]
      decide
    have hidle : ¬ 0 ≤ s.processNum := by
      rw [hoff.processNum]
      decide
    cases hstep with
    | tick esp ebp frame =>
      have hlt : s.pitCount < 3 := by
        rw [hoff.pitCount]
        decide
      obtain ⟨pid, hpid⟩ := horderly.resolve_left hpit hlt
      have hoff' : PowerOn (s.withRegisters esp ebp) :=
        ⟨hoff.processNum, hoff.scheduleIdx, hoff.pitCount, hoff.pcb⟩
      rw [Kernel.scheduler_of_boot fs (s.withRegisters esp ebp) frame hlt]
      exact Or.inr ⟨_, hoff'.represents hpid⟩
    | switchTerminals next =>
      exact Or.inl ⟨hoff.processNum, hoff.scheduleIdx, hoff.pitCount, hoff.pcb⟩
    | execute hrun | systemHalt hrun | exceptionHalt hrun | getargs hrun | openCall hrun
    | close hrun | vidmap hrun => exact absurd hrun hidle
  · obtain ⟨m', hm', -⟩ := hstep.represents hm horderly
    exact Or.inr ⟨m', hm'⟩

end Started

/-! ### Runs from the state after boot -/

/-- The boot is over, and the bookkeeping records some terminals. -/
def Running (s : Kernel) : Prop := s.pitCount = 4 ∧ ∃ m, Represents s.book m

section Runs

variable {fs : FileSys} {s t : Kernel} {es : List Event}

theorem Booted.running (h : Booted s) : Running s := ⟨h.pitCount, _, h.represents⟩

/-- **One step** keeps the bookkeeping. -/
theorem Running.step {e : Event} (h : Running s) (hstep : Step fs s e t) : Running t := by
  obtain ⟨hpit, m, hm⟩ := h
  obtain ⟨m', hm', -⟩ := hstep.represents hm (Or.inl hpit)
  exact ⟨hstep.pitCount_eq hm hpit, m', hm'⟩

theorem Running.processNum_bounds (h : Running s) : 0 ≤ s.processNum ∧ s.processNum ≤ maxPcb := by
  obtain ⟨-, m, hm⟩ := h
  exact hm.running_eq.2.2

theorem Running.pid_processNum (h : Running s) :
    (s.pcb s.processNum).pid = s.processNum ∧ (s.pcb s.processNum).active = true := by
  obtain ⟨-, m, hm⟩ := h
  obtain ⟨-, hpid, hactive, -⟩ := hm.of_mem hm.processNum_mem
  exact ⟨hpid, hactive⟩

/-- **A run** keeps it. -/
theorem Running.run (h : Running s) (hr : Run (Step fs) s es t) : Running t :=
  hr.invariant (fun _ _ _ hs hstep => hs.step hstep) h

/-- **Runs refine the terminals:** what the kernel does from the state after boot is
something the terminals can do. -/
theorem Booted.simulates (h : Booted s) (hr : Run (Step fs) s es t) :
    ∃ m, Represents t.book m ∧ Relation.ReflTransGen Terminals.Move Terminals.shells m := by
  obtain ⟨m, ⟨hm, -⟩, hmoves⟩ := hr.simulate_star Terminals.Move
    (R := fun (s : Kernel) m => Represents s.book m ∧ s.pitCount = 4)
    (fun s e t m hs hstep => by
      obtain ⟨m', hm', hmove⟩ := hstep.represents hs.1 (Or.inl hs.2)
      exact ⟨m', ⟨hm', hstep.pitCount_eq hs.1 hs.2⟩, hmove⟩)
    ⟨h.represents, h.pitCount⟩
  exact ⟨m, hm, hmoves⟩

/-- The four records agree on who runs where. -/
structure Consistent (s : Kernel) : Prop where
  /-- `schedule_array` and the terminals name the same process. -/
  currPid : ∀ t < 3, s.scheduleArray t = s.currPid t
  scheduleIdx : s.scheduleIdx < 3
  /-- The running process is the scheduled one, whichever way it is found. -/
  processNum : s.processNum = s.scheduleArray s.scheduleIdx
  scheduledPid : s.scheduledPid = s.processNum
  terminalNum : (s.pcb s.processNum).terminalNum = s.scheduleIdx
  /-- Each terminal has its chain of active PCBs, from the scheduled process along
  `parent_id` to its base shell; the chains have no process in common, and every active
  PCB is in one of them. -/
  chains : ∃ chain : ℕ → List ℤ,
    (∀ t < 3, (chain t).head? = some (s.scheduleArray t) ∧ Linked s.book.pcb t (chain t)) ∧
    (∀ t < 3, (chain t).Nodup) ∧
    (∀ t < 3, ∀ u < 3, t ≠ u → ∀ q ∈ chain t, q ∉ chain u) ∧
    ∀ q, 0 ≤ q → ((s.pcb q).active = true ↔ ∃ t < 3, q ∈ chain t)

theorem Running.consistent (h : Running s) : Consistent s := by
  obtain ⟨hpit, m, hm⟩ := h
  have hthree : m.started = 3 := by
    have := hm.sound.started_le
    rcases hm.pitCount with hp | hp <;> simp only [Kernel.book] at hp <;> omega
  obtain ⟨hsched, hterm, -⟩ := hm.running_eq
  have hcur := hm.sound.current_lt hm.started
  refine
    { currPid := fun t ht => (hm.scheduled t (by omega)).symm
      scheduleIdx := ?_
      processNum := hm.running
      scheduledPid := hsched
      terminalNum := hterm
      chains := ⟨m.stack, fun t ht => ⟨hm.top t (by omega), hm.linked t (by omega)⟩,
        fun t _ => hm.sound.separate.nodup t,
        fun t _ u _ htu => hm.sound.separate.disjoint t u htu, fun q hq => ⟨fun hactive => ?_, ?_⟩⟩ }
  · have hidx : s.scheduleIdx = m.current := hm.current
    omega
  · obtain ⟨t, ht, hmem⟩ := hm.covered q hq hactive
    exact ⟨t, by omega, hmem⟩
  · rintro ⟨t, -, hmem⟩
    exact (hm.of_mem hmem).2.2.1

/-- **The bookkeeping is consistent after every run** from the state after boot. -/
theorem consistent_of_run (hboot : Booted s) (hr : Run (Step fs) s es t) : Consistent t :=
  (hboot.running.run hr).consistent

/-- A stack frame of zeros. -/
def zeroFrame : Frame := { esp := 0, ebp := 0, header := fun _ => 0, isShellFlag := false }

/-- After a tick, which gives the second terminal its turn, and the halt of its base
shell the bookkeeping is consistent. -/
theorem consistent_of_tick_halt :
    Consistent (((bootedKernel.withRegisters 8 16).scheduler default zeroFrame).systemHalt 0
      zeroFrame) :=
  consistent_of_run booted_bootedKernel
    (.cons (.tick bootedKernel 8 16 zeroFrame) (.cons (.systemHalt (by decide) 0 zeroFrame) (.nil _)))

end Runs

end OS391
