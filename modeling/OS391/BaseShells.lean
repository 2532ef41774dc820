/-
# Which processes are base shells

Nothing tells `execute` who calls it.  That a process is one of the three shells of the
scheduler is read off `pit_count`: whatever is launched while it is below three becomes a base
shell, and the fourth tick marks whatever process it interrupts.

Beside the state we keep who created each process (`Creators`).  The base shells are the
processes that the scheduler created as long as no process launches a program before the
third shell is there, and the fourth tick interrupts one of the shells (`LaunchesInTime`); a
step that does not meet this makes another process a base shell (`baseShells_of_run`).
-/

import Mathlib.Data.Set.Card
import OS391.Protection
import OS391.ShellCount

namespace OS391

open Lib

/-! ### The record of creators -/

/-- Who called the `execute` that a process comes from: the scheduler, or a process of a
terminal. -/
inductive Creator
  | scheduler
  | process (pid : ℤ) (terminalNum : ℕ)
  deriving DecidableEq

/-- The creators of the processes. -/
abbrev Creators : Type := ℤ → Option Creator

namespace Creators

/-- The record after a call of `execute`. -/
def launched (h : Creators) (c : Creator) : ExecResult → Creators
  | .launched pid => Function.update h pid (some c)
  | _ => h

/-- The record after an operation: the first three ticks call `execute`, and so do processes. -/
def next (fs : FileSys) (s : Kernel) (h : Creators) : Event → Creators
  | .tick esp ebp frame =>
    if s.pitCount < 3 then
      h.launched .scheduler ((s.withRegisters esp ebp).bootShell fs frame).1
    else h
  | .execute command frame =>
    h.launched (.process s.processNum (s.pcb s.processNum).terminalNum)
      (s.execute fs command frame).1
  | _ => h

/-- At power-on there are no processes. -/
def none : Creators := fun _ => Option.none

end Creators

/-- The base shells are what the scheduler launched, at most three and each with a terminal
of its own; every other process has the process that executed it as its parent, and that
process's terminal. -/
structure LaunchedBy (s : Kernel) (h : Creators) : Prop where
  three : {q | (s.pcb q).isBaseShell = true}.encard ≤ 3
  scheduler : ∀ q, (s.pcb q).isBaseShell = true → h q = some .scheduler
  distinct : ∀ q r, (s.pcb q).isBaseShell = true → (s.pcb r).isBaseShell = true →
    (s.pcb q).terminalNum = (s.pcb r).terminalNum → q = r
  others : ∀ q, (s.pcb q).active = true → (s.pcb q).isBaseShell = false →
    ∃ p k, h q = some (.process p k) ∧ (s.pcb q).parentId = p ∧ (s.pcb q).terminalNum = k

/-- Executes and halts are made by processes that run. -/
def Performed (s : Kernel) : Event → Prop
  | .execute .. | .systemHalt .. | .exceptionHalt .. => (s.pcb s.processNum).active = true
  | _ => True

/-- No process launches a program before the third shell is there, and the fourth tick
interrupts a base shell. -/
def LaunchesInTime (fs : FileSys) (s : Kernel) : Event → Prop
  | .execute command frame =>
    s.pitCount < 3 →
      ¬ (Kernel.Loadable fs command frame ∧ s.FreePcb maxPcb ∧ ¬ s.AtLimit command)
  | .tick .. => s.pitCount = 3 → (s.pcb s.processNum).isBaseShell = true
  | _ => True

theorem Kernel.Launches.loadable {fs : FileSys} {s : Kernel} {command : CString} {frame : Frame}
    {pid : ℤ} (h : s.Launches fs command frame pid) :
    Kernel.Loadable fs command frame ∧ s.FreePcb maxPcb ∧ ¬ s.AtLimit command := by
  obtain ⟨-, -, hlimit⟩ := Kernel.execute_shell h.result
  have hfree : s.FreePcb maxPcb :=
    ⟨pid, h.firstFree.above, h.firstFree.le_max, h.firstFree.free⟩
  refine ⟨?_, hfree, hlimit⟩
  have hresult := h.result
  rw [Kernel.execute_of_not_atLimit hlimit, Kernel.load] at hresult
  cases hdentry : readDentryByName fs (getFileName command) with
  | none => simp [hdentry] at hresult
  | some d =>
    rw [hdentry] at hresult
    dsimp only at hresult
    split_ifs at hresult with hexec
    exact ⟨d, hdentry, by simpa using hexec⟩

/-! ### The invariant -/

/-- The bookkeeping agrees with the record. -/
structure Book.CreatedBy (b : Book) (h : Creators) : Prop where
  scheduler : ∀ q, (b.pcb q).isBaseShell = true ↔ h q = some .scheduler
  shell : ∀ q, (b.pcb q).isBaseShell = true →
    (b.pcb q).pid = q ∧ (b.pcb q).active = true ∧ (b.pcb q).terminalNum < b.pitCount
  distinct : ∀ q r, (b.pcb q).isBaseShell = true → (b.pcb r).isBaseShell = true →
    (b.pcb q).terminalNum = (b.pcb r).terminalNum → q = r
  others : ∀ q p k, h q = some (.process p k) →
    (b.pcb q).parentId = p ∧ (b.pcb q).terminalNum = k ∧ (h p).isSome
  active : ∀ q, (b.pcb q).active = true → (h q).isSome
  /-- Between the first tick and the third a base shell runs. -/
  boot : 0 < b.pitCount → b.pitCount < 3 → (b.pcb b.processNum).isBaseShell = true

namespace Book

variable {b b' : Book} {h : Creators} {pid : ℤ}

/-- What no operation but a launch can change. -/
theorem CreatedBy.congr (hc : b.CreatedBy h) (hpit : b.pitCount ≤ b'.pitCount)
    (hbase : ∀ q, (b'.pcb q).isBaseShell = (b.pcb q).isBaseShell)
    (hterminal : ∀ q, (b'.pcb q).terminalNum = (b.pcb q).terminalNum)
    (hshell : ∀ q, (b.pcb q).isBaseShell = true →
      (b'.pcb q).pid = (b.pcb q).pid ∧ (b'.pcb q).active = true)
    (hparent : ∀ q, (b.pcb q).isBaseShell = false → (b'.pcb q).parentId = (b.pcb q).parentId)
    (hactive : ∀ q, (b'.pcb q).active = true → (h q).isSome)
    (hboot : 0 < b'.pitCount → b'.pitCount < 3 → (b.pcb b'.processNum).isBaseShell = true) :
    b'.CreatedBy h := by
  refine ⟨fun q => ?_, fun q hq => ?_, fun q r hq hr hterm => ?_, fun q p k hq => ?_, hactive,
    fun h₀ h₁ => ?_⟩
  · rw [hbase]
    exact hc.scheduler q
  · rw [hbase] at hq
    obtain ⟨hpid, -, hlt⟩ := hc.shell q hq
    obtain ⟨hpid', hactive'⟩ := hshell q hq
    exact ⟨hpid'.trans hpid, hactive', by rw [hterminal]; omega⟩
  · rw [hbase] at hq hr
    rw [hterminal, hterminal] at hterm
    exact hc.distinct q r hq hr hterm
  · have hnot : (b.pcb q).isBaseShell = false := by
      by_contra hbase
      rw [(hc.scheduler q).1 (by simpa using hbase)] at hq
      exact absurd hq (by simp)
    rw [hparent q hnot, hterminal]
    exact hc.others q p k hq
  · rw [hbase]
    exact hboot h₀ h₁

/-- A new base shell has a terminal that no other has. -/
theorem CreatedBy.distinct_update (hc : b.CreatedBy h) {p : PcbBook}
    (hshell : p.isBaseShell = true → b.pitCount ≤ p.terminalNum) {q r : ℤ}
    (hq : (Function.update b.pcb pid p q).isBaseShell = true)
    (hr : (Function.update b.pcb pid p r).isBaseShell = true)
    (hterm : (Function.update b.pcb pid p q).terminalNum
      = (Function.update b.pcb pid p r).terminalNum) : q = r := by
  have hfresh {q : ℤ} (hq : (b.pcb q).isBaseShell = true) (hp : p.isBaseShell = true) :
      (b.pcb q).terminalNum < p.terminalNum :=
    Nat.lt_of_lt_of_le (hc.shell q hq).2.2 (hshell hp)
  rw [Function.update_apply] at hq hr
  rw [Function.update_apply, Function.update_apply] at hterm
  split_ifs at hq hr hterm with hqp hrp hrp
  · rw [hqp, hrp]
  · have hlt := hfresh hr hq
    omega
  · have hlt := hfresh hq hr
    omega
  · exact hc.distinct q r hq hr hterm

/-- One PCB is that of a new process. -/
theorem CreatedBy.update (hc : b.CreatedBy h) {p : PcbBook} {c : Creator}
    (hpcb : b'.pcb = Function.update b.pcb pid p) (hpit : b.pitCount ≤ b'.pitCount)
    (hkind : p.isBaseShell = true ↔ c = .scheduler)
    (hshell : p.isBaseShell = true → p.pid = pid ∧ p.active = true ∧
      b.pitCount ≤ p.terminalNum ∧ p.terminalNum < b'.pitCount)
    (hother : ∀ q k, c = .process q k → p.parentId = q ∧ p.terminalNum = k ∧ (h q).isSome)
    (hboot : b'.pitCount < 3 → b'.processNum = pid ∧ p.isBaseShell = true) :
    b'.CreatedBy (Function.update h pid (some c)) := by
  have hself : b'.pcb pid = p := by rw [hpcb, Function.update_self]
  have hne {q : ℤ} (hq : q ≠ pid) : b'.pcb q = b.pcb q := by rw [hpcb, Function.update_of_ne hq]
  have hsome {q : ℤ} (hq : (h q).isSome) : (Function.update h pid (some c) q).isSome := by
    rw [Function.update_apply]
    split_ifs
    · rfl
    · exact hq
  refine ⟨fun q => ?_, fun q hq => ?_, fun q r hq hr hterm => ?_, fun q r k hq => ?_,
    fun q hq => ?_, fun _ hlt => ?_⟩
  · by_cases hqp : q = pid
    · rw [hqp, hself, Function.update_self, hkind, Option.some.injEq]
    · rw [hne hqp, Function.update_of_ne hqp]
      exact hc.scheduler q
  · by_cases hqp : q = pid
    · rw [hqp, hself] at hq ⊢
      obtain ⟨hpid, hactive, -, hlt⟩ := hshell hq
      exact ⟨hpid, hactive, hlt⟩
    · rw [hne hqp] at hq ⊢
      obtain ⟨hpid, hactive, hlt⟩ := hc.shell q hq
      exact ⟨hpid, hactive, by omega⟩
  · rw [hpcb] at hq hr hterm
    exact hc.distinct_update (fun hp => (hshell hp).2.2.1) hq hr hterm
  · by_cases hqp : q = pid
    · rw [hqp, Function.update_self, Option.some.injEq] at hq
      rw [hqp, hself]
      obtain ⟨hparent, hterm, hp⟩ := hother r k hq
      exact ⟨hparent, hterm, hsome hp⟩
    · rw [Function.update_of_ne hqp] at hq
      rw [hne hqp]
      obtain ⟨hparent, hterm, hp⟩ := hc.others q r k hq
      exact ⟨hparent, hterm, hsome hp⟩
  · by_cases hqp : q = pid
    · rw [hqp, Function.update_self]
      rfl
    · rw [hne hqp] at hq
      exact hsome (hc.active q hq)
  · obtain ⟨hnum, hbase⟩ := hboot hlt
    rw [hnum, hself]
    exact hbase

/-- **The scheduler launches a shell.** -/
theorem CreatedBy.bootLaunch (hc : b.CreatedBy h) (hpit : b.pitCount < 3) (pid : ℤ) :
    (b.launch pid).CreatedBy (Function.update h pid (some .scheduler)) := by
  rw [launch_eq_of_boot hpit]
  refine hc.update rfl (Nat.le_succ _) (by simp) (fun _ => ⟨rfl, rfl, Nat.le_refl _, ?_⟩) (by simp)
    fun _ => ⟨rfl, rfl⟩
  exact Nat.lt_succ_self _

/-- **A process launches another.** -/
theorem CreatedBy.launch (hc : b.CreatedBy h) (hb : b.Bounded) (hpit : 3 ≤ b.pitCount)
    (hrun : (b.pcb b.processNum).active = true) (hfree : (b.pcb pid).active = false) :
    (b.launch pid).CreatedBy (Function.update h pid
      (some (.process b.processNum (b.pcb b.processNum).terminalNum))) := by
  have hbase : (b.pcb pid).isBaseShell = false := by
    by_contra hbase
    rw [(hc.shell pid (by simpa using hbase)).2.1] at hfree
    contradiction
  have hne : b.processNum ≠ pid := by
    rintro rfl
    rw [hrun] at hfree
    contradiction
  have hparent := (hb.pcb pid).parentId hbase
  rw [launch_eq hpit hbase (by omega) hne]
  refine hc.update rfl (Nat.le_refl _) (by simp) (fun hp => by simp at hp) ?_ ?_
  · rintro q k ⟨⟩
    exact ⟨rfl, rfl, hc.active _ hrun⟩
  · intro hlt
    dsimp only at hlt
    omega

/-- The PCB of a base shell set up again. -/
theorem CreatedBy.mark (hc : b.CreatedBy h) (hbase : (b.pcb pid).isBaseShell = true)
    {p : PcbBook} (hpcb : b'.pcb = Function.update b.pcb pid p) (hp : p.isBaseShell = true)
    (hpid : p.pid = (b.pcb pid).pid) (hterm : p.terminalNum = (b.pcb pid).terminalNum)
    (hactive : p.active = true) (hpit : b.pitCount ≤ b'.pitCount)
    (hboot : 0 < b'.pitCount → b'.pitCount < 3 → (b.pcb b'.processNum).isBaseShell = true) :
    b'.CreatedBy h := by
  have hself : b'.pcb pid = p := by rw [hpcb, Function.update_self]
  have hne {q : ℤ} (hq : q ≠ pid) : b'.pcb q = b.pcb q := by rw [hpcb, Function.update_of_ne hq]
  refine hc.congr hpit (fun q => ?_) (fun q => ?_) (fun q hq => ?_) (fun q hq => ?_)
    (fun q hq => ?_) hboot <;> by_cases hqp : q = pid
  · rw [hqp, hself, hp, hbase]
  · rw [hne hqp]
  · rw [hqp, hself, hterm]
  · rw [hne hqp]
  · rw [hqp, hself]
    exact ⟨hpid, hactive⟩
  · rw [hne hqp]
    exact ⟨rfl, (hc.shell q hq).2.1⟩
  · rw [hqp, hbase] at hq
    contradiction
  · rw [hne hqp]
  · rw [hqp, (hc.scheduler pid).1 hbase]
    rfl
  · rw [hne hqp] at hq
    exact hc.active q hq

/-- **A base shell starts again:** it stays what it is, or, during the boot, takes the next
terminal. -/
theorem CreatedBy.restart (hc : b.CreatedBy h) (hbase : (b.pcb pid).isBaseShell = true) :
    (b.restart pid).CreatedBy h := by
  obtain ⟨hpid, hactive, -⟩ := hc.shell pid hbase
  by_cases hpit : b.pitCount < 3
  · have hmark : (b.modifyPcb pid fun p =>
        { p with isBaseShell := true, parentId := -1 }).CreatedBy h :=
      hc.mark hbase rfl rfl rfl rfl hactive (Nat.le_refl _) hc.boot
    have hlaunch := hmark.bootLaunch hpit pid
    rwa [← (hc.scheduler pid).1 hbase, Function.update_eq_self] at hlaunch
  · have hrestart : (b.restart pid).pcb = Function.update b.pcb pid
        { b.pcb pid with pid := pid, parentId := -1, active := true, isBaseShell := true } ∧
        (b.restart pid).pitCount = b.pitCount := by
      simp [Book.restart, Book.launch, enqueue, setup, modifyPcb, hpit, terminalOf, schedule]
    refine hc.mark hbase hrestart.1 rfl hpid.symm rfl rfl hrestart.2.ge fun _ hlt => ?_
    omega

/-- **The halt** of a process that is not a base shell. -/
theorem CreatedBy.halt (hc : b.CreatedBy h) (hrun : b.processNum = pid)
    (hactive : (b.pcb pid).active = true) (hbase : (b.pcb pid).isBaseShell = false) :
    (b.halt pid).CreatedBy h := by
  -- its parent is the process that launched it, which has a creator
  obtain ⟨c, hcreator⟩ := Option.isSome_iff_exists.1 (hc.active pid hactive)
  have hparent : (h (b.pcb pid).parentId).isSome := by
    cases c with
    | scheduler =>
      rw [(hc.scheduler pid).2 hcreator] at hbase
      contradiction
    | process p k =>
      obtain ⟨hparent, -, hp⟩ := hc.others pid p k hcreator
      rwa [hparent]
  have hpcb (q : ℤ) : (b.halt pid).pcb q = { b.pcb q with
      active := ((b.halt pid).pcb q).active } := by
    simp only [Book.halt, modifyPcb, Function.update_apply]
    split_ifs <;> simp_all
  have hset (q : ℤ) : ((b.halt pid).pcb q).active
      = if q = (b.pcb pid).parentId then true else if q = pid then false
        else (b.pcb q).active := by
    simp only [Book.halt, modifyPcb, Function.update_apply]
    split_ifs <;> rfl
  refine hc.congr (Nat.le_refl _) (fun q => ?_) (fun q => ?_) (fun q hq => ?_) (fun q _ => ?_)
    (fun q hq => ?_) fun h₀ h₁ => ?_
  · rw [hpcb]
  · rw [hpcb]
  · have hne : q ≠ pid := by
      rintro rfl
      rw [hbase] at hq
      contradiction
    rw [hpcb, hset, if_neg hne, (hc.shell q hq).2.1, ite_self]
    exact ⟨rfl, rfl⟩
  · rw [hpcb]
  · rw [hset] at hq
    split_ifs at hq with hqp
    · rwa [hqp]
    · exact hc.active q hq
  · have hshell := hc.boot h₀ h₁
    rw [hrun, hbase] at hshell
    contradiction

/-- **A tick** once the three shells run. -/
theorem CreatedBy.finishBoot_rotate (hc : b.CreatedBy h) (hpit : 3 ≤ b.pitCount)
    (hbase : b.pitCount = 3 → (b.pcb b.processNum).isBaseShell = true) :
    b.finishBoot.rotate.CreatedBy h := by
  by_cases hthree : b.pitCount = 3
  · have hfinish : b.finishBoot = _ := if_pos hthree
    rw [hfinish]
    refine hc.mark (hbase hthree) rfl rfl rfl rfl rfl (Nat.le_succ _) fun _ hlt => ?_
    have hlt' : b.pitCount + 1 < 3 := hlt
    omega
  · have hfinish : b.finishBoot = b := if_neg hthree
    rw [hfinish]
    refine hc.congr (Nat.le_refl _) (fun _ => rfl) (fun _ => rfl)
      (fun q hq => ⟨rfl, (hc.shell q hq).2.1⟩) (fun _ _ => rfl) hc.active fun _ hlt => ?_
    have hlt' : b.pitCount < 3 := hlt
    omega

theorem CreatedBy.nextTerminal (hc : b.CreatedBy h) (hpos : 0 < b.pitCount)
    (hpit : b.pitCount < 3) : b.nextTerminal.CreatedBy h :=
  have hbase := hc.boot hpos hpit
  hc.mark hbase rfl hbase rfl rfl rfl (Nat.le_refl _) fun _ _ => hbase

end Book

/-! ### Steps and runs -/

section Runs

variable {fs : FileSys} {s t : Kernel} {h h' : Creators} {e : Event} {es : List Event}

/-- Nothing has been launched at power-on. -/
theorem PowerOn.createdBy (hs : PowerOn s) : s.book.CreatedBy .none := by
  have hbase (q : ℤ) : (s.book.pcb q).isBaseShell = false := (hs.pcb q).isBaseShell
  have hactive (q : ℤ) : (s.book.pcb q).active = false := (hs.pcb q).active
  have hpit : s.book.pitCount = 0 := hs.pitCount
  constructor
  · simp [hbase, Creators.none]
  · simp [hbase]
  · simp [hbase]
  · simp [Creators.none]
  · simp [hactive]
  · simp [hpit]

/-- **The call of `execute`** that a tick of the boot makes. -/
theorem createdBy_bootExecute (hc : s.book.CreatedBy h) (hb : s.book.Bounded)
    (hpit : s.pitCount < 3) (command : CString) (frame : Frame) :
    (s.execute fs command frame).2.book.CreatedBy
      (h.launched .scheduler (s.execute fs command frame).1) := by
  rcases s.execute_cases fs command frame hb.processNum.2 with ⟨pid, hlaunch⟩ | hstop
  · rw [hlaunch.result, hlaunch.book]
    exact hc.bootLaunch hpit pid
  · rw [hstop.book]
    cases hresult : (s.execute fs command frame).1 with
    | launched pid => exact absurd hresult (hstop.1 pid)
    | failed | refused => exact hc

/-- **A call of `execute`** that a process makes. -/
theorem createdBy_execute (hc : s.book.CreatedBy h) (hb : s.book.Bounded) {command : CString}
    {frame : Frame} (hrun : Performed s (.execute command frame))
    (htime : LaunchesInTime fs s (.execute command frame)) :
    (s.execute fs command frame).2.book.CreatedBy
      (Creators.next fs s h (.execute command frame)) := by
  show Book.CreatedBy _ (h.launched _ (s.execute fs command frame).1)
  rcases s.execute_cases fs command frame hb.processNum.2 with ⟨pid, hlaunch⟩ | hstop
  · rw [hlaunch.result, hlaunch.book]
    have hpit : ¬ s.pitCount < 3 := fun hpit => htime hpit hlaunch.loadable
    exact hc.launch hb (Nat.not_lt.1 hpit) hrun hlaunch.firstFree.free
  · rw [hstop.book]
    cases hresult : (s.execute fs command frame).1 with
    | launched pid => exact absurd hresult (hstop.1 pid)
    | failed | refused => exact hc

/-- **A halt.** -/
theorem createdBy_halt (hc : s.book.CreatedBy h) (hrun : (s.pcb s.processNum).active = true)
    (status : ℤ) (frame : Frame) : (s.halt status frame).book.CreatedBy h := by
  cases hbase : (s.pcb s.processNum).isBaseShell with
  | false =>
    rw [s.halt_book_of_not_baseShell status frame hbase]
    exact hc.halt rfl hrun hbase
  | true =>
    have hpid : (s.pcb s.processNum).pid = s.processNum := (hc.shell _ hbase).1
    rw [s.halt_book_of_baseShell status frame hbase, hpid]
    exact hc.restart hbase

/-- **A tick.** -/
theorem createdBy_scheduler (hc : s.book.CreatedBy h) (hb : s.book.Bounded) (frame : Frame)
    (hbase : s.pitCount = 3 → (s.pcb s.processNum).isBaseShell = true) :
    (s.scheduler fs frame).book.CreatedBy
      (if s.pitCount < 3 then h.launched .scheduler (s.bootShell fs frame).1 else h) := by
  by_cases hpit : s.pitCount < 3
  · rw [if_pos hpit, Kernel.scheduler_of_boot fs s frame hpit, Kernel.bootShell]
    split_ifs with hzero
    · exact createdBy_bootExecute (s := s.modifyConsole _) hc hb hpit _ _
    · have hnext : s.nextTerminal.book.CreatedBy h ∧ s.nextTerminal.book.Bounded := by
        rw [Kernel.nextTerminal_book]
        exact ⟨hc.nextTerminal (Nat.pos_of_ne_zero hzero) hpit, hb.nextTerminal⟩
      exact createdBy_bootExecute hnext.1 hnext.2 hpit _ _
  · rw [if_neg hpit, Kernel.scheduler_book fs s frame (by omega)]
    exact hc.finishBoot_rotate (Nat.not_lt.1 hpit) hbase

/-- **A step in time** keeps the record right. -/
theorem createdBy_step (hc : s.book.CreatedBy h) (hb : s.book.Bounded) (hrun : Performed s e)
    (htime : LaunchesInTime fs s e) (hstep : Step fs s e t) :
    t.book.CreatedBy (Creators.next fs s h e) := by
  cases hstep with
  | tick esp ebp frame =>
    exact createdBy_scheduler (s := s.withRegisters esp ebp) hc hb frame htime
  | execute _ command frame => exact createdBy_execute hc hb hrun htime
  | systemHalt _ status frame => exact createdBy_halt hc hrun _ frame
  | exceptionHalt _ status frame => exact createdBy_halt hc hrun _ frame
  | getargs _ buf nbytes => rwa [Kernel.getargs_book]
  | openCall _ filename junk => rwa [Kernel.openCall_book]
  | close _ fd => rwa [Kernel.close_book]
  | vidmap _ screenStart => rwa [Kernel.vidmap_book]
  | switchTerminals next => exact hc

theorem Book.CreatedBy.launchedBy (hc : s.book.CreatedBy h) (hb : s.book.Bounded) :
    LaunchedBy s h := by
  refine ⟨?_, fun q hq => (hc.scheduler q).1 hq, hc.distinct, fun q hactive hbase => ?_⟩
  · have hmaps : Set.MapsTo (fun q => (s.pcb q).terminalNum) {q | (s.pcb q).isBaseShell = true}
        (Finset.range 3) := fun q _ => Finset.mem_coe.2 (Finset.mem_range.2 (hb.pcb q).terminalNum)
    have hle := Set.encard_le_encard_of_injOn hmaps
      fun q hq r hr hterm => hc.distinct q r hq hr hterm
    rwa [Set.encard_coe_eq_coe_finsetCard, Finset.card_range] at hle
  · obtain ⟨c, hcreator⟩ := Option.isSome_iff_exists.1 (hc.active q hactive)
    cases c with
    | scheduler =>
      have hshell : (s.pcb q).isBaseShell = true := (hc.scheduler q).2 hcreator
      rw [hbase] at hshell
      contradiction
    | process p k =>
      obtain ⟨hparent, hterm, -⟩ := hc.others q p k hcreator
      exact ⟨p, k, hcreator, hparent, hterm⟩

/-- **A step out of time** makes a base shell of a process that the scheduler did not launch. -/
theorem not_launchedBy_step (hc : s.book.CreatedBy h) (hb : s.book.Bounded)
    (htime : ¬ LaunchesInTime fs s e) (hstep : Step fs s e t) :
    ¬ LaunchedBy t (Creators.next fs s h e) := by
  intro hlaunched
  cases hstep with
  | tick esp ebp frame =>
    obtain ⟨hpit, hbase⟩ := Classical.not_imp.1 htime
    have hbook := Kernel.scheduler_book fs (s.withRegisters esp ebp) frame
      (show 3 ≤ s.pitCount by omega)
    have hmarked : (((s.withRegisters esp ebp).scheduler fs frame).pcb s.processNum).isBaseShell
        = true := by
      have hpcb := congrArg (fun b : Book => (b.pcb s.processNum).isBaseShell) hbook
      refine hpcb.trans ?_
      simp [Book.finishBoot, Book.rotate, Book.modifyPcb, Kernel.book, Kernel.withRegisters, hpit]
    have hcreator := hlaunched.scheduler _ hmarked
    simp only [Creators.next, hpit, lt_irrefl, if_false] at hcreator
    exact hbase ((hc.scheduler _).2 hcreator)
  | execute _ command frame =>
    obtain ⟨hpit, hstart⟩ := Classical.not_imp.1 htime
    obtain ⟨hload, hfree, hlimit⟩ := not_not.1 hstart
    obtain ⟨pid, hresult⟩ := hload.launched hfree hlimit
    have hlaunch := launches_of_eq hb.processNum.2 hresult
    have hshell : ((s.execute fs command frame).2.pcb pid).isBaseShell = true := by
      have hpcb := congrArg (fun b : Book => (b.pcb pid).isBaseShell) hlaunch.book
      refine hpcb.trans ?_
      simp [Book.launch_eq_of_boot (b := s.book) hpit]
    have hcreator := hlaunched.scheduler pid hshell
    simp [Creators.next, Creators.launched, hresult] at hcreator
  | systemHalt | exceptionHalt | getargs | openCall | close | vidmap | switchTerminals =>
    exact htime trivial

/-- **The base shells are the scheduler's** in every state of a run from power-on whose launches
are in time; and the next step keeps them so if and only if it is in time. -/
theorem baseShells_of_run (hboot : PowerOn s)
    (hr : Run (Recorded (Creators.next fs)
      (Guarded (fun s e => Performed s e ∧ LaunchesInTime fs s e) (Step fs)))
      (s, .none) es (t, h)) :
    LaunchedBy t h ∧ ∀ e u, Performed t e → Step fs t e u →
      (LaunchedBy u (Creators.next fs t h e) ↔ LaunchesInTime fs t e) := by
  have hinv : t.book.CreatedBy h ∧ t.book.Bounded :=
    hr.invariant (I := fun p => p.1.book.CreatedBy p.2 ∧ p.1.book.Bounded)
      (fun _ _ _ hs hstep => by
        obtain ⟨⟨⟨hrun, htime⟩, hstep⟩, hnext⟩ := hstep
        rw [hnext]
        exact ⟨createdBy_step hs.1 hs.2 hrun htime hstep, hstep.bounded hs.2⟩)
      ⟨hboot.createdBy, hboot.bounded⟩
  obtain ⟨hc, hb⟩ := hinv
  refine ⟨hc.launchedBy hb, fun e u hrun hstep => ⟨fun hlaunched => ?_, fun htime => ?_⟩⟩
  · by_contra htime
    exact not_launchedBy_step hc hb htime hstep hlaunched
  · exact (createdBy_step hc hb hrun htime hstep).launchedBy (hstep.bounded hb)

/-- The first shell starts another after the fourth tick, in time. -/
theorem baseShells_childKernel :
    ∃ h, LaunchedBy childKernel h ∧ h 3 = some (.process 0 0) ∧
      LaunchedBy (ticked childKernel) h := by
  have htick (s : Kernel) (h : Creators)
      (hbase : s.pitCount = 3 → (s.pcb s.processNum).isBaseShell = true) :
      Recorded (Creators.next shellImage)
        (Guarded (fun s e => Performed s e ∧ LaunchesInTime shellImage s e) (Step shellImage))
        (s, h) (.tick 0 0 zeroFrame)
        (ticked s, Creators.next shellImage s h (.tick 0 0 zeroFrame)) :=
    ⟨⟨⟨trivial, hbase⟩, .tick s 0 0 zeroFrame⟩, rfl⟩
  have hrun : (shellsKernel.pcb shellsKernel.processNum).active = true := by decide +kernel
  have hpos : 0 ≤ shellsKernel.processNum := by decide +kernel
  have hpit : ¬ shellsKernel.pitCount < 3 := by decide +kernel
  have hexecute (h : Creators) : Recorded (Creators.next shellImage)
      (Guarded (fun s e => Performed s e ∧ LaunchesInTime shellImage s e) (Step shellImage))
      (shellsKernel, h) (.execute Kernel.shellCommand zeroFrame)
      (childKernel, Creators.next shellImage shellsKernel h
        (.execute Kernel.shellCommand zeroFrame)) :=
    ⟨⟨⟨hrun, fun hlt => absurd hlt hpit⟩, .execute hpos Kernel.shellCommand zeroFrame⟩, rfl⟩
  obtain ⟨hlaunched, hnext⟩ := baseShells_of_run powerOn_powerOnKernel
    (.cons (htick _ _ fun hpit => absurd hpit (by decide +kernel))
      (.cons (htick _ _ fun hpit => absurd hpit (by decide +kernel))
        (.cons (htick _ _ fun hpit => absurd hpit (by decide +kernel))
          (.cons (htick _ _ fun _ => by decide +kernel) (.single (hexecute _))))))
  have htime : LaunchesInTime shellImage childKernel (.tick 0 0 zeroFrame) :=
    fun hpit => absurd hpit (by decide +kernel)
  have hlater := (hnext (.tick 0 0 zeroFrame) (ticked childKernel) trivial
    (.tick childKernel 0 0 zeroFrame)).2 htime
  have hsame (h : Creators) :
      Creators.next shellImage childKernel h (.tick 0 0 zeroFrame) = h :=
    if_neg (by decide +kernel)
  rw [hsame] at hlater
  exact ⟨_, hlaunched, by decide +kernel, hlater⟩

/-- The first shell has started a program before the second tick. -/
def earlyKernel : Kernel :=
  ((ticked powerOnKernel).execute shellImage Kernel.shellCommand zeroFrame).2

/-- The third shell has started a program before the fourth tick. -/
def lateKernel : Kernel :=
  ticked ((ticked (ticked (ticked powerOnKernel))).execute shellImage Kernel.shellCommand
    zeroFrame).2

/-- **A program becomes a base shell:** one that the first shell starts before the second tick,
and one that the third shell starts before the fourth, which makes four of them. -/
theorem not_launchedBy_early :
    PowerOn powerOnKernel ∧
      (∃ h, Run (Recorded (Creators.next shellImage) (Guarded Performed (Step shellImage)))
          (powerOnKernel, .none) [.tick 0 0 zeroFrame, .execute Kernel.shellCommand zeroFrame]
          (earlyKernel, h) ∧
        (earlyKernel.pcb 1).isBaseShell = true ∧ h 1 = some (.process 0 0) ∧
        ¬ LaunchedBy earlyKernel h) ∧
      ∃ h, Run (Recorded (Creators.next shellImage) (Guarded Performed (Step shellImage)))
          (powerOnKernel, .none)
          [.tick 0 0 zeroFrame, .tick 0 0 zeroFrame, .tick 0 0 zeroFrame,
            .execute Kernel.shellCommand zeroFrame, .tick 0 0 zeroFrame] (lateKernel, h) ∧
        (∀ q ∈ [0, 1, 2, 3], (lateKernel.pcb q).isBaseShell = true) ∧
        (lateKernel.pcb 2).terminalNum = (lateKernel.pcb 3).terminalNum ∧
        ¬ LaunchedBy lateKernel h := by
  have htick (s : Kernel) (h : Creators) :
      Recorded (Creators.next shellImage) (Guarded Performed (Step shellImage))
        (s, h) (.tick 0 0 zeroFrame)
        (ticked s, Creators.next shellImage s h (.tick 0 0 zeroFrame)) :=
    ⟨⟨trivial, .tick s 0 0 zeroFrame⟩, rfl⟩
  have hexecute (s : Kernel) (h : Creators) (hpos : 0 ≤ s.processNum)
      (hrun : (s.pcb s.processNum).active = true) :
      Recorded (Creators.next shellImage) (Guarded Performed (Step shellImage))
        (s, h) (.execute Kernel.shellCommand zeroFrame)
        ((s.execute shellImage Kernel.shellCommand zeroFrame).2,
          Creators.next shellImage s h (.execute Kernel.shellCommand zeroFrame)) :=
    ⟨⟨hrun, .execute hpos Kernel.shellCommand zeroFrame⟩, rfl⟩
  refine ⟨powerOn_powerOnKernel, ?_, ?_⟩
  · have hearly : (earlyKernel.pcb 1).isBaseShell = true := by decide +kernel
    refine ⟨_, .cons (htick _ _) (.single (hexecute _ _ (by decide +kernel) (by decide +kernel))),
      hearly, by decide +kernel, fun hlaunched => ?_⟩
    exact absurd (hlaunched.scheduler 1 hearly) (by decide +kernel)
  · have hlate : ∀ q ∈ [0, 1, 2, 3], (lateKernel.pcb q).isBaseShell = true := by decide +kernel
    have hterm : (lateKernel.pcb 2).terminalNum = (lateKernel.pcb 3).terminalNum := by
      decide +kernel
    refine ⟨_, .cons (htick _ _) (.cons (htick _ _) (.cons (htick _ _)
      (.cons (hexecute _ _ (by decide +kernel) (by decide +kernel)) (.single (htick _ _))))), hlate,
      hterm, fun hlaunched => ?_⟩
    exact absurd (hlaunched.distinct 2 3 (hlate 2 (by simp)) (hlate 3 (by simp)) hterm) (by decide)

end Runs

end OS391
