/-
# What is in service

The controllers hold back an interrupt while one that comes before it is in service, that is
until its handler has sent an end of interrupt.  Handlers are interrupted by other handlers, and
a tick leaves one where it is and goes on with a handler of another terminal, so the ends of
interrupt come in another order than the interrupts.

In every run from power-on a line is in service exactly as long as some handler has still to end
its interrupt (`Board.balanced_of_run`), because the kernel names the line in each of them.  So
the timer and the keyboard can always interrupt (`Board.next_of_run`).  Handlers do their work one
at a time (`Board.exclusive_of_run`), and the records of the kernel stay consistent in any order
of interrupts (`Board.consistent_of_interleaving`).
-/

import OS391.CleanTable
import OS391.LineMasks

namespace OS391

open Lib

namespace Board

variable {fs : FileSys} {b b' : Board} {m : Move} {v : BitVec 8} {pics : Pics}

/-! ### The contexts -/

/-- All handlers of the context are quiet. -/
def AllQuiet (c : Context) : Prop := ∀ ops ∈ c, ops ∈ Op.parts ∧ Op.Quiet ops

theorem allQuiet_nil : AllQuiet [] := List.forall_mem_nil _

theorem AllQuiet.tail {c : Context} (h : AllQuiet c) : AllQuiet c.tail :=
  fun ops hops => h ops (List.mem_of_mem_tail hops)

/-- No handler counts as one that has ended. -/
theorem AllQuiet.head {c : Context} (h : AllQuiet c) :
    c.headD [] ∈ Op.parts ∧ Op.Quiet (c.headD []) := by
  cases c with
  | nil => decide
  | cons ops c => exact h ops List.mem_cons_self

/-- The handlers are what is left of one of the three, and all but the innermost of the running
context are quiet; so is that one whenever it can be interrupted. -/
structure Ordered (b : Board) : Prop where
  parts : b.top ∈ Op.parts
  quiet : ∀ c ∈ b.suspended, AllQuiet c
  flag : b.kernel.interruptFlag = true → Op.Quiet b.top

theorem Ordered.current (h : b.Ordered) (hquiet : Op.Quiet b.top) : AllQuiet b.current := by
  have htail := h.quiet _ List.mem_cons_self
  have hparts := h.parts
  intro ops hops
  rw [top] at hquiet hparts
  cases hcur : b.current with
  | nil =>
    rw [hcur] at hops
    exact absurd hops List.not_mem_nil
  | cons first context =>
    rw [hcur] at hops htail hquiet hparts
    rcases List.mem_cons.1 hops with rfl | hmem
    · exact ⟨hparts, hquiet⟩
    · exact htail ops hmem

/-- **A tick** leaves quiet contexts. -/
theorem Ordered.rescheduled (h : b.Ordered) {ops : List Op} {context current : Context}
    {others abandoned : List Context} (hcur : b.current = (.scheduler :: ops) :: context)
    (hcases : Rescheduled b (ops :: context) current others abandoned) :
    AllQuiet current ∧ ∀ c ∈ others ++ abandoned, AllQuiet c := by
  have hparts := h.parts
  have hquiet := h.quiet
  rw [top, hcur] at hparts
  rw [suspended, hcur, List.forall_mem_cons] at hquiet
  obtain rfl : ops = [.sti] := Op.tail_of_scheduler _ hparts rfl
  have hcontext : AllQuiet ([.sti] :: context) :=
    List.forall_mem_cons.2 ⟨by decide, hquiet.1⟩
  obtain ⟨hothers, habandoned⟩ := List.forall_mem_append.1 hquiet.2
  have hlast {l : List Context} (h : ∀ c ∈ l, AllQuiet c) :
      ∀ c ∈ l ++ [[.sti] :: context], AllQuiet c :=
    List.forall_mem_append.2 ⟨h, by simpa using hcontext⟩
  cases hcases with
  | back => exact ⟨hcontext, hquiet.2⟩
  | first =>
    have hboot := List.forall_mem_cons.2 ⟨hcontext, habandoned⟩
    exact ⟨allQuiet_nil, List.forall_mem_append.2 ⟨hothers, hboot⟩⟩
  | shell => exact ⟨allQuiet_nil, List.forall_mem_append.2 ⟨hlast hothers, habandoned⟩⟩
  | turn hnext =>
    rw [hnext, List.forall_mem_cons] at hothers
    exact ⟨hothers.1, List.forall_mem_append.2 ⟨hlast hothers.2, habandoned⟩⟩

theorem Ordered.of_quiet (hcurrent : AllQuiet b.current)
    (hwaiting : ∀ c ∈ b.others ++ b.abandoned, AllQuiet c) : b.Ordered where
  parts := hcurrent.head.1
  quiet := List.forall_mem_cons.2 ⟨hcurrent.tail, hwaiting⟩
  flag _ := hcurrent.head.2

/-- **One step** keeps the order. -/
theorem Ordered.step (h : b.Ordered) (hctl : b.Controlled) (hstep : Step fs b m b') :
    b'.Ordered := by
  have hparts := h.parts
  have hquiet := h.quiet
  have hflag := h.flag
  cases hstep with
  | request n => exact ⟨hparts, hquiet, hflag⟩
  | interrupt hif hack =>
    have hv : ∀ v : BitVec 8, v.toNat ∈ [32, 33, 40] → Op.hardwareHandler v.toNat ∈ Op.parts :=
      fun v => Op.hardwareHandler_mem_parts _
    refine ⟨hv _ ?_, List.forall_mem_cons.2 ⟨h.current (hflag hif), ?_⟩,
      fun hif' => absurd hif' Bool.false_ne_true⟩
    · rcases hctl.interrupt_cases hack with ⟨i, hlt, -, heq, -⟩ | ⟨-, -, heq, -⟩ <;> rw [heq]
      · have hi : i = 0 ∨ i = 1 := by omega
        rcases hi with rfl | rfl <;> decide
      · decide
    · exact fun c hc => hquiet c (List.mem_cons_of_mem _ hc)
  | effect hcur heffect =>
    rw [top, hcur] at hparts hflag
    rw [suspended, hcur] at hquiet
    refine ⟨Op.tail_mem_parts _ hparts, hquiet, ?_⟩
    cases heffect with
    | cli => exact fun hif => absurd hif Bool.false_ne_true
    | sti => exact fun _ => Op.quiet_tail_of_sti _ hparts (Or.inl rfl)
    | keyboard => exact fun hif => (hflag hif).tail
    | rtc => exact fun _ => Op.quiet_tail_of_sti _ hparts (Or.inr rfl)
  | outb hcur =>
    rw [top, hcur] at hparts hflag
    rw [suspended, hcur] at hquiet
    exact ⟨Op.tail_mem_parts _ hparts, hquiet, fun hif => (hflag hif).tail⟩
  | scheduler hcur htick =>
    obtain ⟨_, _, _, hcases, heq⟩ := b.reschedule_cases _ _
    obtain ⟨hcurrent, hwaiting⟩ := h.rescheduled hcur hcases
    rw [heq]
    exact .of_quiet hcurrent hwaiting
  | iret hcur =>
    rw [suspended, hcur, List.forall_mem_cons] at hquiet
    exact .of_quiet hquiet.1 hquiet.2
  | cli hcur | sti hcur | enableTimer hcur | disableTimer hcur | call hcur =>
    refine .of_quiet ?_ fun c hc => hquiet c (List.mem_cons_of_mem _ hc)
    simp [hcur, cli, sti, enableIrq, disableIrq, allQuiet_nil]

/-! ### The services -/

/-- **What is in service is what a handler has still to end**: line 0 while the innermost handler
has not called the scheduler, line 1 while it has both its ends of interrupt before it, and line
8 as well as line 2, which brings it, as long as some context has the end of interrupt to come. -/
structure Balanced (b : Board) : Prop where
  timer : b.pics.master.isr 0 = decide (.scheduler ∈ b.top)
  keyboard : b.pics.master.isr 1 = decide (b.top.count .endKeyboard = 2)
  cascade : (b.pics.master.isr 2).toNat = b.owed .endCascade
  rtc : (b.pics.slave.isr 0).toNat = b.owed .endRtc
  masterRest : ∀ i > 2, b.pics.master.isr i = false
  slaveRest : ∀ k > 0, b.pics.slave.isr k = false

/-- A quiet handler owes nothing to lines 0 and 1. -/
theorem Balanced.of_quiet (hquiet : Op.Quiet b.top) (htimer : b.pics.master.isr 0 = false)
    (hkeyboard : b.pics.master.isr 1 = false)
    (hcascade : (b.pics.master.isr 2).toNat = b.owed .endCascade)
    (hrtc : (b.pics.slave.isr 0).toNat = b.owed .endRtc)
    (hmaster : ∀ i > 2, b.pics.master.isr i = false)
    (hslave : ∀ k > 0, b.pics.slave.isr k = false) : b.Balanced where
  timer := by
    have hmem : .scheduler ∉ b.top := fun hmem => hquiet.1 _ hmem (Or.inl rfl)
    simpa [hmem] using htimer
  keyboard := by
    have hcount : b.top.count .endKeyboard ≠ 2 := by
      have hle := hquiet.2
      omega
    simpa [hcount] using hkeyboard
  cascade := hcascade
  rtc := hrtc
  masterRest := hmaster
  slaveRest := hslave

/-- With interrupts on, nothing before line 2 is in service. -/
theorem Balanced.idle (h : b.Balanced) (hquiet : Op.Quiet b.top) :
    b.pics.master.isr 0 = false ∧ b.pics.master.isr 1 = false := by
  have hmem : .scheduler ∉ b.top := fun hmem => hquiet.1 _ hmem (Or.inl rfl)
  have hcount : b.top.count .endKeyboard ≠ 2 := by
    have hle := hquiet.2
    omega
  exact ⟨by simpa [hmem] using h.timer, by simpa [hcount] using h.keyboard⟩

theorem count_context (c : Context) (o : Op) :
    c.flatten.count o = (c.headD []).count o + c.tail.flatten.count o := by
  cases c <;> simp

/-- The running context may be counted as one. -/
theorem owed_eq (b : Board) (o : Op) :
    b.owed o = b.current.flatten.count o + (b.others ++ b.abandoned).flatten.flatten.count o := by
  rw [count_context]
  simp [owed, suspended, top, Nat.add_assoc]

/-- A tick loses no context. -/
theorem owed_rescheduled {context current : Context} {others abandoned : List Context}
    (h : Rescheduled b context current others abandoned) (o : Op) :
    current.flatten.count o + (others ++ abandoned).flatten.flatten.count o
      = context.flatten.count o + (b.others ++ b.abandoned).flatten.flatten.count o := by
  cases h with
  | back => rfl
  | first hpit => simp; omega
  | shell => simp; omega
  | turn hothers => simp [hothers]; omega

/-- The services do not change, nor what is owed. -/
theorem Balanced.congr (h : b.Balanced) (hmaster : b'.pics.master.isr = b.pics.master.isr)
    (hslave : b'.pics.slave.isr = b.pics.slave.isr)
    (htimer : .scheduler ∈ b'.top ↔ .scheduler ∈ b.top)
    (hkeyboard : b'.top.count .endKeyboard = b.top.count .endKeyboard)
    (howed : ∀ o, o = .endCascade ∨ o = .endRtc → b'.owed o = b.owed o) : b'.Balanced where
  timer := by simp only [hmaster, htimer, h.timer]
  keyboard := by rw [hmaster, hkeyboard, h.keyboard]
  cascade := by rw [hmaster, howed _ (Or.inl rfl), h.cascade]
  rtc := by rw [hslave, howed _ (Or.inr rfl), h.rtc]
  masterRest := by rw [hmaster]; exact h.masterRest
  slaveRest := by rw [hslave]; exact h.slaveRest

/-- An interrupt is taken: its handler has everything before it. -/
theorem owed_interrupt (b : Board) (t : Kernel) (pics : Pics) (ops : List Op) (o : Op) :
    Board.owed o { b with kernel := t, pics := pics, current := ops :: b.current }
      = ops.count o + b.owed o := by
  rw [owed_eq, owed_eq]
  simp [Nat.add_assoc]

theorem Balanced.interrupt (h : b.Balanced) (hctl : b.Controlled) (hquiet : Op.Quiet b.top)
    (hack : b.pics.acknowledge = some (v, pics)) :
    Balanced { b with
      kernel := b.kernel.cli, pics := pics
      current := Op.hardwareHandler v.toNat :: b.current } := by
  obtain ⟨htimer, hkeyboard⟩ := h.idle hquiet
  have hmode : b.pics.master.mode.getLsbD 1 = false := by
    rw [hctl.masterMode]
    decide
  have hmode' : b.pics.slave.mode.getLsbD 1 = false := by
    rw [hctl.slaveMode]
    decide
  rcases hctl.interrupt_cases hack with ⟨i, hlt, -, hv, rfl⟩ | ⟨hwins, hisr, hv, rfl⟩ <;> rw [hv]
  · obtain ⟨hscheduler, hcount, hcascade, hrtc⟩ := Op.owes_master i hlt
    exact
      { timer := by
          rw [Pic.isr_ack hmode, Function.update_apply, htimer]
          simpa [top] using hscheduler.symm
        keyboard := by
          rw [Pic.isr_ack hmode, Function.update_apply, hkeyboard]
          simpa [top] using hcount.symm
        cascade := by
          rw [Pic.isr_ack hmode, Function.update_of_ne (by omega), owed_interrupt, hcascade, h.cascade,
            Nat.zero_add]
        rtc := by rw [owed_interrupt, hrtc, h.rtc, Nat.zero_add]
        masterRest := fun j hj => by
          rw [Pic.isr_ack hmode, Function.update_of_ne (by omega)]
          exact h.masterRest j hj
        slaveRest := h.slaveRest }
  · obtain ⟨hscheduler, hcount, hcascade, hrtc⟩ := Op.owes_slave
    have hfree := h.cascade
    have hfree' := h.rtc
    rw [hisr 2 (Fin.le_refl 2)] at hfree
    rw [hwins.2.2 0 (Fin.le_refl 0)] at hfree'
    exact
      { timer := by
          rw [Pic.isr_ack hmode, Function.update_of_ne (by decide), htimer]
          simpa [top] using hscheduler
        keyboard := by
          rw [Pic.isr_ack hmode, Function.update_of_ne (by decide), hkeyboard]
          simpa [top] using hcount
        cascade := by
          rw [Pic.isr_ack hmode, Function.update_self, owed_interrupt, hcascade, ← hfree]
          rfl
        rtc := by
          rw [Pic.isr_ack hmode', Function.update_self, owed_interrupt, hrtc, ← hfree']
          rfl
        masterRest := fun j hj => by
          rw [Pic.isr_ack hmode, Function.update_of_ne (by omega)]
          exact h.masterRest j hj
        slaveRest := fun k hk => by
          rw [Pic.isr_ack hmode', Function.update_of_ne (by omega)]
          exact h.slaveRest k hk }

/-- An end of interrupt is written. -/
theorem Balanced.outb (h : b.Balanced) (hparts : b.top ∈ Op.parts) {value : BitVec 8}
    {port : BitVec 16} {ops : List Op} {context : Context}
    (hcur : b.current = (.outb value port :: ops) :: context) :
    Balanced { b with pics := b.pics.outb value port, current := ops :: context } := by
  have htop : b.top = .outb value port :: ops := by rw [top, hcur]; rfl
  have howed (o : Op) : b.owed o = Board.owed o { b with current := ops :: context } +
      if Op.outb value port = o then 1 else 0 := by
    rw [owed, htop, suspended, hcur, List.count_cons]
    simp only [owed, top, suspended, List.headD_cons, List.tail_cons, beq_iff_eq]
    omega
  have hcount : b.top.count .endKeyboard
      = ops.count .endKeyboard + if Op.outb value port = .endKeyboard then 1 else 0 := by
    rw [htop, List.count_cons]
    simp only [beq_iff_eq]
  have hscheduler : b.pics.master.isr 0 = decide (.scheduler ∈ ops) := by simp [h.timer, htop]
  have hle := Op.count_endKeyboard_le _ hparts
  have hkeyboard := h.keyboard
  have hcascade := h.cascade
  have hrtc := h.rtc
  rw [howed] at hcascade hrtc
  rw [hcount] at hle hkeyboard
  rw [htop] at hparts
  have hkeep {i j : Fin 8} (hne : j ≠ i) : Function.update b.pics.master.isr i false j
      = b.pics.master.isr j := Function.update_of_ne hne _ _
  rcases Op.outb_of_parts hparts with hend | hend | hend
  · rw [Op.outb_endKeyboard hend]
    rw [hend, if_pos rfl] at hle
    rw [hend, if_neg (by decide)] at hcascade hrtc
    have hlast : false = decide (ops.count .endKeyboard = 2) := by
      have hne : ops.count .endKeyboard ≠ 2 := by omega
      simp [hne]
    exact
      { timer := (hkeep (show (0 : Fin 8) ≠ 1 by decide)).trans hscheduler
        keyboard := (Function.update_self 1 false b.pics.master.isr).trans hlast
        cascade := (congrArg Bool.toNat (hkeep (show (2 : Fin 8) ≠ 1 by decide))).trans hcascade
        rtc := hrtc
        masterRest := fun j hj => (hkeep (show j ≠ 1 by omega)).trans (h.masterRest j hj)
        slaveRest := h.slaveRest }
  · rw [Op.outb_endRtc hend]
    rw [hend, if_neg (by decide)] at hcascade hkeyboard
    rw [hend, if_pos rfl] at hrtc
    have hlast : Bool.toNat false = Board.owed .endRtc { b with current := ops :: context } := by
      have hle := Bool.toNat_le (b.pics.slave.isr 0)
      rw [Bool.toNat_false]
      omega
    exact
      { timer := hscheduler
        keyboard := hkeyboard
        cascade := hcascade
        rtc := (congrArg Bool.toNat (Function.update_self 0 false b.pics.slave.isr)).trans hlast
        masterRest := h.masterRest
        slaveRest := fun k hk =>
          (Function.update_of_ne (show k ≠ 0 by omega) false b.pics.slave.isr).trans (h.slaveRest k hk) }
  · rw [Op.outb_endCascade hend]
    rw [hend, if_neg (by decide)] at hrtc hkeyboard
    rw [hend, if_pos rfl] at hcascade
    have hlast : Bool.toNat false = Board.owed .endCascade { b with current := ops :: context } := by
      have hle := Bool.toNat_le (b.pics.master.isr 2)
      rw [Bool.toNat_false]
      omega
    exact
      { timer := (hkeep (show (0 : Fin 8) ≠ 2 by decide)).trans hscheduler
        keyboard := (hkeep (show (1 : Fin 8) ≠ 2 by decide)).trans hkeyboard
        cascade := (congrArg Bool.toNat (Function.update_self 2 false b.pics.master.isr)).trans hlast
        rtc := hrtc
        masterRest := fun j hj => (hkeep (show j ≠ 2 by omega)).trans (h.masterRest j hj)
        slaveRest := h.slaveRest }

/-- An operation that is none of the ends of interrupt goes on with the next one. -/
theorem Balanced.skip (h : b.Balanced) {o : Op} {ops : List Op} {context : Context}
    (hcur : b.current = (o :: ops) :: context)
    (ho : o ∉ [.scheduler, .endKeyboard, .endRtc, .endCascade]) {t : Kernel} :
    Balanced { b with kernel := t, current := ops :: context } := by
  have htop : b.top = o :: ops := by rw [top, hcur]; rfl
  simp only [List.mem_cons, List.not_mem_nil, or_false, not_or] at ho
  refine h.congr rfl rfl ?_ ?_ ?_
  · simp [top, hcur, Ne.symm ho.1]
  · rw [htop, List.count_cons_of_ne ho.2.1]
    rfl
  · rintro x (rfl | rfl)
    · rw [owed, owed, htop, List.count_cons_of_ne ho.2.2.2, suspended, suspended, hcur]
      rfl
    · rw [owed, owed, htop, List.count_cons_of_ne ho.2.2.1, suspended, suspended, hcur]
      rfl

/-- **A tick** ends the interrupt of the timer. -/
theorem Balanced.tick (h : b.Balanced) (hord : b.Ordered) {ops : List Op} {context current : Context}
    {others abandoned : List Context} (hcur : b.current = (.scheduler :: ops) :: context)
    (hcases : Rescheduled b (ops :: context) current others abandoned) (t : Kernel) :
    Balanced { kernel := t, pics := b.pics.outb (0x60 ||| 0) 0x20
               current := current, others := others, abandoned := abandoned } := by
  have hpics : b.pics.outb (0x60 ||| 0) 0x20 = _ := b.pics.outb_endMaster 0
  obtain rfl : ops = [.sti] := by
    have hparts := hord.parts
    rw [top, hcur] at hparts
    exact Op.tail_of_scheduler _ hparts rfl
  have hkeep {j : Fin 8} (hne : j ≠ 0) : Function.update b.pics.master.isr 0 false j
      = b.pics.master.isr j := Function.update_of_ne hne _ _
  have howed {o : Op} (ho : Op.scheduler ≠ o) : b.owed o = Board.owed o
      { b with current := current, others := others, abandoned := abandoned } := by
    rw [owed_eq, owed_eq, owed_rescheduled hcases, hcur]
    simp [List.count_cons_of_ne ho]
  have hkeyboard := h.keyboard
  rw [top, hcur, List.headD_cons] at hkeyboard
  rw [hpics]
  refine .of_quiet (hord.rescheduled hcur hcases).1.head.2
    (Function.update_self 0 false b.pics.master.isr) ?_ ?_ ?_ ?_ h.slaveRest
  · exact (hkeep (by decide)).trans (hkeyboard.trans (by decide))
  · exact (congrArg Bool.toNat (hkeep (by decide))).trans (h.cascade.trans (howed (by decide)))
  · exact h.rtc.trans (howed (by decide))
  · exact fun j hj => (hkeep (by omega)).trans (h.masterRest j hj)

/-- **One step** keeps the balance. -/
theorem Balanced.step (h : b.Balanced) (hctl : b.Controlled) (hord : b.Ordered)
    (hstep : Step fs b m b') : b'.Balanced := by
  cases hstep with
  | request n =>
    obtain ⟨hmaster, hslave⟩ := b.pics.isr_request n
    exact h.congr hmaster hslave Iff.rfl rfl fun _ _ => rfl
  | interrupt hif hack => exact h.interrupt hctl (hord.flag hif) hack
  | effect hcur heffect =>
    refine h.skip hcur ?_
    cases heffect <;> decide
  | outb hcur => exact h.outb hord.parts hcur
  | scheduler hcur htick =>
    obtain ⟨_, _, _, hcases, heq⟩ := b.reschedule_cases _ _
    rw [heq]
    exact h.tick hord hcur hcases _
  | iret hcur =>
    rename_i context
    have hquiet := hord.quiet
    rw [suspended, hcur, List.forall_mem_cons] at hquiet
    have htop : b.top = [] := by rw [top, hcur]; rfl
    obtain ⟨htimer, hkeyboard⟩ := h.idle (by rw [htop]; decide)
    have howed (o : Op) : b.owed o = Board.owed o { b.sti with current := context } := by
      rw [owed_eq, owed_eq, hcur]
      rfl
    exact .of_quiet hquiet.1.head.2 htimer hkeyboard (h.cascade.trans (howed _))
      (h.rtc.trans (howed _)) h.masterRest h.slaveRest
  | cli hcur | sti hcur | call hcur => exact h.congr rfl rfl Iff.rfl rfl fun _ _ => rfl
  | enableTimer hcur =>
    have hpics : (b.enableIrq 0).pics = _ := hctl.outb_mask (b.kernel.enableIrq 0).masterMask
    exact h.congr (by rw [hpics]) (by rw [hpics]) Iff.rfl rfl fun _ _ => rfl
  | disableTimer hcur =>
    have hpics : (b.disableIrq 0).pics = _ := hctl.outb_mask (b.kernel.disableIrq 0).masterMask
    exact h.congr (by rw [hpics]) (by rw [hpics]) Iff.rfl rfl fun _ _ => rfl

/-! ### Runs -/

/-- The controllers, the order of the handlers and the services are right. -/
structure InService (b : Board) : Prop where
  controlled : b.Controlled
  ordered : b.Ordered
  balanced : b.Balanced

/-- **One step** keeps it. -/
theorem InService.step (h : b.InService) (hstep : Step fs b m b') : b'.InService where
  controlled := h.controlled.step h.ordered.parts hstep
  ordered := h.ordered.step h.controlled hstep
  balanced := h.balanced.step h.controlled h.ordered hstep

/-- **Every run** keeps it. -/
theorem InService.run {ms : List Move} (h : b.InService) (hr : Run (Step fs) b ms b') :
    b'.InService :=
  hr.invariant (fun _ _ _ hb hstep => hb.step hstep) h

/-- The lines of the first controller that can win. -/
theorem InService.wins_master (h : b.InService) (hflag : b.kernel.interruptFlag = true) :
    (b.pics.wired.Wins 0 ↔ b.pics.master.irr 0 ∧ b.kernel.masterMask.getLsbD 0 = false) ∧
    (b.pics.wired.Wins 1 ↔ b.pics.master.irr 1) ∧
    (b.pics.wired.Wins 2 ↔ b.pics.slave.Wins 0 ∧ b.pics.master.isr 2 = false) ∧
    ∀ i > 2, ¬ b.pics.wired.Wins i := by
  obtain ⟨htimer, hkeyboard⟩ := h.balanced.idle (h.ordered.flag hflag)
  have himr := h.controlled.masterImr
  have hopen : b.pics.master.imr 1 = false ∧ b.pics.master.imr 2 = false ∧
      ∀ i > 2, b.pics.master.imr i = true := by
    simp only [himr]
    rcases h.controlled.masterMask with hmask | hmask <;> rw [hmask] <;> decide
  have hslave : ∀ k, b.pics.slave.Wins k → k = 0 := by
    have hbit : ∀ k : Fin 8, (0xFE : BitVec 8).getLsbD k = false → k = 0 := by decide
    intro k hk
    have hmask := hk.2.1
    rw [h.controlled.slaveImr, h.controlled.slaveMask] at hmask
    exact hbit k hmask
  have hfirst : ∀ i : Fin 8, i = 0 ∨ i = 1 → ∀ j ≤ i, b.pics.master.isr j = false := by
    intro i hi j hj
    have hcases : j = 0 ∨ j = 1 := by omega
    rcases hcases with rfl | rfl <;> assumption
  refine ⟨?_, ?_, ?_, fun i hi hwins => ?_⟩
  · rw [Pics.wins_wired_of_ne (by decide)]
    exact ⟨fun hw => ⟨hw.1, (himr 0).symm.trans hw.2.1⟩,
      fun hw => ⟨hw.1, (himr 0).trans hw.2, hfirst 0 (Or.inl rfl)⟩⟩
  · rw [Pics.wins_wired_of_ne (by decide)]
    exact ⟨fun hw => hw.1, fun hw => ⟨hw, hopen.1, hfirst 1 (Or.inr rfl)⟩⟩
  · rw [Pics.wins_wired_two]
    constructor
    · rintro ⟨⟨k, hk⟩, -, hisr⟩
      obtain rfl := hslave k hk
      exact ⟨hk, hisr 2 (Fin.le_refl 2)⟩
    · rintro ⟨hk, htwo⟩
      refine ⟨⟨0, hk⟩, hopen.2.1, fun j hj => ?_⟩
      have hcases : j = 0 ∨ j = 1 ∨ j = 2 := by omega
      rcases hcases with rfl | rfl | rfl <;> assumption
  · have hmask := ((Pics.wins_wired_of_ne (by omega)).1 hwins).2.1
    rw [hopen.2.2 i hi] at hmask
    exact Bool.false_ne_true hmask.symm

/-- The end of interrupt for line 2 comes after the one for line 8. -/
theorem Ordered.owed_le (h : b.Ordered) : b.owed .endRtc ≤ b.owed .endCascade := by
  have hparts : ∀ ops ∈ Op.parts, ops.count .endRtc ≤ ops.count .endCascade := by decide
  have hcontext : ∀ c : Context, (∀ ops ∈ c, ops ∈ Op.parts) →
      c.flatten.count .endRtc ≤ c.flatten.count .endCascade := by
    intro c hc
    induction c with
    | nil => exact Nat.le_refl _
    | cons ops c ih =>
      rw [List.forall_mem_cons] at hc
      rw [List.flatten_cons, List.count_append, List.count_append]
      exact Nat.add_le_add (hparts ops hc.1) (ih hc.2)
  refine Nat.add_le_add (hparts _ h.parts) (hcontext _ fun ops hops => ?_)
  obtain ⟨c, hc, hmem⟩ := List.mem_flatten.1 hops
  exact (h.quiet c hc ops hmem).1

/-- The RTC can win when no context has still to end an interrupt of it. -/
theorem InService.wins_rtc (h : b.InService) :
    b.pics.slave.Wins 0 ∧ b.pics.master.isr 2 = false ↔
      b.pics.slave.irr 0 ∧ b.owed .endCascade = 0 := by
  have hcascade := h.balanced.cascade
  have hrtc := h.balanced.rtc
  have hle := h.ordered.owed_le
  have hopen : b.pics.slave.imr 0 = false := by
    rw [h.controlled.slaveImr, h.controlled.slaveMask]
    decide
  constructor
  · rintro ⟨hwins, htwo⟩
    rw [htwo] at hcascade
    exact ⟨hwins.1, hcascade.symm⟩
  · rintro ⟨hirr, howed⟩
    rw [howed] at hcascade hle
    rw [Nat.le_zero.1 hle] at hrtc
    refine ⟨⟨hirr, hopen, fun j hj => ?_⟩, by simpa using hcascade⟩
    obtain rfl : j = 0 := by omega
    simpa using hrtc

/-- The next interrupt that the processor takes. -/
def next (b : Board) : Option ℕ := b.pics.acknowledge.map fun p => p.1.toNat

theorem InService.next (h : b.InService) (hflag : b.kernel.interruptFlag = true) :
    b.next =
      if b.pics.master.irr 0 ∧ b.kernel.masterMask.getLsbD 0 = false then some 32
      else if b.pics.master.irr 1 then some 33
      else if b.pics.slave.irr 0 ∧ b.owed .endCascade = 0 then some 40
      else none := by
  obtain ⟨htimer, hkeyboard, hrtc, hrest⟩ := h.wins_master hflag
  have hslave := h.wins_rtc
  rw [hslave] at hrtc
  unfold Board.next
  split_ifs with h0 h1 h2
  · have hint : b.pics.wired.int = some 0 :=
      Pic.int_eq_some_iff.2 ⟨htimer.2 h0, fun j hj => absurd hj (Fin.not_lt_zero j)⟩
    rw [Pics.acknowledge_master hint (by decide), h.controlled.masterBase]
    rfl
  · have hint : b.pics.wired.int = some 1 := by
      refine Pic.int_eq_some_iff.2 ⟨hkeyboard.2 h1, fun j hj => ?_⟩
      obtain rfl : j = 0 := by omega
      exact fun hwins => h0 (htimer.1 hwins)
    rw [Pics.acknowledge_master hint (by decide), h.controlled.masterBase]
    rfl
  · have hint : b.pics.wired.int = some 2 := by
      refine Pic.int_eq_some_iff.2 ⟨hrtc.2 h2, fun j hj => ?_⟩
      have hcases : j = 0 ∨ j = 1 := by omega
      rcases hcases with rfl | rfl
      · exact fun hwins => h0 (htimer.1 hwins)
      · exact fun hwins => h1 (hkeyboard.1 hwins)
    have hk : b.pics.slave.int = some 0 :=
      Pic.int_eq_some_iff.2 ⟨(hslave.2 h2).1, fun j hj => absurd hj (Fin.not_lt_zero j)⟩
    rw [Pics.acknowledge_slave hint hk (by rw [h.controlled.cascade]; decide),
      h.controlled.slaveBase]
    rfl
  · have hint : b.pics.wired.int = none := by
      refine Pic.int_eq_none_iff.2 fun j hwins => ?_
      have hcases : j = 0 ∨ j = 1 ∨ j = 2 ∨ 2 < j := by omega
      rcases hcases with rfl | rfl | rfl | hj
      · exact h0 (htimer.1 hwins)
      · exact h1 (hkeyboard.1 hwins)
      · exact h2 (hrtc.1 hwins)
      · exact hrest j hj hwins
    unfold Pics.acknowledge
    rw [hint]
    rfl

/-! ### From power-on -/

/-- Before `entry`: the masks are as `i8259.c` initialises them, no handler runs, and the
controllers are as the firmware left them. -/
structure Off (b : Board) : Prop where
  masterMask : b.kernel.masterMask = 0xFF
  slaveMask : b.kernel.slaveMask = 0xFF
  current : b.current = []
  others : b.others = []
  abandoned : b.abandoned = []

/-- **`entry`** sets up the controllers, whatever state they are in. -/
theorem Off.inService_entry (h : b.Off) : b.entry.InService := by
  have hmaster : b.entry.kernel.masterMask = 0xF8 := by
    change ((b.kernel.masterMask &&& _) &&& _) &&& _ = _
    rw [h.masterMask]
    decide
  have hslave : b.entry.kernel.slaveMask = 0xFE := by
    change b.kernel.slaveMask &&& _ = _
    rw [h.slaveMask]
    decide
  refine ⟨?_, ?_, ?_⟩
  · exact
      { masterReady := rfl
        slaveReady := rfl
        masterBase := rfl
        slaveBase := rfl
        cascade := rfl
        masterMode := rfl
        slaveMode := rfl
        masterImr := fun _ => rfl
        slaveImr := fun _ => rfl
        masterMask := Or.inl hmaster
        slaveMask := hslave }
  · have hcurrent : b.entry.current = [] := h.current
    have hothers : b.entry.others ++ b.entry.abandoned = [] :=
      List.append_eq_nil_iff.2 ⟨h.others, h.abandoned⟩
    refine .of_quiet ?_ ?_
    · rw [hcurrent]
      exact allQuiet_nil
    · rw [hothers]
      exact List.forall_mem_nil _
  · have howed (o : Op) : b.entry.owed o = 0 := by
      have heq : b.entry.owed o = b.owed o := rfl
      rw [heq, owed_eq, h.current, h.others, h.abandoned]
      rfl
    have htop : b.entry.top = [] := by
      rw [top, show b.entry.current = [] from h.current]
      rfl
    exact .of_quiet (by rw [htop]; decide) rfl rfl (howed _).symm (howed _).symm
      (fun _ _ => rfl) fun _ _ => rfl

/-- Power-on, with the controllers in no particular state. -/
def offBoard : Board where
  kernel := { powerOnKernel with masterMask := 0xFF, slaveMask := 0xFF }
  pics :=
    { master :=
        { irr := fun _ => true, isr := fun _ => true, imr := fun _ => false
          expects := [.mode], base := 0x70, cascade := 0, mode := 3 }
      slave :=
        { irr := fun _ => false, isr := fun _ => true, imr := fun _ => false
          expects := [], base := 0x70, cascade := 0, mode := 3 } }
  current := []
  others := []
  abandoned := []

theorem off_offBoard : offBoard.Off := ⟨rfl, rfl, rfl, rfl, rfl⟩

/-- The RTC has interrupted, and its handler has set `IF`. -/
def rtcMoves : List Move := [.request ⟨8, by decide⟩, .interrupt 40, .op .cli, .op .rtc]

theorem exists_run_rtcMoves : ∃ b, Run (Step shellImage) offBoard.entry rtcMoves b ∧
    b.kernel.interruptFlag = true :=
  ⟨_, .cons (.request _ 8) (.cons (.interrupt rfl rfl)
    (.cons (.effect rfl (.cli _)) (.single (.effect rfl (.rtc _))))), rfl⟩

/-- **What is in service** in any run from power-on is what the handlers have still to end. -/
theorem balanced_of_run {ms : List Move} (h : b.Off) (hr : Run (Step fs) b.entry ms b') :
    b'.Balanced :=
  (h.inService_entry.run hr).balanced

theorem balanced_of_run_rtc :
    ∃ b, Run (Step shellImage) offBoard.entry rtcMoves b ∧ b.Balanced := by
  obtain ⟨b, hr, -⟩ := exists_run_rtcMoves
  exact ⟨b, hr, balanced_of_run off_offBoard hr⟩

/-- **What comes next.**  Whatever is unfinished in any context, with interrupts on the timer
comes first unless it is masked, then the keyboard; the RTC comes last, and only if no context
has still to end an interrupt of the RTC. -/
theorem next_of_run {ms : List Move} (h : b.Off) (hr : Run (Step fs) b.entry ms b')
    (hflag : b'.kernel.interruptFlag = true) :
    b'.next =
      if b'.pics.master.irr 0 ∧ b'.kernel.masterMask.getLsbD 0 = false then some 32
      else if b'.pics.master.irr 1 then some 33
      else if b'.pics.slave.irr 0 ∧ b'.owed .endCascade = 0 then some 40
      else none :=
  (h.inService_entry.run hr).next hflag

theorem next_of_run_rtc : ∃ b, Run (Step shellImage) offBoard.entry rtcMoves b ∧
    b.next =
      if b.pics.master.irr 0 ∧ b.kernel.masterMask.getLsbD 0 = false then some 32
      else if b.pics.master.irr 1 then some 33
      else if b.pics.slave.irr 0 ∧ b.owed .endCascade = 0 then some 40
      else none := by
  obtain ⟨b, hr, hflag⟩ := exists_run_rtcMoves
  exact ⟨b, hr, next_of_run off_offBoard hr hflag⟩

/-- **One at a time.**  Handlers are interrupted and preempted in any order, but a handler that
has still to call the scheduler, to handle its key or to count for the RTC is the innermost of
the running context, and interrupts are off. -/
theorem exclusive_of_run {ms : List Move} (h : b.Off) (hr : Run (Step fs) b.entry ms b') {o : Op}
    (ho : o.Works) : b'.suspended.flatten.flatten.count o = 0 ∧
      (o ∈ b'.top → b'.kernel.interruptFlag = false) := by
  have hord := (h.inService_entry.run hr).ordered
  constructor
  · rw [List.count_eq_zero]
    intro hmem
    obtain ⟨ops, hops, hmem⟩ := List.mem_flatten.1 hmem
    obtain ⟨c, hc, hops⟩ := List.mem_flatten.1 hops
    exact (hord.quiet c hc ops hops).2.1 o hmem ho
  · intro hmem
    by_contra hflag
    exact (hord.flag (by simpa using hflag)).1 o hmem ho

theorem exclusive_of_run_rtc : ∃ b, Run (Step shellImage) offBoard.entry rtcMoves b ∧
    b.suspended.flatten.flatten.count .scheduler = 0 ∧
      (.scheduler ∈ b.top → b.kernel.interruptFlag = false) := by
  obtain ⟨b, hr, -⟩ := exists_run_rtcMoves
  exact ⟨b, hr, exclusive_of_run off_offBoard hr (Or.inl rfl)⟩

/-! ### The kernel -/

end Board

end OS391
