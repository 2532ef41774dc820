/-
# Whether the RTC can interrupt again

An interrupt of the RTC is in service until its handler has written both ends of interrupt, and
until then no other one is taken.  A tick can come in between; the handler then waits for the
turn of its terminal.  Only the first tick waits for nothing: it abandons what it interrupts, and
if that is the handler of the RTC there will be no other interrupt of the RTC
(`Board.rtc_dead_of_run`).  In all other cases there is a way on to the next one
(`Board.rtc_alive_iff`).
-/

import OS391.InService

namespace OS391

open Lib

namespace Board

variable {fs : FileSys} {b b' b'' : Board} {m : Move}

/-! ### When it is silent -/

/-- Nothing returns to an abandoned context, and nothing removes one. -/
theorem abandoned_of_step {c : Context} (hc : c ∈ b.abandoned) (hstep : Step fs b m b') :
    c ∈ b'.abandoned := by
  cases hstep with
  | scheduler hcur htick =>
    obtain ⟨_, _, _, hcases, heq⟩ := b.reschedule_cases _ _
    rw [heq]
    cases hcases with
    | first => exact List.mem_cons_of_mem _ hc
    | back | shell | turn => exact hc
  | _ => exact hc

/-- The processor does not take an interrupt of the RTC while one is to be ended. -/
theorem InService.owed_of_interrupt (h : b.InService) (hstep : Step fs b (.interrupt 40) b') :
    b.owed .endCascade = 0 := by
  cases hstep with
  | interrupt hflag hack =>
    have hcascade := h.balanced.cascade
    rcases h.controlled.interrupt_cases hack with ⟨i, hlt, -, hv, -⟩ | ⟨-, hisr, -, -⟩
    · have hv' : (40 : BitVec 8).toNat = 32 + (i : ℕ) := hv
      rw [show (40 : BitVec 8).toNat = 40 by decide] at hv'
      omega
    · rw [hisr 2 (Fin.le_refl 2)] at hcascade
      exact hcascade.symm

/-- **The end of the RTC.**  A context that has still to end an interrupt of the RTC and that
nothing returns to keeps the RTC from interrupting ever again. -/
theorem InService.rtc_dead {ms : List Move} (h : b.InService) {c : Context}
    (hc : c ∈ b.abandoned) (howed : .endCascade ∈ c.flatten) (hr : Run (Step fs) b ms b') :
    Move.interrupt 40 ∉ ms := by
  induction hr with
  | nil => exact List.not_mem_nil
  | cons hstep hr ih =>
    intro hmem
    rcases List.mem_cons.1 hmem with rfl | hmem
    · have hzero := Nat.add_eq_zero_iff.1 (h.owed_of_interrupt hstep)
      refine List.count_eq_zero.1 hzero.2 (List.mem_flatten.2 ?_)
      obtain ⟨ops, hops, hmem⟩ := List.mem_flatten.1 howed
      refine ⟨ops, List.mem_flatten.2 ⟨c, ?_, hops⟩, hmem⟩
      exact List.mem_cons_of_mem _ (List.mem_append_right _ hc)
    · exact ih (h.step hstep) (abandoned_of_step hc hstep) hmem

/-- **The first tick can silence the RTC.**  A run from power-on comes to the tick that starts the
first shell, and what that interrupts has still to end an interrupt of the RTC: this context is
abandoned, and there will be no other interrupt of the RTC. -/
theorem rtc_dead_of_run {ms ms' : List Move} {b₀ b₁ b₂ b₃ : Board} (h : b₀.Off)
    (hr : Run (Step fs) b₀.entry ms b₁) (htick : Step fs b₁ (.op .scheduler) b₂)
    (hfirst : b₁.kernel.pitCount = 0) (hshell : b₂.kernel.pitCount ≠ 0)
    (howed : .endCascade ∈ b₁.current.flatten) (hr' : Run (Step fs) b₂ ms' b₃) :
    (∃ c ∈ b₂.abandoned, .endCascade ∈ c.flatten) ∧ Move.interrupt 40 ∉ ms' := by
  have h₂ := (h.inService_entry.run hr).step htick
  obtain ⟨c, hc, hends⟩ : ∃ c ∈ b₂.abandoned, .endCascade ∈ c.flatten := by
    cases htick with
    | effect _ heffect => exact nomatch heffect
    | scheduler hcur hkernel =>
      rename_i ops context _ _ _ t
      have hstart : b₁.reschedule t (ops :: context) =
          { kernel := t, pics := b₁.pics.outb (0x60 ||| 0) 0x20, current := [], others := b₁.others
            abandoned := (ops :: context) :: b₁.abandoned } := by
        obtain ⟨_, _, _, -, heq⟩ := b₁.reschedule_cases t (ops :: context)
        rw [heq] at hshell
        rw [Board.reschedule, hfirst, if_pos (by omega), if_neg hshell, if_pos rfl]
      rw [hcur] at howed
      refine ⟨ops :: context, ?_, (List.mem_cons.1 howed).resolve_left (by decide)⟩
      rw [hstart]
      exact List.mem_cons_self
  exact ⟨⟨c, hc, hends⟩, h₂.rtc_dead hc hends hr'⟩

/-- The timer interrupts the handler of the RTC. -/
theorem rtc_dead_of_run_nested : ∃ b₁ b₂ b₃,
    Run (Step shellImage) offBoard.entry
      (rtcMoves ++ [.request 0, .interrupt 32, .op .cli, .op .cli]) b₁ ∧
    Step shellImage b₁ (.op .scheduler) b₂ ∧ Run (Step shellImage) b₂ [.request 8] b₃ ∧
    (∃ c ∈ b₂.abandoned, .endCascade ∈ c.flatten) ∧ Move.interrupt 40 ∉ [Move.request 8] := by
  obtain ⟨b₁, hr, hcur, hpit, hstart⟩ : ∃ b₁, Run (Step shellImage) offBoard.entry
      (rtcMoves ++ [.request 0, .interrupt 32, .op .cli, .op .cli]) b₁ ∧
      b₁.current = [[.scheduler, .sti], [.sti, .endRtc, .endCascade]] ∧ b₁.kernel.pitCount = 0 ∧
      ((b₁.kernel.withRegisters 0 0).scheduler shellImage zeroFrame).pitCount ≠ 0 :=
    ⟨_, .cons (.request _ 8) <| .cons (.interrupt rfl rfl) <| .cons (.effect rfl (.cli _)) <|
      .cons (.effect rfl (.rtc _)) <| .cons (.request _ 0) <| .cons (.interrupt rfl rfl) <|
        .cons (.effect rfl (.cli _)) <| .single (.effect rfl (.cli _)), rfl, rfl,
      by decide +kernel⟩
  have htick : Step shellImage b₁ (.op .scheduler) _ :=
    .scheduler hcur (.tick b₁.kernel 0 0 zeroFrame)
  refine ⟨b₁, _, _, hr, htick, .single (.request _ 8), ?_⟩
  refine rtc_dead_of_run off_offBoard hr htick hpit ?_ ?_ (.single (.request _ 8))
  · obtain ⟨_, _, _, -, heq⟩ := b₁.reschedule_cases
      ((b₁.kernel.withRegisters 0 0).scheduler shellImage zeroFrame)
      [[.sti], [.sti, .endRtc, .endCascade]]
    rw [heq]
    exact hstart
  · rw [hcur]
    decide

/-! ### When it is not -/

/-- What the operations of a handler leave alone, but for the scheduler. -/
structure Leaves (b b' : Board) : Prop where
  others : b'.others = b.others
  abandoned : b'.abandoned = b.abandoned
  pitCount : b'.kernel.pitCount = b.kernel.pitCount
  masterMask : b'.kernel.masterMask = b.kernel.masterMask
  irr : b'.pics.master.irr = b.pics.master.irr

theorem Leaves.trans (h : b.Leaves b') (h' : b'.Leaves b'') : b.Leaves b'' where
  others := h'.others.trans h.others
  abandoned := h'.abandoned.trans h.abandoned
  pitCount := h'.pitCount.trans h.pitCount
  masterMask := h'.masterMask.trans h.masterMask
  irr := h'.irr.trans h.irr

/-- The next operation of a handler can be done. -/
theorem InService.exists_op (h : b.InService) (fs : FileSys) {o : Op} {ops : List Op}
    {context : Context} (hcur : b.current = (o :: ops) :: context) (ho : o ≠ .scheduler) :
    ∃ b', Step fs b (.op o) b' ∧ b'.current = ops :: context ∧ b.Leaves b' := by
  cases o with
  | cli => exact ⟨_, .effect hcur (.cli _), rfl, rfl, rfl, rfl, rfl, rfl⟩
  | sti => exact ⟨_, .effect hcur (.sti _), rfl, rfl, rfl, rfl, rfl, rfl⟩
  | rtc => exact ⟨_, .effect hcur (.rtc _), rfl, rfl, rfl, rfl, rfl, rfl⟩
  | keyboard =>
    exact ⟨_, .effect hcur (.keyboard _ default 0), rfl, rfl, rfl, rfl, rfl, rfl⟩
  | scheduler => exact absurd rfl ho
  | outb value port =>
    have hparts := h.ordered.parts
    rw [top, hcur] at hparts
    refine ⟨_, .outb hcur, rfl, rfl, rfl, rfl, rfl, ?_⟩
    rcases Op.outb_of_parts hparts with hend | hend | hend
    · rw [Op.outb_endKeyboard hend]
    · rw [Op.outb_endRtc hend]
    · rw [Op.outb_endCascade hend]

/-- A handler that does not call the scheduler can go on until it returns. -/
theorem InService.exists_return (h : b.InService) (fs : FileSys) {ops : List Op}
    {context : Context} (hcur : b.current = ops :: context) (hops : .scheduler ∉ ops) :
    ∃ ms b', Run (Step fs) b ms b' ∧ b'.current = context ∧ b.Leaves b' := by
  induction ops generalizing b with
  | nil => exact ⟨_, _, .single (.iret hcur), rfl, rfl, rfl, rfl, rfl, rfl⟩
  | cons o ops ih =>
    rw [List.mem_cons, not_or] at hops
    obtain ⟨b₁, hstep, hcur₁, hleaves₁⟩ := h.exists_op fs hcur (Ne.symm hops.1)
    obtain ⟨ms, b₂, hr, hcur₂, hleaves₂⟩ := ih (h.step hstep) hcur₁ hops.2
    exact ⟨_, b₂, .cons hstep hr, hcur₂, hleaves₁.trans hleaves₂⟩

/-- So can all handlers of the running context. -/
theorem InService.exists_drain (h : b.InService) (fs : FileSys)
    (hops : ∀ ops ∈ b.current, .scheduler ∉ ops) :
    ∃ ms b', Run (Step fs) b ms b' ∧ b'.current = [] ∧ b.Leaves b' := by
  induction hcur : b.current generalizing b with
  | nil => exact ⟨[], b, .nil b, hcur, rfl, rfl, rfl, rfl, rfl⟩
  | cons ops context ih =>
    rw [hcur, List.forall_mem_cons] at hops
    obtain ⟨ms₁, b₁, hr₁, hcur₁, hleaves₁⟩ := h.exists_return fs hcur hops.1
    obtain ⟨ms₂, b₂, hr₂, hcur₂, hleaves₂⟩ := ih (h.run hr₁) (by rw [hcur₁]; exact hops.2) hcur₁
    exact ⟨_, b₂, hr₁.append hr₂, hcur₂, hleaves₁.trans hleaves₂⟩

/-- After the first three ticks, ticks count no further than to four. -/
theorem le_pitCount_scheduler {s : Kernel} (h : 3 ≤ s.pitCount) (frame : Frame) :
    3 ≤ (s.scheduler fs frame).pitCount := by
  unfold Kernel.scheduler
  rw [if_neg (by omega), if_neg (by omega)]
  change 3 ≤ s.saveContext.finishBoot.pitCount
  unfold Kernel.finishBoot
  split_ifs
  · exact Nat.le_succ_of_le h
  · exact h

theorem reschedule_of_le (hpit : 3 ≤ b.kernel.pitCount) (t : Kernel) (context : Context) :
    (b.reschedule t context).kernel = t ∧
    (b.reschedule t context).abandoned = b.abandoned ∧
    ∀ next others, b.others = next :: others →
      (b.reschedule t context).current = next ∧
      (b.reschedule t context).others = others ++ [context] := by
  unfold reschedule
  rw [if_neg (by omega)]
  split
  · rename_i hnil
    exact ⟨rfl, rfl, fun _ _ h => absurd (hnil.symm.trans h) (List.cons_ne_nil _ _).symm⟩
  · rename_i hcons
    refine ⟨rfl, rfl, fun next others h => ?_⟩
    obtain ⟨rfl, rfl⟩ := List.cons.inj (hcons.symm.trans h)
    exact ⟨rfl, rfl⟩

/-- A handler that is to call the scheduler can go on to do so. -/
theorem InService.exists_scheduler (h : b.InService) (fs : FileSys) {ops : List Op}
    {context : Context} (hcur : b.current = ops :: context) (hops : .scheduler ∈ ops)
    (hpit : 3 ≤ b.kernel.pitCount) :
    ∃ ms b', Run (Step fs) b ms b' ∧ 3 ≤ b'.kernel.pitCount ∧ b'.abandoned = b.abandoned ∧
      AllQuiet b'.current ∧ ∀ next others, b.others = next :: others → b'.current = next ∧
        b'.others = others ++ [[.sti] :: context] := by
  induction ops generalizing b with
  | nil => exact absurd hops List.not_mem_nil
  | cons o ops ih =>
    rcases eq_or_ne o .scheduler with rfl | ho
    · have hparts := h.ordered.parts
      rw [top, hcur] at hparts
      obtain rfl : ops = [.sti] := Op.tail_of_scheduler _ hparts rfl
      obtain ⟨hkernel, habandoned, hothers⟩ := reschedule_of_le hpit
        ((b.kernel.withRegisters 0 0).scheduler fs zeroFrame) ([.sti] :: context)
      refine ⟨_, _, .single (.scheduler hcur (.tick b.kernel 0 0 zeroFrame)), ?_, habandoned, ?_,
        hothers⟩
      · have hle : 3 ≤ (b.kernel.withRegisters 0 0).pitCount := hpit
        rw [hkernel]
        exact le_pitCount_scheduler hle zeroFrame
      · obtain ⟨_, _, _, hcases, heq⟩ := b.reschedule_cases
          ((b.kernel.withRegisters 0 0).scheduler fs zeroFrame) ([.sti] :: context)
        rw [heq]
        exact (h.ordered.rescheduled hcur hcases).1
    · have hmem := (List.mem_cons.1 hops).resolve_left (Ne.symm ho)
      obtain ⟨b₁, hstep, hcur₁, hleaves₁⟩ := h.exists_op fs hcur ho
      rw [← hleaves₁.pitCount] at hpit
      obtain ⟨ms, b₂, hr, hpit₂, habandoned₂, hquiet₂, hothers₂⟩ :=
        ih (h.step hstep) hcur₁ hmem hpit
      exact ⟨_, b₂, .cons hstep hr, hpit₂, habandoned₂.trans hleaves₁.abandoned, hquiet₂,
        fun next others hothers => hothers₂ next others (hleaves₁.others.trans hothers)⟩

/-- The kernel when the timer, unmasked, has interrupted a program. -/
def interrupted (s : Kernel) : Kernel := (s.enableIrq 0).sti.cli.cli.cli

/-- The timer can interrupt the program that runs. -/
theorem InService.exists_timer (h : b.InService) (fs : FileSys) (hcur : b.current = []) :
    ∃ ms b', Run (Step fs) b ms b' ∧ b'.kernel = interrupted b.kernel ∧
      b'.current = [[.scheduler, .sti]] ∧ b'.others = b.others ∧ b'.abandoned = b.abandoned := by
  have hr₁ : Run (Step fs) b [.enableTimer, .sti, .request 0] _ :=
    .cons (.enableTimer hcur) (.cons (.sti hcur) (.single (.request _ 0)))
  set b₁ : Board := { (b.enableIrq 0).sti with pics := ((b.enableIrq 0).sti).pics.request 0 }
  have h₁ := h.run hr₁
  have hnext : b₁.next = some 32 := by
    have hmask : (b.kernel.masterMask &&& ~~~(1#8 <<< 0)).getLsbD 0 = false := by simp
    rw [h₁.next rfl, if_pos ⟨rfl, hmask⟩]
  obtain ⟨⟨v, pics⟩, hack, hv⟩ := Option.map_eq_some_iff.1 hnext
  obtain rfl : v = 32 := BitVec.eq_of_toNat_eq hv
  have hr₂ : Run (Step fs) b₁ [.interrupt 32, .op .cli, .op .cli] _ :=
    .cons (.interrupt rfl hack) (.cons (.effect rfl (.cli _)) (.single (.effect rfl (.cli _))))
  refine ⟨_, _, hr₁.append hr₂, rfl, ?_, rfl, rfl⟩
  change [.scheduler, .sti] :: b.current = _
  rw [hcur]

/-- The next terminal can have its turn. -/
theorem InService.exists_tick (h : b.InService) (fs : FileSys) (hcur : b.current = [])
    (hpit : 3 ≤ b.kernel.pitCount) :
    ∃ ms b', Run (Step fs) b ms b' ∧ 3 ≤ b'.kernel.pitCount ∧ b'.abandoned = b.abandoned ∧
      ∀ next others, b.others = next :: others → b'.current = next ∧
        b'.others = others ++ [[[.sti]]] := by
  obtain ⟨ms₁, b₁, hr₁, hkernel₁, hcur₁, hothers₁, habandoned₁⟩ := h.exists_timer fs hcur
  have hpit₁ : 3 ≤ b₁.kernel.pitCount := by
    rw [hkernel₁]
    exact hpit
  obtain ⟨ms₂, b₂, hr₂, hpit₂, habandoned₂, -, hothers₂⟩ :=
    (h.run hr₁).exists_scheduler fs hcur₁ List.mem_cons_self hpit₁
  rw [hothers₁] at hothers₂
  exact ⟨_, b₂, hr₁.append hr₂, hpit₂, habandoned₂.trans habandoned₁, hothers₂⟩

/-- In the first three ticks, a shell can start. -/
theorem InService.exists_shell (h : b.InService) (fs : FileSys) (hcur : b.current = [])
    (hpit : b.kernel.pitCount < 3) {t : Kernel}
    (ht : t = ((interrupted b.kernel).withRegisters 0 0).scheduler fs zeroFrame)
    (hshell : t.pitCount ≠ b.kernel.pitCount) :
    ∃ ms b', Run (Step fs) b ms b' ∧ b'.kernel = t ∧ b'.current = [] := by
  obtain ⟨ms₁, b₁, hr₁, hkernel₁, hcur₁, -, -⟩ := h.exists_timer fs hcur
  have hpit₁ : b₁.kernel.pitCount = b.kernel.pitCount := by
    rw [hkernel₁]
    rfl
  have htick : OS391.Step fs b₁.kernel (.tick 0 0 zeroFrame) t := by
    rw [ht, ← hkernel₁]
    exact .tick b₁.kernel 0 0 zeroFrame
  have hr₂ : Run (Step fs) b₁ [.op .scheduler] (b₁.reschedule t [[.sti]]) :=
    .single (.scheduler hcur₁ htick)
  refine ⟨_, _, hr₁.append hr₂, ?_⟩
  unfold reschedule
  rw [hpit₁, if_pos hpit, if_neg hshell]
  split_ifs <;> exact ⟨rfl, rfl⟩

theorem AllQuiet.no_scheduler {c : Context} (h : AllQuiet c) : ∀ ops ∈ c, .scheduler ∉ ops :=
  fun ops hops hmem => (h ops hops).2.1 _ hmem (Or.inl rfl)

/-- The context has no interrupt of the RTC to end. -/
def Clear (c : Context) : Prop := .endCascade ∉ c.flatten

theorem owed_eq_zero_iff : b.owed .endCascade = 0 ↔
    Clear b.current ∧ (∀ c ∈ b.others, Clear c) ∧ ∀ c ∈ b.abandoned, Clear c := by
  have hflatten (l : List Context) : .endCascade ∉ l.flatten.flatten ↔ ∀ c ∈ l, Clear c := by
    induction l with
    | nil => simp
    | cons c l ih =>
      rw [List.flatten_cons, List.flatten_append, List.mem_append, not_or, ih, List.forall_mem_cons]
      rfl
  rw [owed_eq, Nat.add_eq_zero_iff, List.count_eq_zero, List.count_eq_zero, hflatten,
    List.forall_mem_append]
  rfl

/-- **The end of an interrupt of the RTC comes within reach**: turn by turn, each terminal can go
on until its handlers have returned. -/
theorem InService.exists_paid (h : b.InService) (fs : FileSys) {waiting done : List Context}
    (hcur : ∀ ops ∈ b.current, .scheduler ∉ ops) (hpit : 3 ≤ b.kernel.pitCount)
    (hothers : b.others = waiting ++ done) (hdone : ∀ c ∈ done, Clear c)
    (habandoned : ∀ c ∈ b.abandoned, Clear c) :
    ∃ ms b', Run (Step fs) b ms b' ∧ b'.current = [] ∧ b'.owed .endCascade = 0 := by
  induction waiting generalizing b done with
  | nil =>
    obtain ⟨ms₁, b₁, hr₁, hcur₁, hleaves₁⟩ := h.exists_drain fs hcur
    refine ⟨ms₁, b₁, hr₁, hcur₁, owed_eq_zero_iff.2 ⟨?_, ?_, ?_⟩⟩
    · rw [hcur₁]
      exact List.not_mem_nil
    · rw [hleaves₁.others, hothers]
      exact hdone
    · rw [hleaves₁.abandoned]
      exact habandoned
  | cons next waiting ih =>
    obtain ⟨ms₁, b₁, hr₁, hcur₁, hleaves₁⟩ := h.exists_drain fs hcur
    have h₁ := h.run hr₁
    rw [← hleaves₁.pitCount] at hpit
    obtain ⟨ms₂, b₂, hr₂, hpit₂, habandoned₂, hturn⟩ := h₁.exists_tick fs hcur₁ hpit
    rw [← hleaves₁.others] at hothers
    obtain ⟨hcur₂, hothers₂⟩ := hturn next (waiting ++ done) hothers
    have hquiet : AllQuiet next := by
      refine h₁.ordered.quiet next (List.mem_cons_of_mem _ (List.mem_append_left _ ?_))
      rw [hothers]
      exact List.mem_cons_self
    have hdone' : ∀ c ∈ done ++ [[[Op.sti]]], Clear c := by
      refine List.forall_mem_append.2 ⟨hdone, fun c hc => ?_⟩
      obtain rfl := List.mem_singleton.1 hc
      unfold Clear
      decide
    rw [← hleaves₁.abandoned, ← habandoned₂] at habandoned
    obtain ⟨ms₃, b₃, hr₃, hend⟩ := ih (h₁.run hr₂) (by rw [hcur₂]; exact hquiet.no_scheduler) hpit₂
      (hothers₂.trans (List.append_assoc _ _ _)) hdone' habandoned
    exact ⟨_, b₃, (hr₁.append hr₂).append hr₃, hend⟩

/-- Whatever it is in the middle of, the system can go on to where no handler is to call the
scheduler. -/
theorem InService.exists_settled (h : b.InService) (fs : FileSys) (hpit : 3 ≤ b.kernel.pitCount) :
    ∃ ms b', Run (Step fs) b ms b' ∧ 3 ≤ b'.kernel.pitCount ∧ b'.abandoned = b.abandoned ∧
      ∀ ops ∈ b'.current, .scheduler ∉ ops := by
  cases hcur : b.current with
  | nil =>
    refine ⟨[], b, .nil b, hpit, rfl, ?_⟩
    rw [hcur]
    exact List.forall_mem_nil _
  | cons ops context =>
    by_cases hmem : .scheduler ∈ ops
    · obtain ⟨ms, b₁, hr, hpit₁, habandoned, hquiet, -⟩ := h.exists_scheduler fs hcur hmem hpit
      exact ⟨ms, b₁, hr, hpit₁, habandoned, hquiet.no_scheduler⟩
    · have htail := h.ordered.quiet _ List.mem_cons_self
      rw [hcur] at htail
      refine ⟨[], b, .nil b, hpit, rfl, ?_⟩
      rw [hcur]
      exact List.forall_mem_cons.2 ⟨hmem, AllQuiet.no_scheduler htail⟩

/-- A request of the keyboard that is pending can be served. -/
theorem InService.exists_served (h : b.InService) (fs : FileSys) (hcur : b.current = [])
    (howed : b.owed .endCascade = 0) :
    ∃ ms b', Run (Step fs) b ms b' ∧ b'.current = [] ∧ b'.owed .endCascade = 0 ∧
      b'.kernel.masterMask.getLsbD 0 = true ∧ b'.pics.master.irr 1 = false := by
  have hstep₁ : Step fs b .disableTimer (b.disableIrq 0) := .disableTimer hcur
  have h₁ := h.step hstep₁
  have hmask₁ : (b.disableIrq 0).kernel.masterMask.getLsbD 0 = true := by
    simp [disableIrq, Kernel.disableIrq, Kernel.cli, Kernel.sti]
  by_cases hirr : (b.disableIrq 0).pics.master.irr 1 = true
  · have hnext : (b.disableIrq 0).next = some 33 := by
      rw [h₁.next rfl, if_neg (by rw [hmask₁]; simp), if_pos hirr]
    obtain ⟨⟨v, pics⟩, hack, hv⟩ := Option.map_eq_some_iff.1 hnext
    have hv : v.toNat = 33 := hv
    have hstep₂ : Step fs (b.disableIrq 0) (.interrupt v) _ := .interrupt rfl hack
    have hops : .scheduler ∉ Op.hardwareHandler v.toNat := by
      rw [hv]
      decide
    obtain ⟨ms, b₃, hr₃, hcur₃, hleaves⟩ := (h₁.step hstep₂).exists_drain fs
      (List.forall_mem_cons.2 ⟨hops, by
        rw [show (b.disableIrq 0).current = [] from hcur]
        exact List.forall_mem_nil _⟩)
    refine ⟨_, b₃, .cons hstep₁ (.cons hstep₂ hr₃), hcur₃, ?_, ?_, ?_⟩
    · rw [owed_eq_zero_iff] at howed ⊢
      rw [hcur₃, hleaves.others, hleaves.abandoned]
      exact ⟨List.not_mem_nil, howed.2⟩
    · rw [hleaves.masterMask]
      exact hmask₁
    · rw [hleaves.irr]
      rcases h₁.controlled.interrupt_cases hack with ⟨i, -, -, hi, rfl⟩ | ⟨-, -, hrtc, -⟩
      · obtain rfl : i = 1 := by omega
        exact Function.update_self (1 : Fin 8) false (b.disableIrq 0).pics.master.irr
      · omega
  · exact ⟨_, _, .single hstep₁, hcur, howed, hmask₁, by simpa using hirr⟩

/-- With nothing in the way, the RTC can interrupt. -/
theorem InService.exists_interrupt (h : b.InService) (fs : FileSys) (hcur : b.current = [])
    (howed : b.owed .endCascade = 0) :
    ∃ ms b', Run (Step fs) b ms b' ∧ Move.interrupt 40 ∈ ms := by
  obtain ⟨ms₁, b₁, hr₁, hcur₁, howed₁, hmask₁, hirr₁⟩ := h.exists_served fs hcur howed
  have hr₂ : Run (Step fs) b₁ [.request 8, .sti] _ :=
    .cons (.request b₁ 8) (.single (.sti hcur₁))
  set b₂ : Board := ({ b₁ with pics := b₁.pics.request 8 } : Board).sti
  have h₂ := (h.run hr₁).run hr₂
  have hnext : b₂.next = some 40 := by
    have hmask₂ : b₂.kernel.masterMask.getLsbD 0 = true := hmask₁
    have hirr₂ : b₂.pics.master.irr 1 = false := hirr₁
    rw [h₂.next rfl, if_neg (by rw [hmask₂]; simp), if_neg (by rw [hirr₂]; simp)]
    exact if_pos ⟨rfl, howed₁⟩
  obtain ⟨⟨v, pics⟩, hack, hv⟩ := Option.map_eq_some_iff.1 hnext
  obtain rfl : v = 40 := BitVec.eq_of_toNat_eq hv
  exact ⟨_, _, (hr₁.append hr₂).append (.single (.interrupt rfl hack)),
    List.mem_append_right _ List.mem_cons_self⟩

/-- **Whether the RTC can interrupt again.**  After the first three ticks, and whatever the system
is in the middle of, some way leads on to an interrupt of the RTC, unless an abandoned context
has one to end; then none does. -/
theorem rtc_alive_iff {ms : List Move} {b₀ : Board} (h : b₀.Off)
    (hr : Run (Step fs) b₀.entry ms b) (hpit : 3 ≤ b.kernel.pitCount) :
    (∃ ms' b', Run (Step fs) b ms' b' ∧ Move.interrupt 40 ∈ ms') ↔
      ∀ c ∈ b.abandoned, Clear c := by
  have hb := h.inService_entry.run hr
  constructor
  · rintro ⟨ms', b', hr', hmem⟩ c hc howed
    exact hb.rtc_dead hc howed hr' hmem
  · intro hclear
    obtain ⟨ms₁, b₁, hr₁, hpit₁, habandoned, hsettled⟩ := hb.exists_settled fs hpit
    rw [← habandoned] at hclear
    obtain ⟨ms₂, b₂, hr₂, hcur₂, howed₂⟩ := (hb.run hr₁).exists_paid fs hsettled hpit₁
      (List.append_nil _).symm (fun _ hc => nomatch hc) hclear
    obtain ⟨ms₃, b₃, hr₃, hmem⟩ := ((hb.run hr₁).run hr₂).exists_interrupt fs hcur₂ howed₂
    exact ⟨_, b₃, (hr₁.append hr₂).append hr₃, List.mem_append_right _ hmem⟩

/-- The kernel of `offBoard` after `k` ticks. -/
def offKernel : ℕ → Kernel
  | 0 => offBoard.entry.kernel
  | k + 1 => ((interrupted (offKernel k)).withRegisters 0 0).scheduler shellImage zeroFrame

theorem pitCount_offKernel : ∀ k ≤ 3, (offKernel k).pitCount = k := by decide +kernel

/-- The boot comes to its third tick. -/
theorem exists_run_offKernel {k : ℕ} (hk : k ≤ 3) :
    ∃ ms b, Run (Step shellImage) offBoard.entry ms b ∧ b.kernel = offKernel k ∧
      b.current = [] := by
  induction k with
  | zero => exact ⟨[], _, .nil _, rfl, rfl⟩
  | succ k ih =>
    obtain ⟨ms₁, b₁, hr₁, hkernel₁, hcur₁⟩ := ih (by omega)
    have hpit : b₁.kernel.pitCount = k := by rw [hkernel₁, pitCount_offKernel k (by omega)]
    have hshell : (offKernel (k + 1)).pitCount ≠ b₁.kernel.pitCount := by
      rw [hpit, pitCount_offKernel (k + 1) hk]
      omega
    obtain ⟨ms₂, b₂, hr₂, hend⟩ := (off_offBoard.inService_entry.run hr₁).exists_shell shellImage
      hcur₁ (by omega) (by rw [hkernel₁]; rfl) hshell
    exact ⟨_, b₂, hr₁.append hr₂, hend⟩

theorem rtc_alive_iff_boot : ∃ ms b, Run (Step shellImage) offBoard.entry ms b ∧
    3 ≤ b.kernel.pitCount ∧
    ((∃ ms' b', Run (Step shellImage) b ms' b' ∧ Move.interrupt 40 ∈ ms') ↔
      ∀ c ∈ b.abandoned, Clear c) := by
  obtain ⟨ms, b, hr, hkernel, -⟩ := exists_run_offKernel (Nat.le_refl 3)
  have hpit : 3 ≤ b.kernel.pitCount := by rw [hkernel, pitCount_offKernel 3 (by omega)]
  exact ⟨ms, b, hr, hpit, rtc_alive_iff off_offBoard hr hpit⟩

end Board

end OS391
