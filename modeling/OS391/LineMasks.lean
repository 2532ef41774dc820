/-
# The lines that are masked

`i8259.c` keeps the masks of the controllers in two variables and writes them through.  No
operation of the kernel but `enable_irq` and `disable_irq` touches them (`Step.sameMasks`), so
that after `entry` the controllers have the masks of the kernel (`Board.Controlled`), and only the
timer, the keyboard and the RTC interrupt (`Board.Controlled.interrupt_cases`).
-/

import OS391.Handlers

namespace OS391

open Lib

/-! ### The controllers and the masks -/

namespace Board

/-- What is left of the innermost handler of the running context. -/
def top (b : Board) : List Op := b.current.headD []

/-- The contexts, but for the innermost handler of the running one. -/
def suspended (b : Board) : List Context := b.current.tail :: (b.others ++ b.abandoned)

/-- How often operation `o` is still to come, over all contexts. -/
def owed (o : Op) (b : Board) : ℕ := b.top.count o + b.suspended.flatten.flatten.count o

/-- The controllers are initialised, their masks are those of the kernel, and the lines that are
not masked are 1, 2 and 8, and 0 at times. -/
structure Controlled (b : Board) : Prop where
  masterReady : b.pics.master.expects = []
  slaveReady : b.pics.slave.expects = []
  masterBase : b.pics.master.base = 0x20
  slaveBase : b.pics.slave.base = 0x28
  cascade : b.pics.master.cascade = 4
  masterMode : b.pics.master.mode = 1
  slaveMode : b.pics.slave.mode = 1
  masterImr : ∀ i : Fin 8, b.pics.master.imr i = b.kernel.masterMask.getLsbD i
  slaveImr : ∀ i : Fin 8, b.pics.slave.imr i = b.kernel.slaveMask.getLsbD i
  masterMask : b.kernel.masterMask = 0xF8 ∨ b.kernel.masterMask = 0xF9
  slaveMask : b.kernel.slaveMask = 0xFE

variable {fs : FileSys} {b b' : Board} {m : Move} {v : BitVec 8} {pics : Pics}

/-- **Only three interrupts are taken**: of the timer, the keyboard and the RTC. -/
theorem Controlled.interrupt_cases (h : b.Controlled)
    (hack : b.pics.acknowledge = some (v, pics)) :
    (∃ i : Fin 8, i < 2 ∧ b.pics.master.Wins i ∧ v.toNat = 32 + i ∧
      pics = { b.pics with master := b.pics.master.ack i }) ∨
    (b.pics.slave.Wins 0 ∧ (∀ j ≤ 2, b.pics.master.isr j = false) ∧ v.toNat = 40 ∧
      pics = { master := b.pics.master.ack 2, slave := b.pics.slave.ack 0 }) := by
  have hmaster : ∀ i, b.pics.master.imr i = false → i < 3 := by
    simp only [h.masterImr]
    rcases h.masterMask with hmask | hmask <;> rw [hmask] <;> decide
  have hslave : ∀ k, b.pics.slave.imr k = false → k = 0 := by
    simp only [h.slaveImr, h.slaveMask]
    decide
  rcases Pics.acknowledge_cases (by rw [h.cascade]; decide) hack with
    ⟨i, hne, hwins, hv, hpics⟩ | ⟨k, hwins, -, hisr, hv, hpics⟩
  · have hlt := hmaster i hwins.2.1
    refine Or.inl ⟨i, by omega, hwins, ?_, hpics⟩
    rw [hv, h.masterBase, BitVec.toNat_add, BitVec.toNat_ofNat]
    simp
    omega
  · obtain rfl := hslave k hwins.2.1
    refine Or.inr ⟨hwins, hisr, ?_, hpics⟩
    rw [hv, h.slaveBase]
    decide

theorem Controlled.congr (h : b.Controlled) (hmasks : b.kernel.SameMasks b'.kernel)
    (hsetup : b.pics.SameSetup b'.pics) : b'.Controlled := by
  obtain ⟨hmaster, hslave⟩ := hmasks
  obtain ⟨⟨irr, isr, hm⟩, ⟨irr', isr', hs⟩⟩ := hsetup
  exact
    { masterReady := by rw [hm]; exact h.masterReady
      slaveReady := by rw [hs]; exact h.slaveReady
      masterBase := by rw [hm]; exact h.masterBase
      slaveBase := by rw [hs]; exact h.slaveBase
      cascade := by rw [hm]; exact h.cascade
      masterMode := by rw [hm]; exact h.masterMode
      slaveMode := by rw [hs]; exact h.slaveMode
      masterImr := by rw [hm, hmaster]; exact h.masterImr
      slaveImr := by rw [hs, hslave]; exact h.slaveImr
      masterMask := by rw [hmaster]; exact h.masterMask
      slaveMask := by rw [hslave]; exact h.slaveMask }

/-- What a mask for the first controller changes. -/
theorem Controlled.outb_mask (h : b.Controlled) (value : BitVec 8) : b.pics.outb value 0x21
    = { b.pics with master := { b.pics.master with imr := fun i => value.getLsbD i } } := by
  rw [← Pic.data_of_ready h.masterReady]
  rfl

/-- A mask for the first controller, written through. -/
theorem Controlled.writeMask (h : b.Controlled) {t : Kernel}
    (hslave : t.slaveMask = b.kernel.slaveMask)
    (hmask : t.masterMask = 0xF8 ∨ t.masterMask = 0xF9) :
    Controlled { b with kernel := t, pics := b.pics.outb t.masterMask 0x21 } := by
  rw [h.outb_mask]
  exact { h with
    masterImr := fun _ => rfl
    slaveImr := by rw [hslave]; exact h.slaveImr
    masterMask := hmask
    slaveMask := by rw [hslave]; exact h.slaveMask }

/-- What a tick does to the contexts: the one it interrupted goes on, is abandoned, or waits for
its turn. -/
inductive Rescheduled (b : Board) (context : Context) : Context → List Context → List Context → Prop
  | back : Rescheduled b context context b.others b.abandoned
  | first (hpit : b.kernel.pitCount = 0) :
      Rescheduled b context [] b.others (context :: b.abandoned)
  | shell : Rescheduled b context [] (b.others ++ [context]) b.abandoned
  | turn {next : Context} {others : List Context} (hothers : b.others = next :: others) :
      Rescheduled b context next (others ++ [context]) b.abandoned

theorem reschedule_cases (b : Board) (t : Kernel) (context : Context) :
    ∃ current others abandoned, Rescheduled b context current others abandoned ∧
      b.reschedule t context =
        { kernel := t, pics := b.pics.outb (0x60 ||| 0) 0x20
          current := current, others := others, abandoned := abandoned } := by
  unfold reschedule
  split_ifs with hpit hcount hzero
  · exact ⟨_, _, _, .back, rfl⟩
  · exact ⟨_, _, _, .first hzero, rfl⟩
  · exact ⟨_, _, _, .shell, rfl⟩
  · split
    · exact ⟨_, _, _, .back, rfl⟩
    · rename_i hothers
      exact ⟨_, _, _, .turn hothers, rfl⟩

theorem Controlled.step (h : b.Controlled) (hparts : b.top ∈ Op.parts)
    (hstep : Step fs b m b') : b'.Controlled := by
  cases hstep with
  | request n => exact h.congr ⟨rfl, rfl⟩ (Pics.sameSetup_request _ _)
  | interrupt hflag hack =>
    rcases h.interrupt_cases hack with ⟨i, -, -, -, rfl⟩ | ⟨-, -, -, rfl⟩
    · exact h.congr ⟨rfl, rfl⟩ ⟨Pic.sameSetup_ack _ _, .refl _⟩
    · exact h.congr ⟨rfl, rfl⟩ ⟨Pic.sameSetup_ack _ _, Pic.sameSetup_ack _ _⟩
  | effect hcur heffect =>
    refine h.congr ?_ ⟨.refl _, .refl _⟩
    cases heffect <;> exact ⟨rfl, rfl⟩
  | outb hcur =>
    rw [top, hcur] at hparts
    rcases Op.outb_of_parts hparts with hend | hend | hend <;> cases hend
    · exact h.congr ⟨rfl, rfl⟩ ⟨Pic.sameSetup_endOfInterrupt _ 1, .refl _⟩
    · exact h.congr ⟨rfl, rfl⟩ ⟨.refl _, Pic.sameSetup_endOfInterrupt _ 0⟩
    · exact h.congr ⟨rfl, rfl⟩ ⟨Pic.sameSetup_endOfInterrupt _ 2, .refl _⟩
  | scheduler hcur htick =>
    obtain ⟨_, _, _, -, heq⟩ := b.reschedule_cases _ _
    rw [heq]
    exact h.congr htick.sameMasks ⟨Pic.sameSetup_endOfInterrupt _ 0, .refl _⟩
  | iret hcur => exact h.congr ⟨rfl, rfl⟩ ⟨.refl _, .refl _⟩
  | cli hcur => exact h.congr ⟨rfl, rfl⟩ ⟨.refl _, .refl _⟩
  | sti hcur => exact h.congr ⟨rfl, rfl⟩ ⟨.refl _, .refl _⟩
  | enableTimer hcur =>
    refine h.writeMask rfl (Or.inl ?_)
    rcases h.masterMask with hmask | hmask <;> simp [Kernel.enableIrq, hmask]
  | disableTimer hcur =>
    refine h.writeMask rfl (Or.inr ?_)
    rcases h.masterMask with hmask | hmask <;>
      simp [Kernel.disableIrq, Kernel.cli, Kernel.sti, hmask]
  | call hcur htick hcall => exact h.congr hcall.sameMasks ⟨.refl _, .refl _⟩

end Board

end OS391
