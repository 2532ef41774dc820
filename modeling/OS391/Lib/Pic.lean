/-
# A pair of interrupt controllers

Two 8259As as a PC has them, the second on line 2 of the first.  A controller keeps the
requests of its eight lines (`irr`), those whose interrupt the processor has taken and not ended
(`isr`) and a mask (`imr`).  Line 0 comes first, and a line that is in service holds back itself
and every line behind it.  The processor writes commands to the one port of a controller, and
initialisation words and the mask to the other.

Modelled are the edge-triggered mode with the 8086 vectors, the specific and the non-specific end
of interrupt and the automatic one; the rotating priorities and the special mask mode are not.
-/

import Mathlib.Data.Fin.Tuple.Basic

namespace OS391
namespace Lib

/-- The initialisation words after the first. -/
inductive InitWord
  | base | cascade | mode
  deriving DecidableEq

/-- An 8259A. -/
structure Pic where
  irr : Fin 8 → Bool
  isr : Fin 8 → Bool
  imr : Fin 8 → Bool
  /-- The initialisation words that are still to come. -/
  expects : List InitWord
  /-- The vector of line 0. -/
  base : BitVec 8
  /-- The third word: which lines are controllers, or the line of the other controller. -/
  cascade : BitVec 8
  /-- The fourth word. -/
  mode : BitVec 8

namespace Pic

variable (p : Pic)

/-- Line `i` may interrupt. -/
def Wins (i : Fin 8) : Prop := p.irr i ∧ p.imr i = false ∧ ∀ j ≤ i, p.isr j = false

instance (i : Fin 8) : Decidable (p.Wins i) := by unfold Wins; infer_instance

/-- The line for which the controller asks for an interrupt. -/
def int : Option (Fin 8) := Fin.find? fun i => decide (p.Wins i)

/-- The processor takes the interrupt of line `i`. -/
def ack (i : Fin 8) : Pic :=
  { p with
    irr := Function.update p.irr i false
    isr := if p.mode.getLsbD 1 then p.isr else Function.update p.isr i true }

/-- A device asks for an interrupt on line `i`. -/
def request (i : Fin 8) : Pic := { p with irr := Function.update p.irr i true }

/-- A byte to the command port. -/
def command (b : BitVec 8) : Pic :=
  if b.getLsbD 4 then
    { p with
      irr := fun _ => false
      isr := fun _ => false
      imr := fun _ => false
      expects := .base :: ((if b.getLsbD 1 then [] else [.cascade]) ++
        if b.getLsbD 0 then [.mode] else []) }
  else if b.getLsbD 3 then p
  else if b.extractLsb' 5 3 = 3 then
    { p with isr := Function.update p.isr (b.extractLsb' 0 3).toFin false }
  else if b.extractLsb' 5 3 = 1 then
    match Fin.find? p.isr with
    | some i => { p with isr := Function.update p.isr i false }
    | none => p
  else p

/-- A byte to the data port. -/
def data (b : BitVec 8) : Pic :=
  match p.expects with
  | [] => { p with imr := fun i => b.getLsbD i }
  | .base :: ws => { p with base := b &&& 0xF8, expects := ws }
  | .cascade :: ws => { p with cascade := b, expects := ws }
  | .mode :: ws => { p with mode := b, expects := ws }

/-! ### The line that wins -/

variable {p} {i : Fin 8}

theorem int_eq_some_iff : p.int = some i ↔ p.Wins i ∧ ∀ j < i, ¬ p.Wins j := by
  rw [int, Fin.find?_eq_some_iff]
  simp

theorem int_eq_none_iff : p.int = none ↔ ∀ i, ¬ p.Wins i := by
  simp [int]

theorem isSome_int_iff : p.int.isSome = true ↔ ∃ i, p.Wins i := by
  simp [int]

/-- At most requests and services changed. -/
def SameSetup (p q : Pic) : Prop := ∃ irr isr, q = { p with irr := irr, isr := isr }

theorem SameSetup.refl (p : Pic) : p.SameSetup p := ⟨p.irr, p.isr, rfl⟩

theorem sameSetup_ack (p : Pic) (i : Fin 8) : p.SameSetup (p.ack i) := ⟨_, _, rfl⟩

theorem isr_ack (h : p.mode.getLsbD 1 = false) (i : Fin 8) :
    (p.ack i).isr = Function.update p.isr i true := by
  unfold ack
  rw [h]
  rfl

theorem sameSetup_request (p : Pic) (i : Fin 8) : p.SameSetup (p.request i) := ⟨_, p.isr, rfl⟩

/-- **A specific end of interrupt** ends the service of its line. -/
theorem command_endOfInterrupt (p : Pic) (i : Fin 8) :
    p.command (0x60 ||| .ofNat 8 i) = { p with isr := Function.update p.isr i false } := by
  have hbits : ∀ i : Fin 8, (0x60 ||| BitVec.ofNat 8 i).getLsbD 4 = false ∧
      (0x60 ||| BitVec.ofNat 8 i).getLsbD 3 = false ∧
      (0x60 ||| BitVec.ofNat 8 i).extractLsb' 5 3 = 3 ∧
      ((0x60 ||| BitVec.ofNat 8 i).extractLsb' 0 3).toFin = i := by decide
  obtain ⟨hinit, hread, hend, hline⟩ := hbits i
  rw [command, hinit, hread, if_neg Bool.false_ne_true, if_neg Bool.false_ne_true, if_pos hend,
    hline]

theorem sameSetup_endOfInterrupt (p : Pic) (i : Fin 8) :
    p.SameSetup (p.command (0x60 ||| .ofNat 8 i)) :=
  ⟨p.irr, _, p.command_endOfInterrupt i⟩

/-- Once initialised, a controller takes its mask. -/
theorem data_of_ready (h : p.expects = []) (b : BitVec 8) :
    p.data b = { p with imr := fun i => b.getLsbD i } := by
  rw [data, h]

end Pic

/-- The two controllers. -/
structure Pics where
  master : Pic
  slave : Pic

namespace Pics

variable (c : Pics)

/-- A device asks for an interrupt on line `n` of the sixteen. -/
def request (n : Fin 16) : Pics :=
  if h : n.val < 8 then { c with master := c.master.request ⟨n, h⟩ }
  else { c with slave := c.slave.request ⟨n - 8, by omega⟩ }

/-- The first controller with line 2 as the second one drives it. -/
def wired : Pic := { c.master with irr := Function.update c.master.irr 2 c.slave.int.isSome }

/-- The processor takes an interrupt: its vector, and the controllers afterwards. -/
def acknowledge : Option (BitVec 8 × Pics) :=
  match c.wired.int with
  | none => none
  | some i =>
    match (if i = 2 ∧ c.master.cascade.getLsbD 2 then c.slave.int else none) with
    | some k =>
      some (c.slave.base + .ofNat 8 k, { master := c.master.ack 2, slave := c.slave.ack k })
    | none => some (c.master.base + .ofNat 8 i, { c with master := c.master.ack i })

/-- `outb`: ports `0x20` and `0x21` are the first controller's, `0xA0` and `0xA1` the second's. -/
def outb (value : BitVec 8) (port : BitVec 16) : Pics :=
  if port = 0x20 then { c with master := c.master.command value }
  else if port = 0x21 then { c with master := c.master.data value }
  else if port = 0xA0 then { c with slave := c.slave.command value }
  else if port = 0xA1 then { c with slave := c.slave.data value }
  else c

variable {c} {c' : Pics} {v : BitVec 8} {i : Fin 8}

theorem wins_wired_of_ne (h : i ≠ 2) : c.wired.Wins i ↔ c.master.Wins i := by
  simp [Pic.Wins, wired, h]

theorem wins_wired_two : c.wired.Wins 2 ↔
    (∃ k, c.slave.Wins k) ∧ c.master.imr 2 = false ∧ ∀ j ≤ 2, c.master.isr j = false := by
  rw [← Pic.isSome_int_iff]
  simp [Pic.Wins, wired]

/-- At most requests and services changed. -/
structure SameSetup (c c' : Pics) : Prop where
  master : c.master.SameSetup c'.master
  slave : c.slave.SameSetup c'.slave

theorem sameSetup_request (c : Pics) (n : Fin 16) : c.SameSetup (c.request n) := by
  unfold request
  split
  · exact ⟨Pic.sameSetup_request _ _, .refl _⟩
  · exact ⟨.refl _, Pic.sameSetup_request _ _⟩

/-- A request ends no service. -/
theorem isr_request (c : Pics) (n : Fin 16) :
    (c.request n).master.isr = c.master.isr ∧ (c.request n).slave.isr = c.slave.isr := by
  unfold request
  split <;> exact ⟨rfl, rfl⟩

/-- An end of interrupt for line `i` of the first controller. -/
theorem outb_endMaster (c : Pics) (i : Fin 8) : c.outb (0x60 ||| .ofNat 8 i) 0x20
    = { c with master := { c.master with isr := Function.update c.master.isr i false } } := by
  rw [← c.master.command_endOfInterrupt i]
  rfl

/-- An end of interrupt for line `i` of the second controller. -/
theorem outb_endSlave (c : Pics) (i : Fin 8) : c.outb (0x60 ||| .ofNat 8 i) 0xA0
    = { c with slave := { c.slave with isr := Function.update c.slave.isr i false } } := by
  rw [← c.slave.command_endOfInterrupt i]
  rfl

/-- **Which interrupt is taken**: that of a line of the first controller, or one of the second,
if nothing before line 2 or on it is in service. -/
theorem acknowledge_cases (hcascade : c.master.cascade.getLsbD 2 = true)
    (h : c.acknowledge = some (v, c')) :
    (∃ i ≠ 2, c.master.Wins i ∧ v = c.master.base + .ofNat 8 i ∧
      c' = { c with master := c.master.ack i }) ∨
    (∃ k, c.slave.Wins k ∧ c.master.imr 2 = false ∧ (∀ j ≤ 2, c.master.isr j = false) ∧
      v = c.slave.base + .ofNat 8 k ∧ c' = { master := c.master.ack 2, slave := c.slave.ack k }) := by
  unfold acknowledge at h
  split at h
  · exact nomatch h
  · rename_i i hint
    obtain ⟨hwins, -⟩ := Pic.int_eq_some_iff.1 hint
    rcases eq_or_ne i 2 with rfl | hne
    · obtain ⟨hslave, himr, hisr⟩ := wins_wired_two.1 hwins
      obtain ⟨k, hk⟩ := Option.isSome_iff_exists.1 (Pic.isSome_int_iff.2 hslave)
      simp only [hcascade, and_self, if_true, hk, Option.some.injEq, Prod.mk.injEq] at h
      exact Or.inr ⟨k, (Pic.int_eq_some_iff.1 hk).1, himr, hisr, h.1.symm, h.2.symm⟩
    · simp only [hne, false_and, if_false, Option.some.injEq, Prod.mk.injEq] at h
      exact Or.inl ⟨i, hne, (wins_wired_of_ne hne).1 hwins, h.1.symm, h.2.symm⟩

/-- The interrupt of a line of the first controller. -/
theorem acknowledge_master (h : c.wired.int = some i) (hne : i ≠ 2) : c.acknowledge
    = some (c.master.base + .ofNat 8 i, { c with master := c.master.ack i }) := by
  simp [acknowledge, h, hne]

/-- The interrupt of a line of the second. -/
theorem acknowledge_slave {k : Fin 8} (h : c.wired.int = some 2) (hk : c.slave.int = some k)
    (hcascade : c.master.cascade.getLsbD 2 = true) : c.acknowledge
      = some (c.slave.base + .ofNat 8 k,
        { master := c.master.ack 2, slave := c.slave.ack k }) := by
  unfold acknowledge
  rw [h]
  simp only [hcascade, and_self, if_true, hk]

end Pics
end Lib
end OS391
