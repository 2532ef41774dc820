/-
# What is left of a handler

A handler that has been interrupted, or preempted by a tick, has some of its operations still to
come.  This module is about these: which operations they can be (`Op.parts`), when a handler has
done its work (`Op.Quiet`), and which ends of interrupt it still owes.  There are three handlers
and a few operations in each, so this is decided.
-/

import OS391.Interrupts

namespace OS391

open Lib

namespace Op

/-- `send_eoi(KEYBOARD_IRQ_NUM)` -/
def endKeyboard : Op := .outb (0x60 ||| .ofNat 8 1) 0x20

/-- The first half of `send_eoi(RTC_PIC_PIN)`. -/
def endRtc : Op := .outb (0x60 ||| .ofNat 8 0) 0xA0

/-- The second half of `send_eoi(RTC_PIC_PIN)`. -/
def endCascade : Op := .outb (0x60 ||| 2) 0x20

/-- The handlers that run, and all that can be left of them. -/
def parts : List (List Op) := [32, 33, 40].flatMap fun intrNum => (hardwareHandler intrNum).tails

/-- The operation changes the state of the kernel. -/
def Works (o : Op) : Prop := o = .scheduler ∨ o = .keyboard ∨ o = .rtc

instance : DecidablePred Works := fun _ => by unfold Works; infer_instance

/-- What is left neither works nor owes an end of interrupt to lines 0 and 1.  The second end
of interrupt of the keyboard is for nothing. -/
def Quiet (ops : List Op) : Prop := (∀ o ∈ ops, ¬ o.Works) ∧ ops.count endKeyboard ≤ 1

instance : DecidablePred Quiet := fun _ => by unfold Quiet; infer_instance

theorem hardwareHandler_mem_parts : ∀ v ∈ [32, 33, 40], hardwareHandler v ∈ parts := by decide

theorem tail_mem_parts : ∀ ops ∈ parts, ops.tail ∈ parts := by decide

theorem mem_of_parts : ∀ ops ∈ parts, ∀ o ∈ ops, o ∈ [.cli, .sti, .scheduler, .keyboard, .rtc,
    endKeyboard, endRtc, endCascade] := by decide

theorem tail_of_scheduler : ∀ ops ∈ parts, ops.head? = some .scheduler → ops.tail = [.sti] := by
  decide

/-- Nothing sets `IF` before the work is done. -/
theorem quiet_tail_of_sti : ∀ ops ∈ parts, ops.head? = some .sti ∨ ops.head? = some .rtc →
    Quiet ops.tail := by decide

/-- What a handler writes to a controller is an end of interrupt. -/
theorem outb_of_parts {value : BitVec 8} {port : BitVec 16} {ops : List Op}
    (h : .outb value port :: ops ∈ parts) : .outb value port = endKeyboard ∨
      .outb value port = endRtc ∨ .outb value port = endCascade := by
  have hmem := mem_of_parts _ h _ List.mem_cons_self
  simpa using hmem

theorem Quiet.tail {o : Op} {ops : List Op} (h : Quiet (o :: ops)) : Quiet ops :=
  ⟨fun o ho => h.1 o (List.mem_cons_of_mem _ ho), (List.count_le_count_cons).trans h.2⟩

section

variable {value : BitVec 8} {port : BitVec 16}

theorem outb_endKeyboard (h : .outb value port = endKeyboard) (c : Pics) : c.outb value port
    = { c with master := { c.master with isr := Function.update c.master.isr 1 false } } := by
  cases h
  exact c.outb_endMaster 1

theorem outb_endRtc (h : .outb value port = endRtc) (c : Pics) : c.outb value port
    = { c with slave := { c.slave with isr := Function.update c.slave.isr 0 false } } := by
  cases h
  exact c.outb_endSlave 0

theorem outb_endCascade (h : .outb value port = endCascade) (c : Pics) : c.outb value port
    = { c with master := { c.master with isr := Function.update c.master.isr 2 false } } := by
  cases h
  exact c.outb_endMaster 2

end

theorem count_endKeyboard_le : ∀ ops ∈ parts, ops.count endKeyboard ≤ 2 := by decide

/-- What the handlers of the timer and the keyboard owe. -/
theorem owes_master : ∀ i : Fin 8, i < 2 →
    decide (.scheduler ∈ hardwareHandler (32 + i)) = decide (0 = i) ∧
    decide ((hardwareHandler (32 + i)).count endKeyboard = 2) = decide (1 = i) ∧
    (hardwareHandler (32 + i)).count endCascade = 0 ∧
    (hardwareHandler (32 + i)).count endRtc = 0 := by decide

/-- What the handler of the RTC owes. -/
theorem owes_slave : .scheduler ∉ hardwareHandler 40 ∧
    (hardwareHandler 40).count endKeyboard ≠ 2 ∧ (hardwareHandler 40).count endCascade = 1 ∧
    (hardwareHandler 40).count endRtc = 1 := by decide

end Op

end OS391
