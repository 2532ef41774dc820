/-
# The bookkeeping refines the stacks of the terminals

`Represents b m`: the four places of the bookkeeping `b` record the terminals `m`.  The
entry of `schedule_array` for a terminal is the top of its stack, `curr_pid` agrees with
it, and the PCBs of a stack are linked by `parent_id` down to the base shell
(`Linked`).  The field `booting` says what is special before the fourth tick: only the
shells run.

Starting a process is a push (`Represents.launch`), the halt of an ordinary process a pop
(`Represents.halt`), a tick gives the next terminal its turn (`Represents.rotate`), and a
base shell that halts leaves everything as it was (`Represents.restart`).
-/

import OS391.Bookkeeping
import OS391.Terminals

namespace OS391

open Lib

/-! ### The operations on the bookkeeping, written out -/

namespace Book

variable {b : Book} {pid : ℤ}

/-- `launch` of a process that is not one of the first three. -/
theorem launch_eq (hpit : 3 ≤ b.pitCount)
    (hbase : (b.pcb pid).isBaseShell = false) (hparent : (b.pcb pid).parentId ≠ -1)
    (hne : b.processNum ≠ pid) :
    b.launch pid =
      { b with
        processNum := pid
        pcb := Function.update b.pcb pid
          { pid := pid, parentId := b.processNum, active := true, isBaseShell := false
            terminalNum := (b.pcb b.processNum).terminalNum }
        scheduleArray := Function.update b.scheduleArray (b.pcb b.processNum).terminalNum pid
        currPid := Function.update b.currPid (b.pcb b.processNum).terminalNum pid } := by
  have hpcb : (b.setup pid).pcb pid =
      { b.pcb pid with parentId := b.processNum, pid := pid, active := true } := by
    simp [setup, modifyPcb, hparent]
  have hterm : (b.setup pid).terminalOf pid = (b.pcb b.processNum).terminalNum := by
    rw [terminalOf, hpcb, if_pos hbase]
    simp [setup, modifyPcb, hne]
  have hbook : ((b.setup pid).modifyPcb pid fun p =>
      { p with terminalNum := (b.pcb b.processNum).terminalNum }).pcb
      = Function.update b.pcb pid
          { pid := pid, parentId := b.processNum, active := true, isBaseShell := false
            terminalNum := (b.pcb b.processNum).terminalNum } := by
    simp only [modifyPcb, hpcb, hbase]
    simp [setup, modifyPcb]
  rw [launch, enqueue,
    if_neg (show ¬ (b.setup pid).pitCount < 3 by simpa [setup, modifyPcb] using hpit),
    hterm]
  ext1
  · rfl
  · rfl
  · rfl
  · rfl
  · rfl
  · exact hbook

/-- `launch` of one of the first three processes. -/
theorem launch_eq_of_boot (hpit : b.pitCount < 3) :
    b.launch pid =
      { b with
        processNum := pid
        pitCount := b.pitCount + 1
        pcb := Function.update b.pcb pid
          { pid := pid, parentId := -1, active := true, isBaseShell := true
            terminalNum := b.pitCount }
        scheduleArray := Function.update b.scheduleArray b.pitCount b.pitCount
        currPid := Function.update b.currPid b.pitCount b.pitCount } := by
  rw [launch, enqueue, if_pos (show (b.setup pid).pitCount < 3 from hpit)]
  ext1
  · rfl
  · rfl
  · rfl
  · rfl
  · rfl
  · simp [enqueueBaseShell, setup, modifyPcb, schedule]

/-- The halt of a process whose parent is in its PCB. -/
theorem halt_eq {p : ℤ} {t : ℕ}
    (hpid : b.pcb pid =
      { pid := pid, parentId := p, active := true, isBaseShell := false, terminalNum := t })
    (hp : (b.pcb p).pid = p) (hactive : (b.pcb p).active = true) (hne : p ≠ pid) :
    b.halt pid =
      { b with
        processNum := p
        pcb := Function.update b.pcb pid { b.pcb pid with active := false }
        scheduleArray := Function.update b.scheduleArray t p
        currPid := Function.update b.currPid t p } := by
  have hsame : ({ b.pcb p with active := true } : PcbBook) = b.pcb p := by rw [← hactive]
  unfold halt
  ext1
  · simp [hpid]
  · rfl
  · rfl
  · simp [hpid, hp]
  · simp [hpid]
  · simp only [modifyPcb, hpid, Function.update_of_ne hne, hsame]
    funext q
    by_cases hq : q = p
    · subst hq
      simp [hne]
    · simp [hq]

theorem modifyPcb_eq_self {f : PcbBook → PcbBook} (h : f (b.pcb pid) = b.pcb pid) :
    b.modifyPcb pid f = b := by
  rw [modifyPcb, h, Function.update_eq_self]

theorem schedule_eq_self {t : ℕ} (h : b.scheduleArray t = pid) (h' : b.currPid t = pid) :
    b.schedule t pid = b := by
  have harray : Function.update b.scheduleArray t pid = b.scheduleArray := by
    rw [← h, Function.update_eq_self]
  have hcurr : Function.update b.currPid t pid = b.currPid := by
    rw [← h', Function.update_eq_self]
  rw [schedule, harray, hcurr]

/-- The restart of a base shell that is the running process of its terminal. -/
theorem restart_eq {t : ℕ} (hpit : 3 ≤ b.pitCount)
    (hpid : b.pcb pid =
      { pid := pid, parentId := -1, active := true, isBaseShell := true, terminalNum := t })
    (hrun : b.processNum = pid) (harray : b.scheduleArray t = pid) (hcurr : b.currPid t = pid) :
    b.restart pid = b := by
  have hbase : (b.modifyPcb pid fun p => { p with isBaseShell := true, parentId := -1 }) = b :=
    modifyPcb_eq_self (by rw [hpid])
  have hsetup : b.setup pid = b := modifyPcb_eq_self (by simp [hpid])
  have hterm : b.terminalOf pid = t := by simp [terminalOf, hpid]
  have hsame : (b.modifyPcb pid fun p => { p with terminalNum := t }) = b :=
    modifyPcb_eq_self (by rw [hpid])
  rw [restart, hbase, launch, enqueue, hsetup, if_neg (by omega), hterm, hsame,
    schedule_eq_self harray hcurr, ← hrun]

end Book

/-! ### The record of a stack -/

/-- The PCBs of a stack of terminal `t`: each active, in that terminal, with its own
number, and with the process below as its parent; the last is base shell `t`. -/
def Linked (pcb : ℤ → PcbBook) (t : ℕ) : List ℤ → Prop
  | [] => False
  | [q] => q = t ∧
      pcb q = { pid := q, parentId := -1, active := true, isBaseShell := true, terminalNum := t }
  | q :: p :: rest =>
      pcb q = { pid := q, parentId := p, active := true, isBaseShell := false, terminalNum := t } ∧
        Linked pcb t (p :: rest)

section Linked

variable {pcb pcb' : ℤ → PcbBook} {t : ℕ}

/-- `Linked` reads only the PCBs of the stack. -/
theorem Linked.congr : ∀ {l : List ℤ}, Linked pcb t l → (∀ q ∈ l, pcb' q = pcb q) → Linked pcb' t l
  | [_], ⟨hq, h⟩, heq => ⟨hq, (heq _ (List.mem_cons_self ..)).trans h⟩
  | _ :: _ :: _, ⟨h, hrest⟩, heq =>
    ⟨(heq _ (List.mem_cons_self ..)).trans h,
      hrest.congr fun q hq => heq q (List.mem_cons_of_mem _ hq)⟩

/-- What is common to the PCBs of a stack. -/
theorem Linked.of_mem : ∀ {l : List ℤ}, Linked pcb t l → ∀ q ∈ l,
    (pcb q).pid = q ∧ (pcb q).active = true ∧ (pcb q).terminalNum = t
  | [_], ⟨_, h⟩, q, hq => by
    obtain rfl := List.mem_singleton.1 hq
    simp [h]
  | _ :: _ :: _, ⟨h, hrest⟩, q, hq => by
    rcases List.mem_cons.1 hq with rfl | hq
    · simp [h]
    · exact hrest.of_mem q hq

/-- A stack with a base shell on top holds nothing else. -/
theorem Linked.eq_singleton {q : ℤ} {rest : List ℤ} (h : Linked pcb t (q :: rest))
    (hbase : (pcb q).isBaseShell = true) : rest = [] ∧ q = t := by
  cases rest with
  | nil => exact ⟨rfl, h.1⟩
  | cons p rest => simp [h.1] at hbase

/-- Under a process that is not a base shell there is its parent. -/
theorem Linked.exists_parent {q : ℤ} {rest : List ℤ} (h : Linked pcb t (q :: rest))
    (hbase : (pcb q).isBaseShell = false) : ∃ p rest', rest = p :: rest' := by
  cases rest with
  | nil => simp [h.2] at hbase
  | cons p rest => exact ⟨p, rest, rfl⟩

end Linked

/-- The bookkeeping `b` records the terminals `m`. -/
structure Represents (b : Book) (m : Terminals) : Prop where
  sound : m.Sound
  started : 0 < m.started
  pitCount : b.pitCount = m.started ∨ b.pitCount = 4 ∧ m.started = 3
  booting : b.pitCount < 4 → m.current + 1 = m.started ∧ ∀ t < m.started, m.stack t = [(t : ℤ)]
  current : b.scheduleIdx = m.current
  running : b.processNum = b.scheduleArray b.scheduleIdx
  scheduled : ∀ t < m.started, b.currPid t = b.scheduleArray t
  top : ∀ t < m.started, (m.stack t).head? = some (b.scheduleArray t)
  linked : ∀ t < m.started, Linked b.pcb t (m.stack t)
  covered : ∀ q, 0 ≤ q → (b.pcb q).active = true → ∃ t < m.started, q ∈ m.stack t
  idle : ∀ q, 0 ≤ q → (b.pcb q).active = false →
    (b.pcb q).isBaseShell = false ∧ (b.pcb q).parentId ≠ -1
  range : ∀ t, ∀ q ∈ m.stack t, 0 ≤ q ∧ q ≤ maxPcb

namespace Represents

variable {b : Book} {m : Terminals}

/-- The stack of the terminal that has its turn, with the running process on top. -/
theorem exists_stack (h : Represents b m) : m.current < m.started ∧
    ∃ rest, m.stack m.current = b.processNum :: rest ∧
      Linked b.pcb m.current (b.processNum :: rest) := by
  have hcur := h.sound.current_lt h.started
  have htop := h.top m.current hcur
  have hlinked := h.linked m.current hcur
  rw [← h.current, ← h.running, h.current] at htop
  obtain ⟨rest, hrest⟩ : ∃ rest, m.stack m.current = b.processNum :: rest := by
    cases hst : m.stack m.current with
    | nil => simp [hst] at htop
    | cons q rest =>
      rw [hst] at htop
      exact ⟨rest, by simpa using htop⟩
  exact ⟨hcur, rest, hrest, hrest ▸ hlinked⟩

/-- The running process is a process of the scheduled terminal. -/
theorem processNum_mem (h : Represents b m) : b.processNum ∈ m.stack m.current := by
  obtain ⟨-, rest, hst, -⟩ := h.exists_stack
  rw [hst]
  exact List.mem_cons_self ..

/-- The processes of the stacks are active. -/
theorem of_mem (h : Represents b m) {t : ℕ} {q : ℤ} (hq : q ∈ m.stack t) :
    t < m.started ∧ (b.pcb q).pid = q ∧ (b.pcb q).active = true ∧ (b.pcb q).terminalNum = t := by
  have ht : t < m.started := by
    by_contra hle
    rw [h.sound.empty t (by omega)] at hq
    exact absurd hq List.not_mem_nil
  exact ⟨ht, (h.linked t ht).of_mem q hq⟩

/-- A free PCB is in no stack. -/
theorem not_mem_of_free (h : Represents b m) {q : ℤ} (hfree : (b.pcb q).active = false) (t : ℕ) :
    q ∉ m.stack t := fun hq => by
  have := (h.of_mem hq).2.2.1
  simp [hfree] at this

/-- **Consistency of the running process:** the three ways to find it agree. -/
theorem running_eq (h : Represents b m) : b.currPid b.scheduleIdx = b.processNum ∧
    (b.pcb b.processNum).terminalNum = b.scheduleIdx ∧ 0 ≤ b.processNum ∧
    b.processNum ≤ maxPcb := by
  obtain ⟨hcur, -⟩ := h.exists_stack
  refine ⟨?_, ?_, h.range _ _ h.processNum_mem⟩
  · rw [h.running, h.current, h.scheduled _ hcur]
  · rw [(h.of_mem h.processNum_mem).2.2.2, h.current]

/-! ### A PCB that is in no stack -/

section Update

variable {pid q : ℤ} {p : PcbBook}

/-- The chains do not depend on it. -/
theorem linked_update (h : Represents b m) (hfresh : ∀ t, pid ∉ m.stack t) (p : PcbBook) {t : ℕ}
    (ht : t < m.started) : Linked (Function.update b.pcb pid p) t (m.stack t) :=
  (h.linked t ht).congr fun q hq =>
    Function.update_of_ne (fun heq : q = pid => hfresh t (heq ▸ hq)) _ _

/-- The other active processes are in the stacks. -/
theorem covered_update (h : Represents b m) (hq : 0 ≤ q) (hne : q ≠ pid)
    (hactive : (Function.update b.pcb pid p q).active = true) : ∃ t < m.started, q ∈ m.stack t := by
  rw [Function.update_of_ne hne] at hactive
  exact h.covered q hq hactive

/-- The free PCBs are other ones, when it is put to use. -/
theorem idle_update (h : Represents b m) (hp : p.active = true) (hq : 0 ≤ q)
    (hidle : (Function.update b.pcb pid p q).active = false) :
    (Function.update b.pcb pid p q).isBaseShell = false ∧
      (Function.update b.pcb pid p q).parentId ≠ -1 := by
  by_cases hqp : q = pid
  · rw [hqp, Function.update_self, hp] at hidle
    exact absurd hidle.symm Bool.false_ne_true
  · rw [Function.update_of_ne hqp] at hidle ⊢
    exact h.idle q hq hidle

end Update

/-! ### The operations -/

/-- **A process started** by the running one is a push. -/
theorem launch (h : Represents b m) {pid : ℤ} (hpit : b.pitCount = 4) (hlt : b.processNum < pid)
    (hle : pid ≤ maxPcb) (hfree : (b.pcb pid).active = false) :
    Represents (b.launch pid) { m with stack := push m.stack m.current pid } := by
  obtain ⟨hcur, rest, hst, hlinked⟩ := h.exists_stack
  obtain ⟨-, hterm, hpos, -⟩ := h.running_eq
  obtain ⟨hbase, hparent⟩ := h.idle pid (by omega) hfree
  have hfresh := h.not_mem_of_free hfree
  rw [b.launch_eq (by omega) hbase hparent (by omega), hterm, h.current]
  refine
    { sound := h.sound.move (.start h.started pid hfresh)
      started := h.started
      pitCount := h.pitCount
      booting := fun hlt => absurd hlt (by simp [hpit])
      current := rfl
      running := by simp
      scheduled := fun t ht => ?_
      top := fun t ht => ?_
      linked := fun t ht => ?_
      covered := fun q hq hactive => ?_
      idle := fun q hq hidle => ?_
      range := fun t q hq => ?_ }
  all_goals dsimp only at *
  · by_cases htc : t = m.current
    · simp [htc]
    · simpa [htc] using h.scheduled t ht
  · by_cases htc : t = m.current
    · simp [htc]
    · simpa [htc, push_of_ne htc] using h.top t ht
  · by_cases htc : t = m.current
    · subst htc
      rw [push_self, hst]
      exact ⟨by simp, hst ▸ h.linked_update hfresh _ hcur⟩
    · rw [push_of_ne htc]
      exact h.linked_update hfresh _ ht
  · by_cases hqp : q = pid
    · exact ⟨m.current, hcur, by simp [hqp]⟩
    · obtain ⟨t, ht, hmem⟩ := h.covered_update hq hqp hactive
      exact ⟨t, ht, mem_push_of_mem hmem⟩
  · exact h.idle_update rfl hq hidle
  · rcases mem_push hq with ⟨-, rfl⟩ | hq
    · exact ⟨by omega, hle⟩
    · exact h.range t q hq

/-- **The parent of the running process,** if that is not a base shell: an active process
right below it. -/
theorem exists_parent (h : Represents b m) (hbase : (b.pcb b.processNum).isBaseShell = false) :
    ∃ p rest, m.stack m.current = b.processNum :: p :: rest ∧
      Linked b.pcb m.current (b.processNum :: p :: rest) ∧ (b.pcb p).pid = p ∧
      (b.pcb p).active = true ∧ p ≠ b.processNum := by
  obtain ⟨-, rest, hst, hlinked⟩ := h.exists_stack
  obtain ⟨p, rest', rfl⟩ := hlinked.exists_parent hbase
  have hnodup := h.sound.separate.nodup m.current
  rw [hst] at hnodup
  have hp := hlinked.2.of_mem p (List.mem_cons_self ..)
  exact ⟨p, rest', hst, hlinked, hp.1, hp.2.1,
    fun heq => (List.nodup_cons.1 hnodup).1 (heq ▸ List.mem_cons_self ..)⟩

/-- What its halt does to the PCBs: its own is free. -/
theorem halt_pcb (h : Represents b m) (hbase : (b.pcb b.processNum).isBaseShell = false) :
    (b.halt b.processNum).pcb
      = Function.update b.pcb b.processNum { b.pcb b.processNum with active := false } := by
  obtain ⟨p, rest, -, hlinked, hpid, hactive, hne⟩ := h.exists_parent hbase
  rw [b.halt_eq hlinked.1 hpid hactive hne]

/-- **The halt of a process** that is not a base shell is a pop. -/
theorem halt (h : Represents b m) (hpit : b.pitCount = 4)
    (hbase : (b.pcb b.processNum).isBaseShell = false) :
    2 ≤ (m.stack m.current).length ∧
      Represents (b.halt b.processNum) { m with stack := pop m.stack m.current } := by
  obtain ⟨p, rest', hst, hlinked, hpid, hactive, hne⟩ := h.exists_parent hbase
  have hlen : 2 ≤ (m.stack m.current).length := by simp [hst]
  have hnodup := h.sound.separate.nodup m.current
  rw [hst] at hnodup
  have hnot : b.processNum ∉ p :: rest' := (List.nodup_cons.1 hnodup).1
  rw [b.halt_eq hlinked.1 hpid hactive hne]
  have hpcb : ∀ q ≠ b.processNum, Function.update b.pcb b.processNum
      { b.pcb b.processNum with active := false } q = b.pcb q :=
    fun q hq => Function.update_of_ne hq _ _
  refine ⟨hlen,
    { sound := h.sound.move (.finish hlen)
      started := h.started
      pitCount := h.pitCount
      booting := fun hlt => absurd hlt (by simp [hpit])
      current := h.current
      running := by simp [h.current]
      scheduled := fun t ht => ?_
      top := fun t ht => ?_
      linked := fun t ht => ?_
      covered := fun q hq hactive => ?_
      idle := fun q hq hidle => ?_
      range := fun t q hq => h.range t q (mem_of_mem_pop hq) }⟩
  all_goals dsimp only at *
  · by_cases htc : t = m.current
    · simp [htc]
    · simpa [htc] using h.scheduled t ht
  · by_cases htc : t = m.current
    · simp [htc, hst]
    · simpa [htc, pop_of_ne htc] using h.top t ht
  · by_cases htc : t = m.current
    · subst htc
      rw [pop_self, hst]
      exact hlinked.2.congr fun q hq => hpcb q fun heq => hnot (heq ▸ hq)
    · rw [pop_of_ne htc]
      exact (h.linked t ht).congr fun q hq => hpcb q fun heq => htc
        (h.sound.eq_of_mem (heq ▸ hq) h.processNum_mem)
  · have hqp : q ≠ b.processNum := by
      rintro rfl
      simp at hactive
    rw [hpcb q hqp] at hactive
    obtain ⟨t, ht, hq⟩ := h.covered q hq hactive
    refine ⟨t, ht, ?_⟩
    by_cases htc : t = m.current
    · subst htc
      rw [hst] at hq
      rw [pop_self, hst]
      exact (List.mem_cons.1 hq).resolve_left hqp
    · rwa [pop_of_ne htc]
  · by_cases hqp : q = b.processNum
    · have hp0 := (h.range m.current p (by simp [hst])).1
      subst hqp
      simp only [Function.update_self, hlinked.1]
      exact ⟨trivial, by omega⟩
    · rw [hpcb q hqp] at hidle ⊢
      exact h.idle q hq hidle

/-- **The halt of a base shell** changes nothing in the bookkeeping. -/
theorem restart (h : Represents b m) (hpit : b.pitCount = 4)
    (hbase : (b.pcb b.processNum).isBaseShell = true) :
    b.restart (b.pcb b.processNum).pid = b := by
  obtain ⟨hcur, rest, hst, hlinked⟩ := h.exists_stack
  obtain ⟨rfl, heq⟩ := hlinked.eq_singleton hbase
  have harray : b.scheduleArray m.current = b.processNum := by rw [h.running, h.current]
  rw [(h.of_mem h.processNum_mem).2.1]
  exact b.restart_eq (by omega) hlinked.2 rfl harray ((h.scheduled _ hcur).trans harray)

/-- **A tick** gives the next terminal its turn; the fourth one ends the boot. -/
theorem rotate (h : Represents b m) (hpit : 3 ≤ b.pitCount) :
    m.started = 3 ∧
      Represents b.finishBoot.rotate { m with current := (m.current + 1) % 3 } := by
  have hstarted : m.started = 3 := by
    have := h.sound.started_le
    rcases h.pitCount with hp | hp <;> omega
  have hfinish : b.finishBoot = { b with pitCount := 4 } := by
    unfold Book.finishBoot
    split_ifs with hthree
    · have hboot := h.booting (by omega)
      obtain ⟨hcur, rest, hst, hlinked⟩ := h.exists_stack
      rw [hboot.2 _ hcur] at hst
      obtain ⟨hq, rfl⟩ : (m.current : ℤ) = b.processNum ∧ rest = [] := by simpa using hst
      rw [Book.modifyPcb_eq_self (by rw [hlinked.2])]
      simp [hthree]
    · have hfour : b.pitCount = 4 := by rcases h.pitCount with hp | hp <;> omega
      rw [← hfour]
  have hcur := h.sound.current_lt h.started
  rw [hfinish]
  refine ⟨hstarted,
    { sound := h.sound.move (.rotate hstarted)
      started := h.started
      pitCount := Or.inr ⟨rfl, hstarted⟩
      booting := fun hlt => absurd hlt (by simp [Book.rotate])
      current := ?_
      running := rfl
      scheduled := h.scheduled
      top := h.top
      linked := h.linked
      covered := h.covered
      idle := h.idle
      range := h.range }⟩
  simp only [Book.rotate, h.current]
  split_ifs <;> omega

/-- **A base shell started** at boot: the next terminal gets its shell and the turn. -/
theorem boot (h : Represents b m) (hpit : b.pitCount < 3) :
    Represents
      (b.nextTerminal.launch m.started)
      { started := m.started + 1, current := m.started
        stack := push m.stack m.started m.started } := by
  obtain ⟨hcur, hstacks⟩ := h.booting (by omega)
  have hstarted : b.pitCount = m.started := by rcases h.pitCount with hp | hp <;> omega
  have hactive := (h.of_mem h.processNum_mem).2.2.1
  have hfresh : ∀ t, (m.started : ℤ) ∉ m.stack t := fun t ht => by
    have hlt := (h.of_mem ht).1
    rw [hstacks t hlt, List.mem_singleton] at ht
    omega
  have hnext : b.nextTerminal = { b with scheduleIdx := b.scheduleIdx + 1 } := by
    rw [Book.nextTerminal, Book.modifyPcb_eq_self (by rw [← hactive])]
  have hpit' : ({ b with scheduleIdx := b.scheduleIdx + 1 } : Book).pitCount < 3 := hpit
  rw [hnext, Book.launch_eq_of_boot hpit']
  refine
    { sound := h.sound.move (.boot (by omega) hfresh)
      started := Nat.succ_pos _
      pitCount := Or.inl (by simp [hstarted])
      booting := fun _ => ⟨rfl, fun t ht => ?_⟩
      current := by simp [h.current, hcur]
      running := by simp [h.current, hcur, hstarted]
      scheduled := fun t ht => ?_
      top := fun t ht => ?_
      linked := fun t ht => ?_
      covered := fun q hq hq' => ?_
      idle := fun q hq hq' => ?_
      range := fun t q hq => ?_ }
  all_goals dsimp only at *
  · by_cases hts : t = m.started
    · subst hts
      rw [push_self, h.sound.empty _ (Nat.le_refl _)]
    · rw [push_of_ne hts]
      exact hstacks t (by omega)
  · by_cases hts : t = m.started
    · simp [hts, hstarted]
    · simpa [hts, hstarted] using h.scheduled t (by omega)
  · by_cases hts : t = m.started
    · simp [hts, hstarted]
    · simpa [hts, hstarted, push_of_ne hts] using h.top t (by omega)
  · by_cases hts : t = m.started
    · subst hts
      rw [push_self, h.sound.empty _ (Nat.le_refl _)]
      exact ⟨rfl, by simp [hstarted]⟩
    · rw [push_of_ne hts]
      exact h.linked_update hfresh _ (by omega)
  · by_cases hqs : q = m.started
    · exact ⟨m.started, by omega, by simp [hqs]⟩
    · obtain ⟨t, ht, hmem⟩ := h.covered_update hq hqs hq'
      exact ⟨t, by omega, mem_push_of_mem hmem⟩
  · exact h.idle_update rfl hq hq'
  · rcases mem_push hq with ⟨-, rfl⟩ | hmem
    · have := h.sound.started_le
      exact ⟨by omega, by simp only [maxPcb]; omega⟩
    · exact h.range t q hmem

end Represents

end OS391
