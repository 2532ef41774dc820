/-
# Rules for runs of machine code

A run through placed code is a chain of steps, one for each instruction (`Placed.step`); at
a conditional jump the chain goes on by `Placed.jump` or by `Placed.fall`.  What a jump
tests was computed by the instruction before it, and the `holds_` lemmas say it of the
operands: `jz` after `test`, and the signed and unsigned comparisons after `cmp`.

A whole `rep` instruction is one step.  `iterate_stos` says what `rep stos` leaves, and
`iterate_movs_up` and `iterate_movs_down` what `rep movs` does, where the direction is one
in which no byte is overwritten before it is read (`Mem.Ahead`, `Mem.Behind`).
-/

import OS391.Lib.X86

namespace OS391
namespace Lib

/-! ### Copies whose stretches overlap -/

namespace Mem

variable {m : Mem} {dst src : BitVec 32} {n k l : ℕ}

/-- Going up from `src` to `dst`, no byte is overwritten before it is read. -/
def Ahead (dst src : BitVec 32) (n : ℕ) : Prop :=
  ∀ k < n, ∀ j < k, dst + BitVec.ofNat 32 j ≠ src + BitVec.ofNat 32 k

/-- Going down, no byte is overwritten before it is read. -/
def Behind (dst src : BitVec 32) (n : ℕ) : Prop :=
  ∀ j < n, ∀ k < j, dst + BitVec.ofNat 32 j ≠ src + BitVec.ofNat 32 k

/-- The destination does not begin inside the source. -/
theorem ahead_of_distance (h : dst = src ∨ n ≤ (dst - src).toNat) (hn : n ≤ 2 ^ 32) :
    Ahead dst src n := by
  intro k hk j hj heq
  rcases h with rfl | h
  · bv_omega
  · bv_omega

/-- The rest of a copy. -/
theorem Ahead.shift {r : ℕ} (h : Ahead dst src n) (hk : k + r ≤ n) :
    Ahead (dst + BitVec.ofNat 32 k) (src + BitVec.ofNat 32 k) r := by
  intro i hi j hj heq
  rw [add_ofNat_add, add_ofNat_add] at heq
  exact h (k + i) (by omega) (k + j) (by omega) heq

/-- Going down from the last byte of a stretch. -/
theorem add_ofNat_sub_sub (a : BitVec 32) (h : k < n) :
    a + BitVec.ofNat 32 n - 1 - BitVec.ofNat 32 k = a + BitVec.ofNat 32 (n - (k + 1)) := by
  obtain ⟨m, rfl⟩ := Nat.exists_eq_add_of_lt h
  rw [show k + m + 1 - (k + 1) = m by omega, Nat.add_comm k m, BitVec.ofNat_add, BitVec.ofNat_add]
  generalize BitVec.ofNat 32 m = x
  generalize BitVec.ofNat 32 k = y
  bv_omega

theorem sub_ofNat_sub_one (a : BitVec 32) (n : ℕ) :
    a - BitVec.ofNat 32 n - 1#32 = a - BitVec.ofNat 32 (n + 1) := by
  rw [BitVec.ofNat_add]
  bv_omega

/-- Stretches without a common byte can be copied going up. -/
theorem Apart.ahead (h : Apart dst n src n) : Ahead dst src n :=
  fun k hk j hj => h j (by omega) k hk

/-- So can a stretch that is moved down and does not wrap. -/
theorem ahead_of_le (h : dst ≤ src) (hsrc : src.toNat + n ≤ 2 ^ 32) : Ahead dst src n := by
  intro k hk j hj heq
  bv_omega

/-- A stretch that is moved up and does not wrap can be copied going down. -/
theorem behind_of_lt (h : src < dst) (hdst : dst.toNat + n ≤ 2 ^ 32) : Behind dst src n := by
  intro j hj k hk heq
  bv_omega

/-- **Going up**, the next `l` bytes are still those of the source. -/
theorem Ahead.write_append (h : Ahead dst src n) (hkl : k + l ≤ n) (hn : n ≤ 2 ^ 32) :
    (m.write dst (m.read src k)).write (dst + BitVec.ofNat 32 k)
      ((m.write dst (m.read src k)).read (src + BitVec.ofNat 32 k) l) =
    m.write dst (m.read src (k + l)) := by
  have hread : (m.write dst (m.read src k)).read (src + BitVec.ofNat 32 k) l =
      m.read (src + BitVec.ofNat 32 k) l := by
    refine read_write fun i hi j hj => ?_
    rw [length_read] at hj
    rw [add_ofNat_add]
    exact (h (k + i) (by omega) j (by omega)).symm
  rw [hread, read_add]
  have := Mem.write_append m dst (m.read src k) (m.read (src + BitVec.ofNat 32 k) l)
    (by simp; omega)
  rwa [length_read] at this

/-- **Going down**, the next byte is still that of the source. -/
theorem Behind.write_prepend (h : Behind dst src n) (hkl : k + 1 + l ≤ n) (hn : n ≤ 2 ^ 32) :
    (m.write (dst + BitVec.ofNat 32 (k + 1)) (m.read (src + BitVec.ofNat 32 (k + 1)) l)).write
      (dst + BitVec.ofNat 32 k)
      ((m.write (dst + BitVec.ofNat 32 (k + 1)) (m.read (src + BitVec.ofNat 32 (k + 1)) l)).read
        (src + BitVec.ofNat 32 k) 1) =
    m.write (dst + BitVec.ofNat 32 k) (m.read (src + BitVec.ofNat 32 k) (1 + l)) := by
  have hread : (m.write (dst + BitVec.ofNat 32 (k + 1))
      (m.read (src + BitVec.ofNat 32 (k + 1)) l)).read (src + BitVec.ofNat 32 k) 1 =
      m.read (src + BitVec.ofNat 32 k) 1 := by
    refine read_write fun i hi j hj => ?_
    rw [length_read] at hj
    rw [add_ofNat_add, add_ofNat_add]
    exact (h (k + 1 + j) (by omega) (k + i) (by omega)).symm
  rw [hread, read_add, add_ofNat_add, ← add_ofNat_add dst k 1]
  have := Mem.write_prepend m (dst + BitVec.ofNat 32 k) (m.read (src + BitVec.ofNat 32 k) 1)
    (m.read (src + BitVec.ofNat 32 (k + 1)) l) (by simp; omega)
  rwa [length_read] at this

end Mem

namespace X86

open Cpu

variable {M : Machine} {loc : ℕ → Word} {is : List Instr}
  {c c' : Cpu} {k : ℕ}

/-! ### Steps -/

/-- **The step at a placed instruction.** -/
theorem Placed.step (hp : Placed M loc is) {i : Instr} (hk : is[k]? = some i)
    (heip : c.eip = loc k) :
    CpuStep M c (M.sys.exec c.eip i (c.goto (loc (k + 1)))) :=
  .instr i _ (heip ▸ hp k i hk) rfl

/-- A conditional jump that is taken. -/
theorem Placed.jump (hp : Placed M loc is) {cond : Cond} {t : Word}
    (hk : is[k]? = some (.jcc cond t)) (heip : c.eip = loc k) (h : c.holds cond = true) :
    CpuStep M c (c.goto t) := by
  have hstep : CpuStep M c (M.sys.exec c.eip _ (c.goto (loc (k + 1)))) :=
    hp.step hk heip
  rwa [Sys.exec, if_pos (by exact h)] at hstep

/-- A conditional jump that is not taken. -/
theorem Placed.fall (hp : Placed M loc is) {cond : Cond} {t : Word}
    (hk : is[k]? = some (.jcc cond t)) (heip : c.eip = loc k) (h : c.holds cond = false) :
    CpuStep M c (c.goto (loc (k + 1))) := by
  have hstep : CpuStep M c (M.sys.exec c.eip _ (c.goto (loc (k + 1)))) :=
    hp.step hk heip
  have h' : ¬ (c.goto (loc (k + 1))).holds cond = true := by
    exact ne_true_of_eq_false h
  rwa [Sys.exec, if_neg h'] at hstep

theorem Placed.alone (hp : Placed M loc is) : Placed M.alone loc is := hp

/-- A whole `rep stos`. -/
theorem Placed.repStos (hp : Placed M loc is) {size : ℕ}
    (hk : is[k]? = some (.repStos size)) (heip : c.eip = loc k) :
    CpuStep M c ((stos size)^[(c.reg .ecx).toNat] (c.goto (loc (k + 1)))) :=
  hp.step hk heip

/-- A whole `rep movs`. -/
theorem Placed.repMovs (hp : Placed M loc is) {size : ℕ}
    (hk : is[k]? = some (.repMovs size)) (heip : c.eip = loc k) :
    CpuStep M c ((movs size)^[(c.reg .ecx).toNat] (c.goto (loc (k + 1)))) :=
  hp.step hk heip

/-- An `iret`. -/
theorem Placed.iret (hp : Placed M loc is) (hk : is[k]? = some .iret) (heip : c.eip = loc k) :
    CpuStep M c (M.sys.iret (c.goto (loc (k + 1)))) :=
  hp.step hk heip

/-! ### Placing code -/

/-- The instructions one address after the other, from `base` on. -/
def assemble (is : List Instr) (base : Word) : Code :=
  fun a => is[(a - base).toNat]?.map fun i => (i, a + 1)

theorem placed_assemble (base : Word) (h : is.length ≤ 2 ^ 32)
    (hcode : ∀ k < is.length, M.code (base + BitVec.ofNat 32 k) =
      assemble is base (base + BitVec.ofNat 32 k)) :
    Placed M (fun k => base + BitVec.ofNat 32 k) is := by
  intro k i hk
  have hlt : k < is.length := (List.getElem?_eq_some_iff.1 hk).1
  rw [hcode k hlt, assemble, Mem.add_ofNat_sub base (by omega), hk]
  exact congrArg (fun a => some (i, a)) (Mem.add_ofNat_add base k 1)

/-- The addresses from `base` on. -/
def labels (base : Word) (k : ℕ) : Word := base + BitVec.ofNat 32 k

/-- A machine with the instructions from `base` on, and nothing else. -/
def bare (is : (ℕ → Word) → List Instr) (base : Word) : Machine where
  sys := ⟨fun _ => none, 0, 0, fun _ => 0⟩
  code := assemble (is (labels base)) base
  ext _ _ := False

theorem placed_bare {is : (ℕ → Word) → List Instr} (base : Word)
    (h : (is (labels base)).length ≤ 2 ^ 32) :
    Placed (bare is base) (labels base) (is (labels base)) :=
  placed_assemble base h fun _ _ => rfl

/-! ### Flags -/

theorem getLsbD_setBit (w : Word) {i : ℕ} (j : ℕ) (b : Bool) (hi : i < 32) :
    (setBit w i b).getLsbD j = if j = i then b else w.getLsbD j := by
  cases b <;> by_cases h : j = i <;> simp [setBit, BitVec.getLsbD_twoPow, h, hi] <;> grind

@[simp] theorem df_goto (c : Cpu) (a : Word) : (c.goto a).df = c.df := rfl

@[simp] theorem intf_goto (c : Cpu) (a : Word) : (c.goto a).intf = c.intf := rfl

@[simp] theorem intf_push (c : Cpu) (w : Word) : (c.push w).intf = c.intf := rfl

@[simp] theorem df_set (c : Cpu) (r : Reg) (v : Word) : (c.set r v).df = c.df := rfl

/-- The direction flag after `cld` and `std`. -/
@[simp] theorem df_withFlags_setBit (c : Cpu) (w : Word) (b : Bool) :
    (c.withFlags (setBit w 10 b)).df = b := by
  simp only [df, withFlags_eflags, getLsbD_setBit, Nat.reduceLT, if_true]

section SetFlags

variable (c : Cpu) (r : Word) (carry overflow : Bool)

@[simp] theorem zf_setFlags : (c.setFlags r carry overflow).zf = (r == 0) := by
  simp only [zf, setFlags, withFlags_eflags, flagsOf, getLsbD_setBit, Nat.reduceLT]
  simp

@[simp] theorem sf_setFlags : (c.setFlags r carry overflow).sf = r.msb := by
  simp only [sf, setFlags, withFlags_eflags, flagsOf, getLsbD_setBit, Nat.reduceLT]
  simp

@[simp] theorem cf_setFlags : (c.setFlags r carry overflow).cf = carry := by
  simp only [cf, setFlags, withFlags_eflags, flagsOf, getLsbD_setBit, Nat.reduceLT]
  simp

@[simp] theorem ovf_setFlags : (c.setFlags r carry overflow).ovf = overflow := by
  simp only [ovf, setFlags, withFlags_eflags, flagsOf, getLsbD_setBit, Nat.reduceLT]
  simp

@[simp] theorem intf_setFlags : (c.setFlags r carry overflow).intf = c.intf := by
  simp only [intf, setFlags, withFlags_eflags, flagsOf, getLsbD_setBit, Nat.reduceLT]
  simp

@[simp] theorem df_setFlags : (c.setFlags r carry overflow).df = c.df := by
  simp only [df, setFlags, withFlags_eflags, flagsOf, getLsbD_setBit, Nat.reduceLT]
  simp

/-- `jz` after an instruction with the result `r`. -/
@[simp] theorem holds_z : (c.setFlags r carry overflow).holds .z = (r == 0) := zf_setFlags ..

end SetFlags

/-- The sign of a difference and its overflow decide the signed comparison. -/
theorem msb_sub_bne_ssubOverflow (a b : Word) :
    ((a - b).msb != BitVec.ssubOverflow a b) = a.slt b := by
  have ha := a.toInt_lt
  have hb := b.toInt_lt
  have ha' := a.le_toInt
  have hb' := b.le_toInt
  simp [BitVec.msb_eq_toInt, BitVec.ssubOverflow, BitVec.slt, BitVec.toInt_sub, Int.bmod]
  grind

variable (c) (a b : Word)

@[simp] theorem df_cmp : (c.cmp a b).df = c.df := df_setFlags ..

@[simp] theorem intf_cmp : (c.cmp a b).intf = c.intf := intf_setFlags ..

/-- `jge` after `cmp`. -/
@[simp] theorem holds_ge : (c.cmp a b).holds .ge = b.sle a := by
  have h := msb_sub_bne_ssubOverflow a b
  rw [Cpu.cmp, Cpu.holds, sf_setFlags, ovf_setFlags, BitVec.sle_eq_not_slt, ← h]
  simp [bne]

/-- `jle` after `cmp`. -/
@[simp] theorem holds_le : (c.cmp a b).holds .le = a.sle b := by
  have h := msb_sub_bne_ssubOverflow a b
  have heq : (a - b == 0) = decide (a.toInt = b.toInt) := by
    rw [Bool.eq_iff_iff, beq_iff_eq, decide_eq_true_iff, BitVec.toInt_inj]
    constructor <;> intro h <;> bv_omega
  rw [Cpu.cmp, Cpu.holds, zf_setFlags, sf_setFlags, ovf_setFlags, h, heq, Bool.eq_iff_iff]
  simp only [BitVec.slt, BitVec.sle, Bool.or_eq_true, decide_eq_true_iff]
  omega

/-- `jae` after `cmp`. -/
@[simp] theorem holds_ae : (c.cmp a b).holds .ae = decide (b ≤ a) := by
  rw [Cpu.cmp, Cpu.holds, cf_setFlags, Bool.eq_iff_iff]
  simp [BitVec.usubOverflow, BitVec.le_def]

/-! ### The stack -/

section Stack

variable {c : Cpu} {w : Word} {ws : List Word} {r : Reg}

/-- The words `ws` are on top of the stack. -/
def Cpu.Stack (c : Cpu) (ws : List Word) : Prop := c.mem.Holds (c.reg .esp) ws

theorem Cpu.Stack.push (h : c.Stack ws) (w : Word) (hlen : 4 * (ws.length + 1) ≤ 2 ^ 32) :
    (c.push w).Stack (w :: ws) := by
  have := Mem.Holds.push h w hlen
  simpa [Cpu.Stack] using this

theorem Cpu.Stack.top (h : c.Stack (w :: ws)) : c.top = w := h.1

theorem Cpu.Stack.drop (h : c.Stack (w :: ws)) : c.drop.Stack ws := by
  have := h.2
  simpa [Cpu.Stack] using this

theorem Cpu.Stack.pop (h : c.Stack (w :: ws)) (hr : r ≠ .esp) : (c.pop r).Stack ws := by
  have := h.2
  simpa [Cpu.Stack, hr.symm] using this

theorem Cpu.Stack.load (h : c.Stack ws) {i : ℕ} (hi : i < ws.length) :
    c.mem.load (c.reg .esp + BitVec.ofNat 32 (4 * i)) = ws[i] :=
  Mem.Holds.load h hi

theorem Cpu.stack_nil (c : Cpu) : c.Stack [] := Mem.holds_nil

@[simp] theorem Cpu.stack_goto (a : Word) : (c.goto a).Stack ws ↔ c.Stack ws := Iff.rfl

@[simp] theorem Cpu.stack_withFlags : (c.withFlags w).Stack ws ↔ c.Stack ws := Iff.rfl

@[simp] theorem Cpu.stack_withCs (s : BitVec 16) : (c.withCs s).Stack ws ↔ c.Stack ws := Iff.rfl

/-- `c'` is `c` with the words `ws` pushed. -/
structure Cpu.Pushes (ws : List Word) (c c' : Cpu) : Prop where
  esp : c'.reg .esp = c.reg .esp - BitVec.ofNat 32 (4 * ws.length)
  words : c'.Stack ws
  mem : Mem.Outside (c'.reg .esp) (4 * ws.length) c.mem c'.mem
  reg : ∀ r, r ≠ .esp → c'.reg r = c.reg r
  cs : c'.cs = c.cs
  ss : c'.ss = c.ss
  ds : c'.ds = c.ds
  es : c'.es = c.es

theorem Cpu.Pushes.nil (c : Cpu) : Cpu.Pushes [] c c where
  esp := by simp
  words := stack_nil c
  mem _ _ := rfl
  reg _ _ := rfl
  cs := rfl
  ss := rfl
  ds := rfl
  es := rfl

theorem Cpu.Pushes.goto {c' : Cpu} (h : Cpu.Pushes ws c c') (a : Word) :
    Cpu.Pushes ws c (c'.goto a) :=
  ⟨h.esp, h.words, h.mem, h.reg, h.cs, h.ss, h.ds, h.es⟩

theorem Cpu.Pushes.withFlags {c' : Cpu} (h : Cpu.Pushes ws c c') (w : Word) :
    Cpu.Pushes ws c (c'.withFlags w) :=
  ⟨h.esp, h.words, h.mem, h.reg, h.cs, h.ss, h.ds, h.es⟩

/-- **One more push.** -/
theorem Cpu.Pushes.push {c' : Cpu} (h : Cpu.Pushes ws c c') (w : Word)
    (hlen : 4 * (ws.length + 1) ≤ 2 ^ 32) : Cpu.Pushes (w :: ws) c (c'.push w) where
  esp := by
    rw [push_reg, Function.update_self, h.esp, List.length_cons, Nat.mul_succ, BitVec.ofNat_add]
    generalize BitVec.ofNat 32 (4 * ws.length) = x
    bv_omega
  words := h.words.push w hlen
  mem := by
    have := h.mem.store_below (by omega) w
    simpa [Nat.mul_succ] using this
  reg r hr := by simpa [hr] using h.reg r hr
  cs := h.cs
  ss := h.ss
  ds := h.ds
  es := h.es

/-- What was on the stack is under the words pushed. -/
theorem Cpu.Pushes.stack {c' : Cpu} {frame : List Word} (h : Cpu.Pushes ws c c')
    (hframe : c.Stack frame) (hlen : 4 * (ws.length + frame.length) ≤ 2 ^ 32) :
    c'.Stack (ws ++ frame) := by
  have hesp : c'.reg .esp + BitVec.ofNat 32 (4 * ws.length) = c.reg .esp := by
    rw [h.esp, BitVec.sub_add_cancel]
  have hapart : Mem.Apart (c.reg .esp) (4 * frame.length) (c'.reg .esp) (4 * ws.length) := by
    rw [← hesp]
    exact Mem.apart_behind _ (by omega)
  have hframe' : c'.mem.Holds (c.reg .esp) frame := Mem.Holds.congr hframe (h.mem.read hapart)
  exact h.words.append (by rwa [hesp])

/-- **Pushes after pushes.** -/
theorem Cpu.Pushes.trans {vs : List Word} {c' c'' : Cpu} (h : Cpu.Pushes ws c c')
    (h' : Cpu.Pushes vs c' c'') (hlen : 4 * (vs.length + ws.length) ≤ 2 ^ 32) :
    Cpu.Pushes (vs ++ ws) c c'' where
  esp := by
    rw [h'.esp, h.esp, List.length_append, Nat.mul_add, BitVec.ofNat_add]
    generalize BitVec.ofNat 32 (4 * vs.length) = x
    generalize BitVec.ofNat 32 (4 * ws.length) = y
    bv_omega
  words := h'.stack h.words hlen
  mem := by
    have hback : c''.reg .esp + BitVec.ofNat 32 (4 * vs.length) = c'.reg .esp := by
      rw [h'.esp, BitVec.sub_add_cancel]
    have hfirst : Mem.Outside (c''.reg .esp) (4 * (vs ++ ws).length) c.mem c'.mem := by
      have hmem := h.mem
      rw [← hback] at hmem
      exact hmem.mono (by rw [List.length_append]; omega)
    have hthen : Mem.Outside (c''.reg .esp) (4 * (vs ++ ws).length) c'.mem c''.mem := by
      have hmem := h'.mem
      rw [← BitVec.add_zero (c''.reg .esp)] at hmem
      exact Mem.Outside.mono (i := 0) hmem (by rw [List.length_append]; omega)
    exact hfirst.trans hthen
  reg r hr := (h'.reg r hr).trans (h.reg r hr)
  cs := h'.cs.trans h.cs
  ss := h'.ss.trans h.ss
  ds := h'.ds.trans h.ds
  es := h'.es.trans h.es

/-- **What a gate pushes** when it enters a more privileged level: the words `iret` takes
back, on the stack of the task-state segment, under the error code if there is one. -/
theorem Sys.pushes_enter (sys : Sys) {g : Gate} (h : sys.dpl g.selector < c.cpl)
    (error : Option Word) :
    ∃ c', Cpu.Pushes
        (error.toList ++ [c.eip, c.cs.setWidth 32, c.eflags, c.reg .esp, c.ss.setWidth 32])
        ((c.withSs sys.ss0).set .esp sys.esp0) c' ∧
      (sys.enter g error c).reg = c'.reg ∧ (sys.enter g error c).mem = c'.mem := by
  have hframe := (((((Cpu.Pushes.nil ((c.withSs sys.ss0).set .esp sys.esp0)).push
    (c.ss.setWidth 32) (by decide)).push (c.reg .esp) (by simp)).push c.eflags (by simp)).push
      (c.cs.setWidth 32) (by simp)).push c.eip (by simp)
  rw [Sys.enter, changeStack, if_pos h]
  cases error with
  | none => exact ⟨_, hframe, rfl, rfl⟩
  | some e => exact ⟨_, hframe.push e (by simp), rfl, rfl⟩

/-- What it pushes inside a level: three words, on the stack in use. -/
theorem Sys.pushes_enter_same (sys : Sys) {g : Gate} (h : ¬ sys.dpl g.selector < c.cpl) :
    ∃ c', Cpu.Pushes [c.eip, c.cs.setWidth 32, c.eflags] c c' ∧
      (sys.enter g none c).reg = c'.reg ∧ (sys.enter g none c).mem = c'.mem := by
  have hframe := (((Cpu.Pushes.nil c).push c.eflags (by simp)).push (c.cs.setWidth 32)
    (by simp)).push c.eip (by simp)
  rw [Sys.enter, changeStack, if_neg h]
  exact ⟨_, hframe, rfl, rfl⟩

/-- The words on the stack after it. -/
theorem Sys.stack_enter (sys : Sys) {g : Gate} (h : sys.dpl g.selector < c.cpl)
    (error : Option Word) :
    (sys.enter g error c).Stack
      (error.toList ++ [c.eip, c.cs.setWidth 32, c.eflags, c.reg .esp, c.ss.setWidth 32]) := by
  obtain ⟨c', hpushes, hreg, hmem⟩ := sys.pushes_enter h error
  rw [Cpu.Stack, hreg, hmem]
  exact hpushes.words

/-- The stack that it changes to. -/
theorem Sys.enter_outer (sys : Sys) {g : Gate} (h : sys.dpl g.selector < c.cpl)
    (error : Option Word) :
    (sys.enter g error c).ss = sys.ss0 ∧
      (sys.enter g error c).reg .esp = sys.esp0 - BitVec.ofNat 32 (4 * (error.toList.length + 5)) ∧
      Mem.Outside ((sys.enter g error c).reg .esp) (4 * (error.toList.length + 5)) c.mem
        (sys.enter g error c).mem := by
  obtain ⟨c', hpushes, hreg, hmem⟩ := sys.pushes_enter h error
  have hesp := hpushes.esp
  have houtside := hpushes.mem
  rw [List.length_append] at hesp houtside
  refine ⟨?_, ?_, ?_⟩
  · rw [Sys.enter, changeStack, if_pos h]
    cases error with
    | none => rfl
    | some e => rfl
  · rw [hreg]
    exact hesp
  · rw [hreg, hmem]
    exact houtside

/-- What `iret` leaves: the five words a gate pushed, everywhere they came from. -/
structure Cpu.BackTo (c c' : Cpu) (ip cs fl sp ss : Word) : Prop where
  eip : c'.eip = ip
  cs : c'.cs = cs.setWidth 16
  eflags : c'.eflags = fl
  esp : c'.reg .esp = sp
  ss : c'.ss = ss.setWidth 16
  mem : c'.mem = c.mem
  reg : ∀ r, r ≠ .esp → c'.reg r = c.reg r

/-- **`iret` to a less privileged level.** -/
theorem Sys.iret_outer (sys : Sys) {ip cs fl sp ss : Word}
    (h : c.Stack (ip :: cs :: fl :: sp :: ss :: ws)) (hcpl : c.cpl = 0)
    (hlevel : c.cpl < cs.setWidth 2) : c.BackTo (sys.iret c) ip cs fl sp ss := by
  have hip := h.top
  have hcs := h.drop.top
  have hfl := h.drop.drop.top
  have hsp := h.drop.drop.drop.top
  have hss := h.drop.drop.drop.drop.top
  have hpos : c.cpl < (c.drop.top.setWidth 16 : BitVec 16).setWidth 2 := by
    rw [hcs, BitVec.setWidth_setWidth_of_le cs (by omega)]
    exact hlevel
  rw [Sys.iret, if_pos hpos, loadFlags, if_pos hcpl, hip, hcs, hfl]
  constructor
  · rfl
  · rfl
  · rfl
  · simpa [Cpu.top] using hsp
  · simpa [Cpu.top] using congrArg (BitVec.setWidth 16) hss
  · simp
  · intro r hr
    simp [hr]

/-- **`iret` inside a level**: the stack goes on behind the three words. -/
theorem Sys.iret_inner (sys : Sys) {ip cs fl : Word} (h : c.Stack (ip :: cs :: fl :: ws))
    (hcpl : c.cpl = 0) (hlevel : cs.setWidth 2 = (0 : BitVec 2)) :
    c.BackTo (sys.iret c) ip cs fl (c.reg .esp + 12) (c.ss.setWidth 32) := by
  have hip := h.top
  have hcs := h.drop.top
  have hfl := h.drop.drop.top
  have hpos : ¬ c.cpl < (c.drop.top.setWidth 16 : BitVec 16).setWidth 2 := by
    rw [hcs, BitVec.setWidth_setWidth_of_le cs (by omega), hcpl, hlevel]
    exact Nat.lt_irrefl 0
  rw [Sys.iret, if_neg hpos, loadFlags, if_pos hcpl, hip, hcs, hfl]
  constructor
  · rfl
  · rfl
  · rfl
  · simp [BitVec.add_assoc]
  · simp
  · simp
  · intro r hr
    simp [hr]

/-- The data segments after a return to a less privileged level. -/
theorem Sys.data_iret_outer (sys : Sys) {ip cs : Word} (h : c.Stack (ip :: cs :: ws))
    (hlevel : c.cpl < cs.setWidth 2) :
    (sys.iret c).ds = sys.returned (cs.setWidth 2) c.ds ∧
      (sys.iret c).es = sys.returned (cs.setWidth 2) c.es := by
  have hcs := h.drop.top
  have hset : (c.drop.top.setWidth 16 : BitVec 16).setWidth 2 = (cs.setWidth 2 : BitVec 2) := by
    rw [hcs, BitVec.setWidth_setWidth_of_le cs (by omega)]
  have hpos : c.cpl < (c.drop.top.setWidth 16 : BitVec 16).setWidth 2 := hset ▸ hlevel
  rw [Sys.iret, if_pos hpos, hset]
  exact ⟨rfl, rfl⟩

/-- Inside a level the data segments stay. -/
theorem Sys.data_iret_inner (sys : Sys) {ip cs : Word} (h : c.Stack (ip :: cs :: ws))
    (hlevel : ¬ c.cpl < cs.setWidth 2) : (sys.iret c).ds = c.ds ∧ (sys.iret c).es = c.es := by
  have hcs := h.drop.top
  have hpos : ¬ c.cpl < (c.drop.top.setWidth 16 : BitVec 16).setWidth 2 := by
    rwa [hcs, BitVec.setWidth_setWidth_of_le cs (by omega)]
  rw [Sys.iret, if_neg hpos]
  exact ⟨rfl, rfl⟩

@[simp] theorem Sys.eip_enter (sys : Sys) (g : Gate) (error : Option Word) (c : Cpu) :
    (sys.enter g error c).eip = g.offset := rfl

@[simp] theorem Sys.cs_enter (sys : Sys) (g : Gate) (error : Option Word) (c : Cpu) :
    (sys.enter g error c).cs =
      ((g.selector &&& ~~~3#16) ||| (sys.dpl g.selector).setWidth 16) := rfl

/-- An interrupt gate clears the interrupt flag, a trap gate leaves it. -/
theorem Sys.intf_enter (sys : Sys) (g : Gate) (error : Option Word) (c : Cpu) :
    (sys.enter g error c).intf = (c.intf && g.trap) := by
  rw [intf, show (sys.enter g error c).eflags =
    c.eflags &&& ~~~(if g.trap then 0x34100#32 else 0x34300#32) from rfl, BitVec.getLsbD_and,
    BitVec.getLsbD_not]
  cases g.trap <;> simp [intf]

end Stack

/-! ### The string instructions -/

/-- Everything but the general registers and the memory. -/
def Cpu.rest (c : Cpu) : Word × Word × BitVec 16 × BitVec 16 × BitVec 16 × BitVec 16 :=
  (c.eip, c.eflags, c.cs, c.ss, c.ds, c.es)

theorem Cpu.ext_rest {c c' : Cpu} (hreg : ∀ r, c.reg r = c'.reg r) (hmem : c.mem = c'.mem)
    (hrest : c.rest = c'.rest) : c = c' := by
  simp only [rest, Prod.mk.injEq] at hrest
  obtain ⟨h₁, h₂, h₃, h₄, h₅, h₆⟩ := hrest
  exact Cpu.ext (funext hreg) h₁ h₂ h₃ h₄ h₅ h₆ hmem

variable {c a b} {size n : ℕ}

theorem delta_up {c : Cpu} (h : c.df = false) : c.delta size = BitVec.ofNat 32 size := by
  rw [delta, h]
  rfl

theorem delta_down {c : Cpu} (h : c.df = true) : c.delta size = -BitVec.ofNat 32 size := by
  rw [delta, h]
  rfl

/-- **`rep stos` going up** fills a stretch with the element. -/
theorem iterate_stos (hdf : c.df = false) (hsize : size ≤ 4) (hn : n * size ≤ 2 ^ 32) :
    (stos size)^[n] c =
      ((c.withMem (c.mem.write (c.reg .edi)
        (List.replicate n ((Mem.bytes (c.reg .eax)).take size)).flatten)).set .edi
          (c.reg .edi + BitVec.ofNat 32 (n * size))).set .ecx
            (c.reg .ecx - BitVec.ofNat 32 n) := by
  have hlen : ((Mem.bytes (c.reg .eax)).take size).length = size := by simpa using hsize
  induction n with
  | zero => exact Cpu.ext_rest (fun r => by cases r <;> simp) (by simp) (by simp [rest])
  | succ n ih =>
    rw [Nat.succ_mul] at hn
    have hwrite := Mem.write_append c.mem (c.reg .edi)
      (List.replicate n ((Mem.bytes (c.reg .eax)).take size)).flatten
      ((Mem.bytes (c.reg .eax)).take size) (by simp [hlen]; omega)
    rw [show (List.flatten _).length = n * size by simp [hlen]] at hwrite
    rw [Function.iterate_succ_apply', ih (by omega), stos, delta_up (by exact hdf)]
    have hflat : (List.replicate (n + 1) ((Mem.bytes (c.reg .eax)).take size)).flatten =
        (List.replicate n ((Mem.bytes (c.reg .eax)).take size)).flatten ++
          (Mem.bytes (c.reg .eax)).take size := by
      rw [List.replicate_succ', List.flatten_append]
      simp
    refine Cpu.ext_rest (fun r => ?_) ?_ (by simp [rest])
    · cases r <;> simp [Nat.succ_mul, Mem.sub_ofNat_sub_one, Mem.add_ofNat_add]
    · simpa [hflat] using hwrite

/-- **`rep movs` going up** moves the index registers to the ends of the stretches, and writes
in the stretch it goes over, whatever is there. -/
theorem iterate_movs (hdf : c.df = false) (hn : n * size ≤ 2 ^ 32) :
    ∃ m, Mem.Outside (c.reg .edi) (n * size) c.mem m ∧
      (movs size)^[n] c =
        (((c.withMem m).set .edi (c.reg .edi + BitVec.ofNat 32 (n * size))).set .esi
          (c.reg .esi + BitVec.ofNat 32 (n * size))).set .ecx
            (c.reg .ecx - BitVec.ofNat 32 n) := by
  induction n with
  | zero =>
    exact ⟨c.mem, fun _ _ => rfl,
      Cpu.ext_rest (fun r => by cases r <;> simp) (by simp) (by simp [rest])⟩
  | succ n ih =>
    rw [Nat.succ_mul] at hn
    obtain ⟨m, houtside, heq⟩ := ih (by omega)
    have hstretch : Mem.Outside (c.reg .edi) (n * size + size) c.mem m :=
      fun x hx => houtside x (by omega)
    have hturn : Mem.Outside (c.reg .edi + BitVec.ofNat 32 (n * size)) size m
        (m.write (c.reg .edi + BitVec.ofNat 32 (n * size))
          (m.read (c.reg .esi + BitVec.ofNat 32 (n * size)) size)) :=
      Mem.Outside.write (fun _ _ => rfl) (by rw [Mem.length_read])
    refine ⟨_, Nat.succ_mul n size ▸ hstretch.trans (hturn.mono (Nat.le_refl _)), ?_⟩
    rw [Function.iterate_succ_apply', heq, movs, delta_up (by exact hdf)]
    refine Cpu.ext_rest (fun r => ?_) ?_ (by simp [rest])
    · cases r <;> simp [Nat.succ_mul, Mem.sub_ofNat_sub_one, Mem.add_ofNat_add]
    · simp

/-- **`rep movs` going up** copies a stretch that it does not overwrite ahead of itself. -/
theorem iterate_movs_up (hdf : c.df = false) {len : ℕ}
    (h : Mem.Ahead (c.reg .edi) (c.reg .esi) len) (hn : n * size ≤ len) (hlen : len ≤ 2 ^ 32) :
    (movs size)^[n] c =
      (((c.withMem (c.mem.write (c.reg .edi) (c.mem.read (c.reg .esi) (n * size)))).set .edi
        (c.reg .edi + BitVec.ofNat 32 (n * size))).set .esi
          (c.reg .esi + BitVec.ofNat 32 (n * size))).set .ecx
            (c.reg .ecx - BitVec.ofNat 32 n) := by
  induction n with
  | zero => exact Cpu.ext_rest (fun r => by cases r <;> simp) (by simp) (by simp [rest])
  | succ n ih =>
    rw [Nat.succ_mul] at hn
    rw [Function.iterate_succ_apply', ih (by omega), movs, delta_up (by exact hdf)]
    refine Cpu.ext_rest (fun r => ?_) ?_ (by simp [rest])
    · cases r <;> simp [Nat.succ_mul, Mem.sub_ofNat_sub_one, Mem.add_ofNat_add]
    · simpa [Nat.succ_mul] using h.write_append (m := c.mem) hn hlen

/-- **`rep movsb` going down** from the last of `len` bytes copies a stretch that it does not
overwrite ahead of itself. -/
theorem iterate_movs_down (hdf : c.df = true) {dst src : Word} {len : ℕ}
    (h : Mem.Behind dst src len) (hedi : c.reg .edi = dst + BitVec.ofNat 32 len - 1)
    (hesi : c.reg .esi = src + BitVec.ofNat 32 len - 1) (hn : n ≤ len) (hlen : len ≤ 2 ^ 32) :
    (movs 1)^[n] c =
      (((c.withMem (c.mem.write (dst + BitVec.ofNat 32 (len - n))
        (c.mem.read (src + BitVec.ofNat 32 (len - n)) n))).set .edi
          (c.reg .edi - BitVec.ofNat 32 n)).set .esi (c.reg .esi - BitVec.ofNat 32 n)).set .ecx
            (c.reg .ecx - BitVec.ofNat 32 n) := by
  induction n with
  | zero => exact Cpu.ext_rest (fun r => by cases r <;> simp) (by simp) (by simp [rest])
  | succ n ih =>
    rw [Function.iterate_succ_apply', ih (by omega), movs, delta_down (by exact hdf),
      ← BitVec.sub_eq_add_neg, ← BitVec.sub_eq_add_neg]
    have hedi' : c.reg .edi - BitVec.ofNat 32 n = dst + BitVec.ofNat 32 (len - (n + 1)) := by
      rw [hedi, Mem.add_ofNat_sub_sub dst (by omega)]
    have hesi' : c.reg .esi - BitVec.ofNat 32 n = src + BitVec.ofNat 32 (len - (n + 1)) := by
      rw [hesi, Mem.add_ofNat_sub_sub src (by omega)]
    have hsucc : len - n = len - (n + 1) + 1 := by omega
    refine Cpu.ext_rest (fun r => ?_) ?_ (by simp [rest])
    · cases r <;> simp [Mem.sub_ofNat_sub_one]
    · have hwrite := h.write_prepend (m := c.mem) (k := len - (n + 1)) (l := n) (by omega) hlen
      rw [Nat.add_comm 1 n, ← hsucc] at hwrite
      simpa [hedi', hesi'] using hwrite

end X86
end Lib
end OS391
