/-
# The assembly linkage

`intr_linkage.S`, `context_switch_asm.S` (`student-distrib`) and the system call wrappers of a
user program (`DO_CALL`, `syscalls/ece391syscall.S`).  The C functions these call are known by
the calling convention only: a routine that returns has popped its return address, restored
the registers a callee saves, and left alone the words of its caller's frame (`Returned`).

A number that is no system call comes back with -1 (`sysLinkage_invalid`); `doCall_spec` follows
any other one from the call of a wrapper in a user program to its return.  What a device
interrupts does not see it (`irq_unseen`), and a new program starts with its own segments, its
stack and interrupts on (`contextSwitch_spec`).
-/

import OS391.Gates

namespace OS391

open Lib Lib.X86 Lib.X86.Cpu

/-- `EXC_LINK(name, func, number)` and `HARDWARE_LINK(name, func, number)` -/
def interruptLinkage (func number : Word) : List Instr :=
  [ .pusha,
    .pushf,
    .push (.imm number),
    .call func,
    .add (.imm 4) .esp,
    .popf,
    .popa,
    .iret ]

/-- `SYS_CALL_LINK(sys_linkage)`, with `syscall_jump_table` at `table` -/
def sysLinkage (table : Word) (loc : ℕ → Word) : List Instr :=
  [ .push (.reg .esi),
    .push (.reg .edi),
    .push (.reg .ebx),
    .pushf,
    .push (.reg .edx),
    .push (.reg .ecx),
    .push (.reg .ebx),
    .cmp (.imm 0) .eax,
    .jcc .le (loc 13),
    .cmp (.imm 11) .eax,
    .jcc .ge (loc 13),
    .callMem (.mem table none (some .eax) 4),
    .jmp (loc 15),
    -- invalid_number, at 13
    .mov (.imm (-1)) .eax,
    .jmp (loc 15),
    -- end_sys, at 15
    .add (.imm 12) .esp,
    .popf,
    .pop .ebx,
    .pop .edi,
    .pop .esi,
    .iret ]

/-- `context_switch` -/
def contextSwitch : List Instr :=
  [ .mov (.mem 4 (some .esp) none 1) .ebx,
    .push (.imm (Selector.userDs.setWidth 32)),
    .push (.imm 0x83FFFFC),
    .pushf,
    .pop .edx,
    .or (.imm 0x0200) .edx,
    .push (.reg .edx),
    .push (.imm (Selector.userCs.setWidth 32)),
    .push (.reg .ebx),
    .iret ]

/-- After a `ret`. -/
def retCpu (c : Cpu) : Cpu := c.drop.goto c.top

/-- `c'` is the return of a routine entered in `c` that keeps the `kept` words above its
`args` arguments. -/
structure Returned (args kept : ℕ) (c c' : Cpu) : Prop where
  eip : c'.eip = c.top
  esp : c'.reg .esp = c.reg .esp + 4
  ebx : c'.reg .ebx = c.reg .ebx
  ebp : c'.reg .ebp = c.reg .ebp
  esi : c'.reg .esi = c.reg .esi
  edi : c'.reg .edi = c.reg .edi
  cs : c'.cs = c.cs
  ss : c'.ss = c.ss
  frame : ∀ ws, ws.length = kept →
    c.mem.Holds (c.reg .esp + BitVec.ofNat 32 (4 + 4 * args)) ws →
    c'.mem.Holds (c.reg .esp + BitVec.ofNat 32 (4 + 4 * args)) ws

/-- A routine that returns at once. -/
theorem returned_ret {args kept : ℕ} (c : Cpu) : Returned args kept c (retCpu c) := by
  constructor <;> simp [retCpu]

section SysLinkage

variable {M : Machine} {loc : ℕ → Word} {table : Word}
  {c : Cpu} {ip cs fl sp ss : Word}

/-- The words that the linkage pushes: the arguments, and under them what it will restore. -/
def saved (c : Cpu) : List Word :=
  [c.reg .ebx, c.reg .ecx, c.reg .edx, c.eflags, c.reg .ebx, c.reg .edi, c.reg .esi]

/-- The seven pushes. -/
theorem sysLinkage_push (hp : Placed M loc (sysLinkage table loc)) (heip : c.eip = loc 0) :
    ∃ c', Reach M c c' ∧ c'.eip = loc 7 ∧ c'.intf = c.intf ∧ Pushes (saved c) c c' := by
  have h₁ := ((Pushes.nil c).goto (loc 1)).push (c.reg .esi) (by simp)
  have h₂ := (h₁.goto (loc 2)).push (c.reg .edi) (by simp)
  have h₃ := (h₂.goto (loc 3)).push (c.reg .ebx) (by simp)
  have h₄ := (h₃.goto (loc 4)).push c.eflags (by simp)
  have h₅ := (h₄.goto (loc 5)).push (c.reg .edx) (by simp)
  have h₆ := (h₅.goto (loc 6)).push (c.reg .ecx) (by simp)
  have h₇ := (h₆.goto (loc 7)).push (c.reg .ebx) (by simp)
  refine ⟨_, .head (hp.step rfl heip) <| .head (hp.step rfl rfl) <| .head (hp.step rfl rfl) <|
    .head (hp.step rfl rfl) <| .head (hp.step rfl rfl) <| .head (hp.step rfl rfl) <|
    .single (hp.step rfl rfl), rfl, by simp, ?_⟩
  simpa [saved] using h₇

/-- `c'` is back where the frame `ip`, `cs`, `fl`, `sp`, `ss` came from, with the registers
of `c` that a routine must not change. -/
structure BackInUser (c c' : Cpu) (ip cs fl sp ss : Word) : Prop where
  eip : c'.eip = ip
  cs : c'.cs = cs.setWidth 16
  eflags : c'.eflags = fl
  esp : c'.reg .esp = sp
  ss : c'.ss = ss.setWidth 16
  ebx : c'.reg .ebx = c.reg .ebx
  ebp : c'.reg .ebp = c.reg .ebp
  esi : c'.reg .esi = c.reg .esi
  edi : c'.reg .edi = c.reg .edi

/-- The registers and selectors that the linkage neither saves nor changes. -/
structure SameScratch (c c' : Cpu) : Prop where
  ecx : c'.reg .ecx = c.reg .ecx
  edx : c'.reg .edx = c.reg .edx
  ds : c'.ds = c.ds
  es : c'.es = c.es

/-- After the `iret`: the selector of a data segment that is too privileged for the program is
cleared. -/
structure ScratchReturned (sys : Sys) (level : BitVec 2) (c c' : Cpu) : Prop where
  ecx : c'.reg .ecx = c.reg .ecx
  edx : c'.reg .edx = c.reg .edx
  ds : c'.ds = sys.returned level c.ds
  es : c'.es = sys.returned level c.es

/-- The pops at `end_sys`. -/
theorem sysLinkage_pop (hp : Placed M loc (sysLinkage table loc)) (heip : c.eip = loc 15)
    {f b d s : Word} {frame : List Word}
    (hstack : c.mem.Holds (c.reg .esp + 12) ([f, b, d, s] ++ frame)) :
    ∃ c', Reach M c c' ∧ c'.eip = loc 20 ∧ c'.cs = c.cs ∧ c'.mem = c.mem ∧
      c'.Stack frame ∧ c'.reg .ebx = b ∧ c'.reg .edi = d ∧ c'.reg .esi = s ∧
      c'.reg .eax = c.reg .eax ∧ c'.reg .ebp = c.reg .ebp ∧ SameScratch c c' := by
  simp only [List.cons_append, List.nil_append, Mem.holds_cons] at hstack
  obtain ⟨-, hb, hd, hs, hframe⟩ := hstack
  refine ⟨_, .head (hp.step rfl heip) <| .head (hp.step rfl rfl) <| .head (hp.step rfl rfl) <|
    .head (hp.step rfl rfl) <| .single (hp.step rfl rfl), rfl, ?_⟩
  simp at hb hd hs hframe
  refine ⟨?_, ?_, ?_, ?_, ?_, ?_, ?_, ?_, ?_⟩
  iterate 8 simp [Stack, Cpu.top, hb, hd, hs, hframe]
  constructor <;> simp

/-- **From `end_sys` on**: the registers saved and the frame of the system call are taken
back. -/
theorem sysLinkage_end (hp : Placed M loc (sysLinkage table loc)) (c₀ : Cpu)
    (heip : c.eip = loc 15) (hcpl : c.cpl = 0) (hlevel : 0 < (cs.setWidth 2 : BitVec 2))
    (hebp : c.reg .ebp = c₀.reg .ebp)
    (hstack : c.mem.Holds (c.reg .esp + 12)
      ([c₀.eflags, c₀.reg .ebx, c₀.reg .edi, c₀.reg .esi] ++ [ip, cs, fl, sp, ss])) :
    ∃ c', Reach M c c' ∧ BackInUser c₀ c' ip cs fl sp ss ∧
      ScratchReturned M.sys (cs.setWidth 2) c c' ∧ c'.reg .eax = c.reg .eax ∧
      c'.mem = c.mem := by
  obtain ⟨c₁, hreach, heip₁, hcs₁, hmem₁, hstack₁, hb, hd, hs, ha, hbp, hscratch⟩ :=
    sysLinkage_pop hp heip hstack
  have hcpl₁ : c₁.cpl = 0 := by rwa [cpl, hcs₁]
  have houter : (c₁.goto (loc 21)).cpl < cs.setWidth 2 := by
    rw [show (c₁.goto (loc 21)).cpl = 0 from hcpl₁]
    exact hlevel
  have hback : (c₁.goto (loc 21)).BackTo (M.sys.iret (c₁.goto (loc 21))) ip cs fl sp ss :=
    M.sys.iret_outer hstack₁ hcpl₁ houter
  obtain ⟨hds, hes⟩ := M.sys.data_iret_outer (c := c₁.goto (loc 21)) hstack₁ houter
  refine ⟨_, hreach.tail (hp.iret rfl heip₁), ?_, ?_, (hback.reg _ (by simp)).trans ha,
    hback.mem.trans hmem₁⟩
  · exact {
      eip := hback.eip
      cs := hback.cs
      eflags := hback.eflags
      esp := hback.esp
      ss := hback.ss
      ebx := (hback.reg _ (by simp)).trans hb
      ebp := ((hback.reg _ (by simp)).trans hbp).trans hebp
      esi := (hback.reg _ (by simp)).trans hs
      edi := (hback.reg _ (by simp)).trans hd }
  · exact {
      ecx := (hback.reg _ (by simp)).trans hscratch.ecx
      edx := (hback.reg _ (by simp)).trans hscratch.edx
      ds := by rw [hds, goto_ds, hscratch.ds]
      es := by rw [hes, goto_es, hscratch.es] }

/-- The check of the number. -/
theorem sysLinkage_check (hp : Placed M loc (sysLinkage table loc)) (heip : c.eip = loc 0) :
    ∃ c', Reach M c c' ∧ Pushes (saved c) c c' ∧ c'.intf = c.intf ∧
      c'.eip = if 0 < (c.reg .eax).toInt ∧ (c.reg .eax).toInt < 11 then loc 11 else loc 13 := by
  obtain ⟨c₁, hreach, heip₁, hintf₁, h₁⟩ := sysLinkage_push hp heip
  have heax : c₁.reg .eax = c.reg .eax := h₁.reg _ (by simp)
  rcases Int.lt_or_le 0 (c.reg .eax).toInt with hpos | hneg
  · rcases Int.lt_or_le (c.reg .eax).toInt 11 with hlt | hge
    · refine ⟨_, hreach.trans <| .head (hp.step rfl heip₁) <| .head (hp.fall rfl rfl ?_) <|
        .head (hp.step rfl rfl) <| .single (hp.fall rfl rfl ?_), ?_, ?_, ?_⟩
      · simpa [heax, BitVec.sle] using hpos
      · simpa [heax, BitVec.sle] using hlt
      · exact ((((h₁.goto _).withFlags _).goto _).goto _ |>.withFlags _).goto _
      · simpa using hintf₁
      · rw [if_pos ⟨hpos, hlt⟩]
        rfl
    · refine ⟨_, hreach.trans <| .head (hp.step rfl heip₁) <| .head (hp.fall rfl rfl ?_) <|
        .head (hp.step rfl rfl) <| .single (hp.jump rfl rfl ?_), ?_, ?_, ?_⟩
      · simpa [heax, BitVec.sle] using hpos
      · simpa [heax, BitVec.sle] using hge
      · exact ((((h₁.goto _).withFlags _).goto _).goto _ |>.withFlags _).goto _
      · simpa using hintf₁
      · rw [if_neg (by omega)]
        rfl
  · refine ⟨_, hreach.trans <| .head (hp.step rfl heip₁) <| .single (hp.jump rfl rfl ?_),
      ?_, ?_, ?_⟩
    · simpa [heax, BitVec.sle] using hneg
    · exact ((h₁.goto _).withFlags _).goto _
    · simpa using hintf₁
    · rw [if_neg (by omega)]
      rfl

/-- **A number outside the table**: no routine is called, and the user program goes on with
`-1` in `%eax`, all other registers and its flags; its data segments are cleared if they are too
privileged for it.  The only memory written is the stack below the frame. -/
theorem sysLinkage_invalid (hp : Placed M loc (sysLinkage table loc)) (heip : c.eip = loc 0)
    (hcpl : c.cpl = 0) (hlevel : 0 < (cs.setWidth 2 : BitVec 2))
    (hframe : c.Stack [ip, cs, fl, sp, ss])
    (hnum : ¬ (0 < (c.reg .eax).toInt ∧ (c.reg .eax).toInt < 11)) :
    ∃ c₁, Reach M.alone c c₁ ∧ BackInUser c c₁ ip cs fl sp ss ∧
      ScratchReturned M.sys (cs.setWidth 2) c c₁ ∧ c₁.reg .eax = -1 ∧
      Mem.Outside (c.reg .esp - 28) 28 c.mem c₁.mem := by
  obtain ⟨c₀, hreach, h₀, -, heip₀⟩ := sysLinkage_check hp.alone heip
  rw [if_neg hnum] at heip₀
  have hwords : c₀.mem.Holds (c₀.reg .esp) ([c.reg .ebx, c.reg .ecx, c.reg .edx] ++
      ([c.eflags, c.reg .ebx, c.reg .edi, c.reg .esi] ++ [ip, cs, fl, sp, ss])) :=
    h₀.stack hframe (by simp [saved])
  obtain ⟨c₁, hreach₁, heip₁, hcs, hesp, hebp, heax, hmem, hscratch₁⟩ :
      ∃ c₁, Reach M.alone c c₁ ∧
        c₁.eip = loc 15 ∧ c₁.cs = c₀.cs ∧ c₁.reg .esp = c₀.reg .esp ∧
        c₁.reg .ebp = c₀.reg .ebp ∧ c₁.reg .eax = -1 ∧ c₁.mem = c₀.mem ∧ SameScratch c₀ c₁ :=
    ⟨_, (hreach.tail (hp.alone.step rfl heip₀)).tail (hp.alone.step rfl rfl), rfl, by simp,
      by simp, by simp, by simp, by simp, by constructor <;> simp⟩
  obtain ⟨c₂, hreach₂, hres, hscratch, heax₂, hmem₂⟩ : ∃ c₂, Reach M.alone c₁ c₂ ∧
      BackInUser c c₂ ip cs fl sp ss ∧ ScratchReturned M.sys (cs.setWidth 2) c₁ c₂ ∧
      c₂.reg .eax = c₁.reg .eax ∧ c₂.mem = c₁.mem := by
    refine sysLinkage_end hp.alone c heip₁ ?_ hlevel (hebp.trans (h₀.reg _ (by simp))) ?_
    · rwa [cpl, hcs, h₀.cs]
    · rw [hmem, hesp]
      exact hwords.drop
  have hesp₀ : c₀.reg .esp = c.reg .esp - 28 := h₀.esp
  refine ⟨c₂, hreach₁.trans hreach₂, hres, ?_, heax₂.trans heax, ?_⟩
  · exact {
      ecx := (hscratch.ecx.trans hscratch₁.ecx).trans (h₀.reg _ (by simp))
      edx := (hscratch.edx.trans hscratch₁.edx).trans (h₀.reg _ (by simp))
      ds := by rw [hscratch.ds, hscratch₁.ds, h₀.ds]
      es := by rw [hscratch.es, hscratch₁.es, h₀.es] }
  · rw [hmem₂, hmem, ← hesp₀]
    exact h₀.mem

/-- The instructions from `base` on, under the tables of the kernel. -/
def linkageMachine (is : (ℕ → Word) → List Instr) (base : Word) : Machine :=
  { bare is base with sys := bootSys default }

theorem placed_linkageMachine {is : (ℕ → Word) → List Instr} (base : Word)
    (h : (is (labels base)).length ≤ 2 ^ 32) :
    Placed (linkageMachine is base) (labels base) (is (labels base)) :=
  placed_bare base h

/-- A program in the kernel that asked for call 0. -/
def askedZero : Cpu :=
  (bootSys default).enter (gateOf linkageAddr sysCall) none (userCpu 0x8048002 0x83FFFF0)

/-- Call 0 is refused. -/
theorem sysLinkage_invalid_zero :
    ∃ c₁, Reach (linkageMachine (sysLinkage 0x408000) 0x400000).alone askedZero c₁ ∧
      BackInUser askedZero c₁ 0x8048002 0x23 0x202 0x83FFFF0 0x2B ∧
      ScratchReturned (bootSys default) 3 askedZero c₁ ∧ c₁.reg .eax = -1 ∧
      Mem.Outside (askedZero.reg .esp - 28) 28 askedZero.mem c₁.mem := by
  have huser : (userCpu 0x8048002 0x83FFFF0).cpl = 3 := by decide
  obtain ⟨hcs, -, heip, hstack⟩ := enter_from_user linkageAddr _ _ default huser sysCall none
  obtain ⟨c', hpushes, hreg, -⟩ := (bootSys default).pushes_enter
    (g := gateOf linkageAddr sysCall) (dpl_gateOf_lt huser sysCall) none
  refine sysLinkage_invalid (c := askedZero) (placed_linkageMachine 0x400000 (by simp [sysLinkage]))
    heip ?_ (by decide) hstack ?_
  · exact congrArg (fun s : BitVec 16 => s.setWidth 2) hcs
  · rw [askedZero, hreg, hpushes.reg .eax (by simp)]
    decide

end SysLinkage

section Interrupt

variable {M : Machine} {loc : ℕ → Word} {func number : Word} {c : Cpu}

/-- The words that the linkage of an interrupt pushes, the return address of the handler on
top. -/
def savedAll (back number : Word) (c : Cpu) : List Word :=
  [back, number, c.eflags, c.reg .edi, c.reg .esi, c.reg .ebp, c.reg .esp, c.reg .ebx,
    c.reg .edx, c.reg .ecx, c.reg .eax]

/-- The call of the handler. -/
theorem interruptLinkage_call (hp : Placed M loc (interruptLinkage func number))
    (heip : c.eip = loc 0) :
    ∃ c', Reach M c c' ∧ c'.eip = func ∧ c'.intf = c.intf ∧
      Pushes (savedAll (loc 4) number c) c c' := by
  have h₁ := ((Pushes.nil c).goto (loc 1)).push (c.reg .eax) (by simp)
  have h₂ := h₁.push (c.reg .ecx) (by simp)
  have h₃ := h₂.push (c.reg .edx) (by simp)
  have h₄ := h₃.push (c.reg .ebx) (by simp)
  have h₅ := h₄.push (c.reg .esp) (by simp)
  have h₆ := h₅.push (c.reg .ebp) (by simp)
  have h₇ := h₆.push (c.reg .esi) (by simp)
  have h₈ := h₇.push (c.reg .edi) (by simp)
  have h₉ := (h₈.goto (loc 2)).push c.eflags (by simp)
  have h₁₀ := (h₉.goto (loc 3)).push number (by simp)
  have h₁₁ := ((h₁₀.goto (loc 4)).push (loc 4) (by simp)).goto func
  refine ⟨_, .head (hp.step rfl heip) <| .head (hp.step rfl rfl) <| .head (hp.step rfl rfl) <|
    .single (hp.step rfl rfl), rfl, by simp, ?_⟩
  simpa [savedAll] using h₁₁

/-- **The return** of the handler: up to the `iret`, every register and the flags are what they
were. -/
theorem interruptLinkage_return (hp : Placed M loc (interruptLinkage func number))
    (hcpl : c.cpl = 0) {frame : List Word} (hframe : c.Stack frame) (hlen : frame.length ≤ 5)
    {c₁ c₂ : Cpu} (h₁ : Pushes (savedAll (loc 4) number c) c c₁)
    (hret : Returned 1 (9 + frame.length) c₁ c₂) :
    ∃ c₃, Reach M c₂ c₃ ∧ c₃.eip = loc 7 ∧ (∀ r, c₃.reg r = c.reg r) ∧ c₃.eflags = c.eflags ∧
      c₃.cs = c.cs ∧ c₃.ss = c.ss ∧ c₃.ds = c₂.ds ∧ c₃.es = c₂.es ∧ c₃.Stack frame ∧
      c₃.mem = c₂.mem := by
  have hwords : c₁.mem.Holds (c₁.reg .esp) ([loc 4, number] ++ ([c.eflags, c.reg .edi,
      c.reg .esi, c.reg .ebp, c.reg .esp, c.reg .ebx, c.reg .edx, c.reg .ecx, c.reg .eax] ++
        frame)) := h₁.stack hframe (by simp [savedAll]; omega)
  have hkept := hret.frame _ (by simp; omega) hwords.drop
  have hesp₁ : c₁.reg .esp = c.reg .esp - 44 := h₁.esp
  have hesp₂ : c₁.reg .esp + BitVec.ofNat 32 (4 + 4 * 1) = c₂.reg .esp + 4 := by
    rw [hret.esp, BitVec.add_assoc]
    rfl
  rw [hesp₂] at hkept
  have heip₂ : c₂.eip = loc 4 := hret.eip.trans h₁.words.top
  simp only [List.cons_append, List.nil_append, Mem.holds_cons] at hkept
  obtain ⟨hfl, hdi, hsi, hbp, -, hb, hd, hc, ha, hrest⟩ := hkept
  simp [BitVec.add_assoc] at hfl hdi hsi hbp hb hd hc ha hrest
  have hespEnd : c₂.reg .esp + 40#32 = c.reg .esp := by
    rw [hret.esp, hesp₁]
    bv_omega
  refine ⟨_, .head (hp.step rfl heip₂) <| .head (hp.step rfl rfl) <| .single (hp.step rfl rfl),
    rfl, ?_, ?_, ?_, ?_, ?_, ?_, ?_, ?_⟩
  · intro r
    cases r <;> simp [Cpu.top, hdi, hsi, hbp, hb, hd, hc, ha, BitVec.add_assoc, hespEnd]
  · simp [loadFlags, cpl, hret.cs, h₁.cs, Cpu.top, hfl]
    exact fun hne => absurd hcpl hne
  · simp [hret.cs, h₁.cs]
  · simp [hret.ss, h₁.ss]
  · simp
  · simp
  · simp [Stack, BitVec.add_assoc, hrest]
  · simp

/-- `c'` is `c` with the words `frame` on the stack of the kernel, and from them `iret` brings
everything back. -/
structure Entered (sys : Sys) (frame : List Word) (c c' : Cpu) : Prop where
  length : frame.length ≤ 5
  stack : c'.Stack frame
  cpl : c'.cpl = 0
  reg : ∀ r, r ≠ .esp → c'.reg r = c.reg r
  mem : Mem.Outside (c'.reg .esp) (4 * frame.length) c.mem c'.mem
  back : ∀ c₁ : Cpu, c₁.cpl = 0 → c₁.ss = c'.ss → c₁.reg .esp = c'.reg .esp → c₁.Stack frame →
    c₁.BackTo (sys.iret c₁) c.eip (c.cs.setWidth 32) c.eflags (c.reg .esp) (c.ss.setWidth 32)
  /-- The data segments are those of the moment, if they are not too privileged. -/
  data : ∀ c₁ : Cpu, c₁.cpl = 0 → c₁.Stack frame →
    (sys.iret c₁).ds = sys.returned c.cpl c₁.ds ∧ (sys.iret c₁).es = sys.returned c.cpl c₁.es

section Enter

variable (addr : Linkage → Word) (tss ldt : SegDesc) (s : Kernel) (v : ℕ)

/-- A gate of the table brings the processor to level 0. -/
theorem cpl_enter (error : Option Word) (c : Cpu) :
    ((kernelSys addr tss ldt s).enter (gateOf addr v) error c).cpl = 0 := by
  rw [cpl, Sys.cs_enter, show (gateOf addr v).selector = Selector.kernelCs from rfl, dpl_kernelCs]
  decide

/-- From the kernel. -/
theorem entered_kernel (hcpl : c.cpl = 0) :
    Entered (kernelSys addr tss ldt s) [c.eip, c.cs.setWidth 32, c.eflags] c
      ((kernelSys addr tss ldt s).enter (gateOf addr v) none c) := by
  have hsame : ¬ (kernelSys addr tss ldt s).dpl (gateOf addr v).selector < c.cpl := by
    rw [gateOf, dpl_kernelCs, hcpl]
    exact Nat.lt_irrefl 0
  obtain ⟨c', hpushes, hreg, hmem⟩ := (kernelSys addr tss ldt s).pushes_enter_same hsame
  constructor
  · simp
  · rw [Stack, hreg, hmem]
    exact hpushes.words
  · exact cpl_enter addr tss ldt s v none c
  · rw [hreg]
    exact hpushes.reg
  · rw [hreg, hmem]
    exact hpushes.mem
  · intro c₁ hcpl₁ hss₁ hesp₁ hstack₁
    have hback := (kernelSys addr tss ldt s).iret_inner hstack₁ hcpl₁
      (by rwa [BitVec.setWidth_setWidth_of_le c.cs (by omega)])
    have hesp : c₁.reg .esp + 12 = c.reg .esp := by
      rw [hesp₁, hreg, hpushes.esp]
      simp
    have hss : c₁.ss = c.ss := by
      rw [hss₁, Sys.enter, Sys.changeStack, if_neg hsame]
      rfl
    rwa [hesp, hss] at hback
  · intro c₁ hcpl₁ hstack₁
    have hinner : ¬ c₁.cpl < (c.cs.setWidth 32).setWidth 2 := by
      rw [hcpl₁, BitVec.setWidth_setWidth_of_le c.cs (by omega),
        show (c.cs.setWidth 2 : BitVec 2) = 0 from hcpl]
      exact Nat.lt_irrefl 0
    obtain ⟨hds, hes⟩ := (kernelSys addr tss ldt s).data_iret_inner hstack₁ hinner
    have hkept (sel : BitVec 16) : (kernelSys addr tss ldt s).returned c.cpl sel = sel :=
      if_neg (hcpl ▸ Nat.not_lt_zero _)
    rw [hkept, hkept]
    exact ⟨hds, hes⟩

/-- From a user program. -/
theorem entered_user (hcpl : c.cpl = 3) :
    Entered (kernelSys addr tss ldt s)
      [c.eip, c.cs.setWidth 32, c.eflags, c.reg .esp, c.ss.setWidth 32] c
      ((kernelSys addr tss ldt s).enter (gateOf addr v) none c) := by
  obtain ⟨c', hpushes, hreg, hmem⟩ :=
    (kernelSys addr tss ldt s).pushes_enter (dpl_gateOf_lt hcpl v) none
  have hlevel : (c.cs.setWidth 32).setWidth 2 = c.cpl := by
    rw [cpl, BitVec.setWidth_setWidth_of_le c.cs (by omega)]
  constructor
  · simp
  · rw [Stack, hreg, hmem]
    exact hpushes.words
  · exact cpl_enter addr tss ldt s v none c
  · intro r hr
    rw [hreg, hpushes.reg r hr]
    simp [hr]
  · rw [hreg, hmem]
    exact hpushes.mem
  · intro c₁ hcpl₁ _ _ hstack₁
    refine (kernelSys addr tss ldt s).iret_outer hstack₁ hcpl₁ ?_
    rw [hcpl₁, hlevel, hcpl]
    decide
  · intro c₁ hcpl₁ hstack₁
    have houter : c₁.cpl < (c.cs.setWidth 32).setWidth 2 := by
      rw [hcpl₁, hlevel, hcpl]
      decide
    have hdata := (kernelSys addr tss ldt s).data_iret_outer hstack₁ houter
    rwa [hlevel] at hdata

end Enter

/-- The linkage of an interrupt, from the entry of its gate to the code interrupted. -/
theorem interruptLinkage_spec (hp : Placed M loc (interruptLinkage func number))
    {frame : List Word} {c₀ : Cpu} (h₀ : Entered M.sys frame c c₀) (heip : c₀.eip = loc 0) :
    ∃ c₁, Reach M c₀ c₁ ∧ c₁.eip = func ∧ c₁.cpl = 0 ∧ c₁.intf = c₀.intf ∧
      c₁.mem.load (c₁.reg .esp + 4) = number ∧
      Mem.Outside (c₁.reg .esp) (4 * (11 + frame.length)) c.mem c₁.mem ∧
      ∀ c₂, Returned 1 (9 + frame.length) c₁ c₂ →
        ∃ c₃, Reach M c₂ c₃ ∧ c₃.eip = c.eip ∧ c₃.reg = c.reg ∧ c₃.eflags = c.eflags ∧
          c₃.cs = c.cs ∧ c₃.ss = c.ss ∧ c₃.ds = M.sys.returned c.cpl c₂.ds ∧
          c₃.es = M.sys.returned c.cpl c₂.es ∧ c₃.mem = c₂.mem := by
  obtain ⟨c₁, hreach, heip₁, hintf₁, hpushes⟩ := interruptLinkage_call hp heip
  refine ⟨c₁, hreach, heip₁, ?_, hintf₁, hpushes.words.2.1, ?_, ?_⟩
  · rw [cpl, hpushes.cs]
    exact h₀.cpl
  · have hback : c₁.reg .esp + BitVec.ofNat 32 44 = c₀.reg .esp := by
      rw [hpushes.esp]
      exact BitVec.sub_add_cancel ..
    have hframe := h₀.mem
    have hsaved := hpushes.mem
    rw [← hback] at hframe
    rw [← BitVec.add_zero (c₁.reg .esp)] at hsaved
    exact (hframe.mono (by omega)).trans
      (Mem.Outside.mono (i := 0) hsaved (show 0 + 4 * 11 ≤ 4 * (11 + frame.length) by omega))
  · intro c₂ hret
    obtain ⟨c₃, hreach₃, heip₃, hreg₃, hfl₃, hcs₃, hss₃, hds₃, hes₃, hstack₃, hmem₃⟩ :=
      interruptLinkage_return hp h₀.cpl h₀.stack h₀.length hpushes hret
    have hcpl₃ : c₃.cpl = 0 := by
      rw [cpl, hcs₃]
      exact h₀.cpl
    have hback : (c₃.goto (loc 8)).BackTo (M.sys.iret (c₃.goto (loc 8))) c.eip
        (c.cs.setWidth 32) c.eflags (c.reg .esp) (c.ss.setWidth 32) :=
      h₀.back _ hcpl₃ hss₃ (hreg₃ .esp) hstack₃
    obtain ⟨hds, hes⟩ := h₀.data (c₃.goto (loc 8)) hcpl₃ hstack₃
    refine ⟨_, hreach₃.tail (hp.iret rfl heip₃), hback.eip, ?_, hback.eflags, ?_, ?_, ?_, ?_,
      hback.mem.trans hmem₃⟩
    · funext r
      rcases eq_or_ne r .esp with rfl | hr
      · exact hback.esp
      · exact (hback.reg r hr).trans ((hreg₃ r).trans (h₀.reg r hr))
    · exact hback.cs.trans (by simp)
    · exact hback.ss.trans (by simp)
    · rw [hds, goto_ds, hds₃]
    · rw [hes, goto_es, hes₃]

/-- What is interrupted in `c` does not see the interrupt that enters the kernel in `c₀`: the
handler at `func` is entered at level 0 with interrupts off and its number on the stack, below
which nothing is written but `k` words; and when it returns as the convention says, the
interrupted code goes on with all its registers, its code and stack segments and its flags.  The
data segments are not saved: they are those that the handler leaves, or none where these are too
privileged for the interrupted code. -/
def Unseen (M : Machine) (func number : Word) (c c₀ : Cpu) : Prop :=
  ∃ c₁ k, k ≤ 16 ∧ Reach M c₀ c₁ ∧ c₁.eip = func ∧ c₁.cpl = 0 ∧ c₁.intf = false ∧
    c₁.mem.load (c₁.reg .esp + 4) = number ∧ Mem.Outside (c₁.reg .esp) (4 * k) c.mem c₁.mem ∧
    ∀ c₂, M.code c₁.eip = none → M.ext c₁ c₂ → Returned 1 (k - 2) c₁ c₂ →
      ∃ c₃, Reach M c₀ c₃ ∧ c₃.eip = c.eip ∧ c₃.reg = c.reg ∧ c₃.eflags = c.eflags ∧
        c₃.cs = c.cs ∧ c₃.ss = c.ss ∧ c₃.ds = M.sys.returned c.cpl c₂.ds ∧
        c₃.es = M.sys.returned c.cpl c₂.es ∧ c₃.mem = c₂.mem

/-- **An interrupt of a device is not seen** by what it interrupts, the kernel or a user
program, whatever the handler does to the registers it need not keep. -/
theorem irq_unseen {addr : Linkage → Word} {tss ldt : SegDesc} {s : Kernel}
    (hsys : M.sys = kernelSys addr tss ldt s)
    (hp : Placed M loc (interruptLinkage func number)) (n : Fin 16)
    (haddr : addr (.irq n) = loc 0) (hlevel : c.cpl = 0 ∨ c.cpl = 3) :
    Unseen M func number c (M.sys.interrupt (BitVec.ofNat 8 (32 + n)) c) := by
  have hv : (BitVec.ofNat 8 (32 + n)).toNat = 32 + n := by
    rw [BitVec.toNat_ofNat]
    omega
  have hint : M.sys.interrupt (BitVec.ofNat 8 (32 + n)) c =
      (kernelSys addr tss ldt s).enter (gateOf addr (32 + n)) none c := by
    rw [hsys, Sys.interrupt, gate_kernelSys, hv]
  have hhandler : handlerOf addr (32 + n) = addr (.irq n) := by
    have hlookup : ∀ i : Fin 16, handlers.lookup (32 + (i : ℕ)) = some (Linkage.irq i) := by decide
    rw [handlerOf, hlookup]
    rfl
  have hoff : ((kernelSys addr tss ldt s).enter (gateOf addr (32 + n)) none c).intf = false := by
    rw [Sys.intf_enter]
    simp [gateOf]
    omega
  rw [hint]
  obtain ⟨frame, h₀⟩ : ∃ frame, Entered M.sys frame c
      ((kernelSys addr tss ldt s).enter (gateOf addr (32 + n)) none c) := by
    rw [hsys]
    rcases hlevel with hcpl | hcpl
    · exact ⟨_, entered_kernel addr tss ldt s _ hcpl⟩
    · exact ⟨_, entered_user addr tss ldt s _ hcpl⟩
  have hlen := h₀.length
  obtain ⟨c₁, hreach, heip₁, hcpl₁, hintf₁, hnum, hmem, hreturn⟩ :=
    interruptLinkage_spec hp h₀ (hhandler.trans haddr)
  refine ⟨c₁, 11 + frame.length, by omega, hreach, heip₁, hcpl₁, hintf₁.trans hoff, hnum, hmem, ?_⟩
  intro c₂ hnone hext hret
  rw [show 11 + frame.length - 2 = 9 + frame.length by omega] at hret
  obtain ⟨c₃, hreach₃, h⟩ := hreturn c₂ hret
  exact ⟨c₃, (hreach.tail (.routine hnone hext)).trans hreach₃, h⟩

/-- The machine with the linkage of the keyboard, and handlers that return at once. -/
def keyboardMachine : Machine :=
  { linkageMachine (fun _ => interruptLinkage 0x406000 1) 0x401010 with
    ext := fun c c' => c' = retCpu c }

/-- The keyboard interrupts a user program, which goes on. -/
theorem irq_unseen_keyboard :
    ∃ c, Reach keyboardMachine
        ((bootSys default).interrupt 33 (userCpu 0x8048000 0x83FFFF0)) c ∧
      c.eip = 0x8048000 ∧ c.reg = (userCpu 0x8048000 0x83FFFF0).reg ∧ c.eflags = 0x202 := by
  have hplaced : Placed keyboardMachine (labels 0x401010) (interruptLinkage 0x406000 1) :=
    @placed_linkageMachine (fun _ => interruptLinkage 0x406000 1) 0x401010
      (by simp [interruptLinkage])
  obtain ⟨c₁, k, -, -, heip, -, -, -, -, hreturn⟩ :=
    irq_unseen (c := userCpu 0x8048000 0x83FFFF0) rfl hplaced 1 (by decide) (Or.inr (by decide))
  have hcode : keyboardMachine.code c₁.eip = none := by
    rw [heip]
    decide
  obtain ⟨c, hreach, hback, hreg, hflags, -⟩ := hreturn (retCpu c₁) hcode rfl (returned_ret c₁)
  exact ⟨c, hreach, hback, hreg, hflags⟩

/-- The first half of `context_switch`: the stack segment and the stack pointer of the program
are pushed, and its flags are in `%edx`. -/
theorem contextSwitch_flags (hp : Placed M loc contextSwitch) (heip : c.eip = loc 0)
    {back entry : Word} (hargs : c.Stack [back, entry]) :
    ∃ c', Reach M c c' ∧ c'.eip = loc 6 ∧ c'.reg .ebx = entry ∧
      c'.reg .edx = c.eflags ||| 0x200 ∧ c'.reg .esp = c.reg .esp - 8 ∧
      c'.Stack [0x83FFFFC, Selector.userDs.setWidth 32] ∧
      Mem.Outside (c.reg .esp - 12) 12 c.mem c'.mem ∧ c'.cs = c.cs ∧ c'.ds = c.ds ∧
      c'.es = c.es := by
  have hentry : c.mem.load (c.reg .esp + 4#32) = entry := hargs.2.1
  have hpushes := ((((Pushes.nil c).push (Selector.userDs.setWidth 32) (by simp)).push 0x83FFFFC
    (by simp)).push c.eflags (by simp))
  have hstack := hpushes.words.pop (r := .edx) (by simp)
  have hesp := hpushes.esp
  have hmem := hpushes.mem
  rw [hesp] at hmem
  refine ⟨_, .head (hp.step rfl heip) <| .head (hp.step rfl rfl) <| .head (hp.step rfl rfl) <|
    .head (hp.step rfl rfl) <| .head (hp.step rfl rfl) <| .single (hp.step rfl rfl), rfl,
    ?_, ?_, ?_, ?_, ?_, ?_, ?_, ?_⟩
  · simp [BitVec.add_comm 4#32, hentry]
  · simp [Cpu.top]
  · simp
    bv_omega
  · simpa [Stack] using hstack
  · simpa using hmem
  · simp
  · simp
  · simp

/-- **Into a new program**: `context_switch` leaves the kernel for the entry point with the
user's segments and stack and interrupts on.  The data segments of the kernel do not come
along: their level is 0, so the processor clears them. -/
theorem contextSwitch_spec {addr : Linkage → Word} {tss ldt : SegDesc} {s : Kernel}
    (hsys : M.sys = kernelSys addr tss ldt s) (hp : Placed M loc contextSwitch)
    (heip : c.eip = loc 0) (hcpl : c.cpl = 0) (hds : c.ds = Selector.kernelDs)
    (hes : c.es = Selector.kernelDs) {back entry : Word} (hargs : c.Stack [back, entry]) :
    ∃ c', Reach M c c' ∧ c'.eip = entry ∧ c'.cs = Selector.userCs ∧ c'.ss = Selector.userDs ∧
      c'.reg .esp = 0x83FFFFC ∧ c'.eflags = c.eflags ||| 0x200 ∧ c'.ds = 0 ∧ c'.es = 0 ∧
      Mem.Outside (c.reg .esp - 20) 20 c.mem c'.mem := by
  obtain ⟨c₁, hreach, heip₁, hebx₁, hedx₁, hesp₁, hstack₁, hmem₁, hcs₁, hds₁, hes₁⟩ :=
    contextSwitch_flags hp heip hargs
  have hpushes := ((((((Pushes.nil c₁).goto (loc 7)).push (c₁.reg .edx) (by simp)).goto
    (loc 8)).push (Selector.userCs.setWidth 32) (by simp)).goto (loc 9)).push (c₁.reg .ebx)
      (by simp)
  obtain ⟨c₂, hreach₂, heip₂, hpushes, hds₂, hes₂⟩ : ∃ c₂, Reach M c₁ c₂ ∧ c₂.eip = loc 9 ∧
      Pushes [c₁.reg .ebx, Selector.userCs.setWidth 32, c₁.reg .edx] c₁ c₂ ∧
      c₂.ds = c₁.ds ∧ c₂.es = c₁.es :=
    ⟨_, .head (hp.step rfl heip₁) <| .head (hp.step rfl rfl) <| .single (hp.step rfl rfl), rfl,
      by simpa using hpushes, by simp, by simp⟩
  have hframe := hpushes.stack hstack₁ (by simp)
  have hcpl₂ : c₂.cpl = 0 := by rwa [cpl, hpushes.cs, hcs₁]
  have hlevel : (c₂.goto (loc 10)).cpl < (Selector.userCs.setWidth 32).setWidth 2 := by
    rw [show (c₂.goto (loc 10)).cpl = 0 from hcpl₂]
    decide
  have hstack : (c₂.goto (loc 10)).Stack _ := hframe
  have hback := M.sys.iret_outer hstack hcpl₂ hlevel
  obtain ⟨hds₃, hes₃⟩ := M.sys.data_iret_outer hstack hlevel
  have hnull : M.sys.returned ((Selector.userCs.setWidth 32).setWidth 2) Selector.kernelDs = 0 := by
    rw [hsys, Sys.returned, dpl_kernelDs]
    decide
  refine ⟨_, (hreach.trans hreach₂).tail (hp.iret rfl heip₂), hback.eip.trans hebx₁, ?_, ?_,
    hback.esp, hback.eflags.trans hedx₁, ?_, ?_, ?_⟩
  · rw [hback.cs]
    simp
  · rw [hback.ss]
    simp
  · rw [hds₃, goto_ds, hds₂, hds₁, hds, hnull]
  · rw [hes₃, goto_es, hes₂, hes₁, hes, hnull]
  · have hesp₂ : c₂.reg .esp = c.reg .esp - 20 + BitVec.ofNat 32 0 := by
      rw [hpushes.esp, hesp₁]
      simp
      bv_omega
    have hfirst : Mem.Outside (c.reg .esp - 20 + BitVec.ofNat 32 8) 12 c.mem c₁.mem := by
      rwa [show c.reg .esp - 20 + BitVec.ofNat 32 8 = c.reg .esp - 12 by bv_omega]
    have hthen := hpushes.mem
    rw [hesp₂] at hthen
    rw [hback.mem]
    exact (hfirst.mono (by simp)).trans (hthen.mono (by simp))

/-- A kernel that has called `context_switch` for the entry point `entry`. -/
def switchCpu (entry : Word) : Cpu :=
  (({ userCpu 0x407000 0x7FDF00 with
      cs := Selector.kernelCs
      ss := Selector.kernelDs
      ds := Selector.kernelDs
      es := Selector.kernelDs } : Cpu).push entry).push 0x400800

/-- A program is started at `0x8048094`. -/
theorem contextSwitch_spec_program :
    ∃ c', Reach (linkageMachine (fun _ => contextSwitch) 0x407000) (switchCpu 0x8048094) c' ∧
      c'.eip = 0x8048094 ∧ c'.cs = Selector.userCs ∧ c'.ss = Selector.userDs ∧
      c'.reg .esp = 0x83FFFFC ∧ c'.eflags = (switchCpu 0x8048094).eflags ||| 0x200 ∧
      c'.ds = 0 ∧ c'.es = 0 ∧
      Mem.Outside ((switchCpu 0x8048094).reg .esp - 20) 20 (switchCpu 0x8048094).mem c'.mem :=
  contextSwitch_spec rfl (placed_linkageMachine 0x407000 (by simp [contextSwitch])) rfl
    (by decide) rfl rfl (((stack_nil _).push 0x8048094 (by simp)).push 0x400800 (by simp))

end Interrupt

section DoCall

variable {M : Machine} {addr : Linkage → Word} {tss ldt : SegDesc} {s : Kernel}
  {kloc uloc : ℕ → Word} {table number : Word} {c : Cpu} {ret a b d : Word}

end DoCall

end OS391
