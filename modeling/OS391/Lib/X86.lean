/-
# A 32-bit x86 processor

The registers, the flags, the memory and the instructions of a small part of the IA-32, in
protected mode with flat segments (every base is 0), so that an address is an offset.  The
code is a function from addresses to instructions, each with the address of the one behind
it; addresses without an instruction are entries of routines known only by what they do, a
relation `ext` from the processor at the entry to the processor after the routine's `ret`.

A call of `int` looks up its gate and is refused (`#GP`, vector 13) when the gate's level is
below the caller's; when it enters a more privileged level it changes to the stack of the
task-state segment and pushes the five words that `iret` takes back.

The carry, zero, sign and overflow flags are computed; the parity and the auxiliary flag
stay as they are, since no instruction here reads them.
-/

import OS391.Lib.ByteMemory
import Mathlib.Logic.Relation
import Mathlib.Tactic.Simps.Basic

namespace OS391
namespace Lib
namespace X86

abbrev Word := BitVec 32

inductive Reg
  | eax | ecx | edx | ebx | esp | ebp | esi | edi
  deriving DecidableEq

/-- The processor and its memory. -/
@[ext] structure Cpu where
  reg : Reg → Word
  eip : Word
  eflags : Word
  cs : BitVec 16
  ss : BitVec 16
  ds : BitVec 16
  es : BitVec 16
  mem : Mem

/-- An operand: `$v`, `%r` or `disp(base, index, scale)`. -/
inductive Operand
  | imm (v : Word)
  | reg (r : Reg)
  | mem (disp : Word) (base : Option Reg) (index : Option Reg) (scale : Word)

/-- The conditions of `jz`, `jle`, `jge` and `jae`. -/
inductive Cond
  | z | le | ge | ae

/-- The instructions, with the operands in the order of the AT&T syntax.  `loadByte` is
`movb src, %al`, `storeByte` is `movb %al, dst`, `movDsDx` and `movDxEs` are `movw %ds, %dx`
and `movw %dx, %es`; the string instructions carry the size of an element. -/
inductive Instr
  | mov (src : Operand) (dst : Reg)
  | loadByte (src : Operand)
  | storeByte (dst : Operand)
  | movDsDx
  | movDxEs
  | add (src : Operand) (dst : Reg)
  | sub (src : Operand) (dst : Reg)
  | and (src : Operand) (dst : Reg)
  | or (src : Operand) (dst : Reg)
  | shr (n : ℕ) (dst : Reg)
  | test (src : Operand) (dst : Reg)
  | cmp (src : Operand) (dst : Reg)
  | lea (src : Operand) (dst : Reg)
  | push (src : Operand)
  | pop (dst : Reg)
  | pushf
  | popf
  | pusha
  | popa
  | cld
  | std
  | repStos (size : ℕ)
  | repMovs (size : ℕ)
  | jmp (target : Word)
  | jcc (cond : Cond) (target : Word)
  | call (target : Word)
  | callMem (target : Operand)
  | ret
  | int (n : BitVec 8)
  | iret

/-- A gate of the interrupt table, decoded. -/
structure Gate where
  offset : Word
  selector : BitVec 16
  dpl : BitVec 2
  present : Bool
  trap : Bool
  deriving DecidableEq

/-- What the processor reads from the tables of the system: the gates, the stack of level 0
in the task-state segment, and the level of the segment a selector names. -/
structure Sys where
  gate : BitVec 8 → Option Gate
  esp0 : Word
  ss0 : BitVec 16
  dpl : BitVec 16 → BitVec 2

namespace Cpu

/-! ### Parts of the processor -/

@[simps -fullyApplied] def set (c : Cpu) (r : Reg) (v : Word) : Cpu :=
  { c with reg := Function.update c.reg r v }

@[simps -fullyApplied] def goto (c : Cpu) (a : Word) : Cpu := { c with eip := a }

@[simps -fullyApplied] def withFlags (c : Cpu) (w : Word) : Cpu := { c with eflags := w }

@[simps -fullyApplied] def withMem (c : Cpu) (m : Mem) : Cpu := { c with mem := m }

@[simps -fullyApplied] def withCs (c : Cpu) (s : BitVec 16) : Cpu := { c with cs := s }

@[simps -fullyApplied] def withSs (c : Cpu) (s : BitVec 16) : Cpu := { c with ss := s }

@[simps -fullyApplied] def withData (c : Cpu) (d e : BitVec 16) : Cpu := { c with ds := d, es := e }

/-- The address of a memory operand. -/
@[simp] def addr (c : Cpu) : Operand → Word
  | .mem disp base index scale =>
    disp + (base.map c.reg).getD 0 + (index.map c.reg).getD 0 * scale
  | _ => 0

@[simp] def val (c : Cpu) : Operand → Word
  | .imm v => v
  | .reg r => c.reg r
  | .mem disp base index scale => c.mem.load (c.addr (.mem disp base index scale))

/-! ### Flags -/

def cf (c : Cpu) : Bool := c.eflags.getLsbD 0
def zf (c : Cpu) : Bool := c.eflags.getLsbD 6
def sf (c : Cpu) : Bool := c.eflags.getLsbD 7
def intf (c : Cpu) : Bool := c.eflags.getLsbD 9
def df (c : Cpu) : Bool := c.eflags.getLsbD 10
def ovf (c : Cpu) : Bool := c.eflags.getLsbD 11

/-- The word with bit `i` set to `b`. -/
def setBit (w : Word) (i : ℕ) (b : Bool) : Word :=
  if b then w ||| BitVec.twoPow 32 i else w &&& ~~~BitVec.twoPow 32 i

/-- The flags after a result `r` with the given carry and overflow. -/
def flagsOf (w r : Word) (carry overflow : Bool) : Word :=
  setBit (setBit (setBit (setBit w 0 carry) 6 (r == 0)) 7 r.msb) 11 overflow

/-- The processor after an instruction with the result `r`. -/
@[simps! -fullyApplied] def setFlags (c : Cpu) (r : Word) (carry overflow : Bool) : Cpu :=
  c.withFlags (flagsOf c.eflags r carry overflow)

/-- The flags of `cmp`. -/
@[simps! -fullyApplied] def cmp (c : Cpu) (a b : Word) : Cpu :=
  c.setFlags (a - b) (BitVec.usubOverflow a b) (BitVec.ssubOverflow a b)

def holds (c : Cpu) : Cond → Bool
  | .z => c.zf
  | .le => c.zf || c.sf != c.ovf
  | .ge => c.sf == c.ovf
  | .ae => !c.cf

/-! ### The stack -/

@[simps! -fullyApplied] def push (c : Cpu) (w : Word) : Cpu :=
  (c.withMem (c.mem.store (c.reg .esp - 4) w)).set .esp (c.reg .esp - 4)

/-- The word on top of the stack. -/
def top (c : Cpu) : Word := c.mem.load (c.reg .esp)

/-- The stack without the word on top. -/
@[simps! -fullyApplied] def drop (c : Cpu) : Cpu := c.set .esp (c.reg .esp + 4)

@[simps! -fullyApplied] def pop (c : Cpu) (r : Reg) : Cpu := c.drop.set r c.top

/-! ### String instructions -/

/-- By how much an index register moves. -/
def delta (c : Cpu) (size : ℕ) : Word :=
  if c.df then -BitVec.ofNat 32 size else BitVec.ofNat 32 size

/-- One store of `rep stos`. -/
def stos (size : ℕ) (c : Cpu) : Cpu :=
  ((c.withMem (c.mem.write (c.reg .edi) ((Mem.bytes (c.reg .eax)).take size))).set .edi
    (c.reg .edi + c.delta size)).set .ecx (c.reg .ecx - 1)

/-- One move of `rep movs`. -/
def movs (size : ℕ) (c : Cpu) : Cpu :=
  (((c.withMem (c.mem.write (c.reg .edi) (c.mem.read (c.reg .esi) size))).set .edi
    (c.reg .edi + c.delta size)).set .esi (c.reg .esi + c.delta size)).set .ecx (c.reg .ecx - 1)

/-! ### Levels -/

/-- The current privilege level. -/
def cpl (c : Cpu) : BitVec 2 := c.cs.setWidth 2

/-- The flags a program of the current level takes from a popped word: only level 0 changes
the interrupt flag and the I/O level. -/
def loadFlags (c : Cpu) (w : Word) : Word :=
  if c.cpl = 0 then w else (w &&& ~~~0x3200#32) ||| (c.eflags &&& 0x3200#32)

end Cpu

open Cpu

/-- A data segment register after a return to level `level`: a selector of a more
privileged segment is replaced by the null selector. -/
def Sys.returned (sys : Sys) (level : BitVec 2) (sel : BitVec 16) : BitVec 16 :=
  if sys.dpl sel < level then 0 else sel

/-- The processor on the stack of a gate of level `level`. -/
def Sys.changeStack (sys : Sys) (level : BitVec 2) (c : Cpu) : Cpu :=
  if level < c.cpl then
    (((c.withSs sys.ss0).set .esp sys.esp0).push (c.ss.setWidth 32)).push (c.reg .esp)
  else c

/-- The error code that some exceptions push. -/
def Cpu.pushError (c : Cpu) (error : Option Word) : Cpu :=
  match error with
  | some e => c.push e
  | none => c

/-- The processor enters a gate: a change of stack when the level changes, the words for
`iret`, the error code when there is one, and the flags of the gate's kind. -/
def Sys.enter (sys : Sys) (g : Gate) (error : Option Word) (c : Cpu) : Cpu :=
  let level := sys.dpl g.selector
  let pushed := (((sys.changeStack level c).push c.eflags).push (c.cs.setWidth 32)).push c.eip
  (((pushed.pushError error).withFlags
    (c.eflags &&& ~~~(if g.trap then 0x34100#32 else 0x34300#32))).withCs
      ((g.selector &&& ~~~3#16) ||| level.setWidth 16)).goto g.offset

/-- The exception `vector` with an error code; without a gate for it the processor stays
where it is. -/
def Sys.raise (sys : Sys) (vector : BitVec 8) (error : Word) (c : Cpu) : Cpu :=
  match sys.gate vector with
  | some g => sys.enter g (some error) c
  | none => c

/-- `int $n`, read at the address `here`: refused where there is no gate or one above the
caller's level (`#GP`), and where the gate is not present (`#NP`). -/
def Sys.int (sys : Sys) (n : BitVec 8) (here : Word) (c : Cpu) : Cpu :=
  match sys.gate n with
  | none => sys.raise 13 (n.setWidth 32 <<< 3 ||| 2) (c.goto here)
  | some g =>
    if g.dpl < c.cpl then sys.raise 13 (n.setWidth 32 <<< 3 ||| 2) (c.goto here)
    else if !g.present then sys.raise 11 (n.setWidth 32 <<< 3 ||| 2) (c.goto here)
    else sys.enter g none c

/-- An interrupt of a device: no level is checked. -/
def Sys.interrupt (sys : Sys) (n : BitVec 8) (c : Cpu) : Cpu :=
  match sys.gate n with
  | some g => sys.enter g none c
  | none => c

/-- `iret` -/
def Sys.iret (sys : Sys) (c : Cpu) : Cpu :=
  let cs : BitVec 16 := c.drop.top.setWidth 16
  let level : BitVec 2 := cs.setWidth 2
  let c₁ := ((c.drop.drop.drop.goto c.top).withCs cs).withFlags (c.loadFlags c.drop.drop.top)
  if c.cpl < level then
    ((c₁.set .esp c₁.top).withSs (c₁.drop.top.setWidth 16)).withData
      (sys.returned level c.ds) (sys.returned level c.es)
  else c₁

/-- One instruction, read at the address `here`, on the processor whose `eip` is already
behind it. -/
@[simp] def Sys.exec (sys : Sys) (here : Word) : Instr → Cpu → Cpu
  | .mov src dst, c => c.set dst (c.val src)
  | .loadByte src, c =>
    c.set .eax ((c.reg .eax &&& ~~~0xFF#32) ||| (c.mem (c.addr src)).setWidth 32)
  | .storeByte dst, c => c.withMem (c.mem.write (c.addr dst) [(c.reg .eax).setWidth 8])
  | .movDsDx, c => c.set .edx ((c.reg .edx &&& ~~~0xFFFF#32) ||| c.ds.setWidth 32)
  | .movDxEs, c => c.withData c.ds ((c.reg .edx).setWidth 16)
  | .add src dst, c =>
    (c.set dst (c.reg dst + c.val src)).setFlags (c.reg dst + c.val src)
      (BitVec.uaddOverflow (c.reg dst) (c.val src)) (BitVec.saddOverflow (c.reg dst) (c.val src))
  | .sub src dst, c => (c.cmp (c.reg dst) (c.val src)).set dst (c.reg dst - c.val src)
  | .and src dst, c =>
    (c.set dst (c.reg dst &&& c.val src)).setFlags (c.reg dst &&& c.val src) false false
  | .or src dst, c =>
    (c.set dst (c.reg dst ||| c.val src)).setFlags (c.reg dst ||| c.val src) false false
  | .shr n dst, c =>
    (c.set dst (c.reg dst >>> n)).setFlags (c.reg dst >>> n) ((c.reg dst).getLsbD (n - 1)) false
  | .test src dst, c => c.setFlags (c.reg dst &&& c.val src) false false
  | .cmp src dst, c => c.cmp (c.reg dst) (c.val src)
  | .lea src dst, c => c.set dst (c.addr src)
  | .push src, c => c.push (c.val src)
  | .pop dst, c => c.pop dst
  | .pushf, c => c.push c.eflags
  | .popf, c => c.drop.withFlags (c.loadFlags c.top)
  | .pusha, c =>
    (((((((c.push (c.reg .eax)).push (c.reg .ecx)).push (c.reg .edx)).push (c.reg .ebx)).push
      (c.reg .esp)).push (c.reg .ebp)).push (c.reg .esi)).push (c.reg .edi)
  | .popa, c =>
    -- the saved `%esp` is skipped
    (((((((c.pop .edi).pop .esi).pop .ebp).drop).pop .ebx).pop .edx).pop .ecx).pop .eax
  | .cld, c => c.withFlags (setBit c.eflags 10 false)
  | .std, c => c.withFlags (setBit c.eflags 10 true)
  | .repStos size, c => (stos size)^[(c.reg .ecx).toNat] c
  | .repMovs size, c => (movs size)^[(c.reg .ecx).toNat] c
  | .jmp target, c => c.goto target
  | .jcc cond target, c => if c.holds cond then c.goto target else c
  | .call target, c => (c.push c.eip).goto target
  | .callMem target, c => (c.push c.eip).goto (c.val target)
  | .ret, c => c.drop.goto c.top
  | .int n, c => sys.int n here c
  | .iret, c => sys.iret c

/-- The code: the instruction at an address, and the address behind it. -/
abbrev Code := Word → Option (Instr × Word)

/-- What a run depends on: the tables, the code, and the routines that are not part of it. -/
structure Machine where
  sys : Sys
  code : Code
  ext : Cpu → Cpu → Prop

/-- The machine without the routines. -/
def Machine.alone (M : Machine) : Machine := { M with ext := fun _ _ => False }

/-- One step: an instruction, or a whole call of a routine that is not part of the code. -/
inductive CpuStep (M : Machine) (c c' : Cpu) : Prop
  | instr (i : Instr) (next : Word) (h : M.code c.eip = some (i, next))
      (h' : c' = M.sys.exec c.eip i (c.goto next))
  | routine (h : M.code c.eip = none) (h' : M.ext c c')

/-- `c'` is reached from `c`. -/
abbrev Reach (M : Machine) : Cpu → Cpu → Prop :=
  Relation.ReflTransGen (CpuStep M)

/-- The assembler put the instructions `is` at the addresses `loc 0`, `loc 1`, … -/
def Placed (M : Machine) (loc : ℕ → Word) (is : List Instr) : Prop :=
  ∀ k i, is[k]? = some i → M.code (loc k) = some (i, loc (k + 1))

end X86
end Lib
end OS391
