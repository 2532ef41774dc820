/-
# The interrupt table and the segment table

`init_idt` and `populate_idt` (`student-distrib/idt_helper.c`), the descriptors of
`x86_desc.h` and `x86_desc.S`, and the entries that `entry` (`student-distrib/kernel.c`) builds
for the local descriptor table and the task-state segment.  The addresses of the linkage
routines are the linker's: `addr`.

The kernel packs its handlers and bases into bit fields; what the processor takes out of them
again is `gate_bootIdt` for the interrupt table, `decode_tssDesc` and `decode_ldtDesc` for the
other two.  So a user program enters the kernel by `int $0x80` only, and every other `int` is
a general protection fault (`int_from_user`).
-/

import OS391.Lib.Descriptor
import OS391.Lib.X86Run
import OS391.Kernel

namespace OS391

open Lib Lib.X86

/-! ### The names -/

/-- The exceptions of `idt_number.h`, in the order of their numbers. -/
inductive Exception
  | divByZero | singleStep | nmi | breakpoint | overflow | boundRange | invOpcode
  | coprocessorNa | doubleFault | coprocessorSegOvr | invTask | segNotPresent | stackSegfault
  | generalProtection | page | reserved | x87Float | alignment | machine | simd
  deriving DecidableEq

/-- The routines of `intr_linkage.S`. -/
inductive Linkage
  | exc (e : Exception)
  | irq (n : Fin 16)
  | sys
  deriving DecidableEq

namespace Selector

def kernelCs : BitVec 16 := 0x0010
def kernelDs : BitVec 16 := 0x0018
def userCs : BitVec 16 := 0x0023
def userDs : BitVec 16 := 0x002B

end Selector

/-- `SYS_CALL` -/
def sysCall : ℕ := 128

/-- `NUM_VEC` -/
def numVec : ℕ := 256

/-! ### The interrupt table -/

/-- `idt_desc_t` -/
structure IdtDesc where
  offset_15_00 : BitVec 16
  segSelector : BitVec 16
  reserved4 : BitVec 8
  reserved3 : BitVec 1
  reserved2 : BitVec 1
  reserved1 : BitVec 1
  size : BitVec 1
  reserved0 : BitVec 1
  dpl : BitVec 2
  present : BitVec 1
  offset_31_16 : BitVec 16

/-- `idt_desc_t.val`: the fields from the lowest address up. -/
def IdtDesc.val (d : IdtDesc) : BitVec 64 :=
  d.offset_31_16 ++ (d.present ++ (d.dpl ++ (d.reserved0 ++ (d.size ++ (d.reserved1 ++
    (d.reserved2 ++ (d.reserved3 ++ (d.reserved4 ++ (d.segSelector ++ d.offset_15_00)))))))))

/-- The body of the loops of `init_idt`. -/
def initEntry (reserved3 : BitVec 1) (dpl : BitVec 2) (d : IdtDesc) : IdtDesc :=
  { d with
    segSelector := Selector.kernelCs
    reserved3 := reserved3
    reserved2 := 1
    reserved1 := 1
    size := 1
    reserved0 := 0
    dpl := dpl
    present := 1 }

/-- `init_idt` -/
def initIdt (idt : ℕ → IdtDesc) : ℕ → IdtDesc :=
  let idt₁ := mapOver (fun _ => initEntry 1 0) (List.range numVec) idt
  let idt₂ := mapOver (fun _ => initEntry 0 0) (List.range' 32 16) idt₁
  Function.update idt₂ sysCall (initEntry 1 3 (idt₂ sysCall))

/-- `SET_IDT_ENTRY` -/
def setIdtEntry (d : IdtDesc) (handler : Word) : IdtDesc :=
  { d with
    offset_31_16 := ((handler &&& 0xFFFF0000#32) >>> 16).setWidth 16
    offset_15_00 := (handler &&& 0xFFFF#32).setWidth 16 }

/-- The entries that `populate_idt` sets, in its order. -/
def handlers : List (ℕ × Linkage) :=
  [ (0, .exc .divByZero),
    (1, .exc .singleStep),
    (2, .exc .nmi),
    (3, .exc .breakpoint),
    (4, .exc .overflow),
    (5, .exc .boundRange),
    (6, .exc .invOpcode),
    (7, .exc .coprocessorNa),
    (8, .exc .doubleFault),
    (9, .exc .coprocessorSegOvr),
    (10, .exc .invTask),
    (11, .exc .segNotPresent),
    (12, .exc .stackSegfault),
    (13, .exc .generalProtection),
    (14, .exc .page),
    (15, .exc .reserved),
    (16, .exc .x87Float),
    (17, .exc .alignment),
    (18, .exc .machine),
    (19, .exc .simd),
    (32, .irq 0),
    (33, .irq 1),
    (34, .irq 2),
    (35, .irq 3),
    (36, .irq 4),
    (37, .irq 5),
    (38, .irq 6),
    (39, .irq 7),
    (40, .irq 8),
    (41, .irq 9),
    (42, .irq 10),
    (43, .irq 11),
    (44, .irq 12),
    (45, .irq 13),
    (46, .irq 14),
    (47, .irq 15),
    (sysCall, .sys) ]

/-- `populate_idt` -/
def populateIdt (addr : Linkage → Word) (idt : ℕ → IdtDesc) : ℕ → IdtDesc :=
  handlers.foldl (fun t h => Function.update t h.1 (setIdtEntry (t h.1) (addr h.2))) idt

/-- The table of `x86_desc.S`: `.rept NUM_VEC`, `.quad 0`. -/
def emptyIdt : ℕ → IdtDesc := fun _ => ⟨0, 0, 0, 0, 0, 0, 0, 0, 0, 0, 0⟩

/-- The table after `init_idt` and `populate_idt`. -/
def bootIdt (addr : Linkage → Word) : ℕ → IdtDesc := populateIdt addr (initIdt emptyIdt)

/-! ### The segment table -/

/-- `seg_desc_t` -/
structure SegDesc where
  segLim_15_00 : BitVec 16
  base_15_00 : BitVec 16
  base_23_16 : BitVec 8
  type : BitVec 4
  sys : BitVec 1
  dpl : BitVec 2
  present : BitVec 1
  segLim_19_16 : BitVec 4
  avail : BitVec 1
  reserved : BitVec 1
  opsize : BitVec 1
  granularity : BitVec 1
  base_31_24 : BitVec 8

/-- `seg_desc_t.val` -/
def SegDesc.val (d : SegDesc) : BitVec 64 :=
  d.base_31_24 ++ (d.granularity ++ (d.opsize ++ (d.reserved ++ (d.avail ++ (d.segLim_19_16 ++
    (d.present ++ (d.dpl ++ (d.sys ++ (d.type ++ (d.base_23_16 ++
      (d.base_15_00 ++ d.segLim_15_00)))))))))))

/-- `SET_LDT_PARAMS`, `SET_TSS_PARAMS` -/
def setParams (d : SegDesc) (addr lim : Word) : SegDesc :=
  { d with
    base_31_24 := ((addr &&& 0xFF000000#32) >>> 24).setWidth 8
    base_23_16 := ((addr &&& 0x00FF0000#32) >>> 16).setWidth 8
    base_15_00 := (addr &&& 0x0000FFFF#32).setWidth 16
    segLim_19_16 := ((lim &&& 0x000F0000#32) >>> 16).setWidth 4
    segLim_15_00 := (lim &&& 0x0000FFFF#32).setWidth 16 }

/-- `the_ldt_desc` of `entry`; the fields that it does not set come from the stack. -/
def theLdtDesc (garbage : SegDesc) (ldt ldtSize : Word) : SegDesc :=
  setParams
    { garbage with
      granularity := 0
      opsize := 1
      reserved := 0
      avail := 0
      present := 1
      dpl := 0
      sys := 0
      type := 2 }
    ldt ldtSize

/-- `the_tss_desc` of `entry`, with the first values of the limit. -/
def theTssDesc (garbage : SegDesc) (tss tssSize : Word) : SegDesc :=
  setParams
    { garbage with
      granularity := 0
      opsize := 0
      reserved := 0
      avail := 0
      segLim_19_16 := (104#32 &&& 0x000F0000#32).setWidth 4
      present := 1
      dpl := 0
      sys := 0
      type := 9
      segLim_15_00 := (104#32 &&& 0x0000FFFF#32).setWidth 16 }
    tss tssSize

/-- `gdt` of `x86_desc.S`, with the two entries that `entry` sets. -/
def gdt (tss ldt : SegDesc) : List (BitVec 64) :=
  [0, 0, 0x00CF9A000000FFFF, 0x00CF92000000FFFF, 0x00CFFA000000FFFF, 0x00CFF2000000FFFF,
    tss.val, ldt.val]

/-- The system that the kernel sets up, with the stack of its task-state segment. -/
def kernelSys (addr : Linkage → Word) (tss ldt : SegDesc) (s : Kernel) : Sys :=
  Sys.ofTables (fun n => (bootIdt addr n.toNat).val) (gdt tss ldt) (BitVec.ofInt 32 s.tssEsp0)
    (BitVec.ofNat 16 s.tssSs0)

/-! ### What the processor takes out of the interrupt table -/

/-- The address of the routine for a vector; `populate_idt` leaves the others at 0. -/
def handlerOf (addr : Linkage → Word) (n : ℕ) : Word :=
  ((handlers.lookup n).map addr).getD 0

/-- The gate of a vector: `int` of a user program is accepted at `SYS_CALL` only, and only
the gates of the devices clear the interrupt flag. -/
def gateOf (addr : Linkage → Word) (n : ℕ) : Gate where
  offset := handlerOf addr n
  selector := Selector.kernelCs
  dpl := if n = sysCall then 3 else 0
  present := true
  trap := !decide (32 ≤ n ∧ n < 48)

/-- The processor decodes what `init_idt` packs. -/
theorem decode_val_initEntry (d : IdtDesc) (reserved3 : BitVec 1) (dpl : BitVec 2) :
    Gate.decode (initEntry reserved3 dpl d).val = some
      { offset := d.offset_31_16 ++ d.offset_15_00
        selector := Selector.kernelCs
        dpl := dpl
        present := true
        trap := reserved3.getLsbD 0 } := by
  rw [Gate.decode]
  simp (disch := omega) only [IdtDesc.val, initEntry, extractLsb'_append_lo,
    extractLsb'_append_hi, getLsbD_append_lo, getLsbD_append_hi]
  simp

/-- `SET_IDT_ENTRY` touches the two halves of the address only. -/
theorem setIdtEntry_initEntry (d : IdtDesc) (reserved3 : BitVec 1) (dpl : BitVec 2)
    (handler : Word) :
    setIdtEntry (initEntry reserved3 dpl d) handler =
      initEntry reserved3 dpl (setIdtEntry d handler) := rfl

/-- The two halves are the address. -/
theorem offset_setIdtEntry (d : IdtDesc) (handler : Word) :
    (setIdtEntry d handler).offset_31_16 ++ (setIdtEntry d handler).offset_15_00 = handler := by
  have hhi : ((handler &&& 0xFFFF0000#32) >>> 16).setWidth 16 = handler.extractLsb' 16 16 := by
    rw [show 0xFFFF0000#32 = BitVec.ofNat 32 (2 ^ 16 - 1) <<< 16 by decide]
    exact setWidth_shiftRight_mask handler (by omega)
  have hlo : (handler &&& 0xFFFF#32).setWidth 16 = handler.extractLsb' 0 16 := by
    rw [show 0xFFFF#32 = BitVec.ofNat 32 (2 ^ 16 - 1) by decide]
    exact setWidth_mask handler (by omega)
  calc (setIdtEntry d handler).offset_31_16 ++ (setIdtEntry d handler).offset_15_00
      = handler.extractLsb' 16 16 ++ handler.extractLsb' 0 16 := by rw [setIdtEntry, hhi, hlo]
    _ = handler.extractLsb' 0 32 :=
      BitVec.extractLsb'_append_extractLsb'_eq_extractLsb' (by rfl)
    _ = handler := extractLsb'_self handler

/-- What the loops of `init_idt` leave in an entry. -/
theorem initIdt_apply (idt : ℕ → IdtDesc) {n : ℕ} (h : n < numVec) :
    initIdt idt n = initEntry (if 32 ≤ n ∧ n < 48 then 0 else 1) (if n = sysCall then 3 else 0)
      (idt n) := by
  have hmem : n ∈ List.range' 32 16 ↔ 32 ≤ n ∧ n < 48 := by
    rw [List.mem_range'_1]
  rw [initIdt]
  rcases eq_or_ne n sysCall with rfl | hn
  · rw [Function.update_self, mapOver_apply List.nodup_range', mapOver_apply List.nodup_range]
    rfl
  · rw [Function.update_of_ne hn, mapOver_apply List.nodup_range', mapOver_apply List.nodup_range,
      if_pos (List.mem_range.2 h), if_neg hn]
    by_cases hirq : 32 ≤ n ∧ n < 48
    · rw [if_pos (hmem.2 hirq), if_pos hirq]
      rfl
    · rw [if_neg (hmem.not.2 hirq), if_neg hirq]

/-- A list of entries with different vectors sets each to its routine. -/
theorem foldl_setIdtEntry (addr : Linkage → Word) {hs : List (ℕ × Linkage)}
    (hnodup : (hs.map Prod.fst).Nodup) (idt : ℕ → IdtDesc) (n : ℕ) :
    hs.foldl (fun t h => Function.update t h.1 (setIdtEntry (t h.1) (addr h.2))) idt n =
      ((hs.lookup n).map fun l => setIdtEntry (idt n) (addr l)).getD (idt n) := by
  induction hs generalizing idt with
  | nil => rfl
  | cons h hs ih =>
    obtain ⟨v, l⟩ := h
    obtain ⟨hv, hhs⟩ := List.nodup_cons.1 hnodup
    rw [List.foldl_cons, ih hhs]
    rcases eq_or_ne n v with rfl | hn
    · have hnone : hs.lookup n = none := by
        rw [List.lookup_eq_none_iff]
        intro p hp
        simp only [bne_iff_ne, ne_eq]
        rintro rfl
        exact hv (List.mem_map.2 ⟨p, hp, rfl⟩)
      simp [hnone]
    · rw [Function.update_of_ne hn, List.lookup_cons, (beq_eq_false_iff_ne).2 hn]

/-- **The table after boot**: the processor finds in every vector a 32-bit gate into the
kernel's code, the routine that `populate_idt` names for it, and the level and kind that
`init_idt` gave it. -/
theorem gate_bootIdt (addr : Linkage → Word) {n : ℕ} (h : n < numVec) :
    Gate.decode (bootIdt addr n).val = some (gateOf addr n) := by
  have hentry : bootIdt addr n = initEntry (if 32 ≤ n ∧ n < 48 then 0 else 1)
      (if n = sysCall then 3 else 0)
      (((handlers.lookup n).map fun l => setIdtEntry (emptyIdt n) (addr l)).getD (emptyIdt n)) := by
    rw [bootIdt, populateIdt, foldl_setIdtEntry addr (by decide), initIdt_apply emptyIdt h]
    cases handlers.lookup n with
    | none => rfl
    | some l => exact setIdtEntry_initEntry ..
  rw [hentry, decode_val_initEntry, gateOf, handlerOf]
  congr 2
  · cases handlers.lookup n with
    | none => simp [emptyIdt]
    | some l => exact offset_setIdtEntry ..
  · by_cases hirq : 32 ≤ n ∧ n < 48
    · rw [if_pos hirq, decide_eq_true hirq]
      rfl
    · rw [if_neg hirq, decide_eq_false hirq]
      rfl

/-! ### The segment table -/

/-- **The base and the limit** that `SET_LDT_PARAMS` and `SET_TSS_PARAMS` pack are the ones the
processor finds, and the other fields stay. -/
theorem decode_setParams (d : SegDesc) (addr lim : Word) :
    Segment.decode (setParams d addr lim).val =
      { base := addr
        limit := lim.extractLsb' 0 20
        type := d.type
        sys := d.sys.getLsbD 0
        dpl := d.dpl
        present := d.present.getLsbD 0
        opsize := d.opsize.getLsbD 0
        granularity := d.granularity.getLsbD 0 } := by
  have hbase : ((addr &&& 0xFF000000#32) >>> 24).setWidth 8 = addr.extractLsb' 24 8 := by
    rw [show 0xFF000000#32 = BitVec.ofNat 32 (2 ^ 8 - 1) <<< 24 by decide]
    exact setWidth_shiftRight_mask addr (by omega)
  have hmid : ((addr &&& 0x00FF0000#32) >>> 16).setWidth 8 = addr.extractLsb' 16 8 := by
    rw [show 0x00FF0000#32 = BitVec.ofNat 32 (2 ^ 8 - 1) <<< 16 by decide]
    exact setWidth_shiftRight_mask addr (by omega)
  have hlim : ((lim &&& 0x000F0000#32) >>> 16).setWidth 4 = lim.extractLsb' 16 4 := by
    rw [show 0x000F0000#32 = BitVec.ofNat 32 (2 ^ 4 - 1) <<< 16 by decide]
    exact setWidth_shiftRight_mask lim (by omega)
  have hlo (w : Word) : (w &&& 0x0000FFFF#32).setWidth 16 = w.extractLsb' 0 16 := by
    rw [show 0x0000FFFF#32 = BitVec.ofNat 32 (2 ^ 16 - 1) by decide]
    exact setWidth_mask w (by omega)
  rw [setParams, hbase, hmid, hlim, hlo, hlo, Segment.decode]
  simp (disch := omega) only [SegDesc.val, extractLsb'_append_lo, extractLsb'_append_hi,
    getLsbD_append_lo, getLsbD_append_hi]
  have haddr : addr.extractLsb' 24 8 ++ (addr.extractLsb' 16 8 ++ addr.extractLsb' 0 16) = addr :=
    calc addr.extractLsb' 24 8 ++ (addr.extractLsb' 16 8 ++ addr.extractLsb' 0 16)
        = addr.extractLsb' 24 8 ++ addr.extractLsb' 0 24 :=
          congrArg _ (BitVec.extractLsb'_append_extractLsb'_eq_extractLsb' (by rfl))
      _ = addr.extractLsb' 0 32 := BitVec.extractLsb'_append_extractLsb'_eq_extractLsb' (by rfl)
      _ = addr := extractLsb'_self addr
  have hlimit : lim.extractLsb' 16 4 ++ lim.extractLsb' 0 16 = lim.extractLsb' 0 20 :=
    BitVec.extractLsb'_append_extractLsb'_eq_extractLsb' (by rfl)
  simp [haddr, hlimit]

/-- The descriptor of the task-state segment: whatever was on the stack of `entry`, a present
available segment at `tss` with the limit `tss_size`. -/
theorem decode_tssDesc (garbage : SegDesc) (tss tssSize : Word) :
    Segment.decode (theTssDesc garbage tss tssSize).val =
      { base := tss
        limit := tssSize.extractLsb' 0 20
        type := 9
        sys := false
        dpl := 0
        present := true
        opsize := false
        granularity := false } := by
  rw [theTssDesc, decode_setParams]
  simp

/-- The descriptor of the local descriptor table. -/
theorem decode_ldtDesc (garbage : SegDesc) (ldt ldtSize : Word) :
    Segment.decode (theLdtDesc garbage ldt ldtSize).val =
      { base := ldt
        limit := ldtSize.extractLsb' 0 20
        type := 2
        sys := false
        dpl := 0
        present := true
        opsize := true
        granularity := false } := by
  rw [theLdtDesc, decode_setParams]
  simp

/-! ### Entering the kernel -/

section Enter

variable (addr : Linkage → Word) (tss ldt : SegDesc) (s : Kernel)

theorem gate_kernelSys (n : BitVec 8) :
    (kernelSys addr tss ldt s).gate n = some (gateOf addr n.toNat) :=
  gate_bootIdt addr n.isLt

/-- The level of the kernel's code is the one in its selector. -/
theorem dpl_kernelCs : (kernelSys addr tss ldt s).dpl Selector.kernelCs = 0 := by
  rw [show (kernelSys addr tss ldt s).dpl Selector.kernelCs =
    BitVec.extractLsb' 45 2 0x00CF9A000000FFFF#64 from rfl]
  decide

/-- So is that of the kernel's data. -/
theorem dpl_kernelDs : (kernelSys addr tss ldt s).dpl Selector.kernelDs = 0 := by
  rw [show (kernelSys addr tss ldt s).dpl Selector.kernelDs =
    BitVec.extractLsb' 45 2 0x00CF92000000FFFF#64 from rfl]
  decide

/-- Every gate of the table is into a more privileged level than a user program's. -/
theorem dpl_gateOf_lt {addr : Linkage → Word} {tss ldt : SegDesc} {s : Kernel} {c : Cpu}
    (hcpl : c.cpl = 3) (n : ℕ) : (kernelSys addr tss ldt s).dpl (gateOf addr n).selector < c.cpl := by
  rw [hcpl, gateOf, dpl_kernelCs]
  decide

/-- A gate of the table entered from a user program. -/
theorem enter_from_user {c : Cpu} (hcpl : c.cpl = 3) (n : ℕ) (error : Option Word) :
    ((kernelSys addr tss ldt s).enter (gateOf addr n) error c).cs = Selector.kernelCs ∧
    ((kernelSys addr tss ldt s).enter (gateOf addr n) error c).intf =
      (c.intf && !decide (32 ≤ n ∧ n < 48)) ∧
    ((kernelSys addr tss ldt s).enter (gateOf addr n) error c).eip = handlerOf addr n ∧
    ((kernelSys addr tss ldt s).enter (gateOf addr n) error c).Stack
      (error.toList ++ [c.eip, c.cs.setWidth 32, c.eflags, c.reg .esp, c.ss.setWidth 32]) := by
  refine ⟨?_, Sys.intf_enter .., rfl, Sys.stack_enter _ (dpl_gateOf_lt hcpl n) error⟩
  rw [Sys.cs_enter, show (gateOf addr n).selector = Selector.kernelCs from rfl, dpl_kernelCs]
  decide

variable {addr tss ldt s}

/-- The gate of `SYS_CALL` lets a user program in. -/
theorem int_sysCall {c : Cpu} (hcpl : c.cpl = 3) {n : BitVec 8} (hn : n.toNat = sysCall)
    (here : Word) : (kernelSys addr tss ldt s).int n here c =
      (kernelSys addr tss ldt s).enter (gateOf addr sysCall) none c := by
  rw [Sys.int, gate_kernelSys, hn]
  simp [gateOf, hcpl]

/-- `c'` is on the kernel stack of the task-state segment, with the words `frame` on top of it
and nothing else written since `c`. -/
structure OnKernelStack (s : Kernel) (frame : List Word) (c c' : Cpu) : Prop where
  ss : c'.ss = BitVec.ofNat 16 s.tssSs0
  esp : c'.reg .esp = BitVec.ofInt 32 s.tssEsp0 - BitVec.ofNat 32 (4 * frame.length)
  stack : c'.Stack frame
  mem : Mem.Outside (c'.reg .esp) (4 * frame.length) c.mem c'.mem

/-- A gate of the table changes to that stack. -/
theorem onKernelStack_enter {c : Cpu} (hcpl : c.cpl = 3) (n : ℕ) (error : Option Word) :
    OnKernelStack s
      (error.toList ++ [c.eip, c.cs.setWidth 32, c.eflags, c.reg .esp, c.ss.setWidth 32]) c
      ((kernelSys addr tss ldt s).enter (gateOf addr n) error c) := by
  have hlevel : (kernelSys addr tss ldt s).dpl (gateOf addr n).selector < c.cpl :=
    dpl_gateOf_lt hcpl n
  obtain ⟨hss, hesp, hmem⟩ := (kernelSys addr tss ldt s).enter_outer hlevel error
  refine ⟨hss, ?_, Sys.stack_enter _ hlevel error, ?_⟩
  · rw [List.length_append]
    exact hesp
  · rw [List.length_append]
    exact hmem

/-- **`int` in a user program.**  Only `int $0x80` reaches the routine of its vector; every
other `int` is a general protection fault at the instruction itself.  Both change to the
kernel stack of the task-state segment, leave the interrupt flag as it is, and push there, and
write nowhere else, what `iret` needs to go back. -/
theorem int_from_user {c : Cpu} (hcpl : c.cpl = 3) (n : BitVec 8) (here : Word) :
    ((kernelSys addr tss ldt s).int n here c).cs = Selector.kernelCs ∧
    ((kernelSys addr tss ldt s).int n here c).intf = c.intf ∧
    ((kernelSys addr tss ldt s).int n here c).eip =
      (if n.toNat = sysCall then addr .sys else addr (.exc .generalProtection)) ∧
    OnKernelStack s
      ((if n.toNat = sysCall then [c.eip] else [n.setWidth 32 <<< 3 ||| 2, here]) ++
        [c.cs.setWidth 32, c.eflags, c.reg .esp, c.ss.setWidth 32]) c
      ((kernelSys addr tss ldt s).int n here c) := by
  rcases eq_or_ne n.toNat sysCall with hn | hn
  · obtain ⟨hcs, hintf, heip, -⟩ :=
      enter_from_user addr tss ldt s hcpl sysCall none
    rw [int_sysCall hcpl hn, if_pos hn, if_pos hn]
    exact ⟨hcs, by simpa [sysCall] using hintf, heip, onKernelStack_enter hcpl sysCall none⟩
  · have hint : (kernelSys addr tss ldt s).int n here c =
        (kernelSys addr tss ldt s).enter (gateOf addr 13) (some (n.setWidth 32 <<< 3 ||| 2))
          (c.goto here) := by
      have hlevel : (gateOf addr n.toNat).dpl < c.cpl := by
        rw [hcpl, show (gateOf addr n.toNat).dpl = 0 from if_neg hn]
        decide
      have hgp : (kernelSys addr tss ldt s).gate 13 = some (gateOf addr 13) :=
        gate_kernelSys addr tss ldt s 13
      rw [Sys.int, gate_kernelSys]
      simp only [if_pos hlevel, Sys.raise, hgp]
    have hcpl' : (c.goto here).cpl = 3 := hcpl
    obtain ⟨hcs, hintf, heip, -⟩ := enter_from_user addr tss ldt s hcpl' 13
      (some (n.setWidth 32 <<< 3 ||| 2))
    have hstack : OnKernelStack s _ (c.goto here)
        ((kernelSys addr tss ldt s).enter (gateOf addr 13) (some (n.setWidth 32 <<< 3 ||| 2))
          (c.goto here)) :=
      onKernelStack_enter hcpl' 13 (some (n.setWidth 32 <<< 3 ||| 2))
    rw [hint, if_neg hn, if_neg hn]
    exact ⟨hcs, by simpa [Cpu.intf] using hintf, heip, hstack.ss, hstack.esp, hstack.stack,
      hstack.mem⟩

/-- A processor in a user program, at `ip` with the stack from `sp` on, everything else 0. -/
def userCpu (ip sp : Word) : Cpu where
  reg r := if r = .esp then sp else 0
  eip := ip
  eflags := 0x202
  cs := Selector.userCs
  ss := Selector.userDs
  ds := 0
  es := 0
  mem _ := 0

/-- Routines 16 bytes apart, with `sysLinkage` at `0x400000`. -/
def linkageAddr : Linkage → Word
  | .sys => 0x400000
  | .irq n => 0x401000 + BitVec.ofNat 32 (16 * n)
  | .exc .page => 0x402010
  | .exc _ => 0x402000

/-- The descriptors of the task-state segment and of the local table. -/
def bootSys (s : Kernel) : Sys :=
  kernelSys linkageAddr (theTssDesc ⟨0, 0, 0, 0, 0, 0, 0, 0, 0, 0, 0, 0, 0⟩ 0x404000 104)
    (theLdtDesc ⟨0, 0, 0, 0, 0, 0, 0, 0, 0, 0, 0, 0, 0⟩ 0x405000 16) s

/-- A kernel with the stack of the first process in its task-state segment. -/
def stackKernel : Kernel := { (default : Kernel) with tssSs0 := 0x18, tssEsp0 := 0x7FFFFC }

/-- The `int` of a device's vector in a user program. -/
theorem int_from_user_device :
    ((bootSys stackKernel).int 33 0x8048000 (userCpu 0x8048002 0x83FFFF0)).cs
        = Selector.kernelCs ∧
    ((bootSys stackKernel).int 33 0x8048000 (userCpu 0x8048002 0x83FFFF0)).intf =
      (userCpu 0x8048002 0x83FFFF0).intf ∧
    ((bootSys stackKernel).int 33 0x8048000 (userCpu 0x8048002 0x83FFFF0)).eip = 0x402000 ∧
    OnKernelStack stackKernel [0x10A, 0x8048000, 0x23, 0x202, 0x83FFFF0, 0x2B]
      (userCpu 0x8048002 0x83FFFF0)
      ((bootSys stackKernel).int 33 0x8048000 (userCpu 0x8048002 0x83FFFF0)) := by
  exact int_from_user (c := userCpu 0x8048002 0x83FFFF0) (by decide) 33 0x8048000

end Enter

end OS391
