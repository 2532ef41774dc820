/-
# A memory of bytes with 32-bit addresses

A memory is a function from addresses to bytes, and addresses wrap.  A write is a list of
bytes put down from an address on (`write`), so that the stores of one, two and four bytes
are writes of lists of these lengths, and a loop that writes is a loop that makes its list
longer: at its end (`write_append`) or, going down, at its beginning (`write_prepend`).
A read is the list of the bytes found (`read`); it does not see a write that is `Apart`
from it.

A word is stored with its least significant byte first.  `Holds m a ws` says that the words
`ws` stand in `m` from `a` up: the top of a stack that grows downwards, with a rule for what
is pushed (`Holds.push`) and one for what stays when something else is written
(`Holds.congr`).  `Stores m a bs` says it of bytes: a format made of parts one behind the
other is taken apart by `stores_append` and `Stores.flatMap`.
-/

import Mathlib.Data.BitVec
import Mathlib.Data.List.GetD
import Mathlib.Tactic.Common

namespace OS391
namespace Lib

/-- The contents of the 32-bit address space. -/
abbrev Mem := BitVec 32 → BitVec 8

namespace Mem

variable {m m' : Mem} {a b : BitVec 32} {bs cs : List (BitVec 8)} {n k : ℕ}

/-- The memory with the bytes `bs` from `a` on. -/
def write (m : Mem) (a : BitVec 32) (bs : List (BitVec 8)) : Mem :=
  fun x => bs.getD (x - a).toNat (m x)

/-- The `n` bytes from `a` on. -/
def read (m : Mem) (a : BitVec 32) (n : ℕ) : List (BitVec 8) :=
  (List.range n).map fun i => m (a + BitVec.ofNat 32 i)

/-! ### Addresses and masks -/

/-- The mask of the lowest `k` bits. -/
theorem getLsbD_mask (hk : k ≤ 32) (i : ℕ) :
    (BitVec.ofNat 32 (2 ^ k - 1)).getLsbD i = decide (i < k) := by
  rw [BitVec.getLsbD_ofNat, Nat.testBit_two_pow_sub_one]
  simp
  omega

/-- An offset from `a` is its difference to `a`. -/
theorem add_ofNat_sub (a : BitVec 32) (h : n < 2 ^ 32) : (a + BitVec.ofNat 32 n - a).toNat = n := by
  rw [BitVec.add_comm, BitVec.add_sub_cancel, BitVec.toNat_ofNat, Nat.mod_eq_of_lt h]

theorem add_toNat_sub (a x : BitVec 32) : a + BitVec.ofNat 32 (x - a).toNat = x := by
  rw [BitVec.ofNat_toNat, BitVec.setWidth_eq, BitVec.add_comm, BitVec.sub_add_cancel]

theorem add_ofNat_add (a : BitVec 32) (n k : ℕ) :
    a + BitVec.ofNat 32 n + BitVec.ofNat 32 k = a + BitVec.ofNat 32 (n + k) := by
  rw [BitVec.add_assoc, BitVec.ofNat_add]

/-- The distance to an address `n` further on. -/
theorem toNat_sub_add (a x : BitVec 32) (h : n ≤ 2 ^ 32) :
    (x - (a + BitVec.ofNat 32 n)).toNat = ((x - a).toNat + (2 ^ 32 - n)) % 2 ^ 32 := by
  simp only [BitVec.toNat_sub, BitVec.toNat_add, BitVec.toNat_ofNat]
  omega

/-- The `n` bytes from `a` on and the `k` bytes from `b` on have none in common. -/
def Apart (a : BitVec 32) (n : ℕ) (b : BitVec 32) (k : ℕ) : Prop :=
  ∀ i < n, ∀ j < k, a + BitVec.ofNat 32 i ≠ b + BitVec.ofNat 32 j

theorem Apart.symm (h : Apart a n b k) : Apart b k a n :=
  fun i hi j hj => (h j hj i hi).symm

theorem Apart.mono {n' k' : ℕ} (h : Apart a n b k) (hn : n' ≤ n) (hk : k' ≤ k) :
    Apart a n' b k' :=
  fun i hi j hj => h i (by omega) j (by omega)

/-- Two stretches are apart when each begins behind the end of the other. -/
theorem apart_of_le (h : n ≤ (b - a).toNat) (h' : k ≤ (a - b).toNat) : Apart a n b k := by
  intro i hi j hj heq
  bv_omega

/-- What follows a stretch is apart from it. -/
theorem apart_behind (a : BitVec 32) (h : n + k ≤ 2 ^ 32) : Apart (a + BitVec.ofNat 32 n) k a n := by
  intro i hi j hj heq
  rw [add_ofNat_add] at heq
  have hij := congrArg (fun x => (x - a).toNat) heq
  simp only [add_ofNat_sub a (show n + i < 2 ^ 32 by omega),
    add_ofNat_sub a (show j < 2 ^ 32 by omega)] at hij
  omega

/-! ### Writes -/

@[simp] theorem write_nil : m.write a [] = m := rfl

/-- An address at distance `d` from `a` holds byte `d` of what was written at `a`. -/
theorem write_of_lt {x : BitVec 32} {d : ℕ} (hd : (x - a).toNat = d) (h : d < bs.length) :
    m.write a bs x = bs[d] := by
  rw [write, hd, List.getD_eq_getElem _ _ h]

/-- An address behind what was written holds what it held. -/
theorem write_of_le {x : BitVec 32} {d : ℕ} (hd : (x - a).toNat = d) (h : bs.length ≤ d) :
    m.write a bs x = m x := by
  rw [write, hd, List.getD_eq_default _ _ h]

/-- **A write behind a write** is one write. -/
theorem write_append (m : Mem) (a : BitVec 32) (bs cs : List (BitVec 8))
    (h : bs.length + cs.length ≤ 2 ^ 32) :
    (m.write a bs).write (a + BitVec.ofNat 32 bs.length) cs = m.write a (bs ++ cs) := by
  funext x
  have hsub := toNat_sub_add a x (show bs.length ≤ 2 ^ 32 by omega)
  have hlt := (x - a).isLt
  generalize hd : (x - a).toNat = d at hsub hlt
  rcases Nat.lt_or_ge d bs.length with hin | hout
  · rw [write_of_le hsub (by omega), write_of_lt hd hin, write_of_lt hd (by simp; omega),
      List.getElem_append_left hin]
  · replace hsub := hsub.trans (show _ = d - bs.length by omega)
    rcases Nat.lt_or_ge d (bs.length + cs.length) with hin' | hout'
    · rw [write_of_lt hsub (by omega), write_of_lt hd (by simp; omega),
        List.getElem_append_right hout]
    · rw [write_of_le hsub (by omega), write_of_le hd hout, write_of_le hd (by simp; omega)]

/-- **A write in front of a write** is one write. -/
theorem write_prepend (m : Mem) (a : BitVec 32) (bs cs : List (BitVec 8))
    (h : bs.length + cs.length ≤ 2 ^ 32) :
    (m.write (a + BitVec.ofNat 32 bs.length) cs).write a bs = m.write a (bs ++ cs) := by
  rw [← write_append m a bs cs h]
  funext x
  have hsub := toNat_sub_add a x (show bs.length ≤ 2 ^ 32 by omega)
  have hlt := (x - a).isLt
  generalize hd : (x - a).toNat = d at hsub hlt
  rcases Nat.lt_or_ge d bs.length with hin | hout
  · rw [write_of_lt hd hin, write_of_le hsub (by omega), write_of_lt hd hin]
  · rw [write_of_le hd hout]
    unfold write
    rw [hd, List.getD_eq_default _ _ hout]

/-! ### Reads -/

@[simp] theorem length_read (m : Mem) (a : BitVec 32) (n : ℕ) : (m.read a n).length = n := by
  simp [read]

@[simp] theorem getElem_read {i : ℕ} (h : i < (m.read a n).length) :
    (m.read a n)[i] = m (a + BitVec.ofNat 32 i) := by
  simp [read]

@[simp] theorem read_zero : m.read a 0 = [] := rfl

theorem read_one : m.read a 1 = [m a] := by simp [read]

theorem read_add (m : Mem) (a : BitVec 32) (n k : ℕ) :
    m.read a (n + k) = m.read a n ++ m.read (a + BitVec.ofNat 32 n) k := by
  simp [read, List.range_add, add_ofNat_add]

/-- A read sees the bytes it reads, and no others. -/
theorem read_congr (h : ∀ i < n, m (a + BitVec.ofNat 32 i) = m' (a + BitVec.ofNat 32 i)) :
    m.read a n = m'.read a n :=
  List.map_congr_left fun i hi => h i (List.mem_range.1 hi)

/-- **A read apart from a write** does not see it. -/
theorem read_write (h : Apart a n b bs.length) : (m.write b bs).read a n = m.read a n := by
  refine read_congr fun i hi => ?_
  rcases Nat.lt_or_ge (a + BitVec.ofNat 32 i - b).toNat bs.length with hlt | hge
  · exact absurd (add_toNat_sub b _).symm (h i hi _ hlt)
  · exact write_of_le rfl hge

/-- What was written is read. -/
theorem read_write_self (h : bs.length ≤ 2 ^ 32) : (m.write a bs).read a bs.length = bs := by
  refine List.ext_getElem (by simp) fun i hi hi' => ?_
  have hoff := add_ofNat_sub a (show i < 2 ^ 32 by omega)
  rw [getElem_read, write_of_lt hoff hi']

/-! ### Words -/

/-- The bytes of a word, the least significant one first. -/
def bytes (w : BitVec 32) : List (BitVec 8) :=
  [w.extractLsb' 0 8, w.extractLsb' 8 8, w.extractLsb' 16 8, w.extractLsb' 24 8]

/-- The word of four bytes. -/
def word (b₀ b₁ b₂ b₃ : BitVec 8) : BitVec 32 := b₃ ++ b₂ ++ b₁ ++ b₀

/-- The word at `a`. -/
def load (m : Mem) (a : BitVec 32) : BitVec 32 := word (m a) (m (a + 1)) (m (a + 2)) (m (a + 3))

/-- The memory with the word `w` at `a`. -/
def store (m : Mem) (a w : BitVec 32) : Mem := m.write a (bytes w)

@[simp] theorem length_bytes (w : BitVec 32) : (bytes w).length = 4 := rfl

theorem word_bytes (w : BitVec 32) :
    word (w.extractLsb' 0 8) (w.extractLsb' 8 8) (w.extractLsb' 16 8) (w.extractLsb' 24 8) = w := by
  ext i hi
  simp [word]
  grind

/-- The bytes of the word at `a` are the four bytes there. -/
theorem bytes_load (m : Mem) (a : BitVec 32) : bytes (m.load a) = m.read a 4 := by
  have hread : m.read a 4 = [m a, m (a + 1), m (a + 2), m (a + 3)] := by
    simp [read, List.range_succ]
  rw [hread, bytes, load]
  refine congrArg₂ _ ?_ (congrArg₂ _ ?_ (congrArg₂ _ ?_ (congrArg₂ _ ?_ rfl))) <;>
    · ext i hi
      simp [word]
      grind

/-- A word is its bytes. -/
theorem bytes_inj {w v : BitVec 32} (h : bytes w = bytes v) : w = v := by
  simp only [bytes, List.cons.injEq, and_true] at h
  obtain ⟨h₀, h₁, h₂, h₃⟩ := h
  rw [← word_bytes w, ← word_bytes v, h₀, h₁, h₂, h₃]

theorem load_congr (h : m.read a 4 = m'.read a 4) : m.load a = m'.load a :=
  bytes_inj (by rw [bytes_load, bytes_load, h])

@[simp] theorem load_store_self (w : BitVec 32) : (m.store a w).load a = w :=
  bytes_inj (by rw [bytes_load, store, ← length_bytes w, read_write_self (by simp)])

/-- The memories agree outside the `n` bytes from `a` on. -/
def Outside (a : BitVec 32) (n : ℕ) (m m' : Mem) : Prop := ∀ x, n ≤ (x - a).toNat → m' x = m x

/-- A longer stretch. -/
theorem Outside.mono {i l : ℕ} (h : Outside (a + BitVec.ofNat 32 i) l m m') (hl : i + l ≤ n) :
    Outside a n m m' := by
  intro x hx
  refine h x ?_
  have hlt := (x - a).isLt
  have hsub := toNat_sub_add a x (show i ≤ 2 ^ 32 by omega)
  generalize (x - a).toNat = d at hsub hlt hx
  omega

theorem Outside.trans {m'' : Mem} (h : Outside a n m m') (h' : Outside a n m' m'') :
    Outside a n m m'' := fun x hx => (h' x hx).trans (h x hx)

/-- A write from the start of the stretch. -/
theorem Outside.write (h : Outside a n m m') (hlen : bs.length ≤ n) :
    Outside a n m (m'.write a bs) := by
  intro x hx
  rw [write_of_le rfl (hlen.trans hx)]
  exact h x hx

/-- A word stored just below the stretch makes it longer. -/
theorem Outside.store_below (h : Outside a n m m') (hn : n + 4 ≤ 2 ^ 32) (w : BitVec 32) :
    Outside (a - 4) (n + 4) m (m'.store (a - 4) w) := by
  intro x hx
  have hsub := toNat_sub_add (a - 4) x (show 4 ≤ 2 ^ 32 by omega)
  have hlt := (x - (a - 4)).isLt
  rw [show a - 4 + BitVec.ofNat 32 4 = a from BitVec.sub_add_cancel ..] at hsub
  generalize hd : (x - (a - 4)).toNat = d at hsub hlt hx
  rw [store, write_of_le hd (by rw [length_bytes]; omega)]
  exact h x (by omega)

/-- A read apart from the stretch. -/
theorem Outside.read (h : Outside a n m m') (hb : Apart b k a n) : m'.read b k = m.read b k := by
  refine read_congr fun i hi => h _ ?_
  rcases Nat.lt_or_ge (b + BitVec.ofNat 32 i - a).toNat n with hlt | hge
  · exact absurd (add_toNat_sub a _).symm (hb i hi _ hlt)
  · exact hge

theorem Outside.load (h : Outside a n m m') (hb : Apart b 4 a n) : m'.load b = m.load b :=
  load_congr (h.read hb)

/-! ### Words on a stack -/

/-- The words `ws` stand from `a` up. -/
def Holds (m : Mem) : BitVec 32 → List (BitVec 32) → Prop
  | _, [] => True
  | a, w :: ws => m.load a = w ∧ Holds m (a + 4) ws

variable {w : BitVec 32} {ws vs : List (BitVec 32)}

@[simp] theorem holds_nil : m.Holds a [] := trivial

@[simp] theorem holds_cons : m.Holds a (w :: ws) ↔ m.load a = w ∧ m.Holds (a + 4) ws := Iff.rfl

/-- The words stay where the bytes under them stay. -/
theorem Holds.congr (h : m.Holds a ws) (hm : m'.read a (4 * ws.length) = m.read a (4 * ws.length)) :
    m'.Holds a ws := by
  induction ws generalizing a with
  | nil => trivial
  | cons w ws ih =>
    rw [List.length_cons, Nat.mul_succ, Nat.add_comm, read_add, read_add] at hm
    obtain ⟨hw, hws⟩ := List.append_inj hm (by simp)
    exact ⟨(load_congr hw).trans h.1, ih h.2 hws⟩

/-- Words on a stack survive a write elsewhere. -/
theorem Holds.write (h : m.Holds a ws) (hb : Apart a (4 * ws.length) b bs.length) :
    (m.write b bs).Holds a ws :=
  h.congr (read_write hb)

/-- **A push** puts its word on the others. -/
theorem Holds.push (h : m.Holds a ws) (w : BitVec 32) (hlen : 4 * (ws.length + 1) ≤ 2 ^ 32) :
    (m.store (a - 4) w).Holds (a - 4) (w :: ws) := by
  refine ⟨load_store_self w, ?_⟩
  rw [BitVec.sub_add_cancel]
  exact h.write (apart_of_le (by bv_omega) (by rw [length_bytes]; bv_omega))

/-- Words under words. -/
theorem Holds.append (h : m.Holds a ws) (h' : m.Holds (a + BitVec.ofNat 32 (4 * ws.length)) vs) :
    m.Holds a (ws ++ vs) := by
  induction ws generalizing a with
  | nil => simpa using h'
  | cons w ws ih =>
    refine ⟨h.1, ih h.2 ?_⟩
    rwa [show (4 : BitVec 32) = BitVec.ofNat 32 4 from rfl, add_ofNat_add,
      show 4 + 4 * ws.length = 4 * (w :: ws).length by simp; omega]

/-- Word `i` from the top. -/
theorem Holds.load (h : m.Holds a ws) {i : ℕ} (hi : i < ws.length) :
    m.load (a + BitVec.ofNat 32 (4 * i)) = ws[i] := by
  induction ws generalizing a i with
  | nil => exact absurd hi (Nat.not_lt_zero i)
  | cons w ws ih =>
    cases i with
    | zero => simpa using h.1
    | succ i =>
      have := ih h.2 (Nat.lt_of_succ_lt_succ hi)
      rwa [show (4 : BitVec 32) = BitVec.ofNat 32 4 from rfl, add_ofNat_add,
        show 4 + 4 * i = 4 * (i + 1) by omega] at this

/-- The words under the first ones. -/
theorem Holds.drop (h : m.Holds a (ws ++ vs)) : m.Holds (a + BitVec.ofNat 32 (4 * ws.length)) vs := by
  induction ws generalizing a with
  | nil => simpa using h
  | cons w ws ih =>
    have := ih h.2
    rwa [show (4 : BitVec 32) = BitVec.ofNat 32 4 from rfl, add_ofNat_add,
      show 4 + 4 * ws.length = 4 * (w :: ws).length by simp; omega] at this

/-! ### Bytes that stand in memory -/

/-- The bytes `bs` stand in `m` from `a` up. -/
def Stores (m : Mem) (a : BitVec 32) (bs : List (BitVec 8)) : Prop := m.read a bs.length = bs

theorem stores_write (h : bs.length ≤ 2 ^ 32) : (m.write a bs).Stores a bs := read_write_self h

theorem Stores.getElem (h : m.Stores a bs) {i : ℕ} (hi : i < bs.length) :
    m (a + BitVec.ofNat 32 i) = bs[i] := by
  have hi' : i < (m.read a bs.length).length := by rwa [length_read]
  exact (getElem_read hi').symm.trans (List.getElem_of_eq h hi')

theorem Stores.load {w : BitVec 32} (h : m.Stores a (bytes w)) : m.load a = w :=
  bytes_inj ((bytes_load m a).trans h)

/-- **Two parts**, one behind the other. -/
theorem stores_append :
    m.Stores a (bs ++ cs) ↔ m.Stores a bs ∧ m.Stores (a + BitVec.ofNat 32 bs.length) cs := by
  rw [Stores, List.length_append, read_add]
  constructor
  · intro h
    exact List.append_inj h (length_read _ _ _)
  · rintro ⟨hbs, hcs⟩
    exact congrArg₂ _ hbs hcs

/-- **Many parts:** each stands behind those before it. -/
theorem Stores.flatMap {f : ℕ → List (BitVec 8)} (h : m.Stores a ((List.range n).flatMap f))
    (hk : k < n) : m.Stores (a + BitVec.ofNat 32 ((List.range k).flatMap f).length) (f k) := by
  induction n with
  | zero => exact absurd hk (Nat.not_lt_zero k)
  | succ n ih =>
    rw [List.range_succ, List.flatMap_append, List.flatMap_singleton, stores_append] at h
    rcases Nat.lt_succ_iff_lt_or_eq.1 hk with hlt | rfl
    · exact ih h.1 hlt
    · exact h.2

end Mem

end Lib
end OS391
