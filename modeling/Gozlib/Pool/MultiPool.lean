import Gozlib.Pool.MemPool
import Mathlib.Data.Nat.Size

/-
  The size-class layer of `dyn_mem_pool.h` and the allocator hooks of `gozlib.c`:
  `find_multipool_index_for_size`, `multipool_create`, `multipool_mem_acquire`,
  `global_multipool_mem_acquire`, `pool_alloc` and `pool_free`.

  `find_multipool_index_for_size` computes `(size - 1) >> 9` in `uint32_t` (so `0` wraps
  to `2^23 - 1`) and then the bit length `32 - __builtin_clz`. `clz` below counts leading
  zero bits of a 32-bit word from the top, and `findMultipoolIndexForSize_eq` shows the
  index is `Nat.size` of the shifted value. From that:
  * `findMultipoolIndexForSize_lt_iff`: the index is below `MULTIPOOL_ENTRY_COUNT` exactly
    for `1 ≤ size ≤ 2^22`;
  * `findMultipoolIndexForSize_fits`, `findMultipoolIndexForSize_least`: class `i` holds
    `512 << i ≥ size` bytes, and class `i - 1` does not.
  `multipool_create` puts at `pools[i]` either `NULL` or a fresh pool of block size
  `1 << (9 + i)` (`multipoolCreate_cases`).
-/

namespace Gozlib.Pool

/-- `DynPoolMinMultiPoolMemNodeSizeBits`. -/
def dynPoolMinMultiPoolMemNodeSizeBits : Nat := 9

/-- `MULTIPOOL_ENTRY_COUNT`. -/
def multipoolEntryCount : Nat := 14

/-- `int32bitcount`: `sizeof (uint32_t) * CHAR_BIT`. -/
def int32bitcount : Nat := 32

/-- Leading zero bits of `x` in a window of the low `k` bits, counted from bit `k - 1`
    down. -/
def leadingZeros : Nat → Nat → Nat
  | 0, _ => 0
  | k + 1, x => if x.testBit k then 0 else leadingZeros k x + 1

/-- `__builtin_clz` on a 32-bit word (undefined at `0`, where this gives `32`). -/
def clz (x : Nat) : Nat := leadingZeros int32bitcount x

/-- `find_multipool_index_for_size`. -/
def findMultipoolIndexForSize (size : UInt32) : Nat :=
  let sizeValue := (size - 1).toNat >>> dynPoolMinMultiPoolMemNodeSizeBits
  if sizeValue = 0 then 0 else int32bitcount - clz sizeValue

/-- The block size `multipool_create` gives class `i`: `1 << (9 + i)`. -/
def multipoolClassSize (i : Nat) : UInt32 :=
  UInt32.ofNat (1 <<< (dynPoolMinMultiPoolMemNodeSizeBits + i))

example : findMultipoolIndexForSize 4096 = 3 := by decide

section Code

variable (cfg : Config)

/-- The loop of `multipool_create` over the entries `i, i + 1, …`, `k` of them. -/
def multipoolCreateLoop (multipool : Ptr) : Nat → Nat → Heap → Heap
  | 0, _, h => h
  | k + 1, i, h =>
    let (pool, h) := allocMemPool (multipoolClassSize i) h
    multipoolCreateLoop multipool k (i + 1)
      { h with multipools := h.multipools.modify multipool fun ps => ps.set i pool }

/-- `multipool_create`: the `pools` array starts out uninitialised (`0` here) and the loop
    fills every entry. -/
def multipoolCreate (h : Heap) : Ptr × Heap :=
  let (multipool, h) := h.malloc
  if multipool = 0 then (0, h)
  else
    let h := { h with
      multipools := (multipool, List.replicate multipoolEntryCount 0) :: h.multipools }
    (multipool, multipoolCreateLoop multipool multipoolEntryCount 0 h)

/-- `multipool_mem_acquire`. -/
def multipoolMemAcquire (multipool : Ptr) (size : UInt32) (h : Heap) :
    Except Fault (Ptr × Heap) := do
  cassert cfg (multipool != 0) "multipool != NULL"
  let index := findMultipoolIndexForSize size
  cassert cfg (index < multipoolEntryCount) "index < MULTIPOOL_ENTRY_COUNT"
  if index ≥ multipoolEntryCount then return (0, h)
  let pools ← deref (h.multipools.get multipool)
  poolMemAcquire cfg (pools.getD index 0) h

/-- `global_multipool_mem_acquire`; `globalMultipool` is the value of `_global_multipool`. -/
def globalMultipoolMemAcquire (globalMultipool : Ptr) (size : UInt32) (h : Heap) :
    Except Fault (Ptr × Heap) := do
  cassert cfg (globalMultipool != 0) "_global_multipool != NULL"
  multipoolMemAcquire cfg globalMultipool size h

/-- `pool_alloc` of `gozlib.c`: the `size_t` argument is cast to `uint32_t`. -/
def poolAlloc (globalMultipool : Ptr) (size : Nat) (h : Heap) : Except Fault (Ptr × Heap) :=
  globalMultipoolMemAcquire cfg globalMultipool (UInt32.ofNat size) h

/-- `pool_free` of `gozlib.c`. -/
def poolFree (data : Ptr) (h : Heap) : Except Fault Heap := poolMemReturn cfg data h

end Code

/-! ## Size classes -/

/-- `(uint32_t) x` of a value that already fits. -/
theorem uint32_ofNat_toNat (x : UInt32) : UInt32.ofNat x.toNat = x :=
  UInt32.eq_of_val_eq (Fin.ext (Nat.mod_eq_of_lt x.val.isLt))

theorem leadingZeros_eq {k x : Nat} (hx : x < 2 ^ k) : leadingZeros k x = k - x.size := by
  induction k with
  | zero => simp [leadingZeros, show x = 0 by omega]
  | succ k ih =>
    have hsz : x.size ≤ k + 1 := Nat.size_le.mpr hx
    by_cases hb : x.testBit k
    · have : k < x.size := Nat.lt_size.mpr (Nat.testBit_implies_ge hb)
      simp [leadingZeros, hb]; omega
    · have hlt : x < 2 ^ k := by
        by_contra hge
        have e : x = 2 ^ k + (x - 2 ^ k) := by omega
        have hr : x - 2 ^ k < 2 ^ k := by rw [Nat.pow_succ] at hx; omega
        rw [e, Nat.testBit_two_pow_add_eq, Nat.testBit_lt_two_pow hr] at hb
        simp at hb
      have := Nat.size_le.mpr hlt
      rw [leadingZeros, if_neg hb, ih hlt]; omega

theorem sub_one_toNat (size : UInt32) :
    (size - 1).toNat = (size.toNat + 4294967295) % 4294967296 := by
  show (size.toBitVec - (1 : UInt32).toBitVec).toNat = _
  rw [BitVec.toNat_sub]
  show (2 ^ 32 - 1 + size.toNat) % 2 ^ 32 = _
  omega

/-- The index is the bit length of `(size - 1) >> 9`, computed in `uint32_t`. -/
theorem findMultipoolIndexForSize_eq (size : UInt32) :
    findMultipoolIndexForSize size = ((size.toNat + 4294967295) % 4294967296 / 512).size := by
  have hsv : (size - 1).toNat >>> dynPoolMinMultiPoolMemNodeSizeBits =
      (size.toNat + 4294967295) % 4294967296 / 512 := by
    rw [Nat.shiftRight_eq_div_pow, sub_one_toNat]; rfl
  unfold findMultipoolIndexForSize
  simp only [hsv]
  split
  · next h => simp [h]
  · have hlt : (size.toNat + 4294967295) % 4294967296 / 512 < 2 ^ 32 := by omega
    have := Nat.size_le.mpr hlt
    rw [clz, int32bitcount, leadingZeros_eq hlt]; omega

/-- The index is a valid class exactly for `1 ≤ size ≤ 2^22`. -/
theorem findMultipoolIndexForSize_lt_iff (size : UInt32) :
    findMultipoolIndexForSize size < multipoolEntryCount ↔
      1 ≤ size.toNat ∧ size.toNat ≤ 2 ^ 22 := by
  have := size.toNat_lt_size
  rw [findMultipoolIndexForSize_eq, multipoolEntryCount, Nat.lt_succ_iff, Nat.size_le]
  simp only [UInt32.size] at this
  omega

/-- Class `i` holds the request: `size ≤ 512 << i`. -/
theorem findMultipoolIndexForSize_fits {size : UInt32} (h1 : 1 ≤ size.toNat) :
    size.toNat ≤ 2 ^ (dynPoolMinMultiPoolMemNodeSizeBits + findMultipoolIndexForSize size) := by
  have := size.toNat_lt_size
  have hs := Nat.lt_size_self ((size.toNat + 4294967295) % 4294967296 / 512)
  rw [findMultipoolIndexForSize_eq, dynPoolMinMultiPoolMemNodeSizeBits, Nat.pow_add]
  simp only [UInt32.size] at this
  omega

/-- No smaller class holds the request: `512 << (i - 1) < size` unless `i = 0`. -/
theorem findMultipoolIndexForSize_least {size : UInt32} (h1 : 1 ≤ size.toNat) :
    findMultipoolIndexForSize size = 0 ∨
      2 ^ (dynPoolMinMultiPoolMemNodeSizeBits + findMultipoolIndexForSize size - 1) <
        size.toNat := by
  rcases Nat.eq_zero_or_pos (findMultipoolIndexForSize size) with h | h
  · exact .inl h
  · refine .inr ?_
    have := size.toNat_lt_size
    simp only [UInt32.size] at this
    rw [findMultipoolIndexForSize_eq] at h ⊢
    set v := (size.toNat + 4294967295) % 4294967296 / 512 with hv
    have hge : 2 ^ (v.size - 1) ≤ v := Nat.lt_size.mp (Nat.sub_one_lt_of_lt h)
    have e : dynPoolMinMultiPoolMemNodeSizeBits + v.size - 1 = 9 + (v.size - 1) := by
      simp only [dynPoolMinMultiPoolMemNodeSizeBits]; omega
    rw [e, Nat.pow_add, show (2 : Nat) ^ 9 = 512 from rfl]
    omega

/-- The class grows with the size from `1` up. A size of `0`, whose `size - 1` wraps to
    `2^32 - 1`, gets the largest index of all: above the class of every size the classes
    serve, so the order breaks between `0` and every other size. -/
theorem size_class_monotone :
    (∀ s₁ s₂ : UInt32, 1 ≤ s₁.toNat → s₁.toNat ≤ s₂.toNat →
      findMultipoolIndexForSize s₁ ≤ findMultipoolIndexForSize s₂) ∧
    (∀ s : UInt32, findMultipoolIndexForSize s ≤ findMultipoolIndexForSize 0) ∧
    ∀ s : UInt32, 1 ≤ s.toNat → s.toNat ≤ 2 ^ 22 →
      findMultipoolIndexForSize s < findMultipoolIndexForSize 0 := by
  have hlt (s : UInt32) : s.toNat < 4294967296 := s.toNat_lt_size
  refine ⟨fun s₁ s₂ h1 h12 => ?_, fun s => ?_, fun s h1 h2 => ?_⟩
  · rw [findMultipoolIndexForSize_eq, findMultipoolIndexForSize_eq]
    have := hlt s₂
    exact Nat.size_le_size (Nat.div_le_div_right (by omega))
  · rw [findMultipoolIndexForSize_eq, findMultipoolIndexForSize_eq, UInt32.toNat_zero]
    have := hlt s
    exact Nat.size_le_size (Nat.div_le_div_right (by omega))
  · calc findMultipoolIndexForSize s < multipoolEntryCount :=
          (findMultipoolIndexForSize_lt_iff s).mpr ⟨h1, h2⟩
      _ ≤ findMultipoolIndexForSize 0 := by decide

theorem multipoolClassSize_toNat {i : Nat} (hi : i < multipoolEntryCount) :
    (multipoolClassSize i).toNat = 2 ^ (dynPoolMinMultiPoolMemNodeSizeBits + i) := by
  rw [multipoolClassSize, Nat.one_shiftLeft, UInt32.toNat_ofNat_of_lt]
  calc 2 ^ (dynPoolMinMultiPoolMemNodeSizeBits + i)
      < 2 ^ 32 := Nat.pow_lt_pow_right (by decide)
        (by simp only [dynPoolMinMultiPoolMemNodeSizeBits, multipoolEntryCount] at *; omega)
    _ = UInt32.size := rfl

/-! ## `multipool_mem_acquire` -/

section Spec

variable {cfg : Config}

/-- A size outside the classes consults no pool: an `assert` fires, or, without assertions,
    `NULL` comes back and the heap is unchanged. -/
theorem multipoolMemAcquire_out_of_range {multipool : Ptr} {size : UInt32} (h : Heap)
    (hi : multipoolEntryCount ≤ findMultipoolIndexForSize size) :
    multipoolMemAcquire cfg multipool size h =
      if cfg.assertions then .error (.assertFailed
        (if multipool = 0 then "multipool != NULL" else "index < MULTIPOOL_ENTRY_COUNT"))
      else .ok (0, h) := by
  obtain ⟨a, t⟩ := cfg
  have : ¬ findMultipoolIndexForSize size < multipoolEntryCount := by omega
  by_cases hm : multipool = 0 <;> cases a <;>
    simp [multipoolMemAcquire, cassert, hm, this, hi, bind, Except.bind, pure, Except.pure]

/-- A size inside the classes goes to `pool_mem_acquire` on `pools[index]`. -/
theorem multipoolMemAcquire_eq {multipool : Ptr} {size : UInt32} {h : Heap} {ps : List Ptr}
    (hm : multipool ≠ 0) (hi : findMultipoolIndexForSize size < multipoolEntryCount)
    (hps : h.multipools.get multipool = some ps) :
    multipoolMemAcquire cfg multipool size h =
      poolMemAcquire cfg (ps.getD (findMultipoolIndexForSize size) 0) h := by
  have : ¬ multipoolEntryCount ≤ findMultipoolIndexForSize size := by omega
  simp [multipoolMemAcquire, cassert, hm, hi, this, hps, deref, bind, Except.bind, pure,
    Except.pure]

/-- A successful `multipool_mem_acquire` either found the size out of range (only without
    assertions) and returned `NULL`, or it ran `pool_mem_acquire` on `pools[index]`. -/
theorem multipoolMemAcquire_ok {multipool d : Ptr} {size : UInt32} {h h' : Heap}
    (e : multipoolMemAcquire cfg multipool size h = .ok (d, h')) :
    (multipoolEntryCount ≤ findMultipoolIndexForSize size ∧ d = 0 ∧ h' = h) ∨
      (findMultipoolIndexForSize size < multipoolEntryCount ∧ ∃ ps,
        h.multipools.get multipool = some ps ∧
        poolMemAcquire cfg (ps.getD (findMultipoolIndexForSize size) 0) h = .ok (d, h')) := by
  simp only [multipoolMemAcquire, bind_eq_ok, cassert_eq_ok] at e
  obtain ⟨_, -, _, -, e⟩ := e
  split at e
  · simp only [pure_eq_ok, Prod.mk.injEq] at e
    exact .inl ⟨‹_›, e.1.symm, e.2.symm⟩
  · simp only [bind_eq_ok, deref_eq_ok] at e
    obtain ⟨_, -, ps, hps, e⟩ := e
    exact .inr ⟨by omega, ps, hps, e⟩

end Spec

end Gozlib.Pool
