import Gozlib.Pool.Teardown
import Gozlib.Stream.Env

/-
  The pools of `gozlib.c` and the calls of its API that use them.

  `create_mem_pools` and `free_mem_pools` are the library's constructor and destructor: the
  global multipool and one pool each for `ZStreamState`, `z_stream` and `GoZLibTransformer`
  (`Globals`). A transformer is a block of `_gozlib_transformer_pool` whose payload holds a
  `GoZLibTransformer`; `Mem` keeps those payloads beside the heap.

  The transformer calls also call zlib on `transformer->zs` (`deflateInit2`, `inflateInit2`,
  `deflateEnd`, `inflateEnd`, `deflateReset`, `inflateReset`). zlib is the environment: an
  acquire takes zlib's answer to its init as an argument, and zlib's own allocations, through
  `zlib_custom_alloc` and `zlib_custom_free`, are pool calls of their own
  (`Gozlib.Library.Machine`). What zlib keeps in the `z_stream` block is not modelled.

  Each call has one spec lemma; `Gozlib.Library.Machine` uses them and never unfolds the calls.
-/

namespace Gozlib.Library

open Gozlib.Pool

/-! ## The library's pools -/

/-- `sizeof (ZStreamState)` on an LP64 target. -/
def sizeofZStreamState : UInt32 := 8

/-- `sizeof (z_stream)` on an LP64 target. -/
def sizeofZStream : UInt32 := 112

/-- `sizeof (GoZLibTransformer)` on an LP64 target. -/
def sizeofGoZLibTransformer : UInt32 := 32

/-- `_global_multipool`, `_zstreamstate_pool`, `_z_stream_pool`, `_gozlib_transformer_pool`. -/
structure Globals where
  globalMultipool : Ptr
  zstreamstatePool : Ptr
  zStreamPool : Ptr
  gozlibTransformerPool : Ptr
  deriving DecidableEq, Repr

/-- `create_mem_pools`, the library constructor. -/
def createMemPools (h : Heap) : Globals × Heap :=
  let (globalMultipool, h) := multipoolCreate h
  let (zstreamstatePool, h) := allocMemPool sizeofZStreamState h
  let (zStreamPool, h) := allocMemPool sizeofZStream h
  let (gozlibTransformerPool, h) := allocMemPool sizeofGoZLibTransformer h
  (⟨globalMultipool, zstreamstatePool, zStreamPool, gozlibTransformerPool⟩, h)

/-- `GoZLibTransformer`. -/
structure GoZLibTransformer where
  zs : Ptr
  state : Ptr
  workBuffer : Ptr
  workBufferCap : UInt32
  deriving DecidableEq, Repr

/-- The heap, and the `GoZLibTransformer` in the payload of each transformer block. -/
structure Mem where
  heap : Heap
  transformers : Store GoZLibTransformer
  deriving DecidableEq, Repr

/-- A store through `p`: undefined behaviour when `p` is `NULL`. -/
def storeThrough (p : Ptr) : Except Fault Unit := if p = 0 then .error .undefined else .ok ()

@[simp] theorem storeThrough_eq_ok (p : Ptr) (u : Unit) : storeThrough p = .ok u ↔ p ≠ 0 := by
  unfold storeThrough; split <;> simp_all

section Code

variable (cfg : Config) (g : Globals)

/-- `free_mem_pools`, the library destructor. -/
def freeMemPools (fuel : Nat) (h : Heap) : Bounded Heap := do
  let (h, _) ← globalMultipoolFree cfg g.globalMultipool fuel h
  let (h, _) ← freeMemPool cfg g.zstreamstatePool fuel h
  let (h, _) ← freeMemPool cfg g.zStreamPool fuel h
  let (h, _) ← freeMemPool cfg g.gozlibTransformerPool fuel h
  return h

/-- `pool_acquire_zstream_state`. -/
def poolAcquireZstreamState (h : Heap) : Except Fault (Ptr × Heap) :=
  poolMemAcquire cfg g.zstreamstatePool h

/-- `pool_release_zstream_state`. -/
def poolReleaseZstreamState (state : Ptr) (h : Heap) : Except Fault Heap :=
  poolMemReturn cfg state h

/-- `zlib_custom_alloc`: `nmembers * msize` is an `unsigned int` product, so it wraps modulo
    `2^32` before `pool_alloc` sees it. -/
def zlibCustomAlloc (nmembers msize : UInt32) (h : Heap) : Except Fault (Ptr × Heap) :=
  poolAlloc cfg g.globalMultipool (nmembers * msize).toNat h

/-- `zlib_custom_free`. -/
def zlibCustomFree (p : Ptr) (h : Heap) : Except Fault Heap := poolFree cfg p h

/-- `pool_alloc_zstream`. -/
def poolAllocZstream (h : Heap) : Except Fault (Ptr × Heap) := poolMemAcquire cfg g.zStreamPool h

/-- `pool_release_zstream`. -/
def poolReleaseZstream (zs : Ptr) (h : Heap) : Except Fault Heap := poolMemReturn cfg zs h

/-- `pool_alloc_transformer`. None of its four allocations is checked: storing the fields
    through a `NULL` transformer, or `init_default_zstream` on a `NULL` stream, is undefined,
    and a `NULL` work buffer or state is stored as it is. The four field stores are one write
    here, after the check the first of them makes. -/
def poolAllocTransformer (workBufferCap : UInt32) (m : Mem) : Except Fault (Ptr × Mem) := do
  let (transformer, h) ← poolMemAcquire cfg g.gozlibTransformerPool m.heap
  let (workBuffer, h) ← poolAlloc cfg g.globalMultipool workBufferCap.toNat h
  -- `transformer->work_buffer = …`
  storeThrough transformer
  let (state, h) ← poolAcquireZstreamState cfg g h
  let (zs, h) ← poolAllocZstream cfg g h
  -- `init_default_zstream (transformer->zs)` sets `zalloc`, `zfree` and `opaque`
  storeThrough zs
  return (transformer, ⟨h, (transformer, ⟨zs, state, workBuffer, workBufferCap⟩) ::
    m.transformers.erase transformer⟩)

/-- `pool_release_transformer`: each field is read through `transformer` before its block goes
    back to its pool. -/
def poolReleaseTransformer (transformer : Ptr) (m : Mem) : Except Fault Mem := do
  let t ← deref (m.transformers.get transformer)
  let h ← poolReleaseZstream cfg t.zs m.heap
  let h ← poolReleaseZstreamState cfg t.state h
  let h ← poolFree cfg t.workBuffer h
  let h ← poolMemReturn cfg transformer h
  return { m with heap := h }

/-- The three `acquire_*_transformer` calls: `initCode` is zlib's answer to the
    `deflateInit2` or `inflateInit2` on `transformer->zs`. Unless it is `Z_OK` it is written to
    `*error_code` (the second result); the transformer is handed out either way. -/
def acquireTransformer (workBufferCap : UInt32) (initCode : Int) (m : Mem) :
    Except Fault (Ptr × Option Int × Mem) := do
  let (transformer, m) ← poolAllocTransformer cfg g workBufferCap m
  return (transformer, if initCode ≠ Stream.zOk then some initCode else none, m)

/-- `acquire_gzip_compression_transformer`: zlib is asked `deflateInit2` with
    `COMPRESS_GZIP_WINDOW_BITS`. -/
def acquireGzipCompressionTransformer := acquireTransformer cfg g

/-- `acquire_zlib_compression_transformer`: zlib is asked `deflateInit2` with `MAX_WBITS`. -/
def acquireZlibCompressionTransformer := acquireTransformer cfg g

/-- `acquire_uncompression_transformer`: zlib is asked `inflateInit2` with
    `UNCOMPRESS_ANY_WINDOW_BITS`. -/
def acquireUncompressionTransformer := acquireTransformer cfg g

/-- The two `release_*_transformer` calls: `deflateEnd` or `inflateEnd` on `transformer->zs`,
    then `pool_release_transformer`. -/
def releaseTransformer (transformer : Ptr) (m : Mem) : Except Fault Mem := do
  let _ ← deref (m.transformers.get transformer)
  poolReleaseTransformer cfg transformer m

/-- `release_compression_transformer`. -/
def releaseCompressionTransformer := releaseTransformer cfg

/-- `release_uncompression_transformer`. -/
def releaseUncompressionTransformer := releaseTransformer cfg

end Code

/-- The two `reset_*_transformer` calls: `deflateReset` or `inflateReset` on
    `transformer->zs`, which touches no pool. -/
def resetTransformer (transformer : Ptr) (m : Mem) : Except Fault Unit := do
  let _ ← deref (m.transformers.get transformer)
  pure ()

/-- `reset_compression_transformer`. -/
def resetCompressionTransformer := resetTransformer

/-- `reset_uncompression_transformer`. -/
def resetUncompressionTransformer := resetTransformer

/-! ## Spec lemmas -/

section Spec

variable {cfg : Config} {g : Globals}

/-- `pool_alloc` that returns is `multipool_mem_acquire` on the global multipool. -/
theorem poolAlloc_ok {gm : Ptr} {size : Nat} {h : Heap} {r : Ptr × Heap}
    (e : poolAlloc cfg gm size h = .ok r) :
    multipoolMemAcquire cfg gm (UInt32.ofNat size) h = .ok r := by
  simp only [poolAlloc, globalMultipoolMemAcquire, bind_eq_ok, cassert_eq_ok] at e
  obtain ⟨_, -, e⟩ := e
  exact e

/-- A transformer handed out: four acquires, in the order of the source, with a non-`NULL`
    transformer and stream, and the payload written at the transformer. -/
theorem poolAllocTransformer_ok {cap : UInt32} {m m' : Mem} {t : Ptr}
    (e : poolAllocTransformer cfg g cap m = .ok (t, m')) :
    ∃ wb st zs h₁ h₂ h₃, poolMemAcquire cfg g.gozlibTransformerPool m.heap = .ok (t, h₁) ∧
      multipoolMemAcquire cfg g.globalMultipool cap h₁ = .ok (wb, h₂) ∧ t ≠ 0 ∧
      poolMemAcquire cfg g.zstreamstatePool h₂ = .ok (st, h₃) ∧
      poolMemAcquire cfg g.zStreamPool h₃ = .ok (zs, m'.heap) ∧ zs ≠ 0 ∧
      m'.transformers = (t, ⟨zs, st, wb, cap⟩) :: m.transformers.erase t := by
  simp only [poolAllocTransformer, poolAcquireZstreamState, poolAllocZstream, bind_eq_ok,
    storeThrough_eq_ok, pure_eq_ok, Prod.mk.injEq] at e
  obtain ⟨⟨t, h₁⟩, e₁, ⟨wb, h₂⟩, e₂, -, ht, ⟨st, h₃⟩, e₃, ⟨zs, h₄⟩, e₄, -, hz, rfl, rfl⟩ := e
  rw [← uint32_ofNat_toNat cap]
  exact ⟨wb, st, zs, h₁, h₂, h₃, e₁, poolAlloc_ok e₂, ht, e₃, e₄, hz,
    by simp only [uint32_ofNat_toNat]⟩

theorem acquireTransformer_eq_ok {cap : UInt32} {code : Int} {m m' : Mem} {t : Ptr}
    {err : Option Int} :
    acquireTransformer cfg g cap code m = .ok (t, err, m') ↔
      poolAllocTransformer cfg g cap m = .ok (t, m') ∧
        err = if code ≠ Stream.zOk then some code else none := by
  simp only [acquireTransformer, bind_eq_ok, pure_eq_ok, Prod.mk.injEq]
  constructor
  · rintro ⟨⟨t', m''⟩, e, rfl, rfl, rfl⟩
    exact ⟨e, rfl⟩
  · rintro ⟨e, rfl⟩
    exact ⟨_, e, rfl, rfl, rfl⟩

/-- `pool_release_transformer` returns when the payload is there and the four
    `pool_mem_return`s, on the stream, the state, the work buffer and the transformer, return
    in turn. -/
theorem poolReleaseTransformer_eq_ok {t : Ptr} {m m' : Mem} :
    poolReleaseTransformer cfg t m = .ok m' ↔ ∃ r, m.transformers.get t = some r ∧
      ∃ h, [r.zs, r.state, r.workBuffer, t].foldlM (fun h d => poolMemReturn cfg d h) m.heap =
        .ok h ∧ m' = { m with heap := h } := by
  simp only [poolReleaseTransformer, poolReleaseZstream, poolReleaseZstreamState, poolFree,
    List.foldlM, bind_eq_ok, deref_eq_ok, pure_eq_ok]
  constructor
  · rintro ⟨r, hr, h₁, e₁, h₂, e₂, h₃, e₃, h₄, e₄, rfl⟩
    exact ⟨r, hr, h₄, ⟨h₁, e₁, h₂, e₂, h₃, e₃, h₄, e₄, rfl⟩, rfl⟩
  · rintro ⟨r, hr, h, ⟨h₁, e₁, h₂, e₂, h₃, e₃, h₄, e₄, rfl⟩, rfl⟩
    exact ⟨r, hr, h₁, e₁, h₂, e₂, h₃, e₃, h₄, e₄, rfl⟩

/-- `deflateEnd` and `inflateEnd` read `transformer->zs` as `pool_release_transformer` does
    first. -/
theorem releaseTransformer_eq (t : Ptr) (m : Mem) :
    releaseTransformer cfg t m = poolReleaseTransformer cfg t m := by
  unfold releaseTransformer poolReleaseTransformer
  cases m.transformers.get t <;> rfl

end Spec

end Gozlib.Library
