import Gozlib.Stream.Runs

/-
  The laws of `compress_stream` and `uncompress_stream_any` over every behaviour of zlib and
  of the handlers, every pool state and every capacity.

  `FailStop`: after a successful init, the fail-stop discipline holds over every event of the
  run (`Phase.next`: no call after the first failure, whose code is what `*error_code` is
  set to, and no write without a failure), and a run that returns has called
  `deflateEnd`/`inflateEnd` once and `pool_free` once on each of the two work buffers, after
  all of its calls. `StreamDelivers`: `output_handler` is handed non-empty byte strings that
  are, in order, the bytes of every non-fatal zlib call; a run that returns without an error
  returns `total_out`, which counts those bytes modulo 2^64 (`uLong`).
-/

namespace Gozlib.Stream

open Gozlib.Pool

/-- The world after `deflateInit2`/`inflateInit2` answered `code`. -/
def World.afterInit (w : World) (windowBits code : Int) : World :=
  { w with zs := ⟨0, 0, 0, 0, 0⟩, log := w.log ++ [.init windowBits code] }

section Streams

variable (cfg : Config) (globalMultipool : Ptr) (env : Env)

theorem compressStream_eq_tail (windowBits : Int) (inCap outCap : UInt32) (fuel : Nat) (w : World)
    (hinit : env.initCode = zOk) :
    compressStream cfg globalMultipool env windowBits inCap outCap fuel w =
      streamTail cfg globalMultipool inCap.toNat outCap.toNat
        (fun p₁ p₂ => compressLoop env p₁ p₂ inCap.toNat outCap.toNat fuel fuel)
        (w.afterInit windowBits zOk) := by
  simp only [compressStream, zInit_bind, hinit, ne_eq, not_true_eq_false, if_false, pure_bind]
  rfl

/-- The first `input_handler` call of `uncompress_stream_any`, then its loop. -/
def uncompressBody (inCap outCap fuel : Nat) (p₁ p₂ : Ptr) : SM Unit := do
  let n ← inputHandler env p₁ inCap
  setIn p₁ n
  uncompressLoop env p₁ p₂ inCap outCap fuel fuel

theorem uncompressStreamAny_eq_tail (inCap outCap : UInt32) (fuel : Nat) (w : World)
    (hinit : env.initCode = zOk) :
    uncompressStreamAny cfg globalMultipool env inCap outCap fuel w =
      streamTail cfg globalMultipool inCap.toNat outCap.toNat
        (uncompressBody env inCap.toNat outCap.toNat fuel)
        (w.afterInit uncompressAnyWindowBits zOk) := by
  simp only [uncompressStreamAny, streamTail, uncompressBody, zInit_bind, hinit, ne_eq,
    not_true_eq_false, if_false, pure_bind, bind_assoc]
  rfl

theorem uncompressBody_run (inCap outCap fuel : Nat) (p₁ p₂ : Ptr) (w : World) :
    LoopRun inflating w (uncompressBody env inCap outCap fuel p₁ p₂ w) := by
  simp only [uncompressBody, inputHandler_bind, setIn, modifyW_bind]
  exact LoopRun.after_input (uncompressLoop_run env p₁ p₂ inCap outCap fuel fuel _)

end Streams

/-! ## Fail-stop -/

/-- Parts one to four of the error discipline, for a run from `w` of a stream function whose
    init returned `Z_OK`. -/
def FailStop (d : Direction) (w : World) (windowBits : Int) (inCap outCap : Nat)
    (o : Outcome UInt64) : Prop :=
  ∃ L ph, o.world.log = w.log ++ .init windowBits zOk :: L ∧ Phase.run d .running L = some ph ∧
    ph.Reports w.errorCode o.world.errorCode ∧
    ∀ n w', o = .ok n w' → ∃ p₁ p₂ body,
      L = .alloc inCap p₁ :: .alloc outCap p₂ :: (body ++ [.finish, .free p₁, .free p₂]) ∧
      ∀ e ∈ body, e.isCall ∨ e.isError

theorem failStop_of_tail {cfg : Config} {globalMultipool : Ptr} {d : Direction} {inCap outCap : Nat}
    {loop : Ptr → Ptr → SM Unit} (hloop : ∀ p₁ p₂ w, LoopRun d w (loop p₁ p₂ w)) {w : World}
    {windowBits : Int} :
    FailStop d w windowBits inCap outCap
      (streamTail cfg globalMultipool inCap outCap loop (w.afterInit windowBits zOk)) := by
  obtain ⟨L, hF⟩ := streamTail_facts cfg globalMultipool d inCap outCap loop hloop
    (w.afterInit windowBits zOk)
  obtain ⟨ph, hP, hR⟩ := hF.reports
  exact ⟨L, ph, by rw [hF.log]; simp [World.afterInit], hP, hR, fun n w' h =>
    (streamTail_shape cfg globalMultipool d inCap outCap loop hloop
      (by rwa [h, Outcome.world_ok] at hF) h).2⟩

theorem stream_fail_stop (cfg : Config) (globalMultipool : Ptr) (env : Env) (w : World)
    (windowBits : Int) (inCap outCap : UInt32) (fuel : Nat) (hinit : env.initCode = zOk) :
    FailStop deflating w windowBits inCap.toNat outCap.toNat
        (compressStream cfg globalMultipool env windowBits inCap outCap fuel w) ∧
      FailStop inflating w uncompressAnyWindowBits inCap.toNat outCap.toNat
        (uncompressStreamAny cfg globalMultipool env inCap outCap fuel w) := by
  constructor
  · rw [compressStream_eq_tail cfg globalMultipool env windowBits inCap outCap fuel w hinit]
    exact failStop_of_tail (fun p₁ p₂ w => compressLoop_run env p₁ p₂ _ _ fuel fuel w)
  · rw [uncompressStreamAny_eq_tail cfg globalMultipool env inCap outCap fuel w hinit]
    exact failStop_of_tail (uncompressBody_run env _ _ fuel)

theorem stream_fail_stop_empty : emptyEnv.initCode = zOk ∧
    FailStop deflating sampleWorld maxWbits (64 : UInt32).toNat (64 : UInt32).toNat
      (compressStream ⟨true, true⟩ 1 emptyEnv maxWbits 64 64 1 sampleWorld) ∧
    FailStop inflating sampleWorld uncompressAnyWindowBits (64 : UInt32).toNat (64 : UInt32).toNat
      (uncompressStreamAny ⟨true, true⟩ 1 emptyEnv 64 64 1 sampleWorld) :=
  ⟨rfl, stream_fail_stop ⟨true, true⟩ 1 emptyEnv sampleWorld maxWbits 64 64 1 rfl⟩

/-! ## Data flow -/

/-- The data flow of a run from `w` of a stream function. -/
def StreamDelivers (d : Direction) (w : World) (o : Outcome UInt64) : Prop :=
  ∃ L, o.world.log = w.log ++ L ∧ Delivers d L ∧
    ∀ n w', o = .ok n w' → (∀ c, Event.error c ∉ L) →
      n = w'.zs.totalOut ∧ w'.zs.totalOut = UInt64.ofNat (L.flatMap Event.handed).length

/-- The data flow of a run from `w` of `compress_to_outstream` or
    `uncompress_to_outstream_step`. -/
def CallDelivers (d : Direction) (w : World) (o : Outcome Int) : Prop :=
  ∃ R, o.world.log = w.log ++ R ∧ Delivers d R

theorem CallDelivers.of_inner {d : Direction} {w : World} {o : Outcome Int}
    (h : InnerRun d w o) : CallDelivers d w o :=
  let ⟨R, hA, _, _, hD, _⟩ := h
  ⟨R, hA.log, hD⟩

/-- An init that failed: `*error_code` is written and nothing else is called. -/
theorem streamDelivers_of_init {d : Direction} {w : World} {windowBits c : Int} :
    StreamDelivers d w (.ok 0
      { w.afterInit windowBits c with
        errorCode := some c, log := (w.afterInit windowBits c).log ++ [.error c] }) :=
  ⟨[.init windowBits c, .error c], by simp [World.afterInit],
    Delivers.of_not_call (by simp [Event.isCall]), fun _ _ _ h => absurd (by simp) (h c)⟩

/-- An init that returned `Z_OK`, then the tail. -/
theorem streamDelivers_of_tail {cfg : Config} {globalMultipool : Ptr} {d : Direction}
    {inCap outCap : Nat} {loop : Ptr → Ptr → SM Unit}
    (hloop : ∀ p₁ p₂ w, LoopRun d w (loop p₁ p₂ w)) {w : World} {windowBits : Int} :
    StreamDelivers d w
      (streamTail cfg globalMultipool inCap outCap loop (w.afterInit windowBits zOk)) := by
  obtain ⟨L, hF⟩ := streamTail_facts cfg globalMultipool d inCap outCap loop hloop
    (w.afterInit windowBits zOk)
  refine ⟨.init windowBits zOk :: L, by rw [hF.log]; simp [World.afterInit],
    (Delivers.of_not_call (L := [.init windowBits zOk]) (by simp [Event.isCall])).append hF.delivers,
    fun n w' ho herr => ⟨(streamTail_shape cfg globalMultipool d inCap outCap loop hloop
      (by rwa [ho, Outcome.world_ok] at hF) ho).1, ?_⟩⟩
  rw [ho, Outcome.world_ok] at hF
  obtain ⟨ph, hP, hR⟩ := hF.reports
  have hrun : ph = .running := by
    rcases hR with ⟨rfl, -⟩ | ⟨c, rfl, -⟩
    · rfl
    · rcases Phase.error_mem_of_run hP with h | h
      · cases h
      · exact absurd (List.mem_cons_of_mem _ h) (herr c)
  subst hrun
  rw [hF.totalOut, Phase.written_eq_produced hP, ← hF.delivers.flow]
  simp only [World.afterInit, List.flatMap_cons, Event.handed, List.nil_append]
  exact uint64_zero_add _

theorem stream_delivers (cfg : Config) (globalMultipool : Ptr) (env : Env) (w : World)
    (windowBits : Int) (inCap outCap : UInt32) (fuel : Nat) :
    StreamDelivers deflating w
        (compressStream cfg globalMultipool env windowBits inCap outCap fuel w) ∧
      StreamDelivers inflating w
        (uncompressStreamAny cfg globalMultipool env inCap outCap fuel w) ∧
      (∀ flush buf len, CallDelivers deflating w (compressToOutstream env flush buf len fuel w)) ∧
      ∀ buf len, CallDelivers inflating w (uncompressToOutstreamStep env buf len w) := by
  refine ⟨?_, ?_, fun flush buf len => .of_inner (compressToOutstream_inner env flush buf len fuel w),
    fun buf len => .of_inner (uncompressToOutstreamStep_inner env buf len w)⟩
  all_goals by_cases hinit : env.initCode = zOk
  · rw [compressStream_eq_tail cfg globalMultipool env windowBits inCap outCap fuel w hinit]
    exact streamDelivers_of_tail (fun p₁ p₂ w => compressLoop_run env p₁ p₂ _ _ fuel fuel w)
  · simp only [compressStream, zInit_bind, ne_eq, hinit, not_false_eq_true, if_true, setErrorCode,
      modifyW_bind, SM.pure_run]
    exact streamDelivers_of_init
  · rw [uncompressStreamAny_eq_tail cfg globalMultipool env inCap outCap fuel w hinit]
    exact streamDelivers_of_tail (uncompressBody_run env _ _ fuel)
  · simp only [uncompressStreamAny, zInit_bind, ne_eq, hinit, not_false_eq_true, if_true,
      setErrorCode, modifyW_bind, SM.pure_run]
    exact streamDelivers_of_init

end Gozlib.Stream
