import Gozlib.Stream.Laws

/-
  Runs of `uncompress_stream_any`, `uncompress_buffer_any` and `compress_stream` that do not
  do what their callers are told, each over every behaviour of zlib and of the handlers
  that the hypotheses allow.

  * `uncompress_empty_input`: when `input_handler` returns 0 at once, `inflate` is never
    called, `*error_code` is left alone, and the run faults in a pool call or returns 0; when
    the pool calls return, it returns 0: an empty input is reported as a successful, empty
    decompression.
  * `stream_end_reads_on`: `uncompress_to_outstream_step` turns `Z_STREAM_END` into `Z_OK`,
    so neither it nor `uncompress_to_outstream` ever returns `Z_STREAM_END`; the loop of
    `uncompress_stream_any` calls `input_handler` again after the end of the stream and
    points `next_in` at the new chunk, dropping the bytes left after the end.
  * `work_buffer_null`: a work buffer capacity outside `1 ≤ cap ≤ 2^22` fails the assertion
    `index < MULTIPOOL_ENTRY_COUNT` of `multipool_mem_acquire`, or, without assertions, gets
    a NULL work buffer that is handed to `input_handler`.
  * `data_error_returns_written`: `uncompress_buffer_any` returns `total_out`, not 0, when
    `inflate` wrote bytes before it returned `Z_DATA_ERROR`, and `uncompress_stream_any`
    returns `total_out` whatever it wrote to `*error_code`.
  * `total_out_wraps`: `total_out` is a `uLong`; a run of `compress_stream` that hands
    `2^64` bytes to `output_handler` and reports no error returns 0.

  `Grows` (every exit of a computation only appends to the log) is what lets a statement
  about the first events of a run speak about the run's whole log.
-/

namespace Gozlib.Stream

open Gozlib.Pool

/-! ## Logs only grow -/

/-- Every exit of `x` extends the log it started from. -/
def Grows {α : Type} (x : SM α) : Prop := ∀ w, w.log <+: (x w).world.log

namespace Grows

variable {α β : Type}

theorem of_append {x : SM α} (h : ∀ w, ∃ L, (x w).world.log = w.log ++ L) : Grows x :=
  fun w => let ⟨_, hL⟩ := h w; hL ▸ List.prefix_append _ _

theorem of_pure (a : α) : Grows (pure a : SM α) := fun _ => List.prefix_refl _

theorem bind {x : SM α} {f : α → SM β} (hx : Grows x) (hf : ∀ a, Grows (f a)) :
    Grows (x >>= f) := by
  intro w
  rw [SM.bind_run]
  cases h : x w with
  | ok a w' => exact (h ▸ hx w).trans (hf a w')
  | stop s w' => simpa [h] using hx w

theorem of_ite {c : Prop} [Decidable c] {x y : SM α} (hx : Grows x) (hy : Grows y) :
    Grows (if c then x else y) := by
  split
  exacts [hx, hy]

/-- A run from `w` extends any log that `w`'s is. -/
theorem prefix_of_log {x : SM α} (hx : Grows x) {w : World} {L : List Event} (h : w.log = L) :
    L <+: (x w).world.log :=
  h ▸ hx w

theorem of_inner {d : Direction} {x : SM Int} (h : ∀ w, InnerRun d w (x w)) : Grows x :=
  of_append fun w => let ⟨R, hA, _⟩ := h w; ⟨R, hA.log⟩

theorem of_loop {d : Direction} {x : SM Unit} (h : ∀ w, LoopRun d w (x w)) : Grows x :=
  of_append fun w => let ⟨R, _, hA, _⟩ := h w; ⟨R, hA.log⟩

end Grows

section Primitives

variable (cfg : Config) (globalMultipool : Ptr) (env : Env)

theorem readW_grows {α : Type} (g : World → α) : Grows (readW g) :=
  fun _ => List.prefix_refl _

theorem zEnd_grows : Grows zEnd := Grows.of_append fun _ => ⟨[_], rfl⟩

theorem setErrorCode_grows (c : Int) : Grows (setErrorCode c) :=
  Grows.of_append fun _ => ⟨[_], rfl⟩

theorem setIn_grows (buf : Ptr) (n : Nat) : Grows (setIn buf n) :=
  fun _ => List.prefix_refl _

theorem poolFreeW_grows (p : Ptr) : Grows (poolFreeW cfg p) := by
  refine Grows.of_append fun w => ?_
  rcases poolFreeW_cases cfg p w with ⟨h, e⟩ | ⟨f, e⟩ <;> exact ⟨[_], by rw [e]; rfl⟩

/-- The steps of `compress_stream` and `uncompress_stream_any` after their loop. -/
theorem streamEnd_grows (p₁ p₂ : Ptr) :
    Grows (readW (·.zs.totalOut) >>= fun len =>
      zEnd >>= fun _ => poolFreeW cfg p₁ >>= fun _ => poolFreeW cfg p₂ >>= fun _ => pure len) :=
  (readW_grows _).bind fun len => zEnd_grows.bind fun _ => (poolFreeW_grows cfg p₁).bind fun _ =>
    (poolFreeW_grows cfg p₂).bind fun _ => Grows.of_pure len

end Primitives

/-- What `pool_alloc` does with a capacity outside the size classes: the assertion
    `index < MULTIPOOL_ENTRY_COUNT` fails, or, without assertions, it returns NULL. -/
theorem poolAllocW_out_of_range (cfg : Config) {globalMultipool : Ptr} (hgm : globalMultipool ≠ 0)
    {cap : UInt32} (hcap : ¬(1 ≤ cap.toNat ∧ cap.toNat ≤ 2 ^ 22)) (w : World) :
    poolAllocW cfg globalMultipool cap.toNat w =
      if cfg.assertions then .stop (.fault (.assertFailed "index < MULTIPOOL_ENTRY_COUNT")) w
      else .ok 0 { w with log := w.log ++ [.alloc cap.toNat 0] } := by
  have hi : multipoolEntryCount ≤ findMultipoolIndexForSize cap :=
    not_lt.mp fun h => hcap ((findMultipoolIndexForSize_lt_iff cap).mp h)
  have hc : cassert cfg (globalMultipool != 0) "_global_multipool != NULL" = .ok () := by
    simp [cassert, hgm]
  simp only [poolAllocW, poolAlloc, globalMultipoolMemAcquire, uint32_ofNat_toNat, hc,
    multipoolMemAcquire_out_of_range _ hi, if_neg hgm]
  cases cfg.assertions <;> rfl

/-! ## Empty input -/

/-- The first `input_handler` call returned 0: the loop of `uncompress_stream_any` ends at
    once, before any `inflate`. -/
theorem uncompressBody_empty (env : Env) (inCap outCap fuel : Nat) (p₁ p₂ : Ptr) (w : World)
    (hin : ∀ log cap, env.input log cap = 0) :
    uncompressBody env inCap outCap (fuel + 1) p₁ p₂ w =
      .ok () { w with
        zs := { w.zs with nextIn := p₁, availIn := 0 }
        log := w.log ++ [.input p₁ inCap 0] } := by
  simp [uncompressBody, hin, setIn, uncompressLoop]

/-- An empty input is reported as a successful, empty decompression: `inflate` is never
    called and `*error_code` is left alone. Whatever the pools do the run returns 0 or faults
    in a pool call; when the pool calls return, it returns 0. -/
theorem uncompress_empty_input (cfg : Config) (globalMultipool : Ptr) (env : Env) (w : World)
    (inCap outCap : UInt32) (fuel : Nat) (hinit : env.initCode = zOk)
    (hin : ∀ log cap, env.input log cap = 0) :
    (∃ p₁ p₂ L, (uncompressStreamAny cfg globalMultipool env inCap outCap (fuel + 1) w).world.log =
        w.log ++ .init uncompressAnyWindowBits zOk :: L ∧
      L <+: [.alloc inCap.toNat p₁, .alloc outCap.toNat p₂, .input p₁ inCap.toNat 0, .finish,
        .free p₁, .free p₂] ∧
      (uncompressStreamAny cfg globalMultipool env inCap outCap (fuel + 1) w).world.errorCode =
        w.errorCode ∧
      ((∃ w', uncompressStreamAny cfg globalMultipool env inCap outCap (fuel + 1) w = .ok 0 w') ∨
        ∃ f w', uncompressStreamAny cfg globalMultipool env inCap outCap (fuel + 1) w =
          .stop (.fault f) w')) ∧
    ∀ p₁ p₂ h₁ h₂ h₃ h₄,
      poolAlloc cfg globalMultipool inCap.toNat w.heap = .ok (p₁, h₁) →
      poolAlloc cfg globalMultipool outCap.toNat h₁ = .ok (p₂, h₂) →
      poolFree cfg p₁ h₂ = .ok h₃ → poolFree cfg p₂ h₃ = .ok h₄ →
      ∃ w', uncompressStreamAny cfg globalMultipool env inCap outCap (fuel + 1) w = .ok 0 w' ∧
        w'.errorCode = w.errorCode ∧ w'.heap = h₄ ∧
        w'.log = w.log ++ [.init uncompressAnyWindowBits zOk, .alloc inCap.toNat p₁,
          .alloc outCap.toNat p₂, .input p₁ inCap.toNat 0, .finish, .free p₁, .free p₂] := by
  rw [uncompressStreamAny_eq_tail cfg globalMultipool env inCap outCap (fuel + 1) w hinit]
  refine ⟨?_, fun p₁ p₂ h₁ h₂ h₃ h₄ e₁ e₂ e₃ e₄ =>
    ⟨_, streamTail_of_ok (poolAllocW_of (w := w.afterInit _ _) e₁ rfl) (poolAllocW_of e₂ rfl)
      (uncompressBody_empty env _ _ fuel p₁ p₂ _ hin) (poolFreeW_of e₃ rfl) (poolFreeW_of e₄ rfl),
      rfl, rfl, by simp [World.afterInit]⟩⟩
  simp only [streamTail]
  rcases poolAllocW_cases cfg globalMultipool inCap.toNat (w.afterInit uncompressAnyWindowBits zOk)
    with ⟨p₁, h₁, e₁⟩ | ⟨f, e₁⟩
  swap
  · rw [SM.bind_stop e₁]
    exact ⟨0, 0, [], by simp [World.afterInit], List.nil_prefix, rfl, .inr ⟨f, _, rfl⟩⟩
  rw [SM.bind_ok e₁]
  rcases poolAllocW_cases cfg globalMultipool outCap.toNat _ with ⟨p₂, h₂, e₂⟩ | ⟨f, e₂⟩
  swap
  · rw [SM.bind_stop e₂]
    exact ⟨p₁, 0, [.alloc inCap.toNat p₁], by simp [World.afterInit], by simp, rfl,
      .inr ⟨f, _, rfl⟩⟩
  rw [SM.bind_ok e₂, SM.bind_ok (uncompressBody_empty env _ _ fuel p₁ p₂ _ hin)]
  simp only [readW_bind, zEnd, modifyW_bind]
  clear e₁ e₂
  rcases poolFreeW_cases cfg p₁ _ with ⟨h₃, e₃⟩ | ⟨f, e₃⟩
  swap
  · rw [SM.bind_stop e₃]
    exact ⟨p₁, p₂, [.alloc inCap.toNat p₁, .alloc outCap.toNat p₂, .input p₁ inCap.toNat 0,
      .finish, .free p₁], by simp [World.afterInit], by simp, rfl, .inr ⟨f, _, rfl⟩⟩
  rw [SM.bind_ok e₃]
  rcases poolFreeW_cases cfg p₂ _ with ⟨h₄, e₄⟩ | ⟨f, e₄⟩
  · rw [SM.bind_ok e₄]
    exact ⟨p₁, p₂, _, by simp [World.afterInit], List.prefix_refl _, rfl, .inl ⟨_, rfl⟩⟩
  · rw [SM.bind_stop e₄]
    exact ⟨p₁, p₂, _, by simp [World.afterInit], List.prefix_refl _, rfl, .inr ⟨f, _, rfl⟩⟩

/-- At the sample heap the pool calls return: the empty input comes back as 0 bytes with no
    `inflate` call and no error. -/
theorem uncompress_empty_input_sample :
    ∃ w', uncompressStreamAny ⟨true, true⟩ 1 emptyEnv 64 64 (0 + 1) sampleWorld = .ok 0 w' ∧
      w'.errorCode = sampleWorld.errorCode ∧
      w'.log = [.init uncompressAnyWindowBits zOk, .alloc 64 109, .alloc 64 111,
        .input 109 64 0, .finish, .free 109, .free 111] := by
  obtain ⟨h₁, h₂, h₃, h₄, e₁, e₂, e₃, e₄⟩ : ∃ h₁ h₂ h₃ h₄,
      poolAlloc ⟨true, true⟩ 1 (64 : UInt32).toNat sampleHeap = .ok (109, h₁) ∧
      poolAlloc ⟨true, true⟩ 1 (64 : UInt32).toNat h₁ = .ok (111, h₂) ∧
      poolFree ⟨true, true⟩ 109 h₂ = .ok h₃ ∧ poolFree ⟨true, true⟩ 111 h₃ = .ok h₄ :=
    ⟨_, _, _, _, rfl, rfl, rfl, rfl⟩
  obtain ⟨w', e, hE, -, hL⟩ := (uncompress_empty_input ⟨true, true⟩ 1 emptyEnv sampleWorld 64 64 0
    rfl fun _ cap => Nat.zero_min cap).2 _ _ _ _ _ _ e₁ e₂ e₃ e₄
  exact ⟨w', e, hE, hL⟩

/-! ## The end of the stream -/

/-- `uncompress_to_outstream_step` never returns `Z_STREAM_END`: a fatal code is returned as
    a negative code, and every other code as `Z_OK` or `GOZLIB_STREAM_OUTPUT_HAS_MORE_DATA`. -/
theorem step_never_stream_end (env : Env) (buf : Ptr) (len : Nat) (w w' : World) :
    uncompressToOutstreamStep env buf len w ≠ .ok zStreamEnd w' := by
  rw [uncompressToOutstreamStep_eq]
  have hfatal := (round_spec inflating env buf len zNoFlush w).1
  generalize round inflating.fatal env buf len zNoFlush w = r at hfatal ⊢
  rcases r with ⟨_ | _ | _ | _, w₁⟩
  · have := inflating_report_neg (hfatal _ rfl)
    simp only [ne_eq, Outcome.ok.injEq, not_and]
    intro h
    simp only [zStreamEnd, zOk] at h this
    omega
  all_goals simp [zStreamEnd, zOk, gozlibStreamOutputWriteError, gozlibStreamOutputHasMoreData,
    gozlibCustomCodeBase]

theorem outstream_never_stream_end (env : Env) (buf : Ptr) (len fuel : Nat) (w w' : World) :
    uncompressToOutstream env buf len fuel w ≠ .ok zStreamEnd w' := by
  induction fuel generalizing w with
  | zero => simp [uncompressToOutstream, stopWith]
  | succ fuel ih =>
    simp only [uncompressToOutstream, SM.bind_run]
    cases h : uncompressToOutstreamStep env buf len w with
    | ok c w₁ =>
      simp only [SM.ite_run]
      split_ifs
      · exact ih w₁
      · rintro ⟨⟩
        exact step_never_stream_end env buf len w _ h
    | stop s w₁ => simp

/-- A step in which `inflate` reached the end of the stream with room left in the buffer,
    and `output_handler` took its bytes: `Z_OK`. -/
theorem step_at_stream_end (env : Env) (buf : Ptr) (len : Nat) (w : World) (a : ZAnswer)
    (ha : env.zlib w.log ⟨w.zs.availIn, len, zNoFlush⟩ = a) (hend : a.code = zStreamEnd)
    (hroom : a.out.length < len) (hacc : ∀ log bytes, env.output log bytes ≠ 0) :
    ∃ L w₁, uncompressToOutstreamStep env buf len w = .ok zOk w₁ ∧
      w₁.log = w.log ++ .zlib w.zs.nextIn buf ⟨w.zs.availIn, len, zNoFlush⟩ zStreamEnd a.out :: L ∧
      ∀ e ∈ L, ∃ r, e = .output buf a.out r := by
  have hfat : isInflateResultFatal zStreamEnd = false := rfl
  rw [uncompressToOutstreamStep_eq]
  simp only [round, zRequest, ha, inflating, hfat, hroom, Bool.false_eq_true, if_false, if_true,
    zCall, Outcome.world, hacc, hend]
  split_ifs
  · exact ⟨[], _, rfl, by simp, by simp⟩
  · exact ⟨[_], _, rfl, List.append_assoc _ _ _, by simp⟩

theorem stream_end_reads_on (env : Env) (p₁ p₂ : Ptr) (inCap outCap fuel k : Nat) (w : World)
    (a : ZAnswer) (hin : w.zs.availIn ≠ 0)
    (ha : env.zlib w.log ⟨w.zs.availIn, outCap, zNoFlush⟩ = a) (hend : a.code = zStreamEnd)
    (hroom : a.out.length < outCap) (hacc : ∀ log bytes, env.output log bytes ≠ 0) :
    (∀ buf len w w', uncompressToOutstreamStep env buf len w ≠ .ok zStreamEnd w') ∧
    (∀ buf len fuel w w', uncompressToOutstream env buf len fuel w ≠ .ok zStreamEnd w') ∧
    ∃ L n w₁, uncompressLoop env p₁ p₂ inCap outCap (fuel + 1) (k + 1) w =
        uncompressLoop env p₁ p₂ inCap outCap (fuel + 1) k w₁ ∧
      w₁.log = w.log ++ .zlib w.zs.nextIn p₂ ⟨w.zs.availIn, outCap, zNoFlush⟩ zStreamEnd a.out ::
        (L ++ [.input p₁ inCap n]) ∧ (∀ e ∈ L, ∃ r, e = .output p₂ a.out r) ∧
      w₁.zs.nextIn = p₁ ∧ w₁.zs.availIn = n := by
  refine ⟨step_never_stream_end env, outstream_never_stream_end env, ?_⟩
  obtain ⟨L, w₂, hstep, hlog, hL⟩ := step_at_stream_end env p₂ outCap w a ha hend hroom hacc
  refine ⟨L, env.input w₂.log inCap,
    { w₂ with
      zs := { w₂.zs with nextIn := p₁, availIn := env.input w₂.log inCap }
      log := w₂.log ++ [.input p₁ inCap (env.input w₂.log inCap)] }, ?_, by simp [hlog], hL,
    rfl, rfl⟩
  simp only [uncompressLoop, readW_bind]
  rw [if_neg hin]
  simp only [pure_bind, uncompressToOutstream, bind_assoc, SM.bind_ok hstep]
  rw [if_neg (by decide), pure_bind, if_neg (by decide), if_neg (by decide)]
  rfl

/-- Chunks of three bytes; `inflate` reads two bytes to the end of the stream and writes one. -/
def trailingEnv : Env :=
  Env.clamp zOk (fun _ => 3) (fun _ _ => 1) fun _ _ => ⟨zStreamEnd, 2, [7]⟩

/-- Five bytes of input at address 0, the stream's end after two of them. -/
def trailingWorld : World := { sampleWorld with zs := ⟨0, 5, 0, 0, 0⟩ }

theorem stream_end_reads_on_trailing :
    ∃ L n w₁, uncompressLoop trailingEnv 1 2 8 4 (0 + 1) (0 + 1) trailingWorld =
        uncompressLoop trailingEnv 1 2 8 4 (0 + 1) 0 w₁ ∧
      w₁.log = trailingWorld.log ++ .zlib 0 2 ⟨5, 4, zNoFlush⟩ zStreamEnd [7] ::
        (L ++ [.input 1 8 n]) ∧ (∀ e ∈ L, ∃ r, e = .output 2 [7] r) ∧
      w₁.zs.nextIn = 1 ∧ w₁.zs.availIn = n :=
  (stream_end_reads_on trailingEnv 1 2 8 4 0 0 trailingWorld ⟨zStreamEnd, 2, [7]⟩
    (by decide) rfl rfl (by decide) fun _ _ => Nat.one_ne_zero).2.2

/-! ## Work buffers out of range -/

theorem work_buffer_null (cfg : Config) (globalMultipool : Ptr) (env : Env) (w : World)
    (windowBits : Int) (inCap outCap : UInt32) (fuel : Nat) (hgm : globalMultipool ≠ 0)
    (hinit : env.initCode = zOk) (hin : ¬(1 ≤ inCap.toNat ∧ inCap.toNat ≤ 2 ^ 22))
    (hout : ¬(1 ≤ outCap.toNat ∧ outCap.toNat ≤ 2 ^ 22)) :
    (cfg.assertions = true →
      compressStream cfg globalMultipool env windowBits inCap outCap fuel w =
          .stop (.fault (.assertFailed "index < MULTIPOOL_ENTRY_COUNT")) (w.afterInit windowBits zOk) ∧
        uncompressStreamAny cfg globalMultipool env inCap outCap fuel w =
          .stop (.fault (.assertFailed "index < MULTIPOOL_ENTRY_COUNT"))
            (w.afterInit uncompressAnyWindowBits zOk)) ∧
    (cfg.assertions = false →
      (∃ n, w.log ++ [.init windowBits zOk, .alloc inCap.toNat 0, .alloc outCap.toNat 0,
          .input 0 inCap.toNat n] <+:
        (compressStream cfg globalMultipool env windowBits inCap outCap (fuel + 1) w).world.log) ∧
      ∃ n, w.log ++ [.init uncompressAnyWindowBits zOk, .alloc inCap.toNat 0, .alloc outCap.toNat 0,
          .input 0 inCap.toNat n] <+:
        (uncompressStreamAny cfg globalMultipool env inCap outCap fuel w).world.log) := by
  rw [compressStream_eq_tail cfg globalMultipool env windowBits inCap outCap _ w hinit,
    compressStream_eq_tail cfg globalMultipool env windowBits inCap outCap _ w hinit,
    uncompressStreamAny_eq_tail cfg globalMultipool env inCap outCap fuel w hinit]
  refine ⟨fun ha => ?_, fun ha => ?_⟩
  · have e : ∀ w, poolAllocW cfg globalMultipool inCap.toNat w = .stop _ w := fun w =>
      (poolAllocW_out_of_range cfg hgm hin w).trans (if_pos ha)
    exact ⟨SM.bind_stop (e _) _, SM.bind_stop (e _) _⟩
  have e : ∀ {cap : UInt32} (w : World), ¬(1 ≤ cap.toNat ∧ cap.toNat ≤ 2 ^ 22) →
      poolAllocW cfg globalMultipool cap.toNat w =
        .ok 0 { w with log := w.log ++ [.alloc cap.toNat 0] } := fun w hc => by
    rw [poolAllocW_out_of_range cfg hgm hc, ha, if_neg Bool.false_ne_true]
  simp only [streamTail, SM.bind_ok (e _ hin), SM.bind_ok (e _ hout), bind_assoc]
  constructor
  · simp only [compressLoop, bind_assoc, inputHandler_bind]
    refine ⟨_, Grows.prefix_of_log ((setIn_grows _ _).bind fun _ => ?_) (by simp [World.afterInit]; rfl)⟩
    refine (Grows.of_inner (compressToOutstream_inner env _ _ _ _)).bind fun c =>
      (Grows.of_ite (setErrorCode_grows c) (Grows.of_ite (Grows.of_loop (compressLoop_run env _ _ _ _ _ _))
        (Grows.of_pure ()))).bind fun _ => streamEnd_grows cfg 0 0
  · simp only [uncompressBody, bind_assoc, inputHandler_bind]
    refine ⟨_, Grows.prefix_of_log ((setIn_grows _ _).bind fun _ => ?_) (by simp [World.afterInit]; rfl)⟩
    exact (Grows.of_loop (uncompressLoop_run env _ _ _ _ _ _)).bind fun _ => streamEnd_grows cfg 0 0

theorem work_buffer_null_zero :
    ((⟨false, true⟩ : Config).assertions = true →
      compressStream ⟨false, true⟩ 1 emptyEnv maxWbits 0 0 1 sampleWorld =
          .stop (.fault (.assertFailed "index < MULTIPOOL_ENTRY_COUNT"))
            (sampleWorld.afterInit maxWbits zOk) ∧
        uncompressStreamAny ⟨false, true⟩ 1 emptyEnv 0 0 1 sampleWorld =
          .stop (.fault (.assertFailed "index < MULTIPOOL_ENTRY_COUNT"))
            (sampleWorld.afterInit uncompressAnyWindowBits zOk)) ∧
    ((⟨false, true⟩ : Config).assertions = false →
      (∃ n, sampleWorld.log ++ [.init maxWbits zOk, .alloc (0 : UInt32).toNat 0,
          .alloc (0 : UInt32).toNat 0, .input 0 (0 : UInt32).toNat n] <+:
        (compressStream ⟨false, true⟩ 1 emptyEnv maxWbits 0 0 (1 + 1) sampleWorld).world.log) ∧
      ∃ n, sampleWorld.log ++ [.init uncompressAnyWindowBits zOk, .alloc (0 : UInt32).toNat 0,
          .alloc (0 : UInt32).toNat 0, .input 0 (0 : UInt32).toNat n] <+:
        (uncompressStreamAny ⟨false, true⟩ 1 emptyEnv 0 0 1 sampleWorld).world.log) :=
  work_buffer_null ⟨false, true⟩ 1 emptyEnv sampleWorld maxWbits 0 0 1 (by decide) rfl (by decide)
    (by decide)

/-! ## Data errors -/

theorem data_error_returns_written (env : Env) (w : World) (input : Ptr) (inputLen : UInt32)
    (output : Ptr) (outputLen : UInt32) (a : ZAnswer) (hinit : env.initCode = zOk)
    (ha : env.zlib (w.log ++ [.init uncompressAnyWindowBits zOk])
      ⟨inputLen.toNat, outputLen.toNat, zFinish⟩ = a) (hcode : a.code = zDataError) :
    (∃ w', uncompressBufferAny env input inputLen output outputLen w =
      .ok (UInt64.ofNat a.out.length) w' ∧ w'.errorCode = some zDataError) ∧
    ∀ cfg globalMultipool inCap outCap fuel n w',
      uncompressStreamAny cfg globalMultipool env inCap outCap fuel w = .ok n w' →
        n = w'.zs.totalOut := by
  refine ⟨?_, fun cfg globalMultipool inCap outCap fuel n w' h => ?_⟩
  · simp only [uncompressBufferAny, zInit_bind, hinit, ne_eq, not_true_eq_false, if_false,
      pure_bind, setIn, setOut, modifyW_bind]
    simp only [SM.bind_run, zCall, ha]
    simp only [hcode, zDataError, zStreamEnd, zOk, zEnd, setErrorCode, modifyW, uint64_zero_add]
    simp
    exact ⟨_, rfl, rfl⟩
  · rw [uncompressStreamAny_eq_tail cfg globalMultipool env inCap outCap fuel w hinit] at h
    obtain ⟨_, _, _, w₃, _, _, hq, rfl⟩ := streamTail_ok cfg globalMultipool _ _ _ h
    exact congrArg ZStream.totalOut hq.zs.symm

/-- `inflate` writes two bytes and then finds the data corrupt. -/
def corruptEnv : Env :=
  Env.clamp zOk (fun _ => 0) (fun _ _ => 1) fun _ _ => ⟨zDataError, 10, [1, 2]⟩

theorem data_error_returns_written_two :
    (∃ w', uncompressBufferAny corruptEnv 0 10 100 64 sampleWorld =
      .ok (UInt64.ofNat ([1, 2] : List UInt8).length) w' ∧ w'.errorCode = some zDataError) ∧
    ∀ cfg globalMultipool inCap outCap fuel n w',
      uncompressStreamAny cfg globalMultipool corruptEnv inCap outCap fuel sampleWorld = .ok n w' →
        n = w'.zs.totalOut :=
  data_error_returns_written corruptEnv sampleWorld 0 10 100 64 ⟨zDataError, 10, [1, 2]⟩ rfl rfl rfl

/-! ## `total_out` counts modulo 2^64 -/

/-- A call to `deflate` or `inflate`. -/
def Event.isZlib : Event → Bool
  | .zlib .. => true
  | _ => false

/-- The number of zlib calls in a log. -/
def zlibCalls (log : List Event) : Nat := log.countP Event.isZlib

/-- `deflate` fills the work buffer with zeros on each of its first `2^42` calls and then
    ends the stream; the input is empty and `output_handler` takes every byte. -/
def floodEnv : Env :=
  Env.clamp zOk (fun _ => 0) (fun _ _ => 1) fun log r =>
    if zlibCalls log < 2 ^ 58 then ⟨zOk, 0, List.replicate r.availOut 0⟩ else ⟨zStreamEnd, 0, []⟩

theorem floodEnv_full (buf : Ptr) (len : Nat) (hlen : 0 < len) (w : World)
    (hw : zlibCalls w.log < 2 ^ 58) :
    ∃ w₁, round deflating.fatal floodEnv buf len zFinish w = (.full, w₁) ∧
      Appended w w₁ [.zlib w.zs.nextIn buf (zRequest w len zFinish) zOk (List.replicate len 0),
        .output buf (List.replicate len 0) 1] ∧ w₁.errorCode = w.errorCode := by
  simp only [round, floodEnv, Env.clamp, zRequest, hw, if_true, zCall, Outcome.world, List.take_replicate, min_self]
  simp [deflating, zOk, zStreamError, List.replicate_eq_nil_iff, hlen.ne']
  exact ⟨by simp, rfl, by simp [Event.written]⟩

theorem floodEnv_end (buf : Ptr) (len : Nat) (hlen : 0 < len) (w : World)
    (hw : 2 ^ 58 ≤ zlibCalls w.log) (fuel : Nat) :
    ∃ w₁, compressToOutstream floodEnv zFinish buf len (fuel + 1) w = .ok zStreamEnd w₁ ∧
      Appended w w₁ [.zlib w.zs.nextIn buf (zRequest w len zFinish) zStreamEnd []] ∧
      w₁.errorCode = w.errorCode := by
  rw [compressToOutstream_succ]
  simp only [round, floodEnv, Env.clamp, zRequest, not_lt.mpr hw, if_false, zCall, Outcome.world]
  simp [deflating, zStreamEnd, zStreamError, hlen]
  exact ⟨rfl, rfl, by simp [Event.written]⟩

/-- The first rounds of the flood: each fills the buffer and hands it over. -/
theorem floodEnv_rounds (buf : Ptr) (len : Nat) (hlen : 0 < len) (fuel : Nat) :
    ∀ m w, zlibCalls w.log + m ≤ 2 ^ 58 →
      ∃ w' R, compressToOutstream floodEnv zFinish buf len (fuel + m) w =
          compressToOutstream floodEnv zFinish buf len fuel w' ∧
        Appended w w' R ∧ w'.errorCode = w.errorCode ∧ zlibCalls R = m ∧
        R.flatMap Event.handed = List.replicate (m * len) 0 ∧
        R.flatMap Event.written = List.replicate (m * len) 0 ∧ (∀ e ∈ R, e.isCall)
  | 0, w, _ => ⟨w, [], rfl, Appended.refl w, rfl, rfl, by simp, by simp, by simp⟩
  | m + 1, w, hm => by
    obtain ⟨w₁, hr, hA, hE⟩ := floodEnv_full buf len hlen w (by omega)
    obtain ⟨w', R, he, hA', hE', hc, hh, hwr, hC⟩ := floodEnv_rounds buf len hlen fuel m w₁ (by
      rw [hA.log]; simp [zlibCalls, Event.isZlib] at hm ⊢; omega)
    refine ⟨w', _ ++ R, ?_, hA.trans hA', hE'.trans hE, ?_, ?_, ?_, ?_⟩
    · rw [← Nat.add_assoc, compressToOutstream_succ, hr]
      exact he
    · rw [zlibCalls, List.countP_append, show List.countP Event.isZlib R = m from hc, Nat.add_comm]
      rfl
    · rw [List.flatMap_append, hh, Nat.succ_mul, Nat.add_comm, List.replicate_add]
      simp [Event.handed]
    · rw [List.flatMap_append, hwr, Nat.succ_mul, Nat.add_comm, List.replicate_add]
      simp [Event.written]
    · simp [Event.isCall]; exact hC

/-- The flood to its end: `2^58` full buffers, then `Z_STREAM_END`. -/
theorem floodEnv_drain (buf : Ptr) (len : Nat) (hlen : 0 < len) (w : World)
    (hw : zlibCalls w.log = 0) :
    ∃ w' R, compressToOutstream floodEnv zFinish buf len (2 ^ 58 + 1) w = .ok zStreamEnd w' ∧
      Appended w w' R ∧ w'.errorCode = w.errorCode ∧
      R.flatMap Event.handed = List.replicate (2 ^ 58 * len) 0 ∧
      R.flatMap Event.written = List.replicate (2 ^ 58 * len) 0 ∧ (∀ e ∈ R, e.isCall) := by
  obtain ⟨w₁, R, he, hA, hE, hc, hh, hwr, hC⟩ :=
    floodEnv_rounds buf len hlen (0 + 1) (2 ^ 58) w (by rw [hw, Nat.zero_add])
  obtain ⟨w₂, hend, hA₂, hE₂⟩ := floodEnv_end buf len hlen w₁ (by
    rw [hA.log, zlibCalls, List.countP_append, ← zlibCalls, ← zlibCalls, hw, hc, Nat.zero_add]) 0
  refine ⟨w₂, R ++ _, ?_, hA.trans hA₂, hE₂.trans hE, by simp [hh, Event.handed],
    by simp [hwr, Event.written], ?_⟩
  · rw [show 2 ^ 58 + 1 = 0 + 1 + 2 ^ 58 by rw [Nat.zero_add, Nat.add_comm], he, hend]
  · intro e he
    rcases List.mem_append.mp he with he | he
    · exact hC e he
    · rw [List.mem_singleton.mp he]
      rfl

/-- The last iteration of `compress_stream`'s loop: `input_handler` returns 0 and
    `compress_to_outstream` with `Z_FINISH` returns a code that is no error. -/
theorem compressLoop_last (env : Env) (p₁ p₂ : Ptr) (inCap outCap fuel k : Nat) (w : World)
    (hin : env.input w.log inCap = 0) {c : Int} {w' : World}
    (h : compressToOutstream env zFinish p₂ outCap fuel
      { w with
        zs := { w.zs with nextIn := p₁, availIn := 0 }
        log := w.log ++ [.input p₁ inCap 0] } = .ok c w')
    (hc : zOk ≤ c) : compressLoop env p₁ p₂ inCap outCap fuel (k + 1) w = .ok () w' := by
  simp only [compressLoop, inputHandler_bind, hin, setIn, modifyW_bind, lt_self_iff_false,
    decide_False, Bool.false_eq_true, if_false, SM.bind_ok h, not_lt.mpr hc, SM.pure_run]

theorem total_out_wraps :
    ∃ w', compressStream ⟨true, true⟩ 1 floodEnv maxWbits 1 64 (2 ^ 58 + 1) sampleWorld =
        .ok 0 w' ∧ (∀ c, Event.error c ∉ w'.log) ∧ (w'.log.flatMap Event.handed).length = 2 ^ 64 := by
  obtain ⟨h₁, h₂, h₃, h₄, e₁, e₂, e₃, e₄⟩ : ∃ h₁ h₂ h₃ h₄,
      poolAlloc ⟨true, true⟩ 1 (1 : UInt32).toNat sampleHeap = .ok (109, h₁) ∧
      poolAlloc ⟨true, true⟩ 1 (64 : UInt32).toNat h₁ = .ok (111, h₂) ∧
      poolFree ⟨true, true⟩ 109 h₂ = .ok h₃ ∧ poolFree ⟨true, true⟩ 111 h₃ = .ok h₄ :=
    ⟨_, _, _, _, rfl, rfl, rfl, rfl⟩
  let W₀ := sampleWorld.afterInit maxWbits zOk
  let W₁ : World := { W₀ with heap := h₁, log := W₀.log ++ [.alloc (1 : UInt32).toNat 109] }
  let W₂ : World := { W₁ with heap := h₂, log := W₁.log ++ [.alloc (64 : UInt32).toNat 111] }
  obtain ⟨w₄, R, hd, hA, -, hh, hwr, hC⟩ := floodEnv_drain 111 64 (by decide)
    { W₂ with
      zs := { W₂.zs with nextIn := 109, availIn := 0 }
      log := W₂.log ++ [.input 109 (1 : UInt32).toNat 0] } rfl
  have hl := compressLoop_last floodEnv 109 111 (1 : UInt32).toNat (64 : UInt32).toNat
    (2 ^ 58 + 1) (2 ^ 58) W₂ (Nat.zero_min _) hd (by decide)
  have hst := @streamTail_of_ok _ _ _ _
    (fun p₁ p₂ => compressLoop floodEnv p₁ p₂ (1 : UInt32).toNat (64 : UInt32).toNat
      (2 ^ 58 + 1) (2 ^ 58 + 1)) W₀ W₁ W₂ _ _ _ _ _
    (poolAllocW_of e₁ rfl) (poolAllocW_of e₂ rfl) hl (poolFreeW_of e₃ hA.heap) (poolFreeW_of e₄ rfl)
  have hw : (R.flatMap Event.written).length = 2 ^ 64 := by
    rw [hwr, List.length_replicate]
    rfl
  refine ⟨_, (compressStream_eq_tail _ _ _ _ _ _ _ _ rfl).trans
    (hst.trans (congrArg (Outcome.ok · _) ?_)), ?_, ?_⟩
  · rw [hA.totalOut, hw]
    rfl
  all_goals simp only [hA.log]
  · intro c hc
    have hR : Event.error c ∉ R := fun h => by simpa [Event.isCall] using hC _ h
    simp [W₀, World.afterInit, sampleWorld, hR] at hc
  · simp only [List.flatMap_append, hh, W₀, World.afterInit, sampleWorld, List.flatMap_cons,
      List.flatMap_nil, Event.handed, List.append_nil, List.nil_append, List.length_replicate]
    rfl

end Gozlib.Stream
