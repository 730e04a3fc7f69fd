import Gozlib.Stream.Round

/-
  The loops of `compress_stream` and `uncompress_stream_any`, and the two functions whole.

  `LoopRun`: a loop makes calls and writes `*error_code`, nothing else; it delivers what
  zlib wrote; the fail-stop discipline holds over its events, and `*error_code` reports the
  phase it ends in. Each loop is proved one iteration at a time from the runs of
  `compress_to_outstream` and `uncompress_to_outstream` (`compressLoop_run`,
  `uncompressLoop_run`). `StreamRun` adds the calls around the loop: the init, the two
  `pool_alloc`s before it and the end and the two `pool_free`s after it.
-/

namespace Gozlib.Stream

open Gozlib.Pool

/-! ## The loops -/

/-- A run of a stream loop from `w`. -/
def LoopRun (d : Direction) (w : World) (o : Outcome Unit) : Prop :=
  ∃ R ph, Appended w o.world R ∧ (∀ e ∈ R, e.isCall ∨ e.isError) ∧ Delivers d R ∧
    Phase.run d .running R = some ph ∧ ph.Reports w.errorCode o.world.errorCode

theorem LoopRun.of_stop (d : Direction) (s : Stop) (w : World) : LoopRun d w (.stop s w) :=
  ⟨[], .running, Appended.refl w, by simp, Delivers.nil, rfl, .inl ⟨rfl, rfl⟩⟩

/-- Calls that leave the stream running and `*error_code` as it was, then a loop run. -/
theorem LoopRun.after {d : Direction} {w w' : World} {R₁ : List Event} {o : Outcome Unit}
    (hA : Appended w w' R₁) (hE : w'.errorCode = w.errorCode) (hC : ∀ e ∈ R₁, e.isCall)
    (hD : Delivers d R₁) (hP : Phase.run d .running R₁ = some .running) (h : LoopRun d w' o) :
    LoopRun d w o := by
  obtain ⟨R₂, ph, hA₂, hC₂, hD₂, hP₂, hR₂⟩ := h
  refine ⟨R₁ ++ R₂, ph, hA.trans hA₂, ?_, hD.append hD₂, Phase.run_append_of hP hP₂, hE ▸ hR₂⟩
  simpa using fun e he => Or.elim he (fun he => .inl (hC e he)) (hC₂ e)

/-- A loop iteration from the call of `compress_to_outstream` or `uncompress_to_outstream` on:
    a code below `Z_OK` is written to `*error_code` and ends the loop, any other code goes
    on with a loop run. -/
theorem LoopRun.bind_inner {d : Direction} {x : SM Int} {f : Int → SM Unit} {w : World}
    (h : InnerRun d w (x w))
    (hk : ∀ c w', c < zOk →
      f c w' = .ok () { w' with errorCode := some c, log := w'.log ++ [.error c] })
    (hn : ∀ c w', zOk ≤ c → LoopRun d w' (f c w')) : LoopRun d w ((x >>= f) w) := by
  rw [SM.bind_run]
  rcases hx : x w with ⟨c, w'⟩ | ⟨s, w'⟩ <;> rw [hx] at h <;> obtain ⟨R, hA, hE, hC, hD, hP⟩ := h <;>
    simp only [Outcome.world] at hA hE ⊢
  · by_cases hc : c < zOk
    · rw [Outcome.phase, ofCode_of_neg hc] at hP
      rw [hk c w' hc]
      refine ⟨R ++ [.error c], .failed c, ⟨by simp [hA.log], hA.heap, ?_⟩, ?_, hD.append ?_,
        Phase.run_append_of hP (by simp [Phase.next]), .inr ⟨c, rfl, rfl⟩⟩
      · simp [hA.totalOut, Event.written]
      · intro e he
        rcases List.mem_append.mp he with he | he
        · exact .inl (Event.isCall_of_isRoundCall (hC e he))
        · simp [List.mem_singleton.mp he, Event.isError]
      · exact Delivers.of_not_call (by simp [Event.isCall])
    · rw [Outcome.phase, ofCode_of_nonneg (not_lt.mp hc)] at hP
      exact LoopRun.after hA hE (fun e he => Event.isCall_of_isRoundCall (hC e he)) hD hP
        (hn c w' (not_lt.mp hc))
  · exact ⟨R, .running, hA, fun e he => .inl (Event.isCall_of_isRoundCall (hC e he)), hD, hP,
      .inl ⟨rfl, hE⟩⟩

theorem LoopRun.done (d : Direction) (w : World) : LoopRun d w (.ok () w) :=
  ⟨[], .running, Appended.refl w, by simp, Delivers.nil, rfl, .inl ⟨rfl, rfl⟩⟩

/-- `input_handler` returned `n` and `next_in` points at the buffer again. -/
theorem input_appended (w : World) (buf : Ptr) (cap n : Nat) :
    Appended w
      { w with
        zs := { w.zs with nextIn := buf, availIn := n }
        log := w.log ++ [.input buf cap n] }
      [.input buf cap n] :=
  ⟨rfl, rfl, (uint64_add_zero _).symm⟩

theorem LoopRun.after_input {d : Direction} {w : World} {buf : Ptr} {cap n : Nat}
    {o : Outcome Unit}
    (h : LoopRun d
      { w with
        zs := { w.zs with nextIn := buf, availIn := n }
        log := w.log ++ [.input buf cap n] } o) :
    LoopRun d w o :=
  LoopRun.after (input_appended w buf cap n) rfl (by simp [Event.isCall]) ⟨by simp, rfl⟩ rfl h

section Loops

variable (env : Env) (inputBuf outputBuf : Ptr) (inputCap outputCap fuel : Nat)

theorem compressLoop_run :
    ∀ k w, LoopRun deflating w (compressLoop env inputBuf outputBuf inputCap outputCap fuel k w)
  | 0, w => LoopRun.of_stop _ _ w
  | k + 1, w => by
    simp only [compressLoop, inputHandler_bind, setIn, modifyW_bind]
    refine LoopRun.after_input (LoopRun.bind_inner (compressToOutstream_inner env _ _ _ _ _)
      (fun c w' hc => by simp [hc, setErrorCode, modifyW]) fun c w' hc => ?_)
    simp only [not_lt.mpr hc, if_false]
    split_ifs
    · exact compressLoop_run k w'
    · exact LoopRun.done _ w'

theorem uncompressLoop_run :
    ∀ k w, LoopRun inflating w (uncompressLoop env inputBuf outputBuf inputCap outputCap fuel k w)
  | 0, w => LoopRun.of_stop _ _ w
  | k + 1, w => by
    simp only [uncompressLoop, readW_bind]
    split_ifs
    · exact LoopRun.done _ w
    refine LoopRun.bind_inner (uncompressToOutstream_inner env _ _ _ _)
      (fun c w' hc => by simp [hc, setErrorCode, modifyW]) fun c w' hc => ?_
    simp only [not_lt.mpr hc, if_false]
    split_ifs
    · exact LoopRun.done _ w'
    · simp only [inputHandler_bind, setIn, modifyW_bind]
      exact LoopRun.after_input (uncompressLoop_run k _)

end Loops

/-! ## Around the loops -/

/-- Events that are no call and no error and leave the stream and `*error_code` alone: the
    `pool_alloc`s, `deflateEnd`/`inflateEnd` and the `pool_free`s. -/
structure Quiet (w w' : World) (Q : List Event) : Prop where
  log : w'.log = w.log ++ Q
  zs : w'.zs = w.zs
  errorCode : w'.errorCode = w.errorCode
  quiet : ∀ e ∈ Q, e.isCall = false ∧ e.isError = false

theorem Quiet.refl (w : World) : Quiet w w [] := ⟨by simp, rfl, rfl, by simp⟩

theorem Quiet.trans {w₁ w₂ w₃ : World} {Q₁ Q₂ : List Event} (h₁ : Quiet w₁ w₂ Q₁)
    (h₂ : Quiet w₂ w₃ Q₂) : Quiet w₁ w₃ (Q₁ ++ Q₂) where
  log := by rw [h₂.log, h₁.log, List.append_assoc]
  zs := h₂.zs.trans h₁.zs
  errorCode := h₂.errorCode.trans h₁.errorCode
  quiet e he := (List.mem_append.mp he).elim (h₁.quiet e) (h₂.quiet e)

/-- One quiet event. -/
theorem Quiet.single {w w' : World} {e : Event} (hlog : w'.log = w.log ++ [e]) (hzs : w'.zs = w.zs)
    (hE : w'.errorCode = w.errorCode) (he : e.isCall = false ∧ e.isError = false) :
    Quiet w w' [e] :=
  ⟨hlog, hzs, hE, by simpa using he⟩

/-- The events `L` took a stream from `w₀` to `w'`: they deliver what zlib wrote, the
    fail-stop discipline holds over them and `*error_code` reports its phase, and `total_out`
    counts what zlib wrote. -/
structure StreamFacts (d : Direction) (w₀ w' : World) (L : List Event) : Prop where
  log : w'.log = w₀.log ++ L
  delivers : Delivers d L
  reports : ∃ ph, Phase.run d .running L = some ph ∧ ph.Reports w₀.errorCode w'.errorCode
  totalOut : w'.zs.totalOut = w₀.zs.totalOut + UInt64.ofNat (L.flatMap Event.written).length

theorem Phase.Reports.run_quiet {d : Direction} {ph : Phase} {e₀ e : Option Int}
    {Q : List Event} (h : ph.Reports e₀ e) (hQ : ∀ e ∈ Q, e.isCall = false ∧ e.isError = false) :
    Phase.run d ph Q = some ph := by
  rcases h with ⟨rfl, -⟩ | ⟨c, rfl, -⟩
  exacts [Phase.run_quiet hQ, Phase.run_failed c Q hQ]

theorem written_quiet {Q : List Event} (hQ : ∀ e ∈ Q, e.isCall = false ∧ e.isError = false) :
    Q.flatMap Event.written = [] :=
  List.flatMap_eq_nil_iff.mpr fun e he => by
    have := (hQ e he).1
    cases e <;> first | rfl | nomatch this

/-- Quiet events, a loop run, quiet events. -/
theorem StreamFacts.of_loop {d : Direction} {w₀ w₂ w' : World} {o : Outcome Unit}
    {Q₁ Q₂ : List Event} (h₁ : Quiet w₀ w₂ Q₁) (hl : LoopRun d w₂ o) (h₂ : Quiet o.world w' Q₂) :
    ∃ R, (∀ e ∈ R, e.isCall ∨ e.isError) ∧ StreamFacts d w₀ w' (Q₁ ++ R ++ Q₂) := by
  obtain ⟨R, ph, hA, hC, hD, hP, hR⟩ := hl
  refine ⟨R, hC, ⟨by rw [h₂.log, hA.log, h₁.log]; simp, ?_, ⟨ph, ?_, ?_⟩, ?_⟩⟩
  · exact (Delivers.of_not_call fun e he => (h₁.quiet e he).1).append hD |>.append
      (Delivers.of_not_call fun e he => (h₂.quiet e he).1)
  · rw [Phase.run_append, Phase.run_append, Phase.run_quiet h₁.quiet]
    simp only [Option.some_bind, hP]
    exact hR.run_quiet h₂.quiet
  · rw [h₂.errorCode, ← h₁.errorCode]
    exact hR
  · rw [h₂.zs, hA.totalOut, congrArg ZStream.totalOut h₁.zs]
    simp [written_quiet h₁.quiet, written_quiet h₂.quiet]

theorem StreamFacts.of_quiet {d : Direction} {w₀ w' : World} {Q : List Event} (h : Quiet w₀ w' Q) :
    StreamFacts d w₀ w' Q where
  log := h.log
  delivers := Delivers.of_not_call fun e he => (h.quiet e he).1
  reports := ⟨.running, Phase.run_quiet h.quiet, .inl ⟨rfl, h.errorCode⟩⟩
  totalOut := by rw [h.zs, written_quiet h.quiet]; exact (uint64_add_zero _).symm

theorem quiet_event (e : Event) (he : e.isCall = false ∧ e.isError = false) (w : World)
    (h : Heap) : Quiet w { w with heap := h, log := w.log ++ [e] } [e] :=
  Quiet.single rfl rfl rfl he

theorem poolAllocW_quiet (cfg : Config) (globalMultipool : Ptr) (size : Nat) (w : World) :
    (∃ p w', poolAllocW cfg globalMultipool size w = .ok p w' ∧ Quiet w w' [.alloc size p]) ∨
    ∃ s, poolAllocW cfg globalMultipool size w = .stop s w := by
  rcases poolAllocW_cases cfg globalMultipool size w with ⟨p, h, e⟩ | ⟨f, e⟩
  exacts [.inl ⟨p, _, e, quiet_event (.alloc size p) ⟨rfl, rfl⟩ w h⟩, .inr ⟨_, e⟩]

theorem poolFreeW_quiet (cfg : Config) (p : Ptr) (w : World) :
    ∃ w', Quiet w w' [.free p] ∧
      (poolFreeW cfg p w = .ok () w' ∨ ∃ s, poolFreeW cfg p w = .stop s w') := by
  rcases poolFreeW_cases cfg p w with ⟨h, e⟩ | ⟨f, e⟩
  exacts [⟨_, quiet_event (.free p) ⟨rfl, rfl⟩ w h, .inl e⟩,
    ⟨_, quiet_event (.free p) ⟨rfl, rfl⟩ w w.heap, .inr ⟨_, e⟩⟩]

theorem poolAllocW_ok_quiet {cfg : Config} {globalMultipool : Ptr} {size : Nat} {w w' : World}
    {p : Ptr} (e : poolAllocW cfg globalMultipool size w = .ok p w') : Quiet w w' [.alloc size p] := by
  rcases poolAllocW_quiet cfg globalMultipool size w with ⟨p', w'', e', q⟩ | ⟨s, e'⟩ <;>
    rw [e'] at e <;> cases e
  exact q

theorem poolFreeW_ok_quiet {cfg : Config} {p : Ptr} {w w' : World}
    (e : poolFreeW cfg p w = .ok () w') : Quiet w w' [.free p] := by
  obtain ⟨w'', q, e' | ⟨s, e'⟩⟩ := poolFreeW_quiet cfg p w <;> rw [e'] at e <;> cases e
  exact q

/-- What `compress_stream` and `uncompress_stream_any` do after a successful init, around
    their loop: two `pool_alloc`s, the loop, `deflateEnd`/`inflateEnd` and two `pool_free`s. -/
def streamTail (cfg : Config) (globalMultipool : Ptr) (inCap outCap : Nat)
    (loop : Ptr → Ptr → SM Unit) : SM UInt64 := do
  let inputBuf ← poolAllocW cfg globalMultipool inCap
  let outputBuf ← poolAllocW cfg globalMultipool outCap
  loop inputBuf outputBuf
  let len ← readW (·.zs.totalOut)
  zEnd
  poolFreeW cfg inputBuf
  poolFreeW cfg outputBuf
  return len

section Tail

variable (cfg : Config) (globalMultipool : Ptr) (d : Direction) (inCap outCap : Nat)
  (loop : Ptr → Ptr → SM Unit)

theorem streamTail_facts (hloop : ∀ p₁ p₂ w, LoopRun d w (loop p₁ p₂ w)) (w₀ : World) :
    ∃ L, StreamFacts d w₀ (streamTail cfg globalMultipool inCap outCap loop w₀).world L := by
  unfold streamTail
  rcases poolAllocW_quiet cfg globalMultipool inCap w₀ with ⟨p₁, w₁, e₁, q₁⟩ | ⟨s, e₁⟩
  swap
  · rw [SM.bind_stop e₁]
    exact ⟨[], StreamFacts.of_quiet (Quiet.refl w₀)⟩
  rw [SM.bind_ok e₁]
  rcases poolAllocW_quiet cfg globalMultipool outCap w₁ with ⟨p₂, w₂, e₂, q₂⟩ | ⟨s, e₂⟩
  swap
  · rw [SM.bind_stop e₂]
    exact ⟨_, StreamFacts.of_quiet q₁⟩
  rw [SM.bind_ok e₂, SM.bind_run]
  have hL := hloop p₁ p₂ w₂
  rcases hl : loop p₁ p₂ w₂ with ⟨⟨⟩, w₃⟩ | ⟨s, w₃⟩ <;> rw [hl] at hL
  swap
  · obtain ⟨R, -, hF⟩ := StreamFacts.of_loop (q₁.trans q₂) hL (Quiet.refl _)
    exact ⟨_, hF⟩
  simp only [readW_bind, zEnd, modifyW_bind]
  have q₄ := quiet_event .finish ⟨rfl, rfl⟩ w₃ w₃.heap
  obtain ⟨w₅, q₅, e₅ | ⟨s, e₅⟩⟩ := poolFreeW_quiet cfg p₁ { w₃ with log := w₃.log ++ [.finish] }
  swap
  · rw [SM.bind_stop e₅]
    obtain ⟨R, -, hF⟩ := StreamFacts.of_loop (q₁.trans q₂) hL (q₄.trans q₅)
    exact ⟨_, hF⟩
  rw [SM.bind_ok e₅]
  obtain ⟨w₆, q₆, e₆ | ⟨s, e₆⟩⟩ := poolFreeW_quiet cfg p₂ w₅ <;>
    obtain ⟨R, -, hF⟩ := StreamFacts.of_loop (q₁.trans q₂) hL ((q₄.trans q₅).trans q₆)
  · rw [SM.bind_ok e₆]
    exact ⟨_, hF⟩
  · rw [SM.bind_stop e₆]
    exact ⟨_, hF⟩

/-- A run that returns took both buffers, ran the loop to its end, and gave both back; it
    returns the `total_out` the loop left. -/
theorem streamTail_ok {w₀ w' : World} {n : UInt64}
    (h : streamTail cfg globalMultipool inCap outCap loop w₀ = .ok n w') :
    ∃ p₁ p₂ w₂ w₃, Quiet w₀ w₂ [.alloc inCap p₁, .alloc outCap p₂] ∧
      loop p₁ p₂ w₂ = .ok () w₃ ∧ Quiet w₃ w' [.finish, .free p₁, .free p₂] ∧
      n = w₃.zs.totalOut := by
  simp only [streamTail, SM.bind_eq_ok, readW_run, zEnd, modifyW, SM.pure_run] at h
  obtain ⟨p₁, w₁, e₁, p₂, w₂, e₂, ⟨⟩, w₃, e₃, _, _, ⟨rfl, rfl⟩, ⟨⟩, w₄, ⟨rfl, rfl⟩, ⟨⟩, w₅, e₅,
    ⟨⟩, w₆, e₆, ⟨rfl, rfl⟩⟩ := h
  exact ⟨p₁, p₂, w₂, w₃, (poolAllocW_ok_quiet e₁).trans (poolAllocW_ok_quiet e₂), e₃,
    ((quiet_event .finish ⟨rfl, rfl⟩ w₃ w₃.heap).trans (poolFreeW_ok_quiet e₅)).trans
      (poolFreeW_ok_quiet e₆), rfl⟩

/-- The events of a run that returns: the two `pool_alloc`s, the loop's calls,
    `deflateEnd`/`inflateEnd` and the two `pool_free`s; it returns `total_out`. -/
theorem streamTail_shape (hloop : ∀ p₁ p₂ w, LoopRun d w (loop p₁ p₂ w)) {w₀ w' : World}
    {n : UInt64} {L : List Event} (hF : StreamFacts d w₀ w' L)
    (h : streamTail cfg globalMultipool inCap outCap loop w₀ = .ok n w') :
    n = w'.zs.totalOut ∧ ∃ p₁ p₂ body,
      L = .alloc inCap p₁ :: .alloc outCap p₂ :: (body ++ [.finish, .free p₁, .free p₂]) ∧
      ∀ e ∈ body, e.isCall ∨ e.isError := by
  obtain ⟨p₁, p₂, w₂, w₃, q₁, e, q₂, rfl⟩ := streamTail_ok cfg globalMultipool inCap outCap loop h
  obtain ⟨R, -, hA, hC, -⟩ := hloop p₁ p₂ w₂
  rw [e, Outcome.world_ok] at hA
  refine ⟨congrArg ZStream.totalOut q₂.zs.symm, p₁, p₂, R, ?_, hC⟩
  have := hF.log.symm.trans (q₂.log.trans (by rw [hA.log, q₁.log]))
  simpa using this

end Tail

/-- The converse of `streamTail_ok`: a run whose steps all return. -/
theorem streamTail_of_ok {cfg : Config} {globalMultipool : Ptr} {inCap outCap : Nat}
    {loop : Ptr → Ptr → SM Unit} {w₀ w₁ w₂ w₃ w₄ w₅ : World} {p₁ p₂ : Ptr}
    (e₁ : poolAllocW cfg globalMultipool inCap w₀ = .ok p₁ w₁)
    (e₂ : poolAllocW cfg globalMultipool outCap w₁ = .ok p₂ w₂) (e₃ : loop p₁ p₂ w₂ = .ok () w₃)
    (e₄ : poolFreeW cfg p₁ { w₃ with log := w₃.log ++ [.finish] } = .ok () w₄)
    (e₅ : poolFreeW cfg p₂ w₄ = .ok () w₅) :
    streamTail cfg globalMultipool inCap outCap loop w₀ = .ok w₃.zs.totalOut w₅ := by
  simp only [streamTail, SM.bind_ok e₁, SM.bind_ok e₂, SM.bind_ok e₃, readW_bind, zEnd,
    modifyW_bind, SM.bind_ok e₄, SM.bind_ok e₅, SM.pure_run]

end Gozlib.Stream
