import Gozlib.Stream.Compress
import Gozlib.Stream.Spec

/-
  One round of `compress_to_outstream` and of `uncompress_to_outstream_step`: point
  `next_out` at the work buffer, call zlib, and hand what it wrote to `output_handler`.
  Both functions are a `round` followed by a decision on how it ended
  (`compressToOutstream_succ`, `uncompressToOutstreamStep_eq`); `round_spec` says once what a
  round does to the world and to the log, and the runs of the two functions are assembled
  from it (`compressToOutstream_inner`, `uncompressToOutstream_inner`).
-/

namespace Gozlib.Stream

open Gozlib.Pool

/-! ## Rounds -/

/-- How a round ended: zlib returned a fatal code; `output_handler` refused the bytes; zlib
    left room in the buffer, returning `c`; or it filled the buffer. -/
inductive RoundEnd
  | fatal (c : Int)
  | refused
  | room (c : Int)
  | full
  deriving DecidableEq, Repr

/-- What zlib is asked in a round. -/
def zRequest (w : World) (len : Nat) (flush : Int) : ZRequest := ⟨w.zs.availIn, len, flush⟩

def round (fatal : Int → Bool) (env : Env) (buf : Ptr) (len : Nat) (flush : Int) (w : World) :
    RoundEnd × World :=
  let a := env.zlib w.log (zRequest w len flush)
  let w₁ := (zCall env flush { w with zs := { w.zs with nextOut := buf, availOut := len } }).world
  let ends := if a.out.length < len then RoundEnd.room a.code else .full
  if fatal a.code then (.fatal a.code, w₁)
  else if a.out = [] then (ends, w₁)
  else
    let r := env.output w₁.log a.out
    (if r = 0 then .refused else ends, { w₁ with log := w₁.log ++ [.output buf a.out r] })

/-- A call a round makes: to `deflate` or `inflate`, or to `output_handler`. -/
def Event.isRoundCall : Event → Bool
  | .output .. | .zlib .. => true
  | _ => false

theorem Event.isCall_of_isRoundCall : ∀ {e : Event}, e.isRoundCall → e.isCall
  | .output .., _ | .zlib .., _ => rfl

/-- The phase a round leaves a running stream in. -/
def RoundEnd.phase (d : Direction) : RoundEnd → Phase
  | .fatal c => .failing (d.report c)
  | .refused => .failing gozlibStreamOutputWriteError
  | .room c => if d.failsWithRoom ∧ c < 0 then .failing c else .running
  | .full => .running

theorem compressToOutstream_succ (env : Env) (flush : Int) (buf : Ptr) (len fuel : Nat)
    (w : World) :
    compressToOutstream env flush buf len (fuel + 1) w =
      match round deflating.fatal env buf len flush w with
      | (.fatal c, w') | (.room c, w') => .ok c w'
      | (.refused, w') => .ok gozlibStreamOutputWriteError w'
      | (.full, w') => compressToOutstream env flush buf len fuel w' := by
  have hle := env.zlib_out w.log (zRequest w len flush)
  simp only [compressToOutstream, round, deflating, SM.bind_run, setOut, modifyW, zCall, readW,
    outputHandler, SM.ite_run, pure_bind, zRequest, Outcome.world] at hle ⊢
  generalize env.zlib w.log _ = a at hle ⊢
  have h1 : len - (len - a.out.length) = a.out.length := Nat.sub_sub_self hle
  simp only [h1, List.take_left', gt_iff_lt, List.length_pos, decide_eq_true_eq,
    Nat.sub_pos_iff_lt]
  by_cases hf : a.code = zStreamError
  · simp only [hf, if_true, decide_true_eq_true]
    rfl
  by_cases ho : a.out = [] <;>
    simp only [hf, ho, if_true, if_false, decide_false_eq_false, ne_eq, Bool.false_eq_true,
      not_true_eq_false, not_false_eq_true, List.length_nil] <;> split_ifs <;> rfl

theorem uncompressToOutstreamStep_eq (env : Env) (buf : Ptr) (len : Nat) (w : World) :
    uncompressToOutstreamStep env buf len w =
      match round inflating.fatal env buf len zNoFlush w with
      | (.fatal c, w') => .ok (inflating.report c) w'
      | (.refused, w') => .ok gozlibStreamOutputWriteError w'
      | (.room _, w') => .ok zOk w'
      | (.full, w') => .ok gozlibStreamOutputHasMoreData w' := by
  have hle := env.zlib_out w.log (zRequest w len zNoFlush)
  simp only [uncompressToOutstreamStep, round, inflating, SM.bind_run, setOut, modifyW, zCall,
    readW, outputHandler, SM.ite_run, pure_bind, zRequest, Outcome.world] at hle ⊢
  generalize env.zlib w.log _ = a at hle ⊢
  have h1 : len - (len - a.out.length) = a.out.length := Nat.sub_sub_self hle
  simp only [h1, List.take_left', gt_iff_lt, List.length_pos, decide_eq_true_eq,
    Nat.sub_pos_iff_lt]
  by_cases hf : isInflateResultFatal a.code
  · simp only [hf, if_true]
    rfl
  by_cases ho : a.out = [] <;>
    simp only [hf, ho, if_true, if_false, ne_eq, Bool.false_eq_true, not_true_eq_false,
      not_false_eq_true, List.length_nil] <;> split_ifs <;> rfl

/-! ## What a round does -/

/-- `w'` is `w` after the events `R`: the heap is as it was and `total_out` grew by the
    bytes zlib wrote. -/
structure Appended (w w' : World) (R : List Event) : Prop where
  log : w'.log = w.log ++ R
  heap : w'.heap = w.heap
  totalOut : w'.zs.totalOut = w.zs.totalOut + UInt64.ofNat (R.flatMap Event.written).length

theorem Appended.refl (w : World) : Appended w w [] := ⟨by simp, rfl, (uint64_add_zero _).symm⟩

theorem Appended.trans {w₁ w₂ w₃ : World} {R₁ R₂ : List Event} (h₁ : Appended w₁ w₂ R₁)
    (h₂ : Appended w₂ w₃ R₂) : Appended w₁ w₃ (R₁ ++ R₂) where
  log := by rw [h₂.log, h₁.log, List.append_assoc]
  heap := h₂.heap.trans h₁.heap
  totalOut := by
    rw [h₂.totalOut, h₁.totalOut, List.flatMap_append, List.length_append, uint64_ofNat_add,
      uint64_add_assoc]

/-- The phase after a zlib call that wrote nothing, with a code that is not fatal. -/
theorem run_zlib_empty {d : Direction} {c : Int} (hf : d.fatal c = false) (i o : Ptr)
    (req : ZRequest) :
    Phase.run d .running [.zlib i o req c []] =
      some ((if 0 < req.availOut then RoundEnd.room c else .full).phase d) := by
  by_cases hl : 0 < req.availOut <;> by_cases hc : d.failsWithRoom ∧ c < 0 <;>
    simp only [Phase.run_cons, Phase.run_nil, Phase.next, RoundEnd.phase, hf, hl, hc, List.length_nil,
      and_true, and_false, if_true, if_false, Bool.false_eq_true, Option.some_bind]

/-- The phase after a zlib call that wrote bytes, with a code that is not fatal, and the
    `output_handler` call that took them. -/
theorem run_zlib_output {d : Direction} {c : Int} (hf : d.fatal c = false) (i o : Ptr)
    (req : ZRequest) {out : List UInt8} (hne : out ≠ []) (buf : Ptr) (r : Nat) :
    Phase.run d .running [.zlib i o req c out, .output buf out r] =
      some ((if r = 0 then RoundEnd.refused
        else if out.length < req.availOut then .room c else .full).phase d) := by
  by_cases hl : out.length < req.availOut <;> by_cases hr : r = 0 <;>
    by_cases hc : d.failsWithRoom ∧ c < 0 <;> simp only [Phase.run_cons, Phase.run_nil, Phase.next,
      RoundEnd.phase, hf, hl, hr, hne, hc, and_true, and_false, if_true, if_false, Bool.false_eq_true,
      Option.some_bind]

theorem round_spec (d : Direction) (env : Env) (buf : Ptr) (len : Nat) (flush : Int)
    (w : World) :
    (∀ c, (round d.fatal env buf len flush w).1 = .fatal c → d.fatal c) ∧
    ∃ R, Appended w (round d.fatal env buf len flush w).2 R ∧
      (round d.fatal env buf len flush w).2.errorCode = w.errorCode ∧ (∀ e ∈ R, e.isRoundCall) ∧
      Delivers d R ∧
      Phase.run d .running R = some ((round d.fatal env buf len flush w).1.phase d) := by
  have hle := env.zlib_out w.log (zRequest w len flush)
  simp only [round, zCall, Outcome.world, zRequest] at hle ⊢
  generalize env.zlib w.log _ = a at hle ⊢
  by_cases hf : d.fatal a.code
  · rw [if_pos hf]
    exact ⟨fun c h => by cases h; exact hf, [_], ⟨rfl, rfl, by simp [Event.written]⟩, rfl,
      by simp [Event.isRoundCall], ⟨by simp, by simp [Event.handed, Event.produced, hf]⟩,
      by simp [Phase.next, hf, RoundEnd.phase]⟩
  have hf' := Bool.eq_false_iff.mpr hf
  rw [if_neg hf]
  by_cases ho : a.out = []
  · rw [if_pos ho]
    refine ⟨fun c h => ?_, [_], ⟨rfl, rfl, by simp [Event.written]⟩, rfl,
      by simp [Event.isRoundCall], ⟨by simp, by simp [Event.handed, Event.produced, hf, ho]⟩, ?_⟩
    · split at h <;> cases h
    · simp only [ho, List.length_nil]
      exact run_zlib_empty hf' _ _ ⟨_, len, _⟩
  · rw [if_neg ho]
    refine ⟨fun c h => ?_, [_, _], ⟨List.append_assoc _ _ _, rfl, by simp [Event.written]⟩, rfl,
      by simp [Event.isRoundCall], ⟨fun _ _ _ h => ?_, by simp [Event.handed, Event.produced, hf]⟩,
      run_zlib_output hf' _ _ ⟨_, len, _⟩ ho _ _⟩
    · split at h <;> (try split at h) <;> cases h
    · obtain ⟨-, rfl, -⟩ : _ ∧ _ ∧ _ := by simpa using h
      exact ho

/-! ## `compress_to_outstream` and `uncompress_to_outstream` -/

/-- The phase a stream is in when `compress_to_outstream` or `uncompress_to_outstream` has
    ended: the one its code says, or `running` when the run stopped before a round. -/
def Outcome.phase : Outcome Int → Phase
  | .ok c _ => Phase.ofCode c
  | .stop _ _ => .running

/-- A run of `compress_to_outstream` or `uncompress_to_outstream` as the stream sees it: it
    called zlib and `output_handler` and nothing else, kept `*error_code`, delivered what zlib
    wrote, and left the stream in the phase of its outcome. -/
def InnerRun (d : Direction) (w : World) (o : Outcome Int) : Prop :=
  ∃ R, Appended w o.world R ∧ o.world.errorCode = w.errorCode ∧ (∀ e ∈ R, e.isRoundCall) ∧
    Delivers d R ∧ Phase.run d .running R = some o.phase

theorem InnerRun.of_stop (d : Direction) (s : Stop) (w : World) : InnerRun d w (.stop s w) :=
  ⟨[], Appended.refl w, rfl, by simp, Delivers.nil, rfl⟩

/-- A round that left the stream running, then a run from where it ended. -/
theorem InnerRun.round_then {d : Direction} {env : Env} {buf : Ptr} {len : Nat} {flush : Int}
    {w : World} {o : Outcome Int}
    (hr : (round d.fatal env buf len flush w).1.phase d = .running)
    (h : InnerRun d (round d.fatal env buf len flush w).2 o) : InnerRun d w o := by
  obtain ⟨-, R₁, hA₁, hE₁, hC₁, hD₁, hP₁⟩ := round_spec d env buf len flush w
  obtain ⟨R₂, hA₂, hE₂, hC₂, hD₂, hP₂⟩ := h
  rw [hr] at hP₁
  refine ⟨R₁ ++ R₂, hA₁.trans hA₂, hE₂.trans hE₁, ?_, hD₁.append hD₂,
    Phase.run_append_of hP₁ hP₂⟩
  simpa using fun e he => Or.elim he (hC₁ e) (hC₂ e)

/-- A round that ended the run with the code `c`. -/
theorem InnerRun.of_round {d : Direction} {env : Env} {buf : Ptr} {len : Nat} {flush : Int}
    {w : World} {c : Int} (hc : (round d.fatal env buf len flush w).1.phase d = Phase.ofCode c) :
    InnerRun d w (.ok c (round d.fatal env buf len flush w).2) := by
  obtain ⟨-, R, hA, hE, hC, hD, hP⟩ := round_spec d env buf len flush w
  exact ⟨R, hA, hE, hC, hD, hP.trans (congrArg some hc)⟩

theorem ofCode_of_neg {c : Int} (hc : c < zOk) : Phase.ofCode c = .failing c := if_pos hc

theorem ofCode_of_nonneg {c : Int} (hc : zOk ≤ c) : Phase.ofCode c = .running := if_neg (by omega)

theorem compressToOutstream_inner (env : Env) (flush : Int) (buf : Ptr) (len : Nat) :
    ∀ fuel w, InnerRun deflating w (compressToOutstream env flush buf len fuel w)
  | 0, w => InnerRun.of_stop _ _ w
  | fuel + 1, w => by
    rw [compressToOutstream_succ]
    have hf := (round_spec deflating env buf len flush w).1
    rcases h : round deflating.fatal env buf len flush w with ⟨e, w'⟩
    rw [h] at hf
    have hr : (round deflating.fatal env buf len flush w).1 = e := by rw [h]
    have hw : (round deflating.fatal env buf len flush w).2 = w' := by rw [h]
    subst hw
    cases e with
    | fatal c =>
      have hc : c = zStreamError := by simpa [deflating] using hf c rfl
      refine InnerRun.of_round ?_
      rw [hr, RoundEnd.phase, ofCode_of_neg (by subst hc; decide)]
      rfl
    | refused => exact InnerRun.of_round (by rw [hr, RoundEnd.phase, ofCode_of_neg (by decide)])
    | room c =>
      refine InnerRun.of_round ?_
      rw [hr, RoundEnd.phase, Phase.ofCode]
      simp [deflating, zOk]
    | full => exact InnerRun.round_then (by rw [hr]; rfl) (compressToOutstream_inner env flush buf len fuel _)

/-- A run that ended with a code that leaves the stream running, then another run. -/
theorem InnerRun.trans {d : Direction} {w w' : World} {c : Int} {o : Outcome Int}
    (h₁ : InnerRun d w (.ok c w')) (hc : Phase.ofCode c = .running) (h₂ : InnerRun d w' o) :
    InnerRun d w o := by
  obtain ⟨R₁, hA₁, hE₁, hC₁, hD₁, hP₁⟩ := h₁
  obtain ⟨R₂, hA₂, hE₂, hC₂, hD₂, hP₂⟩ := h₂
  refine ⟨R₁ ++ R₂, hA₁.trans hA₂, hE₂.trans hE₁, ?_, hD₁.append hD₂,
    Phase.run_append_of (hP₁.trans (congrArg some hc)) hP₂⟩
  simpa using fun e he => Or.elim he (hC₁ e) (hC₂ e)

theorem inflating_report_neg {c : Int} (h : inflating.fatal c) : inflating.report c < zOk := by
  simp only [inflating, isInflateResultFatal, Bool.or_eq_true, decide_eq_true_eq] at h
  rcases h with ((rfl | rfl) | rfl) | rfl <;> decide

theorem uncompressToOutstreamStep_inner (env : Env) (buf : Ptr) (len : Nat) (w : World) :
    InnerRun inflating w (uncompressToOutstreamStep env buf len w) := by
  rw [uncompressToOutstreamStep_eq]
  have hf := (round_spec inflating env buf len zNoFlush w).1
  rcases h : round inflating.fatal env buf len zNoFlush w with ⟨e, w'⟩
  rw [h] at hf
  have hr : (round inflating.fatal env buf len zNoFlush w).1 = e := by rw [h]
  have hw : (round inflating.fatal env buf len zNoFlush w).2 = w' := by rw [h]
  subst hw
  cases e with
  | fatal c =>
    exact InnerRun.of_round (by rw [hr, RoundEnd.phase, ofCode_of_neg (inflating_report_neg (hf c rfl))])
  | refused => exact InnerRun.of_round (by rw [hr, RoundEnd.phase, ofCode_of_neg (by decide)])
  | room c =>
    exact InnerRun.of_round (by rw [hr, RoundEnd.phase, ofCode_of_nonneg le_rfl]; simp [inflating])
  | full => exact InnerRun.of_round (by rw [hr, RoundEnd.phase, ofCode_of_nonneg (by decide)])

theorem uncompressToOutstream_inner (env : Env) (buf : Ptr) (len : Nat) :
    ∀ fuel w, InnerRun inflating w (uncompressToOutstream env buf len fuel w)
  | 0, w => InnerRun.of_stop _ _ w
  | fuel + 1, w => by
    have hs := uncompressToOutstreamStep_inner env buf len w
    simp only [uncompressToOutstream, SM.bind_run]
    rcases h : uncompressToOutstreamStep env buf len w with ⟨c, w'⟩ | ⟨s, w'⟩
    · rw [h] at hs
      dsimp only
      split_ifs with hc
      · exact hs.trans (by rw [hc]; exact ofCode_of_nonneg (by decide))
          (uncompressToOutstream_inner env buf len fuel w')
      · exact hs
    · rw [h] at hs
      exact hs

end Gozlib.Stream
