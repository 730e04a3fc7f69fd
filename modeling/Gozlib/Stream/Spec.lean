import Gozlib.Stream.Uncompress

/-
  What the stream functions promise their callers, stated over the event log.

  A stream fails at the first of: `output_handler` refusing its bytes (returning 0), or a
  zlib code that `compress_to_outstream` or `uncompress_to_outstream` returns as an error.
  From then on the wrapper makes no call, and what it does next is to write that failure's
  code to `*error_code`; without a failure it never writes it. `Phase.next` reads a log one
  event at a time and refuses (`none`) the first event that breaks this. A `Direction` says
  which codes fail a stream: `deflating` for `compress_to_outstream`, `inflating` for
  `uncompress_to_outstream_step`.

  `Delivers`: `output_handler` is only handed bytes, and the bytes it is handed are, in order
  and once each, the bytes the zlib calls wrote, those of a call with a fatal code apart.
-/

namespace Gozlib.Stream

/-! ## Directions -/

/-- How one direction of the wrapper treats zlib's codes. -/
structure Direction where
  /-- The codes returned at once, the call's output dropped. -/
  fatal : Int → Bool
  /-- The code the stream fails with after a fatal code. -/
  report : Int → Int
  /-- Whether a negative code fails the stream once the call left room in the work buffer
      (after its bytes were handed over). -/
  failsWithRoom : Bool

/-- `compress_to_outstream`: `Z_STREAM_ERROR` is returned at once; any other code is
    returned when `deflate` left room in the buffer. -/
def deflating : Direction := ⟨fun c => c = zStreamError, id, true⟩

/-- `uncompress_to_outstream_step`: `is_inflate_result_fatal`, with `Z_NEED_DICT` reported as
    `Z_DATA_ERROR`; every other code becomes `Z_OK` or `GOZLIB_STREAM_OUTPUT_HAS_MORE_DATA`. -/
def inflating : Direction :=
  ⟨isInflateResultFatal, fun c => if c = zNeedDict then zDataError else c, false⟩

/-! ## Events -/

namespace Event

/-- A call to a handler or to `deflate`/`inflate`. -/
def isCall : Event → Bool
  | input .. | output .. | zlib .. => true
  | _ => false

def isError : Event → Bool
  | error _ => true
  | _ => false

/-- The bytes handed to `output_handler`. -/
def handed : Event → List UInt8
  | output _ bytes _ => bytes
  | _ => []

/-- The bytes a zlib call wrote. -/
def written : Event → List UInt8
  | zlib _ _ _ _ out => out
  | _ => []

/-- The bytes a zlib call wrote, unless its code is fatal. -/
def produced (d : Direction) : Event → List UInt8
  | zlib _ _ _ c out => if d.fatal c then [] else out
  | _ => []

end Event

/-! ## Fail-stop -/

/-- Where a stream is: no failure yet; handing over the bytes of a call whose code fails the
    stream; failed with a code not yet written to `*error_code`; failed and written. -/
inductive Phase
  | running
  | delivering (c : Int)
  | failing (c : Int)
  | failed (c : Int)
  deriving DecidableEq, Repr

/-- The fail-stop discipline, one event at a time; `none` is a breach. -/
def Phase.next (d : Direction) : Phase → Event → Option Phase
  | .running, .zlib _ _ req c out =>
    if d.fatal c then some (.failing (d.report c))
    else if d.failsWithRoom ∧ c < 0 ∧ out.length < req.availOut then
      some (if out = [] then .failing c else .delivering c)
    else some .running
  | .running, .output _ _ r =>
    some (if r = 0 then .failing gozlibStreamOutputWriteError else .running)
  | .running, .error _ => none
  | .running, _ => some .running
  | .delivering c, .output _ _ r =>
    some (.failing (if r = 0 then gozlibStreamOutputWriteError else c))
  | .delivering _, _ => none
  | .failing c, .error c' => if c' = c then some (.failed c) else none
  | .failing _, _ => none
  | .failed c, e => if e.isCall || e.isError then none else some (.failed c)

def Phase.run (d : Direction) (ph : Phase) (L : List Event) : Option Phase :=
  L.foldlM (Phase.next d) ph

/-- A run that ended with no failure left `*error_code` as it was; one that failed wrote
    the failure's code. -/
def Phase.Reports (ph : Phase) (e₀ e : Option Int) : Prop :=
  (ph = .running ∧ e = e₀) ∨ ∃ c, ph = .failed c ∧ e = some c

/-- The phase a stream is in when `compress_to_outstream` or `uncompress_to_outstream` has
    returned `c`. -/
def Phase.ofCode (c : Int) : Phase := if c < zOk then .failing c else .running

/-- The bytes `output_handler` is handed are those zlib wrote. -/
structure Delivers (d : Direction) (L : List Event) : Prop where
  nonempty : ∀ buf bytes r, Event.output buf bytes r ∈ L → bytes ≠ []
  flow : L.flatMap Event.handed = L.flatMap (Event.produced d)

/-! ## Lemmas -/

namespace Phase

variable {d : Direction}

@[simp] theorem run_nil (ph : Phase) : run d ph [] = some ph := rfl

@[simp] theorem run_cons (ph : Phase) (e : Event) (L : List Event) :
    run d ph (e :: L) = (next d ph e).bind fun ph' => run d ph' L := rfl

theorem run_append (ph : Phase) (L₁ L₂ : List Event) :
    run d ph (L₁ ++ L₂) = (run d ph L₁).bind fun ph' => run d ph' L₂ := by
  simp only [run, List.foldlM_append]
  rfl

theorem run_append_of {ph ph₁ ph₂ : Phase} {L₁ L₂ : List Event} (h₁ : run d ph L₁ = some ph₁)
    (h₂ : run d ph₁ L₂ = some ph₂) : run d ph (L₁ ++ L₂) = some ph₂ := by
  rw [run_append, h₁]
  exact h₂

/-- A failed stream only ever lets events through that are no call and no error. -/
theorem run_failed (c : Int) (L : List Event) (hL : ∀ e ∈ L, e.isCall = false ∧ e.isError = false) :
    run d (.failed c) L = some (.failed c) := by
  induction L with
  | nil => rfl
  | cons e L ih =>
    obtain ⟨h₁, h₂⟩ := hL e (List.mem_cons_self e L)
    simp [next, h₁, h₂, ih fun e he => hL e (List.mem_cons_of_mem _ he)]

/-- An event that is neither a call nor an error leaves a running stream running. -/
theorem next_running_of_quiet {e : Event} (h₁ : e.isCall = false)
    (h₂ : e.isError = false) : next d .running e = some .running := by
  cases e <;> simp only [Event.isCall, Event.isError, Bool.true_eq_false] at h₁ h₂ <;> rfl

/-- A running stream lets through every event that is no call and no error. -/
theorem run_quiet {Q : List Event}
    (hQ : ∀ e ∈ Q, e.isCall = false ∧ e.isError = false) :
    run d .running Q = some .running := by
  induction Q with
  | nil => rfl
  | cons e Q ih =>
    obtain ⟨h₁, h₂⟩ := hQ e (List.mem_cons_self e Q)
    rw [run_cons, next_running_of_quiet h₁ h₂]
    exact ih fun e he => hQ e (List.mem_cons_of_mem _ he)

/-- No phase past a failure leads back to `running`. -/
theorem eq_running_of_run {ph : Phase} {L : List Event} (h : run d ph L = some .running) :
    ph = .running := by
  induction L generalizing ph with
  | nil => simpa using h
  | cons e L ih =>
    rw [run_cons, Option.bind_eq_some] at h
    obtain ⟨ph', hn, hr⟩ := h
    cases ph with
    | running => rfl
    | delivering c => cases e <;> simp [next] at hn; subst hn; exact absurd (ih hr) (by simp)
    | failing c =>
      cases e <;> simp [next] at hn
      obtain ⟨-, rfl⟩ := hn
      exact absurd (ih hr) (by simp)
    | failed c =>
      simp only [next] at hn
      split at hn
      · cases hn
      · cases hn; exact absurd (ih hr) (by simp)

/-- A stream only fails with a code by writing it to `*error_code`. -/
theorem error_mem_of_run {ph : Phase} {L : List Event} {c : Int} (h : run d ph L = some (.failed c)) :
    ph = .failed c ∨ Event.error c ∈ L := by
  induction L generalizing ph with
  | nil => simpa using h
  | cons e L ih =>
    rw [run_cons, Option.bind_eq_some] at h
    obtain ⟨ph', hn, hr⟩ := h
    rcases ih hr with rfl | he
    · cases ph <;> cases e <;> simp [next] at hn ⊢ <;> (try split_ifs at hn) <;> simp_all
    · exact .inr (List.mem_cons_of_mem _ he)

/-- A stream still running has met no fatal code, so zlib wrote only bytes it delivers. -/
theorem written_eq_produced {L : List Event} (h : run d .running L = some .running) :
    L.flatMap Event.written = L.flatMap (Event.produced d) := by
  induction L with
  | nil => rfl
  | cons e L ih =>
    rw [run_cons, Option.bind_eq_some] at h
    obtain ⟨ph', hn, hr⟩ := h
    obtain rfl := eq_running_of_run hr
    cases e with
    | zlib i o req c out =>
      have hf : d.fatal c = false := by
        by_contra hc
        simp [next, hc] at hn
      simp [Event.written, Event.produced, hf, ih hr]
    | _ => simp [Event.written, Event.produced, ih hr]

end Phase

namespace Delivers

variable {d : Direction}

theorem nil : Delivers d [] := ⟨by simp, rfl⟩

theorem append {L₁ L₂ : List Event} (h₁ : Delivers d L₁) (h₂ : Delivers d L₂) :
    Delivers d (L₁ ++ L₂) where
  nonempty buf bytes r h := by
    rcases List.mem_append.mp h with h | h
    · exact h₁.nonempty buf bytes r h
    · exact h₂.nonempty buf bytes r h
  flow := by simp only [List.flatMap_append, h₁.flow, h₂.flow]

/-- Events that are no call hand over nothing, and zlib wrote nothing in them. -/
theorem of_not_call {L : List Event} (hL : ∀ e ∈ L, e.isCall = false) : Delivers d L := by
  induction L with
  | nil => exact nil
  | cons e L ih =>
    have he := hL e (List.mem_cons_self e L)
    refine append (?_ : Delivers d [e]) (ih fun e' h => hL e' (List.mem_cons_of_mem _ h))
    cases e <;> simp [Event.isCall] at he <;> exact ⟨by simp, rfl⟩

end Delivers

/-! ## `uLong` arithmetic -/

theorem uint64_ofNat_add (a b : Nat) : UInt64.ofNat (a + b) = UInt64.ofNat a + UInt64.ofNat b :=
  congrArg UInt64.mk (BitVec.ofNat_add a b)

theorem uint64_add_zero (a : UInt64) : a + 0 = a := congrArg UInt64.mk (BitVec.add_zero a.toBitVec)

theorem uint64_zero_add (a : UInt64) : 0 + a = a := congrArg UInt64.mk (BitVec.zero_add a.toBitVec)

theorem uint64_add_assoc (a b c : UInt64) : a + b + c = a + (b + c) :=
  congrArg UInt64.mk (BitVec.add_assoc a.toBitVec b.toBitVec c.toBitVec)

end Gozlib.Stream
