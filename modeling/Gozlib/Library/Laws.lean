import Gozlib.Library.Invariant

/-
  What a program that uses the library can rely on, in every state it reaches from
  `create_mem_pools`.

  * `library_refines_pools`: the pool model simulates the library. The pool view of a reachable
    state is a reachable pool state and each call is the run of the pool calls it makes, so the
    theorems of the pool model hold of every run of the library.
  * `transformer_ownership`: the program holds each block once, each transformer is live once,
    two live transformers share no block, and every live transformer is whole.
  * `acquire_transformer_fresh`: an acquire hands out a transformer that was not live, made of
    blocks the program did not hold.
  * `release_transformer_progress`: a live transformer with a state and a work buffer can always
    be released, which drops exactly its four blocks.
  * `null_part_never_released`: a transformer whose state or work buffer is `NULL` (a
    `work_buffer_cap` of 0 or above 4 MiB without assertions, or `malloc` failing) is never
    released: `pool_release_transformer` hands `NULL` to `pool_mem_return`, so the release
    faults, and along every run the transformer stays live and its blocks stay held.
-/

namespace Gozlib.Library

open Gozlib.Pool

variable {cfg : Config} {g : Globals} {l l' : Lib}

/-! ## Sample runs -/

/-- `malloc`'s answers: the multipool and its first class, `NULL` for the thirteen other
    classes, the three pools of `gozlib.c`, then eight blocks. -/
def sampleSupply : List Ptr :=
  [16, 32, 0, 0, 0, 0, 0, 0, 0, 0, 0, 0, 0, 0, 0, 48, 64, 80, 96, 112, 128, 160, 176, 192, 208,
    224]

/-- The globals `create_mem_pools` sets from `sampleSupply`. -/
def sampleGlobals : Globals := ⟨16, 48, 64, 80⟩

/-- After `acquire_zlib_compression_transformer (…, 512, …)`: the transformer at 120 holds its
    stream 232, its state 200 and a 512-byte work buffer 168. -/
def oneTransformer : Lib :=
  ⟨⟨⟨[(208, ⟨0, 232, 64⟩), (176, ⟨0, 200, 48⟩), (128, ⟨0, 168, 32⟩), (96, ⟨0, 120, 80⟩)],
      [(80, ⟨0, 32, 1, 0⟩), (64, ⟨0, 112, 1, 0⟩), (48, ⟨0, 8, 1, 0⟩), (32, ⟨0, 512, 1, 0⟩)],
      [(16, [32, 0, 0, 0, 0, 0, 0, 0, 0, 0, 0, 0, 0, 0])],
      [(224, (120, 208)), (192, (16, 176)), (160, (520, 128)), (112, (40, 96))], []⟩,
    [(120, ⟨232, 200, 168, 512⟩)]⟩,
   [⟨232, 208, 64⟩, ⟨200, 176, 48⟩, ⟨168, 128, 32⟩, ⟨120, 96, 80⟩], [120]⟩

theorem oneTransformer_reachable : oneTransformer.Reachable ⟨true, true⟩ sampleGlobals :=
  ⟨sampleSupply, [.acquireTransformer 512 0], rfl, rfl⟩

/-- After `acquire_zlib_compression_transformer (…, 0, …)` without assertions: the transformer at
    120 has no work buffer. -/
def stuckTransformer : Lib :=
  ⟨⟨⟨[(176, ⟨0, 200, 64⟩), (128, ⟨0, 168, 48⟩), (96, ⟨0, 120, 80⟩)],
      [(80, ⟨0, 32, 1, 0⟩), (64, ⟨0, 112, 1, 0⟩), (48, ⟨0, 8, 1, 0⟩), (32, ⟨0, 512, 0, 0⟩)],
      [(16, [32, 0, 0, 0, 0, 0, 0, 0, 0, 0, 0, 0, 0, 0])],
      [(192, (120, 176)), (160, (16, 128)), (112, (40, 96))], [208, 224]⟩,
    [(120, ⟨200, 168, 0, 0⟩)]⟩,
   [⟨200, 176, 64⟩, ⟨168, 128, 48⟩, ⟨120, 96, 80⟩], [120]⟩

theorem stuckTransformer_reachable : stuckTransformer.Reachable ⟨false, true⟩ sampleGlobals :=
  ⟨sampleSupply, [.acquireTransformer 0 0], rfl, rfl⟩

/-! ## Refinement and ownership -/

/-- The pool model simulates the library: the pool view of every reachable state is a reachable
    state of the pool model, and every call from it is the run of the pool calls it makes. -/
theorem library_refines_pools (hl : l.Reachable cfg g) :
    Session.Reachable cfg l.session ∧
      ∀ c l', l.step cfg g c = some l' → Session.run cfg l.session (c.ops g l) = some l'.session :=
  ⟨Lib.session_reachable hl, fun _ _ => step_refines (LibInv.of_reachable hl)⟩

theorem library_refines_pools_sample :
    Session.Reachable ⟨true, true⟩ oneTransformer.session ∧
      ∀ c l', oneTransformer.step ⟨true, true⟩ sampleGlobals c = some l' →
        Session.run ⟨true, true⟩ oneTransformer.session (c.ops sampleGlobals oneTransformer) =
          some l'.session :=
  library_refines_pools oneTransformer_reachable

/-- Ownership: the program holds each block once, each transformer is live once, two live
    transformers share no block, and every live transformer holds each of its blocks from the
    pool it came from. -/
theorem transformer_ownership (hl : l.Reachable cfg g) :
    (l.held.map Lease.data).Nodup ∧ l.live.Nodup ∧
      (∀ t ∈ l.live, ∀ t' ∈ l.live, t ≠ t' → (l.blocksOf t).Disjoint (l.blocksOf t')) ∧
      ∀ t ∈ l.live, l.Holds g t := by
  have hi := LibInv.of_reachable hl
  exact ⟨hi.pool.data_nodup, Lib.live_nodup hi, fun _ ht _ ht' => Lib.blocksOf_disjoint hi ht ht',
    hi.live⟩

theorem transformer_ownership_sample :
    (oneTransformer.held.map Lease.data).Nodup ∧ oneTransformer.live.Nodup ∧
      (∀ t ∈ oneTransformer.live, ∀ t' ∈ oneTransformer.live, t ≠ t' →
        (oneTransformer.blocksOf t).Disjoint (oneTransformer.blocksOf t')) ∧
      ∀ t ∈ oneTransformer.live, oneTransformer.Holds sampleGlobals t :=
  transformer_ownership oneTransformer_reachable

/-! ## Acquiring and releasing -/

/-- An acquire hands out a transformer that was not live, whole, made of blocks the program did
    not hold. -/
theorem acquire_transformer_fresh (hl : l.Reachable cfg g) {cap : UInt32} {code : Int}
    (h : l.step cfg g (.acquireTransformer cap code) = some l') :
    ∃ t, l'.live = t :: l.live ∧ t ∉ l.live ∧ l'.Holds g t ∧
      ∀ d ∈ l'.blocksOf t, d ∉ l.held.map Lease.data := by
  have hi := LibInv.of_reachable hl
  obtain ⟨t, r, hr, ht, -, -, hlive, hnd, -⟩ := Lib.acquire_fresh hi h
  have hdisj := List.disjoint_of_nodup_append hnd
  refine ⟨t, hlive, fun ht' => ?_, (hi.step h).live t (hlive ▸ List.mem_cons_self _ _), ?_⟩
  · exact hdisj (GoZLibTransformer.self_mem_blocks _ ht)
      (Lib.blocks_held hi (Lib.mem_blocks ht' (hi.live t ht').self_mem))
  · rw [Lib.blocksOf_eq hr]
    exact fun _ hd hd' => hdisj hd hd'

theorem acquire_transformer_fresh_sample :
    ∃ t, oneTransformer.live = t :: (Lib.start sampleSupply).2.live ∧
      t ∉ (Lib.start sampleSupply).2.live ∧ oneTransformer.Holds sampleGlobals t ∧
      ∀ d ∈ oneTransformer.blocksOf t, d ∉ (Lib.start sampleSupply).2.held.map Lease.data :=
  acquire_transformer_fresh ⟨sampleSupply, [], rfl, rfl⟩
    (rfl : (Lib.start sampleSupply).2.step ⟨true, true⟩ sampleGlobals (.acquireTransformer 512 0) =
      some oneTransformer)

/-- Releasing a transformer with a `NULL` state or work buffer faults. -/
theorem Lib.release_null (hi : LibInv cfg g l) {t : Ptr} {r : GoZLibTransformer}
    (hr : l.mem.transformers.get t = some r) (hnull : r.state = 0 ∨ r.workBuffer = 0) :
    l.step cfg g (.releaseTransformer t) = none :=
  Option.eq_none_iff_forall_not_mem.mpr fun _ h => by
    obtain ⟨-, m, e, -⟩ := Lib.step_releaseTransformer h
    obtain ⟨-, hs, hw⟩ := poolReleaseTransformer_nonnull hi.raw0 hr e
    exact absurd hnull (not_or.mpr ⟨hs, hw⟩)

/-- Along any run, a live transformer with a `NULL` state or work buffer stays live with the
    same payload. -/
theorem Lib.run_stuck {t : Ptr} {r : GoZLibTransformer} (hnull : r.state = 0 ∨ r.workBuffer = 0) :
    ∀ {l l' : Lib} {cs : List Call}, LibInv cfg g l → t ∈ l.live →
      l.mem.transformers.get t = some r → l.run cfg g cs = some l' →
      LibInv cfg g l' ∧ t ∈ l'.live ∧ l'.mem.transformers.get t = some r
  | _, _, [], hi, ht, hr, h => by cases h; exact ⟨hi, ht, hr⟩
  | _, _, _ :: _, hi, ht, hr, h => by
    obtain ⟨l₁, h₁, h₂⟩ := Option.bind_eq_some.mp h
    obtain ⟨hr₁, ht₁ | rfl⟩ := Lib.step_frame hi h₁ ht
    · exact Lib.run_stuck hnull (hi.step h₁) ht₁ (hr₁.trans hr) h₂
    · exact Option.noConfusion ((Lib.release_null hi hr hnull).symm.trans h₁)

/-- A transformer with a `NULL` state or work buffer is never released: its release faults, and
    along every run it stays live with the same payload and its blocks stay held. -/
theorem null_part_never_released (hl : l.Reachable cfg g) {t : Ptr} (ht : t ∈ l.live)
    {r : GoZLibTransformer} (hr : l.mem.transformers.get t = some r)
    (hnull : r.state = 0 ∨ r.workBuffer = 0) :
    l.step cfg g (.releaseTransformer t) = none ∧
      ∀ cs l', l.run cfg g cs = some l' → t ∈ l'.live ∧ l'.mem.transformers.get t = some r ∧
        ∀ d ∈ r.blocks t, d ∈ l'.held.map Lease.data := by
  have hi := LibInv.of_reachable hl
  refine ⟨Lib.release_null hi hr hnull, fun cs l' h => ?_⟩
  obtain ⟨hi', ht', hr'⟩ := Lib.run_stuck hnull hi ht hr h
  exact ⟨ht', hr', fun d hd => (Lib.blocksOf_held hi' ht').2 d (by rwa [Lib.blocksOf_eq hr'])⟩

theorem null_work_buffer_never_released :
    stuckTransformer.step ⟨false, true⟩ sampleGlobals (.releaseTransformer 120) = none ∧
      ∀ cs l', stuckTransformer.run ⟨false, true⟩ sampleGlobals cs = some l' →
        120 ∈ l'.live ∧ l'.mem.transformers.get 120 = some ⟨200, 168, 0, 0⟩ ∧
        ∀ d ∈ GoZLibTransformer.blocks ⟨200, 168, 0, 0⟩ 120, d ∈ l'.held.map Lease.data :=
  null_part_never_released stuckTransformer_reachable (List.mem_singleton_self _) rfl (.inr rfl)

end Gozlib.Library
