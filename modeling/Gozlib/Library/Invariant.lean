import Gozlib.Library.Machine
import Mathlib.Data.List.Pairwise

/-
  Every library call keeps `LibInv`, and `create_mem_pools` sets it up, so it holds all along
  every run of a program.

  * `LibInv.step`: by `step_refines` a call keeps the pool invariant; the pool calls it makes
    keep `NULL` free of raw blocks (`Lib.step_keeps`); a call on the program's own blocks
    leaves the transformers whole (`LibInv.of_same`); an acquire adds a whole transformer made
    of blocks no one held (`LibInv.acquireTransformer`); a release drops one transformer and
    the leases of its blocks only (`LibInv.releaseTransformer`).
  * `LibInv.start`: the state `create_mem_pools` leaves on an empty heap.
  * `Lib.run_refines`: along a run the invariant holds and the pool model runs alongside, so
    a reachable library state satisfies the invariant (`LibInv.of_reachable`) and is a
    reachable state of the pool model (`Lib.session_reachable`).
-/

namespace Gozlib.Library

open Gozlib.Pool

/-! ## Blocks of live transformers -/

namespace Lib

variable {cfg : Config} {g : Globals} {l l' : Lib} {t d : Ptr}

theorem mem_blocks (ht : t ∈ l.live) (hd : d ∈ l.blocksOf t) : d ∈ l.blocks :=
  List.mem_flatMap.mpr ⟨t, ht, hd⟩

/-- Every block of a live transformer is held. -/
theorem blocks_held (hi : LibInv cfg g l) (hd : d ∈ l.blocks) : d ∈ l.held.map Lease.data := by
  obtain ⟨t, ht, hd⟩ := List.mem_flatMap.mp hd
  exact (blocksOf_held hi ht).2 d hd

/-- A transformer is live once: its own block would be counted twice. -/
theorem live_nodup (hi : LibInv cfg g l) : l.live.Nodup :=
  (List.nodup_flatMap.mp hi.blocks).2.imp_of_mem fun ha _ hdisj he =>
    hdisj (hi.live _ ha).self_mem (he ▸ (hi.live _ ha).self_mem)

/-- Two live transformers share no block. -/
theorem blocksOf_disjoint (hi : LibInv cfg g l) {t t' : Ptr} (ht : t ∈ l.live)
    (ht' : t' ∈ l.live) (hne : t ≠ t') : (l.blocksOf t).Disjoint (l.blocksOf t') :=
  (List.nodup_flatMap.mp hi.blocks).2.forall (fun _ _ => List.disjoint_symm) ht ht' hne

end Lib

theorem GoZLibTransformer.self_mem_blocks (r : GoZLibTransformer) {t : Ptr} (ht : t ≠ 0) :
    t ∈ r.blocks t := by
  simp [GoZLibTransformer.blocks, ht]

/-! ## One call -/

section Step

variable {cfg : Config} {g : Globals} {l l' : Lib}

theorem Call.ops_ne_create (c : Call) (l : Lib) : ∀ op ∈ c.ops g l, op ≠ .multipoolCreate := by
  cases c <;> simp [Call.ops]

/-- The pool calls of a library call keep the multipools and `NULL` free of raw blocks. -/
theorem Lib.step_keeps {c : Call} (hi : LibInv cfg g l) (h : l.step cfg g c = some l') :
    l.mem.heap.Keeps l'.mem.heap :=
  Session.run_keeps (c.ops_ne_create l) (step_refines hi h)

/-- A call that leaves the transformers and the live ones alone, and keeps every block of a
    live transformer held, keeps the invariant. -/
theorem LibInv.of_same (hi : LibInv cfg g l) (hpool : Inv cfg l'.session)
    (hk : l.mem.heap.Keeps l'.mem.heap) (htr : l'.mem.transformers = l.mem.transformers)
    (hlive : l'.live = l.live) (hheld : ∀ e ∈ l.held, e.data ∈ l.blocks → e ∈ l'.held) :
    LibInv cfg g l' where
  pool := hpool
  raw0 := hk.raw0 hi.raw0
  live t ht := (hi.live t (hlive ▸ ht)).frame (by rw [htr]) hk.multipools fun e he hd =>
    hheld e he (Lib.mem_blocks (hlive ▸ ht) hd)
  blocks := by
    have hb : l'.blocksOf = l.blocksOf := funext fun t => by simp only [Lib.blocksOf, htr]
    simpa only [Lib.blocks, hlive, hb] using hi.blocks

/-- An acquire puts in front of the live transformers a new one, `t`, made of blocks no one
    held, and leaves the payloads of the live ones alone. -/
theorem Lib.acquire_fresh {cap : UInt32} {code : Int} (hi : LibInv cfg g l)
    (h : l.step cfg g (.acquireTransformer cap code) = some l') :
    ∃ t r, l'.mem.transformers.get t = some r ∧ t ≠ 0 ∧ r.zs ≠ 0 ∧
      l'.held = (r.parts g l'.mem.heap t).map (fun p => ⟨p.1, l'.mem.heap.memnodeOf p.1, p.2⟩) ++
        l.held ∧
      l'.live = t :: l.live ∧ (r.blocks t ++ l.held.map Lease.data).Nodup ∧
      ∀ t' ∈ l.live, l'.mem.transformers.get t' = l.mem.transformers.get t' := by
  have hpool := inv_run hi.pool (step_refines hi h)
  obtain ⟨t, m, r, e, hr, rfl⟩ := Lib.step_acquireTransformer h
  obtain ⟨_, _, _, _, _, _, -, -, ht, -, -, hz, htr⟩ := poolAllocTransformer_ok e
  -- the new blocks are held now, so they were not held before
  have hnd : (r.blocks t ++ l.held.map Lease.data).Nodup := by
    have := hpool.data_nodup
    simp only [Lib.session, List.map_append, List.map_map] at this
    rwa [← GoZLibTransformer.map_fst_parts _ g m.heap]
  rw [htr, Store.get_cons, if_pos rfl, Option.some.injEq] at hr
  subst hr
  refine ⟨t, _, by rw [htr, Store.get_cons, if_pos rfl], ht, hz, rfl, rfl, hnd, fun t' ht' => ?_⟩
  have hne : t' ≠ t := by
    rintro rfl
    exact List.disjoint_of_nodup_append hnd (GoZLibTransformer.self_mem_blocks _ ht)
      (Lib.blocks_held hi (Lib.mem_blocks ht' (hi.live t' ht').self_mem))
  show m.transformers.get t' = _
  rw [htr, Store.get_cons_of_ne _ _ hne, Store.get_erase, if_neg hne]

/-- An acquire adds a whole transformer whose blocks no one held. -/
theorem LibInv.acquireTransformer {cap : UInt32} {code : Int} (hi : LibInv cfg g l)
    (h : l.step cfg g (.acquireTransformer cap code) = some l') : LibInv cfg g l' := by
  have hk := Lib.step_keeps hi h
  obtain ⟨t, r, hr, ht, hz, hheld, hlive, hnd, hold⟩ := Lib.acquire_fresh hi h
  refine ⟨inv_run hi.pool (step_refines hi h), hk.raw0 hi.raw0, fun t' ht' => ?_, ?_⟩
  · rw [hlive] at ht'
    rcases List.mem_cons.mp ht' with rfl | ht'
    · exact ⟨r, hr, ht, hz, fun p hp =>
        ⟨_, hheld ▸ List.mem_append_left _ (List.mem_map_of_mem _ hp), rfl, rfl⟩⟩
    · exact (hi.live t' ht').frame (hold t' ht') hk.multipools fun e he _ =>
        hheld ▸ List.mem_append_right _ he
  · obtain ⟨hnd₁, -, hdisj⟩ := List.nodup_append.mp hnd
    have hb : l.live.flatMap l'.blocksOf = l.blocks :=
      List.flatMap_congr fun t' ht' => by simp only [Lib.blocksOf, hold t' ht']
    rw [Lib.blocks, hlive, List.flatMap_cons, hb, Lib.blocksOf_eq hr]
    exact List.nodup_append.mpr ⟨hnd₁, hi.blocks, fun d hd hd' => hdisj hd (Lib.blocks_held hi hd')⟩

/-- A release drops one transformer and the leases of its blocks only. -/
theorem LibInv.releaseTransformer {t : Ptr} (hi : LibInv cfg g l)
    (h : l.step cfg g (.releaseTransformer t) = some l') : LibInv cfg g l' := by
  have hpool := inv_run hi.pool (step_refines hi h)
  have hk := Lib.step_keeps hi h
  obtain ⟨hlive, m, e, rfl⟩ := Lib.step_releaseTransformer h
  obtain ⟨r, -, h', -, rfl⟩ := poolReleaseTransformer_eq_ok.mp e
  refine ⟨hpool, hk.raw0 hi.raw0, fun t' ht' => ?_, ?_⟩
  · obtain ⟨hne, ht'⟩ := (Lib.live_nodup hi).mem_erase_iff.mp ht'
    exact (hi.live t' ht').frame rfl hk.multipools fun e he hd =>
      List.mem_filter.mpr ⟨he, decide_eq_true fun hd' =>
        Lib.blocksOf_disjoint hi ht' hlive hne hd hd'⟩
  · have hperm := (List.perm_cons_erase hlive).flatMap_right l.blocksOf
    rw [List.flatMap_cons] at hperm
    exact (hperm.nodup_iff.mp hi.blocks).of_append_right

/-- Every call keeps the invariant. -/
theorem LibInv.step {c : Call} (hi : LibInv cfg g l) (h : l.step cfg g c = some l') :
    LibInv cfg g l' := by
  have hpool := inv_run hi.pool (step_refines hi h)
  have hk := Lib.step_keeps hi h
  cases c with
  | poolAlloc size =>
    obtain ⟨htr, hlive, hheld⟩ := Lib.acquired_shape h
    exact hi.of_same hpool hk htr hlive fun e he _ => hheld e he
  | poolAcquireZstreamState =>
    obtain ⟨htr, hlive, hheld⟩ := Lib.acquired_shape h
    exact hi.of_same hpool hk htr hlive fun e he _ => hheld e he
  | poolFree data =>
    obtain ⟨htr, hlive, hheld⟩ := Lib.returned_shape h
    exact hi.of_same hpool hk htr hlive hheld
  | poolReleaseZstreamState state =>
    obtain ⟨htr, hlive, hheld⟩ := Lib.returned_shape h
    exact hi.of_same hpool hk htr hlive hheld
  | acquireTransformer cap code => exact hi.acquireTransformer h
  | releaseTransformer t => exact hi.releaseTransformer h
  | resetTransformer t =>
    simp only [Lib.step] at h
    split at h
    · cases h; exact hi
    · cases h

/-- A call leaves the payload of every live transformer alone, and only its release ends it. -/
theorem Lib.step_frame {c : Call} (hi : LibInv cfg g l) (h : l.step cfg g c = some l') {t : Ptr}
    (ht : t ∈ l.live) :
    l'.mem.transformers.get t = l.mem.transformers.get t ∧
      (t ∈ l'.live ∨ c = .releaseTransformer t) := by
  cases c with
  | poolAlloc size =>
    obtain ⟨htr, hlive, -⟩ := Lib.acquired_shape h
    exact ⟨by rw [htr], .inl (hlive ▸ ht)⟩
  | poolAcquireZstreamState =>
    obtain ⟨htr, hlive, -⟩ := Lib.acquired_shape h
    exact ⟨by rw [htr], .inl (hlive ▸ ht)⟩
  | poolFree data =>
    obtain ⟨htr, hlive, -⟩ := Lib.returned_shape h
    exact ⟨by rw [htr], .inl (hlive ▸ ht)⟩
  | poolReleaseZstreamState state =>
    obtain ⟨htr, hlive, -⟩ := Lib.returned_shape h
    exact ⟨by rw [htr], .inl (hlive ▸ ht)⟩
  | acquireTransformer cap code =>
    obtain ⟨_, _, -, -, -, -, hlive, -, hold⟩ := Lib.acquire_fresh hi h
    exact ⟨hold t ht, .inl (hlive ▸ List.mem_cons_of_mem _ ht)⟩
  | releaseTransformer t' =>
    obtain ⟨-, m, e, rfl⟩ := Lib.step_releaseTransformer h
    obtain ⟨-, -, h', -, rfl⟩ := poolReleaseTransformer_eq_ok.mp e
    by_cases htt : t = t'
    · exact ⟨rfl, .inr (htt ▸ rfl)⟩
    · exact ⟨rfl, .inl ((List.mem_erase_of_ne htt).mpr ht)⟩
  | resetTransformer t' =>
    simp only [Lib.step] at h
    split at h
    · cases h; exact ⟨rfl, .inl ht⟩
    · cases h

end Step

/-! ## Runs -/

section Runs

variable {cfg : Config} {g : Globals}

/-- `create_mem_pools` is `multipool_create` and three `alloc_mem_pool`s. -/
theorem createMemPools_run (h : Heap) (held : List Lease) :
    Session.run cfg ⟨h, held⟩ [.multipoolCreate, .allocMemPool sizeofZStreamState,
      .allocMemPool sizeofZStream, .allocMemPool sizeofGoZLibTransformer] =
      some ⟨(createMemPools h).2, held⟩ := rfl

theorem createMemPools_raws (h : Heap) : (createMemPools h).2.raws = h.raws := by
  simp only [createMemPools, allocMemPool_raws, multipoolCreate_raws]

/-- The state `create_mem_pools` leaves on an empty heap. -/
theorem LibInv.start (supply : List Ptr) :
    LibInv cfg (Lib.start supply).1 (Lib.start supply).2 where
  pool := inv_run (inv_init supply) (createMemPools_run _ _)
  raw0 := by
    show (createMemPools _).2.raws.get 0 = none
    rw [createMemPools_raws]
    rfl
  live _ ht := nomatch ht
  blocks := List.nodup_nil

theorem Session.run_append (s : Session) (ops ops' : List Op) :
    Session.run cfg s (ops ++ ops') = (Session.run cfg s ops).bind (Session.run cfg · ops') := by
  induction ops generalizing s with
  | nil => rfl
  | cons op ops ih =>
    simp only [List.cons_append, Session.run]
    cases Session.step cfg s op <;> simp [ih]

/-- Along a run the invariant holds and the pool model makes the same run. -/
theorem Lib.run_refines : ∀ {l l' : Lib} {cs : List Call}, LibInv cfg g l →
    l.run cfg g cs = some l' →
    LibInv cfg g l' ∧ ∃ ops, Session.run cfg l.session ops = some l'.session
  | _, _, [], hi, h => by cases h; exact ⟨hi, [], rfl⟩
  | l, _, c :: cs, hi, h => by
    obtain ⟨l₁, h₁, h₂⟩ := Option.bind_eq_some.mp h
    obtain ⟨hi', ops, hrun⟩ := Lib.run_refines (hi.step h₁) h₂
    exact ⟨hi', c.ops g l ++ ops, by rw [Session.run_append, step_refines hi h₁]; exact hrun⟩

/-- A run keeps the multipools and `NULL` free of raw blocks. -/
theorem Lib.run_keeps : ∀ {l l' : Lib} {cs : List Call}, LibInv cfg g l →
    l.run cfg g cs = some l' → l.mem.heap.Keeps l'.mem.heap
  | _, _, [], _, h => by cases h; exact .refl _
  | _, _, _ :: _, hi, h => by
    obtain ⟨l₁, h₁, h₂⟩ := Option.bind_eq_some.mp h
    exact (Lib.step_keeps hi h₁).trans (Lib.run_keeps (hi.step h₁) h₂)

theorem LibInv.of_reachable {l : Lib} (hl : l.Reachable cfg g) : LibInv cfg g l := by
  obtain ⟨supply, calls, rfl, hrun⟩ := hl
  exact (Lib.run_refines (LibInv.start supply) hrun).1

/-- The pool model reaches the pool view of every state a program reaches. -/
theorem Lib.session_reachable {l : Lib} (hl : l.Reachable cfg g) :
    Session.Reachable cfg l.session := by
  obtain ⟨supply, calls, rfl, hrun⟩ := hl
  obtain ⟨-, ops, hops⟩ := Lib.run_refines (LibInv.start supply) hrun
  refine ⟨supply, [.multipoolCreate, .allocMemPool sizeofZStreamState,
    .allocMemPool sizeofZStream, .allocMemPool sizeofGoZLibTransformer] ++ ops, ?_⟩
  rw [Session.run_append, createMemPools_run]
  exact hops

end Runs

end Gozlib.Library
