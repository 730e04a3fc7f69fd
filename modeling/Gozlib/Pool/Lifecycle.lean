import Gozlib.Pool.Frame

/-
  What the pools never give back.

  No pool call frees memory. `pool_mem_return` pushes a block on the free list of its pool,
  `pool_mem_acquire` pops one or allocates a new one, and `alloc_mem_pool` and
  `multipool_create` only add. So along every run of pool calls each raw block stays as
  `malloc` handed it out, each node keeps the block and the pool it was made for, each pool
  its block size and each multipool its array (`Heap.Retains`, `Session.run_retains`, from
  one lemma per call), and the number of blocks a pool has made only grows
  (`pools_never_shrink`). Memory goes back only in the teardown of `pool_mem_free_all`,
  which is no `Op`. An acquire that fails changes nothing but what `malloc` has still to
  answer (`failed_acquire_changes_nothing`).
-/

namespace Gozlib.Pool

/-! ## Retaining a heap -/

/-- Everything `h` holds is in `h'`: each raw block as it was, each node with its `data` and
    its `pool`, each pool with its block size, each multipool with its array. -/
structure Heap.Retains (h h' : Heap) : Prop where
  raws : ∀ a x, h.raws.get a = some x → h'.raws.get a = some x
  nodes : ∀ a n, h.nodes.get a = some n →
    ∃ n', h'.nodes.get a = some n' ∧ n'.data = n.data ∧ n'.pool = n.pool
  pools : ∀ q P, h.pools.get q = some P →
    ∃ P', h'.pools.get q = some P' ∧ P'.memSize = P.memSize
  multipools : ∀ m ps, h.multipools.get m = some ps → h'.multipools.get m = some ps

/-- An object stored at an address that was free hides none of the others. -/
theorem Store.get_cons_of_none {α : Type} {s : Store α} {a p : Ptr} {x y : α}
    (ha : s.get a = none) (hp : s.get p = some y) : Store.get ((a, x) :: s) p = some y :=
  (Store.get_cons_of_ne s x (Store.ne_of_get hp ha)).trans hp

namespace Heap.Retains

variable {h h₁ h₂ : Heap}

theorem refl (h : Heap) : h.Retains h :=
  ⟨fun _ _ => id, fun _ n hn => ⟨n, hn, rfl, rfl⟩, fun _ P hP => ⟨P, hP, rfl⟩,
    fun _ _ => id⟩

theorem trans (r₁ : h.Retains h₁) (r₂ : h₁.Retains h₂) : h.Retains h₂ where
  raws a x hx := r₂.raws a x (r₁.raws a x hx)
  nodes a n hn :=
    let ⟨n₁, hn₁, hd₁, hp₁⟩ := r₁.nodes a n hn
    let ⟨n₂, hn₂, hd₂, hp₂⟩ := r₂.nodes a n₁ hn₁
    ⟨n₂, hn₂, hd₂.trans hd₁, hp₂.trans hp₁⟩
  pools q P hP :=
    let ⟨P₁, hP₁, hs₁⟩ := r₁.pools q P hP
    let ⟨P₂, hP₂, hs₂⟩ := r₂.pools q P₁ hP₁
    ⟨P₂, hP₂, hs₂.trans hs₁⟩
  multipools m ps hm := r₂.multipools m ps (r₁.multipools m ps hm)

/-- Only `supply` moved. -/
theorem supply (h : Heap) (l : List Ptr) : h.Retains { h with supply := l } :=
  ⟨(refl h).raws, (refl h).nodes, (refl h).pools, (refl h).multipools⟩

/-- A new node and a new raw block, at addresses no object started at. -/
theorem block {a b : Ptr} (ha : h.used a = false) (hb : h.used b = false) (n : MemNode)
    (x : Nat × Ptr) (l : List Ptr) :
    h.Retains { h with nodes := (a, n) :: h.nodes, raws := (b, x) :: h.raws, supply := l } where
  raws _ _ hy := Store.get_cons_of_none (Heap.not_used hb).2.2.2 hy
  nodes _ m hm := ⟨m, Store.get_cons_of_none (Heap.not_used ha).1 hm, rfl, rfl⟩
  pools _ P hP := ⟨P, hP, rfl⟩
  multipools _ _ := id

/-- A new pool, at an address no object started at. -/
theorem pool {a : Ptr} (ha : h.used a = false) (P : MemPool) (l : List Ptr) :
    h.Retains { h with pools := (a, P) :: h.pools, supply := l } where
  raws _ _ := id
  nodes _ m hm := ⟨m, hm, rfl, rfl⟩
  pools _ P hP := ⟨P, Store.get_cons_of_none (Heap.not_used ha).2.1 hP, rfl⟩
  multipools _ _ := id

/-- A new multipool, at an address no multipool started at. -/
theorem multipool {a : Ptr} (ha : h.multipools.get a = none) (ps : List Ptr) (l : List Ptr) :
    h.Retains { h with supply := l, multipools := (a, ps) :: h.multipools } where
  raws _ _ := id
  nodes _ m hm := ⟨m, hm, rfl, rfl⟩
  pools _ P hP := ⟨P, hP, rfl⟩
  multipools _ _ hm := Store.get_cons_of_none ha hm

/-- A node's `next` rewritten. -/
theorem setNext (p x : Ptr) :
    h.Retains { h with nodes := h.nodes.modify p fun m => { m with next := x } } where
  raws _ _ := id
  nodes _ _ hn := Store.get_modify_next_of_get hn
  pools _ P hP := ⟨P, hP, rfl⟩
  multipools _ _ := id

/-- A pool's fields other than its block size rewritten. -/
theorem modifyPool {f : MemPool → MemPool} (hf : ∀ P, (f P).memSize = P.memSize) (q : Ptr) :
    h.Retains { h with pools := h.pools.modify q f } where
  raws _ _ := id
  nodes _ m hm := ⟨m, hm, rfl, rfl⟩
  pools p P hP := by
    rw [Store.get_modify]
    split_ifs with hpq
    · subst hpq; exact ⟨f P, by rw [hP, Option.map_some'], hf P⟩
    · exact ⟨P, hP, rfl⟩
  multipools _ _ := id

/-- The `track_pool_usage_*` counters. -/
theorem track {cfg : Config} {f : MemPool → MemPool} (hf : ∀ P, (f P).memSize = P.memSize)
    (q : Ptr) : h.Retains (trackPoolUsage cfg f q h) := by
  unfold trackPoolUsage
  split
  · exact modifyPool hf q
  · exact refl h

/-- The array of a multipool `h` did not have rewritten, after a heap that retains `h`. -/
theorem setEntries {m : Ptr} (r : h.Retains h₁) (hm : h.multipools.get m = none)
    (g : List Ptr → List Ptr) :
    h.Retains { h₁ with multipools := h₁.multipools.modify m g } where
  raws := r.raws
  nodes := r.nodes
  pools := r.pools
  multipools m' ps hps := by
    rw [Store.get_modify, if_neg (Store.ne_of_get hps hm)]
    exact r.multipools m' ps hps

/-- The blocks of each pool stay its blocks. -/
theorem nodesOf_subperm (r : h.Retains h₁) (hk : (h.nodes.map Prod.fst).Nodup)
    (hk₁ : (h₁.nodes.map Prod.fst).Nodup) (q : Ptr) :
    (h.nodes.nodesOf q).Subperm (h₁.nodes.nodesOf q) :=
  List.subperm_of_subset (Store.nodesOf_nodup hk q) fun a ha => by
    obtain ⟨n, hn, rfl⟩ := (Store.mem_nodesOf hk).mp ha
    obtain ⟨n₁, hn₁, -, hp⟩ := r.nodes a n hn
    exact (Store.mem_nodesOf hk₁).mpr ⟨n₁, hn₁, hp⟩

end Heap.Retains

/-! ## One lemma per call -/

section Calls

variable {cfg : Config} {q d : Ptr} {h h' : Heap}

open Heap.Retains

theorem poolMemTryAllocData_retains (e : poolMemTryAllocData cfg q h = .ok (d, h')) :
    h.Retains h' := by
  obtain ⟨P, -, ⟨-, hh⟩ | ⟨node, raw, s, -, hnu, -, -, hru, -, rfl⟩⟩ :=
    poolMemTryAllocData_ok e
  · rw [hh]; exact supply h _
  · exact (block hnu hru _ _ s).trans (track (by intro; rfl) q)

theorem poolMemAcquire_retains (e : poolMemAcquire cfg q h = .ok (d, h')) : h.Retains h' := by
  obtain ⟨-, P, -, ⟨-, e⟩ | ⟨-, n, -, -, rfl⟩⟩ := poolMemAcquire_ok e
  · exact poolMemTryAllocData_retains e
  · exact (modifyPool (by intro; rfl) q).trans (track (by intro; rfl) q)

theorem multipoolMemAcquire_retains {size : UInt32}
    (e : multipoolMemAcquire cfg q size h = .ok (d, h')) : h.Retains h' := by
  rcases multipoolMemAcquire_ok e with ⟨-, -, rfl⟩ | ⟨-, ps, -, e⟩
  · exact refl _
  · exact poolMemAcquire_retains e

theorem poolMemReturn_retains (e : poolMemReturn cfg d h = .ok h') : h.Retains h' := by
  obtain ⟨s, node, n, P, -, -, -, rfl⟩ := poolMemReturn_ok e
  exact (setNext node P.head).trans
    ((modifyPool (by intro; rfl) n.pool).trans (track (by intro; rfl) n.pool))

theorem allocMemPool_retains (size : UInt32) (h : Heap) : h.Retains (allocMemPool size h).2 := by
  rcases allocMemPool_cases size h with ⟨-, e⟩ | ⟨-, hu, e⟩ <;> rw [e]
  exacts [supply h _, pool hu _ _]

/-- Every heap the loop of `multipool_create` passes through retains `h`, when the
    multipool it fills is not one of `h`'s. -/
theorem multipoolCreateLoop_retains {m : Ptr} (hm : h.multipools.get m = none) :
    ∀ k i h₁, h.Retains h₁ → h.Retains (multipoolCreateLoop m k i h₁)
  | 0, _, _, r => r
  | k + 1, i, h₁, r => multipoolCreateLoop_retains hm k (i + 1) _
      ((r.trans (allocMemPool_retains _ h₁)).setEntries hm _)

theorem multipoolCreate_retains (h : Heap) : h.Retains (multipoolCreate h).2 := by
  obtain ⟨a, l, hm, ha⟩ := h.malloc_eq
  simp only [multipoolCreate, hm]
  split
  · exact supply h l
  · dsimp only
    have hn := (Heap.not_used (ha.resolve_left ‹_›).2).2.2.1
    exact multipoolCreateLoop_retains hn _ _ _ (multipool hn _ l)

end Calls

/-! ## Runs -/

section Runs

variable {cfg : Config}

theorem Session.acquired_eq_some {s s' : Session} {q : Ptr} {r : Except Fault (Ptr × Heap)}
    (h : s.acquired q r = some s') : ∃ d, r = .ok (d, s'.heap) := by
  rcases r with _ | ⟨d, h'⟩
  · cases h
  · cases h; exact ⟨d, rfl⟩

/-- What a step does to the heap: it is one pool call, which returned. -/
theorem Session.step_heap {s s' : Session} {op : Op} (h : Session.step cfg s op = some s') :
    (∃ size, op = .allocMemPool size ∧ s'.heap = (allocMemPool size s.heap).2) ∨
      (op = .multipoolCreate ∧ s'.heap = (multipoolCreate s.heap).2) ∨
      (∃ q d, op = .poolMemAcquire q ∧ poolMemAcquire cfg q s.heap = .ok (d, s'.heap)) ∨
      (∃ mp size d, op = .multipoolMemAcquire mp size ∧
        multipoolMemAcquire cfg mp size s.heap = .ok (d, s'.heap)) ∨
      ∃ data, op = .poolMemReturn data ∧ poolMemReturn cfg data s.heap = .ok s'.heap := by
  cases op with
  | allocMemPool size => cases h; exact .inl ⟨size, rfl, rfl⟩
  | multipoolCreate => cases h; exact .inr (.inl ⟨rfl, rfl⟩)
  | poolMemAcquire q =>
    obtain ⟨d, e⟩ := Session.acquired_eq_some h
    exact .inr (.inr (.inl ⟨q, d, rfl, e⟩))
  | multipoolMemAcquire m size =>
    obtain ⟨d, e⟩ := Session.acquired_eq_some h
    exact .inr (.inr (.inr (.inl ⟨m, size, d, rfl, e⟩)))
  | poolMemReturn data =>
    simp only [Session.step] at h
    split at h
    · cases h
    · split at h
      · cases h; exact .inr (.inr (.inr (.inr ⟨data, rfl, ‹_›⟩)))
      · cases h

/-- No pool call gives anything back. -/
theorem Session.step_retains {s s' : Session} {op : Op} (h : Session.step cfg s op = some s') :
    s.heap.Retains s'.heap := by
  rcases Session.step_heap h with ⟨size, -, e⟩ | ⟨-, e⟩ | ⟨q, d, -, e⟩ | ⟨m, size, d, -, e⟩ |
    ⟨data, -, e⟩
  · exact e ▸ allocMemPool_retains size s.heap
  · exact e ▸ multipoolCreate_retains s.heap
  · exact poolMemAcquire_retains e
  · exact multipoolMemAcquire_retains e
  · exact poolMemReturn_retains e

theorem Session.run_retains : ∀ {ops : List Op} {s s' : Session},
    Session.run cfg s ops = some s' → s.heap.Retains s'.heap
  | [], s, s', h => by cases h; exact .refl _
  | op :: ops, s, s', h => by
    obtain ⟨s₁, h₁, h₂⟩ := Option.bind_eq_some.mp h
    exact (Session.step_retains h₁).trans (Session.run_retains h₂)

/-- Along every run from a reachable state nothing is given back: each raw block stays as
    `malloc` handed it out, each node keeps its block and its pool, each pool its block size
    and each multipool its array, and the number of blocks each pool has made only grows. -/
theorem pools_never_shrink {s s' : Session} {ops : List Op} (hs : Session.Reachable cfg s)
    (hr : Session.run cfg s ops = some s') :
    s.heap.Retains s'.heap ∧
      ∀ q, (s.heap.nodes.nodesOf q).length ≤ (s'.heap.nodes.nodesOf q).length := by
  have hi := inv_of_reachable hs
  have r := Session.run_retains hr
  exact ⟨r, fun q => (r.nodesOf_subperm hi.keys (inv_run hi hr).keys q).length_le⟩

theorem pools_never_shrink_sample :
    ∃ s', Session.run ⟨true, true⟩ sampleSession [.poolMemReturn 15] = some s' ∧
      sampleSession.heap.Retains s'.heap ∧ ∀ q,
        (sampleSession.heap.nodes.nodesOf q).length ≤ (s'.heap.nodes.nodesOf q).length :=
  have hr : Session.run ⟨true, true⟩ sampleSession [.poolMemReturn 15] = some _ := rfl
  ⟨_, hr, pools_never_shrink sampleSession_reachable hr⟩

end Runs

/-! ## Failed calls -/

section Failed

variable {cfg : Config} {s : Session} {h' : Heap}

/-- `pool_mem_acquire` returns `NULL` only on its allocating path, after a failed `malloc`:
    a popped block's `data` lies past a raw block. Then only `supply` moved. -/
theorem Inv.poolMemAcquire_null (hi : Inv cfg s) {q : Ptr}
    (e : poolMemAcquire cfg q s.heap = .ok (0, h')) : h' = { s.heap with supply := h'.supply } := by
  obtain ⟨-, P, -, ⟨-, e⟩ | ⟨-, n, hn, hd, -⟩⟩ := poolMemAcquire_ok e
  · obtain ⟨P, -, ⟨-, hh⟩ | ⟨node, raw, l, -, -, -, -, -, hd, -⟩⟩ := poolMemTryAllocData_ok e
    · exact hh
    · simp [ptrdiffSize] at hd
  · obtain ⟨P', -, -, hlt, -⟩ := hi.nodes _ n hn
    rw [← hd] at hlt
    exact absurd hlt (Nat.not_lt_zero _)

theorem Inv.multipoolMemAcquire_null (hi : Inv cfg s) {mp : Ptr} {size : UInt32}
    (e : multipoolMemAcquire cfg mp size s.heap = .ok (0, h')) :
    h' = { s.heap with supply := h'.supply } := by
  rcases multipoolMemAcquire_ok e with ⟨-, -, rfl⟩ | ⟨-, ps, -, e⟩
  · rfl
  · exact hi.poolMemAcquire_null e

end Failed

/-- A failed acquire changes nothing but what `malloc` has still to answer: from a reachable
    state, when `pool_mem_acquire` or `multipool_mem_acquire` returns `NULL`, every node, pool,
    multipool and raw block is as it was. -/
theorem failed_acquire_changes_nothing {cfg : Config} {s : Session}
    (hs : Session.Reachable cfg s) :
    (∀ q h', poolMemAcquire cfg q s.heap = .ok (0, h') →
      h' = { s.heap with supply := h'.supply }) ∧
    ∀ mp size h', multipoolMemAcquire cfg mp size s.heap = .ok (0, h') →
      h' = { s.heap with supply := h'.supply } :=
  have hi := inv_of_reachable hs
  ⟨fun _ _ e => hi.poolMemAcquire_null e, fun _ _ _ e => hi.multipoolMemAcquire_null e⟩

/-- The empty pool of class `0` of `sampleSession`, with `malloc` out of answers. -/
theorem failed_acquire_sample :
    ∃ h', poolMemAcquire ⟨true, true⟩ 2 sampleSession.heap = .ok (0, h') ∧
      h' = { sampleSession.heap with supply := h'.supply } :=
  have e : poolMemAcquire ⟨true, true⟩ 2 sampleSession.heap = .ok (0, _) := rfl
  ⟨_, e, (failed_acquire_changes_nothing sampleSession_reachable).1 2 _ e⟩

end Gozlib.Pool
