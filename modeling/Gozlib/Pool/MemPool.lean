import Gozlib.Pool.FreeList

/-
  The single-size pool of `dyn_mem_pool.h`: `track_pool_usage_*`, `get_memnode_in_data`,
  `alloc_poolable_mem`, `alloc_mem_pool`, `pool_mem_try_alloc_data`, `pool_mem_acquire`
  and `pool_mem_return`, as functions of the heap.

  These are the calls of a single thread. In `pool_mem_acquire` and `pool_mem_return` the
  compare-and-swap then sees the `head` it has just loaded, so the retry loop runs once (a
  spurious failure of the weak CAS repeats the same reads and writes nothing);
  `Gozlib.Pool.Concurrent` models the loops step by step and shows that a thread running
  alone computes these functions.

  Each function has one spec lemma (`*_ok`) that says everything a successful call did;
  later modules use the spec lemma and never unfold the function.
-/

namespace Gozlib.Pool

variable (cfg : Config)

/-- The three `track_pool_usage_*` helpers: one atomic update of a counter of `pool`,
    compiled in only with `TRACK_POOL_USAGE`. -/
def trackPoolUsage (f : MemPool → MemPool) (pool : Ptr) (h : Heap) : Heap :=
  if cfg.trackPoolUsage then { h with pools := h.pools.modify pool f } else h

/-- `track_pool_usage_allocs`. -/
def trackPoolUsageAllocs (pool : Ptr) (h : Heap) : Heap :=
  trackPoolUsage cfg (fun P => { P with numAllocs := P.numAllocs + 1 }) pool h

/-- `track_pool_usage_returned`. -/
def trackPoolUsageReturned (pool : Ptr) (h : Heap) : Heap :=
  trackPoolUsage cfg (fun P => { P with numAvailable := P.numAvailable + 1 }) pool h

/-- `track_pool_usage_memnode_unavailable`. -/
def trackPoolUsageMemnodeUnavailable (pool : Ptr) (h : Heap) : Heap :=
  trackPoolUsage cfg (fun P => { P with numAvailable := P.numAvailable - 1 }) pool h

/-- `get_memnode_in_data`: the word just before `data`, the first word of the raw block. -/
def getMemnodeInData (data : Ptr) (h : Heap) : Except Fault Ptr := do
  cassert cfg (data != 0) "data != NULL"
  let (_, node) ← deref (h.raws.get (data - ptrdiffSize))
  return node

/-- `alloc_poolable_mem`: a node and a raw block of `mem_size + sizeof (ptrdiff_t)` bytes
    whose first word holds the node; the node's `data` is the byte after that word. -/
def allocPoolableMem (pool : Ptr) (h : Heap) : Except Fault (Ptr × Heap) := do
  cassert cfg (pool != 0) "pool != NULL"
  let P ← deref (h.pools.get pool)
  cassert cfg (P.memSize != 0) "pool->mem_size != 0"
  let (node, h) := h.malloc
  if node = 0 then return (0, h)
  -- `node->next = NULL`
  let h := { h with nodes := (node, ⟨0, 0, 0⟩) :: h.nodes }
  let (ptrData, h) := h.malloc
  -- `free(node)`
  if ptrData = 0 then return (0, { h with nodes := h.nodes.erase node })
  -- `ptr_data[0] = (ptrdiff_t) node`
  let h := { h with raws := (ptrData, (P.memSize.toNat + ptrdiffSize, node)) :: h.raws }
  -- `node->data = ptr_data + 1; node->pool = pool`
  let h := { h with nodes := h.nodes.modify node fun n =>
    { n with data := ptrData + ptrdiffSize, pool := pool } }
  return (node, h)

/-- `alloc_mem_pool`: a zeroed `struct MemPool` with `mem_size = size`, or `NULL`. -/
def allocMemPool (size : UInt32) (h : Heap) : Ptr × Heap :=
  let (pool, h) := h.malloc
  if pool = 0 then (0, h) else (pool, { h with pools := (pool, ⟨0, size, 0, 0⟩) :: h.pools })

/-- `pool_mem_try_alloc_data`. -/
def poolMemTryAllocData (pool : Ptr) (h : Heap) : Except Fault (Ptr × Heap) := do
  cassert cfg (pool != 0) "pool != NULL"
  let (node, h) ← allocPoolableMem cfg pool h
  if node = 0 then return (0, h)
  let h := trackPoolUsageAllocs cfg pool h
  let n ← deref (h.nodes.get node)
  return (n.data, h)

/-- `pool_mem_acquire`, the loop's successful iteration: pop the head, or allocate when
    the free list is empty. -/
def poolMemAcquire (pool : Ptr) (h : Heap) : Except Fault (Ptr × Heap) := do
  cassert cfg (pool != 0) "pool != NULL"
  let P ← deref (h.pools.get pool)
  if P.head = 0 then poolMemTryAllocData cfg pool h
  else
    let n ← deref (h.nodes.get P.head)
    let h := { h with pools := h.pools.modify pool fun P => { P with head := n.next } }
    return (n.data, trackPoolUsageMemnodeUnavailable cfg pool h)

/-- `pool_mem_return`, the loop's successful iteration: push the node found in front of
    `data` on the pool its `pool` field names. -/
def poolMemReturn (data : Ptr) (h : Heap) : Except Fault Heap := do
  cassert cfg (data != 0) "data != NULL"
  let newHead ← getMemnodeInData cfg data h
  let n ← deref (h.nodes.get newHead)
  let pool := n.pool
  let P ← deref (h.pools.get pool)
  let h := { h with nodes := h.nodes.modify newHead fun n => { n with next := P.head } }
  let h := { h with pools := h.pools.modify pool fun P => { P with head := newHead } }
  return trackPoolUsageReturned cfg pool h

end Gozlib.Pool

namespace Gozlib.Pool

variable {cfg : Config}

/-! ## Spec lemmas -/

theorem trackPoolUsage_eq (f : MemPool → MemPool) (pool : Ptr) (h : Heap) :
    trackPoolUsage cfg f pool h =
      { h with pools := if cfg.trackPoolUsage then h.pools.modify pool f else h.pools } := by
  unfold trackPoolUsage; split <;> rfl

section Track

variable (f : MemPool → MemPool) (pool : Ptr) (h : Heap)

@[simp] theorem trackPoolUsage_nodes : (trackPoolUsage cfg f pool h).nodes = h.nodes := by
  simp [trackPoolUsage_eq]

@[simp] theorem trackPoolUsage_raws : (trackPoolUsage cfg f pool h).raws = h.raws := by
  simp [trackPoolUsage_eq]

@[simp] theorem trackPoolUsage_multipools :
    (trackPoolUsage cfg f pool h).multipools = h.multipools := by
  simp [trackPoolUsage_eq]

@[simp] theorem trackPoolUsage_supply : (trackPoolUsage cfg f pool h).supply = h.supply := by
  simp [trackPoolUsage_eq]

@[simp] theorem trackPoolUsage_pools_get (p : Ptr) :
    (trackPoolUsage cfg f pool h).pools.get p =
      if p = pool ∧ cfg.trackPoolUsage = true then (h.pools.get pool).map f
      else h.pools.get p := by
  by_cases hp : p = pool <;> by_cases ht : cfg.trackPoolUsage = true <;>
    simp [trackPoolUsage_eq, hp, ht]

/-- The counters never change a pool's block size. -/
theorem trackPoolUsage_sizes (hf : ∀ P, (f P).memSize = P.memSize) (p : Ptr) :
    ((trackPoolUsage cfg f pool h).pools.get p).map MemPool.memSize =
      (h.pools.get p).map MemPool.memSize := by
  rw [trackPoolUsage_pools_get]
  split_ifs with hp
  · rw [hp.1, Option.map_map]; exact Option.map_congr fun P _ => hf P
  · rfl

end Track

theorem getMemnodeInData_ok {data node : Ptr} {h : Heap}
    (e : getMemnodeInData cfg data h = .ok node) :
    (cfg.assertions = true → data ≠ 0) ∧ ∃ s, h.raws.get (data - ptrdiffSize) = some (s, node) := by
  simp only [getMemnodeInData, bind_eq_ok, cassert_eq_ok, map_eq_ok, deref_eq_ok, pure_eq_ok] at e
  obtain ⟨_, h0, ⟨s, w⟩, hr, rfl⟩ := e
  exact ⟨by simpa using h0, s, hr⟩

/-- `alloc_poolable_mem` failed and only moved `supply`, or it stored a fresh node and a
    fresh raw block of `mem_size + 8` bytes whose first word is the node. -/
theorem allocPoolableMem_ok {pool node : Ptr} {h h' : Heap}
    (e : allocPoolableMem cfg pool h = .ok (node, h')) :
    ∃ P, h.pools.get pool = some P ∧
      ((node = 0 ∧ h' = { h with supply := h'.supply }) ∨
       (node ≠ 0 ∧ h.used node = false ∧ ∃ d, d ≠ 0 ∧ d ≠ node ∧ h.used d = false ∧
         h' = { h with nodes := (node, ⟨0, d + ptrdiffSize, pool⟩) :: h.nodes,
                       raws := (d, (P.memSize.toNat + ptrdiffSize, node)) :: h.raws,
                       supply := h'.supply })) := by
  simp only [allocPoolableMem, bind_eq_ok, cassert_eq_ok, deref_eq_ok] at e
  obtain ⟨_, -, P, hP, _, -, e⟩ := e
  refine ⟨P, hP, ?_⟩
  obtain ⟨a, s, hm, ha⟩ := h.malloc_eq
  rcases ha with rfl | ⟨ha0, hau⟩
  · simp [hm, pure_eq_ok] at e
    exact .inl ⟨e.1.symm, by rw [← e.2]⟩
  · obtain ⟨b, s2, hm2, hb⟩ :=
      Heap.malloc_eq { h with nodes := (a, ⟨0, 0, 0⟩) :: h.nodes, supply := s }
    have hfresh := Heap.not_used hau
    simp [hm, hm2, ha0, pure_eq_ok] at e
    rcases hb with rfl | ⟨hb0, hbu⟩
    · simp [pure_eq_ok] at e
      refine .inl ⟨e.1.symm, ?_⟩
      rw [← e.2]
      simp [Store.erase_of_get_none hfresh.1]
    · have hbf := Heap.not_used hbu
      have hba : b ≠ a := by rintro rfl; simp at hbf
      simp only [Store.get_cons, hba, if_false] at hbf
      simp [hb0, pure_eq_ok, Store.modify_of_get_none hfresh.1] at e
      obtain ⟨rfl, rfl⟩ := e
      exact .inr ⟨ha0, hau, b, hb0, hba, by simp [Heap.used, hbf], rfl⟩

/-- `alloc_mem_pool` failed, or it stored a fresh empty pool of block size `size`. -/
theorem allocMemPool_cases (size : UInt32) (h : Heap) :
    ((allocMemPool size h).1 = 0 ∧
        (allocMemPool size h).2 = { h with supply := (allocMemPool size h).2.supply }) ∨
      ((allocMemPool size h).1 ≠ 0 ∧ h.used (allocMemPool size h).1 = false ∧
        (allocMemPool size h).2 = { h with
          pools := ((allocMemPool size h).1, ⟨0, size, 0, 0⟩) :: h.pools,
          supply := (allocMemPool size h).2.supply }) := by
  obtain ⟨a, s, hm, ha⟩ := h.malloc_eq
  rcases ha with rfl | ⟨ha0, hau⟩
  · simp [allocMemPool, hm]
  · simp [allocMemPool, hm, ha0, hau]

/-- `pool_mem_try_alloc_data`: `NULL` with only `supply` moved, or the `data` of a fresh
    block, counted in `num_allocs`. -/
theorem poolMemTryAllocData_ok {pool d : Ptr} {h h' : Heap}
    (e : poolMemTryAllocData cfg pool h = .ok (d, h')) :
    ∃ P, h.pools.get pool = some P ∧
      ((d = 0 ∧ h' = { h with supply := h'.supply }) ∨
       (∃ node raw s, node ≠ 0 ∧ h.used node = false ∧ raw ≠ 0 ∧ raw ≠ node ∧
         h.used raw = false ∧ d = raw + ptrdiffSize ∧
         h' = trackPoolUsageAllocs cfg pool { h with
           nodes := (node, ⟨0, raw + ptrdiffSize, pool⟩) :: h.nodes,
           raws := (raw, (P.memSize.toNat + ptrdiffSize, node)) :: h.raws,
           supply := s })) := by
  simp only [poolMemTryAllocData, bind_eq_ok, cassert_eq_ok] at e
  obtain ⟨_, -, ⟨node, h1⟩, e1, e⟩ := e
  obtain ⟨P, hP, ⟨rfl, hh1⟩ | ⟨hn0, hnu, raw, hr0, hrn, hru, hh1⟩⟩ := allocPoolableMem_ok e1
  · simp [pure_eq_ok] at e
    obtain ⟨rfl, rfl⟩ := e
    exact ⟨P, hP, .inl ⟨rfl, hh1⟩⟩
  · rw [hh1] at e
    simp [hn0, trackPoolUsageAllocs, trackPoolUsage_eq, pure_eq_ok] at e
    obtain ⟨rfl, rfl⟩ := e
    exact ⟨P, hP, .inr ⟨node, raw, h1.supply, hn0, hnu, hr0, hrn, hru, rfl,
      by simp [trackPoolUsageAllocs, trackPoolUsage_eq]⟩⟩

/-- `pool_mem_try_alloc_data` when `malloc` answers two unused addresses. -/
theorem poolMemTryAllocData_fresh {pool a b : Ptr} {rest : List Ptr} {h : Heap} {P : MemPool}
    (hp0 : pool ≠ 0) (hP : h.pools.get pool = some P) (hsz : P.memSize ≠ 0)
    (hs : h.supply = a :: b :: rest) (ha0 : a ≠ 0) (hau : h.used a = false) (hb0 : b ≠ 0)
    (hba : b ≠ a) (hbu : h.used b = false) :
    poolMemTryAllocData cfg pool h = .ok (b + ptrdiffSize, trackPoolUsageAllocs cfg pool { h with
      nodes := (a, ⟨0, b + ptrdiffSize, pool⟩) :: h.nodes,
      raws := (b, (P.memSize.toNat + ptrdiffSize, a)) :: h.raws, supply := rest }) := by
  have hm1 := Heap.malloc_of_supply hs ha0 hau
  have hm2 := Heap.malloc_of_supply
    (h := { h with nodes := (a, ⟨0, 0, 0⟩) :: h.nodes, supply := b :: rest })
    rfl hb0 (by simpa [Heap.used, hba] using hbu)
  simp [poolMemTryAllocData, allocPoolableMem, cassert, hp0, hP, hsz, deref, bind, Except.bind,
    pure, Except.pure, hm1, hm2, ha0, hb0, Store.modify_of_get_none (Heap.not_used hau).1,
    trackPoolUsageAllocs, trackPoolUsage_eq]

/-- The slow path of `pool_mem_acquire`: an empty free list allocates. -/
theorem poolMemAcquire_empty {pool : Ptr} {h : Heap} {P : MemPool} (hp0 : pool ≠ 0)
    (hP : h.pools.get pool = some P) (hh : P.head = 0) :
    poolMemAcquire cfg pool h = poolMemTryAllocData cfg pool h := by
  simp [poolMemAcquire, cassert, hp0, hP, deref, hh, bind, Except.bind]

/-- The fast path of `pool_mem_acquire`: a non-empty free list pops its head. -/
theorem poolMemAcquire_pop {pool : Ptr} {h : Heap} {P : MemPool} {n : MemNode}
    (hp0 : pool ≠ 0) (hP : h.pools.get pool = some P) (hh : P.head ≠ 0)
    (hn : h.nodes.get P.head = some n) :
    poolMemAcquire cfg pool h = .ok (n.data, trackPoolUsageMemnodeUnavailable cfg pool
      { h with pools := h.pools.modify pool fun P => { P with head := n.next } }) := by
  simp [poolMemAcquire, cassert, hp0, hP, deref, hh, hn, bind, Except.bind, pure, Except.pure]

/-- `pool_mem_acquire` popped the head, or found the list empty and went to
    `pool_mem_try_alloc_data`. -/
theorem poolMemAcquire_ok {pool d : Ptr} {h h' : Heap}
    (e : poolMemAcquire cfg pool h = .ok (d, h')) :
    (cfg.assertions = true → pool ≠ 0) ∧ ∃ P, h.pools.get pool = some P ∧
      ((P.head = 0 ∧ poolMemTryAllocData cfg pool h = .ok (d, h')) ∨
       (P.head ≠ 0 ∧ ∃ n, h.nodes.get P.head = some n ∧ d = n.data ∧
         h' = trackPoolUsageMemnodeUnavailable cfg pool
           { h with pools := h.pools.modify pool fun P => { P with head := n.next } })) := by
  simp only [poolMemAcquire, bind_eq_ok, cassert_eq_ok, deref_eq_ok] at e
  obtain ⟨_, h0, P, hP, e⟩ := e
  refine ⟨by simpa using h0, P, hP, ?_⟩
  split at e
  · exact .inl ⟨‹_›, e⟩
  · simp only [bind_eq_ok, deref_eq_ok, pure_eq_ok, Prod.mk.injEq] at e
    obtain ⟨n, hn, rfl, rfl⟩ := e
    exact .inr ⟨‹_›, n, hn, rfl, rfl⟩

/-- `pool_mem_return` of a pointer whose hidden word names a node of a live pool pushes
    that node on that pool. -/
theorem poolMemReturn_eq {data s node : Ptr} {h : Heap} {n : MemNode} {P : MemPool}
    (hd : data ≠ 0) (hr : h.raws.get (data - ptrdiffSize) = some (s, node))
    (hn : h.nodes.get node = some n) (hP : h.pools.get n.pool = some P) :
    poolMemReturn cfg data h = .ok (trackPoolUsageReturned cfg n.pool { h with
      nodes := h.nodes.modify node fun m => { m with next := P.head },
      pools := h.pools.modify n.pool fun P => { P with head := node } }) := by
  simp [poolMemReturn, getMemnodeInData, cassert, hd, hr, hn, hP, deref, bind, Except.bind,
    pure, Except.pure, Functor.map, Except.map]

theorem poolMemReturn_ok {data : Ptr} {h h' : Heap} (e : poolMemReturn cfg data h = .ok h') :
    ∃ s node n P, h.raws.get (data - ptrdiffSize) = some (s, node) ∧
      h.nodes.get node = some n ∧ h.pools.get n.pool = some P ∧
      h' = trackPoolUsageReturned cfg n.pool { h with
        nodes := h.nodes.modify node fun m => { m with next := P.head },
        pools := h.pools.modify n.pool fun P => { P with head := node } } := by
  simp only [poolMemReturn, bind_eq_ok, cassert_eq_ok, deref_eq_ok, pure_eq_ok] at e
  obtain ⟨_, -, node, hg, n, hn, P, hP, rfl⟩ := e
  obtain ⟨-, s, hr⟩ := getMemnodeInData_ok hg
  exact ⟨s, node, n, P, hr, hn, hP, rfl⟩

end Gozlib.Pool
