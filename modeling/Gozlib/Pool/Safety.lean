import Gozlib.Pool.Invariant
import Mathlib.Data.List.GetD

/-
  What the invariant gives a single-threaded program, over every reachable state.

  * The heap law of the pools (`pool_heap_law`): each pool's free list reaches `NULL`
    without repeating a node; each of its nodes is a block of that pool with a payload of
    `mem_size` bytes and a hidden word that points back at the node; no node is on two free
    lists or both free and held; the free list and the held blocks of a pool are exactly the
    blocks it allocated; with `TRACK_POOL_USAGE` the counters are their lengths modulo `2^32`.
    Hence `pool_mem_acquire` never returns a held pointer, and `pool_mem_return` of a held
    pointer succeeds and pushes its node on the pool that issued it.
  * The counters are `uint32_t`: `num_allocs` wraps after `2^32` allocations, so it is not
    the allocation count itself (`num_allocs_wraps`).
  * Size classes (`multipool_size_class_law`): a valid size picks the least class that holds
    it, the pool at that entry has that class's block size, and every block
    `multipool_mem_acquire` hands out, fresh or recycled, has exactly that payload.
  * `pool_alloc` casts its `size_t` argument to `uint32_t` (`pool_alloc_truncates`): it answers
    `n + 2^32` as it answers `n`, and a block it returns holds `n mod 2^32` bytes, so a request
    of `2^32 + 1` bytes gets a 512-byte block.
  * Return then acquire (`return_then_acquire`): the same pointer comes back with no `malloc`,
    and every free list is as before the return.
-/

namespace Gozlib.Pool

variable {cfg : Config}

/-! ## Free and held nodes -/

/-- The hidden word makes `data` determine the node. -/
theorem Inv.node_of_data {s : Session} (hi : Inv cfg s) {a a' : Ptr} {n n' : MemNode}
    (hn : s.heap.nodes.get a = some n) (hn' : s.heap.nodes.get a' = some n')
    (hd : n.data = n'.data) : a = a' := by
  obtain ⟨_, -, -, -, hb⟩ := hi.nodes a n hn
  obtain ⟨_, -, -, -, hb'⟩ := hi.nodes a' n' hn'
  rw [hd, hb'] at hb
  exact (Prod.mk.inj (Option.some.inj hb)).2.symm

/-- A node on the free list of pool `q` is a block of `q` with `mem_size` bytes. -/
theorem Inv.mem_free {s : Session} (hi : Inv cfg s) {q : Ptr} {P : MemPool} {xs : List Ptr}
    (hP : s.heap.pools.get q = some P) (hfl : FreeList s.heap.nodes P.head xs) {a : Ptr}
    (ha : a ∈ xs) : ∃ n, s.heap.nodes.get a = some n ∧ BlockOf s.heap q P.memSize.toNat a n := by
  obtain ⟨ys, hys, hperm, -⟩ := hi.pools q P hP
  rw [FreeList.unique hfl hys] at ha
  obtain ⟨n, hn, rfl⟩ := (Store.mem_nodesOf hi.keys).mp (hperm.subset (List.mem_append_left _ ha))
  obtain ⟨P', hP', hb⟩ := hi.nodes a n hn
  rw [hP] at hP'
  cases hP'
  exact ⟨n, hn, hb⟩

/-- A held block is on no free list. -/
theorem Inv.held_not_free {s : Session} (hi : Inv cfg s) {q : Ptr} {P : MemPool}
    {xs : List Ptr} (hP : s.heap.pools.get q = some P) (hfl : FreeList s.heap.nodes P.head xs)
    {e : Lease} (he : e ∈ s.held) : e.node ∉ xs := by
  intro hx
  obtain ⟨n, hn, hq, -⟩ := hi.mem_free hP hfl hx
  obtain ⟨m, hm, -, hmp⟩ := hi.leases e he
  rw [hn] at hm
  cases hm
  obtain ⟨ys, hys, hperm, -⟩ := hi.pools q P hP
  rw [FreeList.unique hfl hys] at hx
  have hnd := hperm.nodup_iff.mpr (Store.nodesOf_nodup hi.keys q)
  exact List.disjoint_of_nodup_append hnd hx
    (List.mem_map.mpr ⟨e, List.mem_filter.mpr ⟨he, by simp [← hmp, hq]⟩, rfl⟩)

/-- Two pools' free lists share no node. -/
theorem Inv.free_disjoint {s : Session} (hi : Inv cfg s) {q q' : Ptr} (hq : q ≠ q')
    {P P' : MemPool} {xs xs' : List Ptr} (hP : s.heap.pools.get q = some P)
    (hP' : s.heap.pools.get q' = some P') (hfl : FreeList s.heap.nodes P.head xs)
    (hfl' : FreeList s.heap.nodes P'.head xs') : xs.Disjoint xs' := fun a ha ha' => by
  obtain ⟨n, hn, hnq, -⟩ := hi.mem_free hP hfl ha
  obtain ⟨n', hn', hnq', -⟩ := hi.mem_free hP' hfl' ha'
  rw [hn] at hn'
  cases hn'
  exact hq (hnq.symm.trans hnq')

/-- `pool_mem_acquire` never hands out a pointer the program holds. -/
theorem Inv.acquire_not_held {s : Session} (hi : Inv cfg s) {q d : Ptr} {h' : Heap}
    (e : poolMemAcquire cfg q s.heap = .ok (d, h')) (hd : d ≠ 0) {l : Lease}
    (hl : l ∈ s.held) : l.data ≠ d := by
  obtain ⟨m, hm, hmd, -⟩ := hi.leases l hl
  obtain ⟨_, -, -, -, hb⟩ := hi.nodes l.node m hm
  obtain ⟨-, P, hP, ⟨-, e⟩ | ⟨hh, n, hn, rfl, -⟩⟩ := poolMemAcquire_ok e
  · obtain ⟨P', -, ⟨rfl, -⟩ | ⟨a, b, -, -, -, -, -, hbu, rfl, -⟩⟩ := poolMemTryAllocData_ok e
    · exact absurd rfl hd
    · intro hld
      obtain ⟨-, -, -, hbr⟩ := Heap.not_used hbu
      rw [hmd, hld, Nat.add_sub_cancel, hbr] at hb
      cases hb
  · intro hld
    obtain ⟨xs, hfl, -⟩ := hi.pools q P hP
    have := hi.node_of_data hm hn (hmd.trans hld)
    exact hi.held_not_free hP hfl hl (this ▸ hfl.head_mem hh)

/-- `pool_mem_return` of a held pointer succeeds and pushes its node on the pool that issued
    it. -/
theorem Inv.return_ok {s : Session} (hi : Inv cfg s) {e : Lease} (he : e ∈ s.held) :
    ∃ h', poolMemReturn cfg e.data s.heap = .ok h' ∧
      ∃ P', h'.pools.get e.pool = some P' ∧ P'.head = e.node := by
  obtain ⟨m, hm, hmd, hmp⟩ := hi.leases e he
  obtain ⟨P, hP, -, hlt, hb⟩ := hi.nodes e.node m hm
  have hd : e.data ≠ 0 := hmd ▸ (Nat.lt_of_le_of_lt (Nat.zero_le _) hlt).ne'
  refine ⟨_, poolMemReturn_eq hd (hmd ▸ hb) hm hP, ?_⟩
  by_cases ht : cfg.trackPoolUsage = true <;> simp [trackPoolUsageReturned, ht, ← hmp, hP]

/-- The block `pool_mem_acquire` hands out has the pool's `mem_size` payload, whether it was
    popped or freshly allocated. -/
theorem Inv.acquire_block {s : Session} (hi : Inv cfg s) {q d : Ptr} {h' : Heap}
    (e : poolMemAcquire cfg q s.heap = .ok (d, h')) (hd : d ≠ 0) :
    ∃ P node, s.heap.pools.get q = some P ∧
      h'.raws.get (d - ptrdiffSize) = some (P.memSize.toNat + ptrdiffSize, node) := by
  obtain ⟨-, P, hP, ⟨-, e⟩ | ⟨hh, n, hn, rfl, rfl⟩⟩ := poolMemAcquire_ok e
  · obtain ⟨P', hP', ⟨rfl, -⟩ | ⟨a, b, -, -, -, -, -, -, rfl, rfl⟩⟩ := poolMemTryAllocData_ok e
    · exact absurd rfl hd
    · exact ⟨P', a, hP', by simp [trackPoolUsageAllocs]⟩
  · obtain ⟨xs, hfl, -⟩ := hi.pools q P hP
    obtain ⟨n', hn', -, -, hb⟩ := hi.mem_free hP hfl (hfl.head_mem hh)
    rw [hn] at hn'
    cases hn'
    exact ⟨P, P.head, hP, by simpa [trackPoolUsageMemnodeUnavailable] using hb⟩

/-! ## Runs of fresh allocations -/

/-- One `pool_mem_acquire (1)` on an empty free list, with `malloc` answering the next two
    addresses above everything in use. -/
theorem acquire_fresh_step (cfg : Config) {s : Session} {m : Nat} {rest : List Ptr} {P : MemPool}
    (hu : ∀ a, m ≤ a → s.heap.used a = false) (hP : s.heap.pools.get 1 = some P)
    (hh : P.head = 0) (hsz : P.memSize = 512) (hs : s.heap.supply = m :: (m + 1) :: rest) :
    ∃ s', Session.step cfg s (.poolMemAcquire 1) = some s' ∧
      (∀ a, m + 2 ≤ a → s'.heap.used a = false) ∧
      (∃ P', s'.heap.pools.get 1 = some P' ∧ P'.head = 0 ∧ P'.memSize = 512) ∧
      s'.heap.supply = rest ∧
      (s'.heap.nodes.nodesOf 1).length = (s.heap.nodes.nodesOf 1).length + 1 := by
  have hm : 1 < m := by
    by_contra hm
    simpa [Heap.used, hP] using hu 1 (by omega)
  have hm0 : m ≠ 0 := by omega
  have hm1 : m + 1 ≠ 0 := by omega
  have hmm : m + 1 ≠ m := by omega
  have e : poolMemTryAllocData cfg 1 s.heap = _ :=
    poolMemTryAllocData_fresh Nat.one_ne_zero hP (by simp [hsz]) hs hm0
    (hu m le_rfl) hm1 hmm (hu (m + 1) (by omega))
  rw [← poolMemAcquire_empty Nat.one_ne_zero hP hh] at e
  refine ⟨_, by simp only [Session.step, Session.acquired, e]; rfl, fun a ha => ?_, ?_, ?_, ?_⟩
  · have := Heap.not_used (hu a (by omega))
    simp [Heap.used, trackPoolUsageAllocs, this, show a ≠ m by omega, show a ≠ m + 1 by omega,
      show a ≠ 1 by omega]
  · by_cases ht : cfg.trackPoolUsage = true <;> simp [trackPoolUsageAllocs, ht, hP, hh, hsz]
  · simp [trackPoolUsageAllocs]
  · simp [trackPoolUsageAllocs]

/-- `k` acquires in a row allocate `k` fresh blocks of pool `1`. -/
theorem acquire_fresh_run (cfg : Config) (k : Nat) {s : Session} {m : Nat} {rest : List Ptr} {P : MemPool}
    (hu : ∀ a, m ≤ a → s.heap.used a = false) (hP : s.heap.pools.get 1 = some P)
    (hh : P.head = 0) (hsz : P.memSize = 512)
    (hs : s.heap.supply = List.range' m (2 * k) ++ rest) :
    ∃ s', Session.run cfg s (List.replicate k (.poolMemAcquire 1)) = some s' ∧
      (∃ P', s'.heap.pools.get 1 = some P') ∧
      (s'.heap.nodes.nodesOf 1).length = (s.heap.nodes.nodesOf 1).length + k := by
  induction k generalizing s m P with
  | zero => exact ⟨s, rfl, ⟨P, hP⟩, rfl⟩
  | succ k ih =>
    have hs' : s.heap.supply = m :: (m + 1) :: (List.range' (m + 2) (2 * k) ++ rest) := by
      rw [hs, show 2 * (k + 1) = 2 * k + 1 + 1 by omega]; rfl
    obtain ⟨s₁, h1, hu1, ⟨P₁, hP₁, hh₁, hsz₁⟩, hs₁, hl₁⟩ :=
      acquire_fresh_step cfg hu hP hh hsz hs'
    obtain ⟨s₂, h2, hP₂, hl₂⟩ := ih hu1 hP₁ hh₁ hsz₁ hs₁
    refine ⟨s₂, ?_, hP₂, by omega⟩
    simp only [List.replicate_succ, Session.run, h1, Option.some_bind, h2]

/-- A pool of 512-byte blocks, then `k` acquires from it, with `malloc` answering `1, 2, …`. -/
theorem alloc_then_acquires (cfg : Config) (k : Nat) :
    ∃ s, Session.run cfg (Session.init (1 :: List.range' 2 (2 * k)))
        (.allocMemPool 512 :: List.replicate k (.poolMemAcquire 1)) = some s ∧
      ∃ P, s.heap.pools.get 1 = some P ∧ (s.heap.nodes.nodesOf 1).length = k := by
  obtain ⟨s, hrun, ⟨P, hP⟩, hlen⟩ := acquire_fresh_run cfg k
    (s := ⟨⟨[], [(1, ⟨0, 512, 0, 0⟩)], [], [], List.range' 2 (2 * k)⟩, []⟩) (m := 2)
    (fun a ha => by simp [Heap.used, show a ≠ 1 by omega]) rfl rfl rfl
    (List.append_nil (List.range' 2 (2 * k))).symm
  exact ⟨s, hrun, P, hP, by simpa [Store.nodesOf] using hlen⟩

/-- The state after `multipool_create` and `multipool_mem_acquire (mp, 4000)`, with `malloc`
    failing for the classes from 4 on. -/
def sampleSession : Session :=
  ⟨⟨[(6, ⟨0, 15, 5⟩)],
    [(5, ⟨0, 4096, 1, 0⟩), (4, ⟨0, 2048, 0, 0⟩), (3, ⟨0, 1024, 0, 0⟩), (2, ⟨0, 512, 0, 0⟩)],
    [(1, [2, 3, 4, 5, 0, 0, 0, 0, 0, 0, 0, 0, 0, 0])], [(7, (4104, 6))], []⟩,
   [⟨15, 6, 5⟩]⟩

theorem sampleSession_reachable : Session.Reachable ⟨true, true⟩ sampleSession :=
  ⟨[1, 2, 3, 4, 5, 0, 0, 0, 0, 0, 0, 0, 0, 0, 0, 6, 7],
    [.multipoolCreate, .multipoolMemAcquire 1 4000], by decide⟩

/-! ## The heap law -/

/-- The heap law of the pools in state `s`. -/
structure PoolHeapLaw (cfg : Config) (s : Session) : Prop where
  /-- Each free list reaches `NULL` with no repeated node; its nodes are blocks of the pool
      with `mem_size` bytes; with the held blocks it makes up the blocks the pool allocated;
      the counters are the lengths modulo `2^32`. -/
  freeList : ∀ q P, s.heap.pools.get q = some P → ∃ xs, FreeList s.heap.nodes P.head xs ∧
    xs.Nodup ∧ (∀ a ∈ xs, ∃ n, s.heap.nodes.get a = some n ∧ BlockOf s.heap q P.memSize.toNat a n) ∧
    (xs ++ s.heldNodes q).Perm (s.heap.nodes.nodesOf q) ∧
    (cfg.trackPoolUsage = true → P.numAvailable.toNat = xs.length % 2 ^ 32 ∧
      P.numAllocs.toNat = (s.heap.nodes.nodesOf q).length % 2 ^ 32)
  /-- No node is on two free lists. -/
  disjoint : ∀ q q' P P' xs xs', q ≠ q' → s.heap.pools.get q = some P →
    s.heap.pools.get q' = some P' → FreeList s.heap.nodes P.head xs →
    FreeList s.heap.nodes P'.head xs' → xs.Disjoint xs'
  /-- No held block is free. -/
  heldNotFree : ∀ q P xs, s.heap.pools.get q = some P → FreeList s.heap.nodes P.head xs →
    ∀ e ∈ s.held, e.node ∉ xs
  /-- `pool_mem_acquire` never returns a held pointer. -/
  acquireFresh : ∀ q d h', poolMemAcquire cfg q s.heap = .ok (d, h') → d ≠ 0 →
    ∀ e ∈ s.held, e.data ≠ d
  /-- `pool_mem_return` of a held pointer puts its node back on the pool that issued it. -/
  returnHome : ∀ e ∈ s.held, ∃ h', poolMemReturn cfg e.data s.heap = .ok h' ∧
    ∃ P', h'.pools.get e.pool = some P' ∧ P'.head = e.node

theorem Inv.poolHeapLaw {s : Session} (hi : Inv cfg s) : PoolHeapLaw cfg s where
  freeList q P hP := by
    obtain ⟨xs, hfl, hperm, hcnt⟩ := hi.pools q P hP
    exact ⟨xs, hfl, hfl.nodup, fun a ha => hi.mem_free hP hfl ha, hperm, hcnt⟩
  disjoint _ _ _ _ _ _ hq hP hP' hfl hfl' := hi.free_disjoint hq hP hP' hfl hfl'
  heldNotFree _ _ _ hP hfl _ he := hi.held_not_free hP hfl he
  acquireFresh _ _ _ e hd _ he := hi.acquire_not_held e hd he
  returnHome _ he := hi.return_ok he

/-- The heap law holds in every state a single-threaded program reaches. -/
theorem pool_heap_law {s : Session} (hs : Session.Reachable cfg s) : PoolHeapLaw cfg s :=
  (inv_of_reachable hs).poolHeapLaw

theorem pool_heap_law_sample :
    Session.Reachable ⟨true, true⟩ sampleSession ∧ PoolHeapLaw ⟨true, true⟩ sampleSession :=
  ⟨sampleSession_reachable, pool_heap_law sampleSession_reachable⟩

/-- `num_allocs` is a `uint32_t`: after `2^32` allocations from one pool it reads `0`. -/
theorem num_allocs_wraps :
    ∃ s, Session.Reachable ⟨true, true⟩ s ∧ ∃ P, s.heap.pools.get 1 = some P ∧
      (s.heap.nodes.nodesOf 1).length = 2 ^ 32 ∧ P.numAllocs = 0 := by
  obtain ⟨s, hrun, P, hP, hlen⟩ := alloc_then_acquires ⟨true, true⟩ (2 ^ 32)
  have hs : Session.Reachable ⟨true, true⟩ s := ⟨_, _, hrun⟩
  obtain ⟨xs, -, -, hcnt⟩ := (inv_of_reachable hs).pools 1 P hP
  refine ⟨s, hs, P, hP, hlen, UInt32.toNat.inj ?_⟩
  rw [(hcnt rfl).2, hlen, Nat.mod_self]
  rfl

/-! ## Size classes -/

/-- A non-`NULL` entry read with `getD` is an entry. -/
theorem getD_mem_of_ne {xs : List Ptr} {i : Nat} (h : xs.getD i 0 ≠ 0) : xs.getD i 0 ∈ xs := by
  by_cases hi : i < xs.length
  · rw [List.getD_eq_getElem _ _ hi]
    exact List.getElem_mem hi
  · exact absurd (List.getD_eq_default _ _ (Nat.le_of_not_lt hi)) h

/-- A multipool entry of a reachable state: `NULL` or a pool of its class size. -/
theorem Inv.entry {s : Session} (hi : Inv cfg s) {mp : Ptr} {ps : List Ptr}
    (hps : s.heap.multipools.get mp = some ps) {i : Nat} (hi' : i < multipoolEntryCount) :
    ps.getD i 0 = 0 ∨ ∃ P, s.heap.pools.get (ps.getD i 0) = some P ∧
      P.memSize.toNat = 2 ^ (dynPoolMinMultiPoolMemNodeSizeBits + i) := by
  obtain ⟨hl, he⟩ := hi.multipools mp ps hps
  rcases he i (hl ▸ hi') with h0 | ⟨P, hP, hs⟩
  · exact .inl h0
  · exact .inr ⟨P, hP, by rw [hs, multipoolClassSize_toNat hi']⟩

/-- A block `multipool_mem_acquire` hands out has its class's payload, which holds the
    request. -/
theorem Inv.multipool_block {s : Session} (hi : Inv cfg s) {mp d : Ptr} {size : UInt32}
    {h' : Heap} (e : multipoolMemAcquire cfg mp size s.heap = .ok (d, h')) (hd : d ≠ 0) :
    ∃ node, h'.raws.get (d - ptrdiffSize) = some
        (2 ^ (dynPoolMinMultiPoolMemNodeSizeBits + findMultipoolIndexForSize size) + ptrdiffSize,
          node) ∧
      size.toNat ≤ 2 ^ (dynPoolMinMultiPoolMemNodeSizeBits + findMultipoolIndexForSize size) := by
  rcases multipoolMemAcquire_ok e with ⟨-, rfl, -⟩ | ⟨hlt, ps, hps, e⟩
  · exact absurd rfl hd
  obtain ⟨P, node, hP, hraw⟩ := hi.acquire_block e hd
  rcases hi.entry hps hlt with h0 | ⟨P', hP', hsz⟩
  · rw [h0, hi.pool0] at hP
    cases hP
  · rw [hP'] at hP
    cases hP
    exact ⟨node, hsz ▸ hraw,
      findMultipoolIndexForSize_fits ((findMultipoolIndexForSize_lt_iff size).mp hlt).1⟩

/-- The size-class law: the index is valid exactly for `1 ≤ size ≤ 2^22`, and then it names
    the least class that holds `size`; other sizes consult no pool; every entry a reachable
    state holds is `NULL` or a pool of its class; and every block `multipool_mem_acquire`
    hands out has exactly its class's payload, which holds the request. -/
theorem multipool_size_class_law {s : Session} (hs : Session.Reachable cfg s) :
    (∀ size : UInt32, findMultipoolIndexForSize size < multipoolEntryCount ↔
      1 ≤ size.toNat ∧ size.toNat ≤ 2 ^ 22) ∧
    (∀ size : UInt32, findMultipoolIndexForSize size < multipoolEntryCount →
      size.toNat ≤ 2 ^ (dynPoolMinMultiPoolMemNodeSizeBits + findMultipoolIndexForSize size) ∧
      (findMultipoolIndexForSize size = 0 ∨
        2 ^ (dynPoolMinMultiPoolMemNodeSizeBits + findMultipoolIndexForSize size - 1) <
          size.toNat)) ∧
    (∀ (size : UInt32) (mp : Ptr) (h : Heap),
      multipoolEntryCount ≤ findMultipoolIndexForSize size →
      multipoolMemAcquire cfg mp size h =
        if cfg.assertions then .error (.assertFailed
          (if mp = 0 then "multipool != NULL" else "index < MULTIPOOL_ENTRY_COUNT"))
        else .ok (0, h)) ∧
    (∀ mp ps, s.heap.multipools.get mp = some ps → ∀ i < multipoolEntryCount,
      ps.getD i 0 = 0 ∨ ∃ P, s.heap.pools.get (ps.getD i 0) = some P ∧
        P.memSize.toNat = 2 ^ (dynPoolMinMultiPoolMemNodeSizeBits + i)) ∧
    (∀ mp size d h', multipoolMemAcquire cfg mp size s.heap = .ok (d, h') → d ≠ 0 →
      ∃ node, h'.raws.get (d - ptrdiffSize) = some
        (2 ^ (dynPoolMinMultiPoolMemNodeSizeBits + findMultipoolIndexForSize size) + ptrdiffSize,
          node) ∧
        size.toNat ≤ 2 ^ (dynPoolMinMultiPoolMemNodeSizeBits + findMultipoolIndexForSize size)) := by
  have hi := inv_of_reachable hs
  have hfit : ∀ size : UInt32, findMultipoolIndexForSize size < multipoolEntryCount →
      size.toNat ≤ 2 ^ (dynPoolMinMultiPoolMemNodeSizeBits + findMultipoolIndexForSize size) :=
    fun size h => findMultipoolIndexForSize_fits ((findMultipoolIndexForSize_lt_iff size).mp h).1
  refine ⟨findMultipoolIndexForSize_lt_iff, fun size h => ⟨hfit size h,
    findMultipoolIndexForSize_least ((findMultipoolIndexForSize_lt_iff size).mp h).1⟩,
    fun size mp h hr => multipoolMemAcquire_out_of_range h hr,
    fun mp ps hps i hi' => hi.entry hps hi', fun mp size d h' e hd => hi.multipool_block e hd⟩

theorem multipool_size_class_law_sample :
    Session.Reachable ⟨true, true⟩ sampleSession ∧
      findMultipoolIndexForSize 4000 < multipoolEntryCount :=
  ⟨sampleSession_reachable,
    ((multipool_size_class_law sampleSession_reachable).1 4000).mpr (by decide)⟩


/-! ## `pool_alloc` and `size_t` -/

theorem toNat_uint32_ofNat (n : Nat) : (UInt32.ofNat n).toNat = n % 2 ^ 32 := rfl

theorem uint32_ofNat_add_two_pow (n : Nat) : UInt32.ofNat (n + 2 ^ 32) = UInt32.ofNat n :=
  UInt32.toNat.inj (by rw [toNat_uint32_ofNat, toNat_uint32_ofNat]; omega)

/-- `pool_alloc` casts its `size_t` argument to `uint32_t`, so it serves `n` from the class
    of `n mod 2^32`: it answers `n + 2^32` exactly as it answers `n`, and a block it hands out
    has that class's payload, which holds `n mod 2^32` bytes (fewer than `n` once
    `n ≥ 2^32`). -/
theorem pool_alloc_truncates {s : Session} (hs : Session.Reachable cfg s) (globalMultipool : Ptr)
    (n : Nat) :
    poolAlloc cfg globalMultipool (n + 2 ^ 32) s.heap = poolAlloc cfg globalMultipool n s.heap ∧
    ∀ d h', poolAlloc cfg globalMultipool n s.heap = .ok (d, h') → d ≠ 0 →
      ∃ node, h'.raws.get (d - ptrdiffSize) = some (2 ^ (dynPoolMinMultiPoolMemNodeSizeBits +
          findMultipoolIndexForSize (UInt32.ofNat n)) + ptrdiffSize, node) ∧
        n % 2 ^ 32 ≤
          2 ^ (dynPoolMinMultiPoolMemNodeSizeBits + findMultipoolIndexForSize (UInt32.ofNat n)) := by
  refine ⟨by rw [poolAlloc, poolAlloc, uint32_ofNat_add_two_pow], fun d h' e hd => ?_⟩
  obtain ⟨-, -, e⟩ := (bind_eq_ok _ _ _).mp e
  exact toNat_uint32_ofNat n ▸ (inv_of_reachable hs).multipool_block e hd

/-- The state after `multipool_create` when `malloc` failed for every class but the first
    (`pools[0]`, blocks of 512 bytes), with two `malloc` answers still to come. -/
def firstClassSession : Session :=
  ⟨⟨[], [(2, ⟨0, 512, 0, 0⟩)], [(1, [2, 0, 0, 0, 0, 0, 0, 0, 0, 0, 0, 0, 0, 0])], [], [100, 101]⟩,
   []⟩

theorem firstClassSession_reachable : Session.Reachable ⟨true, true⟩ firstClassSession :=
  ⟨[1, 2, 0, 0, 0, 0, 0, 0, 0, 0, 0, 0, 0, 0, 0, 100, 101], [.multipoolCreate], by decide⟩

theorem pool_alloc_truncates_first_class :
    Session.Reachable ⟨true, true⟩ firstClassSession ∧ ∃ d h' node,
      poolAlloc ⟨true, true⟩ 1 (2 ^ 32 + 1) firstClassSession.heap = .ok (d, h') ∧ d ≠ 0 ∧
        h'.raws.get (d - ptrdiffSize) = some (512 + ptrdiffSize, node) ∧ 512 < 2 ^ 32 + 1 := by
  have e : poolAlloc ⟨true, true⟩ 1 (2 ^ 32 + 1) firstClassSession.heap = .ok (109,
      ⟨[(100, ⟨0, 109, 2⟩)], [(2, ⟨0, 512, 1, 0⟩)], [(1, [2, 0, 0, 0, 0, 0, 0, 0, 0, 0, 0, 0, 0, 0])],
        [(101, (520, 100))], []⟩) := rfl
  obtain ⟨node, hraw, -⟩ :=
    (pool_alloc_truncates firstClassSession_reachable 1 (2 ^ 32 + 1)).2 109 _ e (by decide)
  have hidx : findMultipoolIndexForSize (UInt32.ofNat (2 ^ 32 + 1)) = 0 := by decide
  rw [hidx] at hraw
  exact ⟨firstClassSession_reachable, 109, _, node, e, by decide, hraw, by decide⟩

/-! ## Return, then acquire -/

/-- Returning a held pointer and acquiring from its pool at once hands back the same pointer,
    calls no `malloc`, and leaves every pool's head and free list as before the return; the
    same holds for `multipool_mem_acquire` with any size of the same class. -/
theorem return_then_acquire {s : Session} (hs : Session.Reachable cfg s) {e : Lease}
    (he : e ∈ s.held) :
    ∃ h₁ h₂, poolMemReturn cfg e.data s.heap = .ok h₁ ∧
      poolMemAcquire cfg e.pool h₁ = .ok (e.data, h₂) ∧
      h₂.supply = s.heap.supply ∧ h₂.raws = s.heap.raws ∧ h₂.multipools = s.heap.multipools ∧
      h₂.nodes.map Prod.fst = s.heap.nodes.map Prod.fst ∧
      (∀ q, (h₂.pools.get q).map MemPool.head = (s.heap.pools.get q).map MemPool.head) ∧
      (∀ q P xs, s.heap.pools.get q = some P → FreeList s.heap.nodes P.head xs →
        FreeList h₂.nodes P.head xs) ∧
      (∀ mp size size', e.pool = s.heap.classPool mp size' →
        findMultipoolIndexForSize size = findMultipoolIndexForSize size' →
        multipoolMemAcquire cfg mp size h₁ = .ok (e.data, h₂)) := by
  have hi := inv_of_reachable hs
  obtain ⟨m, hm, hmd, hmp⟩ := hi.leases e he
  obtain ⟨P, hP, -, hlt, hb⟩ := hi.nodes e.node m hm
  have hd : e.data ≠ 0 := hmd ▸ (Nat.lt_of_le_of_lt (Nat.zero_le _) hlt).ne'
  have hq0 : m.pool ≠ 0 := fun h0 => by rw [h0, hi.pool0] at hP; cases hP
  set H : Heap := { s.heap with
    nodes := s.heap.nodes.modify e.node fun n => { n with next := P.head },
    pools := s.heap.pools.modify m.pool fun P => { P with head := e.node } }
  have hr : poolMemReturn cfg e.data s.heap = .ok (trackPoolUsageReturned cfg m.pool H) :=
    poolMemReturn_eq hd (hmd ▸ hb) hm hP
  have ha : poolMemAcquire cfg m.pool (trackPoolUsageReturned cfg m.pool H) = _ :=
    poolMemAcquire_pop hq0
    (P := if cfg.trackPoolUsage then { P with head := e.node, numAvailable := P.numAvailable + 1 }
      else { P with head := e.node }) (n := { m with next := P.head })
    (by by_cases ht : cfg.trackPoolUsage = true <;> simp [trackPoolUsageReturned, ht, hP, H])
    (by split <;> exact Store.ne_of_get hm hi.node0)
    (by split <;> simp [trackPoolUsageReturned, hm, H])
  rw [← hmd] at hr
  rw [← hmp, ← hmd]
  refine ⟨_, _, hr, ha, by simp [trackPoolUsageReturned, trackPoolUsageMemnodeUnavailable, H],
    by simp [trackPoolUsageReturned, trackPoolUsageMemnodeUnavailable, H],
    by simp [trackPoolUsageReturned, trackPoolUsageMemnodeUnavailable, H],
    by simp [trackPoolUsageReturned, trackPoolUsageMemnodeUnavailable, H], fun q => ?_,
    fun q P' xs hP' hfl => ?_, fun mp size size' hc hidx => ?_⟩
  · by_cases hq : q = m.pool <;> by_cases ht : cfg.trackPoolUsage = true <;>
      simp [trackPoolUsageReturned, trackPoolUsageMemnodeUnavailable, ht, hq, hP, H]
  · simpa [trackPoolUsageReturned, trackPoolUsageMemnodeUnavailable, H] using
      hfl.modify (hi.held_not_free hP' hfl he) fun n => { n with next := P.head }
  · unfold Heap.classPool at hc
    cases hps : s.heap.multipools.get mp with
    | none => rw [hps] at hc; exact absurd hc hq0
    | some ps =>
      rw [hps, Option.getD_some] at hc
      have hlt : findMultipoolIndexForSize size' < multipoolEntryCount := by
        by_contra hge
        have hlen : ps.length ≤ findMultipoolIndexForSize size' := by
          rw [(hi.multipools mp ps hps).1]; omega
        rw [List.getD_eq_default ps 0 hlen] at hc
        exact hq0 hc
      have hmp0 : mp ≠ 0 := fun h0 => by rw [h0, hi.multipool0] at hps; cases hps
      rw [multipoolMemAcquire_eq hmp0 (hidx ▸ hlt)
        (by simpa [trackPoolUsageReturned, H] using hps), hidx, ← hc]
      exact ha

theorem return_then_acquire_sample :
    Session.Reachable ⟨true, true⟩ sampleSession ∧ ⟨15, 6, 5⟩ ∈ sampleSession.held ∧
      ∃ h₁ h₂, poolMemReturn ⟨true, true⟩ 15 sampleSession.heap = .ok h₁ ∧
        multipoolMemAcquire ⟨true, true⟩ 1 3000 h₁ = .ok (15, h₂) :=
  have hs := sampleSession_reachable
  have he : ⟨15, 6, 5⟩ ∈ sampleSession.held := List.mem_singleton_self _
  let ⟨h₁, h₂, hr, _, _, _, _, _, _, _, hm⟩ := return_then_acquire hs he
  ⟨hs, he, h₁, h₂, hr, hm 1 3000 4000 rfl (by decide)⟩

end Gozlib.Pool
