import Gozlib.Pool.Safety

/-
  What the pool calls leave alone, and what the invariant says of the blocks a program holds.

  * `Heap.Keeps`: only `multipool_create` touches the `multipools` store, and raw blocks are
    only ever added at non-`NULL` addresses (`Session.step_keeps`, from one lemma per call).
  * In a state that satisfies `Inv`, no block is held twice and a held block's pointer names
    its lease (`Inv.held_nodup`, `Inv.data_nodup`), whose node is the one the hidden word in
    front of the pointer names (`Inv.held_eq`).
-/

namespace Gozlib.Pool

/-! ## Frames -/

/-- `h'` has the multipools of `h`, and no raw block at `NULL` when `h` has none. -/
structure Heap.Keeps (h h' : Heap) : Prop where
  multipools : h'.multipools = h.multipools
  raw0 : h.raws.get 0 = none → h'.raws.get 0 = none

namespace Heap.Keeps

theorem refl (h : Heap) : h.Keeps h := ⟨rfl, id⟩

theorem trans {h₁ h₂ h₃ : Heap} (k₁ : h₁.Keeps h₂) (k₂ : h₂.Keeps h₃) : h₁.Keeps h₃ :=
  ⟨k₂.multipools.trans k₁.multipools, k₂.raw0 ∘ k₁.raw0⟩

/-- A heap that differs in the pools, the nodes and `supply` only. -/
theorem of_eq {h h' : Heap} (hm : h'.multipools = h.multipools) (hr : h'.raws = h.raws) :
    h.Keeps h' :=
  ⟨hm, fun h0 => hr ▸ h0⟩

end Heap.Keeps

section Keeps

variable {cfg : Config} {q d : Ptr} {h h' : Heap}

theorem poolMemTryAllocData_keeps (e : poolMemTryAllocData cfg q h = .ok (d, h')) :
    h.Keeps h' := by
  obtain ⟨P, -, ⟨-, hh⟩ | ⟨node, raw, s, -, -, hr0, -, -, -, rfl⟩⟩ := poolMemTryAllocData_ok e
  · exact .of_eq (by rw [hh]) (by rw [hh])
  · refine ⟨by simp [trackPoolUsageAllocs], fun h0 => ?_⟩
    simpa [trackPoolUsageAllocs, Store.get_cons_of_ne _ _ (Ne.symm hr0)] using h0

theorem poolMemAcquire_keeps (e : poolMemAcquire cfg q h = .ok (d, h')) : h.Keeps h' := by
  obtain ⟨-, P, -, ⟨-, e⟩ | ⟨-, n, -, -, rfl⟩⟩ := poolMemAcquire_ok e
  · exact poolMemTryAllocData_keeps e
  · exact .of_eq (by simp [trackPoolUsageMemnodeUnavailable])
      (by simp [trackPoolUsageMemnodeUnavailable])

theorem multipoolMemAcquire_keeps {size : UInt32}
    (e : multipoolMemAcquire cfg q size h = .ok (d, h')) : h.Keeps h' := by
  rcases multipoolMemAcquire_ok e with ⟨-, -, rfl⟩ | ⟨-, ps, -, e⟩
  · exact .refl _
  · exact poolMemAcquire_keeps e

theorem poolMemReturn_keeps (e : poolMemReturn cfg d h = .ok h') : h.Keeps h' := by
  obtain ⟨s, node, n, P, -, -, -, rfl⟩ := poolMemReturn_ok e
  exact .of_eq (by simp [trackPoolUsageReturned]) (by simp [trackPoolUsageReturned])

/-- `pool_mem_return (NULL)` never returns where no raw block starts at `NULL`: the assertion
    `data != NULL` fails, or, without assertions, the hidden word before `NULL` is read. -/
theorem poolMemReturn_null (h0 : h.raws.get 0 = none) : poolMemReturn cfg 0 h ≠ .ok h' := by
  intro e
  obtain ⟨s, node, n, P, hr, -⟩ := poolMemReturn_ok e
  rw [Nat.zero_sub, h0] at hr
  cases hr

/-- Every pool call but `multipool_create` keeps the multipools and `NULL` free of raw
    blocks. -/
theorem Session.step_keeps {s s' : Session} {op : Op} (hop : op ≠ .multipoolCreate)
    (h : Session.step cfg s op = some s') : s.heap.Keeps s'.heap := by
  cases op with
  | allocMemPool size =>
    cases h
    rcases allocMemPool_cases size s.heap with ⟨-, e⟩ | ⟨-, -, e⟩ <;>
      exact .of_eq (by rw [e]) (by rw [e])
  | multipoolCreate => exact absurd rfl hop
  | poolMemAcquire q =>
    simp only [Session.step, Session.acquired] at h
    split at h
    · cases h; exact poolMemAcquire_keeps ‹_›
    · cases h
  | multipoolMemAcquire m size =>
    simp only [Session.step, Session.acquired] at h
    split at h
    · cases h; exact multipoolMemAcquire_keeps ‹_›
    · cases h
  | poolMemReturn data =>
    simp only [Session.step] at h
    split at h
    · cases h
    · split at h
      · cases h; exact poolMemReturn_keeps ‹_›
      · cases h

theorem Session.run_keeps : ∀ {ops : List Op} {s s' : Session},
    (∀ op ∈ ops, op ≠ .multipoolCreate) → Session.run cfg s ops = some s' → s.heap.Keeps s'.heap
  | [], s, s', _, h => by cases h; exact .refl _
  | op :: ops, s, s', hops, h => by
    obtain ⟨s₁, h₁, h₂⟩ := Option.bind_eq_some.mp h
    exact (Session.step_keeps (hops op (List.mem_cons_self _ _)) h₁).trans
      (Session.run_keeps (fun o ho => hops o (List.mem_cons_of_mem _ ho)) h₂)

end Keeps

/-! ## Creating pools -/

/-- `alloc_mem_pool` keeps the multipools and every pool, and a pool it returns is new. -/
theorem allocMemPool_grows (size : UInt32) (h : Heap) :
    (allocMemPool size h).2.multipools = h.multipools ∧
      (∀ q, (h.pools.get q).isSome → ((allocMemPool size h).2.pools.get q).isSome) ∧
      ((allocMemPool size h).1 ≠ 0 → h.pools.get (allocMemPool size h).1 = none ∧
        ((allocMemPool size h).2.pools.get (allocMemPool size h).1).isSome) := by
  rcases allocMemPool_cases size h with ⟨h0, e⟩ | ⟨-, hu, e⟩
  · rw [e]; exact ⟨rfl, fun _ hq => hq, fun h' => absurd h0 h'⟩
  · have hn := (Heap.not_used hu).2.1
    rw [e]
    refine ⟨rfl, fun q hq => ?_, fun _ => ⟨hn, by simp⟩⟩
    have : q ≠ (allocMemPool size h).1 := fun hq' => by rw [hq', hn] at hq; cases hq
    simpa [this] using hq

/-- A non-`NULL` entry of a multipool is a pool. -/
theorem Inv.entry_isSome {cfg : Config} {s : Session} (hi : Inv cfg s) {mp q : Ptr}
    (hq : q ∈ (s.heap.multipools.get mp).getD []) (h0 : q ≠ 0) : (s.heap.pools.get q).isSome := by
  cases hps : s.heap.multipools.get mp with
  | none => rw [hps] at hq; cases hq
  | some ps =>
    rw [hps, Option.getD_some] at hq
    obtain ⟨j, hj, rfl⟩ := List.mem_iff_getElem.mp hq
    rcases (hi.multipools mp ps hps).2 j hj with h | ⟨P, hP, -⟩
    · rw [List.getD_eq_getElem] at h
      exact absurd h h0
    · rw [List.getD_eq_getElem] at hP
      rw [hP]
      rfl

theorem allocMemPool_raws (size : UInt32) (h : Heap) : (allocMemPool size h).2.raws = h.raws := by
  rcases allocMemPool_cases size h with ⟨-, e⟩ | ⟨-, -, e⟩ <;> rw [e]

theorem multipoolCreateLoop_raws (m : Ptr) :
    ∀ k i h, (multipoolCreateLoop m k i h).raws = h.raws
  | 0, _, _ => rfl
  | k + 1, i, h => (multipoolCreateLoop_raws m k (i + 1) _).trans (allocMemPool_raws _ h)

theorem multipoolCreate_raws (h : Heap) : (multipoolCreate h).2.raws = h.raws := by
  obtain ⟨a, l, hm, -⟩ := h.malloc_eq
  simp only [multipoolCreate, hm]
  split
  · rfl
  · exact multipoolCreateLoop_raws _ _ _ _

/-! ## Held blocks -/

section Held

variable {cfg : Config} {s : Session}

/-- No block is held twice: a second copy would hold its node twice in its pool. -/
theorem Inv.held_nodup (hi : Inv cfg s) : s.held.Nodup := by
  refine List.nodup_iff_sublist.mpr fun e he => ?_
  obtain ⟨n, hn, -, hnp⟩ := hi.leases e (he.subset (List.mem_cons_self _ _))
  obtain ⟨P, hP, -⟩ := hi.nodes _ n hn
  obtain ⟨xs, -, hperm, -⟩ := hi.pools _ P hP
  have hnd := (hperm.nodup_iff.mpr (Store.nodesOf_nodup hi.keys _)).of_append_right
  have hsub := (he.filter fun x => decide (x.pool = e.pool)).map Lease.node
  simp only [List.filter_cons, List.filter_nil, decide_eq_true_eq, eq_self, if_true,
    List.map_cons, List.map_nil] at hsub
  rw [Session.heldNodes, hnp] at hnd
  exact List.nodup_iff_sublist.mp hnd _ hsub

/-- A held pointer names its lease. -/
theorem Inv.data_inj (hi : Inv cfg s) {e e' : Lease} (he : e ∈ s.held) (he' : e' ∈ s.held)
    (hd : e.data = e'.data) : e = e' := by
  obtain ⟨n, hn, hnd, hnp⟩ := hi.leases e he
  obtain ⟨n', hn', hnd', hnp'⟩ := hi.leases e' he'
  have hnode := hi.node_of_data hn hn' (hnd.trans (hd.trans hnd'.symm))
  rw [← hnode, hn] at hn'
  cases hn'
  cases e; cases e'
  simp_all

/-- The held pointers are distinct. -/
theorem Inv.data_nodup (hi : Inv cfg s) : (s.held.map Lease.data).Nodup :=
  hi.held_nodup.map_on fun _ he _ he' hd => hi.data_inj he he' hd

/-- A held block's node is the one the hidden word in front of its pointer names. -/
theorem Inv.node_eq {e : Lease} (hi : Inv cfg s) (he : e ∈ s.held) :
    e.node = s.heap.memnodeOf e.data := by
  obtain ⟨n, hn, hnd, -⟩ := hi.leases e he
  obtain ⟨P, -, -, -, hraw⟩ := hi.nodes _ n hn
  simp [Heap.memnodeOf, ← hnd, hraw]

/-- So the leases are determined by the heap, their pointers and their pools. -/
theorem Inv.held_eq (hi : Inv cfg s) :
    s.held.map (fun e => ⟨e.data, s.heap.memnodeOf e.data, e.pool⟩) = s.held :=
  (List.map_congr_left fun e he => by rw [← hi.node_eq he]; rfl).trans (List.map_id _)

/-- A held block's node and pool are not `NULL`. -/
theorem Inv.lease_ne_zero (hi : Inv cfg s) {e : Lease} (he : e ∈ s.held) :
    e.node ≠ 0 ∧ e.pool ≠ 0 := by
  obtain ⟨n, hn, -, hnp⟩ := hi.leases e he
  obtain ⟨P, hP, -⟩ := hi.nodes _ n hn
  refine ⟨Store.ne_of_get hn hi.node0, fun h0 => ?_⟩
  rw [hnp, h0, hi.pool0] at hP
  cases hP

end Held

/-- The lease `find?` meets for a held pointer is its own. -/
theorem find?_data {held : List Lease} (hnd : (held.map Lease.data).Nodup) {e : Lease}
    (he : e ∈ held) : held.find? (·.data = e.data) = some e := by
  obtain ⟨x, hx⟩ := Option.isSome_iff_exists.mp
    ((List.find?_isSome (p := fun y : Lease => decide (y.data = e.data))).mpr
      ⟨e, he, decide_eq_true rfl⟩)
  rw [hx, List.inj_on_of_nodup_map hnd (List.mem_of_find?_eq_some hx) he
    (by simpa using List.find?_some hx)]

/-! ## Heads of free lists -/

/-- The head of pool `q`'s free list, `NULL` where there is no pool. -/
def Heap.headOf (h : Heap) (q : Ptr) : Ptr := ((h.pools.get q).map MemPool.head).getD 0

section Heads

variable {cfg : Config}

/-- The usage counters leave every head alone. -/
theorem headOf_trackPoolUsage {f : MemPool → MemPool} (hf : ∀ P, (f P).head = P.head)
    (pool q : Ptr) (h : Heap) : (trackPoolUsage cfg f pool h).headOf q = h.headOf q := by
  simp only [Heap.headOf, trackPoolUsage_pools_get]
  split_ifs with hq
  · rw [hq.1]
    cases h.pools.get pool <;> simp [hf]
  · rfl

/-- `pool_mem_acquire` on a pool whose free list is not empty pops its head: it returns the
    head's block, the list now starts at the head's `next`, and nothing else the calls read
    changes. -/
theorem poolMemAcquire_head {q : Ptr} {h : Heap} {n : MemNode} (hq : q ≠ 0)
    (hh : h.headOf q ≠ 0) (hn : h.nodes.get (h.headOf q) = some n) :
    ∃ h', poolMemAcquire cfg q h = .ok (n.data, h') ∧ h'.nodes = h.nodes ∧
      h'.headOf q = n.next ∧ (∀ p, p ≠ q → h'.headOf p = h.headOf p) ∧
      h'.supply = h.supply ∧ h'.raws = h.raws ∧ h'.multipools = h.multipools := by
  cases hP : h.pools.get q with
  | none => simp [Heap.headOf, hP] at hh
  | some P =>
    have hhead : h.headOf q = P.head := by simp [Heap.headOf, hP]
    rw [hhead] at hh hn
    refine ⟨_, poolMemAcquire_pop hq hP hh hn, by simp [trackPoolUsageMemnodeUnavailable], ?_,
      fun p hp => ?_, by simp [trackPoolUsageMemnodeUnavailable],
      by simp [trackPoolUsageMemnodeUnavailable], by simp [trackPoolUsageMemnodeUnavailable]⟩
    · rw [trackPoolUsageMemnodeUnavailable, headOf_trackPoolUsage (by intro; rfl)]
      simp [Heap.headOf, hP]
    · rw [trackPoolUsageMemnodeUnavailable, headOf_trackPoolUsage (by intro; rfl)]
      simp [Heap.headOf, hp]

/-- Pool `q`'s list starts at node `a`, which holds block `d` and points where `q`'s list
    started in `h₀`. -/
def Pushed (h₀ h : Heap) (q a d : Ptr) : Prop :=
  h.headOf q = a ∧ ∃ n, h.nodes.get a = some n ∧ n.next = h₀.headOf q ∧ n.data = d

/-- A call that keeps `q`'s head and every node keeps a push on `q`. -/
theorem Pushed.frame {h₀ h h' : Heap} {q a d : Ptr} (hp : Pushed h₀ h q a d)
    (hq : h'.headOf q = h.headOf q) (hn : h'.nodes = h.nodes) : Pushed h₀ h' q a d := by
  unfold Pushed
  rwa [hq, hn]

/-- Popping a pushed node hands back its block and puts the head back where it was in `h₀`. -/
theorem Pushed.pop {h₀ h : Heap} {q a d : Ptr} (hp : Pushed h₀ h q a d) (hq : q ≠ 0)
    (ha : a ≠ 0) :
    ∃ h', poolMemAcquire cfg q h = .ok (d, h') ∧ h'.nodes = h.nodes ∧
      h'.headOf q = h₀.headOf q ∧ (∀ p, p ≠ q → h'.headOf p = h.headOf p) ∧
      h'.supply = h.supply ∧ h'.raws = h.raws ∧ h'.multipools = h.multipools := by
  obtain ⟨hh, n, hn, hnext, rfl⟩ := hp
  rw [← hnext]
  exact poolMemAcquire_head hq (hh ▸ ha) (hh ▸ hn)

/-- A non-`NULL` class pool is the entry of its size class, which is in range, of an array of
    the multipool. -/
theorem Inv.classPool_entry {s : Session} (hi : Inv cfg s) {h : Heap}
    (hm : h.multipools = s.heap.multipools) {mp : Ptr} {size : UInt32}
    (hc : h.classPool mp size ≠ 0) :
    ∃ ps, s.heap.multipools.get mp = some ps ∧
      findMultipoolIndexForSize size < multipoolEntryCount ∧
      h.classPool mp size = ps.getD (findMultipoolIndexForSize size) 0 := by
  unfold Heap.classPool at hc ⊢
  rw [hm] at hc ⊢
  cases hps : s.heap.multipools.get mp with
  | none => rw [hps] at hc; exact absurd rfl hc
  | some ps =>
    simp only [hps, Option.getD_some] at hc ⊢
    refine ⟨ps, rfl, ?_, rfl⟩
    by_contra hge
    have hlen : ps.length ≤ findMultipoolIndexForSize size := by
      rw [(hi.multipools mp ps hps).1]; omega
    exact hc (List.getD_eq_default ps 0 hlen)

/-- A block held from the class pool of `size` has the payload of that class, which holds
    `size` bytes. -/
theorem Inv.class_block {s : Session} (hi : Inv cfg s) {e : Lease} (he : e ∈ s.held)
    {mp : Ptr} {size : UInt32} (hp : e.pool = s.heap.classPool mp size) :
    s.heap.raws.get (e.data - ptrdiffSize) = some
        (2 ^ (dynPoolMinMultiPoolMemNodeSizeBits + findMultipoolIndexForSize size) + ptrdiffSize,
          e.node) ∧
      size.toNat ≤ 2 ^ (dynPoolMinMultiPoolMemNodeSizeBits + findMultipoolIndexForSize size) := by
  have hq := (hi.lease_ne_zero he).2
  obtain ⟨n, hn, hnd, hnp⟩ := hi.leases e he
  obtain ⟨P, hP, -, -, hraw⟩ := hi.nodes _ n hn
  obtain ⟨ps, hps, hlt, hcp⟩ := hi.classPool_entry rfl (hp ▸ hq)
  rcases hi.entry hps hlt with h0 | ⟨P', hP', hsz⟩
  · exact absurd (hp.trans (hcp.trans h0)) hq
  rw [← hcp, ← hp, ← hnp, hP] at hP'
  cases hP'
  exact ⟨hsz ▸ hnd ▸ hraw,
    findMultipoolIndexForSize_fits ((findMultipoolIndexForSize_lt_iff size).mp hlt).1⟩

end Heads

end Gozlib.Pool
