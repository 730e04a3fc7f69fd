import Gozlib.Pool.Session
import Mathlib.Data.List.Perm.Basic

/-
  The heap invariant of single-threaded runs.

  `Inv cfg s` says, for every pool `q`: its free list reaches `NULL` (`FreeList`), and the
  free list followed by the nodes held from `q` is a permutation of the nodes `q` ever
  allocated (`Store.nodesOf`). Since those are distinct, no node is both free and held,
  none is lost, and none is on two lists. Every node is a well-formed block of the pool its
  `pool` field names (`BlockOf`: the raw block one word before `data` has `mem_size + 8`
  bytes and its first word is the node), every lease names its node and pool, and every
  multipool entry is `NULL` or a pool of its class size. With `TRACK_POOL_USAGE` the two
  counters are the free-list length and the allocation count modulo `2^32`.

  Each call keeps `Inv` (`inv_step`), so every reachable state satisfies it
  (`inv_of_reachable`).
-/

namespace Gozlib.Pool

/-- `a`, with contents `n`, is a block of pool `q` whose payload has `size` bytes: `data`
    is one word past a raw block of `size + 8` bytes whose first word is `a`. -/
def BlockOf (h : Heap) (q : Ptr) (size : Nat) (a : Ptr) (n : MemNode) : Prop :=
  n.pool = q ∧ ptrdiffSize < n.data ∧
    h.raws.get (n.data - ptrdiffSize) = some (size + ptrdiffSize, a)

/-- Entry `i` of a multipool: `NULL`, or a pool of block size `1 << (9 + i)`. -/
def MultipoolEntryOk (pools : Store MemPool) (i : Nat) (q : Ptr) : Prop :=
  q = 0 ∨ ∃ P, pools.get q = some P ∧ P.memSize = multipoolClassSize i

/-- A `pools` array of a multipool. -/
def MultipoolOk (pools : Store MemPool) (ps : List Ptr) : Prop :=
  ps.length = multipoolEntryCount ∧ ∀ i < ps.length, MultipoolEntryOk pools i (ps.getD i 0)

/-- The invariant of single-threaded runs. -/
structure Inv (cfg : Config) (s : Session) : Prop where
  node0 : s.heap.nodes.get 0 = none
  pool0 : s.heap.pools.get 0 = none
  multipool0 : s.heap.multipools.get 0 = none
  keys : (s.heap.nodes.map Prod.fst).Nodup
  nodes : ∀ a n, s.heap.nodes.get a = some n →
    ∃ P, s.heap.pools.get n.pool = some P ∧ BlockOf s.heap n.pool P.memSize.toNat a n
  leases : ∀ e ∈ s.held,
    ∃ n, s.heap.nodes.get e.node = some n ∧ n.data = e.data ∧ n.pool = e.pool
  pools : ∀ q P, s.heap.pools.get q = some P → ∃ xs, FreeList s.heap.nodes P.head xs ∧
    (xs ++ s.heldNodes q).Perm (s.heap.nodes.nodesOf q) ∧
    (cfg.trackPoolUsage = true → P.numAvailable.toNat = xs.length % 2 ^ 32 ∧
      P.numAllocs.toNat = (s.heap.nodes.nodesOf q).length % 2 ^ 32)
  multipools : ∀ m ps, s.heap.multipools.get m = some ps → MultipoolOk s.heap.pools ps

/-! ## Helpers -/

theorem Store.get_of_mem {α : Type} {s : Store α} (hk : (s.map Prod.fst).Nodup) {a : Ptr}
    {x : α} (hm : (a, x) ∈ s) : s.get a = some x := by
  induction s with
  | nil => cases hm
  | cons e s ih =>
    obtain ⟨b, y⟩ := e
    simp only [List.map_cons, List.nodup_cons, List.mem_map] at hk
    rcases List.mem_cons.mp hm with he | hm'
    · cases he; simp
    · have hab : a ≠ b := by rintro rfl; exact hk.1 ⟨(a, x), hm', rfl⟩
      simp [hab, ih hk.2 hm']

theorem Store.mem_nodesOf {s : Store MemNode} (hk : (s.map Prod.fst).Nodup) {a q : Ptr} :
    a ∈ s.nodesOf q ↔ ∃ n, s.get a = some n ∧ n.pool = q := by
  constructor
  · intro hm
    obtain ⟨⟨b, n⟩, hb, rfl⟩ := List.mem_map.mp hm
    obtain ⟨hb, hq⟩ := List.mem_filter.mp hb
    exact ⟨n, Store.get_of_mem hk hb, by simpa using hq⟩
  · rintro ⟨n, hn, rfl⟩
    have hm : a ∈ s.map Prod.fst := Store.mem_keys_of_get hn
    obtain ⟨⟨b, m⟩, hb, rfl⟩ := List.mem_map.mp hm
    rw [Store.get_of_mem hk hb] at hn
    cases hn
    exact List.mem_map.mpr ⟨_, List.mem_filter.mpr ⟨hb, by simp⟩, rfl⟩

theorem Store.nodesOf_nodup {s : Store MemNode} (hk : (s.map Prod.fst).Nodup) (q : Ptr) :
    (s.nodesOf q).Nodup :=
  hk.sublist ((List.filter_sublist _).map _)

theorem uint32_add_one_toNat (a : UInt32) : (a + 1).toNat = (a.toNat + 1) % 2 ^ 32 :=
  BitVec.toNat_add _ _

/-! ## Calls that create objects -/

variable {cfg : Config}

theorem inv_init (supply : List Ptr) : Inv cfg (Session.init supply) where
  node0 := rfl
  pool0 := rfl
  multipool0 := rfl
  keys := List.nodup_nil
  nodes := by simp [Session.init]
  leases := by simp [Session.init]
  pools := by simp [Session.init]
  multipools := by simp [Session.init]

/-- A call that only consumed `malloc` answers keeps the invariant. -/
theorem Inv.supply {s : Session} (hi : Inv cfg s) (l : List Ptr) :
    Inv cfg ⟨{ s.heap with supply := l }, s.held⟩ :=
  ⟨hi.node0, hi.pool0, hi.multipool0, hi.keys, hi.nodes, hi.leases, hi.pools, hi.multipools⟩

theorem Inv.addPool {s : Session} (hi : Inv cfg s) {p : Ptr} (hp0 : p ≠ 0)
    (hpu : s.heap.used p = false) (size : UInt32) (l : List Ptr) :
    Inv cfg ⟨{ s.heap with pools := (p, ⟨0, size, 0, 0⟩) :: s.heap.pools, supply := l },
      s.held⟩ := by
  obtain ⟨-, hp, -, -⟩ := Heap.not_used hpu
  have hnone : ∀ a n, s.heap.nodes.get a = some n → n.pool ≠ p := fun a n ha he => by
    obtain ⟨P, hP, -⟩ := hi.nodes a n ha
    exact Store.ne_of_get hP hp he
  refine ⟨hi.node0, by simpa [Ne.symm hp0] using hi.pool0, hi.multipool0, hi.keys, ?_,
    hi.leases, ?_, ?_⟩
  · intro a n ha
    obtain ⟨P, hP, hb⟩ := hi.nodes a n ha
    exact ⟨P, by rw [Store.get_cons_of_ne _ _ (Store.ne_of_get hP hp), hP], hb⟩
  · intro q P hq
    by_cases hqp : q = p
    · subst hqp
      simp only [Store.get_cons, if_true, Option.some.injEq] at hq
      subst hq
      have hof : s.heap.nodes.nodesOf q = [] := List.eq_nil_iff_forall_not_mem.mpr fun a ha => by
        obtain ⟨n, hn', rfl⟩ := (Store.mem_nodesOf hi.keys).mp ha
        exact hnone a n hn' rfl
      have hheld : (s.held.filter (·.pool = q)).map (·.node) = [] := by
        simp only [List.map_eq_nil_iff, List.filter_eq_nil_iff, decide_eq_true_eq]
        intro e he hep
        obtain ⟨n, hn', -, hpool⟩ := hi.leases e he
        exact hnone _ n hn' (hpool.trans hep)
      exact ⟨[], .null, by simp [hheld, hof], fun _ => by simp [hof]⟩
    · simp only [Store.get_cons, hqp, if_false] at hq
      exact hi.pools q P hq
  · intro m ps hps
    obtain ⟨hl, he⟩ := hi.multipools m ps hps
    refine ⟨hl, fun i hi' => ?_⟩
    rcases he i hi' with h0 | ⟨P, hP, hs⟩
    · exact .inl h0
    · exact .inr ⟨P, by rw [Store.get_cons_of_ne _ _ (Store.ne_of_get hP hp), hP], hs⟩

/-- Entry `i` of multipool `m` set to `NULL` or to a pool of class `i`. -/
theorem Inv.setEntry {s : Session} (hi : Inv cfg s) {m p : Ptr} {i : Nat}
    (hp : MultipoolEntryOk s.heap.pools i p) :
    Inv cfg ⟨{ s.heap with multipools := s.heap.multipools.modify m fun ps => ps.set i p },
      s.held⟩ := by
  refine ⟨hi.node0, hi.pool0, ?_, hi.keys, hi.nodes, hi.leases, hi.pools, fun m' ps hps => ?_⟩
  · rw [Store.get_modify]
    split_ifs with h0
    · rw [← h0, hi.multipool0]; rfl
    · exact hi.multipool0
  simp only [Store.get_modify] at hps
  split_ifs at hps
  · obtain ⟨ps0, hps0, rfl⟩ := Option.map_eq_some'.mp hps
    obtain ⟨hl, he⟩ := hi.multipools _ _ hps0
    refine ⟨by simpa using hl, fun j hj => ?_⟩
    rw [List.length_set] at hj
    by_cases hji : i = j
    · subst hji; simpa [List.getD_eq_getElem?_getD, hj] using hp
    · simpa [List.getD_eq_getElem?_getD, List.getElem?_set_ne hji] using he j hj
  · exact hi.multipools m' ps hps

/-- `NULL` fills every entry of a new multipool. -/
theorem multipoolOk_replicate (pools : Store MemPool) :
    MultipoolOk pools (List.replicate multipoolEntryCount 0) :=
  ⟨List.length_replicate _ _, fun i hi => .inl (by simp [List.getD_eq_getElem?_getD,
    List.getElem?_replicate, show i < multipoolEntryCount by simpa using hi])⟩

theorem Inv.addMultipool {s : Session} (hi : Inv cfg s) {m : Ptr} (hm0 : m ≠ 0) (l : List Ptr) :
    Inv cfg ⟨{ s.heap with
      multipools := (m, List.replicate multipoolEntryCount 0) :: s.heap.multipools,
      supply := l }, s.held⟩ := by
  refine ⟨hi.node0, hi.pool0, by simpa [Ne.symm hm0] using hi.multipool0, hi.keys, hi.nodes,
    hi.leases, hi.pools, fun m' ps hps => ?_⟩
  simp only [Store.get_cons] at hps
  split_ifs at hps
  · cases hps; exact multipoolOk_replicate _
  · exact hi.multipools m' ps hps

/-- One iteration of `multipool_create`'s loop. -/
theorem Inv.allocEntry {s : Session} (hi : Inv cfg s) (m : Ptr) (i : Nat) :
    Inv cfg ⟨{ (allocMemPool (multipoolClassSize i) s.heap).2 with
      multipools := (allocMemPool (multipoolClassSize i) s.heap).2.multipools.modify m
        fun ps => ps.set i (allocMemPool (multipoolClassSize i) s.heap).1 }, s.held⟩ := by
  rcases allocMemPool_cases (multipoolClassSize i) s.heap with ⟨h0, hh⟩ | ⟨h0, hu, hh⟩
  · have := (hi.supply (allocMemPool (multipoolClassSize i) s.heap).2.supply).setEntry
      (m := m) (p := 0) (i := i) (.inl rfl)
    rw [h0]; rw [hh] at this ⊢; exact this
  · have := (hi.addPool h0 hu (multipoolClassSize i)
      (allocMemPool (multipoolClassSize i) s.heap).2.supply).setEntry (m := m) (i := i)
      (p := (allocMemPool (multipoolClassSize i) s.heap).1) (.inr ⟨⟨0, multipoolClassSize i, 0, 0⟩, by simp, rfl⟩)
    rw [hh] at this ⊢; exact this

theorem Inv.createLoop {h : Heap} {held : List Lease} (hi : Inv cfg ⟨h, held⟩) (m k i : Nat) :
    Inv cfg ⟨multipoolCreateLoop m k i h, held⟩ := by
  induction k generalizing i h with
  | zero => exact hi
  | succ k ih => exact ih (hi.allocEntry m i) (i + 1)

theorem Inv.createMultipool {s : Session} (hi : Inv cfg s) :
    Inv cfg ⟨(multipoolCreate s.heap).2, s.held⟩ := by
  obtain ⟨a, l, hm, -⟩ := s.heap.malloc_eq
  simp only [multipoolCreate, hm]
  split
  · exact hi.supply l
  · dsimp only
    exact (hi.addMultipool ‹_› l).createLoop a multipoolEntryCount 0

/-! ## Calls that move nodes -/

/-- Pools whose block sizes are unchanged and no pool created: `pools[0]` stays empty. -/
theorem Inv.pool0_of_sizes {s : Session} (hi : Inv cfg s) {pools : Store MemPool}
    (hpools : ∀ p, (pools.get p).map MemPool.memSize = (s.heap.pools.get p).map MemPool.memSize) :
    pools.get 0 = none := by
  have := hpools 0
  rw [hi.pool0] at this
  simpa using this

theorem Inv.sizes {s : Session} {pools : Store MemPool}
    (hpools : ∀ p, (pools.get p).map MemPool.memSize = (s.heap.pools.get p).map MemPool.memSize)
    {p : Ptr} {P : MemPool} (hP : s.heap.pools.get p = some P) :
    ∃ P', pools.get p = some P' ∧ P'.memSize = P.memSize := by
  have := hpools p
  rw [hP] at this
  exact Option.map_eq_some'.mp this

theorem Inv.multipools_of_sizes {s : Session} (hi : Inv cfg s) {pools : Store MemPool}
    (hpools : ∀ p, (pools.get p).map MemPool.memSize = (s.heap.pools.get p).map MemPool.memSize)
    {m : Ptr} {ps : List Ptr} (hps : s.heap.multipools.get m = some ps) :
    MultipoolOk pools ps := by
  obtain ⟨hl, he⟩ := hi.multipools m ps hps
  refine ⟨hl, fun i hi' => ?_⟩
  rcases he i hi' with h0 | ⟨P, hP, hs⟩
  · exact .inl h0
  · obtain ⟨P', hP', hs'⟩ := Inv.sizes hpools hP
    exact .inr ⟨P', hP', hs'.trans hs⟩

/-- A call that only rewrote `next` fields, pool heads and counters keeps the parts of
    `Inv` about blocks and multipools; the caller supplies the leases and the lists. -/
theorem Inv.frame {s s' : Session} (hi : Inv cfg s)
    (hk : s'.heap.nodes.map Prod.fst = s.heap.nodes.map Prod.fst)
    (hn : ∀ a n', s'.heap.nodes.get a = some n' →
      ∃ n, s.heap.nodes.get a = some n ∧ n'.data = n.data ∧ n'.pool = n.pool)
    (hraws : s'.heap.raws = s.heap.raws) (hmp : s'.heap.multipools = s.heap.multipools)
    (hpools : ∀ p, (s'.heap.pools.get p).map MemPool.memSize =
      (s.heap.pools.get p).map MemPool.memSize)
    (hleases : ∀ e ∈ s'.held,
      ∃ n, s'.heap.nodes.get e.node = some n ∧ n.data = e.data ∧ n.pool = e.pool)
    (hlists : ∀ q P, s'.heap.pools.get q = some P → ∃ xs, FreeList s'.heap.nodes P.head xs ∧
      (xs ++ s'.heldNodes q).Perm (s'.heap.nodes.nodesOf q) ∧
      (cfg.trackPoolUsage = true → P.numAvailable.toNat = xs.length % 2 ^ 32 ∧
        P.numAllocs.toNat = (s'.heap.nodes.nodesOf q).length % 2 ^ 32)) :
    Inv cfg s' := by
  refine ⟨Store.get_eq_none_iff.mpr (hk ▸ Store.get_eq_none_iff.mp hi.node0),
    hi.pool0_of_sizes hpools, hmp ▸ hi.multipool0, hk ▸ hi.keys, ?_, hleases, hlists,
    fun m ps hps => hi.multipools_of_sizes hpools (hmp ▸ hps)⟩
  intro a n' ha
  obtain ⟨n, hn0, hd, hp⟩ := hn a n' ha
  obtain ⟨P, hP, -, hb2, hb3⟩ := hi.nodes a n hn0
  obtain ⟨P', hP', hs⟩ := Inv.sizes hpools hP
  exact ⟨P', hp ▸ hP', rfl, hd ▸ hb2, by rw [hraws, hd, hs, hb3]⟩

/-- The head of a non-empty free list is a node of that pool. -/
theorem Inv.head_cons {s : Session} (hi : Inv cfg s) {q : Ptr} {P : MemPool}
    (hP : s.heap.pools.get q = some P) (hh : P.head ≠ 0) :
    ∃ n xs, s.heap.nodes.get P.head = some n ∧ n.pool = q ∧
      FreeList s.heap.nodes n.next xs ∧
      (P.head :: xs ++ s.heldNodes q).Perm (s.heap.nodes.nodesOf q) ∧
      (cfg.trackPoolUsage = true → P.numAvailable.toNat = (xs.length + 1) % 2 ^ 32 ∧
        P.numAllocs.toNat = (s.heap.nodes.nodesOf q).length % 2 ^ 32) := by
  obtain ⟨ys, hfl, hperm, hcnt⟩ := hi.pools q P hP
  obtain ⟨xs, rfl⟩ : ∃ xs, ys = P.head :: xs := by
    cases ys with
    | nil => exact absurd (FreeList.nil_iff.mp hfl) hh
    | cons y xs => exact ⟨xs, by rw [(FreeList.cons_iff.mp hfl).1]⟩
  obtain ⟨-, -, n, hn, hl⟩ := FreeList.cons_iff.mp hfl
  obtain ⟨n', hn', hq⟩ := (Store.mem_nodesOf hi.keys).mp (hperm.subset (List.mem_cons_self _ _))
  rw [hn] at hn'
  cases hn'
  exact ⟨n, xs, hn, hq, hl, hperm, by simpa using hcnt⟩

theorem Inv.pop {s : Session} (hi : Inv cfg s) {q : Ptr} {P : MemPool} {n : MemNode}
    (hP : s.heap.pools.get q = some P) (hh : P.head ≠ 0)
    (hn : s.heap.nodes.get P.head = some n) :
    Inv cfg ⟨trackPoolUsageMemnodeUnavailable cfg q
      { s.heap with pools := s.heap.pools.modify q fun P => { P with head := n.next } },
      ⟨n.data, P.head, q⟩ :: s.held⟩ := by
  obtain ⟨n', xs, hn', hq, hl, hperm, hcnt⟩ := hi.head_cons hP hh
  rw [hn] at hn'
  cases hn'
  apply hi.frame (by simp [trackPoolUsageMemnodeUnavailable])
    (fun a n' h => ⟨n', by simpa [trackPoolUsageMemnodeUnavailable] using h, rfl, rfl⟩)
    (by simp [trackPoolUsageMemnodeUnavailable]) (by simp [trackPoolUsageMemnodeUnavailable])
  · intro p
    by_cases hp : p = q
    · subst hp; by_cases ht : cfg.trackPoolUsage = true <;> simp [trackPoolUsageMemnodeUnavailable, ht, hP]
    · simp [trackPoolUsageMemnodeUnavailable, hp]
  · intro e he
    rcases List.mem_cons.mp he with rfl | he
    · exact ⟨n, by simpa [trackPoolUsageMemnodeUnavailable] using hn, rfl, hq⟩
    · simpa [trackPoolUsageMemnodeUnavailable] using hi.leases e he
  · intro q' P' hq'
    by_cases hqq : q' = q
    · subst hqq
      have hP' : P' = { P with head := n.next, numAvailable :=
          if cfg.trackPoolUsage then P.numAvailable - 1 else P.numAvailable } := by
        by_cases ht : cfg.trackPoolUsage = true <;>
          simp_all [trackPoolUsageMemnodeUnavailable]
      subst hP'
      refine ⟨xs, by simpa [trackPoolUsageMemnodeUnavailable] using hl, ?_, fun ht => ?_⟩
      · simpa [trackPoolUsageMemnodeUnavailable, Session.heldNodes] using
          List.perm_middle.trans hperm
      · obtain ⟨h1, h2⟩ := hcnt ht
        simp only [ht, if_true, sub_one_toNat, h1, trackPoolUsageMemnodeUnavailable,
          trackPoolUsage_nodes, h2, and_true]
        omega
    · have hq0 : s.heap.pools.get q' = some P' := by
        simpa [trackPoolUsageMemnodeUnavailable, hqq] using hq'
      obtain ⟨ys, hfl, hp, hc⟩ := hi.pools q' P' hq0
      refine ⟨ys, by simpa [trackPoolUsageMemnodeUnavailable] using hfl, ?_,
        by simpa [trackPoolUsageMemnodeUnavailable] using hc⟩
      simpa [trackPoolUsageMemnodeUnavailable, Session.heldNodes, List.filter_cons,
        Ne.symm hqq] using hp

theorem Inv.fresh {s : Session} (hi : Inv cfg s) {q a b : Ptr} {P : MemPool}
    (hP : s.heap.pools.get q = some P) (ha0 : a ≠ 0) (hau : s.heap.used a = false)
    (hb0 : b ≠ 0) (hbu : s.heap.used b = false) (l : List Ptr) :
    Inv cfg ⟨trackPoolUsageAllocs cfg q { s.heap with
      nodes := (a, ⟨0, b + ptrdiffSize, q⟩) :: s.heap.nodes,
      raws := (b, (P.memSize.toNat + ptrdiffSize, a)) :: s.heap.raws, supply := l },
      ⟨b + ptrdiffSize, a, q⟩ :: s.held⟩ := by
  obtain ⟨han, -, -, -⟩ := Heap.not_used hau
  obtain ⟨-, -, -, hbr⟩ := Heap.not_used hbu
  set H : Heap := { s.heap with
    nodes := (a, ⟨0, b + ptrdiffSize, q⟩) :: s.heap.nodes,
    raws := (b, (P.memSize.toNat + ptrdiffSize, a)) :: s.heap.raws, supply := l }
  have hsize : ∀ p, ((trackPoolUsageAllocs cfg q H).pools.get p).map MemPool.memSize =
      (H.pools.get p).map MemPool.memSize := trackPoolUsage_sizes _ _ _ fun _ => rfl
  refine ⟨by simpa [trackPoolUsageAllocs, H, Ne.symm ha0] using hi.node0,
    hi.pool0_of_sizes hsize, by simpa [trackPoolUsageAllocs, H] using hi.multipool0, by
    simpa only [trackPoolUsageAllocs, trackPoolUsage_nodes, H, List.map_cons] using
      List.nodup_cons.mpr ⟨Store.get_eq_none_iff.mp han, hi.keys⟩, ?_, ?_, ?_,
    fun m ps hps => hi.multipools_of_sizes hsize (by simpa [trackPoolUsageAllocs, H] using hps)⟩
  · intro c n' hc
    by_cases hca : c = a
    · subst hca
      simp only [trackPoolUsageAllocs, trackPoolUsage_nodes, Store.get_cons, if_true,
        Option.some.injEq] at hc
      subst hc
      obtain ⟨P', hP', hs⟩ := Inv.sizes hsize hP
      refine ⟨P', hP', rfl, Nat.lt_add_of_pos_left (Nat.pos_of_ne_zero hb0), ?_⟩
      simp [trackPoolUsageAllocs, hs]
    · simp only [trackPoolUsageAllocs, trackPoolUsage_nodes, Store.get_cons, hca, if_false] at hc
      obtain ⟨P0, hP0, -, hb2, hb3⟩ := hi.nodes c n' hc
      obtain ⟨P1, hP1, hs1⟩ := Inv.sizes hsize hP0
      refine ⟨P1, hP1, rfl, hb2, ?_⟩
      simp [trackPoolUsageAllocs, Store.ne_of_get hb3 hbr, hs1, hb3]
  · intro e he
    rcases List.mem_cons.mp he with rfl | he
    · exact ⟨⟨0, b + ptrdiffSize, q⟩, by simp [trackPoolUsageAllocs, H], rfl, rfl⟩
    · obtain ⟨n, hn, hd, hp⟩ := hi.leases e he
      exact ⟨n, by simp [trackPoolUsageAllocs, Store.ne_of_get hn han, hn], hd, hp⟩
  · intro q' P' hq'
    rw [trackPoolUsageAllocs, trackPoolUsage_pools_get] at hq'
    by_cases hqq : q' = q
    · subst hqq
      obtain ⟨xs, hfl, hperm, hcnt⟩ := hi.pools q' P hP
      have hP' : P' = if cfg.trackPoolUsage then { P with numAllocs := P.numAllocs + 1 } else P := by
        by_cases ht : cfg.trackPoolUsage = true <;> simp_all [H]
      subst hP'
      refine ⟨xs, ?_, ?_, fun ht => ?_⟩
      · split <;> simpa [trackPoolUsageAllocs, H] using hfl.cons_fresh han _
      · simpa [trackPoolUsageAllocs, H] using List.perm_middle.trans (hperm.cons a)
      · obtain ⟨h1, h2⟩ := hcnt ht
        simp only [ht, if_true, uint32_add_one_toNat, h1, h2, trackPoolUsageAllocs,
          trackPoolUsage_nodes, H, Store.nodesOf_cons, List.length_cons, true_and]
        omega
    · obtain ⟨xs, hfl, hperm, hcnt⟩ := hi.pools q' P' (by simpa [hqq, H] using hq')
      refine ⟨xs, by simpa [trackPoolUsageAllocs, H] using hfl.cons_fresh han _, ?_,
        by simpa [trackPoolUsageAllocs, H, Ne.symm hqq] using hcnt⟩
      simpa [trackPoolUsageAllocs, H, List.filter_cons, Ne.symm hqq] using hperm

open scoped List in
/-- Returning a held pointer pushes its node on its pool's free list. -/
theorem Inv.push {s : Session} (hi : Inv cfg s) {e : Lease} (he : e ∈ s.held) {h' : Heap}
    (hr : poolMemReturn cfg e.data s.heap = .ok h') : Inv cfg ⟨h', s.held.erase e⟩ := by
  obtain ⟨sz, node, n, P, hraw, hn, hP, rfl⟩ := poolMemReturn_ok hr
  obtain ⟨m, hm, hmd, hmp⟩ := hi.leases e he
  obtain ⟨_, -, -, -, hb⟩ := hi.nodes e.node m hm
  rw [hmd, hraw] at hb
  obtain ⟨-, rfl⟩ := Prod.mk.inj (Option.some.inj hb)
  rw [hm] at hn
  cases hn
  have hsize : ∀ p, ((trackPoolUsageReturned cfg n.pool { s.heap with
      nodes := s.heap.nodes.modify e.node fun n => { n with next := P.head },
      pools := s.heap.pools.modify n.pool fun P => { P with head := e.node } }).pools.get p).map
        MemPool.memSize = (s.heap.pools.get p).map MemPool.memSize := by
    intro p
    rw [trackPoolUsageReturned, trackPoolUsage_sizes _ _ _ (by intro; rfl)]
    by_cases hp : p = n.pool <;> simp [hp, Option.map_map, Function.comp_def]
  apply hi.frame (by simp [trackPoolUsageReturned])
    (fun a n' h => Store.get_modify_next (by simpa [trackPoolUsageReturned] using h))
    (by simp [trackPoolUsageReturned]) (by simp [trackPoolUsageReturned]) hsize
  · intro e' he'
    obtain ⟨n, hn, hd, hp⟩ := hi.leases e' (List.mem_of_mem_erase he')
    obtain ⟨n', hn', hd', hp'⟩ := Store.get_modify_next_of_get (p := e.node) (x := P.head) hn
    exact ⟨n', by simpa [trackPoolUsageReturned] using hn', hd'.trans hd, hp'.trans hp⟩
  · intro q P' hq'
    simp only [trackPoolUsageReturned, trackPoolUsage_nodes, trackPoolUsage_pools_get,
      Store.get_modify, Session.heldNodes_mk] at hq' ⊢
    rw [Store.nodesOf_modify (g := fun m => { m with next := P.head }) _ _ _ fun _ => rfl]
    have hheld := Session.heldNodes_erase he q
    by_cases hqq : q = n.pool
    · subst hqq
      rw [if_pos hmp.symm, List.singleton_append] at hheld
      obtain ⟨xs, hfl, hperm, hcnt⟩ := hi.pools _ P hP
      have hex : e.node ∉ xs := by
        have hnd := hperm.nodup_iff.mpr (Store.nodesOf_nodup hi.keys _)
        exact fun hx => List.disjoint_of_nodup_append hnd hx
          (hheld.mem_iff.mpr (List.mem_cons_self _ _))
      have hP' : P' = if cfg.trackPoolUsage then
          { P with head := e.node, numAvailable := P.numAvailable + 1 } else { P with head := e.node } := by
        by_cases ht : cfg.trackPoolUsage = true <;> simp_all
      subst hP'
      refine ⟨e.node :: xs, ?_, ?_, fun ht => ?_⟩
      · have hpush := (hfl.modify hex fun m => { m with next := P.head }).push
          (n := { n with next := P.head }) (Store.ne_of_get hm hi.node0) (by simp [hm]) rfl
        split <;> exact hpush
      · calc (e.node :: xs) ++ _
            _ ~ xs ++ e.node :: _ := List.perm_middle.symm
            _ ~ xs ++ _ := hheld.symm.append_left xs
            _ ~ _ := hperm
      · obtain ⟨h1, h2⟩ := hcnt ht
        simp only [ht, if_true, uint32_add_one_toNat, h1, h2, List.length_cons, and_true]
        omega
    · have hne : e.pool ≠ q := fun h => hqq (hmp.trans h).symm
      rw [if_neg fun h => hqq h.1, if_neg hqq] at hq'
      rw [if_neg hne, List.nil_append] at hheld
      obtain ⟨ys, hfl, hperm, hcnt⟩ := hi.pools q P' hq'
      have hey : e.node ∉ ys := fun hy => by
        obtain ⟨n', hn', hq⟩ := (Store.mem_nodesOf hi.keys).mp (hperm.subset (List.mem_append_left _ hy))
        rw [hm] at hn'
        cases hn'
        exact hqq hq.symm
      exact ⟨ys, hfl.modify hey _, (hheld.symm.append_left ys).trans hperm, hcnt⟩

/-! ## Every call keeps the invariant -/

/-- A successful `pool_mem_acquire` on pool `q`, with the pointer it returned recorded as
    held. -/
theorem Inv.acquire {s : Session} (hi : Inv cfg s) {q d : Ptr} {h' : Heap}
    (e : poolMemAcquire cfg q s.heap = .ok (d, h')) :
    Inv cfg ⟨h', if d = 0 then s.held else ⟨d, h'.memnodeOf d, q⟩ :: s.held⟩ := by
  obtain ⟨-, P, hP, ⟨-, e⟩ | ⟨hh, n, hn, rfl, rfl⟩⟩ := poolMemAcquire_ok e
  · obtain ⟨P', hP', ⟨rfl, hh1⟩ | ⟨a, b, l, ha0, hau, hb0, -, hbu, rfl, rfl⟩⟩ :=
      poolMemTryAllocData_ok e
    · rw [if_pos rfl, hh1]; exact hi.supply _
    · rw [hP] at hP'
      cases hP'
      have hd : b + ptrdiffSize ≠ 0 := by simp [ptrdiffSize]
      rw [if_neg hd]
      simpa [Heap.memnodeOf, trackPoolUsageAllocs] using hi.fresh hP ha0 hau hb0 hbu l
  · obtain ⟨_, -, -, hlt, hraw⟩ := hi.nodes _ n hn
    rw [if_neg (Nat.lt_of_le_of_lt (Nat.zero_le _) hlt).ne']
    simpa [Heap.memnodeOf, trackPoolUsageMemnodeUnavailable, hraw] using hi.pop hP hh hn

/-- One call of the program keeps the invariant. -/
theorem inv_step {s s' : Session} (hi : Inv cfg s) {op : Op}
    (h : Session.step cfg s op = some s') : Inv cfg s' := by
  cases op with
  | allocMemPool size =>
    cases h
    rcases allocMemPool_cases size s.heap with ⟨-, hh⟩ | ⟨h0, hu, hh⟩
    · rw [hh]; exact hi.supply _
    · rw [hh]; exact hi.addPool h0 hu size _
  | multipoolCreate => cases h; exact hi.createMultipool
  | poolMemAcquire q =>
    simp only [Session.step, Session.acquired] at h
    split at h
    · cases h; exact hi.acquire ‹_›
    · cases h
  | multipoolMemAcquire m size =>
    simp only [Session.step, Session.acquired] at h
    split at h
    · cases h
      rcases multipoolMemAcquire_ok ‹_› with ⟨-, rfl, rfl⟩ | ⟨-, ps, hps, e⟩
      · simpa using hi
      · simpa [Heap.classPool, hps] using hi.acquire e
    · cases h
  | poolMemReturn data =>
    simp only [Session.step] at h
    split at h
    · cases h
    · next e he =>
      split at h
      · cases h
        have hd : e.data = data := by simpa using List.find?_some he
        exact hi.push (List.mem_of_find?_eq_some he) (hd ▸ ‹_›)
      · cases h

/-- A run of calls keeps the invariant. -/
theorem inv_run {s₀ s : Session} (hi : Inv cfg s₀) {ops : List Op}
    (h : Session.run cfg s₀ ops = some s) : Inv cfg s := by
  induction ops generalizing s₀ with
  | nil => cases h; exact hi
  | cons op ops ih =>
    obtain ⟨s₁, h1, h2⟩ := Option.bind_eq_some.mp h
    exact ih (inv_step hi h1) h2

/-- Every reachable state satisfies the invariant. -/
theorem inv_of_reachable {s : Session} (hs : Session.Reachable cfg s) : Inv cfg s :=
  let ⟨supply, _, hrun⟩ := hs
  inv_run (inv_init supply) hrun

end Gozlib.Pool
