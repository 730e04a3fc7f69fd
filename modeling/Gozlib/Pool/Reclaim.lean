import Gozlib.Pool.Teardown
import Gozlib.Pool.Lifecycle

/-
  Where the objects of a heap come from.

  `alloc_poolable_mem` is the only call that makes a raw block, and it makes it for a new node
  whose `data` is one word past the block; no pool call frees one. So along every run each raw
  block is the block of a node (`Heap.RawsOwned`, `rawsOwned_of_reachable`).
  `multipool_create` makes no pool but the entries of the multipool it returns
  (`multipoolCreate_made`), and `pool_mem_acquire`, `multipool_mem_acquire` and
  `pool_mem_return` make none at all (`Session.run_poolKeys`). With these, clearing every
  pool of a reachable state leaves no pool, no node and no raw block (`Inv.cleared_empty`).
-/

namespace Gozlib.Pool

/-- A store with nothing at any address is empty. -/
theorem Store.eq_nil_of_get {α : Type} {s : Store α} (h : ∀ a, s.get a = none) : s = [] := by
  cases s with
  | nil => rfl
  | cons e s => obtain ⟨b, y⟩ := e; simpa using h b

/-- A store whose only address is `m` is empty once `m` is erased. -/
theorem Store.erase_eq_nil_of_keys {α : Type} {s : Store α} {m : Ptr}
    (hs : s.map Prod.fst = [m]) : s.erase m = [] :=
  Store.eq_nil_of_get fun a => by
    rw [Store.get_erase]
    split_ifs with ha
    · rfl
    · exact Store.get_eq_none_of_not_mem (by rw [hs]; simpa using ha)

/-! ## Raw blocks belong to nodes -/

/-- Every raw block starts one word before the `data` of a node. -/
def Heap.RawsOwned (h : Heap) : Prop :=
  ∀ r x, h.raws.get r = some x → ∃ a n, h.nodes.get a = some n ∧ n.data - ptrdiffSize = r

section Owned

variable {cfg : Config} {q d : Ptr} {h h' : Heap}

/-- A heap that retains `h` and has its raw blocks. -/
theorem Heap.RawsOwned.of_retains (ho : h.RawsOwned) (r : h.Retains h') (hr : h'.raws = h.raws) :
    h'.RawsOwned := fun p x hp =>
  let ⟨a, n, hn, hd⟩ := ho p x (hr ▸ hp)
  let ⟨n', hn', hd', _⟩ := r.nodes a n hn
  ⟨a, n', hn', hd' ▸ hd⟩

theorem poolMemTryAllocData_rawsOwned (e : poolMemTryAllocData cfg q h = .ok (d, h'))
    (ho : h.RawsOwned) : h'.RawsOwned := by
  obtain ⟨P, -, ⟨-, hh⟩ | ⟨node, raw, s, -, hnu, -, -, -, -, rfl⟩⟩ := poolMemTryAllocData_ok e
  · exact ho.of_retains (poolMemTryAllocData_retains e) (by rw [hh])
  · intro p x hp
    simp only [trackPoolUsageAllocs, trackPoolUsage_raws, trackPoolUsage_nodes,
      Store.get_cons] at hp ⊢
    split_ifs at hp with hpr
    · exact ⟨node, _, if_pos rfl, by simp [hpr]⟩
    · obtain ⟨a, n, hn, hd⟩ := ho p x hp
      exact ⟨a, n, by rw [if_neg (Store.ne_of_get hn (Heap.not_used hnu).1)]; exact hn, hd⟩

theorem poolMemAcquire_rawsOwned (e : poolMemAcquire cfg q h = .ok (d, h')) (ho : h.RawsOwned) :
    h'.RawsOwned := by
  obtain ⟨-, P, -, ⟨-, e'⟩ | ⟨-, n, -, -, rfl⟩⟩ := poolMemAcquire_ok e
  · exact poolMemTryAllocData_rawsOwned e' ho
  · exact ho.of_retains (poolMemAcquire_retains e) (by simp [trackPoolUsageMemnodeUnavailable])

theorem poolMemReturn_rawsOwned (e : poolMemReturn cfg d h = .ok h') (ho : h.RawsOwned) :
    h'.RawsOwned := by
  refine ho.of_retains (poolMemReturn_retains e) ?_
  obtain ⟨s, node, n, P, -, -, -, rfl⟩ := poolMemReturn_ok e
  simp [trackPoolUsageReturned]

/-- No pool call makes a raw block but for a new node. -/
theorem Session.step_rawsOwned {s s' : Session} {op : Op} (h : Session.step cfg s op = some s')
    (ho : s.heap.RawsOwned) : s'.heap.RawsOwned := by
  rcases Session.step_heap h with ⟨size, -, e⟩ | ⟨-, e⟩ | ⟨q, d, -, e⟩ | ⟨m, size, d, -, e⟩ |
    ⟨data, -, e⟩
  · exact e ▸ ho.of_retains (allocMemPool_retains size s.heap) (allocMemPool_raws size s.heap)
  · exact e ▸ ho.of_retains (multipoolCreate_retains s.heap) (multipoolCreate_raws s.heap)
  · exact poolMemAcquire_rawsOwned e ho
  · rcases multipoolMemAcquire_ok e with ⟨-, -, hh⟩ | ⟨-, ps, -, e⟩
    exacts [hh ▸ ho, poolMemAcquire_rawsOwned e ho]
  · exact poolMemReturn_rawsOwned e ho

theorem Session.run_rawsOwned : ∀ {ops : List Op} {s s' : Session},
    Session.run cfg s ops = some s' → s.heap.RawsOwned → s'.heap.RawsOwned
  | [], _, _, h, ho => by cases h; exact ho
  | _ :: _, _, _, h, ho => by
    obtain ⟨s₁, h₁, h₂⟩ := Option.bind_eq_some.mp h
    exact Session.run_rawsOwned h₂ (Session.step_rawsOwned h₁ ho)

/-- Every raw block of a reachable state is the block of a node. -/
theorem rawsOwned_of_reachable {s : Session} (hs : Session.Reachable cfg s) :
    s.heap.RawsOwned := by
  obtain ⟨supply, ops, hrun⟩ := hs
  exact Session.run_rawsOwned hrun fun _ _ h => by cases h

end Owned

/-! ## What `multipool_create` makes -/

section Create

/-- `alloc_mem_pool` makes no pool but the one it returns. -/
theorem allocMemPool_pools {size : UInt32} {h : Heap} {p : Ptr}
    (hp : ((allocMemPool size h).2.pools.get p).isSome) :
    (h.pools.get p).isSome ∨ (p = (allocMemPool size h).1 ∧ (allocMemPool size h).1 ≠ 0) := by
  rcases allocMemPool_cases size h with ⟨-, e⟩ | ⟨h0, -, e⟩ <;> rw [e] at hp
  · exact .inl hp
  · by_cases hpa : p = (allocMemPool size h).1
    · exact .inr ⟨hpa, h0⟩
    · simpa [hpa] using hp

/-- A non-`NULL` entry of a multipool read with `getD` is an entry. -/
theorem mem_getD_of_map_getD {o : Option (List Ptr)} {i : Nat} {x : Ptr}
    (h : o.map (·.getD i 0) = some x) (hx : x ≠ 0) : x ∈ o.getD [] := by
  obtain ⟨ps, rfl, rfl⟩ := Option.map_eq_some'.mp h
  exact getD_mem_of_ne hx

theorem multipoolCreateLoop_succ (m : Ptr) (k i : Nat) (h : Heap) :
    multipoolCreateLoop m (k + 1) i h = multipoolCreateLoop m k (i + 1)
      { (allocMemPool (multipoolClassSize i) h).2 with
        multipools := (allocMemPool (multipoolClassSize i) h).2.multipools.modify m
          fun ps => ps.set i (allocMemPool (multipoolClassSize i) h).1 } := rfl

theorem multipoolCreateLoop_multipoolKeys (m : Ptr) : ∀ k i h,
    (multipoolCreateLoop m k i h).multipools.map Prod.fst = h.multipools.map Prod.fst
  | 0, _, _ => rfl
  | k + 1, i, h => by
    rw [multipoolCreateLoop_succ, multipoolCreateLoop_multipoolKeys m k (i + 1)]
    simp only [Store.keys_modify, (allocMemPool_grows _ h).1]

/-- The loop of `multipool_create` from entry `i` on leaves the entries before `i` alone. -/
theorem multipoolCreateLoop_getD (m : Ptr) {j : Nat} : ∀ k i h, j < i →
    ((multipoolCreateLoop m k i h).multipools.get m).map (·.getD j 0) =
      (h.multipools.get m).map (·.getD j 0)
  | 0, _, _, _ => rfl
  | k + 1, i, h, hj => by
    rw [multipoolCreateLoop_succ, multipoolCreateLoop_getD m k (i + 1) _ (by omega)]
    simp only [Store.get_modify, if_true, (allocMemPool_grows _ h).1, Option.map_map]
    congr 1
    funext ps
    simp [List.getD_eq_getElem?_getD, List.getElem?_set_ne (by omega : i ≠ j)]

/-- Every pool the loop of `multipool_create` makes is an entry of the multipool. -/
theorem multipoolCreateLoop_pools (m : Ptr) : ∀ k i h ps, h.multipools.get m = some ps →
    i + k ≤ ps.length → ∀ p, ((multipoolCreateLoop m k i h).pools.get p).isSome →
      (h.pools.get p).isSome ∨ p ∈ ((multipoolCreateLoop m k i h).multipools.get m).getD []
  | 0, _, _, _, _, _, _, hp => .inl hp
  | k + 1, i, h, ps, hps, hk, p, hp => by
    rw [multipoolCreateLoop_succ] at hp ⊢
    have hps₁ : (allocMemPool (multipoolClassSize i) h).2.multipools.get m = some ps := by
      rw [(allocMemPool_grows _ h).1, hps]
    rcases multipoolCreateLoop_pools m k (i + 1) _
        (ps.set i (allocMemPool (multipoolClassSize i) h).1) (by simp [hps₁])
        (by rw [List.length_set]; omega) p hp with hp₁ | hp₁
    · rcases allocMemPool_pools hp₁ with hp₀ | ⟨rfl, h0⟩
      · exact .inl hp₀
      · refine .inr (mem_getD_of_map_getD (i := i) ?_ h0)
        rw [multipoolCreateLoop_getD m k (i + 1) _ (Nat.lt_succ_self i)]
        simp [hps₁, List.getD_eq_getElem?_getD, List.getElem?_set, show i < ps.length by omega]
    · exact .inr hp₁

/-- `multipool_create` makes one multipool, the one it returns, and no pool but its entries. -/
theorem multipoolCreate_made (h : Heap) :
    (multipoolCreate h).2.multipools.map Prod.fst =
      (if (multipoolCreate h).1 = 0 then [] else [(multipoolCreate h).1]) ++
        h.multipools.map Prod.fst ∧
    ∀ p, ((multipoolCreate h).2.pools.get p).isSome → (h.pools.get p).isSome ∨
      p ∈ ((multipoolCreate h).2.multipools.get (multipoolCreate h).1).getD [] := by
  obtain ⟨a, l, hm, -⟩ := h.malloc_eq
  simp only [multipoolCreate, hm]
  split
  · exact ⟨by simp, fun _ hp => .inl hp⟩
  · dsimp only
    generalize multipoolEntryCount = k
    refine ⟨by rw [multipoolCreateLoop_multipoolKeys]; rfl, fun p hp => ?_⟩
    exact multipoolCreateLoop_pools a k 0 _ (List.replicate k 0)
      (by rw [Store.get_cons, if_pos rfl]) (by simp) p hp

end Create

/-! ## Calls that make no pool -/

section Keys

variable {cfg : Config} {q d : Ptr} {h h' : Heap}

@[simp] theorem trackPoolUsage_poolKeys (f : MemPool → MemPool) (pool : Ptr) (h : Heap) :
    (trackPoolUsage cfg f pool h).pools.map Prod.fst = h.pools.map Prod.fst := by
  rw [trackPoolUsage_eq]; split <;> simp

theorem poolMemAcquire_poolKeys (e : poolMemAcquire cfg q h = .ok (d, h')) :
    h'.pools.map Prod.fst = h.pools.map Prod.fst := by
  obtain ⟨-, P, -, ⟨-, e⟩ | ⟨-, n, -, -, rfl⟩⟩ := poolMemAcquire_ok e
  · obtain ⟨P, -, ⟨-, hh⟩ | ⟨node, raw, s, -, -, -, -, -, -, rfl⟩⟩ := poolMemTryAllocData_ok e
    · rw [hh]
    · simp [trackPoolUsageAllocs]
  · simp [trackPoolUsageMemnodeUnavailable]

theorem poolMemReturn_poolKeys (e : poolMemReturn cfg d h = .ok h') :
    h'.pools.map Prod.fst = h.pools.map Prod.fst := by
  obtain ⟨s, node, n, P, -, -, -, rfl⟩ := poolMemReturn_ok e
  simp [trackPoolUsageReturned]

/-- A pool call other than `alloc_mem_pool` and `multipool_create` makes no pool. -/
theorem Session.step_poolKeys {s s' : Session} {op : Op} (hop : ∀ size, op ≠ .allocMemPool size)
    (hop' : op ≠ .multipoolCreate) (h : Session.step cfg s op = some s') :
    s'.heap.pools.map Prod.fst = s.heap.pools.map Prod.fst := by
  rcases Session.step_heap h with ⟨size, rfl, -⟩ | ⟨rfl, -⟩ | ⟨q, d, -, e⟩ | ⟨m, size, d, -, e⟩ |
    ⟨data, -, e⟩
  · exact absurd rfl (hop size)
  · exact absurd rfl hop'
  · exact poolMemAcquire_poolKeys e
  · rcases multipoolMemAcquire_ok e with ⟨-, -, hh⟩ | ⟨-, ps, -, e⟩
    exacts [by rw [hh], poolMemAcquire_poolKeys e]
  · exact poolMemReturn_poolKeys e

theorem Session.run_poolKeys : ∀ {ops : List Op} {s s' : Session},
    (∀ op ∈ ops, (∀ size, op ≠ .allocMemPool size) ∧ op ≠ .multipoolCreate) →
    Session.run cfg s ops = some s' → s'.heap.pools.map Prod.fst = s.heap.pools.map Prod.fst
  | [], _, _, _, h => by cases h; rfl
  | op :: _, _, _, hops, h => by
    obtain ⟨s₁, h₁, h₂⟩ := Option.bind_eq_some.mp h
    obtain ⟨hop, hop'⟩ := hops op (List.mem_cons_self _ _)
    exact (Session.run_poolKeys (fun o ho => hops o (List.mem_cons_of_mem _ ho)) h₂).trans
      (Session.step_poolKeys hop hop' h₁)

end Keys

/-! ## Clearing every pool -/

/-- Clearing every pool of a reachable heap whose raw blocks all belong to nodes leaves no
    pool, no node and no raw block. -/
theorem Inv.cleared_empty {cfg : Config} {s : Session} (hi : Inv cfg s)
    (ho : s.heap.RawsOwned) {qs : List Ptr} {h' : Heap} (hc : Cleared qs s.heap h')
    (hq : ∀ p, (s.heap.pools.get p).isSome → p ∈ qs) :
    h'.pools = [] ∧ h'.nodes = [] ∧ h'.raws = [] := by
  have hn : ∀ a n, s.heap.nodes.get a = some n → n.pool ∈ qs := fun a n hn =>
    let ⟨P, hP, _⟩ := hi.nodes a n hn
    hq _ (by rw [hP]; rfl)
  refine ⟨Store.eq_nil_of_get fun p => ?_, ?_, Store.eq_nil_of_get fun r => ?_⟩
  · rw [hc.pools]
    split_ifs with hp
    · rfl
    · exact Option.not_isSome_iff_eq_none.mp (mt (hq p) hp)
  · rw [hc.nodes, List.filter_eq_nil_iff]
    intro e he
    simpa using hn e.1 e.2 (Store.get_of_mem hi.keys he)
  · cases e : h'.raws.get r with
    | none => rfl
    | some x =>
      obtain ⟨a, n, hna, rfl⟩ := ho r x (hc.raws_sub r x e)
      rw [hc.raws_gone a n hna (hn a n hna)] at e
      cases e

end Gozlib.Pool
