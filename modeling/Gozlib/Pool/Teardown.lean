import Gozlib.Pool.Safety

/-
  Teardown: `free_poolable_mem`, `pool_mem_free_all`, `free_mem_pool`, `multipool_free` and
  `global_multipool_free`, the calls the library destructor makes at exit.

  `free` is undefined unless an object starts at its argument (`Store.free`). The loops follow
  `next` and may not end, so each call runs its loops at most `fuel` times and says how it
  ended (`Bounded`): it returned, it faulted, or the fuel ran out. The loop of
  `pool_mem_free_all` also returns the nodes it handed to `free_poolable_mem`, in order.

  * `poolMemFreeAllLoop_ok`: from a pool whose free list reaches `NULL`, the loop frees exactly
    the nodes on it, each with its raw block, and leaves `head = NULL` and `num_available`
    lowered once per node (`Freed`).
  * `Ready`: a heap every free list of which reaches `NULL` and holds all blocks of its pool.
    A reachable state where every block was returned is `Ready`. `free_mem_pool` on one of
    its pools clears the pool (`Cleared`: the pool, its nodes and their raw blocks are gone,
    everything else is as it was; `Ready.free_pool`), and clearing keeps a heap `Ready`
    (`Ready.cleared`). Clearings chain (`Cleared.trans`), so the loop of `multipool_free`
    clears every entry.
  * `teardown_frees_every_block`, from `Inv.free_all` and `Inv.multipool_free`: in such a
    state `pool_mem_free_all` and `free_mem_pool` return, having freed every block of the pool
    once; `multipool_free` returns when every entry of the multipool is a pool, and faults at
    a `NULL` entry, which `multipool_create` leaves when `malloc` fails.
-/

namespace Gozlib.Pool

/-- How a call that runs its loops at most `fuel` times ends. -/
inductive Bounded (α : Type)
  | ok (a : α)
  | fault (f : Fault)
  /-- A loop was still running when the fuel ran out. -/
  | outOfFuel
  deriving DecidableEq, Repr

namespace Bounded

def bind {α β : Type} : Bounded α → (α → Bounded β) → Bounded β
  | ok a, f => f a
  | fault e, _ => fault e
  | outOfFuel, _ => outOfFuel

instance : Monad Bounded where
  pure := ok
  bind := bind

/-- A call with no loop. -/
def ofExcept {α : Type} : Except Fault α → Bounded α
  | .ok a => ok a
  | .error f => fault f

instance : MonadLift (Except Fault) Bounded := ⟨ofExcept⟩

variable {α β : Type}

@[simp] theorem pure_eq (a : α) : (pure a : Bounded α) = ok a := rfl

@[simp] theorem ok_bind (a : α) (f : α → Bounded β) : (ok a >>= f) = f a := rfl

@[simp] theorem fault_bind (e : Fault) (f : α → Bounded β) : (fault e >>= f) = fault e := rfl

@[simp] theorem lift_ok (a : α) :
    (monadLift (Except.ok a : Except Fault α) : Bounded α) = ok a := rfl

@[simp] theorem lift_error (e : Fault) :
    (monadLift (Except.error e : Except Fault α) : Bounded α) = fault e := rfl

end Bounded

namespace Store

/-- `free (p)` of an object kept in this store: nothing for `NULL`; otherwise an object must
    start at `p` (freeing anything else is undefined behaviour), and it is gone. -/
def free {α : Type} (s : Store α) (p : Ptr) : Except Fault (Store α) :=
  if p = 0 then .ok s else do
    let _ ← deref (s.get p)
    return s.erase p

end Store

section Code

variable (cfg : Config)

/-- `free_poolable_mem`: frees the raw block, which starts one word before `node->data`, then
    the node. -/
def freePoolableMem (node : Ptr) (h : Heap) : Except Fault Heap := do
  cassert cfg (node != 0) "node != NULL"
  let n ← deref (h.nodes.get node)
  -- `free(node_data)`
  let raws ← h.raws.free (n.data - ptrdiffSize)
  -- `free(node)`
  let nodes ← h.nodes.free node
  return { h with raws := raws, nodes := nodes }

/-- The `while (node != NULL)` loop of `pool_mem_free_all`, run at most `fuel` times. Beside
    the heap it returns the nodes it handed to `free_poolable_mem`, in order. -/
def poolMemFreeAllLoop (pool : Ptr) : Nat → Ptr → Heap → Bounded (Heap × List Ptr)
  | 0, _, _ => .outOfFuel
  | fuel + 1, node, h => do
    if node = 0 then return (h, [])
    let n ← deref (h.nodes.get node)
    -- `pool->head = node->next`
    let _ ← deref (h.pools.get pool)
    let h := { h with pools := h.pools.modify pool fun P => { P with head := n.next } }
    let h ← freePoolableMem cfg node h
    let h := trackPoolUsageMemnodeUnavailable cfg pool h
    -- `node = pool->head`
    let P ← deref (h.pools.get pool)
    let (h, freed) ← poolMemFreeAllLoop pool fuel P.head h
    return (h, node :: freed)

/-- `pool_mem_free_all`. -/
def poolMemFreeAll (pool : Ptr) (fuel : Nat) (h : Heap) : Bounded (Heap × List Ptr) := do
  cassert cfg (pool != 0) "pool != NULL"
  let P ← deref (h.pools.get pool)
  poolMemFreeAllLoop cfg pool fuel P.head h

/-- `free_mem_pool`. -/
def freeMemPool (pool : Ptr) (fuel : Nat) (h : Heap) : Bounded (Heap × List Ptr) := do
  cassert cfg (pool != 0) "pool != NULL"
  let (h, freed) ← poolMemFreeAll cfg pool fuel h
  let pools ← h.pools.free pool
  return ({ h with pools := pools }, freed)

/-- The loop of `multipool_free` over the entries `i, i + 1, …`, `k` of them. -/
def multipoolFreeLoop (multipool : Ptr) (fuel : Nat) : Nat → Nat → Heap → Bounded (Heap × List Ptr)
  | 0, _, h => return (h, [])
  | k + 1, i, h => do
    let pools ← deref (h.multipools.get multipool)
    let (h, freed) ← freeMemPool cfg (pools.getD i 0) fuel h
    let (h, freed') ← multipoolFreeLoop multipool fuel k (i + 1) h
    return (h, freed ++ freed')

/-- `multipool_free`. -/
def multipoolFree (multipool : Ptr) (fuel : Nat) (h : Heap) : Bounded (Heap × List Ptr) := do
  cassert cfg (multipool != 0) "multipool != NULL"
  let (h, freed) ← multipoolFreeLoop cfg multipool fuel multipoolEntryCount 0 h
  let multipools ← h.multipools.free multipool
  return ({ h with multipools := multipools }, freed)

/-- `global_multipool_free`; `globalMultipool` is the value of `_global_multipool`. -/
def globalMultipoolFree (globalMultipool : Ptr) (fuel : Nat) (h : Heap) :
    Bounded (Heap × List Ptr) :=
  multipoolFree cfg globalMultipool fuel h

end Code

/-! ## One node -/

namespace Store

variable {α : Type} {s : Store α} {p : Ptr}

theorem free_of_get {x : α} (hp : p ≠ 0) (hx : s.get p = some x) : s.free p = .ok (s.erase p) := by
  simp [free, hp, hx, deref, bind, Except.bind, pure, Except.pure]

/-- Dropping the objects at the addresses `xs` after the one at `a` drops those at `a :: xs`. -/
theorem filter_erase (s : Store α) (a : Ptr) (xs : List Ptr) :
    (s.erase a).filter (fun e => e.1 ∉ xs) = s.filter fun e => e.1 ∉ a :: xs := by
  simp only [erase, List.filter_filter, List.mem_cons, not_or]
  congr 1
  funext e
  simp only [Bool.decide_and, Bool.and_comm]

theorem get_filter_not_mem (s : Store α) (xs : List Ptr) (a : Ptr) :
    Store.get (s.filter fun e => e.1 ∉ xs) a = if a ∈ xs then none else s.get a := by
  induction s with
  | nil => split <;> rfl
  | cons e s ih =>
    obtain ⟨b, x⟩ := e
    by_cases ha : a = b <;> by_cases hb : b ∈ xs <;> simp_all [List.filter_cons]

end Store

variable {cfg : Config}

/-- `free_poolable_mem` of a node that is a block: the raw block and the node are gone. -/
theorem freePoolableMem_eq {node : Ptr} {h : Heap} {n : MemNode} {r : Nat × Ptr}
    (h0 : node ≠ 0) (hn : h.nodes.get node = some n) (hd : ptrdiffSize < n.data)
    (hr : h.raws.get (n.data - ptrdiffSize) = some r) :
    freePoolableMem cfg node h =
      .ok { h with raws := h.raws.erase (n.data - ptrdiffSize), nodes := h.nodes.erase node } := by
  have hd0 : n.data - ptrdiffSize ≠ 0 := Nat.sub_ne_zero_of_lt hd
  simp [freePoolableMem, h0, hn, Store.free_of_get hd0 hr, Store.free_of_get h0 hn, cassert, deref,
    bind, Except.bind, pure, Except.pure]

/-- One turn of the loop of `pool_mem_free_all` on the node `a`: unlink it, free it and its raw
    block, count it as unavailable, and go on from its `next`. -/
def freeAllStep (cfg : Config) (q a : Ptr) (n : MemNode) (h : Heap) : Heap :=
  trackPoolUsageMemnodeUnavailable cfg q { h with
    pools := h.pools.modify q fun P => { P with head := n.next },
    raws := h.raws.erase (n.data - ptrdiffSize), nodes := h.nodes.erase a }

section FreeAllStep

variable {q a : Ptr} {n : MemNode} {h : Heap}

@[simp] theorem freeAllStep_nodes : (freeAllStep cfg q a n h).nodes = h.nodes.erase a := by
  simp [freeAllStep, trackPoolUsageMemnodeUnavailable]

@[simp] theorem freeAllStep_raws :
    (freeAllStep cfg q a n h).raws = h.raws.erase (n.data - ptrdiffSize) := by
  simp [freeAllStep, trackPoolUsageMemnodeUnavailable]

@[simp] theorem freeAllStep_multipools : (freeAllStep cfg q a n h).multipools = h.multipools := by
  simp [freeAllStep, trackPoolUsageMemnodeUnavailable]

@[simp] theorem freeAllStep_supply : (freeAllStep cfg q a n h).supply = h.supply := by
  simp [freeAllStep, trackPoolUsageMemnodeUnavailable]

theorem freeAllStep_pools_get (p : Ptr) :
    (freeAllStep cfg q a n h).pools.get p = if p = q then (h.pools.get q).map fun P =>
      if cfg.trackPoolUsage then { P with head := n.next, numAvailable := P.numAvailable - 1 }
      else { P with head := n.next } else h.pools.get p := by
  by_cases hp : p = q <;> by_cases ht : cfg.trackPoolUsage = true <;>
    simp [freeAllStep, trackPoolUsageMemnodeUnavailable, hp, ht, Function.comp_def]

end FreeAllStep

theorem poolMemFreeAllLoop_succ {q a : Ptr} {h h' : Heap} {n : MemNode} {P : MemPool}
    {r : Nat × Ptr} {fuel : Nat} {xs : List Ptr} (ha : a ≠ 0) (hn : h.nodes.get a = some n)
    (hP : h.pools.get q = some P) (hd : ptrdiffSize < n.data)
    (hr : h.raws.get (n.data - ptrdiffSize) = some r)
    (e : poolMemFreeAllLoop cfg q fuel n.next (freeAllStep cfg q a n h) = .ok (h', xs)) :
    poolMemFreeAllLoop cfg q (fuel + 1) a h = .ok (h', a :: xs) := by
  have hX := @freePoolableMem_eq cfg a { h with pools := h.pools.modify q fun P =>
    { P with head := n.next } } n r ha hn hd hr
  simp only [freeAllStep, trackPoolUsageMemnodeUnavailable] at e
  by_cases ht : cfg.trackPoolUsage = true <;>
    simp only [poolMemFreeAllLoop, ha, if_false, hn, hP, deref, Bounded.lift_ok, Bounded.ok_bind,
      hX, trackPoolUsageMemnodeUnavailable, trackPoolUsage_pools_get, Store.get_modify, ht,
      and_true, and_false, true_and, Bool.false_eq_true, if_true, if_false, Option.map_some',
      Bounded.pure_eq, e]

/-! ## The loop of `pool_mem_free_all` -/

theorem uint32_sub_toNat (x y : UInt32) : (x - y).toNat = (2 ^ 32 - y.toNat + x.toNat) % 2 ^ 32 :=
  BitVec.toNat_sub _ _

theorem uint32_sub_one_sub (x : UInt32) (k : Nat) :
    x - 1 - UInt32.ofNat k = x - UInt32.ofNat (k + 1) := by
  have : x.toNat < 2 ^ 32 := x.toNat_lt_size
  apply UInt32.toNat.inj
  simp only [uint32_sub_toNat, toNat_uint32_ofNat, show (1 : UInt32).toNat = 1 from rfl]
  omega

theorem uint32_sub_ofNat_self {x : UInt32} {k : Nat} (h : x.toNat = k % 2 ^ 32) :
    x - UInt32.ofNat k = 0 := by
  have : x.toNat < 2 ^ 32 := x.toNat_lt_size
  apply UInt32.toNat.inj
  rw [uint32_sub_toNat, toNat_uint32_ofNat, ← h, show (0 : UInt32).toNat = 0 from rfl]
  omega

/-- Pool `P` once the loop of `pool_mem_free_all` freed `k` of its nodes: `head` is `NULL`,
    and with `TRACK_POOL_USAGE` `num_available` went down by `k`. -/
def MemPool.emptied (cfg : Config) (k : Nat) (P : MemPool) : MemPool :=
  { P with
    head := 0
    numAvailable := if cfg.trackPoolUsage then P.numAvailable - UInt32.ofNat k else P.numAvailable }

theorem MemPool.emptied_zero {P : MemPool} (hP : P.head = 0) : P.emptied cfg 0 = P := by
  obtain ⟨head, memSize, numAllocs, numAvailable⟩ := P
  have : numAvailable - 0 = numAvailable := by
    have : numAvailable.toNat < 2 ^ 32 := numAvailable.toNat_lt_size
    apply UInt32.toNat.inj
    rw [uint32_sub_toNat, show (0 : UInt32).toNat = 0 from rfl]
    omega
  simp only at hP
  cases h : cfg.trackPoolUsage <;> simp [MemPool.emptied, hP, h, this]

/-- Every node is one word past the start of a raw block whose first word is the node. -/
def HiddenWords (h : Heap) : Prop :=
  ∀ a n, h.nodes.get a = some n →
    ptrdiffSize < n.data ∧ ∃ size, h.raws.get (n.data - ptrdiffSize) = some (size, a)

/-- Freeing a node and its raw block keeps the hidden words of the others. -/
theorem HiddenWords.step {h : Heap} (hw : HiddenWords h) (q : Ptr) {a : Ptr} {n : MemNode}
    (hn : h.nodes.get a = some n) : HiddenWords (freeAllStep cfg q a n h) := by
  intro b m hm
  rw [freeAllStep_nodes, Store.get_erase] at hm
  split_ifs at hm with hb
  obtain ⟨hd, size, hr⟩ := hw b m hm
  refine ⟨hd, size, ?_⟩
  rw [freeAllStep_raws, Store.get_erase, if_neg, hr]
  intro he
  obtain ⟨-, size', hra⟩ := hw a n hn
  rw [← he, hr] at hra
  exact hb (Prod.mk.inj (Option.some.inj hra)).2

/-- `h'` is `h` after the loop of `pool_mem_free_all` on pool `q` freed the nodes `xs`, each
    with its raw block, set `head` to `NULL` and counted the nodes off `num_available`. -/
structure Freed (cfg : Config) (q : Ptr) (xs : List Ptr) (h h' : Heap) : Prop where
  nodes : h'.nodes = h.nodes.filter fun e => e.1 ∉ xs
  raws_freed : ∀ a ∈ xs, ∀ n, h.nodes.get a = some n → h'.raws.get (n.data - ptrdiffSize) = none
  raws_kept : ∀ r, (∀ a ∈ xs, ∀ n, h.nodes.get a = some n → n.data - ptrdiffSize ≠ r) →
    h'.raws.get r = h.raws.get r
  raws_sub : ∀ r x, h'.raws.get r = some x → h.raws.get r = some x
  pools : ∀ p, h'.pools.get p =
    if p = q then (h.pools.get q).map (MemPool.emptied cfg xs.length) else h.pools.get p
  multipools : h'.multipools = h.multipools
  supply : h'.supply = h.supply

theorem Freed.nil {q : Ptr} {h : Heap} {P : MemPool} (hP : h.pools.get q = some P)
    (h0 : P.head = 0) : Freed cfg q [] h h where
  nodes := by simp
  raws_freed := by simp
  raws_kept _ _ := rfl
  raws_sub _ _ := id
  pools p := by
    split_ifs with hp
    · subst hp; rw [hP, Option.map_some', List.length_nil, MemPool.emptied_zero h0]
    · rfl
  multipools := rfl
  supply := rfl

theorem Freed.cons {q a : Ptr} {h h' : Heap} {n : MemNode} {size : Nat} {xs : List Ptr}
    (hn : h.nodes.get a = some n) (hr : h.raws.get (n.data - ptrdiffSize) = some (size, a))
    (hxs : a ∉ xs) (hf : Freed cfg q xs (freeAllStep cfg q a n h) h') :
    Freed cfg q (a :: xs) h h' where
  nodes := by rw [hf.nodes, freeAllStep_nodes, Store.filter_erase]
  raws_freed b hb m hm := by
    rcases List.mem_cons.mp hb with rfl | hb
    · rw [hn] at hm
      cases hm
      cases e : h'.raws.get (n.data - ptrdiffSize) with
      | none => rfl
      | some x => simpa using hf.raws_sub _ x e
    · have hba : b ≠ a := fun e => hxs (e ▸ hb)
      exact hf.raws_freed b hb m (by simpa [hba] using hm)
  raws_kept r hr' := by
    have hra : r ≠ n.data - ptrdiffSize := fun e => hr' a (List.mem_cons_self _ _) n hn e.symm
    have hxs' : ∀ b ∈ xs, ∀ m, (freeAllStep cfg q a n h).nodes.get b = some m →
        m.data - ptrdiffSize ≠ r := fun b hb m hm => by
      have hba : b ≠ a := fun e => hxs (e ▸ hb)
      exact hr' b (List.mem_cons_of_mem _ hb) m (by simpa [hba] using hm)
    rw [hf.raws_kept r hxs', freeAllStep_raws, Store.get_erase, if_neg hra]
  raws_sub r x hx := by
    have := hf.raws_sub r x hx
    rw [freeAllStep_raws, Store.get_erase] at this
    split_ifs at this
    exact this
  pools p := by
    rw [hf.pools, freeAllStep_pools_get, freeAllStep_pools_get]
    by_cases hp : p = q
    · simp only [hp, if_true]
      cases ht : cfg.trackPoolUsage <;> cases h.pools.get q <;>
        simp [MemPool.emptied, ht, uint32_sub_one_sub]
    · simp only [hp, if_false]
  multipools := by rw [hf.multipools, freeAllStep_multipools]
  supply := by rw [hf.supply, freeAllStep_supply]

/-- From a pool whose free list reaches `NULL` through nodes that are blocks, the loop of
    `pool_mem_free_all` runs once per node and frees exactly them (`Freed`). -/
theorem poolMemFreeAllLoop_ok {q : Ptr} : ∀ {xs : List Ptr} {node : Ptr} {h : Heap} {fuel : Nat},
    FreeList h.nodes node xs → (∃ P, h.pools.get q = some P ∧ P.head = node) → HiddenWords h →
    xs.length < fuel →
    ∃ h', poolMemFreeAllLoop cfg q fuel node h = .ok (h', xs) ∧ Freed cfg q xs h h'
  | [], _, h, fuel + 1, hfl, ⟨P, hP, hh⟩, _, _ => by
    obtain rfl := FreeList.nil_iff.mp hfl
    exact ⟨h, rfl, Freed.nil hP hh⟩
  | a :: xs, node, h, fuel + 1, hfl, ⟨P, hP, hh⟩, hw, hfuel => by
    have hnd := hfl.nodup
    obtain ⟨rfl, ha, n, hn, hrest⟩ := FreeList.cons_iff.mp hfl
    obtain ⟨hd, size, hr⟩ := hw node n hn
    have hxs : node ∉ xs := (List.nodup_cons.mp hnd).1
    have hP' : ∃ P', (freeAllStep cfg q node n h).pools.get q = some P' ∧ P'.head = n.next :=
      ⟨_, by rw [freeAllStep_pools_get, if_pos rfl, hP]; rfl, by split <;> rfl⟩
    obtain ⟨h', e, hf⟩ := poolMemFreeAllLoop_ok (by simpa using hrest.erase hxs) hP'
      (hw.step q hn) (by simpa using hfuel)
    exact ⟨h', poolMemFreeAllLoop_succ ha hn hP hd hr e, hf.cons hn hr hxs⟩

/-! ## `pool_mem_free_all` and `free_mem_pool` -/

section FreePool

variable {q : Ptr} {h : Heap} {P : MemPool} {xs : List Ptr} {fuel : Nat}

theorem poolMemFreeAll_ok (hq : q ≠ 0) (hP : h.pools.get q = some P)
    (hfl : FreeList h.nodes P.head xs) (hw : HiddenWords h) (hfuel : xs.length < fuel) :
    ∃ h', poolMemFreeAll cfg q fuel h = .ok (h', xs) ∧ Freed cfg q xs h h' := by
  obtain ⟨h', e, hf⟩ := poolMemFreeAllLoop_ok hfl ⟨P, hP, rfl⟩ hw hfuel
  exact ⟨h', by simp [poolMemFreeAll, cassert, hq, hP, deref, e], hf⟩

/-- `free_mem_pool` frees what `pool_mem_free_all` freed, then the pool itself. -/
theorem freeMemPool_of_ok {h' : Heap} {P' : MemPool} (hq : q ≠ 0)
    (e : poolMemFreeAll cfg q fuel h = .ok (h', xs)) (hP' : h'.pools.get q = some P') :
    freeMemPool cfg q fuel h = .ok ({ h' with pools := h'.pools.erase q }, xs) := by
  simp [freeMemPool, cassert, hq, e, Store.free_of_get hq hP']

theorem freeMemPool_ok (hq : q ≠ 0) (hP : h.pools.get q = some P)
    (hfl : FreeList h.nodes P.head xs) (hw : HiddenWords h) (hfuel : xs.length < fuel) :
    ∃ h', freeMemPool cfg q fuel h = .ok ({ h' with pools := h'.pools.erase q }, xs) ∧
      Freed cfg q xs h h' := by
  obtain ⟨h', e, hf⟩ := poolMemFreeAll_ok hq hP hfl hw hfuel
  exact ⟨h', freeMemPool_of_ok hq e (by rw [hf.pools, if_pos rfl, hP]; rfl), hf⟩

/-- `free_mem_pool (NULL)`: the assertion fails, and without assertions `pool->head` reads
    through `NULL`. -/
theorem freeMemPool_null (h0 : h.pools.get 0 = none) :
    freeMemPool cfg 0 fuel h =
      .fault (if cfg.assertions then .assertFailed "pool != NULL" else .undefined) := by
  cases ha : cfg.assertions <;> simp [freeMemPool, poolMemFreeAll, cassert, ha, h0, deref]

end FreePool

/-! ## Heaps ready for teardown -/

theorem Store.length_nodesOf_le (s : Store MemNode) (q : Ptr) : (s.nodesOf q).length ≤ s.length := by
  simpa [Store.nodesOf] using List.length_filter_le _ s

/-- A heap ready for teardown: no pool at `NULL`, distinct node addresses, every node a block,
    and every pool's free list reaching `NULL` through exactly the blocks the pool allocated. -/
structure Ready (h : Heap) : Prop where
  pool0 : h.pools.get 0 = none
  keys : (h.nodes.map Prod.fst).Nodup
  words : HiddenWords h
  lists : ∀ q P, h.pools.get q = some P →
    ∃ xs, FreeList h.nodes P.head xs ∧ xs.Perm (h.nodes.nodesOf q)

/-- A reachable state in which every block was returned is ready for teardown. -/
theorem Ready.of_inv {s : Session} (hi : Inv cfg s) (hheld : s.held = []) : Ready s.heap where
  pool0 := hi.pool0
  keys := hi.keys
  words a n hn := by
    obtain ⟨P, -, -, hd, hr⟩ := hi.nodes a n hn
    exact ⟨hd, _, hr⟩
  lists q P hP := by
    obtain ⟨xs, hfl, hperm, -⟩ := hi.pools q P hP
    exact ⟨xs, hfl, by simpa [Session.heldNodes, hheld] using hperm⟩

/-! ## Clearing pools -/

namespace Store

variable {α : Type} {s : Store α} {a : Ptr} {x : α}

theorem mem_of_get (h : s.get a = some x) : (a, x) ∈ s := by
  induction s with
  | nil => cases h
  | cons e s ih =>
    obtain ⟨b, y⟩ := e
    rw [get_cons] at h
    split_ifs at h with hab
    · cases h; subst hab; exact List.mem_cons_self _ _
    · exact List.mem_cons_of_mem _ (ih h)

theorem get_filter_of_get {p : Ptr × α → Bool} (h : s.get a = some x) (hp : p (a, x)) :
    get (s.filter p) a = some x := by
  induction s with
  | nil => cases h
  | cons e s ih =>
    obtain ⟨b, y⟩ := e
    rw [get_cons] at h
    split_ifs at h with hab
    · cases h; subst hab; simp [List.filter_cons, hp]
    · rw [List.filter_cons]; split <;> simp [hab, ih h]

theorem get_of_get_filter (hk : (s.map Prod.fst).Nodup) {p : Ptr × α → Bool}
    (h : get (s.filter p) a = some x) : s.get a = some x ∧ p (a, x) := by
  obtain ⟨hm, hp⟩ := List.mem_filter.mp (mem_of_get h)
  exact ⟨get_of_mem hk hm, hp⟩

/-- Keeping the nodes of the pools not in `qs` keeps the node list of each such pool. -/
theorem nodesOf_filter_pool (s : Store MemNode) {qs : List Ptr} {q : Ptr} (hq : q ∉ qs) :
    Store.nodesOf (s.filter fun e => e.2.pool ∉ qs) q = s.nodesOf q := by
  simp only [nodesOf, List.filter_filter]
  congr 1
  exact List.filter_congr fun e _ => by by_cases h : e.2.pool = q <;> simp [h, hq]

end Store

/-- `h'` is `h` with the pools `qs` freed: those pools, their nodes and the raw blocks of their
    nodes are gone, and every other pool, node and raw block is as it was. -/
structure Cleared (qs : List Ptr) (h h' : Heap) : Prop where
  pools : ∀ p, h'.pools.get p = if p ∈ qs then none else h.pools.get p
  nodes : h'.nodes = h.nodes.filter fun e => e.2.pool ∉ qs
  raws_gone : ∀ a n, h.nodes.get a = some n → n.pool ∈ qs →
    h'.raws.get (n.data - ptrdiffSize) = none
  raws_kept : ∀ r, (∀ a n, h.nodes.get a = some n → n.pool ∈ qs → n.data - ptrdiffSize ≠ r) →
    h'.raws.get r = h.raws.get r
  raws_sub : ∀ r x, h'.raws.get r = some x → h.raws.get r = some x

namespace Cleared

variable {qs qs' : List Ptr} {h h₁ h₂ : Heap}

theorem nil (h : Heap) : Cleared [] h h where
  pools _ := by simp
  nodes := by simp
  raws_gone _ _ _ hq := absurd hq (List.not_mem_nil _)
  raws_kept _ _ := rfl
  raws_sub _ _ := id

theorem pools_of_not_mem (hc : Cleared qs h h₁) {p : Ptr} (hp : p ∉ qs) :
    h₁.pools.get p = h.pools.get p := by
  rw [hc.pools, if_neg hp]

theorem nodesOf_of_not_mem (hc : Cleared qs h h₁) {p : Ptr} (hp : p ∉ qs) :
    h₁.nodes.nodesOf p = h.nodes.nodesOf p := by
  rw [hc.nodes, Store.nodesOf_filter_pool _ hp]

theorem length_le (hc : Cleared qs h h₁) : h₁.nodes.length ≤ h.nodes.length := by
  rw [hc.nodes]
  exact List.length_filter_le _ _

theorem get_node (hc : Cleared qs h h₁) {a : Ptr} {n : MemNode} (hn : h.nodes.get a = some n)
    (hq : n.pool ∉ qs) : h₁.nodes.get a = some n := by
  rw [hc.nodes]
  exact Store.get_filter_of_get hn (by simpa using hq)

theorem raws_none (hc : Cleared qs h h₁) {r : Ptr} (hr : h.raws.get r = none) :
    h₁.raws.get r = none := by
  cases e : h₁.raws.get r with
  | none => rfl
  | some x => rw [hc.raws_sub r x e] at hr; cases hr

/-- Clearing `qs`, then `qs'`, clears `qs ++ qs'`. -/
theorem trans (hk : (h.nodes.map Prod.fst).Nodup) (c₁ : Cleared qs h h₁)
    (c₂ : Cleared qs' h₁ h₂) : Cleared (qs ++ qs') h h₂ where
  pools p := by
    rw [c₂.pools, c₁.pools]
    by_cases hp : p ∈ qs <;> by_cases hp' : p ∈ qs' <;> simp [hp, hp']
  nodes := by
    rw [c₂.nodes, c₁.nodes, List.filter_filter]
    congr 1
    funext e
    simp [Bool.and_comm]
  raws_gone a n hn hq := by
    by_cases hp : n.pool ∈ qs
    · exact c₂.raws_none (c₁.raws_gone a n hn hp)
    · exact c₂.raws_gone a n (c₁.get_node hn hp) ((List.mem_append.mp hq).resolve_left hp)
  raws_kept r hr := by
    have hr₁ : ∀ a n, h₁.nodes.get a = some n → n.pool ∈ qs' → n.data - ptrdiffSize ≠ r :=
      fun a n hn hq => by
        rw [c₁.nodes] at hn
        exact hr a n (Store.get_of_get_filter hk hn).1 (List.mem_append_right _ hq)
    rw [c₂.raws_kept r hr₁, c₁.raws_kept r fun a n hn hq => hr a n hn (List.mem_append_left _ hq)]
  raws_sub r x hx := c₁.raws_sub r x (c₂.raws_sub r x hx)

end Cleared

/-- The nodes `pool_mem_free_all` freed are the blocks of the pool: once `free_mem_pool` has
    freed the pool too, the pool is cleared. -/
theorem Freed.cleared {q : Ptr} {xs : List Ptr} {h h' : Heap} (hf : Freed cfg q xs h h')
    (hk : (h.nodes.map Prod.fst).Nodup) (hperm : xs.Perm (h.nodes.nodesOf q)) :
    Cleared [q] h { h' with pools := h'.pools.erase q } := by
  have hxs : ∀ a n, h.nodes.get a = some n → (a ∈ xs ↔ n.pool = q) := fun a n hn => by
    rw [hperm.mem_iff, Store.mem_nodesOf hk]
    exact ⟨fun ⟨m, hm, hq⟩ => by rw [hn] at hm; cases hm; exact hq, fun hq => ⟨n, hn, hq⟩⟩
  refine ⟨fun p => ?_, hf.nodes.trans (List.filter_congr fun e he => ?_), fun a n hn hq => ?_,
    fun r hr => ?_, hf.raws_sub⟩
  · by_cases hp : p = q <;> simp [hp, hf.pools]
  · simp [hxs e.1 e.2 (Store.get_of_mem hk he)]
  · exact hf.raws_freed a ((hxs a n hn).mpr (List.mem_singleton.mp hq)) n hn
  · exact hf.raws_kept r fun a ha n hn => hr a n hn (List.mem_singleton.mpr ((hxs a n hn).mp ha))

/-- Clearing pools keeps a heap ready for teardown. -/
theorem Ready.cleared {qs : List Ptr} {h h' : Heap} (hr : Ready h) (hc : Cleared qs h h') :
    Ready h' where
  pool0 := by rw [hc.pools]; split <;> simp [hr.pool0]
  keys := by
    rw [hc.nodes]
    exact hr.keys.sublist ((List.filter_sublist _).map _)
  words a n hn := by
    rw [hc.nodes] at hn
    obtain ⟨hn, hq⟩ := Store.get_of_get_filter hr.keys hn
    obtain ⟨hd, size, hraw⟩ := hr.words a n hn
    refine ⟨hd, size, (hc.raws_kept _ fun b m hm hb he => ?_).trans hraw⟩
    obtain ⟨-, size', hraw'⟩ := hr.words b m hm
    rw [he, hraw] at hraw'
    cases hraw'
    rw [hn] at hm
    cases hm
    exact absurd hb (by simpa using hq)
  lists q P hP := by
    rw [hc.pools] at hP
    split_ifs at hP with hq
    obtain ⟨xs, hfl, hperm⟩ := hr.lists q P hP
    refine ⟨xs, hfl.congr fun b hb => ?_, hc.nodesOf_of_not_mem hq ▸ hperm⟩
    obtain ⟨m, hm, rfl⟩ := (Store.mem_nodesOf hr.keys).mp (hperm.subset hb)
    rw [hc.get_node hm hq, hm]

/-- `free_mem_pool` on a pool of a ready heap returns, having freed each block of the pool
    once, and clears the pool. -/
theorem Ready.free_pool {h : Heap} (hr : Ready h) {q : Ptr} {P : MemPool}
    (hP : h.pools.get q = some P) {fuel : Nat} (hfuel : h.nodes.length < fuel) :
    ∃ h' xs, freeMemPool cfg q fuel h = .ok (h', xs) ∧ xs.Perm (h.nodes.nodesOf q) ∧
      h'.multipools = h.multipools ∧ Cleared [q] h h' := by
  obtain ⟨xs, hfl, hperm⟩ := hr.lists q P hP
  have hq : q ≠ 0 := fun h0 => by rw [h0, hr.pool0] at hP; cases hP
  obtain ⟨h', e, hf⟩ := @freeMemPool_ok cfg q h P xs fuel hq hP hfl hr.words
    ((hperm.length_eq.trans_le (Store.length_nodesOf_le _ _)).trans_lt hfuel)
  exact ⟨_, xs, e, hperm, hf.multipools, hf.cleared hr.keys hperm⟩

/-- Freeing one more pool of `h`, from a ready heap that clears `qs` from `h`, clears one pool
    more. -/
theorem Cleared.free_pool {qs : List Ptr} {h h₁ : Heap} (hc : Cleared qs h h₁) (cfg : Config)
    (hr : Ready h₁)
    (hk : (h.nodes.map Prod.fst).Nodup) {q : Ptr} (hq : q ∉ qs) (hP : (h.pools.get q).isSome)
    {fuel : Nat} (hfuel : h.nodes.length < fuel) :
    ∃ h₂ xs, freeMemPool cfg q fuel h₁ = .ok (h₂, xs) ∧ h₂.multipools = h₁.multipools ∧
      Ready h₂ ∧ Cleared (qs ++ [q]) h h₂ := by
  obtain ⟨P, hP⟩ := Option.isSome_iff_exists.mp (by rw [hc.pools_of_not_mem hq]; exact hP :
    (h₁.pools.get q).isSome)
  obtain ⟨h₂, xs, e, -, hmp, hc₂⟩ := @Ready.free_pool cfg h₁ hr q P hP fuel
    (hc.length_le.trans_lt hfuel)
  exact ⟨h₂, xs, e, hmp, hr.cleared hc₂, hc.trans hk hc₂⟩

/-! ## `multipool_free` -/

theorem map_getD_range' (l : List Ptr) :
    (List.range' 0 l.length).map (fun j => l.getD j 0) = l := by
  apply List.ext_getElem (by simp)
  intro i h₁ h₂
  simp [List.getElem_range', h₂]

section MultipoolLoop

variable {mp fuel : Nat} {ps : List Ptr}

/-- The loop of `multipool_free` over entries that are distinct pools of a ready heap frees
    every block of those pools once, and clears the pools. -/
theorem multipoolFreeLoop_ok : ∀ (k i : Nat) {h : Heap}, Ready h →
    h.multipools.get mp = some ps → h.nodes.length < fuel →
    (∀ j, i ≤ j → j < i + k → (h.pools.get (ps.getD j 0)).isSome) →
    (∀ j j', i ≤ j → j < j' → j' < i + k → ps.getD j 0 ≠ ps.getD j' 0) →
    ∃ h' xs, multipoolFreeLoop cfg mp fuel k i h = .ok (h', xs) ∧
      xs.Perm (((List.range' i k).map fun j => ps.getD j 0).flatMap h.nodes.nodesOf) ∧
      h'.multipools = h.multipools ∧ Cleared ((List.range' i k).map fun j => ps.getD j 0) h h'
  | 0, _, h, _, _, _, _, _ => ⟨h, [], rfl, by simp, rfl, Cleared.nil h⟩
  | k + 1, i, h, hr, hmp, hfuel, hs, hd => by
    obtain ⟨P, hP⟩ := Option.isSome_iff_exists.mp (hs i le_rfl (by omega))
    obtain ⟨h₁, xs, e, hperm, hmp₁, hc₁⟩ := @Ready.free_pool cfg h hr _ P hP fuel hfuel
    have hne : ∀ j, i + 1 ≤ j → j < i + 1 + k → ps.getD j 0 ∉ [ps.getD i 0] := fun j hj hj' =>
      mt List.mem_singleton.mp (hd i j le_rfl (by omega) (by omega)).symm
    obtain ⟨h', ys, e', hperm', hmp', hc'⟩ := multipoolFreeLoop_ok k (i + 1) (hr.cleared hc₁)
      (hmp₁ ▸ hmp) (hc₁.length_le.trans_lt hfuel)
      (fun j hj hj' => by rw [hc₁.pools_of_not_mem (hne j hj hj')]; exact hs j (by omega) (by omega))
      (fun j j' hj hjj' hj' => hd j j' (by omega) hjj' (by omega))
    refine ⟨h', xs ++ ys, by simp only [multipoolFreeLoop, hmp, deref, Bounded.lift_ok,
      Bounded.ok_bind, e, e', Bounded.pure_eq], ?_, hmp'.trans hmp₁, ?_⟩
    · rw [List.range'_succ, List.map_cons, List.flatMap_cons]
      refine hperm.append (hperm'.trans (List.Perm.of_eq (List.flatMap_congr fun q hq => ?_)))
      obtain ⟨j, hj, rfl⟩ := List.mem_map.mp hq
      obtain ⟨hj₁, hj₂⟩ := List.mem_range'_1.mp hj
      exact hc₁.nodesOf_of_not_mem (hne j hj₁ (by omega))
    · rw [List.range'_succ, List.map_cons]
      exact hc₁.trans hr.keys hc'

/-- The loop of `multipool_free` faults at a `NULL` entry when the entries before it are
    distinct pools of a ready heap. -/
theorem multipoolFreeLoop_fault : ∀ (k i : Nat) {h : Heap}, Ready h →
    h.multipools.get mp = some ps → h.nodes.length < fuel →
    (∃ j, i ≤ j ∧ j < i + k ∧ ps.getD j 0 = 0) →
    (∀ j, i ≤ j → j < i + k → ps.getD j 0 ≠ 0 → (h.pools.get (ps.getD j 0)).isSome) →
    (∀ j j', i ≤ j → j < j' → j' < i + k → ps.getD j 0 ≠ 0 → ps.getD j 0 ≠ ps.getD j' 0) →
    multipoolFreeLoop cfg mp fuel k i h =
      .fault (if cfg.assertions then .assertFailed "pool != NULL" else .undefined)
  | 0, _, _, _, _, _, ⟨_, hj, hj', _⟩, _, _ => absurd hj' (by omega)
  | k + 1, i, h, hr, hmp, hfuel, ⟨j, hj, hj', hj0⟩, hs, hd => by
    by_cases h0 : ps.getD i 0 = 0
    · simp only [multipoolFreeLoop, hmp, deref, Bounded.lift_ok, Bounded.ok_bind, h0,
        freeMemPool_null hr.pool0, Bounded.fault_bind]
    obtain ⟨P, hP⟩ := Option.isSome_iff_exists.mp (hs i le_rfl (by omega) h0)
    obtain ⟨h₁, xs, e, -, hmp₁, hc₁⟩ := @Ready.free_pool cfg h hr _ P hP fuel hfuel
    have hji : i ≠ j := fun e => h0 (e ▸ hj0)
    have hrest := multipoolFreeLoop_fault k (i + 1) (hr.cleared hc₁) (hmp₁ ▸ hmp)
      (hc₁.length_le.trans_lt hfuel) ⟨j, by omega, by omega, hj0⟩
      (fun j' h₁ h₂ hne0 => by
        rw [hc₁.pools_of_not_mem (mt List.mem_singleton.mp
          (hd i j' le_rfl (by omega) (by omega) h0).symm)]
        exact hs j' (by omega) (by omega) hne0)
      (fun j₁ j₂ h₁ h₁₂ h₂ hne0 => hd j₁ j₂ (by omega) h₁₂ (by omega) hne0)
    simp only [multipoolFreeLoop, hmp, deref, Bounded.lift_ok, Bounded.ok_bind, e, hrest,
      Bounded.fault_bind]

end MultipoolLoop

/-- Two entries of a multipool are different pools, unless the first is `NULL`. -/
theorem Inv.entry_ne {s : Session} (hi : Inv cfg s) {mp : Ptr} {ps : List Ptr}
    (hps : s.heap.multipools.get mp = some ps) {j j' : Nat} (hjj' : j < j')
    (hj' : j' < multipoolEntryCount) (h0 : ps.getD j 0 ≠ 0) : ps.getD j 0 ≠ ps.getD j' 0 := by
  intro he
  rcases hi.entry hps (by omega : j < multipoolEntryCount) with h | ⟨P, hP, hsz⟩
  · exact h0 h
  rcases hi.entry hps hj' with h' | ⟨P', hP', hsz'⟩
  · exact h0 (he.trans h')
  rw [← he, hP] at hP'
  cases hP'
  have := Nat.pow_right_injective (le_refl 2) (hsz.symm.trans hsz')
  omega

/-! ## Teardown of a reachable state -/

section Reachable

variable {s : Session} {fuel : Nat}

/-- `pool_mem_free_all` and `free_mem_pool` on a pool of a state in which every block was
    returned: they return, pass each block of the pool to `free_poolable_mem` once, free the
    node and the raw block, and leave `head = NULL` and, with `TRACK_POOL_USAGE`,
    `num_available = 0`. -/
theorem Inv.free_all (hi : Inv cfg s) (hheld : s.held = []) (hfuel : s.heap.nodes.length < fuel)
    {q : Ptr} {P : MemPool} (hP : s.heap.pools.get q = some P) : ∃ h' xs,
      poolMemFreeAll cfg q fuel s.heap = .ok (h', xs) ∧
      freeMemPool cfg q fuel s.heap = .ok ({ h' with pools := h'.pools.erase q }, xs) ∧
      xs.Perm (s.heap.nodes.nodesOf q) ∧
      (∀ a ∈ xs, ∀ n, s.heap.nodes.get a = some n →
        h'.nodes.get a = none ∧ h'.raws.get (n.data - ptrdiffSize) = none) ∧
      ∃ P', h'.pools.get q = some P' ∧ P'.head = 0 ∧
        (cfg.trackPoolUsage = true → P'.numAvailable = 0) := by
  obtain ⟨xs, hfl, hperm, hcnt⟩ := hi.pools q P hP
  have hq : q ≠ 0 := fun h0 => by rw [h0, hi.pool0] at hP; cases hP
  have hperm : xs.Perm (s.heap.nodes.nodesOf q) := by
    simpa [Session.heldNodes, hheld] using hperm
  obtain ⟨h', e, hf⟩ := poolMemFreeAll_ok hq hP hfl (Ready.of_inv hi hheld).words
    ((hperm.length_eq.trans_le (Store.length_nodesOf_le _ _)).trans_lt hfuel)
  have hP' : h'.pools.get q = some (P.emptied cfg xs.length) := by
    rw [hf.pools, if_pos rfl, hP]
    rfl
  refine ⟨h', xs, e, freeMemPool_of_ok hq e hP', hperm, fun a ha n hn =>
    ⟨by rw [hf.nodes, Store.get_filter_not_mem, if_pos ha], hf.raws_freed a ha n hn⟩,
    _, hP', rfl, fun ht => ?_⟩
  simp only [MemPool.emptied, ht, if_true]
  exact uint32_sub_ofNat_self (hcnt ht).1

/-- A non-`NULL` entry of a multipool is a pool. -/
theorem Inv.entry_pool (hi : Inv cfg s) {mp : Ptr} {ps : List Ptr}
    (hps : s.heap.multipools.get mp = some ps) {j : Nat} (hj : j < multipoolEntryCount)
    (h0 : ps.getD j 0 ≠ 0) : (s.heap.pools.get (ps.getD j 0)).isSome := by
  rcases hi.entry hps hj with h | ⟨P, hP, -⟩
  · exact absurd h h0
  · rw [hP]; rfl

/-- `multipool_free` on a multipool with no `NULL` entry, in a state in which every block was
    returned: it returns, having freed each block of its pools once, frees the multipool and
    clears its pools. -/
theorem Inv.multipool_clear (hi : Inv cfg s) (hheld : s.held = [])
    (hfuel : s.heap.nodes.length < fuel) {mp : Ptr} {ps : List Ptr}
    (hps : s.heap.multipools.get mp = some ps) (hnot : 0 ∉ ps) :
    ∃ h' xs, multipoolFree cfg mp fuel s.heap = .ok (h', xs) ∧
      xs.Perm (ps.flatMap s.heap.nodes.nodesOf) ∧
      h'.multipools = s.heap.multipools.erase mp ∧ Cleared ps s.heap h' := by
  obtain ⟨hlen, -⟩ := hi.multipools mp ps hps
  have hmp0 : mp ≠ 0 := fun h0 => by rw [h0, hi.multipool0] at hps; cases hps
  have hnz : ∀ j, j < multipoolEntryCount → ps.getD j 0 ≠ 0 := fun j hj h0 =>
    hnot (h0 ▸ List.getD_eq_getElem ps 0 (hlen ▸ hj) ▸ List.getElem_mem (hlen ▸ hj))
  obtain ⟨h', xs, e, hperm, hmp', hc⟩ := @multipoolFreeLoop_ok cfg mp fuel ps
    multipoolEntryCount 0 s.heap (Ready.of_inv hi hheld) hps hfuel
    (fun j _ hj => hi.entry_pool hps hj (hnz j hj))
    (fun j j' _ h₁ h₂ => hi.entry_ne hps h₁ h₂ (hnz j (by omega)))
  rw [← hlen, map_getD_range'] at hperm hc
  exact ⟨{ h' with multipools := h'.multipools.erase mp }, xs,
    by simp [multipoolFree, cassert, hmp0, e, Store.free_of_get hmp0 (hmp' ▸ hps)], hperm,
    by rw [hmp'], ⟨hc.1, hc.2, hc.3, hc.4, hc.5⟩⟩

/-- `multipool_free` on a multipool of a state in which every block was returned: it returns,
    having freed each block of its pools once, when every entry is a pool, and faults at an
    entry `multipool_create` left `NULL`. -/
theorem Inv.multipool_free (hi : Inv cfg s) (hheld : s.held = [])
    (hfuel : s.heap.nodes.length < fuel) {mp : Ptr} {ps : List Ptr}
    (hps : s.heap.multipools.get mp = some ps) :
    (0 ∉ ps → ∃ h' xs, multipoolFree cfg mp fuel s.heap = .ok (h', xs) ∧
      xs.Perm (ps.flatMap s.heap.nodes.nodesOf)) ∧
    (0 ∈ ps → multipoolFree cfg mp fuel s.heap =
      .fault (if cfg.assertions then .assertFailed "pool != NULL" else .undefined)) := by
  refine ⟨fun hnot => ?_, fun hmem => ?_⟩
  · obtain ⟨h', xs, e, hperm, -⟩ := hi.multipool_clear hheld hfuel hps hnot
    exact ⟨h', xs, e, hperm⟩
  · obtain ⟨hlen, -⟩ := hi.multipools mp ps hps
    have hmp0 : mp ≠ 0 := fun h0 => by rw [h0, hi.multipool0] at hps; cases hps
    obtain ⟨j, hj, hj0⟩ := List.mem_iff_getElem.mp hmem
    have hrun := @multipoolFreeLoop_fault cfg mp fuel ps multipoolEntryCount 0 s.heap
      (Ready.of_inv hi hheld) hps hfuel ⟨j, by omega, by omega, (List.getD_eq_getElem ps 0 hj).trans hj0⟩
      (fun j _ hj h0 => hi.entry_pool hps hj h0) (fun j j' _ h₁ h₂ h0 => hi.entry_ne hps h₁ h₂ h0)
    simp [multipoolFree, cassert, hmp0, hrun]

end Reachable

/-- Teardown of a state that a single-threaded program reaches once it has returned every
    block, with more fuel than there are nodes. `pool_mem_free_all` and `free_mem_pool` on any
    pool return, having passed each block the pool allocated to `free_poolable_mem` exactly
    once, freed both the node and the raw block one word before its `data`, and left
    `head = NULL` and, with `TRACK_POOL_USAGE`, `num_available = 0`. `multipool_free` (and so
    `global_multipool_free`) returns, having freed each block of its pools once, when every
    entry is a pool; at an entry `multipool_create` left `NULL` it faults. -/
theorem teardown_frees_every_block {s : Session} (hs : Session.Reachable cfg s)
    (hheld : s.held = []) {fuel : Nat} (hfuel : s.heap.nodes.length < fuel) :
    (∀ q P, s.heap.pools.get q = some P → ∃ h' xs,
      poolMemFreeAll cfg q fuel s.heap = .ok (h', xs) ∧
      freeMemPool cfg q fuel s.heap = .ok ({ h' with pools := h'.pools.erase q }, xs) ∧
      xs.Perm (s.heap.nodes.nodesOf q) ∧
      (∀ a ∈ xs, ∀ n, s.heap.nodes.get a = some n →
        h'.nodes.get a = none ∧ h'.raws.get (n.data - ptrdiffSize) = none) ∧
      ∃ P', h'.pools.get q = some P' ∧ P'.head = 0 ∧
        (cfg.trackPoolUsage = true → P'.numAvailable = 0)) ∧
    ∀ mp ps, s.heap.multipools.get mp = some ps →
      (0 ∉ ps → ∃ h' xs, multipoolFree cfg mp fuel s.heap = .ok (h', xs) ∧
        xs.Perm (ps.flatMap s.heap.nodes.nodesOf)) ∧
      (0 ∈ ps → multipoolFree cfg mp fuel s.heap =
        .fault (if cfg.assertions then .assertFailed "pool != NULL" else .undefined)) :=
  have hi := inv_of_reachable hs
  ⟨fun _ _ hP => hi.free_all hheld hfuel hP, fun _ _ hps => hi.multipool_free hheld hfuel hps⟩

theorem teardown_null_entry_faults :
    Session.Reachable ⟨true, true⟩ firstClassSession ∧ firstClassSession.held = [] ∧
      multipoolFree ⟨true, true⟩ 1 1 firstClassSession.heap =
        .fault (.assertFailed "pool != NULL") :=
  ⟨firstClassSession_reachable, rfl,
    ((teardown_frees_every_block firstClassSession_reachable rfl (by decide)).2 1 _ rfl).2
      (by decide)⟩

end Gozlib.Pool
