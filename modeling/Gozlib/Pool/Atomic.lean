import Gozlib.Pool.FreeList
import Mathlib.Data.List.Perm.Basic

/-
  `pool_mem_acquire` and `pool_mem_return` run by any number of threads on one shared pool,
  with every atomic load, atomic store, compare-and-swap and atomic counter update one step,
  and the steps of all threads interleaved in any order.

  The shared memory (`Mem`) is the pool's `head`, its counters, the `struct MemNode`s it
  allocated, and `malloc`'s future answers. A thread (`Thread`) is at a program point (`Pc`)
  and holds the nodes of the blocks it acquired and has not yet given back; a thread returns
  a block by its node, which `get_memnode_in_data` reads from the hidden word the thread
  owns. The compare-and-swaps are weak (`true` is passed for `weak`), so each may also fail
  with the expected value in place (`Act.spurious`).

  Not every interleaving keeps the pool sound: the schedule `aba` of two threads ends with
  the head of the free list held by a thread (`aba_unsafe`). Thread 0 reads
  `head = 1` and `1->next = 2`; thread 1 pops 1 and 2 and pushes 1 back; thread 0's CAS
  still sees `head = 1` and installs the held node 2.

  What holds is the same law over every interleaving in which no acquiring CAS succeeds with
  a stale `next` (`Clean`): the free list reaches `NULL`, no node is both free and held or
  held twice, and none is lost (`clean_reachable_safe`).
-/

namespace Gozlib.Pool.Atomic

/-- Where a thread stands in `pool_mem_acquire` or `pool_mem_return`: before which step. -/
inductive Pc
  | idle
  /-- `previous_head = __atomic_load_n (&pool->head, __ATOMIC_ACQUIRE)` in `pool_mem_acquire` -/
  | acqLoadHead
  /-- `new_head = __atomic_load_n (&previous_head->next, __ATOMIC_ACQUIRE)` -/
  | acqLoadNext (prev : Ptr)
  /-- `__atomic_compare_exchange_n (&pool->head, &previous_head, new_head, true, ...)` -/
  | acqCas (prev nxt : Ptr)
  /-- `track_pool_usage_memnode_unavailable (pool)` after the compare-and-swap succeeded -/
  | acqTrack
  /-- `pool_mem_try_alloc_data (pool)`: the two `malloc`s of `alloc_poolable_mem` -/
  | acqAlloc
  /-- `track_pool_usage_allocs (pool)` -/
  | allocTrack
  /-- `previous_head = __atomic_load_n (&pool->head, __ATOMIC_ACQUIRE)` in `pool_mem_return` -/
  | retLoadHead (node : Ptr)
  /-- `__atomic_store_n (&new_head->next, previous_head, __ATOMIC_RELEASE)` -/
  | retStoreNext (node prev : Ptr)
  /-- `__atomic_compare_exchange_n (&pool->head, &previous_head, new_head, true, ...)` -/
  | retCas (node prev : Ptr)
  /-- `track_pool_usage_returned (pool)` -/
  | retTrack
  deriving DecidableEq, Repr

/-- The memory the threads share. -/
structure Mem where
  head : Ptr
  nodes : Store MemNode
  numAllocs : UInt32
  numAvailable : UInt32
  supply : List Ptr
  deriving DecidableEq, Repr

structure Thread where
  pc : Pc
  held : List Ptr
  deriving DecidableEq, Repr

structure World where
  mem : Mem
  threads : List Thread
  deriving DecidableEq, Repr

/-- What the scheduler lets thread `i` do next. -/
inductive Act
  /-- call `pool_mem_acquire (pool)` -/
  | acquire
  /-- call `pool_mem_return` on the block of `node` -/
  | release (node : Ptr)
  /-- take the next atomic step -/
  | tick
  /-- a weak compare-and-swap fails although the value matched -/
  | spurious
  deriving DecidableEq, Repr

variable (cfg : Config)

/-- The next atomic step of a thread. -/
def tick (m : Mem) (t : Thread) : Option (Mem × Thread) :=
  match t.pc with
  | .idle => none
  | .acqLoadHead =>
    some (m, { t with pc := if m.head = 0 then .acqAlloc else .acqLoadNext m.head })
  | .acqLoadNext prev => (m.nodes.get prev).map fun n => (m, { t with pc := .acqCas prev n.next })
  | .acqCas prev nxt =>
    if m.head = prev then some ({ m with head := nxt }, ⟨.acqTrack, prev :: t.held⟩)
    else some (m, { t with pc := .acqLoadHead })
  | .acqTrack =>
    some (if cfg.trackPoolUsage then { m with numAvailable := m.numAvailable - 1 } else m,
      { t with pc := .idle })
  | .acqAlloc =>
    match m.supply with
    | [] => some (m, { t with pc := .idle })
    | a :: rest =>
      if a ≠ 0 ∧ m.nodes.get a = none then
        some ({ m with nodes := (a, ⟨0, 0, 0⟩) :: m.nodes, supply := rest }, ⟨.allocTrack, a :: t.held⟩)
      else some ({ m with supply := rest }, { t with pc := .idle })
  | .allocTrack =>
    some (if cfg.trackPoolUsage then { m with numAllocs := m.numAllocs + 1 } else m,
      { t with pc := .idle })
  | .retLoadHead node => some (m, { t with pc := .retStoreNext node m.head })
  | .retStoreNext node prev =>
    some ({ m with nodes := m.nodes.modify node fun n => { n with next := prev } },
      { t with pc := .retCas node prev })
  | .retCas node prev =>
    if m.head = prev then some ({ m with head := node }, ⟨.retTrack, t.held.erase node⟩)
    else some (m, { t with pc := .retLoadHead node })
  | .retTrack =>
    some (if cfg.trackPoolUsage then { m with numAvailable := m.numAvailable + 1 } else m,
      { t with pc := .idle })

/-- A weak compare-and-swap that fails: the loop goes round again. -/
def spuriousFail (t : Thread) : Option Thread :=
  match t.pc with
  | .acqCas _ _ => some { t with pc := .acqLoadHead }
  | .retCas node _ => some { t with pc := .retLoadHead node }
  | _ => none

/-- A call by an idle thread. -/
def start (t : Thread) : Act → Option Thread
  | .acquire => if t.pc = .idle then some { t with pc := .acqLoadHead } else none
  | .release node =>
    if t.pc = .idle ∧ node ∈ t.held then some { t with pc := .retLoadHead node } else none
  | _ => none

namespace World

/-- Thread `i` does `a`. -/
def step (w : World) (i : Nat) (a : Act) : Option World :=
  match w.threads[i]? with
  | none => none
  | some t =>
    match a with
    | .tick => (tick cfg w.mem t).map fun (m, t') => ⟨m, w.threads.set i t'⟩
    | .spurious => (spuriousFail t).map fun t' => ⟨w.mem, w.threads.set i t'⟩
    | a => (start t a).map fun t' => ⟨w.mem, w.threads.set i t'⟩

def run (w : World) : List (Nat × Act) → Option World
  | [] => some w
  | (i, a) :: sched => (step cfg w i a).bind (run · sched)

/-- `n` idle threads and an empty pool; `malloc` answers from `supply`. -/
def init (n : Nat) (supply : List Ptr) : World :=
  ⟨⟨0, [], 0, 0, supply⟩, List.replicate n ⟨.idle, []⟩⟩

def Reachable (w : World) : Prop := ∃ n supply sched, run cfg (init n supply) sched = some w

/-- The nodes all threads hold. -/
def allHeld (w : World) : List Ptr := (w.threads.map Thread.held).flatten

/-- The pool is sound: the free list reaches `NULL`; the free list and the blocks the
    threads hold repeat no node, so no block is held twice or both held and free; and they
    are exactly the blocks the pool allocated. -/
def Safe (w : World) : Prop :=
  ∃ xs, FreeList w.mem.nodes w.mem.head xs ∧ (xs ++ w.allHeld).Nodup ∧
    ∀ a, a ∈ xs ++ w.allHeld ↔ a ∈ w.mem.nodes.map Prod.fst

end World

/-! ## The ABA schedule -/

/-- Thread 1 acquires two fresh blocks (1 and 2) and returns 2, then 1; thread 0 reads
    `head = 1` and `1->next = 2`; thread 1 pops 1 and 2 and returns 1; thread 0's
    compare-and-swap succeeds. -/
def aba : List (Nat × Act) :=
  [(1, .acquire), (1, .tick), (1, .tick), (1, .tick),
   (1, .acquire), (1, .tick), (1, .tick), (1, .tick),
   (1, .release 2), (1, .tick), (1, .tick), (1, .tick), (1, .tick),
   (1, .release 1), (1, .tick), (1, .tick), (1, .tick), (1, .tick),
   (0, .acquire), (0, .tick), (0, .tick),
   (1, .acquire), (1, .tick), (1, .tick), (1, .tick), (1, .tick),
   (1, .acquire), (1, .tick), (1, .tick), (1, .tick), (1, .tick),
   (1, .release 1), (1, .tick), (1, .tick), (1, .tick), (1, .tick),
   (0, .tick)]

theorem aba_run (cfg : Config) :
    World.run cfg (World.init 2 [1, 2]) aba =
      some ⟨⟨2, [(2, ⟨0, 0, 0⟩), (1, ⟨0, 0, 0⟩)],
        if cfg.trackPoolUsage then 2 else 0, if cfg.trackPoolUsage then 1 else 0, []⟩,
        [⟨.acqTrack, [1]⟩, ⟨.idle, [2]⟩]⟩ := by
  obtain ⟨a, t⟩ := cfg
  cases a <;> cases t <;> decide

/-- Some interleaving leaves a held block at the head of the free list. -/
theorem aba_unsafe : ∃ w, World.Reachable ⟨true, true⟩ w ∧ ¬ World.Safe w := by
  refine ⟨_, ⟨2, [1, 2], aba, aba_run ⟨true, true⟩⟩, fun ⟨xs, hfl, hnd, _⟩ => ?_⟩
  have h2 : 2 ∈ xs := hfl.head_mem (by simp)
  exact List.disjoint_of_nodup_append hnd h2 (by simp [World.allHeld])

/-! ## Interleavings with no stale compare-and-swap -/

namespace World

/-- Thread `i`'s step `a` is an acquiring compare-and-swap that succeeds although `next` of
    the head it replaces is no longer the value the thread read (the ABA case). -/
def staleCas (w : World) (i : Nat) : Act → Bool
  | .tick =>
    match w.threads[i]? with
    | some ⟨.acqCas prev nxt, _⟩ =>
      w.mem.head == prev && (w.mem.nodes.get prev).map MemNode.next != some nxt
    | _ => false
  | _ => false

/-- A run of the schedule that stops at its first stale compare-and-swap. -/
def runClean (w : World) : List (Nat × Act) → Option World
  | [] => some w
  | (i, a) :: sched => if staleCas w i a then none else (step cfg w i a).bind (runClean · sched)

def CleanReachable (w : World) : Prop :=
  ∃ n supply sched, runClean cfg (init n supply) sched = some w

end World

/-- The nodes a list of threads holds. -/
def heldOf (ts : List Thread) : List Ptr := (ts.map Thread.held).flatten

@[simp] theorem heldOf_nil : heldOf [] = [] := rfl

@[simp] theorem heldOf_cons (t : Thread) (ts : List Thread) :
    heldOf (t :: ts) = t.held ++ heldOf ts := rfl

@[simp] theorem heldOf_append (l₁ l₂ : List Thread) : heldOf (l₁ ++ l₂) = heldOf l₁ ++ heldOf l₂ := by
  simp [heldOf]

theorem mem_heldOf {ts : List Thread} {u : Thread} (hu : u ∈ ts) {n : Ptr} (hn : n ∈ u.held) :
    n ∈ heldOf ts :=
  List.mem_flatten.mpr ⟨u.held, List.mem_map_of_mem _ hu, hn⟩

/-- What a thread at its program point needs of the shared nodes. -/
def PcOk (m : Mem) (t : Thread) : Prop :=
  match t.pc with
  | .retLoadHead node => node ∈ t.held
  | .retStoreNext node _ => node ∈ t.held
  | .retCas node prev => node ∈ t.held ∧ (m.nodes.get node).map MemNode.next = some prev
  | _ => True

/-- `PcOk` reads only the nodes the thread holds. -/
theorem PcOk.frame {m m' : Mem} {t : Thread} (h : PcOk m t)
    (hn : ∀ n ∈ t.held, m'.nodes.get n = m.nodes.get n) : PcOk m' t := by
  unfold PcOk at h ⊢
  split
  all_goals simp_all

/-- The invariant of clean runs, seen from thread `t` with the other threads `others`: the
    free list reaches `NULL` and, with what the threads hold, makes up the allocated nodes. -/
structure LInv (m : Mem) (t : Thread) (others : List Thread) : Prop where
  keys : (m.nodes.map Prod.fst).Nodup
  node0 : m.nodes.get 0 = none
  free : ∃ xs, FreeList m.nodes m.head xs ∧
    (xs ++ t.held ++ heldOf others).Perm (m.nodes.map Prod.fst)
  self : PcOk m t
  others : ∀ u ∈ others, PcOk m u

/-- The invariant of clean runs. -/
structure Inv (w : World) : Prop where
  keys : (w.mem.nodes.map Prod.fst).Nodup
  node0 : w.mem.nodes.get 0 = none
  free : ∃ xs, FreeList w.mem.nodes w.mem.head xs ∧
    (xs ++ w.allHeld).Perm (w.mem.nodes.map Prod.fst)
  pcs : ∀ t ∈ w.threads, PcOk w.mem t

theorem split_threads {ts : List Thread} {i : Nat} {t : Thread} (h : ts[i]? = some t) :
    ∃ l₁ l₂, ts = l₁ ++ t :: l₂ ∧ ∀ t', ts.set i t' = l₁ ++ t' :: l₂ := by
  induction ts generalizing i with
  | nil => cases h
  | cons u ts ih =>
    cases i with
    | zero =>
      obtain rfl : u = t := by simpa using h
      exact ⟨[], ts, rfl, fun _ => rfl⟩
    | succ i =>
      obtain ⟨l₁, l₂, rfl, hs⟩ := ih (by simpa using h)
      exact ⟨u :: l₁, l₂, rfl, fun t' => by simp [hs]⟩

theorem Inv.toLocal {m : Mem} {l₁ l₂ : List Thread} {t : Thread}
    (hi : Inv ⟨m, l₁ ++ t :: l₂⟩) : LInv m t (l₁ ++ l₂) := by
  obtain ⟨hk, h0, ⟨xs, hfl, hp⟩, hpc⟩ := hi
  refine ⟨hk, h0, ⟨xs, hfl, ?_⟩, hpc t (by simp), fun u hu => hpc u ?_⟩
  · refine List.Perm.trans ?_ hp
    simpa [World.allHeld, heldOf, List.append_assoc] using
      (List.perm_append_comm.append_right _).append_left xs
  · rcases List.mem_append.mp hu with h | h <;> simp [h]

theorem LInv.toInv {m : Mem} {l₁ l₂ : List Thread} {t : Thread}
    (hi : LInv m t (l₁ ++ l₂)) : Inv ⟨m, l₁ ++ t :: l₂⟩ := by
  obtain ⟨hk, h0, ⟨xs, hfl, hp⟩, hself, hothers⟩ := hi
  refine ⟨hk, h0, ⟨xs, hfl, List.Perm.trans ?_ hp⟩, fun u hu => ?_⟩
  · simpa [World.allHeld, heldOf, List.append_assoc] using
      (List.perm_append_comm.append_right _).append_left xs
  · rcases List.mem_append.mp hu with h | h
    · exact hothers u (List.mem_append_left _ h)
    · rcases List.mem_cons.mp h with rfl | h
      · exact hself
      · exact hothers u (List.mem_append_right _ h)

/-! ## One step of one thread -/

section Local

variable {m m' : Mem} {t t' : Thread} {others : List Thread}

theorem LInv.nodup (hi : LInv m t others) {xs : List Ptr} (hfl : FreeList m.nodes m.head xs) :
    (xs ++ t.held ++ heldOf others).Nodup := by
  obtain ⟨ys, hys, hp⟩ := hi.free
  rw [FreeList.unique hfl hys]
  exact hp.nodup_iff.mpr hi.keys

theorem LInv.mem_keys (hi : LInv m t others) {n : Ptr} (hn : n ∈ t.held ++ heldOf others) :
    n ∈ m.nodes.map Prod.fst := by
  obtain ⟨ys, -, hp⟩ := hi.free
  exact hp.subset (by rw [List.append_assoc]; exact List.mem_append_right _ hn)

/-- A node the thread holds is on no free list and held by no other thread. -/
theorem LInv.held_fresh (hi : LInv m t others) {xs : List Ptr}
    (hfl : FreeList m.nodes m.head xs) {n : Ptr} (hn : n ∈ t.held) :
    n ∉ xs ∧ n ∉ heldOf others := by
  have hnd := hi.nodup hfl
  rw [List.append_assoc] at hnd
  have hd := List.disjoint_of_nodup_append hnd
  have hd' := List.disjoint_of_nodup_append (List.nodup_append.mp hnd).2.1
  exact ⟨fun hx => hd hx (List.mem_append_left _ hn), fun ho => hd' hn ho⟩

/-- A step that moves only the program point, the counters or `supply`. -/
theorem LInv.same (hi : LInv m t others) (hn : m'.nodes = m.nodes) (hh : m'.head = m.head)
    (hheld : t'.held = t.held) (hpc : PcOk m' t') : LInv m' t' others := by
  obtain ⟨hk, h0, ⟨xs, hfl, hp⟩, -, ho⟩ := hi
  exact ⟨hn ▸ hk, hn ▸ h0, ⟨xs, hn ▸ hh ▸ hfl, hheld ▸ hn ▸ hp⟩, hpc,
    fun u hu => (ho u hu).frame (by simp [hn])⟩

/-- A successful acquiring compare-and-swap whose `next` is current pops the head. -/
theorem LInv.pop (hi : LInv m t others) {prev nxt : Ptr} (hh : m.head = prev)
    (hnext : (m.nodes.get prev).map MemNode.next = some nxt) :
    LInv { m with head := nxt } ⟨.acqTrack, prev :: t.held⟩ others := by
  obtain ⟨hk, h0, ⟨xs, hfl, hp⟩, -, ho⟩ := hi
  obtain ⟨n, hn, rfl⟩ := Option.map_eq_some'.mp hnext
  have hp0 : prev ≠ 0 := Store.ne_of_get hn h0
  subst hh
  obtain ⟨ys, rfl⟩ : ∃ ys, xs = m.head :: ys := by
    cases xs with
    | nil => exact absurd (FreeList.nil_iff.mp hfl) hp0
    | cons y ys => exact ⟨ys, by rw [(FreeList.cons_iff.mp hfl).1]⟩
  obtain ⟨-, -, n', hn', hl⟩ := FreeList.cons_iff.mp hfl
  rw [hn] at hn'
  cases hn'
  exact ⟨hk, h0, ⟨ys, hl, List.Perm.trans (by simp) hp⟩, trivial, ho⟩

/-- A fresh node from `malloc`, held by the thread that allocated it. -/
theorem LInv.alloc (hi : LInv m t others) {a : Ptr} (ha0 : a ≠ 0)
    (han : m.nodes.get a = none) (rest : List Ptr) :
    LInv { m with nodes := (a, ⟨0, 0, 0⟩) :: m.nodes, supply := rest }
      ⟨.allocTrack, a :: t.held⟩ others := by
  have hfresh : ∀ n ∈ t.held ++ heldOf others, n ≠ a := fun n hn e =>
    Store.get_eq_none_iff.mp han (e ▸ hi.mem_keys hn)
  obtain ⟨hk, h0, ⟨xs, hfl, hp⟩, -, ho⟩ := hi
  refine ⟨List.nodup_cons.mpr ⟨Store.get_eq_none_iff.mp han, hk⟩, by simpa [Ne.symm ha0] using h0,
    ⟨xs, hfl.cons_fresh han _, List.Perm.trans (by simp) (hp.cons a)⟩, trivial, fun u hu => ?_⟩
  exact (ho u hu).frame fun n hn => by
    simp [hfresh n (List.mem_append_right _ (mem_heldOf hu hn))]

/-- `__atomic_store_n (&new_head->next, previous_head)` on a node the thread holds. -/
theorem LInv.storeNext (hi : LInv m t others) {node prev : Ptr} (hn : node ∈ t.held) :
    LInv { m with nodes := m.nodes.modify node fun n => { n with next := prev } }
      { t with pc := .retCas node prev } others := by
  obtain ⟨xs, hfl, -⟩ := hi.free
  obtain ⟨hnx, hno⟩ := hi.held_fresh hfl hn
  obtain ⟨n, hget⟩ := Option.isSome_iff_exists.mp
    ((Store.isSome_get_iff _ _).mpr (hi.mem_keys (List.mem_append_left _ hn)))
  obtain ⟨hk, h0, ⟨ys, hys, hp⟩, -, ho⟩ := hi
  rw [FreeList.unique hfl hys] at hnx
  refine ⟨by simpa using hk, ?_, ⟨ys, hys.modify hnx fun n => { n with next := prev }, by simpa using hp⟩,
    ⟨hn, by simp [hget]⟩, fun u hu => (ho u hu).frame fun n' hn' => ?_⟩
  · rw [Store.get_modify]
    split_ifs with h
    · rw [← h, h0]; rfl
    · exact h0
  · have : n' ≠ node := fun e => hno (e ▸ mem_heldOf hu hn')
    simp [this]

/-- A successful returning compare-and-swap pushes the node. -/
theorem LInv.push (hi : LInv m t others) {node prev : Ptr} (hpc : t.pc = .retCas node prev)
    (hh : m.head = prev) :
    LInv { m with head := node } ⟨.retTrack, t.held.erase node⟩ others := by
  have hself := hi.self
  simp only [PcOk, hpc] at hself
  obtain ⟨hn, hnext⟩ := hself
  obtain ⟨n, hget, hnx⟩ := Option.map_eq_some'.mp hnext
  obtain ⟨hk, h0, ⟨xs, hfl, hp⟩, -, ho⟩ := hi
  refine ⟨hk, h0, ⟨node :: xs, hfl.push (Store.ne_of_get hget h0) hget (hnx.trans hh.symm),
    List.Perm.trans ?_ hp⟩, trivial, ho⟩
  simp only [List.cons_append, List.append_assoc]
  exact List.perm_middle.symm.trans
    (((List.perm_cons_erase hn).symm.append_right (heldOf others)).append_left xs)

variable {cfg}

/-- Every atomic step of a thread keeps the invariant, provided an acquiring
    compare-and-swap that succeeds sees a current `next`. -/
theorem LInv.of_tick (hi : LInv m t others)
    (hclean : ∀ prev nxt, t.pc = .acqCas prev nxt → m.head = prev →
      (m.nodes.get prev).map MemNode.next = some nxt)
    (h : tick cfg m t = some (m', t')) : LInv m' t' others := by
  obtain ⟨pc, held⟩ := t
  cases pc with
  | idle => cases h
  | acqLoadHead =>
    cases h
    exact hi.same rfl rfl rfl (by by_cases h0 : m.head = 0 <;> simp [PcOk, h0])
  | acqLoadNext prev =>
    obtain ⟨n, -, he⟩ := Option.map_eq_some'.mp h
    cases he
    exact hi.same rfl rfl rfl trivial
  | acqCas prev nxt =>
    simp only [tick] at h
    split at h
    · cases h
      exact hi.pop ‹_› (hclean prev nxt rfl ‹_›)
    · cases h
      exact hi.same rfl rfl rfl trivial
  | acqTrack =>
    cases h
    exact hi.same (by split <;> rfl) (by split <;> rfl) rfl trivial
  | acqAlloc =>
    simp only [tick] at h
    split at h
    · cases h
      exact hi.same rfl rfl rfl trivial
    · split at h
      · next hfresh =>
        cases h
        exact hi.alloc hfresh.1 hfresh.2 _
      · cases h
        exact hi.same rfl rfl rfl trivial
  | allocTrack =>
    cases h
    exact hi.same (by split <;> rfl) (by split <;> rfl) rfl trivial
  | retLoadHead node =>
    cases h
    exact hi.same rfl rfl rfl hi.self
  | retStoreNext node prev =>
    cases h
    exact hi.storeNext hi.self
  | retCas node prev =>
    simp only [tick] at h
    split at h
    · cases h
      exact hi.push rfl ‹_›
    · cases h
      exact hi.same rfl rfl rfl hi.self.1
  | retTrack =>
    cases h
    exact hi.same (by split <;> rfl) (by split <;> rfl) rfl trivial

/-- A call by an idle thread keeps the invariant. -/
theorem LInv.of_start (hi : LInv m t others) {a : Act} (h : start t a = some t') :
    LInv m t' others := by
  cases a with
  | acquire =>
    simp only [start] at h
    split at h
    · cases h
      exact hi.same rfl rfl rfl trivial
    · cases h
  | release node =>
    simp only [start] at h
    split at h
    · next hc =>
      cases h
      exact hi.same rfl rfl rfl hc.2
    · cases h
  | tick => cases h
  | spurious => cases h

/-- A spurious failure of a weak compare-and-swap keeps the invariant. -/
theorem LInv.of_spurious (hi : LInv m t others) (h : spuriousFail t = some t') :
    LInv m t' others := by
  obtain ⟨pc, held⟩ := t
  cases pc <;> simp only [spuriousFail] at h <;> cases h
  · exact hi.same rfl rfl rfl trivial
  · exact hi.same rfl rfl rfl hi.self.1

end Local

/-! ## Whole runs -/

variable {cfg}

theorem inv_init (n : Nat) (supply : List Ptr) : Inv (World.init n supply) where
  keys := List.nodup_nil
  node0 := rfl
  free := ⟨[], .null, by simp [World.init, World.allHeld]⟩
  pcs := fun t ht => by
    obtain ⟨-, rfl⟩ := List.mem_replicate.mp ht
    trivial

/-- One step of a clean run keeps the invariant. -/
theorem Inv.step_clean {w w' : World} (hi : Inv w) {i : Nat} {a : Act}
    (hc : World.staleCas w i a = false) (h : World.step cfg w i a = some w') : Inv w' := by
  obtain ⟨m, ts⟩ := w
  simp only [World.step] at h
  split at h
  · cases h
  · next t ht =>
    obtain ⟨l₁, l₂, rfl, hset⟩ := split_threads ht
    have hl := hi.toLocal
    cases a with
    | tick =>
      obtain ⟨⟨m', t'⟩, ht', rfl⟩ := Option.map_eq_some'.mp h
      rw [hset]
      refine (hl.of_tick (fun prev nxt hpc hh => ?_) ht').toInv
      obtain ⟨pc, held⟩ := t
      simp only at hpc
      subst hpc
      simpa [World.staleCas, ht, hh] using hc
    | spurious =>
      obtain ⟨t', ht', rfl⟩ := Option.map_eq_some'.mp h
      rw [hset]
      exact (hl.of_spurious ht').toInv
    | acquire =>
      obtain ⟨t', ht', rfl⟩ := Option.map_eq_some'.mp h
      rw [hset]
      exact (hl.of_start ht').toInv
    | release node =>
      obtain ⟨t', ht', rfl⟩ := Option.map_eq_some'.mp h
      rw [hset]
      exact (hl.of_start ht').toInv

theorem inv_runClean {w w' : World} (hi : Inv w) {sched : List (Nat × Act)}
    (h : World.runClean cfg w sched = some w') : Inv w' := by
  induction sched generalizing w with
  | nil => cases h; exact hi
  | cons ia sched ih =>
    obtain ⟨i, a⟩ := ia
    simp only [World.runClean] at h
    split at h
    · cases h
    · next hs =>
      obtain ⟨w₁, h1, h2⟩ := Option.bind_eq_some.mp h
      exact ih (hi.step_clean (by simpa using hs) h1) h2

/-- Over every interleaving of any number of threads in which no acquiring
    compare-and-swap succeeds with a stale `next`, the pool stays sound. -/
theorem clean_reachable_safe {w : World} (h : World.CleanReachable cfg w) : World.Safe w := by
  obtain ⟨n, supply, sched, hrun⟩ := h
  obtain ⟨hk, -, ⟨xs, hfl, hp⟩, -⟩ := inv_runClean (inv_init n supply) hrun
  exact ⟨xs, hfl, hp.nodup_iff.mpr hk, fun a => hp.mem_iff⟩

/-- The ABA schedule up to thread 0's compare-and-swap is clean; the state it reaches is
    sound, with thread 0 about to install the held node 2. -/
theorem clean_reachable_safe_before_aba :
    World.CleanReachable ⟨false, false⟩
        ⟨⟨1, [(2, ⟨0, 0, 0⟩), (1, ⟨0, 0, 0⟩)], 0, 0, []⟩, [⟨.acqCas 1 2, []⟩, ⟨.idle, [2]⟩]⟩ ∧
      World.Safe ⟨⟨1, [(2, ⟨0, 0, 0⟩), (1, ⟨0, 0, 0⟩)], 0, 0, []⟩,
        [⟨.acqCas 1 2, []⟩, ⟨.idle, [2]⟩]⟩ :=
  have h : World.CleanReachable ⟨false, false⟩
      ⟨⟨1, [(2, ⟨0, 0, 0⟩), (1, ⟨0, 0, 0⟩)], 0, 0, []⟩, [⟨.acqCas 1 2, []⟩, ⟨.idle, [2]⟩]⟩ :=
    ⟨2, [1, 2], aba.dropLast, by decide⟩
  ⟨h, clean_reachable_safe h⟩

example : World.runClean ⟨false, false⟩ (World.init 2 [1, 2]) aba = none := by decide

end Gozlib.Pool.Atomic
