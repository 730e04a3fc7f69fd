import Gozlib.Library.Api
import Gozlib.Pool.Frame

/-
  A program that uses the library, as the pools see it.

  `Lib` is the memory, every block the program holds (its own, zlib's and its transformers',
  newest first as in `Session`) and the transformers it holds. `Lib.step` makes one call:
  `pool_alloc` of any size (`zlib_custom_alloc` is one), `pool_acquire_zstream_state`,
  `pool_free` and `pool_release_zstream_state` of a block the program holds itself (not one of
  a transformer), and `acquire_*`, `release_*` and `reset_*_transformer`. A run starts from
  `create_mem_pools` on an empty heap, with `malloc` answering from any `supply`
  (`Lib.Reachable`).

  `step_refines`: a call is the run of the pool calls it makes (`Call.ops`) on the pool model's
  view of the state (`Lib.session`).
-/

namespace Gozlib.Library

open Gozlib.Pool

/-- The library calls that reach the pools. -/
inductive Call
  /-- `pool_alloc (size)`, by the program or by zlib through `zlib_custom_alloc` -/
  | poolAlloc (size : Nat)
  /-- `pool_acquire_zstream_state ()` -/
  | poolAcquireZstreamState
  /-- `pool_free (data)`, by the program or by zlib through `zlib_custom_free` -/
  | poolFree (data : Ptr)
  /-- `pool_release_zstream_state (state)` -/
  | poolReleaseZstreamState (state : Ptr)
  /-- `acquire_*_transformer (…, work_buffer_cap, &error_code)`, zlib's init answering
      `initCode` -/
  | acquireTransformer (workBufferCap : UInt32) (initCode : Int)
  /-- `release_*_transformer (transformer)` -/
  | releaseTransformer (transformer : Ptr)
  /-- `reset_*_transformer (transformer)` -/
  | resetTransformer (transformer : Ptr)
  deriving DecidableEq, Repr

namespace GoZLibTransformer

/-- The blocks the transformer at `t` holds, in the order `pool_release_transformer` returns
    them; a `NULL` field holds none. -/
def blocks (r : GoZLibTransformer) (t : Ptr) : List Ptr :=
  [r.zs, r.state, r.workBuffer, t].filter (· ≠ 0)

/-- The same blocks, each with the pool it was acquired from. -/
def parts (r : GoZLibTransformer) (g : Globals) (h : Heap) (t : Ptr) : List (Ptr × Ptr) :=
  [(r.zs, g.zStreamPool), (r.state, g.zstreamstatePool),
    (r.workBuffer, h.classPool g.globalMultipool r.workBufferCap),
    (t, g.gozlibTransformerPool)].filter (·.1 ≠ 0)

theorem map_fst_parts (r : GoZLibTransformer) (g : Globals) (h : Heap) (t : Ptr) :
    (r.parts g h t).map Prod.fst = r.blocks t := by
  unfold parts blocks
  exact (List.filter_map (p := fun d : Ptr => decide (d ≠ 0)) Prod.fst _).symm

end GoZLibTransformer

/-- What a program holds: the memory, every block it holds, newest first, and its
    transformers. -/
structure Lib where
  mem : Mem
  held : List Lease
  live : List Ptr
  deriving DecidableEq, Repr

namespace Lib

/-- The pool model's view. -/
def session (l : Lib) : Session := ⟨l.mem.heap, l.held⟩

/-- The blocks of the transformer at `t`, read from its payload. -/
def blocksOf (l : Lib) (t : Ptr) : List Ptr :=
  ((l.mem.transformers.get t).map (·.blocks t)).getD []

/-- The blocks the live transformers hold. -/
def blocks (l : Lib) : List Ptr := l.live.flatMap l.blocksOf

/-- What an acquire returned: a non-`NULL` block of `pool` is held. -/
def acquired (l : Lib) (pool : Ptr) : Except Fault (Ptr × Heap) → Option Lib
  | .ok (d, h) => some ⟨⟨h, l.mem.transformers⟩,
      if d = 0 then l.held else ⟨d, h.memnodeOf d, pool⟩ :: l.held, l.live⟩
  | .error _ => none

/-- What a `pool_mem_return` of a block the program holds itself returned. -/
def returned (l : Lib) (data : Ptr) (r : Except Fault Heap) : Option Lib :=
  if data ∈ l.blocks then none
  else
    match l.held.find? (·.data = data), r with
    | some e, .ok h => some ⟨⟨h, l.mem.transformers⟩, l.held.erase e, l.live⟩
    | _, _ => none

section Step

variable (cfg : Config) (g : Globals)

/-- One call. A call that faults ends the run (`none`). -/
def step (l : Lib) : Call → Option Lib
  | .poolAlloc size => l.acquired (l.mem.heap.classPool g.globalMultipool (UInt32.ofNat size))
      (poolAlloc cfg g.globalMultipool size l.mem.heap)
  | .poolAcquireZstreamState =>
    l.acquired g.zstreamstatePool (poolAcquireZstreamState cfg g l.mem.heap)
  | .poolFree data => l.returned data (poolFree cfg data l.mem.heap)
  | .poolReleaseZstreamState state =>
    l.returned state (poolReleaseZstreamState cfg state l.mem.heap)
  | .acquireTransformer cap code =>
    match acquireTransformer cfg g cap code l.mem with
    | .ok (t, _, m) => (m.transformers.get t).map fun r =>
      ⟨m, (r.parts g m.heap t).map (fun p => ⟨p.1, m.heap.memnodeOf p.1, p.2⟩) ++ l.held,
        t :: l.live⟩
    | .error _ => none
  | .releaseTransformer t =>
    if t ∈ l.live then
      match releaseTransformer cfg t l.mem with
      | .ok m => some ⟨m, l.held.filter (·.data ∉ l.blocksOf t), l.live.erase t⟩
      | .error _ => none
    else none
  | .resetTransformer t =>
    match resetTransformer t l.mem with
    | .ok _ => some l
    | .error _ => none

def run (l : Lib) : List Call → Option Lib
  | [] => some l
  | c :: cs => (step cfg g l c).bind (run · cs)

end Step

/-- The library after `create_mem_pools` on an empty heap whose `malloc` answers from
    `supply`: the globals it set, and a program that holds nothing. -/
def start (supply : List Ptr) : Globals × Lib :=
  let (g, h) := createMemPools ⟨[], [], [], [], supply⟩
  (g, ⟨⟨h, []⟩, [], []⟩)

/-- Reached by some program from `create_mem_pools`, which set the globals to `g`. -/
def Reachable (cfg : Config) (g : Globals) (l : Lib) : Prop :=
  ∃ supply calls, (start supply).1 = g ∧ run cfg g (start supply).2 calls = some l

end Lib

/-- The pool calls a library call makes, in order. -/
def Call.ops (g : Globals) (l : Lib) : Call → List Op
  | .poolAlloc size => [.multipoolMemAcquire g.globalMultipool (UInt32.ofNat size)]
  | .poolAcquireZstreamState => [.poolMemAcquire g.zstreamstatePool]
  | .poolFree data => [.poolMemReturn data]
  | .poolReleaseZstreamState state => [.poolMemReturn state]
  | .acquireTransformer cap _ => [.poolMemAcquire g.gozlibTransformerPool,
      .multipoolMemAcquire g.globalMultipool cap, .poolMemAcquire g.zstreamstatePool,
      .poolMemAcquire g.zStreamPool]
  | .releaseTransformer t => (l.blocksOf t).map .poolMemReturn
  | .resetTransformer _ => []

/-- The transformer at `t` is whole: its payload is there, the transformer and its stream are
    not `NULL`, and the program holds every block the payload names, from its pool. -/
def Lib.Holds (g : Globals) (l : Lib) (t : Ptr) : Prop :=
  ∃ r, l.mem.transformers.get t = some r ∧ t ≠ 0 ∧ r.zs ≠ 0 ∧
    ∀ p ∈ r.parts g l.mem.heap t, ∃ e ∈ l.held, e.data = p.1 ∧ e.pool = p.2

/-- The invariant of library runs: the pool invariant over every block held; no raw block at
    `NULL`; every live transformer whole; and no block belonging to two transformers. -/
structure LibInv (cfg : Config) (g : Globals) (l : Lib) : Prop where
  pool : Inv cfg l.session
  raw0 : l.mem.heap.raws.get 0 = none
  live : ∀ t ∈ l.live, l.Holds g t
  blocks : l.blocks.Nodup

/-! ## Whole transformers -/

namespace Lib

variable {g : Globals} {l l' : Lib} {t : Ptr}

theorem blocksOf_eq {r : GoZLibTransformer} (hr : l.mem.transformers.get t = some r) :
    l.blocksOf t = r.blocks t := by
  simp [blocksOf, hr]

theorem parts_congr {r : GoZLibTransformer} {h h' : Heap} (hmp : h'.multipools = h.multipools) :
    r.parts g h' t = r.parts g h t := by
  simp [GoZLibTransformer.parts, Heap.classPool, hmp]

/-- Every block of a whole transformer is held. -/
theorem Holds.held (hl : l.Holds g t) {d : Ptr} (hd : d ∈ l.blocksOf t) :
    ∃ e ∈ l.held, e.data = d := by
  obtain ⟨r, hr, -, -, hp⟩ := hl
  rw [blocksOf_eq hr, ← GoZLibTransformer.map_fst_parts r g l.mem.heap] at hd
  obtain ⟨p, hp', rfl⟩ := List.mem_map.mp hd
  obtain ⟨e, he, hed, -⟩ := hp p hp'
  exact ⟨e, he, hed⟩

theorem Holds.self_mem (hl : l.Holds g t) : t ∈ l.blocksOf t := by
  obtain ⟨r, hr, ht, -⟩ := hl
  simp [blocksOf_eq hr, GoZLibTransformer.blocks, ht]

/-- A transformer stays whole while its payload and the multipools stay and its blocks stay
    held. -/
theorem Holds.frame (hl : l.Holds g t)
    (htr : l'.mem.transformers.get t = l.mem.transformers.get t)
    (hmp : l'.mem.heap.multipools = l.mem.heap.multipools)
    (hheld : ∀ e ∈ l.held, e.data ∈ l.blocksOf t → e ∈ l'.held) : l'.Holds g t := by
  obtain ⟨r, hr, ht, hz, hp⟩ := hl
  refine ⟨r, htr.trans hr, ht, hz, fun p hp' => ?_⟩
  rw [parts_congr hmp] at hp'
  obtain ⟨e, he, hed, hep⟩ := hp p hp'
  refine ⟨e, hheld e he ?_, hed, hep⟩
  rw [blocksOf_eq hr, ← GoZLibTransformer.map_fst_parts r g l.mem.heap, hed]
  exact List.mem_map_of_mem _ hp'

/-- A whole transformer with a state and a work buffer holds four blocks. -/
theorem Holds.blocksOf_four (hl : l.Holds g t) {r : GoZLibTransformer}
    (hr : l.mem.transformers.get t = some r) (hs : r.state ≠ 0) (hw : r.workBuffer ≠ 0) :
    l.blocksOf t = [r.zs, r.state, r.workBuffer, t] := by
  obtain ⟨r', hr', ht, hz, -⟩ := hl
  rw [hr, Option.some.injEq] at hr'
  subst hr'
  simp [blocksOf_eq hr, GoZLibTransformer.blocks, hz, hs, hw, ht]

/-- The blocks of a live transformer are distinct and held. -/
theorem blocksOf_held {cfg : Config} (hi : LibInv cfg g l) (ht : t ∈ l.live) :
    (l.blocksOf t).Nodup ∧ ∀ d ∈ l.blocksOf t, d ∈ l.held.map Lease.data :=
  ⟨(List.nodup_flatMap.mp hi.blocks).1 t ht, fun _ hd => List.mem_map.mpr ((hi.live t ht).held hd)⟩

end Lib

/-! ## What one call does -/

section Shape

variable {cfg : Config} {g : Globals} {l l' : Lib}

theorem Lib.acquired_shape {pool : Ptr} {r : Except Fault (Ptr × Heap)}
    (h : l.acquired pool r = some l') :
    l'.mem.transformers = l.mem.transformers ∧ l'.live = l.live ∧ ∀ e ∈ l.held, e ∈ l'.held := by
  rcases r with _ | ⟨d, h'⟩
  · cases h
  · cases h
    refine ⟨rfl, rfl, fun e he => ?_⟩
    split
    · exact he
    · exact List.mem_cons_of_mem _ he

theorem Lib.returned_shape {data : Ptr} {r : Except Fault Heap} (h : l.returned data r = some l') :
    l'.mem.transformers = l.mem.transformers ∧ l'.live = l.live ∧
      ∀ e ∈ l.held, e.data ∈ l.blocks → e ∈ l'.held := by
  unfold Lib.returned at h
  split at h
  · cases h
  · split at h
    · rename_i hd _ _ _ _ hx
      cases h
      refine ⟨rfl, rfl, fun e he heb => (List.mem_erase_of_ne ?_).mpr he⟩
      rintro rfl
      have hed : e.data = data := by simpa using List.find?_some hx
      exact hd (hed ▸ heb)
    · cases h

theorem Lib.step_acquireTransformer {cap : UInt32} {code : Int}
    (h : l.step cfg g (.acquireTransformer cap code) = some l') :
    ∃ t m r, poolAllocTransformer cfg g cap l.mem = .ok (t, m) ∧
      m.transformers.get t = some r ∧
      l' = ⟨m, (r.parts g m.heap t).map (fun p => ⟨p.1, m.heap.memnodeOf p.1, p.2⟩) ++ l.held,
        t :: l.live⟩ := by
  simp only [Lib.step] at h
  split at h
  · next t err m e =>
    obtain ⟨r, hr, rfl⟩ := Option.map_eq_some'.mp h
    exact ⟨t, m, r, (acquireTransformer_eq_ok.mp e).1, hr, rfl⟩
  · cases h

theorem Lib.step_releaseTransformer {t : Ptr}
    (h : l.step cfg g (.releaseTransformer t) = some l') :
    t ∈ l.live ∧ ∃ m, poolReleaseTransformer cfg t l.mem = .ok m ∧
      l' = ⟨m, l.held.filter (·.data ∉ l.blocksOf t), l.live.erase t⟩ := by
  simp only [Lib.step] at h
  split_ifs at h with hlive
  split at h
  · next m e =>
    cases h
    exact ⟨hlive, m, (releaseTransformer_eq t l.mem).symm.trans e, rfl⟩
  · cases h

/-- A release that returns met no `NULL` block: `pool_mem_return (NULL)` never returns. -/
theorem poolReleaseTransformer_nonnull {m m' : Mem} {t : Ptr} {r : GoZLibTransformer}
    (h0 : m.heap.raws.get 0 = none) (hr : m.transformers.get t = some r)
    (e : poolReleaseTransformer cfg t m = .ok m') : r.zs ≠ 0 ∧ r.state ≠ 0 ∧ r.workBuffer ≠ 0 := by
  obtain ⟨r', hr', h', ef, -⟩ := poolReleaseTransformer_eq_ok.mp e
  rw [hr] at hr'
  cases hr'
  simp only [List.foldlM, bind_eq_ok] at ef
  obtain ⟨h₁, e₁, h₂, e₂, h₃, e₃, -⟩ := ef
  have k₁ := poolMemReturn_keeps e₁
  have k₂ := k₁.trans (poolMemReturn_keeps e₂)
  exact ⟨fun h => poolMemReturn_null h0 (h ▸ e₁), fun h => poolMemReturn_null (k₁.raw0 h0) (h ▸ e₂),
    fun h => poolMemReturn_null (k₂.raw0 h0) (h ▸ e₃)⟩

end Shape

/-! ## Refinement -/

section Refines

variable {cfg : Config} {g : Globals}

theorem Session.run_single (s : Session) (op : Op) :
    Session.run cfg s [op] = Session.step cfg s op := by
  simp [Session.run]

theorem Lib.acquired_session (l : Lib) (pool : Ptr) (r : Except Fault (Ptr × Heap)) :
    (l.acquired pool r).map Lib.session = l.session.acquired pool r := by
  rcases r with _ | ⟨d, h⟩ <;> rfl

theorem Lib.returned_session {l l' : Lib} {data : Ptr}
    (h : l.returned data (poolMemReturn cfg data l.mem.heap) = some l') :
    Session.step cfg l.session (.poolMemReturn data) = some l'.session := by
  unfold Lib.returned at h
  split at h
  · cases h
  · split at h
    · cases h
      simp only [Session.step, Lib.session, *]
    · cases h

/-- Dropping a lease keeps the other held pointers. -/
theorem mem_data_erase {held : List Lease} {e : Lease} {d : Ptr} (hd : d ∈ held.map Lease.data)
    (hne : d ≠ e.data) : d ∈ (held.erase e).map Lease.data := by
  obtain ⟨y, hy, rfl⟩ := List.mem_map.mp hd
  exact List.mem_map_of_mem _ ((List.mem_erase_of_ne fun h => hne (congrArg Lease.data h)).mpr hy)

/-- Returning distinct held blocks one after another drops exactly their leases. -/
theorem Session.run_returns : ∀ (ds : List Ptr) {h h' : Heap} {held : List Lease},
    (held.map Lease.data).Nodup → ds.Nodup → (∀ d ∈ ds, d ∈ held.map Lease.data) →
    ds.foldlM (fun h d => poolMemReturn cfg d h) h = .ok h' →
    Session.run cfg ⟨h, held⟩ (ds.map .poolMemReturn) = some ⟨h', held.filter (·.data ∉ ds)⟩
  | [], h, h', held, _, _, _, e => by
    cases e
    simp [Session.run]
  | d :: ds, h, h', held, hnd, hds, hmem, e => by
    simp only [List.foldlM, bind_eq_ok] at e
    obtain ⟨h₁, e₁, e⟩ := e
    obtain ⟨x, hx, rfl⟩ := List.mem_map.mp (hmem d (List.mem_cons_self _ _))
    have hnd' := hnd.sublist ((List.erase_sublist x held).map Lease.data)
    have hmem' : ∀ d ∈ ds, d ∈ (held.erase x).map Lease.data := fun d hd =>
      mem_data_erase (hmem d (List.mem_cons_of_mem _ hd))
        fun h => (List.nodup_cons.mp hds).1 (h ▸ hd)
    have hfilter : (held.erase x).filter (fun y => decide (y.data ∉ ds)) =
        held.filter (fun y => decide (y.data ∉ x.data :: ds)) := by
      rw [(hnd.of_map _).erase_eq_filter, List.filter_filter]
      refine List.filter_congr fun y hy => ?_
      have hxy : y = x ↔ y.data = x.data :=
        ⟨congrArg _, fun h => List.inj_on_of_nodup_map hnd hy hx h⟩
      by_cases h : y.data = x.data
      · simp [hxy.mpr h]
      · simp [mt hxy.mp h, h]
    simp only [List.map_cons, Session.run, Session.step, find?_data hnd hx, e₁,
      Option.some_bind, Session.run_returns ds hnd' (List.nodup_cons.mp hds).2 hmem' e, hfilter]

theorem Session.acquired_ok (s : Session) (pool d : Ptr) (h : Heap) :
    s.acquired pool (.ok (d, h)) =
      some ⟨h, (if d = 0 then [] else [⟨d, h.memnodeOf d, pool⟩]) ++ s.held⟩ := by
  by_cases hd : d = 0 <;> simp [Session.acquired, hd]

/-- A library call is the run of the pool calls it makes. -/
theorem step_refines {l l' : Lib} {c : Call} (hi : LibInv cfg g l)
    (h : l.step cfg g c = some l') : Session.run cfg l.session (c.ops g l) = some l'.session := by
  cases c with
  | poolAlloc size =>
    simp only [Lib.step] at h
    cases e : poolAlloc cfg g.globalMultipool size l.mem.heap with
    | error f => rw [e] at h; cases h
    | ok r =>
      rw [e] at h
      rw [Call.ops, Session.run_single]
      show l.session.acquired _ (multipoolMemAcquire cfg _ _ l.mem.heap) = _
      rw [poolAlloc_ok e, ← Lib.acquired_session]
      exact congrArg _ h
  | poolAcquireZstreamState =>
    rw [Call.ops, Session.run_single]
    show l.session.acquired _ (poolMemAcquire cfg _ l.mem.heap) = _
    rw [← Lib.acquired_session]
    exact congrArg _ h
  | poolFree data => exact (Session.run_single _ _).trans (Lib.returned_session h)
  | poolReleaseZstreamState state => exact (Session.run_single _ _).trans (Lib.returned_session h)
  | acquireTransformer cap code =>
    obtain ⟨t, m, r, e, hr, rfl⟩ := Lib.step_acquireTransformer h
    obtain ⟨wb, st, zs, h₁, h₂, h₃, e₁, e₂, ht, e₃, e₄, hz, htr⟩ := poolAllocTransformer_ok e
    simp only [htr, Store.get_cons, if_true, Option.some.injEq] at hr
    subst hr
    have hrun : Session.run cfg l.session (Call.ops g l (.acquireTransformer cap code)) =
        some ⟨m.heap, [⟨zs, m.heap.memnodeOf zs, g.zStreamPool⟩] ++
          ((if st = 0 then [] else [⟨st, h₃.memnodeOf st, g.zstreamstatePool⟩]) ++
          ((if wb = 0 then [] else [⟨wb, h₂.memnodeOf wb, h₁.classPool g.globalMultipool cap⟩]) ++
          ([⟨t, h₁.memnodeOf t, g.gozlibTransformerPool⟩] ++ l.held)))⟩ := by
      simp only [Call.ops, Session.run, Session.step, Lib.session, e₁, e₂, e₃, e₄,
        Session.acquired_ok, Option.some_bind, if_neg ht, if_neg hz]
    have hi₄ := inv_run hi.pool hrun
    have hheld : l.held.map (fun e => ⟨e.data, m.heap.memnodeOf e.data, e.pool⟩) = l.held :=
      (List.map_congr_left fun e he => by rw [← hi₄.node_eq (by simp [he])]; rfl).trans
        (List.map_id _)
    have hpool : h₁.classPool g.globalMultipool cap = m.heap.classPool g.globalMultipool cap := by
      simp only [Heap.classPool, ((multipoolMemAcquire_keeps e₂).trans
        ((poolMemAcquire_keeps e₃).trans (poolMemAcquire_keeps e₄))).multipools]
    have hX := hi₄.held_eq
    dsimp only at hX
    rw [hrun, ← hX]
    by_cases hst : st = 0 <;> by_cases hwb : wb = 0 <;>
      simp [Lib.session, GoZLibTransformer.parts, hst, hwb, hz, ht, hpool, hheld]
  | releaseTransformer t =>
    obtain ⟨hlive, m, e, rfl⟩ := Lib.step_releaseTransformer h
    obtain ⟨r, hr, h', ef, rfl⟩ := poolReleaseTransformer_eq_ok.mp e
    obtain ⟨-, hs0, hw0⟩ := poolReleaseTransformer_nonnull hi.raw0 hr e
    have hb := (hi.live t hlive).blocksOf_four hr hs0 hw0
    obtain ⟨hnd, hmem⟩ := Lib.blocksOf_held hi hlive
    rw [hb] at hmem hnd
    simp only [Call.ops, Lib.session, hb]
    exact Session.run_returns _ hi.pool.data_nodup hnd hmem ef
  | resetTransformer t =>
    simp only [Lib.step] at h
    split at h
    · cases h; rfl
    · cases h

end Refines

end Gozlib.Library
