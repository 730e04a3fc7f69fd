import Gozlib.Library.Recycle
import Gozlib.Pool.Reclaim

/-
  The library destructor reclaims everything.

  `create_mem_pools` makes the global multipool, its fourteen pools and the three pools of
  `gozlib.c`, and nothing a program calls makes another pool or multipool (`Globals.Owns`).
  `free_mem_pools` frees the multipool's pools, the multipool and the three pools, and each
  of those frees clears its pools (`Cleared`). So once a program has given back every block,
  after a `create_mem_pools` whose every `malloc` succeeded, `free_mem_pools` returns a heap
  with no node, no raw block, no pool and no multipool (`free_mem_pools_reclaims_all`). An
  entry `create_mem_pools` left `NULL` in the global multipool makes it fault instead.
-/

namespace Gozlib.Library

open Gozlib.Pool

/-! ## What `create_mem_pools` makes -/

/-- The pools `create_mem_pools` made: the entries of the global multipool, then the three
    pools of `gozlib.c`. -/
def Globals.madePools (g : Globals) (h : Heap) : List Ptr :=
  (h.multipools.get g.globalMultipool).getD [] ++
    [g.zstreamstatePool, g.zStreamPool, g.gozlibTransformerPool]

/-- The heap holds no pool but those `create_mem_pools` made, holds each of the three pools of
    `gozlib.c` it made, and no multipool but the global one. -/
structure Globals.Owns (g : Globals) (h : Heap) : Prop where
  pools : ∀ p, (h.pools.get p).isSome → p ∈ g.madePools h
  made : ∀ p ∈ [g.zstreamstatePool, g.zStreamPool, g.gozlibTransformerPool], p ≠ 0 →
    (h.pools.get p).isSome
  multipools : h.multipools.map Prod.fst =
    if g.globalMultipool = 0 then [] else [g.globalMultipool]

/-- A heap with the same pools and multipools. -/
theorem Globals.Owns.frame {g : Globals} {h h' : Heap} (ho : g.Owns h)
    (hk : h'.pools.map Prod.fst = h.pools.map Prod.fst) (hm : h'.multipools = h.multipools) :
    g.Owns h' := by
  have hmade : g.madePools h' = g.madePools h := by rw [Globals.madePools, hm]; rfl
  have hp : ∀ p, (h'.pools.get p).isSome = (h.pools.get p).isSome := fun p => by
    rw [Bool.eq_iff_iff, Store.isSome_get_iff, Store.isSome_get_iff, hk]
  exact ⟨fun p h => hmade ▸ ho.pools p (hp p ▸ h), fun p hq h0 => hp p ▸ ho.made p hq h0,
    hm ▸ ho.multipools⟩

/-- Three pools made one after another on a heap whose pools are the entries of multipool
    `gm`, its only multipool. -/
theorem owns_of_allocs {gm : Ptr} {h₀ : Heap}
    (hp : ∀ p, (h₀.pools.get p).isSome → p ∈ (h₀.multipools.get gm).getD [])
    (hm : h₀.multipools.map Prod.fst = if gm = 0 then [] else [gm]) (s₁ s₂ s₃ : UInt32) :
    Globals.Owns ⟨gm, (allocMemPool s₁ h₀).1, (allocMemPool s₂ (allocMemPool s₁ h₀).2).1,
      (allocMemPool s₃ (allocMemPool s₂ (allocMemPool s₁ h₀).2).2).1⟩
      (allocMemPool s₃ (allocMemPool s₂ (allocMemPool s₁ h₀).2).2).2 := by
  obtain ⟨m₁, g₁, n₁⟩ := allocMemPool_grows s₁ h₀
  obtain ⟨m₂, g₂, n₂⟩ := allocMemPool_grows s₂ (allocMemPool s₁ h₀).2
  obtain ⟨m₃, g₃, n₃⟩ := allocMemPool_grows s₃ (allocMemPool s₂ (allocMemPool s₁ h₀).2).2
  have p₁ : ∀ p, _ → _ := fun p => @allocMemPool_pools s₁ h₀ p
  have p₂ : ∀ p, _ → _ := fun p => @allocMemPool_pools s₂ (allocMemPool s₁ h₀).2 p
  have p₃ : ∀ p, _ → _ :=
    fun p => @allocMemPool_pools s₃ (allocMemPool s₂ (allocMemPool s₁ h₀).2).2 p
  generalize allocMemPool s₃ (allocMemPool s₂ (allocMemPool s₁ h₀).2).2 = a₃ at *
  generalize allocMemPool s₂ (allocMemPool s₁ h₀).2 = a₂ at *
  generalize allocMemPool s₁ h₀ = a₁ at *
  obtain ⟨sp, h₁⟩ := a₁
  obtain ⟨zp, h₂⟩ := a₂
  obtain ⟨tp, h₃⟩ := a₃
  dsimp only at *
  have hmp : h₃.multipools = h₀.multipools := m₃.trans (m₂.trans m₁)
  refine ⟨fun p hp₃ => ?_, ?_, by rw [hmp]; exact hm⟩
  · simp only [Globals.madePools, hmp, List.mem_append, List.mem_cons, List.mem_singleton,
      List.not_mem_nil, or_false]
    rcases p₃ p hp₃ with hp₂ | ⟨rfl, -⟩
    · rcases p₂ p hp₂ with hp₁ | ⟨rfl, -⟩
      · rcases p₁ p hp₁ with hp₀ | ⟨rfl, -⟩
        exacts [.inl (hp p hp₀), .inr (.inl rfl)]
      · exact .inr (.inr (.inl rfl))
    · exact .inr (.inr (.inr rfl))
  · simp only [List.mem_cons, List.mem_singleton, List.not_mem_nil, or_false]
    rintro p (rfl | rfl | rfl) h0
    · exact g₃ _ (g₂ _ (n₁ h0).2)
    · exact g₃ _ (n₂ h0).2
    · exact (n₃ h0).2

/-- What `create_mem_pools` leaves on an empty heap. -/
theorem createMemPools_owns {h₀ : Heap} (hp : h₀.pools = []) (hm : h₀.multipools = []) :
    (createMemPools h₀).1.Owns (createMemPools h₀).2 := by
  obtain ⟨hk, hpools⟩ := multipoolCreate_made h₀
  exact @owns_of_allocs (multipoolCreate h₀).1 (multipoolCreate h₀).2
    (fun p h => (hpools p h).resolve_left (by simp [hp])) (by simpa [hm] using hk)
    sizeofZStreamState sizeofZStream sizeofGoZLibTransformer

section Runs

variable {cfg : Config} {g : Globals}

/-- The pool calls of a library call make no pool. -/
theorem Call.ops_make_no_pool (c : Call) (l : Lib) :
    ∀ op ∈ c.ops g l, (∀ size, op ≠ .allocMemPool size) ∧ op ≠ .multipoolCreate := by
  cases c <;> simp [Call.ops]

theorem Lib.run_poolKeys : ∀ {l l' : Lib} {cs : List Call}, LibInv cfg g l →
    l.run cfg g cs = some l' → l'.mem.heap.pools.map Prod.fst = l.mem.heap.pools.map Prod.fst
  | _, _, [], _, h => by cases h; rfl
  | l, _, c :: _, hi, h => by
    obtain ⟨l₁, h₁, h₂⟩ := Option.bind_eq_some.mp h
    exact (Lib.run_poolKeys (hi.step h₁) h₂).trans
      (Session.run_poolKeys (Call.ops_make_no_pool c l) (step_refines hi h₁))

/-- Every state a program reaches holds the pools and the multipool `create_mem_pools` made,
    and no others. -/
theorem Globals.Owns.of_reachable {l : Lib} (hl : l.Reachable cfg g) : g.Owns l.mem.heap := by
  obtain ⟨supply, calls, rfl, hrun⟩ := hl
  exact (createMemPools_owns rfl rfl).frame (Lib.run_poolKeys (LibInv.start supply) hrun)
    (Lib.run_keeps (LibInv.start supply) hrun).multipools

end Runs

/-! ## `free_mem_pools` -/

/-- `free_mem_pools` at exit, from a state in which the program has given back every block,
    with more fuel than there are nodes. When every `malloc` of `create_mem_pools` succeeded it
    returns a heap with no node, no raw block, no pool and no multipool: each block, its node
    and the raw block under it, each pool and the global multipool are freed. When
    `create_mem_pools` left an entry of the global multipool `NULL`, it faults there. -/
theorem free_mem_pools_reclaims_all {cfg : Config} {g : Globals} {l : Lib}
    (hl : l.Reachable cfg g) (hheld : l.held = []) {fuel : Nat}
    (hfuel : l.mem.heap.nodes.length < fuel) :
    (g.globalMultipool ≠ 0 → 0 ∉ g.madePools l.mem.heap → ∃ h',
      freeMemPools cfg g fuel l.mem.heap = .ok h' ∧
      h'.nodes = [] ∧ h'.raws = [] ∧ h'.pools = [] ∧ h'.multipools = []) ∧
    (0 ∈ (l.mem.heap.multipools.get g.globalMultipool).getD [] →
      freeMemPools cfg g fuel l.mem.heap =
        .fault (if cfg.assertions then .assertFailed "pool != NULL" else .undefined)) := by
  have hi : Inv cfg l.session := (LibInv.of_reachable hl).pool
  refine ⟨fun hgm hmade => ?_, fun h0 => ?_⟩
  · have hown := Globals.Owns.of_reachable hl
    have hkeys := hown.multipools
    rw [if_neg hgm] at hkeys
    obtain ⟨ps, hps⟩ := Option.isSome_iff_exists.mp
      ((Store.isSome_get_iff _ _).mpr (by rw [hkeys]; exact List.mem_singleton_self _))
    obtain ⟨hnd, hout⟩ := Globals.Apart.of_reachable hl
    simp only [Globals.madePools, hps, Option.getD_some, List.mem_append, List.mem_cons,
      List.mem_singleton, List.not_mem_nil, or_false, not_or] at hmade hout
    obtain ⟨h0, hs0, hz0, ht0⟩ := hmade
    rw [List.filter_eq_self.mpr (by simp [Ne.symm hs0, Ne.symm hz0, Ne.symm ht0])] at hnd
    simp only [List.nodup_cons, List.mem_cons, List.mem_singleton, List.not_mem_nil, or_false,
      not_or] at hnd
    obtain ⟨⟨hsz, hst⟩, hzt, -⟩ := hnd
    have hr := Ready.of_inv hi hheld
    obtain ⟨h₁, _, e₁, -, hmp₁, hc₁⟩ := hi.multipool_clear hheld hfuel hps h0
    obtain ⟨h₂, _, e₂, hmp₂, hr₂, hc₂⟩ := hc₁.free_pool cfg (hr.cleared hc₁) hi.keys
      (hout _ (.inl rfl) (Ne.symm hs0)) (hown.made _ (by simp) (Ne.symm hs0)) hfuel
    obtain ⟨h₃, _, e₃, hmp₃, hr₃, hc₃⟩ := hc₂.free_pool cfg hr₂ hi.keys
      (by simp [hout _ (.inr (.inl rfl)) (Ne.symm hz0), Ne.symm hsz]) (hown.made _ (by simp) (Ne.symm hz0)) hfuel
    obtain ⟨h₄, _, e₄, hmp₄, -, hc₄⟩ := hc₃.free_pool cfg hr₃ hi.keys
      (by simp [hout _ (.inr (.inr rfl)) (Ne.symm ht0), Ne.symm hst, Ne.symm hzt])
      (hown.made _ (by simp) (Ne.symm ht0)) hfuel
    obtain ⟨hpools, hnodes, hraws⟩ := hi.cleared_empty
      (rawsOwned_of_reachable (Lib.session_reachable hl)) hc₄ fun p hp => by
        simpa [Globals.madePools, hps, or_assoc] using hown.pools p hp
    change multipoolFree cfg g.globalMultipool fuel l.mem.heap = _ at e₁
    refine ⟨h₄, by simp only [freeMemPools, globalMultipoolFree, e₁, e₂, e₃, e₄, Bounded.ok_bind,
      Bounded.pure_eq], hnodes, hraws, hpools, ?_⟩
    rw [hmp₄, hmp₃, hmp₂, hmp₁]
    exact Store.erase_eq_nil_of_keys hkeys
  · obtain ⟨ps, hps⟩ : ∃ ps, l.mem.heap.multipools.get g.globalMultipool = some ps := by
      cases e : l.mem.heap.multipools.get g.globalMultipool with
      | none => rw [e] at h0; cases h0
      | some ps => exact ⟨ps, rfl⟩
    rw [hps, Option.getD_some] at h0
    have e : multipoolFree cfg g.globalMultipool fuel l.mem.heap = _ :=
      (hi.multipool_free hheld hfuel hps).2 h0
    simp [freeMemPools, globalMultipoolFree, e]

/-- `malloc`'s answers: eighteen unused addresses, one for the multipool and one for each pool. -/
def freshSupply : List Ptr := (List.range 18).map fun i => 16 * (i + 1)

/-- `free_mem_pools` right after a `create_mem_pools` whose every `malloc` succeeded. -/
theorem free_mem_pools_reclaims_sample :
    ∃ h', freeMemPools ⟨true, true⟩ ⟨16, 256, 272, 288⟩ 1 (Lib.start freshSupply).2.mem.heap =
      .ok h' ∧ h'.nodes = [] ∧ h'.raws = [] ∧ h'.pools = [] ∧ h'.multipools = [] :=
  (free_mem_pools_reclaims_all (⟨freshSupply, [], rfl, rfl⟩ :
    (Lib.start freshSupply).2.Reachable ⟨true, true⟩ ⟨16, 256, 272, 288⟩) rfl
    (by decide)).1 (by decide) (by decide)

end Gozlib.Library
