import Gozlib.Pool.Heap

/-
  The free list of a pool: the `struct MemNode`s reached from `pool->head` through
  `next` until `NULL`.

  `FreeList nodes p xs` says that following `next` from `p` visits exactly `xs` and then
  reads `NULL`. A list that reaches `NULL` is finite and acyclic; it is determined by its
  start (`FreeList.unique`) and has no repeated node (`FreeList.nodup`). It depends only on
  the `next` fields of the nodes it visits (`FreeList.congr`), so a write to any other node
  keeps it (`FreeList.frame`).
-/

namespace Gozlib.Pool

/-- Following `next` from `p` through `nodes` visits `xs`, then reaches `NULL`. -/
inductive FreeList (nodes : Store MemNode) : Ptr → List Ptr → Prop
  | null : FreeList nodes 0 []
  | cons {p : Ptr} {n : MemNode} {xs : List Ptr} :
      p ≠ 0 → nodes.get p = some n → FreeList nodes n.next xs → FreeList nodes p (p :: xs)

namespace FreeList

variable {nodes nodes' : Store MemNode} {p : Ptr} {xs ys : List Ptr}

theorem nil_iff : FreeList nodes p [] ↔ p = 0 :=
  ⟨fun h => by cases h; rfl, fun h => h ▸ .null⟩

theorem cons_iff {q : Ptr} :
    FreeList nodes p (q :: xs) ↔
      p = q ∧ p ≠ 0 ∧ ∃ n, nodes.get p = some n ∧ FreeList nodes n.next xs := by
  constructor
  · rintro (_ | ⟨hp, hn, hl⟩)
    exact ⟨rfl, hp, _, hn, hl⟩
  · rintro ⟨rfl, hp, n, hn, hl⟩
    exact .cons hp hn hl

theorem of_null (h : FreeList nodes 0 xs) : xs = [] := by
  cases h with
  | null => rfl
  | cons hp => exact absurd rfl hp

theorem unique (h : FreeList nodes p xs) (h' : FreeList nodes p ys) : xs = ys := by
  induction h generalizing ys with
  | null => exact (of_null h').symm
  | cons hp hn _ ih =>
    cases h' with
    | null => exact absurd rfl hp
    | cons _ hn' hl' =>
      rw [hn] at hn'
      cases hn'
      rw [ih hl']

theorem get_of_mem (h : FreeList nodes p xs) {q : Ptr} (hq : q ∈ xs) :
    q ≠ 0 ∧ ∃ n, nodes.get q = some n := by
  induction h with
  | null => cases hq
  | cons hp hn _ ih =>
    rcases List.mem_cons.mp hq with rfl | hq
    · exact ⟨hp, _, hn⟩
    · exact ih hq

theorem head_mem (h : FreeList nodes p xs) (hp : p ≠ 0) : p ∈ xs := by
  cases h with
  | null => exact absurd rfl hp
  | cons => exact List.mem_cons_self _ _

/-- From any node on the list, the rest of the list is a suffix. -/
theorem suffix_of_mem (h : FreeList nodes p xs) {q : Ptr} (hq : q ∈ xs) :
    ∃ zs, FreeList nodes q (q :: zs) ∧ (q :: zs) <:+ xs := by
  induction h with
  | null => cases hq
  | cons hp hn hl ih =>
    rcases List.mem_cons.mp hq with rfl | hq
    · exact ⟨_, .cons hp hn hl, List.suffix_refl _⟩
    · obtain ⟨zs, hz, hs⟩ := ih hq
      exact ⟨zs, hz, hs.trans (List.suffix_cons _ _)⟩

/-- A list that reaches `NULL` visits no node twice. -/
theorem nodup (h : FreeList nodes p xs) : xs.Nodup := by
  induction h with
  | null => exact List.nodup_nil
  | cons hp hn hl ih =>
    refine List.nodup_cons.mpr ⟨fun hm => ?_, ih⟩
    obtain ⟨zs, hz, hs⟩ := suffix_of_mem hl hm
    have := (unique hz (.cons hp hn hl)) ▸ hs
    exact absurd this.length_le (by simp)

/-- The list only reads the nodes it visits. -/
theorem congr (h : FreeList nodes p xs) (hc : ∀ q ∈ xs, nodes'.get q = nodes.get q) :
    FreeList nodes' p xs := by
  induction h with
  | null => exact .null
  | cons hp hn _ ih =>
    refine .cons hp ((hc _ (List.mem_cons_self _ _)).trans hn) (ih fun q hq => ?_)
    exact hc q (List.mem_cons_of_mem _ hq)

variable {q : Ptr}

theorem modify (h : FreeList nodes p xs) (hq : q ∉ xs) (g : MemNode → MemNode) :
    FreeList (nodes.modify q g) p xs :=
  h.congr fun r hr => by simp [show r ≠ q from fun e => hq (e ▸ hr)]

theorem cons_fresh (h : FreeList nodes p xs) (hq : nodes.get q = none) (n : MemNode) :
    FreeList ((q, n) :: nodes) p xs :=
  h.congr fun r hr => by
    obtain ⟨-, m, hm⟩ := h.get_of_mem hr
    simp [show r ≠ q by rintro rfl; simp_all]

theorem erase (h : FreeList nodes p xs) (hq : q ∉ xs) : FreeList (nodes.erase q) p xs :=
  h.congr fun r hr => by simp [show r ≠ q from fun e => hq (e ▸ hr)]

/-- Pushing `q` whose `next` is the old head. -/
theorem push (h : FreeList nodes p xs) (hq : q ≠ 0) {n : MemNode} (hn : nodes.get q = some n)
    (hnext : n.next = p) : FreeList nodes q (q :: xs) :=
  .cons hq hn (hnext ▸ h)

end FreeList

end Gozlib.Pool
