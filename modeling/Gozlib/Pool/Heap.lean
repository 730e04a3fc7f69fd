import Mathlib.Data.List.Nodup

/-
  The C heap as `dyn_mem_pool.h` sees it.

  Every live `malloc` allocation is an object at its base address, kept in one association
  list per C type (`Store`): the `struct MemNode`s, the `struct MemPool`s, the `pools`
  arrays of the `struct MultiPool`s, and the raw blocks. Of a raw block only its size and
  its first `ptrdiff_t` word are modelled: `alloc_poolable_mem` writes that word
  (`ptr_data[0] = (ptrdiff_t) node`), `get_memnode_in_data` reads it back, and the pool
  touches no other byte of it.

  `malloc` answers from `supply`, the environment's future answers, one per call. `0` is
  an allocation failure, and so is an address already in use, so every list is a valid
  behaviour of `malloc` and every behaviour is a list. Code stores the new object at the
  returned address before it calls `malloc` again.

  A store is read with `Store.get` and written with `Store.modify`, `Store.erase` or a
  cons; the `@[simp]` lemmas below read each of these back, and a write to one store
  leaves the others alone by definition.
-/

namespace Gozlib.Pool

/-- Addresses; `0` is `NULL`. -/
abbrev Ptr := Nat

/-- `sizeof (ptrdiff_t)`: the hidden word in front of every payload. -/
def ptrdiffSize : Nat := 8

/-- How a modelled call stops early. -/
inductive Fault
  /-- An `assert` failed (a build without `NDEBUG`); the argument is the asserted text. -/
  | assertFailed (expr : String)
  /-- Undefined behaviour: a read or write through `NULL`, or through a pointer to no
      object of the type the code expects. -/
  | undefined
  deriving DecidableEq, Repr

/-- The two build switches of `dyn_mem_pool.h`. -/
structure Config where
  /-- `NDEBUG` is not defined, so a failed `assert` aborts. -/
  assertions : Bool
  /-- `TRACK_POOL_USAGE` is defined, so the usage counters are kept. -/
  trackPoolUsage : Bool
  deriving DecidableEq, Repr

/-- `assert (c)`, where `expr` is the text of `c`. -/
def cassert (cfg : Config) (c : Bool) (expr : String) : Except Fault Unit :=
  if cfg.assertions && !c then .error (.assertFailed expr) else .ok ()

/-- A dereference: no object of the expected type is undefined behaviour. -/
def deref {α : Type} : Option α → Except Fault α
  | some a => .ok a
  | none => .error .undefined

@[simp] theorem bind_eq_ok {ε α β : Type} (x : Except ε α) (f : α → Except ε β) (b : β) :
    (x >>= f) = .ok b ↔ ∃ a, x = .ok a ∧ f a = .ok b := by
  cases x <;> simp [bind, Except.bind]

@[simp] theorem map_eq_ok {ε α β : Type} (x : Except ε α) (f : α → β) (b : β) :
    (f <$> x) = .ok b ↔ ∃ a, x = .ok a ∧ f a = b := by
  cases x <;> simp [Functor.map, Except.map]

@[simp] theorem pure_eq_ok {ε α : Type} (a b : α) : (pure a : Except ε α) = .ok b ↔ a = b := by
  simp [pure, Except.pure]

@[simp] theorem cassert_eq_ok (cfg : Config) (c : Bool) (e : String) (u : Unit) :
    cassert cfg c e = .ok u ↔ (cfg.assertions = true → c = true) := by
  obtain ⟨a, t⟩ := cfg
  cases a <;> cases c <;> simp [cassert]

@[simp] theorem deref_eq_ok {α : Type} (o : Option α) (a : α) : deref o = .ok a ↔ o = some a := by
  cases o <;> simp [deref]

/-- `struct MemNode`. -/
structure MemNode where
  next : Ptr
  data : Ptr
  pool : Ptr
  deriving DecidableEq, Repr

/-- `struct MemPool`; the two counters exist only with `TRACK_POOL_USAGE` and stay `0`
    otherwise. -/
structure MemPool where
  head : Ptr
  memSize : UInt32
  numAllocs : UInt32
  numAvailable : UInt32
  deriving DecidableEq, Repr

/-- Objects of one C type by base address, newest first. -/
abbrev Store (α : Type) := List (Ptr × α)

namespace Store

variable {α : Type}

def get (s : Store α) (p : Ptr) : Option α := s.lookup p

def modify (s : Store α) (p : Ptr) (g : α → α) : Store α :=
  s.map fun e => if e.1 = p then (p, g e.2) else e

def erase (s : Store α) (p : Ptr) : Store α := s.filter fun e => e.1 ≠ p

@[simp] theorem get_nil (p : Ptr) : get ([] : Store α) p = none := rfl

@[simp] theorem get_cons (s : Store α) (a p : Ptr) (x : α) :
    get ((a, x) :: s) p = if p = a then some x else s.get p := by
  by_cases hp : p = a
  · simp [get, hp]
  · have hb : (p == a) = false := by simpa using hp
    simp [get, List.lookup_cons, hb, hp]

theorem get_cons_of_ne (s : Store α) {a p : Ptr} (x : α) (hp : p ≠ a) :
    get ((a, x) :: s) p = s.get p := by
  simp [hp]

theorem ne_of_get {s : Store α} {p a : Ptr} {x : α} (hp : s.get p = some x)
    (ha : s.get a = none) : p ≠ a := by
  rintro rfl; simp_all

@[simp] theorem get_modify (s : Store α) (q p : Ptr) (g : α → α) :
    (s.modify q g).get p = if p = q then (s.get q).map g else s.get p := by
  induction s with
  | nil => split <;> rfl
  | cons e s ih =>
    obtain ⟨a, x⟩ := e
    by_cases ha : a = q
    · subst ha; by_cases hp : p = a <;> simp_all [modify]
    · by_cases hp : p = q
      · subst hp; simp_all [modify, Ne.symm ha]
      · simp_all [modify]

@[simp] theorem get_erase (s : Store α) (q p : Ptr) :
    (s.erase q).get p = if p = q then none else s.get p := by
  induction s with
  | nil => split <;> rfl
  | cons e s ih =>
    obtain ⟨a, x⟩ := e
    by_cases ha : a = q
    · subst ha; simp_all [erase]
    · by_cases hp : p = a
      · subst hp; simp_all [erase]
      · simp_all [erase]

theorem get_eq_none_of_not_mem {s : Store α} {p : Ptr} (h : p ∉ s.map Prod.fst) :
    s.get p = none := by
  induction s with
  | nil => rfl
  | cons e s ih =>
    obtain ⟨a, x⟩ := e
    simp only [List.map_cons, List.mem_cons, not_or] at h
    simp [h.1, ih h.2]

theorem mem_keys_of_get {s : Store α} {p : Ptr} {x : α} (h : s.get p = some x) :
    p ∈ s.map Prod.fst := by
  by_contra hn
  rw [get_eq_none_of_not_mem hn] at h
  cases h

theorem modify_of_get_none {s : Store α} {q : Ptr} (h : s.get q = none) (g : α → α) :
    s.modify q g = s := by
  induction s with
  | nil => rfl
  | cons e s ih =>
    obtain ⟨a, x⟩ := e
    by_cases ha : q = a
    · simp [ha] at h
    · simp only [get_cons, ha, if_false] at h
      simp only [modify, List.map_cons, if_neg (Ne.symm ha)]
      exact congrArg _ (ih h)

theorem erase_of_get_none {s : Store α} {q : Ptr} (h : s.get q = none) : s.erase q = s := by
  induction s with
  | nil => rfl
  | cons e s ih =>
    obtain ⟨a, x⟩ := e
    by_cases ha : q = a
    · simp [ha] at h
    · simp only [get_cons, ha, if_false] at h
      simp only [erase, List.filter_cons, ne_eq, Ne.symm ha, not_false_eq_true, decide_True,
        ite_true]
      exact congrArg _ (ih h)

@[simp] theorem erase_cons_self (s : Store α) (a : Ptr) (x : α) :
    Store.erase ((a, x) :: s) a = s.erase a := by
  simp [erase]

@[simp] theorem modify_cons_self (s : Store α) (a : Ptr) (x : α) (g : α → α) :
    Store.modify ((a, x) :: s) a g = (a, g x) :: s.modify a g := by
  simp [modify]

theorem isSome_get_iff (s : Store α) (p : Ptr) : (s.get p).isSome ↔ p ∈ s.map Prod.fst := by
  constructor
  · intro h
    obtain ⟨x, hx⟩ := Option.isSome_iff_exists.mp h
    exact mem_keys_of_get hx
  · intro h
    by_contra hn
    simp only [Option.not_isSome_iff_eq_none] at hn
    induction s with
    | nil => cases h
    | cons e s ih =>
      obtain ⟨a, x⟩ := e
      by_cases hp : p = a
      · simp [hp] at hn
      · simp only [get_cons, hp, if_false] at hn
        simp only [List.map_cons, List.mem_cons, hp, false_or] at h
        exact ih h hn

theorem get_eq_none_iff {s : Store α} {p : Ptr} : s.get p = none ↔ p ∉ s.map Prod.fst :=
  ⟨fun h hm => by simpa [h] using (isSome_get_iff s p).mpr hm, get_eq_none_of_not_mem⟩

@[simp] theorem keys_modify (s : Store α) (q : Ptr) (g : α → α) :
    (s.modify q g).map Prod.fst = s.map Prod.fst := by
  induction s with
  | nil => rfl
  | cons e s ih => by_cases h : e.1 = q <;> simp_all [modify]

/-- Addresses of the `struct MemNode`s whose `pool` field is `q`, newest first: the
    blocks pool `q` allocated. -/
def nodesOf (s : Store MemNode) (q : Ptr) : List Ptr :=
  (s.filter fun e => e.2.pool = q).map Prod.fst

@[simp] theorem nodesOf_cons (s : Store MemNode) (a q : Ptr) (n : MemNode) :
    nodesOf ((a, n) :: s) q = if n.pool = q then a :: s.nodesOf q else s.nodesOf q := by
  by_cases h : n.pool = q <;> simp [nodesOf, List.filter_cons, h]

/-- Rewriting fields other than `pool` keeps every pool's node list. -/
theorem nodesOf_modify (s : Store MemNode) (p q : Ptr) {g : MemNode → MemNode}
    (hg : ∀ n, (g n).pool = n.pool) : (s.modify p g).nodesOf q = s.nodesOf q := by
  induction s with
  | nil => rfl
  | cons e s ih =>
    obtain ⟨a, n⟩ := e
    by_cases h : a = p <;> simp_all [modify]

/-- Rewriting a node's `next` keeps its `data` and `pool`. -/
theorem get_modify_next {s : Store MemNode} {p a x : Ptr} {n' : MemNode}
    (h : (s.modify p fun m => { m with next := x }).get a = some n') :
    ∃ n, s.get a = some n ∧ n'.data = n.data ∧ n'.pool = n.pool := by
  rw [get_modify] at h
  split_ifs at h with ha
  · obtain ⟨n, hn, rfl⟩ := Option.map_eq_some'.mp h
    exact ⟨n, ha ▸ hn, rfl, rfl⟩
  · exact ⟨n', h, rfl, rfl⟩

theorem get_modify_next_of_get {s : Store MemNode} {p a x : Ptr} {n : MemNode}
    (h : s.get a = some n) : ∃ n', (s.modify p fun m => { m with next := x }).get a = some n' ∧
      n'.data = n.data ∧ n'.pool = n.pool := by
  rw [get_modify]
  split_ifs with ha
  · subst ha; exact ⟨{ n with next := x }, by rw [h]; rfl, rfl, rfl⟩
  · exact ⟨n, h, rfl, rfl⟩

end Store

/-- The heap: the four stores and `malloc`'s future answers. -/
structure Heap where
  nodes : Store MemNode
  pools : Store MemPool
  /-- The `pools` array of each `struct MultiPool`. -/
  multipools : Store (List Ptr)
  /-- Raw blocks: size in bytes and the first word. -/
  raws : Store (Nat × Ptr)
  supply : List Ptr
  deriving DecidableEq, Repr

namespace Heap

/-- An address some live object starts at. -/
def used (h : Heap) (a : Ptr) : Bool :=
  (h.nodes.get a).isSome || (h.pools.get a).isSome || (h.multipools.get a).isSome ||
    (h.raws.get a).isSome

/-- `malloc`: the next answer of `supply`, read as a failure when it is `NULL` or in use.
    The caller stores its object at the address before the next `malloc`. -/
def malloc (h : Heap) : Ptr × Heap :=
  match h.supply with
  | [] => (0, h)
  | a :: rest => (if a ≠ 0 ∧ h.used a = false then a else 0, { h with supply := rest })

/-- What `malloc` did: it failed, or it returned a non-`NULL` address no object starts at;
    either way only `supply` moved. -/
theorem malloc_cases (h : Heap) :
    ((h.malloc).1 = 0 ∨ ((h.malloc).1 ≠ 0 ∧ h.used (h.malloc).1 = false)) ∧
      (h.malloc).2 = { h with supply := (h.malloc).2.supply } := by
  unfold malloc
  split
  · exact ⟨.inl rfl, rfl⟩
  · refine ⟨?_, rfl⟩
    split
    · next hf => exact .inr hf
    · exact .inl rfl

/-- `malloc` as an equation: only `supply` moves. -/
theorem malloc_eq (h : Heap) :
    ∃ a s, h.malloc = (a, { h with supply := s }) ∧ (a = 0 ∨ (a ≠ 0 ∧ h.used a = false)) :=
  ⟨_, _, Prod.ext rfl (h.malloc_cases).2, (h.malloc_cases).1⟩

/-- `malloc` with an unused non-`NULL` address next in `supply` returns it. -/
theorem malloc_of_supply {h : Heap} {a : Ptr} {rest : List Ptr} (hs : h.supply = a :: rest)
    (ha0 : a ≠ 0) (hau : h.used a = false) : h.malloc = (a, { h with supply := rest }) := by
  simp [malloc, hs, ha0, hau]

theorem used_eq_false_iff {h : Heap} {a : Ptr} :
    h.used a = false ↔ h.nodes.get a = none ∧ h.pools.get a = none ∧
      h.multipools.get a = none ∧ h.raws.get a = none := by
  simp [used, Option.isSome_iff_ne_none, and_assoc]

theorem not_used {h : Heap} {a : Ptr} (hu : h.used a = false) :
    h.nodes.get a = none ∧ h.pools.get a = none ∧ h.multipools.get a = none ∧
      h.raws.get a = none :=
  used_eq_false_iff.mp hu

end Heap

end Gozlib.Pool
