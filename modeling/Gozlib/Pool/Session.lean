import Gozlib.Pool.MultiPool

/-
  A single-threaded program over any family of pools: it calls `alloc_mem_pool`,
  `multipool_create`, `pool_mem_acquire`, `multipool_mem_acquire` with any size, and
  `pool_mem_return` on a pointer it holds. `Session` pairs the heap with the blocks the
  program holds (`Lease`: the pointer, the node found in its hidden word when it was handed
  out, and the pool it was acquired from). A call that faults ends the run; a return of a
  pointer the program does not hold is not a call it makes.

  `Session.run` is a fold over the calls; `Session.Reachable` ranges over every `malloc`
  behaviour (`supply`) and every call sequence from the empty heap.
-/

namespace Gozlib.Pool

/-- A block the program holds. -/
structure Lease where
  data : Ptr
  node : Ptr
  pool : Ptr
  deriving DecidableEq, Repr

/-- The heap and the blocks the program holds. -/
structure Session where
  heap : Heap
  held : List Lease
  deriving DecidableEq, Repr

/-- The calls of a single-threaded program. -/
inductive Op
  | allocMemPool (size : UInt32)
  | multipoolCreate
  | poolMemAcquire (pool : Ptr)
  | multipoolMemAcquire (multipool : Ptr) (size : UInt32)
  | poolMemReturn (data : Ptr)
  deriving DecidableEq, Repr

namespace Heap

/-- The hidden word in front of a payload pointer. -/
def memnodeOf (h : Heap) (data : Ptr) : Ptr :=
  ((h.raws.get (data - ptrdiffSize)).map Prod.snd).getD 0

/-- The pool `multipool_mem_acquire` reads from `pools[index]` for `size`. -/
def classPool (h : Heap) (multipool : Ptr) (size : UInt32) : Ptr :=
  ((h.multipools.get multipool).getD []).getD (findMultipoolIndexForSize size) 0

end Heap

namespace Session

variable (cfg : Config)

/-- What an acquire call returned: a non-`NULL` pointer becomes a lease on `pool`. -/
def acquired (s : Session) (pool : Ptr) : Except Fault (Ptr × Heap) → Option Session
  | .ok (d, h) => some ⟨h, if d = 0 then s.held else ⟨d, h.memnodeOf d, pool⟩ :: s.held⟩
  | .error _ => none

def step (s : Session) : Op → Option Session
  | .allocMemPool size => some { s with heap := (allocMemPool size s.heap).2 }
  | .multipoolCreate => some { s with heap := (multipoolCreate s.heap).2 }
  | .poolMemAcquire pool => s.acquired pool (poolMemAcquire cfg pool s.heap)
  | .multipoolMemAcquire mp size =>
    s.acquired (s.heap.classPool mp size) (multipoolMemAcquire cfg mp size s.heap)
  | .poolMemReturn data =>
    match s.held.find? (·.data = data) with
    | none => none
    | some e =>
      match poolMemReturn cfg data s.heap with
      | .ok h => some ⟨h, s.held.erase e⟩
      | .error _ => none

def run : Session → List Op → Option Session
  | s, [] => some s
  | s, op :: ops => (step cfg s op).bind (run · ops)

/-- The empty heap, with `malloc` answering from `supply`. -/
def init (supply : List Ptr) : Session := ⟨⟨[], [], [], [], supply⟩, []⟩

/-- Reached from the empty heap by some `malloc` behaviour and some calls. -/
def Reachable (s : Session) : Prop := ∃ supply ops, run cfg (init supply) ops = some s

/-- The nodes of the blocks held from pool `q`. -/
def heldNodes (s : Session) (q : Ptr) : List Ptr := (s.held.filter (·.pool = q)).map (·.node)

@[simp] theorem heldNodes_mk (h : Heap) (held : List Lease) (q : Ptr) :
    heldNodes ⟨h, held⟩ q = (held.filter (·.pool = q)).map (·.node) := rfl

/-- Erasing a held lease `e` removes its node from the held nodes of `e.pool` only. -/
theorem heldNodes_erase {held : List Lease} {e : Lease} (he : e ∈ held) (q : Ptr) :
    ((held.filter (·.pool = q)).map (·.node)).Perm
      ((if e.pool = q then [e.node] else []) ++ ((held.erase e).filter (·.pool = q)).map (·.node)) := by
  have := ((List.perm_cons_erase he).filter fun x => decide (x.pool = q)).map Lease.node
  by_cases hq : e.pool = q <;> simpa [List.filter_cons, hq] using this

end Session

end Gozlib.Pool
