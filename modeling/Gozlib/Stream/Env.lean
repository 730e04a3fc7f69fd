import Gozlib.Pool.MultiPool

/-
  The world the stream functions of `gozlib.c` run in.

  The wrapper calls out to zlib (`deflateInit2`, `deflate`, `deflateEnd` and their `inflate`
  counterparts), to the caller's `input_handler` and `output_handler`, and to the pools
  (`pool_alloc`, `pool_free`). zlib and the handlers are the environment (`Env`): each call is
  answered by a function of everything that was called before (`World.log`), so a
  quantifier over `Env` ranges over every behaviour of zlib and of the handlers. An `Env`
  carries the contracts the wrapper relies on as fields: `input_handler` writes at most the
  capacity it is given, and a zlib call consumes at most `avail_in` bytes and writes at most
  `avail_out`. A zlib call also keeps zlib's own bookkeeping: `total_out` grows by the bytes
  written, as a `uLong` (64 bits here). The pools are the model of `dyn_mem_pool.h`.

  `World.log` records every call the wrapper makes, oldest first; `World.outBuf` holds the
  bytes of the output work buffer that the last zlib call wrote, which is what
  `output_handler` is handed; `World.errorCode` is `*error_code`, `none` until written, and
  each write is also an event.

  A run is in the monad `SM`: it ends normally (`Outcome.ok`) or stops (`Outcome.stop`) at a
  fault of the pools (a failed `assert`, or undefined behaviour) or when its fuel runs out;
  either way the world is kept, so a stopped run still shows what it called.
-/

namespace Gozlib.Stream

open Gozlib.Pool

/-! ## Codes -/

def zOk : Int := 0
def zStreamEnd : Int := 1
def zNeedDict : Int := 2
def zStreamError : Int := -2
def zDataError : Int := -3
def zMemError : Int := -4
def zNoFlush : Int := 0
def zFinish : Int := 4
def maxWbits : Int := 15

def gozlibCustomCodeBase : Int := 1024
def gozlibStreamOutputWriteError : Int := -(gozlibCustomCodeBase + 1)
def gozlibStreamOutputHasMoreData : Int := gozlibCustomCodeBase + 1

/-- `UNCOMPRESS_ANY_WINDOW_BITS`: zlib or gzip, detected from the header. -/
def uncompressAnyWindowBits : Int := maxWbits + 32

/-- `COMPRESS_GZIP_WINDOW_BITS`. -/
def compressGzipWindowBits : Int := maxWbits + 16

/-! ## The world -/

/-- The fields of `z_stream` the wrapper reads or writes. -/
structure ZStream where
  nextIn : Ptr
  availIn : Nat
  nextOut : Ptr
  availOut : Nat
  totalOut : UInt64
  deriving DecidableEq, Repr

/-- What a zlib call is asked. -/
structure ZRequest where
  availIn : Nat
  availOut : Nat
  flush : Int
  deriving DecidableEq, Repr

/-- A call the wrapper makes, with what it passed and what came back. -/
inductive Event
  /-- `deflateInit2` or `inflateInit2` with these window bits, and its code -/
  | init (windowBits code : Int)
  /-- `input_handler (state, buf, cap)` returned `n` -/
  | input (buf : Ptr) (cap n : Nat)
  /-- `output_handler (state, buf, len)` was handed `bytes` and returned `r` -/
  | output (buf : Ptr) (bytes : List UInt8) (r : Nat)
  /-- `deflate` or `inflate` at these `next_in` and `next_out`, asked `req`; its code and the
      bytes it wrote -/
  | zlib (nextIn nextOut : Ptr) (req : ZRequest) (code : Int) (out : List UInt8)
  /-- `deflateEnd` or `inflateEnd` -/
  | finish
  /-- `pool_alloc (size)` returned `p` -/
  | alloc (size : Nat) (p : Ptr)
  /-- `pool_free (p)` was called -/
  | free (p : Ptr)
  /-- `*error_code = code` -/
  | error (code : Int)
  deriving DecidableEq, Repr

structure World where
  heap : Heap
  zs : ZStream
  outBuf : List UInt8
  errorCode : Option Int
  log : List Event
  deriving DecidableEq, Repr

/-- What a zlib call does: its code, the input bytes it consumed, the bytes it wrote. -/
structure ZAnswer where
  code : Int
  consumed : Nat
  out : List UInt8
  deriving DecidableEq, Repr

/-- zlib and the two handlers, each answering from the calls made so far. -/
structure Env where
  initCode : Int
  input : List Event → Nat → Nat
  input_le : ∀ log cap, input log cap ≤ cap
  output : List Event → List UInt8 → Nat
  zlib : List Event → ZRequest → ZAnswer
  zlib_consumed : ∀ log r, (zlib log r).consumed ≤ r.availIn
  zlib_out : ∀ log r, (zlib log r).out.length ≤ r.availOut

/-- An environment from answers cut to the contracts: `input_handler` to its capacity, and a
    zlib call to `avail_in` and `avail_out`. -/
def Env.clamp (initCode : Int) (input : List Event → Nat) (output : List Event → List UInt8 → Nat)
    (zlib : List Event → ZRequest → ZAnswer) : Env where
  initCode := initCode
  input log cap := min (input log) cap
  input_le _ _ := Nat.min_le_right _ _
  output := output
  zlib log r :=
    ⟨(zlib log r).code, min (zlib log r).consumed r.availIn, (zlib log r).out.take r.availOut⟩
  zlib_consumed _ _ := Nat.min_le_right _ _
  zlib_out _ _ := List.length_take_le _ _

/-- The multipool at `1`, the empty pool of class `i` at `2 + i`, and `malloc` still to
    answer `100, 101, …, 107` (`multipoolCreate_sample`). -/
def sampleHeap : Heap :=
  ⟨[], [(15, ⟨0, 4194304, 0, 0⟩), (14, ⟨0, 2097152, 0, 0⟩), (13, ⟨0, 1048576, 0, 0⟩),
    (12, ⟨0, 524288, 0, 0⟩), (11, ⟨0, 262144, 0, 0⟩), (10, ⟨0, 131072, 0, 0⟩),
    (9, ⟨0, 65536, 0, 0⟩), (8, ⟨0, 32768, 0, 0⟩), (7, ⟨0, 16384, 0, 0⟩), (6, ⟨0, 8192, 0, 0⟩),
    (5, ⟨0, 4096, 0, 0⟩), (4, ⟨0, 2048, 0, 0⟩), (3, ⟨0, 1024, 0, 0⟩), (2, ⟨0, 512, 0, 0⟩)],
    [(1, [2, 3, 4, 5, 6, 7, 8, 9, 10, 11, 12, 13, 14, 15])], [], List.range' 100 8⟩

/-- `sampleHeap` is what `global_multipool_create` leaves when `malloc` answers
    `1, 2, …, 15` and then `100, 101, …`. -/
theorem multipoolCreate_sample :
    multipoolCreate ⟨[], [], [], [], List.range' 1 15 ++ List.range' 100 8⟩ = (1, sampleHeap) := by
  simp [multipoolCreate, multipoolCreateLoop, allocMemPool, Heap.malloc, Heap.used,
    multipoolClassSize, List.range', multipoolEntryCount, sampleHeap, Store.modify]
  decide

/-- A world before any stream call: `_global_multipool` is `1`. -/
def sampleWorld : World := ⟨sampleHeap, ⟨0, 0, 0, 0, 0⟩, [], none, []⟩

/-- An empty input: `input_handler` returns 0, zlib ends the stream, `output_handler` accepts. -/
def emptyEnv : Env := Env.clamp zOk (fun _ => 0) (fun _ _ => 1) fun _ _ => ⟨zStreamEnd, 0, []⟩

/-! ## Runs -/

/-- Why a run stopped early. -/
inductive Stop
  | fault (f : Fault)
  | outOfFuel
  deriving DecidableEq, Repr

inductive Outcome (α : Type)
  | ok (a : α) (w : World)
  | stop (s : Stop) (w : World)
  deriving DecidableEq, Repr

/-- The world a run ends in, however it ends. -/
def Outcome.world {α : Type} : Outcome α → World
  | .ok _ w => w
  | .stop _ w => w

@[simp] theorem Outcome.world_ok {α : Type} (a : α) (w : World) : (Outcome.ok a w).world = w := rfl

@[simp] theorem Outcome.world_stop {α : Type} (s : Stop) (w : World) :
    (Outcome.stop s w : Outcome α).world = w := rfl

def SM (α : Type) : Type := World → Outcome α

instance : Monad SM where
  pure a w := .ok a w
  bind x f w :=
    match x w with
    | .ok a w' => f a w'
    | .stop s w' => .stop s w'

namespace SM

variable {α β : Type}

@[simp] theorem ite_run (c : Prop) [Decidable c] (x y : SM α) (w : World) :
    (if c then x else y) w = if c then x w else y w := by
  split <;> rfl

@[simp] theorem pure_run (a : α) (w : World) : (pure a : SM α) w = .ok a w := rfl

theorem bind_run (x : SM α) (f : α → SM β) (w : World) :
    (x >>= f) w = match x w with
      | .ok a w' => f a w'
      | .stop s w' => .stop s w' := rfl

@[simp] theorem bind_ok {x : SM α} {w w' : World} {a : α} (h : x w = .ok a w') (f : α → SM β) :
    (x >>= f) w = f a w' := by
  rw [bind_run, h]

@[simp] theorem bind_stop {x : SM α} {w w' : World} {s : Stop} (h : x w = .stop s w')
    (f : α → SM β) : (x >>= f) w = .stop s w' := by
  rw [bind_run, h]

/-- Peel a bind that ended normally. -/
theorem bind_eq_ok {x : SM α} {f : α → SM β} {w w'' : World} {b : β} :
    (x >>= f) w = .ok b w'' ↔ ∃ a w', x w = .ok a w' ∧ f a w' = .ok b w'' := by
  rw [bind_run]
  cases x w <;> simp [and_assoc]

/-- Peel a bind that stopped. -/
theorem bind_eq_stop {x : SM α} {f : α → SM β} {w w'' : World} {s : Stop} :
    (x >>= f) w = .stop s w'' ↔
      x w = .stop s w'' ∨ ∃ a w', x w = .ok a w' ∧ f a w' = .stop s w'' := by
  rw [bind_run]
  cases x w <;> simp [and_assoc]

end SM

instance : LawfulMonad SM := LawfulMonad.mk' SM
  (fun x => funext fun w => by
    show (match x w with | .ok a w' => Outcome.ok (id a) w' | .stop s w' => .stop s w') = x w
    cases x w <;> rfl)
  (fun _ _ => rfl)
  (fun x f g => funext fun w => by
    simp only [SM.bind_run]
    cases x w <;> rfl)

def stopWith {α : Type} (s : Stop) : SM α := fun w => .stop s w

def modifyW (g : World → World) : SM Unit := fun w => .ok () (g w)

/-- Read a field of the world. -/
def readW {α : Type} (g : World → α) : SM α := fun w => .ok (g w) w

/-- `*error_code = code` -/
def setErrorCode (code : Int) : SM Unit :=
  modifyW fun w => { w with errorCode := some code, log := w.log ++ [.error code] }

/-- `zs->avail_in = n; zs->next_in = buf` -/
def setIn (buf : Ptr) (n : Nat) : SM Unit :=
  modifyW fun w => { w with zs := { w.zs with nextIn := buf, availIn := n } }

/-- `zs->avail_out = len; zs->next_out = buf` -/
def setOut (buf : Ptr) (len : Nat) : SM Unit :=
  modifyW fun w => { w with zs := { w.zs with nextOut := buf, availOut := len } }

section Steps

variable {α : Type} (w : World)

@[simp] theorem stopWith_bind {β : Type} (s : Stop) (f : β → SM α) : (stopWith s >>= f) w = .stop s w := rfl

@[simp] theorem modifyW_bind (g : World → World) (f : Unit → SM α) :
    (modifyW g >>= f) w = f () (g w) := rfl

@[simp] theorem readW_bind {β : Type} (g : World → β) (f : β → SM α) :
    (readW g >>= f) w = f (g w) w := rfl

@[simp] theorem readW_run {β : Type} (g : World → β) : readW g w = .ok (g w) w := rfl

end Steps

section Calls

variable (cfg : Config) (globalMultipool : Ptr) (env : Env)

/-- `deflateInit2` or `inflateInit2`: a fresh stream with `total_out = 0`. -/
def zInit (windowBits : Int) : SM Int := fun w =>
  .ok env.initCode { w with zs := ⟨0, 0, 0, 0, 0⟩, log := w.log ++ [.init windowBits env.initCode] }

/-- `deflate` or `inflate`: zlib writes its output at `next_out`, which the wrapper always
    points at the start of the work buffer. -/
def zCall (flush : Int) : SM Int := fun w =>
  let req : ZRequest := ⟨w.zs.availIn, w.zs.availOut, flush⟩
  let a := env.zlib w.log req
  .ok a.code { w with
    zs := { w.zs with
      nextIn := w.zs.nextIn + a.consumed, availIn := w.zs.availIn - a.consumed,
      nextOut := w.zs.nextOut + a.out.length, availOut := w.zs.availOut - a.out.length,
      totalOut := w.zs.totalOut + UInt64.ofNat a.out.length },
    outBuf := a.out ++ w.outBuf.drop a.out.length,
    log := w.log ++ [.zlib w.zs.nextIn w.zs.nextOut req a.code a.out] }

/-- `deflateEnd` or `inflateEnd`. -/
def zEnd : SM Unit := modifyW fun w => { w with log := w.log ++ [.finish] }

/-- `input_handler (state, buf, cap)`. -/
def inputHandler (buf : Ptr) (cap : Nat) : SM Nat := fun w =>
  let n := env.input w.log cap
  .ok n { w with log := w.log ++ [.input buf cap n] }

/-- `output_handler (state, buf, len)`: it is handed the first `len` bytes of the buffer. -/
def outputHandler (buf : Ptr) (len : Nat) : SM Nat := fun w =>
  let r := env.output w.log (w.outBuf.take len)
  .ok r { w with log := w.log ++ [.output buf (w.outBuf.take len) r] }

/-- `pool_alloc (size)` of the global multipool. -/
def poolAllocW (size : Nat) : SM Ptr := fun w =>
  match poolAlloc cfg globalMultipool size w.heap with
  | .ok (p, h) => .ok p { w with heap := h, log := w.log ++ [.alloc size p] }
  | .error f => .stop (.fault f) w

/-- `pool_free (p)`. -/
def poolFreeW (p : Ptr) : SM Unit := fun w =>
  let w := { w with log := w.log ++ [.free p] }
  match poolFree cfg p w.heap with
  | .ok h => .ok () { w with heap := h }
  | .error f => .stop (.fault f) w

@[simp] theorem zInit_bind {α : Type} (windowBits : Int) (f : Int → SM α) (w : World) :
    (zInit env windowBits >>= f) w = f env.initCode
      { w with zs := ⟨0, 0, 0, 0, 0⟩, log := w.log ++ [.init windowBits env.initCode] } := rfl

@[simp] theorem inputHandler_bind {α : Type} (buf : Ptr) (cap : Nat) (f : Nat → SM α)
    (w : World) :
    (inputHandler env buf cap >>= f) w =
      f (env.input w.log cap) { w with log := w.log ++ [.input buf cap (env.input w.log cap)] } :=
  rfl

end Calls

/-- `pool_alloc` either hands out an address and logs it, or faults with the world as it was. -/
theorem poolAllocW_cases (cfg : Config) (globalMultipool : Ptr) (size : Nat) (w : World) :
    (∃ p h, poolAllocW cfg globalMultipool size w =
      .ok p { w with heap := h, log := w.log ++ [.alloc size p] }) ∨
    ∃ f, poolAllocW cfg globalMultipool size w = .stop (.fault f) w := by
  unfold poolAllocW
  split
  · exact .inl ⟨_, _, rfl⟩
  · exact .inr ⟨_, rfl⟩

/-- `pool_free` is logged whether it returns or faults. -/
theorem poolFreeW_cases (cfg : Config) (p : Ptr) (w : World) :
    (∃ h, poolFreeW cfg p w = .ok () { w with heap := h, log := w.log ++ [.free p] }) ∨
    ∃ f, poolFreeW cfg p w = .stop (.fault f) { w with log := w.log ++ [.free p] } := by
  unfold poolFreeW
  dsimp only
  split
  · exact .inl ⟨_, rfl⟩
  · exact .inr ⟨_, rfl⟩

/-- `pool_alloc` on a heap where the allocation returns. -/
theorem poolAllocW_of {cfg : Config} {globalMultipool : Ptr} {size : Nat} {h h' : Heap} {p : Ptr}
    (e : poolAlloc cfg globalMultipool size h = .ok (p, h')) {w : World} (hw : w.heap = h) :
    poolAllocW cfg globalMultipool size w =
      .ok p { w with heap := h', log := w.log ++ [.alloc size p] } := by
  subst hw
  simp [poolAllocW, e]

/-- `pool_free` on a heap where the free returns. -/
theorem poolFreeW_of {cfg : Config} {p : Ptr} {h h' : Heap} (e : poolFree cfg p h = .ok h')
    {w : World} (hw : w.heap = h) :
    poolFreeW cfg p w = .ok () { w with heap := h', log := w.log ++ [.free p] } := by
  subst hw
  simp [poolFreeW, e]

end Gozlib.Stream
