import Gozlib.Pool.Atomic

/-
  What the lock-free pool promises about progress.

  Nodes are never freed while threads run, so over every interleaving, ABA ones included,
  `head`, every `next`, and every pointer a thread has read or holds is `NULL` or a node
  (`World.Closed`, `closed_of_reachable`): the load of `previous_head->next` never reads
  through a dangling pointer, and a thread inside a call can always take its next step
  (`tick_some`). A thread that then runs alone finishes its call within six of its own
  atomic steps when no compare-and-swap of it fails spuriously (`solo_call_finishes`):
  `soloBound` bounds what it has left, and each of its steps lowers it (`soloBound_tick`).
  The compare-and-swaps are weak, and a spurious failure sends the thread back to its load
  of `head`, raising the bound by at most two (`soloBound_spurious`); so over any run of the
  thread alone it takes at most six steps plus two per spurious failure (`solo_potential`).
  A schedule that makes its compare-and-swap fail spuriously for ever keeps it in its call,
  and nothing here rules that out.

  Nothing more is promised. While another thread keeps acquiring and returning a block, a
  thread inside `pool_mem_acquire` can take any number of atomic steps without finishing,
  with no compare-and-swap failing spuriously (`acquire_can_starve`).
-/

namespace Gozlib.Pool.Atomic

/-! ## Every pointer is a node -/

/-- The addresses of the nodes the pool allocated. -/
def Mem.keys (m : Mem) : List Ptr := m.nodes.map Prod.fst

/-- `p` is `NULL` or a node. -/
def Mem.Known (m : Mem) (p : Ptr) : Prop := p = 0 ∨ p ∈ m.keys

/-- The node a thread at `pc` loads or stores through next. -/
def Pc.nodes : Pc → List Ptr
  | .acqLoadNext prev | .acqCas prev _ => [prev]
  | .retLoadHead node | .retStoreNext node _ | .retCas node _ => [node]
  | _ => []

/-- The value a thread at `pc` may still write into `head` or a `next`. -/
def Pc.values : Pc → List Ptr
  | .acqCas _ nxt => [nxt]
  | .retStoreNext _ prev | .retCas _ prev => [prev]
  | _ => []

/-- A thread's pointers: what it loads or stores through and what it holds are nodes, what
    it may write is `NULL` or a node. -/
structure ThreadKnown (m : Mem) (t : Thread) : Prop where
  nodes : ∀ p ∈ t.pc.nodes, p ∈ m.keys
  held : ∀ p ∈ t.held, p ∈ m.keys
  values : ∀ p ∈ t.pc.values, m.Known p

/-- `head` and every `next` are `NULL` or nodes. -/
structure Mem.Closed (m : Mem) : Prop where
  head : m.Known m.head
  next : ∀ a n, m.nodes.get a = some n → m.Known n.next

/-- Every pointer in the shared memory and in the threads is `NULL` or a node. -/
def World.Closed (w : World) : Prop := w.mem.Closed ∧ ∀ t ∈ w.threads, ThreadKnown w.mem t

section Closed

variable {cfg : Config} {m m' : Mem} {t t' : Thread}

theorem Mem.Known.mono {p : Ptr} (h : m.Known p) (hk : m.keys ⊆ m'.keys) : m'.Known p :=
  h.imp_right fun hp => hk hp

theorem ThreadKnown.mono (h : ThreadKnown m t) (hk : m.keys ⊆ m'.keys) : ThreadKnown m' t :=
  ⟨fun p hp => hk (h.nodes p hp), fun p hp => hk (h.held p hp),
    fun p hp => (h.values p hp).mono hk⟩

/-- A step that moves only program points, counters or `supply`. -/
theorem Mem.Closed.same (hm : m.Closed) (hn : m'.nodes = m.nodes) (hh : m'.head = m.head)
    (ht' : ThreadKnown m t') : m'.Closed ∧ ThreadKnown m' t' ∧ m.keys ⊆ m'.keys := by
  have hk : m.keys ⊆ m'.keys := by rw [Mem.keys, Mem.keys, hn]; exact List.Subset.refl _
  refine ⟨⟨?_, fun a n ha => (hm.next a n (hn ▸ ha)).mono hk⟩, ht'.mono hk, hk⟩
  rw [hh]
  exact hm.head.mono hk

/-- Every atomic step of a thread keeps its pointers and the shared ones `NULL` or nodes,
    and frees no node. -/
theorem Mem.Closed.tick (hm : m.Closed) (ht : ThreadKnown m t)
    (h : tick cfg m t = some (m', t')) :
    m'.Closed ∧ ThreadKnown m' t' ∧ m.keys ⊆ m'.keys := by
  obtain ⟨pc, held⟩ := t
  cases pc with
  | idle => cases h
  | acqLoadHead =>
    cases h
    refine hm.same rfl rfl ⟨fun p hp => ?_, ht.held, by split <;> simp [Pc.values]⟩
    split at hp
    · simp [Pc.nodes] at hp
    · next h0 =>
      simp only [Pc.nodes, List.mem_singleton] at hp
      exact hp ▸ hm.head.resolve_left h0
  | acqLoadNext prev =>
    obtain ⟨n, hn, he⟩ := Option.map_eq_some'.mp h
    cases he
    exact hm.same rfl rfl ⟨ht.nodes, ht.held, by simpa [Pc.values] using hm.next prev n hn⟩
  | acqCas prev nxt =>
    simp only [tick] at h
    split at h
    · cases h
      have hp : prev ∈ m.keys := ht.nodes prev (List.mem_singleton_self _)
      exact ⟨⟨ht.values nxt (List.mem_singleton_self _), hm.next⟩, ⟨by simp [Pc.nodes],
        fun p hp' => (List.mem_cons.mp hp').elim (fun e => e ▸ hp) (ht.held p),
        by simp [Pc.values]⟩, fun _ => id⟩
    · cases h
      exact hm.same rfl rfl ⟨by simp [Pc.nodes], ht.held, by simp [Pc.values]⟩
  | acqTrack =>
    cases h
    exact hm.same (by split <;> rfl) (by split <;> rfl)
      ⟨by simp [Pc.nodes], ht.held, by simp [Pc.values]⟩
  | acqAlloc =>
    simp only [tick] at h
    split at h
    · cases h
      exact hm.same rfl rfl ⟨by simp [Pc.nodes], ht.held, by simp [Pc.values]⟩
    · next _ a rest _ =>
      split at h
      · cases h
        have hk : m.keys ⊆ a :: m.keys := List.subset_cons_self _ _
        refine ⟨⟨hm.head.mono hk, fun b n hb => ?_⟩,
          ⟨by simp [Pc.nodes], ?_, by simp [Pc.values]⟩, hk⟩
        · rw [Store.get_cons] at hb
          split at hb
          · cases hb; exact .inl rfl
          · exact (hm.next b n hb).mono hk
        · simpa [Mem.keys] using fun p hp => hk (ht.held p hp)
      · cases h
        exact hm.same rfl rfl ⟨by simp [Pc.nodes], ht.held, by simp [Pc.values]⟩
  | allocTrack =>
    cases h
    exact hm.same (by split <;> rfl) (by split <;> rfl)
      ⟨by simp [Pc.nodes], ht.held, by simp [Pc.values]⟩
  | retLoadHead node =>
    cases h
    exact hm.same rfl rfl ⟨ht.nodes, ht.held, by simpa [Pc.values] using hm.head⟩
  | retStoreNext node prev =>
    cases h
    have hk : m.keys ⊆ (m.nodes.modify node fun n => { n with next := prev }).map Prod.fst := by
      rw [Store.keys_modify]; exact fun _ => id
    refine ⟨⟨hm.head.mono hk, fun a n ha => ?_⟩, ⟨fun p hp => hk (ht.nodes p hp),
      fun p hp => hk (ht.held p hp), fun p hp => (ht.values p hp).mono hk⟩, hk⟩
    rw [Store.get_modify] at ha
    split at ha
    · obtain ⟨n₀, -, rfl⟩ := Option.map_eq_some'.mp ha
      exact (ht.values prev (List.mem_singleton_self _)).mono hk
    · exact (hm.next a n ha).mono hk
  | retCas node prev =>
    simp only [tick] at h
    split at h
    · cases h
      refine ⟨⟨.inr (ht.nodes node (List.mem_singleton_self _)), hm.next⟩,
        ⟨by simp [Pc.nodes], fun p hp => ht.held p (List.erase_subset _ _ hp),
          by simp [Pc.values]⟩, fun _ => id⟩
    · cases h
      exact hm.same rfl rfl ⟨ht.nodes, ht.held, by simp [Pc.values]⟩
  | retTrack =>
    cases h
    exact hm.same (by split <;> rfl) (by split <;> rfl)
      ⟨by simp [Pc.nodes], ht.held, by simp [Pc.values]⟩

/-- A thread inside a call can always take its next atomic step: the only load that can
    fail, of `previous_head->next`, reads a node. -/
theorem tick_some (ht : ThreadKnown m t) (hpc : t.pc ≠ .idle) :
    ∃ m' t', tick cfg m t = some (m', t') := by
  obtain ⟨pc, held⟩ := t
  cases pc with
  | idle => exact absurd rfl hpc
  | acqLoadNext prev =>
    obtain ⟨n, hn⟩ := Option.isSome_iff_exists.mp
      ((Store.isSome_get_iff _ _).mpr (ht.nodes prev (List.mem_singleton_self _)))
    exact ⟨m, ⟨.acqCas prev n.next, held⟩, by simp [tick, hn]⟩
  | acqCas prev nxt => simp only [tick]; split <;> exact ⟨_, _, rfl⟩
  | acqAlloc =>
    simp only [tick]
    split
    · exact ⟨_, _, rfl⟩
    · split <;> exact ⟨_, _, rfl⟩
  | retCas node prev => simp only [tick]; split <;> exact ⟨_, _, rfl⟩
  | acqLoadHead | acqTrack | allocTrack | retLoadHead _ | retStoreNext _ _ | retTrack =>
    exact ⟨_, _, rfl⟩

/-- Every step of every thread keeps the world closed. -/
theorem World.Closed.step {w w' : World} (hc : w.Closed) {i : Nat} {a : Act}
    (h : World.step cfg w i a = some w') : w'.Closed := by
  simp only [World.step] at h
  split at h
  · cases h
  · next t ht =>
    have ht' := hc.2 t (List.getElem?_mem ht)
    have hset {m' : Mem} {t' : Thread} (hk : w.mem.keys ⊆ m'.keys) (ht' : ThreadKnown m' t') :
        ∀ u ∈ w.threads.set i t', ThreadKnown m' u := fun u hu =>
      (List.mem_or_eq_of_mem_set hu).elim (fun hu => (hc.2 u hu).mono hk) fun e => e ▸ ht'
    cases a with
    | tick =>
      obtain ⟨⟨m', t'⟩, htick, rfl⟩ := Option.map_eq_some'.mp h
      obtain ⟨hm', ht'', hk⟩ := hc.1.tick ht' htick
      exact ⟨hm', hset hk ht''⟩
    | spurious =>
      obtain ⟨t', hs, rfl⟩ := Option.map_eq_some'.mp h
      refine ⟨hc.1, hset (fun _ => id) ?_⟩
      obtain ⟨pc, held⟩ := t
      cases pc <;> simp only [spuriousFail] at hs <;> cases hs
      · exact ⟨by simp [Pc.nodes], ht'.held, by simp [Pc.values]⟩
      · exact ⟨ht'.nodes, ht'.held, by simp [Pc.values]⟩
    | acquire =>
      obtain ⟨t', hs, rfl⟩ := Option.map_eq_some'.mp h
      simp only [start] at hs
      split at hs
      · cases hs
        exact ⟨hc.1, hset (fun _ => id) ⟨by simp [Pc.nodes], ht'.held, by simp [Pc.values]⟩⟩
      · cases hs
    | release node =>
      obtain ⟨t', hs, rfl⟩ := Option.map_eq_some'.mp h
      simp only [start] at hs
      split at hs
      · next hr =>
        cases hs
        exact ⟨hc.1, hset (fun _ => id) ⟨by simpa [Pc.nodes] using ht'.held node hr.2, ht'.held,
          by simp [Pc.values]⟩⟩
      · cases hs

theorem World.Closed.run {w w' : World} (hc : w.Closed) {sched : List (Nat × Act)}
    (h : World.run cfg w sched = some w') : w'.Closed := by
  induction sched generalizing w with
  | nil => cases h; exact hc
  | cons ia sched ih =>
    obtain ⟨w₁, h₁, h₂⟩ := Option.bind_eq_some.mp h
    exact ih (hc.step h₁) h₂

theorem closed_init (n : Nat) (supply : List Ptr) : (World.init n supply).Closed := by
  refine ⟨⟨.inl rfl, fun _ _ h => by cases h⟩, fun t ht => ?_⟩
  obtain ⟨-, rfl⟩ := List.mem_replicate.mp ht
  exact ⟨by simp [Pc.nodes], by simp, by simp [Pc.values]⟩

/-- Over every interleaving, ABA ones included, every pointer is `NULL` or a node. -/
theorem closed_of_reachable {w : World} (hw : World.Reachable cfg w) : w.Closed := by
  obtain ⟨n, supply, sched, h⟩ := hw
  exact (closed_init n supply).run h

end Closed

/-! ## Running alone -/

/-- The most atomic steps a thread at `pc` takes to finish its call when no other thread
    runs. A compare-and-swap that will fail, because `head` moved since the thread read it,
    costs one more round of the loop. -/
def soloBound (m : Mem) : Pc → Nat
  | .idle => 0
  | .acqLoadHead => 4
  | .acqLoadNext prev => if m.head = prev then 3 else 6
  | .acqCas prev _ => if m.head = prev then 2 else 5
  | .acqTrack => 1
  | .acqAlloc => 2
  | .allocTrack => 1
  | .retLoadHead _ => 4
  | .retStoreNext _ prev => if m.head = prev then 3 else 6
  | .retCas _ prev => if m.head = prev then 2 else 5
  | .retTrack => 1

theorem soloBound_le_six (m : Mem) (pc : Pc) : soloBound m pc ≤ 6 := by
  unfold soloBound
  split <;> (try split) <;> omega

section Solo

variable {cfg : Config}

/-- Each atomic step of a thread lowers its bound, with the memory it leaves. -/
theorem soloBound_tick {m m' : Mem} {t t' : Thread} (h : tick cfg m t = some (m', t')) :
    soloBound m' t'.pc < soloBound m t.pc := by
  obtain ⟨pc, held⟩ := t
  cases pc with
  | idle => cases h
  | acqLoadHead =>
    cases h
    by_cases h0 : m.head = 0 <;> simp [soloBound, h0]
  | acqLoadNext prev =>
    obtain ⟨n, -, he⟩ := Option.map_eq_some'.mp h
    cases he
    by_cases hp : m.head = prev <;> simp [soloBound, hp]
  | acqCas prev nxt =>
    simp only [tick] at h
    split at h <;> cases h <;> simp [soloBound, *]
  | acqAlloc =>
    simp only [tick] at h
    split at h
    · cases h; simp [soloBound]
    · split at h <;> cases h <;> simp [soloBound]
  | retLoadHead node => cases h; simp [soloBound]
  | retStoreNext node prev =>
    cases h
    by_cases hp : m.head = prev <;> simp [soloBound, hp]
  | retCas node prev =>
    simp only [tick] at h
    split at h <;> cases h <;> simp [soloBound, *]
  | acqTrack | allocTrack | retTrack => cases h; simp [soloBound]

/-- A compare-and-swap that fails spuriously sends the thread back to its load of `head`:
    its bound rises by at most two. -/
theorem soloBound_spurious (m : Mem) {t t' : Thread} (h : spuriousFail t = some t') :
    soloBound m t'.pc ≤ soloBound m t.pc + 2 := by
  obtain ⟨pc, held⟩ := t
  cases pc <;> simp [spuriousFail] at h <;> subst h <;> simp only [soloBound] <;> split <;> omega

theorem World.step_tick {w : World} {i : Nat} {t t' : Thread} {m' : Mem}
    (ht : w.threads[i]? = some t) (h : tick cfg w.mem t = some (m', t')) :
    World.step cfg w i .tick = some ⟨m', w.threads.set i t'⟩ := by
  simp [World.step, ht, h]

/-- A thread of a closed world is idle, or takes a step that lowers its bound. -/
theorem World.Closed.idle_or_tick (cfg : Config) {w : World} (hc : w.Closed) {i : Nat} {t : Thread}
    (ht : w.threads[i]? = some t) : t.pc = .idle ∨ ∃ m' t',
      World.step cfg w i .tick = some ⟨m', w.threads.set i t'⟩ ∧
      soloBound m' t'.pc < soloBound w.mem t.pc := by
  by_cases hpc : t.pc = .idle
  · exact .inl hpc
  obtain ⟨m', t', htick⟩ := tick_some (hc.2 t (List.getElem?_mem ht)) hpc
  exact .inr ⟨m', t', World.step_tick ht htick, soloBound_tick htick⟩

/-- A thread run alone from a closed world finishes its call within its bound. -/
theorem solo_run (n : Nat) : ∀ {w : World} {i : Nat} {t : Thread}, w.Closed →
    w.threads[i]? = some t → soloBound w.mem t.pc ≤ n →
    ∃ k ≤ soloBound w.mem t.pc, ∃ w',
      World.run cfg w (List.replicate k (i, .tick)) = some w' ∧
      (w'.threads[i]?).map Thread.pc = some .idle := by
  induction n with
  | zero =>
    intro w i t hc ht hn
    rcases hc.idle_or_tick cfg ht with hpc | ⟨m', t', -, hlt⟩
    · exact ⟨0, Nat.zero_le _, w, rfl, by simp [ht, hpc]⟩
    · omega
  | succ n ih =>
    intro w i t hc ht hn
    rcases hc.idle_or_tick cfg ht with hpc | ⟨m', t', hstep, hlt⟩
    · exact ⟨0, Nat.zero_le _, w, rfl, by simp [ht, hpc]⟩
    have hi : i < w.threads.length := (List.getElem?_eq_some_iff.mp ht).1
    obtain ⟨k, hk, w', hrun, hidle⟩ :=
      ih (w := ⟨m', w.threads.set i t'⟩) (i := i) (t := t') (hc.step hstep) (by simp [hi])
        (by simp only; omega)
    exact ⟨k + 1, by simp only at hk; omega, w',
      by simp only [List.replicate_succ, World.run, hstep, Option.some_bind, hrun], hidle⟩

/-- One step of a thread on its own: an atomic step lowers its bound, a spurious failure
    raises it by at most two. -/
theorem World.step_solo {w w₁ : World} {i : Nat} {t : Thread} (ht : w.threads[i]? = some t) :
    (World.step cfg w i .tick = some w₁ →
      ∃ t₁, w₁.threads[i]? = some t₁ ∧ soloBound w₁.mem t₁.pc + 1 ≤ soloBound w.mem t.pc) ∧
    (World.step cfg w i .spurious = some w₁ →
      ∃ t₁, w₁.threads[i]? = some t₁ ∧ soloBound w₁.mem t₁.pc ≤ soloBound w.mem t.pc + 2) := by
  have hi : i < w.threads.length := (List.getElem?_eq_some_iff.mp ht).1
  simp only [World.step, ht]
  refine ⟨fun h => ?_, fun h => ?_⟩
  · obtain ⟨⟨m₁, t₁⟩, htick, rfl⟩ := Option.map_eq_some'.mp h
    exact ⟨t₁, by simp [hi], soloBound_tick htick⟩
  · obtain ⟨t₁, hsp, rfl⟩ := Option.map_eq_some'.mp h
    exact ⟨t₁, by simp [hi], soloBound_spurious w.mem hsp⟩

/-- Over any run of thread `i` alone, the steps it took and the bound it is left with never
    exceed the bound it started with plus two per spurious failure. -/
theorem solo_potential (i : Nat) : ∀ (sched : List (Nat × Act)) {w w' : World} {t : Thread},
    (∀ x ∈ sched, x = (i, .tick) ∨ x = (i, .spurious)) → w.threads[i]? = some t →
    World.run cfg w sched = some w' →
    ∃ t', w'.threads[i]? = some t' ∧ sched.count (i, .tick) + soloBound w'.mem t'.pc ≤
      soloBound w.mem t.pc + 2 * sched.count (i, .spurious)
  | [], w, w', t, _, ht, h => by
    cases h
    exact ⟨t, ht, by simp⟩
  | x :: sched, w, w', t, hs, ht, h => by
    have hs' := fun y hy => hs y (List.mem_cons_of_mem _ hy)
    rcases hs x (List.mem_cons_self _ _) with rfl | rfl <;>
      obtain ⟨w₁, h₁, h⟩ := Option.bind_eq_some.mp h <;>
      rw [List.count_cons_self, List.count_cons_of_ne (by simp)]
    · obtain ⟨t₁, ht₁, hlt⟩ := (World.step_solo ht).1 h₁
      obtain ⟨t', ht', hle⟩ := solo_potential i sched hs' ht₁ h
      exact ⟨t', ht', by omega⟩
    · obtain ⟨t₁, ht₁, hle₁⟩ := (World.step_solo ht).2 h₁
      obtain ⟨t', ht', hle⟩ := solo_potential i sched hs' ht₁ h
      exact ⟨t', ht', by omega⟩

end Solo

/-! ## A thread that never finishes -/

/-- Thread 1 allocates block 1 and returns it; thread 0 calls `pool_mem_acquire`. -/
def starveStart : List (Nat × Act) :=
  [(1, .acquire), (1, .tick), (1, .tick), (1, .tick),
   (1, .release 1), (1, .tick), (1, .tick), (1, .tick), (1, .tick), (0, .acquire)]

/-- Thread 0 reads `head = 1` and `1->next = NULL`; thread 1 pops 1; thread 0's
    compare-and-swap fails; thread 1 pushes 1 back. -/
def starveRound : List (Nat × Act) :=
  [(0, .tick), (0, .tick),
   (1, .acquire), (1, .tick), (1, .tick), (1, .tick), (1, .tick),
   (0, .tick),
   (1, .release 1), (1, .tick), (1, .tick), (1, .tick), (1, .tick)]

def starveRounds : Nat → List (Nat × Act)
  | 0 => []
  | n + 1 => starveRound ++ starveRounds n

/-- The state each round starts and ends in. -/
def starveWorld (cfg : Config) : World :=
  ⟨⟨1, [(1, ⟨0, 0, 0⟩)], if cfg.trackPoolUsage then 1 else 0,
    if cfg.trackPoolUsage then 1 else 0, []⟩, [⟨.acqLoadHead, []⟩, ⟨.idle, []⟩]⟩

section Starve

variable (cfg : Config)

theorem World.run_append (w : World) (l₁ l₂ : List (Nat × Act)) :
    World.run cfg w (l₁ ++ l₂) = (World.run cfg w l₁).bind (World.run cfg · l₂) := by
  induction l₁ generalizing w with
  | nil => rfl
  | cons ia l₁ ih =>
    simp only [List.cons_append, World.run]
    cases World.step cfg w ia.1 ia.2 <;> simp [ih]

theorem starveStart_run :
    World.run cfg (World.init 2 [1]) starveStart = some (starveWorld cfg) := by
  obtain ⟨a, t⟩ := cfg
  cases a <;> cases t <;> decide

theorem starveRound_run : World.run cfg (starveWorld cfg) starveRound = some (starveWorld cfg) := by
  obtain ⟨a, t⟩ := cfg
  cases a <;> cases t <;> decide

theorem starveRounds_run (n : Nat) :
    World.run cfg (starveWorld cfg) (starveRounds n) = some (starveWorld cfg) := by
  induction n with
  | zero => rfl
  | succ n ih => rw [starveRounds, World.run_append, starveRound_run, Option.some_bind, ih]

theorem starveRounds_thread0 (n : Nat) :
    (starveRounds n).filter (·.1 = 0) = List.replicate (3 * n) (0, .tick) := by
  induction n with
  | zero => rfl
  | succ n ih =>
    rw [starveRounds, List.filter_append, ih, show 3 * (n + 1) = 3 + 3 * n by omega,
      ← List.append_replicate_replicate]
    rfl

theorem starveRounds_no_spurious (n : Nat) : ∀ x ∈ starveRounds n, x.2 ≠ .spurious := by
  induction n with
  | zero => simp [starveRounds]
  | succ n ih =>
    simp only [starveRounds, List.mem_append]
    rintro x (hx | hx)
    · revert x hx; decide
    · exact ih x hx

end Starve

/-! ## Progress -/

/-- Obstruction-freedom: from every state some interleaving reaches, a thread that runs alone
    finishes the call it is in, or is idle, within six of its own atomic steps when none of
    its compare-and-swaps fails spuriously. The compare-and-swaps are weak, so a run of the
    thread alone may also hold spurious failures: it then takes at most six atomic steps
    plus two for each of them, and until the thread is idle it can always take its next
    step. -/
theorem solo_call_finishes {cfg : Config} {w : World} (hw : World.Reachable cfg w) {i : Nat}
    {t : Thread} (ht : w.threads[i]? = some t) :
    (∃ k ≤ 6, ∃ w', World.run cfg w (List.replicate k (i, .tick)) = some w' ∧
      (w'.threads[i]?).map Thread.pc = some .idle) ∧
    ∀ sched w', (∀ x ∈ sched, x = (i, .tick) ∨ x = (i, .spurious)) →
      World.run cfg w sched = some w' →
      sched.count (i, .tick) ≤ 6 + 2 * sched.count (i, .spurious) ∧
      ((w'.threads[i]?).map Thread.pc = some .idle ∨ ∃ w'', World.step cfg w' i .tick = some w'') := by
  have hc := closed_of_reachable hw
  obtain ⟨k, hk, w', hrun, hidle⟩ := solo_run _ hc ht le_rfl
  refine ⟨⟨k, hk.trans (soloBound_le_six _ _), w', hrun, hidle⟩, fun sched w' hs hrun => ?_⟩
  obtain ⟨t', ht', hle⟩ := solo_potential i sched hs ht hrun
  have hsix := soloBound_le_six w.mem t.pc
  refine ⟨by omega, ?_⟩
  rcases (hc.run hrun).idle_or_tick cfg ht' with hpc | ⟨_, _, hstep, -⟩
  · exact .inl (by simp [ht', hpc])
  · exact .inr ⟨_, hstep⟩

/-- The starved thread of `starveWorld`, run alone, finishes its acquire. -/
theorem solo_call_finishes_starved :
    (∃ k ≤ 6, ∃ w', World.run ⟨true, true⟩ (starveWorld ⟨true, true⟩)
        (List.replicate k (0, .tick)) = some w' ∧ (w'.threads[0]?).map Thread.pc = some .idle) ∧
    ∀ sched w', (∀ x ∈ sched, x = (0, .tick) ∨ x = (0, .spurious)) →
      World.run ⟨true, true⟩ (starveWorld ⟨true, true⟩) sched = some w' →
      sched.count (0, .tick) ≤ 6 + 2 * sched.count (0, .spurious) ∧
      ((w'.threads[0]?).map Thread.pc = some .idle ∨
        ∃ w'', World.step ⟨true, true⟩ w' 0 .tick = some w'') :=
  solo_call_finishes ⟨2, [1], starveStart, starveStart_run ⟨true, true⟩⟩ rfl

/-- The pool is not wait-free: while thread 1 completes call after call, thread 0 stays inside
    one `pool_mem_acquire` for any number of its own atomic steps, and no compare-and-swap
    fails spuriously. -/
theorem acquire_can_starve (cfg : Config) (n : Nat) :
    ∃ sched w, World.run cfg (World.init 2 [1]) sched = some w ∧
      sched.filter (·.1 = 0) = (0, .acquire) :: List.replicate (3 * n) (0, .tick) ∧
      (∀ x ∈ sched, x.2 ≠ .spurious) ∧
      (w.threads[0]?).map Thread.pc = some .acqLoadHead := by
  refine ⟨starveStart ++ starveRounds n, starveWorld cfg, ?_, ?_, ?_, rfl⟩
  · rw [World.run_append, starveStart_run, Option.some_bind, starveRounds_run]
  · rw [List.filter_append, starveRounds_thread0]
    rfl
  · simp only [List.mem_append]
    rintro x (hx | hx)
    · revert x hx; decide
    · exact starveRounds_no_spurious n x hx

end Gozlib.Pool.Atomic
