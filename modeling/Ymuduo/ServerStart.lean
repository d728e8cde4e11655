/-
  Ymuduo/ServerStart.lean
  =======================
  **`TcpServer::start()` (TcpServer.cc) and `EventLoopThreadPool::start()`
  (EventLoopThreadPool.cc).**

  `start()` may be called by any thread at any time, as often as one likes.  The call that
  finds `started_` at 0 starts the threads of the pool, one after the other, each through
  `startLoop()` as in `StartLoop`, and then lets the main loop call `Acceptor::listen`.

  So a server that listens has all its loops, and `loops_` does not change any more; this is
  what `ServerSystem` takes for granted.  `started_` is an `int` that wraps around: the guard
  is good for 2^32 calls.
-/
import Ymuduo.StartLoop
import Ymuduo.Acceptor
import Ymuduo.Wiring
import Mathlib.Data.List.Nodup

namespace Ymuduo

/-- Where a call of `start()` is that has found `started_` at 0. -/
inductive StartPc where
  | entered
  | spawning (i : Nat)              -- at `i < numThreads_`
  | startingLoop (i thread : Nat)   -- in `t->startLoop()`, `t` being `threads_[thread]`
  | callback                        -- in `cb(baseLoop_);`
  | checking                        -- at `assert(!acceptor_->listening());`
  | handing                         -- at `loop_->runInLoop(...);`
deriving DecidableEq, Repr

/-- A server that has not been started.  `self` is the address of `acceptChannel_`, `poller`
    that of the main loop. -/
structure StartConfig (κ : Type) where
  name : Name
  numThreads : Nat
  threadInitCallback : Bool
  self : κ
  acceptor : Acceptor
  poller : EPollPoller κ

/-- `threads` has the names and the threads of `threads_`; the loop of the `k`-th is
    `k + 1`.  `queued`: how many `Acceptor::listen` there are among the functors of the main
    loop. -/
structure ServerStart (κ ι F : Type) where
  started : Int
  callers : ThreadId → Option StartPc
  threads : List (Name × EventLoopThread ι F)
  loops : List LoopId
  queued : Nat
  acceptor : Acceptor
  poller : EPollPoller κ
  aborted : Bool

/-- `start t` is a call by `t` up to `started_++`; `enter`, `loopTest`, `pushBack`, `callback`,
    `check` and `runInLoop` are what follows.  `starter` is a step in its `startLoop()`,
    `thread` one of a thread of the pool, or of those who use its loop.  `listen` is the main
    loop calling `Acceptor::listen`. -/
inductive ServerStartAct (ι F : Type) where
  | start (t : ThreadId)
  | enter (t : ThreadId)
  | loopTest (t : ThreadId)
  | starter (t : ThreadId) (a : StartLoopAct ι F)
  | pushBack (t : ThreadId)
  | callback (t : ThreadId)
  | check (t : ThreadId)
  | runInLoop (t : ThreadId)
  | thread (k : Nat) (a : StartLoopAct ι F)
  | listen

/-- The thread of the main loop. -/
def mainThread : ThreadId := 0

/-- `snprintf(buf, sizeof buf, "%s%d", name_.c_str(), i)` into `char buf[name_.size() + 32]` -/
def threadName (name : Name) (i : Nat) : Name := snprintf (name.length + 32) (name ++ formatInt i)

/-- The text fits, so the threads of a pool have different names. -/
theorem threadName_injective {name : Name} {i j : Nat} (hi : i < 2 ^ 31) (hj : j < 2 ^ 31)
    (h : threadName name i = threadName name j) : i = j := by
  have hfits : ∀ k : Nat, k < 2 ^ 31 → threadName name k = name ++ formatInt k := by
    intro k hk
    have hlength : (formatInt k).length ≤ 11 := length_formatInt ⟨by omega, by omega⟩
    refine List.take_of_length_le ?_
    rw [List.length_append]
    omega
  rw [hfits i hi, hfits j hj] at h
  exact Int.ofNat_inj.mp (formatInt_injective (List.append_cancel_left h))

/-- The steps of `startLoop()`. -/
def isStarter {ι F : Type} : StartLoopAct ι F → Bool
  | .startLoop | .spawn | .semWait | .lock | .test | .wakeSpuriously | .relock | .unlock => true
  | _ => false

/-- The steps of `~EventLoopThread()`. -/
def isDestroy {ι F : Type} : StartLoopAct ι F → Bool
  | .destroy | .destroyWakeup | .join => true
  | _ => false

namespace ServerStart

variable {κ ι F : Type}

def init (cfg : StartConfig κ) : ServerStart κ ι F where
  started := 0
  callers := fun _ => none
  threads := []
  loops := []
  queued := 0
  acceptor := cfg.acceptor
  poller := cfg.poller
  aborted := false

/-- A step of the `k`-th thread, or of its owner. -/
def moveThread (s : ServerStart κ ι F) (k : Nat) (a : StartLoopAct ι F) :
    Option (ServerStart κ ι F) :=
  s.threads[k]?.bind fun named =>
    (named.2.step a).map fun th => { s with threads := s.threads.set k (named.1, th) }

def goTo (s : ServerStart κ ι F) (t : ThreadId) (pc : Option StartPc) : ServerStart κ ι F :=
  { s with callers := Function.update s.callers t pc }

/-- `Acceptor::listen` -/
def listen (cfg : StartConfig κ) (s : ServerStart κ ι F) : ServerStart κ ι F :=
  match s.acceptor.listen cfg.self s.poller with
  | .ok (acceptor, poller) => { s with acceptor := acceptor, poller := poller }
  | .error _ => { s with aborted := true }

def step (cfg : StartConfig κ) (s : ServerStart κ ι F) (a : ServerStartAct ι F) :
    Option (ServerStart κ ι F) :=
  if s.aborted then none
  else
    match a with
    | .start t =>
      if s.callers t = none then
        some { s with
          started := (s.started + 1).bmod (2 ^ 32)
          callers := if s.started = 0 then Function.update s.callers t (some .entered)
            else s.callers }
      else none
    | .enter t =>
      if s.callers t = some .entered then some (s.goTo t (some (.spawning 0))) else none
    | .loopTest t =>
      match s.callers t with
      | some (.spawning i) =>
        if i < cfg.numThreads then
          some { s with
            threads := s.threads ++ [(threadName cfg.name i, .start)]
            callers := Function.update s.callers t (some (.startingLoop i s.threads.length)) }
        else if cfg.numThreads = 0 ∧ cfg.threadInitCallback = true then
          some (s.goTo t (some .callback))
        else some (s.goTo t (some .checking))
      | _ => none
    | .starter t a =>
      match s.callers t with
      | some (.startingLoop _ k) => if isStarter a then s.moveThread k a else none
      | _ => none
    | .pushBack t =>
      match s.callers t with
      | some (.startingLoop i k) =>
        if (s.threads[k]?.any fun named => named.2.owner == .running) then
          some { s with
            loops := s.loops ++ [k + 1]
            callers := Function.update s.callers t (some (.spawning (i + 1))) }
        else none
      | _ => none
    | .callback t =>
      if s.callers t = some .callback then some (s.goTo t (some .checking)) else none
    | .check t =>
      if s.callers t = some .checking then
        if s.acceptor.listening then some { s with aborted := true }
        else some (s.goTo t (some .handing))
      else none
    | .runInLoop t =>
      if s.callers t = some .handing then
        if t = mainThread then some ((s.goTo t none).listen cfg)
        else some { s.goTo t none with queued := s.queued + 1 }
      else none
    | .thread k a => if isStarter a ∨ isDestroy a then none else s.moveThread k a
    | .listen =>
      -- the main loop calls functors while its thread is not in `start()`
      if 0 < s.queued ∧ s.callers mainThread = none then
        some (({ s with queued := s.queued - 1 } : ServerStart κ ι F).listen cfg)
      else none

end ServerStart

/-! ### One thread of the pool -/

/-- Not yet in the destructor. -/
def StarterPc.alive : StarterPc → Bool
  | .quitting | .joining | .destroyed => false
  | _ => true

namespace EventLoopThread

variable {ι F : Type} {s t : EventLoopThread ι F} {a : StartLoopAct ι F}

/-- What a step outside the destructor does to the owner. -/
theorem owner_step (ha : isDestroy a = false) (hstep : s.step a = some t) :
    t.owner = s.owner
      ∨ s.owner ≠ .running ∧ (s.owner.alive = true → t.owner.alive = true) := by
  cases a with
  | startLoop | spawn | unlock | wakeSpuriously =>
    simp only [EventLoopThread.step, Option.ite_none_right_eq_some, Option.some.injEq] at hstep
    obtain ⟨howner, rfl⟩ := hstep
    exact Or.inr ⟨by simp [howner], fun _ => rfl⟩
  | lock | relock =>
    simp only [EventLoopThread.step, Option.ite_none_right_eq_some, Option.some.injEq] at hstep
    obtain ⟨⟨howner, _⟩, rfl⟩ := hstep
    exact Or.inr ⟨by simp [howner], fun _ => rfl⟩
  | semWait =>
    simp only [EventLoopThread.step, Option.ite_none_right_eq_some, Option.some.injEq] at hstep
    obtain ⟨⟨howner, _⟩, rfl⟩ := hstep
    refine Or.inr ⟨by simp [howner], fun _ => ?_⟩
    dsimp only
    split <;> rfl
  | test =>
    simp only [EventLoopThread.step, Option.ite_none_right_eq_some] at hstep
    obtain ⟨howner, hstep⟩ := hstep
    split at hstep <;> cases hstep <;> exact Or.inr ⟨by simp [howner], fun _ => rfl⟩
  | notifyOne =>
    simp only [EventLoopThread.step, Option.ite_none_right_eq_some, Option.some.injEq] at hstep
    obtain ⟨_, rfl⟩ := hstep
    by_cases hwaiting : s.owner = .waiting
    · refine Or.inr ⟨by simp [hwaiting], fun _ => ?_⟩
      dsimp only
      rw [if_pos hwaiting]
      rfl
    · exact Or.inl (if_neg hwaiting)
  | storeTid | semPost | construct | callbackQueue | callbackQuit | lockToPublish | publish
  | unlockPublished | lockToClear | clear | leave =>
    simp only [EventLoopThread.step, Option.ite_none_right_eq_some, Option.some.injEq] at hstep
    obtain ⟨_, rfl⟩ := hstep
    exact Or.inl rfl
  | loop =>
    simp only [EventLoopThread.step, Option.ite_none_right_eq_some] at hstep
    obtain ⟨_, hstep⟩ := hstep
    obtain ⟨sys, _, rfl⟩ := Option.map_eq_some_iff.mp hstep
    exact Or.inl rfl
  | destroy | destroyWakeup | join => cases ha

theorem alive_step (ha : isDestroy a = false) (h : s.owner.alive = true)
    (hstep : s.step a = some t) : t.owner.alive = true := by
  rcases owner_step ha hstep with hsame | ⟨_, halive⟩
  · rw [hsame]
    exact h
  · exact halive h

/-- Whoever has got the loop from `startLoop()` keeps it. -/
theorem running_step (ha : isDestroy a = false) (h : s.owner = .running)
    (hstep : s.step a = some t) : t.owner = .running := by
  rcases owner_step ha hstep with hsame | ⟨hne, _⟩
  · exact hsame.trans h
  · exact absurd h hne

/-- The loop has not come to its end. -/
def LoopOpen (s : EventLoopThread ι F) : Prop :=
  s.thread ≠ .clearing ∧ s.thread ≠ .leaving ∧ s.thread ≠ .exited

instance (s : EventLoopThread ι F) : Decidable s.LoopOpen :=
  inferInstanceAs (Decidable (s.thread ≠ .clearing ∧ s.thread ≠ .leaving ∧ s.thread ≠ .exited))

theorem LoopOpen.start : (EventLoopThread.start : EventLoopThread ι F).LoopOpen := by
  simp [LoopOpen, EventLoopThread.start]

/-- The hand-over does not end it. -/
theorem LoopOpen.step (h : s.LoopOpen) (ha : isHandshake a = true) (hstep : s.step a = some t) :
    t.LoopOpen := by
  obtain ⟨hclearing, hleaving, hexited⟩ := h
  cases a with
  | startLoop | semWait | lock | relock | unlock =>
    simp only [EventLoopThread.step, Option.ite_none_right_eq_some, Option.some.injEq] at hstep
    obtain ⟨_, rfl⟩ := hstep
    exact ⟨hclearing, hleaving, hexited⟩
  | test =>
    simp only [EventLoopThread.step, Option.ite_none_right_eq_some] at hstep
    obtain ⟨_, hstep⟩ := hstep
    split at hstep <;> cases hstep <;> exact ⟨hclearing, hleaving, hexited⟩
  | spawn | storeTid | semPost | construct | lockToPublish | publish | notifyOne
  | unlockPublished =>
    simp only [EventLoopThread.step, Option.ite_none_right_eq_some, Option.some.injEq] at hstep
    obtain ⟨_, rfl⟩ := hstep
    exact ⟨by simp, by simp, by simp⟩
  | clear =>
    simp only [EventLoopThread.step, Option.ite_none_right_eq_some] at hstep
    exact absurd hstep.1 hclearing
  | leave =>
    simp only [EventLoopThread.step, Option.ite_none_right_eq_some] at hstep
    exact absurd hstep.1 hleaving
  | wakeSpuriously | callbackQueue | callbackQuit | lockToClear | loop | destroy | destroyWakeup
  | join => cases ha

/-- As long as `startLoop()` has not returned, one of the two threads comes nearer to it. -/
theorem Inv.exists_nearer (h : s.Inv) (hopen : s.LoopOpen) (halive : s.owner.alive = true)
    (hrunning : s.owner ≠ .running) :
    ∃ a t, isHandshake a = true ∧ s.step a = some t ∧ t.LoopOpen ∧ t.toGo < s.toGo := by
  have hstarting : s.owner.starting = true := by
    cases howner : s.owner <;> rw [howner] at halive hrunning <;>
      first | rfl | exact absurd rfl hrunning | cases halive
  obtain ⟨a, t, ha, ht⟩ := h.exists_handshake hstarting fun hstranded => hopen.2.2 hstranded.2
  have hpays := h.toGo_step ht
  have hspurious : isSpurious a = false := by
    cases a <;> first | rfl | cases ha
  rw [ha, hspurious, Bool.toNat_true, Bool.toNat_false] at hpays
  exact ⟨a, t, ha, ht, hopen.step ha ht, by omega⟩

end EventLoopThread

namespace ServerStart

variable {κ ι F : Type} {cfg : StartConfig κ} {s t : ServerStart κ ι F}

/-! ### The pool -/

/-- `total` threads exist, and the first `done` of them have been started. -/
structure Pool (cfg : StartConfig κ) (s : ServerStart κ ι F) (done total : Nat) : Prop where
  loops : s.loops = (List.range done).map (· + 1)
  names : s.threads.map Prod.fst = (List.range total).map (threadName cfg.name)
  inv : ∀ named ∈ s.threads, named.2.Inv
  alive : ∀ named ∈ s.threads, named.2.owner.alive = true
  running : ∀ k < done, ∀ named ∈ s.threads[k]?, named.2.owner = .running

/-- What a call that is inside `start()` has done so far. -/
def Done (cfg : StartConfig κ) (s : ServerStart κ ι F) : StartPc → Prop
  | .entered => Pool cfg s 0 0
  | .spawning i => i ≤ cfg.numThreads ∧ Pool cfg s i i
  | .startingLoop i k => i < cfg.numThreads ∧ k = i ∧ Pool cfg s i (i + 1)
  | .callback | .checking | .handing => Pool cfg s cfg.numThreads cfg.numThreads

/-- The acceptor is as the constructor left it. -/
def Untouched (cfg : StartConfig κ) (s : ServerStart κ ι F) : Prop :=
  s.acceptor = cfg.acceptor ∧ s.poller = cfg.poller

/-- `Acceptor::listen` has been called once. -/
def Listening (cfg : StartConfig κ) (s : ServerStart κ ι F) : Prop :=
  cfg.acceptor.listen cfg.self cfg.poller = .ok (s.acceptor, s.poller)

/-- How far the server is after `calls` calls of `start()`. -/
inductive Phase (cfg : StartConfig κ) (s : ServerStart κ ι F) (calls : Nat) : Prop where
  | new (hcalls : calls = 0) (hcallers : ∀ u, s.callers u = none) (hpool : Pool cfg s 0 0)
      (hqueued : s.queued = 0) (hacceptor : Untouched cfg s)
  | starting (hcalls : calls ≠ 0) (th : ThreadId) (pc : StartPc)
      (hcallers : s.callers = Function.update (fun _ => none) th (some pc))
      (hdone : Done cfg s pc) (hqueued : s.queued = 0) (hacceptor : Untouched cfg s)
  | handed (hcalls : calls ≠ 0) (hcallers : ∀ u, s.callers u = none)
      (hpool : Pool cfg s cfg.numThreads cfg.numThreads) (hqueued : s.queued = 1)
      (hacceptor : Untouched cfg s)
  | listening (hcalls : calls ≠ 0) (hcallers : ∀ u, s.callers u = none)
      (hpool : Pool cfg s cfg.numThreads cfg.numThreads) (hqueued : s.queued = 0)
      (hlistening : Listening cfg s)

structure Inv (cfg : StartConfig κ) (s : ServerStart κ ι F) (calls : Nat) : Prop where
  aborted : s.aborted = false
  started : s.started = (calls : Int).bmod (2 ^ 32)
  phase : Phase cfg s calls

theorem Pool.congr {done total : Nat} (h : Pool cfg s done total) (hloops : t.loops = s.loops)
    (hthreads : t.threads = s.threads) : Pool cfg t done total := by
  obtain ⟨loops, names, inv, alive, running⟩ := h
  constructor
  · rw [hloops]
    exact loops
  all_goals
    rw [hthreads]
    assumption

theorem Pool.total {done total : Nat} (h : Pool cfg s done total) : s.threads.length = total := by
  have hnames := congrArg List.length h.names
  simpa using hnames

/-- A thread of the pool takes a step, or its owner in `startLoop()`. -/
theorem Pool.moveThread {done total k : Nat} {a : StartLoopAct ι F} (h : Pool cfg s done total)
    (ha : isDestroy a = false) (hmove : s.moveThread k a = some t) : Pool cfg t done total := by
  obtain ⟨named, hnamed, hmove⟩ := Option.bind_eq_some_iff.mp hmove
  obtain ⟨th, hth, rfl⟩ := Option.map_eq_some_iff.mp hmove
  have hmem : named ∈ s.threads := List.mem_of_getElem? hnamed
  refine ⟨h.loops, ?_, ?_, ?_, ?_⟩
  · have hname : (s.threads.map Prod.fst).set k named.1 = s.threads.map Prod.fst := by
      obtain ⟨hk, rfl⟩ := List.getElem?_eq_some_iff.mp hnamed
      rw [← List.getElem_map Prod.fst, List.set_getElem_self]
      simpa using hk
    rw [List.map_set, hname, h.names]
  · intro named' hmem'
    rcases List.mem_or_eq_of_mem_set hmem' with hold | rfl
    · exact h.inv named' hold
    · exact (h.inv named hmem).step hth
  · intro named' hmem'
    rcases List.mem_or_eq_of_mem_set hmem' with hold | rfl
    · exact h.alive named' hold
    · exact EventLoopThread.alive_step ha (h.alive named hmem) hth
  · intro i hi named' hnamed'
    by_cases hik : k = i
    · subst hik
      have hk := (List.getElem?_eq_some_iff.mp hnamed).1
      rw [List.getElem?_set_self hk, Option.mem_some_iff] at hnamed'
      subst hnamed'
      exact EventLoopThread.running_step ha (h.running k hi named hnamed) hth
    · rw [List.getElem?_set_ne hik] at hnamed'
      exact h.running i hi named' hnamed'

theorem Done.congr {pc : StartPc} (h : Done cfg s pc) (hloops : t.loops = s.loops)
    (hthreads : t.threads = s.threads) : Done cfg t pc := by
  cases pc with
  | entered | callback | checking | handing => exact Pool.congr h hloops hthreads
  | spawning i => exact ⟨h.1, h.2.congr hloops hthreads⟩
  | startingLoop i k => exact ⟨h.1, h.2.1, h.2.2.congr hloops hthreads⟩

theorem Done.moveThread {pc : StartPc} {k : Nat} {a : StartLoopAct ι F} (h : Done cfg s pc)
    (ha : isDestroy a = false) (hmove : s.moveThread k a = some t) : Done cfg t pc := by
  cases pc with
  | entered | callback | checking | handing => exact Pool.moveThread h ha hmove
  | spawning i => exact ⟨h.1, h.2.moveThread ha hmove⟩
  | startingLoop i k' => exact ⟨h.1, h.2.1, h.2.2.moveThread ha hmove⟩

theorem moveThread_same {k : Nat} {a : StartLoopAct ι F} (hmove : s.moveThread k a = some t) :
    t.started = s.started ∧ t.callers = s.callers ∧ t.queued = s.queued
      ∧ t.acceptor = s.acceptor ∧ t.poller = s.poller ∧ t.aborted = s.aborted := by
  obtain ⟨named, _, hmove⟩ := Option.bind_eq_some_iff.mp hmove
  obtain ⟨th, _, rfl⟩ := Option.map_eq_some_iff.mp hmove
  exact ⟨rfl, rfl, rfl, rfl, rfl, rfl⟩

theorem Phase.moveThread {calls k : Nat} {a : StartLoopAct ι F} (h : Phase cfg s calls)
    (ha : isDestroy a = false) (hmove : s.moveThread k a = some t) : Phase cfg t calls := by
  obtain ⟨_, hcallers', hqueued', hacceptor', hpoller', _⟩ := moveThread_same hmove
  have huntouched : Untouched cfg s → Untouched cfg t := fun hu =>
    ⟨hacceptor'.trans hu.1, hpoller'.trans hu.2⟩
  cases h with
  | new hcalls hcallers hpool hqueued hacceptor =>
    exact .new hcalls (hcallers' ▸ hcallers) (hpool.moveThread ha hmove) (hqueued'.trans hqueued)
      (huntouched hacceptor)
  | starting hcalls th pc hcallers hdone hqueued hacceptor =>
    exact .starting hcalls th pc (hcallers'.trans hcallers) (hdone.moveThread ha hmove)
      (hqueued'.trans hqueued) (huntouched hacceptor)
  | handed hcalls hcallers hpool hqueued hacceptor =>
    exact .handed hcalls (hcallers' ▸ hcallers) (hpool.moveThread ha hmove)
      (hqueued'.trans hqueued) (huntouched hacceptor)
  | listening hcalls hcallers hpool hqueued hlistening =>
    refine .listening hcalls (hcallers' ▸ hcallers) (hpool.moveThread ha hmove)
      (hqueued'.trans hqueued) ?_
    rw [Listening, hacceptor', hpoller']
    exact hlistening

/-- A call that is inside `start()` is alone there. -/
theorem Phase.of_caller {calls : Nat} {u : ThreadId} {pc : StartPc} (h : Phase cfg s calls)
    (hu : s.callers u = some pc) :
    calls ≠ 0 ∧ s.callers = Function.update (fun _ => none) u (some pc) ∧ Done cfg s pc
      ∧ s.queued = 0 ∧ Untouched cfg s := by
  cases h with
  | new _ hcallers | handed _ hcallers | listening _ hcallers =>
    rw [hcallers u] at hu
    cases hu
  | starting hcalls th pc' hcallers hdone hqueued hacceptor =>
    have hth : u = th := by
      by_contra hne
      rw [hcallers, Function.update_of_ne hne] at hu
      cases hu
    subst hth
    rw [hcallers, Function.update_self, Option.some.injEq] at hu
    subst hu
    exact ⟨hcalls, hcallers, hdone, hqueued, hacceptor⟩

/-- It goes on. -/
theorem Phase.goOn {calls : Nat} {u : ThreadId} {pc next : StartPc} (h : Phase cfg s calls)
    (hu : s.callers u = some pc) (hdone : Done cfg t next)
    (hcallers : t.callers = Function.update s.callers u (some next)) (hqueued : t.queued = s.queued)
    (hacceptor : t.acceptor = s.acceptor) (hpoller : t.poller = s.poller) :
    Phase cfg t calls := by
  obtain ⟨hcalls, hsame, _, hnone, huntouched⟩ := h.of_caller hu
  refine .starting hcalls u next ?_ hdone (hqueued.trans hnone)
    ⟨hacceptor.trans huntouched.1, hpoller.trans huntouched.2⟩
  rw [hcallers, hsame, Function.update_idem]

/-- It leaves. -/
theorem Phase.callers_leave {calls : Nat} {u : ThreadId} {pc : StartPc} (h : Phase cfg s calls)
    (hu : s.callers u = some pc) (v : ThreadId) : Function.update s.callers u none v = none := by
  rw [(h.of_caller hu).2.1, Function.update_idem]
  by_cases hv : v = u
  · rw [hv, Function.update_self]
  · rw [Function.update_of_ne hv]

end ServerStart

/-- What the constructors leave: an acceptor that does not listen, with a channel that the
    poller of the main loop does not know. -/
structure StartConfig.Ready {κ : Type} (cfg : StartConfig κ) : Prop where
  listening : cfg.acceptor.listening = false
  registered : cfg.poller.Registered cfg.self cfg.acceptor.acceptChannel

namespace ServerStart

variable {κ ι F : Type} {cfg : StartConfig κ} {s t : ServerStart κ ι F}

theorem listen_eq (hready : cfg.Ready) (h : Untouched cfg s) :
    ∃ acceptor poller, cfg.acceptor.listen cfg.self cfg.poller = .ok (acceptor, poller)
      ∧ s.listen cfg = { s with acceptor := acceptor, poller := poller } := by
  have hregistered : cfg.poller.Registered cfg.self cfg.acceptor.acceptChannel.enableReading :=
    hready.registered.congr rfl rfl
  obtain ⟨r, hlisten⟩ : ∃ r, cfg.acceptor.listen cfg.self cfg.poller = .ok r := by
    rw [Acceptor.listen, EPollPoller.updateChannel_eq hregistered]
    exact ⟨_, rfl⟩
  refine ⟨r.1, r.2, hlisten, ?_⟩
  rw [listen, h.1, h.2, hlisten]

/-- A call of `start()`. -/
def isCall : ServerStartAct ι F → Bool
  | .start _ => true
  | _ => false

theorem Pool.empty (hloops : s.loops = []) (hthreads : s.threads = []) : Pool cfg s 0 0 := by
  refine ⟨hloops, by rw [hthreads]; rfl, ?_, ?_, fun k hk => absurd hk (Nat.not_lt_zero k)⟩ <;>
  · rw [hthreads]
    intro named hnamed
    cases hnamed

theorem Inv.init : Inv cfg (init cfg : ServerStart κ ι F) 0 :=
  ⟨rfl, rfl, .new rfl (fun _ => rfl) (.empty rfl rfl) rfl ⟨rfl, rfl⟩⟩

theorem bmod_eq_zero {calls : Nat} (hfew : calls < 2 ^ 32) :
    (calls : Int).bmod (2 ^ 32) = 0 ↔ calls = 0 := by
  constructor
  · intro hzero
    simp only [Int.bmod] at hzero
    split at hzero <;> omega
  · rintro rfl
    rfl

/-- `new EventLoopThread(cb, buf)` -/
theorem Pool.newThread {i : Nat} (h : Pool cfg s i i) (hloops : t.loops = s.loops)
    (hthreads : t.threads = s.threads ++ [(threadName cfg.name i, .start)]) :
    Pool cfg t i (i + 1) := by
  refine ⟨hloops.trans h.loops, ?_, ?_, ?_, ?_⟩
  · rw [hthreads, List.map_append, h.names, List.range_succ, List.map_append]
    rfl
  · intro named hnamed
    rw [hthreads, List.mem_append, List.mem_singleton] at hnamed
    rcases hnamed with hold | rfl
    · exact h.inv named hold
    · exact .start
  · intro named hnamed
    rw [hthreads, List.mem_append, List.mem_singleton] at hnamed
    rcases hnamed with hold | rfl
    · exact h.alive named hold
    · rfl
  · intro k hk named hnamed
    rw [hthreads, List.getElem?_append_left (h.total.symm ▸ hk)] at hnamed
    exact h.running k hk named hnamed

/-- `loops_.push_back(t->startLoop());` -/
theorem Pool.pushBack {i : Nat} (h : Pool cfg s i (i + 1))
    (hrunning : (s.threads[i]?.any fun named => named.2.owner == .running) = true)
    (hloops : t.loops = s.loops ++ [i + 1]) (hthreads : t.threads = s.threads) :
    Pool cfg t (i + 1) (i + 1) := by
  refine ⟨?_, hthreads ▸ h.names, hthreads ▸ h.inv, hthreads ▸ h.alive, ?_⟩
  · rw [hloops, h.loops, List.range_succ, List.map_append]
    rfl
  · intro k hk named hnamed
    rw [hthreads] at hnamed
    rcases Nat.lt_succ_iff_lt_or_eq.mp hk with hlt | rfl
    · exact h.running k hlt named hnamed
    · rw [Option.mem_def.mp hnamed] at hrunning
      exact eq_of_beq hrunning

/-- **One step of any thread**, as long as `started_` has not come round. -/
theorem Inv.step {calls : Nat} {a : ServerStartAct ι F} (hready : cfg.Ready)
    (h : Inv cfg s calls) (hfew : isCall a = true → calls < 2 ^ 32)
    (hstep : step cfg s a = some t) : Inv cfg t (calls + (isCall a).toNat) := by
  obtain ⟨haborted, hstarted, hphase⟩ := h
  unfold ServerStart.step at hstep
  rw [if_neg (by simp [haborted])] at hstep
  cases a with
  | start u =>
    simp only [Option.ite_none_right_eq_some, Option.some.injEq] at hstep
    obtain ⟨hu, rfl⟩ := hstep
    refine ⟨haborted, ?_, ?_⟩
    · change (s.started + 1).bmod (2 ^ 32) = ((calls + 1 : Nat) : Int).bmod (2 ^ 32)
      rw [hstarted, bmod_succ, Int.natCast_add, Int.natCast_one]
    · have hzero := bmod_eq_zero (hfew rfl)
      rw [← hstarted] at hzero
      cases hphase with
      | new hcalls hcallers hpool hqueued hacceptor =>
        refine .starting (Nat.succ_ne_zero calls) u .entered ?_ (Pool.congr hpool rfl rfl) hqueued
          hacceptor
        rw [if_pos (hzero.mpr hcalls), funext hcallers]
      | starting hcalls th pc hcallers hdone hqueued hacceptor =>
        refine .starting (Nat.succ_ne_zero calls) th pc ?_ (hdone.congr rfl rfl) hqueued hacceptor
        rw [if_neg fun hs => hcalls (hzero.mp hs), hcallers]
      | handed hcalls hcallers hpool hqueued hacceptor =>
        refine .handed (Nat.succ_ne_zero calls) ?_ (hpool.congr rfl rfl) hqueued hacceptor
        rw [if_neg fun hs => hcalls (hzero.mp hs)]
        exact hcallers
      | listening hcalls hcallers hpool hqueued hlistening =>
        refine .listening (Nat.succ_ne_zero calls) ?_ (hpool.congr rfl rfl) hqueued hlistening
        rw [if_neg fun hs => hcalls (hzero.mp hs)]
        exact hcallers
  | enter u =>
    simp only [Option.ite_none_right_eq_some, Option.some.injEq] at hstep
    obtain ⟨hu, rfl⟩ := hstep
    obtain ⟨_, _, hdone, _⟩ := hphase.of_caller hu
    refine ⟨haborted, hstarted, hphase.goOn hu ?_ rfl rfl rfl rfl⟩
    exact ⟨Nat.zero_le _, Pool.congr hdone rfl rfl⟩
  | loopTest u =>
    cases hu : s.callers u with
    | none => simp only [hu, reduceCtorEq] at hstep
    | some pc =>
      cases pc with
      | spawning i =>
        obtain ⟨_, _, ⟨hle, hpool⟩, _⟩ := hphase.of_caller hu
        simp only [hu] at hstep
        split at hstep
        · rename_i hlt
          cases hstep
          refine ⟨haborted, hstarted, hphase.goOn hu ?_ rfl rfl rfl rfl⟩
          exact ⟨hlt, hpool.total, hpool.newThread rfl rfl⟩
        · rename_i hge
          have hi : i = cfg.numThreads := Nat.le_antisymm hle (Nat.le_of_not_lt hge)
          subst hi
          split at hstep <;>
          · cases hstep
            refine ⟨haborted, hstarted, hphase.goOn hu ?_ rfl rfl rfl rfl⟩
            exact Pool.congr hpool rfl rfl
      | entered | startingLoop | callback | checking | handing =>
        simp only [hu, reduceCtorEq] at hstep
  | starter u b =>
    cases hu : s.callers u with
    | none => simp only [hu, reduceCtorEq] at hstep
    | some pc =>
      cases pc with
      | startingLoop i k =>
        simp only [hu, Option.ite_none_right_eq_some] at hstep
        obtain ⟨hb, hmove⟩ := hstep
        obtain ⟨hsame, _, _, _, _, haborted'⟩ := moveThread_same hmove
        have hdestroy : isDestroy b = false := by
          cases b <;> first | rfl | cases hb
        exact ⟨haborted'.trans haborted, hsame.trans hstarted, hphase.moveThread hdestroy hmove⟩
      | entered | spawning | callback | checking | handing =>
        simp only [hu, reduceCtorEq] at hstep
  | thread k b =>
    simp only [Option.ite_none_left_eq_some, not_or] at hstep
    obtain ⟨⟨_, hdestroy⟩, hmove⟩ := hstep
    obtain ⟨hsame, _, _, _, _, haborted'⟩ := moveThread_same hmove
    exact ⟨haborted'.trans haborted, hsame.trans hstarted,
      hphase.moveThread (eq_false_of_ne_true hdestroy) hmove⟩
  | pushBack u =>
    cases hu : s.callers u with
    | none => simp only [hu, reduceCtorEq] at hstep
    | some pc =>
      cases pc with
      | startingLoop i k =>
        obtain ⟨_, _, ⟨hlt, rfl, hpool⟩, _⟩ := hphase.of_caller hu
        simp only [hu, Option.ite_none_right_eq_some, Option.some.injEq] at hstep
        obtain ⟨hrunning, rfl⟩ := hstep
        refine ⟨haborted, hstarted, hphase.goOn hu ?_ rfl rfl rfl rfl⟩
        exact ⟨hlt, hpool.pushBack hrunning rfl rfl⟩
      | entered | spawning | callback | checking | handing =>
        simp only [hu, reduceCtorEq] at hstep
  | callback u =>
    simp only [Option.ite_none_right_eq_some, Option.some.injEq] at hstep
    obtain ⟨hu, rfl⟩ := hstep
    obtain ⟨_, _, hdone, _⟩ := hphase.of_caller hu
    refine ⟨haborted, hstarted, hphase.goOn hu ?_ rfl rfl rfl rfl⟩
    exact Pool.congr hdone rfl rfl
  | check u =>
    simp only [Option.ite_none_right_eq_some] at hstep
    obtain ⟨hu, hstep⟩ := hstep
    obtain ⟨_, _, hdone, _, huntouched⟩ := hphase.of_caller hu
    rw [huntouched.1, hready.listening, if_neg Bool.false_ne_true] at hstep
    cases hstep
    refine ⟨haborted, hstarted, hphase.goOn hu ?_ rfl rfl rfl rfl⟩
    exact Pool.congr hdone rfl rfl
  | runInLoop u =>
    simp only [Option.ite_none_right_eq_some] at hstep
    obtain ⟨hu, hstep⟩ := hstep
    obtain ⟨hcalls, _, hdone, hqueued, huntouched⟩ := hphase.of_caller hu
    have hleave := hphase.callers_leave hu
    split at hstep
    · obtain ⟨acceptor, poller, hlisten, heq⟩ :=
        listen_eq (s := s.goTo u none) hready huntouched
      rw [heq] at hstep
      cases hstep
      exact ⟨haborted, hstarted,
        .listening hcalls hleave (Pool.congr hdone rfl rfl) hqueued hlisten⟩
    · cases hstep
      refine ⟨haborted, hstarted,
        .handed hcalls hleave (Pool.congr hdone rfl rfl) ?_ huntouched⟩
      exact congrArg (· + 1) hqueued
  | listen =>
    simp only [Option.ite_none_right_eq_some, Option.some.injEq] at hstep
    obtain ⟨⟨hpos, _⟩, hstep⟩ := hstep
    cases hphase with
    | handed hcalls hcallers hpool hqueued huntouched =>
      obtain ⟨acceptor, poller, hlisten, heq⟩ :=
        listen_eq (s := { s with queued := s.queued - 1 }) hready huntouched
      rw [heq] at hstep
      subst hstep
      refine ⟨haborted, hstarted, .listening hcalls hcallers (hpool.congr rfl rfl) ?_ hlisten⟩
      exact congrArg (· - 1) hqueued
    | new _ _ _ hqueued | starting _ _ _ _ _ hqueued | listening _ _ _ hqueued =>
      rw [hqueued] at hpos
      exact absurd hpos (Nat.lt_irrefl 0)

theorem Inv.run {acts : List (ServerStartAct ι F)} {calls : Nat} (hready : cfg.Ready)
    (h : Inv cfg s calls) (hfew : calls + acts.countP isCall ≤ 2 ^ 32)
    (hrun : Runs.run (ServerStart.step cfg) s acts = some t) :
    Inv cfg t (calls + acts.countP isCall) := by
  induction acts generalizing s calls with
  | nil =>
    cases hrun
    exact h
  | cons a acts ih =>
    obtain ⟨u, hu, hrest⟩ := Option.bind_eq_some_iff.mp hrun
    have hcount : (a :: acts).countP isCall = (isCall a).toNat + acts.countP isCall := by
      rw [List.countP_cons, Nat.add_comm]
      cases isCall a <;> rfl
    rw [hcount, ← Nat.add_assoc] at hfew ⊢
    refine ih (h.step hready ?_ hu) hfew hrest
    intro ha
    rw [ha, Bool.toNat_true] at hfew
    omega

/-! ### At most one start -/

/-- The loops in `loops_` are those of the first threads, which have all published them. -/
structure Published (cfg : StartConfig κ) (s : ServerStart κ ι F) : Prop where
  loops : s.loops = (List.range s.loops.length).map (· + 1)
  length : s.loops.length ≤ s.threads.length
  total : s.threads.length ≤ cfg.numThreads
  names : s.threads.map Prod.fst = (List.range s.threads.length).map (threadName cfg.name)
  published : ∀ L ∈ s.loops, ∃ named, s.threads[L - 1]? = some named
    ∧ named.2.owner = .running ∧ named.2.thread.handedOver = true

theorem Pool.published {done total : Nat} (h : Pool cfg s done total) (hle : done ≤ total)
    (htotal : total ≤ cfg.numThreads) : Published cfg s := by
  have hlength : s.loops.length = done := by
    rw [h.loops, List.length_map, List.length_range]
  have hthreads := h.total
  refine ⟨?_, ?_, hthreads ▸ htotal, ?_, ?_⟩
  · rw [hlength]
    exact h.loops
  · rw [hlength, hthreads]
    exact hle
  · rw [hthreads]
    exact h.names
  · intro L hL
    rw [h.loops, List.mem_map] at hL
    obtain ⟨k, hk, rfl⟩ := hL
    rw [List.mem_range] at hk
    have hlt : k < s.threads.length := hthreads ▸ Nat.lt_of_lt_of_le hk hle
    have hnamed : s.threads[k]? = some s.threads[k] := List.getElem?_eq_getElem hlt
    have hrunning := h.running k hk s.threads[k] hnamed
    refine ⟨s.threads[k], hnamed, hrunning, ?_⟩
    have hmeets := (h.inv s.threads[k] (List.getElem_mem hlt)).meets
    rw [hrunning] at hmeets
    exact hmeets

theorem Done.published {pc : StartPc} (h : Done cfg s pc) : Published cfg s := by
  cases pc with
  | entered => exact Pool.published h (Nat.le_refl 0) (Nat.zero_le _)
  | callback | checking | handing => exact Pool.published h (Nat.le_refl _) (Nat.le_refl _)
  | spawning i => exact h.2.published (Nat.le_refl i) h.1
  | startingLoop i k => exact h.2.2.published (Nat.le_succ i) h.1

theorem Phase.published {calls : Nat} (h : Phase cfg s calls) : Published cfg s := by
  cases h with
  | new _ _ hpool => exact hpool.published (Nat.le_refl 0) (Nat.zero_le _)
  | handed _ _ hpool | listening _ _ hpool =>
    exact hpool.published (Nat.le_refl _) (Nat.le_refl _)
  | starting _ _ _ _ hdone => exact hdone.published

/-- Only in its last phase does the server listen. -/
theorem Phase.of_listening {calls : Nat} (hready : cfg.Ready) (h : Phase cfg s calls)
    (hlistening : s.acceptor.listening = true) :
    (∀ u, s.callers u = none) ∧ Pool cfg s cfg.numThreads cfg.numThreads ∧ Listening cfg s := by
  have hnot : Untouched cfg s → False := by
    rintro ⟨hacceptor, _⟩
    rw [hacceptor, hready.listening] at hlistening
    cases hlistening
  cases h with
  | new _ _ _ _ hacceptor | starting _ _ _ _ _ _ hacceptor | handed _ _ _ _ hacceptor =>
    exact absurd hacceptor hnot
  | listening _ hcallers hpool _ hlistening => exact ⟨hcallers, hpool, hlistening⟩

/-- **`start()` starts once, and the server listens with all its loops.**  With any threads
    calling `start()`, in all 2^32 times at most: no assertion fails; one call at a time is
    inside; every loop in `loops_` is the one that the thread in its place has published, and
    the threads have different names; and a server that listens has `numThreads_` loops, with
    `Acceptor::listen` called once and no call inside `start()`. -/
theorem start_once {acts : List (ServerStartAct ι F)} (hready : cfg.Ready)
    (hthreads : cfg.numThreads < 2 ^ 31) (hfew : acts.countP isCall ≤ 2 ^ 32)
    (hrun : Runs.run (step cfg) (init cfg) acts = some s) :
    s.aborted = false
      ∧ (∀ u v, s.callers u ≠ none → s.callers v ≠ none → u = v)
      ∧ Published cfg s ∧ (s.threads.map Prod.fst).Nodup
      ∧ (s.acceptor.listening = true → s.loops.length = cfg.numThreads
        ∧ (∀ u, s.callers u = none) ∧ Listening cfg s) := by
  have hinv := Inv.run hready Inv.init (by rwa [Nat.zero_add]) hrun
  have hphase := hinv.phase
  refine ⟨hinv.aborted, ?_, hphase.published, ?_, ?_⟩
  · intro u v hu hv
    obtain ⟨pc, hpc⟩ := Option.ne_none_iff_exists'.mp hu
    by_contra hne
    rw [(hphase.of_caller hpc).2.1, Function.update_of_ne (Ne.symm hne)] at hv
    exact hv rfl
  · have htotal := hphase.published.total
    rw [hphase.published.names]
    refine List.Nodup.map_on ?_ List.nodup_range
    intro i hi j hj heq
    rw [List.mem_range] at hi hj
    exact threadName_injective (by omega) (by omega) heq
  · intro hlistening
    obtain ⟨hcallers, hpool, hlistening⟩ := hphase.of_listening hready hlistening
    refine ⟨?_, hcallers, hlistening⟩
    rw [hpool.loops, List.length_map, List.length_range]

/-- A pool of two threads. -/
def twoThreads : StartConfig Unit where
  name := "echo".toList
  numThreads := 2
  threadInitCallback := false
  self := ()
  acceptor := (Acceptor.new 3 4).setNewConnectionCallback true
  poller := .new

theorem twoThreads_ready : twoThreads.Ready := ⟨rfl, rfl, rfl⟩

/-- Thread 5 starts the `k`-th of them, and sleeps until it is notified. -/
def bringUp (k : Nat) : List (ServerStartAct Nat Nat) :=
  [.loopTest 5, .starter 5 .startLoop, .starter 5 .spawn, .thread k (.storeTid (100 + k)),
    .thread k .semPost, .starter 5 .semWait, .thread k .construct, .starter 5 .lock,
    .starter 5 .test, .thread k .lockToPublish, .thread k .publish, .thread k .notifyOne,
    .thread k .unlockPublished, .starter 5 .relock, .starter 5 .test, .starter 5 .unlock,
    .pushBack 5]

/-- The main thread and another one call `start()` too. -/
def threeCalls : List (ServerStartAct Nat Nat) :=
  [.start 5, .start 0, .enter 5] ++ bringUp 0 ++ bringUp 1
    ++ [.loopTest 5, .check 5, .runInLoop 5, .start 7, .listen]

theorem start_once_threeCalls :
    ∃ s, Runs.run (step twoThreads) (init twoThreads) threeCalls = some s
      ∧ s.acceptor.listening = true ∧ s.loops = [1, 2]
      ∧ s.aborted = false
      ∧ (∀ u v, s.callers u ≠ none → s.callers v ≠ none → u = v)
      ∧ Published twoThreads s ∧ (s.threads.map Prod.fst).Nodup
      ∧ (s.acceptor.listening = true → s.loops.length = twoThreads.numThreads
        ∧ (∀ u, s.callers u = none) ∧ Listening twoThreads s) := by
  obtain ⟨s, hs, hlistening, hloops⟩ :
      ∃ s, Runs.run (step twoThreads) (init twoThreads) threeCalls = some s
        ∧ s.acceptor.listening = true ∧ s.loops = [1, 2] := ⟨_, rfl, rfl, rfl⟩
  exact ⟨s, hs, hlistening, hloops, start_once twoThreads_ready (by decide) (by decide) hs⟩

/-! ### The start comes to its end -/

/-- How far a call has to go from its place. -/
def placeToGo (cfg : StartConfig κ) (s : ServerStart κ ι F) : StartPc → Nat
  | .entered => 20 * cfg.numThreads + 6
  | .spawning i => 20 * (cfg.numThreads - i) + 5
  | .startingLoop i k =>
    20 * (cfg.numThreads - (i + 1)) + 6
      + ((s.threads[k]?).map fun named => named.2.toGo).getD 0
  | .callback => 4
  | .checking => 3
  | .handing => 2

/-- The call of `th`, and the main loop after it. -/
def toGo (cfg : StartConfig κ) (th : ThreadId) (s : ServerStart κ ι F) : Nat :=
  match s.callers th with
  | some pc => placeToGo cfg s pc
  | none => s.queued

/-- No loop of the pool has come to its end. -/
def LoopsOpen (s : ServerStart κ ι F) : Prop := ∀ named ∈ s.threads, named.2.LoopOpen

instance (s : ServerStart κ ι F) : Decidable (LoopsOpen s) :=
  inferInstanceAs (Decidable (∀ named ∈ s.threads, named.2.LoopOpen))

/-- The thread that is being started, or its owner, comes nearer to the return of
    `startLoop()`. -/
theorem exists_step_startingLoop {calls : Nat} {th : ThreadId} {i : Nat} (h : Inv cfg s calls)
    (hopen : LoopsOpen s) (hth : s.callers th = some (.startingLoop i i)) :
    ∃ a t, isCall a = false ∧ step cfg s a = some t ∧ LoopsOpen t
      ∧ (∀ u, u ≠ th → t.callers u = s.callers u) ∧ toGo cfg th t < toGo cfg th s := by
  obtain ⟨_, _, ⟨hlt, _, hpool⟩, _⟩ := h.phase.of_caller hth
  have hi : i < s.threads.length := hpool.total ▸ Nat.lt_succ_self i
  have hnamed : s.threads[i]? = some s.threads[i] := List.getElem?_eq_getElem hi
  have hmem := List.getElem_mem hi
  have hthread := hpool.inv _ hmem
  by_cases hrunning : s.threads[i].2.owner = .running
  · -- `loops_.push_back`
    refine ⟨.pushBack th, { s with
      loops := s.loops ++ [i + 1]
      callers := Function.update s.callers th (some (.spawning (i + 1))) }, rfl, ?_, hopen,
      fun u hne => Function.update_of_ne hne _ _, ?_⟩
    · unfold step
      rw [if_neg (by simp [h.aborted])]
      simp only [hth, hnamed, Option.any_some, hrunning, beq_self_eq_true, if_true]
    · simp only [toGo, hth, Function.update_self, placeToGo]
      omega
  · obtain ⟨a, th', ha, hth', hopen', hless⟩ :=
      hthread.exists_nearer (hopen _ hmem) (hpool.alive _ hmem) hrunning
    have hmove : s.moveThread i a
        = some { s with threads := s.threads.set i (s.threads[i].1, th') } := by
      rw [moveThread, hnamed, Option.bind_some, hth']
      rfl
    have hdestroy : isDestroy a = false := by
      cases a <;> first | rfl | cases ha
    have hopens : LoopsOpen
        ({ s with threads := s.threads.set i (s.threads[i].1, th') } : ServerStart κ ι F) := by
      intro named' hmem'
      rcases List.mem_or_eq_of_mem_set hmem' with hold | rfl
      · exact hopen named' hold
      · exact hopen'
    have hnearer : toGo cfg th
        ({ s with threads := s.threads.set i (s.threads[i].1, th') } : ServerStart κ ι F)
          < toGo cfg th s := by
      simp only [toGo, hth, placeToGo, List.getElem?_set_self hi, hnamed, Option.map_some,
        Option.getD_some]
      omega
    by_cases hstarter : isStarter a = true
    · refine ⟨.starter th a, _, rfl, ?_, hopens, fun _ _ => rfl, hnearer⟩
      unfold step
      rw [if_neg (by simp [h.aborted])]
      simp only [hth, if_pos hstarter, hmove]
    · refine ⟨.thread i a, _, rfl, ?_, hopens, fun _ _ => rfl, hnearer⟩
      unfold step
      rw [if_neg (by simp [h.aborted])]
      simp only [hstarter, hdestroy, hmove]
      rfl

/-- So does any call inside `start()`, wherever it is. -/
theorem exists_step_inside {calls : Nat} {th : ThreadId} {pc : StartPc} (hready : cfg.Ready)
    (h : Inv cfg s calls) (hopen : LoopsOpen s) (hth : s.callers th = some pc) :
    ∃ a t, isCall a = false ∧ step cfg s a = some t ∧ LoopsOpen t
      ∧ (∀ u, u ≠ th → t.callers u = s.callers u) ∧ toGo cfg th t < toGo cfg th s := by
  have hother : ∀ {pc : Option StartPc} (u : ThreadId), u ≠ th →
      Function.update s.callers th pc u = s.callers u := fun _ hne =>
    Function.update_of_ne hne _ _
  obtain ⟨_, _, hdone, hqueued, huntouched⟩ := h.phase.of_caller hth
  have hruns : ¬ s.aborted = true := by simp [h.aborted]
  cases pc with
  | startingLoop i k =>
    obtain ⟨_, rfl, _⟩ := hdone
    exact exists_step_startingLoop h hopen hth
  | entered =>
    refine ⟨.enter th, s.goTo th (some (.spawning 0)), rfl, ?_, hopen, hother, ?_⟩
    · unfold step
      rw [if_neg hruns]
      exact if_pos hth
    · simp only [toGo, hth, goTo, Function.update_self, placeToGo]
      omega
  | spawning i =>
    by_cases hlt : i < cfg.numThreads
    · refine ⟨.loopTest th, { s with
        threads := s.threads ++ [(threadName cfg.name i, .start)]
        callers := Function.update s.callers th (some (.startingLoop i s.threads.length)) },
        rfl, ?_, ?_, hother, ?_⟩
      · unfold step
        rw [if_neg hruns]
        simp only [hth, if_pos hlt]
      · intro named hnamed
        rcases List.mem_append.mp hnamed with hold | hnew
        · exact hopen named hold
        · rw [List.mem_singleton.mp hnew]
          exact EventLoopThread.LoopOpen.start
      · simp only [toGo, hth, Function.update_self, placeToGo, List.getElem?_concat_length,
          Option.map_some, Option.getD_some]
        have hstart : (EventLoopThread.start : EventLoopThread ι F).toGo = 17 := rfl
        omega
    · by_cases hcallback : cfg.numThreads = 0 ∧ cfg.threadInitCallback = true
      · refine ⟨.loopTest th, s.goTo th (some .callback), rfl, ?_, hopen, hother, ?_⟩
        · unfold step
          rw [if_neg hruns]
          simp only [hth, if_neg hlt, if_pos hcallback]
        · simp only [toGo, hth, goTo, Function.update_self, placeToGo]
          omega
      · refine ⟨.loopTest th, s.goTo th (some .checking), rfl, ?_, hopen, hother, ?_⟩
        · unfold step
          rw [if_neg hruns]
          simp only [hth, if_neg hlt, if_neg hcallback]
        · simp only [toGo, hth, goTo, Function.update_self, placeToGo]
          omega
  | callback =>
    refine ⟨.callback th, s.goTo th (some .checking), rfl, ?_, hopen, hother, ?_⟩
    · unfold step
      rw [if_neg hruns]
      exact if_pos hth
    · simp only [toGo, hth, goTo, Function.update_self, placeToGo]
      omega
  | checking =>
    refine ⟨.check th, s.goTo th (some .handing), rfl, ?_, hopen, hother, ?_⟩
    · unfold step
      rw [if_neg hruns]
      simp only [if_pos hth, huntouched.1, hready.listening, Bool.false_eq_true, if_false]
    · simp only [toGo, hth, goTo, Function.update_self, placeToGo]
      omega
  | handing =>
    by_cases hmain : th = mainThread
    · obtain ⟨acceptor, poller, _, heq⟩ := listen_eq (s := s.goTo th none) hready huntouched
      refine ⟨.runInLoop th, (s.goTo th none).listen cfg, rfl, ?_, ?_, ?_, ?_⟩
      · unfold step
        rw [if_neg hruns]
        simp only [if_pos hth, if_pos hmain]
      · rw [heq]
        exact hopen
      · rw [heq]
        exact hother
      · rw [heq]
        simp only [toGo, hth, goTo, Function.update_self, placeToGo, hqueued]
        omega
    · refine ⟨.runInLoop th, { s.goTo th none with queued := s.queued + 1 }, rfl, ?_, hopen,
        hother, ?_⟩
      · unfold step
        rw [if_neg hruns]
        simp only [if_pos hth, if_neg hmain]
      · simp only [toGo, hth, goTo, Function.update_self, placeToGo, hqueued]
        omega

/-- The server listens, and nobody is inside `start()`. -/
def Started (s : ServerStart κ ι F) : Prop :=
  s.acceptor.listening = true ∧ ∀ u, s.callers u = none

/-- `start()` has been called, nobody but `th` is inside, and the pool is as it should be. -/
structure OnTheWay (cfg : StartConfig κ) (calls : Nat) (th : ThreadId)
    (s : ServerStart κ ι F) : Prop where
  inv : Inv cfg s calls
  called : calls ≠ 0
  alone : ∀ u, u ≠ th → s.callers u = none
  loops : LoopsOpen s

theorem listening_of_listen {acceptor : Acceptor} {poller : EPollPoller κ}
    (h : cfg.acceptor.listen cfg.self cfg.poller = .ok (acceptor, poller)) :
    acceptor.listening = true := by
  rw [Acceptor.listen] at h
  cases hupdate : cfg.poller.updateChannel cfg.self cfg.acceptor.acceptChannel.enableReading with
  | error f =>
    rw [hupdate] at h
    cases h
  | ok r =>
    rw [hupdate] at h
    cases h
    rfl

theorem OnTheWay.exists_step {calls : Nat} {th : ThreadId} (hready : cfg.Ready)
    (h : OnTheWay cfg calls th s) (hnot : ¬ Started s) :
    ∃ a t, isCall a = false ∧ step cfg s a = some t ∧ OnTheWay cfg calls th t
      ∧ toGo cfg th t < toGo cfg th s := by
  suffices hstep : ∃ a t, isCall a = false ∧ step cfg s a = some t ∧ LoopsOpen t
      ∧ (∀ u, u ≠ th → t.callers u = s.callers u) ∧ toGo cfg th t < toGo cfg th s by
    obtain ⟨a, t, ha, ht, hloops, hother, hless⟩ := hstep
    have hinv := h.inv.step hready (by simp [ha]) ht
    rw [ha, Bool.toNat_false, Nat.add_zero] at hinv
    exact ⟨a, t, ha, ht, ⟨hinv, h.called, fun u hu => (hother u hu).trans (h.alone u hu), hloops⟩,
      hless⟩
  cases hth : s.callers th with
  | some pc => exact exists_step_inside hready h.inv h.loops hth
  | none =>
    cases h.inv.phase with
    | new hcalls => exact absurd hcalls h.called
    | starting _ th' pc hcallers =>
      have hsome : s.callers th' = some pc := by rw [hcallers, Function.update_self]
      by_cases heq : th' = th
      · rw [heq, hth] at hsome
        cases hsome
      · rw [h.alone th' heq] at hsome
        cases hsome
    | listening _ hcallers _ _ hlistening =>
      exact absurd ⟨listening_of_listen hlistening, hcallers⟩ hnot
    | handed _ hcallers _ hqueued huntouched =>
      -- the main loop calls `Acceptor::listen`
      obtain ⟨acceptor, poller, _, heq⟩ :=
        listen_eq (s := { s with queued := s.queued - 1 }) hready huntouched
      refine ⟨.listen, ({ s with queued := s.queued - 1 } : ServerStart κ ι F).listen cfg, rfl,
        ?_, ?_⟩
      · unfold step
        rw [if_neg (by simp [h.inv.aborted])]
        exact if_pos ⟨hqueued ▸ Nat.one_pos, hcallers mainThread⟩
      · rw [heq]
        refine ⟨h.loops, fun _ _ => rfl, ?_⟩
        simp only [toGo, hth, hqueued]
        omega

/-- **The start comes to its end.**  From any state that is reached with a call of `start()`
    and no loop of the pool at its end, the call inside `start()`, the threads of the pool and
    the main loop can go on, without another call, until the server listens and nobody is
    inside. -/
theorem start_completes {acts : List (ServerStartAct ι F)} (hready : cfg.Ready)
    (hfew : acts.countP isCall ≤ 2 ^ 32) (hcalled : acts.countP isCall ≠ 0)
    (hrun : Runs.run (step cfg) (init cfg) acts = some s) (hopen : LoopsOpen s) :
    ∃ more t, Runs.run (step cfg) s more = some t ∧ (∀ a ∈ more, isCall a = false)
      ∧ Started t := by
  have hinv : Inv cfg s (acts.countP isCall) := by
    have hinv := Inv.run hready Inv.init (by rwa [Nat.zero_add]) hrun
    rwa [Nat.zero_add] at hinv
  obtain ⟨th, hth⟩ : ∃ th, ∀ u, u ≠ th → s.callers u = none := by
    cases hinv.phase with
    | new _ hcallers | handed _ hcallers | listening _ hcallers => exact ⟨0, fun u _ => hcallers u⟩
    | starting _ th _ hcallers =>
      exact ⟨th, fun u hne => by rw [hcallers, Function.update_of_ne hne]⟩
  obtain ⟨more, t, hmore, halong, _, hstarted⟩ :=
    Runs.run_until (C := fun _ a => isCall a = false) Nat.lt_wfRel.wf
      (fun _ hway hnot => OnTheWay.exists_step hready hway hnot) s ⟨hinv, hcalled, hth, hopen⟩
  exact ⟨more, t, hmore, (Runs.along_iff_forall_mem hmore).mp halong, hstarted⟩

/-- One thread of the pool is up, the next one has just been made. -/
def halfWay : List (ServerStartAct Nat Nat) :=
  [.start 5, .start 0, .enter 5] ++ bringUp 0 ++ [.loopTest 5, .starter 5 .startLoop]

theorem start_completes_halfWay :
    ∃ s, Runs.run (step twoThreads) (init twoThreads) halfWay = some s
      ∧ s.callers 5 = some (.startingLoop 1 1)
      ∧ ∃ more t, Runs.run (step twoThreads) s more = some t ∧ (∀ a ∈ more, isCall a = false)
        ∧ Started t := by
  obtain ⟨s, hs, hcaller, hopen⟩ :
      ∃ s, Runs.run (step twoThreads) (init twoThreads) halfWay = some s
        ∧ s.callers 5 = some (.startingLoop 1 1) ∧ LoopsOpen s :=
    ⟨_, rfl, rfl, by decide +kernel⟩
  exact ⟨s, hs, hcaller,
    start_completes twoThreads_ready (by decide) (by decide) hs hopen⟩

end ServerStart

end Ymuduo
