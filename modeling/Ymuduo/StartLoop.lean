/-
  Ymuduo/StartLoop.lean
  =====================
  **How a thread hands its loop over: `Thread::start`, `EventLoopThread::startLoop` and
  `EventLoopThread::threadFunc` (Thread.cc, EventLoopThread.cc).**

  Two threads meet twice.  In `Thread::start` the owner waits for the semaphore that the new
  thread posts when it has stored `tid_`; in `startLoop` it waits on the condition variable
  until the new thread has stored `loop_` under the mutex.  `LoopThread` has both in one step
  for each side; here every lock, wait and notification is a step, and a wait may end by
  itself, as `cv_.wait` may.

  The owner cannot sleep through the notification, for it tests `loop_` and goes to sleep
  under the mutex that the notification is sent under.  What it can miss is the whole life of
  the loop: a loop that is told to quit by its own first functor may be over, and `loop_`
  cleared, before the owner has the mutex again.
-/
import Ymuduo.LoopThread
import Ymuduo.FunctorQueue
import Ymuduo.Simulation

namespace Ymuduo

/-- Where the owner is: in `startLoop()`, with `Thread::start()` in it, then as in
    `OwnerPc`. -/
inductive StarterPc where
  | constructed
  | spawning      -- after `sem_init(&sem, 0, 0);`
  | semWait       -- at `sem_wait(&sem);`
  | aborted       -- by `assert(tid_ > 0);`
  | started       -- `thread_.start()` has returned
  | testing       -- with `mutex_`, at `while(loop_ == nullptr)`
  | waiting       -- asleep in `cv_.wait(lock);`
  | relocking     -- awake in `cv_.wait(lock);`
  | reading       -- with `mutex_`, at `loop = loop_;`
  | running
  | quitting
  | joining
  | destroyed
deriving DecidableEq, Repr

/-- Where the new thread is: in the function given to `std::thread`, with `threadFunc()`
    in it. -/
inductive ThreadFuncPc where
  | notStarted
  | entered
  | posting        -- after `tid_ = CurrentThread::tid();`
  | constructing   -- after `sem_post(&sem);`
  | inCallback     -- after `EventLoop loop;`
  | publishing     -- with `mutex_`, at `loop_ = &loop;`
  | notifying      -- at `cv_.notify_one();`
  | unlocking
  | looping        -- in `loop.loop();`
  | clearing       -- with `mutex_` again, at `loop_ = nullptr;`
  | leaving        -- with `mutex_`, at the end
  | exited
deriving DecidableEq, Repr

inductive MutexHolder where
  | owner
  | thread
deriving DecidableEq, Repr

/-- The members of `EventLoopThread` and of its `Thread`, with the loop on the stack of the
    new thread.  `loop`: `loop_` is not null.  `requested` is as in `LoopThread`. -/
structure EventLoopThread (ι F : Type) where
  owner : StarterPc
  thread : ThreadFuncPc
  sem : Nat
  tid : Nat
  mutex : Option MutexHolder
  loop : Bool
  sys : LoopSystem ι F
  requested : Bool

/-- A step of the owner (`startLoop`, `spawn`, `semWait`, `lock`, `test`, `wakeSpuriously`,
    `relock`, `unlock`, `destroy`, `destroyWakeup`, `join`), one of the new thread, or one of
    the loop and those who use it. -/
inductive StartLoopAct (ι F : Type) where
  | startLoop
  | spawn
  | semWait
  | lock
  | test
  | wakeSpuriously
  | relock
  | unlock
  | storeTid (tid : Nat)
  | semPost
  | construct
  | callbackQueue (cb : F)
  | callbackQuit
  | lockToPublish
  | publish
  | notifyOne
  | unlockPublished
  | lockToClear
  | clear
  | leave
  | loop (a : LoopAct ι F)
  | destroy
  | destroyWakeup
  | join
deriving DecidableEq, Repr

namespace EventLoopThread

variable {ι F : Type}

def start : EventLoopThread ι F where
  owner := .constructed
  thread := .notStarted
  sem := 0
  tid := 0
  mutex := none
  loop := false
  sys := .start
  requested := false

/-- `startLoop()` has returned, and the thread is not the owner inside its destructor. -/
def HasLoop (s : EventLoopThread ι F) (t : ThreadId) : Prop :=
  if t = ownerThread then s.owner = .running
  else s.owner = .running ∨ s.owner = .quitting ∨ s.owner = .joining ∨ s.owner = .destroyed

instance (s : EventLoopThread ι F) (t : ThreadId) : Decidable (s.HasLoop t) :=
  inferInstanceAs (Decidable (if t = ownerThread then s.owner = .running else
    s.owner = .running ∨ s.owner = .quitting ∨ s.owner = .joining ∨ s.owner = .destroyed))

/-- Who may take the step: the new thread in `loop()`, another one as long as it has the
    loop and `loop_` is not cleared. -/
def MayAct (s : EventLoopThread ι F) : LoopAct ι F → Prop
  | .push t _ | .wakeup t | .quit t => s.HasLoop t ∧ s.loop = true
  | .advance _ | .selfPush _ | .selfWakeup | .selfQuit => s.thread = .looping

instance (s : EventLoopThread ι F) : (a : LoopAct ι F) → Decidable (s.MayAct a)
  | .push t _ | .wakeup t | .quit t => inferInstanceAs (Decidable (s.HasLoop t ∧ s.loop = true))
  | .advance _ | .selfPush _ | .selfWakeup | .selfQuit =>
    inferInstanceAs (Decidable (s.thread = .looping))

/-- A kernel's `tid` is positive. -/
def step (s : EventLoopThread ι F) : StartLoopAct ι F → Option (EventLoopThread ι F)
  | .startLoop => if s.owner = .constructed then some { s with owner := .spawning } else none
  | .spawn =>
    if s.owner = .spawning then some { s with owner := .semWait, thread := .entered } else none
  | .semWait =>
    if s.owner = .semWait ∧ 0 < s.sem then
      some { s with owner := if 0 < s.tid then .started else .aborted, sem := s.sem - 1 }
    else none
  | .lock =>
    if s.owner = .started ∧ s.mutex = none then
      some { s with owner := .testing, mutex := some .owner }
    else none
  | .test =>
    if s.owner = .testing then
      -- `cv_.wait` lets the mutex go as it goes to sleep
      if s.loop then some { s with owner := .reading }
      else some { s with owner := .waiting, mutex := none }
    else none
  | .wakeSpuriously =>
    if s.owner = .waiting then some { s with owner := .relocking } else none
  | .relock =>
    if s.owner = .relocking ∧ s.mutex = none then
      some { s with owner := .testing, mutex := some .owner }
    else none
  | .unlock =>
    if s.owner = .reading then some { s with owner := .running, mutex := none } else none
  | .storeTid tid =>
    if s.thread = .entered ∧ 0 < tid then some { s with thread := .posting, tid := tid } else none
  | .semPost =>
    if s.thread = .posting then some { s with thread := .constructing, sem := s.sem + 1 } else none
  | .construct =>
    if s.thread = .constructing then some { s with thread := .inCallback } else none
  | .callbackQueue cb =>
    if s.thread = .inCallback then
      some { s with sys := { s.sys with
        loop := s.sys.loop.queueInLoop true cb, pushed := s.sys.pushed ++ [cb] } }
    else none
  | .callbackQuit =>
    if s.thread = .inCallback then
      some { s with sys := { s.sys with loop := { s.sys.loop with quit := true } } }
    else none
  | .lockToPublish =>
    if s.thread = .inCallback ∧ s.mutex = none then
      some { s with thread := .publishing, mutex := some .thread }
    else none
  | .publish =>
    if s.thread = .publishing then some { s with thread := .notifying, loop := true } else none
  | .notifyOne =>
    if s.thread = .notifying then
      some { s with
        thread := .unlocking
        owner := if s.owner = .waiting then .relocking else s.owner }
    else none
  | .unlockPublished =>
    if s.thread = .unlocking then some { s with thread := .looping, mutex := none } else none
  | .lockToClear =>
    if s.thread = .looping ∧ s.sys.loop.pc = .returned ∧ s.mutex = none then
      some { s with thread := .clearing, mutex := some .thread }
    else none
  | .clear =>
    if s.thread = .clearing then some { s with thread := .leaving, loop := false } else none
  | .leave =>
    if s.thread = .leaving then some { s with thread := .exited, mutex := none } else none
  | .loop a =>
    if s.MayAct a then
      (s.sys.step a).map fun sys =>
        { s with sys := sys, requested := s.requested || LoopThread.isQuit a }
    else none
  | .destroy =>
    if s.owner = .running then
      if s.loop then
        (s.sys.step (.quit ownerThread)).map fun sys =>
          { s with sys := sys, owner := .quitting, requested := true }
      else some { s with owner := .destroyed }
    else none
  | .destroyWakeup =>
    if s.owner = .quitting then
      (s.sys.step (.wakeup ownerThread)).map fun sys => { s with sys := sys, owner := .joining }
    else none
  | .join =>
    if s.owner = .joining ∧ s.thread = .exited then some { s with owner := .destroyed } else none

end EventLoopThread

/-! ### The two places fit together -/

namespace StarterPc

def locks : StarterPc → Bool
  | .testing | .reading => true
  | _ => false

/-- `startLoop()` has not returned. -/
def starting : StarterPc → Bool
  | .constructed | .spawning | .semWait | .aborted | .started | .testing | .waiting | .relocking
  | .reading => true
  | .running | .quitting | .joining | .destroyed => false

end StarterPc

namespace ThreadFuncPc

def locks : ThreadFuncPc → Bool
  | .publishing | .notifying | .unlocking | .clearing | .leaving => true
  | _ => false

/-- After `sem_post`. -/
def posted : ThreadFuncPc → Bool
  | .notStarted | .entered | .posting => false
  | _ => true

/-- `loop_` is set. -/
def published : ThreadFuncPc → Bool
  | .notifying | .unlocking | .looping | .clearing => true
  | _ => false

/-- `loop_` has been cleared. -/
def cleared : ThreadFuncPc → Bool
  | .leaving | .exited => true
  | _ => false

/-- The notification has been sent, and the mutex let go. -/
def handedOver : ThreadFuncPc → Bool
  | .looping | .clearing | .leaving | .exited => true
  | _ => false

end ThreadFuncPc

/-- Where the new thread can be, the owner being where it is.  While the owner sleeps, the
    notification is still to come or all is over; while it reads, it keeps `loop_` from
    being cleared. -/
def StarterPc.meets : StarterPc → ThreadFuncPc → Bool
  | .constructed, thread | .spawning, thread => thread == .notStarted
  | .semWait, thread => thread != .notStarted
  | .aborted, _ => false
  | .started, thread | .relocking, thread => thread.posted
  | .testing, thread => thread.posted && !thread.locks
  | .waiting, thread => thread.posted && (thread == .notifying || !thread.published)
  | .reading, thread => thread == .looping
  | .running, thread | .quitting, thread | .joining, thread | .destroyed, thread =>
    thread.handedOver

def holder (owner : StarterPc) (thread : ThreadFuncPc) : Option MutexHolder :=
  if owner.locks then some .owner else if thread.locks then some .thread else none

theorem holder_eq_none {owner : StarterPc} {thread : ThreadFuncPc} :
    holder owner thread = none ↔ owner.locks = false ∧ thread.locks = false := by
  cases howner : owner.locks <;> cases hthread : thread.locks <;> simp [holder, howner, hthread]

/-- The mutex excludes. -/
theorem StarterPc.meets_locks {owner : StarterPc} {thread : ThreadFuncPc}
    (h : owner.meets thread = true) (hthread : thread.locks = true) : owner.locks = false := by
  cases owner with
  | testing => simp [meets, hthread] at h
  | reading =>
    rw [eq_of_beq h] at hthread
    cases hthread
  | _ => rfl

/-- `loop_` is set and the mutex free: the new thread is in `loop()`. -/
theorem ThreadFuncPc.eq_looping {thread : ThreadFuncPc} (hset : thread.published = true)
    (hunlocked : thread.locks = false) : thread = .looping := by
  cases thread <;>
    first | rfl | exact absurd hset (by decide) | exact absurd hunlocked (by decide)

/-- The new thread goes on, its notification apart. -/
inductive ThreadFuncPc.Next : ThreadFuncPc → ThreadFuncPc → Prop where
  | storeTid : Next .entered .posting
  | semPost : Next .posting .constructing
  | construct : Next .constructing .inCallback
  | lockToPublish : Next .inCallback .publishing
  | publish : Next .publishing .notifying
  | unlockPublished : Next .unlocking .looping
  | lockToClear : Next .looping .clearing
  | clear : Next .clearing .leaving
  | leave : Next .leaving .exited

/-- It may, if a lock that it takes is free. -/
theorem StarterPc.meets_next {owner : StarterPc} {thread next : ThreadFuncPc}
    (h : owner.meets thread = true) (hnext : thread.Next next)
    (hfree : thread.locks = false → next.locks = true → owner.locks = false) :
    owner.meets next = true := by
  cases hnext <;> cases owner <;>
    first | exact h | rfl | exact absurd (hfree rfl rfl) (by decide)

namespace EventLoopThread

variable {ι F : Type} {s t : EventLoopThread ι F} {a : StartLoopAct ι F}

structure Inv (s : EventLoopThread ι F) : Prop where
  meets : s.owner.meets s.thread = true
  mutex : s.mutex = holder s.owner s.thread
  loop : s.loop = s.thread.published
  sem : s.sem = if s.owner = .semWait ∧ s.thread.posted = true then 1 else 0
  tid : s.thread ≠ .notStarted → s.thread ≠ .entered → 0 < s.tid

theorem Inv.start : (start : EventLoopThread ι F).Inv :=
  ⟨rfl, rfl, rfl, rfl, fun h => absurd rfl h⟩

theorem Inv.free (h : s.Inv) (hmutex : s.mutex = none) :
    s.owner.locks = false ∧ s.thread.locks = false :=
  holder_eq_none.mp (h.mutex.symm.trans hmutex)

theorem Inv.posted_of_sem (h : s.Inv) (hsem : 0 < s.sem) : s.thread.posted = true := by
  by_contra hnot
  rw [h.sem, if_neg fun hboth => hnot hboth.2] at hsem
  exact Nat.lt_irrefl 0 hsem

theorem Inv.tid_of_posted (h : s.Inv) (hposted : s.thread.posted = true) : 0 < s.tid := by
  apply h.tid <;>
  · intro hthread
    rw [hthread] at hposted
    cases hposted

/-- The owner gets the mutex, on the way into the loop or out of `cv_.wait`. -/
theorem Inv.lockToTest (h : s.Inv) (hposted : s.thread.posted = true)
    (howner : s.owner ≠ .semWait) (hfree : s.mutex = none) :
    ({ s with owner := .testing, mutex := some .owner } : EventLoopThread ι F).Inv := by
  have hunlocked := (h.free hfree).2
  have hsem := h.sem
  rw [if_neg fun hboth => howner hboth.1] at hsem
  exact ⟨by simp [StarterPc.meets, hposted, hunlocked], rfl, h.loop, hsem, h.tid⟩

/-- The new thread goes on without touching the mutex. -/
theorem Inv.goOn (h : s.Inv) {next : ThreadFuncPc} (hnext : s.thread.Next next)
    (hlocks : next.locks = s.thread.locks) (hposted : s.thread.posted = true)
    (hposted' : next.posted = true) :
    ({ s with thread := next, loop := next.published } : EventLoopThread ι F).Inv := by
  have hmutex := h.mutex
  have hsem := h.sem
  rw [holder, ← hlocks, ← holder] at hmutex
  rw [hposted] at hsem
  refine ⟨StarterPc.meets_next h.meets hnext fun hunlocked hlocked => ?_, hmutex, rfl, ?_, ?_⟩
  · rw [hlocks, hunlocked] at hlocked
    cases hlocked
  · change s.sem = if s.owner = .semWait ∧ next.posted = true then 1 else 0
    rw [hposted']
    exact hsem
  · intro _ _
    exact h.tid_of_posted hposted

/-- **One step keeps the monitor's invariant.** -/
theorem Inv.step (h : s.Inv) (hstep : s.step a = some t) : t.Inv := by
  cases a with
  | startLoop =>
    simp only [EventLoopThread.step, Option.ite_none_right_eq_some, Option.some.injEq] at hstep
    obtain ⟨howner, rfl⟩ := hstep
    obtain ⟨hmeets, hmutex, hloop, hsem, htid⟩ := h
    rw [howner] at hmeets hmutex hsem
    exact ⟨hmeets, hmutex, hloop, hsem, htid⟩
  | spawn =>
    simp only [EventLoopThread.step, Option.ite_none_right_eq_some, Option.some.injEq] at hstep
    obtain ⟨howner, rfl⟩ := hstep
    obtain ⟨hmeets, hmutex, hloop, hsem, _⟩ := h
    rw [howner] at hmeets hmutex hsem
    rw [eq_of_beq hmeets] at hmutex hloop
    exact ⟨rfl, hmutex, hloop, hsem, fun _ hne => absurd rfl hne⟩
  | semWait =>
    simp only [EventLoopThread.step, Option.ite_none_right_eq_some, Option.some.injEq] at hstep
    obtain ⟨⟨howner, hpos⟩, rfl⟩ := hstep
    have hposted := h.posted_of_sem hpos
    have htid := h.tid_of_posted hposted
    obtain ⟨_, hmutex, hloop, hsem, _⟩ := h
    rw [howner] at hmutex hsem
    rw [if_pos ⟨rfl, hposted⟩] at hsem
    rw [if_pos htid]
    exact ⟨hposted, hmutex, hloop, by rw [hsem]; rfl, fun _ _ => htid⟩
  | lock =>
    simp only [EventLoopThread.step, Option.ite_none_right_eq_some, Option.some.injEq] at hstep
    obtain ⟨⟨howner, hfree⟩, rfl⟩ := hstep
    have hmeets := h.meets
    rw [howner] at hmeets
    exact h.lockToTest hmeets (by simp [howner]) hfree
  | relock =>
    simp only [EventLoopThread.step, Option.ite_none_right_eq_some, Option.some.injEq] at hstep
    obtain ⟨⟨howner, hfree⟩, rfl⟩ := hstep
    have hmeets := h.meets
    rw [howner] at hmeets
    exact h.lockToTest hmeets (by simp [howner]) hfree
  | test =>
    simp only [EventLoopThread.step, Option.ite_none_right_eq_some] at hstep
    obtain ⟨howner, hstep⟩ := hstep
    obtain ⟨hmeets, hmutex, hloop, hsem, htid⟩ := h
    rw [howner] at hmeets hmutex hsem
    obtain ⟨hposted, hunlocked⟩ := Bool.and_eq_true_iff.mp hmeets
    split at hstep
    · rename_i hset
      cases hstep
      have hlooping := ThreadFuncPc.eq_looping (hloop ▸ hset) (by simpa using hunlocked)
      exact ⟨beq_iff_eq.mpr hlooping, hmutex, hloop, hsem, htid⟩
    · rename_i hunset
      cases hstep
      rw [hloop] at hunset
      refine ⟨?_, ?_, hloop, hsem, htid⟩
      · simp [StarterPc.meets, hposted, eq_false_of_ne_true hunset]
      · exact (holder_eq_none.mpr ⟨rfl, by simpa using hunlocked⟩).symm
  | wakeSpuriously =>
    simp only [EventLoopThread.step, Option.ite_none_right_eq_some, Option.some.injEq] at hstep
    obtain ⟨howner, rfl⟩ := hstep
    obtain ⟨hmeets, hmutex, hloop, hsem, htid⟩ := h
    rw [howner] at hmeets hmutex hsem
    exact ⟨(Bool.and_eq_true_iff.mp hmeets).1, hmutex, hloop, hsem, htid⟩
  | unlock =>
    simp only [EventLoopThread.step, Option.ite_none_right_eq_some, Option.some.injEq] at hstep
    obtain ⟨howner, rfl⟩ := hstep
    obtain ⟨hmeets, hmutex, hloop, hsem, htid⟩ := h
    rw [howner] at hmeets hsem
    have hthread := eq_of_beq hmeets
    refine ⟨?_, ?_, hloop, hsem, htid⟩
    · rw [hthread]
      rfl
    · rw [hthread]
      rfl
  | storeTid tid =>
    simp only [EventLoopThread.step, Option.ite_none_right_eq_some, Option.some.injEq] at hstep
    obtain ⟨⟨hthread, htid⟩, rfl⟩ := hstep
    obtain ⟨hmeets, hmutex, hloop, hsem, _⟩ := h
    rw [hthread] at hmeets hmutex hloop hsem
    exact ⟨StarterPc.meets_next hmeets .storeTid (fun _ hlocks => nomatch hlocks), hmutex, hloop,
      hsem, fun _ _ => htid⟩
  | semPost =>
    simp only [EventLoopThread.step, Option.ite_none_right_eq_some, Option.some.injEq] at hstep
    obtain ⟨hthread, rfl⟩ := hstep
    obtain ⟨hmeets, hmutex, hloop, hsem, htid⟩ := h
    rw [hthread] at hmeets hmutex hloop hsem htid
    have howner : s.owner = .semWait := by
      cases howner : s.owner <;> rw [howner] at hmeets <;> first | rfl | cases hmeets
    refine ⟨StarterPc.meets_next hmeets .semPost (fun _ hlocks => nomatch hlocks), hmutex, hloop,
      ?_, fun _ _ => htid (by decide) (by decide)⟩
    rw [hsem, if_neg fun hboth => nomatch hboth.2]
    exact (if_pos ⟨howner, rfl⟩).symm
  | construct =>
    simp only [EventLoopThread.step, Option.ite_none_right_eq_some, Option.some.injEq] at hstep
    obtain ⟨hthread, rfl⟩ := hstep
    have hgoOn := h.goOn (hthread ▸ ThreadFuncPc.Next.construct) (by rw [hthread]; rfl)
      (by rw [hthread]; rfl) rfl
    have hloop : s.loop = ThreadFuncPc.inCallback.published := by
      rw [h.loop, hthread]
      rfl
    rwa [← hloop] at hgoOn
  | publish =>
    simp only [EventLoopThread.step, Option.ite_none_right_eq_some, Option.some.injEq] at hstep
    obtain ⟨hthread, rfl⟩ := hstep
    exact h.goOn (hthread ▸ ThreadFuncPc.Next.publish) (by rw [hthread]; rfl)
      (by rw [hthread]; rfl) rfl
  | clear =>
    simp only [EventLoopThread.step, Option.ite_none_right_eq_some, Option.some.injEq] at hstep
    obtain ⟨hthread, rfl⟩ := hstep
    exact h.goOn (hthread ▸ ThreadFuncPc.Next.clear) (by rw [hthread]; rfl)
      (by rw [hthread]; rfl) rfl
  | lockToPublish =>
    simp only [EventLoopThread.step, Option.ite_none_right_eq_some, Option.some.injEq] at hstep
    obtain ⟨⟨hthread, hfree⟩, rfl⟩ := hstep
    have hunlocked := (h.free hfree).1
    obtain ⟨hmeets, _, hloop, hsem, htid⟩ := h
    rw [hthread] at hmeets hloop hsem htid
    exact ⟨StarterPc.meets_next hmeets .lockToPublish fun _ _ => hunlocked,
      by simp [holder, hunlocked, ThreadFuncPc.locks], hloop, hsem,
      fun _ _ => htid (by decide) (by decide)⟩
  | lockToClear =>
    simp only [EventLoopThread.step, Option.ite_none_right_eq_some, Option.some.injEq] at hstep
    obtain ⟨⟨hthread, _, hfree⟩, rfl⟩ := hstep
    have hunlocked := (h.free hfree).1
    obtain ⟨hmeets, _, hloop, hsem, htid⟩ := h
    rw [hthread] at hmeets hloop hsem htid
    exact ⟨StarterPc.meets_next hmeets .lockToClear fun _ _ => hunlocked,
      by simp [holder, hunlocked, ThreadFuncPc.locks], hloop, hsem,
      fun _ _ => htid (by decide) (by decide)⟩
  | notifyOne =>
    simp only [EventLoopThread.step, Option.ite_none_right_eq_some, Option.some.injEq] at hstep
    obtain ⟨hthread, rfl⟩ := hstep
    obtain ⟨hmeets, hmutex, hloop, hsem, htid⟩ := h
    rw [hthread] at hmeets hmutex hloop hsem htid
    have htid := htid (by decide) (by decide)
    cases howner : s.owner <;> rw [howner] at hmeets hmutex hsem <;>
      first
      | exact ⟨rfl, hmutex, hloop, hsem, fun _ _ => htid⟩
      | cases hmeets
  | unlockPublished =>
    simp only [EventLoopThread.step, Option.ite_none_right_eq_some, Option.some.injEq] at hstep
    obtain ⟨hthread, rfl⟩ := hstep
    have hunlocked := StarterPc.meets_locks h.meets (by rw [hthread]; rfl)
    obtain ⟨hmeets, _, hloop, hsem, htid⟩ := h
    rw [hthread] at hmeets hloop hsem htid
    exact ⟨StarterPc.meets_next hmeets .unlockPublished fun _ _ => hunlocked,
      (holder_eq_none.mpr ⟨hunlocked, rfl⟩).symm, hloop, hsem,
      fun _ _ => htid (by decide) (by decide)⟩
  | leave =>
    simp only [EventLoopThread.step, Option.ite_none_right_eq_some, Option.some.injEq] at hstep
    obtain ⟨hthread, rfl⟩ := hstep
    have hunlocked := StarterPc.meets_locks h.meets (by rw [hthread]; rfl)
    obtain ⟨hmeets, _, hloop, hsem, htid⟩ := h
    rw [hthread] at hmeets hloop hsem htid
    exact ⟨StarterPc.meets_next hmeets .leave fun _ _ => hunlocked,
      (holder_eq_none.mpr ⟨hunlocked, rfl⟩).symm, hloop, hsem,
      fun _ _ => htid (by decide) (by decide)⟩
  | callbackQueue | callbackQuit =>
    simp only [EventLoopThread.step, Option.ite_none_right_eq_some, Option.some.injEq] at hstep
    obtain ⟨_, rfl⟩ := hstep
    exact ⟨h.meets, h.mutex, h.loop, h.sem, h.tid⟩
  | loop a =>
    simp only [EventLoopThread.step, Option.ite_none_right_eq_some] at hstep
    obtain ⟨_, hstep⟩ := hstep
    obtain ⟨sys, _, rfl⟩ := Option.map_eq_some_iff.mp hstep
    exact ⟨h.meets, h.mutex, h.loop, h.sem, h.tid⟩
  | destroy =>
    simp only [EventLoopThread.step, Option.ite_none_right_eq_some] at hstep
    obtain ⟨howner, hstep⟩ := hstep
    obtain ⟨hmeets, hmutex, hloop, hsem, htid⟩ := h
    rw [howner] at hmeets hmutex hsem
    split at hstep
    · obtain ⟨sys, _, rfl⟩ := Option.map_eq_some_iff.mp hstep
      exact ⟨hmeets, hmutex, hloop, hsem, htid⟩
    · cases hstep
      exact ⟨hmeets, hmutex, hloop, hsem, htid⟩
  | destroyWakeup =>
    simp only [EventLoopThread.step, Option.ite_none_right_eq_some] at hstep
    obtain ⟨howner, hstep⟩ := hstep
    obtain ⟨hmeets, hmutex, hloop, hsem, htid⟩ := h
    rw [howner] at hmeets hmutex hsem
    obtain ⟨sys, _, rfl⟩ := Option.map_eq_some_iff.mp hstep
    exact ⟨hmeets, hmutex, hloop, hsem, htid⟩
  | join =>
    simp only [EventLoopThread.step, Option.ite_none_right_eq_some, Option.some.injEq] at hstep
    obtain ⟨⟨howner, _⟩, rfl⟩ := hstep
    obtain ⟨hmeets, hmutex, hloop, hsem, htid⟩ := h
    rw [howner] at hmeets hmutex hsem
    exact ⟨hmeets, hmutex, hloop, hsem, htid⟩

theorem Inv.of_run {acts : List (StartLoopAct ι F)}
    (hrun : Runs.run EventLoopThread.step EventLoopThread.start acts = some s) : s.Inv :=
  Runs.run_induction (fun _ _ _ h hstep => h.step hstep) .start hrun

/-! ### It is the hand-over of `LoopThread` -/

/-- Under the mutex `loop_` is not cleared before `loop()` has returned. -/
def Over (s : EventLoopThread ι F) : Prop := s.thread = .clearing → s.sys.loop.pc = .returned

/-- Who has the loop from `startLoop()` does not move its thread. -/
theorem called_of_mayAct {b : LoopAct ι F} {sys : LoopSystem ι F} (hmay : s.MayAct b)
    (hthread : s.thread ≠ .looping) (hstep : s.sys.step b = some sys) :
    s.sys.loop.Called sys.loop := by
  rcases LoopSystem.step_cases hstep with ⟨c, rfl, _⟩ | ⟨_, hcalled⟩
  · exact absurd hmay hthread
  · exact hcalled

theorem Over.step (h : s.Over) (hstep : s.step a = some t) : t.Over := by
  cases a with
  | startLoop | semWait | lock | wakeSpuriously | relock | unlock | join =>
    simp only [EventLoopThread.step, Option.ite_none_right_eq_some, Option.some.injEq] at hstep
    obtain ⟨_, rfl⟩ := hstep
    exact h
  | test =>
    simp only [EventLoopThread.step, Option.ite_none_right_eq_some] at hstep
    obtain ⟨_, hstep⟩ := hstep
    split at hstep <;> cases hstep <;> exact h
  | spawn | storeTid | semPost | construct | lockToPublish | publish | notifyOne
  | unlockPublished | clear | leave =>
    simp only [EventLoopThread.step, Option.ite_none_right_eq_some, Option.some.injEq] at hstep
    obtain ⟨_, rfl⟩ := hstep
    exact fun hclearing => nomatch hclearing
  | callbackQueue | callbackQuit =>
    simp only [EventLoopThread.step, Option.ite_none_right_eq_some, Option.some.injEq] at hstep
    obtain ⟨hthread, rfl⟩ := hstep
    exact fun hclearing => nomatch hthread.symm.trans hclearing
  | lockToClear =>
    simp only [EventLoopThread.step, Option.ite_none_right_eq_some, Option.some.injEq] at hstep
    obtain ⟨⟨_, hreturned, _⟩, rfl⟩ := hstep
    exact fun _ => hreturned
  | loop b =>
    simp only [EventLoopThread.step, Option.ite_none_right_eq_some] at hstep
    obtain ⟨hmay, hstep⟩ := hstep
    obtain ⟨sys, hsys, rfl⟩ := Option.map_eq_some_iff.mp hstep
    intro hclearing
    have hcalled := called_of_mayAct hmay (by simp [show s.thread = .clearing from hclearing]) hsys
    exact hcalled.pc.trans (h hclearing)
  | destroy =>
    simp only [EventLoopThread.step, Option.ite_none_right_eq_some] at hstep
    obtain ⟨_, hstep⟩ := hstep
    split at hstep
    · obtain ⟨sys, hsys, rfl⟩ := Option.map_eq_some_iff.mp hstep
      rcases LoopSystem.step_cases hsys with ⟨c, hc, _⟩ | ⟨_, hcalled⟩
      · cases hc
      · exact fun hclearing => hcalled.pc.trans (h hclearing)
    · cases hstep
      exact h
  | destroyWakeup =>
    simp only [EventLoopThread.step, Option.ite_none_right_eq_some] at hstep
    obtain ⟨_, hstep⟩ := hstep
    obtain ⟨sys, hsys, rfl⟩ := Option.map_eq_some_iff.mp hstep
    rcases LoopSystem.step_cases hsys with ⟨c, hc, _⟩ | ⟨_, hcalled⟩
    · cases hc
    · exact fun hclearing => hcalled.pc.trans (h hclearing)

/-- The owner has the loop when it has seen that `loop_` is not null. -/
def viewOwner : StarterPc → OwnerPc
  | .constructed | .spawning => .constructed
  | .semWait | .aborted | .started | .testing | .waiting | .relocking => .starting
  | .reading | .running => .running
  | .quitting => .quitting
  | .joining => .joining
  | .destroyed => .destroyed

def viewThread : ThreadFuncPc → ThreadPc
  | .notStarted => .notStarted
  | .entered | .posting | .constructing => .constructing
  | .inCallback | .publishing => .inCallback
  | .notifying | .unlocking | .looping | .clearing => .published
  | .leaving | .exited => .finished

def view (s : EventLoopThread ι F) : LoopThread ι F where
  sys := s.sys
  thread := viewThread s.thread
  owner := viewOwner s.owner
  requested := s.requested

/-- The steps of `LoopThread` that a step amounts to. -/
def answer (s : EventLoopThread ι F) : StartLoopAct ι F → List (LoopThreadAct ι F)
  | .spawn => [.startLoop]
  | .construct => [.construct]
  | .callbackQueue cb => [.callbackQueue cb]
  | .callbackQuit => [.callbackQuit]
  | .publish => [.publish]
  | .test => if s.loop then [.obtain] else []
  | .clear => [.finish]
  | .loop a => [.loop a]
  | .destroy => [.destroy]
  | .destroyWakeup => [.destroyWakeup]
  | .join => [.join]
  | .startLoop | .semWait | .lock | .wakeSpuriously | .relock | .unlock | .storeTid _ | .semPost
  | .lockToPublish | .notifyOne | .unlockPublished | .lockToClear | .leave => []

/-- What a step does with the loop itself. -/
def loopUse : StartLoopAct ι F → List (LoopThreadAct ι F)
  | .callbackQueue cb => [.callbackQueue cb]
  | .callbackQuit => [.callbackQuit]
  | .loop a => [.loop a]
  | .destroy => [.destroy]
  | .destroyWakeup => [.destroyWakeup]
  | _ => []

/-- The same, of a step of `LoopThread`. -/
def viewLoopUse : LoopThreadAct ι F → List (LoopThreadAct ι F)
  | .callbackQueue cb => [.callbackQueue cb]
  | .callbackQuit => [.callbackQuit]
  | .loop a => [.loop a]
  | .destroy => [.destroy]
  | .destroyWakeup => [.destroyWakeup]
  | _ => []

theorem Inv.view_published (h : s.Inv) : s.view.thread = .published ↔ s.loop = true := by
  change viewThread s.thread = .published ↔ s.loop = true
  rw [h.loop]
  cases s.thread <;> decide

theorem view_hasLoop {th : ThreadId} (h : s.HasLoop th) : s.view.HasLoop th := by
  unfold HasLoop at h
  unfold LoopThread.HasLoop
  split at h
  · rename_i hth
    rw [if_pos hth, view, h]
    rfl
  · rename_i hth
    rw [if_neg hth]
    rcases h with h | h | h | h <;> rw [view, h] <;> exact ⟨nofun, nofun⟩

theorem Inv.view_mayAct (h : s.Inv) {b : LoopAct ι F} (hmay : s.MayAct b) :
    s.view.thread = .published ∧ s.view.MayAct b := by
  cases b with
  | push | wakeup | quit => exact ⟨h.view_published.mpr hmay.2, view_hasLoop hmay.1⟩
  | advance | selfPush | selfWakeup | selfQuit =>
    refine ⟨?_, trivial⟩
    rw [view, show s.thread = .looping from hmay]
    rfl

theorem view_step (h : s.Inv) (hover : s.Over) (hstep : s.step a = some t) :
    Runs.run LoopThread.step s.view (s.answer a) = some t.view := by
  cases a with
  | startLoop | lock | wakeSpuriously | relock | unlock =>
    simp only [EventLoopThread.step, Option.ite_none_right_eq_some, Option.some.injEq] at hstep
    obtain ⟨hguard, rfl⟩ := hstep
    simp [answer, view, viewOwner, hguard]
  | semWait =>
    simp only [EventLoopThread.step, Option.ite_none_right_eq_some, Option.some.injEq] at hstep
    obtain ⟨⟨howner, hpos⟩, rfl⟩ := hstep
    simp [answer, view, viewOwner, howner, h.tid_of_posted (h.posted_of_sem hpos)]
  | storeTid | semPost | lockToPublish | unlockPublished | lockToClear | leave =>
    simp only [EventLoopThread.step, Option.ite_none_right_eq_some, Option.some.injEq] at hstep
    obtain ⟨hguard, rfl⟩ := hstep
    simp [answer, view, viewThread, hguard]
  | notifyOne =>
    simp only [EventLoopThread.step, Option.ite_none_right_eq_some, Option.some.injEq] at hstep
    obtain ⟨hthread, rfl⟩ := hstep
    have howner : viewOwner (if s.owner = .waiting then .relocking else s.owner)
        = viewOwner s.owner := by
      split
      · rename_i hwaiting
        rw [hwaiting]
        rfl
      · rfl
    simp [answer, view, viewThread, hthread, howner]
  | spawn =>
    simp only [EventLoopThread.step, Option.ite_none_right_eq_some, Option.some.injEq] at hstep
    obtain ⟨howner, rfl⟩ := hstep
    simp [answer, view, viewOwner, viewThread, LoopThread.step, howner]
  | construct | publish | callbackQueue | callbackQuit =>
    simp only [EventLoopThread.step, Option.ite_none_right_eq_some, Option.some.injEq] at hstep
    obtain ⟨hthread, rfl⟩ := hstep
    simp [answer, view, viewThread, LoopThread.step, hthread]
  | test =>
    simp only [EventLoopThread.step, Option.ite_none_right_eq_some] at hstep
    obtain ⟨howner, hstep⟩ := hstep
    split at hstep
    · rename_i hset
      cases hstep
      have hpublished := h.view_published.mpr hset
      rw [answer, if_pos hset, Runs.run_singleton, LoopThread.step,
        if_pos ⟨by rw [view, howner]; rfl, hpublished⟩]
      rfl
    · rename_i hunset
      cases hstep
      simp [answer, view, viewOwner, howner, hunset]
  | clear =>
    simp only [EventLoopThread.step, Option.ite_none_right_eq_some, Option.some.injEq] at hstep
    obtain ⟨hthread, rfl⟩ := hstep
    simp [answer, view, viewThread, LoopThread.step, hthread, hover hthread]
  | loop b =>
    simp only [EventLoopThread.step, Option.ite_none_right_eq_some] at hstep
    obtain ⟨hmay, hstep⟩ := hstep
    obtain ⟨sys, hsys, rfl⟩ := Option.map_eq_some_iff.mp hstep
    rw [answer, Runs.run_singleton, LoopThread.step, if_pos (h.view_mayAct hmay)]
    simp [view, hsys]
  | destroy =>
    simp only [EventLoopThread.step, Option.ite_none_right_eq_some] at hstep
    obtain ⟨howner, hstep⟩ := hstep
    rw [answer, Runs.run_singleton, LoopThread.step, if_pos (by rw [view, howner]; rfl)]
    split at hstep
    · rename_i hset
      obtain ⟨sys, hsys, rfl⟩ := Option.map_eq_some_iff.mp hstep
      rw [if_pos (h.view_published.mpr hset)]
      simp [view, viewOwner, hsys]
    · rename_i hunset
      cases hstep
      rw [if_neg fun hpublished => hunset (h.view_published.mp hpublished)]
      rfl
  | destroyWakeup =>
    simp only [EventLoopThread.step, Option.ite_none_right_eq_some] at hstep
    obtain ⟨howner, hstep⟩ := hstep
    obtain ⟨sys, hsys, rfl⟩ := Option.map_eq_some_iff.mp hstep
    simp [answer, view, viewOwner, LoopThread.step, howner, hsys]
  | join =>
    simp only [EventLoopThread.step, Option.ite_none_right_eq_some, Option.some.injEq] at hstep
    obtain ⟨⟨howner, hthread⟩, rfl⟩ := hstep
    simp [answer, view, viewOwner, viewThread, LoopThread.step, howner, hthread]

/-- The step and its answer do the same with the loop. -/
theorem answer_loopUse (s : EventLoopThread ι F) (a : StartLoopAct ι F) :
    (s.answer a).flatMap viewLoopUse = loopUse a := by
  cases a with
  | test =>
    simp only [answer, loopUse]
    split <;> rfl
  | _ => rfl

/-- **The monitor simulates the hand-over in one step.** -/
theorem simulation : Runs.Simulation (@EventLoopThread.step ι F) LoopThread.step answer
    (fun _ => loopUse) (fun _ => viewLoopUse)
    fun s u => s.Inv ∧ s.Over ∧ u = s.view := by
  constructor
  rintro s t a _ ⟨hinv, hover, rfl⟩ hstep
  have hrun := view_step hinv hover hstep
  refine ⟨t.view, hrun, ?_, hinv.step hstep, hover.step hstep, rfl⟩
  rw [Runs.outputs_eq_flatMap hrun]
  exact answer_loopUse s a

/-- **The monitor refines the hand-over.**  Every run of the two threads is answered by a
    run of `LoopThread` that comes to the same loop, and does the same with it on the way:
    the calls of the init callback, the steps of the loop and of those who use it, and the
    two halves of the owner's `quit()`. -/
theorem refines_loopThread {acts : List (StartLoopAct ι F)}
    (hrun : Runs.run EventLoopThread.step start acts = some s) :
    ∃ as, Runs.run LoopThread.step LoopThread.start as = some s.view
      ∧ as.flatMap viewLoopUse = acts.flatMap loopUse := by
  have hstart : (start : EventLoopThread ι F).Inv ∧ (start : EventLoopThread ι F).Over
      ∧ LoopThread.start = (start : EventLoopThread ι F).view :=
    ⟨.start, nofun, rfl⟩
  obtain ⟨_, hanswer, houtputs, _, _, rfl⟩ := simulation.trace hstart hrun
  refine ⟨_, hanswer, ?_⟩
  rw [← Runs.outputs_eq_flatMap hanswer, houtputs, Runs.outputs_eq_flatMap hrun]

/-- The owner goes to sleep, wakes up by itself while the loop is being made, and gets it; then
    it queues a functor behind the one of the init callback, and destroys the thread. -/
def sleptOnce : List (StartLoopAct Nat Nat) :=
  [.startLoop, .spawn, .storeTid 42, .semPost, .semWait, .lock, .test, .wakeSpuriously,
    .construct, .callbackQueue 7, .relock, .test, .lockToPublish, .publish, .notifyOne,
    .unlockPublished, .loop (.advance .enter), .relock, .test, .unlock, .loop (.push 0 8),
    .loop (.wakeup 0), .loop (.advance .resetQuit), .destroy, .destroyWakeup]

theorem refines_loopThread_sleptOnce :
    ∃ s, Runs.run EventLoopThread.step start sleptOnce = some s ∧ s.owner = .joining
      ∧ ∃ as, Runs.run LoopThread.step LoopThread.start as = some s.view
        ∧ as.flatMap viewLoopUse = sleptOnce.flatMap loopUse :=
  ⟨_, rfl, rfl, refines_loopThread rfl⟩

end EventLoopThread

/-! ### What is queued before the loop is handed over -/

namespace LoopSystem

variable {ι F : Type} {s t : LoopSystem ι F}

/-- The part of `Inv` that does not speak of wakeups: a functor that the init callback
    queues is not woken up for. -/
structure Ordered (s : LoopSystem ι F) : Prop where
  wf : s.loop.WF
  order : s.functorQueue.pushed = s.pushed

theorem Ordered.start : (start : LoopSystem ι F).Ordered := ⟨.new, rfl⟩

theorem Ordered.step {a : LoopAct ι F} (h : s.Ordered) (hstep : s.step a = some t) :
    t.Ordered := by
  obtain ⟨hwf, horder⟩ := h
  cases steps hstep with
  | advance _ a l hl =>
    obtain ⟨hwf', hpop⟩ := hwf.advance hl
    refine ⟨hwf', ?_⟩
    simp only [functorQueue, Fifo.pushed] at horder ⊢
    rw [← horder, hpop, List.append_assoc]
  | selfPush _ cb | push _ _ cb =>
    refine ⟨hwf.pushBack cb, ?_⟩
    simp only [functorQueue, Fifo.pushed, EventLoop.pushBack_waiting] at horder ⊢
    rw [← List.append_assoc, horder]
  | selfWakeup =>
    exact ⟨hwf.wakeupIfNeeded true,
      by simpa only [functorQueue, EventLoop.wakeupIfNeeded_waiting] using horder⟩
  | wakeup =>
    exact ⟨hwf.wakeupIfNeeded false,
      by simpa only [functorQueue, EventLoop.wakeupIfNeeded_waiting] using horder⟩
  | quitWakeup => exact ⟨hwf.wakeup, horder⟩
  | selfQuit | quit => exact ⟨⟨hwf.batch, hwf.flag⟩, horder⟩

/-- `queueInLoop` by the init callback. -/
theorem Ordered.callbackQueue (h : s.Ordered) (cb : F) :
    ({ s with loop := s.loop.queueInLoop true cb, pushed := s.pushed ++ [cb] } :
      LoopSystem ι F).Ordered := by
  refine ⟨(h.wf.pushBack cb).wakeupIfNeeded true, ?_⟩
  have horder := h.order
  simp only [functorQueue, Fifo.pushed, EventLoop.queueInLoop, EventLoop.wakeupIfNeeded_waiting,
    EventLoop.pushBack_waiting] at horder ⊢
  rw [← List.append_assoc, horder]

end LoopSystem

namespace LoopThread

variable {ι F : Type} {s t : LoopThread ι F} {a : LoopThreadAct ι F}

theorem ordered_step (h : s.sys.Ordered) (hstep : s.step a = some t) : t.sys.Ordered := by
  cases a with
  | startLoop | construct | publish | obtain | finish | join =>
    simp only [step, Option.ite_none_right_eq_some, Option.some.injEq] at hstep
    obtain ⟨_, rfl⟩ := hstep
    exact h
  | callbackQueue cb =>
    simp only [step, Option.ite_none_right_eq_some, Option.some.injEq] at hstep
    obtain ⟨_, rfl⟩ := hstep
    exact h.callbackQueue cb
  | callbackQuit =>
    simp only [step, Option.ite_none_right_eq_some, Option.some.injEq] at hstep
    obtain ⟨_, rfl⟩ := hstep
    exact ⟨⟨h.wf.batch, h.wf.flag⟩, h.order⟩
  | loop | destroyWakeup =>
    simp only [step, Option.ite_none_right_eq_some] at hstep
    obtain ⟨_, hstep⟩ := hstep
    obtain ⟨sys, hsys, rfl⟩ := Option.map_eq_some_iff.mp hstep
    exact h.step hsys
  | destroy =>
    simp only [step, Option.ite_none_right_eq_some] at hstep
    obtain ⟨_, hstep⟩ := hstep
    split at hstep
    · obtain ⟨sys, hsys, rfl⟩ := Option.map_eq_some_iff.mp hstep
      exact h.step hsys
    · cases hstep
      exact h

end LoopThread

namespace EventLoopThread

variable {ι F : Type} {s t : EventLoopThread ι F} {a : StartLoopAct ι F}

def callbackQueued : StartLoopAct ι F → List F
  | .callbackQueue cb => [cb]
  | _ => []

/-- Queued by a thread that has the loop, or by the loop's own. -/
def userQueued : StartLoopAct ι F → List F
  | .loop (.push _ cb) | .loop (.selfPush cb) => [cb]
  | _ => []

/-- The init callback has not returned. -/
def beforePublishing : ThreadFuncPc → Bool
  | .notStarted | .entered | .posting | .constructing | .inCallback => true
  | _ => false

theorem pushed_step (hstep : s.step a = some t) :
    t.sys.pushed = s.sys.pushed ++ (callbackQueued a ++ userQueued a) := by
  have hsys : ∀ {b : LoopAct ι F} {sys : LoopSystem ι F}, s.sys.step b = some sys →
      sys.pushed = s.sys.pushed ++ LoopSystem.pushes b := by
    intro b sys hsys
    cases LoopSystem.steps hsys <;> simp [LoopSystem.pushes]
  cases a with
  | startLoop | spawn | semWait | lock | wakeSpuriously | relock | unlock | storeTid | semPost
  | construct | callbackQuit | lockToPublish | publish | notifyOne | unlockPublished | lockToClear
  | clear | leave | join =>
    simp only [EventLoopThread.step, Option.ite_none_right_eq_some, Option.some.injEq] at hstep
    obtain ⟨_, rfl⟩ := hstep
    exact (List.append_nil _).symm
  | test =>
    simp only [EventLoopThread.step, Option.ite_none_right_eq_some] at hstep
    obtain ⟨_, hstep⟩ := hstep
    split at hstep <;> cases hstep <;> exact (List.append_nil _).symm
  | callbackQueue cb =>
    simp only [EventLoopThread.step, Option.ite_none_right_eq_some, Option.some.injEq] at hstep
    obtain ⟨_, rfl⟩ := hstep
    rfl
  | loop b =>
    simp only [EventLoopThread.step, Option.ite_none_right_eq_some] at hstep
    obtain ⟨_, hstep⟩ := hstep
    obtain ⟨sys, hb, rfl⟩ := Option.map_eq_some_iff.mp hstep
    cases b <;> exact hsys hb
  | destroy =>
    simp only [EventLoopThread.step, Option.ite_none_right_eq_some] at hstep
    obtain ⟨_, hstep⟩ := hstep
    split at hstep
    · obtain ⟨sys, hb, rfl⟩ := Option.map_eq_some_iff.mp hstep
      exact hsys hb
    · cases hstep
      exact (List.append_nil _).symm
  | destroyWakeup =>
    simp only [EventLoopThread.step, Option.ite_none_right_eq_some] at hstep
    obtain ⟨_, hstep⟩ := hstep
    obtain ⟨sys, hb, rfl⟩ := Option.map_eq_some_iff.mp hstep
    exact hsys hb

/-- The init callback has returned for good. -/
theorem Inv.beforePublishing_step (h : s.Inv) (hbefore : beforePublishing s.thread = false)
    (hstep : s.step a = some t) :
    beforePublishing t.thread = false ∧ callbackQueued a = [] := by
  cases a with
  | startLoop | semWait | lock | wakeSpuriously | relock | unlock | join =>
    simp only [EventLoopThread.step, Option.ite_none_right_eq_some, Option.some.injEq] at hstep
    obtain ⟨_, rfl⟩ := hstep
    exact ⟨hbefore, rfl⟩
  | test =>
    simp only [EventLoopThread.step, Option.ite_none_right_eq_some] at hstep
    obtain ⟨_, hstep⟩ := hstep
    split at hstep <;> cases hstep <;> exact ⟨hbefore, rfl⟩
  | spawn =>
    simp only [EventLoopThread.step, Option.ite_none_right_eq_some] at hstep
    have hmeets := h.meets
    rw [hstep.1] at hmeets
    rw [eq_of_beq hmeets] at hbefore
    cases hbefore
  | storeTid | lockToPublish =>
    simp only [EventLoopThread.step, Option.ite_none_right_eq_some] at hstep
    rw [hstep.1.1] at hbefore
    cases hbefore
  | semPost | construct | callbackQueue | callbackQuit =>
    simp only [EventLoopThread.step, Option.ite_none_right_eq_some] at hstep
    rw [hstep.1] at hbefore
    cases hbefore
  | publish | notifyOne | unlockPublished | lockToClear | clear | leave =>
    simp only [EventLoopThread.step, Option.ite_none_right_eq_some, Option.some.injEq] at hstep
    obtain ⟨_, rfl⟩ := hstep
    exact ⟨rfl, rfl⟩
  | loop | destroyWakeup =>
    simp only [EventLoopThread.step, Option.ite_none_right_eq_some] at hstep
    obtain ⟨_, hstep⟩ := hstep
    obtain ⟨sys, _, rfl⟩ := Option.map_eq_some_iff.mp hstep
    exact ⟨hbefore, rfl⟩
  | destroy =>
    simp only [EventLoopThread.step, Option.ite_none_right_eq_some] at hstep
    obtain ⟨_, hstep⟩ := hstep
    split at hstep
    · obtain ⟨sys, _, rfl⟩ := Option.map_eq_some_iff.mp hstep
      exact ⟨hbefore, rfl⟩
    · cases hstep
      exact ⟨hbefore, rfl⟩

/-- Nobody has the loop before it is published. -/
theorem Inv.not_beforePublishing (h : s.Inv) {b : LoopAct ι F} (hmay : s.MayAct b) :
    beforePublishing s.thread = false := by
  have hpublished := (h.view_mayAct hmay).1
  change viewThread s.thread = .published at hpublished
  cases hthread : s.thread <;> rw [hthread] at hpublished <;> first | rfl | cases hpublished

theorem pushed_run {acts : List (StartLoopAct ι F)} (h : s.Inv)
    (hrun : Runs.run EventLoopThread.step s acts = some t) :
    t.sys.pushed = s.sys.pushed ++ (acts.flatMap callbackQueued ++ acts.flatMap userQueued)
      ∧ (beforePublishing s.thread = false → acts.flatMap callbackQueued = []) := by
  induction acts generalizing s with
  | nil =>
    cases hrun
    exact ⟨(List.append_nil _).symm, fun _ => rfl⟩
  | cons a acts ih =>
    obtain ⟨u, hu, hrest⟩ := Option.bind_eq_some_iff.mp hrun
    obtain ⟨hpushed, hnone⟩ := ih (h.step hu) hrest
    simp only [List.flatMap_cons]
    constructor
    · rw [hpushed, pushed_step hu]
      by_cases hquiet : userQueued a = []
      · simp only [hquiet, List.nil_append, List.append_nil, List.append_assoc]
      · have hbefore : beforePublishing s.thread = false := by
          cases a with
          | loop b =>
            simp only [EventLoopThread.step, Option.ite_none_right_eq_some] at hu
            exact h.not_beforePublishing hu.1
          | _ => exact absurd rfl hquiet
        obtain ⟨hbefore', hcallback⟩ := h.beforePublishing_step hbefore hu
        simp only [hnone hbefore', hcallback, List.nil_append, List.append_assoc]
    · intro hbefore
      obtain ⟨hbefore', hcallback⟩ := h.beforePublishing_step hbefore hu
      rw [hcallback, hnone hbefore', List.nil_append]

/-- **What the init callback queues comes first.**  Whatever the two threads and the users of
    the loop do, the functors called, the rest of the batch and `pendingFunctors_` are
    together what the init callback has queued and then what the others have, in order. -/
theorem functors_in_order {acts : List (StartLoopAct ι F)}
    (hrun : Runs.run EventLoopThread.step start acts = some s) :
    s.sys.executed ++ s.sys.loop.functors ++ s.sys.loop.pendingFunctors
      = acts.flatMap callbackQueued ++ acts.flatMap userQueued := by
  have hstart : (start : EventLoopThread ι F).Inv ∧ (start : EventLoopThread ι F).Over
      ∧ LoopThread.start = (start : EventLoopThread ι F).view :=
    ⟨.start, nofun, rfl⟩
  obtain ⟨_, ⟨_, _, rfl⟩, hordered⟩ := simulation.transfer (I := fun u => u.sys.Ordered)
    (fun _ _ _ => LoopThread.ordered_step) hstart .start hrun
  rw [List.append_assoc]
  exact hordered.order.trans (pushed_run .start hrun).1

theorem functors_in_order_sleptOnce :
    ∃ s, Runs.run EventLoopThread.step start sleptOnce = some s
      ∧ s.sys.loop.pendingFunctors = [7, 8]
      ∧ s.sys.executed ++ s.sys.loop.functors ++ s.sys.loop.pendingFunctors
        = sleptOnce.flatMap callbackQueued ++ sleptOnce.flatMap userQueued :=
  ⟨_, rfl, rfl, functors_in_order rfl⟩

/-! ### `startLoop()` comes to its end -/

/-- A step of `startLoop()`, or of `threadFunc()` outside `loop()`: one that only the other
    of the two can hold up.  `lockToPublish` is the return of the init callback. -/
def isHandshake : StartLoopAct ι F → Bool
  | .startLoop | .spawn | .semWait | .lock | .test | .relock | .unlock | .storeTid _ | .semPost
  | .construct | .lockToPublish | .publish | .notifyOne | .unlockPublished | .clear | .leave =>
    true
  | _ => false

def isSpurious : StartLoopAct ι F → Bool
  | .wakeSpuriously => true
  | _ => false

/-- How many steps the owner has to go, a `cv_.wait` counting as ended. -/
def ownerToGo : StarterPc → Nat
  | .constructed => 6
  | .spawning => 5
  | .semWait => 4
  | .started | .relocking => 3
  | .testing => 2
  | .waiting | .reading => 1
  | .aborted | .running | .quitting | .joining | .destroyed => 0

/-- How many the new thread has; its notification puts the owner back by two. -/
def threadToGo : ThreadFuncPc → Nat
  | .notStarted | .entered => 11
  | .posting => 10
  | .constructing => 9
  | .inCallback => 8
  | .publishing => 7
  | .notifying => 6
  | .unlocking => 3
  | .looping | .clearing => 2
  | .leaving => 1
  | .exited => 0

def toGo (s : EventLoopThread ι F) : Nat := ownerToGo s.owner + threadToGo s.thread

theorem Inv.toGo_step (h : s.Inv) (hstep : s.step a = some t) :
    1 * (isHandshake a).toNat + t.toGo ≤ s.toGo + 2 * (isSpurious a).toNat := by
  rw [Nat.one_mul]
  cases a with
  | startLoop | lock | wakeSpuriously | relock | unlock | storeTid | semPost | construct
  | lockToPublish | publish | unlockPublished | lockToClear | clear | leave | join =>
    simp only [EventLoopThread.step, Option.ite_none_right_eq_some, Option.some.injEq] at hstep
    obtain ⟨hguard, rfl⟩ := hstep
    simp [toGo, ownerToGo, threadToGo, isHandshake, isSpurious, hguard]
    try omega
  | spawn =>
    simp only [EventLoopThread.step, Option.ite_none_right_eq_some, Option.some.injEq] at hstep
    obtain ⟨howner, rfl⟩ := hstep
    have hmeets := h.meets
    rw [howner] at hmeets
    rw [toGo, toGo, howner, eq_of_beq hmeets]
    exact Nat.le_refl 16
  | semWait =>
    simp only [EventLoopThread.step, Option.ite_none_right_eq_some, Option.some.injEq] at hstep
    obtain ⟨⟨howner, hpos⟩, rfl⟩ := hstep
    rw [if_pos (h.tid_of_posted (h.posted_of_sem hpos)), toGo, toGo, howner]
    simp [ownerToGo, isHandshake, isSpurious]
    omega
  | test =>
    simp only [EventLoopThread.step, Option.ite_none_right_eq_some] at hstep
    obtain ⟨howner, hstep⟩ := hstep
    split at hstep <;>
    · cases hstep
      rw [toGo, toGo, howner]
      simp [ownerToGo, isHandshake, isSpurious]
      omega
  | notifyOne =>
    simp only [EventLoopThread.step, Option.ite_none_right_eq_some, Option.some.injEq] at hstep
    obtain ⟨hthread, rfl⟩ := hstep
    have howner : ownerToGo (if s.owner = .waiting then .relocking else s.owner)
        ≤ ownerToGo s.owner + 2 := by
      split
      · rename_i hwaiting
        rw [hwaiting]
        decide
      · exact Nat.le_add_right _ 2
    simp only [toGo, hthread, threadToGo, isHandshake, isSpurious, Bool.toNat_true,
      Bool.toNat_false]
    omega
  | callbackQueue | callbackQuit =>
    simp only [EventLoopThread.step, Option.ite_none_right_eq_some, Option.some.injEq] at hstep
    obtain ⟨_, rfl⟩ := hstep
    exact Nat.le_of_eq (Nat.zero_add _)
  | loop =>
    simp only [EventLoopThread.step, Option.ite_none_right_eq_some] at hstep
    obtain ⟨_, hstep⟩ := hstep
    obtain ⟨sys, _, rfl⟩ := Option.map_eq_some_iff.mp hstep
    exact Nat.le_of_eq (Nat.zero_add _)
  | destroy =>
    simp only [EventLoopThread.step, Option.ite_none_right_eq_some] at hstep
    obtain ⟨howner, hstep⟩ := hstep
    have hthread : 0 + (0 + threadToGo s.thread) ≤ s.toGo := by
      rw [toGo]
      omega
    split at hstep
    · obtain ⟨sys, _, rfl⟩ := Option.map_eq_some_iff.mp hstep
      exact hthread
    · cases hstep
      exact hthread
  | destroyWakeup =>
    simp only [EventLoopThread.step, Option.ite_none_right_eq_some] at hstep
    obtain ⟨_, hstep⟩ := hstep
    obtain ⟨sys, _, rfl⟩ := Option.map_eq_some_iff.mp hstep
    change 0 + (0 + threadToGo s.thread) ≤ s.toGo
    rw [toGo]
    omega

/-- **The two threads meet in few steps**, each sleep that ends by itself costing two more. -/
theorem handshakes_le {acts : List (StartLoopAct ι F)}
    (hrun : Runs.run EventLoopThread.step start acts = some s) :
    acts.countP isHandshake ≤ 17 + 2 * acts.countP isSpurious := by
  have hkeep : ∀ (s : EventLoopThread ι F) a t, s.Inv → s.step a = some t → t.Inv :=
    fun _ _ _ h hstep => h.step hstep
  have hpays := Runs.amortized hkeep (fun _ _ _ _ h hstep => h.toGo_step hstep) .start hrun
  rw [Runs.sum_map_toNat, Runs.sum_map_toNat, Nat.one_mul] at hpays
  exact Nat.le_of_add_right_le hpays

/-- The owner is asleep for good: the loop is over. -/
def Stranded (s : EventLoopThread ι F) : Prop := s.owner = .waiting ∧ s.thread = .exited

/-- Whoever has the mutex can go on. -/
theorem exists_handshake_of_locks (hlocks : s.thread.locks = true) :
    ∃ a t, isHandshake a = true ∧ s.step a = some t := by
  cases hthread : s.thread with
  | publishing => exact ⟨.publish, _, rfl, if_pos hthread⟩
  | notifying => exact ⟨.notifyOne, _, rfl, if_pos hthread⟩
  | unlocking => exact ⟨.unlockPublished, _, rfl, if_pos hthread⟩
  | clearing => exact ⟨.clear, _, rfl, if_pos hthread⟩
  | leaving => exact ⟨.leave, _, rfl, if_pos hthread⟩
  | notStarted | entered | posting | constructing | inCallback | looping | exited =>
    rw [hthread] at hlocks
    cases hlocks

/-- **No deadlock in `startLoop()`**: one of the two threads can go on, unless the owner sleeps
    and the loop is over. -/
theorem Inv.exists_handshake (h : s.Inv) (hstarting : s.owner.starting = true)
    (hstranded : ¬ s.Stranded) : ∃ a t, isHandshake a = true ∧ s.step a = some t := by
  by_cases hlocks : s.thread.locks = true
  · exact exists_handshake_of_locks hlocks
  · have hfree : s.owner.locks = false → s.mutex = none := fun howner =>
      h.mutex.trans (holder_eq_none.mpr ⟨howner, eq_false_of_ne_true hlocks⟩)
    have hmeets := h.meets
    cases howner : s.owner with
    | constructed => exact ⟨.startLoop, _, rfl, if_pos howner⟩
    | spawning => exact ⟨.spawn, _, rfl, if_pos howner⟩
    | reading => exact ⟨.unlock, _, rfl, if_pos howner⟩
    | started => exact ⟨.lock, _, rfl, if_pos ⟨howner, hfree (by rw [howner]; rfl)⟩⟩
    | relocking => exact ⟨.relock, _, rfl, if_pos ⟨howner, hfree (by rw [howner]; rfl)⟩⟩
    | testing =>
      by_cases hset : s.loop = true
      · exact ⟨.test, _, rfl, (if_pos howner).trans (if_pos hset)⟩
      · exact ⟨.test, _, rfl, (if_pos howner).trans (if_neg hset)⟩
    | semWait =>
      -- the new thread is on its way to `sem_post`, or has been there
      rw [howner] at hmeets
      cases hthread : s.thread with
      | notStarted =>
        rw [hthread] at hmeets
        cases hmeets
      | entered => exact ⟨.storeTid 1, _, rfl, if_pos ⟨hthread, Nat.one_pos⟩⟩
      | posting => exact ⟨.semPost, _, rfl, if_pos hthread⟩
      | _ =>
        have hsem := h.sem
        rw [howner, hthread] at hsem
        exact ⟨.semWait, _, rfl, if_pos ⟨howner, hsem ▸ Nat.one_pos⟩⟩
    | waiting =>
      -- it has not notified yet, or all is over
      rw [howner] at hmeets
      cases hthread : s.thread with
      | constructing => exact ⟨.construct, _, rfl, if_pos hthread⟩
      | inCallback =>
        exact ⟨.lockToPublish, _, rfl, if_pos ⟨hthread, hfree (by rw [howner]; rfl)⟩⟩
      | exited => exact absurd ⟨howner, hthread⟩ hstranded
      | notStarted | entered | posting | looping =>
        rw [hthread] at hmeets
        cases hmeets
      | publishing | notifying | unlocking | clearing | leaving =>
        rw [hthread] at hlocks
        exact absurd rfl hlocks
    | aborted =>
      rw [howner] at hmeets
      cases hmeets
    | running | quitting | joining | destroyed =>
      rw [howner] at hstarting
      cases hstarting

/-- From there nothing goes on. -/
theorem Stranded.no_handshake (h : s.Stranded) (ha : isHandshake a = true) : s.step a = none := by
  obtain ⟨howner, hthread⟩ := h
  cases a with
  | startLoop | spawn | semWait | lock | test | relock | unlock =>
    simp [EventLoopThread.step, howner]
  | storeTid | semPost | construct | lockToPublish | publish | notifyOne | unlockPublished | clear
  | leave => simp [EventLoopThread.step, hthread]
  | wakeSpuriously | callbackQueue | callbackQuit | lockToClear | loop | destroy | destroyWakeup
  | join => cases ha

/-- **`startLoop()` returns, unless the loop has been and gone.**  In every interleaving of the
    two threads and the users of the loop:
    the assertion on `tid_` holds; the owner does not sleep through the notification; when it
    reads `loop_` the new thread is in `loop()`; there are at most seventeen steps between
    the two, and two for each sleep that ends by itself; and as long as `startLoop()` has not
    returned one of them is enabled, exactly if the owner is not asleep with the loop over. -/
theorem startLoop_returns {acts : List (StartLoopAct ι F)}
    (hrun : Runs.run EventLoopThread.step start acts = some s) :
    s.owner ≠ .aborted
      ∧ (s.owner = .waiting → s.loop = true → s.thread = .notifying)
      ∧ (s.owner = .reading → s.loop = true ∧ s.thread = .looping)
      ∧ acts.countP isHandshake ≤ 17 + 2 * acts.countP isSpurious
      ∧ (s.owner.starting = true →
        ((∃ a t, isHandshake a = true ∧ s.step a = some t) ↔ ¬ s.Stranded)) := by
  have hinv := Inv.of_run hrun
  have hmeets := hinv.meets
  have hloop := hinv.loop
  refine ⟨?_, ?_, ?_, handshakes_le hrun, ?_⟩
  · intro howner
    rw [howner] at hmeets
    cases hmeets
  · intro howner hset
    rw [howner, StarterPc.meets, ← hloop, hset, Bool.not_true, Bool.or_false] at hmeets
    exact eq_of_beq (Bool.and_eq_true_iff.mp hmeets).2
  · intro howner
    rw [howner] at hmeets
    have hthread := eq_of_beq hmeets
    rw [hthread] at hloop
    exact ⟨hloop, hthread⟩
  · intro hstarting
    constructor
    · rintro ⟨a, t, ha, ht⟩ hstranded
      rw [hstranded.no_handshake ha] at ht
      cases ht
    · exact hinv.exists_handshake hstarting

theorem startLoop_returns_sleptOnce :
    ∃ s, Runs.run EventLoopThread.step start (sleptOnce.take 14) = some s
      ∧ s.owner = .waiting ∧ s.owner.starting = true
      ∧ s.owner ≠ .aborted
      ∧ (s.owner = .waiting → s.loop = true → s.thread = .notifying)
      ∧ (s.owner = .reading → s.loop = true ∧ s.thread = .looping)
      ∧ (sleptOnce.take 14).countP isHandshake ≤ 17 + 2 * (sleptOnce.take 14).countP isSpurious
      ∧ (s.owner.starting = true →
        ((∃ a t, isHandshake a = true ∧ s.step a = some t) ↔ ¬ s.Stranded)) :=
  ⟨_, rfl, rfl, rfl, startLoop_returns rfl⟩

/-- The loop's first functor is its last: it quits before the owner has the mutex again. -/
def shortLoop : List (StartLoopAct Nat Nat) :=
  [.startLoop, .spawn, .storeTid 42, .semPost, .semWait, .lock, .construct, .callbackQueue 7,
    .test, .lockToPublish, .publish, .notifyOne, .unlockPublished, .loop (.advance .enter),
    .loop (.advance .resetQuit), .loop (.advance .test), .loop (.advance (.poll [])),
    .loop (.advance .beginPending), .loop (.advance .swap), .loop (.advance .callFunctor),
    .loop .selfQuit, .loop (.advance .endPending), .loop (.advance .test), .lockToClear, .clear,
    .leave, .relock, .test]

/-- The owner then sleeps for good. -/
theorem shortLoop_stranded :
    ∃ s, Runs.run EventLoopThread.step start shortLoop = some s ∧ s.Stranded :=
  ⟨_, rfl, rfl, rfl⟩

end EventLoopThread

end Ymuduo
