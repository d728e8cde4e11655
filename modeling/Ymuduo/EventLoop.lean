/-
  Ymuduo/EventLoop.lean
  =====================
  **`EventLoop` (EventLoop.cc) and the threads that use it.**

  The loop thread runs `loop()`; its program counter is one of the points of
  `loop()` and `doPendingFunctors()` between which other threads can be scheduled.
  Functors (type `F`) and the channels other than `wakeupChannel_` (type `ι`) are
  arbitrary: what a handler or a functor does to the loop is an arbitrary sequence
  of `queueInLoop` and `quit` calls.

  `LoopSystem` adds any number of other threads.  The locked `push_back` of
  `queueInLoop` and its `wakeup()` are two steps, so are the store and the
  `wakeup()` of `quit`.
-/
import Ymuduo.Runs
import Mathlib.Algebra.Ring.Nat
import Mathlib.Logic.Function.Basic

namespace Ymuduo

/-- An element of `activeChannels_`. -/
inductive ActiveChannel (ι : Type) where
  | wakeupChannel
  | channel (a : ι)
deriving DecidableEq, Repr

/-- Where the loop thread is. -/
inductive LoopPc where
  | outside     -- `loop()` has not been called
  | entered     -- after `looping_ = true`
  | testing     -- at `while(!quit_)`
  | polling     -- at or inside `poller_->poll`
  | handling    -- in the loop over `activeChannels_`
  | swapping    -- after `callingPendingFunctors_ = true`
  | calling     -- after the swap, in the loop over `functors`
  | returned    -- `loop()` has returned
deriving DecidableEq, Repr

/-- `functors` is the part of the swapped-out vector that is still to be called,
    `called` the part that has been; both are alive until `doPendingFunctors` returns. -/
structure EventLoop (ι F : Type) where
  pc : LoopPc
  looping : Bool
  quit : Bool
  eventfd : Nat
  activeChannels : List (ActiveChannel ι)
  callingPendingFunctors : Bool
  called : List F
  functors : List F
  pendingFunctors : List F
deriving DecidableEq, Repr

/-- The steps of the loop thread inside `loop()`. -/
inductive LoopStep (ι : Type) where
  | enter
  | resetQuit
  | test
  | poll (active : List (ActiveChannel ι))
  | handleEvent
  | beginPending
  | swap
  | callFunctor
  | endPending
deriving DecidableEq, Repr

namespace EventLoop

variable {ι F : Type}

/-- `EventLoop()`; the counter of a new eventfd is 0. -/
def new : EventLoop ι F where
  pc := .outside
  looping := false
  quit := false
  eventfd := 0
  activeChannels := []
  callingPendingFunctors := false
  called := []
  functors := []
  pendingFunctors := []

/-- The largest value of an eventfd counter. -/
def eventfdMax : Nat := 2 ^ 64 - 2

/-- `wakeup`: a write that would overflow the counter fails with `EAGAIN`. -/
def wakeup (l : EventLoop ι F) : EventLoop ι F :=
  { l with eventfd := if l.eventfd + 1 ≤ eventfdMax then l.eventfd + 1 else l.eventfd }

/-- `handleRead` of the wakeup channel: the read takes the counter to 0. -/
def handleRead (l : EventLoop ι F) : EventLoop ι F := { l with eventfd := 0 }

/-- The locked part of `queueInLoop`. -/
def pushBack (l : EventLoop ι F) (cb : F) : EventLoop ι F :=
  { l with pendingFunctors := l.pendingFunctors ++ [cb] }

/-- `if(!isInLoopThread() || callingPendingFunctors_) wakeup();` -/
def wakeupIfNeeded (l : EventLoop ι F) (isInLoopThread : Bool) : EventLoop ι F :=
  if !isInLoopThread || l.callingPendingFunctors then l.wakeup else l

/-- `queueInLoop` without interruption. -/
def queueInLoop (l : EventLoop ι F) (isInLoopThread : Bool) (cb : F) : EventLoop ι F :=
  (l.pushBack cb).wakeupIfNeeded isInLoopThread

/-- One step of the loop thread; `none` when the thread is somewhere else. -/
def advance (l : EventLoop ι F) : LoopStep ι → Option (EventLoop ι F)
  | .enter =>
    if l.pc = .outside then some { l with pc := .entered, looping := true } else none
  | .resetQuit =>
    if l.pc = .entered then some { l with pc := .testing, quit := false } else none
  | .test =>
    if l.pc = .testing then
      if l.quit then some { l with pc := .returned, looping := false }
      else some { l with pc := .polling, activeChannels := [] }
    else none
  | .poll active =>
    if l.pc = .polling then some { l with pc := .handling, activeChannels := active } else none
  | .handleEvent =>
    if l.pc = .handling then
      match l.activeChannels with
      | [] => none
      | .wakeupChannel :: rest => some { l.handleRead with activeChannels := rest }
      | .channel _ :: rest => some { l with activeChannels := rest }
    else none
  | .beginPending =>
    if l.pc = .handling ∧ l.activeChannels.isEmpty then
      some { l with pc := .swapping, callingPendingFunctors := true }
    else none
  | .swap =>
    if l.pc = .swapping then
      some { l with pc := .calling, functors := l.pendingFunctors, pendingFunctors := [] }
    else none
  | .callFunctor =>
    if l.pc = .calling then
      match l.functors with
      | [] => none
      | cb :: rest => some { l with functors := rest, called := l.called ++ [cb] }
    else none
  | .endPending =>
    if l.pc = .calling ∧ l.functors.isEmpty then
      some { l with pc := .testing, callingPendingFunctors := false, called := [] }
    else none

/-- The functors that the step calls. -/
def calls (l : EventLoop ι F) : LoopStep ι → List F
  | .callFunctor => l.functors.take 1
  | _ => []

/-- The functors waiting to be called, in the order in which they will be. -/
def waiting (l : EventLoop ι F) : List F := l.functors ++ l.pendingFunctors

/-! ### The steps one by one -/

/-- `advance` as a relation: where the step finds the thread, and what it leaves. -/
inductive Advances (l : EventLoop ι F) : LoopStep ι → EventLoop ι F → Prop where
  | enter (hpc : l.pc = .outside) :
      Advances l .enter { l with pc := .entered, looping := true }
  | resetQuit (hpc : l.pc = .entered) :
      Advances l .resetQuit { l with pc := .testing, quit := false }
  | leave (hpc : l.pc = .testing) (hquit : l.quit = true) :
      Advances l .test { l with pc := .returned, looping := false }
  | goOn (hpc : l.pc = .testing) (hquit : l.quit = false) :
      Advances l .test { l with pc := .polling, activeChannels := [] }
  | poll (hpc : l.pc = .polling) (active : List (ActiveChannel ι)) :
      Advances l (.poll active) { l with pc := .handling, activeChannels := active }
  | handleWakeup (hpc : l.pc = .handling) (rest : List (ActiveChannel ι))
      (hactive : l.activeChannels = .wakeupChannel :: rest) :
      Advances l .handleEvent { l.handleRead with activeChannels := rest }
  | handleChannel (hpc : l.pc = .handling) (source : ι) (rest : List (ActiveChannel ι))
      (hactive : l.activeChannels = .channel source :: rest) :
      Advances l .handleEvent { l with activeChannels := rest }
  | beginPending (hpc : l.pc = .handling) (hactive : l.activeChannels = []) :
      Advances l .beginPending { l with pc := .swapping, callingPendingFunctors := true }
  | swap (hpc : l.pc = .swapping) :
      Advances l .swap
        { l with pc := .calling, functors := l.pendingFunctors, pendingFunctors := [] }
  | callFunctor (hpc : l.pc = .calling) (cb : F) (rest : List F)
      (hfunctors : l.functors = cb :: rest) :
      Advances l .callFunctor { l with functors := rest, called := l.called ++ [cb] }
  | endPending (hpc : l.pc = .calling) (hfunctors : l.functors = []) :
      Advances l .endPending
        { l with pc := .testing, callingPendingFunctors := false, called := [] }

theorem advances {l l' : EventLoop ι F} {a : LoopStep ι} (h : l.advance a = some l') :
    l.Advances a l' := by
  cases a with
  | enter =>
    simp only [advance, Option.ite_none_right_eq_some, Option.some.injEq] at h
    obtain ⟨hpc, rfl⟩ := h
    exact .enter hpc
  | resetQuit =>
    simp only [advance, Option.ite_none_right_eq_some, Option.some.injEq] at h
    obtain ⟨hpc, rfl⟩ := h
    exact .resetQuit hpc
  | test =>
    simp only [advance, Option.ite_none_right_eq_some] at h
    obtain ⟨hpc, h⟩ := h
    by_cases hquit : l.quit = true
    · rw [if_pos hquit] at h
      cases h
      exact .leave hpc hquit
    · rw [if_neg hquit] at h
      cases h
      exact .goOn hpc (eq_false_of_ne_true hquit)
  | poll active =>
    simp only [advance, Option.ite_none_right_eq_some, Option.some.injEq] at h
    obtain ⟨hpc, rfl⟩ := h
    exact .poll hpc active
  | handleEvent =>
    simp only [advance, Option.ite_none_right_eq_some] at h
    obtain ⟨hpc, h⟩ := h
    split at h
    · cases h
    · cases h
      exact .handleWakeup hpc _ ‹_›
    · cases h
      exact .handleChannel hpc _ _ ‹_›
  | beginPending =>
    simp only [advance, Option.ite_none_right_eq_some, Option.some.injEq] at h
    obtain ⟨⟨hpc, hempty⟩, rfl⟩ := h
    exact .beginPending hpc (List.isEmpty_iff.mp hempty)
  | swap =>
    simp only [advance, Option.ite_none_right_eq_some, Option.some.injEq] at h
    obtain ⟨hpc, rfl⟩ := h
    exact .swap hpc
  | callFunctor =>
    simp only [advance, Option.ite_none_right_eq_some] at h
    obtain ⟨hpc, h⟩ := h
    split at h
    · cases h
    · cases h
      exact .callFunctor hpc _ _ ‹_›
  | endPending =>
    simp only [advance, Option.ite_none_right_eq_some, Option.some.injEq] at h
    obtain ⟨⟨hpc, hempty⟩, rfl⟩ := h
    exact .endPending hpc (List.isEmpty_iff.mp hempty)

/-! ### What a step does to the queue -/

@[simp] theorem wakeup_pc (l : EventLoop ι F) : l.wakeup.pc = l.pc := rfl
@[simp] theorem wakeup_functors (l : EventLoop ι F) : l.wakeup.functors = l.functors := rfl
@[simp] theorem wakeup_pendingFunctors (l : EventLoop ι F) :
    l.wakeup.pendingFunctors = l.pendingFunctors := rfl
@[simp] theorem wakeup_quit (l : EventLoop ι F) : l.wakeup.quit = l.quit := rfl
@[simp] theorem wakeup_callingPendingFunctors (l : EventLoop ι F) :
    l.wakeup.callingPendingFunctors = l.callingPendingFunctors := rfl
@[simp] theorem wakeup_waiting (l : EventLoop ι F) : l.wakeup.waiting = l.waiting := rfl

theorem wakeup_eventfd_pos (l : EventLoop ι F) : l.wakeup.eventfd ≠ 0 := by
  by_cases hfits : l.eventfd + 1 ≤ eventfdMax
  · simp only [wakeup, if_pos hfits]
    omega
  · simp only [wakeup, if_neg hfits]
    simp only [eventfdMax] at hfits
    omega

@[simp] theorem wakeupIfNeeded_waiting (l : EventLoop ι F) (isInLoopThread : Bool) :
    (l.wakeupIfNeeded isInLoopThread).waiting = l.waiting := by
  unfold wakeupIfNeeded
  split <;> rfl

@[simp] theorem pushBack_waiting (l : EventLoop ι F) (cb : F) :
    (l.pushBack cb).waiting = l.waiting ++ [cb] := by
  simp [pushBack, waiting]

@[simp] theorem queueInLoop_waiting (l : EventLoop ι F) (isInLoopThread : Bool) (cb : F) :
    (l.queueInLoop isInLoopThread cb).waiting = l.waiting ++ [cb] := by
  simp [queueInLoop]

/-- A batch exists only while it is being called, and `callingPendingFunctors_` is
    up exactly in `doPendingFunctors`. -/
structure WF (l : EventLoop ι F) : Prop where
  batch : l.pc ≠ .calling → l.functors = []
  flag : l.callingPendingFunctors = true ↔ l.pc = .swapping ∨ l.pc = .calling

theorem WF.new : (new : EventLoop ι F).WF := ⟨fun _ => rfl, by simp [EventLoop.new]⟩

theorem WF.pushBack {l : EventLoop ι F} (h : l.WF) (cb : F) : (l.pushBack cb).WF :=
  ⟨h.batch, h.flag⟩

theorem WF.wakeup {l : EventLoop ι F} (h : l.WF) : l.wakeup.WF := ⟨h.batch, h.flag⟩

theorem WF.wakeupIfNeeded {l : EventLoop ι F} (h : l.WF) (isInLoopThread : Bool) :
    (l.wakeupIfNeeded isInLoopThread).WF := by
  unfold EventLoop.wakeupIfNeeded
  split
  · exact h.wakeup
  · exact h

theorem WF.outside_batch {l : EventLoop ι F} (h : l.WF)
    (hpc : ¬ (l.pc = .swapping ∨ l.pc = .calling)) :
    l.functors = [] ∧ l.callingPendingFunctors = false := by
  rw [not_or] at hpc
  refine ⟨h.batch hpc.2, ?_⟩
  rw [← Bool.not_eq_true, h.flag]
  exact not_or.mpr hpc

theorem WF.of_outside_batch {l : EventLoop ι F} (hpc : ¬ (l.pc = .swapping ∨ l.pc = .calling))
    (hfunctors : l.functors = []) (hflag : l.callingPendingFunctors = false) : l.WF := by
  constructor
  · intro _
    exact hfunctors
  · constructor
    · intro htrue
      rw [hflag] at htrue
      cases htrue
    · intro hin
      exact absurd hin hpc

/-- **A step of the loop thread only pops**: it takes the functors it calls off the
    front of the queue and keeps the rest. -/
theorem WF.advance {l l' : EventLoop ι F} {a : LoopStep ι} (h : l.WF)
    (hstep : l.advance a = some l') : l'.WF ∧ l.waiting = l.calls a ++ l'.waiting := by
  cases advances hstep with
  | enter hpc =>
    obtain ⟨hfunctors, hflag⟩ := h.outside_batch (by simp [hpc])
    exact ⟨.of_outside_batch (by simp) hfunctors hflag, rfl⟩
  | resetQuit hpc =>
    obtain ⟨hfunctors, hflag⟩ := h.outside_batch (by simp [hpc])
    exact ⟨.of_outside_batch (by simp) hfunctors hflag, rfl⟩
  | leave hpc _ =>
    obtain ⟨hfunctors, hflag⟩ := h.outside_batch (by simp [hpc])
    exact ⟨.of_outside_batch (by simp) hfunctors hflag, rfl⟩
  | goOn hpc _ =>
    obtain ⟨hfunctors, hflag⟩ := h.outside_batch (by simp [hpc])
    exact ⟨.of_outside_batch (by simp) hfunctors hflag, rfl⟩
  | poll hpc active =>
    obtain ⟨hfunctors, hflag⟩ := h.outside_batch (by simp [hpc])
    exact ⟨.of_outside_batch (by simp) hfunctors hflag, rfl⟩
  | handleWakeup | handleChannel => exact ⟨⟨h.batch, h.flag⟩, rfl⟩
  | beginPending hpc _ =>
    have hfunctors : l.functors = [] := h.batch (by simp [hpc])
    exact ⟨⟨fun _ => hfunctors, by simp⟩, rfl⟩
  | swap hpc =>
    have hfunctors : l.functors = [] := h.batch (by simp [hpc])
    have hflag : l.callingPendingFunctors = true := h.flag.mpr (Or.inl hpc)
    exact ⟨⟨fun hne => absurd rfl hne, by simp [hflag]⟩, by simp [waiting, calls, hfunctors]⟩
  | callFunctor hpc cb rest hfunctors =>
    exact ⟨⟨fun hne => absurd hpc hne, h.flag⟩, by simp [waiting, calls, hfunctors]⟩
  | endPending hpc hfunctors => exact ⟨.of_outside_batch (by simp) hfunctors rfl, rfl⟩

/-! ### What a step does to the active channels -/

@[simp] theorem queueInLoop_activeChannels (l : EventLoop ι F) (isInLoopThread : Bool) (cb : F) :
    (l.queueInLoop isInLoopThread cb).activeChannels = l.activeChannels := by
  simp only [queueInLoop, wakeupIfNeeded]
  split <;> rfl

theorem advance_active {l l' : EventLoop ι F} {a : LoopStep ι}
    (h : l.advance a = some l') : l'.activeChannels = l.activeChannels ∨ l'.activeChannels = []
      ∨ a = .handleEvent ∨ a = .poll l'.activeChannels := by
  cases advances h with
  | enter | resetQuit | leave | beginPending | swap | callFunctor | endPending => exact Or.inl rfl
  | goOn => exact Or.inr (Or.inl rfl)
  | handleWakeup | handleChannel => exact Or.inr (Or.inr (Or.inl rfl))
  | poll => exact Or.inr (Or.inr (Or.inr rfl))

theorem advance_handleEvent {l l' : EventLoop ι F} {a : ActiveChannel ι}
    {rest : List (ActiveChannel ι)} (hchannels : l.activeChannels = a :: rest)
    (h : l.advance .handleEvent = some l') : l'.activeChannels = rest := by
  cases advances h with
  | handleWakeup _ rest' hactive => exact (List.cons.inj (hactive.symm.trans hchannels)).2
  | handleChannel _ _ rest' hactive => exact (List.cons.inj (hactive.symm.trans hchannels)).2

/-! ### What a step does to the batch -/

theorem advance_batch {l l' : EventLoop ι F} {a : LoopStep ι} (hwf : l.WF)
    (h : l.advance a = some l') :
    (l'.functors = l.functors ∧ l'.called = l.called ∧ l'.pendingFunctors = l.pendingFunctors)
    ∨ (l.functors = [] ∧ l'.functors = l.pendingFunctors ∧ l'.called = l.called
      ∧ l'.pendingFunctors = [])
    ∨ (l.functors = [] ∧ l'.functors = [] ∧ l'.called = []
      ∧ l'.pendingFunctors = l.pendingFunctors)
    ∨ ∃ f rest, a = .callFunctor ∧ l.functors = f :: rest ∧ l'.functors = rest
      ∧ l'.called = l.called ++ [f] ∧ l'.pendingFunctors = l.pendingFunctors := by
  cases advances h with
  | enter | resetQuit | leave | goOn | poll | handleWakeup | handleChannel | beginPending =>
    exact Or.inl ⟨rfl, rfl, rfl⟩
  | swap hpc =>
    have hfunctors : l.functors = [] := hwf.batch (by simp [hpc])
    exact Or.inr (Or.inl ⟨hfunctors, rfl, rfl, rfl⟩)
  | endPending _ hfunctors => exact Or.inr (Or.inr (Or.inl ⟨hfunctors, hfunctors, rfl, rfl⟩))
  | callFunctor _ f rest hfunctors =>
    exact Or.inr (Or.inr (Or.inr ⟨f, rest, rfl, hfunctors, rfl, rfl, rfl⟩))

end EventLoop

/-! ### Any number of other threads -/

abbrev ThreadId := Nat

/-- What a thread other than the loop thread still owes: the `wakeup()` of its
    `queueInLoop` (with the position of its functor in the sequence of all pushes)
    or of its `quit`. -/
inductive CallerPc where
  | idle
  | pushed (ticket : Nat)
  | quitting
deriving DecidableEq, Repr

/-- The loop, the threads around it, and a record of what was pushed and called.
    A functor's ticket is its position in `pushed`. -/
structure LoopSystem (ι F : Type) where
  loop : EventLoop ι F
  selfPushed : Option Nat              -- the loop thread is inside `queueInLoop`
  caller : ThreadId → CallerPc
  pushed : List F
  executed : List F
  returned : List Nat                  -- tickets whose `queueInLoop` has returned
  handedOver : List Nat                -- tickets returned before some `quit()`

/-- A step of the loop thread (`self…` inside a handler or a functor) or of the
    other thread `t`. -/
inductive LoopAct (ι F : Type) where
  | advance (a : LoopStep ι)
  | selfPush (cb : F)
  | selfWakeup
  | selfQuit
  | push (t : ThreadId) (cb : F)
  | wakeup (t : ThreadId)
  | quit (t : ThreadId)
deriving DecidableEq, Repr

namespace LoopSystem

variable {ι F : Type}

def start : LoopSystem ι F where
  loop := .new
  selfPushed := none
  caller := fun _ => .idle
  pushed := []
  executed := []
  returned := []
  handedOver := []

/-- The loop thread is in a handler or in a functor, outside `queueInLoop`. -/
def InUserCode (s : LoopSystem ι F) : Prop :=
  s.selfPushed = none ∧ (s.loop.pc = .handling ∨ s.loop.pc = .calling)

instance (s : LoopSystem ι F) : Decidable s.InUserCode := inferInstanceAs (Decidable (_ ∧ _))

/-- The tickets that count as handed over before a `quit()` made now.  A `quit()`
    after `loop()` has returned is too late to bound anything. -/
def handOver (s : LoopSystem ι F) : List Nat :=
  if s.loop.pc = .returned then s.handedOver else s.handedOver ++ s.returned

def step (s : LoopSystem ι F) : LoopAct ι F → Option (LoopSystem ι F)
  | .advance a =>
    if s.selfPushed = none then
      (s.loop.advance a).map fun l =>
        { s with loop := l, executed := s.executed ++ s.loop.calls a }
    else none
  | .selfPush cb =>
    if s.InUserCode then
      some { s with
        loop := s.loop.pushBack cb
        selfPushed := some s.pushed.length
        pushed := s.pushed ++ [cb] }
    else none
  | .selfWakeup =>
    match s.selfPushed with
    | some ticket =>
      some { s with
        loop := s.loop.wakeupIfNeeded true
        selfPushed := none
        returned := ticket :: s.returned }
    | none => none
  | .selfQuit =>
    if s.InUserCode then
      some { s with loop := { s.loop with quit := true }, handedOver := s.handOver }
    else none
  | .push t cb =>
    if s.caller t = .idle then
      some { s with
        loop := s.loop.pushBack cb
        caller := Function.update s.caller t (.pushed s.pushed.length)
        pushed := s.pushed ++ [cb] }
    else none
  | .wakeup t =>
    match s.caller t with
    | .idle => none
    | .pushed ticket =>
      some { s with
        loop := s.loop.wakeupIfNeeded false
        caller := Function.update s.caller t .idle
        returned := ticket :: s.returned }
    | .quitting =>
      some { s with loop := s.loop.wakeup, caller := Function.update s.caller t .idle }
  | .quit t =>
    if s.caller t = .idle then
      some { s with
        loop := { s.loop with quit := true }
        caller := Function.update s.caller t .quitting
        handedOver := s.handOver }
    else none

/-- `step` as a relation. -/
inductive Steps (s : LoopSystem ι F) : LoopAct ι F → LoopSystem ι F → Prop where
  | advance (hself : s.selfPushed = none) (a : LoopStep ι) (l : EventLoop ι F)
      (hl : s.loop.advance a = some l) :
      Steps s (.advance a) { s with loop := l, executed := s.executed ++ s.loop.calls a }
  | selfPush (huser : s.InUserCode) (cb : F) :
      Steps s (.selfPush cb) { s with
        loop := s.loop.pushBack cb
        selfPushed := some s.pushed.length
        pushed := s.pushed ++ [cb] }
  | selfWakeup (ticket : Nat) (hself : s.selfPushed = some ticket) :
      Steps s .selfWakeup { s with
        loop := s.loop.wakeupIfNeeded true
        selfPushed := none
        returned := ticket :: s.returned }
  | selfQuit (huser : s.InUserCode) :
      Steps s .selfQuit { s with loop := { s.loop with quit := true }, handedOver := s.handOver }
  | push (t : ThreadId) (hidle : s.caller t = .idle) (cb : F) :
      Steps s (.push t cb) { s with
        loop := s.loop.pushBack cb
        caller := Function.update s.caller t (.pushed s.pushed.length)
        pushed := s.pushed ++ [cb] }
  | wakeup (t : ThreadId) (ticket : Nat) (hcaller : s.caller t = .pushed ticket) :
      Steps s (.wakeup t) { s with
        loop := s.loop.wakeupIfNeeded false
        caller := Function.update s.caller t .idle
        returned := ticket :: s.returned }
  | quitWakeup (t : ThreadId) (hcaller : s.caller t = .quitting) :
      Steps s (.wakeup t) { s with
        loop := s.loop.wakeup
        caller := Function.update s.caller t .idle }
  | quit (t : ThreadId) (hidle : s.caller t = .idle) :
      Steps s (.quit t) { s with
        loop := { s.loop with quit := true }
        caller := Function.update s.caller t .quitting
        handedOver := s.handOver }

theorem steps {s t : LoopSystem ι F} {a : LoopAct ι F} (hstep : s.step a = some t) :
    s.Steps a t := by
  cases a with
  | advance a =>
    simp only [step, Option.ite_none_right_eq_some] at hstep
    obtain ⟨hself, hstep⟩ := hstep
    obtain ⟨l, hl, rfl⟩ := Option.map_eq_some_iff.mp hstep
    exact .advance hself a l hl
  | selfPush cb =>
    simp only [step, Option.ite_none_right_eq_some, Option.some.injEq] at hstep
    obtain ⟨huser, rfl⟩ := hstep
    exact .selfPush huser cb
  | selfWakeup =>
    simp only [step] at hstep
    split at hstep
    · cases hstep
      exact .selfWakeup _ ‹_›
    · cases hstep
  | selfQuit =>
    simp only [step, Option.ite_none_right_eq_some, Option.some.injEq] at hstep
    obtain ⟨huser, rfl⟩ := hstep
    exact .selfQuit huser
  | push thread cb =>
    simp only [step, Option.ite_none_right_eq_some, Option.some.injEq] at hstep
    obtain ⟨hidle, rfl⟩ := hstep
    exact .push thread hidle cb
  | wakeup thread =>
    simp only [step] at hstep
    split at hstep
    · cases hstep
    · cases hstep
      exact .wakeup thread _ ‹_›
    · cases hstep
      exact .quitWakeup thread ‹_›
  | quit thread =>
    simp only [step, Option.ite_none_right_eq_some, Option.some.injEq] at hstep
    obtain ⟨hidle, rfl⟩ := hstep
    exact .quit thread hidle

end LoopSystem

end Ymuduo
