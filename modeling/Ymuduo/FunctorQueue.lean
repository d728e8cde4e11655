/-
  Ymuduo/FunctorQueue.lean
  ========================
  **No functor is lost, duplicated, reordered or stranded.**

  The functors called so far and those still waiting are the two ends of one FIFO
  queue: `queueInLoop` pushes, the loop thread pops (`EventLoop.WF.advance`).  That
  a waiting functor cannot be slept through rests on the `wakeup()` rule of
  `queueInLoop`: outside the window between `epoll_wait` and the swap, where the
  swap itself is still to come, a pending functor is always backed by a non-zero
  eventfd counter or by a thread that is about to write it (`Armed`).
-/
import Ymuduo.EventLoop
import Ymuduo.Fifo

namespace Ymuduo.LoopSystem

variable {ι F : Type}

/-- The queue whose front has been called and whose back is waiting. -/
def functorQueue (s : LoopSystem ι F) : Fifo F := ⟨s.executed, s.loop.waiting⟩

/-- A pending functor has a wakeup, written or about to be written. -/
def Armed (s : LoopSystem ι F) : Prop :=
  s.loop.pendingFunctors ≠ [] →
    s.loop.eventfd ≠ 0 ∨ s.selfPushed ≠ none ∨ ∃ t ticket, s.caller t = .pushed ticket

/-- The loop thread has left `epoll_wait` and not yet swapped. -/
def InWindow (pc : LoopPc) : Prop := pc = .handling ∨ pc = .swapping

structure Inv (s : LoopSystem ι F) : Prop where
  wf : s.loop.WF
  order : s.functorQueue.pushed = s.pushed
  selfPushed : s.selfPushed ≠ none → s.loop.pc = .handling ∨ s.loop.pc = .calling
  armed : ¬ InWindow s.loop.pc → s.Armed

theorem Inv.start : (start : LoopSystem ι F).Inv where
  wf := .new
  order := rfl
  selfPushed := fun h => absurd rfl h
  armed := fun _ h => absurd rfl h

/-- A step of the loop thread enters the window, leaves it by the swap, or touches
    neither the pending functors nor the counter. -/
theorem advance_window {l l' : EventLoop ι F} {a : LoopStep ι} (h : l.advance a = some l') :
    InWindow l'.pc ∨ l'.pendingFunctors = []
      ∨ ¬ InWindow l.pc ∧ l'.pendingFunctors = l.pendingFunctors ∧ l'.eventfd = l.eventfd := by
  cases EventLoop.advances h with
  | enter hpc | resetQuit hpc | leave hpc | goOn hpc | callFunctor hpc | endPending hpc =>
    exact Or.inr (Or.inr ⟨by simp [InWindow, hpc], rfl, rfl⟩)
  | poll => exact Or.inl (Or.inl rfl)
  | handleWakeup hpc | handleChannel hpc => exact Or.inl (Or.inl hpc)
  | beginPending => exact Or.inl (Or.inr rfl)
  | swap => exact Or.inr (Or.inl rfl)

theorem Inv.advance {s t : LoopSystem ι F} (h : s.Inv) {a : LoopStep ι}
    (hstep : step s (.advance a) = some t) : t.Inv := by
  cases steps hstep with
  | advance hself a l hl =>
    obtain ⟨hwf, hpop⟩ := h.wf.advance hl
    refine ⟨hwf, ?_, fun hne => absurd hself hne, ?_⟩
    · have horder := h.order
      simp only [functorQueue, Fifo.pushed] at horder ⊢
      rw [← horder, hpop, List.append_assoc]
    · intro hout hpending
      rcases advance_window hl with hin | hnil | ⟨hbefore, hsame, hcounter⟩
      · exact absurd hin hout
      · exact absurd hnil hpending
      · have harmed := h.armed hbefore
        simp only at hpending ⊢
        rw [hsame] at hpending
        rw [hcounter]
        exact harmed hpending

/-- The loop thread pushes: it is in the window, or `callingPendingFunctors_` makes
    it write the eventfd next. -/
theorem Inv.selfPush {s t : LoopSystem ι F} (h : s.Inv) {cb : F}
    (hstep : step s (.selfPush cb) = some t) : t.Inv := by
  cases steps hstep with
  | selfPush huser =>
    refine ⟨h.wf.pushBack cb, ?_, fun _ => huser.2, ?_⟩
    · have horder := h.order
      simp only [functorQueue, Fifo.pushed, EventLoop.pushBack_waiting] at horder ⊢
      rw [← List.append_assoc, horder]
    · intro _ _
      exact Or.inr (Or.inl (by simp))

theorem Inv.selfWakeup {s t : LoopSystem ι F} (h : s.Inv)
    (hstep : step s .selfWakeup = some t) : t.Inv := by
  cases steps hstep with
  | selfWakeup ticket hself =>
    refine ⟨h.wf.wakeupIfNeeded true, ?_, fun hne => absurd rfl hne, ?_⟩
    · simpa only [functorQueue, EventLoop.wakeupIfNeeded_waiting] using h.order
    · intro hout _
      -- outside the window the flag is up, so the counter has just been written
      have hpc : s.loop.pc = .handling ∨ s.loop.pc = .calling := h.selfPushed (by simp [hself])
      have hcalling : s.loop.pc = .calling := by
        rcases hpc with hh | hc
        · refine absurd ?_ hout
          simp only [EventLoop.wakeupIfNeeded]
          split <;> exact Or.inl hh
        · exact hc
      have hflag : s.loop.callingPendingFunctors = true := h.wf.flag.mpr (Or.inr hcalling)
      left
      simp only [EventLoop.wakeupIfNeeded, hflag, Bool.or_true, if_true]
      exact s.loop.wakeup_eventfd_pos

theorem Inv.push {s t : LoopSystem ι F} (h : s.Inv) {thread : ThreadId} {cb : F}
    (hstep : step s (.push thread cb) = some t) : t.Inv := by
  cases steps hstep with
  | push =>
    refine ⟨h.wf.pushBack cb, ?_, h.selfPushed, ?_⟩
    · have horder := h.order
      simp only [functorQueue, Fifo.pushed, EventLoop.pushBack_waiting] at horder ⊢
      rw [← List.append_assoc, horder]
    · intro _ _
      exact Or.inr (Or.inr ⟨thread, s.pushed.length, by simp⟩)

theorem Inv.wakeup {s t : LoopSystem ι F} (h : s.Inv) {thread : ThreadId}
    (hstep : step s (.wakeup thread) = some t) : t.Inv := by
  cases steps hstep with
  | wakeup | quitWakeup =>
    exact ⟨h.wf.wakeup, h.order, h.selfPushed, fun _ _ => Or.inl s.loop.wakeup_eventfd_pos⟩

theorem Inv.selfQuit {s t : LoopSystem ι F} (h : s.Inv)
    (hstep : step s .selfQuit = some t) : t.Inv := by
  cases steps hstep with
  | selfQuit =>
    exact ⟨⟨h.wf.batch, h.wf.flag⟩, h.order, h.selfPushed, h.armed⟩

/-- A thread that calls `quit` was idle, so it is none of those that owe a wakeup. -/
theorem Inv.quit {s t : LoopSystem ι F} (h : s.Inv) {thread : ThreadId}
    (hstep : step s (.quit thread) = some t) : t.Inv := by
  cases steps hstep with
  | quit _ hidle =>
    refine ⟨⟨h.wf.batch, h.wf.flag⟩, h.order, h.selfPushed, ?_⟩
    intro hout hpending
    rcases h.armed hout hpending with hcounter | hself | ⟨u, ticket, hu⟩
    · exact Or.inl hcounter
    · exact Or.inr (Or.inl hself)
    · have hne : u ≠ thread := by
        rintro rfl
        rw [hidle] at hu
        cases hu
      exact Or.inr (Or.inr ⟨u, ticket, by simpa [hne] using hu⟩)

/-- **One step keeps the queue in order and armed.** -/
theorem Inv.step {s t : LoopSystem ι F} {a : LoopAct ι F} (h : s.Inv)
    (hstep : step s a = some t) : t.Inv := by
  cases a with
  | advance a => exact h.advance hstep
  | selfPush cb => exact h.selfPush hstep
  | selfWakeup => exact h.selfWakeup hstep
  | selfQuit => exact h.selfQuit hstep
  | push thread cb => exact h.push hstep
  | wakeup thread => exact h.wakeup hstep
  | quit thread => exact h.quit hstep

/-- The functors that an action pushes. -/
def pushes : LoopAct ι F → List F
  | .selfPush cb | .push _ cb => [cb]
  | _ => []

/-- The functors that an action calls. -/
def calls (s : LoopSystem ι F) : LoopAct ι F → List F
  | .advance a => s.loop.calls a
  | _ => []

/-- What one action does to the queue and to its record. -/
structure Queues (s t : LoopSystem ι F) (pushes calls : List F) : Prop where
  pushed : t.pushed = s.pushed ++ pushes
  executed : t.executed = s.executed ++ calls
  waiting : s.loop.waiting ++ pushes = calls ++ t.loop.waiting

theorem Queues.mem_before {s t : LoopSystem ι F} {pushes calls : List F}
    (h : Queues s t pushes calls) {f : F} (hf : f ∈ t.loop.waiting) :
    f ∈ s.loop.waiting ∨ f ∈ pushes := by
  rw [← List.mem_append, h.waiting]
  exact List.mem_append_right _ hf

theorem Queues.mem_after {s t : LoopSystem ι F} {pushes calls : List F}
    (h : Queues s t pushes calls) {f : F} (hf : f ∈ s.loop.waiting) :
    f ∈ calls ∨ f ∈ t.loop.waiting := by
  rw [← List.mem_append, ← h.waiting]
  exact List.mem_append_left _ hf

theorem Inv.queues {s t : LoopSystem ι F} {a : LoopAct ι F} (h : s.Inv)
    (hstep : LoopSystem.step s a = some t) : Queues s t (pushes a) (s.calls a) := by
  cases steps hstep with
  | advance _ a l hl =>
    refine ⟨(List.append_nil _).symm, rfl, ?_⟩
    simpa [pushes, calls] using (h.wf.advance hl).2
  | selfPush | push => exact ⟨rfl, (List.append_nil _).symm, by simp [pushes, calls]⟩
  | selfWakeup | wakeup | quitWakeup =>
    exact ⟨(List.append_nil _).symm, (List.append_nil _).symm, by simp [pushes, calls]⟩
  | selfQuit | quit => exact ⟨(List.append_nil _).symm, (List.append_nil _).symm, List.append_nil _⟩

theorem Inv.waiting_push {s t : LoopSystem ι F} (h : s.Inv) {thread : ThreadId} {cb : F}
    (hstep : LoopSystem.step s (.push thread cb) = some t) :
    t.loop.waiting = s.loop.waiting ++ [cb] :=
  (h.queues hstep).waiting.symm

theorem Inv.of_run {acts : List (LoopAct ι F)} {s : LoopSystem ι F}
    (hrun : Runs.run LoopSystem.step LoopSystem.start acts = some s) : s.Inv :=
  Runs.run_induction (fun _ _ _ h hstep => h.step hstep) .start hrun

/-- **No lost, duplicated, reordered or stranded functor.**  At every point of every
    interleaving, the functors called, the rest of the batch and `pendingFunctors_`
    are together what was pushed, in push order; and a loop thread at or inside
    `epoll_wait` with functors pending finds the eventfd counter non-zero, or some
    thread that pushed has not yet written it. -/
theorem functors_in_order_and_armed (acts : List (LoopAct ι F)) (s : LoopSystem ι F)
    (hrun : Runs.run step start acts = some s) :
    s.executed ++ s.loop.functors ++ s.loop.pendingFunctors = s.pushed
      ∧ (s.loop.pc = .polling → s.loop.pendingFunctors ≠ [] →
          s.loop.eventfd ≠ 0 ∨ ∃ t ticket, s.caller t = .pushed ticket) := by
  have hinv := Inv.of_run hrun
  constructor
  · simpa [functorQueue, Fifo.pushed, EventLoop.waiting] using hinv.order
  · intro hpc hpending
    have hself : s.selfPushed = none := by
      by_contra hne
      rcases hinv.selfPushed hne with hh | hc
      · rw [hpc] at hh; cases hh
      · rw [hpc] at hc; cases hc
    have hout : ¬ InWindow s.loop.pc := by simp [InWindow, hpc]
    rcases hinv.armed hout hpending with hcounter | hne | hcaller
    · exact Or.inl hcounter
    · exact absurd hself hne
    · exact Or.inr hcaller

/-- A functor is pushed before `loop()`; it pushes another one, and a second thread
    pushes a third just before the next poll. -/
def latePushes : List (LoopAct Unit Nat) :=
  [.push 1 10, .advance .enter, .advance .resetQuit, .advance .test, .wakeup 1,
    .advance (.poll [.wakeupChannel]), .advance .handleEvent, .advance .beginPending,
    .advance .swap, .advance .callFunctor, .selfPush 11, .selfWakeup, .push 2 12,
    .advance .endPending, .advance .test]

theorem functors_in_order_and_armed_latePushes :
    ∃ s, Runs.run step start latePushes = some s
      ∧ s.executed ++ s.loop.functors ++ s.loop.pendingFunctors = s.pushed
      ∧ (s.loop.pc = .polling → s.loop.pendingFunctors ≠ [] →
          s.loop.eventfd ≠ 0 ∨ ∃ t ticket, s.caller t = .pushed ticket) := by
  obtain ⟨s, hs⟩ := Option.isSome_iff_exists.mp
    (by decide : (Runs.run step start latePushes).isSome = true)
  exact ⟨s, hs, functors_in_order_and_armed latePushes s hs⟩

end Ymuduo.LoopSystem
