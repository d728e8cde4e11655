/-
  Ymuduo/LoopThread.lean
  ======================
  **`EventLoopThread` (EventLoopThread.cc): a thread with a loop, and its owner.**

  `threadFunc` constructs the loop, runs the init callback, publishes `loop_`, calls
  `loop()` and clears `loop_`.  The owner waits in `startLoop()` for `loop_`; from then on
  it and other threads use the loop, and `~EventLoopThread` calls `quit()` and joins.

  The loop is published before `loop()` is entered, and the first thing that `loop()` does
  with `quit_` is to set it to false.
-/
import Ymuduo.EventLoop

namespace Ymuduo

/-- Where `threadFunc` is; `loop_` points to the loop while it is `published`. -/
inductive ThreadPc where
  | notStarted
  | constructing
  | inCallback     -- after `EventLoop loop;`
  | published      -- after `loop_ = &loop;`
  | finished       -- after `loop_ = nullptr;`, with the loop destroyed
deriving DecidableEq, Repr

inductive OwnerPc where
  | constructed
  | starting       -- in `startLoop()`
  | running        -- `startLoop()` has returned the loop
  | quitting       -- in `~EventLoopThread`, between the two halves of `quit()`
  | joining
  | destroyed
deriving DecidableEq, Repr

/-- The owner among the threads that use the loop. -/
def ownerThread : ThreadId := 0

/-- `requested`: a thread that has got the loop from `startLoop()` has stored
    `quit_ = true`. -/
structure LoopThread (ι F : Type) where
  sys : LoopSystem ι F
  thread : ThreadPc
  owner : OwnerPc
  requested : Bool

/-- `callbackQueue` and `callbackQuit` are calls of the init callback. -/
inductive LoopThreadAct (ι F : Type) where
  | startLoop
  | construct
  | callbackQueue (cb : F)
  | callbackQuit
  | publish
  | obtain
  | loop (a : LoopAct ι F)
  | destroy
  | destroyWakeup
  | finish
  | join
deriving DecidableEq, Repr

namespace LoopThread

variable {ι F : Type}

def start : LoopThread ι F where
  sys := .start
  thread := .notStarted
  owner := .constructed
  requested := false

/-- `startLoop()` has returned, and the thread is not the owner inside its destructor. -/
def HasLoop (s : LoopThread ι F) (t : ThreadId) : Prop :=
  if t = ownerThread then s.owner = .running
  else s.owner ≠ .constructed ∧ s.owner ≠ .starting

instance (s : LoopThread ι F) (t : ThreadId) : Decidable (s.HasLoop t) :=
  inferInstanceAs (Decidable
    (if t = ownerThread then s.owner = .running else s.owner ≠ .constructed ∧ s.owner ≠ .starting))

/-- Who may take the step. -/
def MayAct (s : LoopThread ι F) : LoopAct ι F → Prop
  | .push t _ | .wakeup t | .quit t => s.HasLoop t
  | .advance _ | .selfPush _ | .selfWakeup | .selfQuit => True

instance (s : LoopThread ι F) : (a : LoopAct ι F) → Decidable (s.MayAct a)
  | .push t _ | .wakeup t | .quit t => inferInstanceAs (Decidable (s.HasLoop t))
  | .advance _ | .selfPush _ | .selfWakeup | .selfQuit => inferInstanceAs (Decidable True)

/-- A `quit()` by another thread. -/
def isQuit : LoopAct ι F → Bool
  | .quit _ => true
  | _ => false

def step (s : LoopThread ι F) : LoopThreadAct ι F → Option (LoopThread ι F)
  | .startLoop =>
    if s.owner = .constructed then
      some { s with owner := .starting, thread := .constructing }
    else none
  | .construct =>
    if s.thread = .constructing then some { s with thread := .inCallback } else none
  | .callbackQueue cb =>
    if s.thread = .inCallback then
      some { s with sys := { s.sys with
        loop := s.sys.loop.queueInLoop true cb, pushed := s.sys.pushed ++ [cb] } }
    else none
  | .callbackQuit =>
    if s.thread = .inCallback then
      some { s with sys := { s.sys with loop := { s.sys.loop with quit := true } } }
    else none
  | .publish =>
    if s.thread = .inCallback then some { s with thread := .published } else none
  | .obtain =>
    if s.owner = .starting ∧ s.thread = .published then some { s with owner := .running }
    else none
  | .loop a =>
    if s.thread = .published ∧ s.MayAct a then
      (s.sys.step a).map fun sys => { s with sys := sys, requested := s.requested || isQuit a }
    else none
  | .destroy =>
    if s.owner = .running then
      if s.thread = .published then
        (s.sys.step (.quit ownerThread)).map fun sys =>
          { s with sys := sys, owner := .quitting, requested := true }
      else some { s with owner := .destroyed }
    else none
  | .destroyWakeup =>
    if s.owner = .quitting then
      (s.sys.step (.wakeup ownerThread)).map fun sys => { s with sys := sys, owner := .joining }
    else none
  | .finish =>
    if s.thread = .published ∧ s.sys.loop.pc = .returned then
      some { s with thread := .finished }
    else none
  | .join =>
    if s.owner = .joining ∧ s.thread = .finished then some { s with owner := .destroyed }
    else none

end LoopThread

/-! ### A loop that has been told to quit -/

namespace EventLoop

variable {ι F : Type}

/-- `quit_` is set, and `loop()` is past its own assignment to it. -/
structure Stopping (l : EventLoop ι F) : Prop where
  quit : l.quit = true
  started : l.pc ≠ .outside ∧ l.pc ≠ .entered

/-- The polls that are still to return. -/
def pollsLeft (l : EventLoop ι F) : Nat := if l.pc = .polling then 1 else 0

def isPoll : LoopStep ι → Bool
  | .poll _ => true
  | _ => false

theorem Stopping.test {l l' : EventLoop ι F} (h : l.Stopping) (hstep : l.advance .test = some l') :
    l'.pc = .returned := by
  cases advances hstep with
  | leave => rfl
  | goOn _ hquit => exact absurd (hquit.symm.trans h.quit) Bool.false_ne_true

/-- **The loop goes on only to its end**: it does not poll again. -/
theorem Stopping.advance {l l' : EventLoop ι F} {a : LoopStep ι} (h : l.Stopping)
    (hstep : l.advance a = some l') :
    l'.Stopping ∧ l'.pc ≠ .polling ∧ (isPoll a).toNat ≤ l.pollsLeft := by
  obtain ⟨hquit, houtside, hentered⟩ := h
  cases advances hstep with
  | enter hpc => exact absurd hpc houtside
  | resetQuit hpc => exact absurd hpc hentered
  | leave => exact ⟨⟨hquit, by simp⟩, by simp, Nat.zero_le _⟩
  | goOn _ hgoOn => exact absurd (hgoOn.symm.trans hquit) Bool.false_ne_true
  | poll hpc => exact ⟨⟨hquit, by simp⟩, by simp, by simp [isPoll, pollsLeft, hpc]⟩
  | handleWakeup hpc =>
    exact ⟨⟨hquit, houtside, hentered⟩, by simp [handleRead, hpc], Nat.zero_le _⟩
  | handleChannel hpc | callFunctor hpc =>
    exact ⟨⟨hquit, houtside, hentered⟩, by simp [hpc], Nat.zero_le _⟩
  | beginPending | swap | endPending => exact ⟨⟨hquit, by simp⟩, by simp, Nat.zero_le _⟩

/-- What other calls may do to a loop: they leave its thread where it is. -/
structure Called (l l' : EventLoop ι F) : Prop where
  pc : l'.pc = l.pc
  quit : l.quit = true → l'.quit = true
  eventfd : l.eventfd ≠ 0 → l'.eventfd ≠ 0

theorem Called.wakeup (l : EventLoop ι F) : Called l l.wakeup :=
  ⟨rfl, id, fun _ => l.wakeup_eventfd_pos⟩

theorem Called.wakeupIfNeeded (l : EventLoop ι F) (isInLoopThread : Bool) :
    Called l (l.wakeupIfNeeded isInLoopThread) := by
  unfold EventLoop.wakeupIfNeeded
  split
  · exact .wakeup l
  · exact ⟨rfl, id, id⟩

theorem Called.stopping {l l' : EventLoop ι F} (h : Called l l') (hstop : l.Stopping) :
    l'.Stopping :=
  ⟨h.quit hstop.quit, h.pc ▸ hstop.started⟩

end EventLoop

namespace LoopSystem

variable {ι F : Type}

theorem step_cases {s t : LoopSystem ι F} {a : LoopAct ι F} (hstep : s.step a = some t) :
    (∃ b, a = .advance b ∧ s.loop.advance b = some t.loop)
      ∨ (∀ b, a ≠ .advance b) ∧ s.loop.Called t.loop := by
  cases steps hstep with
  | advance _ b l hl => exact Or.inl ⟨b, rfl, hl⟩
  | selfPush | push => exact Or.inr ⟨by simp, rfl, id, id⟩
  | selfQuit | quit => exact Or.inr ⟨by simp, rfl, fun _ => rfl, id⟩
  | selfWakeup => exact Or.inr ⟨by simp, .wakeupIfNeeded s.loop true⟩
  | wakeup => exact Or.inr ⟨by simp, .wakeupIfNeeded s.loop false⟩
  | quitWakeup => exact Or.inr ⟨by simp, .wakeup s.loop⟩

end LoopSystem

namespace LoopThread

variable {ι F : Type} {s t : LoopThread ι F} {a : LoopThreadAct ι F}

/-- A poll of the loop thread returns. -/
def isPoll : LoopThreadAct ι F → Bool
  | .loop (.advance b) => EventLoop.isPoll b
  | _ => false

/-- What a step does to the loop. -/
theorem step_cases (hstep : s.step a = some t) :
    (∃ b, a = .loop (.advance b) ∧ s.sys.loop.advance b = some t.sys.loop)
      ∨ isPoll a = false ∧ s.sys.loop.Called t.sys.loop := by
  have hsys : ∀ {c : LoopAct ι F} {sys : LoopSystem ι F}, s.sys.step c = some sys →
      (∀ b, c ≠ .advance b) → s.sys.loop.Called sys.loop := by
    intro c sys hsys hne
    rcases LoopSystem.step_cases hsys with ⟨b, rfl, _⟩ | ⟨_, hcalled⟩
    · exact absurd rfl (hne b)
    · exact hcalled
  cases a with
  | startLoop | construct | publish | obtain | finish | join =>
    simp only [step, Option.ite_none_right_eq_some, Option.some.injEq] at hstep
    obtain ⟨_, rfl⟩ := hstep
    exact Or.inr ⟨rfl, rfl, id, id⟩
  | callbackQueue cb =>
    simp only [step, Option.ite_none_right_eq_some, Option.some.injEq] at hstep
    obtain ⟨_, rfl⟩ := hstep
    have hcalled := EventLoop.Called.wakeupIfNeeded (s.sys.loop.pushBack cb) true
    exact Or.inr ⟨rfl, hcalled.pc, hcalled.quit, hcalled.eventfd⟩
  | callbackQuit =>
    simp only [step, Option.ite_none_right_eq_some, Option.some.injEq] at hstep
    obtain ⟨_, rfl⟩ := hstep
    exact Or.inr ⟨rfl, rfl, fun _ => rfl, id⟩
  | loop c =>
    simp only [step, Option.ite_none_right_eq_some] at hstep
    obtain ⟨_, hstep⟩ := hstep
    obtain ⟨sys, hc, rfl⟩ := Option.map_eq_some_iff.mp hstep
    rcases LoopSystem.step_cases hc with ⟨b, rfl, hb⟩ | ⟨hne, hcalled⟩
    · exact Or.inl ⟨b, rfl, hb⟩
    · refine Or.inr ⟨?_, hcalled⟩
      cases c with
      | advance b => exact absurd rfl (hne b)
      | _ => rfl
  | destroy =>
    simp only [step, Option.ite_none_right_eq_some] at hstep
    obtain ⟨_, hstep⟩ := hstep
    split at hstep
    · obtain ⟨sys, hc, rfl⟩ := Option.map_eq_some_iff.mp hstep
      exact Or.inr ⟨rfl, hsys hc (by simp)⟩
    · cases hstep
      exact Or.inr ⟨rfl, rfl, id, id⟩
  | destroyWakeup =>
    simp only [step, Option.ite_none_right_eq_some] at hstep
    obtain ⟨_, hstep⟩ := hstep
    obtain ⟨sys, hc, rfl⟩ := Option.map_eq_some_iff.mp hstep
    exact Or.inr ⟨rfl, hsys hc (by simp)⟩

theorem stopping_step (h : s.sys.loop.Stopping) (hstep : s.step a = some t) :
    t.sys.loop.Stopping
      ∧ (isPoll a).toNat + t.sys.loop.pollsLeft ≤ s.sys.loop.pollsLeft := by
  rcases step_cases hstep with ⟨b, rfl, hb⟩ | ⟨hpoll, hcalled⟩
  · obtain ⟨hstop, hpc, hcount⟩ := h.advance hb
    refine ⟨hstop, ?_⟩
    rw [EventLoop.pollsLeft, if_neg hpc]
    exact hcount
  · refine ⟨hcalled.stopping h, ?_⟩
    rw [hpoll, EventLoop.pollsLeft, hcalled.pc]
    exact Nat.le_of_eq (Nat.zero_add _)

/-- **From then on at most the poll that is going on returns.** -/
theorem stopping_run {more : List (LoopThreadAct ι F)} (h : s.sys.loop.Stopping)
    (hrun : Runs.run step s more = some t) :
    more.countP isPoll + t.sys.loop.pollsLeft ≤ s.sys.loop.pollsLeft := by
  induction more generalizing s with
  | nil =>
    cases hrun
    exact Nat.le_of_eq (Nat.zero_add _)
  | cons a more ih =>
    obtain ⟨u, hu, hrest⟩ := Option.bind_eq_some_iff.mp hrun
    obtain ⟨hstop, hcount⟩ := stopping_step h hu
    have hmore := ih hstop hrest
    rw [List.countP_cons]
    have htoNat : (isPoll a).toNat = if isPoll a = true then 1 else 0 := by
      cases isPoll a <;> rfl
    omega

/-! ### A quit that is stored after `loop()`'s own assignment -/

/-- `quit()` finds the loop past `quit_ = false`. -/
def AfterReset (s : LoopThread ι F) : LoopThreadAct ι F → Prop
  | .loop (.quit _) | .destroy =>
    s.thread = .published → s.sys.loop.pc ≠ .outside ∧ s.sys.loop.pc ≠ .entered
  | _ => True

instance (s : LoopThread ι F) : (a : LoopThreadAct ι F) → Decidable (s.AfterReset a)
  | .loop (.quit _) | .destroy => inferInstanceAs (Decidable (_ → _))
  | .loop (.advance _) | .loop (.selfPush _) | .loop .selfWakeup | .loop .selfQuit
  | .loop (.push _ _) | .loop (.wakeup _) | .startLoop | .construct | .callbackQueue _
  | .callbackQuit | .publish | .obtain | .destroyWakeup | .finish | .join =>
    inferInstanceAs (Decidable True)

/-- `armed`: the poll under a `join()` finds the eventfd readable. -/
structure Inv (s : LoopThread ι F) : Prop where
  stopping : s.requested = true → s.sys.loop.Stopping
  owner : s.owner = .quitting ∨ s.owner = .joining → s.requested = true
  armed : s.owner = .joining → s.sys.loop.pc = .polling → s.sys.loop.eventfd ≠ 0

theorem Inv.start : (start : LoopThread ι F).Inv := by
  constructor
  · intro hrequested
    cases hrequested
  · rintro (howner | howner) <;> cases howner
  · intro howner
    cases howner

/-- What a step does to the owner and to `requested`: the request is made together with
    the store to `quit_`, and the owner joins with the eventfd written. -/
theorem owner_cases (hstep : s.step a = some t) :
    (t.requested = s.requested
        ∧ (t.owner = .quitting ∨ t.owner = .joining → t.owner = s.owner))
      ∨ (t.sys.loop = { s.sys.loop with quit := true } ∧ t.requested = true
        ∧ (t.owner = .joining → s.owner = .joining)
        ∧ (s.AfterReset a → s.sys.loop.pc ≠ .outside ∧ s.sys.loop.pc ≠ .entered))
      ∨ t.requested = s.requested ∧ s.owner = .quitting ∧ t.sys.loop.eventfd ≠ 0 := by
  cases a with
  | startLoop | obtain | join =>
    simp only [step, Option.ite_none_right_eq_some, Option.some.injEq] at hstep
    obtain ⟨_, rfl⟩ := hstep
    exact Or.inl ⟨rfl, by simp⟩
  | construct | callbackQueue _ | callbackQuit | publish | finish =>
    simp only [step, Option.ite_none_right_eq_some, Option.some.injEq] at hstep
    obtain ⟨_, rfl⟩ := hstep
    exact Or.inl ⟨rfl, fun _ => rfl⟩
  | loop c =>
    simp only [step, Option.ite_none_right_eq_some] at hstep
    obtain ⟨⟨hthread, _⟩, hstep⟩ := hstep
    obtain ⟨sys, hc, rfl⟩ := Option.map_eq_some_iff.mp hstep
    cases LoopSystem.steps hc with
    | quit => exact Or.inr (Or.inl ⟨rfl, Bool.or_true _, id, fun hafter => hafter hthread⟩)
    | _ => exact Or.inl ⟨Bool.or_false _, fun _ => rfl⟩
  | destroy =>
    simp only [step, Option.ite_none_right_eq_some] at hstep
    obtain ⟨_, hstep⟩ := hstep
    split at hstep
    · rename_i hthread
      obtain ⟨sys, hc, rfl⟩ := Option.map_eq_some_iff.mp hstep
      cases LoopSystem.steps hc with
      | quit => exact Or.inr (Or.inl ⟨rfl, rfl, nofun, fun hafter => hafter hthread⟩)
    · cases hstep
      exact Or.inl ⟨rfl, by simp⟩
  | destroyWakeup =>
    simp only [step, Option.ite_none_right_eq_some] at hstep
    obtain ⟨howner, hstep⟩ := hstep
    obtain ⟨sys, hc, rfl⟩ := Option.map_eq_some_iff.mp hstep
    refine Or.inr (Or.inr ⟨rfl, howner, ?_⟩)
    cases LoopSystem.steps hc with
    | wakeup | quitWakeup => exact EventLoop.wakeup_eventfd_pos _

/-- **One step keeps the invariant**, if no `quit()` is stored before `loop()`'s own
    assignment to `quit_`. -/
theorem Inv.step (h : s.Inv) (hafter : s.AfterReset a) (hstep : s.step a = some t) :
    t.Inv := by
  -- once stopping, the loop keeps its eventfd while it polls
  have harmed : s.requested = true → (s.sys.loop.pc = .polling → s.sys.loop.eventfd ≠ 0) →
      t.sys.loop.pc = .polling → t.sys.loop.eventfd ≠ 0 := by
    intro hrequested hpolling hpc
    rcases step_cases hstep with ⟨b, _, hb⟩ | ⟨_, hcalled⟩
    · exact absurd hpc ((h.stopping hrequested).advance hb).2.1
    · exact hcalled.eventfd (hpolling (hcalled.pc ▸ hpc))
  rcases owner_cases hstep with ⟨hrequested, howner⟩ | ⟨hloop, hrequested, howner, hquit⟩
    | ⟨hrequested, hquitting, heventfd⟩
  · constructor
    · intro hr
      exact (stopping_step (h.stopping (hrequested ▸ hr)) hstep).1
    · intro ho
      rw [hrequested]
      exact h.owner (howner ho ▸ ho)
    · intro ho
      have hjoining : s.owner = .joining := (howner (Or.inr ho)).symm.trans ho
      exact harmed (h.owner (Or.inr hjoining)) (h.armed hjoining)
  · constructor
    · intro _
      rw [hloop]
      exact ⟨rfl, hquit hafter⟩
    · intro _
      exact hrequested
    · intro ho
      exact harmed (h.owner (Or.inr (howner ho))) (h.armed (howner ho))
  · have hr : s.requested = true := h.owner (Or.inl hquitting)
    constructor
    · intro _
      exact (stopping_step (h.stopping hr) hstep).1
    · intro _
      exact hrequested.trans hr
    · intro _ _
      exact heventfd

/-- **A quit that the loop cannot overwrite is not lost.**  In every state of the run,
    once a thread that got the loop from `startLoop()` has stored `quit_ = true` it
    stays, and the next test leaves the loop; under the owner's `join()` the poll that is
    going on is woken up, and no other poll returns. -/
theorem quit_not_lost {acts : List (LoopThreadAct ι F)}
    (hrun : Runs.run step start acts = some s) (halong : Runs.Along step AfterReset start acts) :
    (s.requested = true → s.sys.loop.quit = true
        ∧ (∀ more t, Runs.run step s more = some t → t.sys.loop.quit = true)
        ∧ ∀ l, s.sys.loop.advance .test = some l → l.pc = .returned)
      ∧ (s.owner = .joining → (s.sys.loop.pc = .polling → s.sys.loop.eventfd ≠ 0)
        ∧ ∀ more t, Runs.run step s more = some t →
          more.countP isPoll ≤ s.sys.loop.pollsLeft) := by
  have hinv : s.Inv :=
    Runs.run_induction_along (fun _ _ _ hs hC hstep => hs.step hC hstep) .start halong hrun
  constructor
  · intro hrequested
    have hstop := hinv.stopping hrequested
    refine ⟨hstop.quit, ?_, fun l hl => hstop.test hl⟩
    intro more t hmore
    have hstopping := Runs.run_induction (I := fun u : LoopThread ι F => u.sys.loop.Stopping)
      (fun _ _ _ hu hstep => (stopping_step hu hstep).1) hstop hmore
    exact hstopping.quit
  · intro hjoining
    refine ⟨hinv.armed hjoining, ?_⟩
    intro more t hmore
    have hstop := hinv.stopping (hinv.owner (Or.inr hjoining))
    exact Nat.le_of_add_right_le (stopping_run hstop hmore)

/-- The owner has the loop and destroys the thread while the loop is polling. -/
def timelyQuit : List (LoopThreadAct Nat Nat) :=
  [.startLoop, .construct, .callbackQueue 7, .publish, .obtain, .loop (.advance .enter),
    .loop (.advance .resetQuit), .loop (.advance .test), .destroy, .destroyWakeup]

theorem quit_not_lost_timelyQuit :
    ∃ s, Runs.run step start timelyQuit = some s ∧ s.owner = .joining ∧ s.requested = true
      ∧ s.sys.loop.pc = .polling
      ∧ (s.requested = true → s.sys.loop.quit = true
        ∧ (∀ more t, Runs.run step s more = some t → t.sys.loop.quit = true)
        ∧ ∀ l, s.sys.loop.advance .test = some l → l.pc = .returned)
      ∧ (s.owner = .joining → (s.sys.loop.pc = .polling → s.sys.loop.eventfd ≠ 0)
        ∧ ∀ more t, Runs.run step s more = some t →
          more.countP isPoll ≤ s.sys.loop.pollsLeft) := by
  have hrun : Runs.run step start timelyQuit = some _ := rfl
  refine ⟨_, hrun, rfl, rfl, rfl, quit_not_lost hrun ?_⟩
  decide +kernel

/-- The owner destroys the thread as soon as `startLoop()` has returned; the loop thread
    then comes to `quit_ = false`.  The `wakeup()` of `quit()` ends the first poll, and
    the second one waits for an event that nobody will send. -/
def earlyQuit : List (LoopThreadAct Nat Nat) :=
  [.startLoop, .construct, .publish, .obtain, .destroy, .destroyWakeup,
    .loop (.advance .enter), .loop (.advance .resetQuit), .loop (.advance .test),
    .loop (.advance (.poll [.wakeupChannel])), .loop (.advance .handleEvent),
    .loop (.advance .beginPending), .loop (.advance .swap), .loop (.advance .endPending),
    .loop (.advance .test)]

/-- `quit_` was true after the sixth step. -/
theorem earlyQuit_lost :
    ∃ s t, Runs.run step start (earlyQuit.take 6) = some s
      ∧ Runs.run step s (earlyQuit.drop 6) = some t
      ∧ s.requested = true ∧ s.owner = .joining ∧ s.sys.loop.quit = true
      ∧ t.owner = .joining ∧ t.sys.loop.quit = false ∧ t.sys.loop.pc = .polling
      ∧ t.sys.loop.eventfd = 0 ∧ (earlyQuit.drop 6).countP isPoll = 1 := by
  refine ⟨_, _, rfl, rfl, ?_⟩
  decide +kernel

end LoopThread

end Ymuduo
