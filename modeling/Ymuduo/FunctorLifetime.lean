/-
  Ymuduo/FunctorLifetime.lean
  ===========================
  **Who keeps a connection alive while its functors wait.**

  A connection is destroyed with the last `TcpConnectionPtr` to it.  Here the threads pass such
  pointers on and let go of them, between any two steps; a call into a destroyed connection
  aborts.  The server outlives the run.

  What is pushed before `connectDestroyed` is taken is called no later than in the same batch,
  whatever the users let go of.  For what is pushed later the users have to keep a pointer.
-/
import Ymuduo.HandOver

namespace Ymuduo

/-- `copies` has a thread once for each `TcpConnectionPtr` that it keeps. -/
structure LifetimeSystem where
  threads : ThreadSystem
  copies : ConnId → List Thread
  destroyed : ConnId → Bool

inductive LifetimeAct where
  | step (a : ThreadAct)
  | copy (T U : Thread) (c : ConnId)
  | release (T : Thread) (c : ConnId)
deriving DecidableEq, Repr

namespace LifetimeSystem

def init (name : Name) (listenAddr : InetAddress) (writeCompleteCallback : Bool)
    (pool : List LoopId) : LifetimeSystem where
  threads := .init name listenAddr writeCompleteCallback pool
  copies := fun _ => []
  destroyed := fun _ => false

/-- Some `TcpConnectionPtr` to the connection exists. -/
def Held (s : LifetimeSystem) (c : ConnId) : Prop :=
  s.threads.InMap c ∨ s.copies c ≠ [] ∨ s.threads.Guarded c

instance (s : LifetimeSystem) (c : ConnId) : Decidable (s.Held c) :=
  inferInstanceAs (Decidable (_ ∨ _))

/-- `~TcpConnection`, as soon as the last pointer is gone. -/
def collect (s : LifetimeSystem) : LifetimeSystem :=
  { s with destroyed := fun c => s.destroyed c || ((s.threads.conns c).isSome && ¬ s.Held c) }

/-- The user's code on the thread has a pointer to the connection. -/
def CanUse (s : LifetimeSystem) (T : Thread) (c : ConnId) : Prop :=
  T ∈ s.copies c ∨ s.threads.IsArgument T c

instance (s : LifetimeSystem) (T : Thread) (c : ConnId) : Decidable (s.CanUse T c) :=
  inferInstanceAs (Decidable (_ ∨ _))

/-- The user calls what it has a pointer to; the server is not destroyed. -/
def Allowed (s : LifetimeSystem) : ThreadAct → Prop
  | .userCall T c _ => s.CanUse T c
  | .destroyServer _ => False
  | _ => True

instance (s : LifetimeSystem) : (a : ThreadAct) → Decidable (s.Allowed a)
  | .userCall T c _ => inferInstanceAs (Decidable (s.CanUse T c))
  | .destroyServer _ => inferInstanceAs (Decidable False)
  | .loopStep _ _ | .handleEvent _ _ | .callFunctor _ _ | .task _ _ _ | .start _ | .proceed _ _
  | .userQueue _ _ | .quit _ _ => inferInstanceAs (Decidable True)

/-- The step calls into a destroyed connection. -/
def CallsDestroyed (s : LifetimeSystem) (a : ThreadAct) : Prop :=
  ∃ c ∈ s.threads.target a, s.destroyed c = true

instance (s : LifetimeSystem) (a : ThreadAct) : Decidable (s.CallsDestroyed a) :=
  inferInstanceAs (Decidable (∃ _ ∈ _, _))

def step (s : LifetimeSystem) : LifetimeAct → Option LifetimeSystem
  | .step a =>
    if s.Allowed a then
      (s.threads.step a).map fun t =>
        if s.CallsDestroyed a then { s with threads := s.threads.abort .useAfterFree }
        else { s with threads := t }.collect
    else none
  | .copy T U c =>
    if s.threads.aborted = none ∧ s.threads.RunsUser T ∧ s.CanUse T c then
      some { s with copies := Function.update s.copies c (U :: s.copies c) }
    else none
  | .release T c =>
    if s.threads.aborted = none ∧ s.threads.RunsUser T ∧ T ∈ s.copies c then
      some { s with copies := Function.update s.copies c ((s.copies c).erase T) }.collect
    else none

/-- A loop calls a queued `sendInLoop` or `shutdownInLoop` of `c`. -/
def RunsRaw (s : LifetimeSystem) (c : ConnId) : LifetimeAct → Prop
  | .step (.callFunctor L _) => ∃ f ∈ (s.threads.loop L).functors.head?, f.isRaw c = true
  | _ => False

/-- The users keep a pointer to a connection while one of its functors is late; and the
    entries of the map stay apart. -/
def KeepsPointer (s : LifetimeSystem) : LifetimeAct → Prop
  | .step a => s.threads.OwnEntry a
  | .copy _ _ _ => True
  | .release T c => s.threads.Late c → (s.copies c).erase T ≠ []

instance (s : LifetimeSystem) : (act : LifetimeAct) → Decidable (s.KeepsPointer act)
  | .step a => inferInstanceAs (Decidable (s.threads.OwnEntry a))
  | .copy _ _ _ => inferInstanceAs (Decidable True)
  | .release _ _ => inferInstanceAs (Decidable (_ → _))

/-! ### The connections that are held -/

open ThreadSystem (Routed Kept)

variable {s t : LifetimeSystem} {c : ConnId}

structure Inv (s : LifetimeSystem) : Prop where
  routed : s.threads.Routed
  kept : Kept s.threads s.copies
  held : ∀ c, s.Held c → s.destroyed c = false
  fresh : ∀ c, s.threads.conns c = none → s.destroyed c = false

theorem Held.holds (h : s.Held c) : s.threads.Holds c ∨ s.copies c ≠ [] := by
  rcases h with hmapped | hcopies | hguarded
  · exact Or.inl (Or.inl hmapped)
  · exact Or.inr hcopies
  · exact Or.inl (Or.inr hguarded)

theorem held_of_holds (h : s.threads.Holds c) : s.Held c := by
  rcases h with hmapped | hguarded
  · exact Or.inl hmapped
  · exact Or.inr (Or.inr hguarded)

theorem Inv.collect (h : s.Inv) : s.collect.Inv where
  routed := h.routed
  kept := h.kept
  held := by
    intro c hc
    have hheld : s.Held c := hc
    simp [LifetimeSystem.collect, h.held c hheld, hheld]
  fresh := by
    intro c hc
    have hnone : s.threads.conns c = none := hc
    simp [LifetimeSystem.collect, h.fresh c hnone, hnone]

theorem Inv.initial {name : Name} {listenAddr : InetAddress} {writeCompleteCallback : Bool}
    {pool : List LoopId} : (init name listenAddr writeCompleteCallback pool).Inv := by
  refine ⟨.initial, ⟨?_, ?_, ?_, ?_⟩, fun _ _ => rfl, fun _ _ => rfl⟩
  · intro T c u hin
    cases hin
  · intro T call hcall
    cases hcall
  · intro c conn hconn
    cases hconn
  · rintro c ⟨hfunctors | ⟨e, he, _⟩, _⟩
    · cases hfunctors
    · cases he

/-- What the user can use is held. -/
theorem Inv.held_of_canUse (h : s.Inv) {T : Thread} (hcan : s.CanUse T c) : s.Held c := by
  rcases hcan with hcopy | hargument
  · exact Or.inr (Or.inl (List.ne_nil_of_mem hcopy))
  · have hmem : Task.conn c .user ∈ s.threads.todo T := List.mem_of_head? hargument
    obtain ⟨L, rfl, hhome⟩ := h.routed.tasks T c .user hmem
    obtain ⟨conn, hconn, _⟩ := Option.map_eq_some_iff.mp hhome
    have hloopOf : s.threads.loopOf c = L :=
      Option.some.inj ((ThreadSystem.home_loopOf hconn).symm.trans hhome)
    refine Or.inr (Or.inr (Or.inl ⟨.conn c .user, ?_, ?_⟩))
    · rw [hloopOf]
      exact hmem
    · simp [Task.of]

/-- The users pass their pointers on or let go of them. -/
theorem Inv.copies (h : s.Inv) {copies : ConnId → List Thread}
    (hcalls : ∀ T call, s.threads.call T = some call → T ∈ s.copies call.target →
      T ∈ copies call.target)
    (hlate : ∀ c, s.threads.Late c → copies c ≠ [])
    (hheld : ∀ c, copies c ≠ [] → s.Held c) :
    ({ s with copies := copies } : LifetimeSystem).Inv where
  routed := h.routed
  kept := by
    refine { h.kept with calls := fun T call hcall => ?_, late := hlate }
    obtain ⟨hcan, hraw⟩ := h.kept.calls T call hcall
    exact ⟨hcan.imp_left (hcalls T call hcall), hraw⟩
  held := by
    intro c hc
    rcases Held.holds hc with hholds | hcopies
    · exact h.held c (held_of_holds hholds)
    · exact h.held c (hheld c hcopies)
  fresh := h.fresh

/-- What a thread does for a connection that is not destroyed. -/
theorem Inv.threads (h : s.Inv) {act : ThreadAct} {u : ThreadSystem} (hallowed : s.Allowed act)
    (hown : s.threads.OwnEntry act) (halive : ¬ s.CallsDestroyed act)
    (hstep : s.threads.step act = some u) : ({ s with threads := u } : LifetimeSystem).Inv := by
  have hcan : ∀ T c request, act = .userCall T c request → s.CanUse T c := by
    rintro T c request rfl
    exact hallowed
  have hserver : ∀ order, act ≠ .destroyServer order := by
    rintro order rfl
    exact hallowed
  obtain ⟨who, hmoves, hwho⟩ := ThreadSystem.step_moves h.kept h.routed hcan hserver hown hstep
  have hkeeps := h.routed.step hstep
  refine ⟨hkeeps.routed, hmoves.kept, fun c hc => ?_, fun c hc => ?_⟩
  · rcases Held.holds hc with hholds | hcopies
    · rcases hmoves.holds c hholds with hold | hnew
      · exact h.held c (held_of_holds hold)
      · rcases hwho c hnew with htarget | rfl
        · rw [← Bool.not_eq_true]
          exact fun hdestroyed => halive ⟨c, htarget, hdestroyed⟩
        · exact h.fresh _ (h.routed.fresh _ (Nat.le_refl _))
    · exact h.held c (Or.inr (Or.inl hcopies))
  · apply h.fresh c
    cases hconn : s.threads.conns c with
    | none => rfl
    | some conn =>
      have hhome := hkeeps.home c _ (ThreadSystem.home_of hconn)
      have hnone : u.conns c = none := hc
      rw [ThreadSystem.home, hnone] at hhome
      cases hhome

/-- **Every step keeps the connections apart from the destroyed ones.** -/
theorem Inv.step (h : s.Inv) {act : LifetimeAct} (hkeeps : s.KeepsPointer act)
    (hstep : s.step act = some t) : t.Inv := by
  cases act with
  | step a =>
    simp only [LifetimeSystem.step, Option.ite_none_right_eq_some] at hstep
    obtain ⟨hallowed, hstep⟩ := hstep
    obtain ⟨u, hu, rfl⟩ := Option.map_eq_some_iff.mp hstep
    split
    · have hrouted := (h.routed.abort .useAfterFree).routed
      exact ⟨hrouted, { h.kept with }, h.held, h.fresh⟩
    · rename_i halive
      exact (h.threads hallowed hkeeps halive hu).collect
  | copy T U c =>
    simp only [LifetimeSystem.step, Option.ite_none_right_eq_some, Option.some.injEq] at hstep
    obtain ⟨⟨_, _, hcan⟩, rfl⟩ := hstep
    apply h.copies
    · intro V call _ hV
      by_cases hc : call.target = c
      · rw [hc, Function.update_self]
        exact List.mem_cons_of_mem U (hc ▸ hV)
      · rwa [Function.update_of_ne hc]
    · intro d hd
      by_cases hdc : d = c
      · rw [hdc, Function.update_self]
        exact List.cons_ne_nil U _
      · rw [Function.update_of_ne hdc]
        exact h.kept.late d hd
    · intro d hd
      by_cases hdc : d = c
      · exact hdc ▸ h.held_of_canUse hcan
      · rw [Function.update_of_ne hdc] at hd
        exact Or.inr (Or.inl hd)
  | release T c =>
    simp only [LifetimeSystem.step, Option.ite_none_right_eq_some, Option.some.injEq] at hstep
    obtain ⟨⟨_, ⟨hidle, _⟩, _⟩, rfl⟩ := hstep
    apply Inv.collect
    apply h.copies
    · intro V call hcall hV
      by_cases hc : call.target = c
      · -- a thread that is in a call lets go of nothing
        have hne : V ≠ T := by
          rintro rfl
          cases hidle.symm.trans hcall
        rw [hc, Function.update_self]
        exact (List.mem_erase_of_ne hne).mpr (hc ▸ hV)
      · rwa [Function.update_of_ne hc]
    · intro d hd
      by_cases hdc : d = c
      · subst hdc
        rw [Function.update_self]
        exact hkeeps hd
      · rw [Function.update_of_ne hdc]
        exact h.kept.late d hd
    · intro d hd
      by_cases hdc : d = c
      · subst hdc
        rw [Function.update_self] at hd
        refine Or.inr (Or.inl fun hnil => hd ?_)
        rw [hnil, List.erase_nil]
      · rw [Function.update_of_ne hdc] at hd
        exact Or.inr (Or.inl hd)

/-- **A functor that waits is called on a living connection.** -/
theorem Inv.raw_alive (h : s.Inv) {L : LoopId} {f : Job}
    (hf : f ∈ (s.threads.loop L).functors) (hraw : f.isRaw c = true) : s.destroyed c = false := by
  have hhome : s.threads.home c = some L := by
    have hrouted := h.routed.functors L f (List.mem_append_left _ hf)
    cases f with
    | listen => cases hraw
    | functor f =>
      cases f with
      | conn d f =>
        simp only [Job.isRaw, Bool.and_eq_true, decide_eq_true_eq] at hraw
        exact hraw.1 ▸ hrouted
      | removeConnectionInLoop _ | user => cases hraw
  obtain ⟨conn, hconn, rfl⟩ := Option.map_eq_some_iff.mp hhome
  have hloopOf : s.threads.loopOf c = conn.loop :=
    Option.some.inj ((ThreadSystem.home_loopOf hconn).symm.trans hhome)
  -- `connectDestroyed` of its own batch, or of the queue, has a pointer
  have hguarded : .connectDestroyed c
      ∈ (s.threads.loop conn.loop).called ++ (s.threads.loop conn.loop).waiting → s.Held c := by
    intro hin
    have hmem : s.threads.loopOf c ∈ [mainLoop, s.threads.loopOf c] := by simp
    refine Or.inr (Or.inr (Or.inr ⟨_, hmem, .connectDestroyed c, ?_, rfl⟩))
    rw [hloopOf]
    exact hin
  apply h.held c
  rcases h.kept.entry c conn hconn with htaken | hentry | hqueued
  · by_cases hbatch : .connectDestroyed c
        ∈ (s.threads.loop conn.loop).called ++ (s.threads.loop conn.loop).functors
    · apply hguarded
      rcases List.mem_append.mp hbatch with hcalled | hfunctors
      · exact List.mem_append_left _ hcalled
      · exact List.mem_append_right _ (List.mem_append_left _ hfunctors)
    · have hlate : s.threads.Late c := by
        refine ⟨htaken, Or.inr ⟨⟨f, ?_, hraw⟩, ?_⟩⟩
        · rw [hloopOf]
          exact hf
        · rw [hloopOf]
          exact hbatch
      exact Or.inr (Or.inl (h.kept.late c hlate))
  · exact Or.inl ⟨conn, hconn, hentry⟩
  · exact hguarded (List.mem_append_right _ (List.mem_append_right _ hqueued))

/-- **Queued work does not outlive the connection** if the users keep a pointer while a late
    functor waits. -/
theorem queued_work_alive {name : Name} {listenAddr : InetAddress} {writeCompleteCallback : Bool}
    {pool : List LoopId} {acts : List LifetimeAct}
    (hrun : Runs.run step (init name listenAddr writeCompleteCallback pool) acts = some s)
    (hkeeps : Runs.Along step KeepsPointer (init name listenAddr writeCompleteCallback pool) acts) :
    ∀ c act, s.RunsRaw c act → s.destroyed c = false := by
  have hinv := Runs.run_induction_along (I := Inv)
    (fun _ _ _ h hmeets hstep => h.step hmeets hstep) .initial hkeeps hrun
  intro c act hruns
  cases act with
  | copy _ _ _ | release _ _ => exact hruns.elim
  | step a =>
    cases a with
    | callFunctor L res =>
      obtain ⟨f, hhead, hraw⟩ := hruns
      exact hinv.raw_alive (List.mem_of_head? hhead) hraw
    | loopStep _ _ | handleEvent _ _ | task _ _ _ | start _ | userCall _ _ _ | proceed _ _
    | userQueue _ _ | quit _ _ | destroyServer _ => exact hruns.elim

/-- One I/O loop.  Another thread gets a pointer in the first callback of a connection, and
    finds `kConnected` in `send`; then the peer closes, and `removeConnectionInLoop` runs. -/
def testedThenClosed : List LifetimeAct :=
  ([.start (.loop 0), .loopStep 0 .enter, .loopStep 0 .resetQuit, .loopStep 1 .enter,
    .loopStep 1 .resetQuit, .loopStep 0 .test, .loopStep 0 (.poll [.channel .acceptor]),
    .handleEvent 0 (some 5), .loopStep 0 .beginPending, .loopStep 0 .swap, .loopStep 0 .endPending,
    -- `connectEstablished`
    .loopStep 1 .test, .loopStep 1 (.poll [.wakeupChannel]), .handleEvent 1 none,
    .loopStep 1 .beginPending, .loopStep 1 .swap, .callFunctor 1 (.ok 0),
    .task (.loop 1) (.ok []) (.ok 0)] : List ThreadAct).map .step
  ++ .copy (.loop 1) (.user 0) 0
  :: ([.task (.loop 1) (.ok []) (.ok 0), .loopStep 1 .endPending,
    .userCall (.user 0) 0 (.send [7]),
    -- a read of 0 bytes, `handleClose` and `removeConnection`
    .loopStep 1 .test, .loopStep 1 (.poll [.channel (.conn 0 { epollIn := true })]),
    .handleEvent 1 none, .task (.loop 1) (.ok []) (.ok 0), .task (.loop 1) (.ok []) (.ok 0),
    .task (.loop 1) (.ok []) (.ok 0), .task (.loop 1) (.ok []) (.ok 0),
    .loopStep 1 .beginPending, .loopStep 1 .swap, .loopStep 1 .endPending,
    .loopStep 0 .test, .loopStep 0 (.poll [.wakeupChannel]), .handleEvent 0 none,
    .loopStep 0 .beginPending, .loopStep 0 .swap, .callFunctor 0 (.ok 0),
    .loopStep 0 .endPending] : List ThreadAct).map .step

/-- `send` goes on, and the thread lets go of its pointer. -/
def pushAndRelease : List LifetimeAct :=
  [.step (.proceed (.user 0) (.ok 0)), .release (.user 0) 0]

def nextBatch : List LifetimeAct :=
  ([.loopStep 1 .test, .loopStep 1 (.poll [.wakeupChannel]), .handleEvent 1 none,
    .loopStep 1 .beginPending, .loopStep 1 .swap] : List ThreadAct).map .step

/-- The push lands behind `connectDestroyed`, in the same batch. -/
def timelyPush : List LifetimeAct :=
  testedThenClosed ++ pushAndRelease ++ nextBatch ++ [.step (.callFunctor 1 (.ok 0))]

theorem queued_work_alive_timelyPush :
    ∃ s, Runs.run step (init ['s'] ⟨(127, 0, 0, 1), 80⟩ false [1]) timelyPush = some s
      ∧ s.RunsRaw 0 (.step (.callFunctor 1 (.ok 0))) ∧ s.threads.Ran 0 ∧ s.copies 0 = []
      ∧ s.destroyed 0 = false := by
  obtain ⟨s, hs, hruns, hran, hcopies⟩ : ∃ s,
      Runs.run step (init ['s'] ⟨(127, 0, 0, 1), 80⟩ false [1]) timelyPush = some s
        ∧ s.RunsRaw 0 (.step (.callFunctor 1 (.ok 0))) ∧ s.threads.Ran 0 ∧ s.copies 0 = [] := by
    refine ⟨_, rfl, ⟨_, rfl, rfl⟩, ?_⟩
    decide +kernel
  exact ⟨s, hs, hruns, hran, hcopies, queued_work_alive hs (by decide +kernel) 0 _ hruns⟩

/-- `connectDestroyed` has run and its batch is gone when the push lands. -/
def latePush : List LifetimeAct :=
  testedThenClosed ++ nextBatch
    ++ [.step (.callFunctor 1 (.ok 0)), .step (.loopStep 1 .endPending)]
    ++ pushAndRelease ++ nextBatch

/-- The loop calls `sendInLoop` of a destroyed connection. -/
theorem latePush_runsDestroyed :
    ∃ s t, Runs.run step (init ['s'] ⟨(127, 0, 0, 1), 80⟩ false [1]) latePush = some s
      ∧ s.RunsRaw 0 (.step (.callFunctor 1 (.ok 0))) ∧ s.destroyed 0 = true
      ∧ s.step (.step (.callFunctor 1 (.ok 0))) = some t
      ∧ t.threads.aborted = some .useAfterFree := by
  refine ⟨_, _, rfl, ⟨_, rfl, rfl⟩, ?_, rfl, ?_⟩
  · decide +kernel
  · decide +kernel

end LifetimeSystem

end Ymuduo
