/-
  Ymuduo/Settling.lean
  ====================
  **From every state the server can come to rest.**

  While nobody calls `quit`, a loop thread that has something left to do can go on, and what
  it does is paid for (`WorkBound`).  So from every reachable state the loops, without any
  new report of a poll and whatever the reads and writes return, can run until there is nothing
  left to do; then every connection is served or released (`Quiescence`).  No connection
  is stuck half open.
-/
import Ymuduo.Quiescence
import Ymuduo.WorkBound

namespace Ymuduo.ServerSystem

variable {s t : ServerSystem} {L M : LoopId} {l l' : EventLoop Source Functor}

/-! ### The loop threads -/

/-- Functors that have been called exist only while the batch is, and reported channels only
    while they are handled. -/
structure Tidy (l : EventLoop Source Functor) : Prop where
  called : l.pc ≠ .calling → l.called = []
  active : l.pc ≠ .handling → l.activeChannels = []

theorem Tidy.control (h : Tidy l) (hcontrol : SameControl l l') : Tidy l' := by
  constructor
  · rw [hcontrol.pc, hcontrol.called]
    exact h.called
  · rw [hcontrol.pc, hcontrol.activeChannels]
    exact h.active

theorem Tidy.moves (h : Tidy l) (hmoves : LoopMoves l l') : Tidy l' := by
  cases hmoves with
  | stay => exact h
  | quit => exact ⟨h.called, h.active⟩
  | advance hl =>
    cases EventLoop.advances hl with
    | enter hpc | resetQuit hpc | leave hpc _ =>
      exact ⟨fun _ => h.called (by simp [hpc]), fun _ => h.active (by simp [hpc])⟩
    | goOn hpc _ => exact ⟨fun _ => h.called (by simp [hpc]), fun _ => rfl⟩
    | poll hpc active => exact ⟨fun _ => h.called (by simp [hpc]), fun hne => absurd rfl hne⟩
    | handleWakeup hpc rest _ | handleChannel hpc _ rest _ =>
      exact ⟨fun _ => h.called (by simp [hpc]), fun hne => absurd hpc hne⟩
    | beginPending hpc hactive => exact ⟨fun _ => h.called (by simp [hpc]), fun _ => hactive⟩
    | swap hpc => exact ⟨fun hne => absurd rfl hne, fun _ => h.active (by simp [hpc])⟩
    | callFunctor hpc cb rest _ =>
      exact ⟨fun hne => absurd hpc hne, fun _ => h.active (by simp [hpc])⟩
    | endPending hpc _ => exact ⟨fun _ => rfl, fun _ => h.active (by simp [hpc])⟩

theorem tidy_run {server : TcpServer} {acts : List ServerAct}
    (hrun : Runs.run step (start server) acts = some s) (L : LoopId) : Tidy (s.loop L) := by
  refine Runs.run_induction (I := fun u => ∀ L, Tidy (u.loop L)) (fun u act w hu hstep M => ?_)
    (fun _ => ⟨fun _ => rfl, fun _ => rfl⟩) hrun L
  obtain ⟨l, hmoves, hcontrol⟩ := step_moves hstep M
  exact ((hu M).moves hmoves).control hcontrol

/-- The loop thread has nothing in its hands: how far it is from the functors that wait. -/
def rank (l : EventLoop Source Functor) : Nat :=
  match l.pc with
  | .calling => if l.functors.isEmpty then 7 else 0
  | .outside => 6
  | .entered => 5
  | .testing => 4
  | .polling => 3
  | .handling => 2
  | .swapping => 1
  | .returned => 0

/-- **A loop thread that has functors to call gets nearer to them** by a step of its own. -/
theorem exists_advance (htidy : Tidy l) (hpc : l.pc ≠ .returned) (hquit : l.quit = false)
    (hactive : l.activeChannels = []) (hfunctors : l.functors = [])
    (hwaits : l.called ++ l.waiting ≠ []) :
    ∃ a l', l.advance a = some l' ∧ rank l' < rank l ∧ l'.pc ≠ .returned ∧ l'.quit = false
      ∧ a ≠ .handleEvent ∧ a ≠ .callFunctor ∧ ∀ active, a = .poll active → active = [] := by
  cases h : l.pc with
  | returned => exact absurd h hpc
  | outside =>
    refine ⟨.enter, _, if_pos h, ?_, by simp, hquit, by simp, by simp,
      by simp⟩
    simp [rank, h]
  | entered =>
    refine ⟨.resetQuit, _, if_pos h, ?_, by simp, rfl, by simp, by simp,
      by simp⟩
    simp [rank, h]
  | testing =>
    refine ⟨.test, { l with pc := .polling, activeChannels := [] }, ?_, ?_, by simp, hquit,
      by simp, by simp, by simp⟩
    · simp [EventLoop.advance, h, hquit]
    · simp [rank, h]
  | polling =>
    refine ⟨.poll [], _, if_pos h, ?_, by simp, hquit, by simp, by simp, ?_⟩
    · simp [rank, h]
    · intro active heq
      exact (LoopStep.poll.inj heq).symm
  | handling =>
    refine ⟨.beginPending, _, if_pos ⟨h, by simp [hactive]⟩, ?_, by simp, hquit, by simp, by simp,
      by simp⟩
    simp [rank, h]
  | swapping =>
    refine ⟨.swap, _, if_pos h, ?_, by simp, hquit, by simp, by simp,
      by simp⟩
    have hpending : l.pendingFunctors ≠ [] := by
      intro hnone
      have hcalled := htidy.called (by simp [h])
      simp [EventLoop.waiting, hcalled, hfunctors, hnone] at hwaits
    simp [rank, h, hpending]
  | calling =>
    refine ⟨.endPending, _, if_pos ⟨h, by simp [hfunctors]⟩, ?_, by simp, hquit, by simp, by simp,
      by simp⟩
    simp [rank, h, hfunctors]

/-! ### The system -/

/-- In `loop()` or not yet, and nobody has called `quit`. -/
def GoesOn (l : EventLoop Source Functor) : Prop := l.pc ≠ .returned ∧ l.quit = false

def Looping (s : ServerSystem) : Prop := ∀ L ∈ mainLoop :: s.server.loops, GoesOn (s.loop L)

instance (l : EventLoop Source Functor) : Decidable (GoesOn l) :=
  inferInstanceAs (Decidable (_ ∧ _))

instance (s : ServerSystem) : Decidable s.Looping :=
  inferInstanceAs (Decidable (∀ L ∈ mainLoop :: s.server.loops, _))

theorem GoesOn.control (h : GoesOn l) (hcontrol : SameControl l l') : GoesOn l' := by
  unfold GoesOn
  rw [hcontrol.pc, hcontrol.quit]
  exact h

/-- Only the test of `quit_` leaves the loop. -/
theorem GoesOn.works (h : GoesOn l) {a : LoopStep Source} (ha : a = .handleEvent ∨ a = .callFunctor)
    (hl : l.advance a = some l') : GoesOn l' := by
  cases EventLoop.advances hl with
  | handleWakeup _ _ _ | handleChannel _ _ _ _ | callFunctor _ _ _ _ => exact h
  | enter _ | resetQuit _ | leave _ _ | goOn _ _ | poll _ _ | beginPending _ _ | swap _
  | endPending _ _ => cases ha <;> contradiction

/-- A step of a loop thread of the server when nothing is reported to it; `kernel` says what
    the system calls return. -/
def Works (kernel : ServerSystem → ReadvResult × SysResult) (s : ServerSystem) : ServerAct → Prop
  | .loopStep L a => L ∈ mainLoop :: s.server.loops ∧ ∀ active, a = .poll active → active = []
  | .handleEvent L fd => L ∈ mainLoop :: s.server.loops ∧ fd = none
  | .callFunctor L res => L ∈ mainLoop :: s.server.loops ∧ res = (kernel s).2
  | .task L readRes res =>
    L ∈ mainLoop :: s.server.loops ∧ readRes = (kernel s).1 ∧ res = (kernel s).2
  | _ => False

/-- What is left to do, and how far the loop threads are from it. -/
def measure (S : Finset LoopId) (s : ServerSystem) : Nat × Nat :=
  (s.work S, ∑ L ∈ S, rank (s.loop L))

def Smaller : Nat × Nat → Nat × Nat → Prop := Prod.Lex (· < ·) (· < ·)

theorem Smaller.wellFounded : WellFounded Smaller :=
  WellFounded.prod_lex Nat.lt_wfRel.wf Nat.lt_wfRel.wf

/-- The loops go on, and there is less to do. -/
structure Nearer (s t : ServerSystem) : Prop where
  server : SameServer s t
  looping : s.Looping → t.Looping
  smaller : ∀ S : Finset LoopId, (∀ L ∈ mainLoop :: s.server.loops, L ∈ S) →
    Smaller (measure S t) (measure S s)

/-- A step that does what has waited brings the system nearer to rest. -/
theorem Nearer.of_worker {act : ServerAct} (hstep : s.step act = some t)
    (hworker : worker act = some L) (hL : L ∈ mainLoop :: s.server.loops)
    (hserver : SameServer s t) (hgoes : ∀ M, GoesOn (s.loop M) → GoesOn (t.loop M)) :
    Nearer s t := by
  refine ⟨hserver, fun hlooping M hM => ?_, fun S hS => ?_⟩
  · rw [hserver.loops] at hM
    exact hgoes M (hlooping M hM)
  · have hpays := step_pays (S := S) (fun M hM => by
      rw [hworker, Option.mem_some_iff] at hM
      exact hM ▸ hS L hL) hstep
    have hgift : gift act = 0 := by
      cases act with
      | handleEvent _ _ | callFunctor _ _ | task _ _ _ => rfl
      | loopStep _ _ | userCall _ _ _ _ | userCopy _ _ | userDrop _ | userQueue _ _ | quit _
      | destroy _ | destroyServer _ => cases hworker
    simp only [spent, hworker, Option.toList_some, List.length_singleton, hgift] at hpays
    exact Prod.Lex.left _ _ (by omega)

/-- A step of the loop towards its functors brings the system nearer to rest. -/
theorem Nearer.of_advance {a : LoopStep Source} {l : EventLoop Source Functor}
    (hl : (s.loop L).advance a = some l) (hL : L ∈ mainLoop :: s.server.loops)
    (hpoll : ∀ active, a = .poll active → active = []) (hrank : rank l < rank (s.loop L))
    (hgoes : GoesOn l) : Nearer s (s.setLoop L l) := by
  refine ⟨⟨rfl, rfl, rfl, rfl, rfl⟩, fun hlooping M hM => ?_, fun S hS => ?_⟩
  · by_cases hML : M = L
    · subst hML
      rw [loop_setLoop]
      exact hgoes
    · rw [loop_setLoop_ne _ _ hML]
      exact hlooping M hM
  · have hgift : gift (.loopStep L a) = 0 := by
      cases a with
      | poll active =>
        rw [hpoll active rfl]
        rfl
      | enter | resetQuit | test | handleEvent | beginPending | swap | callFunctor
      | endPending => rfl
    have hwork := work_le_of_others (fun M hM => loopWork_setLoop_ne l hM) (advance_work hl) S
    have hsum := sum_of_others (f := fun M => rank (s.loop M))
      (g := fun M => rank ((s.setLoop L l).loop M))
      (fun M hM => by rw [loop_setLoop_ne _ _ hM]) (hS L hL)
    rw [loop_setLoop] at hsum
    rw [hgift, Nat.add_zero] at hwork
    unfold Smaller measure
    rcases Nat.lt_or_eq_of_le hwork with hless | heq
    · exact Prod.Lex.left _ _ hless
    · rw [heq]
      exact Prod.Lex.right _ (by omega)

/-- A reported channel can be handled. -/
theorem exists_handleActive (halive : s.server.alive = true)
    {a : ActiveChannel Source} (hrouted : a.RoutedTo s.home L) :
    ∃ t, s.handleActive L none a = some t := by
  cases a with
  | wakeupChannel => exact ⟨s, rfl⟩
  | channel source =>
    cases source with
    | acceptor =>
      refine ⟨s, ?_⟩
      simp only [handleActive, acceptorHandleRead, if_pos halive]
    | conn c revents =>
      obtain ⟨r, hr, _⟩ := Option.map_eq_some_iff.mp (show s.home c = some L from hrouted)
      simp only [handleActive, hr, Option.map_some]
      exact ⟨_, rfl⟩

/-- A loop with tasks does the next one. -/
theorem exists_task (kernel : ServerSystem → ReadvResult × SysResult) (hrunning : s.aborted = none)
    (hL : L ∈ mainLoop :: s.server.loops) {task : Task} {rest : List Task}
    (htodo : s.todo L = task :: rest) :
    ∃ act t, Works kernel s act ∧ s.step act = some t ∧ Nearer s t := by
  have hstep : s.step (.task L (kernel s).1 (kernel s).2)
      = some ((s.setTodo L rest).runTask L (kernel s).1 (kernel s).2 task) := by
    simp only [step, if_pos hrunning, htodo]
  obtain ⟨n, _, hcosts⟩ := runTask_costs (s.setTodo L rest) L (kernel s).1 (kernel s).2 task
  have hset : SameServer s (s.setTodo L rest) := ⟨rfl, rfl, rfl, rfl, rfl⟩
  exact ⟨.task L _ _, _, ⟨hL, rfl, rfl⟩, hstep, .of_worker hstep rfl hL (hset.trans hcosts.server)
    fun M hM => hM.control (hcosts.control M)⟩

/-- A loop with reported channels handles the next one. -/
theorem exists_handleEvent (kernel : ServerSystem → ReadvResult × SysResult) (h : s.Inv)
    (hrunning : s.aborted = none) (halive : s.server.alive = true) (htidy : Tidy (s.loop L))
    (hL : L ∈ mainLoop :: s.server.loops) (htodo : s.todo L = []) {a : ActiveChannel Source}
    {rest : List (ActiveChannel Source)} (hactive : (s.loop L).activeChannels = a :: rest) :
    ∃ act t, Works kernel s act ∧ s.step act = some t ∧ Nearer s t := by
  have hpc : (s.loop L).pc = .handling := by
    by_contra hne
    have hnone := htidy.active hne
    rw [hactive] at hnone
    cases hnone
  obtain ⟨l, hl⟩ : ∃ l, (s.loop L).advance .handleEvent = some l := by
    simp only [EventLoop.advance, if_pos hpc, hactive]
    cases a with
    | wakeupChannel => exact ⟨_, rfl⟩
    | channel source => exact ⟨_, rfl⟩
  obtain ⟨t, ht⟩ := exists_handleActive (s := s.setLoop L l) halive
    (h.wiring.routing.active L a (hactive ▸ List.mem_cons_self))
  have hstep : s.step (.handleEvent L none) = some t := by
    simp only [step, if_pos hrunning, if_pos htodo, hactive, hl, Option.bind_some, ht]
  obtain ⟨u, hjoined, n, _, hcosts⟩ := handleActive_costs ht
  rcases hjoined with rfl | ⟨fd, hfd, _⟩
  · have hset : SameServer s (s.setLoop L l) := ⟨rfl, rfl, rfl, rfl, rfl⟩
    refine ⟨.handleEvent L none, t, ⟨hL, rfl⟩, hstep,
      .of_worker hstep rfl hL (hset.trans hcosts.server) ?_⟩
    intro M hM
    refine GoesOn.control ?_ (hcosts.control M)
    by_cases hML : M = L
    · subst hML
      rw [loop_setLoop]
      exact hM.works (Or.inl rfl) hl
    · rw [loop_setLoop_ne _ _ hML]
      exact hM
  · cases hfd

/-- A loop with a batch of functors calls the next one. -/
theorem exists_callFunctor (kernel : ServerSystem → ReadvResult × SysResult) (h : s.Inv)
    (hrunning : s.aborted = none) (hL : L ∈ mainLoop :: s.server.loops) (htodo : s.todo L = [])
    {f : Functor} {rest : List Functor} (hfunctors : (s.loop L).functors = f :: rest) :
    ∃ act t, Works kernel s act ∧ s.step act = some t ∧ Nearer s t := by
  have hpc : (s.loop L).pc = .calling := by
    by_contra hne
    have hnone := (h.wiring.loops L).batch hne
    rw [hfunctors] at hnone
    cases hnone
  obtain ⟨l, hl⟩ : ∃ l, (s.loop L).advance .callFunctor = some l := by
    simp only [EventLoop.advance, if_pos hpc, hfunctors]
    exact ⟨_, rfl⟩
  have hstep : s.step (.callFunctor L (kernel s).2)
      = some ((s.setLoop L l).runFunctor L (kernel s).2 f) := by
    simp only [step, if_pos hrunning, if_pos htodo, hfunctors, hl, Option.map_some]
  obtain ⟨n, _, hcosts⟩ := runFunctor_costs (s.setLoop L l) L (kernel s).2 f
  have hset : SameServer s (s.setLoop L l) := ⟨rfl, rfl, rfl, rfl, rfl⟩
  refine ⟨.callFunctor L _, _, ⟨hL, rfl⟩, hstep,
    .of_worker hstep rfl hL (hset.trans hcosts.server) ?_⟩
  intro M hM
  refine GoesOn.control ?_ (hcosts.control M)
  by_cases hML : M = L
  · subst hML
    rw [loop_setLoop]
    exact hM.works (Or.inr rfl) hl
  · rw [loop_setLoop_ne _ _ hML]
    exact hM

/-- **No deadlock.**  While something is left to do, some loop of the server can go on. -/
theorem exists_nearer (kernel : ServerSystem → ReadvResult × SysResult) (h : s.Inv)
    (hrunning : s.aborted = none) (halive : s.server.alive = true)
    (htidy : ∀ L, Tidy (s.loop L)) (hlooping : s.Looping) (hnot : ¬ s.Quiescent) :
    ∃ act t, Works kernel s act ∧ s.step act = some t ∧ Nearer s t := by
  simp only [Quiescent, not_forall] at hnot
  obtain ⟨L, hL, hbusy⟩ := hnot
  cases htodo : s.todo L with
  | cons task rest => exact exists_task kernel hrunning hL htodo
  | nil =>
    cases hactive : (s.loop L).activeChannels with
    | cons a rest => exact exists_handleEvent kernel h hrunning halive (htidy L) hL htodo hactive
    | nil =>
      cases hfunctors : (s.loop L).functors with
      | cons f rest => exact exists_callFunctor kernel h hrunning hL htodo hfunctors
      | nil =>
        -- only `pendingFunctors_` or a batch that has been called is left
        have hwaits : (s.loop L).called ++ (s.loop L).waiting ≠ [] :=
          fun hnone => hbusy ⟨htodo, hnone, hactive⟩
        obtain ⟨hreturned, hquit⟩ := hlooping L hL
        obtain ⟨a, l, hl, hrank, hpc, hquit', hhandle, hcall, hpoll⟩ :=
          exists_advance (htidy L) hreturned hquit hactive hfunctors hwaits
        refine ⟨.loopStep L a, s.setLoop L l, ⟨hL, hpoll⟩, ?_,
          .of_advance hl hL hpoll hrank ⟨hpc, hquit'⟩⟩
        have henabled : s.LoopStepEnabled L a := by
          cases a with
          | handleEvent => exact absurd rfl hhandle
          | callFunctor => exact absurd rfl hcall
          | poll active =>
            rw [hpoll active rfl]
            exact ⟨List.nodup_nil, nofun⟩
          | enter | resetQuit | test | beginPending | swap | endPending => trivial
        simp only [step, if_pos hrunning, if_pos (And.intro htodo henabled), hl, Option.map_some]

/-- **The server can always come to rest.**  Without anything new being reported or accepted,
    whatever the reads and writes return, the loop threads have a way to a state in which
    they have nothing left to do; every connection accepted so far is then served or
    released. -/
theorem settles {name : Name} {listenAddr : InetAddress} {writeCompleteCallback : Bool}
    {loops : List LoopId} {acts : List ServerAct}
    (hrun : Runs.run step (start (.new name listenAddr writeCompleteCallback loops)) acts = some s)
    (halive : s.server.alive = true) (hfew : s.accepted < 2 ^ 31) (hlooping : s.Looping)
    (kernel : ServerSystem → ReadvResult × SysResult) :
    ∃ works t, Runs.run step s works = some t ∧ Runs.Along step (Works kernel) s works
      ∧ t.Quiescent ∧ t.accepted = s.accepted
      ∧ ∀ c r, t.conns c = some r → t.Serving c r ∨ t.Released c r := by
  obtain ⟨hinv, hsafe⟩ := inv_run hrun
  have hrunning := hsafe halive hfew
  let S := (mainLoop :: s.server.loops).toFinset
  obtain ⟨works, t, hworks, halong, ⟨hinv', hrunning', _, hserver, _⟩, hquiet⟩ :=
    @Runs.run_until _ _ step _ _ Smaller.wellFounded (measure S)
      (fun t => t.Inv ∧ t.aborted = none ∧ (∀ L, Tidy (t.loop L)) ∧ SameServer s t ∧ t.Looping)
      Quiescent (Works kernel)
      (by
        rintro u ⟨hu, hrunning, htidy, hserver, hlooping⟩ hnot
        obtain ⟨act, t, hworks, hstep, hnearer⟩ := exists_nearer kernel hu hrunning
          (hserver.alive.trans halive) htidy hlooping hnot
        have hserver' := hserver.trans hnearer.server
        have hsound := hu.sound hstep
        have hrunning' := hsound.safe (hserver'.alive.trans halive)
          (hserver'.accepted.symm ▸ hfew)
        refine ⟨act, t, hworks, hstep, ⟨hsound.inv hrunning', hrunning', fun M => ?_, hserver',
          hnearer.looping hlooping⟩, hnearer.smaller S fun L hL => ?_⟩
        · obtain ⟨l, hmoves, hcontrol⟩ := step_moves hstep M
          exact ((htidy M).moves hmoves).control hcontrol
        · rw [hserver.loops] at hL
          exact List.mem_toFinset.mpr hL)
      s ⟨hinv hrunning, hrunning, tidy_run hrun, .refl s, hlooping⟩
  refine ⟨works, t, hworks, halong, hquiet, hserver.accepted, fun c r hr => ?_⟩
  exact (hinv'.settled hrunning' (hserver.alive.trans halive) (hserver.accepted.symm ▸ hfew) hquiet
    hr).imp_right And.left

theorem settles_oneConnection :
    ∃ s, Runs.run step (start (.new ['s'] ⟨(127, 0, 0, 1), 80⟩ true [1])) (oneConnection.take 26)
        = some s ∧ ¬ s.Quiescent
      ∧ ∀ kernel, ∃ works t, Runs.run step s works = some t
        ∧ Runs.Along step (Works kernel) s works ∧ t.Quiescent ∧ t.accepted = s.accepted
        ∧ ∀ c r, t.conns c = some r → t.Serving c r ∨ t.Released c r := by
  obtain ⟨s, hs, halive, hfew, hlooping, hbusy⟩ : ∃ s,
      Runs.run step (start (.new ['s'] ⟨(127, 0, 0, 1), 80⟩ true [1])) (oneConnection.take 26)
        = some s ∧ s.server.alive = true ∧ s.accepted < 2 ^ 31 ∧ s.Looping ∧ ¬ s.Quiescent := by
    refine ⟨_, rfl, ?_⟩
    decide +kernel
  exact ⟨s, hs, hbusy, settles hs halive hfew hlooping⟩

end Ymuduo.ServerSystem
