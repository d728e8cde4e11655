/-
  Ymuduo/Quiescence.lean
  ======================
  **A server at rest has no connection half open.**

  When no loop has anything left to do (no task, no functor, no reported channel), every
  connection is at one of two ends: served (in `connections_`, registered for reading, the
  user told UP) or released (erased, out of every poller, all steps of its life done, the
  user told UP and DOWN).  A released connection is kept alive by the user's own copies
  only, and when these are gone `~TcpConnection` runs without a failing `assert`.  A store of
  `kDisconnecting` over `kDisconnected` would leave a third end; `ServerSystem` has none.
-/
import Ymuduo.LifeCycle

namespace Ymuduo

namespace ConnView

/-- **With a live server an idle connection is served or gone.** -/
theorem Life.of_rest {v : ConnView} (h : v.Life) (hidle : v.Idle) (hserver : v.server = true) :
    v.Established ∨ v.Gone := by
  cases h with
  | queued h => exact absurd (by simp [h.queue]) hidle.queue.1
  | announcing h => cases hidle.tasks.symm.trans h.tasks
  | established h => exact Or.inl h
  | downPending h => cases hidle.tasks.symm.trans h.tasks
  | closePending h => exact absurd hidle.tasks h.tasks_ne
  | removing h => cases hidle.removes.symm.trans h.removes
  | destroying h => exact absurd (by simp [h.queue]) hidle.queue.2
  | gone h => exact Or.inr h
  | dropPending h => cases hidle.tasks.symm.trans h.tasks
  | dropTold h => exact absurd hidle.tasks h.tasks_ne
  | stray h => cases hserver.symm.trans h.server

end ConnView

namespace ServerSystem

/-- No loop of the server has anything to do. -/
def Quiescent (s : ServerSystem) : Prop :=
  ∀ L ∈ mainLoop :: s.server.loops, s.todo L = []
    ∧ (s.loop L).called ++ (s.loop L).waiting = [] ∧ (s.loop L).activeChannels = []

instance (s : ServerSystem) : Decidable s.Quiescent :=
  inferInstanceAs (Decidable (∀ L ∈ mainLoop :: s.server.loops, _))

/-- In `connections_`, registered for reading, and announced. -/
structure Serving (s : ServerSystem) (c : ConnId) (r : ConnRecord) : Prop where
  alive : r.alive = true
  state : r.conn.state = .kConnected ∨ r.conn.state = .kDisconnecting
  mapped : s.server.connections r.conn.name = some c
  channels : (s.poller r.conn.loop).channels r.conn.channel.fd = some c
  interest : ((s.poller r.conn.loop).interest r.conn.channel.fd).map Prod.snd = some c
  reading : r.conn.channel.isReading = true
  steps : r.steps = [.newConnection, .connectEstablished]
  trace : ConnView.Up r.trace

/-- Nothing of the server knows the connection any more, and its life is over. -/
structure Released (s : ServerSystem) (c : ConnId) (r : ConnRecord) : Prop where
  state : r.conn.state = .kDisconnected
  unmapped : ∀ name, s.server.connections name ≠ some c
  channels : ∀ L fd, (s.poller L).channels fd ≠ some c
  interest : ∀ L fd, ((s.poller L).interest fd).map Prod.snd ≠ some c
  steps : r.steps = [.newConnection, .connectEstablished, .handleClose, .removeConnectionInLoop,
    .connectDestroyed]
  trace : ConnView.UpDown r.trace

variable {s t : ServerSystem} {c : ConnId} {r : ConnRecord}

/-- At rest a connection is held by the map and by the user. -/
theorem Quiescent.held (h : s.Quiescent) (r : ConnRecord) :
    s.Held c r ↔ s.server.connections r.conn.name = some c ∨ 0 < s.copies c := by
  constructor
  · rintro (hmapped | hcopies | ⟨L, hL, hheld⟩)
    · exact Or.inl hmapped
    · exact Or.inr hcopies
    · obtain ⟨htodo, hfunctors, _⟩ := h L hL
      rw [htodo, hfunctors] at hheld
      rcases hheld with ⟨u, hu, _⟩ | ⟨f, hf, _⟩
      · cases hu
      · cases hf
  · rintro (hmapped | hcopies)
    · exact Or.inl hmapped
    · exact Or.inr (Or.inl hcopies)

theorem Quiescent.idle (h : s.Quiescent) (hwiring : s.Wiring) (hr : s.conns c = some r) :
    (s.view c r).Idle := by
  have hloop : r.conn.loop ∈ mainLoop :: s.server.loops :=
    hwiring.roster.loops c r.place (by rw [place, hr, Option.map_some])
  obtain ⟨htodo, hfunctors, _⟩ := h _ hloop
  obtain ⟨_, hmain, _⟩ := h mainLoop List.mem_cons_self
  have hwaiting := (List.append_eq_nil_iff.mp hfunctors).2
  have hmainWaiting := (List.append_eq_nil_iff.mp hmain).2
  refine ⟨?_, ?_, ?_, ?_⟩
  · simp [view, htodo]
  · simp [view, hmainWaiting]
  · simp [view, hwaiting]
  · simp [view, hwaiting]

theorem Inv.serving (h : s.Inv) (hr : s.conns c = some r) (halive : s.server.alive = true)
    (hfew : s.accepted < 2 ^ 31) (hest : (s.view c r).Established) : s.Serving c r := by
  have hplace : s.place c = some r.place := by rw [place, hr, Option.map_some]
  have hsteps : r.steps = [.newConnection, .connectEstablished] := hest.steps
  have hremoved : r.place.removed = false := by simp [ConnRecord.place, hsteps]
  have hopened : r.alive = true := hest.opened.alive
  have hreg := h.wiring.pollers.registered c r hr hopened
  unfold EPollPoller.Registered at hreg
  rw [show r.conn.channel.index = .kAdded from hest.opened.index] at hreg
  exact ⟨hopened, hest.state, h.wiring.roster.listed halive hfew c r.place hplace hremoved, hreg.1,
    hreg.2, hest.opened.reading, hsteps, hest.trace⟩

/-- A poller that knows the connection has it registered. -/
theorem Wiring.not_known (h : s.Wiring) (hr : s.conns c = some r)
    (hindex : r.conn.channel.index = .kNew) (L : LoopId) (fd : Fd) :
    (s.poller L).channels fd ≠ some c ∧ ((s.poller L).interest fd).map Prod.snd ≠ some c := by
  have hnew : ∀ d q, s.conns d = some q → q.alive = true → q.conn.loop = L →
      q.conn.channel.fd = fd → (s.poller L).channels fd = some c
        ∨ ((s.poller L).interest fd).map Prod.snd = some c → False := by
    rintro d q hq hlive rfl rfl hknown
    have hreg := h.pollers.registered d q hq hlive
    unfold EPollPoller.Registered at hreg
    split at hreg
    · simp [hreg] at hknown
    · rename_i hadded
      have heq : d = c := by
        rcases hknown with hknown | hknown
        · exact Option.some.inj (hreg.1.symm.trans hknown)
        · exact Option.some.inj (hreg.2.symm.trans hknown)
      subst heq
      rw [hq] at hr
      cases hr
      cases hindex.symm.trans hadded
    · rename_i hdeleted
      have heq : d = c := by
        rcases hknown with hknown | hknown
        · exact Option.some.inj (hreg.1.symm.trans hknown)
        · simp [hreg.2] at hknown
      subst heq
      rw [hq] at hr
      cases hr
      cases hindex.symm.trans hdeleted
  constructor
  · intro hknown
    obtain ⟨d, q, hq, hlive, hloop, hfd⟩ :=
      h.pollers.entries L fd (Or.inl (by simp [hknown]))
    exact hnew d q hq hlive hloop hfd (Or.inl hknown)
  · intro hknown
    have hsome : (s.poller L).interest fd ≠ none := by
      intro hnone
      simp [hnone] at hknown
    obtain ⟨d, q, hq, hlive, hloop, hfd⟩ := h.pollers.entries L fd (Or.inr hsome)
    exact hnew d q hq hlive hloop hfd (Or.inr hknown)

theorem Inv.released (h : s.Inv) (hr : s.conns c = some r) (hgone : (s.view c r).Gone) :
    s.Released c r := by
  have hsteps : r.steps = [.newConnection, .connectEstablished, .handleClose,
    .removeConnectionInLoop, .connectDestroyed] := hgone.steps
  refine ⟨hgone.state, ?_, fun L fd => (h.wiring.not_known hr hgone.index L fd).1,
    fun L fd => (h.wiring.not_known hr hgone.index L fd).2, hsteps, hgone.trace⟩
  intro name hmapped
  obtain ⟨p, hp, _, hremoved⟩ := h.wiring.roster.mapped name c hmapped
  rw [place, hr, Option.map_some, Option.some.injEq] at hp
  subst hp
  simp [ConnRecord.place, hsteps] at hremoved

/-- At rest, with the invariant. -/
theorem Inv.settled (h : s.Inv) (hrunning : s.aborted = none) (halive : s.server.alive = true)
    (hfew : s.accepted < 2 ^ 31) (hquiet : s.Quiescent) (hr : s.conns c = some r) :
    s.Serving c r ∨ s.Released c r ∧ (r.alive = true → s.copies c = 0 →
      s.step (.destroy c) = some (s.setConn c { r with alive := false })) := by
  rcases (h.life c r hr).of_rest (hquiet.idle h.wiring hr) halive with hest | hgone
  · exact Or.inl (h.serving hr halive hfew hest)
  · have hreleased := h.released hr hgone
    refine Or.inr ⟨hreleased, fun hlive hcopies => ?_⟩
    have hnot : ¬ s.Held c r := by
      rw [hquiet.held]
      rintro (hmapped | hkept)
      · exact hreleased.unmapped _ hmapped
      · omega
    simp only [ServerSystem.step, if_pos hrunning, ServerSystem.destroy, hr, Option.bind_some,
      if_pos (And.intro hlive hnot), if_pos hreleased.state]

/-- **A server at rest serves its connections or has released them.**  A released connection
    that the user keeps no copy of is destroyed without a failing `assert`. -/
theorem quiescent_settled {name : Name} {listenAddr : InetAddress}
    {writeCompleteCallback : Bool} {loops : List LoopId} {acts : List ServerAct}
    (hrun : Runs.run step (start (.new name listenAddr writeCompleteCallback loops)) acts = some s)
    (halive : s.server.alive = true) (hfew : s.accepted < 2 ^ 31) (hquiet : s.Quiescent) :
    ∀ c r, s.conns c = some r → s.Serving c r
      ∨ s.Released c r ∧ (r.alive = true → s.copies c = 0 →
          s.step (.destroy c) = some (s.setConn c { r with alive := false })) := by
  obtain ⟨hinv, hsafe⟩ := inv_run hrun
  have hrunning := hsafe halive hfew
  exact fun c r hr => (hinv hrunning).settled hrunning halive hfew hquiet hr

/-- One connection is closed by its peer, and a second one is accepted with a descriptor of
    its own; the user keeps no copy. -/
def closedAndServed : List ServerAct :=
  oneConnection.dropLast
    ++ [.loopStep 0 .test, .loopStep 0 (.poll [.channel .acceptor]), .handleEvent 0 (some 6),
      .loopStep 0 .beginPending, .loopStep 0 .swap, .loopStep 0 .endPending,
      .loopStep 1 .test, .loopStep 1 (.poll [.wakeupChannel]), .handleEvent 1 none,
      .loopStep 1 .beginPending, .loopStep 1 .swap, .callFunctor 1 (.ok 0),
      .task 1 (.ok []) (.ok 0), .task 1 (.ok []) (.ok 0), .loopStep 1 .endPending]

theorem quiescent_settled_closedAndServed :
    ∃ s, Runs.run step (start (.new ['s'] ⟨(127, 0, 0, 1), 80⟩ true [1])) closedAndServed = some s
      ∧ s.accepted = 2 ∧ ∀ c r, s.conns c = some r → s.Serving c r
        ∨ s.Released c r ∧ (r.alive = true → s.copies c = 0 →
            s.step (.destroy c) = some (s.setConn c { r with alive := false })) := by
  obtain ⟨s, hs, halive, haccepted, hquiet⟩ : ∃ s,
      Runs.run step (start (.new ['s'] ⟨(127, 0, 0, 1), 80⟩ true [1])) closedAndServed = some s
      ∧ s.server.alive = true ∧ s.accepted = 2 ∧ s.Quiescent := by
    refine ⟨_, rfl, rfl, rfl, ?_⟩
    decide +kernel
  exact ⟨s, hs, haccepted, quiescent_settled hs halive (by rw [haccepted]; decide) hquiet⟩

end ServerSystem

end Ymuduo
