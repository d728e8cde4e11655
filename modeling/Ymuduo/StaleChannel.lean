/-
  Ymuduo/StaleChannel.lean
  ========================
  **No poller and no loop refers to a connection that is destroyed.**

  While the server is alive, the last pointer to a connection goes only after
  `removeChannel` has run: the map, the functors and the tasks hand it on until then.  So
  whatever is found in `channels_`, in the epoll set or among the active channels is a
  living connection with an open descriptor, and a descriptor that the kernel gives out
  again is unknown to every poller.
-/
import Ymuduo.LifeCycle

namespace Ymuduo

/-! ### The pollers -/

variable {conns : ConnId → Option ConnRecord} {poller : LoopId → EPollPoller ConnId}
  {L : LoopId} {fd : Fd} {c : ConnId}

/-- What a poller has at a descriptor is the connection with that descriptor. -/
theorem Pollers.owner (h : Pollers conns poller)
    (hknown : (poller L).channels fd = some c
      ∨ ((poller L).interest fd).map Prod.snd = some c) :
    ∃ r, conns c = some r ∧ r.alive = true ∧ r.conn.loop = L ∧ r.conn.channel.fd = fd := by
  have hentry : (poller L).channels fd ≠ none ∨ (poller L).interest fd ≠ none := by
    rcases hknown with hchannels | hinterest
    · left
      rw [hchannels]
      exact Option.some_ne_none c
    · right
      intro hnone
      rw [hnone] at hinterest
      exact Option.some_ne_none c hinterest.symm
  obtain ⟨d, r, hd, halive, hloop, hfd⟩ := h.entries L fd hentry
  have hregistered := h.registered d r hd halive
  subst hloop hfd
  have hsame : c = d := by
    unfold EPollPoller.Registered at hregistered
    split at hregistered
    · rcases hentry with hne | hne
      · exact absurd hregistered.1 hne
      · exact absurd hregistered.2 hne
    · rcases hknown with hchannels | hinterest
      · exact Option.some.inj (hchannels.symm.trans hregistered.1)
      · exact Option.some.inj (hinterest.symm.trans hregistered.2)
    · rcases hknown with hchannels | hinterest
      · exact Option.some.inj (hchannels.symm.trans hregistered.1)
      · rw [hregistered.2] at hinterest
        exact absurd hinterest.symm (Option.some_ne_none c)
  subst hsame
  exact ⟨r, hd, halive, rfl, rfl⟩

/-- No poller knows a descriptor that no living connection has. -/
theorem Pollers.unknown (h : Pollers conns poller)
    (hfree : ∀ c r, conns c = some r → r.alive = true → r.conn.channel.fd ≠ fd) (L : LoopId) :
    (poller L).channels fd = none ∧ (poller L).interest fd = none := by
  by_contra hentry
  rw [Classical.not_and_iff_not_or_not] at hentry
  obtain ⟨c, r, hc, halive, _, hfd⟩ := h.entries L fd hentry
  exact hfree c r hc halive hfd

namespace ServerSystem

variable {s t : ServerSystem}

/-! ### The loops -/

/-- An active channel that is not handled yet is that of a living connection. -/
theorem Inv.alive_of_active (h : s.Inv) (hserver : s.server.alive = true) {revents : EpollEvents}
    (hactive : .channel (.conn c revents) ∈ (s.loop L).activeChannels) :
    ∃ r, s.conns c = some r ∧ r.alive = true ∧ r.conn.loop = L := by
  have hhome : s.home c = some L := h.wiring.routing.active L _ hactive
  obtain ⟨r, hr, rfl⟩ := Option.map_eq_some_iff.mp hhome
  have hview : (s.view c r).active ≠ [] := by
    apply List.ne_nil_of_mem
    apply List.mem_filterMap.mpr
    exact ⟨_, hactive, if_pos rfl⟩
  have hestablished := ((h.life c r hr).of_active hview).resolve_right (by simp [view, hserver])
  exact ⟨r, hr, hestablished.opened.alive, rfl⟩

/-- While `handleEvent` and its callbacks run, the connection is alive, and held. -/
theorem Inv.alive_of_task (h : s.Inv) (hserver : s.server.alive = true) {task : ConnTask}
    (htask : .conn c task ∈ s.todo L) :
    (∃ r, s.conns c = some r ∧ r.alive = true) ∧ s.destroy c = none := by
  have hhome : s.home c = some L := h.wiring.routing.tasks L c task htask
  obtain ⟨r, hr, rfl⟩ := Option.map_eq_some_iff.mp hhome
  have hview : (s.view c r).tasks ≠ [] := by
    apply List.ne_nil_of_mem
    apply List.mem_filterMap.mpr
    exact ⟨_, htask, if_pos rfl⟩
  have halive := ((h.life c r hr).alive (Or.inl hview)).resolve_right (by simp [view, hserver])
  refine ⟨⟨r, hr, halive⟩, ?_⟩
  have hloop : r.conn.loop ∈ mainLoop :: s.server.loops :=
    h.wiring.roster.loops c r.place (by rw [place, hr]; rfl)
  have hheld : s.Held c r := by
    right
    right
    exact ⟨r.conn.loop, hloop, Or.inl ⟨_, htask, by simp [Task.of]⟩⟩
  rw [ServerSystem.destroy, hr, Option.bind_some, if_neg]
  exact fun hgone => hgone.2 hheld

/-- `handleEvent` of a connection finds it alive and calls its callbacks. -/
theorem Inv.handleEvent_alive (h : s.Inv) (hserver : s.server.alive = true)
    {revents : EpollEvents} {rest : List (ActiveChannel Source)} {accepted : Option Fd}
    (hactive : (s.loop L).activeChannels = .channel (.conn c revents) :: rest)
    (hstep : s.step (.handleEvent L accepted) = some t) :
    t.aborted = s.aborted ∧ t.todo L
      = (Channel.handleEventWithGuard revents).map fun cb => .conn c (.callback cb) := by
  obtain ⟨r, hr, halive, _⟩ := h.alive_of_active hserver (hactive ▸ List.mem_cons_self)
  obtain ⟨htodo, a, rest', l, hactive', _, hhandled⟩ := step_does hstep
  obtain ⟨rfl, rfl⟩ := List.cons.inj (hactive.symm.trans hactive')
  obtain ⟨q, hq, rfl⟩ := Option.map_eq_some_iff.mp hhandled
  rw [show q = r from Option.some.inj (Eq.trans hq.symm hr), if_pos halive]
  refine ⟨rfl, ?_⟩
  rw [pushTasks, todo_setTodo, show (s.setLoop L l).todo = s.todo from rfl, htodo,
    List.append_nil]

section Run

variable {name : Name} {listenAddr : InetAddress} {writeCompleteCallback : Bool}
  {loops : List LoopId} {acts : List ServerAct}

/-- **No stale channel.**  In every reachable state with the server alive:
    `channels_` and the epoll sets have living connections only, each at its descriptor;
    so has the rest of the active channels, and `handleEvent` runs their callbacks;
    a connection is not destroyed under a callback;
    and a free descriptor is in no poller, nor is that of a new connection. -/
theorem no_stale_channel
    (hrun : Runs.run step (start (.new name listenAddr writeCompleteCallback loops)) acts = some s)
    (hserver : s.server.alive = true) (hfew : s.accepted < 2 ^ 31) :
    (∀ L fd c, (s.poller L).channels fd = some c
          ∨ ((s.poller L).interest fd).map Prod.snd = some c →
        ∃ r, s.conns c = some r ∧ r.alive = true ∧ r.conn.loop = L ∧ r.conn.channel.fd = fd)
      ∧ (∀ L c revents, .channel (.conn c revents) ∈ (s.loop L).activeChannels →
        ∃ r, s.conns c = some r ∧ r.alive = true ∧ r.conn.loop = L)
      ∧ (∀ L c revents rest, (s.loop L).activeChannels = .channel (.conn c revents) :: rest →
        ∀ fd t, s.step (.handleEvent L fd) = some t → t.aborted = none
          ∧ t.todo L = (Channel.handleEventWithGuard revents).map fun cb => .conn c (.callback cb))
      ∧ (∀ L c task, .conn c task ∈ s.todo L →
        (∃ r, s.conns c = some r ∧ r.alive = true) ∧ s.destroy c = none)
      ∧ (∀ fd, s.FdFree fd → ∀ L, (s.poller L).channels fd = none ∧ (s.poller L).interest fd = none)
      ∧ ∀ c r, s.conns c = some r → r.alive = true → r.conn.channel.index = .kNew →
        ∀ L, (s.poller L).channels r.conn.channel.fd = none
          ∧ (s.poller L).interest r.conn.channel.fd = none := by
  obtain ⟨hinv, hsafe⟩ := inv_run hrun
  have hrunning := hsafe hserver hfew
  have h := hinv hrunning
  have hpollers := h.wiring.pollers
  refine ⟨fun L fd c hknown => hpollers.owner hknown,
    fun L c revents hactive => h.alive_of_active hserver hactive, ?_,
    fun L c task htask => h.alive_of_task hserver htask, ?_, ?_⟩
  · intro L c revents rest hactive fd t hstep
    obtain ⟨haborted, htodo⟩ := h.handleEvent_alive hserver hactive hstep
    exact ⟨haborted.trans hrunning, htodo⟩
  · intro fd hfree
    apply hpollers.unknown
    intro c r hr halive
    have haccepted : c < s.accepted := by
      apply (h.wiring.roster.domain c).mp
      rw [place, hr]
      rfl
    exact hfree c haccepted r hr halive
  · intro c r hr halive hnew L
    by_contra hentry
    rw [Classical.not_and_iff_not_or_not] at hentry
    obtain ⟨d, q, hq, hqalive, hloop, hfd⟩ := hpollers.entries L _ hentry
    obtain rfl : d = c := hpollers.fds d c q r hq hr hqalive halive hfd
    obtain rfl : q = r := Option.some.inj (hq.symm.trans hr)
    have hregistered := hpollers.registered d q hq hqalive
    unfold EPollPoller.Registered at hregistered
    rw [hnew, hloop] at hregistered
    rcases hentry with hne | hne
    · exact hne hregistered.1
    · exact hne hregistered.2

end Run

/-- The connection has been reported and is about to be handled. -/
theorem no_stale_channel_reported :
    ∃ s, Runs.run step (start (.new ['s'] ⟨(127, 0, 0, 1), 80⟩ true [1])) (oneConnection.take 22)
        = some s
      ∧ (s.loop 1).activeChannels = [.channel (.conn 0 { epollIn := true })]
      ∧ (∃ r, s.conns 0 = some r ∧ r.alive = true ∧ r.conn.loop = 1 ∧ r.conn.channel.fd = 5)
      ∧ ∃ r, s.conns 0 = some r ∧ r.alive = true ∧ r.conn.loop = 1 := by
  obtain ⟨s, hs, hserver, hfew, hactive, hchannels⟩ : ∃ s, Runs.run step
      (start (.new ['s'] ⟨(127, 0, 0, 1), 80⟩ true [1])) (oneConnection.take 22) = some s
      ∧ s.server.alive = true ∧ s.accepted < 2 ^ 31
      ∧ (s.loop 1).activeChannels = [.channel (.conn 0 { epollIn := true })]
      ∧ (s.poller 1).channels 5 = some 0 := by
    refine ⟨_, rfl, ?_⟩
    decide +kernel
  have hstale := no_stale_channel hs hserver hfew
  refine ⟨s, hs, hactive, hstale.1 1 5 0 (Or.inl hchannels), hstale.2.1 1 0 { epollIn := true } ?_⟩
  rw [hactive]
  exact List.mem_cons_self

end ServerSystem

end Ymuduo
