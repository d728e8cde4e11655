/-
  Ymuduo/LifeCycle.lean
  =====================
  **The life cycle of connections, over every run of a `ServerSystem`.**

  `Inv` says that the parts of the system hang together and that every connection is at
  some stage of its `Life`.  Every step keeps it (`Sound`), or aborts the process, which
  it only does after `~TcpServer` or when the ids of connections have wrapped around.
-/
import Ymuduo.ConnLife
import Ymuduo.ServerView

namespace Ymuduo.ServerSystem

structure Inv (s : ServerSystem) : Prop where
  wiring : s.Wiring
  life : ∀ c r, s.conns c = some r → (s.view c r).Life

/-- What a step from `s` to `t` has to show. -/
structure Sound (s t : ServerSystem) : Prop where
  inv : t.aborted = none → t.Inv
  safe : t.server.alive = true → t.accepted < 2 ^ 31 → t.aborted = none
  complete : t.aborted = none → ∀ c r r', s.conns c = some r → t.conns c = some r' →
    (s.view c r).Complete (t.view c r')

variable {s t : ServerSystem} {c d : ConnId} {r r' : ConnRecord} {v v' : ConnView} {L : LoopId}

/-- A step that keeps all records. -/
theorem Sound.of_inv (hinv : t.Inv) (hsafe : t.aborted = none) (hconns : t.conns = s.conns) :
    Sound s t := by
  refine ⟨fun _ => hinv, fun _ _ => hsafe, ?_⟩
  intro _ c r r' hr hr'
  rw [hconns, hr] at hr'
  cases hr'
  exact .of_steps rfl

theorem Sound.of_abort (h : t.aborted ≠ none) (hserver : t.server.alive = false) : Sound s t := by
  refine ⟨fun hnone => absurd hnone h, fun halive => ?_, fun hnone => absurd hnone h⟩
  cases hserver.symm.trans halive

theorem Sound.of_conns {u : ServerSystem} (h : Sound u t) (hconns : u.conns = s.conns) :
    Sound s t := by
  refine ⟨h.inv, h.safe, fun hrunning c r r' hr hr' => ?_⟩
  exact h.complete hrunning c r r' (by rw [hconns]; exact hr) hr'

/-- Only `c` has moved, and it is at some stage again. -/
theorem Acts.inv (h : Acts c s t v) (hlife : v.Life)
    (hothers : ∀ d, d ≠ c → ∀ q, s.conns d = some q → (s.view d q).Life) : t.Inv := by
  refine ⟨h.wiring, fun d q hq => ?_⟩
  by_cases hd : d = c
  · subst hd
    rw [← Option.some.inj ((viewOf_of hq).symm.trans h.view)] at hlife
    exact hlife
  · have hview := h.others d hd
    rw [viewOf_of hq] at hview
    obtain ⟨q', hq', hsame⟩ := of_viewOf hview.symm
    rw [hsame]
    exact hothers d hd q' hq'

/-- **A step in which one connection does something.**  `s₁` is `s` without the task,
    the functor or the event that has been taken. -/
theorem Sound.of_follows (h : s.Inv) (hr : s.conns c = some r) (s₁ : ServerSystem)
    (hrunning : s₁.aborted = none) (hserver : s₁.server.alive = s.server.alive)
    (hothers : ∀ d, d ≠ c → s₁.viewOf d = s.viewOf d) {result : Option ConnView}
    (hfollows : Follows c s₁ t result) (hkeeps : (s.view c r).Keeps result) : Sound s t := by
  cases result with
  | none =>
    refine .of_abort hfollows.1 ?_
    by_contra hlive
    rw [Bool.not_eq_false, hfollows.2, hserver] at hlive
    cases hkeeps.1 hlive
  | some w =>
    obtain ⟨hlife, hcomplete⟩ := hkeeps.2 w rfl
    refine ⟨fun _ => Acts.inv hfollows hlife ?_, fun _ _ => hfollows.aborted.trans hrunning, ?_⟩
    · intro d hd q hq
      have hview := hothers d hd
      rw [viewOf_of hq] at hview
      obtain ⟨q', hq', hsame⟩ := of_viewOf hview.symm
      rw [hsame]
      exact h.life d q' hq'
    · intro _ d q q' hq hq'
      by_cases hd : d = c
      · subst hd
        rw [hr] at hq
        cases hq
        rw [← Option.some.inj ((viewOf_of hq').symm.trans hfollows.view)] at hcomplete
        exact hcomplete
      · have hview := (hfollows.others d hd).trans (hothers d hd)
        rw [viewOf_of hq, viewOf_of hq'] at hview
        rw [Option.some.inj hview]
        exact .of_steps rfl

/-! ### The loop threads -/

theorem view_setLoop (s : ServerSystem) (l : EventLoop Source Functor) (d : ConnId)
    (q : ConnRecord) : (s.setLoop L l).view d q = { s.view d q with
      queue := if q.conn.loop = L then l.waiting.filterMap (Functor.of d) else (s.view d q).queue
      removes :=
        if mainLoop = L then l.waiting.count (.removeConnectionInLoop d) else (s.view d q).removes
      active := if q.conn.loop = L then l.activeChannels.filterMap (ActiveChannel.of d)
        else (s.view d q).active } := by
  simp only [view, setLoop]
  by_cases hloop : q.conn.loop = L
  · by_cases hmain : mainLoop = L
    · simp [hloop, hmain]
    · simp [hloop, hmain]
  · by_cases hmain : mainLoop = L
    · simp [hloop, hmain]
    · simp [hloop, hmain]

/-- The loop has at most taken a functor of the connection. -/
theorem view_setLoop_queue {l : EventLoop Source Functor} {q : ConnRecord}
    (hremoves : mainLoop = L → l.waiting.count (.removeConnectionInLoop d)
      = (s.loop L).waiting.count (.removeConnectionInLoop d))
    (hactive : q.conn.loop = L → l.activeChannels.filterMap (ActiveChannel.of d)
      = (s.loop L).activeChannels.filterMap (ActiveChannel.of d)) :
    (s.setLoop L l).view d q = { s.view d q with
      queue := if q.conn.loop = L then l.waiting.filterMap (Functor.of d)
        else (s.view d q).queue } := by
  have hcount : (if mainLoop = L then l.waiting.count (.removeConnectionInLoop d)
      else (s.view d q).removes) = (s.view d q).removes := by
    split
    · rename_i hmain
      rw [hremoves hmain, view, hmain]
    · rfl
  have hevents : (if q.conn.loop = L then l.activeChannels.filterMap (ActiveChannel.of d)
      else (s.view d q).active) = (s.view d q).active := by
    split
    · rename_i hloop
      rw [hactive hloop, view, hloop]
    · rfl
  rw [view_setLoop, hcount, hevents]

/-- The loop has taken nothing that is about the connection. -/
theorem view_setLoop_same {l : EventLoop Source Functor} {q : ConnRecord}
    (hqueue : q.conn.loop = L →
      l.waiting.filterMap (Functor.of d) = (s.loop L).waiting.filterMap (Functor.of d))
    (hremoves : mainLoop = L → l.waiting.count (.removeConnectionInLoop d)
      = (s.loop L).waiting.count (.removeConnectionInLoop d))
    (hactive : q.conn.loop = L → l.activeChannels.filterMap (ActiveChannel.of d)
      = (s.loop L).activeChannels.filterMap (ActiveChannel.of d)) :
    (s.setLoop L l).view d q = s.view d q := by
  rw [view_setLoop_queue hremoves hactive]
  split
  · rename_i hloop
    rw [hqueue hloop, view, hloop]
  · rfl

theorem Wiring.setLoop (h : s.Wiring) {l : EventLoop Source Functor} (hwf : l.WF)
    (hwaiting : l.waiting ⊆ (s.loop L).waiting)
    (hactive : ∀ a ∈ l.activeChannels, a.RoutedTo s.home L) :
    (s.setLoop L l).Wiring := by
  refine ⟨?_, h.roster, h.pollers, { h.routing with functors := ?_, active := ?_ }, h.heads⟩
  · intro M
    by_cases hM : M = L
    · subst hM
      rw [loop_setLoop]
      exact hwf
    · rw [loop_setLoop_ne _ _ hM]
      exact h.loops M
  · intro M f hf
    by_cases hM : M = L
    · subst hM
      rw [loop_setLoop] at hf
      exact h.routing.functors M f (hwaiting hf)
    · rw [loop_setLoop_ne _ _ hM] at hf
      exact h.routing.functors M f hf
  · intro M a hin
    by_cases hM : M = L
    · subst hM
      rw [loop_setLoop] at hin
      exact hactive a hin
    · rw [loop_setLoop_ne _ _ hM] at hin
      exact h.routing.active M a hin

theorem active_of_eq_some {a : ActiveChannel Source} {revents : EpollEvents}
    (h : a.of c = some revents) : a = .channel (.conn c revents) := by
  cases a with
  | wakeupChannel => cases h
  | channel source =>
    cases source with
    | acceptor => cases h
    | conn d revents' =>
      simp only [ActiveChannel.of, Option.ite_none_right_eq_some, Option.some.injEq] at h
      obtain ⟨rfl, rfl⟩ := h
      rfl

/-- One poll reports a channel at most once. -/
theorem length_active_of {active : List (ActiveChannel Source)}
    (h : (active.map channelOf).Nodup) (c : ConnId) :
    (active.filterMap (ActiveChannel.of c)).length ≤ 1 := by
  have hcount : (active.filterMap (ActiveChannel.of c)).length
      = (active.map channelOf).count (some (some c)) := by
    clear h
    induction active with
    | nil => rfl
    | cons a rest ih =>
      rw [List.map_cons, List.count_cons, ← ih]
      cases a with
      | wakeupChannel => rfl
      | channel source =>
        cases source with
        | acceptor => rfl
        | conn d revents =>
          by_cases hd : d = c
          · subst hd
            simp [ActiveChannel.of, channelOf]
          · simp [ActiveChannel.of, channelOf, hd]
  rw [hcount]
  exact List.nodup_iff_count.mp h _

/-- What epoll reports is a living connection, with its channel added. -/
theorem Wiring.index_of_reported (h : s.Wiring) (hr : s.conns c = some r)
    (hinterest : ((s.poller r.conn.loop).interest r.conn.channel.fd).map Prod.snd = some c) :
    r.conn.channel.index = .kAdded := by
  obtain ⟨event, hevent, hsnd⟩ := Option.map_eq_some_iff.mp hinterest
  have hsome : (s.poller r.conn.loop).interest r.conn.channel.fd ≠ none := by simp [hevent]
  obtain ⟨d, q, hd, halive, hloop, hfd⟩ := h.pollers.entries _ _ (Or.inr hsome)
  have hreg := h.pollers.registered d q hd halive
  rw [hloop] at hreg
  rw [← hfd] at hsome hevent
  have hindex := hreg.mem_interest hsome
  -- the entry is that of `d`, and it says `c`
  have hdc : d = c := by
    unfold EPollPoller.Registered at hreg
    rw [hindex] at hreg
    have hentry := hreg.2
    rw [hevent, Option.map_some, hsnd] at hentry
    exact (Option.some.inj hentry).symm
  subst hdc
  rw [hr] at hd
  cases hd
  exact hindex

theorem Reported.routed {a : ActiveChannel Source} (h : s.Reported L a) : a.RoutedTo s.home L := by
  cases a with
  | wakeupChannel => trivial
  | channel source =>
    cases source with
    | acceptor => exact h.1
    | conn c revents =>
      obtain ⟨⟨r, hr, hloop, _⟩, _⟩ := h
      exact (home_of hr).trans (congrArg some hloop)

/-- A step inside `loop()`, between the calls. -/
theorem Inv.loopStep (h : s.Inv) (hrunning : s.aborted = none) {a : LoopStep Source}
    (hstep : s.step (.loopStep L a) = some t) : Sound s t := by
  obtain ⟨htodo, henabled, l, hl, rfl⟩ := step_does hstep
  obtain ⟨hwf, hwaiting⟩ := (h.wiring.loops L).advance hl
  have hcalls : (s.loop L).calls a = [] := by
    cases a <;> first | rfl | exact henabled.elim
  rw [hcalls, List.nil_append] at hwaiting
  have htasks : ∀ d q, q.conn.loop = L → (s.view d q).tasks = [] := by
    intro d q hloop
    simp [view, hloop, htodo]
  have hpolled : l.activeChannels = (s.loop L).activeChannels
      ∨ (l.activeChannels.map channelOf).Nodup ∧ ∀ b ∈ l.activeChannels, s.Reported L b := by
    rcases EventLoop.advance_active hl with hsame | hnil | rfl | rfl
    · exact Or.inl hsame
    · exact Or.inr (by simp [hnil])
    · exact henabled.elim
    · exact Or.inr henabled
  have hsub : l.waiting ⊆ (s.loop L).waiting := by
    rw [hwaiting]
    exact List.Subset.refl _
  refine .of_inv ⟨h.wiring.setLoop hwf hsub ?_, ?_⟩ hrunning rfl
  · intro a hin
    rcases hpolled with hsame | ⟨_, hreported⟩
    · exact h.wiring.routing.active L a (hsame ▸ hin)
    · exact (hreported a hin).routed
  · intro d q hq
    have hlife := h.life d q hq
    by_cases hloop : q.conn.loop = L
    · rcases hpolled with hsame | ⟨honce, hreported⟩
      · rw [view_setLoop_same (fun _ => by rw [hwaiting]) (fun _ => by rw [hwaiting])
          fun _ => by rw [hsame]]
        exact hlife
      · have hview : (s.setLoop L l).view d q = { s.view d q with
            active := l.activeChannels.filterMap (ActiveChannel.of d) } := by
          rw [view_setLoop, if_pos hloop, if_pos hloop, ← hwaiting]
          by_cases hmain : mainLoop = L
          · simp [view, hloop, hmain]
          · simp [view, hloop, hmain]
        rw [hview]
        refine hlife.poll (htasks d q hloop) (length_active_of honce d) ?_ ?_
        · intro hsome
          obtain ⟨revents, hin⟩ := List.exists_mem_of_ne_nil _ hsome
          obtain ⟨b, hb, hof⟩ := List.mem_filterMap.mp hin
          rw [active_of_eq_some hof] at hb
          obtain ⟨⟨r, hr, hrloop, hinterest⟩, _⟩ := hreported _ hb
          cases Option.some.inj ((Eq.symm hq).trans hr)
          rw [← hrloop] at hinterest
          exact h.wiring.index_of_reported hq hinterest
        · intro revents hin
          obtain ⟨b, hb, hof⟩ := List.mem_filterMap.mp hin
          rw [active_of_eq_some hof] at hb
          exact (hreported _ hb).2
    · rw [view_setLoop_same (fun heq => absurd heq hloop) (fun _ => by rw [hwaiting])
        fun heq => absurd heq hloop]
      exact hlife

/-- What the loop has taken, and what it does with it. -/
theorem Wiring.callFunctor_cases (h : s.Wiring) {res : SysResult}
    (hstep : s.step (.callFunctor L res) = some t) :
    ∃ f l, s.todo L = [] ∧ (s.loop L).functors.head? = some f ∧ l.WF
      ∧ (s.loop L).waiting = f :: l.waiting ∧ l.activeChannels = (s.loop L).activeChannels
      ∧ t = (s.setLoop L l).runFunctor L res f := by
  obtain ⟨htodo, f, rest, l, hfunctors, hl, rfl⟩ := step_does hstep
  obtain ⟨hwf, hpop⟩ := (h.loops L).advance hl
  have hhead : (s.loop L).functors.head? = some f := by rw [hfunctors, List.head?_cons]
  have hwaiting : (s.loop L).waiting = f :: l.waiting := by
    simpa [EventLoop.calls, hfunctors] using hpop
  have hactive : l.activeChannels = (s.loop L).activeChannels := by
    cases EventLoop.advances hl with
    | callFunctor => rfl
  exact ⟨f, l, htodo, hhead, hwf, hwaiting, hactive, rfl⟩

/-- A functor of a connection is taken from the front of the queue. -/
theorem Wiring.callConn_follows (h : s.Wiring) (htodo : s.todo L = [])
    {l : EventLoop Source Functor} (hwf : l.WF) {f : ConnFunctor}
    (hwaiting : (s.loop L).waiting = .conn c f :: l.waiting)
    (hactive : l.activeChannels = (s.loop L).activeChannels) (res : SysResult) :
    ∃ r, s.conns c = some r ∧ (s.view c r).tasks = []
      ∧ (s.view c r).queue = f :: l.waiting.filterMap (Functor.of c)
      ∧ Follows c (s.setLoop L l) ((s.setLoop L l).runFunctor L res (.conn c f))
        ({ s.view c r with queue := l.waiting.filterMap (Functor.of c) }.runFunctor res f)
      ∧ ∀ d, d ≠ c → (s.setLoop L l).viewOf d = s.viewOf d := by
  have hhome : s.home c = some L :=
    h.routing.functors L (.conn c f) (hwaiting ▸ List.mem_cons_self)
  obtain ⟨r, hr, rfl⟩ := Option.map_eq_some_iff.mp hhome
  have hsub : l.waiting ⊆ (s.loop r.conn.loop).waiting := by
    rw [hwaiting]
    exact List.subset_cons_self _ _
  have hwiring := h.setLoop hwf hsub fun a hin => h.routing.active _ a (hactive ▸ hin)
  have hclear : Clear ((s.setLoop r.conn.loop l).todo r.conn.loop) := by
    rw [show (s.setLoop r.conn.loop l).todo = s.todo from rfl, htodo]
    exact fun _ => List.not_mem_nil
  have hremoves : ∀ d, mainLoop = r.conn.loop → l.waiting.count (.removeConnectionInLoop d)
      = (s.loop r.conn.loop).waiting.count (.removeConnectionInLoop d) := by
    intro d _
    rw [hwaiting, List.count_cons_of_ne (by simp)]
  have hview : (s.setLoop r.conn.loop l).view c r
      = { s.view c r with queue := l.waiting.filterMap (Functor.of c) } := by
    rw [view_setLoop_queue (hremoves c) fun _ => by rw [hactive], if_pos rfl]
  have hqueue : (s.view c r).queue = f :: l.waiting.filterMap (Functor.of c) := by
    rw [view, hwaiting, List.filterMap_cons, Functor.of_self]
  have hfollows := runFunctor_follows hwiring hr hclear res f
  rw [hview] at hfollows
  refine ⟨r, hr, by simp [view, htodo], hqueue, hfollows, fun d hd => ?_⟩
  refine viewOf_congr rfl fun q _ => view_setLoop_same (fun _ => ?_) (hremoves d)
    fun _ => by rw [hactive]
  rw [hwaiting, List.filterMap_cons, Functor.of_ne hd]

/-- `removeConnectionInLoop` is taken from the queue of the main loop. -/
theorem Inv.callRemove (h : s.Inv) (hrunning : s.aborted = none)
    {l : EventLoop Source Functor} (hwf : l.WF)
    (hwaiting : (s.loop L).waiting = .removeConnectionInLoop c :: l.waiting)
    (hactive : l.activeChannels = (s.loop L).activeChannels) :
    Sound s ((s.setLoop L l).removeConnectionInLoop c) := by
  obtain ⟨rfl, hhome⟩ : L = mainLoop ∧ (s.home c).isSome = true :=
    h.wiring.routing.functors L (.removeConnectionInLoop c) (hwaiting ▸ List.mem_cons_self)
  obtain ⟨M, hM⟩ := Option.isSome_iff_exists.mp hhome
  obtain ⟨r, hr, _⟩ := Option.map_eq_some_iff.mp hM
  have hsub : l.waiting ⊆ (s.loop mainLoop).waiting := by
    rw [hwaiting]
    exact List.subset_cons_self _ _
  have hwiring := h.wiring.setLoop hwf hsub fun a hin =>
    h.wiring.routing.active _ a (hactive ▸ hin)
  have hqueue : ∀ d, l.waiting.filterMap (Functor.of d)
      = (s.loop mainLoop).waiting.filterMap (Functor.of d) := by
    intro d
    rw [hwaiting]
    rfl
  have hremoves : (s.view c r).removes = l.waiting.count (.removeConnectionInLoop c) + 1 := by
    rw [view, hwaiting, List.count_cons_self]
  have hview : (s.setLoop mainLoop l).view c r
      = { s.view c r with removes := l.waiting.count (.removeConnectionInLoop c) } := by
    rw [view_setLoop, hqueue, hactive]
    by_cases hloop : r.conn.loop = mainLoop
    · simp [view, hloop]
    · simp [view, hloop]
  by_cases hserver : s.server.alive = true
  · have hacts := removeConnectionInLoop_acts hwiring hr hserver
    rw [hview] at hacts
    refine .of_follows h hr (s.setLoop mainLoop l) hrunning rfl ?_
      (show Follows _ _ _ (some _) from hacts) ((h.life c r hr).erase hserver hremoves)
    intro d hd
    refine viewOf_congr rfl fun q _ => view_setLoop_same (fun _ => hqueue d) (fun _ => ?_)
      fun _ => by rw [hactive]
    rw [hwaiting, List.count_cons_of_ne (by simpa using hd.symm)]
  · rw [removeConnectionInLoop,
      if_neg (show ¬ (s.setLoop mainLoop l).server.alive = true from hserver)]
    exact .of_abort (by simp [abort]) (eq_false_of_ne_true hserver)

theorem view_pushUser (s : ServerSystem) (L : LoopId) (d : ConnId) (q : ConnRecord) :
    (s.pushTasks L [.user]).view d q = s.view d q := by
  by_cases hloop : q.conn.loop = L
  · simp only [view, pushTasks, setTodo, hloop, Function.update_self]
    rfl
  · simp [view, pushTasks, setTodo, hloop]

/-- A functor of the user's own. -/
theorem Inv.callUser (h : s.Inv) (hrunning : s.aborted = none) (htodo : s.todo L = [])
    {l : EventLoop Source Functor} (hwf : l.WF)
    (hwaiting : (s.loop L).waiting = .user :: l.waiting)
    (hactive : l.activeChannels = (s.loop L).activeChannels) :
    Sound s ((s.setLoop L l).pushTasks L [.user]) := by
  have hsub : l.waiting ⊆ (s.loop L).waiting := by
    rw [hwaiting]
    exact List.subset_cons_self _ _
  have hwiring := h.wiring.setLoop hwf hsub fun a hin =>
    h.wiring.routing.active _ a (hactive ▸ hin)
  refine .of_inv ⟨hwiring.pushTasks (by simp) ?_, fun d q hq => ?_⟩ hrunning rfl
  · rw [show (s.setLoop L l).todo L = [] from htodo]
    exact fun _ hin => by cases hin
  · rw [view_pushUser, view_setLoop_same (fun _ => by rw [hwaiting]; rfl)
      (fun _ => by rw [hwaiting, List.count_cons_of_ne (by simp)]) fun _ => by rw [hactive]]
    exact h.life d q hq

/-- **The loop calls a functor.** -/
theorem Inv.callFunctor (h : s.Inv) (hrunning : s.aborted = none) {res : SysResult}
    (hstep : s.step (.callFunctor L res) = some t) : Sound s t := by
  obtain ⟨f, l, htodo, _, hwf, hwaiting, hactive, rfl⟩ := h.wiring.callFunctor_cases hstep
  cases f with
  | conn c f =>
    obtain ⟨r, hr, htasks, hqueue, hfollows, hothers⟩ :=
      h.wiring.callConn_follows htodo hwf hwaiting hactive res
    exact .of_follows h hr (s.setLoop L l) hrunning rfl hothers hfollows
      ((h.life c r hr).runFunctor hqueue htasks res)
  | removeConnectionInLoop c => exact h.callRemove hrunning hwf hwaiting hactive
  | user => exact h.callUser hrunning htodo hwf hwaiting hactive

/-! ### Tasks -/

theorem view_setTodo_tail {task : Task} {rest : List Task} (htodo : s.todo L = task :: rest)
    (d : ConnId) (q : ConnRecord) (hother : task.of d = none) :
    (s.setTodo L rest).view d q = s.view d q := by
  by_cases hloop : q.conn.loop = L
  · simp [view, setTodo, hloop, htodo, hother]
  · simp [view, setTodo, hloop]

theorem Wiring.popTask (h : s.Wiring) {task : Task} {rest : List Task}
    (htodo : s.todo L = task :: rest) : (s.setTodo L rest).Wiring ∧ Clear rest := by
  have hclear : Clear rest := by
    have hheads := h.heads L
    rw [htodo] at hheads
    exact hheads
  refine ⟨⟨h.loops, h.roster, h.pollers, { h.routing with tasks := ?_ }, ?_⟩, hclear⟩
  · intro M d t ht
    by_cases hM : M = L
    · subst hM
      rw [todo_setTodo] at ht
      exact h.routing.tasks M d t (htodo ▸ List.mem_cons_of_mem _ ht)
    · rw [todo_setTodo_ne _ _ hM] at ht
      exact h.routing.tasks M d t ht
  · intro M
    by_cases hM : M = L
    · subst hM
      rw [todo_setTodo]
      exact fun d hin => hclear d (List.mem_of_mem_tail hin)
    · rw [todo_setTodo_ne _ _ hM]
      exact h.heads M

/-- The next task is one of a connection. -/
theorem Inv.task_follows (h : s.Inv) {task : ConnTask} {rest : List Task}
    (htodo : s.todo L = .conn c task :: rest) (readRes : ReadvResult) (res : SysResult) :
    ∃ r, s.conns c = some r ∧ (s.view c r).tasks = task :: rest.filterMap (Task.of c)
      ∧ Follows c (s.setTodo L rest) ((s.setTodo L rest).runTask L readRes res (.conn c task))
        ({ s.view c r with tasks := rest.filterMap (Task.of c) }.runTask
          (r.conn.loop = mainLoop) readRes res task)
      ∧ ∀ d, d ≠ c → (s.setTodo L rest).viewOf d = s.viewOf d := by
  obtain ⟨hwiring, hclear⟩ := h.wiring.popTask htodo
  have hhome : s.home c = some L := h.wiring.routing.tasks L c task (htodo ▸ List.mem_cons_self)
  obtain ⟨r, hr, rfl⟩ := Option.map_eq_some_iff.mp hhome
  have hview : (s.setTodo r.conn.loop rest).view c r
      = { s.view c r with tasks := rest.filterMap (Task.of c) } := by
    simp [view, setTodo]
  have htasks : (s.view c r).tasks = task :: rest.filterMap (Task.of c) := by
    rw [view, htodo, List.filterMap_cons, Task.of_self]
  have halive : ∀ e, task = .effect e → isCallback e = false → r.alive = true := by
    rintro e rfl hcallback
    exact (h.life c r hr).alive_of_effect htasks hcallback
  have hfollows := runTask_follows hwiring (show (s.setTodo _ rest).conns c = some r from hr)
    (by rw [todo_setTodo]; exact hclear) halive readRes res
  rw [hview] at hfollows
  refine ⟨r, hr, htasks, hfollows, fun d hd => ?_⟩
  exact viewOf_congr rfl fun q _ => view_setTodo_tail htodo d q (Task.of_ne hd task)

/-- **The loop does its next task.** -/
theorem Inv.task (h : s.Inv) (hrunning : s.aborted = none) {readRes : ReadvResult}
    {res : SysResult} (hstep : s.step (.task L readRes res) = some t) : Sound s t := by
  obtain ⟨task, rest, htodo, rfl⟩ := step_does hstep
  cases task with
  | user =>
    refine .of_inv ⟨(h.wiring.popTask htodo).1, ?_⟩ hrunning rfl
    intro d q hq
    show ((s.setTodo L rest).view d q).Life
    rw [view_setTodo_tail htodo d q rfl]
    exact h.life d q hq
  | conn c task =>
    obtain ⟨r, hr, htasks, hfollows, hothers⟩ := h.task_follows htodo readRes res
    exact .of_follows h hr (s.setTodo L rest) hrunning rfl hothers hfollows
      ((h.life c r hr).runTask htasks _ readRes res)

/-! ### Accepting -/

theorem getNextLoop_mem (server : TcpServer) :
    server.getNextLoop.1 ∈ mainLoop :: server.loops := by
  unfold TcpServer.getNextLoop
  split
  · exact List.mem_cons_self
  · rw [List.getD_eq_getElem?_getD]
    cases hget : server.loops[server.next]? with
    | none => exact List.mem_cons_self
    | some M => exact List.mem_cons_of_mem _ (List.mem_of_getElem? hget)

theorem conns_accepted (h : s.Wiring) : s.conns s.accepted = none := by
  have hplace : ¬ (s.place s.accepted).isSome = true := by
    rw [h.roster.domain]
    exact Nat.lt_irrefl _
  simpa [place] using hplace

/-- Nothing is left over for a connection that does not exist yet. -/
theorem view_unknown (h : s.Wiring) (hc : s.conns c = none) (r : ConnRecord) :
    s.view c r = ⟨r, s.server.alive, [], 0, [], [], 0⟩ := by
  have hhome : ∀ {L}, s.home c ≠ some L := by simp [home, hc]
  have hqueue : (s.loop r.conn.loop).waiting.filterMap (Functor.of c) = [] := by
    rw [List.filterMap_eq_nil_iff]
    intro f hf
    cases f with
    | conn d f =>
      refine Functor.of_ne ?_ f
      rintro rfl
      exact hhome (h.routing.functors _ (.conn c f) hf)
    | removeConnectionInLoop d => rfl
    | user => rfl
  have hremoves : (s.loop mainLoop).waiting.count (.removeConnectionInLoop c) = 0 := by
    rw [List.count_eq_zero]
    intro hin
    have hrouted := h.routing.functors _ (.removeConnectionInLoop c) hin
    simp [Functor.RoutedTo, home, hc] at hrouted
  have htasks : (s.todo r.conn.loop).filterMap (Task.of c) = [] := by
    rw [List.filterMap_eq_nil_iff]
    intro t ht
    cases t with
    | conn d t =>
      refine Task.of_ne ?_ t
      rintro rfl
      exact hhome (h.routing.tasks _ c t ht)
    | user => rfl
  have hactive : (s.loop r.conn.loop).activeChannels.filterMap (ActiveChannel.of c) = [] := by
    rw [List.filterMap_eq_nil_iff]
    intro a ha
    by_contra hsome
    obtain ⟨revents, hof⟩ := Option.ne_none_iff_exists'.mp hsome
    rw [active_of_eq_some hof] at ha
    exact hhome (h.routing.active _ _ ha)
  have hcopies : s.copies c = 0 := by
    by_contra hsome
    have hhome := h.routing.copies c hsome
    simp [home, hc] at hhome
  rw [view, hqueue, hremoves, htasks, hactive, hcopies]

/-- `newConnection` up to its `runInLoop`. -/
theorem Inv.insertConnection (h : s.Inv) (fd : Fd) (hfree : s.FdFree fd) :
    (s.insertConnection fd).Wiring ∧ ∃ r, (s.insertConnection fd).conns s.accepted = some r
      ∧ r.conn.loop = s.server.getNextLoop.1 ∧ ((s.insertConnection fd).view s.accepted r).Fresh
      ∧ ((s.insertConnection fd).view s.accepted r).queue = []
      ∧ ∀ d, d ≠ s.accepted → (s.insertConnection fd).viewOf d = s.viewOf d := by
  have hnone := conns_accepted h.wiring
  let r : ConnRecord :=
    { conn := TcpConnection.new s.server.getNextLoop.1 (s.server.connName s.server.nextConnId) fd
        s.server.writeCompleteCallback false TcpConnection.defaultHighWaterMark
      alive := true, steps := [.newConnection], trace := [], found := none }
  have hplace : (s.insertConnection fd).place
      = Function.update s.place s.accepted (some r.place) := by
    funext d
    by_cases hd : d = s.accepted
    · subst hd
      rw [Function.update_self, place, ServerSystem.insertConnection, conns_setConn]
      rfl
    · rw [Function.update_of_ne hd, place, ServerSystem.insertConnection, conns_setConn_ne _ _ hd]
      rfl
  have hhome : ∀ d L, s.home d = some L → (s.insertConnection fd).home d = some L := by
    intro d L hd
    have hne : d ≠ s.accepted := by
      rintro rfl
      simp [home, hnone] at hd
    rw [home, ServerSystem.insertConnection, conns_setConn_ne _ _ hne]
    exact hd
  have hroster := h.wiring.roster.insert r.place s.server.getNextLoop.2
    (getNextLoop_mem s.server) rfl rfl
  have hpollers := h.wiring.pollers.insert (r := r) hnone rfl fun d q hd hq =>
    hfree d ((h.wiring.roster.domain d).mp (by simp [place, hd])) q hd hq
  have hview : (s.insertConnection fd).view s.accepted r = s.view s.accepted r := rfl
  refine ⟨⟨h.wiring.loops, ?_, hpollers, ?_, h.wiring.heads⟩, r, conns_setConn .., rfl, ?_, ?_, ?_⟩
  · rw [hplace]
    exact hroster
  · refine ⟨?_, ?_, ?_, ?_⟩
    · intro L f hf
      have hrouted := h.wiring.routing.functors L f hf
      cases f with
      | conn d f => exact hhome d L hrouted
      | removeConnectionInLoop d =>
        obtain ⟨M, hM⟩ := Option.isSome_iff_exists.mp hrouted.2
        exact ⟨hrouted.1, by rw [hhome d M hM]; rfl⟩
      | user => trivial
    · exact fun L d t ht => hhome d L (h.wiring.routing.tasks L d t ht)
    · intro L a ha
      have hrouted := h.wiring.routing.active L a ha
      cases a with
      | wakeupChannel => trivial
      | channel source =>
        cases source with
        | acceptor => exact hrouted
        | conn d revents => exact hhome d L hrouted
    · intro d hd
      obtain ⟨M, hM⟩ := Option.isSome_iff_exists.mp (h.wiring.routing.copies d hd)
      rw [hhome d M hM]
      rfl
  · rw [hview, view_unknown h.wiring hnone]
    exact ⟨rfl, rfl, rfl, rfl, rfl, by simp, by simp [Due], rfl, rfl, rfl, rfl⟩
  · rw [hview, view_unknown h.wiring hnone]
  · intro d hd
    exact viewOf_congr (conns_setConn_ne _ _ hd) fun q _ => rfl

theorem Inv.newConnection (h : s.Inv) (hrunning : s.aborted = none)
    (htodo : s.todo mainLoop = []) {fd : Fd} (hfree : s.FdFree fd) :
    Sound s (s.newConnection fd) := by
  obtain ⟨hwiring, r, hr, hloop, hfresh, hempty, hothers⟩ := h.insertConnection fd hfree
  have hold : ∀ {c r}, s.conns c = some r → c ≠ s.accepted := by
    rintro c r hc rfl
    cases (conns_accepted h.wiring).symm.trans hc
  -- either way the new connection is at a stage, and it is the only one that has moved
  have hmoved : ∃ v, Acts s.accepted (s.insertConnection fd) (s.newConnection fd) v ∧ v.Life := by
    unfold ServerSystem.newConnection
    by_cases hmain : s.server.getNextLoop.1 = mainLoop
    · rw [if_pos hmain]
      have hclear : Clear ((s.insertConnection fd).todo r.conn.loop) := by
        rw [hloop, hmain, show (s.insertConnection fd).todo = s.todo from rfl, htodo]
        exact fun _ hin => by cases hin
      have hfollows := run_follows hwiring hr hclear .connectEstablished
      obtain ⟨v, hrun, hannouncing, _⟩ := hfresh.run
      rw [hrun] at hfollows
      exact ⟨v, hfollows, .announcing hannouncing⟩
    · rw [if_neg hmain, ← hloop]
      refine ⟨_, Acts.queueInLoop hwiring hr false .connectEstablished, ?_⟩
      have haway : r.conn.loop ≠ mainLoop := hloop ▸ hmain
      have hdue := hfresh.due
      rw [hempty] at hdue
      have hqueued : ConnView.Queued { (s.insertConnection fd).view s.accepted r with
          queue := ((s.insertConnection fd).view s.accepted r).queue
            ++ [.connectEstablished] } [] :=
        ⟨haway, by rw [hempty]; rfl, { hfresh with queue := by simp, due := hdue }⟩
      exact .queued hqueued
  obtain ⟨v, hacts, hlife⟩ := hmoved
  refine ⟨fun _ => hacts.inv hlife ?_, fun _ _ => hacts.aborted.trans hrunning, ?_⟩
  · intro d hd q hq
    have hview := hothers d hd
    rw [viewOf_of hq] at hview
    obtain ⟨q', hq', hsame⟩ := of_viewOf hview.symm
    rw [hsame]
    exact h.life d q' hq'
  · intro _ d q q' hq hq'
    have hview := (hacts.others d (hold hq)).trans (hothers d (hold hq))
    rw [viewOf_of hq, viewOf_of hq'] at hview
    rw [Option.some.inj hview]
    exact .of_steps rfl

/-! ### Events -/

/-- A channel that is none of `d`'s is taken off `activeChannels_`. -/
theorem view_popChannel {l : EventLoop Source Functor} {a : ActiveChannel Source}
    (hwaiting : l.waiting = (s.loop L).waiting)
    (hchannels : (s.loop L).activeChannels = a :: l.activeChannels) (hother : a.of d = none)
    (q : ConnRecord) : (s.setLoop L l).view d q = s.view d q := by
  refine view_setLoop_same (fun _ => by rw [hwaiting]) (fun _ => by rw [hwaiting]) fun _ => ?_
  rw [hchannels, List.filterMap_cons, hother]

/-- The channel of a connection is reported. -/
theorem Inv.handleConn (h : s.Inv) (hrunning : s.aborted = none) (htodo : s.todo L = [])
    {l : EventLoop Source Functor} (hwiring : (s.setLoop L l).Wiring)
    (hwaiting : l.waiting = (s.loop L).waiting) {revents : EpollEvents}
    (hchannels : (s.loop L).activeChannels = .channel (.conn c revents) :: l.activeChannels)
    (fd : Option Fd)
    (hactive : (s.setLoop L l).handleActive L fd (.channel (.conn c revents)) = some t) :
    Sound s t := by
  have hhome : s.home c = some L :=
    h.wiring.routing.active L (.channel (.conn c revents)) (hchannels ▸ List.mem_cons_self)
  obtain ⟨r, hr, rfl⟩ := Option.map_eq_some_iff.mp hhome
  have hlife := h.life c r hr
  have htasks : (s.view c r).tasks = [] := by simp [view, htodo]
  have hmine : (s.view c r).active
      = revents :: l.activeChannels.filterMap (ActiveChannel.of c) := by
    rw [view, hchannels, List.filterMap_cons]
    simp [ActiveChannel.of]
  have hview : (s.setLoop r.conn.loop l).view c r = { s.view c r with
      active := l.activeChannels.filterMap (ActiveChannel.of c) } := by
    rw [view_setLoop, if_pos rfl, if_pos rfl, hwaiting]
    by_cases hmain : mainLoop = r.conn.loop
    · simp [view, hmain]
    · simp [view, hmain]
  have hothers : ∀ d, d ≠ c → (s.setLoop r.conn.loop l).viewOf d = s.viewOf d := by
    intro d hd
    exact viewOf_congr rfl fun q _ => view_popChannel hwaiting hchannels (if_neg hd.symm) q
  obtain ⟨q, hq, rfl⟩ := Option.map_eq_some_iff.mp hactive
  obtain rfl := Option.some.inj (Eq.trans (Eq.symm hr) hq)
  by_cases halive : r.alive = true
  · rw [if_pos halive]
    have hacts := Acts.pushTasks (c := c) hwiring hr
      ((Channel.handleEventWithGuard revents).map .callback) (by
        rw [show (s.setLoop r.conn.loop l).todo = s.todo from rfl, htodo, List.append_nil]
        intro d hin
        obtain ⟨u, hu, hcallback⟩ := List.mem_map.mp (List.mem_of_mem_tail hin)
        obtain ⟨cb, rfl⟩ := ConnView.callbacks_plain hu
        cases hcallback)
    rw [hview, List.map_map, show (s.view c r).tasks = [] from htasks, List.append_nil] at hacts
    exact .of_follows h hr (s.setLoop r.conn.loop l) hrunning rfl hothers
      (show Follows _ _ _ (some _) from hacts)
      (.some (hlife.handleEvent htasks hmine) (.of_steps rfl))
  · rw [if_neg halive]
    refine .of_abort (by simp [abort]) ?_
    rcases hlife.of_active (by simp [hmine]) with hest | hserver
    · exact absurd hest.opened.alive halive
    · exact hserver

/-- **The loop handles an active channel.** -/
theorem Inv.handleEvent (h : s.Inv) (hrunning : s.aborted = none) {fd : Option Fd}
    (hstep : s.step (.handleEvent L fd) = some t) : Sound s t := by
  obtain ⟨htodo, a, rest, l, hchannels, hl, hactive⟩ := step_does hstep
  obtain ⟨hwf, hpop⟩ := (h.wiring.loops L).advance hl
  have hwaiting : l.waiting = (s.loop L).waiting := hpop.symm
  obtain rfl := EventLoop.advance_handleEvent hchannels hl
  have hwiring := h.wiring.setLoop hwf (by rw [hwaiting]; exact List.Subset.refl _) fun b hb =>
    h.wiring.routing.active L b (hchannels ▸ List.mem_cons_of_mem _ hb)
  have hinv : (∀ d, a.of d = none) → (s.setLoop L l).Inv := by
    intro hother
    refine ⟨hwiring, fun d q hq => ?_⟩
    rw [view_popChannel hwaiting hchannels (hother d)]
    exact h.life d q hq
  cases a with
  | wakeupChannel =>
    cases hactive
    exact .of_inv (hinv fun _ => rfl) hrunning rfl
  | channel source =>
    cases source with
    | conn c revents => exact h.handleConn hrunning htodo hwiring hwaiting hchannels fd hactive
    | acceptor =>
      obtain rfl : L = mainLoop :=
        h.wiring.routing.active L (.channel .acceptor) (hchannels ▸ List.mem_cons_self)
      have hinv := hinv fun _ => rfl
      simp only [handleActive, acceptorHandleRead] at hactive
      by_cases hserver : s.server.alive = true
      · rw [if_pos (show (s.setLoop mainLoop l).server.alive = true from hserver)] at hactive
        cases fd with
        | none =>
          cases hactive
          exact .of_inv hinv hrunning rfl
        | some fd =>
          simp only [Option.ite_none_right_eq_some, Option.some.injEq] at hactive
          obtain ⟨hfree, rfl⟩ := hactive
          exact (hinv.newConnection hrunning htodo hfree).of_conns rfl
      · rw [if_neg (show ¬ (s.setLoop mainLoop l).server.alive = true from hserver)] at hactive
        cases hactive
        exact .of_abort (by simp [abort]) (eq_false_of_ne_true hserver)

/-! ### The user -/

/-- While the user's code runs, no `connectionCallback_` waits behind it. -/
theorem Wiring.clear_of_user (h : s.Wiring) (huser : (s.userArgument L).isSome = true) :
    Clear (s.todo L) := by
  cases htodo : s.todo L with
  | nil => exact fun _ hin => by cases hin
  | cons task rest =>
    have hheads := h.heads L
    rw [htodo] at hheads
    intro d hin
    rcases List.mem_cons.mp hin with rfl | hrest
    · simp [userArgument, htodo] at huser
    · exact hheads d hrest

/-- The pointer that a callback got. -/
theorem userArgument_eq_some (hargument : s.userArgument L = some (some c)) :
    .conn c .user ∈ s.todo L := by
  unfold userArgument at hargument
  split at hargument
  · split at hargument <;> cases hargument
  · rename_i htodo
    cases hargument
    rw [htodo]
    exact List.mem_cons_self
  · cases hargument
  · cases hargument

theorem Wiring.known (h : s.Wiring) {who : UserThread} (hcan : s.CanUse c who) :
    ∃ r, s.conns c = some r ∧ (s.view c r).Known := by
  have hcopied : 0 < s.copies c → ∃ r, s.conns c = some r ∧ (s.view c r).Known := by
    intro hcopies
    obtain ⟨L, hL⟩ := Option.isSome_iff_exists.mp (h.routing.copies c (Nat.ne_of_gt hcopies))
    obtain ⟨r, hr, _⟩ := Option.map_eq_some_iff.mp hL
    exact ⟨r, hr, Or.inl hcopies⟩
  cases who with
  | other => exact hcopied hcan
  | loop L =>
    obtain ⟨argument, hargument, rfl | hcopies⟩ := hcan
    · have htask := userArgument_eq_some hargument
      obtain ⟨r, hr, rfl⟩ := Option.map_eq_some_iff.mp (h.routing.tasks L c .user htask)
      exact ⟨r, hr, Or.inr (List.mem_filterMap.mpr ⟨_, htask, Task.of_self c .user⟩)⟩
    · exact hcopied hcopies

/-- **The user calls `send` or `shutdown`.** -/
theorem Inv.userCall (h : s.Inv) (hrunning : s.aborted = none) {who : UserThread}
    {request : Request} {res : SysResult}
    (hstep : s.step (.userCall who c request res) = some t) : Sound s t := by
  obtain ⟨hcan, hcall⟩ := step_does hstep
  obtain ⟨r, hr, hknown⟩ := h.wiring.known hcan
  have hclear : who = .loop r.conn.loop → Clear (s.todo r.conn.loop) := by
    rintro rfl
    obtain ⟨argument, hargument, _⟩ := hcan
    exact h.wiring.clear_of_user (Option.isSome_iff_exists.mpr ⟨argument, hargument⟩)
  exact .of_follows h hr s hrunning rfl (fun _ _ => rfl)
    (userCall_follows h.wiring hr hclear hcall) ((h.life c r hr).call hknown _ request res)

theorem Inv.setCopies (h : s.Inv) (hrunning : s.aborted = none) (hr : s.conns c = some r)
    (hknown : (s.view c r).Known) (copies : Nat) :
    Sound s { s with copies := Function.update s.copies c copies } := by
  refine .of_inv ⟨⟨h.wiring.loops, h.wiring.roster, h.wiring.pollers,
    { h.wiring.routing with copies := ?_ }, h.wiring.heads⟩, ?_⟩ hrunning rfl
  · intro d hd
    by_cases hdc : d = c
    · subst hdc
      exact Option.isSome_iff_exists.mpr ⟨_, home_of hr⟩
    · dsimp only at hd
      rw [Function.update_of_ne hdc] at hd
      exact h.wiring.routing.copies d hd
  · intro d q hq
    by_cases hdc : d = c
    · subst hdc
      obtain rfl : r = q := Option.some.inj (Eq.trans (Eq.symm hr) hq)
      have hlife := (h.life d r hr).setCopies hknown copies
      simpa [view] using hlife
    · have hlife := h.life d q hq
      simpa [view, hdc] using hlife

/-- **The user copies a `TcpConnectionPtr`, or lets go of one.** -/
theorem Inv.userCopy (h : s.Inv) (hrunning : s.aborted = none) {who : UserThread}
    (hstep : s.step (.userCopy who c) = some t) : Sound s t := by
  obtain ⟨hcan, rfl⟩ := step_does hstep
  obtain ⟨r, hr, hknown⟩ := h.wiring.known hcan
  simpa only [hrunning] using h.setCopies hrunning hr hknown _

theorem Inv.userDrop (h : s.Inv) (hrunning : s.aborted = none)
    (hstep : s.step (.userDrop c) = some t) : Sound s t := by
  obtain ⟨hcopies, rfl⟩ := step_does hstep
  obtain ⟨r, hr, hknown⟩ := h.wiring.known (show s.CanUse c .other from hcopies)
  simpa only [hrunning] using h.setCopies hrunning hr hknown _

theorem view_queueUser (s : ServerSystem) (isInLoopThread : Bool) (L : LoopId) (d : ConnId)
    (q : ConnRecord) : (s.queueInLoop isInLoopThread L .user).view d q = s.view d q := by
  have hqueue : ∀ M,
      ((s.queueInLoop isInLoopThread L .user).loop M).waiting.filterMap (Functor.of d)
        = (s.loop M).waiting.filterMap (Functor.of d) := by
    intro M
    rw [waiting_queueInLoop, List.filterMap_append]
    split <;> simp [Functor.of]
  have hremoves : ∀ M, ((s.queueInLoop isInLoopThread L .user).loop M).waiting.count
      (.removeConnectionInLoop d) = (s.loop M).waiting.count (.removeConnectionInLoop d) := by
    intro M
    rw [waiting_queueInLoop, List.count_append]
    split <;> simp
  rw [view, hqueue, hremoves, active_queueInLoop]
  rfl

/-- The user queues a functor of its own. -/
theorem Inv.userQueue (h : s.Inv) (hrunning : s.aborted = none) {isInLoopThread : Bool}
    (hstep : s.step (.userQueue L isInLoopThread) = some t) : Sound s t := by
  obtain rfl := step_does hstep
  refine .of_inv ⟨h.wiring.queueInLoop isInLoopThread trivial, fun d q hq => ?_⟩ hrunning rfl
  rw [view_queueUser]
  exact h.life d q hq

theorem Inv.quit (h : s.Inv) (hrunning : s.aborted = none) (hstep : s.step (.quit L) = some t) :
    Sound s t := by
  obtain rfl := step_does hstep
  have hwf : ({ (s.loop L).wakeup with quit := true } : EventLoop Source Functor).WF :=
    ⟨(h.wiring.loops L).batch, (h.wiring.loops L).flag⟩
  refine .of_inv ⟨h.wiring.setLoop hwf (List.Subset.refl _) (h.wiring.routing.active L),
    fun d q hq => ?_⟩ hrunning rfl
  have hview : (s.setLoop L { (s.loop L).wakeup with quit := true }).view d q = s.view d q :=
    view_setLoop_same (fun _ => rfl) (fun _ => rfl) fun _ => rfl
  rw [hview]
  exact h.life d q hq

/-! ### Destruction -/

/-- A connection that nobody holds is idle. -/
theorem Wiring.idle (h : s.Wiring) (hr : s.conns c = some r) (hnot : ¬ s.Held c r) :
    (s.view c r).Idle := by
  have hloop : r.conn.loop ∈ mainLoop :: s.server.loops :=
    h.roster.loops c r.place (by rw [place, hr, Option.map_some])
  have htasks : ∀ L ∈ mainLoop :: s.server.loops, ∀ u ∈ s.todo L, u.of c = none := by
    intro L hL u hu
    by_contra hsome
    exact hnot (Or.inr (Or.inr ⟨L, hL, Or.inl ⟨u, hu, Option.isSome_iff_ne_none.mpr hsome⟩⟩))
  have hfunctors : ∀ L ∈ mainLoop :: s.server.loops, ∀ f ∈ (s.loop L).waiting, ¬ f.Captures c := by
    intro L hL f hf hcaptures
    exact hnot (Or.inr (Or.inr ⟨L, hL, Or.inr ⟨f, List.mem_append_right _ hf, hcaptures⟩⟩))
  have hqueue : ∀ f : ConnFunctor, (Functor.conn c f).Captures c → f ∉ (s.view c r).queue := by
    intro f hcaptures hin
    obtain ⟨g, hg, hof⟩ := List.mem_filterMap.mp hin
    cases g with
    | conn d g =>
      simp only [Functor.of, Option.ite_none_right_eq_some, Option.some.injEq] at hof
      obtain ⟨rfl, rfl⟩ := hof
      exact hfunctors _ hloop _ hg hcaptures
    | removeConnectionInLoop d => cases hof
    | user => cases hof
  refine ⟨?_, ?_, hqueue _ rfl, hqueue _ rfl⟩
  · exact List.filterMap_eq_nil_iff.mpr (htasks _ hloop)
  · exact List.count_eq_zero.mpr fun hin => hfunctors _ List.mem_cons_self _ hin rfl

/-- **The last pointer to a connection is gone.** -/
theorem Inv.destroy (h : s.Inv) (hrunning : s.aborted = none)
    (hstep : s.step (.destroy c) = some t) : Sound s t := by
  obtain ⟨r, hr, hstep⟩ := Option.bind_eq_some_iff.mp (step_does hstep)
  rw [Option.ite_none_right_eq_some] at hstep
  obtain ⟨⟨_, hnot⟩, hstep⟩ := hstep
  have hlife := h.life c r hr
  have hidle := h.wiring.idle hr hnot
  by_cases hstate : r.conn.state = .kDisconnected
  · rw [if_pos hstate] at hstep
    cases hstep
    obtain ⟨hindex, hdead⟩ := hlife.of_idle hidle hstate
    have hplace : (s.setConn c { r with alive := false }).place = s.place := place_setConn hr rfl
    have hhome : (s.setConn c { r with alive := false }).home = s.home := home_setConn hr rfl
    have hwiring : (s.setConn c { r with alive := false }).Wiring := by
      refine ⟨h.wiring.loops, ?_, h.wiring.pollers.destroy hr hindex, ?_, h.wiring.heads⟩
      · rw [hplace]
        exact h.wiring.roster
      · rw [hhome]
        exact h.wiring.routing
    have hacts : Acts c s (s.setConn c { r with alive := false })
        (s.view c { r with alive := false }) :=
      ⟨hwiring, viewOf_setConn .., fun _ hd => viewOf_setConn_ne _ _ hd, rfl, rfl, rfl⟩
    exact .of_follows h hr s hrunning rfl (fun _ _ => rfl)
      (show Follows _ _ _ (some _) from hacts) (.some hdead (.of_steps rfl))
  · rw [if_neg hstate] at hstep
    cases hstep
    refine ⟨nofun, fun hserver hfew => ?_, nofun⟩
    -- an established connection is in `connections_`, unless two have the same name
    have hest := hlife.established_of_idle hidle hserver hstate
    have hremoved : r.place.removed = false := by
      simp [ConnRecord.place, show r.steps = _ from hest.steps]
    have hlisted := h.wiring.roster.listed hserver hfew c r.place
      (by rw [place, hr, Option.map_some]) hremoved
    exact absurd (Or.inl hlisted) hnot

/-! ### `~TcpServer` -/

/-- `connectDestroyed` is queued for one connection after the other. -/
def queueDestroyed (s : ServerSystem) (loopOf : ConnId → LoopId) (order : List ConnId) :
    ServerSystem :=
  order.foldl (fun t c => t.queueInLoop false (loopOf c) (.conn c .connectDestroyed)) s

theorem queueDestroyed_spec {loopOf : ConnId → LoopId} (order : List ConnId) :
    ∀ {s : ServerSystem}, s.Wiring → order.Nodup → (∀ c ∈ order, s.home c = some (loopOf c)) →
      (s.queueDestroyed loopOf order).Wiring
        ∧ s.queueDestroyed loopOf order
          = { s with loop := (s.queueDestroyed loopOf order).loop }
        ∧ ∀ d q, s.conns d = some q → (s.queueDestroyed loopOf order).view d q = { s.view d q with
            queue := (s.view d q).queue ++ if d ∈ order then [.connectDestroyed] else [] } := by
  induction order with
  | nil =>
    intro s h _ _
    refine ⟨h, rfl, fun d q _ => ?_⟩
    rw [if_neg List.not_mem_nil, List.append_nil]
    rfl
  | cons c cs ih =>
    intro s h hnodup hhomes
    obtain ⟨hfresh, hrest⟩ := List.nodup_cons.mp hnodup
    have hhome := hhomes c List.mem_cons_self
    obtain ⟨hwiring, hsame, hview⟩ := ih
      (h.queueInLoop false (f := .conn c .connectDestroyed) hhome) hrest
      fun d hd => hhomes d (List.mem_cons_of_mem _ hd)
    refine ⟨hwiring, hsame, fun d q hq => ?_⟩
    show ((s.queueInLoop false (loopOf c) (.conn c .connectDestroyed)).queueDestroyed
      loopOf cs).view d q = _
    rw [hview d q hq, view_queueInLoop, List.append_assoc]
    by_cases hd : d = c
    · subst hd
      have hloop : q.conn.loop = loopOf d :=
        Option.some.inj ((home_of hq).symm.trans hhome)
      simp [hloop, hfresh]
    · simp [hd]

theorem view_pushDestroyed (s : ServerSystem) {order : List ConnId} (hnodup : order.Nodup)
    (d : ConnId) (q : ConnRecord) :
    (s.pushTasks mainLoop (order.map fun c => .conn c .connectDestroyed)).view d q
      = { s.view d q with tasks :=
          (if q.conn.loop = mainLoop ∧ d ∈ order then [.connectDestroyed] else [])
            ++ (s.view d q).tasks } := by
  have hown : (order.map fun c => Task.conn c .connectDestroyed).filterMap (Task.of d)
      = if d ∈ order then [.connectDestroyed] else [] := by
    induction order with
    | nil => rfl
    | cons c cs ih =>
      obtain ⟨hfresh, hrest⟩ := List.nodup_cons.mp hnodup
      rw [List.map_cons, List.filterMap_cons, ih hrest]
      by_cases hd : d = c
      · subst hd
        simp [hfresh]
      · simp [Task.of_ne hd, hd]
  by_cases hloop : q.conn.loop = mainLoop
  · simp [view, pushTasks, setTodo, hloop, hown]
  · simp [view, pushTasks, setTodo, hloop]

theorem task_of_eq_some {u : Task} {task : ConnTask} (h : u.of c = some task) :
    u = .conn c task := by
  cases u with
  | user => cases h
  | conn d task' =>
    simp only [Task.of, Option.ite_none_right_eq_some, Option.some.injEq] at h
    obtain ⟨rfl, rfl⟩ := h
    rfl

theorem home_loopOf (hr : s.conns c = some r) : s.loopOf c = r.conn.loop := by
  simp [loopOf, hr]

/-- **The user destroys the server.** -/
theorem Inv.destroyServer (h : s.Inv) (hrunning : s.aborted = none) {order : List ConnId}
    (hstep : s.step (.destroyServer order) = some t) : Sound s t := by
  obtain ⟨⟨hserver, huser, hnodup, hinMap, _⟩, rfl⟩ := step_does hstep
  let dying := { s with server := { s.server with alive := false, connections := fun _ => none } }
  let away := order.filter (s.loopOf · ≠ mainLoop)
  let here := order.filter (s.loopOf · = mainLoop)
  have hlisted : ∀ c ∈ order, ∃ r, s.conns c = some r ∧ .removeConnectionInLoop ∉ r.steps := by
    intro c hc
    obtain ⟨r, hr, hmapped⟩ := hinMap c hc
    obtain ⟨p, hp, _, hremoved⟩ := h.wiring.roster.mapped _ c hmapped
    obtain ⟨r', hr', rfl⟩ := Option.map_eq_some_iff.mp hp
    exact ⟨r', hr', of_decide_eq_false hremoved⟩
  have hhomes : ∀ c ∈ order, s.home c = some (s.loopOf c) := by
    intro c hc
    obtain ⟨r, hr, _⟩ := hlisted c hc
    rw [home_of hr, home_loopOf hr]
  have hdying : dying.Wiring :=
    ⟨h.wiring.loops, h.wiring.roster.destroy, h.wiring.pollers, h.wiring.routing, h.wiring.heads⟩
  obtain ⟨hqueued, hsame, hview⟩ := queueDestroyed_spec away hdying (hnodup.filter _)
    fun c hc => hhomes c (List.mem_filter.mp hc).1
  have ht : s.destroyServer order = (dying.queueDestroyed s.loopOf away).pushTasks mainLoop
      (here.map fun c => .conn c .connectDestroyed) := rfl
  have hclear := h.wiring.clear_of_user huser
  have hwiring : (s.destroyServer order).Wiring := by
    rw [ht]
    refine hqueued.pushTasks ?_ ?_
    · intro c u hin
      obtain ⟨d, hd, heq⟩ := List.mem_map.mp hin
      cases heq
      obtain ⟨hmem, hmain⟩ := List.mem_filter.mp hd
      rw [hsame]
      exact (hhomes c hmem).trans (congrArg some (of_decide_eq_true hmain))
    · rw [hsame]
      intro c hin
      rcases List.mem_append.mp (List.mem_of_mem_tail hin) with hnew | hold
      · simp at hnew
      · exact hclear c hold
  have hlife : ∀ d q, s.conns d = some q → ((s.destroyServer order).view d q).Life := by
    intro d q hq
    have hlife := h.life d q hq
    rw [ht, view_pushDestroyed _ (hnodup.filter _), hview d q hq]
    by_cases hd : d ∈ order
    · obtain ⟨r, hr, hremoved⟩ := hlisted d hd
      obtain rfl : r = q := Option.some.inj (Eq.trans (Eq.symm hr) hq)
      by_cases hmain : r.conn.loop = mainLoop
      · have hhere : d ∈ here := by simp [here, hd, home_loopOf hr, hmain]
        have haway : d ∉ away := by simp [away, home_loopOf hr, hmain]
        rw [if_neg haway, if_pos ⟨hmain, hhere⟩, List.append_nil]
        refine hlife.pushDestroyed hserver hremoved hmain fun hin => ?_
        obtain ⟨u, hu, hof⟩ := List.mem_filterMap.mp hin
        rw [hmain] at hu
        exact hclear d (task_of_eq_some hof ▸ hu)
      · have haway : d ∈ away := by simp [away, hd, home_loopOf hr, hmain]
        rw [if_pos haway, if_neg fun hboth => hmain hboth.1, List.nil_append]
        exact hlife.queueDestroyed hserver hremoved
    · have hhere : d ∉ here := fun hin => hd (List.mem_filter.mp hin).1
      have haway : d ∉ away := fun hin => hd (List.mem_filter.mp hin).1
      rw [if_neg haway, if_neg fun hboth => hhere hboth.2, List.append_nil, List.nil_append]
      exact hlife.orphan hserver
  have hconns : (s.destroyServer order).conns = s.conns := by
    rw [ht]
    show (dying.queueDestroyed s.loopOf away).conns = s.conns
    rw [hsame]
  refine .of_inv ⟨hwiring, fun d q hq => ?_⟩ ?_ hconns
  · rw [hconns] at hq
    exact hlife d q hq
  · rw [ht]
    show (dying.queueDestroyed s.loopOf away).aborted = none
    rw [hsame]
    exact hrunning

/-! ### Runs -/

/-- **Every step keeps the invariant or aborts.** -/
theorem Inv.sound (h : s.Inv) {act : ServerAct} (hstep : s.step act = some t) : Sound s t := by
  have hrunning := running_of_step hstep
  cases act with
  | loopStep L a => exact h.loopStep hrunning hstep
  | handleEvent L fd => exact h.handleEvent hrunning hstep
  | callFunctor L res => exact h.callFunctor hrunning hstep
  | task L readRes res => exact h.task hrunning hstep
  | userCall who c request res => exact h.userCall hrunning hstep
  | userCopy who c => exact h.userCopy hrunning hstep
  | userDrop c => exact h.userDrop hrunning hstep
  | userQueue L isInLoopThread => exact h.userQueue hrunning hstep
  | quit L => exact h.quit hrunning hstep
  | destroy c => exact h.destroy hrunning hstep
  | destroyServer order => exact h.destroyServer hrunning hstep

section Run

variable {name : Name} {listenAddr : InetAddress} {writeCompleteCallback : Bool}
  {loops : List LoopId} {acts : List ServerAct}

theorem Inv.initial : (start (.new name listenAddr writeCompleteCallback loops)).Inv := by
  have hnone : ∀ {α : Type} {a : α}, none = some a → False := fun h => Option.some_ne_none _ h.symm
  have hroster : Roster (fun _ => none) 0 (.new name listenAddr writeCompleteCallback loops) :=
    { domain := fun c => iff_of_false Bool.false_ne_true (Nat.not_lt_zero c)
      nextConnId := show (1 : Int) = connIdAfter 0 by decide
      names := fun _ _ hc => (hnone hc).elim
      loops := fun _ _ hc => (hnone hc).elim
      mapped := fun _ _ hname => (hnone hname).elim
      listed := fun _ _ _ _ hc => (hnone hc).elim }
  have hpollers : Pollers (fun _ => none) fun _ => .new :=
    { registered := fun _ _ hc => (hnone hc).elim
      entries := fun _ _ hentry => (hentry.elim (fun hne => hne rfl) fun hne => hne rfl).elim
      fds := fun _ _ _ _ hc => (hnone hc).elim }
  have hrouting : Routing (fun _ => none) (fun _ => .new) (fun _ => []) fun _ => 0 :=
    { functors := fun _ _ => nofun
      tasks := fun _ _ _ => nofun
      active := fun _ _ => nofun
      copies := fun _ hne => absurd rfl hne }
  exact ⟨⟨fun _ => .new, hroster, hpollers, hrouting, fun _ _ => List.not_mem_nil⟩,
    fun _ _ hc => (hnone hc).elim⟩

/-- What holds in every state of a run. -/
theorem inv_run
    (hrun : Runs.run step (start (.new name listenAddr writeCompleteCallback loops)) acts
      = some t) :
    (t.aborted = none → t.Inv)
      ∧ (t.server.alive = true → t.accepted < 2 ^ 31 → t.aborted = none) := by
  refine Runs.run_induction (I := fun u => (u.aborted = none → u.Inv)
      ∧ (u.server.alive = true → u.accepted < 2 ^ 31 → u.aborted = none))
    (fun u act w hu hstep => ?_) ⟨fun _ => .initial, fun _ _ => rfl⟩ hrun
  have hsound := (hu.1 (running_of_step hstep)).sound hstep
  exact ⟨hsound.inv, hsound.safe⟩

/-- **Every connection goes through its life once and in order, and no `assert` fails.** -/
theorem life_cycle
    (hrun : Runs.run step (start (.new name listenAddr writeCompleteCallback loops)) acts = some t)
    (halive : t.server.alive = true) (hfew : t.accepted < 2 ^ 31) :
    t.aborted = none ∧ ∀ c r, t.conns c = some r →
      r.steps <+: [.newConnection, .connectEstablished, .handleClose, .removeConnectionInLoop,
        .connectDestroyed]
      ∧ ∃ n, r.trace
          <+: .connection true :: List.replicate n .message ++ [.connection false] := by
  obtain ⟨hinv, hsafe⟩ := inv_run hrun
  have hrunning := hsafe halive hfew
  refine ⟨hrunning, fun c r hr => ?_⟩
  have hlife := (hinv hrunning).life c r hr
  exact ⟨hlife.steps halive, hlife.trace halive⟩

end Run

/-- One I/O loop; one connection, which the peer closes, up to `~TcpConnection`. -/
def oneConnection : List ServerAct :=
  [.loopStep 0 .enter, .loopStep 0 .resetQuit, .loopStep 1 .enter, .loopStep 1 .resetQuit,
    -- the main loop accepts it
    .loopStep 0 .test, .loopStep 0 (.poll [.channel .acceptor]), .handleEvent 0 (some 5),
    .loopStep 0 .beginPending, .loopStep 0 .swap, .loopStep 0 .endPending,
    -- its loop runs `connectEstablished`
    .loopStep 1 .test, .loopStep 1 (.poll [.wakeupChannel]), .handleEvent 1 none,
    .loopStep 1 .beginPending, .loopStep 1 .swap, .callFunctor 1 (.ok 0),
    .task 1 (.ok []) (.ok 0), .userCopy (.loop 1) 0, .task 1 (.ok []) (.ok 0),
    .loopStep 1 .endPending,
    -- a read of 0 bytes, and `handleClose`
    .loopStep 1 .test, .loopStep 1 (.poll [.channel (.conn 0 { epollIn := true })]),
    .handleEvent 1 none, .task 1 (.ok []) (.ok 0), .task 1 (.ok []) (.ok 0),
    .task 1 (.ok []) (.ok 0), .task 1 (.ok []) (.ok 0), .loopStep 1 .beginPending,
    .loopStep 1 .swap, .loopStep 1 .endPending,
    -- the main loop runs `removeConnectionInLoop`
    .loopStep 0 .test, .loopStep 0 (.poll [.wakeupChannel]), .handleEvent 0 none,
    .loopStep 0 .beginPending, .loopStep 0 .swap, .callFunctor 0 (.ok 0), .loopStep 0 .endPending,
    -- its loop runs `connectDestroyed`, and the user lets go of it
    .loopStep 1 .test, .loopStep 1 (.poll [.wakeupChannel]), .handleEvent 1 none,
    .loopStep 1 .beginPending, .loopStep 1 .swap, .callFunctor 1 (.ok 0),
    .loopStep 1 .endPending, .userDrop 0, .destroy 0]

theorem life_cycle_oneConnection :
    ∃ s, Runs.run step (start (.new ['s'] ⟨(127, 0, 0, 1), 80⟩ true [1])) oneConnection = some s
      ∧ s.aborted = none ∧ ∀ c r, s.conns c = some r →
        r.steps <+: [.newConnection, .connectEstablished, .handleClose, .removeConnectionInLoop,
          .connectDestroyed]
        ∧ ∃ n, r.trace
            <+: .connection true :: List.replicate n .message ++ [.connection false] := by
  obtain ⟨s, hs, hlive⟩ : ∃ s, Runs.run step (start (.new ['s'] ⟨(127, 0, 0, 1), 80⟩ true [1]))
      oneConnection = some s ∧ (s.server.alive = true ∧ s.accepted < 2 ^ 31) := by
    refine ⟨_, rfl, ?_⟩
    decide +kernel
  exact ⟨s, hs, life_cycle hs hlive.1 hlive.2⟩

end Ymuduo.ServerSystem
