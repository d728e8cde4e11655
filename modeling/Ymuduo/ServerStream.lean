/-
  Ymuduo/ServerStream.lean
  ========================
  **In a server that serves, every connection is a stream.**

  `ServerStream` is a `ServerSystem` with the kernel's end of every socket and with what
  the user has retrieved from every `inputBuffer_`.  The kernel answers as it can: a
  `::write` takes no more than it is given, and nothing after `SHUT_WR`.

  `ran` are the functions that a step of the server runs on one connection.  As long as the
  server serves they are steps of a `ConnStream` (`Inv.step_moves`), whatever the other loops,
  threads and connections do in between.  So a run of the server is, seen from one of its
  connections, a run of a `Duplex` (`connection_is_stream`).  A callback is seen in the step
  whose function is going to call it.
-/
import Ymuduo.ConnStream
import Ymuduo.LifeCycle
import Ymuduo.WorkBound

namespace Ymuduo

/-! ### Functions in a row -/

namespace TcpConnection

def execAll (conn : TcpConnection) (ops : List ConnOp) : TcpConnection :=
  ops.foldl (fun conn op => (conn.exec op).1) conn

/-- What the poller changes of a connection. -/
def setIndex (conn : TcpConnection) (index : ChannelIndex) : TcpConnection :=
  { conn with channel := { conn.channel with index := index } }

end TcpConnection

namespace ConnStream

def execAll (s : ConnStream) (ops : List ConnOp) : ConnStream :=
  ops.foldl (fun s op => s.exec id op) s

/-- The kernel's answers to the functions are possible. -/
def Answered (s : ConnStream) : List ConnOp → Prop
  | [] => True
  | op :: ops =>
    (op.Possible s.conn ∧ (s.fin = true → ¬ Takes op)) ∧ (s.exec id op).Answered ops

instance decidableAnswered : (s : ConnStream) → (ops : List ConnOp) → Decidable (s.Answered ops)
  | _, [] => inferInstanceAs (Decidable True)
  | s, op :: ops =>
    have := decidableAnswered (s.exec id op) ops
    inferInstanceAs (Decidable ((_ ∧ _) ∧ _))

def AllCalled (conn : TcpConnection) : List ConnOp → Prop
  | [] => True
  | op :: ops => Called conn op ∧ AllCalled (conn.exec op).1 ops

theorem execLogging_id (conn : TcpConnection) (op : ConnOp) :
    conn.execLogging id op = conn.exec op := by
  cases op <;> rfl

theorem conn_exec (s : ConnStream) (op : ConnOp) : (s.exec id op).conn = (s.conn.exec op).1 := by
  rw [← execLogging_id]
  rfl

theorem conn_execAll (s : ConnStream) (ops : List ConnOp) :
    (s.execAll ops).conn = s.conn.execAll ops := by
  induction ops generalizing s with
  | nil => rfl
  | cons op ops ih =>
    refine (ih (s.exec id op)).trans ?_
    rw [conn_exec]
    rfl

/-- Functions that are called where they can be, and answered as they can be, are steps. -/
theorem run_execAll {s : ConnStream} {ops : List ConnOp} (hanswered : s.Answered ops)
    (hcalled : AllCalled s.conn ops) :
    Runs.run (step id) s (ops.map .op) = some (s.execAll ops) := by
  induction ops generalizing s with
  | nil => rfl
  | cons op ops ih =>
    obtain ⟨⟨hpossible, hkernel⟩, hanswered⟩ := hanswered
    obtain ⟨hop, hcalled⟩ := hcalled
    have henabled : s.Enabled op := ⟨hpossible, hop, hkernel⟩
    rw [← conn_exec] at hcalled
    rw [List.map_cons, Runs.run_cons, step, if_pos henabled, Option.bind_some]
    exact ih hanswered hcalled

/-- The stream does not see the index. -/
theorem Refines.setIndex {s : ConnStream} {d : Duplex Byte} (h : s.Refines d)
    (index : ChannelIndex) : Refines { s with conn := s.conn.setIndex index } d :=
  ⟨⟨h.1.synced, h.1.quiet, h.1.reading⟩, h.2⟩

end ConnStream

/-! ### What a step does to a connection -/

/-- The user has ended the output. -/
def OutputEnded (state : StateE) : Prop := state = .kDisconnecting ∨ state = .kDisconnected

/-- It stays ended. -/
theorem outputEnded_exec {conn : TcpConnection} {op : ConnOp} (hop : ConnStream.Called conn op)
    (h : OutputEnded conn.state) : OutputEnded (conn.exec op).1.state := by
  cases op with
  | connectEstablished =>
    rcases h with hstate | hstate <;> cases hstate.symm.trans hop
  | sendInLoop message res => exact (conn.sendInLoop_quiet id message res).state ▸ h
  | handleWrite res => exact (conn.handleWrite_quiet res).state ▸ h
  | shutdownInLoop => exact h
  | handleRead res =>
    simp only [TcpConnection.exec, TcpConnection.handleRead]
    split
    · split
      · exact h
      · exact Or.inr rfl
    · exact h
  | handleClose => exact Or.inr rfl
  | shutdown =>
    simp only [TcpConnection.exec, TcpConnection.shutdown]
    split
    · exact Or.inl rfl
    · exact h
  | connectDestroyed =>
    simp only [TcpConnection.exec, TcpConnection.connectDestroyed]
    split
    · exact Or.inr rfl
    · exact h

theorem outputEnded_execAll {conn : TcpConnection} {ops : List ConnOp}
    (hcalled : ConnStream.AllCalled conn ops) (h : OutputEnded conn.state) :
    OutputEnded (conn.execAll ops).state := by
  induction ops generalizing conn with
  | nil => exact h
  | cons op ops ih => exact ih hcalled.2 (outputEnded_exec hcalled.1 h)

/-- No function queues a `shutdownInLoop`; only `shutdown()` does. -/
theorem exec_queues (conn : TcpConnection) (op : ConnOp) :
    .queueInLoop .shutdownInLoop ∉ (conn.exec op).2 := by
  have hquiet : ∀ {es : List Effect}, (∀ e ∈ es, e.IsQuiet) →
      .queueInLoop .shutdownInLoop ∉ es := fun h hin => h _ hin
  cases op with
  | sendInLoop message res => exact hquiet (conn.sendInLoop_quiet id message res).effects
  | handleWrite res => exact hquiet (conn.handleWrite_quiet res).effects
  | shutdownInLoop => exact hquiet conn.shutdownInLoop_quiet
  | connectEstablished => simp [TcpConnection.exec, TcpConnection.connectEstablished]
  | handleClose => simp [TcpConnection.exec, TcpConnection.handleClose]
  | handleRead res =>
    simp only [TcpConnection.exec, TcpConnection.handleRead]
    split
    · split
      · simp
      · simp [TcpConnection.handleClose]
    · simp
  | shutdown => exact List.not_mem_nil
  | connectDestroyed =>
    simp only [TcpConnection.exec, TcpConnection.connectDestroyed]
    split <;> simp

/-- What a task runs. -/
def taskOp (readRes : ReadvResult) (res : SysResult) : ConnTask → Option ConnOp
  | .callback cb => ServerSystem.callbackOp readRes res cb
  | .connectDestroyed => some .connectDestroyed
  | .effect _ | .user => none

/-- What the calling thread runs: the change of `state_` is a function of its own. -/
def Request.onCaller : Request → Option ConnOp
  | .send _ => none
  | .shutdown => some .shutdown

def dispatchOp (res : SysResult) : TcpConnection.Dispatch → Option ConnOp
  | .run f => f.op res
  | .nothing | .queue _ => none

/-- What a call of the user runs at once. -/
def requestOps (conn : TcpConnection) (isInLoopThread : Bool) (request : Request)
    (res : SysResult) : List ConnOp :=
  request.onCaller.toList ++ (dispatchOp res (request.call conn isInLoopThread).2).toList

theorem execAll_call (conn : TcpConnection) (isInLoopThread : Bool) (request : Request)
    (ops : List ConnOp) : (request.call conn isInLoopThread).1.execAll ops
      = conn.execAll (request.onCaller.toList ++ ops) := by
  cases request with
  | send message => rfl
  | shutdown =>
    have hstate : (conn.shutdown isInLoopThread).1 = (conn.shutdown false).1 := by
      unfold TcpConnection.shutdown
      split <;> rfl
    exact congrArg (TcpConnection.execAll · ops) hstate

namespace ConnView

variable {v v' w : ConnView} {ops : List ConnOp}

/-- From `v` to `v'` the functions have run, and a `shutdownInLoop` that has been queued is
    behind the end of the output. -/
structure Ran (ops : List ConnOp) (v v' : ConnView) : Prop where
  conn : ∃ index, v'.conn = (v.conn.execAll ops).setIndex index
  queue : .shutdownInLoop ∈ v'.queue → .shutdownInLoop ∈ v.queue ∨ OutputEnded v'.conn.state

theorem Ran.of_same (hconn : v'.conn = v.conn)
    (hqueue : .shutdownInLoop ∈ v'.queue → .shutdownInLoop ∈ v.queue) : Ran [] v v' :=
  ⟨⟨v.conn.channel.index, hconn⟩, fun hin => Or.inl (hqueue hin)⟩

/-- A task, a functor or an event has been taken before. -/
theorem Ran.of_taken (h : Ran ops w v') (hconn : w.conn = v.conn)
    (hqueue : .shutdownInLoop ∈ w.queue → .shutdownInLoop ∈ v.queue) : Ran ops v v' :=
  ⟨hconn ▸ h.conn, fun hin => (h.queue hin).imp_left hqueue⟩

theorem Ran.outputEnded (h : Ran ops v v') (hcalled : ConnStream.AllCalled v.conn ops)
    (hended : .shutdownInLoop ∈ v.queue → OutputEnded v.conn.state) :
    .shutdownInLoop ∈ v'.queue → OutputEnded v'.conn.state := by
  intro hin
  rcases h.queue hin with hold | hnow
  · obtain ⟨index, hconn⟩ := h.conn
    rw [hconn]
    exact outputEnded_execAll hcalled (hended hold)
  · exact hnow

theorem perform_ran {e : Effect} (he : e ≠ .queueInLoop .shutdownInLoop)
    (h : v.perform e = some v') :
    (∃ index, v'.conn = v.conn.setIndex index)
      ∧ (.shutdownInLoop ∈ v'.queue → .shutdownInLoop ∈ v.queue) := by
  cases e with
  | updateChannel =>
    cases h
    exact ⟨⟨_, rfl⟩, id⟩
  | removeChannel =>
    simp only [perform] at h
    split at h
    · cases h
    · cases h
      exact ⟨⟨_, rfl⟩, id⟩
  | queueInLoop f =>
    cases h
    refine ⟨⟨_, rfl⟩, fun hin => ?_⟩
    rcases List.mem_append.mp hin with hold | hnew
    · exact hold
    · rw [← List.mem_singleton.mp hnew] at he
      exact absurd rfl he
  | assertion fault holds =>
    simp only [perform] at h
    split at h
    · cases h
      exact ⟨⟨_, rfl⟩, id⟩
    · cases h
  | write _ | shutdownWrite | connectionCallback | messageCallback | closeCallback =>
    cases h
    exact ⟨⟨_, rfl⟩, id⟩

theorem runEffects_ran {effects : List Effect} (heffects : .queueInLoop .shutdownInLoop ∉ effects)
    (h : v.runEffects effects = some v') :
    (∃ index, v'.conn = v.conn.setIndex index)
      ∧ (.shutdownInLoop ∈ v'.queue → .shutdownInLoop ∈ v.queue) := by
  induction effects generalizing v with
  | nil =>
    cases h
    exact ⟨⟨_, rfl⟩, id⟩
  | cons e es ih =>
    unfold runEffects at h
    split at h
    · cases h
      exact ⟨⟨_, rfl⟩, id⟩
    · obtain ⟨u, hu, hrest⟩ := Option.bind_eq_some_iff.mp h
      obtain ⟨⟨i, hfirst⟩, hqueue⟩ :=
        perform_ran (fun heq => heffects (heq ▸ List.mem_cons_self)) hu
      obtain ⟨⟨j, hlast⟩, hqueue'⟩ := ih (fun hin => heffects (List.mem_cons_of_mem _ hin)) hrest
      exact ⟨⟨j, by rw [hlast, hfirst]; rfl⟩, fun hin => hqueue (hqueue' hin)⟩

theorem run_ran {op : ConnOp} (h : v.run op = some v') : Ran [op] v v' := by
  unfold run at h
  split at h
  · obtain ⟨hconn, hqueue⟩ := runEffects_ran (exec_queues v.conn op) h
    exact ⟨hconn, fun hin => Or.inl (hqueue hin)⟩
  · cases h

theorem runFunctor_ran {res : SysResult} {f : ConnFunctor} (h : v.runFunctor res f = some v') :
    Ran (f.op res).toList v v' := by
  unfold runFunctor at h
  cases hop : f.op res with
  | some op =>
    rw [hop] at h
    exact run_ran h
  | none =>
    rw [hop] at h
    cases h
    exact .of_same rfl id

theorem runTask_ran {onMainLoop : Bool} {readRes : ReadvResult} {res : SysResult} {t : ConnTask}
    (ht : t ≠ .effect (.queueInLoop .shutdownInLoop))
    (h : v.runTask onMainLoop readRes res t = some v') :
    Ran (taskOp readRes res t).toList v v' := by
  cases t with
  | callback cb =>
    simp only [runTask] at h
    simp only [taskOp]
    cases hop : ServerSystem.callbackOp readRes res cb with
    | some op =>
      rw [hop] at h
      exact run_ran h
    | none =>
      rw [hop] at h
      cases h
      exact .of_same rfl id
  | connectDestroyed => exact run_ran h
  | user =>
    cases h
    exact .of_same rfl id
  | effect e =>
    have hperform : v.perform e = some v' → Ran [] v v' := fun hperform => by
      obtain ⟨hconn, hqueue⟩ := perform_ran (fun heq => ht (congrArg _ heq)) hperform
      exact ⟨hconn, fun hin => Or.inl (hqueue hin)⟩
    cases e with
    | connectionCallback | messageCallback =>
      cases h
      exact .of_same rfl id
    | closeCallback =>
      simp only [runTask, runEffect, Option.ite_none_right_eq_some, Option.some.injEq] at h
      obtain ⟨_, rfl⟩ := h
      split
      · refine .of_same rfl fun hin => ?_
        simpa [erase] using hin
      · exact .of_same rfl id
    | write _ | shutdownWrite | updateChannel | removeChannel | queueInLoop _ | assertion _ _ =>
      exact hperform h

/-- A call from another thread changes `state_` at once and leaves the rest to the loop. -/
theorem call_ran {isInLoopThread : Bool} {request : Request} {res : SysResult}
    (h : v.call isInLoopThread request res = some v') :
    Ran (requestOps v.conn isInLoopThread request res) v v' := by
  have hnow := execAll_call v.conn isInLoopThread request
    (dispatchOp res (request.call v.conn isInLoopThread).2).toList
  simp only [call] at h
  unfold requestOps
  cases hdispatch : (request.call v.conn isInLoopThread).2 with
  | nothing =>
    simp only [hdispatch, Option.some.injEq] at h
    rw [hdispatch] at hnow
    subst h
    exact ⟨⟨_, hnow⟩, Or.inl⟩
  | run f =>
    simp only [hdispatch] at h
    rw [hdispatch] at hnow
    simp only [dispatchOp] at hnow ⊢
    cases hop : f.op res with
    | some op =>
      simp only [hop] at h hnow
      obtain ⟨⟨index, hconn⟩, hqueue⟩ := run_ran h
      exact ⟨⟨index, hconn.trans (congrArg (·.setIndex index) hnow)⟩, hqueue⟩
    | none =>
      simp only [hop, Option.some.injEq] at h hnow
      subst h
      exact ⟨⟨_, hnow⟩, Or.inl⟩
  | queue f =>
    simp only [hdispatch, Option.some.injEq] at h
    rw [hdispatch] at hnow
    subst h
    refine ⟨⟨_, hnow⟩, fun hin => ?_⟩
    rcases List.mem_append.mp hin with hold | hnew
    · exact Or.inl hold
    · right
      cases List.mem_singleton.mp hnew
      cases request with
      | send message =>
        simp only [Request.call, TcpConnection.send, TcpConnection.runInLoop] at hdispatch
        split at hdispatch
        · split at hdispatch <;> cases hdispatch
        · cases hdispatch
      | shutdown =>
        simp only [Request.call, TcpConnection.shutdown] at hdispatch ⊢
        split at hdispatch
        · rename_i hstate
          rw [if_pos hstate]
          exact Or.inl rfl
        · cases hdispatch

/-! ### While the server serves -/

/-- The functor is queued before anything else happens to the connection. -/
theorem Life.connecting_of_queued (h : v.Life) (hserver : v.server = true)
    (hin : .connectEstablished ∈ v.queue) : v.conn.state = .kConnecting := by
  cases h with
  | queued h => exact h.fresh.state
  | announcing h => exact absurd hin h.queue
  | established h => exact absurd hin h.queue
  | downPending h => exact absurd hin h.queue
  | closePending h => exact absurd hin h.queue
  | removing h => exact absurd hin h.queue
  | @destroying before h =>
    rw [h.queue] at hin
    rcases List.mem_append.mp hin with hbefore | hlast
    · exact absurd rfl (h.before _ hbefore).1
    · cases List.mem_singleton.mp hlast
  | gone h => simp [h.queue] at hin
  | dropPending h => cases hserver.symm.trans h.dropping.server
  | dropTold h => cases hserver.symm.trans h.dropping.server
  | stray h => cases hserver.symm.trans h.server

/-- **A functor runs a function where that can be called.** -/
theorem Life.called_functor (h : v.Life) (hserver : v.server = true)
    (hended : .shutdownInLoop ∈ v.queue → OutputEnded v.conn.state) {f : ConnFunctor}
    (hin : f ∈ v.queue) (res : SysResult) :
    ConnStream.AllCalled v.conn (f.op res).toList := by
  cases f with
  | connectEstablished => exact ⟨h.connecting_of_queued hserver hin, trivial⟩
  | shutdownInLoop => exact ⟨hended hin, trivial⟩
  | connectDestroyed | sendInLoop message => exact ⟨trivial, trivial⟩
  | writeComplete | highWaterMark size => trivial

/-- **A task runs a function where that can be called**: only an established connection is
    still to be read or closed. -/
theorem Life.called_task (h : v.Life) (hserver : v.server = true) {t : ConnTask}
    {rest : List ConnTask} (hv : v.tasks = t :: rest) (readRes : ReadvResult) (res : SysResult) :
    ConnStream.AllCalled v.conn (taskOp readRes res t).toList := by
  have hreading : t.weight = 1 → v.conn.channel.isReading = true := by
    intro ht
    rcases h.of_weight hv ht with hest | hstray
    · exact hest.opened.reading
    · cases hserver.symm.trans hstray.server
  cases t with
  | callback cb =>
    cases cb with
    | close | read => exact ⟨hreading rfl, trivial⟩
    | write => exact ⟨trivial, trivial⟩
    | error => trivial
  | connectDestroyed => exact ⟨trivial, trivial⟩
  | effect e | user => trivial

/-- What is left of a function behind a callback queues nothing. -/
theorem Life.not_queueing (h : v.Life) {t : ConnTask} {rest : List ConnTask}
    (hv : v.tasks = t :: rest) : t ≠ .effect (.queueInLoop .shutdownInLoop) := by
  rintro rfl
  rcases h.of_effect hv with ⟨h, _⟩ | ⟨h, _⟩ | ⟨h, _⟩ | ⟨h, _⟩ | ⟨h, _⟩ <;> cases h

/-- `shutdown()` ends the output before it half-closes. -/
theorem called_request (conn : TcpConnection) (isInLoopThread : Bool) (request : Request)
    (res : SysResult) : ConnStream.AllCalled conn (requestOps conn isInLoopThread request res) := by
  cases request with
  | send message =>
    simp only [requestOps, Request.onCaller, Request.call, TcpConnection.send,
      TcpConnection.runInLoop]
    split
    · split
      · exact ⟨trivial, trivial⟩
      · trivial
    · trivial
  | shutdown =>
    simp only [requestOps, Request.onCaller, Request.call, TcpConnection.shutdown,
      TcpConnection.runInLoop]
    refine ⟨trivial, ?_⟩
    split
    · rename_i hstate
      split
      · refine ⟨Or.inl ?_, trivial⟩
        simp [TcpConnection.exec, TcpConnection.shutdown, hstate]
      · trivial
    · trivial

end ConnView

/-! ### The functions that a step runs -/

namespace ServerSystem

variable {s t : ServerSystem} {c d : ConnId} {r r' : ConnRecord} {L : LoopId}

/-- The functions of the connection that a step runs; a connection that joins on the main
    loop is established at once. -/
def ran (s : ServerSystem) (c : ConnId) : ServerAct → List ConnOp
  | .handleEvent L fd =>
    if (s.loop L).activeChannels.head? = some (.channel .acceptor) ∧ fd.isSome = true
        ∧ c = s.accepted ∧ s.server.getNextLoop.1 = mainLoop then [.connectEstablished]
    else []
  | .callFunctor L res =>
    (((s.loop L).functors.head?.bind (Functor.of c)).bind (·.op res)).toList
  | .task L readRes res => (((s.todo L).head?.bind (Task.of c)).bind (taskOp readRes res)).toList
  | .userCall who d request res =>
    if d = c then
      match s.conns c with
      | some r => requestOps r.conn (who = .loop r.conn.loop) request res
      | none => []
    else []
  | .loopStep _ _ | .userCopy _ _ | .userDrop _ | .userQueue _ _ | .quit _ | .destroy _
  | .destroyServer _ => []

/-- The functors that are left are among those that waited. -/
theorem queue_setLoop {l : EventLoop Source Functor} (hsub : l.waiting ⊆ (s.loop L).waiting)
    {f : ConnFunctor} (hin : f ∈ ((s.setLoop L l).view c r).queue) : f ∈ (s.view c r).queue := by
  by_cases hloop : r.conn.loop = L
  · subst hloop
    simp only [view, loop_setLoop] at hin ⊢
    obtain ⟨g, hg, hof⟩ := List.mem_filterMap.mp hin
    exact List.mem_filterMap.mpr ⟨g, hsub hg, hof⟩
  · simp only [view, loop_setLoop_ne _ _ hloop] at hin ⊢
    exact hin

/-- What `c` has gone through from `s` to `t`. -/
def Went (s t : ServerSystem) (c : ConnId) (ops : List ConnOp) : Prop :=
  ∀ r, s.conns c = some r → ∃ r', t.conns c = some r'
    ∧ ConnView.Ran ops (s.view c r) (t.view c r') ∧ ConnStream.AllCalled r.conn ops

theorem Went.of_conns (hconns : t.conns c = s.conns c)
    (hqueue : ∀ r, .shutdownInLoop ∈ (t.view c r).queue → .shutdownInLoop ∈ (s.view c r).queue) :
    Went s t c [] :=
  fun r hr => ⟨r, hconns.trans hr, .of_same rfl (hqueue r), trivial⟩

theorem Went.of_setLoop {l : EventLoop Source Functor} (hsub : l.waiting ⊆ (s.loop L).waiting)
    (c : ConnId) : Went s (s.setLoop L l) c [] :=
  .of_conns rfl fun _ => queue_setLoop hsub

/-- Other connections see nothing of a step. -/
theorem Went.others {u : ServerSystem} (h : Went s u c []) (hview : t.viewOf c = u.viewOf c) :
    Went s t c [] := by
  intro r hr
  obtain ⟨q, hq, hran, _⟩ := h r hr
  rw [viewOf_of hq] at hview
  obtain ⟨r', hr', hsame⟩ := of_viewOf hview
  exact ⟨r', hr', hsame ▸ hran, trivial⟩

/-- **A step of one connection.**  `u` is `s` without the task, the functor or the event that
    has been taken. -/
theorem Went.of_follows (ops : ConnId → List ConnOp) {u : ServerSystem} {result : Option ConnView}
    (hr : s.conns c = some r) (hfollows : Follows c u t result) (hrunning : t.aborted = none)
    (hran : ∀ v', result = some v' → ConnView.Ran (ops c) (s.view c r) v')
    (hcalled : ConnStream.AllCalled r.conn (ops c)) (htaken : ∀ d, Went s u d [])
    (hothers : ∀ d, d ≠ c → ops d = []) (d : ConnId) : Went s t d (ops d) := by
  cases result with
  | none => exact absurd hrunning hfollows.1
  | some v =>
    by_cases hd : d = c
    · subst hd
      intro q hq
      obtain rfl := Option.some.inj (hr.symm.trans hq)
      obtain ⟨r', hr', rfl⟩ := of_viewOf hfollows.view
      exact ⟨r', hr', hran _ rfl, hcalled⟩
    · rw [hothers d hd]
      exact (htaken d).others (hfollows.others d hd)

/-- What is queued behind the end of the output. -/
def HalfClosesEnded (s : ServerSystem) : Prop :=
  ∀ c r, s.conns c = some r →
    .shutdownInLoop ∈ (s.view c r).queue → OutputEnded r.conn.state

/-- **The loop calls a functor.** -/
theorem Inv.callFunctor_went (h : s.Inv) (hserver : s.server.alive = true)
    (hended : s.HalfClosesEnded) {res : SysResult}
    (hstep : s.step (.callFunctor L res) = some t) (hrunning : t.aborted = none) (c : ConnId) :
    Went s t c (s.ran c (.callFunctor L res)) := by
  obtain ⟨f, l, htodo, hhead, hwf, hwaiting, hactive, rfl⟩ := h.wiring.callFunctor_cases hstep
  have hsub : l.waiting ⊆ (s.loop L).waiting := by
    rw [hwaiting]
    exact List.subset_cons_self _ _
  have htaken := Went.of_setLoop (s := s) hsub
  simp only [ran, hhead, Option.bind_some]
  cases f with
  | conn d f =>
    obtain ⟨r, hr, _, hqueue, hfollows, _⟩ :=
      h.wiring.callConn_follows htodo hwf hwaiting hactive res
    have hin : f ∈ (s.view d r).queue := hqueue ▸ List.mem_cons_self
    refine Went.of_follows (fun c => (((Functor.conn d f).of c).bind (·.op res)).toList) hr
      hfollows hrunning ?_ ?_ htaken (fun e he => ?_) c
    · intro v' hv'
      simp only [Functor.of_self, Option.bind_some]
      refine (ConnView.runFunctor_ran hv').of_taken rfl fun hrest => ?_
      exact hqueue ▸ List.mem_cons_of_mem _ hrest
    · simp only [Functor.of_self, Option.bind_some]
      exact (h.life d r hr).called_functor hserver (hended d r hr) hin res
    · simp only [Functor.of_ne he, Option.bind_none, Option.toList_none]
  | removeConnectionInLoop d =>
    obtain ⟨rfl, hhome⟩ : L = mainLoop ∧ (s.home d).isSome = true :=
      h.wiring.routing.functors L (.removeConnectionInLoop d) (hwaiting ▸ List.mem_cons_self)
    obtain ⟨M, hM⟩ := Option.isSome_iff_exists.mp hhome
    obtain ⟨r, hr, _⟩ := Option.map_eq_some_iff.mp hM
    have hwiring := h.wiring.setLoop hwf hsub fun a hin =>
      h.wiring.routing.active _ a (hactive ▸ hin)
    have hacts := removeConnectionInLoop_acts hwiring hr hserver
    refine Went.of_follows (fun _ => []) hr
      (show Follows d (s.setLoop mainLoop l) _ (some _) from hacts) hrunning ?_ trivial htaken
      (fun _ _ => rfl) c
    rintro _ ⟨⟩
    refine .of_same rfl fun hin => queue_setLoop hsub ?_
    simpa [ConnView.erase] using hin
  | user =>
    refine (htaken c).others (viewOf_congr rfl fun q _ => ?_)
    exact view_pushUser _ L c q

/-- **The loop does its next task.** -/
theorem Inv.task_went (h : s.Inv) (hserver : s.server.alive = true) {readRes : ReadvResult}
    {res : SysResult} (hstep : s.step (.task L readRes res) = some t) (hrunning : t.aborted = none)
    (c : ConnId) : Went s t c (s.ran c (.task L readRes res)) := by
  obtain ⟨task, rest, htodo, rfl⟩ := step_does hstep
  have htaken : ∀ d, Went s (s.setTodo L rest) d [] := fun d => .of_conns rfl fun _ => id
  simp only [ran, htodo, List.head?_cons, Option.bind_some]
  cases task with
  | user => exact htaken c
  | conn d task =>
    obtain ⟨r, hr, htasks, hfollows, _⟩ := h.task_follows htodo readRes res
    have hlife := h.life d r hr
    refine Went.of_follows
      (fun c => (((Task.conn d task).of c).bind (taskOp readRes res)).toList) hr
      hfollows hrunning ?_ ?_ htaken (fun e he => ?_) c
    · intro v' hv'
      simp only [Task.of_self, Option.bind_some]
      exact (ConnView.runTask_ran (hlife.not_queueing htasks) hv').of_taken rfl id
    · simp only [Task.of_self, Option.bind_some]
      exact hlife.called_task hserver htasks readRes res
    · simp only [Task.of_ne he, Option.bind_none, Option.toList_none]

/-- **The user calls `send` or `shutdown`.** -/
theorem Inv.userCall_went (h : s.Inv) {who : UserThread} {request : Request} {res : SysResult}
    (hstep : s.step (.userCall who d request res) = some t) (hrunning : t.aborted = none)
    (c : ConnId) : Went s t c (s.ran c (.userCall who d request res)) := by
  obtain ⟨hcan, hcall⟩ := step_does hstep
  obtain ⟨r, hr, _⟩ := h.wiring.known hcan
  have hclear : who = .loop r.conn.loop → Clear (s.todo r.conn.loop) := by
    rintro rfl
    obtain ⟨argument, hargument, _⟩ := hcan
    exact h.wiring.clear_of_user (Option.isSome_iff_exists.mpr ⟨argument, hargument⟩)
  refine Went.of_follows (fun c => s.ran c (.userCall who d request res)) hr
    (userCall_follows h.wiring hr hclear hcall) hrunning ?_ ?_ (fun _ => .of_conns rfl fun _ => id)
    (fun e he => if_neg he.symm) c
  · intro v' hv'
    simp only [ran, if_true, hr]
    exact ConnView.call_ran hv'
  · simp only [ran, if_true, hr]
    exact ConnView.called_request r.conn _ request res

/-! ### A connection joins -/

/-- The connection is new in `t`, where `ops` have run on it. -/
def Joins (t : ServerSystem) (c : ConnId) (ops : List ConnOp) : Prop :=
  ∃ r, t.conns c = some r ∧ .shutdownInLoop ∉ (t.view c r).queue
    ∧ ∃ loop name sockfd writeCompleteCallback index,
      r.conn = ((TcpConnection.new loop name sockfd writeCompleteCallback false
        TcpConnection.defaultHighWaterMark).execAll ops).setIndex index

/-- **The acceptor has a new connection**; on the main loop it is established at once. -/
theorem Inv.newConnection_joins (h : s.Inv) (htodo : s.todo mainLoop = []) {fd : Fd}
    (hfree : s.FdFree fd) (hrunning : (s.newConnection fd).aborted = none) :
    (∀ c, c ≠ s.accepted → (s.newConnection fd).viewOf c = s.viewOf c)
      ∧ Joins (s.newConnection fd) s.accepted
        (if s.server.getNextLoop.1 = mainLoop then [.connectEstablished] else []) := by
  obtain ⟨hwiring, r, hr, hloop, _, hempty, hothers⟩ := h.insertConnection fd hfree
  obtain rfl := Option.some.inj ((conns_setConn ..).symm.trans hr)
  unfold ServerSystem.newConnection at hrunning ⊢
  by_cases hmain : s.server.getNextLoop.1 = mainLoop
  · rw [if_pos hmain] at hrunning
    rw [if_pos hmain, if_pos hmain]
    have hclear : Clear ((s.insertConnection fd).todo mainLoop) := by
      rw [show (s.insertConnection fd).todo = s.todo from rfl, htodo]
      exact fun _ hin => by cases hin
    have hfollows := run_follows hwiring hr (hmain.symm ▸ hclear) .connectEstablished
    cases hresult : ((s.insertConnection fd).view s.accepted _).run .connectEstablished with
    | none =>
      rw [hresult] at hfollows
      exact absurd hrunning hfollows.1
    | some v =>
      rw [hresult] at hfollows
      obtain ⟨⟨index, hconn⟩, hqueue⟩ := ConnView.run_ran hresult
      obtain ⟨r', hr', rfl⟩ := of_viewOf hfollows.view
      refine ⟨fun c hc => (hfollows.others c hc).trans (hothers c hc), r', hr', fun hin => ?_,
        _, _, _, _, index, hconn⟩
      rcases hqueue hin with hold | hended
      · rw [hempty] at hold
        cases hold
      · rw [hconn] at hended
        rcases hended with hstate | hstate <;> cases hstate
  · rw [if_neg hmain, if_neg hmain]
    have hacts := Acts.queueInLoop hwiring hr false .connectEstablished
    refine ⟨fun c hc => (hacts.others c hc).trans (hothers c hc), _, hr, fun hin => ?_,
      _, _, _, _, .kNew, rfl⟩
    rw [view_queueInLoop] at hin
    rcases List.mem_append.mp hin with hold | hnew
    · rw [hempty] at hold
      cases hold
    · split at hnew
      · cases List.mem_singleton.mp hnew
      · cases hnew

/-- A connection that is not known runs nothing until it joins. -/
def MayJoin (s t : ServerSystem) (c : ConnId) (ops : List ConnOp) : Prop :=
  s.conns c = none → t.conns c = none ∧ ops = [] ∨ Joins t c ops

/-- **The loop handles an active channel.** -/
theorem Inv.handleEvent_went (h : s.Inv) {fd : Option Fd}
    (hstep : s.step (.handleEvent L fd) = some t) (hrunning : t.aborted = none) (c : ConnId) :
    Went s t c (s.ran c (.handleEvent L fd)) ∧ MayJoin s t c (s.ran c (.handleEvent L fd)) := by
  obtain ⟨htodo, a, rest, l, hchannels, hl, hactive⟩ := step_does hstep
  obtain ⟨hwf, hpop⟩ := (h.wiring.loops L).advance hl
  have hwaiting : l.waiting = (s.loop L).waiting := hpop.symm
  have hsub : l.waiting ⊆ (s.loop L).waiting := by
    rw [hwaiting]
    exact List.Subset.refl _
  have htaken := Went.of_setLoop (s := s) hsub
  obtain rfl := EventLoop.advance_handleEvent hchannels hl
  simp only [ran, hchannels, List.head?_cons, Option.some.injEq]
  cases a with
  | wakeupChannel =>
    cases hactive
    rw [if_neg (by simp)]
    exact ⟨htaken c, fun hnone => Or.inl ⟨hnone, rfl⟩⟩
  | channel source =>
    cases source with
    | conn d revents =>
      rw [if_neg (by simp)]
      obtain ⟨q, _, rfl⟩ := Option.map_eq_some_iff.mp hactive
      by_cases halive : q.alive = true
      · rw [if_pos halive]
        exact ⟨.of_conns rfl fun _ hin => queue_setLoop hsub hin, fun hnone => Or.inl ⟨hnone, rfl⟩⟩
      · rw [if_neg halive] at hrunning
        cases hrunning
    | acceptor =>
      obtain rfl : L = mainLoop :=
        h.wiring.routing.active L (.channel .acceptor) (hchannels ▸ List.mem_cons_self)
      simp only [handleActive, acceptorHandleRead] at hactive
      split at hactive
      · cases fd with
        | none =>
          cases hactive
          rw [if_neg (by simp)]
          exact ⟨htaken c, fun hnone => Or.inl ⟨hnone, rfl⟩⟩
        | some fd =>
          simp only [Option.ite_none_right_eq_some, Option.some.injEq] at hactive
          obtain ⟨hfree, rfl⟩ := hactive
          have hinv : (s.setLoop mainLoop l).Inv := by
            refine ⟨h.wiring.setLoop hwf hsub fun b hb => h.wiring.routing.active mainLoop b
              (hchannels ▸ List.mem_cons_of_mem _ hb), fun d q hq => ?_⟩
            rw [view_popChannel hwaiting hchannels rfl]
            exact h.life d q hq
          obtain ⟨hothers, hjoins⟩ := hinv.newConnection_joins htodo hfree hrunning
          by_cases hc : c = s.accepted
          · subst hc
            refine ⟨fun r hr => ?_, fun _ => Or.inr ?_⟩
            · cases (conns_accepted h.wiring).symm.trans hr
            · simp only [Option.isSome_some, true_and]
              exact hjoins
          · rw [if_neg (by simp [hc])]
            refine ⟨(htaken c).others (hothers c hc), fun hnone => Or.inl ⟨?_, rfl⟩⟩
            refine Option.map_eq_none_iff.mp ((hothers c hc).trans ?_)
            exact Option.map_eq_none_iff.mpr hnone
      · cases hactive
        cases hrunning

/-- A functor or a task is one of a connection that is known. -/
theorem Inv.ran_unknown (h : s.Inv) (hnone : s.conns c = none) {act : ServerAct}
    (hact : ∀ L fd, act ≠ .handleEvent L fd) : s.ran c act = [] := by
  have hhome : ∀ L, s.home c ≠ some L := by simp [home, hnone]
  cases act with
  | handleEvent L fd => exact absurd rfl (hact L fd)
  | callFunctor L res =>
    have hfunctor : (s.loop L).functors.head?.bind (Functor.of c) = none := by
      rw [Option.bind_eq_none_iff]
      intro f hf
      cases f with
      | conn d f =>
        refine Functor.of_ne ?_ f
        rintro rfl
        exact hhome L (h.wiring.routing.functors L (.conn c f)
          (List.mem_append_left _ (List.mem_of_head? hf)))
      | removeConnectionInLoop d | user => rfl
    simp only [ran, hfunctor, Option.bind_none, Option.toList_none]
  | task L readRes res =>
    have htask : (s.todo L).head?.bind (Task.of c) = none := by
      rw [Option.bind_eq_none_iff]
      intro u hu
      cases u with
      | conn d u =>
        refine Task.of_ne ?_ u
        rintro rfl
        exact hhome L (h.wiring.routing.tasks L c u (List.mem_of_head? hu))
      | user => rfl
    simp only [ran, htask, Option.bind_none, Option.toList_none]
  | userCall who d request res =>
    simp only [ran, hnone]
    split <;> rfl
  | loopStep L a | userCopy who d | userDrop d | userQueue L b | quit L | destroy d
  | destroyServer order => rfl

theorem Wiring.unknown (h : s.Wiring) (ht : t.Wiring) (haccepted : t.accepted = s.accepted)
    (hnone : s.conns c = none) : t.conns c = none := by
  have hout : ¬ c < s.accepted := by
    rw [← h.roster.domain c]
    simp [place, hnone]
  have hplace : ¬ (t.place c).isSome = true := by
    rw [ht.roster.domain c, haccepted]
    exact hout
  simpa [place] using hplace

/-- A server that is alive was alive before. -/
theorem alive_of_step {act : ServerAct} (hstep : s.step act = some t)
    (halive : t.server.alive = true) : s.server.alive = true := by
  rcases step_server hstep with hsame | hsame | ⟨fd, hsame⟩
  · exact hsame.alive.symm.trans halive
  · cases hsame.alive.symm.trans halive
  · exact hsame.alive.symm.trans halive

/-- **A step seen from one connection**, as long as the server serves: it runs functions where
    they can be called, or the connection joins. -/
theorem Inv.step_went (h : s.Inv) (hended : s.HalfClosesEnded) {act : ServerAct}
    (hstep : s.step act = some t) (hrunning : t.aborted = none) (halive : t.server.alive = true)
    (c : ConnId) : Went s t c (s.ran c act) ∧ MayJoin s t c (s.ran c act) := by
  by_cases hevent : ∃ L fd, act = .handleEvent L fd
  · obtain ⟨L, fd, rfl⟩ := hevent
    exact h.handleEvent_went hstep hrunning c
  · have hother : ∀ L fd, act ≠ .handleEvent L fd := fun L fd heq => hevent ⟨L, fd, heq⟩
    have hserver := alive_of_step hstep halive
    have hwent : Went s t c (s.ran c act) ∧ t.accepted = s.accepted := by
      have hdoes := step_does hstep
      cases act with
      | handleEvent L fd => exact absurd rfl (hother L fd)
      | callFunctor L res =>
        refine ⟨h.callFunctor_went hserver hended hstep hrunning c, ?_⟩
        obtain ⟨_, f, rest, l, _, _, rfl⟩ := hdoes
        obtain ⟨_, _, hcosts⟩ := runFunctor_costs (s.setLoop L l) L res f
        exact hcosts.server.accepted
      | task L readRes res =>
        refine ⟨h.task_went hserver hstep hrunning c, ?_⟩
        obtain ⟨task, rest, _, rfl⟩ := hdoes
        obtain ⟨_, _, hcosts⟩ := runTask_costs (s.setTodo L rest) L readRes res task
        exact hcosts.server.accepted
      | userCall who d request res =>
        exact ⟨h.userCall_went hstep hrunning c, (userCall_costs hdoes.2).server.accepted⟩
      | loopStep L a =>
        obtain ⟨_, _, l, hl, rfl⟩ := hdoes
        obtain ⟨_, hpop⟩ := (h.wiring.loops L).advance hl
        refine ⟨.of_setLoop ?_ c, rfl⟩
        rw [hpop]
        exact List.subset_append_right _ _
      | userCopy who d =>
        obtain ⟨_, rfl⟩ := hdoes
        exact ⟨.of_conns rfl fun _ => id, rfl⟩
      | userDrop d =>
        obtain ⟨_, rfl⟩ := hdoes
        exact ⟨.of_conns rfl fun _ => id, rfl⟩
      | userQueue L isInLoopThread =>
        obtain rfl := hdoes
        refine ⟨.of_conns rfl fun r hin => ?_, rfl⟩
        rwa [view_queueUser] at hin
      | quit L =>
        obtain rfl := hdoes
        exact ⟨.of_setLoop (L := L) (l := { (s.loop L).wakeup with quit := true }) (fun _ => id) c,
          rfl⟩
      | destroy d =>
        refine ⟨?_, (destroy_costs hdoes).server.accepted⟩
        obtain ⟨q, hq, hdead⟩ := Option.bind_eq_some_iff.mp hdoes
        rw [Option.ite_none_right_eq_some] at hdead
        obtain ⟨_, hdead⟩ := hdead
        split at hdead
        · cases hdead
          by_cases hc : c = d
          · subst hc
            intro r hr
            obtain rfl := Option.some.inj (hr.symm.trans hq)
            exact ⟨_, conns_setConn .., .of_same rfl id, trivial⟩
          · exact .of_conns (conns_setConn_ne _ _ hc) fun _ => id
        · cases hdead
          cases hrunning
      | destroyServer order =>
        obtain ⟨_, rfl⟩ := hdoes
        cases (destroyServer_costs s order).server.alive.symm.trans halive
    refine ⟨hwent.1, fun hnone => Or.inl ⟨?_, h.ran_unknown hnone hother⟩⟩
    exact h.wiring.unknown ((h.sound hstep).inv hrunning).wiring hwent.2 hnone

/-- **`shutdown()` comes first**: a half-close stays behind the end of the output. -/
theorem HalfClosesEnded.step (hended : s.HalfClosesEnded) (h : s.Inv) {act : ServerAct}
    (hstep : s.step act = some t) (hrunning : t.aborted = none) (halive : t.server.alive = true) :
    t.HalfClosesEnded := by
  intro c r hr hin
  obtain ⟨hwent, hjoin⟩ := h.step_went hended hstep hrunning halive c
  cases hold : s.conns c with
  | some q =>
    obtain ⟨r', hr', hran, hcalled⟩ := hwent q hold
    cases hr.symm.trans hr'
    exact hran.outputEnded hcalled (hended c q hold) hin
  | none =>
    rcases hjoin hold with ⟨hnone, _⟩ | ⟨r', hr', hnot, _⟩
    · cases hr.symm.trans hnone
    · cases hr.symm.trans hr'
      exact absurd hin hnot

/-- Nothing but `connectEstablished` runs where a connection joins. -/
theorem Inv.ran_joining (h : s.Inv) (hnone : s.conns c = none) (act : ServerAct) :
    s.ran c act = [] ∨ s.ran c act = [.connectEstablished] := by
  by_cases hevent : ∃ L fd, act = .handleEvent L fd
  · obtain ⟨L, fd, rfl⟩ := hevent
    simp only [ran]
    split
    · exact Or.inr rfl
    · exact Or.inl rfl
  · exact Or.inl (h.ran_unknown hnone fun L fd heq => hevent ⟨L, fd, heq⟩)

/-- **The user takes from `inputBuffer_`** in a callback, which changes nothing else. -/
theorem Inv.inputBuffer (h : s.Inv) (hended : s.HalfClosesEnded)
    (hargument : s.userArgument L = some (some c)) (hr : s.conns c = some r)
    (inputBuffer : WfBuffer) :
    (s.setConn c { r with conn := { r.conn with inputBuffer } }).Inv
      ∧ (s.setConn c { r with conn := { r.conn with inputBuffer } }).HalfClosesEnded := by
  have htask := userArgument_eq_some hargument
  obtain ⟨q, hq, rfl⟩ := Option.map_eq_some_iff.mp (h.wiring.routing.tasks L c .user htask)
  obtain rfl := Option.some.inj (hq.symm.trans hr)
  have hwork : (s.view c q).tasks ≠ [] :=
    List.ne_nil_of_mem (List.mem_filterMap.mpr ⟨_, htask, Task.of_self c .user⟩)
  have hlife := h.life c q hr
  have hfile : q.SameFile { q with conn := { q.conn with inputBuffer } } := ⟨rfl, rfl, rfl⟩
  have hacts := Acts.setConn h.wiring hr hfile rfl rfl
  refine ⟨hacts.inv (hlife.quiet ?_ (hlife.not_connecting hwork)) fun d _ => h.life d, ?_⟩
  · exact ⟨rfl, rfl, ⟨[], (List.append_nil _).symm, by simp⟩, fun hindex hreading =>
      ⟨hindex, hreading⟩, fun _ _ => ⟨rfl, rfl⟩⟩
  · intro d p hp hin
    by_cases hd : d = c
    · subst hd
      cases (conns_setConn ..).symm.trans hp
      exact hended d q hr hin
    · rw [conns_setConn_ne _ _ hd] at hp
      exact hended d p hp hin

end ServerSystem

/-! ### The server with its sockets -/

/-- What the kernel and the user have of a connection. -/
structure ConnEnds where
  sent : List Byte := []
  fin : Bool := false
  taken : List Byte := []
deriving DecidableEq, Repr

def ConnStream.ends (s : ConnStream) : ConnEnds := ⟨s.sent, s.fin, s.taken⟩

structure ServerStream where
  sys : ServerSystem
  ends : ConnId → ConnEnds

/-- `retrieve`: in a callback on `L`, the user retrieves `len` bytes from the buffer of the
    connection. -/
inductive ServerStreamAct where
  | server (act : ServerAct)
  | retrieve (L : LoopId) (c : ConnId) (len : Nat)
deriving DecidableEq, Repr

namespace ServerStream

def start (server : TcpServer) : ServerStream := { sys := .start server, ends := fun _ => {} }

def stream (w : ServerStream) (c : ConnId) (r : ConnRecord) : ConnStream where
  conn := r.conn
  sent := (w.ends c).sent
  fin := (w.ends c).fin
  taken := (w.ends c).taken

/-- The kernel can answer the system calls of the step so. -/
def Answered (w : ServerStream) (act : ServerAct) : Prop :=
  ∀ c < w.sys.accepted, ∀ r ∈ w.sys.conns c, (w.stream c r).Answered (w.sys.ran c act)

instance (w : ServerStream) (act : ServerAct) : Decidable (w.Answered act) :=
  inferInstanceAs (Decidable (∀ c < w.sys.accepted, ∀ r ∈ w.sys.conns c, _))

/-- What the functions that the step runs have left at the ends. -/
def endsAfter (w : ServerStream) (act : ServerAct) (c : ConnId) : ConnEnds :=
  match w.sys.conns c with
  | some r => ((w.stream c r).execAll (w.sys.ran c act)).ends
  | none => w.ends c

def step (w : ServerStream) : ServerStreamAct → Option ServerStream
  | .server act =>
    if w.Answered act then (w.sys.step act).map fun sys => { sys, ends := w.endsAfter act }
    else none
  | .retrieve L c len =>
    if w.sys.aborted = none ∧ w.sys.userArgument L = some (some c) then
      (w.sys.conns c).map fun r =>
        let retrieved := (w.stream c r).retrieve len
        { sys := w.sys.setConn c { r with conn := retrieved.conn }
          ends := Function.update w.ends c retrieved.ends }
    else none

/-- The server has not been destroyed, and the process goes on. -/
def Serves (w : ServerStream) : Prop := w.sys.aborted = none ∧ w.sys.server.alive = true

instance (w : ServerStream) : Decidable w.Serves := inferInstanceAs (Decidable (_ ∧ _))

/-! ### One connection of it -/

/-- The steps of the connection that a step of the server is. -/
def part (w : ServerStream) (c : ConnId) : ServerStreamAct → List ConnStreamAct
  | .server act => (w.sys.ran c act).map .op
  | .retrieve _ d len => if d = c then [.retrieve len] else []

/-- A connection that joins has run nothing but `connectEstablished`. -/
def label (c : ConnId) (w : ServerStream) (a : ServerStreamAct) : List (DuplexAct Byte) :=
  match w.sys.conns c with
  | some r => Runs.outputs (ConnStream.step id) (ConnStream.label id) (w.stream c r) (w.part c a)
  | none => (w.part c a).map fun _ => .establish

/-- What is seen of the connection. -/
def seen (c : ConnId) (w : ServerStream) (a : ServerStreamAct) : List (Seen Byte) :=
  match w.sys.conns c with
  | some r => Runs.outputs (ConnStream.step id) (ConnStream.seen id) (w.stream c r) (w.part c a)
  | none => (w.part c a).map fun _ => .up

variable {w w' : ServerStream} {c : ConnId} {d : Duplex Byte}

/-- The stream of a connection that is still to join is fresh. -/
def duplex (w : ServerStream) (c : ConnId) : Duplex Byte :=
  match w.sys.conns c with
  | some r => (w.stream c r).duplex
  | none => .start

structure Inv (w : ServerStream) : Prop where
  sys : w.sys.Inv
  ended : w.sys.HalfClosesEnded
  streams : ∀ c r, w.sys.conns c = some r → (w.stream c r).Inv
  fresh : ∀ c, w.sys.conns c = none → w.ends c = {}

/-- The connection is there, and `t` but for the index. -/
def Shows (w : ServerStream) (c : ConnId) (t : ConnStream) : Prop :=
  ∃ r index, w.sys.conns c = some r ∧ w.stream c r = { t with conn := t.conn.setIndex index }

/-- What `c` has gone through from `w` to `w'`: the steps of its stream, or it joins. -/
structure Moves (w w' : ServerStream) (c : ConnId) (acts : List ConnStreamAct) : Prop where
  known : ∀ r, w.sys.conns c = some r →
    ∃ t, Runs.run (ConnStream.step id) (w.stream c r) acts = some t ∧ w'.Shows c t
  unknown : w.sys.conns c = none →
    w'.sys.conns c = none ∧ acts = [] ∧ w'.ends c = w.ends c
      ∨ (acts = [] ∨ acts = [.op .connectEstablished]) ∧
        ∃ loop name sockfd writeCompleteCallback t,
          Runs.run (ConnStream.step id) (.start (.new loop name sockfd writeCompleteCallback
            false TcpConnection.defaultHighWaterMark)) acts = some t ∧ w'.Shows c t

theorem Shows.refines {t : ConnStream} (hshows : w.Shows c t) (ht : t.Refines d) :
    w.duplex c = d ∧ ∀ r, w.sys.conns c = some r → (w.stream c r).Inv := by
  obtain ⟨r, index, hr, hstream⟩ := hshows
  obtain ⟨hinv, hd⟩ := ht.setIndex index
  rw [← hstream] at hinv hd
  refine ⟨?_, fun q hq => ?_⟩
  · simp only [duplex, hr]
    exact hd.symm
  · cases hr.symm.trans hq
    exact hinv

/-- **The stream answers** what its connection goes through. -/
theorem Inv.answer (h : w.Inv) {a : ServerStreamAct} (hmoves : w.Moves w' c (w.part c a)) :
    (Runs.run Duplex.step (w.duplex c) (label c w a) = some (w'.duplex c)
      ∧ Runs.outputs Duplex.step Duplex.observe (w.duplex c) (label c w a) = seen c w a)
    ∧ (∀ r, w'.sys.conns c = some r → (w'.stream c r).Inv)
    ∧ (w'.sys.conns c = none → w'.ends c = {}) := by
  cases hr : w.sys.conns c with
  | some r =>
    obtain ⟨t, hrun, hshows⟩ := hmoves.known r hr
    obtain ⟨d, hlabels, htrace, ht⟩ :=
      (ConnStream.refines_duplex id).trace ⟨h.streams c r hr, rfl⟩ hrun
    obtain ⟨rfl, hinv⟩ := hshows.refines ht
    simp only [duplex, label, seen, hr] at hlabels htrace ⊢
    refine ⟨⟨hlabels, htrace⟩, hinv, fun hnone => ?_⟩
    obtain ⟨r', _, hr', _⟩ := hshows
    cases hr'.symm.trans hnone
  | none =>
    have hduplex : w.duplex c = .start := by simp only [duplex, hr]
    rw [hduplex]
    simp only [label, seen, hr]
    rcases hmoves.unknown hr with ⟨hnone, hacts, hends⟩ | ⟨hacts, loop, name, sockfd,
      writeCompleteCallback, t, hrun, hshows⟩
    · rw [hacts]
      refine ⟨⟨?_, rfl⟩, fun r' hr' => ?_, fun _ => hends.trans (h.fresh c hr)⟩
      · simp only [duplex, hnone]
        rfl
      · cases hr'.symm.trans hnone
    · obtain ⟨d, hlabels, htrace, ht⟩ := (ConnStream.refines_duplex id).trace
        (ConnStream.start_refines loop name sockfd writeCompleteCallback false _) hrun
      obtain ⟨rfl, hinv⟩ := hshows.refines ht
      have hjoined : w'.sys.conns c ≠ none := by
        obtain ⟨r', _, hr', _⟩ := hshows
        simp [hr']
      refine ⟨?_, hinv, fun hnone => absurd hnone hjoined⟩
      rcases hacts with hacts | hacts
      · rw [hacts] at hlabels htrace ⊢
        exact ⟨hlabels, htrace⟩
      · rw [hacts] at hlabels htrace ⊢
        exact ⟨hlabels, htrace⟩

theorem Shows.of_conns {t : ServerSystem} {ends : ConnId → ConnEnds} {r : ConnRecord}
    {u : ConnStream} (index : ChannelIndex) (hr : t.conns c = some r)
    (hconn : r.conn = u.conn.setIndex index) (hends : ends c = u.ends) :
    Shows ⟨t, ends⟩ c u := by
  refine ⟨r, index, hr, ?_⟩
  simp only [stream, hconn, hends, ConnStream.ends]

/-- **What a step of the server is to each connection.** -/
theorem Inv.server_moves (h : w.Inv) {act : ServerAct} {t : ServerSystem}
    (hanswered : w.Answered act) (hstep : w.sys.step act = some t) (hrunning : t.aborted = none)
    (halive : t.server.alive = true) (c : ConnId) :
    Moves w ⟨t, w.endsAfter act⟩ c (w.part c (.server act)) := by
  obtain ⟨hwent, hjoin⟩ := h.sys.step_went h.ended hstep hrunning halive c
  constructor
  · intro r hr
    obtain ⟨r', hr', ⟨⟨index, hconn⟩, _⟩, hcalled⟩ := hwent r hr
    have hknown : c < w.sys.accepted :=
      (h.sys.wiring.roster.domain c).mp (by simp [ServerSystem.place, hr])
    refine ⟨_, ConnStream.run_execAll (hanswered c hknown r hr) hcalled,
      .of_conns index hr' ?_ ?_⟩
    · rw [ConnStream.conn_execAll]
      exact hconn
    · simp only [endsAfter, hr]
  · intro hnone
    rcases hjoin hnone with ⟨hnone', hran⟩ | ⟨r', hr', _, loop, name, sockfd,
      writeCompleteCallback, index, hconn⟩
    · left
      refine ⟨hnone', ?_, ?_⟩
      · rw [part, hran, List.map_nil]
      · simp only [endsAfter, hnone]
    · right
      have hends : w.endsAfter act c = {} := by
        simp only [endsAfter, hnone]
        exact h.fresh c hnone
      rcases h.sys.ran_joining hnone act with hran | hran
      · rw [hran] at hconn
        refine ⟨Or.inl (congrArg _ hran), loop, name, sockfd, writeCompleteCallback, ?_⟩
        simp only [part, hran]
        exact ⟨_, rfl, .of_conns index hr' hconn hends⟩
      · rw [hran] at hconn
        refine ⟨Or.inr (congrArg _ hran), loop, name, sockfd, writeCompleteCallback, ?_⟩
        simp only [part, hran]
        exact ⟨_, rfl, .of_conns index hr' hconn hends⟩

/-- **What a `retrieve` is to each connection.** -/
theorem retrieve_moves {L : LoopId} {d : ConnId} {r : ConnRecord} (hr : w.sys.conns d = some r)
    (len : Nat) (c : ConnId) :
    Moves w ⟨w.sys.setConn d { r with conn := ((w.stream d r).retrieve len).conn },
      Function.update w.ends d ((w.stream d r).retrieve len).ends⟩ c
        (w.part c (.retrieve L d len)) := by
  by_cases hd : d = c
  · subst hd
    simp only [part, if_true]
    constructor
    · intro q hq
      obtain rfl := Option.some.inj (hr.symm.trans hq)
      exact ⟨_, rfl, .of_conns r.conn.channel.index (ServerSystem.conns_setConn ..) rfl
        (Function.update_self ..)⟩
    · intro hnone
      cases hr.symm.trans hnone
  · have hconns := ServerSystem.conns_setConn_ne w.sys
      { r with conn := ((w.stream d r).retrieve len).conn } (Ne.symm hd)
    have hends : Function.update w.ends d ((w.stream d r).retrieve len).ends c = w.ends c :=
      Function.update_of_ne (Ne.symm hd) ..
    simp only [part, if_neg hd]
    constructor
    · intro q hq
      exact ⟨_, rfl, .of_conns q.conn.channel.index (hconns.trans hq) rfl hends⟩
    · intro hnone
      exact Or.inl ⟨hconns.trans hnone, rfl, hends⟩

theorem step_server_eq_some {act : ServerAct} (hstep : w.step (.server act) = some w') :
    w.Answered act ∧ ∃ t, w.sys.step act = some t ∧ w' = ⟨t, w.endsAfter act⟩ := by
  simp only [step, Option.ite_none_right_eq_some] at hstep
  obtain ⟨hanswered, hstep⟩ := hstep
  obtain ⟨t, ht, rfl⟩ := Option.map_eq_some_iff.mp hstep
  exact ⟨hanswered, t, ht, rfl⟩

theorem step_retrieve_eq_some {L : LoopId} {len : Nat}
    (hstep : w.step (.retrieve L c len) = some w') :
    (w.sys.aborted = none ∧ w.sys.userArgument L = some (some c)) ∧ ∃ r, w.sys.conns c = some r
      ∧ w' = ⟨w.sys.setConn c { r with conn := ((w.stream c r).retrieve len).conn },
        Function.update w.ends c ((w.stream c r).retrieve len).ends⟩ := by
  simp only [step, Option.ite_none_right_eq_some] at hstep
  obtain ⟨hcan, hstep⟩ := hstep
  obtain ⟨r, hr, rfl⟩ := Option.map_eq_some_iff.mp hstep
  exact ⟨hcan, r, hr, rfl⟩

/-- **What a step is to each connection**, as long as the server serves. -/
theorem Inv.step_moves (h : w.Inv) {a : ServerStreamAct} (hstep : w.step a = some w')
    (hserves : w'.Serves) :
    (w'.sys.Inv ∧ w'.sys.HalfClosesEnded) ∧ ∀ c, w.Moves w' c (w.part c a) := by
  obtain ⟨hrunning, halive⟩ := hserves
  cases a with
  | server act =>
    obtain ⟨hanswered, t, ht, rfl⟩ := step_server_eq_some hstep
    exact ⟨⟨(h.sys.sound ht).inv hrunning, h.ended.step h.sys ht hrunning halive⟩,
      h.server_moves hanswered ht hrunning halive⟩
  | retrieve L d len =>
    obtain ⟨⟨_, hargument⟩, r, hr, rfl⟩ := step_retrieve_eq_some hstep
    exact ⟨h.sys.inputBuffer h.ended hargument hr _, retrieve_moves hr len⟩

theorem Inv.step (h : w.Inv) {a : ServerStreamAct} (hstep : w.step a = some w')
    (hserves : w'.Serves) : w'.Inv := by
  obtain ⟨⟨hsys, hended⟩, hmoves⟩ := h.step_moves hstep hserves
  exact ⟨hsys, hended, fun c => (h.answer (hmoves c)).2.1, fun c => (h.answer (hmoves c)).2.2⟩

/-- **Seen from each of its connections, a server that serves is a stream.** -/
theorem refines_duplex (c : ConnId) :
    Runs.Simulation (Runs.guarded Serves step) Duplex.step (label c) (seen c) Duplex.observe
      fun w d => w.Inv ∧ d = w.duplex c := by
  constructor
  rintro w w' a _ ⟨hinv, rfl⟩ hguarded
  obtain ⟨hstep, hserves⟩ := Runs.guarded_eq_some.mp hguarded
  obtain ⟨_, hmoves⟩ := hinv.step_moves hstep hserves
  obtain ⟨hrun, hseen⟩ := (hinv.answer (hmoves c)).1
  exact ⟨_, hrun, hseen, hinv.step hstep hserves, rfl⟩

/-- The messages that `::readv` delivers in a step. -/
def delivered (c : ConnId) (w : ServerStream) (a : ServerStreamAct) : List (List Byte) :=
  (w.part c a).flatMap ConnStream.received

/-- What `sendInLoop` takes over in a step. -/
def takesOver (c : ConnId) (w : ServerStream) (a : ServerStreamAct) : List Byte :=
  match w.sys.conns c with
  | some r =>
    Runs.outputs (ConnStream.step id) (ConnStream.takesOver id) (w.stream c r) (w.part c a)
  | none => []

theorem Moves.labels {a : ServerStreamAct} (hmoves : w.Moves w' c (w.part c a)) :
    (label c w a).flatMap Duplex.arrived = delivered c w a
      ∧ (label c w a).flatMap Duplex.given = takesOver c w a := by
  cases hr : w.sys.conns c with
  | some r =>
    obtain ⟨t, hrun, _⟩ := hmoves.known r hr
    simp only [label, delivered, takesOver, hr]
    refine ⟨?_, ?_⟩
    · exact Runs.flatMap_outputs (fun s a _ _ => ConnStream.arrived_label id s a) hrun
    · exact Runs.flatMap_outputs_of (I := fun _ => True) (fun _ _ _ _ _ => trivial)
        (fun s a _ _ _ => ConnStream.given_label id s a) trivial hrun
  | none =>
    simp only [label, delivered, takesOver, hr]
    rcases hmoves.unknown hr with ⟨_, hacts, _⟩ | ⟨hacts | hacts, _⟩ <;>
      simp [hacts, Duplex.arrived, Duplex.given, ConnStream.received]

/-! ### Runs -/

/-- A server that serves has served before. -/
theorem serves_back {a : ServerStreamAct} (hstep : w.step a = some w') (hserves : w'.Serves) :
    w.Serves := by
  cases a with
  | server act =>
    obtain ⟨_, t, ht, rfl⟩ := step_server_eq_some hstep
    exact ⟨ServerSystem.running_of_step ht, ServerSystem.alive_of_step ht hserves.2⟩
  | retrieve L d len =>
    obtain ⟨⟨hrunning, _⟩, r, _, rfl⟩ := step_retrieve_eq_some hstep
    exact ⟨hrunning, hserves.2⟩

section Run

variable {name : Name} {listenAddr : InetAddress} {writeCompleteCallback : Bool}
  {loops : List LoopId} {acts : List ServerStreamAct}

theorem Inv.initial : (start (.new name listenAddr writeCompleteCallback loops)).Inv where
  sys := .initial
  ended := by
    intro c r hr
    cases hr
  streams := by
    intro c r hr
    cases hr
  fresh := fun _ _ => rfl

/-- No `assert` fails in a server that is not destroyed. -/
theorem serves_of_run
    (hrun : Runs.run step (start (.new name listenAddr writeCompleteCallback loops)) acts = some w)
    (halive : w.sys.server.alive = true) (hfew : w.sys.accepted < 2 ^ 31) : w.Serves := by
  have hsafe : (w.Serves → w.Inv)
      ∧ (w.sys.server.alive = true → w.sys.accepted < 2 ^ 31 → w.sys.aborted = none) := by
    refine Runs.run_induction (I := fun u => (u.Serves → u.Inv)
        ∧ (u.sys.server.alive = true → u.sys.accepted < 2 ^ 31 → u.sys.aborted = none))
      (fun u a v hu hstep => ?_) ⟨fun _ => .initial, fun _ _ => rfl⟩ hrun
    refine ⟨fun hserves => (hu.1 (serves_back hstep hserves)).step hstep hserves, ?_⟩
    intro halive hfew
    cases a with
    | server act =>
      obtain ⟨_, t, ht, rfl⟩ := step_server_eq_some hstep
      have hinv := hu.1 ⟨ServerSystem.running_of_step ht, ServerSystem.alive_of_step ht halive⟩
      exact (hinv.sys.sound ht).safe halive hfew
    | retrieve L d len =>
      obtain ⟨⟨hrunning, _⟩, r, _, rfl⟩ := step_retrieve_eq_some hstep
      exact hrunning
  exact ⟨hsafe.2 halive hfew, halive⟩

/-- **Seen from one of its connections, a run of the server is a run of a stream**: with the
    same trace, whatever the other loops, threads and connections do. -/
theorem connection_is_stream
    (hrun : Runs.run step (start (.new name listenAddr writeCompleteCallback loops)) acts = some w)
    (halive : w.sys.server.alive = true) (hfew : w.sys.accepted < 2 ^ 31) (c : ConnId) :
    ∃ labels, Runs.run Duplex.step Duplex.start labels = some (w.duplex c)
      ∧ Runs.outputs Duplex.step Duplex.observe Duplex.start labels
        = Runs.outputs step (seen c) (start (.new name listenAddr writeCompleteCallback loops))
          acts := by
  have hserves := serves_of_run hrun halive hfew
  obtain ⟨_, hguarded, houtputs⟩ := Runs.run_guarded (seen c)
    (fun _ _ _ hstep => serves_back hstep) hrun hserves
  obtain ⟨_, hlabels, htrace, _, rfl⟩ := (refines_duplex c).trace ⟨.initial, rfl⟩ hguarded
  exact ⟨_, hlabels, htrace.trans houtputs⟩

/-- Two connections, each on its loop, get a message.  The user retrieves a part of one and
    answers; another thread calls `shutdown` while a part of the answer waits. -/
def twoConnections : List ServerStreamAct :=
  ([.loopStep 0 .enter, .loopStep 0 .resetQuit, .loopStep 1 .enter, .loopStep 1 .resetQuit,
    .loopStep 2 .enter, .loopStep 2 .resetQuit,
    .loopStep 0 .test, .loopStep 0 (.poll [.channel .acceptor]), .handleEvent 0 (some 5),
    .loopStep 0 .beginPending, .loopStep 0 .swap, .loopStep 0 .endPending,
    .loopStep 0 .test, .loopStep 0 (.poll [.channel .acceptor]), .handleEvent 0 (some 6),
    .loopStep 1 .test, .loopStep 1 (.poll [.wakeupChannel]), .handleEvent 1 none,
    .loopStep 1 .beginPending, .loopStep 1 .swap, .callFunctor 1 (.ok 0),
    .loopStep 2 .test, .loopStep 2 (.poll [.wakeupChannel]), .handleEvent 2 none,
    .loopStep 2 .beginPending, .loopStep 2 .swap, .callFunctor 2 (.ok 0),
    .task 1 (.ok []) (.ok 0), .userCopy (.loop 1) 0, .task 1 (.ok []) (.ok 0),
    .task 2 (.ok []) (.ok 0), .task 2 (.ok []) (.ok 0),
    .loopStep 1 .endPending, .loopStep 2 .endPending,
    -- the messages
    .loopStep 1 .test, .loopStep 1 (.poll [.channel (.conn 0 { epollIn := true })]),
    .handleEvent 1 none,
    .loopStep 2 .test, .loopStep 2 (.poll [.channel (.conn 1 { epollIn := true })]),
    .handleEvent 2 none, .task 2 (.ok [9]) (.ok 0), .task 1 (.ok [1, 2, 3]) (.ok 0),
    .task 1 (.ok []) (.ok 0)] : List ServerAct).map .server
  ++ [.retrieve 1 0 2]
  -- the answer, and the rest of it behind `shutdown`
  ++ ([.userCall (.loop 1) 0 (.send [4, 5]) (.ok 1), .userCall .other 0 .shutdown (.ok 0),
    .task 1 (.ok []) (.ok 0), .loopStep 1 .beginPending, .loopStep 1 .swap,
    .callFunctor 1 (.ok 0), .loopStep 1 .endPending, .loopStep 1 .test,
    .loopStep 1 (.poll [.wakeupChannel, .channel (.conn 0 { epollOut := true })]),
    .handleEvent 1 none, .handleEvent 1 none, .task 2 (.ok []) (.ok 0),
    .task 1 (.ok []) (.ok 1)] : List ServerAct).map .server

theorem connection_is_stream_twoConnections :
    ∃ w labels, Runs.run step (start (.new ['s'] ⟨(127, 0, 0, 1), 80⟩ true [1, 2])) twoConnections
        = some w
      ∧ Runs.run Duplex.step Duplex.start labels = some (w.duplex 0)
      ∧ Runs.outputs Duplex.step Duplex.observe Duplex.start labels
        = Runs.outputs step (seen 0) (start (.new ['s'] ⟨(127, 0, 0, 1), 80⟩ true [1, 2]))
          twoConnections := by
  obtain ⟨w, hw, hlive⟩ := (Option.any_eq_true _ _).mp (by decide +kernel :
    (Runs.run step (start (.new ['s'] ⟨(127, 0, 0, 1), 80⟩ true [1, 2])) twoConnections).any
      (fun w => w.sys.server.alive && decide (w.sys.accepted < 2 ^ 31)) = true)
  rw [Bool.and_eq_true, decide_eq_true_iff] at hlive
  obtain ⟨labels, hlabels⟩ := connection_is_stream hw hlive.1 hlive.2 0
  exact ⟨w, labels, hw, hlabels⟩

/-- **What the two sides see of a connection of the server.**  What `::readv` delivered for it
    has been retrieved or is readable, in order, and what `sendInLoop` took over for it has been
    written or waits, in order.  Its peer sees the bytes that the kernel took and at most one
    end, behind them.  The user is told UP once, of each message once, and DOWN once. -/
theorem connection_seen
    (hrun : Runs.run step (start (.new name listenAddr writeCompleteCallback loops)) acts = some w)
    (halive : w.sys.server.alive = true) (hfew : w.sys.accepted < 2 ^ 31) (c : ConnId)
    (r : ConnRecord) (hr : w.sys.conns c = some r) :
    (w.ends c).taken ++ r.conn.inputBuffer.contents
        = (Runs.outputs step (delivered c)
            (start (.new name listenAddr writeCompleteCallback loops)) acts).flatten
      ∧ (w.ends c).sent ++ r.conn.outputBuffer.contents
        = Runs.outputs step (takesOver c)
            (start (.new name listenAddr writeCompleteCallback loops)) acts
      ∧ (Runs.outputs step (seen c) (start (.new name listenAddr writeCompleteCallback loops))
          acts).filterMap Seen.wire
        = (w.ends c).sent.map some ++ (if (w.ends c).fin then [none] else [])
      ∧ (Runs.outputs step (seen c) (start (.new name listenAddr writeCompleteCallback loops))
          acts).filterMap Seen.note
        = Duplex.notes (Runs.outputs step (delivered c)
            (start (.new name listenAddr writeCompleteCallback loops)) acts).length
          (ConnStream.phase r.conn.state) := by
  have hserves := serves_of_run hrun halive hfew
  have hback : ∀ u a v, step u a = some v → v.Serves → u.Serves := fun _ _ _ hstep =>
    serves_back hstep
  obtain ⟨_, hguarded, hseen⟩ := Runs.run_guarded (seen c) hback hrun hserves
  obtain ⟨_, _, hdelivered⟩ := Runs.run_guarded (delivered c) hback hrun hserves
  obtain ⟨_, _, htakes⟩ := Runs.run_guarded (takesOver c) hback hrun hserves
  obtain ⟨_, hlabels, htrace, _, rfl⟩ := (refines_duplex c).trace ⟨.initial, rfl⟩ hguarded
  -- what the labels say is what the steps of the server did
  have hkeep : ∀ u a v, Inv u → Runs.guarded Serves step u a = some v → Inv v := by
    intro u a v hu hstep
    obtain ⟨hstep, hserves⟩ := Runs.guarded_eq_some.mp hstep
    exact hu.step hstep hserves
  have hmoves : ∀ u a v, Inv u → Runs.guarded Serves step u a = some v →
      Moves u v c (u.part c a) := by
    intro u a v hu hstep
    obtain ⟨hstep, hserves⟩ := Runs.guarded_eq_some.mp hstep
    exact (hu.step_moves hstep hserves).2 c
  have harrived := Runs.flatMap_outputs_of hkeep
    (fun u a v hu hstep => (hmoves u a v hu hstep).labels.1) .initial hguarded
  have hgiven := Runs.flatMap_outputs_of hkeep
    (fun u a v hu hstep => (hmoves u a v hu hstep).labels.2) .initial hguarded
  rw [hdelivered] at harrived
  rw [htakes] at hgiven
  rw [hseen] at htrace
  have hduplex : w.duplex c = (w.stream c r).duplex := by simp only [duplex, hr]
  have hinbox := Duplex.run_inbox hlabels
  have houtbox := Duplex.run_outbox hlabels
  have hwire := Duplex.run_wire hlabels
  have hnotes := Duplex.run_notes (n := 0) (fun _ => rfl) hlabels
  rw [harrived, hduplex] at hinbox
  rw [hgiven, hduplex] at houtbox
  rw [htrace, hduplex] at hwire
  rw [htrace, harrived, hduplex, Nat.zero_add] at hnotes
  exact ⟨hinbox, houtbox, hwire.symm, hnotes.symm⟩

theorem connection_seen_twoConnections :
    ∃ w r, Runs.run step (start (.new ['s'] ⟨(127, 0, 0, 1), 80⟩ true [1, 2])) twoConnections
        = some w
      ∧ w.sys.conns 0 = some r
      ∧ (w.ends 0).taken ++ r.conn.inputBuffer.contents
        = (Runs.outputs step (delivered 0) (start (.new ['s'] ⟨(127, 0, 0, 1), 80⟩ true [1, 2]))
            twoConnections).flatten
      ∧ (w.ends 0).sent ++ r.conn.outputBuffer.contents
        = Runs.outputs step (takesOver 0) (start (.new ['s'] ⟨(127, 0, 0, 1), 80⟩ true [1, 2]))
            twoConnections
      ∧ (Runs.outputs step (seen 0) (start (.new ['s'] ⟨(127, 0, 0, 1), 80⟩ true [1, 2]))
          twoConnections).filterMap Seen.wire
        = (w.ends 0).sent.map some ++ (if (w.ends 0).fin then [none] else [])
      ∧ (Runs.outputs step (seen 0) (start (.new ['s'] ⟨(127, 0, 0, 1), 80⟩ true [1, 2]))
          twoConnections).filterMap Seen.note
        = Duplex.notes (Runs.outputs step (delivered 0)
            (start (.new ['s'] ⟨(127, 0, 0, 1), 80⟩ true [1, 2])) twoConnections).length
          (ConnStream.phase r.conn.state) := by
  obtain ⟨w, hw, hlive⟩ := (Option.any_eq_true _ _).mp (by decide +kernel :
    (Runs.run step (start (.new ['s'] ⟨(127, 0, 0, 1), 80⟩ true [1, 2])) twoConnections).any
      (fun w => w.sys.server.alive && decide (w.sys.accepted < 2 ^ 31)
        && (w.sys.conns 0).isSome) = true)
  simp only [Bool.and_eq_true, decide_eq_true_iff] at hlive
  obtain ⟨⟨halive, hfew⟩, hknown⟩ := hlive
  obtain ⟨r, hr⟩ := Option.isSome_iff_exists.mp hknown
  exact ⟨w, r, hw, hr, connection_seen hw halive hfew 0 r hr⟩

end Run

end ServerStream

end Ymuduo
