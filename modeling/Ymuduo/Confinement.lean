/-
  Ymuduo/Confinement.lean
  =======================
  **Which thread runs what.**

  One loop per thread: `isInLoopThread` of a loop holds on its own thread only.  Here each
  function is given the thread that calls it, and `runInLoop` decides by it: what runs at
  once goes on in `todo` of the caller, whichever thread that is.  In `send` and `shutdown`
  the test of `state_`, the store of `kDisconnecting` and `runInLoop` are steps of their own.
  Every access to a poller, to a connection, to a callback and to the data of the server is
  logged with its thread; what the constructor of an `EventLoop` or of the server does is not,
  since the thread that runs it is the loop's by definition.

  Objects that are destroyed are not called any more, so lifetimes play no part; and a thread
  that runs the user's code may have a pointer to any connection.
-/
import Ymuduo.PollerBook
import Ymuduo.ServerView

namespace Ymuduo

/-- A thread: that of a loop, or one of the user's. -/
inductive Thread where
  | loop (L : LoopId)
  | user (n : Nat)
deriving DecidableEq, Repr

/-- `EventLoop::isInLoopThread` -/
def Thread.isInLoopThread (T : Thread) (L : LoopId) : Bool := T = .loop L

/-- A functor; `listen` is the one of `TcpServer::start`. -/
inductive Job where
  | functor (f : Functor)
  | listen
deriving DecidableEq, Repr

/-- What is left of a `send` or `shutdown` that has found `kConnected`. -/
inductive PendingCall where
  | setState (c : ConnId)
  | runInLoop (c : ConnId) (f : ConnFunctor)
deriving DecidableEq, Repr

def Request.afterTest (c : ConnId) : Request → PendingCall
  | .send buf => .runInLoop c (.sendInLoop buf)
  | .shutdown => .setState c

/-- `channel`: of a connection, or of the acceptor.  `server`: `connections_` and
    `nextConnId_`. -/
inductive Access where
  | updateChannel (channel : Option ConnId) (L : LoopId)
  | removeChannel (channel : Option ConnId) (L : LoopId)
  | run (c : ConnId) (op : ConnOp)
  | callback (c : ConnId)
  | server
deriving DecidableEq, Repr

/-- `pool` are the loops that `threadPool_->start` will start. -/
structure ThreadSystem where
  loop : LoopId → EventLoop Source Job
  todo : Thread → List Task
  call : Thread → Option PendingCall
  poller : LoopId → EPollPoller ConnId
  server : TcpServer
  pool : List LoopId
  started : Nat
  listening : Bool
  conns : ConnId → Option TcpConnection
  accepted : Nat
  log : List (Thread × Access)
  aborted : Option Fault

inductive ThreadAct where
  | loopStep (L : LoopId) (a : LoopStep Source)
  | handleEvent (L : LoopId) (fd : Option Fd)
  | callFunctor (L : LoopId) (res : SysResult)
  | task (T : Thread) (readRes : ReadvResult) (res : SysResult)
  | start (T : Thread)
  | userCall (T : Thread) (c : ConnId) (request : Request)
  | proceed (T : Thread) (res : SysResult)
  | userQueue (T : Thread) (L : LoopId)
  | quit (T : Thread) (L : LoopId)
  | destroyServer (order : List ConnId)
deriving DecidableEq, Repr

/-! ### What an update leaves in the kernel -/

namespace EPollPoller

variable {κ : Type}

theorem update_interest {p p' : EPollPoller κ} {op : EpollOp} {channel k : κ} {ch : Channel}
    {fd : Fd} {events : EpollEvents} (h : p.update op channel ch = .ok p')
    (hin : p'.interest fd = some (events, k)) :
    p.interest fd = some (events, k) ∨ k = channel := by
  have hset : ∀ {event : Option (EpollEvents × κ)}, (∀ e ∈ event, e.2 = channel) →
      Function.update p.interest ch.fd event fd = some (events, k) →
        p.interest fd = some (events, k) ∨ k = channel := by
    intro event hevent hupdate
    by_cases hfd : fd = ch.fd
    · subst hfd
      rw [Function.update_self] at hupdate
      exact Or.inr (hevent _ hupdate)
    · rw [Function.update_of_ne hfd] at hupdate
      exact Or.inl hupdate
  unfold update epollCtl at h
  split at h
  · rename_i q hq
    cases h
    split at hq
    · cases hq
      exact hset (fun e he => by cases he; rfl) hin
    · cases hq
      exact hset (fun e he => by cases he; rfl) hin
    · cases hq
      exact hset (fun e he => by cases he) hin
    · cases hq
  · split at h
    · cases h
      exact Or.inl hin
    · cases h

/-- `updateChannel` registers its own channel only. -/
theorem updateChannel_interest {p p' : EPollPoller κ} {channel k : κ} {ch ch' : Channel}
    {fd : Fd} {events : EpollEvents} (h : p.updateChannel channel ch = .ok (p', ch'))
    (hin : p'.interest fd = some (events, k)) :
    p.interest fd = some (events, k) ∨ k = channel := by
  obtain ⟨q, cur, hq, _, _, hupdate⟩ := updateChannel_ctl h
  rw [← hq]
  exact update_interest hupdate hin

theorem removeChannel_interest {p p' : EPollPoller κ} {channel k : κ} {ch ch' : Channel}
    {fd : Fd} {events : EpollEvents} (h : p.removeChannel channel ch = .ok (p', ch'))
    (hin : p'.interest fd = some (events, k)) :
    p.interest fd = some (events, k) ∨ k = channel := by
  obtain ⟨q, hq, hctl⟩ := removeChannel_ctl h
  rw [← hq]
  cases hremove : ch.removeCtl with
  | some op =>
    simp only [hremove] at hctl
    exact update_interest hctl hin
  | none =>
    simp only [hremove] at hctl
    subst hctl
    exact Or.inl hin

end EPollPoller

/-! ### The system -/

namespace ThreadSystem

def init (name : Name) (listenAddr : InetAddress) (writeCompleteCallback : Bool)
    (pool : List LoopId) : ThreadSystem where
  loop := fun _ => .new
  todo := fun _ => []
  call := fun _ => none
  poller := fun _ => .new
  server := .new name listenAddr writeCompleteCallback []
  pool := pool
  started := 0
  listening := false
  conns := fun _ => none
  accepted := 0
  log := []
  aborted := none

/-! ### Updates -/

def setLoop (s : ThreadSystem) (L : LoopId) (l : EventLoop Source Job) : ThreadSystem :=
  { s with loop := Function.update s.loop L l }

def setTodo (s : ThreadSystem) (T : Thread) (tasks : List Task) : ThreadSystem :=
  { s with todo := Function.update s.todo T tasks }

def setCall (s : ThreadSystem) (T : Thread) (call : Option PendingCall) : ThreadSystem :=
  { s with call := Function.update s.call T call }

def setPoller (s : ThreadSystem) (L : LoopId) (p : EPollPoller ConnId) : ThreadSystem :=
  { s with poller := Function.update s.poller L p }

def setConn (s : ThreadSystem) (c : ConnId) (conn : TcpConnection) : ThreadSystem :=
  { s with conns := Function.update s.conns c (some conn) }

def abort (s : ThreadSystem) (fault : Fault) : ThreadSystem := { s with aborted := some fault }

def access (s : ThreadSystem) (T : Thread) (a : Access) : ThreadSystem :=
  { s with log := s.log ++ [(T, a)] }

def queueInLoop (s : ThreadSystem) (T : Thread) (L : LoopId) (f : Job) : ThreadSystem :=
  s.setLoop L ((s.loop L).queueInLoop (T.isInLoopThread L) f)

def pushTasks (s : ThreadSystem) (T : Thread) (tasks : List Task) : ThreadSystem :=
  s.setTodo T (tasks ++ s.todo T)

section Updates

variable (s : ThreadSystem) {L M : LoopId} {T U : Thread} {c d : ConnId}

theorem loop_setLoop (L : LoopId) (l : EventLoop Source Job) : (s.setLoop L l).loop L = l :=
  Function.update_self ..

theorem loop_setLoop_ne (l : EventLoop Source Job) (h : M ≠ L) :
    (s.setLoop L l).loop M = s.loop M :=
  Function.update_of_ne h ..

theorem todo_setTodo (T : Thread) (tasks : List Task) : (s.setTodo T tasks).todo T = tasks :=
  Function.update_self ..

theorem todo_setTodo_ne (tasks : List Task) (h : U ≠ T) :
    (s.setTodo T tasks).todo U = s.todo U :=
  Function.update_of_ne h ..

theorem call_setCall (T : Thread) (call : Option PendingCall) : (s.setCall T call).call T = call :=
  Function.update_self ..

theorem call_setCall_ne (call : Option PendingCall) (h : U ≠ T) :
    (s.setCall T call).call U = s.call U :=
  Function.update_of_ne h ..

theorem conns_setConn (c : ConnId) (conn : TcpConnection) :
    (s.setConn c conn).conns c = some conn :=
  Function.update_self ..

theorem conns_setConn_ne (conn : TcpConnection) (h : d ≠ c) :
    (s.setConn c conn).conns d = s.conns d :=
  Function.update_of_ne h ..

end Updates

/-! ### The functions of a connection -/

/-- An effect that is no callback. -/
def perform (s : ThreadSystem) (T : Thread) (c : ConnId) (e : Effect) : ThreadSystem :=
  match s.conns c with
  | none => s
  | some conn =>
    match e with
    | .updateChannel =>
      let t := s.access T (.updateChannel (some c) conn.loop)
      match (s.poller conn.loop).updateChannel c conn.channel with
      | .ok (p, ch) => (t.setPoller conn.loop p).setConn c { conn with channel := ch }
      | .error fault => t.abort fault
    | .removeChannel =>
      let t := s.access T (.removeChannel (some c) conn.loop)
      match (s.poller conn.loop).removeChannel c conn.channel with
      | .ok (p, ch) => (t.setPoller conn.loop p).setConn c { conn with channel := ch }
      | .error fault => t.abort fault
    | .queueInLoop f => s.queueInLoop T conn.loop (.functor (.conn c f))
    | .assertion fault holds => if holds then s else s.abort fault
    | .write _ | .shutdownWrite | .connectionCallback | .messageCallback | .closeCallback => s

/-- Perform the effects up to the first callback; the rest waits. -/
def runEffects (s : ThreadSystem) (T : Thread) (c : ConnId) : List Effect → ThreadSystem
  | [] => s
  | e :: es =>
    if ServerSystem.isCallback e then s.pushTasks T ((e :: es).map fun e => .conn c (.effect e))
    else (s.perform T c e).runEffects T c es

/-- A member function of the connection; what it calls of its own runs on the same thread. -/
def run (s : ThreadSystem) (T : Thread) (c : ConnId) (op : ConnOp) : ThreadSystem :=
  match s.conns c with
  | none => s
  | some conn =>
    ((s.access T (.run c op)).setConn c (conn.exec op).1).runEffects T c (conn.exec op).2

/-! ### `runInLoop` -/

/-- `removeConnectionInLoop` -/
def removeConnectionInLoop (s : ThreadSystem) (T : Thread) (c : ConnId) : ThreadSystem :=
  if s.server.alive then
    match s.conns c with
    | none => s
    | some conn =>
      let erased := { s.access T .server with server := { s.server with
        connections := Function.update s.server.connections conn.name none } }
      erased.queueInLoop T conn.loop (.functor (.conn c .connectDestroyed))
  else s.abort .useAfterFree

/-- `Acceptor::listen`, with the `enableReading` of its channel. -/
def listen (s : ThreadSystem) (T : Thread) : ThreadSystem :=
  if s.server.alive then
    { s.access T (.updateChannel none mainLoop) with listening := true }
  else s.abort .useAfterFree

/-- A callback of the user begins. -/
def userCallback (s : ThreadSystem) (T : Thread) (c : ConnId) : ThreadSystem :=
  (s.access T (.callback c)).pushTasks T [.conn c .user]

/-- `cb()` -/
def callFunctor (s : ThreadSystem) (T : Thread) (res : SysResult) : Job → ThreadSystem
  | .functor (.conn c f) =>
    match f.op res with
    | some op => s.run T c op
    | none => s.userCallback T c
  | .functor (.removeConnectionInLoop c) => s.removeConnectionInLoop T c
  | .functor .user => s.pushTasks T [.user]
  | .listen => s.listen T

/-- `EventLoop::runInLoop`; `res` is for the `::write` of a `sendInLoop`. -/
def runInLoop (s : ThreadSystem) (T : Thread) (L : LoopId) (res : SysResult) (f : Job) :
    ThreadSystem :=
  if T.isInLoopThread L then s.callFunctor T res f else s.queueInLoop T L f

/-! ### The functions of the server -/

/-- `TcpServer::start` -/
def start (s : ThreadSystem) (T : Thread) : ThreadSystem :=
  if s.started = 0 then
    let pooled := { s with started := s.started + 1, server := { s.server with loops := s.pool } }
    pooled.runInLoop T mainLoop (.ok 0) .listen
  else { s with started := s.started + 1 }

/-- `newConnection` up to its `runInLoop`. -/
def insertConnection (s : ThreadSystem) (T : Thread) (fd : Fd) : ThreadSystem :=
  let name := s.server.connName s.server.nextConnId
  let conn := TcpConnection.new s.server.getNextLoop.1 name fd s.server.writeCompleteCallback
    false TcpConnection.defaultHighWaterMark
  let inserted := { s.access T .server with
    accepted := s.accepted + 1
    server := { s.server with
      next := s.server.getNextLoop.2
      nextConnId := TcpServer.nextId s.server.nextConnId
      connections := Function.update s.server.connections name (some s.accepted) } }
  inserted.setConn s.accepted conn

def newConnection (s : ThreadSystem) (T : Thread) (fd : Fd) : ThreadSystem :=
  (s.insertConnection T fd).runInLoop T s.server.getNextLoop.1 (.ok 0)
    (.functor (.conn s.accepted .connectEstablished))

/-- `removeConnection`, the `closeCallback_`. -/
def removeConnection (s : ThreadSystem) (T : Thread) (c : ConnId) : ThreadSystem :=
  if s.server.alive then s.runInLoop T mainLoop (.ok 0) (.functor (.removeConnectionInLoop c))
  else s.abort .useAfterFree

/-- `Acceptor::handleRead`; `fd` is what `accept` returns. -/
def acceptorHandleRead (s : ThreadSystem) (T : Thread) (fd : Option Fd) : ThreadSystem :=
  if s.server.alive then
    match fd with
    | none => s
    | some fd => s.newConnection T fd
  else s.abort .useAfterFree

def loopOf (s : ThreadSystem) (c : ConnId) : LoopId := ((s.conns c).map (·.loop)).getD mainLoop

/-- `~TcpServer`, with `~Acceptor`; the `connectDestroyed`s that run at once come one after
    the other. -/
def destroyServer (s : ThreadSystem) (T : Thread) (order : List ConnId) : ThreadSystem :=
  let dying := { s.access T .server with server := { s.server with
    alive := false, connections := fun _ => none } }
  let queued := (order.filter fun c => ¬ T.isInLoopThread (s.loopOf c)).foldl
    (fun t c => t.queueInLoop T (s.loopOf c) (.functor (.conn c .connectDestroyed))) dying
  let running := queued.pushTasks T ((order.filter fun c => T.isInLoopThread (s.loopOf c)).map
    fun c => .conn c .connectDestroyed)
  (running.access T (.updateChannel none mainLoop)).access T (.removeChannel none mainLoop)

/-! ### The threads -/

def runEffect (s : ThreadSystem) (T : Thread) (c : ConnId) : Effect → ThreadSystem
  | .connectionCallback | .messageCallback => s.userCallback T c
  | .closeCallback => s.removeConnection T c
  | e => s.perform T c e

/-- The thread does a task that it has taken from `todo`; the user's code returns. -/
def runTask (s : ThreadSystem) (T : Thread) (readRes : ReadvResult) (res : SysResult) :
    Task → ThreadSystem
  | .conn c (.callback cb) =>
    match ServerSystem.callbackOp readRes res cb with
    | some op => s.run T c op
    | none => s
  | .conn c (.effect e) => s.runEffect T c e
  | .conn c .connectDestroyed => s.run T c .connectDestroyed
  | .conn _ .user | .user => s

/-- `handleEvent` of an active channel. -/
def handleActive (s : ThreadSystem) (T : Thread) (fd : Option Fd) :
    ActiveChannel Source → ThreadSystem
  | .wakeupChannel => s
  | .channel .acceptor => s.acceptorHandleRead T fd
  | .channel (.conn c revents) =>
    s.pushTasks T ((Channel.handleEventWithGuard revents).map fun cb => .conn c (.callback cb))

/-- What a poll may report: what is registered with the poller. -/
def Reported (s : ThreadSystem) (L : LoopId) : ActiveChannel Source → Prop
  | .wakeupChannel => True
  | .channel .acceptor => L = mainLoop ∧ s.listening = true
  | .channel (.conn c _) => ∃ conn ∈ s.conns c,
      ((s.poller L).interest conn.channel.fd).map Prod.snd = some c

instance (s : ThreadSystem) (L : LoopId) : (a : ActiveChannel Source) → Decidable (s.Reported L a)
  | .wakeupChannel => inferInstanceAs (Decidable True)
  | .channel .acceptor => inferInstanceAs (Decidable (_ ∧ _))
  | .channel (.conn _ _) => inferInstanceAs (Decidable (∃ _ ∈ _, _))

/-- The steps of `loop()` between the calls it makes. -/
def LoopStepEnabled (s : ThreadSystem) (L : LoopId) : LoopStep Source → Prop
  | .handleEvent | .callFunctor => False
  | .poll active => ∀ a ∈ active, s.Reported L a
  | _ => True

instance (s : ThreadSystem) (L : LoopId) : (a : LoopStep Source) → Decidable (s.LoopStepEnabled L a)
  | .handleEvent | .callFunctor => inferInstanceAs (Decidable False)
  | .poll active => inferInstanceAs (Decidable (∀ a ∈ active, _))
  | .enter | .resetQuit | .test | .beginPending | .swap | .endPending =>
    inferInstanceAs (Decidable True)

/-- The user's code comes next, or nothing does and the thread is `idle`. -/
def UserCode (idle : Prop) : List Task → Prop
  | [] => idle
  | .conn _ .user :: _ | .user :: _ => True
  | _ => False

instance (idle : Prop) [Decidable idle] : (tasks : List Task) → Decidable (UserCode idle tasks)
  | [] => inferInstanceAs (Decidable idle)
  | .conn _ .user :: _ | .user :: _ => inferInstanceAs (Decidable True)
  | .conn _ (.callback _) :: _ | .conn _ (.effect _) :: _ | .conn _ .connectDestroyed :: _ =>
    inferInstanceAs (Decidable False)

/-- The thread is not in `loop()`. -/
def OutsideLoop (s : ThreadSystem) : Thread → Prop
  | .user _ => True
  | .loop L => (s.loop L).pc = .outside ∨ (s.loop L).pc = .returned

instance (s : ThreadSystem) : (T : Thread) → Decidable (s.OutsideLoop T)
  | .user _ => inferInstanceAs (Decidable True)
  | .loop _ => inferInstanceAs (Decidable (_ ∨ _))

/-- The thread runs the user's code. -/
def RunsUser (s : ThreadSystem) (T : Thread) : Prop :=
  s.call T = none ∧ UserCode (s.OutsideLoop T) (s.todo T)

instance (s : ThreadSystem) (T : Thread) : Decidable (s.RunsUser T) :=
  inferInstanceAs (Decidable (_ ∧ _))

/-- The thread of the loop has returned to `loop()`. -/
def InLoop (s : ThreadSystem) (L : LoopId) : Prop :=
  s.call (.loop L) = none ∧ s.todo (.loop L) = []

instance (s : ThreadSystem) (L : LoopId) : Decidable (s.InLoop L) :=
  inferInstanceAs (Decidable (_ ∧ _))

/-- `send` or `shutdown` by the user: the test of `state_`. -/
def userCall (s : ThreadSystem) (T : Thread) (c : ConnId) (request : Request) :
    Option ThreadSystem :=
  (s.conns c).map fun conn =>
    if conn.state = .kConnected then s.setCall T (some (request.afterTest c)) else s

/-- The call goes on after its test. -/
def proceed (s : ThreadSystem) (T : Thread) (res : SysResult) :
    PendingCall → Option ThreadSystem
  | .setState c => (s.conns c).map fun conn =>
    (s.setConn c { conn with state := .kDisconnecting }).setCall T
      (some (.runInLoop c .shutdownInLoop))
  | .runInLoop c f => (s.conns c).map fun conn =>
    (s.setCall T none).runInLoop T conn.loop res (.functor (.conn c f))

/-- The connection is in `connections_`. -/
def InMap (s : ThreadSystem) (c : ConnId) : Prop :=
  ∃ conn ∈ s.conns c, s.server.connections conn.name = some c

instance (s : ThreadSystem) (c : ConnId) : Decidable (s.InMap c) :=
  inferInstanceAs (Decidable (∃ _ ∈ _, _))

/-- The connections of `connections_`, in the order in which the map has them. -/
def IsOrder (s : ThreadSystem) (order : List ConnId) : Prop :=
  order.Nodup ∧ (∀ c ∈ order, s.InMap c) ∧ ∀ c < s.accepted, s.InMap c → c ∈ order

instance (s : ThreadSystem) (order : List ConnId) : Decidable (s.IsOrder order) :=
  inferInstanceAs (Decidable (_ ∧ _ ∧ _))

/-- `EventLoop::quit` -/
def quit (s : ThreadSystem) (T : Thread) (L : LoopId) : ThreadSystem :=
  let stopped := { s.loop L with quit := true }
  s.setLoop L (if T.isInLoopThread L then stopped else stopped.wakeup)

/-! ### Steps -/

def step (s : ThreadSystem) (act : ThreadAct) : Option ThreadSystem :=
  if s.aborted = none then
    match act with
    | .loopStep L a =>
      if s.InLoop L ∧ s.LoopStepEnabled L a then
        ((s.loop L).advance a).map fun l => s.setLoop L l
      else none
    | .handleEvent L fd =>
      if s.InLoop L then
        match (s.loop L).activeChannels with
        | [] => none
        | a :: _ => ((s.loop L).advance .handleEvent).map fun l =>
          (s.setLoop L l).handleActive (.loop L) fd a
      else none
    | .callFunctor L res =>
      if s.InLoop L then
        match (s.loop L).functors with
        | [] => none
        | f :: _ => ((s.loop L).advance .callFunctor).map fun l =>
          (s.setLoop L l).callFunctor (.loop L) res f
      else none
    | .task T readRes res =>
      if s.call T = none then
        match s.todo T with
        | [] => none
        | t :: rest => some ((s.setTodo T rest).runTask T readRes res t)
      else none
    | .start T => if s.RunsUser T ∧ s.server.alive = true then some (s.start T) else none
    | .userCall T c request => if s.RunsUser T then s.userCall T c request else none
    | .proceed T res => (s.call T).bind (s.proceed T res)
    | .userQueue T L => if s.RunsUser T then some (s.queueInLoop T L (.functor .user)) else none
    | .quit T L => if s.RunsUser T then some (s.quit T L) else none
    | .destroyServer order =>
      if s.server.alive = true ∧ s.RunsUser (.loop mainLoop) ∧ s.IsOrder order then
        some (s.destroyServer (.loop mainLoop) order)
      else none
  else none

/-- What a step finds, and what it does. -/
def Does (s t : ThreadSystem) : ThreadAct → Prop
  | .loopStep L a => s.InLoop L ∧ s.LoopStepEnabled L a
    ∧ ∃ l, (s.loop L).advance a = some l ∧ t = s.setLoop L l
  | .handleEvent L fd => s.InLoop L ∧ ∃ a rest l, (s.loop L).activeChannels = a :: rest
    ∧ (s.loop L).advance .handleEvent = some l ∧ t = (s.setLoop L l).handleActive (.loop L) fd a
  | .callFunctor L res => s.InLoop L ∧ ∃ f rest l, (s.loop L).functors = f :: rest
    ∧ (s.loop L).advance .callFunctor = some l ∧ t = (s.setLoop L l).callFunctor (.loop L) res f
  | .task T readRes res => s.call T = none ∧ ∃ task rest, s.todo T = task :: rest
    ∧ t = (s.setTodo T rest).runTask T readRes res task
  | .start T => s.RunsUser T ∧ t = s.start T
  | .userCall T c request => s.RunsUser T ∧ s.userCall T c request = some t
  | .proceed T res => ∃ call, s.call T = some call ∧ s.proceed T res call = some t
  | .userQueue T L => s.RunsUser T ∧ t = s.queueInLoop T L (.functor .user)
  | .quit T L => s.RunsUser T ∧ t = s.quit T L
  | .destroyServer order => s.IsOrder order ∧ t = s.destroyServer (.loop mainLoop) order

theorem step_does {s t : ThreadSystem} {act : ThreadAct} (hstep : s.step act = some t) :
    Does s t act := by
  simp only [step, Option.ite_none_right_eq_some] at hstep
  obtain ⟨_, hstep⟩ := hstep
  cases act with
  | loopStep L a =>
    simp only [Option.ite_none_right_eq_some] at hstep
    obtain ⟨⟨hloop, henabled⟩, hstep⟩ := hstep
    obtain ⟨l, hl, rfl⟩ := Option.map_eq_some_iff.mp hstep
    exact ⟨hloop, henabled, l, hl, rfl⟩
  | handleEvent L fd =>
    simp only [Option.ite_none_right_eq_some] at hstep
    obtain ⟨hloop, hstep⟩ := hstep
    cases hchannels : (s.loop L).activeChannels with
    | nil => simp [hchannels] at hstep
    | cons a rest =>
      simp only [hchannels] at hstep
      obtain ⟨l, hl, rfl⟩ := Option.map_eq_some_iff.mp hstep
      exact ⟨hloop, a, rest, l, hchannels, hl, rfl⟩
  | callFunctor L res =>
    simp only [Option.ite_none_right_eq_some] at hstep
    obtain ⟨hloop, hstep⟩ := hstep
    cases hfunctors : (s.loop L).functors with
    | nil => simp [hfunctors] at hstep
    | cons f rest =>
      simp only [hfunctors] at hstep
      obtain ⟨l, hl, rfl⟩ := Option.map_eq_some_iff.mp hstep
      exact ⟨hloop, f, rest, l, hfunctors, hl, rfl⟩
  | task T readRes res =>
    simp only [Option.ite_none_right_eq_some] at hstep
    obtain ⟨hidle, hstep⟩ := hstep
    cases htodo : s.todo T with
    | nil => simp [htodo] at hstep
    | cons task rest =>
      simp only [htodo, Option.some.injEq] at hstep
      exact ⟨hidle, task, rest, htodo, hstep.symm⟩
  | start T =>
    simp only [Option.ite_none_right_eq_some, Option.some.injEq] at hstep
    exact ⟨hstep.1.1, hstep.2.symm⟩
  | userCall T c request =>
    simp only [Option.ite_none_right_eq_some] at hstep
    exact hstep
  | proceed T res => exact Option.bind_eq_some_iff.mp hstep
  | userQueue T L =>
    simp only [Option.ite_none_right_eq_some, Option.some.injEq] at hstep
    exact ⟨hstep.1, hstep.2.symm⟩
  | quit T L =>
    simp only [Option.ite_none_right_eq_some, Option.some.injEq] at hstep
    exact ⟨hstep.1, hstep.2.symm⟩
  | destroyServer order =>
    simp only [Option.ite_none_right_eq_some, Option.some.injEq] at hstep
    exact ⟨hstep.1.2.2, hstep.2.symm⟩

/-! ### Routing -/

/-- The loop of a connection, `getLoop()`. -/
def home (s : ThreadSystem) (c : ConnId) : Option LoopId := (s.conns c).map (·.loop)

/-- The access is made by the thread that it belongs to. -/
def Confined (s : ThreadSystem) (T : Thread) : Access → Prop
  | .updateChannel channel L | .removeChannel channel L =>
    T = .loop L ∧ ∀ c ∈ channel, s.home c = some L
  | .run c _ | .callback c => ∃ L, T = .loop L ∧ s.home c = some L
  | .server => T = .loop mainLoop

/-- The functor is on the right loop. -/
def JobRouted (home : ConnId → Option LoopId) (L : LoopId) : Job → Prop
  | .functor f => f.RoutedTo home L
  | .listen => L = mainLoop

/-- What a thread or a poller holds for a connection is held by that of its loop. -/
structure Routed (s : ThreadSystem) : Prop where
  loops : ∀ L, (s.loop L).WF
  functors : ∀ L, ∀ f ∈ (s.loop L).waiting, JobRouted s.home L f
  tasks : ∀ T c t, .conn c t ∈ s.todo T → ∃ L, T = .loop L ∧ s.home c = some L
  active : ∀ L, ∀ a ∈ (s.loop L).activeChannels, a.RoutedTo s.home L
  interest : ∀ L fd events c, (s.poller L).interest fd = some (events, c) → s.home c = some L
  fresh : ∀ c, s.accepted ≤ c → s.conns c = none
  log : ∀ T a, (T, a) ∈ s.log → s.Confined T a

/-- Connections keep their loops. -/
structure Keeps (s t : ThreadSystem) : Prop where
  routed : t.Routed
  home : ∀ c L, s.home c = some L → t.home c = some L

variable {s t u : ThreadSystem} {T : Thread} {L : LoopId} {c : ConnId} {conn : TcpConnection}

theorem Keeps.refl (h : s.Routed) : Keeps s s := ⟨h, fun _ _ => id⟩

theorem Keeps.trans (h : Keeps s t) (h' : Keeps t u) : Keeps s u :=
  ⟨h'.routed, fun c L hc => h'.home c L (h.home c L hc)⟩

theorem home_of (hconn : s.conns c = some conn) : s.home c = some conn.loop := by
  rw [home, hconn, Option.map_some]

theorem JobRouted.mono {home home' : ConnId → Option LoopId}
    (hhome : ∀ c L, home c = some L → home' c = some L) {f : Job} (h : JobRouted home L f) :
    JobRouted home' L f := by
  cases f with
  | listen => exact h
  | functor f =>
    cases f with
    | conn c f => exact hhome c L h
    | removeConnectionInLoop c =>
      obtain ⟨M, hM⟩ := Option.isSome_iff_exists.mp h.2
      exact ⟨h.1, Option.isSome_iff_exists.mpr ⟨M, hhome c M hM⟩⟩
    | user => trivial

theorem active_mono {home home' : ConnId → Option LoopId}
    (hhome : ∀ c L, home c = some L → home' c = some L) {a : ActiveChannel Source}
    (h : a.RoutedTo home L) : a.RoutedTo home' L := by
  cases a with
  | wakeupChannel => trivial
  | channel source =>
    cases source with
    | acceptor => exact h
    | conn c revents => exact hhome c L h

theorem confined_mono (hhome : ∀ c L, s.home c = some L → t.home c = some L) {a : Access}
    (h : s.Confined T a) : t.Confined T a := by
  cases a with
  | updateChannel channel L | removeChannel channel L =>
    exact ⟨h.1, fun c hc => hhome c L (h.2 c hc)⟩
  | run c op | callback c =>
    obtain ⟨L, hT, hc⟩ := h
    exact ⟨L, hT, hhome c L hc⟩
  | server => exact h

/-! ### Updates -/

theorem Routed.abort (h : s.Routed) (fault : Fault) : Keeps s (s.abort fault) :=
  ⟨{ h with }, fun _ _ => id⟩

theorem Routed.access (h : s.Routed) {a : Access} (ha : s.Confined T a) :
    Keeps s (s.access T a) := by
  refine ⟨{ h with log := fun U b hin => ?_ }, fun _ _ => id⟩
  rcases List.mem_append.mp hin with hold | hnew
  · exact h.log U b hold
  · cases List.mem_singleton.mp hnew
    exact ha

theorem Routed.setConn (h : s.Routed) (hconn : s.conns c = some conn) {conn' : TcpConnection}
    (hloop : conn'.loop = conn.loop) : Keeps s (s.setConn c conn') := by
  have hhome : (s.setConn c conn').home = s.home := by
    funext d
    by_cases hd : d = c
    · subst hd
      simp [home, ThreadSystem.setConn, hconn, hloop]
    · simp [home, ThreadSystem.setConn, hd]
  refine ⟨⟨h.loops, ?_, ?_, ?_, ?_, ?_, ?_⟩, fun d M hd => hhome ▸ hd⟩
  · rw [hhome]
    exact h.functors
  · rw [hhome]
    exact h.tasks
  · rw [hhome]
    exact h.active
  · rw [hhome]
    exact h.interest
  · intro d hd
    have hne : d ≠ c := by
      rintro rfl
      cases (h.fresh d hd).symm.trans hconn
    rw [conns_setConn_ne _ _ hne]
    exact h.fresh d hd
  · exact fun U a hin => confined_mono (fun d M hd => hhome ▸ hd) (h.log U a hin)

theorem Routed.setCall (h : s.Routed) (call : Option PendingCall) :
    Keeps s (s.setCall T call) :=
  ⟨{ h with }, fun _ _ => id⟩

theorem Routed.setPoller (h : s.Routed) {p : EPollPoller ConnId}
    (hp : ∀ fd events c, p.interest fd = some (events, c) → s.home c = some L) :
    Keeps s (s.setPoller L p) := by
  refine ⟨{ h with interest := fun M fd events c hin => ?_ }, fun _ _ => id⟩
  by_cases hM : M = L
  · subst hM
    simp only [ThreadSystem.setPoller, Function.update_self] at hin
    exact hp fd events c hin
  · simp only [ThreadSystem.setPoller, Function.update_of_ne hM] at hin
    exact h.interest M fd events c hin

theorem Routed.setLoop (h : s.Routed) {l : EventLoop Source Job} (hwf : l.WF)
    (hwaiting : ∀ f ∈ l.waiting, JobRouted s.home L f)
    (hactive : ∀ a ∈ l.activeChannels, a.RoutedTo s.home L) : Keeps s (s.setLoop L l) := by
  refine ⟨{ h with
    loops := fun M => ?_
    functors := fun M f hin => ?_
    active := fun M a hin => ?_ }, fun _ _ => id⟩
  · by_cases hM : M = L
    · subst hM
      rw [loop_setLoop]
      exact hwf
    · rw [loop_setLoop_ne _ _ hM]
      exact h.loops M
  · by_cases hM : M = L
    · subst hM
      rw [loop_setLoop] at hin
      exact hwaiting f hin
    · rw [loop_setLoop_ne _ _ hM] at hin
      exact h.functors M f hin
  · by_cases hM : M = L
    · subst hM
      rw [loop_setLoop] at hin
      exact hactive a hin
    · rw [loop_setLoop_ne _ _ hM] at hin
      exact h.active M a hin

theorem Routed.queueInLoop (h : s.Routed) (T : Thread) {f : Job} (hf : JobRouted s.home L f) :
    Keeps s (s.queueInLoop T L f) := by
  apply h.setLoop
  · exact ((h.loops L).pushBack f).wakeupIfNeeded _
  · intro g hg
    rw [EventLoop.queueInLoop_waiting] at hg
    rcases List.mem_append.mp hg with hold | hnew
    · exact h.functors L g hold
    · rw [List.mem_singleton.mp hnew]
      exact hf
  · rw [EventLoop.queueInLoop_activeChannels]
    exact h.active L

theorem Routed.setTodo (h : s.Routed) {tasks : List Task}
    (htasks : ∀ c t, .conn c t ∈ tasks → ∃ L, T = .loop L ∧ s.home c = some L) :
    Keeps s (s.setTodo T tasks) := by
  refine ⟨{ h with tasks := fun U c t hin => ?_ }, fun _ _ => id⟩
  by_cases hU : U = T
  · subst hU
    rw [todo_setTodo] at hin
    exact htasks c t hin
  · rw [todo_setTodo_ne _ _ hU] at hin
    exact h.tasks U c t hin

theorem Routed.pushTasks (h : s.Routed) {tasks : List Task}
    (htasks : ∀ c t, .conn c t ∈ tasks → ∃ L, T = .loop L ∧ s.home c = some L) :
    Keeps s (s.pushTasks T tasks) := by
  refine h.setTodo fun c t hin => ?_
  rcases List.mem_append.mp hin with hnew | hold
  · exact htasks c t hnew
  · exact h.tasks T c t hold

/-! ### The functions of a connection, on its own thread -/

theorem perform_keeps (h : s.Routed) (hc : s.home c = some L) (e : Effect) :
    Keeps s (s.perform (.loop L) c e) := by
  unfold perform
  cases hconn : s.conns c with
  | none => exact .refl h
  | some conn =>
    obtain rfl : conn.loop = L := Option.some.inj ((home_of hconn).symm.trans hc)
    have hown : ∀ d ∈ some c, s.home d = some conn.loop := by
      rintro d ⟨⟩
      exact hc
    -- the poller of its loop gets entries for this connection only
    have hset : ∀ {a : Access} {p : EPollPoller ConnId} {ch : Channel},
        s.Confined (.loop conn.loop) a → (∀ fd events d, p.interest fd = some (events, d) →
          (s.poller conn.loop).interest fd = some (events, d) ∨ d = c) →
        Keeps s (((s.access (.loop conn.loop) a).setPoller conn.loop p).setConn c
          { conn with channel := ch }) := by
      intro a p ch ha hp
      have haccess := h.access ha
      have hpoller := haccess.routed.setPoller (L := conn.loop) (p := p) fun fd events d hin => by
        rcases hp fd events d hin with hold | rfl
        · exact h.interest conn.loop fd events d hold
        · exact hc
      exact (haccess.trans hpoller).trans (hpoller.routed.setConn hconn rfl)
    cases e with
    | updateChannel =>
      have ha : s.Confined (.loop conn.loop) (.updateChannel (some c) conn.loop) := ⟨rfl, hown⟩
      dsimp only
      split
      · rename_i hupdate
        exact hset ha fun _ _ _ => EPollPoller.updateChannel_interest hupdate
      · have haccess := h.access ha
        exact haccess.trans (haccess.routed.abort _)
    | removeChannel =>
      have ha : s.Confined (.loop conn.loop) (.removeChannel (some c) conn.loop) := ⟨rfl, hown⟩
      dsimp only
      split
      · rename_i hremove
        exact hset ha fun _ _ _ => EPollPoller.removeChannel_interest hremove
      · have haccess := h.access ha
        exact haccess.trans (haccess.routed.abort _)
    | queueInLoop f => exact h.queueInLoop _ hc
    | assertion fault holds =>
      dsimp only
      split
      · exact .refl h
      · exact h.abort _
    | write _ | shutdownWrite | connectionCallback | messageCallback | closeCallback =>
      exact .refl h

theorem runEffects_keeps {effects : List Effect} : ∀ {s : ThreadSystem}, s.Routed →
    s.home c = some L → Keeps s (s.runEffects (.loop L) c effects) := by
  induction effects with
  | nil =>
    intro s h _
    exact .refl h
  | cons e es ih =>
    intro s h hc
    unfold runEffects
    split
    · refine h.pushTasks fun d t hin => ?_
      obtain ⟨e', _, heq⟩ := List.mem_map.mp hin
      cases heq
      exact ⟨L, rfl, hc⟩
    · have hperform := perform_keeps h hc e
      exact hperform.trans (ih hperform.routed (hperform.home c L hc))

theorem run_keeps (h : s.Routed) (hc : s.home c = some L) (op : ConnOp) :
    Keeps s (s.run (.loop L) c op) := by
  unfold run
  cases hconn : s.conns c with
  | none => exact .refl h
  | some conn =>
    have haccess := h.access (a := .run c op) ⟨L, rfl, hc⟩
    have hset := haccess.routed.setConn hconn (ServerSystem.exec_same conn op).1
    have hrun := haccess.trans hset
    exact hrun.trans (runEffects_keeps hrun.routed (hrun.home c L hc))

theorem userCallback_keeps (h : s.Routed) (hc : s.home c = some L) :
    Keeps s (s.userCallback (.loop L) c) := by
  have haccess := h.access (a := .callback c) ⟨L, rfl, hc⟩
  refine haccess.trans (haccess.routed.pushTasks fun d t hin => ?_)
  cases List.mem_singleton.mp hin
  exact ⟨L, rfl, haccess.home c L hc⟩

/-! ### `runInLoop` -/

theorem removeConnectionInLoop_keeps (h : s.Routed) (c : ConnId) :
    Keeps s (s.removeConnectionInLoop (.loop mainLoop) c) := by
  unfold removeConnectionInLoop
  split
  · cases hconn : s.conns c with
    | none => exact .refl h
    | some conn =>
      have haccess := h.access (T := .loop mainLoop) (a := .server) rfl
      let erased : ThreadSystem := { s.access (.loop mainLoop) .server with
        server := { s.server with
          connections := Function.update s.server.connections conn.name none } }
      have herased : Keeps s erased := ⟨{ haccess.routed with }, fun _ _ => id⟩
      have hhome : erased.home c = some conn.loop := home_of hconn
      exact herased.trans (herased.routed.queueInLoop _ hhome)
  · exact h.abort _

theorem listen_keeps (h : s.Routed) : Keeps s (s.listen (.loop mainLoop)) := by
  unfold listen
  split
  · have haccess := h.access (T := .loop mainLoop) (a := .updateChannel none mainLoop)
      ⟨rfl, fun _ hin => by cases hin⟩
    exact ⟨{ haccess.routed with }, fun _ _ => id⟩
  · exact h.abort _

/-- **A functor runs on the thread of the loop that it is for.** -/
theorem callFunctor_keeps (h : s.Routed) {f : Job} (hf : JobRouted s.home L f) (res : SysResult) :
    Keeps s (s.callFunctor (.loop L) res f) := by
  cases f with
  | listen =>
    obtain rfl : L = mainLoop := hf
    exact listen_keeps h
  | functor f =>
    cases f with
    | conn c f =>
      simp only [callFunctor]
      cases f.op res with
      | none => exact userCallback_keeps h hf
      | some op => exact run_keeps h hf op
    | removeConnectionInLoop c =>
      obtain ⟨rfl, _⟩ := hf
      exact removeConnectionInLoop_keeps h c
    | user =>
      refine h.pushTasks fun d t hin => ?_
      cases List.mem_singleton.mp hin

/-- **`runInLoop` brings it there**, at once or through the queue. -/
theorem runInLoop_keeps (h : s.Routed) (T : Thread) {f : Job} (hf : JobRouted s.home L f)
    (res : SysResult) : Keeps s (s.runInLoop T L res f) := by
  unfold runInLoop
  split
  · rename_i hthread
    obtain rfl : T = .loop L := of_decide_eq_true hthread
    exact callFunctor_keeps h hf res
  · exact h.queueInLoop T hf

/-! ### The functions of the server -/

theorem start_keeps (h : s.Routed) (T : Thread) : Keeps s (s.start T) := by
  unfold start
  split
  · have hpooled : Keeps s { s with
        started := s.started + 1, server := { s.server with loops := s.pool } } :=
      ⟨{ h with }, fun _ _ => id⟩
    have hlisten : JobRouted s.home mainLoop .listen := rfl
    exact hpooled.trans (runInLoop_keeps hpooled.routed T hlisten _)
  · exact ⟨{ h with }, fun _ _ => id⟩

theorem insertConnection_keeps (h : s.Routed) (fd : Fd) :
    Keeps s (s.insertConnection (.loop mainLoop) fd)
      ∧ (s.insertConnection (.loop mainLoop) fd).home s.accepted
        = some s.server.getNextLoop.1 := by
  have hfresh := h.fresh s.accepted (Nat.le_refl _)
  have hne : ∀ c L, s.home c = some L → c ≠ s.accepted := by
    rintro c L hc rfl
    simp [home, hfresh] at hc
  have hhome : ∀ c L, s.home c = some L →
      (s.insertConnection (.loop mainLoop) fd).home c = some L := by
    intro c L hc
    simp only [home, insertConnection, ThreadSystem.setConn, Function.update_of_ne (hne c L hc)]
    exact hc
  refine ⟨⟨⟨h.loops, ?_, ?_, ?_, ?_, ?_, ?_⟩, hhome⟩, ?_⟩
  · exact fun L f hf => (h.functors L f hf).mono hhome
  · intro T c t hin
    obtain ⟨L, hT, hc⟩ := h.tasks T c t hin
    exact ⟨L, hT, hhome c L hc⟩
  · exact fun L a ha => active_mono hhome (h.active L a ha)
  · exact fun L fd' events c hin => hhome c L (h.interest L fd' events c hin)
  · intro c hc
    have hlt : s.accepted < c := hc
    exact (Function.update_of_ne (Nat.ne_of_gt hlt) ..).trans (h.fresh c (Nat.le_of_lt hlt))
  · intro T a hin
    rcases List.mem_append.mp hin with hold | hnew
    · exact confined_mono hhome (h.log T a hold)
    · cases List.mem_singleton.mp hnew
      exact rfl
  · simp only [home, insertConnection, ThreadSystem.setConn, Function.update_self, Option.map_some]
    rfl

theorem newConnection_keeps (h : s.Routed) (fd : Fd) :
    Keeps s (s.newConnection (.loop mainLoop) fd) := by
  obtain ⟨hinsert, hhome⟩ := insertConnection_keeps h fd
  have hf : JobRouted (s.insertConnection (.loop mainLoop) fd).home s.server.getNextLoop.1
      (.functor (.conn s.accepted .connectEstablished)) := hhome
  exact hinsert.trans (runInLoop_keeps hinsert.routed _ hf _)

theorem removeConnection_keeps (h : s.Routed) (hc : s.home c = some L) (T : Thread) :
    Keeps s (s.removeConnection T c) := by
  unfold removeConnection
  split
  · have hf : JobRouted s.home mainLoop (.functor (.removeConnectionInLoop c)) :=
      ⟨rfl, by rw [hc]; rfl⟩
    exact runInLoop_keeps h T hf _
  · exact h.abort _

theorem home_loopOf (hconn : s.conns c = some conn) : s.home c = some (s.loopOf c) := by
  simp [home, loopOf, hconn]

/-- **`~TcpServer` on the thread of its loop.** -/
theorem destroyServer_keeps (h : s.Routed) {order : List ConnId}
    (horder : ∀ c ∈ order, s.InMap c) : Keeps s (s.destroyServer (.loop mainLoop) order) := by
  have hhome : ∀ c ∈ order, s.home c = some (s.loopOf c) := by
    intro c hc
    obtain ⟨conn, hconn, _⟩ := horder c hc
    exact home_loopOf hconn
  have hqueue : ∀ (cs : List ConnId) {u : ThreadSystem}, u.Routed → (∀ c ∈ cs,
      u.home c = some (s.loopOf c)) → Keeps u (cs.foldl (fun t c =>
        t.queueInLoop (.loop mainLoop) (s.loopOf c) (.functor (.conn c .connectDestroyed))) u) := by
    intro cs
    induction cs with
    | nil =>
      intro u hu _
      exact .refl hu
    | cons c cs ih =>
      intro u hu hcs
      have hf : JobRouted u.home (s.loopOf c) (.functor (.conn c .connectDestroyed)) :=
        hcs c List.mem_cons_self
      have hpush := hu.queueInLoop (.loop mainLoop) hf
      refine hpush.trans (ih hpush.routed fun d hd => ?_)
      exact hpush.home d _ (hcs d (List.mem_cons_of_mem _ hd))
  have haccess := h.access (T := .loop mainLoop) (a := .server) rfl
  have hdying : Keeps s { s.access (.loop mainLoop) .server with server := { s.server with
      alive := false, connections := fun _ => none } } :=
    ⟨{ haccess.routed with }, fun _ _ => id⟩
  have hqueued := hdying.trans (hqueue (order.filter fun c =>
    ¬ (Thread.loop mainLoop).isInLoopThread (s.loopOf c)) hdying.routed
    fun c hc => hhome c (List.mem_filter.mp hc).1)
  have htasks : ∀ c t, Task.conn c t ∈ (order.filter fun c =>
      (Thread.loop mainLoop).isInLoopThread (s.loopOf c)).map (fun c => .conn c .connectDestroyed) →
      ∃ L, Thread.loop mainLoop = .loop L ∧ s.home c = some L := by
    intro c t hin
    obtain ⟨d, hd, heq⟩ := List.mem_map.mp hin
    cases heq
    obtain ⟨hmem, hthread⟩ := List.mem_filter.mp hd
    have hloop : mainLoop = s.loopOf c := Thread.loop.inj (of_decide_eq_true hthread)
    exact ⟨mainLoop, rfl, (hhome c hmem).trans (congrArg some hloop.symm)⟩
  have hrunning := hqueued.trans (hqueued.routed.pushTasks fun c t hin => by
    obtain ⟨M, hM, hc⟩ := htasks c t hin
    exact ⟨M, hM, hqueued.home c M hc⟩)
  have hupdate := hrunning.trans (hrunning.routed.access (T := .loop mainLoop)
    (a := .updateChannel none mainLoop) ⟨rfl, fun _ hin => by cases hin⟩)
  exact hupdate.trans (hupdate.routed.access (T := .loop mainLoop)
    (a := .removeChannel none mainLoop) ⟨rfl, fun _ hin => by cases hin⟩)

/-! ### The threads -/

theorem runTask_keeps (h : s.Routed) (T : Thread) (readRes : ReadvResult) (res : SysResult)
    {task : Task} (htask : ∀ c t, task = .conn c t → ∃ L, T = .loop L ∧ s.home c = some L) :
    Keeps s (s.runTask T readRes res task) := by
  cases task with
  | user => exact .refl h
  | conn c t =>
    obtain ⟨L, rfl, hc⟩ := htask c t rfl
    cases t with
    | callback cb =>
      simp only [runTask]
      cases ServerSystem.callbackOp readRes res cb with
      | none => exact .refl h
      | some op => exact run_keeps h hc op
    | effect e =>
      have hperform := perform_keeps h hc e
      cases e with
      | connectionCallback | messageCallback => exact userCallback_keeps h hc
      | closeCallback => exact removeConnection_keeps h hc _
      | write _ | shutdownWrite | updateChannel | removeChannel | queueInLoop _
      | assertion _ _ => exact hperform
    | connectDestroyed => exact run_keeps h hc _
    | user => exact .refl h

theorem handleActive_keeps (h : s.Routed) {a : ActiveChannel Source}
    (ha : a.RoutedTo s.home L) (fd : Option Fd) : Keeps s (s.handleActive (.loop L) fd a) := by
  cases a with
  | wakeupChannel => exact .refl h
  | channel source =>
    cases source with
    | acceptor =>
      obtain rfl : L = mainLoop := ha
      simp only [handleActive, acceptorHandleRead]
      split
      · cases fd with
        | none => exact .refl h
        | some fd => exact newConnection_keeps h fd
      · exact h.abort _
    | conn c revents =>
      refine h.pushTasks fun d t hin => ?_
      obtain ⟨cb, _, heq⟩ := List.mem_map.mp hin
      cases heq
      exact ⟨L, rfl, ha⟩

theorem userCall_keeps (h : s.Routed) {request : Request}
    (hcall : s.userCall T c request = some t) : Keeps s t := by
  obtain ⟨conn, _, rfl⟩ := Option.map_eq_some_iff.mp hcall
  split
  · exact h.setCall _
  · exact .refl h

/-- **`send` and `shutdown`** may come from any thread. -/
theorem proceed_keeps (h : s.Routed) {res : SysResult} {call : PendingCall}
    (hcall : s.proceed T res call = some t) : Keeps s t := by
  cases call with
  | setState c =>
    obtain ⟨conn, hconn, rfl⟩ := Option.map_eq_some_iff.mp hcall
    have hset : Keeps s (s.setConn c { conn with state := .kDisconnecting }) :=
      h.setConn hconn rfl
    exact hset.trans (hset.routed.setCall _)
  | runInLoop c f =>
    obtain ⟨conn, hconn, rfl⟩ := Option.map_eq_some_iff.mp hcall
    have hset : Keeps s (s.setCall T none) := h.setCall none
    have hf : JobRouted (s.setCall T none).home conn.loop (.functor (.conn c f)) :=
      home_of hconn
    exact hset.trans (runInLoop_keeps hset.routed T hf res)

/-- What `epoll_wait` reports is on its own loop. -/
theorem Reported.routed (h : s.Routed) {a : ActiveChannel Source} (ha : s.Reported L a) :
    a.RoutedTo s.home L := by
  cases a with
  | wakeupChannel => trivial
  | channel source =>
    cases source with
    | acceptor => exact ha.1
    | conn c revents =>
      obtain ⟨conn, _, hinterest⟩ := ha
      obtain ⟨⟨events, d⟩, hevent, rfl⟩ := Option.map_eq_some_iff.mp hinterest
      exact h.interest L _ events d hevent

/-- A step of `loop()` takes a functor or a channel, or polls. -/
theorem Routed.advance (h : s.Routed) {a : LoopStep Source} {l : EventLoop Source Job}
    (hl : (s.loop L).advance a = some l)
    (hpoll : ∀ active, a = .poll active → ∀ b ∈ active, b.RoutedTo s.home L) :
    Keeps s (s.setLoop L l) := by
  obtain ⟨hwf, hwaiting⟩ := (h.loops L).advance hl
  refine h.setLoop hwf (fun f hf => h.functors L f ?_) fun b hb => ?_
  · rw [hwaiting]
    exact List.mem_append_right _ hf
  · rcases EventLoop.advance_active hl with hsame | hnone | rfl | rfl
    · exact h.active L b (hsame ▸ hb)
    · rw [hnone] at hb
      cases hb
    · cases EventLoop.advances hl with
      | handleWakeup _ rest hactive | handleChannel _ _ rest hactive =>
        exact h.active L b (hactive ▸ List.mem_cons_of_mem _ hb)
    · exact hpoll _ rfl b hb

/-- **Every step keeps everything on its thread.** -/
theorem Routed.step (h : s.Routed) {act : ThreadAct} (hstep : s.step act = some t) :
    Keeps s t := by
  have hdoes := step_does hstep
  cases act with
  | loopStep L a =>
    obtain ⟨_, henabled, l, hl, rfl⟩ := hdoes
    refine h.advance hl ?_
    rintro active rfl b hb
    exact (henabled b hb).routed h
  | handleEvent L fd =>
    obtain ⟨_, a, rest, l, hchannels, hl, rfl⟩ := hdoes
    have hset := h.advance hl (fun active heq => by cases heq)
    have ha := h.active L a (hchannels ▸ List.mem_cons_self)
    exact hset.trans (handleActive_keeps hset.routed ha fd)
  | callFunctor L res =>
    obtain ⟨_, f, rest, l, hfunctors, hl, rfl⟩ := hdoes
    have hset := h.advance hl (fun active heq => by cases heq)
    have hf : f ∈ (s.loop L).waiting :=
      List.mem_append_left _ (hfunctors ▸ List.mem_cons_self)
    exact hset.trans (callFunctor_keeps hset.routed (h.functors L f hf) res)
  | task T readRes res =>
    obtain ⟨_, task, rest, htodo, rfl⟩ := hdoes
    have hpop : Keeps s (s.setTodo T rest) := h.setTodo fun c t hin =>
      h.tasks T c t (htodo ▸ List.mem_cons_of_mem _ hin)
    refine hpop.trans (runTask_keeps hpop.routed T readRes res ?_)
    rintro c t rfl
    exact h.tasks T c t (htodo ▸ List.mem_cons_self)
  | start T =>
    obtain ⟨_, rfl⟩ := hdoes
    exact start_keeps h T
  | userCall T c request => exact userCall_keeps h hdoes.2
  | proceed T res =>
    obtain ⟨call, _, hproceed⟩ := hdoes
    exact proceed_keeps h hproceed
  | userQueue T L =>
    obtain ⟨_, rfl⟩ := hdoes
    have huser : JobRouted s.home L (.functor .user) := trivial
    exact h.queueInLoop T huser
  | quit T L =>
    obtain ⟨_, rfl⟩ := hdoes
    have hstopped : ({ s.loop L with quit := true } : EventLoop Source Job).WF :=
      ⟨(h.loops L).batch, (h.loops L).flag⟩
    have hwoken : ({ s.loop L with quit := true } : EventLoop Source Job).wakeup.WF :=
      ⟨(h.loops L).batch, (h.loops L).flag⟩
    unfold quit
    split
    · exact h.setLoop hstopped (h.functors L) (h.active L)
    · exact h.setLoop hwoken (h.functors L) (h.active L)
  | destroyServer order =>
    obtain ⟨horder, rfl⟩ := hdoes
    exact destroyServer_keeps h horder.2.1

theorem Routed.initial {name : Name} {listenAddr : InetAddress} {writeCompleteCallback : Bool}
    {pool : List LoopId} : (init name listenAddr writeCompleteCallback pool).Routed := by
  refine ⟨fun _ => .new, ?_, ?_, ?_, ?_, fun _ _ => rfl, ?_⟩
  · intro L f hf
    cases hf
  · intro T c t hin
    cases hin
  · intro L a ha
    cases ha
  · intro L fd events c hin
    cases hin
  · intro T a hin
    cases hin

/-- **Thread confinement.**  In every run, whatever is done to a poller, to a connection,
    to the user or to the server is done by the thread that it belongs to. -/
theorem thread_confinement {name : Name} {listenAddr : InetAddress} {writeCompleteCallback : Bool}
    {pool : List LoopId} {acts : List ThreadAct}
    (hrun : Runs.run step (init name listenAddr writeCompleteCallback pool) acts = some s) :
    ∀ T a, (T, a) ∈ s.log → s.Confined T a :=
  (Runs.run_induction (I := Routed) (fun _ _ _ h hstep => (h.step hstep).routed) .initial hrun).log

/-- Another thread starts the server and sends on its first connection. -/
def closedAfterSend : List ThreadAct :=
  [.start (.user 0), .loopStep 0 .enter, .loopStep 0 .resetQuit, .loopStep 1 .enter,
    .loopStep 1 .resetQuit, .loopStep 0 .test, .loopStep 0 (.poll [.wakeupChannel]),
    .handleEvent 0 none, .loopStep 0 .beginPending, .loopStep 0 .swap, .callFunctor 0 (.ok 0),
    .loopStep 0 .endPending,
    .loopStep 0 .test, .loopStep 0 (.poll [.channel .acceptor]), .handleEvent 0 (some 5),
    .loopStep 0 .beginPending, .loopStep 0 .swap, .loopStep 0 .endPending,
    -- `connectEstablished`
    .loopStep 1 .test, .loopStep 1 (.poll [.wakeupChannel]), .handleEvent 1 none,
    .loopStep 1 .beginPending, .loopStep 1 .swap, .callFunctor 1 (.ok 0),
    .task (.loop 1) (.ok []) (.ok 0), .task (.loop 1) (.ok []) (.ok 0),
    -- `send` in the user's thread
    .userCall (.user 0) 0 (.send [7]), .proceed (.user 0) (.ok 0),
    .loopStep 1 .endPending, .loopStep 1 .test, .loopStep 1 (.poll [.wakeupChannel]),
    .handleEvent 1 none, .loopStep 1 .beginPending, .loopStep 1 .swap, .callFunctor 1 (.ok 1),
    .loopStep 1 .endPending,
    -- a read of 0 bytes, `handleClose` and `removeConnection`
    .loopStep 1 .test, .loopStep 1 (.poll [.channel (.conn 0 { epollIn := true })]),
    .handleEvent 1 none, .task (.loop 1) (.ok []) (.ok 0), .task (.loop 1) (.ok []) (.ok 0),
    .task (.loop 1) (.ok []) (.ok 0), .task (.loop 1) (.ok []) (.ok 0),
    .loopStep 0 .test, .loopStep 0 (.poll [.wakeupChannel]), .handleEvent 0 none,
    .loopStep 0 .beginPending, .loopStep 0 .swap, .callFunctor 0 (.ok 0),
    -- `connectDestroyed`
    .loopStep 1 .beginPending, .loopStep 1 .swap, .callFunctor 1 (.ok 0)]

theorem closedAfterSend_confined :
    ∃ s, Runs.run step (init ['s'] ⟨(127, 0, 0, 1), 80⟩ false [1]) closedAfterSend = some s
      ∧ (Thread.loop 0, .server) ∈ s.log
      ∧ (Thread.loop 1, .run 0 (.sendInLoop [7] (.ok 1))) ∈ s.log
      ∧ (Thread.loop 1, .removeChannel (some 0) 1) ∈ s.log
      ∧ ∀ T a, (T, a) ∈ s.log → s.Confined T a := by
  obtain ⟨s, hs, hserver, hsend, hremove⟩ : ∃ s,
      Runs.run step (init ['s'] ⟨(127, 0, 0, 1), 80⟩ false [1]) closedAfterSend = some s
        ∧ (Thread.loop 0, .server) ∈ s.log
        ∧ (Thread.loop 1, .run 0 (.sendInLoop [7] (.ok 1))) ∈ s.log
        ∧ (Thread.loop 1, .removeChannel (some 0) 1) ∈ s.log := by
    refine ⟨_, rfl, ?_⟩
    decide +kernel
  exact ⟨s, hs, hserver, hsend, hremove, thread_confinement hs⟩

end ThreadSystem

end Ymuduo
