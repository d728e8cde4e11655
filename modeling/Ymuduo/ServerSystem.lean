/-
  Ymuduo/ServerSystem.lean
  ========================
  **A `TcpServer`, its loops, its connections and their users.**

  The main loop accepts connections and keeps them in `connections_`; the I/O loops
  run them; closing one is a hand-off from its loop to the main loop and back.  With
  an empty thread pool the main loop is the only one, and `runInLoop` runs at once.

  A function of a connection runs in one step up to the next callback of the user
  or of the server; what is left of it then waits in `todo` of its loop, and the
  other threads go on.  Inside a callback the user calls `send` and `shutdown` of
  any connection it has a pointer to, each call one step; so do other threads.

  The kernel chooses what the polls report, the results of the system calls and the
  descriptor of a new connection, which is not one that is open.

  Two things are not runs of this system.  `shutdown` of another thread is not interrupted
  between its test of `state_` and its store, so that `kDisconnecting` is never stored over
  `kDisconnected`; and no report is odd (`EpollEvents.IsOdd`), so that no `handleRead` follows
  a `handleClose`.  `StateRace` and `CloseOnce` say what they do to a connection.
-/
import Ymuduo.HalfClose
import Ymuduo.TcpServer

namespace Ymuduo

/-- `EPOLLHUP` with `EPOLLPRI`, but without `EPOLLIN`: `handleEventWithGuard` calls
    `closeCallback_` and then `readCallback_`. -/
def EpollEvents.IsOdd (revents : EpollEvents) : Bool :=
  revents.epollHup && revents.epollPri && !revents.epollIn

/-- What `epoll_wait` reports besides the wakeup channel. -/
inductive Source where
  | acceptor
  | conn (c : ConnId) (revents : EpollEvents)
deriving DecidableEq, Repr

inductive Functor where
  | conn (c : ConnId) (f : ConnFunctor)
  | removeConnectionInLoop (c : ConnId)
  | user
deriving DecidableEq, Repr

/-- What a loop thread still has to do for a connection.  `user` is the user's code
    in a callback. -/
inductive ConnTask where
  | callback (cb : EventCallback)
  | effect (e : Effect)
  | connectDestroyed
  | user
deriving DecidableEq, Repr

/-- What a loop thread still has to do before it goes on in `loop()`.  A task of a
    connection keeps it alive; `user` is a functor of the user's own. -/
inductive Task where
  | conn (c : ConnId) (t : ConnTask)
  | user
deriving DecidableEq, Repr

/-- The task, if it is one of the connection. -/
def Task.of (c : ConnId) : Task → Option ConnTask
  | .conn d t => if d = c then some t else none
  | .user => none

/-- The functor captures a `TcpConnectionPtr` to `c`. -/
def Functor.Captures (c : ConnId) : Functor → Prop
  | .conn _ (.sendInLoop _) | .conn _ .shutdownInLoop => False
  | .conn d _ | .removeConnectionInLoop d => d = c
  | .user => False

instance (c : ConnId) : (f : Functor) → Decidable (f.Captures c)
  | .conn _ (.sendInLoop _) | .conn _ .shutdownInLoop => inferInstanceAs (Decidable False)
  | .conn d .connectEstablished | .conn d .connectDestroyed | .conn d .writeComplete
  | .conn d (.highWaterMark _) | .removeConnectionInLoop d => inferInstanceAs (Decidable (d = c))
  | .user => inferInstanceAs (Decidable False)

/-! ### Connections -/

inductive LifeStep where
  | newConnection
  | connectEstablished
  | handleClose
  | removeConnectionInLoop
  | connectDestroyed
deriving DecidableEq, Repr

/-- A callback to the user, with the value of `connected()` in it. -/
inductive UserEvent where
  | connection (connected : Bool)
  | message
deriving DecidableEq, Repr

/-- A connection object with its history.  `alive`: not destroyed, so its descriptor
    is open.  `steps` has `connectDestroyed` when that has finished, `found` is the
    state in which it started. -/
structure ConnRecord where
  conn : TcpConnection
  alive : Bool
  steps : List LifeStep
  trace : List UserEvent
  found : Option StateE

/-- The life-cycle steps that an operation is; only `handleClose` calls `closeCallback_`. -/
def lifeSteps (op : ConnOp) (effects : List Effect) : List LifeStep :=
  if op = .connectEstablished then [.connectEstablished]
  else if .closeCallback ∈ effects then [.handleClose] else []

namespace ConnRecord

/-- The record when a member function runs; its effects are still to come. -/
def exec (r : ConnRecord) (op : ConnOp) : ConnRecord :=
  { r with
    conn := (r.conn.exec op).1
    steps := r.steps ++ lifeSteps op (r.conn.exec op).2
    found := if op = .connectDestroyed then some r.conn.state else r.found }

def setChannel (r : ConnRecord) (ch : Channel) : ConnRecord :=
  { r with conn := { r.conn with channel := ch } }

def addStep (r : ConnRecord) (step : LifeStep) : ConnRecord :=
  { r with steps := r.steps ++ [step] }

def addEvent (r : ConnRecord) (event : UserEvent) : ConnRecord :=
  { r with trace := r.trace ++ [event] }

end ConnRecord

structure ServerSystem where
  loop : LoopId → EventLoop Source Functor
  todo : LoopId → List Task
  poller : LoopId → EPollPoller ConnId
  server : TcpServer
  conns : ConnId → Option ConnRecord
  accepted : Nat
  copies : ConnId → Nat             -- `TcpConnectionPtr`s that the user keeps
  aborted : Option Fault

/-- A thread that runs the user's code. -/
inductive UserThread where
  | loop (L : LoopId)
  | other
deriving DecidableEq, Repr

inductive ServerAct where
  | loopStep (L : LoopId) (a : LoopStep Source)
  | handleEvent (L : LoopId) (fd : Option Fd)
  | callFunctor (L : LoopId) (res : SysResult)
  | task (L : LoopId) (readRes : ReadvResult) (res : SysResult)
  | userCall (who : UserThread) (c : ConnId) (request : Request) (res : SysResult)
  | userCopy (who : UserThread) (c : ConnId)
  | userDrop (c : ConnId)
  | userQueue (L : LoopId) (isInLoopThread : Bool)
  | quit (L : LoopId)
  | destroy (c : ConnId)
  | destroyServer (order : List ConnId)
deriving DecidableEq, Repr

namespace ServerSystem

def start (server : TcpServer) : ServerSystem where
  loop := fun _ => .new
  todo := fun _ => []
  poller := fun _ => .new
  server := server
  conns := fun _ => none
  accepted := 0
  copies := fun _ => 0
  aborted := none

/-! ### Updates -/

def setLoop (s : ServerSystem) (L : LoopId) (l : EventLoop Source Functor) : ServerSystem :=
  { s with loop := Function.update s.loop L l }

def setTodo (s : ServerSystem) (L : LoopId) (tasks : List Task) : ServerSystem :=
  { s with todo := Function.update s.todo L tasks }

def setPoller (s : ServerSystem) (L : LoopId) (p : EPollPoller ConnId) : ServerSystem :=
  { s with poller := Function.update s.poller L p }

def setConn (s : ServerSystem) (c : ConnId) (r : ConnRecord) : ServerSystem :=
  { s with conns := Function.update s.conns c (some r) }

def abort (s : ServerSystem) (fault : Fault) : ServerSystem := { s with aborted := some fault }

def queueInLoop (s : ServerSystem) (isInLoopThread : Bool) (L : LoopId) (f : Functor) :
    ServerSystem :=
  s.setLoop L ((s.loop L).queueInLoop isInLoopThread f)

def pushTasks (s : ServerSystem) (L : LoopId) (tasks : List Task) : ServerSystem :=
  s.setTodo L (tasks ++ s.todo L)

section Updates

variable (s : ServerSystem) {L M : LoopId} {c d : ConnId}

theorem loop_setLoop (L : LoopId) (l : EventLoop Source Functor) : (s.setLoop L l).loop L = l :=
  Function.update_self ..

theorem loop_setLoop_ne (l : EventLoop Source Functor) (h : M ≠ L) :
    (s.setLoop L l).loop M = s.loop M :=
  Function.update_of_ne h ..

theorem todo_setTodo (L : LoopId) (tasks : List Task) : (s.setTodo L tasks).todo L = tasks :=
  Function.update_self ..

theorem todo_setTodo_ne (tasks : List Task) (h : M ≠ L) :
    (s.setTodo L tasks).todo M = s.todo M :=
  Function.update_of_ne h ..

theorem conns_setConn (c : ConnId) (r : ConnRecord) : (s.setConn c r).conns c = some r :=
  Function.update_self ..

theorem conns_setConn_ne (r : ConnRecord) (h : d ≠ c) : (s.setConn c r).conns d = s.conns d :=
  Function.update_of_ne h ..

end Updates

/-! ### The functions of a connection -/

/-- An effect that is no callback. -/
def perform (s : ServerSystem) (c : ConnId) (e : Effect) : ServerSystem :=
  match s.conns c with
  | none => s
  | some r =>
    match e with
    | .updateChannel =>
      match (s.poller r.conn.loop).updateChannel c r.conn.channel with
      | .ok (p, ch) => (s.setPoller r.conn.loop p).setConn c (r.setChannel ch)
      | .error fault => s.abort fault
    | .removeChannel =>
      -- the last thing that `connectDestroyed` does
      match (s.poller r.conn.loop).removeChannel c r.conn.channel with
      | .ok (p, ch) =>
        (s.setPoller r.conn.loop p).setConn c ((r.setChannel ch).addStep .connectDestroyed)
      | .error fault => s.abort fault
    | .queueInLoop f => s.queueInLoop true r.conn.loop (.conn c f)
    | .assertion fault holds => if holds then s else s.abort fault
    | .write _ | .shutdownWrite | .connectionCallback | .messageCallback | .closeCallback => s

def isCallback : Effect → Bool
  | .connectionCallback | .messageCallback | .closeCallback => true
  | _ => false

/-- Perform the effects up to the first callback; the rest waits. -/
def runEffects (s : ServerSystem) (L : LoopId) (c : ConnId) : List Effect → ServerSystem
  | [] => s
  | e :: es =>
    if isCallback e then s.pushTasks L ((e :: es).map fun e => .conn c (.effect e))
    else (s.perform c e).runEffects L c es

/-- Run a member function on the loop thread of the connection. -/
def run (s : ServerSystem) (c : ConnId) (op : ConnOp) : ServerSystem :=
  match s.conns c with
  | none => s
  | some r =>
    if r.alive then
      (s.setConn c (r.exec op)).runEffects r.conn.loop c (r.conn.exec op).2
    else s.abort .useAfterFree

/-! ### The functions of the server -/

/-- No living connection has the descriptor. -/
def FdFree (s : ServerSystem) (fd : Fd) : Prop :=
  ∀ c < s.accepted, ∀ r ∈ s.conns c, r.alive = true → r.conn.channel.fd ≠ fd

instance (s : ServerSystem) (fd : Fd) : Decidable (s.FdFree fd) :=
  inferInstanceAs (Decidable (∀ c < s.accepted, ∀ r ∈ s.conns c, r.alive = true → _))

/-- `newConnection` up to its `runInLoop`. -/
def insertConnection (s : ServerSystem) (fd : Fd) : ServerSystem :=
  let name := s.server.connName s.server.nextConnId
  let conn := TcpConnection.new s.server.getNextLoop.1 name fd s.server.writeCompleteCallback
    false TcpConnection.defaultHighWaterMark
  let inserted := { s with
    accepted := s.accepted + 1
    server := { s.server with
      next := s.server.getNextLoop.2
      nextConnId := TcpServer.nextId s.server.nextConnId
      connections := Function.update s.server.connections name (some s.accepted) } }
  inserted.setConn s.accepted
    { conn := conn, alive := true, steps := [.newConnection], trace := [], found := none }

/-- `newConnection`, on the main loop. -/
def newConnection (s : ServerSystem) (fd : Fd) : ServerSystem :=
  if s.server.getNextLoop.1 = mainLoop then
    (s.insertConnection fd).run s.accepted .connectEstablished
  else
    (s.insertConnection fd).queueInLoop false s.server.getNextLoop.1
      (.conn s.accepted .connectEstablished)

/-- `removeConnectionInLoop`, on the main loop. -/
def removeConnectionInLoop (s : ServerSystem) (c : ConnId) : ServerSystem :=
  if s.server.alive then
    match s.conns c with
    | none => s
    | some r =>
      let erased := { s with server := { s.server with
        connections := Function.update s.server.connections r.conn.name none } }
      (erased.setConn c (r.addStep .removeConnectionInLoop)).queueInLoop
        (r.conn.loop = mainLoop) r.conn.loop (.conn c .connectDestroyed)
  else s.abort .useAfterFree

/-- `removeConnection`, the `closeCallback_`, on the loop `L`. -/
def removeConnection (s : ServerSystem) (L : LoopId) (c : ConnId) : ServerSystem :=
  if s.server.alive then
    if L = mainLoop then s.removeConnectionInLoop c
    else s.queueInLoop false mainLoop (.removeConnectionInLoop c)
  else s.abort .useAfterFree

/-- `Acceptor::handleRead`; `fd` is what `accept` returns. -/
def acceptorHandleRead (s : ServerSystem) (fd : Option Fd) : Option ServerSystem :=
  if s.server.alive then
    match fd with
    | none => some s
    | some fd => if s.FdFree fd then some (s.newConnection fd) else none
  else some (s.abort .useAfterFree)

/-! ### The loop threads -/

/-- A callback of the user begins. -/
def userCallback (s : ServerSystem) (L : LoopId) (c : ConnId) (event : ConnRecord → UserEvent) :
    ServerSystem :=
  match s.conns c with
  | none => s
  | some r =>
    (s.setConn c (r.addEvent (event r))).pushTasks L [.conn c .user]

def runEffect (s : ServerSystem) (L : LoopId) (c : ConnId) : Effect → ServerSystem
  | .connectionCallback => s.userCallback L c fun r => .connection r.conn.connected
  | .messageCallback => s.userCallback L c fun _ => .message
  | .closeCallback => s.removeConnection L c
  | e => s.perform c e

/-- What a callback of the channel runs; `handleError` only logs. -/
def callbackOp (readRes : ReadvResult) (res : SysResult) : EventCallback → Option ConnOp
  | .close => some .handleClose
  | .error => none
  | .read => some (.handleRead readRes)
  | .write => some (.handleWrite res)

/-- The loop thread `L` does a task that it has taken from `todo`; the user's code
    returns. -/
def runTask (s : ServerSystem) (L : LoopId) (readRes : ReadvResult) (res : SysResult) :
    Task → ServerSystem
  | .conn c (.callback cb) =>
    match callbackOp readRes res cb with
    | some op => s.run c op
    | none => s
  | .conn c (.effect e) => s.runEffect L c e
  | .conn c .connectDestroyed => s.run c .connectDestroyed
  | .conn _ .user | .user => s

def runFunctor (s : ServerSystem) (L : LoopId) (res : SysResult) : Functor → ServerSystem
  | .conn c f =>
    match f.op res with
    | some op => s.run c op
    | none => s.pushTasks L [.conn c .user]
  | .removeConnectionInLoop c => s.removeConnectionInLoop c
  | .user => s.pushTasks L [.user]

/-- `handleEvent` of an active channel. -/
def handleActive (s : ServerSystem) (L : LoopId) (fd : Option Fd) :
    ActiveChannel Source → Option ServerSystem
  | .wakeupChannel => some s
  | .channel .acceptor => s.acceptorHandleRead fd
  | .channel (.conn c revents) =>
    (s.conns c).map fun r =>
      if r.alive then
        s.pushTasks L
          ((Channel.handleEventWithGuard revents).map fun cb => .conn c (.callback cb))
      else s.abort .useAfterFree

/-- What a poll may report: registered channels, and nothing odd. -/
def Reported (s : ServerSystem) (L : LoopId) : ActiveChannel Source → Prop
  | .wakeupChannel => True
  | .channel .acceptor => L = mainLoop ∧ s.server.alive = true
  | .channel (.conn c revents) =>
    (∃ r ∈ s.conns c, r.conn.loop = L
        ∧ ((s.poller L).interest r.conn.channel.fd).map Prod.snd = some c)
      ∧ revents.IsOdd = false

instance (s : ServerSystem) (L : LoopId) : (a : ActiveChannel Source) → Decidable (s.Reported L a)
  | .wakeupChannel => inferInstanceAs (Decidable True)
  | .channel .acceptor => inferInstanceAs (Decidable (_ ∧ _))
  | .channel (.conn _ _) => inferInstanceAs (Decidable (_ ∧ _))

/-- The channel, without its `revents_`. -/
def channelOf : ActiveChannel Source → Option (Option ConnId)
  | .wakeupChannel => none
  | .channel .acceptor => some none
  | .channel (.conn c _) => some (some c)

/-- The steps of `loop()` between the calls it makes. -/
def LoopStepEnabled (s : ServerSystem) (L : LoopId) : LoopStep Source → Prop
  | .handleEvent | .callFunctor => False
  | .poll active => (active.map channelOf).Nodup ∧ ∀ a ∈ active, s.Reported L a
  | _ => True

instance (s : ServerSystem) (L : LoopId) : (a : LoopStep Source) → Decidable (s.LoopStepEnabled L a)
  | .handleEvent | .callFunctor => inferInstanceAs (Decidable False)
  | .poll _ => inferInstanceAs (Decidable (_ ∧ _))
  | .enter | .resetQuit | .test | .beginPending | .swap | .endPending =>
    inferInstanceAs (Decidable True)

/-! ### The user -/

/-- Where the thread of `L` runs the user's code: `some` of the pointer that the
    callback got, if it got one. -/
def userArgument (s : ServerSystem) (L : LoopId) : Option (Option ConnId) :=
  match s.todo L with
  | [] => if (s.loop L).pc = .outside ∨ (s.loop L).pc = .returned then some none else none
  | .conn c .user :: _ => some (some c)
  | .user :: _ => some none
  | _ => none

/-- The user's code on the thread has a pointer to the connection. -/
def CanUse (s : ServerSystem) (c : ConnId) : UserThread → Prop
  | .other => 0 < s.copies c
  | .loop L => ∃ argument ∈ s.userArgument L, argument = some c ∨ 0 < s.copies c

instance (s : ServerSystem) (c : ConnId) : (who : UserThread) → Decidable (s.CanUse c who)
  | .other => inferInstanceAs (Decidable (0 < s.copies c))
  | .loop _ => inferInstanceAs (Decidable (∃ _ ∈ _, _))

/-- `send` or `shutdown` by the user, not interrupted. -/
def userCall (s : ServerSystem) (who : UserThread) (c : ConnId) (request : Request)
    (res : SysResult) : Option ServerSystem :=
  (s.conns c).map fun r =>
    let isInLoopThread : Bool := who = .loop r.conn.loop
    let called := s.setConn c { r with conn := (request.call r.conn isInLoopThread).1 }
    match (request.call r.conn isInLoopThread).2 with
    | .nothing => called
    | .run f =>
      match f.op res with
      | some op => called.run c op
      | none => called
    | .queue f => called.queueInLoop false r.conn.loop (.conn c f)

/-! ### Destruction -/

/-- Some `TcpConnectionPtr` to the connection exists. -/
def Held (s : ServerSystem) (c : ConnId) (r : ConnRecord) : Prop :=
  s.server.connections r.conn.name = some c ∨ 0 < s.copies c
    ∨ ∃ L ∈ mainLoop :: s.server.loops, (∃ t ∈ s.todo L, (t.of c).isSome)
      ∨ ∃ f ∈ (s.loop L).called ++ (s.loop L).waiting, f.Captures c

instance (s : ServerSystem) (c : ConnId) (r : ConnRecord) : Decidable (s.Held c r) :=
  inferInstanceAs (Decidable (_ ∨ _))

/-- `~TcpConnection`, at some time after the last pointer is gone. -/
def destroy (s : ServerSystem) (c : ConnId) : Option ServerSystem :=
  (s.conns c).bind fun r =>
    if r.alive = true ∧ ¬ s.Held c r then
      if r.conn.state = .kDisconnected then some (s.setConn c { r with alive := false })
      else some (s.abort .destructorAssert)
    else none

/-- The connection is in `connections_`. -/
def InMap (s : ServerSystem) (c : ConnId) : Prop :=
  ∃ r ∈ s.conns c, s.server.connections r.conn.name = some c

instance (s : ServerSystem) (c : ConnId) : Decidable (s.InMap c) :=
  inferInstanceAs (Decidable (∃ _ ∈ _, _))

def loopOf (s : ServerSystem) (c : ConnId) : LoopId := ((s.conns c).map (·.conn.loop)).getD mainLoop

/-- The loop of `~TcpServer` over `connections_`: on another loop `connectDestroyed` is
    queued, on the main loop it runs at once, one connection after the other. -/
def destroyServer (s : ServerSystem) (order : List ConnId) : ServerSystem :=
  let dying := { s with server := { s.server with
    alive := false, connections := fun _ => none } }
  let queued := (order.filter (s.loopOf · ≠ mainLoop)).foldl
    (fun t c => t.queueInLoop false (s.loopOf c) (.conn c .connectDestroyed)) dying
  queued.pushTasks mainLoop
    ((order.filter (s.loopOf · = mainLoop)).map fun c => .conn c .connectDestroyed)

/-- The connections of `connections_`, in the order in which the map has them. -/
def IsOrder (s : ServerSystem) (order : List ConnId) : Prop :=
  order.Nodup ∧ (∀ c ∈ order, s.InMap c) ∧ ∀ c < s.accepted, s.InMap c → c ∈ order

instance (s : ServerSystem) (order : List ConnId) : Decidable (s.IsOrder order) :=
  inferInstanceAs (Decidable (_ ∧ _ ∧ _))

/-! ### Steps -/

def step (s : ServerSystem) (act : ServerAct) : Option ServerSystem :=
  if s.aborted = none then
    match act with
    | .loopStep L a =>
      if s.todo L = [] ∧ s.LoopStepEnabled L a then
        ((s.loop L).advance a).map fun l => s.setLoop L l
      else none
    | .handleEvent L fd =>
      if s.todo L = [] then
        match (s.loop L).activeChannels with
        | [] => none
        | a :: _ =>
          ((s.loop L).advance .handleEvent).bind fun l => (s.setLoop L l).handleActive L fd a
      else none
    | .callFunctor L res =>
      if s.todo L = [] then
        match (s.loop L).functors with
        | [] => none
        | f :: _ =>
          ((s.loop L).advance .callFunctor).map fun l => (s.setLoop L l).runFunctor L res f
      else none
    | .task L readRes res =>
      match s.todo L with
      | [] => none
      | t :: rest => some ((s.setTodo L rest).runTask L readRes res t)
    | .userCall who c request res =>
      if s.CanUse c who then s.userCall who c request res else none
    | .userCopy who c =>
      if s.CanUse c who then
        some { s with copies := Function.update s.copies c (s.copies c + 1) }
      else none
    | .userDrop c =>
      if 0 < s.copies c then
        some { s with copies := Function.update s.copies c (s.copies c - 1) }
      else none
    | .userQueue L isInLoopThread => some (s.queueInLoop isInLoopThread L .user)
    | .quit L => some (s.setLoop L { (s.loop L).wakeup with quit := true })
    | .destroy c => s.destroy c
    | .destroyServer order =>
      if s.server.alive = true ∧ (s.userArgument mainLoop).isSome ∧ s.IsOrder order then
        some (s.destroyServer order)
      else none
  else none

/-- What a step finds, and what it does. -/
def Does (s t : ServerSystem) : ServerAct → Prop
  | .loopStep L a => s.todo L = [] ∧ s.LoopStepEnabled L a
    ∧ ∃ l, (s.loop L).advance a = some l ∧ t = s.setLoop L l
  | .handleEvent L fd => s.todo L = [] ∧ ∃ a rest l, (s.loop L).activeChannels = a :: rest
    ∧ (s.loop L).advance .handleEvent = some l ∧ (s.setLoop L l).handleActive L fd a = some t
  | .callFunctor L res => s.todo L = [] ∧ ∃ f rest l, (s.loop L).functors = f :: rest
    ∧ (s.loop L).advance .callFunctor = some l ∧ t = (s.setLoop L l).runFunctor L res f
  | .task L readRes res => ∃ task rest, s.todo L = task :: rest
    ∧ t = (s.setTodo L rest).runTask L readRes res task
  | .userCall who c request res => s.CanUse c who ∧ s.userCall who c request res = some t
  | .userCopy who c => s.CanUse c who
    ∧ t = { s with copies := Function.update s.copies c (s.copies c + 1) }
  | .userDrop c => 0 < s.copies c
    ∧ t = { s with copies := Function.update s.copies c (s.copies c - 1) }
  | .userQueue L isInLoopThread => t = s.queueInLoop isInLoopThread L .user
  | .quit L => t = s.setLoop L { (s.loop L).wakeup with quit := true }
  | .destroy c => s.destroy c = some t
  | .destroyServer order => (s.server.alive = true ∧ (s.userArgument mainLoop).isSome
    ∧ s.IsOrder order) ∧ t = s.destroyServer order

/-- An abort is the end. -/
theorem running_of_step {s t : ServerSystem} {act : ServerAct} (hstep : s.step act = some t) :
    s.aborted = none := by
  by_contra hne
  simp [step, hne] at hstep

theorem step_does {s t : ServerSystem} {act : ServerAct} (hstep : s.step act = some t) :
    Does s t act := by
  unfold step at hstep
  rw [if_pos (running_of_step hstep)] at hstep
  cases act with
  | loopStep L a =>
    simp only [Option.ite_none_right_eq_some] at hstep
    obtain ⟨⟨htodo, henabled⟩, hstep⟩ := hstep
    obtain ⟨l, hl, rfl⟩ := Option.map_eq_some_iff.mp hstep
    exact ⟨htodo, henabled, l, hl, rfl⟩
  | handleEvent L fd =>
    simp only [Option.ite_none_right_eq_some] at hstep
    obtain ⟨htodo, hstep⟩ := hstep
    cases hchannels : (s.loop L).activeChannels with
    | nil => simp [hchannels] at hstep
    | cons a rest =>
      simp only [hchannels] at hstep
      obtain ⟨l, hl, hactive⟩ := Option.bind_eq_some_iff.mp hstep
      exact ⟨htodo, a, rest, l, hchannels, hl, hactive⟩
  | callFunctor L res =>
    simp only [Option.ite_none_right_eq_some] at hstep
    obtain ⟨htodo, hstep⟩ := hstep
    cases hfunctors : (s.loop L).functors with
    | nil => simp [hfunctors] at hstep
    | cons f rest =>
      simp only [hfunctors] at hstep
      obtain ⟨l, hl, rfl⟩ := Option.map_eq_some_iff.mp hstep
      exact ⟨htodo, f, rest, l, hfunctors, hl, rfl⟩
  | task L readRes res =>
    cases htodo : s.todo L with
    | nil => simp [htodo] at hstep
    | cons task rest =>
      simp only [htodo, Option.some.injEq] at hstep
      exact ⟨task, rest, htodo, hstep.symm⟩
  | userCall who c request res =>
    rw [Option.ite_none_right_eq_some] at hstep
    exact hstep
  | userCopy who c =>
    rw [Option.ite_none_right_eq_some] at hstep
    exact ⟨hstep.1, (Option.some.inj hstep.2).symm⟩
  | userDrop c =>
    rw [Option.ite_none_right_eq_some] at hstep
    exact ⟨hstep.1, (Option.some.inj hstep.2).symm⟩
  | userQueue L isInLoopThread => exact (Option.some.inj hstep).symm
  | quit L => exact (Option.some.inj hstep).symm
  | destroy c => exact hstep
  | destroyServer order =>
    rw [Option.ite_none_right_eq_some] at hstep
    exact ⟨hstep.1, (Option.some.inj hstep.2).symm⟩

end ServerSystem

end Ymuduo
