/-
  Ymuduo/CloseOnce.lean
  =====================
  **How often one connection is closed.**

  An established connection on its loop: the poll reports it with any `revents_` while it
  is in the epoll set, `handleEventWithGuard` calls one callback after the other, and in
  between the user calls `send` and `shutdown`.  A call of another thread is several steps:
  the test of `state_`, the store of `kDisconnecting`, and `queueInLoop`.  The callback of
  the server leads over `removeConnectionInLoop` to `connectDestroyed`; `~TcpServer` leads
  there too.

  After `handleClose` the channel is out of the epoll set, and stays out as long as no
  `shutdown()` stores `kDisconnecting` over `kDisconnected`.  Then only a callback of the
  same report can follow.  That is `handleRead`, if the report has `EPOLLHUP` and `EPOLLPRI`
  but not `EPOLLIN`, and it closes again or delivers a message, unless its read fails
  (`closed_once_iff`).
-/
import Ymuduo.ConnLife

namespace Ymuduo

/-! ### The callbacks of one report -/

namespace Channel

theorem handleEventWithGuard_sublist (revents : EpollEvents) :
    List.Sublist (handleEventWithGuard revents) [.close, .error, .read, .write] := by
  obtain ⟨epollIn, epollPri, epollOut, epollErr, epollHup⟩ := revents
  revert epollIn epollPri epollOut epollErr epollHup
  decide

theorem close_mem_handleEventWithGuard {revents : EpollEvents} :
    .close ∈ handleEventWithGuard revents ↔ revents.epollHup = true ∧ revents.epollIn = false := by
  obtain ⟨epollIn, epollPri, epollOut, epollErr, epollHup⟩ := revents
  revert epollIn epollPri epollOut epollErr epollHup
  decide

theorem read_mem_handleEventWithGuard {revents : EpollEvents} :
    .read ∈ handleEventWithGuard revents
      ↔ revents.epollIn = true ∨ revents.epollPri = true := by
  obtain ⟨epollIn, epollPri, epollOut, epollErr, epollHup⟩ := revents
  revert epollIn epollPri epollOut epollErr epollHup
  decide

/-- A hang-up and a read come in one report only if it is odd. -/
theorem isOdd_of_close_read {revents : EpollEvents} (hclose : .close ∈ handleEventWithGuard revents)
    (hread : .read ∈ handleEventWithGuard revents) : revents.IsOdd = true := by
  rw [close_mem_handleEventWithGuard] at hclose
  rw [read_mem_handleEventWithGuard, hclose.2] at hread
  have hpri : revents.epollPri = true := hread.resolve_left Bool.false_ne_true
  simp [EpollEvents.IsOdd, hclose.1, hclose.2, hpri]

end Channel

/-! ### The system -/

/-- A `handleClose` that begins, and the callbacks of the user and of the server. -/
inductive CloseEvent where
  | handleClose
  | connectionCallback
  | messageCallback
  | closeCallback
deriving DecidableEq, Repr

/-- A second close, and a message after a close, are not in order. -/
def CloseEvent.InOrder : CloseEvent → CloseEvent → Prop
  | .handleClose, .handleClose | .handleClose, .messageCallback
  | .closeCallback, .closeCallback | .closeCallback, .messageCallback => False
  | _, _ => True

instance : (a b : CloseEvent) → Decidable (a.InOrder b)
  | .handleClose, .handleClose | .handleClose, .messageCallback
  | .closeCallback, .closeCallback | .closeCallback, .messageCallback =>
    inferInstanceAs (Decidable False)
  | .handleClose, .connectionCallback | .handleClose, .closeCallback
  | .closeCallback, .handleClose | .closeCallback, .connectionCallback
  | .connectionCallback, _ | .messageCallback, _ => inferInstanceAs (Decidable True)

/-- What is left of a call by another thread that has found `kConnected`. -/
inductive OpenCall where
  | setState                          -- `setState(kDisconnecting)` of a `shutdown`
  | queueInLoop (request : Request)
deriving DecidableEq, Repr

def Request.afterLoad : Request → OpenCall
  | .send message => .queueInLoop (.send message)
  | .shutdown => .setState

def Request.functor : Request → ConnFunctor
  | .send message => .sendInLoop message
  | .shutdown => .shutdownInLoop

/-- `callbacks` are still to be called for `revents`.  `calls` are under way on other
    threads.  `queue` has the functors of the connection, `removes` counts the
    `removeConnectionInLoop`s to come.  `inMap`: the server has the connection in
    `connections_`. -/
structure CloseSystem where
  conn : TcpConnection
  poller : EPollPoller Unit
  revents : EpollEvents
  callbacks : List EventCallback
  calls : List OpenCall
  queue : List ConnFunctor
  server : Bool
  inMap : Bool
  removes : Nat
  log : List CloseEvent
  fault : Option Fault

/-- `call` is a call of the loop thread; `load` begins one of another thread, and `proceed`
    goes on with the `i`-th of these. -/
inductive CloseAct where
  | handleEvent (revents : EpollEvents)
  | callback (readRes : ReadvResult) (res : SysResult)
  | call (request : Request) (res : SysResult)
  | load (request : Request)
  | proceed (i : Nat)
  | callFunctor (res : SysResult)
  | removeConnectionInLoop
  | destroyServer
deriving DecidableEq, Repr

namespace CloseSystem

def perform (s : CloseSystem) : Effect → CloseSystem
  | .updateChannel =>
    match s.poller.updateChannel () s.conn.channel with
    | .ok (p, ch) => { s with poller := p, conn := { s.conn with channel := ch } }
    | .error fault => { s with fault := some fault }
  | .removeChannel =>
    match s.poller.removeChannel () s.conn.channel with
    | .ok (p, ch) => { s with poller := p, conn := { s.conn with channel := ch } }
    | .error fault => { s with fault := some fault }
  | .queueInLoop f => { s with queue := s.queue ++ [f] }
  | .connectionCallback => { s with log := s.log ++ [.connectionCallback] }
  | .messageCallback => { s with log := s.log ++ [.messageCallback] }
  | .closeCallback => { s with log := s.log ++ [.closeCallback], removes := s.removes + 1 }
  | .assertion fault holds => if holds then s else { s with fault := some fault }
  | .write _ | .shutdownWrite => s

def run (s : CloseSystem) (op : ConnOp) : CloseSystem :=
  (s.conn.exec op).2.foldl perform
    { s with
      conn := (s.conn.exec op).1
      log := s.log ++ if op.closes then [.handleClose] else [] }

/-- Run what is called; the callbacks `writeComplete` and `highWaterMark` run nothing. -/
def runOp (s : CloseSystem) : Option ConnOp → CloseSystem
  | some op => s.run op
  | none => s

/-- The connection is established and in `connections_`. -/
def start (loop : LoopId) (name : Name) (sockfd : Fd) (writeCompleteCallback : Bool)
    (highWaterMarkCallback : Bool) (highWaterMark : Nat) : CloseSystem :=
  run
    { conn := .new loop name sockfd writeCompleteCallback highWaterMarkCallback highWaterMark
      poller := .new
      revents := {}
      callbacks := []
      calls := []
      queue := []
      server := true
      inMap := true
      removes := 0
      log := []
      fault := none } .connectEstablished

def step (s : CloseSystem) (act : CloseAct) : Option CloseSystem :=
  if s.fault = none then
    match act with
    | .handleEvent revents =>
      if s.callbacks = [] ∧ (s.poller.interest s.conn.channel.fd).isSome then
        some { s with revents, callbacks := Channel.handleEventWithGuard revents }
      else none
    | .callback readRes res =>
      match s.callbacks with
      | [] => none
      | cb :: rest =>
        some ({ s with callbacks := rest }.runOp (ServerSystem.callbackOp readRes res cb))
    | .call request res =>
      let called := { s with conn := (request.call s.conn true).1 }
      match (request.call s.conn true).2 with
      | .nothing => some called
      | .run f => some (called.runOp (f.op res))
      | .queue f => some { called with queue := s.queue ++ [f] }
    | .load request =>
      if s.conn.state = .kConnected then some { s with calls := s.calls ++ [request.afterLoad] }
      else some s
    | .proceed i =>
      match s.calls[i]? with
      | none => none
      | some .setState =>
        some { s with
          conn := { s.conn with state := .kDisconnecting }
          calls := s.calls.set i (.queueInLoop .shutdown) }
      | some (.queueInLoop request) =>
        some { s with calls := s.calls.eraseIdx i, queue := s.queue ++ [request.functor] }
    | .callFunctor res =>
      match s.queue with
      | [] => none
      | f :: rest =>
        if s.callbacks = [] then some ({ s with queue := rest }.runOp (f.op res)) else none
    | .removeConnectionInLoop =>
      if s.server = true ∧ 0 < s.removes then
        some { s with
          removes := s.removes - 1, inMap := false, queue := s.queue ++ [.connectDestroyed] }
      else none
    | .destroyServer =>
      if s.server then
        some { s with
          server := false
          inMap := false
          queue := s.queue ++ if s.inMap then [.connectDestroyed] else [] }
      else none
  else none

/-- `handleClose` at most once, and no message and no second `closeCallback_` after it. -/
def ClosedOnce (s : CloseSystem) : Prop := s.log.Pairwise CloseEvent.InOrder

instance (s : CloseSystem) : Decidable s.ClosedOnce :=
  inferInstanceAs (Decidable (s.log.Pairwise CloseEvent.InOrder))

/-- `shutdown()` does not store `kDisconnecting` over `kDisconnected`. -/
def StoresInTime (s : CloseSystem) : CloseAct → Prop
  | .proceed i => s.calls[i]? = some .setState → s.conn.state ≠ .kDisconnected
  | _ => True

instance (s : CloseSystem) : (a : CloseAct) → Decidable (s.StoresInTime a)
  | .proceed _ => inferInstanceAs (Decidable (_ → _))
  | .handleEvent _ | .callback _ _ | .call _ _ | .load _ | .callFunctor _
  | .removeConnectionInLoop | .destroyServer => inferInstanceAs (Decidable True)

/-- A `handleRead` that is called for an odd report finds an error. -/
def OddReadFails (s : CloseSystem) : CloseAct → Prop
  | .callback readRes _ =>
    s.callbacks.head? = some .read → s.revents.IsOdd = true → ∃ errno, readRes = .err errno
  | _ => True

/-! ### What the functions do -/

variable {s t : CloseSystem} {op : ConnOp}

/-- A registered channel is updated, and stays registered. -/
theorem perform_updateChannel (h : s.poller.Registered () s.conn.channel) :
    ∃ p, s.perform .updateChannel
        = { s with poller := p, conn := { s.conn with channel := s.conn.channel.updated } }
      ∧ p.Registered () s.conn.channel.updated := by
  obtain ⟨p, hp, hregistered, _⟩ := EPollPoller.updateChannel_registered h
  exact ⟨p, by simp only [perform, hp], hregistered⟩

/-- What the quiet effects leave. -/
structure QuietStep (s t : CloseSystem) : Prop where
  same : t = { s with conn := t.conn, poller := t.poller, queue := t.queue }
  state : t.conn.state = s.conn.state
  registered : t.poller.Registered () t.conn.channel
  reading : t.conn.channel.isReading = s.conn.channel.isReading
  index : s.conn.channel.isReading = true → s.conn.channel.index = .kAdded →
    t.conn.channel.index = .kAdded
  queue : ∀ f ∈ t.queue, f ∈ s.queue ∨ f.IsNote

theorem QuietStep.trans {u : CloseSystem} (h : QuietStep s t) (h' : QuietStep t u) :
    QuietStep s u where
  same := by rw [h'.same, h.same]
  state := h'.state.trans h.state
  registered := h'.registered
  reading := h'.reading.trans h.reading
  index hreading hindex := h'.index (h.reading.trans hreading) (h.index hreading hindex)
  queue f hf := (h'.queue f hf).elim (h.queue f) Or.inr

theorem QuietStep.perform (h : s.poller.Registered () s.conn.channel) {e : Effect}
    (he : e.IsQuiet) : QuietStep s (s.perform e) := by
  cases e with
  | write _ | shutdownWrite => exact ⟨rfl, rfl, h, rfl, fun _ => id, fun _ => Or.inl⟩
  | updateChannel =>
    obtain ⟨p, hp, hregistered⟩ := perform_updateChannel h
    rw [hp]
    refine ⟨rfl, rfl, hregistered, rfl, fun hreading hindex => ?_, fun _ => Or.inl⟩
    simp only [ConnView.updated_of_reading hindex hreading, hindex]
  | queueInLoop f =>
    refine ⟨rfl, rfl, h, rfl, fun _ => id, fun g hg => ?_⟩
    rcases List.mem_append.mp hg with hold | hnew
    · exact Or.inl hold
    · rw [List.mem_singleton.mp hnew]
      exact Or.inr he
  | removeChannel | connectionCallback | messageCallback | closeCallback | assertion _ _ =>
    exact he.elim

theorem QuietStep.foldl {effects : List Effect} : ∀ {s : CloseSystem},
    s.poller.Registered () s.conn.channel → (∀ e ∈ effects, e.IsQuiet) →
      QuietStep s (effects.foldl CloseSystem.perform s) := by
  induction effects with
  | nil =>
    intro s h _
    exact ⟨rfl, rfl, h, rfl, fun _ => id, fun _ => Or.inl⟩
  | cons e es ih =>
    intro s h hquiet
    have hstep := QuietStep.perform h (hquiet e List.mem_cons_self)
    exact hstep.trans (ih hstep.registered fun e he => hquiet e (List.mem_cons_of_mem _ he))

theorem not_closes_of_quiet (hop : op.IsQuiet) : op.closes = false := by
  cases op with
  | handleRead res =>
    obtain ⟨errno, rfl⟩ := hop
    rfl
  | sendInLoop _ _ | handleWrite _ | shutdownInLoop => rfl
  | connectEstablished | handleClose | shutdown | connectDestroyed => exact hop.elim

/-- **The functions that move bytes run quietly.** -/
theorem run_quiet (h : s.poller.Registered () s.conn.channel) (hop : op.IsQuiet) :
    QuietStep s (s.run op) := by
  have hexec := s.conn.exec_quiet hop
  have hregistered : s.poller.Registered () (s.conn.exec op).1.channel :=
    h.congr hexec.index hexec.fd
  have hfold := QuietStep.foldl (s := { s with conn := (s.conn.exec op).1 }) hregistered
    hexec.effects
  have hrun : s.run op
      = (s.conn.exec op).2.foldl CloseSystem.perform { s with conn := (s.conn.exec op).1 } := by
    simp [run, not_closes_of_quiet hop]
  rw [hrun]
  refine ⟨by rw [hfold.same], hfold.state.trans hexec.state, hfold.registered,
    hfold.reading.trans hexec.reading, fun hreading hindex => ?_, hfold.queue⟩
  exact hfold.index (hexec.reading.trans hreading) (hexec.index.trans hindex)

/-- A closed connection keeps its channel. -/
theorem run_quiet_closed (hop : op.IsQuiet) (hstate : s.conn.state = .kDisconnected)
    (hevents : s.conn.channel.events = kNonEvent) :
    (s.run op).conn.channel = s.conn.channel := by
  obtain ⟨hchannel, heffects⟩ := TcpConnection.exec_quiet_closed hop hstate hevents
  have hfold : ∀ (effects : List Effect) (u : CloseSystem), (∀ e ∈ effects, e = .shutdownWrite) →
      effects.foldl perform u = u := by
    intro effects
    induction effects with
    | nil => exact fun _ _ => rfl
    | cons e es ih =>
      intro u hes
      rw [List.foldl_cons, hes e List.mem_cons_self]
      exact ih _ fun e he => hes e (List.mem_cons_of_mem _ he)
  rw [run, hfold _ _ heffects]
  exact hchannel

/-- What a callback of the channel comes to. -/
theorem callback_cases (conn : TcpConnection) (readRes : ReadvResult) (res : SysResult)
    {cb : EventCallback} (h : ServerSystem.callbackOp readRes res cb = some op) :
    op.IsQuiet ∨ (cb = .close ∨ cb = .read ∧ ∃ bytes, readRes = .ok bytes)
      ∧ (ConnView.Closes conn op ∧ op.closes = true
        ∨ ConnView.Reads conn op ∧ op.closes = false ∧ cb = .read) := by
  rcases ConnView.callback_cases conn h with hquiet | ⟨_, hop⟩
  · exact Or.inl hquiet
  cases cb with
  | error => cases h
  | write =>
    cases h
    exact Or.inl trivial
  | close =>
    cases h
    rcases hop with hcloses | hreads
    · exact Or.inr ⟨Or.inl rfl, Or.inl ⟨hcloses, rfl⟩⟩
    · cases hreads.effects
  | read =>
    cases h
    cases readRes with
    | err errno => exact Or.inl ⟨errno, rfl⟩
    | ok bytes =>
      refine Or.inr ⟨Or.inr ⟨rfl, bytes, rfl⟩, ?_⟩
      by_cases hempty : bytes.length = 0
      · rcases hop with hcloses | hreads
        · exact Or.inl ⟨hcloses, decide_eq_true hempty⟩
        · have heffects := hreads.effects
          simp [TcpConnection.exec, TcpConnection.handleRead, WfBuffer.readFd, hempty,
            TcpConnection.handleClose] at heffects
      · rcases hop with hcloses | hreads
        · have hpos : 0 < bytes.length := Nat.pos_of_ne_zero hempty
          have heffects := hcloses.effects
          simp [TcpConnection.exec, TcpConnection.handleRead, WfBuffer.readFd, hpos] at heffects
        · exact Or.inr ⟨hreads, decide_eq_false hempty, rfl⟩

theorem run_closes (h : s.poller.Registered () s.conn.channel) (hop : ConnView.Closes s.conn op)
    (hcloses : op.closes = true) :
    ∃ p conn, s.run op = { s with
        conn := conn
        poller := p
        log := s.log ++ [.handleClose, .connectionCallback, .closeCallback]
        removes := s.removes + 1 }
      ∧ conn.state = .kDisconnected ∧ conn.channel = s.conn.channel.disableAll.updated
      ∧ p.Registered () conn.channel := by
  have hregistered : s.poller.Registered () (s.conn.exec op).1.channel := by
    rw [hop.channel]
    exact h
  obtain ⟨p, hp, hupdated⟩ := perform_updateChannel
    (s := { s with conn := (s.conn.exec op).1, log := s.log ++ [.handleClose] }) hregistered
  refine ⟨p, { (s.conn.exec op).1 with channel := (s.conn.exec op).1.channel.updated }, ?_,
    hop.state, by rw [hop.channel], hupdated⟩
  rw [run, hop.effects, if_pos hcloses, List.foldl_cons, hp]
  simp [perform]

theorem run_reads (hop : ConnView.Reads s.conn op) (hcloses : op.closes = false) :
    ∃ conn, s.run op = { s with conn := conn, log := s.log ++ [.messageCallback] }
      ∧ conn.state = s.conn.state ∧ conn.channel = s.conn.channel := by
  refine ⟨(s.conn.exec op).1, ?_, hop.state, hop.channel⟩
  rw [run, hop.effects, hcloses]
  simp [perform]

/-! ### The invariant -/

/-- Outside a report only an open connection is in the epoll set; after `handleClose` the
    rest of its report does not close again, and reads only if it is odd. -/
structure Inv (s : CloseSystem) : Prop where
  registered : s.poller.Registered () s.conn.channel
  established : s.conn.state ≠ .kConnecting
  queue : .connectEstablished ∉ s.queue
  callbacks : s.callbacks <:+ Channel.handleEventWithGuard s.revents
  reading : s.conn.state ≠ .kDisconnected → s.conn.channel.isReading = true
  handling : s.callbacks ≠ [] → s.conn.state ≠ .kDisconnected →
    s.conn.channel.index = .kAdded
  events : s.conn.state = .kDisconnected → s.conn.channel.events = kNonEvent
  index : s.conn.state = .kDisconnected → s.conn.channel.index ≠ .kAdded
  hangup : s.conn.state = .kDisconnected → .close ∉ s.callbacks
  read : s.conn.state = .kDisconnected → .read ∈ s.callbacks → s.revents.IsOdd = true
  odd : .read ∈ s.callbacks → s.revents.IsOdd = true →
    .close ∈ s.callbacks ∨ .handleClose ∈ s.log
  closed : .handleClose ∈ s.log ∨ .closeCallback ∈ s.log → s.conn.state = .kDisconnected
  once : s.ClosedOnce

theorem start_inv (loop : LoopId) (name : Name) (sockfd : Fd) (writeCompleteCallback : Bool)
    (highWaterMarkCallback : Bool) (highWaterMark : Nat) :
    (start loop name sockfd writeCompleteCallback highWaterMarkCallback highWaterMark).Inv := by
  have hnew : (EPollPoller.new : EPollPoller Unit).Registered ()
      (Channel.new sockfd).tie.enableReading := ⟨rfl, rfl⟩
  obtain ⟨p, hp, hregistered, _⟩ := EPollPoller.updateChannel_registered hnew
  simp only [start, run, TcpConnection.exec, TcpConnection.connectEstablished, List.foldl_cons,
    List.foldl_nil, perform, TcpConnection.new, decide_true, if_true, hp]
  constructor
  · exact hregistered
  · simp
  · simp
  · exact List.nil_suffix
  · intro _
    rfl
  · intro hne
    exact absurd rfl hne
  · intro hstate
    cases hstate
  · intro hstate
    cases hstate
  · intro hstate
    cases hstate
  · intro hstate
    cases hstate
  · intro hread
    cases hread
  · simp [ConnOp.closes]
  · exact List.pairwise_singleton _ _

theorem Inv.quiet (h : s.Inv) (hop : op.IsQuiet) : (s.run op).Inv := by
  have hquiet := run_quiet h.registered hop
  have hclosed := fun hstate => run_quiet_closed hop hstate (h.events hstate)
  have hlog : (s.run op).log = s.log := by rw [hquiet.same]
  have hcallbacks : (s.run op).callbacks = s.callbacks := by rw [hquiet.same]
  have hrevents : (s.run op).revents = s.revents := by rw [hquiet.same]
  constructor
  · exact hquiet.registered
  · rw [hquiet.state]
    exact h.established
  · intro hin
    rcases hquiet.queue _ hin with hold | hnote
    · exact h.queue hold
    · exact hnote
  · rw [hcallbacks, hrevents]
    exact h.callbacks
  · rw [hquiet.state, hquiet.reading]
    exact h.reading
  · rw [hquiet.state, hcallbacks]
    intro hne hopen
    exact hquiet.index (h.reading hopen) (h.handling hne hopen)
  · rw [hquiet.state]
    intro hstate
    rw [hclosed hstate]
    exact h.events hstate
  · rw [hquiet.state]
    intro hstate
    rw [hclosed hstate]
    exact h.index hstate
  · rw [hquiet.state, hcallbacks]
    exact h.hangup
  · rw [hquiet.state, hcallbacks, hrevents]
    exact h.read
  · rw [hcallbacks, hrevents, hlog]
    exact h.odd
  · rw [hquiet.state, hlog]
    exact h.closed
  · rw [ClosedOnce, hlog]
    exact h.once

/-- The next callback is taken; a hang-up callback is not, it closes. -/
theorem Inv.pop (h : s.Inv) {cb : EventCallback} {rest : List EventCallback}
    (hcb : s.callbacks = cb :: rest) (hne : cb ≠ .close) : Inv { s with callbacks := rest } where
  registered := h.registered
  established := h.established
  queue := h.queue
  callbacks := by
    have hsuffix := h.callbacks
    rw [hcb] at hsuffix
    exact (List.suffix_cons cb rest).trans hsuffix
  reading := h.reading
  handling _ := h.handling (by rw [hcb]; exact List.cons_ne_nil _ _)
  events := h.events
  index := h.index
  hangup hstate hin := h.hangup hstate (by rw [hcb]; exact List.mem_cons_of_mem _ hin)
  read hstate hin := h.read hstate (by rw [hcb]; exact List.mem_cons_of_mem _ hin)
  odd hin hodd := by
    have hor := h.odd (by rw [hcb]; exact List.mem_cons_of_mem _ hin) hodd
    rw [hcb] at hor
    exact hor.imp_left fun hclose => (List.mem_cons.mp hclose).resolve_left (Ne.symm hne)
  closed := h.closed
  once := h.once

/-- The callbacks of one report come in their order, each once. -/
theorem not_mem_rest {cb cb' : EventCallback} {rest : List EventCallback}
    (h : cb :: rest <:+ Channel.handleEventWithGuard s.revents)
    (hno : ¬ List.Sublist [cb, cb'] [.close, .error, .read, .write]) : cb' ∉ rest := by
  intro hin
  apply hno
  calc List.Sublist [cb, cb'] (cb :: rest) := (List.singleton_sublist.mpr hin).cons_cons cb
    List.Sublist _ (Channel.handleEventWithGuard s.revents) := h.sublist
    List.Sublist _ _ := Channel.handleEventWithGuard_sublist s.revents

/-- Nothing in the log of an open connection is out of order with what follows. -/
theorem Inv.once_append (h : s.Inv) (hopen : s.conn.state ≠ .kDisconnected)
    {more : List CloseEvent} (hmore : more.Pairwise CloseEvent.InOrder) :
    (s.log ++ more).Pairwise CloseEvent.InOrder := by
  refine List.pairwise_append.mpr ⟨h.once, hmore, fun a ha b _ => ?_⟩
  cases a with
  | handleClose => exact absurd (h.closed (Or.inl ha)) hopen
  | closeCallback => exact absurd (h.closed (Or.inr ha)) hopen
  | connectionCallback | messageCallback => trivial

theorem Inv.closes (h : s.Inv) {cb : EventCallback} {rest : List EventCallback}
    (hcb : s.callbacks = cb :: rest) (hclosing : cb = .close ∨ cb = .read)
    (hopen : s.conn.state ≠ .kDisconnected) (hop : ConnView.Closes s.conn op)
    (hcloses : op.closes = true) : (run { s with callbacks := rest } op).Inv := by
  have hsuffix := h.callbacks
  rw [hcb] at hsuffix
  have hindex := h.handling (by rw [hcb]; exact List.cons_ne_nil _ _) hopen
  obtain ⟨p, conn, hrun, hstate, hchannel, hregistered⟩ :=
    run_closes (s := { s with callbacks := rest }) h.registered hop hcloses
  rw [hrun]
  constructor
  · exact hregistered
  · rw [hstate]
    nofun
  · exact h.queue
  · exact (List.suffix_cons cb rest).trans hsuffix
  · exact fun hne => absurd hstate hne
  · exact fun _ hne => absurd hstate hne
  · intro _
    rw [hchannel]
    rfl
  · intro _
    simp [hchannel, Channel.updated, Channel.disableAll, Channel.isNonEvent, hindex]
  · intro _
    rcases hclosing with rfl | rfl
    · exact not_mem_rest hsuffix (by decide)
    · exact not_mem_rest hsuffix (by decide)
  · intro _ hread
    rcases hclosing with rfl | rfl
    · exact Channel.isOdd_of_close_read (hsuffix.subset List.mem_cons_self)
        (hsuffix.subset (List.mem_cons_of_mem _ hread))
    · exact absurd hread (not_mem_rest hsuffix (by decide))
  · intro _ _
    exact Or.inr (List.mem_append_right _ List.mem_cons_self)
  · exact fun _ => hstate
  · exact h.once_append hopen (by decide)

theorem Inv.reads (h : s.Inv) (hopen : s.conn.state ≠ .kDisconnected)
    (hop : ConnView.Reads s.conn op) (hcloses : op.closes = false) : (s.run op).Inv := by
  obtain ⟨conn, hrun, hstate, hchannel⟩ := run_reads hop hcloses
  have hopen' : conn.state ≠ .kDisconnected := by rwa [hstate]
  have hlog : ∀ e, e ≠ .messageCallback → e ∈ s.log ++ [CloseEvent.messageCallback] →
      e ∈ s.log := by
    intro e hne hin
    exact (List.mem_append.mp hin).resolve_right fun h' => hne (List.mem_singleton.mp h')
  rw [hrun]
  constructor
  · dsimp only
    rw [hchannel]
    exact h.registered
  · dsimp only
    rw [hstate]
    exact h.established
  · exact h.queue
  · exact h.callbacks
  · dsimp only
    rw [hstate, hchannel]
    exact h.reading
  · dsimp only
    rw [hstate, hchannel]
    exact h.handling
  · exact fun hclosed => absurd hclosed hopen'
  · exact fun hclosed => absurd hclosed hopen'
  · exact fun hclosed => absurd hclosed hopen'
  · exact fun hclosed => absurd hclosed hopen'
  · intro hread hodd
    exact (h.odd hread hodd).imp_right (List.mem_append_left _)
  · rintro (hin | hin)
    · exact hstate.trans (h.closed (Or.inl (hlog _ nofun hin)))
    · exact hstate.trans (h.closed (Or.inr (hlog _ nofun hin)))
  · exact h.once_append hopen (List.pairwise_singleton _ _)

/-- `removeChannel`, or its `assert`. -/
theorem perform_removeChannel (h : s.poller.Registered () s.conn.channel) :
    (∃ p, s.perform .removeChannel
        = { s with poller := p, conn := { s.conn with channel := s.conn.channel.removed } }
      ∧ p.Registered () s.conn.channel.removed)
      ∨ s.conn.channel.index = .kNew
        ∧ s.perform .removeChannel = { s with fault := some .removeChannelAssert } := by
  by_cases hindex : s.conn.channel.index = .kNew
  · exact Or.inr ⟨hindex, by simp only [perform, EPollPoller.removeChannel, hindex]⟩
  · obtain ⟨p, hp, hregistered, _⟩ := EPollPoller.removeChannel_registered h hindex
    exact Or.inl ⟨p, by simp only [perform, hp], hregistered⟩

theorem Inv.setFault (h : s.Inv) (fault : Option Fault) : Inv { s with fault := fault } :=
  { h with }

/-- The channel goes out of the poller when no event is being handled. -/
theorem Inv.removeChannel (h : s.Inv) (hcallbacks : s.callbacks = []) :
    (s.perform .removeChannel).Inv := by
  rcases perform_removeChannel h.registered with ⟨p, hp, hregistered⟩ | ⟨_, hfault⟩
  · rw [hp]
    exact { h with
      registered := hregistered
      handling := fun hne => absurd hcallbacks hne
      index := fun _ => nofun }
  · rw [hfault]
    exact h.setFault _

/-- `connectDestroyed` of a connection that is still up closes it without `handleClose`. -/
theorem Inv.connectDestroyed (h : s.Inv) (hcallbacks : s.callbacks = []) :
    (s.run .connectDestroyed).Inv := by
  by_cases hstate : s.conn.state = .kConnected
  · obtain ⟨p, hp, hregistered⟩ := perform_updateChannel
      (s := { s with conn := { s.conn with
        state := .kDisconnected, channel := s.conn.channel.disableAll } }) h.registered
    have hrun : s.run .connectDestroyed = ((perform { s with conn := { s.conn with
        state := .kDisconnected, channel := s.conn.channel.disableAll } } .updateChannel).perform
          .connectionCallback).perform .removeChannel := by
      simp [run, TcpConnection.exec, TcpConnection.connectDestroyed, hstate, ConnOp.closes]
    rw [hrun, hp]
    have hindex : s.conn.channel.disableAll.updated.index ≠ .kNew := by
      rw [Channel.updated]
      split
      · simp
      · simp
    obtain ⟨q, hq, hremoved⟩ := (perform_removeChannel (s := perform { s with
      poller := p
      conn := { s.conn with
        state := .kDisconnected, channel := s.conn.channel.disableAll.updated } }
      .connectionCallback) hregistered).resolve_right fun hnew => hindex hnew.1
    rw [hq]
    constructor
    · exact hremoved
    · intro hconnecting
      cases hconnecting
    · exact h.queue
    · exact h.callbacks
    · exact fun hne => absurd rfl hne
    · exact fun hne => absurd hcallbacks hne
    · exact fun _ => rfl
    · intro _ hadded
      cases hadded
    · intro _ hin
      exact absurd (hcallbacks ▸ hin) List.not_mem_nil
    · intro _ hin
      exact absurd (hcallbacks ▸ hin) List.not_mem_nil
    · intro hin
      exact absurd (hcallbacks ▸ hin) List.not_mem_nil
    · exact fun _ => rfl
    · exact h.once_append (by simp [hstate]) (List.pairwise_singleton _ _)
  · have hrun : s.run .connectDestroyed = s.perform .removeChannel := by
      simp [run, TcpConnection.exec, TcpConnection.connectDestroyed, hstate, ConnOp.closes]
    rw [hrun]
    exact h.removeChannel hcallbacks

/-- What `send` and `shutdown` do on the loop thread, and what they run there. -/
theorem call_cases (conn : TcpConnection) (request : Request) :
    ((request.call conn true).1 = conn
        ∨ conn.state = .kConnected
          ∧ (request.call conn true).1 = { conn with state := .kDisconnecting })
      ∧ ∀ f, (request.call conn true).2 = .run f ∨ (request.call conn true).2 = .queue f →
        f ≠ .connectEstablished ∧ ∀ res, ∃ op, f.op res = some op ∧ op.IsQuiet := by
  by_cases hstate : conn.state = .kConnected
  · cases request with
    | send message =>
      refine ⟨Or.inl rfl, fun f hf => ?_⟩
      have hsend : f = .sendInLoop message := by
        simpa [Request.call, TcpConnection.send, TcpConnection.runInLoop, hstate, eq_comm] using hf
      subst hsend
      exact ⟨by simp, fun res => ⟨_, rfl, trivial⟩⟩
    | shutdown =>
      refine ⟨Or.inr ⟨hstate, by simp [Request.call, TcpConnection.shutdown, hstate]⟩,
        fun f hf => ?_⟩
      have hshutdown : f = .shutdownInLoop := by
        simpa [Request.call, TcpConnection.shutdown, TcpConnection.runInLoop, hstate, eq_comm]
          using hf
      subst hshutdown
      exact ⟨by simp, fun res => ⟨_, rfl, trivial⟩⟩
  · have hnothing : request.call conn true = (conn, .nothing) := by
      cases request <;> simp [Request.call, TcpConnection.send, TcpConnection.shutdown, hstate]
    rw [hnothing]
    exact ⟨Or.inl rfl, fun f hf => by rcases hf with hf | hf <;> cases hf⟩

/-- `setState(kDisconnecting)` of an open connection. -/
theorem Inv.disconnecting (h : s.Inv) (hopen : s.conn.state ≠ .kDisconnected) :
    Inv { s with conn := { s.conn with state := .kDisconnecting } } :=
  { h with
    established := nofun
    reading := fun _ => h.reading hopen
    handling := fun hne _ => h.handling hne hopen
    events := nofun
    index := nofun
    hangup := nofun
    read := nofun
    closed := fun hin => absurd (h.closed hin) hopen }

/-- `shutdown()` leaves the connection open. -/
theorem Inv.called (h : s.Inv) (request : Request) :
    Inv { s with conn := (request.call s.conn true).1 } := by
  rcases (call_cases s.conn request).1 with hsame | ⟨hstate, hconn⟩
  · rw [hsame]
    exact h
  · rw [hconn]
    refine h.disconnecting ?_
    rw [hstate]
    nofun

theorem Inv.pushBack (h : s.Inv) (fs : List ConnFunctor) (hfs : .connectEstablished ∉ fs) :
    Inv { s with queue := s.queue ++ fs } :=
  { h with
    queue := fun hin => (List.mem_append.mp hin).elim h.queue hfs }

theorem Inv.call (h : s.Inv) {request : Request} {res : SysResult}
    (hstep : s.step (.call request res) = some t) : t.Inv := by
  simp only [step, Option.ite_none_right_eq_some] at hstep
  obtain ⟨_, hstep⟩ := hstep
  have hcalled := h.called request
  have hfunctor := (call_cases s.conn request).2
  split at hstep
  · cases hstep
    exact hcalled
  · rename_i f hdispatch
    cases hstep
    obtain ⟨op, hop, hquiet⟩ := (hfunctor f (Or.inl hdispatch)).2 res
    rw [hop]
    exact hcalled.quiet hquiet
  · rename_i f hdispatch
    cases hstep
    refine hcalled.pushBack [f] ?_
    rw [List.mem_singleton]
    exact (hfunctor f (Or.inr hdispatch)).1.symm

/-- The steps of a call by another thread. -/
theorem Inv.proceed (h : s.Inv) {i : Nat} (htime : s.StoresInTime (.proceed i))
    (hstep : s.step (.proceed i) = some t) : t.Inv := by
  simp only [step, Option.ite_none_right_eq_some] at hstep
  obtain ⟨_, hstep⟩ := hstep
  split at hstep
  · cases hstep
  · rename_i hcall
    cases hstep
    have hstored := h.disconnecting (htime hcall)
    exact { hstored with }
  · rename_i request _
    cases hstep
    have hpushed := h.pushBack [request.functor] (by cases request <;> simp [Request.functor])
    exact { hpushed with }

theorem Inv.callFunctor (h : s.Inv) {res : SysResult}
    (hstep : s.step (.callFunctor res) = some t) : t.Inv := by
  simp only [step, Option.ite_none_right_eq_some] at hstep
  obtain ⟨_, hstep⟩ := hstep
  split at hstep
  · cases hstep
  · rename_i f rest hqueue
    simp only [Option.ite_none_right_eq_some, Option.some.injEq] at hstep
    obtain ⟨hcallbacks, rfl⟩ := hstep
    have hrest : Inv { s with queue := rest } :=
      { h with queue := fun hin => h.queue (by rw [hqueue]; exact List.mem_cons_of_mem _ hin) }
    cases f with
    | connectEstablished => exact absurd (by rw [hqueue]; exact List.mem_cons_self) h.queue
    | connectDestroyed => exact hrest.connectDestroyed hcallbacks
    | sendInLoop _ | shutdownInLoop => exact hrest.quiet trivial
    | writeComplete | highWaterMark _ => exact hrest

theorem Inv.callback (h : s.Inv) {readRes : ReadvResult} {res : SysResult}
    (hfails : s.OddReadFails (.callback readRes res))
    (hstep : s.step (.callback readRes res) = some t) : t.Inv := by
  simp only [step, Option.ite_none_right_eq_some] at hstep
  obtain ⟨_, hstep⟩ := hstep
  split at hstep
  · cases hstep
  · rename_i cb rest hcb
    cases hstep
    cases hop : ServerSystem.callbackOp readRes res cb with
    | none =>
      refine h.pop hcb ?_
      rintro rfl
      cases hop
    | some op =>
      rcases callback_cases s.conn readRes res hop with hquiet | ⟨hclosing, hrun⟩
      · refine (h.pop hcb ?_).quiet hquiet
        rintro rfl
        cases hop
        exact hquiet
      · -- the connection is open: the report would have to be odd, and the read to fail
        have hopen : s.conn.state ≠ .kDisconnected := by
          intro hstate
          rcases hclosing with rfl | ⟨rfl, bytes, rfl⟩
          · exact h.hangup hstate (by rw [hcb]; exact List.mem_cons_self)
          · have hodd := h.read hstate (by rw [hcb]; exact List.mem_cons_self)
            obtain ⟨errno, herr⟩ := hfails (by rw [hcb]; rfl) hodd
            cases herr
        rcases hrun with ⟨hcloses, hflag⟩ | ⟨hreads, hflag, rfl⟩
        · exact h.closes hcb (hclosing.imp_right And.left) hopen hcloses hflag
        · exact (h.pop hcb nofun).reads hopen hreads hflag

/-- **A step in which no odd report is read and no store comes late keeps the invariant.** -/
theorem Inv.step (h : s.Inv) {a : CloseAct} (htime : s.StoresInTime a) (hfails : s.OddReadFails a)
    (hstep : s.step a = some t) : t.Inv := by
  cases a with
  | callback readRes res => exact h.callback hfails hstep
  | call request res => exact h.call hstep
  | proceed i => exact h.proceed htime hstep
  | load request =>
    simp only [CloseSystem.step, Option.ite_none_right_eq_some] at hstep
    obtain ⟨_, hstep⟩ := hstep
    split at hstep
    · cases hstep
      exact { h with }
    · cases hstep
      exact h
  | callFunctor res => exact h.callFunctor hstep
  | handleEvent revents =>
    simp only [CloseSystem.step, Option.ite_none_right_eq_some, Option.some.injEq] at hstep
    obtain ⟨_, ⟨hcallbacks, hinterest⟩, rfl⟩ := hstep
    have hadded := h.registered.mem_interest (Option.isSome_iff_ne_none.mp hinterest)
    have hopen : s.conn.state ≠ .kDisconnected := fun hstate => h.index hstate hadded
    exact { h with
      callbacks := List.suffix_refl _
      handling := fun _ _ => hadded
      hangup := fun hstate => absurd hstate hopen
      read := fun hstate => absurd hstate hopen
      odd := by
        intro _ hodd
        left
        rw [Channel.close_mem_handleEventWithGuard]
        simp only [EpollEvents.IsOdd, Bool.and_eq_true, Bool.not_eq_true'] at hodd
        exact ⟨hodd.1.1, hodd.2⟩ }
  | removeConnectionInLoop =>
    simp only [CloseSystem.step, Option.ite_none_right_eq_some, Option.some.injEq] at hstep
    obtain ⟨_, _, rfl⟩ := hstep
    have hpushed := h.pushBack [.connectDestroyed] (by simp)
    exact { hpushed with }
  | destroyServer =>
    simp only [CloseSystem.step, Option.ite_none_right_eq_some, Option.some.injEq] at hstep
    obtain ⟨_, _, rfl⟩ := hstep
    have hpushed := h.pushBack (if s.inMap then [.connectDestroyed] else [])
      (by split <;> simp)
    exact { hpushed with }

/-! ### An odd report that is read -/

theorem perform_log (s : CloseSystem) (e : Effect) : s.log <+: (s.perform e).log := by
  cases e with
  | updateChannel | removeChannel =>
    simp only [perform]
    split <;> exact List.prefix_refl _
  | connectionCallback | messageCallback | closeCallback => exact List.prefix_append _ _
  | assertion fault holds =>
    simp only [perform]
    split <;> exact List.prefix_refl _
  | queueInLoop _ | write _ | shutdownWrite => exact List.prefix_refl _

theorem run_log (s : CloseSystem) (op : ConnOp) : s.log <+: (s.run op).log := by
  have hfold : ∀ (effects : List Effect) (u : CloseSystem),
      u.log <+: (effects.foldl perform u).log := by
    intro effects
    induction effects with
    | nil => exact fun u => List.prefix_refl _
    | cons e es ih => exact fun u => (u.perform_log e).trans (ih (u.perform e))
  have hrun := hfold (s.conn.exec op).2 { s with
    conn := (s.conn.exec op).1, log := s.log ++ if op.closes then [.handleClose] else [] }
  exact (List.prefix_append _ _).trans hrun

theorem runOp_log {log : List CloseEvent} (hlog : s.log = log) (op : Option ConnOp) :
    log <+: (s.runOp op).log := by
  subst hlog
  cases op with
  | none => exact List.prefix_refl _
  | some op => exact s.run_log op

/-- What has been called stays in the log. -/
theorem step_log {a : CloseAct} (hstep : s.step a = some t) : s.log <+: t.log := by
  simp only [step, Option.ite_none_right_eq_some] at hstep
  obtain ⟨_, hstep⟩ := hstep
  cases a with
  | handleEvent revents | removeConnectionInLoop | destroyServer =>
    simp only [Option.ite_none_right_eq_some, Option.some.injEq] at hstep
    obtain ⟨_, rfl⟩ := hstep
    exact List.prefix_refl _
  | callback readRes res =>
    dsimp only at hstep
    split at hstep
    · cases hstep
    · cases hstep
      refine runOp_log ?_ _
      rfl
  | call request res =>
    dsimp only at hstep
    split at hstep <;> cases hstep
    · exact List.prefix_refl _
    · refine runOp_log ?_ _
      rfl
    · exact List.prefix_refl _
  | load request =>
    dsimp only at hstep
    split at hstep <;> cases hstep <;> exact List.prefix_refl _
  | proceed i =>
    dsimp only at hstep
    split at hstep <;> cases hstep <;> exact List.prefix_refl _
  | callFunctor res =>
    dsimp only at hstep
    split at hstep
    · cases hstep
    · simp only [Option.ite_none_right_eq_some, Option.some.injEq] at hstep
      obtain ⟨_, rfl⟩ := hstep
      refine runOp_log ?_ _
      rfl

/-- **The read of an odd report closes again or delivers a message**, if it does not
    fail: `handleClose` has been called for the report already. -/
theorem Inv.breaks (h : s.Inv) {a : CloseAct} (hodd : ¬ s.OddReadFails a)
    (hstep : s.step a = some t) : ¬ t.ClosedOnce := by
  cases a with
  | handleEvent _ | call _ _ | load _ | proceed _ | callFunctor _ | removeConnectionInLoop
  | destroyServer => exact absurd trivial hodd
  | callback readRes res =>
    simp only [OddReadFails, Classical.not_imp] at hodd
    obtain ⟨hhead, hodd, hok⟩ := hodd
    obtain ⟨rest, hcb⟩ : ∃ rest, s.callbacks = .read :: rest := by
      cases hcallbacks : s.callbacks with
      | nil => simp [hcallbacks] at hhead
      | cons cb rest =>
        rw [hcallbacks, List.head?_cons, Option.some.injEq] at hhead
        exact ⟨rest, by rw [hhead]⟩
    have hsuffix := h.callbacks
    rw [hcb] at hsuffix
    have hclosed : .handleClose ∈ s.log := by
      refine (h.odd (by rw [hcb]; exact List.mem_cons_self) hodd).resolve_left ?_
      rw [hcb]
      intro hclose
      exact not_mem_rest hsuffix (by decide) ((List.mem_cons.mp hclose).resolve_left nofun)
    have hlate : ∀ {more : List CloseEvent} {e}, e ∈ more → ¬ CloseEvent.handleClose.InOrder e →
        ¬ (s.log ++ more).Pairwise CloseEvent.InOrder := by
      intro more e he hlate hpairwise
      exact hlate ((List.pairwise_append.mp hpairwise).2.2 _ hclosed e he)
    simp only [CloseSystem.step, Option.ite_none_right_eq_some, hcb, Option.some.injEq] at hstep
    obtain ⟨_, rfl⟩ := hstep
    have hop : ServerSystem.callbackOp readRes res .read = some (.handleRead readRes) := rfl
    rcases callback_cases s.conn readRes res hop with
      hquiet | ⟨_, ⟨hcloses, hflag⟩ | ⟨hreads, hflag, _⟩⟩
    · exact absurd hquiet hok
    · obtain ⟨p, conn, hrun, _⟩ :=
        run_closes (s := { s with callbacks := rest }) h.registered hcloses hflag
      simp only [runOp, ServerSystem.callbackOp, hrun, ClosedOnce]
      exact hlate List.mem_cons_self id
    · obtain ⟨conn, hrun, _⟩ := run_reads (s := { s with callbacks := rest }) hreads hflag
      simp only [runOp, ServerSystem.callbackOp, hrun, ClosedOnce]
      exact hlate List.mem_cons_self id

/-- **A connection is closed once**, and no message comes after that, iff every
    `handleRead` that is called for an odd report finds an error, as long as no
    `shutdown()` stores `kDisconnecting` over `kDisconnected`. -/
theorem closed_once_iff (loop : LoopId) (name : Name) (sockfd : Fd)
    (writeCompleteCallback highWaterMarkCallback : Bool) (highWaterMark : Nat)
    {acts : List CloseAct} {s : CloseSystem}
    (htime : Runs.Along CloseSystem.step StoresInTime (start loop name sockfd
      writeCompleteCallback highWaterMarkCallback highWaterMark) acts)
    (hrun : Runs.run CloseSystem.step (start loop name sockfd writeCompleteCallback
      highWaterMarkCallback highWaterMark) acts = some s) :
    s.ClosedOnce ↔ Runs.Along CloseSystem.step OddReadFails (start loop name sockfd
      writeCompleteCallback highWaterMarkCallback highWaterMark) acts := by
  have hstart := start_inv loop name sockfd writeCompleteCallback highWaterMarkCallback
    highWaterMark
  rcases Runs.run_dichotomy_along (I := Inv) (J := fun u => ¬ u.ClosedOnce)
    (fun _ _ _ hs htime hfails hstep => hs.step htime hfails hstep)
    (fun _ _ _ hs _ hodd hstep => hs.breaks hodd hstep)
    (fun _ _ _ hs hstep honce => hs (honce.sublist (step_log hstep).sublist)) hstart htime hrun
    with ⟨halong, hinv⟩ | ⟨hnot, htwice⟩
  · exact iff_of_true hinv.once halong
  · exact iff_of_false htwice hnot

/-- A message, a half-close by another thread, and an odd report whose read fails. -/
def closedOnce : List CloseAct :=
  [.handleEvent { epollIn := true }, .load .shutdown, .callback (.ok [97]) (.ok 0), .proceed 0,
    .proceed 0, .handleEvent { epollHup := true, epollPri := true }, .callback (.ok []) (.ok 0),
    .callback (.err ECONNRESET) (.ok 0), .removeConnectionInLoop, .callFunctor (.ok 0),
    .callFunctor (.ok 0)]

theorem closed_once_iff_closedOnce :
    ∃ s, Runs.run CloseSystem.step (start 1 ['c'] 7 true false 100) closedOnce = some s
      ∧ s.log.count .handleClose = 1 ∧ s.fault = none
      ∧ Runs.Along CloseSystem.step OddReadFails (start 1 ['c'] 7 true false 100) closedOnce := by
  obtain ⟨s, hs, hcount, hfault, honce⟩ : ∃ s, Runs.run CloseSystem.step
      (start 1 ['c'] 7 true false 100) closedOnce = some s ∧ s.log.count .handleClose = 1
      ∧ s.fault = none ∧ s.ClosedOnce := by
    refine ⟨_, rfl, ?_⟩
    decide +kernel
  have htime : Runs.Along CloseSystem.step StoresInTime (start 1 ['c'] 7 true false 100)
      closedOnce := by
    decide +kernel
  exact ⟨s, hs, hcount, hfault, (closed_once_iff 1 ['c'] 7 true false 100 htime hs).mp honce⟩

/-- The read of the odd report finds the end of the stream: two closes, two
    `connectDestroyed`s, and the second one fails its `assert`. -/
def closedTwice : List CloseAct :=
  [.handleEvent { epollHup := true, epollPri := true }, .callback (.ok []) (.ok 0),
    .callback (.ok []) (.ok 0), .removeConnectionInLoop, .removeConnectionInLoop,
    .callFunctor (.ok 0), .callFunctor (.ok 0)]

/-- The peer closes, and a `shutdown()` stores late; the `sendInLoop` that was queued before
    the close then finds the socket full and puts the channel back into the epoll set. -/
def storedLate : List CloseAct :=
  [.load (.send [97]), .proceed 0, .load .shutdown, .handleEvent { epollIn := true },
    .callback (.ok []) (.ok 0), .proceed 0, .callFunctor (.err EAGAIN),
    .handleEvent { epollOut := true, epollErr := true, epollHup := true },
    .callback (.ok []) (.ok 0)]

theorem closedTwice_not_closedOnce :
    (∃ s, Runs.run CloseSystem.step (start 1 ['c'] 7 true false 100) closedTwice = some s
      ∧ s.log.count .handleClose = 2 ∧ s.log.count .closeCallback = 2 ∧ ¬ s.ClosedOnce
      ∧ s.fault = some .removeChannelAssert)
    ∧ ∃ s, Runs.run CloseSystem.step (start 1 ['c'] 7 true false 100) storedLate = some s
      ∧ s.log.count .handleClose = 2 ∧ s.log.count .closeCallback = 2 ∧ ¬ s.ClosedOnce := by
  refine ⟨⟨_, rfl, ?_⟩, _, rfl, ?_⟩
  · decide +kernel
  · decide +kernel

end CloseSystem

end Ymuduo
