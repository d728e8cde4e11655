/-
  Ymuduo/WorkBound.lean
  =====================
  **What the loop threads do is paid for by what happens to the server.**

  Every callback, functor and task that waits is priced by all that it can still cause.
  A step of a loop thread takes its price out and puts less back in; only what a poll
  reports, a call of the user and `~TcpServer` put something on top.  So the functions of
  the server do not feed each other for ever: a run spends at most 31 steps on each
  reported channel, 6 on each `send` and `shutdown`, 2 on each functor of the user and 5
  on each connection that `~TcpServer` finds.
-/
import Ymuduo.ServerDestroy
import Mathlib.Algebra.BigOperators.Group.Finset.Basic
import Mathlib.Algebra.Order.BigOperators.Group.Finset

namespace Ymuduo

/-! ### Prices -/

/-- What `run` of an operation adds at most. -/
def ConnOp.work : ConnOp → Nat
  | .connectEstablished | .connectDestroyed => 4
  | .sendInLoop _ _ => 5
  | .shutdownInLoop => 1
  | .handleWrite _ => 6
  | .handleRead _ | .handleClose => 10
  | .shutdown => 0

def ConnFunctor.work : ConnFunctor → Nat
  | .connectEstablished | .connectDestroyed => 5
  | .sendInLoop _ => 6
  | .shutdownInLoop => 2
  | .writeComplete | .highWaterMark _ => 2

def Functor.work : Functor → Nat
  | .conn _ f => f.work
  | .removeConnectionInLoop _ => 6
  | .user => 2

def Effect.work : Effect → Nat
  | .queueInLoop f => 1 + f.work
  | .connectionCallback | .messageCallback => 2
  | .closeCallback => 7
  | .write _ | .shutdownWrite | .updateChannel | .removeChannel | .assertion _ _ => 1

def EventCallback.work : EventCallback → Nat
  | .close | .read => 11
  | .error => 1
  | .write => 7

def ConnTask.work : ConnTask → Nat
  | .callback cb => cb.work
  | .effect e => e.work
  | .connectDestroyed => 5
  | .user => 1

def Task.work : Task → Nat
  | .conn _ t => t.work
  | .user => 1

def ActiveChannel.work : ActiveChannel Source → Nat
  | .wakeupChannel => 1
  | .channel .acceptor => 6
  | .channel (.conn _ revents) => 1 + ((Channel.handleEventWithGuard revents).map
    EventCallback.work).sum

/-- **No report of a poll costs more than 31 steps.** -/
theorem ActiveChannel.work_le (a : ActiveChannel Source) : a.work ≤ 31 := by
  cases a with
  | wakeupChannel => decide
  | channel source =>
    cases source with
    | acceptor => decide
    | conn c revents =>
      have hclose : ∀ b : Bool, ((if b then [EventCallback.close] else []).map
          EventCallback.work).sum ≤ 11 := by decide
      have herror : ∀ b : Bool, ((if b then [EventCallback.error] else []).map
          EventCallback.work).sum ≤ 1 := by decide
      have hread : ∀ b : Bool, ((if b then [EventCallback.read] else []).map
          EventCallback.work).sum ≤ 11 := by decide
      have hwrite : ∀ b : Bool, ((if b then [EventCallback.write] else []).map
          EventCallback.work).sum ≤ 7 := by decide
      simp only [ActiveChannel.work, Channel.handleEventWithGuard, List.map_append,
        List.sum_append]
      have h₁ := hclose (revents.epollHup && !revents.epollIn)
      have h₂ := herror revents.epollErr
      have h₃ := hread (revents.epollIn || revents.epollPri)
      have h₄ := hwrite revents.epollOut
      omega

namespace TcpConnection

theorem sum_work_queueWriteComplete (conn : TcpConnection) :
    (conn.queueWriteComplete.map Effect.work).sum ≤ 3 := by
  unfold queueWriteComplete
  split
  · decide
  · decide

/-- The second half of `sendInLoop` costs something only if something is left to write. -/
theorem sum_work_bufferRest (conn : TcpConnection) (message : List Byte) (w : DirectWrite) :
    ((conn.bufferRest message w).2.map Effect.work).sum ≤ (w.effects.map Effect.work).sum + 4
      ∧ (w.remaining = 0 → (conn.bufferRest message w).2 = w.effects) := by
  unfold bufferRest
  split
  · rename_i hkeeps
    refine ⟨?_, fun hnone => absurd hkeeps.2 (by omega)⟩
    have hhigh : ∀ (p : Prop) [Decidable p] (size : Nat), ((if p then
        [Effect.queueInLoop (.highWaterMark size)] else []).map Effect.work).sum ≤ 3 := by
      intro p _ size
      split
      · exact Nat.le_refl _
      · exact Nat.zero_le _
    dsimp only
    split
    · rw [List.map_append, List.sum_append]
      exact Nat.add_le_add_left (Nat.le_succ_of_le (hhigh _ _)) _
    · rw [List.map_append, List.map_append, List.sum_append, List.sum_append, Nat.add_assoc]
      exact Nat.add_le_add_left (Nat.add_le_add_right (hhigh _ _) 1) _
  · exact ⟨Nat.le_add_right _ _, fun _ => rfl⟩

theorem sum_work_sendInLoop (conn : TcpConnection) (logging : Errno → Errno)
    (message : List Byte) (res : SysResult) :
    ((conn.sendInLoop logging message res).2.map Effect.work).sum ≤ 5 := by
  unfold sendInLoop
  split
  · exact Nat.zero_le _
  · split
    · obtain ⟨hrest, hnone⟩ :=
        conn.sum_work_bufferRest message (conn.directWrite logging message res)
      cases res with
      | err errno => exact Nat.le_trans hrest (Nat.le_of_ble_eq_true rfl)
      | ok nwrote =>
        -- either everything is written, or the rest is buffered
        by_cases hall : message.length - nwrote = 0
        · have hcomplete := conn.sum_work_queueWriteComplete
          rw [hnone hall]
          simp only [directWrite, if_pos hall, List.map_cons, List.sum_cons, Effect.work]
          omega
        · refine Nat.le_trans hrest ?_
          simp only [directWrite, if_neg hall, List.map_cons, List.map_nil, List.sum_cons,
            List.sum_nil, Effect.work]
          exact Nat.le_refl _
    · obtain ⟨hrest, _⟩ := conn.sum_work_bufferRest message (noDirectWrite message)
      exact Nat.le_trans hrest (Nat.le_of_ble_eq_true rfl)

/-- The effects of an operation are worth what it is. -/
theorem sum_work_exec (conn : TcpConnection) (op : ConnOp) :
    ((conn.exec op).2.map Effect.work).sum ≤ op.work := by
  have hshutdown : ∀ conn : TcpConnection, (conn.shutdownInLoop.map Effect.work).sum ≤ 1 := by
    intro conn
    unfold TcpConnection.shutdownInLoop
    split
    · decide
    · decide
  have hclose : ∀ conn : TcpConnection, (conn.handleClose.2.map Effect.work).sum ≤ 10 :=
    fun _ => Nat.le_refl _
  cases op with
  | connectEstablished => exact Nat.le_refl _
  | handleClose => exact hclose conn
  | shutdown => exact Nat.le_refl _
  | shutdownInLoop => exact hshutdown conn
  | connectDestroyed =>
    simp only [exec, connectDestroyed]
    split
    · exact Nat.le_refl _
    · exact Nat.le_of_ble_eq_true rfl
  | handleRead res =>
    simp only [exec, handleRead]
    split
    · split
      · exact Nat.le_of_ble_eq_true rfl
      · exact hclose _
    · exact Nat.zero_le _
  | handleWrite res =>
    simp only [exec, handleWrite]
    split
    · split
      · split
        · rename_i n outputBuffer _ _
          simp only [writeDrained, List.map_cons, List.map_append, List.sum_cons,
            List.sum_append, Effect.work, ConnOp.work]
          have hqueued := sum_work_queueWriteComplete { conn with
            outputBuffer := outputBuffer, channel := conn.channel.disableWriting }
          split
          · have hshut := hshutdown { conn with
              outputBuffer := outputBuffer, channel := conn.channel.disableWriting }
            omega
          · simp only [List.map_nil, List.sum_nil]
            omega
        · exact Nat.le_of_ble_eq_true rfl
      · exact Nat.zero_le _
    · exact Nat.zero_le _
  | sendInLoop message res => exact conn.sum_work_sendInLoop id message res

end TcpConnection

namespace ServerSystem

variable {s t u : ServerSystem} {c : ConnId} {r : ConnRecord} {L M : LoopId} {m n : Nat}

/-- The price of all that waits on the loop. -/
def loopWork (s : ServerSystem) (L : LoopId) : Nat :=
  ((s.todo L).map Task.work).sum + ((s.loop L).waiting.map Functor.work).sum
    + ((s.loop L).activeChannels.map ActiveChannel.work).sum

def work (s : ServerSystem) (S : Finset LoopId) : Nat := ∑ L ∈ S, s.loopWork L

/-- The loop thread is where it was, with the same things in its hands. -/
structure SameControl (l l' : EventLoop Source Functor) : Prop where
  pc : l'.pc = l.pc
  quit : l'.quit = l.quit
  called : l'.called = l.called
  functors : l'.functors = l.functors
  activeChannels : l'.activeChannels = l.activeChannels

theorem SameControl.refl (l : EventLoop Source Functor) : SameControl l l :=
  ⟨rfl, rfl, rfl, rfl, rfl⟩

theorem SameControl.trans {l l' l'' : EventLoop Source Functor} (h : SameControl l l')
    (h' : SameControl l' l'') : SameControl l l'' :=
  ⟨h'.pc.trans h.pc, h'.quit.trans h.quit, h'.called.trans h.called,
    h'.functors.trans h.functors, h'.activeChannels.trans h.activeChannels⟩

theorem SameControl.queueInLoop (l : EventLoop Source Functor) (isInLoopThread : Bool)
    (f : Functor) : SameControl l (l.queueInLoop isInLoopThread f) := by
  unfold EventLoop.queueInLoop EventLoop.wakeupIfNeeded
  split
  · exact ⟨rfl, rfl, rfl, rfl, rfl⟩
  · exact ⟨rfl, rfl, rfl, rfl, rfl⟩

/-- No connection joins, and none moves to another loop. -/
structure SameServer (s t : ServerSystem) : Prop where
  alive : t.server.alive = s.server.alive
  loops : t.server.loops = s.server.loops
  next : t.server.next = s.server.next
  accepted : t.accepted = s.accepted
  home : t.home = s.home

theorem SameServer.refl (s : ServerSystem) : SameServer s s := ⟨rfl, rfl, rfl, rfl, rfl⟩

theorem SameServer.trans (h : SameServer s t) (h' : SameServer t u) : SameServer s u :=
  ⟨h'.alive.trans h.alive, h'.loops.trans h.loops, h'.next.trans h.next,
    h'.accepted.trans h.accepted, h'.home.trans h.home⟩

/-- At most `n` is added, whichever loops are counted, and no loop thread moves. -/
structure Costs (n : Nat) (s t : ServerSystem) : Prop where
  work : ∀ S, t.work S ≤ s.work S + n
  control : ∀ L, SameControl (s.loop L) (t.loop L)
  server : SameServer s t

theorem Costs.of_same (htodo : t.todo = s.todo) (hloop : t.loop = s.loop)
    (hserver : SameServer s t) : Costs n s t := by
  have hsame : t.loopWork = s.loopWork := by
    funext L
    unfold loopWork
    rw [htodo, hloop]
  refine ⟨fun S => ?_, fun L => ?_, hserver⟩
  · unfold ServerSystem.work
    rw [hsame]
    exact Nat.le_add_right _ _
  · rw [hloop]
    exact .refl _

theorem Costs.refl (s : ServerSystem) : Costs n s s := .of_same rfl rfl (.refl s)

theorem Costs.setConn (hr : s.conns c = some r) {r' : ConnRecord}
    (hloop : r'.conn.loop = r.conn.loop) : Costs n s (s.setConn c r') :=
  .of_same rfl rfl ⟨rfl, rfl, rfl, rfl, home_setConn hr hloop⟩

theorem Costs.abort (s : ServerSystem) (fault : Fault) : Costs n s (s.abort fault) :=
  .of_same rfl rfl ⟨rfl, rfl, rfl, rfl, rfl⟩

theorem Costs.trans (h : Costs m s t) (h' : Costs n t u) : Costs (m + n) s u := by
  refine ⟨fun S => ?_, fun L => (h.control L).trans (h'.control L), h.server.trans h'.server⟩
  have hfirst := h.work S
  have hsecond := h'.work S
  omega

theorem Costs.mono (h : Costs m s t) (hle : m ≤ n) : Costs n s t :=
  ⟨fun S => Nat.le_trans (h.work S) (Nat.add_le_add_left hle _), h.control, h.server⟩

/-- Two sums that differ in one place differ by the difference there. -/
theorem sum_of_others {f g : LoopId → Nat} (hothers : ∀ M, M ≠ L → g M = f M)
    {S : Finset LoopId} (hL : L ∈ S) : ∑ M ∈ S, g M + f L = ∑ M ∈ S, f M + g L := by
  have hrest : ∑ M ∈ S.erase L, g M = ∑ M ∈ S.erase L, f M :=
    Finset.sum_congr rfl fun M hM => hothers M (Finset.ne_of_mem_erase hM)
  have hf := Finset.add_sum_erase S f hL
  have hg := Finset.add_sum_erase S g hL
  omega

theorem work_of_others (hothers : ∀ M, M ≠ L → t.loopWork M = s.loopWork M)
    {S : Finset LoopId} (hL : L ∈ S) :
    t.work S + s.loopWork L = s.work S + t.loopWork L :=
  sum_of_others hothers hL

theorem work_le_of_others (hothers : ∀ M, M ≠ L → t.loopWork M = s.loopWork M)
    (hL : t.loopWork L ≤ s.loopWork L + n) (S : Finset LoopId) : t.work S ≤ s.work S + n := by
  by_cases hmem : L ∈ S
  · have hsum := work_of_others hothers hmem
    omega
  · have hsame : t.work S = s.work S := by
      refine Finset.sum_congr rfl fun M hM => hothers M ?_
      rintro rfl
      exact hmem hM
    omega

/-! ### What the functions cost -/

theorem queueInLoop_costs (s : ServerSystem) (isInLoopThread : Bool) (L : LoopId) (f : Functor) :
    Costs f.work s (s.queueInLoop isInLoopThread L f) := by
  refine ⟨work_le_of_others (L := L) (fun M hM => ?_) ?_, fun M => ?_, ⟨rfl, rfl, rfl, rfl, rfl⟩⟩
  · unfold loopWork
    rw [waiting_queueInLoop, if_neg hM, List.append_nil, active_queueInLoop]
    rfl
  · unfold loopWork
    rw [waiting_queueInLoop, if_pos rfl, active_queueInLoop, List.map_append, List.sum_append]
    simp only [queueInLoop, setLoop, List.map_cons, List.map_nil, List.sum_cons, List.sum_nil]
    omega
  · by_cases hM : M = L
    · subst hM
      rw [queueInLoop, loop_setLoop]
      exact .queueInLoop _ _ _
    · rw [queueInLoop, loop_setLoop_ne _ _ hM]
      exact .refl _

theorem pushTasks_costs (s : ServerSystem) (L : LoopId) (tasks : List Task) :
    Costs (tasks.map Task.work).sum s (s.pushTasks L tasks) := by
  refine ⟨work_le_of_others (L := L) (fun M hM => ?_) ?_, fun M => .refl _,
    ⟨rfl, rfl, rfl, rfl, rfl⟩⟩
  · unfold loopWork pushTasks
    rw [todo_setTodo_ne _ _ hM]
    rfl
  · unfold loopWork pushTasks
    rw [todo_setTodo, List.map_append, List.sum_append]
    simp only [setTodo]
    omega

/-- What an effect adds is less than what it was worth. -/
theorem perform_costs (s : ServerSystem) (c : ConnId) (e : Effect) :
    ∃ n < e.work, Costs n s (s.perform c e) := by
  have hzero : 0 < e.work := by
    cases e with
    | queueInLoop f => exact Nat.lt_add_right _ Nat.one_pos
    | write _ | shutdownWrite | updateChannel | removeChannel | connectionCallback
    | messageCallback | closeCallback | assertion _ _ => exact Nat.succ_pos _
  unfold perform
  cases hr : s.conns c with
  | none => exact ⟨0, hzero, .refl s⟩
  | some r =>
    have hset : ∀ (p : EPollPoller ConnId) {r' : ConnRecord}, r'.conn.loop = r.conn.loop →
        Costs 0 s ((s.setPoller r.conn.loop p).setConn c r') := by
      intro p r' hloop
      have hpoller : Costs 0 s (s.setPoller r.conn.loop p) :=
        .of_same rfl rfl ⟨rfl, rfl, rfl, rfl, rfl⟩
      have hconn : Costs 0 (s.setPoller r.conn.loop p) ((s.setPoller r.conn.loop p).setConn c r') :=
        .setConn (s := s.setPoller r.conn.loop p) hr hloop
      exact hpoller.trans hconn
    cases e with
    | updateChannel | removeChannel =>
      refine ⟨0, hzero, ?_⟩
      dsimp only
      split
      · exact hset _ rfl
      · exact .abort s _
    | queueInLoop f =>
      exact ⟨f.work, Nat.lt_add_of_pos_left Nat.one_pos, queueInLoop_costs s true _ (.conn c f)⟩
    | assertion fault holds =>
      refine ⟨0, hzero, ?_⟩
      dsimp only
      split
      · exact .refl s
      · exact .abort s _
    | write _ | shutdownWrite | connectionCallback | messageCallback | closeCallback =>
      exact ⟨0, hzero, .refl s⟩

theorem runEffects_costs (L : LoopId) (c : ConnId) (effects : List Effect) :
    ∀ s : ServerSystem, Costs (effects.map Effect.work).sum s (s.runEffects L c effects) := by
  induction effects with
  | nil => exact .refl
  | cons e es ih =>
    intro s
    unfold runEffects
    split
    · have hpush := pushTasks_costs s L ((e :: es).map fun e => .conn c (.effect e))
      rw [List.map_map] at hpush
      exact hpush
    · obtain ⟨n, hn, hfirst⟩ := perform_costs s c e
      rw [List.map_cons, List.sum_cons]
      exact (hfirst.mono (Nat.le_of_lt hn)).trans (ih _)

theorem run_costs (s : ServerSystem) (c : ConnId) (op : ConnOp) :
    Costs op.work s (s.run c op) := by
  unfold run
  cases hr : s.conns c with
  | none => exact .refl s
  | some r =>
    dsimp only
    split
    · have hset : Costs 0 s (s.setConn c (r.exec op)) := .setConn hr (exec_same r.conn op).1
      have heffects := runEffects_costs r.conn.loop c (r.conn.exec op).2 (s.setConn c (r.exec op))
      exact (hset.trans heffects).mono (by rw [Nat.zero_add]; exact r.conn.sum_work_exec op)
    · exact .abort s _

theorem userCallback_costs (s : ServerSystem) (L : LoopId) (c : ConnId)
    (event : ConnRecord → UserEvent) : Costs 1 s (s.userCallback L c event) := by
  unfold userCallback
  cases hr : s.conns c with
  | none => exact .refl s
  | some r =>
    have hset : Costs 0 s (s.setConn c (r.addEvent (event r))) := .setConn hr rfl
    exact hset.trans (pushTasks_costs _ L [.conn c .user])

theorem removeConnectionInLoop_costs (s : ServerSystem) (c : ConnId) :
    Costs 5 s (s.removeConnectionInLoop c) := by
  unfold removeConnectionInLoop
  split
  · cases hr : s.conns c with
    | none => exact .refl s
    | some r =>
      let erased : ServerSystem := { s with server := { s.server with
        connections := Function.update s.server.connections r.conn.name none } }
      have herased : Costs 0 s erased := .of_same rfl rfl ⟨rfl, rfl, rfl, rfl, rfl⟩
      have hset : Costs 0 erased (erased.setConn c (r.addStep .removeConnectionInLoop)) :=
        .setConn (s := erased) hr rfl
      exact (herased.trans hset).trans (queueInLoop_costs _ _ _ (.conn c .connectDestroyed))
  · exact .abort s _

theorem removeConnection_costs (s : ServerSystem) (L : LoopId) (c : ConnId) :
    Costs 6 s (s.removeConnection L c) := by
  unfold removeConnection
  split
  · split
    · exact (removeConnectionInLoop_costs s c).mono (Nat.le_succ 5)
    · exact queueInLoop_costs s false mainLoop (.removeConnectionInLoop c)
  · exact .abort s _

theorem runEffect_costs (s : ServerSystem) (L : LoopId) (c : ConnId) (e : Effect) :
    ∃ n < e.work, Costs n s (s.runEffect L c e) := by
  have hperform := perform_costs s c e
  cases e with
  | connectionCallback | messageCallback =>
    exact ⟨1, Nat.lt_succ_self 1, userCallback_costs s L c _⟩
  | closeCallback => exact ⟨6, Nat.lt_succ_self 6, removeConnection_costs s L c⟩
  | write _ | shutdownWrite | updateChannel | removeChannel | queueInLoop _ | assertion _ _ =>
    exact hperform

theorem work_callbackOp {readRes : ReadvResult} {res : SysResult} {cb : EventCallback}
    {op : ConnOp} (h : callbackOp readRes res cb = some op) : op.work < cb.work := by
  cases cb with
  | close | read | write =>
    cases h
    exact Nat.lt_succ_self _
  | error => cases h

/-- **A task leaves less than it was worth.** -/
theorem runTask_costs (s : ServerSystem) (L : LoopId) (readRes : ReadvResult) (res : SysResult)
    (task : Task) : ∃ n < task.work, Costs n s (s.runTask L readRes res task) := by
  cases task with
  | user => exact ⟨0, Nat.one_pos, .refl s⟩
  | conn c task =>
    cases task with
    | callback cb =>
      simp only [runTask]
      cases hop : callbackOp readRes res cb with
      | none =>
        refine ⟨0, ?_, .refl s⟩
        cases cb with
        | close | error | read | write => exact Nat.succ_pos _
      | some op => exact ⟨op.work, work_callbackOp hop, run_costs s c op⟩
    | effect e => exact runEffect_costs s L c e
    | connectDestroyed => exact ⟨4, Nat.lt_succ_self 4, run_costs s c .connectDestroyed⟩
    | user => exact ⟨0, Nat.one_pos, .refl s⟩

theorem work_op {f : ConnFunctor} {res : SysResult} {op : ConnOp} (h : f.op res = some op) :
    op.work < f.work := by
  cases f with
  | connectEstablished | connectDestroyed | sendInLoop _ | shutdownInLoop =>
    cases h
    exact Nat.lt_succ_self _
  | writeComplete | highWaterMark _ => cases h

/-- **A functor leaves less than it was worth.** -/
theorem runFunctor_costs (s : ServerSystem) (L : LoopId) (res : SysResult) (f : Functor) :
    ∃ n < f.work, Costs n s (s.runFunctor L res f) := by
  cases f with
  | conn c f =>
    simp only [runFunctor]
    cases hop : f.op res with
    | none =>
      refine ⟨1, ?_, pushTasks_costs s L [.conn c .user]⟩
      cases f with
      | writeComplete | highWaterMark _ => exact Nat.lt_succ_self 1
      | connectEstablished | connectDestroyed | sendInLoop _ | shutdownInLoop => cases hop
    | some op => exact ⟨op.work, work_op hop, run_costs s c op⟩
  | removeConnectionInLoop c => exact ⟨5, Nat.lt_succ_self 5, removeConnectionInLoop_costs s c⟩
  | user => exact ⟨1, Nat.lt_succ_self 1, pushTasks_costs s L [.user]⟩

theorem newConnection_costs (s : ServerSystem) (fd : Fd) :
    Costs 5 (s.insertConnection fd) (s.newConnection fd) := by
  unfold newConnection
  split
  · exact (run_costs _ _ .connectEstablished).mono (Nat.le_succ 4)
  · exact queueInLoop_costs _ _ _ (.conn s.accepted .connectEstablished)

/-- The system once the new connection, if there is one, is in `connections_`. -/
def Joined (s : ServerSystem) (fd : Option Fd) (u : ServerSystem) : Prop :=
  u = s ∨ ∃ newFd, fd = some newFd ∧ u = s.insertConnection newFd

theorem Joined.work {fd : Option Fd} (h : s.Joined fd u) (S : Finset LoopId) :
    u.work S = s.work S := by
  rcases h with rfl | ⟨newFd, _, rfl⟩
  · rfl
  · rfl

theorem Joined.loop {fd : Option Fd} (h : s.Joined fd u) : u.loop = s.loop := by
  rcases h with rfl | ⟨newFd, _, rfl⟩
  · rfl
  · rfl

/-- **The handling of an active channel leaves less than the report was worth.** -/
theorem handleActive_costs {fd : Option Fd} {a : ActiveChannel Source}
    (hactive : s.handleActive L fd a = some t) :
    ∃ u, s.Joined fd u ∧ ∃ n < a.work, Costs n u t := by
  cases a with
  | wakeupChannel =>
    cases hactive
    exact ⟨s, Or.inl rfl, 0, Nat.one_pos, .refl s⟩
  | channel source =>
    cases source with
    | acceptor =>
      simp only [handleActive, acceptorHandleRead] at hactive
      split at hactive
      · cases fd with
        | none =>
          cases hactive
          exact ⟨s, Or.inl rfl, 0, Nat.succ_pos 5, .refl s⟩
        | some fd =>
          simp only [Option.ite_none_right_eq_some, Option.some.injEq] at hactive
          obtain ⟨_, rfl⟩ := hactive
          exact ⟨_, Or.inr ⟨fd, rfl, rfl⟩, 5, Nat.lt_succ_self 5, newConnection_costs s fd⟩
      · cases hactive
        exact ⟨s, Or.inl rfl, 0, Nat.succ_pos 5, .abort s _⟩
    | conn c revents =>
      obtain ⟨r, _, rfl⟩ := Option.map_eq_some_iff.mp hactive
      refine ⟨s, Or.inl rfl, _, Nat.lt_add_of_pos_left Nat.one_pos, ?_⟩
      split
      · have hpush := pushTasks_costs s L
          ((Channel.handleEventWithGuard revents).map fun cb => .conn c (.callback cb))
        rw [List.map_map] at hpush
        exact hpush
      · exact .abort s _

theorem work_call {conn : TcpConnection} {isInLoopThread : Bool} {request : Request}
    {f : ConnFunctor} (h : (request.call conn isInLoopThread).2 = .run f
      ∨ (request.call conn isInLoopThread).2 = .queue f) : f.work ≤ 6 := by
  have hrunInLoop : ∀ g, TcpConnection.runInLoop isInLoopThread g = .run f
      ∨ TcpConnection.runInLoop isInLoopThread g = .queue f → f = g := by
    intro g hg
    cases isInLoopThread with
    | true | false => simpa [TcpConnection.runInLoop, eq_comm] using hg
  cases request with
  | send message =>
    have hf : f = .sendInLoop message := by
      simp only [Request.call, TcpConnection.send] at h
      split at h
      · split at h
        · simpa [eq_comm] using h
        · exact hrunInLoop _ h
      · simp at h
    rw [hf]
    exact Nat.le_refl _
  | shutdown =>
    have hf : f = .shutdownInLoop := by
      simp only [Request.call, TcpConnection.shutdown] at h
      split at h
      · exact hrunInLoop _ h
      · simp at h
    rw [hf]
    exact Nat.le_of_ble_eq_true rfl

theorem userCall_costs {who : UserThread} {request : Request} {res : SysResult}
    (hcall : s.userCall who c request res = some t) : Costs 6 s t := by
  obtain ⟨r, hr, rfl⟩ := Option.map_eq_some_iff.mp hcall
  have hset : Costs 0 s (s.setConn c
      { r with conn := (request.call r.conn (who = .loop r.conn.loop)).1 }) :=
    .setConn hr (call_same r.conn _ request).1
  dsimp only
  split
  · exact hset.mono (Nat.zero_le 6)
  · rename_i f hdispatch
    have hf := work_call (Or.inl hdispatch)
    split
    · rename_i op hop
      have hop' := work_op hop
      exact (hset.trans (run_costs _ c op)).mono (by omega)
    · exact hset.mono (Nat.zero_le 6)
  · rename_i f hdispatch
    have hf := work_call (Or.inr hdispatch)
    exact (hset.trans (queueInLoop_costs _ false _ (.conn c f))).mono
      (by rw [Nat.zero_add]; exact hf)

theorem queue_all_costs (loopOf : ConnId → LoopId) (order : List ConnId) :
    ∀ s : ServerSystem, Costs (5 * order.length) s (order.foldl
      (fun t c => t.queueInLoop false (loopOf c) (.conn c .connectDestroyed)) s) := by
  induction order with
  | nil => exact .refl
  | cons c order ih =>
    intro s
    have hfirst := queueInLoop_costs s false (loopOf c) (.conn c .connectDestroyed)
    refine (hfirst.trans (ih _)).mono ?_
    rw [List.length_cons, Nat.mul_succ, Nat.add_comm]
    exact Nat.le_refl _

/-- The server gives `connections_` up. -/
def dying (s : ServerSystem) : ServerSystem :=
  { s with server := { s.server with alive := false, connections := fun _ => none } }

theorem destroyServer_costs (s : ServerSystem) (order : List ConnId) :
    Costs (5 * order.length) s.dying (s.destroyServer order) := by
  let away := order.filter (s.loopOf · ≠ mainLoop)
  let here := order.filter (s.loopOf · = mainLoop)
  have hqueue := queue_all_costs s.loopOf away s.dying
  have hpush := pushTasks_costs (away.foldl
    (fun t c => t.queueInLoop false (s.loopOf c) (.conn c .connectDestroyed)) s.dying) mainLoop
    (here.map fun c => .conn c .connectDestroyed)
  have hlength : away.length + here.length = order.length := by
    simp only [away, here, ← List.countP_eq_length_filter]
    rw [List.length_eq_countP_add_countP (p := (s.loopOf · = mainLoop)), Nat.add_comm]
    simp only [decide_not, Bool.not_eq_true, Bool.decide_eq_false]
  have hhere : ((here.map fun c => Task.conn c .connectDestroyed).map Task.work).sum
      = 5 * here.length := by
    rw [List.map_map]
    change (here.map fun _ => 5).sum = _
    rw [List.map_const', List.sum_replicate_nat, Nat.mul_comm]
  refine (hqueue.trans hpush).mono ?_
  rw [hhere]
  omega

theorem destroy_costs (hdestroy : s.destroy c = some t) : Costs 0 s t := by
  obtain ⟨r, hr, hdestroy⟩ := Option.bind_eq_some_iff.mp hdestroy
  simp only [Option.ite_none_right_eq_some] at hdestroy
  obtain ⟨_, hdestroy⟩ := hdestroy
  split at hdestroy
  · cases hdestroy
    exact .setConn hr rfl
  · cases hdestroy
    exact .abort s _

/-! ### What the steps cost -/

/-- The loop thread that does something that has waited. -/
def worker : ServerAct → Option LoopId
  | .handleEvent L _ | .callFunctor L _ | .task L _ _ => some L
  | _ => none

def spent (act : ServerAct) : Nat := (worker act).toList.length

/-- What comes from outside with the step, in steps of the loop threads. -/
def gift : ServerAct → Nat
  | .loopStep _ (.poll active) => 31 * active.length
  | .userCall _ _ _ _ => 6
  | .userQueue _ _ => 2
  | .destroyServer order => 5 * order.length
  | _ => 0

theorem loopWork_setLoop (s : ServerSystem) (L : LoopId) (l : EventLoop Source Functor) :
    (s.setLoop L l).loopWork L = ((s.todo L).map Task.work).sum
      + (l.waiting.map Functor.work).sum + (l.activeChannels.map ActiveChannel.work).sum := by
  unfold loopWork
  rw [loop_setLoop]
  rfl

theorem loopWork_setLoop_ne (l : EventLoop Source Functor) (h : M ≠ L) :
    (s.setLoop L l).loopWork M = s.loopWork M := by
  unfold loopWork
  rw [loop_setLoop_ne _ _ h]
  rfl

theorem sum_work_active_le (active : List (ActiveChannel Source)) :
    (active.map ActiveChannel.work).sum ≤ 31 * active.length := by
  induction active with
  | nil => exact Nat.le_refl _
  | cons a active ih =>
    have hfirst := a.work_le
    rw [List.map_cons, List.sum_cons, List.length_cons]
    omega

/-- The loop's own steps add what a poll reports. -/
theorem advance_work {a : LoopStep Source} {l : EventLoop Source Functor}
    (hl : (s.loop L).advance a = some l) :
    (s.setLoop L l).loopWork L ≤ s.loopWork L + gift (.loopStep L a) := by
  rw [loopWork_setLoop, loopWork]
  cases EventLoop.advances hl with
  | enter _ | resetQuit _ | leave _ _ | beginPending _ _ | endPending _ _ =>
    exact Nat.le_add_right _ _
  | goOn _ _ =>
    simp only [List.map_nil, List.sum_nil, EventLoop.waiting]
    omega
  | poll _ active =>
    have hactive := sum_work_active_le active
    simp only [gift, EventLoop.waiting]
    omega
  | handleWakeup _ rest hactive =>
    simp only [hactive, List.map_cons, List.sum_cons, EventLoop.waiting, EventLoop.handleRead]
    omega
  | handleChannel _ source rest hactive =>
    simp only [hactive, List.map_cons, List.sum_cons, EventLoop.waiting]
    omega
  | swap _ =>
    simp only [EventLoop.waiting, List.append_nil, List.map_append, List.sum_append]
    omega
  | callFunctor _ cb rest hfunctors =>
    simp only [EventLoop.waiting, hfunctors, List.cons_append, List.map_cons, List.sum_cons]
    omega

/-- `handleEvent` takes the report out. -/
theorem handleEvent_work {a : ActiveChannel Source} {rest : List (ActiveChannel Source)}
    {l : EventLoop Source Functor} (hactive : (s.loop L).activeChannels = a :: rest)
    (hl : (s.loop L).advance .handleEvent = some l) :
    (s.setLoop L l).loopWork L + a.work = s.loopWork L := by
  have hsame : l.activeChannels = rest ∧ l.waiting = (s.loop L).waiting := by
    cases EventLoop.advances hl with
    | handleWakeup _ rest' hactive' =>
      rw [hactive] at hactive'
      cases hactive'
      exact ⟨rfl, rfl⟩
    | handleChannel _ source rest' hactive' =>
      rw [hactive] at hactive'
      cases hactive'
      exact ⟨rfl, rfl⟩
  rw [loopWork_setLoop, loopWork, hactive, hsame.1, hsame.2, List.map_cons, List.sum_cons]
  omega

/-- The call of a functor takes it out. -/
theorem callFunctor_work {f : Functor} {rest : List Functor} {l : EventLoop Source Functor}
    (hfunctors : (s.loop L).functors = f :: rest)
    (hl : (s.loop L).advance .callFunctor = some l) :
    (s.setLoop L l).loopWork L + f.work = s.loopWork L := by
  cases EventLoop.advances hl with
  | callFunctor _ cb rest' hfunctors' =>
    rw [hfunctors] at hfunctors'
    cases hfunctors'
    rw [loopWork_setLoop, loopWork]
    simp only [EventLoop.waiting, hfunctors, List.cons_append, List.map_cons, List.sum_cons]
    omega

theorem loopWork_setTodo_ne (tasks : List Task) (h : M ≠ L) :
    (s.setTodo L tasks).loopWork M = s.loopWork M := by
  unfold loopWork
  rw [todo_setTodo_ne _ _ h]
  rfl

/-- A task is taken out. -/
theorem task_work {task : Task} {rest : List Task} (htodo : s.todo L = task :: rest) :
    (s.setTodo L rest).loopWork L + task.work = s.loopWork L := by
  unfold loopWork
  rw [todo_setTodo, htodo, List.map_cons, List.sum_cons]
  simp only [setTodo]
  omega

/-- **What is taken out pays for the step and for all that is put back.** -/
theorem work_taken {S : Finset LoopId} {price n : Nat}
    (hothers : ∀ M, M ≠ L → u.loopWork M = s.loopWork M)
    (htaken : u.loopWork L + price = s.loopWork L) (hn : n < price)
    (hcosts : t.work S ≤ u.work S + n) (hL : L ∈ S) : 1 + t.work S ≤ s.work S := by
  have hsum := work_of_others hothers hL
  omega

/-- **A step pays for itself** out of what waits on the loops and of what comes from outside. -/
theorem step_pays {act : ServerAct} {S : Finset LoopId} (hS : ∀ L ∈ worker act, L ∈ S)
    (hstep : s.step act = some t) : spent act + t.work S ≤ s.work S + gift act := by
  have hfree : ∀ {n}, Costs n s t → t.work S ≤ s.work S + n := fun h => h.work S
  have hdoes := step_does hstep
  cases act with
  | loopStep L a =>
    obtain ⟨_, _, l, hl, rfl⟩ := hdoes
    have hwork := work_le_of_others (fun M hM => loopWork_setLoop_ne l hM) (advance_work hl) S
    simp only [spent, worker, Option.toList_none, List.length_nil, Nat.zero_add]
    exact hwork
  | handleEvent L fd =>
    obtain ⟨_, a, rest, l, hactive, hl, ht⟩ := hdoes
    obtain ⟨u, hjoined, n, hn, hcosts⟩ := handleActive_costs ht
    have hwork := hcosts.work S
    rw [hjoined.work] at hwork
    exact work_taken (fun M hM => loopWork_setLoop_ne l hM) (handleEvent_work hactive hl) hn hwork
      (hS L rfl)
  | callFunctor L res =>
    obtain ⟨_, f, rest, l, hfunctors, hl, rfl⟩ := hdoes
    obtain ⟨n, hn, hcosts⟩ := runFunctor_costs (s.setLoop L l) L res f
    exact work_taken (fun M hM => loopWork_setLoop_ne l hM) (callFunctor_work hfunctors hl) hn
      (hcosts.work S) (hS L rfl)
  | task L readRes res =>
    obtain ⟨task, rest, htodo, rfl⟩ := hdoes
    obtain ⟨n, hn, hcosts⟩ := runTask_costs (s.setTodo L rest) L readRes res task
    exact work_taken (fun M hM => loopWork_setTodo_ne rest hM) (task_work htodo) hn
      (hcosts.work S) (hS L rfl)
  | userCall who c request res =>
    have hwork := hfree (userCall_costs hdoes.2)
    simp only [spent, worker, gift, Option.toList_none, List.length_nil]
    omega
  | userCopy who c =>
    obtain ⟨_, rfl⟩ := hdoes
    exact Nat.le_of_eq (Nat.zero_add _)
  | userDrop c =>
    obtain ⟨_, rfl⟩ := hdoes
    exact Nat.le_of_eq (Nat.zero_add _)
  | userQueue L isInLoopThread =>
    cases hdoes
    have hwork := hfree (queueInLoop_costs s isInLoopThread L .user)
    simp only [spent, worker, gift, Option.toList_none, List.length_nil, Nat.zero_add]
    exact hwork
  | quit L =>
    cases hdoes
    have hwork := work_le_of_others (s := s) (n := 0)
      (t := s.setLoop L { (s.loop L).wakeup with quit := true })
      (fun M hM => loopWork_setLoop_ne _ hM) (by rw [loopWork_setLoop]; exact Nat.le_refl _) S
    simp only [spent, worker, gift, Option.toList_none, List.length_nil, Nat.zero_add]
    exact hwork
  | destroy c =>
    have hwork := hfree (destroy_costs hdoes)
    simp only [spent, worker, gift, Option.toList_none, List.length_nil, Nat.zero_add]
    exact hwork
  | destroyServer order =>
    obtain ⟨_, rfl⟩ := hdoes
    have hwork := (destroyServer_costs s order).work S
    simp only [spent, worker, gift, Option.toList_none, List.length_nil, Nat.zero_add]
    exact hwork

/-! ### What the steps leave alone -/

/-- A loop thread moves by a step of its own; `quit` only leaves a message. -/
inductive LoopMoves (l : EventLoop Source Functor) : EventLoop Source Functor → Prop where
  | stay : LoopMoves l l
  | advance {a : LoopStep Source} {l' : EventLoop Source Functor} (h : l.advance a = some l') :
      LoopMoves l l'
  | quit : LoopMoves l { l.wakeup with quit := true }

theorem LoopMoves.setLoop {l : EventLoop Source Functor} (h : LoopMoves (s.loop L) l)
    (M : LoopId) : LoopMoves (s.loop M) ((s.setLoop L l).loop M) := by
  by_cases hM : M = L
  · subst hM
    rw [loop_setLoop]
    exact h
  · rw [loop_setLoop_ne _ _ hM]
    exact .stay

theorem step_moves {act : ServerAct} (hstep : s.step act = some t) (M : LoopId) :
    ∃ l, LoopMoves (s.loop M) l ∧ SameControl l (t.loop M) := by
  have hcosts : ∀ {n}, Costs n s t → ∃ l, LoopMoves (s.loop M) l ∧ SameControl l (t.loop M) :=
    fun h => ⟨_, .stay, h.control M⟩
  have hdoes := step_does hstep
  cases act with
  | loopStep L a =>
    obtain ⟨_, _, l, hl, rfl⟩ := hdoes
    exact ⟨_, (LoopMoves.advance hl).setLoop M, .refl _⟩
  | handleEvent L fd =>
    obtain ⟨_, a, rest, l, _, hl, ht⟩ := hdoes
    obtain ⟨u, hjoined, n, _, hafter⟩ := handleActive_costs ht
    have hcontrol := hafter.control M
    rw [hjoined.loop] at hcontrol
    exact ⟨_, (LoopMoves.advance hl).setLoop M, hcontrol⟩
  | callFunctor L res =>
    obtain ⟨_, f, rest, l, _, hl, rfl⟩ := hdoes
    obtain ⟨n, _, hafter⟩ := runFunctor_costs (s.setLoop L l) L res f
    exact ⟨_, (LoopMoves.advance hl).setLoop M, hafter.control M⟩
  | task L readRes res =>
    obtain ⟨task, rest, _, rfl⟩ := hdoes
    obtain ⟨n, _, hafter⟩ := runTask_costs (s.setTodo L rest) L readRes res task
    exact ⟨_, .stay, hafter.control M⟩
  | userCall who c request res => exact hcosts (userCall_costs hdoes.2)
  | userCopy who c =>
    obtain ⟨_, rfl⟩ := hdoes
    exact ⟨_, .stay, .refl _⟩
  | userDrop c =>
    obtain ⟨_, rfl⟩ := hdoes
    exact ⟨_, .stay, .refl _⟩
  | userQueue L isInLoopThread =>
    cases hdoes
    exact hcosts (queueInLoop_costs s isInLoopThread L .user)
  | quit L =>
    cases hdoes
    exact ⟨_, LoopMoves.quit.setLoop M, .refl _⟩
  | destroy c => exact hcosts (destroy_costs hdoes)
  | destroyServer order =>
    obtain ⟨_, rfl⟩ := hdoes
    exact ⟨_, .stay, (destroyServer_costs s order).control M⟩

/-- A connection joins, the server is destroyed, or neither. -/
theorem step_server {act : ServerAct} (hstep : s.step act = some t) :
    SameServer s t ∨ SameServer s.dying t ∨ ∃ fd, SameServer (s.insertConnection fd) t := by
  have hdoes := step_does hstep
  cases act with
  | loopStep L a =>
    obtain ⟨_, _, l, hl, rfl⟩ := hdoes
    exact Or.inl ⟨rfl, rfl, rfl, rfl, rfl⟩
  | handleEvent L fd =>
    obtain ⟨_, a, rest, l, _, hl, ht⟩ := hdoes
    obtain ⟨u, hjoined, n, _, hafter⟩ := handleActive_costs ht
    rcases hjoined with rfl | ⟨newFd, _, rfl⟩
    · have hset : SameServer s (s.setLoop L l) := ⟨rfl, rfl, rfl, rfl, rfl⟩
      exact Or.inl (hset.trans hafter.server)
    · have hset : SameServer (s.insertConnection newFd) ((s.setLoop L l).insertConnection newFd) :=
        ⟨rfl, rfl, rfl, rfl, rfl⟩
      exact Or.inr (Or.inr ⟨newFd, hset.trans hafter.server⟩)
  | callFunctor L res =>
    obtain ⟨_, f, rest, l, _, hl, rfl⟩ := hdoes
    obtain ⟨n, _, hafter⟩ := runFunctor_costs (s.setLoop L l) L res f
    have hset : SameServer s (s.setLoop L l) := ⟨rfl, rfl, rfl, rfl, rfl⟩
    exact Or.inl (hset.trans hafter.server)
  | task L readRes res =>
    obtain ⟨task, rest, _, rfl⟩ := hdoes
    obtain ⟨n, _, hafter⟩ := runTask_costs (s.setTodo L rest) L readRes res task
    have hset : SameServer s (s.setTodo L rest) := ⟨rfl, rfl, rfl, rfl, rfl⟩
    exact Or.inl (hset.trans hafter.server)
  | userCall who c request res => exact Or.inl (userCall_costs hdoes.2).server
  | userCopy who c =>
    obtain ⟨_, rfl⟩ := hdoes
    exact Or.inl ⟨rfl, rfl, rfl, rfl, rfl⟩
  | userDrop c =>
    obtain ⟨_, rfl⟩ := hdoes
    exact Or.inl ⟨rfl, rfl, rfl, rfl, rfl⟩
  | userQueue L isInLoopThread =>
    cases hdoes
    exact Or.inl (queueInLoop_costs s isInLoopThread L .user).server
  | quit L =>
    cases hdoes
    exact Or.inl ⟨rfl, rfl, rfl, rfl, rfl⟩
  | destroy c => exact Or.inl (destroy_costs hdoes).server
  | destroyServer order =>
    obtain ⟨_, rfl⟩ := hdoes
    exact Or.inr (Or.inl (destroyServer_costs s order).server)

/-! ### Runs -/

/-- What is still to be done on the loops at work is never more than what the run has been
    given and has not spent. -/
theorem run_pays {acts : List ServerAct} (hrun : Runs.run step s acts = some t) :
    (acts.map spent).sum + t.work (acts.filterMap worker).toFinset
      ≤ s.work (acts.filterMap worker).toFinset + (acts.map gift).sum := by
  refine Runs.amortized (I := fun _ => True) (fun _ _ _ _ _ => trivial)
    (fun act hact s t _ hstep => step_pays (fun L hL => ?_) hstep) trivial hrun
  rw [List.mem_toFinset, List.mem_filterMap]
  exact ⟨act, hact, hL⟩

theorem work_start (server : TcpServer) (S : Finset LoopId) : (start server).work S = 0 :=
  Finset.sum_eq_zero fun _ _ => rfl

/-- **The loop threads do no more than they are given to do.** -/
theorem work_bounded (server : TcpServer) (acts : List ServerAct) (s : ServerSystem)
    (hrun : Runs.run step (start server) acts = some s) :
    (acts.map spent).sum ≤ (acts.map gift).sum := by
  have hpays := run_pays hrun
  rw [work_start, Nat.zero_add] at hpays
  omega

theorem work_bounded_oneConnection :
    (oneConnection.map spent).sum = 14
      ∧ (oneConnection.map spent).sum ≤ (oneConnection.map gift).sum := by
  obtain ⟨s, hs⟩ : ∃ s, Runs.run step (start (.new ['s'] ⟨(127, 0, 0, 1), 80⟩ true [1]))
      oneConnection = some s := ⟨_, rfl⟩
  exact ⟨rfl, work_bounded _ oneConnection s hs⟩

end ServerSystem

end Ymuduo
