/-
  Ymuduo/HandOver.lean
  ====================
  **How a connection is handed from the map to `connectDestroyed`.**

  Besides the users, three things hold a `TcpConnectionPtr`: the map, what the loop of the
  connection is doing for it, and the functors that capture one, which go only when
  `doPendingFunctors` returns.  `removeConnectionInLoop` erases the entry and queues
  `connectDestroyed`; so until that is taken out of `pendingFunctors_`, one of the two is
  there.  `sendInLoop` and `shutdownInLoop` are queued with a raw `this`: what is pushed after
  that is `Late`, and only a pointer that the users keep holds the connection for it.

  `Adds` says what a function that a thread runs for one connection may leave behind, and
  `step_moves` what a step does to the holders.
-/
import Ymuduo.Confinement

namespace Ymuduo

/-- The functor has a raw `this`. -/
def ConnFunctor.isRaw : ConnFunctor → Bool
  | .sendInLoop _ | .shutdownInLoop => true
  | _ => false

/-- The functor has a raw `this`, which is `c`. -/
def Job.isRaw (c : ConnId) : Job → Bool
  | .functor (.conn d f) => d = c && f.isRaw
  | _ => false

/-- The functor captures a `TcpConnectionPtr` to `c`. -/
def Job.Captures (c : ConnId) : Job → Prop
  | .functor f => f.Captures c
  | .listen => False

instance (c : ConnId) : (f : Job) → Decidable (f.Captures c)
  | .functor f => inferInstanceAs (Decidable (f.Captures c))
  | .listen => inferInstanceAs (Decidable False)

abbrev Job.connectDestroyed (c : ConnId) : Job := .functor (.conn c .connectDestroyed)

/-- The connection that the functor is for. -/
def Job.target : Job → Option ConnId
  | .functor (.conn c _) | .functor (.removeConnectionInLoop c) => some c
  | .functor .user | .listen => none

def Task.target : Task → Option ConnId
  | .conn c _ => some c
  | .user => none

def PendingCall.target : PendingCall → ConnId
  | .setState c | .runInLoop c _ => c

namespace ThreadSystem

/-! ### Holders -/

/-- A `TcpConnectionPtr` in what the loop of `c` has to do for it, or captured by a functor of
    a batch that is not released or of a queue. -/
def Guarded (s : ThreadSystem) (c : ConnId) : Prop :=
  (∃ t ∈ s.todo (.loop (s.loopOf c)), (t.of c).isSome)
    ∨ ∃ L ∈ [mainLoop, s.loopOf c],
      ∃ f ∈ (s.loop L).called ++ (s.loop L).waiting, f.Captures c

instance (s : ThreadSystem) (c : ConnId) : Decidable (s.Guarded c) :=
  inferInstanceAs (Decidable (_ ∨ _))

/-- The pointer that the callback has got in which the thread runs the user's code. -/
def IsArgument (s : ThreadSystem) (T : Thread) (c : ConnId) : Prop :=
  (s.todo T).head? = some (.conn c .user)

instance (s : ThreadSystem) (T : Thread) (c : ConnId) : Decidable (s.IsArgument T c) :=
  inferInstanceAs (Decidable (_ = _))

/-! ### `connectDestroyed` and what comes after it -/

/-- `connectDestroyed` has run. -/
def Ran (s : ThreadSystem) (c : ConnId) : Prop := ∃ e ∈ s.log, e.2 = .run c .connectDestroyed

instance (s : ThreadSystem) (c : ConnId) : Decidable (s.Ran c) :=
  inferInstanceAs (Decidable (∃ e ∈ _, _))

/-- `doPendingFunctors` has taken `connectDestroyed` out of `pendingFunctors_`. -/
def Taken (s : ThreadSystem) (c : ConnId) : Prop :=
  .connectDestroyed c ∈ (s.loop (s.loopOf c)).functors ∨ s.Ran c

instance (s : ThreadSystem) (c : ConnId) : Decidable (s.Taken c) :=
  inferInstanceAs (Decidable (_ ∨ _))

/-- A functor with a raw `this` waits, and its batch has no `connectDestroyed`. -/
def Trails (l : EventLoop Source Job) (c : ConnId) : Prop :=
  (∃ f ∈ l.pendingFunctors, f.isRaw c = true)
    ∨ (∃ f ∈ l.functors, f.isRaw c = true) ∧ .connectDestroyed c ∉ l.called ++ l.functors

instance (l : EventLoop Source Job) (c : ConnId) : Decidable (Trails l c) :=
  inferInstanceAs (Decidable (_ ∨ _))

/-- A functor waits that `send` or `shutdown` has pushed after `connectDestroyed` was taken. -/
def Late (s : ThreadSystem) (c : ConnId) : Prop :=
  s.Taken c ∧ Trails (s.loop (s.loopOf c)) c

instance (s : ThreadSystem) (c : ConnId) : Decidable (s.Late c) :=
  inferInstanceAs (Decidable (_ ∧ _))

/-! ### What a step is about -/

/-- The connection that the step calls into. -/
def target (s : ThreadSystem) : ThreadAct → Option ConnId
  | .handleEvent L _ =>
    match (s.loop L).activeChannels.head? with
    | some (.channel (.conn c _)) => some c
    | _ => none
  | .callFunctor L _ => (s.loop L).functors.head?.bind Job.target
  | .task T _ _ => (s.todo T).head?.bind Task.target
  | .userCall _ c _ => some c
  | .proceed T _ => (s.call T).map PendingCall.target
  | .loopStep _ _ | .start _ | .userQueue _ _ | .quit _ _ | .destroyServer _ => none

/-- The connection that the step removes from the map, or asks the main loop to. -/
def removes (s : ThreadSystem) : ThreadAct → Option ConnId
  | .callFunctor L _ =>
    match (s.loop L).functors.head? with
    | some (.functor (.removeConnectionInLoop c)) => some c
    | _ => none
  | .task T _ _ =>
    match (s.todo T).head? with
    | some (.conn c (.effect .closeCallback)) => some c
    | _ => none
  | _ => none

/-- The step runs `newConnection`. -/
def accepts (s : ThreadSystem) : ThreadAct → Bool
  | .handleEvent L (some _) => (s.loop L).activeChannels.head? = some (.channel .acceptor)
  | _ => false

/-- `newConnection` finds no connection under its name, and `removeConnectionInLoop` no
    other one. -/
def OwnEntry (s : ThreadSystem) (a : ThreadAct) : Prop :=
  (s.accepts a = true → s.server.connections (s.server.connName s.server.nextConnId) = none)
    ∧ ∀ c ∈ s.removes a, ∀ conn ∈ s.conns c, ∀ d ∈ s.server.connections conn.name, d = c

instance (s : ThreadSystem) (a : ThreadAct) : Decidable (s.OwnEntry a) :=
  inferInstanceAs (Decidable (_ ∧ _))

end ThreadSystem

/-! ### What the functions leave behind -/

/-- Without a raw `this`, and a holder of `who` at most. -/
def Job.Plain (who : Option ConnId) (f : Job) : Prop :=
  (∀ c, f.isRaw c = false) ∧ ∀ c, f.Captures c → who = some c

/-- It will not run `connectDestroyed` nor push a functor with a raw `this`. -/
def ConnTask.Plain : ConnTask → Prop
  | .connectDestroyed => False
  | .effect (.queueInLoop f) => f.isRaw = false
  | _ => True

/-- What its own functions never change of a connection. -/
def TcpConnection.home (conn : TcpConnection) : LoopId × Name := (conn.loop, conn.name)

namespace ThreadSystem

variable {s t u : ThreadSystem} {T U : Thread} {L : LoopId} {c d : ConnId} {conn : TcpConnection}
  {who removed : Option ConnId}

/-- `T` has run a function on behalf of `who`.  Only `removed` may have left the map, with its
    `connectDestroyed` queued. -/
structure Adds (T : Thread) (who removed : Option ConnId) (s t : ThreadSystem) : Prop where
  conns : ∀ c, (t.conns c).map TcpConnection.home = (s.conns c).map TcpConnection.home
  call : t.call = s.call
  functors : ∀ L, (t.loop L).functors = (s.loop L).functors
  called : ∀ L, (t.loop L).called = (s.loop L).called
  pending : ∀ L, ∃ new, (t.loop L).pendingFunctors = (s.loop L).pendingFunctors ++ new
    ∧ ∀ f ∈ new, f.Plain who
  others : ∀ U, U ≠ T → t.todo U = s.todo U
  todo : ∃ new, t.todo T = new ++ s.todo T ∧ ∀ c u, .conn c u ∈ new → who = some c ∧ u.Plain
  mapped : ∀ name c, t.server.connections name = some c → s.server.connections name = some c
  entry : ∀ name c, s.server.connections name = some c → t.server.connections name = some c
    ∨ ∃ d ∈ removed, ∃ conn, s.conns d = some conn ∧ conn.name = name
      ∧ .connectDestroyed d ∈ (t.loop conn.loop).pendingFunctors
  ran : ∀ c, t.Ran c ↔ s.Ran c

theorem Adds.conn_of (h : Adds T who removed s t) (hconn : t.conns c = some conn) :
    ∃ conn', s.conns c = some conn' ∧ conn'.loop = conn.loop ∧ conn'.name = conn.name := by
  have hplace := h.conns c
  rw [hconn, Option.map_some] at hplace
  obtain ⟨conn', hconn', heq⟩ := Option.map_eq_some_iff.mp hplace.symm
  exact ⟨conn', hconn', congrArg Prod.fst heq, congrArg Prod.snd heq⟩

theorem Adds.mem_pending (h : Adds T who removed s t) {f : Job}
    (hf : f ∈ (s.loop L).pendingFunctors) : f ∈ (t.loop L).pendingFunctors := by
  obtain ⟨new, hpending, _⟩ := h.pending L
  rw [hpending]
  exact List.mem_append_left _ hf

theorem Adds.refl (s : ThreadSystem) : Adds T who removed s s where
  conns := fun _ => rfl
  call := rfl
  functors := fun _ => rfl
  called := fun _ => rfl
  pending := fun _ => ⟨[], (List.append_nil _).symm, fun _ hf => absurd hf List.not_mem_nil⟩
  others := fun _ _ => rfl
  todo := ⟨[], rfl, fun _ _ hin => absurd hin List.not_mem_nil⟩
  mapped := fun _ _ => id
  entry := fun _ _ => Or.inl
  ran := fun _ => Iff.rfl

theorem Adds.trans (h : Adds T who removed s t) (h' : Adds T who removed t u) :
    Adds T who removed s u where
  conns := fun c => (h'.conns c).trans (h.conns c)
  call := h'.call.trans h.call
  functors := fun L => (h'.functors L).trans (h.functors L)
  called := fun L => (h'.called L).trans (h.called L)
  pending := by
    intro L
    obtain ⟨new, hnew, hplain⟩ := h.pending L
    obtain ⟨new', hnew', hplain'⟩ := h'.pending L
    refine ⟨new ++ new', by rw [hnew', hnew, List.append_assoc], fun f hf => ?_⟩
    rcases List.mem_append.mp hf with hin | hin
    · exact hplain f hin
    · exact hplain' f hin
  others := fun U hU => (h'.others U hU).trans (h.others U hU)
  todo := by
    obtain ⟨new, hnew, hplain⟩ := h.todo
    obtain ⟨new', hnew', hplain'⟩ := h'.todo
    refine ⟨new' ++ new, by rw [hnew', hnew, List.append_assoc], fun c u hin => ?_⟩
    rcases List.mem_append.mp hin with hin | hin
    · exact hplain' c u hin
    · exact hplain c u hin
  mapped := fun name c hc => h.mapped name c (h'.mapped name c hc)
  entry := by
    intro name c hc
    rcases h.entry name c hc with hkept | ⟨d, hd, conn, hconn, hname, hqueued⟩
    · rcases h'.entry name c hkept with hkept' | ⟨d, hd, conn, hconn, hname, hqueued⟩
      · exact Or.inl hkept'
      · obtain ⟨conn', hconn', hloop, hname'⟩ := h.conn_of hconn
        exact Or.inr ⟨d, hd, conn', hconn', hname'.trans hname, hloop ▸ hqueued⟩
    · exact Or.inr ⟨d, hd, conn, hconn, hname, h'.mem_pending hqueued⟩
  ran := fun c => (h'.ran c).trans (h.ran c)

theorem Adds.abort (s : ThreadSystem) (fault : Fault) : Adds T who removed s (s.abort fault) :=
  { Adds.refl s with }

theorem Adds.setPoller (s : ThreadSystem) (L : LoopId) (p : EPollPoller ConnId) :
    Adds T who removed s (s.setPoller L p) :=
  { Adds.refl s with }

theorem ran_access (s : ThreadSystem) (T : Thread) (a : Access) (c : ConnId) :
    (s.access T a).Ran c ↔ s.Ran c ∨ a = .run c .connectDestroyed := by
  simp only [Ran, access, List.mem_append, List.mem_singleton]
  constructor
  · rintro ⟨e, hold | rfl, he⟩
    · exact Or.inl ⟨e, hold, he⟩
    · exact Or.inr he
  · rintro (⟨e, hold, he⟩ | ha)
    · exact ⟨e, Or.inl hold, he⟩
    · exact ⟨(T, a), Or.inr rfl, ha⟩

theorem Adds.access (s : ThreadSystem) {a : Access} (ha : ∀ c, a ≠ .run c .connectDestroyed) :
    Adds T who removed s (s.access T a) := by
  have hran : ∀ c, (s.access T a).Ran c ↔ s.Ran c := by
    intro c
    rw [ran_access, or_iff_left (ha c)]
  exact { Adds.refl s with ran := hran }

theorem Adds.setConn (hconn : s.conns c = some conn) {conn' : TcpConnection}
    (hhome : conn'.home = conn.home) : Adds T who removed s (s.setConn c conn') := by
  refine { Adds.refl s with conns := fun d => ?_ }
  by_cases hd : d = c
  · subst hd
    rw [conns_setConn, hconn, Option.map_some, Option.map_some, hhome]
  · rw [conns_setConn_ne _ _ hd]

theorem Adds.pushTasks (s : ThreadSystem) {tasks : List Task}
    (htasks : ∀ c u, .conn c u ∈ tasks → who = some c ∧ u.Plain) :
    Adds T who removed s (s.pushTasks T tasks) := by
  have hrefl : Adds T who removed s s := .refl s
  exact { hrefl with
    others := fun U hU => todo_setTodo_ne _ _ hU
    todo := ⟨tasks, todo_setTodo .., htasks⟩ }

theorem queueInLoop_functors (l : EventLoop Source Job) (isInLoopThread : Bool) (f : Job) :
    (l.queueInLoop isInLoopThread f).functors = l.functors
      ∧ (l.queueInLoop isInLoopThread f).called = l.called
      ∧ (l.queueInLoop isInLoopThread f).pendingFunctors = l.pendingFunctors ++ [f] := by
  simp only [EventLoop.queueInLoop, EventLoop.wakeupIfNeeded]
  split
  · exact ⟨rfl, rfl, rfl⟩
  · exact ⟨rfl, rfl, rfl⟩

theorem loop_queueInLoop (s : ThreadSystem) (T : Thread) (L M : LoopId) (f : Job) :
    ((s.queueInLoop T L f).loop M).functors = (s.loop M).functors
      ∧ ((s.queueInLoop T L f).loop M).called = (s.loop M).called
      ∧ ((s.queueInLoop T L f).loop M).pendingFunctors
        = (s.loop M).pendingFunctors ++ if M = L then [f] else [] := by
  by_cases hM : M = L
  · subst hM
    rw [queueInLoop, loop_setLoop, if_pos rfl]
    exact queueInLoop_functors _ _ f
  · rw [queueInLoop, loop_setLoop_ne _ _ hM, if_neg hM, List.append_nil]
    exact ⟨rfl, rfl, rfl⟩

theorem Adds.queueInLoop (s : ThreadSystem) (U : Thread) (L : LoopId) {f : Job}
    (hf : f.Plain who) : Adds T who removed s (s.queueInLoop U L f) := by
  have hrefl : Adds T who removed s s := .refl s
  refine { hrefl with
    functors := fun M => (loop_queueInLoop s U L M f).1
    called := fun M => (loop_queueInLoop s U L M f).2.1
    pending := fun M => ⟨if M = L then [f] else [], (loop_queueInLoop s U L M f).2.2, ?_⟩
    entry := fun _ _ => Or.inl }
  intro g hg
  split at hg
  · rw [List.mem_singleton.mp hg]
    exact hf
  · cases hg

/-! ### The functions of a connection -/

theorem exec_home (conn : TcpConnection) (op : ConnOp) : (conn.exec op).1.home = conn.home := by
  obtain ⟨hloop, hname, _⟩ := ServerSystem.exec_same conn op
  exact Prod.ext hloop hname

/-- What a connection queues itself has no raw `this`. -/
theorem exec_queues (conn : TcpConnection) (op : ConnOp) {f : ConnFunctor}
    (hf : .queueInLoop f ∈ (conn.exec op).2) : f.isRaw = false := by
  have hquiet : op.IsQuiet → f.isRaw = false := by
    intro hop
    have hnote : f.IsNote := (conn.exec_quiet hop).effects _ hf
    cases f with
    | writeComplete | highWaterMark n => rfl
    | connectEstablished | connectDestroyed | sendInLoop message | shutdownInLoop =>
      exact hnote.elim
  cases op with
  | sendInLoop message res | handleWrite res | shutdownInLoop => exact hquiet trivial
  | connectEstablished | handleClose =>
    simp [TcpConnection.exec, TcpConnection.connectEstablished, TcpConnection.handleClose] at hf
  | shutdown => cases hf
  | connectDestroyed =>
    simp only [TcpConnection.exec, TcpConnection.connectDestroyed] at hf
    split at hf
    · simp at hf
    · simp at hf
  | handleRead res =>
    cases res with
    | err errno => exact hquiet ⟨errno, rfl⟩
    | ok bytes =>
      simp only [TcpConnection.exec, TcpConnection.handleRead, TcpConnection.handleClose] at hf
      split at hf
      · split at hf
        · simp at hf
        · simp at hf
      · simp at hf

theorem perform_adds (s : ThreadSystem) {e : Effect}
    (he : ∀ f, e = .queueInLoop f → f.isRaw = false) :
    Adds T (some c) removed s (s.perform T c e) := by
  unfold perform
  cases hconn : s.conns c with
  | none => exact .refl s
  | some conn =>
    have hchannel : ∀ (a : Access) (p : EPollPoller ConnId) (ch : Channel),
        (∀ d, a ≠ .run d .connectDestroyed) → Adds T (some c) removed s
          (((s.access T a).setPoller conn.loop p).setConn c { conn with channel := ch }) := by
      intro a p ch ha
      have hconn' : ((s.access T a).setPoller conn.loop p).conns c = some conn := hconn
      exact ((Adds.access s ha).trans (.setPoller _ _ p)).trans (.setConn hconn' rfl)
    cases e with
    | updateChannel =>
      dsimp only
      split
      · exact hchannel _ _ _ (fun d => by simp)
      · exact (Adds.access s (fun d => by simp)).trans (.abort _ _)
    | removeChannel =>
      dsimp only
      split
      · exact hchannel _ _ _ (fun d => by simp)
      · exact (Adds.access s (fun d => by simp)).trans (.abort _ _)
    | queueInLoop f =>
      have hraw : f.isRaw = false := he f rfl
      refine .queueInLoop s T conn.loop ⟨fun d => by simp [Job.isRaw, hraw], fun d hd => ?_⟩
      cases f with
      | sendInLoop _ | shutdownInLoop => exact hd.elim
      | connectEstablished | connectDestroyed | writeComplete | highWaterMark _ =>
        exact congrArg some hd
    | assertion fault holds =>
      dsimp only
      split
      · exact .refl s
      · exact .abort s _
    | write _ | shutdownWrite | connectionCallback | messageCallback | closeCallback =>
      exact .refl s

theorem runEffects_adds {effects : List Effect} : ∀ (s : ThreadSystem),
    (∀ f, .queueInLoop f ∈ effects → f.isRaw = false) →
      Adds T (some c) removed s (s.runEffects T c effects) := by
  induction effects with
  | nil =>
    intro s _
    exact .refl s
  | cons e es ih =>
    intro s hes
    unfold runEffects
    split
    · refine .pushTasks s fun d u hin => ?_
      obtain ⟨e', he', heq⟩ := List.mem_map.mp hin
      cases heq
      refine ⟨rfl, ?_⟩
      cases e' with
      | queueInLoop f => exact hes f he'
      | write _ | shutdownWrite | updateChannel | removeChannel | connectionCallback
      | messageCallback | closeCallback | assertion _ _ => trivial
    · refine (perform_adds s ?_).trans (ih _ fun f hf => hes f (List.mem_cons_of_mem _ hf))
      rintro f rfl
      exact hes f List.mem_cons_self

/-- The call itself is logged before. -/
theorem run_adds (hconn : s.conns c = some conn) (op : ConnOp) :
    Adds T (some c) removed (s.access T (.run c op)) (s.run T c op) := by
  simp only [run, hconn]
  have hconn' : (s.access T (.run c op)).conns c = some conn := hconn
  exact (Adds.setConn hconn' (exec_home conn op)).trans
    (runEffects_adds _ fun f => exec_queues conn op)

theorem userCallback_adds (s : ThreadSystem) :
    Adds T (some c) removed s (s.userCallback T c) := by
  have haccess : Adds T (some c) removed s (s.access T (.callback c)) :=
    .access s fun d => by simp
  refine haccess.trans (.pushTasks _ fun d u hin => ?_)
  cases List.mem_singleton.mp hin
  exact ⟨rfl, trivial⟩

/-! ### `runInLoop` -/

/-- **`removeConnectionInLoop`** hands its entry on to `connectDestroyed`. -/
theorem removeConnectionInLoop_adds (s : ThreadSystem) :
    Adds T (some c) (some c) s (s.removeConnectionInLoop T c) := by
  unfold removeConnectionInLoop
  split
  · cases hconn : s.conns c with
    | none => exact .refl s
    | some conn =>
      have haccess : Adds T (some c) (some c) s (s.access T .server) :=
        .access s fun d => by simp
      have hplain : Job.Plain (some c) (.connectDestroyed c) := by
        refine ⟨fun d => ?_, fun d hd => ?_⟩
        · simp [Job.isRaw, ConnFunctor.isRaw]
        · exact congrArg some hd
      have hqueue : Adds T (some c) (some c) s
          ((s.access T .server).queueInLoop T conn.loop (.connectDestroyed c)) :=
        haccess.trans (.queueInLoop _ T conn.loop hplain)
      refine { hqueue with mapped := fun name d hd => ?_, entry := fun name d hd => ?_ }
      · by_cases hname : name = conn.name
        · subst hname
          simp [queueInLoop, ThreadSystem.setLoop] at hd
        · simpa [queueInLoop, ThreadSystem.setLoop, hname] using hd
      · by_cases hname : name = conn.name
        · refine Or.inr ⟨c, rfl, conn, hconn, hname.symm, ?_⟩
          rw [(loop_queueInLoop ..).2.2, if_pos rfl]
          exact List.mem_append_right _ List.mem_cons_self
        · left
          simpa [queueInLoop, ThreadSystem.setLoop, hname] using hd
  · exact .abort s _

theorem listen_adds (s : ThreadSystem) : Adds T who removed s (s.listen T) := by
  unfold listen
  split
  · have haccess : Adds T who removed s (s.access T (.updateChannel none mainLoop)) :=
      .access s fun d => by simp
    exact { haccess with }
  · exact .abort s _

theorem removeConnection_adds (s : ThreadSystem) :
    Adds T (some c) (some c) s (s.removeConnection T c) := by
  unfold removeConnection
  split
  · unfold runInLoop
    split
    · exact removeConnectionInLoop_adds s
    · exact .queueInLoop s T mainLoop ⟨fun _ => rfl, fun d hd => congrArg some hd⟩
  · exact .abort s _

theorem runEffect_adds (s : ThreadSystem) {e : Effect}
    (he : ∀ f, e = .queueInLoop f → f.isRaw = false)
    (hclose : e = .closeCallback → removed = some c) :
    Adds T (some c) removed s (s.runEffect T c e) := by
  have hperform : Adds T (some c) removed s (s.perform T c e) := perform_adds s he
  cases e with
  | connectionCallback | messageCallback => exact userCallback_adds s
  | closeCallback =>
    rw [hclose rfl]
    exact removeConnection_adds s
  | write _ | shutdownWrite | updateChannel | removeChannel | queueInLoop _ | assertion _ _ =>
    exact hperform

/-! ### Holders -/

/-- The threads hold a pointer to the connection, apart from those that the users keep. -/
def Holds (s : ThreadSystem) (c : ConnId) : Prop := s.InMap c ∨ s.Guarded c

theorem Adds.loopOf (h : Adds T who removed s t) (c : ConnId) : t.loopOf c = s.loopOf c := by
  have hhome := congrArg (Option.map Prod.fst) (h.conns c)
  simp only [Option.map_map] at hhome
  exact congrArg (Option.getD · mainLoop) hhome

/-- A function makes new pointers to its own connection only. -/
theorem Adds.holds (h : Adds T who removed s t) (hc : t.Holds c) : s.Holds c ∨ who = some c := by
  rcases hc with ⟨conn, hconn, hentry⟩ | ⟨task, htask, hof⟩ | ⟨L, hL, f, hf, hcaptures⟩
  · obtain ⟨conn', hconn', _, hname⟩ := h.conn_of hconn
    exact Or.inl (Or.inl ⟨conn', hconn', hname ▸ h.mapped _ c hentry⟩)
  · rw [h.loopOf] at htask
    have hheld : task ∈ s.todo (.loop (s.loopOf c)) → s.Holds c ∨ who = some c :=
      fun hold => Or.inl (Or.inr (Or.inl ⟨task, hold, hof⟩))
    by_cases hT : Thread.loop (s.loopOf c) = T
    · obtain ⟨new, htodo, hnew⟩ := h.todo
      rw [hT, htodo] at htask
      rcases List.mem_append.mp htask with hin | hold
      · cases task with
        | user => cases hof
        | conn d u =>
          have hd : d = c := by
            by_contra hne
            simp [Task.of, hne] at hof
          exact Or.inr (hd ▸ (hnew d u hin).1)
      · exact hheld (hT ▸ hold)
    · rw [h.others _ hT] at htask
      exact hheld htask
  · rw [h.loopOf] at hL
    obtain ⟨new, hpending, hnew⟩ := h.pending L
    simp only [EventLoop.waiting, h.functors, h.called, hpending, List.mem_append] at hf
    have hheld : f ∈ (s.loop L).called ++ (s.loop L).waiting → s.Holds c ∨ who = some c :=
      fun hold => Or.inl (Or.inr (Or.inr ⟨L, hL, f, hold, hcaptures⟩))
    simp only [EventLoop.waiting, List.mem_append] at hheld
    rcases hf with hcalled | hfunctors | hold | hin
    · exact hheld (Or.inl hcalled)
    · exact hheld (Or.inr (Or.inl hfunctors))
    · exact hheld (Or.inr (Or.inr hold))
    · exact Or.inr ((hnew f hin).2 c hcaptures)

/-! ### The hand-over from the map to `connectDestroyed` -/

/-- The pending call goes on with a pointer that the user has. -/
def PendingCall.Backed (s : ThreadSystem) (copies : ConnId → List Thread) (T : Thread)
    (call : PendingCall) : Prop :=
  (T ∈ copies call.target ∨ s.IsArgument T call.target)
    ∧ ∀ c f, call = .runInLoop c f → f.isRaw = true

/-- `entry`: until it is taken, a connection has its entry in the map or its `connectDestroyed`
    in the queue. -/
structure Kept (s : ThreadSystem) (copies : ConnId → List Thread) : Prop where
  tasks : ∀ T c u, .conn c u ∈ s.todo T → u.Plain
  calls : ∀ T call, s.call T = some call → PendingCall.Backed s copies T call
  entry : ∀ c conn, s.conns c = some conn → s.Taken c
    ∨ s.server.connections conn.name = some c
    ∨ .connectDestroyed c ∈ (s.loop conn.loop).pendingFunctors
  late : ∀ c, s.Late c → copies c ≠ []

variable {copies : ConnId → List Thread}

theorem Adds.taken (h : Adds T who removed s t) (c : ConnId) : t.Taken c ↔ s.Taken c := by
  unfold Taken
  rw [h.loopOf, h.functors, h.ran]

/-- A function pushes nothing that has a raw `this`. -/
theorem Adds.late (h : Adds T who removed s t) (hlate : t.Late c) : s.Late c := by
  obtain ⟨htaken, htrails⟩ := hlate
  refine ⟨(h.taken c).mp htaken, ?_⟩
  simp only [Trails, h.loopOf, h.functors, h.called] at htrails
  refine htrails.imp_left ?_
  rintro ⟨f, hf, hfraw⟩
  obtain ⟨new, hpending, hnew⟩ := h.pending (s.loopOf c)
  rw [hpending] at hf
  rcases List.mem_append.mp hf with hold | hin
  · exact ⟨f, hold, hfraw⟩
  · rw [(hnew f hin).1 c] at hfraw
    cases hfraw

theorem Kept.adds (h : Kept s copies) (hadds : Adds T who removed s t)
    (hidle : s.call T = none ∨ t.todo T = s.todo T)
    (hown : ∀ c ∈ removed, ∀ conn ∈ s.conns c, ∀ d ∈ s.server.connections conn.name, d = c) :
    Kept t copies where
  tasks := by
    intro U c u hin
    by_cases hU : U = T
    · subst hU
      obtain ⟨new, htodo, hnew⟩ := hadds.todo
      rw [htodo] at hin
      rcases List.mem_append.mp hin with hin | hold
      · exact (hnew c u hin).2
      · exact h.tasks U c u hold
    · rw [hadds.others U hU] at hin
      exact h.tasks U c u hin
  calls := by
    intro U call hU
    rw [hadds.call] at hU
    have htodo : t.todo U = s.todo U := by
      by_cases hUT : U = T
      · subst hUT
        exact hidle.resolve_left fun hnone => by cases hnone.symm.trans hU
      · exact hadds.others U hUT
    obtain ⟨hcan, hraw⟩ := h.calls U call hU
    refine ⟨hcan.imp_right fun harg => ?_, hraw⟩
    rw [IsArgument, htodo]
    exact harg
  entry := by
    intro c conn hconn
    obtain ⟨conn', hconn', hloop, hname⟩ := hadds.conn_of hconn
    rcases h.entry c conn' hconn' with htaken | hentry | hqueued
    · exact Or.inl ((hadds.taken c).mpr htaken)
    · right
      rcases hadds.entry _ c hentry with hkept | ⟨d, hd, conn'', hconn'', hname', hqueued⟩
      · exact Or.inl (hname ▸ hkept)
      · have hdc : c = d := hown d hd conn'' hconn'' c (hname' ▸ hentry)
        subst hdc
        obtain rfl : conn'' = conn' := Option.some.inj (hconn''.symm.trans hconn')
        exact Or.inr (hloop ▸ hqueued)
    · exact Or.inr (Or.inr (hloop ▸ hadds.mem_pending hqueued))
  late := fun c hlate => h.late c (hadds.late hlate)

/-! ### What the loops and the tasks let go -/

/-- A loop goes on from `l` to `l'`; `ran`: `connectDestroyed` of `c` has run. -/
structure Passes (c : ConnId) (ran : Prop) (l l' : EventLoop Source Job) : Prop where
  taken : .connectDestroyed c ∈ l.functors → .connectDestroyed c ∈ l'.functors ∨ ran
  queued : .connectDestroyed c ∈ l.pendingFunctors →
    .connectDestroyed c ∈ l'.pendingFunctors ∨ .connectDestroyed c ∈ l'.functors
  late : .connectDestroyed c ∈ l'.functors ∨ ran → Trails l' c →
    (.connectDestroyed c ∈ l.functors ∨ ran) ∧ Trails l c

/-- **A step of `loop()`**: the swap takes together what is queued, and a batch goes as a
    whole. -/
theorem advance_passes {l l' : EventLoop Source Job} {a : LoopStep Source} (hwf : l.WF)
    (hl : l.advance a = some l') {ran : Prop}
    (hcall : a = .callFunctor → l.functors.head? = some (.connectDestroyed c) → ran) :
    Passes c ran l l' := by
  rcases EventLoop.advance_batch hwf hl with ⟨hfunctors, hcalled, hpending⟩
    | ⟨hempty, hfunctors, hcalled, hpending⟩ | ⟨hempty, hfunctors, hcalled, hpending⟩
    | ⟨f, rest, ha, hhead, hfunctors, hcalled, hpending⟩
  · constructor
    · intro htaken
      rw [hfunctors]
      exact Or.inl htaken
    · intro hqueued
      rw [hpending]
      exact Or.inl hqueued
    · intro htaken htrails
      rw [hfunctors] at htaken
      rw [Trails, hfunctors, hcalled, hpending] at htrails
      exact ⟨htaken, htrails⟩
  · constructor
    · intro htaken
      rw [hempty] at htaken
      cases htaken
    · intro hqueued
      rw [hfunctors]
      exact Or.inr hqueued
    · intro htaken htrails
      rw [hfunctors] at htaken
      rw [Trails, hfunctors, hcalled, hpending] at htrails
      rcases htrails with ⟨f, hf, _⟩ | ⟨hraw, hnone⟩
      · cases hf
      · have hran : ran := htaken.resolve_left fun hin =>
          hnone (List.mem_append_right _ hin)
        exact ⟨Or.inr hran, Or.inl hraw⟩
  · constructor
    · intro htaken
      rw [hempty] at htaken
      cases htaken
    · intro hqueued
      rw [hpending]
      exact Or.inl hqueued
    · intro htaken htrails
      rw [hfunctors] at htaken
      rw [Trails, hfunctors, hcalled, hpending] at htrails
      rcases htrails with hraw | ⟨⟨f, hf, _⟩, _⟩
      · exact ⟨Or.inr (htaken.resolve_left List.not_mem_nil), Or.inl hraw⟩
      · cases hf
  · constructor
    · intro htaken
      rw [hfunctors]
      rw [hhead] at htaken
      rcases List.mem_cons.mp htaken with rfl | hrest
      · exact Or.inr (hcall ha (by rw [hhead, List.head?_cons]))
      · exact Or.inl hrest
    · intro hqueued
      rw [hpending]
      exact Or.inl hqueued
    · intro htaken htrails
      rw [hfunctors] at htaken
      rw [Trails, hfunctors, hcalled, hpending] at htrails
      rw [Trails, hhead]
      refine ⟨htaken.imp_left (List.mem_cons_of_mem f), htrails.imp_right ?_⟩
      rintro ⟨⟨g, hg, hraw⟩, hnone⟩
      refine ⟨⟨g, List.mem_cons_of_mem f hg, hraw⟩, ?_⟩
      rwa [List.append_assoc] at hnone

theorem Kept.setLoop (h : Kept s copies) {l : EventLoop Source Job}
    (hl : ∀ c, s.loopOf c = L → Passes c (s.Ran c) (s.loop L) l) :
    Kept (s.setLoop L l) copies := by
  have hloopOf : ∀ c, (s.setLoop L l).loopOf c = s.loopOf c := fun _ => rfl
  refine { h with entry := fun c conn hconn => ?_, late := fun c hc => ?_ }
  · have hloop : s.loopOf c = conn.loop :=
      Option.some.inj ((home_loopOf hconn).symm.trans (home_of hconn))
    have hentry := h.entry c conn hconn
    unfold Taken at hentry ⊢
    rw [hloop] at hentry
    rw [hloopOf, hloop]
    by_cases hL : conn.loop = L
    · have hpasses := hl c (hloop.trans hL)
      rw [hL] at hentry ⊢
      rw [loop_setLoop]
      rcases hentry with (htaken | hran) | hmapped | hqueued
      · exact Or.inl (hpasses.taken htaken)
      · exact Or.inl (Or.inr hran)
      · exact Or.inr (Or.inl hmapped)
      · rcases hpasses.queued hqueued with hstays | hmoves
        · exact Or.inr (Or.inr hstays)
        · exact Or.inl (Or.inl hmoves)
    · rw [loop_setLoop_ne _ _ hL]
      exact hentry
  · obtain ⟨htaken, htrails⟩ := hc
    rw [Taken, hloopOf] at htaken
    rw [hloopOf] at htrails
    by_cases hL : s.loopOf c = L
    · rw [hL, loop_setLoop] at htaken htrails
      obtain ⟨htaken', htrails'⟩ := (hl c hL).late htaken htrails
      refine h.late c ⟨?_, ?_⟩
      · rw [Taken, hL]
        exact htaken'
      · rw [hL]
        exact htrails'
    · rw [loop_setLoop_ne _ _ hL] at htaken htrails
      exact h.late c ⟨htaken, htrails⟩

/-- A step of `loop()` makes no new holder. -/
theorem holds_advance (hwf : (s.loop L).WF) {a : LoopStep Source} {l : EventLoop Source Job}
    (hl : (s.loop L).advance a = some l) (hc : (s.setLoop L l).Holds c) : s.Holds c := by
  have hold : ∀ f ∈ l.called ++ l.waiting, f ∈ (s.loop L).called ++ (s.loop L).waiting := by
    intro f hf
    simp only [EventLoop.waiting, List.mem_append] at hf ⊢
    rcases EventLoop.advance_batch hwf hl with ⟨hfunctors, hcalled, hpending⟩
      | ⟨hempty, hfunctors, hcalled, hpending⟩ | ⟨hempty, hfunctors, hcalled, hpending⟩
      | ⟨g, rest, _, hhead, hfunctors, hcalled, hpending⟩
    · rwa [hfunctors, hcalled, hpending] at hf
    · rw [hfunctors, hcalled, hpending] at hf
      exact hf.imp_right fun hin => Or.inr (hin.resolve_right List.not_mem_nil)
    · rw [hfunctors, hcalled, hpending] at hf
      exact Or.inr (Or.inr ((hf.resolve_left List.not_mem_nil).resolve_left List.not_mem_nil))
    · rw [hfunctors, hcalled, hpending] at hf
      rw [hhead]
      rcases hf with hin | hin | hin
      · rcases List.mem_append.mp hin with hin | hin
        · exact Or.inl hin
        · rw [List.mem_singleton.mp hin]
          exact Or.inr (Or.inl List.mem_cons_self)
      · exact Or.inr (Or.inl (List.mem_cons_of_mem g hin))
      · exact Or.inr (Or.inr hin)
  refine hc.imp_right fun hguarded => hguarded.imp_right ?_
  rintro ⟨M, hM, f, hf, hcaptures⟩
  refine ⟨M, hM, f, ?_, hcaptures⟩
  by_cases hML : M = L
  · subst hML
    rw [loop_setLoop] at hf
    exact hold f hf
  · rwa [loop_setLoop_ne _ _ hML] at hf

theorem Kept.setTodo (h : Kept s copies) {task : Task} {rest : List Task}
    (htodo : s.todo T = task :: rest) (hcall : s.call T = none) :
    Kept (s.setTodo T rest) copies := by
  refine { h with tasks := fun U c u hin => ?_, calls := fun U call hU => ?_ }
  · by_cases hUT : U = T
    · subst hUT
      rw [todo_setTodo] at hin
      exact h.tasks U c u (htodo ▸ List.mem_cons_of_mem task hin)
    · rw [todo_setTodo_ne _ _ hUT] at hin
      exact h.tasks U c u hin
  · have hne : U ≠ T := by
      rintro rfl
      cases hcall.symm.trans hU
    obtain ⟨hcan, hraw⟩ := h.calls U call hU
    refine ⟨hcan.imp_right fun harg => ?_, hraw⟩
    rw [IsArgument, todo_setTodo_ne _ _ hne]
    exact harg

theorem holds_setTodo {task : Task} {rest : List Task} (htodo : s.todo T = task :: rest)
    (hc : (s.setTodo T rest).Holds c) : s.Holds c := by
  refine hc.imp_right fun hguarded => hguarded.imp_left ?_
  rintro ⟨u, hu, hof⟩
  refine ⟨u, ?_, hof⟩
  have hu' : u ∈ (s.setTodo T rest).todo (.loop (s.loopOf c)) := hu
  by_cases hT : Thread.loop (s.loopOf c) = T
  · subst hT
    rw [todo_setTodo] at hu'
    exact htodo ▸ List.mem_cons_of_mem task hu'
  · rwa [todo_setTodo_ne _ _ hT] at hu'

/-- `connectDestroyed` begins to run when it is taken. -/
theorem Kept.access (h : Kept s copies) {a : Access}
    (ha : ∀ c, a = .run c .connectDestroyed → s.Taken c) : Kept (s.access T a) copies := by
  have htaken : ∀ c, (s.access T a).Taken c → s.Taken c := by
    rintro c (hfunctors | hran)
    · exact Or.inl hfunctors
    · rcases (ran_access s T a c).mp hran with hold | hnew
      · exact Or.inr hold
      · exact ha c hnew
  refine { h with entry := fun c conn hconn => ?_, late := fun c hc => ?_ }
  · refine (h.entry c conn hconn).imp_left fun htake => ?_
    exact htake.imp_right fun hran => (ran_access s T a c).mpr (Or.inl hran)
  · exact h.late c ⟨htaken c hc.1, hc.2⟩

theorem Kept.setCall (h : Kept s copies) {call : Option PendingCall}
    (hcall : ∀ p, call = some p → PendingCall.Backed s copies T p) :
    Kept (s.setCall T call) copies := by
  refine { h with calls := fun U p hU => ?_ }
  by_cases hUT : U = T
  · subst hUT
    rw [call_setCall] at hU
    exact hcall p hU
  · rw [call_setCall_ne _ _ hUT] at hU
    exact h.calls U p hU

/-! ### Moves -/

/-- Pointers to `who` may be new, and everything is handed over. -/
structure Moves (copies : ConnId → List Thread) (who : Option ConnId) (s t : ThreadSystem) :
    Prop where
  kept : Kept t copies
  holds : ∀ c, t.Holds c → s.Holds c ∨ who = some c

theorem Moves.trans (h : Moves copies who s t) (h' : Moves copies who t u) :
    Moves copies who s u where
  kept := h'.kept
  holds := fun c hc => (h'.holds c hc).elim (h.holds c) Or.inr

theorem Moves.adds (h : Kept s copies) (hadds : Adds T who none s t)
    (hidle : s.call T = none ∨ t.todo T = s.todo T) : Moves copies who s t :=
  ⟨h.adds hadds hidle (fun _ hd => by cases hd), fun _ hc => hadds.holds hc⟩

theorem Moves.advance (h : Kept s copies) (hwf : (s.loop L).WF) {a : LoopStep Source}
    {l : EventLoop Source Job} (hl : (s.loop L).advance a = some l)
    (hcall : ∀ c, a = .callFunctor → (s.loop L).functors.head? = some (.connectDestroyed c) →
      s.Ran c) : Moves copies who s (s.setLoop L l) where
  kept := h.setLoop fun c _ => advance_passes hwf hl (hcall c)
  holds := fun _ hc => Or.inl (holds_advance hwf hl hc)

/-- **`sendInLoop` or `shutdownInLoop`** is pushed by a thread that has a pointer. -/
theorem Moves.pushRaw (h : Kept s copies) (hcopies : copies c ≠ []) (T : Thread) (L : LoopId)
    (f : ConnFunctor) (hraw : f.isRaw = true) :
    Moves copies who s (s.queueInLoop T L (.functor (.conn c f))) := by
  have hloop := loop_queueInLoop s T L
  have hnew : ∀ M, ∀ g ∈ ((s.queueInLoop T L (.functor (.conn c f))).loop M).pendingFunctors,
      g ∈ (s.loop M).pendingFunctors ∨ g = .functor (.conn c f) := by
    intro M g hg
    rw [(hloop M _).2.2] at hg
    refine (List.mem_append.mp hg).imp_right fun hin => ?_
    split at hin
    · exact List.mem_singleton.mp hin
    · cases hin
  constructor
  · refine { h with entry := fun d conn hconn => ?_, late := fun d hd => ?_ }
    · refine (h.entry d conn hconn).imp ?_ (Or.imp_right fun hqueued => ?_)
      · refine Or.imp_left fun htaken => ?_
        exact (hloop _ _).1 ▸ htaken
      · rw [(hloop _ _).2.2]
        exact List.mem_append_left _ hqueued
    · by_cases hdc : d = c
      · exact hdc ▸ hcopies
      · refine h.late d ⟨hd.1.imp_left fun htaken => (hloop _ _).1 ▸ htaken, ?_⟩
        refine hd.2.imp ?_ fun ⟨⟨g, hg, hgraw⟩, hnone⟩ => ?_
        · rintro ⟨g, hg, hgraw⟩
          rcases hnew _ g hg with hold | rfl
          · exact ⟨g, hold, hgraw⟩
          · simp [Job.isRaw, Ne.symm hdc] at hgraw
        · rw [(hloop _ _).1] at hg hnone
          rw [(hloop _ _).2.1] at hnone
          exact ⟨⟨g, hg, hgraw⟩, hnone⟩
  · intro d hd
    refine Or.inl (hd.imp_right fun hguarded => hguarded.imp_right ?_)
    rintro ⟨M, hM, g, hg, hcaptures⟩
    refine ⟨M, hM, g, ?_, hcaptures⟩
    simp only [EventLoop.waiting, (hloop M _).1, (hloop M _).2.1, List.mem_append] at hg ⊢
    rcases hg with hcalled | hfunctors | hpending
    · exact Or.inl hcalled
    · exact Or.inr (Or.inl hfunctors)
    · rcases hnew M g hpending with hold | rfl
      · exact Or.inr (Or.inr hold)
      · cases f with
        | sendInLoop _ | shutdownInLoop => exact hcaptures.elim
        | connectEstablished | connectDestroyed | writeComplete | highWaterMark _ => cases hraw

/-! ### The threads -/

/-- A functor runs that is not `connectDestroyed`, or that one after its log entry. -/
theorem run_moves (h : Kept s copies) (hconn : s.conns c = some conn) (hidle : s.call T = none)
    {op : ConnOp} (hop : op = .connectDestroyed → s.Taken c) :
    Moves copies (some c) s (s.run T c op) := by
  have haccess : Kept (s.access T (.run c op)) copies := by
    refine h.access fun d hd => ?_
    cases hd
    exact hop rfl
  have hmoves : Moves copies (some c) (s.access T (.run c op)) (s.run T c op) :=
    .adds haccess (run_adds hconn op) (Or.inl hidle)
  exact ⟨hmoves.kept, fun d hd => hmoves.holds d hd⟩

theorem op_connectDestroyed {f : ConnFunctor} {res : SysResult}
    (h : f.op res = some .connectDestroyed) : f = .connectDestroyed := by
  cases f with
  | connectDestroyed => rfl
  | connectEstablished | sendInLoop _ | shutdownInLoop | writeComplete | highWaterMark _ =>
    simp [ConnFunctor.op] at h

/-- What `runInLoop` does with a functor of a connection that is not `connectDestroyed`. -/
theorem callFunctor_moves (h : Kept s copies) (hidle : s.call T = none)
    (hconn : s.conns c = some conn) {f : ConnFunctor} (hf : f ≠ .connectDestroyed)
    (res : SysResult) :
    Moves copies (some c) s (s.callFunctor T res (.functor (.conn c f))) := by
  simp only [callFunctor]
  cases hop : f.op res with
  | none => exact .adds h (userCallback_adds s) (Or.inl hidle)
  | some op =>
    refine run_moves h hconn hidle fun hdestroyed => ?_
    subst hdestroyed
    exact absurd (op_connectDestroyed hop) hf

/-- **`doPendingFunctors`** calls a functor. -/
theorem loopCall_moves (h : Kept s copies) (hrouted : s.Routed) (hidle : s.call (.loop L) = none)
    {f : Job} {rest : List Job} (hfunctors : (s.loop L).functors = f :: rest)
    {l : EventLoop Source Job} (hl : (s.loop L).advance .callFunctor = some l) (res : SysResult)
    (hown : ∀ c, f = .functor (.removeConnectionInLoop c) → ∀ conn ∈ s.conns c,
      ∀ d ∈ s.server.connections conn.name, d = c) :
    Moves copies f.target s ((s.setLoop L l).callFunctor (.loop L) res f) := by
  have hwf := hrouted.loops L
  have hmem : f ∈ (s.loop L).waiting :=
    List.mem_append_left _ (hfunctors ▸ List.mem_cons_self)
  have hadvance : (∀ c, f ≠ .connectDestroyed c) → Moves copies f.target s (s.setLoop L l) := by
    intro hne
    refine .advance h hwf hl fun c _ hhead => ?_
    rw [hfunctors, List.head?_cons] at hhead
    exact absurd (Option.some.inj hhead) (hne c)
  have hidle' : (s.setLoop L l).call (.loop L) = none := hidle
  cases f with
  | listen =>
    have hpopped := hadvance fun c => by simp
    exact hpopped.trans (.adds hpopped.kept (listen_adds _) (Or.inl hidle'))
  | functor f =>
    cases f with
    | user =>
      have hpopped := hadvance fun c => by simp
      refine hpopped.trans (.adds (T := .loop L) hpopped.kept (.pushTasks _ ?_) (Or.inl hidle'))
      intro c u hin
      cases List.mem_singleton.mp hin
    | removeConnectionInLoop c =>
      have hpopped := hadvance fun d => by simp
      have hadds : Adds (.loop L) (some c) (some c) (s.setLoop L l) _ :=
        removeConnectionInLoop_adds _
      refine hpopped.trans ⟨hpopped.kept.adds hadds (Or.inl hidle') ?_, fun d => hadds.holds⟩
      intro d hd
      cases hd
      exact hown c rfl
    | conn c f =>
      have hhome : s.home c = some L := hrouted.functors L _ hmem
      obtain ⟨conn, hconn, hloop⟩ := Option.map_eq_some_iff.mp hhome
      by_cases hf : f = .connectDestroyed
      · subst hf
        have hloopOf : s.loopOf c = L :=
          Option.some.inj ((home_loopOf hconn).symm.trans hhome)
        have htaken : s.Taken c := by
          left
          rw [hloopOf, hfunctors]
          exact List.mem_cons_self
        -- it is logged while it still waits
        have haccess : Kept (s.access (.loop L) (.run c .connectDestroyed)) copies := by
          refine h.access fun d hd => ?_
          cases hd
          exact htaken
        have hpopped : Moves copies (some c) (s.access (.loop L) (.run c .connectDestroyed))
            ((s.access (.loop L) (.run c .connectDestroyed)).setLoop L l) := by
          refine .advance haccess hwf hl fun d _ hhead => ?_
          have hhead' : (s.loop L).functors.head? = some (.connectDestroyed d) := hhead
          rw [hfunctors, List.head?_cons] at hhead'
          cases hhead'
          exact (ran_access ..).mpr (Or.inr rfl)
        have hconn' : (s.setLoop L l).conns c = some conn := hconn
        have hrun := Moves.adds (T := .loop L) hpopped.kept
          (run_adds hconn' .connectDestroyed) (Or.inl hidle)
        exact ⟨hrun.kept, fun d hd => (hpopped.trans hrun).holds d hd⟩
      · have hpopped := hadvance fun d => by simp [hf]
        exact hpopped.trans (callFunctor_moves hpopped.kept hidle' hconn hf res)

theorem task_moves (h : Kept s copies) (hrouted : s.Routed) (hidle : s.call T = none)
    {task : Task} {rest : List Task} (htodo : s.todo T = task :: rest) (readRes : ReadvResult)
    (res : SysResult) (hown : ∀ c, task = .conn c (.effect .closeCallback) →
      ∀ conn ∈ s.conns c, ∀ d ∈ s.server.connections conn.name, d = c) :
    Moves copies task.target s ((s.setTodo T rest).runTask T readRes res task) := by
  have hpopped : Moves copies task.target s (s.setTodo T rest) :=
    ⟨h.setTodo htodo hidle, fun c hc => Or.inl (holds_setTodo htodo hc)⟩
  have hidle' : (s.setTodo T rest).call T = none := hidle
  have hmem : task ∈ s.todo T := htodo ▸ List.mem_cons_self
  cases task with
  | user => exact hpopped
  | conn c u =>
    obtain ⟨L, _, hhome⟩ := hrouted.tasks T c u hmem
    obtain ⟨conn, hconn, _⟩ := Option.map_eq_some_iff.mp hhome
    have hconn' : (s.setTodo T rest).conns c = some conn := hconn
    have hplain := h.tasks T c u hmem
    refine hpopped.trans ?_
    cases u with
    | user => exact .adds hpopped.kept (T := T) (.refl _) (Or.inr rfl)
    | connectDestroyed => exact hplain.elim
    | callback cb =>
      simp only [runTask]
      cases hop : ServerSystem.callbackOp readRes res cb with
      | none => exact .adds hpopped.kept (T := T) (.refl _) (Or.inr rfl)
      | some op =>
        refine run_moves hpopped.kept hconn' hidle' fun hdestroyed => ?_
        subst hdestroyed
        cases cb with
        | close | error | read | write => cases hop
    | effect e =>
      have hadds : Adds T (some c) (if e = .closeCallback then some c else none)
          (s.setTodo T rest) ((s.setTodo T rest).runEffect T c e) := by
        refine runEffect_adds _ (fun f hf => ?_) fun hclose => if_pos hclose
        subst hf
        exact hplain
      refine ⟨hpopped.kept.adds hadds (Or.inl hidle') ?_, fun d => hadds.holds⟩
      intro d hd
      split at hd
      · rename_i hclose
        cases hd
        exact hown c (by rw [hclose])
      · cases hd

/-! ### The functions of the server -/

/-- No functor and no log entry is about a connection that is not accepted yet. -/
theorem Routed.not_taken (h : s.Routed) (hfresh : s.accepted ≤ c) {L : LoopId} :
    .connectDestroyed c ∉ (s.loop L).functors ∧ ¬ s.Ran c := by
  have hhome : s.home c = none := by rw [home, h.fresh c hfresh, Option.map_none]
  constructor
  · intro hin
    have hrouted : s.home c = some L := h.functors L _ (List.mem_append_left _ hin)
    rw [hhome] at hrouted
    cases hrouted
  · rintro ⟨⟨T, a⟩, hin, ha⟩
    have hconfined := h.log T a hin
    rw [show a = .run c .connectDestroyed from ha] at hconfined
    obtain ⟨M, _, hM⟩ := hconfined
    rw [hhome] at hM
    cases hM

theorem insertConnection_moves (h : Kept s copies) (hrouted : s.Routed) (fd : Fd)
    (hfree : s.server.connections (s.server.connName s.server.nextConnId) = none) :
    Moves copies (some s.accepted) s (s.insertConnection T fd) := by
  have hconns : ∀ c, c ≠ s.accepted → (s.insertConnection T fd).conns c = s.conns c :=
    fun c hc => conns_setConn_ne _ _ hc
  have hloopOf : ∀ c, c ≠ s.accepted → (s.insertConnection T fd).loopOf c = s.loopOf c := by
    intro c hc
    rw [loopOf, hconns c hc, loopOf]
  have hran : ∀ c, (s.insertConnection T fd).Ran c ↔ s.Ran c := by
    intro c
    have haccess := ran_access s T .server c
    rw [or_iff_left (by simp)] at haccess
    exact haccess
  constructor
  · refine { h with entry := fun c conn hconn => ?_, late := fun c hc => ?_ }
    · by_cases hca : c = s.accepted
      · subst hca
        have hnew : (s.insertConnection T fd).conns s.accepted = some _ := conns_setConn ..
        obtain rfl := Option.some.inj (hnew.symm.trans hconn)
        exact Or.inr (Or.inl (Function.update_self ..))
      · rw [hconns c hca] at hconn
        rcases h.entry c conn hconn with htaken | hentry | hqueued
        · left
          unfold Taken
          rw [hloopOf c hca, hran]
          exact htaken
        · have hname : conn.name ≠ s.server.connName s.server.nextConnId := by
            intro heq
            rw [heq, hfree] at hentry
            cases hentry
          exact Or.inr (Or.inl ((Function.update_of_ne hname ..).trans hentry))
        · exact Or.inr (Or.inr hqueued)
    · have htaken := hc.1
      by_cases hca : c = s.accepted
      · obtain ⟨hfunctors, hnever⟩ := hrouted.not_taken (Nat.le_of_eq hca.symm)
          (L := (s.insertConnection T fd).loopOf c)
        exact absurd htaken (not_or.mpr ⟨hfunctors, fun hnew => hnever ((hran c).mp hnew)⟩)
      · unfold Late Taken at hc
        rw [hloopOf c hca, hran] at hc
        exact h.late c hc
  · intro c hc
    by_cases hca : c = s.accepted
    · exact Or.inr (congrArg some hca.symm)
    · left
      rcases hc with ⟨conn, hconn, hentry⟩ | hguarded
      · rw [Option.mem_def, hconns c hca] at hconn
        have hne : conn.name ≠ s.server.connName s.server.nextConnId := by
          intro heq
          have hnew : (s.insertConnection T fd).server.connections conn.name
              = some s.accepted := by
            rw [heq]
            exact Function.update_self ..
          exact hca (Option.some.inj (hentry.symm.trans hnew))
        exact Or.inl ⟨conn, hconn, (Function.update_of_ne hne ..).symm.trans hentry⟩
      · unfold Guarded at hguarded
        rw [hloopOf c hca] at hguarded
        exact Or.inr hguarded

theorem newConnection_moves (h : Kept s copies) (hrouted : s.Routed) (hidle : s.call T = none)
    (fd : Fd)
    (hfree : s.server.connections (s.server.connName s.server.nextConnId) = none) :
    Moves copies (some s.accepted) s (s.newConnection T fd) := by
  have hinsert := insertConnection_moves (T := T) h hrouted fd hfree
  have hidle' : (s.insertConnection T fd).call T = none := hidle
  refine hinsert.trans ?_
  unfold newConnection runInLoop
  split
  · have hconn : (s.insertConnection T fd).conns s.accepted = some _ := conns_setConn ..
    exact callFunctor_moves hinsert.kept hidle' hconn (by simp) _
  · refine .adds (T := T) hinsert.kept (.queueInLoop _ T _ ⟨fun d => ?_, fun d hd => ?_⟩)
      (Or.inl hidle')
    · simp [Job.isRaw, ConnFunctor.isRaw]
    · exact congrArg some hd

theorem start_adds (s : ThreadSystem) : Adds T who removed s (s.start T) := by
  unfold start
  split
  · have hpooled : Adds T who removed s { s with
        started := s.started + 1, server := { s.server with loops := s.pool } } :=
      { Adds.refl s with }
    refine hpooled.trans ?_
    unfold runInLoop
    split
    · exact listen_adds _
    · exact .queueInLoop _ T mainLoop ⟨fun _ => rfl, fun _ hd => hd.elim⟩
  · exact { Adds.refl s with }

theorem quit_adds (s : ThreadSystem) (L : LoopId) : Adds T who removed s (s.quit T L) := by
  have hset : ∀ l : EventLoop Source Job, l.functors = (s.loop L).functors →
      l.called = (s.loop L).called → l.pendingFunctors = (s.loop L).pendingFunctors →
      Adds T who removed s (s.setLoop L l) := by
    intro l hfunctors hcalled hpending
    have hloop : ∀ M, ((s.setLoop L l).loop M).functors = (s.loop M).functors
        ∧ ((s.setLoop L l).loop M).called = (s.loop M).called
        ∧ ((s.setLoop L l).loop M).pendingFunctors = (s.loop M).pendingFunctors := by
      intro M
      by_cases hM : M = L
      · subst hM
        rw [loop_setLoop]
        exact ⟨hfunctors, hcalled, hpending⟩
      · rw [loop_setLoop_ne _ _ hM]
        exact ⟨rfl, rfl, rfl⟩
    have hrefl : Adds T who removed s s := .refl s
    exact { hrefl with
      functors := fun M => (hloop M).1
      called := fun M => (hloop M).2.1
      pending := fun M => ⟨[], by rw [(hloop M).2.2, List.append_nil], by simp⟩
      entry := fun _ _ => Or.inl }
  unfold quit
  split
  · exact hset _ rfl rfl rfl
  · exact hset _ rfl rfl rfl

/-! ### The calls of the user -/

theorem userCall_moves (h : Kept s copies) {request : Request}
    (hcan : T ∈ copies c ∨ s.IsArgument T c) (hcall : s.userCall T c request = some t) :
    Moves copies (some c) s t := by
  obtain ⟨conn, _, rfl⟩ := Option.map_eq_some_iff.mp hcall
  split
  · refine ⟨h.setCall fun p hp => ?_, fun _ hd => Or.inl hd⟩
    cases hp
    cases request with
    | send buf =>
      refine ⟨hcan, fun d f hf => ?_⟩
      cases hf
      rfl
    | shutdown => exact ⟨hcan, fun d f hf => by cases hf⟩
  · exact ⟨h, fun _ => Or.inl⟩

theorem proceed_moves (h : Kept s copies) (hrouted : s.Routed) {call : PendingCall}
    (hcall : s.call T = some call) {res : SysResult} (hstep : s.proceed T res call = some t) :
    Moves copies (some call.target) s t := by
  obtain ⟨hcan, hraw⟩ := h.calls T call hcall
  cases call with
  | setState c =>
    obtain ⟨conn, hconn, rfl⟩ := Option.map_eq_some_iff.mp hstep
    have hset : Moves copies (some c) s (s.setConn c { conn with state := .kDisconnecting }) :=
      .adds (T := T) h (.setConn hconn rfl) (Or.inr rfl)
    refine hset.trans ⟨hset.kept.setCall fun p hp => ?_, fun _ => Or.inl⟩
    cases hp
    refine ⟨hcan, fun d f hf => ?_⟩
    cases hf
    rfl
  | runInLoop c f =>
    obtain ⟨conn, hconn, rfl⟩ := Option.map_eq_some_iff.mp hstep
    have hf : f.isRaw = true := hraw c f rfl
    have hset : Moves copies (some c) s (s.setCall T none) :=
      ⟨h.setCall fun p hp => (Option.some_ne_none p hp.symm).elim, fun _ => Or.inl⟩
    have hidle : (s.setCall T none).call T = none := call_setCall ..
    have hconn' : (s.setCall T none).conns c = some conn := hconn
    refine hset.trans ?_
    unfold runInLoop
    split
    · refine callFunctor_moves hset.kept hidle hconn' ?_ res
      rintro rfl
      cases hf
    · rename_i hthread
      refine .pushRaw hset.kept ?_ T conn.loop f hf
      rcases hcan with hcopy | hargument
      · exact List.ne_nil_of_mem hcopy
      · -- the argument of a callback is used on the loop of the connection
        have hmem : Task.conn c .user ∈ s.todo T := List.mem_of_head? hargument
        obtain ⟨L, rfl, hhome⟩ := hrouted.tasks T c .user hmem
        have hloop : L = conn.loop := Option.some.inj (hhome.symm.trans (home_of hconn))
        exact absurd (decide_eq_true (congrArg Thread.loop hloop)) hthread

/-- **Every step hands on what it takes.** -/
theorem step_moves (h : Kept s copies) (hrouted : s.Routed) {act : ThreadAct}
    (hcan : ∀ T c request, act = .userCall T c request → T ∈ copies c ∨ s.IsArgument T c)
    (hserver : ∀ order, act ≠ .destroyServer order) (hown : s.OwnEntry act)
    (hstep : s.step act = some t) :
    ∃ who, Moves copies who s t ∧ ∀ c ∈ who, c ∈ s.target act ∨ c = s.accepted := by
  have hdoes := step_does hstep
  cases act with
  | loopStep L a =>
    obtain ⟨_, henabled, l, hl, rfl⟩ := hdoes
    refine ⟨none, .advance h (hrouted.loops L) hl ?_, fun c hc => by cases hc⟩
    rintro c rfl
    exact henabled.elim
  | handleEvent L fd =>
    obtain ⟨⟨hidle, _⟩, a, rest, l, hchannels, hl, rfl⟩ := hdoes
    have hpopped : ∀ who, Moves copies who s (s.setLoop L l) :=
      fun who => .advance h (hrouted.loops L) hl fun c ha => by cases ha
    have hidle' : (s.setLoop L l).call (.loop L) = none := hidle
    cases a with
    | wakeupChannel => exact ⟨none, hpopped none, fun c hc => by cases hc⟩
    | channel source =>
      cases source with
      | acceptor =>
        refine ⟨some s.accepted, (hpopped _).trans ?_, fun c hc => Or.inr ?_⟩
        · simp only [handleActive, acceptorHandleRead]
          split
          · cases fd with
            | none => exact ⟨(hpopped none).kept, fun _ => Or.inl⟩
            | some fd =>
              have hrouted' := (hrouted.advance hl fun active ha => by cases ha).routed
              have haccepts : s.accepts (.handleEvent L (some fd)) = true := by
                simp [accepts, hchannels]
              exact newConnection_moves (hpopped none).kept hrouted' hidle' fd (hown.1 haccepts)
          · exact .adds (T := .loop L) (hpopped none).kept (.abort _ _) (Or.inl hidle')
        · exact (Option.some.inj hc).symm
      | conn c revents =>
        refine ⟨some c, (hpopped _).trans ?_, fun d hd => Or.inl ?_⟩
        · refine .adds (T := .loop L) (hpopped none).kept (.pushTasks _ fun d u hin => ?_)
            (Or.inl hidle')
          obtain ⟨cb, _, heq⟩ := List.mem_map.mp hin
          cases heq
          exact ⟨rfl, trivial⟩
        · simpa [target, hchannels] using hd
  | callFunctor L res =>
    obtain ⟨⟨hidle, _⟩, f, rest, l, hfunctors, hl, rfl⟩ := hdoes
    refine ⟨f.target, loopCall_moves h hrouted hidle hfunctors hl res ?_, fun c hc => Or.inl ?_⟩
    · rintro c rfl
      apply hown.2
      simp [removes, hfunctors]
    · simpa [target, hfunctors] using hc
  | task T readRes res =>
    obtain ⟨hidle, task, rest, htodo, rfl⟩ := hdoes
    refine ⟨task.target, task_moves h hrouted hidle htodo readRes res ?_, fun c hc => Or.inl ?_⟩
    · rintro c rfl
      apply hown.2
      simp [removes, htodo]
    · simpa [target, htodo] using hc
  | start T =>
    obtain ⟨⟨hidle, _⟩, rfl⟩ := hdoes
    exact ⟨none, .adds h (start_adds s) (Or.inl hidle), fun c hc => by cases hc⟩
  | userCall T c request =>
    exact ⟨some c, userCall_moves h (hcan T c request rfl) hdoes.2, fun d hd => Or.inl hd⟩
  | proceed T res =>
    obtain ⟨call, hcall, hproceed⟩ := hdoes
    refine ⟨some call.target, proceed_moves h hrouted hcall hproceed, fun d hd => Or.inl ?_⟩
    simpa [target, hcall] using hd
  | userQueue T L =>
    obtain ⟨⟨hidle, _⟩, rfl⟩ := hdoes
    have hplain : Job.Plain none (.functor .user) := ⟨fun _ => rfl, fun _ hd => hd.elim⟩
    exact ⟨none, .adds h (.queueInLoop s T L hplain) (Or.inl hidle), fun c hc => by cases hc⟩
  | quit T L =>
    obtain ⟨⟨hidle, _⟩, rfl⟩ := hdoes
    exact ⟨none, .adds h (quit_adds s L) (Or.inl hidle), fun c hc => by cases hc⟩
  | destroyServer order => exact absurd rfl (hserver order)

end ThreadSystem

end Ymuduo
