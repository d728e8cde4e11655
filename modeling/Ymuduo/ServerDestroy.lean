/-
  Ymuduo/ServerDestroy.lean
  =========================
  **`~TcpServer` and the closes that it meets.**

  The close callback of a connection and the functor `removeConnectionInLoop` hold a raw
  pointer to the server.  Between `handleClose` and `removeConnectionInLoop` one of the two
  is under way, and `~TcpServer` does not stop it; nor does it stop a loop that calls
  `handleClose` afterwards.  Without these two nothing of the server runs any more once it
  is destroyed.  `connectDestroyed`, which both roads lead to, then runs at most once.

  As everywhere in `ServerSystem`, a `shutdown` is not interrupted and no report is odd.
  Otherwise a second `handleClose` is possible (`CloseOnce`), and with it a second
  `connectDestroyed`, also without `~TcpServer`.
-/
import Ymuduo.TearDown

namespace Ymuduo

/-- `handleClose` calls `closeCallback_`, and nothing else does. -/
theorem closeCallback_mem_exec {conn : TcpConnection} {op : ConnOp} :
    .closeCallback ∈ (conn.exec op).2 ↔ op.closes = true := by
  have hquiet : ∀ op : ConnOp, op.IsQuiet → .closeCallback ∉ (conn.exec op).2 :=
    fun op hop hin => (conn.exec_quiet hop).effects _ hin
  have hno : .closeCallback ∉ (conn.exec op).2 → op.closes = false →
      (.closeCallback ∈ (conn.exec op).2 ↔ op.closes = true) :=
    fun hnot hcloses => iff_of_false hnot (by simp [hcloses])
  cases op with
  | handleClose => simp [TcpConnection.exec, TcpConnection.handleClose, ConnOp.closes]
  | handleRead res =>
    cases res with
    | err errno => exact hno (hquiet _ ⟨errno, rfl⟩) rfl
    | ok bytes =>
      by_cases hempty : bytes.length = 0
      · simp [TcpConnection.exec, TcpConnection.handleRead, WfBuffer.readFd, ConnOp.closes, hempty,
          TcpConnection.handleClose]
      · simp [TcpConnection.exec, TcpConnection.handleRead, WfBuffer.readFd, ConnOp.closes, hempty,
          Nat.pos_of_ne_zero hempty]
  | sendInLoop message res => exact hno (hquiet _ trivial) rfl
  | handleWrite res => exact hno (hquiet _ trivial) rfl
  | shutdownInLoop => exact hno (hquiet _ trivial) rfl
  | connectEstablished =>
    exact hno (by simp [TcpConnection.exec, TcpConnection.connectEstablished]) rfl
  | shutdown => exact hno (by simp [TcpConnection.exec]) rfl
  | connectDestroyed =>
    refine hno ?_ rfl
    simp only [TcpConnection.exec, TcpConnection.connectDestroyed]
    split
    · simp
    · simp

theorem ConnFunctor.op_closes {f : ConnFunctor} {res : SysResult} {op : ConnOp}
    (h : f.op res = some op) : op.closes = false := by
  cases f with
  | connectEstablished | sendInLoop _ | shutdownInLoop | connectDestroyed =>
    cases h
    rfl
  | writeComplete | highWaterMark _ => cases h

/-- The task calls `handleClose`. -/
def Task.Closes (readRes : ReadvResult) (res : SysResult) : Task → Prop
  | .conn _ (.callback cb) =>
    ∃ op ∈ ServerSystem.callbackOp readRes res cb, op.closes = true
  | _ => False

instance (readRes : ReadvResult) (res : SysResult) : (u : Task) → Decidable (u.Closes readRes res)
  | .conn _ (.callback _) => inferInstanceAs (Decidable (∃ _ ∈ _, _))
  | .conn _ (.effect _) | .conn _ .connectDestroyed | .conn _ .user | .user =>
    inferInstanceAs (Decidable False)

namespace ServerSystem

variable {s t u : ServerSystem} {c : ConnId} {r : ConnRecord} {L : LoopId} {act : ServerAct}

/-! ### What the functions add -/

/-- Tasks in front of those of a loop and functors behind the others; none that is a
    `removeConnection` or leads to one, unless `removal`. -/
structure Adds (removal : Prop) (s t : ServerSystem) : Prop where
  alive : t.server.alive = s.server.alive
  steps : ∀ c r, s.conns c = some r → ∃ r', t.conns c = some r' ∧ r.steps <+: r'.steps
  todo : ∀ L, ∃ tasks, t.todo L = tasks ++ s.todo L
    ∧ (removal ∨ ∀ c, .conn c (.effect .closeCallback) ∉ tasks)
  waiting : ∀ L, ∃ functors, (t.loop L).waiting = (s.loop L).waiting ++ functors
    ∧ (removal ∨ ∀ c, .removeConnectionInLoop c ∉ functors)

section Adds

variable {removal : Prop}

theorem Adds.of_same (halive : t.server.alive = s.server.alive) (hconns : t.conns = s.conns)
    (htodo : t.todo = s.todo) (hloop : t.loop = s.loop) : Adds removal s t := by
  refine ⟨halive, fun c r hr => ?_, fun L => ?_, fun L => ?_⟩
  · rw [hconns]
    exact ⟨r, hr, List.prefix_refl _⟩
  · rw [htodo]
    exact ⟨[], rfl, Or.inr fun _ => List.not_mem_nil⟩
  · rw [hloop]
    exact ⟨[], (List.append_nil _).symm, Or.inr fun _ => List.not_mem_nil⟩

theorem Adds.refl (s : ServerSystem) : Adds removal s s := .of_same rfl rfl rfl rfl

theorem Adds.trans (h : Adds removal s t) (h' : Adds removal t u) : Adds removal s u := by
  refine ⟨h'.alive.trans h.alive, fun c r hr => ?_, fun L => ?_, fun L => ?_⟩
  · obtain ⟨r', hr', hsteps⟩ := h.steps c r hr
    obtain ⟨r'', hr'', hsteps'⟩ := h'.steps c r' hr'
    exact ⟨r'', hr'', hsteps.trans hsteps'⟩
  · obtain ⟨tasks, htasks, hnone⟩ := h.todo L
    obtain ⟨tasks', htasks', hnone'⟩ := h'.todo L
    refine ⟨tasks' ++ tasks, by rw [htasks', htasks, List.append_assoc], ?_⟩
    by_cases hremoval : removal
    · exact Or.inl hremoval
    · refine Or.inr fun c hin => ?_
      rcases List.mem_append.mp hin with hin | hin
      · exact hnone'.resolve_left hremoval c hin
      · exact hnone.resolve_left hremoval c hin
  · obtain ⟨functors, hfunctors, hnone⟩ := h.waiting L
    obtain ⟨functors', hfunctors', hnone'⟩ := h'.waiting L
    refine ⟨functors ++ functors', by rw [hfunctors', hfunctors, List.append_assoc], ?_⟩
    by_cases hremoval : removal
    · exact Or.inl hremoval
    · refine Or.inr fun c hin => ?_
      rcases List.mem_append.mp hin with hin | hin
      · exact hnone.resolve_left hremoval c hin
      · exact hnone'.resolve_left hremoval c hin

theorem Adds.setConn (hr : s.conns c = some r) {r' : ConnRecord} (hsteps : r.steps <+: r'.steps) :
    Adds removal s (s.setConn c r') := by
  have hsame : Adds removal s s := .refl s
  refine ⟨rfl, fun d q hq => ?_, hsame.todo, hsame.waiting⟩
  by_cases hd : d = c
  · subst hd
    rw [hr] at hq
    cases hq
    exact ⟨r', conns_setConn .., hsteps⟩
  · exact ⟨q, (s.conns_setConn_ne r' hd).trans hq, List.prefix_refl _⟩

theorem Adds.queueInLoop (s : ServerSystem) (isInLoopThread : Bool) (L : LoopId) {f : Functor}
    (hf : removal ∨ ∀ c, f ≠ .removeConnectionInLoop c) :
    Adds removal s (s.queueInLoop isInLoopThread L f) := by
  have hsame : Adds removal s s := .refl s
  refine ⟨rfl, hsame.steps, hsame.todo, fun M => ?_⟩
  refine ⟨_, waiting_queueInLoop s isInLoopThread L f M, hf.imp_right fun hne d hin => ?_⟩
  split at hin
  · exact hne d (List.mem_singleton.mp hin).symm
  · cases hin

theorem Adds.pushTasks (s : ServerSystem) (L : LoopId) {tasks : List Task}
    (htasks : removal ∨ ∀ c, .conn c (.effect .closeCallback) ∉ tasks) :
    Adds removal s (s.pushTasks L tasks) := by
  have hsame : Adds removal s s := .refl s
  refine ⟨rfl, hsame.steps, fun M => ?_, hsame.waiting⟩
  by_cases hM : M = L
  · subst hM
    exact ⟨tasks, todo_setTodo .., htasks⟩
  · exact ⟨[], todo_setTodo_ne _ _ hM, Or.inr fun _ => List.not_mem_nil⟩

theorem perform_adds (s : ServerSystem) (c : ConnId) (e : Effect) :
    Adds removal s (s.perform c e) := by
  have habort : ∀ fault, Adds removal s (s.abort fault) := fun _ => .of_same rfl rfl rfl rfl
  unfold perform
  cases hr : s.conns c with
  | none => exact .refl s
  | some r =>
    have hset : ∀ (p : EPollPoller ConnId) {r' : ConnRecord}, r.steps <+: r'.steps →
        Adds removal s ((s.setPoller r.conn.loop p).setConn c r') := by
      intro p r' hsteps
      have hpoller : Adds removal s (s.setPoller r.conn.loop p) := .of_same rfl rfl rfl rfl
      exact hpoller.trans (.setConn (s := s.setPoller r.conn.loop p) hr hsteps)
    cases e with
    | updateChannel =>
      dsimp only
      split
      · exact hset _ (List.prefix_refl _)
      · exact habort _
    | removeChannel =>
      dsimp only
      split
      · exact hset _ (List.prefix_append _ _)
      · exact habort _
    | queueInLoop f => exact .queueInLoop s true _ (Or.inr nofun)
    | assertion fault holds =>
      dsimp only
      split
      · exact .refl s
      · exact habort _
    | write _ | shutdownWrite | connectionCallback | messageCallback | closeCallback =>
      exact .refl s

theorem runEffects_adds {effects : List Effect} (heffects : removal ∨ .closeCallback ∉ effects) :
    ∀ s : ServerSystem, Adds removal s (s.runEffects L c effects) := by
  induction effects with
  | nil => exact .refl
  | cons e es ih =>
    intro s
    unfold runEffects
    split
    · refine .pushTasks s L (heffects.imp_right fun hnot d hin => ?_)
      obtain ⟨e', he', heq⟩ := List.mem_map.mp hin
      cases heq
      exact hnot he'
    · have hrest := ih (heffects.imp_right fun hnot hin => hnot (List.mem_cons_of_mem _ hin))
      exact (perform_adds s c e).trans (hrest _)

theorem run_adds (s : ServerSystem) (c : ConnId) {op : ConnOp}
    (hop : removal ∨ op.closes = false) : Adds removal s (s.run c op) := by
  unfold run
  cases hr : s.conns c with
  | none => exact .refl s
  | some r =>
    dsimp only
    split
    · have hset : Adds removal s (s.setConn c (r.exec op)) := .setConn hr (List.prefix_append _ _)
      refine hset.trans (runEffects_adds (hop.imp_right fun hno hin => ?_) _)
      rw [closeCallback_mem_exec.mp hin] at hno
      cases hno
    · exact .of_same rfl rfl rfl rfl

theorem userCallback_adds (s : ServerSystem) (L : LoopId) (c : ConnId)
    (event : ConnRecord → UserEvent) : Adds removal s (s.userCallback L c event) := by
  unfold userCallback
  cases hr : s.conns c with
  | none => exact .refl s
  | some r =>
    have hset : Adds removal s (s.setConn c (r.addEvent (event r))) :=
      .setConn hr (List.prefix_refl _)
    exact hset.trans (.pushTasks _ L (Or.inr fun d hin => by simp at hin))

theorem removeConnectionInLoop_adds (s : ServerSystem) (c : ConnId) :
    Adds removal s (s.removeConnectionInLoop c) := by
  unfold removeConnectionInLoop
  split
  · cases hr : s.conns c with
    | none => exact .refl s
    | some r =>
      let erased : ServerSystem := { s with server := { s.server with
        connections := Function.update s.server.connections r.conn.name none } }
      have herased : Adds removal s erased := .of_same rfl rfl rfl rfl
      have hset : Adds removal erased (erased.setConn c (r.addStep .removeConnectionInLoop)) :=
        .setConn (s := erased) hr (List.prefix_append _ _)
      exact (herased.trans hset).trans (.queueInLoop _ _ _ (Or.inr nofun))
  · exact .of_same rfl rfl rfl rfl

/-- A destroyed server is not used at all: the process aborts. -/
theorem removeConnection_adds (s : ServerSystem) (L : LoopId) (c : ConnId)
    (hremoval : removal ∨ s.server.alive = false) : Adds removal s (s.removeConnection L c) := by
  unfold removeConnection
  split
  · rename_i halive
    split
    · exact removeConnectionInLoop_adds s c
    · exact .queueInLoop s _ _ (Or.inl (hremoval.resolve_right (by simp [halive])))
  · exact .of_same rfl rfl rfl rfl

theorem runEffect_adds (s : ServerSystem) (L : LoopId) (c : ConnId) (e : Effect)
    (hremoval : removal ∨ s.server.alive = false) : Adds removal s (s.runEffect L c e) := by
  have hperform : Adds removal s (s.perform c e) := perform_adds s c e
  cases e with
  | connectionCallback | messageCallback => exact userCallback_adds s L c _
  | closeCallback => exact removeConnection_adds s L c hremoval
  | write _ | shutdownWrite | updateChannel | removeChannel | queueInLoop _ | assertion _ _ =>
    exact hperform

theorem runTask_adds (s : ServerSystem) (L : LoopId) {readRes : ReadvResult} {res : SysResult}
    {task : Task} (hclose : removal ∨ ¬ task.Closes readRes res)
    (hremoval : removal ∨ s.server.alive = false) :
    Adds removal s (s.runTask L readRes res task) := by
  cases task with
  | user => exact .refl s
  | conn c task =>
    cases task with
    | callback cb =>
      simp only [runTask]
      cases hop : callbackOp readRes res cb with
      | none => exact .refl s
      | some op =>
        refine run_adds s c (hclose.imp_right fun hno => ?_)
        rw [← Bool.not_eq_true]
        exact fun hcloses => hno ⟨op, hop, hcloses⟩
    | effect e => exact runEffect_adds s L c e hremoval
    | connectDestroyed => exact run_adds s c (Or.inr rfl)
    | user => exact .refl s

theorem runFunctor_adds (s : ServerSystem) (L : LoopId) (res : SysResult) (f : Functor) :
    Adds removal s (s.runFunctor L res f) := by
  cases f with
  | conn c f =>
    simp only [runFunctor]
    cases hop : f.op res with
    | none => exact .pushTasks s L (Or.inr fun d hin => by simp at hin)
    | some op => exact run_adds s c (Or.inr (ConnFunctor.op_closes hop))
  | removeConnectionInLoop c => exact removeConnectionInLoop_adds s c
  | user => exact .pushTasks s L (Or.inr fun d hin => by simp at hin)

theorem newConnection_adds (hnew : s.conns s.accepted = none) (fd : Fd) :
    Adds removal s (s.newConnection fd) := by
  have hinsert : Adds removal s (s.insertConnection fd) := by
    have hsame : Adds removal s s := .refl s
    refine ⟨rfl, fun c r hr => ?_, hsame.todo, hsame.waiting⟩
    have hne : c ≠ s.accepted := by
      rintro rfl
      cases hnew.symm.trans hr
    exact ⟨r, (Function.update_of_ne hne ..).trans hr, List.prefix_refl _⟩
  unfold newConnection
  split
  · exact hinsert.trans (run_adds _ _ (Or.inr rfl))
  · exact hinsert.trans (.queueInLoop _ _ _ (Or.inr nofun))

theorem handleActive_adds (hnew : s.conns s.accepted = none) {fd : Option Fd}
    {a : ActiveChannel Source} (hactive : s.handleActive L fd a = some t) : Adds removal s t := by
  have habort : ∀ fault, Adds removal s (s.abort fault) := fun _ => .of_same rfl rfl rfl rfl
  cases a with
  | wakeupChannel =>
    cases hactive
    exact .refl s
  | channel source =>
    cases source with
    | acceptor =>
      simp only [handleActive, acceptorHandleRead] at hactive
      split at hactive
      · cases fd with
        | none =>
          cases hactive
          exact .refl s
        | some fd =>
          simp only [Option.ite_none_right_eq_some, Option.some.injEq] at hactive
          obtain ⟨_, rfl⟩ := hactive
          exact newConnection_adds hnew fd
      · cases hactive
        exact habort _
    | conn c revents =>
      obtain ⟨r, _, rfl⟩ := Option.map_eq_some_iff.mp hactive
      split
      · refine .pushTasks s L (Or.inr fun d hin => ?_)
        obtain ⟨cb, _, heq⟩ := List.mem_map.mp hin
        cases heq
      · exact habort _

theorem userCall_adds {who : UserThread} {request : Request} {res : SysResult}
    (hcall : s.userCall who c request res = some t) : Adds removal s t := by
  obtain ⟨r, hr, rfl⟩ := Option.map_eq_some_iff.mp hcall
  have hset : Adds removal s (s.setConn c
      { r with conn := (request.call r.conn (who = .loop r.conn.loop)).1 }) :=
    .setConn hr (List.prefix_refl _)
  dsimp only
  split
  · exact hset
  · split
    · rename_i op hop
      exact hset.trans (run_adds _ c (Or.inr (ConnFunctor.op_closes hop)))
    · exact hset
  · exact hset.trans (.queueInLoop _ _ _ (Or.inr nofun))

/-- `~TcpServer` adds the `connectDestroyed`s. -/
theorem destroyServer_adds (s : ServerSystem) (order : List ConnId) :
    Adds removal { s with server := { s.server with
        alive := false, connections := fun _ => none } } (s.destroyServer order) := by
  have hqueued : ∀ (order : List ConnId) (u : ServerSystem), Adds removal u (order.foldl
      (fun v c => v.queueInLoop false (s.loopOf c) (.conn c .connectDestroyed)) u) := by
    intro order
    induction order with
    | nil => exact .refl
    | cons c cs ih =>
      intro u
      have hqueue : Adds removal u (u.queueInLoop false (s.loopOf c) (.conn c .connectDestroyed)) :=
        .queueInLoop u _ _ (Or.inr nofun)
      exact hqueue.trans (ih _)
  refine (hqueued _ _).trans (.pushTasks _ _ (Or.inr fun d hin => ?_))
  obtain ⟨c, _, heq⟩ := List.mem_map.mp hin
  cases heq

end Adds

/-! ### What a step takes and adds -/

/-- The step calls `handleClose` of some connection. -/
def CallsHandleClose (s : ServerSystem) : ServerAct → Prop
  | .task L readRes res => ∃ task ∈ (s.todo L).head?, task.Closes readRes res
  | _ => False

instance (s : ServerSystem) : (act : ServerAct) → Decidable (s.CallsHandleClose act)
  | .task _ _ _ => inferInstanceAs (Decidable (∃ _ ∈ _, _))
  | .loopStep _ _ | .handleEvent _ _ | .callFunctor _ _ | .userCall _ _ _ _ | .userCopy _ _
  | .userDrop _ | .userQueue _ _ | .quit _ | .destroy _ | .destroyServer _ =>
    inferInstanceAs (Decidable False)

/-- `u` is `s` without the functor, the channel or the task that the step takes. -/
structure Takes (s : ServerSystem) (act : ServerAct) (u : ServerSystem) : Prop where
  alive : u.server.alive = s.server.alive ∨ ∃ order, act = .destroyServer order
  conns : u.conns = s.conns
  todo : ∀ L, u.todo L = s.todo L
    ∨ ∃ readRes res task, act = .task L readRes res ∧ s.todo L = task :: u.todo L
  waiting : ∀ L, (u.loop L).waiting = (s.loop L).waiting
    ∨ ∃ res f, act = .callFunctor L res ∧ (s.loop L).functors.head? = some f
      ∧ (s.loop L).waiting = f :: (u.loop L).waiting

theorem Takes.refl (s : ServerSystem) (act : ServerAct) : Takes s act s :=
  ⟨Or.inl rfl, rfl, fun _ => Or.inl rfl, fun _ => Or.inl rfl⟩

theorem Takes.setLoop (s : ServerSystem) (act : ServerAct) {l : EventLoop Source Functor}
    (hwaiting : l.waiting = (s.loop L).waiting) : Takes s act (s.setLoop L l) := by
  refine ⟨Or.inl rfl, rfl, fun _ => Or.inl rfl, fun M => Or.inl ?_⟩
  by_cases hM : M = L
  · subst hM
    rw [loop_setLoop, hwaiting]
  · rw [loop_setLoop_ne _ _ hM]

/-- **A step takes what it runs, and its functions add.** -/
theorem step_adds {removal : Prop} (h : s.Wiring)
    (hclose : removal ∨ ¬ s.CallsHandleClose act)
    (hremoval : removal ∨ s.server.alive = false) (hstep : s.step act = some t) :
    ∃ u, Takes s act u ∧ Adds removal u t := by
  have hloop : ∀ {L a l}, (s.loop L).calls a = [] → (s.loop L).advance a = some l →
      Takes s act (s.setLoop L l) := by
    intro L a l hcalls hl
    apply Takes.setLoop
    rw [((h.loops L).advance hl).2, hcalls, List.nil_append]
  have hdoes := step_does hstep
  cases act with
  | loopStep L a =>
    obtain ⟨_, henabled, l, hl, rfl⟩ := hdoes
    have hcalls : (s.loop L).calls a = [] := by
      cases a <;> first | rfl | exact henabled.elim
    exact ⟨_, hloop hcalls hl, .refl _⟩
  | handleEvent L fd =>
    obtain ⟨_, _, _, l, _, hl, hactive⟩ := hdoes
    have hnew := conns_accepted h
    exact ⟨_, hloop rfl hl, handleActive_adds (s := s.setLoop L l) hnew hactive⟩
  | callFunctor L res =>
    obtain ⟨f, l, _, hhead, _, hwaiting, _, rfl⟩ := h.callFunctor_cases hstep
    refine ⟨s.setLoop L l, ⟨Or.inl rfl, rfl, fun _ => Or.inl rfl, fun M => ?_⟩,
      runFunctor_adds (s.setLoop L l) L res f⟩
    by_cases hM : M = L
    · subst hM
      rw [loop_setLoop]
      exact Or.inr ⟨res, f, rfl, hhead, hwaiting⟩
    · exact Or.inl (congrArg _ (loop_setLoop_ne _ _ hM))
  | task L readRes res =>
    obtain ⟨task, rest, htodo, rfl⟩ := hdoes
    refine ⟨s.setTodo L rest, ⟨Or.inl rfl, rfl, fun M => ?_, fun _ => Or.inl rfl⟩,
      runTask_adds _ L (hclose.imp_right fun hno hcloses => hno ⟨task, ?_, hcloses⟩) hremoval⟩
    · by_cases hM : M = L
      · subst hM
        rw [todo_setTodo]
        exact Or.inr ⟨readRes, res, task, rfl, htodo⟩
      · exact Or.inl (todo_setTodo_ne _ _ hM)
    · rw [htodo]
      rfl
  | userCall who c request res => exact ⟨s, .refl s _, userCall_adds hdoes.2⟩
  | userCopy who c =>
    obtain ⟨_, rfl⟩ := hdoes
    exact ⟨s, .refl s _, .of_same rfl rfl rfl rfl⟩
  | userDrop c =>
    obtain ⟨_, rfl⟩ := hdoes
    exact ⟨s, .refl s _, .of_same rfl rfl rfl rfl⟩
  | userQueue L isInLoopThread =>
    obtain rfl := hdoes
    exact ⟨s, .refl s _, .queueInLoop s _ _ (Or.inr fun _ h => by cases h)⟩
  | quit L =>
    obtain rfl := hdoes
    have htakes : Takes s (.quit L) (s.setLoop L { (s.loop L).wakeup with quit := true }) :=
      .setLoop s _ rfl
    exact ⟨_, htakes, .refl _⟩
  | destroy c =>
    obtain ⟨r, hr, hstep⟩ := Option.bind_eq_some_iff.mp hdoes
    rw [Option.ite_none_right_eq_some] at hstep
    obtain ⟨_, hstep⟩ := hstep
    split at hstep
    · cases hstep
      exact ⟨s, .refl s _, .setConn hr (List.prefix_refl _)⟩
    · cases hstep
      exact ⟨s, .refl s _, .of_same rfl rfl rfl rfl⟩
  | destroyServer order =>
    obtain ⟨_, rfl⟩ := hdoes
    have htakes : Takes s (.destroyServer order) { s with server := { s.server with
        alive := false, connections := fun _ => none } } :=
      ⟨Or.inr ⟨order, rfl⟩, rfl, fun _ => Or.inl rfl, fun _ => Or.inl rfl⟩
    exact ⟨_, htakes, destroyServer_adds s order⟩

/-! ### Closes under way -/

/-- `handleClose` has begun, and `removeConnectionInLoop` has not run. -/
def Closing (r : ConnRecord) : Prop :=
  .handleClose ∈ r.steps ∧ .removeConnectionInLoop ∉ r.steps

instance (r : ConnRecord) : Decidable (Closing r) := inferInstanceAs (Decidable (_ ∧ _))

/-- `~TcpServer` meets no close under way, and no loop calls `handleClose` after it. -/
def NoCloseInFlight (s : ServerSystem) : ServerAct → Prop
  | .destroyServer _ => ∀ c < s.accepted, ∀ r ∈ s.conns c, ¬ Closing r
  | act => s.server.alive = false → ¬ s.CallsHandleClose act

instance (s : ServerSystem) : (act : ServerAct) → Decidable (s.NoCloseInFlight act)
  | .destroyServer _ =>
    inferInstanceAs (Decidable (∀ c < s.accepted, ∀ r ∈ s.conns c, ¬ Closing r))
  | .loopStep _ _ | .handleEvent _ _ | .callFunctor _ _ | .task _ _ _ | .userCall _ _ _ _
  | .userCopy _ _ | .userDrop _ | .userQueue _ _ | .quit _ | .destroy _ =>
    inferInstanceAs (Decidable (s.server.alive = false → _))

/-- The step runs `removeConnection` or `removeConnectionInLoop`. -/
def RunsRemove (s : ServerSystem) (c : ConnId) : ServerAct → Prop
  | .callFunctor L _ => (s.loop L).functors.head? = some (.removeConnectionInLoop c)
  | .task L _ _ => (s.todo L).head? = some (.conn c (.effect .closeCallback))
  | _ => False

/-- No call into the server is left to do. -/
structure Settled (s : ServerSystem) : Prop where
  waiting : ∀ L c, .removeConnectionInLoop c ∉ (s.loop L).waiting
  todo : ∀ L c, .conn c (.effect .closeCallback) ∉ s.todo L

theorem Settled.takes (h : s.Settled) (htakes : Takes s act u) : u.Settled := by
  constructor
  · intro L c hin
    apply h.waiting L c
    rcases htakes.waiting L with hsame | ⟨_, f, _, _, hpop⟩
    · rw [← hsame]
      exact hin
    · rw [hpop]
      exact List.mem_cons_of_mem _ hin
  · intro L c hin
    apply h.todo L c
    rcases htakes.todo L with hsame | ⟨_, _, task, _, hpop⟩
    · rw [← hsame]
      exact hin
    · rw [hpop]
      exact List.mem_cons_of_mem _ hin

theorem Settled.adds (h : s.Settled) (hadds : Adds False s t) : t.Settled := by
  constructor
  · intro L c hin
    obtain ⟨functors, hwaiting, hnone⟩ := hadds.waiting L
    rw [hwaiting] at hin
    rcases List.mem_append.mp hin with hold | hnew
    · exact h.waiting L c hold
    · exact hnone.resolve_left id c hnew
  · intro L c hin
    obtain ⟨tasks, htodo, hnone⟩ := hadds.todo L
    rw [htodo] at hin
    rcases List.mem_append.mp hin with hnew | hold
    · exact hnone.resolve_left id c hnew
    · exact h.todo L c hold

theorem Settled.not_runsRemove (h : s.Settled) (c : ConnId) : ¬ s.RunsRemove c act := by
  intro hruns
  cases act with
  | callFunctor L res =>
    exact h.waiting L c (List.mem_append_left _ (List.mem_of_mem_head? hruns))
  | task L readRes res => exact h.todo L c (List.mem_of_mem_head? hruns)
  | loopStep _ _ | handleEvent _ _ | userCall _ _ _ _ | userCopy _ _ | userDrop _ | userQueue _ _
  | quit _ | destroy _ | destroyServer _ => exact hruns

/-- `~TcpServer` runs once. -/
theorem not_destroyServer (hdead : s.server.alive = false) (hstep : s.step act = some t)
    (order : List ConnId) : act ≠ .destroyServer order := by
  rintro rfl
  obtain ⟨⟨halive, _⟩, _⟩ := step_does hstep
  exact absurd (hdead.symm.trans halive) (by decide)

/-- **A destroyed server stays settled** as long as no loop calls `handleClose`. -/
theorem Settled.step (h : s.Settled) (hwiring : s.Wiring) (hdead : s.server.alive = false)
    (hquiet : s.NoCloseInFlight act) (hstep : s.step act = some t) :
    t.Settled ∧ t.server.alive = false := by
  have hact := not_destroyServer hdead hstep
  have hclose : ¬ s.CallsHandleClose act := by
    cases act with
    | destroyServer order => exact absurd rfl (hact order)
    | loopStep _ _ | handleEvent _ _ | callFunctor _ _ | task _ _ _ | userCall _ _ _ _
    | userCopy _ _ | userDrop _ | userQueue _ _ | quit _ | destroy _ => exact hquiet hdead
  obtain ⟨u, htakes, hadds⟩ := step_adds hwiring (Or.inr hclose) (Or.inr hdead) hstep
  refine ⟨(h.takes htakes).adds hadds, ?_⟩
  rcases htakes.alive with hsame | ⟨order, horder⟩
  · rw [hadds.alive, hsame, hdead]
  · exact absurd horder (hact order)

/-- Of a close that is under way, and of no other, a call into the server is left to do. -/
theorem closing_iff_of_life {v : ConnView} (h : v.Life) (hserver : v.server = true) :
    Closing v.toConnRecord ↔ v.removes ≠ 0 ∨ .effect .closeCallback ∈ v.tasks := by
  have hno : ∀ {steps : List LifeStep}, v.steps = steps →
      (.handleClose ∉ steps ∨ .removeConnectionInLoop ∈ steps) → v.removes = 0 →
      .effect .closeCallback ∉ v.tasks →
      (Closing v.toConnRecord ↔ v.removes ≠ 0 ∨ .effect .closeCallback ∈ v.tasks) := by
    rintro steps rfl hsteps hremoves htasks
    refine iff_of_false (fun hclosing => ?_) (by simp [hremoves, htasks])
    exact hsteps.elim (fun hnot => hnot hclosing.1) hclosing.2
  have hyes : v.steps = [.newConnection, .connectEstablished, .handleClose] →
      (v.removes ≠ 0 ∨ .effect .closeCallback ∈ v.tasks) →
      (Closing v.toConnRecord ↔ v.removes ≠ 0 ∨ .effect .closeCallback ∈ v.tasks) := by
    intro hsteps hleft
    exact iff_of_true ⟨by simp [hsteps], by simp [hsteps]⟩ hleft
  cases h with
  | queued h =>
    have htasks : v.tasks = [] := h.fresh.tasks
    exact hno h.fresh.steps (Or.inl (by decide)) h.fresh.removes (by simp [htasks])
  | announcing h => exact hno h.steps (Or.inl (by decide)) h.removes (by simp [h.tasks])
  | established h => exact hno h.steps (Or.inl (by decide)) h.removes fun hin => h.plain _ hin
  | downPending h => exact hyes h.steps (Or.inr (by simp [h.tasks]))
  | closePending h => exact hyes h.steps (Or.inr (by simp [h.tasks]))
  | removing h => exact hyes h.steps (Or.inl (by simp [h.removes]))
  | destroying h =>
    exact hno h.steps (Or.inr (by decide)) h.removes fun hin => h.spent.plain _ hin
  | gone h => exact hno h.steps (Or.inr (by decide)) h.removes (by simp [h.tasks])
  | dropPending h => cases hserver.symm.trans h.dropping.server
  | dropTold h => cases hserver.symm.trans h.dropping.server
  | stray h => cases hserver.symm.trans h.server

/-- **A server is settled if and only if no close is under way.** -/
theorem Inv.settled_iff (h : s.Inv) (hserver : s.server.alive = true) :
    s.Settled ↔ ∀ c < s.accepted, ∀ r ∈ s.conns c, ¬ Closing r := by
  have hview : ∀ c r, s.conns c = some r → (Closing r
      ↔ (s.view c r).removes ≠ 0 ∨ .effect .closeCallback ∈ (s.view c r).tasks) :=
    fun c r hr => closing_iff_of_life (h.life c r hr) hserver
  constructor
  · intro hsettled c _ r hr hclosing
    rcases (hview c r hr).mp hclosing with hremoves | htasks
    · exact hremoves (List.count_eq_zero.mpr (hsettled.waiting mainLoop c))
    · obtain ⟨u, hu, hof⟩ := List.mem_filterMap.mp htasks
      exact hsettled.todo _ c (task_of_eq_some hof ▸ hu)
  · intro hnone
    have hnot : ∀ c r, s.conns c = some r → ¬ Closing r := fun c r hr =>
      hnone c ((h.wiring.roster.domain c).mp (by simp [place, hr])) r hr
    constructor
    · intro L c hin
      obtain ⟨rfl, hhome⟩ := h.wiring.routing.functors L (.removeConnectionInLoop c) hin
      obtain ⟨M, hM⟩ := Option.isSome_iff_exists.mp hhome
      obtain ⟨r, hr, _⟩ := Option.map_eq_some_iff.mp hM
      refine hnot c r hr ((hview c r hr).mpr (Or.inl fun hzero => ?_))
      exact List.count_eq_zero.mp hzero hin
    · intro L c hin
      have hhome := h.wiring.routing.tasks L c _ hin
      obtain ⟨r, hr, rfl⟩ := Option.map_eq_some_iff.mp hhome
      refine hnot c r hr ((hview c r hr).mpr (Or.inr ?_))
      exact List.mem_filterMap.mpr ⟨_, hin, Task.of_self c _⟩

/-- `~TcpServer` does nothing about them. -/
theorem settled_destroyServer (order : List ConnId) :
    (s.destroyServer order).Settled ↔ s.Settled := by
  have hadds : Adds False { s with server := { s.server with
      alive := false, connections := fun _ => none } } (s.destroyServer order) :=
    destroyServer_adds s order
  constructor
  · intro h
    constructor
    · intro L c hin
      obtain ⟨functors, hwaiting, _⟩ := hadds.waiting L
      exact h.waiting L c (by rw [hwaiting]; exact List.mem_append_left _ hin)
    · intro L c hin
      obtain ⟨tasks, htodo, _⟩ := hadds.todo L
      exact h.todo L c (by rw [htodo]; exact List.mem_append_right _ hin)
  · intro h
    have hdying : Settled { s with server := { s.server with
        alive := false, connections := fun _ => none } } := ⟨h.waiting, h.todo⟩
    exact hdying.adds hadds

theorem runEffects_leaves {effects : List Effect} {e : Effect} (hcallback : isCallback e = true)
    (hin : e ∈ effects) :
    ∀ s : ServerSystem, .conn c (.effect e) ∈ (s.runEffects L c effects).todo L := by
  induction effects with
  | nil => cases hin
  | cons e' es ih =>
    intro s
    unfold runEffects
    split
    · rw [pushTasks, todo_setTodo]
      exact List.mem_append_left _ (List.mem_map.mpr ⟨e, hin, rfl⟩)
    · rename_i hother
      refine ih ((List.mem_cons.mp hin).resolve_left ?_) _
      rintro rfl
      exact hother hcallback

/-- A `handleClose` leaves its `closeCallback_` to do. -/
theorem not_settled_of_run (hr : s.conns c = some r) {op : ConnOp} (hop : op.closes = true) :
    (s.run c op).aborted ≠ none ∨ ¬ (s.run c op).Settled := by
  simp only [run, hr]
  split
  · refine Or.inr fun h => h.todo r.conn.loop c ?_
    exact runEffects_leaves rfl (closeCallback_mem_exec.mpr hop) _
  · exact Or.inl (Option.some_ne_none _)

/-- **A step that is not quiet leaves a call into the destroyed server to do.** -/
theorem Inv.not_settled (h : s.Inv) (hnoise : ¬ s.NoCloseInFlight act)
    (hstep : s.step act = some t) :
    t.aborted ≠ none ∨ t.server.alive = false ∧ ¬ t.Settled := by
  have hcalled : ∀ {L readRes res}, act = .task L readRes res → s.server.alive = false →
      s.CallsHandleClose act → t.aborted ≠ none ∨ t.server.alive = false ∧ ¬ t.Settled := by
    rintro L readRes res rfl hdead ⟨task, hhead, hcloses⟩
    obtain ⟨task', rest, htodo, rfl⟩ := step_does hstep
    rw [htodo, List.head?_cons, Option.mem_some_iff] at hhead
    subst hhead
    cases task' with
    | user => exact hcloses.elim
    | conn c task =>
      cases task with
      | effect _ | connectDestroyed | user => exact hcloses.elim
      | callback cb =>
        obtain ⟨op, hop, hcloses⟩ := hcloses
        obtain ⟨r, hr, _⟩ := Option.map_eq_some_iff.mp
          (h.wiring.routing.tasks L c _ (htodo ▸ List.mem_cons_self))
        have hadds : Adds True (s.setTodo L rest) ((s.setTodo L rest).run c op) :=
          run_adds _ c (Or.inl trivial)
        have hsettled := not_settled_of_run (s := s.setTodo L rest) hr hcloses
        simp only [runTask, Option.mem_def.mp hop]
        exact hsettled.imp_right fun hnot => ⟨hadds.alive.trans hdead, hnot⟩
  cases act with
  | destroyServer order =>
    obtain ⟨⟨hserver, _⟩, rfl⟩ := step_does hstep
    have hadds : Adds True { s with server := { s.server with
        alive := false, connections := fun _ => none } } (s.destroyServer order) :=
      destroyServer_adds s order
    refine Or.inr ⟨hadds.alive, fun hsettled => ?_⟩
    exact hnoise ((h.settled_iff hserver).mp ((settled_destroyServer order).mp hsettled))
  | task L readRes res =>
    simp only [NoCloseInFlight, Classical.not_imp, not_not] at hnoise
    exact hcalled rfl hnoise.1 hnoise.2
  | loopStep _ _ | handleEvent _ _ | callFunctor _ _ | userCall _ _ _ _ | userCopy _ _
  | userDrop _ | userQueue _ _ | quit _ | destroy _ => exact absurd (fun _ hcalls => hcalls) hnoise

/-- Such a call is a use after free. -/
theorem runsRemove_aborts (hdead : s.server.alive = false) (h : s.Wiring)
    (hruns : s.RunsRemove c act) (hstep : s.step act = some t) : t.aborted ≠ none := by
  have hnot : ¬ s.server.alive = true := by simp [hdead]
  cases act with
  | callFunctor L res =>
    obtain ⟨f, l, _, hhead, _, _, _, rfl⟩ := h.callFunctor_cases hstep
    obtain rfl : .removeConnectionInLoop c = f := Option.some.inj (hruns.symm.trans hhead)
    have hdead' : ¬ (s.setLoop L l).server.alive = true := hnot
    simp only [runFunctor, removeConnectionInLoop, if_neg hdead']
    exact Option.some_ne_none _
  | task L readRes res =>
    obtain ⟨task, rest, htodo, rfl⟩ := step_does hstep
    simp only [RunsRemove, htodo, List.head?_cons, Option.some.injEq] at hruns
    subst hruns
    have hdead' : ¬ (s.setTodo L rest).server.alive = true := hnot
    simp only [runTask, runEffect, removeConnection, if_neg hdead']
    exact Option.some_ne_none _
  | loopStep _ _ | handleEvent _ _ | userCall _ _ _ _ | userCopy _ _ | userDrop _ | userQueue _ _
  | quit _ | destroy _ | destroyServer _ => exact hruns.elim

/-- **A call into the destroyed server stays left to do**, until it aborts. -/
theorem Inv.stays_unsettled (h : s.Inv) (hdead : s.server.alive = false) (hleft : ¬ s.Settled)
    (hstep : s.step act = some t) :
    t.aborted ≠ none ∨ t.server.alive = false ∧ ¬ t.Settled := by
  by_cases hremove : ∃ c, s.RunsRemove c act
  · obtain ⟨c, hruns⟩ := hremove
    exact Or.inl (runsRemove_aborts hdead h.wiring hruns hstep)
  obtain ⟨u, htakes, hadds⟩ := step_adds h.wiring (Or.inl trivial) (Or.inl trivial) hstep
  have hact := not_destroyServer hdead hstep
  refine Or.inr ⟨?_, fun hsettled => hleft ⟨fun L c hin => ?_, fun L c hin => ?_⟩⟩
  · rcases htakes.alive with hsame | ⟨order, horder⟩
    · rw [hadds.alive, hsame, hdead]
    · exact absurd horder (hact order)
  · obtain ⟨functors, hwaiting, _⟩ := hadds.waiting L
    apply hsettled.waiting L c
    rw [hwaiting]
    apply List.mem_append_left
    rcases htakes.waiting L with hsame | ⟨res, f, rfl, hhead, hpop⟩
    · rw [hsame]
      exact hin
    · rw [hpop] at hin
      rcases List.mem_cons.mp hin with rfl | hrest
      · exact absurd ⟨c, hhead⟩ hremove
      · exact hrest
  · obtain ⟨tasks, htodo, _⟩ := hadds.todo L
    apply hsettled.todo L c
    rw [htodo]
    apply List.mem_append_right
    rcases htakes.todo L with hsame | ⟨readRes, res, task, rfl, hpop⟩
    · rw [hsame]
      exact hin
    · rw [hpop] at hin
      rcases List.mem_cons.mp hin with rfl | hrest
      · exact absurd ⟨c, congrArg List.head? hpop⟩ hremove
      · exact hrest

/-! ### `connectDestroyed` runs once -/

/-- The step calls `connectDestroyed` of the connection. -/
def CallsDestroyed (c : ConnId) (s : ServerSystem) : ServerAct → Prop
  | .callFunctor L _ => (s.loop L).functors.head? = some (.conn c .connectDestroyed)
  | .task L _ _ => (s.todo L).head? = some (.conn c .connectDestroyed)
  | _ => False

instance (c : ConnId) (s : ServerSystem) : (act : ServerAct) → Decidable (CallsDestroyed c s act)
  | .callFunctor _ _ | .task _ _ _ => inferInstanceAs (Decidable (_ = _))
  | .loopStep _ _ | .handleEvent _ _ | .userCall _ _ _ _ | .userCopy _ _ | .userDrop _
  | .userQueue _ _ | .quit _ | .destroy _ | .destroyServer _ => inferInstanceAs (Decidable False)

/-- `connectDestroyed` of the connection has been called. -/
def Begun (c : ConnId) (s : ServerSystem) : Prop :=
  (∃ r, s.conns c = some r ∧ .connectDestroyed ∈ r.steps)
    ∨ ∃ L, .conn c (.effect .removeChannel) ∈ s.todo L

theorem Begun.adds {removal : Prop} (h : Begun c s) (hadds : Adds removal s t) : Begun c t := by
  rcases h with ⟨r, hr, hin⟩ | ⟨L, hin⟩
  · obtain ⟨r', hr', hsteps⟩ := hadds.steps c r hr
    exact Or.inl ⟨r', hr', hsteps.subset hin⟩
  · obtain ⟨tasks, htodo, _⟩ := hadds.todo L
    exact Or.inr ⟨L, by rw [htodo]; exact List.mem_append_right _ hin⟩

/-- `channel_->remove()` ends it, or its `assert` fails. -/
theorem perform_removeChannel_begun (hr : s.conns c = some r) :
    (s.perform c .removeChannel).aborted ≠ none ∨ Begun c (s.perform c .removeChannel) := by
  simp only [perform, hr]
  split
  · exact Or.inr (Or.inl ⟨_, conns_setConn .., List.mem_append_right _ List.mem_cons_self⟩)
  · exact Or.inl (Option.some_ne_none _)

theorem runEffects_begun {effects : List Effect} (hin : .removeChannel ∈ effects) :
    ∀ {s : ServerSystem} {r : ConnRecord}, s.conns c = some r →
      (s.runEffects L c effects).aborted ≠ none ∨ Begun c (s.runEffects L c effects) := by
  induction effects with
  | nil => cases hin
  | cons e es ih =>
    intro s r hr
    unfold runEffects
    split
    · refine Or.inr (Or.inr ⟨L, ?_⟩)
      rw [pushTasks, todo_setTodo]
      exact List.mem_append_left _ (List.mem_map.mpr ⟨_, hin, rfl⟩)
    · have hperform : Adds True s (s.perform c e) := perform_adds s c e
      rcases List.mem_cons.mp hin with rfl | hrest
      · rcases perform_removeChannel_begun hr with haborted | hbegun
        · exact Or.inl ((runEffects_rest es c L _).2 haborted)
        · have hes : Adds True (s.perform c .removeChannel)
              ((s.perform c .removeChannel).runEffects L c es) := runEffects_adds (Or.inl trivial) _
          exact Or.inr (hbegun.adds hes)
      · obtain ⟨r', hr', _⟩ := hperform.steps c r hr
        exact ih hrest hr'

theorem run_connectDestroyed_begun (hr : s.conns c = some r) :
    (s.run c .connectDestroyed).aborted ≠ none ∨ Begun c (s.run c .connectDestroyed) := by
  have hin : .removeChannel ∈ (r.conn.exec .connectDestroyed).2 := by
    simp only [TcpConnection.exec, TcpConnection.connectDestroyed]
    split
    · simp
    · simp
  simp only [run, hr]
  split
  · exact runEffects_begun hin (conns_setConn ..)
  · exact Or.inl (Option.some_ne_none _)

/-- **Once called, called for ever.** -/
theorem Begun.step (h : Begun c s) (hinv : s.Inv) (hstep : s.step act = some t) :
    t.aborted ≠ none ∨ Begun c t := by
  by_cases hlast : ∃ L readRes res rest, act = .task L readRes res
      ∧ s.todo L = .conn c (.effect .removeChannel) :: rest
  · obtain ⟨L, readRes, res, rest, rfl, htodo⟩ := hlast
    have hhome := hinv.wiring.routing.tasks L c _ (htodo ▸ List.mem_cons_self)
    obtain ⟨r, hr, _⟩ := Option.map_eq_some_iff.mp hhome
    obtain ⟨_, _, htodo', rfl⟩ := step_does hstep
    obtain ⟨rfl, rfl⟩ := List.cons.inj (htodo.symm.trans htodo')
    exact perform_removeChannel_begun (s := s.setTodo L rest) hr
  · obtain ⟨u, htakes, hadds⟩ := step_adds hinv.wiring (Or.inl trivial) (Or.inl trivial) hstep
    refine Or.inr (Begun.adds (s := u) ?_ hadds)
    rcases h with ⟨r, hr, hin⟩ | ⟨L, hin⟩
    · exact Or.inl ⟨r, by rw [htakes.conns]; exact hr, hin⟩
    · refine Or.inr ⟨L, ?_⟩
      rcases htakes.todo L with hsame | ⟨readRes, res, task, hact, hpop⟩
      · rw [hsame]
        exact hin
      · rw [hpop] at hin
        rcases List.mem_cons.mp hin with rfl | hrest
        · exact absurd ⟨L, readRes, res, _, hact, hpop⟩ hlast
        · exact hrest

/-- While `connectDestroyed` is still to be called, no `channel_->remove()` is left to do. -/
theorem not_removing_of_life {v : ConnView} (h : v.Life) (hdue : .connectDestroyed ∈ v.tasks) :
    .effect .removeChannel ∉ v.tasks := by
  have hspent : ∀ {ts : List ConnTask}, Spent ts → .effect .removeChannel ∉ ts :=
    fun hspent hin => hspent.plain _ hin
  cases h with
  | queued h => simp [show v.tasks = [] from h.fresh.tasks]
  | announcing h => simp [h.tasks]
  | established h => exact fun hin => h.plain _ hin
  | downPending h =>
    have hrest := hspent h.spent
    simp [h.tasks, hrest]
  | closePending h =>
    have hrest := hspent h.spent
    rw [List.mem_append, not_or] at hrest
    simp [h.tasks, hrest.1, hrest.2]
  | removing h => exact hspent h.spent
  | destroying h => exact hspent h.spent
  | gone h => simp [h.tasks]
  | @dropPending after h =>
    have hafter : .connectDestroyed ∉ after := fun hin => (h.dropping.after _ hin).2 rfl
    simp [h.tasks, hafter] at hdue
  | @dropTold before after h =>
    have hafter : .connectDestroyed ∉ after := fun hin => (h.dropping.after _ hin).2 rfl
    have hbefore : .connectDestroyed ∉ before := fun hin => by cases h.before _ hin
    simp [h.tasks, hafter, hbefore] at hdue
  | stray h => exact absurd rfl (h.tasks _ hdue).1

/-- **A call of `connectDestroyed` is the first one**, and begins it. -/
theorem Inv.callsDestroyed (h : s.Inv) (hcalls : CallsDestroyed c s act)
    (hstep : s.step act = some t) : ¬ Begun c s ∧ (t.aborted ≠ none ∨ Begun c t) := by
  have hview : ∀ {r L}, s.conns c = some r → .conn c (.effect .removeChannel) ∈ s.todo L →
      .effect .removeChannel ∈ (s.view c r).tasks := by
    intro r L hr hin
    have hhome := h.wiring.routing.tasks L c _ hin
    rw [home_of hr, Option.some.injEq] at hhome
    subst hhome
    exact List.mem_filterMap.mpr ⟨_, hin, Task.of_self c _⟩
  have hnot : ∀ {r}, s.conns c = some r → .connectDestroyed ∉ (s.view c r).steps →
      .effect .removeChannel ∉ (s.view c r).tasks → ¬ Begun c s := by
    rintro r hr hsteps htasks (⟨q, hq, hin⟩ | ⟨L, hin⟩)
    · rw [hr] at hq
      cases hq
      exact hsteps hin
    · exact htasks (hview hr hin)
  cases act with
  | callFunctor L res =>
    obtain ⟨f, l, htodo, hhead, hwf, hwaiting, hactive, rfl⟩ := h.wiring.callFunctor_cases hstep
    obtain rfl : .conn c .connectDestroyed = f := Option.some.inj (hcalls.symm.trans hhead)
    obtain ⟨r, hr, htasks, hqueue, _⟩ := h.wiring.callConn_follows htodo hwf hwaiting hactive res
    refine ⟨hnot hr ((h.life c r hr).callDestroyed hqueue htasks).1 (by simp [htasks]), ?_⟩
    exact run_connectDestroyed_begun (s := s.setLoop L l) hr
  | task L readRes res =>
    obtain ⟨task, rest, htodo, rfl⟩ := step_does hstep
    simp only [CallsDestroyed, htodo, List.head?_cons, Option.some.injEq] at hcalls
    subst hcalls
    obtain ⟨r, hr, htasks, _⟩ := h.task_follows htodo readRes res
    have hlife := h.life c r hr
    refine ⟨hnot hr (hlife.runDestroyed htasks).1 (not_removing_of_life hlife ?_), ?_⟩
    · rw [htasks]
      exact List.mem_cons_self
    · exact run_connectDestroyed_begun (s := s.setTodo L rest) hr
  | loopStep _ _ | handleEvent _ _ | userCall _ _ _ _ | userCopy _ _ | userDrop _ | userQueue _ _
  | quit _ | destroy _ | destroyServer _ => exact hcalls.elim

/-! ### Runs -/

section Run

variable {name : Name} {listenAddr : InetAddress} {writeCompleteCallback : Bool}
  {loops : List LoopId} {acts : List ServerAct}

theorem calls_destroyed_once (h : s.Inv) (c : ConnId) :
    Runs.count ServerSystem.step (CallsDestroyed c) s acts ≤ 1 := by
  refine Runs.count_le_one (I := fun u => u.aborted = none → u.Inv)
    (J := fun u => u.aborted ≠ none ∨ Begun c u) ?_ ?_ ?_ ?_ (fun _ => h)
  · intro u act w hu hstep
    exact ((hu (running_of_step hstep)).sound hstep).inv
  · intro u act w hu hcalls hstep
    exact ((hu (running_of_step hstep)).callsDestroyed hcalls hstep).2
  · intro u act w hu hbegun hstep
    have hbegun' := hbegun.resolve_left fun hne => hne (running_of_step hstep)
    exact hbegun'.step (hu (running_of_step hstep)) hstep
  · intro u act w hu hbegun hstep hcalls
    have hbegun' := hbegun.resolve_left fun hne => hne (running_of_step hstep)
    exact ((hu (running_of_step hstep)).callsDestroyed hcalls hstep).1 hbegun'

/-- A quiet run leaves the destroyed server settled, any other one does not. -/
theorem settled_dichotomy
    (hrun : Runs.run step (start (.new name listenAddr writeCompleteCallback loops)) acts
      = some s) :
    Runs.Along step NoCloseInFlight (start (.new name listenAddr writeCompleteCallback loops)) acts
        ∧ (s.aborted = none → s.Inv ∧ (s.server.alive = false → s.Settled))
      ∨ ¬ Runs.Along step NoCloseInFlight (start (.new name listenAddr writeCompleteCallback loops))
          acts
        ∧ (s.aborted = none → s.Inv ∧ s.server.alive = false ∧ ¬ s.Settled) := by
  refine Runs.run_dichotomy
    (I := fun u => u.aborted = none → u.Inv ∧ (u.server.alive = false → u.Settled))
    (J := fun u => u.aborted = none → u.Inv ∧ u.server.alive = false ∧ ¬ u.Settled)
    ?_ ?_ ?_ (fun _ => ⟨.initial, fun hdead => by cases hdead⟩) hrun
  · intro u act w hu hquiet hstep hw
    obtain ⟨hinv, hsettled⟩ := hu (running_of_step hstep)
    refine ⟨(hinv.sound hstep).inv hw, fun hdead => ?_⟩
    by_cases halive : u.server.alive = true
    · -- only `~TcpServer` ends the life of the server
      obtain ⟨v, htakes, hadds⟩ :=
        step_adds hinv.wiring (Or.inl trivial) (Or.inl trivial) hstep
      rcases htakes.alive with hsame | ⟨order, rfl⟩
      · rw [hadds.alive, hsame, halive] at hdead
        cases hdead
      · obtain ⟨_, rfl⟩ := step_does hstep
        exact (settled_destroyServer order).mpr ((hinv.settled_iff halive).mpr hquiet)
    · have hdead' := eq_false_of_ne_true halive
      exact ((hsettled hdead').step hinv.wiring hdead' hquiet hstep).1
  · intro u act w hu hnoise hstep hw
    obtain ⟨hinv, _⟩ := hu (running_of_step hstep)
    refine ⟨(hinv.sound hstep).inv hw, ?_⟩
    exact (hinv.not_settled hnoise hstep).resolve_left fun hne => hne hw
  · intro u act w hu hstep hw
    obtain ⟨hinv, hdead, hleft⟩ := hu (running_of_step hstep)
    refine ⟨(hinv.sound hstep).inv hw, ?_⟩
    exact (hinv.stays_unsettled hdead hleft hstep).resolve_left fun hne => hne hw

/-- **No call into the destroyed server is left to do if and only if the run was quiet.**
    (What is left to a loop that has returned is never done.) -/
theorem settled_iff_quiet
    (hrun : Runs.run step (start (.new name listenAddr writeCompleteCallback loops)) acts = some s)
    (hrunning : s.aborted = none) :
    (s.server.alive = false → s.Settled) ↔ Runs.Along step NoCloseInFlight
      (start (.new name listenAddr writeCompleteCallback loops)) acts := by
  rcases settled_dichotomy hrun with ⟨hquiet, hsettled⟩ | ⟨hnoise, hleft⟩
  · exact iff_of_true (hsettled hrunning).2 hquiet
  · obtain ⟨_, hdead, hnot⟩ := hleft hrunning
    exact iff_of_false (fun hsettled => hnot (hsettled hdead)) hnoise

/-- **`~TcpServer` is safe in a quiet run**: `connectDestroyed` of a connection is called
    at most once and meets no `assert`, and no step runs a removal of the destroyed server. -/
theorem destroyed_server_unused
    (hrun : Runs.run step (start (.new name listenAddr writeCompleteCallback loops)) acts = some s)
    (hquiet : Runs.Along step NoCloseInFlight
      (start (.new name listenAddr writeCompleteCallback loops)) acts) :
    (∀ c, Runs.count step (CallsDestroyed c)
        (start (.new name listenAddr writeCompleteCallback loops)) acts ≤ 1)
      ∧ (∀ c act t, s.RunsDestroyed c act → s.step act = some t → t.aborted = none)
      ∧ (s.server.alive = false → ∀ c act t, s.step act = some t → ¬ s.RunsRemove c act) := by
  have hsettled := (settled_dichotomy hrun).resolve_right fun hnoise => hnoise.1 hquiet
  refine ⟨calls_destroyed_once .initial, fun c act t hruns hstep => ?_,
    fun hdead c act t hstep => ?_⟩
  · have hinv := (hsettled.2 (running_of_step hstep)).1
    obtain ⟨r, hdestroyed⟩ := hinv.runsDestroyed hruns hstep
    exact hdestroyed.aborted.trans (running_of_step hstep)
  · exact ((hsettled.2 (running_of_step hstep)).2 hdead).not_runsRemove c

end Run

/-- The server goes while its only connection is up, and the loops go on. -/
theorem destroyed_server_unused_connectedUntilDestroyed :
    ∃ s, Runs.run step (start (.new ['s'] ⟨(127, 0, 0, 1), 80⟩ true [1])) connectedUntilDestroyed
        = some s
      ∧ s.server.alive = false
      ∧ (∀ c, Runs.count step (CallsDestroyed c)
          (start (.new ['s'] ⟨(127, 0, 0, 1), 80⟩ true [1])) connectedUntilDestroyed ≤ 1)
      ∧ (∀ c act t, s.RunsDestroyed c act → s.step act = some t → t.aborted = none)
      ∧ ∀ c act t, s.step act = some t → ¬ s.RunsRemove c act := by
  obtain ⟨s, hrun, hdead⟩ : ∃ s, Runs.run step (start (.new ['s'] ⟨(127, 0, 0, 1), 80⟩ true [1]))
      connectedUntilDestroyed = some s ∧ s.server.alive = false := ⟨_, rfl, rfl⟩
  obtain ⟨honce, hmeets, hunused⟩ := destroyed_server_unused hrun (by decide +kernel)
  exact ⟨s, hrun, hdead, honce, hmeets, hunused hdead⟩

/-- The peer closes, and the user destroys the server in a functor on the main loop before
    `removeConnectionInLoop` has its turn there. -/
def closedUntilDestroyed : List ServerAct :=
  [.loopStep 0 .enter, .loopStep 0 .resetQuit, .loopStep 1 .enter, .loopStep 1 .resetQuit,
    .loopStep 0 .test, .loopStep 0 (.poll [.channel .acceptor]), .handleEvent 0 (some 5),
    .loopStep 0 .beginPending, .loopStep 0 .swap, .loopStep 0 .endPending,
    -- `connectEstablished`
    .loopStep 1 .test, .loopStep 1 (.poll [.wakeupChannel]), .handleEvent 1 none,
    .loopStep 1 .beginPending, .loopStep 1 .swap, .callFunctor 1 (.ok 0),
    .task 1 (.ok []) (.ok 0), .task 1 (.ok []) (.ok 0), .loopStep 1 .endPending,
    .userQueue 0 false,
    -- a read of 0 bytes, `handleClose` and `removeConnection`
    .loopStep 1 .test, .loopStep 1 (.poll [.channel (.conn 0 { epollIn := true })]),
    .handleEvent 1 none, .task 1 (.ok []) (.ok 0), .task 1 (.ok []) (.ok 0),
    .task 1 (.ok []) (.ok 0), .task 1 (.ok []) (.ok 0),
    -- the functor of the user
    .loopStep 0 .test, .loopStep 0 (.poll [.wakeupChannel]), .handleEvent 0 none,
    .loopStep 0 .beginPending, .loopStep 0 .swap, .callFunctor 0 (.ok 0), .destroyServer [0],
    .task 0 (.ok []) (.ok 0)]

/-- The main loop goes on with `removeConnectionInLoop` of the destroyed server. -/
theorem closedUntilDestroyed_runsRemove :
    ∃ s t, Runs.run step (start (.new ['s'] ⟨(127, 0, 0, 1), 80⟩ true [1])) closedUntilDestroyed
        = some s
      ∧ s.server.alive = false ∧ s.step (.callFunctor 0 (.ok 0)) = some t
      ∧ s.RunsRemove 0 (.callFunctor 0 (.ok 0)) ∧ t.aborted = some .useAfterFree :=
  ⟨_, _, rfl, rfl, rfl, rfl, rfl⟩

end ServerSystem

end Ymuduo
