/-
  Ymuduo/ServerView.lean
  ======================
  **The system as its connections see it.**

  `viewOf` projects a `ServerSystem` onto one connection.  A function of a connection
  does to its own view what `ConnView` says, leaves the views of all others as they are
  (`Acts`), and keeps the wiring of the system: `run_follows` and `runTask_follows`.
-/
import Ymuduo.ConnView
import Ymuduo.Wiring

namespace Ymuduo

/-- The functor, if it is one of the connection. -/
def Functor.of (c : ConnId) : Functor → Option ConnFunctor
  | .conn d f => if d = c then some f else none
  | .removeConnectionInLoop _ | .user => none

/-- What was reported of the connection. -/
def ActiveChannel.of (c : ConnId) : ActiveChannel Source → Option EpollEvents
  | .channel (.conn d revents) => if d = c then some revents else none
  | .channel .acceptor | .wakeupChannel => none

@[simp] theorem Functor.of_self (c : ConnId) (f : ConnFunctor) : (Functor.conn c f).of c = some f :=
  if_pos rfl

theorem Functor.of_ne {c d : ConnId} (hne : d ≠ c) (f : ConnFunctor) :
    (Functor.conn c f).of d = none :=
  if_neg hne.symm

@[simp] theorem Task.of_self (c : ConnId) (t : ConnTask) : (Task.conn c t).of c = some t :=
  if_pos rfl

theorem Task.of_ne {c d : ConnId} (hne : d ≠ c) (t : ConnTask) : (Task.conn c t).of d = none :=
  if_neg hne.symm

namespace ServerSystem

def view (s : ServerSystem) (c : ConnId) (r : ConnRecord) : ConnView where
  toConnRecord := r
  server := s.server.alive
  queue := (s.loop r.conn.loop).waiting.filterMap (Functor.of c)
  removes := (s.loop mainLoop).waiting.count (.removeConnectionInLoop c)
  tasks := (s.todo r.conn.loop).filterMap (Task.of c)
  active := (s.loop r.conn.loop).activeChannels.filterMap (ActiveChannel.of c)
  copies := s.copies c

def viewOf (s : ServerSystem) (c : ConnId) : Option ConnView := (s.conns c).map (s.view c)

theorem viewOf_of {s : ServerSystem} {c : ConnId} {r : ConnRecord} (hr : s.conns c = some r) :
    s.viewOf c = some (s.view c r) := by
  rw [viewOf, hr, Option.map_some]

theorem of_viewOf {s : ServerSystem} {c : ConnId} {v : ConnView} (hv : s.viewOf c = some v) :
    ∃ r, s.conns c = some r ∧ v = s.view c r := by
  obtain ⟨r, hr, rfl⟩ := Option.map_eq_some_iff.mp hv
  exact ⟨r, hr, rfl⟩

/-- Another record of the same connection. -/
theorem view_record (s : ServerSystem) (c : ConnId) {r r' : ConnRecord}
    (hloop : r'.conn.loop = r.conn.loop) :
    s.view c r' = { s.view c r with toConnRecord := r' } := by
  rw [view, hloop]
  rfl

/-! ### Primitive updates -/

variable {s t : ServerSystem} {c d : ConnId} {r r' : ConnRecord} {v v' : ConnView} {L : LoopId}

theorem viewOf_setConn (s : ServerSystem) (c : ConnId) (r : ConnRecord) :
    (s.setConn c r).viewOf c = some (s.view c r) :=
  viewOf_of (s.conns_setConn c r)

theorem viewOf_setConn_ne (s : ServerSystem) (r : ConnRecord) (hne : d ≠ c) :
    (s.setConn c r).viewOf d = s.viewOf d := by
  rw [viewOf, s.conns_setConn_ne r hne]
  rfl

theorem waiting_queueInLoop (s : ServerSystem) (isInLoopThread : Bool) (L : LoopId) (f : Functor)
    (M : LoopId) : ((s.queueInLoop isInLoopThread L f).loop M).waiting
      = (s.loop M).waiting ++ if M = L then [f] else [] := by
  by_cases hM : M = L
  · subst hM
    simp [queueInLoop, setLoop]
  · simp [queueInLoop, setLoop, hM]

theorem active_queueInLoop (s : ServerSystem) (isInLoopThread : Bool) (L : LoopId) (f : Functor)
    (M : LoopId) : ((s.queueInLoop isInLoopThread L f).loop M).activeChannels
      = (s.loop M).activeChannels := by
  by_cases hM : M = L
  · subst hM
    rw [queueInLoop, loop_setLoop, EventLoop.queueInLoop_activeChannels]
  · simp [queueInLoop, setLoop, hM]

/-- A functor of a connection joins the queue. -/
theorem view_queueInLoop (s : ServerSystem) (isInLoopThread : Bool) (L : LoopId)
    (f : ConnFunctor) (d : ConnId) (q : ConnRecord) :
    (s.queueInLoop isInLoopThread L (.conn c f)).view d q = { s.view d q with
      queue := (s.view d q).queue
        ++ if q.conn.loop = L ∧ d = c then [f] else [] } := by
  simp only [view, waiting_queueInLoop, active_queueInLoop]
  refine congr (congr (congr (congr (congrArg _ ?_) ?_) rfl) rfl) rfl
  · by_cases hloop : q.conn.loop = L
    · by_cases hd : d = c
      · subst hd
        simp [hloop]
      · simp [hloop, hd, Functor.of_ne hd]
    · simp [hloop]
  · by_cases hmain : mainLoop = L
    · simp [hmain]
    · simp [hmain]

/-- `removeConnectionInLoop` joins the queue of the main loop. -/
theorem view_queueRemove (s : ServerSystem) (isInLoopThread : Bool) (d : ConnId) (q : ConnRecord) :
    (s.queueInLoop isInLoopThread mainLoop (.removeConnectionInLoop c)).view d q = { s.view d q with
      removes := (s.view d q).removes + if d = c then 1 else 0 } := by
  simp only [view, waiting_queueInLoop, active_queueInLoop]
  refine congr (congr (congr (congr (congrArg _ ?_) ?_) rfl) rfl) rfl
  · by_cases hloop : q.conn.loop = mainLoop
    · simp [hloop, Functor.of]
    · simp [hloop]
  · by_cases hd : d = c
    · subst hd
      simp
    · simp [hd, Ne.symm hd]

/-- Tasks of a connection come before all others. -/
theorem view_pushTasks (s : ServerSystem) (L : LoopId) (ts : List ConnTask) (d : ConnId)
    (q : ConnRecord) : (s.pushTasks L (ts.map (.conn c))).view d q = { s.view d q with
      tasks := (if q.conn.loop = L ∧ d = c then ts else []) ++ (s.view d q).tasks } := by
  have hown : (ts.map (Task.conn c)).filterMap (Task.of c) = ts := by
    rw [List.filterMap_map]
    exact (List.filterMap_congr fun t _ => Task.of_self c t).trans (List.filterMap_some)
  have hother : d ≠ c → (ts.map (Task.conn c)).filterMap (Task.of d) = [] := by
    intro hne
    rw [List.filterMap_eq_nil_iff]
    intro t ht
    obtain ⟨u, _, rfl⟩ := List.mem_map.mp ht
    exact Task.of_ne hne u
  simp only [view, pushTasks, setTodo]
  refine congr (congr (congrArg _ ?_) rfl) rfl
  by_cases hloop : q.conn.loop = L
  · by_cases hd : d = c
    · subst hd
      simp [hloop, hown]
    · simp [hloop, hd, hother hd]
  · simp [hloop]

/-! ### The wiring -/

theorem place_setConn (hr : s.conns c = some r) (hplace : r'.place = r.place) :
    (s.setConn c r').place = s.place := by
  funext d
  by_cases hd : d = c
  · subst hd
    rw [place, place, conns_setConn, hr, Option.map_some, Option.map_some, hplace]
  · rw [place, place, s.conns_setConn_ne r' hd]

theorem home_setConn (hr : s.conns c = some r) (hloop : r'.conn.loop = r.conn.loop) :
    (s.setConn c r').home = s.home := by
  funext d
  by_cases hd : d = c
  · subst hd
    rw [home, home, conns_setConn, hr, Option.map_some, Option.map_some, hloop]
  · rw [home, home, s.conns_setConn_ne r' hd]

theorem home_of (hr : s.conns c = some r) : s.home c = some r.conn.loop := by
  rw [home, hr, Option.map_some]

/-- A connection changes, and the poller at its descriptor. -/
theorem Wiring.write (h : s.Wiring) (hr : s.conns c = some r) (hfile : r.SameFile r')
    (hplace : r'.place = r.place) {p : EPollPoller ConnId}
    (hreg : r.alive = true → p.Registered c r'.conn.channel)
    (hother : ∀ fd, fd ≠ r.conn.channel.fd ∨ r.alive = false →
      (s.poller r.conn.loop).SameAt p fd) :
    ((s.setPoller r.conn.loop p).setConn c r').Wiring := by
  have hplaces : ((s.setPoller r.conn.loop p).setConn c r').place = s.place :=
    place_setConn (s := s.setPoller r.conn.loop p) hr hplace
  have hhome : ((s.setPoller r.conn.loop p).setConn c r').home = s.home :=
    home_setConn (s := s.setPoller r.conn.loop p) hr hfile.loop
  constructor
  · exact h.loops
  · rw [hplaces]
    exact h.roster
  · exact h.pollers.set hr hfile hreg hother
  · rw [hhome]
    exact h.routing
  · exact h.heads

theorem Wiring.queueInLoop (h : s.Wiring) (isInLoopThread : Bool) {f : Functor}
    (hf : f.RoutedTo s.home L) : (s.queueInLoop isInLoopThread L f).Wiring := by
  constructor
  · intro M
    by_cases hM : M = L
    · subst hM
      rw [ServerSystem.queueInLoop, loop_setLoop]
      exact ((h.loops M).pushBack f).wakeupIfNeeded isInLoopThread
    · rw [ServerSystem.queueInLoop, loop_setLoop_ne _ _ hM]
      exact h.loops M
  · exact h.roster
  · exact h.pollers
  · refine { h.routing with functors := ?_, active := ?_ }
    · intro M g hg
      rw [waiting_queueInLoop] at hg
      rcases List.mem_append.mp hg with hold | hnew
      · exact h.routing.functors M g hold
      · split at hnew
        · rename_i hM
          rw [List.mem_singleton.mp hnew, hM]
          exact hf
        · cases hnew
    · intro M a hactive
      rw [active_queueInLoop] at hactive
      exact h.routing.active M a hactive
  · exact h.heads

theorem Wiring.pushTasks (h : s.Wiring) {tasks : List Task}
    (htasks : ∀ c t, .conn c t ∈ tasks → s.home c = some L)
    (hclear : Clear (tasks ++ s.todo L).tail) : (s.pushTasks L tasks).Wiring := by
  refine ⟨h.loops, h.roster, h.pollers, { h.routing with tasks := ?_ }, ?_⟩
  · intro M d t ht
    by_cases hM : M = L
    · subst hM
      rw [ServerSystem.pushTasks, todo_setTodo] at ht
      rcases List.mem_append.mp ht with hnew | hold
      · exact htasks d t hnew
      · exact h.routing.tasks M d t hold
    · rw [ServerSystem.pushTasks, todo_setTodo_ne _ _ hM] at ht
      exact h.routing.tasks M d t ht
  · intro M
    by_cases hM : M = L
    · subst hM
      rw [ServerSystem.pushTasks, todo_setTodo]
      exact hclear
    · rw [ServerSystem.pushTasks, todo_setTodo_ne _ _ hM]
      exact h.heads M

/-! ### The functions of a connection -/

/-- From `s` to `t` only the connection `c` has moved, and it looks like `v` now. -/
structure Acts (c : ConnId) (s t : ServerSystem) (v : ConnView) : Prop where
  wiring : t.Wiring
  view : t.viewOf c = some v
  others : ∀ d, d ≠ c → t.viewOf d = s.viewOf d
  alive : t.server.alive = s.server.alive
  accepted : t.accepted = s.accepted
  aborted : t.aborted = s.aborted

theorem Acts.trans {u : ServerSystem} (h : Acts c s t v) (h' : Acts c t u v') : Acts c s u v' where
  wiring := h'.wiring
  view := h'.view
  others := fun d hd => (h'.others d hd).trans (h.others d hd)
  alive := h'.alive.trans h.alive
  accepted := h'.accepted.trans h.accepted
  aborted := h'.aborted.trans h.aborted

/-- Where the view fails, the system aborts. -/
def Follows (c : ConnId) (s t : ServerSystem) : Option ConnView → Prop
  | some v => Acts c s t v
  | none => t.aborted ≠ none ∧ t.server.alive = s.server.alive

theorem follows_abort (s : ServerSystem) (c : ConnId) (fault : Fault) :
    Follows c s (s.abort fault) none :=
  ⟨by simp [abort], rfl⟩

theorem Acts.write (h : s.Wiring) (hr : s.conns c = some r) (hfile : r.SameFile r')
    (hplace : r'.place = r.place) {p : EPollPoller ConnId}
    (hreg : r.alive = true → p.Registered c r'.conn.channel)
    (hother : ∀ fd, fd ≠ r.conn.channel.fd ∨ r.alive = false →
      (s.poller r.conn.loop).SameAt p fd) :
    Acts c s ((s.setPoller r.conn.loop p).setConn c r') (s.view c r') where
  wiring := h.write hr hfile hplace hreg hother
  view := viewOf_setConn ..
  others := fun _ hd => viewOf_setConn_ne _ _ hd
  alive := rfl
  accepted := rfl
  aborted := rfl

/-- Only the record changes, and the poller need not know. -/
theorem Acts.setConn (h : s.Wiring) (hr : s.conns c = some r) (hfile : r.SameFile r')
    (hplace : r'.place = r.place) (hindex : r'.conn.channel.index = r.conn.channel.index) :
    Acts c s (s.setConn c r') (s.view c r') := by
  have hwrite := Acts.write h hr hfile hplace
    (fun halive => (h.pollers.registered c r hr halive).congr hindex hfile.fd)
    fun _ _ => ⟨rfl, rfl⟩
  rwa [setPoller, Function.update_eq_self] at hwrite

/-- The views of a system with the same connections. -/
theorem viewOf_congr (hconns : t.conns d = s.conns d)
    (hview : ∀ q, s.conns d = some q → t.view d q = s.view d q) : t.viewOf d = s.viewOf d := by
  rw [viewOf, viewOf, hconns]
  cases hq : s.conns d with
  | none => rfl
  | some q => rw [Option.map_some, Option.map_some, hview q hq]

theorem Acts.queueInLoop (h : s.Wiring) (hr : s.conns c = some r) (isInLoopThread : Bool)
    (f : ConnFunctor) : Acts c s (s.queueInLoop isInLoopThread r.conn.loop (.conn c f))
      { s.view c r with queue := (s.view c r).queue ++ [f] } where
  wiring := h.queueInLoop isInLoopThread (home_of hr)
  view := by
    rw [viewOf_of (show (s.queueInLoop _ _ _).conns c = some r from hr), view_queueInLoop]
    simp
  others := by
    intro d hd
    refine viewOf_congr rfl fun q _ => ?_
    rw [view_queueInLoop]
    simp [hd]
  alive := rfl
  accepted := rfl
  aborted := rfl

theorem Acts.pushTasks (h : s.Wiring) (hr : s.conns c = some r) (ts : List ConnTask)
    (hclear : Clear (ts.map (Task.conn c) ++ s.todo r.conn.loop).tail) :
    Acts c s (s.pushTasks r.conn.loop (ts.map (.conn c)))
      { s.view c r with tasks := ts ++ (s.view c r).tasks } where
  wiring := by
    refine h.pushTasks (fun d t ht => ?_) hclear
    obtain ⟨u, _, hu⟩ := List.mem_map.mp ht
    cases hu
    exact home_of hr
  view := by
    rw [viewOf_of (show (s.pushTasks _ _).conns c = some r from hr), view_pushTasks]
    simp
  others := by
    intro d hd
    refine viewOf_congr rfl fun q _ => ?_
    rw [view_pushTasks]
    simp [hd]
  alive := rfl
  accepted := rfl
  aborted := rfl

theorem Acts.refl (h : s.Wiring) (hr : s.conns c = some r) : Acts c s s (s.view c r) :=
  ⟨h, viewOf_of hr, fun _ _ => rfl, rfl, rfl, rfl⟩

theorem Acts.follows {u : ServerSystem} {result : Option ConnView} (h : Acts c s t v)
    (h' : Follows c t u result) : Follows c s u result := by
  cases result with
  | some w => exact h.trans h'
  | none => exact ⟨h'.1, h'.2.trans h.alive⟩

theorem perform_follows (h : s.Wiring) (hr : s.conns c = some r) (halive : r.alive = true)
    (e : Effect) : Follows c s (s.perform c e) ((s.view c r).perform e) := by
  have hreg := h.pollers.registered c r hr halive
  cases e with
  | write _ | shutdownWrite | connectionCallback | messageCallback | closeCallback =>
    simp only [perform, hr]
    exact .refl h hr
  | updateChannel =>
    obtain ⟨p, hp, hreg', hother⟩ := EPollPoller.updateChannel_registered hreg
    have hfile : r.SameFile (r.setChannel r.conn.channel.updated) := ⟨rfl, rfl, rfl⟩
    simp only [perform, hr, hp]
    exact Acts.write h hr hfile rfl (fun _ => hreg') fun fd hfd =>
      hother fd (hfd.resolve_right (by simp [halive]))
  | removeChannel =>
    by_cases hindex : r.conn.channel.index = .kNew
    · have hfail : (s.poller r.conn.loop).removeChannel c r.conn.channel
          = .error .removeChannelAssert := by
        simp [EPollPoller.removeChannel, hindex]
      have hview : (s.view c r).perform .removeChannel = none := if_pos hindex
      simp only [perform, hr, hfail, hview]
      exact follows_abort s c _
    · obtain ⟨p, hp, hreg', hother⟩ := EPollPoller.removeChannel_registered hreg hindex
      have hview : (s.view c r).perform .removeChannel = some (s.view c
          ((r.setChannel r.conn.channel.removed).addStep .connectDestroyed)) := if_neg hindex
      have hfile : r.SameFile ((r.setChannel r.conn.channel.removed).addStep .connectDestroyed) :=
        ⟨rfl, rfl, rfl⟩
      simp only [perform, hr, hp, hview]
      refine Acts.write h hr hfile ?_ (fun _ => hreg') fun fd hfd =>
        hother fd (hfd.resolve_right (by simp [halive]))
      simp [ConnRecord.place, ConnRecord.setChannel, ConnRecord.addStep]
  | queueInLoop f =>
    simp only [perform, hr]
    exact .queueInLoop h hr true f
  | assertion fault holds =>
    cases holds with
    | true =>
      simp only [perform, hr, if_true]
      exact .refl h hr
    | false =>
      simp only [perform, hr, ConnView.perform, Bool.false_eq_true, if_false]
      exact follows_abort s c _

/-- The effects of a connection leave the tasks and the server alone, and an abort is
    final. -/
theorem perform_rest (s : ServerSystem) (c : ConnId) (e : Effect) :
    (s.perform c e).todo = s.todo ∧ (s.perform c e).server = s.server
      ∧ (s.aborted ≠ none → (s.perform c e).aborted ≠ none) := by
  have habort : ∀ fault, (s.abort fault).aborted ≠ none := by simp [abort]
  unfold perform
  split
  · exact ⟨rfl, rfl, id⟩
  · split
    · split
      · exact ⟨rfl, rfl, id⟩
      · exact ⟨rfl, rfl, fun _ => habort _⟩
    · split
      · exact ⟨rfl, rfl, id⟩
      · exact ⟨rfl, rfl, fun _ => habort _⟩
    · exact ⟨rfl, rfl, id⟩
    · split
      · exact ⟨rfl, rfl, id⟩
      · exact ⟨rfl, rfl, fun _ => habort _⟩
    all_goals exact ⟨rfl, rfl, id⟩

theorem runEffects_rest (effects : List Effect) (c : ConnId) (L : LoopId) :
    ∀ s : ServerSystem, (s.runEffects L c effects).server = s.server
      ∧ (s.aborted ≠ none → (s.runEffects L c effects).aborted ≠ none) := by
  induction effects with
  | nil =>
    intro s
    exact ⟨rfl, id⟩
  | cons e es ih =>
    intro s
    unfold runEffects
    split
    · exact ⟨rfl, id⟩
    · obtain ⟨_, hserver, haborted⟩ := perform_rest s c e
      obtain ⟨hserver', haborted'⟩ := ih (s.perform c e)
      exact ⟨hserver'.trans hserver, fun h => haborted' (haborted h)⟩

theorem ConnView_perform_same {v v' : ConnView} {e : Effect} (h : v.perform e = some v') :
    v'.conn.loop = v.conn.loop ∧ v'.alive = v.alive := by
  cases e with
  | removeChannel | assertion _ _ =>
    simp only [ConnView.perform] at h
    split at h
    · cases h <;> exact ⟨rfl, rfl⟩
    · cases h <;> exact ⟨rfl, rfl⟩
  | updateChannel | queueInLoop _ | write _ | shutdownWrite | connectionCallback
  | messageCallback | closeCallback =>
    cases h
    exact ⟨rfl, rfl⟩

/-- Behind the first callback no `connectionCallback_` follows. -/
def TellsFirst : List Effect → Prop
  | [] => True
  | e :: es => if isCallback e then .connectionCallback ∉ es else TellsFirst es

theorem tellsFirst_quiet {effects : List Effect} (h : ∀ e ∈ effects, e.IsQuiet) :
    TellsFirst effects := by
  induction effects with
  | nil => trivial
  | cons e es ih =>
    have he := h e List.mem_cons_self
    have hes := ih fun e he => h e (List.mem_cons_of_mem _ he)
    cases e with
    | write _ | shutdownWrite | updateChannel | queueInLoop _ => exact hes
    | removeChannel | connectionCallback | messageCallback | closeCallback | assertion _ _ =>
      exact he.elim

theorem tellsFirst_exec (conn : TcpConnection) (op : ConnOp) : TellsFirst (conn.exec op).2 := by
  cases op with
  | sendInLoop message res => exact tellsFirst_quiet (conn.sendInLoop_quiet id message res).effects
  | handleWrite res => exact tellsFirst_quiet (conn.handleWrite_quiet res).effects
  | shutdownInLoop => exact tellsFirst_quiet conn.shutdownInLoop_quiet
  | connectEstablished =>
    simp [TcpConnection.exec, TcpConnection.connectEstablished, TellsFirst, isCallback]
  | handleClose => simp [TcpConnection.exec, TcpConnection.handleClose, TellsFirst, isCallback]
  | handleRead res =>
    simp only [TcpConnection.exec, TcpConnection.handleRead]
    split
    · split
      · simp [TellsFirst, isCallback]
      · simp [TcpConnection.handleClose, TellsFirst, isCallback]
    · trivial
  | shutdown => trivial
  | connectDestroyed =>
    simp only [TcpConnection.exec, TcpConnection.connectDestroyed]
    split <;> simp [TellsFirst, isCallback]

theorem runEffects_follows {effects : List Effect} : ∀ {s : ServerSystem} {r : ConnRecord},
    s.Wiring → s.conns c = some r → r.alive = true → Clear (s.todo r.conn.loop) →
      TellsFirst effects →
      Follows c s (s.runEffects r.conn.loop c effects) ((s.view c r).runEffects effects) := by
  induction effects with
  | nil =>
    intro s r h hr _ _ _
    exact Acts.refl h hr
  | cons e es ih =>
    intro s r h hr halive hclear htells
    by_cases hcallback : isCallback e = true
    · simp only [TellsFirst, hcallback, if_true] at htells
      simp only [runEffects, ConnView.runEffects, hcallback, if_true]
      have hpushed := Acts.pushTasks h hr ((e :: es).map .effect) (by
        intro d hin
        rw [List.map_cons, List.map_cons, List.cons_append, List.tail_cons] at hin
        rcases List.mem_append.mp hin with hnew | hold
        · simp only [List.map_map, List.mem_map, Function.comp_apply, Task.conn.injEq,
            ConnTask.effect.injEq] at hnew
          obtain ⟨e', he', _, rfl⟩ := hnew
          exact htells he'
        · exact hclear d hold)
      rw [List.map_map] at hpushed
      exact hpushed
    · simp only [TellsFirst, hcallback] at htells
      simp only [runEffects, ConnView.runEffects, hcallback]
      have hfirst := perform_follows h hr halive e
      cases hresult : (s.view c r).perform e with
      | none =>
        rw [hresult] at hfirst
        obtain ⟨hserver, haborted⟩ := runEffects_rest es c r.conn.loop (s.perform c e)
        exact ⟨haborted hfirst.1, (congrArg _ hserver).trans hfirst.2⟩
      | some w =>
        rw [hresult] at hfirst
        obtain ⟨q, hq, rfl⟩ := of_viewOf hfirst.view
        obtain ⟨hloop, hlive⟩ := ConnView_perform_same hresult
        have hrest := ih hfirst.wiring hq (hlive.trans halive)
          (by
            rw [(perform_rest s c e).1, show q.conn.loop = r.conn.loop from hloop]
            exact hclear)
          htells
        rw [show q.conn.loop = r.conn.loop from hloop] at hrest
        exact hfirst.follows hrest

theorem exec_same (conn : TcpConnection) (op : ConnOp) :
    (conn.exec op).1.loop = conn.loop ∧ (conn.exec op).1.name = conn.name
      ∧ (conn.exec op).1.channel.fd = conn.channel.fd
      ∧ (conn.exec op).1.channel.index = conn.channel.index := by
  have hquiet : ∀ {conn' : TcpConnection} {es : List Effect}, conn.QuietExec conn' es →
      conn'.loop = conn.loop ∧ conn'.name = conn.name ∧ conn'.channel.fd = conn.channel.fd
        ∧ conn'.channel.index = conn.channel.index :=
    fun h => ⟨h.loop, h.name, h.fd, h.index⟩
  cases op with
  | sendInLoop message res => exact hquiet (conn.sendInLoop_quiet id message res)
  | handleWrite res => exact hquiet (conn.handleWrite_quiet res)
  | connectEstablished | handleClose | shutdownInLoop => exact ⟨rfl, rfl, rfl, rfl⟩
  | handleRead res =>
    simp only [TcpConnection.exec, TcpConnection.handleRead]
    split
    · split <;> exact ⟨rfl, rfl, rfl, rfl⟩
    · exact ⟨rfl, rfl, rfl, rfl⟩
  | shutdown =>
    simp only [TcpConnection.exec, TcpConnection.shutdown]
    split <;> exact ⟨rfl, rfl, rfl, rfl⟩
  | connectDestroyed =>
    simp only [TcpConnection.exec, TcpConnection.connectDestroyed]
    split <;> exact ⟨rfl, rfl, rfl, rfl⟩

theorem not_mem_lifeSteps (op : ConnOp) (effects : List Effect) :
    .removeConnectionInLoop ∉ lifeSteps op effects := by
  unfold lifeSteps
  split
  · simp
  · split <;> simp

theorem place_exec (r : ConnRecord) (op : ConnOp) : (r.exec op).place = r.place := by
  obtain ⟨hloop, hname, _, _⟩ := exec_same r.conn op
  simp [ConnRecord.place, ConnRecord.exec, hloop, hname, not_mem_lifeSteps]

/-- **A member function does to the view what `ConnView.run` says.** -/
theorem run_follows (h : s.Wiring) (hr : s.conns c = some r) (hclear : Clear (s.todo r.conn.loop))
    (op : ConnOp) : Follows c s (s.run c op) ((s.view c r).run op) := by
  obtain ⟨hloop, _, hfd, hindex⟩ := exec_same r.conn op
  simp only [run, hr, ConnView.run, view]
  by_cases halive : r.alive = true
  · simp only [halive, if_true]
    have hfile : r.SameFile (r.exec op) := ⟨hloop, hfd, rfl⟩
    have hset := Acts.setConn h hr hfile (place_exec r op) hindex
    have heffects := runEffects_follows (c := c) hset.wiring (s.conns_setConn c _)
      halive (by rw [show (r.exec op).conn.loop = r.conn.loop from hloop]; exact hclear)
      (tellsFirst_exec r.conn op)
    rw [show (r.exec op).conn.loop = r.conn.loop from hloop,
      show (s.setConn c (r.exec op)).view c (r.exec op) = _ from s.view_record c hloop] at heffects
    exact hset.follows heffects
  · simp only [halive]
    exact follows_abort s c _

/-! ### The server and the user -/

theorem removeConnectionInLoop_acts (h : s.Wiring) (hr : s.conns c = some r)
    (hserver : s.server.alive = true) :
    Acts c s (s.removeConnectionInLoop c) (s.view c r).erase := by
  simp only [removeConnectionInLoop, if_pos hserver, hr]
  let erased : ServerSystem := { s with server := { s.server with
    connections := Function.update s.server.connections r.conn.name none } }
  let t := erased.setConn c (r.addStep .removeConnectionInLoop)
  have hreg : r.alive = true →
      (s.poller r.conn.loop).Registered c r.conn.channel := h.pollers.registered c r hr
  have hplace : t.place = Function.update s.place c (some { r.place with removed := true }) := by
    funext d
    by_cases hdc : d = c
    · subst hdc
      rw [Function.update_self, place, conns_setConn, Option.map_some]
      simp [ConnRecord.place, ConnRecord.addStep]
    · rw [Function.update_of_ne hdc, place, conns_setConn_ne _ _ hdc]
      rfl
  have hfile : r.SameFile (r.addStep .removeConnectionInLoop) := ⟨rfl, rfl, rfl⟩
  have hpollers := h.pollers.set hr hfile hreg fun _ _ => ⟨rfl, rfl⟩
  rw [Function.update_eq_self] at hpollers
  have hwiring : t.Wiring := by
    refine ⟨h.loops, ?_, hpollers, ?_, h.heads⟩
    · rw [hplace]
      exact h.roster.erase (by rw [place, hr, Option.map_some])
    · rw [show t.home = s.home from home_setConn (s := erased) hr rfl]
      exact h.routing
  have hfirst : Acts c s t (s.view c (r.addStep .removeConnectionInLoop)) :=
    ⟨hwiring, viewOf_setConn erased c _, fun _ hd => viewOf_setConn_ne erased _ hd, rfl, rfl, rfl⟩
  exact hfirst.trans (Acts.queueInLoop hwiring (conns_setConn erased c _) _ .connectDestroyed)

theorem userCallback_acts (h : s.Wiring) (hr : s.conns c = some r)
    (hclear : Clear (s.todo r.conn.loop)) (event : ConnRecord → UserEvent) :
    Acts c s (s.userCallback r.conn.loop c event) ((s.view c r).announce (event r)) := by
  simp only [userCallback, hr]
  have hfile : r.SameFile (r.addEvent (event r)) := ⟨rfl, rfl, rfl⟩
  have hset := Acts.setConn h hr hfile rfl rfl
  exact hset.trans (Acts.pushTasks hset.wiring (s.conns_setConn c _) [.user] hclear)

theorem removeConnection_follows (h : s.Wiring) (hr : s.conns c = some r) :
    Follows c s (s.removeConnection r.conn.loop c)
      ((s.view c r).runEffect (r.conn.loop = mainLoop) .closeCallback) := by
  unfold removeConnection
  by_cases hserver : s.server.alive = true
  · have hview : (s.view c r).runEffect (r.conn.loop = mainLoop) .closeCallback
        = some (if decide (r.conn.loop = mainLoop) then (s.view c r).erase
          else { s.view c r with removes := (s.view c r).removes + 1 }) := if_pos hserver
    rw [if_pos hserver, hview]
    by_cases hmain : r.conn.loop = mainLoop
    · rw [if_pos hmain, if_pos (decide_eq_true hmain)]
      exact removeConnectionInLoop_acts h hr hserver
    · rw [if_neg hmain, if_neg (by simpa using hmain)]
      constructor
      · exact h.queueInLoop false ⟨rfl, by simp [home_of hr]⟩
      · rw [viewOf_of (show (s.queueInLoop _ _ _).conns c = some r from hr), view_queueRemove,
          if_pos rfl]
      · intro d hd
        refine viewOf_congr rfl fun q _ => ?_
        rw [view_queueRemove, if_neg hd]
        rfl
      · rfl
      · rfl
      · rfl
  · have hview : (s.view c r).runEffect (r.conn.loop = mainLoop) .closeCallback = none :=
      if_neg hserver
    rw [if_neg hserver, hview]
    exact follows_abort s c _

theorem runEffect_follows (h : s.Wiring) (hr : s.conns c = some r)
    (hclear : Clear (s.todo r.conn.loop)) {e : Effect}
    (halive : isCallback e = false → r.alive = true) :
    Follows c s (s.runEffect r.conn.loop c e)
      ((s.view c r).runEffect (r.conn.loop = mainLoop) e) := by
  have hperform := fun hcallback => perform_follows h hr (halive hcallback) e
  cases e with
  | connectionCallback => exact userCallback_acts h hr hclear _
  | messageCallback => exact userCallback_acts h hr hclear _
  | closeCallback => exact removeConnection_follows h hr
  | write _ | shutdownWrite | updateChannel | removeChannel | queueInLoop _ | assertion _ _ =>
    exact hperform rfl

/-- **A task does to the view what `ConnView.runTask` says.** -/
theorem runTask_follows (h : s.Wiring) (hr : s.conns c = some r)
    (hclear : Clear (s.todo r.conn.loop)) {t : ConnTask}
    (halive : ∀ e, t = .effect e → isCallback e = false → r.alive = true)
    (readRes : ReadvResult) (res : SysResult) :
    Follows c s (s.runTask r.conn.loop readRes res (.conn c t))
      ((s.view c r).runTask (r.conn.loop = mainLoop) readRes res t) := by
  cases t with
  | callback cb =>
    simp only [runTask, ConnView.runTask]
    cases callbackOp readRes res cb with
    | none => exact Acts.refl h hr
    | some op => exact run_follows h hr hclear op
  | effect e => exact runEffect_follows h hr hclear (halive e rfl)
  | connectDestroyed => exact run_follows h hr hclear _
  | user => exact Acts.refl h hr

/-- **A functor does to the view what `ConnView.runFunctor` says.** -/
theorem runFunctor_follows (h : s.Wiring) (hr : s.conns c = some r)
    (hclear : Clear (s.todo r.conn.loop)) (res : SysResult) (f : ConnFunctor) :
    Follows c s (s.runFunctor r.conn.loop res (.conn c f)) ((s.view c r).runFunctor res f) := by
  simp only [runFunctor, ConnView.runFunctor]
  cases f.op res with
  | none => exact Acts.pushTasks h hr [.user] hclear
  | some op => exact run_follows h hr hclear op

theorem call_same (conn : TcpConnection) (isInLoopThread : Bool) (request : Request) :
    (request.call conn isInLoopThread).1.loop = conn.loop
      ∧ (request.call conn isInLoopThread).1.name = conn.name
      ∧ (request.call conn isInLoopThread).1.channel = conn.channel := by
  cases request with
  | send message => exact ⟨rfl, rfl, rfl⟩
  | shutdown =>
    simp only [Request.call, TcpConnection.shutdown]
    split <;> exact ⟨rfl, rfl, rfl⟩

/-- `runInLoop` runs at once only on the loop thread. -/
theorem call_run {conn : TcpConnection} {isInLoopThread : Bool} {request : Request}
    {f : ConnFunctor} (h : (request.call conn isInLoopThread).2 = .run f) :
    isInLoopThread = true := by
  by_contra hnot
  rw [Bool.not_eq_true] at hnot
  subst hnot
  cases request with
  | send message =>
    simp only [Request.call, TcpConnection.send, TcpConnection.runInLoop] at h
    split at h <;> simp at h
  | shutdown =>
    simp only [Request.call, TcpConnection.shutdown, TcpConnection.runInLoop] at h
    split at h <;> simp at h

/-- **A call of the user does to the view what `ConnView.call` says.** -/
theorem userCall_follows (h : s.Wiring) (hr : s.conns c = some r) {who : UserThread}
    (hclear : who = .loop r.conn.loop → Clear (s.todo r.conn.loop)) {request : Request}
    {res : SysResult} (hcall : s.userCall who c request res = some t) :
    Follows c s t ((s.view c r).call (who = .loop r.conn.loop) request res) := by
  rw [userCall, hr, Option.map_some, Option.some.injEq] at hcall
  obtain ⟨hloop, hname, hchannel⟩ := call_same r.conn (who = .loop r.conn.loop) request
  let called : ConnRecord :=
    { r with conn := (request.call r.conn (who = .loop r.conn.loop)).1 }
  have hfile : r.SameFile called := ⟨hloop, congrArg _ hchannel, rfl⟩
  have hplace : called.place = r.place := by
    simp only [ConnRecord.place, called, hloop, hname]
  have hset := Acts.setConn h hr hfile hplace (congrArg _ hchannel)
  have hview : s.view c called = { s.view c r with toConnRecord := called } :=
    s.view_record c hloop
  rw [hview] at hset
  subst hcall
  simp only [ConnView.call]
  cases hdispatch : (request.call r.conn (who = .loop r.conn.loop)).2 with
  | nothing =>
    rw [show (request.call (s.view c r).conn (who = .loop r.conn.loop)).2 = _ from hdispatch]
    exact hset
  | run f =>
    have hwho : who = .loop r.conn.loop := of_decide_eq_true (call_run hdispatch)
    rw [show (request.call (s.view c r).conn (who = .loop r.conn.loop)).2 = _ from hdispatch]
    cases hop : f.op res with
    | none =>
      simp only [hop]
      exact hset
    | some op =>
      have hrun := run_follows (r := called) hset.wiring (s.conns_setConn c called)
        (by rw [show called.conn.loop = r.conn.loop from hloop]; exact hclear hwho) op
      rw [show (s.setConn c called).view c called = _ from hview] at hrun
      simp only [hop]
      exact hset.follows hrun
  | queue f =>
    rw [show (request.call (s.view c r).conn (who = .loop r.conn.loop)).2 = _ from hdispatch]
    have hqueue := Acts.queueInLoop hset.wiring (s.conns_setConn c called) false f
    rw [show called.conn.loop = r.conn.loop from hloop,
      show (s.setConn c called).view c called = _ from hview] at hqueue
    exact hset.trans hqueue

end ServerSystem

end Ymuduo
