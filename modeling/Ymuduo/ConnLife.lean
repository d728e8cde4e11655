/-
  Ymuduo/ConnLife.lean
  ====================
  **The life of one connection.**

  `Life` is the invariant: the stages that a connection goes through, from the functor
  `connectEstablished` in the queue to the last pointer gone.  A close takes the main
  road, with the server alive; once the server is destroyed `connectDestroyed` can come
  at any stage before.  One lemma says what each thing that can happen does to `Life`.
-/
import Ymuduo.ConnView

namespace Ymuduo

/-! ### Tasks that are left -/

/-- A task that can still close the connection or report a message. -/
def ConnTask.weight : ConnTask → Nat
  | .callback .close | .callback .read | .effect .messageCallback => 1
  | _ => 0

def weight (tasks : List ConnTask) : Nat := (tasks.map ConnTask.weight).sum

@[simp] theorem weight_nil : weight [] = 0 := rfl

@[simp] theorem weight_cons (t : ConnTask) (ts : List ConnTask) :
    weight (t :: ts) = t.weight + weight ts := rfl

@[simp] theorem weight_append (ts us : List ConnTask) :
    weight (ts ++ us) = weight ts + weight us := by
  simp [weight]

/-- A task of an established connection that is neither being closed nor destroyed. -/
def ConnTask.IsPlain : ConnTask → Prop
  | .callback _ | .effect .messageCallback | .user | .connectDestroyed => True
  | .effect _ => False

/-- Tasks that cannot change a closed connection. -/
structure Spent (tasks : List ConnTask) : Prop where
  plain : ∀ t ∈ tasks, t.IsPlain
  weight : weight tasks = 0

theorem Spent.nil : Spent [] := ⟨by simp, rfl⟩

theorem Spent.tail {t : ConnTask} {ts : List ConnTask} (h : Spent (t :: ts)) : Spent ts :=
  ⟨fun u hu => h.plain u (List.mem_cons_of_mem _ hu), by
    have hweight := h.weight
    rw [weight_cons] at hweight
    omega⟩

theorem Spent.head_weight {t : ConnTask} {ts : List ConnTask} (h : Spent (t :: ts)) :
    t.weight = 0 := by
  have hweight := h.weight
  rw [weight_cons] at hweight
  omega

theorem Spent.head_ne_effect {t : ConnTask} {ts : List ConnTask} (h : Spent (t :: ts))
    (e : Effect) : t ≠ .effect e := by
  rintro rfl
  have hplain := h.plain _ List.mem_cons_self
  have hweight := h.head_weight
  cases e <;> first | exact hplain | cases hweight

theorem Spent.cons {t : ConnTask} {ts : List ConnTask} (h : Spent ts) (hplain : t.IsPlain)
    (hweight : t.weight = 0) : Spent (t :: ts) :=
  ⟨List.forall_mem_cons.mpr ⟨hplain, h.plain⟩, by rw [weight_cons, hweight, h.weight]⟩

/-- One report runs one of `handleClose` and `handleRead`, once. -/
theorem weight_callbacks {revents : EpollEvents} (h : revents.IsOdd = false) :
    weight ((Channel.handleEventWithGuard revents).map .callback) ≤ 1 := by
  obtain ⟨epollIn, epollPri, epollOut, epollErr, epollHup⟩ := revents
  revert h
  revert epollIn epollPri epollOut epollErr epollHup
  decide

/-- How often `connectDestroyed` is still to run, before `removeConnectionInLoop` queues
    it: at most once, and only for `~TcpServer`. -/
def Due (server : Bool) (queue : List ConnFunctor) (tasks : List ConnTask) : Prop :=
  queue.count .connectDestroyed + tasks.count .connectDestroyed ≤ if server then 0 else 1

section Due

variable {server : Bool} {queue : List ConnFunctor} {tasks : List ConnTask}

theorem Due.tail {f : ConnFunctor} (h : Due server (f :: queue) tasks) :
    Due server queue tasks := by
  unfold Due at h ⊢
  rw [List.count_cons] at h
  omega

theorem Due.tail_task {t : ConnTask} (h : Due server queue (t :: tasks)) :
    Due server queue tasks := by
  unfold Due at h ⊢
  rw [List.count_cons] at h
  omega

theorem Due.append {fs : List ConnFunctor} (h : Due server queue tasks)
    (hfs : .connectDestroyed ∉ fs) : Due server (queue ++ fs) tasks := by
  unfold Due at h ⊢
  rw [List.count_append, List.count_eq_zero_of_not_mem hfs]
  exact h

theorem Due.cons {t : ConnTask} (h : Due server queue tasks) (ht : t ≠ .connectDestroyed) :
    Due server queue (t :: tasks) := by
  unfold Due at h ⊢
  rw [List.count_cons_of_ne ht]
  exact h

/-- The only one has just been called. -/
theorem Due.called (h : Due server (.connectDestroyed :: queue) tasks) :
    server = false ∧ .connectDestroyed ∉ queue ∧ .connectDestroyed ∉ tasks := by
  unfold Due at h
  rw [List.count_cons_self] at h
  rw [← List.count_eq_zero, ← List.count_eq_zero]
  cases server
  · rw [if_neg Bool.false_ne_true] at h
    exact ⟨rfl, by omega, by omega⟩
  · rw [if_pos rfl] at h
    omega

theorem Due.called_task (h : Due server queue (.connectDestroyed :: tasks)) :
    server = false ∧ .connectDestroyed ∉ queue ∧ .connectDestroyed ∉ tasks := by
  unfold Due at h
  rw [List.count_cons_self] at h
  rw [← List.count_eq_zero, ← List.count_eq_zero]
  cases server
  · rw [if_neg Bool.false_ne_true] at h
    exact ⟨rfl, by omega, by omega⟩
  · rw [if_pos rfl] at h
    omega

theorem Due.none (h : Due true queue tasks) :
    .connectDestroyed ∉ queue ∧ .connectDestroyed ∉ tasks := by
  unfold Due at h
  rw [← List.count_eq_zero, ← List.count_eq_zero]
  simp at h ⊢
  omega

/-- `~TcpServer` queues it or runs it next, or does not know the connection. -/
theorem Due.destroyServer (h : Due true queue tasks) :
    Due false queue tasks ∧ Due false (queue ++ [.connectDestroyed]) tasks
      ∧ Due false queue (.connectDestroyed :: tasks) := by
  obtain ⟨hqueue, htasks⟩ := h.none
  rw [← List.count_eq_zero] at hqueue htasks
  simp [Due, hqueue, htasks]

end Due

namespace ConnRecord

/-- Established, and registered for reading. -/
structure Open (r : ConnRecord) : Prop where
  alive : r.alive = true
  index : r.conn.channel.index = .kAdded
  reading : r.conn.channel.isReading = true

/-- After the `disableAll` of `handleClose` or `connectDestroyed`. -/
structure Closed (r : ConnRecord) : Prop where
  alive : r.alive = true
  state : r.conn.state = .kDisconnected
  index : r.conn.channel.index = .kDeleted
  events : r.conn.channel.events = kNonEvent

theorem Closed.addStep {r : ConnRecord} (h : r.Closed) (step : LifeStep) :
    (r.addStep step).Closed :=
  ⟨h.alive, h.state, h.index, h.events⟩

theorem Open.addEvent {r : ConnRecord} (h : r.Open) (event : UserEvent) : (r.addEvent event).Open :=
  ⟨h.alive, h.index, h.reading⟩

theorem Closed.addEvent {r : ConnRecord} (h : r.Closed) (event : UserEvent) :
    (r.addEvent event).Closed :=
  ⟨h.alive, h.state, h.index, h.events⟩

end ConnRecord

namespace ConnView

/-- UP, message* -/
def Up (trace : List UserEvent) : Prop :=
  ∃ n, trace = .connection true :: List.replicate n .message

/-- UP, message*, DOWN -/
def UpDown (trace : List UserEvent) : Prop :=
  ∃ n, trace = .connection true :: List.replicate n .message ++ [.connection false]

/-- Constructed, with `connectEstablished` no more in the queue. -/
structure Fresh (v : ConnView) : Prop where
  alive : v.alive = true
  state : v.conn.state = .kConnecting
  index : v.conn.channel.index = .kNew
  steps : v.steps = [.newConnection]
  trace : v.trace = []
  queue : .connectEstablished ∉ v.queue
  due : Due v.server v.queue v.tasks
  removes : v.removes = 0
  tasks : v.tasks = []
  active : v.active = []
  copies : v.copies = 0

/-- On its own loop: on the main loop `connectEstablished` runs at once. -/
structure Queued (v : ConnView) (rest : List ConnFunctor) : Prop where
  away : v.conn.loop ≠ mainLoop
  queue : v.queue = .connectEstablished :: rest
  fresh : Fresh { v with queue := rest }

/-- In `connectEstablished`, before the user is told. -/
structure Announcing (v : ConnView) : Prop where
  opened : v.toConnRecord.Open
  state : v.conn.state = .kConnected
  steps : v.steps = [.newConnection, .connectEstablished]
  trace : v.trace = []
  queue : .connectEstablished ∉ v.queue
  due : Due v.server v.queue v.tasks
  removes : v.removes = 0
  tasks : v.tasks = [.effect .connectionCallback]
  active : v.active = []
  copies : v.copies = 0

structure Established (v : ConnView) : Prop where
  opened : v.toConnRecord.Open
  state : v.conn.state = .kConnected ∨ v.conn.state = .kDisconnecting
  steps : v.steps = [.newConnection, .connectEstablished]
  trace : Up v.trace
  queue : .connectEstablished ∉ v.queue
  due : Due v.server v.queue v.tasks
  removes : v.removes = 0
  plain : ∀ t ∈ v.tasks, t.IsPlain
  once : weight v.tasks + v.active.length ≤ 1
  even : ∀ revents ∈ v.active, revents.IsOdd = false

/-- In `handleClose`, before the user is told. -/
structure DownPending (v : ConnView) (rest : List ConnTask) : Prop where
  closed : v.toConnRecord.Closed
  queue : .connectEstablished ∉ v.queue
  active : v.active = []
  steps : v.steps = [.newConnection, .connectEstablished, .handleClose]
  trace : Up v.trace
  due : Due v.server v.queue v.tasks
  removes : v.removes = 0
  tasks : v.tasks = .effect .connectionCallback :: .effect .closeCallback :: rest
  spent : Spent rest

/-- In `handleClose`, before `closeCallback_`. -/
structure ClosePending (v : ConnView) (before after : List ConnTask) : Prop where
  closed : v.toConnRecord.Closed
  queue : .connectEstablished ∉ v.queue
  active : v.active = []
  steps : v.steps = [.newConnection, .connectEstablished, .handleClose]
  trace : UpDown v.trace
  due : Due v.server v.queue v.tasks
  removes : v.removes = 0
  tasks : v.tasks = before ++ .effect .closeCallback :: after
  spent : Spent (before ++ after)

theorem ClosePending.tasks_ne {v : ConnView} {before after : List ConnTask}
    (h : v.ClosePending before after) : v.tasks ≠ [] := by
  rw [h.tasks]
  apply List.append_ne_nil_of_right_ne_nil
  apply List.cons_ne_nil

/-- `removeConnectionInLoop` is in the queue of the main loop. -/
structure Removing (v : ConnView) : Prop where
  closed : v.toConnRecord.Closed
  queue : .connectEstablished ∉ v.queue
  active : v.active = []
  steps : v.steps = [.newConnection, .connectEstablished, .handleClose]
  trace : UpDown v.trace
  due : Due v.server v.queue v.tasks
  removes : v.removes = 1
  spent : Spent v.tasks

/-- Erased from `connections_`, and `connectDestroyed` is the last in the queue. -/
structure Destroying (v : ConnView) (before : List ConnFunctor) : Prop where
  closed : v.toConnRecord.Closed
  steps : v.steps = [.newConnection, .connectEstablished, .handleClose,
    .removeConnectionInLoop]
  trace : UpDown v.trace
  queue : v.queue = before ++ [.connectDestroyed]
  before : ∀ f ∈ before, f ≠ .connectEstablished ∧ f ≠ .connectDestroyed
  removes : v.removes = 0
  spent : Spent v.tasks
  undue : .connectDestroyed ∉ v.tasks
  active : v.active = []

/-- At the end of the main road. -/
structure Gone (v : ConnView) : Prop where
  state : v.conn.state = .kDisconnected
  index : v.conn.channel.index = .kNew
  events : v.conn.channel.events = kNonEvent
  steps : v.steps = [.newConnection, .connectEstablished, .handleClose,
    .removeConnectionInLoop, .connectDestroyed]
  trace : UpDown v.trace
  queue : v.queue = []
  removes : v.removes = 0
  tasks : v.tasks = []
  active : v.active = []

/-- In the `connectDestroyed` of `~TcpServer` on an established connection. -/
structure Dropping (v : ConnView) (after : List ConnTask) : Prop where
  server : v.server = false
  closed : v.toConnRecord.Closed
  found : v.found = some .kConnected
  steps : v.steps = [.newConnection, .connectEstablished]
  queue : .connectEstablished ∉ v.queue ∧ .connectDestroyed ∉ v.queue
  after : ∀ t ∈ after, t.IsPlain ∧ t ≠ .connectDestroyed

/-- Before the user is told. -/
structure DropPending (v : ConnView) (after : List ConnTask) : Prop where
  dropping : v.Dropping after
  trace : Up v.trace
  tasks : v.tasks = .effect .connectionCallback :: .effect .removeChannel :: after

/-- Before `channel_->remove()`. -/
structure DropTold (v : ConnView) (before after : List ConnTask) : Prop where
  dropping : v.Dropping after
  trace : UpDown v.trace
  tasks : v.tasks = before ++ .effect .removeChannel :: after
  before : ∀ t ∈ before, t = .user

theorem DropTold.tasks_ne {v : ConnView} {before after : List ConnTask}
    (h : v.DropTold before after) : v.tasks ≠ [] := by
  rw [h.tasks]
  apply List.append_ne_nil_of_right_ne_nil
  apply List.cons_ne_nil

/-- After the `connectDestroyed` of `~TcpServer`.  A `handleClose` that is still active
    runs into the dead server. -/
structure Stray (v : ConnView) : Prop where
  server : v.server = false
  state : v.conn.state = .kDisconnecting
    ∨ v.conn.state = .kDisconnected ∧ v.conn.channel.events = kNonEvent
      ∧ (v.conn.channel.index = .kNew ∨ .effect .closeCallback ∈ v.tasks)
  steps : v.steps.count .connectDestroyed = 1
  queue : .connectEstablished ∉ v.queue ∧ .connectDestroyed ∉ v.queue
  tasks : ∀ t ∈ v.tasks, t ≠ .connectDestroyed
    ∧ ∀ e, t = .effect e → ServerSystem.isCallback e = true

/-- **The invariant of one connection.** -/
inductive Life (v : ConnView) : Prop
  | queued {rest : List ConnFunctor} (h : v.Queued rest)
  | announcing (h : v.Announcing)
  | established (h : v.Established)
  | downPending {rest : List ConnTask} (h : v.DownPending rest)
  | closePending {before after : List ConnTask} (h : v.ClosePending before after)
  | removing (h : v.Removing)
  | destroying {before : List ConnFunctor} (h : v.Destroying before)
  | gone (h : v.Gone)
  | dropPending {after : List ConnTask} (h : v.DropPending after)
  | dropTold {before after : List ConnTask} (h : v.DropTold before after)
  | stray (h : v.Stray)

/-! ### What happens to a connection -/

variable {v v' : ConnView}

theorem Quiet.keeps_open (hq : v.Quiet v') (h : v.toConnRecord.Open) :
    ({ v with conn := v'.conn } : ConnView).toConnRecord.Open :=
  ⟨h.alive, (hq.opened h.index h.reading).1, (hq.opened h.index h.reading).2⟩

theorem Quiet.keeps_closed (hq : v.Quiet v') (h : v.toConnRecord.Closed) :
    ({ v with conn := v'.conn } : ConnView).toConnRecord.Closed ∧ v'.queue = v.queue := by
  obtain ⟨hchannel, hqueue⟩ := hq.closed h.state h.events
  exact ⟨⟨h.alive, hq.state.trans h.state, (congrArg _ hchannel).trans h.index,
    (congrArg _ hchannel).trans h.events⟩, hqueue⟩

theorem notes_ne {notes : List ConnFunctor} (h : ∀ f ∈ notes, f.IsNote) :
    .connectEstablished ∉ notes ∧ .connectDestroyed ∉ notes :=
  ⟨fun hin => h _ hin, fun hin => h _ hin⟩

/-- **Functions that move bytes keep the stage.** -/
theorem Life.quiet (h : v.Life) (hq : v.Quiet v') (hstate : v.conn.state ≠ .kConnecting) :
    v'.Life := by
  obtain ⟨notes, hnotes, hnote⟩ := hq.queue
  obtain ⟨hest, hdest⟩ := notes_ne hnote
  have hqueue : .connectEstablished ∉ v.queue → .connectEstablished ∉ v'.queue := by
    intro hnot
    rw [hnotes]
    exact fun hin => (List.mem_append.mp hin).elim hnot hest
  have hdue : Due v.server v.queue v.tasks → Due v.server v'.queue v.tasks := by
    intro hdue
    rw [hnotes]
    exact hdue.append hdest
  have hboth : .connectEstablished ∉ v.queue ∧ .connectDestroyed ∉ v.queue →
      .connectEstablished ∉ v'.queue ∧ .connectDestroyed ∉ v'.queue := by
    rintro ⟨hnot, hnot'⟩
    refine ⟨hqueue hnot, ?_⟩
    rw [hnotes]
    exact fun hin => (List.mem_append.mp hin).elim hnot' hdest
  rw [hq.same]
  cases h with
  | queued h => exact absurd h.fresh.state hstate
  | announcing h =>
    exact .announcing { h with
      opened := hq.keeps_open h.opened
      state := hq.state.trans h.state
      queue := hqueue h.queue
      due := hdue h.due }
  | established h =>
    exact .established { h with
      opened := hq.keeps_open h.opened
      state := by simpa only [hq.state] using h.state
      queue := hqueue h.queue
      due := hdue h.due }
  | downPending h =>
    exact .downPending { h with
      closed := (hq.keeps_closed h.closed).1, queue := hqueue h.queue, due := hdue h.due }
  | closePending h =>
    exact .closePending { h with
      closed := (hq.keeps_closed h.closed).1, queue := hqueue h.queue, due := hdue h.due }
  | removing h =>
    exact .removing { h with
      closed := (hq.keeps_closed h.closed).1, queue := hqueue h.queue, due := hdue h.due }
  | destroying h =>
    obtain ⟨hclosed, hsame⟩ := hq.keeps_closed h.closed
    exact .destroying { h with closed := hclosed, queue := hsame.trans h.queue }
  | gone h =>
    obtain ⟨hchannel, hsame⟩ := hq.closed h.state h.events
    exact .gone { h with
      state := hq.state.trans h.state
      index := (congrArg _ hchannel).trans h.index
      events := (congrArg _ hchannel).trans h.events
      queue := hsame.trans h.queue }
  | dropPending h =>
    exact .dropPending { h with dropping := { h.dropping with
      closed := (hq.keeps_closed h.dropping.closed).1, queue := hboth h.dropping.queue } }
  | dropTold h =>
    exact .dropTold { h with dropping := { h.dropping with
      closed := (hq.keeps_closed h.dropping.closed).1, queue := hboth h.dropping.queue } }
  | stray h =>
    refine .stray { h with state := ?_, queue := hboth h.queue }
    rcases h.state with hdisconnecting | ⟨hdisconnected, hevents, hindex⟩
    · exact Or.inl (hq.state.trans hdisconnecting)
    · have hchannel := (hq.closed hdisconnected hevents).1
      exact Or.inr ⟨hq.state.trans hdisconnected, (congrArg _ hchannel).trans hevents,
        by simpa only [hchannel] using hindex⟩

theorem Life.connecting (h : v.Life) (hstate : v.conn.state = .kConnecting) :
    ∃ rest, v.Queued rest := by
  cases h with
  | queued h => exact ⟨_, h⟩
  | announcing h => cases hstate.symm.trans h.state
  | established h => rcases h.state with hs | hs <;> cases hstate.symm.trans hs
  | downPending h => cases hstate.symm.trans h.closed.state
  | closePending h => cases hstate.symm.trans h.closed.state
  | removing h => cases hstate.symm.trans h.closed.state
  | destroying h => cases hstate.symm.trans h.closed.state
  | gone h => cases hstate.symm.trans h.state
  | dropPending h => cases hstate.symm.trans h.dropping.closed.state
  | dropTold h => cases hstate.symm.trans h.dropping.closed.state
  | stray h => rcases h.state with hs | hs
               · cases hstate.symm.trans hs
               · cases hstate.symm.trans hs.1

/-- A functor other than those two is taken from the queue. -/
theorem Life.pop (h : v.Life) {f : ConnFunctor} {rest : List ConnFunctor}
    (hv : v.queue = f :: rest) (hest : f ≠ .connectEstablished) (hdest : f ≠ .connectDestroyed) :
    Life { v with queue := rest } := by
  have hqueue : .connectEstablished ∉ v.queue → .connectEstablished ∉ rest := by
    intro hnot hin
    exact hnot (hv ▸ List.mem_cons_of_mem _ hin)
  have hboth : .connectEstablished ∉ v.queue ∧ .connectDestroyed ∉ v.queue →
      .connectEstablished ∉ rest ∧ .connectDestroyed ∉ rest := by
    rintro ⟨hnot, hnot'⟩
    exact ⟨hqueue hnot, fun hin => hnot' (hv ▸ List.mem_cons_of_mem _ hin)⟩
  have hdue : Due v.server v.queue v.tasks → Due v.server rest v.tasks := by
    rw [hv]
    exact Due.tail
  cases h with
  | queued h => exact absurd (List.cons.inj (hv.symm.trans h.queue)).1 hest
  | announcing h => exact .announcing { h with queue := hqueue h.queue, due := hdue h.due }
  | established h => exact .established { h with queue := hqueue h.queue, due := hdue h.due }
  | downPending h =>
    exact .downPending { h with queue := hqueue h.queue, due := hdue h.due }
  | closePending h =>
    exact .closePending { h with queue := hqueue h.queue, due := hdue h.due }
  | removing h =>
    exact .removing { h with queue := hqueue h.queue, due := hdue h.due }
  | @destroying before h =>
    have hshape := hv.symm.trans h.queue
    cases before with
    | nil => exact absurd (List.cons.inj hshape).1 hdest
    | cons g before =>
      exact .destroying { h with
        queue := (List.cons.inj hshape).2
        before := fun g hg => h.before g (List.mem_cons_of_mem _ hg) }
  | gone h => cases hv.symm.trans h.queue
  | dropPending h =>
    exact .dropPending { h with dropping := { h.dropping with queue := hboth h.dropping.queue } }
  | dropTold h =>
    exact .dropTold { h with dropping := { h.dropping with queue := hboth h.dropping.queue } }
  | stray h => exact .stray { h with queue := hboth h.queue }

/-- The user's code returns, or a callback that does nothing is done. -/
theorem Life.popTask (h : v.Life) {t : ConnTask} {rest : List ConnTask}
    (hv : v.tasks = t :: rest) (ht : ∀ e, t ≠ .effect e) : Life { v with tasks := rest } := by
  have hdue : Due v.server v.queue v.tasks → Due v.server v.queue rest := by
    rw [hv]
    exact Due.tail_task
  have hspent : Spent v.tasks → Spent rest := by
    rw [hv]
    exact Spent.tail
  cases h with
  | queued h => cases hv.symm.trans h.fresh.tasks
  | announcing h => exact absurd (List.cons.inj (hv.symm.trans h.tasks)).1 (ht _)
  | established h =>
    refine .established { h with due := hdue h.due, plain := ?_, once := ?_ }
    · exact fun u hu => h.plain u (hv ▸ List.mem_cons_of_mem _ hu)
    · have honce := h.once
      rw [hv, weight_cons] at honce
      show weight rest + v.active.length ≤ 1
      omega
  | downPending h => exact absurd (List.cons.inj (hv.symm.trans h.tasks)).1 (ht _)
  | @closePending before after h =>
    have hshape := hv.symm.trans h.tasks
    cases before with
    | nil => exact absurd (List.cons.inj hshape).1 (ht _)
    | cons u before =>
      exact .closePending { h with
        due := hdue h.due, tasks := (List.cons.inj hshape).2, spent := h.spent.tail }
  | removing h => exact .removing { h with due := hdue h.due, spent := hspent h.spent }
  | destroying h =>
    refine .destroying { h with spent := hspent h.spent, undue := ?_ }
    exact fun hin => h.undue (hv ▸ List.mem_cons_of_mem _ hin)
  | gone h => cases hv.symm.trans h.tasks
  | dropPending h => exact absurd (List.cons.inj (hv.symm.trans h.tasks)).1 (ht _)
  | @dropTold before after h =>
    have hshape := hv.symm.trans h.tasks
    cases before with
    | nil => exact absurd (List.cons.inj hshape).1 (ht _)
    | cons u before =>
      exact .dropTold { h with
        dropping := { h.dropping with }
        tasks := (List.cons.inj hshape).2
        before := fun t ht => h.before t (List.mem_cons_of_mem _ ht) }
  | stray h =>
    refine .stray { h with state := ?_, tasks := ?_ }
    · rcases h.state with hs | ⟨hs, hevents, hindex | hclose⟩
      · exact Or.inl hs
      · exact Or.inr ⟨hs, hevents, Or.inl hindex⟩
      · refine Or.inr ⟨hs, hevents, Or.inr ?_⟩
        rw [hv] at hclose
        exact List.mem_of_ne_of_mem (ht _).symm hclose
    · exact fun u hu => h.tasks u (hv ▸ List.mem_cons_of_mem _ hu)

/-! ### The functions of the life cycle -/

/-- Disconnected, and the user has been told of both ends. -/
structure Ended (r : ConnRecord) : Prop where
  state : r.conn.state = .kDisconnected
  events : r.conn.channel.events = kNonEvent
  up : r.trace.count (.connection true) = 1
  down : r.trace.count (.connection false) = 1

theorem UpDown.counts {trace : List UserEvent} (h : UpDown trace) :
    trace.count (.connection true) = 1 ∧ trace.count (.connection false) = 1 := by
  obtain ⟨n, rfl⟩ := h
  constructor
  · simp [List.count_replicate]
  · simp [List.count_replicate]

/-- The step ends `connectDestroyed`, and then in order unless that found
    `kDisconnecting`. -/
def Complete (v v' : ConnView) : Prop :=
  .connectDestroyed ∉ v.steps → .connectDestroyed ∈ v'.steps →
    v'.alive = true ∧ v'.conn.channel.index = .kNew
      ∧ (Ended v'.toConnRecord ↔ v'.found ≠ some .kDisconnecting)

theorem Complete.of_steps (h : v'.steps = v.steps) : Complete v v' := by
  intro hnone hin
  rw [h] at hin
  exact absurd hin hnone

/-- What a function may make of the connection: a live server meets no `assert`. -/
def Keeps (v : ConnView) (result : Option ConnView) : Prop :=
  (v.server = true → result.isSome = true) ∧ ∀ v' ∈ result, v'.Life ∧ Complete v v'

theorem Keeps.some (hlife : v'.Life) (hcomplete : Complete v v') : Keeps v (some v') := by
  constructor
  · intro _
    rfl
  · intro w hw
    cases hw
    exact ⟨hlife, hcomplete⟩

theorem Keeps.none (hserver : v.server = false) : Keeps v none := by
  constructor
  · intro hlive
    cases hserver.symm.trans hlive
  · intro w hw
    cases hw

/-- `connectDestroyed` of the connection meets no `assert`, and had not ended before. -/
def Destroys (v : ConnView) (result : Option ConnView) : Prop :=
  .connectDestroyed ∉ v.steps ∧ ∃ v', result = some v' ∧ v'.Life ∧ Complete v v'

theorem Destroys.keeps {result : Option ConnView} (h : Destroys v result) : Keeps v result := by
  obtain ⟨_, v', rfl, hlife, hcomplete⟩ := h
  exact .some hlife hcomplete

/-- `connectEstablished` -/
theorem Fresh.run (h : v.Fresh) :
    ∃ v', v.run .connectEstablished = some v' ∧ v'.Announcing
      ∧ v'.steps = v.steps ++ [.connectEstablished] := by
  refine ⟨{ v with
    toConnRecord := (v.toConnRecord.exec .connectEstablished).setChannel
      v.conn.channel.tie.enableReading.updated
    tasks := [.effect .connectionCallback] }, ?_, ?_, rfl⟩
  · simp [ConnView.run, h.alive, h.tasks, h.state, TcpConnection.exec,
      TcpConnection.connectEstablished, runEffects, perform, ServerSystem.isCallback,
      ConnRecord.exec]
  · refine ⟨⟨h.alive, ?_, ?_⟩, rfl, ?_, h.trace, h.queue, ?_, h.removes, rfl, h.active, h.copies⟩
    · simp [ConnRecord.setChannel, Channel.updated, Channel.enableReading, Channel.tie, h.index]
    · simp [ConnRecord.setChannel, Channel.isReading, Channel.updated, Channel.enableReading,
        EpollEvents.meets, EpollEvents.union, kReadEvent]
    · simp [ConnRecord.setChannel, ConnRecord.exec, lifeSteps, h.steps]
    · have hdue := h.due
      rw [h.tasks] at hdue
      exact hdue.cons (by simp)

/-- A callback that ends in `handleClose`. -/
structure Closes (conn : TcpConnection) (op : ConnOp) : Prop where
  effects : (conn.exec op).2 = [.updateChannel, .connectionCallback, .closeCallback]
  state : (conn.exec op).1.state = .kDisconnected
  channel : (conn.exec op).1.channel = conn.channel.disableAll
  other : op ≠ .connectEstablished ∧ op ≠ .connectDestroyed

/-- A callback that ends in `messageCallback_`. -/
structure Reads (conn : TcpConnection) (op : ConnOp) : Prop where
  effects : (conn.exec op).2 = [.messageCallback]
  state : (conn.exec op).1.state = conn.state
  channel : (conn.exec op).1.channel = conn.channel
  other : op ≠ .connectEstablished ∧ op ≠ .connectDestroyed

theorem callback_cases (conn : TcpConnection) {readRes : ReadvResult} {res : SysResult}
    {cb : EventCallback} {op : ConnOp} (h : ServerSystem.callbackOp readRes res cb = some op) :
    op.IsQuiet ∨ (ConnTask.callback cb).weight = 1 ∧ (Closes conn op ∨ Reads conn op) := by
  cases cb with
  | close =>
    cases h
    exact Or.inr ⟨rfl, Or.inl ⟨rfl, rfl, rfl, by simp⟩⟩
  | error => cases h
  | read =>
    cases h
    cases readRes with
    | err errno => exact Or.inl ⟨errno, rfl⟩
    | ok bytes =>
      refine Or.inr ⟨rfl, ?_⟩
      by_cases hsome : 0 < bytes.length
      · right
        constructor <;> simp [TcpConnection.exec, TcpConnection.handleRead, WfBuffer.readFd, hsome]
      · left
        constructor <;> simp [TcpConnection.exec, TcpConnection.handleRead, WfBuffer.readFd, hsome,
          TcpConnection.handleClose]
  | write =>
    cases h
    exact Or.inl trivial

theorem run_closes (halive : v.alive = true) {op : ConnOp} (hop : Closes v.conn op) :
    ∃ conn, v.run op = some { v with
        conn := conn
        steps := v.steps ++ [.handleClose]
        tasks := .effect .connectionCallback :: .effect .closeCallback :: v.tasks }
      ∧ conn.state = .kDisconnected ∧ conn.channel = v.conn.channel.disableAll.updated := by
  refine ⟨{ (v.conn.exec op).1 with channel := v.conn.channel.disableAll.updated }, ?_, hop.state,
    rfl⟩
  simp [run, halive, hop.effects, hop.other.1, hop.other.2, runEffects, perform,
    ServerSystem.isCallback, ConnRecord.exec, ConnRecord.setChannel, lifeSteps, hop.channel]

theorem run_reads (halive : v.alive = true) {op : ConnOp} (hop : Reads v.conn op) :
    ∃ conn, v.run op = some { v with conn := conn, tasks := .effect .messageCallback :: v.tasks }
      ∧ conn.state = v.conn.state ∧ conn.channel = v.conn.channel := by
  refine ⟨(v.conn.exec op).1, ?_, hop.state, hop.channel⟩
  simp [run, halive, hop.effects, hop.other.1, hop.other.2, runEffects,
    ServerSystem.isCallback, ConnRecord.exec, lifeSteps]

/-- Only an established connection still has such tasks, unless the server is gone. -/
theorem Life.of_weight (h : v.Life) {t : ConnTask} {rest : List ConnTask}
    (hv : v.tasks = t :: rest) (ht : t.weight = 1) : v.Established ∨ v.Stray := by
  have hspent : ∀ {ts : List ConnTask}, Spent (t :: ts) → False := by
    intro ts hspent
    cases ht.symm.trans hspent.head_weight
  cases h with
  | queued h => cases hv.symm.trans h.fresh.tasks
  | announcing h =>
    rw [(List.cons.inj (hv.symm.trans h.tasks)).1] at ht
    cases ht
  | established h => exact Or.inl h
  | downPending h =>
    rw [(List.cons.inj (hv.symm.trans h.tasks)).1] at ht
    cases ht
  | @closePending before after h =>
    have hshape := hv.symm.trans h.tasks
    cases before with
    | nil =>
      rw [(List.cons.inj hshape).1] at ht
      cases ht
    | cons u before =>
      obtain ⟨rfl, _⟩ := List.cons.inj hshape
      exact (hspent h.spent).elim
  | removing h => exact (hspent (hv ▸ h.spent)).elim
  | destroying h => exact (hspent (hv ▸ h.spent)).elim
  | gone h => cases hv.symm.trans h.tasks
  | dropPending h =>
    rw [(List.cons.inj (hv.symm.trans h.tasks)).1] at ht
    cases ht
  | @dropTold before after h =>
    have hshape := hv.symm.trans h.tasks
    cases before with
    | nil =>
      rw [(List.cons.inj hshape).1] at ht
      cases ht
    | cons u before =>
      obtain ⟨rfl, _⟩ := List.cons.inj hshape
      rw [h.before t List.mem_cons_self] at ht
      cases ht
  | stray h => exact Or.inr h

theorem disableAll_closed {ch : Channel} (hindex : ch.index = .kAdded) :
    ch.disableAll.updated.index = .kDeleted := by
  simp [Channel.updated, Channel.disableAll, Channel.isNonEvent, hindex]

/-- `handleClose` on an established connection. -/
theorem Established.closes (h : v.Established) {t : ConnTask} {rest : List ConnTask}
    (hv : v.tasks = t :: rest) (ht : t.weight = 1) {op : ConnOp} (hop : Closes v.conn op) :
    Keeps v ({ v with tasks := rest }.run op) := by
  obtain ⟨conn, hrun, hstate, hchannel⟩ :=
    run_closes (v := { v with tasks := rest }) h.opened.alive hop
  have honce := h.once
  have hdue := h.due
  rw [hv] at hdue
  rw [hv, weight_cons, ht] at honce
  have hactive : v.active = [] := List.eq_nil_of_length_eq_zero (by omega)
  have hspent : Spent rest :=
    ⟨fun u hu => h.plain u (hv ▸ List.mem_cons_of_mem _ hu), by omega⟩
  rw [hrun]
  refine .some (.downPending
    ⟨⟨h.opened.alive, hstate, ?_, ?_⟩, h.queue, hactive, ?_, h.trace, ?_, h.removes, rfl,
      hspent⟩) ?_
  · exact (congrArg _ hchannel).trans (disableAll_closed h.opened.index)
  · exact congrArg _ hchannel
  · rw [h.steps]
    rfl
  · exact (hdue.tail_task.cons (by simp)).cons (by simp)
  · intro _ hin
    rw [h.steps] at hin
    simp at hin

theorem Established.reads (h : v.Established) {t : ConnTask} {rest : List ConnTask}
    (hv : v.tasks = t :: rest) (ht : t.weight = 1) {op : ConnOp} (hop : Reads v.conn op) :
    Keeps v ({ v with tasks := rest }.run op) := by
  obtain ⟨conn, hrun, hstate, hchannel⟩ :=
    run_reads (v := { v with tasks := rest }) h.opened.alive hop
  have hdue := h.due
  rw [hv] at hdue
  rw [hrun]
  refine .some (.established
    { h with opened := ?_, state := ?_, due := ?_, plain := ?_, once := ?_ })
    (.of_steps rfl)
  · exact ⟨h.opened.alive, (congrArg _ hchannel).trans h.opened.index,
      (congrArg _ hchannel).trans h.opened.reading⟩
  · simpa only [hstate] using h.state
  · exact hdue.tail_task.cons (by simp)
  · intro u hu
    rcases List.mem_cons.mp hu with rfl | hin
    · trivial
    · exact h.plain u (hv ▸ List.mem_cons_of_mem _ hin)
  · have honce := h.once
    rw [hv, weight_cons, ht] at honce
    exact honce

/-- After `~TcpServer` a `handleClose` is not yet stopped. -/
theorem Stray.closes (h : v.Stray) {t : ConnTask} {rest : List ConnTask}
    (hv : v.tasks = t :: rest) {op : ConnOp} (hop : Closes v.conn op) :
    Keeps v ({ v with tasks := rest }.run op) := by
  by_cases halive : v.alive = true
  · obtain ⟨conn, hrun, hstate, hchannel⟩ := run_closes (v := { v with tasks := rest }) halive hop
    rw [hrun]
    refine .some (.stray { h with state := ?_, steps := ?_, tasks := ?_ }) ?_
    · exact Or.inr ⟨hstate, congrArg _ hchannel, Or.inr (by simp)⟩
    · rw [List.count_append, h.steps]
      rfl
    · intro u hu
      rcases List.mem_cons.mp hu with rfl | hu
      · simp [ServerSystem.isCallback]
      rcases List.mem_cons.mp hu with rfl | hu
      · simp [ServerSystem.isCallback]
      · exact h.tasks u (hv ▸ List.mem_cons_of_mem _ hu)
    · intro hnone
      have hcount := h.steps
      rw [List.count_eq_zero.mpr hnone] at hcount
      cases hcount
  · rw [run, if_neg halive]
    exact .none h.server

theorem Stray.reads (h : v.Stray) {t : ConnTask} {rest : List ConnTask}
    (hv : v.tasks = t :: rest) (ht : ∀ e, t ≠ .effect e) {op : ConnOp} (hop : Reads v.conn op) :
    Keeps v ({ v with tasks := rest }.run op) := by
  by_cases halive : v.alive = true
  · obtain ⟨conn, hrun, hstate, hchannel⟩ := run_reads (v := { v with tasks := rest }) halive hop
    rw [hrun]
    refine .some (.stray { h with state := ?_, tasks := ?_ }) (.of_steps rfl)
    · simp only [hstate, hchannel]
      rcases h.state with hs | ⟨hs, hevents, hindex | hclose⟩
      · exact Or.inl hs
      · exact Or.inr ⟨hs, hevents, Or.inl hindex⟩
      · refine Or.inr ⟨hs, hevents, Or.inr (List.mem_cons_of_mem _ ?_)⟩
        rw [hv] at hclose
        exact List.mem_of_ne_of_mem (ht _).symm hclose
    · intro u hu
      rcases List.mem_cons.mp hu with rfl | hu
      · simp [ServerSystem.isCallback]
      · exact h.tasks u (hv ▸ List.mem_cons_of_mem _ hu)
  · rw [run, if_neg halive]
    exact .none h.server

/-- Nothing runs on a connection that a live server has let go. -/
theorem Life.alive (h : v.Life) (hwork : v.tasks ≠ [] ∨ v.queue ≠ []) :
    v.alive = true ∨ v.server = false := by
  cases h with
  | queued h => exact Or.inl h.fresh.alive
  | announcing h => exact Or.inl h.opened.alive
  | established h => exact Or.inl h.opened.alive
  | downPending h => exact Or.inl h.closed.alive
  | closePending h => exact Or.inl h.closed.alive
  | removing h => exact Or.inl h.closed.alive
  | destroying h => exact Or.inl h.closed.alive
  | gone h => exact hwork.elim (absurd h.tasks) (absurd h.queue)
  | dropPending h => exact Or.inr h.dropping.server
  | dropTold h => exact Or.inr h.dropping.server
  | stray h => exact Or.inr h.server

theorem Life.runQuiet (h : v.Life) (halive : v.alive = true ∨ v.server = false)
    (hstate : v.conn.state ≠ .kConnecting) {op : ConnOp} (hop : op.IsQuiet) :
    Keeps v (v.run op) := by
  by_cases hyes : v.alive = true
  · obtain ⟨v', hrun, hquiet⟩ := run_quiet hyes hop
    rw [hrun]
    refine .some (h.quiet hquiet hstate) (.of_steps ?_)
    rw [hquiet.same]
  · rw [run, if_neg hyes]
    exact .none (halive.resolve_left hyes)

theorem Life.not_connecting (h : v.Life) (hwork : v.tasks ≠ []) :
    v.conn.state ≠ .kConnecting := by
  intro hstate
  obtain ⟨rest, hqueued⟩ := h.connecting hstate
  exact hwork hqueued.fresh.tasks

theorem Life.runCallback (h : v.Life) {cb : EventCallback} {rest : List ConnTask}
    (hv : v.tasks = .callback cb :: rest) (onMainLoop : Bool) (readRes : ReadvResult)
    (res : SysResult) :
    Keeps v ({ v with tasks := rest }.runTask onMainLoop readRes res (.callback cb)) := by
  have hpop := h.popTask hv (by simp)
  simp only [runTask]
  cases hop : ServerSystem.callbackOp readRes res cb with
  | none => exact .some hpop (.of_steps rfl)
  | some op =>
    have hwork : v.tasks ≠ [] := by simp [hv]
    rcases callback_cases v.conn hop with hquiet | ⟨hweight, hcloses | hreads⟩
    · exact hpop.runQuiet (h.alive (Or.inl hwork)) (h.not_connecting hwork) hquiet
    · rcases h.of_weight hv hweight with hest | hstray
      · exact hest.closes hv hweight hcloses
      · exact hstray.closes hv hcloses
    · rcases h.of_weight hv hweight with hest | hstray
      · exact hest.reads hv hweight hreads
      · exact hstray.reads hv (by simp) hreads

/-! ### Telling the user and the server -/

/-- Which stage has the rest of a function before it, and with which effect. -/
theorem Life.of_effect (h : v.Life) {e : Effect} {rest : List ConnTask}
    (hv : v.tasks = .effect e :: rest) :
    e = .connectionCallback ∧ (v.Announcing ∨ (∃ after, v.DownPending after)
        ∨ ∃ after, v.DropPending after)
      ∨ e = .messageCallback ∧ v.Established
      ∨ e = .closeCallback ∧ v.ClosePending [] rest
      ∨ e = .removeChannel ∧ v.DropTold [] rest
      ∨ ServerSystem.isCallback e = true ∧ v.Stray := by
  have hspent : ∀ {ts : List ConnTask}, Spent (.effect e :: ts) → False :=
    fun hspent => hspent.head_ne_effect e rfl
  cases h with
  | queued h => cases hv.symm.trans h.fresh.tasks
  | announcing h =>
    obtain ⟨heq, _⟩ := List.cons.inj (hv.symm.trans h.tasks)
    exact Or.inl ⟨ConnTask.effect.inj heq, Or.inl h⟩
  | established h =>
    have hplain := h.plain _ (hv ▸ List.mem_cons_self)
    refine Or.inr (Or.inl ⟨?_, h⟩)
    cases e <;> first | rfl | exact hplain.elim
  | downPending h =>
    obtain ⟨heq, _⟩ := List.cons.inj (hv.symm.trans h.tasks)
    exact Or.inl ⟨ConnTask.effect.inj heq, Or.inr (Or.inl ⟨_, h⟩)⟩
  | @closePending before after h =>
    have hshape := hv.symm.trans h.tasks
    cases before with
    | nil =>
      obtain ⟨heq, rfl⟩ := List.cons.inj hshape
      exact Or.inr (Or.inr (Or.inl ⟨ConnTask.effect.inj heq, h⟩))
    | cons u before =>
      obtain ⟨rfl, _⟩ := List.cons.inj hshape
      exact (hspent h.spent).elim
  | removing h => exact (hspent (hv ▸ h.spent)).elim
  | destroying h => exact (hspent (hv ▸ h.spent)).elim
  | gone h => cases hv.symm.trans h.tasks
  | dropPending h =>
    obtain ⟨heq, _⟩ := List.cons.inj (hv.symm.trans h.tasks)
    exact Or.inl ⟨ConnTask.effect.inj heq, Or.inr (Or.inr ⟨_, h⟩)⟩
  | @dropTold before after h =>
    have hshape := hv.symm.trans h.tasks
    cases before with
    | nil =>
      obtain ⟨heq, rfl⟩ := List.cons.inj hshape
      exact Or.inr (Or.inr (Or.inr (Or.inl ⟨ConnTask.effect.inj heq, h⟩)))
    | cons u before =>
      obtain ⟨rfl, _⟩ := List.cons.inj hshape
      cases h.before _ List.mem_cons_self
  | stray h =>
    have htask := h.tasks _ (hv ▸ List.mem_cons_self)
    exact Or.inr (Or.inr (Or.inr (Or.inr ⟨htask.2 e rfl, h⟩)))

/-- Only a living connection has more than callbacks before it. -/
theorem Life.alive_of_effect (h : v.Life) {e : Effect} {rest : List ConnTask}
    (hv : v.tasks = .effect e :: rest) (he : ServerSystem.isCallback e = false) :
    v.alive = true := by
  rcases h.of_effect hv with ⟨rfl, _⟩ | ⟨rfl, _⟩ | ⟨rfl, _⟩ | ⟨_, h⟩ | ⟨hcallback, _⟩
  · cases he
  · cases he
  · cases he
  · exact h.dropping.closed.alive
  · cases he.symm.trans hcallback

theorem Up.message {trace : List UserEvent} (h : Up trace) : Up (trace ++ [.message]) := by
  obtain ⟨n, rfl⟩ := h
  exact ⟨n + 1, by rw [List.replicate_succ']; rfl⟩

theorem Up.down {trace : List UserEvent} (h : Up trace) :
    UpDown (trace ++ [.connection false]) := by
  obtain ⟨n, rfl⟩ := h
  exact ⟨n, rfl⟩

theorem connected_of_closed {r : ConnRecord} (h : r.conn.state = .kDisconnected) :
    r.conn.connected = false := by
  simp [TcpConnection.connected, h]

theorem Announcing.tell (h : v.Announcing) :
    ({ v with tasks := [] }.announce (.connection v.conn.connected)).Established := by
  have hconnected : v.conn.connected = true := by
    simp [TcpConnection.connected, h.state]
  have hdue := h.due
  rw [h.tasks] at hdue
  refine ⟨h.opened.addEvent _, Or.inl h.state, h.steps, ?_, h.queue,
    hdue.tail_task.cons (by simp), h.removes, ?_, ?_, ?_⟩
  · exact ⟨0, by simp [announce, ConnRecord.addEvent, h.trace, hconnected]⟩
  · intro t ht
    rw [List.mem_singleton.mp ht]
    trivial
  · simp [announce, h.active, ConnTask.weight]
  · simp [announce, h.active]

theorem DownPending.tell {after : List ConnTask} (h : v.DownPending after) :
    ({ v with tasks := .effect .closeCallback :: after }.announce
      (.connection v.conn.connected)).ClosePending [.user] after := by
  have hdue := h.due
  rw [h.tasks] at hdue
  rw [connected_of_closed h.closed.state]
  exact ⟨h.closed.addEvent _, h.queue, h.active, h.steps, h.trace.down,
    hdue.tail_task.cons (by simp), h.removes, rfl, h.spent.cons trivial rfl⟩

theorem DropPending.tell {after : List ConnTask} (h : v.DropPending after) :
    ({ v with tasks := .effect .removeChannel :: after }.announce
      (.connection v.conn.connected)).DropTold [.user] after := by
  have hclosed := h.dropping.closed
  rw [connected_of_closed hclosed.state]
  exact ⟨⟨h.dropping.server, hclosed.addEvent _, h.dropping.found, h.dropping.steps,
    h.dropping.queue, h.dropping.after⟩, h.trace.down, rfl,
    by simp⟩

theorem Established.message (h : v.Established) {rest : List ConnTask}
    (hv : v.tasks = .effect .messageCallback :: rest) :
    ({ v with tasks := rest }.announce .message).Established := by
  have hdue := h.due
  have honce := h.once
  rw [hv] at hdue
  rw [hv, weight_cons] at honce
  refine { h with
    opened := h.opened.addEvent _
    trace := h.trace.message
    due := hdue.tail_task.cons (by simp)
    plain := ?_
    once := ?_ }
  · intro t ht
    rcases List.mem_cons.mp ht with rfl | hin
    · trivial
    · exact h.plain t (hv ▸ List.mem_cons_of_mem _ hin)
  · show 0 + weight rest + v.active.length ≤ 1
    omega

/-- `closeCallback_`: on the main loop the server removes the connection at once. -/
theorem ClosePending.close {after : List ConnTask} (h : v.ClosePending [] after)
    (onMainLoop : Bool) :
    Keeps v ({ v with tasks := after }.runEffect onMainLoop .closeCallback) := by
  have hspent : Spent after := h.spent
  have hdue := h.due
  rw [h.tasks] at hdue
  simp only [runEffect]
  by_cases hserver : v.server = true
  · rw [if_pos hserver]
    cases onMainLoop with
    | false =>
      rw [if_neg Bool.false_ne_true]
      refine .some (.removing { h with due := hdue.tail_task, removes := ?_, spent := hspent })
        (.of_steps rfl)
      simp [h.removes]
    | true =>
      rw [hserver] at hdue
      obtain ⟨hqueue, htasks⟩ := hdue.tail_task.none
      rw [if_pos rfl]
      refine .some (Life.destroying ⟨h.closed.addStep _, ?_, h.trace, rfl, ?_,
        h.removes, hspent, htasks, h.active⟩) ?_
      · simp [erase, ConnRecord.addStep, h.steps]
      · intro f hf
        exact ⟨fun heq => h.queue (heq ▸ hf), fun heq => hqueue (heq ▸ hf)⟩
      · intro _ hin
        simp [erase, ConnRecord.addStep, h.steps] at hin
  · rw [if_neg hserver]
    exact .none (eq_false_of_ne_true hserver)

theorem DropTold.remove {after : List ConnTask} (h : v.DropTold [] after) :
    Destroys v ({ v with tasks := after }.perform .removeChannel) := by
  have hclosed := h.dropping.closed
  have hindex : v.conn.channel.index ≠ .kNew := by simp [hclosed.index]
  refine ⟨by simp [h.dropping.steps], _, if_neg hindex,
    .stray ⟨h.dropping.server, ?_, ?_, h.dropping.queue, ?_⟩, ?_⟩
  · exact Or.inr ⟨hclosed.state, hclosed.events, Or.inl rfl⟩
  · simp [ConnRecord.addStep, ConnRecord.setChannel, h.dropping.steps]
  · intro t ht
    obtain ⟨hplain, hne⟩ := h.dropping.after t ht
    refine ⟨hne, ?_⟩
    rintro e rfl
    cases e <;> first | rfl | exact hplain.elim
  · intro _ _
    refine ⟨hclosed.alive, rfl, iff_of_true ?_ ?_⟩
    · exact ⟨hclosed.state, hclosed.events, h.trace.counts.1, h.trace.counts.2⟩
    · simp [ConnRecord.addStep, ConnRecord.setChannel, h.dropping.found]

theorem Life.removeChannel (h : v.Life) {rest : List ConnTask}
    (hv : v.tasks = .effect .removeChannel :: rest) :
    Destroys v ({ v with tasks := rest }.perform .removeChannel) := by
  rcases h.of_effect hv with ⟨he, _⟩ | ⟨he, _⟩ | ⟨he, _⟩ | ⟨_, h⟩ | ⟨he, _⟩
  · cases he
  · cases he
  · cases he
  · exact h.remove
  · cases he

theorem Stray.announce (h : v.Stray) {e : Effect} {rest : List ConnTask}
    (hv : v.tasks = .effect e :: rest) (he : e ≠ .closeCallback) (event : UserEvent) :
    ({ v with tasks := rest }.announce event).Stray := by
  refine { h with state := ?_, tasks := ?_ }
  · rcases h.state with hs | ⟨hs, hevents, hindex | hclose⟩
    · exact Or.inl hs
    · exact Or.inr ⟨hs, hevents, Or.inl hindex⟩
    · refine Or.inr ⟨hs, hevents, Or.inr (List.mem_cons_of_mem _ ?_)⟩
      rw [hv] at hclose
      exact List.mem_of_ne_of_mem (by simpa using he.symm) hclose
  · intro u hu
    rcases List.mem_cons.mp hu with rfl | hin
    · simp
    · exact h.tasks u (hv ▸ List.mem_cons_of_mem _ hin)

theorem Life.runEffect (h : v.Life) {e : Effect} {rest : List ConnTask}
    (hv : v.tasks = .effect e :: rest) (onMainLoop : Bool) :
    Keeps v ({ v with tasks := rest }.runEffect onMainLoop e) := by
  rcases h.of_effect hv with ⟨rfl, h | ⟨after, h⟩ | ⟨after, h⟩⟩ | ⟨rfl, h⟩ | ⟨rfl, h⟩ | ⟨rfl, h⟩
    | ⟨he, h⟩
  · obtain ⟨_, rfl⟩ := List.cons.inj (hv.symm.trans h.tasks)
    exact .some (.established h.tell) (.of_steps rfl)
  · obtain ⟨_, rfl⟩ := List.cons.inj (hv.symm.trans h.tasks)
    exact .some (.closePending h.tell) (.of_steps rfl)
  · obtain ⟨_, rfl⟩ := List.cons.inj (hv.symm.trans h.tasks)
    exact .some (.dropTold h.tell) (.of_steps rfl)
  · exact .some (.established (h.message hv)) (.of_steps rfl)
  · exact h.close onMainLoop
  · exact h.remove.keeps
  · cases e with
    | connectionCallback => exact .some (.stray (h.announce hv (by simp) _)) (.of_steps rfl)
    | messageCallback => exact .some (.stray (h.announce hv (by simp) _)) (.of_steps rfl)
    | closeCallback =>
      simp only [ConnView.runEffect, h.server]
      exact .none h.server
    | write _ | shutdownWrite | updateChannel | removeChannel | queueInLoop _ | assertion _ _ =>
      cases he

/-! ### `connectDestroyed` -/

/-- Established, with `connectDestroyed` called by `~TcpServer`. -/
structure Leaving (v : ConnView) : Prop where
  server : v.server = false
  opened : v.toConnRecord.Open
  state : v.conn.state = .kConnected ∨ v.conn.state = .kDisconnecting
  steps : v.steps = [.newConnection, .connectEstablished]
  trace : Up v.trace
  queue : .connectEstablished ∉ v.queue ∧ .connectDestroyed ∉ v.queue
  tasks : ∀ t ∈ v.tasks, t.IsPlain ∧ t ≠ .connectDestroyed

theorem IsPlain.callback {t : ConnTask} (h : t.IsPlain) :
    ∀ e, t = .effect e → ServerSystem.isCallback e = true := by
  rintro e rfl
  cases e <;> first | rfl | exact h.elim

theorem Leaving.run (h : v.Leaving) : Destroys v (v.run .connectDestroyed) := by
  refine ⟨by simp [h.steps], ?_⟩
  rcases h.state with hstate | hstate
  · have hrun : v.run .connectDestroyed = some { v with
        conn := { v.conn with
          state := .kDisconnected, channel := v.conn.channel.disableAll.updated }
        found := some .kConnected
        tasks := .effect .connectionCallback :: .effect .removeChannel :: v.tasks } := by
      simp [ConnView.run, h.opened.alive, TcpConnection.exec, TcpConnection.connectDestroyed,
        hstate, runEffects, perform, ServerSystem.isCallback, ConnRecord.exec,
        ConnRecord.setChannel, lifeSteps]
    refine ⟨_, hrun, .dropPending ⟨⟨h.server, ⟨h.opened.alive, rfl, ?_, rfl⟩, rfl, h.steps,
      h.queue, h.tasks⟩, h.trace, rfl⟩, .of_steps rfl⟩
    exact disableAll_closed h.opened.index
  · have hindex : v.conn.channel.index ≠ .kNew := by simp [h.opened.index]
    have hrun : v.run .connectDestroyed = some { v with
        conn := { v.conn with channel := v.conn.channel.removed }
        found := some .kDisconnecting
        steps := v.steps ++ [.connectDestroyed] } := by
      simp [ConnView.run, h.opened.alive, TcpConnection.exec, TcpConnection.connectDestroyed,
        hstate, runEffects, perform, ServerSystem.isCallback, ConnRecord.exec,
        ConnRecord.setChannel, ConnRecord.addStep, lifeSteps, hindex]
    refine ⟨_, hrun, .stray ⟨h.server, Or.inl hstate, ?_, h.queue, ?_⟩, ?_⟩
    · simp [h.steps]
    · exact fun t ht => ⟨(h.tasks t ht).2, IsPlain.callback (h.tasks t ht).1⟩
    · intro _ _
      refine ⟨h.opened.alive, rfl, iff_of_false ?_ (by simp)⟩
      intro hended
      cases hstate.symm.trans hended.state

/-- After `handleClose`, `connectDestroyed` only removes the channel. -/
theorem run_closed (h : v.toConnRecord.Closed) : v.run .connectDestroyed = some { v with
    conn := { v.conn with channel := v.conn.channel.removed }
    found := some .kDisconnected
    steps := v.steps ++ [.connectDestroyed] } := by
  have hindex : v.conn.channel.index ≠ .kNew := by simp [h.index]
  simp [run, h.alive, TcpConnection.exec, TcpConnection.connectDestroyed, h.state, runEffects,
    perform, ServerSystem.isCallback, ConnRecord.exec, ConnRecord.setChannel, ConnRecord.addStep,
    lifeSteps, hindex]

/-- After `handleClose`, with `connectDestroyed` called by `~TcpServer`. -/
theorem run_closed_stray (h : v.toConnRecord.Closed) (hserver : v.server = false)
    (hsteps : .connectDestroyed ∉ v.steps) (htrace : UpDown v.trace)
    (hqueue : .connectEstablished ∉ v.queue ∧ .connectDestroyed ∉ v.queue)
    (htasks : ∀ t ∈ v.tasks, t ≠ .connectDestroyed
      ∧ ∀ e, t = .effect e → ServerSystem.isCallback e = true) :
    Destroys v (v.run .connectDestroyed) := by
  refine ⟨hsteps, _, run_closed h, .stray ⟨hserver, Or.inr ⟨h.state, h.events, Or.inl rfl⟩, ?_,
    hqueue, htasks⟩, ?_⟩
  · simp [List.count_eq_zero.mpr hsteps]
  · intro _ _
    exact ⟨h.alive, rfl,
      iff_of_true ⟨h.state, h.events, htrace.counts.1, htrace.counts.2⟩ (by simp)⟩

theorem Established.leaving (h : v.Established) {queue : List ConnFunctor}
    {tasks : List ConnTask} (hqueue : queue ⊆ v.queue) (htasks : tasks ⊆ v.tasks)
    (hserver : v.server = false) (hlast : .connectDestroyed ∉ queue)
    (hlast' : .connectDestroyed ∉ tasks) :
    Leaving { v with queue := queue, tasks := tasks } := by
  refine ⟨hserver, h.opened, h.state, h.steps, h.trace,
    ⟨fun hin => h.queue (hqueue hin), hlast⟩, ?_⟩
  intro t ht
  refine ⟨h.plain t (htasks ht), ?_⟩
  rintro rfl
  exact hlast' ht

/-- `connectDestroyed` from the queue. -/
theorem Life.callDestroyed (h : v.Life) {rest : List ConnFunctor}
    (hv : v.queue = .connectDestroyed :: rest) (htasks : v.tasks = []) :
    Destroys v ({ v with queue := rest }.run .connectDestroyed) := by
  have hsub : rest ⊆ v.queue := fun f hf => hv ▸ List.mem_cons_of_mem _ hf
  have hmem : .connectDestroyed ∈ v.queue := hv ▸ List.mem_cons_self
  cases h with
  | queued h => cases hv.symm.trans h.queue
  | announcing h => cases htasks.symm.trans h.tasks
  | established h =>
    have hdue := h.due
    rw [hv] at hdue
    obtain ⟨hserver, hqueue, hnone⟩ := hdue.called
    exact (h.leaving hsub (List.Subset.refl _) hserver hqueue hnone).run
  | downPending h => cases htasks.symm.trans h.tasks
  | closePending h => exact absurd htasks h.tasks_ne
  | removing h =>
    have hdue := h.due
    rw [hv] at hdue
    obtain ⟨hserver, hqueue, hnone⟩ := hdue.called
    refine run_closed_stray (v := { v with queue := rest }) h.closed hserver (by simp [h.steps])
      h.trace ⟨fun hin => h.queue (hsub hin), hqueue⟩ ?_
    simp [htasks]
  | @destroying before h =>
    have hshape := hv.symm.trans h.queue
    cases before with
    | nil =>
      obtain ⟨_, rfl⟩ := List.cons.inj hshape
      refine ⟨by simp [h.steps], _, run_closed (v := { v with queue := [] }) h.closed,
        .gone ⟨h.closed.state, rfl, h.closed.events, by simp [h.steps], h.trace, rfl, h.removes,
          htasks, h.active⟩, ?_⟩
      intro _ _
      exact ⟨h.closed.alive, rfl, iff_of_true ⟨h.closed.state, h.closed.events, h.trace.counts.1,
        h.trace.counts.2⟩ (by simp)⟩
    | cons f before =>
      obtain ⟨rfl, _⟩ := List.cons.inj hshape
      exact absurd rfl (h.before _ List.mem_cons_self).2
  | gone h => cases hv.symm.trans h.queue
  | dropPending h => exact absurd hmem h.dropping.queue.2
  | dropTold h => exact absurd hmem h.dropping.queue.2
  | stray h => exact absurd hmem h.queue.2

/-- `connectDestroyed` within `~TcpServer`, on the main loop. -/
theorem Life.runDestroyed (h : v.Life) {rest : List ConnTask}
    (hv : v.tasks = .connectDestroyed :: rest) :
    Destroys v ({ v with tasks := rest }.run .connectDestroyed) := by
  have hsub : rest ⊆ v.tasks := fun t ht => hv ▸ List.mem_cons_of_mem _ ht
  have hmem : .connectDestroyed ∈ v.tasks := hv ▸ List.mem_cons_self
  cases h with
  | queued h => cases hv.symm.trans h.fresh.tasks
  | announcing h => cases hv.symm.trans h.tasks
  | established h =>
    have hdue := h.due
    rw [hv] at hdue
    obtain ⟨hserver, hqueue, hnone⟩ := hdue.called_task
    exact (h.leaving (List.Subset.refl _) hsub hserver hqueue hnone).run
  | downPending h => cases hv.symm.trans h.tasks
  | @closePending before after h =>
    have hshape := hv.symm.trans h.tasks
    have hdue := h.due
    rw [hv] at hdue
    obtain ⟨hserver, hqueue, hnone⟩ := hdue.called_task
    cases before with
    | nil => cases hshape
    | cons u before =>
      obtain ⟨rfl, rfl⟩ := List.cons.inj hshape
      refine run_closed_stray
        (v := { v with tasks := before ++ .effect .closeCallback :: after }) h.closed hserver
        (by simp [h.steps]) h.trace ⟨h.queue, hqueue⟩ ?_
      intro t ht
      refine ⟨fun heq => hnone (heq ▸ ht), ?_⟩
      have hin : t = .effect .closeCallback ∨ t ∈ before ++ after := by
        rcases List.mem_append.mp ht with hleft | hright
        · exact Or.inr (List.mem_append_left _ hleft)
        · exact (List.mem_cons.mp hright).imp_right (List.mem_append_right _)
      rcases hin with rfl | hin
      · rintro e heq
        cases heq
        rfl
      · exact IsPlain.callback (h.spent.tail.plain t hin)
  | removing h =>
    have hdue := h.due
    rw [hv] at hdue
    obtain ⟨hserver, hqueue, hnone⟩ := hdue.called_task
    refine run_closed_stray (v := { v with tasks := rest }) h.closed hserver (by simp [h.steps])
      h.trace ⟨h.queue, hqueue⟩ ?_
    intro t ht
    exact ⟨fun heq => hnone (heq ▸ ht), IsPlain.callback (h.spent.plain t (hsub ht))⟩
  | destroying h => exact absurd hmem h.undue
  | gone h => cases hv.symm.trans h.tasks
  | dropPending h => cases hv.symm.trans h.tasks
  | @dropTold before after h =>
    have hshape := hv.symm.trans h.tasks
    cases before with
    | nil => cases hshape
    | cons u before =>
      obtain ⟨rfl, _⟩ := List.cons.inj hshape
      cases h.before _ List.mem_cons_self
  | stray h => exact absurd rfl (h.tasks _ hmem).1

/-! ### The next functor, the next task -/

theorem Life.of_connectEstablished (h : v.Life) (hmem : .connectEstablished ∈ v.queue) :
    ∃ rest, v.Queued rest := by
  cases h with
  | queued h => exact ⟨_, h⟩
  | announcing h => exact absurd hmem h.queue
  | established h => exact absurd hmem h.queue
  | downPending h => exact absurd hmem h.queue
  | closePending h => exact absurd hmem h.queue
  | removing h => exact absurd hmem h.queue
  | destroying h =>
    rw [h.queue] at hmem
    rcases List.mem_append.mp hmem with hin | hin
    · exact absurd rfl (h.before _ hin).1
    · cases List.mem_singleton.mp hin
  | gone h =>
    rw [h.queue] at hmem
    cases hmem
  | dropPending h => exact absurd hmem h.dropping.queue.1
  | dropTold h => exact absurd hmem h.dropping.queue.1
  | stray h => exact absurd hmem h.queue.1

/-- A queued callback of the user begins. -/
theorem Life.pushUser (h : v.Life) (htasks : v.tasks = []) (hstate : v.conn.state ≠ .kConnecting)
    (hqueue : v.queue ≠ []) : Life { v with tasks := [.user] } := by
  have hdue : Due v.server v.queue v.tasks → Due v.server v.queue [.user] := by
    rw [htasks]
    exact fun hdue => hdue.cons (by simp)
  have hspent : Spent [ConnTask.user] := Spent.nil.cons trivial rfl
  cases h with
  | queued h => exact absurd h.fresh.state hstate
  | announcing h => cases htasks.symm.trans h.tasks
  | established h =>
    refine .established { h with due := hdue h.due, plain := hspent.plain, once := ?_ }
    have honce := h.once
    rw [htasks] at honce
    exact honce
  | downPending h => cases htasks.symm.trans h.tasks
  | closePending h => exact absurd htasks h.tasks_ne
  | removing h => exact .removing { h with due := hdue h.due, spent := hspent }
  | destroying h => exact .destroying { h with spent := hspent, undue := by simp }
  | gone h => exact absurd h.queue hqueue
  | dropPending h => cases htasks.symm.trans h.tasks
  | dropTold h => exact absurd htasks h.tasks_ne
  | stray h =>
    refine .stray { h with state := ?_, tasks := by simp }
    rcases h.state with hs | ⟨hs, hevents, hindex | hclose⟩
    · exact Or.inl hs
    · exact Or.inr ⟨hs, hevents, Or.inl hindex⟩
    · rw [htasks] at hclose
      cases hclose

/-- **The loop calls the next functor.** -/
theorem Life.runFunctor (h : v.Life) {f : ConnFunctor} {rest : List ConnFunctor}
    (hv : v.queue = f :: rest) (htasks : v.tasks = []) (res : SysResult) :
    Keeps v ({ v with queue := rest }.runFunctor res f) := by
  have hstate : f ≠ .connectEstablished → v.conn.state ≠ .kConnecting := by
    intro hne hconnecting
    obtain ⟨_, hqueued⟩ := h.connecting hconnecting
    exact hne (List.cons.inj (hv.symm.trans hqueued.queue)).1
  have hwork : v.queue ≠ [] := by simp [hv]
  cases f with
  | connectEstablished =>
    obtain ⟨rest', hqueued⟩ := h.of_connectEstablished (hv ▸ List.mem_cons_self)
    obtain ⟨_, rfl⟩ := List.cons.inj (hv.symm.trans hqueued.queue)
    obtain ⟨v', hrun, hannouncing, hsteps⟩ := hqueued.fresh.run
    simp only [ConnView.runFunctor, ConnFunctor.op, hrun]
    refine .some (.announcing hannouncing) ?_
    intro _ hin
    rw [hsteps, hqueued.fresh.steps] at hin
    simp at hin
  | connectDestroyed => exact (h.callDestroyed hv htasks).keeps
  | sendInLoop message =>
    have hpop := h.pop hv (by simp) (by simp)
    exact hpop.runQuiet (h.alive (Or.inr hwork)) (hstate (by simp)) trivial
  | shutdownInLoop =>
    have hpop := h.pop hv (by simp) (by simp)
    exact hpop.runQuiet (h.alive (Or.inr hwork)) (hstate (by simp)) trivial
  | writeComplete | highWaterMark size =>
    have hpushed := h.pushUser htasks (hstate (by simp)) hwork
    have hpop := hpushed.pop hv (by simp) (by simp)
    simp only [ConnView.runFunctor, ConnFunctor.op, htasks]
    exact .some hpop (.of_steps rfl)

/-- **The loop goes on with the next task.** -/
theorem Life.runTask (h : v.Life) {t : ConnTask} {rest : List ConnTask} (hv : v.tasks = t :: rest)
    (onMainLoop : Bool) (readRes : ReadvResult) (res : SysResult) :
    Keeps v ({ v with tasks := rest }.runTask onMainLoop readRes res t) := by
  cases t with
  | callback cb => exact h.runCallback hv onMainLoop readRes res
  | effect e => exact h.runEffect hv onMainLoop
  | connectDestroyed => exact (h.runDestroyed hv).keeps
  | user => exact .some (h.popTask hv (by simp)) (.of_steps rfl)

/-! ### Polls -/

/-- The loop polls, and reports the channel at most once. -/
theorem Life.poll (h : v.Life) (htasks : v.tasks = []) {active : List EpollEvents}
    (honce : active.length ≤ 1) (hadded : active ≠ [] → v.conn.channel.index = .kAdded)
    (heven : ∀ revents ∈ active, revents.IsOdd = false) : Life { v with active := active } := by
  have hnone : v.conn.channel.index ≠ .kAdded → active = [] := by
    intro hindex
    by_contra hsome
    exact hindex (hadded hsome)
  cases h with
  | queued h =>
    exact .queued { h with fresh := { h.fresh with
      active := hnone (h.fresh.index.trans_ne (by simp)) } }
  | announcing h => cases htasks.symm.trans h.tasks
  | established h =>
    refine .established { h with once := ?_, even := heven }
    simpa [htasks] using honce
  | downPending h => cases htasks.symm.trans h.tasks
  | closePending h => exact absurd htasks h.tasks_ne
  | removing h => exact .removing { h with active := hnone (by simp [h.closed.index]) }
  | destroying h => exact .destroying { h with active := hnone (by simp [h.closed.index]) }
  | gone h => exact .gone { h with active := hnone (by simp [h.index]) }
  | dropPending h => cases htasks.symm.trans h.tasks
  | dropTold h => exact absurd htasks h.tasks_ne
  | stray h => exact .stray { h with }

/-- An active channel is that of an established connection, unless the server is gone. -/
theorem Life.of_active (h : v.Life) (hactive : v.active ≠ []) :
    v.Established ∨ v.server = false := by
  cases h with
  | queued h => exact absurd h.fresh.active hactive
  | announcing h => exact absurd h.active hactive
  | established h => exact Or.inl h
  | downPending h => exact absurd h.active hactive
  | closePending h => exact absurd h.active hactive
  | removing h => exact absurd h.active hactive
  | destroying h => exact absurd h.active hactive
  | gone h => exact absurd h.active hactive
  | dropPending h => exact Or.inr h.dropping.server
  | dropTold h => exact Or.inr h.dropping.server
  | stray h => exact Or.inr h.server

theorem callbacks_plain {t : ConnTask} {callbacks : List EventCallback}
    (ht : t ∈ callbacks.map .callback) : ∃ cb, t = .callback cb := by
  obtain ⟨cb, _, rfl⟩ := List.mem_map.mp ht
  exact ⟨cb, rfl⟩

/-- `handleEvent`: the callbacks are the next tasks. -/
theorem Life.handleEvent (h : v.Life) (htasks : v.tasks = []) {revents : EpollEvents}
    {more : List EpollEvents} (hv : v.active = revents :: more) : Life { v with
      active := more, tasks := (Channel.handleEventWithGuard revents).map .callback } := by
  cases h with
  | established h =>
    have hone := h.once
    rw [hv, List.length_cons] at hone
    have hmore : more = [] := List.eq_nil_of_length_eq_zero (by omega)
    have hweight := weight_callbacks (h.even revents (hv ▸ List.mem_cons_self))
    refine .established { h with due := ?_, plain := ?_, once := ?_, even := ?_ }
    · have hnone : ConnTask.connectDestroyed
          ∉ (Channel.handleEventWithGuard revents).map .callback := by
        intro hin
        obtain ⟨cb, hcb⟩ := callbacks_plain hin
        cases hcb
      have hdue := h.due
      rw [htasks] at hdue
      rw [Due, List.count_eq_zero.mpr hnone]
      exact hdue
    · intro t ht
      obtain ⟨cb, rfl⟩ := callbacks_plain ht
      trivial
    · subst hmore
      exact hweight
    · simp [hmore]
  | stray h =>
    refine .stray { h with state := ?_, tasks := ?_ }
    · rcases h.state with hs | ⟨hs, hevents, hindex | hclose⟩
      · exact Or.inl hs
      · exact Or.inr ⟨hs, hevents, Or.inl hindex⟩
      · rw [htasks] at hclose
        cases hclose
    · intro t ht
      obtain ⟨cb, rfl⟩ := callbacks_plain ht
      simp
  | queued h => cases hv.symm.trans h.fresh.active
  | announcing h => cases hv.symm.trans h.active
  | downPending h => cases hv.symm.trans h.active
  | closePending h => cases hv.symm.trans h.active
  | removing h => cases hv.symm.trans h.active
  | destroying h => cases hv.symm.trans h.active
  | gone h => cases hv.symm.trans h.active
  | dropPending h => cases htasks.symm.trans h.tasks
  | dropTold h => exact absurd htasks h.tasks_ne

/-! ### What others do -/

theorem Life.connected (h : v.Life) (hstate : v.conn.state = .kConnected) :
    v.Announcing ∨ v.Established := by
  cases h with
  | queued h => cases hstate.symm.trans h.fresh.state
  | announcing h => exact Or.inl h
  | established h => exact Or.inr h
  | downPending h => cases hstate.symm.trans h.closed.state
  | closePending h => cases hstate.symm.trans h.closed.state
  | removing h => cases hstate.symm.trans h.closed.state
  | destroying h => cases hstate.symm.trans h.closed.state
  | gone h => cases hstate.symm.trans h.state
  | dropPending h => cases hstate.symm.trans h.dropping.closed.state
  | dropTold h => cases hstate.symm.trans h.dropping.closed.state
  | stray h =>
    rcases h.state with hs | hs
    · cases hstate.symm.trans hs
    · cases hstate.symm.trans hs.1

/-- The user has a pointer to the connection. -/
def Known (v : ConnView) : Prop := 0 < v.copies ∨ .user ∈ v.tasks

theorem Established.push (h : v.Established) {f : ConnFunctor} (hest : f ≠ .connectEstablished)
    (hdest : f ≠ .connectDestroyed) : Established { v with queue := v.queue ++ [f] } := by
  refine { h with queue := ?_, due := ?_ }
  · intro hin
    rcases List.mem_append.mp hin with hold | hnew
    · exact h.queue hold
    · exact hest (List.mem_singleton.mp hnew).symm
  · exact h.due.append fun hin => hdest (List.mem_singleton.mp hin).symm

/-- **The user calls `send` or `shutdown`.** -/
theorem Life.call (h : v.Life) (hknown : v.Known) (isInLoopThread : Bool) (request : Request)
    (res : SysResult) : Keeps v (v.call isInLoopThread request res) := by
  by_cases hstate : v.conn.state = .kConnected
  · have hest : v.Established := by
      rcases h.connected hstate with hann | hest
      · rcases hknown with hcopies | huser
        · rw [hann.copies] at hcopies
          cases hcopies
        · rw [hann.tasks] at huser
          simp at huser
      · exact hest
    cases request with
    | send message =>
      cases isInLoopThread with
      | true =>
        simp only [ConnView.call, Request.call, TcpConnection.send, hstate, if_true, ConnFunctor.op]
        exact h.runQuiet (Or.inl hest.opened.alive) (by simp [hstate]) trivial
      | false =>
        simp only [ConnView.call, Request.call, TcpConnection.send, hstate, if_true,
          Bool.false_eq_true, if_false, TcpConnection.runInLoop]
        exact .some (.established (hest.push (by simp) (by simp))) (.of_steps rfl)
    | shutdown =>
      have hcalled : Established { v with conn := { v.conn with state := .kDisconnecting } } :=
        { hest with
          opened := ⟨hest.opened.alive, hest.opened.index, hest.opened.reading⟩
          state := Or.inr rfl }
      cases isInLoopThread with
      | true =>
        simp only [ConnView.call, Request.call, TcpConnection.shutdown, hstate, if_true,
          TcpConnection.runInLoop, ConnFunctor.op]
        exact (Life.established hcalled).runQuiet (Or.inl hest.opened.alive) (by simp) trivial
      | false =>
        simp only [ConnView.call, Request.call, TcpConnection.shutdown, hstate, if_true,
          Bool.false_eq_true, if_false, TcpConnection.runInLoop]
        exact .some (.established (hcalled.push (by simp) (by simp))) (.of_steps rfl)
  · have hnothing : request.call v.conn isInLoopThread = (v.conn, .nothing) := by
      cases request <;> simp [Request.call, TcpConnection.send, TcpConnection.shutdown, hstate]
    simp only [ConnView.call, hnothing]
    exact .some h (.of_steps rfl)

theorem Life.setCopies (h : v.Life) (hknown : v.Known) (copies : Nat) :
    Life { v with copies := copies } := by
  cases h with
  | queued h =>
    rcases hknown with hcopies | huser
    · exact absurd (h.fresh.copies ▸ hcopies : 0 < 0) (Nat.lt_irrefl 0)
    · rw [show v.tasks = [] from h.fresh.tasks] at huser
      cases huser
  | announcing h =>
    rcases hknown with hcopies | huser
    · exact absurd (h.copies ▸ hcopies : 0 < 0) (Nat.lt_irrefl 0)
    · rw [h.tasks] at huser
      simp at huser
  | established h => exact .established { h with }
  | downPending h => exact .downPending { h with }
  | closePending h => exact .closePending { h with }
  | removing h => exact .removing { h with }
  | destroying h => exact .destroying { h with }
  | gone h => exact .gone { h with }
  | dropPending h => exact .dropPending { h with dropping := { h.dropping with } }
  | dropTold h => exact .dropTold { h with dropping := { h.dropping with } }
  | stray h => exact .stray { h with }

/-- **The main loop calls `removeConnectionInLoop`.** -/
theorem Life.erase (h : v.Life) (hserver : v.server = true) {n : Nat}
    (hremoves : v.removes = n + 1) : Keeps v (some { v with removes := n }.erase) := by
  cases h with
  | removing h =>
    have hdue := h.due
    rw [hserver] at hdue
    obtain ⟨hqueue, htasks⟩ := hdue.none
    have hn : n = 0 := by
      have hone := hremoves.symm.trans h.removes
      omega
    refine .some (Life.destroying ⟨h.closed.addStep _, ?_, h.trace, rfl, ?_, hn,
      h.spent, htasks, h.active⟩) ?_
    · simp [ConnView.erase, ConnRecord.addStep, h.steps]
    · intro f hf
      exact ⟨fun heq => h.queue (heq ▸ hf), fun heq => hqueue (heq ▸ hf)⟩
    · intro _ hin
      simp [ConnView.erase, ConnRecord.addStep, h.steps] at hin
  | queued h => cases hremoves.symm.trans h.fresh.removes
  | announcing h => cases hremoves.symm.trans h.removes
  | established h => cases hremoves.symm.trans h.removes
  | downPending h => cases hremoves.symm.trans h.removes
  | closePending h => cases hremoves.symm.trans h.removes
  | destroying h => cases hremoves.symm.trans h.removes
  | gone h => cases hremoves.symm.trans h.removes
  | dropPending h => cases hserver.symm.trans h.dropping.server
  | dropTold h => cases hserver.symm.trans h.dropping.server
  | stray h => cases hserver.symm.trans h.server

/-- The server is destroyed, and does not know the connection any more. -/
theorem Life.orphan (h : v.Life) (hserver : v.server = true) : Life { v with server := false } := by
  have hdue : Due v.server v.queue v.tasks → Due false v.queue v.tasks := by
    rw [hserver]
    exact fun hdue => hdue.destroyServer.1
  cases h with
  | queued h =>
    have hfresh : Due v.server _ v.tasks := h.fresh.due
    rw [hserver] at hfresh
    exact .queued { h with fresh := { h.fresh with due := hfresh.destroyServer.1 } }
  | announcing h => exact .announcing { h with due := hdue h.due }
  | established h => exact .established { h with due := hdue h.due }
  | downPending h => exact .downPending { h with due := hdue h.due }
  | closePending h => exact .closePending { h with due := hdue h.due }
  | removing h => exact .removing { h with due := hdue h.due }
  | destroying h => exact .destroying { h with }
  | gone h => exact .gone { h with }
  | dropPending h => cases hserver.symm.trans h.dropping.server
  | dropTold h => cases hserver.symm.trans h.dropping.server
  | stray h => cases hserver.symm.trans h.server

/-- `~TcpServer` queues `connectDestroyed`. -/
theorem Life.queueDestroyed (h : v.Life) (hserver : v.server = true)
    (hlisted : .removeConnectionInLoop ∉ v.steps) :
    Life { v with server := false, queue := v.queue ++ [.connectDestroyed] } := by
  have hdue : Due v.server v.queue v.tasks →
      Due false (v.queue ++ [.connectDestroyed]) v.tasks := by
    rw [hserver]
    exact fun hdue => hdue.destroyServer.2.1
  have hqueue : .connectEstablished ∉ v.queue →
      .connectEstablished ∉ v.queue ++ [.connectDestroyed] := by
    intro hnot hin
    rcases List.mem_append.mp hin with hold | hnew
    · exact hnot hold
    · cases List.mem_singleton.mp hnew
  cases h with
  | @queued rest h =>
    have hfresh : Due v.server rest v.tasks := h.fresh.due
    have hnot : .connectEstablished ∉ rest := h.fresh.queue
    rw [hserver] at hfresh
    refine .queued ⟨h.away, ?_, { h.fresh with
      queue := ?_, due := hfresh.destroyServer.2.1 }⟩
    · rw [h.queue, List.cons_append]
    · intro hin
      rcases List.mem_append.mp hin with hold | hnew
      · exact hnot hold
      · cases List.mem_singleton.mp hnew
  | announcing h => exact .announcing { h with queue := hqueue h.queue, due := hdue h.due }
  | established h => exact .established { h with queue := hqueue h.queue, due := hdue h.due }
  | downPending h => exact .downPending { h with queue := hqueue h.queue, due := hdue h.due }
  | closePending h => exact .closePending { h with queue := hqueue h.queue, due := hdue h.due }
  | removing h => exact .removing { h with queue := hqueue h.queue, due := hdue h.due }
  | destroying h => exact absurd (by simp [h.steps]) hlisted
  | gone h => exact absurd (by simp [h.steps]) hlisted
  | dropPending h => cases hserver.symm.trans h.dropping.server
  | dropTold h => cases hserver.symm.trans h.dropping.server
  | stray h => cases hserver.symm.trans h.server

/-- `~TcpServer` runs `connectDestroyed` next, on the main loop. -/
theorem Life.pushDestroyed (h : v.Life) (hserver : v.server = true)
    (hlisted : .removeConnectionInLoop ∉ v.steps) (hloop : v.conn.loop = mainLoop)
    (hclear : .effect .connectionCallback ∉ v.tasks) :
    Life { v with server := false, tasks := .connectDestroyed :: v.tasks } := by
  have hdue : Due v.server v.queue v.tasks → Due false v.queue (.connectDestroyed :: v.tasks) := by
    rw [hserver]
    exact fun hdue => hdue.destroyServer.2.2
  cases h with
  | queued h => exact absurd hloop h.away
  | announcing h => exact absurd (by simp [h.tasks]) hclear
  | established h =>
    refine .established { h with due := hdue h.due, plain := ?_, once := ?_ }
    · exact List.forall_mem_cons.mpr ⟨trivial, h.plain⟩
    · show 0 + weight v.tasks + v.active.length ≤ 1
      rw [Nat.zero_add]
      exact h.once
  | downPending h => exact absurd (by simp [h.tasks]) hclear
  | @closePending before after h =>
    have htasks : .connectDestroyed :: v.tasks
        = (.connectDestroyed :: before) ++ .effect .closeCallback :: after := by
      rw [h.tasks, List.cons_append]
    exact .closePending { h with
      due := hdue h.due, tasks := htasks, spent := h.spent.cons trivial rfl }
  | removing h =>
    exact .removing { h with due := hdue h.due, spent := h.spent.cons trivial rfl }
  | destroying h => exact absurd (by simp [h.steps]) hlisted
  | gone h => exact absurd (by simp [h.steps]) hlisted
  | dropPending h => cases hserver.symm.trans h.dropping.server
  | dropTold h => cases hserver.symm.trans h.dropping.server
  | stray h => cases hserver.symm.trans h.server

/-- No loop has anything to do for the connection that keeps it alive. -/
structure Idle (v : ConnView) : Prop where
  tasks : v.tasks = []
  removes : v.removes = 0
  queue : .connectEstablished ∉ v.queue ∧ .connectDestroyed ∉ v.queue

/-- **A closed connection that nothing keeps alive is at its end.** -/
theorem Life.of_idle (h : v.Life) (hidle : v.Idle) (hstate : v.conn.state = .kDisconnected) :
    v.conn.channel.index = .kNew ∧ Life { v with alive := false } := by
  cases h with
  | queued h => cases hstate.symm.trans h.fresh.state
  | announcing h => cases hstate.symm.trans h.state
  | established h => rcases h.state with hs | hs <;> cases hstate.symm.trans hs
  | downPending h => cases hidle.tasks.symm.trans h.tasks
  | closePending h => exact absurd hidle.tasks h.tasks_ne
  | removing h => cases hidle.removes.symm.trans h.removes
  | destroying h => exact absurd (by simp [h.queue]) hidle.queue.2
  | gone h => exact ⟨h.index, .gone { h with }⟩
  | dropPending h => cases hidle.tasks.symm.trans h.tasks
  | dropTold h => exact absurd hidle.tasks h.tasks_ne
  | stray h =>
    refine ⟨?_, .stray { h with }⟩
    rcases h.state with hs | ⟨_, _, hindex | hclose⟩
    · cases hstate.symm.trans hs
    · exact hindex
    · rw [hidle.tasks] at hclose
      cases hclose

/-- **With a live server only an established connection can be idle and not closed.** -/
theorem Life.established_of_idle (h : v.Life) (hidle : v.Idle) (hserver : v.server = true)
    (hstate : v.conn.state ≠ .kDisconnected) : v.Established := by
  cases h with
  | queued h => exact absurd (by simp [h.queue]) hidle.queue.1
  | announcing h => cases hidle.tasks.symm.trans h.tasks
  | established h => exact h
  | downPending h => exact absurd h.closed.state hstate
  | closePending h => exact absurd h.closed.state hstate
  | removing h => exact absurd h.closed.state hstate
  | destroying h => exact absurd h.closed.state hstate
  | gone h => exact absurd h.state hstate
  | dropPending h => exact absurd h.dropping.closed.state hstate
  | dropTold h => exact absurd h.dropping.closed.state hstate
  | stray h => cases hserver.symm.trans h.server

/-! ### What a life looks like -/

/-- With a live server, a connection goes down the main road. -/
theorem Life.steps (h : v.Life) (hserver : v.server = true) :
    v.steps <+: [.newConnection, .connectEstablished, .handleClose, .removeConnectionInLoop,
      .connectDestroyed] := by
  cases h with
  | queued h => exact ⟨_, by rw [show v.steps = _ from h.fresh.steps]; rfl⟩
  | announcing h => exact ⟨_, by rw [h.steps]; rfl⟩
  | established h => exact ⟨_, by rw [h.steps]; rfl⟩
  | downPending h => exact ⟨_, by rw [h.steps]; rfl⟩
  | closePending h => exact ⟨_, by rw [h.steps]; rfl⟩
  | removing h => exact ⟨_, by rw [h.steps]; rfl⟩
  | destroying h => exact ⟨_, by rw [h.steps]; rfl⟩
  | gone h => exact ⟨[], by rw [h.steps]; rfl⟩
  | dropPending h => cases hserver.symm.trans h.dropping.server
  | dropTold h => cases hserver.symm.trans h.dropping.server
  | stray h => cases hserver.symm.trans h.server

theorem Up.starts {trace : List UserEvent} (h : Up trace) :
    ∃ n, trace <+: .connection true :: List.replicate n .message ++ [.connection false] := by
  obtain ⟨n, rfl⟩ := h
  exact ⟨n, _, rfl⟩

theorem UpDown.starts {trace : List UserEvent} (h : UpDown trace) :
    ∃ n, trace <+: .connection true :: List.replicate n .message ++ [.connection false] := by
  obtain ⟨n, rfl⟩ := h
  exact ⟨n, List.prefix_refl _⟩

theorem Life.trace (h : v.Life) (hserver : v.server = true) :
    ∃ n, v.trace <+: .connection true :: List.replicate n .message ++ [.connection false] := by
  cases h with
  | queued h => exact ⟨0, by rw [show v.trace = [] from h.fresh.trace]; exact List.nil_prefix⟩
  | announcing h => exact ⟨0, by rw [h.trace]; exact List.nil_prefix⟩
  | established h => exact h.trace.starts
  | downPending h => exact h.trace.starts
  | closePending h => exact h.trace.starts
  | removing h => exact h.trace.starts
  | destroying h => exact h.trace.starts
  | gone h => exact h.trace.starts
  | dropPending h => cases hserver.symm.trans h.dropping.server
  | dropTold h => cases hserver.symm.trans h.dropping.server
  | stray h => cases hserver.symm.trans h.server

end ConnView

end Ymuduo
