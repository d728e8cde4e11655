/-
  Ymuduo/CallOrder.lean
  =====================
  **The order in which calls of `send` and `shutdown` take effect.**

  Every thread calls `send` and `shutdown` on one connection; a call is several
  steps (the test of `state_`, the store of `kDisconnecting`, the dispatch by
  `runInLoop`, the `wakeup()`).  Calls from other threads take effect in the order
  of the functor queue.  On the loop thread `runInLoop` runs its functor within the
  call, as `EventLoop.h` documents, and so overtakes what is queued.

  `call_order` is what holds for every interleaving; `overtaking` are two runs in
  which the loop thread overtakes a queued `send`.  Nothing is said here of when
  `handleWrite` may half-close.
-/
import Ymuduo.HalfClose

namespace Ymuduo

structure Call where
  number : Nat
  caller : Caller
  request : Request
deriving DecidableEq, Repr

inductive CallPc where
  | idle
  | entered (c : Call)        -- before the test of `state_`
  | storing (c : Call)        -- in `shutdown`, before `setState(kDisconnecting)`
  | dispatching (c : Call)    -- before `runInLoop`
  | waking (c : Call)         -- after the push, before `wakeup()`
deriving DecidableEq, Repr

def CallPc.call : CallPc → Option Call
  | .idle => none
  | .entered c | .storing c | .dispatching c | .waking c => some c

/-- What happens on the loop thread: the `sendInLoop` or `shutdownInLoop` of a call
    runs, `SHUT_WR` is issued, another functor is called. -/
inductive LogEntry where
  | took (c : Call)
  | shutdownWrite
  | other
deriving DecidableEq, Repr

/-- The functor that an entry of the log is the call of. -/
def LogEntry.functor : LogEntry → Option (Option Call)
  | .took c => if c.caller = none then none else some (some c)
  | .shutdownWrite => none
  | .other => some none

/-- A functor of the queue is the one of a call, or another one (`none`).  `returned`
    are the `send`s that found `kConnected` and have returned; `ordered` has `(m, c)`
    when such a `send` `m` had returned before `c` began. -/
structure CallSystem where
  loop : LoopSystem Unit (Option Call)
  conn : TcpConnection
  pc : Caller → CallPc
  next : Nat
  returned : List Call
  ordered : List (Call × Call)
  log : List LogEntry

/-- `handler` is what the loop thread runs on the connection besides the calls. -/
inductive CallAct where
  | loop (a : LoopAct Unit (Option Call))
  | call (who : Caller) (request : Request)
  | load (who : Caller)
  | store (who : Caller)
  | dispatch (who : Caller) (res : SysResult)
  | wakeup (t : ThreadId)
  | callFunctor (res : SysResult)
  | handler (op : ConnOp)
deriving DecidableEq, Repr

/-- The member function that a request comes down to. -/
def Request.op (res : SysResult) : Request → ConnOp
  | .send message => .sendInLoop message res
  | .shutdown => .shutdownInLoop

/-- A call as a list, if it is a `send`. -/
def Call.ifSend (c : Call) : List Call :=
  match c.request with
  | .send _ => [c]
  | .shutdown => []

def shutdownWrites (effects : List Effect) : List LogEntry :=
  (effects.filter (· = .shutdownWrite)).map fun _ => .shutdownWrite

namespace CallSystem

def start (conn : TcpConnection) : CallSystem where
  loop := .start
  conn := conn
  pc := fun _ => .idle
  next := 0
  returned := []
  ordered := []
  log := []

/-- The thread that takes the action is in no call of the connection. -/
def OutsideCalls (s : CallSystem) : LoopAct Unit (Option Call) → Prop
  | .advance _ | .selfPush _ | .selfWakeup | .selfQuit => s.pc none = .idle
  | .push t _ | .wakeup t | .quit t => s.pc (some t) = .idle

instance (s : CallSystem) : (a : LoopAct Unit (Option Call)) → Decidable (s.OutsideCalls a)
  | .advance _ | .selfPush _ | .selfWakeup | .selfQuit =>
    inferInstanceAs (Decidable (s.pc none = .idle))
  | .push t _ | .wakeup t | .quit t => inferInstanceAs (Decidable (s.pc (some t) = .idle))

/-- The functors that an action of the loop pushes and calls belong to no call. -/
def OtherFunctors (s : CallSystem) (a : LoopAct Unit (Option Call)) : Prop :=
  ∀ f ∈ LoopSystem.pushes a ++ s.loop.calls a, f = none

instance (s : CallSystem) (a : LoopAct Unit (Option Call)) : Decidable (s.OtherFunctors a) :=
  inferInstanceAs (Decidable (∀ _ ∈ _, _))

def setPc (s : CallSystem) (who : Caller) (pc : CallPc) : CallSystem :=
  { s with pc := Function.update s.pc who pc }

/-- Run an operation on the connection, after logging `entries`. -/
def exec (s : CallSystem) (entries : List LogEntry) (op : ConnOp) : CallSystem :=
  { s with
    conn := (s.conn.exec op).1
    log := s.log ++ entries ++ shutdownWrites (s.conn.exec op).2 }

def step (s : CallSystem) : CallAct → Option CallSystem
  | .loop a =>
    if s.OutsideCalls a ∧ s.OtherFunctors a then
      (s.loop.step a).map fun l =>
        { s with loop := l, log := s.log ++ (s.loop.calls a).map fun _ => .other }
    else none
  | .call who request =>
    if s.pc who = .idle ∧ (who = none → s.loop.InUserCode) then
      let c : Call := ⟨s.next, who, request⟩
      some { s.setPc who (.entered c) with
        next := s.next + 1
        ordered := s.ordered ++ s.returned.map (·, c) }
    else none
  | .load who =>
    match s.pc who with
    | .entered c =>
      if s.conn.state = .kConnected then
        match c.request with
        | .send _ => some (s.setPc who (.dispatching c))
        | .shutdown => some (s.setPc who (.storing c))
      else some (s.setPc who .idle)
    | _ => none
  | .store who =>
    match s.pc who with
    | .storing c =>
      some { s.setPc who (.dispatching c) with conn := { s.conn with state := .kDisconnecting } }
    | _ => none
  | .dispatch who res =>
    match s.pc who with
    | .dispatching c =>
      match who with
      | none =>
        some { (s.exec [.took c] (c.request.op res)).setPc none .idle with
          returned := s.returned ++ c.ifSend }
      | some t =>
        (s.loop.step (.push t (some c))).map fun l =>
          { s.setPc (some t) (.waking c) with loop := l }
    | _ => none
  | .wakeup t =>
    match s.pc (some t) with
    | .waking c =>
      (s.loop.step (.wakeup t)).map fun l =>
        { s.setPc (some t) .idle with loop := l, returned := s.returned ++ c.ifSend }
    | _ => none
  | .callFunctor res =>
    match s.loop.loop.functors with
    | some c :: _ =>
      if s.pc none = .idle then
        (s.loop.step (.advance .callFunctor)).map fun l =>
          { s.exec [.took c] (c.request.op res) with loop := l }
      else none
    | _ => none
  | .handler op =>
    if s.pc none = .idle ∧ s.loop.InUserCode ∧ op.IsHandler s.conn then some (s.exec [] op)
    else none

/-! ### The invariant -/

/-- A call that has begun, so that its number is taken. -/
def Seen (s : CallSystem) (c : Call) : Prop :=
  some c ∈ s.loop.pushed ∨ .took c ∈ s.log ∨ ∃ who, (s.pc who).call = some c

/-- A `send` that has returned: from the loop thread it has taken effect, ahead of any
    `SHUT_WR`, from another thread its functor has been pushed. -/
def Done (s : CallSystem) (m : Call) : Prop :=
  (m.caller = none → .took m ∈ s.log ∧ Precedes (.took m) .shutdownWrite s.log)
    ∧ (m.caller ≠ none → some m ∈ s.loop.pushed)

/-- `m` is ahead of `c`, in the log if it came from the loop thread, else in the queue. -/
def Ahead (s : CallSystem) (m c : Call) : Prop :=
  (m.caller = none → Precedes (.took m) (.took c) s.log)
    ∧ (m.caller ≠ none → Precedes (some m) (some c) s.loop.pushed)

/-- A half-close has been issued, or is on its way. -/
def HalfClosing (s : CallSystem) : Prop :=
  .shutdownWrite ∈ s.log ∨ (∃ c, some c ∈ s.loop.pushed ∧ c.request = .shutdown)
    ∨ ∃ who c, s.pc who = .dispatching c ∧ c.request = .shutdown

structure Inv (s : CallSystem) : Prop where
  queue : s.loop.Inv
  executed : s.log.filterMap LogEntry.functor = s.loop.executed
  fresh : ∀ c, s.Seen c → c.number < s.next
  caller : ∀ who c, (s.pc who).call = some c → c.caller = who
  pushed_caller : ∀ c, some c ∈ s.loop.pushed → c.caller ≠ none
  storing : ∀ who c, s.pc who = .storing c → c.request = .shutdown
  waking : ∀ who c, s.pc who = .waking c → some c ∈ s.loop.pushed
  returned : ∀ m ∈ s.returned, s.Done m
  ordered : ∀ m c, (m, c) ∈ s.ordered → s.Done m ∧ s.Ahead m c
  halfClosing : s.HalfClosing → StateE.kDisconnecting.rank ≤ s.conn.state.rank
  accepted : ∀ c, s.pc none = .dispatching c → c.request ≠ .shutdown → .shutdownWrite ∉ s.log

theorem Inv.start (conn : TcpConnection) : (start conn).Inv where
  queue := .start
  executed := rfl
  fresh := by simp [Seen, CallSystem.start, LoopSystem.start, CallPc.call]
  caller := by simp [CallSystem.start, CallPc.call]
  pushed_caller := by simp [CallSystem.start, LoopSystem.start]
  storing := by simp [CallSystem.start]
  waking := by simp [CallSystem.start]
  returned := by simp [CallSystem.start]
  ordered := by simp [CallSystem.start]
  halfClosing := by simp [HalfClosing, CallSystem.start, LoopSystem.start]
  accepted := by simp [CallSystem.start]

/-- The records only grow. -/
def Grows (s t : CallSystem) : Prop := s.loop.pushed <+: t.loop.pushed ∧ s.log <+: t.log

theorem Done.grow {s t : CallSystem} {m : Call} (h : s.Done m) (hgrow : s.Grows t) :
    t.Done m := by
  constructor
  · intro hself
    obtain ⟨htook, hfirst⟩ := h.1 hself
    exact ⟨hgrow.2.subset htook, hfirst.extend htook hgrow.2⟩
  · intro hother
    exact hgrow.1.subset (h.2 hother)

theorem Ahead.grow {s t : CallSystem} {m c : Call} (h : s.Ahead m c) (hdone : s.Done m)
    (hgrow : s.Grows t) : t.Ahead m c := by
  constructor
  · intro hself
    exact (h.1 hself).extend (hdone.1 hself).1 hgrow.2
  · intro hother
    exact (h.2 hother).extend (hdone.2 hother) hgrow.1

theorem Inv.ordered_grow {s t : CallSystem} (h : s.Inv) (hgrow : s.Grows t) {m c : Call}
    (hmem : (m, c) ∈ s.ordered) : t.Done m ∧ t.Ahead m c :=
  ⟨(h.ordered m c hmem).1.grow hgrow, (h.ordered m c hmem).2.grow (h.ordered m c hmem).1 hgrow⟩

theorem filterMap_other {functors : List (Option Call)} (h : ∀ f ∈ functors, f = none) :
    (functors.map fun _ => LogEntry.other).filterMap LogEntry.functor = functors := by
  induction functors with
  | nil => rfl
  | cons f functors ih =>
    rw [h f List.mem_cons_self]
    simp only [List.map_cons, List.filterMap_cons, LogEntry.functor]
    rw [ih fun g hg => h g (List.mem_cons_of_mem _ hg)]

/-- Functors of no call come and go. -/
theorem Inv.loop {s t : CallSystem} {a : LoopAct Unit (Option Call)} (h : s.Inv)
    (hstep : CallSystem.step s (.loop a) = some t) : t.Inv := by
  simp only [CallSystem.step, Option.ite_none_right_eq_some] at hstep
  obtain ⟨⟨_, hother⟩, hstep⟩ := hstep
  obtain ⟨l, hl, rfl⟩ := Option.map_eq_some_iff.mp hstep
  have hqueues := h.queue.queues hl
  have hpushed : ∀ c, some c ∈ l.pushed → some c ∈ s.loop.pushed := by
    intro c hc
    rw [hqueues.pushed] at hc
    rcases List.mem_append.mp hc with hold | hnew
    · exact hold
    · cases hother _ (List.mem_append_left _ hnew)
  have hlog : ∀ e, e ≠ .other →
      e ∈ s.log ++ (s.loop.calls a).map (fun _ => LogEntry.other) → e ∈ s.log := by
    intro e he hmem
    rcases List.mem_append.mp hmem with hold | hnew
    · exact hold
    · obtain ⟨_, _, rfl⟩ := List.mem_map.mp hnew
      exact absurd rfl he
  have hgrow : s.Grows { s with
      loop := l, log := s.log ++ (s.loop.calls a).map fun _ => .other } :=
    ⟨hqueues.pushed ▸ List.prefix_append _ _, List.prefix_append _ _⟩
  constructor
  · exact h.queue.step hl
  · rw [List.filterMap_append, h.executed,
      filterMap_other fun f hf => hother f (List.mem_append_right _ hf), hqueues.executed]
  · intro c hc
    apply h.fresh
    exact hc.imp (hpushed c) (Or.imp_left (hlog _ (by simp)))
  · exact h.caller
  · exact fun c hc => h.pushed_caller c (hpushed c hc)
  · exact h.storing
  · exact fun who c hc => hgrow.1.subset (h.waking who c hc)
  · exact fun m hm => (h.returned m hm).grow hgrow
  · exact fun m c hmc => h.ordered_grow hgrow hmc
  · intro hclosing
    apply h.halfClosing
    exact hclosing.imp (hlog _ (by simp))
      (Or.imp_left fun ⟨c, hc, hrequest⟩ => ⟨c, hpushed c hc, hrequest⟩)
  · exact fun c hc hrequest hmem => h.accepted c hc hrequest (hlog _ (by simp) hmem)

/-- What `setPc` does to the calls in progress. -/
theorem call_setPc {s : CallSystem} {who u : Caller} {pc : CallPc} {c : Call}
    (h : ((s.setPc who pc).pc u).call = some c) :
    u = who ∧ pc.call = some c ∨ (s.pc u).call = some c := by
  by_cases hu : u = who
  · subst hu
    left
    exact ⟨rfl, by simpa [setPc] using h⟩
  · right
    simpa [setPc, hu] using h

theorem eq_of_setPc {s : CallSystem} {who u : Caller} {pc pc' : CallPc}
    (h : (s.setPc who pc).pc u = pc') : u = who ∧ pc = pc' ∨ s.pc u = pc' := by
  by_cases hu : u = who
  · subst hu
    left
    exact ⟨rfl, by simpa [setPc] using h⟩
  · right
    simpa [setPc, hu] using h

/-- A call begins: what has returned before is ahead of it, for it is nowhere yet. -/
theorem Inv.call {s t : CallSystem} {who : Caller} {request : Request} (h : s.Inv)
    (hstep : CallSystem.step s (.call who request) = some t) : t.Inv := by
  simp only [CallSystem.step, Option.ite_none_right_eq_some, Option.some.injEq] at hstep
  obtain ⟨_, rfl⟩ := hstep
  have hnew : ¬ s.Seen ⟨s.next, who, request⟩ :=
    fun hseen => Nat.lt_irrefl _ (h.fresh _ hseen)
  constructor
  · exact h.queue
  · exact h.executed
  · rintro c (hpushed | htook | ⟨u, hu⟩)
    · exact Nat.lt_succ_of_lt (h.fresh c (Or.inl hpushed))
    · exact Nat.lt_succ_of_lt (h.fresh c (Or.inr (Or.inl htook)))
    · rcases call_setPc hu with ⟨_, hc⟩ | hold
      · cases hc
        exact Nat.lt_succ_self _
      · exact Nat.lt_succ_of_lt (h.fresh c (Or.inr (Or.inr ⟨u, hold⟩)))
  · intro u c hu
    rcases call_setPc hu with ⟨rfl, hc⟩ | hold
    · cases hc
      rfl
    · exact h.caller u c hold
  · exact h.pushed_caller
  · intro u c hu
    rcases eq_of_setPc hu with ⟨_, hc⟩ | hold
    · cases hc
    · exact h.storing u c hold
  · intro u c hu
    rcases eq_of_setPc hu with ⟨_, hc⟩ | hold
    · cases hc
    · exact h.waking u c hold
  · exact h.returned
  · intro m c hmc
    rcases List.mem_append.mp hmc with hold | hbegin
    · exact h.ordered m c hold
    · obtain ⟨m', hm', heq⟩ := List.mem_map.mp hbegin
      cases heq
      refine ⟨h.returned m hm', ?_, ?_⟩
      · intro _
        exact precedes_of_not_mem fun htook => hnew (Or.inr (Or.inl htook))
      · intro _
        exact precedes_of_not_mem fun hpushed => hnew (Or.inl hpushed)
  · intro hclosing
    apply h.halfClosing
    refine hclosing.imp_right (Or.imp_right ?_)
    rintro ⟨u, c, hu, hrequest⟩
    rcases eq_of_setPc hu with ⟨_, hc⟩ | hold
    · cases hc
    · exact ⟨u, c, hold, hrequest⟩
  · intro c hu
    rcases eq_of_setPc hu with ⟨_, hc⟩ | hold
    · cases hc
    · exact h.accepted c hold

/-- A thread moves on inside its call, without a trace outside it. -/
theorem Inv.setPc {s : CallSystem} {who : Caller} {pc : CallPc} (h : s.Inv)
    (hcall : ∀ c, pc.call = some c → (s.pc who).call = some c)
    (hstoring : ∀ c, pc = .storing c → c.request = .shutdown)
    (hwaking : ∀ c, pc = .waking c → some c ∈ s.loop.pushed)
    (hdispatching : ∀ c, pc = .dispatching c → c.request = .shutdown →
      StateE.kDisconnecting.rank ≤ s.conn.state.rank)
    (haccepted : ∀ c, pc = .dispatching c → c.request ≠ .shutdown → .shutdownWrite ∉ s.log) :
    (s.setPc who pc).Inv := by
  constructor
  · exact h.queue
  · exact h.executed
  · rintro c (hpushed | htook | ⟨u, hu⟩)
    · exact h.fresh c (Or.inl hpushed)
    · exact h.fresh c (Or.inr (Or.inl htook))
    · rcases call_setPc hu with ⟨_, hc⟩ | hold
      · exact h.fresh c (Or.inr (Or.inr ⟨who, hcall c hc⟩))
      · exact h.fresh c (Or.inr (Or.inr ⟨u, hold⟩))
  · intro u c hu
    rcases call_setPc hu with ⟨rfl, hc⟩ | hold
    · exact h.caller u c (hcall c hc)
    · exact h.caller u c hold
  · exact h.pushed_caller
  · intro u c hu
    rcases eq_of_setPc hu with ⟨_, hc⟩ | hold
    · exact hstoring c hc
    · exact h.storing u c hold
  · intro u c hu
    rcases eq_of_setPc hu with ⟨_, hc⟩ | hold
    · exact hwaking c hc
    · exact h.waking u c hold
  · exact h.returned
  · exact h.ordered
  · rintro (hlog | hpushed | ⟨u, c, hu, hrequest⟩)
    · exact h.halfClosing (Or.inl hlog)
    · exact h.halfClosing (Or.inr (Or.inl hpushed))
    · rcases eq_of_setPc hu with ⟨_, hc⟩ | hold
      · exact hdispatching c hc hrequest
      · exact h.halfClosing (Or.inr (Or.inr ⟨u, c, hold, hrequest⟩))
  · intro c hu
    rcases eq_of_setPc hu with ⟨_, hc⟩ | hold
    · exact haccepted c hc
    · exact h.accepted c hold

theorem Inv.load {s t : CallSystem} {who : Caller} (h : s.Inv)
    (hstep : CallSystem.step s (.load who) = some t) : t.Inv := by
  simp only [CallSystem.step] at hstep
  split at hstep
  · rename_i c hpc
    have hcall : (s.pc who).call = some c := by rw [hpc]; rfl
    split at hstep
    · rename_i hstate
      split at hstep
      · rename_i message hrequest
        cases hstep
        refine h.setPc ?_ (by simp) (by simp) ?_ ?_
        · rintro c' ⟨⟩
          exact hcall
        · rintro c' ⟨⟩ hshutdown
          rw [hrequest] at hshutdown
          cases hshutdown
        · rintro c' ⟨⟩ _ hmem
          -- `state_` is `kConnected`: no half-close has been issued yet
          have hrank := h.halfClosing (Or.inl hmem)
          rw [hstate] at hrank
          exact absurd hrank (by decide)
      · rename_i hrequest
        cases hstep
        refine h.setPc ?_ ?_ (by simp) (by simp) (by simp)
        · rintro c' ⟨⟩
          exact hcall
        · rintro c' ⟨⟩
          exact hrequest
    · cases hstep
      exact h.setPc (by simp [CallPc.call]) (by simp) (by simp) (by simp) (by simp)
  · cases hstep

theorem Inv.store {s t : CallSystem} {who : Caller} (h : s.Inv)
    (hstep : CallSystem.step s (.store who) = some t) : t.Inv := by
  simp only [CallSystem.step] at hstep
  split at hstep
  · rename_i c hpc
    cases hstep
    have hstored : Inv { s with conn := { s.conn with state := .kDisconnecting } } :=
      { h with halfClosing := fun _ => Nat.le_refl _ }
    refine hstored.setPc ?_ (by simp) (by simp) (fun _ _ _ => Nat.le_refl _) ?_
    · rintro c' ⟨⟩
      simp [hpc, CallPc.call]
    · rintro c' ⟨⟩ hrequest
      exact absurd (h.storing who c hpc) hrequest
  · cases hstep

theorem filterMap_shutdownWrites (effects : List Effect) :
    (shutdownWrites effects).filterMap LogEntry.functor = [] := by
  rw [List.filterMap_eq_nil_iff]
  intro e he
  obtain ⟨_, _, rfl⟩ := List.mem_map.mp he
  rfl

theorem mem_shutdownWrites {effects : List Effect} {e : LogEntry} :
    e ∈ shutdownWrites effects ↔ .shutdownWrite ∈ effects ∧ e = .shutdownWrite := by
  simp only [shutdownWrites, List.mem_map, List.mem_filter, decide_eq_true_eq]
  constructor
  · rintro ⟨_, ⟨hmem, rfl⟩, rfl⟩
    exact ⟨hmem, rfl⟩
  · rintro ⟨hmem, rfl⟩
    exact ⟨_, ⟨hmem, rfl⟩, rfl⟩

/-- Something runs on the connection, in a functor that the loop has called or not. -/
theorem Inv.exec {s : CallSystem} (h : s.Inv) {entries : List LogEntry} {op : ConnOp}
    {l : LoopSystem Unit (Option Call)} (hqueue : l.Inv) (hpushed : l.pushed = s.loop.pushed)
    (hexecuted : l.executed = s.loop.executed ++ entries.filterMap LogEntry.functor)
    (hseen : ∀ c, .took c ∈ entries → s.Seen c) (hquiet : .shutdownWrite ∉ entries)
    (hestablish : op = .connectEstablished → s.conn.state = .kConnecting)
    (hshutdown : op = .shutdownInLoop → s.HalfClosing)
    (haccepted : ∀ c, s.pc none = .dispatching c → c.request ≠ .shutdown →
      .shutdownWrite ∉ (s.conn.exec op).2) :
    Inv { s.exec entries op with loop := l } := by
  have hlog : ∀ e, e ∈ (s.exec entries op).log →
      e ∈ s.log ∨ e ∈ entries ∨ .shutdownWrite ∈ (s.conn.exec op).2 ∧ e = .shutdownWrite := by
    intro e he
    simp only [CallSystem.exec, List.mem_append] at he
    rcases he with (hold | hentry) | hwrite
    · exact Or.inl hold
    · exact Or.inr (Or.inl hentry)
    · exact Or.inr (Or.inr (mem_shutdownWrites.mp hwrite))
  have hgrow : s.Grows { s.exec entries op with loop := l } := by
    constructor
    · exact hpushed ▸ List.prefix_refl _
    · exact (List.prefix_append _ _).trans (List.prefix_append _ _)
  have hrank := TcpConnection.exec_rank hestablish
  constructor
  · exact hqueue
  · simp only [CallSystem.exec, List.filterMap_append, filterMap_shutdownWrites, h.executed,
      List.append_nil, hexecuted]
  · rintro c (hc | htook | hpc)
    · exact h.fresh c (Or.inl (hpushed ▸ hc))
    · rcases hlog _ htook with hold | hentry | ⟨_, hc⟩
      · exact h.fresh c (Or.inr (Or.inl hold))
      · exact h.fresh c (hseen c hentry)
      · cases hc
    · exact h.fresh c (Or.inr (Or.inr hpc))
  · exact h.caller
  · exact fun c hc => h.pushed_caller c (hpushed ▸ hc)
  · exact h.storing
  · exact fun who c hc => hgrow.1.subset (h.waking who c hc)
  · exact fun m hm => (h.returned m hm).grow hgrow
  · exact fun m c hmc => h.ordered_grow hgrow hmc
  · rintro (hwrite | ⟨c, hc, hrequest⟩ | hpc)
    · rcases hlog _ hwrite with hold | hentry | ⟨hnew, _⟩
      · exact Nat.le_trans (h.halfClosing (Or.inl hold)) hrank
      · exact absurd hentry hquiet
      · rcases TcpConnection.exec_shutdownWrite hnew with ⟨hop, _⟩ | ⟨hstate, _⟩
        · exact Nat.le_trans (h.halfClosing (hshutdown hop)) hrank
        · exact Nat.le_of_eq (congrArg StateE.rank hstate).symm
    · exact Nat.le_trans (h.halfClosing (Or.inr (Or.inl ⟨c, hpushed ▸ hc, hrequest⟩))) hrank
    · exact Nat.le_trans (h.halfClosing (Or.inr (Or.inr hpc))) hrank
  · intro c hpc hrequest hmem
    rcases hlog _ hmem with hold | hentry | ⟨hnew, _⟩
    · exact h.accepted c hpc hrequest hold
    · exact hquiet hentry
    · exact haccepted c hpc hrequest hnew

theorem Request.op_ne (request : Request) (res : SysResult) :
    request.op res ≠ .connectEstablished ∧ (request.op res = .shutdownInLoop → request = .shutdown)
      ∧ (request ≠ .shutdown → ∀ conn : TcpConnection,
          .shutdownWrite ∉ (conn.exec (request.op res)).2) := by
  cases request with
  | send message => exact ⟨by simp [Request.op], by simp [Request.op],
      fun _ conn => TcpConnection.sendInLoop_effects⟩
  | shutdown => exact ⟨by simp [Request.op], fun _ => rfl, fun hne => absurd rfl hne⟩

theorem mem_ifSend {c m : Call} (h : m ∈ c.ifSend) : m = c ∧ c.request ≠ .shutdown := by
  unfold Call.ifSend at h
  split at h
  · rename_i hrequest
    refine ⟨List.mem_singleton.mp h, ?_⟩
    simp [hrequest]
  · cases h

/-- A `send` that is done is recorded as returned. -/
theorem Inv.return {s : CallSystem} (h : s.Inv) {c : Call}
    (hdone : c.request ≠ .shutdown → s.Done c) :
    Inv { s with returned := s.returned ++ c.ifSend } :=
  { h with
    returned := by
      intro m hm
      rcases List.mem_append.mp hm with hold | hnew
      · exact h.returned m hold
      · obtain ⟨rfl, hrequest⟩ := mem_ifSend hnew
        exact hdone hrequest }

/-- On the loop thread `runInLoop` runs the functor within the call. -/
theorem Inv.dispatchSelf {s t : CallSystem} {res : SysResult} (h : s.Inv)
    (hstep : CallSystem.step s (.dispatch none res) = some t) : t.Inv := by
  simp only [CallSystem.step] at hstep
  split at hstep
  · rename_i c hpc
    cases hstep
    have hcall : (s.pc none).call = some c := by rw [hpc]; rfl
    have hself : c.caller = none := h.caller none c hcall
    obtain ⟨hestablish, hshutdown, hquiet⟩ := Request.op_ne c.request res
    have hran : (s.exec [.took c] (c.request.op res)).Inv := by
      refine h.exec h.queue rfl ?_ ?_ (by simp) (fun heq => absurd heq hestablish) ?_ ?_
      · simp [LogEntry.functor, hself]
      · intro c' hc'
        cases List.mem_singleton.mp hc'
        exact Or.inr (Or.inr ⟨none, hcall⟩)
      · intro heq
        exact Or.inr (Or.inr ⟨none, c, hpc, hshutdown heq⟩)
      · intro c' hc' hrequest
        rw [hpc] at hc'
        cases hc'
        exact hquiet hrequest s.conn
    refine (hran.setPc (by simp [CallPc.call]) (by simp) (by simp) (by simp) (by simp)).return ?_
    intro hrequest
    constructor
    · intro _
      have hfirst : Precedes (.took c) .shutdownWrite (s.log ++ [.took c]) := by
        apply precedes_of_not_mem
        simpa using h.accepted c hpc hrequest
      have hmem : .took c ∈ s.log ++ [.took c] :=
        List.mem_append_right _ (List.mem_singleton_self _)
      exact ⟨List.mem_append_left _ hmem, hfirst.extend hmem (List.prefix_append _ _)⟩
    · intro hother
      exact absurd hself hother
  · cases hstep

/-- On another thread it pushes the functor. -/
theorem Inv.dispatchOther {s t : CallSystem} {thread : ThreadId} {res : SysResult} (h : s.Inv)
    (hstep : CallSystem.step s (.dispatch (some thread) res) = some t) : t.Inv := by
  simp only [CallSystem.step] at hstep
  split at hstep
  · rename_i c hpc
    obtain ⟨l, hl, rfl⟩ := Option.map_eq_some_iff.mp hstep
    have hcall : (s.pc (some thread)).call = some c := by rw [hpc]; rfl
    have hqueues := h.queue.queues hl
    have hpushed : ∀ c', some c' ∈ l.pushed → some c' ∈ s.loop.pushed ∨ c' = c := by
      intro c' hc'
      rw [hqueues.pushed] at hc'
      rcases List.mem_append.mp hc' with hold | hnew
      · exact Or.inl hold
      · exact Or.inr (Option.some.inj (List.mem_singleton.mp hnew))
    have hmem : some c ∈ l.pushed := by
      rw [hqueues.pushed]
      exact List.mem_append_right _ (List.mem_singleton_self _)
    have hgrow : s.Grows { s with loop := l } :=
      ⟨hqueues.pushed ▸ List.prefix_append _ _, List.prefix_refl _⟩
    have hjoined : Inv { s with loop := l } := by
      constructor
      · exact h.queue.step hl
      · rw [h.executed, hqueues.executed]
        exact (List.append_nil _).symm
      · rintro c' (hc' | hrest)
        · rcases hpushed c' hc' with hold | rfl
          · exact h.fresh c' (Or.inl hold)
          · exact h.fresh c' (Or.inr (Or.inr ⟨_, hcall⟩))
        · exact h.fresh c' (Or.inr hrest)
      · exact h.caller
      · intro c' hc'
        rcases hpushed c' hc' with hold | rfl
        · exact h.pushed_caller c' hold
        · rw [h.caller _ _ hcall]
          simp
      · exact h.storing
      · exact fun who c' hc' => hgrow.1.subset (h.waking who c' hc')
      · exact fun m hm => (h.returned m hm).grow hgrow
      · exact fun m c' hmc => h.ordered_grow hgrow hmc
      · rintro (hlog | ⟨c', hc', hrequest⟩ | hrest)
        · exact h.halfClosing (Or.inl hlog)
        · rcases hpushed c' hc' with hold | rfl
          · exact h.halfClosing (Or.inr (Or.inl ⟨c', hold, hrequest⟩))
          · exact h.halfClosing (Or.inr (Or.inr ⟨_, _, hpc, hrequest⟩))
        · exact h.halfClosing (Or.inr (Or.inr hrest))
      · exact h.accepted
    refine hjoined.setPc ?_ (by simp) ?_ (by simp) (by simp)
    · rintro c' ⟨⟩
      exact hcall
    · rintro c' ⟨⟩
      exact hmem
  · cases hstep

/-- `queueInLoop` returns, and with it the call. -/
theorem Inv.wakeup {s t : CallSystem} {thread : ThreadId} (h : s.Inv)
    (hstep : CallSystem.step s (.wakeup thread) = some t) : t.Inv := by
  simp only [CallSystem.step] at hstep
  split at hstep
  · rename_i c hpc
    obtain ⟨l, hl, rfl⟩ := Option.map_eq_some_iff.mp hstep
    have hcall : (s.pc (some thread)).call = some c := by rw [hpc]; rfl
    have hqueues := h.queue.queues hl
    have hpushed : l.pushed = s.loop.pushed := hqueues.pushed.trans (List.append_nil _)
    have hwritten : Inv { s with loop := l } := by
      constructor
      · exact h.queue.step hl
      · rw [h.executed, hqueues.executed]
        exact (List.append_nil _).symm
      · simpa only [Seen, hpushed] using h.fresh
      · exact h.caller
      · simpa only [hpushed] using h.pushed_caller
      · exact h.storing
      · simpa only [hpushed] using h.waking
      · simpa only [Done, hpushed] using h.returned
      · simpa only [Done, Ahead, hpushed] using h.ordered
      · simpa only [HalfClosing, hpushed] using h.halfClosing
      · exact h.accepted
    refine (hwritten.setPc (by simp [CallPc.call]) (by simp) (by simp) (by simp)
      (by simp)).return ?_
    intro _
    constructor
    · intro hself
      rw [h.caller _ _ hcall] at hself
      cases hself
    · intro _
      exact hpushed ▸ h.waking _ c hpc
  · cases hstep

theorem Inv.callFunctor {s t : CallSystem} {res : SysResult} (h : s.Inv)
    (hstep : CallSystem.step s (.callFunctor res) = some t) : t.Inv := by
  simp only [CallSystem.step] at hstep
  split at hstep
  · rename_i c rest hfunctors
    simp only [Option.ite_none_right_eq_some] at hstep
    obtain ⟨hidle, hstep⟩ := hstep
    obtain ⟨l, hl, rfl⟩ := Option.map_eq_some_iff.mp hstep
    have hqueues := h.queue.queues hl
    simp only [LoopSystem.pushes, LoopSystem.calls, EventLoop.calls, hfunctors,
      List.take_succ_cons, List.take_zero] at hqueues
    have hmem : some c ∈ s.loop.pushed := by
      rw [← h.queue.order]
      refine List.mem_append_right _ (List.mem_append_left _ ?_)
      rw [hfunctors]
      exact List.mem_cons_self
    obtain ⟨hestablish, hshutdown, _⟩ := Request.op_ne c.request res
    refine h.exec (h.queue.step hl) (hqueues.pushed.trans (List.append_nil _)) ?_ ?_ (by simp)
      (fun heq => absurd heq hestablish) ?_ ?_
    · rw [hqueues.executed]
      simp [LogEntry.functor, h.pushed_caller c hmem]
    · intro c' hc'
      cases List.mem_singleton.mp hc'
      exact Or.inl hmem
    · intro heq
      exact Or.inr (Or.inl ⟨c, hmem, hshutdown heq⟩)
    · intro c' hc'
      rw [hidle] at hc'
      cases hc'
  · cases hstep

theorem Inv.handler {s t : CallSystem} {op : ConnOp} (h : s.Inv)
    (hstep : CallSystem.step s (.handler op) = some t) : t.Inv := by
  simp only [CallSystem.step, Option.ite_none_right_eq_some, Option.some.injEq] at hstep
  obtain ⟨⟨hidle, _, hop⟩, rfl⟩ := hstep
  refine h.exec h.queue rfl (List.append_nil _).symm (by simp) (by simp) ?_ ?_ ?_
  · rintro rfl
    exact hop
  · rintro rfl
    exact absurd hop (by simp [ConnOp.IsHandler])
  · intro c hc
    rw [hidle] at hc
    cases hc

theorem Inv.step {s t : CallSystem} {a : CallAct} (h : s.Inv)
    (hstep : CallSystem.step s a = some t) : t.Inv := by
  cases a with
  | loop a => exact h.loop hstep
  | call who request => exact h.call hstep
  | load who => exact h.load hstep
  | store who => exact h.store hstep
  | dispatch who res =>
    cases who with
    | none => exact h.dispatchSelf hstep
    | some thread => exact h.dispatchOther hstep
  | wakeup thread => exact h.wakeup hstep
  | callFunctor res => exact h.callFunctor hstep
  | handler op => exact h.handler hstep

/-! ### The order of effects -/

/-- The order of the functor queue is the order in which they are called. -/
theorem Inv.took_in_order {s : CallSystem} (h : s.Inv) {m c : Call}
    (horder : Precedes (some m) (some c) s.loop.pushed) (hc : c.caller ≠ none) :
    Precedes (.took m) (.took c) s.log := by
  have hexecuted : Precedes (some m) (some c) (s.log.filterMap LogEntry.functor) := by
    rw [h.executed]
    exact horder.of_prefix ⟨s.loop.loop.waiting, h.queue.order⟩
  refine hexecuted.of_filterMap ?_ (by simp [LogEntry.functor, hc])
  intro e he
  cases e with
  | took c' =>
    simp only [LogEntry.functor] at he
    split at he
    · cases he
    · simp only [Option.some.injEq] at he
      rw [he]
  | shutdownWrite | other => cases he

/-- **The order of calls.**  Let the `send` `m`, which found `kConnected`, have
    returned before the call `c` began.  Unless `m` came from another thread and `c`
    comes from the loop thread, `m`'s `sendInLoop` runs before `c`'s `sendInLoop` or
    `shutdownInLoop`; if `m` came from the loop thread, also before any `SHUT_WR`. -/
theorem call_order (conn : TcpConnection) (acts : List CallAct) (s : CallSystem)
    (hrun : Runs.run step (start conn) acts = some s) (m c : Call)
    (hordered : (m, c) ∈ s.ordered) :
    (m.caller = none ∨ c.caller ≠ none → Precedes (.took m) (.took c) s.log)
      ∧ (m.caller = none → Precedes (.took m) .shutdownWrite s.log) := by
  have hinv : s.Inv := Runs.run_induction (fun _ _ _ h hstep => Inv.step h hstep) (.start conn) hrun
  obtain ⟨hdone, hahead⟩ := hinv.ordered m c hordered
  constructor
  · intro hthreads
    by_cases hself : m.caller = none
    · exact hahead.1 hself
    · exact hinv.took_in_order (hahead.2 hself) (hthreads.resolve_left hself)
  · intro hself
    exact (hdone.1 hself).2

/-- Calls take effect in the order in which they were made. -/
def RealTimeOrder (s : CallSystem) : Prop :=
  ∀ m c, (m, c) ∈ s.ordered →
    (c.request ≠ .shutdown → Precedes (.took m) (.took c) s.log)
      ∧ (c.request = .shutdown → Precedes (.took m) .shutdownWrite s.log)

/-- The loop thread enters `loop()` and a callback. -/
def enterCallback : List CallAct :=
  [.loop (.advance .enter), .loop (.advance .resetQuit), .loop (.advance .test),
    .loop (.advance (.poll [.channel ()]))]

/-- A whole `send` of another thread. -/
def sendOther (thread : ThreadId) (message : List Byte) : List CallAct :=
  [.call (some thread) (.send message), .load (some thread), .dispatch (some thread) (.ok 0),
    .wakeup thread]

def shutdownOther (thread : ThreadId) : List CallAct :=
  [.call (some thread) .shutdown, .load (some thread), .store (some thread),
    .dispatch (some thread) (.ok 0), .wakeup thread]

/-- A whole `send` of the loop thread, whose `::write` takes `n` bytes. -/
def sendSelf (message : List Byte) (n : Nat) : List CallAct :=
  [.call none (.send message), .load none, .dispatch none (.ok n)]

def shutdownSelf : List CallAct :=
  [.call none .shutdown, .load none, .store none, .dispatch none (.ok 0)]

/-- The loop thread calls the functors that are pending. -/
def callPending : List CallAct :=
  [.loop (.advance .handleEvent), .loop (.advance .beginPending), .loop (.advance .swap),
    .callFunctor (.ok 1)]

/-- An established connection. -/
def established : TcpConnection := (TcpConnection.new 0 ['c'] 7 true false 100).connectEstablished.1

/-- `a` from thread 1 is queued when the loop thread sends `b`, and when it half-closes. -/
theorem overtaking :
    (∃ s, Runs.run step (start established)
        (enterCallback ++ sendOther 1 [97] ++ sendSelf [98] 1 ++ callPending) = some s
      ∧ s.log = [.took ⟨1, none, .send [98]⟩, .took ⟨0, some 1, .send [97]⟩] ∧ ¬ s.RealTimeOrder)
    ∧ ∃ s, Runs.run step (start established)
        (enterCallback ++ sendOther 1 [97] ++ shutdownSelf ++ callPending) = some s
      ∧ s.log = [.took ⟨1, none, .shutdown⟩, .shutdownWrite, .took ⟨0, some 1, .send [97]⟩]
      ∧ ¬ s.RealTimeOrder := by
  refine ⟨⟨_, rfl, rfl, ?_⟩, ⟨_, rfl, rfl, ?_⟩⟩
  · intro horder
    have hahead := (horder ⟨0, some 1, .send [97]⟩ ⟨1, none, .send [98]⟩ (by decide)).1 (by simp)
    exact absurd (hahead [] _ rfl) (by simp)
  · intro horder
    have hahead := (horder ⟨0, some 1, .send [97]⟩ ⟨1, none, .shutdown⟩ (by decide)).2 rfl
    exact absurd (hahead [.took ⟨1, none, .shutdown⟩] _ rfl) (by decide)

/-- Thread 1 sends and half-closes, the loop calls both functors. -/
def sendThenShutdown : List CallAct :=
  enterCallback ++ sendOther 1 [97] ++ shutdownOther 1 ++ callPending ++ [.callFunctor (.ok 0)]

theorem call_order_sendThenShutdown :
    ∃ s, Runs.run step (start established) sendThenShutdown = some s
      ∧ ((some 1 = none ∨ some 1 ≠ none →
          Precedes (.took ⟨0, some 1, .send [97]⟩) (.took ⟨1, some 1, .shutdown⟩) s.log)
        ∧ (some 1 = none → Precedes (.took ⟨0, some 1, .send [97]⟩) .shutdownWrite s.log)) :=
  ⟨_, rfl, call_order established sendThenShutdown _ rfl ⟨0, some 1, .send [97]⟩
    ⟨1, some 1, .shutdown⟩ (by decide)⟩

end CallSystem

end Ymuduo
