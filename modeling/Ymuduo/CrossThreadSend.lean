/-
  Ymuduo/CrossThreadSend.lean
  ===========================
  **The bytes of a `send` from another thread.**

  Off the loop thread, `send(buf)` binds `buf.c_str()` and `buf.size()`: the queued
  functor holds a pointer into the caller's string, not its bytes, and reads them
  when the loop runs it.  What it then processes is what `send` was given only if
  the caller has left those bytes alone meanwhile (`foreign_sends_intact`); the
  branch of `send` for the loop thread reads them during the call.
-/
import Ymuduo.FunctorQueue
import Ymuduo.OutputStream

namespace Ymuduo

/-- The storage of one string of a caller. -/
abbrev StringId := Nat

inductive SendFunctor where
  | sendInLoop (message : StringId) (len : Nat)   -- `buf.c_str(), buf.size()`
  | other                                         -- any other functor of the loop
deriving DecidableEq, Repr

/-- The `len` bytes at a pointer into `message`, `none` where the storage does not
    hold them any more. -/
def readRaw (strings : StringId → Option (List Byte)) (message : StringId) (len : Nat) :
    Option (List Byte) :=
  (strings message).bind fun bytes => if len ≤ bytes.length then some (bytes.take len) else none

/-- What a functor would read if it were called now. -/
def SendFunctor.reads (strings : StringId → Option (List Byte)) :
    SendFunctor → List (Option (List Byte))
  | .sendInLoop message len => [readRaw strings message len]
  | .other => []

/-- `strings` is `none` for storage that has been freed.  `given` are the bytes that
    the strings held at each `send` that queued a functor, `processed` the messages
    of the functors called so far. -/
structure SendSystem where
  loop : LoopSystem Unit SendFunctor
  conn : TcpConnection
  strings : StringId → Option (List Byte)
  given : List (List Byte)
  processed : List (List Byte)

/-- `callSend` calls a queued `sendInLoop`; `garbage` is what it reads from freed
    storage.  `connOp` is whatever else happens to the connection.  `write` changes a string
    in its storage; one that outgrows its capacity gets new storage, so that is a `destroy`
    and a `write` to another `StringId`. -/
inductive SendAct where
  | loop (a : LoopAct Unit SendFunctor)
  | send (t : ThreadId) (buf : StringId)
  | selfSend (buf : StringId) (res : SysResult)
  | callSend (garbage : List Byte) (res : SysResult)
  | connOp (op : ConnOp)
  | write (buf : StringId) (bytes : List Byte)
  | destroy (buf : StringId)
deriving DecidableEq, Repr

namespace SendSystem

def start (conn : TcpConnection) (strings : StringId → Option (List Byte)) : SendSystem where
  loop := .start
  conn := conn
  strings := strings
  given := []
  processed := []

def setString (s : SendSystem) (buf : StringId) (bytes : Option (List Byte)) : SendSystem :=
  { s with strings := Function.update s.strings buf bytes }

/-- The functors that an action of the loop pushes and calls are none of `send`'s. -/
def OtherFunctors (s : SendSystem) (a : LoopAct Unit SendFunctor) : Prop :=
  ∀ f ∈ LoopSystem.pushes a ++ s.loop.calls a, f = .other

instance (s : SendSystem) (a : LoopAct Unit SendFunctor) : Decidable (s.OtherFunctors a) :=
  inferInstanceAs (Decidable (∀ _ ∈ _, _))

def step (s : SendSystem) : SendAct → Option SendSystem
  | .loop a =>
    if s.OtherFunctors a then (s.loop.step a).map fun l => { s with loop := l } else none
  | .send t buf =>
    (s.strings buf).bind fun bytes =>
      if s.conn.state = .kConnected then
        (s.loop.step (.push t (.sendInLoop buf bytes.length))).map fun l =>
          { s with loop := l, given := s.given ++ [bytes] }
      else some s
  | .selfSend buf res =>
    if s.loop.InUserCode then
      (s.strings buf).map fun bytes =>
        if s.conn.state = .kConnected then
          { s with conn := (s.conn.exec (.sendInLoop bytes res)).1 }
        else s
    else none
  | .callSend garbage res =>
    match s.loop.loop.functors with
    | .sendInLoop message len :: _ =>
      let bytes := (readRaw s.strings message len).getD garbage
      (s.loop.step (.advance .callFunctor)).map fun l =>
        { s with
          loop := l
          conn := (s.conn.exec (.sendInLoop bytes res)).1
          processed := s.processed ++ [bytes] }
    | _ => none
  | .connOp op => some { s with conn := (s.conn.exec op).1 }
  | .write buf bytes => some (s.setString buf (some bytes))
  | .destroy buf => some (s.setString buf none)

/-- What the functors that are still to be called would read. -/
def waitingReads (s : SendSystem) : List (Option (List Byte)) :=
  s.loop.loop.waiting.flatMap (SendFunctor.reads s.strings)

/-- No waiting functor sees a difference if the string `buf` becomes `bytes`. -/
def LeavesQueued (s : SendSystem) (buf : StringId) (bytes : Option (List Byte)) : Prop :=
  ∀ f ∈ s.loop.loop.waiting, f.reads (Function.update s.strings buf bytes) = f.reads s.strings

instance (s : SendSystem) (buf : StringId) (bytes : Option (List Byte)) :
    Decidable (s.LeavesQueued buf bytes) := inferInstanceAs (Decidable (∀ _ ∈ _, _))

/-- The callers leave the bytes alone that a queued `sendInLoop` points to. -/
def HandsOff (s : SendSystem) : SendAct → Prop
  | .write buf bytes => s.LeavesQueued buf (some bytes)
  | .destroy buf => s.LeavesQueued buf none
  | _ => True

instance (s : SendSystem) : (a : SendAct) → Decidable (s.HandsOff a)
  | .write buf bytes => inferInstanceAs (Decidable (s.LeavesQueued buf (some bytes)))
  | .destroy buf => inferInstanceAs (Decidable (s.LeavesQueued buf none))
  | .loop _ | .send _ _ | .selfSend _ _ | .callSend _ _ | .connOp _ =>
    inferInstanceAs (Decidable True)

/-- The number of `sendInLoop`s among functors. -/
def sendCount (functors : List SendFunctor) : Nat :=
  (functors.filter fun f => f ≠ .other).length

theorem sendCount_append (xs ys : List SendFunctor) :
    sendCount (xs ++ ys) = sendCount xs + sendCount ys := by
  simp [sendCount]

structure Inv (s : SendSystem) : Prop where
  queue : s.loop.Inv
  bytes : s.processed.map some ++ s.waitingReads = s.given.map some
  given_count : s.given.length = sendCount s.loop.pushed
  processed_count : s.processed.length = sendCount s.loop.executed

theorem Inv.start (conn : TcpConnection) (strings : StringId → Option (List Byte)) :
    (start conn strings).Inv where
  queue := .start
  bytes := rfl
  given_count := rfl
  processed_count := rfl

theorem reads_of_other {strings : StringId → Option (List Byte)} {functors : List SendFunctor}
    (h : ∀ f ∈ functors, f = .other) : functors.flatMap (SendFunctor.reads strings) = [] := by
  rw [List.flatMap_eq_nil_iff]
  intro f hf
  rw [h f hf]
  rfl

theorem sendCount_of_other {functors : List SendFunctor} (h : ∀ f ∈ functors, f = .other) :
    sendCount functors = 0 := by
  simpa [sendCount] using h

/-- Functors other than `sendInLoop` come and go. -/
theorem Inv.loop {s t : SendSystem} {a : LoopAct Unit SendFunctor} (h : s.Inv)
    (hstep : SendSystem.step s (.loop a) = some t) : t.Inv := by
  simp only [SendSystem.step, Option.ite_none_right_eq_some] at hstep
  obtain ⟨hother, hstep⟩ := hstep
  obtain ⟨l, hl, rfl⟩ := Option.map_eq_some_iff.mp hstep
  have hqueues := h.queue.queues hl
  have hpushes : ∀ f ∈ LoopSystem.pushes a, f = .other :=
    fun f hf => hother f (List.mem_append_left _ hf)
  have hcalls : ∀ f ∈ s.loop.calls a, f = .other :=
    fun f hf => hother f (List.mem_append_right _ hf)
  constructor
  · exact h.queue.step hl
  · have hwaiting := congrArg (List.flatMap (SendFunctor.reads s.strings)) hqueues.waiting
    rw [List.flatMap_append, List.flatMap_append, reads_of_other hpushes, reads_of_other hcalls,
      List.append_nil, List.nil_append] at hwaiting
    have hbytes := h.bytes
    simp only [waitingReads] at hbytes ⊢
    rw [← hwaiting]
    exact hbytes
  · simp only [hqueues.pushed, sendCount_append, sendCount_of_other hpushes, Nat.add_zero]
    exact h.given_count
  · simp only [hqueues.executed, sendCount_append, sendCount_of_other hcalls, Nat.add_zero]
    exact h.processed_count

/-- `send` pushes a functor that reads what the string holds now. -/
theorem Inv.send {s t : SendSystem} {thread : ThreadId} {buf : StringId} (h : s.Inv)
    (hstep : SendSystem.step s (.send thread buf) = some t) : t.Inv := by
  obtain ⟨bytes, hbuf, hstep⟩ := Option.bind_eq_some_iff.mp hstep
  split at hstep
  · obtain ⟨l, hl, rfl⟩ := Option.map_eq_some_iff.mp hstep
    have hqueues := h.queue.queues hl
    simp only [LoopSystem.pushes, LoopSystem.calls] at hqueues
    constructor
    · exact h.queue.step hl
    · have hwaiting := hqueues.waiting
      rw [List.nil_append] at hwaiting
      have hbytes := h.bytes
      simp only [waitingReads] at hbytes ⊢
      rw [← hwaiting, List.flatMap_append, ← List.append_assoc, hbytes]
      simp [SendFunctor.reads, readRaw, hbuf]
    · simp only [hqueues.pushed, sendCount_append, List.length_append, h.given_count]
      rfl
    · simp only [hqueues.executed, List.append_nil]
      exact h.processed_count
  · cases hstep
    exact h

/-- The functor at the front reads, by the invariant, the first bytes given and
    not yet processed. -/
theorem Inv.callSend {s t : SendSystem} {garbage : List Byte} {res : SysResult} (h : s.Inv)
    (hstep : SendSystem.step s (.callSend garbage res) = some t) : t.Inv := by
  simp only [SendSystem.step] at hstep
  split at hstep
  · rename_i message len rest hfunctors
    obtain ⟨l, hl, rfl⟩ := Option.map_eq_some_iff.mp hstep
    have hqueues := h.queue.queues hl
    simp only [LoopSystem.pushes, LoopSystem.calls, EventLoop.calls, hfunctors,
      List.take_succ_cons, List.take_zero] at hqueues
    constructor
    · exact h.queue.step hl
    · have hwaiting := hqueues.waiting
      rw [List.append_nil, List.singleton_append] at hwaiting
      have hbytes := h.bytes
      simp only [waitingReads, hwaiting, List.flatMap_cons, SendFunctor.reads,
        List.singleton_append] at hbytes ⊢
      have hread : readRaw s.strings message len ∈ s.given.map some := by
        rw [← hbytes]
        exact List.mem_append_right _ List.mem_cons_self
      obtain ⟨bytes, _, hsome⟩ := List.mem_map.mp hread
      rw [← hbytes, ← hsome]
      simp
    · simp only [hqueues.pushed, List.append_nil]
      exact h.given_count
    · simp only [hqueues.executed, sendCount_append, List.length_append, h.processed_count]
      rfl
  · cases hstep

/-- A string changes, but no queued functor sees it. -/
theorem Inv.setString {s : SendSystem} {buf : StringId} {bytes : Option (List Byte)}
    (h : s.Inv) (hleaves : s.LeavesQueued buf bytes) : (s.setString buf bytes).Inv := by
  constructor
  · exact h.queue
  · have hsame : (s.setString buf bytes).waitingReads = s.waitingReads :=
      List.flatMap_congr hleaves
    rw [hsame]
    exact h.bytes
  · exact h.given_count
  · exact h.processed_count

theorem Inv.step {s t : SendSystem} {a : SendAct} (h : s.Inv) (hoff : s.HandsOff a)
    (hstep : SendSystem.step s a = some t) : t.Inv := by
  cases a with
  | loop a => exact h.loop hstep
  | send thread buf => exact h.send hstep
  | selfSend buf res =>
    simp only [SendSystem.step, Option.ite_none_right_eq_some] at hstep
    obtain ⟨bytes, _, rfl⟩ := Option.map_eq_some_iff.mp hstep.2
    split <;> exact ⟨h.queue, h.bytes, h.given_count, h.processed_count⟩
  | callSend garbage res => exact h.callSend hstep
  | connOp op =>
    cases hstep
    exact ⟨h.queue, h.bytes, h.given_count, h.processed_count⟩
  | write buf bytes =>
    cases hstep
    exact h.setString hoff
  | destroy buf =>
    cases hstep
    exact h.setString hoff

/-- **What a queued `sendInLoop` processes.**  While the callers keep their hands
    off the strings of the functors still queued, the `sendInLoop`s called so far
    have processed, in the order of the `send`s, the bytes that these were given. -/
theorem foreign_sends_intact (conn : TcpConnection) (strings : StringId → Option (List Byte))
    (acts : List SendAct) (s : SendSystem)
    (hrun : Runs.run step (start conn strings) acts = some s)
    (hoff : Runs.Along step HandsOff (start conn strings) acts) :
    s.loop.executed <+: s.loop.pushed ∧ s.given.length = sendCount s.loop.pushed
      ∧ s.processed.length = sendCount s.loop.executed ∧ s.processed <+: s.given := by
  have hinv : s.Inv :=
    Runs.run_induction_along (fun _ _ _ h hC hstep => Inv.step h hC hstep) (.start conn strings)
      hoff hrun
  refine ⟨?_, hinv.given_count, hinv.processed_count, ?_⟩
  · exact ⟨s.loop.loop.waiting, hinv.queue.order⟩
  · have hprefix : s.processed.map some <+: s.given.map some := ⟨_, hinv.bytes⟩
    exact (List.prefix_map_iff_of_injective (fun _ _ h => Option.some.inj h)).mp hprefix

/-- A connection that has been established. -/
def established : TcpConnection :=
  (TcpConnection.new 1 ['c'] 5 false false 64).connectEstablished.1

def noStrings : StringId → Option (List Byte) := fun _ => none

/-- Thread 1 sends the string 0, assigns to it and sends it again. -/
def reusedString : List SendAct :=
  [.write 0 [97], .send 1 0, .loop (.wakeup 1), .write 0 [98], .send 1 0, .loop (.wakeup 1),
    .loop (.advance .enter), .loop (.advance .resetQuit), .loop (.advance .test),
    .loop (.advance (.poll [.wakeupChannel])), .loop (.advance .handleEvent),
    .loop (.advance .beginPending), .loop (.advance .swap), .callSend [] (.ok 1),
    .callSend [] (.ok 1)]

/-- `a` and `b` were given, `b` and `b` are processed. -/
theorem reusedString_not_intact :
    ∃ s, Runs.run step (start established noStrings) reusedString = some s
      ∧ s.given = [[97], [98]] ∧ s.processed = [[98], [98]] ∧ ¬ s.processed <+: s.given := by
  refine ⟨_, rfl, rfl, rfl, ?_⟩
  intro hprefix
  exact absurd (List.cons_prefix_cons.mp hprefix).1 (by decide)

/-- A second string for the second message. -/
def ownStrings : List SendAct :=
  [.write 0 [97], .send 1 0, .loop (.wakeup 1), .write 1 [98], .send 1 1, .loop (.wakeup 1),
    .loop (.advance .enter), .loop (.advance .resetQuit), .loop (.advance .test),
    .loop (.advance (.poll [.wakeupChannel])), .loop (.advance .handleEvent),
    .loop (.advance .beginPending), .loop (.advance .swap), .callSend [] (.ok 1), .destroy 0,
    .callSend [] (.ok 1), .destroy 1]

theorem foreign_sends_intact_ownStrings :
    ∃ s, Runs.run step (start established noStrings) ownStrings = some s
      ∧ s.loop.executed <+: s.loop.pushed ∧ s.given.length = sendCount s.loop.pushed
      ∧ s.processed.length = sendCount s.loop.executed ∧ s.processed <+: s.given :=
  ⟨_, rfl, foreign_sends_intact established noStrings ownStrings _ rfl (by decide)⟩

end SendSystem

end Ymuduo
