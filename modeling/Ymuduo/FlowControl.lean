/-
  Ymuduo/FlowControl.lean
  =======================
  **What the user is told about the backlog.**

  `sendInLoop` queues `highWaterMarkCallback_` before it appends, with the size that
  `outputBuffer_` is about to have.  `writeCompleteCallback_` is queued by the direct
  `::write` that takes a message whole, and by the `handleWrite` that empties the buffer.

  Both are exact (`notifications_match_backlog`): a backlog grows in `sendInLoop` only,
  by one jump that the code compares with the mark, and it is emptied by `handleWrite`
  only, so that a message that is not dropped is either gone at once or still behind
  every state until the callback is queued.
-/
import Ymuduo.HalfClose

namespace Ymuduo

namespace TcpConnection

/-- The number of bytes in `outputBuffer_` that are not sent. -/
def backlog (conn : TcpConnection) : Nat := conn.outputBuffer.readableBytes

theorem length_contents_outputBuffer (conn : TcpConnection) :
    conn.outputBuffer.contents.length = conn.backlog :=
  conn.outputBuffer.length_contents

theorem backlog_eq_zero (conn : TcpConnection) :
    conn.backlog = 0 ↔ conn.outputBuffer.contents = [] :=
  conn.outputBuffer.readableBytes_eq_zero

/-- `exec`, where logging may change `errno`. -/
def execLogging (conn : TcpConnection) (logging : Errno → Errno) :
    ConnOp → TcpConnection × List Effect
  | .sendInLoop message res => conn.sendInLoop logging message res
  | op => conn.exec op

/-- The bytes that the operation takes over from its caller. -/
def takes (conn : TcpConnection) (logging : Errno → Errno) : ConnOp → List Byte
  | .sendInLoop message res => if conn.Drops logging message res then [] else message
  | _ => []

theorem execLogging_stream (conn : TcpConnection) (logging : Errno → Errno) (op : ConnOp) :
    writtenBytes (conn.execLogging logging op).2
        ++ (conn.execLogging logging op).1.outputBuffer.contents
      = conn.outputBuffer.contents ++ conn.takes logging op := by
  cases op with
  | sendInLoop message res => exact conn.sendInLoop_pushes logging message res
  | connectEstablished => exact conn.exec_stream .connectEstablished
  | handleWrite res => exact conn.exec_stream (.handleWrite res)
  | handleRead res => exact conn.exec_stream (.handleRead res)
  | handleClose => exact conn.exec_stream .handleClose
  | shutdown => exact conn.exec_stream .shutdown
  | shutdownInLoop => exact conn.exec_stream .shutdownInLoop
  | connectDestroyed => exact conn.exec_stream .connectDestroyed

/-! ### What the functions leave as it is -/

/-- The user's settings for the notifications. -/
structure SameSettings (conn conn' : TcpConnection) : Prop where
  writeComplete : conn'.writeCompleteCallback = conn.writeCompleteCallback
  highWater : conn'.highWaterMarkCallback = conn.highWaterMarkCallback
  mark : conn'.highWaterMark = conn.highWaterMark

theorem SameSettings.refl (conn : TcpConnection) : SameSettings conn conn := ⟨rfl, rfl, rfl⟩

theorem SameSettings.trans {a b c : TcpConnection} (h : SameSettings a b)
    (h' : SameSettings b c) : SameSettings a c :=
  ⟨h'.writeComplete.trans h.writeComplete, h'.highWater.trans h.highWater, h'.mark.trans h.mark⟩

theorem bufferRest_settings (conn : TcpConnection) (message : List Byte) (w : DirectWrite) :
    SameSettings conn (conn.bufferRest message w).1 := by
  unfold bufferRest
  split
  · simp only
    split
    · exact ⟨rfl, rfl, rfl⟩
    · exact ⟨rfl, rfl, rfl⟩
  · exact .refl conn

/-- Settings and backlog stay, and nothing is queued. -/
structure Idle (conn conn' : TcpConnection) (effects : List Effect) : Prop where
  settings : SameSettings conn conn'
  outputBuffer : conn'.outputBuffer = conn.outputBuffer
  queues : ∀ f, .queueInLoop f ∉ effects

/-- Only `sendInLoop` and `handleWrite` have to do with the backlog. -/
theorem execLogging_cases (conn : TcpConnection) (logging : Errno → Errno) (op : ConnOp) :
    (∃ message res, op = .sendInLoop message res) ∨ (∃ res, op = .handleWrite res)
      ∨ conn.takes logging op = []
        ∧ Idle conn (conn.execLogging logging op).1 (conn.execLogging logging op).2 := by
  cases op with
  | sendInLoop message res => exact Or.inl ⟨message, res, rfl⟩
  | handleWrite res => exact Or.inr (Or.inl ⟨res, rfl⟩)
  | handleRead res =>
    refine Or.inr (Or.inr ⟨rfl, ?_⟩)
    simp only [execLogging, exec, handleRead]
    split
    · split
      · exact ⟨⟨rfl, rfl, rfl⟩, rfl, by simp⟩
      · exact ⟨⟨rfl, rfl, rfl⟩, rfl, by simp [handleClose]⟩
    · exact ⟨⟨rfl, rfl, rfl⟩, rfl, by simp⟩
  | connectEstablished =>
    exact Or.inr (Or.inr ⟨rfl, ⟨rfl, rfl, rfl⟩, rfl,
      by simp [execLogging, exec, connectEstablished]⟩)
  | handleClose =>
    exact Or.inr (Or.inr ⟨rfl, ⟨rfl, rfl, rfl⟩, rfl, by simp [execLogging, exec, handleClose]⟩)
  | shutdown =>
    refine Or.inr (Or.inr ⟨rfl, ?_⟩)
    simp only [execLogging, exec, shutdown]
    split
    · exact ⟨⟨rfl, rfl, rfl⟩, rfl, by simp⟩
    · exact ⟨.refl conn, rfl, by simp⟩
  | shutdownInLoop =>
    refine Or.inr (Or.inr ⟨rfl, .refl conn, rfl, ?_⟩)
    simp only [execLogging, exec, shutdownInLoop]
    split
    · simp
    · simp
  | connectDestroyed =>
    refine Or.inr (Or.inr ⟨rfl, ?_⟩)
    simp only [execLogging, exec, connectDestroyed]
    split
    · exact ⟨⟨rfl, rfl, rfl⟩, rfl, by simp⟩
    · exact ⟨.refl conn, rfl, by simp⟩

theorem execLogging_settings (conn : TcpConnection) (logging : Errno → Errno) (op : ConnOp) :
    SameSettings conn (conn.execLogging logging op).1 := by
  rcases conn.execLogging_cases logging op with ⟨message, res, rfl⟩ | ⟨res, rfl⟩ | ⟨_, hidle⟩
  · simp only [execLogging, sendInLoop]
    split
    · exact .refl conn
    · split
      · exact conn.bufferRest_settings _ _
      · exact conn.bufferRest_settings _ _
  · simp only [execLogging, exec]
    rcases conn.handleWrite_cases res with hnone | ⟨_, sent, n, rfl, hpart | hdrained⟩
    · rw [hnone]
      exact .refl conn
    · rw [hpart.2]
      exact ⟨rfl, rfl, rfl⟩
    · rw [hdrained.2]
      exact ⟨rfl, rfl, rfl⟩
  · exact hidle.settings

/-! ### The high-water mark -/

/-- The arguments of the high-water-mark callbacks that are queued. -/
def highWaterMarks (effects : List Effect) : List Nat :=
  effects.filterMap fun
    | .queueInLoop (.highWaterMark size) => some size
    | _ => none

@[simp] theorem highWaterMarks_nil : highWaterMarks [] = [] := rfl

@[simp] theorem highWaterMarks_append (xs ys : List Effect) :
    highWaterMarks (xs ++ ys) = highWaterMarks xs ++ highWaterMarks ys :=
  List.filterMap_append

theorem highWaterMarks_eq_nil {effects : List Effect}
    (h : ∀ size, .queueInLoop (.highWaterMark size) ∉ effects) : highWaterMarks effects = [] := by
  refine List.filterMap_eq_nil_iff.mpr fun e he => ?_
  split
  · exact absurd he (h _)
  · rfl

/-- The backlog goes from below the mark to at or above it. -/
def Crosses (conn conn' : TcpConnection) : Prop :=
  conn.backlog < conn.highWaterMark ∧ conn.highWaterMark ≤ conn'.backlog

instance (conn conn' : TcpConnection) : Decidable (conn.Crosses conn') :=
  inferInstanceAs (Decidable (_ ∧ _))

/-- The notifications that a change of the backlog calls for. -/
def dueHighWaterMarks (conn conn' : TcpConnection) : List Nat :=
  if conn.highWaterMarkCallback = true ∧ conn.Crosses conn' then [conn'.backlog] else []

theorem dueHighWaterMarks_of_le {conn conn' : TcpConnection} (h : conn'.backlog ≤ conn.backlog) :
    conn.dueHighWaterMarks conn' = [] := by
  refine if_neg fun hdue => ?_
  obtain ⟨_, hbelow, habove⟩ := hdue
  omega

theorem queueWriteComplete_highWaterMarks (conn : TcpConnection) :
    highWaterMarks conn.queueWriteComplete = [] := by
  unfold queueWriteComplete
  split
  · rfl
  · rfl

theorem directWrite_highWaterMarks (conn : TcpConnection) (logging : Errno → Errno)
    (message : List Byte) (res : SysResult) :
    highWaterMarks (conn.directWrite logging message res).effects = [] := by
  cases res with
  | err e => rfl
  | ok n =>
    simp only [directWrite]
    split
    · exact conn.queueWriteComplete_highWaterMarks
    · rfl

/-- `bufferRest` leaves the backlog that it has compared with the mark. -/
theorem bufferRest_highWaterMarks (conn : TcpConnection) {message : List Byte} {w : DirectWrite}
    (hfits : w.remaining ≤ (message.drop w.nwrote).length)
    (hquiet : highWaterMarks w.effects = []) :
    highWaterMarks (conn.bufferRest message w).2
      = conn.dueHighWaterMarks (conn.bufferRest message w).1 := by
  have hbacklog : (conn.bufferRest message w).1.backlog = conn.backlog
      + (if w.faultError then [] else (message.drop w.nwrote).take w.remaining).length := by
    rw [← length_contents_outputBuffer, bufferRest_contents, List.length_append,
      length_contents_outputBuffer]
  by_cases hrest : w.faultError = false ∧ 0 < w.remaining
  · rw [hrest.1, if_neg Bool.false_ne_true, List.length_take, Nat.min_eq_left hfits] at hbacklog
    have hdue : conn.dueHighWaterMarks (conn.bufferRest message w).1
        = if conn.highWaterMark ≤ conn.backlog + w.remaining ∧ conn.backlog < conn.highWaterMark
            ∧ conn.highWaterMarkCallback = true then [conn.backlog + w.remaining] else [] := by
      simp only [dueHighWaterMarks, Crosses, hbacklog, and_comm, and_left_comm]
    rw [hdue]
    unfold bufferRest
    rw [if_pos hrest]
    simp only [show conn.outputBuffer.readableBytes = conn.backlog from rfl]
    by_cases hcross : conn.highWaterMark ≤ conn.backlog + w.remaining
        ∧ conn.backlog < conn.highWaterMark ∧ conn.highWaterMarkCallback = true
    · rw [if_pos hcross, if_pos hcross]
      split
      · rw [highWaterMarks_append, hquiet]
        rfl
      · rw [highWaterMarks_append, highWaterMarks_append, hquiet]
        rfl
    · rw [if_neg hcross, if_neg hcross]
      split
      · rw [highWaterMarks_append, hquiet]
        rfl
      · rw [highWaterMarks_append, highWaterMarks_append, hquiet]
        rfl
  · have hsame : conn.bufferRest message w = (conn, w.effects) := if_neg hrest
    rw [hsame, hquiet, dueHighWaterMarks_of_le (Nat.le_refl _)]

theorem sendInLoop_highWaterMarks (conn : TcpConnection) (logging : Errno → Errno)
    (message : List Byte) (res : SysResult) :
    highWaterMarks (conn.sendInLoop logging message res).2
      = conn.dueHighWaterMarks (conn.sendInLoop logging message res).1 := by
  unfold sendInLoop
  split
  · exact (dueHighWaterMarks_of_le (Nat.le_refl _)).symm
  · split
    · exact conn.bufferRest_highWaterMarks (conn.directWrite_fits logging message res)
        (conn.directWrite_highWaterMarks logging message res)
    · exact conn.bufferRest_highWaterMarks (by simp [noDirectWrite]) rfl

theorem handleWrite_highWaterMarks (conn : TcpConnection) (res : SysResult) :
    highWaterMarks (conn.handleWrite res).2 = [] := by
  rcases conn.handleWrite_cases res with hnone | ⟨_, sent, n, rfl, hpart | hdrained⟩
  · rw [hnone]
    rfl
  · rw [hpart.2]
    rfl
  · rw [hdrained.2]
    apply highWaterMarks_eq_nil
    intro size
    simp only [writeDrained, queueWriteComplete, shutdownInLoop]
    split <;> split <;> simp

/-- No operation but `sendInLoop` makes the backlog grow. -/
theorem execLogging_backlog_le {conn : TcpConnection} {logging : Errno → Errno} {op : ConnOp}
    (hop : conn.takes logging op = []) :
    (conn.execLogging logging op).1.backlog ≤ conn.backlog := by
  have hstream := congrArg List.length (conn.execLogging_stream logging op)
  rw [hop, List.append_nil, List.length_append, length_contents_outputBuffer,
    length_contents_outputBuffer] at hstream
  omega

/-- **The high-water-mark callback is queued at a crossing**, once and with the new
    backlog, and at no other time. -/
theorem execLogging_highWaterMarks (conn : TcpConnection) (logging : Errno → Errno)
    (op : ConnOp) : highWaterMarks (conn.execLogging logging op).2
      = conn.dueHighWaterMarks (conn.execLogging logging op).1 := by
  rcases conn.execLogging_cases logging op with ⟨message, res, rfl⟩ | ⟨res, rfl⟩ | ⟨htakes, hidle⟩
  · exact conn.sendInLoop_highWaterMarks logging message res
  · rw [dueHighWaterMarks_of_le (execLogging_backlog_le rfl)]
    exact conn.handleWrite_highWaterMarks res
  · rw [dueHighWaterMarks_of_le (execLogging_backlog_le htakes)]
    exact highWaterMarks_eq_nil fun size => hidle.queues (.highWaterMark size)

/-! ### The write-complete callback -/

theorem mem_queueWriteComplete {conn : TcpConnection} :
    Effect.queueInLoop .writeComplete ∈ conn.queueWriteComplete
      ↔ conn.writeCompleteCallback = true := by
  unfold queueWriteComplete
  split
  · simp_all
  · simp_all

theorem bufferRest_writeComplete {conn : TcpConnection} {message : List Byte} {w : DirectWrite} :
    Effect.queueInLoop .writeComplete ∈ (conn.bufferRest message w).2
      ↔ Effect.queueInLoop .writeComplete ∈ w.effects := by
  unfold bufferRest
  split
  · by_cases hwriting : conn.channel.isWriting = true
    · simp only [hwriting, if_true, List.mem_append, or_iff_left_iff_imp]
      split <;> simp
    · simp only [hwriting, Bool.false_eq_true, if_false, List.mem_append, List.mem_singleton,
        reduceCtorEq, or_false, or_iff_left_iff_imp]
      split <;> simp
  · exact Iff.rfl

/-- The direct `::write` queues the callback if it has taken the message whole. -/
theorem directWrite_writeComplete {conn : TcpConnection} {logging : Errno → Errno}
    {message : List Byte} {res : SysResult} :
    Effect.queueInLoop .writeComplete ∈ (conn.directWrite logging message res).effects
      ↔ (conn.directWrite logging message res).remaining = 0 ∧ (∃ n, res = .ok n)
        ∧ conn.writeCompleteCallback = true := by
  cases res with
  | err e => simp [directWrite]
  | ok n =>
    simp only [directWrite, List.mem_cons, reduceCtorEq, false_or]
    split
    · rename_i hall
      rw [mem_queueWriteComplete]
      simp [hall]
    · rename_i hleft
      simp [hleft]

theorem mem_writeDrained_writeComplete {conn : TcpConnection} :
    Effect.queueInLoop .writeComplete ∈ conn.writeDrained.2
      ↔ conn.writeCompleteCallback = true := by
  have hshutdown : ∀ c : TcpConnection, Effect.queueInLoop .writeComplete ∉ c.shutdownInLoop := by
    intro c
    unfold shutdownInLoop
    split <;> simp
  simp only [writeDrained, List.cons_append, List.mem_cons, List.mem_append, reduceCtorEq,
    false_or, mem_queueWriteComplete, or_iff_left_iff_imp]
  split
  · exact fun hin => absurd hin (hshutdown _)
  · simp

/-- **The write-complete callback is queued with nothing left to send.** -/
theorem execLogging_writeComplete {conn : TcpConnection} {logging : Errno → Errno} {op : ConnOp}
    (h : Effect.queueInLoop .writeComplete ∈ (conn.execLogging logging op).2) :
    (conn.execLogging logging op).1.outputBuffer.contents = [] := by
  rcases conn.execLogging_cases logging op with ⟨message, res, rfl⟩ | ⟨res, rfl⟩ | ⟨_, hidle⟩
  · simp only [execLogging, sendInLoop] at h ⊢
    split at h
    · simp at h
    · rename_i hopen
      rw [if_neg hopen]
      split at h
      · rename_i hdirect
        obtain ⟨hzero, _, _⟩ := directWrite_writeComplete.mp (bufferRest_writeComplete.mp h)
        have hempty := conn.outputBuffer.readableBytes_eq_zero.mp hdirect.2
        rw [if_pos hdirect, bufferRest_contents, hempty, hzero]
        simp
      · simp [bufferRest_writeComplete, noDirectWrite] at h
  · simp only [execLogging, exec] at h ⊢
    rcases conn.handleWrite_cases res with hnone | ⟨_, sent, n, rfl, hpart | hdrained⟩
    · simp [hnone] at h
    · simp [hpart.2] at h
    · rw [hdrained.2]
      exact hdrained.1
  · exact absurd h (hidle.queues .writeComplete)

/-- A message that is not dropped is gone at once, with the callback queued, or leaves a
    backlog. -/
theorem takes_writeComplete {conn : TcpConnection} {logging : Errno → Errno} {op : ConnOp}
    (hcallback : conn.writeCompleteCallback = true) (htakes : conn.takes logging op ≠ []) :
    (conn.execLogging logging op).1.outputBuffer.contents ≠ []
      ∨ Effect.queueInLoop .writeComplete ∈ (conn.execLogging logging op).2 := by
  cases op with
  | sendInLoop message res =>
    simp only [takes, ne_eq, ite_eq_left_iff, Classical.not_imp] at htakes
    obtain ⟨hkept, hmessage⟩ := htakes
    have hopen : conn.state ≠ .kDisconnected := fun hstate => hkept (Or.inl hstate)
    simp only [execLogging, sendInLoop, if_neg hopen]
    by_cases hdirect : conn.WritesDirectly
    · have hfault : (conn.directWrite logging message res).faultError = false :=
        eq_false_of_ne_true fun hfault => hkept (Or.inr ⟨hdirect, hfault⟩)
      rw [if_pos hdirect, bufferRest_contents, bufferRest_writeComplete,
        directWrite_writeComplete, hfault]
      cases res with
      | err e => exact Or.inl (by simp [directWrite, hmessage])
      | ok n =>
        by_cases hall : message.length - n = 0
        · exact Or.inr ⟨hall, ⟨n, rfl⟩, hcallback⟩
        · left
          intro hnil
          have hlength := congrArg List.length (List.append_eq_nil_iff.mp hnil).2
          simp only [directWrite, Bool.false_eq_true, if_false, List.length_take,
            List.length_drop, List.length_nil] at hlength
          omega
    · rw [if_neg hdirect, bufferRest_contents]
      exact Or.inl (by simp [noDirectWrite, hmessage])
  | connectEstablished | handleWrite _ | handleRead _ | handleClose | shutdown | shutdownInLoop
  | connectDestroyed => exact absurd rfl htakes

/-- **Only `handleWrite` works a backlog off**, and queues the callback then. -/
theorem drained_writeComplete {conn : TcpConnection} {logging : Errno → Errno} {op : ConnOp}
    (hcallback : conn.writeCompleteCallback = true)
    (hbacklog : conn.outputBuffer.contents ≠ []) :
    (conn.execLogging logging op).1.outputBuffer.contents ≠ []
      ∨ Effect.queueInLoop .writeComplete ∈ (conn.execLogging logging op).2 := by
  rcases conn.execLogging_cases logging op with ⟨message, res, rfl⟩ | ⟨res, rfl⟩ | ⟨_, hidle⟩
  · left
    intro hempty
    have hkeeps := conn.sendInLoop_keeps logging message res
    rw [show (conn.sendInLoop logging message res).1.outputBuffer.contents = [] from hempty]
      at hkeeps
    exact hbacklog (List.prefix_nil.mp hkeeps)
  · simp only [execLogging, exec]
    rcases conn.handleWrite_cases res with hnone | ⟨_, sent, n, rfl, hpart | hdrained⟩
    · rw [hnone]
      exact Or.inl hbacklog
    · rw [hpart.2]
      left
      rcases hpart.1 with rfl | hmore
      · simpa using hbacklog
      · exact hmore
    · rw [hdrained.2]
      exact Or.inr (List.mem_cons_of_mem _ (mem_writeDrained_writeComplete.mpr hcallback))
  · left
    rw [hidle.outputBuffer]
    exact hbacklog

end TcpConnection

/-! ### Runs -/

/-- A member function, and what its `LOG_ERROR` leaves in `errno`. -/
structure FlowAct where
  op : ConnOp
  logged : Errno
deriving DecidableEq, Repr

def FlowAct.logging (a : FlowAct) : Errno → Errno := fun _ => a.logged

/-- A connection, the bytes that the kernel has accepted from it, and the messages that
    were not dropped, one behind the other. -/
structure FlowState where
  conn : TcpConnection
  kernel : List Byte
  accepted : List Byte

namespace FlowState

def start (conn : TcpConnection) : FlowState := { conn, kernel := [], accepted := [] }

def effects (s : FlowState) (a : FlowAct) : List Effect := (s.conn.execLogging a.logging a.op).2

def step (s : FlowState) (a : FlowAct) : Option FlowState :=
  if a.op.Possible s.conn then
    some { conn := (s.conn.execLogging a.logging a.op).1
           kernel := s.kernel ++ writtenBytes (s.effects a)
           accepted := s.accepted ++ s.conn.takes a.logging a.op }
  else none

/-- A step is a member function that runs. -/
theorem step_cases {s t : FlowState} {a : FlowAct} (h : step s a = some t) :
    t.conn = (s.conn.execLogging a.logging a.op).1
      ∧ t.kernel = s.kernel ++ writtenBytes (s.effects a)
      ∧ t.accepted = s.accepted ++ s.conn.takes a.logging a.op := by
  simp only [step, Option.ite_none_right_eq_some, Option.some.injEq] at h
  obtain ⟨_, rfl⟩ := h
  exact ⟨rfl, rfl, rfl⟩

/-- `conn` is the connection at the start. -/
structure Inv (conn : TcpConnection) (s : FlowState) : Prop where
  settings : conn.SameSettings s.conn
  stream : s.kernel ++ s.conn.outputBuffer.contents = s.accepted

theorem Inv.start {conn : TcpConnection} (hempty : conn.outputBuffer.contents = []) :
    Inv conn (start conn) :=
  ⟨.refl conn, by simp [FlowState.start, hempty]⟩

theorem Inv.step {conn : TcpConnection} {s t : FlowState} {a : FlowAct} (h : Inv conn s)
    (hstep : FlowState.step s a = some t) : Inv conn t := by
  obtain ⟨hconn, hkernel, haccepted⟩ := step_cases hstep
  constructor
  · rw [hconn]
    exact h.settings.trans (s.conn.execLogging_settings a.logging a.op)
  · have hstream := s.conn.execLogging_stream a.logging a.op
    rw [hkernel, haccepted, hconn, List.append_assoc, effects, hstream, ← h.stream,
      List.append_assoc]

theorem Inv.of_run {conn : TcpConnection} (hempty : conn.outputBuffer.contents = [])
    {acts : List FlowAct} {s : FlowState}
    (hrun : Runs.run FlowState.step (FlowState.start conn) acts = some s) :
    Inv conn s :=
  Runs.run_induction (fun _ _ _ h hstep => h.step hstep) (Inv.start hempty) hrun

/-- From the call that takes a message on, there is a backlog until the write-complete
    callback is queued. -/
theorem Inv.writeComplete_queued {conn : TcpConnection} {s t : FlowState} (h : Inv conn s)
    (hcallback : conn.writeCompleteCallback = true) {a : FlowAct} {after : List FlowAct}
    (htakes : s.conn.takes a.logging a.op ≠ [])
    (hrun : Runs.run FlowState.step s (a :: after) = some t) (hsent : t.conn.backlog = 0) :
    .queueInLoop .writeComplete ∈ Runs.outputs FlowState.step effects s (a :: after) := by
  obtain ⟨u, hu, hafter⟩ := Option.bind_eq_some_iff.mp hrun
  have hset : ∀ {v : FlowState}, Inv conn v → v.conn.writeCompleteCallback = true :=
    fun hv => hv.settings.writeComplete.trans hcallback
  simp only [Runs.outputs, hu, List.mem_append]
  rcases TcpConnection.takes_writeComplete (hset h) htakes with hbacklog | hqueued
  · right
    rw [← (step_cases hu).1] at hbacklog
    have hdrains : ∀ (v : FlowState) (b : FlowAct) (w : FlowState),
        Inv conn v ∧ v.conn.outputBuffer.contents ≠ [] → FlowState.step v b = some w →
        (Inv conn w ∧ w.conn.outputBuffer.contents ≠ [])
          ∨ .queueInLoop .writeComplete ∈ effects v b := by
      intro v b w hv hw
      have hmore : (v.conn.execLogging b.logging b.op).1.outputBuffer.contents ≠ []
          ∨ .queueInLoop .writeComplete ∈ effects v b :=
        TcpConnection.drained_writeComplete (hset hv.1) hv.2
      rw [← (step_cases hw).1] at hmore
      exact hmore.imp_left fun hne => ⟨hv.1.step hw, hne⟩
    -- on the way to an empty buffer, some `handleWrite` works the backlog off
    have hway := Runs.mem_outputs_of_leaves hdrains ⟨h.step hu, hbacklog⟩ hafter
    exact hway.resolve_left fun hleft => hleft.2 (t.conn.backlog_eq_zero.mp hsent)
  · exact Or.inl hqueued

/-- **The notifications match the backlog.**  In every state of every run of a new
    connection: the high-water-mark callback is queued by exactly the steps that take the
    backlog across the mark, with the new backlog; the write-complete callback is queued
    only with every byte in the kernel; and if the buffer is empty, it has been queued
    since the call of `sendInLoop` of any message, the last one included, that is not
    empty and was not dropped.  Where logging leaves `errno` alone, a message is dropped if
    it finds the connection down, or if its own `::write` fails with `EPIPE` or `ECONNRESET`
    (`TcpConnection.drops_id`). -/
theorem notifications_match_backlog {loop : LoopId} {name : Name} {sockfd : Fd}
    {writeCompleteCallback highWaterMarkCallback : Bool} {highWaterMark : Nat}
    {acts : List FlowAct} {s : FlowState}
    (hrun : Runs.run step (start (.new loop name sockfd writeCompleteCallback
      highWaterMarkCallback highWaterMark)) acts = some s) :
    (∀ a t, step s a = some t →
        TcpConnection.highWaterMarks (s.effects a)
            = (if highWaterMarkCallback = true ∧ s.conn.backlog < highWaterMark
                ∧ highWaterMark ≤ t.conn.backlog then [t.conn.backlog] else [])
          ∧ (.queueInLoop .writeComplete ∈ s.effects a → t.kernel = t.accepted))
      ∧ (writeCompleteCallback = true → s.conn.backlog = 0 →
        ∀ before a after message res u, acts = before ++ a :: after →
          a.op = .sendInLoop message res → message ≠ [] →
          Runs.run step (start (.new loop name sockfd writeCompleteCallback
            highWaterMarkCallback highWaterMark)) before = some u →
          ¬ u.conn.Drops a.logging message res →
          .queueInLoop .writeComplete ∈ Runs.outputs step effects u (a :: after)) := by
  have hempty : (TcpConnection.new loop name sockfd writeCompleteCallback
      highWaterMarkCallback highWaterMark).outputBuffer.contents = [] :=
    WfBuffer.contents_new kInitialSize
  have hinv := Inv.of_run hempty hrun
  constructor
  · intro a t hstep
    have hconn := (step_cases hstep).1
    constructor
    · have hcalls := s.conn.execLogging_highWaterMarks a.logging a.op
      rw [← hconn, TcpConnection.dueHighWaterMarks, hinv.settings.highWater] at hcalls
      simp only [TcpConnection.Crosses, hinv.settings.mark] at hcalls
      exact hcalls
    · intro hqueued
      have hsent := TcpConnection.execLogging_writeComplete hqueued
      rw [← hconn] at hsent
      have hstream := (hinv.step hstep).stream
      rwa [hsent, List.append_nil] at hstream
  · rintro hcallback hsent before a after message res u rfl hop hmessage hbefore hkept
    have htakes : u.conn.takes a.logging a.op ≠ [] := by
      rw [hop, TcpConnection.takes, if_neg hkept]
      exact hmessage
    rw [Runs.run_append, hbefore, Option.bind_some] at hrun
    exact (Inv.of_run hempty hbefore).writeComplete_queued hcallback htakes hrun hsent

/-- A message goes beyond the mark in two steps and is worked off; another one is gone at
    once. -/
def crossedAndDrained : List FlowAct :=
  [⟨.connectEstablished, 0⟩, ⟨.sendInLoop [1, 2, 3] (.ok 1), 0⟩,
    ⟨.sendInLoop [4, 5] (.ok 0), 0⟩, ⟨.handleWrite (.ok 3), 0⟩, ⟨.handleWrite (.ok 1), 0⟩,
    ⟨.sendInLoop [6] (.ok 1), 0⟩]

theorem notifications_match_backlog_crossedAndDrained :
    ∃ s, Runs.run step (start (.new 0 ['c'] 7 true true 4)) crossedAndDrained = some s
      ∧ TcpConnection.highWaterMarks (Runs.outputs step effects
          (start (.new 0 ['c'] 7 true true 4)) crossedAndDrained) = [4]
      ∧ (∀ a t, step s a = some t →
        TcpConnection.highWaterMarks (s.effects a)
            = (if true = true ∧ s.conn.backlog < 4 ∧ 4 ≤ t.conn.backlog
                then [t.conn.backlog] else [])
          ∧ (.queueInLoop .writeComplete ∈ s.effects a → t.kernel = t.accepted))
      ∧ ∃ u, Runs.run step (start (.new 0 ['c'] 7 true true 4)) (crossedAndDrained.take 2) = some u
        ∧ .queueInLoop .writeComplete ∈ Runs.outputs step effects u (crossedAndDrained.drop 2) := by
  obtain ⟨s, hs⟩ := Option.isSome_iff_exists.mp (by decide +kernel :
    (Runs.run step (start (.new 0 ['c'] 7 true true 4)) crossedAndDrained).isSome = true)
  obtain ⟨u, hu⟩ := Option.isSome_iff_exists.mp (by decide +kernel :
    (Runs.run step (start (.new 0 ['c'] 7 true true 4)) (crossedAndDrained.take 2)).isSome = true)
  have hmarks : TcpConnection.highWaterMarks (Runs.outputs step effects
      (start (.new 0 ['c'] 7 true true 4)) crossedAndDrained) = [4] := by
    decide +kernel
  have hsent : ∀ v ∈ Runs.run step (start (.new 0 ['c'] 7 true true 4)) crossedAndDrained,
      v.conn.backlog = 0 := by
    decide +kernel
  have hkept : ∀ v ∈ Runs.run step (start (.new 0 ['c'] 7 true true 4)) (crossedAndDrained.take 2),
      ¬ v.conn.Drops (fun _ => 0) [4, 5] (.ok 0) := by
    decide +kernel
  obtain ⟨hsteps, hqueued⟩ := notifications_match_backlog hs
  exact ⟨s, hs, hmarks, hsteps, u, hu,
    hqueued rfl (hsent s hs) _ _ _ [4, 5] (.ok 0) u rfl rfl (by decide) hu (hkept u hu)⟩

end FlowState

end Ymuduo
