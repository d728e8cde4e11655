/-
  Ymuduo/ConnStream.lean
  ======================
  **A `TcpConnection` is one end of a stream that is closed one direction at a time.**

  `ConnStream` is a connection with its socket: what the kernel has taken, whether the
  write end is shut down, and what the user has retrieved from `inputBuffer_`.  The poll
  reports the channel only while it is registered for reading; a `shutdownInLoop` comes
  from `shutdown()`, which is not interrupted; and the kernel takes nothing after `SHUT_WR`.
  Apart from that the functions run in any order, so that the calls of other threads are
  covered.

  Each step is answered by steps of a `Duplex` (`refines_duplex`), whatever logging does
  to `errno`.
-/
import Ymuduo.ConnView
import Ymuduo.Duplex
import Ymuduo.FlowControl
import Ymuduo.Simulation

namespace Ymuduo

/-! ### The model -/

/-- `retrieve` of all that is readable. -/
def WfBuffer.retrieveAll (b : WfBuffer) : WfBuffer := ⟨b.val.retrieveAll, b.property.retrieveAll⟩

@[simp] theorem WfBuffer.contents_retrieveAll (b : WfBuffer) : b.retrieveAll.contents = [] :=
  b.val.contents_retrieveAll

/-- `sent`: taken by the kernel.  `fin`: `::shutdown(sockfd, SHUT_WR)` was called.
    `taken`: retrieved by the user. -/
structure ConnStream where
  conn : TcpConnection
  sent : List Byte
  fin : Bool
  taken : List Byte

/-- `retrieve` and `retrieveAll` are the user's, on `inputBuffer_`; `retrieveAsString(len)`
    is a `retrieve(len)` to the buffer. -/
inductive ConnStreamAct where
  | op (op : ConnOp)
  | retrieve (len : Nat)
  | retrieveAll
deriving DecidableEq, Repr

namespace ConnStream

def start (conn : TcpConnection) : ConnStream := { conn, sent := [], fin := false, taken := [] }

/-- When the function can run: `connectEstablished` asserts `kConnecting`, a channel that
    is read or closed is registered, and `shutdownInLoop` was queued by `shutdown()`.  A
    `handleRead` after the `handleClose` of the same report is left out. -/
def Called (conn : TcpConnection) : ConnOp → Prop
  | .connectEstablished => conn.state = .kConnecting
  | .handleRead _ | .handleClose => conn.channel.isReading = true
  | .shutdownInLoop => conn.state = .kDisconnecting ∨ conn.state = .kDisconnected
  | .sendInLoop _ _ | .handleWrite _ | .shutdown | .connectDestroyed => True

instance (conn : TcpConnection) : (op : ConnOp) → Decidable (Called conn op)
  | .connectEstablished => inferInstanceAs (Decidable (_ = _))
  | .handleRead _ | .handleClose => inferInstanceAs (Decidable (_ = _))
  | .shutdownInLoop => inferInstanceAs (Decidable (_ ∨ _))
  | .sendInLoop _ _ | .handleWrite _ | .shutdown | .connectDestroyed =>
    inferInstanceAs (Decidable True)

/-- The `::write` of the function takes something. -/
def Takes : ConnOp → Prop
  | .sendInLoop _ (.ok _) | .handleWrite (.ok _) => True
  | _ => False

instance : (op : ConnOp) → Decidable (Takes op)
  | .sendInLoop _ (.ok _) | .handleWrite (.ok _) => inferInstanceAs (Decidable True)
  | .sendInLoop _ (.err _) | .handleWrite (.err _) | .connectEstablished | .handleRead _
  | .handleClose | .shutdown | .shutdownInLoop | .connectDestroyed =>
    inferInstanceAs (Decidable False)

def Enabled (s : ConnStream) (op : ConnOp) : Prop :=
  op.Possible s.conn ∧ Called s.conn op ∧ (s.fin = true → ¬ Takes op)

instance (s : ConnStream) (op : ConnOp) : Decidable (s.Enabled op) :=
  inferInstanceAs (Decidable (_ ∧ _ ∧ _))

/-- Run a function, with what its `::write`s and its `::shutdown` do to the socket. -/
def exec (logging : Errno → Errno) (s : ConnStream) (op : ConnOp) : ConnStream :=
  { s with
    conn := (s.conn.execLogging logging op).1
    sent := s.sent ++ writtenBytes (s.conn.execLogging logging op).2
    fin := s.fin || decide (.shutdownWrite ∈ (s.conn.execLogging logging op).2) }

/-- The user retrieves `len` bytes, or all there are. -/
def retrieve (s : ConnStream) (len : Nat) : ConnStream :=
  { s with
    conn := { s.conn with inputBuffer := s.conn.inputBuffer.retrieve len }
    taken := s.taken ++ s.conn.inputBuffer.contents.take len }

def retrieveAll (s : ConnStream) : ConnStream :=
  { s with
    conn := { s.conn with inputBuffer := s.conn.inputBuffer.retrieveAll }
    taken := s.taken ++ s.conn.inputBuffer.contents }

def step (logging : Errno → Errno) (s : ConnStream) : ConnStreamAct → Option ConnStream
  | .op op => if s.Enabled op then some (s.exec logging op) else none
  | .retrieve len => some (s.retrieve len)
  | .retrieveAll => some s.retrieveAll

/-! ### The stream that it is -/

def phase : StateE → DuplexPhase
  | .kConnecting => .fresh
  | .kConnected => .established
  | .kDisconnecting => .ending
  | .kDisconnected => .closed

/-- The sockets and the buffers are the two ends of the queues. -/
def duplex (s : ConnStream) : Duplex Byte where
  phase := phase s.conn.state
  inbox := ⟨s.taken, s.conn.inputBuffer.contents⟩
  outbox := ⟨s.sent, s.conn.outputBuffer.contents⟩
  fin := s.fin

/-- What is seen of an effect: the second `::shutdown` sends nothing. -/
def seenEffect (fin connected : Bool) : Effect → List (Seen Byte)
  | .write bytes => bytes.map .datum
  | .shutdownWrite => if fin then [] else [.fin]
  | .connectionCallback => [if connected then .up else .down]
  | .messageCallback => [.message]
  | .updateChannel | .removeChannel | .queueInLoop _ | .closeCallback | .assertion _ _ => []

def seen (logging : Errno → Errno) (s : ConnStream) : ConnStreamAct → List (Seen Byte)
  | .op op => (s.conn.execLogging logging op).2.flatMap
      (seenEffect s.fin (s.conn.execLogging logging op).1.connected)
  | .retrieve _ | .retrieveAll => []

/-- The bytes and the `SHUT_WR` among the effects, as steps of the stream. -/
def transmits (fin : Bool) (effects : List Effect) : List (DuplexAct Byte) :=
  (if writtenBytes effects = [] then [] else [.transmit (writtenBytes effects).length])
    ++ if fin = false ∧ .shutdownWrite ∈ effects then [.finish] else []

/-- What a step is to the stream. -/
def label (logging : Errno → Errno) (s : ConnStream) :
    ConnStreamAct → List (DuplexAct Byte)
  | .op op =>
    match op with
    | .connectEstablished => [.establish]
    | .sendInLoop _ _ =>
      if s.conn.state = .kDisconnected then []
      else .put (s.conn.takes logging op) :: transmits s.fin (s.conn.execLogging logging op).2
    | .handleWrite _ | .shutdownInLoop => transmits s.fin (s.conn.execLogging logging op).2
    | .handleRead (.ok bytes) => if bytes = [] then [.close] else [.arrive bytes]
    | .handleRead (.err _) => []
    | .handleClose => [.close]
    | .shutdown => if s.conn.state = .kConnected then [.endOutput] else []
    | .connectDestroyed => if s.conn.state = .kConnected then [.close] else []
  | .retrieve len => [.take (min len s.conn.inputBuffer.readableBytes)]
  | .retrieveAll => [.take s.conn.inputBuffer.readableBytes]

/-! ### The effects of the functions that move bytes -/

/-- Bytes and bookkeeping first, then at most the `SHUT_WR`. -/
def Ordered (effects : List Effect) : Prop :=
  ∃ before, (∀ e ∈ before, e.IsQuiet ∧ e ≠ .shutdownWrite)
    ∧ (effects = before ∨ effects = before ++ [.shutdownWrite])

theorem Ordered.append {before rest : List Effect}
    (hbefore : ∀ e ∈ before, e.IsQuiet ∧ e ≠ .shutdownWrite) (h : Ordered rest) :
    Ordered (before ++ rest) := by
  obtain ⟨more, hmore, hrest⟩ := h
  refine ⟨before ++ more, ?_, ?_⟩
  · intro e he
    rcases List.mem_append.mp he with hin | hin
    · exact hbefore e hin
    · exact hmore e hin
  · rcases hrest with rfl | rfl
    · exact Or.inl rfl
    · exact Or.inr (List.append_assoc _ _ _).symm

theorem shutdownInLoop_ordered (conn : TcpConnection) : Ordered conn.shutdownInLoop := by
  refine ⟨[], by simp, ?_⟩
  unfold TcpConnection.shutdownInLoop
  split
  · exact Or.inl rfl
  · exact Or.inr rfl

theorem sendInLoop_ordered (conn : TcpConnection) (logging : Errno → Errno)
    (message : List Byte) (res : SysResult) :
    Ordered (conn.sendInLoop logging message res).2 := by
  refine ⟨_, fun e he => ⟨(conn.sendInLoop_quiet logging message res).effects e he, ?_⟩, Or.inl rfl⟩
  rintro rfl
  exact TcpConnection.sendInLoop_effects he

theorem writeDrained_ordered (conn : TcpConnection) : Ordered conn.writeDrained.2 := by
  have hnotes : ∀ e ∈ Effect.updateChannel
      :: { conn with channel := conn.channel.disableWriting }.queueWriteComplete,
      e.IsQuiet ∧ e ≠ .shutdownWrite := by
    intro e he
    rcases List.mem_cons.mp he with rfl | hin
    · exact ⟨trivial, by simp⟩
    · refine ⟨TcpConnection.queueWriteComplete_quiet _ e hin, ?_⟩
      rintro rfl
      exact TcpConnection.queueWriteComplete_effects hin
  refine Ordered.append hnotes ?_
  split
  · exact shutdownInLoop_ordered _
  · exact ⟨[], by simp, Or.inl rfl⟩

theorem handleWrite_ordered (conn : TcpConnection) (res : SysResult) :
    Ordered (conn.handleWrite res).2 := by
  rcases conn.handleWrite_cases res with hnone | ⟨_, sent, n, rfl, ⟨_, hpart⟩ | ⟨_, hdrained⟩⟩
  · rw [hnone]
    exact ⟨[], by simp, Or.inl rfl⟩
  · rw [hpart]
    exact ⟨_, by simp [Effect.IsQuiet], Or.inl rfl⟩
  · rw [hdrained]
    have hwrite : ∀ e ∈ [Effect.write (conn.outputBuffer.contents.take n)],
        e.IsQuiet ∧ e ≠ .shutdownWrite := by
      simp [Effect.IsQuiet]
    exact (writeDrained_ordered _).append hwrite

theorem seen_quiet {fin connected : Bool} {effects : List Effect}
    (h : ∀ e ∈ effects, e.IsQuiet ∧ e ≠ .shutdownWrite) :
    effects.flatMap (seenEffect fin connected) = (writtenBytes effects).map .datum := by
  induction effects with
  | nil => rfl
  | cons e effects ih =>
    have hrest := ih fun e he => h e (List.mem_cons_of_mem _ he)
    obtain ⟨hquiet, hne⟩ := h e List.mem_cons_self
    rw [List.flatMap_cons, hrest]
    cases e with
    | write bytes => rw [writtenBytes_write, List.map_append, seenEffect]
    | shutdownWrite => exact absurd rfl hne
    | updateChannel | queueInLoop _ => rfl
    | removeChannel | connectionCallback | messageCallback | closeCallback | assertion _ _ =>
      exact hquiet.elim

/-- What is seen of them: the bytes, then the end of the output. -/
theorem Ordered.seen {effects : List Effect} (h : Ordered effects) (fin connected : Bool) :
    effects.flatMap (seenEffect fin connected) = (writtenBytes effects).map .datum
      ++ if fin = false ∧ .shutdownWrite ∈ effects then [.fin] else [] := by
  obtain ⟨before, hbefore, heffects⟩ := h
  have hnot : .shutdownWrite ∉ before := fun hin => (hbefore _ hin).2 rfl
  rcases heffects with rfl | rfl
  · simp [seen_quiet hbefore, hnot]
  · have hwritten : writtenBytes (before ++ [.shutdownWrite]) = writtenBytes before := by
      rw [writtenBytes_append]
      exact List.append_nil _
    rw [hwritten, List.flatMap_append, seen_quiet hbefore]
    cases fin <;> simp [seenEffect]

/-- **The stream transmits what the effects write, and ends its output if they do.** -/
theorem run_transmits {d : Duplex Byte} {effects : List Effect} {rest : List Byte}
    (hwaiting : d.outbox.waiting = writtenBytes effects ++ rest)
    (hopen : writtenBytes effects ≠ [] → d.fin = false)
    (hfinish : d.fin = false → .shutdownWrite ∈ effects →
      d.phase = .ending ∧ rest = [] ∨ d.phase = .closed) :
    Runs.run Duplex.step d (transmits d.fin effects)
        = some { d with
            outbox := ⟨d.outbox.popped ++ writtenBytes effects, rest⟩
            fin := d.fin || decide (.shutdownWrite ∈ effects) }
      ∧ Runs.outputs Duplex.step Duplex.observe d (transmits d.fin effects)
        = (writtenBytes effects).map .datum
          ++ if d.fin = false ∧ .shutdownWrite ∈ effects then [.fin] else [] := by
  -- the state between the bytes and the end
  obtain ⟨sent, hsent⟩ : ∃ sent : Duplex Byte,
      sent = { d with outbox := ⟨d.outbox.popped ++ writtenBytes effects, rest⟩ } := ⟨_, rfl⟩
  have hbytes : Runs.run Duplex.step d
        (if writtenBytes effects = [] then [] else [.transmit (writtenBytes effects).length])
          = some sent
      ∧ Runs.outputs Duplex.step Duplex.observe d
        (if writtenBytes effects = [] then [] else [.transmit (writtenBytes effects).length])
          = (writtenBytes effects).map .datum := by
    by_cases hnone : writtenBytes effects = []
    · simp only [hnone, List.nil_append, List.append_nil] at hwaiting hsent ⊢
      rw [hsent, ← hwaiting]
      exact ⟨rfl, rfl⟩
    · have hstep : d.step (.transmit (writtenBytes effects).length) = some sent := by
        rw [Duplex.step, if_pos ⟨by rw [hwaiting, List.length_append]; omega, hopen hnone⟩,
          Fifo.pop_of_waiting_eq_append hwaiting, hsent]
      rw [if_neg hnone]
      refine ⟨by rw [Runs.run_cons, hstep, Option.bind_some, Runs.run_nil], ?_⟩
      simp only [Runs.outputs, hstep, Duplex.observe, List.append_nil]
      rw [hwaiting, List.take_left]
  have hend : Runs.run Duplex.step sent
        (if d.fin = false ∧ .shutdownWrite ∈ effects then [.finish] else [])
          = some { sent with fin := d.fin || decide (.shutdownWrite ∈ effects) }
      ∧ Runs.outputs Duplex.step Duplex.observe sent
        (if d.fin = false ∧ .shutdownWrite ∈ effects then [.finish] else [])
          = if d.fin = false ∧ .shutdownWrite ∈ effects then [.fin] else [] := by
    by_cases hends : d.fin = false ∧ .shutdownWrite ∈ effects
    · have hmay : sent.MayFinish := by
        rw [hsent]
        exact ⟨hends.1, hfinish hends.1 hends.2⟩
      have hstep : sent.step .finish = some { sent with fin := true } := by
        rw [Duplex.step, if_pos hmay]
      rw [if_pos hends, if_pos hends]
      refine ⟨?_, by simp only [Runs.outputs, hstep, Duplex.observe, List.append_nil]⟩
      rw [Runs.run_cons, hstep, Option.bind_some, Runs.run_nil]
      simp [hends.2]
    · rw [if_neg hends, if_neg hends]
      refine ⟨?_, rfl⟩
      have hsame : (d.fin || decide (.shutdownWrite ∈ effects)) = sent.fin := by
        rw [hsent]
        cases hfin : d.fin
        · simp [hfin] at hends ⊢
          exact hends
        · rfl
      rw [hsame]
      rfl
  refine ⟨?_, ?_⟩
  · rw [transmits, Runs.run_append, hbytes.1, Option.bind_some, hend.1, hsent]
  · rw [transmits, Runs.outputs_append hbytes.1, hbytes.2, hend.2]

/-! ### The functions that move bytes -/

/-- What `sendInLoop`, `handleWrite` and `shutdownInLoop` do: `message` joins the queue of
    which the written bytes leave, and the rest of the connection stays. -/
structure Moves (conn conn' : TcpConnection) (effects : List Effect) (message : List Byte) :
    Prop where
  quiet : conn.QuietExec conn' effects
  inputBuffer : conn'.inputBuffer = conn.inputBuffer
  ordered : Ordered effects
  stream : writtenBytes effects ++ conn'.outputBuffer.contents
    = conn.outputBuffer.contents ++ message

theorem sendInLoop_moves (conn : TcpConnection) (logging : Errno → Errno) (message : List Byte)
    (res : SysResult) : Moves conn (conn.sendInLoop logging message res).1
      (conn.sendInLoop logging message res).2 (conn.takes logging (.sendInLoop message res)) where
  quiet := conn.sendInLoop_quiet logging message res
  inputBuffer := by
    have hrest : ∀ w, (conn.bufferRest message w).1.inputBuffer = conn.inputBuffer := by
      intro w
      unfold TcpConnection.bufferRest
      split
      · simp only
        split <;> rfl
      · rfl
    unfold TcpConnection.sendInLoop
    split
    · rfl
    · split
      · exact hrest _
      · exact hrest _
  ordered := sendInLoop_ordered conn logging message res
  stream := conn.sendInLoop_pushes logging message res

theorem handleWrite_moves (conn : TcpConnection) (res : SysResult) :
    Moves conn (conn.handleWrite res).1 (conn.handleWrite res).2 [] where
  quiet := conn.handleWrite_quiet res
  inputBuffer := by
    rcases conn.handleWrite_cases res with hnone | ⟨_, sent, n, rfl, ⟨_, hpart⟩ | ⟨_, hdrained⟩⟩
    · rw [hnone]
    · rw [hpart]
    · rw [hdrained]
      rfl
  ordered := handleWrite_ordered conn res
  stream := by rw [conn.handleWrite_stream res, List.append_nil]

theorem shutdownInLoop_moves (conn : TcpConnection) :
    Moves conn conn conn.shutdownInLoop [] where
  quiet := ⟨conn.shutdownInLoop_quiet, rfl, rfl, rfl, rfl, rfl, rfl⟩
  inputBuffer := rfl
  ordered := shutdownInLoop_ordered conn
  stream := by rw [conn.shutdownInLoop_written, List.nil_append, List.append_nil]

/-- A failed `::write` delivers nothing. -/
theorem sendInLoop_err_written (conn : TcpConnection) (logging : Errno → Errno)
    (message : List Byte) (errno : Errno) :
    writtenBytes (conn.sendInLoop logging message (.err errno)).2 = [] := by
  unfold TcpConnection.sendInLoop
  split
  · rfl
  · split
    · exact TcpConnection.bufferRest_written _ _ _
    · exact TcpConnection.bufferRest_written _ _ _

theorem handleWrite_err_written (conn : TcpConnection) (errno : Errno) :
    writtenBytes (conn.handleWrite (.err errno)).2 = [] := by
  unfold TcpConnection.handleWrite
  split <;> rfl

/-! ### The invariant -/

/-- Write interest and backlog go together until the close, which ends it, and the channel is
    registered for reading from the establishment to the close. -/
structure Inv (s : ConnStream) : Prop where
  synced : s.conn.state ≠ .kDisconnected → s.conn.Synced
  quiet : s.conn.state = .kDisconnected → s.conn.channel.isWriting = false
  reading : s.conn.channel.isReading = true
    ↔ s.conn.state = .kConnected ∨ s.conn.state = .kDisconnecting

theorem Inv.start {conn : TcpConnection} (hnew : conn.state = .kConnecting)
    (hsynced : conn.Synced) (hreading : conn.channel.isReading = false) : (start conn).Inv where
  synced := fun _ => hsynced
  quiet := by simp [ConnStream.start, hnew]
  reading := by simp [ConnStream.start, hnew, hreading]

/-- Where bytes move, `state_` and the interest in reading stay. -/
theorem Inv.moves {s t : ConnStream} (h : s.Inv) {effects : List Effect} {message : List Byte}
    (hmoves : Moves s.conn t.conn effects message) (hsynced : s.conn.Synced → t.conn.Synced)
    (hquiet : s.conn.state = .kDisconnected → s.conn.channel.isWriting = false →
      t.conn.channel.isWriting = false) : t.Inv where
  synced := by
    rw [hmoves.quiet.state]
    exact fun hopen => hsynced (h.synced hopen)
  quiet := by
    rw [hmoves.quiet.state]
    exact fun hstate => hquiet hstate (h.quiet hstate)
  reading := by
    rw [hmoves.quiet.state, hmoves.quiet.reading]
    exact h.reading

theorem isReading_disableAll (ch : Channel) : ch.disableAll.isReading = false := by
  simp [Channel.isReading, Channel.disableAll, EpollEvents.meets, kNonEvent, kReadEvent]

theorem isReading_enableReading (ch : Channel) : ch.enableReading.isReading = true := by
  simp [Channel.isReading, Channel.enableReading, EpollEvents.meets, EpollEvents.union, kReadEvent]

/-- A connection that closes. -/
theorem Inv.closed {s : ConnStream} {ch : Channel} (hstate : s.conn.state = .kDisconnected)
    (hchannel : s.conn.channel = ch.disableAll) : s.Inv where
  synced := fun hopen => absurd hstate hopen
  quiet := fun _ => by rw [hchannel, Channel.isWriting_disableAll]
  reading := by simp [hstate, hchannel, isReading_disableAll]

theorem handleWrite_quiet {conn : TcpConnection} (h : conn.channel.isWriting = false)
    (res : SysResult) : conn.handleWrite res = (conn, []) := by
  rw [TcpConnection.handleWrite, h]
  rfl

theorem Inv.exec {s : ConnStream} (h : s.Inv) (logging : Errno → Errno) {op : ConnOp}
    (henabled : s.Enabled op) : (s.exec logging op).Inv := by
  cases op with
  | connectEstablished =>
    have hopen : (s.exec logging .connectEstablished).conn.state ≠ .kDisconnected := by
      intro hstate
      cases hstate
    refine ⟨fun _ => ?_, fun hstate => absurd hstate hopen,
      iff_of_true (isReading_enableReading _) (Or.inl rfl)⟩
    have hsynced := h.synced (by rw [show s.conn.state = .kConnecting from henabled.2.1]; simp)
    simpa [ConnStream.exec, TcpConnection.execLogging, TcpConnection.exec,
      TcpConnection.connectEstablished, TcpConnection.Synced] using hsynced
  | sendInLoop message res =>
    exact h.moves (sendInLoop_moves s.conn logging message res)
      (fun hsynced => hsynced.sendInLoop logging message res) fun hstate hwriting => by
        show (s.conn.sendInLoop logging message res).1.channel.isWriting = false
        rwa [TcpConnection.sendInLoop, if_pos hstate]
  | handleWrite res =>
    exact h.moves (handleWrite_moves s.conn res) (fun hsynced => hsynced.handleWrite res)
      fun _ hwriting => by
        show (s.conn.handleWrite res).1.channel.isWriting = false
        rwa [handleWrite_quiet hwriting]
  | shutdownInLoop => exact h.moves (shutdownInLoop_moves s.conn) id fun _ => id
  | handleRead res =>
    cases res with
    | err errno => exact ⟨h.synced, h.quiet, h.reading⟩
    | ok bytes =>
      simp only [ConnStream.exec, TcpConnection.execLogging, TcpConnection.exec,
        TcpConnection.handleRead, WfBuffer.readFd]
      split
      · exact ⟨h.synced, h.quiet, h.reading⟩
      · exact .closed rfl rfl
  | handleClose => exact .closed rfl rfl
  | shutdown =>
    simp only [ConnStream.exec, TcpConnection.execLogging, TcpConnection.exec,
      TcpConnection.shutdown]
    split
    · rename_i hstate
      have hreading := h.reading.mpr (Or.inl hstate)
      refine ⟨fun _ => h.synced (by simp [hstate]), fun hclosed => ?_,
        iff_of_true hreading (Or.inr rfl)⟩
      cases hclosed
    · exact ⟨h.synced, h.quiet, h.reading⟩
  | connectDestroyed =>
    simp only [ConnStream.exec, TcpConnection.execLogging, TcpConnection.exec,
      TcpConnection.connectDestroyed]
    split
    · exact .closed rfl rfl
    · exact ⟨h.synced, h.quiet, h.reading⟩

/-! ### The refinement -/

/-- A connection and its stream. -/
def Refines (s : ConnStream) (d : Duplex Byte) : Prop := s.Inv ∧ d = s.duplex

/-- The bytes that a function moves, and the end of the output. -/
theorem run_moves {s t : ConnStream} {effects : List Effect} {message : List Byte}
    (hmoves : Moves s.conn t.conn effects message)
    (hsent : t.sent = s.sent ++ writtenBytes effects) (htaken : t.taken = s.taken)
    (hfin : t.fin = (s.fin || decide (.shutdownWrite ∈ effects)))
    (hopen : writtenBytes effects ≠ [] → s.fin = false)
    (hfinish : s.fin = false → .shutdownWrite ∈ effects →
      s.conn.state = .kDisconnecting ∧ t.conn.outputBuffer.contents = []
        ∨ s.conn.state = .kDisconnected) :
    Runs.run Duplex.step { s.duplex with outbox := s.duplex.outbox.push message }
        (transmits s.fin effects) = some t.duplex
      ∧ Runs.outputs Duplex.step Duplex.observe
          { s.duplex with outbox := s.duplex.outbox.push message } (transmits s.fin effects)
        = effects.flatMap (seenEffect s.fin t.conn.connected) := by
  have hends : s.fin = false → .shutdownWrite ∈ effects →
      s.duplex.phase = .ending ∧ t.conn.outputBuffer.contents = [] ∨ s.duplex.phase = .closed := by
    intro hnot hin
    rcases hfinish hnot hin with ⟨hstate, hempty⟩ | hstate
    · exact Or.inl ⟨by rw [duplex, hstate]; rfl, hempty⟩
    · exact Or.inr (by rw [duplex, hstate]; rfl)
  obtain ⟨hrun, hseen⟩ := run_transmits
    (d := { s.duplex with outbox := s.duplex.outbox.push message })
    hmoves.stream.symm hopen hends
  refine ⟨hrun.trans (congrArg some ?_), hseen.trans (hmoves.ordered.seen _ _).symm⟩
  simp only [duplex, Fifo.push, hmoves.quiet.state, hmoves.inputBuffer, hsent, htaken, hfin]

/-- A step that one step of the stream answers. -/
theorem answer_one {s t : ConnStream} {a : DuplexAct Byte} {seen : List (Seen Byte)}
    (hstep : s.duplex.step a = some t.duplex) (hseen : s.duplex.observe a = seen) :
    Runs.run Duplex.step s.duplex [a] = some t.duplex
      ∧ Runs.outputs Duplex.step Duplex.observe s.duplex [a] = seen := by
  constructor
  · rw [Runs.run_cons, hstep, Option.bind_some, Runs.run_nil]
  · simp only [Runs.outputs, hstep, hseen, List.append_nil]

theorem up_of_reading {s : ConnStream} (h : s.Inv) (hreading : s.conn.channel.isReading = true) :
    s.duplex.Up := by
  rcases h.reading.mp hreading with hstate | hstate
  · exact Or.inl (by rw [duplex, hstate]; rfl)
  · exact Or.inr (by rw [duplex, hstate]; rfl)

/-- `handleClose` closes the stream. -/
theorem answer_close {s t : ConnStream} (hup : s.duplex.Up)
    (ht : t.duplex = { s.duplex with phase := .closed }) :
    Runs.run Duplex.step s.duplex [.close] = some t.duplex
      ∧ Runs.outputs Duplex.step Duplex.observe s.duplex [.close] = [.down] := by
  refine answer_one ?_ rfl
  rw [Duplex.step, if_pos hup, ht]

/-- Calls that move no bytes. -/
theorem duplex_exec (s : ConnStream) (logging : Errno → Errno) (op : ConnOp)
    (hwritten : writtenBytes (s.conn.execLogging logging op).2 = [])
    (hfin : .shutdownWrite ∉ (s.conn.execLogging logging op).2)
    (houtput : (s.conn.execLogging logging op).1.outputBuffer = s.conn.outputBuffer) :
    (s.exec logging op).duplex = { s.duplex with
      phase := phase (s.conn.execLogging logging op).1.state
      inbox := ⟨s.taken, (s.conn.execLogging logging op).1.inputBuffer.contents⟩ } := by
  simp only [duplex, exec, hwritten, houtput, List.append_nil, hfin, decide_false, Bool.or_false]

theorem answer_op {s : ConnStream} (h : s.Inv) (logging : Errno → Errno) {op : ConnOp}
    (henabled : s.Enabled op) :
    Runs.run Duplex.step s.duplex (label logging s (.op op)) = some (s.exec logging op).duplex
      ∧ Runs.outputs Duplex.step Duplex.observe s.duplex (label logging s (.op op))
        = seen logging s (.op op) := by
  obtain ⟨_, hcalled, hkernel⟩ := henabled
  cases op with
  | connectEstablished =>
    have hphase : s.duplex.phase = .fresh := by
      rw [duplex, show s.conn.state = .kConnecting from hcalled]
      rfl
    have ht := duplex_exec s logging .connectEstablished rfl
      (by simp [TcpConnection.execLogging, TcpConnection.exec, TcpConnection.connectEstablished])
      rfl
    exact answer_one (by rw [Duplex.step, if_pos hphase, ht]; rfl) rfl
  | sendInLoop message res =>
    by_cases hclosed : s.conn.state = .kDisconnected
    · have hnothing : s.conn.sendInLoop logging message res = (s.conn, []) := by
        rw [TcpConnection.sendInLoop, if_pos hclosed]
      simp [label, seen, hclosed, exec, TcpConnection.execLogging, hnothing, writtenBytes, duplex,
        Runs.outputs]
    · have hopen : writtenBytes (s.conn.sendInLoop logging message res).2 ≠ [] →
          s.fin = false := by
        intro hwritten
        cases res with
        | ok n =>
          rw [← Bool.not_eq_true]
          exact fun hfin => hkernel hfin trivial
        | err errno => exact absurd (sendInLoop_err_written _ _ _ _) hwritten
      obtain ⟨hrun, hseen⟩ := run_moves (s := s) (t := s.exec logging (.sendInLoop message res))
        (sendInLoop_moves s.conn logging message res) rfl rfl rfl hopen
        fun _ hin => absurd hin TcpConnection.sendInLoop_effects
      have hphase : s.duplex.phase ≠ .closed := by
        intro hphase
        apply hclosed
        revert hphase
        simp only [duplex]
        cases s.conn.state <;> simp [phase]
      have hput : s.duplex.step (.put (s.conn.takes logging (.sendInLoop message res)))
          = some { s.duplex with outbox :=
              s.duplex.outbox.push (s.conn.takes logging (.sendInLoop message res)) } := by
        rw [Duplex.step, if_pos hphase]
      simp only [label, if_neg hclosed]
      refine ⟨?_, ?_⟩
      · rw [Runs.run_cons, hput, Option.bind_some]
        exact hrun
      · simp only [Runs.outputs, hput, Duplex.observe, List.nil_append]
        exact hseen
  | handleWrite res =>
    have hopen : writtenBytes (s.conn.handleWrite res).2 ≠ [] → s.fin = false := by
      intro hwritten
      cases res with
      | ok n =>
        rw [← Bool.not_eq_true]
        exact fun hfin => hkernel hfin trivial
      | err errno => exact absurd (handleWrite_err_written _ _) hwritten
    have hanswer := run_moves (s := s) (t := s.exec logging (.handleWrite res))
      (handleWrite_moves s.conn res) rfl rfl rfl hopen fun _ hin => by
        rcases @TcpConnection.exec_shutdownWrite _ (.handleWrite res) hin with ⟨heq, _⟩ | hdue
        · cases heq
        · left
          rwa [TcpConnection.exec, (s.conn.handleWrite_quiet res).state] at hdue
    rw [Fifo.push_nil] at hanswer
    exact hanswer
  | shutdownInLoop =>
    have hanswer := run_moves (s := s) (t := s.exec logging .shutdownInLoop)
      (shutdownInLoop_moves s.conn) rfl rfl rfl
      (fun hwritten => absurd s.conn.shutdownInLoop_written hwritten) fun _ hin => by
        rcases hcalled with hstate | hstate
        · left
          refine ⟨hstate, ?_⟩
          rcases @TcpConnection.exec_shutdownWrite _ .shutdownInLoop hin
            with ⟨_, hquiet⟩ | ⟨_, hempty⟩
          · by_contra hbacklog
            have hwriting := (h.synced (by simp [hstate])).mpr hbacklog
            exact absurd (hwriting.symm.trans hquiet) (by simp)
          · exact hempty
        · exact Or.inr hstate
    rw [Fifo.push_nil] at hanswer
    exact hanswer
  | handleRead res =>
    cases res with
    | err errno =>
      simp [label, seen, exec, TcpConnection.execLogging, TcpConnection.exec,
        TcpConnection.handleRead, WfBuffer.readFd, duplex, Runs.outputs]
    | ok bytes =>
      have hup := up_of_reading h hcalled
      by_cases hempty : bytes = []
      · -- the peer has closed
        subst hempty
        have hread : s.conn.handleRead (.ok []) = { s.conn with
            inputBuffer := (s.conn.inputBuffer.readFd (.ok [])).2 }.handleClose := rfl
        have ht := duplex_exec s logging (.handleRead (.ok [])) rfl
          (by simp [TcpConnection.execLogging, TcpConnection.exec, hread,
            TcpConnection.handleClose]) rfl
        refine answer_close hup (ht.trans ?_)
        simp [TcpConnection.execLogging, TcpConnection.exec, hread, TcpConnection.handleClose,
          phase, duplex]
      · have hread : s.conn.execLogging logging (.handleRead (.ok bytes)) = ({ s.conn with
            inputBuffer := (s.conn.inputBuffer.readFd (.ok bytes)).2 }, [.messageCallback]) := by
          show s.conn.handleRead (.ok bytes) = _
          rw [TcpConnection.handleRead]
          exact if_pos (List.length_pos_iff.mpr hempty)
        have ht := duplex_exec s logging (.handleRead (.ok bytes))
          (by rw [hread]; rfl) (by simp [hread]) (by rw [hread])
        simp only [label, if_neg hempty, seen, hread]
        refine answer_one ?_ rfl
        rw [Duplex.step, if_pos hup, ht, hread, WfBuffer.contents_readFd_ok]
        rfl
  | handleClose =>
    have ht := duplex_exec s logging .handleClose rfl
      (by simp [TcpConnection.execLogging, TcpConnection.exec, TcpConnection.handleClose]) rfl
    exact answer_close (up_of_reading h hcalled) ht
  | shutdown =>
    by_cases hstate : s.conn.state = .kConnected
    · have hshutdown : s.conn.execLogging logging .shutdown
          = ({ s.conn with state := .kDisconnecting }, []) := by
        show ((s.conn.shutdown false).1, []) = _
        rw [TcpConnection.shutdown, if_pos hstate]
      have ht := duplex_exec s logging .shutdown rfl
        List.not_mem_nil (by rw [hshutdown])
      have hphase : s.duplex.phase = .established := by
        rw [duplex, hstate]
        rfl
      simp only [label, if_pos hstate]
      refine answer_one ?_ rfl
      rw [Duplex.step, if_pos hphase, ht, hshutdown]
      rfl
    · have hshutdown : s.conn.execLogging logging .shutdown = (s.conn, []) := by
        show ((s.conn.shutdown false).1, []) = _
        rw [TcpConnection.shutdown, if_neg hstate]
      simp [label, seen, hstate, exec, hshutdown, writtenBytes, duplex, Runs.outputs]
  | connectDestroyed =>
    by_cases hstate : s.conn.state = .kConnected
    · have hdestroyed : s.conn.execLogging logging .connectDestroyed
          = ({ s.conn with state := .kDisconnected, channel := s.conn.channel.disableAll },
            [.updateChannel, .connectionCallback, .removeChannel]) := by
        show s.conn.connectDestroyed = _
        rw [TcpConnection.connectDestroyed, if_pos hstate]
      have ht := duplex_exec s logging .connectDestroyed
        (by rw [hdestroyed]; rfl) (by simp [hdestroyed]) (by rw [hdestroyed])
      have hup : s.duplex.Up := Or.inl (by rw [duplex, hstate]; rfl)
      simp only [label, if_pos hstate, seen, hdestroyed]
      refine answer_close hup (ht.trans ?_)
      rw [hdestroyed]
      rfl
    · have hdestroyed : s.conn.execLogging logging .connectDestroyed
          = (s.conn, [.removeChannel]) := by
        show s.conn.connectDestroyed = _
        rw [TcpConnection.connectDestroyed, if_neg hstate]
      simp [label, seen, hstate, exec, hdestroyed, writtenBytes, duplex, Runs.outputs, seenEffect]

/-- **A `TcpConnection` refines a stream that is closed one direction at a time**: what the
    peer and the user see of a run is what they can see of a run of the stream. -/
theorem refines_duplex (logging : Errno → Errno) :
    Runs.Simulation (step logging) Duplex.step (label logging) (seen logging) Duplex.observe
      Refines := by
  constructor
  rintro s t a _ ⟨hinv, rfl⟩ hstep
  cases a with
  | op op =>
    simp only [step, Option.ite_none_right_eq_some, Option.some.injEq] at hstep
    obtain ⟨henabled, rfl⟩ := hstep
    obtain ⟨hrun, hseen⟩ := answer_op hinv logging henabled
    exact ⟨_, hrun, hseen, hinv.exec logging henabled, rfl⟩
  | retrieve len =>
    cases hstep
    have hlength := s.conn.inputBuffer.length_contents
    have hn : min len s.conn.inputBuffer.readableBytes ≤ s.duplex.inbox.waiting.length := by
      simp only [duplex, hlength]
      exact Nat.min_le_right _ _
    obtain ⟨hrun, hseen⟩ := answer_one (s := s) (t := s.retrieve len)
      (a := .take (min len s.conn.inputBuffer.readableBytes)) (by
        rw [Duplex.step, if_pos hn]
        simp only [duplex, retrieve, Fifo.pop, WfBuffer.contents_retrieve, ← hlength]
        rcases Nat.le_total len s.conn.inputBuffer.contents.length with hle | hle
        · rw [Nat.min_eq_left hle]
        · rw [Nat.min_eq_right hle, List.take_length, List.take_of_length_le hle, List.drop_length,
            List.drop_eq_nil_of_le hle]) rfl
    exact ⟨_, hrun, hseen, ⟨hinv.synced, hinv.quiet, hinv.reading⟩, rfl⟩
  | retrieveAll =>
    cases hstep
    have hlength := s.conn.inputBuffer.length_contents
    have hn : s.conn.inputBuffer.readableBytes ≤ s.duplex.inbox.waiting.length :=
      Nat.le_of_eq hlength.symm
    obtain ⟨hrun, hseen⟩ := answer_one (s := s) (t := s.retrieveAll)
      (a := .take s.conn.inputBuffer.readableBytes) (by
        rw [Duplex.step, if_pos hn]
        simp [duplex, retrieveAll, Fifo.pop, ← hlength]) rfl
    exact ⟨_, hrun, hseen, ⟨hinv.synced, hinv.quiet, hinv.reading⟩, rfl⟩

theorem Inv.step {s t : ConnStream} {a : ConnStreamAct} (h : s.Inv) (logging : Errno → Errno)
    (hstep : s.step logging a = some t) : t.Inv := by
  obtain ⟨_, _, _, hinv, _⟩ := (refines_duplex logging).answer ⟨h, rfl⟩ hstep
  exact hinv

theorem start_refines (loop : LoopId) (name : Name) (sockfd : Fd)
    (writeCompleteCallback highWaterMarkCallback : Bool) (highWaterMark : Nat) :
    Refines (start (.new loop name sockfd writeCompleteCallback highWaterMarkCallback
      highWaterMark)) Duplex.start := by
  refine ⟨.start rfl (by simp [TcpConnection.Synced, TcpConnection.new]) rfl, ?_⟩
  simp [duplex, start, TcpConnection.new, Duplex.start, phase, Fifo.empty]

/-- **Every run of a connection is a run of the stream**, with the same trace. -/
theorem run_is_stream (logging : Errno → Errno) (loop : LoopId) (name : Name) (sockfd : Fd)
    (writeCompleteCallback highWaterMarkCallback : Bool) (highWaterMark : Nat)
    (acts : List ConnStreamAct) (s : ConnStream)
    (hrun : Runs.run (step logging) (start (.new loop name sockfd writeCompleteCallback
      highWaterMarkCallback highWaterMark)) acts = some s) :
    ∃ labels, Runs.run Duplex.step Duplex.start labels = some s.duplex
      ∧ Runs.outputs Duplex.step Duplex.observe Duplex.start labels
        = Runs.outputs (step logging) (seen logging) (start (.new loop name sockfd
          writeCompleteCallback highWaterMarkCallback highWaterMark)) acts := by
  obtain ⟨d, hlabels, htrace, _, rfl⟩ := (refines_duplex logging).trace
    (start_refines loop name sockfd writeCompleteCallback highWaterMarkCallback highWaterMark) hrun
  exact ⟨_, hlabels, htrace⟩

/-- A message, answered in two parts and half-closed behind a backlog, then the peer's end. -/
def answered : List ConnStreamAct :=
  [.op .connectEstablished, .op (.handleRead (.ok [1, 2, 3])), .retrieve 2,
    .op (.sendInLoop [4, 5, 6] (.ok 1)), .op .shutdown, .op .shutdownInLoop,
    .op (.handleWrite (.ok 2)), .op (.handleRead (.ok [7])), .retrieveAll,
    .op (.handleRead (.ok []))]

theorem run_is_stream_answered :
    ∃ s labels, Runs.run (step id) (start (.new 0 ['c'] 7 true false 100)) answered = some s
      ∧ Runs.run Duplex.step Duplex.start labels = some s.duplex
      ∧ Runs.outputs Duplex.step Duplex.observe Duplex.start labels
        = Runs.outputs (step id) (seen id) (start (.new 0 ['c'] 7 true false 100)) answered := by
  obtain ⟨s, hs⟩ := Option.isSome_iff_exists.mp (by decide +kernel :
    (Runs.run (step id) (start (.new 0 ['c'] 7 true false 100)) answered).isSome = true)
  obtain ⟨labels, hlabels⟩ := run_is_stream id 0 ['c'] 7 true false 100 answered s hs
  exact ⟨s, labels, hs, hlabels⟩

/-! ### What the user and the peer see -/

/-- The message that a step brings. -/
def received : ConnStreamAct → List (List Byte)
  | .op (.handleRead (.ok bytes)) => if bytes = [] then [] else [bytes]
  | _ => []

theorem arrived_transmits (fin : Bool) (effects : List Effect) :
    (transmits fin effects).flatMap Duplex.arrived = [] := by
  unfold transmits
  rw [List.flatMap_append]
  split <;> split <;> rfl

theorem arrived_label (logging : Errno → Errno) (s : ConnStream) (a : ConnStreamAct) :
    (label logging s a).flatMap Duplex.arrived = received a := by
  cases a with
  | retrieve len | retrieveAll => rfl
  | op op =>
    cases op with
    | connectEstablished | handleClose => rfl
    | sendInLoop message res =>
      simp only [label, received]
      split
      · rfl
      · exact arrived_transmits _ _
    | handleWrite _ | shutdownInLoop => exact arrived_transmits _ _
    | handleRead res =>
      cases res with
      | err errno => rfl
      | ok bytes =>
        simp only [label, received]
        split <;> rfl
    | shutdown | connectDestroyed =>
      simp only [label, received]
      split <;> rfl

/-- What a step takes over from its caller, for the output. -/
def takesOver (logging : Errno → Errno) (s : ConnStream) : ConnStreamAct → List Byte
  | .op op => s.conn.takes logging op
  | .retrieve _ | .retrieveAll => []

theorem given_transmits (fin : Bool) (effects : List Effect) :
    (transmits fin effects).flatMap Duplex.given = [] := by
  unfold transmits
  rw [List.flatMap_append]
  split <;> split <;> rfl

theorem given_label (logging : Errno → Errno) (s : ConnStream) (a : ConnStreamAct) :
    (label logging s a).flatMap Duplex.given = takesOver logging s a := by
  cases a with
  | retrieve len | retrieveAll => rfl
  | op op =>
    cases op with
    | connectEstablished | handleClose => rfl
    | sendInLoop message res =>
      simp only [label, takesOver]
      split
      · rename_i hstate
        exact (if_pos (Or.inl hstate)).symm
      · rw [List.flatMap_cons, given_transmits, List.append_nil]
        rfl
    | handleWrite _ | shutdownInLoop => exact given_transmits _ _
    | handleRead res =>
      cases res with
      | err errno => rfl
      | ok bytes =>
        simp only [label, takesOver]
        split <;> rfl
    | shutdown | connectDestroyed =>
      simp only [label, takesOver]
      split <;> rfl

theorem seen_from_start {conn : TcpConnection} (hstart : Refines (start conn) Duplex.start)
    {logging : Errno → Errno} {acts : List ConnStreamAct} {s : ConnStream}
    (hrun : Runs.run (step logging) (start conn) acts = some s) :
    s.taken ++ s.conn.inputBuffer.contents = (acts.flatMap received).flatten
      ∧ (Runs.outputs (step logging) (seen logging) (start conn) acts).filterMap Seen.wire
        = s.sent.map some ++ (if s.fin then [none] else [])
      ∧ (Runs.outputs (step logging) (seen logging) (start conn) acts).filterMap Seen.note
        = Duplex.notes (acts.flatMap received).length (phase s.conn.state) := by
  obtain ⟨d, hlabels, htrace, _, rfl⟩ := (refines_duplex logging).trace hstart hrun
  have hreceived := Runs.flatMap_outputs (fun s a _ _ => arrived_label logging s a) hrun
  have hinbox := Duplex.run_inbox hlabels
  have hwire := Duplex.run_wire hlabels
  have hnotes := Duplex.run_notes (n := 0) (fun _ => rfl) hlabels
  rw [hreceived] at hinbox hnotes
  rw [htrace] at hwire hnotes
  refine ⟨hinbox, hwire.symm, ?_⟩
  rw [Nat.zero_add] at hnotes
  exact hnotes.symm

/-- **What the two sides see of a connection.**  What `::readv` delivered has been
    retrieved or is readable, in order.  The peer sees the bytes that the kernel took and at
    most one end, behind them.  The user is told UP once, of each message once, and DOWN
    once when the connection is closed. -/
theorem seen_of_run (logging : Errno → Errno) (loop : LoopId) (name : Name) (sockfd : Fd)
    (writeCompleteCallback highWaterMarkCallback : Bool) (highWaterMark : Nat)
    (acts : List ConnStreamAct) (s : ConnStream)
    (hrun : Runs.run (step logging) (start (.new loop name sockfd writeCompleteCallback
      highWaterMarkCallback highWaterMark)) acts = some s) :
    s.taken ++ s.conn.inputBuffer.contents = (acts.flatMap received).flatten
      ∧ (Runs.outputs (step logging) (seen logging) (start (.new loop name sockfd
          writeCompleteCallback highWaterMarkCallback highWaterMark)) acts).filterMap Seen.wire
        = s.sent.map some ++ (if s.fin then [none] else [])
      ∧ (Runs.outputs (step logging) (seen logging) (start (.new loop name sockfd
          writeCompleteCallback highWaterMarkCallback highWaterMark)) acts).filterMap Seen.note
        = Duplex.notes (acts.flatMap received).length (phase s.conn.state) :=
  seen_from_start (start_refines loop name sockfd writeCompleteCallback highWaterMarkCallback
    highWaterMark) hrun

theorem seen_of_run_answered :
    ∃ s, Runs.run (step id) (start (.new 0 ['c'] 7 true false 100)) answered = some s
      ∧ s.taken ++ s.conn.inputBuffer.contents = (answered.flatMap received).flatten
      ∧ (Runs.outputs (step id) (seen id) (start (.new 0 ['c'] 7 true false 100))
          answered).filterMap Seen.wire = s.sent.map some ++ (if s.fin then [none] else [])
      ∧ (Runs.outputs (step id) (seen id) (start (.new 0 ['c'] 7 true false 100))
          answered).filterMap Seen.note
        = Duplex.notes (answered.flatMap received).length (phase s.conn.state) := by
  obtain ⟨s, hs⟩ := Option.isSome_iff_exists.mp (by decide +kernel :
    (Runs.run (step id) (start (.new 0 ['c'] 7 true false 100)) answered).isSome = true)
  exact ⟨s, hs, seen_of_run id 0 ['c'] 7 true false 100 answered s hs⟩

end ConnStream

end Ymuduo
