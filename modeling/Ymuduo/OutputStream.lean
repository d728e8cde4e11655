/-
  Ymuduo/OutputStream.lean
  ========================
  **The output stream of one connection.**

  Bytes reach the kernel on two paths: the direct `::write` of `sendInLoop` and the
  buffered one of `handleWrite`.  Seen from outside, the kernel and `outputBuffer`
  are the two ends of one byte queue: a message that is not dropped is pushed whole,
  and both paths only pop (`exec_refines`).  `output_stream_integrity` is the run.
-/
import Ymuduo.Fifo
import Ymuduo.Runs
import Ymuduo.TcpConnection

namespace Ymuduo

/-- What runs on a connection, with the results of its system calls.  `shutdown`
    may be called by any thread; the others run on the loop thread. -/
inductive ConnOp where
  | connectEstablished
  | sendInLoop (message : List Byte) (res : SysResult)
  | handleWrite (res : SysResult)
  | handleRead (res : ReadvResult)
  | handleClose
  | shutdown
  | shutdownInLoop
  | connectDestroyed
deriving DecidableEq, Repr

/-- The operation calls `handleClose`. -/
def ConnOp.closes : ConnOp → Bool
  | .handleClose => true
  | .handleRead (.ok bytes) => bytes.length = 0
  | _ => false

/-- The results that the kernel can give in the state of the connection. -/
def ConnOp.Possible (conn : TcpConnection) : ConnOp → Prop
  | sendInLoop message res => res.Possible message.length
  | handleWrite res => res.Possible conn.outputBuffer.readableBytes
  | _ => True

instance (conn : TcpConnection) : (op : ConnOp) → Decidable (op.Possible conn)
  | .sendInLoop message res => inferInstanceAs (Decidable (res.Possible message.length))
  | .handleWrite res => inferInstanceAs (Decidable (res.Possible conn.outputBuffer.readableBytes))
  | .connectEstablished | .handleRead _ | .handleClose | .shutdown | .shutdownInLoop
  | .connectDestroyed => inferInstanceAs (Decidable True)

/-- The bytes that the `::write`s among the effects delivered. -/
def writtenBytes (effects : List Effect) : List Byte :=
  effects.flatMap fun
    | .write bytes => bytes
    | _ => []

@[simp] theorem writtenBytes_nil : writtenBytes [] = [] := rfl

@[simp] theorem writtenBytes_append (xs ys : List Effect) :
    writtenBytes (xs ++ ys) = writtenBytes xs ++ writtenBytes ys :=
  List.flatMap_append

@[simp] theorem writtenBytes_write (bytes : List Byte) (es : List Effect) :
    writtenBytes (.write bytes :: es) = bytes ++ writtenBytes es := rfl

@[simp] theorem writtenBytes_queueInLoop (f : ConnFunctor) (es : List Effect) :
    writtenBytes (.queueInLoop f :: es) = writtenBytes es := rfl

@[simp] theorem writtenBytes_updateChannel (es : List Effect) :
    writtenBytes (.updateChannel :: es) = writtenBytes es := rfl

/-- A call of `sendInLoop`: its message, the state it found, and the result of its
    own direct `::write`, if it made one. -/
structure SendCall where
  message : List Byte
  state : StateE
  direct : Option SysResult
deriving DecidableEq, Repr

/-- The messages that are left out whole. -/
def SendCall.dropped (call : SendCall) : Bool :=
  call.state = .kDisconnected ∨ call.direct = some (.err EPIPE)
    ∨ call.direct = some (.err ECONNRESET)

/-- The messages that are not left out, concatenated in call order. -/
def acceptedBytes (calls : List SendCall) : List Byte :=
  (calls.filter fun call => !call.dropped).flatMap SendCall.message

@[simp] theorem acceptedBytes_append (xs ys : List SendCall) :
    acceptedBytes (xs ++ ys) = acceptedBytes xs ++ acceptedBytes ys := by
  simp [acceptedBytes]

theorem acceptedBytes_singleton (call : SendCall) :
    acceptedBytes [call] = if call.dropped then [] else call.message := by
  cases h : call.dropped <;> simp [acceptedBytes, h]

namespace TcpConnection

/-- `logging` leaves `errno` as it is. -/
def exec (conn : TcpConnection) : ConnOp → TcpConnection × List Effect
  | .connectEstablished => conn.connectEstablished
  | .sendInLoop message res => conn.sendInLoop id message res
  | .handleWrite res => conn.handleWrite res
  | .handleRead res => conn.handleRead res
  | .handleClose => conn.handleClose
  | .shutdown => ((conn.shutdown false).1, [])
  | .shutdownInLoop => (conn, conn.shutdownInLoop)
  | .connectDestroyed => conn.connectDestroyed

def sendCall (conn : TcpConnection) (message : List Byte) (res : SysResult) : SendCall where
  message := message
  state := conn.state
  direct := if conn.state ≠ .kDisconnected ∧ conn.WritesDirectly then some res else none

/-- The calls of `sendInLoop` that an operation is: one or none. -/
def sendCalls (conn : TcpConnection) : ConnOp → List SendCall
  | .sendInLoop message res => [conn.sendCall message res]
  | _ => []

/-! ### The bytes each function moves -/

theorem queueWriteComplete_written (conn : TcpConnection) :
    writtenBytes conn.queueWriteComplete = [] := by
  unfold queueWriteComplete
  split <;> rfl

theorem shutdownInLoop_written (conn : TcpConnection) :
    writtenBytes conn.shutdownInLoop = [] := by
  unfold shutdownInLoop
  split <;> rfl

theorem writeDrained_written (conn : TcpConnection) :
    writtenBytes conn.writeDrained.2 = [] := by
  simp only [writeDrained, List.cons_append, writtenBytes_updateChannel, writtenBytes_append,
    queueWriteComplete_written, List.nil_append]
  split
  · exact shutdownInLoop_written _
  · rfl

theorem directWrite_written (conn : TcpConnection) (logging : Errno → Errno)
    (message : List Byte) (n : Nat) :
    writtenBytes (conn.directWrite logging message (.ok n)).effects = message.take n := by
  simp only [directWrite, writtenBytes_write]
  split
  · rw [queueWriteComplete_written, List.append_nil]
  · simp

/-- `bufferRest` appends what the direct write left over, unless it met a fault. -/
theorem bufferRest_contents (conn : TcpConnection) (message : List Byte) (w : DirectWrite) :
    (conn.bufferRest message w).1.outputBuffer.contents
      = conn.outputBuffer.contents
        ++ if w.faultError then [] else (message.drop w.nwrote).take w.remaining := by
  unfold bufferRest
  by_cases hrest : w.faultError = false ∧ 0 < w.remaining
  · rw [if_pos hrest, hrest.1]
    by_cases hwriting : conn.channel.isWriting <;> simp [hwriting]
  · rw [if_neg hrest]
    rcases hfault : w.faultError with _ | _
    · have hzero : w.remaining = 0 := by
        rcases Nat.eq_zero_or_pos w.remaining with hz | hpos
        · exact hz
        · exact absurd ⟨hfault, hpos⟩ hrest
      simp [hzero]
    · simp

theorem bufferRest_written (conn : TcpConnection) (message : List Byte) (w : DirectWrite) :
    writtenBytes (conn.bufferRest message w).2 = writtenBytes w.effects := by
  unfold bufferRest
  by_cases hrest : w.faultError = false ∧ 0 < w.remaining
  · rw [if_pos hrest]
    by_cases hwriting : conn.channel.isWriting <;> simp only [hwriting] <;>
      (simp; split <;> simp)
  · rw [if_neg hrest]

/-- The call of `sendInLoop` leaves its message out whole: the connection is down, or the
    direct `::write` has failed and the second test of `errno` finds a fault. -/
def Drops (conn : TcpConnection) (logging : Errno → Errno) (message : List Byte)
    (res : SysResult) : Prop :=
  conn.state = .kDisconnected
    ∨ conn.WritesDirectly ∧ (conn.directWrite logging message res).faultError = true

instance (conn : TcpConnection) (logging : Errno → Errno) (message : List Byte)
    (res : SysResult) : Decidable (conn.Drops logging message res) :=
  inferInstanceAs (Decidable (_ ∨ _))

/-- Where logging leaves `errno` alone, a message is dropped for these two errors. -/
theorem drops_id (conn : TcpConnection) (message : List Byte) (res : SysResult) :
    conn.Drops id message res ↔ conn.state = .kDisconnected
      ∨ conn.WritesDirectly ∧ (res = .err EPIPE ∨ res = .err ECONNRESET) := by
  refine or_congr Iff.rfl (and_congr Iff.rfl ?_)
  cases res with
  | ok n => simp [directWrite]
  | err errno =>
    simp only [directWrite, decide_eq_true_eq, SysResult.err.injEq, id]
    constructor
    · exact And.right
    · intro hfault
      refine ⟨?_, hfault⟩
      rcases hfault with rfl | rfl <;> decide

/-- **`sendInLoop` pushes its message whole, or drops it whole**, whatever its logging
    does to `errno`. -/
theorem sendInLoop_pushes (conn : TcpConnection) (logging : Errno → Errno)
    (message : List Byte) (res : SysResult) :
    writtenBytes (conn.sendInLoop logging message res).2
        ++ (conn.sendInLoop logging message res).1.outputBuffer.contents
      = conn.outputBuffer.contents
        ++ if conn.Drops logging message res then [] else message := by
  unfold sendInLoop
  by_cases hdisc : conn.state = .kDisconnected
  · rw [if_pos hdisc, if_pos (show conn.Drops logging message res from Or.inl hdisc)]
    simp
  by_cases hdirect : conn.WritesDirectly
  · -- the direct write: the buffer is empty, so the bytes meet in the middle of the message
    have hempty : conn.outputBuffer.contents = [] :=
      conn.outputBuffer.readableBytes_eq_zero.mp hdirect.2
    have hdrops : conn.Drops logging message res
        ↔ (conn.directWrite logging message res).faultError = true := by
      simp [Drops, hdisc, hdirect]
    rw [if_neg hdisc, if_pos hdirect, bufferRest_written, bufferRest_contents, hempty]
    simp only [hdrops]
    cases res with
    | ok n =>
      have hrest : (message.drop n).take (message.length - n) = message.drop n :=
        List.take_of_length_le (Nat.le_of_eq List.length_drop)
      rw [directWrite_written]
      simp [directWrite, hrest]
    | err errno => simp [directWrite]
  · have hkept : ¬ conn.Drops logging message res := by
      simp [Drops, hdisc, hdirect]
    rw [if_neg hdisc, if_neg hdirect, if_neg hkept, bufferRest_written, bufferRest_contents]
    simp [noDirectWrite]

/-- Where logging leaves `errno` alone, the messages dropped are those of the record. -/
theorem dropped_sendCall (conn : TcpConnection) (message : List Byte) (res : SysResult) :
    (conn.sendCall message res).dropped = true ↔ conn.Drops id message res := by
  rw [drops_id]
  unfold SendCall.dropped sendCall
  by_cases hdisc : conn.state = .kDisconnected
  · simp [hdisc]
  by_cases hdirect : conn.WritesDirectly
  · simp [hdisc, hdirect]
  · simp [hdisc, hdirect]

theorem sendInLoop_stream (conn : TcpConnection) (message : List Byte) (res : SysResult) :
    writtenBytes (conn.sendInLoop id message res).2
        ++ (conn.sendInLoop id message res).1.outputBuffer.contents
      = conn.outputBuffer.contents ++ acceptedBytes [conn.sendCall message res] := by
  have hcall : (conn.sendCall message res).message = message := rfl
  rw [sendInLoop_pushes, acceptedBytes_singleton, hcall]
  simp only [dropped_sendCall]

/-- **`handleWrite` pops what the kernel took.** -/
theorem handleWrite_stream (conn : TcpConnection) (res : SysResult) :
    writtenBytes (conn.handleWrite res).2 ++ (conn.handleWrite res).1.outputBuffer.contents
      = conn.outputBuffer.contents := by
  unfold handleWrite
  split
  · cases res with
    | err e => rfl
    | ok n =>
      have hpop := conn.outputBuffer.contents_writeFd_ok n
      simp only [WfBuffer.writeFd] at hpop ⊢
      split
      · rw [writtenBytes_write, writeDrained_written, List.append_nil]
        simp only [writeDrained]
        rw [hpop, List.take_append_drop]
      · simp [hpop]
  · rfl

theorem handleRead_stream (conn : TcpConnection) (res : ReadvResult) :
    writtenBytes (conn.handleRead res).2 = []
      ∧ (conn.handleRead res).1.outputBuffer = conn.outputBuffer := by
  unfold handleRead
  split
  · split <;> exact ⟨rfl, rfl⟩
  · exact ⟨rfl, rfl⟩

/-- Every function pushes the messages it accepts behind what is waiting and pops
    what it writes from the front. -/
theorem exec_stream (conn : TcpConnection) (op : ConnOp) :
    writtenBytes (conn.exec op).2 ++ (conn.exec op).1.outputBuffer.contents
      = conn.outputBuffer.contents ++ acceptedBytes (conn.sendCalls op) := by
  cases op with
  | sendInLoop message res => exact sendInLoop_stream conn message res
  | handleWrite res =>
    simpa [exec, sendCalls, acceptedBytes] using handleWrite_stream conn res
  | handleRead res =>
    obtain ⟨hwritten, hbuffer⟩ := handleRead_stream conn res
    simp [exec, hwritten, hbuffer, sendCalls, acceptedBytes]
  | connectEstablished => simp [exec, connectEstablished, sendCalls, acceptedBytes, writtenBytes]
  | handleClose => simp [exec, handleClose, sendCalls, acceptedBytes, writtenBytes]
  | shutdown =>
    simp only [exec, shutdown, sendCalls]
    split <;> simp [acceptedBytes]
  | shutdownInLoop =>
    simp [exec, shutdownInLoop_written, sendCalls, acceptedBytes]
  | connectDestroyed =>
    simp only [exec, connectDestroyed, sendCalls]
    split <;> simp [acceptedBytes, writtenBytes]

end TcpConnection

/-! ### Runs -/

/-- A connection, all bytes the kernel has accepted from it, and all calls of
    `sendInLoop` so far. -/
structure StreamState where
  conn : TcpConnection
  kernel : List Byte
  calls : List SendCall

namespace StreamState

def start (conn : TcpConnection) : StreamState := { conn, kernel := [], calls := [] }

def step (s : StreamState) (op : ConnOp) : Option StreamState :=
  if op.Possible s.conn then
    some { conn := (s.conn.exec op).1
           kernel := s.kernel ++ writtenBytes (s.conn.exec op).2
           calls := s.calls ++ s.conn.sendCalls op }
  else none

/-- The byte queue whose front is in the kernel and whose back is `outputBuffer`. -/
def stream (s : StreamState) : Fifo Byte := ⟨s.kernel, s.conn.outputBuffer.contents⟩

/-- **Both write paths refine one queue**: a step pushes the messages it accepts and
    pops the bytes it hands to the kernel. -/
theorem step_refines {s t : StreamState} {op : ConnOp} (h : step s op = some t) :
    t.stream = (s.stream.push (acceptedBytes (s.conn.sendCalls op))).pop
      (writtenBytes (s.conn.exec op).2).length := by
  unfold step at h
  split at h
  · cases h
    have hwaiting : (s.stream.push (acceptedBytes (s.conn.sendCalls op))).waiting
        = writtenBytes (s.conn.exec op).2 ++ (s.conn.exec op).1.outputBuffer.contents :=
      (s.conn.exec_stream op).symm
    exact (Fifo.pop_of_waiting_eq_append hwaiting).symm
  · cases h

theorem step_calls {s t : StreamState} {op : ConnOp} (h : step s op = some t) :
    t.calls = s.calls ++ s.conn.sendCalls op := by
  unfold step at h
  split at h
  · cases h; rfl
  · cases h

/-- **Output stream integrity.**  At every point of every run from a connection with
    nothing to send, the bytes the kernel accepted followed by those waiting in
    `outputBuffer` are the accepted messages, whole and in call order. -/
theorem output_stream_integrity (conn : TcpConnection)
    (hempty : conn.outputBuffer.contents = []) (ops : List ConnOp) (s : StreamState)
    (hrun : Runs.run step (start conn) ops = some s) :
    s.kernel ++ s.conn.outputBuffer.contents = acceptedBytes s.calls := by
  have hinv : s.stream.pushed = acceptedBytes s.calls := by
    refine Runs.run_induction (I := fun u => u.stream.pushed = acceptedBytes u.calls)
      (fun u op v hu hstep => ?_) ?_ hrun
    · rw [step_refines hstep, Fifo.pushed_pop, Fifo.pushed_push, hu, step_calls hstep,
        acceptedBytes_append]
    · simp [stream, start, Fifo.pushed, hempty, acceptedBytes]
  exact hinv

/-- A partial direct write, a message behind the backlog, a partial and a full drain,
    and a message dropped by `EPIPE`. -/
theorem output_stream_integrity_drained :
    ∃ s, Runs.run step (start (.new 0 ['c'] 7 true false 100))
        [.connectEstablished, .sendInLoop [1, 2, 3] (.ok 1), .sendInLoop [4, 5] (.err EAGAIN),
          .handleWrite (.ok 3), .handleWrite (.ok 1), .sendInLoop [6] (.err EPIPE)] = some s
      ∧ s.kernel ++ s.conn.outputBuffer.contents = acceptedBytes s.calls := by
  obtain ⟨s, hs⟩ := Option.isSome_iff_exists.mp (by decide +kernel :
    (Runs.run step (start (.new 0 ['c'] 7 true false 100))
      [.connectEstablished, .sendInLoop [1, 2, 3] (.ok 1), .sendInLoop [4, 5] (.err EAGAIN),
        .handleWrite (.ok 3), .handleWrite (.ok 1), .sendInLoop [6] (.err EPIPE)]).isSome = true)
  exact ⟨s, hs, output_stream_integrity _ (WfBuffer.contents_new kInitialSize) _ _ hs⟩

end StreamState

end Ymuduo
