/-
  Ymuduo/TcpConnection.lean
  =========================
  **The member functions of `TcpConnection` (TcpConnection.cc).**

  A function that runs on the loop thread maps a connection to the connection it
  leaves and to its effects on everything else, in program order.  What the effects
  do (the poller, the functor queue, the user's callbacks) is the business of the
  component that runs the function.
-/
import Ymuduo.Buffer
import Ymuduo.Channel

namespace Ymuduo

inductive StateE where
  | kDisconnected
  | kConnecting
  | kConnected
  | kDisconnecting
deriving DecidableEq, Repr

/-- The order in which a connection goes through its states. -/
def StateE.rank : StateE → Nat
  | .kConnecting => 0
  | .kConnected => 1
  | .kDisconnecting => 2
  | .kDisconnected => 3

theorem StateE.rank_le_kDisconnected (state : StateE) :
    state.rank ≤ StateE.kDisconnected.rank := by
  cases state <;> decide

theorem StateE.eq_kDisconnected {state : StateE} (h : StateE.kDisconnected.rank ≤ state.rank) :
    state = .kDisconnected := by
  cases state <;> first | rfl | exact absurd h (by decide)

abbrev LoopId := Nat

/-- A `std::string` that is text. -/
abbrev Name := List Char

/-- The functors that are bound to one connection.  `sendInLoop`, `shutdownInLoop`
    capture a raw `this`, the others a `TcpConnectionPtr`. -/
inductive ConnFunctor where
  | connectEstablished
  | connectDestroyed
  | sendInLoop (message : List Byte)
  | shutdownInLoop
  | writeComplete                 -- `writeCompleteCallback_`
  | highWaterMark (size : Nat)    -- `highWaterMarkCallback_`
deriving DecidableEq, Repr

/-- What a member function does outside its own connection. -/
inductive Effect where
  | write (bytes : List Byte)               -- bytes that a `::write` delivered
  | shutdownWrite                           -- `::shutdown(sockfd, SHUT_WR)`
  | updateChannel                           -- `channel_->update()`
  | removeChannel                           -- `channel_->remove()`
  | queueInLoop (f : ConnFunctor)           -- `loop_->queueInLoop(f)`
  | connectionCallback
  | messageCallback
  | closeCallback
  | assertion (fault : Fault) (holds : Bool)
deriving DecidableEq, Repr

/-- A user callback is only known by whether it is set. -/
structure TcpConnection where
  loop : LoopId
  name : Name
  state : StateE
  channel : Channel
  writeCompleteCallback : Bool
  highWaterMarkCallback : Bool
  highWaterMark : Nat
  inputBuffer : WfBuffer
  outputBuffer : WfBuffer

namespace TcpConnection

/-- The constructor, followed by the setters for the callbacks. -/
def new (loop : LoopId) (name : Name) (sockfd : Fd) (writeCompleteCallback : Bool)
    (highWaterMarkCallback : Bool) (highWaterMark : Nat) : TcpConnection where
  loop := loop
  name := name
  state := .kConnecting
  channel := .new sockfd
  writeCompleteCallback := writeCompleteCallback
  highWaterMarkCallback := highWaterMarkCallback
  highWaterMark := highWaterMark
  inputBuffer := .new kInitialSize
  outputBuffer := .new kInitialSize

/-- `highWaterMark_(64 * 1024 * 1024)` -/
def defaultHighWaterMark : Nat := 64 * 1024 * 1024

def connected (conn : TcpConnection) : Bool := conn.state = .kConnected

/-- `if(writeCompleteCallback_) loop_->queueInLoop(...)` -/
def queueWriteComplete (conn : TcpConnection) : List Effect :=
  if conn.writeCompleteCallback then [.queueInLoop .writeComplete] else []

def shutdownInLoop (conn : TcpConnection) : List Effect :=
  if conn.channel.isWriting then [] else [.shutdownWrite]

/-! ### Sending -/

/-- The locals of `sendInLoop` after its direct `::write`, and the effects so far. -/
structure DirectWrite where
  nwrote : Nat
  remaining : Nat
  faultError : Bool
  effects : List Effect
deriving DecidableEq, Repr

/-- No direct `::write`: something is waiting in `outputBuffer` already. -/
def noDirectWrite (message : List Byte) : DirectWrite where
  nwrote := 0
  remaining := message.length
  faultError := false
  effects := []

/-- The direct `::write` of `message`.  `logging e` is the `errno` that `LOG_ERROR`
    leaves behind when it finds `e`: the second test of `errno` comes after it. -/
def directWrite (conn : TcpConnection) (logging : Errno → Errno) (message : List Byte) :
    SysResult → DirectWrite
  | .ok nwrote =>
    { nwrote := nwrote
      remaining := message.length - nwrote
      faultError := false
      effects := .write (message.take nwrote) ::
        if message.length - nwrote = 0 then conn.queueWriteComplete else [] }
  | .err errno =>
    { nwrote := 0
      remaining := message.length
      faultError := errno ≠ EWOULDBLOCK
        ∧ (logging errno = EPIPE ∨ logging errno = ECONNRESET)
      effects := [] }

/-- `if(!channel_->isWriting() && outputBuffer_.readableBytes() == 0)` -/
def WritesDirectly (conn : TcpConnection) : Prop :=
  conn.channel.isWriting = false ∧ conn.outputBuffer.readableBytes = 0

instance (conn : TcpConnection) : Decidable conn.WritesDirectly :=
  inferInstanceAs (Decidable (_ ∧ _))

/-- The second half of `sendInLoop`: keep what was not written. -/
def bufferRest (conn : TcpConnection) (message : List Byte) (w : DirectWrite) :
    TcpConnection × List Effect :=
  if w.faultError = false ∧ 0 < w.remaining then
    let oldLen := conn.outputBuffer.readableBytes
    let highWater :=
      if conn.highWaterMark ≤ oldLen + w.remaining ∧ oldLen < conn.highWaterMark
          ∧ conn.highWaterMarkCallback then
        [Effect.queueInLoop (.highWaterMark (oldLen + w.remaining))] else []
    let rest := (message.drop w.nwrote).take w.remaining
    let kept := { conn with outputBuffer := conn.outputBuffer.append rest }
    if conn.channel.isWriting then (kept, w.effects ++ highWater)
    else
      ({ kept with channel := conn.channel.enableWriting },
        w.effects ++ highWater ++ [.updateChannel])
  else (conn, w.effects)

/-- `sendInLoop`; `res` is the result of its `::write`, if it comes to one. -/
def sendInLoop (conn : TcpConnection) (logging : Errno → Errno) (message : List Byte)
    (res : SysResult) : TcpConnection × List Effect :=
  if conn.state = .kDisconnected then (conn, [])
  else if conn.WritesDirectly then
    conn.bufferRest message (conn.directWrite logging message res)
  else conn.bufferRest message (noDirectWrite message)

/-! ### Event handlers -/

/-- The branch of `handleWrite` in which the output buffer has just run empty. -/
def writeDrained (conn : TcpConnection) : TcpConnection × List Effect :=
  let quiet := { conn with channel := conn.channel.disableWriting }
  (quiet, .updateChannel :: quiet.queueWriteComplete
    ++ if quiet.state = .kDisconnecting then quiet.shutdownInLoop else [])

def handleWrite (conn : TcpConnection) (res : SysResult) : TcpConnection × List Effect :=
  if conn.channel.isWriting then
    match conn.outputBuffer.writeFd res with
    | (.ok n, outputBuffer) =>
      let written := Effect.write (conn.outputBuffer.contents.take n)
      let sent := { conn with outputBuffer := outputBuffer }
      if 0 < n ∧ outputBuffer.readableBytes = 0 then
        (sent.writeDrained.1, written :: sent.writeDrained.2)
      else (sent, [written])
    | (.err _, outputBuffer) => ({ conn with outputBuffer := outputBuffer }, [])
  else (conn, [])

def handleClose (conn : TcpConnection) : TcpConnection × List Effect :=
  let closed := { conn with state := .kDisconnected, channel := conn.channel.disableAll }
  (closed, [.updateChannel, .connectionCallback, .closeCallback])

/-- `handleRead`; the error branch (`handleError`) only reads `SO_ERROR` and logs. -/
def handleRead (conn : TcpConnection) (res : ReadvResult) : TcpConnection × List Effect :=
  match conn.inputBuffer.readFd res with
  | (.ok n, inputBuffer) =>
    if 0 < n then ({ conn with inputBuffer := inputBuffer }, [.messageCallback])
    else { conn with inputBuffer := inputBuffer }.handleClose
  | (.err _, inputBuffer) => ({ conn with inputBuffer := inputBuffer }, [])

/-! ### Establishing and destroying -/

def connectEstablished (conn : TcpConnection) : TcpConnection × List Effect :=
  let established := { conn with
    state := .kConnected, channel := conn.channel.tie.enableReading }
  (established, [.assertion .establishedAssert (conn.state = .kConnecting), .updateChannel,
    .connectionCallback])

def connectDestroyed (conn : TcpConnection) : TcpConnection × List Effect :=
  if conn.state = .kConnected then
    let closed := { conn with state := .kDisconnected, channel := conn.channel.disableAll }
    (closed, [.updateChannel, .connectionCallback, .removeChannel])
  else (conn, [.removeChannel])

/-! ### Calls from any thread -/

/-- What `runInLoop` does with a functor: run it at once or queue it. -/
inductive Dispatch where
  | nothing
  | run (f : ConnFunctor)
  | queue (f : ConnFunctor)
deriving DecidableEq, Repr

/-- `EventLoop::runInLoop` -/
def runInLoop (isInLoopThread : Bool) (f : ConnFunctor) : Dispatch :=
  if isInLoopThread then .run f else .queue f

/-- `send(buf)`, called on the loop thread or on another one. -/
def send (conn : TcpConnection) (isInLoopThread : Bool) (buf : List Byte) : Dispatch :=
  if conn.state = .kConnected then
    if isInLoopThread then .run (.sendInLoop buf)
    else runInLoop isInLoopThread (.sendInLoop buf)
  else .nothing

/-- `shutdown()`, called on the loop thread or on another one. -/
def shutdown (conn : TcpConnection) (isInLoopThread : Bool) : TcpConnection × Dispatch :=
  if conn.state = .kConnected then
    ({ conn with state := .kDisconnecting }, runInLoop isInLoopThread .shutdownInLoop)
  else (conn, .nothing)

end TcpConnection

end Ymuduo
