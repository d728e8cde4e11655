/-
  Ymuduo/Channel.lean
  ===================
  **`Channel` (Channel.h, Channel.cc) and `EPollPoller` (EPollPoller.cc).**

  A channel keeps the events its owner is interested in and an `index` that says
  how the poller knows it; `update()` and `remove()` go through the loop to the
  poller, which keeps the map `fd -> Channel*` and issues the `epoll_ctl` calls.
  The poller is generic in the type `κ` of channel pointers.

  An `assert` that fails and a `LOG_FATAL` end the process: a `Fault`.
-/
import Ymuduo.Kernel
import Mathlib.Logic.Function.Basic

namespace Ymuduo

abbrev Fd := Nat

/-- The `assert`s and the `LOG_FATAL` of the modelled functions, and what no check
    of the program catches. -/
inductive Fault where
  | updateChannelAssert    -- `channels_.find(fd) != channels_.end()`
  | removeChannelAssert    -- `index == kAdded || index == kDeleted`
  | epollCtlFatal          -- `LOG_FATAL` in `EPollPoller::update`
  | establishedAssert      -- `state_ == kConnecting` in `connectEstablished`
  | destructorAssert       -- `state_ == kDisconnected` in `~TcpConnection`
  | useAfterFree           -- a member function of a destroyed object
deriving DecidableEq, Repr

/-! ### Channel -/

inductive ChannelIndex where
  | kNew
  | kAdded
  | kDeleted
deriving DecidableEq, Repr

def kNonEvent : EpollEvents := {}
def kReadEvent : EpollEvents := { epollIn := true, epollPri := true }
def kWriteEvent : EpollEvents := { epollOut := true }

structure Channel where
  fd : Fd
  events : EpollEvents
  index : ChannelIndex
  tied : Bool
deriving DecidableEq, Repr

/-- The callbacks of a channel, each set by its owner. -/
inductive EventCallback where
  | close
  | error
  | read
  | write
deriving DecidableEq, Repr

namespace Channel

def new (fd : Fd) : Channel := { fd, events := kNonEvent, index := .kNew, tied := false }

def tie (ch : Channel) : Channel := { ch with tied := true }

def isNonEvent (ch : Channel) : Bool := ch.events = kNonEvent
def isWriting (ch : Channel) : Bool := ch.events.meets kWriteEvent
def isReading (ch : Channel) : Bool := ch.events.meets kReadEvent

/-! The assignments to `events_`; each is followed by `update()`. -/

def enableReading (ch : Channel) : Channel := { ch with events := ch.events.union kReadEvent }
def disableReading (ch : Channel) : Channel := { ch with events := ch.events.diff kReadEvent }
def enableWriting (ch : Channel) : Channel := { ch with events := ch.events.union kWriteEvent }
def disableWriting (ch : Channel) : Channel := { ch with events := ch.events.diff kWriteEvent }
def disableAll (ch : Channel) : Channel := { ch with events := kNonEvent }

/-- The callbacks that `handleEventWithGuard` invokes for `revents_`, in order. -/
def handleEventWithGuard (revents : EpollEvents) : List EventCallback :=
  (if revents.epollHup && !revents.epollIn then [.close] else [])
    ++ (if revents.epollErr then [.error] else [])
    ++ (if revents.epollIn || revents.epollPri then [.read] else [])
    ++ (if revents.epollOut then [.write] else [])

@[simp] theorem isWriting_enableWriting (ch : Channel) : ch.enableWriting.isWriting = true := by
  simp [isWriting, enableWriting, EpollEvents.meets, EpollEvents.union, kWriteEvent]

@[simp] theorem isWriting_disableWriting (ch : Channel) : ch.disableWriting.isWriting = false := by
  simp [isWriting, disableWriting, EpollEvents.meets, EpollEvents.diff, kWriteEvent]

@[simp] theorem isWriting_enableReading (ch : Channel) :
    ch.enableReading.isWriting = ch.isWriting := by
  simp [isWriting, enableReading, EpollEvents.meets, EpollEvents.union, kWriteEvent, kReadEvent]

@[simp] theorem isWriting_disableAll (ch : Channel) : ch.disableAll.isWriting = false := by
  simp [isWriting, disableAll, EpollEvents.meets, kNonEvent, kWriteEvent]

@[simp] theorem isWriting_tie (ch : Channel) : ch.tie.isWriting = ch.isWriting := rfl

@[simp] theorem isWriting_new (fd : Fd) : (new fd).isWriting = false := rfl

end Channel

/-! ### EPollPoller -/

inductive EpollOp where
  | add
  | mod
  | del
deriving DecidableEq, Repr

/-- `channels_`, and the interest list the kernel keeps for `epollfd_`. -/
structure EPollPoller (κ : Type) where
  channels : Fd → Option κ
  interest : Fd → Option (EpollEvents × κ)

namespace EPollPoller

variable {κ : Type}

def new : EPollPoller κ := { channels := fun _ => none, interest := fun _ => none }

/-- `::epoll_ctl`; `none` is the failure `EEXIST` of an `ADD` or `ENOENT` of the others. -/
def epollCtl (p : EPollPoller κ) (op : EpollOp) (fd : Fd) (event : EpollEvents × κ) :
    Option (EPollPoller κ) :=
  match op, p.interest fd with
  | .add, none => some { p with interest := Function.update p.interest fd (some event) }
  | .mod, some _ => some { p with interest := Function.update p.interest fd (some event) }
  | .del, some _ => some { p with interest := Function.update p.interest fd none }
  | _, _ => none

/-- `update`: a failed `DEL` is only logged. -/
def update (p : EPollPoller κ) (op : EpollOp) (channel : κ) (ch : Channel) :
    Except Fault (EPollPoller κ) :=
  match p.epollCtl op ch.fd (ch.events, channel) with
  | some p' => .ok p'
  | none => if op = .del then .ok p else .error .epollCtlFatal

def updateChannel (p : EPollPoller κ) (channel : κ) (ch : Channel) :
    Except Fault (EPollPoller κ × Channel) :=
  match ch.index with
  | .kNew =>
    let p := { p with channels := Function.update p.channels ch.fd (some channel) }
    let ch := { ch with index := .kAdded }
    (p.update .add channel ch).map fun p' => (p', ch)
  | .kDeleted =>
    if (p.channels ch.fd).isSome then
      let ch := { ch with index := .kAdded }
      (p.update .add channel ch).map fun p' => (p', ch)
    else .error .updateChannelAssert
  | .kAdded =>
    if ch.isNonEvent then
      (p.update .del channel ch).map fun p' => (p', { ch with index := .kDeleted })
    else (p.update .mod channel ch).map fun p' => (p', ch)

def removeChannel (p : EPollPoller κ) (channel : κ) (ch : Channel) :
    Except Fault (EPollPoller κ × Channel) :=
  let erased := { p with channels := Function.update p.channels ch.fd none }
  match ch.index with
  | .kNew => .error .removeChannelAssert
  | .kAdded => (erased.update .del channel ch).map fun p' => (p', { ch with index := .kNew })
  | .kDeleted => .ok (erased, { ch with index := .kNew })

end EPollPoller

end Ymuduo
