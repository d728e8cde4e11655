/-
  Ymuduo/Kernel.lean
  ==================
  **What the kernel hands to the program**: bytes, `errno` values, the results of
  the system calls, and the epoll event masks.

  The results are inputs of the model.  A count is only possible up to what the
  call asked for, which the step functions check where they use it.
-/

namespace Ymuduo

abbrev Byte := UInt8

/-! ### errno -/

abbrev Errno := Nat

def EPERM : Errno := 1
def EINTR : Errno := 4
def EBADF : Errno := 9
def EAGAIN : Errno := 11
def EWOULDBLOCK : Errno := EAGAIN
def ENOMEM : Errno := 12
def EFAULT : Errno := 14
def EINVAL : Errno := 22
def ENFILE : Errno := 23
def EMFILE : Errno := 24
def EPIPE : Errno := 32
def EPROTO : Errno := 71
def ENOTSOCK : Errno := 88
def EOPNOTSUPP : Errno := 95
def ECONNABORTED : Errno := 103
def ECONNRESET : Errno := 104
def ENOBUFS : Errno := 105

/-- The result of a `::write`: the count it returned, or -1 with `errno`. -/
inductive SysResult where
  | ok (n : Nat)
  | err (errno : Errno)
deriving DecidableEq, Repr

/-- The results a `::write` of `len` bytes can have. -/
def SysResult.Possible (len : Nat) : SysResult → Prop
  | .ok n => n ≤ len
  | .err _ => True

instance (len : Nat) : (res : SysResult) → Decidable (res.Possible len)
  | .ok n => inferInstanceAs (Decidable (n ≤ len))
  | .err _ => inferInstanceAs (Decidable True)

/-- The outcome of a `::readv`: the bytes it delivered, or -1 with `errno`. -/
inductive ReadvResult where
  | ok (bytes : List Byte)
  | err (errno : Errno)
deriving DecidableEq, Repr

/-- What the `::readv` returned. -/
def ReadvResult.returned : ReadvResult → SysResult
  | .ok bytes => .ok bytes.length
  | .err errno => .err errno

/-! ### epoll event masks -/

/-- An `events` mask, bit by bit: `EPOLLIN`, `EPOLLPRI`, `EPOLLOUT`, `EPOLLERR` and
    `EPOLLHUP`. -/
structure EpollEvents where
  epollIn : Bool := false
  epollPri : Bool := false
  epollOut : Bool := false
  epollErr : Bool := false
  epollHup : Bool := false
deriving DecidableEq, Repr

namespace EpollEvents

/-- `a | b` -/
def union (a b : EpollEvents) : EpollEvents where
  epollIn := a.epollIn || b.epollIn
  epollPri := a.epollPri || b.epollPri
  epollOut := a.epollOut || b.epollOut
  epollErr := a.epollErr || b.epollErr
  epollHup := a.epollHup || b.epollHup

/-- `a & ~b` -/
def diff (a b : EpollEvents) : EpollEvents where
  epollIn := a.epollIn && !b.epollIn
  epollPri := a.epollPri && !b.epollPri
  epollOut := a.epollOut && !b.epollOut
  epollErr := a.epollErr && !b.epollErr
  epollHup := a.epollHup && !b.epollHup

/-- `(a & b) != 0` -/
def meets (a b : EpollEvents) : Bool :=
  (a.epollIn && b.epollIn) || (a.epollPri && b.epollPri) || (a.epollOut && b.epollOut)
    || (a.epollErr && b.epollErr) || (a.epollHup && b.epollHup)

end EpollEvents

end Ymuduo
