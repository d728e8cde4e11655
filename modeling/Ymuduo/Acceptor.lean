/-
  Ymuduo/Acceptor.lean
  ====================
  **`Socket::accept` (Socket.cc) and `Acceptor` (Acceptor.h, Acceptor.cc).**

  Both functions look at `errno`, one before and one after a `LOG_ERROR`, so `errno` is a
  variable of the thread here, and what a log call leaves in it an input (`ThreadErrno`).
  `Socket::accept` hands six errors back; `Acceptor::handleRead` ends the process for
  one of them, `EMFILE`, although `idleFd_` is kept open for just that error.

  The system is an acceptor that listens, among the other channels of its poller and
  the other descriptors of its process.
-/
import Ymuduo.Poller
import Ymuduo.TcpServer
import Ymuduo.Runs
import Mathlib.Data.List.Forall2

namespace Ymuduo

/-! ### errno -/

/-- `errno`, how many log calls there have been, and what they leave in `errno`:
    `logging k e` is what the `k`-th of them makes of `e`. -/
structure ThreadErrno where
  errno : Errno
  logged : Nat
  logging : Nat → Errno → Errno

namespace ThreadErrno

/-- A system call fails, or `errno` is assigned. -/
def setErrno (t : ThreadErrno) (e : Errno) : ThreadErrno := { t with errno := e }

/-- A `LOG_INFO`, `LOG_ERROR` or `LOG_FATAL`. -/
def log (t : ThreadErrno) : ThreadErrno :=
  { t with errno := t.logging t.logged t.errno, logged := t.logged + 1 }

@[simp] theorem setErrno_errno (t : ThreadErrno) (e : Errno) : (t.setErrno e).errno = e := rfl
@[simp] theorem setErrno_logged (t : ThreadErrno) (e : Errno) :
    (t.setErrno e).logged = t.logged := rfl
@[simp] theorem setErrno_logging (t : ThreadErrno) (e : Errno) :
    (t.setErrno e).logging = t.logging := rfl
@[simp] theorem log_errno (t : ThreadErrno) : t.log.errno = t.logging t.logged t.errno := rfl
@[simp] theorem log_logged (t : ThreadErrno) : t.log.logged = t.logged + 1 := rfl
@[simp] theorem log_logging (t : ThreadErrno) : t.log.logging = t.logging := rfl

end ThreadErrno

/-! ### Socket::accept -/

/-- What `::accept4` returns: a descriptor, with the address of the peer, or -1 with `errno`. -/
inductive AcceptResult where
  | ok (connfd : Fd) (addr : InetAddress)
  | err (errno : Errno)
deriving DecidableEq, Repr

namespace Socket

/-- The `case`s of the `switch` in `accept`. -/
inductive ErrorCase where
  | expected
  | unexpected
  | unknown
deriving DecidableEq, Repr

/-- The errors that `accept` hands back to its caller. -/
def expectedErrors : List Errno := [EAGAIN, ECONNABORTED, EINTR, EPROTO, EPERM, EMFILE]

def unexpectedErrors : List Errno :=
  [EBADF, EFAULT, EINVAL, ENFILE, ENOBUFS, ENOMEM, ENOTSOCK, EOPNOTSUPP]

def errorCase (savedErrno : Errno) : ErrorCase :=
  if savedErrno ∈ expectedErrors then .expected
  else if savedErrno ∈ unexpectedErrors then .unexpected
  else .unknown

theorem errorCase_eq_expected {e : Errno} : errorCase e = .expected ↔ e ∈ expectedErrors := by
  unfold errorCase
  split
  · rename_i hexpected
    exact ⟨fun _ => hexpected, fun _ => rfl⟩
  · rename_i hnot
    split
    · exact ⟨fun heq => absurd heq (by decide), fun hexpected => absurd hexpected hnot⟩
    · exact ⟨fun heq => absurd heq (by decide), fun hexpected => absurd hexpected hnot⟩

/-- How `accept` ends: with a descriptor and `*peeraddr` set, with -1, or in a `LOG_FATAL`. -/
inductive Accepted where
  | connfd (fd : Fd) (peeraddr : InetAddress)
  | failed
  | fatal
deriving DecidableEq, Repr

def accept (t : ThreadErrno) : AcceptResult → ThreadErrno × Accepted
  | .ok connfd addr => (t, .connfd connfd addr)
  | .err e =>
    let failed := t.setErrno e
    let savedErrno := failed.errno
    let logged := failed.log
    match errorCase savedErrno with
    | .expected => (logged.setErrno savedErrno, .failed)
    | .unexpected => (logged.log, .fatal)
    | .unknown => (logged.log, .fatal)

end Socket

/-! ### Acceptor -/

structure Acceptor where
  acceptSocket : Fd
  acceptChannel : Channel
  newConnectionCallback : Bool
  listening : Bool
  idleFd : Fd
deriving DecidableEq, Repr

/-- What `handleRead` comes to: the call that it makes for a descriptor, an error that is
    only logged, or one of the two `LOG_FATAL`s. -/
inductive AcceptBranch where
  | newConnectionCallback (connfd : Fd) (peerAddr : InetAddress)
  | close (connfd : Fd)
  | failed
  | acceptFatal     -- in `Socket::accept`
  | reachedLimit    -- `LOG_FATAL("%s:%s:%d socket reached limit! \n", ...)`
deriving DecidableEq, Repr

namespace Acceptor

/-- The constructor; `createNonblocking` and the `::open` of `/dev/null` have succeeded. -/
def new (acceptSocket idleFd : Fd) : Acceptor where
  acceptSocket := acceptSocket
  acceptChannel := .new acceptSocket
  newConnectionCallback := false
  listening := false
  idleFd := idleFd

def setNewConnectionCallback (a : Acceptor) (set : Bool) : Acceptor :=
  { a with newConnectionCallback := set }

/-- `listen`, with `acceptChannel_` at the address `channel`. -/
def listen {κ : Type} (a : Acceptor) (channel : κ) (p : EPollPoller κ) :
    Except Fault (Acceptor × EPollPoller κ) :=
  (p.updateChannel channel a.acceptChannel.enableReading).map fun r =>
    ({ a with listening := true, acceptChannel := r.2 }, r.1)

def handleRead (a : Acceptor) (t : ThreadErrno) (res : AcceptResult) :
    ThreadErrno × AcceptBranch :=
  match Socket.accept t res with
  | (t, .connfd connfd peerAddr) =>
    if a.newConnectionCallback then (t, .newConnectionCallback connfd peerAddr)
    else (t, .close connfd)
  | (t, .failed) =>
    let logged := t.log
    if logged.errno = EMFILE then (logged.log, .reachedLimit) else (logged, .failed)
  | (t, .fatal) => (t, .acceptFatal)

theorem handleRead_ok (a : Acceptor) (t : ThreadErrno) (connfd : Fd) (addr : InetAddress) :
    a.handleRead t (.ok connfd addr)
      = (t, if a.newConnectionCallback then .newConnectionCallback connfd addr
        else .close connfd) := by
  simp only [handleRead, Socket.accept]
  split <;> rfl

/-- What `handleRead` tests after its own `LOG_ERROR`, the second log call, where
    `Socket::accept` has handed `e` back. -/
def testedErrno (t : ThreadErrno) (e : Errno) : Errno := t.logging (t.logged + 1) e

theorem handleRead_err (a : Acceptor) (t : ThreadErrno) (e : Errno) :
    (a.handleRead t (.err e)).2
      = if e ∈ Socket.expectedErrors then
          if testedErrno t e = EMFILE then .reachedLimit else .failed
        else .acceptFatal := by
  simp only [← Socket.errorCase_eq_expected]
  cases hcase : Socket.errorCase e with
  | expected =>
    simp only [handleRead, Socket.accept, ThreadErrno.setErrno_errno, hcase,
      ThreadErrno.log_errno, ThreadErrno.setErrno_logging, ThreadErrno.log_logging,
      ThreadErrno.setErrno_logged, ThreadErrno.log_logged, if_true]
    exact apply_ite Prod.snd _ _ _
  | unexpected | unknown =>
    simp only [handleRead, Socket.accept, ThreadErrno.setErrno_errno, hcase, reduceCtorEq, if_false]

@[simp] theorem handleRead_logging (a : Acceptor) (t : ThreadErrno) (res : AcceptResult) :
    (a.handleRead t res).1.logging = t.logging := by
  cases res with
  | ok connfd addr => rw [handleRead_ok]
  | err e =>
    simp only [handleRead, Socket.accept, ThreadErrno.setErrno_errno]
    cases Socket.errorCase e with
    | expected =>
      simp only
      split <;> rfl
    | unexpected | unknown => rfl

end Acceptor

/-! ### The acceptor in its process -/

/-- `self` is the address of `acceptChannel_`.  `openFds` are the open descriptors of the
    process, `accepted` what `accept4` has returned, `calls` what `handleRead` has done
    with it. -/
structure AcceptorSystem (κ : Type) where
  self : κ
  acceptor : Acceptor
  poller : EPollPoller κ
  thread : ThreadErrno
  openFds : List Fd
  exited : Bool
  accepted : List (Fd × InetAddress)
  calls : List AcceptBranch

/-- A readable event on the listening socket, with what `accept4` returns; or what goes on
    around the acceptor: the rest of the process opens and closes descriptors, and other
    channels come to the poller and go. -/
inductive AcceptorAct (κ : Type) where
  | readable (res : AcceptResult)
  | setNewConnectionCallback (set : Bool)
  | openFd (fd : Fd)
  | closeFd (fd : Fd)
  | updateChannel (channel : κ) (ch : Channel)
  | removeChannel (channel : κ) (ch : Channel)

namespace AcceptorSystem

variable {κ : Type}

/-- An acceptor that has just been told to listen. -/
def start (self : κ) (acceptSocket idleFd : Fd) (poller : EPollPoller κ) (thread : ThreadErrno)
    (openFds : List Fd) : Except Fault (AcceptorSystem κ) :=
  ((Acceptor.new acceptSocket idleFd).listen self poller).map fun r =>
    { self := self
      acceptor := r.1
      poller := r.2
      thread := thread
      openFds := acceptSocket :: idleFd :: openFds
      exited := false
      accepted := []
      calls := [] }

/-- The interest list has the listening socket, for reading. -/
def RegisteredForReading (s : AcceptorSystem κ) : Prop :=
  ∃ event ∈ s.poller.interest s.acceptor.acceptSocket, event.1.meets kReadEvent = true

instance (s : AcceptorSystem κ) : Decidable s.RegisteredForReading :=
  inferInstanceAs (Decidable (∃ event ∈ s.poller.interest s.acceptor.acceptSocket, _))

/-- A descriptor that `accept4` returns was not open. -/
def Fresh (s : AcceptorSystem κ) : AcceptResult → Prop
  | .ok connfd _ => connfd ∉ s.openFds
  | .err _ => True

instance (s : AcceptorSystem κ) : (res : AcceptResult) → Decidable (s.Fresh res)
  | .ok connfd _ => inferInstanceAs (Decidable (connfd ∉ s.openFds))
  | .err _ => inferInstanceAs (Decidable True)

/-- `accept4` has returned. -/
def received (s : AcceptorSystem κ) : AcceptResult → AcceptorSystem κ
  | .ok connfd addr =>
    { s with openFds := connfd :: s.openFds, accepted := s.accepted ++ [(connfd, addr)] }
  | .err _ => s

/-- What comes of the branch that `handleRead` takes. -/
def branch (s : AcceptorSystem κ) : AcceptBranch → AcceptorSystem κ
  | .newConnectionCallback connfd peerAddr =>
    { s with calls := s.calls ++ [.newConnectionCallback connfd peerAddr] }
  | .close connfd =>
    { s with
      openFds := s.openFds.filter fun fd => fd ≠ connfd
      calls := s.calls ++ [.close connfd] }
  | .failed => s
  | .acceptFatal | .reachedLimit => { s with exited := true }

def handleRead (s : AcceptorSystem κ) (res : AcceptResult) : AcceptorSystem κ :=
  let r := s.acceptor.handleRead s.thread res
  ({ s.received res with thread := r.1 } : AcceptorSystem κ).branch r.2

/-- Another channel has called the poller. -/
def withPoller (s : AcceptorSystem κ) :
    Except Fault (EPollPoller κ × Channel) → Option (AcceptorSystem κ)
  | .ok (p, _) => some { s with poller := p }
  | .error _ => none

def step (s : AcceptorSystem κ) (a : AcceptorAct κ) : Option (AcceptorSystem κ) :=
  if s.exited then none
  else
    match a with
    | .readable res =>
      if s.RegisteredForReading ∧ s.Fresh res then some (s.handleRead res) else none
    | .setNewConnectionCallback set =>
      some { s with acceptor := s.acceptor.setNewConnectionCallback set }
    | .openFd fd => if fd ∈ s.openFds then none else some { s with openFds := fd :: s.openFds }
    | .closeFd fd =>
      if fd = s.acceptor.acceptSocket ∨ fd = s.acceptor.idleFd then none
      else some { s with openFds := s.openFds.filter fun fd' => fd' ≠ fd }
    | .updateChannel channel ch =>
      if ch.fd = s.acceptor.acceptSocket then none
      else s.withPoller (s.poller.updateChannel channel ch)
    | .removeChannel channel ch =>
      if ch.fd = s.acceptor.acceptSocket then none
      else s.withPoller (s.poller.removeChannel channel ch)

/-! ### What a step can do -/

variable {s t : AcceptorSystem κ}

/-- What goes on around the acceptor leaves it alone, and what it needs. -/
structure Around (s t : AcceptorSystem κ) : Prop where
  exited : t.exited = s.exited
  thread : t.thread = s.thread
  acceptSocket : t.acceptor.acceptSocket = s.acceptor.acceptSocket
  idleFd : t.acceptor.idleFd = s.acceptor.idleFd
  listening : t.acceptor.listening = s.acceptor.listening
  poller : s.poller.SameAt t.poller s.acceptor.acceptSocket
  idle : s.acceptor.idleFd ∈ s.openFds → s.acceptor.idleFd ∈ t.openFds
  calls : t.calls = s.calls
  accepted : t.accepted = s.accepted

/-- Calls for other channels leave the listening socket where it is. -/
theorem Around.withPoller {r : Except Fault (EPollPoller κ × Channel)}
    (hsame : ∀ p ch, r = .ok (p, ch) → s.poller.SameAt p s.acceptor.acceptSocket)
    (hstep : s.withPoller r = some t) : s.Around t := by
  cases r with
  | ok r =>
    cases hstep
    exact ⟨rfl, rfl, rfl, rfl, rfl, hsame r.1 r.2 rfl, id, rfl, rfl⟩
  | error f => cases hstep

/-- A step is a readable event that is handled, or goes on around the acceptor. -/
theorem step_cases {a : AcceptorAct κ} (hstep : s.step a = some t) :
    s.exited = false
      ∧ ((∃ res, a = .readable res ∧ s.Fresh res ∧ t = s.handleRead res)
        ∨ (∀ res, a ≠ .readable res) ∧ s.Around t) := by
  have hsocket : s.poller.SameAt s.poller s.acceptor.acceptSocket := ⟨rfl, rfl⟩
  unfold AcceptorSystem.step at hstep
  simp only [Option.ite_none_left_eq_some] at hstep
  obtain ⟨hruns, hstep⟩ := hstep
  refine ⟨eq_false_of_ne_true hruns, ?_⟩
  cases a with
  | readable res =>
    simp only [Option.ite_none_right_eq_some, Option.some.injEq] at hstep
    obtain ⟨⟨_, hfresh⟩, rfl⟩ := hstep
    exact Or.inl ⟨res, rfl, hfresh, rfl⟩
  | setNewConnectionCallback set =>
    cases hstep
    exact Or.inr ⟨by rintro _ ⟨⟩, rfl, rfl, rfl, rfl, rfl, hsocket, id, rfl, rfl⟩
  | openFd fd =>
    simp only [Option.ite_none_left_eq_some, Option.some.injEq] at hstep
    obtain ⟨_, rfl⟩ := hstep
    exact Or.inr ⟨by rintro _ ⟨⟩, rfl, rfl, rfl, rfl, rfl, hsocket,
      List.mem_cons_of_mem fd, rfl, rfl⟩
  | closeFd fd =>
    simp only [Option.ite_none_left_eq_some, Option.some.injEq, not_or] at hstep
    obtain ⟨⟨_, hidle⟩, rfl⟩ := hstep
    refine Or.inr ⟨by rintro _ ⟨⟩, rfl, rfl, rfl, rfl, rfl, hsocket, fun hopen => ?_,
      rfl, rfl⟩
    exact List.mem_filter.mpr ⟨hopen, decide_eq_true (Ne.symm hidle)⟩
  | updateChannel channel ch =>
    simp only [Option.ite_none_left_eq_some] at hstep
    obtain ⟨hne, hstep⟩ := hstep
    refine Or.inr ⟨by rintro _ ⟨⟩, .withPoller (fun p' ch' hupdate => ?_) hstep⟩
    exact EPollPoller.updateChannel_sameAt hupdate (Ne.symm hne)
  | removeChannel channel ch =>
    simp only [Option.ite_none_left_eq_some] at hstep
    obtain ⟨hne, hstep⟩ := hstep
    refine Or.inr ⟨by rintro _ ⟨⟩, .withPoller (fun p' ch' hremove => ?_) hstep⟩
    exact EPollPoller.removeChannel_sameAt hremove (Ne.symm hne)

theorem handleRead_err (s : AcceptorSystem κ) (e : Errno) :
    ∃ thread, s.handleRead (.err e)
      = ({ s with thread := thread } : AcceptorSystem κ).branch
        (if e ∈ Socket.expectedErrors then
          if Acceptor.testedErrno s.thread e = EMFILE then .reachedLimit else .failed
        else .acceptFatal) :=
  ⟨_, by rw [← s.acceptor.handleRead_err]; rfl⟩

/-! ### Serving -/

/-- The call is about the descriptor that was accepted, and passes its peer on. -/
def Handles : AcceptBranch → Fd × InetAddress → Prop
  | .newConnectionCallback connfd peerAddr, c => c = (connfd, peerAddr)
  | .close connfd, c => c.1 = connfd
  | .failed, _ | .acceptFatal, _ | .reachedLimit, _ => False

/-- The process runs, the acceptor is registered for reading with `idleFd_` open, and each
    accepted descriptor has been passed to `newConnectionCallback_` or closed, once. -/
structure Serves (s : AcceptorSystem κ) : Prop where
  running : s.exited = false
  listening : s.acceptor.listening = true
  reading : s.RegisteredForReading
  idle : s.acceptor.idleFd ∈ s.openFds
  handled : List.Forall₂ Handles s.calls s.accepted

/-- What `accept4` returns is a descriptor, or -1 with an error that `Socket::accept` expects. -/
def Expected : AcceptorAct κ → Prop
  | .readable (.err e) => e ∈ Socket.expectedErrors
  | _ => True

instance : (a : AcceptorAct κ) → Decidable (Expected a)
  | .readable (.err e) => inferInstanceAs (Decidable (e ∈ Socket.expectedErrors))
  | .readable (.ok _ _) | .setNewConnectionCallback _ | .openFd _ | .closeFd _
  | .updateChannel _ _ | .removeChannel _ _ => inferInstanceAs (Decidable True)

/-- After a failed `accept4` the `errno` that `handleRead` tests is not `EMFILE`. -/
def Survives (s : AcceptorSystem κ) : AcceptorAct κ → Prop
  | .readable (.err e) => Acceptor.testedErrno s.thread e ≠ EMFILE
  | _ => True

instance (s : AcceptorSystem κ) : (a : AcceptorAct κ) → Decidable (s.Survives a)
  | .readable (.err e) => inferInstanceAs (Decidable (Acceptor.testedErrno s.thread e ≠ EMFILE))
  | .readable (.ok _ _) | .setNewConnectionCallback _ | .openFd _ | .closeFd _
  | .updateChannel _ _ | .removeChannel _ _ => inferInstanceAs (Decidable True)

theorem RegisteredForReading.of_sameAt (h : s.RegisteredForReading)
    (hsocket : t.acceptor.acceptSocket = s.acceptor.acceptSocket)
    (hsame : s.poller.SameAt t.poller s.acceptor.acceptSocket) : t.RegisteredForReading := by
  unfold RegisteredForReading at h ⊢
  rw [hsocket, hsame.2]
  exact h

theorem Serves.start {self : κ} {acceptSocket idleFd : Fd} {poller : EPollPoller κ}
    {thread : ThreadErrno} {openFds : List Fd}
    (hpoller : poller.Registered self (.new acceptSocket))
    (hstart : start self acceptSocket idleFd poller thread openFds = .ok s) : Serves s := by
  have hregistered : poller.Registered self (Channel.new acceptSocket).enableReading :=
    hpoller.congr rfl rfl
  simp only [AcceptorSystem.start, Acceptor.listen, Acceptor.new,
    EPollPoller.updateChannel_eq hregistered, Except.map, Except.ok.injEq] at hstart
  subst hstart
  refine ⟨rfl, rfl, ?_, List.mem_cons_of_mem _ List.mem_cons_self, .nil⟩
  refine ⟨(kReadEvent, self), ?_, rfl⟩
  exact Function.update_self _ _ _

theorem Serves.handleRead_ok (h : Serves s) {connfd : Fd} {addr : InetAddress}
    (hfresh : connfd ∉ s.openFds) : Serves (s.handleRead (.ok connfd addr)) := by
  unfold AcceptorSystem.handleRead
  rw [Acceptor.handleRead_ok]
  by_cases hcallback : s.acceptor.newConnectionCallback = true
  · simp only [hcallback, if_true, received, branch]
    refine ⟨h.running, h.listening, h.reading, List.mem_cons_of_mem _ h.idle, ?_⟩
    exact List.rel_append h.handled (.cons rfl .nil)
  · simp only [hcallback, received, branch]
    refine ⟨h.running, h.listening, h.reading, ?_, ?_⟩
    · have hne : s.acceptor.idleFd ≠ connfd := fun heq => hfresh (heq ▸ h.idle)
      exact List.mem_filter.mpr ⟨List.mem_cons_of_mem _ h.idle, decide_eq_true hne⟩
    · exact List.rel_append h.handled (.cons rfl .nil)

theorem Serves.failed (h : Serves s) {e : Errno} (hexpected : e ∈ Socket.expectedErrors)
    (hsurvives : Acceptor.testedErrno s.thread e ≠ EMFILE) : Serves (s.handleRead (.err e)) := by
  obtain ⟨thread, heq⟩ := s.handleRead_err e
  rw [heq, if_pos hexpected, if_neg hsurvives]
  exact ⟨h.running, h.listening, h.reading, h.idle, h.handled⟩

theorem Serves.around (h : Serves s) (haround : s.Around t) : Serves t where
  running := haround.exited.trans h.running
  listening := haround.listening.trans h.listening
  reading := h.reading.of_sameAt haround.acceptSocket haround.poller
  idle := haround.idleFd ▸ haround.idle h.idle
  handled := by
    rw [haround.calls, haround.accepted]
    exact h.handled

/-- A step that does not end the process goes on serving. -/
theorem Serves.step (h : Serves s) {a : AcceptorAct κ} (ha : Expected a ∧ s.Survives a)
    (hstep : s.step a = some t) : Serves t := by
  obtain ⟨_, ⟨res, rfl, hfresh, rfl⟩ | ⟨_, haround⟩⟩ := step_cases hstep
  · cases res with
    | ok connfd addr => exact h.handleRead_ok hfresh
    | err e => exact h.failed ha.1 ha.2
  · exact h.around haround

/-- Only a failed `accept4` can end it. -/
theorem exists_err_of_not_survives {a : AcceptorAct κ} (ha : ¬ (Expected a ∧ s.Survives a)) :
    ∃ e, a = .readable (.err e)
      ∧ ¬ (e ∈ Socket.expectedErrors ∧ Acceptor.testedErrno s.thread e ≠ EMFILE) := by
  cases a with
  | readable res =>
    cases res with
    | ok connfd addr => exact absurd ⟨trivial, trivial⟩ ha
    | err e => exact ⟨e, rfl, ha⟩
  | setNewConnectionCallback | openFd | closeFd | updateChannel | removeChannel =>
    exact absurd ⟨trivial, trivial⟩ ha

/-- The other steps end it. -/
theorem exits {a : AcceptorAct κ} (ha : ¬ (Expected a ∧ s.Survives a))
    (hstep : s.step a = some t) : t.exited = true := by
  obtain ⟨e, rfl, hfatal⟩ := exists_err_of_not_survives ha
  obtain ⟨_, ⟨res, heq, _, rfl⟩ | ⟨hnot, _⟩⟩ := step_cases hstep
  · cases heq
    obtain ⟨thread, hbranch⟩ := s.handleRead_err e
    rw [hbranch]
    by_cases hexpected : e ∈ Socket.expectedErrors
    · have hlimit : Acceptor.testedErrno s.thread e = EMFILE := by
        by_contra hne
        exact hfatal ⟨hexpected, hne⟩
      rw [if_pos hexpected, if_pos hlimit]
      rfl
    · rw [if_neg hexpected]
      rfl
  · exact absurd rfl (hnot (.err e))

/-- After a `LOG_FATAL` there is no step. -/
theorem not_step_of_exited (h : s.exited = true) {a : AcceptorAct κ} :
    s.step a ≠ some t := by
  intro hstep
  have hruns := (step_cases hstep).1
  rw [h] at hruns
  cases hruns

/-- A listening acceptor goes on serving exactly as long as no step ends the process. -/
theorem Serves.run_iff (h : Serves s) {acts : List (AcceptorAct κ)}
    (hrun : Runs.run AcceptorSystem.step s acts = some t) :
    Serves t ↔ Runs.Along AcceptorSystem.step (fun s a => Expected a ∧ s.Survives a) s acts := by
  rcases Runs.run_dichotomy (I := Serves) (J := fun s => s.exited = true)
      (C := fun s a => Expected a ∧ s.Survives a)
      (fun _ _ _ h ha hstep => h.step ha hstep) (fun _ _ _ _ ha hstep => exits ha hstep)
      (fun _ _ _ h hstep => absurd hstep (not_step_of_exited h)) h hrun
    with ⟨halong, hserves⟩ | ⟨hnot, hexited⟩
  · exact ⟨fun _ => halong, fun _ => hserves⟩
  · refine ⟨fun hserves => ?_, fun halong => absurd halong hnot⟩
    have hrunning := hserves.running
    rw [hexited] at hrunning
    cases hrunning

/-- In a run without unexpected errors the second test alone decides. -/
theorem Serves.run_iff_survives (h : Serves s) {acts : List (AcceptorAct κ)}
    (hexpected : ∀ a ∈ acts, Expected a)
    (hrun : Runs.run AcceptorSystem.step s acts = some t) :
    Serves t ↔ Runs.Along AcceptorSystem.step Survives s acts := by
  rw [h.run_iff hrun]
  refine Runs.along_congr_mem (fun a ha s => ?_) s
  exact ⟨fun hboth => hboth.2, fun hsurvives => ⟨hexpected a ha, hsurvives⟩⟩

/-- **Where `accept4` returns descriptors and expected errors only, the acceptor goes on
    serving exactly as long as the `errno` that `handleRead` tests is never `EMFILE`.** -/
theorem serves_iff_survives {self : κ} {acceptSocket idleFd : Fd} {poller : EPollPoller κ}
    {thread : ThreadErrno} {openFds : List Fd} {acts : List (AcceptorAct κ)}
    (hpoller : poller.Registered self (.new acceptSocket))
    (hstart : start self acceptSocket idleFd poller thread openFds = .ok s)
    (hexpected : ∀ a ∈ acts, Expected a)
    (hrun : Runs.run AcceptorSystem.step s acts = some t) :
    Serves t ↔ Runs.Along AcceptorSystem.step Survives s acts :=
  (Serves.start hpoller hstart).run_iff_survives hexpected hrun

/-- A server that closes a descriptor for want of a callback, delivers two, the second one
    with a descriptor that has been closed, and meets every expected error but `EMFILE`. -/
def busyActs : List (AcceptorAct Unit) :=
  [.readable (.ok 5 ⟨(10, 0, 0, 1), 4000⟩), .setNewConnectionCallback true,
    .readable (.ok 5 ⟨(10, 0, 0, 2), 4001⟩), .updateChannel () (Channel.new 5).enableReading,
    .readable (.err EAGAIN), .readable (.err ECONNABORTED), .readable (.err EINTR),
    .closeFd 5, .readable (.ok 5 ⟨(10, 0, 0, 3), 4002⟩), .readable (.err EPROTO),
    .readable (.err EPERM)]

/-- Log calls that leave `errno` alone. -/
def quietThread : ThreadErrno := ⟨0, 0, fun _ e => e⟩

theorem serves_iff_survives_busyActs :
    ∃ s t, start () 3 4 .new quietThread [0, 1, 2] = .ok s
      ∧ Runs.run AcceptorSystem.step s busyActs = some t
      ∧ (Serves t ↔ Runs.Along AcceptorSystem.step Survives s busyActs) := by
  have hsome : ∀ s, start () 3 4 .new quietThread [0, 1, 2] = .ok s →
      (Runs.run AcceptorSystem.step s busyActs).isSome = true := by
    rintro _ ⟨⟩
    decide +kernel
  obtain ⟨s, hstart⟩ : ∃ s, start () 3 4 .new quietThread [0, 1, 2] = .ok s := ⟨_, rfl⟩
  obtain ⟨t, hrun⟩ := Option.isSome_iff_exists.mp (hsome s hstart)
  have hpoller : (EPollPoller.new : EPollPoller Unit).Registered () (.new 3) := ⟨rfl, rfl⟩
  exact ⟨s, t, hstart, hrun, serves_iff_survives hpoller hstart (by decide +kernel) hrun⟩

/-- A server that runs out of descriptors ends. -/
theorem emfile_exits :
    ∃ s t, start () 3 4 .new quietThread [0, 1, 2] = .ok s
      ∧ (∀ a ∈ ([.setNewConnectionCallback true, .readable (.ok 5 ⟨(10, 0, 0, 1), 4000⟩),
        .readable (.err EMFILE)] : List (AcceptorAct Unit)), Expected a)
      ∧ Runs.run AcceptorSystem.step s
        [.setNewConnectionCallback true, .readable (.ok 5 ⟨(10, 0, 0, 1), 4000⟩),
          .readable (.err EMFILE)] = some t
      ∧ t.exited = true ∧ ¬ Serves t := by
  refine ⟨_, _, rfl, by decide +kernel, rfl, rfl, ?_⟩
  intro hserves
  have hrunning := hserves.running
  cases hrunning

/-! ### Log calls that leave errno alone -/

def Quiet (s : AcceptorSystem κ) : Prop := ∀ k e, s.thread.logging k e = e

theorem branch_thread (s : AcceptorSystem κ) (b : AcceptBranch) :
    (s.branch b).thread = s.thread := by
  cases b with
  | newConnectionCallback | close | failed | acceptFatal | reachedLimit => rfl

theorem Quiet.step (h : Quiet s) {a : AcceptorAct κ} (hstep : s.step a = some t) : Quiet t := by
  intro k e
  obtain ⟨_, ⟨res, _, _, rfl⟩ | ⟨_, haround⟩⟩ := step_cases hstep
  · rw [AcceptorSystem.handleRead, branch_thread, Acceptor.handleRead_logging]
    exact h k e
  · rw [haround.thread]
    exact h k e

theorem Quiet.survives_iff (h : Quiet s) (a : AcceptorAct κ) :
    s.Survives a ↔ a ≠ .readable (.err EMFILE) := by
  cases a with
  | readable res =>
    cases res with
    | ok connfd addr =>
      refine ⟨fun _ heq => ?_, fun _ => trivial⟩
      cases heq
    | err e =>
      rw [Survives, Acceptor.testedErrno, h]
      exact not_congr ⟨fun heq => heq ▸ rfl, fun heq => by cases heq; rfl⟩
  | setNewConnectionCallback | openFd | closeFd | updateChannel | removeChannel =>
    refine ⟨fun _ heq => ?_, fun _ => trivial⟩
    cases heq

/-- Then the acceptor goes on serving as long as no `accept4` fails with `EMFILE`. -/
theorem Quiet.serves_iff (h : Quiet s) (hserves : Serves s) {acts : List (AcceptorAct κ)}
    (hexpected : ∀ a ∈ acts, Expected a)
    (hrun : Runs.run AcceptorSystem.step s acts = some t) :
    Serves t ↔ .readable (.err EMFILE) ∉ acts := by
  have hquiet : Runs.Along AcceptorSystem.step Survives s acts
      ↔ Runs.Along AcceptorSystem.step (fun _ a => a ≠ .readable (.err EMFILE)) s acts :=
    Runs.along_congr (fun _ _ _ h _ hstep => h.step hstep) (fun _ a h => h.survives_iff a) h
  rw [hserves.run_iff_survives hexpected hrun, hquiet, Runs.along_iff_forall_mem hrun]
  exact ⟨fun hall hmem => hall _ hmem rfl, fun hnot a ha heq => hnot (heq ▸ ha)⟩

end AcceptorSystem

end Ymuduo
