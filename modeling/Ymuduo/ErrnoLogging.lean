/-
  Ymuduo/ErrnoLogging.lean
  ========================
  **Which decisions depend on what logging leaves in `errno`.**

  `Socket::accept` saves `errno` before its `LOG_ERROR` and restores it afterwards, and so
  does `TcpConnection::handleRead`.  `sendInLoop` and `Acceptor::handleRead` log first
  and test `errno` then, so that a log call decides for them whether a message is dropped
  or buffered, and whether the process ends.

  A run is a sequence of their calls on one thread, each with what its system call
  returns, with any other log call or failed system call in between.  The log calls are
  an oracle.  `decisions_settled_iff` says of which runs the oracle lets the same be seen.
-/
import Ymuduo.Acceptor
import Ymuduo.FlowControl
import Ymuduo.Oracle

namespace Ymuduo

/-! ### sendInLoop with errno -/

namespace ThreadErrno

/-- The direct `::write` of `sendInLoop`; `errno` is tested, logged over and tested again. -/
def directWrite (t : ThreadErrno) (conn : TcpConnection) (message : List Byte) :
    SysResult → ThreadErrno × TcpConnection.DirectWrite
  | .ok nwrote =>
    (t,
      { nwrote := nwrote
        remaining := message.length - nwrote
        faultError := false
        effects := .write (message.take nwrote) ::
          if message.length - nwrote = 0 then conn.queueWriteComplete else [] })
  | .err e =>
    let failed := t.setErrno e
    if failed.errno ≠ EWOULDBLOCK then
      let logged := failed.log
      (logged,
        { nwrote := 0
          remaining := message.length
          faultError := logged.errno = EPIPE ∨ logged.errno = ECONNRESET
          effects := [] })
    else (failed, TcpConnection.noDirectWrite message)

def sendInLoop (t : ThreadErrno) (conn : TcpConnection) (message : List Byte) (res : SysResult) :
    ThreadErrno × TcpConnection × List Effect :=
  if conn.state = .kDisconnected then (t.log, conn, [])
  else if conn.WritesDirectly then
    let r := t.directWrite conn message res
    (r.1, conn.bufferRest message r.2)
  else (t, conn.bufferRest message (TcpConnection.noDirectWrite message))

/-- The other functions of a connection do not test `errno` after a log call; what they
    leave in it is left to `ErrnoAct.log` and `ErrnoAct.fail`. -/
def exec (t : ThreadErrno) (conn : TcpConnection) :
    ConnOp → ThreadErrno × TcpConnection × List Effect
  | .sendInLoop message res => t.sendInLoop conn message res
  | op => (t, conn.exec op)

theorem directWrite_eq (t : ThreadErrno) (conn : TcpConnection) (message : List Byte)
    (res : SysResult) :
    (t.directWrite conn message res).2
      = conn.directWrite (t.logging t.logged) message res := by
  cases res with
  | ok nwrote => rfl
  | err e =>
    by_cases hblock : e = EWOULDBLOCK
    · simp [directWrite, TcpConnection.directWrite, TcpConnection.noDirectWrite, hblock]
    · have hfault (found : Errno) :
          decide (e ≠ EWOULDBLOCK ∧ (found = EPIPE ∨ found = ECONNRESET))
            = decide (found = EPIPE ∨ found = ECONNRESET) :=
        decide_eq_decide.mpr (and_iff_right hblock)
      simp only [directWrite, TcpConnection.directWrite, hfault]
      rw [if_pos (show (t.setErrno e).errno ≠ EWOULDBLOCK from hblock)]
      rfl

/-- The one log call of `sendInLoop` that matters is the next one of the thread. -/
theorem exec_eq (t : ThreadErrno) (conn : TcpConnection) (op : ConnOp) :
    (t.exec conn op).2 = conn.execLogging (t.logging t.logged) op := by
  cases op with
  | sendInLoop message res =>
    simp only [exec, sendInLoop, TcpConnection.execLogging, TcpConnection.sendInLoop]
    by_cases hdisc : conn.state = .kDisconnected
    · rw [if_pos hdisc, if_pos hdisc]
    · rw [if_neg hdisc, if_neg hdisc]
      by_cases hdirect : conn.WritesDirectly
      · rw [if_pos hdirect, if_pos hdirect]
        exact congrArg (conn.bufferRest message) (t.directWrite_eq conn message res)
      · rw [if_neg hdirect, if_neg hdirect]
  | connectEstablished | handleWrite | handleRead | handleClose | shutdown | shutdownInLoop
  | connectDestroyed => rfl

end ThreadErrno

/-! ### Where the failed call settles what happens -/

namespace TcpConnection

/-- No `errno` is tested after a log call, or there is nothing to drop or buffer. -/
def Settled (conn : TcpConnection) : ConnOp → Prop
  | .sendInLoop message (.err e) =>
    conn.state = .kDisconnected ∨ ¬ conn.WritesDirectly ∨ e = EWOULDBLOCK ∨ message = []
  | _ => True

instance (conn : TcpConnection) : (op : ConnOp) → Decidable (conn.Settled op)
  | .sendInLoop message (.err e) =>
    inferInstanceAs (Decidable (_ ∨ _ ∨ e = EWOULDBLOCK ∨ message = []))
  | .sendInLoop _ (.ok _) | .connectEstablished | .handleWrite _ | .handleRead _ | .handleClose
  | .shutdown | .shutdownInLoop | .connectDestroyed => inferInstanceAs (Decidable True)

/-- Then all log calls are the same to it. -/
theorem execLogging_settled {conn : TcpConnection} {op : ConnOp} (h : conn.Settled op)
    (logging logging' : Errno → Errno) :
    conn.execLogging logging op = conn.execLogging logging' op := by
  cases op with
  | sendInLoop message res =>
    cases res with
    | ok n => rfl
    | err e =>
      simp only [execLogging, sendInLoop]
      rcases h with hdisc | hdirect | rfl | rfl
      · rw [if_pos hdisc, if_pos hdisc]
      · rw [if_neg hdirect, if_neg hdirect]
      · simp [directWrite]
      · simp [directWrite, bufferRest]
  | connectEstablished | handleWrite | handleRead | handleClose | shutdown | shutdownInLoop
  | connectDestroyed => rfl

/-- Otherwise a log call that leaves `EPIPE` drops the message, and one that leaves
    nothing keeps it. -/
theorem execLogging_ne_of_not_settled {conn : TcpConnection} {op : ConnOp} (h : ¬ conn.Settled op) :
    conn.execLogging (fun _ => 0) op ≠ conn.execLogging (fun _ => EPIPE) op := by
  cases op with
  | sendInLoop message res =>
    cases res with
    | ok n => exact absurd trivial h
    | err e =>
      simp only [Settled, not_or, not_not] at h
      obtain ⟨hdisc, hdirect, hblock, hmessage⟩ := h
      have hkept : ¬ conn.Drops (fun _ => 0) message (.err e) := by
        simp [Drops, hdisc, directWrite, EPIPE, ECONNRESET]
      have hdropped : conn.Drops (fun _ => EPIPE) message (.err e) := by
        simp [Drops, hdirect, directWrite, hblock]
      intro heq
      have hpushed := conn.sendInLoop_pushes (fun _ => 0) message (.err e)
      have hleft := conn.sendInLoop_pushes (fun _ => EPIPE) message (.err e)
      simp only [execLogging] at heq
      rw [if_neg hkept, heq, hleft, if_pos hdropped] at hpushed
      exact hmessage (List.append_cancel_left hpushed).symm
  | connectEstablished | handleWrite | handleRead | handleClose | shutdown | shutdownInLoop
  | connectDestroyed => exact absurd trivial h

end TcpConnection

/-! ### The thread -/

/-- What a run lets be seen: everything but `errno`. -/
structure Decisions where
  conn : TcpConnection
  acceptor : Acceptor
  effects : List Effect
  branches : List AcceptBranch

/-- `LOG_FATAL` has ended the process. -/
def Decisions.exited (d : Decisions) : Prop :=
  .acceptFatal ∈ d.branches ∨ .reachedLimit ∈ d.branches

instance (d : Decisions) : Decidable d.exited :=
  inferInstanceAs (Decidable (_ ∨ _))

structure ErrnoState where
  errno : Errno
  logged : Nat
  decisions : Decisions

/-- A call of a connection or of the acceptor, or what other code of the thread does to
    `errno`: a log call, or a system call that fails. -/
inductive ErrnoAct where
  | conn (op : ConnOp)
  | handleRead (res : AcceptResult)
  | setNewConnectionCallback (set : Bool)
  | log
  | fail (e : Errno)
deriving DecidableEq, Repr

namespace ErrnoState

/-- The thread, where `logging` says what its log calls leave in `errno`. -/
def thread (s : ErrnoState) (logging : Nat → Errno → Errno) : ThreadErrno :=
  ⟨s.errno, s.logged, logging⟩

def settle (t : ThreadErrno) (d : Decisions) : ErrnoState := ⟨t.errno, t.logged, d⟩

def step (logging : Nat → Errno → Errno) (s : ErrnoState) (a : ErrnoAct) : Option ErrnoState :=
  if s.decisions.exited then none
  else
    match a with
    | .conn op =>
      let r := (s.thread logging).exec s.decisions.conn op
      some (settle r.1 { s.decisions with
        conn := r.2.1, effects := s.decisions.effects ++ r.2.2 })
    | .handleRead res =>
      let r := s.decisions.acceptor.handleRead (s.thread logging) res
      some (settle r.1 { s.decisions with branches := s.decisions.branches ++ [r.2] })
    | .setNewConnectionCallback set =>
      some { s with decisions := { s.decisions with
        acceptor := s.decisions.acceptor.setNewConnectionCallback set } }
    | .log => some (settle (s.thread logging).log s.decisions)
    | .fail e => some (settle ((s.thread logging).setErrno e) s.decisions)

/-- The `errno` of the failed system call settles what the call comes to. -/
def Settled (s : ErrnoState) (a : ErrnoAct) : Prop :=
  s.decisions.exited ∨
    match a with
    | .conn op => s.decisions.conn.Settled op
    | .handleRead (.err e) => e ∉ Socket.expectedErrors
    | _ => True

instance (s : ErrnoState) : (a : ErrnoAct) → Decidable (s.Settled a)
  | .conn op => inferInstanceAs (Decidable (_ ∨ s.decisions.conn.Settled op))
  | .handleRead (.err e) => inferInstanceAs (Decidable (_ ∨ e ∉ Socket.expectedErrors))
  | .handleRead (.ok _ _) | .setNewConnectionCallback _ | .log | .fail _ =>
    inferInstanceAs (Decidable (_ ∨ True))

variable {logging logging' : Nat → Errno → Errno} {s s' : ErrnoState}

theorem step_exited (hexited : s.decisions.exited) (a : ErrnoAct) : step logging s a = none := by
  unfold step
  rw [if_pos hexited]

/-! What is seen after the two calls that test `errno`. -/

theorem map_step_conn (hruns : ¬ s.decisions.exited) (op : ConnOp) :
    (step logging s (.conn op)).map decisions
      = some { s.decisions with
          conn := (s.decisions.conn.execLogging (logging s.logged) op).1
          effects := s.decisions.effects
            ++ (s.decisions.conn.execLogging (logging s.logged) op).2 } := by
  simp only [step, if_neg hruns, Option.map_some, settle, ThreadErrno.exec_eq]
  rfl

theorem map_step_handleRead (hruns : ¬ s.decisions.exited) (res : AcceptResult) :
    (step logging s (.handleRead res)).map decisions
      = some { s.decisions with
          branches := s.decisions.branches
            ++ [(s.decisions.acceptor.handleRead (s.thread logging) res).2] } := by
  simp only [step, if_neg hruns, Option.map_some, settle]

/-- **A settled step is the same to all log calls**, and whatever `errno` was before. -/
theorem step_settled (hlow : s.decisions = s'.decisions) {a : ErrnoAct} (h : s.Settled a) :
    (step logging s a).map decisions = (step logging' s' a).map decisions := by
  by_cases hexited : s.decisions.exited
  · rw [step_exited hexited, step_exited (hlow ▸ hexited)]
  have hexited' : ¬ s'.decisions.exited := hlow ▸ hexited
  replace h := h.resolve_left hexited
  cases a with
  | conn op =>
    rw [map_step_conn hexited, map_step_conn hexited', ← hlow,
      TcpConnection.execLogging_settled h (logging s.logged) (logging' s'.logged)]
  | handleRead res =>
    rw [map_step_handleRead hexited, map_step_handleRead hexited', ← hlow]
    cases res with
    | ok connfd addr => rw [Acceptor.handleRead_ok, Acceptor.handleRead_ok]
    | err e =>
      have hnot : e ∉ Socket.expectedErrors := h
      rw [Acceptor.handleRead_err, Acceptor.handleRead_err, if_neg hnot, if_neg hnot]
  | setNewConnectionCallback | log | fail =>
    simp only [step, if_neg hexited', Option.map_some, settle, hlow]

/-- **At any other step two of them part**: one that always leaves 0, and one that always
    leaves `EPIPE` or `EMFILE`. -/
theorem exists_step_ne {a : ErrnoAct} (h : ¬ s.Settled a) :
    ∃ logging logging', ∀ s₁ s₂ : ErrnoState, s₁.decisions = s.decisions →
      s₂.decisions = s.decisions →
      (step logging s₁ a).map decisions ≠ (step logging' s₂ a).map decisions := by
  simp only [Settled, not_or] at h
  obtain ⟨hruns, h⟩ := h
  cases a with
  | conn op =>
    refine ⟨fun _ _ => 0, fun _ _ => EPIPE, fun s₁ s₂ h₁ h₂ heq => ?_⟩
    rw [map_step_conn (h₁ ▸ hruns), map_step_conn (h₂ ▸ hruns), h₁, h₂] at heq
    simp only [Option.some.injEq, Decisions.mk.injEq, List.append_cancel_left_eq] at heq
    obtain ⟨hconn, _, heffects, _⟩ := heq
    exact TcpConnection.execLogging_ne_of_not_settled h (Prod.ext hconn heffects)
  | handleRead res =>
    cases res with
    | ok connfd addr => exact absurd trivial h
    | err e =>
      have hexpected : e ∈ Socket.expectedErrors := Decidable.not_not.mp h
      refine ⟨fun _ _ => 0, fun _ _ => EMFILE, fun s₁ s₂ h₁ h₂ heq => ?_⟩
      rw [map_step_handleRead (h₁ ▸ hruns), map_step_handleRead (h₂ ▸ hruns), h₁, h₂,
        Acceptor.handleRead_err, Acceptor.handleRead_err, if_pos hexpected, if_pos hexpected] at heq
      simp only [Option.some.injEq, Decisions.mk.injEq, List.append_cancel_left_eq] at heq
      have hbranch := List.head_eq_of_cons_eq heq.2.2.2
      rw [if_neg (show Acceptor.testedErrno (s₁.thread fun _ _ => 0) e ≠ EMFILE by
          simp only [Acceptor.testedErrno, thread]; decide),
        if_pos (show Acceptor.testedErrno (s₂.thread fun _ _ => EMFILE) e = EMFILE from rfl)]
        at hbranch
      cases hbranch
  | setNewConnectionCallback | log | fail => exact absurd trivial h

/-- **Two runs that differ in what their log calls leave in `errno` decide the same,
    exactly where no step tests it after a log call.** -/
theorem decisions_settled_iff (logging : Nat → Errno → Errno) (s : ErrnoState)
    (acts : List ErrnoAct) :
    Oracle.Insensitive step decisions s acts ↔ Runs.Along (step logging) Settled s acts := by
  apply Oracle.insensitive_iff
  · intro logging logging' s s' a hlow h
    exact step_settled hlow h
  · intro s a h
    exact exists_step_ne h

/-- A connection that has just been established, and an acceptor, on one thread. -/
def established : ErrnoState where
  errno := 0
  logged := 0
  decisions :=
    { conn := ((TcpConnection.new 0 [] 5 true true 64).exec .connectEstablished).1
      acceptor := (Acceptor.new 3 4).setNewConnectionCallback true
      effects := []
      branches := [] }

/-- With `errno` left alone the message for a connection that is reset is dropped, and an
    `EAGAIN` is only logged.  A log call that leaves 0 has the message buffered and
    `EPOLLOUT` enabled, and one that leaves `EMFILE` ends the process. -/
theorem established_not_insensitive :
    ((step (fun _ e => e) established (.conn (.sendInLoop [97] (.err EPIPE)))).map fun t =>
        (t.decisions.conn.outputBuffer.contents, t.decisions.conn.channel.isWriting))
      = some ([], false)
    ∧ ((step (fun _ _ => 0) established (.conn (.sendInLoop [97] (.err EPIPE)))).map fun t =>
        (t.decisions.conn.outputBuffer.contents, t.decisions.conn.channel.isWriting))
      = some ([97], true)
    ∧ ((step (fun _ e => e) established (.handleRead (.err EAGAIN))).map fun t =>
        t.decisions.branches) = some [.failed]
    ∧ ((step (fun _ _ => EMFILE) established (.handleRead (.err EAGAIN))).map fun t =>
        t.decisions.branches) = some [.reachedLimit]
    ∧ ¬ Oracle.Insensitive step decisions established
      [.conn (.sendInLoop [97] (.err EPIPE))]
    ∧ ¬ Oracle.Insensitive step decisions established [.handleRead (.err EAGAIN)] := by
  refine ⟨by decide +kernel, by decide +kernel, by decide +kernel, by decide +kernel, ?_, ?_⟩
  · intro hsame
    have hcontents := congrArg (List.map fun d => d.conn.outputBuffer.contents)
      (hsame (fun _ e => e) fun _ _ => 0)
    exact absurd hcontents (by decide +kernel)
  · intro hsame
    have hbranches := congrArg (List.map Decisions.branches)
      (hsame (fun _ e => e) fun _ _ => EMFILE)
    exact absurd hbranches (by decide +kernel)

end ErrnoState

end Ymuduo
