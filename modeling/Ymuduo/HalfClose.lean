/-
  Ymuduo/HalfClose.lean
  =====================
  **Write interest, backlog and half-close.**

  `shutdown()` is carried out by its own functor if nothing is being written, else by
  the `handleWrite` that empties `outputBuffer`.  That one of the two always does it,
  and neither too early, rests on `Synced`: write interest is on exactly while there
  is a backlog, so `!isWriting()` in `shutdownInLoop` means that all is sent.

  `half_close_in_step` is the invariant for every run of one connection on its loop,
  with `send` and `shutdown` called by any thread.
-/
import Ymuduo.FunctorQueue
import Ymuduo.OutputStream

namespace Ymuduo

namespace TcpConnection

/-! ### Write interest -/

/-- Write interest is on exactly while there is a backlog. -/
def Synced (conn : TcpConnection) : Prop :=
  conn.channel.isWriting = true ↔ conn.outputBuffer.contents ≠ []

theorem bufferRest_state (conn : TcpConnection) (message : List Byte) (w : DirectWrite) :
    (conn.bufferRest message w).1.state = conn.state := by
  unfold bufferRest
  split
  · simp only
    split <;> rfl
  · rfl

theorem sendInLoop_keeps (conn : TcpConnection) (logging : Errno → Errno) (message : List Byte)
    (res : SysResult) : conn.outputBuffer.contents
      <+: (conn.sendInLoop logging message res).1.outputBuffer.contents := by
  unfold sendInLoop
  split
  · exact List.prefix_refl _
  · split <;> exact ⟨_, (bufferRest_contents _ _ _).symm⟩

theorem sendInLoop_state (conn : TcpConnection) (logging : Errno → Errno) (message : List Byte)
    (res : SysResult) : (conn.sendInLoop logging message res).1.state = conn.state := by
  unfold sendInLoop
  split
  · rfl
  · split <;> exact bufferRest_state _ _ _

/-- What `bufferRest` keeps it keeps with write interest on. -/
theorem Synced.bufferRest {conn : TcpConnection} (h : conn.Synced) {message : List Byte}
    {w : DirectWrite} (hfits : w.remaining ≤ (message.drop w.nwrote).length) :
    (conn.bufferRest message w).1.Synced := by
  unfold TcpConnection.bufferRest
  by_cases hrest : w.faultError = false ∧ 0 < w.remaining
  · have hkept : (message.drop w.nwrote).take w.remaining ≠ [] := by
      intro hnil
      have hlen := congrArg List.length hnil
      rw [List.length_take, List.length_nil] at hlen
      omega
    rw [if_pos hrest]
    by_cases hwriting : conn.channel.isWriting = true
    · simp [Synced, hwriting, hkept]
    · simp [Synced, hwriting, hkept]
  · rw [if_neg hrest]
    exact h

theorem directWrite_fits (conn : TcpConnection) (logging : Errno → Errno) (message : List Byte)
    (res : SysResult) : (conn.directWrite logging message res).remaining
      ≤ (message.drop (conn.directWrite logging message res).nwrote).length := by
  cases res <;> simp [directWrite]

theorem Synced.sendInLoop {conn : TcpConnection} (h : conn.Synced) (logging : Errno → Errno)
    (message : List Byte) (res : SysResult) :
    (conn.sendInLoop logging message res).1.Synced := by
  unfold TcpConnection.sendInLoop
  split
  · exact h
  · split
    · exact h.bufferRest (conn.directWrite_fits logging message res)
    · exact h.bufferRest (by simp [noDirectWrite])

/-- The three ways through `handleWrite`: nothing happens, the kernel takes a part,
    the backlog runs empty. -/
theorem handleWrite_cases (conn : TcpConnection) (res : SysResult) :
    conn.handleWrite res = (conn, [])
      ∨ conn.channel.isWriting = true ∧ ∃ sent : TcpConnection, ∃ n,
          sent = { conn with outputBuffer := (conn.outputBuffer.writeFd (.ok n)).2 }
            ∧ ((n = 0 ∨ sent.outputBuffer.contents ≠ [])
                ∧ conn.handleWrite res = (sent, [.write (conn.outputBuffer.contents.take n)])
              ∨ sent.outputBuffer.contents = []
                ∧ conn.handleWrite res = (sent.writeDrained.1,
                    .write (conn.outputBuffer.contents.take n) :: sent.writeDrained.2)) := by
  unfold handleWrite
  by_cases hwriting : conn.channel.isWriting = true
  · rw [if_pos hwriting]
    cases res with
    | err e => exact Or.inl rfl
    | ok n =>
      refine Or.inr ⟨hwriting, _, n, rfl, ?_⟩
      by_cases hdrained : 0 < n ∧ (conn.outputBuffer.writeFd (.ok n)).2.readableBytes = 0
      · right
        exact ⟨(WfBuffer.readableBytes_eq_zero _).mp hdrained.2, if_pos hdrained⟩
      · left
        refine ⟨?_, if_neg hdrained⟩
        rcases Nat.eq_zero_or_pos n with hzero | hpos
        · exact Or.inl hzero
        · right
          intro hempty
          exact hdrained ⟨hpos, (WfBuffer.readableBytes_eq_zero _).mpr hempty⟩
  · rw [if_neg hwriting]
    exact Or.inl rfl

theorem Synced.handleWrite {conn : TcpConnection} (h : conn.Synced) (res : SysResult) :
    (conn.handleWrite res).1.Synced := by
  rcases conn.handleWrite_cases res with hnone | ⟨hwriting, sent, n, rfl, hpart | hdrained⟩
  · rw [hnone]
    exact h
  · rw [hpart.2]
    refine iff_of_true hwriting ?_
    rcases hpart.1 with rfl | hmore
    · simpa using h.mp hwriting
    · exact hmore
  · rw [hdrained.2]
    refine iff_of_false (by simp [writeDrained]) ?_
    rw [not_not]
    exact hdrained.1

/-- No function starts or stops the writing of a backlog without the other half. -/
theorem Synced.exec {conn : TcpConnection} (h : conn.Synced) (op : ConnOp)
    (hopen : (conn.exec op).1.state ≠ .kDisconnected) : (conn.exec op).1.Synced := by
  cases op with
  | connectEstablished => simpa [Synced, TcpConnection.exec, connectEstablished] using h
  | sendInLoop message res => exact h.sendInLoop id message res
  | handleWrite res => exact h.handleWrite res
  | handleRead res =>
    revert hopen
    simp only [TcpConnection.exec, handleRead]
    split
    · split
      · exact fun _ => h
      · exact fun hopen => absurd rfl hopen
    · exact fun _ => h
  | handleClose => exact absurd rfl hopen
  | shutdown =>
    simp only [TcpConnection.exec, shutdown]
    split <;> exact h
  | shutdownInLoop => exact h
  | connectDestroyed =>
    revert hopen
    simp only [TcpConnection.exec, connectDestroyed]
    split
    · exact fun hopen => absurd rfl hopen
    · exact fun _ => h

/-! ### `SHUT_WR` -/

theorem directWrite_effects {conn : TcpConnection} {logging : Errno → Errno}
    {message : List Byte} {res : SysResult} :
    Effect.shutdownWrite ∉ (conn.directWrite logging message res).effects := by
  cases res with
  | err e => simp [directWrite]
  | ok n =>
    simp only [directWrite, List.mem_cons, reduceCtorEq, false_or]
    split
    · unfold queueWriteComplete
      split <;> simp
    · simp

theorem bufferRest_effects {conn : TcpConnection} {message : List Byte} {w : DirectWrite}
    (hw : Effect.shutdownWrite ∉ w.effects) :
    Effect.shutdownWrite ∉ (conn.bufferRest message w).2 := by
  unfold bufferRest
  split
  · by_cases hwriting : conn.channel.isWriting = true <;>
      (simp only [hwriting]; split <;> simp [hw])
  · exact hw

theorem sendInLoop_effects {conn : TcpConnection} {logging : Errno → Errno}
    {message : List Byte} {res : SysResult} :
    Effect.shutdownWrite ∉ (conn.sendInLoop logging message res).2 := by
  unfold sendInLoop
  split
  · simp
  · split
    · exact bufferRest_effects directWrite_effects
    · exact bufferRest_effects (by simp [noDirectWrite])

theorem queueWriteComplete_effects {conn : TcpConnection} :
    Effect.shutdownWrite ∉ conn.queueWriteComplete := by
  unfold queueWriteComplete
  split <;> simp

/-- The drained `handleWrite` half-closes exactly if `shutdown()` was called. -/
theorem mem_writeDrained {conn : TcpConnection} :
    Effect.shutdownWrite ∈ conn.writeDrained.2 ↔ conn.state = .kDisconnecting := by
  simp only [writeDrained, List.mem_append, List.mem_cons, reduceCtorEq, false_or,
    queueWriteComplete_effects]
  constructor
  · intro hmem
    by_contra hstate
    simp [hstate] at hmem
  · intro hstate
    simp [hstate, shutdownInLoop]

/-- **`SHUT_WR` comes from `shutdownInLoop` without write interest, or from the
    `handleWrite` that empties the buffer after `shutdown()`.** -/
theorem exec_shutdownWrite {conn : TcpConnection} {op : ConnOp}
    (h : Effect.shutdownWrite ∈ (conn.exec op).2) :
    op = .shutdownInLoop ∧ conn.channel.isWriting = false
      ∨ (conn.exec op).1.state = .kDisconnecting ∧ (conn.exec op).1.outputBuffer.contents = [] := by
  cases op with
  | connectEstablished => simp [exec, connectEstablished] at h
  | sendInLoop message res => exact absurd h sendInLoop_effects
  | handleWrite res =>
    simp only [exec] at h ⊢
    rcases conn.handleWrite_cases res with hnone | ⟨_, sent, n, rfl, hpart | hdrained⟩
    · simp [hnone] at h
    · simp [hpart.2] at h
    · rw [hdrained.2] at h ⊢
      have hstate := mem_writeDrained.mp (List.mem_of_ne_of_mem (by simp) h)
      exact Or.inr ⟨hstate, hdrained.1⟩
  | handleRead res =>
    simp only [exec, handleRead] at h
    split at h
    · split at h <;> simp [handleClose] at h
    · simp at h
  | handleClose => simp [exec, handleClose] at h
  | shutdown => simp [exec] at h
  | shutdownInLoop =>
    simp only [exec, shutdownInLoop] at h
    left
    refine ⟨rfl, ?_⟩
    by_contra hwriting
    simp [hwriting] at h
  | connectDestroyed =>
    simp only [exec, connectDestroyed] at h
    split at h <;> simp at h

/-- Only `handleWrite` empties the buffer, and half-closes then if that is due. -/
theorem exec_drained {conn : TcpConnection} {op : ConnOp}
    (hbacklog : conn.outputBuffer.contents ≠ [])
    (hempty : (conn.exec op).1.outputBuffer.contents = [])
    (hstate : (conn.exec op).1.state = .kDisconnecting) :
    Effect.shutdownWrite ∈ (conn.exec op).2 := by
  cases op with
  | sendInLoop message res =>
    have hkeeps := sendInLoop_keeps conn id message res
    rw [show (conn.sendInLoop id message res).1.outputBuffer.contents = [] from hempty] at hkeeps
    exact absurd (List.prefix_nil.mp hkeeps) hbacklog
  | handleWrite res =>
    simp only [exec] at hempty hstate ⊢
    rcases conn.handleWrite_cases res with hnone | ⟨_, sent, n, rfl, hpart | hdrained⟩
    · rw [hnone] at hempty
      exact absurd hempty hbacklog
    · rw [hpart.2] at hempty
      rcases hpart.1 with rfl | hmore
      · exact absurd (by simpa using hempty) hbacklog
      · exact absurd hempty hmore
    · rw [hdrained.2] at hstate ⊢
      exact List.mem_cons_of_mem _ (mem_writeDrained.mpr hstate)
  | handleRead res =>
    rw [exec, (handleRead_stream conn res).2] at hempty
    exact absurd hempty hbacklog
  | connectEstablished | handleClose | shutdownInLoop => exact absurd hempty hbacklog
  | shutdown =>
    simp only [exec, shutdown] at hempty
    split at hempty <;> exact absurd hempty hbacklog
  | connectDestroyed =>
    simp only [exec, connectDestroyed] at hempty
    split at hempty <;> exact absurd hempty hbacklog

/-- Only `shutdown()` starts a half-close. -/
theorem exec_kDisconnecting {conn : TcpConnection} {op : ConnOp} (hop : op ≠ .shutdown)
    (hstate : (conn.exec op).1.state = .kDisconnecting) : conn.state = .kDisconnecting := by
  cases op with
  | connectEstablished | handleClose => cases hstate
  | sendInLoop message res => exact (sendInLoop_state ..).symm.trans hstate
  | handleWrite res =>
    simp only [exec] at hstate
    rcases conn.handleWrite_cases res with hnone | ⟨_, sent, n, rfl, hpart | hdrained⟩
    · rwa [hnone] at hstate
    · rwa [hpart.2] at hstate
    · rwa [hdrained.2] at hstate
  | handleRead res =>
    simp only [exec, handleRead] at hstate
    split at hstate
    · split at hstate
      · exact hstate
      · cases hstate
    · exact hstate
  | shutdown => exact absurd rfl hop
  | shutdownInLoop => exact hstate
  | connectDestroyed =>
    simp only [exec, connectDestroyed] at hstate
    split at hstate
    · cases hstate
    · exact hstate

/-- `state_` does not move backwards when the functions are not interleaved. -/
theorem exec_rank {conn : TcpConnection} {op : ConnOp}
    (hop : op = .connectEstablished → conn.state = .kConnecting) :
    conn.state.rank ≤ (conn.exec op).1.state.rank := by
  cases op with
  | connectEstablished => simp [hop rfl, StateE.rank]
  | sendInLoop message res =>
    apply Nat.le_of_eq
    exact congrArg StateE.rank (sendInLoop_state ..).symm
  | handleWrite res =>
    apply Nat.le_of_eq
    simp only [exec]
    rcases conn.handleWrite_cases res with hnone | ⟨_, sent, n, rfl, hpart | hdrained⟩
    · rw [hnone]
    · rw [hpart.2]
    · rw [hdrained.2]
      rfl
  | handleRead res =>
    simp only [exec, handleRead]
    split
    · split
      · exact Nat.le_refl _
      · exact StateE.rank_le_kDisconnected _
    · exact Nat.le_refl _
  | handleClose => exact StateE.rank_le_kDisconnected _
  | shutdown =>
    simp only [exec, shutdown]
    split
    · rename_i hstate
      simp [hstate, StateE.rank]
    · exact Nat.le_refl _
  | shutdownInLoop => exact Nat.le_refl _
  | connectDestroyed =>
    simp only [exec, connectDestroyed]
    split
    · exact StateE.rank_le_kDisconnected _
    · exact Nat.le_refl _

end TcpConnection

/-! ### One connection on its loop -/

/-- A thread that calls; `none` is the loop thread. -/
abbrev Caller := Option ThreadId

inductive Request where
  | send (message : List Byte)
  | shutdown
deriving DecidableEq, Repr

/-- The call without interruption. -/
def Request.call (conn : TcpConnection) (isInLoopThread : Bool) :
    Request → TcpConnection × TcpConnection.Dispatch
  | .send message => (conn, conn.send isInLoopThread message)
  | .shutdown => conn.shutdown isInLoopThread

/-- What calling a functor runs on the connection; the user's callbacks run nothing. -/
def ConnFunctor.op (res : SysResult) : ConnFunctor → Option ConnOp
  | .connectEstablished => some .connectEstablished
  | .connectDestroyed => some .connectDestroyed
  | .sendInLoop message => some (.sendInLoop message res)
  | .shutdownInLoop => some .shutdownInLoop
  | .writeComplete | .highWaterMark _ => none

/-- What the loop thread runs on a connection besides the calls of `send` and
    `shutdown`; `connectEstablished` asserts `kConnecting`. -/
def ConnOp.IsHandler (conn : TcpConnection) : ConnOp → Prop
  | .connectEstablished => conn.state = .kConnecting
  | .handleWrite _ | .handleRead _ | .handleClose | .connectDestroyed => True
  | .sendInLoop _ _ | .shutdown | .shutdownInLoop => False

instance (conn : TcpConnection) : (op : ConnOp) → Decidable (op.IsHandler conn)
  | .connectEstablished => inferInstanceAs (Decidable (conn.state = .kConnecting))
  | .handleWrite _ | .handleRead _ | .handleClose | .connectDestroyed =>
    inferInstanceAs (Decidable True)
  | .sendInLoop _ _ | .shutdown | .shutdownInLoop => inferInstanceAs (Decidable False)

/-- The functors of the loop are those of `send` and `shutdown` on the connection, and
    others (`none`).  `destroyed`: `connectDestroyed` has run.  `backlogs` has the size
    of `outputBuffer` at each `SHUT_WR`. -/
structure HalfCloseSystem where
  loop : LoopSystem Unit (Option ConnFunctor)
  conn : TcpConnection
  destroyed : Bool
  backlogs : List Nat

inductive HalfCloseAct where
  | loop (a : LoopAct Unit (Option ConnFunctor))
  | call (who : Caller) (request : Request) (res : SysResult)
  | callFunctor (res : SysResult)
  | handler (op : ConnOp)
deriving DecidableEq, Repr

theorem ConnFunctor.op_of_ne {f : ConnFunctor} {res : SysResult} {op : ConnOp}
    (hf : f ≠ .connectEstablished) (hop : f.op res = some op) :
    op ≠ .connectEstablished ∧ op ≠ .shutdown ∧ (f = .shutdownInLoop → op = .shutdownInLoop) := by
  cases f with
  | connectEstablished => exact absurd rfl hf
  | writeComplete | highWaterMark _ => cases hop
  | connectDestroyed | sendInLoop _ | shutdownInLoop =>
    cases hop
    simp

namespace HalfCloseSystem

def start (conn : TcpConnection) : HalfCloseSystem where
  loop := .start
  conn := conn
  destroyed := false
  backlogs := []

/-- The functors that an action of the loop pushes and calls are not the connection's. -/
def OtherFunctors (s : HalfCloseSystem) (a : LoopAct Unit (Option ConnFunctor)) : Prop :=
  ∀ f ∈ LoopSystem.pushes a ++ s.loop.calls a, f = none

instance (s : HalfCloseSystem) (a : LoopAct Unit (Option ConnFunctor)) :
    Decidable (s.OtherFunctors a) := inferInstanceAs (Decidable (∀ _ ∈ _, _))

def exec (s : HalfCloseSystem) (op : ConnOp) : HalfCloseSystem :=
  { s with
    conn := (s.conn.exec op).1
    destroyed := s.destroyed || op = .connectDestroyed
    backlogs := s.backlogs ++ ((s.conn.exec op).2.filter (· = .shutdownWrite)).map
      fun _ => (s.conn.exec op).1.outputBuffer.readableBytes }

/-- Run a functor of the connection. -/
def runFunctor (s : HalfCloseSystem) (res : SysResult) (f : ConnFunctor) : HalfCloseSystem :=
  match f.op res with
  | some op => s.exec op
  | none => s

def step (s : HalfCloseSystem) : HalfCloseAct → Option HalfCloseSystem
  | .loop a =>
    if s.OtherFunctors a then (s.loop.step a).map fun l => { s with loop := l } else none
  | .call who request res =>
    if who = none → s.loop.InUserCode then
      let called := { s with conn := (request.call s.conn who.isNone).1 }
      match who, (request.call s.conn who.isNone).2 with
      | _, .nothing => some called
      | none, .run f => some (called.runFunctor res f)
      | some t, .queue f =>
        (s.loop.step (.push t (some f))).map fun l => { called with loop := l }
      | _, _ => none
    else none
  | .callFunctor res =>
    match s.loop.loop.functors with
    | some f :: _ =>
      (s.loop.step (.advance .callFunctor)).map fun l => { s.runFunctor res f with loop := l }
    | _ => none
  | .handler op =>
    if s.loop.InUserCode ∧ op.IsHandler s.conn then some (s.exec op) else none

/-- The connection is not closed and `connectDestroyed` has not run. -/
def Live (s : HalfCloseSystem) : Prop := s.conn.state ≠ .kDisconnected ∧ s.destroyed = false

instance (s : HalfCloseSystem) : Decidable s.Live := inferInstanceAs (Decidable (_ ∧ _))

/-- The invariant of the connection while `waiting` are the functors to be called:
    a half-close is still to be done by one of them or by `handleWrite`, or is done. -/
structure ConnInv (conn : TcpConnection) (backlogs : List Nat)
    (waiting : List (Option ConnFunctor)) : Prop where
  synced : conn.Synced
  early : ∀ n ∈ backlogs, n = 0
  remembered : conn.state = .kDisconnecting → conn.outputBuffer.contents = [] →
    some .shutdownInLoop ∉ waiting → backlogs ≠ []

variable {waiting waiting' : List (Option ConnFunctor)}

theorem ConnInv.mono {conn : TcpConnection} {backlogs : List Nat}
    (h : ConnInv conn backlogs waiting)
    (hsub : some .shutdownInLoop ∈ waiting → some .shutdownInLoop ∈ waiting') :
    ConnInv conn backlogs waiting' :=
  ⟨h.synced, h.early,
    fun hstate hempty hnot => h.remembered hstate hempty fun hin => hnot (hsub hin)⟩

theorem mem_backlogs_exec {s : HalfCloseSystem} {op : ConnOp} {n : Nat} :
    n ∈ (s.exec op).backlogs ↔ n ∈ s.backlogs ∨ Effect.shutdownWrite ∈ (s.conn.exec op).2
      ∧ n = (s.conn.exec op).1.outputBuffer.readableBytes := by
  simp only [exec, List.mem_append, List.mem_map, List.mem_filter, decide_eq_true_eq]
  constructor
  · rintro (hold | ⟨e, ⟨hmem, rfl⟩, rfl⟩)
    · exact Or.inl hold
    · exact Or.inr ⟨hmem, rfl⟩
  · rintro (hold | ⟨hmem, rfl⟩)
    · exact Or.inl hold
    · exact Or.inr ⟨_, ⟨hmem, rfl⟩, rfl⟩

/-- An operation keeps the invariant; `shutdownInLoop` may be the last of its kind. -/
theorem ConnInv.exec {s : HalfCloseSystem} (h : ConnInv s.conn s.backlogs waiting) {op : ConnOp}
    (hop : op ≠ .shutdown) (hopen : (s.conn.exec op).1.state ≠ .kDisconnected)
    (hsub : some .shutdownInLoop ∈ waiting → op = .shutdownInLoop
      ∨ some .shutdownInLoop ∈ waiting') :
    ConnInv (s.exec op).conn (s.exec op).backlogs waiting' where
  synced := h.synced.exec op hopen
  early := by
    intro n hn
    rcases mem_backlogs_exec.mp hn with hold | ⟨hwrite, rfl⟩
    · exact h.early n hold
    · apply (WfBuffer.readableBytes_eq_zero _).mpr
      rcases TcpConnection.exec_shutdownWrite hwrite with ⟨rfl, hquiet⟩ | ⟨_, hempty⟩
      · by_contra hbacklog
        rw [h.synced.mpr hbacklog] at hquiet
        cases hquiet
      · exact hempty
  remembered := by
    intro hstate hempty hnot
    by_cases hwrite : Effect.shutdownWrite ∈ (s.conn.exec op).2
    · exact List.ne_nil_of_mem (mem_backlogs_exec.mpr (Or.inr ⟨hwrite, rfl⟩))
    · -- nothing was emptied now, so the half-close was already due before
      have hbefore : s.conn.outputBuffer.contents = [] := by
        by_contra hbacklog
        exact hwrite (TcpConnection.exec_drained hbacklog hempty hstate)
      have hdue : s.conn.state = .kDisconnecting := TcpConnection.exec_kDisconnecting hop hstate
      have hwaiting : some .shutdownInLoop ∉ waiting := by
        intro hin
        rcases hsub hin with rfl | hin'
        · apply hwrite
          have hquiet : s.conn.channel.isWriting = false := by
            rw [← Bool.not_eq_true]
            intro hwriting
            exact h.synced.mp hwriting hbefore
          simp [TcpConnection.exec, TcpConnection.shutdownInLoop, hquiet]
        · exact hnot hin'
      obtain ⟨n, hn⟩ := List.exists_mem_of_ne_nil _ (h.remembered hdue hbefore hwaiting)
      exact List.ne_nil_of_mem (mem_backlogs_exec.mpr (Or.inl hn))

/-- `shutdown()` that leaves the half-close to a functor. -/
theorem ConnInv.shutdown {conn : TcpConnection} {backlogs : List Nat}
    (h : ConnInv conn backlogs waiting) (hqueued : some .shutdownInLoop ∈ waiting') :
    ConnInv { conn with state := .kDisconnecting } backlogs waiting' :=
  ⟨h.synced, h.early, fun _ _ hnot => absurd hqueued hnot⟩

theorem Live.of_exec {s : HalfCloseSystem} {op : ConnOp} (h : (s.exec op).Live)
    (hop : op = .connectEstablished → s.conn.state = .kConnecting) : s.Live := by
  constructor
  · intro hclosed
    have hrank := TcpConnection.exec_rank hop
    rw [hclosed] at hrank
    exact h.1 (StateE.eq_kDisconnected hrank)
  · exact (Bool.or_eq_false_iff.mp h.2).1

/-- A functor of the connection runs. -/
theorem ConnInv.runFunctor {s : HalfCloseSystem}
    (h : s.Live → ConnInv s.conn s.backlogs waiting) {f : ConnFunctor}
    (hf : f ≠ .connectEstablished)
    (hsub : some .shutdownInLoop ∈ waiting → f = .shutdownInLoop
      ∨ some .shutdownInLoop ∈ waiting')
    {res : SysResult} (hlive : (s.runFunctor res f).Live) :
    ConnInv (s.runFunctor res f).conn (s.runFunctor res f).backlogs waiting' := by
  unfold HalfCloseSystem.runFunctor at hlive ⊢
  split at hlive
  · rename_i op hop
    obtain ⟨hestablish, hshutdown, hlast⟩ := ConnFunctor.op_of_ne hf hop
    have hbefore := h (hlive.of_exec fun heq => absurd heq hestablish)
    exact hbefore.exec hshutdown hlive.1 fun hin => (hsub hin).imp_left hlast
  · rename_i hnone
    refine (h hlive).mono fun hin => ?_
    rcases hsub hin with rfl | hin'
    · cases hnone
    · exact hin'

structure Inv (s : HalfCloseSystem) : Prop where
  queue : s.loop.Inv
  calls : ∀ f, some f ∈ s.loop.loop.waiting → f ≠ .connectEstablished
  conn : s.Live → ConnInv s.conn s.backlogs s.loop.loop.waiting

theorem Inv.start {conn : TcpConnection} (hnew : conn.state = .kConnecting)
    (hsynced : conn.Synced) : (start conn).Inv where
  queue := .start
  calls := by simp [HalfCloseSystem.start, LoopSystem.start, EventLoop.new, EventLoop.waiting]
  conn := by
    intro _
    refine ⟨hsynced, by simp [HalfCloseSystem.start], ?_⟩
    intro hstate
    exact absurd (hnew.symm.trans hstate) (by simp)

theorem Inv.loop {s t : HalfCloseSystem} {a : LoopAct Unit (Option ConnFunctor)} (h : s.Inv)
    (hstep : HalfCloseSystem.step s (.loop a) = some t) : t.Inv := by
  simp only [HalfCloseSystem.step, Option.ite_none_right_eq_some] at hstep
  obtain ⟨hother, hstep⟩ := hstep
  obtain ⟨l, hl, rfl⟩ := Option.map_eq_some_iff.mp hstep
  have hqueues := h.queue.queues hl
  constructor
  · exact h.queue.step hl
  · intro f hf
    rcases hqueues.mem_before hf with hin | hpush
    · exact h.calls f hin
    · cases hother _ (List.mem_append_left _ hpush)
  · intro hlive
    refine (h.conn hlive).mono fun hin => ?_
    rcases hqueues.mem_after hin with hcall | hin'
    · cases hother _ (List.mem_append_right _ hcall)
    · exact hin'

/-- The functor of a call from another thread joins the queue. -/
theorem Inv.push {s : HalfCloseSystem} (h : s.Inv) {thread : ThreadId} {f : ConnFunctor}
    {l : LoopSystem Unit (Option ConnFunctor)} (hf : f ≠ .connectEstablished)
    (hl : s.loop.step (.push thread (some f)) = some l) {conn : TcpConnection}
    (hconn : conn.state ≠ .kDisconnected → s.destroyed = false →
      ConnInv conn s.backlogs l.loop.waiting) :
    Inv { s with conn := conn, loop := l } := by
  constructor
  · exact h.queue.step hl
  · intro g hg
    rcases (h.queue.queues hl).mem_before hg with hin | hpush
    · exact h.calls g hin
    · rw [LoopSystem.pushes, List.mem_singleton] at hpush
      cases hpush
      exact hf
  · intro hlive
    exact hconn hlive.1 hlive.2

theorem Inv.call {s t : HalfCloseSystem} {who : Caller} {request : Request} {res : SysResult}
    (h : s.Inv) (hstep : HalfCloseSystem.step s (.call who request res) = some t) : t.Inv := by
  simp only [HalfCloseSystem.step, Option.ite_none_right_eq_some] at hstep
  obtain ⟨_, hstep⟩ := hstep
  by_cases hstate : s.conn.state = .kConnected
  · have hopen : s.destroyed = false → s.Live := fun hd => ⟨by simp [hstate], hd⟩
    cases request with
    | send message =>
      cases who with
      | none =>
        simp only [Request.call, TcpConnection.send, hstate, if_true, Option.isNone_none,
          Option.some.injEq] at hstep
        subst hstep
        exact ⟨h.queue, h.calls, ConnInv.runFunctor h.conn (by simp) Or.inr⟩
      | some thread =>
        simp only [Request.call, TcpConnection.send, hstate, if_true, Option.isNone_some,
          TcpConnection.runInLoop] at hstep
        obtain ⟨l, hl, rfl⟩ := Option.map_eq_some_iff.mp hstep
        refine h.push (by simp) hl fun _ hd => (h.conn (hopen hd)).mono fun hin => ?_
        rw [h.queue.waiting_push hl]
        exact List.mem_append_left _ hin
    | shutdown =>
      cases who with
      | none =>
        simp only [Request.call, TcpConnection.shutdown, hstate, if_true, Option.isNone_none,
          TcpConnection.runInLoop, Option.some.injEq] at hstep
        subst hstep
        -- until the functor has run, it counts as one that is waiting
        let called : HalfCloseSystem := { s with conn := { s.conn with state := .kDisconnecting } }
        have hcalled : called.Live →
            ConnInv called.conn called.backlogs [some .shutdownInLoop] :=
          fun hlive => (h.conn (hopen hlive.2)).shutdown (List.mem_singleton_self _)
        exact ⟨h.queue, h.calls, ConnInv.runFunctor hcalled (by simp) fun _ => Or.inl rfl⟩
      | some thread =>
        simp only [Request.call, TcpConnection.shutdown, hstate, if_true, Option.isNone_some,
          TcpConnection.runInLoop] at hstep
        obtain ⟨l, hl, rfl⟩ := Option.map_eq_some_iff.mp hstep
        refine h.push (by simp) hl fun _ hd => (h.conn (hopen hd)).shutdown ?_
        rw [h.queue.waiting_push hl]
        exact List.mem_append_right _ (List.mem_singleton_self _)
  · have hnothing : request.call s.conn who.isNone = (s.conn, .nothing) := by
      cases request <;>
        simp [Request.call, TcpConnection.send, TcpConnection.shutdown, hstate]
    simp only [hnothing, Option.some.injEq] at hstep
    subst hstep
    exact h

theorem Inv.callFunctor {s t : HalfCloseSystem} {res : SysResult} (h : s.Inv)
    (hstep : HalfCloseSystem.step s (.callFunctor res) = some t) : t.Inv := by
  simp only [HalfCloseSystem.step] at hstep
  split at hstep
  · rename_i f rest hfunctors
    obtain ⟨l, hl, rfl⟩ := Option.map_eq_some_iff.mp hstep
    have hqueues := h.queue.queues hl
    have hwaiting : some f :: l.loop.waiting = s.loop.loop.waiting := by
      have hpop := hqueues.waiting
      simp only [LoopSystem.pushes, LoopSystem.calls, EventLoop.calls, hfunctors,
        List.take_succ_cons, List.take_zero, List.append_nil, List.singleton_append] at hpop
      exact hpop.symm
    have hf : f ≠ .connectEstablished := h.calls f (hwaiting ▸ List.mem_cons_self)
    constructor
    · exact h.queue.step hl
    · intro g hg
      exact h.calls g (hwaiting ▸ List.mem_cons_of_mem _ hg)
    · refine ConnInv.runFunctor h.conn hf fun hin => ?_
      rw [← hwaiting] at hin
      rcases List.mem_cons.mp hin with heq | hrest
      · exact Or.inl (Option.some.inj heq).symm
      · exact Or.inr hrest
  · cases hstep

theorem Inv.handler {s t : HalfCloseSystem} {op : ConnOp} (h : s.Inv)
    (hstep : HalfCloseSystem.step s (.handler op) = some t) : t.Inv := by
  simp only [HalfCloseSystem.step, Option.ite_none_right_eq_some, Option.some.injEq] at hstep
  obtain ⟨⟨_, hop⟩, rfl⟩ := hstep
  refine ⟨h.queue, h.calls, fun hlive => ?_⟩
  have hestablish : op = .connectEstablished → s.conn.state = .kConnecting := by
    rintro rfl
    exact hop
  have hshutdown : op ≠ .shutdown := by
    rintro rfl
    exact hop
  exact (h.conn (hlive.of_exec hestablish)).exec hshutdown hlive.1 Or.inr

theorem Inv.step {s t : HalfCloseSystem} {a : HalfCloseAct} (h : s.Inv)
    (hstep : HalfCloseSystem.step s a = some t) : t.Inv := by
  cases a with
  | loop a => exact h.loop hstep
  | call who request res => exact h.call hstep
  | callFunctor res => exact h.callFunctor hstep
  | handler op => exact h.handler hstep

/-- **Write interest, backlog and half-close stay in step.**  While the connection is
    not closed and not destroyed, write interest is on exactly while there is a
    backlog, every `SHUT_WR` was issued with an empty buffer, and a half-close that no
    functor and no backlog holds up has been issued. -/
theorem half_close_in_step (loop : LoopId) (name : Name) (sockfd : Fd)
    (writeCompleteCallback highWaterMarkCallback : Bool) (highWaterMark : Nat)
    (acts : List HalfCloseAct) (s : HalfCloseSystem)
    (hrun : Runs.run step (start (.new loop name sockfd writeCompleteCallback
      highWaterMarkCallback highWaterMark)) acts = some s) (hlive : s.Live) :
    (s.conn.channel.isWriting = true ↔ s.conn.outputBuffer.contents ≠ [])
      ∧ (∀ n ∈ s.backlogs, n = 0)
      ∧ (s.conn.state = .kDisconnecting → s.conn.outputBuffer.contents = [] →
          some .shutdownInLoop ∉ s.loop.loop.waiting → s.backlogs ≠ []) := by
  have hstart : (start (.new loop name sockfd writeCompleteCallback highWaterMarkCallback
      highWaterMark)).Inv :=
    .start rfl (by simp [TcpConnection.Synced, TcpConnection.new])
  have hinv : s.Inv := Runs.run_induction (fun _ _ _ h hstep => Inv.step h hstep) hstart hrun
  have hconn := hinv.conn hlive
  exact ⟨hconn.synced, hconn.early, hconn.remembered⟩

/-- The connection is established on the loop, sends with a backlog left, another
    thread half-closes, and the backlog is written before that functor is called. -/
def closedWhileWriting : List HalfCloseAct :=
  [.loop (.advance .enter), .loop (.advance .resetQuit), .loop (.advance .test),
    .loop (.advance (.poll [.channel ()])), .handler .connectEstablished,
    .call none (.send [1, 2, 3]) (.ok 1), .call (some 1) .shutdown (.ok 0), .loop (.wakeup 1),
    .handler (.handleWrite (.ok 2)), .loop (.advance .handleEvent),
    .loop (.advance .beginPending), .loop (.advance .swap), .callFunctor (.ok 0)]

theorem half_close_in_step_closedWhileWriting :
    ∃ s, Runs.run step (start (.new 0 ['c'] 7 true false 100)) closedWhileWriting = some s
      ∧ (s.conn.channel.isWriting = true ↔ s.conn.outputBuffer.contents ≠ [])
      ∧ (∀ n ∈ s.backlogs, n = 0)
      ∧ (s.conn.state = .kDisconnecting → s.conn.outputBuffer.contents = [] →
          some .shutdownInLoop ∉ s.loop.loop.waiting → s.backlogs ≠ []) := by
  obtain ⟨s, hs, hlive⟩ : ∃ s, Runs.run step (start (.new 0 ['c'] 7 true false 100))
      closedWhileWriting = some s ∧ s.Live := by
    refine ⟨_, rfl, ?_⟩
    decide +kernel
  exact ⟨s, hs, half_close_in_step 0 ['c'] 7 true false 100 closedWhileWriting s hs hlive⟩

end HalfCloseSystem

end Ymuduo
