/-
  Ymuduo/EchoServer.lean
  ======================
  **The echo server (example/testserver.cc), one connection of it.**

  `onMessage` takes all that is readable, sends it back and calls `shutdown()`.  All of it
  runs on the loop thread of the connection, so `send` writes at once and `shutdown()`
  runs `shutdownInLoop` at once.  After the first message the connection is
  `kDisconnecting`, and the messages that follow are taken but not sent.

  `echoes_first_message` is what the peer gets, `echo_completes` that it gets it.  As in
  `ConnStream`, no `handleRead` follows a `handleClose`.
-/
import Ymuduo.ConnStream

namespace Ymuduo

/-- What runs on a connection of the echo server, with what `::readv` and the `::write`s
    return; `written` is for the direct `::write` in `onMessage`. -/
inductive EchoAct where
  | connectEstablished
  | handleRead (res : ReadvResult) (written : SysResult)
  | handleWrite (res : SysResult)
  | handleClose
  | connectDestroyed
deriving DecidableEq, Repr

namespace EchoServer

/-- `send` or `shutdown`, called on the loop thread. -/
def call (logging : Errno → Errno) (s : ConnStream) (request : Request) (res : SysResult) :
    Option ConnStream :=
  let called := { s with conn := (request.call s.conn true).1 }
  match (request.call s.conn true).2 with
  | .run f =>
    match f.op res with
    | some op => called.step logging (.op op)
    | none => some called
  | .nothing | .queue _ => some called

/-- `EchoServer::onMessage` -/
def onMessage (logging : Errno → Errno) (s : ConnStream) (written : SysResult) :
    Option ConnStream :=
  s.conn.inputBuffer.val.retrieveAllAsString.bind fun msg =>
    -- `retrieveAllAsString` leaves the buffer that `retrieve(readableBytes())` leaves
    (call logging (s.retrieve s.conn.inputBuffer.readableBytes) (.send msg.1) written).bind
      fun sent => call logging sent .shutdown written

/-- `onConnection` only logs. -/
def step (logging : Errno → Errno) (s : ConnStream) : EchoAct → Option ConnStream
  | .connectEstablished => s.step logging (.op .connectEstablished)
  | .handleRead res written =>
    (s.step logging (.op (.handleRead res))).bind fun read =>
      if .messageCallback ∈ (s.conn.execLogging logging (.handleRead res)).2 then
        onMessage logging read written
      else some read
  | .handleWrite res => s.step logging (.op (.handleWrite res))
  | .handleClose => s.step logging (.op .handleClose)
  | .connectDestroyed => s.step logging (.op .connectDestroyed)

/-- The connection that `newConnection` makes. -/
def start (loop : LoopId) (name : Name) (sockfd : Fd) : ConnStream :=
  .start (.new loop name sockfd false false TcpConnection.defaultHighWaterMark)

/-! ### What the code calls, as steps of the stream -/

variable {logging : Errno → Errno} {s t : ConnStream}

/-- The string is what was readable. -/
theorem retrieveAllAsString_eq (b : WfBuffer) :
    b.val.retrieveAllAsString = some (b.contents, (b.retrieve b.readableBytes).val) := by
  have hall := b.property.retrieveAsString (Nat.le_refl b.val.readableBytes)
  have htake : b.val.contents.take b.val.readableBytes = b.val.contents :=
    List.take_of_length_le (Nat.le_of_eq b.property.length_contents)
  rw [Buffer.retrieveAllAsString, hall, htake]
  rfl

theorem call_not_connected (hstate : s.conn.state ≠ .kConnected) (request : Request)
    (res : SysResult) : call logging s request res = some s := by
  have hnothing : request.call s.conn true = (s.conn, .nothing) := by
    cases request <;> simp [Request.call, TcpConnection.send, TcpConnection.shutdown, hstate]
  simp only [call, hnothing]

theorem call_send (hstate : s.conn.state = .kConnected) (message : List Byte) (res : SysResult) :
    call logging s (.send message) res = s.step logging (.op (.sendInLoop message res)) := by
  simp [call, Request.call, TcpConnection.send, hstate, ConnFunctor.op]

/-- `shutdown()` is the change of `state_` and then `shutdownInLoop`. -/
theorem call_shutdown (hstate : s.conn.state = .kConnected) (res : SysResult) :
    call logging s .shutdown res
      = Runs.run (ConnStream.step logging) s [.op .shutdown, .op .shutdownInLoop] := by
  have henabled : s.Enabled .shutdown := ⟨trivial, trivial, fun _ => id⟩
  have hshutdown : s.step logging (.op .shutdown)
      = some { s with conn := { s.conn with state := .kDisconnecting } } := by
    rw [ConnStream.step, if_pos henabled]
    simp [ConnStream.exec, TcpConnection.execLogging, TcpConnection.exec, TcpConnection.shutdown,
      hstate]
  have hcall : Request.shutdown.call s.conn true
      = ({ s.conn with state := .kDisconnecting }, .run .shutdownInLoop) := by
    rw [Request.call, TcpConnection.shutdown, if_pos hstate]
    rfl
  rw [Runs.run_cons, hshutdown, Option.bind_some, Runs.run_singleton]
  simp only [call, hcall, ConnFunctor.op]

/-- **What the code does is a run of the stream**, so that all that holds of the connection
    under any calls holds here. -/
theorem call_is_run {request : Request} {res : SysResult}
    (h : call logging s request res = some t) :
    ∃ more, Runs.run (ConnStream.step logging) s more = some t := by
  by_cases hstate : s.conn.state = .kConnected
  · cases request with
    | send message =>
      rw [call_send hstate] at h
      exact ⟨[_], (Runs.run_singleton _ _).trans h⟩
    | shutdown =>
      rw [call_shutdown hstate] at h
      exact ⟨_, h⟩
  · rw [call_not_connected hstate] at h
    cases h
    exact ⟨[], rfl⟩

theorem onMessage_eq (s : ConnStream) (written : SysResult) :
    onMessage logging s written
      = (call logging (s.retrieve s.conn.inputBuffer.readableBytes)
          (.send s.conn.inputBuffer.contents) written).bind
            fun sent => call logging sent .shutdown written := by
  rw [onMessage, retrieveAllAsString_eq, Option.bind_some]

theorem onMessage_is_run {written : SysResult} (h : onMessage logging s written = some t) :
    ∃ more, Runs.run (ConnStream.step logging) s more = some t := by
  rw [onMessage_eq] at h
  obtain ⟨sent, hsent, hshutdown⟩ := Option.bind_eq_some_iff.mp h
  obtain ⟨first, hfirst⟩ := call_is_run hsent
  obtain ⟨last, hlast⟩ := call_is_run hshutdown
  refine ⟨.retrieve s.conn.inputBuffer.readableBytes :: (first ++ last), ?_⟩
  rw [Runs.run_cons, ConnStream.step, Option.bind_some, Runs.run_append, hfirst, Option.bind_some,
    hlast]

theorem step_is_run {a : EchoAct} (h : step logging s a = some t) :
    ∃ more, Runs.run (ConnStream.step logging) s more = some t := by
  cases a with
  | connectEstablished =>
    exact ⟨[.op .connectEstablished], (Runs.run_singleton _ _).trans h⟩
  | handleWrite res => exact ⟨[.op (.handleWrite res)], (Runs.run_singleton _ _).trans h⟩
  | handleClose => exact ⟨[.op .handleClose], (Runs.run_singleton _ _).trans h⟩
  | connectDestroyed => exact ⟨[.op .connectDestroyed], (Runs.run_singleton _ _).trans h⟩
  | handleRead res written =>
    obtain ⟨read, hread, h⟩ := Option.bind_eq_some_iff.mp h
    split at h
    · obtain ⟨more, hmore⟩ := onMessage_is_run h
      exact ⟨_ :: more, by rw [Runs.run_cons, hread, Option.bind_some, hmore]⟩
    · cases h
      exact ⟨[_], (Runs.run_singleton _ _).trans hread⟩

theorem run_is_run {acts : List EchoAct} (h : Runs.run (step logging) s acts = some t) :
    ∃ more, Runs.run (ConnStream.step logging) s more = some t := by
  induction acts generalizing s with
  | nil => exact ⟨[], h⟩
  | cons a acts ih =>
    obtain ⟨u, hu, hrest⟩ := Option.bind_eq_some_iff.mp h
    obtain ⟨first, hfirst⟩ := step_is_run hu
    obtain ⟨more, hmore⟩ := ih hrest
    exact ⟨first ++ more, by rw [Runs.run_append, hfirst, Option.bind_some, hmore]⟩

/-! ### The first message and the others -/

/-- A message, with the result of the `::write` in `onMessage`. -/
def messages : EchoAct → List (List Byte × SysResult)
  | .handleRead (.ok bytes) written => if bytes = [] then [] else [(bytes, written)]
  | _ => []

/-- The direct `::write` finds the connection broken. -/
def Broken (logging : Errno → Errno) : SysResult → Prop
  | .ok _ => False
  | .err errno => errno ≠ EWOULDBLOCK ∧ (logging errno = EPIPE ∨ logging errno = ECONNRESET)

instance (logging : Errno → Errno) : (res : SysResult) → Decidable (Broken logging res)
  | .ok _ => inferInstanceAs (Decidable False)
  | .err _ => inferInstanceAs (Decidable (_ ∧ _))

/-- What is sent back: the first message, unless its `::write` finds the connection broken. -/
def echo (logging : Errno → Errno) : List (List Byte × SysResult) → List Byte
  | [] => []
  | (message, written) :: _ => if Broken logging written then [] else message

theorem echo_append {log : List (List Byte × SysResult)} (hlog : log ≠ [])
    (more : List (List Byte × SysResult)) : echo logging (log ++ more) = echo logging log := by
  cases log with
  | nil => exact absurd rfl hlog
  | cons first log => rfl

/-- `log` are the messages so far.  Before the first one nothing is sent; from then on the
    connection is half-closed as soon as the echo is out. -/
structure Inv (logging : Errno → Errno) (s : ConnStream) (log : List (List Byte × SysResult)) :
    Prop where
  stream : s.Inv
  consumed : s.conn.inputBuffer.contents = []
  taken : s.taken = (log.map Prod.fst).flatten
  output : s.sent ++ s.conn.outputBuffer.contents = echo logging log
  silent : log = [] → s.conn.state ≠ .kDisconnecting
  spoken : log ≠ [] → s.conn.state ≠ .kConnecting ∧ s.conn.state ≠ .kConnected
  fin : s.fin = true ↔ log ≠ [] ∧ s.conn.outputBuffer.contents = []

variable {log : List (List Byte × SysResult)}

theorem Inv.start (loop : LoopId) (name : Name) (sockfd : Fd) :
    Inv logging (start loop name sockfd) [] where
  stream := (ConnStream.start_refines loop name sockfd false false _).1
  consumed := WfBuffer.contents_new kInitialSize
  taken := rfl
  output := WfBuffer.contents_new kInitialSize
  silent := by
    intro _
    simp [EchoServer.start, ConnStream.start, TcpConnection.new]
  spoken := fun hne => absurd rfl hne
  fin := by simp [EchoServer.start, ConnStream.start]

/-- A function that leaves buffers and socket alone. -/
theorem Inv.exec (h : Inv logging s log) {op : ConnOp} (henabled : s.Enabled op)
    (hwritten : writtenBytes (s.conn.execLogging logging op).2 = [])
    (hfin : .shutdownWrite ∉ (s.conn.execLogging logging op).2)
    (houtput : (s.conn.execLogging logging op).1.outputBuffer = s.conn.outputBuffer)
    (hinput : (s.conn.execLogging logging op).1.inputBuffer.contents = [])
    (hsilent : log = [] → (s.conn.execLogging logging op).1.state ≠ .kDisconnecting)
    (hspoken : log ≠ [] → (s.conn.execLogging logging op).1.state ≠ .kConnecting
      ∧ (s.conn.execLogging logging op).1.state ≠ .kConnected) :
    Inv logging (s.exec logging op) log where
  stream := h.stream.exec logging henabled
  consumed := hinput
  taken := h.taken
  output := by
    simp only [ConnStream.exec, hwritten, houtput, List.append_nil]
    exact h.output
  silent := hsilent
  spoken := hspoken
  fin := by
    simp only [ConnStream.exec, hfin, houtput, decide_false, Bool.or_false]
    exact h.fin

/-- Before the first message there is no backlog. -/
theorem Inv.no_backlog (h : Inv logging s []) : s.sent = [] ∧ s.conn.outputBuffer.contents = [] :=
  List.append_eq_nil_iff.mp h.output

/-- From the first message to the close. -/
theorem Inv.halfClosed (h : Inv logging s log) (hlog : log ≠ [])
    (hopen : s.conn.state ≠ .kDisconnected) : s.conn.state = .kDisconnecting := by
  obtain ⟨hconnecting, hconnected⟩ := h.spoken hlog
  cases hstate : s.conn.state with
  | kDisconnecting => rfl
  | kConnecting => exact absurd hstate hconnecting
  | kConnected => exact absurd hstate hconnected
  | kDisconnected => exact absurd hstate hopen

theorem isWriting_eq_false (h : s.Inv) (hempty : s.conn.outputBuffer.contents = []) :
    s.conn.channel.isWriting = false := by
  by_cases hstate : s.conn.state = .kDisconnected
  · exact h.quiet hstate
  · rw [← Bool.not_eq_true]
    intro hwriting
    exact (h.synced hstate).mp hwriting hempty

/-- **`handleWrite` sends more of the echo, and half-closes behind its end.** -/
theorem Inv.handleWrite (h : Inv logging s log) {res : SysResult}
    (henabled : s.Enabled (.handleWrite res)) :
    Inv logging (s.exec logging (.handleWrite res)) log := by
  have hmoves := ConnStream.handleWrite_moves s.conn res
  refine ⟨h.stream.exec logging henabled, ?_, h.taken, ?_, ?_, ?_, ?_⟩
  · exact (congrArg WfBuffer.contents hmoves.inputBuffer).trans h.consumed
  · have hstream := hmoves.stream
    rw [List.append_nil] at hstream
    calc (s.sent ++ writtenBytes (s.conn.handleWrite res).2)
          ++ (s.conn.handleWrite res).1.outputBuffer.contents
        = s.sent ++ s.conn.outputBuffer.contents := by rw [List.append_assoc, hstream]
      _ = echo logging log := h.output
  · intro hlog
    exact fun hstate => h.silent hlog (hmoves.quiet.state.symm.trans hstate)
  · intro hlog
    show (s.conn.handleWrite res).1.state ≠ .kConnecting ∧ _
    exact hmoves.quiet.state ▸ h.spoken hlog
  · by_cases hwriting : s.conn.channel.isWriting = false
    · have hnothing := ConnStream.handleWrite_quiet hwriting res
      simp only [ConnStream.exec, TcpConnection.execLogging, TcpConnection.exec, hnothing,
        List.not_mem_nil, decide_false, Bool.or_false]
      exact h.fin
    · have hempty : s.conn.outputBuffer.contents ≠ [] :=
        fun hempty => hwriting (isWriting_eq_false h.stream hempty)
      have hlog : log ≠ [] := by
        rintro rfl
        exact hempty h.no_backlog.2
      have hstate := h.halfClosed hlog fun hclosed => hwriting (h.stream.quiet hclosed)
      have hopen : s.fin = false := by
        rw [← Bool.not_eq_true]
        exact fun hfin => hempty (h.fin.mp hfin).2
      simp only [ConnStream.exec, hopen, Bool.false_or, decide_eq_true_eq]
      constructor
      · intro hin
        rcases @TcpConnection.exec_shutdownWrite _ (.handleWrite res) hin with ⟨heq, _⟩ | hdue
        · cases heq
        · exact ⟨hlog, hdue.2⟩
      · rintro ⟨_, hdrained⟩
        exact @TcpConnection.exec_drained _ (.handleWrite res) hempty hdrained
          (hmoves.quiet.state.trans hstate)

/-- `shutdownInLoop` half-closes at once if the echo is out. -/
theorem fin_shutdownInLoop (h : s.Inv) (hstate : s.conn.state = .kDisconnecting) :
    (s.exec logging .shutdownInLoop).fin = true
      ↔ s.fin = true ∨ s.conn.outputBuffer.contents = [] := by
  have hsynced : s.conn.channel.isWriting = true ↔ s.conn.outputBuffer.contents ≠ [] :=
    h.synced (by simp [hstate])
  have hquiet : s.conn.channel.isWriting = false ↔ s.conn.outputBuffer.contents = [] := by
    rw [← Bool.not_eq_true, hsynced, not_not]
  have hmem : .shutdownWrite ∈ s.conn.shutdownInLoop ↔ s.conn.channel.isWriting = false := by
    unfold TcpConnection.shutdownInLoop
    cases s.conn.channel.isWriting <;> simp
  simp only [ConnStream.exec, Bool.or_eq_true, decide_eq_true_eq]
  rw [← hquiet, ← hmem]
  rfl

/-- The direct `::write` is all that can drop the first message. -/
theorem takes_first (hstate : s.conn.state = .kConnected)
    (hquiet : s.conn.channel.isWriting = false) (hempty : s.conn.outputBuffer.contents = [])
    (bytes : List Byte) (written : SysResult) :
    s.conn.takes logging (.sendInLoop bytes written) = echo logging [(bytes, written)] := by
  have hdirect : s.conn.WritesDirectly :=
    ⟨hquiet, (WfBuffer.readableBytes_eq_zero _).mpr hempty⟩
  have hdrops : s.conn.Drops logging bytes written ↔ Broken logging written := by
    cases written with
    | ok n => simp [TcpConnection.Drops, hstate, TcpConnection.directWrite, Broken]
    | err errno =>
      simp [TcpConnection.Drops, hstate, hdirect, TcpConnection.directWrite, Broken]
  simp only [TcpConnection.takes, echo, hdrops]

/-- What `shutdown()` does to a connection that is up. -/
structure HalfClosed (s t : ConnStream) : Prop where
  stream : t.Inv
  state : t.conn.state = .kDisconnecting
  inputBuffer : t.conn.inputBuffer = s.conn.inputBuffer
  outputBuffer : t.conn.outputBuffer = s.conn.outputBuffer
  sent : t.sent = s.sent
  taken : t.taken = s.taken
  fin : t.fin = true ↔ s.fin = true ∨ s.conn.outputBuffer.contents = []

theorem shutdown_halfClosed (h : s.Inv) (hstate : s.conn.state = .kConnected) {res : SysResult}
    (ht : call logging s .shutdown res = some t) : HalfClosed s t := by
  rw [call_shutdown hstate] at ht
  obtain ⟨u, hu, ht⟩ := Option.bind_eq_some_iff.mp ht
  rw [Runs.run_singleton] at ht
  have huinv := h.step logging hu
  have hinv := huinv.step logging ht
  simp only [ConnStream.step, Option.ite_none_right_eq_some, Option.some.injEq] at hu ht
  obtain ⟨_, rfl⟩ := hu
  obtain ⟨_, rfl⟩ := ht
  have hexec : s.exec logging .shutdown
      = { s with conn := { s.conn with state := .kDisconnecting } } := by
    simp [ConnStream.exec, TcpConnection.execLogging, TcpConnection.exec, TcpConnection.shutdown,
      hstate]
  rw [hexec] at huinv hinv ⊢
  refine ⟨hinv, rfl, rfl, rfl, ?_, rfl, fin_shutdownInLoop huinv rfl⟩
  simp only [ConnStream.exec]
  exact (congrArg _ (TcpConnection.shutdownInLoop_written _)).trans (List.append_nil _)

/-- **The first message is sent back, and the output is ended behind it.** -/
theorem answer_first (h : s.Inv) (hstate : s.conn.state = .kConnected) (hsent : s.sent = [])
    (hempty : s.conn.outputBuffer.contents = []) (hfin : s.fin = false)
    (hconsumed : s.conn.inputBuffer.contents = []) {bytes : List Byte} (htaken : s.taken = bytes)
    {written : SysResult} {u : ConnStream} (hsend : call logging s (.send bytes) written = some u)
    (ht : call logging u .shutdown written = some t) : Inv logging t [(bytes, written)] := by
  rw [call_send hstate] at hsend
  have huinv := h.step logging hsend
  simp only [ConnStream.step, Option.ite_none_right_eq_some, Option.some.injEq] at hsend
  obtain ⟨_, rfl⟩ := hsend
  have hmoves := ConnStream.sendInLoop_moves s.conn logging bytes written
  have hstream := hmoves.stream
  rw [takes_first hstate (isWriting_eq_false h hempty) hempty, hempty,
    List.nil_append] at hstream
  have hclosed := shutdown_halfClosed huinv (hmoves.quiet.state.trans hstate) ht
  have hufin : (s.exec logging (.sendInLoop bytes written)).fin = false := by
    have hnone : .shutdownWrite ∉ (s.conn.sendInLoop logging bytes written).2 :=
      TcpConnection.sendInLoop_effects
    simp [ConnStream.exec, TcpConnection.execLogging, hfin, hnone]
  refine ⟨hclosed.stream, ?_, ?_, ?_, fun hlog => absurd hlog (by simp), ?_, ?_⟩
  · rw [hclosed.inputBuffer]
    exact (congrArg WfBuffer.contents hmoves.inputBuffer).trans hconsumed
  · rw [hclosed.taken]
    show s.taken = _
    simpa using htaken
  · rw [hclosed.sent, hclosed.outputBuffer]
    show (s.sent ++ writtenBytes (s.conn.sendInLoop logging bytes written).2)
      ++ (s.conn.sendInLoop logging bytes written).1.outputBuffer.contents = _
    rw [hsent, List.nil_append, hstream]
  · intro _
    simp [hclosed.state]
  · rw [hclosed.fin, hclosed.outputBuffer, hufin]
    simp

/-- All that is readable is taken. -/
theorem retrieve_all (s : ConnStream) :
    (s.retrieve s.conn.inputBuffer.readableBytes).taken = s.taken ++ s.conn.inputBuffer.contents
      ∧ (s.retrieve s.conn.inputBuffer.readableBytes).conn.inputBuffer.contents = [] := by
  have hall := Nat.le_of_eq s.conn.inputBuffer.length_contents
  refine ⟨?_, ?_⟩
  · rw [ConnStream.retrieve, List.take_of_length_le hall]
  · rw [ConnStream.retrieve, WfBuffer.contents_retrieve]
    exact List.drop_eq_nil_of_le hall

/-- A message that has been read into the empty buffer. -/
structure Read (s t : ConnStream) (bytes : List Byte) : Prop where
  stream : t.Inv
  state : t.conn.state = s.conn.state
  inputBuffer : t.conn.inputBuffer.contents = bytes
  outputBuffer : t.conn.outputBuffer = s.conn.outputBuffer
  sent : t.sent = s.sent
  taken : t.taken = s.taken
  fin : t.fin = s.fin

/-- **A message is answered if it is the first.** -/
theorem Inv.onMessage (h : Inv logging s log)
    (hup : s.conn.state = .kConnected ∨ s.conn.state = .kDisconnecting) {read : ConnStream}
    {bytes : List Byte} (hread : Read s read bytes) {written : SysResult}
    (ht : onMessage logging read written = some t) : Inv logging t (log ++ [(bytes, written)]) := by
  rw [onMessage_eq, hread.inputBuffer] at ht
  obtain ⟨htaken, hconsumed⟩ := retrieve_all read
  rw [hread.taken, hread.inputBuffer] at htaken
  have hstream : (read.retrieve read.conn.inputBuffer.readableBytes).Inv :=
    ⟨hread.stream.synced, hread.stream.quiet, hread.stream.reading⟩
  obtain ⟨u, hsend, hshutdown⟩ := Option.bind_eq_some_iff.mp ht
  by_cases hstate : s.conn.state = .kConnected
  · have hlog : log = [] := by
      by_contra hlog
      exact (h.spoken hlog).2 hstate
    subst hlog
    have hfin : s.fin = false := by
      rw [← Bool.not_eq_true]
      exact fun hfin => (h.fin.mp hfin).1 rfl
    rw [h.taken] at htaken
    exact answer_first hstream (hread.state.trans hstate) (hread.sent.trans h.no_backlog.1)
      ((congrArg WfBuffer.contents hread.outputBuffer).trans h.no_backlog.2)
      (hread.fin.trans hfin) hconsumed htaken hsend hshutdown
  · -- `state_` is not `kConnected`: neither call does anything
    have hclosing : s.conn.state = .kDisconnecting := hup.resolve_left hstate
    have hlog : log ≠ [] := fun hlog => h.silent hlog hclosing
    have hnot : (read.retrieve read.conn.inputBuffer.readableBytes).conn.state ≠ .kConnected :=
      fun heq => hstate (hread.state.symm.trans heq)
    rw [call_not_connected hnot] at hsend
    cases hsend
    rw [call_not_connected hnot] at hshutdown
    cases hshutdown
    refine ⟨hstream, hconsumed, ?_, ?_, fun hnil => absurd hnil (by simp), ?_, ?_⟩
    · rw [htaken, h.taken]
      simp
    · rw [echo_append hlog, ← h.output, ← hread.sent, ← hread.outputBuffer]
      rfl
    · intro _
      show read.conn.state ≠ .kConnecting ∧ read.conn.state ≠ .kConnected
      simp [hread.state, hclosing]
    · have hfin := h.fin
      rw [← hread.fin, ← hread.outputBuffer] at hfin
      show read.fin = true ↔ _ ∧ read.conn.outputBuffer.contents = []
      simpa [hlog] using hfin

/-! ### Runs -/

theorem Inv.closes (h : Inv logging s log) {op : ConnOp} (henabled : s.Enabled op)
    (hwritten : writtenBytes (s.conn.execLogging logging op).2 = [])
    (hfin : .shutdownWrite ∉ (s.conn.execLogging logging op).2)
    (houtput : (s.conn.execLogging logging op).1.outputBuffer = s.conn.outputBuffer)
    (hinput : (s.conn.execLogging logging op).1.inputBuffer.contents = [])
    (hstate : (s.conn.execLogging logging op).1.state = .kDisconnected) :
    Inv logging (s.exec logging op) log :=
  h.exec henabled hwritten hfin houtput hinput (by simp [hstate]) (by simp [hstate])

theorem Inv.handleRead (h : Inv logging s log) {res : ReadvResult} {written : SysResult}
    (hstep : step logging s (.handleRead res written) = some t) :
    Inv logging t (log ++ messages (.handleRead res written)) := by
  obtain ⟨read, hread, ht⟩ := Option.bind_eq_some_iff.mp hstep
  have hreadinv := h.stream.step logging hread
  simp only [ConnStream.step, Option.ite_none_right_eq_some, Option.some.injEq] at hread
  obtain ⟨henabled, rfl⟩ := hread
  cases res with
  | err errno =>
    have hexec : s.conn.execLogging logging (.handleRead (.err errno)) = (s.conn, []) := rfl
    simp only [hexec, List.not_mem_nil, if_false, Option.some.injEq] at ht
    subst ht
    show Inv logging _ (log ++ [])
    rw [List.append_nil]
    exact h.exec henabled rfl List.not_mem_nil rfl h.consumed h.silent h.spoken
  | ok bytes =>
    by_cases hempty : bytes = []
    · -- the peer has closed
      subst hempty
      have hexec : s.conn.execLogging logging (.handleRead (.ok [])) = { s.conn with
          inputBuffer := (s.conn.inputBuffer.readFd (.ok [])).2 }.handleClose := rfl
      have hnot : .messageCallback ∉ (s.conn.execLogging logging (.handleRead (.ok []))).2 := by
        simp [hexec, TcpConnection.handleClose]
      rw [if_neg hnot] at ht
      cases ht
      rw [messages, if_pos rfl, List.append_nil]
      refine h.closes henabled rfl (by simp [hexec, TcpConnection.handleClose]) rfl ?_ rfl
      simp [hexec, TcpConnection.handleClose, h.consumed]
    · have hexec : s.conn.execLogging logging (.handleRead (.ok bytes)) = ({ s.conn with
          inputBuffer := (s.conn.inputBuffer.readFd (.ok bytes)).2 }, [.messageCallback]) := by
        show s.conn.handleRead (.ok bytes) = _
        rw [TcpConnection.handleRead]
        exact if_pos (List.length_pos_iff.mpr hempty)
      rw [hexec, if_pos List.mem_cons_self] at ht
      rw [messages, if_neg hempty]
      refine h.onMessage (h.stream.reading.mp henabled.2.1) ?_ ht
      have hread : s.exec logging (.handleRead (.ok bytes)) = { s with conn := { s.conn with
          inputBuffer := (s.conn.inputBuffer.readFd (.ok bytes)).2 } } := by
        simp [ConnStream.exec, hexec, writtenBytes]
      rw [hread] at hreadinv ⊢
      refine ⟨hreadinv, rfl, ?_, rfl, rfl, rfl, rfl⟩
      simp [h.consumed]

theorem Inv.step (h : Inv logging s log) {a : EchoAct} (hstep : step logging s a = some t) :
    Inv logging t (log ++ messages a) := by
  cases a with
  | handleRead res written => exact h.handleRead hstep
  | connectEstablished =>
    simp only [EchoServer.step, ConnStream.step, Option.ite_none_right_eq_some,
      Option.some.injEq] at hstep
    obtain ⟨henabled, rfl⟩ := hstep
    have hlog : log = [] := by
      by_contra hlog
      exact (h.spoken hlog).1 henabled.2.1
    show Inv logging _ (log ++ [])
    rw [List.append_nil]
    refine h.exec henabled rfl ?_ rfl h.consumed ?_ fun hne => absurd hlog hne
    · simp [TcpConnection.execLogging, TcpConnection.exec, TcpConnection.connectEstablished]
    · simp [TcpConnection.execLogging, TcpConnection.exec, TcpConnection.connectEstablished]
  | handleWrite res =>
    simp only [EchoServer.step, ConnStream.step, Option.ite_none_right_eq_some,
      Option.some.injEq] at hstep
    obtain ⟨henabled, rfl⟩ := hstep
    show Inv logging _ (log ++ [])
    rw [List.append_nil]
    exact h.handleWrite henabled
  | handleClose =>
    simp only [EchoServer.step, ConnStream.step, Option.ite_none_right_eq_some,
      Option.some.injEq] at hstep
    obtain ⟨henabled, rfl⟩ := hstep
    show Inv logging _ (log ++ [])
    rw [List.append_nil]
    refine h.closes henabled rfl ?_ rfl h.consumed rfl
    simp [TcpConnection.execLogging, TcpConnection.exec, TcpConnection.handleClose]
  | connectDestroyed =>
    simp only [EchoServer.step, ConnStream.step, Option.ite_none_right_eq_some,
      Option.some.injEq] at hstep
    obtain ⟨henabled, rfl⟩ := hstep
    show Inv logging _ (log ++ [])
    rw [List.append_nil]
    by_cases hstate : s.conn.state = .kConnected
    · have hexec : s.conn.execLogging logging .connectDestroyed
          = ({ s.conn with state := .kDisconnected, channel := s.conn.channel.disableAll },
            [.updateChannel, .connectionCallback, .removeChannel]) := by
        show s.conn.connectDestroyed = _
        rw [TcpConnection.connectDestroyed, if_pos hstate]
      exact h.closes henabled (by rw [hexec]; rfl) (by simp [hexec]) (by rw [hexec])
        (by rw [hexec]; exact h.consumed) (by rw [hexec])
    · have hexec : s.conn.execLogging logging .connectDestroyed = (s.conn, [.removeChannel]) := by
        show s.conn.connectDestroyed = _
        rw [TcpConnection.connectDestroyed, if_neg hstate]
      exact h.exec henabled (by rw [hexec]; rfl) (by simp [hexec]) (by rw [hexec])
        (by rw [hexec]; exact h.consumed) (by rw [hexec]; exact h.silent)
        (by rw [hexec]; exact h.spoken)

theorem Inv.run {acts : List EchoAct} (h : Inv logging s log)
    (hrun : Runs.run (EchoServer.step logging) s acts = some t) :
    Inv logging t (log ++ acts.flatMap messages) := by
  induction acts generalizing s log with
  | nil =>
    cases hrun
    rw [List.flatMap_nil, List.append_nil]
    exact h
  | cons a acts ih =>
    obtain ⟨u, hu, hrest⟩ := Option.bind_eq_some_iff.mp hrun
    rw [List.flatMap_cons, ← List.append_assoc]
    exact ih (h.step hu) hrest

/-- **The echo server sends back the first message, and nothing else.**  However the kernel
    answers: all that was read has been consumed; what was sent, and then the backlog, are the
    first message (nothing, if its `::write` found the connection broken); and the output is
    ended exactly if there was a message and no backlog is left. -/
theorem echoes_first_message (logging : Errno → Errno) (loop : LoopId) (name : Name)
    (sockfd : Fd) (acts : List EchoAct) (s : ConnStream)
    (hrun : Runs.run (step logging) (start loop name sockfd) acts = some s) :
    s.taken = ((acts.flatMap messages).map Prod.fst).flatten
      ∧ s.conn.inputBuffer.contents = []
      ∧ s.sent ++ s.conn.outputBuffer.contents = echo logging (acts.flatMap messages)
      ∧ (s.fin = true ↔ acts.flatMap messages ≠ [] ∧ s.conn.outputBuffer.contents = []) := by
  have hinv := (@Inv.start logging loop name sockfd).run hrun
  rw [List.nil_append] at hinv
  exact ⟨hinv.taken, hinv.consumed, hinv.output, hinv.fin⟩

/-- **The peer sees a part of the first message, then its rest, then one end.**  The run is a
    run of the connection, and this is its trace on the wire. -/
theorem peer_sees_echo (logging : Errno → Errno) (loop : LoopId) (name : Name) (sockfd : Fd)
    (acts : List EchoAct) (s : ConnStream)
    (hrun : Runs.run (step logging) (start loop name sockfd) acts = some s) :
    ∃ more, Runs.run (ConnStream.step logging) (start loop name sockfd) more = some s
      ∧ (Runs.outputs (ConnStream.step logging) (ConnStream.seen logging)
          (start loop name sockfd) more).filterMap Seen.wire
        = ((echo logging (acts.flatMap messages)).take s.sent.length).map some
          ++ if acts.flatMap messages ≠ [] ∧ s.conn.outputBuffer.contents = [] then [none]
            else [] := by
  have hinv := (@Inv.start logging loop name sockfd).run hrun
  rw [List.nil_append] at hinv
  obtain ⟨more, hmore⟩ := run_is_run hrun
  obtain ⟨_, hwire, _⟩ := ConnStream.seen_from_start
    (ConnStream.start_refines loop name sockfd false false _) hmore
  refine ⟨more, hmore, hwire.trans ?_⟩
  rw [← hinv.output, List.take_left]
  simp only [hinv.fin]

/-- Two messages: the first goes out in three parts, the second is only consumed. -/
def twoMessages : List EchoAct :=
  [.connectEstablished, .handleRead (.ok [1, 2, 3, 4]) (.ok 1), .handleWrite (.ok 2),
    .handleRead (.ok [5]) (.ok 1), .handleWrite (.ok 1), .handleRead (.ok []) (.ok 0)]

theorem echoes_first_message_twoMessages :
    ∃ s, Runs.run (step id) (start 0 ['c'] 7) twoMessages = some s
      ∧ s.taken = ((twoMessages.flatMap messages).map Prod.fst).flatten
      ∧ s.conn.inputBuffer.contents = []
      ∧ s.sent ++ s.conn.outputBuffer.contents = echo id (twoMessages.flatMap messages)
      ∧ (s.fin = true
        ↔ twoMessages.flatMap messages ≠ [] ∧ s.conn.outputBuffer.contents = []) := by
  obtain ⟨s, hs⟩ := Option.isSome_iff_exists.mp (by decide +kernel :
    (Runs.run (step id) (start 0 ['c'] 7) twoMessages).isSome = true)
  exact ⟨s, hs, echoes_first_message id 0 ['c'] 7 twoMessages s hs⟩

example : echo id (twoMessages.flatMap messages) = [1, 2, 3, 4] := by decide

/-! ### The echo is completed -/

/-- The reports of a kernel that takes `n` bytes at a time. -/
def drains (parts : List Nat) : List EchoAct := parts.map fun n => .handleWrite (.ok n)

theorem handleWrite_ok {conn : TcpConnection} (hwriting : conn.channel.isWriting = true) (n : Nat) :
    writtenBytes (conn.handleWrite (.ok n)).2 = conn.outputBuffer.contents.take n
      ∧ (conn.handleWrite (.ok n)).1.outputBuffer.contents = conn.outputBuffer.contents.drop n := by
  have hwritten : writtenBytes (conn.handleWrite (.ok n)).2
      = conn.outputBuffer.contents.take n := by
    unfold TcpConnection.handleWrite
    rw [if_pos hwriting]
    simp only [WfBuffer.writeFd]
    split
    · rw [writtenBytes_write, TcpConnection.writeDrained_written, List.append_nil]
    · simp
  have hstream := conn.handleWrite_stream (.ok n)
  rw [hwritten] at hstream
  have hsplit := hstream.trans (List.take_append_drop n conn.outputBuffer.contents).symm
  exact ⟨hwritten, List.append_cancel_left hsplit⟩

/-- A part of the backlog goes out. -/
theorem Inv.handleWrite_part (h : Inv logging s log) (hstate : s.conn.state = .kDisconnecting)
    {n : Nat} (hpos : 0 < n) (hn : n ≤ s.conn.outputBuffer.contents.length) :
    ∃ t, EchoServer.step logging s (.handleWrite (.ok n)) = some t ∧ Inv logging t log
      ∧ t.conn.state = .kDisconnecting
      ∧ t.conn.outputBuffer.contents = s.conn.outputBuffer.contents.drop n := by
  have hbacklog : s.conn.outputBuffer.contents ≠ [] := by
    intro hempty
    rw [hempty, List.length_nil] at hn
    omega
  have henabled : s.Enabled (.handleWrite (.ok n)) := by
    refine ⟨?_, trivial, fun hfin => absurd (h.fin.mp hfin).2 hbacklog⟩
    rw [s.conn.outputBuffer.length_contents] at hn
    exact hn
  have hwriting : s.conn.channel.isWriting = true :=
    (h.stream.synced (by simp [hstate])).mpr hbacklog
  refine ⟨s.exec logging (.handleWrite (.ok n)), ?_, h.handleWrite henabled, ?_, ?_⟩
  · rw [EchoServer.step, ConnStream.step, if_pos henabled]
  · exact (s.conn.handleWrite_quiet (.ok n)).state.trans hstate
  · exact (handleWrite_ok hwriting n).2

theorem Inv.drains {parts : List Nat} (h : Inv logging s log) (hlog : log ≠ [])
    (hstate : s.conn.state = .kDisconnecting) (hpos : ∀ n ∈ parts, 0 < n)
    (hsum : parts.sum = s.conn.outputBuffer.contents.length) :
    ∃ t, Runs.run (EchoServer.step logging) s (EchoServer.drains parts) = some t ∧ t.fin = true
      ∧ t.sent = echo logging log := by
  induction parts generalizing s with
  | nil =>
    have hempty : s.conn.outputBuffer.contents = [] := List.length_eq_zero_iff.mp hsum.symm
    have houtput := h.output
    rw [hempty, List.append_nil] at houtput
    exact ⟨s, rfl, h.fin.mpr ⟨hlog, hempty⟩, houtput⟩
  | cons n parts ih =>
    rw [List.sum_cons] at hsum
    obtain ⟨u, hu, hinv, hclosing, hrest⟩ :=
      h.handleWrite_part hstate (hpos n List.mem_cons_self) (by omega)
    have hleft : parts.sum = u.conn.outputBuffer.contents.length := by
      rw [hrest, List.length_drop]
      omega
    obtain ⟨t, ht, hdone⟩ :=
      ih hinv hclosing (fun m hm => hpos m (List.mem_cons_of_mem _ hm)) hleft
    refine ⟨t, ?_, hdone⟩
    rw [EchoServer.drains, List.map_cons, Runs.run_cons, hu, Option.bind_some]
    exact ht

/-- **The echo is completed** by any sequence of `EPOLLOUT` reports in each of which the
    kernel takes something, as soon as it has taken the whole backlog: then the peer has the
    whole echo and the end of the output. -/
theorem echo_completes (logging : Errno → Errno) (loop : LoopId) (name : Name) (sockfd : Fd)
    (acts : List EchoAct) (s : ConnStream)
    (hrun : Runs.run (step logging) (start loop name sockfd) acts = some s)
    (hmessage : acts.flatMap messages ≠ []) (hopen : s.conn.state ≠ .kDisconnected)
    (parts : List Nat) (hpos : ∀ n ∈ parts, 0 < n)
    (hsum : parts.sum = s.conn.outputBuffer.contents.length) :
    ∃ t, Runs.run (step logging) s (drains parts) = some t ∧ t.fin = true
      ∧ t.sent = echo logging (acts.flatMap messages) := by
  have hinv := (@Inv.start logging loop name sockfd).run hrun
  rw [List.nil_append] at hinv
  exact hinv.drains hmessage (hinv.halfClosed hmessage hopen) hpos hsum

/-- The first message with three bytes left, which go out in two parts. -/
theorem echo_completes_behind :
    ∃ s t, Runs.run (step id) (start 0 ['c'] 7)
        [.connectEstablished, .handleRead (.ok [1, 2, 3, 4]) (.ok 1)] = some s
      ∧ Runs.run (step id) s (drains [2, 1]) = some t ∧ t.fin = true
      ∧ t.sent = echo id [([1, 2, 3, 4], .ok 1)] := by
  obtain ⟨s, hs, hfound⟩ := (Option.any_eq_true _ _).mp (by decide +kernel :
    (Runs.run (step id) (start 0 ['c'] 7)
      [.connectEstablished, .handleRead (.ok [1, 2, 3, 4]) (.ok 1)]).any (fun s =>
        decide (s.conn.state ≠ .kDisconnected
          ∧ [2, 1].sum = s.conn.outputBuffer.contents.length)) = true)
  obtain ⟨hopen, hbacklog⟩ := of_decide_eq_true hfound
  obtain ⟨t, ht⟩ := echo_completes id 0 ['c'] 7 _ s hs (by decide) hopen [2, 1] (by decide) hbacklog
  exact ⟨s, t, hs, ht⟩

end EchoServer

end Ymuduo
