/-
  Ymuduo/ConnView.lean
  ====================
  **One connection of a `ServerSystem`, on its own.**

  A `ConnView` is all that the system holds about one connection: its record, its
  functors and tasks, its part of the active channels.  Its own functions, and the few
  things that others do to it, act on the view alone.

  The functions that only move bytes run to their end in one step, and `run_quiet` is
  all that the life of the connection needs to know about them.
-/
import Ymuduo.Poller
import Ymuduo.ServerSystem

namespace Ymuduo

/-! ### Functions that only write -/

/-- A callback of the user's that is queued as a functor. -/
def ConnFunctor.IsNote : ConnFunctor → Prop
  | .writeComplete | .highWaterMark _ => True
  | _ => False

/-- An effect that stays below `state_` and the callbacks. -/
def Effect.IsQuiet : Effect → Prop
  | .write _ | .shutdownWrite | .updateChannel => True
  | .queueInLoop f => f.IsNote
  | _ => False

/-- The functions that move bytes; a `handleRead` can also close. -/
def ConnOp.IsQuiet : ConnOp → Prop
  | .sendInLoop _ _ | .handleWrite _ | .shutdownInLoop => True
  | .handleRead res => ∃ errno, res = .err errno
  | _ => False

namespace TcpConnection

/-- Buffers and write interest may change, and what is left to do is quiet. -/
structure QuietExec (conn conn' : TcpConnection) (effects : List Effect) : Prop where
  effects : ∀ e ∈ effects, e.IsQuiet
  loop : conn'.loop = conn.loop
  name : conn'.name = conn.name
  state : conn'.state = conn.state
  fd : conn'.channel.fd = conn.channel.fd
  index : conn'.channel.index = conn.channel.index
  reading : conn'.channel.isReading = conn.channel.isReading

theorem QuietExec.refl (conn : TcpConnection) : conn.QuietExec conn [] :=
  ⟨by simp, rfl, rfl, rfl, rfl, rfl, rfl⟩

theorem isReading_enableWriting (ch : Channel) : ch.enableWriting.isReading = ch.isReading := by
  simp [Channel.isReading, Channel.enableWriting, EpollEvents.meets, EpollEvents.union,
    kReadEvent, kWriteEvent]

theorem isReading_disableWriting (ch : Channel) : ch.disableWriting.isReading = ch.isReading := by
  simp [Channel.isReading, Channel.disableWriting, EpollEvents.meets, EpollEvents.diff,
    kReadEvent, kWriteEvent]

theorem queueWriteComplete_quiet (conn : TcpConnection) :
    ∀ e ∈ conn.queueWriteComplete, e.IsQuiet := by
  unfold queueWriteComplete
  split <;> simp [Effect.IsQuiet, ConnFunctor.IsNote]

theorem shutdownInLoop_quiet (conn : TcpConnection) : ∀ e ∈ conn.shutdownInLoop, e.IsQuiet := by
  unfold shutdownInLoop
  split <;> simp [Effect.IsQuiet]

theorem directWrite_quiet (conn : TcpConnection) (logging : Errno → Errno) (message : List Byte)
    (res : SysResult) : ∀ e ∈ (conn.directWrite logging message res).effects, e.IsQuiet := by
  cases res with
  | err errno => simp [directWrite]
  | ok n =>
    intro e he
    rcases List.mem_cons.mp he with rfl | hrest
    · trivial
    · split at hrest
      · exact conn.queueWriteComplete_quiet e hrest
      · cases hrest

theorem bufferRest_quiet (conn : TcpConnection) {message : List Byte} {w : DirectWrite}
    (hw : ∀ e ∈ w.effects, e.IsQuiet) :
    conn.QuietExec (conn.bufferRest message w).1 (conn.bufferRest message w).2 := by
  unfold bufferRest
  split
  · have hhigh : ∀ highWater : List Effect,
        (∀ e ∈ highWater, ∃ n, e = .queueInLoop (.highWaterMark n)) →
          ∀ e ∈ w.effects ++ highWater, e.IsQuiet := by
      intro highWater hnotes e he
      rcases List.mem_append.mp he with hin | hin
      · exact hw e hin
      · obtain ⟨n, rfl⟩ := hnotes e hin
        trivial
    simp only
    split
    · refine ⟨hhigh _ ?_, rfl, rfl, rfl, rfl, rfl, rfl⟩
      split <;> simp
    · refine ⟨?_, rfl, rfl, rfl, rfl, rfl, isReading_enableWriting _⟩
      intro e he
      rcases List.mem_append.mp he with hin | hin
      · refine hhigh _ ?_ e hin
        split <;> simp
      · rw [List.mem_singleton.mp hin]
        trivial
  · exact ⟨hw, rfl, rfl, rfl, rfl, rfl, rfl⟩

theorem sendInLoop_quiet (conn : TcpConnection) (logging : Errno → Errno) (message : List Byte)
    (res : SysResult) : conn.QuietExec (conn.sendInLoop logging message res).1
      (conn.sendInLoop logging message res).2 := by
  unfold sendInLoop
  split
  · exact .refl conn
  · split
    · exact conn.bufferRest_quiet (conn.directWrite_quiet logging message res)
    · exact conn.bufferRest_quiet (by simp [noDirectWrite])

theorem handleWrite_quiet (conn : TcpConnection) (res : SysResult) :
    conn.QuietExec (conn.handleWrite res).1 (conn.handleWrite res).2 := by
  rcases conn.handleWrite_cases res with hnone | ⟨_, sent, n, rfl, ⟨_, hpart⟩ | ⟨_, hdrained⟩⟩
  · rw [hnone]
    exact .refl conn
  · rw [hpart]
    exact ⟨by simp [Effect.IsQuiet], rfl, rfl, rfl, rfl, rfl, rfl⟩
  · rw [hdrained]
    refine ⟨?_, rfl, rfl, rfl, rfl, rfl, isReading_disableWriting _⟩
    intro e he
    simp only [writeDrained, List.cons_append, List.mem_cons, List.mem_append] at he
    rcases he with rfl | rfl | hnote | hshut
    · trivial
    · trivial
    · exact queueWriteComplete_quiet _ e hnote
    · split at hshut
      · exact shutdownInLoop_quiet _ e hshut
      · cases hshut

theorem exec_quiet (conn : TcpConnection) {op : ConnOp} (hop : op.IsQuiet) :
    conn.QuietExec (conn.exec op).1 (conn.exec op).2 := by
  cases op with
  | sendInLoop message res => exact conn.sendInLoop_quiet id message res
  | handleWrite res => exact conn.handleWrite_quiet res
  | shutdownInLoop => exact ⟨conn.shutdownInLoop_quiet, rfl, rfl, rfl, rfl, rfl, rfl⟩
  | handleRead res =>
    obtain ⟨errno, rfl⟩ := hop
    exact ⟨by simp [exec, handleRead, WfBuffer.readFd], rfl, rfl, rfl, rfl, rfl, rfl⟩
  | connectEstablished | handleClose | shutdown | connectDestroyed => exact hop.elim

/-- On a closed connection they leave the channel and the queue alone. -/
theorem exec_quiet_closed {conn : TcpConnection} {op : ConnOp} (hop : op.IsQuiet)
    (hstate : conn.state = .kDisconnected) (hevents : conn.channel.events = kNonEvent) :
    (conn.exec op).1.channel = conn.channel ∧ ∀ e ∈ (conn.exec op).2, e = .shutdownWrite := by
  have hwriting : conn.channel.isWriting = false := by
    rw [Channel.isWriting, hevents]
    rfl
  cases op with
  | sendInLoop message res => simp [exec, sendInLoop, hstate]
  | handleWrite res => simp [exec, handleWrite, hwriting]
  | shutdownInLoop => simp [exec, shutdownInLoop, hwriting]
  | handleRead res =>
    obtain ⟨errno, rfl⟩ := hop
    simp [exec, handleRead, WfBuffer.readFd]
  | connectEstablished | handleClose | shutdown | connectDestroyed => exact hop.elim

end TcpConnection

/-! ### One connection of the system -/

/-- `server`: the server is alive.  `queue` and `tasks` are the functors and the tasks
    of the connection on its loop, `removes` counts its functors on the main loop. -/
structure ConnView extends ConnRecord where
  server : Bool
  queue : List ConnFunctor
  removes : Nat
  tasks : List ConnTask
  active : List EpollEvents
  copies : Nat

namespace ConnView

/-- `none` where an `assert` fails. -/
def perform (v : ConnView) : Effect → Option ConnView
  | .updateChannel =>
    some { v with toConnRecord := v.toConnRecord.setChannel v.conn.channel.updated }
  | .removeChannel =>
    if v.conn.channel.index = .kNew then none
    else some { v with
      toConnRecord :=
        (v.toConnRecord.setChannel v.conn.channel.removed).addStep .connectDestroyed }
  | .queueInLoop f => some { v with queue := v.queue ++ [f] }
  | .assertion _ holds => if holds then some v else none
  | .write _ | .shutdownWrite | .connectionCallback | .messageCallback | .closeCallback => some v

def runEffects (v : ConnView) : List Effect → Option ConnView
  | [] => some v
  | e :: es =>
    if ServerSystem.isCallback e then some { v with tasks := (e :: es).map .effect ++ v.tasks }
    else (v.perform e).bind (·.runEffects es)

def run (v : ConnView) (op : ConnOp) : Option ConnView :=
  if v.alive then
    { v with toConnRecord := v.toConnRecord.exec op }.runEffects (v.conn.exec op).2
  else none

/-- A call by the user. -/
def call (v : ConnView) (isInLoopThread : Bool) (request : Request) (res : SysResult) :
    Option ConnView :=
  let called := { v with conn := (request.call v.conn isInLoopThread).1 }
  match (request.call v.conn isInLoopThread).2 with
  | .nothing => some called
  | .run f =>
    match f.op res with
    | some op => called.run op
    | none => some called
  | .queue f => some { called with queue := called.queue ++ [f] }

/-- `removeConnectionInLoop` -/
def erase (v : ConnView) : ConnView :=
  { v with
    toConnRecord := v.toConnRecord.addStep .removeConnectionInLoop
    queue := v.queue ++ [.connectDestroyed] }

/-- A callback of the user begins. -/
def announce (v : ConnView) (event : UserEvent) : ConnView :=
  { v with
    toConnRecord := v.toConnRecord.addEvent event
    tasks := .user :: v.tasks }

def runEffect (v : ConnView) (onMainLoop : Bool) : Effect → Option ConnView
  | .connectionCallback => some (v.announce (.connection v.conn.connected))
  | .messageCallback => some (v.announce .message)
  | .closeCallback =>
    if v.server then
      some (if onMainLoop then v.erase else { v with removes := v.removes + 1 })
    else none
  | e => v.perform e

def runTask (v : ConnView) (onMainLoop : Bool) (readRes : ReadvResult) (res : SysResult) :
    ConnTask → Option ConnView
  | .callback cb =>
    match ServerSystem.callbackOp readRes res cb with
    | some op => v.run op
    | none => some v
  | .effect e => v.runEffect onMainLoop e
  | .connectDestroyed => v.run .connectDestroyed
  | .user => some v

def runFunctor (v : ConnView) (res : SysResult) (f : ConnFunctor) : Option ConnView :=
  match f.op res with
  | some op => v.run op
  | none => some { v with tasks := .user :: v.tasks }

/-! ### Quiet moves -/

structure Quiet (v v' : ConnView) : Prop where
  same : v' = { v with conn := v'.conn, queue := v'.queue }
  state : v'.conn.state = v.conn.state
  queue : ∃ notes, v'.queue = v.queue ++ notes ∧ ∀ f ∈ notes, f.IsNote
  opened : v.conn.channel.index = .kAdded → v.conn.channel.isReading = true →
    v'.conn.channel.index = .kAdded ∧ v'.conn.channel.isReading = true
  closed : v.conn.state = .kDisconnected → v.conn.channel.events = kNonEvent →
    v'.conn.channel = v.conn.channel ∧ v'.queue = v.queue

theorem updated_of_reading {ch : Channel} (hindex : ch.index = .kAdded)
    (hreading : ch.isReading = true) : ch.updated = ch := by
  have hsome : ¬ ch.isNonEvent = true := by
    intro hnone
    simp only [Channel.isNonEvent, decide_eq_true_eq] at hnone
    rw [Channel.isReading, hnone] at hreading
    cases hreading
  simp [Channel.updated, hsome, ← hindex]

/-- Quiet effects are performed to the end, without a pause. -/
theorem runEffects_quiet {effects : List Effect} : ∀ (v : ConnView),
    (∀ e ∈ effects, e.IsQuiet) → ∃ ch notes,
      v.runEffects effects = some { v with
          toConnRecord := v.toConnRecord.setChannel ch, queue := v.queue ++ notes }
        ∧ (∀ f ∈ notes, f.IsNote)
        ∧ (v.conn.channel.index = .kAdded → v.conn.channel.isReading = true →
            ch = v.conn.channel)
        ∧ ((∀ e ∈ effects, e = .shutdownWrite) → ch = v.conn.channel ∧ notes = []) := by
  induction effects with
  | nil =>
    intro v _
    exact ⟨v.conn.channel, [], by simp [runEffects, ConnRecord.setChannel], by simp, fun _ _ => rfl,
      fun _ => ⟨rfl, rfl⟩⟩
  | cons e es ih =>
    intro v hquiet
    have hes : ∀ e ∈ es, e.IsQuiet := fun e he => hquiet e (List.mem_cons_of_mem _ he)
    have he : e.IsQuiet := hquiet e List.mem_cons_self
    cases e with
    | write bytes =>
      obtain ⟨ch, notes, hrun, hnotes, hopen, _⟩ := ih v hes
      exact ⟨ch, notes, hrun, hnotes, hopen, fun hall => by cases hall _ List.mem_cons_self⟩
    | shutdownWrite =>
      obtain ⟨ch, notes, hrun, hnotes, hopen, hsilent⟩ := ih v hes
      exact ⟨ch, notes, hrun, hnotes, hopen,
        fun hall => hsilent fun e he => hall e (List.mem_cons_of_mem _ he)⟩
    | updateChannel =>
      obtain ⟨ch, notes, hrun, hnotes, hopen, _⟩ :=
        ih { v with toConnRecord := v.toConnRecord.setChannel v.conn.channel.updated } hes
      refine ⟨ch, notes, hrun, hnotes, ?_, fun hall => by cases hall _ List.mem_cons_self⟩
      intro hindex hreading
      have hsame := updated_of_reading hindex hreading
      simp only [ConnRecord.setChannel, hsame] at hopen
      exact hopen hindex hreading
    | queueInLoop f =>
      obtain ⟨ch, notes, hrun, hnotes, hopen, _⟩ := ih { v with queue := v.queue ++ [f] } hes
      refine ⟨ch, f :: notes, ?_, ?_, hopen, fun hall => by cases hall _ List.mem_cons_self⟩
      · rw [List.append_cons]
        exact hrun
      · intro g hg
        rcases List.mem_cons.mp hg with rfl | hin
        · exact he
        · exact hnotes g hin
    | removeChannel | connectionCallback | messageCallback | closeCallback | assertion _ _ =>
      exact he.elim

theorem lifeSteps_quiet {op : ConnOp} {effects : List Effect} (hop : op.IsQuiet)
    (heffects : ∀ e ∈ effects, e.IsQuiet) : lifeSteps op effects = [] := by
  have hestablished : op ≠ .connectEstablished := by
    rintro rfl
    exact hop
  have hclose : .closeCallback ∉ effects := fun hin => heffects _ hin
  rw [lifeSteps, if_neg hestablished, if_neg hclose]

/-- **The functions that move bytes run to their end, and quietly.** -/
theorem run_quiet {v : ConnView} (halive : v.alive = true) {op : ConnOp} (hop : op.IsQuiet) :
    ∃ v', v.run op = some v' ∧ Quiet v v' := by
  have hexec := v.conn.exec_quiet hop
  obtain ⟨ch, notes, hrun, hnotes, hopen, hsilent⟩ :=
    runEffects_quiet { v with toConnRecord := v.toConnRecord.exec op } hexec.effects
  have hdestroyed : op ≠ .connectDestroyed := by
    rintro rfl
    exact hop
  refine ⟨_, by rw [run, if_pos halive, hrun], ?_, hexec.state, ⟨notes, rfl, hnotes⟩, ?_, ?_⟩
  · simp [ConnRecord.exec, ConnRecord.setChannel, lifeSteps_quiet hop hexec.effects, hdestroyed]
  · intro hindex hreading
    have hsame := hopen (hexec.index.trans hindex) (hexec.reading.trans hreading)
    simp only [ConnRecord.setChannel, hsame, ConnRecord.exec]
    exact ⟨hexec.index.trans hindex, hexec.reading.trans hreading⟩
  · intro hstate hevents
    obtain ⟨hchannel, hshutdown⟩ := TcpConnection.exec_quiet_closed hop hstate hevents
    obtain ⟨hch, hnone⟩ := hsilent hshutdown
    subst hch hnone
    exact ⟨hchannel, List.append_nil _⟩

end ConnView

end Ymuduo
