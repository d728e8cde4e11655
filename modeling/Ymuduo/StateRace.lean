/-
  Ymuduo/StateRace.lean
  =====================
  **`state_` at the granularity of single loads and stores.**

  `state_` is atomic, but `shutdown()` is a load and, when that finds `kConnected`,
  a separate store of `kDisconnecting`; meanwhile the loop thread may store
  `kDisconnected` in `handleClose` or `connectDestroyed`.  The late store takes a
  closed connection back to `kDisconnecting`: `~TcpConnection` asserts otherwise.

  `never_backwards_iff` says that this is the only way for `state_` to move
  backwards: it is monotone exactly in the runs in which no `shutdown()` stores
  `kDisconnecting` over `kDisconnected`.
-/
import Ymuduo.EventLoop
import Ymuduo.TcpConnection

namespace Ymuduo

/-- The loop thread between two accesses of `state_`. -/
inductive LoopAccess where
  | idle
  | establishing    -- after `assert(state_ == kConnecting)`
  | destroying      -- after `if(state_ == kConnected)` in `connectDestroyed`
  | aborted         -- that `assert` has failed
deriving DecidableEq, Repr

/-- `values` are the values that `state_` has had, the current one last; `tested`
    are the threads in `shutdown()` that have found `kConnected` and not stored yet. -/
structure StateCell where
  state : StateE
  values : List StateE
  loop : LoopAccess
  tested : ThreadId → Bool

inductive StateAccess where
  | connectEstablishedLoad
  | connectEstablishedStore
  | handleCloseStore
  | connectDestroyedLoad
  | connectDestroyedStore
  | shutdownLoad (t : ThreadId)
  | shutdownStore (t : ThreadId)
deriving DecidableEq, Repr

namespace StateCell

/-- The constructor: `state_(kConnecting)`. -/
def start : StateCell where
  state := .kConnecting
  values := [.kConnecting]
  loop := .idle
  tested := fun _ => false

/-- `setState` -/
def setState (s : StateCell) (state : StateE) : StateCell :=
  { s with state := state, values := s.values ++ [state] }

/-- The functions of the loop thread come in any order and any number of times. -/
def step (s : StateCell) : StateAccess → Option StateCell
  | .connectEstablishedLoad =>
    if s.loop = .idle then
      some { s with loop := if s.state = .kConnecting then .establishing else .aborted }
    else none
  | .connectEstablishedStore =>
    if s.loop = .establishing then some { s.setState .kConnected with loop := .idle } else none
  | .handleCloseStore =>
    if s.loop = .idle then some (s.setState .kDisconnected) else none
  | .connectDestroyedLoad =>
    if s.loop = .idle then
      some { s with loop := if s.state = .kConnected then .destroying else .idle }
    else none
  | .connectDestroyedStore =>
    if s.loop = .destroying then some { s.setState .kDisconnected with loop := .idle } else none
  | .shutdownLoad t =>
    if s.loop ≠ .aborted ∧ s.tested t = false then
      some { s with tested := Function.update s.tested t (s.state = .kConnected) }
    else none
  | .shutdownStore t =>
    if s.loop ≠ .aborted ∧ s.tested t = true then
      some { s.setState .kDisconnecting with tested := Function.update s.tested t false }
    else none

/-! ### The functions without interruption -/

/-- A connection and the cell that holds its `state_`. -/
def Holds (s : StateCell) (conn : TcpConnection) : Prop := s.state = conn.state

theorem connectEstablished_uninterrupted {s : StateCell} {conn : TcpConnection}
    (hconn : s.Holds conn) (hidle : s.loop = .idle) (hstate : conn.state = .kConnecting) :
    ∃ t, Runs.run step s [.connectEstablishedLoad, .connectEstablishedStore] = some t
      ∧ t.Holds conn.connectEstablished.1 := by
  have hconnecting : s.state = .kConnecting := hconn.trans hstate
  exact ⟨{ s.setState .kConnected with loop := .idle },
    by simp [step, hidle, hconnecting, setState], rfl⟩

theorem handleClose_uninterrupted {s : StateCell} {conn : TcpConnection}
    (hidle : s.loop = .idle) :
    ∃ t, Runs.run step s [.handleCloseStore] = some t ∧ t.Holds conn.handleClose.1 :=
  ⟨s.setState .kDisconnected, by simp [step, hidle], rfl⟩

theorem connectDestroyed_uninterrupted {s : StateCell} {conn : TcpConnection}
    (hconn : s.Holds conn) (hidle : s.loop = .idle) :
    ∃ as t, (as = [.connectDestroyedLoad] ∨ as = [.connectDestroyedLoad, .connectDestroyedStore])
      ∧ Runs.run step s as = some t ∧ t.Holds conn.connectDestroyed.1 := by
  by_cases hstate : conn.state = .kConnected
  · have hconnected : s.state = .kConnected := hconn.trans hstate
    refine ⟨_, { s.setState .kDisconnected with loop := .idle }, Or.inr rfl, ?_, ?_⟩
    · simp [step, hidle, hconnected, setState]
    · simp [Holds, TcpConnection.connectDestroyed, hstate, setState]
  · have hother : s.state ≠ .kConnected := fun h => hstate (hconn.symm.trans h)
    refine ⟨_, s, Or.inl rfl, ?_, ?_⟩
    · simp only [Runs.run_cons, step, hidle, if_true, hother, if_false, Option.bind_some,
        Runs.run_nil, Option.some.injEq]
      rw [← hidle]
    · simpa [Holds, TcpConnection.connectDestroyed, hstate] using hconn

theorem shutdown_uninterrupted {s : StateCell} {conn : TcpConnection} (hconn : s.Holds conn)
    (hloop : s.loop = .idle) (thread : ThreadId) (htested : s.tested thread = false) :
    ∃ as t, (as = [.shutdownLoad thread] ∨ as = [.shutdownLoad thread, .shutdownStore thread])
      ∧ Runs.run step s as = some t ∧ t.Holds (conn.shutdown false).1 := by
  by_cases hstate : conn.state = .kConnected
  · have hconnected : s.state = .kConnected := hconn.trans hstate
    let tested := Function.update (Function.update s.tested thread true) thread false
    refine ⟨_, { s.setState .kDisconnecting with tested := tested }, Or.inr rfl, ?_, ?_⟩
    · simp [step, hloop, htested, hconnected, setState, tested]
    · simp [Holds, TcpConnection.shutdown, hstate, setState]
  · have hother : s.state ≠ .kConnected := fun h => hstate (hconn.symm.trans h)
    refine ⟨_, { s with tested := Function.update s.tested thread false }, Or.inl rfl, ?_, ?_⟩
    · simp [step, hloop, htested, hother]
    · simpa [Holds, TcpConnection.shutdown, hstate] using hconn

/-! ### Monotonicity -/

/-- A `shutdown()` stores before the connection is closed, or not at all. -/
def ShutdownInTime (s : StateCell) : StateAccess → Prop
  | .shutdownStore _ => s.state ≠ .kDisconnected
  | _ => True

/-- `state_` has never moved backwards; a connection that was closed passes the
    `assert` of its destructor and sends nothing any more. -/
structure NeverBackwards (s : StateCell) : Prop where
  ordered : s.values.Pairwise fun a b => a.rank ≤ b.rank
  closed : .kDisconnected ∈ s.values → s.state = .kDisconnected
    ∧ ∀ (conn : TcpConnection) (logging : Errno → Errno) (message : List Byte) (res : SysResult),
      s.Holds conn → conn.sendInLoop logging message res = (conn, [])

structure Inv (s : StateCell) : Prop where
  ordered : s.values.Pairwise fun a b => a.rank ≤ b.rank
  current : s.state ∈ s.values
  le_current : ∀ v ∈ s.values, v.rank ≤ s.state.rank
  establishing : s.loop = .establishing → s.state = .kConnecting
  tested : ∀ t, s.tested t = true → StateE.kConnected.rank ≤ s.state.rank

theorem Inv.start : start.Inv where
  ordered := by simp [StateCell.start]
  current := by simp [StateCell.start]
  le_current := by simp [StateCell.start]
  establishing := by simp [StateCell.start]
  tested := by simp [StateCell.start]

/-- A store of a state that is not behind the current one keeps the order. -/
theorem Inv.setState {s : StateCell} (h : s.Inv) {state : StateE}
    (hle : s.state.rank ≤ state.rank) (hloop : s.loop ≠ .establishing) :
    (s.setState state).Inv where
  ordered := by
    refine List.pairwise_append.mpr ⟨h.ordered, List.pairwise_singleton _ _, ?_⟩
    intro v hv w hw
    rw [List.mem_singleton.mp hw]
    exact Nat.le_trans (h.le_current v hv) hle
  current := by simp [StateCell.setState]
  le_current := by
    intro v hv
    rcases List.mem_append.mp hv with hold | hnew
    · exact Nat.le_trans (h.le_current v hold) hle
    · rw [List.mem_singleton.mp hnew]
      exact Nat.le_refl _
  establishing := fun hin => absurd hin hloop
  tested := fun t ht => Nat.le_trans (h.tested t ht) hle

theorem Inv.step {s t : StateCell} {a : StateAccess} (h : s.Inv) (hin : s.ShutdownInTime a)
    (hstep : step s a = some t) : t.Inv := by
  cases a with
  | connectEstablishedLoad =>
    simp only [StateCell.step, Option.ite_none_right_eq_some, Option.some.injEq] at hstep
    obtain ⟨_, rfl⟩ := hstep
    refine ⟨h.ordered, h.current, h.le_current, ?_, h.tested⟩
    intro hloop
    by_contra hstate
    simp [hstate] at hloop
  | connectEstablishedStore =>
    simp only [StateCell.step, Option.ite_none_right_eq_some, Option.some.injEq] at hstep
    obtain ⟨hloop, rfl⟩ := hstep
    have hstate := h.establishing hloop
    -- nobody can have found `kConnected` yet
    have hidle : Inv { s with loop := .idle } :=
      ⟨h.ordered, h.current, h.le_current, nofun, h.tested⟩
    exact hidle.setState (by simp [hstate, StateE.rank]) (by simp)
  | handleCloseStore =>
    simp only [StateCell.step, Option.ite_none_right_eq_some, Option.some.injEq] at hstep
    obtain ⟨hloop, rfl⟩ := hstep
    exact h.setState (StateE.rank_le_kDisconnected _) (by simp [hloop])
  | connectDestroyedLoad =>
    simp only [StateCell.step, Option.ite_none_right_eq_some, Option.some.injEq] at hstep
    obtain ⟨_, rfl⟩ := hstep
    refine ⟨h.ordered, h.current, h.le_current, ?_, h.tested⟩
    intro hloop
    split at hloop <;> cases hloop
  | connectDestroyedStore =>
    simp only [StateCell.step, Option.ite_none_right_eq_some, Option.some.injEq] at hstep
    obtain ⟨_, rfl⟩ := hstep
    have hidle : Inv { s with loop := .idle } :=
      ⟨h.ordered, h.current, h.le_current, nofun, h.tested⟩
    exact hidle.setState (StateE.rank_le_kDisconnected _) (by simp)
  | shutdownLoad thread =>
    simp only [StateCell.step, Option.ite_none_right_eq_some, Option.some.injEq] at hstep
    obtain ⟨_, rfl⟩ := hstep
    refine ⟨h.ordered, h.current, h.le_current, h.establishing, ?_⟩
    intro u hu
    by_cases hut : u = thread
    · subst hut
      have hstate : s.state = .kConnected := by simpa using hu
      simp only [hstate, Nat.le_refl]
    · simp only [Function.update_of_ne hut] at hu
      exact h.tested u hu
  | shutdownStore thread =>
    simp only [StateCell.step, Option.ite_none_right_eq_some, Option.some.injEq] at hstep
    obtain ⟨⟨_, htested⟩, rfl⟩ := hstep
    have hconnected := h.tested thread htested
    have hle : s.state.rank ≤ StateE.kDisconnecting.rank := by
      have hne : s.state ≠ .kDisconnected := hin
      cases hstate : s.state <;> simp_all [StateE.rank]
    have hloop : s.loop ≠ .establishing := by
      intro hloop
      rw [h.establishing hloop] at hconnected
      exact absurd hconnected (by decide)
    have hstored := h.setState hle hloop
    refine ⟨hstored.ordered, hstored.current, hstored.le_current, hstored.establishing, ?_⟩
    intro u hu
    by_cases hut : u = thread
    · subst hut
      simp at hu
    · simp only [Function.update_of_ne hut] at hu
      exact hstored.tested u hu

theorem Inv.neverBackwards {s : StateCell} (h : s.Inv) : s.NeverBackwards where
  ordered := h.ordered
  closed := by
    intro hmem
    have hle := h.le_current _ hmem
    have hstate : s.state = .kDisconnected := by
      cases hcase : s.state <;> simp_all [StateE.rank]
    refine ⟨hstate, ?_⟩
    intro conn logging message res hconn
    rw [TcpConnection.sendInLoop, if_pos (hconn.symm.trans hstate)]

/-- What a step does to the record of values. -/
theorem step_values {s t : StateCell} {a : StateAccess} (hstep : step s a = some t) :
    s.values <+: t.values := by
  cases a <;>
    simp only [step, Option.ite_none_right_eq_some, Option.some.injEq] at hstep <;>
    obtain ⟨_, rfl⟩ := hstep
  case connectEstablishedLoad | connectDestroyedLoad | shutdownLoad => exact List.prefix_refl _
  all_goals exact List.prefix_append _ _

/-- The store that comes too late is a step backwards. -/
theorem Inv.not_ordered_of_late {s t : StateCell} {a : StateAccess} (h : s.Inv)
    (hlate : ¬ s.ShutdownInTime a) (hstep : StateCell.step s a = some t) :
    ¬ t.values.Pairwise fun a b => a.rank ≤ b.rank := by
  cases a with
  | shutdownStore thread =>
    have hstate : s.state = .kDisconnected := not_not.mp hlate
    simp only [StateCell.step, Option.ite_none_right_eq_some, Option.some.injEq] at hstep
    obtain ⟨_, rfl⟩ := hstep
    intro hordered
    have hback := (List.pairwise_append.mp hordered).2.2 _ h.current _ (List.mem_singleton_self _)
    rw [hstate] at hback
    exact absurd hback (by decide)
  | _ => exact absurd trivial hlate

/-- **When `state_` never moves backwards**: in the runs in which every store of
    `shutdown()` finds the connection not yet closed, and in no others. -/
theorem never_backwards_iff (acts : List StateAccess) (s : StateCell)
    (hrun : Runs.run step start acts = some s) :
    s.NeverBackwards ↔ Runs.Along step ShutdownInTime start acts := by
  rcases Runs.run_dichotomy (fun _ _ _ h hC hstep => Inv.step h hC hstep)
    (fun _ _ _ h hC hstep => h.not_ordered_of_late hC hstep)
    (fun _ _ _ h hstep hordered => h (hordered.sublist (step_values hstep).sublist))
    Inv.start hrun with ⟨halong, hinv⟩ | ⟨hnot, hback⟩
  · exact ⟨fun _ => halong, fun _ => hinv.neverBackwards⟩
  · exact ⟨fun h => absurd h.ordered hback, fun halong => absurd halong hnot⟩

/-- Thread 1 is between the test and the store of `shutdown()` when the peer closes. -/
def lateShutdown : List StateAccess :=
  [.connectEstablishedLoad, .connectEstablishedStore, .shutdownLoad 1, .handleCloseStore,
    .shutdownStore 1, .connectDestroyedLoad]

/-- The closed connection ends in `kDisconnecting`; its destructor's `assert` fails. -/
theorem lateShutdown_backwards :
    ∃ s, Runs.run step start lateShutdown = some s
      ∧ s.values = [.kConnecting, .kConnected, .kDisconnected, .kDisconnecting]
      ∧ s.state = .kDisconnecting ∧ ¬ s.NeverBackwards := by
  refine ⟨_, rfl, rfl, rfl, ?_⟩
  intro h
  exact absurd (h.closed (by decide)).1 (by decide)

/-- Two threads call `shutdown()`, both before the peer closes. -/
def timelyShutdowns : List StateAccess :=
  [.shutdownLoad 1, .connectEstablishedLoad, .connectEstablishedStore, .shutdownLoad 1,
    .shutdownLoad 2, .shutdownStore 2, .shutdownStore 1, .handleCloseStore,
    .connectDestroyedLoad]

theorem never_backwards_iff_timelyShutdowns :
    ∃ s, Runs.run step start timelyShutdowns = some s
      ∧ (s.NeverBackwards ↔ Runs.Along step ShutdownInTime start timelyShutdowns) :=
  ⟨_, rfl, never_backwards_iff timelyShutdowns _ rfl⟩

end StateCell

end Ymuduo
