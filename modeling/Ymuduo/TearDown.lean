/-
  Ymuduo/TearDown.lean
  ====================
  **What `connectDestroyed` leaves behind.**

  `~TcpConnection` asserts `kDisconnected`, and `connectDestroyed` disconnects what it
  finds in `kConnected`.  After `handleClose` nothing is left to disconnect.  But a
  connection that the user has shut down is in `kDisconnecting` until the peer closes,
  and `~TcpServer` can come first.

  As everywhere in `ServerSystem`, a `shutdown` is not interrupted and no report is odd.  A
  late store of `kDisconnecting` during the callback of `connectDestroyed` would stay behind,
  and a second `handleClose` would tell the user DOWN twice.
-/
import Ymuduo.LifeCycle

namespace Ymuduo.ServerSystem

/-- The step calls `connectDestroyed` of the connection, or goes on with it after its
    `connectionCallback_`. -/
def RunsDestroyed (s : ServerSystem) (c : ConnId) : ServerAct → Prop
  | .callFunctor L _ => (s.loop L).functors.head? = some (.conn c .connectDestroyed)
  | .task L _ _ =>
    (s.todo L).head? = some (.conn c .connectDestroyed)
      ∨ (s.todo L).head? = some (.conn c (.effect .removeChannel))
  | _ => False

variable {s t : ServerSystem} {c : ConnId} {r r' : ConnRecord} {act : ServerAct}

/-- What a step from `s` to `t` has done to the connection when `connectDestroyed` ran. -/
structure Destroyed (c : ConnId) (s t : ServerSystem) (r : ConnRecord) : Prop where
  wiring : t.Wiring
  aborted : t.aborted = s.aborted
  before : .connectDestroyed ∉ r.steps
  complete : ∀ r', t.conns c = some r' → (s.view c r).Complete (t.view c r')

theorem Destroyed.of_follows {u : ServerSystem} {result : Option ConnView}
    (hfollows : Follows c u t result) (haborted : u.aborted = s.aborted)
    (hdestroys : (s.view c r).Destroys result) : Destroyed c s t r := by
  obtain ⟨hbefore, v, rfl, _, hcomplete⟩ := hdestroys
  refine ⟨hfollows.wiring, hfollows.aborted.trans haborted, hbefore, fun r' hr' => ?_⟩
  rw [Option.some.inj ((viewOf_of hr').symm.trans hfollows.view)]
  exact hcomplete

/-- **`connectDestroyed` meets no `assert`.** -/
theorem Inv.runsDestroyed (h : s.Inv) (hruns : s.RunsDestroyed c act)
    (hstep : s.step act = some t) : ∃ r, Destroyed c s t r := by
  cases act with
  | callFunctor L res =>
    obtain ⟨f, l, htodo, hhead, hwf, hwaiting, hactive, rfl⟩ := h.wiring.callFunctor_cases hstep
    obtain rfl : .conn c .connectDestroyed = f := Option.some.inj (hruns.symm.trans hhead)
    obtain ⟨r, hr, htasks, hqueue, hfollows, _⟩ :=
      h.wiring.callConn_follows htodo hwf hwaiting hactive res
    exact ⟨r, .of_follows hfollows rfl ((h.life c r hr).callDestroyed hqueue htasks)⟩
  | task L readRes res =>
    obtain ⟨task, rest, htodo, rfl⟩ := step_does hstep
    simp only [RunsDestroyed, htodo, List.head?_cons, Option.some.injEq] at hruns
    rcases hruns with rfl | rfl
    · obtain ⟨r, hr, htasks, hfollows, _⟩ := h.task_follows htodo readRes res
      exact ⟨r, .of_follows hfollows rfl ((h.life c r hr).runDestroyed htasks)⟩
    · obtain ⟨r, hr, htasks, hfollows, _⟩ := h.task_follows htodo readRes res
      exact ⟨r, .of_follows hfollows rfl ((h.life c r hr).removeChannel htasks)⟩
  | loopStep _ _ | handleEvent _ _ | userCall _ _ _ _ | userCopy _ _ | userDrop _ | userQueue _ _
  | quit _ | destroy _ | destroyServer _ => exact hruns.elim

/-- The user shuts a connection down, leaves `loop()` and destroys the server. -/
def shutdownFirst : List ServerAct :=
  [.loopStep 0 .enter, .loopStep 0 .resetQuit, .loopStep 1 .enter, .loopStep 1 .resetQuit,
    .loopStep 0 .test, .loopStep 0 (.poll [.channel .acceptor]), .handleEvent 0 (some 5),
    .loopStep 0 .beginPending, .loopStep 0 .swap, .loopStep 0 .endPending,
    -- `connectEstablished`; the user shuts the connection down in the callback
    .loopStep 1 .test, .loopStep 1 (.poll [.wakeupChannel]), .handleEvent 1 none,
    .loopStep 1 .beginPending, .loopStep 1 .swap, .callFunctor 1 (.ok 0),
    .task 1 (.ok []) (.ok 0), .userCall (.loop 1) 0 .shutdown (.ok 0), .task 1 (.ok []) (.ok 0),
    .loopStep 1 .endPending,
    .quit 0, .loopStep 0 .test, .destroyServer [0],
    .loopStep 1 .test, .loopStep 1 (.poll [.wakeupChannel]), .handleEvent 1 none,
    .loopStep 1 .beginPending, .loopStep 1 .swap]

/-- The same without `shutdown()`, up to `channel_->remove()`. -/
def connectedUntilDestroyed : List ServerAct :=
  shutdownFirst.filter (· ≠ .userCall (.loop 1) 0 .shutdown (.ok 0))
    ++ [.callFunctor 1 (.ok 0), .task 1 (.ok []) (.ok 0), .task 1 (.ok []) (.ok 0)]

end Ymuduo.ServerSystem
