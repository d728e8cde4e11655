/-
  Ymuduo/RoundRobin.lean
  ======================
  **`EventLoopThreadPool::getNextLoop` shares the connections out evenly.**

  `next_` goes round the loops, one place for each accepted connection, whatever else the
  server does in between.  So the `c`-th connection runs on the loop `c` modulo their
  number and stays there, and of any connections accepted one after the other no two loops
  get numbers that differ by more than one.
-/
import Ymuduo.WorkBound
import Mathlib.Data.Int.CardIntervalMod

namespace Ymuduo

/-! ### Residues in a window -/

/-- **Any two residues are met equally often, up to one**, in any stretch of numbers. -/
theorem count_window_le {n i j : Nat} (hi : i < n) (hj : j < n) (a k : Nat) :
    Nat.count (fun m => (a + m) % n = i) k ≤ Nat.count (fun m => (a + m) % n = j) k + 1 := by
  have hn : 0 < n := Nat.zero_lt_of_lt hi
  have hcount : ∀ v, v < n → Nat.count (fun m => (a + m) % n = v) k
      + (a / n + if v < a % n then 1 else 0) = (a + k) / n + if v < (a + k) % n then 1 else 0 := by
    intro v hv
    have hsame : ∀ b, Nat.count (· % n = v) b = b / n + if v < b % n then 1 else 0 := by
      intro b
      have hcard := Nat.count_modEq_card b hn v
      simp only [Nat.ModEq, Nat.mod_eq_of_lt hv] at hcard
      exact hcard
    rw [← hsame a, ← hsame (a + k), Nat.count_add, Nat.add_comm]
  have hleft := hcount i hi
  have hright := hcount j hj
  -- the stretch begins at the residue `a % n` and ends at `(a + k) % n`
  split_ifs at hleft hright <;> omega

namespace TcpServer

/-- The loop of the `c`-th connection. -/
def turn (loops : List LoopId) (c : ConnId) : LoopId :=
  if loops.isEmpty then mainLoop else loops.getD (c % loops.length) mainLoop

/-- `next_` after `n` connections. -/
def nextAfter (loops : List LoopId) (n : Nat) : Nat := if loops.isEmpty then 0 else n % loops.length

/-- **`getNextLoop` takes turns.** -/
theorem getNextLoop_turn (server : TcpServer) {n : Nat}
    (hnext : server.next = nextAfter server.loops n) :
    server.getNextLoop = (turn server.loops n, nextAfter server.loops (n + 1)) := by
  unfold getNextLoop turn nextAfter
  unfold nextAfter at hnext
  by_cases hempty : server.loops.isEmpty = true
  · rw [if_pos hempty] at hnext
    rw [if_pos hempty, if_pos hempty, if_pos hempty, hnext]
  · rw [if_neg hempty] at hnext
    rw [if_neg hempty, if_neg hempty, if_neg hempty, hnext]
    have hpos : 0 < server.loops.length :=
      List.length_pos_iff.mpr fun hnil => hempty (List.isEmpty_iff.mpr hnil)
    have hlt := Nat.mod_lt n hpos
    have hsucc : (n + 1) % server.loops.length
        = (n % server.loops.length + 1) % server.loops.length := (Nat.mod_add_mod ..).symm
    refine Prod.ext rfl ?_
    dsimp only
    rw [hsucc]
    by_cases hlast : server.loops.length ≤ n % server.loops.length + 1
    · have hend : n % server.loops.length + 1 = server.loops.length := Nat.le_antisymm hlt hlast
      rw [if_pos hlast, hend, Nat.mod_self]
    · rw [if_neg hlast, Nat.mod_eq_of_lt (Nat.lt_of_not_le hlast)]

end TcpServer

namespace ServerSystem

variable {s t : ServerSystem} {loops : List LoopId}

/-- Where `next_` and the connections are. -/
structure Rotation (loops : List LoopId) (s : ServerSystem) : Prop where
  pool : s.server.loops = loops
  next : s.server.next = TcpServer.nextAfter loops s.accepted
  home : ∀ c < s.accepted, s.home c = some (TcpServer.turn loops c)

theorem Rotation.of_same (h : Rotation loops s) (hsame : SameServer s t) : Rotation loops t := by
  refine ⟨hsame.loops.trans h.pool, ?_, ?_⟩
  · rw [hsame.next, hsame.accepted]
    exact h.next
  · rw [hsame.home, hsame.accepted]
    exact h.home

/-- A new connection takes its turn, and the others stay where they are. -/
theorem Rotation.join (h : Rotation loops s) (fd : Fd) :
    Rotation loops (s.insertConnection fd) := by
  have hturn := s.server.getNextLoop_turn (n := s.accepted) (by rw [h.pool]; exact h.next)
  rw [h.pool] at hturn
  refine ⟨h.pool, congrArg Prod.snd hturn, fun c hc => ?_⟩
  rcases Nat.lt_or_eq_of_le (Nat.lt_succ_iff.mp hc) with hold | rfl
  · rw [ServerSystem.home, insertConnection, conns_setConn_ne _ _ (Nat.ne_of_lt hold)]
    exact h.home c hold
  · rw [ServerSystem.home, insertConnection, conns_setConn]
    exact congrArg some (congrArg Prod.fst hturn)

theorem Rotation.step (h : Rotation loops s) {act : ServerAct} (hstep : s.step act = some t) :
    Rotation loops t := by
  rcases step_server hstep with hsame | hsame | ⟨fd, hsame⟩
  · exact h.of_same hsame
  · have hdying : Rotation loops s.dying := ⟨h.pool, h.next, h.home⟩
    exact hdying.of_same hsame
  · exact (h.join fd).of_same hsame

/-- How many of `n` connections, accepted one after the other from `first` on, are on the loop. -/
def load (s : ServerSystem) (first n : Nat) (L : LoopId) : Nat :=
  Nat.count (fun k => s.home (first + k) = some L) n

theorem Rotation.load_eq (h : Rotation loops s) (hnodup : loops.Nodup) {i : Nat}
    (hi : i < loops.length) {first n : Nat} (hn : first + n ≤ s.accepted) :
    s.load first n loops[i] = Nat.count (fun k => (first + k) % loops.length = i) n := by
  have hpos : 0 < loops.length := Nat.zero_lt_of_lt hi
  have hiff : ∀ k < n, (s.home (first + k) = some loops[i] ↔ (first + k) % loops.length = i) := by
    intro k hk
    have hlt := Nat.mod_lt (first + k) hpos
    have hempty : ¬ loops.isEmpty = true := by
      rw [List.isEmpty_iff_length_eq_zero]
      omega
    rw [h.home (first + k) (by omega), TcpServer.turn, if_neg hempty,
      List.getD_eq_getElem?_getD, List.getElem?_eq_getElem hlt, Option.getD_some,
      Option.some.injEq]
    exact hnodup.getElem_inj_iff
  exact Nat.le_antisymm (Nat.count_mono_left fun k hk => (hiff k hk).mp)
    (Nat.count_mono_left fun k hk => (hiff k hk).mpr)

/-- **Round robin.**  In every state of a run the accepted connections are dealt out to the
    loops in turn, and in no stretch of them two loops differ by more than one. -/
theorem round_robin {name : Name} {listenAddr : InetAddress} {writeCompleteCallback : Bool}
    {acts : List ServerAct}
    (hrun : Runs.run step (start (.new name listenAddr writeCompleteCallback loops)) acts
      = some s) :
    (∀ c < s.accepted, s.home c = some (TcpServer.turn loops c))
      ∧ (loops.Nodup → ∀ L ∈ loops, ∀ M ∈ loops, ∀ first n, first + n ≤ s.accepted →
        s.load first n L ≤ s.load first n M + 1) := by
  have hrotation : Rotation loops s := by
    refine Runs.run_induction (I := Rotation loops) (fun u act w hu hstep => hu.step hstep) ?_ hrun
    refine ⟨rfl, ?_, fun c hc => absurd hc (Nat.not_lt_zero c)⟩
    simp [start, TcpServer.new, TcpServer.nextAfter]
  refine ⟨hrotation.home, fun hnodup L hL M hM first n hn => ?_⟩
  obtain ⟨i, hi, rfl⟩ := List.getElem_of_mem hL
  obtain ⟨j, hj, rfl⟩ := List.getElem_of_mem hM
  rw [hrotation.load_eq hnodup hi hn, hrotation.load_eq hnodup hj hn]
  exact count_window_le hi hj first n

/-- Three connections are accepted by a server with two loops. -/
def threeConnections : List ServerAct :=
  [.loopStep 0 .enter, .loopStep 0 .resetQuit, .loopStep 0 .test,
    .loopStep 0 (.poll [.channel .acceptor]), .handleEvent 0 (some 5), .loopStep 0 .beginPending,
    .loopStep 0 .swap, .loopStep 0 .endPending, .loopStep 0 .test,
    .loopStep 0 (.poll [.channel .acceptor]), .handleEvent 0 (some 6), .loopStep 0 .beginPending,
    .loopStep 0 .swap, .loopStep 0 .endPending, .loopStep 0 .test,
    .loopStep 0 (.poll [.channel .acceptor]), .handleEvent 0 (some 7)]

theorem round_robin_threeConnections :
    ∃ s, Runs.run step (start (.new ['s'] ⟨(127, 0, 0, 1), 80⟩ true [1, 2])) threeConnections
        = some s ∧ s.accepted = 3
      ∧ (∀ c < s.accepted, s.home c = some (TcpServer.turn [1, 2] c))
      ∧ ∀ L ∈ [1, 2], ∀ M ∈ [1, 2], ∀ first n, first + n ≤ s.accepted →
        s.load first n L ≤ s.load first n M + 1 := by
  obtain ⟨s, hs, haccepted⟩ : ∃ s,
      Runs.run step (start (.new ['s'] ⟨(127, 0, 0, 1), 80⟩ true [1, 2])) threeConnections = some s
      ∧ s.accepted = 3 := ⟨_, rfl, rfl⟩
  obtain ⟨hhome, hload⟩ := round_robin hs
  exact ⟨s, hs, haccepted, hhome, hload (by decide)⟩

end ServerSystem

end Ymuduo
