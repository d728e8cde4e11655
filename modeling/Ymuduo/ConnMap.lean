/-
  Ymuduo/ConnMap.lean
  ===================
  **`connections_` over any number of `newConnection`s and `removeConnectionInLoop`s.**

  A connection is found under its name, and its name ends in `nextConnId_`, an `int`.  The
  ids come back after 2^32 connections, and `connections_[connName] = conn` does not look
  whether the name is taken: the map is right as long as no connection that is still open
  has the id that is used next (`own_entry_iff`).
-/
import Ymuduo.Wiring

namespace Ymuduo

theorem connIdAfter_eq_iff {m n : Nat} :
    connIdAfter m = connIdAfter n ↔ m % 2 ^ 32 = n % 2 ^ 32 := by
  have hmod : ∀ k : Nat, (connIdAfter k) % (2 ^ 32 : Nat) = (1 + k : Int) % (2 ^ 32 : Nat) :=
    fun _ => Int.bmod_emod
  constructor
  · intro h
    have hleft := hmod m
    rw [h, hmod n] at hleft
    omega
  · intro h
    have hsum : (1 + m : Int) % (2 ^ 32 : Nat) = (1 + n : Int) % (2 ^ 32 : Nat) := by omega
    unfold connIdAfter
    rw [← Int.emod_bmod, hsum, Int.emod_bmod]

/-- The server and its connections: `accepted` of them, with their names and those that
    `removeConnectionInLoop` has been called for. -/
structure ConnMap where
  server : TcpServer
  accepted : Nat
  name : ConnId → Name
  removed : ConnId → Bool

inductive ConnMapAct where
  | newConnection
  | removeConnectionInLoop (c : ConnId)
deriving DecidableEq, Repr

namespace ConnMap

def start (name : Name) (listenAddr : InetAddress) (loops : List LoopId) : ConnMap where
  server := .new name listenAddr true loops
  accepted := 0
  name := fun _ => []
  removed := fun _ => false

/-- The name that `newConnection` gives. -/
def connName (s : ConnMap) : Name := s.server.connName s.server.nextConnId

def step (s : ConnMap) : ConnMapAct → Option ConnMap
  | .newConnection =>
    some
      { server := { s.server with
          next := s.server.getNextLoop.2
          nextConnId := TcpServer.nextId s.server.nextConnId
          connections := Function.update s.server.connections s.connName (some s.accepted) }
        accepted := s.accepted + 1
        name := Function.update s.name s.accepted s.connName
        removed := s.removed }
  | .removeConnectionInLoop c =>
    if c < s.accepted then
      some { s with
        server := { s.server with
          connections := Function.update s.server.connections (s.name c) none }
        removed := Function.update s.removed c true }
    else none

/-- Accepted and not yet removed. -/
def Open (s : ConnMap) (c : ConnId) : Prop := c < s.accepted ∧ s.removed c = false

/-- `connections_` holds exactly the open connections, each under its name. -/
def Exact (s : ConnMap) : Prop :=
  ∀ name c, s.server.connections name = some c ↔ s.Open c ∧ s.name c = name

/-! ### The steps of `ServerSystem` -/

/-- The part of the system that is about `connections_`. -/
def ofSystem (s : ServerSystem) (removed : ConnId → Bool) : ConnMap where
  server := s.server
  accepted := s.accepted
  name c := (s.conns c).elim [] (·.conn.name)
  removed := removed

theorem ofSystem_insertConnection (s : ServerSystem) (fd : Fd) (removed : ConnId → Bool) :
    (ofSystem s removed).step .newConnection
      = some (ofSystem (s.insertConnection fd) removed) := by
  have hname : Function.update (ofSystem s removed).name s.accepted (ofSystem s removed).connName
      = (ofSystem (s.insertConnection fd) removed).name := by
    funext c
    by_cases hc : c = s.accepted
    · subst hc
      simp only [ofSystem, ServerSystem.insertConnection, ServerSystem.setConn,
        Function.update_self]
      rfl
    · simp only [ofSystem, ServerSystem.insertConnection, ServerSystem.setConn,
        Function.update_of_ne hc]
  simp only [step, Option.some.injEq]
  rw [show (ofSystem s removed).accepted = s.accepted from rfl, hname]
  rfl

theorem ofSystem_removeConnectionInLoop {s : ServerSystem} {c : ConnId} {r : ConnRecord}
    (removed : ConnId → Bool) (halive : s.server.alive = true) (hr : s.conns c = some r)
    (hc : c < s.accepted) :
    (ofSystem s removed).step (.removeConnectionInLoop c)
      = some (ofSystem (s.removeConnectionInLoop c) (Function.update removed c true)) := by
  have hname : (ofSystem s removed).name
      = (ofSystem (s.removeConnectionInLoop c) (Function.update removed c true)).name := by
    funext d
    simp only [ofSystem, ServerSystem.removeConnectionInLoop, halive, if_true, hr,
      ServerSystem.queueInLoop, ServerSystem.setLoop, ServerSystem.setConn]
    by_cases hd : d = c
    · subst hd
      rw [Function.update_self, hr]
      rfl
    · rw [Function.update_of_ne hd]
  have hparts : (s.removeConnectionInLoop c).accepted = s.accepted
      ∧ (s.removeConnectionInLoop c).server = { s.server with
          connections := Function.update s.server.connections r.conn.name none } := by
    simp only [ServerSystem.removeConnectionInLoop, halive, if_true, hr]
    exact ⟨rfl, rfl⟩
  have hown : (ofSystem s removed).name c = r.conn.name := by
    simp only [ofSystem, hr]
    rfl
  simp only [step]
  rw [if_pos (show c < (ofSystem s removed).accepted from hc), hown, hname]
  simp only [ofSystem, hparts.1, hparts.2]

/-! ### Which connection a name leads to -/

/-- No open connection but `c` has the id of `c`. -/
def NoTwin (s : ConnMap) : ConnMapAct → Prop
  | .newConnection => ∀ d, s.Open d → d % 2 ^ 32 ≠ s.accepted % 2 ^ 32
  | .removeConnectionInLoop c => c < s.accepted →
      ∀ d, s.Open d → d ≠ c → d % 2 ^ 32 ≠ c % 2 ^ 32

/-- `newConnection` replaces no entry, `removeConnectionInLoop(conn)` erases no entry but
    that of `conn`, and afterwards the map is exact. -/
def OwnEntry (s : ConnMap) (a : ConnMapAct) : Prop :=
  (match a with
    | .newConnection => s.server.connections s.connName = none
    | .removeConnectionInLoop c => c < s.accepted →
        ∀ d, s.server.connections (s.name c) = some d → d = c)
  ∧ ∀ t, s.step a = some t → t.Exact

structure Inv (s : ConnMap) : Prop where
  nextConnId : s.server.nextConnId = connIdAfter s.accepted
  names : ∀ c, c < s.accepted → s.name c = s.server.connName (connIdAfter c)
  unremoved : ∀ c, s.accepted ≤ c → s.removed c = false
  exact : s.Exact

theorem Inv.start (name : Name) (listenAddr : InetAddress) (loops : List LoopId) :
    (start name listenAddr loops).Inv where
  nextConnId := show (1 : Int) = connIdAfter 0 by decide
  names c hc := absurd hc (Nat.not_lt_zero c)
  unremoved _ _ := rfl
  exact name c := ⟨nofun, fun h => absurd h.1.1 (Nat.not_lt_zero c)⟩

variable {s t : ConnMap} {c d : ConnId}

/-- Names are equal where the ids have come back. -/
theorem connName_eq_iff (server : TcpServer) (m n : Nat) :
    server.connName (connIdAfter m) = server.connName (connIdAfter n)
      ↔ m % 2 ^ 32 = n % 2 ^ 32 := by
  constructor
  · intro h
    exact connIdAfter_eq_iff.mp
      (server.connName_injective (isInt32_connIdAfter m) (isInt32_connIdAfter n) h)
  · intro h
    rw [connIdAfter_eq_iff.mpr h]

theorem Inv.connName_free_iff (h : s.Inv) :
    s.server.connections s.connName = none ↔ s.NoTwin .newConnection := by
  have hname : ∀ d, s.Open d → (s.name d = s.connName ↔ d % 2 ^ 32 = s.accepted % 2 ^ 32) := by
    intro d hd
    rw [h.names d hd.1, connName, h.nextConnId, connName_eq_iff]
  constructor
  · intro hnone d hd hsame
    have hmapped := (h.exact s.connName d).mpr ⟨hd, (hname d hd).mpr hsame⟩
    rw [hnone] at hmapped
    cases hmapped
  · intro hfree
    cases hmapped : s.server.connections s.connName with
    | none => rfl
    | some d =>
      obtain ⟨hd, hsame⟩ := (h.exact s.connName d).mp hmapped
      exact absurd ((hname d hd).mp hsame) (hfree d hd)

theorem Inv.erases_own_iff (h : s.Inv) (hc : c < s.accepted) :
    (∀ d, s.server.connections (s.name c) = some d → d = c)
      ↔ ∀ d, s.Open d → d ≠ c → d % 2 ^ 32 ≠ c % 2 ^ 32 := by
  have hname : ∀ d, s.Open d → (s.name d = s.name c ↔ d % 2 ^ 32 = c % 2 ^ 32) := by
    intro d hd
    rw [h.names d hd.1, h.names c hc, connName_eq_iff]
  constructor
  · intro hown d hd hne hsame
    exact hne (hown d ((h.exact (s.name c) d).mpr ⟨hd, (hname d hd).mpr hsame⟩))
  · intro hfree d hmapped
    obtain ⟨hd, hsame⟩ := (h.exact (s.name c) d).mp hmapped
    by_contra hne
    exact hfree d hd hne ((hname d hd).mp hsame)

theorem Inv.exact_newConnection (h : s.Inv) (hnone : s.server.connections s.connName = none)
    (hstep : s.step .newConnection = some t) : t.Exact := by
  cases hstep
  intro name c
  simp only [Open]
  by_cases hname : name = s.connName
  · subst hname
    rw [Function.update_self, Option.some.injEq]
    constructor
    · rintro rfl
      exact ⟨⟨Nat.lt_succ_self _, h.unremoved _ (Nat.le_refl _)⟩, Function.update_self ..⟩
    · rintro ⟨⟨hc, hremoved⟩, hsame⟩
      by_contra hne
      rw [Function.update_of_ne (Ne.symm hne)] at hsame
      have hold : c < s.accepted := Nat.lt_of_le_of_ne (Nat.le_of_lt_succ hc) (Ne.symm hne)
      have hmapped := (h.exact s.connName c).mpr ⟨⟨hold, hremoved⟩, hsame⟩
      rw [hnone] at hmapped
      cases hmapped
  · rw [Function.update_of_ne hname, h.exact]
    by_cases hc : c = s.accepted
    · subst hc
      rw [Function.update_self]
      constructor
      · intro hopen
        exact absurd hopen.1.1 (Nat.lt_irrefl _)
      · intro hsame
        exact absurd hsame.2.symm hname
    · rw [Function.update_of_ne hc, Open, Nat.lt_succ_iff_lt_or_eq, or_iff_left hc]

theorem lt_of_step (hstep : s.step (.removeConnectionInLoop c) = some t) : c < s.accepted := by
  by_contra hnot
  simp [ConnMap.step, hnot] at hstep

theorem Inv.exact_removeConnectionInLoop (h : s.Inv)
    (hown : ∀ d, s.server.connections (s.name c) = some d → d = c)
    (hstep : s.step (.removeConnectionInLoop c) = some t) : t.Exact := by
  simp only [ConnMap.step, Option.ite_none_right_eq_some, Option.some.injEq] at hstep
  obtain ⟨_, rfl⟩ := hstep
  intro name d
  simp only [Open]
  by_cases hname : name = s.name c
  · subst hname
    rw [Function.update_self]
    constructor
    · intro hmapped
      cases hmapped
    · rintro ⟨⟨hd, hremoved⟩, hsame⟩
      have hne : d ≠ c := by
        rintro rfl
        rw [Function.update_self] at hremoved
        cases hremoved
      rw [Function.update_of_ne hne] at hremoved
      exact absurd (hown d ((h.exact (s.name c) d).mpr ⟨⟨hd, hremoved⟩, hsame⟩)) hne
  · rw [Function.update_of_ne hname, h.exact]
    by_cases hd : d = c
    · subst hd
      constructor
      · intro hopen
        exact absurd hopen.2.symm hname
      · intro hsame
        exact absurd hsame.2.symm hname
    · rw [Function.update_of_ne hd, Open]

/-- **A step that meets no twin keeps the map exact.** -/
theorem Inv.step (h : s.Inv) {a : ConnMapAct} (hfree : s.NoTwin a) (hstep : s.step a = some t) :
    t.Inv := by
  cases a with
  | newConnection =>
    have hexact := h.exact_newConnection (h.connName_free_iff.mpr hfree) hstep
    cases hstep
    constructor
    · simp only [h.nextConnId, nextId_connIdAfter]
    · intro c hc
      dsimp only at hc ⊢
      by_cases hnew : c = s.accepted
      · subst hnew
        rw [Function.update_self, connName, h.nextConnId]
        rfl
      · rw [Function.update_of_ne hnew]
        exact h.names c (by omega)
    · intro c hc
      exact h.unremoved c (Nat.le_of_succ_le hc)
    · exact hexact
  | removeConnectionInLoop c =>
    have hc := lt_of_step hstep
    have hexact := h.exact_removeConnectionInLoop ((h.erases_own_iff hc).mpr (hfree hc)) hstep
    simp only [ConnMap.step, if_pos hc, Option.some.injEq] at hstep
    subst hstep
    constructor
    · exact h.nextConnId
    · exact h.names
    · intro d hd
      have hne : d ≠ c := Nat.ne_of_gt (Nat.lt_of_lt_of_le hc hd)
      exact (Function.update_of_ne hne _ _).trans (h.unremoved d hd)
    · exact hexact

theorem Inv.ownEntry_iff (h : s.Inv) (a : ConnMapAct) : s.OwnEntry a ↔ s.NoTwin a := by
  cases a with
  | newConnection =>
    constructor
    · intro hown
      exact h.connName_free_iff.mp hown.1
    · intro hfree
      have hnone := h.connName_free_iff.mpr hfree
      exact ⟨hnone, fun t hstep => h.exact_newConnection hnone hstep⟩
  | removeConnectionInLoop c =>
    constructor
    · intro hown hc
      exact (h.erases_own_iff hc).mp (hown.1 hc)
    · intro hfree
      refine ⟨fun hc => (h.erases_own_iff hc).mpr (hfree hc), fun t hstep => ?_⟩
      exact h.exact_removeConnectionInLoop ((h.erases_own_iff (lt_of_step hstep)).mpr
        (hfree (lt_of_step hstep))) hstep

/-- **Every connection keeps its own entry**, in a run of any length, iff no connection
    that is open has the id of the one that is accepted or removed. -/
theorem own_entry_iff (name : Name) (listenAddr : InetAddress) (loops : List LoopId)
    (acts : List ConnMapAct) :
    Runs.Along ConnMap.step OwnEntry (start name listenAddr loops) acts
      ↔ Runs.Along ConnMap.step NoTwin (start name listenAddr loops) acts :=
  Runs.along_congr (I := Inv) (fun _ _ _ hs hfree hstep => hs.step hfree hstep)
    (fun _ a hs => hs.ownEntry_iff a) (.start name listenAddr loops)

/-- Fewer than 2^32 accepted connections have no twins. -/
theorem noTwin_of_few (h : s.accepted < 2 ^ 32) : s.NoTwin .newConnection := by
  intro d hd
  rw [Nat.mod_eq_of_lt h, Nat.mod_eq_of_lt (Nat.lt_trans hd.1 h)]
  exact Nat.ne_of_lt hd.1

theorem run_accepts (n : Nat) (hfew : s.accepted + n ≤ 2 ^ 32) :
    Runs.Along ConnMap.step NoTwin s (List.replicate n .newConnection)
      ∧ ∃ t, Runs.run ConnMap.step s (List.replicate n .newConnection) = some t
        ∧ t.accepted = s.accepted + n ∧ t.removed = s.removed := by
  induction n generalizing s with
  | zero => exact ⟨trivial, s, rfl, rfl, rfl⟩
  | succ n ih =>
    have hlt : s.accepted < 2 ^ 32 := by omega
    obtain ⟨u, hu⟩ : ∃ u, s.step .newConnection = some u := ⟨_, rfl⟩
    have haccepted : u.accepted = s.accepted + 1 := by
      cases hu
      rfl
    have hremoved : u.removed = s.removed := by
      cases hu
      rfl
    obtain ⟨halong, t, hrun, htaccepted, htremoved⟩ := ih (s := u) (by omega)
    rw [List.replicate_succ]
    refine ⟨⟨noTwin_of_few hlt, ?_⟩, t, ?_, by omega, htremoved.trans hremoved⟩
    · intro v hv
      rw [hu] at hv
      cases hv
      exact halong
    · rw [Runs.run_cons, hu]
      exact hrun

/-- The first connection stays open while 2^32 more are accepted: the last one takes its
    entry. -/
theorem lastAccept_replaces :
    ∃ s t, Runs.run ConnMap.step (start ['s'] ⟨(127, 0, 0, 1), 80⟩ [])
        (List.replicate (2 ^ 32) .newConnection) = some s
      ∧ s.server.connections s.connName = some 0 ∧ s.Open 0
      ∧ s.step .newConnection = some t
      ∧ t.Open 0 ∧ t.server.connections (t.name 0) = some (2 ^ 32) := by
  obtain ⟨halong, s, hrun, haccepted, hremoved⟩ :=
    run_accepts (s := start ['s'] ⟨(127, 0, 0, 1), 80⟩ []) (2 ^ 32) (Nat.le_of_eq (Nat.zero_add _))
  have hinv : s.Inv := Runs.run_induction_along
    (fun _ _ _ hs hfree hstep => hs.step hfree hstep) (.start _ _ _) halong hrun
  replace haccepted : s.accepted = 2 ^ 32 := haccepted.trans (Nat.zero_add _)
  have hfirst : 0 < s.accepted := by omega
  have hopen : s.Open 0 := ⟨hfirst, congrFun hremoved 0⟩
  have hname : s.name 0 = s.connName := by
    rw [hinv.names 0 hfirst, connName, hinv.nextConnId, connName_eq_iff, haccepted,
      Nat.mod_self, Nat.zero_mod]
  refine ⟨s, _, hrun, (hinv.exact _ 0).mpr ⟨hopen, hname⟩, hopen, rfl,
    ⟨Nat.lt_succ_of_lt hfirst, hopen.2⟩, ?_⟩
  have hne : (0 : ConnId) ≠ s.accepted := Nat.ne_of_lt hfirst
  dsimp only
  rw [Function.update_of_ne hne, hname, Function.update_self, haccepted]

end ConnMap

end Ymuduo
