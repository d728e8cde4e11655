/-
  Ymuduo/Wiring.lean
  ==================
  **How the parts of a `ServerSystem` hang together**, whatever its connections do:
  the connections and `connections_`, the pollers and the open descriptors, and which
  loop has what of which connection.

  Each part is stated over the components that it is about, so that a step that leaves
  them alone keeps it.
-/
import Ymuduo.Poller
import Ymuduo.ServerSystem

namespace Ymuduo

/-! ### Connections and `connections_` -/

/-- `nextConnId_` after `n` connections. -/
def connIdAfter (n : Nat) : Int := (1 + n : Int).bmod (2 ^ 32)

theorem bmod_succ (m : Nat) (x : Int) : (x.bmod m + 1).bmod m = (x + 1).bmod m :=
  Int.bmod_add_bmod

theorem nextId_connIdAfter (n : Nat) : TcpServer.nextId (connIdAfter n) = connIdAfter (n + 1) := by
  have hsum : (1 + n : Int) + 1 = 1 + (n + 1 : Nat) := by omega
  unfold TcpServer.nextId connIdAfter
  rw [bmod_succ, hsum]

theorem isInt32_connIdAfter (n : Nat) : IsInt32 (connIdAfter n) := by
  constructor
  · exact Int.le_bmod (by decide)
  · exact Int.bmod_lt (by decide)

theorem connIdAfter_injective {m n : Nat} (hm : m < 2 ^ 31) (hn : n < 2 ^ 31)
    (h : connIdAfter m = connIdAfter n) : m = n := by
  have hleft : (connIdAfter m) % (2 ^ 32 : Nat) = (1 + m : Int) % (2 ^ 32 : Nat) := Int.bmod_emod
  have hright : (connIdAfter n) % (2 ^ 32 : Nat) = (1 + n : Int) % (2 ^ 32 : Nat) := Int.bmod_emod
  rw [h, hright] at hleft
  omega

/-- What its own functions never change of a connection; `removed` by the server. -/
structure Place where
  loop : LoopId
  name : Name
  removed : Bool

def ConnRecord.place (r : ConnRecord) : Place where
  loop := r.conn.loop
  name := r.conn.name
  removed := .removeConnectionInLoop ∈ r.steps

/-- The connections accepted so far, and the map of the server. -/
structure Roster (place : ConnId → Option Place) (accepted : Nat) (server : TcpServer) : Prop where
  domain : ∀ c, (place c).isSome = true ↔ c < accepted
  nextConnId : server.nextConnId = connIdAfter accepted
  names : ∀ c p, place c = some p → p.name = server.connName (connIdAfter c)
  loops : ∀ c p, place c = some p → p.loop ∈ mainLoop :: server.loops
  mapped : ∀ name c, server.connections name = some c →
    ∃ p, place c = some p ∧ p.name = name ∧ p.removed = false
  listed : server.alive = true → accepted < 2 ^ 31 →
    ∀ c p, place c = some p → p.removed = false → server.connections p.name = some c

/-- Fewer than 2^31 connections have different names. -/
theorem Roster.name_injective {place : ConnId → Option Place} {accepted : Nat}
    {server : TcpServer} (h : Roster place accepted server) (hfew : accepted < 2 ^ 31)
    {c d : ConnId} {p q : Place} (hc : place c = some p) (hd : place d = some q)
    (hname : p.name = q.name) : c = d := by
  have hlt : ∀ {c p}, place c = some p → c < 2 ^ 31 := by
    intro c p hc
    exact Nat.lt_trans ((h.domain c).mp (by simp [hc])) hfew
  rw [h.names c p hc, h.names d q hd] at hname
  apply connIdAfter_injective (hlt hc) (hlt hd)
  exact server.connName_injective (isInt32_connIdAfter c) (isInt32_connIdAfter d) hname

/-- `connections_` loses the name of a connection that counts as removed from now on. -/
theorem Roster.erase {place : ConnId → Option Place} {accepted : Nat} {server : TcpServer}
    (h : Roster place accepted server) {c : ConnId} {p : Place} (hp : place c = some p) :
    Roster (Function.update place c (some { p with removed := true })) accepted
      { server with connections := Function.update server.connections p.name none } := by
  have hcases : ∀ d q, Function.update place c (some { p with removed := true }) d = some q →
      d = c ∧ q = { p with removed := true } ∨ d ≠ c ∧ place d = some q := by
    intro d q hd
    by_cases hdc : d = c
    · subst hdc
      rw [Function.update_self] at hd
      exact Or.inl ⟨rfl, (Option.some.inj hd).symm⟩
    · rw [Function.update_of_ne hdc] at hd
      exact Or.inr ⟨hdc, hd⟩
  constructor
  · intro d
    rw [← h.domain d]
    by_cases hdc : d = c
    · simp [hdc, hp]
    · simp [hdc]
  · exact h.nextConnId
  · intro d q hd
    rcases hcases d q hd with ⟨rfl, rfl⟩ | ⟨_, hd⟩
    · exact h.names d p hp
    · exact h.names d q hd
  · intro d q hd
    rcases hcases d q hd with ⟨rfl, rfl⟩ | ⟨_, hd⟩
    · exact h.loops d p hp
    · exact h.loops d q hd
  · intro name d hname
    dsimp only at hname
    have hne : name ≠ p.name := by
      rintro rfl
      rw [Function.update_self] at hname
      cases hname
    rw [Function.update_of_ne hne] at hname
    obtain ⟨q, hq, hqname, hremoved⟩ := h.mapped name d hname
    have hdc : d ≠ c := by
      rintro rfl
      rw [hp] at hq
      cases hq
      exact hne hqname.symm
    exact ⟨q, (Function.update_of_ne hdc ..).trans hq, hqname, hremoved⟩
  · intro halive hfew d q hd hremoved
    rcases hcases d q hd with ⟨rfl, rfl⟩ | ⟨hdc, hd⟩
    · cases hremoved
    · have hne : q.name ≠ p.name := fun heq => hdc (h.name_injective hfew hd hp heq)
      dsimp only
      rw [Function.update_of_ne hne]
      exact h.listed halive hfew d q hd hremoved

/-- A new connection joins. -/
theorem Roster.insert {place : ConnId → Option Place} {accepted : Nat} {server : TcpServer}
    (h : Roster place accepted server) (p : Place) (next : Nat)
    (hloop : p.loop ∈ mainLoop :: server.loops)
    (hname : p.name = server.connName server.nextConnId) (hremoved : p.removed = false) :
    Roster (Function.update place accepted (some p)) (accepted + 1)
      { server with
        next := next
        nextConnId := TcpServer.nextId server.nextConnId
        connections := Function.update server.connections p.name (some accepted) } := by
  have hold : ∀ {c q}, place c = some q → c ≠ accepted := by
    rintro c q hc rfl
    exact absurd ((h.domain c).mp (by simp [hc])) (Nat.lt_irrefl c)
  have hcases : ∀ c q, Function.update place accepted (some p) c = some q →
      c = accepted ∧ q = p ∨ c ≠ accepted ∧ place c = some q := by
    intro c q hc
    by_cases hca : c = accepted
    · subst hca
      rw [Function.update_self] at hc
      exact Or.inl ⟨rfl, (Option.some.inj hc).symm⟩
    · rw [Function.update_of_ne hca] at hc
      exact Or.inr ⟨hca, hc⟩
  have hnew : p.name = server.connName (connIdAfter accepted) := by rw [hname, h.nextConnId]
  constructor
  · intro c
    by_cases hca : c = accepted
    · simp [hca]
    · rw [Function.update_of_ne hca, h.domain c]
      exact ⟨Nat.lt_succ_of_lt, fun hlt => Nat.lt_of_le_of_ne (Nat.lt_succ_iff.mp hlt) hca⟩
  · rw [h.nextConnId, nextId_connIdAfter]
  · intro c q hc
    rcases hcases c q hc with ⟨rfl, rfl⟩ | ⟨_, hc⟩
    · exact hnew
    · exact h.names c q hc
  · intro c q hc
    rcases hcases c q hc with ⟨rfl, rfl⟩ | ⟨_, hc⟩
    · exact hloop
    · exact h.loops c q hc
  · intro name c hc
    dsimp only at hc
    by_cases hsame : name = p.name
    · subst hsame
      rw [Function.update_self] at hc
      cases hc
      exact ⟨p, Function.update_self .., rfl, hremoved⟩
    · rw [Function.update_of_ne hsame] at hc
      obtain ⟨q, hq, hqname, hqremoved⟩ := h.mapped name c hc
      exact ⟨q, (Function.update_of_ne (hold hq) ..).trans hq, hqname, hqremoved⟩
  · intro halive hfew c q hc hqremoved
    dsimp only
    rcases hcases c q hc with ⟨rfl, rfl⟩ | ⟨_, hc⟩
    · exact Function.update_self ..
    · have hne : q.name ≠ p.name := by
        intro heq
        rw [h.names c q hc, hnew] at heq
        have hid := server.connName_injective (isInt32_connIdAfter c)
          (isInt32_connIdAfter accepted) heq
        have hlt : c < accepted := (h.domain c).mp (by simp [hc])
        have hfew' : accepted < 2 ^ 31 := Nat.lt_of_succ_lt hfew
        exact hold hc (connIdAfter_injective (Nat.lt_trans hlt hfew') hfew' hid)
      rw [Function.update_of_ne hne]
      exact h.listed halive (Nat.lt_of_succ_lt hfew) c q hc hqremoved

/-- `connections_` is given up with the server. -/
theorem Roster.destroy {place : ConnId → Option Place} {accepted : Nat} {server : TcpServer}
    (h : Roster place accepted server) :
    Roster place accepted { server with alive := false, connections := fun _ => none } where
  domain := h.domain
  nextConnId := h.nextConnId
  names := h.names
  loops := h.loops
  mapped := fun _ _ hname => by cases hname
  listed := fun halive => by cases halive

/-! ### Pollers and descriptors -/

/-- The pollers know the connections that are alive, and nothing else; these have
    different descriptors. -/
structure Pollers (conns : ConnId → Option ConnRecord) (poller : LoopId → EPollPoller ConnId) :
    Prop where
  registered : ∀ c r, conns c = some r → r.alive = true →
    (poller r.conn.loop).Registered c r.conn.channel
  entries : ∀ L fd, (poller L).channels fd ≠ none ∨ (poller L).interest fd ≠ none →
    ∃ c r, conns c = some r ∧ r.alive = true ∧ r.conn.loop = L ∧ r.conn.channel.fd = fd
  fds : ∀ c d r q, conns c = some r → conns d = some q → r.alive = true → q.alive = true →
    r.conn.channel.fd = q.conn.channel.fd → c = d

/-- The same object with the same descriptor. -/
structure ConnRecord.SameFile (r r' : ConnRecord) : Prop where
  loop : r'.conn.loop = r.conn.loop
  fd : r'.conn.channel.fd = r.conn.channel.fd
  alive : r'.alive = r.alive

/-- A connection and, if it is alive, the entries at its descriptor change together. -/
theorem Pollers.set {conns : ConnId → Option ConnRecord} {poller : LoopId → EPollPoller ConnId}
    (h : Pollers conns poller) {c : ConnId} {r r' : ConnRecord} (hr : conns c = some r)
    (hsame : r.SameFile r') {p : EPollPoller ConnId}
    (hreg : r.alive = true → p.Registered c r'.conn.channel)
    (hother : ∀ fd, fd ≠ r.conn.channel.fd ∨ r.alive = false →
      (poller r.conn.loop).SameAt p fd) :
    Pollers (Function.update conns c (some r')) (Function.update poller r.conn.loop p) := by
  have hback : ∀ d q, Function.update conns c (some r') d = some q →
      ∃ q', conns d = some q' ∧ q'.SameFile q := by
    intro d q hd
    by_cases hdc : d = c
    · subst hdc
      rw [Function.update_self] at hd
      cases hd
      exact ⟨r, hr, hsame⟩
    · rw [Function.update_of_ne hdc] at hd
      exact ⟨q, hd, rfl, rfl, rfl⟩
  have hforth : ∀ d q, conns d = some q →
      ∃ q', Function.update conns c (some r') d = some q' ∧ q.SameFile q' := by
    intro d q hd
    by_cases hdc : d = c
    · subst hdc
      rw [hr] at hd
      cases hd
      exact ⟨r', Function.update_self .., hsame⟩
    · exact ⟨q, (Function.update_of_ne hdc ..).trans hd, rfl, rfl, rfl⟩
  constructor
  · intro d q hd hq
    by_cases hdc : d = c
    · subst hdc
      rw [Function.update_self] at hd
      cases hd
      rw [hsame.loop, Function.update_self]
      exact hreg (hsame.alive.symm.trans hq)
    · rw [Function.update_of_ne hdc] at hd
      have hregistered := h.registered d q hd hq
      by_cases hloop : q.conn.loop = r.conn.loop
      · rw [hloop] at hregistered ⊢
        rw [Function.update_self]
        apply hregistered.of_sameAt
        apply hother
        by_cases halive : r.alive = true
        · left
          intro hfd
          exact hdc (h.fds d c q r hd hr hq halive hfd)
        · exact Or.inr (eq_false_of_ne_true halive)
      · rw [Function.update_of_ne hloop]
        exact hregistered
  · intro L fd hentry
    by_cases hown : L = r.conn.loop ∧ fd = r.conn.channel.fd ∧ r.alive = true
    · obtain ⟨rfl, rfl, halive⟩ := hown
      exact ⟨c, r', Function.update_self .., hsame.alive.trans halive, hsame.loop, hsame.fd⟩
    · have hbefore : (poller L).channels fd ≠ none ∨ (poller L).interest fd ≠ none := by
        by_cases hloop : L = r.conn.loop
        · have hsameAt := hother fd (by
            by_contra hnot
            rw [not_or, not_not, Bool.not_eq_false] at hnot
            exact hown ⟨hloop, hnot⟩)
          rw [hloop, Function.update_self, hsameAt.1, hsameAt.2] at hentry
          rw [hloop]
          exact hentry
        · rw [Function.update_of_ne hloop] at hentry
          exact hentry
      obtain ⟨d, q, hd, hq, hloop, hfd⟩ := h.entries L fd hbefore
      obtain ⟨q', hd', hfile⟩ := hforth d q hd
      exact ⟨d, q', hd', hfile.alive.trans hq, hfile.loop.trans hloop, hfile.fd.trans hfd⟩
  · intro d e q w hd he hq hw hfd
    obtain ⟨q', hd', hfile⟩ := hback d q hd
    obtain ⟨w', he', hfile'⟩ := hback e w he
    refine h.fds d e q' w' hd' he' (hfile.alive.symm.trans hq) (hfile'.alive.symm.trans hw) ?_
    rw [← hfile.fd, ← hfile'.fd]
    exact hfd

/-- A new connection has a descriptor that nothing refers to. -/
theorem Pollers.insert {conns : ConnId → Option ConnRecord}
    {poller : LoopId → EPollPoller ConnId} (h : Pollers conns poller) {c : ConnId}
    {r : ConnRecord} (hc : conns c = none) (hindex : r.conn.channel.index = .kNew)
    (hfree : ∀ d q, conns d = some q → q.alive = true →
      q.conn.channel.fd ≠ r.conn.channel.fd) :
    Pollers (Function.update conns c (some r)) poller := by
  have hcases : ∀ d q, Function.update conns c (some r) d = some q →
      d = c ∧ q = r ∨ conns d = some q := by
    intro d q hd
    by_cases hdc : d = c
    · subst hdc
      rw [Function.update_self] at hd
      exact Or.inl ⟨rfl, (Option.some.inj hd).symm⟩
    · rw [Function.update_of_ne hdc] at hd
      exact Or.inr hd
  constructor
  · intro d q hd hq
    rcases hcases d q hd with ⟨rfl, rfl⟩ | hd
    · have hnone : ∀ L, (poller L).channels q.conn.channel.fd = none
          ∧ (poller L).interest q.conn.channel.fd = none := by
        intro L
        by_contra hentry
        rw [Classical.not_and_iff_not_or_not] at hentry
        obtain ⟨e, w, he, hw, _, hfd⟩ := h.entries L _ hentry
        exact hfree e w he hw hfd
      unfold EPollPoller.Registered
      rw [hindex]
      exact hnone _
    · exact h.registered d q hd hq
  · intro L fd hentry
    obtain ⟨d, q, hd, hq, hloop, hfd⟩ := h.entries L fd hentry
    have hdc : d ≠ c := by
      rintro rfl
      rw [hc] at hd
      cases hd
    exact ⟨d, q, (Function.update_of_ne hdc ..).trans hd, hq, hloop, hfd⟩
  · intro d e q w hd he hq hw hfd
    rcases hcases d q hd with ⟨rfl, rfl⟩ | hd'
    · rcases hcases e w he with ⟨rfl, rfl⟩ | he'
      · rfl
      · exact absurd hfd.symm (hfree e w he' hw)
    · rcases hcases e w he with ⟨rfl, rfl⟩ | he'
      · exact absurd hfd (hfree d q hd' hq)
      · exact h.fds d e q w hd' he' hq hw hfd

/-- A connection that its poller does not know any more is destroyed. -/
theorem Pollers.destroy {conns : ConnId → Option ConnRecord}
    {poller : LoopId → EPollPoller ConnId} (h : Pollers conns poller) {c : ConnId}
    {r : ConnRecord} (hr : conns c = some r) (hindex : r.conn.channel.index = .kNew) :
    Pollers (Function.update conns c (some { r with alive := false })) poller := by
  have hback : ∀ d q, Function.update conns c (some { r with alive := false }) d = some q →
      q.alive = true → conns d = some q := by
    intro d q hd hq
    by_cases hdc : d = c
    · subst hdc
      rw [Function.update_self] at hd
      cases hd
      cases hq
    · rw [Function.update_of_ne hdc] at hd
      exact hd
  constructor
  · exact fun d q hd hq => h.registered d q (hback d q hd hq) hq
  · intro L fd hentry
    obtain ⟨d, q, hd, hq, hloop, hfd⟩ := h.entries L fd hentry
    have hdc : d ≠ c := by
      rintro rfl
      rw [hr] at hd
      cases hd
      have hreg := h.registered d r hr hq
      unfold EPollPoller.Registered at hreg
      rw [hindex, hloop, hfd] at hreg
      exact hentry.elim (fun hne => hne hreg.1) fun hne => hne hreg.2
    exact ⟨d, q, (Function.update_of_ne hdc ..).trans hd, hq, hloop, hfd⟩
  · intro d e q w hd he hq hw hfd
    exact h.fds d e q w (hback d q hd hq) (hback e w he hw) hq hw hfd

/-! ### Routing -/

/-- The functor is on the right loop. -/
def Functor.RoutedTo (home : ConnId → Option LoopId) (L : LoopId) : Functor → Prop
  | .conn c _ => home c = some L
  | .removeConnectionInLoop c => L = mainLoop ∧ (home c).isSome = true
  | .user => True

/-- The channel is registered with the right loop. -/
def ActiveChannel.RoutedTo (home : ConnId → Option LoopId) (L : LoopId) :
    ActiveChannel Source → Prop
  | .wakeupChannel => True
  | .channel .acceptor => L = mainLoop
  | .channel (.conn c _) => home c = some L

/-- What a loop holds for a connection is held by the loop of the connection. -/
structure Routing (home : ConnId → Option LoopId) (loop : LoopId → EventLoop Source Functor)
    (todo : LoopId → List Task) (copies : ConnId → Nat) : Prop where
  functors : ∀ L, ∀ f ∈ (loop L).waiting, f.RoutedTo home L
  tasks : ∀ L c t, .conn c t ∈ todo L → home c = some L
  active : ∀ L, ∀ a ∈ (loop L).activeChannels, a.RoutedTo home L
  copies : ∀ c, copies c ≠ 0 → (home c).isSome = true

/-- No `connectionCallback_` waits in it. -/
def Clear (todo : List Task) : Prop := ∀ c, .conn c (.effect .connectionCallback) ∉ todo

namespace ServerSystem

def place (s : ServerSystem) (c : ConnId) : Option Place := (s.conns c).map ConnRecord.place

/-- The loop of a connection. -/
def home (s : ServerSystem) (c : ConnId) : Option LoopId := (s.conns c).map (·.conn.loop)

/-- **What holds between the parts of the system.**  `heads`: a `connectionCallback_`
    that is left to do is the very next task. -/
structure Wiring (s : ServerSystem) : Prop where
  loops : ∀ L, (s.loop L).WF
  roster : Roster s.place s.accepted s.server
  pollers : Pollers s.conns s.poller
  routing : Routing s.home s.loop s.todo s.copies
  heads : ∀ L, Clear (s.todo L).tail

end ServerSystem

end Ymuduo
