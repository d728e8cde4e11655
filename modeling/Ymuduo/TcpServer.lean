/-
  Ymuduo/TcpServer.lean
  =====================
  **The data of `TcpServer` (TcpServer.h, TcpServer.cc) and of its thread pool.**

  `connections_` is keyed by the name of a connection, which `newConnection` builds
  with `snprintf` into 64 bytes from `ipPort_` and the `int` `nextConnId_`.  The text
  always fits, so names are as different as the ids (`connName_injective`).
-/
import Ymuduo.TcpConnection
import Mathlib.Algebra.Ring.Int.Defs
import Mathlib.Algebra.Ring.Nat

namespace Ymuduo

/-! ### Names -/

/-- `sockaddr_in`: the four bytes of the address, and the port. -/
structure InetAddress where
  ip : Fin 256 × Fin 256 × Fin 256 × Fin 256
  port : Fin 65536
deriving DecidableEq, Repr

/-- `toIpPort`: `inet_ntop`, then `":%u"`. -/
def InetAddress.toIpPort (addr : InetAddress) : Name :=
  Nat.toDigits 10 addr.ip.1 ++ '.' :: Nat.toDigits 10 addr.ip.2.1 ++ '.' ::
    Nat.toDigits 10 addr.ip.2.2.1 ++ '.' :: Nat.toDigits 10 addr.ip.2.2.2 ++ ':' ::
    Nat.toDigits 10 addr.port

theorem length_toDigits_byte (n : Fin 256) : (Nat.toDigits 10 n).length ≤ 3 :=
  (Nat.length_toDigits_le_iff (by decide) (by decide)).mpr (Nat.lt_trans n.isLt (by decide))

theorem InetAddress.length_toIpPort (addr : InetAddress) : addr.toIpPort.length ≤ 21 := by
  have hport : (Nat.toDigits 10 addr.port).length ≤ 5 :=
    (Nat.length_toDigits_le_iff (by decide) (by decide)).mpr
      (Nat.lt_trans addr.port.isLt (by decide))
  have h₁ := length_toDigits_byte addr.ip.1
  have h₂ := length_toDigits_byte addr.ip.2.1
  have h₃ := length_toDigits_byte addr.ip.2.2.1
  have h₄ := length_toDigits_byte addr.ip.2.2.2
  simp only [toIpPort, List.append_assoc, List.cons_append, List.length_append, List.length_cons]
  omega

/-- `%d` -/
def formatInt (n : Int) : Name :=
  if n < 0 then '-' :: Nat.toDigits 10 n.natAbs else Nat.toDigits 10 n.natAbs

theorem toDigits_injective {m n : Nat} (h : Nat.toDigits 10 m = Nat.toDigits 10 n) : m = n := by
  rw [← Nat.ofDigitChars_ten_toDigits (n := m), h, Nat.ofDigitChars_ten_toDigits]

theorem toDigits_ne_minus {m n : Nat} : Nat.toDigits 10 m ≠ '-' :: Nat.toDigits 10 n := by
  intro h
  have hdigit : ('-').isDigit = true :=
    Nat.isDigit_of_mem_toDigits (by decide) (by decide) (h ▸ List.mem_cons_self)
  exact absurd hdigit (by decide)

theorem formatInt_injective {m n : Int} (h : formatInt m = formatInt n) : m = n := by
  unfold formatInt at h
  by_cases hm : m < 0
  · by_cases hn : n < 0
    · rw [if_pos hm, if_pos hn] at h
      have habs := toDigits_injective (List.cons.inj h).2
      omega
    · rw [if_pos hm, if_neg hn] at h
      exact absurd h.symm toDigits_ne_minus
  · by_cases hn : n < 0
    · rw [if_neg hm, if_pos hn] at h
      exact absurd h toDigits_ne_minus
    · rw [if_neg hm, if_neg hn] at h
      have habs := toDigits_injective h
      omega

/-- An `int`. -/
def IsInt32 (n : Int) : Prop := -2 ^ 31 ≤ n ∧ n < 2 ^ 31

theorem length_formatInt {n : Int} (h : IsInt32 n) : (formatInt n).length ≤ 11 := by
  have hdigits : (Nat.toDigits 10 n.natAbs).length ≤ 10 := by
    refine (Nat.length_toDigits_le_iff (by decide) (by decide)).mpr ?_
    obtain ⟨hlow, hhigh⟩ := h
    omega
  unfold formatInt
  split
  · exact Nat.succ_le_succ hdigits
  · exact Nat.le_trans hdigits (by decide)

/-- `snprintf(buf, size, ...)` cuts off what does not fit. -/
def snprintf (size : Nat) (text : Name) : Name := text.take (size - 1)

/-! ### The server -/

/-- The identity of a connection object: how many were accepted before it. -/
abbrev ConnId := Nat

/-- The loop of the server, `loop_` and `baseLoop_`. -/
def mainLoop : LoopId := 0

/-- `loops` and `next` belong to the thread pool.  `alive`: not yet destroyed. -/
structure TcpServer where
  alive : Bool
  name : Name
  listenAddr : InetAddress
  writeCompleteCallback : Bool
  loops : List LoopId
  next : Nat
  nextConnId : Int
  connections : Name → Option ConnId

namespace TcpServer

def new (name : Name) (listenAddr : InetAddress) (writeCompleteCallback : Bool)
    (loops : List LoopId) : TcpServer where
  alive := true
  name := name
  listenAddr := listenAddr
  writeCompleteCallback := writeCompleteCallback
  loops := loops
  next := 0
  nextConnId := 1
  connections := fun _ => none

/-- `getNextLoop`: the loop and the new `next_`. -/
def getNextLoop (server : TcpServer) : LoopId × Nat :=
  if server.loops.isEmpty then (mainLoop, server.next)
  else (server.loops.getD server.next mainLoop,
    if server.loops.length ≤ server.next + 1 then 0 else server.next + 1)

/-- `++nextConnId_`, with wrap-around. -/
def nextId (id : Int) : Int := (id + 1).bmod (2 ^ 32)

/-- `name_ + buf` after `snprintf(buf, sizeof buf, "-%s#%d", ipPort_.c_str(), id)` -/
def connName (server : TcpServer) (id : Int) : Name :=
  server.name ++ snprintf 64 ('-' :: server.listenAddr.toIpPort ++ '#' :: formatInt id)

/-- **The text fits into `buf`**, so different ids give different names. -/
theorem connName_injective (server : TcpServer) {m n : Int} (hm : IsInt32 m) (hn : IsInt32 n)
    (h : server.connName m = server.connName n) : m = n := by
  have hfits : ∀ id, IsInt32 id →
      snprintf 64 ('-' :: server.listenAddr.toIpPort ++ '#' :: formatInt id)
        = '-' :: server.listenAddr.toIpPort ++ '#' :: formatInt id := by
    intro id hid
    apply List.take_of_length_le
    have haddr := server.listenAddr.length_toIpPort
    have hlength := length_formatInt hid
    simp only [List.cons_append, List.length_cons, List.length_append]
    omega
  have htexts := List.append_cancel_left h
  rw [hfits m hm, hfits n hn] at htexts
  exact formatInt_injective (List.cons.inj (List.append_cancel_left htexts)).2

end TcpServer

end Ymuduo
