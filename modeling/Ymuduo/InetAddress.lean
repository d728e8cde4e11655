/-
  Ymuduo/InetAddress.lean
  =======================
  **The text of an address (InetAddress.h, InetAddress.cc).**

  `toIp` and `toIpPort` print with `inet_ntop`; the constructor from a string reads with
  `inet_aton`, which takes more than that: one to four numbers, decimal, octal or hexadecimal,
  the last of which fills the bytes that are left.  A text that it refuses leaves 0.0.0.0, and
  a line on stderr.

  What is printed is read back as the same address, so the text of an address is its own;
  connections have different names therefore even across servers (`connName_faithful`).
-/
import Ymuduo.TcpServer
import Mathlib.Data.List.Basic

namespace Ymuduo

/-! ### inet_aton -/

/-- The value of a digit in any base up to 16. -/
def digitValue (c : Char) : Option Nat :=
  if c.isDigit then some (c.toNat - '0'.toNat)
  else if 'a' ≤ c ∧ c ≤ 'f' then some (c.toNat - 'a'.toNat + 10)
  else if 'A' ≤ c ∧ c ≤ 'F' then some (c.toNat - 'A'.toNat + 10)
  else none

def isDigitIn (base : Nat) (c : Char) : Bool := (digitValue c).any fun d => d < base

/-- The number that the text begins with, and the rest. -/
def digits (base : Nat) (text : Name) : Nat × Name :=
  ((text.takeWhile (isDigitIn base)).foldl
      (fun sofar c => base * sofar + (digitValue c).getD 0) 0,
    text.dropWhile (isDigitIn base))

/-- `strtoul(cp, &endp, 0)` at a digit. -/
def strtoul (text : Name) : Nat × Name :=
  match text with
  | '0' :: x :: d :: rest =>
    if (x = 'x' ∨ x = 'X') ∧ isDigitIn 16 d = true then digits 16 (d :: rest)
    else digits 8 text
  | '0' :: _ => digits 8 text
  | _ => digits 10 text

/-- `isspace` -/
def isSpace (c : Char) : Bool := c = ' ' ∨ ('\t' ≤ c ∧ c ≤ '\r')

/-- The loop of `inet_aton`: `parts` are the numbers before the dots so far, `dots` how many
    more dots there may be.  The numbers before the dots, and the last one. -/
def numbers : (dots : Nat) → (parts : List Nat) → Name → Option (List Nat × Nat)
  | dots, parts, text =>
    if text.head?.any Char.isDigit then
      let (val, rest) := strtoul text
      if 2 ^ 32 ≤ val then none
      else
        match rest, dots with
        | [], _ => some (parts, val)
        | '.' :: rest, dots + 1 => if val < 256 then numbers dots (parts ++ [val]) rest else none
        | c :: _, _ => if isSpace c then some (parts, val) else none
    else none

def lowByte (n : Nat) : Fin 256 := ⟨n % 256, Nat.mod_lt n (Nat.zero_lt_succ 255)⟩

/-- The four bytes of a number, in network order. -/
def toBytes (n : Nat) : Fin 256 × Fin 256 × Fin 256 × Fin 256 :=
  (lowByte (n / 2 ^ 24), lowByte (n / 2 ^ 16), lowByte (n / 2 ^ 8), lowByte n)

/-- The last number fills the bytes that `parts` leave. -/
def inetAton (text : Name) : Option (Fin 256 × Fin 256 × Fin 256 × Fin 256) :=
  (numbers 3 [] text).bind fun (parts, val) =>
    if val < 256 ^ (4 - parts.length) then
      some (toBytes (parts.foldl (fun sofar part => 256 * sofar + part) 0
        * 256 ^ (4 - parts.length) + val))
    else none

namespace InetAddress

/-- `InetAddress(uint16_t port, bool loopbackOnly)` -/
def ofPort (port : Fin 65536) (loopbackOnly : Bool) : InetAddress where
  ip := toBytes (if loopbackOnly then 0x7f000001 else 0)
  port := port

/-- `InetAddress(uint16_t port, std::string ip)`: `bzero`, then `inet_aton` of `ip.c_str()`. -/
def ofIp (port : Fin 65536) (ip : Name) : InetAddress where
  ip := (inetAton (ip.takeWhile (· ≠ '\x00'))).getD (toBytes 0)
  port := port

/-- `toIp`: `inet_ntop` -/
def toIp (addr : InetAddress) : Name :=
  Nat.toDigits 10 addr.ip.1 ++ '.' :: Nat.toDigits 10 addr.ip.2.1 ++ '.' ::
    Nat.toDigits 10 addr.ip.2.2.1 ++ '.' :: Nat.toDigits 10 addr.ip.2.2.2

/-- `toPort` -/
def toPort (addr : InetAddress) : Fin 65536 := addr.port

theorem toIpPort_eq (addr : InetAddress) :
    addr.toIpPort = addr.toIp ++ ':' :: Nat.toDigits 10 addr.toPort := by
  simp [toIpPort, toIp, toPort]

end InetAddress

/-! ### What is printed is read back -/

theorem digitValue_of_isDigit {c : Char} (h : c.isDigit = true) :
    digitValue c = some (c.toNat - '0'.toNat) ∧ c.toNat - '0'.toNat < 10 := by
  refine ⟨if_pos h, ?_⟩
  simp only [Char.isDigit, Bool.and_eq_true, decide_eq_true_eq] at h
  have hle : c.toNat ≤ 57 := UInt32.le_iff_toNat_le.mp h.2
  have hzero : '0'.toNat = 48 := rfl
  omega

theorem isDigitIn_ten {c : Char} (h : c.isDigit = true) : isDigitIn 10 c = true := by
  obtain ⟨hvalue, hlt⟩ := digitValue_of_isDigit h
  rw [isDigitIn, hvalue]
  exact decide_eq_true hlt

theorem foldl_digitValue {base : Nat} {text : Name} (h : ∀ c ∈ text, c.isDigit = true) :
    ∀ init, text.foldl (fun sofar c => base * sofar + (digitValue c).getD 0) init
      = Nat.ofDigitChars base text init := by
  induction text with
  | nil =>
    intro init
    rfl
  | cons c text ih =>
    intro init
    rw [List.foldl_cons, ih (fun d hd => h d (List.mem_cons_of_mem c hd)),
      (digitValue_of_isDigit (h c List.mem_cons_self)).1, Option.getD_some, Nat.ofDigitChars_cons]

/-- The number ends where no digit follows. -/
theorem digits_append (base : Nat) {text rest : Name} (htext : ∀ c ∈ text, isDigitIn base c = true)
    (hrest : ∀ c ∈ rest.head?, isDigitIn base c = false) :
    (text ++ rest).takeWhile (isDigitIn base) = text
      ∧ (text ++ rest).dropWhile (isDigitIn base) = rest := by
  have htake : rest.takeWhile (isDigitIn base) = [] ∧ rest.dropWhile (isDigitIn base) = rest := by
    cases rest with
    | nil => exact ⟨rfl, rfl⟩
    | cons c rest =>
      have hc := hrest c rfl
      exact ⟨List.takeWhile_cons_of_neg (by simp [hc]), List.dropWhile_cons_of_neg (by simp [hc])⟩
  rw [List.takeWhile_append_of_pos htext, List.dropWhile_append_of_pos htext, htake.1, htake.2]
  exact ⟨List.append_nil text, rfl⟩

/-- What follows a number in the text of an address. -/
def Ends (rest : Name) : Prop := rest = [] ∨ ∃ rest', rest = '.' :: rest'

theorem Ends.head {base : Nat} {rest : Name} (h : Ends rest) :
    ∀ c ∈ rest.head?, isDigitIn base c = false := by
  intro c hc
  rcases h with rfl | ⟨rest', rfl⟩
  · cases hc
  · rw [List.head?_cons, Option.mem_some_iff] at hc
    subst hc
    rfl

theorem isDigit_toDigits {n : Nat} {c : Char} (h : c ∈ Nat.toDigits 10 n) : c.isDigit = true :=
  Nat.isDigit_of_mem_toDigits (by decide) (by decide) h

/-- No number but 0 is printed with a zero in front, which would be read as octal. -/
theorem head_toDigits {n : Nat} (hn : n ≠ 0) : (Nat.toDigits 10 n).head? ≠ some '0' := by
  induction n using Nat.strong_induction_on with
  | h n ih =>
    by_cases hlt : n < 10
    · rw [Nat.toDigits_of_lt_base hlt, List.head?_singleton]
      exact fun h => hn (Nat.digitChar_eq_zero.mp (Option.some.inj h))
    · have hdiv := ih (n / 10) (by omega) (by omega)
      rw [Nat.toDigits_of_base_le (by decide) (by omega), List.head?_append]
      cases htext : Nat.toDigits 10 (n / 10) with
      | nil => exact absurd htext Nat.toDigits_ne_nil
      | cons c text =>
        rw [htext] at hdiv
        exact hdiv

theorem strtoul_byte (n : Fin 256) {rest : Name} (hrest : Ends rest) :
    strtoul (Nat.toDigits 10 n ++ rest) = (n.val, rest) := by
  by_cases hn : n = 0
  · subst hn
    have hdigits : digits 8 ('0' :: rest) = (0, rest) := by
      have hzero : ∀ c ∈ ['0'], isDigitIn 8 c = true := List.forall_mem_singleton.mpr rfl
      obtain ⟨htake, hdrop⟩ := digits_append 8 hzero hrest.head
      rw [digits, ← List.singleton_append, htake, hdrop]
      rfl
    change strtoul ('0' :: rest) = (0, rest)
    rw [← hdigits]
    rcases hrest with rfl | ⟨_ | ⟨d, rest'⟩, rfl⟩
    · rfl
    · rfl
    · rw [strtoul, if_neg fun hboth => absurd hboth.1 (by decide)]
  · have hhead := head_toDigits (n := n) (fun hzero => hn (Fin.ext hzero))
    have hdigits : digits 10 (Nat.toDigits 10 n ++ rest) = (n.val, rest) := by
      obtain ⟨htake, hdrop⟩ := digits_append 10
        (fun c hc => isDigitIn_ten (isDigit_toDigits (n := n) hc)) hrest.head
      rw [digits, htake, hdrop, foldl_digitValue (fun c hc => isDigit_toDigits hc),
        Nat.ofDigitChars_ten_toDigits]
    rw [← hdigits]
    cases htext : Nat.toDigits 10 n with
    | nil => exact absurd htext Nat.toDigits_ne_nil
    | cons c text =>
      rw [htext, List.head?_cons] at hhead
      unfold strtoul
      split
      · rename_i heq
        exact absurd (congrArg some (List.cons.inj heq).1) hhead
      · rename_i heq
        exact absurd (congrArg some (List.cons.inj heq).1) hhead
      · rfl

theorem head_isDigit (n : Nat) (rest : Name) :
    (Nat.toDigits 10 n ++ rest).head?.any Char.isDigit = true := by
  cases htext : Nat.toDigits 10 n with
  | nil => exact absurd htext Nat.toDigits_ne_nil
  | cons c text =>
    have hc : c ∈ Nat.toDigits 10 n := htext ▸ List.mem_cons_self
    exact isDigit_toDigits hc

/-- A byte and a dot. -/
theorem numbers_dot (dots : Nat) (parts : List Nat) (n : Fin 256) (rest : Name) :
    numbers (dots + 1) parts (Nat.toDigits 10 n ++ '.' :: rest)
      = numbers dots (parts ++ [n.val]) rest := by
  have hends : Ends ('.' :: rest) := Or.inr ⟨rest, rfl⟩
  have hstrtoul := strtoul_byte n hends
  have hbyte := n.isLt
  rw [numbers, if_pos (head_isDigit n _)]
  simp only [hstrtoul]
  rw [if_neg (by omega), if_pos hbyte]

/-- The last byte. -/
theorem numbers_last (dots : Nat) (parts : List Nat) (n : Fin 256) :
    numbers dots parts (Nat.toDigits 10 n) = some (parts, n.val) := by
  have hstrtoul := strtoul_byte n (Or.inl rfl)
  have hhead := head_isDigit n []
  rw [List.append_nil] at hstrtoul hhead
  have hbyte := n.isLt
  rw [numbers, if_pos hhead]
  simp only [hstrtoul]
  rw [if_neg (by omega)]

theorem toBytes_eq (a b c d : Fin 256) :
    toBytes ((256 * (256 * (256 * 0 + a.val) + b.val) + c.val) * 256 ^ 1 + d.val)
      = (a, b, c, d) := by
  have ha := a.isLt
  have hb := b.isLt
  have hc := c.isLt
  have hd := d.isLt
  simp only [toBytes, lowByte, Prod.mk.injEq, Fin.ext_iff]
  omega

namespace InetAddress

theorem toIp_eq (addr : InetAddress) :
    addr.toIp = Nat.toDigits 10 addr.ip.1 ++ '.' :: (Nat.toDigits 10 addr.ip.2.1 ++ '.' ::
      (Nat.toDigits 10 addr.ip.2.2.1 ++ '.' :: Nat.toDigits 10 addr.ip.2.2.2)) := by
  simp only [toIp, List.append_assoc, List.cons_append]

theorem inetAton_toIp (addr : InetAddress) : inetAton addr.toIp = some addr.ip := by
  have hbyte := addr.ip.2.2.2.isLt
  have hnumbers : numbers 3 [] addr.toIp
      = some ([addr.ip.1.val, addr.ip.2.1.val, addr.ip.2.2.1.val], addr.ip.2.2.2.val) := by
    rw [toIp_eq, numbers_dot, numbers_dot, numbers_dot, numbers_last]
    rfl
  rw [inetAton, hnumbers, Option.bind_some]
  have hbytes := toBytes_eq addr.ip.1 addr.ip.2.1 addr.ip.2.2.1 addr.ip.2.2.2
  exact (if_pos hbyte).trans (congrArg some hbytes)

/-- The text has digits and dots only. -/
theorem mem_toIp {addr : InetAddress} {c : Char} (h : c ∈ addr.toIp) :
    c.isDigit = true ∨ c = '.' := by
  simp only [toIp_eq, List.mem_append, List.mem_cons] at h
  rcases h with h | h | h | h | h | h | h
  · exact Or.inl (isDigit_toDigits h)
  · exact Or.inr h
  · exact Or.inl (isDigit_toDigits h)
  · exact Or.inr h
  · exact Or.inl (isDigit_toDigits h)
  · exact Or.inr h
  · exact Or.inl (isDigit_toDigits h)

/-- **Round trip.**  The constructor reads what `toIp` prints as the same address. -/
theorem ofIp_toIp (addr : InetAddress) : ofIp addr.toPort addr.toIp = addr := by
  have hnul : addr.toIp.takeWhile (· ≠ '\x00') = addr.toIp := by
    have hall : ∀ c ∈ addr.toIp, decide (c ≠ '\x00') = true := by
      intro c hc
      refine decide_eq_true ?_
      rintro rfl
      rcases mem_toIp hc with hdigit | hdot
      · cases hdigit
      · exact absurd hdot (by decide)
    have htake := @List.takeWhile_append_of_pos _ _ addr.toIp [] hall
    rwa [List.append_nil, List.takeWhile_nil, List.append_nil] at htake
  rw [ofIp, hnul, inetAton_toIp]
  rfl

/-- The two constructors agree on the two addresses that need no text. -/
theorem ofPort_eq (port : Fin 65536) (loopbackOnly : Bool) :
    ofPort port loopbackOnly
      = ofIp port (if loopbackOnly then "127.0.0.1".toList else "0.0.0.0".toList) := by
  have hany : (inetAton ("0.0.0.0".toList.takeWhile (· ≠ '\x00'))).getD (toBytes 0)
      = toBytes 0 := by decide +kernel
  have hloopback : (inetAton ("127.0.0.1".toList.takeWhile (· ≠ '\x00'))).getD (toBytes 0)
      = toBytes 0x7f000001 := by decide +kernel
  cases loopbackOnly with
  | false => rw [ofPort, ofIp, if_neg Bool.false_ne_true, if_neg Bool.false_ne_true, hany]
  | true => rw [ofPort, ofIp, if_pos rfl, if_pos rfl, hloopback]

example : InetAddress.ofIp 80 "127.1".toList = ⟨(127, 0, 0, 1), 80⟩ := by decide +kernel
example : InetAddress.ofIp 80 "0x7f.0.0.010 ".toList = ⟨(127, 0, 0, 8), 80⟩ := by decide +kernel
example : InetAddress.ofIp 80 "1.2.3.256".toList = ⟨(0, 0, 0, 0), 80⟩ := by decide +kernel

theorem toIp_injective {addr addr' : InetAddress} (h : addr.toIp = addr'.toIp) :
    addr.ip = addr'.ip := by
  have hip := inetAton_toIp addr
  rw [h, inetAton_toIp, Option.some.injEq] at hip
  exact hip.symm

/-- **An endpoint is told by its text.** -/
theorem toIpPort_injective {addr addr' : InetAddress} (h : addr.toIpPort = addr'.toIpPort) :
    addr = addr' := by
  have hip : ∀ a : InetAddress, ':' ∉ a.toIp := by
    intro a hmem
    rcases mem_toIp hmem with hdigit | heq
    · cases hdigit
    · exact absurd heq (by decide)
  have hport : ∀ a : InetAddress, ':' ∉ Nat.toDigits 10 a.toPort := fun a hmem =>
    absurd (isDigit_toDigits hmem) (by decide)
  rw [toIpPort_eq, toIpPort_eq, List.append_cons_inj_of_notMem (hip addr) (hport addr)] at h
  obtain ⟨htext, _, hporttext⟩ := h
  have hsame := toIp_injective htext
  have hsameport : addr.port = addr'.port := Fin.ext (toDigits_injective hporttext)
  cases addr
  cases addr'
  cases hsame
  cases hsameport
  rfl

theorem mem_toIpPort {addr : InetAddress} {c : Char} (h : c ∈ addr.toIpPort) :
    c.isDigit = true ∨ c = '.' ∨ c = ':' := by
  rw [toIpPort_eq, List.mem_append, List.mem_cons] at h
  rcases h with h | h | h
  · exact (mem_toIp h).imp_right Or.inl
  · exact Or.inr (Or.inr h)
  · exact Or.inl (isDigit_toDigits h)

end InetAddress

theorem mem_formatInt {n : Int} {c : Char} (h : c ∈ formatInt n) : c.isDigit = true ∨ c = '-' := by
  unfold formatInt at h
  split at h
  · rcases List.mem_cons.mp h with rfl | h
    · exact Or.inr rfl
    · exact Or.inl (isDigit_toDigits h)
  · exact Or.inl (isDigit_toDigits h)

/-- The text of `buf` fits. -/
theorem TcpServer.connName_eq (server : TcpServer) {id : Int} (hid : IsInt32 id) :
    server.connName id
      = server.name ++ '-' :: (server.listenAddr.toIpPort ++ '#' :: formatInt id) := by
  have haddr := server.listenAddr.length_toIpPort
  have hlength := length_formatInt hid
  rw [connName, snprintf, List.take_of_length_le]
  · rfl
  · simp only [List.cons_append, List.length_cons, List.length_append]
    omega

/-- **Connections of servers at different endpoints have different names**, and so have different
    connections of one server: two servers that are called the same name a connection alike
    just if they have the same endpoint and the same id. -/
theorem TcpServer.connName_faithful {server server' : TcpServer}
    (hname : server.name = server'.name) {m n : Int} (hm : IsInt32 m) (hn : IsInt32 n) :
    server.connName m = server'.connName n
      ↔ server.listenAddr = server'.listenAddr ∧ m = n := by
  have haddr : '#' ∉ server.listenAddr.toIpPort := by
    intro hmem
    rcases InetAddress.mem_toIpPort hmem with hdigit | heq | heq
    · cases hdigit
    · exact absurd heq (by decide)
    · exact absurd heq (by decide)
  have hid : '#' ∉ formatInt m := by
    intro hmem
    rcases mem_formatInt hmem with hdigit | heq
    · cases hdigit
    · exact absurd heq (by decide)
  rw [server.connName_eq hm, server'.connName_eq hn, hname, List.append_right_inj,
    List.cons_inj_right, List.append_cons_inj_of_notMem haddr hid]
  constructor
  · rintro ⟨htext, _, hidtext⟩
    exact ⟨InetAddress.toIpPort_injective htext, formatInt_injective hidtext⟩
  · rintro ⟨heq, rfl⟩
    exact ⟨by rw [heq], rfl, rfl⟩

/-- Two servers of one name, at ports 80 and 8080. -/
theorem TcpServer.connName_faithful_twoPorts :
    ∃ server server' : TcpServer, server.name = server'.name
      ∧ (server.connName 1 = server'.connName 1
        ↔ server.listenAddr = server'.listenAddr ∧ (1 : Int) = 1)
      ∧ server.connName 1 ≠ server'.connName 1 := by
  have hid : IsInt32 1 := ⟨by decide, by decide⟩
  have hname : (TcpServer.new ['s'] ⟨(127, 0, 0, 1), 80⟩ false []).name
      = (TcpServer.new ['s'] ⟨(127, 0, 0, 1), 8080⟩ false []).name := rfl
  exact ⟨_, _, hname, connName_faithful hname hid hid, by decide +kernel⟩

end Ymuduo
