/-!
# Network addresses

Addresses of hosts, addresses of sockets on them, and how both are written. The
groups of a 128-bit address are written in hexadecimal with the first longest
run of two or more zero groups left out; an address that stands for a 32-bit one
ends in its dotted form.
-/

namespace StreamCatalog

/-- A 32-bit address as its four octets. -/
structure Ipv4 where
  /-- The first octet. -/
  a : UInt8
  /-- The second octet. -/
  b : UInt8
  /-- The third octet. -/
  c : UInt8
  /-- The last octet. -/
  d : UInt8
deriving DecidableEq, Repr

/-- A 128-bit address as its groups, with the number of the zone it belongs to. -/
structure Ipv6 where
  /-- The eight groups. -/
  groups : Vector UInt16 8
  /-- The zone; zero is none. -/
  zone : Nat
deriving DecidableEq, Repr

/-- The address of a host. -/
inductive Host where
  /-- A 32-bit address. -/
  | v4 (address : Ipv4)
  /-- A 128-bit address. -/
  | v6 (address : Ipv6)
deriving DecidableEq, Repr

/-- The address of a socket. -/
structure SocketAddress where
  /-- The host. -/
  host : Host
  /-- The port. -/
  port : UInt16
deriving DecidableEq, Repr

namespace Ipv4

/-- The dotted form. -/
def text (q : Ipv4) : String :=
  toString q.a.toNat ++ "." ++ toString q.b.toNat ++ "." ++ toString q.c.toNat ++ "." ++
    toString q.d.toNat

/-- The address with a value. -/
def ofNat (n : Nat) : Ipv4 :=
  ⟨UInt8.ofNat (n >>> 24), UInt8.ofNat (n >>> 16), UInt8.ofNat (n >>> 8), UInt8.ofNat n⟩

/-- The two groups that stand for an address at the end of a 128-bit one. -/
def groups (q : Ipv4) : List Nat :=
  [q.a.toNat * 256 + q.b.toNat, q.c.toNat * 256 + q.d.toNat]

end Ipv4

namespace Ipv6

/-- The address without a zone of a list of eight groups. -/
def ofGroups? (gs : List Nat) : Option Ipv6 :=
  if h : gs.length = 8 then some ⟨⟨(gs.map UInt16.ofNat).toArray, by simp [h]⟩, 0⟩ else none

/-- The length of the run of zeros at the start of each suffix of a list. -/
def zeroRuns : List UInt16 → List Nat
  | [] => []
  | g :: gs =>
    let runs := zeroRuns gs
    (if g = 0 then runs.headD 0 + 1 else 0) :: runs

/-- Groups in hexadecimal with colons between them. -/
def joined (gs : List UInt16) : String :=
  ":".intercalate (gs.map fun g => String.ofList (Nat.toDigits 16 g.toNat))

/-- Groups with the first longest run of two or more zeros left out. -/
def shortened (gs : List UInt16) : String :=
  let runs := zeroRuns gs
  let longest := runs.foldl max 0
  if longest < 2 then joined gs
  else
    let start := runs.findIdx (· = longest)
    joined (gs.take start) ++ "::" ++ joined (gs.drop (start + longest))

/-- The 32-bit address that a 128-bit one stands for. -/
def mapped? (gs : List UInt16) : Option Ipv4 :=
  match gs with
  | [0, 0, 0, 0, 0, 0xFFFF, high, low] => some (Ipv4.ofNat (high.toNat <<< 16 + low.toNat))
  | _ => none

/-- The shortest form, without the zone. -/
def text (p : Ipv6) : String :=
  let gs := p.groups.toList
  match mapped? gs with
  | some q => "::ffff:" ++ q.text
  | none => shortened gs

end Ipv6

namespace SocketAddress

/-- The host and the port, with brackets around a host that has colons. -/
def text (s : SocketAddress) : String :=
  let host := match s.host with
    | .v4 q => q.text
    | .v6 p => "[" ++ p.text ++ (if p.zone = 0 then "" else "%" ++ toString p.zone) ++ "]"
  host ++ ":" ++ toString s.port.toNat

end SocketAddress

end StreamCatalog
