import StreamCatalog.Network.Address

/-!
# Binding sockets

A stream is received on a socket of its own. A network answers a request for a
socket from the addresses that are bound already: with the address that the
socket gets, or with a fault, which may also come after the socket is bound.
`Network.isolated` is a host without interfaces, on which all 32-bit addresses
can be bound.
-/

namespace StreamCatalog

/-- Why a socket cannot be bound. -/
inductive BindFault where
  /-- Another socket is bound to the address. -/
  | inUse
  /-- The address is not one of the host. -/
  | notAvailable
  /-- Any other reason that the system gives, with its number. -/
  | other (text : String) (number : Nat)
deriving DecidableEq, Repr

/-- What is said about a fault. -/
def BindFault.message : BindFault → String
  | inUse => "Address already in use (os error 98)"
  | notAvailable => "Cannot assign requested address (os error 99)"
  | other text number => text ++ " (os error " ++ toString number ++ ")"

/-- Why a socket that is bound does not tell its address. -/
inductive NameFault where
  /-- The system has no room for the answer. -/
  | noBuffers
  /-- Any other reason that the system gives, with its number. -/
  | other (text : String) (number : Nat)
deriving DecidableEq, Repr

/-- What is said about a fault. -/
def NameFault.message : NameFault → String
  | noBuffers => "No buffer space available (os error 105)"
  | other text number => text ++ " (os error " ++ toString number ++ ")"

/-- Why there is no socket to receive on. -/
inductive SocketFault where
  /-- It cannot be bound. -/
  | unbound (fault : BindFault)
  /-- It is bound, but does not tell its address, and is given up. -/
  | unnamed (fault : NameFault)
deriving DecidableEq, Repr

/-- The answers to requests for sockets, by the addresses that are bound. -/
abbrev Network := List SocketAddress → SocketAddress → Except SocketFault SocketAddress

namespace Host

/-- The 32-bit address that a host is or stands for. -/
def v4? : Host → Option Ipv4
  | v4 q => some q
  | v6 p => Ipv6.mapped? p.groups.toList

/-- Whether a host stands for all 128-bit addresses, and with them for all others. -/
def isEverything : Host → Bool
  | v4 _ => false
  | v6 p => p.groups.toList.all (· = 0)

/-- Whether some address belongs to both hosts. -/
def meets (a b : Host) : Bool :=
  a.isEverything || b.isEverything ||
    match a.v4?, b.v4? with
    | some p, some q => p = q || p = ⟨0, 0, 0, 0⟩ || q = ⟨0, 0, 0, 0⟩
    | none, none => a = b
    | _, _ => false

end Host

namespace SocketAddress

/-- Whether two sockets cannot be bound at once. -/
def collides (a b : SocketAddress) : Bool := a.port = b.port && a.host.meets b.host

/-- The first of the ports that are given out on a host that no socket has. -/
def freePort? (bound : List SocketAddress) (host : Host) : Option UInt16 :=
  ((List.range' 32768 28232).map UInt16.ofNat).find? fun port =>
    !bound.any (collides ⟨host, port⟩)

end SocketAddress

namespace Network

/-- A host without interfaces. Port zero asks for any port that is free. -/
def isolated : Network := fun bound address =>
  if !address.host.isEverything && address.host.v4?.isNone then .error (.unbound .notAvailable)
  else if address.port = 0 then
    match SocketAddress.freePort? bound address.host with
    | none => .error (.unbound .inUse)
    | some port => .ok ⟨address.host, port⟩
  else if bound.any address.collides then .error (.unbound .inUse)
  else .ok address

end Network

end StreamCatalog
