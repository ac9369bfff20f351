import StreamCatalog.Network.Address
import StreamCatalog.Number.Decimal

/-!
# Reading network addresses

`SocketAddress.ofText?` reads a literal host and a port. A reader takes what it
reads from the front of a list of characters and gives the characters after it.
Hosts may also be written in the older form of one to four numbers with dots
between them, in decimal, octal or hexadecimal, of which the last fills all
octets that are left.
-/

namespace StreamCatalog

namespace AddressReader

/-- What follows a character, if the list starts with it. -/
def after? (c : Char) : List Char → Option (List Char)
  | [] => none
  | x :: xs => if x = c then some xs else none

/-- The value of a digit up to `f`. -/
def digit? (base : Nat) (c : Char) : Option Nat :=
  let v :=
    if c.isDigit then c.toNat - '0'.toNat
    else if 'a' ≤ c ∧ c ≤ 'f' then c.toNat - 'a'.toNat + 10
    else if 'A' ≤ c ∧ c ≤ 'F' then c.toNat - 'A'.toNat + 10
    else base
  if v < base then some v else none

/-- The digits at the front of a list. -/
def digits (base : Nat) : List Char → List Nat × List Char
  | [] => ([], [])
  | c :: cs =>
    match digit? base c with
    | some v =>
      let (vs, rest) := digits base cs
      (v :: vs, rest)
    | none => ([], c :: cs)

/-- The number that digits write. -/
def value (base : Nat) (vs : List Nat) : Nat :=
  vs.foldl (fun n v => n * base + v) 0

/-- A number below a bound, of at least one digit and at most `width` digits. -/
def number? (base width bound : Nat) (cs : List Char) : Option (Nat × List Char) :=
  let (vs, rest) := digits base cs
  let n := value base vs
  if vs.isEmpty ∨ width < vs.length ∨ bound ≤ n then none else some (n, rest)

/-- An octet in decimal, without a zero in front. -/
def octet? (cs : List Char) : Option (UInt8 × List Char) := do
  let (n, rest) ← number? 10 3 256 cs
  if cs.head? = some '0' ∧ 1 < cs.length - rest.length then none
  else some (UInt8.ofNat n, rest)

/-- Four octets with dots between them. -/
def dotted? (cs : List Char) : Option (Ipv4 × List Char) := do
  let (a, cs) ← octet? cs
  let (b, cs) ← octet? (← after? '.' cs)
  let (c, cs) ← octet? (← after? '.' cs)
  let (d, cs) ← octet? (← after? '.' cs)
  return (⟨a, b, c, d⟩, cs)

/-- At most `room` groups with colons between them. Where two groups fit, a dotted address may
be the last two; whether it is comes with the groups. -/
def groups : (room : Nat) → (first : Bool) → List Char → List Nat × Bool × List Char
  | 0, _, cs => ([], false, cs)
  | room + 1, first, cs =>
    match if first then some cs else after? ':' cs with
    | none => ([], false, cs)
    | some body =>
      match if 0 < room then dotted? body else none with
      | some (q, rest) => (q.groups, true, rest)
      | none =>
        match number? 16 4 (1 <<< 16) body with
        | some (g, rest) =>
          let (gs, quad, rest) := groups room false rest
          (g :: gs, quad, rest)
        | none => ([], false, cs)

/-- The groups of a 128-bit address; two colons stand for one or more groups of zero. -/
def ipv6? (cs : List Char) : Option (Ipv6 × List Char) := do
  let (front, quad, rest) := groups 8 true cs
  if front.length = 8 then return (← Ipv6.ofGroups? front, rest)
  else if quad then none
  else
    let rest ← after? ':' (← after? ':' rest)
    let (back, _, rest) := groups (7 - front.length) true rest
    let gap := List.replicate (8 - front.length - back.length) 0
    return (← Ipv6.ofGroups? (front ++ gap ++ back), rest)

/-- A zone, if there is one. -/
def zone? (cs : List Char) : Option (Nat × List Char) :=
  match after? '%' cs with
  | none => some (0, cs)
  | some rest => number? 10 rest.length (1 <<< 32) rest

/-- A host with a colon after it. -/
def hostOfSocket? (cs : List Char) : Option (Host × List Char) :=
  match dotted? cs with
  | some (q, rest) => (after? ':' rest).map (Host.v4 q, ·)
  | none => do
    let (p, rest) ← ipv6? (← after? '[' cs)
    let (zone, rest) ← zone? rest
    return (.v6 { p with zone := zone }, ← after? ':' (← after? ']' rest))

/-- A socket address of a literal host and a port in decimal. -/
def literal? (cs : List Char) : Option SocketAddress := do
  let (host, rest) ← hostOfSocket? cs
  match ← number? 10 rest.length (1 <<< 16) rest with
  | (port, []) => return ⟨host, UInt16.ofNat port⟩
  | _ => none

/-- A port with an optional plus sign. -/
def port? (cs : List Char) : Option UInt16 := do
  let cs := (after? '+' cs).getD cs
  match ← number? 10 cs.length (1 <<< 16) cs with
  | (port, []) => return UInt16.ofNat port
  | _ => none

/-- One part of the older form: hexadecimal after `0x`, octal after `0`, else decimal. -/
def classicPart? (cs : List Char) : Option Nat :=
  let (base, body) := match cs with
    | '0' :: 'x' :: rest => (16, rest)
    | '0' :: 'X' :: rest => (16, rest)
    | '0' :: _ => (8, cs)
    | _ => (10, cs)
  match number? base body.length (1 <<< 32) body with
  | some (n, []) => some n
  | _ => none

/-- A host in the older form of one to four numbers. -/
def classic? (cs : List Char) : Option Ipv4 := do
  match ← (cs.splitOn '.').mapM classicPart? with
  | [n] => if n < 1 <<< 32 then some (.ofNat n) else none
  | [a, n] => if a < 1 <<< 8 ∧ n < 1 <<< 24 then some (.ofNat (a <<< 24 + n)) else none
  | [a, b, n] =>
    if a < 1 <<< 8 ∧ b < 1 <<< 8 ∧ n < 1 <<< 16 then
      some (.ofNat (a <<< 24 + b <<< 16 + n))
    else none
  | [a, b, c, n] =>
    if a < 1 <<< 8 ∧ b < 1 <<< 8 ∧ c < 1 <<< 8 ∧ n < 1 <<< 8 then
      some (.ofNat (a <<< 24 + b <<< 16 + c <<< 8 + n))
    else none
  | _ => none

/-- A host that stands alone. -/
def host? (cs : List Char) : Option Host :=
  match classic? cs with
  | some q => some (.v4 q)
  | none =>
    match ipv6? cs with
    | some (p, []) => some (.v6 p)
    | _ => none

/-- The characters before and after the last colon. -/
def splitAtLastColon? (cs : List Char) : Option (List Char × List Char) :=
  let port := (cs.reverse.takeWhile (· ≠ ':')).reverse
  if port.length = cs.length then none
  else some (cs.take (cs.length - port.length - 1), port)

end AddressReader

/-- Why a text is no socket address. -/
inductive AddressFault where
  /-- There is no colon. -/
  | noPort
  /-- What follows the last colon is no port. -/
  | badPort
  /-- The host is not a literal. -/
  | unknownHost
deriving DecidableEq, Repr

/-- What is said about a text that is no socket address. -/
def AddressFault.message : AddressFault → String
  | noPort => "invalid socket address"
  | badPort => "invalid port value"
  | unknownHost => "failed to lookup address information: Name or service not known"

/-- The socket address that a text writes. -/
def SocketAddress.ofText? (s : String) : Except AddressFault SocketAddress :=
  let cs := s.toList
  match AddressReader.literal? cs with
  | some address => .ok address
  | none =>
    match AddressReader.splitAtLastColon? cs with
    | none => .error .noPort
    | some (host, port) =>
      match AddressReader.port? port, AddressReader.host? host with
      | none, _ => .error .badPort
      | some _, none => .error .unknownHost
      | some port, some host => .ok ⟨host, port⟩

end StreamCatalog
