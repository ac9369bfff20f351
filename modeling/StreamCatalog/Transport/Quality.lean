import StreamCatalog.Transport.Packet
import Std.Data.ExtTreeMap

/-!
# Stream quality

Counts packets, marked errors and scrambled packets, and follows the continuity
counter of each packet identifier: a counter that is not the successor of the
one before it is a gap, unless the packet announces a discontinuity.
-/

namespace StreamCatalog.Transport

/-- The counts of one stream. -/
structure Quality where
  /-- All packets. -/
  total : Nat
  /-- Continuity gaps. -/
  dropped : Nat
  /-- Scrambled packets. -/
  scrambled : Nat
  /-- Packets marked as damaged. -/
  damaged : Nat
deriving DecidableEq, Repr

/-- The counts so far and the last continuity counter of each packet identifier. -/
structure Analyzer where
  /-- The counts so far. -/
  quality : Quality
  /-- The last counter of each packet identifier. -/
  lastCounter : Std.ExtTreeMap Nat Nat

namespace Analyzer

/-- The state before the first packet. -/
def initial : Analyzer := ⟨⟨0, 0, 0, 0⟩, ∅⟩

/-- Whether a packet is outside the continuity count. -/
def exempt (p : Packet) : Bool :=
  p.pid = nullPid || !p.hasPayload

/-- Whether a packet does not follow on the last one of its identifier. -/
def gap (a : Analyzer) (p : Packet) : Bool :=
  !exempt p && !p.discontinuity &&
    a.lastCounter[p.pid]?.any (fun last => (last + 1) % 16 ≠ p.continuity)

/-- Count a packet; the answer says whether it shows a gap. -/
def observe (a : Analyzer) (p : Packet) : Bool × Analyzer :=
  let gap := a.gap p
  let quality :=
    { total := a.quality.total + 1
      dropped := a.quality.dropped + if gap then 1 else 0
      scrambled := a.quality.scrambled + if p.isScrambled then 1 else 0
      damaged := a.quality.damaged + if p.transportError then 1 else 0 }
  (gap, ⟨quality, if exempt p then a.lastCounter else a.lastCounter.insert p.pid p.continuity⟩)

end Analyzer

end StreamCatalog.Transport
