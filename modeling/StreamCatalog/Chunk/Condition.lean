/-!
# When a chunk is closed

A condition looks at the bytes of a chunk, the time since it was opened and the
time since its last bytes. An empty chunk satisfies no condition.
-/

namespace StreamCatalog

/-- So many milliseconds in nanoseconds. -/
def ofMillis (n : Nat) : Nat := n * 1000000

@[simp] theorem ofMillis_pos {n : Nat} : 0 < ofMillis n ↔ 0 < n := by
  rw [ofMillis]
  omega

/-- What has become of an open chunk. -/
structure Progress where
  /-- Bytes written. -/
  bytes : Nat
  /-- Nanoseconds since it was opened. -/
  elapsed : Nat
  /-- Nanoseconds since bytes were last written. -/
  idle : Nat
deriving DecidableEq, Repr

/-- A condition for closing a chunk. -/
inductive Condition where
  /-- So many bytes. -/
  | bytes (count : Nat)
  /-- So many nanoseconds since the chunk was opened. -/
  | elapsed (nanos : Nat)
  /-- So many nanoseconds without bytes. -/
  | idle (nanos : Nat)
  /-- Any of several conditions. -/
  | any (conditions : List Condition)

namespace Condition

mutual

/-- Whether a condition holds, leaving aside that the chunk may be empty. -/
def holds (p : Progress) : Condition → Bool
  | bytes count => count ≤ p.bytes
  | elapsed nanos => nanos ≤ p.elapsed
  | idle nanos => nanos ≤ p.idle
  | any conditions => anyHolds p conditions

/-- Whether one of several conditions holds. -/
def anyHolds (p : Progress) : List Condition → Bool
  | [] => false
  | c :: cs => holds p c || anyHolds p cs

end

/-- Whether a chunk is to be closed. An empty one is not. -/
def isSatisfied (p : Progress) (c : Condition) : Bool :=
  p.bytes ≠ 0 && c.holds p

mutual

/-- The wording of a condition, with times in whole milliseconds. -/
def describe : Condition → String
  | bytes count => toString count ++ " bytes"
  | elapsed nanos => toString (nanos / ofMillis 1) ++ " ms elapsed"
  | idle nanos => toString (nanos / ofMillis 1) ++ " ms idle"
  | any conditions => " or ".intercalate (describeAll conditions)

/-- The wordings of several conditions. -/
def describeAll : List Condition → List String
  | [] => []
  | c :: cs => describe c :: describeAll cs

end

end Condition

end StreamCatalog
