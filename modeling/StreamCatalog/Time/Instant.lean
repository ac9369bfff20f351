/-!
# Instants

An instant is a whole number of seconds since the Unix epoch and a number of
nanoseconds within that second. A leap second is the second before it with
10^9 nanoseconds or more.
-/

namespace StreamCatalog

/-- A point in time. -/
structure Instant where
  /-- Whole seconds since the Unix epoch. -/
  seconds : Int
  /-- Nanoseconds after that; 10^9 or more in a leap second. -/
  nanos : Nat
deriving DecidableEq, Repr

namespace Instant

instance : LT Instant where
  lt a b := a.seconds < b.seconds ∨ (a.seconds = b.seconds ∧ a.nanos < b.nanos)

instance : LE Instant where
  le a b := a.seconds < b.seconds ∨ (a.seconds = b.seconds ∧ a.nanos ≤ b.nanos)

theorem lt_def {a b : Instant} :
    a < b ↔ a.seconds < b.seconds ∨ (a.seconds = b.seconds ∧ a.nanos < b.nanos) := Iff.rfl

theorem le_def {a b : Instant} :
    a ≤ b ↔ a.seconds < b.seconds ∨ (a.seconds = b.seconds ∧ a.nanos ≤ b.nanos) := Iff.rfl

instance (a b : Instant) : Decidable (a < b) := decidable_of_iff _ lt_def.symm

instance (a b : Instant) : Decidable (a ≤ b) := decidable_of_iff _ le_def.symm

/-- The order is total. -/
theorem not_lt {a b : Instant} : ¬a < b ↔ b ≤ a := by
  simp only [lt_def, le_def]
  omega

/-- The instant `micros` microseconds after the epoch. -/
def ofMicros (micros : Int) : Instant :=
  ⟨micros / 1000000, (micros % 1000000).toNat * 1000⟩

/-- Microseconds since the epoch, rounded down. -/
def micros (t : Instant) : Int :=
  t.seconds * 1000000 + (t.nanos / 1000 : Nat)

@[simp] theorem micros_ofMicros (m : Int) : (ofMicros m).micros = m := by
  simp only [ofMicros, micros]
  omega

/-- The last microsecond of the year 262142, the greatest instant that can be written as a date. -/
def maxMicros : Int := 8210266876799999999

end Instant

end StreamCatalog
