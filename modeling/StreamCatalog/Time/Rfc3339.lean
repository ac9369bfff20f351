import StreamCatalog.Text.Blank
import StreamCatalog.Time.Civil

/-!
# Dates as text

`Instant.rfc3339` writes an instant in universal time with as many groups of
three fraction digits as it needs. `Instant.ofRfc3339?` reads a date with an
offset; it also takes a blank for the `T`, blanks between the numbers, a year
with a sign and any number of digits, and `UTC` for the offset.
-/

namespace StreamCatalog

/-- The fraction digits of a second: none, or 3, 6 or 9 of them after a point. -/
def fractionText (nanos : Nat) : String :=
  if nanos = 0 then ""
  else if nanos % 1000000 = 0 then "." ++ padded 3 (nanos / 1000000)
  else if nanos % 1000 = 0 then "." ++ padded 6 (nanos / 1000)
  else "." ++ padded 9 nanos

/-- The nanoseconds of a second. -/
def nanosPerSecond : Nat := 1000000000

namespace Instant

/-- The text of an instant in universal time. -/
def rfc3339 (t : Instant) : String :=
  let d := t.date
  let s := t.secondOfDay
  yearText d.year ++ "-" ++ padded 2 d.month ++ "-" ++ padded 2 d.day ++ "T" ++
    padded 2 (s / 3600) ++ ":" ++ padded 2 (s / 60 % 60) ++ ":" ++
    padded 2 (s % 60 + t.nanos / nanosPerSecond) ++
    fractionText (t.nanos % nanosPerSecond) ++ "Z"

/-- The characters without blanks in front. -/
def skipBlanks (cs : List Char) : List Char :=
  cs.dropWhile Text.isBlank

/-- The number that digits write. -/
def ofDigits (cs : List Char) : Nat :=
  cs.foldl (fun n c => n * 10 + (c.toNat - 0x30)) 0

/-- A number of one to `most` digits, and what follows. -/
def readDigits? (most : Nat) (cs : List Char) : Option (Nat × List Char) :=
  let digits := (cs.take most).takeWhile Char.isDigit
  if digits.isEmpty then none else some (ofDigits digits, cs.drop digits.length)

/-- A year of up to four digits, or of any number of digits after a sign. -/
def readYear? (cs : List Char) : Option (Int × List Char) :=
  match skipBlanks cs with
  | '-' :: rest => (readDigits? rest.length rest).map fun (n, rest) => (-(n : Int), rest)
  | '+' :: rest => (readDigits? rest.length rest).map fun (n, rest) => ((n : Int), rest)
  | cs => (readDigits? 4 cs).map fun (n, rest) => ((n : Int), rest)

/-- A number of up to two digits after blanks. -/
def readPair? (cs : List Char) : Option (Nat × List Char) :=
  readDigits? 2 (skipBlanks cs)

/-- A mark after blanks. -/
def readMark? (mark : Char) (cs : List Char) : Option (List Char) :=
  match skipBlanks cs with
  | c :: rest => if c = mark then some rest else none
  | [] => none

/-- The nanoseconds of an optional fraction; digits after the ninth are dropped. -/
def readFraction? (cs : List Char) : Option (Nat × List Char) :=
  match cs with
  | '.' :: rest =>
    let digits := rest.takeWhile Char.isDigit
    let kept := digits.take 9
    if digits.isEmpty then none
    else some (ofDigits kept * Nat.pow 10 (9 - kept.length), rest.drop digits.length)
  | _ => some (0, cs)

/-- The seconds east of universal time of two digits of hours and two of minutes. -/
def readHoursMinutes? (cs : List Char) : Option (Int × List Char) :=
  match cs with
  | a :: b :: rest =>
    match rest.dropWhile (fun c => c = ':' || Text.isBlank c) with
    | c :: d :: rest =>
      if [a, b, c, d].all Char.isDigit && ofDigits [c, d] < 60 then
        some (((ofDigits [a, b] * 60 + ofDigits [c, d]) * 60 : Nat), rest)
      else none
    | _ => none
  | _ => none

/-- The offset at the end of a date in seconds east of universal time. -/
def readOffset? (cs : List Char) : Option (Int × List Char) :=
  match cs with
  | 'Z' :: rest | 'z' :: rest => some (0, rest)
  | '+' :: rest => readHoursMinutes? rest
  | '-' :: rest | '\u2212' :: rest =>
    (readHoursMinutes? rest).map fun (offset, rest) => (-offset, rest)
  | a :: b :: c :: rest =>
    if [a, b, c].map Char.toUpper = ['U', 'T', 'C'] then some (0, rest) else none
  | _ => none

/-- The first second of the least year. -/
def minSeconds : Int := Civil.toDays ⟨-262143, 1, 1⟩ * secondsPerDay

/-- The last second of the greatest year. -/
def maxSeconds : Int := Civil.toDays ⟨262143, 1, 1⟩ * secondsPerDay - 1

/-- The instant of a date, a time of day and an offset, if there is such a time. The
second 60 is a leap second. -/
def ofFields? (date : Civil) (hour minute second nanos : Nat) (offset : Int) : Option Instant :=
  if 1 ≤ date.month ∧ date.month ≤ 12 ∧ 1 ≤ date.day ∧
      date.day ≤ Civil.daysInMonth date.year date.month ∧
      hour < 24 ∧ minute < 60 ∧ second ≤ 60 ∧ offset.natAbs < 86400 then
    let leap := second = 60
    let local' : Int := date.toDays * secondsPerDay +
      (hour * 3600 + minute * 60 + (if leap then 59 else second) : Nat)
    let seconds := local' - offset
    if minSeconds ≤ local' ∧ local' ≤ maxSeconds ∧ minSeconds ≤ seconds ∧ seconds ≤ maxSeconds then
      some ⟨seconds, nanos + if leap then nanosPerSecond else 0⟩
    else none
  else none

/-- The instant that a text writes. -/
def ofRfc3339? (s : String) : Option Instant := do
  let (year, cs) ← readYear? s.toList
  let (month, cs) ← readPair? (← readMark? '-' cs)
  let (day, cs) ← readPair? (← readMark? '-' cs)
  let cs ← match cs with
    | c :: rest => if c = 'T' ∨ c = 't' ∨ c = ' ' then some rest else none
    | [] => none
  let (hour, cs) ← readPair? cs
  let (minute, cs) ← readPair? (← readMark? ':' cs)
  let (second, cs) ← readPair? (← readMark? ':' cs)
  let (nanos, cs) ← readFraction? cs
  let (offset, cs) ← readOffset? (skipBlanks cs)
  if (skipBlanks cs).isEmpty then
    ofFields? ⟨year, month, day⟩ hour minute second nanos offset
  else none

end Instant

end StreamCatalog
