import StreamCatalog.Proofs.Text.Digits
import StreamCatalog.Proofs.Time.Calendar
import StreamCatalog.Time.Rfc3339

/-!
# Reading back dates

An instant is read back from its text (`ofRfc3339?_rfc3339`), but for one with the nanoseconds
of a leap second within another second: that is read as the time within the next second.
-/

namespace StreamCatalog

namespace Instant

theorem ofDigits_padded (width n : Nat) : ofDigits (padded width n).toList = n :=
  (Decimal.ofDigitChars_eq _).trans (ofDigitChars_padded width n)

/-! ## The parts of a date -/

/-- A digit is no blank. -/
theorem isBlank_of_isDigit {c : Char} (h : c.isDigit = true) : Text.isBlank c = false := by
  have hrange : 48 ≤ c.toNat ∧ c.toNat ≤ 57 := by
    simpa [Char.isDigit, UInt32.le_iff_toNat_le] using h
  simp only [Text.isBlank, Bool.or_eq_false_iff, Bool.and_eq_false_iff, decide_eq_false_iff_not]
  omega

theorem skipBlanks_cons {c : Char} (h : Text.isBlank c = false) (cs : List Char) :
    skipBlanks (c :: cs) = c :: cs :=
  List.dropWhile_cons_of_neg (by simp [h])

theorem skipBlanks_padded (width n : Nat) (rest : List Char) :
    skipBlanks ((padded width n).toList ++ rest) = (padded width n).toList ++ rest := by
  obtain ⟨d, ds, h, hd⟩ := exists_padded_eq width n
  rw [h]
  exact skipBlanks_cons (isBlank_of_isDigit hd) _

/-- Digits are read up to a limit, or up to where they end. -/
theorem readDigits?_padded {most width n : Nat} {rest : List Char}
    (hmost : (padded width n).toList.length ≤ most)
    (hend : (padded width n).toList.length = most ∨ ∀ c ∈ rest.head?, c.isDigit = false) :
    readDigits? most ((padded width n).toList ++ rest) = some (n, rest) := by
  have htake : (((padded width n).toList ++ rest).take most).takeWhile Char.isDigit =
      (padded width n).toList := by
    rw [List.take_append, List.take_of_length_le hmost,
      List.takeWhile_append_of_pos fun c => isDigit_of_mem_padded]
    rcases hend with hlength | hrest
    · rw [hlength, Nat.sub_self, List.take_zero, List.takeWhile_nil, List.append_nil]
    · cases rest with
      | nil => simp
      | cons c rest => cases most - (padded width n).toList.length <;> simp [hrest c rfl]
  rw [readDigits?, htake, List.drop_left, ofDigits_padded,
    if_neg (mt List.isEmpty_iff.1 (padded_toList_ne_nil width n))]

theorem readPair?_padded {n : Nat} (h : n < 100) (rest : List Char) :
    readPair? ((padded 2 n).toList ++ rest) = some (n, rest) := by
  have hlength := length_padded (by decide) (show n < 10 ^ 2 from h)
  rw [readPair?, skipBlanks_padded, readDigits?_padded (Nat.le_of_eq hlength) (.inl hlength)]

theorem readMark?_cons {mark : Char} (h : Text.isBlank mark = false) (rest : List Char) :
    readMark? mark (mark :: rest) = some rest := by
  rw [readMark?, skipBlanks_cons h]
  simp

/-- A year is read back where the digits end. -/
theorem readYear?_yearText (year : Int) {rest : List Char}
    (hrest : ∀ c ∈ rest.head?, c.isDigit = false) :
    readYear? ((yearText year).toList ++ rest) = some (year, rest) := by
  have hsigned : readDigits? ((padded 4 year.natAbs).toList ++ rest).length
      ((padded 4 year.natAbs).toList ++ rest) = some (year.natAbs, rest) :=
    readDigits?_padded (by simp) (.inr hrest)
  obtain ⟨d, ds, hdigits, hd⟩ := exists_padded_eq 4 year.natAbs
  rw [yearText]
  split
  case isTrue hneg =>
    have hyear : -(year.natAbs : Int) = year := by omega
    rw [String.toList_append]
    change readYear? ('-' :: ((padded 4 year.natAbs).toList ++ rest)) = _
    simp only [readYear?, skipBlanks_cons (show Text.isBlank '-' = false by decide), hsigned,
      Option.map_some, hyear]
  case isFalse hpos =>
    have hyear : (year.natAbs : Int) = year := by omega
    split
    case isTrue hle =>
      have hlength : (padded 4 year.natAbs).toList.length = 4 :=
        length_padded (by decide) (by omega)
      have hread : readDigits? 4 ((padded 4 year.natAbs).toList ++ rest) =
          some (year.natAbs, rest) :=
        readDigits?_padded (Nat.le_of_eq hlength) (.inl hlength)
      rw [readYear?, skipBlanks_padded]
      rw [hdigits, List.cons_append] at hread ⊢
      split
      case h_1 heq =>
        obtain rfl := (List.cons.inj heq).1
        cases hd
      case h_2 heq =>
        obtain rfl := (List.cons.inj heq).1
        cases hd
      case h_3 => simp only [hread, Option.map_some, hyear]
    case isFalse hgt =>
      rw [String.toList_append]
      change readYear? ('+' :: ((padded 4 year.natAbs).toList ++ rest)) = _
      simp only [readYear?, skipBlanks_cons (show Text.isBlank '+' = false by decide), hsigned,
        Option.map_some, hyear]

/-- Fraction digits are read as nanoseconds. -/
theorem readFraction?_padded {width : Nat} (n : Nat) (hpos : 0 < width) (hwidth : width ≤ 9)
    (h : n < 10 ^ width) {rest : List Char} (hrest : ∀ c ∈ rest.head?, c.isDigit = false) :
    readFraction? ('.' :: ((padded width n).toList ++ rest)) = some (n * 10 ^ (9 - width), rest) := by
  have hlength := length_padded hpos h
  have htake : (padded width n).toList.take 9 = (padded width n).toList :=
    List.take_of_length_le (by omega)
  have hdrop : ((padded width n).toList ++ rest).drop width = rest := List.drop_left' hlength
  simp only [readFraction?, takeWhile_digits (fun c => isDigit_of_mem_padded) hrest, htake,
    ofDigits_padded, hlength, hdrop, if_neg (mt List.isEmpty_iff.1 (padded_toList_ne_nil width n))]
  rfl

/-- The fraction of a second is read back. -/
theorem readFraction?_fractionText {nanos : Nat} (h : nanos < nanosPerSecond) {rest : List Char}
    (hrest : ∀ c ∈ rest.head?, c.isDigit = false ∧ c ≠ '.') :
    readFraction? ((fractionText nanos).toList ++ rest) = some (nanos, rest) := by
  have hdigit : ∀ c ∈ rest.head?, c.isDigit = false := fun c hc => (hrest c hc).1
  rw [nanosPerSecond] at h
  rw [fractionText]
  split
  case isTrue hzero =>
    subst hzero
    change readFraction? rest = _
    rw [readFraction?.eq_def]
    split
    · exact absurd rfl (hrest '.' rfl).2
    · rfl
  case isFalse =>
    split
    case isTrue hmillis =>
      have hread := readFraction?_padded (nanos / 1000000) (show 0 < 3 by decide) (by decide)
        (by omega) hdigit
      rw [show nanos / 1000000 * 10 ^ (9 - 3) = nanos by omega] at hread
      rw [String.toList_append]
      exact hread
    case isFalse =>
      split
      case isTrue hmicros =>
        have hread := readFraction?_padded (nanos / 1000) (show 0 < 6 by decide) (by decide)
          (by omega) hdigit
        rw [show nanos / 1000 * 10 ^ (9 - 6) = nanos by omega] at hread
        rw [String.toList_append]
        exact hread
      case isFalse =>
        have hread := readFraction?_padded nanos (show 0 < 9 by decide) (by decide) h hdigit
        rw [show nanos * 10 ^ (9 - 9) = nanos by omega] at hread
        rw [String.toList_append]
        exact hread

/-! ## Whole dates -/

/-- The instants that are written with a year from -262143 to 262142. -/
structure InRange (t : Instant) : Prop where
  /-- It is not before the first second. -/
  least : minSeconds ≤ t.seconds
  /-- It is not after the last second. -/
  greatest : t.seconds ≤ maxSeconds
  /-- There are the nanoseconds of two seconds at most. -/
  nanos_lt : t.nanos < 2 * nanosPerSecond

/-- The time that is read back: nanoseconds of a leap second count on from another second. -/
def settled (t : Instant) : Instant :=
  if nanosPerSecond ≤ t.nanos ∧ t.seconds % 60 ≠ 59 then ⟨t.seconds + 1, t.nanos - nanosPerSecond⟩
  else t

theorem settled_of_leap {t : Instant} (hnanos : 1000000000 ≤ t.nanos)
    (hseconds : t.seconds % 60 ≠ 59) : t.settled = ⟨t.seconds + 1, t.nanos - 1000000000⟩ :=
  if_pos ⟨hnanos, hseconds⟩

theorem settled_eq_self {t : Instant} (h : t.nanos < 1000000000 ∨ t.seconds % 60 = 59) :
    t.settled = t :=
  if_neg fun hleap => h.elim (Nat.not_lt.2 hleap.1) hleap.2

/-- The time stays where there is a leap second, and where none is needed. -/
theorem settled_eq_self_iff {t : Instant} :
    t.settled = t ↔ t.nanos < nanosPerSecond ∨ t.seconds % 60 = 59 := by
  refine ⟨fun h => ?_, settled_eq_self⟩
  by_cases hnanos : nanosPerSecond ≤ t.nanos
  · by_cases hseconds : t.seconds % 60 = 59
    · exact .inr hseconds
    · rw [settled_of_leap hnanos hseconds] at h
      have hnext := congrArg seconds h
      simp only [] at hnext
      omega
  · exact .inl (Nat.not_le.1 hnanos)

theorem maxSeconds_mod : maxSeconds % 60 = 59 := rfl

theorem InRange.settled {t : Instant} (h : t.InRange) : t.settled.InRange := by
  obtain ⟨hleast, hgreatest, hnanos⟩ := h
  by_cases hleap : nanosPerSecond ≤ t.nanos ∧ t.seconds % 60 ≠ 59
  · have hmod := maxSeconds_mod
    rw [settled_of_leap hleap.1 hleap.2]
    exact ⟨by simp only []; omega, by simp only []; omega, by simp only []; omega⟩
  · rw [Instant.settled, if_neg hleap]
    exact ⟨hleast, hgreatest, hnanos⟩

/-- What is read back is read back again. -/
theorem settled_settled {t : Instant} (h : t.InRange) : t.settled.settled = t.settled := by
  by_cases hleap : nanosPerSecond ≤ t.nanos ∧ t.seconds % 60 ≠ 59
  · have hnanos := h.nanos_lt
    rw [nanosPerSecond] at hnanos
    rw [settled_of_leap hleap.1 hleap.2]
    exact settled_eq_self (.inl (by simp only []; omega))
  · have hself : t.settled = t := if_neg hleap
    rw [hself, hself]

/-- The fields of an instant make the instant that is read back. -/
theorem ofFields?_fields {t : Instant} (h : t.InRange) :
    ofFields? t.date (t.secondOfDay / 3600) (t.secondOfDay / 60 % 60)
      (t.secondOfDay % 60 + t.nanos / nanosPerSecond) (t.nanos % nanosPerSecond) 0 =
        some t.settled := by
  have hvalid : t.date.IsValid := Civil.isValid_ofDays _
  have hdays : t.date.toDays = t.seconds / secondsPerDay := Civil.toDays_ofDays _
  have hsecond : (t.secondOfDay : Int) = t.seconds % secondsPerDay := by
    rw [secondOfDay, secondsPerDay]
    omega
  obtain ⟨seconds, nanos⟩ := t
  obtain ⟨hleast, hgreatest, hnanos⟩ := h
  have hmod := maxSeconds_mod
  simp only [secondsPerDay, nanosPerSecond] at hdays hsecond hnanos hleast hgreatest ⊢
  generalize secondOfDay ⟨seconds, nanos⟩ = second at *
  rw [ofFields?, if_pos ⟨hvalid.month_pos, hvalid.month_le, hvalid.day_pos, hvalid.day_le, by omega,
    by omega, by omega, by decide⟩]
  simp only [hdays, nanosPerSecond, secondsPerDay, Int.sub_zero]
  by_cases hleap : second % 60 + nanos / 1000000000 = 60
  · -- Only the last second of a minute is written as 60.
    have hlast : seconds % 60 = 59 := by omega
    simp only [hleap, if_true, settled_eq_self (t := ⟨seconds, nanos⟩) (.inr hlast)]
    rw [if_pos (by omega), Option.some.injEq, mk.injEq]
    omega
  · simp only [hleap, if_false]
    rw [if_pos (by omega)]
    by_cases hnext : 1000000000 ≤ nanos
    · rw [settled_of_leap hnext (show seconds % 60 ≠ 59 by omega), Option.some.injEq, mk.injEq]
      simp only []
      omega
    · rw [settled_eq_self (.inl (Nat.not_le.1 hnext)), Option.some.injEq, mk.injEq]
      omega

/-- A pair behind a mark. -/
theorem readPair?_mark {mark : Char} (hmark : Text.isBlank mark = false) {n : Nat} (h : n < 100)
    (rest : List Char) :
    (readMark? mark (mark :: ((padded 2 n).toList ++ rest))).bind readPair? = some (n, rest) := by
  rw [readMark?_cons hmark, Option.bind_some, readPair?_padded h]

/-- A date is made of what is read at its places. -/
theorem ofRfc3339?_of_fields {s : String} {date : Civil} {hour minute second nanos : Nat}
    {offset : Int} {afterYear afterMonth afterDay afterHour afterMinute afterSecond rest : List Char}
    (hyear : readYear? s.toList = some (date.year, afterYear))
    (hmonth : (readMark? '-' afterYear).bind readPair? = some (date.month, afterMonth))
    (hday : (readMark? '-' afterMonth).bind readPair? = some (date.day, 'T' :: afterDay))
    (hhour : readPair? afterDay = some (hour, afterHour))
    (hminute : (readMark? ':' afterHour).bind readPair? = some (minute, afterMinute))
    (hsecond : (readMark? ':' afterMinute).bind readPair? = some (second, afterSecond))
    (hnanos : readFraction? afterSecond = some (nanos, rest))
    (hoffset : readOffset? (skipBlanks rest) = some (offset, [])) :
    ofRfc3339? s = ofFields? date hour minute second nanos offset := by
  obtain ⟨behind, hmark, hmonth⟩ := Option.bind_eq_some_iff.1 hmonth
  obtain ⟨behind', hmark', hday⟩ := Option.bind_eq_some_iff.1 hday
  obtain ⟨colon, hcolon, hminute⟩ := Option.bind_eq_some_iff.1 hminute
  obtain ⟨colon', hcolon', hsecond⟩ := Option.bind_eq_some_iff.1 hsecond
  rw [ofRfc3339?, hyear]
  change (readMark? '-' afterYear).bind _ = _
  simp only [hmark, hmonth, hmark', hday, hhour, hcolon, hminute, hcolon', hsecond, hnanos, hoffset,
    Option.bind_eq_bind, Option.bind_some]
  rfl

/-- An instant is read back from its text. -/
theorem ofRfc3339?_rfc3339 {t : Instant} (h : t.InRange) :
    ofRfc3339? t.rfc3339 = some t.settled := by
  have hvalid : t.date.IsValid := Civil.isValid_ofDays _
  have hday : t.date.day ≤ 31 := by
    have hle := hvalid.day_le
    rw [Civil.daysInMonth] at hle
    split at hle
    · split at hle <;> omega
    · split at hle <;> omega
  have hmonth := hvalid.month_le
  have hsecond : t.secondOfDay < 86400 := by
    rw [secondOfDay, secondsPerDay]
    omega
  have hnanos : t.nanos / nanosPerSecond ≤ 1 := by
    have hlt := h.nanos_lt
    rw [nanosPerSecond] at hlt ⊢
    omega
  have htext : t.rfc3339.toList = (yearText t.date.year).toList ++ '-' ::
      ((padded 2 t.date.month).toList ++ '-' :: ((padded 2 t.date.day).toList ++ 'T' ::
        ((padded 2 (t.secondOfDay / 3600)).toList ++ ':' ::
          ((padded 2 (t.secondOfDay / 60 % 60)).toList ++ ':' ::
            ((padded 2 (t.secondOfDay % 60 + t.nanos / nanosPerSecond)).toList ++
              ((fractionText (t.nanos % nanosPerSecond)).toList ++ ['Z'])))))) := by
    simp [rfc3339, String.toList_append]
  have hdash : Text.isBlank '-' = false := by decide
  have hcolon : Text.isBlank ':' = false := by decide
  have hfraction : readFraction? ((fractionText (t.nanos % nanosPerSecond)).toList ++ ['Z']) =
      some (t.nanos % nanosPerSecond, ['Z']) :=
    readFraction?_fractionText (Nat.mod_lt _ (by decide)) (by rintro c ⟨⟩; decide)
  rw [← ofFields?_fields h]
  have hyear (rest : List Char) : readYear? ((yearText t.date.year).toList ++ '-' :: rest) =
      some (t.date.year, '-' :: rest) := readYear?_yearText _ (by rintro c ⟨⟩; rfl)
  exact ofRfc3339?_of_fields ((congrArg readYear? htext).trans (hyear _))
    (readPair?_mark hdash (by omega) _) (readPair?_mark hdash (by omega) _)
    (readPair?_padded (by omega) _) (readPair?_mark hcolon (by omega) _)
    (readPair?_mark hcolon (by omega) _) hfraction rfl

end Instant

end StreamCatalog
