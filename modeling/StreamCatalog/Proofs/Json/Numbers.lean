import StreamCatalog.Json.Numeral
import StreamCatalog.Json.Printer
import StreamCatalog.Proofs.Text.Digits

/-!
# Reading back JSON numbers

A number is read back from its characters whatever follows, as long as that does
not go on with a number (`Numeral.read_chars`). Both whole numbers and doubles are
written as numbers.
-/

namespace StreamCatalog.Json

/-- Whether a text does not go on with a number. -/
def EndsNumber (rest : List Char) : Prop :=
  ∀ c ∈ rest.head?, c.isDigit = false ∧ c ∉ ['.', 'e', 'E', '+', '-']

theorem endsNumber_nil : EndsNumber [] := by
  rintro c ⟨⟩

theorem endsNumber_cons {c : Char} (h : c ∈ [',', ']', '\x7d']) (rest : List Char) :
    EndsNumber (c :: rest) := by
  rintro d ⟨⟩
  simp only [List.mem_cons, List.not_mem_nil, or_false] at h
  rcases h with rfl | rfl | rfl <;> decide

namespace Numeral

/-- Digits with a minus in front, or without one. -/
def signed (negative : Bool) (digits : List Char) : List Char :=
  if negative then '-' :: digits else digits

/-- The characters of the part after the point. -/
def fractionChars (n : Numeral) : List Char :=
  n.fraction.elim [] ('.' :: ·)

/-- The characters of the power of ten. -/
def powerChars (n : Numeral) : List Char :=
  n.power.elim [] fun p => 'e' :: signed p.1 p.2

/-- The characters of a number. -/
def chars (n : Numeral) : List Char :=
  signed n.negative n.whole ++ n.fractionChars ++ n.powerChars

/-- Whether the digits of a number are digits. -/
structure HasDigits (n : Numeral) : Prop where
  /-- Those before the point. -/
  whole : ∀ c ∈ n.whole, c.isDigit
  /-- Those after the point. -/
  fraction : ∀ ds ∈ n.fraction, ∀ c ∈ ds, c.isDigit
  /-- Those of the power of ten. -/
  power : ∀ p ∈ n.power, ∀ c ∈ p.2, c.isDigit

/-- Where digits stand, the sign of a number does not. -/
theorem head_ne {digits rest : List Char} {mark : Char} (hmark : mark.isDigit = false)
    (hdigits : ∀ c ∈ digits, c.isDigit) (hrest : ∀ c ∈ rest.head?, c ≠ mark) :
    ∀ c ∈ (digits ++ rest).head?, c ≠ mark := by
  cases digits with
  | nil => exact hrest
  | cons d ds =>
    rintro c ⟨⟩ rfl
    exact absurd (hdigits d List.mem_cons_self) (by simp [hmark])

theorem readMinus_of_head {cs : List Char} (h : ∀ c ∈ cs.head?, c ≠ '-') :
    readMinus cs = (false, cs) := by
  rw [readMinus.eq_def]
  split
  · exact absurd rfl (h '-' rfl)
  · rfl

theorem takeSign_of_head {cs : List Char} (hminus : ∀ c ∈ cs.head?, c ≠ '-')
    (hplus : ∀ c ∈ cs.head?, c ≠ '+') : takeSign cs = (false, cs) := by
  rw [takeSign.eq_def]
  split
  · exact absurd rfl (hminus '-' rfl)
  · exact absurd rfl (hplus '+' rfl)
  · rfl

variable {n : Numeral} {rest : List Char}

theorem readPower_powerChars (h : n.HasDigits) (hrest : EndsNumber rest) :
    readPower (n.powerChars ++ rest) = (n.power, rest) := by
  have hdigit : ∀ c ∈ rest.head?, c.isDigit = false := fun c hc => (hrest c hc).1
  have hmark (mark : Char) (hmem : mark ∈ ['.', 'e', 'E', '+', '-']) :
      ∀ c ∈ rest.head?, c ≠ mark := by
    rintro c hc rfl
    exact (hrest c hc).2 hmem
  rw [powerChars]
  cases hpower : n.power with
  | none =>
    rw [Option.elim_none, List.nil_append, readPower.eq_def]
    split
    · exact absurd rfl (hmark 'e' (by decide) 'e' rfl)
    · exact absurd rfl (hmark 'E' (by decide) 'E' rfl)
    · rfl
  | some p =>
    obtain ⟨negative, digits⟩ := p
    have hdigits := h.power _ hpower
    have hread : readSigned (signed negative digits ++ rest) = ((negative, digits), rest) := by
      cases negative with
      | true =>
        simp only [signed, if_true, List.cons_append, readSigned, takeSign,
          takeWhile_digits hdigits hdigit, dropWhile_digits hdigits hdigit]
      | false =>
        rw [signed, if_neg (by decide), readSigned, takeSign_of_head
          (head_ne (by decide) hdigits (hmark '-' (by decide)))
          (head_ne (by decide) hdigits (hmark '+' (by decide)))]
        simp only [takeWhile_digits hdigits hdigit, dropWhile_digits hdigits hdigit]
    rw [Option.elim_some, List.cons_append, readPower, hread]

theorem readFraction_fractionChars (h : n.HasDigits)
    (hrest : ∀ c ∈ rest.head?, c.isDigit = false ∧ c ≠ '.') :
    readFraction (n.fractionChars ++ rest) = (n.fraction, rest) := by
  have hdigit : ∀ c ∈ rest.head?, c.isDigit = false := fun c hc => (hrest c hc).1
  rw [fractionChars]
  cases hfraction : n.fraction with
  | none =>
    rw [Option.elim_none, List.nil_append, readFraction.eq_def]
    split
    · exact absurd rfl (hrest '.' rfl).2
    · rfl
  | some digits =>
    have hdigits := h.fraction _ hfraction
    rw [Option.elim_some, List.cons_append, readFraction, takeWhile_digits hdigits hdigit,
      dropWhile_digits hdigits hdigit]

/-- What follows the digits before the point is no digit and no minus. -/
theorem head_tail (hrest : EndsNumber rest) :
    ∀ c ∈ (n.fractionChars ++ (n.powerChars ++ rest)).head?, c.isDigit = false ∧ c ≠ '-' := by
  have hend : ∀ c ∈ rest.head?, c.isDigit = false ∧ c ≠ '-' := fun c hc =>
    ⟨(hrest c hc).1, by rintro rfl; exact (hrest _ hc).2 (by decide)⟩
  rw [fractionChars, powerChars]
  cases n.fraction with
  | some digits =>
    rintro c ⟨⟩
    decide
  | none =>
    cases n.power with
    | some p =>
      rintro c ⟨⟩
      decide
    | none => exact hend

/-- A number is read back from its characters. -/
theorem read_chars (h : n.HasDigits) (hrest : EndsNumber rest) :
    read (n.chars ++ rest) = (n, rest) := by
  have htail := head_tail (n := n) hrest
  have hdigit := fun c hc => (htail c hc).1
  have hpowerHead : ∀ c ∈ (n.powerChars ++ rest).head?, c.isDigit = false ∧ c ≠ '.' := by
    rw [powerChars]
    cases n.power with
    | some p =>
      rintro c ⟨⟩
      decide
    | none => exact fun c hc => ⟨(hrest c hc).1, by rintro rfl; exact (hrest _ hc).2 (by decide)⟩
  have hminus : readMinus (signed n.negative n.whole ++ (n.fractionChars ++ (n.powerChars ++ rest))) =
      (n.negative, n.whole ++ (n.fractionChars ++ (n.powerChars ++ rest))) := by
    cases n.negative with
    | true => rfl
    | false => exact readMinus_of_head (head_ne (by decide) h.whole fun c hc => (htail c hc).2)
  rw [chars, List.append_assoc, List.append_assoc, read, hminus]
  simp only [takeWhile_digits h.whole hdigit, dropWhile_digits h.whole hdigit,
    readFraction_fractionChars h hpowerHead, readPower_powerChars h hrest]

/-- A number is read as its value, and the reader stops behind it. -/
theorem readNumber_chars [NumberReader] (h : n.HasDigits) (hrest : EndsNumber rest) :
    readNumber (n.chars ++ rest) = n.value?.map (·, rest) := by
  rw [readNumber, read_chars h hrest]

end Numeral

/-! ## What is written as a number -/

/-- Whether characters are those of a number. -/
def IsNumber (cs : List Char) : Prop :=
  ∃ n : Numeral, n.HasDigits ∧ n.whole ≠ [] ∧ cs = n.chars

/-- A sign may stand in front of a number without one. -/
theorem isNumber_signed {n : Numeral} (h : n.HasDigits) (hne : n.whole ≠ [])
    (hpositive : n.negative = false) (negative : Bool) :
    IsNumber (Numeral.signed negative n.chars) := by
  refine ⟨{ n with negative := negative }, ⟨h.whole, h.fraction, h.power⟩, hne, ?_⟩
  rw [Numeral.chars, hpositive]
  cases negative <;> rfl

theorem isDigit_of_mem_zeros {k : Nat} {c : Char} (h : c ∈ List.replicate k '0') :
    c.isDigit = true := by
  rw [List.eq_of_mem_replicate h]
  rfl

/-- A whole number is written as a number. -/
theorem toList_toString_int (i : Int) :
    (toString i).toList = Numeral.signed (i < 0) (Decimal.digitChars i.natAbs) := by
  rw [Int.toString_eq_repr, Int.repr_eq_if]
  by_cases h : i < 0
  · have hnat : (-i).toNat = i.natAbs := by omega
    simp [Numeral.signed, Decimal.digitChars, h, hnat, Int.not_le.2 h]
  · have hnat : i.toNat = i.natAbs := by omega
    simp [Numeral.signed, Decimal.digitChars, h, hnat, Int.not_lt.1 h]

/-- The parts of a whole number. -/
def Numeral.ofInt (i : Int) : Numeral := ⟨i < 0, Decimal.digitChars i.natAbs, none, none⟩

theorem Numeral.hasDigits_ofInt (i : Int) : (ofInt i).HasDigits where
  whole _ := Decimal.isDigit_of_mem_digitChars
  fraction _ h := by cases h
  power _ h := by cases h

theorem Numeral.toList_toString (i : Int) : (toString i).toList = (ofInt i).chars := by
  rw [toList_toString_int, chars, fractionChars, powerChars, ofInt, Option.elim_none,
    Option.elim_none, List.append_nil, List.append_nil]

theorem isNumber_toString (i : Int) : IsNumber (toString i).toList :=
  ⟨.ofInt i, Numeral.hasDigits_ofInt i, Nat.toDigits_ne_nil, Numeral.toList_toString i⟩

/-- Digits with a point among them are a number. -/
theorem isNumber_positional {cs : List Char} (hne : cs ≠ []) (hdigits : ∀ c ∈ cs, c.isDigit)
    (position : Int) (negative : Bool) :
    IsNumber (Numeral.signed negative (Decimal.positional cs position)) := by
  rw [Decimal.positional]
  split
  case isTrue =>
    -- The point stands in front of all digits.
    have hchars : '0' :: '.' :: List.replicate (-position).toNat '0' ++ cs = Numeral.chars
        ⟨false, ['0'], some (List.replicate (-position).toNat '0' ++ cs), none⟩ := by
      simp [Numeral.chars, Numeral.signed, Numeral.fractionChars, Numeral.powerChars]
    rw [hchars]
    refine isNumber_signed ⟨by simp, ?_, by simp⟩ (by simp) rfl negative
    rintro ds ⟨⟩ c hc
    exact (List.mem_append.1 hc).elim isDigit_of_mem_zeros (hdigits c)
  case isFalse hposition =>
    -- The point stands among the digits or behind them.
    let n := position.toNat
    let fraction := if (cs.drop n).isEmpty then ['0'] else cs.drop n
    have hchars : cs.take n ++ List.replicate (n - cs.length) '0' ++ '.' :: fraction =
        Numeral.chars
          ⟨false, cs.take n ++ List.replicate (n - cs.length) '0', some fraction, none⟩ := by
      simp [Numeral.chars, Numeral.signed, Numeral.fractionChars, Numeral.powerChars]
    have htake : cs.take n ≠ [] := by
      have hpos : n ≠ 0 := by omega
      simpa [List.take_eq_nil_iff, hpos] using hne
    show IsNumber (Numeral.signed negative
      (cs.take n ++ List.replicate (n - cs.length) '0' ++ '.' :: fraction))
    rw [hchars]
    refine isNumber_signed ⟨fun c hc => ?_, ?_, by simp⟩ (by simp [htake]) rfl negative
    · exact (List.mem_append.1 hc).elim (fun hc => hdigits c (List.mem_of_mem_take hc))
        isDigit_of_mem_zeros
    · rintro ds ⟨⟩ c hc
      simp only [fraction] at hc
      split at hc
      · rw [List.mem_singleton.1 hc]
        rfl
      · exact hdigits c (List.mem_of_mem_drop hc)

/-- Digits with a point behind the first one and a power of ten are a number. -/
theorem isNumber_scientific {cs : List Char} (hne : cs ≠ []) (hdigits : ∀ c ∈ cs, c.isDigit)
    (power : Int) (negative : Bool) :
    IsNumber (Numeral.signed negative (Decimal.scientific cs power)) := by
  cases cs with
  | nil => exact absurd rfl hne
  | cons first rest =>
    have hchars : Decimal.scientific (first :: rest) power = Numeral.chars
        ⟨false, [first], if rest.isEmpty then none else some rest,
          some (power < 0, Decimal.digitChars power.natAbs)⟩ := by
      have hpower := toList_toString_int power
      cases rest <;> simp only [Decimal.scientific, hpower, Numeral.chars, Numeral.fractionChars,
        Numeral.powerChars] <;> rfl
    rw [hchars]
    refine isNumber_signed ⟨?_, ?_, ?_⟩ (by simp) rfl negative
    · rintro c hc
      exact hdigits c (List.mem_singleton.1 hc ▸ List.mem_cons_self)
    · intro ds hds c hc
      simp only at hds
      split at hds
      · cases hds
      · cases hds
        exact hdigits c (List.mem_cons_of_mem _ hc)
    · rintro p ⟨⟩ c hc
      exact Decimal.isDigit_of_mem_digitChars hc

/-- A decimal is written as a number. -/
theorem isNumber_text (style : Decimal.Style) (d : Decimal) :
    IsNumber (d.text style).toList := by
  have hne : Decimal.digitChars d.digits ≠ [] := Nat.toDigits_ne_nil
  have hdigits : ∀ c ∈ Decimal.digitChars d.digits, c.isDigit := fun c =>
    Decimal.isDigit_of_mem_digitChars
  rw [Decimal.text, String.toList_ofList]
  change IsNumber (Numeral.signed d.negative _)
  split
  · exact isNumber_signed (n := ⟨false, ['0'], some ['0'], none⟩)
      ⟨by simp, by simp, by simp⟩ (by simp) rfl d.negative
  · split
    · exact isNumber_positional hne hdigits _ d.negative
    · exact isNumber_scientific hne hdigits _ d.negative

/-! ## Whole numbers -/

/-- No zero stands in front of the digits of a number. -/
theorem head?_digitChars_ne {n : Nat} (hn : n ≠ 0) :
    (Decimal.digitChars n).head? ≠ some '0' := by
  induction n using Nat.strongRecOn with
  | ind n ih =>
    rcases Nat.lt_or_ge n 10 with hlt | hge
    · have hdigit : ∀ k < 10, k ≠ 0 → Nat.digitChar k ≠ '0' := by decide
      rw [Decimal.digitChars, Nat.toDigits_of_lt_base hlt, List.head?_cons]
      exact fun h => hdigit n hlt hn (Option.some.inj h)
    · have hne : Nat.toDigits 10 (n / 10) ≠ [] := Nat.toDigits_ne_nil
      rw [Decimal.digitChars, Nat.toDigits_of_base_le (by decide) hge, List.head?_append,
        List.head?_eq_some_head hne, Option.some_or, ← List.head?_eq_some_head hne]
      exact ih (n / 10) (by omega) (by omega)

namespace Numeral

/-- A whole number is kept as one if it fits a word. -/
theorem int?_ofInt (i : Int) :
    (ofInt i).int? = if leastInt ≤ i ∧ i ≤ greatestInt then some i else none := by
  have hvalue : (if i < 0 then -(i.natAbs : Int) else i.natAbs) = i := by
    split <;> omega
  have hzero : (decide (i < 0) && decide (i.natAbs = 0)) = false := by
    simp
    omega
  simp only [int?, ofInt, Decimal.ofDigitChars_digitChars, decide_eq_true_eq, hvalue, hzero]
  simp

theorem isComplete_ofInt (i : Int) : (ofInt i).isComplete = true := by
  have hhead : (Decimal.digitChars i.natAbs).length = 1 ∨
      (Decimal.digitChars i.natAbs).head? ≠ some '0' := by
    by_cases hi : i.natAbs = 0
    · rw [hi]
      exact .inl rfl
    · exact .inr (head?_digitChars_ne hi)
  have hne : Decimal.digitChars i.natAbs ≠ [] := Nat.toDigits_ne_nil
  simp only [isComplete, ofInt, Option.all_none, Bool.and_true, List.isEmpty_eq_false_iff.2 hne,
    Bool.not_false, Bool.true_and, Bool.or_eq_true]
  exact hhead.imp decide_eq_true decide_eq_true

/-- A whole number that fits a word is read as itself, and no other is read as a whole number. -/
theorem bind_value?_ofInt [NumberReader] (i : Int) :
    (ofInt i).value?.bind Json.int? = if leastInt ≤ i ∧ i ≤ greatestInt then some i else none := by
  rw [value?, if_pos (isComplete_ofInt i), int?_ofInt]
  by_cases hword : leastInt ≤ i ∧ i ≤ greatestInt
  · rw [if_pos hword]
    rfl
  · have hdouble (x : Float) : (ofFloat x).int? = none := by
      rw [ofFloat]
      split <;> rfl
    rw [if_neg hword]
    simp only [Option.bind_map, Option.bind_eq_none_iff]
    exact fun x _ => hdouble x

end Numeral

end StreamCatalog.Json
