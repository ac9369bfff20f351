import StreamCatalog.Time.Civil

/-!
# The date of a day

Every day has a date of the calendar (`isValid_ofDays`), and the date tells the day
(`toDays_ofDays`).
-/

namespace StreamCatalog.Civil

/-- Whether there is such a date. -/
structure IsValid (d : Civil) : Prop where
  /-- The months are numbered from 1. -/
  month_pos : 1 ≤ d.month
  /-- There are twelve months. -/
  month_le : d.month ≤ 12
  /-- The days are numbered from 1. -/
  day_pos : 1 ≤ d.day
  /-- The month has the day. -/
  day_le : d.day ≤ daysInMonth d.year d.month

/-- The year of a day of an era. -/
def yearOfDay (day : Nat) : Nat := (day - day / 1460 + day / 36524 - day / 146096) / 365

/-- The first day of a year of an era. -/
def firstDay (year : Nat) : Nat := 365 * year + year / 4 - year / 100

/-- A day lies within its year, and in front of a year that is no leap year the year ends a
day earlier. -/
theorem yearOfDay_spec {day : Nat} (h : day < 146097) :
    yearOfDay day < 400 ∧ firstDay (yearOfDay day) ≤ day ∧ day ≤ firstDay (yearOfDay day) + 365 ∧
      (day = firstDay (yearOfDay day) + 365 → (yearOfDay day + 1) % 4 = 0 ∧
        ((yearOfDay day + 1) % 100 = 0 → (yearOfDay day + 1) % 400 = 0)) := by
  by_cases hlast : day = 146096
  · subst hlast
    decide
  · obtain ⟨century, hcentury⟩ : ∃ c, c = day / 36524 := ⟨_, rfl⟩
    have hera : day / 146096 = 0 := by omega
    have hyear : yearOfDay day = (day - day / 1460 + century) / 365 := by
      rw [yearOfDay, hera, hcentury, Nat.sub_zero]
    generalize yearOfDay day = year at hyear ⊢
    have hhundred : year / 100 = century := by omega
    have hlt : year < 400 := by omega
    have hfirst : firstDay year ≤ day := by rw [firstDay]; omega
    have hlast : day ≤ firstDay year + 365 := by rw [firstDay]; omega
    refine ⟨hlt, hfirst, hlast, fun hday => ?_⟩
    rw [firstDay] at hday
    -- The day stands behind the four years of its group.
    have hfour : year / 4 < day / 1460 := by omega
    have hrest : year % 4 = 3 := by
      have hday : 1460 * (year / 4 + 1) ≤ day := by omega
      omega
    refine ⟨by omega, fun hcenturies => ?_⟩
    have hthree : century = 3 := by omega
    omega

/-- The era, the year and the day of that year, counted from March, and the date that they make. -/
theorem exists_ofDays (days : Int) : ∃ era : Int, ∃ year day : Nat, year < 400 ∧ day ≤ 365 ∧
    (day = 365 → (year + 1) % 4 = 0 ∧ ((year + 1) % 100 = 0 → (year + 1) % 400 = 0)) ∧
    days + 719468 = era * 146097 + (firstDay year + day : Nat) ∧
    ∃ month, month = (5 * day + 2) / 153 ∧
      (month < 10 ∧
          ofDays days = ⟨year + era * 400, month + 3, day - (153 * month + 2) / 5 + 1⟩ ∨
        10 ≤ month ∧
          ofDays days = ⟨year + era * 400 + 1, month - 9, day - (153 * month + 2) / 5 + 1⟩) := by
  obtain ⟨day, hday⟩ : ∃ day : Nat, day = ((days + 719468) % 146097).toNat := ⟨_, rfl⟩
  obtain ⟨hyear, hfirst, hlast, hleap⟩ := yearOfDay_spec (show day < 146097 by omega)
  have hofDays : ofDays days =
      let dayOfYear := day - firstDay (yearOfDay day)
      let month := (5 * dayOfYear + 2) / 153
      let month' := if month < 10 then month + 3 else month - 9
      let year : Int := (yearOfDay day : Int) + (days + 719468) / 146097 * 400
      ⟨if month' ≤ 2 then year + 1 else year, month', dayOfYear - (153 * month + 2) / 5 + 1⟩ := by
    rw [ofDays, ← hday]
    rfl
  refine ⟨(days + 719468) / 146097, yearOfDay day, day - firstDay (yearOfDay day), hyear, by omega,
    fun h => hleap (by omega), by omega, _, rfl, ?_⟩
  rw [hofDays]
  simp only []
  by_cases hmonth : (5 * (day - firstDay (yearOfDay day)) + 2) / 153 < 10
  · left
    rw [if_pos hmonth, if_neg (by omega)]
    exact ⟨hmonth, rfl⟩
  · right
    rw [if_neg hmonth, if_pos (by omega)]
    exact ⟨Nat.not_lt.1 hmonth, rfl⟩

theorem isValid_ofDays (days : Int) : (ofDays days).IsValid := by
  obtain ⟨era, year, day, -, hday, hleap, -, month, hmonth, ⟨hlt, h⟩ | ⟨hge, h⟩⟩ :=
    exists_ofDays days
  · rw [h]
    constructor <;> simp only [daysInMonth]
    · omega
    · omega
    · omega
    · rw [if_neg (by omega)]
      split <;> omega
  · rw [h]
    constructor <;> simp only [daysInMonth]
    · omega
    · omega
    · omega
    · split
      · have hleapYear : day = 365 → isLeapYear (year + era * 400 + 1) = true := by
          intro hlast
          obtain ⟨hfour, hcenturies⟩ := hleap hlast
          simp only [isLeapYear, Bool.and_eq_true, Bool.or_eq_true, decide_eq_true_eq]
          omega
        split
        case isTrue => omega
        case isFalse hno =>
          have hday := mt hleapYear hno
          omega
      · split <;> omega

theorem toDays_ofDays (days : Int) : (ofDays days).toDays = days := by
  obtain ⟨era, year, day, hyear, hday, -, hdays, month, hmonth, h⟩ := exists_ofDays days
  have hera : ((year : Int) + era * 400) / 400 = era := by omega
  have hyearOfEra : ((year : Int) + era * 400) % 400 = year := by omega
  rw [firstDay] at hdays
  rcases h with ⟨hlt, h⟩ | ⟨hge, h⟩
  · have hmarch : (month + 3 + 9) % 12 = month := by omega
    simp only [h, toDays, if_neg (show ¬month + 3 ≤ 2 by omega), hera, hyearOfEra, hmarch]
    omega
  · have hmarch : (month - 9 + 9) % 12 = month := by omega
    simp only [h, toDays, if_pos (show month - 9 ≤ 2 by omega), Int.add_sub_cancel, hera,
      hyearOfEra, hmarch]
    omega

end StreamCatalog.Civil
