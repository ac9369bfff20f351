import StreamCatalog.Chunk.Basic
import StreamCatalog.Proofs.Time.Rfc3339

/-!
# The names of chunk files

The name of a file shows the title of its stream, the number of its chunk and the time
(`Chunk.fileName_eq_iff`): the number stands between the last dashes but for the sign
of a year before year 0, and behind the year everything has its width. What a
title may not show is one underscore for each character, so titles that differ there
only have the same files.
-/

namespace StreamCatalog

/-! ## Numbers -/

theorem dash_notMem_padded (width n : Nat) : '-' ∉ (padded width n).toList := fun h =>
  absurd (isDigit_of_mem_padded h) (by decide)

/-- The digits of a number tell the number. -/
theorem padded_inj {width m n : Nat} (h : (padded width m).toList = (padded width n).toList) :
    m = n := by
  rw [← ofDigitChars_padded width m, h, ofDigitChars_padded]

/-- Numbers of one width in front of texts tell the numbers and the texts. -/
theorem padded_append_inj {width m n : Nat} {rest rest' : List Char} (hwidth : 0 < width)
    (hm : m < 10 ^ width) (hn : n < 10 ^ width)
    (h : (padded width m).toList ++ rest = (padded width n).toList ++ rest') :
    m = n ∧ rest = rest' := by
  have hlength := (length_padded hwidth hm).trans (length_padded hwidth hn).symm
  obtain ⟨hdigits, hrest⟩ := List.append_inj h hlength
  exact ⟨padded_inj hdigits, hrest⟩

/-! ## Times -/

/-- A year may begin with a dash, and has no other. -/
theorem exists_yearText_eq (year : Int) :
    ∃ sign digits, (yearText year).toList = sign ++ digits ∧ (sign = [] ∨ sign = ['-']) ∧
      '-' ∉ digits := by
  rw [yearText]
  split
  · exact ⟨['-'], (padded 4 year.natAbs).toList, by rw [String.toList_append]; rfl, .inr rfl,
      dash_notMem_padded _ _⟩
  · split
    · exact ⟨[], (padded 4 year.natAbs).toList, rfl, .inl rfl, dash_notMem_padded _ _⟩
    · refine ⟨[], '+' :: (padded 4 year.natAbs).toList, by rw [String.toList_append]; rfl, .inl rfl,
        ?_⟩
      exact List.not_mem_cons_of_ne_of_not_mem (by decide) (dash_notMem_padded _ _)

/-- The text of a year tells the year. -/
theorem yearText_inj {year year' : Int} (h : (yearText year).toList = (yearText year').toList) :
    year = year' := by
  have hread (year : Int) : Instant.readYear? ((yearText year).toList ++ []) = some (year, []) :=
    Instant.readYear?_yearText year nofun
  have hsame := (hread year).symm.trans ((congrArg (Instant.readYear? <| · ++ []) h).trans (hread year'))
  exact congrArg Prod.fst (Option.some.inj hsame)

namespace Instant

/-- Whether two times lie in the same millisecond. A leap second is one more second of its minute. -/
structure SameMillisecond (t t' : Instant) : Prop where
  /-- The minutes are the same. -/
  minute : t.seconds / 60 = t'.seconds / 60
  /-- The milliseconds within the minute are the same. -/
  millisecond : t.seconds % 60 * 1000 + (t.nanos / 1000000 : Nat) =
    t'.seconds % 60 * 1000 + (t'.nanos / 1000000 : Nat)

/-- Without leap seconds, times lie in the same millisecond if seconds and milliseconds agree. -/
theorem sameMillisecond_iff {t t' : Instant} (ht : t.nanos < nanosPerSecond)
    (ht' : t'.nanos < nanosPerSecond) :
    t.SameMillisecond t' ↔
      t.seconds = t'.seconds ∧ t.nanos / 1000000 = t'.nanos / 1000000 := by
  rw [nanosPerSecond] at ht ht'
  constructor
  · rintro ⟨hminute, hmillisecond⟩
    omega
  · rintro ⟨hseconds, hmillis⟩
    exact ⟨by rw [hseconds], by rw [hseconds, hmillis]⟩

end Instant

namespace Chunk

/-- What stands behind the year in the text of a time. -/
def timeTail (t : Instant) : List Char :=
  (padded 2 t.date.month).toList ++ ((padded 2 t.date.day).toList ++ ('T' ::
    ((padded 2 (t.secondOfDay / 3600)).toList ++ ((padded 2 (t.secondOfDay / 60 % 60)).toList ++
      ((padded 2 (t.secondOfDay % 60 + t.nanos / nanosPerSecond)).toList ++
        ((padded 3 (t.nanos % nanosPerSecond / 1000000)).toList ++ ['Z']))))))

theorem toList_fileTime (t : Instant) :
    (fileTime t).toList = (yearText t.date.year).toList ++ timeTail t := by
  simp [fileTime, timeTail, String.toList_append]

/-- The numbers behind the year have no more digits than they are written with. -/
structure FitsTail (t : Instant) : Prop where
  /-- The month. -/
  month : t.date.month < 10 ^ 2
  /-- The day. -/
  day : t.date.day < 10 ^ 2
  /-- The hour. -/
  hour : t.secondOfDay / 3600 < 10 ^ 2
  /-- The minute. -/
  minute : t.secondOfDay / 60 % 60 < 10 ^ 2
  /-- The second. -/
  second : t.secondOfDay % 60 + t.nanos / nanosPerSecond < 10 ^ 2
  /-- The millisecond. -/
  millisecond : t.nanos % nanosPerSecond / 1000000 < 10 ^ 3

theorem fitsTail {t : Instant} (ht : t.nanos < 2 * nanosPerSecond) : FitsTail t := by
  have hvalid := Civil.isValid_ofDays (t.seconds / secondsPerDay)
  have hmonth : t.date.month ≤ 12 := hvalid.month_le
  have hday : t.date.day ≤ Civil.daysInMonth t.date.year t.date.month := hvalid.day_le
  have hlast : Civil.daysInMonth t.date.year t.date.month ≤ 31 := by
    rw [Civil.daysInMonth]
    repeat' split
    all_goals decide
  have hsecond : t.secondOfDay < 86400 := by
    rw [Instant.secondOfDay, secondsPerDay]
    omega
  rw [nanosPerSecond] at ht
  constructor
  case second =>
    rw [nanosPerSecond]
    omega
  case millisecond =>
    rw [nanosPerSecond]
    omega
  all_goals omega

theorem length_timeTail {t : Instant} (h : FitsTail t) : (timeTail t).length = 15 := by
  simp only [timeTail, List.length_append, List.length_cons, List.length_nil,
    length_padded (by decide) h.month, length_padded (by decide) h.day,
    length_padded (by decide) h.hour, length_padded (by decide) h.minute,
    length_padded (by decide) h.second, length_padded (by decide) h.millisecond]

/-- What stands behind the year tells the rest of the date and the time of day. -/
theorem timeTail_inj {t t' : Instant} (h : FitsTail t) (h' : FitsTail t')
    (heq : timeTail t = timeTail t') :
    (t.date.month = t'.date.month ∧ t.date.day = t'.date.day) ∧
      t.secondOfDay / 3600 = t'.secondOfDay / 3600 ∧
      t.secondOfDay / 60 % 60 = t'.secondOfDay / 60 % 60 ∧
      t.secondOfDay % 60 + t.nanos / nanosPerSecond =
        t'.secondOfDay % 60 + t'.nanos / nanosPerSecond ∧
      t.nanos % nanosPerSecond / 1000000 = t'.nanos % nanosPerSecond / 1000000 := by
  obtain ⟨hmonth, heq⟩ := padded_append_inj (by decide) h.month h'.month heq
  obtain ⟨hday, heq⟩ := padded_append_inj (by decide) h.day h'.day heq
  obtain ⟨hhour, heq⟩ := padded_append_inj (by decide) h.hour h'.hour (List.cons.inj heq).2
  obtain ⟨hminute, heq⟩ := padded_append_inj (by decide) h.minute h'.minute heq
  obtain ⟨hsecond, heq⟩ := padded_append_inj (by decide) h.second h'.second heq
  obtain ⟨hmillisecond, -⟩ := padded_append_inj (by decide) h.millisecond h'.millisecond heq
  exact ⟨⟨hmonth, hday⟩, hhour, hminute, hsecond, hmillisecond⟩

/-- The text of a time tells the millisecond, and nothing more. -/
theorem fileTime_eq_iff {t t' : Instant} (ht : t.nanos < 2 * nanosPerSecond)
    (ht' : t'.nanos < 2 * nanosPerSecond) : fileTime t = fileTime t' ↔ t.SameMillisecond t' := by
  constructor
  · intro heq
    have htext := congrArg String.toList heq
    rw [toList_fileTime, toList_fileTime] at htext
    have h := fitsTail ht
    have h' := fitsTail ht'
    obtain ⟨hyear, htail⟩ := List.append_inj' htext ((length_timeTail h).trans (length_timeTail h').symm)
    obtain ⟨⟨hmonth, hday⟩, hhour, hminute, hsecond, hmillisecond⟩ := timeTail_inj h h' htail
    have hdate : t.date = t'.date := by
      calc t.date = ⟨t.date.year, t.date.month, t.date.day⟩ := rfl
        _ = t'.date := by rw [yearText_inj hyear, hmonth, hday]
    have hdays := congrArg Civil.toDays hdate
    rw [Instant.date, Instant.date, Civil.toDays_ofDays, Civil.toDays_ofDays] at hdays
    rw [nanosPerSecond] at hsecond hmillisecond
    rw [Instant.secondOfDay, Instant.secondOfDay] at hhour hminute hsecond
    rw [secondsPerDay] at hdays hhour hminute hsecond
    constructor <;> omega
  · rintro ⟨hminute, hmillisecond⟩
    have hdays : t.seconds / 86400 = t'.seconds / 86400 := by omega
    have hdate : t.date = t'.date := by rw [Instant.date, Instant.date, secondsPerDay, hdays]
    have hclock : t.secondOfDay / 3600 = t'.secondOfDay / 3600 ∧
        t.secondOfDay / 60 % 60 = t'.secondOfDay / 60 % 60 ∧
        t.secondOfDay % 60 + t.nanos / nanosPerSecond =
          t'.secondOfDay % 60 + t'.nanos / nanosPerSecond ∧
        t.nanos % nanosPerSecond / 1000000 = t'.nanos % nanosPerSecond / 1000000 := by
      rw [Instant.secondOfDay, Instant.secondOfDay, secondsPerDay, nanosPerSecond]
      omega
    simp only [fileTime, hdate, hclock]

/-- What follows the number in the name of a file may begin with a dash, and has no other. -/
theorem exists_fileTime_eq (t : Instant) :
    ∃ sign rest, (fileTime t ++ ".ts").toList = sign ++ rest ∧ (sign = [] ∨ sign = ['-']) ∧
      '-' ∉ rest := by
  obtain ⟨sign, digits, hyear, hsign, hdigits⟩ := exists_yearText_eq t.date.year
  simp only [fileTime, String.toList_append, hyear, List.append_assoc]
  refine ⟨sign, _, rfl, hsign, ?_⟩
  simp only [List.mem_append, hdigits, dash_notMem_padded, false_or]
  decide

end Chunk

/-- What stands before and behind the last separator. -/
theorem eq_of_append_cons_eq {α : Type} {a : α} {before before' rest rest' : List α}
    (hrest : a ∉ rest) (hrest' : a ∉ rest') (h : before ++ a :: rest = before' ++ a :: rest') :
    before = before' ∧ rest = rest' := by
  rcases List.append_eq_append_iff.1 h with ⟨middle, hmiddle, htail⟩ | ⟨middle, hmiddle, htail⟩
  · cases middle with
    | nil => exact ⟨by simp [hmiddle], by simpa using htail⟩
    | cons b middle =>
      obtain ⟨-, htail⟩ := List.cons.inj htail
      exact absurd (by simp [htail]) hrest
  · cases middle with
    | nil => exact ⟨by simp [hmiddle], by simpa using htail.symm⟩
    | cons b middle =>
      obtain ⟨-, htail⟩ := List.cons.inj htail
      exact absurd (by simp [htail]) hrest'

namespace Chunk

/-- The parts of the name of a file. -/
theorem toList_fileName (title : String) (n : Nat) (t : Instant) :
    (fileName title n t).toList = (fileTitle title).toList ++ '-' :: ((padded 5 n).toList ++ '-' ::
      (fileTime t ++ ".ts").toList) := by
  simp [fileName, String.toList_append]

/-- The name of a file tells what it shows of the title, the number and the text of the time. -/
theorem parts_eq_of_fileName_eq {title title' : String} {n n' : Nat} {t t' : Instant}
    (h : fileName title n t = fileName title' n' t') :
    fileTitle title = fileTitle title' ∧ n = n' ∧ fileTime t = fileTime t' := by
  have htext := congrArg String.toList h
  obtain ⟨sign, rest, htime, hsign, hrest⟩ := exists_fileTime_eq t
  obtain ⟨sign', rest', htime', hsign', hrest'⟩ := exists_fileTime_eq t'
  rw [toList_fileName, toList_fileName, htime, htime'] at htext
  have hnumber := dash_notMem_padded 5 n
  have hnumber' := dash_notMem_padded 5 n'
  -- The last dash is the sign of the year, or stands behind the number.
  have hsplit : (fileTitle title).toList ++ '-' :: (padded 5 n).toList ++ sign =
      (fileTitle title').toList ++ '-' :: (padded 5 n').toList ++ sign' ∧ rest = rest' := by
    rcases hsign with rfl | rfl <;> rcases hsign' with rfl | rfl <;>
      exact eq_of_append_cons_eq hrest hrest' (by simpa using htext)
  obtain ⟨hbehind, rfl⟩ := hsplit
  have hsame : sign = sign' := by
    rcases hsign with rfl | rfl <;> rcases hsign' with rfl | rfl
    · rfl
    · rw [List.append_nil] at hbehind
      exact absurd (eq_of_append_cons_eq hnumber List.not_mem_nil hbehind).2
        (padded_toList_ne_nil 5 n)
    · rw [List.append_nil] at hbehind
      exact absurd (eq_of_append_cons_eq hnumber' List.not_mem_nil hbehind.symm).2
        (padded_toList_ne_nil 5 n')
    · rfl
  subst hsame
  obtain ⟨htitle, hdigits⟩ :=
    eq_of_append_cons_eq hnumber hnumber' (List.append_cancel_right hbehind)
  refine ⟨String.toList_injective htitle, padded_inj hdigits, ?_⟩
  have hending := String.toList_injective (htime.trans htime'.symm)
  exact String.append_left_inj ".ts" |>.1 hending

/-- Files of one name belong to chunks of one number. -/
theorem sequence_eq_of_fileName_eq {title title' : String} {n n' : Nat} {t t' : Instant}
    (h : fileName title n t = fileName title' n' t') : n = n' :=
  (parts_eq_of_fileName_eq h).2.1

/-- Names of files are the same for the same shown title, number and millisecond only. -/
theorem fileName_eq_iff {title title' : String} {n n' : Nat} {t t' : Instant}
    (ht : t.nanos < 2 * nanosPerSecond) (ht' : t'.nanos < 2 * nanosPerSecond) :
    fileName title n t = fileName title' n' t' ↔
      fileTitle title = fileTitle title' ∧ n = n' ∧ t.SameMillisecond t' := by
  constructor
  · intro h
    obtain ⟨htitle, hnumber, htime⟩ := parts_eq_of_fileName_eq h
    exact ⟨htitle, hnumber, (fileTime_eq_iff ht ht').1 htime⟩
  · rintro ⟨htitle, rfl, htime⟩
    rw [fileName, fileName, htitle, (fileTime_eq_iff ht ht').2 htime]

/-! ## Characters -/

theorem isFileChar_of_mem_padded {width n : Nat} {c : Char} (h : c ∈ (padded width n).toList) :
    isFileChar c = true := by
  simp [isFileChar, Char.isAlphanum, isDigit_of_mem_padded h]

theorem isFileChar_of_mem_fileTitle {title : String} {c : Char} (h : c ∈ (fileTitle title).toList) :
    isFileChar c = true := by
  rw [fileTitle, String.toList_map] at h
  obtain ⟨given, -, rfl⟩ := List.mem_map.1 h
  split
  · assumption
  · rfl

theorem isFileChar_of_mem_yearText {year : Int} (hyear : year ≤ 9999) {c : Char}
    (h : c ∈ (yearText year).toList) : isFileChar c = true := by
  rw [yearText, if_pos hyear] at h
  split at h
  · rw [String.toList_append, List.mem_append] at h
    rcases h with h | h
    · rw [List.mem_singleton.1 h]
      rfl
    · exact isFileChar_of_mem_padded h
  · exact isFileChar_of_mem_padded h

theorem isFileChar_of_mem_timeTail {t : Instant} {c : Char} (h : c ∈ timeTail t) :
    isFileChar c = true := by
  simp only [timeTail, List.mem_append, List.mem_cons, List.not_mem_nil, or_false] at h
  rcases h with h | h | rfl | h | h | h | h | rfl
  case inr.inr.inl => rfl
  case inr.inr.inr.inr.inr.inr.inr => rfl
  all_goals exact isFileChar_of_mem_padded h

/-- Up to the year 9999 the name of a file has letters, digits, dashes and underscores in front of
its ending, so it names a file of the directory itself. -/
theorem exists_fileName_eq (title : String) (n : Nat) {t : Instant} (h : t.date.year ≤ 9999) :
    ∃ stem, (fileName title n t).toList = stem ++ ['.', 't', 's'] ∧
      ∀ c ∈ stem, isFileChar c = true := by
  refine ⟨(fileTitle title).toList ++ '-' :: ((padded 5 n).toList ++ '-' :: (fileTime t).toList),
    by simp [toList_fileName, String.toList_append], fun c hc => ?_⟩
  simp only [toList_fileTime, List.mem_append, List.mem_cons] at hc
  rcases hc with hc | rfl | hc | rfl | hc | hc
  · exact isFileChar_of_mem_fileTitle hc
  · rfl
  · exact isFileChar_of_mem_padded hc
  · rfl
  · exact isFileChar_of_mem_yearText h hc
  · exact isFileChar_of_mem_timeTail hc

end Chunk

end StreamCatalog
