import Mathlib.Tactic.Use
import QuoteFeed.Time.Calendar

/-!
# Days and dates

The date of a day is in the calendar (`isValid_dateOfDay`), and its day is the day again
(`dayOfDate_dateOfDay`).  An era has four centuries, a century twenty-five spans of four years; a
year of 366 days is the last of its span, and of the last span of a century only in the last century
(`exists_cycles`).
-/

namespace QuoteFeed.Time

/-- The days of an era before the first of March of one of its years. -/
def daysBefore (yoe : Nat) : Nat :=
  yoe * 365 + yoe / 4 - yoe / 100

/-- The date of a day of a year of an era. -/
def dateInEra (era : Int) (yoe doy : Nat) : Date :=
  let mp := (5 * doy + 2) / 153
  let month := if mp < 10 then mp + 3 else mp - 9
  { year := era * 400 + yoe + (if month ≤ 2 then 1 else 0)
    month
    day := doy - (153 * mp + 2) / 5 + 1 }

/-! ### Years -/

/-- The centuries, the spans of four years, the years and the days before a day of an era. -/
theorem exists_cycles {doe : Nat} (h : doe < 146097) :
  ∃ c a b doy, c < 4 ∧ a < 25 ∧ b < 4 ∧ doy ≤ 365 ∧ (doy = 365 → b = 3 ∧ (a = 24 → c = 3)) ∧
    doe = 36524 * c + 1461 * a + 365 * b + doy
  := by
  let c := min (doe / 36524) 3
  let doc := doe - 36524 * c
  let a := doc / 1461
  let b := min (doc % 1461 / 365) 3
  use c, a, b, doc % 1461 - 365 * b
  omega

/-- The year of a day of an era, from the number of leap days before. -/
theorem yearOfEra_eq {c a b doy doe : Nat} (hc : c < 4) (ha : a < 25) (hb : b < 4)
    (hd : doy ≤ 365) (hl : doy = 365 → b = 3 ∧ (a = 24 → c = 3))
    (h : doe = 36524 * c + 1461 * a + 365 * b + doy) :
  (doe - doe / 1460 + doe / 36524 - doe / 146096) / 365 = 100 * c + 4 * a + b
  := by
  have hcent : doe / 36524 = c + doe / 146096 := by
    obtain hlast | hlast : doe = 146096 ∨ doe < 146096 := by omega
    · obtain rfl : c = 3 := by omega
      rw [hlast]
    · have : 36524 * c ≤ doe ∧ doe < 36524 * (c + 1) := by omega
      omega
  have hspan : doe / 1460 = 25 * c + a ∧ doy < 365 ∨ doe / 1460 = 25 * c + a + 1 ∧ 0 < doy := by
    omega
  omega

/-- A day of an era is in a year of 365 days or at the end of a leap year. -/
theorem exists_year {doe : Nat} (h : doe < 146097) :
  ∃ yoe doy, yoe < 400 ∧ doy ≤ 365 ∧
    (doy = 365 → (yoe + 1) % 4 = 0 ∧ ((yoe + 1) % 100 = 0 → (yoe + 1) % 400 = 0)) ∧
    doe = daysBefore yoe + doy ∧
    (doe - doe / 1460 + doe / 36524 - doe / 146096) / 365 = yoe
  := by
  obtain ⟨c, a, b, doy, hc, ha, hb, hd, hl, h⟩ := exists_cycles h
  use 100 * c + 4 * a + b, doy
  refine ⟨by omega, hd, by omega, ?_, yearOfEra_eq hc ha hb hd hl h⟩
  have h4 : (100 * c + 4 * a + b) / 4 = 25 * c + a := by omega
  have h100 : (100 * c + 4 * a + b) / 100 = c := by omega
  rw [daysBefore, h4, h100]
  omega

theorem isLeap_iff {era : Int} {n : Nat} :
  isLeap (era * 400 + n) = true ↔ n % 4 = 0 ∧ (n % 100 = 0 → n % 400 = 0)
  := by
  simp only [isLeap, Bool.and_eq_true, Bool.or_eq_true, beq_iff_eq, bne_iff_ne]
  omega

/-- A day is in a year of an era. -/
theorem exists_dateInEra (day : Int) :
  ∃ (era : Int) (yoe doy : Nat), yoe < 400 ∧ doy ≤ 365 ∧
    (doy = 365 → isLeap (era * 400 + (yoe + 1 : Nat))) ∧
    day + epochOffset = era * daysPerEra + (daysBefore yoe + doy : Nat) ∧
    dateOfDay day = dateInEra era yoe doy
  := by
  let doe := ((day + epochOffset) % daysPerEra).toNat
  have hlt : doe < 146097 := by
    simp only [doe, daysPerEra]
    omega
  obtain ⟨yoe, doy, hy, hd, hl, h, hyear⟩ := exists_year hlt
  use (day + epochOffset) / daysPerEra, yoe, doy
  refine ⟨hy, hd, ?_, ?_, ?_⟩
  · intro hlast
    rw [isLeap_iff]
    apply hl hlast
  · rw [← h]
    simp only [doe, daysPerEra]
    omega
  · have hrest : doe - (365 * yoe + yoe / 4 - yoe / 100) = doy := by
      rw [daysBefore] at h
      omega
    change dateInEra _ _ (doe - _) = _
    rw [hyear, hrest]

/-! ### Months -/

theorem daysInMonth_le (year : Int) (month : Nat) :
  daysInMonth year month ≤ 31
  := by
  rw [daysInMonth]
  split
  · split <;> decide
  · split <;> decide

/-- The months are counted from March in two ways. -/
theorem month_dateInEra (era : Int) (yoe : Nat) {doy mp : Nat} (h : mp = (5 * doy + 2) / 153) :
  mp < 10 ∧ (dateInEra era yoe doy).month = mp + 3 ∨
    10 ≤ mp ∧ (dateInEra era yoe doy).month = mp - 9
  := by
  subst h
  rw [dateInEra]
  dsimp only
  split <;> omega

/-- The day of the date of a day of an era. -/
theorem dayOfDate_dateInEra (era : Int) {yoe doy : Nat} (hy : yoe < 400) (hd : doy ≤ 365) :
  dayOfDate (dateInEra era yoe doy) =
    era * daysPerEra + (daysBefore yoe + doy : Nat) - epochOffset
  := by
  let mp := (5 * doy + 2) / 153
  let d := dateInEra era yoe doy
  have hyear : d.year - (if d.month ≤ 2 then 1 else 0) = era * 400 + yoe := Int.add_sub_cancel _ _
  have hmonth : (if d.month > 2 then d.month - 3 else d.month + 9) = mp := by
    obtain ⟨h, hm⟩ | ⟨h, hm⟩ := month_dateInEra era yoe (rfl : mp = _)
    · rw [hm]
      split <;> omega
    · rw [hm]
      split <;> omega
  have hday : (153 * mp + 2) / 5 + d.day - 1 = doy := by
    simp only [d, dateInEra]
    omega
  have hera : (era * 400 + yoe) / 400 = era := by omega
  have hyoe : ((era * 400 + yoe) % 400).toNat = yoe := by omega
  change dayOfDate d = _
  rw [dayOfDate, hyear, hmonth, hday, hera, hyoe, daysBefore]

/-- The calendar has the date of a day of an era. -/
theorem isValid_dateInEra {era : Int} {yoe doy : Nat} (hd : doy ≤ 365)
    (hl : doy = 365 → isLeap (era * 400 + (yoe + 1 : Nat))) :
  (dateInEra era yoe doy).isValid = true
  := by
  obtain ⟨mp, h⟩ : ∃ mp, mp = (5 * doy + 2) / 153 := ⟨_, rfl⟩
  have hmp : mp ≤ 11 := by omega
  have hmonth := month_dateInEra era yoe h
  have hday : (dateInEra era yoe doy).day = doy - (153 * mp + 2) / 5 + 1 := by
    rw [h, dateInEra]
  simp only [Date.isValid, Bool.and_eq_true, decide_eq_true_eq]
  refine ⟨⟨⟨by omega, by omega⟩, by omega⟩, ?_⟩
  rw [daysInMonth]
  split
  case isTrue hfebruary =>
    have hyear : (dateInEra era yoe doy).year = era * 400 + (yoe + 1 : Nat) := by
      change _ + (if (dateInEra era yoe doy).month ≤ 2 then 1 else 0) = _
      rw [hfebruary, if_pos (Nat.le_refl 2)]
      omega
    rw [hyear]
    split
    case isTrue => omega
    case isFalse hleap =>
      have hlast : doy ≠ 365 := fun hlast => hleap (hl hlast)
      omega
  case isFalse => split <;> omega

/-! ### Dates -/

/-- The date of a day is the date of that day. -/
theorem dayOfDate_dateOfDay (day : Int) :
  dayOfDate (dateOfDay day) = day
  := by
  obtain ⟨era, yoe, doy, hy, hd, -, h, he⟩ := exists_dateInEra day
  rw [he, dayOfDate_dateInEra era hy hd]
  omega

/-- The calendar has the date of every day. -/
theorem isValid_dateOfDay (day : Int) :
  (dateOfDay day).isValid = true
  := by
  obtain ⟨era, yoe, doy, -, hd, hl, -, he⟩ := exists_dateInEra day
  rw [he]
  apply isValid_dateInEra hd hl

end QuoteFeed.Time
