import Mathlib.Data.Int.Basic

/-! # Days and clock readings

Dates of the Gregorian calendar, extended to every year, as numbers of days and of
milliseconds since 1970. Months count from 0.
-/

namespace NestStarter.Core.Calendar

def dayFromYear (y : Int) : Int :=
  365 * (y - 1970) + (y - 1969) / 4 - (y - 1901) / 100 + (y - 1601) / 400

def leap (y : Int) : Int :=
  if y % 4 = 0 ∧ (y % 100 ≠ 0 ∨ y % 400 = 0) then 1 else 0

theorem leap_cases (y : Int) : leap y = 0 ∨ leap y = 1 := by
  unfold leap
  split
  · exact Or.inr rfl
  · exact Or.inl rfl

theorem dayFromYear_succ (y : Int) : dayFromYear (y + 1) = dayFromYear y + 365 + leap y := by
  unfold dayFromYear leap
  split <;> omega

theorem dayFromYear_mono {y y' : Int} (h : y ≤ y') : dayFromYear y ≤ dayFromYear y' := by
  unfold dayFromYear
  omega

/-- The year that a day lies in: the mean length of a year gives it up to one. -/
def yearFromDay (day : Int) : Int :=
  let y := 1970 + day * 400 / 146097
  if day < dayFromYear y then y - 1 else if day < dayFromYear (y + 1) then y else y + 1

theorem estimate_spec {day y : Int} (h : y = 1970 + day * 400 / 146097) :
    dayFromYear (y - 1) ≤ day ∧ day < dayFromYear (y + 1 + 1) := by
  unfold dayFromYear
  omega

theorem yearFromDay_spec (day : Int) :
    dayFromYear (yearFromDay day) ≤ day ∧ day < dayFromYear (yearFromDay day + 1) := by
  unfold yearFromDay
  generalize hy : 1970 + day * 400 / 146097 = y
  have hest := estimate_spec hy.symm
  dsimp only
  split
  · rw [Int.sub_add_cancel]
    exact ⟨hest.1, ‹day < dayFromYear y›⟩
  · split
    · exact ⟨by omega, ‹day < dayFromYear (y + 1)›⟩
    · exact ⟨by omega, hest.2⟩

theorem yearFromDay_eq {y day : Int} (hle : dayFromYear y ≤ day) (hlt : day < dayFromYear (y + 1)) :
    yearFromDay day = y := by
  have hspec := yearFromDay_spec day
  by_contra hne
  rcases Int.lt_or_gt_of_ne hne with hbefore | hafter
  · have := dayFromYear_mono (show yearFromDay day + 1 ≤ y by omega)
    omega
  · have := dayFromYear_mono (show y + 1 ≤ yearFromDay day by omega)
    omega

def daysBeforeMonth (y m : Int) : Int :=
  (367 * m + 5) / 12 - if m ≤ 1 then 0 else 2 - leap y

def daysInMonth (y m : Int) : Int := daysBeforeMonth y (m + 1) - daysBeforeMonth y m

example : [0, 1, 2, 3, 4, 5, 6, 7, 8, 9, 10, 11].map (daysInMonth 2023) =
    [31, 28, 31, 30, 31, 30, 31, 31, 30, 31, 30, 31] := by decide

/-- The month of the day `yd` of a year, from 0. -/
def monthFromYearDay (y yd : Int) : Int :=
  (12 * (yd + if yd < 59 + leap y then 0 else 2 - leap y) + 6) / 367

theorem monthFromYearDay_spec {y yd : Int} (hle : 0 ≤ yd) (hlt : yd < 365 + leap y) :
    0 ≤ monthFromYearDay y yd ∧ monthFromYearDay y yd ≤ 11 ∧
      daysBeforeMonth y (monthFromYearDay y yd) ≤ yd ∧
      yd < daysBeforeMonth y (monthFromYearDay y yd + 1) := by
  unfold monthFromYearDay daysBeforeMonth
  rcases leap_cases y with hl | hl
  · rw [hl] at hlt ⊢
    split <;> split <;> split <;> omega
  · rw [hl] at hlt ⊢
    split <;> split <;> split <;> omega

theorem daysBeforeMonth_mono {y m m' : Int} (hm : m ≤ m') :
    daysBeforeMonth y m ≤ daysBeforeMonth y m' := by
  unfold daysBeforeMonth
  rcases leap_cases y with hl | hl
  · rw [hl]
    split <;> split <;> omega
  · rw [hl]
    split <;> split <;> omega

theorem monthFromYearDay_eq {y m yd : Int} (hm : 0 ≤ m) (hm' : m ≤ 11)
    (hle : daysBeforeMonth y m ≤ yd) (hlt : yd < daysBeforeMonth y (m + 1)) :
    monthFromYearDay y yd = m := by
  have hzero : daysBeforeMonth y 0 ≤ daysBeforeMonth y m := daysBeforeMonth_mono hm
  have htwelve : daysBeforeMonth y (m + 1) ≤ daysBeforeMonth y 12 :=
    daysBeforeMonth_mono (by omega)
  have h0 : daysBeforeMonth y 0 = 0 := by simp [daysBeforeMonth]
  have h12 : daysBeforeMonth y 12 = 365 + leap y := by simp [daysBeforeMonth]; omega
  have hyd : 0 ≤ yd := by omega
  have hyd' : yd < 365 + leap y := by omega
  obtain ⟨-, -, hlow, hhigh⟩ := monthFromYearDay_spec hyd hyd'
  by_contra hne
  rcases Int.lt_or_gt_of_ne hne with hbefore | hafter
  · have := daysBeforeMonth_mono (y := y) (show monthFromYearDay y yd + 1 ≤ m by omega)
    omega
  · have := daysBeforeMonth_mono (y := y) (show m + 1 ≤ monthFromYearDay y yd by omega)
    omega

structure Date where
  year : Int
  month : Int
  day : Int
  deriving DecidableEq, Repr

structure Date.Valid (d : Date) : Prop where
  month_nonneg : 0 ≤ d.month
  month_le : d.month ≤ 11
  one_le_day : 1 ≤ d.day
  day_le : d.day ≤ daysInMonth d.year d.month

/-- The number of a day; a month outside its year counts on into the next ones. -/
def makeDay (year month day : Int) : Int :=
  dayFromYear (year + month / 12) + daysBeforeMonth (year + month / 12) (month % 12) + (day - 1)

def dateOfDay (day : Int) : Date :=
  let year := yearFromDay day
  let month := monthFromYearDay year (day - dayFromYear year)
  { year, month, day := day - dayFromYear year - daysBeforeMonth year month + 1 }

theorem makeDay_of_month {year month : Int} (hm : 0 ≤ month) (hm' : month ≤ 11) (day : Int) :
    makeDay year month day = dayFromYear year + daysBeforeMonth year month + (day - 1) := by
  have hdiv : month / 12 = 0 := by omega
  have hmod : month % 12 = month := by omega
  rw [makeDay, hdiv, hmod, Int.add_zero]

theorem yearDay_bounds (day : Int) :
    0 ≤ day - dayFromYear (yearFromDay day) ∧
      day - dayFromYear (yearFromDay day) < 365 + leap (yearFromDay day) := by
  have hspec := yearFromDay_spec day
  rw [dayFromYear_succ] at hspec
  omega

theorem valid_dateOfDay (day : Int) : (dateOfDay day).Valid := by
  have hbounds := yearDay_bounds day
  obtain ⟨h0, h11, hlow, hhigh⟩ := monthFromYearDay_spec hbounds.1 hbounds.2
  refine ⟨h0, h11, ?_, ?_⟩
  · simp only [dateOfDay]
    omega
  · simp only [dateOfDay, daysInMonth]
    omega

theorem makeDay_dateOfDay (day : Int) :
    makeDay (dateOfDay day).year (dateOfDay day).month (dateOfDay day).day = day := by
  have hvalid := valid_dateOfDay day
  rw [makeDay_of_month hvalid.month_nonneg hvalid.month_le]
  simp only [dateOfDay]
  omega

theorem dateOfDay_makeDay {d : Date} (h : d.Valid) :
    dateOfDay (makeDay d.year d.month d.day) = d := by
  obtain ⟨year, month, day⟩ := d
  obtain ⟨h0, h11, h1, hle⟩ := h
  dsimp only at h0 h11 h1 hle
  rw [daysInMonth] at hle
  have hzero : daysBeforeMonth year 0 ≤ daysBeforeMonth year month := daysBeforeMonth_mono h0
  have htwelve : daysBeforeMonth year (month + 1) ≤ daysBeforeMonth year 12 :=
    daysBeforeMonth_mono (by omega)
  have hfirst : daysBeforeMonth year 0 = 0 := by simp [daysBeforeMonth]
  have hlast : daysBeforeMonth year 12 = 365 + leap year := by simp [daysBeforeMonth]; omega
  have hsucc := dayFromYear_succ year
  have hyear : yearFromDay (makeDay year month day) = year := by
    rw [makeDay_of_month h0 h11]
    exact yearFromDay_eq (by omega) (by omega)
  have hyd : makeDay year month day - dayFromYear year =
      daysBeforeMonth year month + (day - 1) := by
    rw [makeDay_of_month h0 h11]
    omega
  have hmonth : monthFromYearDay year (daysBeforeMonth year month + (day - 1)) = month :=
    monthFromYearDay_eq h0 h11 (by omega) (by omega)
  simp only [dateOfDay, hyear, hyd, hmonth]
  congr 1
  omega

structure Reading extends Date where
  hour : Int
  minute : Int
  second : Int
  deriving DecidableEq, Repr

structure Reading.Valid (r : Reading) : Prop where
  date : r.toDate.Valid
  hour : 0 ≤ r.hour ∧ r.hour ≤ 23
  minute : 0 ≤ r.minute ∧ r.minute ≤ 59
  second : 0 ≤ r.second ∧ r.second ≤ 59

def makeTime (r : Reading) : Int :=
  makeDay r.year r.month r.day * 86400000 + r.hour * 3600000 + r.minute * 60000 + r.second * 1000

def readingOf (t : Int) : Reading where
  toDate := dateOfDay (t / 86400000)
  hour := t % 86400000 / 3600000
  minute := t % 86400000 / 60000 % 60
  second := t % 86400000 / 1000 % 60

theorem makeTime_readingOf (t : Int) : makeTime (readingOf t) = t - t % 1000 := by
  simp only [makeTime, readingOf, makeDay_dateOfDay]
  omega

theorem valid_readingOf (t : Int) : (readingOf t).Valid where
  date := valid_dateOfDay _
  hour := by
    simp only [readingOf]
    omega
  minute := by
    simp only [readingOf]
    omega
  second := by
    simp only [readingOf]
    omega

theorem readingOf_makeTime {r : Reading} (h : r.Valid) : readingOf (makeTime r) = r := by
  obtain ⟨date, hour, minute, second⟩ := r
  obtain ⟨hdate, hh, hmi, hs⟩ := h
  dsimp only at hdate hh hmi hs
  have hday := dateOfDay_makeDay hdate
  simp only [makeTime]
  generalize makeDay date.year date.month date.day = day at hday ⊢
  have hdiv : (day * 86400000 + hour * 3600000 + minute * 60000 + second * 1000) / 86400000 =
      day := by omega
  have hmod : (day * 86400000 + hour * 3600000 + minute * 60000 + second * 1000) % 86400000 =
      hour * 3600000 + minute * 60000 + second * 1000 := by omega
  simp only [readingOf, hdiv, hmod, hday]
  congr 1 <;> omega

end NestStarter.Core.Calendar
