import NestStarter.Shared.Timezone

/-! # Calendar days of a timezone

`timezone.util.ts` knows a local day in two ways: as the date that the clocks show at an instant,
and as the range of instants between two midnights. Where each of these midnights is shown once
the two agree, whatever the clocks do in between.
-/

namespace NestStarter.Shared

open Core.Calendar Core.Offsets

variable (other : String → Option Int)

/-- `en-CA` writes a date as ISO 8601 does; years before 1 are counted backwards. -/
def formatDate (d : Date) : String :=
  dayText { d with year := if d.year < 1 then 1 - d.year else d.year }

/-- `none` where the date is invalid: formatting it throws. -/
def localDayOf (instant : Int) (tz : Zone) : Option String := do
  let t ← timeClip instant
  some (formatDate (readingOf (t + tz.offset t)).toDate)

structure DayBounds where
  start : Option Int
  end_ : Option Int
  deriving DecidableEq, Repr

def localDayBoundsToUtc (localDay : String) (tz : Zone) : DayBounds where
  start := localTimeToUtc other localDay "00:00" tz
  end_ := localTimeToUtc other (addOneLocalDay other localDay) "00:00" tz

variable {other} {d : Date} {tz : Zone}

theorem dayText_inj {d d' : Date} (hd : d.Valid) (hd' : d'.Valid) (hyear : 0 ≤ d.year)
    (hyear' : 0 ≤ d'.year) (h : dayText d = dayText d') : d = d' := by
  have htext := numbers_dayText (fun _ => none) hd hyear
  rw [h, numbers_dayText (fun _ => none) hd' hyear'] at htext
  obtain ⟨year, month, day⟩ := d
  obtain ⟨year', month', day'⟩ := d'
  simp only [List.cons.injEq, Option.some.injEq, and_true] at htext
  obtain ⟨hy, hm, hday⟩ := htext
  simp only [Date.mk.injEq]
  omega

/-- The clock shows a date from its midnight to the next. -/
theorem toDate_readingOf_eq_iff (hd : d.Valid) (t : Int) :
    (readingOf t).toDate = d ↔ wallTime d 0 0 ≤ t ∧ t < wallTime d 24 0 := by
  have hday : (readingOf t).toDate = d ↔ t / 86400000 = makeDay d.year d.month d.day := by
    constructor
    · intro h
      rw [← h]
      exact (makeDay_dateOfDay _).symm
    · intro h
      simp only [readingOf]
      rw [h, dateOfDay_makeDay hd]
  rw [hday]
  simp only [wallTime, makeTime]
  omega

theorem formatDate_eq {d : Date} (h : 1 ≤ d.year) : formatDate d = dayText d := by
  rw [formatDate, if_neg (by omega)]

theorem localDayOf_eq {t : Int} (ht : Common t) (tz : Zone) :
    localDayOf t tz = some (dayText (readingOf (t + tz.offset t)).toDate) := by
  have hyear := year_of_common ht (tz.bounded t).1
  have hclip : timeClip t = some t := by
    unfold Common at ht
    exact timeClip_of_bounds (by omega) (by omega)
  simp only [localDayOf, hclip, Option.bind_eq_bind, Option.bind_some]
  rw [formatDate_eq (by omega)]

/-! ## The two views of a day -/

/-- The midnight that a day begins with is shown once, and so is the one it ends with. -/
structure PlainDay (tz : Zone) (d : Date) (start end_ : Int) : Prop where
  calendar : CalendarDay d
  starts : Occurs tz d 0 0 start
  startsOnce : ∀ u, Occurs tz d 0 0 u → u = start
  ends : Occurs tz d 24 0 end_
  endsOnce : ∀ u, Occurs tz d 24 0 u → u = end_

theorem clockTime_midnight : ClockTime 0 0 := ⟨by decide, by decide, by decide⟩

theorem clockTime_sentinel : ClockTime 24 0 := ⟨by decide, by decide, by decide⟩

/-- From an instant whose wall-clock time is shown once the clocks never show less. -/
theorem wallTime_le_iff {h mi u : Int} (hd : d.Valid) (ht : ClockTime h mi)
    (hu : Occurs tz d h mi u) (hunique : ∀ v, Occurs tz d h mi v → v = u) (t : Int) :
    wallTime d h mi ≤ t + tz.offset t ↔ u ≤ t :=
  le_iff_of_shown_once tz.isolated tz.bounded (by decide) ((occurs_iff hd ht u).1 hu)
    (fun v hv => hunique v ((occurs_iff hd ht v).2 hv)) t

theorem PlainDay.toDate_iff {start end_ : Int} (h : PlainDay tz d start end_) (t : Int) :
    (readingOf (t + tz.offset t)).toDate = d ↔ start ≤ t ∧ t < end_ := by
  have hstart := wallTime_le_iff h.calendar.valid clockTime_midnight h.starts h.startsOnce t
  have hend := wallTime_le_iff h.calendar.valid clockTime_sentinel h.ends h.endsOnce t
  rw [toDate_readingOf_eq_iff h.calendar.valid, hstart]
  omega

theorem PlainDay.bounds_eq {start end_ : Int} (h : PlainDay tz d start end_) :
    localDayBoundsToUtc other (dayText d) tz = ⟨some start, some end_⟩ := by
  have hstart := localTimeToUtc_of_unique other h.calendar clockTime_midnight h.starts h.startsOnce
  have hend := localTimeToUtc_of_unique other h.calendar clockTime_sentinel h.ends h.endsOnce
  have hmidnight : timeText 0 0 = "00:00" := rfl
  have hsentinel : timeText 24 0 = "24:00" := rfl
  have hnext : localTimeToUtc other (addOneLocalDay other (dayText d)) "00:00" tz =
      wallTimeToUtc other (addOneLocalDay other (dayText d)) "00:00" tz := if_neg (by decide)
  rw [hmidnight] at hstart
  rw [hsentinel, localTimeToUtc, if_pos rfl, ← hnext] at hend
  rw [localDayBoundsToUtc, hstart, hend]

/-- The instants whose local day is `d` are those between its bounds, and a day lasts 24 hours but
for what the clocks were moved in between. -/
theorem localDayOf_iff_bounds (other : String → Option Int) (tz : Zone) (d : Date)
    (start end_ : Int) (h : PlainDay tz d start end_) :
    localDayBoundsToUtc other (dayText d) tz = ⟨some start, some end_⟩ ∧
      (∀ t, Common t → (localDayOf t tz = some (dayText d) ↔ start ≤ t ∧ t < end_)) ∧
      end_ - start = 86400000 - (tz.offset end_ - tz.offset start) := by
  refine ⟨h.bounds_eq, fun t ht => ?_, ?_⟩
  · rw [localDayOf_eq ht, Option.some.injEq, ← h.toDate_iff t]
    constructor
    · intro htext
      have hyear := year_of_common ht (tz.bounded t).1
      have hcal := h.calendar.year
      exact dayText_inj (valid_readingOf _).date h.calendar.valid (by omega) (by omega) htext
    · intro hdate
      rw [hdate]
  · have hs := (occurs_iff h.calendar.valid clockTime_midnight start).1 h.starts
    have he := (occurs_iff h.calendar.valid clockTime_sentinel end_).1 h.ends
    simp only [wallTime, makeTime] at hs he
    omega

/-- The day on which New York's clocks went forward lasts 23 hours. -/
theorem localDayOf_iff_bounds_newYork :
    PlainDay newYork ⟨2024, 2, 10⟩ 1710046800000 1710129600000 ∧
      localDayBoundsToUtc (fun _ => none) "2024-03-10" newYork =
        ⟨some 1710046800000, some 1710129600000⟩ ∧
      localDayOf 1710129599999 newYork = some "2024-03-10" := by
  have hd : CalendarDay ⟨2024, 2, 10⟩ := ⟨⟨by decide, by decide, by decide, by decide⟩, by decide⟩
  have hstart : ∀ u, Occurs newYork ⟨2024, 2, 10⟩ 0 0 u ↔ u = 1710046800000 := by
    intro u
    rw [occurs_iff hd.valid clockTime_midnight, show wallTime ⟨2024, 2, 10⟩ 0 0 = 1710028800000
      from by decide]
    show u + (if u < 1710054000000 then -18000000 else -14400000) = 1710028800000 ↔ _
    split <;> omega
  have hend : ∀ u, Occurs newYork ⟨2024, 2, 10⟩ 24 0 u ↔ u = 1710129600000 := by
    intro u
    rw [occurs_iff hd.valid clockTime_sentinel, show wallTime ⟨2024, 2, 10⟩ 24 0 = 1710115200000
      from by decide]
    show u + (if u < 1710054000000 then -18000000 else -14400000) = 1710115200000 ↔ _
    split <;> omega
  have hplain : PlainDay newYork ⟨2024, 2, 10⟩ 1710046800000 1710129600000 :=
    ⟨hd, (hstart _).2 rfl, fun u hu => (hstart u).1 hu, (hend _).2 rfl, fun u hu => (hend u).1 hu⟩
  have htext : dayText ⟨2024, 2, 10⟩ = "2024-03-10" := rfl
  obtain ⟨hbounds, hday, _⟩ :=
    localDayOf_iff_bounds (fun _ => none) newYork ⟨2024, 2, 10⟩ _ _ hplain
  rw [htext] at hbounds hday
  have hcommon : Common 1710129599999 := by
    unfold Common
    decide
  exact ⟨hplain, hbounds, (hday _ hcommon).2 (by decide)⟩

end NestStarter.Shared
