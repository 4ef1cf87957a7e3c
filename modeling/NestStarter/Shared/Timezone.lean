import NestStarter.Core.Calendar
import NestStarter.Core.Offsets
import NestStarter.Domain

/-! # Wall-clock times of a timezone

`timezone.util.ts`: the instant at which the clocks of a timezone show a given minute of a
calendar day. It is found in two steps, each taking the offset at the last guess.
-/

namespace NestStarter.Shared

open Core.Calendar Core.Offsets

/-- A timezone as `Intl` knows it: the milliseconds by which its clocks are ahead. -/
structure Zone where
  offset : Int → Int
  whole_seconds : ∀ t, offset t % 1000 = 0
  bounded : ∀ t, -50400000 ≤ offset t ∧ offset t ≤ 50400000
  isolated : Isolated offset 259200000
  /-- Where the hour of midnight is reported as 24. -/
  midnight24 : Int → Bool

/-- The numbers in the parts that `formatToParts` lists. -/
structure Parts where
  year : Int
  month : Int
  day : Int
  hour : Int
  minute : Int
  second : Int

def Zone.formatToParts (zone : Zone) (t : Int) : Parts :=
  let local' := readingOf (t + zone.offset t)
  { -- years before 1 are counted backwards, their era is not asked for
    year := if local'.year < 1 then 1 - local'.year else local'.year
    month := local'.month + 1
    day := local'.day
    hour := if local'.hour = 0 ∧ zone.midnight24 t then 24 else local'.hour
    minute := local'.minute
    second := local'.second }

/-- The times that a `Date` can have. -/
def timeClip (t : Int) : Option Int :=
  if -8640000000000000 ≤ t ∧ t ≤ 8640000000000000 then some t else none

/-- `Date.UTC`, where `none` is `NaN`. A year below 100 is one of the twentieth century. -/
def dateUTC (year month day hour minute second : Int) : Option Int :=
  timeClip (makeTime
    { year := if 0 ≤ year ∧ year ≤ 99 then 1900 + year else year, month, day, hour, minute,
      second })

def padStart (text : String) (width : Nat) (fill : Char) : String :=
  String.ofList (List.replicate (width - text.length) fill ++ text.toList)

section

variable (other : String → Option Int)

/-- `Number(text)` where it is whole; `none` is `NaN`. What it makes of a text that is not all
digits is `other`. -/
def number (text : String) : Option Int :=
  if text ≠ "" ∧ text.toList.all Char.isDigit then some (Nat.ofDigitChars 10 text.toList 0)
  else other text

def numbers (separator : Char) (text : String) : List (Option Int) :=
  ((text.toList.splitOn separator).map String.ofList).map (number other)

/-- `new Date(instant)` has no parts when it is invalid: formatting it throws. -/
def tzOffsetMs (instantMs : Int) (tz : Zone) : Option Int := do
  let instant ← timeClip instantMs
  let parts := tz.formatToParts instant
  let hour := if parts.hour = 24 then 0 else parts.hour
  let asUtcMs ← dateUTC parts.year (parts.month - 1) parts.day hour parts.minute parts.second
  some (asUtcMs - instantMs)

def dayText (d : Date) : String :=
  toString d.year ++ "-" ++ padStart (toString (d.month + 1)) 2 '0' ++ "-" ++
    padStart (toString d.day) 2 '0'

def addOneLocalDay (localDay : String) : String :=
  let ymd := numbers other '-' localDay
  let next := do
    let y ← ymd[0]?.join
    let mo ← ymd[1]?.join
    let d ← ymd[2]?.join
    let midnight ← dateUTC y (mo - 1) d 0 0 0
    timeClip (midnight + 86400000)
  match next with
  | none => "NaN-NaN-NaN"
  | some t => dayText (readingOf t).toDate

/-- `localTimeToUtc` for a time that is not the sentinel. -/
def wallTimeToUtc (localDay hhmm : String) (tz : Zone) : Option Int := do
  let ymd := numbers other '-' localDay
  let y ← ymd[0]?.join
  let mo ← ymd[1]?.join
  let d ← ymd[2]?.join
  let hm := numbers other ':' hhmm
  let h ← hm[0]?.join
  let mi ← hm[1]?.join
  let literalUtcMs ← dateUTC y (mo - 1) d h mi 0
  let candidate := literalUtcMs - (← tzOffsetMs literalUtcMs tz)
  let candidate := literalUtcMs - (← tzOffsetMs candidate tz)
  timeClip candidate

/-- `none` where it throws or the date it returns is invalid. -/
def localTimeToUtc (localDay hhmm : String) (tz : Zone) : Option Int :=
  if hhmm = "24:00" then wallTimeToUtc other (addOneLocalDay other localDay) "00:00" tz
  else wallTimeToUtc other localDay hhmm tz

def timeText (h mi : Int) : String :=
  padStart (toString h) 2 '0' ++ ":" ++ padStart (toString mi) 2 '0'

example : dayText ⟨2026, 5, 2⟩ = "2026-06-02" ∧ timeText 9 0 = "09:00" := ⟨rfl, rfl⟩

/-- The characters are digits and they write `n`. -/
structure Writes (text : String) (n : Int) : Prop where
  ne : text ≠ ""
  digits : ∀ c ∈ text.toList, c.isDigit = true
  value : (Nat.ofDigitChars 10 text.toList 0 : Int) = n

theorem Writes.number {text : String} {n : Int} (h : Writes text n) :
    number other text = some n := by
  rw [Shared.number, if_pos ⟨h.ne, List.all_eq_true.2 h.digits⟩, h.value]

theorem Writes.notMem {text : String} {n : Int} (h : Writes text n) {c : Char}
    (hc : c.isDigit = false) : c ∉ text.toList := by
  intro hmem
  rw [h.digits c hmem] at hc
  cases hc

theorem writes_toString {n : Int} (hn : 0 ≤ n) : Writes (toString n) n := by
  obtain ⟨m, rfl⟩ := Int.eq_ofNat_of_zero_le hn
  have htext : toString (m : Int) = m.repr := rfl
  rw [htext]
  refine ⟨Nat.repr_ne_empty, ?_, ?_⟩
  · intro c hc
    rw [Nat.toList_repr] at hc
    exact Nat.isDigit_of_mem_toDigits (by decide) (by decide) hc
  · rw [Nat.toList_repr, Nat.ofDigitChars_ten_toDigits]

theorem Writes.padStart {text : String} {n : Int} (h : Writes text n) (width : Nat) :
    Writes (padStart text width '0') n := by
  have hlist : (Shared.padStart text width '0').toList =
      List.replicate (width - text.length) '0' ++ text.toList := by
    rw [Shared.padStart, String.toList_ofList]
  refine ⟨?_, ?_, ?_⟩
  · intro hempty
    rw [hempty] at hlist
    have hnil : text.toList = [] := (List.append_eq_nil_iff.1 hlist.symm).2
    exact h.ne (String.toList_eq_nil_iff.1 hnil)
  · intro c hc
    rw [hlist, List.mem_append] at hc
    cases hc with
    | inl hzero =>
      rw [List.eq_of_mem_replicate hzero]
      rfl
    | inr hmem => exact h.digits c hmem
  · rw [hlist, Nat.ofDigitChars_append, Nat.ofDigitChars_replicate_zero, Nat.mul_zero]
    exact h.value

theorem numbers_pair {a b : String} {m n : Int} {separator : Char} (ha : Writes a m)
    (hb : Writes b n) (hs : separator.isDigit = false) :
    numbers other separator (a ++ String.singleton separator ++ b) = [some m, some n] := by
  rw [numbers, String.toList_append, String.toList_append, String.toList_singleton,
    List.append_assoc, List.singleton_append, List.splitOn_append_cons_self,
    List.splitOn_eq_singleton (ha.notMem hs), List.splitOn_eq_singleton (hb.notMem hs)]
  simp [ha.number other, hb.number other]

theorem numbers_dayText {d : Date} (hd : d.Valid) (hyear : 0 ≤ d.year) :
    numbers other '-' (dayText d) = [some d.year, some (d.month + 1), some d.day] := by
  have hmonth := hd.month_nonneg
  have hday := hd.one_le_day
  have hy : Writes (toString d.year) d.year := writes_toString hyear
  have hmo : Writes (padStart (toString (d.month + 1)) 2 '0') (d.month + 1) :=
    (writes_toString (by omega)).padStart 2
  have hdd : Writes (padStart (toString d.day) 2 '0') d.day :=
    (writes_toString (by omega)).padStart 2
  have hdash : ('-').isDigit = false := rfl
  rw [numbers, dayText]
  simp only [String.toList_append, show "-".toList = ['-'] from rfl, List.append_assoc,
    List.cons_append, List.nil_append]
  rw [List.splitOn_append_cons_self, List.splitOn_append_cons_self,
    List.splitOn_eq_singleton (hy.notMem hdash), List.splitOn_eq_singleton (hmo.notMem hdash),
    List.splitOn_eq_singleton (hdd.notMem hdash)]
  simp only [List.map_cons, List.map_nil, String.ofList_toList,
    hy.number other, hmo.number other, hdd.number other, List.singleton_append]

theorem numbers_timeText {h mi : Int} (hh : 0 ≤ h) (hmi : 0 ≤ mi) :
    numbers other ':' (timeText h mi) = [some h, some mi] :=
  numbers_pair other ((writes_toString hh).padStart 2) ((writes_toString hmi).padStart 2) rfl

theorem timeText_ne_sentinel {h mi : Int} (hh : 0 ≤ h) (hh' : h ≤ 23) (hmi : 0 ≤ mi) :
    timeText h mi ≠ "24:00" := by
  intro heq
  have htext := numbers_timeText (fun _ => none) hh hmi
  have hsentinel := numbers_timeText (fun _ => none) (show (0 : Int) ≤ 24 by omega) (Int.le_refl 0)
  rw [heq] at htext
  rw [show timeText 24 0 = "24:00" from rfl, htext] at hsentinel
  have hhour : h = 24 := by
    injection hsentinel with hhour
    injection hhour
  omega

theorem timeClip_of_bounds {t : Int} (hlow : -8640000000000000 ≤ t)
    (hhigh : t ≤ 8640000000000000) : timeClip t = some t :=
  if_pos ⟨hlow, hhigh⟩

/-- The times from the year 987 to the year 10209: far from the ends of what a `Date` holds and
from the years that `Date.UTC` reads another way. -/
def Common (t : Int) : Prop := -31000000000000 ≤ t ∧ t ≤ 260000000000000

theorem year_of_common {t o : Int} (ht : Common t) (ho : -50400000 ≤ o) :
    100 ≤ (readingOf (t + o)).year := by
  unfold Common at ht
  show 100 ≤ yearFromDay ((t + o) / 86400000)
  have hspec := yearFromDay_spec ((t + o) / 86400000)
  by_contra hlt
  have hmono := dayFromYear_mono (show yearFromDay ((t + o) / 86400000) + 1 ≤ 100 by omega)
  have h100 : dayFromYear 100 = -683003 := by decide
  omega

theorem dateUTC_of_year {y mo d h mi s : Int} (hy : 100 ≤ y) :
    dateUTC y mo d h mi s = timeClip (makeTime ⟨⟨y, mo, d⟩, h, mi, s⟩) := by
  rw [dateUTC, if_neg (by omega)]

theorem tzOffsetMs_eq {t : Int} (ht : Common t) (hsec : t % 1000 = 0) (tz : Zone) :
    tzOffsetMs t tz = some (tz.offset t) := by
  have hbound := tz.bounded t
  have hyear := year_of_common ht hbound.1
  have hhour := (valid_readingOf (t + tz.offset t)).hour
  have hwhole := tz.whole_seconds t
  have htime := makeTime_readingOf (t + tz.offset t)
  unfold Common at ht
  have hclip : timeClip t = some t := timeClip_of_bounds (by omega) (by omega)
  generalize hr : readingOf (t + tz.offset t) = r at hyear hhour htime
  have hparts : tz.formatToParts t = ⟨r.year, r.month + 1, r.day,
      if r.hour = 0 ∧ tz.midnight24 t then 24 else r.hour, r.minute, r.second⟩ := by
    simp only [Zone.formatToParts, hr]
    rw [if_neg (by omega)]
  -- the hour 24 stands for 0
  have hclamp : (if (if r.hour = 0 ∧ tz.midnight24 t then 24 else r.hour) = 24 then 0
      else if r.hour = 0 ∧ tz.midnight24 t then 24 else r.hour) = r.hour := by
    split
    · split at * <;> omega
    · split at * <;> omega
  have hutc : dateUTC r.year (r.month + 1 - 1) r.day r.hour r.minute r.second =
      some (t + tz.offset t) := by
    have htotal : makeTime r = t + tz.offset t := by omega
    rw [dateUTC_of_year hyear, Int.add_sub_cancel]
    show timeClip (makeTime r) = _
    rw [htotal]
    exact timeClip_of_bounds (by omega) (by omega)
  simp only [tzOffsetMs, hclip, hparts, hclamp, hutc, Option.bind_eq_bind, Option.bind_some]
  congr 1
  omega

/-! ## The two passes -/

/-- The time of the day `d` as a clock without an offset shows it. -/
def wallTime (d : Date) (h mi : Int) : Int :=
  makeTime { toDate := d, hour := h, minute := mi, second := 0 }

/-- The day is one of a year of four digits. -/
structure CalendarDay (d : Date) : Prop where
  valid : d.Valid
  year : 1000 ≤ d.year ∧ d.year ≤ 9999

/-- `HH:mm` or `24:00`. -/
structure ClockTime (h mi : Int) : Prop where
  hour : 0 ≤ h ∧ h ≤ 24
  minute : 0 ≤ mi ∧ mi ≤ 59
  sentinel : h = 24 → mi = 0

/-- The wall-clock time, corrected by the offset at the first guess. -/
def twoPasses (tz : Zone) (wall : Int) : Int := wall - tz.offset (wall - tz.offset wall)

theorem makeDay_bounds {d : Date} (hd : d.Valid) :
    dayFromYear d.year ≤ makeDay d.year d.month d.day ∧
      makeDay d.year d.month d.day < dayFromYear (d.year + 1) := by
  have hyear : yearFromDay (makeDay d.year d.month d.day) = d.year :=
    congrArg Date.year (dateOfDay_makeDay hd)
  have hspec := yearFromDay_spec (makeDay d.year d.month d.day)
  rwa [hyear] at hspec

/-- The days from the year 1000 to the year 10000. -/
theorem makeDay_range {d : Date} (hd : d.Valid) (hlow : 1000 ≤ d.year) (hhigh : d.year ≤ 10000) :
    -354285 ≤ makeDay d.year d.month d.day ∧ makeDay d.year d.month d.day < 2933263 := by
  have hbounds := makeDay_bounds hd
  have hfirst := dayFromYear_mono hlow
  have hlast := dayFromYear_mono (show d.year + 1 ≤ 10001 by omega)
  have h1000 : dayFromYear 1000 = -354285 := by decide
  have h10001 : dayFromYear 10001 = 2933263 := by decide
  omega

theorem wallTimeToUtc_eq {d : Date} {h mi : Int} (hd : d.Valid) (hlow : 1000 ≤ d.year)
    (hhigh : d.year ≤ 10000) (hh : 0 ≤ h ∧ h ≤ 23) (hmi : 0 ≤ mi ∧ mi ≤ 59) (tz : Zone) :
    wallTimeToUtc other (dayText d) (timeText h mi) tz = some (twoPasses tz (wallTime d h mi)) := by
  have hday := numbers_dayText other hd (by omega)
  have htime := numbers_timeText other hh.1 hmi.1
  have hrange := makeDay_range hd hlow hhigh
  have hwall : wallTime d h mi =
      makeDay d.year d.month d.day * 86400000 + h * 3600000 + mi * 60000 + 0 * 1000 := rfl
  have hutc : dateUTC d.year (d.month + 1 - 1) d.day h mi 0 = some (wallTime d h mi) := by
    rw [dateUTC_of_year (by omega), Int.add_sub_cancel]
    show timeClip (wallTime d h mi) = _
    exact timeClip_of_bounds (by omega) (by omega)
  have hcommon : Common (wallTime d h mi) := by
    unfold Common
    omega
  have hfirst := tzOffsetMs_eq hcommon (by omega) tz
  have hbound := tz.bounded (wallTime d h mi)
  have hwhole := tz.whole_seconds (wallTime d h mi)
  have hsecond := tzOffsetMs_eq (t := wallTime d h mi - tz.offset (wallTime d h mi))
    (by unfold Common; omega) (by omega) tz
  have hbound' := tz.bounded (wallTime d h mi - tz.offset (wallTime d h mi))
  have hclip : timeClip (twoPasses tz (wallTime d h mi)) =
      some (twoPasses tz (wallTime d h mi)) := by
    unfold twoPasses
    exact timeClip_of_bounds (by omega) (by omega)
  simp only [wallTimeToUtc, hday, htime, List.getElem?_cons_zero, List.getElem?_cons_succ,
    Option.join_some, Option.bind_eq_bind, Option.bind_some, hutc, hfirst, hsecond]
  exact hclip

def nextDay (d : Date) : Date := dateOfDay (makeDay d.year d.month d.day + 1)

theorem addOneLocalDay_eq {d : Date} (hd : CalendarDay d) :
    addOneLocalDay other (dayText d) = dayText (nextDay d) := by
  have hyear := hd.year
  have hday := numbers_dayText other hd.valid (by omega)
  have hrange := makeDay_range hd.valid hyear.1 (by omega)
  have htime : makeTime ⟨⟨d.year, d.month, d.day⟩, 0, 0, 0⟩ =
      makeDay d.year d.month d.day * 86400000 := by
    simp [makeTime]
  have hutc : dateUTC d.year (d.month + 1 - 1) d.day 0 0 0 =
      some (makeDay d.year d.month d.day * 86400000) := by
    rw [dateUTC_of_year (by omega), Int.add_sub_cancel, htime]
    exact timeClip_of_bounds (by omega) (by omega)
  have hclip := timeClip_of_bounds (t := makeDay d.year d.month d.day * 86400000 + 86400000)
    (by omega) (by omega)
  simp only [addOneLocalDay, hday, List.getElem?_cons_zero, List.getElem?_cons_succ,
    Option.join_some, Option.bind_eq_bind, Option.bind_some, hutc, hclip]
  have hdiv : (makeDay d.year d.month d.day * 86400000 + 86400000) / 86400000 =
      makeDay d.year d.month d.day + 1 := by omega
  simp only [readingOf, hdiv, nextDay]

theorem valid_nextDay {d : Date} (hd : CalendarDay d) :
    (nextDay d).Valid ∧ 1000 ≤ (nextDay d).year ∧ (nextDay d).year ≤ 10000 := by
  have hyear := hd.year
  have hbounds := makeDay_bounds hd.valid
  have hspec := yearFromDay_spec (makeDay d.year d.month d.day + 1)
  refine ⟨valid_dateOfDay _, ?_⟩
  show 1000 ≤ yearFromDay (makeDay d.year d.month d.day + 1) ∧
    yearFromDay (makeDay d.year d.month d.day + 1) ≤ 10000
  generalize yearFromDay (makeDay d.year d.month d.day + 1) = y at hspec
  constructor
  · by_contra hlt
    have hbefore := dayFromYear_mono (show y + 1 ≤ d.year by omega)
    omega
  · by_contra hlt
    have hafter := dayFromYear_mono (show d.year + 1 + 1 ≤ y by omega)
    have hsucc := dayFromYear_succ (d.year + 1)
    have hleap := leap_cases (d.year + 1)
    omega

/-- The end of a day is the midnight that the next one begins with. -/
theorem wallTime_nextDay (d : Date) : wallTime (nextDay d) 0 0 = wallTime d 24 0 := by
  simp only [wallTime, makeTime, nextDay, makeDay_dateOfDay]
  omega

theorem localTimeToUtc_eq {d : Date} {h mi : Int} (hd : CalendarDay d) (ht : ClockTime h mi)
    (tz : Zone) :
    localTimeToUtc other (dayText d) (timeText h mi) tz =
      some (twoPasses tz (wallTime d h mi)) := by
  have hhour := ht.hour
  have hyear := hd.year
  unfold localTimeToUtc
  by_cases hsentinel : h = 24
  · obtain rfl := hsentinel
    obtain rfl := ht.sentinel rfl
    obtain ⟨hvalid, hlow, hhigh⟩ := valid_nextDay hd
    rw [if_pos (show timeText 24 0 = "24:00" from rfl), addOneLocalDay_eq other hd,
      show "00:00" = timeText 0 0 from rfl,
      wallTimeToUtc_eq other hvalid hlow hhigh (by omega) (by omega), wallTime_nextDay]
  · rw [if_neg (timeText_ne_sentinel hhour.1 (by omega) ht.minute.1)]
    exact wallTimeToUtc_eq other hd.valid hyear.1 (by omega) (by omega) ht.minute tz

/-! ## Occurrences -/

/-- What the clocks show at the minute; `24:00` is midnight of the day after. -/
def wallReading (d : Date) (h mi : Int) : Reading :=
  if h = 24 then { toDate := nextDay d, hour := 0, minute := 0, second := 0 }
  else { toDate := d, hour := h, minute := mi, second := 0 }

/-- The clocks of the zone come to show the wall-clock time at `u`. -/
def Occurs (tz : Zone) (d : Date) (h mi : Int) (u : Int) : Prop :=
  readingOf (u + tz.offset u) = wallReading d h mi ∧ u % 1000 = 0

structure WholeOffset (offset : Int) : Prop where
  whole : offset % 1000 = 0
  low : -50400000 ≤ offset
  high : offset ≤ 50400000

def jumpZone (t : Int) {before after : Int} (hbefore : WholeOffset before)
    (hafter : WholeOffset after) : Zone where
  offset u := if u < t then before else after
  whole_seconds u := by
    have := hbefore.whole
    have := hafter.whole
    split <;> omega
  bounded u := by
    have := hbefore.low
    have := hafter.low
    have := hbefore.high
    have := hafter.high
    split <;> omega
  isolated := by
    intro s s' hlt hs hs'
    have honly : ∀ u, ChangesAt (fun u => if u < t then before else after) u → u = t := by
      intro u hu
      unfold ChangesAt at hu
      by_contra hne
      apply hu
      dsimp only
      by_cases hbefore : u < t
      · rw [if_pos (by omega), if_pos hbefore]
      · rw [if_neg (by omega), if_neg hbefore]
    have := honly s hs
    have := honly s' hs'
    omega
  midnight24 _ := true

theorem newYorkWinter : WholeOffset (-18000000) := ⟨by decide, by decide, by decide⟩

theorem newYorkSummer : WholeOffset (-14400000) := ⟨by decide, by decide, by decide⟩

/-- New York around 10 March 2024, when its clocks went from 02:00 to 03:00. -/
def newYork : Zone := jumpZone 1710054000000 newYorkWinter newYorkSummer

theorem berlinSummer : WholeOffset 7200000 := ⟨by decide, by decide, by decide⟩

theorem berlinWinter : WholeOffset 3600000 := ⟨by decide, by decide, by decide⟩

def berlin : Zone := jumpZone 1729990800000 berlinSummer berlinWinter

def newYorkAutumn : Zone := jumpZone 1730613600000 newYorkSummer newYorkWinter

section

variable {d : Date} {h mi : Int} {tz : Zone}

theorem valid_wallReading (hd : d.Valid) (ht : ClockTime h mi) : (wallReading d h mi).Valid := by
  have hhour := ht.hour
  unfold wallReading
  split
  · exact ⟨valid_dateOfDay _, by dsimp only; omega, by dsimp only; omega, by dsimp only; omega⟩
  · exact ⟨hd, by dsimp only; omega, ht.minute, by dsimp only; omega⟩

theorem makeTime_wallReading (ht : ClockTime h mi) :
    makeTime (wallReading d h mi) = wallTime d h mi := by
  unfold wallReading
  split
  · obtain rfl := ‹h = 24›
    obtain rfl := ht.sentinel rfl
    exact wallTime_nextDay d
  · rfl

theorem occurs_iff (hd : d.Valid) (ht : ClockTime h mi) (u : Int) :
    Occurs tz d h mi u ↔ u + tz.offset u = wallTime d h mi := by
  have hwhole := tz.whole_seconds u
  have hvalid := valid_wallReading hd ht
  have hwall := makeTime_wallReading (d := d) ht
  constructor
  · intro hoccurs
    have htime := makeTime_readingOf (u + tz.offset u)
    have hsecond := hoccurs.2
    rw [hoccurs.1, hwall] at htime
    omega
  · intro heq
    have hsecond : wallTime d h mi % 1000 = 0 := by
      unfold wallTime makeTime
      dsimp only
      omega
    refine ⟨?_, by omega⟩
    rw [heq, ← hwall]
    exact readingOf_makeTime hvalid

/-- Of the offsets at the literal time, at the first guess and at the occurrence two are equal:
either the first guess is an occurrence, or the offset that corrects it is the right one. -/
theorem twoPasses_of_unique {wall : Int} {u : Int} (hu : u + tz.offset u = wall)
    (hunique : ∀ u', u' + tz.offset u' = wall → u' = u) : twoPasses tz wall = u := by
  have hboundWall := tz.bounded wall
  have hboundU := tz.bounded u
  unfold twoPasses
  generalize hguess : wall - tz.offset wall = guess
  have htwo := two_values (l := wall - 50400000) tz.isolated (a := wall) (b := guess) (c := u)
    (by omega) (by omega) (by omega)
  rcases htwo with hfirst | hsecond | hright
  · have hoccurs : guess = u := hunique guess (by omega)
    rw [← hfirst]
    omega
  · rw [hsecond]
    omega
  · have hoccurs : guess = u := by omega
    rw [hoccurs]
    omega

/-- A wall-clock time that a zone's clocks show once is resolved to the instant at which they
do. -/
theorem localTimeToUtc_of_unique (hd : CalendarDay d) (ht : ClockTime h mi) {u : Int}
    (hu : Occurs tz d h mi u) (hunique : ∀ u', Occurs tz d h mi u' → u' = u) :
    localTimeToUtc other (dayText d) (timeText h mi) tz = some u := by
  rw [localTimeToUtc_eq other hd ht tz]
  congr 1
  apply twoPasses_of_unique
  · exact (occurs_iff hd.valid ht u).1 hu
  · intro u' hu'
    exact hunique u' ((occurs_iff hd.valid ht u').2 hu')

/-- Nine o'clock of the day of the jump, in summer time. -/
theorem localTimeToUtc_of_unique_newYork :
    CalendarDay ⟨2024, 2, 10⟩ ∧ ClockTime 9 0 ∧ Occurs newYork ⟨2024, 2, 10⟩ 9 0 1710075600000 ∧
      localTimeToUtc (fun _ => none) "2024-03-10" "09:00" newYork = some 1710075600000 := by
  have hd : CalendarDay ⟨2024, 2, 10⟩ := ⟨⟨by decide, by decide, by decide, by decide⟩, by decide⟩
  have ht : ClockTime 9 0 := ⟨by decide, by decide, by decide⟩
  have hwall : wallTime ⟨2024, 2, 10⟩ 9 0 = 1710061200000 := by decide
  have honly : ∀ u, Occurs newYork ⟨2024, 2, 10⟩ 9 0 u ↔ u = 1710075600000 := by
    intro u
    rw [occurs_iff hd.valid ht, hwall]
    show u + (if u < 1710054000000 then -18000000 else -14400000) = 1710061200000 ↔ _
    split <;> omega
  have hoccurs := (honly 1710075600000).2 rfl
  exact ⟨hd, ht, hoccurs, localTimeToUtc_of_unique _ hd ht hoccurs fun u hu => (honly u).1 hu⟩

/-! ## Times skipped or shown twice -/

/-- At `t` the clocks go forward past the wall-clock time. -/
def Skipped (tz : Zone) (t : Int) (wall : Int) : Prop :=
  t + tz.offset (t - 1) ≤ wall ∧ wall < t + tz.offset t

/-- At `t` the clocks go back to before the wall-clock time. -/
def Repeated (tz : Zone) (t : Int) (wall : Int) : Prop :=
  t + tz.offset t ≤ wall ∧ wall < t + tz.offset (t - 1)

/-- Around the wall-clock time of a jump a zone has the two offsets of the jump only. -/
theorem offset_around {t wall u : Int} (h : Skipped tz t wall ∨ Repeated tz t wall)
    (hlow : wall - 50400000 ≤ u) (hhigh : u ≤ wall + 50400000) :
    tz.offset u = if u < t then tz.offset (t - 1) else tz.offset t := by
  unfold Skipped Repeated at h
  have hchange : ChangesAt tz.offset t := by
    unfold ChangesAt
    omega
  have hbefore := tz.bounded (t - 1)
  have hafter := tz.bounded t
  split
  · exact eq_before_change tz.isolated hchange ‹u < t› (by omega)
  · exact eq_after_change tz.isolated hchange (by omega) (by omega)

/-- No clock of the zone ever shows a skipped time. -/
theorem not_occurs_of_skipped {t wall : Int} (h : Skipped tz t wall) (u : Int) :
    u + tz.offset u ≠ wall := by
  intro heq
  have hbound := tz.bounded u
  have hnear := offset_around (Or.inl h) (show wall - 50400000 ≤ u by omega) (by omega)
  unfold Skipped at h
  split at hnear <;> omega

theorem occurs_iff_of_repeated {t wall : Int} (h : Repeated tz t wall) (u : Int) :
    u + tz.offset u = wall ↔ u = wall - tz.offset (t - 1) ∨ u = wall - tz.offset t := by
  have hbefore := tz.bounded (t - 1)
  have hafter := tz.bounded t
  have hbound := tz.bounded u
  constructor
  · intro heq
    have hnear := offset_around (Or.inr h) (show wall - 50400000 ≤ u by omega) (by omega)
    unfold Repeated at h
    split at hnear <;> omega
  · intro hor
    have hnear := offset_around (Or.inr h) (show wall - 50400000 ≤ u by omega) (by omega)
    unfold Repeated at h
    split at hnear <;> omega

/-- The offsets that the two passes take: at the literal time and at the first guess. -/
theorem offset_passes {t wall : Int} (h : Skipped tz t wall ∨ Repeated tz t wall) :
    tz.offset wall = (if wall < t then tz.offset (t - 1) else tz.offset t) ∧
      twoPasses tz wall = wall -
        if wall - tz.offset wall < t then tz.offset (t - 1) else tz.offset t := by
  have hbound := tz.bounded wall
  have hguess := offset_around h (show wall - 50400000 ≤ wall - tz.offset wall by omega) (by omega)
  refine ⟨offset_around h (by omega) (by omega), ?_⟩
  rw [twoPasses, hguess]

/-- In a gap the first guess falls on the other side of the jump. -/
theorem twoPasses_of_skipped {t wall : Int} (h : Skipped tz t wall) :
    twoPasses tz wall = if t ≤ wall then wall - tz.offset (t - 1) else wall - tz.offset t := by
  obtain ⟨hwall, htwo⟩ := offset_passes (Or.inl h)
  unfold Skipped at h
  rw [htwo]
  split
  · split at hwall <;> split <;> omega
  · split at hwall <;> split <;> omega

/-- In an overlap it stays on the side that the literal time is on. -/
theorem twoPasses_of_repeated {t wall : Int} (h : Repeated tz t wall) :
    twoPasses tz wall = if t ≤ wall then wall - tz.offset t else wall - tz.offset (t - 1) := by
  obtain ⟨hwall, htwo⟩ := offset_passes (Or.inr h)
  unfold Repeated at h
  rw [htwo]
  split
  · split at hwall <;> split <;> omega
  · split at hwall <;> split <;> omega

/-- The policy that the module documents, at a jump of the clocks: a skipped time is the first
instant not before the jump, a repeated one the first of its occurrences. -/
structure FollowsPolicy (tz : Zone) (t : Int) (d : Date) (h mi : Int) (u : Int) :
    Prop where
  gap : Skipped tz t (wallTime d h mi) → t ≤ u ∧ ∀ u', t ≤ u' → u ≤ u'
  overlap : Repeated tz t (wallTime d h mi) →
    Occurs tz d h mi u ∧ ∀ u', Occurs tz d h mi u' → u ≤ u'

theorem occurs_twoPasses_first_iff (hd : d.Valid) (ht : ClockTime h mi) {t : Int}
    (hrepeated : Repeated tz t (wallTime d h mi)) :
    (Occurs tz d h mi (twoPasses tz (wallTime d h mi)) ∧
      ∀ u, Occurs tz d h mi u → twoPasses tz (wallTime d h mi) ≤ u) ↔ wallTime d h mi < t := by
  have htwo := twoPasses_of_repeated hrepeated
  have honly : ∀ u, Occurs tz d h mi u ↔
      u = wallTime d h mi - tz.offset (t - 1) ∨ u = wallTime d h mi - tz.offset t := fun u =>
    (occurs_iff hd ht u).trans (occurs_iff_of_repeated hrepeated u)
  unfold Repeated at hrepeated
  constructor
  · intro hfirst
    have hle := hfirst.2 _ ((honly _).2 (Or.inl rfl))
    split at htwo <;> omega
  · intro hbefore
    rw [if_neg (by omega)] at htwo
    refine ⟨(honly _).2 (Or.inl htwo), ?_⟩
    intro u hu
    have hcases := (honly u).1 hu
    omega

/-- What becomes of the policy. A skipped time is resolved to before the jump where its digits,
read as UTC, are before it; else to the jump itself only for the first skipped minute. A repeated
time is resolved to its first occurrence only where its digits, read as UTC, are before the
jump. -/
theorem localTimeToUtc_policy_iff (hd : CalendarDay d) (ht : ClockTime h mi) (t : Int) :
    ∃ u, localTimeToUtc other (dayText d) (timeText h mi) tz = some u ∧
      (Skipped tz t (wallTime d h mi) → (t ≤ u ↔ t ≤ wallTime d h mi)) ∧
      (FollowsPolicy tz t d h mi u ↔
        (Skipped tz t (wallTime d h mi) →
          t ≤ wallTime d h mi ∧ wallTime d h mi = t + tz.offset (t - 1)) ∧
        (Repeated tz t (wallTime d h mi) → wallTime d h mi < t)) := by
  refine ⟨twoPasses tz (wallTime d h mi), localTimeToUtc_eq other hd ht tz, ?_, ?_⟩
  · intro hskipped
    have htwo := twoPasses_of_skipped hskipped
    unfold Skipped at hskipped
    split at htwo <;> omega
  · constructor
    · intro hpolicy
      constructor
      · intro hskipped
        have hleast := hpolicy.gap hskipped
        have hjump := hleast.2 t (Int.le_refl t)
        have htwo := twoPasses_of_skipped hskipped
        unfold Skipped at hskipped
        split at htwo <;> omega
      · intro hrepeated
        exact (occurs_twoPasses_first_iff hd.valid ht hrepeated).1 (hpolicy.overlap hrepeated)
    · intro hcond
      constructor
      · intro hskipped
        have hat := hcond.1 hskipped
        have htwo := twoPasses_of_skipped hskipped
        rw [if_pos hat.1] at htwo
        have hjump : twoPasses tz (wallTime d h mi) = t := by omega
        rw [hjump]
        exact ⟨Int.le_refl t, fun u' hu' => hu'⟩
      · intro hrepeated
        exact (occurs_twoPasses_first_iff hd.valid ht hrepeated).2 (hcond.2 hrepeated)

theorem localTimeToUtc_policy_iff_newYorkAutumn :
    Repeated newYorkAutumn 1730613600000 (wallTime ⟨2024, 10, 3⟩ 1 30) ∧
      ∃ u, localTimeToUtc (fun _ => none) "2024-11-03" "01:30" newYorkAutumn = some u ∧
        FollowsPolicy newYorkAutumn 1730613600000 ⟨2024, 10, 3⟩ 1 30 u := by
  have hd : CalendarDay ⟨2024, 10, 3⟩ := ⟨⟨by decide, by decide, by decide, by decide⟩, by decide⟩
  have ht : ClockTime 1 30 := ⟨by decide, by decide, by decide⟩
  have hrepeated : Repeated newYorkAutumn 1730613600000 (wallTime ⟨2024, 10, 3⟩ 1 30) := by
    unfold Repeated
    decide
  have hskipped : ¬ Skipped newYorkAutumn 1730613600000 (wallTime ⟨2024, 10, 3⟩ 1 30) := by
    unfold Skipped
    decide
  obtain ⟨u, hu, -, hpolicy⟩ :=
    @localTimeToUtc_policy_iff (fun _ => none) ⟨2024, 10, 3⟩ 1 30 newYorkAutumn hd ht 1730613600000
  exact ⟨hrepeated, u, hu, hpolicy.2 ⟨fun h => absurd h hskipped, fun _ => by decide⟩⟩

/-- 02:30 in New York's gap becomes 01:30 in winter time, half an hour before the jump; 02:30 in
Berlin's overlap becomes the later of the two. -/
theorem not_followsPolicy_gap_overlap :
    (localTimeToUtc (fun _ => none) "2024-03-10" "02:30" newYork = some 1710052200000 ∧
      ¬ FollowsPolicy newYork 1710054000000 ⟨2024, 2, 10⟩ 2 30 1710052200000) ∧
    (localTimeToUtc (fun _ => none) "2024-10-27" "02:30" berlin = some 1729992600000 ∧
      ¬ FollowsPolicy berlin 1729990800000 ⟨2024, 9, 27⟩ 2 30 1729992600000) := by
  have ht : ClockTime 2 30 := ⟨by decide, by decide, by decide⟩
  have hmarch : CalendarDay ⟨2024, 2, 10⟩ :=
    ⟨⟨by decide, by decide, by decide, by decide⟩, by decide⟩
  have hoctober : CalendarDay ⟨2024, 9, 27⟩ :=
    ⟨⟨by decide, by decide, by decide, by decide⟩, by decide⟩
  have hgap : twoPasses newYork (wallTime ⟨2024, 2, 10⟩ 2 30) = 1710052200000 := by decide
  have hoverlap : twoPasses berlin (wallTime ⟨2024, 9, 27⟩ 2 30) = 1729992600000 := by decide
  have hskipped : Skipped newYork 1710054000000 (wallTime ⟨2024, 2, 10⟩ 2 30) := by
    unfold Skipped
    decide
  have hrepeated : Repeated berlin 1729990800000 (wallTime ⟨2024, 9, 27⟩ 2 30) := by
    unfold Repeated
    decide
  constructor
  · refine ⟨?_, ?_⟩
    · rw [← hgap]
      exact localTimeToUtc_eq _ hmarch ht newYork
    · intro hpolicy
      have hle := (hpolicy.gap hskipped).1
      omega
  · refine ⟨?_, ?_⟩
    · rw [← hoverlap]
      exact localTimeToUtc_eq _ hoctober ht berlin
    · intro hpolicy
      have hfirst : Occurs berlin ⟨2024, 9, 27⟩ 2 30 1729989000000 := by
        rw [occurs_iff hoctober.valid ht]
        decide
      have hle := (hpolicy.overlap hrepeated).2 1729989000000 hfirst
      omega

end

end

end NestStarter.Shared
