import Glaber.Common
import Glaber.Lib.Gregorian

/-! Broken-down times (`time.c` of `zbxtime`) with the local time UTC. -/

namespace Glaber.Time

open Glaber.Lib.Gregorian

section

/-- `struct tm`; `tm_isdst` is always 0. -/
@[ext] structure Tm where
  sec : ℤ
  min : ℤ
  hour : ℤ
  mday : ℤ
  mon : ℤ
  year : ℤ
  wday : ℤ
  yday : ℤ
  deriving DecidableEq, Repr

def localtime (t : ℤ) : Tm :=
  let n := t / 86400
  let d := dateOf n
  ⟨t % 60, t / 60 % 60, t / 3600 % 24, d.day, d.mon - 1, d.year - 1900, (n + 4) % 7, d.yday⟩

/-- The month may lie outside the year, and the other fields outside their ranges; the day of the week and that of the
year are not read. -/
def mktime (tm : Tm) : ℤ :=
  let year := tm.year + 1900 + tm.mon / 12
  let yday := monthStart (isLeap year) ((tm.mon % 12).toNat + 1) + (tm.mday - 1)
  86400 * (jan1 year + yday) + 3600 * tm.hour + 60 * tm.min + tm.sec

end

section

def isLeapYear (year : ℤ) : ℤ := if year.tmod 4 = 0 ∧ (year.tmod 100 ≠ 0 ∨ year.tmod 400 = 0) then succeed else fail

def dayInMonth (year mon : ℤ) : ℤ :=
  if 1 ≤ mon ∧ mon ≤ 12 then
    [31, 28, 31, 30, 31, 30, 31, 31, 30, 31, 30, 31].getD (mon - 1).toNat 0 +
      if mon = 2 ∧ isLeapYear year = succeed then 1 else 0
  else 30

inductive TimeUnit where
  | second
  | minute
  | hour
  | day
  | week
  | month
  | year
  deriving DecidableEq, Repr

def timeUnitSeconds : TimeUnit → ℤ
  | .second => 1
  | .minute => 60
  | .hour => 3600
  | .day => 86400
  | .week => 604800
  | .month => 0
  | .year => 0

/-- A time of −1 is taken for an error of `mktime`. -/
def tmAddSeconds (tm : Tm) (seconds : ℤ) : Tm :=
  if mktime tm = -1 then tm else localtime (mktime tm + seconds)

/-- The shorter units are added here only where daylight saving begins or ends. -/
def tmAdd (tm : Tm) (multiplier : ℤ) : TimeUnit → Tm
  | .month =>
    let mon := tm.mon + multiplier
    if 12 ≤ mon then { tm with mon := mon.tmod 12, year := tm.year + mon.tdiv 12 } else { tm with mon := mon }
  | .year => { tm with year := tm.year + multiplier }
  | _ => tm

def zbxTmAdd (tm : Tm) (multiplier : ℤ) (base : TimeUnit) : Tm :=
  let tm :=
    if base = .month ∨ base = .year then
      let tm := tmAdd tm multiplier base
      let daysMax := dayInMonth (tm.year + 1900) (tm.mon + 1)
      if tm.mday > daysMax then { tm with mday := daysMax } else tm
    else tm
  tmAddSeconds tm (multiplier * timeUnitSeconds base)

def tmRoundUp (tm : Tm) (base : TimeUnit) : Tm :=
  let tm := if 0 ≠ tm.sec then zbxTmAdd { tm with sec := 0 } 1 .minute else tm
  if base = .minute then tm
  else
    let tm := if 0 ≠ tm.min then zbxTmAdd { tm with min := 0 } 1 .hour else tm
    if base = .hour then tm
    else
      let tm := if 0 ≠ tm.hour then zbxTmAdd { tm with hour := 0 } 1 .day else tm
      if base = .day then tm
      else if base = .week then
        if 1 ≠ tm.wday then { zbxTmAdd tm (if 0 = tm.wday then 1 else 8 - tm.wday) .day with wday := 1 } else tm
      else
        let tm := if 1 ≠ tm.mday then zbxTmAdd { tm with mday := 1 } 1 .month else tm
        if base = .month then tm
        else if 0 ≠ tm.mon then zbxTmAdd { tm with mon := 0 } 1 .year else tm

end

section

lemma isLeapYear_iff (year : ℤ) : isLeapYear year = succeed ↔ isLeap year := by
  have hmod : ∀ k : ℤ, year.tmod k = 0 ↔ year % k = 0 := fun k => by
    rw [← Int.dvd_iff_tmod_eq_zero, Int.dvd_iff_emod_eq_zero]
  simp only [isLeapYear, Ne, hmod, isLeap, decide_eq_true_eq]
  split_ifs with h
  · exact iff_of_true rfl h
  · exact iff_of_false (by decide) h

lemma dayInMonth_eq (year : ℤ) {mon : ℕ} (hmon : 1 ≤ mon ∧ mon ≤ 12) : dayInMonth year mon = daysIn (isLeap year) mon := by
  obtain ⟨hlow, hhigh⟩ := hmon
  simp only [dayInMonth, isLeapYear_iff]
  interval_cases mon <;> simp [daysIn]
  split_ifs <;> rfl

end

section

variable {t n k : ℤ}

lemma mktime_date {d : Date} (h : d.Valid) (sec min hour wday yday : ℤ) :
    mktime ⟨sec, min, hour, d.day, d.mon - 1, d.year - 1900, wday, yday⟩ =
      86400 * d.number + 3600 * hour + 60 * min + sec := by
  have hmon := h.mon
  have hyear : d.year - 1900 + 1900 + ((d.mon : ℤ) - 1) / 12 = d.year := by omega
  have hindex : (((d.mon : ℤ) - 1) % 12).toNat + 1 = d.mon := by omega
  simp only [mktime, hyear, hindex, Date.number, Date.yday]

lemma mktime_localtime (t : ℤ) : mktime (localtime t) = t := by
  simp only [localtime, mktime_date (dateOf_valid _), number_dateOf]
  omega

lemma mktime_at (t hour min sec : ℤ) :
    mktime { localtime t with hour := hour, min := min, sec := sec } =
      86400 * (t / 86400) + 3600 * hour + 60 * min + sec := by
  simp only [localtime, mktime_date (dateOf_valid _), number_dateOf]

lemma add_seconds {tm : Tm} {base : TimeUnit} (hbase : base ≠ .month ∧ base ≠ .year) (hmin : 60 ∣ mktime tm) (k : ℤ) :
    zbxTmAdd tm k base = localtime (mktime tm + k * timeUnitSeconds base) := by
  have hne : mktime tm ≠ -1 := by
    intro h
    rw [h] at hmin
    omega
  simp only [zbxTmAdd, tmAddSeconds, if_neg (not_or.mpr hbase), if_neg hne]

lemma round_field {base : TimeUnit} {cleared : Tm} {field : ℤ} (unit : ℤ) (hbase : base ≠ .month ∧ base ≠ .year)
    (hunit : timeUnitSeconds base = unit) (hpos : 0 < unit) (h60 : 60 ∣ unit) (hcleared : mktime cleared = unit * (t / unit))
    (hfield : 0 = field ↔ t % unit = 0) :
    (if 0 ≠ field then zbxTmAdd cleared 1 base else localtime t) = localtime ((t + (unit - 1)) / unit * unit) := by
  have hsplit := Int.mul_ediv_add_emod t unit
  have hlow := Int.emod_nonneg t hpos.ne'
  have hhigh := Int.emod_lt_of_pos t hpos
  by_cases hrest : t % unit = 0
  · have hquot : (t + (unit - 1)) / unit = t / unit := by
      rw [Int.ediv_eq_iff_of_pos hpos]
      constructor <;> nlinarith
    rw [if_neg (not_not.mpr (hfield.mpr hrest)), hquot]
    congr 1
    linarith
  · have hquot : (t + (unit - 1)) / unit = t / unit + 1 := by
      rw [Int.ediv_eq_iff_of_pos hpos]
      have : 0 < t % unit := lt_of_le_of_ne hlow (Ne.symm hrest)
      constructor <;> nlinarith
    rw [if_pos (mt hfield.mp hrest), add_seconds hbase (hcleared ▸ h60.mul_right _), hcleared, hunit, hquot]
    congr 1
    ring

lemma round_sec (t : ℤ) : (if 0 ≠ (localtime t).sec then zbxTmAdd { localtime t with sec := 0 } 1 .minute else localtime t) =
    localtime ((t + 59) / 60 * 60) := by
  have hcleared := mktime_at t (t / 3600 % 24) (t / 60 % 60) 0
  exact round_field 60 (by decide) rfl (by decide) (by decide) (hcleared.trans (by omega)) eq_comm

lemma round_min (h60 : 60 ∣ t) :
    (if 0 ≠ (localtime t).min then zbxTmAdd { localtime t with min := 0 } 1 .hour else localtime t) =
      localtime ((t + 3599) / 3600 * 3600) := by
  have hcleared := mktime_at t (t / 3600 % 24) 0 (t % 60)
  have hmin : (localtime t).min = t / 60 % 60 := rfl
  exact round_field 3600 (by decide) rfl (by decide) (by decide) (hcleared.trans (by omega)) (by rw [hmin]; omega)

lemma round_hour (h3600 : 3600 ∣ t) :
    (if 0 ≠ (localtime t).hour then zbxTmAdd { localtime t with hour := 0 } 1 .day else localtime t) =
      localtime ((t + 86399) / 86400 * 86400) := by
  have hcleared := mktime_at t 0 (t / 60 % 60) (t % 60)
  have hhour : (localtime t).hour = t / 3600 % 24 := rfl
  exact round_field 86400 (by decide) rfl (by decide) (by decide) (hcleared.trans (by omega)) (by rw [hhour]; omega)

def midnight (t : ℤ) : ℤ := (t + 86399) / 86400

lemma midnight_rounded (t : ℤ) :
    (((t + 59) / 60 * 60 + 3599) / 3600 * 3600 + 86399) / 86400 * 86400 = 86400 * midnight t := by
  rw [midnight]
  omega

lemma tmRoundUp_day (t : ℤ) : tmRoundUp (localtime t) .day = localtime (86400 * midnight t) := by
  simp only [tmRoundUp, round_sec]
  rw [if_neg (by decide), round_min (Dvd.intro_left _ rfl), if_neg (by decide), round_hour (Dvd.intro_left _ rfl),
    if_pos trivial, midnight_rounded]

lemma localtime_midnight (n : ℤ) : localtime (86400 * n) =
    ⟨0, 0, 0, (dateOf n).day, (dateOf n).mon - 1, (dateOf n).year - 1900, (n + 4) % 7, (dateOf n).yday⟩ := by
  have hday : 86400 * n / 86400 = n := by omega
  simp only [localtime, hday, Tm.mk.injEq]
  exact ⟨by omega, by omega, by omega, trivial, trivial, trivial, trivial, trivial⟩

lemma add_calendar {tm added : Tm} {base : TimeUnit} (hbase : base = .month ∨ base = .year) (hadded : tmAdd tm 1 base = added)
    {d : Date} (hd : d.Valid) (hfirst : d.day = 1)
    (htm : added = ⟨0, 0, 0, d.day, d.mon - 1, d.year - 1900, added.wday, added.yday⟩) :
    zbxTmAdd tm 1 base = localtime (86400 * d.number) := by
  have hdays := daysIn_bounds (isLeap d.year) d.mon
  have hfits : ¬ added.mday > dayInMonth (added.year + 1900) (added.mon + 1) := by
    rw [htm]
    simp only [sub_add_cancel, dayInMonth_eq d.year hd.mon]
    omega
  have htime : mktime added = 86400 * d.number := by
    rw [htm, mktime_date hd]
    omega
  have hseconds : timeUnitSeconds base = 0 := by rcases hbase with rfl | rfl <;> rfl
  simp only [zbxTmAdd, if_pos hbase, hadded, if_neg hfits, tmAddSeconds, htime, hseconds, mul_zero, add_zero]
  rw [if_neg (by omega)]

lemma round_month (n : ℤ) :
    (if 1 ≠ (localtime (86400 * n)).mday then zbxTmAdd { localtime (86400 * n) with mday := 1 } 1 .month
      else localtime (86400 * n)) = localtime (86400 * monthFrom n) := by
  have hvalid := dateOf_valid n
  have hmon := hvalid.mon
  simp only [localtime_midnight n, monthFrom]
  by_cases hfirst : (dateOf n).day = 1
  · rw [if_neg (not_not.mpr hfirst.symm), if_pos hfirst, localtime_midnight]
  · rw [if_pos (Ne.symm hfirst), if_neg hfirst, ← hvalid.nextMonth.2]
    apply add_calendar (.inl rfl) rfl hvalid.nextMonth.1
    · rw [Date.nextMonth]
      split_ifs <;> rfl
    · simp only [tmAdd, sub_add_cancel, Date.nextMonth]
      by_cases hlast : (dateOf n).mon < 12
      · rw [if_neg (by omega), if_pos hlast]
        simp
      · have hdec : (dateOf n).mon = 12 := by omega
        rw [if_pos (by omega), if_neg hlast, hdec, Tm.mk.injEq]
        refine ⟨rfl, rfl, rfl, rfl, by simp, ?_, rfl, rfl⟩
        simp only [Nat.cast_ofNat, Int.tdiv_self (by decide : (12 : ℤ) ≠ 0)]
        ring

lemma round_year {n : ℤ} (hday : (dateOf n).day = 1) :
    (if 0 ≠ (localtime (86400 * n)).mon then zbxTmAdd { localtime (86400 * n) with mon := 0 } 1 .year
      else localtime (86400 * n)) = localtime (86400 * yearFrom n) := by
  have hvalid := dateOf_valid n
  have hmon := hvalid.mon
  have hyear : (dateOf n).year = yearOf n := rfl
  simp only [localtime_midnight n, yearFrom, ← first_of_year_iff n, hday, true_and]
  by_cases hfirst : (dateOf n).mon = 1
  · rw [if_neg (by rw [hfirst]; decide), if_pos hfirst, localtime_midnight, hday]
  · have hnumber : jan1 (yearOf n + 1) = (Date.mk (yearOf n + 1) 1 1).number := by
      have hzero : monthStart (isLeap (yearOf n + 1)) 1 = 0 := rfl
      simp only [Date.number_eq_first, Date.first, hzero]
      ring
    rw [if_pos (by omega), if_neg hfirst, hnumber]
    apply add_calendar (.inr rfl) rfl (valid_first (yearOf n + 1) 1 (by decide)) rfl
    simp only [tmAdd, hyear, Tm.mk.injEq]
    exact ⟨trivial, trivial, trivial, trivial, rfl, by ring, trivial, trivial⟩

lemma tmRoundUp_month (t : ℤ) : tmRoundUp (localtime t) .month = localtime (86400 * monthFrom (midnight t)) := by
  simp only [tmRoundUp, round_sec]
  rw [if_neg (by decide), round_min (Dvd.intro_left _ rfl), if_neg (by decide), round_hour (Dvd.intro_left _ rfl),
    if_neg (by decide), if_neg (by decide), if_pos trivial, midnight_rounded, round_month]

lemma tmRoundUp_year (t : ℤ) : tmRoundUp (localtime t) .year = localtime (86400 * yearFrom (monthFrom (midnight t))) := by
  simp only [tmRoundUp, round_sec]
  rw [if_neg (by decide), round_min (Dvd.intro_left _ rfl), if_neg (by decide), round_hour (Dvd.intro_left _ rfl),
    if_neg (by decide), if_neg (by decide), if_neg (by decide), midnight_rounded, round_month,
    round_year (monthFrom_least _).1.2]

end

section

def getWeekDays (yday wday : ℤ) : ℤ := yday - (yday - wday + 382).tmod 7 + 3

def getWeekNumber (tm : Tm) : ℤ :=
  let days := getWeekDays tm.yday tm.wday
  let days :=
    if 0 > days then
      let d := tm.yday + 365
      getWeekDays (if isLeapYear (tm.year + 1899) = succeed then d + 1 else d) tm.wday
    else
      let d := tm.yday - 365
      let daysNext := getWeekDays (if isLeapYear (tm.year + 1900) = succeed then d - 1 else d) tm.wday
      if 0 ≤ daysNext then daysNext else days
  days.tdiv 7 + 1

end

section

def thursday (n : ℤ) : ℤ := n - weekday n + 3

def isoWeek (n : ℤ) : ℤ := (thursday n - jan1 (yearOf (thursday n))) / 7 + 1

structure Tm.OfDay (tm : Tm) (n : ℤ) : Prop where
  year : tm.year + 1900 = yearOf n
  yday : tm.yday = n - jan1 (yearOf n)
  wday : tm.wday = (n + 4) % 7

lemma localtime_ofDay (t : ℤ) : (localtime t).OfDay (t / 86400) := by
  have hnumber := number_dateOf (t / 86400)
  rw [Date.number] at hnumber
  refine ⟨?_, ?_, rfl⟩
  · simp [localtime, dateOf]
  · simp only [localtime]
    have : (dateOf (t / 86400)).year = yearOf (t / 86400) := rfl
    rw [this] at hnumber
    omega

lemma getWeekDays_eq {n first : ℤ} (h : 0 ≤ n - first + 376) :
    getWeekDays (n - first) ((n + 4) % 7) = n - first - -first % 7 + 3 := by
  have hnonneg : 0 ≤ n - first - (n + 4) % 7 + 382 := by omega
  rw [getWeekDays, Int.tmod_eq_emod_of_nonneg hnonneg]
  omega

lemma leap_day (year d : ℤ) :
    (if isLeapYear year = succeed then d + 365 + 1 else d + 365) = d + yearLength year ∧
      (if isLeapYear year = succeed then d - 365 - 1 else d - 365) = d - yearLength year := by
  simp only [isLeapYear_iff, yearLength]
  split_ifs <;> omega

lemma isoWeek_eq {n : ℤ} (year : ℤ) (hfrom : jan1 year ≤ thursday n) (hto : thursday n < jan1 (year + 1)) :
    isoWeek n = (thursday n - jan1 year) / 7 + 1 := by
  rw [isoWeek, yearOf_unique hfrom hto]

end

theorem week_number_is_iso {tm : Tm} {n : ℤ} (h : tm.OfDay n) : getWeekNumber tm = isoWeek n := by
  obtain ⟨hyear, hyday, hwday⟩ := h
  obtain ⟨year, hy⟩ : ∃ year, yearOf n = year := ⟨_, rfl⟩
  obtain ⟨hlow, hhigh⟩ := yearOf_spec n
  rw [hy] at hyear hyday hlow hhigh
  have hprev := jan1_succ (year - 1)
  rw [sub_add_cancel] at hprev
  have hnext := jan1_succ year
  have hlen := yearLength_bounds (year - 1)
  have hlen' := yearLength_bounds year
  have hthis : getWeekDays tm.yday tm.wday = n - jan1 year - -jan1 year % 7 + 3 := by
    rw [hyday, hwday, getWeekDays_eq (by omega)]
  have hbefore : getWeekDays (tm.yday + yearLength (year - 1)) tm.wday = n - jan1 (year - 1) - -jan1 (year - 1) % 7 + 3 := by
    have hd : tm.yday + yearLength (year - 1) = n - jan1 (year - 1) := by omega
    rw [hd, hwday, getWeekDays_eq (by omega)]
  have hafter : getWeekDays (tm.yday - yearLength year) tm.wday = n - jan1 (year + 1) - -jan1 (year + 1) % 7 + 3 := by
    have hd : tm.yday - yearLength year = n - jan1 (year + 1) := by omega
    rw [hd, hwday, getWeekDays_eq (by omega)]
  have hy0 : tm.year + 1899 = year - 1 := by omega
  simp only [getWeekNumber, (leap_day _ _).1, (leap_day _ _).2, hy0, hyear, hthis, hbefore, hafter]
  have hweek : thursday n = n - (n + 3) % 7 + 3 := rfl
  split_ifs with hearly hlate
  · -- The last days of the last week of the year before.
    have hto : thursday n < jan1 (year - 1 + 1) := by
      rw [sub_add_cancel]
      omega
    rw [isoWeek_eq (year - 1) (by omega) hto, Int.tdiv_eq_ediv_of_nonneg (by omega)]
    omega
  · have hto : thursday n < jan1 (year + 1 + 1) := by
      have := jan1_succ (year + 1)
      have := yearLength_bounds (year + 1)
      omega
    rw [isoWeek_eq (year + 1) (by omega) hto, Int.tdiv_eq_ediv_of_nonneg (by omega)]
    omega
  · rw [isoWeek_eq year (by omega) (by omega), Int.tdiv_eq_ediv_of_nonneg (by omega)]
    omega

-- A Friday, the first of January of 2027, in the last week of a year of 53.
theorem new_year_in_the_old_week : getWeekNumber (localtime 1798761600) = 53 :=
  (week_number_is_iso (localtime_ofDay 1798761600)).trans (by decide)

end Glaber.Time
