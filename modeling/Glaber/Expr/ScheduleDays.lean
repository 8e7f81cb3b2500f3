import Glaber.Expr.Schedule

namespace Glaber.Expr

open Glaber.Lib.Calendar Glaber.Lib.Odometer

section

def epochMonth : ℕ := 840

variable {month mday : ℕ}

lemma dayInMonth_eq (year : ℕ) {mon : ℕ} (hmon : mon < 12) : dayInMonth year (mon + 1) = daysIn year (mon + 1) := by
  have hleap : isLeapYear year = isLeap year := rfl
  rw [dayInMonth, if_pos ⟨by omega, by omega⟩, hleap]
  interval_cases mon <;> simp [daysIn]
  split_ifs <;> rfl

lemma lastDay_dayTm : lastDay (dayTm month mday) = daysIn (month / 12 + 1970) (month % 12 + 1) :=
  dayInMonth_eq _ (Nat.mod_lt _ (by decide))

lemma daysIn_year (year year' mon : ℕ) : daysIn year mon ≤ daysIn year' mon + 1 := by
  simp only [daysIn.eq_def]
  split <;> [split_ifs; skip; skip; skip; skip; skip] <;> omega

lemma lastDay_le (month mday : ℕ) : lastDay (dayTm month mday) ≤ monthDays month + 1 := by
  rw [lastDay_dayTm]
  exact daysIn_year _ _ _

lemma lastDay_le_31 (month mday : ℕ) : lastDay (dayTm month mday) ≤ 31 := by
  rw [lastDay_dayTm]
  exact (daysIn_pos _ _).2

lemma monthDays_bounds (month : ℕ) : 28 ≤ monthDays month ∧ monthDays month ≤ 31 := daysIn_pos _ _

lemma firstDay_succ (h : epochMonth ≤ month) : firstDay (month + 1) = firstDay month + monthDays month := by
  have hm : month % 12 < 12 := Nat.mod_lt _ (by decide)
  simp only [firstDay, monthDays, epochMonth] at *
  obtain hlt | heq : month % 12 < 11 ∨ month % 12 = 11 := by omega
  · have hdiv : (month + 1) / 12 = month / 12 := by omega
    have hmod : (month + 1) % 12 = month % 12 + 1 := by omega
    rw [hdiv, hmod]
    exact daysBefore_succ_mon _ (by omega) (by omega)
  · have hdiv : (month + 1) / 12 + 1900 = month / 12 + 1900 + 1 := by omega
    have hmod : (month + 1) % 12 = 0 := by omega
    rw [hdiv, hmod, heq]
    exact daysBefore_succ_year (by omega)

lemma firstDay_mono {later : ℕ} (h : epochMonth ≤ month) (hle : month ≤ later) : firstDay month ≤ firstDay later := by
  induction later, hle using Nat.le_induction with
  | base => exact le_rfl
  | succ later hle ih =>
    rw [firstDay_succ (h.trans hle)]
    exact ih.trans (Nat.le_add_right _ _)

lemma calculateDayofweek_eq (h : epochMonth ≤ month) (hd : 1 ≤ mday) :
    calculateDayofweek (month / 12 + 1900) (month % 12 + 1) mday = wdayOf month mday := by
  have hm : month % 12 < 12 := Nat.mod_lt _ (by decide)
  obtain ⟨z, hz⟩ : ∃ z, month / 12 + 1900 = 1969 + z + 1 := ⟨month / 12 - 70, by simp only [epochMonth] at h; omega⟩
  obtain ⟨l, hl⟩ := Nat.exists_eq_add_of_le (leaps_base (show 1969 ≤ 1969 + z from Nat.le_add_right _ _))
  have hleap := leaps_succ (1969 + z)
  have hcount : ∀ n, n + n / 4 - n / 100 + n / 400 = n + leaps n := by
    intro n
    simp only [leaps]
    omega
  have hyears : 1969 + z + 1 - 1970 = z := by omega
  simp only [calculateDayofweek, wdayOf, weekday, firstDay, daysBefore, hz, hcount, Nat.add_sub_cancel, leaps_1969, hl,
    hyears, Nat.add_sub_cancel_left] at hleap ⊢
  interval_cases month % 12 <;> simp [monthStart, hl] <;> split_ifs at hleap ⊢ <;> omega

end

section

def Tm.month (tm : Tm) : ℕ := 12 * tm.year + tm.mon

variable {interval : SchedulerInterval} {tm : Tm}

lemma Tm.month_div (hmon : tm.mon < 12) : tm.month / 12 = tm.year ∧ tm.month % 12 = tm.mon := by
  rw [Tm.month]
  omega

lemma lastDay_eq (hmon : tm.mon < 12) (mday : ℕ) : lastDay tm = lastDay (dayTm tm.month mday) := by
  simp only [lastDay, dayTm, (Tm.month_div hmon).1, (Tm.month_div hmon).2]

lemma validate_eq (hmon : tm.mon < 12) :
    schedulerValidateWdayFilter interval tm = schedulerValidateWdayFilter interval (dayTm tm.month tm.mday) := by
  simp only [schedulerValidateWdayFilter, dayTm, (Tm.month_div hmon).1, (Tm.month_div hmon).2]

def FoundDay (S : ℕ → Prop) (tm : Tm) (found : Bool × Tm) : Prop :=
  ∃ mday, found.2 = { tm with mday := mday } ∧ Least S (if found.1 then some mday else none)

lemma mdayLoop_found (hmon : tm.mon < 12) {fuel : ℕ} (hfuel : 32 ≤ fuel + tm.mday) :
    FoundDay (fun mday => Stops (schedulerGetNearestFilterValue interval.mdays) tm.mday mday ∧
      mday ≤ lastDay (dayTm tm.month mday) ∧ schedulerValidateWdayFilter interval (dayTm tm.month mday)) tm
      (mdayLoop interval fuel tm) := by
  induction fuel generalizing tm with
  | zero =>
    refine ⟨tm.mday, rfl, ?_⟩
    rintro mday ⟨hstops, hlast, -⟩
    have hge := hstops.le fun _ _ => nearest_ge
    have hmax := lastDay_le_31 tm.month mday
    omega
  | succ fuel ih =>
    have hstops := stops_least (fun _ _ => @nearest_ge interval.mdays _ _) tm.mday
    rw [mdayLoop]
    cases hnext : schedulerGetNearestFilterValue interval.mdays tm.mday with
    | none =>
      rw [hnext] at hstops
      exact ⟨tm.mday, rfl, fun mday h => hstops mday h.1⟩
    | some v =>
      rw [hnext] at hstops
      dsimp only
      have hlast : ∀ mday mday', lastDay { tm with mday := mday } = lastDay (dayTm tm.month mday') :=
        fun _ mday' => lastDay_eq hmon mday'
      have hvalid : schedulerValidateWdayFilter interval { tm with mday := v } =
        schedulerValidateWdayFilter interval (dayTm tm.month v) := validate_eq hmon
      rw [hvalid]
      split_ifs with hover hday hover'
      · refine ⟨v, rfl, fun mday h => ?_⟩
        rw [hlast v mday] at hover
        exact absurd (h.2.1.trans_lt hover) (not_lt.mpr (hstops.2 mday h.1))
      · rw [hlast v v] at hover
        exact ⟨v, rfl, ⟨hstops.1, not_lt.mp hover, hday⟩, fun mday h => hstops.2 mday h.1⟩
      -- the day found is not one of the week days, so every other one lies behind it
      · refine ⟨v + 1, rfl, fun mday h => ?_⟩
        rw [hlast (v + 1) mday] at hover'
        have hne : mday ≠ v := fun heq => hday (heq ▸ h.2.2)
        have hle := hstops.2 mday h.1
        have := h.2.1
        omega
      · have hv := nearest_ge hnext
        obtain ⟨mday, heq, hleast⟩ := @ih { tm with mday := v + 1 } hmon (by simp only; omega)
        refine ⟨mday, heq, hleast.congr fun x => ?_⟩
        rw [stops_iff hnext]
        refine and_congr_left fun h => ⟨.inr, fun hx => hx.resolve_left ?_⟩
        rintro rfl
        exact hday h.2

section

variable {filters : List SchedulerFilter} {month start w : ℕ}

lemma wdayOf_add (month : ℕ) (hstart : 1 ≤ start) (k : ℕ) :
    wdayOf month (start + k) = (wdayOf month start + k - 1) % 7 + 1 := by
  simp only [wdayOf, weekday]
  omega

lemma wdayOf_bounds (month mday : ℕ) : 1 ≤ wdayOf month mday ∧ wdayOf month mday ≤ 7 := by
  simp only [wdayOf, weekday]
  omega

variable (hstart : 1 ≤ start) (hw : Within 1 7 filters)
include hstart hw

lemma weekStops_this (h : schedulerGetNearestFilterValue filters (wdayOf month start) = some w) :
    Least (WeekStops filters month start) (some (start + (w - wdayOf month start))) := by
  have hge := nearest_ge h
  have hle := nearest_le hw h
  have hfirst := stops_least (fun _ _ => @nearest_ge filters _ _) (wdayOf month start)
  rw [h] at hfirst
  have hbounds := wdayOf_bounds month start
  constructor
  · have hday := wdayOf_add month hstart (w - wdayOf month start)
    have hw' : wdayOf month (start + (w - wdayOf month start)) = w := by omega
    refine ⟨Nat.le_add_right _ _, ?_⟩
    rw [hw', max_eq_left (by omega)]
    exact hfirst.1
  · rintro mday ⟨hmday, hstops⟩
    obtain ⟨k, rfl⟩ := Nat.exists_eq_add_of_le hmday
    have hday := wdayOf_add month hstart k
    by_contra! hlt
    have hsame : wdayOf month (start + k) = wdayOf month start + k := by omega
    rw [hsame, max_eq_left (by omega)] at hstops
    have := hfirst.2 _ hstops
    omega

lemma weekStops_next (hnone : schedulerGetNearestFilterValue filters (wdayOf month start) = none)
    (h : schedulerGetNearestFilterValue filters 1 = some w) :
    Least (WeekStops filters month start) (some (start + (7 - wdayOf month start + 1) + (w - 1))) := by
  have hge := nearest_ge h
  have hle := nearest_le hw h
  have hthis := stops_least (fun _ _ => @nearest_ge filters _ _) (wdayOf month start)
  have hmonday := stops_least (fun _ _ => @nearest_ge filters _ _) 1
  rw [hnone] at hthis
  rw [h] at hmonday
  have hbounds := wdayOf_bounds month start
  have hfirst := wdayOf_add month hstart (7 - wdayOf month start + 1)
  have hone : wdayOf month (start + (7 - wdayOf month start + 1)) = 1 := by omega
  constructor
  · have hday := wdayOf_add month hstart (7 - wdayOf month start + 1 + (w - 1))
    rw [← add_assoc] at hday
    have hw' : wdayOf month (start + (7 - wdayOf month start + 1) + (w - 1)) = w := by omega
    refine ⟨by omega, ?_⟩
    have hmax : max start (start + (7 - wdayOf month start + 1) + (w - 1) + 1 - w) =
      start + (7 - wdayOf month start + 1) := by omega
    rw [hw', hmax, hone]
    exact hmonday.1
  · rintro mday ⟨hmday, hstops⟩
    obtain ⟨k, rfl⟩ := Nat.exists_eq_add_of_le hmday
    have hday := wdayOf_add month hstart k
    by_contra! hlt
    obtain hweek | hweek : wdayOf month start + k ≤ 7 ∨ 7 < wdayOf month start + k := by omega
    · have hsame : wdayOf month (start + k) = wdayOf month start + k := by omega
      rw [max_eq_left (by omega)] at hstops
      exact hthis _ hstops
    · have hsame : wdayOf month (start + k) = wdayOf month start + k - 7 := by omega
      have hmax : max start (start + k + 1 - wdayOf month (start + k)) = start + (7 - wdayOf month start + 1) := by
        omega
      rw [hmax, hone] at hstops
      have := hmonday.2 _ hstops
      omega

end

lemma schedulerGetWdayNextcheck_found (hmon : tm.mon < 12) (hepoch : epochMonth ≤ tm.month) (hday : 1 ≤ tm.mday)
    (hw : Within 1 7 interval.wdays) (hne : interval.wdays ≠ []) :
    FoundDay (fun mday => WeekStops interval.wdays tm.month tm.mday mday ∧ mday ≤ lastDay (dayTm tm.month mday)) tm
      (schedulerGetWdayNextcheck interval tm) := by
  have hfound : ∀ {mday : ℕ}, Least (WeekStops interval.wdays tm.month tm.mday) (some mday) →
      FoundDay (fun mday => WeekStops interval.wdays tm.month tm.mday mday ∧ mday ≤ lastDay (dayTm tm.month mday)) tm
        (decide (mday ≤ lastDay { tm with mday := mday }), { tm with mday := mday }) := by
    intro mday hleast
    have hlast : ∀ mday', lastDay { tm with mday := mday } = lastDay (dayTm tm.month mday') := lastDay_eq hmon
    refine ⟨mday, rfl, ?_⟩
    by_cases hle : mday ≤ lastDay { tm with mday := mday }
    · rw [decide_eq_true hle, if_pos rfl]
      exact ⟨⟨hleast.1, hlast mday ▸ hle⟩, fun x hx => hleast.2 x hx.1⟩
    · rw [decide_eq_false hle, if_neg Bool.false_ne_true]
      intro x hx
      have := hx.2
      rw [← hlast x] at this
      exact hle ((hleast.2 x hx.1).trans this)
  have hnow : calculateDayofweek (tm.year + 1900) (tm.mon + 1) tm.mday = wdayOf tm.month tm.mday := by
    rw [← calculateDayofweek_eq hepoch hday, (Tm.month_div hmon).1, (Tm.month_div hmon).2]
  rw [schedulerGetWdayNextcheck, if_neg hne]
  simp only [hnow]
  split
  · rename_i valueNext hnext
    exact hfound (weekStops_this hday hw hnext)
  · rename_i hnone
    obtain ⟨w, hmonday⟩ := nearest_first hw hne
    rw [hmonday]
    exact hfound (weekStops_next hday hw hnone hmonday)

lemma schedulerGetDayNextcheck_found (hmon : tm.mon < 12) (hepoch : epochMonth ≤ tm.month) (hday : 1 ≤ tm.mday)
    (hmonth : tm.mday ≤ monthDays tm.month) (hw : interval.WellFormed)
    (hutc : utcTime (tm.year + 1900) (tm.mon + 1) tm.mday tm.hour tm.min tm.sec ≠ none) :
    FoundDay (MonthStops interval tm.month tm.mday) tm (schedulerGetDayNextcheck interval tm) := by
  rw [schedulerGetDayNextcheck, if_neg hutc]
  by_cases hmdays : interval.mdays = []
  · rw [if_pos hmdays]
    by_cases hwdays : interval.wdays = []
    · rw [schedulerGetWdayNextcheck, if_pos hwdays]
      have hset : ∀ mday, MonthStops interval tm.month tm.mday mday ↔ tm.mday ≤ mday ∧ mday ≤ monthDays tm.month := by
        intro mday
        rw [MonthStops, if_neg (not_not.mpr hmdays), if_neg (not_not.mpr hwdays)]
      exact ⟨tm.mday, rfl, (hset _).mpr ⟨le_rfl, hmonth⟩, fun x hx => ((hset x).mp hx).1⟩
    · obtain ⟨mday, heq, hleast⟩ := schedulerGetWdayNextcheck_found hmon hepoch hday hw.wdays hwdays
      refine ⟨mday, heq, hleast.congr fun x => ?_⟩
      rw [MonthStops, if_neg (not_not.mpr hmdays), if_pos hwdays]
  · rw [if_neg hmdays]
    obtain ⟨mday, heq, hleast⟩ := @mdayLoop_found interval tm hmon 32 (Nat.le_add_right 32 tm.mday)
    refine ⟨mday, heq, hleast.congr fun x => ?_⟩
    rw [MonthStops, if_pos hmdays]

end

section

structure Tm.Valid (tm : Tm) : Prop where
  mon : tm.mon < 12
  epoch : epochMonth ≤ tm.month
  mday : 1 ≤ tm.mday
  month : tm.mday ≤ monthDays tm.month
  hour : tm.hour ≤ 23
  min : tm.min ≤ 59
  sec : tm.sec ≤ 59

lemma bmod_nonneg {n : ℕ} (h : n < 2 ^ 31 ∨ 2 ^ 32 ≤ n ∧ n < 2 ^ 32 + 2 ^ 31) : 0 ≤ Int.bmod n (2 ^ 32) := by
  simp only [Int.bmod]
  split_ifs <;> omega

lemma Tm.Valid.utcTime {tm : Tm} (h : tm.Valid) (hyear : tm.year < 138 ∨ tm.year = 207 ∨ tm.year = 208) :
    utcTime (tm.year + 1900) (tm.mon + 1) tm.mday tm.hour tm.min tm.sec ≠ none := by
  obtain ⟨hmon, hepoch, hmday, hmonth, hhour, hmin, hsec⟩ := h
  have hdays := dayInMonth_eq (tm.year + 1900) hmon
  have hmax := (monthDays_bounds tm.month).2
  rw [monthDays, (Tm.month_div hmon).1, (Tm.month_div hmon).2] at hmonth hmax
  have hseventy : 70 ≤ tm.year := by
    simp only [epochMonth, Tm.month] at hepoch
    omega
  rw [Expr.utcTime, if_pos (by omega)]
  have htable : [0, 31, 59, 90, 120, 151, 181, 212, 243, 273, 304, 334].getD (tm.mon + 1 - 1) 0 ≤ 334 := by
    interval_cases tm.mon <;> decide
  have hsum := @bmod_nonneg ((tm.year + 1900 - 1970) * (365 * secPerDay) +
    (leapYears (if 2 < tm.mon + 1 then tm.year + 1900 + 1 else tm.year + 1900) - leapYears 1970) * secPerDay +
    ([0, 31, 59, 90, 120, 151, 181, 212, 243, 273, 304, 334].getD (tm.mon + 1 - 1) 0 + tm.mday - 1) * secPerDay +
    tm.hour * secPerHour + tm.min * secPerMin + tm.sec) (by
      simp only [leapYears, secPerDay, secPerHour, secPerMin]
      split_ifs <;> omega)
  dsimp only
  rw [if_pos hsum]
  exact Option.some_ne_none _

end

section

attribute [local irreducible] utcTime

variable {interval : SchedulerInterval} {month start mday n : ℕ} {found : Option ℕ}

lemma MonthStops.bounds (h : MonthStops interval month start mday) : start ≤ mday ∧ mday ≤ monthDays month + 1 := by
  have hlast := lastDay_le month mday
  rw [MonthStops] at h
  split_ifs at h
  · exact ⟨h.1.le fun _ _ => nearest_ge, h.2.1.trans hlast⟩
  · exact ⟨h.1.1, h.2.trans hlast⟩
  · exact ⟨h.1, Nat.le_succ_of_le h.2⟩

lemma least_dayStops (h : Least (MonthStops interval month start) found) :
    Least (DayStops interval month start) found := by
  cases found with
  | none => exact fun x hx => h x hx.1
  | some mday =>
    refine ⟨⟨h.1, ?_⟩, fun x hx => h.2 x hx.1⟩
    rintro ⟨hover, rfl, hstart⟩
    exact absurd (h.2 _ hstart) (not_le.mpr hover)

lemma monthsAccept_succ (h : Least (DayStops interval month start) none) :
    MonthsAccept interval month start n ↔ MonthsAccept interval (month + 1) 1 n := by
  constructor
  · rintro ⟨later, mday, hle, rfl, hstops⟩
    obtain rfl | hlt := hle.eq_or_lt
    · rw [if_pos rfl] at hstops
      exact absurd hstops (h mday)
    · rw [if_neg hlt.ne'] at hstops
      exact ⟨later, mday, hlt, rfl, by rwa [ite_self]⟩
  · rintro ⟨later, mday, hlt, rfl, hstops⟩
    rw [ite_self] at hstops
    exact ⟨later, mday, Nat.le_of_succ_le hlt, rfl, by rwa [if_neg (Nat.lt_of_succ_le hlt).ne']⟩

lemma MonthsAccept.ge (hepoch : epochMonth ≤ month) (hstart : 1 ≤ start)
    (h : MonthsAccept interval month start n) (hmonth : start ≤ monthDays month) : firstDay month + start - 1 ≤ n := by
  obtain ⟨later, mday, hle, rfl, hstops⟩ := h
  have hge := hstops.1.bounds.1
  obtain rfl | hlt := hle.eq_or_lt
  · rw [if_pos rfl] at hge
    omega
  · rw [if_neg hlt.ne'] at hge
    have hfirst := firstDay_mono (hepoch.trans (Nat.le_succ month)) hlt
    rw [firstDay_succ hepoch] at hfirst
    omega

lemma least_monthsAccept (hepoch : epochMonth ≤ month)
    (h : Least (DayStops interval month start) (some mday)) :
    Least (MonthsAccept interval month start) (some (firstDay month + mday - 1)) := by
  refine ⟨⟨month, mday, le_rfl, rfl, by rw [if_pos rfl]; exact h.1⟩, ?_⟩
  rintro _ ⟨later, mday', hle, rfl, hstops⟩
  obtain rfl | hlt := hle.eq_or_lt
  · rw [if_pos rfl] at hstops
    have := h.2 mday' hstops
    omega
  · rw [if_neg hlt.ne'] at hstops
    have hge := hstops.1.bounds.1
    have hbound := h.1.1.bounds.2
    have hfirst := firstDay_mono (hepoch.trans (Nat.le_succ month)) hlt
    rw [firstDay_succ hepoch] at hfirst
    omega

def day2038 : ℕ := 24837

def before2038 (n : ℕ) : Option ℕ := if n < day2038 then some n else none

lemma least_before2038 {S : ℕ → Prop} (h : Least S (some n)) : Least (fun x => S x ∧ x < day2038) (before2038 n) := by
  rw [before2038]
  split_ifs with hlt
  · exact ⟨⟨h.1, hlt⟩, fun x hx => h.2 x hx.1⟩
  · exact fun x hx => hlt ((h.2 x hx.1).trans_lt hx.2)

lemma day2038_le (h : 138 ≤ month / 12) : day2038 ≤ firstDay month := by
  have hfirst : firstDay 1656 = day2038 := by decide
  rw [← hfirst]
  exact firstDay_mono (by decide) (by omega)

variable {tm tm' : Tm}

lemma Tm.nextMonth_month (hmon : tm.mon < 12) : tm.nextMonth.mon < 12 ∧ tm.nextMonth.month = tm.month + 1 := by
  simp only [Tm.nextMonth, Tm.month]
  split_ifs <;> simp only <;> omega

lemma Tm.Valid.nextMonth (h : tm.Valid) : tm.nextMonth.Valid ∧ tm.nextMonth.mday = 1 := by
  obtain ⟨hmon, hmonth⟩ := Tm.nextMonth_month h.mon
  have hmday : tm.nextMonth.mday = 1 := by
    rw [Tm.nextMonth]
    split_ifs <;> rfl
  have htime : tm.nextMonth.hour = tm.hour ∧ tm.nextMonth.min = tm.min ∧ tm.nextMonth.sec = tm.sec := by
    rw [Tm.nextMonth]
    split_ifs <;> exact ⟨rfl, rfl, rfl⟩
  have hdays := (monthDays_bounds tm.nextMonth.month).1
  refine ⟨⟨hmon, ?_, hmday.ge, ?_, htime.1 ▸ h.hour, htime.2.1 ▸ h.min, htime.2.2 ▸ h.sec⟩, hmday⟩
  · rw [hmonth]
    exact Nat.le_succ_of_le h.epoch
  · rw [hmday]
    omega

def Tm.onDay (tm : Tm) (month mday : ℕ) : Tm := { tm with year := month / 12, mon := month % 12, mday := mday }

lemma Tm.onDay_month (hmon : tm.mon < 12) (mday : ℕ) : tm.onDay tm.month mday = { tm with mday := mday } := by
  simp only [Tm.onDay, (Tm.month_div hmon).1, (Tm.month_div hmon).2]

lemma Tm.nextMonth_onDay (tm : Tm) (month mday : ℕ) : tm.nextMonth.onDay month mday = tm.onDay month mday := by
  simp only [Tm.onDay, Tm.nextMonth]
  split_ifs <;> rfl

lemma applyDayLoop_found (hw : interval.WellFormed) {fuel : ℕ} (hv : tm.Valid)
    (h : applyDayLoop interval fuel tm = some tm') :
    ∃ month mday, tm' = tm.onDay month mday ∧ tm.month ≤ month ∧ 1 ≤ mday ∧
      Least (fun n => MonthsAccept interval tm.month tm.mday n ∧ n < day2038)
        (before2038 (firstDay month + mday - 1)) := by
  induction fuel generalizing tm with
  | zero => cases h
  | succ fuel ih =>
    rw [applyDayLoop] at h
    obtain ⟨-, hnext⟩ := Tm.nextMonth_month hv.mon
    by_cases hutc : utcTime (tm.year + 1900) (tm.mon + 1) tm.mday tm.hour tm.min tm.sec = none
    · -- the sum overflows, which it does in no year before 2038
      have hlate : 138 ≤ tm.month / 12 := by
        rw [(Tm.month_div hv.mon).1]
        by_contra! hlt
        exact hv.utcTime (.inl hlt) hutc
      have hfail : schedulerGetDayNextcheck interval tm = (false, tm) := by
        rw [schedulerGetDayNextcheck, if_pos hutc]
      rw [hfail] at h
      obtain ⟨month, mday, rfl, hle, hmday, -⟩ := ih hv.nextMonth.1 h
      rw [hnext] at hle
      have hfirst := day2038_le hlate
      have hmonth := firstDay_mono hv.epoch (Nat.le_of_succ_le hle)
      refine ⟨month, mday, tm.nextMonth_onDay month mday, Nat.le_of_succ_le hle, hmday, ?_⟩
      rw [before2038, if_neg (by omega)]
      rintro n ⟨hn, hlt⟩
      have hge := hn.ge hv.epoch hv.mday hv.month
      have hmday' := hv.mday
      omega
    · obtain ⟨mday, heq, hleast⟩ := schedulerGetDayNextcheck_found hv.mon hv.epoch hv.mday hv.month hw hutc
      have hdays := least_dayStops hleast
      split_ifs at h hdays with hok
      · cases h
        refine ⟨tm.month, mday, ?_, le_rfl, ?_, least_before2038 (least_monthsAccept hv.epoch hdays)⟩
        · rw [heq, Tm.onDay_month hv.mon]
        · exact hv.mday.trans hdays.1.1.bounds.1
      · have hsame : { tm with mday := mday }.nextMonth = tm.nextMonth := rfl
        rw [heq, hsame] at h
        obtain ⟨month, mday', rfl, hle, hmday, hrest⟩ := ih hv.nextMonth.1 h
        rw [hnext] at hle hrest
        refine ⟨month, mday', tm.nextMonth_onDay month mday', Nat.le_of_succ_le hle, hmday, hrest.congr fun n => ?_⟩
        rw [monthsAccept_succ hdays, hv.nextMonth.2]

lemma exists_long_month : ∀ v ∈ List.range 31, ∀ w ∈ List.range 7,
    ∃ g ∈ [2484, 2486, 2488, 2490, 2491, 2493, 2495, 2496, 2498, 2500, 2502, 2503, 2505, 2507],
      calculateDayofweek (g / 12 + 1900) (g % 12 + 1) (v + 1) = w + 1 := by decide

lemma long_month_days : ∀ g ∈ [2484, 2486, 2488, 2490, 2491, 2493, 2495, 2496, 2498, 2500, 2502, 2503, 2505, 2507],
    (g / 12 = 207 ∨ g / 12 = 208) ∧ epochMonth ≤ g ∧ lastDay (dayTm g 1) = 31 := by decide

lemma exists_month (hw : interval.WellFormed) :
    ∃ g mday, (g / 12 = 207 ∨ g / 12 = 208) ∧ MonthStops interval g 1 mday := by
  by_cases hmdays : interval.mdays = []
  · by_cases hwdays : interval.wdays = []
    · refine ⟨2484, 1, .inl rfl, ?_⟩
      rw [MonthStops, if_neg (not_not.mpr hmdays), if_neg (not_not.mpr hwdays)]
      exact ⟨le_rfl, (Nat.succ_le_succ (Nat.zero_le 27)).trans (monthDays_bounds _).1⟩
    · obtain ⟨w, hmonday⟩ := nearest_first hw.wdays hwdays
      have hle := nearest_le hw.wdays hmonday
      have hlast : lastDay (dayTm 2484 1) = 31 := by decide
      have hbounds := wdayOf_bounds 2484 1
      have hstops : ∃ mday ≤ 31, WeekStops interval.wdays 2484 1 mday := by
        cases hnext : schedulerGetNearestFilterValue interval.wdays (wdayOf 2484 1) with
        | none => exact ⟨_, by omega, (weekStops_next le_rfl hw.wdays hnext hmonday).1⟩
        | some v =>
          have := nearest_le hw.wdays hnext
          exact ⟨_, by omega, (weekStops_this le_rfl hw.wdays hnext).1⟩
      obtain ⟨mday, hmday, hstops⟩ := hstops
      refine ⟨2484, mday, .inl rfl, ?_⟩
      rw [MonthStops, if_neg (not_not.mpr hmdays), if_pos hwdays]
      exact ⟨hstops, hmday.trans hlast.ge⟩
  · obtain ⟨v, hv⟩ := nearest_first hw.mdays hmdays
    have hge := nearest_ge hv
    have hle := nearest_le hw.mdays hv
    obtain ⟨w, hw7, hvalid⟩ : ∃ w < 7, interval.wdays = [] ∨ interval.wdays.any fun filter => filter.holds (w + 1) := by
      by_cases hwdays : interval.wdays = []
      · exact ⟨0, by decide, .inl hwdays⟩
      · obtain ⟨filter, hf⟩ := List.exists_mem_of_ne_nil _ hwdays
        obtain ⟨hlow, hmid, hhigh⟩ := hw.wdays filter hf
        refine ⟨filter.start - 1, by omega, .inr (List.any_eq_true.mpr ⟨filter, hf, ?_⟩)⟩
        rw [Nat.sub_add_cancel hlow]
        exact SchedulerFilter.holds_start hmid
    obtain ⟨g, hg, hday⟩ := exists_long_month (v - 1) (List.mem_range.mpr (by omega)) w (List.mem_range.mpr hw7)
    obtain ⟨hyear, hepoch, hlast⟩ := long_month_days g hg
    refine ⟨g, v, hyear, ?_⟩
    rw [MonthStops, if_pos hmdays]
    refine ⟨.here hv, hle.trans hlast.ge, ?_⟩
    rw [Nat.sub_add_cancel hge] at hday
    simp only [schedulerValidateWdayFilter, dayTm, hday, decide_eq_true_eq]
    exact hvalid

lemma applyDayLoop_total (hw : interval.WellFormed) {fuel g : ℕ} (hv : tm.Valid)
    (hg : g / 12 = 207 ∨ g / 12 = 208) (hmday : MonthStops interval g 1 mday)
    (hle : tm.month < g ∨ tm.month = g ∧ tm.mday = 1) (hfuel : g < tm.month + fuel) :
    ∃ tm', applyDayLoop interval fuel tm = some tm' := by
  induction fuel generalizing tm with
  | zero => omega
  | succ fuel ih =>
    rw [applyDayLoop]
    obtain ⟨-, hnext⟩ := Tm.nextMonth_month hv.mon
    have hsame : (schedulerGetDayNextcheck interval tm).2.nextMonth = tm.nextMonth := by
      by_cases hutc : utcTime (tm.year + 1900) (tm.mon + 1) tm.mday tm.hour tm.min tm.sec = none
      · rw [schedulerGetDayNextcheck, if_pos hutc]
      · obtain ⟨_, heq, -⟩ := schedulerGetDayNextcheck_found hv.mon hv.epoch hv.mday hv.month hw hutc
        rw [heq]
        rfl
    split_ifs with hok
    · exact ⟨_, rfl⟩
    · rw [hsame]
      obtain hlt | ⟨rfl, hone⟩ := hle
      · refine ih hv.nextMonth.1 ?_ (by rw [hnext]; omega)
        rw [hnext, hv.nextMonth.2]
        omega
      -- the lookups stop in this month, so they do not fail
      · rw [(Tm.month_div hv.mon).1] at hg
        obtain ⟨_, -, hleast⟩ := schedulerGetDayNextcheck_found hv.mon hv.epoch hv.mday hv.month hw (hv.utcTime (.inr hg))
        rw [if_neg hok, hone] at hleast
        exact absurd hmday (hleast mday)

end

end Glaber.Expr
