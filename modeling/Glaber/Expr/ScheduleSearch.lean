import Glaber.Expr.ScheduleDays

namespace Glaber.Expr

open Glaber.Lib.Calendar Glaber.Lib.Odometer

section

variable {interval : SchedulerInterval} {month start mday : ℕ}

lemma next_eq_self {next : ℕ → Option ℕ} {b : ℕ} (hnext : ∀ b v, next b = some v → b ≤ v) (h : Stops next b b) :
    next b = some b := by
  cases h with
  | here h => exact h
  | later h hrest =>
    have := hnext _ _ h
    have := hrest.le hnext
    omega

lemma weekStops_behind {filters : List SchedulerFilter} (hstart : 1 ≤ start)
    (hnext : schedulerGetNearestFilterValue filters (wdayOf month start) = some (wdayOf month start)) :
    start < mday ∧ WeekStops filters month start mday ↔ WeekStops filters month (start + 1) mday := by
  rw [WeekStops, WeekStops, ← and_assoc, Nat.succ_le_iff, and_iff_left_of_imp le_of_lt]
  refine and_congr_right fun hlt => ?_
  obtain ⟨k, rfl⟩ := Nat.exists_eq_add_of_lt hlt
  have hbounds := wdayOf_bounds month start
  have hday := wdayOf_add month hstart (k + 1)
  have hone := wdayOf_add month hstart 1
  rw [← add_assoc] at hday
  obtain hweek | hweek : wdayOf month start + k + 1 ≤ 7 ∨ 7 < wdayOf month start + k + 1 := by omega
  · have hsame : wdayOf month (start + k + 1) = wdayOf month start + k + 1 := by omega
    have hnextDay : wdayOf month (start + 1) = wdayOf month start + 1 := by omega
    rw [max_eq_left (by omega), max_eq_left (by omega), hnextDay, ← stops_behind (fun _ _ => nearest_ge) hnext]
    exact (and_iff_right (by omega)).symm
  · rw [max_eq_right (by omega), max_eq_right (by omega)]

lemma monthStops_behind (h : MonthStops interval month start start) (hstart : 1 ≤ start) :
    start < mday ∧ MonthStops interval month start mday ↔ MonthStops interval month (start + 1) mday := by
  simp only [MonthStops] at h ⊢
  split_ifs at h ⊢
  · have hnext := next_eq_self (fun _ _ => nearest_ge) h.1
    rw [← and_assoc, stops_behind (fun _ _ => nearest_ge) hnext]
  · obtain ⟨⟨-, hstops⟩, -⟩ := h
    have hbounds := wdayOf_bounds month start
    rw [max_eq_left (by omega)] at hstops
    have hnext := next_eq_self (fun _ _ => nearest_ge) hstops
    rw [← and_assoc, weekStops_behind hstart hnext]
  · omega

variable {tm : Tm} {found : Option ℕ}

def Tm.number (tm : Tm) : ℕ := firstDay tm.month + tm.mday - 1

lemma Tm.Valid.dateOf_number (hv : tm.Valid) : dateOf tm.number = ⟨tm.year + 1900, tm.mon + 1, tm.mday⟩ := by
  have hdate : (Date.mk (tm.year + 1900) (tm.mon + 1) tm.mday).Valid := by
    have hyear : 70 ≤ tm.year := by
      have hepoch := hv.epoch
      have hmon := hv.mon
      simp only [epochMonth, Tm.month] at hepoch
      omega
    have hmonth := hv.month
    rw [monthDays, (Tm.month_div hv.mon).1, (Tm.month_div hv.mon).2] at hmonth
    exact valid_mk (by omega) (Nat.le_add_left _ _) hv.mon hv.mday hmonth
  rw [← hdate.dateOf_number, Tm.number, firstDay, (Tm.month_div hv.mon).1, (Tm.month_div hv.mon).2, Date.number,
    Nat.add_sub_assoc hv.mday]

lemma Tm.Valid.dayAccepted (hv : tm.Valid) : DayAccepted interval tm.number = MonthsAccept interval tm.month tm.mday := by
  rw [DayAccepted, monthOf, hv.dateOf_number]
  simp only [Nat.add_sub_cancel, Tm.month]

lemma Tm.Valid.monthStops (hv : tm.Valid) (h : DayAccepted interval tm.number tm.number) :
    MonthStops interval tm.month tm.mday tm.mday := by
  rw [hv.dayAccepted] at h
  obtain ⟨later, mday, hle, heq, hstops⟩ := h
  have hmday := hv.mday
  have hmonth := hv.month
  have hge := hstops.1.bounds.1
  rw [Tm.number] at heq
  obtain rfl | hlt := hle.eq_or_lt
  · rw [if_pos rfl] at hstops hge
    obtain rfl : tm.mday = mday := by omega
    exact hstops.1
  · rw [if_neg hlt.ne'] at hge
    have hfirst := firstDay_mono (hv.epoch.trans (Nat.le_succ _)) hlt
    rw [firstDay_succ hv.epoch] at hfirst
    omega

lemma Tm.Valid.next (hv : tm.Valid) :
    (tm.mday < monthDays tm.month ∧
      DayAccepted interval (tm.number + 1) = MonthsAccept interval tm.month (tm.mday + 1)) ∨
    (tm.mday = monthDays tm.month ∧ DayAccepted interval (tm.number + 1) = MonthsAccept interval (tm.month + 1) 1) := by
  obtain hlt | heq := hv.month.lt_or_eq
  · have hnext : { tm with mday := tm.mday + 1 }.Valid := { hv with mday := Nat.le_add_left _ _, month := hlt }
    have hnumber : { tm with mday := tm.mday + 1 }.number = tm.number + 1 := by
      have := hv.mday
      simp only [Tm.number, Tm.month]
      omega
    exact .inl ⟨hlt, hnumber ▸ hnext.dayAccepted⟩
  · have hnumber : tm.nextMonth.number = tm.number + 1 := by
      have := hv.mday
      rw [Tm.number, hv.nextMonth.2, (Tm.nextMonth_month hv.mon).2, firstDay_succ hv.epoch, Tm.number, heq]
      omega
    refine .inr ⟨heq, ?_⟩
    rw [← hnumber, hv.nextMonth.1.dayAccepted, hv.nextMonth.2, (Tm.nextMonth_month hv.mon).2]

lemma Tm.Valid.later_gt (hv : tm.Valid) {later mday : ℕ} (hlt : tm.month < later) (hge : 1 ≤ mday) :
    tm.number < firstDay later + mday - 1 := by
  have hmday := hv.mday
  have hmonth := hv.month
  have hfirst := firstDay_mono (hv.epoch.trans (Nat.le_succ _)) hlt
  rw [firstDay_succ hv.epoch] at hfirst
  rw [Tm.number]
  omega

lemma dayAccepted_of_next (hv : tm.Valid) (hstops : MonthStops interval tm.month tm.mday tm.mday) {n : ℕ}
    (h : DayAccepted interval (tm.number + 1) n) : tm.number < n ∧ DayAccepted interval tm.number n := by
  have hmday := hv.mday
  rw [hv.dayAccepted]
  obtain ⟨hlt, hnext⟩ | ⟨hlast, hnext⟩ := @Tm.Valid.next interval tm hv
  · rw [hnext] at h
    obtain ⟨later, mday, hle, rfl, hday⟩ := h
    obtain rfl | hlater := hle.eq_or_lt
    · rw [if_pos rfl] at hday
      obtain ⟨hbehind, hmonth⟩ := (monthStops_behind hstops hmday).mpr hday.1
      refine ⟨by rw [Tm.number]; omega, tm.month, mday, le_rfl, rfl, ?_⟩
      rw [if_pos rfl]
      exact ⟨hmonth, fun hbad => hlt.ne hbad.2.1⟩
    · rw [if_neg hlater.ne'] at hday
      refine ⟨hv.later_gt hlater hday.1.bounds.1, later, mday, hle, rfl, ?_⟩
      rwa [if_neg hlater.ne']
  · rw [hnext] at h
    obtain ⟨later, mday, hle, rfl, hday⟩ := h
    have hlater : tm.month < later := hle
    rw [ite_self] at hday
    refine ⟨hv.later_gt hlater hday.1.bounds.1, later, mday, hlater.le, rfl, ?_⟩
    rwa [if_neg hlater.ne']

lemma dayAccepted_next (hv : tm.Valid) (hstops : MonthStops interval tm.month tm.mday tm.mday) {n : ℕ}
    (hn : tm.number < n) (h : DayAccepted interval tm.number n) :
    DayAccepted interval (tm.number + 1) n ∨ DayAccepted interval (tm.number + 1) (tm.number + 1) := by
  have hmday := hv.mday
  rw [hv.dayAccepted] at h
  obtain ⟨later, mday, hle, rfl, hday⟩ := h
  obtain ⟨hlt, hnext⟩ | ⟨hlast, hnext⟩ := @Tm.Valid.next interval tm hv
  · rw [hnext]
    obtain rfl | hlater := hle.eq_or_lt
    · rw [if_pos rfl] at hday
      rw [Tm.number] at hn
      have hmonth := (monthStops_behind hstops hmday).mp ⟨by omega, hday.1⟩
      by_cases hbad : monthDays tm.month < mday ∧ tm.mday + 1 = monthDays tm.month ∧
          MonthStops interval tm.month (tm.mday + 1) (tm.mday + 1)
      · refine .inr ⟨tm.month, tm.mday + 1, le_rfl, by rw [Tm.number]; omega, ?_⟩
        rw [if_pos rfl]
        exact ⟨hbad.2.2, fun h => absurd h.1 (not_lt.mpr hlt)⟩
      · refine .inl ⟨tm.month, mday, le_rfl, rfl, ?_⟩
        rw [if_pos rfl]
        exact ⟨hmonth, hbad⟩
    · rw [if_neg hlater.ne'] at hday
      exact .inl ⟨later, mday, hle, rfl, by rwa [if_neg hlater.ne']⟩
  · rw [hnext]
    obtain rfl | hlater := hle.eq_or_lt
    · rw [if_pos rfl] at hday
      rw [Tm.number] at hn
      exact absurd ⟨by omega, hlast, hstops⟩ hday.2
    · rw [if_neg hlater.ne'] at hday
      exact .inl ⟨later, mday, hlater, rfl, by rwa [ite_self]⟩

lemma least_behind (hv : tm.Valid) (h : DayAccepted interval tm.number tm.number)
    (hleast : Least (fun n => DayAccepted interval (tm.number + 1) n ∧ n < day2038) found) :
    Least (fun n => tm.number < n ∧ DayAccepted interval tm.number n ∧ n < day2038) found := by
  have hstops := hv.monthStops h
  have hfrom : ∀ n, tm.number < n ∧ DayAccepted interval tm.number n ∧ n < day2038 →
      ∃ m ≤ n, DayAccepted interval (tm.number + 1) m ∧ m < day2038 := by
    rintro n ⟨hn, hday, hlt⟩
    obtain hsame | hnext := dayAccepted_next hv hstops hn hday
    · exact ⟨n, le_rfl, hsame, hlt⟩
    · exact ⟨tm.number + 1, hn, hnext, hlt.trans_le' hn⟩
  cases found with
  | none =>
    intro n hn
    obtain ⟨m, -, hm⟩ := hfrom n hn
    exact hleast m hm
  | some v =>
    obtain ⟨⟨hv', hlt⟩, hmin⟩ := hleast
    obtain ⟨hgt, hday⟩ := dayAccepted_of_next hv hstops hv'
    refine ⟨⟨hgt, hday, hlt⟩, fun n hn => ?_⟩
    obtain ⟨m, hle, hm⟩ := hfrom n hn
    exact (hmin m hm).trans hle

end

section

attribute [local irreducible] utcTime

variable {interval : SchedulerInterval} {tm : Tm} {fuel : ℕ}

def Moved (tm tm' : Tm) (month mday : ℕ) : Prop :=
  (month = tm.month ∧ mday = tm.mday ∧ tm' = tm) ∨ (¬(month = tm.month ∧ mday = tm.mday) ∧ tm' = dayTm month mday)

lemma schedulerApplyDayFilter_eq (hmon : tm.mon < 12) {month mday : ℕ}
    (h : applyDayLoop interval fuel tm = some (tm.onDay month mday)) :
    ∃ tm', schedulerApplyDayFilter interval fuel tm = some tm' ∧ Moved tm tm' month mday := by
  simp only [schedulerApplyDayFilter, h, Option.bind_eq_bind, Option.bind_some]
  have hchange : ((tm.onDay month mday).mday ≠ tm.mday ∨ (tm.onDay month mday).mon ≠ tm.mon ∨
      (tm.onDay month mday).year ≠ tm.year) ↔ ¬(month = tm.month ∧ mday = tm.mday) := by
    simp only [Tm.onDay, Tm.month]
    omega
  split_ifs with hnew
  · exact ⟨_, rfl, .inr ⟨hchange.mp hnew, rfl⟩⟩
  · obtain ⟨rfl, rfl⟩ := not_not.mp (mt hchange.mpr hnew)
    exact ⟨_, rfl, .inl ⟨rfl, rfl, Tm.onDay_month hmon _⟩⟩

lemma applyDayLoop_least (hw : interval.WellFormed) (hv : tm.Valid) (hyear : tm.year ≤ 138) (hfuel : 2000 ≤ fuel) :
    ∃ month mday, applyDayLoop interval fuel tm = some (tm.onDay month mday) ∧ tm.month ≤ month ∧ 1 ≤ mday ∧
      Least (fun n => MonthsAccept interval tm.month tm.mday n ∧ n < day2038)
        (before2038 (firstDay month + mday - 1)) := by
  obtain ⟨g, mday, hg, hmday⟩ := exists_month hw
  have hmonth : tm.month < g ∧ epochMonth ≤ tm.month := by
    have hmon := hv.mon
    refine ⟨?_, hv.epoch⟩
    rw [Tm.month]
    omega
  simp only [epochMonth] at hmonth
  obtain ⟨tm', hloop⟩ := @applyDayLoop_total interval mday tm hw fuel g hv hg hmday (.inl hmonth.1) (by omega)
  obtain ⟨month, mday, rfl, hmonth, hmday, hleast⟩ := applyDayLoop_found hw hv hloop
  exact ⟨month, mday, hloop, hmonth, hmday, hleast⟩

lemma applyDayLoop_over (hv : tm.Valid) (hlast : tm.mday = monthDays tm.month) :
    applyDayLoop interval (fuel + 1) { tm with mday := tm.mday + 1 } = applyDayLoop interval fuel tm.nextMonth := by
  have hutc : utcTime (tm.year + 1900) (tm.mon + 1) (tm.mday + 1) tm.hour tm.min tm.sec = none := by
    rw [utcTime, if_neg]
    rintro ⟨-, -, -, -, hday, -⟩
    rw [dayInMonth_eq _ hv.mon] at hday
    rw [monthDays, (Tm.month_div hv.mon).1, (Tm.month_div hv.mon).2] at hlast
    omega
  have hfail : schedulerGetDayNextcheck interval { tm with mday := tm.mday + 1 } =
      (false, { tm with mday := tm.mday + 1 }) := by
    rw [schedulerGetDayNextcheck, if_pos hutc]
  rw [applyDayLoop, hfail]
  rfl

lemma schedulerApplyDayFilter_behind (hw : interval.WellFormed) (hv : tm.Valid) (hyear : tm.year ≤ 137)
    (hhour : tm.hour = 0) (hfuel : 2001 ≤ fuel) :
    ∃ tm' month mday, schedulerApplyDayFilter interval fuel { tm with mday := tm.mday + 1 } = some tm' ∧
      tm'.hour = 0 ∧ tm'.year = month / 12 ∧ tm'.mon = month % 12 ∧ tm'.mday = mday ∧
      Least (fun n => DayAccepted interval (tm.number + 1) n ∧ n < day2038)
        (before2038 (firstDay month + mday - 1)) := by
  obtain ⟨month, mday, hloop, hleast⟩ : ∃ month mday,
      applyDayLoop interval fuel { tm with mday := tm.mday + 1 } =
        some ({ tm with mday := tm.mday + 1 }.onDay month mday) ∧
      Least (fun n => DayAccepted interval (tm.number + 1) n ∧ n < day2038)
        (before2038 (firstDay month + mday - 1)) := by
    obtain ⟨hlt, hnext⟩ | ⟨hlast, hnext⟩ := @Tm.Valid.next interval tm hv
    · rw [hnext]
      have hv' : { tm with mday := tm.mday + 1 }.Valid := { hv with mday := Nat.le_add_left _ _, month := hlt }
      obtain ⟨month, mday, hloop, -, -, hleast⟩ := applyDayLoop_least hw hv' (Nat.le_succ_of_le hyear)
        (Nat.le_of_succ_le hfuel)
      exact ⟨month, mday, hloop, hleast⟩
    · rw [hnext]
      obtain ⟨fuel, rfl⟩ := Nat.exists_eq_add_of_le' (Nat.one_le_of_lt hfuel)
      have hyear' : tm.nextMonth.year ≤ 138 := by
        rw [Tm.nextMonth]
        split_ifs <;> simp only <;> omega
      obtain ⟨month, mday, hloop, -, -, hleast⟩ := @applyDayLoop_least interval tm.nextMonth fuel hw hv.nextMonth.1 hyear'
        (Nat.le_of_succ_le_succ hfuel)
      rw [hv.nextMonth.2, (Tm.nextMonth_month hv.mon).2] at hleast
      refine ⟨month, mday, ?_, hleast⟩
      rw [applyDayLoop_over hv hlast, hloop, tm.nextMonth_onDay]
      rfl
  have hmon : { tm with mday := tm.mday + 1 }.mon < 12 := hv.mon
  obtain ⟨tm', happly, ⟨rfl, rfl, rfl⟩ | ⟨-, rfl⟩⟩ := schedulerApplyDayFilter_eq hmon hloop
  · exact ⟨_, _, _, happly, hhour, (Tm.month_div hmon).1.symm, (Tm.month_div hmon).2.symm, rfl, hleast⟩
  · exact ⟨_, _, _, happly, rfl, rfl, rfl, rfl, hleast⟩

end

section

variable {interval : SchedulerInterval} {tm next : Tm} {fuel v first : ℕ}

lemma schedulerApplyHourFilter_some (hfuel : 1 ≤ fuel) (h : hourNext interval tm.hour = some v) :
    schedulerApplyHourFilter interval fuel tm =
      some (if v ≠ tm.hour then { tm with hour := v, min := 0, sec := 0 } else tm) := by
  obtain ⟨n, hn⟩ := Nat.exists_eq_add_of_le' hfuel
  have hloop : applyHourLoop interval fuel fuel tm = some { tm with hour := v } := by
    simp only [hourNext] at h
    rw [hn, applyHourLoop, h]
  simp only [schedulerApplyHourFilter, hloop, Option.bind_eq_bind, Option.bind_some]
  split_ifs with hne
  · rfl
  · obtain rfl := not_not.mp hne
    rfl

lemma schedulerApplyHourFilter_none (hw : interval.WellFormed) (hfuel : 2 ≤ fuel) (h : hourNext interval tm.hour = none)
    (hzero : hourNext interval 0 = some first)
    (hday : schedulerApplyDayFilter interval fuel { tm with mday := tm.mday + 1, hour := 0 } = some next)
    (hnext : next.hour = 0) :
    schedulerApplyHourFilter interval fuel tm = some { next with hour := first, min := 0, sec := 0 } := by
  have hne : first ≠ tm.hour := unitNext_ne hw.hours h hzero
  obtain ⟨n, hn⟩ := Nat.exists_eq_add_of_le' hfuel
  have hloop : applyHourLoop interval fuel fuel tm = some { next with hour := first } := by
    simp only [hourNext] at h hzero
    rw [← hnext] at hzero
    conv_lhs => rw [hn, applyHourLoop, ← hn, h]
    simp only [hday, Option.bind_eq_bind, Option.bind_some]
    rw [applyHourLoop, hzero]
  simp only [schedulerApplyHourFilter, hloop, Option.bind_eq_bind, Option.bind_some]
  rw [if_pos hne]
  rfl

lemma schedulerApplyMinuteFilter_some (hfuel : 1 ≤ fuel) (h : minuteNext interval tm.min = some v) :
    schedulerApplyMinuteFilter interval fuel tm =
      some (if v ≠ tm.min then { tm with min := v, sec := 0 } else tm) := by
  obtain ⟨n, hn⟩ := Nat.exists_eq_add_of_le' hfuel
  have hloop : applyMinuteLoop interval fuel fuel tm = some { tm with min := v } := by
    simp only [minuteNext] at h
    rw [hn, applyMinuteLoop, h]
  simp only [schedulerApplyMinuteFilter, hloop, Option.bind_eq_bind, Option.bind_some]
  split_ifs with hne
  · rfl
  · obtain rfl := not_not.mp hne
    rfl

lemma schedulerApplyMinuteFilter_none (hw : interval.WellFormed) (hfuel : 2 ≤ fuel)
    (h : minuteNext interval tm.min = none) (hzero : minuteNext interval 0 = some first)
    (hhour : schedulerApplyHourFilter interval fuel { tm with hour := tm.hour + 1, min := 0 } = some next)
    (hnext : next.min = 0) :
    schedulerApplyMinuteFilter interval fuel tm = some { next with min := first, sec := 0 } := by
  have hne : first ≠ tm.min := unitNext_ne hw.minutes h hzero
  obtain ⟨n, hn⟩ := Nat.exists_eq_add_of_le' hfuel
  have hloop : applyMinuteLoop interval fuel fuel tm = some { next with min := first } := by
    simp only [minuteNext] at h hzero
    rw [← hnext] at hzero
    conv_lhs => rw [hn, applyMinuteLoop, ← hn, h]
    simp only [hhour, Option.bind_eq_bind, Option.bind_some]
    rw [applyMinuteLoop, hzero]
  simp only [schedulerApplyMinuteFilter, hloop, Option.bind_eq_bind, Option.bind_some]
  rw [if_pos hne]
  rfl

lemma schedulerApplySecondFilter_some (hfuel : 1 ≤ fuel) (h : secondNext interval tm.sec = some v) :
    schedulerApplySecondFilter interval fuel tm = some { tm with sec := v } := by
  obtain ⟨n, hn⟩ := Nat.exists_eq_add_of_le' hfuel
  simp only [secondNext] at h
  rw [schedulerApplySecondFilter, hn, applySecondLoop, h]

lemma schedulerApplySecondFilter_none (hfuel : 2 ≤ fuel) (h : secondNext interval tm.sec = none)
    (hzero : secondNext interval 0 = some first)
    (hminute : schedulerApplyMinuteFilter interval fuel { tm with min := tm.min + 1, sec := 0 } = some next)
    (hnext : next.sec = 0) : schedulerApplySecondFilter interval fuel tm = some { next with sec := first } := by
  obtain ⟨n, hn⟩ := Nat.exists_eq_add_of_le' hfuel
  simp only [secondNext] at h hzero
  rw [← hnext] at hzero
  rw [schedulerApplySecondFilter]
  conv_lhs => rw [hn, applySecondLoop, ← hn, h]
  simp only [hminute, Option.bind_eq_bind, Option.bind_some]
  rw [applySecondLoop, hzero]

end

section

variable {interval : SchedulerInterval} {tm : Tm} {fuel hour minute second : ℕ}

def minuteSearch (interval : SchedulerInterval) (fuel : ℕ) (tm : Tm) : Option Tm :=
  (schedulerApplyMinuteFilter interval fuel tm).bind (schedulerApplySecondFilter interval fuel)

def hourSearch (interval : SchedulerInterval) (fuel : ℕ) (tm : Tm) : Option Tm :=
  (schedulerApplyHourFilter interval fuel tm).bind (minuteSearch interval fuel)

structure Firsts (interval : SchedulerInterval) (hour minute second : ℕ) : Prop where
  hour : hourNext interval 0 = some hour
  minute : minuteNext interval 0 = some minute
  second : secondNext interval 0 = some second

lemma exists_firsts (hw : interval.WellFormed) : ∃ hour minute second, Firsts interval hour minute second := by
  obtain ⟨hour, hhour⟩ := @unitNext_zero interval.hours interval.filterLevel 2 23 hw.hours
  obtain ⟨minute, hminute⟩ := @unitNext_zero interval.minutes interval.filterLevel 3 59 hw.minutes
  obtain ⟨second, hsecond⟩ := @unitNext_zero interval.seconds interval.filterLevel 4 59 hw.seconds
  exact ⟨hour, minute, second, hhour, hminute, hsecond⟩

lemma hourStops_least (b : ℕ) : Least (Stops (hourNext interval) b) (hourNext interval b) :=
  stops_least (fun _ _ => unitNext_ge) b

lemma minuteStops_least (b : ℕ) : Least (Stops (minuteNext interval) b) (minuteNext interval b) :=
  stops_least (fun _ _ => unitNext_ge) b

lemma secondStops_least (b : ℕ) : Least (Stops (secondNext interval) b) (secondNext interval b) :=
  stops_least (fun _ _ => unitNext_ge) b

section

variable (hw : interval.WellFormed)
include hw

lemma secondStops_lt (b v : ℕ) (h : Stops (secondNext interval) b v) : v < 60 :=
  h.bounded fun _ _ hnext => Nat.lt_succ_of_le (unitNext_le hw.seconds hnext)

lemma minuteAccepted_lt (b v : ℕ) (h : MinuteAccepted interval b v) : v < 3600 :=
  Digits.bounded (m := 60) (secondStops_lt hw) (fun _ _ hstops => hstops.bounded fun _ _ hnext =>
    Nat.lt_succ_of_le (unitNext_le hw.minutes hnext)) h

lemma hourAccepted_lt (b v : ℕ) (h : HourAccepted interval b v) : v < secPerDay :=
  Digits.bounded (m := 24) (minuteAccepted_lt hw) (fun _ _ hstops => hstops.bounded fun _ _ hnext =>
    Nat.lt_succ_of_le (unitNext_le hw.hours hnext)) h

end

lemma minuteFirst_least (hw : interval.WellFormed) (hf : Firsts interval hour minute second) :
    Least (MinuteAccepted interval 0) (some (minute * 60 + second)) :=
  digits_zero (secondStops_lt hw) (fun _ _ h => h.le fun _ _ => unitNext_ge)
    (hf.minute ▸ @minuteStops_least interval 0) (hf.second ▸ @secondStops_least interval 0)

lemma hourFirst_least (hw : interval.WellFormed) (hf : Firsts interval hour minute second) :
    Least (HourAccepted interval 0) (some (hour * secPerHour + (minute * 60 + second))) :=
  digits_zero (minuteAccepted_lt hw) (fun _ _ h => h.le fun _ _ => unitNext_ge)
    (hf.hour ▸ @hourStops_least interval 0) (minuteFirst_least hw hf)

lemma minuteSearch_found (hw : interval.WellFormed) (hf : Firsts interval hour minute second) (hfuel : 2 ≤ fuel)
    (hsec : tm.sec ≤ 59) :
    (∃ m s, minuteSearch interval fuel tm = some { tm with min := m, sec := s } ∧
      Least (MinuteAccepted interval (tm.min * 60 + tm.sec)) (some (m * 60 + s))) ∨
    (Least (MinuteAccepted interval (tm.min * 60 + tm.sec)) none ∧ ∃ s ≤ 59, ∀ next,
      schedulerApplyHourFilter interval fuel { tm with hour := tm.hour + 1, min := 0, sec := s } = some next →
      next.min = 0 → minuteSearch interval fuel tm = some { next with min := minute, sec := second }) := by
  have hge : ∀ b v, Stops (minuteNext interval) b v → b ≤ v := fun _ _ h => h.le fun _ _ => unitNext_ge
  obtain ⟨hdiv, hmod⟩ := mul_add_div_mod (x := tm.min) (Nat.lt_succ_of_le hsec)
  have hmin := @minuteStops_least interval tm.min
  have hsecond := @secondStops_least interval tm.sec
  have hfirst := hf.second ▸ @secondStops_least interval 0
  have hfuel' := Nat.le_of_succ_le hfuel
  cases hm : minuteNext interval tm.min with
  | none =>
    rw [hm] at hmin
    refine .inr ⟨digits_none (hdiv.symm ▸ hmin), tm.sec, hsec, fun next happly hnext => ?_⟩
    rw [minuteSearch, schedulerApplyMinuteFilter_none hw hfuel hm hf.minute happly hnext, Option.bind_some]
    exact schedulerApplySecondFilter_some hfuel' hf.second
  | some m =>
    rw [hm] at hmin
    rw [minuteSearch, schedulerApplyMinuteFilter_some hfuel' hm, Option.bind_some]
    by_cases hne : m ≠ tm.min
    · rw [if_pos hne]
      refine .inl ⟨m, second, schedulerApplySecondFilter_some hfuel' hf.second, ?_⟩
      exact digits_past (secondStops_lt hw) (hdiv.symm ▸ hmin) (hdiv.symm ▸ hne) hfirst
    · obtain rfl := not_not.mp hne
      rw [if_neg hne]
      cases hs : secondNext interval tm.sec with
      | some s =>
        rw [hs] at hsecond
        refine .inl ⟨tm.min, s, schedulerApplySecondFilter_some hfuel' hs, ?_⟩
        have hhere := @digits_here _ _ 60 (tm.min * 60 + tm.sec) _ (secondStops_lt hw) hge (hdiv.symm ▸ hmin.1)
          (hmod.symm ▸ hsecond)
        rwa [hdiv] at hhere
      | none =>
        rw [hs] at hsecond
        have hbehind := (@minuteStops_least interval (tm.min + 1)).congr fun v =>
          (stops_behind (v := v) (fun _ _ => unitNext_ge) hm).symm
        have hnone : Least (Stops (secondNext interval) ((tm.min * 60 + tm.sec) % 60)) none := hmod.symm ▸ hsecond
        cases hm' : minuteNext interval (tm.min + 1) with
        | some m =>
          rw [hm', ← hdiv] at hbehind
          have happly : schedulerApplyMinuteFilter interval fuel { tm with min := tm.min + 1, sec := 0 } =
              some { tm with min := m, sec := 0 } := by
            rw [schedulerApplyMinuteFilter_some hfuel' hm']
            split_ifs with hsame
            · rfl
            · obtain rfl := not_not.mp hsame
              rfl
          refine .inl ⟨m, second, schedulerApplySecondFilter_none hfuel hs hf.second happly rfl, ?_⟩
          exact digits_next (secondStops_lt hw) hge hnone hbehind hfirst
        | none =>
          rw [hm', ← hdiv] at hbehind
          refine .inr ⟨digits_over hge hnone hbehind, 0, Nat.zero_le _, fun next happly hnext => ?_⟩
          have hminute := @schedulerApplyMinuteFilter_none interval { tm with min := tm.min + 1, sec := 0 } next fuel
            minute hw hfuel hm' hf.minute happly hnext
          exact schedulerApplySecondFilter_none hfuel hs hf.second hminute rfl

lemma minuteSearch_start (hf : Firsts interval hour minute second) (hfuel : 1 ≤ fuel) (hmin : tm.min = 0)
    (hsec : tm.sec = 0) : minuteSearch interval fuel tm = some { tm with min := minute, sec := second } := by
  have hminute : minuteNext interval tm.min = some minute := hmin ▸ hf.minute
  rw [minuteSearch, schedulerApplyMinuteFilter_some hfuel hminute, Option.bind_some]
  split_ifs with hne
  · exact schedulerApplySecondFilter_some hfuel hf.second
  · obtain rfl := not_not.mp hne
    exact schedulerApplySecondFilter_some hfuel (hsec ▸ hf.second)

lemma hourSearch_start (hf : Firsts interval hour minute second) (hfuel : 1 ≤ fuel) (hhour : tm.hour = 0)
    (hmin : tm.min = 0) (hsec : tm.sec = 0) :
    hourSearch interval fuel tm = some { tm with hour := hour, min := minute, sec := second } := by
  have hnext : hourNext interval tm.hour = some hour := hhour ▸ hf.hour
  rw [hourSearch, schedulerApplyHourFilter_some hfuel hnext, Option.bind_some]
  split_ifs with hne
  · exact minuteSearch_start hf hfuel rfl rfl
  · obtain rfl := not_not.mp hne
    exact minuteSearch_start hf hfuel hmin hsec

lemma hourSearch_found (hw : interval.WellFormed) (hf : Firsts interval hour minute second) (hfuel : 2 ≤ fuel)
    (hv : tm.Valid)
    (hday : ∀ m s, m ≤ 59 → s ≤ 59 → ∃ next,
      schedulerApplyDayFilter interval fuel { tm with mday := tm.mday + 1, hour := 0, min := m, sec := s } = some next ∧
        next.hour = 0) :
    (∃ h m s, hourSearch interval fuel tm = some { tm with hour := h, min := m, sec := s } ∧
      Least (HourAccepted interval (tm.hour * secPerHour + (tm.min * 60 + tm.sec)))
        (some (h * secPerHour + (m * 60 + s)))) ∨
    (Least (HourAccepted interval (tm.hour * secPerHour + (tm.min * 60 + tm.sec))) none ∧
      ∃ m s next, m ≤ 59 ∧ s ≤ 59 ∧ next.hour = 0 ∧
        schedulerApplyDayFilter interval fuel { tm with mday := tm.mday + 1, hour := 0, min := m, sec := s } =
          some next ∧
        hourSearch interval fuel tm = some { next with hour := hour, min := minute, sec := second }) := by
  have hmin := hv.min
  have hsec := hv.sec
  have hge : ∀ b v, Stops (hourNext interval) b v → b ≤ v := fun _ _ h => h.le fun _ _ => unitNext_ge
  have hlow : tm.min * 60 + tm.sec < secPerHour := by
    rw [secPerHour]
    omega
  obtain ⟨hdiv, hmod⟩ := mul_add_div_mod (x := tm.hour) hlow
  have hhour := @hourStops_least interval tm.hour
  have hfirst := minuteFirst_least hw hf
  have hfuel' := Nat.le_of_succ_le hfuel
  have hstart := fun next => @minuteSearch_start interval next fuel hour minute second hf hfuel'
  cases hh : hourNext interval tm.hour with
  | none =>
    rw [hh] at hhour
    obtain ⟨next, happly, hnext⟩ := hday tm.min tm.sec hmin hsec
    refine .inr ⟨digits_none (hdiv.symm ▸ hhour), tm.min, tm.sec, next, hmin, hsec, hnext, happly, ?_⟩
    rw [hourSearch, schedulerApplyHourFilter_none hw hfuel hh hf.hour happly hnext, Option.bind_some]
    exact hstart _ rfl rfl
  | some h =>
    rw [hh] at hhour
    rw [hourSearch, schedulerApplyHourFilter_some hfuel' hh, Option.bind_some]
    by_cases hne : h ≠ tm.hour
    · rw [if_pos hne]
      refine .inl ⟨h, minute, second, hstart _ rfl rfl, ?_⟩
      exact digits_past (minuteAccepted_lt hw) (hdiv.symm ▸ hhour) (hdiv.symm ▸ hne) hfirst
    · obtain rfl := not_not.mp hne
      rw [if_neg hne]
      obtain ⟨m, s, hsearch, hleast⟩ | ⟨hleast, s, hs, hcarry⟩ := minuteSearch_found hw hf hfuel hsec
      · refine .inl ⟨tm.hour, m, s, hsearch, ?_⟩
        have hhere := @digits_here _ _ secPerHour (tm.hour * secPerHour + (tm.min * 60 + tm.sec)) _
          (minuteAccepted_lt hw) hge (hdiv.symm ▸ hhour.1) (hmod.symm ▸ hleast)
        rwa [hdiv] at hhere
      · have hbehind := (@hourStops_least interval (tm.hour + 1)).congr fun v =>
          (stops_behind (v := v) (fun _ _ => unitNext_ge) hh).symm
        have hnone : Least (MinuteAccepted interval
          ((tm.hour * secPerHour + (tm.min * 60 + tm.sec)) % secPerHour)) none := hmod.symm ▸ hleast
        cases hh' : hourNext interval (tm.hour + 1) with
        | some h =>
          rw [hh', ← hdiv] at hbehind
          refine .inl ⟨h, minute, second, ?_, digits_next (minuteAccepted_lt hw) hge hnone hbehind hfirst⟩
          have happly := @schedulerApplyHourFilter_some interval
            { tm with hour := tm.hour + 1, min := 0, sec := s } fuel h hfuel' hh'
          split_ifs at happly with hsame
          · exact hcarry _ happly rfl
          · obtain rfl := not_not.mp hsame
            exact hcarry _ happly rfl
        | none =>
          rw [hh', ← hdiv] at hbehind
          obtain ⟨next, happly, hnext⟩ := hday 0 s (Nat.zero_le _) hs
          refine .inr ⟨digits_over hge hnone hbehind, 0, s, next, Nat.zero_le _, hs, hnext, happly, ?_⟩
          exact hcarry _ (schedulerApplyHourFilter_none hw hfuel hh' hf.hour happly hnext) rfl

end

section

lemma localtime_month (t : ℕ) : (localtime t).mon < 12 ∧ (localtime t).mon + 1 = (dateOf (t / secPerDay)).mon ∧
    (localtime t).year + 1900 = (dateOf (t / secPerDay)).year := by
  obtain ⟨hyear, ⟨hmon, hmon'⟩, -⟩ := dateOf_valid (t / secPerDay)
  simp only [localtime]
  omega

lemma localtime_valid (t : ℕ) : (localtime t).Valid := by
  obtain ⟨hlt, hmon, hyear⟩ := localtime_month t
  have hdate := dateOf_valid (t / secPerDay)
  have hyear' := hdate.year
  refine ⟨hlt, ?_, hdate.day.1, ?_, ?_, ?_, ?_⟩
  · rw [Tm.month, epochMonth]
    omega
  · rw [monthDays, (Tm.month_div hlt).1, (Tm.month_div hlt).2, hmon, hyear]
    exact hdate.day.2
  · simp only [localtime]
    omega
  · simp only [localtime]
    omega
  · simp only [localtime]
    omega

lemma localtime_number (t : ℕ) : (localtime t).number = t / secPerDay := by
  obtain ⟨hlt, hmon, hyear⟩ := localtime_month t
  have hday : 1 ≤ (localtime t).mday := (dateOf_valid (t / secPerDay)).day.1
  have hnumber := number_dateOf (t / secPerDay)
  rw [Date.number] at hnumber
  rw [Tm.number, firstDay, (Tm.month_div hlt).1, (Tm.month_div hlt).2, hmon, hyear, Nat.add_sub_assoc hday]
  exact hnumber

lemma localtime_time (t : ℕ) :
    (localtime t).hour * secPerHour + ((localtime t).min * 60 + (localtime t).sec) = t % secPerDay := by
  simp only [localtime, secPerHour, secPerMin, secPerDay]
  omega

lemma schedulerTmInc_localtime (now : ℕ) : schedulerTmInc (localtime now) = localtime (now + 1) := by
  have hsec : (localtime now).sec = now % 60 := rfl
  have hmin : (localtime now).min = now / 60 % 60 := rfl
  have hhour : (localtime now).hour = now / 3600 % 24 := rfl
  obtain hday | hday : now % 86400 < 86399 ∨ now % 86400 = 86399 := by omega
  · have hsame : (now + 1) / secPerDay = now / secPerDay := by
      rw [secPerDay]
      omega
    have hlocal : localtime (now + 1) = { localtime now with
        sec := (now + 1) % 60, min := (now + 1) / 60 % 60, hour := (now + 1) / 3600 % 24 } := by
      rw [localtime, hsame]
      rfl
    rw [schedulerTmInc, hlocal]
    split_ifs with hs hm hh
    · rw [Tm.mk.injEq]
      omega
    · rw [Tm.mk.injEq]
      omega
    · rw [Tm.mk.injEq]
      omega
    all_goals omega
  -- the last second of a day
  · have hnext : (now + 1) / secPerDay = now / secPerDay + 1 := by
      rw [secPerDay]
      omega
    obtain ⟨hlt, hmon, hyear⟩ := localtime_month now
    obtain ⟨hy, ⟨hm, hm'⟩, hd⟩ := dateOf_valid (now / secPerDay)
    have hmday : (localtime now).mday = (dateOf (now / secPerDay)).day := rfl
    have hlocal : localtime (now + 1) = ⟨0, 0, 0, (dateOf (now / secPerDay)).next.day,
        (dateOf (now / secPerDay)).next.mon - 1, (dateOf (now / secPerDay)).next.year - 1900⟩ := by
      rw [localtime, hnext, Tm.mk.injEq]
      simp only [secPerMin, secPerHour]
      exact ⟨by omega, by omega, by omega, rfl, rfl, rfl⟩
    rw [schedulerTmInc, hlocal, if_neg (by omega), if_neg (by omega), if_neg (by omega), dayInMonth_eq _ hlt, hmon, hyear,
      Date.next, hmday]
    by_cases hlast : (dateOf (now / secPerDay)).day < daysIn (dateOf (now / secPerDay)).year (dateOf (now / secPerDay)).mon
    · rw [if_pos (Nat.succ_le_of_lt hlast), if_pos hlast, Tm.mk.injEq]
      exact ⟨rfl, rfl, rfl, rfl, rfl, rfl⟩
    · rw [if_neg (mt Nat.lt_of_succ_le hlast), if_neg hlast]
      by_cases hdec : (dateOf (now / secPerDay)).mon < 12
      · rw [if_pos hdec, if_pos hdec, Tm.mk.injEq]
        exact ⟨rfl, rfl, rfl, rfl, by simp only; omega, rfl⟩
      · rw [if_neg hdec, if_neg hdec, Tm.mk.injEq]
        exact ⟨rfl, rfl, rfl, rfl, rfl, by simp only; omega⟩

end

end Glaber.Expr
