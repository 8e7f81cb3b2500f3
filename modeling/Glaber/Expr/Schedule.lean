import Glaber.Expr.Delays
import Glaber.Lib.Odometer

namespace Glaber.Expr

open Glaber.Lib.Calendar Glaber.Lib.Odometer

section

def SchedulerFilter.Mem (filter : SchedulerFilter) (value : ℕ) : Prop :=
  filter.start ≤ value ∧ value ≤ filter.stop ∧ (value - filter.start) % filter.step = 0

def Listed (filters : List SchedulerFilter) (value : ℕ) : Prop := ∃ filter ∈ filters, filter.Mem value

def UnitMatch (filters : List SchedulerFilter) (filterLevel level value : ℕ) : Prop :=
  if filters = [] then level < filterLevel ∨ value = 0 else Listed filters value

structure Satisfies (interval : SchedulerInterval) (t : ℕ) : Prop where
  mday : interval.mdays = [] ∨ Listed interval.mdays (localtime t).mday
  wday : interval.wdays = [] ∨ Listed interval.wdays (weekday (t / secPerDay))
  hour : UnitMatch interval.hours interval.filterLevel 2 (localtime t).hour
  minute : UnitMatch interval.minutes interval.filterLevel 3 (localtime t).min
  second : UnitMatch interval.seconds interval.filterLevel 4 (localtime t).sec

end

section

/-- Months are counted from January 1900. -/
def dayTm (month mday : ℕ) : Tm := ⟨0, 0, 0, mday, month % 12, month / 12⟩

def firstDay (month : ℕ) : ℕ := daysBefore (month / 12 + 1900) (month % 12 + 1)

def monthDays (month : ℕ) : ℕ := daysIn (month / 12 + 1900) (month % 12 + 1)

def monthOf (n : ℕ) : ℕ := 12 * ((dateOf n).year - 1900) + ((dateOf n).mon - 1)

def wdayOf (month mday : ℕ) : ℕ := weekday (firstDay month + mday - 1)

def WeekStops (filters : List SchedulerFilter) (month start mday : ℕ) : Prop :=
  start ≤ mday ∧ Stops (schedulerGetNearestFilterValue filters)
    (wdayOf month (max start (mday + 1 - wdayOf month mday))) (wdayOf month mday)

variable (interval : SchedulerInterval)

def MonthStops (month start mday : ℕ) : Prop :=
  if interval.mdays ≠ [] then
    Stops (schedulerGetNearestFilterValue interval.mdays) start mday ∧ mday ≤ lastDay (dayTm month mday) ∧
      schedulerValidateWdayFilter interval (dayTm month mday)
  else if interval.wdays ≠ [] then
    WeekStops interval.wdays month start mday ∧ mday ≤ lastDay (dayTm month mday)
  else start ≤ mday ∧ mday ≤ monthDays month

def DayStops (month start mday : ℕ) : Prop :=
  MonthStops interval month start mday ∧
    ¬(monthDays month < mday ∧ start = monthDays month ∧ MonthStops interval month start start)

def MonthsAccept (first start n : ℕ) : Prop :=
  ∃ month mday, first ≤ month ∧ n = firstDay month + mday - 1 ∧
    DayStops interval month (if month = first then start else 1) mday

def DayAccepted (start : ℕ) : ℕ → Prop :=
  MonthsAccept interval (monthOf start) (dateOf start).day

def hourNext : ℕ → Option ℕ :=
  schedulerGetFilterNextcheck interval.hours interval.filterLevel 2 23

def minuteNext : ℕ → Option ℕ :=
  schedulerGetFilterNextcheck interval.minutes interval.filterLevel 3 59

def secondNext : ℕ → Option ℕ :=
  schedulerGetFilterNextcheck interval.seconds interval.filterLevel 4 59

def MinuteAccepted : ℕ → ℕ → Prop :=
  Digits (Stops (minuteNext interval)) (Stops (secondNext interval)) 60

def HourAccepted : ℕ → ℕ → Prop :=
  Digits (Stops (hourNext interval)) (MinuteAccepted interval) secPerHour

def Accepted : ℕ → ℕ → Prop :=
  Digits (DayAccepted interval) (HourAccepted interval) secPerDay

end

section

variable {filters : List SchedulerFilter} {value v : ℕ}

lemma SchedulerFilter.le_roundUp (filter : SchedulerFilter) (value : ℕ) : value ≤ filter.roundUp value := by
  simp only [SchedulerFilter.roundUp]
  split_ifs
  · exact Nat.le_add_right _ _
  · exact le_rfl

lemma SchedulerFilter.holds_start {filter : SchedulerFilter} (h : filter.start ≤ filter.stop) :
    filter.holds filter.start = true := by
  simp [SchedulerFilter.holds, SchedulerFilter.roundUp, h]

lemma nearestLoop_some {next : Option ℕ} (h : nearestLoop value filters next = some v) :
    next = some v ∨ (∃ filter ∈ filters, filter.holds value ∧ filter.roundUp value = v) ∨
      ∃ filter ∈ filters, value < filter.start ∧ filter.start = v := by
  induction filters generalizing next with
  | nil => exact .inl h
  | cons filter filters ih =>
    rw [nearestLoop] at h
    split_ifs at h with hholds hbefore
    · exact .inr (.inl ⟨filter, List.mem_cons_self, hholds, Option.some.inj h⟩)
    · obtain hnext | ⟨f, hf, h⟩ | ⟨f, hf, h⟩ := ih h
      · exact .inr (.inr ⟨filter, List.mem_cons_self, hbefore.1, Option.some.inj hnext⟩)
      · exact .inr (.inl ⟨f, List.mem_cons_of_mem _ hf, h⟩)
      · exact .inr (.inr ⟨f, List.mem_cons_of_mem _ hf, h⟩)
    · obtain hnext | ⟨f, hf, h⟩ | ⟨f, hf, h⟩ := ih h
      · exact .inl hnext
      · exact .inr (.inl ⟨f, List.mem_cons_of_mem _ hf, h⟩)
      · exact .inr (.inr ⟨f, List.mem_cons_of_mem _ hf, h⟩)

lemma nearestLoop_none {next : Option ℕ} (h : nearestLoop value filters next = none) :
    next = none ∧ ∀ filter ∈ filters, ¬filter.holds value ∧ ¬value < filter.start := by
  induction filters generalizing next with
  | nil => exact ⟨h, List.forall_mem_nil _⟩
  | cons filter filters ih =>
    rw [nearestLoop] at h
    split_ifs at h with hholds hbefore
    · exact absurd (ih h).1 (Option.some_ne_none _)
    · obtain ⟨rfl, hall⟩ := ih h
      exact ⟨rfl, List.forall_mem_cons.mpr ⟨⟨hholds, fun hlt => hbefore ⟨hlt, rfl⟩⟩, hall⟩⟩

def Within (low high : ℕ) (filters : List SchedulerFilter) : Prop :=
  ∀ filter ∈ filters, low ≤ filter.start ∧ filter.start ≤ filter.stop ∧ filter.stop ≤ high

lemma nearest_ge (h : schedulerGetNearestFilterValue filters value = some v) : value ≤ v := by
  obtain hnext | ⟨filter, -, -, rfl⟩ | ⟨filter, -, hlt, rfl⟩ := nearestLoop_some h
  · cases hnext
  · exact filter.le_roundUp value
  · exact hlt.le

variable {low high : ℕ} (hw : Within low high filters)
include hw

lemma nearest_le (h : schedulerGetNearestFilterValue filters value = some v) : v ≤ high := by
  obtain hnext | ⟨filter, hf, hholds, rfl⟩ | ⟨filter, hf, hlt, rfl⟩ := nearestLoop_some h
  · cases hnext
  · have := (of_decide_eq_true hholds).2
    exact this.trans (hw filter hf).2.2
  · exact (hw filter hf).2.1.trans (hw filter hf).2.2

lemma nearest_first (hne : filters ≠ []) : ∃ v, schedulerGetNearestFilterValue filters low = some v := by
  obtain ⟨filter, hf⟩ := List.exists_mem_of_ne_nil _ hne
  obtain ⟨hlow, hle, -⟩ := hw filter hf
  by_contra! hnone
  obtain ⟨-, hall⟩ := nearestLoop_none (Option.eq_none_iff_forall_not_mem.mpr hnone)
  obtain rfl : low = filter.start := le_antisymm hlow (not_lt.mp (hall filter hf).2)
  exact (hall filter hf).1 (SchedulerFilter.holds_start hle)

lemma nearest_found (h : schedulerGetNearestFilterValue filters low = some v) :
    schedulerGetNearestFilterValue filters v ≠ none := by
  intro hnone
  obtain ⟨-, hall⟩ := nearestLoop_none hnone
  obtain hnext | ⟨filter, hf, hholds, rfl⟩ | ⟨filter, hf, hlt, rfl⟩ := nearestLoop_some h
  · cases hnext
  · have hstart := (of_decide_eq_true hholds).1.1
    obtain rfl : low = filter.start := le_antisymm (hw filter hf).1 hstart
    have hround : filter.roundUp filter.start = filter.start := by simp [SchedulerFilter.roundUp]
    rw [hround] at hall
    exact (hall filter hf).1 hholds
  · exact (hall filter hf).1 (SchedulerFilter.holds_start (hw filter hf).2.1)

end

section

variable {filters : List SchedulerFilter} {filterLevel level max value v : ℕ}

lemma unitNext_ge (h : schedulerGetFilterNextcheck filters filterLevel level max value = some v) : value ≤ v := by
  rw [schedulerGetFilterNextcheck] at h
  split_ifs at h
  · exact (Option.some.inj h).le
  · exact (Option.some.inj h).le
  · exact nearest_ge h

variable (hw : Within 0 max filters)
include hw

lemma unitNext_le (h : schedulerGetFilterNextcheck filters filterLevel level max value = some v) : v ≤ max := by
  rw [schedulerGetFilterNextcheck] at h
  split_ifs at h with hmax
  · exact Option.some.inj h ▸ not_lt.mp hmax
  · exact Option.some.inj h ▸ not_lt.mp hmax
  · exact nearest_le hw h

lemma unitNext_zero : ∃ v, schedulerGetFilterNextcheck filters filterLevel level max 0 = some v := by
  rw [schedulerGetFilterNextcheck, if_neg (Nat.not_lt_zero _)]
  by_cases hempty : filters = []
  · rw [if_pos hempty, if_pos rfl]
    exact ⟨0, ite_self _⟩
  · rw [if_neg hempty]
    exact nearest_first hw hempty

lemma unitNext_ne (hnone : schedulerGetFilterNextcheck filters filterLevel level max value = none)
    (h : schedulerGetFilterNextcheck filters filterLevel level max 0 = some v) : v ≠ value := by
  rintro rfl
  have hle := unitNext_le hw h
  rw [schedulerGetFilterNextcheck, if_neg (not_lt.mpr hle)] at hnone
  rw [schedulerGetFilterNextcheck, if_neg (Nat.not_lt_zero _)] at h
  by_cases hempty : filters = []
  · have hzero : v = 0 := by
      rw [if_pos hempty] at h
      split_ifs at h <;> exact (Option.some.inj h).symm
    rw [if_pos hempty, if_pos hzero] at hnone
    split_ifs at hnone
  · rw [if_neg hempty] at h hnone
    exact nearest_found hw h hnone

end

section

structure SchedulerInterval.WellFormed (interval : SchedulerInterval) : Prop where
  mdays : Within 1 31 interval.mdays
  wdays : Within 1 7 interval.wdays
  hours : Within 0 23 interval.hours
  minutes : Within 0 59 interval.minutes
  seconds : Within 0 59 interval.seconds

variable {min max varLen start stop : ℕ} {text rest : List Char} {filters : List SchedulerFilter}

lemma rangeParse_within (hle : min ≤ max) (h : rangeParse min max varLen text = some (start, stop, rest)) :
    min ≤ start ∧ start ≤ stop ∧ stop ≤ max := by
  simp only [rangeParse] at h
  split_ifs at h
  · cases h
    exact ⟨le_rfl, hle, le_rfl⟩
  · obtain ⟨first, hfirst, h⟩ := Option.bind_eq_some_iff.mp h
    have hbounds := isUintNRange_bounds hfirst
    split at h
    · split_ifs at h
      obtain ⟨last, hlast, h⟩ := Option.bind_eq_some_iff.mp h
      split_ifs at h with hless
      cases h
      exact ⟨hbounds.1, not_lt.mp hless, (isUintNRange_bounds hlast).2⟩
    · cases h
    · cases h
      exact ⟨hbounds.1, le_rfl, hbounds.2⟩

lemma schedulerParseFilterR_within {fuel : ℕ} (hle : min ≤ max)
    (h : schedulerParseFilterR min max varLen fuel text = some (filters, rest)) : Within min max filters := by
  induction fuel generalizing text filters rest with
  | zero => cases h
  | succ fuel ih =>
    rw [schedulerParseFilterR] at h
    obtain ⟨⟨start, stop, rest₁⟩, hrange, h⟩ := Option.bind_eq_some_iff.mp h
    obtain ⟨⟨step, rest₂⟩, -, h⟩ := Option.bind_eq_some_iff.mp h
    have hwithin := rangeParse_within hle hrange
    dsimp only at h
    split at h
    · split_ifs at h
      obtain ⟨⟨more, rest₃⟩, hmore, h⟩ := Option.bind_eq_some_iff.mp h
      cases h
      exact List.forall_mem_cons.mpr ⟨hwithin, ih hmore⟩
    · cases h
      exact List.forall_mem_singleton.mpr hwithin

lemma schedulerParseFilter_within {filter : List SchedulerFilter} (hle : min ≤ max)
    (h : schedulerParseFilter filter text min max varLen = some (filters, rest)) : Within min max filters := by
  rw [schedulerParseFilter] at h
  split_ifs at h
  exact schedulerParseFilterR_within hle h

lemma schedulerUnitParse_wellFormed {interval interval' : SchedulerInterval} (hw : interval.WellFormed)
    (h : schedulerUnitParse interval text = some (interval', rest)) : interval'.WellFormed := by
  simp only [schedulerUnitParse.eq_def] at h
  split at h
  · split_ifs at h
    obtain ⟨⟨filters, after⟩, hfilter, h⟩ := Option.map_eq_some_iff.mp h
    cases h
    exact { hw with hours := schedulerParseFilter_within (by decide) hfilter }
  · split_ifs at h
    obtain ⟨⟨filters, after⟩, hfilter, h⟩ := Option.map_eq_some_iff.mp h
    cases h
    exact { hw with seconds := schedulerParseFilter_within (by decide) hfilter }
  · split_ifs at h
    obtain ⟨⟨filters, after⟩, hfilter, h⟩ := Option.map_eq_some_iff.mp h
    cases h
    exact { hw with wdays := schedulerParseFilter_within (by decide) hfilter }
  · split_ifs at h
    obtain ⟨⟨filters, after⟩, hfilter, h⟩ := Option.map_eq_some_iff.mp h
    cases h
    exact { hw with mdays := schedulerParseFilter_within (by decide) hfilter }
  · split_ifs at h
    obtain ⟨⟨filters, after⟩, hfilter, h⟩ := Option.map_eq_some_iff.mp h
    cases h
    exact { hw with minutes := schedulerParseFilter_within (by decide) hfilter }
  · cases h

lemma schedulerIntervalLoop_wellFormed {fuel : ℕ} {interval interval' : SchedulerInterval} (hw : interval.WellFormed)
    (h : schedulerIntervalLoop fuel interval text = some interval') : interval'.WellFormed := by
  induction fuel generalizing interval text with
  | zero =>
    cases text with
    | nil => exact Option.some.inj h ▸ hw
    | cons c text => cases h
  | succ fuel ih =>
    cases text with
    | nil => exact Option.some.inj h ▸ hw
    | cons c text =>
      rw [schedulerIntervalLoop] at h
      · obtain ⟨⟨mid, after⟩, hunit, h⟩ := Option.bind_eq_some_iff.mp h
        exact ih (schedulerUnitParse_wellFormed hw hunit) h
      · exact List.cons_ne_nil c text

lemma schedulerIntervalParse_wellFormed {interval : SchedulerInterval}
    (h : schedulerIntervalParse text = some interval) : interval.WellFormed := by
  rw [schedulerIntervalParse] at h
  split_ifs at h
  have hnil : ∀ low high, Within low high [] := fun _ _ => List.forall_mem_nil _
  exact schedulerIntervalLoop_wellFormed ⟨hnil _ _, hnil _ _, hnil _ _, hnil _ _, hnil _ _⟩ h

end

end Glaber.Expr
