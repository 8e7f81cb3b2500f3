import Glaber.Time.Tm

/-! The check of a maintenance period (`dbconfig_maintenance.c`) in a time zone whose offset does not change. -/

namespace Glaber.Maintenance

open Time

section

structure DcMaintenance where
  activeSince : ℤ
  activeUntil : ℤ

inductive PeriodType where
  | onetime
  | daily
  | weekly
  | monthly
deriving DecidableEq

structure DcPeriod where
  type : PeriodType
  every : ℤ
  month : ℕ
  dayofweek : ℕ
  day : ℤ
  startTime : ℤ
  period : ℤ
  startDate : ℤ

/-- `zone` is the offset of the local time from UTC. -/
def zoneTime (zone t : ℤ) : Tm := localtime (t + zone)

def getTimezoneOffset (zone : ℤ) (_ : ℤ) : ℤ := zone

def dcSubtractTime (zone minuend subtrahend : ℤ) : ℤ :=
  let offsetMin := getTimezoneOffset zone minuend
  let diff := minuend - subtrahend
  let offsetDiff := getTimezoneOffset zone diff
  diff - (offsetDiff - offsetMin)

def secondsOf (tm : Tm) : ℤ := tm.hour * 3600 + tm.min * 60 + tm.sec

def wdayOf (tm : Tm) : ℤ := (if 0 = tm.wday then 7 else tm.wday) - 1

@[simp] lemma dcSubtractTime_eq (zone minuend subtrahend : ℤ) :
    dcSubtractTime zone minuend subtrahend = minuend - subtrahend := by
  simp [dcSubtractTime, getTimezoneOffset]

/-- `for (; start_date >= active_since; start_date = dc_subtract_time(start_date, SEC_PER_DAY, &tm))`; whether the loop is
left before its condition fails. -/
def searchLoop (zone activeSince : ℤ) (skips : ℤ → Bool) (startDate : ℤ) : ℤ × Bool :=
  if activeSince ≤ startDate then
    if skips startDate then searchLoop zone activeSince skips (dcSubtractTime zone startDate 86400) else (startDate, true)
  else (startDate, false)
termination_by (startDate - activeSince + 1).toNat
decreasing_by
  rw [dcSubtractTime_eq]
  omega

def weeklySkips (zone : ℤ) (period : DcPeriod) (activeSince startDate : ℤ) : Bool :=
  let week := (startDate - activeSince).tdiv 604800
  if 0 ≠ week.tmod period.every then true
  else decide (period.dayofweek &&& 1 <<< (wdayOf (zoneTime zone startDate)).toNat = 0)

def monthlySkips (zone : ℤ) (period : DcPeriod) (startDate : ℤ) : Bool :=
  let tm := zoneTime zone startDate
  if period.month &&& 1 <<< tm.mon.toNat = 0 then true
  else if 0 ≠ period.day then decide (period.day ≠ tm.mday)
  else if period.dayofweek &&& 1 <<< (wdayOf tm).toNat = 0 then true
  else
    let day := (tm.mday - 1).tdiv 7 + 1
    if 5 = period.every ∧ 4 = day then decide (tm.mday + 7 ≤ dayInMonth (1900 + tm.year) (tm.mon + 1))
    else decide (period.every ≠ day)

def runningFrom (maintenance : DcMaintenance) (period : DcPeriod) (startDate : ℤ) : ℤ × ℤ :=
  let runningUntil := startDate + period.period
  (startDate, if maintenance.activeUntil < runningUntil then maintenance.activeUntil else runningUntil)

def dcCalculateMaintenancePeriod (zone : ℤ) (maintenance : DcMaintenance) (period : DcPeriod) (startDate : ℤ) : Option (ℤ × ℤ) :=
  let activeSince := maintenance.activeSince
  match period.type with
  | .onetime =>
    let runningUntil := period.startDate + period.period
    some (if period.startDate < activeSince then activeSince else period.startDate,
      if maintenance.activeUntil < runningUntil then maintenance.activeUntil else runningUntil)
  | .daily =>
    if startDate < activeSince then none
    else
      let activeSince := dcSubtractTime zone activeSince (secondsOf (zoneTime zone activeSince))
      let day := (startDate - activeSince).tdiv 86400
      let startDate := dcSubtractTime zone startDate (86400 * day.tmod period.every)
      some (runningFrom maintenance period startDate)
  | .weekly =>
    if startDate < activeSince then none
    else
      let tm := zoneTime zone activeSince
      let activeSince := dcSubtractTime zone activeSince (wdayOf tm * 86400 + secondsOf tm)
      let (startDate, _) := searchLoop zone activeSince (weeklySkips zone period activeSince) startDate
      some (runningFrom maintenance period startDate)
  | .monthly =>
    let (startDate, broken) := searchLoop zone activeSince (monthlySkips zone period) startDate
    if broken ∧ startDate < activeSince then none else some (runningFrom maintenance period startDate)

def dcCheckMaintenancePeriod (zone : ℤ) (maintenance : DcMaintenance) (period : DcPeriod) (now : ℤ) : Option (ℤ × ℤ) :=
  let periodStart := dcSubtractTime zone now (secondsOf (zoneTime zone now))
  let periodStart := dcSubtractTime zone periodStart (-period.startTime)
  if period.startTime ≠ secondsOf (zoneTime zone periodStart) then none
  else
    let periodStart := if now < periodStart then dcSubtractTime zone periodStart 86400 else periodStart
    match dcCalculateMaintenancePeriod zone maintenance period periodStart with
    | some (periodStart, periodEnd) => if periodStart ≤ now ∧ now < periodEnd then some (periodStart, periodEnd) else none
    | none => none

end

end Glaber.Maintenance
