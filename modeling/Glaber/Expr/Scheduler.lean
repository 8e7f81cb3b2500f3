import Glaber.Expr.Interval
import Glaber.Lib.Calendar

/-! Scheduling intervals (`interval.c`): the search for the next moment that satisfies one of them, with the local
time being UTC. -/

namespace Glaber.Expr

open Glaber.Lib.Calendar

section

structure Tm where
  sec : ℕ
  min : ℕ
  hour : ℕ
  mday : ℕ
  mon : ℕ
  year : ℕ
deriving DecidableEq

def localtime (now : ℕ) : Tm :=
  let date := dateOf (now / secPerDay)
  ⟨now % 60, now / secPerMin % 60, now / secPerHour % 24, date.day, date.mon - 1, date.year - 1900⟩

def mktime (tm : Tm) : ℕ :=
  (daysBefore (tm.year + 1900) (tm.mon + 1) + tm.mday - 1) * secPerDay + tm.hour * secPerHour + tm.min * secPerMin +
    tm.sec

def isLeapYear (year : ℕ) : Bool := year % 4 = 0 ∧ (year % 100 ≠ 0 ∨ year % 400 = 0)

def dayInMonth (year mon : ℕ) : ℕ :=
  if 1 ≤ mon ∧ mon ≤ 12 then
    [31, 28, 31, 30, 31, 30, 31, 31, 30, 31, 30, 31].getD (mon - 1) 0 + if mon = 2 ∧ isLeapYear year then 1 else 0
  else 30

def leapYears (year : ℕ) : ℕ := (year - 1) / 4 - (year - 1) / 100 + (year - 1) / 400

/-- The sum is taken in `int`. -/
def utcTime (year mon mday hour min sec : ℕ) : Option ℤ :=
  if 1970 ≤ year ∧ 1 ≤ mon ∧ mon ≤ 12 ∧ 1 ≤ mday ∧ mday ≤ dayInMonth year mon ∧ hour ≤ 23 ∧ min ≤ 59 ∧ sec ≤ 61 then
    let monthDay := [0, 31, 59, 90, 120, 151, 181, 212, 243, 273, 304, 334].getD (mon - 1) 0
    let leap := leapYears (if 2 < mon then year + 1 else year) - leapYears 1970
    let t := Int.bmod (((year - 1970) * (365 * secPerDay) + leap * secPerDay + (monthDay + mday - 1) * secPerDay +
      hour * secPerHour + min * secPerMin + sec : ℕ)) (2 ^ 32)
    if 0 ≤ t then some t else none
  else none

def calculateDayofweek (year mon mday : ℕ) : ℕ :=
  let year := if mon < 3 then year - 1 else year
  (year + year / 4 - year / 100 + year / 400 + [0, 3, 2, 5, 0, 3, 5, 1, 4, 6, 2, 4].getD (mon - 1) 0 + mday - 1) % 7 + 1

def schedulerTmInc (tm : Tm) : Tm :=
  if tm.sec + 1 < 60 then { tm with sec := tm.sec + 1 }
  else if tm.min + 1 < 60 then { tm with sec := 0, min := tm.min + 1 }
  else if tm.hour + 1 < 24 then { tm with sec := 0, min := 0, hour := tm.hour + 1 }
  else if tm.mday + 1 ≤ dayInMonth (tm.year + 1900) (tm.mon + 1) then
    { tm with sec := 0, min := 0, hour := 0, mday := tm.mday + 1 }
  else if tm.mon + 1 < 12 then ⟨0, 0, 0, 1, tm.mon + 1, tm.year⟩
  else ⟨0, 0, 0, 1, 0, tm.year + 1⟩

end

section

def SchedulerFilter.roundUp (filter : SchedulerFilter) (value : ℕ) : ℕ :=
  let offset := (value - filter.start) % filter.step
  if offset ≠ 0 then value + (filter.step - offset) else value

def SchedulerFilter.holds (filter : SchedulerFilter) (value : ℕ) : Bool :=
  (filter.start ≤ value ∧ value ≤ filter.stop) ∧ filter.roundUp value ≤ filter.stop

def nearestLoop (value : ℕ) : List SchedulerFilter → Option ℕ → Option ℕ
  | [], filterNext => filterNext
  | filter :: filters, filterNext =>
    if filter.holds value then some (filter.roundUp value)
    else if value < filter.start ∧ (filterNext.all fun next => filter.start < next) then
      nearestLoop value filters (some filter.start)
    else nearestLoop value filters filterNext

def schedulerGetNearestFilterValue (filters : List SchedulerFilter) (value : ℕ) : Option ℕ :=
  nearestLoop value filters none

def schedulerValidateWdayFilter (interval : SchedulerInterval) (tm : Tm) : Bool :=
  let value := calculateDayofweek (tm.year + 1900) (tm.mon + 1) tm.mday
  interval.wdays = [] ∨ interval.wdays.any fun filter => filter.holds value

/-- The month is looked up in the year 70 years later: `tm_year` counts from 1900. -/
def lastDay (tm : Tm) : ℕ := dayInMonth (tm.year + 1970) (tm.mon + 1)

def schedulerGetWdayNextcheck (interval : SchedulerInterval) (tm : Tm) : Bool × Tm :=
  if interval.wdays = [] then (true, tm)
  else
    let valueNow := calculateDayofweek (tm.year + 1900) (tm.mon + 1) tm.mday
    match schedulerGetNearestFilterValue interval.wdays valueNow with
    | some valueNext =>
      let tm := { tm with mday := tm.mday + (valueNext - valueNow) }
      (tm.mday ≤ lastDay tm, tm)
    | none =>
      let tm := { tm with mday := tm.mday + (7 - valueNow + 1) }
      match schedulerGetNearestFilterValue interval.wdays 1 with
      | none => (false, tm)
      | some valueNext =>
        let tm := { tm with mday := tm.mday + (valueNext - 1) }
        (tm.mday ≤ lastDay tm, tm)

def mdayLoop (interval : SchedulerInterval) : ℕ → Tm → Bool × Tm
  | 0, tm => (false, tm)
  | fuel + 1, tm =>
    match schedulerGetNearestFilterValue interval.mdays tm.mday with
    | none => (false, tm)
    | some mday =>
      let tm := { tm with mday := mday }
      if lastDay tm < tm.mday then (false, tm)
      else if schedulerValidateWdayFilter interval tm then (true, tm)
      else
        let tm := { tm with mday := tm.mday + 1 }
        if lastDay tm < tm.mday then (false, tm) else mdayLoop interval fuel tm

def schedulerGetDayNextcheck (interval : SchedulerInterval) (tm : Tm) : Bool × Tm :=
  if utcTime (tm.year + 1900) (tm.mon + 1) tm.mday tm.hour tm.min tm.sec = none then (false, tm)
  else if interval.mdays = [] then schedulerGetWdayNextcheck interval tm
  else mdayLoop interval 32 tm

def schedulerGetFilterNextcheck (filters : List SchedulerFilter) (filterLevel level max value : ℕ) : Option ℕ :=
  if max < value then none
  else if filters = [] then
    if level < filterLevel then some value else if value = 0 then some value else none
  else schedulerGetNearestFilterValue filters value

end

section

variable (interval : SchedulerInterval) (fuel : ℕ)

def Tm.nextMonth (tm : Tm) : Tm :=
  if 11 < tm.mon + 1 then { tm with mon := 0, year := tm.year + 1, mday := 1 }
  else { tm with mon := tm.mon + 1, mday := 1 }

def applyDayLoop : ℕ → Tm → Option Tm
  | 0, _ => none
  | n + 1, tm =>
    let found := schedulerGetDayNextcheck interval tm
    if found.1 then some found.2 else applyDayLoop n found.2.nextMonth

def schedulerApplyDayFilter (tm : Tm) : Option Tm := do
  let new ← applyDayLoop interval fuel tm
  if new.mday ≠ tm.mday ∨ new.mon ≠ tm.mon ∨ new.year ≠ tm.year then
    return { new with hour := 0, min := 0, sec := 0 }
  else return new

def applyHourLoop : ℕ → Tm → Option Tm
  | 0, _ => none
  | n + 1, tm =>
    match schedulerGetFilterNextcheck interval.hours interval.filterLevel 2 23 tm.hour with
    | some hour => some { tm with hour := hour }
    | none => do
      let tm ← schedulerApplyDayFilter interval fuel { tm with mday := tm.mday + 1, hour := 0 }
      applyHourLoop n tm

def schedulerApplyHourFilter (tm : Tm) : Option Tm := do
  let new ← applyHourLoop interval fuel fuel tm
  if new.hour ≠ tm.hour then return { new with min := 0, sec := 0 } else return new

def applyMinuteLoop : ℕ → Tm → Option Tm
  | 0, _ => none
  | n + 1, tm =>
    match schedulerGetFilterNextcheck interval.minutes interval.filterLevel 3 59 tm.min with
    | some min => some { tm with min := min }
    | none => do
      let tm ← schedulerApplyHourFilter interval fuel { tm with hour := tm.hour + 1, min := 0 }
      applyMinuteLoop n tm

def schedulerApplyMinuteFilter (tm : Tm) : Option Tm := do
  let new ← applyMinuteLoop interval fuel fuel tm
  if new.min ≠ tm.min then return { new with sec := 0 } else return new

def applySecondLoop : ℕ → Tm → Option Tm
  | 0, _ => none
  | n + 1, tm =>
    match schedulerGetFilterNextcheck interval.seconds interval.filterLevel 4 59 tm.sec with
    | some sec => some { tm with sec := sec }
    | none => do
      let tm ← schedulerApplyMinuteFilter interval fuel { tm with min := tm.min + 1, sec := 0 }
      applySecondLoop n tm

def schedulerApplySecondFilter (tm : Tm) : Option Tm := applySecondLoop interval fuel fuel tm

def schedulerSearch (now : ℕ) : Option ℕ := do
  let tm ← schedulerApplyDayFilter interval fuel (schedulerTmInc (localtime now))
  let tm ← schedulerApplyHourFilter interval fuel tm
  let tm ← schedulerApplyMinuteFilter interval fuel tm
  let tm ← schedulerApplySecondFilter interval fuel tm
  return mktime tm

end

def schedulerGetNextcheck (fuel : ℕ) (intervals : List SchedulerInterval) (now : ℕ) : Option ℕ :=
  intervals.foldlM (fun nextcheck interval => do
    let current ← schedulerSearch interval fuel now
    return if nextcheck = 0 ∨ current < nextcheck then current else nextcheck) 0

end Glaber.Expr
