import Glaber.Expr.Scheduler

/-! The next check of an item (`zbx_calculate_item_nextcheck`). -/

namespace Glaber.Expr

open Glaber.Lib.Calendar

def secPerYear : ℕ := 365 * secPerDay
def jan2038 : ℕ := 2145916800
def itemTypeZabbixActive : ℕ := 7

section

def dayOf (now : ℕ) : ℕ := weekday (now / secPerDay)

def timeOf (now : ℕ) : ℕ :=
  let tm := localtime now
  secPerHour * tm.hour + secPerMin * tm.min + tm.sec

def checkTimePeriod (period : TimePeriod) (now : ℕ) : Bool :=
  period.startDay ≤ dayOf now ∧ dayOf now ≤ period.endDay ∧ period.startTime ≤ timeOf now ∧ timeOf now < period.endTime

def currentLoop (now : ℕ) : List FlexibleInterval → Option ℕ → Option ℕ
  | [], currentDelay => currentDelay
  | interval :: flexIntervals, currentDelay =>
    if (currentDelay.all fun delay => interval.delay < delay) ∧ checkTimePeriod interval.period now then
      currentLoop now flexIntervals (some interval.delay)
    else currentLoop now flexIntervals currentDelay

def getCurrentDelay (defaultDelay : ℕ) (flexIntervals : List FlexibleInterval) (now : ℕ) : ℕ :=
  (currentLoop now flexIntervals none).getD defaultDelay

def TimePeriod.candidate (p : TimePeriod) (day time : ℕ) : ℕ :=
  if p.startDay ≤ day ∧ day ≤ p.endDay ∧ time < p.endTime then
    if time < p.startTime then p.startTime else p.endTime
  else if day < p.endDay then
    if day < p.startDay then secPerDay * (p.startDay - day) + p.startTime else secPerDay + p.startTime
  else secPerDay * (p.startDay + 7 - day) + p.startTime

def candidateLoop (day time : ℕ) : List FlexibleInterval → ℕ → ℕ
  | [], next => next
  | interval :: flexIntervals, next =>
    let candidate := interval.period.candidate day time
    candidateLoop day time flexIntervals (if next = 0 ∨ candidate < next then candidate else next)

def getNextDelayInterval (flexIntervals : List FlexibleInterval) (now : ℕ) : Option ℕ :=
  if flexIntervals = [] then none
  else
    let next := candidateLoop (dayOf now) (timeOf now) flexIntervals 0
    if next = 0 then none else some (now - timeOf now + next)

end

section

def early (attempt bound nextcheck : ℕ) : Bool :=
  if attempt = 0 then nextcheck ≤ bound else nextcheck < bound

/-- There is no answer where an `int` overflows. -/
def alignLoop (currentDelay attempt bound : ℕ) : ℕ → ℕ → Option ℕ
  | 0, _ => none
  | fuel + 1, nextcheck =>
    if early attempt bound nextcheck then
      if intMax < nextcheck + currentDelay then none
      else alignLoop currentDelay attempt bound fuel (nextcheck + currentDelay)
    else some nextcheck

def delayNextcheck (fuel seed currentDelay attempt t : ℕ) : Option ℕ :=
  if currentDelay ≠ 0 then
    let nextcheck := currentDelay * (t / currentDelay) + seed % currentDelay
    let minDelay := min (currentDelay / 4) 30
    if intMax < nextcheck then none else alignLoop currentDelay attempt (t + minDelay) fuel nextcheck
  else some jan2038

variable (fuel seed simpleInterval : ℕ) (customIntervals : Option CustomInterval) (tmax : ℕ)

def nextcheckLoop : ℕ → ℕ → ℕ → ℕ → Option ℕ
  | 0, _, _, _ => none
  | n + 1, attempt, t, nextcheck =>
    if t < tmax then do
      let currentDelay := match customIntervals with
        | some custom => getCurrentDelay simpleInterval custom.flexible t
        | none => simpleInterval
      let nextcheck ← delayNextcheck fuel seed currentDelay attempt t
      match customIntervals with
      | none => return nextcheck
      | some custom =>
        match getNextDelayInterval custom.flexible t with
        | none => return nextcheck
        | some nextInterval =>
          if nextInterval ≤ nextcheck then nextcheckLoop n (attempt + 1) nextInterval nextcheck
          else return nextcheck
    else some nextcheck

def calculateItemNextcheck (itemType now : ℕ) : Option ℕ :=
  if itemType = itemTypeZabbixActive then
    some (if simpleInterval ≠ 0 then now + simpleInterval else jan2038)
  else do
    let scheduledCheck ← match customIntervals with
      | some custom => schedulerGetNextcheck fuel custom.scheduling now
      | none => some 0
    let nextcheck ← nextcheckLoop fuel seed simpleInterval customIntervals (now + secPerYear) fuel 0 now 0
    return if scheduledCheck ≠ 0 ∧ scheduledCheck < nextcheck then scheduledCheck else nextcheck

end

end Glaber.Expr
