import Mathlib.Data.Rat.Defs
import Mathlib.Tactic

/-! The load of processes (`timekeeper.c`): ticks in every state, and a circular history of their running sums. -/

namespace Glaber.Selfmon

inductive ProcessState where
  | idle
  | busy
deriving DecidableEq

structure UnitCache where
  counter : ProcessState → UInt64
  ticks : ℤ
  ticksFlush : ℤ
  state : ProcessState

structure TimekeeperUnit where
  hCounter : ProcessState → ℕ → UInt64
  counter : ProcessState → UInt64
  counterUsed : ProcessState → UInt64
  cache : UnitCache

structure Timekeeper where
  units : List TimekeeperUnit
  first : ℕ
  count : ℕ
  ticksPerSec : ℤ
  ticksSync : ℤ

def maxHistory : ℕ := 60

def zeroUnit : TimekeeperUnit := ⟨fun _ _ => 0, fun _ => 0, fun _ => 0, ⟨fun _ => 0, 0, 0, .idle⟩⟩

def createExt (unitsNum : ℕ) (ticksPerSec : ℤ) : Timekeeper := ⟨List.replicate unitsNum zeroUnit, 0, 0, ticksPerSec, 0⟩

def addTo (counter : ProcessState → UInt64) (state : ProcessState) (ticks : ℤ) : ProcessState → UInt64 :=
  Function.update counter state (counter state + UInt64.ofInt ticks)

def TimekeeperUnit.flush (unit : TimekeeperUnit) (ticks : ℤ) : TimekeeperUnit where
  hCounter := unit.hCounter
  counter s :=
    if unit.counterUsed s < unit.cache.counter s then
      unit.counter s + (unit.cache.counter s - unit.counterUsed s)
    else unit.counter s
  counterUsed _ := 0
  cache := { unit.cache with counter := fun _ => 0, ticksFlush := ticks }

/-- `zbx_timekeeper_update` on its unit; `ticks` is what `times` returns. The cache is flushed once more than
half of `ZBX_TIMEKEEPER_DELAY` (one second) has passed. -/
def TimekeeperUnit.update (unit : TimekeeperUnit) (ticksPerSec : ℤ) (state : ProcessState) (ticks : ℤ) :
    TimekeeperUnit :=
  if -1 = ticks then { unit with cache := { unit.cache with state := state } }
  else if 0 = unit.cache.ticksFlush then
    { unit with cache := { unit.cache with ticksFlush := ticks, state := state, ticks := ticks } }
  else
    let counter := addTo unit.cache.counter unit.cache.state (ticks - unit.cache.ticks)
    let unit := { unit with cache := { unit.cache with counter := counter } }
    let unit := if ticksPerSec < 2 * (ticks - unit.cache.ticksFlush) then unit.flush ticks else unit
    { unit with cache := { unit.cache with state := state, ticks := ticks } }

def TimekeeperUnit.collect (unit : TimekeeperUnit) (ticksSync ticksDone : ℤ) (index last : ℕ) : TimekeeperUnit :=
  let unit :=
    if unit.cache.ticksFlush < ticksSync then
      { unit with
        counter := addTo unit.counter unit.cache.state ticksDone
        counterUsed := addTo unit.counterUsed unit.cache.state ticksDone }
    else unit
  { unit with
    hCounter := fun s => Function.update (unit.hCounter s) index (unit.hCounter s last + unit.counter s)
    counter := fun _ => 0 }

namespace Timekeeper

def update (timekeeper : Timekeeper) (index : ℤ) (state : ProcessState) (ticks : ℤ) : Timekeeper :=
  if 0 > index ∨ index ≥ timekeeper.units.length then timekeeper
  else { timekeeper with
    units := timekeeper.units.modify index.toNat fun unit => unit.update timekeeper.ticksPerSec state ticks }

def wrap (index : ℕ) : ℕ := if maxHistory ≤ index then index - maxHistory else index

def collect (timekeeper : Timekeeper) (ticks : ℤ) : Timekeeper :=
  if -1 = ticks then timekeeper
  else if 0 = timekeeper.ticksSync then { timekeeper with ticksSync := ticks }
  else
    let index := wrap (timekeeper.first + timekeeper.count)
    let last := if index = 0 then maxHistory - 1 else index - 1
    let ticksDone := ticks - timekeeper.ticksSync
    { timekeeper with
      first :=
        if timekeeper.count < maxHistory then timekeeper.first
        else if timekeeper.first + 1 = maxHistory then 0 else timekeeper.first + 1
      count := if timekeeper.count < maxHistory then timekeeper.count + 1 else timekeeper.count
      units := timekeeper.units.map fun unit => unit.collect timekeeper.ticksSync ticksDone index last
      ticksSync := ticks }

variable (timekeeper : Timekeeper)

def current : ℕ := wrap (timekeeper.first + timekeeper.count - 1)

def history (i : ℕ) (state : ProcessState) : UInt64 :=
  match timekeeper.units[i]? with
  | some unit => unit.hCounter state timekeeper.current - unit.hCounter state timekeeper.first
  | none => 0

end Timekeeper

inductive AggrFunc where
  | one
  | avg
  | max
  | min
deriving DecidableEq

structure Tally where
  total : UInt32
  counter : UInt32

def Tally.percent (t : Tally) : ℚ := if 0 = t.total then 0 else 100 * (t.counter.toNat / t.total.toNat)

abbrev Counters := ProcessState → UInt16

def Counters.total (c : Counters) : UInt32 := (c .idle).toUInt32 + (c .busy).toUInt32

def statStep (aggrFunc : AggrFunc) (state : ProcessState) (i : ℕ) (c : Counters) (t : Tally) : Tally :=
  match aggrFunc with
  | .one | .avg => ⟨t.total + c.total, t.counter + (c state).toUInt32⟩
  | .max => if 0 = i ∨ t.counter < (c state).toUInt32 then ⟨c.total, (c state).toUInt32⟩ else t
  | .min => if 0 = i ∨ (c state).toUInt32 < t.counter then ⟨c.total, (c state).toUInt32⟩ else t

namespace Timekeeper

variable (timekeeper : Timekeeper)

def counters (i : ℕ) : Counters := fun state => (timekeeper.history i state).toUInt16

/-- `none` for an index out of bounds. -/
def getStat (unitIndex count : ℕ) (aggrFunc : AggrFunc) (state : ProcessState) : Option ℚ :=
  if unitIndex ≥ timekeeper.units.length then none
  else
    let count := if 0 = count then timekeeper.units.length - unitIndex else count
    let count := if aggrFunc = .one then 1 else count
    let t :=
      if 1 ≥ timekeeper.count then ⟨0, 0⟩
      else (List.range count).foldl
        (fun t k => statStep aggrFunc state (unitIndex + k) (timekeeper.counters (unitIndex + k)) t) ⟨0, 0⟩
    some t.percent

def getCounters : Option (List Counters) :=
  if 1 < timekeeper.count then some ((List.range timekeeper.units.length).map timekeeper.counters) else none

end Timekeeper

inductive Event where
  | update (index : ℤ) (state : ProcessState) (ticks : ℤ)
  | collect (ticks : ℤ)

variable (timekeeper : Timekeeper)

def step : Event → Timekeeper
  | .update index state ticks => timekeeper.update index state ticks
  | .collect ticks => timekeeper.collect ticks

def run (unitsNum : ℕ) (ticksPerSec : ℤ) (events : List Event) : Timekeeper :=
  events.foldl step (createExt unitsNum ticksPerSec)

lemma units_length_step (e : Event) :
    (step timekeeper e).units.length = timekeeper.units.length := by
  cases e with
  | update index state ticks =>
    rw [step, Timekeeper.update]
    split_ifs
    · rfl
    · simp
  | collect ticks =>
    rw [step, Timekeeper.collect]
    split_ifs <;> simp

lemma units_length_run (unitsNum : ℕ) (ticksPerSec : ℤ) (events : List Event) :
    (run unitsNum ticksPerSec events).units.length = unitsNum := by
  induction events using List.reverseRecOn with
  | nil => simp [run, createExt]
  | append_singleton events e ih =>
    rw [run, List.foldl_append]
    exact (units_length_step _ e).trans ih

end Glaber.Selfmon
