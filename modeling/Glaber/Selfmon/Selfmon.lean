import Glaber.Lib.Extremes
import Glaber.Selfmon.Timekeeper

/-! The two readers of process load in `selfmon.c`. -/

namespace Glaber.Selfmon

open Glaber.Lib.Extremes

def processTypeCount : ℕ := 47

def processTypePreprocessor : ℕ := 26

def isProcessMonitored (procType : ℕ) : Prop := procType ≠ processTypePreprocessor

instance (procType : ℕ) : Decidable (isProcessMonitored procType) := inferInstanceAs (Decidable (_ ≠ _))

def processIndex (forks : ℕ → ℕ) : ℕ → ℕ
  | 0 => 0
  | procType + 1 =>
    if isProcessMonitored procType then processIndex forks procType + forks procType else processIndex forks procType

def unitsNum (forks : ℕ → ℕ) : ℕ := processIndex forks processTypeCount

def getSelfmonStats (monitor : Timekeeper) (forks : ℕ → ℕ) (procType : ℕ) (aggrFunc : AggrFunc) (procNum : ℕ)
    (state : ProcessState) : ℚ :=
  if isProcessMonitored procType then
    let unitIndex := if 0 < procNum then processIndex forks procType + (procNum - 1) else processIndex forks procType
    let unitCount := if 0 < procNum then 1 else forks procType
    (monitor.getStat unitIndex unitCount aggrFunc state).getD 0
  else 0

structure Totals where
  totalAvg : UInt32
  counterAvg : ProcessState → UInt32
  totalMax : UInt32
  counterMax : ProcessState → UInt32
  totalMin : UInt32
  counterMin : ProcessState → UInt32

def zeroTotals : Totals := ⟨0, fun _ => 0, 0, fun _ => 0, 0, fun _ => 0⟩

/-- The body of the loop over the processes of a type. The statements for busy and idle are the same; each
of the two that finds a new extreme sets the total. -/
def totalsStep (procNum : ℕ) (c : Counters) (t : Totals) : Totals :=
  let more (s : ProcessState) : Bool := 0 = procNum ∨ t.counterMax s < (c s).toUInt32
  let less (s : ProcessState) : Bool := 0 = procNum ∨ (c s).toUInt32 < t.counterMin s
  { totalAvg := t.totalAvg + c.total
    counterAvg := fun s => t.counterAvg s + (c s).toUInt32
    totalMax := if more .busy ∨ more .idle then c.total else t.totalMax
    counterMax := fun s => if more s then (c s).toUInt32 else t.counterMax s
    totalMin := if less .busy ∨ less .idle then c.total else t.totalMin
    counterMin := fun s => if less s then (c s).toUInt32 else t.counterMin s }

structure ProcessInfo where
  max : ProcessState → ℚ
  min : ProcessState → ℚ
  avg : ProcessState → ℚ
  count : ℕ

def totals (units : List Counters) (index count : ℕ) : Totals :=
  (List.range count).foldl (fun t procNum => totalsStep procNum (units.getD (index + procNum) fun _ => 0) t) zeroTotals

def Totals.info (t : Totals) (count : ℕ) : ProcessInfo where
  max s := Tally.percent ⟨t.totalMax, t.counterMax s⟩
  min s := Tally.percent ⟨t.totalMin, t.counterMin s⟩
  avg s := Tally.percent ⟨t.totalAvg, t.counterAvg s⟩
  count := count

/-- `none` when there is no history to read; the types that are not monitored keep what `stats` holds. -/
def getAllProcessStats (monitor : Timekeeper) (forks : ℕ → ℕ) (stats : ℕ → ProcessInfo) : Option (ℕ → ProcessInfo) :=
  monitor.getCounters.map fun units procType =>
    if procType < processTypeCount then
      if isProcessMonitored procType then
        (totals units (processIndex forks procType) (forks procType)).info (forks procType)
      else { stats procType with count := forks procType }
    else stats procType

section

variable (monitor : Timekeeper) (forks : ℕ → ℕ) (procType : ℕ)

def tickCount (state : ProcessState) (k : ℕ) : ℕ := (monitor.history (processIndex forks procType + k) state).toNat

def tickTotal (k : ℕ) : ℕ := tickCount monitor forks procType .idle k + tickCount monitor forks procType .busy k

def percentage (state : ProcessState) (k : ℕ) : ℚ :=
  if tickTotal monitor forks procType k = 0 then 0
  else 100 * (tickCount monitor forks procType state k / tickTotal monitor forks procType k)

def ProcessInfo.get (info : ProcessInfo) : AggrFunc → ProcessState → ℚ
  | .max => info.max
  | .min => info.min
  | .one | .avg => info.avg

structure ReadersAgree (info : ProcessInfo) : Prop where
  agree : ∀ aggrFunc ≠ .one, ∀ s, info.get aggrFunc s = getSelfmonStats monitor forks procType aggrFunc 0 s
  max : ∀ s, ∃ k < forks procType,
    (∀ j < forks procType, tickCount monitor forks procType s j ≤ tickCount monitor forks procType s k) ∧
    info.max s = percentage monitor forks procType s k
  min : ∀ s, ∃ k < forks procType,
    (∀ j < forks procType, tickCount monitor forks procType s k ≤ tickCount monitor forks procType s j) ∧
    info.min s = percentage monitor forks procType s k
  single : forks procType = 1 → 0 < tickTotal monitor forks procType 0 → ∀ aggrFunc ≠ .one,
    info.get aggrFunc .busy + info.get aggrFunc .idle = 100

def SharesTotal (extreme : ProcessState → ℕ) : Prop :=
  ∀ s, tickCount monitor forks procType s (extreme s) = 0 ∨ tickTotal monitor forks procType (extreme s) =
    tickTotal monitor forks procType (Nat.max (extreme .idle) (extreme .busy))

def busiest (s : ProcessState) : ℕ := firstMost (tickCount monitor forks procType s) (forks procType)

def laziest (s : ProcessState) : ℕ := firstLeast (tickCount monitor forks procType s) (forks procType)

structure Readable : Prop where
  max : SharesTotal monitor forks procType (busiest monitor forks procType)
  min : if processIndex forks procType = 0 then SharesTotal monitor forks procType (laziest monitor forks procType)
    else ∀ s, ∃ k < forks procType, tickCount monitor forks procType s k = 0

end

end Glaber.Selfmon
