import Glaber.Algo.Vector
import Glaber.Eval.Variant

/-! The preprocessing steps that keep a history (`item_preproc.c`, `pp_execute_throttle.c`). -/

namespace Glaber.Preproc

open Eval

structure Timespec where
  sec : ℤ
  ns : ℤ
deriving DecidableEq

def timespecCompare (t₁ t₂ : Timespec) : ℤ := if t₁.sec = t₂.sec then t₁.ns - t₂.ns else t₁.sec - t₂.sec

/-- What the steps need of doubles beyond `Doubles`: `<=`, the cast to 64 bits, and what the union of a variant that holds no
double reads as one. -/
structure Numerics (D : Type) extends Doubles D where
  le : D → D → Bool
  truncate : D → UInt64
  reinterpret : Variant D → D

inductive ValueType where
  | float
  | uint64
  | str
  | text
  | log
  | bin
deriving DecidableEq

inductive StepType where
  | deltaValue
  | deltaSpeed
  | throttleValue
  | throttleTimedValue
  | throttleTimedValueAgg
deriving DecidableEq

section

variable {D : Type} (F : Numerics D)

def Numerics.ofInt (n : ℤ) : D := if n < 0 then F.neg (F.ofNat n.natAbs) else F.ofNat n.natAbs

def trimInteger (text : List Char) : List Char :=
  let text := trimFloat text
  if text.head? = some '+' then text.tail else text

def delZeros (text : List Char) : List Char :=
  if 'e' ∈ text ∨ 'E' ∈ text ∨ text.count '.' ≠ 1 then text
  else
    let text := rtrim ['0'] text
    if text.getLast? = some '.' then text.dropLast else text

def isUint64 (text : List Char) : Option ℕ := Expr.isUintNRange text 0 18446744073709551615

def numberText (text : List Char) : List Char :=
  delZeros (trimInteger (rtrim ['\n', '\r'] (text.take (maxStringLen - 1))))

def variantSetNumeric (text : List Char) : Option (Variant D) :=
  let buffer := numberText text
  if buffer.head? = some '+' then none
  else match isUint64 buffer with
    | some n => some (.ui64 (UInt64.ofNat n))
    | none => (F.isDouble buffer).map .dbl

def variantToUi64 : Variant D → Option UInt64
  | .ui64 value => some value
  | .dbl value =>
    if F.lt value (F.ofNat 0) then none
    else if F.le (F.ofNat 18446744073709551615) value then none
    else some (F.truncate value)
  | .str text => (isUint64 (numberText text)).map UInt64.ofNat
  | _ => none

def convertDbl (value : Variant D) : Variant D := ((variantToDbl F.toDoubles value).map .dbl).getD value

def convertUi64 (value : Variant D) : Variant D := ((variantToUi64 F value).map .ui64).getD value

def convertHint (valueType : ValueType) (value : Variant D) : Variant D :=
  match valueType with
  | .float => convertDbl F value
  | .uint64 => convertUi64 F value
  | _ => value

def convertValueToNumeric (valueType : ValueType) : Variant D → Option (Variant D)
  | .dbl value => some (convertHint F valueType (.dbl value))
  | .ui64 value => some (convertHint F valueType (.ui64 value))
  | .str text => (variantSetNumeric F text).map (convertHint F valueType)
  | _ => none

def dataDbl : Variant D → D
  | .dbl value => value
  | value => F.reinterpret value

def variantTypeDesc : Variant D → String
  | .dbl _ => "double"
  | .ui64 _ => "uint64"
  | .str _ => "string"
  | .none => "none"
  | .bin _ => "binary"
  | .err _ => "error"
  | .dblVector _ => "double vector"

end

structure StepOutcome (D : Type) where
  succeeded : Bool
  value : Variant D
  historyValue : Variant D
  historyTs : Timespec

section

variable {D : Type} (F : Numerics D)

def elapsed (ts historyTs : Timespec) : D :=
  F.add (F.ofInt (ts.sec - historyTs.sec)) (F.div (F.ofInt (ts.ns - historyTs.ns)) (F.ofNat 1000000000))

def deltaFloat (speed : Bool) (value : D) (ts : Timespec) (historyValue : D) (historyTs : Timespec) : Variant D :=
  if historyTs.sec = 0 ∨ F.lt value historyValue then .none
  else if speed then
    if 0 ≤ timespecCompare historyTs ts then .none
    else .dbl (F.div (F.sub value historyValue) (elapsed F ts historyTs))
  else .dbl (F.sub value historyValue)

def deltaUint64 (speed : Bool) (value : UInt64) (ts : Timespec) (historyValue : UInt64) (historyTs : Timespec) :
    Variant D :=
  if historyTs.sec = 0 ∨ value < historyValue then .none
  else if speed then
    if 0 ≤ timespecCompare historyTs ts then .none
    else .ui64 (F.truncate (F.div (F.ofNat (value - historyValue).toNat) (elapsed F ts historyTs)))
  else .ui64 (value - historyValue)

def deltaChange (speed : Bool) (value : Variant D) (ts : Timespec) (historyValue : Variant D) (historyTs : Timespec) :
    Variant D :=
  match value, historyValue with
  | _, .none => .none
  | .ui64 x, .ui64 y => deltaUint64 F speed x ts y historyTs
  | _, _ => deltaFloat F speed (dataDbl F (convertDbl F value)) ts (dataDbl F (convertDbl F historyValue)) historyTs

def deltaDesc (speed : Bool) : String := if speed then "speed per second" else "simple change"

-- The value is cleared before its type is described, so the message always names the type "none".
def executeDelta (speed : Bool) (valueType : ValueType) (value : Variant D) (ts : Timespec)
    (historyValue : Variant D) (historyTs : Timespec) : StepOutcome D :=
  match convertValueToNumeric F valueType value with
  | none =>
    ⟨false, .err ("cannot calculate delta (" ++ deltaDesc speed ++ ") for value of type \"" ++
      variantTypeDesc (.none : Variant D) ++ "\": cannot convert value to numeric type").toList, historyValue, historyTs⟩
  | some valueNum => ⟨true, deltaChange F speed valueNum ts historyValue historyTs, valueNum, ts⟩

end

section

variable {D : Type} (F : Numerics D)

def throttleValue (value : Variant D) (ts : Timespec) (historyValue : Variant D) (historyTs : Timespec) :
    StepOutcome D :=
  if variantCompare F.toDoubles value historyValue = 0 then ⟨true, .none, value, historyTs⟩
  else ⟨true, value, value, ts⟩

def throttleTimedValue (params : List Char) (value : Variant D) (ts : Timespec) (historyValue : Variant D)
    (historyTs : Timespec) : StepOutcome D :=
  match Expr.isTimeSuffix params with
  | none => ⟨false, .err ("invalid time period: ".toList ++ params), .none, historyTs⟩
  | some timeout =>
    let period := if value.isNone then 0 else ts.sec - historyTs.sec
    if variantCompare F.toDoubles value historyValue = 0 ∧ period < timeout then ⟨true, .none, value, historyTs⟩
    else ⟨true, value, value, ts⟩

inductive AggFunc where
  | sum
  | count
  | avg
  | max
  | min
deriving DecidableEq

def getAggFunc (name : List Char) : Option AggFunc :=
  if name = "sum".toList then some .sum
  else if name = "count".toList then some .count
  else if name = "avg".toList then some .avg
  else if name = "max".toList then some .max
  else if name = "min".toList then some .min
  else none

def aggStart (func : AggFunc) (value : Variant D) (ts : Timespec) (historyValue : Variant D) (historyTs : Timespec) :
    Variant D × Timespec :=
  if historyValue.isNone then
    (if func = .count then .ui64 0 else .dbl (dataDbl F value), ⟨ts.sec, 0⟩)
  else (historyValue, historyTs)

def aggTake (func : AggFunc) (value historyValue : Variant D) (historyTs : Timespec) : Variant D :=
  let x := dataDbl F value
  let h := dataDbl F historyValue
  match func with
  | .min => .dbl (if F.lt h x then h else x)
  | .max => .dbl (if F.lt x h then h else x)
  | .avg | .sum => if historyTs.ns ≠ 0 then .dbl (F.add h x) else historyValue
  | .count => historyValue

def aggResult (func : AggFunc) (historyValue : Variant D) (num : ℤ) : Variant D :=
  match func with
  | .min | .max | .sum => historyValue
  | .avg => .dbl (F.div (dataDbl F historyValue) (F.ofInt num))
  | .count => .ui64 (UInt64.ofInt num)

def aggNumeric (func : AggFunc) : Variant D → Option (Variant D)
  | .dbl value => some (.dbl value)
  | .ui64 value => some (.ui64 value)
  | .str text => some (if func = .count then .str text else convertDbl F (.str text))
  | value => if func = .count then some value else none

def aggAdd (func : AggFunc) (timeout : ℕ) (value : Variant D) (ts : Timespec) (historyValue : Variant D)
    (historyTs : Timespec) : StepOutcome D :=
  let (start, startTs) := aggStart F func value ts historyValue historyTs
  let taken := aggTake F func value start startTs
  let num := startTs.ns + 1
  if startTs.sec + timeout < ts.sec then ⟨true, aggResult F func taken num, .none, ⟨startTs.sec, num⟩⟩
  else ⟨true, .none, taken, ⟨startTs.sec, num⟩⟩

def throttleValueAgg (params : List Char) (value : Variant D) (ts : Timespec) (historyValue : Variant D)
    (historyTs : Timespec) : StepOutcome D :=
  let fail (message : List Char) : StepOutcome D := ⟨false, .err message, historyValue, historyTs⟩
  -- a failed step before this one is expected to give the text "NaN", which is dropped
  match value with
  | .str ['N', 'a', 'N'] => ⟨true, .none, historyValue, historyTs⟩
  | _ =>
    match Expr.cut '\n' params with
    | (_, none) => fail "cannot find second parameter".toList
    | (time, some name) =>
      if time = [] then fail "first parameter must be defined".toList
      else match getAggFunc name with
        | none => fail ("invalid function name: ".toList ++ name)
        | some func => match Expr.isTimeSuffix time with
          | none => fail ("invalid time period: ".toList ++ params)
          | some timeout => match aggNumeric F func value with
            | none => ⟨false, .none, .none, historyTs⟩
            | some number => aggAdd F func timeout number ts historyValue historyTs

end

/-! The execution of a preprocessing chain (`pp_execute.c`, `pp_history.c`, `pp_error.c`). The histories of all steps
live in one vector: each step pops its entry, and what the executed steps left replaces the vector after the value. -/

open Eval Algo.Vector

inductive FailAction where
  | default
  | discardValue
  | setValue
  | setError
deriving DecidableEq

structure Step where
  type : StepType
  params : List Char
  errorHandler : FailAction
  errorHandlerParams : List Char

structure StepHistory (D : Type) where
  index : ℕ
  value : Variant D
  ts : Timespec

abbrev History (D : Type) := List (StepHistory D)

structure Result (D : Type) where
  value : Variant D
  valueRaw : Variant D
  action : FailAction

section

variable {D : Type}

def historyPop (history : Option (History D)) (index : ℕ) : Option (History D) × Variant D × Timespec :=
  match history with
  | none => (none, .none, ⟨0, 0⟩)
  | some entries =>
    match entries.findIdx? (·.index = index) with
    | none => (some entries, .none, ⟨0, 0⟩)
    | some i => match entries[i]? with
      | none => (some entries, .none, ⟨0, 0⟩)
      | some entry => (some (removeNoorder entries i), entry.value, entry.ts)

def historyAdd (history : History D) (index : ℕ) (value : Variant D) (ts : Timespec) : History D :=
  history ++ [⟨index, value, ts⟩]

end

section

variable {D : Type} (F : Numerics D)

def hasHistory : StepType → Bool
  | .deltaValue | .deltaSpeed | .throttleValue | .throttleTimedValue | .throttleTimedValueAgg => true

def executeStep (valueType : ValueType) (step : Step) (value : Variant D) (ts : Timespec) (historyValue : Variant D)
    (historyTs : Timespec) : StepOutcome D :=
  match step.type with
  | .deltaValue => executeDelta F false valueType value ts historyValue historyTs
  | .deltaSpeed => executeDelta F true valueType value ts historyValue historyTs
  | .throttleValue => throttleValue F value ts historyValue historyTs
  | .throttleTimedValue => throttleTimedValue F step.params value ts historyValue historyTs
  | .throttleTimedValueAgg => throttleValueAgg F step.params value ts historyValue historyTs

def errorOnFail (value : Variant D) (step : Step) : Variant D :=
  match step.errorHandler with
  | .default => value
  | .discardValue => .none
  | .setValue => .str step.errorHandlerParams
  | .setError => .err step.errorHandlerParams

structure ItemPreproc (D : Type) where
  valueType : ValueType
  steps : List Step
  history : Option (History D)

def ItemPreproc.historyNum (preproc : ItemPreproc D) : ℕ := preproc.steps.countP fun step => hasHistory step.type

structure Exec (D : Type) where
  value : Variant D
  preprocHistory : Option (History D)
  history : Option (History D)
  results : List (Result D)
  action : FailAction
  quoteError : Bool

def Exec.outcome (valueType : ValueType) (ts : Timespec) (i : ℕ) (step : Step) (e : Exec D) : StepOutcome D :=
  let (_, historyValue, historyTs) := historyPop e.preprocHistory i
  executeStep F valueType step e.value ts historyValue historyTs

def Exec.step (valueType : ValueType) (ts : Timespec) (i : ℕ) (step : Step) (e : Exec D) : Exec D :=
  let outcome := e.outcome F valueType ts i step
  let value := if outcome.succeeded then outcome.value else errorOnFail outcome.value step
  let action := if outcome.succeeded then .default else step.errorHandler
  let valueRaw := if outcome.succeeded ∨ step.errorHandler = .default then .none else outcome.value
  { value := value
    preprocHistory := (historyPop e.preprocHistory i).1
    history := e.history.map fun history =>
      if !outcome.historyValue.isNone ∧ !value.isErr ∧ hasHistory step.type then
        historyAdd history i outcome.historyValue outcome.historyTs
      else history
    results := e.results ++ [⟨value, valueRaw, action⟩]
    action := action
    quoteError := outcome.succeeded && value.isErr }

def Exec.run (valueType : ValueType) (ts : Timespec) : ℕ → List Step → Exec D → Exec D
  | _, [], e => e
  | i, step :: steps, e =>
    if e.value.isErr then e
    else
      let e := e.step F valueType ts i step
      if e.value.isNone then e else e.run valueType ts (i + 1) steps

def Exec.start (preproc : ItemPreproc D) (value : Variant D) : Exec D where
  value := value
  preprocHistory := preproc.history
  history := if preproc.historyNum = 0 then none else some []
  results := []
  action := .default
  quoteError := false

/-- `pp_execute`: the value that comes out and the item with its history replaced. The text of an error is formatted
from the input value and the results of the steps. -/
def ppExecute (formatError : Variant D → List (Result D) → List Char) (preproc : ItemPreproc D) (value : Variant D)
    (ts : Timespec) : Variant D × ItemPreproc D :=
  if preproc.steps = [] then (value, preproc)
  else
    let e := (Exec.start preproc value).run F preproc.valueType ts 0 preproc.steps
    if e.value.isErr then
      (if e.results ≠ [] ∧ e.action ≠ .setError ∧ !e.quoteError then .err (formatError value e.results) else e.value,
        { preproc with history := none })
    else (e.value, { preproc with history := e.history })

def ppExecuteAll (formatError : Variant D → List (Result D) → List Char) :
    ItemPreproc D → List (Timespec × Variant D) → List (Variant D)
  | _, [] => []
  | preproc, (ts, value) :: values =>
    let (out, preproc) := ppExecute F formatError preproc value ts
    out :: ppExecuteAll formatError preproc values

end

end Glaber.Preproc
