import Glaber.Expr.Interval
import Glaber.History.Clickhouse
import Glaber.Json.Agree

/-! The history worker (`history_worker.c`). -/

namespace Glaber.History.Worker

open Json Lib.Print Clickhouse

section

def maxIdLen : ℕ := 21

/-- The long that a text starts with, as `strtol` takes it: no digits are zero, too large a number is the largest. -/
def strtol (text : List Char) : ℤ :=
  let text := text.dropWhile fun c => c = ' ' || ('\t' ≤ c && c ≤ '\r')
  let magnitude (text : List Char) : ℤ := Nat.ofDigitChars 10 (text.takeWhile Char.isDigit) 0
  match text with
  | '-' :: text => max (-magnitude text) (-2 ^ 63)
  | '+' :: text => min (magnitude text) (2 ^ 63 - 1)
  | text => min (magnitude text) (2 ^ 63 - 1)

def toInt (z : ℤ) : ℤ := (z + 2 ^ 31) % 2 ^ 32 - 2 ^ 31

def atoi (text : List Char) : ℤ := toInt (strtol text)

def toUint64 (z : ℤ) : ℕ := (z % 2 ^ 64).toNat

def idBuffer (text : List Char) : List Char := text.take (maxIdLen - 1)

end

section

variable {D : Type}

structure FloatText (D : Type) where
  print : D → List Char
  atof : List Char → D
  print_fixed : ∀ x, ∃ sign whole fraction : List Char, print x = sign ++ whole ++ '.' :: fraction ∧
    (sign = [] ∨ sign = ['-']) ∧ (whole ≠ [] ∧ (∀ c ∈ whole, c.isDigit = true) ∧ (whole.head? = some '0' → whole = ['0'])) ∧
    ∀ c ∈ fraction, c.isDigit = true

def addStr (name : String) (string : Option (List Char)) : Op := .addString (some name.toList) string true

def addNumber (name : String) (text : List Char) : Op := .addString (some name.toList) (some (idBuffer text)) false

def addUint64 (name : String) (value : ℕ) : Op := addNumber name (Nat.toDigits 10 value)

def addInt64 (name : String) (value : ℤ) : Op := addNumber name (decimal value)

def itemValueType : ValueType → ℤ
  | .float => 0
  | .str => 1
  | .log => 2
  | .uint64 => 3
  | .text => 4

variable (fmt : FloatText D)

def valueOps : HistoryValue D → List Op
  | .ui64 value => [addInt64 "value_int" (ld value)]
  | .dbl value => [addNumber "value_dbl" (fmt.print value)]
  | .log value =>
    [addUint64 "logeventid" value.logeventid.toNat, addUint64 "severity" (toUint64 value.severity)] ++
      (value.source.map fun source => addStr "source" (some source)).toList ++ [addStr "value_str" (some value.value)]
  | .str value | .text value => [addStr "value_str" value]

def headOps (h : DcHistory D) : List Op :=
  [addStr "hostname" h.hostName, addStr "item_key" h.itemKey, addUint64 "itemid" h.itemid.toNat,
    addUint64 "time_sec" (toUint64 h.sec), addUint64 "time_ns" (toUint64 h.ns),
    addInt64 "value_type" (itemValueType h.value.type)]

def metricOps (h : DcHistory D) : List Op :=
  .addObject none :: (headOps h ++ valueOps fmt h.value ++ [.close])

def accepted (writeTypes : ValueType → Bool) (hist : List (DcHistory D)) : List (DcHistory D) :=
  hist.filter fun h => writeTypes h.value.type && h.stateNormal &&
    h.flags &&& (zbxDcFlagNovalue ||| zbxDcFlagUndef ||| zbxDcFlagNohistory) = 0

def requestOps (rows : List (DcHistory D)) : List Op :=
  [addStr "request" (some "put_history".toList), .addArray (some "metrics".toList)] ++ rows.flatMap (metricOps fmt) ++ [.close]

def workerAddHistory (writeTypes : ValueType → Bool) (garbage : ℕ → Char) (hist : List (DcHistory D)) :
    Option (List Char) :=
  let rows := accepted writeTypes hist
  if rows = [] then none else some (builtJson garbage true (requestOps fmt rows)).text

structure HistoryRecord (D : Type) where
  sec : ℤ
  ns : ℤ
  value : HistoryValue D

/-- What an iteration finds in the variables it does not set: the buffer `ns`, and the union of `history_str2value`. -/
structure Stack where
  ns : List Char
  value : UInt64

def str2Uint64 (text : List Char) (stack : Stack) : UInt64 :=
  ((Expr.isUintNRange text 0 18446744073709551615).map UInt64.ofNat).getD stack.value

def readLog (jp : JsonParse) : Option LogValue := do
  let value ← valueByName jp "value_str".toList maxStringLen
  let logeventid := valueByName jp "logeventid".toList maxIdLen
  let severity := valueByName jp "severity".toList maxIdLen
  let source := valueByName jp "source".toList maxIdLen
  return {
    logeventid := UInt64.ofNat ((logeventid.map fun text => toUint64 (atoi text.1)).getD 0)
    severity := (severity.map fun text => atoi text.1).getD 0
    source := source.map Prod.fst
    value := value.1 }

def readValue (stack : Stack) (jp : JsonParse) : ValueType → Option (HistoryValue D)
  | .uint64 => (valueByName jp "value_int".toList maxStringLen).map fun value => .ui64 (str2Uint64 value.1 stack)
  | .float => (valueByName jp "value_dbl".toList maxStringLen).map fun value => .dbl (fmt.atof value.1)
  | .log => (readLog jp).map .log
  | .str => (valueByName jp "value_str".toList maxStringLen).map fun value => .str (some value.1)
  | .text => (valueByName jp "value_str".toList maxStringLen).map fun value => .text (some value.1)

def readRow (valueType : ValueType) (stack : Stack) (jp : JsonParse) : Option (HistoryRecord D) := do
  let clck ← valueByName jp "time_sec".toList maxIdLen
  let value ← readValue fmt stack jp valueType
  return ⟨atoi clck.1, atoi stack.ns, value⟩

def rowsLoop (fmt : FloatText D) (valueType : ValueType) (memory : ℕ → Stack) (jp : JsonParse) :
    ℕ → ℕ → Option (List Char) → List (HistoryRecord D)
  | 0, _, _ => []
  | fuel + 1, k, p =>
    match jsonNext jp p with
    | none => []
    | some p =>
      ((bracketsOpen p).bind (readRow fmt valueType (memory k))).toList ++ rowsLoop fmt valueType memory jp fuel (k + 1) (some p)

def workerGetHistory (valueType : ValueType) (memory : ℕ → Stack) (response : List Char) :
    List (HistoryRecord D) :=
  match (jsonOpen response).bind (bracketsByName · "metrics".toList) with
  | none => []
  | some jp => rowsLoop fmt valueType memory jp (jp.start.length + 1) 0 none

end

end Glaber.History.Worker
