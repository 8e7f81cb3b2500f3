import Glaber.Common
import Glaber.Lib.Print
import Glaber.Lib.SqlValues

/-! The statements that `history_clickhouse.c` accumulates for the history of each value type (`add_history_values`), and
what they mean when their tuples are read back. -/

namespace Glaber.History.Clickhouse

open Lib.Print Lib.SqlValues

section

inductive ValueType where
  | float
  | str
  | log
  | uint64
  | text
deriving DecidableEq

structure LogValue where
  logeventid : UInt64
  severity : ℤ
  source : Option (List Char)
  value : List Char
deriving DecidableEq

inductive HistoryValue (D : Type) where
  | dbl (value : D)
  | str (value : Option (List Char))
  | log (value : LogValue)
  | ui64 (value : UInt64)
  | text (value : Option (List Char))

def HistoryValue.type {D : Type} : HistoryValue D → ValueType
  | .dbl _ => .float
  | .str _ => .str
  | .log _ => .log
  | .ui64 _ => .uint64
  | .text _ => .text

structure DcHistory (D : Type) where
  itemid : UInt64
  value : HistoryValue D
  sec : ℤ
  ns : ℤ
  flags : ℕ
  stateNormal : Bool
  hostName : Option (List Char)
  itemKey : Option (List Char)

structure Conf where
  dbname : List Char
  writeTypes : ValueType → Bool
  disableNanoseconds : Bool
  disableHostItemNames : Bool

structure Buffer where
  text : List Char
  num : ℕ
  lastflush : ℤ

/-- The conversion `%f` and its inverse; what it prints is one word. -/
structure FloatFormat (D : Type) where
  print : D → List Char
  read : List Char → Option D
  print_ne_nil : ∀ x, print x ≠ []
  print_word : ∀ x, ∀ c ∈ print x, separator c = false

def zbxDcFlagNovalue : ℕ := 0x02
def zbxDcFlagUndef : ℕ := 0x08
def zbxDcFlagNohistory : ℕ := 0x10

def writeBatch : ℕ := 1000000
def flushTimeout : ℤ := 3

def histTable : ValueType → String
  | .float => "history_dbl"
  | .str => "history_str"
  | .log => "history_log"
  | .uint64 => "history_uint"
  | .text => "history_str"

def printString (text : Option (List Char)) : List Char := text.getD "(null)".toList

def escaped (text : Option (List Char)) : List Char :=
  match text with
  | none => []
  | some text => escape text

variable {D : Type} (F : FloatFormat D) (conf : Conf)

def Conf.table (type : ValueType) : List Char := conf.dbname ++ ".".toList ++ (histTable type).toList

def headerText (type : ValueType) : List Char :=
  "INSERT INTO ".toList ++ conf.table type ++ " (day,itemid,clock,value".toList ++
    (if type = .log then ",source,severity,logeventid".toList else []) ++
    (if conf.disableNanoseconds then [] else ",ns".toList) ++
    (if conf.disableHostItemNames then [] else ",hostname, itemname".toList) ++ ") VALUES ".toList

def valueText : HistoryValue D → List Char
  | .ui64 value => ",".toList ++ decimal (ld value)
  | .dbl value => ",".toList ++ F.print value
  | .str value | .text value => ", '".toList ++ escaped value ++ "'".toList
  -- the source is written as it is
  | .log value => ",'".toList ++ escape value.value ++ "','".toList ++ printString value.source ++ "',".toList ++
      decimal value.severity ++ ", ".toList ++ decimal (ld value.logeventid)

def tupleText (h : DcHistory D) : List Char :=
  "(CAST(".toList ++ decimal h.sec ++ " as date) ,".toList ++ decimal (ld h.itemid) ++ ",".toList ++ decimal h.sec ++
    valueText F h.value ++
    (if conf.disableNanoseconds then [] else ",".toList ++ decimal h.ns) ++
    (if conf.disableHostItemNames then []
      else ",'".toList ++ escaped h.hostName ++ "','".toList ++ escaped h.itemKey ++ "'".toList) ++ ")".toList

def skipped (h : DcHistory D) : Bool :=
  !h.stateNormal || (h.flags &&& (zbxDcFlagNovalue ||| zbxDcFlagUndef ||| zbxDcFlagNohistory)) != 0 ||
    !conf.writeTypes h.value.type

def Buffer.add (h : DcHistory D) (buffer : Buffer) : Buffer :=
  { buffer with
    text := buffer.text ++ (if buffer.num = 0 then headerText conf h.value.type else ",".toList) ++ tupleText F conf h
    num := buffer.num + 1 }

def accumulate (buffers : ValueType → Buffer) (h : DcHistory D) : ValueType → Buffer :=
  if skipped conf h then buffers
  else Function.update buffers h.value.type ((buffers h.value.type).add F conf h)

def flushes (num : ℕ) (lastflush now : ℤ) : Bool :=
  writeBatch < num || (lastflush + flushTimeout < now && 0 < num)

def allTypes : List ValueType := [.float, .str, .log, .uint64, .text]

def flushAll (now : ValueType → ℤ) (buffers : ValueType → Buffer) :
    List (ValueType × List Char) × (ValueType → Buffer) :=
  ((allTypes.filter fun t => flushes (buffers t).num (buffers t).lastflush (now t)).map fun t => (t, (buffers t).text),
    fun t => if flushes (buffers t).num (buffers t).lastflush (now t) then ⟨[], 0, now t⟩ else buffers t)

structure Call (D : Type) where
  now : ValueType → ℤ
  hist : List (DcHistory D)

def addHistoryValues (buffers : ValueType → Buffer) (call : Call D) :
    List (ValueType × List Char) × (ValueType → Buffer) :=
  flushAll call.now (call.hist.foldl (accumulate F conf) buffers)

def initialBuffers : ValueType → Buffer := fun _ => ⟨[], 0, 0⟩

def runCalls (calls : List (Call D)) : List (ValueType × List Char) × (ValueType → Buffer) :=
  calls.foldl (fun s call =>
    (s.1 ++ (addHistoryValues F conf s.2 call).1, (addHistoryValues F conf s.2 call).2)) ([], initialBuffers)

end

section

variable {D : Type}

structure Batch (D : Type) where
  records : List (DcHistory D)
  lastflush : ℤ

def Batch.accumulate (conf : Conf) (batches : ValueType → Batch D) (h : DcHistory D) : ValueType → Batch D :=
  if skipped conf h then batches
  else Function.update batches h.value.type
    { batches h.value.type with records := (batches h.value.type).records ++ [h] }

def Batch.flushAll (now : ValueType → ℤ) (batches : ValueType → Batch D) :
    List (ValueType × List (DcHistory D)) × (ValueType → Batch D) :=
  ((allTypes.filter fun t => flushes (batches t).records.length (batches t).lastflush (now t)).map
      fun t => (t, (batches t).records),
    fun t => if flushes (batches t).records.length (batches t).lastflush (now t) then ⟨[], now t⟩ else batches t)

def Batch.addHistoryValues (conf : Conf) (batches : ValueType → Batch D) (call : Call D) :
    List (ValueType × List (DcHistory D)) × (ValueType → Batch D) :=
  Batch.flushAll call.now (call.hist.foldl (Batch.accumulate conf) batches)

def Batch.runCalls (conf : Conf) (calls : List (Call D)) :
    List (ValueType × List (DcHistory D)) × (ValueType → Batch D) :=
  calls.foldl (fun s call =>
    (s.1 ++ (Batch.addHistoryValues conf s.2 call).1, (Batch.addHistoryValues conf s.2 call).2)) ([], fun _ => ⟨[], 0⟩)

end

section

variable {D : Type} (F : FloatFormat D)

inductive RowValue (D : Type) where
  | dbl (value : D)
  | int (value : ℤ)
  | text (value : List Char)
  | log (value source : List Char) (severity logeventid : ℤ)

structure Row (D : Type) where
  day : ℤ
  itemid : ℤ
  clock : ℤ
  value : RowValue D
  ns : Option ℤ
  names : Option (List Char × List Char)

variable (conf : Conf)

def columns (type : ValueType) : List (List Char) :=
  ["day".toList, "itemid".toList, "clock".toList, "value".toList] ++
    (if type = .log then ["source".toList, "severity".toList, "logeventid".toList] else []) ++
    (if conf.disableNanoseconds then [] else ["ns".toList]) ++
    (if conf.disableHostItemNames then [] else ["hostname".toList, "itemname".toList])

def fieldInt : Field → Option ℤ
  | .bare word => readDecimal word
  | _ => none

def fieldText : Field → Option (List Char)
  | .text value => some value
  | _ => none

def fieldDay : Field → Option ℤ
  | .call name arguments =>
    if name = "CAST".toList ∧ arguments.dropWhile (· ≠ ' ') = " as date".toList then
      readDecimal (arguments.takeWhile (· ≠ ' '))
    else none
  | _ => none

def rowValue (type : ValueType) (fields : List Field) : Option (RowValue D × List Field) :=
  match type, fields with
  | .float, .bare word :: rest => (F.read word).map fun x => (.dbl x, rest)
  | .uint64, field :: rest => (fieldInt field).map fun n => (.int n, rest)
  | .str, field :: rest => (fieldText field).map fun text => (.text text, rest)
  | .text, field :: rest => (fieldText field).map fun text => (.text text, rest)
  | .log, value :: source :: severity :: logeventid :: rest => do
    return (.log (← fieldText value) (← fieldText source) (← fieldInt severity) (← fieldInt logeventid), rest)
  | _, _ => none

def rowNs (fields : List Field) : Option (Option ℤ × List Field) :=
  if conf.disableNanoseconds then some (none, fields)
  else match fields with
    | field :: rest => (fieldInt field).map fun n => (some n, rest)
    | [] => none

def rowNames (fields : List Field) : Option (Option (List Char × List Char)) :=
  match conf.disableHostItemNames, fields with
  | true, [] => some none
  | false, [host, key] => do return some (← fieldText host, ← fieldText key)
  | _, _ => none

def readRow (type : ValueType) : List Field → Option (Row D)
  | day :: itemid :: clock :: rest => do
    let (value, rest) ← rowValue F type rest
    let (ns, rest) ← rowNs conf rest
    return ⟨← fieldDay day, ← fieldInt itemid, ← fieldInt clock, value, ns, ← rowNames conf rest⟩
  | _ => none

def rowOfValue : HistoryValue D → RowValue D
  | .dbl value => .dbl value
  | .ui64 value => .int value.toNat
  | .str value | .text value => .text (value.getD [])
  | .log value => .log value.value (value.source.getD []) value.severity value.logeventid.toNat

def rowOf (h : DcHistory D) : Row D where
  day := h.sec
  itemid := h.itemid.toNat
  clock := h.sec
  value := rowOfValue h.value
  ns := if conf.disableNanoseconds then none else some h.ns
  names := if conf.disableHostItemNames then none else some (h.hostName.getD [], h.itemKey.getD [])

def Faithful (type : ValueType) (records : List (DcHistory D)) (text : List Char) : Prop :=
  ∃ tuples, readInsert (conf.table type) text = some (columns conf type, tuples) ∧
    tuples.map (readRow F conf type) = records.map (fun h => some (rowOf conf h)) ∧
    ∀ tuple ∈ tuples, tuple.length = (columns conf type).length

def ValueKept : HistoryValue D → Prop
  | .dbl value => F.read (F.print value) = some value
  | .ui64 value => value.toNat < 2 ^ 63
  | .str _ | .text _ => True
  | .log value => value.logeventid.toNat < 2 ^ 63 ∧ ∃ source, value.source = some source ∧ Plain source

def Kept (h : DcHistory D) : Prop := h.itemid.toNat < 2 ^ 63 ∧ ValueKept F h.value

end

end Glaber.History.Clickhouse
