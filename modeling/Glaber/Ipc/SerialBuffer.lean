import Glaber.Lib.Bytes
import Glaber.Lib.Linked

/-! Serial buffers (`glb_serial_buffer.c`). -/

namespace Glaber.Ipc.Serial

open Glaber.Lib.Bytes Glaber.Lib.Linked

structure SerialBuffer where
  data : Memory
  used : ℕ
  size : ℕ
  last : ℕ
  itemsCount : ℕ
  initSize : ℕ
  timeCreated : Int32

def sizeofSerialBuffer : ℕ := 56
def sizeofItem : ℕ := 4
def sizeofHeader : ℕ := 4
def minBufferGrowPercent : ℕ := 20
def minBufferGrowBytes : ℤ := 16384
def maxSerialBufferSize : ℕ := 1073741824

def serialBufferReset (fresh : Memory) (buf : SerialBuffer) (now : Int32) : SerialBuffer :=
  { buf with
    data := fresh
    itemsCount := 0
    last := 0
    size := buf.initSize
    used := sizeofSerialBuffer
    timeCreated := now }

variable (buf : SerialBuffer)

def serialBufferClean (now : Int32) : SerialBuffer :=
  { buf with
    used := sizeofSerialBuffer
    itemsCount := 0
    last := 0
    timeCreated := now }

def serialBufferInit (fresh : Memory) (initSize : ℕ) (now : Int32) : Option SerialBuffer :=
  let initSize := max initSize sizeofHeader
  if maxSerialBufferSize < initSize then none
  else some (serialBufferReset fresh ⟨fresh, 0, 0, 0, 0, 0, 0⟩ now)

def serialBufferGrow (fresh : Memory) (buf : SerialBuffer) (needMore : ℕ) : SerialBuffer :=
  let newLen : ℤ := (Int32.ofNat (max (buf.size + buf.size / minBufferGrowPercent) (buf.used + needMore))).toInt
  let newLen := (max newLen minBufferGrowBytes).toNat
  { buf with
    data := fun k => if k < buf.size then buf.data k else fresh k
    size := newLen }

def reserve (fresh : Memory) (buf : SerialBuffer) (fullLen : ℕ) : SerialBuffer :=
  if buf.size < buf.used + fullLen then serialBufferGrow fresh buf fullLen else buf

/-- A store to the area; one that leaves it is undefined behaviour. -/
def store (off : ℕ) (bytes : List UInt8) : Option SerialBuffer :=
  if off + bytes.length ≤ buf.size then some { buf with data := write buf.data off bytes } else none

def linkNewItem : Option SerialBuffer :=
  if 0 ≠ buf.last then store buf buf.last (encodeInt buf.used) else store buf 0 (encodeInt buf.used)

def serialBufferAddItem (fresh : Memory) (buf : SerialBuffer) (item : List UInt8) : Option (SerialBuffer × ℕ) := do
  let fullLen := item.length + sizeofItem
  let buf := reserve fresh buf fullLen
  let buf ← store buf buf.used (encodeInt 0)
  let buf ← linkNewItem buf
  let buf := { buf with last := buf.used }
  let buf ← store buf (buf.used + sizeofItem) item
  return ({ buf with used := buf.used + fullLen, itemsCount := buf.itemsCount + 1 }, buf.used + sizeofItem)

def serialBufferAddData (fresh : Memory) (buf : SerialBuffer) (data : List UInt8) : Option (SerialBuffer × ℕ) := do
  let offset := buf.used
  let buf := reserve fresh buf data.length
  let buf ← store buf buf.used data
  return ({ buf with used := buf.used + data.length }, offset)

def serialBufferGetRealAddr (buffer offset : ℕ) : ℕ := buffer + offset

abbrev Space := ℕ → Option UInt8

def loadInt (space : Space) (a : ℕ) : Option ℤ := do
  return decodeInt (← space a) (← space (a + 1)) (← space (a + 2)) (← space (a + 3))

def relative (buffer : ℕ) (off : ℤ) : Option ℕ := if 0 ≤ off then some (buffer + off.toNat) else none

def processLoop (space : Space) (buffer : ℕ) : ℕ → ℕ → ℕ → Option (List (ℕ × ℕ) × ℕ)
  | 0, _, _ => none
  | fuel + 1, item, i => do
    let next ← loadInt space item
    if next = 0 then return ([(item + sizeofItem, i)], i)
    else
      let item' ← relative buffer next
      let (calls, ret) ← processLoop space buffer fuel item' (i + 1)
      return ((item + sizeofItem, i) :: calls, ret)

def serialBufferProcess (space : Space) (buffer fuel : ℕ) : Option (List (ℕ × ℕ) × ℕ) := do
  let firstItem ← loadInt space buffer
  let item ← relative buffer firstItem
  processLoop space buffer fuel item 0

def copied (buffer : ℕ) : Space :=
  fun a => if buffer ≤ a ∧ a < buffer + buf.used then some (buf.data (a - buffer)) else none

inductive Op where
  | data (bytes : List UInt8)
  | item (bytes : List UInt8)

def Op.bytes : Op → List UInt8
  | .data bytes | .item bytes => bytes

def Op.item? : Op → Option (List UInt8)
  | .data _ => none
  | .item bytes => some bytes

def Op.header : Op → ℕ
  | .data _ => 0
  | .item _ => sizeofItem

def Op.size (op : Op) : ℕ := op.bytes.length + op.header

structure Added where
  op : Op
  offset : ℕ

def Added.start (a : Added) : ℕ := a.offset - a.op.header
def Added.stop (a : Added) : ℕ := a.offset + a.op.bytes.length

def add (fresh : Memory) (buf : SerialBuffer) : Op → Option (SerialBuffer × ℕ)
  | .data bytes => serialBufferAddData fresh buf bytes
  | .item bytes => serialBufferAddItem fresh buf bytes

def addAll (fresh : ℕ → Memory) : SerialBuffer → List Op → Option (SerialBuffer × List Added)
  | buf, [] => some (buf, [])
  | buf, op :: ops => do
    let (buf', offset) ← add (fresh ops.length) buf op
    let (final, added) ← addAll fresh buf' ops
    return (final, ⟨op, offset⟩ :: added)

def totalSize (ops : List Op) : ℕ := sizeofSerialBuffer + (ops.map Op.size).sum

def items (ops : List Op) : List (List UInt8) := ops.filterMap Op.item?

def Readable (space : Space) (a : ℕ) (bytes : List UInt8) : Prop :=
  ∀ k b, bytes[k]? = some b → space (a + k) = some b

def Delivers (fresh : ℕ → Memory) (buf : SerialBuffer) (ops : List Op) (buffer ret : ℕ) : Prop :=
  ∃ final added calls fuel, addAll fresh buf ops = some (final, added) ∧
    serialBufferProcess (copied final buffer) buffer fuel = some (calls, ret) ∧
    calls.map Prod.snd = List.range (items ops).length ∧
    List.Forall₂ (fun call bytes => Readable (copied final buffer) call.1 bytes) calls (items ops) ∧
    added.map Added.op = ops ∧
    (∀ a ∈ added, Readable (copied final buffer) (serialBufferGetRealAddr buffer a.offset) a.op.bytes) ∧
    added.Pairwise (fun a b => a.stop ≤ b.start) ∧ ∀ a ∈ added, sizeofHeader ≤ a.start

def RoundTrip (fresh : ℕ → Memory) (buf : SerialBuffer) (ops : List Op) (buffer : ℕ) : Prop :=
  Delivers fresh buf ops buffer (items ops).length

end Glaber.Ipc.Serial
