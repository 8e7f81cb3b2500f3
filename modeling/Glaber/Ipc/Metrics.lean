import Glaber.Ipc.Ipc2
import Glaber.Ipc.SerialBuffer

/-! Metrics on their way from one sender through the queues to the consumers (`glb_preproc_ipc.c`). -/

namespace Glaber.Ipc.Metrics

open Glaber.Lib.Bytes Glaber.Ipc.Ipc2 Glaber.Ipc.Serial

def variantStr : UInt8 := 1
def variantErr : UInt8 := 6

/-- The structure as it lies in memory; `data` is the union of the value, a pointer among others. -/
structure Metric where
  itemid : UInt64
  hostid : UInt64
  flags : UInt64
  sec : Int32
  ns : Int32
  type : UInt8
  data : UInt64
deriving DecidableEq

def isMetricDynamicSize (metric : Metric) : Bool :=
  metric.type = variantStr ∨ metric.type = variantErr ∧ metric.data ≠ 0

def sizeofMetric : ℕ := 48
def offsetofData : ℕ := 40

def Metric.head (metric : Metric) (pad : Fin 7 → UInt8) : List UInt8 :=
  encodeWord 8 metric.itemid.toNat ++ (encodeWord 8 metric.hostid.toNat ++ (encodeWord 8 metric.flags.toNat ++
    (encodeWord 4 metric.sec.toUInt32.toNat ++ (encodeWord 4 metric.ns.toUInt32.toNat ++
      (encodeWord 1 metric.type.toNat ++ List.ofFn pad)))))

def Metric.encode (metric : Metric) (pad : Fin 7 → UInt8) : List UInt8 :=
  metric.head pad ++ encodeWord 8 metric.data.toNat

inductive Value where
  | text (bytes : List UInt8)
  | raw (data : UInt64)
deriving DecidableEq

structure Reading where
  itemid : UInt64
  hostid : UInt64
  flags : UInt64
  sec : Int32
  ns : Int32
  type : UInt8
  value : Value
deriving DecidableEq

def Metric.reading (metric : Metric) (value : Value) : Reading :=
  ⟨metric.itemid, metric.hostid, metric.flags, metric.sec, metric.ns, metric.type, value⟩

structure Handed where
  metric : Metric
  text : List UInt8
  terminated : 0 ∉ text
  pointer : metric.type = variantStr → metric.data ≠ 0

def Handed.reading (handed : Handed) : Reading :=
  handed.metric.reading (if isMetricDynamicSize handed.metric then .text handed.text else .raw handed.metric.data)

def bufferAddMetric (fresh₁ fresh₂ : Memory) (pad : Fin 7 → UInt8) (sbuff : SerialBuffer) (handed : Handed) :
    Option SerialBuffer := do
  let (sbuff, strOffset) ←
    if isMetricDynamicSize handed.metric then serialBufferAddData fresh₁ sbuff (handed.text ++ [0])
    else some (sbuff, 0)
  let (sbuff, m) ← serialBufferAddItem fresh₂ sbuff (handed.metric.encode pad)
  if strOffset ≠ 0 then store sbuff (m + offsetofData) (encodeWord 8 strOffset) else return sbuff

section

def loadWord (space : Space) : ℕ → ℕ → Option ℕ
  | _, 0 => some 0
  | a, w + 1 => do
    let b ← space a
    let rest ← loadWord space (a + 1) w
    return b.toNat + 256 * rest

def loadMetric (space : Space) (a : ℕ) : Option Metric := do
  let itemid ← loadWord space a 8
  let hostid ← loadWord space (a + 8) 8
  let flags ← loadWord space (a + 16) 8
  let sec ← loadWord space (a + 24) 4
  let ns ← loadWord space (a + 28) 4
  let type ← loadWord space (a + 32) 1
  let data ← loadWord space (a + offsetofData) 8
  return ⟨UInt64.ofNat itemid, UInt64.ofNat hostid, UInt64.ofNat flags, (UInt32.ofNat sec).toInt32,
    (UInt32.ofNat ns).toInt32, UInt8.ofNat type, UInt64.ofNat data⟩

def loadString (space : Space) : ℕ → ℕ → Option (List UInt8)
  | 0, _ => none
  | fuel + 1, a => do
    let b ← space a
    if b = 0 then return []
    else
      let rest ← loadString space fuel (a + 1)
      return b :: rest

def patch (space : Space) (a : ℕ) (bytes : List UInt8) : Space :=
  fun k => if a ≤ k ∧ k < a + bytes.length then bytes[k - a]? else space k

def metricParseCb (fuel : ℕ) (space : Space) (buffer item : ℕ) : Option (Space × Reading) := do
  let metric ← loadMetric space item
  if isMetricDynamicSize metric then
    let str := serialBufferGetRealAddr buffer metric.data.toNat
    let space := patch space (item + offsetofData) (encodeWord 8 str)
    let text ← loadString space fuel str
    return (space, metric.reading (.text text))
  else return (space, metric.reading (.raw metric.data))

def processMetrics (fuel : ℕ) (buffer : ℕ) : ℕ → Space → ℕ → Option (List Reading)
  | 0, _, _ => none
  | n + 1, space, item => do
    let (space, reading) ← metricParseCb fuel space buffer (item + sizeofItem)
    let next ← loadInt space item
    if next = 0 then return [reading]
    else
      let item ← relative buffer next
      let rest ← processMetrics fuel buffer n space item
      return reading :: rest

def received (chunk : Payload) (buffer : ℕ) : Space :=
  fun a => if buffer ≤ a then chunk[a - buffer]? else none

def metricsChunkProcessCb (chunk : Payload) (buffer : ℕ) : Option (List Reading) := do
  let firstItem ← loadInt (received chunk buffer) buffer
  let item ← relative buffer firstItem
  processMetrics chunk.length buffer chunk.length (received chunk buffer) item

def consumerSees (place : ℕ → ℕ) (chunks : List Payload) : Option (List Reading) :=
  (chunks.zipIdx.mapM fun (chunk, k) => metricsChunkProcessCb chunk (place k)).map List.flatten

end

section

inductive Flush where
  | timed
  | force
  | processing

def Flush.period : Flush → Int32
  | .timed => 1
  | .force => 0
  | .processing => 2

def Flush.limit : Flush → Int32
  | .timed | .force => 0
  | .processing => 1000

inductive Pc where
  | idle
  | looking (i : ℕ) (flushTime limit : Int32)
  | appending (i : ℕ) (flushTime limit : Int32)
  | cleaning (i : ℕ) (flushTime limit : Int32)

structure System where
  ipc : IpcConf
  sbuff : ℕ → SerialBuffer
  pc : Pc
  sent : List Handed

inductive ReceiverStep where
  | receive
  | steal
  | check
  | take
  | deliver
  | free

def ReceiverStep.action (c : ℕ) : ReceiverStep → Action
  | .receive => .receive c
  | .steal => .steal c
  | .check => .check c
  | .take => .take c
  | .deliver => .deliver c
  | .free => .free c

inductive Event where
  | sendMetric (handed : Handed) (pad : Fin 7 → UInt8) (fresh₁ fresh₂ : Memory) (flush : Flush) (now : Int32)
  | flush (flush : Flush) (now : Int32)
  | look (chunk : Addr)
  | append
  | clean (now : Int32)
  | consumer (c : ℕ) (act : ReceiverStep)

def queueNum (consumers : ℕ) (handed : Handed) : ℕ := handed.metric.hostid.toNat % consumers

def chunkOf (sbuff : SerialBuffer) : Payload := (List.range sbuff.used).map sbuff.data

def sendMetric (consumers : ℕ) (s : System) (handed : Handed) (pad : Fin 7 → UInt8) (fresh₁ fresh₂ : Memory)
    (flush : Flush) (now : Int32) : Option System := do
  let i := queueNum consumers handed
  let sbuff ← bufferAddMetric fresh₁ fresh₂ pad (s.sbuff i) handed
  return { s with
    sbuff := Function.update s.sbuff i sbuff
    sent := s.sent ++ [handed]
    pc := .looking 0 (now - flush.period) flush.limit }

def dueToFlush (sbuff : SerialBuffer) (flushTime limit : Int32) : Bool :=
  sbuff.timeCreated < flushTime ∨ 0 < limit ∧ limit ≤ Int32.ofNat sbuff.itemsCount

def look (consumers : ℕ) (s : System) (i : ℕ) (flushTime limit : Int32) (chunk : Addr) : Option System :=
  let sbuff := s.sbuff i
  if consumers ≤ i then some { s with pc := .idle }
  else if dueToFlush sbuff flushTime limit then
    match step consumers s.ipc (.send 0 i (Int32.ofNat sbuff.itemsCount) (chunkOf sbuff) chunk) with
    | .disabled => some s
    | .fault => none
    | .next _ ipc =>
      if Int32.ofNat sbuff.itemsCount = 0 then some { s with ipc := ipc, pc := .cleaning i flushTime limit }
      else some { s with ipc := ipc, pc := .appending i flushTime limit }
  else some { s with pc := .looking (i + 1) flushTime limit }

/-- An event that the state does not allow changes nothing; what C leaves undefined is `none`. -/
def sysStep (consumers : ℕ) (s : System) : Event → Option System
  | .sendMetric handed pad fresh₁ fresh₂ flush now =>
    match s.pc with
    | .idle => sendMetric consumers s handed pad fresh₁ fresh₂ flush now
    | _ => some s
  | .flush flush now =>
    match s.pc with
    | .idle => some { s with pc := .looking 0 (now - flush.period) flush.limit }
    | _ => some s
  | .look chunk =>
    match s.pc with
    | .looking i flushTime limit => look consumers s i flushTime limit chunk
    | _ => some s
  | .append =>
    match s.pc with
    | .appending i flushTime limit =>
      match step consumers s.ipc (.append 0) with
      | .disabled => some s
      | .fault => none
      | .next _ ipc => some { s with ipc := ipc, pc := .cleaning i flushTime limit }
    | _ => some s
  | .clean now =>
    match s.pc with
    | .cleaning i flushTime limit => some { s with
        sbuff := Function.update s.sbuff i (serialBufferClean (s.sbuff i) now)
        pc := .looking (i + 1) flushTime limit }
    | _ => some s
  | .consumer c act =>
    match step consumers s.ipc (act.action c) with
    | .disabled => some s
    | .fault => none
    | .next _ ipc => some { s with ipc := ipc }

def initBuffer (fresh : Memory) (now : Int32) : SerialBuffer :=
  serialBufferReset fresh ⟨fresh, 0, 0, 0, 0, 0, 0⟩ now

def sysInit (fresh : ℕ → Memory) (now : Int32) : System := ⟨ipc2Init, fun i => initBuffer (fresh i) now, .idle, []⟩

def sysRun (consumers : ℕ) (fresh : ℕ → Memory) (now : Int32) (events : List Event) : Option System :=
  events.foldlM (sysStep consumers) (sysInit fresh now)

end

end Glaber.Ipc.Metrics
