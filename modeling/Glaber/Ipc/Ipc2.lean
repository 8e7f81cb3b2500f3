import Glaber.Lib.Linked
import Glaber.Lib.Runs

/-! Chunk queues in shared memory (`glb_ipc2.c`). -/

namespace Glaber.Ipc.Ipc2

open Glaber.Lib.Linked Glaber.Lib.Runs

abbrev Addr := ℕ
abbrev Payload := List UInt8

structure Chunk where
  next : Option Addr
  size : Int32
  items : Int32
  data : Payload

structure ChunkQueue where
  first : Option Addr
  last : Option Addr
  count : Int32
  items : Int32
  sent : UInt64
  itemsSent : UInt64

inductive SenderPc where
  | idle
  | filled (consumerid : ℕ) (chunk : Addr) (itemsCount : Int32)
  | halted

inductive ReceiverPc where
  | idle
  | locking
  | checking (appendedBefore : ℕ)
  | taking
  | delivering (chunk : Addr)
  | freeing (chunk : Addr)
  | halted

structure Consumer where
  queue : ChunkQueue
  rcvQueue : Option Addr
  pc : ReceiverPc
  appended : List Payload
  delivered : List Payload

structure IpcConf where
  heap : Addr → Option Chunk
  consumer : ℕ → Consumer
  sender : ℕ → SenderPc

def ipc2Init : IpcConf where
  heap _ := none
  consumer _ := ⟨⟨none, none, 0, 0, 0, 0⟩, none, .idle, [], []⟩
  sender _ := .idle

inductive Outcome where
  | disabled
  | fault
  | next (ret : Option Int32) (s : IpcConf)

inductive Action where
  | send (sender consumerid : ℕ) (itemsCount : Int32) (data : Payload) (chunk : Addr)
  | append (sender : ℕ)
  | receive (consumerid : ℕ)
  | steal (consumerid : ℕ)
  | check (consumerid : ℕ)
  | take (consumerid : ℕ)
  | deliver (consumerid : ℕ)
  | free (consumerid : ℕ)

variable (s : IpcConf)

def IpcConf.setConsumer (c : ℕ) (e : Consumer) : IpcConf :=
  { s with consumer := Function.update s.consumer c e }

def IpcConf.setSender (i : ℕ) (pc : SenderPc) : IpcConf :=
  { s with sender := Function.update s.sender i pc }

def IpcConf.setChunk (a : Addr) (chunk : Option Chunk) : IpcConf :=
  { s with heap := Function.update s.heap a chunk }

def sendChunk (consumers : ℕ) (s : IpcConf) (sender consumerid : ℕ) (itemsCount : Int32) (data : Payload)
    (chunk : Addr) : Outcome :=
  match s.sender sender with
  | .idle =>
    if 0 = itemsCount then .next none s
    else if consumers ≤ consumerid then .next none (s.setSender sender .halted)
    else match s.heap chunk with
      | some _ => .disabled
      | none =>
        let s := s.setChunk chunk (some ⟨none, Int32.ofNat data.length, itemsCount, data⟩)
        .next none (s.setSender sender (.filled consumerid chunk itemsCount))
  | _ => .disabled

def ChunkQueue.account (q : ChunkQueue) (itemsCount : Int32) : ChunkQueue :=
  { q with sent := q.sent + 1, itemsSent := q.itemsSent + itemsCount.toInt64.toUInt64 }

def addChunkToQueue (sender : ℕ) : Outcome :=
  match s.sender sender with
  | .filled c a itemsCount =>
    match s.heap a with
    | none => .fault
    | some chunk =>
      let e := s.consumer c
      let q := e.queue
      let e := { e with appended := e.appended ++ [chunk.data] }
      let s := s.setSender sender .idle
      match q.first with
      | none =>
        let q := { q with first := some a, last := some a, count := 1, items := chunk.items }
        .next none (s.setConsumer c { e with queue := q.account itemsCount })
      | some _ =>
        match q.last with
        | none => .fault
        | some l =>
          match s.heap l with
          | none => .fault
          | some lastChunk =>
            let s := s.setChunk l (some { lastChunk with next := some a })
            let q := { q with last := some a, count := q.count + 1, items := q.items + chunk.items }
            .next none (s.setConsumer c { e with queue := q.account itemsCount })
  | _ => .disabled

def receiveCall (consumers : ℕ) (s : IpcConf) (c : ℕ) : Outcome :=
  let e := s.consumer c
  match e.pc with
  | .idle =>
    if consumers ≤ c then .next none (s.setConsumer c { e with pc := .halted })
    else match e.rcvQueue with
      | some _ => .next none (s.setConsumer c { e with pc := .taking })
      | none => .next none (s.setConsumer c { e with pc := .locking })
  | _ => .disabled

def stealQueue (c : ℕ) : Outcome :=
  let e := s.consumer c
  match e.pc with
  | .locking => .next none (s.setConsumer c { e with
      rcvQueue := e.queue.first
      queue := { e.queue with first := none, last := none, count := 0 }
      pc := .checking e.appended.length })
  | _ => .disabled

def checkLocalQueue (c : ℕ) : Outcome :=
  let e := s.consumer c
  match e.pc with
  | .checking _ =>
    match e.rcvQueue with
    | none => .next (some 0) (s.setConsumer c { e with pc := .idle })
    | some _ => .next none (s.setConsumer c { e with pc := .taking })
  | _ => .disabled

def takeChunk (c : ℕ) : Outcome :=
  let e := s.consumer c
  match e.pc with
  | .taking =>
    match e.rcvQueue with
    | none => .fault
    | some a =>
      match s.heap a with
      | none => .fault
      | some chunk => .next none (s.setConsumer c { e with rcvQueue := chunk.next, pc := .delivering a })
  | _ => .disabled

def deliverChunk (c : ℕ) : Outcome :=
  let e := s.consumer c
  match e.pc with
  | .delivering a =>
    match s.heap a with
    | none => .fault
    | some chunk =>
      .next none (s.setConsumer c { e with delivered := e.delivered ++ [chunk.data], pc := .freeing a })
  | _ => .disabled

def freeChunk (c : ℕ) : Outcome :=
  let e := s.consumer c
  match e.pc with
  | .freeing a =>
    match s.heap a with
    | none => .fault
    | some chunk => .next (some chunk.items) ((s.setChunk a none).setConsumer c { e with pc := .idle })
  | _ => .disabled

def step (consumers : ℕ) (s : IpcConf) : Action → Outcome
  | .send sender consumerid itemsCount data chunk => sendChunk consumers s sender consumerid itemsCount data chunk
  | .append sender => addChunkToQueue s sender
  | .receive c => receiveCall consumers s c
  | .steal c => stealQueue s c
  | .check c => checkLocalQueue s c
  | .take c => takeChunk s c
  | .deliver c => deliverChunk s c
  | .free c => freeChunk s c

def exec (consumers : ℕ) (s : IpcConf) (a : Action) : IpcConf :=
  match step consumers s a with
  | .next _ s' => s'
  | _ => s

structure Delivery (consumers : ℕ) (t : Transition IpcConf Action) : Prop where
  safe : step consumers t.source t.event ≠ .fault
  ordered : ∀ c, (t.target.consumer c).delivered <+: (t.target.consumer c).appended
  drained : ∀ s', step consumers t.source t.event = .next (some 0) s' →
    ∃ c n, t.event = .check c ∧ (t.source.consumer c).pc = .checking n ∧
      n ≤ (s'.consumer c).appended.length ∧ (s'.consumer c).delivered = (s'.consumer c).appended.take n

end Glaber.Ipc.Ipc2
