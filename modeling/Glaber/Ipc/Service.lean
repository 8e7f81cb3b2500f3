import Glaber.Lib.Streams
import Glaber.Lib.Bytes

/-! The message stream of the IPC service (`ipcservice.c`): a client that sends over a non-blocking socket and the
client at the other end that reads. Memory accesses are checked, `none` being one out of bounds. -/

namespace Glaber.Ipc.Service

open Glaber.Lib.Blocks Glaber.Lib.Bytes

abbrev Block := List UInt8

def socketBufferSize : ℕ := 4096

def headerSize : ℕ := 8

@[irreducible] def add32 (a b : ℕ) : ℕ := (a + b) % 2 ^ 32

@[irreducible] def sub32 (a b : ℕ) : ℕ := (a + 2 ^ 32 - b) % 2 ^ 32

def headerBytes (code size : ℕ) : Block := encodeWord 4 code ++ encodeWord 4 size

def messageCode (header : Block) : ℕ := decodeWord (header.take 4)

def messageSize (header : Block) : ℕ := decodeWord ((header.drop 4).take 4)

structure Message where
  code : UInt32
  data : Block
  fits : data.length + headerSize < 2 ^ 32

def Message.size (m : Message) : ℕ := m.data.length

structure Received where
  code : ℕ
  size : ℕ
  data : Block
  deriving DecidableEq

def Message.received (m : Message) : Received := ⟨m.code.toNat, m.size, m.data⟩

section

/-- The socket as one end sees it: the bytes that were written and not yet read, and how many bytes the next
system calls transfer, 0 meaning that a call would block. All calls after those would block. -/
structure Fd where
  channel : List UInt8
  results : List ℕ

def writeLoop (data : Block) : List ℕ → List UInt8 → ℕ → Fd × ℕ
  | [], channel, offset => (⟨channel, []⟩, offset)
  | n :: results, channel, offset =>
    if offset = data.length then (⟨channel, n :: results⟩, offset)
    else if n = 0 then (⟨channel, results⟩, offset)
    else
      let sent := min n (data.length - offset)
      writeLoop data results (channel ++ (data.drop offset).take sent) (offset + sent)

def ipcWriteData (fd : Fd) (data : Block) : Fd × ℕ := writeLoop data fd.results fd.channel 0

def ipcReadData (fd : Fd) (block : Block) (off size : ℕ) : Option (Fd × Block × ℕ) :=
  if off + size ≤ block.length then
    match fd.results with
    | [] => some (fd, block, 0)
    | n :: results =>
      let bytes := fd.channel.take (min n size)
      (store block off bytes).map fun block' => (⟨fd.channel.drop bytes.length, results⟩, block', bytes.length)
  else none

def readFullLoop (off size : ℕ) : ℕ → Fd → Block → ℕ → Option (Fd × Block × ℕ)
  | 0, fd, block, offset => some (fd, block, offset)
  | turns + 1, fd, block, offset =>
    if offset < size then do
      let (fd', block', chunkSize) ← ipcReadData fd block (off + offset) (size - offset)
      if chunkSize = 0 then return (fd', block', offset)
      readFullLoop off size turns fd' block' (offset + chunkSize)
    else some (fd, block, offset)

def ipcReadDataFull (fd : Fd) (block : Block) (off size : ℕ) : Option (Fd × Block × ℕ) :=
  readFullLoop off size size fd block 0

end

section

structure Client where
  txBytes : ℕ
  txHeader : Block
  txData : Block
  txQueue : List Message

def ipcSocketWriteMessage (fd : Fd) (m : Message) : Option (Fd × ℕ) :=
  if socketBufferSize - headerSize ≥ m.size then do
    let buffer ← store (List.replicate socketBufferSize 0) 0 (headerBytes m.code.toNat m.size)
    let buffer ← store buffer headerSize m.data
    let bytes ← load buffer 0 (add32 m.size headerSize)
    return ipcWriteData fd bytes
  else
    let (fd', txSize) := ipcWriteData fd (headerBytes m.code.toNat m.size)
    if headerSize ≠ txSize then some (fd', txSize)
    else
      let (fd'', sizeData) := ipcWriteData fd' m.data
      some (fd'', add32 txSize sizeData)

def zbxIpcClientSend (client : Client) (fd : Fd) (m : Message) : Option (Client × Fd) :=
  if 0 ≠ client.txBytes then some ({ client with txQueue := client.txQueue ++ [m] }, fd)
  else do
    let (fd', txSize) ← ipcSocketWriteMessage fd m
    if txSize ≠ add32 headerSize m.size then
      return ({ client with
        txHeader := headerBytes m.code.toNat m.size
        txData := m.data
        txBytes := sub32 (add32 headerSize m.size) txSize }, fd')
    else return (client, fd')

def ipcClientPopTxMessage (client : Client) : Client :=
  match client.txQueue with
  | [] => { client with txData := [], txBytes := 0 }
  | m :: queue => ⟨add32 headerSize m.size, headerBytes m.code.toNat m.size, m.data, queue⟩

def clientWriteLoop (dataSize : ℕ) : ℕ → Client → Fd → Option (Client × Fd)
  | 0, _, _ => none
  | turns + 1, client, fd =>
    if 0 < client.txBytes then do
      let bytes ← load client.txData (sub32 dataSize client.txBytes) client.txBytes
      let (fd', writeSize) := ipcWriteData fd bytes
      if writeSize = 0 then return (client, fd')
      clientWriteLoop dataSize turns { client with txBytes := sub32 client.txBytes writeSize } fd'
    else some (ipcClientPopTxMessage client, fd)

def ipcClientWrite (client : Client) (fd : Fd) : Option (Client × Fd) :=
  let dataSize := messageSize client.txHeader
  if dataSize < client.txBytes then do
    let size := sub32 client.txBytes dataSize
    let bytes ← load client.txHeader (sub32 headerSize size) size
    let (fd', writeSize) := ipcWriteData fd bytes
    let client' := { client with txBytes := sub32 client.txBytes writeSize }
    if dataSize < client'.txBytes then return (client', fd')
    clientWriteLoop dataSize (client'.txBytes + 1) client' fd'
  else clientWriteLoop dataSize (client.txBytes + 1) client fd

end

section

/-- The receiving half of `zbx_ipc_client_t` with the buffer of its socket; `rxQueue` holds all messages pushed. -/
structure Receiver where
  rxHeader : Block
  rxData : Block
  rxBytes : ℕ
  rxBuffer : Block
  rxBufferBytes : ℕ
  rxBufferOffset : ℕ
  rxQueue : List Received

structure Parsed where
  header : Block
  data : Block
  readSize : ℕ
  completed : Bool

def readBufferData (header data : Block) (rxBytes dataSize dataOffset : ℕ) (buffer : Block) (off size readSize : ℕ) :
    Option Parsed := do
  let copySize := min (sub32 dataSize dataOffset) (sub32 size readSize)
  let bytes ← load buffer (off + readSize) copySize
  let data' ← store data dataOffset bytes
  let readSize' := add32 readSize copySize
  return ⟨header, data', readSize', add32 rxBytes readSize' = add32 dataSize headerSize⟩

/-- `buffer + off` is the source parameter `buffer`. A fresh block is taken to be zero. -/
def ipcReadBuffer (header data : Block) (rxBytes : ℕ) (buffer : Block) (off size : ℕ) : Option Parsed :=
  if headerSize > rxBytes then do
    let copySize := min (sub32 headerSize rxBytes) size
    let bytes ← load buffer off copySize
    let header' ← store header rxBytes bytes
    if headerSize > add32 rxBytes copySize then return ⟨header', data, copySize, false⟩
    let dataSize := messageSize header'
    if 0 = dataSize then return ⟨header', [], copySize, true⟩
    readBufferData header' (List.replicate dataSize 0) rxBytes dataSize 0 buffer off size copySize
  else readBufferData header data rxBytes (messageSize header) (sub32 rxBytes headerSize) buffer off size 0

def ipcMessageIsCompleted (header : Block) (rxBytes : ℕ) : Bool :=
  ¬ headerSize > rxBytes ∧ ¬ add32 (messageSize header) headerSize ≠ rxBytes

def Receiver.parsed (r : Receiver) (p : Parsed) : Receiver :=
  { r with
    rxHeader := p.header
    rxData := p.data
    rxBytes := add32 r.rxBytes p.readSize
    rxBufferOffset := add32 r.rxBufferOffset p.readSize }

def socketReadLoop : ℕ → Receiver → Fd → Option (Receiver × Fd)
  | 0, _, _ => none
  | turns + 1, r, fd =>
    let r := { r with rxBufferOffset := 0, rxBufferBytes := 0 }
    let offset := sub32 r.rxBytes headerSize
    let dataSize := sub32 (messageSize r.rxHeader) offset
    -- long messages are read into the message itself: the bound is 0.75 of the buffer
    if headerSize < r.rxBytes ∧ socketBufferSize * 3 < dataSize * 4 then do
      let (fd', data, readSize) ← ipcReadDataFull fd r.rxData offset dataSize
      return ({ r with rxData := data, rxBytes := add32 r.rxBytes readSize }, fd')
    else do
      let (fd', buffer, readSize) ← ipcReadData fd r.rxBuffer 0 socketBufferSize
      let r := { r with rxBuffer := buffer }
      if readSize = 0 then return (r, fd')
      let r := { r with rxBufferBytes := readSize }
      let p ← ipcReadBuffer r.rxHeader r.rxData r.rxBytes r.rxBuffer 0 readSize
      if p.completed then return (r.parsed p, fd')
      socketReadLoop turns (r.parsed p) fd'

def ipcSocketReadMessage (r : Receiver) (fd : Fd) : Option (Receiver × Fd) :=
  if r.rxBufferBytes > r.rxBufferOffset then do
    let p ← ipcReadBuffer r.rxHeader r.rxData r.rxBytes r.rxBuffer r.rxBufferOffset
      (sub32 r.rxBufferBytes r.rxBufferOffset)
    if p.completed then return (r.parsed p, fd)
    socketReadLoop (fd.channel.length + 1) (r.parsed p) fd
  else socketReadLoop (fd.channel.length + 1) r fd

def ipcClientPushRxMessage (r : Receiver) : Receiver :=
  { r with
    rxQueue := r.rxQueue ++ [⟨messageCode r.rxHeader, messageSize r.rxHeader, r.rxData⟩]
    rxData := []
    rxBytes := 0 }

def clientReadLoop : ℕ → Receiver → Fd → Option (Receiver × Fd)
  | 0, _, _ => none
  | turns + 1, r, fd => do
    let (r, fd) ← ipcSocketReadMessage r fd
    if ipcMessageIsCompleted r.rxHeader r.rxBytes then clientReadLoop turns (ipcClientPushRxMessage r) fd
    else return (r, fd)

def ipcClientRead (r : Receiver) (fd : Fd) : Option (Receiver × Fd) :=
  clientReadLoop (r.rxBytes + fd.channel.length + 1) r fd

end

section

inductive Event where
  | send (m : Message) (results : List ℕ)
  | writeReady (results : List ℕ)
  | readReady (results : List ℕ)

structure State where
  client : Client
  channel : List UInt8
  receiver : Receiver

def init : State where
  client := ⟨0, List.replicate headerSize 0, [], []⟩
  channel := []
  receiver := ⟨List.replicate headerSize 0, [], 0, List.replicate socketBufferSize 0, 0, 0, []⟩

def step (s : State) : Event → Option State
  | .send m results =>
    (zbxIpcClientSend s.client ⟨s.channel, results⟩ m).map fun (client, fd) =>
      { s with client := client, channel := fd.channel }
  | .writeReady results =>
    (ipcClientWrite s.client ⟨s.channel, results⟩).map fun (client, fd) =>
      { s with client := client, channel := fd.channel }
  | .readReady results =>
    (ipcClientRead s.receiver ⟨s.channel, results⟩).map fun (receiver, fd) =>
      { s with receiver := receiver, channel := fd.channel }

def run (events : List Event) : Option State := events.foldlM step init

end

end Glaber.Ipc.Service
