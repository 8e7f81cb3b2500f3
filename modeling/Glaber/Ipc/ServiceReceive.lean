import Glaber.Ipc.ServiceSend

namespace Glaber.Ipc.Service

open Glaber.Lib.Blocks Glaber.Lib.Bytes

def held (header data : Block) (rxBytes : ℕ) : List UInt8 := header.take rxBytes ++ data.take (rxBytes - headerSize)

lemma held_header {header : Block} (data : Block) {rxBytes : ℕ} (h : rxBytes ≤ headerSize) :
    held header data rxBytes = header.take rxBytes := by
  rw [held, Nat.sub_eq_zero_of_le h, List.take_zero, List.append_nil]

lemma held_data {header : Block} (data : Block) (h : header.length = headerSize) (k : ℕ) :
    held header data (headerSize + k) = header ++ data.take k := by
  rw [held, List.take_of_length_le (by omega), Nat.add_sub_cancel_left]

structure Holds (m : Message) (header data : Block) (rxBytes : ℕ) : Prop where
  headerLen : header.length = headerSize
  bytes : rxBytes ≤ m.wire.length
  wire : held header data rxBytes = m.wire.take rxBytes
  dataLen : headerSize ≤ rxBytes → data.length = m.size

lemma header_of_wire {m : Message} {header : Block} (h : header = m.wire.take headerSize) :
    header = headerBytes m.code.toNat m.size := by
  rw [h, Message.wire, List.take_left' (length_header _ _)]

lemma Holds.header_eq {m : Message} {header' data : Block} {rxBytes : ℕ} (h : Holds m header' data rxBytes)
    (hb : headerSize ≤ rxBytes) : header' = headerBytes m.code.toNat m.size := by
  apply header_of_wire
  have htake := congrArg (List.take headerSize) h.wire
  rwa [held, List.take_take, min_eq_left hb, List.take_append_of_le_length (by rw [List.length_take, h.headerLen]; omega),
    List.take_take, min_eq_left hb, List.take_of_length_le h.headerLen.le] at htake

lemma Holds.messageSize {m : Message} {header data : Block} {rxBytes : ℕ} (h : Holds m header data rxBytes)
    (hb : headerSize ≤ rxBytes) : messageSize header = m.size := by
  rw [h.header_eq hb, m.messageSize_header]

lemma Holds.completed_iff {m : Message} {header data : Block} {rxBytes : ℕ} (h : Holds m header data rxBytes) :
    ipcMessageIsCompleted header rxBytes = true ↔ rxBytes = m.wire.length := by
  have hfits := m.size_lt
  rw [ipcMessageIsCompleted, decide_eq_true_eq, Message.length_wire]
  constructor
  · rintro ⟨hb, hsize⟩
    rw [h.messageSize (by omega), add32_eq hfits] at hsize
    omega
  · intro hb
    rw [h.messageSize (by omega), add32_eq hfits]
    omega

lemma Holds.data_eq {m : Message} {header data : Block} {rxBytes : ℕ} (h : Holds m header data rxBytes)
    (hb : rxBytes = m.wire.length) : data = m.data := by
  subst hb
  have hle : headerSize ≤ m.wire.length := by
    rw [Message.length_wire]
    omega
  have hwire := h.wire
  rw [List.take_length, Message.length_wire, held_data data h.headerLen, h.header_eq hle,
    List.take_of_length_le (h.dataLen hle).le] at hwire
  exact List.append_cancel_left hwire

structure Least (n a b : ℕ) : Prop where
  left : n ≤ a
  right : n ≤ b
  either : n = a ∨ n = b

lemma least_min (a b : ℕ) : Least (min a b) a b := ⟨min_le_left _ _, min_le_right _ _, min_choice a b⟩

section

variable {m : Message} {buffer : Block} {off size : ℕ}

lemma readBufferData_spec (header : Block) {data : Block} {rxBytes dataOffset readSize : ℕ} (hload : off + size ≤ buffer.length)
    (hsize : size < 2 ^ 32) (hread : readSize ≤ size) (hdata : data.length = m.size) (hoffset : dataOffset ≤ m.size)
    (hbytes : rxBytes + readSize = headerSize + dataOffset) :
    ∃ n data', Least n (m.size - dataOffset) (size - readSize) ∧
      readBufferData header data rxBytes m.size dataOffset buffer off size readSize =
        some ⟨header, data', readSize + n, rxBytes + (readSize + n) = m.wire.length⟩ ∧
      data'.length = m.size ∧
      data'.take (dataOffset + n) = data.take dataOffset ++ (((buffer.drop off).take size).drop readSize).take n := by
  have hfits := m.size_lt
  have hcopySize : min (sub32 m.size dataOffset) (sub32 size readSize) = min (m.size - dataOffset) (size - readSize) := by
    rw [sub32_eq hoffset (by omega), sub32_eq hread hsize]
  have hleast := least_min (m.size - dataOffset) (size - readSize)
  generalize min (m.size - dataOffset) (size - readSize) = n at hcopySize hleast
  obtain ⟨hneeded, hthere, -⟩ := id hleast
  have hrest : ((buffer.drop off).take size).drop readSize = (buffer.drop (off + readSize)).take (size - readSize) := by
    rw [List.drop_take, List.drop_drop]
  have hload' : load buffer (off + readSize) n = some ((((buffer.drop off).take size).drop readSize).take n) := by
    rw [load_eq (by omega), hrest, List.take_take, min_eq_left hthere]
  have hlen : ((((buffer.drop off).take size).drop readSize).take n).length = n := by
    apply List.length_take_of_le
    rw [hrest, List.length_take_of_le (by rw [List.length_drop]; omega)]
    exact hthere
  obtain ⟨data', hstore, hstored⟩ := store_eq data dataOffset ((((buffer.drop off).take size).drop readSize).take n)
    (by rw [hlen]; omega)
  have htake := hstored.take
  rw [hlen] at htake
  refine ⟨n, data', hleast, ?_, hstored.length.trans hdata, htake⟩
  rw [readBufferData, hcopySize, hload', Option.bind_eq_bind, Option.bind_some, hstore, Option.bind_some,
    add32_eq (by omega : readSize + n < 2 ^ 32)]
  dsimp only
  rw [add32_eq (by omega : rxBytes + (readSize + n) < 2 ^ 32), add32_eq hfits, Message.length_wire,
    Nat.add_comm m.size]
  rfl

lemma wire_take_append {chunk more : List UInt8} {rxBytes n : ℕ} (hchunk : chunk <+: m.wire.drop rxBytes ++ more)
    (hn : n ≤ chunk.length) (hn' : n ≤ m.wire.length - rxBytes) :
    m.wire.take rxBytes ++ chunk.take n = m.wire.take (rxBytes + n) := by
  have hlen : n ≤ (m.wire.drop rxBytes).length := by rwa [List.length_drop]
  have htake : chunk.take n = (m.wire.drop rxBytes).take n := by
    rw [List.prefix_iff_eq_take.mp hchunk, List.take_take, min_eq_left hn, List.take_append_of_le_length hlen]
  rw [List.take_add, htake]

structure ReadOn (m : Message) (rxBytes size : ℕ) (p : Parsed) : Prop where
  least : Least p.readSize size (m.wire.length - rxBytes)
  holds : Holds m p.header p.data (rxBytes + p.readSize)
  completed : p.completed = decide (rxBytes + p.readSize = m.wire.length)

variable {header data : Block} {rxBytes : ℕ} {more : List UInt8}

lemma ipcReadBuffer_data (h : Holds m header data rxBytes) (hincomplete : rxBytes < m.wire.length)
    (hb : headerSize ≤ rxBytes) (hload : off + size ≤ buffer.length) (hsize : size < 2 ^ 32)
    (hchunk : (buffer.drop off).take size <+: m.wire.drop rxBytes ++ more) :
    ∃ p, ipcReadBuffer header data rxBytes buffer off size = some p ∧ ReadOn m rxBytes size p := by
  have hfits := m.size_lt
  have hwire := Message.length_wire m
  have hoffset : sub32 rxBytes headerSize = rxBytes - headerSize := sub32_eq hb (by omega)
  obtain ⟨n, data', hleast, hrun, hlen, htake⟩ := readBufferData_spec header hload hsize (Nat.zero_le size)
    (h.dataLen hb) (by omega : rxBytes - headerSize ≤ m.size) (by omega : rxBytes + 0 = headerSize + (rxBytes - headerSize))
  obtain ⟨hneeded, hthere, heither⟩ := hleast
  have hchunkLen : ((buffer.drop off).take size).length = size := by
    apply List.length_take_of_le
    rw [List.length_drop]
    omega
  have hbytes : rxBytes + n = headerSize + (rxBytes - headerSize + n) := by omega
  have hheld : held header data' (rxBytes + n) = m.wire.take (rxBytes + n) := by
    rw [← wire_take_append hchunk (by omega) (by omega), ← h.wire, hbytes, held_data data' h.headerLen, htake, List.drop_zero,
      ← List.append_assoc, ← held_data data h.headerLen]
    congr 2
    omega
  rw [Nat.zero_add] at hrun
  have hread : Least n size (m.wire.length - rxBytes) := ⟨hthere, by omega, by omega⟩
  have hle : rxBytes + n ≤ m.wire.length := by omega
  refine ⟨⟨header, data', n, rxBytes + n = m.wire.length⟩, ?_, hread, ⟨h.headerLen, hle, hheld, fun _ => hlen⟩, rfl⟩
  rw [ipcReadBuffer, if_neg (by omega), hoffset, h.messageSize hb]
  exact hrun

lemma store_header (h : Holds m header data rxBytes) (hb : rxBytes < headerSize) (hincomplete : rxBytes < m.wire.length)
    (hload : off + size ≤ buffer.length) (hchunk : (buffer.drop off).take size <+: m.wire.drop rxBytes ++ more) {n : ℕ}
    (hn : Least n (headerSize - rxBytes) size) :
    ∃ bytes header', load buffer off n = some bytes ∧ store header rxBytes bytes = some header' ∧
      header'.length = headerSize ∧ header'.take (rxBytes + n) = m.wire.take (rxBytes + n) := by
  have hwire := Message.length_wire m
  obtain ⟨hneeded, hthere, -⟩ := hn
  have hbytes : load buffer off n = some (((buffer.drop off).take size).take n) := by
    rw [load_eq (by omega), List.take_take, min_eq_left hthere]
  have hchunkLen : ((buffer.drop off).take size).length = size := by
    apply List.length_take_of_le
    rw [List.length_drop]
    omega
  have hlen : (((buffer.drop off).take size).take n).length = n := List.length_take_of_le (by omega)
  obtain ⟨header', hstore, hstored⟩ := store_eq header rxBytes (((buffer.drop off).take size).take n)
    (by rw [hlen, h.headerLen]; omega)
  have htake := hstored.take
  rw [hlen, ← held_header data hb.le, h.wire, wire_take_append hchunk (by omega) (by omega)] at htake
  exact ⟨_, header', hbytes, hstore, hstored.length.trans h.headerLen, htake⟩

lemma ipcReadBuffer_header (h : Holds m header data rxBytes) (hincomplete : rxBytes < m.wire.length)
    (hb : rxBytes < headerSize) (hload : off + size ≤ buffer.length) (hsize : size < 2 ^ 32)
    (hchunk : (buffer.drop off).take size <+: m.wire.drop rxBytes ++ more) :
    ∃ p, ipcReadBuffer header data rxBytes buffer off size = some p ∧ ReadOn m rxBytes size p := by
  have hfits := m.size_lt
  have hwire := Message.length_wire m
  have hcopySize : min (sub32 headerSize rxBytes) size = min (headerSize - rxBytes) size := by
    rw [sub32_eq hb.le (by decide)]
  have hleast := least_min (headerSize - rxBytes) size
  generalize min (headerSize - rxBytes) size = n at hcopySize hleast
  obtain ⟨bytes, header', hbytes, hstore, hlen, htake⟩ := store_header h hb hincomplete hload hchunk hleast
  obtain ⟨hneeded, hthere, heither⟩ := hleast
  have hheaderSize : headerSize < 2 ^ 32 := by decide
  rw [ipcReadBuffer, if_pos hb, hcopySize]
  dsimp only
  rw [hbytes, Option.bind_eq_bind, Option.bind_some, hstore, Option.bind_some,
    add32_eq (by omega : rxBytes + n < 2 ^ 32)]
  by_cases hpart : headerSize > rxBytes + n
  · -- a part of the header is all there is
    have hnot : rxBytes + n ≠ m.wire.length := by omega
    have hread : Least n size (m.wire.length - rxBytes) := ⟨hthere, by omega, by omega⟩
    have hle : rxBytes + n ≤ m.wire.length := by omega
    have hheld : held header' data (rxBytes + n) = m.wire.take (rxBytes + n) := by
      rw [held_header _ (by omega), htake]
    rw [if_pos hpart]
    exact ⟨_, rfl, hread, ⟨hlen, hle, hheld, fun hfull => absurd hfull (not_le.mpr hpart)⟩, (decide_eq_false hnot).symm⟩
  · have hfull : rxBytes + n = headerSize := by omega
    rw [hfull] at htake
    have hheader : header' = headerBytes m.code.toNat m.size := by
      apply header_of_wire
      rw [← htake, List.take_of_length_le hlen.le]
    have hmessageSize : messageSize header' = m.size := by rw [hheader, m.messageSize_header]
    rw [if_neg hpart, hmessageSize]
    by_cases hzero : 0 = m.size
    · have hread : Least n size (m.wire.length - rxBytes) := ⟨hthere, by omega, by omega⟩
      have hend : rxBytes + n = m.wire.length := by omega
      have hheld : held header' [] (rxBytes + n) = m.wire.take (rxBytes + n) := by
        rw [hfull, held_header _ le_rfl, htake]
      rw [if_pos hzero]
      exact ⟨_, rfl, hread, ⟨hlen, hend.le, hheld, fun _ => hzero⟩, (decide_eq_true hend).symm⟩
    · obtain ⟨k, data', ⟨hneeded', hthere', heither'⟩, hrun, hdata, htake'⟩ := readBufferData_spec header' hload
        hsize hthere (List.length_replicate (n := m.size) (a := (0 : UInt8))) (Nat.zero_le m.size) hfull
      have hread : Least (n + k) size (m.wire.length - rxBytes) := ⟨by omega, by omega, by omega⟩
      have hle : rxBytes + (n + k) ≤ m.wire.length := by omega
      have hchunkLen : ((buffer.drop off).take size).length = size := by
        apply List.length_take_of_le
        rw [List.length_drop]
        omega
      have hsum : rxBytes + (n + k) = headerSize + k := by omega
      have hheld : held header' data' (rxBytes + (n + k)) = m.wire.take (rxBytes + (n + k)) := by
        rw [Nat.zero_add, List.take_zero, List.nil_append] at htake'
        rw [← wire_take_append hchunk (by omega) (by omega), hsum, held_data data' hlen, htake', List.take_add,
          ← List.append_assoc, wire_take_append hchunk (by omega) (by omega), hfull, ← htake, List.take_of_length_le hlen.le]
      rw [if_neg hzero, hrun]
      exact ⟨_, rfl, hread, ⟨hlen, hle, hheld, fun _ => hdata⟩, rfl⟩

lemma ipcReadBuffer_spec (h : Holds m header data rxBytes) (hincomplete : rxBytes < m.wire.length)
    (hload : off + size ≤ buffer.length) (hsize : size < 2 ^ 32)
    (hchunk : (buffer.drop off).take size <+: m.wire.drop rxBytes ++ more) :
    ∃ p, ipcReadBuffer header data rxBytes buffer off size = some p ∧ ReadOn m rxBytes size p := by
  rcases Nat.lt_or_ge rxBytes headerSize with hb | hb
  · exact ipcReadBuffer_header h hincomplete hb hload hsize hchunk
  · exact ipcReadBuffer_data h hincomplete hb hload hsize hchunk

end

end Glaber.Ipc.Service
