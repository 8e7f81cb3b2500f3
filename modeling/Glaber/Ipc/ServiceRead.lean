import Glaber.Ipc.ServiceReceive

namespace Glaber.Ipc.Service

open Glaber.Lib.Blocks Glaber.Lib.Bytes

section

structure Moved (fd : Fd) (block : Block) (off size n : ℕ) (fd' : Fd) (block' : Block) : Prop where
  size_le : n ≤ size
  there : n ≤ fd.channel.length
  channel : fd'.channel = fd.channel.drop n
  length : block'.length = block.length
  take : block'.take (off + n) = block.take off ++ fd.channel.take n

lemma Moved.nothing (channel : List UInt8) (results results' : List ℕ) (block : Block) (off size : ℕ) :
    Moved ⟨channel, results⟩ block off size 0 ⟨channel, results'⟩ block :=
  ⟨Nat.zero_le _, Nat.zero_le _, rfl, rfl, by simp⟩

lemma ipcReadData_spec (fd : Fd) {block : Block} {off size : ℕ} (h : off + size ≤ block.length) :
    ∃ fd' block' n, ipcReadData fd block off size = some (fd', block', n) ∧ Moved fd block off size n fd' block' := by
  obtain ⟨channel, results⟩ := fd
  rw [ipcReadData, if_pos h]
  cases results with
  | nil => exact ⟨_, block, 0, rfl, .nothing ..⟩
  | cons k results =>
    have hlen : (channel.take (min k size)).length ≤ size := (List.length_take_le _ _).trans (min_le_right _ _)
    have hchannel : (channel.take (min k size)).length ≤ channel.length := List.length_take_le' _ _
    have hbytes : channel.take (min k size) = channel.take (channel.take (min k size)).length := by
      rw [List.length_take, ← List.take_eq_take_min]
    obtain ⟨block', hstore, hstored⟩ := store_eq block off (channel.take (min k size)) (by omega)
    dsimp only
    rw [hstore]
    refine ⟨_, block', _, rfl, hlen, hchannel, rfl, hstored.length, ?_⟩
    rw [hstored.take, ← hbytes]

lemma readFullLoop_spec {off size : ℕ} (turns : ℕ) (fd : Fd) {block : Block} {offset : ℕ} (hoffset : offset ≤ size)
    (h : off + size ≤ block.length) : ∃ fd' block' n, readFullLoop off size turns fd block offset =
      some (fd', block', offset + n) ∧ Moved fd block (off + offset) (size - offset) n fd' block' := by
  induction turns generalizing fd block offset with
  | zero => exact ⟨fd, block, 0, rfl, .nothing ..⟩
  | succ turns ih =>
    rw [readFullLoop]
    split_ifs with hmore
    · obtain ⟨fd', block', n, hrun, hmoved⟩ := ipcReadData_spec fd (by omega : off + offset + (size - offset) ≤ block.length)
      rw [hrun, Option.bind_eq_bind, Option.bind_some]
      dsimp only
      have hsize := hmoved.size_le
      by_cases hzero : n = 0
      · rw [if_pos hzero]
        subst hzero
        exact ⟨fd', block', 0, rfl, hmoved⟩
      · rw [if_neg hzero]
        have hthere : off + size ≤ block'.length := by rwa [hmoved.length]
        obtain ⟨fd'', block'', k, hrest, hmoved'⟩ := ih fd' (by omega : offset + n ≤ size) hthere
        have hk := hmoved'.there
        have hks := hmoved'.size_le
        rw [hmoved.channel, List.length_drop] at hk
        refine ⟨fd'', block'', n + k, ?_, by omega, by have := hmoved.there; omega, ?_, ?_, ?_⟩
        · rw [hrest, Nat.add_assoc]
        · rw [hmoved'.channel, hmoved.channel, List.drop_drop]
        · rw [hmoved'.length, hmoved.length]
        · have htake := hmoved'.take
          rw [← Nat.add_assoc off, hmoved.take, hmoved.channel, List.append_assoc, ← List.take_add] at htake
          rw [← Nat.add_assoc, htake]
    · exact ⟨fd, block, 0, rfl, .nothing ..⟩

end

def Receiver.leftover (r : Receiver) : List UInt8 :=
  (r.rxBuffer.drop r.rxBufferOffset).take (r.rxBufferBytes - r.rxBufferOffset)

structure Receiving (todo : List Message) (r : Receiver) (coming : List UInt8) : Prop where
  buffer : r.rxBuffer.length = socketBufferSize
  offset : r.rxBufferOffset ≤ r.rxBufferBytes
  bytes : r.rxBufferBytes ≤ socketBufferSize
  header : r.rxHeader.length = headerSize
  none : todo = [] → r.rxBytes = 0
  holds : ∀ m rest, todo = m :: rest → Holds m r.rxHeader r.rxData r.rxBytes
  stream : (wires todo).drop r.rxBytes = r.leftover ++ coming

def Complete (todo : List Message) (r : Receiver) : Prop := ∃ m rest, todo = m :: rest ∧ r.rxBytes = m.wire.length

section

variable {todo : List Message} {r : Receiver} {coming : List UInt8}

lemma Receiving.bytes_le (h : Receiving todo r coming) : r.rxBytes ≤ (wires todo).length := by
  cases todo with
  | nil => exact (h.none rfl).le
  | cons m rest =>
    rw [wires_cons, List.length_append]
    exact (h.holds m rest rfl).bytes.trans (Nat.le_add_right _ _)

lemma Receiving.length (h : Receiving todo r coming) :
    r.rxBytes + r.leftover.length + coming.length = (wires todo).length := by
  have hle := h.bytes_le
  have hlen := congrArg List.length h.stream
  rw [List.length_drop, List.length_append] at hlen
  omega

lemma Receiving.completed_iff (h : Receiving todo r coming) :
    ipcMessageIsCompleted r.rxHeader r.rxBytes = true ↔ Complete todo r := by
  cases todo with
  | nil =>
    rw [h.none rfl]
    constructor
    · intro hc
      have hfalse : ipcMessageIsCompleted r.rxHeader 0 = false := by simp [ipcMessageIsCompleted, headerSize]
      rw [hfalse] at hc
      cases hc
    · rintro ⟨m, rest, htodo, -⟩
      cases htodo
  | cons m rest =>
    rw [(h.holds m rest rfl).completed_iff]
    constructor
    · exact fun hb => ⟨m, rest, rfl, hb⟩
    · rintro ⟨m', rest', htodo, hb⟩
      obtain ⟨rfl, rfl⟩ := List.cons.inj htodo
      exact hb

lemma Receiving.next (h : Receiving todo r coming) (hmore : r.leftover ++ coming ≠ [] ∨ r.rxBytes ≠ 0) :
    ∃ m rest, todo = m :: rest ∧ Holds m r.rxHeader r.rxData r.rxBytes ∧
      m.wire.drop r.rxBytes ++ wires rest = r.leftover ++ coming := by
  cases todo with
  | nil =>
    have hstream := h.stream
    rw [wires_nil, List.drop_nil] at hstream
    rcases hmore with hne | hne
    · exact absurd hstream.symm hne
    · exact absurd (h.none rfl) hne
  | cons m rest =>
    have hholds := h.holds m rest rfl
    refine ⟨m, rest, rfl, hholds, ?_⟩
    rw [← h.stream, wires_cons, List.drop_append_of_le_length hholds.bytes]

lemma incomplete_lt {m : Message} {rest : List Message} (hholds : Holds m r.rxHeader r.rxData r.rxBytes)
    (hc : ¬ Complete (m :: rest) r) : r.rxBytes < m.wire.length :=
  lt_of_le_of_ne hholds.bytes fun hb => hc ⟨m, rest, rfl, hb⟩

lemma Receiving.parse (h : Receiving todo r coming) (hc : ¬ Complete todo r) (hmore : r.leftover ≠ []) :
    ∃ p, ipcReadBuffer r.rxHeader r.rxData r.rxBytes r.rxBuffer r.rxBufferOffset (r.rxBufferBytes - r.rxBufferOffset) =
        some p ∧ Receiving todo (r.parsed p) coming ∧ (p.completed = true ↔ Complete todo (r.parsed p)) ∧
        (p.completed = false → (r.parsed p).leftover = []) := by
  obtain ⟨m, rest, rfl, hholds, hnext⟩ := h.next (.inl (List.append_ne_nil_of_left_ne_nil hmore coming))
  have hfits := m.size_lt
  have hwire := Message.length_wire m
  have hoffset := h.offset
  have hbytes := h.bytes
  have hbuffer := h.buffer
  have hbufferSize : socketBufferSize < 2 ^ 32 := by decide
  have hlt := incomplete_lt hholds hc
  have hchunk : r.leftover <+: m.wire.drop r.rxBytes ++ wires rest := by
    rw [hnext]
    exact List.prefix_append _ _
  obtain ⟨p, hrun, ⟨hthere, hneeded, heither⟩, hholds', hcompleted⟩ := ipcReadBuffer_spec hholds hlt
    (by omega : r.rxBufferOffset + (r.rxBufferBytes - r.rxBufferOffset) ≤ r.rxBuffer.length) (by omega) hchunk
  have hrxBytes : add32 r.rxBytes p.readSize = r.rxBytes + p.readSize := add32_eq (by omega)
  have hrxOffset : add32 r.rxBufferOffset p.readSize = r.rxBufferOffset + p.readSize := add32_eq (by omega)
  have hleftover : (r.parsed p).leftover = r.leftover.drop p.readSize := by
    rw [Receiver.leftover, Receiver.leftover, Receiver.parsed, hrxOffset, List.drop_take, List.drop_drop, Nat.sub_add_eq]
  have hleftoverLen : r.leftover.length = r.rxBufferBytes - r.rxBufferOffset := by
    rw [Receiver.leftover, List.length_take_of_le]
    rw [List.length_drop]
    omega
  refine ⟨p, hrun, ⟨hbuffer, ?_, hbytes, hholds'.headerLen, fun hnil => absurd hnil (List.cons_ne_nil _ _), ?_, ?_⟩, ?_, ?_⟩
  · show add32 r.rxBufferOffset p.readSize ≤ r.rxBufferBytes
    rw [hrxOffset]
    omega
  · intro m' rest' htodo
    obtain ⟨rfl, rfl⟩ := List.cons.inj htodo
    show Holds m p.header p.data (add32 r.rxBytes p.readSize)
    rwa [hrxBytes]
  · show (wires (m :: rest)).drop (add32 r.rxBytes p.readSize) = _
    rw [hrxBytes, ← List.drop_drop, h.stream, hleftover, List.drop_append_of_le_length (by omega)]
  · rw [hcompleted, decide_eq_true_eq, ← hrxBytes]
    constructor
    · exact fun hb => ⟨m, rest, rfl, hb⟩
    · rintro ⟨m', rest', htodo, hb⟩
      obtain ⟨rfl, rfl⟩ := List.cons.inj htodo
      exact hb
  · intro hnot
    rw [hcompleted, decide_eq_false_iff_not] at hnot
    rw [hleftover]
    exact List.drop_eq_nil_of_le (by omega)

lemma Receiving.direct {unsent : List UInt8} {fd fd' : Fd} {data : Block} {n : ℕ} {m : Message} {rest : List Message}
    (h : Receiving (m :: rest) r (fd.channel ++ unsent)) (hl : r.leftover = []) (hb : headerSize < r.rxBytes)
    (hmoved : Moved fd r.rxData (r.rxBytes - headerSize) (m.wire.length - r.rxBytes) n fd' data) :
    Receiving (m :: rest) { r with rxData := data, rxBytes := r.rxBytes + n } (fd'.channel ++ unsent) := by
  have hholds := h.holds m rest rfl
  have hwire := Message.length_wire m
  have hsize := hmoved.size_le
  have hle := hholds.bytes
  have hthere := hmoved.there
  have hstream := h.stream
  rw [hl, List.nil_append] at hstream
  have hchunk : fd.channel <+: m.wire.drop r.rxBytes ++ wires rest := by
    rw [← List.drop_append_of_le_length hle, ← wires_cons, hstream]
    exact List.prefix_append _ _
  have hnow : r.rxBytes = headerSize + (r.rxBytes - headerSize) := by omega
  have hthen : r.rxBytes + n = headerSize + (r.rxBytes - headerSize + n) := by omega
  have hheld : held r.rxHeader data (r.rxBytes + n) = m.wire.take (r.rxBytes + n) := by
    calc held r.rxHeader data (r.rxBytes + n)
        = r.rxHeader ++ data.take (r.rxBytes - headerSize + n) := by rw [hthen, held_data data hholds.headerLen]
      _ = held r.rxHeader r.rxData r.rxBytes ++ fd.channel.take n := by
          rw [hmoved.take, hnow, held_data r.rxData hholds.headerLen, Nat.add_sub_cancel_left, List.append_assoc]
      _ = m.wire.take (r.rxBytes + n) := by rw [hholds.wire, wire_take_append hchunk hthere hsize]
  refine ⟨h.buffer, h.offset, h.bytes, h.header, fun hnil => absurd hnil (List.cons_ne_nil _ _), ?_, ?_⟩
  · intro m' rest' htodo
    obtain ⟨rfl, rfl⟩ := List.cons.inj htodo
    exact ⟨hholds.headerLen, by show r.rxBytes + n ≤ _; omega, hheld, fun _ => hmoved.length.trans (hholds.dataLen hb.le)⟩
  · show (wires (m :: rest)).drop (r.rxBytes + n) = r.leftover ++ (fd'.channel ++ unsent)
    rw [← List.drop_drop, hstream, hl, List.drop_append_of_le_length hthere, hmoved.channel]
    rfl

lemma Receiving.fill {unsent : List UInt8} {fd fd' : Fd} {buffer : Block} {n : ℕ}
    (h : Receiving todo r (fd.channel ++ unsent)) (hl : r.leftover = [])
    (hmoved : Moved fd r.rxBuffer 0 socketBufferSize n fd' buffer) :
    Receiving todo { r with rxBuffer := buffer, rxBufferBytes := n, rxBufferOffset := 0 } (fd'.channel ++ unsent) ∧
      Receiver.leftover { r with rxBuffer := buffer, rxBufferBytes := n, rxBufferOffset := 0 } = fd.channel.take n := by
  have htake := hmoved.take
  rw [Nat.zero_add, List.take_zero, List.nil_append] at htake
  have hleftover : Receiver.leftover { r with rxBuffer := buffer, rxBufferBytes := n, rxBufferOffset := 0 } =
      fd.channel.take n := by
    rw [← htake]
    rfl
  refine ⟨⟨hmoved.length.trans h.buffer, Nat.zero_le _, hmoved.size_le, h.header, h.none, h.holds, ?_⟩, hleftover⟩
  rw [hleftover, hmoved.channel, ← List.append_assoc, List.take_append_drop]
  show (wires todo).drop r.rxBytes = fd.channel ++ unsent
  rw [h.stream, hl]
  rfl

structure ReadTo (todo : List Message) (unsent : List UInt8) (r r' : Receiver) (fd' : Fd) : Prop where
  receiving : Receiving todo r' (fd'.channel ++ unsent)
  ended : Complete todo r' ∨ r'.leftover = []
  queue : r'.rxQueue = r.rxQueue

def Receiver.cleared (r : Receiver) : Receiver := { r with rxBufferOffset := 0, rxBufferBytes := 0 }

lemma Receiver.leftover_cleared (r : Receiver) : r.cleared.leftover = [] := List.take_zero

lemma Receiving.cleared (h : Receiving todo r coming) (hl : r.leftover = []) : Receiving todo r.cleared coming := by
  refine ⟨h.buffer, Nat.zero_le _, Nat.zero_le _, h.header, h.none, h.holds, ?_⟩
  rw [r.leftover_cleared, ← hl]
  exact h.stream

lemma Holds.lacks {m : Message} {header data : Block} {rxBytes : ℕ} (h : Holds m header data rxBytes)
    (hb : headerSize < rxBytes) :
    sub32 rxBytes headerSize = rxBytes - headerSize ∧
      sub32 (Service.messageSize header) (rxBytes - headerSize) = m.wire.length - rxBytes := by
  have hfits := m.size_lt
  have hwire := Message.length_wire m
  have hle := h.bytes
  have hsize := h.messageSize hb.le
  refine ⟨sub32_eq hb.le (by omega), ?_⟩
  rw [hsize, sub32_eq (by omega) (by omega)]
  omega

lemma socketReadLoop_spec {unsent : List UInt8} (turns : ℕ) {fd : Fd} (hturns : fd.channel.length < turns)
    (h : Receiving todo r (fd.channel ++ unsent)) (hl : r.leftover = []) (hc : ¬ Complete todo r) :
    ∃ r' fd', socketReadLoop turns r fd = some (r', fd') ∧ ReadTo todo unsent r r' fd' := by
  induction turns generalizing r fd with
  | zero => omega
  | succ turns ih =>
    have hcleared := h.cleared hl
    have hnone := r.leftover_cleared
    rw [socketReadLoop]
    dsimp only
    by_cases hdirect : headerSize < r.rxBytes ∧
        socketBufferSize * 3 < sub32 (messageSize r.rxHeader) (sub32 r.rxBytes headerSize) * 4
    · obtain ⟨m, rest, rfl, hholds, -⟩ := h.next (.inr (by omega))
      have hfits := m.size_lt
      have hwire := Message.length_wire m
      have hb := hdirect.1
      have hdata := hholds.dataLen hb.le
      have hle := hholds.bytes
      obtain ⟨hoff, hlacks⟩ := hholds.lacks hb
      have hthere : r.rxBytes - headerSize + (m.wire.length - r.rxBytes) ≤ r.rxData.length := by omega
      obtain ⟨fd', data, n, hrun, hmoved⟩ := readFullLoop_spec (m.wire.length - r.rxBytes) fd (Nat.zero_le _) hthere
      rw [Nat.zero_add] at hrun
      rw [Nat.add_zero, Nat.sub_zero] at hmoved
      have hsize := hmoved.size_le
      rw [if_pos hdirect, hoff, hlacks, ipcReadDataFull, hrun, Option.bind_eq_bind, Option.bind_some]
      dsimp only
      rw [add32_eq (by omega : r.rxBytes + n < 2 ^ 32)]
      exact ⟨_, fd', rfl, hcleared.direct hnone hb hmoved, .inr rfl, rfl⟩
    · obtain ⟨fd', buffer, n, hrun, hmoved⟩ := ipcReadData_spec fd
        (by rw [h.buffer, Nat.zero_add] : 0 + socketBufferSize ≤ r.rxBuffer.length)
      obtain ⟨hfilled, hleftover⟩ := hcleared.fill hnone hmoved
      have hthere := hmoved.there
      rw [if_neg hdirect, hrun, Option.bind_eq_bind, Option.bind_some]
      dsimp only
      by_cases hzero : n = 0
      · subst hzero
        rw [if_pos rfl]
        exact ⟨_, fd', rfl, hfilled, .inr hleftover, rfl⟩
      · rw [if_neg hzero]
        have hmore : Receiver.leftover
            { r.cleared with rxBuffer := buffer, rxBufferBytes := n, rxBufferOffset := 0 } ≠ [] := by
          rw [hleftover]
          exact fun hnil => hzero (by simpa [hthere] using congrArg List.length hnil)
        obtain ⟨p, hparse, hparsed, hcompleted, hused⟩ := hfilled.parse hc hmore
        have hparse' : ipcReadBuffer r.rxHeader r.rxData r.rxBytes buffer 0 n = some p := hparse
        rw [hparse', Option.bind_eq_bind, Option.bind_some]
        by_cases hdone : p.completed = true
        · rw [if_pos hdone]
          exact ⟨_, fd', rfl, hparsed, .inl (hcompleted.mp hdone), rfl⟩
        · rw [if_neg hdone]
          have hshorter : fd'.channel.length < turns := by
            rw [hmoved.channel, List.length_drop]
            omega
          obtain ⟨r', fd'', hrest, hreceiving, hended, hqueue⟩ := ih hshorter hparsed
            (hused (Bool.eq_false_iff.mpr hdone)) (mt hcompleted.mpr hdone)
          exact ⟨r', fd'', hrest, hreceiving, hended, hqueue⟩

lemma ipcSocketReadMessage_spec {unsent : List UInt8} {fd : Fd} (h : Receiving todo r (fd.channel ++ unsent))
    (hc : ¬ Complete todo r) : ∃ r' fd', ipcSocketReadMessage r fd = some (r', fd') ∧ ReadTo todo unsent r r' fd' := by
  have hoffset := h.offset
  have hbytes := h.bytes
  have hbufferSize : socketBufferSize < 2 ^ 32 := by decide
  rw [ipcSocketReadMessage]
  split_ifs with hbuffered
  · have hmore : r.leftover ≠ [] := by
      have hlen : r.leftover.length = r.rxBufferBytes - r.rxBufferOffset := by
        rw [Receiver.leftover, List.length_take_of_le]
        rw [List.length_drop, h.buffer]
        omega
      exact fun hnil => by simp [hnil] at hlen; omega
    obtain ⟨p, hparse, hparsed, hcompleted, hused⟩ := h.parse hc hmore
    rw [sub32_eq hoffset (by omega), hparse, Option.bind_eq_bind, Option.bind_some]
    by_cases hdone : p.completed = true
    · rw [if_pos hdone]
      exact ⟨_, fd, rfl, hparsed, .inl (hcompleted.mp hdone), rfl⟩
    · rw [if_neg hdone]
      obtain ⟨r', fd', hrest, hreceiving, hended, hqueue⟩ := socketReadLoop_spec (fd.channel.length + 1)
        (Nat.lt_succ_self _) hparsed (hused (Bool.eq_false_iff.mpr hdone)) (mt hcompleted.mpr hdone)
      exact ⟨r', fd', hrest, hreceiving, hended, hqueue⟩
  · have hl : r.leftover = [] := by
      rw [Receiver.leftover, Nat.sub_eq_zero_of_le (not_lt.mp hbuffered), List.take_zero]
    exact socketReadLoop_spec (fd.channel.length + 1) (Nat.lt_succ_self _) h hl hc

lemma Receiving.push (h : Receiving todo r coming) (hc : Complete todo r) :
    ∃ m rest, todo = m :: rest ∧ Receiving rest (ipcClientPushRxMessage r) coming ∧
      (ipcClientPushRxMessage r).rxQueue = r.rxQueue ++ [m.received] := by
  obtain ⟨m, rest, rfl, hb⟩ := hc
  have hholds := h.holds m rest rfl
  have hle : headerSize ≤ r.rxBytes := by
    rw [hb, Message.length_wire]
    omega
  have hcode : messageCode r.rxHeader = m.code.toNat := by
    rw [hholds.header_eq hle, messageCode_header m.code.toNat_lt]
  refine ⟨m, rest, rfl, ⟨h.buffer, h.offset, h.bytes, h.header, fun _ => rfl, ?_, ?_⟩, ?_⟩
  · intro m' rest' _
    exact ⟨h.header, Nat.zero_le _, rfl, fun hz => absurd hz (by decide : ¬ headerSize ≤ 0)⟩
  · have hstream := h.stream
    rw [wires_cons, hb, List.drop_left] at hstream
    exact hstream
  · rw [ipcClientPushRxMessage, hcode, hholds.messageSize hle, hholds.data_eq hb]
    rfl

structure Resting (todo : List Message) (r : Receiver) (coming : List UInt8) : Prop extends Receiving todo r coming where
  leftover : r.leftover = []
  incomplete : ¬ Complete todo r

lemma clientReadLoop_spec {unsent : List UInt8} (turns : ℕ) {fd : Fd} (h : Receiving todo r (fd.channel ++ unsent))
    (hc : ¬ Complete todo r) (hturns : (wires todo).length < turns + unsent.length) :
    ∃ r' fd' done rest, clientReadLoop turns r fd = some (r', fd') ∧ todo = done ++ rest ∧
      r'.rxQueue = r.rxQueue ++ done.map Message.received ∧ Resting rest r' (fd'.channel ++ unsent) := by
  induction turns generalizing r fd todo with
  | zero =>
    have hlen := h.length
    rw [List.length_append] at hlen
    omega
  | succ turns ih =>
    obtain ⟨r', fd', hrun, hreceiving, hended, hqueue⟩ := ipcSocketReadMessage_spec h hc
    rw [clientReadLoop, hrun, Option.bind_eq_bind, Option.bind_some]
    dsimp only
    by_cases hcomplete : ipcMessageIsCompleted r'.rxHeader r'.rxBytes = true
    · rw [if_pos hcomplete]
      obtain ⟨m, rest, rfl, hpushed, hqueue'⟩ := hreceiving.push (hreceiving.completed_iff.mp hcomplete)
      have hnew : ¬ Complete rest (ipcClientPushRxMessage r') := by
        rintro ⟨m', rest', -, hb⟩
        rw [Message.length_wire] at hb
        have hzero : (ipcClientPushRxMessage r').rxBytes = 0 := rfl
        have hpos : 0 < headerSize := by decide
        omega
      have hshorter : (wires rest).length < turns + unsent.length := by
        have hpos : 0 < headerSize := by decide
        rw [wires_cons, List.length_append, Message.length_wire] at hturns
        omega
      obtain ⟨r'', fd'', done, rest', hloop, hsplit, hpushes, hresting⟩ := ih hpushed hnew hshorter
      refine ⟨r'', fd'', m :: done, rest', hloop, by rw [hsplit, List.cons_append], ?_, hresting⟩
      rw [hpushes, hqueue', hqueue, List.map_cons, List.append_assoc, List.singleton_append]
    · rw [if_neg hcomplete]
      have hc' := mt hreceiving.completed_iff.mpr hcomplete
      refine ⟨r', fd', [], todo, rfl, rfl, ?_, ⟨hreceiving, hended.resolve_left hc', hc'⟩⟩
      rw [hqueue, List.map_nil, List.append_nil]

theorem ipcClientRead_spec {unsent : List UInt8} {fd : Fd} (h : Resting todo r (fd.channel ++ unsent)) :
    ∃ r' fd' done rest, ipcClientRead r fd = some (r', fd') ∧ todo = done ++ rest ∧
      r'.rxQueue = r.rxQueue ++ done.map Message.received ∧ Resting rest r' (fd'.channel ++ unsent) := by
  refine clientReadLoop_spec _ h.toReceiving h.incomplete ?_
  have hlen := h.length
  rw [h.leftover, List.length_append, List.length_nil] at hlen
  omega

end

end Glaber.Ipc.Service
