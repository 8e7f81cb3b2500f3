import Glaber.Ipc.Service

namespace Glaber.Ipc.Service

open Glaber.Lib.Blocks Glaber.Lib.Bytes

lemma add32_eq {a b : ℕ} (h : a + b < 2 ^ 32) : add32 a b = a + b := by
  rw [add32]
  exact Nat.mod_eq_of_lt h

lemma sub32_eq {a b : ℕ} (h : b ≤ a) (ha : a < 2 ^ 32) : sub32 a b = a - b := by
  rw [sub32]
  omega

@[simp] lemma length_header (code size : ℕ) : (headerBytes code size).length = headerSize := by simp [headerBytes, headerSize]

lemma messageCode_header {code size : ℕ} (h : code < 2 ^ 32) : messageCode (headerBytes code size) = code := by
  rw [messageCode, headerBytes, List.take_left' (encodeWord_length 4 code), decodeWord_encodeWord]
  exact Nat.mod_eq_of_lt h

lemma messageSize_header {code size : ℕ} (h : size < 2 ^ 32) : messageSize (headerBytes code size) = size := by
  rw [messageSize, headerBytes, List.drop_left' (encodeWord_length 4 code), List.take_of_length_le (encodeWord_length 4 size).le,
    decodeWord_encodeWord]
  exact Nat.mod_eq_of_lt h

lemma Message.size_lt (m : Message) : m.size + headerSize < 2 ^ 32 := m.fits

lemma Message.messageSize_header (m : Message) : messageSize (headerBytes m.code.toNat m.size) = m.size :=
  Service.messageSize_header ((Nat.le_add_right _ _).trans_lt m.size_lt)

def Message.wire (m : Message) : List UInt8 := headerBytes m.code.toNat m.size ++ m.data

def wires (ms : List Message) : List UInt8 := ms.flatMap Message.wire

@[simp] lemma wires_nil : wires [] = [] := rfl

@[simp] lemma wires_cons (m : Message) (ms : List Message) : wires (m :: ms) = m.wire ++ wires ms := rfl

@[simp] lemma wires_append (ms ms' : List Message) : wires (ms ++ ms') = wires ms ++ wires ms' := List.flatMap_append

@[simp] lemma Message.length_wire (m : Message) : m.wire.length = headerSize + m.size := by
  rw [Message.wire, List.length_append, length_header, Message.size]

section

lemma writeLoop_spec (data : Block) (results : List ℕ) (channel : List UInt8) {offset : ℕ} (h : offset ≤ data.length) :
    ∃ n rest, writeLoop data results channel offset = (⟨channel ++ (data.drop offset).take n, rest⟩, offset + n) ∧
      offset + n ≤ data.length := by
  induction results generalizing channel offset with
  | nil => exact ⟨0, [], by simp [writeLoop], h⟩
  | cons k results ih =>
    rw [writeLoop]
    split_ifs
    · exact ⟨0, k :: results, by simp, h⟩
    · exact ⟨0, results, by simp, h⟩
    · have hle : offset + min k (data.length - offset) ≤ data.length := by omega
      obtain ⟨n, rest, hrun, hn⟩ := ih (channel ++ (data.drop offset).take (min k (data.length - offset))) hle
      refine ⟨min k (data.length - offset) + n, rest, ?_, by omega⟩
      dsimp only
      rw [hrun, List.take_add, List.drop_drop, List.append_assoc, Nat.add_assoc]

lemma ipcWriteData_spec (fd : Fd) (data : Block) :
    ∃ n rest, ipcWriteData fd data = (⟨fd.channel ++ data.take n, rest⟩, n) ∧ n ≤ data.length := by
  obtain ⟨n, rest, hrun, hn⟩ := writeLoop_spec data fd.results fd.channel (Nat.zero_le _)
  refine ⟨n, rest, ?_, by omega⟩
  rw [ipcWriteData, hrun, List.drop_zero, Nat.zero_add]

lemma ipcSocketWriteMessage_spec (fd : Fd) (m : Message) :
    ∃ n rest, ipcSocketWriteMessage fd m = some (⟨fd.channel ++ m.wire.take n, rest⟩, n) ∧ n ≤ m.wire.length := by
  have hfits := m.size_lt
  rw [ipcSocketWriteMessage]
  split_ifs with hsmall
  · have hsize : headerSize + m.size ≤ socketBufferSize := by
      have : headerSize ≤ socketBufferSize := by decide
      omega
    obtain ⟨buffer, hbuffer, hheader⟩ := store_eq (List.replicate socketBufferSize 0) 0
      (headerBytes m.code.toNat m.size) (by rw [length_header, List.length_replicate]; decide)
    have hlen : buffer.length = socketBufferSize := hheader.length.trans (List.length_replicate ..)
    obtain ⟨buffer', hbuffer', hdata⟩ := store_eq buffer headerSize m.data
      (by rw [hlen]; exact hsize)
    have hwire : buffer'.take (m.size + headerSize) = m.wire := by
      have h := hheader.take
      rw [length_header, Nat.zero_add, List.take_zero, List.nil_append] at h
      rw [Nat.add_comm, Message.size, hdata.take, h]
      rfl
    have hload : load buffer' 0 (add32 m.size headerSize) = some m.wire := by
      rw [add32_eq hfits, load_eq (by rw [hdata.length, hlen]; omega), List.drop_zero, hwire]
    obtain ⟨n, rest, hrun, hn⟩ := ipcWriteData_spec fd m.wire
    refine ⟨n, rest, ?_, hn⟩
    simp only [hbuffer, hbuffer', hload, hrun, Option.bind_eq_bind, Option.bind_some]
    rfl
  · obtain ⟨n, rest, hrun, hn⟩ := ipcWriteData_spec fd (headerBytes m.code.toNat m.size)
    simp only [hrun]
    split_ifs with hpart
    · refine ⟨n, rest, ?_, ?_⟩
      · rw [Message.wire, List.take_append_of_le_length hn]
      · rw [Message.length_wire]
        rw [length_header] at hn
        omega
    · obtain ⟨k, rest', hrun', hk⟩ := ipcWriteData_spec ⟨fd.channel ++ (headerBytes m.code.toNat m.size).take n, rest⟩ m.data
      have hk' : k ≤ m.size := hk
      obtain rfl : n = headerSize := (not_not.mp hpart).symm
      have hall : (headerBytes m.code.toNat m.size).take headerSize = headerBytes m.code.toNat m.size :=
        List.take_of_length_le (length_header _ _).le
      refine ⟨headerSize + k, rest', ?_, by rw [Message.length_wire]; omega⟩
      have hsum : add32 headerSize k = headerSize + k := add32_eq (by omega)
      have htake : m.wire.take (headerSize + k) = headerBytes m.code.toNat m.size ++ m.data.take k := by
        rw [Message.wire, ← length_header m.code.toNat m.size, List.take_length_add_append]
      rw [hall] at hrun'
      simp only [hall, hrun', hsum, htake, List.append_assoc]

end

section

def Client.current (c : Client) : List UInt8 :=
  (c.txHeader ++ c.txData).drop (headerSize + messageSize c.txHeader - c.txBytes)

def Client.unsent (c : Client) : List UInt8 := c.current ++ wires c.txQueue

structure Framed (c : Client) : Prop where
  header : c.txHeader.length = headerSize
  data : c.txData.length ≤ messageSize c.txHeader
  fits : messageSize c.txHeader + headerSize < 2 ^ 32
  bytes : c.txBytes ≤ headerSize + messageSize c.txHeader
  busy : c.txBytes ≠ 0 → c.txData.length = messageSize c.txHeader

structure Sending (c : Client) : Prop extends Framed c where
  idle : c.txBytes = 0 → c.txQueue = []

lemma sending_init : Sending init.client where
  header := rfl
  data := Nat.zero_le _
  fits := by decide
  bytes := Nat.zero_le _
  busy h := absurd rfl h
  idle _ := rfl

lemma Framed.current_nil {c : Client} (h : Framed c) (hb : c.txBytes = 0) : c.current = [] := by
  apply List.drop_eq_nil_of_le
  rw [List.length_append, h.header, hb]
  exact Nat.add_le_add_left h.data _

lemma Sending.unsent_nil {c : Client} (h : Sending c) (hb : c.txBytes = 0) : c.unsent = [] := by
  rw [Client.unsent, h.current_nil hb, h.idle hb]
  rfl

def pending (m : Message) (n : ℕ) (queue : List Message) : Client := ⟨n, headerBytes m.code.toNat m.size, m.data, queue⟩

lemma framed_pending (m : Message) {n : ℕ} (hn : n ≤ headerSize + m.size) (queue : List Message) :
    Framed (pending m n queue) where
  header := length_header ..
  data := m.messageSize_header.ge
  fits := by
    show messageSize (headerBytes m.code.toNat m.size) + headerSize < 2 ^ 32
    rw [m.messageSize_header]
    exact m.size_lt
  bytes := by
    show n ≤ headerSize + messageSize (headerBytes m.code.toNat m.size)
    rwa [m.messageSize_header]
  busy _ := m.messageSize_header.symm

lemma current_pending (m : Message) (n : ℕ) (queue : List Message) :
    (pending m n queue).current = m.wire.drop (headerSize + m.size - n) := by
  show (headerBytes m.code.toNat m.size ++ m.data).drop
    (headerSize + messageSize (headerBytes m.code.toNat m.size) - n) = _
  rw [m.messageSize_header]
  rfl

theorem zbxIpcClientSend_spec {c : Client} (h : Sending c) (fd : Fd) (m : Message) :
    ∃ c' fd', zbxIpcClientSend c fd m = some (c', fd') ∧ Sending c' ∧
      fd'.channel ++ c'.unsent = fd.channel ++ c.unsent ++ m.wire := by
  have hfits := m.size_lt
  rw [zbxIpcClientSend]
  split_ifs with hbusy
  · refine ⟨_, _, rfl, ⟨⟨h.header, h.data, h.fits, h.bytes, h.busy⟩, fun hz => absurd hz.symm hbusy⟩, ?_⟩
    simp [Client.unsent, Client.current]
  · have hzero : c.txBytes = 0 := (not_not.mp hbusy).symm
    obtain ⟨n, rest, hrun, hn⟩ := ipcSocketWriteMessage_spec fd m
    rw [Message.length_wire] at hn
    have htotal : add32 headerSize m.size = headerSize + m.size := add32_eq (by omega)
    rw [hrun, htotal, h.unsent_nil hzero]
    simp only [Option.bind_eq_bind, Option.bind_some]
    split_ifs with hpart
    · have hleft : sub32 (headerSize + m.size) n = headerSize + m.size - n := sub32_eq hn (by omega)
      rw [hleft, h.idle hzero]
      refine ⟨pending m (headerSize + m.size - n) [], _, rfl, ⟨framed_pending m (by omega) [], fun _ => rfl⟩, ?_⟩
      have hsub : headerSize + m.size - (headerSize + m.size - n) = n := by omega
      rw [Client.unsent, current_pending, hsub]
      simp [pending]
    · obtain rfl : n = headerSize + m.size := not_not.mp hpart
      refine ⟨c, _, rfl, h, ?_⟩
      rw [h.unsent_nil hzero, List.take_of_length_le (Message.length_wire m).le]
      simp

lemma popTxMessage_spec {c : Client} (h : Framed c) :
    Sending (ipcClientPopTxMessage c) ∧ (ipcClientPopTxMessage c).unsent = wires c.txQueue := by
  obtain ⟨txBytes, txHeader, txData, txQueue⟩ := c
  cases txQueue with
  | nil =>
    have hidle : Sending ⟨0, txHeader, [], []⟩ :=
      ⟨⟨h.header, Nat.zero_le _, h.fits, Nat.zero_le _, fun hb => absurd rfl hb⟩, fun _ => rfl⟩
    exact ⟨hidle, hidle.unsent_nil rfl⟩
  | cons m queue =>
    have hfits := m.size_lt
    have htotal : add32 headerSize m.size = headerSize + m.size := add32_eq (by omega)
    have hpos : headerSize + m.size ≠ 0 := by simp [headerSize]
    have hpop : ipcClientPopTxMessage ⟨txBytes, txHeader, txData, m :: queue⟩ = pending m (headerSize + m.size) queue := by
      rw [← htotal]
      rfl
    rw [hpop]
    refine ⟨⟨framed_pending m le_rfl queue, fun hz => absurd hz hpos⟩, ?_⟩
    show (pending m (headerSize + m.size) queue).current ++ wires queue = _
    rw [current_pending, Nat.sub_self, List.drop_zero, wires_cons]

def Client.advance (c : Client) (n : ℕ) : Client := { c with txBytes := c.txBytes - n }

lemma Framed.advance {c : Client} (h : Framed c) (n : ℕ) : Framed (c.advance n) where
  header := h.header
  data := h.data
  fits := h.fits
  bytes := (Nat.sub_le _ _).trans h.bytes
  busy hb := h.busy fun hz => hb (by rw [Client.advance, hz, Nat.zero_sub])

lemma Framed.unsent_advance {c : Client} (h : Framed c) {n : ℕ} (hn : n ≤ c.txBytes) :
    c.current.take n ++ (c.advance n).unsent = c.unsent := by
  have hb := h.bytes
  have hoff : headerSize + messageSize c.txHeader - (c.txBytes - n) =
      headerSize + messageSize c.txHeader - c.txBytes + n := by omega
  have hcurrent : c.current.take n ++ (c.advance n).current = c.current := by
    show _ ++ (c.txHeader ++ c.txData).drop (headerSize + messageSize c.txHeader - (c.txBytes - n)) = _
    rw [Client.current, hoff, ← List.drop_drop, List.take_append_drop]
  rw [Client.unsent, Client.unsent, ← List.append_assoc, hcurrent]
  rfl

lemma Framed.current_data {c : Client} (h : Framed c) (hb : c.txBytes ≤ messageSize c.txHeader) :
    c.current = c.txData.drop (messageSize c.txHeader - c.txBytes) := by
  have hoff : headerSize + messageSize c.txHeader - c.txBytes =
      c.txHeader.length + (messageSize c.txHeader - c.txBytes) := by
    rw [h.header]
    omega
  rw [Client.current, hoff, List.drop_length_add_append]

lemma clientWriteLoop_spec (turns : ℕ) {c : Client} (h : Framed c) (fd : Fd) (hturns : c.txBytes < turns)
    (hb : c.txBytes ≤ messageSize c.txHeader) :
    ∃ c' fd', clientWriteLoop (messageSize c.txHeader) turns c fd = some (c', fd') ∧ Sending c' ∧
      fd'.channel ++ c'.unsent = fd.channel ++ c.unsent := by
  induction turns generalizing c fd with
  | zero => omega
  | succ turns ih =>
    have hfits := h.fits
    rw [clientWriteLoop]
    split_ifs with hpos
    · have hlen := h.busy (by omega)
      have hoff : sub32 (messageSize c.txHeader) c.txBytes = messageSize c.txHeader - c.txBytes := sub32_eq hb (by omega)
      have hload : load c.txData (sub32 (messageSize c.txHeader) c.txBytes) c.txBytes = some c.current := by
        rw [hoff, load_eq (by omega), h.current_data hb, List.take_of_length_le]
        rw [List.length_drop]
        omega
      have hcurrent : c.current.length = c.txBytes := by
        rw [h.current_data hb, List.length_drop]
        omega
      obtain ⟨n, rest, hrun, hn⟩ := ipcWriteData_spec fd c.current
      rw [hcurrent] at hn
      have hsub : sub32 c.txBytes n = c.txBytes - n := sub32_eq hn (by omega)
      simp only [hload, hrun, hsub, Option.bind_eq_bind, Option.bind_some]
      split_ifs with hzero
      · subst hzero
        exact ⟨c, _, rfl, ⟨h, fun hz => absurd hz (by omega)⟩, by simp⟩
      · obtain ⟨c', fd', hloop, hs, hsent⟩ := ih (h.advance n) ⟨fd.channel ++ c.current.take n, rest⟩
          (by show c.txBytes - n < turns; omega) ((Nat.sub_le _ _).trans hb)
        refine ⟨c', fd', hloop, hs, ?_⟩
        rw [hsent, ← h.unsent_advance hn, List.append_assoc]
    · have hz : c.txBytes = 0 := by omega
      obtain ⟨hs, hunsent⟩ := popTxMessage_spec h
      refine ⟨_, fd, rfl, hs, ?_⟩
      rw [hunsent, Client.unsent, h.current_nil hz]
      rfl

lemma Framed.load_header {c : Client} (h : Framed c) (hb : messageSize c.txHeader < c.txBytes) :
    load c.txHeader (headerSize - (c.txBytes - messageSize c.txHeader)) (c.txBytes - messageSize c.txHeader) =
      some (c.current.take (c.txBytes - messageSize c.txHeader)) := by
  have hbytes := h.bytes
  have hoff : headerSize + messageSize c.txHeader - c.txBytes = headerSize - (c.txBytes - messageSize c.txHeader) := by
    omega
  rw [load_eq (by rw [h.header]; omega), Client.current, hoff, List.drop_append_of_le_length (by rw [h.header]; omega),
    List.take_append_of_le_length]
  rw [List.length_drop, h.header]
  omega

theorem ipcClientWrite_spec {c : Client} (h : Sending c) (fd : Fd) :
    ∃ c' fd', ipcClientWrite c fd = some (c', fd') ∧ Sending c' ∧
      fd'.channel ++ c'.unsent = fd.channel ++ c.unsent := by
  have hfits := h.fits
  have hbytes := h.bytes
  rw [ipcClientWrite]
  split_ifs with hheader
  · have hsize : sub32 c.txBytes (messageSize c.txHeader) = c.txBytes - messageSize c.txHeader :=
      sub32_eq hheader.le (by omega)
    have hoff : sub32 headerSize (c.txBytes - messageSize c.txHeader) =
        headerSize - (c.txBytes - messageSize c.txHeader) := sub32_eq (by omega) (by decide)
    obtain ⟨n, rest, hrun, hn⟩ := ipcWriteData_spec fd (c.current.take (c.txBytes - messageSize c.txHeader))
    have hn' : n ≤ c.txBytes - messageSize c.txHeader := hn.trans (List.length_take_le _ _)
    have hsub : sub32 c.txBytes n = c.txBytes - n := sub32_eq (by omega) (by omega)
    rw [List.take_take, min_eq_left hn'] at hrun
    have hsent : fd.channel ++ c.current.take n ++ (c.advance n).unsent = fd.channel ++ c.unsent := by
      rw [← h.unsent_advance (by omega : n ≤ c.txBytes), List.append_assoc]
    rw [hsize]
    dsimp only
    rw [hoff, h.load_header hheader, Option.bind_eq_bind, Option.bind_some, hrun]
    dsimp only
    rw [hsub]
    split_ifs with hpart
    · exact ⟨c.advance n, _, rfl, ⟨h.advance n, fun hz => absurd hz (by show c.txBytes - n ≠ 0; omega)⟩, hsent⟩
    · obtain ⟨c', fd', hloop, hs, hrest⟩ := clientWriteLoop_spec (c.txBytes - n + 1) (h.advance n)
        ⟨fd.channel ++ c.current.take n, rest⟩ (Nat.lt_succ_self _) (by show c.txBytes - n ≤ messageSize c.txHeader; omega)
      exact ⟨c', fd', hloop, hs, hrest.trans hsent⟩
  · exact clientWriteLoop_spec (c.txBytes + 1) h.toFramed fd (Nat.lt_succ_self _) (not_lt.mp hheader)

end

end Glaber.Ipc.Service
