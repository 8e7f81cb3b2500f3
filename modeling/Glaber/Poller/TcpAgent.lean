import Glaber.Lib.Bytes
import Glaber.Lib.Streams

/-! Responses of the passive agent over TCP (`tcp_agent_proto.c`). -/

namespace Glaber.Poller.TcpAgent

open Glaber.Lib.Bytes Glaber.Lib.Reassembly

inductive Result where
  | value (text : List UInt8)
  | error (text : List UInt8)
  | outside (received : List UInt8)
deriving DecidableEq

def headerData : List UInt8 := [0x5A, 0x42, 0x58, 0x44]
def tcpProtocol : UInt8 := 1
def agentHeadersSize : ℕ := 13
def payloadOffset : ℕ := 5

def octets (text : String) : List UInt8 := text.toList.map fun c => UInt8.ofNat c.toNat

def noHeader : List UInt8 := octets "Response doesn't start from ZBXD prefix"
def improperFlag : List UInt8 := octets "Response has improper flag value, '0x01' is expected"
def notSupported : List UInt8 := octets "ZBX_NOTSUPPORTED"
def zbxError : List UInt8 := octets "ZBX_ERROR"

def rtrim (chars text : List UInt8) : List UInt8 := (text.reverse.dropWhile (· ∈ chars)).reverse
def ltrim (chars text : List UInt8) : List UInt8 := text.dropWhile (· ∈ chars)

def processPayloadResponse (buffer : List UInt8) (size : ℕ) : Result :=
  if buffer.length < size then .outside buffer
  else
    -- the copy is a C string, so the value ends at the first zero
    let value := ltrim [0x20] (rtrim [0x20, 0x0D, 0x0A] ((buffer.take size).takeWhile (· ≠ 0)))
    if value = notSupported ∨ value = zbxError then .error value else .value value

def payloadLen (buffer : List UInt8) : ℕ := decodeWord ((buffer.drop payloadOffset).take 4)

/-- `none` while more data is to come; the sum of the lengths is a 32-bit one. -/
def processResponse (buffer : List UInt8) : Option Result :=
  if buffer.length < agentHeadersSize then none
  else if buffer.take 4 ≠ headerData then some (.error noHeader)
  else if buffer[4]? ≠ some tcpProtocol then some (.error improperFlag)
  else if buffer.length < (payloadLen buffer + agentHeadersSize) % 2 ^ 32 then none
  else some (processPayloadResponse (buffer.drop agentHeadersSize) (payloadLen buffer))

variable {β : Type}

structure AgentData (β : Type) where
  buffer : List β
  allocated : ℕ
  fits : buffer.length ≤ allocated

def AgentData.clean (allocated : ℕ) : AgentData β := ⟨[], allocated, Nat.zero_le _⟩

def freeBuffer (data : AgentData β) : AgentData β := if 0 < data.allocated then .clean 0 else data

def addDataToBuffer (data : AgentData β) (chunk : List β) : AgentData β where
  buffer := data.buffer ++ chunk
  allocated :=
    if data.allocated - data.buffer.length < chunk.length then data.allocated + chunk.length else data.allocated
  fits := by
    have := data.fits
    rw [List.length_append]
    split_ifs <;> omega

def maxReasonableBufferLength : ℕ := 2 ^ 20

def cleanBuffer (lastcheck now : ℤ) (data : AgentData β) : AgentData β × ℤ :=
  if maxReasonableBufferLength < data.allocated ∧ lastcheck + 30 < now then (freeBuffer data, now)
  else (.clean data.allocated, lastcheck)

structure Reply (β : Type) where
  result : Option Result
  interpreted : List β
  data : AgentData β
  lastcheck : ℤ

def bufferResponse (octet : β → UInt8) (lastcheck now : ℤ) (data : AgentData β) (response : List β) : Reply β :=
  let data := addDataToBuffer data response
  match processResponse (data.buffer.map octet) with
  | some result =>
    let cleaned := cleanBuffer lastcheck now data
    ⟨some result, data.buffer, cleaned.1, cleaned.2⟩
  | none => ⟨none, data.buffer, data, lastcheck⟩

def responseCb (octet : β → UInt8) (lastcheck now : ℤ) (data : AgentData β) (response : List β) : Reply β :=
  if data.allocated = 0 then
    match processResponse (response.map octet) with
    | some result => ⟨some result, response, data, lastcheck⟩
    | none => bufferResponse octet lastcheck now data response
  else bufferResponse octet lastcheck now data response

def receive (octet : β → UInt8) (lastcheck : ℤ) : AgentData β → List (ℤ × List β) → Option Result
  | _, [] => none
  | data, (now, chunk) :: chunks =>
    let reply := responseCb octet lastcheck now data chunk
    match reply.result with
    | some result => some result
    | none => receive octet lastcheck reply.data chunks

section

variable {octet : β → UInt8} {lastcheck now : ℤ} {data : AgentData β} {response : List β}

lemma buffer_eq_nil (h : data.allocated = 0) : data.buffer = [] :=
  List.eq_nil_of_length_eq_zero (Nat.le_zero.mp (h ▸ data.fits))

lemma cleanBuffer_buffer : (cleanBuffer lastcheck now data).1.buffer = [] := by
  rw [cleanBuffer]
  split_ifs with h
  · rw [freeBuffer, if_pos (Nat.zero_lt_of_lt h.1)]
    rfl
  · rfl

lemma responseCb_continue (h : processResponse ((data.buffer ++ response).map octet) = none) :
    responseCb octet lastcheck now data response =
      ⟨none, data.buffer ++ response, addDataToBuffer data response, lastcheck⟩ := by
  have hbuffer : bufferResponse octet lastcheck now data response =
      ⟨none, data.buffer ++ response, addDataToBuffer data response, lastcheck⟩ := by
    simp only [bufferResponse, addDataToBuffer, h]
  rw [responseCb]
  split_ifs with halloc
  · rw [buffer_eq_nil halloc, List.nil_append] at h
    rw [h]
    exact hbuffer
  · exact hbuffer

lemma responseCb_finish (lastcheck now : ℤ) {result : Result}
    (h : processResponse ((data.buffer ++ response).map octet) = some result) : ∃ data' lastcheck',
      responseCb octet lastcheck now data response = ⟨some result, data.buffer ++ response, data', lastcheck'⟩ ∧
        data'.buffer = [] := by
  rw [responseCb]
  split_ifs with halloc
  · have hnil := buffer_eq_nil halloc
    rw [hnil, List.nil_append] at h ⊢
    exact ⟨data, lastcheck, by rw [h], hnil⟩
  · have hbuffer : bufferResponse octet lastcheck now data response = ⟨some result, data.buffer ++ response,
        (cleanBuffer lastcheck now (addDataToBuffer data response)).1,
        (cleanBuffer lastcheck now (addDataToBuffer data response)).2⟩ := by
      simp only [bufferResponse, addDataToBuffer, h]
    exact ⟨_, _, hbuffer, cleanBuffer_buffer⟩

end

lemma receive_eq_feed (octet : β → UInt8) (lastcheck : ℤ) (data : AgentData β) (chunks : List (ℤ × List β)) :
    receive octet lastcheck data chunks =
      feed (fun bytes => processResponse (bytes.map octet)) data.buffer (chunks.map Prod.snd) := by
  induction chunks generalizing data with
  | nil => rfl
  | cons head chunks ih =>
    obtain ⟨now, chunk⟩ := head
    rw [receive, List.map_cons, feed]
    cases h : processResponse ((data.buffer ++ chunk).map octet) with
    | some result =>
      obtain ⟨data', lastcheck', hreply, _⟩ := responseCb_finish lastcheck now h
      simp only [hreply]
    | none =>
      simp only [responseCb_continue h, ih]
      rfl

def LengthWraps (stream : List UInt8) : Prop :=
  agentHeadersSize ≤ stream.length ∧ stream.take 4 = headerData ∧ stream[4]? = some tcpProtocol ∧
    2 ^ 32 - agentHeadersSize ≤ payloadLen stream

instance (stream : List UInt8) : Decidable (LengthWraps stream) := inferInstanceAs (Decidable (_ ∧ _))

section

variable {early stream : List UInt8}

lemma payloadLen_lt (buffer : List UInt8) : payloadLen buffer < 2 ^ 32 :=
  calc payloadLen buffer < 256 ^ ((buffer.drop payloadOffset).take 4).length := decodeWord_lt _
    _ ≤ 256 ^ 4 := Nat.pow_le_pow_right (by omega) (List.length_take_le _ _)

lemma header_of_early (h : early <+: stream) (hlen : agentHeadersSize ≤ early.length) :
    stream.take 4 = early.take 4 ∧ stream[4]? = early[4]? ∧ payloadLen stream = payloadLen early := by
  obtain ⟨rest, rfl⟩ := h
  rw [agentHeadersSize] at hlen
  refine ⟨List.take_append_of_le_length (by omega), List.getElem?_append_left (by omega), ?_⟩
  rw [payloadLen, payloadLen, payloadOffset, List.drop_append_of_le_length (by omega),
    List.take_append_of_le_length (by rw [List.length_drop]; omega)]

lemma processPayloadResponse_append {payload : List UInt8} {size : ℕ} (h : size ≤ payload.length) (rest : List UInt8) :
    processPayloadResponse (payload ++ rest) size = processPayloadResponse payload size := by
  have hlong : ¬(payload ++ rest).length < size := by
    rw [List.length_append]
    omega
  simp only [processPayloadResponse, hlong, if_false, Nat.not_lt.mpr h, List.take_append_of_le_length h]

lemma processPayloadResponse_ne_outside {payload : List UInt8} {size : ℕ} (h : size ≤ payload.length)
    (received : List UInt8) : processPayloadResponse payload size ≠ .outside received := by
  rw [processPayloadResponse, if_neg (by omega)]
  dsimp only
  split_ifs <;> simp

lemma length_of_processResponse {result : Result} (h : processResponse early = some result) :
    agentHeadersSize ≤ early.length := by
  by_contra hlt
  rw [processResponse, if_pos (by omega)] at h
  cases h

lemma processResponse_stands (h : ¬LengthWraps stream) (hearly : early <+: stream) {result : Result}
    (hresult : processResponse early = some result) :
    processResponse stream = some result ∧ ∀ received, result ≠ .outside received := by
  have hlen := length_of_processResponse hresult
  have hle := hearly.length_le
  obtain ⟨hhead, hflag, hpayload⟩ := header_of_early hearly hlen
  rw [processResponse, if_neg (by omega)] at hresult ⊢
  rw [hhead, hflag, hpayload]
  split_ifs at hresult with h1 h2 h3
  · cases hresult
    simp [h1]
  · cases hresult
    simp [h1, h2]
  · simp only [ne_eq, not_not] at h1 h2
    -- both parts of the header are there, so the length does not wrap
    have hsmall : payloadLen early < 2 ^ 32 - agentHeadersSize := by
      by_contra hbig
      exact h ⟨by omega, hhead.trans h1, hflag.trans h2, by omega⟩
    rw [Nat.mod_eq_of_lt (by rw [agentHeadersSize] at *; omega)] at h3 ⊢
    have hroom : payloadLen early ≤ (early.drop agentHeadersSize).length := by
      rw [List.length_drop]
      omega
    obtain ⟨rest, rfl⟩ := hearly
    rw [List.drop_append_of_le_length hlen, processPayloadResponse_append hroom]
    cases hresult
    have hlong : ¬(early ++ rest).length < payloadLen early + agentHeadersSize := by omega
    rw [if_neg (not_not.mpr h1), if_neg (not_not.mpr h2), if_neg hlong]
    exact ⟨rfl, processPayloadResponse_ne_outside hroom⟩

lemma processResponse_header (h : LengthWraps stream) :
    processResponse (stream.take agentHeadersSize) = some (.outside []) := by
  obtain ⟨hlen, hhead, hflag, hbig⟩ := h
  have hthirteen : (stream.take agentHeadersSize).length = agentHeadersSize := List.length_take_of_le hlen
  obtain ⟨hhead', hflag', hpayload⟩ := header_of_early (List.take_prefix agentHeadersSize stream) (by omega)
  have hlt := payloadLen_lt stream
  have hwrapped : (payloadLen stream + agentHeadersSize) % 2 ^ 32 ≤ agentHeadersSize := by
    rw [agentHeadersSize] at *
    omega
  rw [processResponse, if_neg (by omega), ← hhead', ← hflag', ← hpayload, if_neg (not_not.mpr hhead),
    if_neg (not_not.mpr hflag), if_neg (by omega), List.drop_take, Nat.sub_self, List.take_zero,
    processPayloadResponse, if_pos]
  rw [List.length_nil, agentHeadersSize] at *
  omega

end

theorem reassembly_iff_length_fits (octet : β → UInt8) (allocated : ℕ) (lastcheck : ℤ) (stream : List β) :
    (∀ chunks : List (ℤ × List β), (chunks.map Prod.snd).flatten = stream →
      (∀ now, receive octet lastcheck (.clean allocated) chunks =
        receive octet lastcheck (.clean allocated) [(now, stream)]) ∧
      ∀ received, receive octet lastcheck (.clean allocated) chunks ≠ some (.outside received)) ↔
      ¬LengthWraps (stream.map octet) := by
  have hwhole : ∀ now, receive octet lastcheck (.clean allocated) [(now, stream)] =
      processResponse (stream.map octet) := by
    intro now
    rw [receive_eq_feed]
    exact feed_whole stream
  constructor
  · intro h hwraps
    refine (h [(0, stream.take agentHeadersSize), (0, stream.drop agentHeadersSize)] (by simp)).2 [] ?_
    have houtside := processResponse_header hwraps
    rw [← List.map_take] at houtside
    rw [receive_eq_feed, List.map_cons, feed, AgentData.clean, List.nil_append, houtside]
  · rintro h chunks hchunks
    have hfeed : receive octet lastcheck (.clean allocated) chunks = processResponse (stream.map octet) := by
      rw [receive_eq_feed]
      refine (feed_iff_settles rfl stream).mpr ?_ _ hchunks
      intro early hearly result hresult
      exact (processResponse_stands h (hearly.map octet) hresult).1
    refine ⟨fun now => hfeed.trans (hwhole now).symm, ?_⟩
    rw [hfeed]
    intro received houtside
    exact (processResponse_stands h List.prefix_rfl houtside).2 received rfl

def hugeLength : List UInt8 := headerData ++ [tcpProtocol, 255, 255, 255, 255, 0, 0, 0, 0, 0x41]

theorem hugeLength_depends_on_cut : ¬∀ chunks : List (ℤ × List UInt8), (chunks.map Prod.snd).flatten = hugeLength →
    (∀ now, receive id 0 (.clean 0) chunks = receive id 0 (.clean 0) [(now, hugeLength)]) ∧
      ∀ received, receive id 0 (.clean 0) chunks ≠ some (.outside received) := by
  intro h
  have hcut := (h [(0, hugeLength.take 13), (0, hugeLength.drop 13)] (by decide)).1 0
  have hheader : receive id 0 (.clean 0) [(0, hugeLength.take 13), (0, hugeLength.drop 13)] = some (.outside []) := by
    decide
  have hwhole : receive id 0 (.clean 0) [(0, hugeLength)] = some (.outside [0x41]) := by decide
  rw [hheader, hwhole] at hcut
  cases hcut

section

def Accepts (received : List UInt8) (result : Result) : Prop :=
  processResponse received = some result ∧ result ≠ .error noHeader ∧ result ≠ .error improperFlag

def PayloadWithin (received : List UInt8) (result : Result) : Prop :=
  agentHeadersSize + payloadLen received ≤ received.length ∧
    ∃ header payload rest, received = header ++ payload ++ rest ∧ header.length = agentHeadersSize ∧
      payload.length = payloadLen received ∧ result = processPayloadResponse payload payload.length

def Overruns (received : List UInt8) : Prop :=
  LengthWraps received ∧ received.length < agentHeadersSize + payloadLen received

variable {received : List UInt8} {result : Result}

lemma Accepts.cases (h : Accepts received result) : agentHeadersSize ≤ received.length ∧ received.take 4 = headerData ∧
    received[4]? = some tcpProtocol ∧ (payloadLen received + agentHeadersSize) % 2 ^ 32 ≤ received.length ∧
    result = processPayloadResponse (received.drop agentHeadersSize) (payloadLen received) := by
  obtain ⟨hresult, hnoheader, hflag⟩ := h
  rw [processResponse] at hresult
  split_ifs at hresult with hshort hhead hproto hlong
  · cases hresult
    exact absurd rfl hnoheader
  · cases hresult
    exact absurd rfl hflag
  · cases hresult
    exact ⟨not_lt.mp hshort, not_not.mp hhead, not_not.mp hproto, not_lt.mp hlong, rfl⟩

lemma payloadWithin_of_length (hlen : agentHeadersSize + payloadLen received ≤ received.length)
    (hresult : result = processPayloadResponse (received.drop agentHeadersSize) (payloadLen received)) :
    PayloadWithin received result := by
  have hpayload : ((received.drop agentHeadersSize).take (payloadLen received)).length = payloadLen received := by
    rw [List.length_take, List.length_drop]
    omega
  refine ⟨hlen, received.take agentHeadersSize, (received.drop agentHeadersSize).take (payloadLen received),
    (received.drop agentHeadersSize).drop (payloadLen received), ?_, ?_, hpayload, ?_⟩
  · rw [List.append_assoc, List.take_append_drop, List.take_append_drop]
  · rw [List.length_take]
    omega
  · rw [hresult, hpayload]
    conv_lhs => rw [← List.take_append_drop (payloadLen received) (received.drop agentHeadersSize)]
    exact processPayloadResponse_append hpayload.ge _

lemma processPayloadResponse_ne_error (buffer : List UInt8) (size : ℕ) {text : List UInt8} (hns : text ≠ notSupported)
    (herr : text ≠ zbxError) : processPayloadResponse buffer size ≠ .error text := by
  rw [processPayloadResponse]
  dsimp only
  split_ifs with hsize hvalue
  · simp
  · rintro ⟨⟩
    exact hvalue.elim hns herr
  · simp

lemma LengthWraps.accepts (h : LengthWraps received) :
    Accepts received (processPayloadResponse (received.drop agentHeadersSize) (payloadLen received)) := by
  obtain ⟨hlen, hhead, hflag, hbig⟩ := h
  have hlt := payloadLen_lt received
  have hwrapped : ¬received.length < (payloadLen received + agentHeadersSize) % 2 ^ 32 := by
    rw [agentHeadersSize] at *
    omega
  refine ⟨?_, processPayloadResponse_ne_error _ _ (by decide) (by decide),
    processPayloadResponse_ne_error _ _ (by decide) (by decide)⟩
  rw [processResponse, if_neg (by omega), if_neg (not_not.mpr hhead), if_neg (not_not.mpr hflag), if_neg hwrapped]

lemma payloadWithin_iff : (∀ result, Accepts received result → PayloadWithin received result) ↔ ¬Overruns received := by
  constructor
  · rintro h ⟨hwraps, hlen⟩
    have := (h _ hwraps.accepts).1
    omega
  · intro h result haccepts
    obtain ⟨hheader, hhead, hflag, hlen, hresult⟩ := haccepts.cases
    refine payloadWithin_of_length ?_ hresult
    by_contra hlong
    refine h ⟨⟨hheader, hhead, hflag, ?_⟩, by omega⟩
    by_contra hsmall
    rw [Nat.mod_eq_of_lt (by omega)] at hlen
    omega

lemma responseCb_result (octet : β → UInt8) (lastcheck now : ℤ) (data : AgentData β) (response : List β) :
    (responseCb octet lastcheck now data response).result = processResponse ((data.buffer ++ response).map octet) := by
  cases h : processResponse ((data.buffer ++ response).map octet) with
  | none => rw [responseCb_continue h]
  | some result =>
    obtain ⟨data', lastcheck', hreply, -⟩ := responseCb_finish lastcheck now h
    rw [hreply]

theorem payload_within_received_iff (octet : β → UInt8) (lastcheck now : ℤ) (data : AgentData β) (response : List β) :
    (∀ result, (responseCb octet lastcheck now data response).result = some result → result ≠ .error noHeader →
      result ≠ .error improperFlag → PayloadWithin ((data.buffer ++ response).map octet) result) ↔
      ¬Overruns ((data.buffer ++ response).map octet) := by
  rw [responseCb_result, ← payloadWithin_iff]
  constructor
  · intro h result haccepts
    exact h result haccepts.1 haccepts.2.1 haccepts.2.2
  · intro h result hresult hnoheader hflag
    exact h result ⟨hresult, hnoheader, hflag⟩

theorem header_alone_overruns : ¬∀ result, (responseCb id 0 0 (.clean 0) (hugeLength.take 13)).result = some result →
    result ≠ .error noHeader → result ≠ .error improperFlag →
      PayloadWithin ((AgentData.clean 0).buffer ++ hugeLength.take 13) result := by
  intro h
  have hresult : (responseCb id 0 0 (.clean 0) (hugeLength.take 13)).result = some (.outside []) := by decide
  have hlen := (h _ hresult (by simp) (by simp)).1
  have hannounced : payloadLen ((AgentData.clean 0).buffer ++ hugeLength.take 13) = 4294967295 := by decide
  rw [hannounced] at hlen
  exact absurd hlen (by decide)

end

end Glaber.Poller.TcpAgent
