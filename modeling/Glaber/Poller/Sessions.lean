import Glaber.Lib.Runs
import Glaber.Poller.Asn1Int

/-! Poll sessions (`poller_sessions.c`, `snmp.c`). -/

namespace Glaber.Poller.Sessions

open Glaber.Lib Glaber.Lib.Runs Glaber.Lib.Traced Glaber.Poller.Asn1 Glaber.Poller.Csnmp

abbrev Table := UInt32 → Option UInt64

def createSession (sessions : Table) (itemid : UInt64) (draws : List (Fin (2 ^ 31))) : Option (UInt32 × Table) :=
  ((draws.map fun x : Fin (2 ^ 31) => UInt32.ofNat x.val).find? fun sessId => (sessions sessId).isNone).map fun sessId =>
    (sessId, Function.update sessions sessId (some itemid))

def closeSession (sessions : Table) (sessId : UInt32) : UInt64 × Table :=
  match sessions sessId with
  | none => (0, sessions)
  | some itemid => (itemid, Function.update sessions sessId none)

def sendPacket (sessions : Table) (itemid : UInt64) (draws : List (Fin (2 ^ 31))) : Option (Int32 × Table) :=
  (createSession sessions itemid draws).map fun (sessId, sessions) => (sessId.toInt32, sessions)

def processResult (sessions : Table) (pdu : Pdu) : UInt64 × Table := closeSession sessions pdu.reqId.toUInt32

inductive Event where
  | send (itemid : UInt64) (draws : List (Fin (2 ^ 31)))
  | response (pdu : Pdu)
  | close (sessId : UInt32)

def step (sessions : Table) : Event → Option Table
  | .send itemid draws => (sendPacket sessions itemid draws).map Prod.snd
  | .response pdu => some (processResult sessions pdu).2
  | .close sessId => some (closeSession sessions sessId).2

def run (events : List Event) : Option Table := events.foldlM step fun _ => none

def reqIdStart (b : Mem) (bufLen : Int32) : Dec ℤ :=
  decSequence b bufLen.toInt (decHeader b fun _ _ _ _ => Traced.get)

section

variable {b : Mem} {bufLen : Int32} {pdu : Pdu} {i i' j : ℤ}

lemma ends_decPdu2_reqId {version : Int32} {community : List UInt8} {l : ℤ} {tp : UInt8}
    (h : Ends (decPdu2 b version community l tp) i pdu j) : ∃ k, Ends (decInt b l) (i + 1) pdu.reqId k := by
  rw [decPdu2, ends_bind] at h
  obtain ⟨reqId, k, hreq, hrest⟩ := h
  have hsame : pdu.reqId = reqId := by
    by_cases hbulk : tp = cmdGetBulk
    · simp only [if_pos hbulk, ends_bind, ends_pure] at hrest
      obtain ⟨_, _, _, _, _, _, _, _, _, _, _, _, rfl, _⟩ := hrest
      rfl
    · simp only [if_neg hbulk, ends_bind, ends_pure] at hrest
      obtain ⟨_, _, _, _, _, _, _, _, _, _, _, _, rfl, _⟩ := hrest
      rfl
  rw [hsame]
  exact ⟨k, (ends_decField.mp hreq).2⟩

lemma reqId_decoded (hpdu : Ends (snmpDecPdu b bufLen) 0 pdu j) (hstart : Ends (reqIdStart b bufLen) 0 i i') :
    ∃ l k, Ends (decInt b l) (i + 1) pdu.reqId k := by
  rw [snmpDecPdu, ends_bind] at hpdu
  obtain ⟨pdu', j', hseq, hlast⟩ := hpdu
  have hsame : pdu' = pdu := by
    rw [ends_get_bind] at hlast
    split_ifs at hlast
    · exact absurd hlast not_ends_failWith
    · exact absurd hlast not_ends_failWith
    · exact ((ends_pure _ _).mp hlast).1
  subst hsame
  rw [ends_setError, ends_decSequence_iff] at hseq
  rw [reqIdStart, ends_decSequence_iff] at hstart
  obtain ⟨_, n, k, hlen, _, hhead⟩ := hseq
  obtain ⟨_, n2, k2, hlen2, _, hhead2⟩ := hstart
  obtain ⟨rfl, rfl⟩ := hlen.det hlen2
  rw [decPdu, ends_decHeader_iff] at hhead
  rw [ends_decHeader_iff] at hhead2
  obtain ⟨_, version, m, hversion, _, _, community, o, hcomm, hpdu2⟩ := hhead
  obtain ⟨_, version2, m2, hversion2, _, _, community2, o2, hcomm2, hget⟩ := hhead2
  obtain ⟨rfl, rfl⟩ := hversion.det hversion2
  obtain ⟨rfl, rfl⟩ := hcomm.det hcomm2
  rw [ends_decSequence_iff] at hpdu2 hget
  obtain ⟨_, n3, k3, hlen3, _, hpdu2⟩ := hpdu2
  obtain ⟨_, n4, k4, hlen4, _, hget⟩ := hget
  obtain ⟨rfl, rfl⟩ := hlen3.det hlen4
  obtain ⟨rfl, rfl⟩ := (ends_get _).mp hget
  exact ⟨_, ends_decPdu2_reqId hpdu2⟩

end

section

variable {sessions sessions' : Table} {sessId : UInt32} {itemid : UInt64}

lemma createSession_lt {draws : List (Fin (2 ^ 31))} (h : createSession sessions itemid draws = some (sessId, sessions')) :
    sessId.toNat < 2 ^ 31 ∧ sessions' = Function.update sessions sessId (some itemid) := by
  obtain ⟨drawn, hfind, hres⟩ := Option.map_eq_some_iff.mp h
  obtain ⟨rfl, rfl⟩ := Prod.mk.inj hres
  obtain ⟨x, _, rfl⟩ := List.mem_map.mp (List.mem_of_find?_eq_some hfind)
  refine ⟨?_, rfl⟩
  rw [UInt32.toNat_ofNat']
  exact lt_of_le_of_lt (Nat.mod_le _ _) x.isLt

lemma closeSession_le {other : UInt32} (h : (closeSession sessions sessId).2 other = some itemid) :
    sessions other = some itemid := by
  rw [closeSession] at h
  cases hs : sessions sessId with
  | none =>
    simp only [hs] at h
    exact h
  | some item =>
    simp only [hs] at h
    by_cases hother : other = sessId
    · rw [hother, Function.update_self] at h
      cases h
    · rwa [Function.update_of_ne hother] at h

def Small (sessions : Table) : Prop := ∀ sessId itemid, sessions sessId = some itemid → sessId.toNat < 2 ^ 31

lemma run_small {events : List Event} (hrun : run events = some sessions) : Small sessions := by
  refine @foldlM_rule _ _ step (fun _ s => Small s) ?_ events [] _ _ (fun _ _ h => by cases h) hrun
  intro past s e s' hs hstep sessId itemid hopen
  cases e with
  | send item draws =>
    obtain ⟨⟨reqId, table⟩, hsend, rfl⟩ := Option.map_eq_some_iff.mp hstep
    obtain ⟨⟨drawn, table'⟩, hcreate, hres⟩ := Option.map_eq_some_iff.mp hsend
    obtain ⟨-, rfl⟩ := Prod.mk.inj hres
    obtain ⟨hlt, rfl⟩ := createSession_lt hcreate
    by_cases hid : sessId = drawn
    · rwa [hid]
    · simp only [Function.update_of_ne hid] at hopen
      exact hs sessId itemid hopen
  | response pdu =>
    obtain rfl := Option.some.inj hstep
    exact hs sessId itemid (closeSession_le hopen)
  | close id =>
    obtain rfl := Option.some.inj hstep
    exact hs sessId itemid (closeSession_le hopen)

lemma toUInt32_large {x : Int32} (h : x.toInt < 0) : 2 ^ 31 ≤ x.toUInt32.toNat := by
  have hneg : x.toBitVec.toInt < 0 := h
  rw [BitVec.toInt_neg_iff] at hneg
  have : x.toUInt32.toNat = x.toBitVec.toNat := rfl
  omega

theorem response_finds_session_iff (wide : UInt8) :
    (∀ (tp : UInt8) (val : Int32) (b : Mem) (i l : ℤ), StandsAt b i (encInt wide tp val) → 0 ≤ i →
      i + 2 + intLen val ≤ l → l < 2 ^ 31 →
      ∃ v, Ends (decInt b l) (i + 1) v (i + 2 + intLen val) ∧ (v = val ↔ SignSafe val)) ∧
    ∀ (events : List Event) (sessions : Table) (sessId : UInt32) (itemid : UInt64) (b : Mem) (bufLen : Int32)
      (pdu : Pdu) (i i' j : ℤ), run events = some sessions → sessions sessId = some itemid →
      Ends (snmpDecPdu b bufLen) 0 pdu j → Ends (reqIdStart b bufLen) 0 i i' →
      StandsAt b i (encInt wide Asn1.int sessId.toInt32) →
      (pdu.reqId = sessId.toInt32 ↔ SignSafe sessId.toInt32) ∧
      (processResult sessions pdu = (itemid, Function.update sessions sessId none) ↔ SignSafe sessId.toInt32) ∧
      (¬ SignSafe sessId.toInt32 → processResult sessions pdu = (0, sessions)) := by
  refine ⟨fun tp val b i l hb hi hl hmax => ?_, ?_⟩
  · obtain ⟨v, hv⟩ := decInt_ends hb hi hl hmax
    rw [decInt_value hb hv] at hv
    exact ⟨_, hv, (ofInt_readBack hb).1⟩
  · intro events sessions sessId itemid b bufLen pdu i i' j hrun hopen hpdu hstart hb
    obtain ⟨l, k, hreq⟩ := reqId_decoded hpdu hstart
    have hvalue := decInt_value hb hreq
    obtain ⟨hiff, hneg⟩ := ofInt_readBack hb
    rw [← hvalue] at hiff hneg
    -- what is read in the place of an id that is not safe is no id of any session
    have hmiss : ¬ SignSafe sessId.toInt32 → processResult sessions pdu = (0, sessions) := by
      intro hns
      have hlarge := toUInt32_large (hneg hns)
      rw [processResult, closeSession]
      cases hs : sessions pdu.reqId.toUInt32 with
      | none => rfl
      | some item =>
        have := run_small hrun _ _ hs
        omega
    refine ⟨hiff, ⟨fun hfound => ?_, fun hsafe => ?_⟩, hmiss⟩
    · by_contra hns
      rw [hmiss hns] at hfound
      have hcell := congrFun (Prod.mk.inj hfound).2 sessId
      rw [hopen, Function.update_self] at hcell
      cases hcell
    · rw [processResult, hiff.mpr hsafe, UInt32.toUInt32_toInt32, closeSession, hopen]

def answer (id : UInt8) : Mem := fun k =>
  [0x30, 0x29, 0x02, 0x01, 0x01, 0x04, 0x06, 0x70, 0x75, 0x62, 0x6c, 0x69, 0x63, 0xa2, 0x1c, 0x02, 0x01, id, 0x02,
    0x01, 0x00, 0x02, 0x01, 0x00, 0x30, 0x11, 0x30, 0x0f, 0x06, 0x08, 0x2b, 0x06, 0x01, 0x02, 0x01, 0x01, 0x03,
    0x00, 0x43, 0x03, 0x01, 0x02, 0x03].getD k.toNat 0

def answered (reqId : Int32) : Pdu :=
  ⟨1, [0x70, 0x75, 0x62, 0x6c, 0x69, 0x63], 0xa2, reqId, 0, 0, [⟨[1, 3, 6, 1, 2, 1, 1, 3, 0], 0x43, .long 0x010203⟩]⟩

def pending (id : UInt32) (itemid : UInt64) : Table := Function.update (fun _ => none) id (some itemid)

theorem answer_to_five_found :
    (∃ v, Ends (decInt (answer 5) 43) 16 v 18 ∧ (v = 5 ↔ SignSafe 5)) ∧
    processResult (pending 5 77) (answered 5) = (77, Function.update (pending 5 77) 5 none) := by
  have hb : StandsAt (answer 5) 15 (encInt 0 Asn1.int 5) := by decide +kernel
  refine ⟨(response_finds_session_iff 0).1 Asn1.int 5 (answer 5) 15 43 hb (by decide) (by decide) (by decide), ?_⟩
  exact ((response_finds_session_iff 0).2 [.send 77 [5]] (pending 5 77) 5 77 (answer 5) 43 (answered 5) 15 15 43
    rfl rfl (by decide +kernel) (by decide +kernel) hb).2.1.mpr (by decide)

theorem answer_to_two_hundred_lost :
    run [.send 77 [200]] = some (pending 200 77) ∧ StandsAt (answer 200) 15 (encInt 0 Asn1.int 200) ∧
    Ends (reqIdStart (answer 200) 43) 0 15 15 ∧ Ends (snmpDecPdu (answer 200) 43) 0 (answered (-56)) 43 ∧
    processResult (pending 200 77) (answered (-56)) = (0, pending 200 77) :=
  ⟨rfl, by decide +kernel, by decide +kernel, by decide +kernel, rfl⟩

end

end Glaber.Poller.Sessions
