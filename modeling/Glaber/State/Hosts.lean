import Glaber.Algo.ElemsHash
import Glaber.Lib.Runs

/-! Host states (`glb_state_hosts.c`). -/

namespace Glaber.State.Hosts

open Glaber.Algo Glaber.Lib.Assoc Glaber.Lib.Runs

abbrev CString := List UInt8

inductive IfaceKey where
  | id (ifaceid : ℕ)
  | name (ifname : CString)
deriving DecidableEq

def interfaceAvailableUnknown : UInt8 := 0
def interfaceAvailableTrue : UInt8 := 1
def interfaceAvailableFalse : UInt8 := 2

structure HostIface where
  key : IfaceKey
  error : Option CString
  lastchange : Int32
  lastupdate : Int32
  firstFail : Int32
  disabledTill : Int32
  availState : UInt8
  failCount : UInt8
deriving DecidableEq

def hostAvailStateUnknown : UInt8 := 0
def hostAvailStateAlive : UInt8 := 1
def hostAvailStateDown : UInt8 := 2

lemma alive_ne_unknown : hostAvailStateAlive ≠ hostAvailStateUnknown := by decide
lemma down_ne_unknown : hostAvailStateDown ≠ hostAvailStateUnknown := by decide
lemma alive_ne_down : hostAvailStateAlive ≠ hostAvailStateDown := by decide

structure HostState where
  lastHeartbeat : Int32
  heartbeatFrequency : Int32
  lastAvailStateChange : Int32
  hostAvailState : UInt8
  interfaces : List HostIface
deriving DecidableEq

abbrev HostTable := ElemsHash HostState

def hostCreateCb (_ : Id) : Elem HostState := ⟨0, ⟨0, 0, 0, hostAvailStateUnknown, []⟩⟩

def hostsInit (freeCb : Id → Elem HostState → ℤ) : HostTable := ElemsHash.init hostCreateCb freeCb

def processHeartbeatCb (now changed freq : Int32) (host : HostState) : HostState :=
  let host := { host with lastHeartbeat := now, heartbeatFrequency := freq }
  if 0 ≠ host.heartbeatFrequency ∧ hostAvailStateDown = host.hostAvailState then
    { host with lastAvailStateChange := changed, hostAvailState := hostAvailStateAlive }
  else host

def afterHostUpdate : CString := "Interface avail state was reset after host update".toUTF8.toList

def resetIfaceCb (iface : HostIface) : HostIface :=
  { iface with
    disabledTill := 0
    availState := interfaceAvailableUnknown
    error := some afterHostUpdate
    failCount := 0
    lastupdate := 0 }

def resetHostCb (now : Int32) (host : HostState) : HostState where
  lastHeartbeat := 0
  heartbeatFrequency := 0
  hostAvailState := hostAvailStateUnknown
  lastAvailStateChange := now
  interfaces := host.interfaces.map resetIfaceCb

def stateReset : CString := "Interface state has been reset".toUTF8.toList

def resetInterfaceCb (now : Int32) (iface : HostIface) : HostIface :=
  { iface with
    availState := interfaceAvailableUnknown
    error := some stateReset
    lastupdate := now
    lastchange := now }

def hostResetCb (now : Int32) (host : HostState) : HostState :=
  { host with
    heartbeatFrequency := 0
    lastHeartbeat := 0
    interfaces := host.interfaces.map (resetInterfaceCb now) }

def updateHostAvailStateCb (now : Int32) (host : HostState) : HostState :=
  if 0 = host.heartbeatFrequency then { host with hostAvailState := hostAvailStateUnknown }
  else if host.heartbeatFrequency + host.lastHeartbeat < now ∧ hostAvailStateDown ≠ host.hostAvailState then
    { host with hostAvailState := hostAvailStateDown, lastAvailStateChange := now }
  else host

def onHost (f : HostState → HostState) : ProcessCb HostState Unit :=
  fun _ elem params => (succeed, { elem with data := f elem.data }, params)

def processHost (hosts : HostTable) (hostid : Id) (f : HostState → HostState) (flags : BitVec 64) : HostTable :=
  (hosts.process hostid (some (onHost f)) () flags).2.1

inductive Event where
  | heartbeat (now changed : Int32) (hostid : Id) (freq : Int32)
  | resetHeartbeat (now changed : Int32) (hostid : Id)
  | hostsReset (now : Int32) (hostid : Id)
  | hostReset (now : Int32) (hostid : Id)
  | evaluate (now : Int32)

def hostProcessHeartbeat (hosts : HostTable) (now changed : Int32) (hostid : Id) (freq : Int32) : HostTable :=
  processHost hosts hostid (processHeartbeatCb now changed freq) 0

def step (hosts : HostTable) : Event → HostTable
  | .heartbeat now changed hostid freq => hostProcessHeartbeat hosts now changed hostid freq
  | .resetHeartbeat now changed hostid => hostProcessHeartbeat hosts now changed hostid 0
  | .hostsReset now hostid => processHost hosts hostid (resetHostCb now) 0
  | .hostReset now hostid => processHost hosts hostid (hostResetCb now) elemFlagDoNotCreate
  | .evaluate now => (hosts.iterate (onHost (updateHostAvailStateCb now)) ()).2.1

def stateOf (hosts : HostTable) (hostid : Id) : Option HostState := (hosts.lookup hostid).map Elem.data

def Expired (host : HostState) (now : Int32) : Prop :=
  host.lastHeartbeat.toInt + host.heartbeatFrequency.toInt < now.toInt

instance (host : HostState) (now : Int32) : Decidable (Expired host now) := inferInstanceAs (Decidable (_ < _))

def HeartbeatMeaning (t : Transition HostTable Event) : Prop :=
  match t.event with
  | .heartbeat _ _ hostid freq =>
    0 < freq → ∃ host, stateOf t.target hostid = some host ∧ host.hostAvailState = hostAvailStateAlive
  | .evaluate now => ∀ hostid host, stateOf t.target hostid = some host →
    (0 < host.heartbeatFrequency →
      (host.hostAvailState = hostAvailStateDown ↔ Expired host now) ∧
      (¬ Expired host now → host.hostAvailState = hostAvailStateAlive)) ∧
    (host.heartbeatFrequency = 0 → host.hostAvailState = hostAvailStateUnknown)
  | _ => True

def HeartbeatReady (t : Transition HostTable Event) : Prop :=
  match t.event with
  | .heartbeat _ _ hostid freq =>
    0 < freq → ∃ host, stateOf t.source hostid = some host ∧ host.hostAvailState ≠ hostAvailStateUnknown
  | .evaluate now => ∀ hostid host, stateOf t.source hostid = some host → 0 < host.heartbeatFrequency →
    ¬ Expired host now →
      ¬ host.heartbeatFrequency + host.lastHeartbeat < now ∧ host.hostAvailState ≠ hostAvailStateDown
  | _ => True

structure Settled (host : HostState) : Prop where
  range : host.hostAvailState = hostAvailStateUnknown ∨ host.hostAvailState = hostAvailStateAlive ∨
    host.hostAvailState = hostAvailStateDown
  known : 0 < host.heartbeatFrequency → host.hostAvailState ≠ hostAvailStateUnknown

structure SettledTable (hosts : HostTable) : Prop where
  create : hosts.elemCreateFunc = hostCreateCb
  settled : ∀ hostid host, stateOf hosts hostid = some host → Settled host

lemma stateOf_processHost (hosts : HostTable) (hostid : Id) (f : HostState → HostState) (flags : BitVec 64) (j : Id) :
    stateOf (processHost hosts hostid f flags) j =
      if j = hostid then (hosts.target hostid flags).map (fun e => f e.data) else stateOf hosts j := by
  cases ht : hosts.target hostid flags with
  | none =>
    have hl : hosts.lookup hostid = none := by
      rw [ElemsHash.target] at ht
      split at ht
      · cases ht
      · assumption
    rw [processHost, ElemsHash.process_of_target_none ht]
    split_ifs with hj
    · simp [stateOf, hj, hl]
    · rfl
  | some elem =>
    obtain ⟨-, -, hself, hne, -⟩ := ElemsHash.process_of_target ht (onHost f) ()
    split_ifs with hj
    · simp [stateOf, processHost, hj, hself, onHost]
    · simp [stateOf, processHost, hne j hj]

lemma create_processHost (hosts : HostTable) (hostid : Id) (f : HostState → HostState) (flags : BitVec 64) :
    (processHost hosts hostid f flags).elemCreateFunc = hosts.elemCreateFunc := by
  rw [processHost]
  cases ht : hosts.target hostid flags with
  | none => rw [ElemsHash.process_of_target_none ht]
  | some elem => exact (ElemsHash.process_of_target ht (onHost f) ()).2.2.2.2

lemma iterateElem_onHost (f : HostState → HostState) (s : HostTable × Unit) (k : Id) :
    stateOf (ElemsHash.iterateElem (onHost f) s k).1 k = (stateOf s.1 k).map f ∧
    (∀ j, j ≠ k → stateOf (ElemsHash.iterateElem (onHost f) s k).1 j = stateOf s.1 j) ∧
    (ElemsHash.iterateElem (onHost f) s k).1.elemCreateFunc = s.1.elemCreateFunc := by
  cases hl : s.1.lookup k with
  | none => simp [ElemsHash.iterateElem, stateOf, hl]
  | some e =>
    have hm : k ∈ s.1.elems := lookup_eq_some_mem hl
    refine ⟨?_, fun j hj => ?_, ?_⟩
    · simp [ElemsHash.iterateElem, stateOf, hl, onHost, hm]
    · simp [ElemsHash.iterateElem, stateOf, hl, onHost, hj]
    · simp [ElemsHash.iterateElem, hl, onHost]

lemma stateOf_iterate (hosts : HostTable) (f : HostState → HostState) (j : Id) :
    stateOf (hosts.iterate (onHost f) ()).2.1 j = (stateOf hosts j).map f := by
  have h := foldl_pointwise (fun s => stateOf s.1) (fun s k => (iterateElem_onHost f s k).1)
    (fun s k => (iterateElem_onHost f s k).2.1) hosts.elems.keys_nodup (hosts, ()) j
  rw [ElemsHash.iterate, h]
  split_ifs with hm
  · rfl
  · have hl : hosts.lookup j = none := AList.lookup_eq_none.mpr (fun hk => hm (AList.mem_keys.mp hk))
    simp [stateOf, hl]

lemma create_iterate (hosts : HostTable) (f : HostState → HostState) :
    (hosts.iterate (onHost f) ()).2.1.elemCreateFunc = hosts.elemCreateFunc := by
  rw [ElemsHash.iterate]
  refine List.foldlRecOn _ _ (motive := fun s : HostTable × Unit => s.1.elemCreateFunc = hosts.elemCreateFunc) rfl ?_
  intro s hs k _
  rw [(iterateElem_onHost f s k).2.2, hs]

lemma settled_fresh (hostid : Id) : Settled (hostCreateCb hostid).data :=
  ⟨.inl rfl, by simp [hostCreateCb]⟩

lemma SettledTable.target {hosts : HostTable} (hs : SettledTable hosts) {hostid : Id} {flags : BitVec 64}
    {elem : Elem HostState} (ht : hosts.target hostid flags = some elem) : Settled elem.data := by
  rw [ElemsHash.target] at ht
  split at ht
  · cases ht
    exact hs.settled hostid _ (by simp [stateOf, *])
  · split at ht
    · cases ht
    · cases ht
      rw [hs.create]
      exact settled_fresh hostid

lemma target_of_stateOf {hosts : HostTable} {hostid : Id} {host : HostState} {flags : BitVec 64}
    {elem : Elem HostState} (hl : stateOf hosts hostid = some host) (ht : hosts.target hostid flags = some elem) :
    elem.data = host := by
  obtain ⟨e, he, rfl⟩ := Option.map_eq_some_iff.mp hl
  simp only [ElemsHash.target, he, Option.some.injEq] at ht
  rw [ht]

lemma SettledTable.processHost {hosts : HostTable} (hs : SettledTable hosts) {hostid : Id} {flags : BitVec 64}
    {f : HostState → HostState}
    (hf : ∀ elem, hosts.target hostid flags = some elem → Settled elem.data → Settled (f elem.data)) :
    SettledTable (processHost hosts hostid f flags) := by
  refine ⟨(create_processHost ..).trans hs.create, fun j host hj => ?_⟩
  rw [stateOf_processHost] at hj
  split_ifs at hj
  · obtain ⟨elem, ht, rfl⟩ := Option.map_eq_some_iff.mp hj
    exact hf elem ht (hs.target ht)
  · exact hs.settled j host hj

lemma settled_processHeartbeatCb {host : HostState} (now changed : Int32) {freq : Int32} (hs : Settled host)
    (hf : 0 < freq → host.hostAvailState ≠ hostAvailStateUnknown) :
    Settled (processHeartbeatCb now changed freq host) := by
  rw [processHeartbeatCb]
  split_ifs with hd
  · exact ⟨.inr (.inl rfl), fun _ => alive_ne_unknown⟩
  · exact ⟨hs.range, hf⟩

lemma settled_resetHostCb (now : Int32) (host : HostState) : Settled (resetHostCb now host) :=
  ⟨.inl rfl, by simp [resetHostCb]⟩

lemma settled_hostResetCb (now : Int32) {host : HostState} (hs : Settled host) : Settled (hostResetCb now host) :=
  ⟨hs.range, by simp [hostResetCb]⟩

lemma settled_updateHostAvailStateCb (now : Int32) {host : HostState} (hs : Settled host) :
    Settled (updateHostAvailStateCb now host) := by
  rw [updateHostAvailStateCb]
  split_ifs with hz he
  · exact ⟨.inl rfl, by simp [← hz]⟩
  · exact ⟨.inr (.inr rfl), fun _ => down_ne_unknown⟩
  · exact hs

lemma settledTable_step {hosts : HostTable} (hs : SettledTable hosts) (e : Event)
    (hr : HeartbeatReady ⟨[], hosts, e, step hosts e⟩) : SettledTable (step hosts e) := by
  cases e with
  | heartbeat now changed hostid freq =>
    refine hs.processHost fun elem ht hse => settled_processHeartbeatCb now changed hse fun hf => ?_
    obtain ⟨host, hl, hk⟩ := hr hf
    rwa [← target_of_stateOf hl ht] at hk
  | resetHeartbeat now changed hostid =>
    exact hs.processHost fun elem _ hse => settled_processHeartbeatCb now changed hse (by simp)
  | hostsReset now hostid => exact hs.processHost fun elem _ _ => settled_resetHostCb now elem.data
  | hostReset now hostid => exact hs.processHost fun elem _ hse => settled_hostResetCb now hse
  | evaluate now =>
    refine ⟨(create_iterate ..).trans hs.create, fun j host hj => ?_⟩
    rw [step, stateOf_iterate] at hj
    obtain ⟨old, ho, rfl⟩ := Option.map_eq_some_iff.mp hj
    exact settled_updateHostAvailStateCb now (hs.settled j old ho)

lemma avail_processHeartbeatCb {host : HostState} (now changed : Int32) {freq : Int32} (hf : 0 < freq)
    (hs : Settled host) : (processHeartbeatCb now changed freq host).hostAvailState = hostAvailStateAlive ↔
      host.hostAvailState ≠ hostAvailStateUnknown := by
  have hz : (0 : Int32) ≠ freq := by
    rintro rfl
    exact absurd hf (by decide)
  rcases hs.range with h | h | h
  all_goals
    simp [processHeartbeatCb, h, hz, hostAvailStateUnknown, hostAvailStateAlive, hostAvailStateDown]

lemma freq_ne_zero {freq : Int32} (hf : 0 < freq) : (0 : Int32) ≠ freq := by
  rintro rfl
  exact absurd hf (by decide)

lemma expired_sum {host : HostState} {now : Int32} (hf : 0 < host.heartbeatFrequency) (he : Expired host now) :
    host.heartbeatFrequency + host.lastHeartbeat < now := by
  rw [Int32.lt_iff_toInt_lt] at hf ⊢
  rw [Int32.toInt_add]
  have h1 := host.lastHeartbeat.le_toInt
  have h2 := now.toInt_lt
  rw [Expired] at he
  rw [Int32.toInt_zero] at hf
  rw [Int.bmod_eq_of_le (by omega) (by omega)]
  omega

lemma avail_updateHostAvailStateCb {host : HostState} {now : Int32} (hf : 0 < host.heartbeatFrequency)
    (hs : Settled host) :
    (((updateHostAvailStateCb now host).hostAvailState = hostAvailStateDown ↔ Expired host now) ∧
      (¬ Expired host now → (updateHostAvailStateCb now host).hostAvailState = hostAvailStateAlive)) ↔
    (¬ Expired host now →
      ¬ host.heartbeatFrequency + host.lastHeartbeat < now ∧ host.hostAvailState ≠ hostAvailStateDown) := by
  have hk := hs.known hf
  rw [updateHostAvailStateCb, if_neg (freq_ne_zero hf)]
  by_cases he : Expired host now
  · have hd := expired_sum hf he
    by_cases ha : hostAvailStateDown = host.hostAvailState
    · simp [he, ← ha]
    · simp [he, hd, ha]
  · by_cases hw : host.heartbeatFrequency + host.lastHeartbeat < now
    · by_cases ha : hostAvailStateDown = host.hostAvailState
      · simp [he, ← ha]
      · simp [he, hw, ha]
    · have hiff : host.hostAvailState = hostAvailStateAlive ↔ host.hostAvailState ≠ hostAvailStateDown := by
        rcases hs.range with h | h | h
        · exact absurd h hk
        · simp [h, alive_ne_down]
        · simp [h, alive_ne_down.symm]
      simp [he, hw, hiff]

lemma evaluate_fields (host : HostState) (now : Int32) :
    (updateHostAvailStateCb now host).heartbeatFrequency = host.heartbeatFrequency ∧
    (updateHostAvailStateCb now host).lastHeartbeat = host.lastHeartbeat := by
  rw [updateHostAvailStateCb]
  split_ifs <;> exact ⟨rfl, rfl⟩

lemma heartbeatMeaning_iff {hosts : HostTable} (hs : SettledTable hosts) (past : List Event) (e : Event) :
    HeartbeatMeaning ⟨past, hosts, e, step hosts e⟩ ↔ HeartbeatReady ⟨past, hosts, e, step hosts e⟩ := by
  cases e with
  | heartbeat now changed hostid freq =>
    refine forall_congr' fun hf => ?_
    simp only [step, hostProcessHeartbeat, stateOf_processHost, if_true]
    cases hl : hosts.lookup hostid with
    | none =>
      have ht : hosts.target hostid 0 = some (hostCreateCb hostid) := by
        simp [ElemsHash.target, hl, hs.create, elemFlagDoNotCreate]
      have hu := avail_processHeartbeatCb now changed hf (settled_fresh hostid)
      simp only [ht, stateOf, hl, Option.map_some, Option.map_none, Option.some.injEq, exists_eq_left', hu,
        reduceCtorEq, false_and, exists_false, iff_false]
      exact fun h => h rfl
    | some elem =>
      have ht : hosts.target hostid 0 = some elem := by simp [ElemsHash.target, hl]
      have hu := avail_processHeartbeatCb now changed hf (hs.target ht)
      simp only [ht, stateOf, hl, Option.map_some, Option.some.injEq, exists_eq_left', hu]
  | resetHeartbeat now changed hostid => exact Iff.rfl
  | hostsReset now hostid => exact Iff.rfl
  | hostReset now hostid => exact Iff.rfl
  | evaluate now =>
    simp only [HeartbeatMeaning, HeartbeatReady, step, stateOf_iterate, Option.map_eq_some_iff]
    refine forall_congr' fun hostid => ?_
    constructor
    · intro h host hl hf
      obtain ⟨h1, h2⟩ := evaluate_fields host now
      have hm := (h _ ⟨host, hl, rfl⟩).1
      simp only [Expired, h1, h2] at hm
      exact (avail_updateHostAvailStateCb hf (hs.settled hostid host hl)).mp (hm hf)
    · rintro h _ ⟨host, hl, rfl⟩
      obtain ⟨h1, h2⟩ := evaluate_fields host now
      simp only [Expired, h1, h2]
      refine ⟨fun hf => ?_, fun hz => ?_⟩
      · exact (avail_updateHostAvailStateCb hf (hs.settled hostid host hl)).mpr (h host hl hf)
      · rw [updateHostAvailStateCb, if_pos hz.symm]

theorem heartbeats_mean_alive_iff {hosts : HostTable} (hs : SettledTable hosts) (es : List Event) :
    (∀ t ∈ transitions step hosts es, HeartbeatMeaning t) ↔ ∀ t ∈ transitions step hosts es, HeartbeatReady t := by
  constructor
  · refine transitions_rule (fun _ s => SettledTable s) hs fun past s e hi hm => ?_
    have hr := (heartbeatMeaning_iff hi past e).mp hm
    exact ⟨settledTable_step hi e hr, hr⟩
  · refine transitions_rule (fun _ s => SettledTable s) hs fun past s e hi hr => ?_
    exact ⟨settledTable_step hi e hr, (heartbeatMeaning_iff hi past e).mpr hr⟩

def singleHost (host : HostState) : HostTable :=
  ⟨AList.singleton 7 ⟨0, host⟩, hostCreateCb, fun _ _ => succeed⟩

lemma stateOf_singleHost {host host' : HostState} {j : Id} (h : stateOf (singleHost host) j = some host') :
    host' = host := by
  obtain ⟨e, he, rfl⟩ := Option.map_eq_some_iff.mp h
  have hm : (⟨j, e⟩ : Sigma fun _ : Id => Elem HostState) ∈ [⟨7, ⟨0, host⟩⟩] := AList.mem_lookup_iff.mp he
  cases List.mem_singleton.mp hm
  rfl

theorem restored_host_recovers : SettledTable (singleHost ⟨100, 10, 100, hostAvailStateAlive, []⟩) ∧
    ∀ t ∈ transitions step (singleHost ⟨100, 10, 100, hostAvailStateAlive, []⟩)
      [.evaluate 200, .heartbeat 201 201 7 10, .evaluate 205], HeartbeatMeaning t := by
  have hs : SettledTable (singleHost ⟨100, 10, 100, hostAvailStateAlive, []⟩) := by
    refine ⟨rfl, fun hostid host hl => ?_⟩
    rw [stateOf_singleHost hl]
    exact ⟨.inr (.inl rfl), fun _ => alive_ne_unknown⟩
  have h1 : step (singleHost ⟨100, 10, 100, hostAvailStateAlive, []⟩) (.evaluate 200) =
    singleHost ⟨100, 10, 200, hostAvailStateDown, []⟩ := rfl
  have h2 : step (singleHost ⟨100, 10, 200, hostAvailStateDown, []⟩) (.heartbeat 201 201 7 10) =
    singleHost ⟨201, 10, 201, hostAvailStateAlive, []⟩ := rfl
  refine ⟨hs, (heartbeats_mean_alive_iff hs _).mpr ?_⟩
  simp only [transitions, transitionsFrom, h1, h2, List.forall_mem_cons]
  refine ⟨?_, ?_, ?_, by simp⟩
  · intro hostid host hl _ he
    rw [stateOf_singleHost hl] at he
    exact absurd he (by decide)
  · exact fun _ => ⟨_, rfl, down_ne_unknown⟩
  · intro hostid host hl _ _
    rw [stateOf_singleHost hl]
    decide

theorem first_heartbeat_leaves_unknown :
    ¬ ∀ t ∈ transitions step (hostsInit fun _ _ => succeed) [.heartbeat 1000 1000 7 5], HeartbeatMeaning t := by
  intro h
  obtain ⟨host, hl, ha⟩ := h _ (List.mem_singleton.mpr rfl) (by decide)
  have hn : stateOf (step (hostsInit fun _ _ => succeed) (.heartbeat 1000 1000 7 5)) 7 =
    some ⟨1000, 5, 0, hostAvailStateUnknown, []⟩ := by decide
  cases hl.symm.trans hn
  exact absurd ha (by decide)

end Glaber.State.Hosts
