import Glaber.State.HostIfaces

namespace Glaber.State.Hosts

open Glaber.Algo Glaber.Lib.Runs

/-- What the lookups of `parse_interface_record` leave: `none` where the lookup fails, 0 for an absent time. -/
structure InterfaceRecord where
  interfaceName : Option CString
  interfaceid : Option ℕ
  hostid : Option Id
  available : Option Int32
  lastupdate : Int32
  lastchange : Int32
  error : Option CString

inductive IfaceUpdate where
  | registerTimeout (clock : Readings) (hostid : Id) (ifaceid : ℕ) (ifname error : Option CString)
  | registerResponseArrive (clock : Readings) (hostid : Id) (ifaceid : ℕ) (ifname : Option CString)
  | registerPassiveArrive (clock : Readings) (hostid : Id) (ifname : Option CString)
  | create (clock : Readings) (hostid : Id) (ifaceid : ℕ) (ifname : Option CString)
  | record (now : Int32) (record : InterfaceRecord)

def maxIfaceTimeoutCount : UInt8 := 3

section

variable (cfg : Config) (getHostidByInterfaceid : ℕ → Option Id)

def recordIface (r : InterfaceRecord) : Option (Id × HostIface) := do
  let name ← r.interfaceName
  let named ← r.hostid
  let (hostid, key) ← match r.interfaceid with
    | some interfaceid => (getHostidByInterfaceid interfaceid).map (·, IfaceKey.id interfaceid)
    | none => some (named, IfaceKey.name name)
  let available ← r.available
  return (hostid, ⟨key, r.error, r.lastchange, r.lastupdate, 0, 0, available.toInt8.toUInt8, maxIfaceTimeoutCount + 1⟩)

def parseInterfaceRecord (now : Int32) (hosts : HostTable) (r : InterfaceRecord) : HostTable :=
  match recordIface getHostidByInterfaceid r with
  | none => hosts
  | some (hostid, iface) => processHost hosts hostid (setInterfaceCb cfg now iface) 0

def updateStep (hosts : HostTable) : IfaceUpdate → HostTable
  | .registerTimeout clock hostid ifaceid ifname error =>
    setIfaceState cfg clock hosts hostid ifaceid ifname interfaceAvailableFalse error
  | .registerResponseArrive clock hostid ifaceid ifname =>
    setIfaceState cfg clock hosts hostid ifaceid ifname interfaceAvailableTrue none
  | .registerPassiveArrive clock hostid ifname =>
    setIfaceState cfg clock hosts hostid 0 ifname interfaceAvailableTrue none
  | .create clock hostid ifaceid ifname =>
    setIfaceState cfg clock hosts hostid ifaceid ifname interfaceAvailableUnknown none
  | .record now r => parseInterfaceRecord cfg getHostidByInterfaceid now hosts r

def stateIface (clock : Readings) (hostid : Id) (ifaceid : ℕ) (ifname : Option CString) (state : UInt8)
    (error : Option CString) : Option (Id × HostIface) :=
  (ifaceKey ifaceid ifname).map fun key => (hostid, ⟨key, error, 0, clock.update, 0, 0, state, 0⟩)

def IfaceUpdate.setIface : IfaceUpdate → Option (Id × HostIface)
  | .registerTimeout clock hostid ifaceid ifname error =>
    stateIface clock hostid ifaceid ifname interfaceAvailableFalse error
  | .registerResponseArrive clock hostid ifaceid ifname =>
    stateIface clock hostid ifaceid ifname interfaceAvailableTrue none
  | .registerPassiveArrive clock hostid ifname => stateIface clock hostid 0 ifname interfaceAvailableTrue none
  | .create clock hostid ifaceid ifname => stateIface clock hostid ifaceid ifname interfaceAvailableUnknown none
  | .record _ r => recordIface getHostidByInterfaceid r

def IfaceUpdate.now : IfaceUpdate → Int32
  | .registerTimeout clock .. | .registerResponseArrive clock .. | .registerPassiveArrive clock .. |
    .create clock .. => clock.now
  | .record now _ => now

def IfaceUpdate.about (e : IfaceUpdate) : Option (Id × IfaceKey) :=
  (e.setIface getHostidByInterfaceid).map fun set => (set.1, set.2.key)

def IfaceUpdate.error (e : IfaceUpdate) : Option CString :=
  (e.setIface getHostidByInterfaceid).bind fun set => set.2.error

def lastError (ref : Id × IfaceKey) (past : List IfaceUpdate) : Option (Option CString) :=
  past.foldl (fun last e =>
    if e.about getHostidByInterfaceid = some ref then some (e.error getHostidByInterfaceid) else last) none

def errorOf (hosts : HostTable) (ref : Id × IfaceKey) : Option (Option CString) :=
  (ifaceOf hosts ref).map HostIface.error

def ErrorTracked (t : Transition HostTable IfaceUpdate) : Prop :=
  ∀ ref, errorOf t.target ref = lastError getHostidByInterfaceid ref (t.past ++ [t.event])

def Replaceable (t : Transition HostTable IfaceUpdate) : Prop :=
  ∀ ref stored error, t.event.about getHostidByInterfaceid = some ref → errorOf t.source ref = some (some stored) →
    t.event.error getHostidByInterfaceid = some error → stored = error

lemma setIfaceState_eq (clock : Readings) (hosts : HostTable) (hostid : Id) (ifaceid : ℕ) (ifname : Option CString)
    (state : UInt8) (error : Option CString) :
    setIfaceState cfg clock hosts hostid ifaceid ifname state error =
      match stateIface clock hostid ifaceid ifname state error with
      | none => hosts
      | some (hostid, set) => processHost hosts hostid (setInterfaceCb cfg clock.now set) 0 := by
  rw [setIfaceState, stateIface]
  cases ifaceKey ifaceid ifname <;> rfl

lemma updateStep_eq (hosts : HostTable) (e : IfaceUpdate) :
    updateStep cfg getHostidByInterfaceid hosts e = match e.setIface getHostidByInterfaceid with
      | none => hosts
      | some (hostid, set) => processHost hosts hostid (setInterfaceCb cfg e.now set) 0 := by
  cases e with
  | registerTimeout | registerResponseArrive | registerPassiveArrive | create =>
    apply setIfaceState_eq
  | record => rfl

lemma create_updateStep (hosts : HostTable) (e : IfaceUpdate) :
    (updateStep cfg getHostidByInterfaceid hosts e).elemCreateFunc = hosts.elemCreateFunc := by
  rw [updateStep_eq]
  cases e.setIface getHostidByInterfaceid with
  | none => rfl
  | some set => exact create_processHost ..

lemma ifaceOf_updateStep {hosts : HostTable} (hc : hosts.elemCreateFunc = hostCreateCb) (e : IfaceUpdate)
    (ref : Id × IfaceKey) :
    (e.about getHostidByInterfaceid ≠ some ref ∧
      ifaceOf (updateStep cfg getHostidByInterfaceid hosts e) ref = ifaceOf hosts ref) ∨
    ∃ set : HostIface, e.setIface getHostidByInterfaceid = some (ref.1, set) ∧ set.key = ref.2 ∧
      ifaceOf (updateStep cfg getHostidByInterfaceid hosts e) ref =
        some (updateIface cfg e.now set (addressed e.now set (ifaceOf hosts ref))) := by
  rw [updateStep_eq, IfaceUpdate.about]
  cases e.setIface getHostidByInterfaceid with
  | none => exact .inl ⟨by simp, rfl⟩
  | some set =>
    obtain ⟨hostid, set⟩ := set
    by_cases hr : (hostid, set.key) = ref
    · subst hr
      refine .inr ⟨set, rfl, rfl, ?_⟩
      rw [ifaceOf_setInterfaceCb cfg hc, if_pos rfl]
    · refine .inl ⟨by simpa using hr, ?_⟩
      rw [ifaceOf_setInterfaceCb cfg hc, if_neg hr]

lemma error_updateIface (now : Int32) (set iface : HostIface) :
    (updateIface cfg now set iface).error = iface.error := by
  simp only [updateIface]
  split_ifs <;> rfl

lemma lastError_append (ref : Id × IfaceKey) (past : List IfaceUpdate) (e : IfaceUpdate) :
    lastError getHostidByInterfaceid ref (past ++ [e]) =
      if e.about getHostidByInterfaceid = some ref then some (e.error getHostidByInterfaceid)
      else lastError getHostidByInterfaceid ref past := by
  rw [lastError, List.foldl_append]
  rfl

end

lemma error_addressed_iff (now : Int32) (set : HostIface) (found : Option HostIface) :
    (addressed now set found).error = set.error ↔
      ∀ stored error, found.map HostIface.error = some (some stored) → set.error = some error → stored = error := by
  cases found with
  | none => simp [addressed, newIface]
  | some iface =>
    rw [addressed, replaceError]
    cases hi : iface.error with
    | none => simp [hi]
    | some stored =>
      cases hs : set.error with
      | none => simp
      | some error => by_cases he : stored = error <;> simp [hi, he]

structure Tracked (getHostidByInterfaceid : ℕ → Option Id) (past : List IfaceUpdate) (hosts : HostTable) : Prop where
  create : hosts.elemCreateFunc = hostCreateCb
  tracked : ∀ ref, errorOf hosts ref = lastError getHostidByInterfaceid ref past

section

variable (cfg : Config) (getHostidByInterfaceid : ℕ → Option Id)

lemma tracked_init (freeCb : Id → Elem HostState → ℤ) : Tracked getHostidByInterfaceid [] (hostsInit freeCb) :=
  ⟨rfl, fun _ => rfl⟩

lemma errorTracked_iff {past : List IfaceUpdate} {hosts : HostTable} (hi : Tracked getHostidByInterfaceid past hosts)
    (e : IfaceUpdate) :
    ErrorTracked getHostidByInterfaceid ⟨past, hosts, e, updateStep cfg getHostidByInterfaceid hosts e⟩ ↔
      Replaceable getHostidByInterfaceid ⟨past, hosts, e, updateStep cfg getHostidByInterfaceid hosts e⟩ := by
  refine forall_congr' fun ref => ?_
  rw [lastError_append, errorOf]
  rcases ifaceOf_updateStep cfg getHostidByInterfaceid hi.create e ref with ⟨hne, hsame⟩ | ⟨set, hset, hkey, hnew⟩
  · rw [hsame, if_neg hne]
    exact iff_of_true (hi.tracked ref) fun _ _ ha => absurd ha hne
  · have habout : e.about getHostidByInterfaceid = some ref := by simp [IfaceUpdate.about, hset, hkey]
    have herror : e.error getHostidByInterfaceid = set.error := by simp [IfaceUpdate.error, hset]
    rw [hnew, if_pos habout, herror, Option.map_some, error_updateIface, Option.some.injEq, error_addressed_iff]
    simp only [habout, errorOf, forall_true_left]

theorem errorTracked_iff_replaceable (freeCb : Id → Elem HostState → ℤ) (es : List IfaceUpdate) :
    (∀ t ∈ transitions (updateStep cfg getHostidByInterfaceid) (hostsInit freeCb) es,
        ErrorTracked getHostidByInterfaceid t) ↔
      ∀ t ∈ transitions (updateStep cfg getHostidByInterfaceid) (hostsInit freeCb) es,
        Replaceable getHostidByInterfaceid t := by
  refine transitions_iff (Tracked getHostidByInterfaceid) (tracked_init getHostidByInterfaceid freeCb) ?_
  intro past hosts e hi
  exact ⟨errorTracked_iff cfg getHostidByInterfaceid hi e,
    fun hq => ⟨(create_updateStep ..).trans hi.create, hq⟩⟩

end

-- "timeout", then "refused"
def secondTimeout : List IfaceUpdate :=
  [.registerTimeout ⟨1700000000, 1700000000⟩ 7 3 none (some [116, 105, 109, 101, 111, 117, 116]),
    .registerTimeout ⟨1700000060, 1700000060⟩ 7 3 none (some [114, 101, 102, 117, 115, 101, 100])]

theorem first_error_stays :
    ¬ ∀ t ∈ transitions (updateStep defaultConfig fun _ => none) (hostsInit fun _ _ => succeed) secondTimeout,
      ErrorTracked (fun _ => none) t := by
  intro h
  simp only [transitions, secondTimeout, transitionsFrom, List.forall_mem_cons] at h
  exact absurd (h.2.1 (7, .id 3)) (by decide)

end Glaber.State.Hosts
