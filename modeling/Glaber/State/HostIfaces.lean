import Glaber.State.Hosts

/-! Interface availability (`set_interface_cb` of `glb_state_hosts.c`). -/

namespace Glaber.State.Hosts

open Glaber.Algo Glaber.Lib.Runs

structure Config where
  unreachableRetries : Int32
  unreachableTimeout : Int32

def interfaceCompareFunc (iface1 iface2 : HostIface) : Bool := iface1.key == iface2.key

def newIface (now : Int32) (setIface : HostIface) : HostIface :=
  { setIface with lastchange := now, availState := interfaceAvailableUnknown }

def replaceError (setIface iface : HostIface) : HostIface :=
  if iface.error = none ∨ setIface.error = none ∨ iface.error = setIface.error then
    { iface with error := setIface.error }
  else iface

def changeState (now : Int32) (setIface iface : HostIface) : HostIface :=
  { iface with
    failCount := 0
    firstFail := 0
    disabledTill := 0
    availState := setIface.availState
    lastchange := now }

def countFail (setIface iface : HostIface) : HostIface :=
  { iface with failCount := if 0 < setIface.failCount then setIface.failCount else iface.failCount + 1 }

def stamp (setIface iface : HostIface) : HostIface :=
  { iface with
    lastupdate := if setIface.lastupdate ≠ 0 then setIface.lastupdate else iface.lastupdate
    lastchange := if setIface.lastchange ≠ 0 then setIface.lastchange else iface.lastchange }

variable (cfg : Config)

def Tolerated (now : Int32) (iface : HostIface) : Prop :=
  (iface.failCount.toNat : ℤ) < cfg.unreachableRetries.toInt ∨ now - iface.firstFail < cfg.unreachableTimeout

instance (cfg : Config) (now : Int32) (iface : HostIface) : Decidable (Tolerated cfg now iface) :=
  inferInstanceAs (Decidable (_ ∨ _))

/-- The part of `set_interface_cb` after the interface is found or added. The source compares `first_fail`
with the clock where it would assign it, so the field keeps its value. -/
def updateIface (now : Int32) (setIface iface : HostIface) : HostIface :=
  let iface := stamp setIface iface
  if setIface.availState ≠ iface.availState then
    if interfaceAvailableFalse = setIface.availState then
      let iface := countFail setIface iface
      if Tolerated cfg now iface then iface else changeState now setIface iface
    else changeState now setIface iface
  else iface

def setInterface (now : Int32) (setIface : HostIface) (interfaces : List HostIface) : List HostIface :=
  match interfaces.findIdx? (interfaceCompareFunc · setIface) with
  | none => interfaces ++ [updateIface cfg now setIface (newIface now setIface)]
  | some idx => interfaces.modify idx (fun iface => updateIface cfg now setIface (replaceError setIface iface))

def setInterfaceCb (now : Int32) (setIface : HostIface) (host : HostState) : HostState :=
  { host with interfaces := setInterface cfg now setIface host.interfaces }

def ifaceKey (ifaceid : ℕ) (ifname : Option CString) : Option IfaceKey :=
  if 0 = ifaceid then
    match ifname with
    | none => none
    | some [] => none
    | some name => some (.name (name.take 15))
  else some (.id ifaceid)

structure Readings where
  update : Int32
  now : Int32

def setIfaceState (clock : Readings) (hosts : HostTable) (hostid : Id) (ifaceid : ℕ)
    (ifname : Option CString) (state : UInt8) (error : Option CString) : HostTable :=
  match ifaceKey ifaceid ifname with
  | none => hosts
  | some key =>
    processHost hosts hostid (setInterfaceCb cfg clock.now ⟨key, error, 0, clock.update, 0, 0, state, 0⟩) 0

inductive IfaceEvent where
  | timeout (clock : Readings) (hostid : Id) (ifaceid : ℕ) (ifname error : Option CString)
  | response (clock : Readings) (hostid : Id) (ifaceid : ℕ) (ifname : Option CString)

def ifaceStep (hosts : HostTable) : IfaceEvent → HostTable
  | .timeout clock hostid ifaceid ifname error =>
    setIfaceState cfg clock hosts hostid ifaceid ifname interfaceAvailableFalse error
  | .response clock hostid ifaceid ifname =>
    setIfaceState cfg clock hosts hostid ifaceid ifname interfaceAvailableTrue none

def IfaceEvent.clock : IfaceEvent → Readings
  | .timeout clock _ _ _ _ => clock
  | .response clock _ _ _ => clock

def IfaceEvent.about : IfaceEvent → Option (Id × IfaceKey)
  | .timeout _ hostid ifaceid ifname _ => (ifaceKey ifaceid ifname).map (hostid, ·)
  | .response _ hostid ifaceid ifname => (ifaceKey ifaceid ifname).map (hostid, ·)

def IfaceEvent.isTimeout : IfaceEvent → Bool
  | .timeout .. => true
  | .response .. => false

def trackTimeouts (ref : Id × IfaceKey) (pending : List ℤ) (e : IfaceEvent) : List ℤ :=
  if e.about = some ref then (if e.isTimeout then pending ++ [e.clock.now.toInt] else []) else pending

def pendingTimeouts (ref : Id × IfaceKey) (past : List IfaceEvent) : List ℤ :=
  past.foldl (trackTimeouts ref) []

def interfacesOf (hosts : HostTable) (hostid : Id) : List HostIface :=
  (stateOf hosts hostid).elim [] HostState.interfaces

def ifaceOf (hosts : HostTable) (ref : Id × IfaceKey) : Option HostIface :=
  (interfacesOf hosts ref.1).find? (fun iface => iface.key == ref.2)

def availOf (hosts : HostTable) (ref : Id × IfaceKey) : UInt8 :=
  (ifaceOf hosts ref).elim interfaceAvailableUnknown HostIface.availState

def failCountOf (hosts : HostTable) (ref : Id × IfaceKey) : UInt8 :=
  (ifaceOf hosts ref).elim 0 HostIface.failCount

def Elapsed (ref : Id × IfaceKey) (t : Transition HostTable IfaceEvent) : Prop :=
  ∃ first ∈ (pendingTimeouts ref (t.past ++ [t.event])).head?,
    cfg.unreachableTimeout.toInt ≤ t.event.clock.now.toInt - first

def FalseJustified (t : Transition HostTable IfaceEvent) : Prop :=
  ∀ ref, availOf t.source ref ≠ interfaceAvailableFalse → availOf t.target ref = interfaceAvailableFalse →
    cfg.unreachableRetries.toInt ≤ (pendingTimeouts ref (t.past ++ [t.event])).length ∧ Elapsed cfg ref t

def ResponseAtZero (t : Transition HostTable IfaceEvent) : Prop :=
  ∀ ref, t.event.about = some ref → t.event.isTimeout = false →
    availOf t.source ref = interfaceAvailableTrue → failCountOf t.source ref = 0

def NotEarly (t : Transition HostTable IfaceEvent) : Prop :=
  ∀ ref, t.event.about = some ref → t.event.isTimeout = true →
    availOf t.source ref ≠ interfaceAvailableFalse →
    cfg.unreachableRetries.toInt ≤ (failCountOf t.source ref + 1).toNat →
    cfg.unreachableTimeout ≤ t.event.clock.now → Elapsed cfg ref t

section

variable {cfg : Config} {now : Int32} {setIface : HostIface}

lemma key_updateIface (cfg : Config) (now : Int32) (setIface iface : HostIface) :
    (updateIface cfg now setIface iface).key = iface.key := by
  simp only [updateIface]
  split_ifs <;> rfl

lemma key_replaceError (setIface iface : HostIface) : (replaceError setIface iface).key = iface.key := by
  rw [replaceError]
  split_ifs <;> rfl

lemma find?_modify {ifaces : List HostIface} {key : IfaceKey} {idx : ℕ} {f : HostIface → HostIface}
    (hf : ∀ iface, (f iface).key = iface.key) (hi : ifaces.findIdx? (fun iface => iface.key == key) = some idx)
    (k : IfaceKey) :
    (ifaces.modify idx f).find? (fun iface => iface.key == k) =
      if k = key then (ifaces.find? (fun iface => iface.key == k)).map f
      else ifaces.find? (fun iface => iface.key == k) := by
  induction ifaces generalizing idx with
  | nil => cases hi
  | cons iface ifaces ih =>
    rw [List.findIdx?_cons] at hi
    by_cases hk : iface.key = key
    · obtain rfl : idx = 0 := by simpa [hk] using hi.symm
      rw [List.modify_zero_cons]
      by_cases hkk : k = key
      · simp [hf, hk, hkk]
      · simp [hf, hk, hkk, Ne.symm hkk]
    · simp only [hk, beq_iff_eq, if_false, Option.map_eq_some_iff] at hi
      obtain ⟨j, hj, rfl⟩ := hi
      rw [List.modify_succ_cons]
      by_cases hkk : iface.key = k
      · have hne : k ≠ key := hkk ▸ hk
        simp [hkk, hne]
      · simp [hkk, ih hj]

def addressed (now : Int32) (setIface : HostIface) : Option HostIface → HostIface
  | none => newIface now setIface
  | some iface => replaceError setIface iface

lemma find?_setInterface (interfaces : List HostIface) (k : IfaceKey) :
    (setInterface cfg now setIface interfaces).find? (fun iface => iface.key == k) =
      if k = setIface.key then
        some (updateIface cfg now setIface
          (addressed now setIface (interfaces.find? (fun iface => iface.key == setIface.key))))
      else interfaces.find? (fun iface => iface.key == k) := by
  rw [setInterface]
  cases hi : interfaces.findIdx? (interfaceCompareFunc · setIface) with
  | none =>
    have hn : interfaces.find? (fun iface => iface.key == setIface.key) = none := by
      simpa [interfaceCompareFunc] using hi
    simp only [List.find?_append, List.find?_singleton, key_updateIface, hn, addressed, newIface]
    by_cases hk : k = setIface.key
    · subst hk
      simp [hn]
    · simp [hk, Ne.symm hk]
  | some idx =>
    have hf : ∀ iface, (updateIface cfg now setIface (replaceError setIface iface)).key = iface.key := by
      intro iface
      rw [key_updateIface, key_replaceError]
    have hs : interfaces.find? (fun iface => iface.key == setIface.key) ≠ none := by
      intro hn
      have : interfaces.findIdx? (interfaceCompareFunc · setIface) = none := by
        simpa [interfaceCompareFunc] using hn
      exact absurd (hi.symm.trans this) (by simp)
    rw [find?_modify hf hi]
    split_ifs with hk
    · subst hk
      obtain ⟨iface, hs⟩ := Option.ne_none_iff_exists'.mp hs
      simp [hs, addressed]
    · rfl

end

lemma interfacesOf_setInterfaceCb {hosts : HostTable} (hc : hosts.elemCreateFunc = hostCreateCb) (cfg : Config)
    (now : Int32) (setIface : HostIface) (hostid j : Id) :
    interfacesOf (processHost hosts hostid (setInterfaceCb cfg now setIface) 0) j =
      if j = hostid then setInterface cfg now setIface (interfacesOf hosts hostid) else interfacesOf hosts j := by
  simp only [interfacesOf, stateOf_processHost]
  split_ifs with hj
  · cases hl : hosts.lookup hostid with
    | none => simp [ElemsHash.target, stateOf, hl, elemFlagDoNotCreate, hc, hostCreateCb, setInterfaceCb]
    | some e => simp [ElemsHash.target, stateOf, hl, setInterfaceCb]
  · rfl

def setOf (key : IfaceKey) : IfaceEvent → HostIface
  | .timeout clock _ _ _ error => ⟨key, error, 0, clock.update, 0, 0, interfaceAvailableFalse, 0⟩
  | .response clock _ _ _ => ⟨key, none, 0, clock.update, 0, 0, interfaceAvailableTrue, 0⟩

lemma ifaceStep_eq (hosts : HostTable) (e : IfaceEvent) :
    ifaceStep cfg hosts e = match e.about with
      | none => hosts
      | some ref => processHost hosts ref.1 (setInterfaceCb cfg e.clock.now (setOf ref.2 e)) 0 := by
  cases e with
  | timeout clock hostid ifaceid ifname error =>
    cases hk : ifaceKey ifaceid ifname <;>
      simp [ifaceStep, setIfaceState, IfaceEvent.about, hk, setOf, IfaceEvent.clock]
  | response clock hostid ifaceid ifname =>
    cases hk : ifaceKey ifaceid ifname <;>
      simp [ifaceStep, setIfaceState, IfaceEvent.about, hk, setOf, IfaceEvent.clock]

lemma ifaceOf_setInterfaceCb {hosts : HostTable} (hc : hosts.elemCreateFunc = hostCreateCb)
    (now : Int32) (setIface : HostIface) (hostid : Id) (ref : Id × IfaceKey) :
    ifaceOf (processHost hosts hostid (setInterfaceCb cfg now setIface) 0) ref =
      if (hostid, setIface.key) = ref then
        some (updateIface cfg now setIface (addressed now setIface (ifaceOf hosts ref)))
      else ifaceOf hosts ref := by
  obtain ⟨j, k⟩ := ref
  simp only [ifaceOf, interfacesOf_setInterfaceCb hc, Prod.mk.injEq]
  by_cases hj : hostid = j
  · subst hj
    simp only [if_true, find?_setInterface, true_and]
    by_cases hk : setIface.key = k
    · subst hk
      simp only [if_true]
    · simp only [hk, Ne.symm hk, if_false]
  · simp only [hj, Ne.symm hj, if_false, false_and]

lemma ifaceOf_ifaceStep {hosts : HostTable} (hc : hosts.elemCreateFunc = hostCreateCb)
    (e : IfaceEvent) (ref : Id × IfaceKey) :
    ifaceOf (ifaceStep cfg hosts e) ref =
      if e.about = some ref then
        some (updateIface cfg e.clock.now (setOf ref.2 e) (addressed e.clock.now (setOf ref.2 e) (ifaceOf hosts ref)))
      else ifaceOf hosts ref := by
  rw [ifaceStep_eq]
  cases ha : e.about with
  | none => simp
  | some about =>
    obtain ⟨hostid, key⟩ := about
    have hkey : (setOf key e).key = key := by cases e <;> rfl
    simp only [ifaceOf_setInterfaceCb cfg hc, hkey, Option.some.injEq]
    by_cases hr : (hostid, key) = ref
    · subst hr
      simp only [if_true]
    · simp only [hr, if_false]

lemma create_ifaceStep (hosts : HostTable) (e : IfaceEvent) :
    (ifaceStep cfg hosts e).elemCreateFunc = hosts.elemCreateFunc := by
  rw [ifaceStep_eq]
  cases e.about with
  | none => rfl
  | some ref => exact create_processHost ..

lemma addressed_fields (now : Int32) {setIface : HostIface} (hf : setIface.failCount = 0)
    (hz : setIface.firstFail = 0) (found : Option HostIface) :
    (addressed now setIface found).availState = found.elim interfaceAvailableUnknown HostIface.availState ∧
    (addressed now setIface found).failCount = found.elim 0 HostIface.failCount ∧
    (addressed now setIface found).firstFail = found.elim 0 HostIface.firstFail := by
  cases found with
  | none => exact ⟨rfl, hf, hz⟩
  | some iface =>
    rw [addressed, replaceError]
    split_ifs <;> exact ⟨rfl, rfl, rfl⟩

section

variable (cfg : Config) (now : Int32) {setIface iface : HostIface}

lemma updateIface_timeout (hs : setIface.availState = interfaceAvailableFalse) (hf : setIface.failCount = 0)
    (hz : iface.firstFail = 0) :
    let new := updateIface cfg now setIface iface
    (iface.availState = interfaceAvailableFalse ∧ new.availState = interfaceAvailableFalse ∧
      new.failCount = iface.failCount ∧ new.firstFail = 0) ∨
    (iface.availState ≠ interfaceAvailableFalse ∧
      ¬ (cfg.unreachableRetries.toInt ≤ (iface.failCount + 1).toNat ∧ cfg.unreachableTimeout ≤ now) ∧
      new.availState = iface.availState ∧ new.failCount = iface.failCount + 1 ∧ new.firstFail = 0) ∨
    (iface.availState ≠ interfaceAvailableFalse ∧
      (cfg.unreachableRetries.toInt ≤ (iface.failCount + 1).toNat ∧ cfg.unreachableTimeout ≤ now) ∧
      new.availState = interfaceAvailableFalse ∧ new.failCount = 0 ∧ new.firstFail = 0) := by
  have htol : Tolerated cfg now (countFail setIface (stamp setIface iface)) ↔
      ¬ (cfg.unreachableRetries.toInt ≤ (iface.failCount + 1).toNat ∧ cfg.unreachableTimeout ≤ now) := by
    rw [Tolerated, not_and_or, not_le, Int32.not_le]
    simp [countFail, stamp, hf, hz]
  by_cases ha : iface.availState = interfaceAvailableFalse
  · refine .inl ⟨ha, ?_⟩
    simp [updateIface, stamp, hs, ha, hz]
  · have hne : setIface.availState ≠ (stamp setIface iface).availState := by
      rw [hs]
      exact Ne.symm ha
    refine .inr ?_
    by_cases ht : Tolerated cfg now (countFail setIface (stamp setIface iface))
    · simp only [updateIface, if_pos hne, if_pos hs.symm, if_pos ht]
      exact .inl ⟨ha, htol.mp ht, by simp [countFail, stamp, hf, hz]⟩
    · simp only [updateIface, if_pos hne, if_pos hs.symm, if_neg ht]
      exact .inr ⟨ha, not_not.mp (htol.not.mp ht), hs, rfl, rfl⟩

lemma updateIface_response (hs : setIface.availState = interfaceAvailableTrue) (hz : iface.firstFail = 0) :
    let new := updateIface cfg now setIface iface
    new.availState = interfaceAvailableTrue ∧ new.firstFail = 0 ∧
      ((iface.availState = interfaceAvailableTrue ∧ new.failCount = iface.failCount) ∨ new.failCount = 0) := by
  have hnf : interfaceAvailableFalse ≠ setIface.availState := by
    rw [hs]
    decide
  by_cases ha : iface.availState = interfaceAvailableTrue
  · simp [updateIface, stamp, hs, ha, hz]
  · have hne : setIface.availState ≠ (stamp setIface iface).availState := by
      rw [hs]
      exact Ne.symm ha
    simp only [updateIface, if_pos hne, if_neg hnf]
    exact ⟨hs, rfl, .inr rfl⟩

end

lemma pendingTimeouts_append (ref : Id × IfaceKey) (past : List IfaceEvent) (e : IfaceEvent) :
    pendingTimeouts ref (past ++ [e]) = trackTimeouts ref (pendingTimeouts ref past) e := by
  rw [pendingTimeouts, List.foldl_append]
  rfl

structure Counted (past : List IfaceEvent) (hosts : HostTable) : Prop where
  create : hosts.elemCreateFunc = hostCreateCb
  firstFail : ∀ ref, (ifaceOf hosts ref).elim 0 HostIface.firstFail = 0
  failCount : ∀ ref, (failCountOf hosts ref).toNat ≤ (pendingTimeouts ref past).length

lemma toNat_succ_le (n : UInt8) : (n + 1).toNat ≤ n.toNat + 1 := by
  rw [UInt8.toNat_add]
  exact Nat.mod_le _ _

section

variable (cfg : Config) {past : List IfaceEvent} {hosts : HostTable}

lemma step_about (hi : Counted past hosts) {e : IfaceEvent} {ref : Id × IfaceKey} (ha : e.about = some ref) :
    ∃ iface : HostIface, iface.firstFail = 0 ∧ availOf hosts ref = iface.availState ∧
      failCountOf hosts ref = iface.failCount ∧
      ifaceOf (ifaceStep cfg hosts e) ref = some (updateIface cfg e.clock.now (setOf ref.2 e) iface) := by
  have hset : (setOf ref.2 e).failCount = 0 ∧ (setOf ref.2 e).firstFail = 0 := by
    cases e <;> exact ⟨rfl, rfl⟩
  obtain ⟨h1, h2, h3⟩ := addressed_fields e.clock.now hset.1 hset.2 (ifaceOf hosts ref)
  refine ⟨_, h3.trans (hi.firstFail ref), h1.symm, h2.symm, ?_⟩
  rw [ifaceOf_ifaceStep cfg hi.create, if_pos ha]

lemma step_timeout (hi : Counted past hosts) {e : IfaceEvent} {ref : Id × IfaceKey} (ha : e.about = some ref)
    (ht : e.isTimeout = true) :
    (ifaceOf (ifaceStep cfg hosts e) ref).elim 0 HostIface.firstFail = 0 ∧
    ((availOf hosts ref = interfaceAvailableFalse ∧
        availOf (ifaceStep cfg hosts e) ref = interfaceAvailableFalse ∧
        failCountOf (ifaceStep cfg hosts e) ref = failCountOf hosts ref) ∨
      (availOf hosts ref ≠ interfaceAvailableFalse ∧
        ¬ (cfg.unreachableRetries.toInt ≤ (failCountOf hosts ref + 1).toNat ∧
          cfg.unreachableTimeout ≤ e.clock.now) ∧
        availOf (ifaceStep cfg hosts e) ref = availOf hosts ref ∧
        failCountOf (ifaceStep cfg hosts e) ref = failCountOf hosts ref + 1) ∨
      (availOf hosts ref ≠ interfaceAvailableFalse ∧
        (cfg.unreachableRetries.toInt ≤ (failCountOf hosts ref + 1).toNat ∧
          cfg.unreachableTimeout ≤ e.clock.now) ∧
        availOf (ifaceStep cfg hosts e) ref = interfaceAvailableFalse ∧
        failCountOf (ifaceStep cfg hosts e) ref = 0)) := by
  have hset : (setOf ref.2 e).availState = interfaceAvailableFalse ∧ (setOf ref.2 e).failCount = 0 := by
    cases e with
    | timeout => exact ⟨rfl, rfl⟩
    | response => cases ht
  obtain ⟨iface, hfirst, havail, hcount, hnew⟩ := step_about cfg hi ha
  have hcases := updateIface_timeout cfg e.clock.now hset.1 hset.2 hfirst
  rw [havail, hcount]
  simp only [availOf, failCountOf, hnew, Option.elim_some]
  rcases hcases with ⟨a, b, c, d⟩ | ⟨a, b, c, d, f⟩ | ⟨a, b, c, d, f⟩
  · exact ⟨d, .inl ⟨a, b, c⟩⟩
  · exact ⟨f, .inr (.inl ⟨a, b, c, d⟩)⟩
  · exact ⟨f, .inr (.inr ⟨a, b, c, d⟩)⟩

lemma step_response (hi : Counted past hosts) {e : IfaceEvent} {ref : Id × IfaceKey} (ha : e.about = some ref)
    (ht : e.isTimeout = false) :
    (ifaceOf (ifaceStep cfg hosts e) ref).elim 0 HostIface.firstFail = 0 ∧
    availOf (ifaceStep cfg hosts e) ref = interfaceAvailableTrue ∧
    ((availOf hosts ref = interfaceAvailableTrue ∧
        failCountOf (ifaceStep cfg hosts e) ref = failCountOf hosts ref) ∨
      failCountOf (ifaceStep cfg hosts e) ref = 0) := by
  have hs : (setOf ref.2 e).availState = interfaceAvailableTrue := by
    cases e with
    | timeout => cases ht
    | response => rfl
  obtain ⟨iface, hfirst, havail, hcount, hnew⟩ := step_about cfg hi ha
  obtain ⟨a, b, c⟩ := updateIface_response cfg e.clock.now hs hfirst
  rw [havail, hcount]
  simp only [availOf, failCountOf, hnew, Option.elim_some]
  exact ⟨b, a, c⟩

lemma step_other (hi : Counted past hosts) {e : IfaceEvent} {ref : Id × IfaceKey} (ha : e.about ≠ some ref) :
    ifaceOf (ifaceStep cfg hosts e) ref = ifaceOf hosts ref := by
  rw [ifaceOf_ifaceStep cfg hi.create, if_neg ha]

lemma counted_step (hi : Counted past hosts) {e : IfaceEvent}
    (hr : ResponseAtZero ⟨past, hosts, e, ifaceStep cfg hosts e⟩) :
    Counted (past ++ [e]) (ifaceStep cfg hosts e) := by
  refine ⟨(create_ifaceStep ..).trans hi.create, fun ref => ?_, fun ref => ?_⟩
  · by_cases ha : e.about = some ref
    · cases ht : e.isTimeout with
      | true => exact (step_timeout cfg hi ha ht).1
      | false => exact (step_response cfg hi ha ht).1
    · rw [step_other cfg hi ha]
      exact hi.firstFail ref
  · have hcount := hi.failCount ref
    rw [pendingTimeouts_append, trackTimeouts]
    by_cases ha : e.about = some ref
    · cases ht : e.isTimeout with
      | true =>
        simp only [ha, if_true, List.length_append, List.length_singleton]
        have hsucc := toNat_succ_le (failCountOf hosts ref)
        rcases (step_timeout cfg hi ha ht).2 with ⟨-, -, h⟩ | ⟨-, -, -, h⟩ | ⟨-, -, -, h⟩
        · rw [h]
          omega
        · rw [h]
          omega
        · rw [h]
          simp
      | false =>
        simp only [ha, if_true, Bool.false_eq_true, if_false, List.length_nil]
        rcases (step_response cfg hi ha ht).2.2 with ⟨htrue, h⟩ | h
        · rw [h, hr ref ha ht htrue]
          simp
        · rw [h]
          simp
    · rw [if_neg ha, failCountOf, step_other cfg hi ha]
      exact hcount

lemma falseJustified_iff (hi : Counted past hosts) (e : IfaceEvent) :
    FalseJustified cfg ⟨past, hosts, e, ifaceStep cfg hosts e⟩ ↔
      NotEarly cfg ⟨past, hosts, e, ifaceStep cfg hosts e⟩ := by
  constructor
  · intro h ref ha ht hn hretry hnow
    rcases (step_timeout cfg hi ha ht).2 with ⟨h1, -, -⟩ | ⟨-, h2, -, -⟩ | ⟨-, -, h3, -⟩
    · exact absurd h1 hn
    · exact absurd ⟨hretry, hnow⟩ h2
    · exact (h ref hn h3).2
  · intro h ref hn hf
    by_cases ha : e.about = some ref
    · cases ht : e.isTimeout with
      | true =>
        rcases (step_timeout cfg hi ha ht).2 with ⟨h1, -, -⟩ | ⟨-, -, h2, -⟩ | ⟨-, ⟨h3, h4⟩, -, -⟩
        · exact absurd h1 hn
        · exact absurd (h2.symm.trans hf) hn
        · refine ⟨?_, h ref ha ht hn h3 h4⟩
          have hcount := hi.failCount ref
          have hsucc := toNat_succ_le (failCountOf hosts ref)
          simp only [pendingTimeouts_append, trackTimeouts, ha, ht, if_true, List.length_append,
            List.length_singleton]
          omega
      | false =>
        have htrue := (step_response cfg hi ha ht).2.1
        exact absurd (htrue.symm.trans hf) (by decide)
    · simp only [availOf, step_other cfg hi ha] at hf
      exact absurd hf hn

end

lemma counted_init (freeCb : Id → Elem HostState → ℤ) : Counted [] (hostsInit freeCb) :=
  ⟨rfl, fun _ => rfl, fun _ => le_rfl⟩

theorem falseJustified_iff_notEarly (freeCb : Id → Elem HostState → ℤ) (es : List IfaceEvent)
    (hr : ∀ t ∈ transitions (ifaceStep cfg) (hostsInit freeCb) es, ResponseAtZero t) :
    (∀ t ∈ transitions (ifaceStep cfg) (hostsInit freeCb) es, FalseJustified cfg t) ↔
      ∀ t ∈ transitions (ifaceStep cfg) (hostsInit freeCb) es, NotEarly cfg t := by
  constructor
  · intro h
    have hboth : ∀ t ∈ transitions (ifaceStep cfg) (hostsInit freeCb) es,
        ResponseAtZero t ∧ FalseJustified cfg t := fun t ht => ⟨hr t ht, h t ht⟩
    refine transitions_rule Counted (counted_init freeCb) ?_ hboth
    intro past hosts e hi hc
    exact ⟨counted_step cfg hi hc.1, (falseJustified_iff cfg hi e).mp hc.2⟩
  · intro h
    have hboth : ∀ t ∈ transitions (ifaceStep cfg) (hostsInit freeCb) es,
        ResponseAtZero t ∧ NotEarly cfg t := fun t ht => ⟨hr t ht, h t ht⟩
    refine transitions_rule Counted (counted_init freeCb) ?_ hboth
    intro past hosts e hi hc
    exact ⟨counted_step cfg hi hc.1, (falseJustified_iff cfg hi e).mpr hc.2⟩

def defaultConfig : Config := ⟨2, 45⟩

def twoTimeouts (gap : Int32) : List IfaceEvent :=
  [.timeout ⟨1700000000, 1700000000⟩ 7 3 none none, .timeout ⟨1700000000 + gap, 1700000000 + gap⟩ 7 3 none none]

theorem timeouts_fifty_seconds_apart :
    (∀ t ∈ transitions (ifaceStep defaultConfig) (hostsInit fun _ _ => succeed) (twoTimeouts 50), ResponseAtZero t) ∧
    (∀ t ∈ transitions (ifaceStep defaultConfig) (hostsInit fun _ _ => succeed) (twoTimeouts 50),
      FalseJustified defaultConfig t) ∧
    availOf ((twoTimeouts 50).foldl (ifaceStep defaultConfig) (hostsInit fun _ _ => succeed)) (7, .id 3) =
      interfaceAvailableFalse := by
  have hr : ∀ t ∈ transitions (ifaceStep defaultConfig) (hostsInit fun _ _ => succeed) (twoTimeouts 50),
      ResponseAtZero t := by
    simp only [transitions, twoTimeouts, transitionsFrom, List.forall_mem_cons]
    refine ⟨?_, ?_, by simp⟩
    all_goals
      intro ref _ ht
      cases ht
  refine ⟨hr, (falseJustified_iff_notEarly _ _ _ hr).mpr ?_, by decide⟩
  simp only [transitions, twoTimeouts, transitionsFrom, List.forall_mem_cons]
  refine ⟨?_, ?_, by simp⟩
  · intro ref ha _ _ hretry
    cases ha
    exact absurd hretry (by decide)
  · intro ref ha _ _ _ _
    cases ha
    exact ⟨1700000000, by decide, by decide⟩

theorem timeouts_one_second_apart :
    ¬ ∀ t ∈ transitions (ifaceStep defaultConfig) (hostsInit fun _ _ => succeed) (twoTimeouts 1),
      FalseJustified defaultConfig t := by
  intro h
  simp only [transitions, twoTimeouts, transitionsFrom, List.forall_mem_cons] at h
  obtain ⟨-, first, hf, hle⟩ := h.2.1 (7, .id 3) (by decide) (by decide)
  obtain rfl : first = 1700000000 := by
    have : some first = some (1700000000 : ℤ) := hf.symm.trans (by decide)
    exact Option.some.inj this
  exact absurd hle (by decide)

end Glaber.State.Hosts
