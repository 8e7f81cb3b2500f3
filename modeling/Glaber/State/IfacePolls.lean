import Glaber.State.IfaceErrors

/-! Polls of unavailable interfaces (`glb_state_host_is_interface_pollable`). -/

namespace Glaber.State.Hosts

open Glaber.Algo Glaber.Lib.Runs

/-- `CONFIG_UNREACHABLE_DELAY`, with the range the configuration parser lets through. -/
structure UnreachableDelay where
  delay : Int32
  range : 1 ≤ delay.toInt ∧ delay.toInt ≤ 3600

structure PollConfig extends Config, UnreachableDelay

structure CheckClock where
  now : ℕ
  lag : ℕ

def CheckClock.later (clock : CheckClock) : ℕ := clock.now + clock.lag

def modifyIface (key : IfaceKey) (f : HostIface → HostIface) (interfaces : List HostIface) : List HostIface :=
  match interfaces.findIdx? (fun iface => iface.key == key) with
  | none => interfaces
  | some idx => interfaces.modify idx f

def HostState.search (host : HostState) (key : IfaceKey) : Option HostIface :=
  host.interfaces.find? (fun iface => iface.key == key)

variable (delay : Int32)

def disable (clock : CheckClock) (iface : HostIface) : HostIface :=
  { iface with disabledTill := Int32.ofInt (clock.later + delay.toInt) }

def HostState.disableIface (clock : CheckClock) (key : IfaceKey) (host : HostState) : HostState :=
  { host with interfaces := modifyIface key (disable delay clock) host.interfaces }

def isInterfacePollableCb (clock : CheckClock) (key : IfaceKey) : ProcessCb HostState Int32 :=
  fun _ elem disabledTill =>
    match elem.data.search key with
    | none => (succeed, elem, disabledTill)
    | some iface =>
      if interfaceAvailableFalse ≠ iface.availState then (succeed, elem, disabledTill)
      else if (clock.now : ℤ) < iface.disabledTill.toInt then (fail, elem, iface.disabledTill)
      else (succeed, { elem with data := elem.data.disableIface delay clock key }, disabledTill)

structure Pollable where
  ret : ℤ
  disabledTill : Option Int32
deriving DecidableEq

def isInterfacePollable (clock : CheckClock) (hosts : HostTable) (hostid : Id) (key : IfaceKey) :
    Pollable × HostTable :=
  let (ret, hosts, disabledTill) :=
    hosts.process hostid (some (isInterfacePollableCb delay clock key)) (-1) elemFlagDoNotCreate
  if succeed = ret then (⟨succeed, none⟩, hosts)
  else if -1 = disabledTill then (⟨succeed, none⟩, hosts)
  else (⟨fail, some disabledTill⟩, hosts)

/-- The name goes whole into a field of 16 bytes: the copy of a longer one runs on over the rest of the
record, and no stored name is equal to it. -/
def hostIsInterfacePollable (clock : CheckClock) (hosts : HostTable) (hostid : Id) (ifaceid : ℕ)
    (ifname : Option CString) : Pollable × HostTable :=
  if 0 = ifaceid then
    match ifname with
    | none => (⟨interfaceAvailableUnknown.toNat, none⟩, hosts)
    | some name => isInterfacePollable delay clock hosts hostid (.name name)
  else isInterfacePollable delay clock hosts hostid (.id ifaceid)

structure PollCheck where
  clock : CheckClock
  hostid : Id
  ifaceid : ℕ
  ifname : Option CString

def PollCheck.call (hosts : HostTable) (c : PollCheck) : Pollable × HostTable :=
  hostIsInterfacePollable delay c.clock hosts c.hostid c.ifaceid c.ifname

/-- The interface a check asks about: names are those of the interface records, cut at 15 bytes. -/
def PollCheck.about (c : PollCheck) : Option (Id × IfaceKey) :=
  if 0 = c.ifaceid then c.ifname.map fun name => (c.hostid, .name (name.take 15)) else some (c.hostid, .id c.ifaceid)

inductive HostEvent where
  | host (e : Event)
  | update (e : IfaceUpdate)
  | setAvailState (hostid : Id) (state : UInt8)
  | delete (hostid : Id)
  | check (c : PollCheck)

def setHostAvailStateCb (state : UInt8) (host : HostState) : HostState := { host with hostAvailState := state }

section

variable (cfg : PollConfig) (getHostidByInterfaceid : ℕ → Option Id)

def hostStep (hosts : HostTable) : HostEvent → HostTable
  | .host e => step hosts e
  | .update e => updateStep cfg.toConfig getHostidByInterfaceid hosts e
  | .setAvailState hostid state => processHost hosts hostid (setHostAvailStateCb state) 0
  | .delete hostid => (hosts.delete hostid).2
  | .check c => (c.call cfg.delay hosts).2

def grant (ref : Id × IfaceKey) (hosts : HostTable) (permits : List ℕ) : HostEvent → List ℕ
  | .check c =>
    if c.about = some ref ∧ (c.call cfg.delay hosts).1.ret = succeed then permits ++ [c.clock.later] else permits
  | _ => permits

def trackPermits (ref : Id × IfaceKey) (s : HostTable × List ℕ) (e : HostEvent) : HostTable × List ℕ :=
  let hosts := hostStep cfg getHostidByInterfaceid s.1 e
  (hosts, if availOf hosts ref = interfaceAvailableFalse then grant cfg ref s.1 s.2 e else [])

def permits (freeCb : Id → Elem HostState → ℤ) (ref : Id × IfaceKey) (past : List HostEvent) : List ℕ :=
  (past.foldl (trackPermits cfg getHostidByInterfaceid ref) (hostsInit freeCb, [])).2

structure Gate (hosts : HostTable) (permits : List ℕ) (ref : Id × IfaceKey) (c : PollCheck) : Prop where
  other : availOf hosts ref ≠ interfaceAvailableFalse → (c.call cfg.delay hosts).1.ret = succeed
  spaced : availOf hosts ref = interfaceAvailableFalse → (c.call cfg.delay hosts).1.ret = succeed →
    ∀ permit ∈ permits, (permit : ℤ) + cfg.delay.toInt ≤ c.clock.now
  refused : (c.call cfg.delay hosts).1.ret ≠ succeed →
    (c.call cfg.delay hosts).1.ret = fail ∧
      ∃ disabledTill, (c.call cfg.delay hosts).1.disabledTill = some disabledTill ∧
        (c.clock.now : ℤ) < disabledTill.toInt

def Gated (freeCb : Id → Elem HostState → ℤ) (t : Transition HostTable HostEvent) : Prop :=
  ∀ c, t.event = .check c →
    (c.about = none → (c.call cfg.delay t.source).1.ret = succeed) ∧
    ∀ ref, c.about = some ref → Gate cfg t.source (permits cfg getHostidByInterfaceid freeCb ref t.past) ref c

def CheckFits (t : Transition HostTable HostEvent) : Prop :=
  ∀ c, t.event = .check c →
    (c.ifaceid = 0 → ∀ name, c.ifname = some name → name.length ≤ 15) ∧ (c.clock.later : ℤ) + cfg.delay.toInt < 2 ^ 31

end

def disabledTillOf (hosts : HostTable) (ref : Id × IfaceKey) : ℤ :=
  (ifaceOf hosts ref).elim 0 fun iface => iface.disabledTill.toInt

lemma unknown_ne_false : interfaceAvailableUnknown ≠ interfaceAvailableFalse := by decide

section

variable {hosts hosts' : HostTable}

lemma ifaceOf_congr {ref : Id × IfaceKey} (h : stateOf hosts' ref.1 = stateOf hosts ref.1) :
    ifaceOf hosts' ref = ifaceOf hosts ref := by
  rw [ifaceOf, ifaceOf, interfacesOf, interfacesOf, h]

lemma ifaceOf_of_stateOf {hostid : Id} {host : HostState} (h : stateOf hosts hostid = some host) (key : IfaceKey) :
    ifaceOf hosts (hostid, key) = host.search key := by
  rw [ifaceOf, interfacesOf, h]
  rfl

lemma availOf_of_false {ref : Id × IfaceKey} (h : availOf hosts ref = interfaceAvailableFalse) :
    ∃ iface, ifaceOf hosts ref = some iface ∧ iface.availState = interfaceAvailableFalse := by
  rw [availOf] at h
  cases hi : ifaceOf hosts ref with
  | none =>
    rw [hi] at h
    exact absurd h (by decide)
  | some iface =>
    rw [hi] at h
    exact ⟨iface, rfl, h⟩

lemma find?_map_iface {h : HostIface → HostIface} (hkey : ∀ iface, (h iface).key = iface.key)
    (interfaces : List HostIface) (key : IfaceKey) :
    (interfaces.map h).find? (fun iface => iface.key == key) =
      (interfaces.find? (fun iface => iface.key == key)).map h := by
  rw [List.find?_map]
  congr 2
  funext iface
  rw [Function.comp_apply, hkey]

lemma interfacesOf_processHost (hc : hosts.elemCreateFunc = hostCreateCb) {f : HostState → HostState}
    {h : HostIface → HostIface} (hf : ∀ host, (f host).interfaces = host.interfaces.map h) (hostid : Id)
    (flags : BitVec 64) (j : Id) :
    interfacesOf (processHost hosts hostid f flags) j =
      if j = hostid then (interfacesOf hosts hostid).map h else interfacesOf hosts j := by
  rw [interfacesOf, stateOf_processHost]
  split_ifs with hj
  · cases hl : hosts.lookup hostid with
    | none =>
      have ht : hosts.target hostid flags = none ∨ hosts.target hostid flags = some (hostCreateCb hostid) := by
        rw [ElemsHash.target, hl, ← hc]
        simp only
        split_ifs
        · exact .inl rfl
        · exact .inr rfl
      rcases ht with ht | ht <;> simp [ht, interfacesOf, stateOf, hl, hostCreateCb, hf]
    | some e => simp [ElemsHash.target, interfacesOf, stateOf, hl, hf]
  · rfl

lemma ifaceOf_processHost (hc : hosts.elemCreateFunc = hostCreateCb) {f : HostState → HostState}
    {h : HostIface → HostIface} (hf : ∀ host, (f host).interfaces = host.interfaces.map h)
    (hkey : ∀ iface, (h iface).key = iface.key) (hostid : Id) (flags : BitVec 64) (ref : Id × IfaceKey) :
    ifaceOf (processHost hosts hostid f flags) ref =
      if ref.1 = hostid then (ifaceOf hosts ref).map h else ifaceOf hosts ref := by
  rw [ifaceOf, interfacesOf_processHost hc hf]
  split_ifs with hr
  · rw [find?_map_iface hkey, ifaceOf, hr]
  · rfl

end

def Settles (hosts hosts' : HostTable) : Prop :=
  ∀ ref, ifaceOf hosts' ref = ifaceOf hosts ref ∨ availOf hosts' ref ≠ interfaceAvailableFalse

section

variable {hosts : HostTable}

lemma settles_processHost (hc : hosts.elemCreateFunc = hostCreateCb) {f : HostState → HostState}
    (hf : ∀ host, (f host).interfaces = host.interfaces) (hostid : Id) (flags : BitVec 64) :
    Settles hosts (processHost hosts hostid f flags) := by
  intro ref
  have hmap : ∀ host, (f host).interfaces = host.interfaces.map id := by simpa using hf
  rw [ifaceOf_processHost hc hmap fun _ => rfl]
  simp

lemma settles_reset (hc : hosts.elemCreateFunc = hostCreateCb) {f : HostState → HostState}
    {h : HostIface → HostIface} (hf : ∀ host, (f host).interfaces = host.interfaces.map h)
    (hkey : ∀ iface, (h iface).key = iface.key)
    (hunknown : ∀ iface, (h iface).availState = interfaceAvailableUnknown) (hostid : Id) (flags : BitVec 64) :
    Settles hosts (processHost hosts hostid f flags) := by
  intro ref
  rw [availOf, ifaceOf_processHost hc hf hkey]
  split_ifs
  · right
    cases ifaceOf hosts ref with
    | none => exact unknown_ne_false
    | some iface =>
      rw [Option.map_some, Option.elim_some, hunknown]
      exact unknown_ne_false
  · exact .inl rfl

lemma settles_step (hc : hosts.elemCreateFunc = hostCreateCb) (e : Event) : Settles hosts (step hosts e) := by
  cases e with
  | heartbeat now changed hostid freq | resetHeartbeat now changed hostid =>
    apply settles_processHost hc
    intro host
    rw [processHeartbeatCb]
    split_ifs <;> rfl
  | hostsReset now hostid =>
    exact settles_reset hc (h := resetIfaceCb) (fun _ => rfl) (fun _ => rfl) (fun _ => rfl) hostid _
  | hostReset now hostid =>
    exact settles_reset hc (h := resetInterfaceCb now) (fun _ => rfl) (fun _ => rfl) (fun _ => rfl) hostid _
  | evaluate now =>
    intro ref
    left
    rw [ifaceOf, ifaceOf, interfacesOf, interfacesOf, step, stateOf_iterate]
    cases stateOf hosts ref.1 with
    | none => rfl
    | some host =>
      rw [Option.map_some, Option.elim_some, Option.elim_some, updateHostAvailStateCb]
      split_ifs <;> rfl

lemma settles_delete (hostid : Id) : Settles hosts (hosts.delete hostid).2 := by
  intro ref
  by_cases hr : ref.1 = hostid
  · right
    have hnone : stateOf (hosts.delete hostid).2 ref.1 = none := by simp [stateOf, hr]
    rw [availOf, ifaceOf, interfacesOf, hnone]
    exact unknown_ne_false
  · left
    apply ifaceOf_congr
    rw [stateOf, stateOf, ElemsHash.lookup_delete_ne hosts hr]

lemma updateIface_false {cfg : Config} {now : Int32} {set iface : HostIface}
    (hi : iface.availState = interfaceAvailableFalse)
    (hu : (updateIface cfg now set iface).availState = interfaceAvailableFalse) :
    (updateIface cfg now set iface).disabledTill = iface.disabledTill := by
  by_cases hs : set.availState = iface.availState
  · have hstamp : set.availState = (stamp set iface).availState := hs
    simp only [updateIface, ne_eq, hstamp, not_true_eq_false, if_false]
    rfl
  · have hstamp : set.availState ≠ (stamp set iface).availState := hs
    have hne : interfaceAvailableFalse ≠ set.availState := fun he => hs (he.symm.trans hi.symm)
    simp only [updateIface, if_pos hstamp, if_neg hne, changeState] at hu
    exact absurd hu.symm hne

lemma update_steady (cfg : Config) (getHostidByInterfaceid : ℕ → Option Id)
    (hc : hosts.elemCreateFunc = hostCreateCb) (e : IfaceUpdate) {ref : Id × IfaceKey}
    (hs : availOf hosts ref = interfaceAvailableFalse)
    (ht : availOf (updateStep cfg getHostidByInterfaceid hosts e) ref = interfaceAvailableFalse) :
    disabledTillOf (updateStep cfg getHostidByInterfaceid hosts e) ref = disabledTillOf hosts ref := by
  rcases ifaceOf_updateStep cfg getHostidByInterfaceid hc e ref with ⟨-, hsame⟩ | ⟨set, -, -, hnew⟩
  · rw [disabledTillOf, disabledTillOf, hsame]
  · obtain ⟨iface, hi, ha⟩ := availOf_of_false hs
    have hkeep : (replaceError set iface).availState = iface.availState ∧
        (replaceError set iface).disabledTill = iface.disabledTill := by
      rw [replaceError]
      split_ifs <;> exact ⟨rfl, rfl⟩
    rw [availOf, hnew, hi] at ht
    rw [disabledTillOf, disabledTillOf, hnew, hi]
    simp only [Option.elim_some, addressed] at ht ⊢
    rw [updateIface_false (hkeep.1.trans ha) ht, hkeep.2]

end

section

variable {hosts : HostTable} {delay : Int32} {clock : CheckClock} {hostid : Id} {key : IfaceKey}

inductive Checked (delay : Int32) (clock : CheckClock) (hosts : HostTable) (ref : Id × IfaceKey) :
    Pollable × HostTable → Prop
  | free (hosts' : HostTable) (ha : availOf hosts ref ≠ interfaceAvailableFalse)
      (hsame : ∀ r, ifaceOf hosts' r = ifaceOf hosts r) : Checked delay clock hosts ref (⟨succeed, none⟩, hosts')
  | refused (hosts' : HostTable) (iface : HostIface) (hi : ifaceOf hosts ref = some iface)
      (ha : iface.availState = interfaceAvailableFalse) (hnow : (clock.now : ℤ) < iface.disabledTill.toInt)
      (hsame : ∀ r, ifaceOf hosts' r = ifaceOf hosts r) :
      Checked delay clock hosts ref (⟨fail, some iface.disabledTill⟩, hosts')
  | permitted (hosts' : HostTable) (iface : HostIface) (hi : ifaceOf hosts ref = some iface)
      (ha : iface.availState = interfaceAvailableFalse) (hnow : iface.disabledTill.toInt ≤ clock.now)
      (hself : ifaceOf hosts' ref = some (disable delay clock iface))
      (hother : ∀ r ≠ ref, ifaceOf hosts' r = ifaceOf hosts r) :
      Checked delay clock hosts ref (⟨succeed, none⟩, hosts')

lemma search_modifyIface {interfaces : List HostIface} {f : HostIface → HostIface}
    (hf : ∀ iface, (f iface).key = iface.key) (k : IfaceKey) :
    (modifyIface key f interfaces).find? (fun iface => iface.key == k) =
      if k = key then (interfaces.find? (fun iface => iface.key == k)).map f
      else interfaces.find? (fun iface => iface.key == k) := by
  rw [modifyIface]
  cases hi : interfaces.findIdx? (fun iface => iface.key == key) with
  | some idx => exact find?_modify hf hi k
  | none =>
    split_ifs with hk
    · subst hk
      have hn : interfaces.find? (fun iface => iface.key == k) = none := by simpa using hi
      rw [hn]
      rfl
    · rfl

lemma search_disableIface (host : HostState) (k : IfaceKey) :
    (host.disableIface delay clock key).search k =
      if k = key then (host.search k).map (disable delay clock) else host.search k := by
  have hkey : ∀ iface, (disable delay clock iface).key = iface.key := fun _ => rfl
  exact search_modifyIface hkey k

lemma isInterfacePollable_checked (delay : Int32) (clock : CheckClock) (hosts : HostTable) (hostid : Id) (key : IfaceKey) :
    Checked delay clock hosts (hostid, key) (isInterfacePollable delay clock hosts hostid key) ∧
    (isInterfacePollable delay clock hosts hostid key).2.elemCreateFunc = hosts.elemCreateFunc := by
  rw [isInterfacePollable]
  cases hl : hosts.lookup hostid with
  | none =>
    have ht : hosts.target hostid elemFlagDoNotCreate = none := by simp [ElemsHash.target, hl, elemFlagDoNotCreate]
    rw [ElemsHash.process_of_target_none ht]
    refine ⟨.free hosts ?_ fun _ => rfl, rfl⟩
    have hnone : stateOf hosts hostid = none := by simp [stateOf, hl]
    rw [availOf, ifaceOf, interfacesOf, hnone]
    exact unknown_ne_false
  | some elem =>
    have ht : hosts.target hostid elemFlagDoNotCreate = some elem := by simp [ElemsHash.target, hl]
    obtain ⟨hret, htill, hself, hne, hcreate⟩ :=
      ElemsHash.process_of_target ht (isInterfacePollableCb delay clock key) (-1)
    generalize hosts.process hostid (some (isInterfacePollableCb delay clock key)) (-1) elemFlagDoNotCreate = out at *
    obtain ⟨ret, hosts', till⟩ := out
    have hstate : stateOf hosts hostid = some elem.data := by simp [stateOf, hl]
    have hfound := ifaceOf_of_stateOf hstate key
    have hkeep : ∀ e : Elem HostState, hosts'.lookup hostid = some e → e.data = elem.data →
        ∀ r, ifaceOf hosts' r = ifaceOf hosts r := by
      intro e he hd r
      apply ifaceOf_congr
      by_cases hr : r.1 = hostid
      · rw [hr, stateOf, he, hstate, Option.map_some, hd]
      · rw [stateOf, stateOf, hne r.1 hr]
    simp only [isInterfacePollableCb] at hret htill hself
    simp only at hcreate
    cases hs : elem.data.search key with
    | none =>
      simp only [hs] at hret htill hself
      subst hret
      refine ⟨.free hosts' ?_ (hkeep elem hself rfl), hcreate⟩
      rw [availOf, hfound, hs]
      exact unknown_ne_false
    | some iface =>
      rw [hs] at hfound
      by_cases ha : interfaceAvailableFalse = iface.availState
      · by_cases hnow : (clock.now : ℤ) < iface.disabledTill.toInt
        · simp only [hs, ha, ne_eq, not_true_eq_false, if_false, hnow, if_true] at hret htill hself
          subst hret htill
          have hne1 : (-1 : Int32) ≠ iface.disabledTill := by
            rintro he
            rw [← he] at hnow
            exact absurd hnow (by simp)
          have hret : ¬ succeed = fail := by decide
          simp only [hret, hne1, if_false]
          exact ⟨.refused hosts' iface hfound ha.symm hnow (hkeep elem hself rfl), hcreate⟩
        · simp only [hs, ha, ne_eq, not_true_eq_false, if_false, hnow] at hret htill hself
          subst hret
          have hdisabled : stateOf hosts' hostid = some (elem.data.disableIface delay clock key) := by
            rw [stateOf, hself, Option.map_some]
          refine ⟨.permitted hosts' iface hfound ha.symm (not_lt.mp hnow) ?_ fun r hr => ?_, hcreate⟩
          · rw [ifaceOf_of_stateOf hdisabled, search_disableIface, if_pos rfl, hs, Option.map_some]
          · obtain ⟨j, k⟩ := r
            by_cases hj : j = hostid
            · subst hj
              have hk : k ≠ key := fun hk => hr (by rw [hk])
              rw [ifaceOf_of_stateOf hdisabled, ifaceOf_of_stateOf hstate, search_disableIface, if_neg hk]
            · apply ifaceOf_congr
              rw [stateOf, stateOf, hne j hj]
      · simp only [hs, ne_eq, ha, not_false_eq_true, if_true] at hret htill hself
        subst hret
        refine ⟨.free hosts' ?_ (hkeep elem hself rfl), hcreate⟩
        rw [availOf, hfound]
        exact fun he => ha he.symm

section

variable {ref : Id × IfaceKey} {out : Pollable × HostTable}

lemma Checked.other (h : Checked delay clock hosts ref out) (ha : availOf hosts ref ≠ interfaceAvailableFalse) :
    out.1.ret = succeed := by
  cases h with
  | free | permitted => rfl
  | refused hosts' iface hf hfalse =>
    rw [availOf, hf] at ha
    exact absurd hfalse ha

lemma Checked.due (h : Checked delay clock hosts ref out) (ha : availOf hosts ref = interfaceAvailableFalse)
    (hret : out.1.ret = succeed) : disabledTillOf hosts ref ≤ clock.now := by
  cases h with
  | free hosts' hne => exact absurd ha hne
  | refused =>
    have hne : fail ≠ succeed := by decide
    exact absurd hret hne
  | permitted hosts' iface hf hfalse hnow =>
    rw [disabledTillOf, hf]
    exact hnow

lemma Checked.refused_later (h : Checked delay clock hosts ref out) (hret : out.1.ret ≠ succeed) :
    out.1.ret = fail ∧ ∃ disabledTill, out.1.disabledTill = some disabledTill ∧
      (clock.now : ℤ) < disabledTill.toInt := by
  cases h with
  | free | permitted => exact absurd rfl hret
  | refused hosts' iface hf hfalse hnow => exact ⟨rfl, _, rfl, hnow⟩

lemma Checked.disabledTill (h : Checked delay clock hosts ref out) {r : Id × IfaceKey}
    (ha : availOf out.2 r = interfaceAvailableFalse) :
    availOf hosts r = interfaceAvailableFalse ∧
    ((r = ref ∧ out.1.ret = succeed ∧
        disabledTillOf out.2 r = (Int32.ofInt (clock.later + delay.toInt)).toInt) ∨
      (¬ (r = ref ∧ out.1.ret = succeed) ∧ disabledTillOf out.2 r = disabledTillOf hosts r)) := by
  cases h with
  | free hosts' hne hsame =>
    simp only [availOf, disabledTillOf, hsame] at ha ⊢
    refine ⟨ha, .inr ⟨?_, trivial⟩⟩
    rintro ⟨rfl, -⟩
    exact hne ha
  | refused hosts' iface hi hfalse hnow hsame =>
    simp only [availOf, disabledTillOf, hsame] at ha ⊢
    have hret : fail ≠ succeed := by decide
    exact ⟨ha, .inr ⟨fun h => hret h.2, trivial⟩⟩
  | permitted hosts' iface hi hfalse hnow hself hother =>
    by_cases hr : r = ref
    · subst hr
      simp only [availOf, disabledTillOf, hself, hi, Option.elim_some]
      exact ⟨hfalse, .inl ⟨trivial, trivial, rfl⟩⟩
    · simp only [availOf, disabledTillOf, hother r hr] at ha ⊢
      exact ⟨ha, .inr ⟨fun h => hr h.1, trivial⟩⟩

end

lemma call_none {c : PollCheck} (hc : c.about = none) : (c.call delay hosts).1.ret = succeed := by
  rw [PollCheck.about] at hc
  split_ifs at hc with hz
  have hn : c.ifname = none := by simpa using hc
  simp only [PollCheck.call, hostIsInterfacePollable, hz, if_true, hn]
  rfl

lemma call_create (delay : Int32) (hosts : HostTable) (c : PollCheck) :
    (c.call delay hosts).2.elemCreateFunc = hosts.elemCreateFunc := by
  simp only [PollCheck.call, hostIsInterfacePollable]
  split_ifs
  · cases c.ifname with
    | none => rfl
    | some name => exact (isInterfacePollable_checked ..).2
  · exact (isInterfacePollable_checked ..).2

lemma call_checked {c : PollCheck} {ref : Id × IfaceKey} (hc : c.about = some ref)
    (hfit : c.ifaceid = 0 → ∀ name, c.ifname = some name → name.length ≤ 15) :
    Checked delay c.clock hosts ref (c.call delay hosts) := by
  rw [PollCheck.about] at hc
  simp only [PollCheck.call, hostIsInterfacePollable]
  split_ifs at hc ⊢ with hz
  · obtain ⟨name, hn, rfl⟩ := Option.map_eq_some_iff.mp hc
    simp only [hn]
    rw [List.take_of_length_le (hfit hz.symm name hn)]
    exact (isInterfacePollable_checked ..).1
  · obtain rfl := Option.some.inj hc
    exact (isInterfacePollable_checked ..).1

lemma call_none_same {c : PollCheck} (hc : c.about = none) : (c.call delay hosts).2 = hosts := by
  rw [PollCheck.about] at hc
  split_ifs at hc with hz
  have hn : c.ifname = none := by simpa using hc
  simp only [PollCheck.call, hostIsInterfacePollable, hz, if_true, hn]

end

structure Spaced (cfg : PollConfig) (getHostidByInterfaceid : ℕ → Option Id) (freeCb : Id → Elem HostState → ℤ)
    (past : List HostEvent) (hosts : HostTable) : Prop where
  create : hosts.elemCreateFunc = hostCreateCb
  replay : ∀ ref, (past.foldl (trackPermits cfg getHostidByInterfaceid ref) (hostsInit freeCb, [])).1 = hosts
  spaced : ∀ ref, ∀ permit ∈ permits cfg getHostidByInterfaceid freeCb ref past,
    availOf hosts ref = interfaceAvailableFalse ∧ (permit : ℤ) + cfg.delay.toInt ≤ disabledTillOf hosts ref

section

variable (cfg : PollConfig) (getHostidByInterfaceid : ℕ → Option Id) (freeCb : Id → Elem HostState → ℤ)
  {past : List HostEvent} {hosts : HostTable}

lemma spaced_init : Spaced cfg getHostidByInterfaceid freeCb [] (hostsInit freeCb) :=
  ⟨rfl, fun _ => rfl, fun _ _ h => by cases h⟩

lemma create_hostStep (e : HostEvent) :
    (hostStep cfg getHostidByInterfaceid hosts e).elemCreateFunc = hosts.elemCreateFunc := by
  cases e with
  | host e =>
    cases e with
    | evaluate now => exact create_iterate ..
    | heartbeat | resetHeartbeat | hostsReset | hostReset => exact create_processHost ..
  | update e => exact create_updateStep ..
  | setAvailState hostid state => exact create_processHost ..
  | delete hostid =>
    rw [hostStep, ElemsHash.delete]
    cases hosts.lookup hostid <;> rfl
  | check c => exact call_create ..

lemma hostStep_steady (hc : hosts.elemCreateFunc = hostCreateCb) {e : HostEvent} (he : ∀ c, e ≠ .check c)
    {ref : Id × IfaceKey} (hs : availOf hosts ref = interfaceAvailableFalse)
    (ht : availOf (hostStep cfg getHostidByInterfaceid hosts e) ref = interfaceAvailableFalse) :
    disabledTillOf (hostStep cfg getHostidByInterfaceid hosts e) ref = disabledTillOf hosts ref := by
  have settled : Settles hosts (hostStep cfg getHostidByInterfaceid hosts e) →
      disabledTillOf (hostStep cfg getHostidByInterfaceid hosts e) ref = disabledTillOf hosts ref := by
    intro h
    rcases h ref with hsame | hne
    · rw [disabledTillOf, disabledTillOf, hsame]
    · exact absurd ht hne
  cases e with
  | host e => exact settled (settles_step hc e)
  | update e => exact update_steady cfg.toConfig getHostidByInterfaceid hc e hs ht
  | setAvailState hostid state => exact settled (settles_processHost hc (f := setHostAvailStateCb state) (fun _ => rfl) hostid 0)
  | delete hostid => exact settled (settles_delete hostid)
  | check c => exact absurd rfl (he c)

lemma gated_step (hi : Spaced cfg getHostidByInterfaceid freeCb past hosts) (e : HostEvent)
    (hfit : CheckFits cfg ⟨past, hosts, e, hostStep cfg getHostidByInterfaceid hosts e⟩) :
    Gated cfg getHostidByInterfaceid freeCb ⟨past, hosts, e, hostStep cfg getHostidByInterfaceid hosts e⟩ := by
  intro c hc
  refine ⟨fun hn => call_none hn, fun ref href => ?_⟩
  have hchecked : Checked cfg.delay c.clock hosts ref (c.call cfg.delay hosts) := call_checked href (hfit c hc).1
  refine ⟨hchecked.other, fun ha hret permit hp => ?_, hchecked.refused_later⟩
  have hle := (hi.spaced ref permit hp).2
  exact hle.trans (hchecked.due ha hret)

lemma permits_append (hi : Spaced cfg getHostidByInterfaceid freeCb past hosts) (ref : Id × IfaceKey) (e : HostEvent) :
    permits cfg getHostidByInterfaceid freeCb ref (past ++ [e]) =
      if availOf (hostStep cfg getHostidByInterfaceid hosts e) ref = interfaceAvailableFalse then
        grant cfg ref hosts (permits cfg getHostidByInterfaceid freeCb ref past) e
      else [] := by
  rw [permits, List.foldl_append]
  simp only [List.foldl_cons, List.foldl_nil, trackPermits, hi.replay]
  rfl

lemma stored_later {clock : CheckClock} (h : (clock.later : ℤ) + cfg.delay.toInt < 2 ^ 31) :
    (Int32.ofInt (clock.later + cfg.delay.toInt)).toInt = clock.later + cfg.delay.toInt := by
  have hdelay := cfg.range.1
  rw [Int32.toInt_ofInt, Int32.size]
  exact Int.bmod_eq_of_le (by omega) (by omega)

lemma check_spaced (hi : Spaced cfg getHostidByInterfaceid freeCb past hosts) {c : PollCheck}
    (hname : c.ifaceid = 0 → ∀ name, c.ifname = some name → name.length ≤ 15)
    (hlater : (c.clock.later : ℤ) + cfg.delay.toInt < 2 ^ 31) {ref : Id × IfaceKey} {permit : ℕ}
    (ha : availOf (c.call cfg.delay hosts).2 ref = interfaceAvailableFalse)
    (hp : permit ∈ grant cfg ref hosts (permits cfg getHostidByInterfaceid freeCb ref past) (.check c)) :
    (permit : ℤ) + cfg.delay.toInt ≤ disabledTillOf (c.call cfg.delay hosts).2 ref := by
  have hspaced := hi.spaced ref permit
  cases hc : c.about with
  | none =>
    rw [grant, hc, if_neg (by simp)] at hp
    rw [call_none_same hc]
    exact (hspaced hp).2
  | some about =>
    have hchecked : Checked cfg.delay c.clock hosts about (c.call cfg.delay hosts) := call_checked hc hname
    simp only [grant, hc, Option.some.injEq] at hp
    rcases (hchecked.disabledTill ha).2 with ⟨hr, hret, htill⟩ | ⟨hn, htill⟩
    · subst hr
      rw [if_pos ⟨rfl, hret⟩] at hp
      rw [htill, stored_later cfg hlater]
      rcases List.mem_append.mp hp with hold | hnew
      · have hdue := hchecked.due (hspaced hold).1 hret
        have hle := (hspaced hold).2
        have hdelay := cfg.range.1
        have hlag : (c.clock.now : ℤ) ≤ c.clock.later := by simp [CheckClock.later]
        omega
      · rw [List.mem_singleton.mp hnew]
    · rw [if_neg fun h => hn ⟨h.1.symm, h.2⟩] at hp
      rw [htill]
      exact (hspaced hp).2

lemma spaced_step (hi : Spaced cfg getHostidByInterfaceid freeCb past hosts) (e : HostEvent)
    (hfit : CheckFits cfg ⟨past, hosts, e, hostStep cfg getHostidByInterfaceid hosts e⟩) :
    Spaced cfg getHostidByInterfaceid freeCb (past ++ [e]) (hostStep cfg getHostidByInterfaceid hosts e) := by
  refine ⟨(create_hostStep ..).trans hi.create, fun ref => ?_, fun ref permit hp => ?_⟩
  · rw [List.foldl_append]
    simp only [List.foldl_cons, List.foldl_nil, trackPermits, hi.replay]
  · rw [permits_append cfg getHostidByInterfaceid freeCb hi] at hp
    split_ifs at hp with ha
    · refine ⟨ha, ?_⟩
      cases e with
      | host | update | setAvailState | delete =>
        obtain ⟨hs, hle⟩ := hi.spaced ref permit hp
        rw [hostStep_steady cfg getHostidByInterfaceid hi.create (by simp) hs ha]
        exact hle
      | check c =>
        obtain ⟨hname, hlater⟩ := hfit c rfl
        exact check_spaced cfg getHostidByInterfaceid freeCb hi hname hlater ha hp
    · cases hp

end

def defaultPollConfig : PollConfig := ⟨defaultConfig, 15, by decide⟩

def timeouts (ifaceid : ℕ) (ifname : Option CString) : List HostEvent :=
  [.update (.registerTimeout ⟨1700000000, 1700000000⟩ 7 ifaceid ifname none),
    .update (.registerTimeout ⟨1700000050, 1700000050⟩ 7 ifaceid ifname none)]

def checkAt (ifaceid : ℕ) (ifname : Option CString) (now : ℕ) : PollCheck := ⟨⟨now, 0⟩, 7, ifaceid, ifname⟩

def checks : List HostEvent :=
  timeouts 3 none ++ [.check (checkAt 3 none 1700000060), .check (checkAt 3 none 1700000065),
    .check (checkAt 3 none 1700000075)]

def answers (es : List HostEvent) : List Pollable :=
  (transitions (hostStep defaultPollConfig fun _ => none) (hostsInit fun _ _ => succeed) es).filterMap fun t =>
    match t.event with
    | .check c => some (c.call 15 t.source).1
    | _ => none

def longName : CString := List.replicate 16 97

end Glaber.State.Hosts
