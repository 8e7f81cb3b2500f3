import Glaber.Algo.ElemsHash
import Glaber.Algo.Strpool
import Glaber.Lib.Runs

/-! The index from addresses to hosts (`glb_state_hosts.c`), keyed by where the pool of shared strings keeps the
address. -/

namespace Glaber.State.HostIps

open Glaber.Algo Glaber.Lib.Runs

structure Conf where
  ipToHostIndex : ElemsHash ℕ
  strpool : StrRecords

def ipToHostCreateCb (_ : Id) : Elem ℕ := ⟨0, 0⟩

def stateHostsInit : Conf := ⟨ElemsHash.init ipToHostCreateCb fun _ _ => succeed, StrRecords.init⟩

structure IpToHostInfo where
  ip : ℕ
  hostid : ℕ

def findIpCb : ProcessCb ℕ IpToHostInfo := fun id elem _ => (succeed, elem, ⟨id, elem.data⟩)

def registerIpCb : ProcessCb ℕ (IpToHostInfo × Option StrRecords) :=
  fun id elem (info, strpool) => (succeed, { elem with data := info.hostid }, (info, strpool.bind (·.acquire id)))

def deleteIp (s : Conf) (id : ℕ) : Option Conf :=
  match s.ipToHostIndex.lookup id with
  | none => some s
  | some _ => (s.strpool.release id).map fun strpool => ⟨(s.ipToHostIndex.delete id).2, strpool⟩

section

variable (m : Malloc)

def stateHostFindByIp (s : Conf) (addr : Option CString) : Option (ℕ × Conf) :=
  if addr = none then some (0, s)
  else
    (s.strpool.intern m addr).bind fun (ip, strpool) =>
      match s.ipToHostIndex.process ip (some findIpCb) ⟨ip, 0⟩ elemFlagDoNotCreate with
      | (ret, index, info) =>
        if ret = succeed then (strpool.release info.ip).map fun strpool => (info.hostid, ⟨index, strpool⟩)
        else (strpool.release info.ip).map fun strpool => (0, ⟨index, strpool⟩)

def stateHostsReleaseIp (s : Conf) (addr : Option CString) : Option Conf :=
  (s.strpool.intern m addr).bind fun (id, strpool) =>
    (deleteIp ⟨s.ipToHostIndex, strpool⟩ id).bind fun s =>
      (s.strpool.release id).map fun strpool => { s with strpool := strpool }

def stateHostRegisterIp (s : Conf) (addr : Option CString) (hostid : ℕ) : Option (ℤ × Conf) :=
  if addr = none ∨ 0 = hostid then some (fail, s)
  else
    (s.strpool.intern m addr).bind fun (ip, strpool) =>
      match s.ipToHostIndex.process ip (some registerIpCb) (⟨ip, hostid⟩, some strpool) 0 with
      | (_, index, (info, strpool)) => strpool.bind fun strpool =>
        (strpool.release info.ip).map fun strpool => (succeed, ⟨index, strpool⟩)

end

inductive Event where
  | register (addr : Option CString) (hostid : ℕ)
  | release (addr : Option CString)
  | find (addr : Option CString)

def step (m : Malloc) (s : Option Conf) : Event → Option Conf
  | .register addr hostid => s.bind fun s => (stateHostRegisterIp m s addr hostid).map Prod.snd
  | .release addr => s.bind fun s => stateHostsReleaseIp m s addr
  | .find addr => s.bind fun s => (stateHostFindByIp m s addr).map Prod.snd

def registerStep (hosts : CString → ℕ) : Event → CString → ℕ
  | .register (some addr) hostid => if hostid = 0 then hosts else Function.update hosts addr hostid
  | .release (some addr) => Function.update hosts addr 0
  | _ => hosts

def registered (es : List Event) : CString → ℕ := es.foldl registerStep fun _ => 0

def references (hosts : CString → ℕ) (left : CString → ℕ) (addr : CString) : ℕ :=
  (if hosts addr = 0 then 0 else 1) + left addr

structure Indexes (s : Conf) (hosts : CString → ℕ) : Prop where
  host : ∀ ptr addr, s.strpool.At ptr addr →
    (s.ipToHostIndex.lookup ptr).map Elem.data = if hosts addr = 0 then none else some (hosts addr)
  held : ∀ ptr elem, s.ipToHostIndex.lookup ptr = some elem → ∃ addr, s.strpool.At ptr addr

structure Holds (s : Conf) (hosts : CString → ℕ) (left : CString → ℕ) : Prop where
  counts : s.strpool.Counts (references hosts left)
  indexes : Indexes s hosts
  create : s.ipToHostIndex.elemCreateFunc = ipToHostCreateCb

lemma holds_init : Holds stateHostsInit (fun _ => 0) fun _ => 0 where
  counts := StrRecords.init_counts
  indexes := by
    constructor
    · rintro ptr addr ⟨r, hr, -⟩
      cases hr
    · intro ptr elem h
      cases h
  create := rfl

section

variable {index : ElemsHash ℕ} {pool pool' : StrRecords} {holders holders' hosts left : CString → ℕ} {ptr : ℕ}
  {addr : CString}

lemma Indexes.transfer (h : Indexes ⟨index, pool⟩ hosts) (hc : pool.Counts holders) (hc' : pool'.Counts holders')
    (hheld : ∀ t, hosts t ≠ 0 → holders t ≠ 0 ∧ holders' t ≠ 0)
    (hkeep : ∀ q t, holders' t ≠ 0 → pool.At q t → pool'.At q t) : Indexes ⟨index, pool'⟩ hosts := by
  have hentry : ∀ q elem, index.lookup q = some elem → ∃ t, pool'.At q t ∧ hosts t ≠ 0 := by
    intro q elem helem
    obtain ⟨t, ht⟩ := h.held q elem helem
    have hhost := h.host q t ht
    by_cases hzero : hosts t = 0
    · rw [if_pos hzero, helem] at hhost
      cases hhost
    · exact ⟨t, hkeep q t (hheld t hzero).2 ht, hzero⟩
  constructor
  · intro q t ht
    by_cases hzero : hosts t = 0
    · rw [if_pos hzero]
      cases helem : index.lookup q with
      | none => rfl
      | some elem =>
        obtain ⟨u, hu, hne⟩ := hentry q elem helem
        exact absurd (hu.text ht ▸ hzero) hne
    · obtain ⟨q', hq'⟩ := hc.held t (hheld t hzero).1
      obtain rfl := hc'.unique q' q t (hkeep q' t (hheld t hzero).2 hq') ht
      exact h.host q' t hq'
  · intro q elem helem
    obtain ⟨t, ht, -⟩ := hentry q elem helem
    exact ⟨t, ht⟩

lemma Indexes.set {index' : ElemsHash ℕ} {hostid : ℕ} (h : Indexes ⟨index, pool⟩ hosts) (hc : pool.Counts holders)
    (hat : pool.At ptr addr) (hself : (index'.lookup ptr).map Elem.data = if hostid = 0 then none else some hostid)
    (hother : ∀ q, q ≠ ptr → index'.lookup q = index.lookup q) :
    Indexes ⟨index', pool⟩ (Function.update hosts addr hostid) := by
  constructor
  · intro q t ht
    by_cases hq : q = ptr
    · subst hq
      obtain rfl := hat.text ht
      rw [Function.update_self]
      exact hself
    · have htext : t ≠ addr := by
        rintro rfl
        exact hq (hc.unique q ptr t ht hat)
      rw [Function.update_of_ne htext]
      exact (congrArg (Option.map Elem.data) (hother q hq)).trans (h.host q t ht)
  · intro q elem helem
    by_cases hq : q = ptr
    · exact ⟨addr, hq ▸ hat⟩
    · exact h.held q elem ((hother q hq).symm.trans helem)

def added (holders : CString → ℕ) (addr t : CString) : ℕ := holders t + if t = addr then 1 else 0

lemma references_ne_zero (left : CString → ℕ) {t : CString} (h : hosts t ≠ 0) : references hosts left t ≠ 0 := by
  rw [references, if_neg h]
  omega

lemma Holds.intern {s : Conf} (m : Malloc) (h : Holds s hosts left) (hfits : left addr < 4294967293) :
    ∃ ptr pool, s.strpool.intern m (some addr) = some (ptr, pool) ∧
      pool.Counts (added (references hosts left) addr) ∧ pool.At ptr addr ∧ Indexes ⟨s.ipToHostIndex, pool⟩ hosts := by
  have hbound : references hosts left addr + 1 < 4294967296 := by
    rw [references]
    split_ifs <;> omega
  have hnew : ∀ t, added (references hosts left) addr t = references hosts left t + if t = addr then 1 else 0 :=
    fun _ => rfl
  obtain ⟨ptr, pool, hrun, hc, hat, hkeep⟩ := h.counts.intern m hbound hnew
  refine ⟨ptr, pool, hrun, hc, hat, h.indexes.transfer h.counts hc ?_ fun q t _ => hkeep q t⟩
  intro t ht
  have hne := references_ne_zero left ht
  exact ⟨hne, by rw [added]; omega⟩

lemma Holds.of_release (hc : pool.Counts (added (references hosts left) addr)) (hat : pool.At ptr addr)
    (hi : Indexes ⟨index, pool⟩ hosts) (hcreate : index.elemCreateFunc = ipToHostCreateCb) :
    ∃ pool', pool.release ptr = some pool' ∧ Holds ⟨index, pool'⟩ hosts left := by
  have hold : ∀ t, added (references hosts left) addr t = references hosts left t + if t = addr then 1 else 0 :=
    fun _ => rfl
  obtain ⟨pool', hrun, hc', hkeep⟩ := hc.release hat hold
  refine ⟨pool', hrun, hc', hi.transfer hc hc' ?_ hkeep, hcreate⟩
  intro t ht
  have hne := references_ne_zero left ht
  exact ⟨by rw [added]; omega, hne⟩

lemma Holds.find {s : Conf} (m : Malloc) (h : Holds s hosts left) (hfits : left addr < 4294967293) :
    ∃ s', stateHostFindByIp m s (some addr) = some (hosts addr, s') ∧ Holds s' hosts left := by
  obtain ⟨ptr, pool, hrun, hc, hat, hi⟩ := h.intern m hfits
  have hhost := hi.host ptr addr hat
  dsimp only at hhost
  rw [stateHostFindByIp, if_neg (by simp), hrun, Option.bind_some]
  dsimp only
  by_cases hzero : hosts addr = 0
  · rw [if_pos hzero, Option.map_eq_none_iff] at hhost
    have hmiss : s.ipToHostIndex.target ptr elemFlagDoNotCreate = none := by
      rw [ElemsHash.target, hhost]
      rfl
    obtain ⟨pool', hrelease, hend⟩ := Holds.of_release hc hat hi h.create
    refine ⟨⟨s.ipToHostIndex, pool'⟩, ?_, hend⟩
    rw [ElemsHash.process_of_target_none hmiss, hzero]
    dsimp only
    rw [if_neg (by decide), hrelease]
    rfl
  · rw [if_neg hzero] at hhost
    obtain ⟨elem, helem, hdata⟩ := Option.map_eq_some_iff.mp hhost
    have htarget : s.ipToHostIndex.target ptr elemFlagDoNotCreate = some elem := by
      rw [ElemsHash.target, helem]
    obtain ⟨hret, hinfo, hself, hother, hcreate⟩ := ElemsHash.process_of_target htarget findIpCb ⟨ptr, 0⟩
    generalize s.ipToHostIndex.process ptr (some findIpCb) ⟨ptr, 0⟩ elemFlagDoNotCreate = reply at *
    obtain ⟨ret, index, info⟩ := reply
    dsimp only [findIpCb] at hret hinfo hself hother hcreate ⊢
    have hset : Indexes ⟨index, pool⟩ (Function.update hosts addr (hosts addr)) := by
      apply hi.set hc hat _ hother
      rw [hself, if_neg hzero, Option.map_some, hdata]
    rw [Function.update_eq_self] at hset
    obtain ⟨pool', hrelease, hend⟩ := Holds.of_release hc hat hset (hcreate.trans h.create)
    refine ⟨⟨index, pool'⟩, ?_, hend⟩
    rw [if_pos hret, hinfo]
    dsimp only
    rw [hrelease, hdata]
    rfl

def leftBy (hosts left : CString → ℕ) (addr t : CString) : ℕ := left t + if t = addr ∧ hosts addr ≠ 0 then 1 else 0

lemma Holds.register {s : Conf} (m : Malloc) (h : Holds s hosts left) (hfits : left addr < 4294967293) {hostid : ℕ}
    (hne : hostid ≠ 0) :
    ∃ s', stateHostRegisterIp m s (some addr) hostid = some (succeed, s') ∧
      Holds s' (Function.update hosts addr hostid) (leftBy hosts left addr) := by
  obtain ⟨ptr, pool, hrun, hc, hat, hi⟩ := h.intern m hfits
  have hacquired : ∀ t, added (references (Function.update hosts addr hostid) (leftBy hosts left addr)) addr t
      = added (references hosts left) addr t + if t = addr then 1 else 0 := by
    intro t
    simp only [added, references, leftBy]
    by_cases ht : t = addr
    · subst ht
      rw [Function.update_self, if_neg hne]
      by_cases hzero : hosts t = 0
      · simp [hzero, Nat.add_comm]
      · simp [hzero]
        omega
    · rw [Function.update_of_ne ht]
      simp [ht]
  have hbound : added (references hosts left) addr addr + 1 < 4294967296 := by
    simp only [added, references]
    split_ifs <;> omega
  obtain ⟨pool₁, hacquire, hc₁, hsame⟩ := hc.acquire hat hbound hacquired
  obtain ⟨elem, htarget⟩ : ∃ elem, s.ipToHostIndex.target ptr 0 = some elem := by
    rw [ElemsHash.target]
    cases s.ipToHostIndex.lookup ptr with
    | none => exact ⟨_, if_neg (by decide)⟩
    | some elem => exact ⟨elem, rfl⟩
  obtain ⟨hret, hinfo, hself, hother, hcreate⟩ :=
    ElemsHash.process_of_target htarget registerIpCb (⟨ptr, hostid⟩, some pool)
  rw [stateHostRegisterIp, if_neg (by simpa using hne.symm), hrun, Option.bind_some]
  dsimp only
  generalize s.ipToHostIndex.process ptr (some registerIpCb) (⟨ptr, hostid⟩, some pool) 0 = reply at *
  obtain ⟨ret, index, info, strpool⟩ := reply
  dsimp only [registerIpCb] at hret hinfo hself hother hcreate ⊢
  rw [Option.bind_some, hacquire] at hinfo
  obtain ⟨rfl, rfl⟩ := Prod.mk.inj hinfo
  have hset : Indexes ⟨index, pool₁⟩ (Function.update hosts addr hostid) := by
    have hi₁ : Indexes ⟨s.ipToHostIndex, pool₁⟩ hosts := by
      refine hi.transfer hc hc₁ ?_ fun q t _ hq => (hsame q t).mpr hq
      intro t ht
      have hne := references_ne_zero left ht
      rw [hacquired t]
      exact ⟨by rw [added]; omega, by rw [added]; omega⟩
    apply hi₁.set hc₁ ((hsame ptr addr).mpr hat) _ hother
    rw [hself, if_neg hne, Option.map_some]
  obtain ⟨pool', hrelease, hend⟩ := Holds.of_release hc₁ ((hsame ptr addr).mpr hat) hset (hcreate.trans h.create)
  refine ⟨⟨index, pool'⟩, ?_, hend⟩
  dsimp only
  rw [Option.bind_some, hrelease]
  rfl

lemma Holds.release {s : Conf} (m : Malloc) (h : Holds s hosts left) (hfits : left addr < 4294967293) :
    ∃ s', stateHostsReleaseIp m s (some addr) = some s' ∧ Holds s' (Function.update hosts addr 0) left := by
  obtain ⟨ptr, pool, hrun, hc, hat, hi⟩ := h.intern m hfits
  have hhost := hi.host ptr addr hat
  dsimp only at hhost
  rw [stateHostsReleaseIp, hrun, Option.bind_some]
  dsimp only [deleteIp]
  by_cases hzero : hosts addr = 0
  · rw [if_pos hzero, Option.map_eq_none_iff] at hhost
    obtain ⟨pool', hrelease, hend⟩ := Holds.of_release hc hat hi h.create
    refine ⟨⟨s.ipToHostIndex, pool'⟩, ?_, ?_⟩
    · rw [hhost]
      dsimp only
      rw [Option.bind_some, hrelease]
      rfl
    · rwa [← hzero, Function.update_eq_self]
  · rw [if_neg hzero] at hhost
    obtain ⟨elem, helem, hdata⟩ := Option.map_eq_some_iff.mp hhost
    have hfreed : ∀ t, added (references hosts left) addr t
        = added (references (Function.update hosts addr 0) left) addr t + if t = addr then 1 else 0 := by
      intro t
      simp only [added, references]
      by_cases ht : t = addr
      · subst ht
        rw [Function.update_self, if_neg hzero]
        simp
        omega
      · rw [Function.update_of_ne ht]
        simp [ht]
    obtain ⟨pool₁, hfree, hc₁, hkeep⟩ := hc.release hat hfreed
    have hat₁ : pool₁.At ptr addr := by
      apply hkeep ptr addr _ hat
      rw [added, if_pos rfl]
      omega
    have hset : Indexes ⟨(s.ipToHostIndex.delete ptr).2, pool₁⟩ (Function.update hosts addr 0) := by
      have hi₁ : Indexes ⟨s.ipToHostIndex, pool₁⟩ hosts := by
        refine hi.transfer hc hc₁ ?_ hkeep
        intro t ht
        have hne := references_ne_zero left ht
        refine ⟨by rw [added]; omega, ?_⟩
        have := hfreed t
        simp only [added] at this ⊢
        split_ifs at this ⊢ <;> omega
      apply hi₁.set hc₁ hat₁
      · rw [ElemsHash.lookup_delete_self]
        rfl
      · exact fun q hq => ElemsHash.lookup_delete_ne _ hq
    have hcreate : (s.ipToHostIndex.delete ptr).2.elemCreateFunc = ipToHostCreateCb := by
      rw [ElemsHash.delete, helem]
      exact h.create
    obtain ⟨pool', hrelease, hend⟩ := Holds.of_release hc₁ hat₁ hset hcreate
    refine ⟨⟨_, pool'⟩, ?_, hend⟩
    rw [helem]
    dsimp only
    rw [hfree, Option.map_some, Option.bind_some, hrelease]
    rfl

end

section

variable {m : Malloc} {s : Conf} {hosts left : CString → ℕ}

lemma Holds.lookup_null (h : Holds s hosts left) : s.ipToHostIndex.lookup 0 = none := by
  cases helem : s.ipToHostIndex.lookup 0 with
  | none => rfl
  | some elem =>
    obtain ⟨addr, hat⟩ := h.indexes.held 0 elem helem
    exact absurd rfl (h.counts.nonnull 0 addr hat)

lemma Holds.release_null (h : Holds s hosts left) : stateHostsReleaseIp m s none = some s := by
  rw [stateHostsReleaseIp, StrRecords.intern, Option.bind_some]
  dsimp only [deleteIp]
  rw [h.lookup_null]
  rfl

lemma Holds.release_all (h : Holds s hosts left) (hfits : ∀ t, left t < 4294967293) (addrs : List CString) :
    ∃ s', addrs.foldlM (fun s addr => stateHostsReleaseIp m s (some addr)) s = some s' ∧
      Holds s' (fun t => if t ∈ addrs then 0 else hosts t) left := by
  induction addrs generalizing s hosts with
  | nil => exact ⟨s, rfl, by simpa using h⟩
  | cons addr addrs ih =>
    obtain ⟨mid, hrun, hmid⟩ := h.release m (hfits addr)
    obtain ⟨s', hrest, hend⟩ := ih hmid
    refine ⟨s', by rw [List.foldlM_cons, hrun]; exact hrest, ?_⟩
    convert hend using 1
    funext t
    by_cases ht : t = addr
    · subst ht
      simp
    · simp [ht]

def Accounted (m : Malloc) (t : Transition (Option Conf) Event) : Prop :=
  ∃ s, t.target = some s ∧
    (∀ addr, ∃ s', stateHostFindByIp m s (some addr) = some (registered (t.past ++ [t.event]) addr, s')) ∧
    ∀ addrs : List CString, (∀ addr, registered (t.past ++ [t.event]) addr ≠ 0 → addr ∈ addrs) →
      ∃ s', addrs.foldlM (fun s addr => stateHostsReleaseIp m s (some addr)) s = some s' ∧ s'.strpool.strs = ∅

def Fresh (t : Transition (Option Conf) Event) : Prop :=
  match t.event with
  | .register (some addr) hostid => hostid ≠ 0 → registered t.past addr = 0
  | _ => True

lemma registered_append (past : List Event) (e : Event) :
    registered (past ++ [e]) = registerStep (registered past) e := by
  rw [registered, List.foldl_append]
  rfl

def registeredAddrs (es : List Event) : List CString :=
  es.filterMap fun e =>
    match e with
    | .register addr _ => addr
    | _ => none

lemma mem_registeredAddrs (es : List Event) (addr : CString) (h : registered es addr ≠ 0) :
    addr ∈ registeredAddrs es := by
  induction es using List.reverseRecOn with
  | nil => exact absurd rfl h
  | append_singleton es e ih =>
    rw [registeredAddrs, List.filterMap_append, List.mem_append]
    rw [registered_append] at h
    by_cases hpast : registered es addr = 0
    · right
      cases e with
      | register addr' hostid =>
        cases addr' with
        | none => exact absurd hpast h
        | some a =>
          have ha : addr = a := by
            by_contra hne
            rw [registerStep] at h
            split_ifs at h
            · exact h hpast
            · exact h ((Function.update_of_ne hne _ _).trans hpast)
          simp [ha]
      | release addr' =>
        cases addr' with
        | none => exact absurd hpast h
        | some a =>
          rw [registerStep] at h
          by_cases ha : addr = a
          · subst ha
            exact absurd (Function.update_self _ _ _) h
          · exact absurd ((Function.update_of_ne ha _ _).trans hpast) h
      | find addr' => exact absurd hpast h
    · exact .inl (ih hpast)

lemma Holds.accounted {past : List Event} {e : Event} {source : Option Conf}
    (h : Holds s (registered (past ++ [e])) fun _ => 0) : Accounted m ⟨past, source, e, some s⟩ := by
  refine ⟨s, rfl, fun addr => ?_, fun addrs hall => ?_⟩
  · have hfits : (fun _ : CString => 0) addr < 4294967293 := Nat.zero_lt_succ _
    obtain ⟨s', hrun, -⟩ := h.find m hfits
    exact ⟨s', hrun⟩
  · obtain ⟨s', hrun, hend⟩ := h.release_all (m := m) (fun _ => by omega) addrs
    refine ⟨s', hrun, hend.counts.empty fun addr => ?_⟩
    have hzero : (if addr ∈ addrs then 0 else registered (past ++ [e]) addr) = 0 := by
      by_cases hin : addr ∈ addrs
      · exact if_pos hin
      · rw [if_neg hin]
        exact not_not.mp (mt (hall addr) hin)
    rw [references, if_pos hzero]

lemma Holds.not_accounted {past : List Event} {e : Event} {source : Option Conf} {addr : CString}
    (h : Holds s (registered (past ++ [e])) left) (hleft : left addr ≠ 0) (hfits : ∀ t, left t < 4294967293) :
    ¬ Accounted m ⟨past, source, e, some s⟩ := by
  rintro ⟨s₁, hs₁, -, hall⟩
  obtain rfl := Option.some.inj hs₁
  obtain ⟨s', hrun, hempty⟩ := hall _ (mem_registeredAddrs _)
  obtain ⟨s₂, hrun₂, hend⟩ := h.release_all (m := m) hfits (registeredAddrs (past ++ [e]))
  obtain rfl := Option.some.inj (hrun.symm.trans hrun₂)
  obtain ⟨ptr, r, hr, -⟩ := hend.counts.held addr (by rw [references]; omega)
  rw [hempty] at hr
  cases hr

lemma Holds.step {past : List Event} (h : Holds s (registered past) fun _ => 0) (e : Event) :
    ∃ s' left, step m (some s) e = some s' ∧ Holds s' (registered (past ++ [e])) left ∧ (∀ t, left t ≤ 1) ∧
      ((∀ t, left t = 0) ↔ Fresh ⟨past, some s, e, step m (some s) e⟩) := by
  have hfits : ∀ t, (fun _ : CString => 0) t < 4294967293 := fun _ => Nat.zero_lt_succ _
  rw [registered_append]
  cases e with
  | register addr hostid =>
    cases addr with
    | none => exact ⟨s, fun _ => 0, rfl, h, fun _ => Nat.zero_le _, iff_of_true (fun _ => rfl) trivial⟩
    | some addr =>
      by_cases hzero : hostid = 0
      · subst hzero
        exact ⟨s, fun _ => 0, rfl, h, fun _ => Nat.zero_le _, iff_of_true (fun _ => rfl) fun hne => absurd rfl hne⟩
      · obtain ⟨s', hrun, hend⟩ := h.register m (hfits addr) hzero
        have hleft : ∀ t, leftBy (registered past) (fun _ => 0) addr t =
            if t = addr ∧ registered past addr ≠ 0 then 1 else 0 := fun t => Nat.zero_add _
        refine ⟨s', leftBy (registered past) (fun _ => 0) addr, ?_, ?_, ?_, ?_⟩
        · rw [HostIps.step, Option.bind_some, hrun]
          rfl
        · rw [registerStep, if_neg hzero]
          exact hend
        · intro t
          rw [hleft]
          split_ifs <;> omega
        · constructor
          · intro hall _
            have := hall addr
            rw [hleft] at this
            by_contra hne
            rw [if_pos ⟨rfl, hne⟩] at this
            cases this
          · intro hfresh t
            rw [hleft, if_neg fun hold => hold.2 (hfresh hzero)]
  | release addr =>
    cases addr with
    | none => exact ⟨s, fun _ => 0, h.release_null (m := m), h, fun _ => Nat.zero_le _, iff_of_true (fun _ => rfl) trivial⟩
    | some addr =>
      obtain ⟨s', hrun, hend⟩ := h.release m (hfits addr)
      exact ⟨s', fun _ => 0, hrun, hend, fun _ => Nat.zero_le _, iff_of_true (fun _ => rfl) trivial⟩
  | find addr =>
    cases addr with
    | none => exact ⟨s, fun _ => 0, rfl, h, fun _ => Nat.zero_le _, iff_of_true (fun _ => rfl) trivial⟩
    | some addr =>
      obtain ⟨s', hrun, hend⟩ := h.find m (hfits addr)
      refine ⟨s', fun _ => 0, ?_, hend, fun _ => Nat.zero_le _, iff_of_true (fun _ => rfl) trivial⟩
      rw [HostIps.step, Option.bind_some, hrun]
      rfl

theorem references_given_back_iff (m : Malloc) (es : List Event) :
    (∀ t ∈ transitions (step m) (some stateHostsInit) es, Accounted m t) ↔
      ∀ t ∈ transitions (step m) (some stateHostsInit) es, Fresh t := by
  apply transitions_iff fun past source => ∃ s, source = some s ∧ Holds s (registered past) fun _ => 0
  · exact ⟨_, rfl, holds_init⟩
  · rintro past source e ⟨s, rfl, h⟩
    obtain ⟨s', left, hrun, hend, hle, hfresh⟩ := h.step (m := m) e
    have hzero : (∀ t, left t = 0) → left = fun _ => 0 := fun hall => funext hall
    rw [hrun] at hfresh ⊢
    have hiff : Accounted m ⟨past, some s, e, some s'⟩ ↔ ∀ t, left t = 0 := by
      constructor
      · intro hacc
        by_contra hne
        obtain ⟨addr, haddr⟩ := not_forall.mp hne
        exact hend.not_accounted haddr (fun t => (hle t).trans_lt (by omega)) hacc
      · intro hall
        rw [hzero hall] at hend
        exact hend.accounted
    refine ⟨hiff.trans hfresh, fun hacc => ⟨s', rfl, ?_⟩⟩
    rwa [← hzero (hiff.mp hacc)]

-- "10.0.0.1"
def secondRegistration : List Event :=
  [.register (some [49, 48, 46, 48, 46, 48, 46, 49]) 1, .register (some [49, 48, 46, 48, 46, 48, 46, 49]) 2,
    .release (some [49, 48, 46, 48, 46, 48, 46, 49])]

theorem second_registration_leaks :
    (∃ s, secondRegistration.foldl (step Malloc.bump) (some stateHostsInit) = some s ∧
      (∀ addr, registered secondRegistration addr = 0) ∧ s.strpool.strs ≠ ∅) ∧
    ¬ ∀ t ∈ transitions (step Malloc.bump) (some stateHostsInit) secondRegistration, Accounted Malloc.bump t := by
  have hrun : (secondRegistration.foldl (step Malloc.bump) (some stateHostsInit)).map
      (fun s => s.strpool.strs.keys) = some [1] := by decide
  obtain ⟨s, hs, hkeys⟩ := Option.map_eq_some_iff.mp hrun
  have hne : s.strpool.strs ≠ ∅ := by
    intro hempty
    rw [hempty] at hkeys
    cases hkeys
  have hzero : ∀ addr, registered secondRegistration addr = 0 := by
    intro addr
    by_contra hne
    have hmem := mem_registeredAddrs _ addr hne
    obtain rfl : addr = [49, 48, 46, 48, 46, 48, 46, 49] := by simpa [secondRegistration, registeredAddrs] using hmem
    exact hne rfl
  refine ⟨⟨s, hs, hzero, hne⟩, fun hall => ?_⟩
  simp only [transitions, secondRegistration, transitionsFrom, List.forall_mem_cons] at hall
  obtain ⟨s₁, hs₁, -, hdrain⟩ := hall.2.2.1
  obtain ⟨s', hrun', hempty⟩ := hdrain [] fun addr h => absurd (hzero addr) h
  obtain rfl : s₁ = s' := Option.some.inj hrun'
  obtain rfl : s₁ = s := Option.some.inj (hs₁.symm.trans hs)
  exact hne hempty

end

end Glaber.State.HostIps
