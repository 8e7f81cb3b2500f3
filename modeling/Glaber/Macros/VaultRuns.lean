import Glaber.Macros.Vault

namespace Glaber.Macros

open Lib

section

inductive VaultOp where
  | register (m : Macro) (location : Text)
  | deregister (m : Macro)

def VaultOp.macro : VaultOp → Macro
  | .register m _ => m
  | .deregister m => m

variable (vault : ConfigVault)

def vaultStep (reg : Registry) : VaultOp → Option Registry
  | .register m location => (umMacroRegisterKvs vault reg m location).map Prod.fst
  | .deregister m => umMacroDeregisterKvs reg m

def vaultRun (ops : List VaultOp) : Option Registry := ops.foldlM (vaultStep vault) noKvs

abbrev Current := Table → ℕ → Option (ℕ × Place)

def Current.set (cur : Current) (m : Macro) (entry : Option (ℕ × Place)) : Current :=
  Function.update cur (kvTable m.hostid) (Function.update (cur (kvTable m.hostid)) m.macroid entry)

-- A macro whose registration is refused keeps the location it had.
def Current.apply (cur : Current) : VaultOp → Current
  | .register m location =>
    match vaultLocation vault location with
    | none => cur
    | some place => cur.set m (some (m.hostid, place))
  | .deregister m => cur.set m none

def currentAfter (ops : List VaultOp) : Current :=
  ops.foldl (Current.apply vault) fun _ _ => none

def KeepsHost (cur : Current) (m : Macro) : Prop :=
  ∀ hostid place, cur (kvTable m.hostid) m.macroid = some (hostid, place) → hostid = m.hostid

def NeverMoved (vault : ConfigVault) : Current → List VaultOp → Prop
  | _, [] => True
  | cur, op :: ops => KeepsHost cur op.macro ∧ NeverMoved vault (cur.apply vault op) ops

def AtPlace (cur : Current) (place : Place) (pair : ℕ × ℕ) : Prop := cur (kvTable pair.1) pair.2 = some (pair.1, place)

structure Lists (reg : Registry) (listed : Place → ℕ × ℕ → Prop) (fresh : Place → Prop) : Prop where
  mem_iff : ∀ place pair, (∃ kv, reg.kvsPaths.get place = some kv ∧ pair ∈ kv.macros) ↔ listed place pair
  nodup : ∀ place kv, reg.kvsPaths.get place = some kv → kv.macros.Nodup
  empty : ∀ place kv, reg.kvsPaths.get place = some kv → kv.macros = [] → fresh place
  full : reg.kvsPaths.Full

structure Tracks (reg : Registry) (cur : Current) : Prop where
  lists : Lists reg (AtPlace cur) fun _ => False
  search : ∀ table macroid, (reg.macroKv table).lookup macroid = (cur table macroid).map Prod.snd

end

section

variable {vault : ConfigVault} {reg reg' : Registry} {cur : Current} {m : Macro} {mkv place : Place}

lemma Current.set_self (cur : Current) (m : Macro) (entry : Option (ℕ × Place)) :
    cur.set m entry (kvTable m.hostid) m.macroid = entry := by
  rw [Current.set, Function.update_self, Function.update_self]

lemma Current.set_other {table : Table} {macroid : ℕ} (h : ¬ (table = kvTable m.hostid ∧ macroid = m.macroid))
    (cur : Current) (entry : Option (ℕ × Place)) : cur.set m entry table macroid = cur table macroid := by
  rw [Current.set]
  by_cases htable : table = kvTable m.hostid
  · rw [htable, Function.update_self, Function.update_of_ne fun hid => h ⟨htable, hid⟩]
  · rw [Function.update_of_ne htable]

lemma atPlace_set_none (hcur : cur (kvTable m.hostid) m.macroid = some (m.hostid, mkv)) (p : Place) (pair : ℕ × ℕ) :
    AtPlace (cur.set m none) p pair ↔ AtPlace cur p pair ∧ ¬ (p = mkv ∧ pair = m.pair) := by
  rw [AtPlace, AtPlace]
  by_cases hsame : kvTable pair.1 = kvTable m.hostid ∧ pair.2 = m.macroid
  · rw [hsame.1, hsame.2, Current.set_self, hcur]
    constructor
    · intro hnone
      cases hnone
    · rintro ⟨hat, hno⟩
      obtain ⟨hhost, hmkv⟩ := Prod.mk.inj (Option.some.inj hat)
      exact absurd ⟨hmkv.symm, Prod.ext hhost.symm hsame.2⟩ hno
  · have hne : pair ≠ m.pair := by
      rintro rfl
      exact hsame ⟨rfl, rfl⟩
    rw [Current.set_other hsame]
    simp [hne]

lemma atPlace_set_some (cur : Current) (m : Macro) (place p : Place) (pair : ℕ × ℕ) :
    AtPlace (cur.set m (some (m.hostid, place))) p pair ↔ AtPlace (cur.set m none) p pair ∨ p = place ∧ pair = m.pair := by
  rw [AtPlace, AtPlace]
  by_cases hsame : kvTable pair.1 = kvTable m.hostid ∧ pair.2 = m.macroid
  · rw [hsame.1, hsame.2, Current.set_self, Current.set_self]
    simp only [Option.some.injEq, Prod.mk.injEq, reduceCtorEq, false_or]
    constructor
    · rintro ⟨hhost, rfl⟩
      exact ⟨rfl, Prod.ext hhost.symm hsame.2⟩
    · rintro ⟨rfl, rfl⟩
      exact ⟨rfl, rfl⟩
  · have hne : pair ≠ m.pair := by
      rintro rfl
      exact hsame ⟨rfl, rfl⟩
    rw [Current.set_other hsame, Current.set_other hsame]
    simp [hne]

lemma set_same {entry : Option (ℕ × Place)} (h : cur (kvTable m.hostid) m.macroid = entry) : cur.set m entry = cur := by
  rw [Current.set, ← h, Function.update_eq_self, Function.update_eq_self]

lemma kvRemove_removes {kv : Kv} (hfull : reg.kvsPaths.Full) (hget : reg.kvsPaths.get mkv = some kv)
    (hmem : m.pair ∈ kv.macros) (hnodup : kv.macros.Nodup) :
    ∃ reg', umMacroKvRemove reg m mkv = some reg' ∧ reg'.kvsPaths.Full ∧
      (∀ kv', reg'.kvsPaths.get mkv = some kv' → kv'.macros.Nodup ∧ kv'.macros ≠ []) ∧
      ∀ pair, (∃ kv', reg'.kvsPaths.get mkv = some kv' ∧ pair ∈ kv'.macros) ↔ pair ≠ m.pair ∧ pair ∈ kv.macros := by
  obtain ⟨i, hi⟩ := Option.isSome_iff_exists.1 (List.isSome_idxOf?.2 hmem)
  have herase : kv.macros.erase m.pair = kv.macros.eraseIdx i := by rw [List.erase_eq_eraseIdx, hi]
  have hlt : i < kv.macros.length := (List.idxOf?_eq_some_iff.1 hi).1
  have hperm : (Algo.Vector.removeNoorder kv.macros i).Perm (kv.macros.erase m.pair) := by
    rw [herase]
    exact Algo.Vector.removeNoorder_perm kv.macros hlt
  have hmacros : ∀ pair, pair ∈ Algo.Vector.removeNoorder kv.macros i ↔ pair ≠ m.pair ∧ pair ∈ kv.macros := fun pair => by
    rw [hperm.mem_iff, hnodup.mem_erase_iff]
  have heval : umMacroKvRemove reg m mkv =
      some ⟨if (Algo.Vector.removeNoorder kv.macros i).length = 0 then reg.kvsPaths.drop mkv
        else reg.kvsPaths.put mkv { kv with macros := Algo.Vector.removeNoorder kv.macros i }, reg.macroKv⟩ := by
    rw [umMacroKvRemove, hget, Option.bind_eq_bind, Option.bind_some, hi]
    simp only
    split_ifs <;> rfl
  refine ⟨_, heval, ?_, ?_, fun pair => ?_⟩
  · simp only
    split_ifs
    · exact hfull.drop mkv
    · exact hfull.put mkv _
  · intro kv' hkv'
    simp only at hkv'
    split_ifs at hkv' with hempty
    · rw [Nested.get_drop_self] at hkv'
      cases hkv'
    · rw [Nested.get_put_self] at hkv'
      obtain rfl := Option.some.inj hkv'
      exact ⟨hperm.nodup_iff.2 (hnodup.erase _), fun hnil => hempty (List.length_eq_zero_iff.2 hnil)⟩
  · rw [← hmacros]
    simp only
    split_ifs with hempty
    · rw [List.length_eq_zero_iff.1 hempty, Nested.get_drop_self]
      simp
    · rw [Nested.get_put_self]
      simp

end

section

variable {reg reg' : Registry} {m : Macro} {mkv place : Place} {listed : Place → ℕ × ℕ → Prop} {fresh : Place → Prop}

lemma Lists.congr {listed' : Place → ℕ × ℕ → Prop} (h : Lists reg listed fresh)
    (heq : ∀ p pair, listed' p pair ↔ listed p pair) : Lists reg listed' fresh where
  mem_iff p pair := (h.mem_iff p pair).trans (heq p pair).symm
  nodup := h.nodup
  empty := h.empty
  full := h.full

lemma Lists.acquire (h : Lists reg listed fun _ => False) (place : Place) :
    Lists (acquireKv reg place) listed fun p => p = place := by
  cases hget : reg.kvsPaths.get place with
  | some kv =>
    rw [acquireKv_of_some hget]
    exact ⟨h.mem_iff, h.nodup, fun p kv hkv hnil => (h.empty p kv hkv hnil).elim, h.full⟩
  | none =>
    have hself := acquireKv_get_self reg place
    rw [hget, Option.getD_none] at hself
    refine ⟨fun p pair => ?_, fun p kv hkv => ?_, fun p kv hkv hnil => ?_, ?_⟩
    · rw [← h.mem_iff]
      by_cases hp : p = place
      · rw [hp, hself, hget]
        simp
      · rw [acquireKv_get_ne hp]
    · by_cases hp : p = place
      · rw [hp, hself] at hkv
        obtain rfl := Option.some.inj hkv
        exact List.nodup_nil
      · rw [acquireKv_get_ne hp] at hkv
        exact h.nodup p kv hkv
    · by_contra hp
      rw [acquireKv_get_ne hp] at hkv
      exact h.empty p kv hkv hnil
    · rw [acquireKv, hget]
      exact h.full.put _ _

lemma Lists.remove (h : Lists reg listed fresh) (hlisted : listed mkv m.pair) :
    ∃ reg', umMacroKvRemove reg m mkv = some reg' ∧ reg'.macroKv = reg.macroKv ∧
      Lists reg' (fun p pair => listed p pair ∧ ¬ (p = mkv ∧ pair = m.pair)) fresh := by
  obtain ⟨kv, hget, hmem⟩ := (h.mem_iff mkv m.pair).2 hlisted
  obtain ⟨reg', hremove, hfull, hentry, hpairs⟩ := kvRemove_removes h.full hget hmem (h.nodup mkv kv hget)
  obtain ⟨hkv, hother⟩ := kvRemove_spec hremove
  refine ⟨reg', hremove, hkv, fun p pair => ?_, fun p kv' hkv' => ?_, fun p kv' hkv' hnil => ?_, hfull⟩
  · by_cases hp : p = mkv
    · rw [hp, hpairs, ← h.mem_iff, hget]
      simp [and_comm]
    · rw [hother p hp, h.mem_iff]
      simp [hp]
  · by_cases hp : p = mkv
    · exact (hentry kv' (hp ▸ hkv')).1
    · exact h.nodup p kv' (hother p hp ▸ hkv')
  · by_cases hp : p = mkv
    · exact ((hentry kv' (hp ▸ hkv')).2 hnil).elim
    · exact h.empty p kv' (hother p hp ▸ hkv') hnil

lemma Lists.attach {kv : Kv} (h : Lists reg listed fun p => p = place) (hget : reg.kvsPaths.get place = some kv)
    (hnew : ¬ listed place m.pair) :
    ∃ reg', attachMacro reg m place = some reg' ∧
      reg'.macroKv = Function.update reg.macroKv (kvTable m.hostid) ((reg.macroKv (kvTable m.hostid)).insert m.macroid place) ∧
      Lists reg' (fun p pair => listed p pair ∨ p = place ∧ pair = m.pair) fun _ => False := by
  have hout : m.pair ∉ kv.macros := fun hmem => hnew ((h.mem_iff place m.pair).1 ⟨kv, hget, hmem⟩)
  refine ⟨_, attachMacro_eq hget, rfl, fun p pair => ?_, fun p kv' hkv' => ?_, fun p kv' hkv' hnil => ?_, h.full.put _ _⟩
  · by_cases hp : p = place
    · rw [hp, Nested.get_put_self, ← h.mem_iff, hget]
      simp
    · rw [Nested.get_put_ne hp, h.mem_iff]
      simp [hp]
  · by_cases hp : p = place
    · rw [hp, Nested.get_put_self] at hkv'
      obtain rfl := Option.some.inj hkv'
      rw [List.nodup_append]
      exact ⟨h.nodup place kv hget, List.nodup_singleton _, fun a ha b hb => by
        rintro rfl
        exact hout (List.mem_singleton.1 hb ▸ ha)⟩
    · rw [Nested.get_put_ne hp] at hkv'
      exact h.nodup p kv' hkv'
  · by_cases hp : p = place
    · rw [hp, Nested.get_put_self] at hkv'
      obtain rfl := Option.some.inj hkv'
      simp at hnil
    · rw [Nested.get_put_ne hp] at hkv'
      exact hp (h.empty p kv' hkv' hnil)

end

section

variable {vault : ConfigVault} {reg : Registry} {cur : Current} {m : Macro} {place : Place} {location : Text}

lemma Tracks.search_eq (h : Tracks reg cur) (m : Macro) :
    reg.search m = (cur (kvTable m.hostid) m.macroid).map Prod.snd := h.search _ _

lemma search_set {macroKv : Table → AList fun _ : ℕ => Place} {entry : Option (ℕ × Place)}
    {inner : AList fun _ : ℕ => Place} (h : ∀ table macroid, (macroKv table).lookup macroid = (cur table macroid).map Prod.snd)
    (hself : inner.lookup m.macroid = entry.map Prod.snd)
    (hother : ∀ macroid, macroid ≠ m.macroid → inner.lookup macroid = (macroKv (kvTable m.hostid)).lookup macroid)
    (table : Table) (macroid : ℕ) :
    (Function.update macroKv (kvTable m.hostid) inner table).lookup macroid = (cur.set m entry table macroid).map Prod.snd := by
  by_cases htable : table = kvTable m.hostid
  · rw [htable, Function.update_self]
    by_cases hid : macroid = m.macroid
    · rw [hid, hself, Current.set_self]
    · rw [hother macroid hid, h, Current.set_other fun hsame => hid hsame.2]
  · rw [Function.update_of_ne htable, h, Current.set_other fun hsame => htable hsame.1]

lemma Tracks.deregister (h : Tracks reg cur) (hkeeps : KeepsHost cur m) :
    ∃ reg', umMacroDeregisterKvs reg m = some reg' ∧ Tracks reg' (cur.set m none) := by
  have hsearch := h.search_eq m
  rw [umMacroDeregisterKvs]
  cases hcur : cur (kvTable m.hostid) m.macroid with
  | none =>
    rw [hcur] at hsearch
    rw [hsearch, set_same hcur]
    exact ⟨reg, rfl, h⟩
  | some entry =>
    obtain ⟨hostid, mkv⟩ := entry
    obtain rfl := hkeeps hostid mkv hcur
    rw [hcur] at hsearch
    rw [hsearch]
    obtain ⟨reg₁, hremove, hkv, hlists⟩ := h.lists.remove (m := m) hcur
    refine ⟨_, by rw [Option.map_some]; simp only [hremove, Option.bind_eq_bind, Option.bind_some]; rfl, ?_, ?_⟩
    · have hset := hlists.congr (atPlace_set_none hcur)
      exact ⟨hset.mem_iff, hset.nodup, hset.empty, hset.full⟩
    · rw [hkv]
      exact search_set h.search (AList.lookup_erase _ _) fun _ hne => AList.lookup_erase_ne hne

lemma attach_tracks {kv : Kv} {listed : Place → ℕ × ℕ → Prop} (hlists : Lists reg listed fun p => p = place)
    (hlisted : ∀ p pair, AtPlace (cur.set m none) p pair ↔ listed p pair)
    (hsearch : ∀ table macroid, (reg.macroKv table).lookup macroid = (cur table macroid).map Prod.snd)
    (hget : reg.kvsPaths.get place = some kv) :
    ∃ reg', attachMacro reg m place = some reg' ∧ Tracks reg' (cur.set m (some (m.hostid, place))) := by
  have hnew : ¬ listed place m.pair := by
    rw [← hlisted, AtPlace, Macro.pair, Current.set_self]
    exact Option.some_ne_none _ ∘ Eq.symm
  obtain ⟨reg', hattach, hkv, hlists'⟩ := hlists.attach hget hnew
  refine ⟨reg', hattach, hlists'.congr fun p pair => ?_, ?_⟩
  · rw [atPlace_set_some, hlisted]
  · rw [hkv]
    exact search_set hsearch (AList.lookup_insert _) fun _ hne => AList.lookup_insert_ne hne

lemma Tracks.register (h : Tracks reg cur) (hkeeps : KeepsHost cur m) (hplace : vaultLocation vault location = some place) :
    ∃ reg' m', umMacroRegisterKvs vault reg m location = some (reg', m') ∧ Tracks reg' (cur.set m (some (m.hostid, place))) := by
  have hsearch : (acquireKv reg place).search m = (cur (kvTable m.hostid) m.macroid).map Prod.snd := by
    rw [Registry.search, acquireKv_macroKv, h.search]
  have htables : ∀ table macroid, ((acquireKv reg place).macroKv table).lookup macroid = (cur table macroid).map Prod.snd := by
    rw [acquireKv_macroKv]
    exact h.search
  have hself := acquireKv_get_self reg place
  have hlists := h.lists.acquire place
  rw [umMacroRegisterKvs, hplace]
  simp only
  cases hcur : cur (kvTable m.hostid) m.macroid with
  | none =>
    rw [hcur] at hsearch
    obtain ⟨reg', hattach, htracks⟩ := attach_tracks hlists (by rw [set_same hcur]; exact fun _ _ => Iff.rfl) htables hself
    refine ⟨reg', m, ?_, htracks⟩
    rw [hsearch, Option.map_none]
    simp only [hattach, Option.bind_eq_bind, Option.bind_some]
    rfl
  | some entry =>
    obtain ⟨hostid, mkv⟩ := entry
    obtain rfl := hkeeps hostid mkv hcur
    rw [hcur, Option.map_some] at hsearch
    rw [hsearch]
    simp only
    by_cases hsame : mkv = place
    · -- the macro is there already
      subst hsame
      obtain ⟨kv, hkv, -⟩ := (h.lists.mem_iff mkv m.pair).2 hcur
      rw [if_pos rfl, acquireKv_of_some hkv, set_same hcur]
      exact ⟨reg, m, rfl, h⟩
    · obtain ⟨reg₁, hremove, hkv, hlists₁⟩ := hlists.remove (m := m) hcur
      have hget := (kvRemove_spec hremove).2 place (Ne.symm hsame)
      rw [hself] at hget
      obtain ⟨reg', hattach, htracks⟩ := attach_tracks hlists₁ (atPlace_set_none hcur) (hkv ▸ htables) hget
      refine ⟨reg', { m with value := none }, ?_, htracks⟩
      rw [if_neg hsame, hremove]
      simp only [hattach, Option.bind_eq_bind, Option.bind_some]
      rfl

lemma Tracks.step (h : Tracks reg cur) {op : VaultOp} (hkeeps : KeepsHost cur op.macro) :
    ∃ reg', vaultStep vault reg op = some reg' ∧ Tracks reg' (cur.apply vault op) := by
  cases op with
  | register m location =>
    rw [vaultStep, Current.apply]
    cases hplace : vaultLocation vault location with
    | none => exact ⟨reg, by rw [umMacroRegisterKvs, hplace]; rfl, h⟩
    | some place =>
      obtain ⟨reg', m', hregister, htracks⟩ := h.register (m := m) hkeeps hplace
      exact ⟨reg', by rw [hregister]; rfl, htracks⟩
  | deregister m => exact h.deregister hkeeps

lemma tracks_start : Tracks noKvs fun _ _ => none where
  lists := by
    have hnone (p : Place) : noKvs.kvsPaths.get p = none := rfl
    refine ⟨fun p pair => ?_, fun p kv hkv => ?_, fun p kv hkv => ?_, Nested.full_empty⟩
    · simp [hnone, AtPlace]
    · rw [hnone] at hkv
      cases hkv
    · rw [hnone] at hkv
      cases hkv
  search _ _ := rfl

lemma Tracks.run (h : Tracks reg cur) {ops : List VaultOp} (hmoved : NeverMoved vault cur ops) :
    ∃ reg', ops.foldlM (vaultStep vault) reg = some reg' ∧ Tracks reg' (ops.foldl (Current.apply vault) cur) := by
  induction ops generalizing reg cur with
  | nil => exact ⟨reg, rfl, h⟩
  | cons op ops ih =>
    obtain ⟨reg₁, hstep, htracks⟩ := h.step hmoved.1
    obtain ⟨reg', hrun, hend⟩ := ih htracks hmoved.2
    exact ⟨reg', by rw [List.foldlM_cons, hstep]; exact hrun, hend⟩

theorem vault_registration (vault : ConfigVault) :
    (∀ ops, NeverMoved vault (fun _ _ => none) ops →
      ∃ reg, vaultRun vault ops = some reg ∧ Lists reg (AtPlace (currentAfter vault ops)) fun _ => False) ∧
    ∀ reg m location reg' m' place, vaultLocation vault location = some place →
      umMacroRegisterKvs vault reg m location = some (reg', m') → ∀ location', ':' ∈ location' →
        (((umMacroCheckVaultLocation reg' m' location' = some true) ↔
          umMacroRegisterKvs vault reg' m' location' = some (reg', m')) ↔ SplitsAlike vault location location') := by
  constructor
  · intro ops hmoved
    obtain ⟨reg, hrun, htracks⟩ := tracks_start.run hmoved
    exact ⟨reg, hrun, htracks.lists⟩
  · intro reg m location reg' m' place hplace hregister location' hcolon
    exact check_agrees_iff hplace hregister hcolon

def vaultMacro (hostid : ℕ) : Macro := ⟨10, hostid, "\x7b$A\x7d".toList, none, none, .vault, .equal⟩

theorem vault_registration_twice :
    ∃ reg, vaultRun ⟨true, none⟩ [.register (vaultMacro 5) "zabbix:a".toList, .register (vaultMacro 5) "zabbix:b".toList] =
      some reg ∧ Lists reg (AtPlace (currentAfter ⟨true, none⟩
        [.register (vaultMacro 5) "zabbix:a".toList, .register (vaultMacro 5) "zabbix:b".toList])) fun _ => False := by
  refine (vault_registration ⟨true, none⟩).1 _ ⟨?_, ?_, trivial⟩
  · intro hostid place h
    cases h
  · intro hostid place h
    cases h
    rfl

theorem registration_not_checked :
    (∃ reg m, umMacroRegisterKvs ⟨true, none⟩ noKvs (vaultMacro 5) "zabbix:a:b".toList = some (reg, m) ∧
      umMacroRegisterKvs ⟨true, none⟩ reg m "zabbix:a:b".toList = some (reg, m) ∧
      umMacroCheckVaultLocation reg m "zabbix:a:b".toList = some false) ∧
    ∃ reg kv, vaultRun ⟨true, none⟩ [.register (vaultMacro 5) "zabbix:a".toList, .register (vaultMacro 6) "zabbix:b".toList] =
      some reg ∧ reg.kvsPaths.get ("zabbix".toList, "a".toList) = some kv ∧ (5, 10) ∈ kv.macros := by
  refine ⟨⟨_, _, rfl, rfl, rfl⟩, _, _, rfl, rfl, by decide⟩

end

end Glaber.Macros
