import Glaber.Algo.Vector
import Glaber.Lib.Nested
import Glaber.Macros.Name

/-! The registry of the macros whose values stand in a vault (`user_macro.c`): under every path and key, the macros that refer
to it. A pointer to an entry is the path and the key that it stands under; `none` is an access to an entry that was freed, or
through `NULL`. -/

namespace Glaber.Macros

open Lib

section

inductive MacroType where
  | text
  | secret
  | vault
deriving DecidableEq

inductive Table where
  | global
  | host
deriving DecidableEq

/-- `zbx_um_macro_t`, without its reference counter. -/
structure Macro where
  macroid : ℕ
  hostid : ℕ
  name : Text
  context : Option Text
  value : Option Text
  type : MacroType
  contextOp : ContextOp
deriving DecidableEq

def kvTable (hostid : ℕ) : Table := if hostid = 0 then .global else .host

def strsplitFirst (src : Text) (delimiter : Char) : Option (Text × Text) :=
  if delimiter ∈ src then some (src.takeWhile (· ≠ delimiter), (src.dropWhile (· ≠ delimiter)).tail) else none

structure Kv where
  value : Option Text
  macros : List (ℕ × ℕ)
  update : Bool
deriving DecidableEq

abbrev Place := Text × Text

structure Registry where
  kvsPaths : Nested Text Text Kv
  macroKv : Table → AList fun _ : ℕ => Place

def noKvs : Registry := ⟨∅, fun _ => ∅⟩

def Macro.pair (m : Macro) : ℕ × ℕ := (m.hostid, m.macroid)

variable (reg : Registry)

def Registry.search (m : Macro) : Option Place := (reg.macroKv (kvTable m.hostid)).lookup m.macroid

def umMacroKvRemove (m : Macro) (mkv : Place) : Option Registry := do
  let kv ← reg.kvsPaths.get mkv
  match kv.macros.idxOf? m.pair with
  | none => return reg
  | some i =>
    let macros := Algo.Vector.removeNoorder kv.macros i
    if macros.length = 0 then return { reg with kvsPaths := reg.kvsPaths.drop mkv }
    else return { reg with kvsPaths := reg.kvsPaths.put mkv { kv with macros := macros } }

def acquireKv (place : Place) : Registry :=
  match reg.kvsPaths.get place with
  | none => { reg with kvsPaths := reg.kvsPaths.put place ⟨none, [], false⟩ }
  | some _ => reg

def attachMacro (m : Macro) (place : Place) : Option Registry := do
  let kv ← reg.kvsPaths.get place
  let table := kvTable m.hostid
  return {
    kvsPaths := reg.kvsPaths.put place { kv with update := true, macros := kv.macros ++ [m.pair] }
    macroKv := Function.update reg.macroKv table ((reg.macroKv table).insert m.macroid place) }

def umMacroRegisterKvs (vault : ConfigVault) (reg : Registry) (m : Macro) (location : Text) : Option (Registry × Macro) :=
  match vaultLocation vault location with
  | none => some (reg, m)
  | some place =>
    let reg := acquireKv reg place
    match reg.search m with
    | some mkv =>
      if mkv = place then some (reg, m)
      else do
        let reg ← umMacroKvRemove reg m mkv
        let reg ← attachMacro reg m place
        return (reg, { m with value := none })
    | none => do
      let reg ← attachMacro reg m place
      return (reg, m)

def umMacroDeregisterKvs (m : Macro) : Option Registry :=
  match reg.search m with
  | none => some reg
  | some mkv => do
    let reg ← umMacroKvRemove reg m mkv
    let table := kvTable m.hostid
    return { reg with macroKv := Function.update reg.macroKv table ((reg.macroKv table).erase m.macroid) }

def umMacroCheckVaultLocation (m : Macro) (location : Text) : Option Bool :=
  match reg.search m with
  | none => some false
  | some mkv =>
    match strsplitFirst location ':' with
    | none => if (reg.kvsPaths.lookup location).isSome then none else some false
    | some place =>
      match reg.kvsPaths.get place with
      | none => some false
      | some _ => some (decide (mkv = place))

end

section

variable {src l r : Text} {d : Char}

lemma strsplitFirst_append (h : d ∉ l) : strsplitFirst (l ++ d :: r) d = some (l, r) := by
  have hall : ∀ c ∈ l, decide (c ≠ d) = true := fun c hc => decide_eq_true (ne_of_mem_of_not_mem hc h)
  rw [strsplitFirst, if_pos (by simp), List.takeWhile_append_of_pos hall, List.dropWhile_append_of_pos hall]
  simp

lemma strsplitLast_append (h : d ∉ r) : strsplitLast (l ++ d :: r) d = some (l, r) := by
  have hall : ∀ c ∈ r.reverse, (c != d) = true := by
    intro c hc
    exact bne_iff_ne.2 (ne_of_mem_of_not_mem (List.mem_reverse.1 hc) h)
  rw [strsplitLast, if_pos (by simp), List.reverse_append, List.reverse_cons, List.append_assoc,
    List.takeWhile_append_of_pos hall]
  have hlength : l.length + (r.length + 1) - r.length - 1 = l.length := by omega
  simp [hlength]

lemma exists_split_last (h : d ∈ src) : ∃ l r, src = l ++ d :: r ∧ d ∉ r := by
  obtain ⟨l, r, hsrc, hno⟩ := List.eq_append_cons_of_mem (List.mem_reverse.2 h)
  refine ⟨r.reverse, l.reverse, ?_, mt List.mem_reverse.1 hno⟩
  rw [← List.reverse_reverse src, hsrc]
  simp

lemma strsplitFirst_iff : strsplitFirst src d = some (l, r) ↔ src = l ++ d :: r ∧ d ∉ l := by
  constructor
  · intro h
    have hmem : d ∈ src := by
      by_contra hno
      rw [strsplitFirst, if_neg hno] at h
      cases h
    obtain ⟨l', r', rfl, hno⟩ := List.eq_append_cons_of_mem hmem
    rw [strsplitFirst_append hno] at h
    cases h
    exact ⟨rfl, hno⟩
  · rintro ⟨rfl, hno⟩
    exact strsplitFirst_append hno

lemma strsplitLast_iff : strsplitLast src d = some (l, r) ↔ src = l ++ d :: r ∧ d ∉ r := by
  constructor
  · intro h
    have hmem : d ∈ src := by
      by_contra hno
      rw [strsplitLast, if_neg hno] at h
      cases h
    obtain ⟨l', r', rfl, hno⟩ := exists_split_last hmem
    rw [strsplitLast_append hno] at h
    cases h
    exact ⟨rfl, hno⟩
  · rintro ⟨rfl, hno⟩
    exact strsplitLast_append hno

end

section

variable {vault : ConfigVault} {reg reg' : Registry} {m m' : Macro} {place mkv p : Place} {location : Text}

lemma acquireKv_macroKv (reg : Registry) (place : Place) : (acquireKv reg place).macroKv = reg.macroKv := by
  rw [acquireKv]
  split <;> rfl

lemma acquireKv_get_ne (h : p ≠ place) : (acquireKv reg place).kvsPaths.get p = reg.kvsPaths.get p := by
  rw [acquireKv]
  split
  · exact Nested.get_put_ne h
  · rfl

lemma acquireKv_get_self (reg : Registry) (place : Place) :
    (acquireKv reg place).kvsPaths.get place = some ((reg.kvsPaths.get place).getD ⟨none, [], false⟩) := by
  rw [acquireKv]
  cases h : reg.kvsPaths.get place with
  | none => exact Nested.get_put_self
  | some kv => exact h

lemma acquireKv_of_some {kv : Kv} (h : reg.kvsPaths.get place = some kv) : acquireKv reg place = reg := by
  rw [acquireKv, h]

lemma kvRemove_spec (h : umMacroKvRemove reg m mkv = some reg') :
    reg'.macroKv = reg.macroKv ∧ ∀ p, p ≠ mkv → reg'.kvsPaths.get p = reg.kvsPaths.get p := by
  obtain ⟨kv, -, h⟩ := Option.bind_eq_some_iff.1 h
  split at h
  · obtain rfl := Option.some.inj h
    exact ⟨rfl, fun _ _ => rfl⟩
  · simp only at h
    split_ifs at h
    · obtain rfl := Option.some.inj h
      exact ⟨rfl, fun p hp => Nested.get_drop_ne hp⟩
    · obtain rfl := Option.some.inj h
      exact ⟨rfl, fun p hp => Nested.get_put_ne hp⟩

lemma attachMacro_eq {kv : Kv} (h : reg.kvsPaths.get place = some kv) :
    attachMacro reg m place = some
      { kvsPaths := reg.kvsPaths.put place { kv with update := true, macros := kv.macros ++ [m.pair] }
        macroKv := Function.update reg.macroKv (kvTable m.hostid) ((reg.macroKv (kvTable m.hostid)).insert m.macroid place) } := by
  rw [attachMacro, h]
  rfl

lemma register_places (hplace : vaultLocation vault location = some place)
    (h : umMacroRegisterKvs vault reg m location = some (reg', m')) :
    m'.hostid = m.hostid ∧ m'.macroid = m.macroid ∧ reg'.search m = some place ∧ (reg'.kvsPaths.get place).isSome = true := by
  have hself := acquireKv_get_self reg place
  have hattach {reg₁ reg₂ : Registry}
      (hget : (reg₁.kvsPaths.get place).isSome = true) (hattach : attachMacro reg₁ m place = some reg₂) :
      reg₂.search m = some place ∧ (reg₂.kvsPaths.get place).isSome = true := by
    obtain ⟨kv, hkv⟩ := Option.isSome_iff_exists.1 hget
    rw [attachMacro_eq hkv] at hattach
    obtain rfl := Option.some.inj hattach
    constructor
    · simp only [Registry.search, Function.update_self, AList.lookup_insert]
    · rw [Nested.get_put_self]
      rfl
  rw [umMacroRegisterKvs, hplace] at h
  simp only at h
  cases hsearch : (acquireKv reg place).search m with
  | none =>
    rw [hsearch] at h
    obtain ⟨reg₂, hreg₂, h⟩ := Option.bind_eq_some_iff.1 h
    obtain ⟨rfl, rfl⟩ := Prod.mk.inj (Option.some.inj h)
    exact ⟨rfl, rfl, hattach (by rw [hself]; rfl) hreg₂⟩
  | some mkv =>
    rw [hsearch] at h
    simp only at h
    split_ifs at h with heq
    · obtain ⟨rfl, rfl⟩ := Prod.mk.inj (Option.some.inj h)
      exact ⟨rfl, rfl, heq ▸ hsearch, by rw [hself]; rfl⟩
    · obtain ⟨reg₁, hreg₁, h⟩ := Option.bind_eq_some_iff.1 h
      obtain ⟨reg₂, hreg₂, h⟩ := Option.bind_eq_some_iff.1 h
      obtain ⟨rfl, rfl⟩ := Prod.mk.inj (Option.some.inj h)
      refine ⟨rfl, rfl, hattach ?_ hreg₂⟩
      rw [(kvRemove_spec hreg₁).2 place (Ne.symm heq), hself]
      rfl

end

section

variable {vault : ConfigVault} {reg reg' : Registry} {m m' : Macro} {place : Place} {location : Text}

def IsCredentials (vault : ConfigVault) (location : Text) : Prop := ':' ∈ location ∧ vaultLocation vault location = none

lemma vaultLocation_eq_some (h : vaultLocation vault location = some place) : strsplitLast location ':' = some place := by
  obtain ⟨⟨path, key⟩, hsplit, h⟩ := Option.bind_eq_some_iff.1 h
  simp only at h
  split_ifs at h
  rw [hsplit]
  exact h

lemma vaultLocation_of_not_credentials (hcolon : ':' ∈ location) (h : ¬ IsCredentials vault location) :
    ∃ place, vaultLocation vault location = some place := by
  cases hplace : vaultLocation vault location with
  | none => exact absurd ⟨hcolon, hplace⟩ h
  | some place => exact ⟨place, rfl⟩

lemma check_iff (hsearch : reg.search m = some place) (hget : (reg.kvsPaths.get place).isSome = true)
    (hcolon : ':' ∈ location) :
    umMacroCheckVaultLocation reg m location = some true ↔ strsplitFirst location ':' = some place := by
  rw [umMacroCheckVaultLocation, hsearch]
  cases hsplit : strsplitFirst location ':' with
  | none =>
    rw [strsplitFirst, if_pos hcolon] at hsplit
    cases hsplit
  | some place' =>
    simp only [Option.some.injEq]
    constructor
    · intro h
      split at h
      · cases h
      · exact (of_decide_eq_true (Option.some.inj h)).symm
    · rintro rfl
      obtain ⟨kv, hkv⟩ := Option.isSome_iff_exists.1 hget
      simp [hkv]

lemma register_same_iff (hsearch : reg.search m = some place) (hget : (reg.kvsPaths.get place).isSome = true)
    (hcolon : ':' ∈ location) :
    umMacroRegisterKvs vault reg m location = some (reg, m) ↔
      IsCredentials vault location ∨ vaultLocation vault location = some place := by
  constructor
  · intro h
    by_contra hno
    obtain ⟨hcred, hplace⟩ := not_or.1 hno
    obtain ⟨place', hplace'⟩ := vaultLocation_of_not_credentials hcolon hcred
    obtain ⟨-, -, hmoved, -⟩ := register_places hplace' h
    rw [hsearch] at hmoved
    exact hplace (hplace'.trans hmoved.symm)
  · rintro (⟨-, hnone⟩ | hplace)
    · rw [umMacroRegisterKvs, hnone]
    · obtain ⟨kv, hkv⟩ := Option.isSome_iff_exists.1 hget
      rw [umMacroRegisterKvs, hplace]
      simp only [acquireKv_of_some hkv, hsearch, if_true]

/-- The check and the registration split a location in the same way, unless it has several colons; and the check does not know
of the credentials. -/
def SplitsAlike (vault : ConfigVault) (location location' : Text) : Prop :=
  ¬ IsCredentials vault location' ∧ (location'.count ':' = 1 ∨ location' ≠ location)

lemma splits_agree_iff {location' : Text} (hplace : vaultLocation vault location = some place) :
    ((strsplitFirst location' ':' = some place) ↔ IsCredentials vault location' ∨ vaultLocation vault location' = some place) ↔
      SplitsAlike vault location location' := by
  obtain ⟨hlocation, hkey⟩ := strsplitLast_iff.1 (vaultLocation_eq_some hplace)
  have hfirst : strsplitFirst location' ':' = some place ↔ location' = location ∧ location'.count ':' = 1 := by
    rw [strsplitFirst_iff, ← hlocation]
    refine and_congr_right fun heq => ?_
    rw [heq, hlocation, List.count_append, List.count_cons_self, List.count_eq_zero.2 hkey]
    rw [← List.count_eq_zero]
    omega
  have hlast : vaultLocation vault location' = some place ↔ location' = location ∧ ¬ IsCredentials vault location' := by
    constructor
    · intro h
      refine ⟨?_, fun hcred => ?_⟩
      · rw [hlocation]
        exact (strsplitLast_iff.1 (vaultLocation_eq_some h)).1
      · rw [hcred.2] at h
        cases h
    · rintro ⟨rfl, -⟩
      exact hplace
  have hself : location' = location → ¬ IsCredentials vault location' := by
    rintro rfl ⟨-, hnone⟩
    rw [hplace] at hnone
    cases hnone
  rw [hfirst, hlast, SplitsAlike]
  tauto

lemma check_agrees_iff {location' : Text} (hplace : vaultLocation vault location = some place)
    (h : umMacroRegisterKvs vault reg m location = some (reg', m')) (hcolon : ':' ∈ location') :
    ((umMacroCheckVaultLocation reg' m' location' = some true) ↔ umMacroRegisterKvs vault reg' m' location' = some (reg', m')) ↔
      SplitsAlike vault location location' := by
  obtain ⟨hhostid, hmacroid, hsearch, hget⟩ := register_places hplace h
  have hsearch' : reg'.search m' = some place := by
    rw [Registry.search, hhostid, hmacroid]
    exact hsearch
  rw [check_iff hsearch' hget hcolon, register_same_iff hsearch' hget hcolon]
  exact splits_agree_iff hplace

end

end Glaber.Macros
