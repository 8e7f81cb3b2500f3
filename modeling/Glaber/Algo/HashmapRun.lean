import Glaber.Algo.Hashmap

namespace Glaber.Algo.Hashmap

open Glaber.Lib.Buckets Glaber.Lib.Runs

variable {h : HashFuncs UInt64} {hm : Hashmap} {key : UInt64} {value : ℤ}

section

def Apart (h : HashFuncs UInt64) (a b : MapEntry) : Prop := h.compare a.key b.key ≠ 0

instance : Std.Symm (Apart h) := ⟨fun a b hab hba => hab (h.symm b.key a.key hba)⟩

structure Sound (h : HashFuncs UInt64) (hm : Hashmap) : Prop where
  fits : ∀ t < hm.numSlots, (hm.slots t).Fits
  placed : ∀ t < hm.numSlots, Placed h hm.numSlots hm.slots t
  apart : hm.entries.Pairwise (Apart h)
  counted : hm.numData = hm.entries.card

def Holds (h : HashFuncs UInt64) (hm : Hashmap) (key : UInt64) (value : ℤ) : Prop :=
  ∃ e ∈ hm.entries, h.compare e.key key = 0 ∧ e.value = value

lemma mem_entries {e : MapEntry} : e ∈ hm.entries ↔ ∃ t < hm.numSlots, e ∈ (hm.slots t).entries := mem_total

lemma Sound.mem_slot (hsound : Sound h hm) {e : MapEntry} (he : e ∈ hm.entries) (hcmp : h.compare e.key key = 0) :
    e ∈ (hm.slots ((h.hash key).toNat % hm.numSlots)).entries := by
  obtain ⟨t, ht, hmem⟩ := mem_entries.mp he
  have hplaced := hsound.placed t ht e hmem
  rw [h.consistent _ _ hcmp] at hplaced
  rwa [hplaced]

lemma Sound.unique (hsound : Sound h hm) {e e' : MapEntry} (he : e ∈ hm.entries) (he' : e' ∈ hm.entries)
    (hcmp : h.compare e.key key = 0) (hcmp' : h.compare e'.key key = 0) : e = e' := by
  obtain ⟨rest, hrest⟩ := Multiset.exists_cons_of_mem he
  have hapart := hsound.apart
  rw [hrest] at he' hapart
  rcases Multiset.mem_cons.mp he' with rfl | hin
  · rfl
  · exact absurd (h.trans _ _ _ hcmp (h.symm _ _ hcmp')) ((pairwise_cons.mp hapart).1 e' hin)

lemma entries_of_empty (hn : hm.numSlots = 0) : hm.entries = 0 := by
  rw [entries, hn]
  rfl

lemma initSlots_spec (h : HashFuncs UInt64) (initSize : ℕ) :
    Sound h (initSlots initSize) ∧ (initSlots initSize).entries = 0 ∧ (0 < initSize → 0 < (initSlots initSize).numSlots) := by
  have hnull : ∀ t, (initSlots initSize).slots t = MapSlot.null := by
    intro t
    rw [initSlots]
    split_ifs <;> rfl
  have hempty : (initSlots initSize).entries = 0 := total_empty fun t _ => by rw [chains, hnull, MapSlot.null]
  refine ⟨⟨?_, ?_, ?_, ?_⟩, hempty, ?_⟩
  · intro t _
    rw [hnull]
    exact le_rfl
  · intro t _ e he
    rw [hnull] at he
    cases he
  · rw [hempty]
    exact ⟨[], rfl, .nil⟩
  · rw [hempty, initSlots]
    split_ifs <;> rfl
  · intro hpos
    rw [initSlots, if_pos hpos]
    exact (nextPrime_spec initSize).2.pos

section

variable {t : ℕ} {slot : MapSlot} {numData : ℤ}

lemma entries_put (slot : MapSlot) (numData : ℤ) {lost gained kept : Multiset MapEntry} (ht : t < hm.numSlots)
    (hold : ((hm.slots t).entries : Multiset MapEntry) = lost + kept)
    (hnew : (slot.entries : Multiset MapEntry) = gained + kept) :
    entries ⟨Function.update hm.slots t slot, numData, hm.numSlots⟩ + lost = hm.entries + gained := by
  rw [entries, chains_update]
  exact total_exchange ht hold hnew

lemma Sound.put (hsound : Sound h hm) (hfits : slot.Fits)
    (hplaced : ∀ e ∈ slot.entries, (h.hash e.key).toNat % hm.numSlots = t)
    (hapart : (entries ⟨Function.update hm.slots t slot, numData, hm.numSlots⟩).Pairwise (Apart h))
    (hcount : numData = (entries ⟨Function.update hm.slots t slot, numData, hm.numSlots⟩).card) :
    Sound h ⟨Function.update hm.slots t slot, numData, hm.numSlots⟩ := by
  refine ⟨?_, ?_, hapart, hcount⟩
  · intro u hu
    dsimp only
    by_cases hut : u = t
    · rw [hut, Function.update_self]
      exact hfits
    · rw [Function.update_of_ne hut]
      exact hsound.fits u hu
  · intro u hu e he
    dsimp only at he
    by_cases hut : u = t
    · rw [hut, Function.update_self] at he
      rw [hut]
      exact hplaced e he
    · rw [Function.update_of_ne hut] at he
      exact hsound.placed u hu e he

end

end

section

lemma coe_middle (pre post : List MapEntry) (e : MapEntry) :
    ((pre ++ e :: post : List MapEntry) : Multiset MapEntry) = {e} + (pre ++ post : List MapEntry) := by
  rw [Multiset.singleton_add, Multiset.cons_coe]
  exact Multiset.coe_eq_coe.mpr List.perm_middle

lemma findIdx_split {l : List MapEntry} {i : ℕ} (hfind : l.findIdx? (isMatch h key) = some i) :
    ∃ pre e post, l = pre ++ e :: post ∧ pre.length = i ∧ h.compare e.key key = 0 := by
  obtain ⟨hlt, hmatch, -⟩ := List.findIdx?_eq_some_iff_getElem.mp hfind
  refine ⟨l.take i, l[i], l.drop (i + 1), ?_, List.length_take_of_le hlt.le, by simpa [isMatch] using hmatch⟩
  rw [List.getElem_cons_drop, List.take_append_drop]

lemma Sound.no_match (hsound : Sound h hm) (key : UInt64)
    (hfind : (hm.slots ((h.hash key).toNat % hm.numSlots)).entries.findIdx? (isMatch h key) = none) :
    ∀ e ∈ hm.entries, h.compare e.key key ≠ 0 := by
  intro e he hcmp
  have hnone := List.findIdx?_eq_none_iff.mp hfind e (hsound.mem_slot he hcmp)
  simp [isMatch, hcmp] at hnone

lemma get_spec (hsound : Sound h hm) (key : UInt64) :
    (∀ value, Holds h hm key value → hm.get h key = value) ∧ ((∀ value, ¬ Holds h hm key value) → hm.get h key = fail) := by
  rw [get]
  by_cases hn : hm.numSlots = 0
  · rw [if_pos hn]
    refine ⟨?_, fun _ => rfl⟩
    rintro value ⟨e, he, -⟩
    rw [entries_of_empty hn] at he
    simp at he
  · rw [if_neg hn]
    have hlt : (h.hash key).toNat % hm.numSlots < hm.numSlots := Nat.mod_lt _ (by omega)
    cases hfind : (hm.slots ((h.hash key).toNat % hm.numSlots)).entries.find? (isMatch h key) with
    | none =>
      refine ⟨?_, fun _ => rfl⟩
      rintro value ⟨e, he, hcmp, -⟩
      have hnone := List.find?_eq_none.mp hfind e (hsound.mem_slot he hcmp)
      simp [isMatch, hcmp] at hnone
    | some e =>
      have hcmp : h.compare e.key key = 0 := by simpa [isMatch] using List.find?_some hfind
      have hmem : e ∈ hm.entries := mem_entries.mpr ⟨_, hlt, List.mem_of_find?_eq_some hfind⟩
      refine ⟨?_, fun hnone => absurd ⟨e, hmem, hcmp, rfl⟩ (hnone e.value)⟩
      rintro value ⟨e', he', hcmp', rfl⟩
      rw [hsound.unique hmem he' hcmp hcmp']

end

section

inductive SetResult (h : HashFuncs UInt64) (key : UInt64) (value : ℤ) (before after : Multiset MapEntry) : Prop
  | replaced (e : MapEntry) (rest : Multiset MapEntry) (hcmp : h.compare e.key key = 0) (hbefore : before = e ::ₘ rest)
      (hafter : after = { e with value := value } ::ₘ rest)
  | added (hnone : ∀ e ∈ before, h.compare e.key key ≠ 0) (hafter : after = ⟨key, value⟩ ::ₘ before)

lemma setInto_spec (hsound : Sound h hm) (hn : 0 < hm.numSlots) (key : UInt64) (value : ℤ) :
    ∃ hm', setInto h hm key value = some hm' ∧ Sound h hm' ∧ SetResult h key value hm.entries hm'.entries := by
  have hlt : (h.hash key).toNat % hm.numSlots < hm.numSlots := Nat.mod_lt _ hn
  have hnomatch := hsound.no_match key
  rw [setInto]
  dsimp only
  generalize htarget : (h.hash key).toNat % hm.numSlots = t at hlt hnomatch ⊢
  have hfits := hsound.fits t hlt
  have hplaced := hsound.placed t hlt
  cases hfind : (hm.slots t).entries.findIdx? (isMatch h key) with
  | some i =>
    obtain ⟨pre, e, post, hsplit, rfl, hcmp⟩ := findIdx_split hfind
    have hmodify : (hm.slots t).entries.modify pre.length (fun e => { e with value := value }) =
        pre ++ { e with value := value } :: post := by
      rw [hsplit, List.modify_eq_take_drop, List.take_left, List.drop_left]
      rfl
    dsimp only
    rw [hmodify]
    obtain ⟨rest, hrest⟩ := Multiset.exists_cons_of_mem (mem_entries.mpr ⟨t, hlt, by rw [hsplit]; simp⟩ : e ∈ hm.entries)
    have hentries : entries ⟨Function.update hm.slots t ⟨pre ++ { e with value := value } :: post, (hm.slots t).entriesAlloc⟩,
        hm.numData, hm.numSlots⟩ = { e with value := value } ::ₘ rest := by
      have hput := entries_put ⟨pre ++ { e with value := value } :: post, (hm.slots t).entriesAlloc⟩ hm.numData hlt
        (by rw [hsplit, coe_middle]) (coe_middle _ _ _)
      rw [hrest, ← Multiset.singleton_add e, add_comm, add_assoc] at hput
      rw [← Multiset.singleton_add]
      exact (add_left_cancel hput).trans (add_comm _ _)
    have hapart := hsound.apart
    have hcount := hsound.counted
    rw [hrest] at hapart hcount
    refine ⟨_, rfl, hsound.put ?_ ?_ ?_ ?_, .replaced e rest hcmp hrest hentries⟩
    · rw [MapSlot.Fits, hsplit] at hfits
      rw [MapSlot.Fits]
      simpa using hfits
    · intro x hx
      rcases List.mem_append.mp hx with hx | hx
      · exact hplaced x (by rw [hsplit]; exact List.mem_append_left _ hx)
      · rcases List.mem_cons.mp hx with rfl | hx
        · exact hplaced e (by rw [hsplit]; simp)
        · exact hplaced x (by rw [hsplit]; simp [hx])
    · obtain ⟨hfirst, hothers⟩ := pairwise_cons.mp hapart
      rw [hentries, pairwise_cons]
      exact ⟨hfirst, hothers⟩
    · rw [hentries, Multiset.card_cons]
      rwa [Multiset.card_cons] at hcount
  | none =>
    have hnew := hnomatch hfind
    obtain ⟨slot, happend, hgrown, hroom⟩ := MapSlot.append_fits hfits ⟨key, value⟩
    have hentries : entries ⟨Function.update hm.slots t slot, hm.numData + 1, hm.numSlots⟩ = ⟨key, value⟩ ::ₘ hm.entries := by
      have hput := entries_put slot (hm.numData + 1) hlt (zero_add _).symm
        (show _ = {⟨key, value⟩} + ((hm.slots t).entries : Multiset MapEntry) by
          rw [hgrown, Multiset.singleton_add, Multiset.cons_coe]
          exact Multiset.coe_eq_coe.mpr (List.perm_append_singleton _ _))
      rwa [add_zero, add_comm hm.entries, Multiset.singleton_add] at hput
    have hput : Sound h ⟨Function.update hm.slots t slot, hm.numData + 1, hm.numSlots⟩ := by
      refine hsound.put hroom ?_ ?_ ?_
      · intro e he
        rw [hgrown] at he
        rcases List.mem_append.mp he with he | he
        · exact hplaced e he
        · obtain rfl : e = ⟨key, value⟩ := by simpa using he
          exact htarget
      · rw [hentries, pairwise_cons]
        refine ⟨?_, hsound.apart⟩
        intro e he hcmp
        exact hnew e he (h.symm _ _ hcmp)
      · rw [hentries, Multiset.card_cons, hsound.counted]
        push_cast
        rfl
    dsimp only
    rw [happend, Option.bind_some]
    split_ifs with hload
    · obtain ⟨hm', hrun, hsame, hdata, hpos, hfits', hplaced'⟩ := redistribute_spec h hput.fits
      refine ⟨hm', hrun, ⟨hfits', hplaced', ?_, ?_⟩, .added hnew (hsame.trans hentries)⟩
      · rw [hsame]
        exact hput.apart
      · rw [hsame, hdata]
        exact hput.counted
    · exact ⟨_, rfl, hput, .added hnew hentries⟩

lemma set_spec (hsound : Sound h hm) (key : UInt64) (value : ℤ) :
    ∃ hm', hm.set h key value = some hm' ∧ Sound h hm' ∧ SetResult h key value hm.entries hm'.entries := by
  rw [set]
  by_cases hn : hm.numSlots = 0
  · obtain ⟨hinit, hempty, hpos⟩ := initSlots_spec h defaultSlots
    rw [if_pos hn, entries_of_empty hn, ← hempty]
    exact setInto_spec hinit (hpos (by decide)) key value
  · rw [if_neg hn]
    exact setInto_spec hsound (Nat.pos_of_ne_zero hn) key value

lemma remove_spec (hsound : Sound h hm) (key : UInt64) :
    Sound h (hm.remove h key) ∧
    ((hm.remove h key = hm ∧ ∀ e ∈ hm.entries, h.compare e.key key ≠ 0) ∨
      ∃ e, hm.entries = e ::ₘ (hm.remove h key).entries ∧ h.compare e.key key = 0) := by
  rw [remove]
  by_cases hn : hm.numSlots = 0
  · rw [if_pos hn]
    refine ⟨hsound, .inl ⟨rfl, ?_⟩⟩
    rw [entries_of_empty hn]
    simp
  · rw [if_neg hn]
    have hlt : (h.hash key).toNat % hm.numSlots < hm.numSlots := Nat.mod_lt _ (by omega)
    have hnomatch := hsound.no_match key
    dsimp only
    generalize (h.hash key).toNat % hm.numSlots = t at hlt hnomatch ⊢
    have hfits := hsound.fits t hlt
    have hplaced := hsound.placed t hlt
    cases hfind : (hm.slots t).entries.findIdx? (isMatch h key) with
    | none => exact ⟨hsound, .inl ⟨rfl, hnomatch hfind⟩⟩
    | some i =>
      obtain ⟨pre, e, post, hsplit, rfl, hcmp⟩ := findIdx_split hfind
      obtain ⟨filled, hfill, hperm⟩ := fillHole_spec pre post e
      dsimp only
      rw [hsplit, hfill]
      have hentries : hm.entries = e ::ₘ entries
          ⟨Function.update hm.slots t ⟨pre ++ filled, (hm.slots t).entriesAlloc⟩, hm.numData - 1, hm.numSlots⟩ := by
        have hput := entries_put ⟨pre ++ filled, (hm.slots t).entriesAlloc⟩ (hm.numData - 1) hlt
          (by rw [hsplit, coe_middle]) (show _ = 0 + ((pre ++ post : List MapEntry) : Multiset MapEntry) by
            rw [zero_add]
            exact Multiset.coe_eq_coe.mpr (hperm.append_left pre))
        rw [add_zero, add_comm, Multiset.singleton_add] at hput
        exact hput.symm
      have hapart := hsound.apart
      have hcount := hsound.counted
      rw [hentries] at hapart hcount
      refine ⟨hsound.put ?_ ?_ (pairwise_cons.mp hapart).2 ?_, .inr ⟨e, hentries, hcmp⟩⟩
      · have hlen := hperm.length_eq
        rw [MapSlot.Fits, hsplit] at hfits
        rw [MapSlot.Fits]
        simp only [List.length_append, List.length_cons] at hfits ⊢
        omega
      · intro x hx
        apply hplaced x
        rw [hsplit]
        rcases List.mem_append.mp hx with hx | hx
        · exact List.mem_append_left _ hx
        · exact List.mem_append_right _ (List.mem_cons_of_mem _ (hperm.mem_iff.mp hx))
      · rw [Multiset.card_cons] at hcount
        push_cast at hcount
        omega

lemma clear_spec (h : HashFuncs UInt64) (hm : Hashmap) : Sound h hm.clear ∧ hm.clear.entries = 0 := by
  have hnil : ∀ t < hm.numSlots, (hm.clear.slots t).entries = [] := by
    intro t ht
    exact congrArg MapSlot.entries (if_pos ht)
  have hempty : hm.clear.entries = 0 := total_empty hnil
  refine ⟨⟨?_, ?_, ?_, ?_⟩, hempty⟩
  · intro t ht
    rw [MapSlot.Fits, hnil t ht]
    exact Nat.zero_le _
  · intro t ht e he
    rw [hnil t ht] at he
    cases he
  · rw [hempty]
    exact ⟨[], rfl, .nil⟩
  · rw [hempty]
    rfl

end

inductive Op where
  | set (key : UInt64) (value : ℤ)
  | remove (key : UInt64)
  | clear

def step (h : HashFuncs UInt64) (hm : Hashmap) : Op → Option Hashmap
  | .set key value => hm.set h key value
  | .remove key => some (hm.remove h key)
  | .clear => some hm.clear

def run (h : HashFuncs UInt64) (initSize : ℕ) (ops : List Op) : Option Hashmap := ops.foldlM (step h) (create initSize)

section

variable (h)

def Op.Touches (key : UInt64) : Op → Prop
  | .set key' _ => h.compare key' key = 0
  | .remove key' => h.compare key' key = 0
  | .clear => True

def LastSet (ops : List Op) (key : UInt64) (value : ℤ) : Prop :=
  Since (fun op => ∃ key', op = .set key' value ∧ h.compare key' key = 0) (Op.Touches h key) ops

def Recorded (hm : Hashmap) (op : Op) (hm' : Hashmap) : Prop :=
  ∀ key value, Holds h hm' key value ↔
    (∃ key', op = .set key' value ∧ h.compare key' key = 0) ∨ (Holds h hm key value ∧ ¬ op.Touches h key)

end

section

variable {hm' : Hashmap}

lemma Sound.others (hsound : Sound h hm) {e : MapEntry} {rest : Multiset MapEntry} (hcmp : h.compare e.key key = 0)
    (hsplit : hm.entries = e ::ₘ rest) (x : MapEntry) : x ∈ rest ↔ x ∈ hm.entries ∧ h.compare x.key key ≠ 0 := by
  have hapart := hsound.apart
  rw [hsplit] at hapart ⊢
  constructor
  · intro hx
    refine ⟨Multiset.mem_cons_of_mem hx, ?_⟩
    intro hxkey
    exact (pairwise_cons.mp hapart).1 x hx (h.trans _ _ _ hcmp (h.symm _ _ hxkey))
  · rintro ⟨hx, hother⟩
    rcases Multiset.mem_cons.mp hx with rfl | hx
    · exact absurd hcmp hother
    · exact hx

lemma SetResult.mem_iff (hsound : Sound h hm) (hres : SetResult h key value hm.entries hm'.entries) :
    ∃ key', h.compare key' key = 0 ∧
      ∀ x, x ∈ hm'.entries ↔ x = ⟨key', value⟩ ∨ (x ∈ hm.entries ∧ h.compare x.key key ≠ 0) := by
  cases hres with
  | replaced e rest hcmp hbefore hafter =>
    refine ⟨e.key, hcmp, ?_⟩
    intro x
    rw [hafter, Multiset.mem_cons, hsound.others hcmp hbefore]
  | added hnone hafter =>
    refine ⟨key, h.refl key, ?_⟩
    intro x
    rw [hafter, Multiset.mem_cons]
    exact or_congr_right ⟨fun hx => ⟨hx, hnone x hx⟩, And.left⟩

lemma recorded_set (hsound : Sound h hm) (hres : SetResult h key value hm.entries hm'.entries) :
    Recorded h hm (.set key value) hm' := by
  obtain ⟨key', hcmp, hmem⟩ := hres.mem_iff hsound
  intro k v
  constructor
  · rintro ⟨x, hx, hxk, rfl⟩
    rcases (hmem x).mp hx with rfl | ⟨hx, hother⟩
    · exact .inl ⟨key, rfl, h.trans _ _ _ (h.symm _ _ hcmp) hxk⟩
    · refine .inr ⟨⟨x, hx, hxk, rfl⟩, ?_⟩
      intro htouch
      exact hother (h.trans _ _ _ hxk (h.symm _ _ htouch))
  · rintro (⟨key1, heq, hkey⟩ | ⟨⟨x, hx, hxk, rfl⟩, hkept⟩)
    · obtain ⟨rfl, rfl⟩ := Op.set.inj heq
      exact ⟨⟨key', value⟩, (hmem _).mpr (.inl rfl), h.trans _ _ _ hcmp hkey, rfl⟩
    · refine ⟨x, (hmem x).mpr (.inr ⟨hx, ?_⟩), hxk, rfl⟩
      intro hxkey
      exact hkept (h.trans _ _ _ (h.symm _ _ hxkey) hxk)

lemma recorded_removed (hmem : ∀ x, x ∈ hm'.entries ↔ x ∈ hm.entries ∧ h.compare x.key key ≠ 0) :
    Recorded h hm (.remove key) hm' := by
  intro k v
  constructor
  · rintro ⟨x, hx, hxk, rfl⟩
    obtain ⟨hx, hother⟩ := (hmem x).mp hx
    refine .inr ⟨⟨x, hx, hxk, rfl⟩, ?_⟩
    intro htouch
    exact hother (h.trans _ _ _ hxk (h.symm _ _ htouch))
  · rintro (⟨_, heq, _⟩ | ⟨⟨x, hx, hxk, rfl⟩, hkept⟩)
    · cases heq
    · refine ⟨x, (hmem x).mpr ⟨hx, ?_⟩, hxk, rfl⟩
      intro hxkey
      exact hkept (h.trans _ _ _ (h.symm _ _ hxkey) hxk)

lemma step_spec (hsound : Sound h hm) (op : Op) :
    ∃ hm', step h hm op = some hm' ∧ Sound h hm' ∧ Recorded h hm op hm' := by
  cases op with
  | set key value =>
    obtain ⟨hm', hrun, hsound', hres⟩ := set_spec hsound key value
    exact ⟨hm', hrun, hsound', recorded_set hsound hres⟩
  | remove key =>
    obtain ⟨hsound', hcase⟩ := remove_spec hsound key
    refine ⟨_, rfl, hsound', recorded_removed ?_⟩
    intro x
    rcases hcase with ⟨hsame, hnone⟩ | ⟨e, hsplit, hcmp⟩
    · rw [hsame]
      exact ⟨fun hx => ⟨hx, hnone x hx⟩, And.left⟩
    · exact hsound.others hcmp hsplit x
  | clear =>
    obtain ⟨hsound', hempty⟩ := clear_spec h hm
    refine ⟨_, rfl, hsound', ?_⟩
    intro k v
    simp [Holds, hempty, Op.Touches]

structure Kept (h : HashFuncs UInt64) (past : List Op) (hm : Hashmap) : Prop where
  sound : Sound h hm
  holds : ∀ key value, Holds h hm key value ↔ LastSet h past key value

lemma run_spec (h : HashFuncs UInt64) (initSize : ℕ) (ops : List Op) :
    ∃ hm, run h initSize ops = some hm ∧ Kept h ops hm := by
  obtain ⟨hinit, hempty, -⟩ := initSlots_spec h initSize
  have hstart : Kept h [] (create initSize) := by
    refine ⟨hinit, ?_⟩
    intro key value
    refine iff_of_false ?_ not_since_nil
    rintro ⟨e, he, -⟩
    rw [create, hempty] at he
    simp at he
  refine foldlM_total (Kept h) ?_ ops hstart
  intro past hm op hkept
  obtain ⟨hm', hstep, hsound', hrec⟩ := step_spec hkept.sound op
  refine ⟨hm', hstep, hsound', ?_⟩
  intro key value
  rw [hrec key value, hkept.holds key value, LastSet, LastSet, since_snoc]

theorem hashmap_runs_as_a_finite_map (h : HashFuncs UInt64) (initSize : ℕ) (ops : List Op) :
    ∃ hm, run h initSize ops = some hm ∧
      (∀ key value, LastSet h ops key value → hm.get h key = value) ∧
      (∀ key, (∀ value, ¬ LastSet h ops key value) → hm.get h key = fail) ∧
      hm.entries.Pairwise (fun a b => h.compare a.key b.key ≠ 0) ∧
      (∃ hm', hm.redistribute h = some hm' ∧ hm'.entries = hm.entries) ∧
      ∀ key value, (∀ value', ¬ LastSet h ops key value') →
        ∃ hm', hm.set h key value = some hm' ∧ hm'.entries = ⟨key, value⟩ ::ₘ hm.entries := by
  obtain ⟨hm, hrun, hkept⟩ := run_spec h initSize ops
  refine ⟨hm, hrun, ?_, ?_, hkept.sound.apart, ?_, ?_⟩
  · intro key value hlast
    exact (get_spec hkept.sound key).1 value ((hkept.holds key value).mpr hlast)
  · intro key hnone
    apply (get_spec hkept.sound key).2
    intro value hholds
    exact hnone value ((hkept.holds key value).mp hholds)
  · obtain ⟨hm', hspread, hsame, -⟩ := redistribute_spec h hkept.sound.fits
    exact ⟨hm', hspread, hsame⟩
  · intro key value hnone
    obtain ⟨hm', hset, -, hres⟩ := set_spec hkept.sound key value
    refine ⟨hm', hset, ?_⟩
    cases hres with
    | replaced e rest hcmp hbefore _ =>
      have hholds : Holds h hm key e.value := ⟨e, by rw [hbefore]; exact Multiset.mem_cons_self e rest, hcmp, rfl⟩
      exact absurd ((hkept.holds key e.value).mp hholds) (hnone e.value)
    | added _ hafter => exact hafter

def hashSplittable64 (value : UInt64) : UInt32 :=
  let value := (value ^^^ (value >>> 30)) * 0xbf58476d1ce4e5b9
  let value := (value ^^^ (value >>> 27)) * 0x94d049bb133111eb
  let value := value ^^^ (value >>> 31)
  value.toUInt32 ^^^ (value >>> 32).toUInt32

/-- The functions that the binary heap gives to its map. -/
def uint64Funcs : HashFuncs UInt64 where
  hash := hashSplittable64
  compare a b := if a < b then -1 else if b < a then 1 else 0
  refl a := by simp
  symm a b := by grind
  trans a b c := by grind
  consistent a b hab := by rw [show a = b by grind]

-- The tenth key is one too many for two slots.
example : ((run uint64Funcs 2 ((List.range 12).map (fun k => .set (UInt64.ofNat k) k) ++ [.set 5 51, .remove 7])).map
    fun hm => (hm.numSlots, [4, 5, 7, 12].map (hm.get uint64Funcs))) = some (3, [4, 51, fail, fail]) := by
  decide +kernel

end

end Glaber.Algo.Hashmap
