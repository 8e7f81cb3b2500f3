import Glaber.Common
import Glaber.Lib.Assoc

/-! The hash of lockable elements (`elems_hash.c`). A hash set is its entries in iteration
order; a callback receives the element together with whatever its parameter points to. -/

namespace Glaber.Algo

open Glaber.Lib.Assoc

abbrev Id := ℕ

def elemFlagDoNotCreate : BitVec 64 := 1
def elemFlagDelete : BitVec 8 := 2

structure Elem (δ : Type) where
  flags : BitVec 8
  data : δ
deriving DecidableEq

structure ElemsHash (δ : Type) where
  elems : AList fun _ : Id => Elem δ
  elemCreateFunc : Id → Elem δ
  elemFreeFunc : Id → Elem δ → ℤ

abbrev ProcessCb (δ σ : Type) := Id → Elem δ → σ → ℤ × Elem δ × σ

namespace ElemsHash

variable {δ σ : Type}

def init (createFunc : Id → Elem δ) (freeFunc : Id → Elem δ → ℤ) : ElemsHash δ :=
  ⟨∅, createFunc, freeFunc⟩

def lookup (h : ElemsHash δ) (id : Id) : Option (Elem δ) := h.elems.lookup id

variable (h : ElemsHash δ)

def idExists (id : Id) : ℤ :=
  match h.lookup id with
  | some _ => succeed
  | none => fail

def deleteElement (id : Id) (elem : Elem δ) : ℤ × ElemsHash δ :=
  (h.elemFreeFunc id elem, { h with elems := h.elems.erase id })

def createElement (id : Id) : Option (Elem δ × ElemsHash δ) :=
  match h.lookup id with
  | none => some (h.elemCreateFunc id, { h with elems := h.elems.insert id (h.elemCreateFunc id) })
  | some _ => none

def setElem (id : Id) (elem : Elem δ) : ElemsHash δ :=
  { h with elems := h.elems.replace id elem }

def processElem (id : Id) (elem : Elem δ) (processFunc : ProcessCb δ σ) (params : σ) :
    ℤ × ElemsHash δ × σ :=
  let (ret, elem', params') := processFunc id elem params
  let h' := h.setElem id elem'
  if elem'.flags &&& elemFlagDelete = 1 then (ret, (h'.deleteElement id elem').2, params')
  else (ret, h', params')

def process (id : Id) (processFunc : Option (ProcessCb δ σ)) (params : σ)
    (flags : BitVec 64) : ℤ × ElemsHash δ × σ :=
  match processFunc with
  | none => (fail, h, params)
  | some cb =>
    match h.lookup id with
    | some elem => h.processElem id elem cb params
    | none =>
      if flags &&& elemFlagDoNotCreate = 1 then (fail, h, params)
      else match h.createElement id with
        | none => (fail, h, params)
        | some (elem, h') => h'.processElem id elem cb params

def delete (id : Id) : ℤ × ElemsHash δ :=
  match h.lookup id with
  | some elem => h.deleteElement id elem
  | none => (fail, h)

def iterateElem (procFunc : ProcessCb δ σ) (s : ElemsHash δ × σ) (id : Id) : ElemsHash δ × σ :=
  match s.1.lookup id with
  | some elem =>
    let (_, elem', params') := procFunc id elem s.2
    (s.1.setElem id elem', params')
  | none => s

def iterate (procFunc : ProcessCb δ σ) (params : σ) : ℕ × ElemsHash δ × σ :=
  (h.elems.keys.length, h.elems.keys.foldl (iterateElem procFunc) (h, params))

def target (id : Id) (flags : BitVec 64) : Option (Elem δ) :=
  match h.lookup id with
  | some elem => some elem
  | none => if flags &&& elemFlagDoNotCreate = 1 then none else some (h.elemCreateFunc id)

lemma mem_iff_lookup {h : ElemsHash δ} {id : Id} : id ∈ h.elems ↔ ∃ e, h.lookup id = some e :=
  AList.lookup_isSome.symm.trans Option.isSome_iff_exists

lemma idExists_succeed {h : ElemsHash δ} {id : Id} : h.idExists id = succeed ↔ id ∈ h.elems := by
  rw [mem_iff_lookup, idExists]
  cases h.lookup id <;> simp [succeed, fail]

lemma idExists_fail {h : ElemsHash δ} {id : Id} : h.idExists id = fail ↔ id ∉ h.elems := by
  rw [mem_iff_lookup, idExists]
  cases h.lookup id <;> simp [succeed, fail]

@[simp] lemma elemCreateFunc_setElem (id : Id) (elem : Elem δ) :
    (h.setElem id elem).elemCreateFunc = h.elemCreateFunc := rfl

@[simp] lemma lookup_setElem_self {h : ElemsHash δ} {id : Id} (hm : id ∈ h.elems) (elem : Elem δ) :
    (h.setElem id elem).lookup id = some elem := lookup_replace_self _ hm

@[simp] lemma lookup_setElem_ne {id j : Id} (hj : j ≠ id) (elem : Elem δ) :
    (h.setElem id elem).lookup j = h.lookup j := lookup_replace_ne hj _ _

@[simp] lemma lookup_delete_self (id : Id) : (h.delete id).2.lookup id = none := by
  rw [delete]
  split
  · simp [deleteElement, lookup]
  · assumption

lemma lookup_delete_ne {id j : Id} (hj : j ≠ id) : (h.delete id).2.lookup j = h.lookup j := by
  rw [delete]
  split
  · simp [deleteElement, lookup, AList.lookup_erase_ne hj]
  · rfl

lemma delete_flag_test (f : BitVec 8) : f &&& elemFlagDelete ≠ 1 := by
  revert f
  decide

lemma processElem_eq (id : Id) (elem : Elem δ) (cb : ProcessCb δ σ) (params : σ) :
    h.processElem id elem cb params =
      ((cb id elem params).1, h.setElem id (cb id elem params).2.1, (cb id elem params).2.2) := by
  simp only [processElem, delete_flag_test, if_false]

lemma process_of_target_none {h : ElemsHash δ} {id : Id} {flags : BitVec 64} (ht : h.target id flags = none)
    (cb : ProcessCb δ σ) (params : σ) : h.process id (some cb) params flags = (fail, h, params) := by
  rw [target] at ht
  rw [process]
  split at ht
  · cases ht
  · split at ht <;> simp_all

section

variable {h : ElemsHash δ} {id : Id} {flags : BitVec 64} {elem : Elem δ}

lemma process_of_target (ht : h.target id flags = some elem) (cb : ProcessCb δ σ) (params : σ) :
    (h.process id (some cb) params flags).1 = (cb id elem params).1 ∧
    (h.process id (some cb) params flags).2.2 = (cb id elem params).2.2 ∧
    (h.process id (some cb) params flags).2.1.lookup id = some (cb id elem params).2.1 ∧
    (∀ j, j ≠ id → (h.process id (some cb) params flags).2.1.lookup j = h.lookup j) ∧
    (h.process id (some cb) params flags).2.1.elemCreateFunc = h.elemCreateFunc := by
  cases hl : h.lookup id with
  | some e =>
    obtain rfl : e = elem := by simpa [target, hl] using ht
    simp only [process, hl, processElem_eq]
    exact ⟨trivial, trivial, lookup_setElem_self (lookup_eq_some_mem hl) _,
      fun j hj => lookup_setElem_ne h hj _, rfl⟩
  | none =>
    simp only [target, hl] at ht
    by_cases hf : flags &&& elemFlagDoNotCreate = 1
    · simp only [hf, if_true, reduceCtorEq] at ht
    · simp only [hf, if_false, Option.some.injEq] at ht
      subst ht
      simp only [process, hl, hf, if_false, createElement, processElem_eq]
      refine ⟨trivial, trivial, lookup_setElem_self (by simp) _, ?_, rfl⟩
      intro j hj
      rw [lookup_setElem_ne _ hj]
      exact AList.lookup_insert_ne hj

lemma countIf_process (p : Elem δ → Bool) (ht : h.target id flags = some elem)
    (hfresh : p (h.elemCreateFunc id) = false) (cb : ProcessCb δ σ) (params : σ) :
    countIf p (h.process id (some cb) params flags).2.1.elems + (if p elem then 1 else 0) =
      countIf p h.elems + (if p (cb id elem params).2.1 then 1 else 0) := by
  cases hl : h.lookup id with
  | some e =>
    obtain rfl : e = elem := by simpa [target, hl] using ht
    simp only [process, hl, processElem_eq]
    exact countIf_replace p _ hl
  | none =>
    simp only [target, hl] at ht
    by_cases hf : flags &&& elemFlagDoNotCreate = 1
    · simp only [hf, if_true, reduceCtorEq] at ht
    · simp only [hf, if_false, Option.some.injEq] at ht
      subst ht
      have hnew : id ∉ h.elems := by
        intro hm
        obtain ⟨e, he⟩ := mem_iff_lookup.mp hm
        exact absurd (hl.symm.trans he) (by simp)
      have hins := countIf_insert p (h.elemCreateFunc id) hnew
      have hstored : (h.elems.insert id (h.elemCreateFunc id)).lookup id = some (h.elemCreateFunc id) :=
        AList.lookup_insert _
      have hset := countIf_replace p (cb id (h.elemCreateFunc id) params).2.1 hstored
      simp only [process, hl, hf, if_false, createElement, processElem_eq, setElem]
      rw [hins, hfresh] at hset
      simpa [hfresh] using hset

end

def DeferredDeletion (id : Id) (cb : ProcessCb δ σ) (params : σ) (flags : BitVec 64) : Prop :=
  ∀ elem, h.target id flags = some elem →
    let elem' := (cb id elem params).2.1
    let h' := (h.process id (some cb) params flags).2.1
    (elem'.flags &&& elemFlagDelete ≠ 0 → h'.idExists id = fail ∧ ∀ j, j ≠ id → h'.lookup j = h.lookup j) ∧
    (elem'.flags &&& elemFlagDelete = 0 → h'.idExists id = succeed ∧ h'.lookup id = some elem')

theorem deferredDeletion_iff_unmarked (id : Id) (cb : ProcessCb δ σ) (params : σ)
    (flags : BitVec 64) :
    h.DeferredDeletion id cb params flags ↔
      ∀ elem, h.target id flags = some elem → (cb id elem params).2.1.flags &&& elemFlagDelete = 0 := by
  constructor
  · intro hd elem ht
    by_contra hm
    obtain ⟨-, -, hl, -, -⟩ := process_of_target ht cb params
    have hgone := ((hd elem ht).1 hm).1
    exact (idExists_fail.mp hgone) (mem_iff_lookup.mpr ⟨_, hl⟩)
  · intro hu elem ht
    obtain ⟨-, -, hl, -, -⟩ := process_of_target ht cb params
    refine ⟨fun hm => absurd (hu elem ht) hm, fun _ => ⟨?_, hl⟩⟩
    exact idExists_succeed.mpr (mem_iff_lookup.mpr ⟨_, hl⟩)

def markDeleted : ProcessCb Unit Unit :=
  fun _ elem params => (succeed, { elem with flags := elem.flags ||| elemFlagDelete }, params)

theorem marked_element_survives :
    ¬ (init (fun _ => ⟨0, ()⟩) (fun _ _ => succeed) : ElemsHash Unit).DeferredDeletion 7 markDeleted () 0 := by
  intro hd
  have h := ((hd ⟨0, ()⟩ (by decide)).1 (by decide)).1
  revert h
  decide

end ElemsHash

end Glaber.Algo

/-! Deleting a vector of ids (`elems_hash_mass_delete`). The test of the search result is closed by
a stray semicolon, so an absent id goes to `delete_element` as a NULL element. -/

namespace Glaber.Algo.ElemsHash

variable {δ : Type}

/-- The arguments of the calls of the free callback (`none` is NULL), and what is returned. There is no
result after a NULL element: the callback and `zbx_hashset_remove_direct` read through it. -/
structure MassDelete (δ : Type) where
  freed : List (Option (Id × Elem δ))
  result : Option (ℕ × ElemsHash δ)

def massDeleteLoop (h : ElemsHash δ) (count : ℕ) (freed : List (Option (Id × Elem δ))) : List Id → MassDelete δ
  | [] => ⟨freed, some (count, h)⟩
  | id :: ids =>
    match h.lookup id with
    | some elem => massDeleteLoop (h.deleteElement id elem).2 (count + 1) (freed ++ [some (id, elem)]) ids
    | none => ⟨freed ++ [none], none⟩

variable (h : ElemsHash δ)

def massDelete (ids : List Id) : MassDelete δ :=
  if ids.length = 0 then ⟨[], some (0, h)⟩ else massDeleteLoop h 0 [] ids

def MassDeleted (ids : List Id) : Prop :=
  ∃ count h', (massDelete h ids).result = some (count, h') ∧
    (∀ id, h'.lookup id = if id ∈ ids then none else h.lookup id) ∧
    (massDelete h ids).freed.Nodup ∧
    (∀ p, p ∈ (massDelete h ids).freed ↔ ∃ id ∈ ids, ∃ elem, h.lookup id = some elem ∧ p = some (id, elem)) ∧
    count = (h.elems.keys.filter (· ∈ ids)).length

structure Removes (h : ElemsHash δ) (ids : List Id) (h' : ElemsHash δ) (removed : List (Id × Elem δ)) : Prop where
  lookup : ∀ id, h'.lookup id = if id ∈ ids then none else h.lookup id
  ids : removed.map Prod.fst = ids
  stored : ∀ p ∈ removed, h.lookup p.1 = some p.2

lemma massDelete_eq (ids : List Id) : massDelete h ids = massDeleteLoop h 0 [] ids := by
  cases ids <;> rfl

lemma lookup_deleteElement_self (id : Id) (elem : Elem δ) :
    (h.deleteElement id elem).2.lookup id = none := by
  simp [deleteElement, lookup]

lemma lookup_deleteElement_ne {id j : Id} (hj : j ≠ id) (elem : Elem δ) :
    (h.deleteElement id elem).2.lookup j = h.lookup j :=
  AList.lookup_erase_ne hj

lemma removes_cons {h h' : ElemsHash δ} {id : Id} {ids : List Id} {elem : Elem δ} {removed : List (Id × Elem δ)}
    (hl : h.lookup id = some elem) (hr : Removes (h.deleteElement id elem).2 ids h' removed) :
    Removes h (id :: ids) h' ((id, elem) :: removed) := by
  refine ⟨fun j => ?_, by simp [hr.ids], fun p hp => ?_⟩
  · rw [hr.lookup]
    by_cases hj : j = id
    · simp [hj, lookup_deleteElement_self]
    · simp [hj, lookup_deleteElement_ne h hj]
  · rcases List.mem_cons.mp hp with rfl | hp
    · exact hl
    · have hs := hr.stored p hp
      have hne : p.1 ≠ id := by
        intro he
        rw [he, lookup_deleteElement_self] at hs
        cases hs
      rwa [lookup_deleteElement_ne h hne] at hs

lemma massDeleteLoop_present (count : ℕ) (freed : List (Option (Id × Elem δ))) {ids : List Id}
    (hn : ids.Nodup) (hp : ∀ id ∈ ids, id ∈ h.elems) :
    ∃ h' removed, massDeleteLoop h count freed ids = ⟨freed ++ removed.map some, some (count + ids.length, h')⟩ ∧
      Removes h ids h' removed := by
  induction ids generalizing h count freed with
  | nil => exact ⟨h, [], by simp [massDeleteLoop], by simp, rfl, by simp⟩
  | cons id ids ih =>
    obtain ⟨elem, hl⟩ := mem_iff_lookup.mp (hp id List.mem_cons_self)
    obtain ⟨hid, hn⟩ := List.nodup_cons.mp hn
    have hp' : ∀ j ∈ ids, j ∈ (h.deleteElement id elem).2.elems := by
      intro j hj
      have hne : j ≠ id := fun he => hid (he ▸ hj)
      rw [mem_iff_lookup, lookup_deleteElement_ne h hne, ← mem_iff_lookup]
      exact hp j (List.mem_cons_of_mem id hj)
    obtain ⟨h', removed, heq, hr⟩ := ih _ (count + 1) (freed ++ [some (id, elem)]) hn hp'
    refine ⟨h', (id, elem) :: removed, ?_, removes_cons hl hr⟩
    rw [massDeleteLoop, hl]
    simp only [heq, List.map_cons, List.append_assoc, List.singleton_append, List.length_cons]
    congr 3
    omega

lemma massDeleteLoop_result {h : ElemsHash δ} {count : ℕ} {freed : List (Option (Id × Elem δ))} {ids : List Id}
    {r : ℕ × ElemsHash δ} (hr : (massDeleteLoop h count freed ids).result = some r) :
    ids.Nodup ∧ ∀ id ∈ ids, id ∈ h.elems := by
  induction ids generalizing h count freed with
  | nil => simp
  | cons id ids ih =>
    rw [massDeleteLoop] at hr
    split at hr
    · rename_i elem hl
      obtain ⟨hn, hp⟩ := ih hr
      have hold : ∀ j ∈ ids, j ≠ id ∧ j ∈ h.elems := by
        intro j hj
        obtain ⟨e, he⟩ := mem_iff_lookup.mp (hp j hj)
        have hne : j ≠ id := by
          rintro rfl
          rw [lookup_deleteElement_self] at he
          cases he
        rw [lookup_deleteElement_ne h hne] at he
        exact ⟨hne, mem_iff_lookup.mpr ⟨e, he⟩⟩
      refine ⟨List.nodup_cons.mpr ⟨fun hm => (hold id hm).1 rfl, hn⟩, ?_⟩
      rintro j (_ | ⟨_, hj⟩)
      · exact mem_iff_lookup.mpr ⟨elem, hl⟩
      · exact (hold j hj).2
    · cases hr

lemma filter_keys_length {h : ElemsHash δ} {ids : List Id} (hn : ids.Nodup) (hp : ∀ id ∈ ids, id ∈ h.elems) :
    (h.elems.keys.filter (· ∈ ids)).length = ids.length := by
  apply List.Perm.length_eq
  rw [List.perm_ext_iff_of_nodup (h.elems.keys_nodup.filter _) hn]
  intro id
  rw [List.mem_filter, ← AList.mem_keys]
  simpa using hp id

theorem mass_delete_exact_iff (ids : List Id) :
    MassDeleted h ids ↔ ids.Nodup ∧ ∀ id ∈ ids, id ∈ h.elems := by
  constructor
  · rintro ⟨count, h', hr, -⟩
    rw [massDelete_eq] at hr
    exact massDeleteLoop_result hr
  · rintro ⟨hn, hp⟩
    obtain ⟨h', removed, heq, hr⟩ := massDeleteLoop_present h 0 [] hn hp
    have hnodup : removed.Nodup := List.Nodup.of_map Prod.fst (hr.ids ▸ hn)
    simp only [MassDeleted, massDelete_eq, heq, List.nil_append, Nat.zero_add]
    refine ⟨ids.length, h', rfl, hr.lookup, hnodup.map (Option.some_injective _), fun p => ?_,
      (filter_keys_length hn hp).symm⟩
    rw [List.mem_map]
    constructor
    · rintro ⟨⟨id, elem⟩, hm, rfl⟩
      exact ⟨id, hr.ids ▸ List.mem_map_of_mem hm, elem, hr.stored _ hm, rfl⟩
    · rintro ⟨id, hid, elem, hl, rfl⟩
      rw [← hr.ids, List.mem_map] at hid
      obtain ⟨⟨j, e⟩, hm, rfl⟩ := hid
      have hs := hr.stored _ hm
      obtain rfl : e = elem := Option.some.inj (hs.symm.trans hl)
      exact ⟨_, hm, rfl⟩

theorem repeated_id_reaches_null :
    ¬ MassDeleted ⟨AList.singleton 7 ⟨0, ()⟩, fun _ => ⟨0, ()⟩, fun _ _ => succeed⟩ [7, 7] := by
  rintro ⟨count, h', hr, -⟩
  have hn : (massDelete ⟨AList.singleton 7 ⟨0, ()⟩, fun _ => ⟨0, ()⟩, fun _ _ => succeed⟩ [7, 7]).result.isNone := by
    decide
  rw [hr] at hn
  cases hn

end Glaber.Algo.ElemsHash
