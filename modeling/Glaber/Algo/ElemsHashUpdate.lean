import Glaber.Algo.ElemsHash

/-! Synchronising one hash with another (`elems_hash_update`). -/

namespace Glaber.Algo.ElemsHash

open Glaber.Lib.Assoc

variable {δ : Type}

abbrev UpdateCb (δ : Type) := Id → Elem δ → Elem δ → Elem δ × Elem δ
abbrev UpdateLog (δ : Type) := List (Id × Elem δ × Elem δ)

variable (cb : UpdateCb δ)

def updateProcessFuncCb : ProcessCb δ (Elem δ × UpdateLog δ) :=
  fun id elem (old, log) => (succeed, (cb id old elem).2, (cb id old elem).1, log ++ [(id, old, elem)])

def addnewFuncCb : ProcessCb δ (Elem δ × UpdateLog δ) :=
  fun id elem (new, log) => (succeed, (cb id elem new).1, (cb id elem new).2, log ++ [(id, elem, new)])

def updateDeleteFuncCb : ProcessCb δ (ElemsHash δ × UpdateLog δ) :=
  fun id elem (newElems, log) =>
    if newElems.idExists id = fail then (succeed, { elem with flags := elemFlagDelete }, newElems, log)
    else
      let (_, newElems', elem', log') := newElems.process id (some (updateProcessFuncCb cb)) (elem, log) 0
      (succeed, elem', newElems', log')

def addNewFuncCb : ProcessCb δ (ElemsHash δ × UpdateLog δ) :=
  fun id elem (elems, log) =>
    if elems.idExists id = fail then
      let (_, elems', elem', log') := elems.process id (some (addnewFuncCb cb)) (elem, log) 0
      (succeed, elem', elems', log')
    else (succeed, elem, elems, log)

def update (elems newElems : ElemsHash δ) (cb : UpdateCb δ) : ElemsHash δ × ElemsHash δ × UpdateLog δ :=
  let (_, elems₁, newElems₁, log₁) := elems.iterate (updateDeleteFuncCb cb) (newElems, [])
  let (_, newElems₂, elems₂, log₂) := newElems₁.iterate (addNewFuncCb cb) (elems₁, log₁)
  (elems₂, newElems₂, log₂)

@[ext] structure Slot (δ : Type) where
  old : Option (Elem δ)
  new : Option (Elem δ)
  fresh : Elem δ
  calls : UpdateLog δ

def slot (s : ElemsHash δ × ElemsHash δ × UpdateLog δ) (id : Id) : Slot δ :=
  ⟨s.1.lookup id, s.2.1.lookup id, s.1.elemCreateFunc id, s.2.2.filter (fun c => c.1 = id)⟩

def markOrUpdate (id : Id) (s : Slot δ) : Slot δ :=
  match s.old, s.new with
  | none, _ => s
  | some e, none => { s with old := some { e with flags := elemFlagDelete } }
  | some e, some n =>
    { s with old := some (cb id e n).1, new := some (cb id e n).2, calls := s.calls ++ [(id, e, n)] }

def addMissing (id : Id) (s : Slot δ) : Slot δ :=
  match s.old, s.new with
  | none, some n =>
    { s with old := some (cb id s.fresh n).1, new := some (cb id s.fresh n).2,
             calls := s.calls ++ [(id, s.fresh, n)] }
  | _, _ => s

lemma target_of_lookup {h : ElemsHash δ} {id : Id} {e : Elem δ} (hl : h.lookup id = some e) (flags : BitVec 64) :
    h.target id flags = some e := by simp [target, hl]

lemma target_fresh {h : ElemsHash δ} {id : Id} (hl : h.lookup id = none) :
    h.target id 0 = some (h.elemCreateFunc id) := by
  simp [target, hl, elemFlagDoNotCreate]

lemma lookup_none_iff {h : ElemsHash δ} {id : Id} : h.lookup id = none ↔ h.idExists id = fail := by
  rw [idExists_fail, mem_iff_lookup]
  cases h.lookup id <;> simp

lemma updateDelete_slot (s : ElemsHash δ × ElemsHash δ × UpdateLog δ) (k : Id) :
    slot (iterateElem (updateDeleteFuncCb cb) s k) k = markOrUpdate cb k (slot s k) ∧
    ∀ j, j ≠ k → slot (iterateElem (updateDeleteFuncCb cb) s k) j = slot s j := by
  obtain ⟨elems, newElems, log⟩ := s
  cases he : elems.lookup k with
  | none => simp [iterateElem, markOrUpdate, slot, he]
  | some e =>
    have hm : k ∈ elems.elems := lookup_eq_some_mem he
    cases hn : newElems.lookup k with
    | none =>
      have hf := lookup_none_iff.mp hn
      simp only [iterateElem, he, updateDeleteFuncCb, hf, if_true, slot, markOrUpdate, hn]
      refine ⟨?_, fun j hj => ?_⟩
      · simp [hm]
      · simp [hj]
    | some n =>
      have hf : newElems.idExists k ≠ fail := by rw [ne_eq, ← lookup_none_iff, hn]; simp
      obtain ⟨-, hp, hl, hne, -⟩ := process_of_target (target_of_lookup hn 0) (updateProcessFuncCb cb) (e, log)
      simp only [iterateElem, he, updateDeleteFuncCb, hf, if_false, slot, markOrUpdate, hn, hp, hl]
      refine ⟨?_, fun j hj => ?_⟩
      · simp [updateProcessFuncCb, hm]
      · rw [hne j hj]
        simp [updateProcessFuncCb, hj, Ne.symm hj]

lemma addNew_slot (s : ElemsHash δ × ElemsHash δ × UpdateLog δ) (k : Id) :
    (let t := iterateElem (addNewFuncCb cb) (s.2.1, s.1, s.2.2) k
     slot (t.2.1, t.1, t.2.2) k = addMissing cb k (slot s k) ∧
     ∀ j, j ≠ k → slot (t.2.1, t.1, t.2.2) j = slot s j) := by
  obtain ⟨elems, newElems, log⟩ := s
  cases hn : newElems.lookup k with
  | none => cases he : elems.lookup k <;> simp [iterateElem, addMissing, slot, hn, he]
  | some n =>
    have hm : k ∈ newElems.elems := lookup_eq_some_mem hn
    cases he : elems.lookup k with
    | none =>
      have hf := lookup_none_iff.mp he
      obtain ⟨-, hp, hl, hne, hc⟩ := process_of_target (target_fresh he) (addnewFuncCb cb) (n, log)
      simp only [iterateElem, hn, addNewFuncCb, hf, if_true, slot, addMissing, he, hp, hl, hc]
      refine ⟨?_, fun j hj => ?_⟩
      · simp [addnewFuncCb, hm]
      · rw [hne j hj]
        simp [addnewFuncCb, hj, Ne.symm hj]
    | some e =>
      have hf : elems.idExists k ≠ fail := by rw [ne_eq, ← lookup_none_iff, he]; simp
      simp only [iterateElem, hn, addNewFuncCb, hf, if_false, slot, addMissing, he]
      refine ⟨?_, fun j hj => ?_⟩
      · simp [hm]
      · simp [hj]

lemma markOrUpdate_of_none (id : Id) {s : Slot δ} (h : s.old = none) :
    markOrUpdate cb id s = s := by
  simp [markOrUpdate, h]

lemma addMissing_of_none (id : Id) {s : Slot δ} (h : s.new = none) :
    addMissing cb id s = s := by
  cases ho : s.old <;> simp [addMissing, h, ho]

lemma slot_updateDelete (elems newElems : ElemsHash δ) (log : UpdateLog δ) (id : Id) :
    slot (elems.iterate (updateDeleteFuncCb cb) (newElems, log)).2 id =
      markOrUpdate cb id (slot (elems, newElems, log) id) := by
  have h := foldl_pointwise slot (fun s k => (updateDelete_slot cb s k).1) (fun s k => (updateDelete_slot cb s k).2)
    elems.elems.keys_nodup (elems, newElems, log) id
  rw [iterate, h]
  split_ifs with hm
  · rfl
  · refine (markOrUpdate_of_none cb id ?_).symm
    exact AList.lookup_eq_none.mpr (fun hk => hm (AList.mem_keys.mp hk))

lemma slot_addNew (elems newElems : ElemsHash δ) (log : UpdateLog δ) (id : Id) :
    (let t := (newElems.iterate (addNewFuncCb cb) (elems, log)).2
     slot (t.2.1, t.1, t.2.2) id) = addMissing cb id (slot (elems, newElems, log) id) := by
  have h := foldl_pointwise (f := iterateElem (addNewFuncCb cb)) (fun t => slot (t.2.1, t.1, t.2.2))
    (fun t k => (addNew_slot cb (t.2.1, t.1, t.2.2) k).1) (fun t k => (addNew_slot cb (t.2.1, t.1, t.2.2) k).2)
    newElems.elems.keys_nodup (newElems, elems, log) id
  dsimp only [iterate] at h ⊢
  rw [h]
  split_ifs with hm
  · rfl
  · refine (addMissing_of_none cb id ?_).symm
    exact AList.lookup_eq_none.mpr (fun hk => hm (AList.mem_keys.mp hk))

theorem slot_update (elems newElems : ElemsHash δ) (id : Id) :
    slot (update elems newElems cb) id =
      addMissing cb id (markOrUpdate cb id (slot (elems, newElems, []) id)) := by
  rw [← slot_updateDelete]
  exact slot_addNew cb _ _ _ id

def oldOrFresh (elems : ElemsHash δ) (id : Id) : Elem δ := (elems.lookup id).getD (elems.elemCreateFunc id)

section

variable (cb : UpdateCb δ) {elems newElems : ElemsHash δ} {id : Id}

lemma slot_update_present {n : Elem δ} (hn : newElems.lookup id = some n) :
    slot (update elems newElems cb) id =
      ⟨some (cb id (elems.oldOrFresh id) n).1, some (cb id (elems.oldOrFresh id) n).2,
        elems.elemCreateFunc id, [(id, elems.oldOrFresh id, n)]⟩ := by
  rw [slot_update]
  cases he : elems.lookup id <;> simp [slot, markOrUpdate, addMissing, he, hn, oldOrFresh]

lemma slot_update_stale {e : Elem δ} (he : elems.lookup id = some e) (hn : newElems.lookup id = none) :
    slot (update elems newElems cb) id =
      ⟨some { e with flags := elemFlagDelete }, none, elems.elemCreateFunc id, []⟩ := by
  rw [slot_update]
  simp [slot, markOrUpdate, addMissing, he, hn]

lemma slot_update_absent (he : elems.lookup id = none) (hn : newElems.lookup id = none) :
    slot (update elems newElems cb) id = ⟨none, none, elems.elemCreateFunc id, []⟩ := by
  rw [slot_update]
  simp [slot, markOrUpdate, addMissing, he, hn]

end

structure Synchronised (elems newElems : ElemsHash δ) (cb : UpdateCb δ) : Prop where
  ids : ∀ id, id ∈ (update elems newElems cb).1.elems ↔ id ∈ newElems.elems
  once : ∀ id, (update elems newElems cb).2.2.filter (fun c => c.1 = id) =
    ((newElems.lookup id).map fun n => (id, elems.oldOrFresh id, n)).toList
  unmarked : ∀ id e, (update elems newElems cb).1.lookup id = some e → e.flags &&& elemFlagDelete = 0
  stable : ∀ id,
    (update (update elems newElems cb).1 (update elems newElems cb).2.1 cb).1.lookup id =
      (update elems newElems cb).1.lookup id ∧
    (update (update elems newElems cb).1 (update elems newElems cb).2.1 cb).2.1.lookup id =
      (update elems newElems cb).2.1.lookup id

def Settles (elems newElems : ElemsHash δ) (cb : UpdateCb δ) : Prop :=
  ∀ id n, newElems.lookup id = some n →
    (cb id (elems.oldOrFresh id) n).1.flags &&& elemFlagDelete = 0 ∧
    cb id (cb id (elems.oldOrFresh id) n).1 (cb id (elems.oldOrFresh id) n).2 = cb id (elems.oldOrFresh id) n

section

variable (cb : UpdateCb δ) (elems : ElemsHash δ) {newElems : ElemsHash δ} {id : Id}

lemma lookup_update_present {n : Elem δ} (hn : newElems.lookup id = some n) :
    (update elems newElems cb).1.lookup id = some (cb id (elems.oldOrFresh id) n).1 ∧
    (update elems newElems cb).2.1.lookup id = some (cb id (elems.oldOrFresh id) n).2 :=
  ⟨congrArg Slot.old (slot_update_present cb hn), congrArg Slot.new (slot_update_present cb hn)⟩

lemma lookup_twice {n : Elem δ} (hn : newElems.lookup id = some n) :
    let r := cb id (elems.oldOrFresh id) n
    (update (update elems newElems cb).1 (update elems newElems cb).2.1 cb).1.lookup id = some (cb id r.1 r.2).1 ∧
    (update (update elems newElems cb).1 (update elems newElems cb).2.1 cb).2.1.lookup id =
      some (cb id r.1 r.2).2 := by
  obtain ⟨ho, hn'⟩ := lookup_update_present cb elems hn
  have hf : (update elems newElems cb).1.oldOrFresh id = (cb id (elems.oldOrFresh id) n).1 := by
    simp [oldOrFresh, ho]
  have h := lookup_update_present cb (update elems newElems cb).1 hn'
  rwa [hf] at h

lemma lookup_update_none (he : elems.lookup id = none) (hn : newElems.lookup id = none) :
    (update elems newElems cb).1.lookup id = none ∧ (update elems newElems cb).2.1.lookup id = none :=
  ⟨congrArg Slot.old (slot_update_absent cb he hn), congrArg Slot.new (slot_update_absent cb he hn)⟩

end

theorem synchronised_iff_no_stale (elems newElems : ElemsHash δ) (cb : UpdateCb δ) :
    Synchronised elems newElems cb ↔
      (∀ id, id ∈ elems.elems → id ∈ newElems.elems) ∧ Settles elems newElems cb := by
  constructor
  · intro h
    refine ⟨fun id hm => ?_, fun id n hn => ?_⟩
    · by_contra hn
      obtain ⟨e, he⟩ := mem_iff_lookup.mp hm
      have hl := congrArg Slot.old (slot_update_stale cb he (AList.lookup_eq_none.mpr hn))
      exact hn ((h.ids id).mp (mem_iff_lookup.mpr ⟨_, hl⟩))
    · obtain ⟨ho, hn'⟩ := lookup_update_present cb elems hn
      obtain ⟨ho₂, hn₂⟩ := lookup_twice cb elems hn
      obtain ⟨hs, hs'⟩ := h.stable id
      refine ⟨h.unmarked id _ ho, Prod.ext ?_ ?_⟩
      · exact Option.some.inj ((ho₂.symm.trans hs).trans ho)
      · exact Option.some.inj ((hn₂.symm.trans hs').trans hn')
  · rintro ⟨hsub, hset⟩
    have hnone : ∀ id, newElems.lookup id = none → elems.lookup id = none := fun id hn =>
      AList.lookup_eq_none.mpr (fun hm => AList.lookup_eq_none.mp hn (hsub id hm))
    refine ⟨fun id => ?_, fun id => ?_, fun id e hl => ?_, fun id => ?_⟩
    all_goals cases hn : newElems.lookup id with
      | none => ?_
      | some n => ?_
    · have hl := (lookup_update_none cb elems (hnone id hn) hn).1
      rw [mem_iff_lookup, mem_iff_lookup, hl, hn]
    · have hl := (lookup_update_present cb elems hn).1
      simp [mem_iff_lookup, hl, hn]
    · exact congrArg Slot.calls (slot_update_absent cb (hnone id hn) hn)
    · exact congrArg Slot.calls (slot_update_present cb hn)
    · rw [(lookup_update_none cb elems (hnone id hn) hn).1] at hl
      cases hl
    · rw [(lookup_update_present cb elems hn).1] at hl
      cases hl
      exact (hset id n hn).1
    · obtain ⟨ho, hn'⟩ := lookup_update_none cb elems (hnone id hn) hn
      rw [(lookup_update_none cb _ ho hn').1, (lookup_update_none cb _ ho hn').2, ho, hn']
      exact ⟨rfl, rfl⟩
    · obtain ⟨ho, hn'⟩ := lookup_update_present cb elems hn
      obtain ⟨ho₂, hn₂⟩ := lookup_twice cb elems hn
      rw [ho₂, hn₂, ho, hn', (hset id n hn).2]
      exact ⟨rfl, rfl⟩

theorem stale_element_kept :
    ¬ Synchronised ⟨AList.singleton 7 ⟨0, ()⟩, fun _ => ⟨0, ()⟩, fun _ _ => succeed⟩
      (init (fun _ => ⟨0, ()⟩) fun _ _ => succeed) (fun _ e n => (e, n)) := by
  intro h
  have hm := (h.ids 7).mp (by decide)
  revert hm
  decide

end Glaber.Algo.ElemsHash
