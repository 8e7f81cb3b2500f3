import Glaber.Algo.ElemsHashUpdate
import Glaber.Algo.ObjIndex

namespace Glaber.Algo.ObjIndex

open Glaber.Lib.Sorted

def addRefNosortCallback : ProcessCb (List Id) Id :=
  fun _ elem idTo => (succeed, { elem with data := elem.data ++ [idTo] }, idTo)

def addRefNosort (idx : ObjIndex) (idFrom idTo : Id) : ObjIndex where
  fromTo := (idx.fromTo.process idFrom (some addRefNosortCallback) idTo 0).2.1
  toFrom := (idx.toFrom.process idTo (some addRefNosortCallback) idFrom 0).2.1

inductive AddOp
  | addRef (idFrom idTo : Id)
  | addRefNosort (idFrom idTo : Id)

namespace AddOp

def apply (idx : ObjIndex) : AddOp → ObjIndex
  | .addRef a b => idx.addRef a b
  | .addRefNosort a b => idx.addRefNosort a b

def pair : AddOp → Id × Id
  | .addRef a b | .addRefNosort a b => (a, b)

def swap : AddOp → AddOp
  | .addRef a b => .addRef b a
  | .addRefNosort a b => .addRefNosort b a

def arrange (id : Id) (v : List Id) : AddOp → List Id
  | .addRef a b => if a = id then vectorSort (v ++ [b]) else v
  | .addRefNosort a b => if a = id then v ++ [b] else v

end AddOp

variable (adds : List AddOp)

def build : ObjIndex := adds.foldl AddOp.apply init

def arranged (id : Id) : List Id := adds.foldl (AddOp.arrange id) []

structure PairRemoved (idx idx' : ObjIndex) (a b : Id) : Prop where
  fromTo : ∀ x y, (refs idx'.fromTo x).count y + (if x = a ∧ y = b then 1 else 0) = (refs idx.fromTo x).count y
  toFrom : ∀ x y, (refs idx'.toFrom x).count y + (if x = b ∧ y = a then 1 else 0) = (refs idx.toFrom x).count y
  mirror : ∀ x y, (refs idx'.fromTo x).count y = (refs idx'.toFrom y).count x

lemma refs_append {h : RefHash} (hc : h.elemCreateFunc = refCreateCallback) (cb : ProcessCb (List Id) Id)
    (f : List Id → List Id) (id : Id) (hcb : ∀ key elem, (cb key elem id).2.1.data = f elem.data) (key j : Id) :
    refs (h.process key (some cb) id 0).2.1 j = (if key = j then f (refs h j) else refs h j) ∧
    (h.process key (some cb) id 0).2.1.elemCreateFunc = refCreateCallback := by
  obtain ⟨elem, ht⟩ := target_create h key
  refine ⟨?_, (ElemsHash.process_of_target ht cb id).2.2.2.2.trans hc⟩
  rw [refs_process ht, hcb, refs_of_target hc ht]
  by_cases hj : j = key
  · simp [hj]
  · simp [hj, Ne.symm hj]

structure Arranged (adds : List AddOp) (idx : ObjIndex) : Prop where
  createFrom : idx.fromTo.elemCreateFunc = refCreateCallback
  createTo : idx.toFrom.elemCreateFunc = refCreateCallback
  fromTo : ∀ id, refs idx.fromTo id = arranged adds id
  toFrom : ∀ id, refs idx.toFrom id = arranged (adds.map AddOp.swap) id

lemma arranged_concat (op : AddOp) (id : Id) :
    arranged (adds ++ [op]) id = op.arrange id (arranged adds id) := by
  simp [arranged]

lemma arranged_apply {adds : List AddOp} {idx : ObjIndex} (ha : Arranged adds idx) (op : AddOp) :
    Arranged (adds ++ [op]) (op.apply idx) := by
  cases op with
  | addRef a b =>
    have hf := refs_append ha.createFrom addRefCallback (fun v => vectorSort (v ++ [b])) b
      (fun _ _ => rfl) a
    have ht := refs_append ha.createTo addRefCallback (fun v => vectorSort (v ++ [a])) a
      (fun _ _ => rfl) b
    refine ⟨(hf 0).2, (ht 0).2, fun id => ?_, fun id => ?_⟩
    · rw [arranged_concat, ← ha.fromTo]
      exact (hf id).1
    · rw [List.map_append, List.map_singleton, arranged_concat, ← ha.toFrom]
      exact (ht id).1
  | addRefNosort a b =>
    have hf := refs_append ha.createFrom addRefNosortCallback (fun v => v ++ [b]) b (fun _ _ => rfl) a
    have ht := refs_append ha.createTo addRefNosortCallback (fun v => v ++ [a]) a (fun _ _ => rfl) b
    refine ⟨(hf 0).2, (ht 0).2, fun id => ?_, fun id => ?_⟩
    · rw [arranged_concat, ← ha.fromTo]
      exact (hf id).1
    · rw [List.map_append, List.map_singleton, arranged_concat, ← ha.toFrom]
      exact (ht id).1

lemma arranged_build : Arranged adds (build adds) := by
  induction adds using List.reverseRecOn with
  | nil => exact ⟨rfl, rfl, fun _ => rfl, fun _ => rfl⟩
  | append_singleton adds op ih =>
    rw [build, List.foldl_append]
    exact arranged_apply ih op

lemma count_arranged (x y : Id) :
    (arranged adds x).count y = (adds.map AddOp.pair).count (x, y) := by
  induction adds using List.reverseRecOn with
  | nil => rfl
  | append_singleton adds op ih =>
    rw [arranged_concat, List.map_append, List.map_singleton, List.count_append, ← ih]
    cases op with
    | addRef a b | addRefNosort a b =>
      by_cases ha : a = x
      · simp [AddOp.arrange, AddOp.pair, ha, vectorSort_count, List.count_cons]
      · simp [AddOp.arrange, AddOp.pair, ha]

lemma mirror_build (x y : Id) :
    (refs (build adds).fromTo x).count y = (refs (build adds).toFrom y).count x := by
  have ha := arranged_build adds
  rw [ha.fromTo, ha.toFrom, count_arranged, count_arranged, List.map_map]
  induction adds with
  | nil => rfl
  | cons op adds ih =>
    rw [List.map_cons, List.map_cons, List.count_cons, List.count_cons, ih (arranged_build adds)]
    cases op <;> simp [AddOp.swap, AddOp.pair, and_comm]

section

variable {h : RefHash} {key id : Id}

lemma refs_delRefFrom (hc : h.elemCreateFunc = refCreateCallback) (j : Id) :
    refs (delRefFrom h key id) j =
      if j = key then ((bsearch (refs h key) id).map (refs h key).eraseIdx).getD (refs h key) else refs h j := by
  cases hl : h.lookup key with
  | none =>
    rw [del_refs_absent hl]
    split_ifs with hj
    · subst hj
      simp [refs, hl, bsearch, bsearchLoop]
    · rfl
  | some elem =>
    have ht : h.target key elemFlagDoNotCreate = some elem := by simp [ElemsHash.target, hl]
    rw [delRefFrom, refs_process ht, ← refs_of_target hc ht, delRefCallback]
    cases bsearch elem.data id <;> rfl

lemma one_removed_iff (hc : h.elemCreateFunc = refCreateCallback) :
    (∀ x y, (refs (delRefFrom h key id) x).count y + (if x = key ∧ y = id then 1 else 0) = (refs h x).count y) ↔
      ∃ i, Reached (refs h key) id i := by
  constructor
  · intro hone
    cases hb : bsearch (refs h key) id with
    | some i => exact ⟨i, bsearch_eq_some_iff.mp hb⟩
    | none =>
      have habsent := hone key id
      simp [refs_delRefFrom hc, hb] at habsent
  · rintro ⟨i, hi⟩ x y
    rw [refs_delRefFrom hc, bsearch_eq_some_iff.mpr hi]
    by_cases hx : x = key
    · subst hx
      simpa using count_eraseIdx hi.1 y
    · simp [hx]

end

theorem pair_removed_iff_reached (a b : Id) :
    PairRemoved (build adds) ((build adds).delRef a b) a b ↔
      (∃ i, Reached (arranged adds a) b i) ∧ ∃ i, Reached (arranged (adds.map AddOp.swap) b) a i := by
  have ha := arranged_build adds
  rw [← ha.fromTo, ← ha.toFrom, ← one_removed_iff ha.createFrom, ← one_removed_iff ha.createTo]
  constructor
  · exact fun h => ⟨h.fromTo, h.toFrom⟩
  · rintro ⟨hf, ht⟩
    refine ⟨hf, ht, fun x y => ?_⟩
    have h1 := hf x y
    have h2 := ht y x
    rw [mirror_build adds x y, ← h2] at h1
    simp only [and_comm] at h1
    exact Nat.add_right_cancel h1

theorem unsorted_pair_stays :
    ¬ PairRemoved (build [.addRefNosort 1 9, .addRefNosort 1 5])
      ((build [.addRefNosort 1 9, .addRefNosort 1 5]).delRef 1 9) 1 9 := by
  intro h
  have hone := h.fromTo 1 9
  revert hone
  decide

open Glaber.Lib.Assoc

def updateVector (_ newVector : List Id) : List Id := vectorSort newVector

def updateFuncCb : ElemsHash.UpdateCb (List Id) :=
  fun _ elem elemNew => ({ elem with data := updateVector elem.data elemNew.data }, elemNew)

def update (idx newIdx : ObjIndex) : ObjIndex where
  fromTo := (ElemsHash.update idx.fromTo newIdx.fromTo updateFuncCb).1
  toFrom := (ElemsHash.update idx.toFrom newIdx.toFrom updateFuncCb).1

def getRefs (h : RefHash) (id : Id) (outRefs : List Id) : ℤ × List Id :=
  let (ret, _, outRefs) := h.process id (some getRefsCallback) outRefs elemFlagDoNotCreate
  (ret, outRefs)

def getRefsTo (idx : ObjIndex) (idFrom : Id) (outRefs : List Id) : ℤ × List Id := getRefs idx.fromTo idFrom outRefs
def getRefsFrom (idx : ObjIndex) (idTo : Id) (outRefs : List Id) : ℤ × List Id := getRefs idx.toFrom idTo outRefs

def sortedRefs (h : RefHash) (id : Id) (outRefs : List Id) : ℤ × List Id :=
  match h.lookup id with
  | some elem => (succeed, outRefs ++ vectorSort elem.data)
  | none => (fail, outRefs)

def ShowsNew (idx newIdx : ObjIndex) : Prop :=
  (∀ id outRefs, getRefsTo (update idx newIdx) id outRefs = sortedRefs newIdx.fromTo id outRefs) ∧
  (∀ id outRefs, getRefsFrom (update idx newIdx) id outRefs = sortedRefs newIdx.toFrom id outRefs)

section

variable (h newH : RefHash) (id : Id) (outRefs : List Id)

lemma getRefs_eq : getRefs h id outRefs =
    match h.lookup id with
    | some elem => (succeed, outRefs ++ elem.data)
    | none => (fail, outRefs) := by
  cases hl : h.lookup id with
  | none =>
    have ht : h.target id elemFlagDoNotCreate = none := by simp [ElemsHash.target, hl, elemFlagDoNotCreate]
    simp only [getRefs, ElemsHash.process_of_target_none ht]
  | some elem =>
    have ht : h.target id elemFlagDoNotCreate = some elem := by simp [ElemsHash.target, hl]
    obtain ⟨hr, hp, -, -, -⟩ := ElemsHash.process_of_target ht getRefsCallback outRefs
    simp only [getRefs, hr, hp, getRefsCallback]

lemma getRefs_update : getRefs (ElemsHash.update h newH updateFuncCb).1 id outRefs =
    match newH.lookup id with
    | some elem => (succeed, outRefs ++ vectorSort elem.data)
    | none => getRefs h id outRefs := by
  cases hn : newH.lookup id with
  | some elem =>
    rw [getRefs_eq, (ElemsHash.lookup_update_present updateFuncCb h hn).1]
    rfl
  | none =>
    cases hl : h.lookup id with
    | some elem =>
      have hs := congrArg ElemsHash.Slot.old (ElemsHash.slot_update_stale updateFuncCb hl hn)
      simp only [ElemsHash.slot] at hs
      simp only [getRefs_eq, hs, hl]
    | none => simp only [getRefs_eq, (ElemsHash.lookup_update_none updateFuncCb h hl hn).1, hl]

end

lemma showsNew_direction (h newH : RefHash) :
    (∀ id outRefs, getRefs (ElemsHash.update h newH updateFuncCb).1 id outRefs = sortedRefs newH id outRefs) ↔
      ∀ id, id ∈ h.elems → id ∈ newH.elems := by
  constructor
  · intro hs id hm
    by_contra hn
    obtain ⟨elem, hl⟩ := ElemsHash.mem_iff_lookup.mp hm
    have hnone : newH.lookup id = none := AList.lookup_eq_none.mpr hn
    have he := congrArg Prod.fst (hs id [])
    simp only [getRefs_update, sortedRefs, hnone] at he
    simp only [getRefs_eq, hl] at he
    exact absurd he (by decide)
  · intro hsub id outRefs
    rw [getRefs_update, sortedRefs]
    cases hn : newH.lookup id with
    | some elem => rfl
    | none =>
      have hl : h.lookup id = none :=
        AList.lookup_eq_none.mpr fun hm => AList.lookup_eq_none.mp hn (hsub id hm)
      simp only [getRefs_eq, hl]

theorem update_shows_new_iff (idx newIdx : ObjIndex) :
    ShowsNew idx newIdx ↔
      (∀ id, id ∈ idx.fromTo.elems → id ∈ newIdx.fromTo.elems) ∧
      (∀ id, id ∈ idx.toFrom.elems → id ∈ newIdx.toFrom.elems) :=
  and_congr (showsNew_direction ..) (showsNew_direction ..)

theorem vanished_id_keeps_refs : ¬ ShowsNew (init.addRef 1 5) (init.addRef 2 5) := by
  intro hs
  have he := hs.1 1 []
  revert he
  decide

end Glaber.Algo.ObjIndex
