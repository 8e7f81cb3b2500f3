import Glaber.Algo.ElemsHash
import Glaber.Lib.Sorted

/-! The two-way object index (`obj_index.c`). -/

namespace Glaber.Algo

open Glaber.Lib.Assoc Glaber.Lib.Sorted

abbrev RefHash := ElemsHash (List Id)

structure ObjIndex where
  fromTo : RefHash
  toFrom : RefHash

namespace ObjIndex

def vectorSort (v : List Id) : List Id := v.insertionSort (· ≤ ·)

def refCreateCallback (_ : Id) : Elem (List Id) := ⟨0, []⟩
def refFreeCallback (_ : Id) (_ : Elem (List Id)) : ℤ := succeed

def init : ObjIndex :=
  ⟨ElemsHash.init refCreateCallback refFreeCallback, ElemsHash.init refCreateCallback refFreeCallback⟩

def addRefCallback : ProcessCb (List Id) Id :=
  fun _ elem idTo => (succeed, { elem with data := vectorSort (elem.data ++ [idTo]) }, idTo)

def delRefCallback : ProcessCb (List Id) Id :=
  fun _ elem idTo =>
    match bsearch elem.data idTo with
    | none => (succeed, elem, idTo)
    | some i =>
      let refs := elem.data.eraseIdx i
      (succeed, ⟨if refs.length = 0 then elem.flags ||| elemFlagDelete else elem.flags, refs⟩, idTo)

def getRefsCallback : ProcessCb (List Id) (List Id) :=
  fun _ elem outRefs => (succeed, elem, outRefs ++ elem.data)

def delRefFrom (h : RefHash) (key id : Id) : RefHash :=
  (h.process key (some delRefCallback) id elemFlagDoNotCreate).2.1

def addRef (idx : ObjIndex) (idFrom idTo : Id) : ObjIndex where
  fromTo := (idx.fromTo.process idFrom (some addRefCallback) idTo 0).2.1
  toFrom := (idx.toFrom.process idTo (some addRefCallback) idFrom 0).2.1

def delRef (idx : ObjIndex) (idFrom idTo : Id) : ObjIndex where
  fromTo := delRefFrom idx.fromTo idFrom idTo
  toFrom := delRefFrom idx.toFrom idTo idFrom

def delIdFrom (idx : ObjIndex) (id : Id) : ObjIndex :=
  let (_, fromTo, ids) := idx.fromTo.process id (some getRefsCallback) [] elemFlagDoNotCreate
  ⟨(fromTo.delete id).2, ids.foldl (fun h key => delRefFrom h key id) idx.toFrom⟩

def delIdTo (idx : ObjIndex) (id : Id) : ObjIndex :=
  let (_, toFrom, ids) := idx.toFrom.process id (some getRefsCallback) [] elemFlagDoNotCreate
  ⟨ids.foldl (fun h key => delRefFrom h key id) idx.fromTo, (toFrom.delete id).2⟩

inductive Op
  | addRef (idFrom idTo : Id)
  | delRef (idFrom idTo : Id)
  | delIdFrom (id : Id)
  | delIdTo (id : Id)

def apply (idx : ObjIndex) : Op → ObjIndex
  | .addRef a b => idx.addRef a b
  | .delRef a b => idx.delRef a b
  | .delIdFrom a => idx.delIdFrom a
  | .delIdTo b => idx.delIdTo b

def run (ops : List Op) : ObjIndex := ops.foldl apply init

def refs (h : RefHash) (id : Id) : List Id := ((h.lookup id).map Elem.data).getD []

structure RefsOk (h : RefHash) : Prop where
  create : h.elemCreateFunc = refCreateCallback
  sorted : ∀ id, (refs h id).Pairwise (· ≤ ·)

lemma vectorSort_sorted (v : List Id) : (vectorSort v).Pairwise (· ≤ ·) := v.pairwise_insertionSort _

lemma vectorSort_count (v : List Id) (y : Id) : (vectorSort v).count y = v.count y :=
  (v.perm_insertionSort _).count_eq y

section

variable {h : RefHash}

lemma refs_process {σ : Type} {key : Id} {flags : BitVec 64} {elem : Elem (List Id)}
    (ht : h.target key flags = some elem) (cb : ProcessCb (List Id) σ) (params : σ) (j : Id) :
    refs (h.process key (some cb) params flags).2.1 j =
      if j = key then (cb key elem params).2.1.data else refs h j := by
  obtain ⟨-, -, hl, hne, -⟩ := ElemsHash.process_of_target ht cb params
  split_ifs with hj
  · subst hj
    simp [refs, hl]
  · simp only [refs, hne j hj]

lemma refs_of_target (hc : h.elemCreateFunc = refCreateCallback) {key : Id} {flags : BitVec 64}
    {elem : Elem (List Id)} (ht : h.target key flags = some elem) : elem.data = refs h key := by
  rw [ElemsHash.target] at ht
  cases hl : h.lookup key with
  | some e => simp_all [refs]
  | none =>
    simp only [hl] at ht
    split_ifs at ht
    cases ht
    simp [refs, hl, hc, refCreateCallback]

lemma target_create (h : RefHash) (key : Id) : ∃ elem, h.target key 0 = some elem := by
  cases hl : h.lookup key <;> simp [ElemsHash.target, hl, elemFlagDoNotCreate]

lemma add_ok (hk : RefsOk h) (key id : Id) : RefsOk (h.process key (some addRefCallback) id 0).2.1 := by
  obtain ⟨elem, ht⟩ := target_create h key
  refine ⟨(ElemsHash.process_of_target ht addRefCallback id).2.2.2.2.trans hk.create, fun j => ?_⟩
  rw [refs_process ht]
  split_ifs with hj
  · exact vectorSort_sorted _
  · exact hk.sorted j

lemma add_count (hk : RefsOk h) (key id j y : Id) :
    (refs (h.process key (some addRefCallback) id 0).2.1 j).count y =
      (refs h j).count y + if j = key ∧ y = id then 1 else 0 := by
  obtain ⟨elem, ht⟩ := target_create h key
  rw [refs_process ht]
  by_cases hj : j = key
  · subst hj
    rw [if_pos rfl]
    change (vectorSort (elem.data ++ [id])).count y = _
    rw [vectorSort_count, refs_of_target hk.create ht, List.count_append]
    congr 1
    by_cases hy : y = id
    · simp [hy]
    · simp [hy, Ne.symm hy]
  · simp [hj]

lemma del_refs_absent {key : Id} (hl : h.lookup key = none) (id : Id) : delRefFrom h key id = h := by
  have ht : h.target key elemFlagDoNotCreate = none := by simp [ElemsHash.target, hl, elemFlagDoNotCreate]
  simp [delRefFrom, ElemsHash.process_of_target_none ht]

lemma del_ok (hk : RefsOk h) (key id : Id) : RefsOk (delRefFrom h key id) := by
  cases hl : h.lookup key with
  | none =>
    rw [del_refs_absent hl]
    exact hk
  | some elem =>
    have ht : h.target key elemFlagDoNotCreate = some elem := by simp [ElemsHash.target, hl]
    have hd := refs_of_target hk.create ht
    refine ⟨(ElemsHash.process_of_target ht delRefCallback id).2.2.2.2.trans hk.create, fun j => ?_⟩
    rw [delRefFrom, refs_process ht]
    split_ifs with hj
    · rw [delRefCallback]
      split
      · exact hd ▸ hk.sorted key
      · exact List.Pairwise.eraseIdx _ (hd ▸ hk.sorted key)
    · exact hk.sorted j

lemma del_count (hk : RefsOk h) (key id j y : Id) :
    (refs (delRefFrom h key id) j).count y = (refs h j).count y - if j = key ∧ y = id then 1 else 0 := by
  cases hl : h.lookup key with
  | none =>
    rw [del_refs_absent hl]
    by_cases hj : j = key
    · subst hj
      simp [refs, hl]
    · simp [hj]
  | some elem =>
    have ht : h.target key elemFlagDoNotCreate = some elem := by simp [ElemsHash.target, hl]
    have hd := refs_of_target hk.create ht
    have hs : elem.data.Pairwise (· ≤ ·) := hd ▸ hk.sorted key
    rw [delRefFrom, refs_process ht]
    by_cases hj : j = key
    · subst hj
      rw [if_pos rfl, ← hd, delRefCallback]
      split
      · rename_i hb
        have hn := List.count_eq_zero.mpr (bsearch_none hs hb)
        by_cases hy : y = id
        · subst hy
          simp [hn]
        · simp [hy]
      · rename_i i hb
        have hc := count_eraseIdx (bsearch_some hb) y
        simp only [true_and]
        omega
    · simp [hj]

lemma delAll_ok (hk : RefsOk h) (id : Id) (keys : List Id) :
    RefsOk (keys.foldl (fun h key => delRefFrom h key id) h) := by
  induction keys generalizing h with
  | nil => exact hk
  | cons key keys ih => exact ih (del_ok hk key id)

lemma delAll_count (hk : RefsOk h) (id : Id) (keys : List Id) (j y : Id) :
    (refs (keys.foldl (fun h key => delRefFrom h key id) h) j).count y =
      (refs h j).count y - if y = id then keys.count j else 0 := by
  induction keys generalizing h with
  | nil => simp
  | cons key keys ih =>
    rw [List.foldl_cons, ih (del_ok hk key id), del_count hk, List.count_cons]
    by_cases hy : y = id
    · by_cases hj : j = key
      · subst hj
        simp [hy]
        omega
      · simp [hy, hj, Ne.symm hj]
    · simp [hy]

lemma get_refs (h : RefHash) (hk : RefsOk h) (key : Id) :
    (∀ j, refs (h.process key (some getRefsCallback) [] elemFlagDoNotCreate).2.1 j = refs h j) ∧
    (h.process key (some getRefsCallback) [] elemFlagDoNotCreate).2.1.elemCreateFunc = refCreateCallback ∧
    (h.process key (some getRefsCallback) [] elemFlagDoNotCreate).2.2 = refs h key := by
  cases ht : h.target key elemFlagDoNotCreate with
  | none =>
    rw [ElemsHash.process_of_target_none ht]
    refine ⟨fun _ => rfl, hk.create, ?_⟩
    cases hl : h.lookup key with
    | none => simp [refs, hl]
    | some e => simp [ElemsHash.target, hl] at ht
  | some elem =>
    obtain ⟨-, hp, -, -, hc⟩ := ElemsHash.process_of_target ht getRefsCallback []
    refine ⟨fun j => ?_, hc.trans hk.create, ?_⟩
    · rw [refs_process ht]
      split_ifs with hj
      · subst hj
        exact refs_of_target hk.create ht
      · rfl
    · rw [hp]
      exact refs_of_target hk.create ht

lemma refs_delete (h : RefHash) (key j : Id) : refs (h.delete key).2 j = if j = key then [] else refs h j := by
  split_ifs with hj
  · subst hj
    simp [refs, ElemsHash.lookup_delete_self]
  · simp [refs, ElemsHash.lookup_delete_ne h hj]

lemma delete_create (h : RefHash) (key : Id) : (h.delete key).2.elemCreateFunc = h.elemCreateFunc := by
  rw [ElemsHash.delete]
  split <;> rfl

lemma delete_ok (hk : RefsOk h) (key : Id) :
    RefsOk ((h.process key (some getRefsCallback) [] elemFlagDoNotCreate).2.1.delete key).2 := by
  obtain ⟨hr, hc, -⟩ := get_refs h hk key
  refine ⟨(delete_create _ key).trans hc, fun j => ?_⟩
  rw [refs_delete, hr]
  split_ifs
  · exact List.Pairwise.nil
  · exact hk.sorted j

end

structure Mirror (idx : ObjIndex) : Prop where
  fromOk : RefsOk idx.fromTo
  toOk : RefsOk idx.toFrom
  count : ∀ a b, (refs idx.fromTo a).count b = (refs idx.toFrom b).count a

lemma mirror_init : Mirror init :=
  ⟨⟨rfl, fun _ => List.Pairwise.nil⟩, ⟨rfl, fun _ => List.Pairwise.nil⟩, fun _ _ => rfl⟩

lemma mirror_addRef {idx : ObjIndex} (hm : Mirror idx) (a b : Id) : Mirror (idx.addRef a b) := by
  refine ⟨add_ok hm.fromOk a b, add_ok hm.toOk b a, fun x y => ?_⟩
  rw [addRef, add_count hm.fromOk, add_count hm.toOk, hm.count]
  simp only [and_comm]

lemma mirror_delRef {idx : ObjIndex} (hm : Mirror idx) (a b : Id) : Mirror (idx.delRef a b) := by
  refine ⟨del_ok hm.fromOk a b, del_ok hm.toOk b a, fun x y => ?_⟩
  rw [delRef, del_count hm.fromOk, del_count hm.toOk, hm.count]
  simp only [and_comm]

lemma mirror_delIdFrom {idx : ObjIndex} (hm : Mirror idx) (id : Id) : Mirror (idx.delIdFrom id) := by
  obtain ⟨hr, -, hids⟩ := get_refs idx.fromTo hm.fromOk id
  refine ⟨delete_ok hm.fromOk id, delAll_ok hm.toOk id _, fun x y => ?_⟩
  simp only [delIdFrom, refs_delete, hr, hids]
  rw [delAll_count hm.toOk]
  by_cases hx : x = id
  · subst hx
    simp [hm.count]
  · simp [hx, hm.count]

lemma mirror_delIdTo {idx : ObjIndex} (hm : Mirror idx) (id : Id) : Mirror (idx.delIdTo id) := by
  obtain ⟨hr, -, hids⟩ := get_refs idx.toFrom hm.toOk id
  refine ⟨delAll_ok hm.fromOk id _, delete_ok hm.toOk id, fun x y => ?_⟩
  simp only [delIdTo, refs_delete, hr, hids]
  rw [delAll_count hm.fromOk]
  by_cases hy : y = id
  · subst hy
    simp [hm.count]
  · simp [hy, hm.count]

lemma mirror_apply {idx : ObjIndex} (hm : Mirror idx) (op : Op) : Mirror (idx.apply op) := by
  cases op with
  | addRef a b => exact mirror_addRef hm a b
  | delRef a b => exact mirror_delRef hm a b
  | delIdFrom a => exact mirror_delIdFrom hm a
  | delIdTo b => exact mirror_delIdTo hm b

lemma mirror_run (ops : List Op) : Mirror (run ops) := by
  suffices h : ∀ idx, Mirror idx → Mirror (ops.foldl apply idx) from h init mirror_init
  induction ops with
  | nil => exact fun _ hm => hm
  | cons op ops ih => exact fun idx hm => ih _ (mirror_apply hm op)

theorem index_mirrored_and_sorted (ops : List Op) :
    (∀ a b, (refs (run ops).fromTo a).count b = (refs (run ops).toFrom b).count a) ∧
    (∀ id elem, (run ops).fromTo.lookup id = some elem → elem.data.Pairwise (· ≤ ·)) ∧
    (∀ id elem, (run ops).toFrom.lookup id = some elem → elem.data.Pairwise (· ≤ ·)) := by
  have hm := mirror_run ops
  refine ⟨hm.count, fun id elem hl => ?_, fun id elem hl => ?_⟩
  · simpa [refs, hl] using hm.fromOk.sorted id
  · simpa [refs, hl] using hm.toOk.sorted id

end ObjIndex

end Glaber.Algo
