import Glaber.Algo.BinaryHeap
import Glaber.Lib.Runs

namespace Glaber.Algo.BinaryHeap

open Glaber.Lib.HeapOrder Glaber.Lib.Runs

variable {δ : Type}

inductive Op (δ : Type) where
  | insert (elem : HeapElem δ)
  | updateDirect (elem : HeapElem δ)
  | removeDirect (key : HeapKey)
  | removeMin

def apply (c : CompareFunc δ) (heap : BinaryHeap δ) : Op δ → Option (BinaryHeap δ)
  | .insert elem => heap.insert c elem
  | .updateDirect elem => heap.updateDirect c elem
  | .removeDirect key => heap.removeDirect c key
  | .removeMin => heap.removeMin c

inductive Effect (c : CompareFunc δ) : Multiset (HeapElem δ) → Op δ → Multiset (HeapElem δ) → Prop
  | insert (stock : Multiset (HeapElem δ)) (elem : HeapElem δ) (hfresh : ∀ x ∈ stock, x.key ≠ elem.key) :
      Effect c stock (.insert elem) (elem ::ₘ stock)
  | updateDirect (rest : Multiset (HeapElem δ)) (old elem : HeapElem δ) (hkey : old.key = elem.key) :
      Effect c (old ::ₘ rest) (.updateDirect elem) (elem ::ₘ rest)
  | removeDirect (rest : Multiset (HeapElem δ)) (old : HeapElem δ) :
      Effect c (old ::ₘ rest) (.removeDirect old.key) rest
  | removeMin (rest : Multiset (HeapElem δ)) (least : HeapElem δ) (hmin : ∀ x ∈ least ::ₘ rest, Le c least x) :
      Effect c (least ::ₘ rest) .removeMin rest

def Admissible (stock : Multiset (HeapElem δ)) : Op δ → Prop
  | .insert elem => ∀ x ∈ stock, x.key ≠ elem.key
  | .updateDirect elem => ∃ x ∈ stock, x.key = elem.key
  | .removeDirect key => ∃ x ∈ stock, x.key = key
  | .removeMin => stock ≠ 0

structure WellFormed (c : CompareFunc δ) (heap : BinaryHeap δ) : Prop where
  direct : heap.direct = true
  indexed : heap.Indexed
  ordered : Ordered (Le c) heap.elems heap.elemsNum

section

variable {heap : BinaryHeap δ} {p : ℕ}

lemma mem_contents {x : HeapElem δ} : x ∈ heap.contents ↔ ∃ i < heap.elemsNum, heap.elems i = x := by
  simp [contents]

lemma contents_succ (elems : ℕ → HeapElem δ) (n : ℕ) (direct : Bool) (keyIndex : HeapKey → Option ℕ) :
    (⟨elems, n + 1, direct, keyIndex⟩ : BinaryHeap δ).contents
      = elems n ::ₘ (⟨elems, n, direct, keyIndex⟩ : BinaryHeap δ).contents := by
  rw [contents, contents, Multiset.range_succ, Multiset.map_cons]

lemma contents_setElem (hp : p < heap.elemsNum) :
    ∃ rest, heap.contents = heap.elems p ::ₘ rest ∧ ∀ elem, (heap.setElem p elem).contents = elem ::ₘ rest := by
  obtain ⟨others, hothers⟩ := Multiset.exists_cons_of_mem (Multiset.mem_range.mpr hp)
  have hnotin : p ∉ others := by
    have hnodup := Multiset.nodup_range heap.elemsNum
    rw [hothers] at hnodup
    exact (Multiset.nodup_cons.mp hnodup).1
  refine ⟨others.map heap.elems, ?_, fun elem => ?_⟩
  · rw [contents, hothers, Multiset.map_cons]
  · have hrest : others.map (Function.update heap.elems p elem) = others.map heap.elems := by
      refine Multiset.map_congr rfl fun k hk => Function.update_of_ne ?_ _ _
      rintro rfl
      exact hnotin hk
    simp only [contents, setElem]
    rw [hothers, Multiset.map_cons, Function.update_self, hrest]

lemma setElem_past (elem : HeapElem δ) (hp : heap.elemsNum ≤ p) : (heap.setElem p elem).contents = heap.contents := by
  refine Multiset.map_congr rfl fun k hk => Function.update_of_ne ?_ _ _
  have hk' : k < heap.elemsNum := Multiset.mem_range.mp hk
  omega

lemma Indexed.stored (h : heap.Indexed) {key : HeapKey} :
    (∃ x ∈ heap.contents, x.key = key) ↔ ∃ index, heap.keyIndex key = some index := by
  constructor
  · rintro ⟨x, hx, hkey⟩
    obtain ⟨i, hi, rfl⟩ := mem_contents.mp hx
    exact ⟨i, (h key i).mpr ⟨hi, hkey⟩⟩
  · rintro ⟨index, hidx⟩
    obtain ⟨hi, hkey⟩ := (h key index).mp hidx
    exact ⟨_, mem_contents.mpr ⟨index, hi, rfl⟩, hkey⟩

end

section

variable {c : CompareFunc δ} {heap : BinaryHeap δ}

lemma minimal_contents (h : Ordered (Le c) heap.elems heap.elemsNum) : ∀ x ∈ heap.contents, Le c (heap.elems 0) x := by
  intro x hx
  obtain ⟨i, hi, rfl⟩ := mem_contents.mp hx
  exact h.minimal (Le.refl c) (Le.trans c) hi

lemma insert_order (h : Ordered (Le c) heap.elems heap.elemsNum) {elem : HeapElem δ}
    (hnew : ¬ (heap.direct ∧ heap.keyIndex elem.key ≠ none)) :
    ∃ heap', heap.insert c elem = some heap' ∧ heap'.direct = heap.direct ∧
      Ordered (Le c) heap'.elems heap'.elemsNum ∧ heap'.contents = elem ::ₘ heap.contents := by
  have hstock : ({ heap with elemsNum := heap.elemsNum + 1 }.setElem heap.elemsNum elem).contents
      = elem ::ₘ heap.contents := by
    rw [setElem, contents_succ, Function.update_self]
    exact congrArg _ (setElem_past elem le_rfl)
  have hhole : Hole (Le c) (Function.update heap.elems heap.elemsNum elem) (heap.elemsNum + 1) heap.elemsNum :=
    h.hole_push elem
  rw [insert, if_neg hnew]
  rcases bubbleUp_order (c := c) ({ heap with elemsNum := heap.elemsNum + 1 }.setElem heap.elemsNum elem)
    heap.elemsNum (Nat.lt_succ_self _) le_rfl hhole with ⟨heq, hs⟩ | ⟨hrep, hlt⟩
  · have hord := hs.ordered fun i h0 hi hpar => by
      have hi' : i < heap.elemsNum + 1 := hi
      omega
    simp only [heq]
    rw [if_pos (by rfl)]
    exact ⟨_, rfl, setIndex_direct _ _, by simpa using hord, (setIndex_same _ _).contents.trans hstock⟩
  · refine ⟨_, ?_, hrep.direct, hrep.ordered, hrep.contents.trans hstock⟩
    dsimp only
    rw [if_neg]
    rw [hrep.elemsNum]
    exact hlt.ne

lemma removeIndex_same (heap : BinaryHeap δ) (key : HeapKey) :
    (heap.removeIndex key).elems = heap.elems ∧ (heap.removeIndex key).elemsNum = heap.elemsNum ∧
      (heap.removeIndex key).direct = heap.direct := by
  rw [removeIndex]
  split_ifs <;> exact ⟨rfl, rfl, rfl⟩

lemma removeMin_order (h : Ordered (Le c) heap.elems heap.elemsNum) (hne : heap.elemsNum ≠ 0) :
    ∃ heap', heap.removeMin c = some heap' ∧ heap'.direct = heap.direct ∧
      Ordered (Le c) heap'.elems heap'.elemsNum ∧ heap.contents = heap.elems 0 ::ₘ heap'.contents := by
  obtain ⟨helems, hnum, hdirect⟩ := removeIndex_same heap (heap.elems 0).key
  rw [removeMin, if_neg hne]
  dsimp only
  generalize heap.removeIndex (heap.elems 0).key = without at *
  obtain ⟨elems, n, direct, keyIndex⟩ := without
  dsimp only at helems hnum hdirect ⊢
  obtain ⟨_, _, _, keyIndex'⟩ := heap
  dsimp only at helems hnum hdirect h hne ⊢
  subst helems hnum hdirect
  obtain ⟨n, rfl⟩ := Nat.exists_eq_succ_of_ne_zero hne
  rw [Nat.succ_eq_add_one, Nat.add_sub_cancel]
  by_cases hone : n = 0
  · subst hone
    rw [if_neg (by simp)]
    exact ⟨_, rfl, rfl, h.mono (Nat.zero_le 1), contents_succ _ _ _ _⟩
  · have hpos : 0 < n := Nat.pos_of_ne_zero hone
    have hlt : 0 < (⟨elems, n, direct, keyIndex⟩ : BinaryHeap δ).elemsNum := hpos
    obtain ⟨rest, hrest, hset⟩ := contents_setElem hlt
    have hs : Sinking (Le c) (Function.update elems 0 (elems n)) n 0 :=
      ⟨(h.mono (Nat.le_succ n)).hole_update (Le.trans c) hpos _, fun h0 => absurd h0 (lt_irrefl 0)⟩
    have hstock : (⟨elems, n + 1, direct, keyIndex'⟩ : BinaryHeap δ).contents
        = elems 0 ::ₘ ((⟨elems, n, direct, keyIndex⟩ : BinaryHeap δ).setElem 0 (elems n)).contents := by
      rw [hset, Multiset.cons_swap, contents_succ]
      exact congrArg _ hrest
    rw [if_pos hone]
    rcases bubbleDown_order (c := c) ((⟨elems, n, direct, keyIndex⟩ : BinaryHeap δ).setElem 0 (elems n)) n hpos
      (Nat.le_add_left _ _) hs with ⟨heq, hord⟩ | ⟨hrep, hmoved⟩
    · rw [heq, if_pos rfl]
      exact ⟨_, rfl, setIndex_direct _ _, by simpa using hord, hstock.trans (congrArg _ (setIndex_same _ _).contents.symm)⟩
    · rw [if_neg hmoved.ne']
      exact ⟨_, rfl, hrep.direct, hrep.ordered, hstock.trans (congrArg _ hrep.contents.symm)⟩

end

section

variable {c : CompareFunc δ} {heap : BinaryHeap δ}

lemma WellFormed.minimal (h : WellFormed c heap) : ∀ x ∈ heap.contents, Le c (heap.elems 0) x :=
  minimal_contents h.ordered

lemma Repaired.wellFormed {heap' : BinaryHeap δ} (h : Repaired c heap heap') (hd : heap.direct = true) :
    WellFormed c heap' :=
  ⟨h.direct.trans hd, h.indexed, h.ordered⟩

lemma wellFormed_setIndex (heap : BinaryHeap δ) {index : ℕ} (hd : heap.direct = true) (hi : index < heap.elemsNum)
    (hidx : heap.IndexedBut index) (hord : Ordered (Le c) heap.elems heap.elemsNum) :
    WellFormed c (heap.setIndex (heap.elems index).key index) :=
  ⟨(setIndex_direct _ _).trans hd, hidx.setIndex hd hi, by simpa using hord⟩

lemma Indexed.push (h : heap.Indexed) {elem : HeapElem δ} (hnew : heap.keyIndex elem.key = none) :
    ({ heap with elemsNum := heap.elemsNum + 1 }.setElem heap.elemsNum elem).IndexedBut heap.elemsNum := by
  have hcell : ∀ i, i < heap.elemsNum → Function.update heap.elems heap.elemsNum elem i = heap.elems i :=
    fun i hi => Function.update_of_ne hi.ne _ _
  have hfresh : ∀ i, i < heap.elemsNum → (heap.elems i).key ≠ elem.key := by
    intro i hi hkey
    have := (h elem.key i).mpr ⟨hi, hkey⟩
    rw [hnew] at this
    cases this
  refine ⟨fun i j hi hj hkey => ?_, fun key hk index => ?_⟩
  · simp only [setElem] at hi hj hkey
    rcases Nat.lt_succ_iff_lt_or_eq.mp hi with hi | rfl <;> rcases Nat.lt_succ_iff_lt_or_eq.mp hj with hj | rfl
    · rw [hcell i hi, hcell j hj] at hkey
      exact (h.indexedBut 0).distinct i j hi hj hkey
    · rw [hcell i hi, Function.update_self] at hkey
      exact absurd hkey (hfresh i hi)
    · rw [hcell j hj, Function.update_self] at hkey
      exact absurd hkey.symm (hfresh j hj)
    · rfl
  · simp only [setElem, Function.update_self] at hk ⊢
    rw [h key index]
    constructor
    · rintro ⟨hi, hkey⟩
      exact ⟨by omega, by rw [hcell index hi]; exact hkey⟩
    · rintro ⟨hi, hkey⟩
      rcases Nat.lt_succ_iff_lt_or_eq.mp hi with hi | rfl
      · rw [hcell index hi] at hkey
        exact ⟨hi, hkey⟩
      · rw [Function.update_self] at hkey
        exact absurd hkey.symm hk

lemma insert_spec (h : WellFormed c heap) {elem : HeapElem δ} (hnew : heap.keyIndex elem.key = none) :
    ∃ heap', heap.insert c elem = some heap' ∧ WellFormed c heap' ∧ heap'.contents = elem ::ₘ heap.contents := by
  have hstock : ({ heap with elemsNum := heap.elemsNum + 1 }.setElem heap.elemsNum elem).contents
      = elem ::ₘ heap.contents := by
    rw [setElem, contents_succ, Function.update_self]
    exact congrArg _ (setElem_past elem le_rfl)
  have hidx := h.indexed.push hnew
  have hhole : Hole (Le c) (Function.update heap.elems heap.elemsNum elem) (heap.elemsNum + 1) heap.elemsNum :=
    h.ordered.hole_push elem
  rw [insert, if_neg (by simp [hnew])]
  rcases bubbleUp_spec (c := c) ({ heap with elemsNum := heap.elemsNum + 1 }.setElem heap.elemsNum elem)
    heap.elemsNum h.direct (Nat.lt_succ_self _) le_rfl hidx hhole with ⟨heq, hs⟩ | ⟨hrep, hlt⟩
  · have hord := hs.ordered fun i h0 hi hpar => by
      have hi' : i < heap.elemsNum + 1 := hi
      omega
    have hwf := wellFormed_setIndex ({ heap with elemsNum := heap.elemsNum + 1 }.setElem heap.elemsNum elem)
      h.direct (Nat.lt_succ_self _) hidx hord
    have hcell : ({ heap with elemsNum := heap.elemsNum + 1 }.setElem heap.elemsNum elem).elems heap.elemsNum = elem :=
      Function.update_self _ _ _
    rw [hcell] at hwf
    refine ⟨_, ?_, hwf, (setIndex_same _ _).contents.trans hstock⟩
    simp only [heq]
    rw [if_pos (by rfl)]
  · refine ⟨_, ?_, hrep.wellFormed h.direct, hrep.contents.trans hstock⟩
    simp only
    rw [if_neg]
    rw [hrep.elemsNum]
    exact hlt.ne

lemma Indexed.setElem (h : heap.Indexed) {p : ℕ} {elem : HeapElem δ} (hkey : (heap.elems p).key = elem.key) :
    (heap.setElem p elem).Indexed := by
  intro key index
  have hcell : ((heap.setElem p elem).elems index).key = (heap.elems index).key := by
    simp only [BinaryHeap.setElem]
    by_cases hip : index = p
    · rw [hip, Function.update_self, hkey]
    · rw [Function.update_of_ne hip]
  rw [hcell]
  exact h key index

lemma updateDirect_spec (h : WellFormed c heap) {elem : HeapElem δ} {p : ℕ} (hp : heap.keyIndex elem.key = some p) :
    ∃ heap' rest, heap.updateDirect c elem = some heap' ∧ WellFormed c heap' ∧
      heap.contents = heap.elems p ::ₘ rest ∧ (heap.elems p).key = elem.key ∧ heap'.contents = elem ::ₘ rest := by
  obtain ⟨hlt, hkey⟩ := (h.indexed _ _).mp hp
  obtain ⟨rest, hrest, hset⟩ := contents_setElem hlt
  have hidx : (heap.setElem p elem).Indexed := h.indexed.setElem hkey
  have hhole : Hole (Le c) (heap.setElem p elem).elems (heap.setElem p elem).elemsNum p :=
    h.ordered.hole_update (Le.trans c) hlt elem
  rw [updateDirect, if_pos h.direct, hp]
  simp only
  rcases bubbleUp_spec (c := c) (heap.setElem p elem) p h.direct hlt le_rfl (hidx.indexedBut p) hhole with
    ⟨heq, hs⟩ | ⟨hrep, hmoved⟩
  · rw [heq]
    simp only [if_true]
    rcases bubbleDown_spec (c := c) (heap.setElem p elem) (heap.setElem p elem).elemsNum h.direct hlt
      (Nat.le_add_left _ _) (hidx.indexedBut p) hs with ⟨heq', hord⟩ | ⟨hrep, _⟩
    · exact ⟨_, rest, rfl, by rw [heq']; exact ⟨h.direct, hidx, hord⟩, hrest, hkey, by rw [heq']; exact hset elem⟩
    · exact ⟨_, rest, rfl, hrep.wellFormed h.direct, hrest, hkey, hrep.contents.trans (hset elem)⟩
  · rw [if_neg hmoved.ne']
    exact ⟨_, rest, rfl, hrep.wellFormed h.direct, hrest, hkey, hrep.contents.trans (hset elem)⟩

end

section

variable {c : CompareFunc δ} {elems : ℕ → HeapElem δ} {n p : ℕ} {keyIndex : HeapKey → Option ℕ}

def refill (elems : ℕ → HeapElem δ) (n p : ℕ) (keyIndex : HeapKey → Option ℕ) : BinaryHeap δ :=
  ⟨Function.update elems p (elems n), n, true, Function.update keyIndex (elems p).key none⟩

lemma removeIndex_direct (m : ℕ) (key : HeapKey) :
    (⟨elems, m, true, keyIndex⟩ : BinaryHeap δ).removeIndex key
      = ⟨elems, m, true, Function.update keyIndex key none⟩ := by
  simp [removeIndex]

lemma Indexed.drop_last (h : (⟨elems, n + 1, true, keyIndex⟩ : BinaryHeap δ).Indexed) :
    (⟨elems, n, true, Function.update keyIndex (elems n).key none⟩ : BinaryHeap δ).Indexed := by
  intro key index
  have hkey := h key index
  simp only at hkey ⊢
  by_cases hk : key = (elems n).key
  · rw [hk, Function.update_self]
    refine iff_of_false (by simp) fun ⟨hi, hkey⟩ => ?_
    have : index = n := (h.indexedBut 0).distinct index n (Nat.lt_succ_of_lt hi) (Nat.lt_succ_self n) hkey
    omega
  · rw [Function.update_of_ne hk, hkey]
    refine and_congr_left fun hcell => ?_
    have hne : index ≠ n := by
      rintro rfl
      exact hk hcell.symm
    omega

lemma Indexed.refill (h : (⟨elems, n + 1, true, keyIndex⟩ : BinaryHeap δ).Indexed) (hp : p < n) :
    (refill elems n p keyIndex).IndexedBut p := by
  have hdist : ∀ i j, i < n + 1 → j < n + 1 → (elems i).key = (elems j).key → i = j := (h.indexedBut 0).distinct
  refine ⟨fun i j hi hj hkey => ?_, fun key hk index => ?_⟩
  · simp only [BinaryHeap.refill] at hi hj hkey
    by_cases hip : i = p <;> by_cases hjp : j = p
    · rw [hip, hjp]
    · rw [hip, Function.update_self, Function.update_of_ne hjp] at hkey
      have := hdist _ _ (by omega) (by omega) hkey
      omega
    · rw [hjp, Function.update_self, Function.update_of_ne hip] at hkey
      have := hdist _ _ (by omega) (by omega) hkey
      omega
    · rw [Function.update_of_ne hip, Function.update_of_ne hjp] at hkey
      exact hdist i j (by omega) (by omega) hkey
  · have hold := h key index
    simp only [BinaryHeap.refill, Function.update_self] at hk hold ⊢
    by_cases hkp : key = (elems p).key
    · rw [hkp, Function.update_self]
      refine iff_of_false (by simp) fun ⟨hi, hkey⟩ => ?_
      by_cases hip : index = p
      · rw [hip, Function.update_self] at hkey
        exact hk (hkp.trans hkey.symm)
      · rw [Function.update_of_ne hip] at hkey
        exact hip (hdist index p (by omega) (by omega) hkey)
    · rw [Function.update_of_ne hkp, hold]
      constructor
      · rintro ⟨hi, hkey⟩
        have hip : index ≠ p := by
          rintro rfl
          exact hkp hkey.symm
        have hlast : index ≠ n := by
          rintro rfl
          exact hk hkey.symm
        exact ⟨by omega, by rw [Function.update_of_ne hip]; exact hkey⟩
      · rintro ⟨hi, hkey⟩
        by_cases hip : index = p
        · rw [hip, Function.update_self] at hkey
          exact absurd hkey.symm hk
        · rw [Function.update_of_ne hip] at hkey
          exact ⟨by omega, hkey⟩

lemma contents_refill (hp : p < n) :
    (⟨elems, n + 1, true, keyIndex⟩ : BinaryHeap δ).contents = elems p ::ₘ (refill elems n p keyIndex).contents := by
  have hlt : p < (⟨elems, n, true, keyIndex⟩ : BinaryHeap δ).elemsNum := hp
  obtain ⟨rest, hrest, hset⟩ := contents_setElem hlt
  have hnew : (refill elems n p keyIndex).contents = elems n ::ₘ rest := hset (elems n)
  rw [hnew, Multiset.cons_swap, contents_succ, hrest]

lemma hole_refill (h : Ordered (Le c) elems (n + 1)) (hp : p < n) :
    Hole (Le c) (refill elems n p keyIndex).elems (refill elems n p keyIndex).elemsNum p :=
  (h.mono (Nat.le_succ n)).hole_update (Le.trans c) hp _

lemma removeMin_inner (hn : n ≠ 0) :
    (⟨elems, n + 1, true, keyIndex⟩ : BinaryHeap δ).removeMin c =
      let result := bubbleDown c n (refill elems n 0 keyIndex) 0
      some (if result.2 = 0 then result.1.setIndex (result.1.elems result.2).key result.2 else result.1) := by
  rw [removeMin, if_neg (Nat.succ_ne_zero n)]
  simp only [removeIndex_direct, Nat.add_sub_cancel]
  rw [if_pos hn]
  rfl

lemma removeDirect_inner {key : HeapKey} (hp : keyIndex key = some p) (hkey : (elems p).key = key) (hpn : p ≠ n) :
    (⟨elems, n + 1, true, keyIndex⟩ : BinaryHeap δ).removeDirect c key =
      let up := bubbleUp c p (refill elems n p keyIndex) p
      let down := bubbleDown c up.1.elemsNum up.1 p
      if p = up.2 then some (if p = down.2 then down.1.setIndex (down.1.elems p).key p else down.1)
      else some up.1 := by
  rw [removeDirect, if_pos rfl]
  simp only [hp, removeIndex_direct, Nat.add_sub_cancel]
  rw [if_pos hpn, ← hkey]
  rfl

lemma removeDirect_last {key : HeapKey} (hn : keyIndex key = some n) (hkey : (elems n).key = key) :
    (⟨elems, n + 1, true, keyIndex⟩ : BinaryHeap δ).removeDirect c key =
      some ⟨elems, n, true, Function.update keyIndex (elems n).key none⟩ := by
  rw [removeDirect, if_pos rfl]
  simp only [hn, removeIndex_direct, Nat.add_sub_cancel]
  rw [if_neg (by simp), hkey]

lemma removeMin_spec {heap : BinaryHeap δ} (h : WellFormed c heap) (hne : heap.elemsNum ≠ 0) :
    ∃ heap', heap.removeMin c = some heap' ∧ WellFormed c heap' ∧
      heap.contents = heap.elems 0 ::ₘ heap'.contents := by
  obtain ⟨elems, n, direct, keyIndex⟩ := heap
  obtain rfl : direct = true := h.direct
  obtain ⟨n, rfl⟩ := Nat.exists_eq_succ_of_ne_zero hne
  by_cases hone : n = 0
  · subst hone
    refine ⟨_, ?_, ⟨rfl, h.indexed.drop_last, h.ordered.mono (Nat.zero_le 1)⟩, contents_succ _ _ _ _⟩
    simp [removeMin, removeIndex_direct]
  · have hpos : 0 < n := Nat.pos_of_ne_zero hone
    have hidx := h.indexed.refill hpos
    have hs : Sinking (Le c) (refill elems n 0 keyIndex).elems (refill elems n 0 keyIndex).elemsNum 0 :=
      ⟨hole_refill h.ordered hpos, fun h0 => absurd h0 (lt_irrefl 0)⟩
    refine ⟨_, removeMin_inner hone, ?_⟩
    rcases bubbleDown_spec (c := c) (refill elems n 0 keyIndex) n rfl hpos (Nat.le_add_left _ _) hidx hs with
      ⟨heq, hord⟩ | ⟨hrep, hmoved⟩
    · rw [heq, if_pos rfl]
      exact ⟨wellFormed_setIndex _ rfl hpos hidx hord,
        (contents_refill hpos).trans (congrArg _ (setIndex_same _ _).contents.symm)⟩
    · rw [if_neg hmoved.ne']
      exact ⟨hrep.wellFormed rfl, (contents_refill hpos).trans (congrArg _ hrep.contents.symm)⟩

lemma removeDirect_spec {heap : BinaryHeap δ} (h : WellFormed c heap) {key : HeapKey} {p : ℕ}
    (hp : heap.keyIndex key = some p) :
    ∃ heap', heap.removeDirect c key = some heap' ∧ WellFormed c heap' ∧ (heap.elems p).key = key ∧
      heap.contents = heap.elems p ::ₘ heap'.contents := by
  obtain ⟨hlt, hkey⟩ := (h.indexed key p).mp hp
  obtain ⟨elems, n, direct, keyIndex⟩ := heap
  obtain rfl : direct = true := h.direct
  obtain ⟨n, rfl⟩ := Nat.exists_eq_succ_of_ne_zero (Nat.ne_of_gt (Nat.zero_lt_of_lt hlt))
  by_cases hlast : p = n
  · subst hlast
    exact ⟨_, removeDirect_last hp hkey, ⟨rfl, h.indexed.drop_last, h.ordered.mono (Nat.le_succ p)⟩, hkey,
      contents_succ _ _ _ _⟩
  · have hpn : p < n := lt_of_le_of_ne (Nat.lt_succ_iff.mp hlt) hlast
    have hidx := h.indexed.refill hpn
    have hstock : (⟨elems, n + 1, true, keyIndex⟩ : BinaryHeap δ).contents = _ := contents_refill hpn
    rw [Nat.succ_eq_add_one, removeDirect_inner hp hkey hlast]
    rcases bubbleUp_spec (c := c) (refill elems n p keyIndex) p rfl hpn le_rfl hidx (hole_refill h.ordered hpn) with
      ⟨heq, hs⟩ | ⟨hrep, hmoved⟩
    · simp only [heq, if_true]
      refine ⟨_, rfl, ?_⟩
      rcases bubbleDown_spec (c := c) (refill elems n p keyIndex) n rfl hpn (Nat.le_add_left _ _) hidx hs with
        ⟨heq', hord⟩ | ⟨hrep, hmoved⟩
      · rw [show (refill elems n p keyIndex).elemsNum = n from rfl, heq', if_pos rfl]
        exact ⟨wellFormed_setIndex _ rfl hpn hidx hord, hkey,
          hstock.trans (congrArg _ (setIndex_same _ _).contents.symm)⟩
      · rw [show (refill elems n p keyIndex).elemsNum = n from rfl, if_neg hmoved.ne]
        exact ⟨hrep.wellFormed rfl, hkey, hstock.trans (congrArg _ hrep.contents.symm)⟩
    · simp only
      rw [if_neg hmoved.ne']
      exact ⟨_, rfl, hrep.wellFormed rfl, hkey, hstock.trans (congrArg _ hrep.contents.symm)⟩

end

section

variable {c : CompareFunc δ}

inductive Given (c : CompareFunc δ) : List (Op δ) → Multiset (HeapElem δ) → Prop
  | nil : Given c [] 0
  | snoc {past : List (Op δ)} {stock stock' : Multiset (HeapElem δ)} {op : Op δ} (hpast : Given c past stock)
      (hop : Effect c stock op stock') : Given c (past ++ [op]) stock'

def run (c : CompareFunc δ) (cells : ℕ → HeapElem δ) (ops : List (Op δ)) : Option (BinaryHeap δ) :=
  ops.foldlM (apply c) (create cells true)

lemma create_wellFormed (cells : ℕ → HeapElem δ) : WellFormed c (create cells true) := by
  refine ⟨rfl, fun key index => ?_, fun i _ hi => absurd hi (Nat.not_lt_zero i)⟩
  simp [create]

lemma apply_spec {heap : BinaryHeap δ} (h : WellFormed c heap) (op : Op δ) :
    (Admissible heap.contents op ∧
      ∃ heap', apply c heap op = some heap' ∧ WellFormed c heap' ∧ Effect c heap.contents op heap'.contents) ∨
    (¬ Admissible heap.contents op ∧ apply c heap op = none) := by
  cases op with
  | insert elem =>
    cases hkey : heap.keyIndex elem.key with
    | none =>
      have hfresh : ∀ x ∈ heap.contents, x.key ≠ elem.key := by
        intro x hx hxk
        obtain ⟨index, hidx⟩ := h.indexed.stored.mp ⟨x, hx, hxk⟩
        rw [hkey] at hidx
        cases hidx
      obtain ⟨heap', heq, hwf, hstock⟩ := insert_spec h hkey
      exact .inl ⟨hfresh, heap', heq, hwf, hstock ▸ .insert _ elem hfresh⟩
    | some index =>
      obtain ⟨x, hx, hxk⟩ := h.indexed.stored.mpr ⟨index, hkey⟩
      refine .inr ⟨fun hfresh => hfresh x hx hxk, ?_⟩
      rw [apply, insert, if_pos ⟨h.direct, by simp [hkey]⟩]
  | updateDirect elem =>
    cases hkey : heap.keyIndex elem.key with
    | none =>
      refine .inr ⟨fun hstored => ?_, by simp [apply, updateDirect, hkey]⟩
      obtain ⟨index, hidx⟩ := h.indexed.stored.mp hstored
      rw [hkey] at hidx
      cases hidx
    | some index =>
      obtain ⟨heap', rest, heq, hwf, hold, hsame, hstock⟩ := updateDirect_spec h hkey
      refine .inl ⟨h.indexed.stored.mpr ⟨index, hkey⟩, heap', heq, hwf, ?_⟩
      rw [hold, hstock]
      exact .updateDirect rest _ elem hsame
  | removeDirect key =>
    cases hkey : heap.keyIndex key with
    | none =>
      refine .inr ⟨fun hstored => ?_, by simp [apply, removeDirect, hkey]⟩
      obtain ⟨index, hidx⟩ := h.indexed.stored.mp hstored
      rw [hkey] at hidx
      cases hidx
    | some index =>
      obtain ⟨heap', heq, hwf, hsame, hstock⟩ := removeDirect_spec h hkey
      refine .inl ⟨h.indexed.stored.mpr ⟨index, hkey⟩, heap', heq, hwf, ?_⟩
      rw [hstock, ← hsame]
      exact .removeDirect _ _
  | removeMin =>
    by_cases hne : heap.elemsNum = 0
    · refine .inr ⟨fun hstock => hstock ?_, by rw [apply, removeMin, if_pos hne]⟩
      simp [contents, hne]
    · obtain ⟨heap', heq, hwf, hstock⟩ := removeMin_spec h hne
      have hmin := h.minimal
      rw [hstock] at hmin
      refine .inl ⟨fun hempty => ?_, heap', heq, hwf, hstock ▸ .removeMin _ _ hmin⟩
      rw [hstock] at hempty
      exact Multiset.cons_ne_zero hempty

lemma run_spec {cells : ℕ → HeapElem δ} {ops : List (Op δ)} {heap : BinaryHeap δ} (h : run c cells ops = some heap) :
    WellFormed c heap ∧ Given c ops heap.contents := by
  refine foldlM_rule (fun past heap => WellFormed c heap ∧ Given c past heap.contents) ?_ ops
    ⟨create_wellFormed cells, .nil⟩ h
  rintro past s op s' ⟨hwf, hgiven⟩ hop
  rcases apply_spec hwf op with ⟨_, heap', heq, hwf', heff⟩ | ⟨_, hnone⟩
  · obtain rfl : heap' = s' := Option.some.inj (heq.symm.trans hop)
    exact ⟨hwf', hgiven.snoc heff⟩
  · rw [hnone] at hop
    cases hop

theorem heap_runs_stay_ordered_and_indexed (c : CompareFunc δ) (cells : ℕ → HeapElem δ) (ops : List (Op δ))
    (heap : BinaryHeap δ) (hrun : run c cells ops = some heap) :
    (∀ i, 0 < i → i < heap.elemsNum → c.compare (heap.elems ((i - 1) / 2)) (heap.elems i) ≤ 0) ∧
    (∀ key index, heap.keyIndex key = some index ↔ index < heap.elemsNum ∧ (heap.elems index).key = key) ∧
    (heap.contents ≠ 0 →
      ∃ least ∈ heap.contents, heap.findMin = some least ∧ ∀ x ∈ heap.contents, c.compare least x ≤ 0) ∧
    Given c ops heap.contents ∧
    ∀ op, (apply c heap op).isSome ↔ Admissible heap.contents op := by
  obtain ⟨hwf, hgiven⟩ := run_spec hrun
  refine ⟨hwf.ordered, hwf.indexed, fun hne => ?_, hgiven, fun op => ?_⟩
  · have hnum : heap.elemsNum ≠ 0 := fun h0 => hne (by simp [contents, h0])
    exact ⟨heap.elems 0, mem_contents.mpr ⟨0, Nat.pos_of_ne_zero hnum, rfl⟩, by rw [findMin, if_neg hnum], hwf.minimal⟩
  · rcases apply_spec hwf op with ⟨hadm, heap', heq, _⟩ | ⟨hadm, hnone⟩
    · simp [heq, hadm]
    · simp [hnone, hadm]

def byData : CompareFunc ℕ where
  compare a b := a.data - b.data
  total a b := by omega
  trans a b d := by omega

def fiveOps : List (Op ℕ) :=
  [.insert ⟨7, 5⟩, .insert ⟨8, 3⟩, .insert ⟨9, 4⟩, .updateDirect ⟨8, 6⟩, .removeMin]

theorem heap_run_of_five_operations :
    ∃ heap, run byData (fun _ => ⟨0, 0⟩) fiveOps = some heap ∧ heap.findMin = some ⟨7, 5⟩ ∧ heap.keyIndex 8 = some 1 ∧
      Given byData fiveOps heap.contents ∧ ∀ op, (apply byData heap op).isSome ↔ Admissible heap.contents op := by
  obtain ⟨heap, hrun⟩ : ∃ heap, run byData (fun _ => ⟨0, 0⟩) fiveOps = some heap :=
    Option.isSome_iff_exists.mp (by decide)
  have hmin : (run byData (fun _ => ⟨0, 0⟩) fiveOps).bind findMin = some ⟨7, 5⟩ := by decide
  have hkey : (run byData (fun _ => ⟨0, 0⟩) fiveOps).bind (·.keyIndex 8) = some 1 := by decide
  rw [hrun] at hmin hkey
  obtain ⟨_, _, _, hgiven, hnext⟩ := heap_runs_stay_ordered_and_indexed byData (fun _ => ⟨0, 0⟩) fiveOps heap hrun
  exact ⟨heap, hrun, hmin, hkey, hgiven, hnext⟩

end

end Glaber.Algo.BinaryHeap
