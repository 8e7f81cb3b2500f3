import Glaber.Lib.HeapOrder

/-! The binary heap with a key index (`binaryheap.c`). Cells past the stored elements hold whatever the
memory held. -/

namespace Glaber.Algo

abbrev HeapKey := ℕ

structure HeapElem (δ : Type) where
  key : HeapKey
  data : δ
deriving DecidableEq

structure CompareFunc (δ : Type) where
  compare : HeapElem δ → HeapElem δ → ℤ
  total : ∀ a b, compare a b ≤ 0 ∨ compare b a ≤ 0
  trans : ∀ a b c, compare a b ≤ 0 → compare b c ≤ 0 → compare a c ≤ 0

structure BinaryHeap (δ : Type) where
  elems : ℕ → HeapElem δ
  elemsNum : ℕ
  direct : Bool
  keyIndex : HeapKey → Option ℕ

namespace BinaryHeap

variable {δ : Type}

def create (cells : ℕ → HeapElem δ) (direct : Bool) : BinaryHeap δ := ⟨cells, 0, direct, fun _ => none⟩

def setIndex (heap : BinaryHeap δ) (key : HeapKey) (index : ℕ) : BinaryHeap δ :=
  if heap.direct then { heap with keyIndex := Function.update heap.keyIndex key (some index) } else heap

def removeIndex (heap : BinaryHeap δ) (key : HeapKey) : BinaryHeap δ :=
  if heap.direct then { heap with keyIndex := Function.update heap.keyIndex key none } else heap

def swap (heap : BinaryHeap δ) (index1 index2 : ℕ) : BinaryHeap δ :=
  let heap := { heap with elems := heap.elems ∘ Equiv.swap index1 index2 }
  (heap.setIndex (heap.elems index1).key index1).setIndex (heap.elems index2).key index2

def setElem (heap : BinaryHeap δ) (index : ℕ) (elem : HeapElem δ) : BinaryHeap δ :=
  { heap with elems := Function.update heap.elems index elem }

section

variable (c : CompareFunc δ)

def bubbleUp : ℕ → BinaryHeap δ → ℕ → BinaryHeap δ × ℕ
  | 0, heap, index => (heap, index)
  | fuel + 1, heap, index =>
    if index = 0 then (heap, index)
    else if c.compare (heap.elems ((index - 1) / 2)) (heap.elems index) ≤ 0 then (heap, index)
    else bubbleUp fuel (heap.swap ((index - 1) / 2) index) ((index - 1) / 2)

def bubbleDown : ℕ → BinaryHeap δ → ℕ → BinaryHeap δ × ℕ
  | 0, heap, index => (heap, index)
  | fuel + 1, heap, index =>
    let left := 2 * index + 1
    let right := 2 * index + 2
    if heap.elemsNum ≤ left then (heap, index)
    else if heap.elemsNum ≤ right then
      if 0 < c.compare (heap.elems index) (heap.elems left) then (heap.swap index left, left) else (heap, index)
    else if c.compare (heap.elems left) (heap.elems right) ≤ 0 then
      if 0 < c.compare (heap.elems index) (heap.elems left) then bubbleDown fuel (heap.swap index left) left
      else (heap, index)
    else if 0 < c.compare (heap.elems index) (heap.elems right) then bubbleDown fuel (heap.swap index right) right
    else (heap, index)

variable (heap : BinaryHeap δ)

/-- Nothing is returned where the source exits the process. -/
def findMin : Option (HeapElem δ) :=
  if heap.elemsNum = 0 then none else some (heap.elems 0)

def insert (elem : HeapElem δ) : Option (BinaryHeap δ) :=
  if heap.direct ∧ heap.keyIndex elem.key ≠ none then none
  else
    let index := heap.elemsNum
    let heap := { heap with elemsNum := heap.elemsNum + 1 }.setElem index elem
    let (heap, index) := bubbleUp c index heap index
    some (if index = heap.elemsNum - 1 then heap.setIndex elem.key index else heap)

def updateDirect (elem : HeapElem δ) : Option (BinaryHeap δ) :=
  if heap.direct then
    match heap.keyIndex elem.key with
    | none => none
    | some index =>
      let (heap, moved) := bubbleUp c index (heap.setElem index elem) index
      some (if index = moved then (bubbleDown c heap.elemsNum heap index).1 else heap)
  else none

def removeMin : Option (BinaryHeap δ) :=
  if heap.elemsNum = 0 then none
  else
    let heap := { heap.removeIndex (heap.elems 0).key with elemsNum := heap.elemsNum - 1 }
    if heap.elemsNum ≠ 0 then
      let (heap, index) := bubbleDown c heap.elemsNum (heap.setElem 0 (heap.elems heap.elemsNum)) 0
      some (if index = 0 then heap.setIndex (heap.elems index).key index else heap)
    else some heap

def removeDirect (key : HeapKey) : Option (BinaryHeap δ) :=
  if heap.direct then
    match heap.keyIndex key with
    | none => none
    | some index =>
      let heap := { heap.removeIndex key with elemsNum := heap.elemsNum - 1 }
      if index ≠ heap.elemsNum then
        let (heap, moved) := bubbleUp c index (heap.setElem index (heap.elems heap.elemsNum)) index
        if index = moved then
          let (heap, moved) := bubbleDown c heap.elemsNum heap index
          some (if index = moved then heap.setIndex (heap.elems index).key index else heap)
        else some heap
      else some heap
  else none

end

end BinaryHeap

end Glaber.Algo

namespace Glaber.Algo.BinaryHeap

open Glaber.Lib.HeapOrder

variable {δ : Type}

def Le (c : CompareFunc δ) (a b : HeapElem δ) : Prop := c.compare a b ≤ 0

lemma Le.total (c : CompareFunc δ) : ∀ a b, Le c a b ∨ Le c b a := c.total

lemma Le.trans (c : CompareFunc δ) : ∀ a b d, Le c a b → Le c b d → Le c a d := c.trans

lemma Le.refl (c : CompareFunc δ) (a : HeapElem δ) : Le c a a := (c.total a a).elim id id

def contents (heap : BinaryHeap δ) : Multiset (HeapElem δ) := (Multiset.range heap.elemsNum).map heap.elems

def Indexed (heap : BinaryHeap δ) : Prop :=
  ∀ key index, heap.keyIndex key = some index ↔ index < heap.elemsNum ∧ (heap.elems index).key = key

-- The key of the element at `p` may have any entry.
structure IndexedBut (heap : BinaryHeap δ) (p : ℕ) : Prop where
  distinct : ∀ i j, i < heap.elemsNum → j < heap.elemsNum → (heap.elems i).key = (heap.elems j).key → i = j
  others : ∀ key, key ≠ (heap.elems p).key →
    ∀ index, heap.keyIndex key = some index ↔ index < heap.elemsNum ∧ (heap.elems index).key = key

structure SameStock (heap heap' : BinaryHeap δ) : Prop where
  elemsNum : heap'.elemsNum = heap.elemsNum
  direct : heap'.direct = heap.direct
  contents : heap'.contents = heap.contents

lemma SameStock.refl (heap : BinaryHeap δ) : SameStock heap heap := ⟨rfl, rfl, rfl⟩

lemma SameStock.trans {h1 h2 h3 : BinaryHeap δ} (h : SameStock h1 h2) (h' : SameStock h2 h3) : SameStock h1 h3 :=
  ⟨h'.elemsNum.trans h.elemsNum, h'.direct.trans h.direct, h'.contents.trans h.contents⟩

section

variable {heap : BinaryHeap δ} {p q : ℕ}

lemma Indexed.indexedBut (h : heap.Indexed) (p : ℕ) : heap.IndexedBut p := by
  refine ⟨fun i j hi hj hkey => ?_, fun key _ index => h key index⟩
  have h1 := (h _ i).mpr ⟨hi, rfl⟩
  have h2 := (h _ j).mpr ⟨hj, rfl⟩
  rw [hkey, h2] at h1
  exact (Option.some.inj h1).symm

@[simp] lemma setIndex_elems (key : HeapKey) (index : ℕ) : (heap.setIndex key index).elems = heap.elems := by
  rw [setIndex]
  split_ifs <;> rfl

@[simp] lemma setIndex_elemsNum (key : HeapKey) (index : ℕ) :
    (heap.setIndex key index).elemsNum = heap.elemsNum := by
  rw [setIndex]
  split_ifs <;> rfl

@[simp] lemma setIndex_direct (key : HeapKey) (index : ℕ) : (heap.setIndex key index).direct = heap.direct := by
  rw [setIndex]
  split_ifs <;> rfl

lemma setIndex_keyIndex (hd : heap.direct = true) (key : HeapKey) (index : ℕ) :
    (heap.setIndex key index).keyIndex = Function.update heap.keyIndex key (some index) := by
  rw [setIndex, if_pos hd]

lemma setIndex_same (key : HeapKey) (index : ℕ) : SameStock heap (heap.setIndex key index) :=
  ⟨setIndex_elemsNum key index, setIndex_direct key index, by simp [BinaryHeap.contents]⟩

lemma IndexedBut.setIndex (h : heap.IndexedBut p) (hd : heap.direct = true) (hp : p < heap.elemsNum) :
    (heap.setIndex (heap.elems p).key p).Indexed := by
  intro key index
  rw [setIndex_keyIndex hd, setIndex_elems, setIndex_elemsNum]
  by_cases hk : key = (heap.elems p).key
  · rw [hk, Function.update_self, Option.some.injEq]
    constructor
    · rintro rfl
      exact ⟨hp, rfl⟩
    · rintro ⟨hi, hkey⟩
      exact h.distinct p index hp hi hkey.symm
  · rw [Function.update_of_ne hk]
    exact h.others key hk index

@[simp] lemma swap_elems (heap : BinaryHeap δ) (i j : ℕ) :
    (heap.swap i j).elems = heap.elems ∘ Equiv.swap i j := by
  simp [swap]

@[simp] lemma swap_elemsNum (heap : BinaryHeap δ) (i j : ℕ) : (heap.swap i j).elemsNum = heap.elemsNum := by
  simp [swap]

@[simp] lemma swap_direct (heap : BinaryHeap δ) (i j : ℕ) : (heap.swap i j).direct = heap.direct := by
  simp [swap]

lemma swap_same {i j : ℕ} (hi : i < heap.elemsNum) (hj : j < heap.elemsNum) : SameStock heap (heap.swap i j) := by
  refine ⟨swap_elemsNum heap i j, swap_direct heap i j, ?_⟩
  rw [contents, contents, swap_elems, swap_elemsNum]
  exact map_range_swap heap.elems hi hj

lemma IndexedBut.swap (h : heap.IndexedBut p) (hd : heap.direct = true) {i j : ℕ} (hi : i < heap.elemsNum)
    (hj : j < heap.elemsNum) (hij : i ≠ j) (hp : p = i ∨ p = j) : (heap.swap i j).Indexed := by
  have hne : (heap.elems j).key ≠ (heap.elems i).key := fun hkey => hij (h.distinct i j hi hj hkey.symm)
  have hindex : (heap.swap i j).keyIndex
      = Function.update (Function.update heap.keyIndex (heap.elems j).key (some i)) (heap.elems i).key (some j) := by
    rw [BinaryHeap.swap]
    simp only
    rw [setIndex_keyIndex (by simpa using hd), setIndex_keyIndex (by simpa using hd)]
    simp
  have hcell : ∀ k, (heap.swap i j).elems k = heap.elems (Equiv.swap i j k) := fun k => by simp
  intro key index
  rw [hindex, swap_elemsNum, hcell]
  by_cases hki : key = (heap.elems i).key
  · rw [hki, Function.update_self, Option.some.injEq]
    constructor
    · rintro rfl
      exact ⟨hj, by rw [Equiv.swap_apply_right]⟩
    · rintro ⟨hidx, hkey⟩
      have hlt : Equiv.swap i j index < heap.elemsNum := by
        rw [Equiv.swap_apply_def]
        split_ifs <;> assumption
      have := h.distinct _ _ hlt hi hkey
      rw [Equiv.swap_apply_eq_iff, Equiv.swap_apply_left] at this
      exact this.symm
  rw [Function.update_of_ne hki]
  by_cases hkj : key = (heap.elems j).key
  · rw [hkj, Function.update_self, Option.some.injEq]
    constructor
    · rintro rfl
      exact ⟨hi, by rw [Equiv.swap_apply_left]⟩
    · rintro ⟨hidx, hkey⟩
      have hlt : Equiv.swap i j index < heap.elemsNum := by
        rw [Equiv.swap_apply_def]
        split_ifs <;> assumption
      have := h.distinct _ _ hlt hj hkey
      rw [Equiv.swap_apply_eq_iff, Equiv.swap_apply_right] at this
      exact this.symm
  rw [Function.update_of_ne hkj, h.others key (by rcases hp with rfl | rfl <;> assumption)]
  refine and_congr_right fun _ => ?_
  by_cases hii : index = i
  · rw [hii, Equiv.swap_apply_left]
    exact iff_of_false (Ne.symm hki) (Ne.symm hkj)
  by_cases hjj : index = j
  · rw [hjj, Equiv.swap_apply_right]
    exact iff_of_false (Ne.symm hkj) (Ne.symm hki)
  rw [Equiv.swap_apply_of_ne_of_ne hii hjj]

end

section

variable {c : CompareFunc δ} {heap : BinaryHeap δ} {index : ℕ}

structure Reordered (c : CompareFunc δ) (heap heap' : BinaryHeap δ) : Prop extends SameStock heap heap' where
  ordered : Ordered (Le c) heap'.elems heap'.elemsNum

structure Repaired (c : CompareFunc δ) (heap heap' : BinaryHeap δ) : Prop extends SameStock heap heap' where
  indexed : heap'.Indexed
  ordered : Ordered (Le c) heap'.elems heap'.elemsNum

lemma Reordered.repaired {heap' : BinaryHeap δ} (h : Reordered c heap heap') (hidx : heap'.Indexed) :
    Repaired c heap heap' :=
  ⟨h.toSameStock, hidx, h.ordered⟩

lemma bubbleUp_rising (heap : BinaryHeap δ) (fuel : ℕ) (hi : index < heap.elemsNum) (hfuel : index ≤ fuel)
    (hr : Rising (Le c) heap.elems heap.elemsNum index) :
    Reordered c heap (bubbleUp c fuel heap index).1 ∧ (bubbleUp c fuel heap index).2 ≤ index := by
  induction fuel generalizing heap index with
  | zero =>
    obtain rfl : index = 0 := by omega
    exact ⟨⟨SameStock.refl heap, hr.ordered fun h => absurd h (lt_irrefl 0)⟩, le_rfl⟩
  | succ fuel ih =>
    rw [bubbleUp]
    by_cases h0 : index = 0
    · rw [if_pos h0]
      exact ⟨⟨SameStock.refl heap, hr.ordered fun h => by omega⟩, le_rfl⟩
    rw [if_neg h0]
    by_cases hle : c.compare (heap.elems ((index - 1) / 2)) (heap.elems index) ≤ 0
    · rw [if_pos hle]
      exact ⟨⟨SameStock.refl heap, hr.ordered fun _ => hle⟩, le_rfl⟩
    rw [if_neg hle]
    have hpar : (index - 1) / 2 < heap.elemsNum := by omega
    have hswap := hr.toHole.swap_up (Le.total c) (Le.trans c) (by omega) hi hle
    obtain ⟨hrep, hle'⟩ := ih (heap.swap ((index - 1) / 2) index) (by simpa using hpar) (by omega)
      (by simpa using hswap)
    exact ⟨⟨(swap_same hpar hi).trans hrep.toSameStock, hrep.ordered⟩, by omega⟩

lemma bubbleUp_order (heap : BinaryHeap δ) (fuel : ℕ) (hi : index < heap.elemsNum) (hfuel : index ≤ fuel)
    (hh : Hole (Le c) heap.elems heap.elemsNum index) :
    (bubbleUp c fuel heap index = (heap, index) ∧ Sinking (Le c) heap.elems heap.elemsNum index) ∨
    (Reordered c heap (bubbleUp c fuel heap index).1 ∧ (bubbleUp c fuel heap index).2 < index) := by
  cases fuel with
  | zero => exact .inl ⟨rfl, hh, fun h => by omega⟩
  | succ fuel =>
    rw [bubbleUp]
    by_cases h0 : index = 0
    · rw [if_pos h0]
      exact .inl ⟨rfl, hh, fun h => by omega⟩
    rw [if_neg h0]
    by_cases hle : c.compare (heap.elems ((index - 1) / 2)) (heap.elems index) ≤ 0
    · rw [if_pos hle]
      exact .inl ⟨rfl, hh, fun _ => hle⟩
    rw [if_neg hle]
    have hpar : (index - 1) / 2 < heap.elemsNum := by omega
    have hswap := hh.swap_up (Le.total c) (Le.trans c) (by omega) hi hle
    obtain ⟨hrep, hle'⟩ := bubbleUp_rising (heap.swap ((index - 1) / 2) index) fuel (by simpa using hpar) (by omega)
      (by simpa using hswap)
    exact .inr ⟨⟨(swap_same hpar hi).trans hrep.toSameStock, hrep.ordered⟩, by omega⟩

lemma bubbleUp_indexed (heap : BinaryHeap δ) (fuel : ℕ) (hd : heap.direct = true) (hi : index < heap.elemsNum)
    (hidx : heap.IndexedBut index) :
    bubbleUp c fuel heap index = (heap, index) ∨ (bubbleUp c fuel heap index).1.Indexed := by
  induction fuel generalizing heap index with
  | zero => exact .inl rfl
  | succ fuel ih =>
    rw [bubbleUp]
    split_ifs with h0 hle
    · exact .inl rfl
    · exact .inl rfl
    · have hpar : (index - 1) / 2 < heap.elemsNum := by omega
      have hswap := hidx.swap hd hpar hi (by omega) (.inr rfl)
      rcases ih (heap.swap ((index - 1) / 2) index) (by simpa using hd) (by simpa using hpar) (hswap.indexedBut _) with
        heq | hrest
      · rw [heq]
        exact .inr hswap
      · exact .inr hrest

lemma bubbleUp_spec (heap : BinaryHeap δ) (fuel : ℕ) (hd : heap.direct = true) (hi : index < heap.elemsNum) (hfuel : index ≤ fuel)
    (hidx : heap.IndexedBut index) (hh : Hole (Le c) heap.elems heap.elemsNum index) :
    (bubbleUp c fuel heap index = (heap, index) ∧ Sinking (Le c) heap.elems heap.elemsNum index) ∨
    (Repaired c heap (bubbleUp c fuel heap index).1 ∧ (bubbleUp c fuel heap index).2 < index) := by
  rcases bubbleUp_order (c := c) heap fuel hi hfuel hh with hsame | ⟨hrep, hlt⟩
  · exact .inl hsame
  · rcases bubbleUp_indexed (c := c) heap fuel hd hi hidx with heq | hidx'
    · rw [heq] at hlt
      exact absurd hlt (lt_irrefl index)
    · exact .inr ⟨hrep.repaired hidx', hlt⟩

lemma swap_child {child : ℕ} (hc0 : 0 < child) (hc : child < heap.elemsNum) (hpar : (child - 1) / 2 = index)
    (hs : Sinking (Le c) heap.elems heap.elemsNum index)
    (hgt : 0 < c.compare (heap.elems index) (heap.elems child))
    (hmin : ∀ i, 0 < i → i < heap.elemsNum → (i - 1) / 2 = index → Le c (heap.elems child) (heap.elems i)) :
    SameStock heap (heap.swap index child) ∧
    Sinking (Le c) (heap.swap index child).elems (heap.swap index child).elemsNum child := by
  refine ⟨swap_same (by omega) hc, ?_⟩
  simpa using hs.swap_down (Le.total c) hc0 hc hpar (not_le.mpr hgt) hmin

lemma bubbleDown_order (heap : BinaryHeap δ) (fuel : ℕ) (hi : index < heap.elemsNum)
    (hfuel : heap.elemsNum ≤ index + fuel) (hs : Sinking (Le c) heap.elems heap.elemsNum index) :
    (bubbleDown c fuel heap index = (heap, index) ∧ Ordered (Le c) heap.elems heap.elemsNum) ∨
    (Reordered c heap (bubbleDown c fuel heap index).1 ∧ index < (bubbleDown c fuel heap index).2) := by
  induction fuel generalizing heap index with
  | zero => omega
  | succ fuel ih =>
    -- the children of `index` are `2 * index + 1` and `2 * index + 2`
    have hchild : ∀ i, 0 < i → (i - 1) / 2 = index → i = 2 * index + 1 ∨ i = 2 * index + 2 := by omega
    -- after an exchange with the child the loop goes on there
    have hgo : ∀ child, 0 < child → child < heap.elemsNum → (child - 1) / 2 = index →
        0 < c.compare (heap.elems index) (heap.elems child) →
        (∀ i, 0 < i → i < heap.elemsNum → (i - 1) / 2 = index → Le c (heap.elems child) (heap.elems i)) →
        Reordered c heap (bubbleDown c fuel (heap.swap index child) child).1 ∧
          index < (bubbleDown c fuel (heap.swap index child) child).2 := by
      intro child hc0 hc hpar hgt hmin
      obtain ⟨hsame, hs'⟩ := swap_child hc0 hc hpar hs hgt hmin
      rcases ih _ (by rw [hsame.elemsNum]; exact hc) (by rw [hsame.elemsNum]; omega) hs' with ⟨heq, hord⟩ | ⟨hrep, hlt⟩
      · rw [heq]
        exact ⟨⟨hsame, hord⟩, by simp only; omega⟩
      · exact ⟨⟨hsame.trans hrep.toSameStock, hrep.ordered⟩, by omega⟩
    rw [bubbleDown]
    by_cases hl : heap.elemsNum ≤ 2 * index + 1
    · rw [if_pos hl]
      exact .inl ⟨rfl, hs.ordered fun i h0 hin hpar => by have := hchild i h0 hpar; omega⟩
    rw [if_neg hl]
    by_cases hr : heap.elemsNum ≤ 2 * index + 2
    · have honly : ∀ i, 0 < i → i < heap.elemsNum → (i - 1) / 2 = index → i = 2 * index + 1 := by
        intro i h0 hin hpar
        have := hchild i h0 hpar
        omega
      rw [if_pos hr]
      by_cases hgt : 0 < c.compare (heap.elems index) (heap.elems (2 * index + 1))
      · rw [if_pos hgt]
        obtain ⟨hsame, hs'⟩ := swap_child (by omega) (by omega) (by omega) hs hgt
          fun i h0 hin hpar => by rw [honly i h0 hin hpar]; exact Le.refl c _
        refine .inr ⟨⟨hsame, hs'.ordered fun i h0 hin hpar => ?_⟩, by simp only; omega⟩
        rw [hsame.elemsNum] at hin
        omega
      · rw [if_neg hgt]
        exact .inl ⟨rfl, hs.ordered fun i h0 hin hpar => by rw [honly i h0 hin hpar]; exact not_lt.mp hgt⟩
    rw [if_neg hr]
    by_cases hlr : c.compare (heap.elems (2 * index + 1)) (heap.elems (2 * index + 2)) ≤ 0
    · rw [if_pos hlr]
      have hmin : ∀ i, 0 < i → i < heap.elemsNum → (i - 1) / 2 = index →
          Le c (heap.elems (2 * index + 1)) (heap.elems i) := by
        intro i h0 hin hpar
        rcases hchild i h0 hpar with rfl | rfl
        · exact Le.refl c _
        · exact hlr
      by_cases hgt : 0 < c.compare (heap.elems index) (heap.elems (2 * index + 1))
      · rw [if_pos hgt]
        exact .inr (hgo _ (by omega) (by omega) (by omega) hgt hmin)
      · rw [if_neg hgt]
        exact .inl ⟨rfl, hs.ordered fun i h0 hin hpar => c.trans _ _ _ (not_lt.mp hgt) (hmin i h0 hin hpar)⟩
    · rw [if_neg hlr]
      have hmin : ∀ i, 0 < i → i < heap.elemsNum → (i - 1) / 2 = index →
          Le c (heap.elems (2 * index + 2)) (heap.elems i) := by
        intro i h0 hin hpar
        rcases hchild i h0 hpar with rfl | rfl
        · exact (c.total _ _).resolve_left hlr
        · exact Le.refl c _
      by_cases hgt : 0 < c.compare (heap.elems index) (heap.elems (2 * index + 2))
      · rw [if_pos hgt]
        exact .inr (hgo _ (by omega) (by omega) (by omega) hgt hmin)
      · rw [if_neg hgt]
        exact .inl ⟨rfl, hs.ordered fun i h0 hin hpar => c.trans _ _ _ (not_lt.mp hgt) (hmin i h0 hin hpar)⟩

lemma bubbleDown_indexed (heap : BinaryHeap δ) (fuel : ℕ) (hd : heap.direct = true) (hi : index < heap.elemsNum)
    (hidx : heap.IndexedBut index) :
    bubbleDown c fuel heap index = (heap, index) ∨ (bubbleDown c fuel heap index).1.Indexed := by
  induction fuel generalizing heap index with
  | zero => exact .inl rfl
  | succ fuel ih =>
    have hswap : ∀ child, child < heap.elemsNum → index < child → (heap.swap index child).Indexed :=
      fun child hc hlt => hidx.swap hd hi hc hlt.ne (.inl rfl)
    have hgo : ∀ child, child < heap.elemsNum → index < child →
        (bubbleDown c fuel (heap.swap index child) child).1.Indexed := by
      intro child hc hlt
      rcases ih (heap.swap index child) (by simpa using hd) (by simpa using hc) ((hswap child hc hlt).indexedBut _) with
        heq | hrest
      · rw [heq]
        exact hswap child hc hlt
      · exact hrest
    rw [bubbleDown]
    split_ifs
    · exact .inl rfl
    · exact .inr (hswap _ (by omega) (by omega))
    · exact .inl rfl
    · exact .inr (hgo _ (by omega) (by omega))
    · exact .inl rfl
    · exact .inr (hgo _ (by omega) (by omega))
    · exact .inl rfl

lemma bubbleDown_spec (heap : BinaryHeap δ) (fuel : ℕ) (hd : heap.direct = true) (hi : index < heap.elemsNum)
    (hfuel : heap.elemsNum ≤ index + fuel) (hidx : heap.IndexedBut index)
    (hs : Sinking (Le c) heap.elems heap.elemsNum index) :
    (bubbleDown c fuel heap index = (heap, index) ∧ Ordered (Le c) heap.elems heap.elemsNum) ∨
    (Repaired c heap (bubbleDown c fuel heap index).1 ∧ index < (bubbleDown c fuel heap index).2) := by
  rcases bubbleDown_order (c := c) heap fuel hi hfuel hs with hsame | ⟨hrep, hlt⟩
  · exact .inl hsame
  · rcases bubbleDown_indexed (c := c) heap fuel hd hi hidx with heq | hidx'
    · rw [heq] at hlt
      exact absurd hlt (lt_irrefl index)
    · exact .inr ⟨hrep.repaired hidx', hlt⟩

end

end Glaber.Algo.BinaryHeap
