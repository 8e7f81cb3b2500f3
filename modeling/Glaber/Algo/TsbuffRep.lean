import Glaber.Algo.Tsbuff
import Glaber.Lib.Circular

namespace Glaber.Algo.Tsbuff

open Glaber.Lib.Ring

variable {α : Type}

def cell (b : Tsbuff α) (k : ℕ) : ℕ := pos b.size b.tail.toNat k

structure Rep (b : Tsbuff α) (l : List (TsValue α)) : Prop where
  size_pos : 0 < b.size
  count : b.count = l.length
  fits : l.length ≤ b.size
  empty : l = [] → b.head = -1 ∧ b.tail = -1
  tail : l ≠ [] → 0 ≤ b.tail ∧ b.tail < b.size
  head : l ≠ [] → b.head = b.cell (l.length - 1)
  cells : ∀ k v, l[k]? = some v → b.data (b.cell k) = v

abbrev Sorted (l : List (TsValue α)) : Prop := l.Pairwise (fun u v => u.time ≤ v.time)

lemma rep_init (zero : TsValue α) {size : ℕ} (hs : 0 < size) : Rep (init zero size) [] :=
  ⟨hs, rfl, Nat.zero_le _, fun _ => ⟨rfl, rfl⟩, fun h => absurd rfl h, fun h => absurd rfl h, by simp⟩

section

variable {b : Tsbuff α} {l : List (TsValue α)}

lemma Rep.of_start (start : ℕ) (hl : l ≠ []) (hc : b.count = l.length) (hf : l.length ≤ b.size)
    (ht : b.tail = start) (hs : start < b.size) (hh : b.head = pos b.size start (l.length - 1))
    (hv : ∀ k v, l[k]? = some v → b.data (pos b.size start k) = v) : Rep b l := by
  have hcell : ∀ k, b.cell k = pos b.size start k := by
    intro k
    rw [cell, ht, Int.toNat_natCast]
  refine ⟨by omega, hc, hf, fun h => absurd h hl, fun _ => by omega, fun _ => ?_, ?_⟩
  · rw [hcell, hh]
  · intro k v hk
    rw [hcell]
    exact hv k v hk

lemma Rep.tail_lt (h : Rep b l) (hl : l ≠ []) : b.tail.toNat < b.size := by
  have := h.tail hl
  omega

lemma Rep.cell_lt (h : Rep b l) (hl : l ≠ []) {k : ℕ} (hk : k ≤ b.size) : b.cell k < b.size :=
  pos_lt (h.tail_lt hl) hk

lemma cell_inj {j k : ℕ} (hj : j < b.size) (hk : k < b.size) : (b.cell j : ℤ) = b.cell k ↔ j = k := by
  rw [Nat.cast_inj]
  exact pos_inj hj hk

lemma Rep.cell_zero (h : Rep b l) (hl : l ≠ []) : (b.cell 0 : ℤ) = b.tail := by
  have := h.tail hl
  rw [cell, pos_zero (h.tail_lt hl)]
  omega

lemma Rep.index_cell (h : Rep b l) (hl : l ≠ []) {i : ℤ} {k : ℕ} (hk : k ≤ b.size)
    (hi : i = b.tail + k ∨ i = b.tail + k - b.size ∨ i = b.tail + k + b.size) : b.index i = b.cell k := by
  have ht := h.tail hl
  have hc := h.cell_lt hl hk
  apply tmod_index
  · omega
  · omega
  · rw [cell, pos] at hc ⊢
    split_ifs at hc ⊢ <;> omega

lemma Rep.index_succ (h : Rep b l) (hl : l ≠ []) {k : ℕ} (hk : k < b.size) :
    b.index (b.cell k + 1) = b.cell (k + 1) := by
  apply h.index_cell hl hk
  have ht := h.tail hl
  rw [cell, pos]
  split_ifs <;> omega

lemma Rep.get_cell (h : Rep b l) {k : ℕ} {v : TsValue α} (hv : l[k]? = some v) : b.get (b.cell k) = v := by
  rw [get, Int.toNat_natCast]
  exact h.cells k v hv

lemma Rep.count_ne_zero (h : Rep b l) (hl : l ≠ []) : b.count ≠ 0 := by
  rw [h.count]
  exact List.length_eq_zero_iff.not.mpr hl

lemma Rep.getTimeTail_eq (h : Rep b l) {v : TsValue α} (hv : l[0]? = some v) : b.getTimeTail = v.time := by
  have hl : l ≠ [] := by
    rintro rfl
    simp at hv
  rw [getTimeTail, if_neg (h.count_ne_zero hl), ← h.cell_zero hl, h.get_cell hv]

lemma Rep.getTimeHead_eq (h : Rep b l) {v : TsValue α} (hv : l[l.length - 1]? = some v) :
    b.getTimeHead = v.time := by
  have hl : l ≠ [] := by
    rintro rfl
    simp at hv
  rw [getTimeHead, if_neg (h.count_ne_zero hl), h.head hl, h.get_cell hv]

lemma Rep.freeTail {v : TsValue α} (h : Rep b (v :: l)) : Rep b.freeTail.2 l := by
  have hc := h.count
  have hf := h.fits
  simp only [List.length_cons] at hc hf
  rcases eq_or_ne l [] with rfl | hl
  · simp only [List.length_nil] at hc
    rw [Tsbuff.freeTail, if_neg (by omega), if_pos (by omega)]
    exact ⟨h.size_pos, by simp [hc], Nat.zero_le _, fun _ => ⟨rfl, rfl⟩, fun h => absurd rfl h,
      fun h => absurd rfl h, by simp⟩
  · have hpos : 0 < l.length := List.length_pos_of_ne_nil hl
    have hs := h.tail_lt (List.cons_ne_nil _ _)
    have hi : b.index (b.tail + 1) = b.cell 1 := h.index_cell (List.cons_ne_nil _ _) (by omega) (by simp)
    have hcell : ∀ k, k < l.length → pos b.size (b.cell 1) k = b.cell (k + 1) := by
      intro k hk
      rw [Nat.add_comm]
      exact pos_shift hs (by omega)
    rw [Tsbuff.freeTail, if_neg (by omega), if_neg (by omega), hi]
    refine Rep.of_start (b.cell 1) hl (by simp [hc]) (Nat.le_of_succ_le hf) rfl
      (h.cell_lt (List.cons_ne_nil _ _) (by omega)) ?_ ?_
    · have hh := h.head (List.cons_ne_nil _ _)
      have hk := hcell (l.length - 1) (by omega)
      rw [Nat.sub_add_cancel hpos] at hk
      exact hh.trans (congrArg Nat.cast hk.symm)
    · intro k w hk
      exact (congrArg b.data (hcell k (List.getElem?_eq_some_iff.mp hk).1)).trans
        (h.cells (k + 1) w (by simpa using hk))

def ofList (zero : TsValue α) (l : List (TsValue α)) (size : ℕ) : Tsbuff α :=
  ⟨fun k => l.getD k zero, size, l.length, l.length - 1, 0⟩

lemma rep_ofList (zero : TsValue α) (hl : l ≠ []) {size : ℕ} (hf : l.length ≤ size) : Rep (ofList zero l size) l := by
  have hpos := List.length_pos_of_ne_nil hl
  have hat : ∀ k, k < l.length → pos size 0 k = k := by
    intro k hk
    rw [pos]
    split_ifs <;> omega
  refine Rep.of_start 0 hl rfl hf rfl (by simp only [ofList]; omega) ?_ ?_
  · simp only [ofList]
    rw [hat _ (by omega)]
    omega
  · intro k v hk
    have hlt := (List.getElem?_eq_some_iff.mp hk).1
    simp only [ofList]
    rw [hat k hlt, List.getD_eq_getElem?_getD, hk]
    rfl

@[simp]
lemma freeTail_size : b.freeTail.2.size = b.size := by
  rw [Tsbuff.freeTail]
  split_ifs <;> rfl

def Accepts (l : List (TsValue α)) (size : ℕ) (time : ℤ) : Prop :=
  l.length < size ∧ ∀ v ∈ l.head?, 0 < v.time → time ≤ v.time

instance (l : List (TsValue α)) (size : ℕ) (time : ℤ) : Decidable (Accepts l size time) :=
  inferInstanceAs (Decidable (_ ∧ _))

lemma Rep.addToTail_none (h : Rep b l) {time : ℤ} (ha : ¬ Accepts l b.size time) : b.addToTail time = none := by
  cases l with
  | nil => exact absurd ⟨h.size_pos, by simp⟩ ha
  | cons v l =>
    have hc := h.count
    have hf := h.fits
    have hne := List.cons_ne_nil v l
    simp only [List.length_cons] at hc hf
    rw [addToTail, h.getTimeTail_eq (v := v) rfl]
    by_cases ht : 0 < v.time ∧ v.time < time
    · exact if_pos ⟨by omega, ht⟩
    · have hfull : l.length + 1 = b.size := by
        by_contra hn
        refine ha ⟨?_, ?_⟩
        · rw [List.length_cons]
          omega
        · rintro w ⟨⟩ hw
          omega
      have hi : b.index (b.tail - 1) = b.cell (b.size - 1) := h.index_cell hne (by omega) (by omega)
      have hh := h.head hne
      rw [if_neg (fun hn => ht hn.2), if_pos (by omega), hi]
      refine if_pos ?_
      rw [hh, List.length_cons, hfull]

lemma Rep.addToTail_some (h : Rep b l) {time : ℤ} (ha : Accepts l b.size time) :
    ∃ idx b', b.addToTail time = some (idx, b') ∧ b'.size = b.size ∧
      ∀ x, Rep (b'.put idx ⟨time, x⟩) (⟨time, x⟩ :: l) := by
  obtain ⟨hlt, htime⟩ := ha
  cases l with
  | nil =>
    have hc := h.count
    simp only [List.length_nil] at hc
    refine ⟨0, { b.setTime 0 time with tail := 0, head := 0, count := b.count + 1 }, ?_, rfl, fun x => ?_⟩
    · rw [addToTail, if_neg (by omega), if_neg (by omega)]
    · refine Rep.of_start 0 (List.cons_ne_nil _ _) (by simp [put, hc]) h.size_pos rfl
        h.size_pos ?_ ?_
      · simp [put, pos]
      · intro k v hk
        obtain ⟨rfl, rfl⟩ : k = 0 ∧ ⟨time, x⟩ = v := by
          rcases k with _ | k <;> simp at hk ⊢
          exact hk
        simp [put, pos, h.size_pos, setTime]
  | cons v l =>
    have hc := h.count
    have hne := List.cons_ne_nil v l
    have hs := h.tail_lt hne
    simp only [List.length_cons] at hc hlt
    have hi : b.index (b.tail - 1) = b.cell (b.size - 1) := h.index_cell hne (by omega) (by omega)
    have hh := h.head hne
    simp only [List.length_cons, Nat.add_sub_cancel] at hh
    have hback : ∀ k, k < l.length + 1 → pos b.size (b.cell (b.size - 1)) (k + 1) = b.cell k :=
      fun k hk => pos_back hs (by omega)
    refine ⟨b.cell (b.size - 1), { b.setTime (b.cell (b.size - 1)) time with
      tail := b.cell (b.size - 1), count := b.count + 1 }, ?_, rfl, fun x => ?_⟩
    · rw [addToTail, h.getTimeTail_eq (v := v) rfl, if_neg ?_, if_pos (by omega), hi, if_neg ?_]
      · rw [hh, cell_inj (by omega) (by omega)]
        omega
      · have := htime v rfl
        omega
    · refine Rep.of_start (b.cell (b.size - 1)) (List.cons_ne_nil _ _) (by simp [put, hc])
        hlt rfl (h.cell_lt hne (by omega)) ?_ ?_
      · have := hback l.length (by omega)
        simp only [List.length_cons, Nat.add_sub_cancel]
        exact hh.trans (congrArg Nat.cast this.symm)
      · intro k w hk
        simp only [put, setTime, Int.toNat_natCast, Function.update_idem]
        rcases k with _ | k
        · rw [pos_zero (h.cell_lt hne (by omega)), Function.update_self]
          simpa using hk
        · have hk' : (v :: l)[k]? = some w := by simpa using hk
          have hkl : k < l.length + 1 := (List.getElem?_eq_some_iff.mp hk').1
          rw [hback k hkl, Function.update_of_ne]
          · exact h.cells k w hk'
          · have := (cell_inj (b := b) (j := k) (k := b.size - 1) (by omega) (by omega)).not.mpr (by omega)
            exact_mod_cast this

def copied (zero : TsValue α) (b : Tsbuff α) : List (TsValue α) :=
  (List.range b.count).map fun k => if b.tail.toNat + k < b.count then b.data (b.tail.toNat + k) else zero

lemma Rep.upsize_unwrapped (h : Rep b l) (zero : TsValue α) {newSize : ℕ} (hl : l ≠ []) (hw : b.tail ≤ b.head)
    (hn : b.size < newSize) : Rep (b.upsize zero newSize) (copied zero b) := by
  have hc := h.count
  have hfits := h.fits
  have hpos := List.length_pos_of_ne_nil hl
  have hlength : (copied zero b).length = b.count := by rw [copied, List.length_map, List.length_range]
  obtain ⟨ht0, ht1⟩ := h.tail hl
  have hh := h.head hl
  have hcell : b.cell (l.length - 1) = if b.tail.toNat + (l.length - 1) < b.size then b.tail.toNat + (l.length - 1)
    else b.tail.toNat + (l.length - 1) - b.size := rfl
  have hhead : b.head = b.tail + l.length - 1 ∧ b.head < b.size := by split_ifs at hcell <;> omega
  have hat : ∀ k, k < b.count → pos newSize b.tail.toNat k = b.tail.toNat + k := by
    intro k hk
    rw [pos]
    split_ifs <;> omega
  rw [Tsbuff.upsize, if_pos (by omega), if_pos hw]
  have hne : copied zero b ≠ [] := List.ne_nil_of_length_pos (by omega)
  refine Rep.of_start b.tail.toNat hne hlength.symm (by dsimp only; omega) (by dsimp only; omega) (by dsimp only; omega) ?_ ?_
  · dsimp only
    rw [hlength, hat _ (by omega)]
    omega
  · intro k v hk
    have hkn : k < b.count := by
      have := (List.getElem?_eq_some_iff.mp hk).1
      omega
    have hv : (if b.tail.toNat + k < b.count then b.data (b.tail.toNat + k) else zero) = v := by
      simpa [copied, hkn] using hk
    rw [← hv, hat k hkn]

lemma Rep.upsize_wrapped (h : Rep b l) (zero : TsValue α) {newSize : ℕ} (hl : l ≠ []) (hw : b.head < b.tail)
    (hn : b.size < newSize) : Rep (b.upsize zero newSize) l := by
  have hc := h.count
  have hpos := List.length_pos_of_ne_nil hl
  have hfits := h.fits
  obtain ⟨ht0, ht1⟩ := h.tail hl
  have hh := h.head hl
  have hcell : ∀ k, b.cell k = if b.tail.toNat + k < b.size then b.tail.toNat + k else b.tail.toNat + k - b.size :=
    fun _ => rfl
  have hhead : b.head = b.tail + l.length - 1 - b.size := by
    rw [hcell] at hh
    split_ifs at hh <;> omega
  rw [Tsbuff.upsize, if_pos (by omega), if_neg (by omega)]
  refine Rep.of_start 0 hl hc (by dsimp only; omega) rfl (by dsimp only; omega) ?_ ?_
  · simp only [pos]
    split_ifs <;> simp <;> omega
  · intro k v hk
    have hkl : k < l.length := (List.getElem?_eq_some_iff.mp hk).1
    have hp : pos newSize 0 k = k := by
      rw [pos]
      split_ifs <;> omega
    have hv := h.cells k v hk
    rw [hcell] at hv
    simp only [hp]
    split_ifs at hv ⊢ <;> first | exact hv | omega | skip
    rw [← hv]
    congr 1
    omega

lemma Rep.copied_eq_iff (h : Rep b l) (zero : TsValue α) (hl : l ≠ []) (hw : b.tail ≤ b.head) :
    copied zero b = l ↔ ∀ i : ℕ, b.tail ≤ i → i ≤ b.head → b.count ≤ i → b.data i = zero := by
  have hc := h.count
  have hfits := h.fits
  have hpos := List.length_pos_of_ne_nil hl
  obtain ⟨ht0, ht1⟩ := h.tail hl
  have hh := h.head hl
  have hcell : ∀ k, b.cell k = if b.tail.toNat + k < b.size then b.tail.toNat + k else b.tail.toNat + k - b.size :=
    fun _ => rfl
  have hhead : b.head = b.tail + l.length - 1 ∧ b.head < b.size := by
    rw [hcell] at hh
    split_ifs at hh <;> omega
  have hat : ∀ k (hk : k < l.length), b.data (b.tail.toNat + k) = l[k] := by
    intro k hk
    have hv := h.cells k _ (List.getElem?_eq_getElem hk)
    rwa [hcell, if_pos (by omega)] at hv
  have hlength : (copied zero b).length = l.length := by rw [copied, List.length_map, List.length_range, hc]
  constructor
  · intro heq i hti hih hci
    obtain ⟨k, hk, rfl⟩ : ∃ k, k < l.length ∧ b.tail.toNat + k = i := ⟨i - b.tail.toNat, by omega, by omega⟩
    have hget : (copied zero b)[k]? = l[k]? := by rw [heq]
    rw [hat k hk]
    simpa [copied, hk, hc, show ¬ b.tail.toNat + k < l.length by omega] using hget.symm
  · intro hzero
    apply List.ext_getElem hlength
    intro k hk hk'
    simp only [copied, List.getElem_map, List.getElem_range]
    rw [← hat k hk']
    split_ifs with hin
    · rfl
    · exact (hzero _ (by omega) (by omega) (by omega)).symm

lemma Rep.upsize (h : Rep b l) (zero : TsValue α) {newSize : ℕ} (hfull : l.length = b.size)
    (hn : b.size < newSize) : Rep (b.upsize zero newSize) l := by
  have hpos := h.size_pos
  have hne : l ≠ [] := List.ne_nil_of_length_pos (by omega)
  have hc := h.count
  obtain ⟨ht0, ht1⟩ := h.tail hne
  have hh := h.head hne
  have hlast := h.cell_lt hne (k := l.length - 1) (by omega)
  rcases lt_or_ge b.head b.tail with hw | hw
  · exact h.upsize_wrapped zero hne hw hn
  · have hkept := (h.copied_eq_iff zero hne hw).mpr fun i _ hi hci => by omega
    have := h.upsize_unwrapped zero hne hw hn
    rwa [hkept] at this

end

end Glaber.Algo.Tsbuff
