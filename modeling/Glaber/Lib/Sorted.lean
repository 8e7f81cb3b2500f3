import Mathlib.Data.List.Sort
import Mathlib.Tactic

/-! Ordered lists: the library binary search and what insertion and removal do to
occurrence counts. -/

namespace Glaber.Lib.Sorted

variable {α : Type} [LinearOrder α]

def bsearchLoop (xs : List α) (key : α) : ℕ → ℕ → ℕ → Option ℕ
  | 0, _, _ => none
  | fuel + 1, lo, hi =>
    if lo < hi then
      match xs[(lo + hi) / 2]? with
      | none => none
      | some x =>
        if key < x then bsearchLoop xs key fuel lo ((lo + hi) / 2)
        else if x < key then bsearchLoop xs key fuel ((lo + hi) / 2 + 1) hi
        else some ((lo + hi) / 2)
    else none

def bsearch (xs : List α) (key : α) : Option ℕ := bsearchLoop xs key xs.length 0 xs.length

lemma bsearchLoop_hit {xs : List α} {key : α} {fuel lo hi i : ℕ} (h : bsearchLoop xs key fuel lo hi = some i) :
    xs[i]? = some key := by
  induction fuel generalizing lo hi with
  | zero => simp [bsearchLoop] at h
  | succ fuel ih =>
    rw [bsearchLoop] at h
    split at h
    · split at h
      · cases h
      · rename_i x hx
        split at h
        · exact ih h
        · split at h
          · exact ih h
          · rename_i hlt hgt
            cases h
            rw [hx, le_antisymm (not_lt.mp hlt) (not_lt.mp hgt)]
    · cases h

omit [LinearOrder α] in
lemma notMem_of_bounds {xs : List α} {key : α} {lo hi : ℕ} (hle : hi ≤ lo)
    (hlow : ∀ i, i < lo → xs[i]? ≠ some key) (hhigh : ∀ i, hi ≤ i → xs[i]? ≠ some key) : key ∉ xs := by
  intro hm
  obtain ⟨i, hi', rfl⟩ := List.mem_iff_getElem.mp hm
  rcases lt_or_ge i lo with hl | hl
  · exact hlow i hl (by simp [hi'])
  · exact hhigh i (by omega) (by simp [hi'])

lemma getElem_le_of_le {xs : List α} (hs : xs.Pairwise (· ≤ ·)) {i j : ℕ} (hij : i ≤ j) (hj : j < xs.length) :
    xs[i] ≤ xs[j] :=
  hs.rel_get_of_le (by simpa using hij)

lemma bsearchLoop_miss {xs : List α} {key : α} (hs : xs.Pairwise (· ≤ ·)) {fuel lo hi : ℕ}
    (hf : hi - lo ≤ fuel) (hhi : hi ≤ xs.length)
    (hlow : ∀ i, i < lo → xs[i]? ≠ some key) (hhigh : ∀ i, hi ≤ i → xs[i]? ≠ some key)
    (h : bsearchLoop xs key fuel lo hi = none) : key ∉ xs := by
  induction fuel generalizing lo hi with
  | zero => exact notMem_of_bounds (by omega) hlow hhigh
  | succ fuel ih =>
    rw [bsearchLoop] at h
    split at h
    · rename_i hlt
      have hm : (lo + hi) / 2 < xs.length := by omega
      rw [List.getElem?_eq_getElem hm] at h
      dsimp only at h
      split at h
      · rename_i hx
        refine ih (by omega) (by omega) hlow ?_ h
        intro i hi' he
        obtain ⟨hl, rfl⟩ := List.getElem?_eq_some_iff.mp he
        exact absurd (getElem_le_of_le hs hi' hl) (not_le.mpr hx)
      · split at h
        · rename_i hx
          refine ih (by omega) hhi ?_ hhigh h
          intro i hi' he
          obtain ⟨hl, rfl⟩ := List.getElem?_eq_some_iff.mp he
          exact absurd (getElem_le_of_le hs (by omega : i ≤ (lo + hi) / 2) hm) (not_le.mpr hx)
        · cases h
    · exact notMem_of_bounds (by omega) hlow hhigh

lemma bsearch_some {xs : List α} {key : α} {i : ℕ} (h : bsearch xs key = some i) : xs[i]? = some key :=
  bsearchLoop_hit h

lemma bsearch_none {xs : List α} {key : α} (hs : xs.Pairwise (· ≤ ·)) (h : bsearch xs key = none) :
    key ∉ xs :=
  bsearchLoop_miss hs (by omega) le_rfl (by intro i hi; omega)
    (by intro i hi he; simp [List.getElem?_eq_none hi] at he) h

def probesLoop (i : ℕ) : ℕ → ℕ → ℕ → List ℕ
  | 0, _, _ => []
  | fuel + 1, lo, hi =>
    if lo < hi then
      if i < (lo + hi) / 2 then (lo + hi) / 2 :: probesLoop i fuel lo ((lo + hi) / 2)
      else if (lo + hi) / 2 < i then (lo + hi) / 2 :: probesLoop i fuel ((lo + hi) / 2 + 1) hi
      else []
    else []

def probes (n i : ℕ) : List ℕ := probesLoop i n 0 n

def Directs (xs : List α) (key : α) (i m : ℕ) : Prop :=
  ∀ x, xs[m]? = some x → (m < i → x < key) ∧ (i < m → key < x)

def Reached (xs : List α) (key : α) (i : ℕ) : Prop :=
  xs[i]? = some key ∧ ∀ m ∈ probes xs.length i, Directs xs key i m

lemma bsearchLoop_iff {xs : List α} {key : α} {fuel lo hi : ℕ} (hf : hi - lo ≤ fuel) (hhi : hi ≤ xs.length) (i : ℕ) :
    bsearchLoop xs key fuel lo hi = some i ↔
      (lo ≤ i ∧ i < hi) ∧ xs[i]? = some key ∧ ∀ m ∈ probesLoop i fuel lo hi, Directs xs key i m := by
  induction fuel generalizing lo hi with
  | zero =>
    simp only [bsearchLoop, reduceCtorEq, false_iff]
    omega
  | succ fuel ih =>
    by_cases hlt : lo < hi
    · have hm : (lo + hi) / 2 < xs.length := by omega
      have hx : xs[(lo + hi) / 2]? = some xs[(lo + hi) / 2] := List.getElem?_eq_getElem hm
      simp only [bsearchLoop, probesLoop, hlt, if_true, hx]
      generalize xs[(lo + hi) / 2] = x at hx ⊢
      have hd : Directs xs key i ((lo + hi) / 2) ↔ ((lo + hi) / 2 < i → x < key) ∧ (i < (lo + hi) / 2 → key < x) := by
        simp [Directs, hx]
      rcases lt_trichotomy i ((lo + hi) / 2) with hi' | hi' | hi'
      · have hnot : ¬ (lo + hi) / 2 < i := by omega
        simp only [hi', hnot, if_true, List.forall_mem_cons, hd, false_imp_iff, true_imp_iff, true_and]
        split_ifs with h1 h2
        · rw [ih (by omega) (by omega)]
          exact ⟨fun h => ⟨⟨h.1.1, by omega⟩, h.2.1, h1, h.2.2⟩, fun h => ⟨⟨h.1.1, hi'⟩, h.2.1, h.2.2.2⟩⟩
        · rw [ih (by omega) (by omega)]
          exact ⟨fun h => absurd h.1.1 (by omega), fun h => absurd h.2.2.1 h1⟩
        · exact ⟨fun h => absurd (Option.some.inj h) (by omega), fun h => absurd h.2.2.1 h1⟩
      · subst hi'
        simp only [lt_self_iff_false, if_false, List.not_mem_nil, false_imp_iff, implies_true, and_true, hx]
        split_ifs with h1 h2
        · rw [ih (by omega) (by omega)]
          exact ⟨fun h => absurd h.1.2 (lt_irrefl _), fun h => absurd h1 (by simp [Option.some.inj h.2])⟩
        · rw [ih (by omega) (by omega)]
          exact ⟨fun h => absurd h.1.1 (by omega), fun h => absurd h2 (by simp [Option.some.inj h.2])⟩
        · exact ⟨fun _ => ⟨⟨by omega, by omega⟩, congrArg some (le_antisymm (not_lt.mp h1) (not_lt.mp h2))⟩, fun _ => rfl⟩
      · have hnot : ¬ i < (lo + hi) / 2 := by omega
        simp only [hi', hnot, if_true, if_false, List.forall_mem_cons, hd, false_imp_iff, true_imp_iff, and_true]
        split_ifs with h1 h2
        · rw [ih (by omega) (by omega)]
          exact ⟨fun h => absurd h.1.2 (by omega), fun h => absurd h.2.2.1 (not_lt.mpr h1.le)⟩
        · rw [ih (by omega) (by omega)]
          exact ⟨fun h => ⟨⟨by omega, h.1.2⟩, h.2.1, h2, h.2.2⟩, fun h => ⟨⟨by omega, h.1.2⟩, h.2.1, h.2.2.2⟩⟩
        · exact ⟨fun h => absurd (Option.some.inj h) (by omega), fun h => absurd h.2.2.1 h2⟩
    · simp only [bsearchLoop, hlt, if_false, reduceCtorEq, false_iff]
      omega

theorem bsearch_eq_some_iff {xs : List α} {key : α} {i : ℕ} : bsearch xs key = some i ↔ Reached xs key i := by
  rw [bsearch, bsearchLoop_iff (by omega) le_rfl, Reached, probes]
  constructor
  · exact fun h => h.2
  · intro h
    obtain ⟨hi, -⟩ := List.getElem?_eq_some_iff.mp h.1
    exact ⟨⟨Nat.zero_le i, hi⟩, h⟩

lemma count_eraseIdx {xs : List α} {key : α} {i : ℕ} (h : xs[i]? = some key) (y : α) :
    (xs.eraseIdx i).count y + (if y = key then 1 else 0) = xs.count y := by
  induction xs generalizing i with
  | nil => simp at h
  | cons x xs ih =>
    cases i with
    | zero =>
      obtain rfl : x = key := by simpa using h
      rw [List.eraseIdx_cons_zero, List.count_cons]
      congr 1
      by_cases hy : y = x
      · simp [hy]
      · simp [hy, Ne.symm hy]
    | succ i =>
      rw [List.eraseIdx_cons_succ, List.count_cons, List.count_cons, ← ih (by simpa using h)]
      omega

end Glaber.Lib.Sorted
