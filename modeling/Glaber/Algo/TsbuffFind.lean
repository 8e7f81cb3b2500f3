import Glaber.Algo.TsbuffRep

namespace Glaber.Algo.Tsbuff

open Glaber.Lib.Ring

variable {α : Type}

section

variable {b : Tsbuff α} {l : List (TsValue α)} {tm : ℤ}

lemma Sorted.time_le (hs : Sorted l) {j k : ℕ} {u v : TsValue α} (hj : l[j]? = some u) (hk : l[k]? = some v)
    (hjk : j ≤ k) : u.time ≤ v.time := by
  obtain ⟨hjl, rfl⟩ := List.getElem?_eq_some_iff.mp hj
  obtain ⟨hkl, rfl⟩ := List.getElem?_eq_some_iff.mp hk
  rcases eq_or_lt_of_le hjk with rfl | hlt
  · exact le_rfl
  · exact List.pairwise_iff_getElem.mp hs j k hjl hkl hlt

lemma Sorted.head_le (hs : Sorted l) {u w : TsValue α} (hw : l.head? = some w) (hu : u ∈ l) : w.time ≤ u.time := by
  obtain ⟨i, hi⟩ := List.mem_iff_getElem?.mp hu
  rw [List.head?_eq_getElem?] at hw
  exact hs.time_le hw hi (Nat.zero_le i)

lemma Sorted.le_getLast (hs : Sorted l) {u w : TsValue α} (hw : l.getLast? = some w) (hu : u ∈ l) :
    u.time ≤ w.time := by
  obtain ⟨i, hi⟩ := List.mem_iff_getElem?.mp hu
  have hlt := (List.getElem?_eq_some_iff.mp hi).1
  rw [List.getLast?_eq_getElem?] at hw
  exact hs.time_le hi hw (by omega)

lemma Rep.guess (h : Rep b l) (hl : l ≠ []) {lo hi : ℕ} (hlo : lo ≤ hi) (hhi : hi < b.size) :
    ∃ g : ℤ, (if (b.cell hi : ℤ) < b.cell lo then ((b.cell lo : ℤ) + b.cell hi + b.size).tdiv 2
        else b.index (((b.cell lo : ℤ) + b.cell hi).tdiv 2 + b.size)) = g ∧
      (g = b.tail + ((lo + hi) / 2 : ℕ) ∨ g = b.tail + ((lo + hi) / 2 : ℕ) - b.size) := by
  refine ⟨_, rfl, ?_⟩
  obtain ⟨ht0, ht1⟩ := h.tail hl
  have hcell : ∀ k, b.cell k = if b.tail.toNat + k < b.size then b.tail.toNat + k else b.tail.toNat + k - b.size :=
    fun _ => rfl
  have hclo := hcell lo
  have hchi := hcell hi
  split_ifs with hw
  · left
    rw [Int.tdiv_eq_ediv_of_nonneg (by omega)]
    split_ifs at hclo hchi <;> omega
  · rw [Int.tdiv_eq_ediv_of_nonneg (by omega)]
    have hmid : b.index (((b.cell lo : ℤ) + b.cell hi) / 2 + b.size) = b.cell ((lo + hi) / 2) := by
      apply h.index_cell hl (by omega)
      split_ifs at hclo hchi <;> omega
    rw [hmid, hcell]
    split_ifs <;> omega

def Answers (l : List (TsValue α)) (tm : ℤ) (k : ℕ) : Prop :=
  ∃ v, l[k]? = some v ∧ v.time ≤ tm ∧ (v.time = tm ∨ ∃ w, l[k + 1]? = some w ∧ tm < w.time)

lemma Rep.findLoop (h : Rep b l) (fuel lo hi : ℕ) {u w : TsValue α} (hu : l[lo]? = some u) (hut : u.time ≤ tm)
    (hw : l[hi]? = some w) (hwt : tm ≤ w.time) (hlo : lo ≤ hi) (hfuel : hi - lo < fuel) :
    ∃ k, b.findLoop tm fuel (b.cell lo) (b.cell hi) = some (b.cell k : ℤ) ∧ Answers l tm k := by
  induction fuel generalizing lo hi u w with
  | zero => omega
  | succ fuel ih =>
    have hlen : hi < l.length := (List.getElem?_eq_some_iff.mp hw).1
    have hne : l ≠ [] := List.ne_nil_of_length_pos (by omega)
    have hfit := h.fits
    obtain ⟨g, hg, hgt⟩ := h.guess hne hlo (by omega : hi < b.size)
    obtain ⟨v, hv⟩ : ∃ v, l[(lo + hi) / 2]? = some v := ⟨_, List.getElem?_eq_getElem (by omega)⟩
    have hig : b.index g = b.cell ((lo + hi) / 2) := h.index_cell hne (by omega) (by omega)
    simp only [Tsbuff.findLoop, hg, hig, h.get_cell hv, h.get_cell hw]
    by_cases hvt : tm = v.time
    · rw [if_pos hvt]
      exact ⟨_, rfl, v, hv, by omega, .inl hvt.symm⟩
    rw [if_neg hvt]
    by_cases hwtm : tm = w.time
    · rw [if_pos hwtm]
      exact ⟨hi, rfl, w, hw, by omega, .inl hwtm.symm⟩
    rw [if_neg hwtm]
    by_cases hmid : (lo + hi) / 2 = lo
    · rw [if_pos (by rw [hmid])]
      refine ⟨lo, rfl, u, hu, hut, .inr ⟨w, ?_, by omega⟩⟩
      rcases eq_or_lt_of_le hlo with rfl | hlt
      · rw [hmid, hu] at hv
        cases hv
        rw [hu] at hw
        cases hw
        omega
      · rw [show lo + 1 = hi by omega]
        exact hw
    rw [if_neg (by rw [cell_inj (by omega) (by omega)]; exact hmid)]
    by_cases hlt : v.time < tm
    · rw [if_pos hlt]
      have hig1 : b.index (g + 1) = b.cell ((lo + hi) / 2 + 1) := h.index_cell hne (by omega) (by omega)
      rw [hig1]
      by_cases hend : (lo + hi) / 2 + 1 = hi
      · rw [if_pos (by rw [hend])]
        exact ⟨_, rfl, v, hv, by omega, .inr ⟨w, by rw [hend]; exact hw, by omega⟩⟩
      · rw [if_neg (by rw [cell_inj (by omega) (by omega)]; exact hend)]
        exact ih _ _ hv (by omega) hw hwt (by omega) (by omega)
    · rw [if_neg hlt]
      have hig1 : b.index (g - 1) = b.cell ((lo + hi) / 2 - 1) := h.index_cell hne (by omega) (by omega)
      rw [hig1]
      by_cases hend : (lo + hi) / 2 - 1 = lo
      · rw [if_pos (by rw [hend])]
        refine ⟨lo, rfl, u, hu, hut, .inr ⟨v, ?_, by omega⟩⟩
        rw [show lo + 1 = (lo + hi) / 2 by omega]
        exact hv
      · rw [if_neg (by rw [cell_inj (by omega) (by omega)]; exact hend)]
        exact ih _ _ hu hut hv (by omega) (by omega) (by omega)

def Spans (l : List (TsValue α)) (tm : ℤ) : Prop := (∃ v ∈ l, v.time ≤ tm) ∧ ∃ v ∈ l, tm ≤ v.time

instance (l : List (TsValue α)) (tm : ℤ) : Decidable (Spans l tm) := inferInstanceAs (Decidable (_ ∧ _))

lemma spans_cases (l : List (TsValue α)) (tm : ℤ) :
    (l ≠ [] ∧ ∀ w ∈ l, w.time < tm) ∨ Spans l tm ∨ ∀ w ∈ l, tm < w.time := by
  by_cases hge : ∃ w ∈ l, tm ≤ w.time
  · by_cases hle : ∃ w ∈ l, w.time ≤ tm
    · exact .inr (.inl ⟨hle, hge⟩)
    · push Not at hle
      exact .inr (.inr hle)
  · push Not at hge
    rcases eq_or_ne l [] with rfl | hne
    · exact .inr (.inr (by simp))
    · exact .inl ⟨hne, hge⟩

lemma Rep.findTimeIdx_fail (h : Rep b l) (hn : ¬ Spans l tm) : b.findTimeIdx tm = -1 := by
  rcases eq_or_ne l [] with rfl | hl
  · exact if_pos h.count
  · rw [findTimeIdx, if_neg (h.count_ne_zero hl)]
    refine if_pos ?_
    by_contra hin
    rw [not_or, not_lt, not_lt] at hin
    have hpos := List.length_pos_of_ne_nil hl
    refine hn ⟨⟨l[0], List.getElem_mem _, ?_⟩, l[l.length - 1], List.getElem_mem _, ?_⟩
    · rw [← h.getTimeTail_eq (List.getElem?_eq_getElem hpos)]
      exact hin.1
    · rw [← h.getTimeHead_eq (List.getElem?_eq_getElem (by omega))]
      exact hin.2

lemma Rep.spans_iff (h : Rep b l) (hs : Sorted l) :
    Spans l tm ↔ ¬ (b.count = 0 ∨ tm < b.getTimeTail ∨ b.getTimeHead < tm) := by
  rcases eq_or_ne l [] with rfl | hl
  · refine iff_of_false ?_ fun hn => hn (.inl h.count)
    rintro ⟨⟨u, hu, -⟩, -⟩
    cases hu
  · have hpos := List.length_pos_of_ne_nil hl
    have hx := List.getElem?_eq_getElem hpos
    have hy := List.getElem?_eq_getElem (by omega : l.length - 1 < l.length)
    rw [h.getTimeTail_eq hx, h.getTimeHead_eq hy, not_or, not_or, not_lt, not_lt]
    constructor
    · rintro ⟨⟨u, hu, hut⟩, w, hw, hwt⟩
      obtain ⟨iu, hiu⟩ := List.mem_iff_getElem?.mp hu
      obtain ⟨iw, hiw⟩ := List.mem_iff_getElem?.mp hw
      have hiwl := (List.getElem?_eq_some_iff.mp hiw).1
      exact ⟨h.count_ne_zero hl, (hs.time_le hx hiu (Nat.zero_le _)).trans hut,
        hwt.trans (hs.time_le hiw hy (by omega))⟩
    · rintro ⟨-, hxt, hyt⟩
      exact ⟨⟨_, List.getElem_mem _, hxt⟩, _, List.getElem_mem _, hyt⟩

lemma Rep.findLoop_answers (h : Rep b l) (hs : Sorted l) (hin : Spans l tm) :
    ∃ k, b.findLoop tm b.size b.tail b.head = some (b.cell k : ℤ) ∧ Answers l tm k := by
  obtain ⟨⟨u, hu, -⟩, -⟩ := id hin
  have hpos := List.length_pos_of_mem hu
  have hl := List.ne_nil_of_length_pos hpos
  have hfits := h.fits
  have hx := List.getElem?_eq_getElem hpos
  have hy := List.getElem?_eq_getElem (by omega : l.length - 1 < l.length)
  have hbounds := (h.spans_iff hs).mp hin
  rw [h.getTimeTail_eq hx, h.getTimeHead_eq hy, not_or, not_or, not_lt, not_lt] at hbounds
  have hloop := h.findLoop b.size 0 (l.length - 1) hx hbounds.2.1 hy hbounds.2.2 (Nat.zero_le _) (by omega)
  rwa [h.cell_zero hl, ← h.head hl] at hloop

lemma Rep.findTimeIdx_answers (h : Rep b l) (hs : Sorted l) (hin : Spans l tm) :
    ∃ k, b.findTimeIdx tm = b.cell k ∧ Answers l tm k := by
  obtain ⟨k, hk, ha⟩ := h.findLoop_answers hs hin
  have hbounds := (h.spans_iff hs).mp hin
  rw [not_or] at hbounds
  refine ⟨k, ?_, ha⟩
  rw [findTimeIdx, if_neg hbounds.1, if_neg hbounds.2, hk]
  rfl

theorem find_time_idx_answers (h : Rep b l) (hs : Sorted l) (tm : ℤ) :
    (b.findTimeIdx tm = fail ↔ b.count = 0 ∨ tm < b.getTimeTail ∨ b.getTimeHead < tm) ∧
      (b.findTimeIdx tm ≠ fail → ∃ k, b.findLoop tm b.size b.tail b.head = some (b.cell k : ℤ) ∧
        b.findTimeIdx tm = b.cell k ∧ Answers l tm k) := by
  by_cases hin : Spans l tm
  · obtain ⟨k, hk, ha⟩ := h.findLoop_answers hs hin
    have hbounds := (h.spans_iff hs).mp hin
    have hfound : b.findTimeIdx tm = b.cell k := by
      rw [findTimeIdx, if_neg (not_or.mp hbounds).1, if_neg (not_or.mp hbounds).2, hk]
      rfl
    have hne : b.findTimeIdx tm ≠ fail := by
      rw [hfound, fail]
      omega
    exact ⟨iff_of_false hne hbounds, fun _ => ⟨k, hk, hfound, ha⟩⟩
  · have hfail : b.findTimeIdx tm = fail := h.findTimeIdx_fail hin
    exact ⟨iff_of_true hfail (not_not.mp (mt (h.spans_iff hs).mpr hin)), fun hne => absurd hfail hne⟩

theorem find_time_idx_answers_of_wrapped :
    let b : Tsbuff ℕ := ⟨fun k => if k = 2 then ⟨3, 1⟩ else ⟨5, 0⟩, 3, 2, 0, 2⟩
    (b.findTimeIdx 4 = fail ↔ b.count = 0 ∨ 4 < b.getTimeTail ∨ b.getTimeHead < 4) ∧
      (b.findTimeIdx 4 ≠ fail → ∃ k, b.findLoop 4 b.size b.tail b.head = some (b.cell k : ℤ) ∧
        b.findTimeIdx 4 = b.cell k ∧ Answers [⟨3, 1⟩, ⟨5, 0⟩] 4 k) := by
  refine find_time_idx_answers ?_ (by simp) 4
  apply Rep.of_start 2 (by simp) rfl (by simp) rfl (by simp) (by simp [pos])
  intro k v hk
  cases k with
  | zero => simpa [pos] using hk
  | succ k =>
    cases k with
    | zero => simpa [pos] using hk
    | succ k => cases hk

def upTo (l : List (TsValue α)) (tm : ℤ) : List (TsValue α) := l.filter (fun v => v.time ≤ tm)

def AtMostOne (l : List (TsValue α)) (tm : ℤ) : Prop := l.Pairwise (fun u v => u.time = tm → v.time ≠ tm)

lemma atMostOne_of_ne (hne : ∀ u ∈ l, u.time ≠ tm) : AtMostOne l tm :=
  List.pairwise_of_forall_mem_list fun _ _ v hv _ => hne v hv

lemma AtMostOne.append_of_ne {l' : List (TsValue α)} (ho : AtMostOne l tm) (hne : ∀ u ∈ l', u.time ≠ tm) :
    AtMostOne (l' ++ l) tm :=
  List.pairwise_append.mpr ⟨atMostOne_of_ne hne, ho, fun u hu _ _ hut => absurd hut (hne u hu)⟩

lemma mem_upTo {v : TsValue α} : v ∈ upTo l tm ↔ v ∈ l ∧ v.time ≤ tm := by
  simp [upTo]

lemma upTo_append (l' : List (TsValue α)) : upTo (l ++ l') tm = upTo l tm ++ upTo l' tm :=
  List.filter_append l l'

lemma upTo_all (h : ∀ v ∈ l, v.time ≤ tm) : upTo l tm = l :=
  List.filter_eq_self.mpr (by simpa using h)

lemma upTo_none (h : ∀ v ∈ l, tm < v.time) : upTo l tm = [] :=
  List.filter_eq_nil_iff.mpr (by simpa using h)

lemma length_upTo_pos : 0 < (upTo l tm).length ↔ ∃ v ∈ l, v.time ≤ tm := by
  rw [List.length_pos_iff_exists_mem]
  simp only [mem_upTo]

lemma upTo_eq_take (hs : Sorted l) (tm : ℤ) : upTo l tm = l.take (upTo l tm).length := by
  induction l with
  | nil => rfl
  | cons x l ih =>
    obtain ⟨hx, hs'⟩ := List.pairwise_cons.mp hs
    by_cases hxt : x.time ≤ tm
    · have hcons : upTo (x :: l) tm = x :: upTo l tm := List.filter_cons_of_pos (by simpa using hxt)
      rw [hcons, List.length_cons, List.take_succ_cons, ← ih hs']
    · have hgt : ∀ u ∈ x :: l, tm < u.time := by
        intro u hu
        rcases List.mem_cons.mp hu with rfl | hu
        · omega
        · have := hx u hu
          omega
      rw [upTo_none hgt]
      rfl

lemma getElem?_upTo_last (hs : Sorted l) (hpos : 0 < (upTo l tm).length) :
    l[(upTo l tm).length - 1]? = (upTo l tm).getLast? := by
  rw [List.getLast?_eq_getElem?]
  conv_rhs => rw [upTo_eq_take hs tm]
  rw [List.getElem?_take_of_lt, List.length_take]
  · congr 1
    have : (upTo l tm).length ≤ l.length := List.length_filter_le _ _
    omega
  · rw [List.length_take]
    omega

lemma lt_length_upTo_iff (hs : Sorted l) (tm : ℤ) {k : ℕ} {v : TsValue α} (hk : l[k]? = some v) :
    k < (upTo l tm).length ↔ v.time ≤ tm := by
  have htake := upTo_eq_take hs tm
  constructor
  · intro hlt
    have hv : (upTo l tm)[k]? = some v := by
      rw [htake, List.getElem?_take_of_lt hlt, hk]
    exact (mem_upTo.mp (List.mem_of_getElem? hv)).2
  · intro hle
    have hdrop : ∀ u ∈ l.drop (upTo l tm).length, ¬ u.time ≤ tm := by
      intro u hu hut
      have hsplit : upTo l tm = upTo l tm ++ upTo (l.drop (upTo l tm).length) tm := by
        conv_lhs => rw [← List.take_append_drop (upTo l tm).length l, upTo_append, ← htake]
        rw [upTo_all fun w hw => (mem_upTo.mp hw).2]
      have hnil : upTo (l.drop (upTo l tm).length) tm = [] := by simpa using hsplit
      exact List.not_mem_nil (hnil ▸ mem_upTo.mpr ⟨hu, hut⟩)
    by_contra hge
    refine hdrop v (List.mem_of_getElem? (i := k - (upTo l tm).length) ?_) hle
    rw [List.getElem?_drop, show (upTo l tm).length + (k - (upTo l tm).length) = k by omega]
    exact hk

lemma Answers.index_eq (hs : Sorted l) (ho : AtMostOne l tm) {k : ℕ} (ha : Answers l tm k) :
    k + 1 = (upTo l tm).length := by
  obtain ⟨v, hv, hvt, hn⟩ := ha
  have hlt := (lt_length_upTo_iff hs tm hv).mpr hvt
  rcases hn with heq | ⟨w, hw, hwt⟩
  · by_contra hne
    have hlen : (upTo l tm).length ≤ l.length := List.length_filter_le _ l
    have hkl : k + 1 < l.length := by omega
    have hw := List.getElem?_eq_getElem hkl
    have hle := (lt_length_upTo_iff hs tm hw).mp (by omega)
    have hge := hs.time_le hv hw (Nat.le_succ k)
    obtain ⟨hvl, rfl⟩ := List.getElem?_eq_some_iff.mp hv
    exact List.pairwise_iff_getElem.mp ho k (k + 1) hvl hkl (Nat.lt_succ_self k) heq (by omega)
  · have := (lt_length_upTo_iff hs tm hw).not.mpr (by omega)
    omega

lemma Rep.findTimeIdx_eq (h : Rep b l) (hs : Sorted l) (ho : AtMostOne l tm) (hin : Spans l tm) :
    b.findTimeIdx tm = b.cell ((upTo l tm).length - 1) := by
  obtain ⟨k, hk, ha⟩ := h.findTimeIdx_answers hs hin
  rw [hk, ← ha.index_eq hs ho, Nat.add_sub_cancel]

lemma Rep.checkHasEnoughCountDataIdx (h : Rep b l) {need : ℤ} (hn : 0 < need) {k : ℕ} (hk : k < l.length) :
    b.checkHasEnoughCountDataIdx need (b.cell k) = if need ≤ k + 1 then succeed else fail := by
  have hne : l ≠ [] := List.ne_nil_of_length_pos (by omega)
  obtain ⟨ht0, ht1⟩ := h.tail hne
  have hfit := h.fits
  have hcell : b.cell k = if b.tail.toNat + k < b.size then b.tail.toNat + k else b.tail.toNat + k - b.size := rfl
  rw [Tsbuff.checkHasEnoughCountDataIdx, if_neg (by omega)]
  split_ifs at hcell ⊢ <;> first | rfl | omega

lemma Rep.walk (h : Rep b l) {k : ℕ} (hk : k < l.length) (fuel j : ℕ) (hj : 0 < j) (hjk : j ≤ k + 1)
    (hfuel : k + 1 - j < fuel) : b.walk (b.cell (k + 1)) fuel (b.cell j) = (l.drop j).take (k + 1 - j) := by
  have hne : l ≠ [] := List.ne_nil_of_length_pos (by omega)
  have hfit := h.fits
  induction fuel generalizing j with
  | zero => omega
  | succ fuel ih =>
    rcases eq_or_lt_of_le hjk with rfl | hlt
    · simp [Tsbuff.walk]
    · have hcell : (b.cell j : ℤ) ≠ b.cell (k + 1) := by
        exact_mod_cast pos_ne hj hlt (by omega)
      have hjl : j < l.length := by omega
      have hnext : b.index (b.cell j + 1) = b.cell (j + 1) := h.index_succ hne (by omega)
      rw [Tsbuff.walk, if_neg hcell, h.get_cell (List.getElem?_eq_getElem hjl), hnext,
        ih (j + 1) (by omega) (by omega) (by omega), List.drop_eq_getElem_cons hjl,
        show k + 1 - j = k + 1 - (j + 1) + 1 by omega, List.take_succ_cons]

end

end Glaber.Algo.Tsbuff
