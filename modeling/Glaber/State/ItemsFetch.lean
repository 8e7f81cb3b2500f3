import Glaber.State.ItemsView
import Mathlib.Data.List.Sort

namespace Glaber.State.Items

open Glaber.Algo Glaber.Algo.Tsbuff

variable {α : Type}

def Older (u v : HistoryRecord α) : Prop := u.sec < v.sec ∨ u.sec = v.sec ∧ u.ns < v.ns

structure History (α : Type) where
  records : List (HistoryRecord α)
  ascending : records.Pairwise Older
  positive : ∀ r ∈ records, 0 < r.sec

def between (l : List (TsValue α)) (start stop : ℤ) : List (TsValue α) :=
  l.filter (fun v => start < v.time ∧ v.time ≤ stop)

namespace History

def slots (h : History α) : List (TsValue α) := h.records.map HistoryRecord.slot

def range (h : History α) (start stop : ℤ) : List (HistoryRecord α) :=
  h.records.filter (fun r => start < r.sec ∧ r.sec ≤ stop)

lemma sorted_slots (h : History α) : Sorted h.slots := by
  apply List.pairwise_map.mpr
  refine h.ascending.imp ?_
  rintro u v (hlt | ⟨heq, -⟩)
  · exact hlt.le
  · exact heq.le

lemma slots_pos (h : History α) {v : TsValue α} (hv : v ∈ h.slots) : 0 < v.time := by
  obtain ⟨r, hr, rfl⟩ := List.mem_map.mp hv
  exact h.positive r hr

lemma map_slot_range (h : History α) (start stop : ℤ) :
    (h.range start stop).map HistoryRecord.slot = between h.slots start stop := by
  rw [between, slots, List.filter_map]
  rfl

end History

def Faithful (hist : HistoryStorage α) (valueType : ValueType) (h : History α) : Prop :=
  ∀ start count stop, 0 ≤ count → ∃ values, hist valueType start count stop = some values ∧
    values.Perm (if count = 0 then h.range start stop else (h.range start stop).rtake count.toNat)

def exactStorage (h : History α) : HistoryStorage α := fun _ start count stop =>
  some (if count = 0 then h.range start stop else (h.range start stop).rtake count.toNat)

lemma exactStorage_faithful (h : History α) (valueType : ValueType) : Faithful (exactStorage h) valueType h :=
  fun _ _ _ _ => ⟨_, rfl, List.Perm.refl _⟩

lemma historyRecordCompareDesc_iff (a b : HistoryRecord α) :
    historyRecordCompareDesc a b ≤ 0 ↔ b.sec < a.sec ∨ a.sec = b.sec ∧ b.ns ≤ a.ns := by
  rw [historyRecordCompareDesc]
  split_ifs <;> omega

lemma sortDesc_perm {values l : List (HistoryRecord α)} (hp : values.Perm l) (hl : l.Pairwise Older) :
    sortDesc values = l.reverse := by
  have hsort : (sortDesc values).Pairwise (fun d1 d2 => historyRecordCompareDesc d1 d2 ≤ 0) := by
    refine (List.pairwise_mergeSort ?_ ?_ values).imp (by simp)
    · intro a b c hab hbc
      simp only [decide_eq_true_eq, historyRecordCompareDesc_iff] at hab hbc ⊢
      omega
    · intro a b
      simp only [Bool.or_eq_true, decide_eq_true_eq, historyRecordCompareDesc_iff]
      omega
  have hrev : l.reverse.Pairwise (fun d1 d2 => historyRecordCompareDesc d1 d2 ≤ 0) := by
    refine List.pairwise_reverse.mpr (hl.imp ?_)
    intro a b hab
    rw [historyRecordCompareDesc_iff]
    rw [Older] at hab
    omega
  have hperm : (sortDesc values).Perm l := (List.mergeSort_perm values _).trans hp
  refine List.Perm.eq_of_pairwise ?_ hsort hrev (hperm.trans (List.reverse_perm l).symm)
  intro a b ha hb hab hba
  obtain ⟨i, hi, rfl⟩ := List.mem_iff_getElem.mp (hperm.mem_iff.mp ha)
  obtain ⟨j, hj, rfl⟩ := List.mem_iff_getElem.mp (List.mem_reverse.mp hb)
  have hp := List.pairwise_iff_getElem.mp hl
  rw [historyRecordCompareDesc_iff] at hab hba
  rcases lt_trichotomy i j with hij | rfl | hij
  · rcases hp i j hi hj hij with h | ⟨h, h'⟩ <;> omega
  · rfl
  · rcases hp j i hj hi hij with h | ⟨h, h'⟩ <;> omega

structure Shows (elm : ItemElem α) (v : View α) : Prop where
  rep : Rep elm.tsbuff v.live
  size : elm.tsbuff.size = v.size

section

variable {elm : ItemElem α} {v : View α}

lemma Shows.of_tsbuff {elm' : ItemElem α} (h : Shows elm v) (he : elm'.tsbuff = elm.tsbuff) : Shows elm' v := by
  obtain ⟨hr, hs⟩ := h
  rw [← he] at hr hs
  exact ⟨hr, hs⟩

@[simp]
lemma updateDbFetch_tsbuff (elm : ItemElem α) (t : ℤ) : (updateDbFetch elm t).tsbuff = elm.tsbuff := by
  rw [updateDbFetch]
  split_ifs <;> rfl

@[simp]
lemma updateDbFetch_valueType (elm : ItemElem α) (t : ℤ) : (updateDbFetch elm t).valueType = elm.valueType := by
  rw [updateDbFetch]
  split_ifs <;> rfl

@[simp]
lemma updateDbFetch_demand (elm : ItemElem α) (t : ℤ) : (updateDbFetch elm t).demand = elm.demand := by
  rw [updateDbFetch]
  split_ifs <;> rfl

@[simp]
lemma updateDbFetch_dbFetchedCount (elm : ItemElem α) (t : ℤ) :
    (updateDbFetch elm t).dbFetchedCount = elm.dbFetchedCount := by
  rw [updateDbFetch]
  split_ifs <;> rfl

@[simp]
lemma updateDbFetch_dbFetchedTime (elm : ItemElem α) (t : ℤ) :
    (updateDbFetch elm t).dbFetchedTime = min elm.dbFetchedTime t := by
  rw [updateDbFetch]
  split_ifs <;> simp <;> omega

lemma Shows.addRecord (h : Shows elm v) (r : HistoryRecord α) : Shows (addRecord elm r) (v.push r.slot) := by
  rw [Items.addRecord, View.push]
  by_cases ha : Accepts v.live v.size r.slot.time
  · obtain ⟨idx, b', hadd, hsize, hrep⟩ := h.rep.addToTail_some (by rw [h.size]; exact ha)
    rw [if_pos ha, show elm.tsbuff.addToTail r.sec = some (idx, b') from hadd]
    exact ⟨hrep r.value, hsize.trans h.size⟩
  · have hadd : elm.tsbuff.addToTail r.sec = none := h.rep.addToTail_none (by rw [h.size]; exact ha)
    rw [if_neg ha, hadd]
    exact h

lemma Shows.second (h : Shows elm v) (hfull : v.live.length = v.size) :
    (elm.tsbuff.get (elm.tsbuff.index (elm.tsbuff.tail + 1))).time = secondTime v.live := by
  have hpos := h.rep.size_pos
  have hs := h.size
  have hne : v.live ≠ [] := List.ne_nil_of_length_pos (by omega)
  rw [h.rep.index_cell hne (k := 1) (by omega) (by simp)]
  rcases hv : v.live with _ | ⟨x, _ | ⟨y, l⟩⟩
  · exact absurd hv hne
  · have hrep := h.rep
    rw [hv] at hrep hfull
    have hcell : elm.tsbuff.cell 1 = elm.tsbuff.cell 0 := by
      have := hrep.tail_lt (List.cons_ne_nil _ _)
      simp only [List.length_singleton] at hfull
      simp only [cell, Lib.Ring.pos]
      split_ifs <;> omega
    rw [hcell, hrep.get_cell (k := 0) (v := x) rfl]
    rfl
  · rw [h.rep.get_cell (k := 1) (v := y) (by rw [hv]; rfl)]
    rfl

structure SameFetch (elm elm' : ItemElem α) : Prop where
  demand : elm'.demand = elm.demand
  valueType : elm'.valueType = elm.valueType
  dbFetchedTime : elm'.dbFetchedTime = elm.dbFetchedTime
  dbFetchedCount : elm'.dbFetchedCount = elm.dbFetchedCount

lemma SameFetch.refl (elm : ItemElem α) : SameFetch elm elm := ⟨rfl, rfl, rfl, rfl⟩

lemma SameFetch.trans {e1 e2 e3 : ItemElem α} (h : SameFetch e1 e2) (h' : SameFetch e2 e3) : SameFetch e1 e3 :=
  ⟨h'.demand.trans h.demand, h'.valueType.trans h.valueType, h'.dbFetchedTime.trans h.dbFetchedTime,
    h'.dbFetchedCount.trans h.dbFetchedCount⟩

lemma sameFetch_addRecord (elm : ItemElem α) (r : HistoryRecord α) : SameFetch elm (Items.addRecord elm r) := by
  rw [Items.addRecord]
  split <;> exact ⟨rfl, rfl, rfl, rfl⟩

lemma sameFetch_foldl (f : ItemElem α → HistoryRecord α → ItemElem α) (hf : ∀ e r, SameFetch e (f e r))
    (rs : List (HistoryRecord α)) (elm : ItemElem α) : SameFetch elm (rs.foldl f elm) := by
  induction rs generalizing elm with
  | nil => exact SameFetch.refl elm
  | cons r rs ih => exact (hf elm r).trans (ih (f elm r))

lemma Shows.foldl_addRecord (h : Shows elm v) (rs : List (HistoryRecord α)) :
    Shows (rs.foldl Items.addRecord elm) (v.fill (rs.map HistoryRecord.slot)) := by
  induction rs generalizing elm v with
  | nil => exact h
  | cons r rs ih => exact ih (h.addRecord r)

section

variable [Inhabited α]

lemma Shows.ensureTsbuffHasSpace (h : Shows elm v) (now : ℤ) :
    Shows (ensureTsbuffHasSpace now elm) (v.makeRoom elm.demand now) := by
  have hc := h.rep.count
  have hs := h.size
  have hiff : elm.tsbuff.isFull ↔ v.live.length = v.size := by
    rw [isFull]
    omega
  rw [Items.ensureTsbuffHasSpace, View.makeRoom]
  by_cases hfull : v.live.length = v.size
  · rw [if_pos (hiff.mpr hfull), if_pos hfull]
    simp only [ensureCacheDemandCountMet, ensureCacheDemandTimeMet, h.second hfull, hc]
    split_ifs with hmet hgrow
    · obtain ⟨x, l, hl⟩ := List.exists_cons_of_ne_nil
        (List.ne_nil_of_length_pos (by have := h.rep.size_pos; omega) : v.live ≠ [])
      have hrep := h.rep
      rw [hl] at hrep
      exact ⟨by simpa only [hl, List.tail_cons] using hrep.freeTail, by simpa using hs⟩
    · have hlt := lt_calcGrowBufferSize elm.tsbuff.size
      rw [← hs] at hgrow ⊢
      have hup : elm.tsbuff.resize blank (calcGrowBufferSize elm.tsbuff.size : ℤ)
          = elm.tsbuff.upsize blank (calcGrowBufferSize elm.tsbuff.size) := by
        rw [resize, if_neg (by omega), if_neg (by omega), Int.toNat_natCast]
      rw [hup]
      refine ⟨h.rep.upsize blank (by omega) hlt, ?_⟩
      simp only [Tsbuff.upsize]
      split_ifs <;> rfl
    · rw [← hs] at hgrow
      rw [resize, if_pos (by omega)]
      exact h
  · rw [if_neg (hiff.not.mpr hfull), if_neg hfull]
    exact h

lemma sameFetch_addFetched (now : ℤ) (elm : ItemElem α) (r : HistoryRecord α) :
    SameFetch elm (addFetched now elm r) := by
  refine SameFetch.trans ?_ (sameFetch_addRecord _ r)
  rw [Items.ensureTsbuffHasSpace]
  simp only
  split_ifs <;> exact ⟨rfl, rfl, rfl, rfl⟩

lemma Shows.foldl_addFetched (h : Shows elm v) (now : ℤ) (rs : List (HistoryRecord α)) :
    Shows (rs.foldl (addFetched now) elm) (v.absorb elm.demand now (rs.map HistoryRecord.slot)) := by
  induction rs generalizing elm v with
  | nil => exact h
  | cons r rs ih =>
    have hstep : Shows (addFetched now elm r) _ := (h.ensureTsbuffHasSpace now).addRecord r
    have hrest := ih hstep
    rw [(sameFetch_addFetched now elm r).demand] at hrest
    exact hrest

end

end

lemma Shows.tidy {h : History α} {elm : ItemElem α} {v : View α} (hv : Shows elm v) (hsub : v.live.Sublist h.slots) :
    v.Tidy :=
  ⟨h.sorted_slots.sublist hsub, fun _ hu => h.slots_pos (hsub.subset hu), hv.size ▸ hv.rep.fits,
    hv.size ▸ hv.rep.size_pos⟩

section

variable {hist : HistoryStorage α} {h : History α} {elm : ItemElem α} {v : View α}

lemma sortDesc_newest {valueType : ValueType} (hf : Faithful hist valueType h) (start stop : ℤ) {count : ℤ}
    (hc : 0 < count) : ∃ values, hist valueType start count stop = some values ∧
      (sortDesc values).map HistoryRecord.slot = ((between h.slots start stop).rtake count.toNat).reverse := by
  obtain ⟨values, hv, hp⟩ := hf start count stop hc.le
  rw [if_neg hc.ne'] at hp
  refine ⟨values, hv, ?_⟩
  have hsub : ((h.range start stop).rtake count.toNat).Sublist h.records :=
    (List.drop_sublist _ _).trans List.filter_sublist
  rw [sortDesc_perm hp (h.ascending.sublist hsub), List.map_reverse, ← h.map_slot_range, List.rtake, List.rtake,
    List.map_drop, List.length_map]

lemma sortDesc_all {valueType : ValueType} (hf : Faithful hist valueType h) (start stop : ℤ) :
    ∃ values, hist valueType start 0 stop = some values ∧
      (sortDesc values).map HistoryRecord.slot = (between h.slots start stop).reverse := by
  obtain ⟨values, hv, hp⟩ := hf start 0 stop le_rfl
  rw [if_pos rfl] at hp
  refine ⟨values, hv, ?_⟩
  rw [sortDesc_perm hp (h.ascending.sublist List.filter_sublist), List.map_reverse, h.map_slot_range]

lemma between_nil {l : List (TsValue α)} {start stop : ℤ} (hs : stop ≤ start) : between l start stop = [] := by
  refine List.filter_eq_nil_iff.mpr fun v _ => ?_
  simp only [decide_eq_true_eq]
  omega

lemma sorted_split {l : List (TsValue α)} (hs : Sorted l) (tm : ℤ) :
    l = upTo l tm ++ l.filter (fun v => tm < v.time) := by
  induction l with
  | nil => rfl
  | cons x l ih =>
    obtain ⟨hx, hs'⟩ := List.pairwise_cons.mp hs
    by_cases hxt : x.time ≤ tm
    · have hlo : upTo (x :: l) tm = x :: upTo l tm := List.filter_cons_of_pos (by simpa using hxt)
      rw [hlo, List.filter_cons_of_neg (by simpa using hxt), List.cons_append, ← ih hs']
    · have hgt : ∀ u ∈ x :: l, tm < u.time := by
        intro u hu
        rcases List.mem_cons.mp hu with rfl | hu
        · omega
        · have := hx u hu
          omega
      rw [upTo_none hgt, List.nil_append, List.filter_eq_self.mpr (by simpa using hgt)]

lemma between_split {l : List (TsValue α)} (hs : Sorted l) (start stop tm : ℤ) :
    between l start stop = between l start (min stop tm) ++ between l (max start tm) stop := by
  conv_lhs => rw [between, sorted_split hs tm, List.filter_append, upTo, List.filter_filter, List.filter_filter]
  congr 1 <;>
  · refine List.filter_congr fun v _ => ?_
    simp only [← Bool.decide_and, decide_eq_decide]
    omega

lemma upTo_split {l : List (TsValue α)} (hs : Sorted l) {start stop : ℤ} (hle : start ≤ stop) :
    upTo l stop = upTo l start ++ between l start stop := by
  conv_lhs => rw [upTo, sorted_split hs start, List.filter_append, upTo, List.filter_filter, List.filter_filter]
  congr 1 <;>
  · refine List.filter_congr fun v _ => ?_
    simp only [← Bool.decide_and, decide_eq_decide]
    omega

lemma mem_between {l : List (TsValue α)} {start stop : ℤ} {v : TsValue α} :
    v ∈ between l start stop ↔ v ∈ l ∧ start < v.time ∧ v.time ≤ stop := by
  simp [between]

lemma between_zero (h : History α) (stop : ℤ) : between h.slots 0 stop = upTo h.slots stop := by
  refine List.filter_congr fun v hv => ?_
  have := h.slots_pos hv
  simp [this]

lemma fetchFromDbByTime_spec [Inhabited α] (hf : Faithful hist elm.valueType h) (hv : Shows elm v)
    (seconds headTime now : ℤ) : ∃ elm', fetchFromDbByTime hist elm seconds headTime now = (succeed, elm') ∧
      Shows elm' (v.absorb elm.demand now
        (between h.slots (headTime - seconds) (min elm.dbFetchedTime now)).reverse) ∧
      elm'.valueType = elm.valueType ∧ elm'.dbFetchedCount = elm.dbFetchedCount ∧
      elm'.dbFetchedTime = min elm.dbFetchedTime (headTime - seconds) := by
  rw [fetchFromDbByTime]
  split_ifs with hskip
  · rw [between_nil (by omega)]
    exact ⟨elm, rfl, hv, rfl, rfl, by omega⟩
  · obtain ⟨values, hval, hslots⟩ := sortDesc_all hf (headTime - seconds) (min elm.dbFetchedTime now)
    simp only [updateDbFetch_valueType, updateDbFetch_dbFetchedTime, hval]
    have hsame := sameFetch_foldl (addFetched now) (sameFetch_addFetched now) (sortDesc values)
      (updateDbFetch elm now)
    have hshow := (hv.of_tsbuff (updateDbFetch_tsbuff elm now)).foldl_addFetched now (sortDesc values)
    rw [hslots, updateDbFetch_demand] at hshow
    refine ⟨_, rfl, hshow.of_tsbuff rfl, ?_, ?_, ?_⟩
    · simpa using hsame.valueType
    · simpa using hsame.dbFetchedCount
    · simp only
      omega

lemma fetchFromDbByCount_spec (hf : Faithful hist elm.valueType h) (hv : Shows elm v)
    {count : ℤ} (hc : 0 < count) (headTime now : ℤ) :
    ∃ elm', fetchFromDbByCount hist elm count headTime now = (succeed, elm') ∧
      Shows elm' (if min elm.dbFetchedTime now < headTime ∧ count ≤ elm.dbFetchedCount then v
        else v.fill ((upTo h.slots (min elm.dbFetchedTime now - 1)).rtake count.toNat).reverse) := by
  rw [fetchFromDbByCount]
  simp only [updateDbFetch_valueType, updateDbFetch_dbFetchedTime, updateDbFetch_dbFetchedCount]
  have hv' := hv.of_tsbuff (updateDbFetch_tsbuff elm now)
  split_ifs with hskip
  · exact ⟨_, rfl, hv'⟩
  · obtain ⟨values, hval, hslots⟩ := sortDesc_newest hf 0 (min elm.dbFetchedTime now - 1) hc
    rw [between_zero] at hslots
    rw [← hslots, hval]
    rcases values with _ | ⟨r, rs⟩
    · refine ⟨_, rfl, ?_⟩
      have hnil : v.fill ((sortDesc []).map HistoryRecord.slot) = v := by simp [sortDesc, View.fill]
      rw [hnil]
      exact hv'.of_tsbuff rfl
    · refine ⟨_, rfl, Shows.foldl_addRecord (hv'.of_tsbuff ?_) _⟩
      rfl

end

section

variable {elm : ItemElem α} {v : View α}

lemma Shows.fillByIndex (hv : Shows elm v) {a k : ℕ} (hak : a ≤ k) (hk : k < v.live.length) :
    fillItemsValuesByIndex elm (elm.tsbuff.cell a) (elm.tsbuff.cell k)
      = some ((v.live.drop a).take (k + 1 - a)) := by
  have hne : v.live ≠ [] := List.ne_nil_of_length_pos (by omega)
  have hfit := hv.rep.fits
  have hal : a < v.live.length := by omega
  rw [fillItemsValuesByIndex, if_neg (by omega)]
  simp only
  rw [hv.rep.get_cell (List.getElem?_eq_getElem hal), hv.rep.index_succ hne (by omega),
    hv.rep.index_succ hne (by omega), hv.rep.walk hk _ _ (by omega) (by omega) (by omega),
    List.drop_eq_getElem_cons hal, show k + 1 - a = k + 1 - (a + 1) + 1 by omega, List.take_succ_cons]

lemma Shows.fillByCount (hv : Shows elm v) {count : ℤ} (hc : 0 < count) {k : ℕ} (hk : k < v.live.length)
    (hck : count ≤ k + 1) : fillItemsValuesByCount elm count (elm.tsbuff.cell k)
      = some ((v.live.take (k + 1)).rtake count.toNat) := by
  have hne : v.live ≠ [] := List.ne_nil_of_length_pos (by omega)
  have hfit := hv.rep.fits
  have hidx : elm.tsbuff.index (elm.tsbuff.cell k - count + 1) = elm.tsbuff.cell (k + 1 - count.toNat) := by
    apply hv.rep.index_cell hne (by omega)
    have ht := hv.rep.tail hne
    rw [cell, Lib.Ring.pos]
    split_ifs <;> omega
  rw [fillItemsValuesByCount, hidx, hv.fillByIndex (by omega) hk, List.rtake, List.length_take,
    Nat.min_eq_left (by omega), List.drop_take]

end

end Glaber.State.Items
