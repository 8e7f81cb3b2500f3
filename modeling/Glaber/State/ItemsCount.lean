import Glaber.State.ItemsFetch

namespace Glaber.State.Items

open Glaber.Algo Glaber.Algo.Tsbuff Glaber.Lib.Newest

variable {α : Type}

section

variable {hist : HistoryStorage α} {h : History α} {elm : ItemElem α} {v : View α} {req : FetchReq α}

lemma Shows.found (hv : Shows elm v) (hs : Sorted v.live) {tm : ℤ} (ho : AtMostOne v.live tm)
    (hin : Spans v.live tm) {count : ℤ} (hc : 0 < count) :
    ∃ k < v.live.length, (upTo v.live tm).length = k + 1 ∧ elm.tsbuff.findTimeIdx tm = elm.tsbuff.cell k ∧
      elm.tsbuff.checkHasEnoughCountDataIdx count (elm.tsbuff.cell k)
        = if count ≤ (upTo v.live tm).length then succeed else fail := by
  have hpos := length_upTo_pos.mpr hin.1
  have hle : (upTo v.live tm).length ≤ v.live.length := List.length_filter_le _ _
  have hk : (upTo v.live tm).length - 1 < v.live.length := by omega
  have hlen : (upTo v.live tm).length = (upTo v.live tm).length - 1 + 1 := by omega
  refine ⟨_, hk, hlen, hv.rep.findTimeIdx_eq hs ho hin, ?_⟩
  rw [hv.rep.checkHasEnoughCountDataIdx hc hk]
  congr 1
  rw [eq_iff_iff]
  omega

lemma Shows.answerCount_iff (hv : Shows elm v) (hs : Sorted v.live) (ho : AtMostOne v.live req.tsHead)
    (hc : 0 < req.count) (answer : List (TsValue α)) :
    (∃ elm', answerCount req elm = some ⟨succeed, elm', answer⟩) ↔
      Spans v.live req.tsHead ∧ req.count ≤ (upTo v.live req.tsHead).length ∧
        (upTo v.live req.tsHead).rtake req.count.toNat = answer := by
  rw [answerCount]
  by_cases hin : Spans v.live req.tsHead
  · obtain ⟨k, hk, hlen, hidx, hcheck⟩ := hv.found hs ho hin hc
    rw [hidx, if_neg (by omega), hcheck]
    by_cases hen : req.count ≤ (upTo v.live req.tsHead).length
    · rw [if_pos hen, if_neg (by decide), hv.fillByCount hc hk (by omega), ← hlen, ← upTo_eq_take hs]
      obtain ⟨w, l, hwl⟩ := List.exists_cons_of_ne_nil (l := (upTo v.live req.tsHead).rtake req.count.toNat)
        (List.ne_nil_of_length_pos (by rw [length_rtake]; omega))
      rw [hwl]
      constructor
      · rintro ⟨elm', heq⟩
        simp only [Option.map_some, Option.some.injEq, Reply.mk.injEq] at heq
        exact ⟨hin, hen, heq.2.2⟩
      · rintro ⟨-, -, rfl⟩
        exact ⟨_, rfl⟩
    · rw [if_neg hen, if_pos rfl]
      constructor
      · rintro ⟨elm', heq⟩
        simp [succeed, fail] at heq
      · exact fun hh => absurd hh.2.1 hen
  · rw [hv.rep.findTimeIdx_fail hin]
    constructor
    · rintro ⟨elm', heq⟩
      simp [succeed, fail] at heq
    · exact fun hh => absurd hh.1 hin

lemma Shows.head_offset (hv : Shows elm v) {k : ℕ} (hk : k < v.live.length) :
    ((elm.tsbuff.cell k : ℤ) - elm.tsbuff.tail + elm.tsbuff.size).tmod elm.tsbuff.size = k := by
  have hfit := hv.rep.fits
  have ht := hv.rep.tail (List.ne_nil_of_length_pos (by omega))
  apply Lib.Ring.tmod_index
  · omega
  · omega
  · rw [cell, Lib.Ring.pos]
    split_ifs <;> omega

def viewAfterCount (h : History α) (now : ℤ) (req : FetchReq α) (elm : ItemElem α) (v : View α) (need : ℤ) :
    View α :=
  if min elm.dbFetchedTime now < req.tsHead ∧ need ≤ elm.dbFetchedCount then v
  else v.fill ((upTo h.slots (min elm.dbFetchedTime now - 1)).rtake need.toNat).reverse

lemma fetchMissing_spec (hf : Faithful hist elm.valueType h) (hv : Shows elm v) (hs : Sorted v.live)
    (ho : AtMostOne v.live req.tsHead) (now : ℤ) {need : ℤ} (hpos : 0 < need)
    (hneed : Spans v.live req.tsHead ∧ need = req.count - ((upTo v.live req.tsHead).length - 1) ∨
      ¬ Spans v.live req.tsHead ∧ need = req.count) :
    ∃ elm', fetchMissing hist now req elm = (succeed, elm') ∧
      Shows elm' (viewAfterCount h now req elm v need) := by
  obtain ⟨elm', hfetch, hshow⟩ := fetchFromDbByCount_spec hf hv hpos req.tsHead now
  have hcount : (if elm.tsbuff.findTimeIdx req.tsHead = -1 then req.count
      else req.count - (elm.tsbuff.findTimeIdx req.tsHead - elm.tsbuff.tail + elm.tsbuff.size).tmod
        elm.tsbuff.size) = need := by
    rcases hneed with ⟨hin, hn⟩ | ⟨hin, hn⟩
    · have hlen := length_upTo_pos.mpr hin.1
      have hle : (upTo v.live req.tsHead).length ≤ v.live.length := List.length_filter_le _ _
      rw [hv.rep.findTimeIdx_eq hs ho hin, if_neg (by omega), hv.head_offset (by omega), hn]
      omega
    · rw [hv.rep.findTimeIdx_fail hin, if_pos rfl, hn]
  refine ⟨updateDbFetch elm' req.tsHead, ?_, hshow.of_tsbuff (updateDbFetch_tsbuff _ _)⟩
  simp only [fetchMissing, hcount, if_pos hpos, hfetch]
  rfl

lemma Shows.head_of_lt (hv : Shows elm v) (hne : v.live ≠ []) {tm : ℤ} (hlt : ∀ w ∈ v.live, w.time < tm) :
    (if elm.tsbuff.getTimeHead < tm then elm.tsbuff.head else elm.tsbuff.findTimeIdx tm)
      = elm.tsbuff.cell (v.live.length - 1) := by
  have hpos := List.length_pos_of_ne_nil hne
  have hlast := List.getElem?_eq_getElem (show v.live.length - 1 < v.live.length by omega)
  rw [hv.rep.getTimeHead_eq hlast, if_pos (hlt _ (List.getElem_mem _)), hv.rep.head hne]

lemma Shows.find_of_le (hv : Shows elm v) (hs : Sorted v.live) {tm : ℤ} (hge : ∃ w ∈ v.live, tm ≤ w.time) :
    (if elm.tsbuff.getTimeHead < tm then elm.tsbuff.head else elm.tsbuff.findTimeIdx tm)
      = elm.tsbuff.findTimeIdx tm := by
  obtain ⟨w, hw, hwt⟩ := hge
  obtain ⟨i, hi⟩ := List.mem_iff_getElem?.mp hw
  have hil := (List.getElem?_eq_some_iff.mp hi).1
  have hlast := List.getElem?_eq_getElem (show v.live.length - 1 < v.live.length by omega)
  have hle := hs.time_le hi hlast (by omega)
  rw [hv.rep.getTimeHead_eq hlast, if_neg (by omega)]

lemma viewAfterCount_tidy (h : History α) (now : ℤ) (req : FetchReq α) (elm : ItemElem α) (ht : v.Tidy)
    (need : ℤ) : (viewAfterCount h now req elm v need).Tidy := by
  rw [viewAfterCount]
  split_ifs
  · exact ht
  · refine ht.fill fun x hx => ?_
    have hx' := (List.drop_subset _ _ (List.mem_reverse.mp hx) : x ∈ upTo h.slots _)
    exact h.slots_pos (mem_upTo.mp hx').1

lemma live_suffix_viewAfterCount (h : History α) (now : ℤ) (req : FetchReq α) (elm : ItemElem α) (v : View α)
    (need : ℤ) : v.live <:+ (viewAfterCount h now req elm v need).live := by
  rw [viewAfterCount]
  split_ifs
  · exact List.suffix_rfl
  · exact View.live_suffix_fill _ _

def viewAfterNewer (h : History α) (now : ℤ) (req : FetchReq α) (elm : ItemElem α) (v : View α) : View α :=
  v.absorb elm.demand now (between h.slots req.tsHead (min elm.dbFetchedTime now)).reverse

section

variable (h : History α) (now : ℤ) (req : FetchReq α) (elm : ItemElem α)

lemma mem_reverse_between {start stop : ℤ} {x : TsValue α} (hx : x ∈ (between h.slots start stop).reverse) :
    x ∈ h.slots ∧ start < x.time := by
  obtain ⟨hx, hstart, -⟩ := mem_between.mp (List.mem_reverse.mp hx)
  exact ⟨hx, hstart⟩

lemma viewAfterNewer_tidy (ht : v.Tidy) : (viewAfterNewer h now req elm v).Tidy :=
  ht.absorb elm.demand now fun _ hx => h.slots_pos (mem_reverse_between h hx).1

lemma viewAfterNewer_newer (hold : ∀ w ∈ v.live, req.tsHead < w.time) :
    ∀ w ∈ (viewAfterNewer h now req elm v).live, req.tsHead < w.time := by
  intro w hw
  rcases View.mem_absorb hw with hw | hw
  · exact (mem_reverse_between h hw).2
  · exact hold w hw

lemma viewAfterNewer_ne_nil (ht : v.Tidy) : (viewAfterNewer h now req elm v).live ≠ [] ↔
    v.live ≠ [] ∨ between h.slots req.tsHead (min elm.dbFetchedTime now) ≠ [] := by
  constructor
  · intro hne
    by_contra hnil
    push Not at hnil
    rw [viewAfterNewer, hnil.2] at hne
    exact hne hnil.1
  · intro hne
    exact ht.absorb_ne_nil elm.demand now (fun _ hx => h.slots_pos (mem_reverse_between h hx).1)
      (hne.imp_right (by simp))

end

lemma descending_newest {l : List (TsValue α)} (hs : Sorted l) (n : ℕ) :
    (l.rtake n).reverse.Pairwise (fun x y => y.time ≤ x.time) :=
  List.pairwise_reverse.mpr (hs.sublist (List.drop_sublist _ _))

lemma mem_of_mem_newest {l : List (TsValue α)} {n : ℕ} {x : TsValue α} (hx : x ∈ l.rtake n) : x ∈ l :=
  List.drop_subset _ _ hx

lemma viewAfterCount_old (h : History α) (hfit : v.live.length ≤ v.size) {now need : ℤ}
    (hfetch : ¬ (min elm.dbFetchedTime now < req.tsHead ∧ need ≤ elm.dbFetchedCount))
    (hlive : ∀ w ∈ v.live, min elm.dbFetchedTime now ≤ w.time) :
    (viewAfterCount h now req elm v need).live
      = (upTo h.slots (min elm.dbFetchedTime now - 1)).rtake (min need.toNat v.room) ++ v.live := by
  have hs : Sorted (upTo h.slots (min elm.dbFetchedTime now - 1)) := h.sorted_slots.sublist List.filter_sublist
  rw [viewAfterCount, if_neg hfetch, View.fill_of_old hfit (descending_newest hs _), reverse_take_reverse_rtake]
  intro x hx u hu
  have hxt := (mem_upTo.mp (mem_of_mem_newest (List.mem_reverse.mp hx))).2
  have := hlive u (List.mem_of_mem_head? hu)
  omega

lemma viewAfterCount_overlap (h : History α) (hfit : v.live.length ≤ v.size) {now need : ℤ} {w : TsValue α}
    (hfetch : ¬ (min elm.dbFetchedTime now < req.tsHead ∧ need ≤ elm.dbFetchedCount))
    (hw : v.live.head? = some w) (hpos : 0 < w.time) (hover : w.time < min elm.dbFetchedTime now) :
    ∃ n, (viewAfterCount h now req elm v need).live = (upTo h.slots w.time).rtake n ++ v.live := by
  have hs : Sorted (upTo h.slots w.time) := h.sorted_slots.sublist List.filter_sublist
  have hsplit := upTo_split h.sorted_slots (show w.time ≤ min elm.dbFetchedTime now - 1 by omega)
  rw [viewAfterCount, if_neg hfetch, hsplit, rtake_append, List.reverse_append, View.fill_skip hw hpos,
    View.fill_of_old hfit (descending_newest hs _), reverse_take_reverse_rtake]
  · exact ⟨_, rfl⟩
  · intro x hx u hu
    have hxt := (mem_upTo.mp (mem_of_mem_newest (List.mem_reverse.mp hx))).2
    rw [hw] at hu
    cases hu
    exact hxt
  · intro x hx
    exact (mem_between.mp (mem_of_mem_newest (List.mem_reverse.mp hx))).2.1

end

section

variable [Inhabited α] {hist : HistoryStorage α} {h : History α} {now : ℤ} {req : FetchReq α} {elm : ItemElem α}
  {v : View α} {past live : List (TsValue α)}

def countAnswer (h : History α) (req : FetchReq α) : List (TsValue α) :=
  (upTo h.slots req.tsHead).rtake req.count.toNat

structure CountScene (hist : HistoryStorage α) (h : History α) (req : FetchReq α) (elm : ItemElem α) (v : View α)
    (past : List (TsValue α)) : Prop where
  faithful : Faithful hist req.valueType h
  shows : Shows (retypeCount req elm) v
  split : h.slots = past ++ v.live
  count_pos : 0 < req.count
  enough : req.count ≤ (upTo h.slots req.tsHead).length

def CountServed (hist : HistoryStorage α) (h : History α) (now : ℤ) (req : FetchReq α) (elm : ItemElem α) : Prop :=
  ∃ elm', cacheFetchCountCb hist now req elm = some ⟨succeed, elm', countAnswer h req⟩

def countHead (req : FetchReq α) (elm : ItemElem α) : ℤ :=
  if elm.tsbuff.getTimeHead < req.tsHead then elm.tsbuff.head else elm.tsbuff.findTimeIdx req.tsHead

lemma cacheFetchCountCb_hit {headIdx : ℤ} (hidx : countHead req (retypeCount req elm) = headIdx)
    (hhit : -1 < headIdx ∧ (retypeCount req elm).tsbuff.checkHasEnoughCountDataIdx req.count headIdx = succeed) :
    cacheFetchCountCb hist now req elm = (fillItemsValuesByCount (retypeCount req elm) req.count headIdx).map
      fun values => ⟨succeed, retypeCount req elm, values⟩ := by
  rw [countHead] at hidx
  rw [cacheFetchCountCb]
  simp only [hidx]
  rw [if_pos hhit]

lemma cacheFetchCountCb_miss {headIdx : ℤ} {e1 e2 : ItemElem α}
    (hidx : countHead req (retypeCount req elm) = headIdx)
    (hmiss : ¬ (-1 < headIdx ∧
      (retypeCount req elm).tsbuff.checkHasEnoughCountDataIdx req.count headIdx = succeed))
    (hnewer : (if headIdx = -1 then fetchNewer hist now req (retypeCount req elm)
      else (succeed, retypeCount req elm)) = (succeed, e1))
    (hmissing : fetchMissing hist now req e1 = (succeed, e2)) :
    cacheFetchCountCb hist now req elm = answerCount req e2 := by
  rw [countHead] at hidx
  rw [cacheFetchCountCb]
  simp only [hidx]
  rw [if_neg hmiss, hnewer]
  simp only [hmissing]
  rfl

lemma count_miss_iff {headIdx : ℤ} {e1 : ItemElem α} {v1 : View α} {need : ℤ}
    (hf : Faithful hist e1.valueType h) (hv1 : Shows e1 v1) (ht1 : v1.Tidy) (ho1 : AtMostOne v1.live req.tsHead)
    (hc : 0 < req.count)
    (hidx : countHead req (retypeCount req elm) = headIdx)
    (hmiss : ¬ (-1 < headIdx ∧
      (retypeCount req elm).tsbuff.checkHasEnoughCountDataIdx req.count headIdx = succeed))
    (hnewer : (if headIdx = -1 then fetchNewer hist now req (retypeCount req elm)
      else (succeed, retypeCount req elm)) = (succeed, e1)) (hpos : 0 < need)
    (hneed : Spans v1.live req.tsHead ∧ need = req.count - ((upTo v1.live req.tsHead).length - 1) ∨
      ¬ Spans v1.live req.tsHead ∧ need = req.count)
    (ho2 : AtMostOne (viewAfterCount h now req e1 v1 need).live req.tsHead) :
    CountServed hist h now req elm ↔ Spans (viewAfterCount h now req e1 v1 need).live req.tsHead ∧
      req.count ≤ (upTo (viewAfterCount h now req e1 v1 need).live req.tsHead).length ∧
      (upTo (viewAfterCount h now req e1 v1 need).live req.tsHead).rtake req.count.toNat = countAnswer h req := by
  obtain ⟨e2, hmissing, hv2⟩ := fetchMissing_spec hf hv1 ht1.sorted ho1 now hpos hneed
  rw [CountServed, cacheFetchCountCb_miss hidx hmiss hnewer hmissing]
  exact hv2.answerCount_iff (viewAfterCount_tidy h now req e1 ht1 need).sorted ho2 hc _

namespace CountScene

variable (hs : CountScene hist h req elm v past)

include hs

lemma live_sublist : v.live.Sublist h.slots := by
  rw [hs.split]
  exact List.sublist_append_right past v.live

lemma tidy : v.Tidy := hs.shows.tidy hs.live_sublist

lemma single_live (ho : AtMostOne h.slots req.tsHead) : AtMostOne v.live req.tsHead := ho.sublist hs.live_sublist

lemma past_le {u w : TsValue α} (hu : u ∈ past) (hw : w ∈ v.live) : u.time ≤ w.time := by
  have hsort := h.sorted_slots
  rw [hs.split] at hsort
  exact (List.pairwise_append.mp hsort).2.2 u hu w hw

lemma newer_iff (now : ℤ) (hne : v.live ≠ []) (hlt : ∀ w ∈ v.live, w.time < req.tsHead) :
    CountServed hist h now req elm ↔ req.count ≤ v.live.length := by
  have hc := hs.count_pos
  have hv := hs.shows
  have hpos := List.length_pos_of_ne_nil hne
  have hcheck := hv.rep.checkHasEnoughCountDataIdx hc (show v.live.length - 1 < v.live.length by omega)
  have hidx := hv.head_of_lt hne hlt
  by_cases hen : req.count ≤ v.live.length
  · simp only [hen, iff_true]
    rw [if_pos (show req.count ≤ (v.live.length - 1 : ℕ) + 1 by omega)] at hcheck
    refine ⟨retypeCount req elm, ?_⟩
    rw [cacheFetchCountCb_hit hidx ⟨by omega, hcheck⟩, hv.fillByCount hc (by omega) (by omega),
      Nat.sub_add_cancel hpos, List.take_length, countAnswer, hs.split, upTo_append,
      upTo_all (l := v.live) fun w hw => (hlt w hw).le, rtake_append_of_le (by omega)]
    rfl
  · simp only [hen, iff_false]
    rw [if_neg (show ¬ req.count ≤ (v.live.length - 1 : ℕ) + 1 by omega)] at hcheck
    have hall : ∀ u ∈ (viewAfterCount h now req (retypeCount req elm) v req.count).live, u.time < req.tsHead := by
      intro u hu
      have hsort := (viewAfterCount_tidy h now req (retypeCount req elm) hs.tidy req.count).sorted
      obtain ⟨l, hl⟩ := live_suffix_viewAfterCount h now req (retypeCount req elm) v req.count
      rw [← hl] at hsort hu
      rcases List.mem_append.mp hu with hu | hu
      · obtain ⟨w, hmem⟩ := List.exists_mem_of_ne_nil _ hne
        exact ((List.pairwise_append.mp hsort).2.2 u hu w hmem).trans_lt (hlt w hmem)
      · exact hlt u hu
    have hnot : ∀ {l : List (TsValue α)}, (∀ w ∈ l, w.time < req.tsHead) → ¬ Spans l req.tsHead := by
      rintro l hl ⟨-, w, hw, hwt⟩
      have := hl w hw
      omega
    rw [count_miss_iff hs.faithful hv hs.tidy (atMostOne_of_ne fun u hu => (hlt u hu).ne) hc hidx
      (fun hh => by rw [hcheck] at hh; exact absurd hh.2 (by decide)) (if_neg (by omega)) hc
      (.inr ⟨hnot hlt, rfl⟩) (atMostOne_of_ne fun u hu => (hall u hu).ne)]
    exact fun hh => hnot hall hh.1

lemma cached (now : ℤ) (ho : AtMostOne h.slots req.tsHead) (hin : Spans v.live req.tsHead)
    (hen : req.count ≤ (upTo v.live req.tsHead).length) : CountServed hist h now req elm := by
  have hc := hs.count_pos
  have hv := hs.shows
  have hsort := hs.tidy.sorted
  obtain ⟨k, hk, hlen, hfind, hcheck⟩ := hv.found hsort (hs.single_live ho) hin hc
  have hidx := (hv.find_of_le hsort hin.2).trans hfind
  rw [if_pos hen] at hcheck
  refine ⟨retypeCount req elm, ?_⟩
  rw [cacheFetchCountCb_hit hidx ⟨by omega, hcheck⟩, hv.fillByCount hc hk (by omega), ← hlen, ← upTo_eq_take hsort,
    countAnswer, hs.split, upTo_append, rtake_append_of_le (by omega)]
  rfl

lemma upTo_past (hin : Spans v.live req.tsHead) : upTo past req.tsHead = past := by
  obtain ⟨w, hw, hwt⟩ := hin.1
  exact upTo_all fun u hu => (hs.past_le hu hw).trans hwt

lemma refill_iff (now : ℤ) (ho : AtMostOne h.slots req.tsHead) (hin : Spans v.live req.tsHead)
    (hlt : (upTo v.live req.tsHead).length < req.count) (added : List (TsValue α))
    (hadd : (viewAfterCount h now req (retypeCount req elm) v
      (req.count - ((upTo v.live req.tsHead).length - 1))).live = added ++ v.live)
    (hold : ∀ y ∈ added, y.time < req.tsHead) :
    CountServed hist h now req elm ↔ added.rtake (req.count.toNat - (upTo v.live req.tsHead).length)
      = past.rtake (req.count.toNat - (upTo v.live req.tsHead).length) := by
  have hc := hs.count_pos
  have hv := hs.shows
  have hsort := hs.tidy.sorted
  have hone := hs.single_live ho
  obtain ⟨k, -, -, hfind, hcheck⟩ := hv.found hsort hone hin hc
  have hidx := (hv.find_of_le hsort hin.2).trans hfind
  rw [if_neg (not_le.mpr hlt)] at hcheck
  have hold' : upTo added req.tsHead = added := upTo_all fun y hy => (hold y hy).le
  have hen := hs.enough
  rw [hs.split, upTo_append, hs.upTo_past hin, List.length_append] at hen
  rw [count_miss_iff hs.faithful hv hs.tidy hone hc hidx
    (fun hh => by rw [hcheck] at hh; exact absurd hh.2 (by decide)) (if_neg (by omega)) (by omega)
    (.inl ⟨hin, rfl⟩) (by rw [hadd]; exact hone.append_of_ne fun y hy => (hold y hy).ne)]
  rw [hadd, upTo_append, hold', countAnswer, hs.split, upTo_append, hs.upTo_past hin,
    rtake_append_of_ge (l := added) (by omega), rtake_append_of_ge (l := past) (by omega), List.append_left_inj]
  constructor
  · exact fun hh => hh.2.2
  · intro heq
    refine ⟨?_, ?_, heq⟩
    · obtain ⟨⟨u, hu, hut⟩, w, hw, hwt⟩ := hin
      exact ⟨⟨u, List.mem_append_right _ hu, hut⟩, w, List.mem_append_right _ hw, hwt⟩
    · have hlen := congrArg List.length heq
      rw [length_rtake, length_rtake] at hlen
      rw [List.length_append]
      omega

lemma length_past (hin : Spans v.live req.tsHead) :
    req.count ≤ past.length + (upTo v.live req.tsHead).length := by
  have hen := hs.enough
  rw [hs.split, upTo_append, hs.upTo_past hin, List.length_append] at hen
  exact_mod_cast hen

lemma newest_past {tm : ℤ} (hlive : ∀ w ∈ v.live, tm ≤ w.time) : upTo h.slots (tm - 1) = upTo past (tm - 1) := by
  rw [hs.split, upTo_append, upTo_none (l := v.live), List.append_nil]
  intro w hw
  have := hlive w hw
  omega

lemma refill (now : ℤ) (ho : AtMostOne h.slots req.tsHead) (hin : Spans v.live req.tsHead)
    (hlt : (upTo v.live req.tsHead).length < req.count)
    (hfetch : ¬ (min (retypeCount req elm).dbFetchedTime now < req.tsHead ∧
      req.count - ((upTo v.live req.tsHead).length - 1) ≤ (retypeCount req elm).dbFetchedCount))
    (hlive : ∀ w ∈ v.live, min (retypeCount req elm).dbFetchedTime now ≤ w.time)
    (hpast : ∀ u ∈ past, u.time < min (retypeCount req elm).dbFetchedTime now)
    (hroom : req.count ≤ (upTo v.live req.tsHead).length + v.room) : CountServed hist h now req elm := by
  have hadd := viewAfterCount_old h hs.tidy.fits hfetch hlive
  rw [hs.newest_past hlive, upTo_all fun u hu => Int.le_sub_one_of_lt (hpast u hu)] at hadd
  obtain ⟨w, hw, hwt⟩ := hin.1
  refine (hs.refill_iff now ho hin hlt _ hadd fun y hy => ?_).mpr ?_
  · have := hpast y (mem_of_mem_newest hy)
    have := hlive w hw
    omega
  · rw [rtake_rtake]
    congr 1
    omega

lemma refill_fetches (now : ℤ) (ho : AtMostOne h.slots req.tsHead) (hin : Spans v.live req.tsHead)
    (hlt : (upTo v.live req.tsHead).length < req.count) (hserved : CountServed hist h now req elm) :
    ¬ (min (retypeCount req elm).dbFetchedTime now < req.tsHead ∧
      req.count - ((upTo v.live req.tsHead).length - 1) ≤ (retypeCount req elm).dbFetchedCount) := by
  intro hskip
  have hlen := hs.length_past hin
  have heq := (hs.refill_iff now ho hin hlt [] (by rw [viewAfterCount, if_pos hskip]; rfl) (by simp)).mp hserved
  have := le_length_of_rtake_eq heq (by omega)
  simp only [List.length_nil] at this
  omega

lemma refill_not_overlapping (now : ℤ) (ho : AtMostOne h.slots req.tsHead) (hin : Spans v.live req.tsHead)
    (hlt : (upTo v.live req.tsHead).length < req.count) (hcut : ∀ u ∈ past, ∀ w ∈ v.live, u.time < w.time)
    (hreread : ∀ w ∈ v.live.head?, w.time < min (retypeCount req elm).dbFetchedTime now → w.time ≠ req.tsHead)
    (hserved : CountServed hist h now req elm) :
    ∀ w ∈ v.live, min (retypeCount req elm).dbFetchedTime now ≤ w.time := by
  have hfetch := hs.refill_fetches now ho hin hlt hserved
  have hlen := hs.length_past hin
  obtain ⟨u, hu, hut⟩ := hin.1
  obtain ⟨w, l, hwl⟩ := List.exists_cons_of_ne_nil (List.ne_nil_of_mem hu)
  have hw : v.live.head? = some w := by rw [hwl]; rfl
  have hmem := List.mem_of_mem_head? hw
  have hmin : ∀ x ∈ v.live, w.time ≤ x.time := fun x hx => hs.tidy.sorted.head_le hw hx
  by_contra hlive
  push Not at hlive
  obtain ⟨x, hx, hxt⟩ := hlive
  have hover : w.time < min (retypeCount req elm).dbFetchedTime now := (hmin x hx).trans_lt hxt
  have hne := hreread w hw hover
  have hwu := hmin u hu
  obtain ⟨n, hadd⟩ := viewAfterCount_overlap h hs.tidy.fits hfetch hw (hs.tidy.positive w hmem) hover
  have hold : ∀ y ∈ (upTo h.slots w.time).rtake n, y.time < req.tsHead := by
    intro y hy
    have := (mem_upTo.mp (mem_of_mem_newest hy)).2
    omega
  have heq := (hs.refill_iff now ho hin hlt _ hadd hold).mp hserved
  have hal := le_length_of_rtake_eq heq (by omega)
  rw [length_rtake] at hal
  have hlast := getLast?_eq_of_rtake_eq (by omega) heq
  have hnil : upTo v.live w.time ≠ [] := List.ne_nil_of_mem (mem_upTo.mpr ⟨hmem, le_rfl⟩)
  rw [getLast?_rtake (by omega), hs.split, upTo_append, List.getLast?_append_of_ne_nil _ hnil,
    List.getLast?_eq_some_getLast hnil] at hlast
  have := hcut _ (List.mem_of_getLast? hlast.symm) _ (mem_upTo.mp (List.getLast_mem hnil)).1
  omega

lemma refill_necessary (now : ℤ) (ho : AtMostOne h.slots req.tsHead) (hin : Spans v.live req.tsHead)
    (hlt : (upTo v.live req.tsHead).length < req.count)
    (hlive : ∀ w ∈ v.live, min (retypeCount req elm).dbFetchedTime now ≤ w.time)
    (hserved : CountServed hist h now req elm) :
    (∀ u ∈ past, u.time < min (retypeCount req elm).dbFetchedTime now) ∧
      req.count ≤ (upTo v.live req.tsHead).length + v.room := by
  have hlen := hs.length_past hin
  obtain ⟨w, hw, hwt⟩ := hin.1
  have hadd := viewAfterCount_old h hs.tidy.fits (hs.refill_fetches now ho hin hlt hserved) hlive
  rw [hs.newest_past hlive] at hadd
  have heq := (hs.refill_iff now ho hin hlt _ hadd fun y hy => by
    have := (mem_upTo.mp (mem_of_mem_newest hy)).2
    have := hlive w hw
    omega).mp hserved
  have hal := le_length_of_rtake_eq heq (by omega)
  rw [length_rtake] at hal
  have hlast := getLast?_eq_of_rtake_eq (by omega) heq
  rw [getLast?_rtake (by omega)] at hlast
  refine ⟨fun u hu => ?_, by omega⟩
  have hsort : Sorted past := h.sorted_slots.sublist (by rw [hs.split]; exact List.sublist_append_left _ _)
  have hx := List.getLast?_eq_some_getLast (List.ne_nil_of_mem hu)
  have hux := hsort.le_getLast hx hu
  have hxt := (mem_upTo.mp (List.mem_of_getLast? (hlast.trans hx))).2
  omega

lemma cold_miss (now : ℤ) (hold : ∀ w ∈ v.live, req.tsHead < w.time) : ∃ e1,
    Shows e1 (viewAfterNewer h now req (retypeCount req elm) v) ∧
    e1.dbFetchedTime = min (retypeCount req elm).dbFetchedTime req.tsHead ∧
    e1.dbFetchedCount = (retypeCount req elm).dbFetchedCount ∧ e1.valueType = req.valueType ∧
    fetchNewer hist now req (retypeCount req elm) = (succeed, e1) ∧
    countHead req (retypeCount req elm) = -1 := by
  obtain ⟨e', hfetch, hshow, hvt, hdc, hdt⟩ := fetchFromDbByTime_spec
    (show Faithful hist (retypeCount req elm).valueType h from hs.faithful) hs.shows (now - req.tsHead) now now
  rw [sub_sub_cancel] at hshow hdt
  refine ⟨updateDbFetch e' req.tsHead, hshow.of_tsbuff (updateDbFetch_tsbuff _ _), ?_, ?_, ?_, ?_, ?_⟩
  · rw [updateDbFetch_dbFetchedTime, hdt]
    omega
  · rw [updateDbFetch_dbFetchedCount, hdc]
  · rw [updateDbFetch_valueType, hvt]
    rfl
  · rw [fetchNewer, hfetch]
    rfl
  · have hnot : ¬ Spans v.live req.tsHead := by
      rintro ⟨⟨w, hw, hwt⟩, -⟩
      have := hold w hw
      omega
    have hfind := hs.shows.rep.findTimeIdx_fail hnot
    rw [countHead]
    by_cases hne : v.live = []
    · rw [(hs.shows.rep.empty hne).1, hfind, ite_self]
    · obtain ⟨w, hmem⟩ := List.exists_mem_of_ne_nil _ hne
      rw [hs.shows.find_of_le hs.tidy.sorted ⟨w, hmem, (hold w hmem).le⟩, hfind]

lemma cold_added_iff (now : ℤ) (hold : ∀ w ∈ v.live, req.tsHead < w.time) {e1 : ItemElem α} {v1 : View α}
    (hv1 : Shows e1 v1) (ht1 : v1.Tidy) (hold1 : ∀ w ∈ v1.live, req.tsHead < w.time)
    (hvt : e1.valueType = req.valueType) (hnewer : fetchNewer hist now req (retypeCount req elm) = (succeed, e1))
    (added : List (TsValue α)) (hadd : (viewAfterCount h now req e1 v1 req.count).live = added ++ v1.live)
    (hlt : ∀ y ∈ added, y.time < req.tsHead) :
    CountServed hist h now req elm ↔ v1.live ≠ [] ∧ added.rtake req.count.toNat = countAnswer h req := by
  have hc := hs.count_pos
  have hen := hs.enough
  obtain ⟨-, -, -, -, -, -, hidx⟩ := hs.cold_miss now hold
  have hnot : ¬ Spans v1.live req.tsHead := by
    rintro ⟨⟨w, hw, hwt⟩, -⟩
    have := hold1 w hw
    omega
  have ho1 : AtMostOne v1.live req.tsHead := atMostOne_of_ne fun u hu => (hold1 u hu).ne'
  rw [count_miss_iff (hvt ▸ hs.faithful) hv1 ht1 ho1 hc hidx (fun hh => by omega) (by rw [if_pos rfl, hnewer]) hc
    (.inr ⟨hnot, rfl⟩) (by rw [hadd]; exact ho1.append_of_ne fun y hy => (hlt y hy).ne)]
  rw [hadd, upTo_append, upTo_all fun y hy => (hlt y hy).le, upTo_none hold1, List.append_nil]
  constructor
  · rintro ⟨⟨-, w, hw, hwt⟩, -, heq⟩
    refine ⟨?_, heq⟩
    rcases List.mem_append.mp hw with hw | hw
    · have := hlt w hw
      omega
    · exact List.ne_nil_of_mem hw
  · rintro ⟨hne, heq⟩
    have hal : req.count.toNat ≤ added.length := le_length_of_rtake_eq heq (by omega)
    obtain ⟨y, hym⟩ := List.exists_mem_of_length_pos (l := added) (by omega)
    obtain ⟨w, hwm⟩ := List.exists_mem_of_ne_nil _ hne
    exact ⟨⟨⟨y, List.mem_append_left _ hym, (hlt y hym).le⟩, w, List.mem_append_right _ hwm, (hold1 w hwm).le⟩,
      by omega, heq⟩

lemma cold_iff (now : ℤ) (hold : ∀ w ∈ v.live, req.tsHead < w.time) :
    CountServed hist h now req elm ↔
      (v.live ≠ [] ∨ between h.slots req.tsHead (min (retypeCount req elm).dbFetchedTime now) ≠ []) ∧
      ¬ (min (min (retypeCount req elm).dbFetchedTime req.tsHead) now < req.tsHead ∧
        req.count ≤ (retypeCount req elm).dbFetchedCount) ∧
      (∀ u ∈ h.slots, u.time ≤ req.tsHead →
        u.time < min (min (retypeCount req elm).dbFetchedTime req.tsHead) now) ∧
      req.count ≤ (viewAfterNewer h now req (retypeCount req elm) v).room := by
  have hc := hs.count_pos
  have hen := hs.enough
  obtain ⟨e1, hv1, hdt, hdc, hvt, hnewer, -⟩ := hs.cold_miss now hold
  have ht1 := viewAfterNewer_tidy h now req (retypeCount req elm) hs.tidy
  have hold1 := viewAfterNewer_newer h now req (retypeCount req elm) hold
  have hiff := hs.cold_added_iff now hold hv1 ht1 hold1 hvt hnewer
  rw [← viewAfterNewer_ne_nil h now req (retypeCount req elm) hs.tidy, ← hdt, ← hdc]
  generalize viewAfterNewer h now req (retypeCount req elm) v = v1 at *
  by_cases hfetch : min e1.dbFetchedTime now < req.tsHead ∧ req.count ≤ e1.dbFetchedCount
  · have hnot : ¬ CountServed hist h now req elm := by
      rw [hiff [] (by rw [viewAfterCount, if_pos hfetch]; rfl) (by simp)]
      rintro ⟨-, heq⟩
      have := le_length_of_rtake_eq heq (by omega)
      simp only [List.length_nil] at this
      omega
    exact iff_of_false hnot fun hh => hh.2.1 hfetch
  have hadd := viewAfterCount_old h ht1.fits hfetch fun w hw => by
    have := hold1 w hw
    omega
  rw [hiff _ hadd fun y hy => by
    have := (mem_upTo.mp (mem_of_mem_newest hy)).2
    omega]
  constructor
  · rintro ⟨hne, heq⟩
    have hal := le_length_of_rtake_eq heq (by omega)
    rw [length_rtake] at hal
    refine ⟨hne, hfetch, fun u hu hut => ?_, by omega⟩
    have hlast := getLast?_eq_of_rtake_eq (by omega) heq
    rw [getLast?_rtake (by omega)] at hlast
    have hum : u ∈ upTo h.slots req.tsHead := mem_upTo.mpr ⟨hu, hut⟩
    have hsort : Sorted (upTo h.slots req.tsHead) := h.sorted_slots.sublist List.filter_sublist
    have hx := List.getLast?_eq_some_getLast (List.ne_nil_of_mem hum)
    have hux := hsort.le_getLast hx hum
    have hxt := (mem_upTo.mp (List.mem_of_getLast? (hlast.trans hx))).2
    omega
  · rintro ⟨hne, -, hgap, hroom⟩
    refine ⟨hne, ?_⟩
    have hsame : upTo h.slots (min e1.dbFetchedTime now - 1) = upTo h.slots req.tsHead := by
      refine List.filter_congr fun u hu => ?_
      have := hgap u hu
      simp only [decide_eq_decide]
      omega
    rw [hsame, rtake_rtake, countAnswer]
    congr 1
    omega

end CountScene

inductive CountServable (h : History α) (now : ℤ) (req : FetchReq α) (elm : ItemElem α) (past : List (TsValue α))
    (v : View α) : Prop
  | newer (hne : v.live ≠ []) (hlt : ∀ w ∈ v.live, w.time < req.tsHead) (hen : req.count ≤ v.live.length)
  | cached (ho : AtMostOne h.slots req.tsHead) (hin : Spans v.live req.tsHead)
      (hen : req.count ≤ (upTo v.live req.tsHead).length)
  | refill (ho : AtMostOne h.slots req.tsHead) (hin : Spans v.live req.tsHead)
      (hfetch : ¬ (min elm.dbFetchedTime now < req.tsHead ∧
        req.count - ((upTo v.live req.tsHead).length - 1) ≤ elm.dbFetchedCount))
      (hlive : ∀ w ∈ v.live, min elm.dbFetchedTime now ≤ w.time)
      (hpast : ∀ u ∈ past, u.time < min elm.dbFetchedTime now)
      (hroom : req.count ≤ (upTo v.live req.tsHead).length + v.room)
  | cold (hold : ∀ w ∈ v.live, req.tsHead < w.time)
      (hne : v.live ≠ [] ∨ between h.slots req.tsHead (min elm.dbFetchedTime now) ≠ [])
      (hfetch : ¬ (min (min elm.dbFetchedTime req.tsHead) now < req.tsHead ∧ req.count ≤ elm.dbFetchedCount))
      (hgap : ∀ u ∈ h.slots, u.time ≤ req.tsHead → u.time < min (min elm.dbFetchedTime req.tsHead) now)
      (hroom : req.count ≤ (viewAfterNewer h now req elm v).room)

end

section

def sampleReq : FetchReq ℕ := ⟨1, .float, 200, 0, []⟩

def emptyElem : ItemElem ℕ := { itemCreateCb with valueType := .float }

def newerHistory : History ℕ := ⟨[⟨100, 0, 7⟩, ⟨250, 0, 8⟩], by simp [Older], by simp⟩

def olderHistory : History ℕ := ⟨[⟨100, 0, 7⟩], by simp, by simp⟩

lemma emptyElem_scene (h : History ℕ) (hen : 1 ≤ (upTo h.slots 200).length) :
    CountScene (exactStorage h) h sampleReq emptyElem ⟨[], 10⟩ h.slots :=
  ⟨exactStorage_faithful h _, ⟨rep_init _ (by decide), rfl⟩, by simp, by decide, by simpa [sampleReq] using hen⟩

end

end Glaber.State.Items
