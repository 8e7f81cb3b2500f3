import Glaber.State.ItemsFetch
import Glaber.State.ItemsKept

namespace Glaber.State.Items

open Glaber.Algo Glaber.Algo.Tsbuff

variable {α : Type}

def window (l : List (TsValue α)) (start stop : ℤ) : List (TsValue α) :=
  (upTo l stop).drop ((upTo l start).length - 1)

lemma length_upTo_mono {l : List (TsValue α)} {start stop : ℤ} (h : start ≤ stop) :
    (upTo l start).length ≤ (upTo l stop).length := by
  refine (List.monotone_filter_right l ?_).length_le
  intro v hv
  simp only [decide_eq_true_eq] at hv ⊢
  omega

lemma window_append {l l' : List (TsValue α)} {start stop : ℤ} (hl : ∀ u ∈ l, u.time ≤ start)
    (hle : start ≤ stop) (hpos : 0 < (upTo l' start).length) :
    window (l ++ l') start stop = window l' start stop := by
  rw [window, upTo_append, upTo_append, upTo_all hl, upTo_all fun u hu => (hl u hu).trans hle, List.length_append,
    List.drop_append, List.drop_eq_nil_of_le (by omega), List.nil_append, window]
  congr 1
  omega

lemma window_suffix {l l' : List (TsValue α)} (hs : Sorted l') (hl : l <:+ l') {x : TsValue α} {start stop : ℤ}
    (hx : x ∈ l) (hxt : x.time ≤ start) (hle : start ≤ stop) : window l' start stop = window l start stop := by
  obtain ⟨k, rfl⟩ := hl
  exact window_append (fun u hu => ((List.pairwise_append.mp hs).2.2 u hu x hx).trans hxt) hle
    (length_upTo_pos.mpr ⟨x, hx, hxt⟩)

lemma window_head? {l : List (TsValue α)} (hs : Sorted l) {start stop : ℤ} (hle : start ≤ stop)
    (hpos : 0 < (upTo l start).length) : (window l start stop).head? = (upTo l start).getLast? := by
  have hmono := length_upTo_mono (l := l) hle
  rw [window, List.head?_drop, upTo_eq_take hs stop, List.getElem?_take_of_lt (by omega), getElem?_upTo_last hs hpos]

lemma window_eq {l : List (TsValue α)} (hs : Sorted l) {start stop : ℤ} (hle : start ≤ stop) :
    window l start stop = (upTo l start).drop ((upTo l start).length - 1) ++ between l start stop := by
  rw [window, upTo_split hs hle, List.drop_append_of_le_length (by omega)]

lemma mem_window_of_between {l : List (TsValue α)} (hs : Sorted l) {start stop : ℤ} (hle : start ≤ stop)
    {u : TsValue α} (hu : u ∈ l) (hgt : start < u.time) (hut : u.time ≤ stop) : u ∈ window l start stop := by
  rw [window_eq hs hle]
  exact List.mem_append_right _ (mem_between.mpr ⟨hu, hgt, hut⟩)

lemma mem_of_mem_window {l : List (TsValue α)} {start stop : ℤ} {u : TsValue α} (hu : u ∈ window l start stop) :
    u ∈ l :=
  (mem_upTo.mp (List.mem_of_mem_drop hu)).1

lemma countP_window {l : List (TsValue α)} (hs : Sorted l) {start stop : ℤ} (hle : start ≤ stop) {tm : ℤ}
    (hgt : start < tm) (htm : tm ≤ stop) :
    (window l start stop).countP (fun u => u.time = tm) = l.countP (fun u => u.time = tm) := by
  have hzero : ((upTo l start).drop ((upTo l start).length - 1)).countP (fun u => u.time = tm) = 0 := by
    refine List.countP_eq_zero.mpr fun u hu => ?_
    have := (mem_upTo.mp (List.mem_of_mem_drop hu)).2
    simp only [decide_eq_true_eq]
    omega
  rw [window_eq hs hle, List.countP_append, hzero, Nat.zero_add, between, List.countP_filter]
  refine List.countP_congr fun u _ => ?_
  simp only [Bool.and_eq_true, decide_eq_true_eq]
  omega

section

variable {elm : ItemElem α} {v : View α}

lemma Shows.fill_window (hv : Shows elm v) (hs : Sorted v.live) {start stop : ℤ}
    (hpos : 0 < (upTo v.live start).length) (hle : (upTo v.live start).length ≤ (upTo v.live stop).length) :
    fillItemsValuesByIndex elm (elm.tsbuff.cell ((upTo v.live start).length - 1))
      (elm.tsbuff.cell ((upTo v.live stop).length - 1)) = some (window v.live start stop) := by
  have hlen : (upTo v.live stop).length ≤ v.live.length := List.length_filter_le _ _
  rw [hv.fillByIndex (by omega) (by omega), window]
  conv_rhs => rw [upTo_eq_take hs stop]
  rw [List.drop_take]
  congr 2
  omega

lemma Shows.head_index (hv : Shows elm v) (hs : Sorted v.live) {tm : ℤ} (ho : AtMostOne v.live tm)
    (hle : ∃ u ∈ v.live, u.time ≤ tm) :
    (if elm.tsbuff.getTimeHead ≤ tm then elm.tsbuff.head else elm.tsbuff.findTimeIdx tm)
      = elm.tsbuff.cell ((upTo v.live tm).length - 1) := by
  obtain ⟨u, hu, hut⟩ := hle
  have hpos := List.length_pos_of_mem hu
  have hlast := List.getElem?_eq_getElem (show v.live.length - 1 < v.live.length by omega)
  rw [hv.rep.getTimeHead_eq hlast]
  split_ifs with hlt
  · have hall : ∀ w ∈ v.live, w.time ≤ tm := by
      intro w hw
      obtain ⟨i, hi⟩ := List.mem_iff_getElem?.mp hw
      have := (List.getElem?_eq_some_iff.mp hi).1
      exact (hs.time_le hi hlast (by omega)).trans hlt
    rw [upTo_all hall, hv.rep.head (List.ne_nil_of_length_pos hpos)]
  · exact hv.rep.findTimeIdx_eq hs ho ⟨⟨u, hu, hut⟩, _, List.getElem_mem _, (not_le.mp hlt).le⟩

lemma Shows.fill_first (hv : Shows elm v) (hs : Sorted v.live) {start : ℤ}
    (hpos : 0 < (upTo v.live start).length) (k : ℕ) :
    ∃ x rest, fillItemsValuesByIndex elm (elm.tsbuff.cell ((upTo v.live start).length - 1)) (elm.tsbuff.cell k)
      = some (x :: rest) ∧ (upTo v.live start).getLast? = some x := by
  have hlen : (upTo v.live start).length ≤ v.live.length := List.length_filter_le _ _
  have hget := List.getElem?_eq_getElem (show (upTo v.live start).length - 1 < v.live.length by omega)
  rw [fillItemsValuesByIndex, if_neg (by omega)]
  simp only
  rw [hv.rep.get_cell hget]
  exact ⟨_, _, rfl, (getElem?_upTo_last hs hpos).symm.trans hget⟩

variable {req : FetchReq α} {now : ℤ}

lemma Shows.answerTime_filled (hv : Shows elm v) (hs : Sorted v.live) (ho : AtMostOne v.live req.tsHead)
    (ho' : AtMostOne v.live (now - req.seconds)) (hin : Spans v.live (now - req.seconds))
    (hle : ∃ u ∈ v.live, u.time ≤ req.tsHead) :
    ∃ values, answerTime now req elm = some ⟨succeed, elm, values⟩ ∧
      values.head? = (upTo v.live (now - req.seconds)).getLast? ∧
      ((upTo v.live (now - req.seconds)).length ≤ (upTo v.live req.tsHead).length →
        values = window v.live (now - req.seconds) req.tsHead) := by
  have hpos := length_upTo_pos.mpr hin.1
  obtain ⟨x, rest, hfill, hx⟩ := hv.fill_first hs hpos ((upTo v.live req.tsHead).length - 1)
  rw [answerTime, hv.head_index hs ho hle, hv.rep.findTimeIdx_eq hs ho' hin, if_neg (by omega), if_pos (by omega),
    hfill]
  refine ⟨x :: rest, rfl, hx.symm, fun hlen => ?_⟩
  rw [hv.fill_window hs hpos hlen] at hfill
  exact (Option.some.inj hfill).symm

lemma Shows.answerTime_first (hv : Shows elm v) (hs : Sorted v.live) (hin : Spans v.live (now - req.seconds))
    {elm' : ItemElem α} {values : List (TsValue α)}
    (hret : answerTime now req elm = some ⟨succeed, elm', values⟩) :
    values = req.values ∨ ∃ k, Answers v.live (now - req.seconds) k ∧ values.head? = v.live[k]? := by
  obtain ⟨k, hk, hans⟩ := hv.rep.findTimeIdx_answers hs hin
  obtain ⟨u, hu, -⟩ := id hans
  rw [answerTime, hk, if_neg (by omega)] at hret
  generalize (if elm.tsbuff.getTimeHead ≤ req.tsHead then elm.tsbuff.head
    else elm.tsbuff.findTimeIdx req.tsHead) = headIdx at hret
  by_cases hidx : headIdx ≠ -1
  · rw [if_pos hidx, fillItemsValuesByIndex] at hret
    by_cases hneg : headIdx < 0 ∨ (elm.tsbuff.cell k : ℤ) < 0
    · rw [if_pos hneg] at hret
      exact absurd hret (by simp)
    · rw [if_neg hneg] at hret
      simp only [hv.rep.get_cell hu, Option.map_some, Option.some.injEq, Reply.mk.injEq] at hret
      exact .inr ⟨k, hans, by rw [← hret.2.2, hu]; rfl⟩
  · rw [if_neg hidx, Option.some.injEq, Reply.mk.injEq] at hret
    exact .inl hret.2.2.symm

lemma Shows.answerTime_fail (hv : Shows elm v) (hin : ¬ Spans v.live (now - req.seconds)) :
    answerTime now req elm = some ⟨fail, elm, req.values⟩ := by
  rw [answerTime, hv.rep.findTimeIdx_fail hin]
  rfl

end

lemma le_demandPeriodStep (newPeriod : ℕ) (now : ℤ) (d : ItemDemand) :
    newPeriod ≤ (demandPeriodStep newPeriod now d).period := by
  have hage : ¬ itemDemandUpdate < unsignedAge now now := by simp [unsignedAge, itemDemandUpdate]
  rw [demandPeriodStep]
  by_cases h1 : d.period < newPeriod
  · simp only [h1, if_true, hage, if_false]
    exact le_rfl
  · simp only [h1, if_false]
    by_cases h2 : d.newPeriod < newPeriod
    · simp only [h2, if_true]
      split_ifs
      · exact le_rfl
      · exact not_lt.mp h1
    · simp only [h2, if_false]
      split_ifs
      · exact not_lt.mp h2
      · exact not_lt.mp h1

section

variable [Inhabited α] {hist : HistoryStorage α} {h : History α} {now : ℤ} {req : FetchReq α} {elm : ItemElem α}
  {v : View α} {past : List (TsValue α)}

structure TimeRequest (h : History α) (now : ℤ) (req : FetchReq α) : Prop where
  not_future : req.tsHead ≤ now
  seconds : 0 ≤ req.seconds
  fresh : req.values = []
  single_head : AtMostOne h.slots req.tsHead
  single_start : AtMostOne h.slots (req.tsHead - req.seconds)
  single_now : AtMostOne h.slots (now - req.seconds)

structure TimeScene (hist : HistoryStorage α) (h : History α) (req : FetchReq α) (elm : ItemElem α) (v : View α)
    (past : List (TsValue α)) : Prop where
  faithful : Faithful hist req.valueType h
  shows : Shows (retypeTime req elm) v
  split : h.slots = past ++ v.live

def Aligned (now : ℤ) (elm : ItemElem α) (past live : List (TsValue α)) : Prop :=
  live ≠ [] → (∀ w ∈ live, min elm.dbFetchedTime now < w.time) ∧ ∀ u ∈ past, u.time ≤ min elm.dbFetchedTime now

def timeStart (now : ℤ) (req : FetchReq α) (elm : ItemElem α) : ℤ :=
  if 0 < elm.tsbuff.count ∧ elm.tsbuff.getTimeTail ≤ req.tsHead then
    elm.tsbuff.getTimeTail + 1
      - calcTimeDataOverhead (req.seconds - (req.tsHead - (elm.tsbuff.getTimeTail + 1)))
  else now - req.seconds

def timeDemand (now : ℤ) (req : FetchReq α) (elm : ItemElem α) : ItemDemand :=
  (itemUpdateDemand elm 0 (max 0 req.seconds).toNat now).demand

def viewAfterTime (h : History α) (now : ℤ) (req : FetchReq α) (elm : ItemElem α) (v : View α) : View α :=
  v.absorb (timeDemand now req elm) now
    (between h.slots (timeStart now req elm) (min elm.dbFetchedTime now)).reverse

def olderValues (h : History α) (now : ℤ) (req : FetchReq α) (elm : ItemElem α) (w : TsValue α) :
    List (TsValue α) :=
  between h.slots (timeStart now req elm) (min (min elm.dbFetchedTime now) w.time)

omit [Inhabited α] in
lemma timeDemand_period (now : ℤ) (req : FetchReq α) (elm : ItemElem α) :
    now - (timeDemand now req elm).period ≤ now - req.seconds := by
  have := le_demandPeriodStep (max 0 req.seconds).toNat now (demandCountStep 0 now elm.demand)
  simp only [timeDemand, itemUpdateDemand]
  omega

namespace TimeScene

variable (hs : TimeScene hist h req elm v past)

include hs

lemma live_suffix : v.live <:+ h.slots := ⟨past, hs.split.symm⟩

lemma tidy : v.Tidy := hs.shows.tidy hs.live_suffix.sublist

lemma hit (hr : TimeRequest h now req) (hin : Spans v.live (req.tsHead - req.seconds)) :
    ∃ elm', cacheFetchTimeCb hist now req elm
      = some ⟨succeed, elm', window h.slots (req.tsHead - req.seconds) req.tsHead⟩ := by
  have hsort := hs.tidy.sorted
  have hsec := hr.seconds
  have hsub := hs.live_suffix.sublist
  have hpos := length_upTo_pos.mpr hin.1
  have htail := hs.shows.rep.findTimeIdx_eq hsort (hr.single_start.sublist hsub) hin
  obtain ⟨u, hu, hut⟩ := hin.1
  have hhead : (if (retypeTime req elm).tsbuff.findTimeIdx (req.tsHead - req.seconds) ≠ -1 ∧
      (retypeTime req elm).tsbuff.findTimeIdx req.tsHead = -1 then (retypeTime req elm).tsbuff.head
      else (retypeTime req elm).tsbuff.findTimeIdx req.tsHead)
        = (retypeTime req elm).tsbuff.cell ((upTo v.live req.tsHead).length - 1) := by
    by_cases hT : Spans v.live req.tsHead
    · rw [hs.shows.rep.findTimeIdx_eq hsort (hr.single_head.sublist hsub) hT, if_neg (by omega)]
    · have hall : ∀ w ∈ v.live, w.time ≤ req.tsHead := by
        intro w hw
        by_contra hgt
        exact hT ⟨⟨u, hu, by omega⟩, w, hw, by omega⟩
      rw [hs.shows.rep.findTimeIdx_fail hT, htail, if_pos (by omega), upTo_all hall,
        hs.shows.rep.head (List.ne_nil_of_mem hu)]
  have hfill := (hs.shows.of_tsbuff rfl :
    Shows (itemUpdateDemand (retypeTime req elm) 0 (max 0 req.seconds).toNat now) v).fill_window hsort hpos
      (length_upTo_mono (show req.tsHead - req.seconds ≤ req.tsHead by omega))
  rw [cacheFetchTimeCb]
  simp only [hhead]
  rw [htail, if_pos (by omega), window_suffix h.sorted_slots hs.live_suffix hu hut (by omega)]
  refine ⟨itemUpdateDemand (retypeTime req elm) 0 (max 0 req.seconds).toNat now, ?_⟩
  exact congrArg (Option.map _) hfill

lemma miss (now : ℤ) (hmiss : ¬ Spans v.live (req.tsHead - req.seconds)) :
    ∃ e2, Shows e2 (viewAfterTime h now req (retypeTime req elm) v) ∧
      cacheFetchTimeCb hist now req elm = answerTime now req e2 := by
  have hvt : (itemUpdateDemand (retypeTime req elm) 0 (max 0 req.seconds).toNat now).valueType = req.valueType := by
    simp only [itemUpdateDemand, retypeTime]
    split_ifs with hne
    · rfl
    · exact (not_not.mp hne).symm
  have hshow : Shows (itemUpdateDemand (retypeTime req elm) 0 (max 0 req.seconds).toNat now) v :=
    hs.shows.of_tsbuff rfl
  have hfetch : ∃ e1, fetchForTime hist now req
      (itemUpdateDemand (retypeTime req elm) 0 (max 0 req.seconds).toNat now) = (succeed, e1) ∧
      Shows e1 (viewAfterTime h now req (retypeTime req elm) v) := by
    by_cases htail : 0 < (retypeTime req elm).tsbuff.count ∧ (retypeTime req elm).tsbuff.getTimeTail ≤ req.tsHead
    · have hstart : timeStart now req (retypeTime req elm) = _ := if_pos htail
      obtain ⟨e1, he1, hv1, -⟩ := fetchFromDbByTime_spec (hvt ▸ hs.faithful) hshow
        (calcTimeDataOverhead (req.seconds - (req.tsHead - ((retypeTime req elm).tsbuff.getTimeTail + 1))))
        ((retypeTime req elm).tsbuff.getTimeTail + 1) now
      rw [viewAfterTime, hstart]
      exact ⟨e1, (if_pos htail).trans he1, hv1⟩
    · have hstart : timeStart now req (retypeTime req elm) = _ := if_neg htail
      obtain ⟨e1, he1, hv1, -⟩ := fetchFromDbByTime_spec (hvt ▸ hs.faithful) hshow req.seconds now now
      rw [viewAfterTime, hstart]
      exact ⟨e1, (if_neg htail).trans he1, hv1⟩
  obtain ⟨e1, he1, hv1⟩ := hfetch
  refine ⟨updateDbFetch e1 req.tsHead, hv1.of_tsbuff (updateDbFetch_tsbuff _ _), ?_⟩
  rw [cacheFetchTimeCb]
  simp only [hs.shows.rep.findTimeIdx_fail hmiss]
  rw [if_neg (by simp), he1]
  rfl

omit hs in
lemma live_of_le (hstart : timeStart now req (retypeTime req elm) = now - req.seconds) {u : TsValue α}
    (hu : u ∈ (viewAfterTime h now req (retypeTime req elm) v).live) (hut : u.time ≤ now - req.seconds) : u ∈ v.live := by
  rw [viewAfterTime, hstart] at hu
  rcases View.mem_absorb hu with hu | hu
  · have := (mem_between.mp (List.mem_reverse.mp hu)).2.1
    omega
  · exact hu

lemma empty_fails (hnil : v.live = []) : ¬ Spans (viewAfterTime h now req (retypeTime req elm) v).live
    (now - req.seconds) := by
  rintro ⟨⟨u, hu, hut⟩, -⟩
  have hc := hs.shows.rep.count
  rw [hnil, List.length_nil] at hc
  have hstart : timeStart now req (retypeTime req elm) = now - req.seconds := by
    rw [timeStart, if_neg (by omega)]
  have hlive := live_of_le hstart hu hut
  rw [hnil] at hlive
  exact List.not_mem_nil hlive

lemma cold_filled (hr : TimeRequest h now req) (hmiss : ¬ Spans v.live (req.tsHead - req.seconds))
    (hview : (viewAfterTime h now req (retypeTime req elm) v).live = h.slots)
    (hin : Spans h.slots (now - req.seconds)) (hle : now - req.seconds ≤ req.tsHead) :
    ∃ elm', cacheFetchTimeCb hist now req elm
      = some ⟨succeed, elm', window h.slots (now - req.seconds) req.tsHead⟩ := by
  obtain ⟨e2, hv2, hcb⟩ := hs.miss now hmiss
  obtain ⟨u, hu, hut⟩ := hin.1
  obtain ⟨values, hans, -, hwin⟩ := hv2.answerTime_filled (by rw [hview]; exact h.sorted_slots)
    (by rw [hview]; exact hr.single_head) (by rw [hview]; exact hr.single_now) (by rw [hview]; exact hin)
    ⟨u, by rw [hview]; exact hu, by omega⟩
  rw [hview] at hwin
  rw [hcb, hans, hwin (length_upTo_mono hle)]
  exact ⟨e2, rfl⟩

lemma view_tidy (now : ℤ) : (viewAfterTime h now req (retypeTime req elm) v).Tidy :=
  hs.tidy.absorb _ now fun _ hx => h.slots_pos (mem_between.mp (List.mem_reverse.mp hx)).1

lemma mem_view {u : TsValue α} (hu : u ∈ (viewAfterTime h now req (retypeTime req elm) v).live) : u ∈ h.slots := by
  rcases View.mem_absorb hu with hu | hu
  · exact (mem_between.mp (List.mem_reverse.mp hu)).1
  · exact hs.live_suffix.subset hu

lemma live_after (hr : TimeRequest h now req) (hmiss : ¬ Spans v.live (req.tsHead - req.seconds))
    (hin : Spans (viewAfterTime h now req (retypeTime req elm) v).live (now - req.seconds)) :
    ∃ w, v.live.head? = some w ∧ ∀ u ∈ v.live, req.tsHead - req.seconds < u.time := by
  have hnow := hr.not_future
  obtain ⟨w, l, hw⟩ := List.exists_cons_of_ne_nil fun hnil => hs.empty_fails hnil hin
  refine ⟨w, by rw [hw]; rfl, ?_⟩
  rcases spans_cases v.live (req.tsHead - req.seconds) with ⟨hne, hlt⟩ | hspans | hgt
  · exfalso
    obtain ⟨-, y, hy, hyt⟩ := hin
    have hlast := List.getLast?_eq_some_getLast hne
    have hmem : h.slots.getLast? = v.live.getLast? := by
      rw [hs.split, List.getLast?_append_of_ne_nil _ hne]
    have := h.sorted_slots.le_getLast (hmem.trans hlast) (hs.mem_view hy)
    have := hlt _ (List.getLast_mem hne)
    omega
  · exact absurd hspans hmiss
  · exact hgt

lemma late {w : TsValue α} (hw : v.live.head? = some w) (hb : req.tsHead - req.seconds < w.time)
    (htm : w.time ≤ now - req.seconds)
    (hin : Spans (viewAfterTime h now req (retypeTime req elm) v).live (now - req.seconds)) :
    ∃ x ∈ (viewAfterTime h now req (retypeTime req elm) v).live,
      req.tsHead - req.seconds < x.time ∧ x.time ≤ now - req.seconds := by
  have hstart : Late (req.tsHead - req.seconds) (now - req.seconds) (between h.slots
      (timeStart now req (retypeTime req elm)) (min (retypeTime req elm).dbFetchedTime now)).reverse v := by
    refine .late w (List.mem_of_mem_head? hw) hb htm fun hsize u hu y hy => ?_
    have hfit := hs.tidy.fits
    obtain ⟨z, hz⟩ : ∃ z, v.live = [z] := List.length_eq_one_iff.mp (by
      have := List.length_pos_of_mem hu
      omega)
    have hsplit := hs.split
    rw [hz] at hu hsplit
    rw [List.mem_singleton.mp hu]
    exact h.sorted_slots.le_getLast (by rw [hsplit, List.getLast?_concat])
      (mem_between.mp (List.mem_reverse.mp hy)).1
  have hsort : Sorted (between h.slots (timeStart now req (retypeTime req elm))
      (min (retypeTime req elm).dbFetchedTime now)) := h.sorted_slots.sublist List.filter_sublist
  rcases hstart.absorb hs.tidy (timeDemand_period now req (retypeTime req elm)) (List.pairwise_reverse.mpr hsort)
    (fun x hx => h.slots_pos (mem_between.mp (List.mem_reverse.mp hx)).1) with ⟨x, hx, hxb, hxt, -⟩ | ⟨hlt, -⟩
  · exact ⟨x, hx, hxb, hxt⟩
  · obtain ⟨-, y, hy, hyt⟩ := hin
    have := hlt y hy
    omega

lemma sorted_fetched (now : ℤ) {w : TsValue α} (hw : v.live.head? = some w) :
    Sorted (olderValues h now req (retypeTime req elm) w ++ v.live) := by
  refine List.pairwise_append.mpr ⟨h.sorted_slots.sublist List.filter_sublist, hs.tidy.sorted, fun u hu y hy => ?_⟩
  have := (mem_between.mp hu).2.2
  have := hs.tidy.sorted.head_le hw hy
  omega

lemma single_fetched (hr : TimeRequest h now req) {w : TsValue α} (hw : v.live.head? = some w)
    (htm : now - req.seconds < w.time) :
    AtMostOne (olderValues h now req (retypeTime req elm) w ++ v.live) (now - req.seconds) := by
  have hne : ∀ u ∈ v.live, u.time ≠ now - req.seconds :=
    fun u hu => (htm.trans_le (hs.tidy.sorted.head_le hw hu)).ne'
  exact List.pairwise_append.mpr ⟨hr.single_now.sublist List.filter_sublist, atMostOne_of_ne hne,
    fun _ _ y hy _ => hne y hy⟩

lemma kept (hr : TimeRequest h now req) {w : TsValue α} (hw : v.live.head? = some w)
    (htm : now - req.seconds < w.time) :
    Kept (timeDemand now req (retypeTime req elm)) now (now - req.seconds)
      (olderValues h now req (retypeTime req elm) w ++ v.live)
      (viewAfterTime h now req (retypeTime req elm) v) := by
  have hd := timeDemand_period now req (retypeTime req elm)
  rw [viewAfterTime, between_split h.sorted_slots (timeStart now req (retypeTime req elm))
    (min (retypeTime req elm).dbFetchedTime now) w.time, List.reverse_append, View.absorb_append]
  obtain ⟨hlive, ht⟩ := absorb_rejects (between h.slots (max (timeStart now req (retypeTime req elm)) w.time)
    (min (retypeTime req elm).dbFetchedTime now)).reverse hs.tidy hd hw htm (fun x hx => by
      have := (mem_between.mp (List.mem_reverse.mp hx)).2.1
      omega)
  generalize View.absorb (timeDemand now req (retypeTime req elm)) now v _ = v' at *
  have hk : Kept (timeDemand now req (retypeTime req elm)) now (now - req.seconds) v.live v' := by
    refine ⟨by rw [hlive], ?_, .whole hlive⟩
    rw [hlive]
    exact List.ne_nil_of_mem (List.mem_of_mem_head? hw)
  have habs := hk.absorb (olderValues h now req (retypeTime req elm) w).reverse ht hd
  rw [List.reverse_reverse] at habs
  exact habs (hs.sorted_fetched now hw) (hs.single_fetched hr hw htm)
    fun x hx => h.slots_pos (mem_between.mp (List.mem_reverse.mp hx)).1

lemma head_le {w : TsValue α} (hw : v.live.head? = some w) (htm : now - req.seconds < w.time)
    (hin : Spans (viewAfterTime h now req (retypeTime req elm) v).live (now - req.seconds)) :
    w.time ≤ req.tsHead := by
  by_contra hlt
  obtain ⟨⟨u, hu, hut⟩, -⟩ := hin
  have htail := hs.shows.rep.getTimeTail_eq (v := w) (by rw [← List.head?_eq_getElem?]; exact hw)
  have hstart : timeStart now req (retypeTime req elm) = now - req.seconds := by
    rw [timeStart, if_neg (by omega)]
  have := hs.tidy.sorted.head_le hw (live_of_le hstart hu hut)
  omega

lemma timeStart_lt (now : ℤ) {w : TsValue α} (hw : v.live.head? = some w) (hT : w.time ≤ req.tsHead) :
    timeStart now req (retypeTime req elm) < req.tsHead - req.seconds := by
  have htail := hs.shows.rep.getTimeTail_eq (v := w) (by rw [← List.head?_eq_getElem?]; exact hw)
  have hc := hs.shows.rep.count_ne_zero (List.ne_nil_of_mem (List.mem_of_mem_head? hw))
  rw [timeStart, if_pos (by omega), htail, calcTimeDataOverhead]
  split_ifs <;> omega

lemma view_spans (hmiss : ¬ Spans v.live (req.tsHead - req.seconds)) {elm' : ItemElem α}
    {values : List (TsValue α)} (hret : cacheFetchTimeCb hist now req elm = some ⟨succeed, elm', values⟩) :
    Spans (viewAfterTime h now req (retypeTime req elm) v).live (now - req.seconds) := by
  obtain ⟨e2, hv2, hcb⟩ := hs.miss now hmiss
  by_contra hin
  rw [hcb, hv2.answerTime_fail hin] at hret
  simp [succeed, fail] at hret

lemma late_reply (hr : TimeRequest h now req) (hmiss : ¬ Spans v.live (req.tsHead - req.seconds))
    (hlate : ∃ x ∈ (viewAfterTime h now req (retypeTime req elm) v).live,
      req.tsHead - req.seconds < x.time ∧ x.time ≤ now - req.seconds)
    {elm' : ItemElem α} {values : List (TsValue α)}
    (hret : cacheFetchTimeCb hist now req elm = some ⟨succeed, elm', values⟩) :
    ∀ y ∈ values.head?, req.tsHead - req.seconds < y.time := by
  have hin := hs.view_spans hmiss hret
  have hsort := (hs.view_tidy now).sorted
  obtain ⟨e2, hv2, hcb⟩ := hs.miss now hmiss
  rw [hcb] at hret
  obtain ⟨x, hx, hxb, hxt⟩ := hlate
  obtain ⟨i, hi⟩ := List.mem_iff_getElem?.mp hx
  intro y hy
  rcases hv2.answerTime_first hsort hin hret with rfl | ⟨k, ⟨u, hu, hut, hnext⟩, hfirst⟩
  · rw [hr.fresh] at hy
    exact absurd hy (by simp)
  · rw [hfirst, hu, Option.mem_some_iff] at hy
    subst hy
    rcases hnext with heq | ⟨z, hz, hzt⟩
    · omega
    · have hik : i ≤ k := by
        by_contra hlt
        have := Sorted.time_le hsort hz hi (by omega)
        omega
      have := Sorted.time_le hsort hi hu hik
      omega

lemma keep_reply (hr : TimeRequest h now req) (hmiss : ¬ Spans v.live (req.tsHead - req.seconds))
    {w : TsValue α} (hw : v.live.head? = some w) (htm : now - req.seconds < w.time)
    (hreread : w.time ≤ min (retypeTime req elm).dbFetchedTime now → w.time ≠ req.tsHead)
    {elm' : ItemElem α} {values : List (TsValue α)}
    (hret : cacheFetchTimeCb hist now req elm = some ⟨succeed, elm', values⟩) :
    values = window (olderValues h now req (retypeTime req elm) w ++ v.live) (now - req.seconds) req.tsHead ∧
    ∃ x ∈ olderValues h now req (retypeTime req elm) w, x.time ≤ now - req.seconds := by
  have hin := hs.view_spans hmiss hret
  have hT := hs.head_le hw htm hin
  have hk := hs.kept hr hw htm
  have hall := hs.sorted_fetched now hw
  have hsort : Sorted (viewAfterTime h now req (retypeTime req elm) v).live := hall.sublist hk.sub
  have hsingle : AtMostOne (olderValues h now req (retypeTime req elm) w ++ v.live) req.tsHead := by
    refine AtMostOne.append_of_ne (hr.single_head.sublist hs.live_suffix.sublist) fun u hu => ?_
    have := (mem_between.mp hu).2.2
    omega
  obtain ⟨older, rest, x, hlive, hrest, hx, hxt, -⟩ := hk.rest hall hin
  obtain ⟨e2, hv2, hcb⟩ := hs.miss now hmiss
  rw [hcb] at hret
  have hrest2 : rest <:+ (viewAfterTime h now req (retypeTime req elm) v).live := ⟨older, hlive.symm⟩
  obtain ⟨values', hans, -, hwin⟩ := hv2.answerTime_filled hsort (hsingle.sublist hk.sub)
    ((hs.single_fetched hr hw htm).sublist hk.sub) hin ⟨x, hrest2.subset hx, by omega⟩
  rw [hans, Option.some.injEq, Reply.mk.injEq] at hret
  obtain ⟨-, -, rfl⟩ := hret
  refine ⟨?_, x, ?_, hxt⟩
  · rw [hwin (length_upTo_mono (by omega)), window_suffix hsort hrest2 hx hxt (by omega),
      window_suffix hall hrest hx hxt (by omega)]
  · rcases List.mem_append.mp (hrest.subset hx) with hx | hx
    · exact hx
    · have := hs.tidy.sorted.head_le hw hx
      omega

lemma aligned_suffix {w : TsValue α} (hw : v.live.head? = some w)
    (ha : Aligned now (retypeTime req elm) past v.live) :
    olderValues h now req (retypeTime req elm) w ++ v.live <:+ h.slots := by
  have hmem := List.mem_of_mem_head? hw
  obtain ⟨hlive, hpast⟩ := ha (List.ne_nil_of_mem hmem)
  have hwt := hlive w hmem
  rw [olderValues, min_eq_left hwt.le]
  generalize timeStart now req (retypeTime req elm) = start
  have hnil : between v.live start (min (retypeTime req elm).dbFetchedTime now) = [] := by
    refine List.filter_eq_nil_iff.mpr fun u hu => ?_
    have := hlive u hu
    simp only [decide_eq_true_eq]
    omega
  have hbt : between h.slots start (min (retypeTime req elm).dbFetchedTime now)
      = between past start (min (retypeTime req elm).dbFetchedTime now) := by
    rw [hs.split, between, List.filter_append, ← between, ← between, hnil, List.append_nil]
  rcases le_total start (min (retypeTime req elm).dbFetchedTime now) with hle | hle
  · have hsort : Sorted past := h.sorted_slots.sublist (by rw [hs.split]; exact List.sublist_append_left _ _)
    have hsplit := upTo_split hsort hle
    rw [upTo_all hpast] at hsplit
    refine ⟨upTo past start, ?_⟩
    rw [hbt, ← List.append_assoc, ← hsplit, hs.split]
  · rw [between_nil hle]
    exact hs.live_suffix

end TimeScene

section

variable (hs : TimeScene hist h req elm v past) {w : TsValue α} (hw : v.live.head? = some w) (hsec : 0 ≤ req.seconds)
  (hx : ∃ x ∈ olderValues h now req (retypeTime req elm) w, x.time ≤ now - req.seconds)
  (htm : now - req.seconds < w.time) (hT : w.time ≤ req.tsHead)
  (heq : window (olderValues h now req (retypeTime req elm) w ++ v.live) (now - req.seconds) req.tsHead
    = window h.slots (req.tsHead - req.seconds) req.tsHead)

include hs hw htm hT heq

lemma TimeScene.not_overlapping (hb : req.tsHead - req.seconds < w.time) :
    min (retypeTime req elm).dbFetchedTime now < w.time := by
  by_contra hover
  have hmem := List.mem_of_mem_head? hw
  have hstart := hs.timeStart_lt now hw hT
  have hall := hs.sorted_fetched now hw
  have hcount := congrArg (List.countP fun u => decide (u.time = w.time)) heq
  rw [countP_window hall (by omega) htm hT, countP_window h.sorted_slots (by omega) hb hT, List.countP_append,
    olderValues, between, List.countP_filter] at hcount
  have hsame : h.slots.countP (fun u => decide (u.time = w.time) &&
      decide (timeStart now req (retypeTime req elm) < u.time ∧
        u.time ≤ min (min (retypeTime req elm).dbFetchedTime now) w.time))
      = h.slots.countP (fun u => decide (u.time = w.time)) := by
    refine List.countP_congr fun u _ => ?_
    simp only [Bool.and_eq_true, decide_eq_true_eq]
    omega
  have hpos : 0 < v.live.countP (fun u => decide (u.time = w.time)) :=
    List.countP_pos_iff.mpr ⟨w, hmem, by simp⟩
  omega

include hsec hx

lemma TimeScene.first_eq (hpos : 0 < (upTo h.slots (req.tsHead - req.seconds)).length) :
    ∃ y, y ∈ olderValues h now req (retypeTime req elm) w ∧
      (∀ u ∈ olderValues h now req (retypeTime req elm) w, u.time ≤ now - req.seconds → u.time ≤ y.time) ∧
      y.time ≤ req.tsHead - req.seconds ∧
      ∀ u ∈ h.slots, u.time ≤ req.tsHead - req.seconds → u.time ≤ y.time := by
  obtain ⟨x, hx, hxt⟩ := hx
  have hall := hs.sorted_fetched now hw
  have hlen := length_upTo_pos.mpr ⟨x, List.mem_append_left v.live hx, hxt⟩
  have hfirst := congrArg List.head? heq
  rw [window_head? hall (by omega) hlen, window_head? h.sorted_slots (by omega) hpos] at hfirst
  have hy := List.getLast?_eq_some_getLast (List.ne_nil_of_length_pos hpos)
  generalize (upTo h.slots (req.tsHead - req.seconds)).getLast _ = y at hy
  have hyA := mem_upTo.mp (List.mem_of_getLast? (hfirst.trans hy))
  have hyH := mem_upTo.mp (List.mem_of_getLast? hy)
  refine ⟨y, ?_, fun u hu hut => ?_, hyH.2, fun u hu hut => ?_⟩
  · rcases List.mem_append.mp hyA.1 with hmem | hmem
    · exact hmem
    · have := hs.tidy.sorted.head_le hw hmem
      omega
  · exact Sorted.le_getLast (hall.sublist List.filter_sublist) (hfirst.trans hy)
      (mem_upTo.mpr ⟨List.mem_append_left _ hu, hut⟩)
  · exact Sorted.le_getLast (h.sorted_slots.sublist List.filter_sublist) hy (mem_upTo.mpr ⟨hu, hut⟩)

lemma TimeScene.aligned_of_eq (hpos : 0 < (upTo h.slots (req.tsHead - req.seconds)).length)
    (hb : req.tsHead - req.seconds < w.time) (hcut : ∀ u ∈ past, ∀ w ∈ v.live, u.time < w.time) :
    (∀ u ∈ h.slots, ¬ (req.tsHead - req.seconds < u.time ∧ u.time ≤ now - req.seconds)) ∧
      Aligned now (retypeTime req elm) past v.live := by
  have hmem := List.mem_of_mem_head? hw
  have hmin : ∀ u ∈ v.live, w.time ≤ u.time := fun u hu => hs.tidy.sorted.head_le hw hu
  have hF := hs.not_overlapping hw htm hT heq hb
  have hstart := hs.timeStart_lt now hw hT
  obtain ⟨y, hy, hyM, hyb, hyH⟩ := hs.first_eq hw hsec hx htm hT heq hpos
  have hread : ∀ u ∈ past, u.time ≤ min (retypeTime req elm).dbFetchedTime now := by
    intro u hu
    by_contra hhidden
    have huH : u ∈ h.slots := by rw [hs.split]; exact List.mem_append_left _ hu
    have huw := hcut u hu w hmem
    by_cases hub : req.tsHead - req.seconds < u.time
    · have hwin := mem_window_of_between h.sorted_slots (by omega) huH hub (huw.le.trans hT)
      rw [← heq] at hwin
      rcases List.mem_append.mp (mem_of_mem_window hwin) with hmem' | hmem'
      · have := (mem_between.mp hmem').2.2
        omega
      · have := hcut u hu u hmem'
        omega
    · have := hyH u huH (not_lt.mp hub)
      have := (mem_between.mp hy).2.2
      omega
  refine ⟨?_, fun _ => ⟨fun u hu => hF.trans_le (hmin u hu), hread⟩⟩
  rintro u hu ⟨hub, hut⟩
  have hup : u ∈ past := by
    rw [hs.split] at hu
    rcases List.mem_append.mp hu with hu | hu
    · exact hu
    · have := hmin u hu
      omega
  have hur := hread u hup
  have := hyM u (mem_between.mpr ⟨hu, by omega, by omega⟩) hut
  omega

omit htm hT heq in
lemma TimeScene.eq_of_aligned (hle : req.tsHead ≤ now)
    (hgap : ∀ u ∈ h.slots, ¬ (req.tsHead - req.seconds < u.time ∧ u.time ≤ now - req.seconds))
    (ha : Aligned now (retypeTime req elm) past v.live) :
    window (olderValues h now req (retypeTime req elm) w ++ v.live) (now - req.seconds) req.tsHead
      = window h.slots (req.tsHead - req.seconds) req.tsHead := by
  obtain ⟨x, hx, hxt⟩ := hx
  have hsuf := hs.aligned_suffix hw ha
  have hxb : x.time ≤ req.tsHead - req.seconds := by
    by_contra hgt
    exact hgap x (mem_between.mp hx).1 ⟨by omega, hxt⟩
  have hsame : upTo (olderValues h now req (retypeTime req elm) w ++ v.live) (now - req.seconds)
      = upTo (olderValues h now req (retypeTime req elm) w ++ v.live) (req.tsHead - req.seconds) := by
    refine List.filter_congr fun u hu => ?_
    have := hgap u (hsuf.subset hu)
    simp only [decide_eq_decide]
    omega
  rw [window, hsame, ← window,
    window_suffix h.sorted_slots hsuf (List.mem_append_left _ hx) hxb (by omega)]

end

theorem cold_equals_warm_iff {cold warm : ItemElem α} {vc vw : View α} {pastc pastw : List (TsValue α)}
    (hr : TimeRequest h now req) (hc : TimeScene hist h req cold vc pastc) (hw : TimeScene hist h req warm vw pastw)
    (hmiss : ¬ Spans vc.live (req.tsHead - req.seconds)) (hhit : Spans vw.live (req.tsHead - req.seconds))
    (hcut : ∀ u ∈ pastc, ∀ w ∈ vc.live, u.time < w.time)
    (hreread : ∀ w ∈ vc.live.head?, w.time ≤ min (retypeTime req cold).dbFetchedTime now → w.time ≠ req.tsHead)
    {cold' warm' : ItemElem α} {fetched cached : List (TsValue α)}
    (hcold : cacheFetchTimeCb hist now req cold = some ⟨succeed, cold', fetched⟩)
    (hwarm : cacheFetchTimeCb hist now req warm = some ⟨succeed, warm', cached⟩) :
    fetched = cached ↔
      (∀ u ∈ h.slots, ¬ (req.tsHead - req.seconds < u.time ∧ u.time ≤ now - req.seconds)) ∧
      Aligned now (retypeTime req cold) pastc vc.live := by
  have hsec := hr.seconds
  obtain ⟨elm', hcached⟩ := hw.hit hr hhit
  rw [hwarm, Option.some.injEq, Reply.mk.injEq] at hcached
  obtain ⟨-, -, rfl⟩ := hcached
  have hpos : 0 < (upTo h.slots (req.tsHead - req.seconds)).length := by
    obtain ⟨u, hu, hut⟩ := hhit.1
    exact length_upTo_pos.mpr ⟨u, hw.live_suffix.subset hu, hut⟩
  have hin := hc.view_spans hmiss hcold
  obtain ⟨w, hhead, hafter⟩ := hc.live_after hr hmiss hin
  have hmem := List.mem_of_mem_head? hhead
  have hb := hafter w hmem
  rcases le_or_gt w.time (now - req.seconds) with htm | htm
  · refine iff_of_false (fun heq => ?_) fun hgap => hgap.1 w (hc.live_suffix.subset hmem) ⟨hb, htm⟩
    have hfirst := window_head? h.sorted_slots (show req.tsHead - req.seconds ≤ req.tsHead by omega) hpos
    have hy := List.getLast?_eq_some_getLast (List.ne_nil_of_length_pos hpos)
    have hlate := hc.late_reply hr hmiss (hc.late hhead hb htm hin) hcold _ (by rw [heq, hfirst]; exact hy)
    have := (mem_upTo.mp (List.mem_of_getLast? hy)).2
    omega
  · have hT := hc.head_le hhead htm hin
    obtain ⟨rfl, hx⟩ := hc.keep_reply hr hmiss hhead htm (hreread w hhead) hcold
    exact ⟨fun heq => hc.aligned_of_eq hhead hsec hx htm hT heq hpos hb hcut,
      fun hh => hc.eq_of_aligned hhead hsec hx hr.not_future hh.1 hh.2⟩

end

section

def threeValues : History ℕ := ⟨[⟨100, 0, 7⟩, ⟨150, 0, 8⟩, ⟨250, 0, 9⟩], by simp [Older], by simp⟩

def ringElem (live : List (TsValue ℕ)) : ItemElem ℕ :=
  ⟨Tsbuff.ofList blank live 10, ⟨0, 0, 0, 0, 0, 0⟩, .float, 200, 0⟩

def coldElem : ItemElem ℕ := ringElem [⟨250, 9⟩]

def warmElem : ItemElem ℕ := ringElem [⟨100, 7⟩, ⟨150, 8⟩, ⟨250, 9⟩]

def timeReq (tsHead : ℤ) : FetchReq ℕ := ⟨0, .float, tsHead, 130, []⟩

lemma atMostOne_threeValues (tm : ℤ) : AtMostOne threeValues.slots tm := by
  simp only [AtMostOne, threeValues, History.slots, HistoryRecord.slot, List.map_cons, List.map_nil,
    List.pairwise_cons, List.mem_cons, List.not_mem_nil]
  simp
  omega

lemma timeReq_request {tsHead : ℤ} (h : tsHead ≤ 300) : TimeRequest threeValues 300 (timeReq tsHead) :=
  ⟨h, by simp [timeReq], rfl, atMostOne_threeValues _, atMostOne_threeValues _, atMostOne_threeValues _⟩

lemma coldElem_scene (tsHead : ℤ) : TimeScene (exactStorage threeValues) threeValues (timeReq tsHead) coldElem
    ⟨[⟨250, 9⟩], 10⟩ [⟨100, 7⟩, ⟨150, 8⟩] :=
  ⟨exactStorage_faithful _ _, ⟨rep_ofList _ (by simp) (by simp), rfl⟩, rfl⟩

lemma warmElem_scene (tsHead : ℤ) : TimeScene (exactStorage threeValues) threeValues (timeReq tsHead) warmElem
    ⟨[⟨100, 7⟩, ⟨150, 8⟩, ⟨250, 9⟩], 10⟩ [] :=
  ⟨exactStorage_faithful _ _, ⟨rep_ofList _ (by simp) (by simp), rfl⟩, rfl⟩

theorem window_moves_with_now : ∃ cold' warm' fetched cached,
    TimeScene (exactStorage threeValues) threeValues (timeReq 260) coldElem ⟨[⟨250, 9⟩], 10⟩
      [⟨100, 7⟩, ⟨150, 8⟩] ∧
    TimeScene (exactStorage threeValues) threeValues (timeReq 260) warmElem
      ⟨[⟨100, 7⟩, ⟨150, 8⟩, ⟨250, 9⟩], 10⟩ [] ∧
    cacheFetchTimeCb (exactStorage threeValues) 300 (timeReq 260) coldElem = some ⟨succeed, cold', fetched⟩ ∧
    cacheFetchTimeCb (exactStorage threeValues) 300 (timeReq 260) warmElem = some ⟨succeed, warm', cached⟩ ∧
    fetched ≠ cached := by
  have hr : TimeRequest threeValues 300 (timeReq 260) := timeReq_request (by decide)
  obtain ⟨cold', hcold⟩ := (coldElem_scene 260).cold_filled hr (by decide) (by decide) (by decide)
    (by decide)
  obtain ⟨warm', hwarm⟩ := (warmElem_scene 260).hit hr (by decide)
  exact ⟨cold', warm', _, _, coldElem_scene 260, warmElem_scene 260, hcold, hwarm, by decide⟩

theorem window_kept_at_now : ∃ cold' warm' values,
    cacheFetchTimeCb (exactStorage threeValues) 300 (timeReq 300) coldElem = some ⟨succeed, cold', values⟩ ∧
    cacheFetchTimeCb (exactStorage threeValues) 300 (timeReq 300) warmElem = some ⟨succeed, warm', values⟩ := by
  have hr : TimeRequest threeValues 300 (timeReq 300) := timeReq_request (by decide)
  obtain ⟨cold', hcold⟩ := (coldElem_scene 300).cold_filled hr (by decide) (by decide) (by decide)
    (by decide)
  obtain ⟨warm', hwarm⟩ := (warmElem_scene 300).hit hr (by decide)
  have heq := (cold_equals_warm_iff hr (coldElem_scene 300) (warmElem_scene 300) (by decide) (by decide) (by decide)
    (by decide) hcold hwarm).mpr ⟨by decide, fun _ => ⟨by decide, by decide⟩⟩
  rw [← heq] at hwarm
  exact ⟨cold', warm', _, hcold, hwarm⟩

end

end Glaber.State.Items
