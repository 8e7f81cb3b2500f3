import Glaber.Selfmon.Selfmon

namespace Glaber.Selfmon

open Glaber.Lib.Extremes

def percentOf (counter total : ℕ) : ℚ := if total = 0 then 0 else 100 * (counter / total)

lemma percentOf_zero (total : ℕ) : percentOf 0 total = 0 := by simp [percentOf]

lemma percentOf_ne_zero {counter total : ℕ} (hc : counter ≠ 0) (hle : counter ≤ total) : percentOf counter total ≠ 0 := by
  have ht : total ≠ 0 := by omega
  simp [percentOf, hc, ht]

lemma percentOf_eq_iff {counter total total' : ℕ} (hle : counter ≤ total) :
    percentOf counter total' = percentOf counter total ↔ counter = 0 ∨ total = total' := by
  constructor
  · intro h
    by_cases hc : counter = 0
    · exact .inl hc
    · right
      have ht : total ≠ 0 := by omega
      by_cases ht' : total' = 0
      · rw [ht', percentOf, if_pos rfl] at h
        exact absurd h.symm (percentOf_ne_zero hc hle)
      · simp only [percentOf, ht, ht', if_false] at h
        field_simp at h
        exact_mod_cast h
  · rintro (rfl | rfl)
    · rw [percentOf_zero, percentOf_zero]
    · rfl

lemma percent_eq (t : Tally) : t.percent = percentOf t.counter.toNat t.total.toNat := by
  rw [Tally.percent, percentOf]
  have hz : 0 = t.total ↔ t.total.toNat = 0 := by
    rw [← UInt32.toNat_inj, eq_comm]
    rfl
  simp only [hz]

section

variable (c : ℕ → Counters)

def countOf (s : ProcessState) (k : ℕ) : ℕ := (c k s).toNat

def totalOf (k : ℕ) : ℕ := countOf c .idle k + countOf c .busy k

lemma total_toNat (k : ℕ) : (c k).total.toNat = totalOf c k := by
  have hi := (c k .idle).toNat_lt
  have hb := (c k .busy).toNat_lt
  rw [Counters.total, UInt32.toNat_add, UInt16.toNat_toUInt32, UInt16.toNat_toUInt32, totalOf, countOf, countOf]
  omega

lemma countOf_le_totalOf (s : ProcessState) (k : ℕ) : countOf c s k ≤ totalOf c k := by
  cases s <;> simp [totalOf]

def totalsLoop (n : ℕ) : Totals := (List.range n).foldl (fun t k => totalsStep k (c k) t) zeroTotals

def statLoop (aggrFunc : AggrFunc) (s : ProcessState) (start n : ℕ) : Tally :=
  (List.range n).foldl (fun t k => statStep aggrFunc s (start + k) (c k) t) ⟨0, 0⟩

lemma totalsLoop_succ (n : ℕ) : totalsLoop c (n + 1) = totalsStep n (c n) (totalsLoop c n) := by
  rw [totalsLoop, List.range_succ, List.foldl_append]
  rfl

lemma statLoop_succ (aggrFunc : AggrFunc) (s : ProcessState) (start n : ℕ) :
    statLoop c aggrFunc s start (n + 1) = statStep aggrFunc s (start + n) (c n) (statLoop c aggrFunc s start n) := by
  rw [statLoop, List.range_succ, List.foldl_append]
  rfl

def most (n : ℕ) (s : ProcessState) : ℕ := firstMost (countOf c s) n

def least (n : ℕ) (s : ProcessState) : ℕ := firstLeast (countOf c s) n

structure Extremes (n : ℕ) (t : Totals) : Prop where
  counterMax : ∀ s, (t.counterMax s).toNat = countOf c s (most c n s)
  totalMax : t.totalMax.toNat = totalOf c (Nat.max (most c n .idle) (most c n .busy))
  counterMin : ∀ s, (t.counterMin s).toNat = countOf c s (least c n s)
  totalMin : t.totalMin.toNat = totalOf c (Nat.max (least c n .idle) (least c n .busy))

lemma most_succ {n : ℕ} (hn : 1 ≤ n) (s : ProcessState) :
    most c (n + 1) s = if countOf c s (most c n s) < countOf c s n then n else most c n s :=
  firstMost_succ (countOf c s) hn

lemma least_succ {n : ℕ} (hn : 1 ≤ n) (s : ProcessState) :
    least c (n + 1) s = if countOf c s n < countOf c s (least c n s) then n else least c n s :=
  firstLeast_succ (countOf c s) hn

lemma lt_toUInt32 (x : UInt32) (s : ProcessState) (k : ℕ) : x < (c k s).toUInt32 ↔ x.toNat < countOf c s k := by
  rw [UInt32.lt_iff_toNat_lt, UInt16.toNat_toUInt32, countOf]

lemma toUInt32_lt (x : UInt32) (s : ProcessState) (k : ℕ) : (c k s).toUInt32 < x ↔ countOf c s k < x.toNat := by
  rw [UInt32.lt_iff_toNat_lt, UInt16.toNat_toUInt32, countOf]

lemma shared_total {n : ℕ} {extreme extreme' : ProcessState → ℕ} {better : ProcessState → Prop}
    [DecidablePred better] {old : UInt32} (hlt : ∀ s, extreme s < n)
    (hnext : ∀ s, extreme' s = if better s then n else extreme s)
    (hold : old.toNat = totalOf c (Nat.max (extreme .idle) (extreme .busy))) :
    (if better .busy ∨ better .idle then (c n).total else old).toNat =
      totalOf c (Nat.max (extreme' .idle) (extreme' .busy)) := by
  have hidle := hlt .idle
  have hbusy := hlt .busy
  rw [hnext, hnext]
  by_cases hb : better .busy
  · rw [if_pos (.inl hb), if_pos hb, total_toNat]
    congr 1
    symm
    apply Nat.max_eq_right
    split_ifs <;> omega
  · by_cases hi : better .idle
    · rw [if_pos (.inr hi), if_pos hi, if_neg hb, total_toNat]
      congr 1
      symm
      apply Nat.max_eq_left
      omega
    · rw [if_neg (not_or.mpr ⟨hb, hi⟩), if_neg hi, if_neg hb]
      exact hold

lemma extremes_step {n : ℕ} (hn : 1 ≤ n) {t : Totals} (h : Extremes c n t) :
    Extremes c (n + 1) (totalsStep n (c n) t) := by
  have hz : ¬ 0 = n := by omega
  have hmost := shared_total c (fun s => firstMost_lt (countOf c s) hn) (most_succ c hn) h.totalMax
  have hleast := shared_total c (fun s => firstLeast_lt (countOf c s) hn) (least_succ c hn) h.totalMin
  constructor
  · intro s
    simp only [totalsStep, hz, false_or, lt_toUInt32, h.counterMax, decide_eq_true_eq, most_succ c hn]
    split_ifs
    · exact UInt16.toNat_toUInt32 _
    · exact h.counterMax s
  · simpa only [totalsStep, hz, false_or, lt_toUInt32, h.counterMax, decide_eq_true_eq] using hmost
  · intro s
    simp only [totalsStep, hz, false_or, toUInt32_lt, h.counterMin, decide_eq_true_eq, least_succ c hn]
    split_ifs
    · exact UInt16.toNat_toUInt32 _
    · exact h.counterMin s
  · simpa only [totalsStep, hz, false_or, toUInt32_lt, h.counterMin, decide_eq_true_eq] using hleast

lemma extremes_totalsLoop {n : ℕ} (hn : 1 ≤ n) : Extremes c n (totalsLoop c n) := by
  induction n, hn using Nat.le_induction with
  | base =>
    refine ⟨fun s => ?_, ?_, fun s => ?_, ?_⟩
    all_goals simp [totalsLoop, totalsStep, most, least, firstMost_one, firstLeast_one, countOf, total_toNat]
  | succ n hn ih =>
    rw [totalsLoop_succ]
    exact extremes_step c hn ih

lemma statLoop_max {n : ℕ} (hn : 1 ≤ n) (s : ProcessState) (start : ℕ) :
    (statLoop c .max s start n).counter.toNat = countOf c s (most c n s) ∧
    (countOf c s (most c n s) = 0 ∨ (statLoop c .max s start n).total.toNat = totalOf c (most c n s)) := by
  induction n, hn using Nat.le_induction with
  | base =>
    simp only [statLoop_succ, statStep, lt_toUInt32, most, firstMost_one, Nat.add_zero]
    split_ifs with h
    · exact ⟨UInt16.toNat_toUInt32 _, .inr (total_toNat c 0)⟩
    · obtain ⟨-, hc⟩ := not_or.mp h
      have hz : countOf c s 0 = 0 := by simpa [statLoop] using hc
      rw [hz]
      exact ⟨rfl, .inl rfl⟩
  | succ n hn ih =>
    have hz : ¬ 0 = start + n := by omega
    simp only [statLoop_succ, statStep, lt_toUInt32, most_succ c hn, hz, false_or, ih.1]
    split_ifs
    · exact ⟨UInt16.toNat_toUInt32 _, .inr (total_toNat c n)⟩
    · exact ih

lemma statLoop_min_zero {n : ℕ} (hn : 1 ≤ n) (s : ProcessState) :
    (statLoop c .min s 0 n).counter.toNat = countOf c s (least c n s) ∧
    (statLoop c .min s 0 n).total.toNat = totalOf c (least c n s) := by
  induction n, hn using Nat.le_induction with
  | base =>
    simp only [statLoop_succ, statStep, least, firstLeast_one, Nat.add_zero, true_or, if_true]
    exact ⟨UInt16.toNat_toUInt32 _, total_toNat c 0⟩
  | succ n hn ih =>
    have hz : ¬ 0 = 0 + n := by omega
    simp only [statLoop_succ, statStep, toUInt32_lt, least_succ c hn, hz, false_or, ih.1]
    split_ifs
    · exact ⟨UInt16.toNat_toUInt32 _, total_toNat c n⟩
    · exact ih

lemma statLoop_min_pos {start : ℕ} (hs : start ≠ 0) (s : ProcessState) (n : ℕ) :
    statLoop c .min s start n = ⟨0, 0⟩ := by
  induction n with
  | zero => rfl
  | succ n ih =>
    have hz : ¬ 0 = start + n := by omega
    rw [statLoop_succ, ih, statStep]
    simp [hz]

lemma statLoop_avg (s : ProcessState) (start n : ℕ) :
    statLoop c .avg s start n = ⟨(totalsLoop c n).totalAvg, (totalsLoop c n).counterAvg s⟩ := by
  induction n with
  | zero => rfl
  | succ n ih =>
    rw [statLoop_succ, totalsLoop_succ, ih]
    rfl

end

section

variable (forks : ℕ → ℕ)

lemma processIndex_mono {t u : ℕ} (h : t ≤ u) : processIndex forks t ≤ processIndex forks u := by
  induction u, h using Nat.le_induction with
  | base => exact le_rfl
  | succ u _ ih =>
    refine ih.trans ?_
    rw [processIndex]
    split_ifs
    · exact Nat.le_add_right _ _
    · exact le_rfl

lemma slice_le {t : ℕ} (ht : t < processTypeCount) (hm : isProcessMonitored t) :
    processIndex forks t + forks t ≤ unitsNum forks := by
  have h := processIndex_mono forks (Nat.succ_le_of_lt ht)
  rwa [Nat.succ_eq_add_one, processIndex, if_pos hm] at h

end

section

variable {monitor : Timekeeper} {forks : ℕ → ℕ} {procType : ℕ}

def slice (monitor : Timekeeper) (forks : ℕ → ℕ) (procType : ℕ) (k : ℕ) : Counters :=
  monitor.counters (processIndex forks procType + k)

lemma selfmonStats_eq (ht : procType < processTypeCount) (hm : isProcessMonitored procType)
    (hlen : monitor.units.length = unitsNum forks) (hf : 0 < forks procType) (hc : 1 < monitor.count)
    {aggrFunc : AggrFunc} (ha : aggrFunc ≠ .one) (s : ProcessState) :
    getSelfmonStats monitor forks procType aggrFunc 0 s =
      (statLoop (slice monitor forks procType) aggrFunc s (processIndex forks procType) (forks procType)).percent := by
  have hle := slice_le forks ht hm
  have hi : ¬ processIndex forks procType ≥ monitor.units.length := by omega
  have hz : ¬ 0 = forks procType := by omega
  have hcount : ¬ 1 ≥ monitor.count := by omega
  simp only [getSelfmonStats, hm, if_true, lt_irrefl, if_false, Timekeeper.getStat, hi, hz, ha, hcount,
    Option.getD_some]
  rfl

lemma totals_eq (hle : processIndex forks procType + forks procType ≤ monitor.units.length) :
    totals ((List.range monitor.units.length).map monitor.counters) (processIndex forks procType) (forks procType) =
      totalsLoop (slice monitor forks procType) (forks procType) := by
  rw [totals, totalsLoop]
  apply List.foldl_ext
  intro t k hk
  have hk' : processIndex forks procType + k < monitor.units.length := by
    have := List.mem_range.mp hk
    omega
  rw [List.getD_eq_getElem?_getD, List.getElem?_map, List.getElem?_range hk']
  rfl

lemma allStats_eq (ht : procType < processTypeCount) (hm : isProcessMonitored procType)
    (hlen : monitor.units.length = unitsNum forks) {stats stats' : ℕ → ProcessInfo}
    (hs : getAllProcessStats monitor forks stats = some stats') :
    1 < monitor.count ∧
    stats' procType = (totalsLoop (slice monitor forks procType) (forks procType)).info (forks procType) := by
  rw [getAllProcessStats, Timekeeper.getCounters] at hs
  split_ifs at hs with hc
  · refine ⟨hc, ?_⟩
    rw [Option.map_some, Option.some.injEq] at hs
    rw [← hs]
    simp only [ht, hm, if_true]
    rw [totals_eq (hlen ▸ slice_le forks ht hm)]
  · cases hs

lemma tickCount_eq {s : ProcessState} {k : ℕ}
    (hd : (monitor.history (processIndex forks procType + k) s).toNat < 2 ^ 16) :
    tickCount monitor forks procType s k = countOf (slice monitor forks procType) s k := by
  rw [tickCount, countOf, slice, Timekeeper.counters, UInt64.toNat_toUInt16, Nat.mod_eq_of_lt hd]

end

section

variable (c : ℕ → Counters) {n : ℕ}

def SharesTotalOf (extreme : ProcessState → ℕ) : Prop :=
  ∀ s, countOf c s (extreme s) = 0 ∨
    totalOf c (extreme s) = totalOf c (Nat.max (extreme .idle) (extreme .busy))

lemma percent_of_loop {t : Tally} {s : ProcessState} {k : ℕ} (hcounter : t.counter.toNat = countOf c s k)
    (htotal : countOf c s k = 0 ∨ t.total.toNat = totalOf c k) :
    t.percent = percentOf (countOf c s k) (totalOf c k) := by
  rw [percent_eq, hcounter]
  rcases htotal with hz | ht
  · rw [hz, percentOf_zero, percentOf_zero]
  · rw [ht]

lemma info_max (hn : 1 ≤ n) (count : ℕ) (s : ProcessState) : ((totalsLoop c n).info count).max s =
    percentOf (countOf c s (most c n s)) (totalOf c (Nat.max (most c n .idle) (most c n .busy))) := by
  have he := extremes_totalsLoop c hn
  rw [← he.counterMax, ← he.totalMax]
  exact percent_eq _

lemma info_min (hn : 1 ≤ n) (count : ℕ) (s : ProcessState) : ((totalsLoop c n).info count).min s =
    percentOf (countOf c s (least c n s)) (totalOf c (Nat.max (least c n .idle) (least c n .busy))) := by
  have he := extremes_totalsLoop c hn
  rw [← he.counterMin, ← he.totalMin]
  exact percent_eq _

lemma stat_max (hn : 1 ≤ n) (s : ProcessState) (start : ℕ) : (statLoop c .max s start n).percent =
    percentOf (countOf c s (most c n s)) (totalOf c (most c n s)) :=
  percent_of_loop c (statLoop_max c hn s start).1 (statLoop_max c hn s start).2

lemma stat_min_zero (hn : 1 ≤ n) (s : ProcessState) : (statLoop c .min s 0 n).percent =
    percentOf (countOf c s (least c n s)) (totalOf c (least c n s)) :=
  percent_of_loop c (statLoop_min_zero c hn s).1 (.inr (statLoop_min_zero c hn s).2)

lemma max_agree_iff (hn : 1 ≤ n) (start count : ℕ) :
    (∀ s, ((totalsLoop c n).info count).max s = (statLoop c .max s start n).percent) ↔ SharesTotalOf c (most c n) := by
  refine forall_congr' fun s => ?_
  rw [info_max c hn, stat_max c hn]
  exact percentOf_eq_iff (countOf_le_totalOf c s _)

lemma min_agree_iff (hn : 1 ≤ n) (count : ℕ) :
    (∀ s, ((totalsLoop c n).info count).min s = (statLoop c .min s 0 n).percent) ↔ SharesTotalOf c (least c n) := by
  refine forall_congr' fun s => ?_
  rw [info_min c hn, stat_min_zero c hn]
  exact percentOf_eq_iff (countOf_le_totalOf c s _)

lemma min_stat_pos {start : ℕ} (hs : start ≠ 0) (s : ProcessState) : (statLoop c .min s start n).percent = 0 := by
  rw [statLoop_min_pos c hs]
  rfl

structure LoopsAgree (start n : ℕ) (info : ProcessInfo) : Prop where
  agree : ∀ aggrFunc ≠ .one, ∀ s, info.get aggrFunc s = (statLoop c aggrFunc s start n).percent
  max : ∀ s, ∃ k < n, (∀ j < n, countOf c s j ≤ countOf c s k) ∧ info.max s = percentOf (countOf c s k) (totalOf c k)
  min : ∀ s, ∃ k < n, (∀ j < n, countOf c s k ≤ countOf c s j) ∧ info.min s = percentOf (countOf c s k) (totalOf c k)
  single : n = 1 → 0 < totalOf c 0 → ∀ aggrFunc ≠ .one, info.get aggrFunc .busy + info.get aggrFunc .idle = 100

structure LoopsReadable (start n : ℕ) : Prop where
  max : SharesTotalOf c (most c n)
  min : if start = 0 then SharesTotalOf c (least c n) else ∀ s, ∃ k < n, countOf c s k = 0

lemma single_sum (ht : 0 < totalOf c 0) :
    percentOf (countOf c .busy 0) (totalOf c 0) + percentOf (countOf c .idle 0) (totalOf c 0) = 100 := by
  have hne : totalOf c 0 ≠ 0 := by omega
  have hq : (totalOf c 0 : ℚ) ≠ 0 := by exact_mod_cast hne
  have hsum : (countOf c .busy 0 : ℚ) + countOf c .idle 0 = totalOf c 0 := by
    rw [totalOf]
    push_cast
    ring
  rw [percentOf, percentOf, if_neg hne, if_neg hne, ← mul_add, ← add_div, hsum, div_self hq, mul_one]

lemma info_single (ht : 0 < totalOf c 0) (count : ℕ) (aggrFunc : AggrFunc) :
    ((totalsLoop c 1).info count).get aggrFunc .busy + ((totalsLoop c 1).info count).get aggrFunc .idle = 100 := by
  have havg : ∀ s, ((totalsLoop c 1).info count).avg s = percentOf (countOf c s 0) (totalOf c 0) := by
    intro s
    rw [Totals.info]
    simp only [percent_eq]
    congr 1
    · simp [totalsLoop, totalsStep, zeroTotals, countOf]
    · simp [totalsLoop, totalsStep, zeroTotals, total_toNat]
  have hsum := single_sum c ht
  cases aggrFunc with
  | one | avg => simpa only [ProcessInfo.get, havg] using hsum
  | max => simpa only [ProcessInfo.get, info_max c le_rfl, most, firstMost_one, Nat.max_self] using hsum
  | min => simpa only [ProcessInfo.get, info_min c le_rfl, least, firstLeast_one, Nat.max_self] using hsum

lemma loops_agree_iff (hn : 1 ≤ n) (start count : ℕ) :
    LoopsAgree c start n ((totalsLoop c n).info count) ↔ LoopsReadable c start n := by
  have hmost : ∀ s, most c n s < n := fun s => firstMost_lt (countOf c s) hn
  have hleast : ∀ s, least c n s < n := fun s => firstLeast_lt (countOf c s) hn
  constructor
  · intro h
    refine ⟨(max_agree_iff c hn start count).mp (h.agree .max (by simp)), ?_⟩
    have hmin := h.agree .min (by simp)
    split_ifs with hs
    · subst hs
      exact (min_agree_iff c hn count).mp hmin
    · intro s
      obtain ⟨k, hk, -, hval⟩ := h.min s
      refine ⟨k, hk, ?_⟩
      by_contra hc
      have hzero := (hmin s).trans (min_stat_pos c hs s)
      rw [ProcessInfo.get, hval] at hzero
      exact percentOf_ne_zero hc (countOf_le_totalOf c s k) hzero
  · intro h
    have hmax := (max_agree_iff c hn start count).mpr h.max
    have hmin : ∀ s, ((totalsLoop c n).info count).min s = (statLoop c .min s start n).percent ∧
        ((totalsLoop c n).info count).min s = percentOf (countOf c s (least c n s)) (totalOf c (least c n s)) := by
      intro s
      have hm := h.min
      split_ifs at hm with hs
      · subst hs
        have hval := (min_agree_iff c hn count).mpr hm s
        exact ⟨hval, hval.trans (stat_min_zero c hn s)⟩
      · obtain ⟨k, hk, hz⟩ := hm s
        have hle := firstLeast_le (countOf c s) hk
        have hzero : countOf c s (least c n s) = 0 := by
          rw [least]
          omega
        rw [info_min c hn, hzero, percentOf_zero, percentOf_zero, min_stat_pos c hs]
        exact ⟨rfl, rfl⟩
    refine ⟨fun aggrFunc ha s => ?_, fun s => ?_, fun s => ?_, fun hone ht aggrFunc _ => ?_⟩
    · cases aggrFunc with
      | one => exact absurd rfl ha
      | max => exact hmax s
      | min => exact (hmin s).1
      | avg =>
        rw [statLoop_avg]
        rfl
    · exact ⟨_, hmost s, fun j hj => le_firstMost (countOf c s) hj, (hmax s).trans (stat_max c hn s start)⟩
    · exact ⟨_, hleast s, fun j hj => firstLeast_le (countOf c s) hj, (hmin s).2⟩
    · subst hone
      exact info_single c ht count aggrFunc

end

section

variable {monitor : Timekeeper} {forks : ℕ → ℕ} {procType : ℕ}

lemma agree_iff_of_history (hlen : monitor.units.length = unitsNum forks) (ht : procType < processTypeCount)
    (hm : isProcessMonitored procType) (hf : 0 < forks procType)
    (hd : ∀ i s, (monitor.history i s).toNat < 2 ^ 16) {stats stats' : ℕ → ProcessInfo}
    (hs : getAllProcessStats monitor forks stats = some stats') :
    ReadersAgree monitor forks procType (stats' procType) ↔ Readable monitor forks procType := by
  obtain ⟨hc, hinfo⟩ := allStats_eq ht hm hlen hs
  have htick : tickCount monitor forks procType = countOf (slice monitor forks procType) := by
    funext s k
    exact tickCount_eq (hd _ s)
  have htotal : tickTotal monitor forks procType = totalOf (slice monitor forks procType) := by
    funext k
    rw [tickTotal, totalOf, htick]
  have hpercent : ∀ s k, percentage monitor forks procType s k =
      percentOf (countOf (slice monitor forks procType) s k) (totalOf (slice monitor forks procType) k) := by
    intro s k
    rw [percentage, percentOf, htick, htotal]
  have hstat := @selfmonStats_eq monitor forks procType ht hm hlen hf hc
  have hagree : ReadersAgree monitor forks procType (stats' procType) ↔
      LoopsAgree (slice monitor forks procType) (processIndex forks procType) (forks procType) (stats' procType) := by
    constructor
    · rintro ⟨h1, h2, h3, h4⟩
      simp only [htick, hpercent, htotal] at h2 h3 h4
      exact ⟨fun a ha s => (h1 a ha s).trans (hstat ha s), h2, h3, h4⟩
    · rintro ⟨h1, h2, h3, h4⟩
      refine ⟨fun a ha s => (h1 a ha s).trans (hstat ha s).symm, ?_, ?_, ?_⟩
      · simpa only [htick, hpercent] using h2
      · simpa only [htick, hpercent] using h3
      · simpa only [htotal] using h4
  have hreadable : Readable monitor forks procType ↔
      LoopsReadable (slice monitor forks procType) (processIndex forks procType) (forks procType) := by
    have hshares : ∀ extreme, SharesTotal monitor forks procType extreme ↔
        SharesTotalOf (slice monitor forks procType) extreme := by
      intro extreme
      rw [SharesTotal, SharesTotalOf, htick, htotal]
    have hbusiest : busiest monitor forks procType = most (slice monitor forks procType) (forks procType) := by
      funext s
      rw [busiest, most, htick]
    have hlaziest : laziest monitor forks procType = least (slice monitor forks procType) (forks procType) := by
      funext s
      rw [laziest, least, htick]
    constructor
    · rintro ⟨h1, h2⟩
      rw [hbusiest, hshares] at h1
      rw [hlaziest, hshares, htick] at h2
      exact ⟨h1, h2⟩
    · rintro ⟨h1, h2⟩
      refine ⟨?_, ?_⟩
      · rwa [hbusiest, hshares]
      · rwa [hlaziest, hshares, htick]
  rw [hagree, hreadable, hinfo]
  exact loops_agree_iff _ hf _ _

theorem readers_agree_iff (forks : ℕ → ℕ) (ticksPerSec : ℤ) (events : List Event) (procType : ℕ)
    (ht : procType < processTypeCount) (hm : isProcessMonitored procType) (hf : 0 < forks procType)
    (hd : ∀ i s, ((run (unitsNum forks) ticksPerSec events).history i s).toNat < 2 ^ 16)
    (stats stats' : ℕ → ProcessInfo)
    (hs : getAllProcessStats (run (unitsNum forks) ticksPerSec events) forks stats = some stats') :
    ReadersAgree (run (unitsNum forks) ticksPerSec events) forks procType (stats' procType) ↔
      Readable (run (unitsNum forks) ticksPerSec events) forks procType :=
  agree_iff_of_history (units_length_run ..) ht hm hf hd hs

end

def noStats : ℕ → ProcessInfo := fun _ => ⟨fun _ => 0, fun _ => 0, fun _ => 0, 0⟩

def fiveProcesses : ℕ → ℕ := fun procType => if procType = 0 then 3 else if procType = 1 then 2 else 0

def fourSeconds : Timekeeper := run (unitsNum fiveProcesses) 100
  [.update 0 .busy 100, .update 1 .busy 150, .collect 200, .collect 300, .update 1 .idle 350, .update 3 .busy 350,
    .collect 400]

lemma fourSeconds_history (i : ℕ) (s : ProcessState) : (fourSeconds.history i s).toNat < 2 ^ 16 := by
  by_cases hi : i < 5
  · have hall : ∀ i < 5, (fourSeconds.history i .idle).toNat < 2 ^ 16 ∧ (fourSeconds.history i .busy).toNat < 2 ^ 16 := by
      decide +kernel
    cases s with
    | idle => exact (hall i hi).1
    | busy => exact (hall i hi).2
  · have hnone : fourSeconds.units[i]? = none :=
      List.getElem?_eq_none (by rw [fourSeconds, units_length_run]; exact not_lt.mp hi)
    rw [Timekeeper.history, hnone]
    exact show (0 : UInt64).toNat < 2 ^ 16 by decide

/-- The processes of the first type all have the same number of ticks; of the second type one has none. -/
theorem fiveProcesses_readable : ∃ stats, getAllProcessStats fourSeconds fiveProcesses noStats = some stats ∧
    ReadersAgree fourSeconds fiveProcesses 0 (stats 0) ∧ ReadersAgree fourSeconds fiveProcesses 1 (stats 1) := by
  refine ⟨_, rfl, ?_, ?_⟩
  · refine (readers_agree_iff fiveProcesses 100 _ 0 (by decide) (by decide) (by decide) fourSeconds_history noStats _ rfl).mpr
      ⟨fun s => .inr ?_, fun s => .inr ?_⟩
    · cases s <;> decide +kernel
    · cases s <;> decide +kernel
  · refine (readers_agree_iff fiveProcesses 100 _ 1 (by decide) (by decide) (by decide) fourSeconds_history noStats _ rfl).mpr
      ⟨?_, fun s => ⟨0, by decide, ?_⟩⟩
    · rintro (_ | _)
      · exact .inr (by decide +kernel)
      · exact .inl (by decide +kernel)
    · cases s <;> decide +kernel

def twoTypes : ℕ → ℕ := fun procType => if procType < 2 then 1 else 0

def busySecond : Timekeeper := run (unitsNum twoTypes) 100 [.update 1 .busy 100, .collect 200, .collect 300, .collect 400]

lemma busySecond_history (i : ℕ) (s : ProcessState) : (busySecond.history i s).toNat < 2 ^ 16 := by
  match i, s with
  | 0, .idle | 0, .busy | 1, .idle | 1, .busy => decide
  | i + 2, s =>
    have hnone : busySecond.units[i + 2]? = none :=
      List.getElem?_eq_none (by rw [busySecond, units_length_run]; exact Nat.le_add_left _ _)
    have hzero : (0 : UInt64).toNat < 2 ^ 16 := by decide
    rw [Timekeeper.history, hnone]
    exact hzero

theorem second_type_disagrees : ∃ stats, getAllProcessStats busySecond twoTypes noStats = some stats ∧
    ¬ ReadersAgree busySecond twoTypes 1 (stats 1) := by
  refine ⟨_, rfl, fun h => ?_⟩
  have hlen : busySecond.units.length = unitsNum twoTypes := units_length_run ..
  have hr := (agree_iff_of_history hlen (by decide) (by decide) (by decide) busySecond_history rfl).mp h
  have hmin := hr.min
  rw [if_neg (by decide)] at hmin
  obtain ⟨k, hk, hz⟩ := hmin .busy
  obtain rfl : k = 0 := by
    simpa [twoTypes] using hk
  exact absurd hz (by decide)

end Glaber.Selfmon
