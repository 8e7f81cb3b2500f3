import Glaber.Expr.IntervalAgree
import Glaber.Expr.Nextcheck

namespace Glaber.Expr

open Glaber.Lib.Calendar

section

structure TimePeriod.WellFormed (p : TimePeriod) : Prop where
  startDay : 1 ≤ p.startDay
  days : p.startDay ≤ p.endDay
  endDay : p.endDay ≤ 7
  times : p.startTime < p.endTime
  endTime : p.endTime ≤ secPerDay

variable {text rest : List Char} {value min max : ℕ}

lemma isUintNRange_bounds (h : isUintNRange text min max = some value) : min ≤ value ∧ value ≤ max := by
  rw [isUintNRange] at h
  split_ifs at h
  obtain ⟨⟨v, str⟩, -, h⟩ := Option.bind_eq_some_iff.mp h
  dsimp only at h
  split_ifs at h with hbad
  cases h
  push Not at hbad
  exact hbad.2

lemma timeParse_le (h : timeParse text = some (value, rest)) : value ≤ secPerDay := by
  simp only [timeParse] at h
  split at h
  · rename_i hours after hhours _
    split_ifs at h
    split at h
    · cases h
    · rename_i minutes hminutes
      split_ifs at h with hday
      cases h
      have hh := (isUintNRange_bounds hhours).2
      have hm := (isUintNRange_bounds hminutes).2
      simp only [secPerHour, secPerMin, secPerDay]
      omega
  · cases h

lemma dayParse_bounds (h : dayParse text = some (value, rest)) : 1 ≤ value ∧ value ≤ 7 := by
  cases text with
  | nil => cases h
  | cons c text =>
    rw [dayParse] at h
    split_ifs at h with hbad
    cases h
    obtain ⟨hnotBelow, hnotAbove⟩ := not_or.mp hbad
    have hlow : 49 ≤ c.toNat := UInt32.le_iff_toNat_le.mp (Char.not_lt.mp hnotBelow)
    have hhigh : c.toNat ≤ 55 := UInt32.le_iff_toNat_le.mp (Char.not_lt.mp hnotAbove)
    simp only [digit]
    omega

lemma endDayParse_bounds {startDay : ℕ} (hstart : startDay ≤ 7) (h : endDayParse startDay text = some (value, rest)) :
    startDay ≤ value ∧ value ≤ 7 := by
  simp only [endDayParse.eq_def] at h
  split at h
  · obtain ⟨⟨endDay, after⟩, hday, h⟩ := Option.bind_eq_some_iff.mp h
    dsimp only at h
    split_ifs at h with hless
    cases h
    exact ⟨not_lt.mp hless, (dayParse_bounds hday).2⟩
  · cases h
    exact ⟨le_rfl, hstart⟩

lemma timePeriodParse_wellFormed {period : TimePeriod} (h : timePeriodParse text = some period) :
    period.WellFormed := by
  rw [timePeriodParse] at h
  obtain ⟨⟨startDay, text₁⟩, hstart, h⟩ := Option.bind_eq_some_iff.mp h
  obtain ⟨⟨endDay, text₂⟩, hend, h⟩ := Option.bind_eq_some_iff.mp h
  obtain ⟨text₃, -, h⟩ := Option.bind_eq_some_iff.mp h
  obtain ⟨⟨startTime, text₄⟩, -, h⟩ := Option.bind_eq_some_iff.mp h
  obtain ⟨text₅, -, h⟩ := Option.bind_eq_some_iff.mp h
  obtain ⟨⟨endTime, text₆⟩, htime, h⟩ := Option.bind_eq_some_iff.mp h
  dsimp only at h
  split_ifs at h with hbad
  cases h
  push Not at hbad
  have hs := dayParse_bounds hstart
  have he := endDayParse_bounds hs.2 hend
  exact ⟨hs.1, he.1, he.2, hbad.1, timeParse_le htime⟩

lemma flexibleIntervalParse_wellFormed {interval : FlexibleInterval} (h : flexibleIntervalParse text = some interval) :
    interval.period.WellFormed := by
  rw [flexibleIntervalParse] at h
  obtain ⟨delay, -, h⟩ := Option.bind_eq_some_iff.mp h
  obtain ⟨after, -, h⟩ := Option.bind_eq_some_iff.mp h
  obtain ⟨period, hperiod, h⟩ := Option.bind_eq_some_iff.mp h
  cases h
  exact timePeriodParse_wellFormed hperiod

def WeekPeriods (flexIntervals : List FlexibleInterval) : Prop := ∀ interval ∈ flexIntervals, interval.period.WellFormed

lemma preprocSegment_weekPeriods {simple : ℕ} {custom custom' : CustomInterval} {next : Option (List Char)}
    (hw : WeekPeriods custom.flexible) (h : preprocSegment simple custom text = .ok (custom', next)) :
    WeekPeriods custom'.flexible := by
  rw [preprocSegment] at h
  split_ifs at h
  · split at h
    · cases h
    · rename_i new hnew
      split_ifs at h
      cases h
      exact List.forall_mem_cons.mpr ⟨flexibleIntervalParse_wellFormed hnew, hw⟩
  · split at h
    · cases h
    · cases h
      exact hw

lemma intervalPreproc_weekPeriods {simple : ℕ} {custom : CustomInterval}
    (h : intervalPreproc text = .ok (simple, custom)) : WeekPeriods custom.flexible := by
  rw [intervalPreproc] at h
  split at h
  · cases h
  · rename_i delay _
    cases hcut : (cut ';' text).2 with
    | none =>
      simp only [hcut, bind, Except.bind, pure, Except.pure] at h
      split_ifs at h
      cases h
      exact List.forall_mem_nil _
    | some after =>
      simp only [hcut, bind, Except.bind, pure, Except.pure] at h
      split at h
      · cases h
      · rename_i found hloop
        split_ifs at h
        cases h
        have hnil : WeekPeriods [] := List.forall_mem_nil _
        refine preprocLoop_rule (I := (WeekPeriods ·.flexible)) (Q := (WeekPeriods ·.flexible)) ?_ hnil hloop
        intro _ _ _ _ hw hseg
        exact ⟨preprocSegment_weekPeriods hw hseg, preprocSegment_weekPeriods hw hseg⟩

end

section

variable {flexIntervals : List FlexibleInterval} {now s next : ℕ}

lemma timeOf_eq (now : ℕ) : timeOf now = now % 86400 := by
  simp only [timeOf, localtime, secPerHour, secPerMin]
  omega

lemma TimePeriod.WellFormed.constant {p : TimePeriod} (hp : p.WellFormed) (hs : now ≤ s)
    (hnext : s < now - timeOf now + p.candidate (dayOf now) (timeOf now)) :
    checkTimePeriod p s = checkTimePeriod p now := by
  obtain ⟨h1, h2, h3, h4, h5⟩ := hp
  rw [TimePeriod.candidate] at hnext
  simp only [checkTimePeriod, decide_eq_decide]
  split_ifs at hnext <;> simp only [timeOf_eq, dayOf, weekday, secPerDay] at * <;> omega

lemma TimePeriod.WellFormed.candidate_gt {p : TimePeriod} (hp : p.WellFormed) (now : ℕ) :
    timeOf now < p.candidate (dayOf now) (timeOf now) := by
  obtain ⟨h1, h2, h3, h4, h5⟩ := hp
  rw [TimePeriod.candidate]
  split_ifs <;> simp only [timeOf_eq, dayOf, weekday, secPerDay] at * <;> omega

lemma TimePeriod.WellFormed.candidate_le {p : TimePeriod} (hp : p.WellFormed) (now : ℕ) :
    p.candidate (dayOf now) (timeOf now) ≤ 14 * secPerDay := by
  obtain ⟨h1, h2, h3, h4, h5⟩ := hp
  rw [TimePeriod.candidate]
  split_ifs <;> simp only [timeOf_eq, dayOf, weekday, secPerDay] at * <;> omega

lemma candidateLoop_least (now : ℕ) (hw : WeekPeriods flexIntervals) (hne : flexIntervals ≠ [] ∨ next ≠ 0)
    (hnext : next = 0 ∨ timeOf now < next ∧ next ≤ 14 * secPerDay) :
    let found := candidateLoop (dayOf now) (timeOf now) flexIntervals next
    (timeOf now < found ∧ found ≤ 14 * secPerDay) ∧ (next ≠ 0 → found ≤ next) ∧
      ∀ interval ∈ flexIntervals, found ≤ interval.period.candidate (dayOf now) (timeOf now) := by
  induction flexIntervals generalizing next with
  | nil =>
    have hzero : next ≠ 0 := hne.resolve_left fun h => h rfl
    exact ⟨hnext.resolve_left hzero, fun _ => le_rfl, List.forall_mem_nil _⟩
  | cons interval flexIntervals ih =>
    have hp := hw interval List.mem_cons_self
    have hgt := hp.candidate_gt now
    have hle := hp.candidate_le now
    rw [candidateLoop]
    dsimp only
    set candidate := interval.period.candidate (dayOf now) (timeOf now)
    obtain ⟨best, hbest, hcandidate, hprev, hrange⟩ :
        ∃ best, (if next = 0 ∨ candidate < next then candidate else next) = best ∧ best ≤ candidate ∧
          (next ≠ 0 → best ≤ next) ∧ timeOf now < best ∧ best ≤ 14 * secPerDay :=
      ⟨_, rfl, by split_ifs <;> omega, by split_ifs <;> omega, by split_ifs <;> omega⟩
    rw [hbest]
    have hzero : best ≠ 0 := Nat.ne_zero_of_lt hrange.1
    obtain ⟨hfound, hold, hrest⟩ := ih (fun i hi => hw i (List.mem_cons_of_mem _ hi)) (.inr hzero) (.inr hrange)
    have hle := hold hzero
    exact ⟨hfound, fun h => hle.trans (hprev h), List.forall_mem_cons.mpr ⟨hle.trans hcandidate, hrest⟩⟩

lemma currentLoop_congr {current : Option ℕ}
    (h : ∀ interval ∈ flexIntervals, checkTimePeriod interval.period s = checkTimePeriod interval.period now) :
    currentLoop s flexIntervals current = currentLoop now flexIntervals current := by
  induction flexIntervals generalizing current with
  | nil => rfl
  | cons interval flexIntervals ih =>
    obtain ⟨hhead, htail⟩ := List.forall_mem_cons.mp h
    simp only [currentLoop, hhead, ih htail]

lemma getNextDelayInterval_none (hw : WeekPeriods flexIntervals) (h : getNextDelayInterval flexIntervals now = none) :
    flexIntervals = [] := by
  rw [getNextDelayInterval] at h
  by_contra hne
  have hleast := candidateLoop_least now hw (.inl hne) (.inl rfl)
  rw [if_neg hne] at h
  dsimp only at h
  split_ifs at h with hzero
  omega

lemma getNextDelayInterval_some (hw : WeekPeriods flexIntervals)
    (h : getNextDelayInterval flexIntervals now = some next) :
    now < next ∧ next ≤ now + 14 * secPerDay ∧ ∀ simple s, now ≤ s → s < next →
      getCurrentDelay simple flexIntervals s = getCurrentDelay simple flexIntervals now := by
  rw [getNextDelayInterval] at h
  split_ifs at h with hne
  obtain ⟨hfound, -, hall⟩ := candidateLoop_least now hw (.inl hne) (.inl rfl)
  dsimp only at h
  split_ifs at h
  cases h
  have htime : timeOf now ≤ now := timeOf_eq now ▸ Nat.mod_le _ _
  refine ⟨by omega, by omega, fun simple s hs hlt => ?_⟩
  rw [getCurrentDelay, getCurrentDelay, currentLoop_congr]
  intro interval hi
  have := hall interval hi
  exact (hw interval hi).constant hs (by omega)

end

section

def InForce (simple : ℕ) (flexIntervals : List FlexibleInterval) (t delay : ℕ) : Prop :=
  (∃ interval ∈ flexIntervals, checkTimePeriod interval.period t ∧ interval.delay = delay ∧
    ∀ other ∈ flexIntervals, checkTimePeriod other.period t → delay ≤ other.delay) ∨
  (∀ interval ∈ flexIntervals, ¬checkTimePeriod interval.period t) ∧ delay = simple

variable (flexIntervals : List FlexibleInterval) (t : ℕ)

lemma currentLoop_least (current : Option ℕ) :
    match currentLoop t flexIntervals current with
    | none => current = none ∧ ∀ interval ∈ flexIntervals, ¬checkTimePeriod interval.period t
    | some delay => (current = some delay ∨ ∃ interval ∈ flexIntervals, checkTimePeriod interval.period t ∧
        interval.delay = delay) ∧ (∀ old ∈ current, delay ≤ old) ∧
        ∀ other ∈ flexIntervals, checkTimePeriod other.period t → delay ≤ other.delay := by
  induction flexIntervals generalizing current with
  | nil => cases current <;> simp [currentLoop]
  | cons interval flexIntervals ih =>
    rw [currentLoop]
    split_ifs with hcover
    · specialize ih (some interval.delay)
      split at ih
      · exact absurd ih.1 (Option.some_ne_none _)
      · obtain ⟨hfrom, hold, hall⟩ := ih
        have hle := hold _ rfl
        refine ⟨.inr ?_, fun old hcur => ?_, List.forall_mem_cons.mpr ⟨fun _ => hle, hall⟩⟩
        · obtain hsame | ⟨i, hi, hi'⟩ := hfrom
          · exact ⟨interval, List.mem_cons_self, hcover.2, Option.some.inj hsame⟩
          · exact ⟨i, List.mem_cons_of_mem _ hi, hi'⟩
        · rw [Option.mem_def.mp hcur] at hcover
          exact hle.trans (of_decide_eq_true hcover.1).le
    · specialize ih current
      split at ih
      · obtain ⟨rfl, hnone⟩ := ih
        exact ⟨rfl, List.forall_mem_cons.mpr ⟨fun h => hcover ⟨rfl, h⟩, hnone⟩⟩
      · rename_i delay _
        obtain ⟨hfrom, hold, hall⟩ := ih
        refine ⟨hfrom.imp_right fun ⟨i, hi, hi'⟩ => ⟨i, List.mem_cons_of_mem _ hi, hi'⟩, hold,
          List.forall_mem_cons.mpr ⟨fun h => ?_, hall⟩⟩
        cases current with
        | none => exact absurd ⟨rfl, h⟩ hcover
        | some old =>
          have hless : ¬interval.delay < old := fun hlt => hcover ⟨decide_eq_true hlt, h⟩
          exact (hold old rfl).trans (not_lt.mp hless)

lemma getCurrentDelay_inForce (simple : ℕ) : InForce simple flexIntervals t (getCurrentDelay simple flexIntervals t) := by
  have h := currentLoop_least flexIntervals t none
  rw [getCurrentDelay]
  split at h
  · rename_i hnone
    exact .inr ⟨h.2, by rw [hnone]; rfl⟩
  · rename_i delay hsome
    obtain ⟨hfrom, -, hall⟩ := h
    obtain ⟨interval, hi, hcover, hdelay⟩ := hfrom.resolve_left (Option.some_ne_none _).symm
    exact .inl ⟨interval, hi, hcover, by rw [hsome]; exact hdelay, by rw [hsome]; exact hall⟩

end

end Glaber.Expr
