import Glaber.Maintenance.Period
import Mathlib.Data.Nat.Bitwise
import Mathlib.Order.Bounds.Basic

namespace Glaber.Maintenance

open Time Lib.Gregorian

section

def dayOf (zone t : ℤ) : ℤ := (t + zone) / 86400

def weekOf (n : ℤ) : ℤ := (n + 3) / 7

def moment (zone : ℤ) (period : DcPeriod) (n : ℤ) : ℤ := 86400 * n + period.startTime - zone

def SameMonth (n k : ℤ) : Prop := (dateOf n).year = (dateOf k).year ∧ (dateOf n).mon = (dateOf k).mon

def IsNth (n k : ℤ) : Prop := SameMonth n (n - 7 * (k - 1)) ∧ ¬ SameMonth n (n - 7 * k)

def IsLast (n : ℤ) : Prop := ¬ SameMonth n (n + 7)

def Matches (zone : ℤ) (maintenance : DcMaintenance) (period : DcPeriod) (n : ℤ) : Prop :=
  match period.type with
  | .onetime => False
  | .daily => period.every ∣ n - dayOf zone maintenance.activeSince
  | .weekly =>
    period.every ∣ weekOf n - weekOf (dayOf zone maintenance.activeSince) ∧
      period.dayofweek.testBit (weekday n).toNat = true
  | .monthly =>
    period.month.testBit ((dateOf n).mon - 1) = true ∧
      (period.day ≠ 0 ∧ (dateOf n).day = period.day ∨
        period.day = 0 ∧ period.dayofweek.testBit (weekday n).toNat = true ∧
          if period.every = 5 then IsLast n else IsNth n period.every)

lemma sameMonth_iff (n k : ℤ) : SameMonth n k ↔
    1 ≤ (dateOf n).day + (k - n) ∧ (dateOf n).day + (k - n) ≤ daysIn (isLeap (dateOf n).year) (dateOf n).mon := by
  have hn := number_dateOf n
  have hk := number_dateOf k
  rw [Date.number_eq_first] at hn hk
  constructor
  · rintro ⟨hyear, hmon⟩
    have hfirst : (dateOf k).first = (dateOf n).first := by rw [Date.first, Date.first, hyear, hmon]
    have hday := (dateOf_valid k).day
    rw [← hyear, ← hmon] at hday
    omega
  · rintro ⟨hfrom, hto⟩
    have hwithin := (dateOf_valid n).dateOf_within (n := k) (by omega) (by omega)
    rw [SameMonth, hwithin]
    exact ⟨rfl, rfl⟩

lemma isNth_iff {n k : ℤ} (hk : 1 ≤ k) : IsNth n k ↔ ((dateOf n).day - 1) / 7 + 1 = k := by
  have hday := (dateOf_valid n).day
  rw [IsNth, sameMonth_iff, sameMonth_iff]
  omega

lemma isLast_iff (n : ℤ) : IsLast n ↔ daysIn (isLeap (dateOf n).year) (dateOf n).mon < (dateOf n).day + 7 := by
  have hday := (dateOf_valid n).day
  rw [IsLast, sameMonth_iff]
  omega

end

section

variable {zone n : ℤ} {maintenance : DcMaintenance} {period : DcPeriod}

lemma and_bit_eq_zero_iff_testBit (mask k : ℕ) : mask &&& 1 <<< k = 0 ↔ mask.testBit k = false := by
  rw [Nat.shiftLeft_eq, Nat.one_mul, Nat.and_two_pow]
  cases mask.testBit k <;> simp

lemma secondsOf_zoneTime (zone t : ℤ) : secondsOf (zoneTime zone t) = (t + zone) % 86400 := by
  simp only [secondsOf, zoneTime, localtime]
  omega

lemma wdayOf_zoneTime (zone t : ℤ) : wdayOf (zoneTime zone t) = weekday (dayOf zone t) := by
  simp only [wdayOf, zoneTime, localtime, weekday, dayOf]
  split_ifs <;> omega

def DcPeriod.WithinDay (period : DcPeriod) : Prop := 0 ≤ period.startTime ∧ period.startTime < 86400

lemma dayOf_moment (h : period.WithinDay) (n : ℤ) : dayOf zone (moment zone period n) = n := by
  obtain ⟨hlow, hhigh⟩ := h
  rw [dayOf, moment]
  omega

lemma weeklySkips_iff (h : period.WithinDay) {monday : ℤ} (hmonday : weekday monday = 0)
    (hn : monday ≤ n) : weeklySkips zone period (86400 * monday - zone) (moment zone period n) = true ↔
      ¬ (period.every ∣ weekOf n - weekOf monday ∧ period.dayofweek.testBit (weekday n).toNat = true) := by
  have hweek : (moment zone period n - (86400 * monday - zone)).tdiv 604800 = weekOf n - weekOf monday := by
    obtain ⟨hlow, hhigh⟩ := h
    rw [Int.tdiv_eq_ediv_of_nonneg (by rw [moment]; omega), moment, weekOf, weekOf]
    rw [weekday] at hmonday
    omega
  have hnonneg : 0 ≤ weekOf n - weekOf monday := by
    rw [weekOf, weekOf]
    omega
  rw [weeklySkips, hweek, wdayOf_zoneTime, dayOf_moment h, Int.tmod_eq_emod_of_nonneg hnonneg]
  simp only [and_bit_eq_zero_iff_testBit]
  by_cases hdvd : period.every ∣ weekOf n - weekOf monday
  · have hzero := Int.emod_eq_zero_of_dvd hdvd
    simp [hzero, hdvd]
  · have hne : 0 ≠ (weekOf n - weekOf monday) % period.every := fun heq => hdvd (Int.dvd_of_emod_eq_zero heq.symm)
    simp [hne, hdvd]

lemma zoneTime_date (zone t : ℤ) :
    (zoneTime zone t).mday = (dateOf (dayOf zone t)).day ∧ (zoneTime zone t).mon = (dateOf (dayOf zone t)).mon - 1 ∧
      (zoneTime zone t).year = (dateOf (dayOf zone t)).year - 1900 := ⟨rfl, rfl, rfl⟩

lemma nth_iff {every : ℤ} (hevery : 1 ≤ every) (n : ℤ) :
    (if 5 = every ∧ 4 = ((dateOf n).day - 1) / 7 + 1 then
        (dateOf n).day + 7 ≤ daysIn (isLeap (dateOf n).year) (dateOf n).mon
      else every ≠ ((dateOf n).day - 1) / 7 + 1) ↔
      ¬ if every = 5 then IsLast n else IsNth n every := by
  have hday := (dateOf_valid n).day
  have hbounds := daysIn_bounds (isLeap (dateOf n).year) (dateOf n).mon
  by_cases hfive : every = 5
  · subst hfive
    rw [if_pos rfl, isLast_iff]
    split_ifs with hfour <;> omega
  · rw [if_neg hfive, isNth_iff hevery, if_neg (by omega)]
    omega

lemma monthlySkips_iff (h : period.WithinDay) (hevery : 1 ≤ period.every) (htype : period.type = .monthly) (n : ℤ) :
    monthlySkips zone period (moment zone period n) = true ↔ ¬ Matches zone maintenance period n := by
  have hmon := (dateOf_valid n).mon
  have hday := (dateOf_valid n).day
  obtain ⟨hmday, htmon, hyear⟩ := zoneTime_date zone (moment zone period n)
  rw [dayOf_moment h] at hmday htmon hyear
  have hindex : (((dateOf n).mon : ℤ) - 1).toNat = (dateOf n).mon - 1 := by omega
  have hlength : dayInMonth (1900 + ((dateOf n).year - 1900)) ((dateOf n).mon - 1 + 1) =
      daysIn (isLeap (dateOf n).year) (dateOf n).mon := by
    rw [add_sub_cancel, sub_add_cancel]
    exact dayInMonth_eq _ hmon
  have hnth := nth_iff hevery n
  rw [monthlySkips, Matches, htype, wdayOf_zoneTime, dayOf_moment h, hmday, htmon, hyear, hindex, hlength,
    Int.tdiv_eq_ediv_of_nonneg (by omega)]
  simp only [and_bit_eq_zero_iff_testBit]
  cases period.month.testBit ((dateOf n).mon - 1) with
  | false => simp
  | true =>
    by_cases hzero : period.day = 0
    · cases period.dayofweek.testBit (weekday n).toNat with
      | false => simp [hzero]
      | true =>
        simp only [hzero, ne_eq, not_true_eq_false, false_and, true_and, false_or, Bool.true_eq_false, if_false, ← hnth]
        split_ifs <;> simp
    · have hset : 0 ≠ period.day := Ne.symm hzero
      simp [hzero, hset, @eq_comm _ period.day]

lemma searchLoop_spec (zone bound : ℤ) (skips : ℤ → Bool) (start : ℤ) :
    ∃ k : ℕ, (searchLoop zone bound skips start).1 = start - 86400 * k ∧
      (bound ≤ start - 86400 * k → skips (start - 86400 * k) = false) ∧
      ((searchLoop zone bound skips start).2 = true → bound ≤ start - 86400 * k) ∧
      ∀ j < k, bound ≤ start - 86400 * j ∧ skips (start - 86400 * j) = true := by
  fun_induction searchLoop zone bound skips start with
  | case1 start hbound hskips ih =>
    obtain ⟨k, hresult, hstops, hbroken, hbefore⟩ := ih
    rw [dcSubtractTime_eq] at hresult hstops hbroken hbefore ⊢
    have hshift (j : ℕ) : start - 86400 - 86400 * j = start - 86400 * (j + 1 : ℕ) := by
      push_cast
      ring
    rw [hshift] at hresult hstops hbroken
    refine ⟨k + 1, hresult, hstops, hbroken, fun j hj => ?_⟩
    cases j with
    | zero => simpa using ⟨hbound, hskips⟩
    | succ j =>
      rw [← hshift]
      exact hbefore j (Nat.lt_of_succ_lt_succ hj)
  | case2 start hbound hstops => exact ⟨0, by simp, fun _ => by simpa using hstops, by simpa using hbound, by simp⟩
  | case3 start hbound => exact ⟨0, by simp, fun h => absurd (by simpa using h) hbound, by simp, by simp⟩

end

section

variable {zone now : ℤ} {maintenance : DcMaintenance} {period : DcPeriod}

def searchEnd (zone : ℤ) (maintenance : DcMaintenance) (period : DcPeriod) : ℤ :=
  let n := dayOf zone maintenance.activeSince
  match period.type with
  | .daily => 86400 * n - zone
  | .weekly => 86400 * (n - weekday n) - zone
  | _ => maintenance.activeSince

def Stops (zone : ℤ) (maintenance : DcMaintenance) (period : DcPeriod) (s : ℤ) : Prop :=
  ∃ n, s = moment zone period n ∧ (Matches zone maintenance period n ∨ s < searchEnd zone maintenance period)

def lastDay (zone : ℤ) (period : DcPeriod) (now : ℤ) : ℤ := (now + zone - period.startTime) / 86400

lemma moment_le_iff (n : ℤ) : moment zone period n ≤ now ↔ n ≤ lastDay zone period now := by
  rw [moment, lastDay, Int.le_ediv_iff_mul_le (by decide)]
  omega

lemma moment_le_moment (n k : ℤ) : moment zone period n ≤ moment zone period k ↔ n ≤ k := by
  rw [moment, moment]
  omega

lemma isGreatest_stops {n : ℤ} (hn : n ≤ lastDay zone period now)
    (hstops : Matches zone maintenance period n ∨ moment zone period n < searchEnd zone maintenance period)
    (hpassed : ∀ k, n < k → k ≤ lastDay zone period now →
      ¬ Matches zone maintenance period k ∧ searchEnd zone maintenance period ≤ moment zone period k) :
    IsGreatest {s | Stops zone maintenance period s ∧ s ≤ now} (moment zone period n) := by
  refine ⟨⟨⟨n, rfl, hstops⟩, (moment_le_iff n).2 hn⟩, ?_⟩
  rintro s ⟨⟨k, rfl, hk⟩, hnow⟩
  rw [moment_le_moment]
  by_contra hlt
  obtain ⟨hno, hend⟩ := hpassed k (not_le.1 hlt) ((moment_le_iff k).1 hnow)
  exact hk.elim hno (not_lt.2 hend)

lemma searchLoop_greatest {skips : ℤ → Bool}
    (hskips : ∀ n ≤ lastDay zone period now, searchEnd zone maintenance period ≤ moment zone period n →
      (skips (moment zone period n) = true ↔ ¬ Matches zone maintenance period n)) :
    IsGreatest {s | Stops zone maintenance period s ∧ s ≤ now}
      (searchLoop zone (searchEnd zone maintenance period) skips (moment zone period (lastDay zone period now))).1 := by
  obtain ⟨k, hresult, hstops, -, hbefore⟩ :=
    searchLoop_spec zone (searchEnd zone maintenance period) skips (moment zone period (lastDay zone period now))
  have hback (j : ℕ) : moment zone period (lastDay zone period now) - 86400 * j =
      moment zone period (lastDay zone period now - j) := by
    rw [moment, moment]
    ring
  rw [hback] at hresult hstops
  rw [hresult]
  refine isGreatest_stops (by omega) ?_ fun i hi hlast => ?_
  · by_cases hend : searchEnd zone maintenance period ≤ moment zone period (lastDay zone period now - k)
    · refine .inl (not_not.1 ?_)
      rw [← hskips _ (by omega) hend, hstops hend]
      exact Bool.false_ne_true
    · exact .inr (not_le.1 hend)
  · obtain ⟨j, hj⟩ := Int.eq_ofNat_of_zero_le (sub_nonneg.2 hlast)
    obtain ⟨hend, hskip⟩ := hbefore j (by omega)
    have hi' : lastDay zone period now - j = i := by omega
    rw [hback, hi'] at hend hskip
    exact ⟨(hskips i hlast hend).1 hskip, hend⟩

def Finds (zone : ℤ) (maintenance : DcMaintenance) (period : DcPeriod) (now : ℤ) (result : Option (ℤ × ℤ)) : Prop :=
  if period.type ≠ .monthly ∧ moment zone period (lastDay zone period now) < maintenance.activeSince then result = none
  else ∃ start, IsGreatest {s | Stops zone maintenance period s ∧ s ≤ now} start ∧
    result = some (runningFrom maintenance period start)

lemma midnight_eq (zone t : ℤ) : t - (t + zone) % 86400 = 86400 * dayOf zone t - zone := by
  rw [dayOf]
  omega

lemma daily_finds (h : period.WithinDay) (hevery : 1 ≤ period.every) (htype : period.type = .daily) :
    Finds zone maintenance period now
      (dcCalculateMaintenancePeriod zone maintenance period (moment zone period (lastDay zone period now))) := by
  have hend : searchEnd zone maintenance period = 86400 * dayOf zone maintenance.activeSince - zone := by
    rw [searchEnd, htype]
  have hday (k : ℤ) : Matches zone maintenance period k ↔ period.every ∣ k - dayOf zone maintenance.activeSince := by
    rw [Matches, htype]
  rw [Finds, dcCalculateMaintenancePeriod, htype]
  simp only [ne_eq, reduceCtorEq, not_false_eq_true, true_and]
  split_ifs with hearly
  · rfl
  · obtain ⟨hlow, hhigh⟩ := h
    rw [dcSubtractTime_eq, dcSubtractTime_eq, secondsOf_zoneTime, midnight_eq]
    have hfirst : dayOf zone maintenance.activeSince ≤ lastDay zone period now := by
      rw [moment] at hearly
      rw [dayOf]
      omega
    set first := dayOf zone maintenance.activeSince
    set last := lastDay zone period now
    have hquot : (moment zone period last - (86400 * first - zone)).tdiv 86400 = last - first := by
      rw [Int.tdiv_eq_ediv_of_nonneg (by rw [moment]; omega), moment]
      omega
    rw [hquot, Int.tmod_eq_emod_of_nonneg (by omega)]
    have hrest := Int.emod_nonneg (last - first) (show period.every ≠ 0 by omega)
    have hsplit := Int.mul_ediv_add_emod (last - first) period.every
    refine ⟨moment zone period (last - (last - first) % period.every), isGreatest_stops (by omega) (.inl ?_) fun k hk hlast => ?_,
      ?_⟩
    · rw [hday]
      exact ⟨(last - first) / period.every, by omega⟩
    · have hquot0 : 0 ≤ period.every * ((last - first) / period.every) :=
        Int.mul_nonneg (by omega) (Int.ediv_nonneg (by omega) (by omega))
      refine ⟨fun hmatch => ?_, ?_⟩
      · obtain ⟨c, hc⟩ := (hday k).1 hmatch
        have hle : c ≤ (last - first) / period.every := by
          rw [Int.le_ediv_iff_mul_le (by omega), Int.mul_comm]
          omega
        have := Int.mul_le_mul_of_nonneg_left hle (show 0 ≤ period.every by omega)
        omega
      · rw [hend, moment]
        omega
    · congr 2
      rw [moment, moment]
      ring

lemma weekly_finds (h : period.WithinDay) (htype : period.type = .weekly) :
    Finds zone maintenance period now
      (dcCalculateMaintenancePeriod zone maintenance period (moment zone period (lastDay zone period now))) := by
  set first := dayOf zone maintenance.activeSince with hfirst
  have hend : searchEnd zone maintenance period = 86400 * (first - weekday first) - zone := by
    rw [searchEnd, htype]
  have hmonday : weekday (first - weekday first) = 0 := by
    simp only [weekday]
    omega
  have hweek : weekOf (first - weekday first) = weekOf first := by
    simp only [weekOf, weekday]
    omega
  have hskips : ∀ n ≤ lastDay zone period now, searchEnd zone maintenance period ≤ moment zone period n →
      (weeklySkips zone period (searchEnd zone maintenance period) (moment zone period n) = true ↔
        ¬ Matches zone maintenance period n) := by
    intro n _ hn
    rw [hend, moment] at hn
    have hle : first - weekday first ≤ n := by
      have := h.2
      omega
    rw [hend, weeklySkips_iff h hmonday hle, Matches, htype, hweek]
  have hbound : maintenance.activeSince - (weekday first * 86400 + (maintenance.activeSince + zone) % 86400) =
      searchEnd zone maintenance period := by
    have hmidnight := midnight_eq zone maintenance.activeSince
    rw [← hfirst] at hmidnight
    rw [hend]
    omega
  rw [Finds, dcCalculateMaintenancePeriod, htype]
  simp only [ne_eq, reduceCtorEq, not_false_eq_true, true_and]
  split_ifs with hearly
  · rfl
  · rw [dcSubtractTime_eq, wdayOf_zoneTime, secondsOf_zoneTime, ← hfirst, hbound]
    exact ⟨_, searchLoop_greatest hskips, rfl⟩

lemma monthly_finds (h : period.WithinDay) (hevery : 1 ≤ period.every) (htype : period.type = .monthly) :
    Finds zone maintenance period now
      (dcCalculateMaintenancePeriod zone maintenance period (moment zone period (lastDay zone period now))) := by
  have hend : searchEnd zone maintenance period = maintenance.activeSince := by rw [searchEnd, htype]
  have hgreatest := @searchLoop_greatest zone now maintenance period (monthlySkips zone period) fun n _ _ =>
    monthlySkips_iff h hevery htype n
  obtain ⟨k, hresult, -, hbroken, -⟩ :=
    searchLoop_spec zone maintenance.activeSince (monthlySkips zone period) (moment zone period (lastDay zone period now))
  rw [hend] at hgreatest
  rw [Finds, dcCalculateMaintenancePeriod, htype, if_neg (by simp)]
  refine ⟨_, hgreatest, if_neg ?_⟩
  rintro ⟨htrue, hlt⟩
  have := hbroken htrue
  rw [← hresult] at this
  omega

end

section

variable (zone : ℤ) (maintenance : DcMaintenance) (period : DcPeriod) (now : ℤ)

def Occurs (s : ℤ) : Prop := ∃ n, s = moment zone period n ∧ Matches zone maintenance period n

structure Running (s : ℤ) : Prop where
  occurs : Occurs zone maintenance period s
  since : maintenance.activeSince ≤ s
  started : s ≤ now
  ends : now < min (s + period.period) maintenance.activeUntil

def Agrees (result : Option (ℤ × ℤ)) : Prop :=
  (result.isSome = true ↔ ∃ s, Running zone maintenance period now s) ∧
    ∀ since until', result = some (since, until') → IsGreatest {s | Running zone maintenance period now s} since ∧
      until' = min (since + period.period) maintenance.activeUntil

def StaysInside : Prop :=
  (∃ s, Occurs zone maintenance period s ∧ maintenance.activeSince ≤ s ∧ s ≤ now) ∨
    (period.type ≠ .monthly ∧ ¬ ∃ n, maintenance.activeSince ≤ moment zone period n ∧ moment zone period n ≤ now) ∨
      ∀ c, IsGreatest {c | Stops zone maintenance period c ∧ c < maintenance.activeSince} c → c + period.period ≤ now

variable {zone maintenance period now}

lemma dcCheckMaintenancePeriod_eq (h : period.WithinDay) :
    dcCheckMaintenancePeriod zone maintenance period now =
      (dcCalculateMaintenancePeriod zone maintenance period (moment zone period (lastDay zone period now))).bind
        fun running => if running.1 ≤ now ∧ now < running.2 then some running else none := by
  obtain ⟨hlow, hhigh⟩ := h
  have htoday : now - (now + zone) % 86400 - -period.startTime = moment zone period (dayOf zone now) := by
    rw [midnight_eq, moment]
    ring
  have hseconds : (moment zone period (dayOf zone now) + zone) % 86400 = period.startTime := by
    rw [moment]
    omega
  have hstart : (if now < moment zone period (dayOf zone now) then moment zone period (dayOf zone now) - 86400
      else moment zone period (dayOf zone now)) = moment zone period (lastDay zone period now) := by
    simp only [moment, dayOf, lastDay]
    split_ifs <;> omega
  simp only [dcCheckMaintenancePeriod, dcSubtractTime_eq, secondsOf_zoneTime, htoday, hseconds, ne_eq, not_true_eq_false,
    if_false, hstart]
  cases dcCalculateMaintenancePeriod zone maintenance period (moment zone period (lastDay zone period now)) <;> rfl

lemma finds (h : period.WithinDay) (hevery : 1 ≤ period.every) (htype : period.type ≠ .onetime) :
    Finds zone maintenance period now
      (dcCalculateMaintenancePeriod zone maintenance period (moment zone period (lastDay zone period now))) := by
  cases heq : period.type with
  | onetime => exact absurd heq htype
  | daily => exact daily_finds h hevery heq
  | weekly => exact weekly_finds h heq
  | monthly => exact monthly_finds h hevery heq

lemma searchEnd_le (zone : ℤ) (maintenance : DcMaintenance) (period : DcPeriod) :
    searchEnd zone maintenance period ≤ maintenance.activeSince := by
  simp only [searchEnd, weekday, dayOf]
  cases period.type <;> simp only <;> omega

lemma Stops.occurs {s : ℤ} (h : Stops zone maintenance period s) (hsince : maintenance.activeSince ≤ s) :
    Occurs zone maintenance period s := by
  obtain ⟨n, rfl, hmatch | hbefore⟩ := h
  · exact ⟨n, rfl, hmatch⟩
  · have := searchEnd_le zone maintenance period
    omega

lemma Occurs.stops {s : ℤ} (h : Occurs zone maintenance period s) : Stops zone maintenance period s := by
  obtain ⟨n, hn, hmatch⟩ := h
  exact ⟨n, hn, .inl hmatch⟩

lemma runningFrom_eq (maintenance : DcMaintenance) (period : DcPeriod) (start : ℤ) :
    runningFrom maintenance period start = (start, min (start + period.period) maintenance.activeUntil) := by
  rw [runningFrom, min_comm]
  simp only [min_def]
  split_ifs <;> simp <;> omega

lemma Running.le_start {s start : ℤ} (hgreatest : IsGreatest {s | Stops zone maintenance period s ∧ s ≤ now} start)
    (hs : Running zone maintenance period now s) : s ≤ start := hgreatest.2 ⟨hs.occurs.stops, hs.started⟩

lemma agrees_inside {start : ℤ} (hgreatest : IsGreatest {s | Stops zone maintenance period s ∧ s ≤ now} start)
    (hinside : maintenance.activeSince ≤ start) :
    Agrees zone maintenance period now
      (if start ≤ now ∧ now < min (start + period.period) maintenance.activeUntil then
        some (start, min (start + period.period) maintenance.activeUntil) else none) := by
  have hocc := hgreatest.1.1.occurs hinside
  have hnow : start ≤ now := hgreatest.1.2
  constructor
  · constructor
    · intro hsome
      split_ifs at hsome with hruns
      · exact ⟨start, hocc, hinside, hnow, hruns.2⟩
      · cases hsome
    · rintro ⟨s, hs⟩
      have hle := hs.le_start hgreatest
      have hends := hs.ends
      rw [if_pos ⟨hnow, by omega⟩]
      rfl
  · intro since until' hresult
    split_ifs at hresult with hruns
    obtain ⟨rfl, rfl⟩ := Prod.mk.inj (Option.some.inj hresult)
    exact ⟨⟨⟨hocc, hinside, hnow, hruns.2⟩, fun s hs => hs.le_start hgreatest⟩, rfl⟩

lemma isGreatest_before {start : ℤ} (hgreatest : IsGreatest {s | Stops zone maintenance period s ∧ s ≤ now} start)
    (hsince : maintenance.activeSince ≤ now) (hbefore : start < maintenance.activeSince) :
    IsGreatest {c | Stops zone maintenance period c ∧ c < maintenance.activeSince} start :=
  ⟨⟨hgreatest.1.1, hbefore⟩, fun _ hc => hgreatest.2 ⟨hc.1, (hc.2.trans_le hsince).le⟩⟩

lemma agrees_before_iff {start : ℤ} (hgreatest : IsGreatest {s | Stops zone maintenance period s ∧ s ≤ now} start)
    (huntil : now < maintenance.activeUntil) (hbefore : start < maintenance.activeSince) :
    Agrees zone maintenance period now
      (if start ≤ now ∧ now < min (start + period.period) maintenance.activeUntil then
        some (start, min (start + period.period) maintenance.activeUntil) else none) ↔ start + period.period ≤ now := by
  have hnow : start ≤ now := hgreatest.1.2
  have hnone : ¬ ∃ s, Running zone maintenance period now s := by
    rintro ⟨s, hs⟩
    have := hs.le_start hgreatest
    have := hs.since
    omega
  constructor
  · rintro ⟨hsome, -⟩
    by_contra hruns
    rw [if_pos ⟨hnow, by omega⟩] at hsome
    exact hnone (hsome.1 rfl)
  · intro hover
    rw [if_neg (by omega)]
    exact ⟨iff_of_false (by simp) hnone, fun _ _ h => by cases h⟩

theorem maintenance_period_iff (hsince : maintenance.activeSince ≤ now) (huntil : now < maintenance.activeUntil)
    (htype : period.type ≠ .onetime) (hevery : 1 ≤ period.every) (h : period.WithinDay) :
    Agrees zone maintenance period now (dcCheckMaintenancePeriod zone maintenance period now) ↔
      StaysInside zone maintenance period now := by
  have hfinds : Finds zone maintenance period now _ := finds h hevery htype
  rw [dcCheckMaintenancePeriod_eq h]
  rw [Finds] at hfinds
  split_ifs at hfinds with hearly
  · -- nothing starts between the activation and now
    have hnever : ∀ n, maintenance.activeSince ≤ moment zone period n → ¬ moment zone period n ≤ now := by
      intro n hfrom hto
      have hlast : moment zone period n ≤ moment zone period (lastDay zone period now) :=
        (moment_le_moment n _).2 ((moment_le_iff n).1 hto)
      omega
    rw [hfinds, Option.bind_none]
    refine iff_of_true ⟨iff_of_false (by simp) ?_, fun _ _ h => by cases h⟩ (.inr (.inl ⟨hearly.1, ?_⟩))
    · rintro ⟨s, ⟨n, rfl, -⟩, hfrom, hto, -⟩
      exact hnever n hfrom hto
    · rintro ⟨n, hfrom, hto⟩
      exact hnever n hfrom hto
  · obtain ⟨start, hgreatest, hresult⟩ := hfinds
    rw [hresult, runningFrom_eq, Option.bind_some]
    by_cases hinside : maintenance.activeSince ≤ start
    · exact iff_of_true (agrees_inside hgreatest hinside)
        (.inl ⟨start, hgreatest.1.1.occurs hinside, hinside, hgreatest.1.2⟩)
    · have hbefore := not_le.1 hinside
      refine (agrees_before_iff hgreatest huntil hbefore).trans ⟨fun hover => .inr (.inr fun c hc => ?_), ?_⟩
      · rwa [hc.unique (isGreatest_before hgreatest hsince hbefore)]
      · rintro (⟨s, hocc, hfrom, hto⟩ | ⟨hmonthly, hnever⟩ | hover)
        · have : s ≤ start := hgreatest.2 ⟨hocc.stops, hto⟩
          omega
        · have hlast : maintenance.activeSince ≤ moment zone period (lastDay zone period now) :=
            not_lt.1 fun hlt => hearly ⟨hmonthly, hlt⟩
          exact absurd ⟨_, hlast, (moment_le_iff _).2 le_rfl⟩ hnever
        · exact hover start (isGreatest_before hgreatest hsince hbefore)

def mondays : DcPeriod := ⟨.weekly, 2, 0, 1, 0, 28800, 7200, 0⟩

theorem maintenance_period_mondays : Agrees 7200 ⟨345600, 8640000⟩ mondays 1577000
    (dcCheckMaintenancePeriod 7200 ⟨345600, 8640000⟩ mondays 1577000) := by
  have hmatch : Matches 7200 ⟨345600, 8640000⟩ mondays 18 := ⟨by decide, by decide⟩
  exact (maintenance_period_iff (by decide) (by decide) (by decide) (by decide) (by unfold DcPeriod.WithinDay; decide)).2
    (.inl ⟨1576800, ⟨18, by decide, hmatch⟩, by decide, by decide⟩)

def everyOtherDay : DcPeriod := ⟨.daily, 2, 0, 0, 0, 21600, 172800, 0⟩

theorem before_activation_runs : dcCheckMaintenancePeriod 0 ⟨475200, 1728000⟩ everyOtherDay 543600 = some (453600, 626400) ∧
    ¬ Agrees 0 ⟨475200, 1728000⟩ everyOtherDay 543600
      (dcCheckMaintenancePeriod 0 ⟨475200, 1728000⟩ everyOtherDay 543600) := by
  have hresult : dcCheckMaintenancePeriod 0 ⟨475200, 1728000⟩ everyOtherDay 543600 = some (453600, 626400) := by
    decide
  refine ⟨hresult, fun hagrees => ?_⟩
  obtain ⟨s, ⟨n, rfl, hmatch⟩, hsince, hstarted, -⟩ := hagrees.1.1 (by rw [hresult]; rfl)
  simp only [moment, everyOtherDay] at hsince hstarted
  obtain rfl : n = 6 := by omega
  have hodd : ¬ (2 : ℤ) ∣ 6 - dayOf 0 475200 := by decide
  exact hodd hmatch

end

end Glaber.Maintenance
