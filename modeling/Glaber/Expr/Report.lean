import Glaber.Time.Tm

/-! When a scheduled report is prepared next (`zbx_get_report_nextcheck`), with the local time being UTC. -/

namespace Glaber.Expr.Report

open Glaber.Lib.Gregorian Glaber.Time

section

inductive Cycle where
  | daily
  | weekly
  | monthly
  | yearly
  deriving DecidableEq, Repr

def inMask (weekdays : UInt8) (wday : ℤ) : Bool := weekdays.toNat.testBit ((wday + 6).tmod 7).toNat

variable (weekdays : UInt8)

def weekdayLoop : ℕ → Time.Tm → Option Time.Tm
  | 0, _ => none
  | n + 1, tm => if inMask weekdays tm.wday then some tm else weekdayLoop n (zbxTmAdd tm 1 .day)

def roundToCycle (fuel : ℕ) (tm : Time.Tm) : Cycle → Option Time.Tm
  | .yearly => some (tmRoundUp tm .year)
  | .monthly => some (tmRoundUp tm .month)
  | .weekly => weekdayLoop weekdays fuel (tmRoundUp tm .day)
  | .daily => some (tmRoundUp tm .day)

def reportLoop (fuel : ℕ) (cycle : Cycle) (tmHour tmMin tmSec now : ℤ) : ℕ → Time.Tm → Option ℤ
  | 0, _ => none
  | n + 1, tm => do
    let tm := if 0 = tm.sec ∧ 0 = tm.min ∧ 0 = tm.hour then zbxTmAdd tm 1 .day else tm
    if cycle = .weekly ∧ weekdays = 0 then some (-1)
    else do
      let tm ← roundToCycle weekdays fuel tm cycle
      let time := Time.mktime { tm with sec := tmSec, min := tmMin, hour := tmHour }
      let nextcheck := time.bmod (2 ^ 32)
      if nextcheck ≠ -1 ∧ nextcheck ≤ now then reportLoop fuel cycle tmHour tmMin tmSec now n (Time.localtime time)
      else some nextcheck

def getReportNextcheck (fuel : ℕ) (now : ℤ) (cycle : Cycle) (startTime : ℤ) : Option ℤ :=
  let yesterday := now - 86400
  if yesterday < -2 ^ 31 then none
  else
    let tmSec := startTime.tmod 60
    let startTime := startTime.tdiv 60
    let tmMin := startTime.tmod 60
    let tmHour := startTime.tdiv 60
    reportLoop weekdays fuel cycle tmHour tmMin tmSec now fuel (Time.localtime yesterday)

end

section

variable {weekdays : UInt8} {cycle : Cycle}

def Allowed (weekdays : UInt8) : Cycle → ℤ → Prop
  | .daily, _ => True
  | .weekly, n => weekdays.toNat.testBit (weekday n).toNat
  | .monthly, n => (dateOf n).day = 1
  | .yearly, n => (dateOf n).day = 1 ∧ (dateOf n).mon = 1

instance : ∀ (cycle : Cycle) (n : ℤ), Decidable (Allowed weekdays cycle n)
  | .daily, _ => inferInstanceAs (Decidable True)
  | .weekly, n => inferInstanceAs (Decidable (weekdays.toNat.testBit (weekday n).toNat = true))
  | .monthly, n => inferInstanceAs (Decidable ((dateOf n).day = 1))
  | .yearly, n => inferInstanceAs (Decidable ((dateOf n).day = 1 ∧ (dateOf n).mon = 1))

def Starts (weekdays : UInt8) (cycle : Cycle) (startTime now : ℤ) : Set ℤ :=
  {t | now < t ∧ ∃ n, Allowed weekdays cycle n ∧ t = 86400 * n + startTime}

def FirstFrom (weekdays : UInt8) (cycle : Cycle) (m d : ℤ) : Prop := IsLeast {n | m ≤ n ∧ Allowed weekdays cycle n} d

lemma inMask_iff (n : ℤ) : inMask weekdays ((n + 4) % 7) ↔ Allowed weekdays .weekly n := by
  have hindex : ((n + 4) % 7 + 6).tmod 7 = weekday n := by
    rw [Int.tmod_eq_emod_of_nonneg (by omega), weekday]
    omega
  rw [inMask, hindex, Allowed]

lemma weekly_within {n : ℤ} (h : Allowed weekdays .weekly n) (m : ℤ) :
    ∃ k, m ≤ k ∧ k < m + 7 ∧ Allowed weekdays .weekly k := by
  refine ⟨m + (n - m) % 7, by omega, by omega, ?_⟩
  have hsame : weekday (m + (n - m) % 7) = weekday n := by
    rw [weekday, weekday]
    omega
  rwa [Allowed, hsame]

lemma weekdayLoop_first {fuel : ℕ} {m k : ℤ} (hle : m ≤ k) (hk : Allowed weekdays .weekly k) (hfuel : k < m + fuel) :
    ∃ d, weekdayLoop weekdays fuel (Time.localtime (86400 * m)) = some (Time.localtime (86400 * d)) ∧
      FirstFrom weekdays .weekly m d := by
  induction fuel generalizing m with
  | zero => omega
  | succ fuel ih =>
    have hwday : (Time.localtime (86400 * m)).wday = (m + 4) % 7 := by rw [localtime_midnight]
    rw [weekdayLoop, hwday]
    by_cases hm : Allowed weekdays .weekly m
    · rw [if_pos ((inMask_iff m).mpr hm)]
      exact ⟨m, rfl, ⟨le_rfl, hm⟩, fun n hn => hn.1⟩
    · rw [if_neg (mt (inMask_iff m).mp hm)]
      have hnext : zbxTmAdd (Time.localtime (86400 * m)) 1 .day = Time.localtime (86400 * (m + 1)) := by
        rw [add_seconds (by decide) (by rw [mktime_localtime]; omega), mktime_localtime]
        congr 1
        simp only [timeUnitSeconds]
        ring
      have hne : m ≠ k := fun heq => hm (heq ▸ hk)
      obtain ⟨d, hloop, hd, hleast⟩ := ih (by omega : m + 1 ≤ k) (by omega)
      refine ⟨d, hnext ▸ hloop, ⟨by have := hd.1; omega, hd.2⟩, ?_⟩
      rintro n ⟨hmn, hn⟩
      apply hleast ⟨?_, hn⟩
      have : m ≠ n := fun heq => hm (heq ▸ hn)
      omega

lemma round_first {fuel : ℕ} (hfuel : 7 ≤ fuel) {n : ℤ} (hn : Allowed weekdays cycle n) (t : ℤ) :
    ∃ d, roundToCycle weekdays fuel (Time.localtime t) cycle = some (Time.localtime (86400 * d)) ∧
      FirstFrom weekdays cycle (midnight t) d := by
  cases cycle with
  | daily => exact ⟨midnight t, congrArg some (tmRoundUp_day t), ⟨le_rfl, trivial⟩, fun n hn => hn.1⟩
  | weekly =>
    obtain ⟨k, hle, hlt, hk⟩ := weekly_within hn (midnight t)
    rw [roundToCycle, tmRoundUp_day]
    exact weekdayLoop_first hle hk (by omega)
  | monthly => exact ⟨_, congrArg some (tmRoundUp_month t), monthFrom_least (midnight t)⟩
  | yearly =>
    refine ⟨_, congrArg some (tmRoundUp_year t), ?_⟩
    obtain ⟨⟨hmonth, -⟩, hfirst⟩ := monthFrom_least (midnight t)
    obtain ⟨⟨hyear, hjan⟩, hleast⟩ := yearFrom_least (monthFrom (midnight t))
    refine ⟨⟨hmonth.trans hyear, (first_of_year_iff _).mpr hjan⟩, ?_⟩
    rintro k ⟨hk, hday, hmon⟩
    exact hleast ⟨hfirst ⟨hk, hday⟩, (first_of_year_iff k).mp ⟨hday, hmon⟩⟩

end

section

variable {weekdays : UInt8} {cycle : Cycle} {startTime now t : ℤ} {fuel : ℕ}

def turns (weekdays : UInt8) (fuel : ℕ) (cycle : Cycle) (startTime now : ℤ) (n : ℕ) (t : ℤ) : Option ℤ :=
  reportLoop weekdays fuel cycle ((startTime.tdiv 60).tdiv 60) ((startTime.tdiv 60).tmod 60) (startTime.tmod 60) now n
    (Time.localtime t)

lemma midnight_after (t : ℤ) :
    ∃ t', (if 0 = (Time.localtime t).sec ∧ 0 = (Time.localtime t).min ∧ 0 = (Time.localtime t).hour then
        zbxTmAdd (Time.localtime t) 1 .day
      else Time.localtime t) = Time.localtime t' ∧ midnight t' = t / 86400 + 1 := by
  have hsec : (Time.localtime t).sec = t % 60 := rfl
  have hmin : (Time.localtime t).min = t / 60 % 60 := rfl
  have hhour : (Time.localtime t).hour = t / 3600 % 24 := rfl
  split_ifs with h
  · refine ⟨t + 86400, ?_, ?_⟩
    · rw [add_seconds (by decide) (by rw [mktime_localtime]; omega), mktime_localtime]
      rfl
    · rw [midnight]
      omega
  · refine ⟨t, rfl, ?_⟩
    rw [midnight]
    omega

lemma turns_step (now : ℤ) (hfuel : 7 ≤ fuel) (hstart : 0 ≤ startTime) {n : ℤ} (hn : Allowed weekdays cycle n) (k : ℕ) (t : ℤ) :
    ∃ d, FirstFrom weekdays cycle (t / 86400 + 1) d ∧
      turns weekdays fuel cycle startTime now (k + 1) t =
        if (86400 * d + startTime).bmod (2 ^ 32) ≠ -1 ∧ (86400 * d + startTime).bmod (2 ^ 32) ≤ now then
          turns weekdays fuel cycle startTime now k (86400 * d + startTime)
        else some ((86400 * d + startTime).bmod (2 ^ 32)) := by
  obtain ⟨t', htm, hmid⟩ := midnight_after t
  obtain ⟨d, hround, hfirst⟩ := round_first hfuel hn t'
  rw [hmid] at hfirst
  refine ⟨d, hfirst, ?_⟩
  have hmask : ¬ (cycle = .weekly ∧ weekdays = 0) := by
    rintro ⟨rfl, rfl⟩
    simp [Allowed] at hn
  have htime := mktime_at (86400 * d) ((startTime.tdiv 60).tdiv 60) ((startTime.tdiv 60).tmod 60) (startTime.tmod 60)
  have hsum : 86400 * (86400 * d / 86400) + 3600 * (startTime.tdiv 60).tdiv 60 + 60 * (startTime.tdiv 60).tmod 60 +
      startTime.tmod 60 = 86400 * d + startTime := by
    have hnonneg : 0 ≤ startTime.tdiv 60 := Int.tdiv_nonneg hstart (by decide)
    rw [Int.tdiv_eq_ediv_of_nonneg hnonneg, Int.tmod_eq_emod_of_nonneg hnonneg, Int.tdiv_eq_ediv_of_nonneg hstart,
      Int.tmod_eq_emod_of_nonneg hstart]
    omega
  rw [hsum] at htime
  rw [turns, reportLoop, htm]
  simp only [if_neg hmask, hround, Option.bind_eq_bind, Option.bind_some, htime, turns]

lemma turns_int {k : ℕ} {r : ℤ} (h : turns weekdays fuel cycle startTime now k t = some r) : -2 ^ 31 ≤ r ∧ r < 2 ^ 31 := by
  rw [turns] at h
  generalize Time.localtime t = tm at h
  induction k generalizing tm with
  | zero => cases h
  | succ k ih =>
    simp only [reportLoop] at h
    split_ifs at h
    · obtain rfl := Option.some_inj.mp h
      decide
    all_goals
      obtain ⟨tm', -, h⟩ := Option.bind_eq_some_iff.mp h
      split_ifs at h
      · exact ih _ h
      · obtain rfl := Option.some_inj.mp h
        exact bmod_int _

lemma report_int {t : ℤ} (h : getReportNextcheck weekdays fuel now cycle startTime = some t) :
    -2 ^ 31 + 86400 ≤ now ∧ t < 2 ^ 31 := by
  rw [getReportNextcheck] at h
  simp only at h
  split_ifs at h with hunder
  exact ⟨by omega, (turns_int h).2⟩

lemma start_least (hstart : 0 ≤ startTime ∧ startTime ≤ 86399) {m d : ℤ} (hfirst : FirstFrom weekdays cycle m d)
    (hm : m = now / 86400 ∨ m = now / 86400 + 1 ∧ 86400 * (now / 86400) + startTime ≤ now)
    (hlater : now < 86400 * d + startTime) : IsLeast (Starts weekdays cycle startTime now) (86400 * d + startTime) := by
  obtain ⟨⟨-, hallowed⟩, hleast⟩ := hfirst
  refine ⟨⟨hlater, d, hallowed, rfl⟩, ?_⟩
  rintro t ⟨ht, n, hn, rfl⟩
  have hmn : m ≤ n := by
    rcases hm with rfl | ⟨rfl, hover⟩
    · omega
    · by_contra hlt
      have hsame : n = now / 86400 := by omega
      rw [hsame] at ht
      omega
  have := hleast ⟨hmn, hn⟩
  omega

end

def InRange (weekdays : UInt8) (cycle : Cycle) (startTime now : ℤ) : Prop :=
  -2 ^ 31 + 86400 ≤ now ∧ (∃ t ∈ Starts weekdays cycle startTime now, t < 2 ^ 31) ∧
    ¬ (now = -1 ∧ startTime = 86399 ∧ Allowed weekdays cycle (-1))

theorem report_least_iff_in_range {fuel : ℕ} (hfuel : 7 ≤ fuel) {startTime : ℤ} (hstart : 0 ≤ startTime ∧ startTime ≤ 86399)
    (weekdays : UInt8) (cycle : Cycle) (now : ℤ) :
    (∃ t, IsLeast (Starts weekdays cycle startTime now) t ∧ getReportNextcheck weekdays fuel now cycle startTime = some t) ↔
      InRange weekdays cycle startTime now := by
  obtain ⟨k, rfl⟩ : ∃ k, fuel = k + 1 + 1 := ⟨fuel - 2, by omega⟩
  have hday : (now - 86400) / 86400 + 1 = now / 86400 := by omega
  constructor
  · rintro ⟨t, ⟨⟨hlater, n, hn, rfl⟩, hleast⟩, hcheck⟩
    obtain ⟨hunder, hint⟩ := report_int hcheck
    refine ⟨hunder, ⟨_, ⟨hlater, n, hn, rfl⟩, hint⟩, ?_⟩
    rintro ⟨rfl, rfl, hyesterday⟩
    rw [getReportNextcheck] at hcheck
    simp only at hcheck
    rw [if_neg (by decide)] at hcheck
    obtain ⟨d, hfirst, hstep⟩ := turns_step (-1) hfuel hstart.1 hyesterday (k + 1) (-1 - 86400)
    obtain rfl : d = -1 := hfirst.unique ⟨⟨le_rfl, hyesterday⟩, fun m hm => hm.1⟩
    have herror : (86400 * -1 + 86399 : ℤ).bmod (2 ^ 32) = -1 := by decide
    rw [herror, if_neg (by simp)] at hstep
    have := Option.some_inj.mp (hstep.symm.trans hcheck)
    omega
  · rintro ⟨hunder, ⟨t, ⟨hlater, n, hn, rfl⟩, hint⟩, herror⟩
    obtain ⟨d, hfirst, hstep⟩ := turns_step now hfuel hstart.1 hn (k + 1) (now - 86400)
    rw [hday] at hfirst
    have hcheck : getReportNextcheck weekdays (k + 1 + 1) now cycle startTime =
        turns weekdays (k + 1 + 1) cycle startTime now (k + 1 + 1) (now - 86400) := by
      rw [getReportNextcheck]
      simp only
      rw [if_neg (by omega)]
      rfl
    rw [hcheck, hstep]
    by_cases hfuture : now < 86400 * d + startTime
    · have hleast := start_least hstart hfirst (.inl rfl) hfuture
      have hle := hleast.2 ⟨hlater, n, hn, rfl⟩
      refine ⟨_, hleast, ?_⟩
      rw [bmod_self (by omega) (by omega), if_neg (by omega)]
    · -- Today's start is over: the second turn finds the next one.
      have htoday : d = now / 86400 := by
        have := hfirst.1.1
        omega
      have hone : 86400 * d + startTime ≠ -1 := by
        intro heq
        apply herror
        have hd : d = -1 := by omega
        exact ⟨by omega, by omega, hd ▸ hfirst.1.2⟩
      obtain ⟨d', hfirst', hstep'⟩ := turns_step now hfuel hstart.1 hn k (86400 * d + startTime)
      have hnext : (86400 * d + startTime) / 86400 + 1 = now / 86400 + 1 := by omega
      rw [hnext] at hfirst'
      have hfuture' : now < 86400 * d' + startTime := by
        have := hfirst'.1.1
        omega
      have hleast := start_least hstart hfirst' (.inr ⟨rfl, by omega⟩) hfuture'
      have hle := hleast.2 ⟨hlater, n, hn, rfl⟩
      refine ⟨_, hleast, ?_⟩
      rw [bmod_self (by omega) (by omega), if_pos ⟨hone, by omega⟩, hstep', bmod_self (by omega) (by omega), if_neg (by omega)]

-- A Monday's report of a Monday morning, five minutes before it.
theorem report_on_monday :
    ∃ t, IsLeast (Starts 1 .weekly 32400 1700470500) t ∧ getReportNextcheck 1 7 1700470500 .weekly 32400 = some t := by
  refine (report_least_iff_in_range le_rfl (by decide) 1 .weekly 1700470500).mpr ⟨by decide, ?_, by decide⟩
  exact ⟨1700470800, ⟨by decide, 19681, by decide, by decide⟩, by decide⟩

theorem last_second_has_no_report :
    ¬ ∃ fuel t, IsLeast (Starts 1 .daily 0 2147483647) t ∧ getReportNextcheck 1 fuel 2147483647 .daily 0 = some t := by
  rintro ⟨fuel, t, ⟨⟨hlater, -⟩, -⟩, hcheck⟩
  have := (report_int hcheck).2
  omega

end Glaber.Expr.Report
