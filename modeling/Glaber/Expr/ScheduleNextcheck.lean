import Glaber.Expr.ScheduleSearch

namespace Glaber.Expr

open Glaber.Lib.Calendar Glaber.Lib.Odometer

section

variable {interval : SchedulerInterval} {fuel now : ℕ}

lemma DayAccepted.le {start n : ℕ} (h : DayAccepted interval start n) : start ≤ n := by
  have hv := localtime_valid (start * secPerDay)
  have hnumber := localtime_number (start * secPerDay)
  rw [Nat.mul_div_cancel _ (by decide)] at hnumber
  rw [← hnumber] at h ⊢
  rw [hv.dayAccepted] at h
  exact h.ge hv.epoch hv.mday hv.month

lemma Accepted.le {start t : ℕ} (h : Accepted interval start t) : start ≤ t := by
  have hstops : ∀ {filters filterLevel level max} (b v : ℕ),
      Stops (schedulerGetFilterNextcheck filters filterLevel level max) b v → b ≤ v :=
    fun _ _ h => h.le fun _ _ => unitNext_ge
  exact Digits.le (fun _ _ h => h.le) (fun _ _ h => Digits.le hstops (fun _ _ h => Digits.le hstops hstops h) h) h

def DayBefore2038 (interval : SchedulerInterval) (start n : ℕ) : Prop := DayAccepted interval start n ∧ n < day2038

lemma accepted_before {t start : ℕ} :
    Accepted interval start t ∧ t < jan2038 ↔
      Digits (DayBefore2038 interval) (HourAccepted interval) secPerDay start t := by
  have hday : t < jan2038 ↔ t / secPerDay < day2038 := by
    simp only [jan2038, secPerDay, day2038]
    omega
  rw [Accepted, Digits, Digits, DayBefore2038, hday]
  tauto

def before (r : ℕ) : Option ℕ := if r < jan2038 then some r else none

lemma before_mul_add {n y : ℕ} (hy : y < secPerDay) :
    before (n * secPerDay + y) = (before2038 n).map fun n => n * secPerDay + y := by
  have hiff : n * secPerDay + y < jan2038 ↔ n < day2038 := by
    simp only [jan2038, secPerDay, day2038] at *
    omega
  rw [before, before2038]
  by_cases hlt : n < day2038
  · rw [if_pos hlt, if_pos (hiff.mpr hlt)]
    rfl
  · rw [if_neg hlt, if_neg (mt hiff.mp hlt)]
    rfl

lemma mktime_eq {month mday year mon h m s : ℕ} (hyear : year = month / 12) (hmon : mon = month % 12) :
    mktime ⟨s, m, h, mday, mon, year⟩ =
      (firstDay month + mday - 1) * secPerDay + (h * secPerHour + (m * 60 + s)) := by
  rw [mktime, firstDay, hyear, hmon]
  simp only [secPerMin]
  ring

section

variable {start n y : ℕ} (hlow : ∀ b v, HourAccepted interval b v → v < secPerDay)
  (hy : Least (HourAccepted interval 0) (some y))
include hlow hy

lemma least_past (hleast : Least (DayBefore2038 interval (start / secPerDay)) (before2038 n))
    (hne : n ≠ start / secPerDay) :
    Least (Digits (DayBefore2038 interval) (HourAccepted interval) secPerDay start) (before (n * secPerDay + y)) := by
  rw [before_mul_add (hlow _ _ hy.1)]
  rw [before2038] at hleast ⊢
  split_ifs at hleast ⊢
  · exact digits_past hlow hleast hne hy
  · exact digits_none hleast

lemma least_next (hnone : Least (HourAccepted interval (start % secPerDay)) none)
    (hleast : Least (fun n => start / secPerDay < n ∧ DayBefore2038 interval (start / secPerDay) n) (before2038 n)) :
    Least (Digits (DayBefore2038 interval) (HourAccepted interval) secPerDay start) (before (n * secPerDay + y)) := by
  have hge : ∀ b v, DayBefore2038 interval b v → b ≤ v := fun _ _ h => h.1.le
  rw [before_mul_add (hlow _ _ hy.1)]
  rw [before2038] at hleast ⊢
  split_ifs at hleast ⊢
  · exact digits_next hlow hge hnone hleast hy
  · exact digits_over hge hnone hleast

end

lemma schedulerSearch_eq : schedulerSearch interval fuel now =
    (schedulerApplyDayFilter interval fuel (localtime (now + 1))).bind fun tm =>
      (hourSearch interval fuel tm).map mktime := by
  rw [schedulerSearch, schedulerTmInc_localtime]
  simp only [hourSearch, minuteSearch, Option.bind_eq_bind, Option.bind_assoc, Option.map_eq_bind]
  rfl

lemma localtime_year (hnow : now + 1 < jan2038) :
    (localtime (now + 1)).number < day2038 ∧ (localtime (now + 1)).year ≤ 137 := by
  have hv := localtime_valid (now + 1)
  have hnumber := localtime_number (now + 1)
  have htoday : (localtime (now + 1)).number < day2038 := by
    rw [hnumber]
    simp only [jan2038, secPerDay, day2038] at *
    omega
  refine ⟨htoday, ?_⟩
  by_contra! hlate
  rw [← (Tm.month_div hv.mon).1] at hlate
  have hfirst := day2038_le hlate
  have hmday := hv.mday
  rw [Tm.number] at htoday
  omega

theorem schedulerSearch_least (hw : interval.WellFormed) (hnow : now + 1 < jan2038) (hfuel : 2001 ≤ fuel) :
    ∃ r, schedulerSearch interval fuel now = some r ∧
      Least (fun t => Accepted interval (now + 1) t ∧ t < jan2038) (before r) := by
  obtain ⟨hour, minute, second, hf⟩ := exists_firsts hw
  obtain ⟨htoday, hyear⟩ := localtime_year hnow
  have hv := localtime_valid (now + 1)
  have hnumber := localtime_number (now + 1)
  have htime := localtime_time (now + 1)
  rw [schedulerSearch_eq]
  generalize localtime (now + 1) = tm at hv hnumber htime htoday hyear ⊢
  have hlow := hourAccepted_lt hw
  have hfirst := hourFirst_least hw hf
  simp only [accepted_before]
  obtain ⟨month, mday, hloop, hmonth, hmday, hleast⟩ := @applyDayLoop_least interval tm fuel hw hv
    (Nat.le_succ_of_le hyear) (Nat.le_of_succ_le hfuel)
  rw [← hv.dayAccepted, hnumber] at hleast
  obtain ⟨tm', happly, ⟨rfl, rfl, hsame⟩ | ⟨hmoved, rfl⟩⟩ := schedulerApplyDayFilter_eq hv.mon hloop
  · rw [hsame] at happly
    change Least (DayBefore2038 interval ((now + 1) / secPerDay)) (before2038 tm.number) at hleast
    rw [before2038, if_pos htoday, hnumber] at hleast
    have hday : ∀ m s, m ≤ 59 → s ≤ 59 → ∃ next month mday,
        schedulerApplyDayFilter interval fuel { tm with mday := tm.mday + 1, hour := 0, min := m, sec := s } =
          some next ∧ next.hour = 0 ∧ next.year = month / 12 ∧ next.mon = month % 12 ∧ next.mday = mday ∧
        Least (fun n => DayAccepted interval (tm.number + 1) n ∧ n < day2038)
          (before2038 (firstDay month + mday - 1)) := by
      intro m s hm hs
      have hv' : { tm with hour := 0, min := m, sec := s }.Valid := { hv with hour := Nat.zero_le _, min := hm, sec := hs }
      exact schedulerApplyDayFilter_behind hw hv' hyear rfl hfuel
    rw [happly, Option.bind_some]
    have hnextDay : ∀ m s, m ≤ 59 → s ≤ 59 → ∃ next,
        schedulerApplyDayFilter interval fuel { tm with mday := tm.mday + 1, hour := 0, min := m, sec := s } =
          some next ∧ next.hour = 0 := by
      intro m s hm hs
      obtain ⟨next, _, _, hnext, hhour, _⟩ := hday m s hm hs
      exact ⟨next, hnext, hhour⟩
    obtain ⟨h, m, s, hsearch, htod⟩ | ⟨hnone, m, s, next, hm, hs, -, hnext, hsearch⟩ :=
      hourSearch_found hw hf (le_trans (by decide) hfuel) hv hnextDay
    · rw [htime] at htod
      refine ⟨_, by rw [hsearch, Option.map_some], ?_⟩
      rw [mktime_eq (Tm.month_div hv.mon).1.symm (Tm.month_div hv.mon).2.symm]
      change Least _ (before (tm.number * secPerDay + _))
      rw [before_mul_add (hlow _ _ htod.1), before2038, if_pos htoday, hnumber]
      exact digits_here hlow (fun _ _ h => h.1.le) hleast.1 htod
    · obtain ⟨next', month, mday, hnext', -, hyear', hmon', rfl, hbehind⟩ := hday m s hm hs
      obtain rfl : next = next' := Option.some.inj (hnext.symm.trans hnext')
      rw [htime] at hnone
      refine ⟨_, by rw [hsearch, Option.map_some], ?_⟩
      rw [mktime_eq hyear' hmon']
      have hlater := least_behind hv (hnumber.symm ▸ hleast.1.1) hbehind
      rw [hnumber] at hlater
      exact least_next hlow hfirst hnone hlater
  -- the day changes, and the search takes its first time of day
  · have hstart := @hourSearch_start interval (dayTm month mday) fuel hour minute second hf (Nat.one_le_of_lt hfuel) rfl
      rfl rfl
    refine ⟨_, by rw [happly, Option.bind_some, hstart, Option.map_some], ?_⟩
    have hne : firstDay month + mday - 1 ≠ (now + 1) / secPerDay := by
      rw [← hnumber]
      obtain rfl | hlater := hmonth.eq_or_lt
      · have := hv.mday
        rw [Tm.number]
        omega
      · exact (hv.later_gt hlater hmday).ne'
    change Least _ (before (mktime ⟨second, minute, hour, mday, month % 12, month / 12⟩))
    rw [mktime_eq rfl rfl]
    exact least_past hlow hfirst hleast hne

end

section

variable {intervals : List SchedulerInterval} {fuel now L : ℕ}

lemma foldlM_least (answer : SchedulerInterval → ℕ)
    (h : ∀ interval ∈ intervals, schedulerSearch interval fuel now = some (answer interval) ∧ answer interval ≠ 0)
    (nextcheck : ℕ) :
    ∃ r, intervals.foldlM (fun nextcheck interval => do
        let current ← schedulerSearch interval fuel now
        return if nextcheck = 0 ∨ current < nextcheck then current else nextcheck) nextcheck = some r ∧
      (nextcheck ≠ 0 → r ≤ nextcheck) ∧ (∀ interval ∈ intervals, r ≤ answer interval) ∧
      (r = nextcheck ∧ (nextcheck ≠ 0 ∨ intervals = []) ∨ ∃ interval ∈ intervals, r = answer interval) := by
  induction intervals generalizing nextcheck with
  | nil => exact ⟨nextcheck, rfl, fun _ => le_rfl, List.forall_mem_nil _, .inl ⟨rfl, .inr rfl⟩⟩
  | cons interval intervals ih =>
    obtain ⟨⟨hsearch, hpos⟩, hrest⟩ := List.forall_mem_cons.mp h
    obtain ⟨best, hbest, hne, hle, hold, hfrom⟩ : ∃ best,
        (if nextcheck = 0 ∨ answer interval < nextcheck then answer interval else nextcheck) = best ∧ best ≠ 0 ∧
          best ≤ answer interval ∧ (nextcheck ≠ 0 → best ≤ nextcheck) ∧
          (best = nextcheck ∧ nextcheck ≠ 0 ∨ best = answer interval) := by
      refine ⟨_, rfl, ?_⟩
      split_ifs <;> omega
    obtain ⟨r, hr, hr', hall, hwhich⟩ := ih hrest best
    refine ⟨r, ?_, fun h => (hr' hne).trans (hold h), List.forall_mem_cons.mpr ⟨(hr' hne).trans hle, hall⟩, ?_⟩
    · rw [List.foldlM_cons, hsearch]
      simp only [Option.bind_eq_bind, Option.bind_some, Option.pure_def, hbest]
      exact hr
    · obtain ⟨rfl, -⟩ | ⟨i, hi, rfl⟩ := hwhich
      · obtain ⟨rfl, hzero⟩ | rfl := hfrom
        · exact .inl ⟨rfl, .inl hzero⟩
        · exact .inr ⟨interval, List.mem_cons_self, rfl⟩
      · exact .inr ⟨i, List.mem_cons_of_mem _ hi, rfl⟩

section

variable {interval : SchedulerInterval} {r : ℕ}
  (h : Least (fun t => Accepted interval (now + 1) t ∧ t < jan2038) (before r))
include h

lemma answer_accepted (hr : r < jan2038) : Accepted interval (now + 1) r := by
  rw [before, if_pos hr] at h
  exact h.1.1

lemma answer_le {t : ℕ} (ht : Accepted interval (now + 1) t) (hbefore : t < jan2038) : r ≤ t := by
  rw [before] at h
  split_ifs at h
  · exact h.2 t ⟨ht, hbefore⟩
  · exact absurd ⟨ht, hbefore⟩ (h t)

lemma answer_pos : r ≠ 0 := by
  rintro rfl
  have hzero := (answer_accepted h (by decide)).le
  omega

lemma le_answer_iff (hbefore : L < jan2038) :
    L ≤ r ↔ ∀ t, now < t → t < L → ¬Accepted interval (now + 1) t := by
  constructor
  · intro hle t _ hlt ht
    exact absurd (answer_le h ht (hlt.trans hbefore)) (not_le.mpr (hlt.trans_le hle))
  · intro hnone
    by_contra! hlt
    have hr := answer_accepted h (hlt.trans hbefore)
    exact hnone r hr.le hlt hr

end

theorem nextcheck_least_iff_accepted
    (hparsed : ∀ interval ∈ intervals, ∃ text, schedulerIntervalParse text = some interval)
    (hleast : IsLeast {t | now < t ∧ ∃ interval ∈ intervals, Satisfies interval t} L) (hbefore : L < jan2038)
    (hfuel : 2001 ≤ fuel) :
    schedulerGetNextcheck fuel intervals now = some L ↔
      (∃ interval ∈ intervals, Accepted interval (now + 1) L) ∧
        ∀ interval ∈ intervals, ∀ t, now < t → t < L → ¬Accepted interval (now + 1) t := by
  obtain ⟨hafter, interval₀, hmem, -⟩ := hleast.1
  have hnow : now + 1 < jan2038 := lt_of_le_of_lt hafter hbefore
  have hsearch : ∀ interval ∈ intervals, schedulerSearch interval fuel now =
      some ((schedulerSearch interval fuel now).getD 0) ∧
      Least (fun t => Accepted interval (now + 1) t ∧ t < jan2038)
        (before ((schedulerSearch interval fuel now).getD 0)) := by
    intro interval hi
    obtain ⟨text, htext⟩ := hparsed interval hi
    obtain ⟨r, hr, hr'⟩ := schedulerSearch_least (schedulerIntervalParse_wellFormed htext) hnow hfuel
    rw [hr]
    exact ⟨rfl, hr'⟩
  obtain ⟨r, hr, -, hmin, hwhich⟩ := foldlM_least (fun interval => (schedulerSearch interval fuel now).getD 0)
    (fun interval hi => ⟨(hsearch interval hi).1, answer_pos (hsearch interval hi).2⟩) 0
  obtain ⟨best, hbest, hbest'⟩ := hwhich.resolve_left fun h =>
    h.2.elim (absurd rfl) (List.ne_nil_of_mem hmem)
  rw [schedulerGetNextcheck, hr, Option.some_inj]
  constructor
  · rintro rfl
    refine ⟨⟨best, hbest, ?_⟩, fun interval hi => (le_answer_iff (hsearch interval hi).2 hbefore).mp (hmin interval hi)⟩
    exact hbest' ▸ answer_accepted (hsearch best hbest).2 (hbest' ▸ hbefore)
  · rintro ⟨⟨interval, hi, haccepted⟩, hnone⟩
    refine le_antisymm ((hmin interval hi).trans (answer_le (hsearch interval hi).2 haccepted hbefore)) ?_
    rw [hbest']
    exact (le_answer_iff (hsearch best hbest).2 hbefore).mpr (hnone best hbest)

/-- `wd1-5h9,18` and `wd1-5h12m30`. -/
def workdays : List SchedulerInterval :=
  [⟨[], [⟨1, 5, 1⟩], [⟨9, 9, 1⟩, ⟨18, 18, 1⟩], [], [], 2⟩, ⟨[], [⟨1, 5, 1⟩], [⟨12, 12, 1⟩], [⟨30, 30, 1⟩], [], 3⟩]

lemma workdays_least : IsLeast {t | 36000 < t ∧ ∃ interval ∈ workdays, Satisfies interval t} 45000 := by
  refine ⟨⟨by decide, _, List.mem_cons_of_mem _ (List.mem_singleton_self _), .inl rfl, .inr ?_, ?_, ?_, .inr rfl⟩, ?_⟩
  · exact ⟨⟨1, 5, 1⟩, List.mem_singleton_self _, by decide, by decide, by decide⟩
  · exact ⟨⟨12, 12, 1⟩, List.mem_singleton_self _, by decide, by decide, by decide⟩
  · exact ⟨⟨30, 30, 1⟩, List.mem_singleton_self _, by decide, by decide, by decide⟩
  · rintro t ⟨hafter, interval, hi, hsat⟩
    obtain ⟨filter, hf, hlow, hhigh, -⟩ : Listed interval.hours (t / 3600 % 24) := by
      rcases List.mem_pair.mp hi with rfl | rfl
      · exact hsat.hour
      · exact hsat.hour
    rcases List.mem_pair.mp hi with rfl | rfl
    · rcases List.mem_pair.mp hf with rfl | rfl <;> dsimp only at hlow hhigh <;> omega
    · obtain rfl := List.mem_singleton.mp hf
      obtain ⟨filter, hf, hmin, -⟩ : Listed [⟨30, 30, 1⟩] (t / 60 % 60) := hsat.minute
      obtain rfl := List.mem_singleton.mp hf
      dsimp only at hlow hhigh hmin
      omega

theorem workdays_accepted : schedulerGetNextcheck 2001 workdays 36000 = some 45000 ↔
    (∃ interval ∈ workdays, Accepted interval (36000 + 1) 45000) ∧
      ∀ interval ∈ workdays, ∀ t, 36000 < t → t < 45000 → ¬Accepted interval (36000 + 1) t := by
  refine nextcheck_least_iff_accepted ?_ workdays_least (by decide) le_rfl
  intro interval hi
  rcases List.mem_pair.mp hi with rfl | rfl
  · exact ⟨"wd1-5h9,18".toList, by decide⟩
  · exact ⟨"wd1-5h12m30".toList, by decide⟩

section

lemma dateOf_leap : dateOf 21242 = ⟨2028, 2, 28⟩ ∧ dateOf 21243 = ⟨2028, 2, 29⟩ := by
  have hfeb : (Date.mk 2028 2 28).number = 21242 := by decide
  have hleap : (Date.mk 2028 2 29).number = 21243 := by decide
  have hv : (Date.mk 2028 2 28).Valid := ⟨by decide, by decide, by decide⟩
  have hv' : (Date.mk 2028 2 29).Valid := ⟨by decide, by decide, by decide⟩
  exact ⟨hfeb ▸ hv.dateOf_number, hleap ▸ hv'.dateOf_number⟩

lemma stops_twentyNine {b v : ℕ} (h : Stops (schedulerGetNearestFilterValue [⟨29, 29, 1⟩]) b v) : v = 29 := by
  induction h with
  | here h =>
    obtain hnext | ⟨filter, hf, hholds, rfl⟩ | ⟨filter, hf, -, rfl⟩ := nearestLoop_some h
    · cases hnext
    · obtain rfl := List.mem_singleton.mp hf
      simp only [SchedulerFilter.holds, SchedulerFilter.roundUp, decide_eq_true_eq, Nat.mod_one] at *
      simp only [ne_eq, not_true_eq_false, if_false] at *
      omega
    · obtain rfl := List.mem_singleton.mp hf
      rfl
  | later _ _ ih => exact ih

lemma leap_day_rejected (h : DayAccepted ⟨[⟨29, 29, 1⟩], [], [], [], [], 1⟩ 21242 21243) : False := by
  rw [DayAccepted, monthOf, dateOf_leap.1] at h
  obtain ⟨month, mday, hle, hnumber, hstops, -⟩ := h
  rw [MonthStops, if_pos (List.cons_ne_nil _ _)] at hstops
  obtain ⟨hday, hlast, -⟩ := hstops
  obtain rfl := stops_twentyNine hday
  change 1537 ≤ month at hle
  have hfirst : firstDay 1537 = 21215 := by decide
  have hnext : firstDay 1538 = 21244 := by decide
  obtain rfl | hlater := hle.eq_or_lt
  · exact absurd hlast (by decide)
  · have hbehind : firstDay 1538 ≤ firstDay month := firstDay_mono (by decide) hlater
    omega

theorem leap_day_skipped :
    schedulerIntervalParse "md29".toList = some ⟨[⟨29, 29, 1⟩], [], [], [], [], 1⟩ ∧
    IsLeast {t | 1835308800 < t ∧ ∃ interval ∈ [⟨[⟨29, 29, 1⟩], [], [], [], [], 1⟩], Satisfies interval t} 1835395200 ∧
    1835395200 < jan2038 ∧
    ∀ fuel, 2001 ≤ fuel → ∃ r, schedulerGetNextcheck fuel [⟨[⟨29, 29, 1⟩], [], [], [], [], 1⟩] 1835308800 = some r ∧
      r ≠ 1835395200 := by
  have hparsed : schedulerIntervalParse "md29".toList = some ⟨[⟨29, 29, 1⟩], [], [], [], [], 1⟩ := by decide
  refine ⟨hparsed, ⟨⟨by decide, _, List.mem_singleton_self _, .inr ?_, .inl rfl, .inr ?_, .inr ?_, .inr ?_⟩, ?_⟩, by decide,
    fun fuel hfuel => ?_⟩
  · refine ⟨⟨29, 29, 1⟩, List.mem_singleton_self _, ?_⟩
    have hday : (localtime 1835395200).mday = 29 := by
      have hdiv : 1835395200 / secPerDay = 21243 := by decide
      simp only [localtime, hdiv, dateOf_leap.2]
    rw [hday]
    exact ⟨le_rfl, le_rfl, rfl⟩
  · rfl
  · rfl
  · rfl
  · rintro t ⟨hlt, interval, hi, hsat⟩
    obtain rfl := List.mem_singleton.mp hi
    by_contra! hback
    have hday : t / secPerDay = 21242 := by
      rw [secPerDay]
      omega
    obtain ⟨filter, hf, hlow, -⟩ := hsat.mday.resolve_left (List.cons_ne_nil _ _)
    obtain rfl := List.mem_singleton.mp hf
    change 29 ≤ (dateOf (t / secPerDay)).day at hlow
    rw [hday, dateOf_leap.1] at hlow
    exact absurd hlow (by decide)
  · obtain ⟨r, hr, hleast⟩ := @schedulerSearch_least _ fuel 1835308800
      (schedulerIntervalParse_wellFormed hparsed) (by decide) hfuel
    refine ⟨r, ?_, ?_⟩
    · rw [schedulerGetNextcheck, List.foldlM_cons, hr]
      rfl
    · rintro rfl
      exact leap_day_rejected (answer_accepted hleast (by decide)).1

end

end

end Glaber.Expr
