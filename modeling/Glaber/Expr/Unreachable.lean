import Glaber.Expr.Delays

/-! The next check of an item of an unreachable host (`zbx_calculate_item_nextcheck_unreachable`). -/

namespace Glaber.Expr

section

variable (simpleInterval : ℕ)

/-- There is no answer where `nextcheck`, an `int`, overflows. -/
def unreachableLoop (flexIntervals : List FlexibleInterval) (tmax : ℕ) : ℕ → ℕ → Option ℕ
  | 0, _ => none
  | n + 1, nextcheck =>
    if nextcheck < tmax then
      if getCurrentDelay simpleInterval flexIntervals nextcheck ≠ 0 then some nextcheck
      else
        match getNextDelayInterval flexIntervals nextcheck with
        | none => some jan2038
        | some nextInterval =>
          if intMax < nextInterval then none else unreachableLoop flexIntervals tmax n nextInterval
    else some nextcheck

def calculateItemNextcheckUnreachable (fuel : ℕ) (customIntervals : Option CustomInterval) (disableUntil : ℕ) : Option ℕ := do
  let scheduledCheck ← match customIntervals with
    | some custom => schedulerGetNextcheck fuel custom.scheduling disableUntil
    | none => some 0
  let nextcheck ← match customIntervals with
    | some custom => unreachableLoop simpleInterval custom.flexible (disableUntil + secPerYear) fuel disableUntil
    | none => some disableUntil
  return if scheduledCheck ≠ 0 ∧ scheduledCheck < nextcheck then scheduledCheck else nextcheck

end

section

variable {simple delay delay' t : ℕ} {flexIntervals : List FlexibleInterval}

lemma InForce.unique (h : InForce simple flexIntervals t delay) (h' : InForce simple flexIntervals t delay') :
    delay = delay' := by
  rcases h with ⟨i, hi, hcover, rfl, hleast⟩ | ⟨hnone, rfl⟩
  · rcases h' with ⟨j, hj, hcover', rfl, hleast'⟩ | ⟨hnone', -⟩
    · exact le_antisymm (hleast j hj hcover') (hleast' i hi hcover)
    · exact absurd hcover (hnone' i hi)
  · rcases h' with ⟨j, hj, hcover', -, -⟩ | ⟨-, rfl⟩
    · exact absurd hcover' (hnone j hj)
    · rfl

def Active (simple : ℕ) (flexIntervals : List FlexibleInterval) (disableUntil : ℕ) : Set ℕ :=
  {t | disableUntil ≤ t ∧ ∃ delay, InForce simple flexIntervals t delay ∧ delay ≠ 0}

variable {disableUntil nextcheck tmax n : ℕ}

lemma mem_active : t ∈ Active simple flexIntervals disableUntil ↔
    disableUntil ≤ t ∧ getCurrentDelay simple flexIntervals t ≠ 0 := by
  apply and_congr_right
  intro _
  have hcode := getCurrentDelay_inForce flexIntervals t simple
  constructor
  · rintro ⟨delay, hdelay, hne⟩
    rwa [hcode.unique hdelay]
  · exact fun hne => ⟨_, hcode, hne⟩

lemma unreachableLoop_least (hw : WeekPeriods flexIntervals) (hfrom : disableUntil ≤ nextcheck)
    (hbefore : ∀ t ∈ Active simple flexIntervals disableUntil, nextcheck ≤ t)
    (hwithin : ∃ t ∈ Active simple flexIntervals disableUntil, t ≤ tmax) (hmax : tmax + 14 * secPerDay ≤ intMax)
    (hfuel : tmax < nextcheck + n) :
    ∃ t, unreachableLoop simple flexIntervals tmax n nextcheck = some t ∧ IsLeast (Active simple flexIntervals disableUntil) t := by
  obtain ⟨within, hactive, hle⟩ := hwithin
  induction n generalizing nextcheck with
  | zero => exact absurd (hbefore within hactive) (by omega)
  | succ n ih =>
    rw [unreachableLoop]
    by_cases hlt : nextcheck < tmax
    · rw [if_pos hlt]
      by_cases hdelay : getCurrentDelay simple flexIntervals nextcheck = 0
      · rw [if_neg (not_not.mpr hdelay)]
        cases hchange : getNextDelayInterval flexIntervals nextcheck with
        | none =>
          obtain rfl := getNextDelayInterval_none hw hchange
          exact absurd hdelay (mem_active.mp hactive).2
        | some nextInterval =>
          obtain ⟨hgt, hbound, hsame⟩ := getNextDelayInterval_some hw hchange
          have hlater : ∀ t ∈ Active simple flexIntervals disableUntil, nextInterval ≤ t := by
            intro t ht
            by_contra hearly
            have hzero := hsame simple t (hbefore t ht) (not_le.mp hearly)
            exact (mem_active.mp ht).2 (hzero.trans hdelay)
          have hint : ¬intMax < nextInterval := by omega
          dsimp only
          rw [if_neg hint]
          exact ih (hfrom.trans hgt.le) hlater (by omega)
      · rw [if_pos hdelay]
        exact ⟨nextcheck, rfl, mem_active.mpr ⟨hfrom, hdelay⟩, hbefore⟩
    · -- The end of the year is the only moment left.
      rw [if_neg hlt]
      have hsame : within = nextcheck := by
        have := hbefore within hactive
        omega
      exact ⟨nextcheck, rfl, hsame ▸ hactive, hbefore⟩

end

theorem unreachable_nextcheck_least {simple disableUntil fuel : ℕ} {customIntervals : Option CustomInterval}
    {flexIntervals : List FlexibleInterval}
    (hcustom : customIntervals = some ⟨flexIntervals, []⟩ ∨ customIntervals = none ∧ flexIntervals = [])
    (hparsed : ∀ interval ∈ flexIntervals, ∃ text, flexibleIntervalParse text = some interval)
    (huntil : disableUntil + 2 * secPerYear < jan2038) (hfuel : secPerYear < fuel)
    (hwithin : ∃ t ∈ Active simple flexIntervals disableUntil, t ≤ disableUntil + secPerYear) :
    ∃ t, calculateItemNextcheckUnreachable simple fuel customIntervals disableUntil = some t ∧
      IsLeast (Active simple flexIntervals disableUntil) t := by
  rcases hcustom with rfl | ⟨rfl, rfl⟩
  · have hw : WeekPeriods flexIntervals := by
      intro interval hi
      obtain ⟨text, htext⟩ := hparsed interval hi
      exact flexibleIntervalParse_wellFormed htext
    have hmax : disableUntil + secPerYear + 14 * secPerDay ≤ intMax := by
      simp only [secPerYear, secPerDay, jan2038, intMax] at huntil ⊢
      omega
    obtain ⟨t, hloop, hleast⟩ := unreachableLoop_least hw le_rfl (fun t ht => ht.1) hwithin hmax
      (Nat.add_lt_add_left hfuel disableUntil)
    refine ⟨t, ?_, hleast⟩
    simp [calculateItemNextcheckUnreachable, schedulerGetNextcheck, hloop]
  · -- With no custom intervals the simple one is in force at every moment.
    obtain ⟨within, hactive, -⟩ := hwithin
    refine ⟨disableUntil, by simp [calculateItemNextcheckUnreachable], ?_, fun t ht => ht.1⟩
    exact mem_active.mpr ⟨le_rfl, (mem_active.mp hactive).2⟩

-- A host that fell silent on a Tuesday evening is next asked on Wednesday at nine.
theorem silent_until_nine :
    ∃ t, calculateItemNextcheckUnreachable 0 (secPerYear + 1) (some ⟨[⟨⟨1, 5, 32400, 64800⟩, 300⟩], []⟩) 1700000000 = some t ∧
      IsLeast (Active 0 [⟨⟨1, 5, 32400, 64800⟩, 300⟩] 1700000000) t := by
  have hparsed : flexibleIntervalParse "300/1-5,09:00-18:00".toList = some ⟨⟨1, 5, 32400, 64800⟩, 300⟩ := by decide
  refine unreachable_nextcheck_least (.inl rfl) ?_ (by decide) (Nat.lt_succ_self _) ?_
  · exact fun interval hi => ⟨_, List.mem_singleton.mp hi ▸ hparsed⟩
  · exact ⟨1700038800, mem_active.mpr ⟨by decide, by decide⟩, by decide⟩

end Glaber.Expr
