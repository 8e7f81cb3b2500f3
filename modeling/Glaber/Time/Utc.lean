import Glaber.Time.Tm

/-! The timestamp of a date and a time of day in UTC (`zbx_utc_time`), computed in `int`. -/

namespace Glaber.Time

open Glaber.Lib.Gregorian

section

def elapsedLeapYears (year : Int32) : Int32 := year / 4 - year / 100 + year / 400

def zbxLeapYears (year : Int32) : Int32 := elapsedLeapYears (year - 1)

def monthDay (mon : Int32) : Int32 :=
  [0, 31, 59, 90, 120, 151, 181, 212, 243, 273, 304, 334].getD (mon - 1).toInt.toNat 0

def utcSum (year mon mday hour min sec : Int32) : Int32 :=
  (year - 1970) * 31536000 + (zbxLeapYears (if 2 < mon then year + 1 else year) - zbxLeapYears 1970) * 86400 +
    (monthDay mon + mday - 1) * 86400 + hour * 3600 + min * 60 + sec

def utcTime (year mon mday hour min sec : Int32) : Option Int32 :=
  if 1970 ≤ year ∧ 1 ≤ mon ∧ mon ≤ 12 ∧ 1 ≤ mday ∧ mday.toInt ≤ dayInMonth year.toInt mon.toInt ∧ 0 ≤ hour ∧ hour ≤ 23 ∧
      0 ≤ min ∧ min ≤ 59 ∧ 0 ≤ sec ∧ sec ≤ 61 then
    let t := utcSum year mon mday hour min sec
    if 0 ≤ t then some t else none
  else none

end

section

/-- Fields of a date and a time of day; as for `zbx_utc_time` a minute has room for two leap seconds. -/
structure Fields where
  year : ℤ
  mon : ℤ
  mday : ℤ
  hour : ℤ
  min : ℤ
  sec : ℤ

def Fields.date (f : Fields) : Date := ⟨f.year, f.mon.toNat, f.mday⟩

structure Fields.Valid (f : Fields) : Prop where
  year : 1970 ≤ f.year
  mon : 1 ≤ f.mon ∧ f.mon ≤ 12
  mday : 1 ≤ f.mday ∧ f.mday ≤ daysIn (isLeap f.year) f.mon.toNat
  hour : 0 ≤ f.hour ∧ f.hour ≤ 23
  min : 0 ≤ f.min ∧ f.min ≤ 59
  sec : 0 ≤ f.sec ∧ f.sec ≤ 61

def Fields.timestamp (f : Fields) : ℤ := 86400 * f.date.number + 3600 * f.hour + 60 * f.min + f.sec

def fieldsOf (year mon mday hour min sec : Int32) : Fields :=
  ⟨year.toInt, mon.toInt, mday.toInt, hour.toInt, min.toInt, sec.toInt⟩

variable {year mon mday hour min sec : Int32}

lemma elapsed_toInt (h : 0 ≤ year.toInt) : (elapsedLeapYears year).toInt = leaps year.toInt := by
  have hhigh := year.toInt_lt
  have hdiv : ∀ k : Int32, 0 < k.toInt → (year / k).toInt = year.toInt / k.toInt := by
    intro k hk
    have hnonneg := Int.ediv_nonneg h hk.le
    have hle := Int.ediv_le_self k.toInt h
    rw [Int32.toInt_div, Int.tdiv_eq_ediv_of_nonneg h, bmod_self (by omega) (by omega)]
  have h4 : (year / 4).toInt = year.toInt / 4 := hdiv 4 (by decide)
  have h100 : (year / 100).toInt = year.toInt / 100 := hdiv 100 (by decide)
  have h400 : (year / 400).toInt = year.toInt / 400 := hdiv 400 (by decide)
  have hsub : (year / 4 - year / 100).toInt = year.toInt / 4 - year.toInt / 100 := by
    rw [Int32.toInt_sub, h4, h100, bmod_self (by omega) (by omega)]
  rw [elapsedLeapYears, Int32.toInt_add, hsub, h400, leaps, bmod_self (by omega) (by omega)]

lemma elapsed_ofInt (h : 0 ≤ year.toInt) : elapsedLeapYears year = Int32.ofInt (leaps year.toInt) := by
  rw [← elapsed_toInt h, Int32.ofInt_toInt]

lemma leapYears_ofInt (mon : Int32) (hyear : 1970 ≤ year.toInt) :
    zbxLeapYears (if 2 < mon then year + 1 else year) =
      Int32.ofInt (leaps (year.toInt - 1) + if 2 < mon.toInt ∧ isLeap year.toInt then 1 else 0) := by
  have hlow : (year - 1).toInt = year.toInt - 1 := by
    have := year.toInt_lt
    rw [Int32.toInt_sub]
    exact bmod_self (by simp; omega) (by simp; omega)
  have hleaps := leaps_succ (year.toInt - 1)
  rw [sub_add_cancel] at hleaps
  have hmon : 2 < mon ↔ 2 < mon.toInt := Int32.lt_iff_toInt_lt
  simp only [hmon]
  by_cases hmarch : 2 < mon.toInt
  · rw [if_pos hmarch, zbxLeapYears, Int32.add_sub_cancel, elapsed_ofInt (by omega), hleaps]
    simp only [hmarch, true_and]
  · rw [if_neg hmarch, zbxLeapYears, elapsed_ofInt (by omega), hlow, if_neg (fun h => hmarch h.1), add_zero]

lemma monthStart_monthDay (leap : Bool) (hmon : 1 ≤ mon.toInt ∧ mon.toInt ≤ 12) :
    monthStart leap mon.toInt.toNat = (monthDay mon).toInt + if 2 < mon.toInt ∧ leap then 1 else 0 := by
  obtain ⟨k, hk⟩ : ∃ k : ℕ, mon.toInt = k := ⟨mon.toInt.toNat, (Int.toNat_of_nonneg (by omega)).symm⟩
  obtain rfl : mon = Int32.ofInt k := by rw [← hk, Int32.ofInt_toInt]
  rw [hk] at hmon ⊢
  obtain ⟨hlow, hhigh⟩ : 1 ≤ k ∧ k ≤ 12 := by omega
  interval_cases k <;> cases leap <;> decide

lemma utcSum_ofInt (hvalid : (fieldsOf year mon mday hour min sec).Valid) :
    utcSum year mon mday hour min sec = Int32.ofInt (fieldsOf year mon mday hour min sec).timestamp := by
  have hstart := monthStart_monthDay (isLeap year.toInt) hvalid.mon
  have hleaps := leapYears_ofInt mon hvalid.year
  have hepoch : zbxLeapYears 1970 = Int32.ofInt (leaps 1969) := by decide
  have hsum : (fieldsOf year mon mday hour min sec).timestamp = (year.toInt - 1970) * 31536000 +
      (leaps (year.toInt - 1) + (if 2 < mon.toInt ∧ isLeap year.toInt then 1 else 0) - leaps 1969) * 86400 +
      ((monthDay mon).toInt + mday.toInt - 1) * 86400 + hour.toInt * 3600 + min.toInt * 60 + sec.toInt := by
    simp only [Fields.timestamp, Fields.date, fieldsOf, Date.number, Date.yday, hstart, jan1]
    ring
  rw [hsum, utcSum, hleaps, hepoch]
  simp only [Int32.ofInt_add, Int32.ofInt_sub, Int32.ofInt_mul, Int32.ofInt_toInt]
  rfl

lemma valid_iff : (fieldsOf year mon mday hour min sec).Valid ↔
    1970 ≤ year ∧ 1 ≤ mon ∧ mon ≤ 12 ∧ 1 ≤ mday ∧ mday.toInt ≤ dayInMonth year.toInt mon.toInt ∧ 0 ≤ hour ∧ hour ≤ 23 ∧
      0 ≤ min ∧ min ≤ 59 ∧ 0 ≤ sec ∧ sec ≤ 61 := by
  have hdays : 1 ≤ mon.toInt ∧ mon.toInt ≤ 12 →
      dayInMonth year.toInt mon.toInt = daysIn (isLeap year.toInt) mon.toInt.toNat := by
    intro h
    rw [← dayInMonth_eq year.toInt (by omega : 1 ≤ mon.toInt.toNat ∧ mon.toInt.toNat ≤ 12), Int.toNat_of_nonneg (by omega)]
  simp only [Int32.le_iff_toInt_le]
  constructor
  · rintro ⟨h1, h2, h3, h4, h5, h6⟩
    exact ⟨h1, h2.1, h2.2, h3.1, (hdays h2).symm ▸ h3.2, h4.1, h4.2, h5.1, h5.2, h6.1, h6.2⟩
  · rintro ⟨h1, h2, h3, h4, h5, h6, h7, h8, h9, h10, h11⟩
    exact ⟨h1, ⟨h2, h3⟩, ⟨h4, hdays ⟨h2, h3⟩ ▸ h5⟩, ⟨h6, h7⟩, ⟨h8, h9⟩, ⟨h10, h11⟩⟩

lemma Fields.Valid.timestamp_nonneg {f : Fields} (h : f.Valid) : 0 ≤ f.timestamp := by
  have hdate : f.date.Valid := by
    have hmon := h.mon
    exact ⟨by simp only [Fields.date]; omega, h.mday⟩
  have hyday := hdate.yday_bounds.1
  have hyear := jan1_strictMono.monotone h.year
  have hepoch : jan1 1970 = 0 := by decide
  have htime := h.hour
  have hmin := h.min
  have hsec := h.sec
  rw [Fields.timestamp, Date.number]
  simp only [Fields.date] at hyday ⊢
  omega

end

lemma bmod_nonneg_iff (x : ℤ) : 0 ≤ x.bmod (2 ^ 32) ↔ x % 2 ^ 32 < 2 ^ 31 := by
  have hpow : ((2 ^ 32 : ℕ) : ℤ) = 2 ^ 32 := by norm_num
  rw [Int.bmod, hpow]
  split_ifs <;> omega

/-- From 2038-01-19 on the sum does not fit; it is refused where it comes out negative, and accepted elsewhere. -/
def Wraps (f : Fields) : Prop := f.Valid ∧ 2 ^ 31 ≤ f.timestamp ∧ f.timestamp % 2 ^ 32 < 2 ^ 31

/-- Success exactly for the valid fields with a timestamp below 2³¹, and with that timestamp. -/
def Converts (f : Fields) (result : Option Int32) : Prop :=
  ∀ t : ℤ, result.map Int32.toInt = some t ↔ f.Valid ∧ f.timestamp < 2 ^ 31 ∧ t = f.timestamp

variable {year mon mday hour min sec : Int32}

lemma utcTime_of_valid (hvalid : (fieldsOf year mon mday hour min sec).Valid) :
    (utcTime year mon mday hour min sec).map Int32.toInt =
      if (fieldsOf year mon mday hour min sec).timestamp % 2 ^ 32 < 2 ^ 31 then
        some ((fieldsOf year mon mday hour min sec).timestamp.bmod (2 ^ 32))
      else none := by
  have hint : (utcSum year mon mday hour min sec).toInt = (fieldsOf year mon mday hour min sec).timestamp.bmod (2 ^ 32) := by
    rw [utcSum_ofInt hvalid, Int32.toInt_ofInt]
    rfl
  have hzero : 0 ≤ utcSum year mon mday hour min sec ↔
      (fieldsOf year mon mday hour min sec).timestamp % 2 ^ 32 < 2 ^ 31 := by
    rw [← bmod_nonneg_iff, ← hint, Int32.le_iff_toInt_le]
    rfl
  rw [utcTime, if_pos (valid_iff.mp hvalid)]
  simp only [hzero]
  split_ifs
  · rw [Option.map_some, hint]
  · rfl

lemma utcTime_of_invalid (h : ¬ (fieldsOf year mon mday hour min sec).Valid) : utcTime year mon mday hour min sec = none :=
  if_neg (mt valid_iff.mpr h)

theorem utc_time_converts_unless_wrapped (year mon mday hour min sec : Int32) :
    Converts (fieldsOf year mon mday hour min sec) (utcTime year mon mday hour min sec) ↔
      ¬ Wraps (fieldsOf year mon mday hour min sec) := by
  by_cases hvalid : (fieldsOf year mon mday hour min sec).Valid
  · have hnonneg := hvalid.timestamp_nonneg
    have hresult := utcTime_of_valid hvalid
    rw [Converts, hresult, Wraps]
    generalize fieldsOf year mon mday hour min sec = f at *
    by_cases hmod : f.timestamp % 2 ^ 32 < 2 ^ 31
    · rw [if_pos hmod]
      by_cases hfits : f.timestamp < 2 ^ 31
      · refine iff_of_true ?_ fun h => absurd hfits (not_lt.mpr h.2.1)
        intro t
        rw [bmod_self (by omega) hfits, Option.some_inj]
        exact ⟨fun h => ⟨hvalid, hfits, h.symm⟩, fun h => h.2.2.symm⟩
      · refine iff_of_false ?_ (not_not.mpr ⟨hvalid, not_lt.mp hfits, hmod⟩)
        intro hconverts
        exact hfits ((hconverts _).mp rfl).2.1
    · rw [if_neg hmod]
      refine iff_of_true ?_ fun h => hmod h.2.2
      intro t
      exact iff_of_false (by simp) fun h => hmod (by omega)
  · rw [utcTime_of_invalid hvalid]
    exact iff_of_true (fun t => iff_of_false (by simp) fun h => hvalid h.1) fun h => hvalid h.1

-- The first second of 2110 is taken for one of 1973.
theorem new_year_of_2110_wraps : ¬ Converts (fieldsOf 2110 1 1 0 0 0) (utcTime 2110 1 1 0 0 0) := by
  intro h
  have hresult : utcTime 2110 1 1 0 0 0 = some 123010304 := by decide
  rw [hresult] at h
  exact absurd ((h 123010304).mp rfl).2.1 (by decide)

end Glaber.Time
