import Mathlib.Tactic

/-! The Gregorian calendar in both directions from 1970: days are integers, and every one of them has its date. -/

namespace Glaber.Lib.Gregorian

section

def isLeap (year : ℤ) : Bool := year % 4 = 0 ∧ (year % 100 ≠ 0 ∨ year % 400 = 0)

def yearLength (year : ℤ) : ℤ := if isLeap year then 366 else 365

def leaps (year : ℤ) : ℤ := year / 4 - year / 100 + year / 400

def jan1 (year : ℤ) : ℤ := 365 * (year - 1970) + (leaps (year - 1) - leaps 1969)

lemma leaps_1969 : leaps 1969 = 477 := by decide

lemma leaps_succ (year : ℤ) : leaps (year + 1) = leaps year + if isLeap (year + 1) then 1 else 0 := by
  simp only [leaps, isLeap, decide_eq_true_eq]
  split_ifs <;> omega

lemma jan1_succ (year : ℤ) : jan1 (year + 1) = jan1 year + yearLength year := by
  have hleaps := leaps_succ (year - 1)
  rw [sub_add_cancel] at hleaps
  rw [jan1, jan1, add_sub_cancel_right, hleaps, yearLength]
  split_ifs <;> ring

lemma yearLength_bounds (year : ℤ) : 365 ≤ yearLength year ∧ yearLength year ≤ 366 := by
  rw [yearLength]
  split_ifs <;> omega

lemma jan1_strictMono : StrictMono jan1 := by
  apply strictMono_int_of_lt_succ
  intro year
  have := yearLength_bounds year
  have := jan1_succ year
  omega

def yearOf (n : ℤ) : ℤ :=
  let year := 1970 + 400 * n / 146097
  if n < jan1 year then year - 1 else if jan1 (year + 1) ≤ n then year + 1 else year

lemma guess_near (n : ℤ) : jan1 (1970 + 400 * n / 146097 - 1) ≤ n ∧ n < jan1 (1970 + 400 * n / 146097 + 1 + 1) := by
  obtain ⟨q, hq⟩ : ∃ q, 400 * n / 146097 = q := ⟨_, rfl⟩
  rw [hq, jan1, jan1, leaps_1969, leaps, leaps]
  constructor <;> omega

lemma yearOf_spec (n : ℤ) : jan1 (yearOf n) ≤ n ∧ n < jan1 (yearOf n + 1) := by
  obtain ⟨hlow, hhigh⟩ := guess_near n
  simp only [yearOf]
  split_ifs with hbefore hafter
  · rw [sub_add_cancel]
    exact ⟨hlow, hbefore⟩
  · exact ⟨hafter, hhigh⟩
  · exact ⟨not_lt.mp hbefore, not_le.mp hafter⟩

lemma yearOf_unique {n year : ℤ} (hfrom : jan1 year ≤ n) (hto : n < jan1 (year + 1)) : yearOf n = year := by
  obtain ⟨hlow, hhigh⟩ := yearOf_spec n
  have h1 := jan1_strictMono.lt_iff_lt.mp (hlow.trans_lt hto)
  have h2 := jan1_strictMono.lt_iff_lt.mp (hfrom.trans_lt hhigh)
  omega

end

section

variable (leap : Bool)

def daysIn : ℕ → ℤ
  | 2 => if leap then 29 else 28
  | 4 | 6 | 9 | 11 => 30
  | _ => 31

def monthStart (leap : Bool) : ℕ → ℤ
  | 0 => 0
  | 1 => 0
  | mon + 1 => monthStart leap mon + daysIn leap mon

def lastMonth (leap : Bool) (yday : ℤ) : ℕ → ℕ
  | 0 => 0
  | mon + 1 => if monthStart leap (mon + 1) ≤ yday then mon + 1 else lastMonth leap yday mon

lemma monthStart_succ {mon : ℕ} (hmon : 1 ≤ mon) :
    monthStart leap (mon + 1) = monthStart leap mon + daysIn leap mon := by
  obtain ⟨k, rfl⟩ := Nat.exists_eq_add_of_le' hmon
  rfl

lemma daysIn_bounds (mon : ℕ) : 28 ≤ daysIn leap mon ∧ daysIn leap mon ≤ 31 := by
  rw [daysIn.eq_def]
  split <;> [split_ifs; skip; skip; skip; skip; skip] <;> omega

lemma monthStart_mono : Monotone (monthStart leap) := by
  apply monotone_nat_of_le_succ
  intro mon
  cases mon with
  | zero => exact le_rfl
  | succ mon =>
    have hstep := monthStart_succ leap (Nat.le_add_left 1 mon)
    have hdays := daysIn_bounds leap (mon + 1)
    omega

lemma monthStart_thirteen : monthStart leap 13 = if leap then 366 else 365 := by
  cases leap <;> decide

lemma lastMonth_spec {yday : ℤ} (mon : ℕ) (hmon : 1 ≤ mon) (hfrom : 0 ≤ yday)
    (hto : yday < monthStart leap (mon + 1)) :
    (1 ≤ lastMonth leap yday mon ∧ lastMonth leap yday mon ≤ mon) ∧ monthStart leap (lastMonth leap yday mon) ≤ yday ∧
      yday < monthStart leap (lastMonth leap yday mon + 1) := by
  induction mon with
  | zero => cases hmon
  | succ mon ih =>
    rw [lastMonth]
    split_ifs with hbegun
    · exact ⟨⟨hmon, le_rfl⟩, hbegun, hto⟩
    · have hpos : 1 ≤ mon := by
        by_contra hzero
        obtain rfl : mon = 0 := by omega
        exact hbegun hfrom
      obtain ⟨⟨hlow, hhigh⟩, hrest⟩ := ih hpos (not_le.mp hbegun)
      exact ⟨⟨hlow, Nat.le_succ_of_le hhigh⟩, hrest⟩

lemma month_unique {leap : Bool} {yday : ℤ} {a b : ℕ} (ha : monthStart leap a ≤ yday ∧ yday < monthStart leap (a + 1))
    (hb : monthStart leap b ≤ yday ∧ yday < monthStart leap (b + 1)) : a = b := by
  have hmono := monthStart_mono leap
  rcases Nat.lt_trichotomy a b with hlt | heq | hlt
  · have : monthStart leap (a + 1) ≤ monthStart leap b := hmono hlt
    omega
  · exact heq
  · have : monthStart leap (b + 1) ≤ monthStart leap a := hmono hlt
    omega

end

section

@[ext] structure Date where
  year : ℤ
  mon : ℕ
  day : ℤ
  deriving DecidableEq, Repr

structure Date.Valid (d : Date) : Prop where
  mon : 1 ≤ d.mon ∧ d.mon ≤ 12
  day : 1 ≤ d.day ∧ d.day ≤ daysIn (isLeap d.year) d.mon

def Date.yday (d : Date) : ℤ := monthStart (isLeap d.year) d.mon + (d.day - 1)

def Date.number (d : Date) : ℤ := jan1 d.year + d.yday

def dateOf (n : ℤ) : Date :=
  let year := yearOf n
  let yday := n - jan1 year
  let mon := lastMonth (isLeap year) yday 12
  ⟨year, mon, yday - monthStart (isLeap year) mon + 1⟩

def weekday (n : ℤ) : ℤ := (n + 3) % 7

lemma yday_lt {year n : ℤ} (h : n < jan1 (year + 1)) : n - jan1 year < monthStart (isLeap year) 13 := by
  have hstep := jan1_succ year
  rw [yearLength] at hstep
  rw [monthStart_thirteen]
  omega

lemma dateOf_valid (n : ℤ) : (dateOf n).Valid := by
  obtain ⟨hlow, hhigh⟩ := yearOf_spec n
  obtain ⟨hmon, hbegun, hnext⟩ :=
    lastMonth_spec (isLeap (yearOf n)) 12 (by decide) (sub_nonneg.mpr hlow) (yday_lt hhigh)
  have hstep := monthStart_succ (isLeap (yearOf n)) hmon.1
  refine ⟨hmon, ?_, ?_⟩ <;> simp only [dateOf] <;> omega

lemma number_dateOf (n : ℤ) : (dateOf n).number = n := by
  simp only [Date.number, Date.yday, dateOf]
  ring

lemma Date.Valid.yday_bounds {d : Date} (h : d.Valid) : 0 ≤ d.yday ∧ d.yday < yearLength d.year := by
  have hfirst := monthStart_mono (isLeap d.year) h.mon.1
  have hlast : monthStart (isLeap d.year) (d.mon + 1) ≤ monthStart (isLeap d.year) 13 :=
    monthStart_mono (isLeap d.year) (Nat.succ_le_succ h.mon.2)
  have hstep := monthStart_succ (isLeap d.year) h.mon.1
  have hyear := monthStart_thirteen (isLeap d.year)
  have hzero : monthStart (isLeap d.year) 1 = 0 := rfl
  have hday := h.day
  rw [Date.yday, yearLength]
  omega

lemma Date.Valid.yearOf_number {d : Date} (h : d.Valid) : yearOf d.number = d.year := by
  obtain ⟨hlow, hhigh⟩ := h.yday_bounds
  apply yearOf_unique
  · rw [Date.number]
    omega
  · rw [Date.number, jan1_succ]
    omega

lemma Date.Valid.dateOf_number {d : Date} (h : d.Valid) : dateOf d.number = d := by
  have hyear := h.yearOf_number
  obtain ⟨hlow, hhigh⟩ := h.yday_bounds
  have hyday : d.number - jan1 d.year = d.yday := by
    rw [Date.number]
    ring
  have hmon : lastMonth (isLeap d.year) d.yday 12 = d.mon := by
    have hto : d.yday < monthStart (isLeap d.year) 13 := by rwa [monthStart_thirteen, ← yearLength]
    apply month_unique (lastMonth_spec (isLeap d.year) 12 (by decide) hlow hto).2
    have hstep := monthStart_succ (isLeap d.year) h.mon.1
    have hday := h.day
    rw [Date.yday]
    omega
  ext
  · simp only [dateOf, hyear]
  · simp only [dateOf, hyear, hyday, hmon]
  · simp only [dateOf, hyear, hyday, hmon]
    rw [Date.yday]
    ring

def Date.first (d : Date) : ℤ := jan1 d.year + monthStart (isLeap d.year) d.mon

lemma Date.number_eq_first (d : Date) : d.number = d.first + (d.day - 1) := by
  rw [Date.number, Date.yday, Date.first, add_assoc]

lemma monthStart_leap_succ (year : ℤ) : jan1 (year + 1) = jan1 year + monthStart (isLeap year) 13 := by
  rw [jan1_succ, monthStart_thirteen, yearLength]

lemma Date.Valid.dateOf_within {d : Date} (h : d.Valid) {n : ℤ} (hfrom : d.first ≤ n)
    (hto : n < d.first + daysIn (isLeap d.year) d.mon) : dateOf n = ⟨d.year, d.mon, n - d.first + 1⟩ := by
  have hday : 1 ≤ n - d.first + 1 ∧ n - d.first + 1 ≤ daysIn (isLeap d.year) d.mon := by omega
  have hvalid : (Date.mk d.year d.mon (n - d.first + 1)).Valid := ⟨h.mon, hday⟩
  have hnumber : (Date.mk d.year d.mon (n - d.first + 1)).number = n := by
    rw [Date.number_eq_first, Date.first, Date.first]
    ring
  rw [← hnumber, hvalid.dateOf_number, hnumber]

end

section

def monthFrom (n : ℤ) : ℤ :=
  let d := dateOf n
  if d.day = 1 then n else d.first + daysIn (isLeap d.year) d.mon

def yearFrom (n : ℤ) : ℤ := if n = jan1 (yearOf n) then n else jan1 (yearOf n + 1)

def Date.nextMonth (d : Date) : Date := if d.mon < 12 then ⟨d.year, d.mon + 1, 1⟩ else ⟨d.year + 1, 1, 1⟩

lemma valid_first (year : ℤ) (mon : ℕ) (hmon : 1 ≤ mon ∧ mon ≤ 12) : (Date.mk year mon 1).Valid := by
  have hdays := daysIn_bounds (isLeap year) mon
  exact ⟨hmon, le_rfl, by simp only; omega⟩

lemma Date.Valid.nextMonth {d : Date} (h : d.Valid) :
    d.nextMonth.Valid ∧ d.nextMonth.number = d.first + daysIn (isLeap d.year) d.mon := by
  have hmon := h.mon
  rw [Date.nextMonth]
  split_ifs with hlast
  · refine ⟨valid_first d.year (d.mon + 1) (by omega), ?_⟩
    have hstep := monthStart_succ (isLeap d.year) h.mon.1
    simp only [Date.number_eq_first, Date.first]
    omega
  · refine ⟨valid_first (d.year + 1) 1 (by omega), ?_⟩
    have hdec : d.mon = 12 := by omega
    have hstep : monthStart (isLeap d.year) 13 = monthStart (isLeap d.year) 12 + daysIn (isLeap d.year) 12 :=
      monthStart_succ (isLeap d.year) (by decide)
    have hyear := monthStart_leap_succ d.year
    have hzero : monthStart (isLeap (d.year + 1)) 1 = 0 := rfl
    simp only [Date.number_eq_first, Date.first, hdec]
    omega

lemma monthFrom_least (n : ℤ) : IsLeast {k | n ≤ k ∧ (dateOf k).day = 1} (monthFrom n) := by
  have hvalid := dateOf_valid n
  have hnumber := number_dateOf n
  rw [Date.number_eq_first] at hnumber
  obtain ⟨hlow, hhigh⟩ := hvalid.day
  simp only [monthFrom]
  split_ifs with hfirst
  · exact ⟨⟨le_rfl, hfirst⟩, fun k hk => hk.1⟩
  · obtain ⟨hnext, hsame⟩ := hvalid.nextMonth
    refine ⟨⟨by omega, ?_⟩, ?_⟩
    · rw [← hsame, hnext.dateOf_number, Date.nextMonth]
      split_ifs <;> rfl
    · rintro k ⟨hle, hday⟩
      by_contra hlt
      have hwithin := hvalid.dateOf_within (by omega) (not_le.mp hlt)
      rw [hwithin] at hday
      simp only at hday
      omega

lemma yearFrom_least (n : ℤ) : IsLeast {k | n ≤ k ∧ k = jan1 (yearOf k)} (yearFrom n) := by
  obtain ⟨hlow, hhigh⟩ := yearOf_spec n
  rw [yearFrom]
  split_ifs with hfirst
  · exact ⟨⟨le_rfl, hfirst⟩, fun k hk => hk.1⟩
  · have hself : yearOf (jan1 (yearOf n + 1)) = yearOf n + 1 := yearOf_unique le_rfl (jan1_strictMono (lt_add_one _))
    refine ⟨⟨hhigh.le, by rw [hself]⟩, ?_⟩
    rintro k ⟨hle, hk⟩
    rw [hk]
    apply jan1_strictMono.monotone
    have hlt : jan1 (yearOf n) < jan1 (yearOf k) := by omega
    have := jan1_strictMono.lt_iff_lt.mp hlt
    omega

lemma first_of_year_iff (n : ℤ) : (dateOf n).day = 1 ∧ (dateOf n).mon = 1 ↔ n = jan1 (yearOf n) := by
  have hnumber := number_dateOf n
  constructor
  · rintro ⟨hday, hmon⟩
    rw [Date.number, Date.yday, hday, hmon] at hnumber
    have hyear : (dateOf n).year = yearOf n := rfl
    rw [hyear] at hnumber
    have hzero : monthStart (isLeap (yearOf n)) 1 = 0 := rfl
    omega
  · intro h
    have hvalid := valid_first (yearOf n) 1 (by decide)
    have hsame : (Date.mk (yearOf n) 1 1).number = n := by
      have hzero : monthStart (isLeap (yearOf n)) 1 = 0 := rfl
      simp only [Date.number_eq_first, Date.first, hzero]
      omega
    rw [← hsame, hvalid.dateOf_number]
    exact ⟨rfl, rfl⟩

end

end Glaber.Lib.Gregorian
