import Mathlib.Tactic

/-! The Gregorian calendar from 1970 on: the date of every day, counted from the first, and the number of every date. -/

namespace Glaber.Lib.Calendar

def isLeap (year : ℕ) : Bool := year % 4 = 0 ∧ (year % 100 ≠ 0 ∨ year % 400 = 0)

def daysIn (year : ℕ) : ℕ → ℕ
  | 2 => if isLeap year then 29 else 28
  | 4 | 6 | 9 | 11 => 30
  | _ => 31

@[ext] structure Date where
  year : ℕ
  mon : ℕ
  day : ℕ
deriving DecidableEq

structure Date.Valid (d : Date) : Prop where
  year : 1970 ≤ d.year
  mon : 1 ≤ d.mon ∧ d.mon ≤ 12
  day : 1 ≤ d.day ∧ d.day ≤ daysIn d.year d.mon

def Date.next (d : Date) : Date :=
  if d.day < daysIn d.year d.mon then { d with day := d.day + 1 }
  else if d.mon < 12 then ⟨d.year, d.mon + 1, 1⟩
  else ⟨d.year + 1, 1, 1⟩

def dateOf : ℕ → Date
  | 0 => ⟨1970, 1, 1⟩
  | n + 1 => (dateOf n).next

def leaps (year : ℕ) : ℕ := year / 4 - year / 100 + year / 400

def monthStart (year : ℕ) : ℕ → ℕ
  | 1 => 0
  | 2 => 31
  | 3 => if isLeap year then 60 else 59
  | 4 => if isLeap year then 91 else 90
  | 5 => if isLeap year then 121 else 120
  | 6 => if isLeap year then 152 else 151
  | 7 => if isLeap year then 182 else 181
  | 8 => if isLeap year then 213 else 212
  | 9 => if isLeap year then 244 else 243
  | 10 => if isLeap year then 274 else 273
  | 11 => if isLeap year then 305 else 304
  | _ => if isLeap year then 335 else 334

def daysBefore (year mon : ℕ) : ℕ := 365 * (year - 1970) + (leaps (year - 1) - leaps 1969) + monthStart year mon

def Date.number (d : Date) : ℕ := daysBefore d.year d.mon + (d.day - 1)

def weekday (n : ℕ) : ℕ := (n + 3) % 7 + 1

lemma leaps_succ (year : ℕ) : leaps (year + 1) = leaps year + if isLeap (year + 1) then 1 else 0 := by
  have hcenturies : year / 100 ≤ year / 4 := Nat.div_le_div_left (by decide) (by decide)
  have h100 : (year + 1) % 100 = 0 → (year + 1) % 4 = 0 := fun h =>
    Nat.mod_mod_of_dvd (year + 1) (by decide : 4 ∣ 100) ▸ by rw [h]
  have h400 : (year + 1) % 400 = 0 → (year + 1) % 100 = 0 := fun h =>
    Nat.mod_mod_of_dvd (year + 1) (by decide : 100 ∣ 400) ▸ by rw [h]
  simp only [leaps, isLeap, decide_eq_true_eq, Nat.succ_div, Nat.dvd_iff_mod_eq_zero]
  generalize (year + 1) % 4 = r4, (year + 1) % 100 = r100, (year + 1) % 400 = r400 at *
  generalize year / 4 = q4, year / 100 = q100, year / 400 = q400 at *
  split_ifs <;> omega

lemma leaps_1969 : leaps 1969 = 477 := by decide

lemma leaps_base {year : ℕ} (h : 1969 ≤ year) : 477 ≤ leaps year := by
  simp only [leaps]
  omega

lemma daysBefore_succ_mon (year : ℕ) {mon : ℕ} (hmon : 1 ≤ mon) (hmax : mon < 12) :
    daysBefore year (mon + 1) = daysBefore year mon + daysIn year mon := by
  simp only [daysBefore, add_assoc]
  congr 2
  interval_cases mon <;> simp only [monthStart, daysIn] <;> split_ifs <;> rfl

lemma daysBefore_succ_year {year : ℕ} (h : 1970 ≤ year) :
    daysBefore (year + 1) 1 = daysBefore year 12 + daysIn year 12 := by
  obtain ⟨y, rfl⟩ : ∃ y, year = y + 1 := ⟨year - 1, by omega⟩
  have hbase := leaps_base (show 1969 ≤ y by omega)
  simp only [daysBefore, monthStart, daysIn, Nat.add_sub_cancel, leaps_succ y, leaps_1969]
  split_ifs <;> omega

lemma daysIn_pos (year mon : ℕ) : 28 ≤ daysIn year mon ∧ daysIn year mon ≤ 31 := by
  rw [daysIn.eq_def]
  split <;> [split_ifs; skip; skip; skip; skip; skip] <;> omega

lemma valid_mk {year mon day : ℕ} (hyear : 1970 ≤ year) (hmon : 1 ≤ mon) (hmon' : mon ≤ 12) (hday : 1 ≤ day)
    (hday' : day ≤ daysIn year mon) : (Date.mk year mon day).Valid :=
  ⟨hyear, ⟨hmon, hmon'⟩, hday, hday'⟩

lemma Date.Valid.next {d : Date} (h : d.Valid) : d.next.Valid := by
  obtain ⟨hy, ⟨hm1, hm12⟩, ⟨hd1, hd⟩⟩ := h
  rw [Date.next]
  split_ifs with hday hmon
  · exact valid_mk hy hm1 hm12 (Nat.le_succ_of_le hd1) hday
  · have := daysIn_pos d.year (d.mon + 1)
    exact valid_mk hy (by omega) hmon le_rfl (by omega)
  · have := daysIn_pos (d.year + 1) 1
    exact valid_mk (Nat.le_succ_of_le hy) le_rfl (by omega) le_rfl (by omega)

lemma Date.Valid.number_next {d : Date} (h : d.Valid) : d.next.number = d.number + 1 := by
  obtain ⟨hy, ⟨hm1, hm12⟩, ⟨hd1, hd⟩⟩ := h
  rw [Date.next]
  split_ifs with hday hmon
  · simp only [Date.number]
    omega
  · have := daysBefore_succ_mon d.year hm1 hmon
    simp only [Date.number]
    omega
  · have := daysBefore_succ_year hy
    have hdec : d.mon = 12 := by omega
    rw [hdec] at hd hday
    simp only [Date.number, hdec]
    omega

lemma dateOf_valid (n : ℕ) : (dateOf n).Valid := by
  induction n with
  | zero => exact ⟨le_rfl, by decide, by decide⟩
  | succ n ih => exact ih.next

@[simp] lemma number_dateOf (n : ℕ) : (dateOf n).number = n := by
  induction n with
  | zero => decide
  | succ n ih => rw [dateOf, (dateOf_valid n).number_next, ih]

lemma Date.Valid.exists_prev {d : Date} (h : d.Valid) (hne : d ≠ ⟨1970, 1, 1⟩) : ∃ p : Date, p.Valid ∧ p.next = d := by
  obtain ⟨⟨y, m, day⟩⟩ : ∃ e : Date, d = e := ⟨d, rfl⟩
  subst_vars
  obtain ⟨hy, ⟨hm1, hm12⟩, ⟨hd1, hd⟩⟩ := h
  simp only at hy hm1 hm12 hd1 hd
  by_cases hday : day = 1
  · subst hday
    by_cases hmon : m = 1
    · subst hmon
      have hyear : 1970 < y := lt_of_le_of_ne hy fun h => hne (by rw [h])
      obtain ⟨y, rfl⟩ : ∃ z, y = z + 1 := ⟨y - 1, by omega⟩
      exact ⟨⟨y, 12, 31⟩, valid_mk (by omega) (by omega) le_rfl (by omega) le_rfl, by simp [Date.next, daysIn]⟩
    · obtain ⟨m, rfl⟩ : ∃ k, m = k + 1 := ⟨m - 1, by omega⟩
      have := daysIn_pos y m
      refine ⟨⟨y, m, daysIn y m⟩, valid_mk hy (by omega) (by omega) (by omega) le_rfl, ?_⟩
      rw [Date.next, if_neg (lt_irrefl _), if_pos (by simp only; omega)]
  · obtain ⟨day, rfl⟩ : ∃ k, day = k + 1 := ⟨day - 1, by omega⟩
    refine ⟨⟨y, m, day⟩, valid_mk hy hm1 hm12 (by omega) (by omega), ?_⟩
    rw [Date.next, if_pos (by simp only; omega)]

lemma Date.Valid.dateOf_number {d : Date} (h : d.Valid) : dateOf d.number = d := by
  induction hn : d.number generalizing d with
  | zero =>
    by_contra hne
    obtain ⟨p, hp, rfl⟩ := h.exists_prev fun heq => hne heq.symm
    rw [hp.number_next] at hn
    cases hn
  | succ n ih =>
    have hne : d ≠ ⟨1970, 1, 1⟩ := by
      rintro rfl
      cases hn
    obtain ⟨p, hp, rfl⟩ := h.exists_prev hne
    rw [hp.number_next] at hn
    rw [dateOf, ih hp (Nat.succ.inj hn)]

end Glaber.Lib.Calendar
