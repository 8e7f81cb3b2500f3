import Glaber.Expr.IntervalAgree
import Glaber.Expr.Nextcheck
import Glaber.Lib.Parts
import Glaber.Time.Tm

/-! The texts of time periods (`time_parse`, `time_period_parse`) and the check of a time against a list of them
(`zbx_check_time_period`). -/

namespace Glaber.Expr

open Glaber.Lib.Spans

section

variable {digits rest : List Char} {min max value : ℕ}

def number (digits : List Char) : ℕ := digits.foldl (fun value c => value * 10 + digit c) 0

lemma digit_le {c : Char} (h : c.isDigit) : digit c ≤ 9 := by
  have hhigh : '9'.toNat = 57 := rfl
  rw [Char.isDigit_iff_toNat] at h
  rw [digit]
  omega

lemma le_foldl_digits (value : ℕ) (digits : List Char) :
    value ≤ digits.foldl (fun value c => value * 10 + digit c) value := by
  induction digits generalizing value with
  | nil => exact le_rfl
  | cons c digits ih => exact (by omega : value ≤ value * 10 + digit c).trans (ih _)

lemma readDigits_digits (hdigits : ∀ c ∈ digits, c.isDigit) (hmax : 9 ≤ max) (hvalue : value ≤ max) :
    readDigits max value digits = if digits.foldl (fun value c => value * 10 + digit c) value ≤ max then
      some (digits.foldl (fun value c => value * 10 + digit c) value, []) else none := by
  induction digits generalizing value with
  | nil => rw [List.foldl_nil, if_pos hvalue, readDigits]
  | cons c digits ih =>
    have hc := digit_le (hdigits c List.mem_cons_self)
    have hbound := le_foldl_digits (value * 10 + digit c) digits
    rw [readDigits, if_pos (hdigits c List.mem_cons_self), List.foldl_cons]
    by_cases hlarge : (max - digit c) / 10 < value
    · rw [if_pos hlarge, if_neg (by omega)]
    · rw [if_neg hlarge, ih (fun d hd => hdigits d (List.mem_cons_of_mem _ hd)) (by omega)]

lemma isUintNRange_iff (hmax : max ≤ 18446744073709551615) : isUintNRange digits min max = some value ↔
    digits ≠ [] ∧ (∀ c ∈ digits, c.isDigit) ∧ min ≤ number digits ∧ number digits ≤ max ∧ value = number digits := by
  constructor
  · intro h
    rw [isUintNRange] at h
    split_ifs at h with hempty
    obtain ⟨⟨v, rest⟩, hread, h⟩ := Option.bind_eq_some_iff.mp h
    simp only at h
    split_ifs at h with hbad
    obtain ⟨hrest, hlow, hhigh⟩ : rest = [] ∧ min ≤ v ∧ v ≤ max := by simpa only [not_or, not_not, not_lt] using hbad
    obtain rfl := Option.some_inj.mp h
    obtain ⟨front, rfl, hdigits⟩ := readDigits_split hread
    rw [hrest, List.append_nil] at hread ⊢
    rw [readDigits_digits hdigits (by omega) (Nat.zero_le _)] at hread
    split_ifs at hread
    have hnumber : number front = v := congrArg Prod.fst (Option.some_inj.mp hread)
    rw [hnumber]
    exact ⟨by rwa [hrest, List.append_nil] at hempty, hdigits, hlow, hhigh, rfl⟩
  · rintro ⟨hne, hdigits, hlow, hhigh, rfl⟩
    have hread : readDigits 18446744073709551615 0 digits = some (number digits, []) := by
      rw [readDigits_digits hdigits (by omega) (Nat.zero_le _)]
      exact if_pos (hhigh.trans hmax)
    rw [isUintNRange, if_neg hne, hread, Option.bind_eq_bind, Option.bind_some]
    refine (if_neg ?_).trans rfl
    rintro (h | h | h)
    · exact h rfl
    · omega
    · omega

lemma takeDigits_iff {text : List Char} : takeDigits text = (digits, rest) ↔
    text = digits ++ rest ∧ (∀ c ∈ digits, c.isDigit) ∧ digits.length ≤ 3 ∧
      (digits.length = 3 ∨ Ends Char.isDigit rest) := by
  constructor
  · intro h
    obtain ⟨rfl, rfl⟩ := Prod.mk.inj h
    have hsplit : (text.take 3).takeWhile Char.isDigit ++ (text.take 3).dropWhile Char.isDigit = text.take 3 :=
      List.takeWhile_append_dropWhile
    have hprefix := (List.takeWhile_prefix Char.isDigit).trans (List.take_prefix 3 text)
    have htext := List.prefix_iff_eq_append.mp hprefix
    have hshort : ((text.take 3).takeWhile Char.isDigit).length ≤ 3 := by
      have hlen := congrArg List.length hsplit
      rw [List.length_append, List.length_take] at hlen
      omega
    refine ⟨htext.symm, fun c hc => List.mem_takeWhile_imp hc, hshort, ?_⟩
    have hrest : text.drop ((text.take 3).takeWhile Char.isDigit).length =
        (text.take 3).dropWhile Char.isDigit ++ text.drop 3 := by
      refine List.append_cancel_left (htext.trans ?_)
      rw [← List.append_assoc, hsplit, List.take_append_drop]
    have hends : Ends Char.isDigit ((text.take 3).dropWhile Char.isDigit) := ends_dropWhile _
    cases hafter : (text.take 3).dropWhile Char.isDigit with
    | nil =>
      rw [hafter, List.append_nil] at hsplit
      rw [hsplit, List.length_take]
      by_cases hlong : 3 ≤ text.length
      · exact .inl (Nat.min_eq_left hlong)
      · rw [Nat.min_eq_right (by omega), List.drop_length]
        exact .inr ends_nil
    | cons c after =>
      rw [hafter] at hends
      rw [hrest, hafter]
      exact .inr (ends_cons (hends c rfl) _)
  · rintro ⟨rfl, hdigits, hshort, hends⟩
    have htaken : ((digits ++ rest).take 3).takeWhile Char.isDigit = digits := by
      rw [List.take_append]
      rcases hends with hthree | hends
      · rw [hthree, List.take_of_length_le (by omega), Nat.sub_self, List.take_zero, List.append_nil,
          List.takeWhile_eq_self_iff.mpr hdigits]
      · rw [List.take_of_length_le hshort, takeWhile_run hdigits (hends.take _)]
    rw [takeDigits, htaken, List.drop_left]

end

section

structure TimeText where
  hour : List Char
  minute : List Char

def TimeText.text (t : TimeText) : List Char := t.hour ++ ':' :: t.minute

def TimeText.seconds (t : TimeText) : ℕ := 3600 * number t.hour + 60 * number t.minute

/-- From 00:00 to 24:00. An hour may have a third digit, a zero in front, which the documented formats hh:mm, h:mm and 0h:mm
do not have. -/
structure TimeText.Valid (t : TimeText) : Prop where
  hourDigits : ∀ c ∈ t.hour, c.isDigit
  hourLength : 1 ≤ t.hour.length ∧ t.hour.length ≤ 3
  minuteDigits : ∀ c ∈ t.minute, c.isDigit
  minuteLength : t.minute.length = 2
  hour : number t.hour ≤ 24
  minute : number t.minute ≤ 59
  midnight : number t.hour = 24 → number t.minute = 0

/-- d[-d],time-time -/
structure PeriodText where
  startDay : Char
  endDay : Option Char
  startTime : TimeText
  endTime : TimeText

def PeriodText.text (p : PeriodText) : List Char :=
  p.startDay :: (p.endDay.elim [] (['-', ·]) ++ ',' :: (p.startTime.text ++ '-' :: p.endTime.text))

def PeriodText.value (p : PeriodText) : TimePeriod :=
  ⟨digit p.startDay, digit (p.endDay.getD p.startDay), p.startTime.seconds, p.endTime.seconds⟩

def IsDay (c : Char) : Prop := '1' ≤ c ∧ c ≤ '7'

structure PeriodText.Valid (p : PeriodText) : Prop where
  startDay : IsDay p.startDay
  endDay : ∀ d ∈ p.endDay, IsDay d ∧ digit p.startDay ≤ digit d
  startTime : p.startTime.Valid
  endTime : p.endTime.Valid
  order : p.startTime.seconds < p.endTime.seconds

def PeriodText.ShortHours (p : PeriodText) : Prop := p.startTime.hour.length ≤ 2 ∧ p.endTime.hour.length ≤ 2

def PeriodText.Covers (p : PeriodText) (day sec : ℤ) : Prop :=
  digit p.startDay ≤ day ∧ day ≤ digit (p.endDay.getD p.startDay) ∧ p.startTime.seconds ≤ sec ∧ sec < p.endTime.seconds

def periodsText : List PeriodText → List Char
  | [] => []
  | [p] => p.text
  | p :: q :: periods => p.text ++ ';' :: periodsText (q :: periods)

end

section

variable {text rest : List Char} {sec : ℕ} {t t' : TimeText}

lemma colon_ends (rest : List Char) : Ends Char.isDigit (':' :: rest) := ends_cons rfl rest

lemma timeParse_iff : timeParse text = some (sec, rest) ↔
    ∃ t : TimeText, text = t.text ++ rest ∧ t.Valid ∧ Ends Char.isDigit rest ∧ sec = t.seconds := by
  constructor
  · intro h
    rw [timeParse] at h
    generalize htake : takeDigits text = taken at h
    obtain ⟨hour, after⟩ := taken
    obtain ⟨rfl, -, hshort, -⟩ := takeDigits_iff.mp htake
    simp only at h
    split at h
    · rename_i hours after' hhours
      obtain ⟨hne, hdigits, -, hmax, rfl⟩ := (isUintNRange_iff (by decide)).mp hhours
      generalize htake' : takeDigits after' = taken at h
      obtain ⟨minute, rest'⟩ := taken
      obtain ⟨rfl, -, -, hends⟩ := takeDigits_iff.mp htake'
      simp only at h
      split_ifs at h with hlength
      rw [not_not] at hlength
      split at h
      · cases h
      · rename_i minutes hminutes
        obtain ⟨-, hdigits', -, hmax', rfl⟩ := (isUintNRange_iff (by decide)).mp hminutes
        split_ifs at h with hmidnight
        obtain ⟨rfl, rfl⟩ := Prod.mk.inj (Option.some_inj.mp h)
        refine ⟨⟨hour, minute⟩, by simp [TimeText.text], ⟨hdigits, ⟨List.length_pos_iff.mpr hne, hshort⟩, hdigits',
          hlength, hmax, hmax', fun h24 => ?_⟩, hends.resolve_left (by omega), rfl⟩
        by_contra hzero
        exact hmidnight ⟨h24, hzero⟩
    · cases h
  · rintro ⟨⟨hour, minute⟩, rfl, hvalid, hends, rfl⟩
    obtain ⟨hdigits, hlength, hdigits', hlength', hmax, hmax', hmidnight⟩ := hvalid
    simp only at hdigits hlength hdigits' hlength' hmax hmax' hmidnight
    have htake : takeDigits (hour ++ ':' :: (minute ++ rest)) = (hour, ':' :: (minute ++ rest)) :=
      takeDigits_iff.mpr ⟨rfl, hdigits, hlength.2, .inr (colon_ends _)⟩
    have htake' : takeDigits (minute ++ rest) = (minute, rest) :=
      takeDigits_iff.mpr ⟨rfl, hdigits', by omega, .inr hends⟩
    have hhours : isUintNRange hour 0 24 = some (number hour) :=
      (isUintNRange_iff (by decide)).mpr ⟨List.length_pos_iff.mp hlength.1, hdigits, Nat.zero_le _, hmax, rfl⟩
    have hminutes : isUintNRange minute 0 59 = some (number minute) :=
      (isUintNRange_iff (by decide)).mpr ⟨List.length_pos_iff.mp (by omega), hdigits', Nat.zero_le _, hmax', rfl⟩
    rw [TimeText.text, List.append_assoc, List.cons_append, timeParse, htake]
    simp only [hhours, htake', hminutes]
    rw [if_neg (not_not.mpr hlength'), if_neg fun h => h.2 (hmidnight h.1)]
    rfl

lemma TimeText.Valid.text_inj {rest' : List Char} (h : t.Valid) (h' : t'.Valid) (hends : Ends Char.isDigit rest)
    (hends' : Ends Char.isDigit rest') (htext : t.text ++ rest = t'.text ++ rest') : t = t' ∧ rest = rest' := by
  rw [TimeText.text, TimeText.text, List.append_assoc, List.append_assoc] at htext
  obtain ⟨hhour, htail⟩ := run_inj h.hourDigits h'.hourDigits (colon_ends _) (colon_ends _) htext
  obtain ⟨hminute, rfl⟩ := run_inj h.minuteDigits h'.minuteDigits hends hends' (List.cons.inj htail).2
  obtain ⟨hour, minute⟩ := t
  obtain ⟨hour', minute'⟩ := t'
  obtain rfl : hour = hour' := hhour
  obtain rfl : minute = minute' := hminute
  exact ⟨rfl, rfl⟩

end

section

variable {text : List Char} {p p' : PeriodText} {tp : TimePeriod}

lemma dayParse_iff {rest : List Char} {day : ℕ} : dayParse text = some (day, rest) ↔
    ∃ c, text = c :: rest ∧ IsDay c ∧ day = digit c := by
  cases text with
  | nil => simp [dayParse]
  | cons c tail =>
    rw [dayParse]
    split_ifs with h
    · refine iff_of_false (by simp) ?_
      rintro ⟨d, htext, hday, -⟩
      obtain ⟨rfl, -⟩ := List.cons.inj htext
      exact h.elim (Char.not_lt.mpr hday.1) (Char.not_lt.mpr hday.2)
    · rw [not_or, Char.not_lt, Char.not_lt] at h
      constructor
      · intro hsome
        obtain ⟨rfl, rfl⟩ := Prod.mk.inj (Option.some_inj.mp hsome)
        exact ⟨c, rfl, h, rfl⟩
      · rintro ⟨d, htext, -, rfl⟩
        obtain ⟨rfl, rfl⟩ := List.cons.inj htext
        rfl

lemma expect_iff {c : Char} {rest : List Char} : expect c text = some rest ↔ text = c :: rest := by
  cases text with
  | nil => simp [expect]
  | cons d tail =>
    rw [expect]
    split_ifs with h
    · rw [Option.some_inj, h, List.cons.injEq]
      exact (and_iff_right rfl).symm
    · exact iff_of_false (by simp) fun htext => h (List.cons.inj htext).1

lemma endDayParse_iff {startDay : Char} {day : ℕ} {rest : List Char} :
    endDayParse (digit startDay) text = some (day, ',' :: rest) ↔ ∃ endDay : Option Char,
      text = endDay.elim [] (['-', ·]) ++ ',' :: rest ∧ (∀ d ∈ endDay, IsDay d ∧ digit startDay ≤ digit d) ∧
        day = digit (endDay.getD startDay) := by
  constructor
  · intro h
    rw [endDayParse.eq_def] at h
    split at h
    · obtain ⟨⟨d, rest'⟩, hday, h⟩ := Option.bind_eq_some_iff.mp h
      obtain ⟨c, rfl, hc, rfl⟩ := dayParse_iff.mp hday
      simp only at h
      split_ifs at h with horder
      obtain ⟨rfl, rfl⟩ := Prod.mk.inj (Option.some_inj.mp h)
      refine ⟨some c, rfl, ?_, rfl⟩
      intro d hd
      obtain rfl := Option.some_inj.mp hd
      exact ⟨hc, not_lt.mp horder⟩
    · obtain ⟨rfl, rfl⟩ := Prod.mk.inj (Option.some_inj.mp h)
      exact ⟨none, rfl, by simp, rfl⟩
  · rintro ⟨endDay, rfl, hday, rfl⟩
    cases endDay with
    | none => rfl
    | some c =>
      obtain ⟨hc, horder⟩ := hday c rfl
      have hparse : dayParse (c :: ',' :: rest) = some (digit c, ',' :: rest) := dayParse_iff.mpr ⟨c, rfl, hc, rfl⟩
      simp only [Option.elim_some, List.cons_append, List.nil_append, endDayParse, hparse, Option.bind_eq_bind,
        Option.bind_some]
      rw [if_neg (not_lt.mpr horder)]
      rfl

lemma dash_ends (rest : List Char) : Ends Char.isDigit ('-' :: rest) := ends_cons rfl rest

lemma timePeriodParse_iff : timePeriodParse text = some tp ↔ ∃ p : PeriodText, p.text = text ∧ p.Valid ∧ tp = p.value := by
  constructor
  · intro h
    obtain ⟨⟨startDay, text₁⟩, hstart, h⟩ := Option.bind_eq_some_iff.mp h
    obtain ⟨⟨endDay, text₂⟩, hend, h⟩ := Option.bind_eq_some_iff.mp h
    obtain ⟨text₃, hcomma, h⟩ := Option.bind_eq_some_iff.mp h
    obtain ⟨⟨startTime, text₄⟩, hfirst, h⟩ := Option.bind_eq_some_iff.mp h
    obtain ⟨text₅, hdash, h⟩ := Option.bind_eq_some_iff.mp h
    obtain ⟨⟨endTime, text₆⟩, hlast, h⟩ := Option.bind_eq_some_iff.mp h
    simp only at hend hcomma hfirst hdash hlast h
    split_ifs at h with hbad
    obtain ⟨horder, rfl⟩ : startTime < endTime ∧ text₆ = [] := by simpa only [not_or, not_le, not_not] using hbad
    obtain rfl := Option.some_inj.mp h
    obtain ⟨c, rfl, hc, rfl⟩ := dayParse_iff.mp hstart
    obtain rfl := expect_iff.mp hcomma
    obtain ⟨d, rfl, hd, rfl⟩ := endDayParse_iff.mp hend
    obtain ⟨t, rfl, ht, -, rfl⟩ := timeParse_iff.mp hfirst
    obtain rfl := expect_iff.mp hdash
    obtain ⟨t', rfl, ht', -, rfl⟩ := timeParse_iff.mp hlast
    exact ⟨⟨c, d, t, t'⟩, by simp [PeriodText.text], ⟨hc, hd, ht, ht', horder⟩, rfl⟩
  · rintro ⟨⟨c, d, t, t'⟩, rfl, ⟨hc, hd, ht, ht', horder⟩, rfl⟩
    simp only at hc hd ht ht' horder
    have hfirst : timeParse (t.text ++ '-' :: t'.text) = some (t.seconds, '-' :: t'.text) :=
      timeParse_iff.mpr ⟨t, rfl, ht, dash_ends _, rfl⟩
    have hlast : timeParse t'.text = some (t'.seconds, []) :=
      timeParse_iff.mpr ⟨t', (List.append_nil _).symm, ht', ends_nil, rfl⟩
    have hbad : ¬ (t'.seconds ≤ t.seconds ∨ ([] : List Char) ≠ []) := by
      rintro (h | h)
      · omega
      · exact h rfl
    rw [timePeriodParse, PeriodText.text, dayParse_iff.mpr ⟨c, rfl, hc, rfl⟩, Option.bind_eq_bind, Option.bind_some]
    simp only [endDayParse_iff.mpr ⟨d, rfl, hd, rfl⟩, expect_iff.mpr rfl, hfirst, hlast, Option.bind_eq_bind,
      Option.bind_some]
    rw [if_neg hbad]
    rfl

lemma PeriodText.Valid.text_inj (h : p.Valid) (h' : p'.Valid) (htext : p.text = p'.text) : p = p' := by
  obtain ⟨c, d, t, u⟩ := p
  obtain ⟨c', d', t', u'⟩ := p'
  obtain ⟨-, -, ht, hu, -⟩ := h
  obtain ⟨-, -, ht', hu', -⟩ := h'
  simp only at ht hu ht' hu'
  simp only [PeriodText.text, List.cons.injEq] at htext
  obtain ⟨rfl, htail⟩ := htext
  obtain ⟨rfl, htimes⟩ : d = d' ∧ t.text ++ '-' :: u.text = t'.text ++ '-' :: u'.text := by
    cases d with
    | none =>
      cases d' with
      | none => exact ⟨rfl, (List.cons.inj htail).2⟩
      | some d' => exact absurd (List.cons.inj htail).1 (by decide)
    | some d =>
      cases d' with
      | none => exact absurd (List.cons.inj htail).1 (by decide)
      | some d' =>
        simp only [Option.elim_some, List.cons_append, List.nil_append, List.cons.injEq, true_and] at htail
        exact ⟨congrArg some htail.1, htail.2⟩
  obtain ⟨rfl, hlast⟩ := ht.text_inj ht' (dash_ends _) (dash_ends _) htimes
  obtain ⟨rfl, -⟩ := hu.text_inj hu' ends_nil ends_nil (congrArg (· ++ []) (List.cons.inj hlast).2)
  rfl

lemma PeriodText.Valid.no_semicolon (h : p.Valid) : ';' ∉ p.text := by
  have hdigit : ∀ l : List Char, (∀ c ∈ l, c.isDigit) → ';' ∉ l := by
    intro l hl hmem
    exact absurd (hl _ hmem) (by decide)
  have htime : ∀ t : TimeText, t.Valid → ';' ∉ t.text := by
    intro t ht hmem
    rcases List.mem_append.mp hmem with hmem | hmem
    · exact hdigit _ ht.hourDigits hmem
    · exact hdigit _ ht.minuteDigits ((List.mem_cons.mp hmem).resolve_left (by decide))
  have hday : ∀ c, IsDay c → ';' ≠ c := by
    rintro c hc rfl
    exact absurd hc.2 (by decide)
  simp only [PeriodText.text, List.mem_cons, List.mem_append, not_or]
  refine ⟨hday _ h.startDay, ?_, by decide, htime _ h.startTime, by decide, htime _ h.endTime⟩
  cases hd : p.endDay with
  | none => simp
  | some d => simpa using hday d (h.endDay d hd).1

end

section

def checkTimePeriodTm (period : TimePeriod) (tm : Time.Tm) : Bool :=
  let day := if 0 = tm.wday then 7 else tm.wday
  let time := secPerHour * tm.hour + secPerMin * tm.min + tm.sec
  period.startDay ≤ day ∧ day ≤ period.endDay ∧ period.startTime ≤ time ∧ time < period.endTime

def checkLoop (tm : Time.Tm) (resTotal : Bool) (period : List Char) : Option Bool :=
  match timePeriodParse (cut ';' period).1 with
  | none => none
  | some tp =>
    match _ : (cut ';' period).2 with
    | none => some (resTotal || checkTimePeriodTm tp tm)
    | some next => checkLoop tm (resTotal || checkTimePeriodTm tp tm) next
termination_by period.length
decreasing_by exact cut_shorter (Prod.ext rfl ‹_›)

def zbxCheckTimePeriod (zbxLocaltime : ℤ → List Char → Time.Tm) (period : List Char) (time : ℤ) (tz : List Char) :
    Option Bool :=
  checkLoop (zbxLocaltime time tz) false period

end

section

variable {ps ps' : List PeriodText} {p : PeriodText} {tm : Time.Tm} {str a b : List Char} {sep : Char} {resTotal res : Bool}

lemma cut_free (h : sep ∉ a) : cut sep a = (a, none) := by
  induction a with
  | nil => rfl
  | cons c a ih =>
    obtain ⟨hc, ha⟩ := (not_or.mp fun hmem => h (List.mem_cons.mpr hmem))
    rw [cut, if_neg (Ne.symm hc), ih ha]

lemma cut_append (h : sep ∉ a) (b : List Char) : cut sep (a ++ sep :: b) = (a, some b) := by
  induction a with
  | nil => exact if_pos rfl
  | cons c a ih =>
    obtain ⟨hc, ha⟩ := (not_or.mp fun hmem => h (List.mem_cons.mpr hmem))
    rw [List.cons_append, cut, if_neg (Ne.symm hc), ih ha]

lemma cut_join (sep : Char) (str : List Char) :
    str = (cut sep str).1 ++ (cut sep str).2.elim [] (sep :: ·) := by
  induction str with
  | nil => rfl
  | cons c str ih =>
    rw [cut]
    split_ifs with h
    · rw [h]
      rfl
    · exact congrArg (c :: ·) ih

lemma periodsText_cut (hp : p.Valid) (ps : List PeriodText) :
    cut ';' (periodsText (p :: ps)) = (p.text, if ps = [] then none else some (periodsText ps)) := by
  cases ps with
  | nil => exact cut_free hp.no_semicolon
  | cons q ps => exact cut_append hp.no_semicolon _

lemma periodsText_inj (h : ∀ p ∈ ps, p.Valid) (h' : ∀ p ∈ ps', p.Valid) (hne : ps ≠ []) (hne' : ps' ≠ [])
    (htext : periodsText ps = periodsText ps') : ps = ps' := by
  induction ps generalizing ps' with
  | nil => exact absurd rfl hne
  | cons p ps ih =>
    obtain ⟨p', ps', rfl⟩ := List.exists_cons_of_ne_nil hne'
    obtain ⟨hp, hps⟩ := List.forall_mem_cons.mp h
    obtain ⟨hp', hps'⟩ := List.forall_mem_cons.mp h'
    have hcut := congrArg (cut ';') htext
    rw [periodsText_cut hp, periodsText_cut hp'] at hcut
    obtain ⟨hfirst, hrest⟩ := Prod.mk.inj hcut
    obtain rfl := hp.text_inj hp' hfirst
    by_cases hnil : ps = []
    · by_cases hnil' : ps' = []
      · rw [hnil, hnil']
      · simp [hnil, hnil'] at hrest
    · by_cases hnil' : ps' = []
      · simp [hnil, hnil'] at hrest
      · rw [if_neg hnil, if_neg hnil'] at hrest
        rw [ih hps hps' hnil hnil' (Option.some_inj.mp hrest)]

lemma checkLoop_eq (tm : Time.Tm) (resTotal : Bool) (str : List Char) : checkLoop tm resTotal str =
    (timePeriodParse (cut ';' str).1).bind fun tp =>
      (cut ';' str).2.elim (some (resTotal || checkTimePeriodTm tp tm))
        (checkLoop tm (resTotal || checkTimePeriodTm tp tm)) := by
  rw [checkLoop]
  cases timePeriodParse (cut ';' str).1 with
  | none => rfl
  | some tp =>
    simp only [Option.bind_some]
    split <;> rename_i hnext <;> rw [hnext] <;> rfl

lemma checkLoop_iff : checkLoop tm resTotal str = some res ↔ ∃ ps, ps ≠ [] ∧ periodsText ps = str ∧ (∀ p ∈ ps, p.Valid) ∧
    res = (resTotal || ps.any fun p => checkTimePeriodTm p.value tm) := by
  constructor
  · intro h
    induction hlen : str.length using Nat.strong_induction_on generalizing resTotal str with
    | _ n ih =>
      subst hlen
      rw [checkLoop_eq] at h
      obtain ⟨tp, hparse, h⟩ := Option.bind_eq_some_iff.mp h
      obtain ⟨p, hp, hvalid, rfl⟩ := timePeriodParse_iff.mp hparse
      have hjoin := cut_join ';' str
      cases hnext : (cut ';' str).2 with
      | none =>
        rw [hnext, Option.elim_none, Option.some_inj] at h
        rw [hnext, Option.elim_none, List.append_nil, ← hp] at hjoin
        exact ⟨[p], List.cons_ne_nil _ _, hjoin.symm, by simpa using hvalid, by rw [← h]; simp⟩
      | some next =>
        rw [hnext, Option.elim_some] at h
        rw [hnext, Option.elim_some, ← hp] at hjoin
        obtain ⟨ps, hne, hps, hall, hres⟩ := ih _ (cut_shorter (Prod.ext rfl hnext)) h rfl
        obtain ⟨q, qs, rfl⟩ := List.exists_cons_of_ne_nil hne
        refine ⟨p :: q :: qs, List.cons_ne_nil _ _, ?_, List.forall_mem_cons.mpr ⟨hvalid, hall⟩, ?_⟩
        · rw [periodsText, hps, ← hjoin]
        · exact hres.trans (Bool.or_assoc _ _ _)
  · rintro ⟨ps, hne, rfl, hvalid, rfl⟩
    induction ps generalizing resTotal with
    | nil => exact absurd rfl hne
    | cons p ps ih =>
      obtain ⟨hp, hps⟩ := List.forall_mem_cons.mp hvalid
      have hparse : timePeriodParse p.text = some p.value := timePeriodParse_iff.mpr ⟨p, rfl, hp, rfl⟩
      rw [checkLoop_eq, periodsText_cut hp ps, hparse, Option.bind_some, List.any_cons, ← Bool.or_assoc]
      by_cases hnil : ps = []
      · rw [if_pos hnil, hnil, List.any_nil, Bool.or_false]
        rfl
      · rw [if_neg hnil, Option.elim_some, ih hnil hps]

def weekDay (tm : Time.Tm) : ℤ := if tm.wday = 0 then 7 else tm.wday

def secondOfDay (tm : Time.Tm) : ℤ := 3600 * tm.hour + 60 * tm.min + tm.sec

lemma covers_iff : checkTimePeriodTm p.value tm = true ↔ p.Covers (weekDay tm) (secondOfDay tm) := by
  rw [checkTimePeriodTm, decide_eq_true_iff, PeriodText.Covers, weekDay, secondOfDay]
  simp only [PeriodText.value, eq_comm, secPerHour, secPerMin, Nat.cast_ofNat]

def Checks (str : List Char) (tm : Time.Tm) (res : Bool) : Prop :=
  ∃ ps : List PeriodText, ps ≠ [] ∧ periodsText ps = str ∧ (∀ p ∈ ps, p.Valid ∧ p.ShortHours) ∧
    (res = true ↔ ∃ p ∈ ps, p.Covers (weekDay tm) (secondOfDay tm))

def LongHour (str : List Char) : Prop :=
  ∃ ps : List PeriodText, periodsText ps = str ∧ (∀ p ∈ ps, p.Valid) ∧ ∃ p ∈ ps, ¬ p.ShortHours

lemma any_covers : (ps.any fun p => checkTimePeriodTm p.value tm) = true ↔
    ∃ p ∈ ps, p.Covers (weekDay tm) (secondOfDay tm) := by
  simp only [List.any_eq_true, covers_iff]

theorem time_period_checked_unless_long_hour (zbxLocaltime : ℤ → List Char → Time.Tm) (str : List Char) (time : ℤ)
    (tz : List Char) :
    (∀ res, zbxCheckTimePeriod zbxLocaltime str time tz = some res ↔ Checks str (zbxLocaltime time tz) res) ↔
      ¬ LongHour str := by
  generalize htm : zbxLocaltime time tz = tm
  have hcheck : zbxCheckTimePeriod zbxLocaltime str time tz = checkLoop tm false str := by
    rw [zbxCheckTimePeriod, htm]
  rw [hcheck]
  constructor
  · rintro h ⟨ps, rfl, hvalid, p, hp, hlong⟩
    have hne : ps ≠ [] := List.ne_nil_of_mem hp
    obtain ⟨ps', hne', htext, hshort, -⟩ := (h _).mp (checkLoop_iff.mpr ⟨ps, hne, rfl, hvalid, rfl⟩)
    obtain rfl := periodsText_inj (fun q hq => (hshort q hq).1) hvalid hne' hne htext
    exact hlong (hshort p hp).2
  · intro h res
    rw [checkLoop_iff]
    constructor
    · rintro ⟨ps, hne, rfl, hvalid, rfl⟩
      refine ⟨ps, hne, rfl, fun p hp => ⟨hvalid p hp, ?_⟩, ?_⟩
      · by_contra hlong
        exact h ⟨ps, rfl, hvalid, p, hp, hlong⟩
      · rw [Bool.false_or, any_covers]
    · rintro ⟨ps, hne, rfl, hall, hres⟩
      refine ⟨ps, hne, rfl, fun p hp => (hall p hp).1, ?_⟩
      rw [Bool.false_or, Bool.eq_iff_iff, hres, any_covers]

def threeDigits : PeriodText := ⟨'1', none, ⟨"012".toList, "00".toList⟩, ⟨"13".toList, "00".toList⟩⟩

lemma threeDigits_valid : threeDigits.Valid where
  startDay := ⟨by decide, by decide⟩
  endDay := by simp [threeDigits]
  startTime := ⟨by decide, by decide, by decide, rfl, by decide, by decide, by decide⟩
  endTime := ⟨by decide, by decide, by decide, rfl, by decide, by decide, by decide⟩
  order := by decide

-- At noon on the first Monday of 1970.
theorem three_digits_of_an_hour_are_accepted : ¬ ∀ res,
    zbxCheckTimePeriod (fun time _ => Time.localtime time) "1,012:00-13:00".toList 388800 [] = some res ↔
      Checks "1,012:00-13:00".toList (Time.localtime 388800) res := by
  intro h
  have hvalid : ∀ p ∈ [threeDigits], p.Valid := by simpa using threeDigits_valid
  obtain ⟨ps, hne, htext, hshort, -⟩ :=
    (h _).mp (checkLoop_iff.mpr ⟨[threeDigits], List.cons_ne_nil _ _, rfl, hvalid, rfl⟩)
  obtain rfl := periodsText_inj (fun p hp => (hshort p hp).1) hvalid hne (List.cons_ne_nil _ _) htext
  have hlong := (hshort threeDigits List.mem_cons_self).2.1
  exact absurd hlong (by decide)

end

end Glaber.Expr
