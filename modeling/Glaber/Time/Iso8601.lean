import Glaber.Lib.Parts
import Glaber.Time.Utc

/-! Timestamps of ISO 8601 (`zbx_iso8601_utc`): the texts of the documented formats, and the looser ones that the code
reads. -/

namespace Glaber.Time.Iso8601

open Glaber.Lib.Spans

abbrev Text := List Char

section

def digit (c : Char) : ℤ := c.toNat - 48

def leadingNumber (text : Text) : ℤ := (text.takeWhile Char.isDigit).foldl (fun value c => value * 10 + digit c) 0

def atoi (text : Text) : ℤ := (min (leadingNumber text) (2 ^ 63 - 1)).bmod (2 ^ 32)

def charAt (text : Text) (i : ℕ) : Char := text.getD i '\x00'

/-- `0 == isdigit(*ptr) || max < (value = atoi(ptr))` fails, else it is the value. -/
def readField (ptr : Text) (max : ℤ) : Option ℤ :=
  if (charAt ptr 0).isDigit = false ∨ max < atoi ptr then none else some (atoi ptr)

def skipFraction (zone : Text) : Text :=
  (if charAt zone 0 = '.' then (zone.drop 1).dropWhile Char.isDigit else zone).dropWhile (· == ' ')

def zoneOffset (ptr : Text) : Option ℤ :=
  let c := charAt ptr 0
  if ptr = [] ∨ c = 'Z' ∨ c = 'z' then some 0
  else if c ≠ '-' ∧ c ≠ '+' then none
  else
    let sign : ℤ := if c = '-' then -1 else 1
    let ptr := ptr.drop 1
    if 5 > ptr.length ∨ charAt ptr 2 ≠ ':' then none
    else do
      let h ← readField ptr 23
      let m ← readField (ptr.drop 3) 59
      return (sign * (m + h * 60) * 60).bmod (2 ^ 32)

def iso8601Timezone (zone : Text) : Option ℤ := zoneOffset (skipFraction zone)

def iso8601Utc (str : Text) : Option ℤ :=
  if (charAt str 0).isDigit = false ∨ 19 > str.length ∨ (charAt str 10 ≠ 'T' ∧ charAt str 10 ≠ ' ') ∨
      charAt str 4 ≠ '-' ∨ charAt str 7 ≠ '-' ∨ charAt str 13 ≠ ':' ∨ charAt str 16 ≠ ':' then none
  else do
    let year := atoi str
    let mon ← readField (str.drop 5) 12
    let mday ← readField (str.drop 8) 31
    let hour ← readField (str.drop 11) 23
    let min ← readField (str.drop 14) 59
    let sec ← readField (str.drop 17) 59
    let offset ← iso8601Timezone (str.drop 19)
    let t ← utcTime (.ofInt year) (.ofInt mon) (.ofInt mday) (.ofInt hour) (.ofInt min) (.ofInt sec)
    return t.toInt - offset

end

section

structure Pair where
  first : Char
  second : Char
  deriving DecidableEq

def Pair.text (p : Pair) : Text := [p.first, p.second]

def Pair.value (p : Pair) : ℤ := if p.second.isDigit then 10 * digit p.first + digit p.second else digit p.first

def Pair.Leads (p : Pair) : Prop := p.first.isDigit

def Pair.Digits (p : Pair) : Prop := p.first.isDigit ∧ p.second.isDigit

inductive Zone where
  | none
  | utc (letter : Char) (after : Text)
  | offset (sign : Char) (hour : Pair) (minutes : Text)

def Zone.text : Zone → Text
  | .none => []
  | .utc letter after => letter :: after
  | .offset sign hour minutes => sign :: (hour.text ++ ':' :: minutes)

def Zone.seconds : Zone → ℤ
  | .none => 0
  | .utc _ _ => 0
  | .offset sign hour minutes => ((if sign = '-' then -1 else 1) * (atoi minutes + hour.value * 60) * 60).bmod (2 ^ 32)

structure Stamp where
  century : Pair
  yearOfCentury : Pair
  mon : Pair
  mday : Pair
  sep : Char
  hour : Pair
  min : Pair
  sec : Pair
  fraction : Option Text
  blanks : ℕ
  zone : Zone

def fractionText (fraction : Option Text) : Text := fraction.elim [] ('.' :: ·)

def Stamp.tail (s : Stamp) : Text := fractionText s.fraction ++ List.replicate s.blanks ' ' ++ s.zone.text

def Stamp.before (s : Stamp) (tail : Text) : Text :=
  s.century.text ++ s.yearOfCentury.text ++ '-' :: (s.mon.text ++ '-' :: (s.mday.text ++ s.sep :: (s.hour.text ++
    ':' :: (s.min.text ++ ':' :: (s.sec.text ++ tail)))))

def Stamp.text (s : Stamp) : Text := s.before s.tail

def Stamp.fields (s : Stamp) : Fields :=
  ⟨100 * s.century.value + s.yearOfCentury.value, s.mon.value, s.mday.value, s.hour.value, s.min.value, s.sec.value⟩

def Stamp.value (s : Stamp) : ℤ := s.fields.timestamp - s.zone.seconds

def Zone.Valid : Zone → Prop
  | .offset _ hour minutes => hour.value ≤ 23 ∧ atoi minutes ≤ 59
  | _ => True

structure Stamp.Valid (s : Stamp) : Prop where
  fields : s.fields.Valid
  sec : s.sec.value ≤ 59
  zone : s.zone.Valid

inductive Zone.Documented : ℕ → Zone → Prop
  | none : Zone.Documented 0 .none
  | utc : Zone.Documented 0 (.utc 'Z' [])
  | offset {blanks : ℕ} {sign : Char} {hour minutes : Pair} (hblanks : blanks ≤ 1) (hsign : sign = '+' ∨ sign = '-')
      (hhour : hour.Digits) (hminutes : minutes.Digits) : Zone.Documented blanks (.offset sign hour minutes.text)

/-- One of the formats in the comment of `zbx_iso8601_utc`. -/
structure Stamp.Documented (s : Stamp) : Prop where
  pairs : ∀ p ∈ [s.century, s.yearOfCentury, s.mon, s.mday, s.hour, s.min, s.sec], p.Digits
  sep : s.sep = 'T' ∨ s.sep = ' '
  fraction : ∀ digits ∈ s.fraction, digits ≠ [] ∧ ∀ c ∈ digits, c.isDigit
  zone : s.zone.Documented s.blanks

/-- `Z` or `z` with anything behind it, or an offset whose minutes begin with a digit. -/
inductive Zone.Loose : Zone → Prop
  | none : Zone.Loose .none
  | utc {letter : Char} (after : Text) (hletter : letter = 'Z' ∨ letter = 'z') : Zone.Loose (.utc letter after)
  | offset {sign : Char} {hour : Pair} {minutes : Text} (hsign : sign = '+' ∨ sign = '-') (hhour : hour.Leads)
      (hlen : 2 ≤ minutes.length) (hminutes : (charAt minutes 0).isDigit) : Zone.Loose (.offset sign hour minutes)

structure Stamp.Loose (s : Stamp) : Prop where
  year : s.century.Digits ∧ s.yearOfCentury.Digits
  pairs : ∀ p ∈ [s.mon, s.mday, s.hour, s.min, s.sec], p.Leads
  sep : s.sep = 'T' ∨ s.sep = ' '
  fraction : ∀ digits ∈ s.fraction, ∀ c ∈ digits, c.isDigit
  zone : s.zone.Loose

end

section

variable {p : Pair} {rest : Text} {max x : ℤ}

lemma digit_bounds {c : Char} (h : c.isDigit) : 0 ≤ digit c ∧ digit c ≤ 9 := by
  have hlow : '0'.toNat = 48 := rfl
  have hhigh : '9'.toNat = 57 := rfl
  rw [Char.isDigit_iff_toNat] at h
  rw [digit]
  omega

lemma atoi_of_small (h : 0 ≤ leadingNumber rest ∧ leadingNumber rest ≤ 9999) : atoi rest = leadingNumber rest := by
  have hmin : min (leadingNumber rest) (2 ^ 63 - 1) = leadingNumber rest := by
    rw [min_eq_left]
    omega
  rw [atoi, hmin, bmod_self (by omega) (by omega)]

lemma Pair.Leads.bounds (h : p.Leads) : 0 ≤ p.value ∧ p.value ≤ 99 := by
  have hfirst := digit_bounds h
  rw [Pair.value]
  split_ifs with hsecond
  · have := digit_bounds hsecond
    omega
  · omega

lemma Pair.Digits.leads (h : p.Digits) : p.Leads := h.1

lemma atoi_pair (h : p.Leads) (hrest : Ends Char.isDigit rest) : atoi (p.text ++ rest) = p.value := by
  have hnumber : leadingNumber (p.text ++ rest) = p.value := by
    rw [leadingNumber, Pair.text, Pair.value, List.cons_append, List.takeWhile_cons_of_pos h, List.singleton_append]
    by_cases hsecond : p.second.isDigit
    · rw [List.takeWhile_cons_of_pos hsecond, hrest.takeWhile, if_pos hsecond]
      simp only [List.foldl_cons, List.foldl_nil]
      ring
    · rw [List.takeWhile_cons_of_neg hsecond, if_neg hsecond]
      simp
  have hbounds := h.bounds
  rw [atoi_of_small (by omega), hnumber]

lemma readField_pair (hrest : Ends Char.isDigit rest) :
    readField (p.text ++ rest) max = some x ↔ p.Leads ∧ p.value ≤ max ∧ x = p.value := by
  have hfirst : charAt (p.text ++ rest) 0 = p.first := rfl
  rw [readField, hfirst]
  by_cases hlead : p.Leads
  · rw [atoi_pair hlead hrest]
    by_cases hmax : p.value ≤ max
    · rw [if_neg (not_or.mpr ⟨by simpa [Pair.Leads] using hlead, not_lt.mpr hmax⟩), Option.some_inj]
      exact ⟨fun h => ⟨hlead, hmax, h.symm⟩, fun h => h.2.2.symm⟩
    · rw [if_pos (.inr (not_le.mp hmax))]
      exact iff_of_false (by simp) fun h => hmax h.2.1
  · rw [if_pos (.inl (by simpa [Pair.Leads] using hlead))]
    exact iff_of_false (by simp) fun h => hlead h.1

lemma atoi_year {c y : Pair} (hlead : c.Leads) (hrest : Ends Char.isDigit rest) :
    (c.Digits ∧ y.Digits → atoi (c.text ++ y.text ++ rest) = 100 * c.value + y.value) ∧
      (¬ (c.Digits ∧ y.Digits) → 0 ≤ atoi (c.text ++ y.text ++ rest) ∧ atoi (c.text ++ y.text ++ rest) ≤ 999) := by
  have h1 := digit_bounds hlead
  have htext : c.text ++ y.text ++ rest = c.first :: c.second :: y.first :: y.second :: rest := rfl
  have hlead' : c.first.isDigit = true := hlead
  rw [htext]
  by_cases hc : c.second.isDigit
  · have h2 := digit_bounds hc
    by_cases hy : y.first.isDigit
    · have h3 := digit_bounds hy
      by_cases hy' : y.second.isDigit
      · have h4 := digit_bounds hy'
        have hnumber : leadingNumber (c.first :: c.second :: y.first :: y.second :: rest) = 100 * c.value + y.value := by
          simp only [leadingNumber, List.takeWhile_cons_of_pos hlead', List.takeWhile_cons_of_pos hc,
            List.takeWhile_cons_of_pos hy, List.takeWhile_cons_of_pos hy', hrest.takeWhile, List.foldl_cons,
            List.foldl_nil, Pair.value, hc, hy', if_true]
          ring
        have hc' : c.value = 10 * digit c.first + digit c.second := if_pos hc
        have hy'' : y.value = 10 * digit y.first + digit y.second := if_pos hy'
        refine ⟨fun _ => ?_, fun h => absurd ⟨⟨hlead, hc⟩, hy, hy'⟩ h⟩
        rw [atoi_of_small (by omega), hnumber]
      · have hnumber : leadingNumber (c.first :: c.second :: y.first :: y.second :: rest) =
            100 * digit c.first + 10 * digit c.second + digit y.first := by
          simp only [leadingNumber, List.takeWhile_cons_of_pos hlead', List.takeWhile_cons_of_pos hc,
            List.takeWhile_cons_of_pos hy, List.takeWhile_cons_of_neg hy', List.foldl_cons, List.foldl_nil]
          ring
        refine ⟨fun h => absurd h.2.2 hy', fun _ => ?_⟩
        rw [atoi_of_small (by omega)]
        omega
    · have hnumber : leadingNumber (c.first :: c.second :: y.first :: y.second :: rest) =
          10 * digit c.first + digit c.second := by
        simp only [leadingNumber, List.takeWhile_cons_of_pos hlead', List.takeWhile_cons_of_pos hc,
          List.takeWhile_cons_of_neg hy, List.foldl_cons, List.foldl_nil]
        ring
      refine ⟨fun h => absurd h.2.1 hy, fun _ => ?_⟩
      rw [atoi_of_small (by omega)]
      omega
  · have hnumber : leadingNumber (c.first :: c.second :: y.first :: y.second :: rest) = digit c.first := by
      simp only [leadingNumber, List.takeWhile_cons_of_pos hlead', List.takeWhile_cons_of_neg hc, List.foldl_cons,
        List.foldl_nil]
      ring
    refine ⟨fun h => absurd h.1.2 hc, fun _ => ?_⟩
    rw [atoi_of_small (by omega)]
    omega

end

section

variable {ptr : Text} {o : ℤ}

lemma zoneOffset_signed {sign : Char} (hsign : sign = '+' ∨ sign = '-') (hour : Pair) {minutes : Text}
    (hlen : 2 ≤ minutes.length) :
    zoneOffset (sign :: (hour.text ++ ':' :: minutes)) = (do
      let h ← readField (hour.text ++ ':' :: minutes) 23
      let m ← readField minutes 59
      return ((if sign = '-' then -1 else 1) * (m + h * 60) * 60).bmod (2 ^ 32)) := by
  have hshape : ¬ (5 > (hour.text ++ ':' :: minutes).length ∨ charAt (hour.text ++ ':' :: minutes) 2 ≠ ':') := by
    rintro (hshort | hcolon)
    · simp only [Pair.text, List.length_append, List.length_cons, List.length_nil] at hshort
      omega
    · exact hcolon rfl
  have hutc : ¬ (sign :: (hour.text ++ ':' :: minutes) = [] ∨ sign = 'Z' ∨ sign = 'z') := by
    rcases hsign with rfl | rfl <;> simp
  have hnone : ¬ (sign ≠ '-' ∧ sign ≠ '+') := by
    rcases hsign with rfl | rfl <;> simp
  rw [zoneOffset]
  simp only [charAt, List.getD_cons_zero]
  rw [if_neg hutc, if_neg hnone]
  exact if_neg hshape

lemma readField_some {max x : ℤ} :
    readField ptr max = some x ↔ (charAt ptr 0).isDigit ∧ atoi ptr ≤ max ∧ x = atoi ptr := by
  rw [readField]
  split_ifs with h
  · refine iff_of_false (by simp) ?_
    rintro ⟨hdigit, hmax, -⟩
    rcases h with h | h
    · rw [hdigit] at h
      cases h
    · omega
  · obtain ⟨hdigit, hmax⟩ := not_or.mp h
    rw [Option.some_inj]
    exact ⟨fun heq => ⟨by simpa using hdigit, not_lt.mp hmax, heq.symm⟩, fun hall => hall.2.2.symm⟩

lemma colon_ends (rest : Text) : Ends Char.isDigit (':' :: rest) := ends_cons rfl rest

lemma offset_shape {text : Text} (hlen : 5 ≤ text.length) (hcolon : charAt text 2 = ':') :
    ∃ (hour : Pair) (minutes : Text), text = hour.text ++ ':' :: minutes ∧ 2 ≤ minutes.length := by
  rcases text with _ | ⟨a, _ | ⟨b, _ | ⟨x, minutes⟩⟩⟩
  · simp at hlen
  · simp at hlen
  · simp at hlen
  · obtain rfl : x = ':' := hcolon
    exact ⟨⟨a, b⟩, minutes, rfl, by simpa using hlen⟩

lemma zoneOffset_spec :
    zoneOffset ptr = some o ↔ ∃ zone : Zone, zone.text = ptr ∧ zone.Loose ∧ zone.Valid ∧ o = zone.seconds := by
  constructor
  · intro h
    cases ptr with
    | nil =>
      obtain rfl : 0 = o := Option.some_inj.mp h
      exact ⟨.none, rfl, .none, trivial, rfl⟩
    | cons c ptr =>
      by_cases hutc : c = 'Z' ∨ c = 'z'
      · have hzero : zoneOffset (c :: ptr) = some 0 := if_pos (.inr hutc)
        obtain rfl : 0 = o := Option.some_inj.mp (hzero.symm.trans h)
        exact ⟨.utc c ptr, rfl, .utc ptr hutc, trivial, rfl⟩
      · have hsign : c = '+' ∨ c = '-' := by
          by_contra hnone
          have hno : zoneOffset (c :: ptr) = none := by
            rw [zoneOffset]
            simp only [charAt, List.getD_cons_zero]
            rw [if_neg (by simpa using hutc), if_pos (by tauto)]
          rw [hno] at h
          cases h
        have hshape : 5 ≤ ptr.length ∧ charAt ptr 2 = ':' := by
          by_contra hbad
          have hno : zoneOffset (c :: ptr) = none := by
            rw [zoneOffset]
            simp only [charAt, List.getD_cons_zero, List.drop_succ_cons, List.drop_zero]
            rw [if_neg (by simpa using hutc), if_neg (by tauto)]
            refine if_pos ?_
            by_contra hgood
            obtain ⟨hlen, hcolon⟩ := not_or.mp hgood
            exact hbad ⟨not_lt.mp hlen, not_not.mp hcolon⟩
          rw [hno] at h
          cases h
        obtain ⟨hour, minutes, rfl, hlen⟩ := offset_shape hshape.1 hshape.2
        rw [zoneOffset_signed hsign hour hlen] at h
        obtain ⟨hours, hfirst, h⟩ := Option.bind_eq_some_iff.mp h
        obtain ⟨mins, hlast, h⟩ := Option.bind_eq_some_iff.mp h
        obtain ⟨hlead, hmax, rfl⟩ := (readField_pair (colon_ends minutes)).mp hfirst
        obtain ⟨hdigit, hmax', rfl⟩ := readField_some.mp hlast
        exact ⟨.offset c hour minutes, rfl, .offset hsign hlead hlen hdigit, ⟨hmax, hmax'⟩, (Option.some_inj.mp h).symm⟩
  · rintro ⟨zone, rfl, hloose, hvalid, rfl⟩
    cases hloose with
    | none => rfl
    | utc after hletter => exact if_pos (.inr hletter)
    | @offset sign hour minutes hsign hhour hlen hminutes =>
      have hfirst : readField (hour.text ++ ':' :: minutes) 23 = some hour.value :=
        (readField_pair (colon_ends minutes)).mpr ⟨hhour, hvalid.1, rfl⟩
      have hlast : readField minutes 59 = some (atoi minutes) := readField_some.mpr ⟨hminutes, hvalid.2, rfl⟩
      rw [Zone.text, zoneOffset_signed hsign hour hlen, hfirst, hlast]
      rfl

def ZoneHead (z : Text) : Prop := ∀ c ∈ z.head?, c ≠ ' ' ∧ c ≠ '.' ∧ c.isDigit = false

lemma Zone.Loose.head {zone : Zone} (h : zone.Loose) : ZoneHead zone.text := by
  intro c hc
  cases h with
  | none => cases hc
  | utc after hletter =>
    obtain rfl := Option.some_inj.mp hc
    rcases hletter with rfl | rfl <;> decide
  | offset hsign _ _ _ =>
    obtain rfl := Option.some_inj.mp hc
    rcases hsign with rfl | rfl <;> decide

lemma dropWhile_blanks (b : ℕ) {z : Text} (hz : ZoneHead z) : (List.replicate b ' ' ++ z).dropWhile (· == ' ') = z := by
  have hblanks : ∀ c ∈ List.replicate b ' ', (c == ' ') = true := by
    intro c hc
    simpa using List.eq_of_mem_replicate hc
  have hends : Ends (· == ' ') z := by
    intro c hc
    simpa using (hz c hc).1
  exact dropWhile_run hblanks hends

lemma blanks_end (b : ℕ) {z : Text} (hz : ZoneHead z) : Ends Char.isDigit (List.replicate b ' ' ++ z) := by
  cases b with
  | zero => exact fun c hc => (hz c hc).2.2
  | succ b => exact ends_cons rfl _

lemma skip_text {fraction : Option Text} (hdigits : ∀ digits ∈ fraction, ∀ c ∈ digits, c.isDigit) (b : ℕ) {z : Text}
    (hz : ZoneHead z) : skipFraction (fractionText fraction ++ List.replicate b ' ' ++ z) = z := by
  cases fraction with
  | none =>
    have hdot : charAt (List.replicate b ' ' ++ z) 0 ≠ '.' := by
      cases b with
      | zero =>
        cases z with
        | nil => decide
        | cons c z => exact (hz c rfl).2.1
      | succ b => exact (by decide : ' ' ≠ '.')
    have htext : fractionText none ++ List.replicate b ' ' ++ z = List.replicate b ' ' ++ z := rfl
    rw [htext, skipFraction, if_neg hdot, dropWhile_blanks b hz]
  | some digits =>
    have htext : fractionText (some digits) ++ List.replicate b ' ' ++ z =
        '.' :: (digits ++ (List.replicate b ' ' ++ z)) := by
      simp [fractionText]
    have hdot : charAt ('.' :: (digits ++ (List.replicate b ' ' ++ z))) 0 = '.' := rfl
    rw [htext, skipFraction, if_pos hdot, List.drop_succ_cons, List.drop_zero,
      dropWhile_run (hdigits digits rfl) (blanks_end b hz), dropWhile_blanks b hz]

lemma blanks_split (text : Text) : ∃ b, text = List.replicate b ' ' ++ text.dropWhile (· == ' ') := by
  refine ⟨(text.takeWhile (· == ' ')).length, ?_⟩
  have hblanks : text.takeWhile (· == ' ') = List.replicate (text.takeWhile (· == ' ')).length ' ' := by
    apply List.eq_replicate_of_mem
    intro c hc
    simpa using List.mem_takeWhile_imp hc
  rw [← hblanks, List.takeWhile_append_dropWhile]

lemma skip_split (tail : Text) : ∃ fraction b, (∀ digits ∈ fraction, ∀ c ∈ digits, c.isDigit = true) ∧
    tail = fractionText fraction ++ List.replicate b ' ' ++ skipFraction tail := by
  by_cases hdot : charAt tail 0 = '.'
  · cases tail with
    | nil => cases hdot
    | cons c text =>
      have hc : c = '.' := hdot
      subst hc
      obtain ⟨b, hb⟩ := blanks_split (text.dropWhile Char.isDigit)
      refine ⟨some (text.takeWhile Char.isDigit), b, ?_, ?_⟩
      · intro digits hdigits c hc
        obtain rfl := Option.some_inj.mp hdigits
        exact List.mem_takeWhile_imp hc
      · rw [skipFraction, if_pos hdot, List.drop_succ_cons, List.drop_zero, List.append_assoc, ← hb]
        simp [fractionText]
  · obtain ⟨b, hb⟩ := blanks_split tail
    refine ⟨none, b, by simp, ?_⟩
    rw [skipFraction, if_neg hdot, List.append_assoc, ← hb]
    rfl

lemma iso8601Timezone_spec (tail : Text) : iso8601Timezone tail = some o ↔
    ∃ (fraction : Option Text) (blanks : ℕ) (zone : Zone),
      tail = fractionText fraction ++ List.replicate blanks ' ' ++ zone.text ∧
      (∀ digits ∈ fraction, ∀ c ∈ digits, c.isDigit = true) ∧ zone.Loose ∧ zone.Valid ∧ o = zone.seconds := by
  rw [iso8601Timezone]
  constructor
  · intro h
    obtain ⟨zone, htext, hloose, hvalid, ho⟩ := zoneOffset_spec.mp h
    obtain ⟨fraction, b, hdigits, hsplit⟩ := skip_split tail
    rw [← htext] at hsplit
    exact ⟨fraction, b, zone, hsplit, hdigits, hloose, hvalid, ho⟩
  · rintro ⟨fraction, b, zone, rfl, hdigits, hloose, hvalid, ho⟩
    rw [skip_text hdigits b hloose.head]
    exact zoneOffset_spec.mpr ⟨zone, rfl, hloose, hvalid, ho⟩

end

section

variable {str : Text} {v : ℤ} {s : Stamp}

lemma take_pair (h : 2 ≤ str.length) : ∃ (p : Pair) (rest : Text), str = p.text ++ rest ∧ rest.length + 2 = str.length := by
  rcases str with _ | ⟨a, _ | ⟨b, rest⟩⟩
  · simp at h
  · simp at h
  · exact ⟨⟨a, b⟩, rest, rfl, rfl⟩

lemma take_char (h : 1 ≤ str.length) : ∃ (c : Char) (rest : Text), str = c :: rest ∧ rest.length + 1 = str.length := by
  cases str with
  | nil => simp at h
  | cons c rest => exact ⟨c, rest, rfl, rfl⟩

lemma pieces (h : 19 ≤ str.length) : ∃ (c y m d h i s : Pair) (a b sep e f : Char) (tail : Text),
    str = c.text ++ y.text ++ a :: (m.text ++ b :: (d.text ++ sep :: (h.text ++ e :: (i.text ++ f ::
      (s.text ++ tail))))) := by
  obtain ⟨c, str, rfl, h1⟩ := take_pair (by omega : 2 ≤ str.length)
  obtain ⟨y, str, rfl, h2⟩ := take_pair (by omega : 2 ≤ str.length)
  obtain ⟨a, str, rfl, h3⟩ := take_char (by omega : 1 ≤ str.length)
  obtain ⟨m, str, rfl, h4⟩ := take_pair (by omega : 2 ≤ str.length)
  obtain ⟨b, str, rfl, h5⟩ := take_char (by omega : 1 ≤ str.length)
  obtain ⟨d, str, rfl, h6⟩ := take_pair (by omega : 2 ≤ str.length)
  obtain ⟨sep, str, rfl, h7⟩ := take_char (by omega : 1 ≤ str.length)
  obtain ⟨hour, str, rfl, h8⟩ := take_pair (by omega : 2 ≤ str.length)
  obtain ⟨e, str, rfl, h9⟩ := take_char (by omega : 1 ≤ str.length)
  obtain ⟨i, str, rfl, h10⟩ := take_pair (by omega : 2 ≤ str.length)
  obtain ⟨f, str, rfl, h11⟩ := take_char (by omega : 1 ≤ str.length)
  obtain ⟨sec, tail, rfl, -⟩ := take_pair (by omega : 2 ≤ str.length)
  exact ⟨c, y, m, d, hour, i, sec, a, b, sep, e, f, tail, by simp⟩

def readBefore (s : Stamp) (tail : Text) : Option ℤ := do
  let mon ← readField (s.mon.text ++ '-' :: (s.mday.text ++ s.sep :: (s.hour.text ++ ':' :: (s.min.text ++ ':' ::
    (s.sec.text ++ tail))))) 12
  let mday ← readField (s.mday.text ++ s.sep :: (s.hour.text ++ ':' :: (s.min.text ++ ':' :: (s.sec.text ++ tail)))) 31
  let hour ← readField (s.hour.text ++ ':' :: (s.min.text ++ ':' :: (s.sec.text ++ tail))) 23
  let min ← readField (s.min.text ++ ':' :: (s.sec.text ++ tail)) 59
  let sec ← readField (s.sec.text ++ tail) 59
  let offset ← iso8601Timezone tail
  let t ← utcTime (.ofInt (atoi (s.before tail))) (.ofInt mon) (.ofInt mday) (.ofInt hour) (.ofInt min) (.ofInt sec)
  return t.toInt - offset

lemma iso8601Utc_before (hlead : s.century.Leads) (hsep : s.sep = 'T' ∨ s.sep = ' ') (tail : Text) :
    iso8601Utc (s.before tail) = readBefore s tail := by
  have hguard : ¬ ((charAt (s.before tail) 0).isDigit = false ∨ 19 > (s.before tail).length ∨
      (charAt (s.before tail) 10 ≠ 'T' ∧ charAt (s.before tail) 10 ≠ ' ') ∨ charAt (s.before tail) 4 ≠ '-' ∨
      charAt (s.before tail) 7 ≠ '-' ∨ charAt (s.before tail) 13 ≠ ':' ∨ charAt (s.before tail) 16 ≠ ':') := by
    have hfirst : charAt (s.before tail) 0 = s.century.first := rfl
    have hsepAt : charAt (s.before tail) 10 = s.sep := rfl
    have hlen : 19 ≤ (s.before tail).length := by
      simp only [Stamp.before, Pair.text, List.length_append, List.length_cons, List.length_nil]
      omega
    have hlead' : s.century.first.isDigit = true := hlead
    rw [hfirst, hsepAt, hlead']
    rintro (h | h | h | h | h | h | h)
    · cases h
    · omega
    · exact hsep.elim h.1 h.2
    all_goals exact h rfl
  rw [iso8601Utc, if_neg hguard]
  rfl

lemma ends_dash (rest : Text) : Ends Char.isDigit ('-' :: rest) := ends_cons rfl rest

lemma ends_sep (hsep : s.sep = 'T' ∨ s.sep = ' ') (rest : Text) : Ends Char.isDigit (s.sep :: rest) := by
  apply ends_cons
  rcases hsep with h | h <;> rw [h] <;> rfl

lemma ends_tail {fraction : Option Text} {blanks : ℕ} {zone : Zone} (hzone : zone.Loose) :
    Ends Char.isDigit (fractionText fraction ++ List.replicate blanks ' ' ++ zone.text) := by
  cases fraction with
  | none => exact blanks_end blanks hzone.head
  | some digits => exact ends_cons rfl _

lemma ofInt_small {x : ℤ} (h : 0 ≤ x ∧ x ≤ 9999) : (Int32.ofInt x).toInt = x := by
  rw [Int32.toInt_ofInt]
  exact bmod_self (by omega) (by omega)

lemma fieldsOf_stamp (hyear : s.century.Digits ∧ s.yearOfCentury.Digits)
    (hpairs : ∀ p ∈ [s.mon, s.mday, s.hour, s.min, s.sec], p.Leads) :
    fieldsOf (.ofInt (100 * s.century.value + s.yearOfCentury.value)) (.ofInt s.mon.value) (.ofInt s.mday.value)
      (.ofInt s.hour.value) (.ofInt s.min.value) (.ofInt s.sec.value) = s.fields := by
  have hc := hyear.1.leads.bounds
  have hy := hyear.2.leads.bounds
  have hsmall : ∀ p ∈ [s.mon, s.mday, s.hour, s.min, s.sec], (Int32.ofInt p.value).toInt = p.value := by
    intro p hp
    have := (hpairs p hp).bounds
    exact ofInt_small (by omega)
  simp only [fieldsOf, Stamp.fields, ofInt_small (by omega : 0 ≤ 100 * s.century.value + s.yearOfCentury.value ∧
    100 * s.century.value + s.yearOfCentury.value ≤ 9999), hsmall _ (by simp : s.mon ∈ _), hsmall _ (by simp : s.mday ∈ _),
    hsmall _ (by simp : s.hour ∈ _), hsmall _ (by simp : s.min ∈ _), hsmall _ (by simp : s.sec ∈ _)]

lemma bind_toInt (t : Option Int32) (offset : ℤ) :
    (t.bind fun t => some (t.toInt - offset)) = (t.map Int32.toInt).map (· - offset) := by
  cases t <;> rfl

lemma iso8601Utc_text (hloose : s.Loose) (hvalid : s.Valid) :
    iso8601Utc s.text = if s.fields.timestamp % 2 ^ 32 < 2 ^ 31 then
      some (s.fields.timestamp.bmod (2 ^ 32) - s.zone.seconds) else none := by
  obtain ⟨hyear, hpairs, hsep, hfraction, hzone⟩ := hloose
  have hfields := hvalid.fields
  have hmday : s.mday.value ≤ 31 := hfields.mday.2.trans (Lib.Gregorian.daysIn_bounds _ _).2
  have htail : Ends Char.isDigit s.tail := ends_tail hzone
  have hoffset : iso8601Timezone s.tail = some s.zone.seconds :=
    (iso8601Timezone_spec _).mpr ⟨_, _, _, rfl, hfraction, hzone, hvalid.zone, rfl⟩
  have hatoi : atoi (s.before s.tail) = 100 * s.century.value + s.yearOfCentury.value :=
    (atoi_year hyear.1.leads (ends_dash _)).1 hyear
  have hsame := fieldsOf_stamp hyear hpairs
  have hutc := utcTime_of_valid (hsame.symm ▸ hfields)
  rw [hsame] at hutc
  rw [Stamp.text, iso8601Utc_before hyear.1.leads hsep, readBefore,
    (readField_pair (ends_dash _)).mpr ⟨hpairs _ (by simp), hfields.mon.2, rfl⟩,
    (readField_pair (ends_sep hsep _)).mpr ⟨hpairs _ (by simp), hmday, rfl⟩,
    (readField_pair (colon_ends _)).mpr ⟨hpairs _ (by simp), hfields.hour.2, rfl⟩,
    (readField_pair (colon_ends _)).mpr ⟨hpairs _ (by simp), hfields.min.2, rfl⟩,
    (readField_pair htail).mpr ⟨hpairs _ (by simp), hvalid.sec, rfl⟩, hoffset, hatoi]
  simp only [Option.bind_eq_bind, Option.bind_some, pure, bind_toInt, hutc]
  split_ifs <;> rfl

lemma utcTime_year {c y : Pair} {rest : Text} (hlead : c.Leads) (hrest : Ends Char.isDigit rest)
    {mon mday hour min sec t : Int32}
    (h : utcTime (.ofInt (atoi (c.text ++ y.text ++ rest))) mon mday hour min sec = some t) : c.Digits ∧ y.Digits := by
  by_contra hdigits
  obtain ⟨hlow, hhigh⟩ := (atoi_year hlead hrest).2 hdigits
  have hinvalid : ¬ (fieldsOf (.ofInt (atoi (c.text ++ y.text ++ rest))) mon mday hour min sec).Valid := by
    intro hvalid
    have hyear := hvalid.year
    simp only [fieldsOf] at hyear
    rw [ofInt_small (by omega)] at hyear
    omega
  rw [utcTime_of_invalid hinvalid] at h
  cases h

lemma readBefore_some (hlead : s.century.Leads) (hsep : s.sep = 'T' ∨ s.sep = ' ') {tail : Text}
    (h : readBefore s tail = some v) :
    ∃ (fraction : Option Text) (blanks : ℕ) (zone : Zone),
      let s' : Stamp := { s with fraction := fraction, blanks := blanks, zone := zone }
      s'.tail = tail ∧ s'.Loose ∧ s'.Valid ∧ s'.fields.timestamp % 2 ^ 32 < 2 ^ 31 ∧
        v = s'.fields.timestamp.bmod (2 ^ 32) - zone.seconds := by
  obtain ⟨mon, hmon, h⟩ := Option.bind_eq_some_iff.mp h
  obtain ⟨mday, hmday, h⟩ := Option.bind_eq_some_iff.mp h
  obtain ⟨hour, hhour, h⟩ := Option.bind_eq_some_iff.mp h
  obtain ⟨min, hmin, h⟩ := Option.bind_eq_some_iff.mp h
  obtain ⟨sec, hsec, h⟩ := Option.bind_eq_some_iff.mp h
  obtain ⟨offset, hoffset, h⟩ := Option.bind_eq_some_iff.mp h
  obtain ⟨fraction, blanks, zone, rfl, hdigits, hzone, hzoneValid, rfl⟩ := (iso8601Timezone_spec _).mp hoffset
  obtain ⟨hmonLead, -, rfl⟩ := (readField_pair (ends_dash _)).mp hmon
  obtain ⟨hmdayLead, -, rfl⟩ := (readField_pair (ends_sep hsep _)).mp hmday
  obtain ⟨hhourLead, -, rfl⟩ := (readField_pair (colon_ends _)).mp hhour
  obtain ⟨hminLead, -, rfl⟩ := (readField_pair (colon_ends _)).mp hmin
  obtain ⟨hsecLead, hsecMax, rfl⟩ := (readField_pair (ends_tail hzone)).mp hsec
  have hpairs : ∀ p ∈ [s.mon, s.mday, s.hour, s.min, s.sec], p.Leads := by
    simp only [List.forall_mem_cons]
    exact ⟨hmonLead, hmdayLead, hhourLead, hminLead, hsecLead, by simp⟩
  have hyear : s.century.Digits ∧ s.yearOfCentury.Digits := by
    obtain ⟨t, ht, -⟩ := Option.bind_eq_some_iff.mp h
    exact utcTime_year hlead (ends_dash _) ht
  have hatoi : atoi (s.before (fractionText fraction ++ List.replicate blanks ' ' ++ zone.text)) =
      100 * s.century.value + s.yearOfCentury.value := (atoi_year hlead (ends_dash _)).1 hyear
  have hsame := fieldsOf_stamp hyear hpairs
  rw [hatoi] at h
  simp only [Option.bind_eq_bind, pure, bind_toInt] at h
  have hfields : s.fields.Valid := by
    by_contra hinvalid
    rw [utcTime_of_invalid (hsame.symm ▸ hinvalid)] at h
    cases h
  rw [utcTime_of_valid (hsame.symm ▸ hfields), hsame] at h
  split_ifs at h with hmod
  · obtain rfl := Option.some_inj.mp h
    exact ⟨fraction, blanks, zone, rfl, ⟨hyear, hpairs, hsep, hdigits, hzone⟩, ⟨hfields, hsecMax, hzoneValid⟩, hmod, rfl⟩
  · cases h

lemma iso8601Utc_some (h : iso8601Utc str = some v) : ∃ s : Stamp, s.text = str ∧ s.Loose ∧ s.Valid ∧
    s.fields.timestamp % 2 ^ 32 < 2 ^ 31 ∧ v = s.fields.timestamp.bmod (2 ^ 32) - s.zone.seconds := by
  have hguard : ¬ ((charAt str 0).isDigit = false ∨ 19 > str.length ∨ (charAt str 10 ≠ 'T' ∧ charAt str 10 ≠ ' ') ∨
      charAt str 4 ≠ '-' ∨ charAt str 7 ≠ '-' ∨ charAt str 13 ≠ ':' ∨ charAt str 16 ≠ ':') := by
    intro hbad
    rw [iso8601Utc, if_pos hbad] at h
    cases h
  simp only [not_or, not_and_or, not_not, not_lt] at hguard
  obtain ⟨hfirst, hlen, hsep, h4, h7, h13, h16⟩ := hguard
  obtain ⟨c, y, m, d, hour, i, sec, a, b, sep, e, f, tail, rfl⟩ := pieces hlen
  obtain rfl : a = '-' := h4
  obtain rfl : b = '-' := h7
  obtain rfl : e = ':' := h13
  obtain rfl : f = ':' := h16
  have hlead : c.Leads := Bool.eq_true_of_not_eq_false hfirst
  have hread := (iso8601Utc_before (s := ⟨c, y, m, d, sep, hour, i, sec, none, 0, .none⟩) hlead hsep tail).symm.trans h
  obtain ⟨fraction, blanks, zone, rfl, hrest⟩ := readBefore_some hlead hsep hread
  exact ⟨_, rfl, hrest⟩

end

section

variable {s s' : Stamp}

lemma Zone.Loose.text_inj {zone zone' : Zone} (h : zone.Loose) (h' : zone'.Loose) (htext : zone.text = zone'.text) :
    zone = zone' := by
  cases h with
  | none =>
    cases h' with
    | none => rfl
    | utc _ _ => cases htext
    | offset _ _ _ _ => cases htext
  | utc _ hletter =>
    cases h' with
    | none => cases htext
    | utc _ _ =>
      obtain ⟨rfl, rfl⟩ := List.cons.inj htext
      rfl
    | offset hsign _ _ _ =>
      obtain ⟨rfl, -⟩ := List.cons.inj htext
      rcases hletter with rfl | rfl <;> simp at hsign
  | offset hsign _ _ _ =>
    cases h' with
    | none => cases htext
    | utc _ hletter =>
      obtain ⟨rfl, -⟩ := List.cons.inj htext
      rcases hletter with rfl | rfl <;> simp at hsign
    | @offset _ hour' _ _ _ _ _ =>
      simp only [Zone.text, Pair.text, List.cons_append, List.nil_append, List.cons.injEq] at htext
      obtain ⟨rfl, hfirst, hsecond, -, rfl⟩ := htext
      obtain ⟨first, second⟩ := hour'
      obtain rfl : _ = first := hfirst
      obtain rfl : _ = second := hsecond
      rfl

lemma digits_blanks_inj {d d' : Text} {b b' : ℕ} (hd : ∀ c ∈ d, c.isDigit) (hd' : ∀ c ∈ d', c.isDigit)
    (h : d ++ List.replicate b ' ' = d' ++ List.replicate b' ' ') : d = d' ∧ b = b' := by
  have hends : ∀ n, Ends Char.isDigit (List.replicate n ' ') := by
    intro n
    cases n with
    | zero => exact ends_nil
    | succ n => exact ends_cons rfl _
  obtain ⟨hsame, hblanks⟩ := run_inj hd hd' (hends b) (hends b') h
  exact ⟨hsame, by simpa using congrArg List.length hblanks⟩

lemma fraction_inj {f f' : Option Text} {b b' : ℕ} (hf : ∀ digits ∈ f, ∀ c ∈ digits, c.isDigit)
    (hf' : ∀ digits ∈ f', ∀ c ∈ digits, c.isDigit)
    (h : fractionText f ++ List.replicate b ' ' = fractionText f' ++ List.replicate b' ' ') : f = f' ∧ b = b' := by
  have hdot : ∀ (n : ℕ) (text : Text), List.replicate n ' ' ≠ '.' :: text := by
    intro n text
    cases n <;> simp [List.replicate_succ]
  cases f with
  | none =>
    cases f' with
    | none => exact ⟨rfl, by simpa [fractionText] using congrArg List.length h⟩
    | some digits' => exact absurd h (hdot b _)
  | some digits =>
    cases f' with
    | none => exact absurd h.symm (hdot b' _)
    | some digits' =>
      obtain ⟨rfl, rfl⟩ := digits_blanks_inj (hf digits rfl) (hf' digits' rfl) (List.cons.inj h).2
      exact ⟨rfl, rfl⟩

lemma Stamp.Loose.text_inj (h : s.Loose) (h' : s'.Loose) (htext : s.text = s'.text) : s = s' := by
  obtain ⟨c, y, mon, mday, sep, hour, min, sec, fraction, blanks, zone⟩ := s
  obtain ⟨c', y', mon', mday', sep', hour', min', sec', fraction', blanks', zone'⟩ := s'
  obtain ⟨-, -, -, hdigits, hzone⟩ := h
  obtain ⟨-, -, -, hdigits', hzone'⟩ := h'
  simp only [Stamp.text, Stamp.before, Pair.text, List.cons_append, List.nil_append, List.cons.injEq, true_and] at htext
  obtain ⟨h1, h2, h3, h4, h5, h6, h7, h8, rfl, h9, h10, h11, h12, h13, h14, htail⟩ := htext
  have hsame : ∀ {p p' : Pair}, p.first = p'.first → p.second = p'.second → p = p' := by
    rintro ⟨a, b⟩ ⟨a', b'⟩ rfl rfl
    rfl
  obtain rfl := hsame h1 h2
  obtain rfl := hsame h3 h4
  obtain rfl := hsame h5 h6
  obtain rfl := hsame h7 h8
  obtain rfl := hsame h9 h10
  obtain rfl := hsame h11 h12
  obtain rfl := hsame h13 h14
  have hskip := congrArg skipFraction htail
  simp only [Stamp.tail] at htail hskip
  rw [skip_text hdigits blanks hzone.head, skip_text hdigits' blanks' hzone'.head] at hskip
  obtain rfl := hzone.text_inj hzone' hskip
  obtain ⟨rfl, rfl⟩ := fraction_inj hdigits hdigits' (List.append_cancel_right htail)
  rfl

end

section

variable {s : Stamp} {str : Text}

/-- A blank in front of nothing or of `Z`, `z`, text behind the `Z`, or an offset that is not one blank at most, a sign,
two digits, a colon and two digits. -/
def Zone.Irregular (blanks : ℕ) : Zone → Prop
  | .none => blanks ≠ 0
  | .utc letter after => blanks ≠ 0 ∨ letter ≠ 'Z' ∨ after ≠ []
  | .offset _ hour minutes => 1 < blanks ∨ ¬ hour.Digits ∨ ¬ (minutes.length = 2 ∧ ∀ c ∈ minutes, c.isDigit)

def Stamp.Irregular (s : Stamp) : Prop :=
  (∃ p ∈ [s.mon, s.mday, s.hour, s.min, s.sec], ¬ p.Digits) ∨ s.fraction = some [] ∨ s.zone.Irregular s.blanks

lemma Zone.Documented.regular {blanks : ℕ} {zone : Zone} (h : zone.Documented blanks) :
    zone.Loose ∧ ¬ zone.Irregular blanks := by
  cases h with
  | none => exact ⟨.none, fun h => h rfl⟩
  | utc => exact ⟨.utc [] (.inl rfl), by simp [Zone.Irregular]⟩
  | @offset _ _ _ minutes hblanks hsign hhour hminutes =>
    refine ⟨.offset hsign hhour.leads le_rfl hminutes.1, ?_⟩
    rintro (h | h | h)
    · omega
    · exact h hhour
    · exact h ⟨rfl, by simpa [Pair.text, Pair.Digits] using hminutes⟩

lemma Zone.Loose.documented {blanks : ℕ} {zone : Zone} (h : zone.Loose) (hregular : ¬ zone.Irregular blanks) :
    zone.Documented blanks := by
  cases h with
  | none =>
    obtain rfl := not_not.mp hregular
    exact .none
  | utc after hletter =>
    simp only [Zone.Irregular, not_or, not_not] at hregular
    obtain ⟨rfl, rfl, rfl⟩ := hregular
    exact .utc
  | @offset _ _ minutes hsign hhour hlen hminutes =>
    simp only [Zone.Irregular, not_or, not_not, not_lt] at hregular
    obtain ⟨hblanks, hdigits, hlen, hall⟩ := hregular
    obtain ⟨a, b, rfl⟩ := List.length_eq_two.mp hlen
    have hpair : (⟨a, b⟩ : Pair).Digits := ⟨hall a (by simp), hall b (by simp)⟩
    exact .offset hblanks hsign hdigits hpair

lemma documented_iff : s.Documented ↔ s.Loose ∧ ¬ s.Irregular := by
  constructor
  · rintro ⟨hpairs, hsep, hfraction, hzone⟩
    obtain ⟨hloose, hregular⟩ := hzone.regular
    refine ⟨⟨⟨hpairs _ (by simp), hpairs _ (by simp)⟩, fun p hp => (hpairs p (by simp_all)).leads, hsep,
      fun digits hdigits => (hfraction digits hdigits).2, hloose⟩, ?_⟩
    rintro (⟨p, hp, hbad⟩ | hempty | hbad)
    · exact hbad (hpairs p (by simp_all))
    · exact (hfraction [] hempty).1 rfl
    · exact hregular hbad
  · rintro ⟨⟨hyear, -, hsep, hfraction, hzone⟩, hregular⟩
    simp only [Stamp.Irregular, not_or, not_exists, not_and, not_not] at hregular
    obtain ⟨hpairs, hempty, hzoneRegular⟩ := hregular
    refine ⟨?_, hsep, ?_, hzone.documented hzoneRegular⟩
    · rw [List.forall_mem_cons, List.forall_mem_cons]
      exact ⟨hyear.1, hyear.2, hpairs⟩
    · intro digits hdigits
      refine ⟨?_, hfraction digits hdigits⟩
      rintro rfl
      exact hempty hdigits

def Denotes (str : Text) (v : ℤ) : Prop := ∃ s : Stamp, s.text = str ∧ s.Documented ∧ s.Valid ∧ v = s.value

def Deviates (str : Text) : Prop :=
  ∃ s : Stamp, s.text = str ∧ s.Loose ∧ s.Valid ∧
    ((s.Irregular ∧ s.fields.timestamp % 2 ^ 32 < 2 ^ 31) ∨ (¬ s.Irregular ∧ 2 ^ 31 ≤ s.fields.timestamp))

theorem iso8601_read_unless_irregular_or_late (str : Text) :
    (∀ v, iso8601Utc str = some v ↔ Denotes str v) ↔ ¬ Deviates str := by
  constructor
  · rintro h ⟨s, rfl, hloose, hvalid, hcase⟩
    have hread := iso8601Utc_text hloose hvalid
    rcases hcase with ⟨hirregular, hmod⟩ | ⟨hregular, hlate⟩
    · rw [if_pos hmod] at hread
      obtain ⟨s', htext, hdocumented, -, -⟩ := (h _).mp hread
      obtain ⟨hloose', hregular⟩ := documented_iff.mp hdocumented
      exact hregular (hloose'.text_inj hloose htext ▸ hirregular)
    · have hdenotes := (h s.value).mpr ⟨s, rfl, documented_iff.mpr ⟨hloose, hregular⟩, hvalid, rfl⟩
      rw [hread] at hdenotes
      split_ifs at hdenotes
      have hsame : s.fields.timestamp.bmod (2 ^ 32) = s.fields.timestamp :=
        sub_left_injective (Option.some_inj.mp hdenotes)
      have := (bmod_int s.fields.timestamp).2
      omega
  · intro h v
    constructor
    · intro hv
      obtain ⟨s, rfl, hloose, hvalid, hmod, rfl⟩ := iso8601Utc_some hv
      have hregular : ¬ s.Irregular := fun hirregular => h ⟨s, rfl, hloose, hvalid, .inl ⟨hirregular, hmod⟩⟩
      have hearly : s.fields.timestamp < 2 ^ 31 :=
        not_le.mp fun hlate => h ⟨s, rfl, hloose, hvalid, .inr ⟨hregular, hlate⟩⟩
      have hnonneg := hvalid.fields.timestamp_nonneg
      refine ⟨s, rfl, documented_iff.mpr ⟨hloose, hregular⟩, hvalid, ?_⟩
      rw [bmod_self (by omega) hearly, Stamp.value]
    · rintro ⟨s, rfl, hdocumented, hvalid, rfl⟩
      obtain ⟨hloose, hregular⟩ := documented_iff.mp hdocumented
      have hearly : s.fields.timestamp < 2 ^ 31 :=
        not_le.mp fun hlate => h ⟨s, rfl, hloose, hvalid, .inr ⟨hregular, hlate⟩⟩
      have hnonneg := hvalid.fields.timestamp_nonneg
      rw [iso8601Utc_text hloose hvalid, if_pos (by omega), bmod_self (by omega) hearly, Stamp.value]

def zulu : Stamp :=
  ⟨⟨'2', '0'⟩, ⟨'1', '3'⟩, ⟨'0', '6'⟩, ⟨'0', '4'⟩, 'T', ⟨'1', '4'⟩, ⟨'1', '9'⟩, ⟨'2', '3'⟩, none, 0, .utc 'Z' "ulu".toList⟩

theorem text_behind_the_zone_is_accepted :
    ¬ ∀ v, iso8601Utc "2013-06-04T14:19:23Zulu".toList = some v ↔ Denotes "2013-06-04T14:19:23Zulu".toList v := by
  intro h
  have hread : iso8601Utc "2013-06-04T14:19:23Zulu".toList = some 1370355563 := by decide +kernel
  obtain ⟨s, htext, hdocumented, -, -⟩ := (h _).mp hread
  have hloose : zulu.Loose := by
    refine ⟨⟨⟨rfl, rfl⟩, rfl, rfl⟩, ?_, .inl rfl, by simp [zulu], .utc _ (.inl rfl)⟩
    simp only [zulu, List.forall_mem_cons]
    exact ⟨rfl, rfl, rfl, rfl, rfl, by simp⟩
  obtain ⟨hloose', hregular⟩ := documented_iff.mp hdocumented
  obtain rfl := hloose'.text_inj hloose htext
  exact hregular (.inr (.inr (.inr (.inr (by decide)))))

end

end Glaber.Time.Iso8601
