import Glaber.Expr.PeriodGrammar

namespace Glaber.Expr

open Glaber.Lib.Spans

section

inductive SchedulerUnit where
  | mday
  | wday
  | hour
  | minute
  | second
  deriving DecidableEq

namespace SchedulerUnit

def rank : SchedulerUnit → ℕ
  | mday => 0
  | wday => 1
  | hour => 2
  | minute => 3
  | second => 4

def name : SchedulerUnit → List Char
  | mday => ['m', 'd']
  | wday => ['w', 'd']
  | hour => ['h']
  | minute => ['m']
  | second => ['s']

def min : SchedulerUnit → ℕ
  | mday | wday => 1
  | _ => 0

def max : SchedulerUnit → ℕ
  | mday => 31
  | wday => 7
  | hour => 23
  | minute | second => 59

def varLen : SchedulerUnit → ℕ
  | wday => 1
  | _ => 2

end SchedulerUnit

structure Numeral (varLen : ℕ) (digits : List Char) : Prop where
  ne : digits ≠ []
  all : ∀ c ∈ digits, c.isDigit
  short : digits.length ≤ varLen

inductive FilterText where
  | single (a : List Char)
  | range (a b : List Char)
  | steps (a b s : List Char)
  | every (s : List Char)

namespace FilterText

def text : FilterText → List Char
  | single a => a
  | range a b => a ++ '-' :: b
  | steps a b s => a ++ '-' :: (b ++ '/' :: s)
  | every s => '/' :: s

def filter (unit : SchedulerUnit) : FilterText → SchedulerFilter
  | single a => ⟨number a, number a, 1⟩
  | range a b => ⟨number a, number b, 1⟩
  | steps a b s => ⟨number a, number b, number s⟩
  | every s => ⟨unit.min, unit.max, number s⟩

def Valid (unit : SchedulerUnit) : FilterText → Prop
  | single a => Numeral unit.varLen a ∧ unit.min ≤ number a ∧ number a ≤ unit.max
  | range a b => Numeral unit.varLen a ∧ Numeral unit.varLen b ∧ unit.min ≤ number a ∧ number a ≤ number b ∧
      number b ≤ unit.max
  | steps a b s => Numeral unit.varLen a ∧ Numeral unit.varLen b ∧ Numeral unit.varLen s ∧ unit.min ≤ number a ∧
      number a ≤ number b ∧ number b ≤ unit.max ∧ 1 ≤ number s ∧ number s ≤ number b - number a
  | every s => Numeral unit.varLen s ∧ 1 ≤ number s ∧ number s ≤ unit.max - unit.min

end FilterText

structure PartText where
  unit : SchedulerUnit
  filters : List FilterText

def filtersText : List FilterText → List Char
  | [] => []
  | [f] => f.text
  | f :: g :: filters => f.text ++ ',' :: filtersText (g :: filters)

def PartText.text (p : PartText) : List Char := p.unit.name ++ filtersText p.filters

structure PartText.Valid (p : PartText) : Prop where
  ne : p.filters ≠ []
  filters : ∀ f ∈ p.filters, f.Valid p.unit

def partsText (parts : List PartText) : List Char := parts.flatMap PartText.text

def partsFilters (parts : List PartText) (unit : SchedulerUnit) : List SchedulerFilter :=
  parts.flatMap fun p => if p.unit = unit then p.filters.map (FilterText.filter unit) else []

structure Ordered (parts : List PartText) : Prop where
  valid : ∀ p ∈ parts, p.Valid
  sorted : parts.Pairwise fun p q => p.unit.rank < q.unit.rank

def SchedulerInterval.filters (interval : SchedulerInterval) : SchedulerUnit → List SchedulerFilter
  | .mday => interval.mdays
  | .wday => interval.wdays
  | .hour => interval.hours
  | .minute => interval.minutes
  | .second => interval.seconds

end

section

variable {unit : SchedulerUnit} {min max varLen start stop step : ℕ} {a b s text rest : List Char}

lemma number_numeral (hmax : max ≤ 18446744073709551615) (ha : Numeral varLen a) (hlow : min ≤ number a)
    (hhigh : number a ≤ max) : isUintNRange a min max = some (number a) :=
  (isUintNRange_iff hmax).mpr ⟨ha.ne, ha.all, hlow, hhigh, rfl⟩

lemma span_digits (text : List Char) : ∃ digits rest, text = digits ++ rest ∧ (∀ c ∈ digits, c.isDigit) ∧
    Ends Char.isDigit rest ∧ text.span Char.isDigit = (digits, rest) := by
  refine ⟨_, _, List.takeWhile_append_dropWhile.symm, fun c hc => List.mem_takeWhile_imp hc, ends_dropWhile text, ?_⟩
  exact List.span_eq_takeWhile_dropWhile Char.isDigit text

inductive Ranged (min max varLen : ℕ) (text : List Char) : ℕ → ℕ → List Char → Prop
  | all : Ranged min max varLen text min max text
  | one {a rest : List Char} (ha : Numeral varLen a) (hlow : min ≤ number a) (hhigh : number a ≤ max)
      (hslash : ∀ tail, rest ≠ '/' :: tail) (htext : text = a ++ rest) :
      Ranged min max varLen text (number a) (number a) rest
  | two {a b rest : List Char} (ha : Numeral varLen a) (hb : Numeral varLen b) (hlow : min ≤ number a)
      (hle : number a ≤ number b) (hhigh : number b ≤ max) (htext : text = a ++ '-' :: (b ++ rest)) :
      Ranged min max varLen text (number a) (number b) rest

lemma rangeParse_sound (hmax : max ≤ 18446744073709551615)
    (h : rangeParse min max varLen text = some (start, stop, rest)) : Ranged min max varLen text start stop rest := by
  obtain ⟨a, after, rfl, ha, -, hspan⟩ := span_digits text
  rw [rangeParse, hspan] at h
  simp only at h
  split_ifs at h with hnil hlong
  · cases h
    exact .all
  · obtain ⟨v, hv, h⟩ := Option.bind_eq_some_iff.mp h
    obtain ⟨hne, -, hlow, hhigh, rfl⟩ := (isUintNRange_iff hmax).mp hv
    have hnumeral : Numeral varLen a := ⟨hne, ha, not_lt.mp hlong⟩
    split at h
    · rename_i tail _
      obtain ⟨b, after, rfl, hb, -, hspan'⟩ := span_digits tail
      rw [hspan'] at h
      simp only at h
      split_ifs at h with hlong'
      obtain ⟨w, hw, h⟩ := Option.bind_eq_some_iff.mp h
      obtain ⟨hne', -, hlow', hhigh', rfl⟩ := (isUintNRange_iff hmax).mp hw
      split_ifs at h with horder
      cases h
      exact .two hnumeral ⟨hne', hb, not_lt.mp hlong'⟩ hlow (not_lt.mp horder) hhigh' rfl
    · cases h
    · rename_i hdash hslash
      cases h
      exact .one hnumeral hlow hhigh hslash rfl

lemma stepParse_sound {empty : Bool} (hmax : stop ≤ 18446744073709551615)
    (h : stepParse varLen start stop empty text = some (step, rest)) :
    (∃ s, text = '/' :: (s ++ rest) ∧ Numeral varLen s ∧ 1 ≤ number s ∧ number s ≤ stop - start ∧ step = number s) ∨
      (text = rest ∧ empty = false ∧ step = 1) := by
  rw [stepParse.eq_def] at h
  split at h
  · rename_i tail
    obtain ⟨s, after, rfl, hs, -, hspan⟩ := span_digits tail
    rw [hspan] at h
    simp only at h
    split_ifs at h with hlong
    obtain ⟨v, hv, h⟩ := Option.map_eq_some_iff.mp h
    obtain ⟨hne, -, hlow, hhigh, rfl⟩ := (isUintNRange_iff (by omega)).mp hv
    cases h
    exact .inl ⟨s, rfl, ⟨hne, hs, not_lt.mp hlong⟩, hlow, hhigh, rfl⟩
  · split_ifs at h with hempty
    cases h
    exact .inr ⟨rfl, by simpa using hempty, rfl⟩

lemma rangeParse_all (hends : Ends Char.isDigit text) : rangeParse min max varLen text = some (min, max, text) := by
  have hspan : text.span Char.isDigit = ([], text) := span_run (List.forall_mem_nil _) hends
  rw [rangeParse, hspan]
  rfl

lemma rangeParse_one (hmax : max ≤ 18446744073709551615) (ha : Numeral varLen a) (hlow : min ≤ number a)
    (hhigh : number a ≤ max) (hends : Ends Char.isDigit rest) (hdash : ∀ tail, rest ≠ '-' :: tail)
    (hslash : ∀ tail, rest ≠ '/' :: tail) :
    rangeParse min max varLen (a ++ rest) = some (number a, number a, rest) := by
  rw [rangeParse, span_run ha.all hends]
  simp only [if_neg ha.ne, if_neg (not_lt.mpr ha.short), number_numeral hmax ha hlow hhigh, Option.bind_eq_bind,
    Option.bind_some]
  rfl

lemma rangeParse_two (hmax : max ≤ 18446744073709551615) (ha : Numeral varLen a) (hb : Numeral varLen b)
    (hlow : min ≤ number a) (hle : number a ≤ number b) (hhigh : number b ≤ max) (hends : Ends Char.isDigit rest) :
    rangeParse min max varLen (a ++ '-' :: (b ++ rest)) = some (number a, number b, rest) := by
  rw [rangeParse, span_run ha.all (dash_ends _)]
  simp only [if_neg ha.ne, if_neg (not_lt.mpr ha.short), number_numeral hmax ha hlow (hle.trans hhigh),
    span_run hb.all hends, if_neg (not_lt.mpr hb.short), number_numeral hmax hb (hlow.trans hle) hhigh,
    if_neg (not_lt.mpr hle), Option.bind_eq_bind, Option.bind_some]
  rfl

lemma stepParse_step {empty : Bool} (hmax : stop ≤ 18446744073709551615) (hs : Numeral varLen s) (hlow : 1 ≤ number s)
    (hhigh : number s ≤ stop - start) (hends : Ends Char.isDigit rest) :
    stepParse varLen start stop empty ('/' :: (s ++ rest)) = some (number s, rest) := by
  rw [stepParse, span_run hs.all hends]
  simp only [if_neg (not_lt.mpr hs.short), number_numeral (by omega : stop - start ≤ 18446744073709551615) hs hlow hhigh,
    Option.map_some]

lemma stepParse_none (hslash : ∀ tail, rest ≠ '/' :: tail) : stepParse varLen start stop false rest = some (1, rest) := by
  rw [stepParse.eq_def]
  split
  · exact absurd rfl (hslash _)
  · rfl

lemma SchedulerUnit.max_le (unit : SchedulerUnit) : unit.max ≤ 18446744073709551615 := by
  cases unit <;> decide

def filterParse (unit : SchedulerUnit) (text : List Char) : Option (SchedulerFilter × List Char) := do
  let (start, stop, rest) ← rangeParse unit.min unit.max unit.varLen text
  let (step, rest) ← stepParse unit.varLen start stop (rest = text) rest
  return (⟨start, stop, step⟩, rest)

def Follows (rest : List Char) : Prop := ∀ c ∈ rest.head?, c.isDigit = false ∧ c ≠ '-' ∧ c ≠ '/'

lemma Follows.ends (h : Follows rest) : Ends Char.isDigit rest := fun c hc => (h c hc).1

lemma Follows.not_dash (h : Follows rest) (tail : List Char) : rest ≠ '-' :: tail := by
  rintro rfl
  exact (h '-' rfl).2.1 rfl

lemma Follows.not_slash (h : Follows rest) (tail : List Char) : rest ≠ '/' :: tail := by
  rintro rfl
  exact (h '/' rfl).2.2 rfl

lemma filterParse_sound {filter : SchedulerFilter} (h : filterParse unit text = some (filter, rest)) :
    ∃ f : FilterText, text = f.text ++ rest ∧ f.Valid unit ∧ filter = f.filter unit := by
  obtain ⟨⟨start, stop, after⟩, hrange, h⟩ := Option.bind_eq_some_iff.mp h
  obtain ⟨⟨step, rest'⟩, hstep, h⟩ := Option.bind_eq_some_iff.mp h
  cases h
  have hranged := rangeParse_sound unit.max_le hrange
  have hstop : stop ≤ 18446744073709551615 := by
    have hunit := unit.max_le
    cases hranged with
    | all => exact hunit
    | one _ _ hhigh _ _ => exact hhigh.trans hunit
    | two _ _ _ _ hhigh _ => exact hhigh.trans hunit
  rcases stepParse_sound hstop hstep with ⟨s, rfl, hs, hone, hfits, rfl⟩ | ⟨rfl, hempty, rfl⟩
  · cases hranged with
    | all => exact ⟨.every s, rfl, ⟨hs, hone, hfits⟩, rfl⟩
    | one _ _ _ hslash _ => exact absurd rfl (hslash _)
    | @two a b _ ha hb hlow hle hhigh htext =>
      exact ⟨.steps a b s, by simp [htext, FilterText.text], ⟨ha, hb, hs, hlow, hle, hhigh, hone, hfits⟩, rfl⟩
  · cases hranged with
    | all => simp at hempty
    | @one a _ ha hlow hhigh _ htext => exact ⟨.single a, htext, ⟨ha, hlow, hhigh⟩, rfl⟩
    | @two a b _ ha hb hlow hle hhigh htext =>
      exact ⟨.range a b, by simp [htext, FilterText.text], ⟨ha, hb, hlow, hle, hhigh⟩, rfl⟩

lemma append_ne_self (ha : a ≠ []) (rest : List Char) : decide (rest = a ++ rest) = false := by
  simp [ha]

lemma filterParse_complete {f : FilterText} (hf : f.Valid unit) (hrest : Follows rest) :
    filterParse unit (f.text ++ rest) = some (f.filter unit, rest) := by
  have hunit := unit.max_le
  cases f with
  | single a =>
    obtain ⟨ha, hlow, hhigh⟩ := hf
    rw [filterParse, FilterText.text, rangeParse_one hunit ha hlow hhigh hrest.ends hrest.not_dash hrest.not_slash]
    simp only [Option.bind_eq_bind, Option.bind_some, append_ne_self ha.ne, stepParse_none hrest.not_slash]
    rfl
  | range a b =>
    obtain ⟨ha, hb, hlow, hle, hhigh⟩ := hf
    have htext : (a ++ '-' :: b) ++ rest = a ++ '-' :: (b ++ rest) := by simp
    have hne : decide (rest = a ++ '-' :: (b ++ rest)) = false := by
      rw [← htext]
      exact append_ne_self (by simp) rest
    rw [filterParse, FilterText.text, htext, rangeParse_two hunit ha hb hlow hle hhigh hrest.ends]
    simp only [Option.bind_eq_bind, Option.bind_some, hne, stepParse_none hrest.not_slash]
    rfl
  | steps a b s =>
    obtain ⟨ha, hb, hs, hlow, hle, hhigh, hone, hfits⟩ := hf
    have htext : (a ++ '-' :: (b ++ '/' :: s)) ++ rest = a ++ '-' :: (b ++ '/' :: (s ++ rest)) := by simp
    rw [filterParse, FilterText.text, htext, rangeParse_two hunit ha hb hlow hle hhigh (ends_cons rfl _)]
    simp only [Option.bind_eq_bind, Option.bind_some, stepParse_step (hhigh.trans hunit) hs hone hfits hrest.ends]
    rfl
  | every s =>
    obtain ⟨hs, hone, hfits⟩ := hf
    have htext : ('/' :: s) ++ rest = '/' :: (s ++ rest) := rfl
    rw [filterParse, FilterText.text, htext, rangeParse_all (ends_cons rfl _)]
    simp only [Option.bind_eq_bind, Option.bind_some, stepParse_step hunit hs hone hfits hrest.ends]
    rfl

end

section

variable {unit : SchedulerUnit} {filters : List SchedulerFilter} {fs : List FilterText} {f : FilterText}
  {text rest : List Char}

lemma schedulerParseFilterR_some {fuel : ℕ}
    (h : schedulerParseFilterR unit.min unit.max unit.varLen (fuel + 1) text = some (filters, rest)) :
    ∃ first after, filterParse unit text = some (first, after) ∧
      ((∃ tail more, after = ',' :: tail ∧
        schedulerParseFilterR unit.min unit.max unit.varLen fuel tail = some (more, rest) ∧ filters = first :: more) ∨
      (after = rest ∧ filters = [first])) := by
  obtain ⟨⟨start, stop, after⟩, hrange, h⟩ := Option.bind_eq_some_iff.mp h
  obtain ⟨⟨step, after'⟩, hstep, h⟩ := Option.bind_eq_some_iff.mp h
  have hfirst : filterParse unit text = some (⟨start, stop, step⟩, after') :=
    Option.bind_eq_some_iff.mpr ⟨_, hrange, Option.bind_eq_some_iff.mpr ⟨_, hstep, rfl⟩⟩
  refine ⟨_, _, hfirst, ?_⟩
  simp only at h
  split at h
  · split_ifs at h
    obtain ⟨⟨more, after⟩, hmore, h⟩ := Option.bind_eq_some_iff.mp h
    cases h
    exact .inl ⟨_, _, rfl, hmore, rfl⟩
  · cases h
    exact .inr ⟨rfl, rfl⟩

lemma schedulerParseFilterR_comma {fuel : ℕ} {first : SchedulerFilter} {tail : List Char}
    (h : filterParse unit text = some (first, ',' :: tail)) (htail : tail ≠ [])
    (hmore : schedulerParseFilterR unit.min unit.max unit.varLen fuel tail = some (filters, rest)) :
    schedulerParseFilterR unit.min unit.max unit.varLen (fuel + 1) text = some (first :: filters, rest) := by
  obtain ⟨⟨start, stop, after⟩, hrange, h⟩ := Option.bind_eq_some_iff.mp h
  obtain ⟨⟨step, after'⟩, hstep, h⟩ := Option.bind_eq_some_iff.mp h
  cases h
  refine Option.bind_eq_some_iff.mpr ⟨_, hrange, Option.bind_eq_some_iff.mpr ⟨_, hstep, ?_⟩⟩
  refine (if_neg htail).trans ?_
  rw [hmore]
  rfl

lemma schedulerParseFilterR_last {fuel : ℕ} {first : SchedulerFilter} (h : filterParse unit text = some (first, rest))
    (hcomma : ∀ tail, rest ≠ ',' :: tail) :
    schedulerParseFilterR unit.min unit.max unit.varLen (fuel + 1) text = some ([first], rest) := by
  obtain ⟨⟨start, stop, after⟩, hrange, h⟩ := Option.bind_eq_some_iff.mp h
  obtain ⟨⟨step, after'⟩, hstep, h⟩ := Option.bind_eq_some_iff.mp h
  cases h
  refine Option.bind_eq_some_iff.mpr ⟨_, hrange, Option.bind_eq_some_iff.mpr ⟨_, hstep, ?_⟩⟩
  dsimp only
  split
  · exact absurd rfl (hcomma _)
  · rfl

lemma FilterText.Valid.text_cons (h : f.Valid unit) : ∃ c tail, f.text = c :: tail ∧ (c.isDigit = true ∨ c = '/') := by
  have hnumeral : ∀ {varLen : ℕ} {a : List Char}, Numeral varLen a → ∀ rest, ∃ c tail, a ++ rest = c :: tail ∧
      (c.isDigit = true ∨ c = '/') := by
    intro varLen a ha rest
    obtain ⟨c, tail, rfl⟩ := List.exists_cons_of_ne_nil ha.ne
    exact ⟨c, tail ++ rest, rfl, .inl (ha.all c List.mem_cons_self)⟩
  cases f with
  | single a => simpa [FilterText.text] using hnumeral h.1 []
  | range a b => exact hnumeral h.1 _
  | steps a b s => exact hnumeral h.1 _
  | every s => exact ⟨'/', s, rfl, .inr rfl⟩

lemma filtersText_cons (hf : f.Valid unit) (fs : List FilterText) :
    ∃ c tail, filtersText (f :: fs) = c :: tail ∧ (c.isDigit = true ∨ c = '/') := by
  obtain ⟨c, tail, htext, hc⟩ := hf.text_cons
  cases fs with
  | nil => exact ⟨c, tail, htext, hc⟩
  | cons g fs => exact ⟨c, tail ++ ',' :: filtersText (g :: fs), by rw [filtersText, htext, List.cons_append], hc⟩

lemma filterList_sound {fuel : ℕ}
    (h : schedulerParseFilterR unit.min unit.max unit.varLen fuel text = some (filters, rest)) :
    ∃ fs, fs ≠ [] ∧ text = filtersText fs ++ rest ∧ (∀ f ∈ fs, f.Valid unit) ∧
      filters = fs.map (FilterText.filter unit) := by
  induction fuel generalizing text filters with
  | zero => cases h
  | succ fuel ih =>
    obtain ⟨first, after, hfirst, hrest⟩ := schedulerParseFilterR_some h
    obtain ⟨f, rfl, hf, rfl⟩ := filterParse_sound hfirst
    rcases hrest with ⟨tail, more, rfl, hmore, rfl⟩ | ⟨rfl, rfl⟩
    · obtain ⟨fs, hne, rfl, hfs, rfl⟩ := ih hmore
      obtain ⟨g, gs, rfl⟩ := List.exists_cons_of_ne_nil hne
      exact ⟨f :: g :: gs, List.cons_ne_nil _ _, by simp [filtersText], List.forall_mem_cons.mpr ⟨hf, hfs⟩, rfl⟩
    · exact ⟨[f], List.cons_ne_nil _ _, rfl, by simpa using hf, rfl⟩

lemma filterList_complete {fuel : ℕ} (hne : fs ≠ []) (hfs : ∀ f ∈ fs, f.Valid unit) (hrest : Follows rest)
    (hcomma : ∀ tail, rest ≠ ',' :: tail) (hfuel : fs.length ≤ fuel) :
    schedulerParseFilterR unit.min unit.max unit.varLen fuel (filtersText fs ++ rest) =
      some (fs.map (FilterText.filter unit), rest) := by
  induction fs generalizing fuel with
  | nil => exact absurd rfl hne
  | cons f fs ih =>
    obtain ⟨hf, hfs⟩ := List.forall_mem_cons.mp hfs
    obtain ⟨fuel, rfl⟩ : ∃ k, fuel = k + 1 := ⟨fuel - 1, by rw [List.length_cons] at hfuel; omega⟩
    cases fs with
    | nil => exact schedulerParseFilterR_last (filterParse_complete hf hrest) hcomma
    | cons g fs =>
      have htext : filtersText (f :: g :: fs) ++ rest = f.text ++ ',' :: (filtersText (g :: fs) ++ rest) := by
        simp [filtersText]
      have hcommaFollows : Follows (',' :: (filtersText (g :: fs) ++ rest)) := by
        intro c hc
        obtain rfl := Option.some_inj.mp hc
        decide
      have hnil : filtersText (g :: fs) ++ rest ≠ [] := by
        obtain ⟨c, tail, hcons, -⟩ := filtersText_cons (List.forall_mem_cons.mp hfs).1 fs
        rw [hcons]
        exact List.cons_ne_nil _ _
      rw [htext]
      apply schedulerParseFilterR_comma (filterParse_complete hf hcommaFollows) hnil
      exact ih (List.cons_ne_nil _ _) hfs (by simpa using hfuel)

end

section

variable {unit : SchedulerUnit} {interval interval' : SchedulerInterval} {text rest : List Char}

def SchedulerUnit.level : SchedulerUnit → ℕ
  | .mday | .wday => 1
  | .hour => 2
  | .minute => 3
  | .second => 4

def SchedulerInterval.set (interval : SchedulerInterval) (filters : List SchedulerFilter) :
    SchedulerUnit → SchedulerInterval
  | .mday => { interval with mdays := filters, filterLevel := 1 }
  | .wday => { interval with wdays := filters, filterLevel := 1 }
  | .hour => { interval with hours := filters, filterLevel := 2 }
  | .minute => { interval with minutes := filters, filterLevel := 3 }
  | .second => { interval with seconds := filters, filterLevel := 4 }

@[simp] lemma filterLevel_set (filters : List SchedulerFilter) : (interval.set filters unit).filterLevel = unit.level := by
  cases unit <;> rfl

@[simp] lemma filters_set_self (filters : List SchedulerFilter) : (interval.set filters unit).filters unit = filters := by
  cases unit <;> rfl

lemma filters_set_of_ne {other : SchedulerUnit} (h : unit ≠ other) (filters : List SchedulerFilter) :
    (interval.set filters unit).filters other = interval.filters other := by
  cases unit <;> cases other <;> first | rfl | exact absurd rfl h

structure SchedulerInterval.Admits (interval : SchedulerInterval) (unit : SchedulerUnit) : Prop where
  level : interval.filterLevel ≤ unit.level
  unset : interval.filters unit = []
  wdays : unit = .mday → interval.wdays = []

def unitFilters (unit : SchedulerUnit) (text : List Char) : Option (List SchedulerFilter × List Char) :=
  schedulerParseFilterR unit.min unit.max unit.varLen (text.length + 1) text

lemma unitFilters_d (unit : SchedulerUnit) (text : List Char) : unitFilters unit ('d' :: text) = none := by
  have hnone : filterParse unit ('d' :: text) = none := by
    rw [filterParse, rangeParse_all (ends_cons rfl _)]
    simp [stepParse]
  refine Option.eq_none_iff_forall_ne_some.mpr fun result h => ?_
  obtain ⟨first, after, hfirst, -⟩ := schedulerParseFilterR_some h
  rw [hnone] at hfirst
  cases hfirst

lemma schedulerParseFilter_iff (unit : SchedulerUnit) {filters : List SchedulerFilter} :
    schedulerParseFilter (interval.filters unit) text unit.min unit.max unit.varLen = some (filters, rest) ↔
      interval.filters unit = [] ∧ unitFilters unit text = some (filters, rest) := by
  rw [schedulerParseFilter]
  split_ifs with h
  · exact iff_of_false (by simp) fun hand => h hand.1
  · exact (and_iff_right (not_not.mp h)).symm

lemma arm_sound (unit : SchedulerUnit) (hlevel : ¬ unit.level < interval.filterLevel)
    (hwdays : unit = .mday → interval.wdays = [])
    (h : (schedulerParseFilter (interval.filters unit) text unit.min unit.max unit.varLen).map
      (fun result => (interval.set result.1 unit, result.2)) = some (interval', rest)) :
    ∃ filters, interval.Admits unit ∧ unitFilters unit text = some (filters, rest) ∧
      interval' = interval.set filters unit := by
  obtain ⟨⟨filters, after⟩, hparse, hsame⟩ := Option.map_eq_some_iff.mp h
  cases hsame
  obtain ⟨hunset, hfilters⟩ := (schedulerParseFilter_iff unit).mp hparse
  exact ⟨filters, ⟨not_lt.mp hlevel, hunset, hwdays⟩, hfilters, rfl⟩

lemma schedulerUnitParse_sound (h : schedulerUnitParse interval text = some (interval', rest)) :
    ∃ unit tail filters, text = unit.name ++ tail ∧ interval.Admits unit ∧ unitFilters unit tail = some (filters, rest) ∧
      interval' = interval.set filters unit := by
  rw [schedulerUnitParse.eq_def] at h
  split at h
  · split_ifs at h with hlevel
    obtain ⟨filters, hread⟩ := arm_sound .hour hlevel (by simp) h
    exact ⟨.hour, _, filters, rfl, hread⟩
  · split_ifs at h with hlevel
    obtain ⟨filters, hread⟩ := arm_sound .second hlevel (by simp) h
    exact ⟨.second, _, filters, rfl, hread⟩
  · split_ifs at h with hlevel
    obtain ⟨filters, hread⟩ := arm_sound .wday hlevel (by simp) h
    exact ⟨.wday, _, filters, rfl, hread⟩
  · split_ifs at h with hguard
    obtain ⟨hlevel, hwdays⟩ := not_or.mp hguard
    obtain ⟨filters, hread⟩ := arm_sound .mday hlevel (fun _ => not_not.mp hwdays) h
    exact ⟨.mday, _, filters, rfl, hread⟩
  · split_ifs at h with hlevel
    obtain ⟨filters, hread⟩ := arm_sound .minute hlevel (by simp) h
    exact ⟨.minute, _, filters, rfl, hread⟩
  · cases h

lemma schedulerUnitParse_complete {filters : List SchedulerFilter} (hadmits : interval.Admits unit)
    (hfilters : unitFilters unit text = some (filters, rest)) :
    schedulerUnitParse interval (unit.name ++ text) = some (interval.set filters unit, rest) := by
  have hlevel := not_lt.mpr hadmits.level
  have hparse := (schedulerParseFilter_iff unit).mpr ⟨hadmits.unset, hfilters⟩
  cases unit with
  | mday =>
    have hguard : ¬ (1 < interval.filterLevel ∨ interval.wdays ≠ []) :=
      not_or.mpr ⟨hlevel, not_not.mpr (hadmits.wdays rfl)⟩
    exact (if_neg hguard).trans (congrArg (Option.map _) hparse)
  | wday => exact (if_neg hlevel).trans (congrArg (Option.map _) hparse)
  | hour => exact (if_neg hlevel).trans (congrArg (Option.map _) hparse)
  | second => exact (if_neg hlevel).trans (congrArg (Option.map _) hparse)
  | minute =>
    -- The name of a day of the month begins with that of a minute.
    have hnot : ∀ tail, text ≠ 'd' :: tail := by
      rintro tail rfl
      rw [unitFilters_d] at hfilters
      cases hfilters
    have harm : schedulerUnitParse interval ('m' :: text) = if 3 < interval.filterLevel then none
        else (schedulerParseFilter interval.minutes text 0 59 2).map fun result =>
          (interval.set result.1 .minute, result.2) := by
      rw [schedulerUnitParse]
      · rfl
      · exact hnot
    exact harm.trans ((if_neg hlevel).trans (congrArg (Option.map _) hparse))

end

section

variable {parts : List PartText} {p : PartText} {unit : SchedulerUnit} {interval : SchedulerInterval}

structure Holds (parts : List PartText) (interval : SchedulerInterval) : Prop where
  filters : ∀ unit, interval.filters unit = partsFilters parts unit
  level_le : ∀ p ∈ parts, p.unit.level ≤ interval.filterLevel
  level_mem : interval.filterLevel = 0 ∨ ∃ p ∈ parts, interval.filterLevel = p.unit.level

lemma partsFilters_eq_nil (hvalid : ∀ p ∈ parts, p.Valid) : partsFilters parts unit = [] ↔ ∀ p ∈ parts, p.unit ≠ unit := by
  rw [partsFilters, List.flatMap_eq_nil_iff]
  refine forall₂_congr fun p hp => ?_
  by_cases h : p.unit = unit
  · simp [h, (hvalid p hp).ne]
  · simp [h]

lemma Holds.admits_iff (h : Holds parts interval) (hvalid : ∀ p ∈ parts, p.Valid) :
    interval.Admits unit ↔ ∀ p ∈ parts, p.unit.rank < unit.rank := by
  constructor
  · rintro ⟨hlevel, hunset, hwdays⟩ p hp
    have hle := (h.level_le p hp).trans hlevel
    have hne : p.unit ≠ unit := (partsFilters_eq_nil hvalid).mp ((h.filters unit).symm.trans hunset) p hp
    have hwday : unit = .mday → p.unit ≠ .wday := fun hmday =>
      (partsFilters_eq_nil hvalid).mp ((h.filters .wday).symm.trans (hwdays hmday)) p hp
    revert hle hne hwday
    cases p.unit <;> cases unit <;> simp [SchedulerUnit.level, SchedulerUnit.rank]
  · intro hbefore
    have hne : ∀ p ∈ parts, p.unit ≠ unit := by
      rintro p hp rfl
      exact absurd (hbefore p hp) (lt_irrefl _)
    refine ⟨?_, (h.filters unit).trans ((partsFilters_eq_nil hvalid).mpr hne), ?_⟩
    · rcases h.level_mem with hzero | ⟨p, hp, hlevel⟩
      · omega
      · have hlt := hbefore p hp
        rw [hlevel]
        revert hlt
        cases p.unit <;> cases unit <;> simp [SchedulerUnit.level, SchedulerUnit.rank]
    · rintro rfl
      refine (h.filters .wday).trans ((partsFilters_eq_nil hvalid).mpr fun p hp => ?_)
      exact absurd (hbefore p hp) (Nat.not_lt_zero _)

lemma Holds.snoc (h : Holds parts interval) (hvalid : ∀ p ∈ parts, p.Valid)
    (hbefore : ∀ q ∈ parts, q.unit.rank < p.unit.rank) :
    Holds (parts ++ [p]) (interval.set (p.filters.map (FilterText.filter p.unit)) p.unit) where
  filters unit := by
    rw [partsFilters, List.flatMap_append, List.flatMap_singleton]
    by_cases hunit : p.unit = unit
    · subst hunit
      have hnone : partsFilters parts p.unit = [] := by
        refine (partsFilters_eq_nil hvalid).mpr ?_
        intro q hq hsame
        exact absurd (hbefore q hq) (by rw [hsame]; exact lt_irrefl _)
      rw [filters_set_self, ← partsFilters, hnone, if_pos rfl, List.nil_append]
    · rw [filters_set_of_ne hunit, h.filters unit, if_neg hunit, List.append_nil, partsFilters]
  level_le q hq := by
    rw [filterLevel_set]
    rcases List.mem_append.mp hq with hq | hq
    · have hlt := hbefore q hq
      revert hlt
      cases q.unit <;> cases p.unit <;> simp [SchedulerUnit.level, SchedulerUnit.rank]
    · rw [List.mem_singleton.mp hq]
  level_mem := .inr ⟨p, by simp, filterLevel_set _⟩

lemma SchedulerUnit.name_cons (unit : SchedulerUnit) : ∃ c tail, unit.name = c :: tail ∧
    (c.isDigit = false ∧ c ≠ '-' ∧ c ≠ '/') ∧ c ≠ ',' := by
  cases unit
  · exact ⟨'m', ['d'], rfl, by decide⟩
  · exact ⟨'w', ['d'], rfl, by decide⟩
  · exact ⟨'h', [], rfl, by decide⟩
  · exact ⟨'m', [], rfl, by decide⟩
  · exact ⟨'s', [], rfl, by decide⟩

lemma partsText_follows (parts : List PartText) :
    Follows (partsText parts) ∧ ∀ tail, partsText parts ≠ ',' :: tail := by
  cases parts with
  | nil =>
    refine ⟨fun c hc => ?_, by simp [partsText]⟩
    cases hc
  | cons p parts =>
    obtain ⟨c, name, hname, hfollows, hcomma⟩ := p.unit.name_cons
    have htext : partsText (p :: parts) = c :: (name ++ filtersText p.filters ++ partsText parts) := by
      simp [partsText, PartText.text, hname]
    rw [htext]
    refine ⟨fun d hd => ?_, fun tail hsame => hcomma (List.cons.inj hsame).1⟩
    obtain rfl := Option.some_inj.mp hd
    exact hfollows

lemma length_le_filtersText {fs : List FilterText} (hfs : ∀ f ∈ fs, f.Valid unit) :
    fs.length ≤ (filtersText fs).length := by
  induction fs with
  | nil => exact le_rfl
  | cons f fs ih =>
    obtain ⟨hf, hfs⟩ := List.forall_mem_cons.mp hfs
    obtain ⟨c, tail, htext, -⟩ := hf.text_cons
    cases fs with
    | nil => simp [filtersText, htext]
    | cons g fs =>
      have hrest := ih hfs
      rw [filtersText, htext]
      simp only [List.length_append, List.length_cons] at hrest ⊢
      omega

lemma PartText.Valid.unitFilters (hp : p.Valid) (parts : List PartText) :
    unitFilters p.unit (filtersText p.filters ++ partsText parts) =
      some (p.filters.map (FilterText.filter p.unit), partsText parts) := by
  obtain ⟨hfollows, hcomma⟩ := partsText_follows parts
  have hlength := length_le_filtersText hp.filters
  apply filterList_complete hp.ne hp.filters hfollows hcomma
  rw [List.length_append]
  omega

lemma ordered_snoc {more : List PartText} (h : Ordered (parts ++ p :: more)) :
    (∀ q ∈ parts, q.Valid) ∧ p.Valid ∧ ∀ q ∈ parts, q.unit.rank < p.unit.rank := by
  obtain ⟨hvalid, hsorted⟩ := h
  refine ⟨fun q hq => hvalid q (by simp [hq]), hvalid p (by simp), fun q hq => ?_⟩
  exact (List.pairwise_append.mp hsorted).2.2 q hq p List.mem_cons_self

lemma schedulerIntervalLoop_complete {more : List PartText} (h : Holds parts interval) (hordered : Ordered (parts ++ more))
    {fuel : ℕ} (hfuel : (partsText more).length ≤ fuel) :
    ∃ result, schedulerIntervalLoop fuel interval (partsText more) = some result ∧ Holds (parts ++ more) result := by
  induction more generalizing parts interval fuel with
  | nil => exact ⟨interval, by rw [partsText, List.flatMap_nil, schedulerIntervalLoop], by rwa [List.append_nil]⟩
  | cons p more ih =>
    obtain ⟨hvalid, hp, hbefore⟩ := ordered_snoc hordered
    have htext : partsText (p :: more) = p.unit.name ++ (filtersText p.filters ++ partsText more) := by
      simp [partsText, PartText.text]
    have hunit := schedulerUnitParse_complete ((h.admits_iff hvalid).mpr hbefore) (hp.unitFilters more)
    obtain ⟨c, name, hname, -⟩ := p.unit.name_cons
    have hassoc : parts ++ p :: more = (parts ++ [p]) ++ more := by simp
    rw [htext] at hfuel ⊢
    rw [hname, List.cons_append, List.length_cons, List.length_append, List.length_append] at hfuel
    obtain ⟨fuel, rfl⟩ : ∃ k, fuel = k + 1 := ⟨fuel - 1, by omega⟩
    obtain ⟨result, hresult, hholds⟩ := ih (h.snoc hvalid hbefore) (hassoc ▸ hordered) (by omega : _ ≤ fuel)
    refine ⟨result, ?_, hassoc ▸ hholds⟩
    rw [hname, List.cons_append] at hunit ⊢
    rw [schedulerIntervalLoop, hunit, Option.bind_eq_bind, Option.bind_some]
    · exact hresult
    · simp

lemma schedulerIntervalLoop_sound {fuel : ℕ} {text : List Char} {result : SchedulerInterval} (h : Holds parts interval)
    (hordered : Ordered parts) (hrun : schedulerIntervalLoop fuel interval text = some result) :
    ∃ more, partsText more = text ∧ Ordered (parts ++ more) ∧ Holds (parts ++ more) result := by
  induction fuel generalizing parts interval text with
  | zero =>
    cases text with
    | nil =>
      rw [schedulerIntervalLoop] at hrun
      cases hrun
      exact ⟨[], rfl, by rwa [List.append_nil], by rwa [List.append_nil]⟩
    | cons c text => cases hrun
  | succ fuel ih =>
    cases text with
    | nil =>
      rw [schedulerIntervalLoop] at hrun
      cases hrun
      exact ⟨[], rfl, by rwa [List.append_nil], by rwa [List.append_nil]⟩
    | cons c text =>
      obtain ⟨⟨interval', rest⟩, hunit, hrun⟩ := Option.bind_eq_some_iff.mp hrun
      obtain ⟨unit, tail, filters, htext, hadmits, hfilters, rfl⟩ := schedulerUnitParse_sound hunit
      obtain ⟨fs, hne, rfl, hfs, rfl⟩ := filterList_sound hfilters
      have hbefore := (h.admits_iff hordered.valid).mp hadmits
      have hnext : Ordered (parts ++ [⟨unit, fs⟩]) := by
        refine ⟨?_, List.pairwise_append.mpr ⟨hordered.sorted, List.pairwise_singleton _ _, ?_⟩⟩
        · intro q hq
          rcases List.mem_append.mp hq with hq | hq
          · exact hordered.valid q hq
          · obtain rfl := List.mem_singleton.mp hq
            exact ⟨hne, hfs⟩
        · intro q hq r hr
          obtain rfl := List.mem_singleton.mp hr
          exact hbefore q hq
      have hholds : Holds (parts ++ [⟨unit, fs⟩]) (interval.set (fs.map (FilterText.filter unit)) unit) :=
        h.snoc hordered.valid hbefore
      obtain ⟨more, hmore, hordered', hholds'⟩ := ih hholds hnext hrun
      rw [List.append_assoc, List.singleton_append] at hordered' hholds'
      refine ⟨⟨unit, fs⟩ :: more, ?_, hordered', hholds'⟩
      rw [htext, ← hmore]
      simp [partsText, PartText.text]

end

section

def emptyInterval : SchedulerInterval := ⟨[], [], [], [], [], 0⟩

lemma holds_nil : Holds [] emptyInterval where
  filters unit := by cases unit <;> rfl
  level_le := by simp
  level_mem := .inl rfl

theorem scheduler_interval_parse_reads_the_grammar (text : List Char) (filters : SchedulerUnit → List SchedulerFilter) :
    (schedulerIntervalParse text).map SchedulerInterval.filters = some filters ↔
      ∃ parts : List PartText, parts ≠ [] ∧ partsText parts = text ∧ Ordered parts ∧ filters = partsFilters parts := by
  rw [schedulerIntervalParse]
  constructor
  · intro h
    obtain ⟨result, hrun, rfl⟩ := Option.map_eq_some_iff.mp h
    split_ifs at hrun with hnil
    obtain ⟨parts, rfl, hordered, hholds⟩ := schedulerIntervalLoop_sound holds_nil ⟨by simp, .nil⟩ hrun
    refine ⟨parts, ?_, rfl, hordered, funext hholds.filters⟩
    rintro rfl
    exact hnil rfl
  · rintro ⟨parts, hne, rfl, hordered, rfl⟩
    obtain ⟨p, parts, rfl⟩ := List.exists_cons_of_ne_nil hne
    have hnil : partsText (p :: parts) ≠ [] := by
      obtain ⟨c, name, hname, -⟩ := p.unit.name_cons
      simp [partsText, PartText.text, hname]
    obtain ⟨result, hresult, hholds⟩ := schedulerIntervalLoop_complete holds_nil hordered le_rfl
    rw [if_neg hnil]
    exact Option.map_eq_some_iff.mpr ⟨result, hresult, funext hholds.filters⟩

end

end Glaber.Expr
