import Glaber.Common

/-! Update intervals (`interval.c`): the parser and the validator of their texts. A pointer with a length is the list of
these characters. -/

namespace Glaber.Expr

def secPerMin : ℕ := 60
def secPerHour : ℕ := 3600
def secPerDay : ℕ := 86400
def secPerWeek : ℕ := 604800
def intMax : ℕ := 2147483647

section

def digit (c : Char) : ℕ := c.toNat - 48

def readDigits (max : ℕ) : ℕ → List Char → Option (ℕ × List Char)
  | value, [] => some (value, [])
  | value, c :: str =>
    if c.isDigit then
      if (max - digit c) / 10 < value then none else readDigits max (value * 10 + digit c) str
    else some (value, c :: str)

def suffixFactor : List Char → Option (ℕ × List Char)
  | [] => some (1, [])
  | 's' :: str => some (1, str)
  | 'm' :: str => some (secPerMin, str)
  | 'h' :: str => some (secPerHour, str)
  | 'd' :: str => some (secPerDay, str)
  | 'w' :: str => some (secPerWeek, str)
  | _ => none

def isTimeSuffix (str : List Char) : Option ℕ :=
  if (str.head?.map Char.isDigit).getD false then do
    let (value, str) ← readDigits intMax 0 str
    let (factor, str) ← suffixFactor str
    if str ≠ [] ∨ intMax / factor < value then none else return value * factor
  else none

def isUintNRange (str : List Char) (min max : ℕ) : Option ℕ :=
  if str = [] then none
  else do
    let (value, str) ← readDigits 18446744073709551615 0 str
    if str ≠ [] ∨ value < min ∨ max < value then none else return value

end

section

structure TimePeriod where
  startDay : ℕ
  endDay : ℕ
  startTime : ℕ
  endTime : ℕ
deriving DecidableEq

def takeDigits (text : List Char) : List Char × List Char :=
  let digits := (text.take 3).takeWhile Char.isDigit
  (digits, text.drop digits.length)

def timeParse (text : List Char) : Option (ℕ × List Char) :=
  let (digits, rest) := takeDigits text
  match isUintNRange digits 0 24, rest with
  | some hours, ':' :: rest =>
    let (digits, rest) := takeDigits rest
    if digits.length ≠ 2 then none
    else match isUintNRange digits 0 59 with
      | none => none
      | some minutes =>
        if hours = 24 ∧ minutes ≠ 0 then none else some (secPerHour * hours + secPerMin * minutes, rest)
  | _, _ => none

def dayParse : List Char → Option (ℕ × List Char)
  | [] => none
  | c :: rest => if c < '1' ∨ '7' < c then none else some (digit c, rest)

def endDayParse (startDay : ℕ) : List Char → Option (ℕ × List Char)
  | '-' :: rest => do
    let (endDay, rest) ← dayParse rest
    if endDay < startDay then none else return (endDay, rest)
  | rest => some (startDay, rest)

def expect (c : Char) : List Char → Option (List Char)
  | [] => none
  | d :: rest => if d = c then some rest else none

def timePeriodParse (text : List Char) : Option TimePeriod := do
  let (startDay, text) ← dayParse text
  let (endDay, text) ← endDayParse startDay text
  let text ← expect ',' text
  let (startTime, text) ← timeParse text
  let text ← expect '-' text
  let (endTime, text) ← timeParse text
  if endTime ≤ startTime ∨ text ≠ [] then none else return ⟨startDay, endDay, startTime, endTime⟩

end

section

structure SchedulerFilter where
  start : ℕ
  stop : ℕ
  step : ℕ
deriving DecidableEq

/-- A filter that is not set is an empty list; the levels are day 1, hour 2, minute 3, second 4. -/
structure SchedulerInterval where
  mdays : List SchedulerFilter
  wdays : List SchedulerFilter
  hours : List SchedulerFilter
  minutes : List SchedulerFilter
  seconds : List SchedulerFilter
  filterLevel : ℕ
deriving DecidableEq

def rangeParse (min max varLen : ℕ) (text : List Char) : Option (ℕ × ℕ × List Char) :=
  let (digits, rest) := text.span Char.isDigit
  if digits = [] then some (min, max, text)
  else if varLen < digits.length then none
  else do
    let start ← isUintNRange digits min max
    match rest with
    | '-' :: rest =>
      let (digits, rest) := rest.span Char.isDigit
      if varLen < digits.length then none
      else
        let stop ← isUintNRange digits min max
        if stop < start then none else return (start, stop, rest)
    | '/' :: _ => none
    | rest => return (start, start, rest)

def stepParse (varLen start stop : ℕ) (empty : Bool) : List Char → Option (ℕ × List Char)
  | '/' :: rest =>
    let (digits, rest) := rest.span Char.isDigit
    if varLen < digits.length then none else (isUintNRange digits 1 (stop - start)).map fun step => (step, rest)
  | rest => if empty then none else some (1, rest)

def schedulerParseFilterR (min max varLen : ℕ) : ℕ → List Char → Option (List SchedulerFilter × List Char)
  | 0, _ => none
  | fuel + 1, text => do
    let (start, stop, rest) ← rangeParse min max varLen text
    let (step, rest) ← stepParse varLen start stop (rest = text) rest
    match rest with
    | ',' :: rest =>
      if rest = [] then none
      else
        let (filters, rest) ← schedulerParseFilterR min max varLen fuel rest
        return (⟨start, stop, step⟩ :: filters, rest)
    | rest => return ([⟨start, stop, step⟩], rest)

def schedulerParseFilter (filter : List SchedulerFilter) (text : List Char) (min max varLen : ℕ) :
    Option (List SchedulerFilter × List Char) :=
  if filter ≠ [] then none else schedulerParseFilterR min max varLen (text.length + 1) text

def schedulerUnitParse (interval : SchedulerInterval) : List Char → Option (SchedulerInterval × List Char)
  | 'h' :: text =>
    if 2 < interval.filterLevel then none
    else (schedulerParseFilter interval.hours text 0 23 2).map fun (filters, rest) =>
      ({ interval with hours := filters, filterLevel := 2 }, rest)
  | 's' :: text =>
    if 4 < interval.filterLevel then none
    else (schedulerParseFilter interval.seconds text 0 59 2).map fun (filters, rest) =>
      ({ interval with seconds := filters, filterLevel := 4 }, rest)
  | 'w' :: 'd' :: text =>
    if 1 < interval.filterLevel then none
    else (schedulerParseFilter interval.wdays text 1 7 1).map fun (filters, rest) =>
      ({ interval with wdays := filters, filterLevel := 1 }, rest)
  | 'm' :: 'd' :: text =>
    if 1 < interval.filterLevel ∨ interval.wdays ≠ [] then none
    else (schedulerParseFilter interval.mdays text 1 31 2).map fun (filters, rest) =>
      ({ interval with mdays := filters, filterLevel := 1 }, rest)
  | 'm' :: text =>
    if 3 < interval.filterLevel then none
    else (schedulerParseFilter interval.minutes text 0 59 2).map fun (filters, rest) =>
      ({ interval with minutes := filters, filterLevel := 3 }, rest)
  | _ => none

def schedulerIntervalLoop : ℕ → SchedulerInterval → List Char → Option SchedulerInterval
  | _, interval, [] => some interval
  | 0, _, _ => none
  | fuel + 1, interval, text => do
    let (interval, rest) ← schedulerUnitParse interval text
    schedulerIntervalLoop fuel interval rest

def schedulerIntervalParse (text : List Char) : Option SchedulerInterval :=
  if text = [] then none else schedulerIntervalLoop text.length ⟨[], [], [], [], [], 0⟩ text

end

section

structure FlexibleInterval where
  period : TimePeriod
  delay : ℕ
deriving DecidableEq

structure CustomInterval where
  flexible : List FlexibleInterval
  scheduling : List SchedulerInterval
deriving DecidableEq

def cut (sep : Char) : List Char → List Char × Option (List Char)
  | [] => ([], none)
  | c :: str =>
    if c = sep then ([], some str)
    else (c :: (cut sep str).1, (cut sep str).2)

def flexibleIntervalParse (text : List Char) : Option FlexibleInterval := do
  let delay ← isTimeSuffix (cut '/' text).1
  let after ← (cut '/' text).2
  let period ← timePeriodParse after
  return ⟨period, delay⟩

def invalid (what : String) (str : List Char) : String :=
  "Invalid " ++ what ++ " \"" ++ String.ofList str ++ "\""

lemma cut_shorter {sep : Char} {str before after : List Char} (h : cut sep str = (before, some after)) :
    after.length < str.length := by
  induction str generalizing before with
  | nil => cases h
  | cons c str ih =>
    rw [cut] at h
    split_ifs at h
    · cases h
      exact Nat.lt_succ_self _
    · have hafter : (cut sep str).2 = some after := congrArg Prod.snd h
      exact (ih (Prod.ext rfl hafter)).trans (Nat.lt_succ_self _)

def preprocSegment (simple : ℕ) (custom : CustomInterval) (str : List Char) :
    Except String (CustomInterval × Option (List Char)) :=
  let segment := (cut ';' str).1
  let delim := (cut ';' str).2
  if (str.head?.map Char.isDigit).getD false then
    match flexibleIntervalParse segment with
    | none => .error (invalid "flexible interval" segment ++ ".")
    | some new =>
      if simple = 0 ∧ new.delay = 0 then .error (invalid "flexible interval" segment ++ ".")
      else .ok ({ custom with flexible := new :: custom.flexible }, delim)
  else
    match schedulerIntervalParse segment with
    | none => .error (invalid "scheduling interval" segment ++ ".")
    | some new => .ok ({ custom with scheduling := new :: custom.scheduling }, delim)

lemma preprocSegment_next {simple : ℕ} {custom custom' : CustomInterval} {str : List Char}
    {next : Option (List Char)} (h : preprocSegment simple custom str = .ok (custom', next)) :
    (cut ';' str).2 = next ∧ (custom'.flexible ≠ [] ∨ custom'.scheduling ≠ []) := by
  rw [preprocSegment] at h
  split_ifs at h
  · split at h
    · cases h
    · split_ifs at h
      obtain ⟨rfl, rfl⟩ := Prod.mk.inj (Except.ok.inj h)
      exact ⟨rfl, .inl (List.cons_ne_nil _ _)⟩
  · split at h
    · cases h
    · obtain ⟨rfl, rfl⟩ := Prod.mk.inj (Except.ok.inj h)
      exact ⟨rfl, .inr (List.cons_ne_nil _ _)⟩

lemma preprocSegment_shorter {simple : ℕ} {custom custom' : CustomInterval} {str rest : List Char}
    (h : preprocSegment simple custom str = .ok (custom', some rest)) : rest.length < str.length :=
  cut_shorter (Prod.ext rfl (preprocSegment_next h).1)

def preprocLoop (simple : ℕ) (custom : CustomInterval) (str : List Char) :
    Except String (CustomInterval × List Char) :=
  match _h : preprocSegment simple custom str with
  | .error e => .error e
  | .ok (custom, none) => .ok (custom, str)
  | .ok (custom, some rest) => preprocLoop simple custom rest
termination_by str.length
decreasing_by exact preprocSegment_shorter ‹_›

def intervalPreproc (str : List Char) : Except String (ℕ × CustomInterval) := do
  let first := (cut ';' str).1
  match isTimeSuffix first with
  | none => .error (invalid "update interval" first ++ ".")
  | some simple =>
    let (custom, last) ← match (cut ';' str).2 with
      | none => pure (⟨[], []⟩, str)
      | some rest => preprocLoop simple ⟨[], []⟩ rest
    if (custom.flexible = [] ∧ custom.scheduling = [] ∧ simple = 0) ∨ secPerDay < simple then
      .error (invalid "update interval" last ++ ".")
    else return (simple, custom)

end

section

variable (macroEnd : List Char → Option ℕ)

/-- `macroEnd` is `zbx_user_macro_parse`: the position of the bracket that closes the macro in front. -/
def parseUserMacro (str : List Char) : Option (List Char) :=
  match str with
  | '\x7b' :: '$' :: _ => (macroEnd str).map fun r => str.drop (r + 1)
  | _ => none

def afterMacro (str : List Char) : Option (Option (List Char)) :=
  match parseUserMacro macroEnd str with
  | some [] => some none
  | some (';' :: rest) => some (some rest)
  | _ => none

def delayOf (str : List Char) : Option (ℕ × List Char) :=
  match parseUserMacro macroEnd str with
  | some ('/' :: rest) => some (1, rest)
  | some _ => none
  | none => do
    let interval ← isTimeSuffix (cut '/' str).1
    let after ← (cut '/' str).2
    return (interval, after)

def validateSegment (simple : ℕ) (str : List Char) :
    Except String (Option (List Char)) :=
  match delayOf macroEnd str with
  | some (interval, rest) =>
    if interval = 0 ∧ simple = 0 then
      .error (invalid "flexible interval" (str.take (str.length - rest.length - 1)) ++ ".")
    else match afterMacro macroEnd rest with
      | some delim => .ok delim
      | none =>
        match timePeriodParse (cut ';' rest).1 with
        | some _ => .ok (cut ';' rest).2
        | none => .error (invalid "flexible period" (cut ';' rest).1 ++ ".")
  | none =>
    match afterMacro macroEnd str with
    | some delim => .ok delim
    | none =>
      match schedulerIntervalParse (cut ';' str).1 with
      | some _ => .ok (cut ';' str).2
      | none => .error (invalid "custom interval" (cut ';' str).1 ++ ".")

lemma parseUserMacro_length {macroEnd : List Char → Option ℕ} {str rest : List Char}
    (h : parseUserMacro macroEnd str = some rest) : rest.length ≤ str.length := by
  simp only [parseUserMacro] at h
  split at h
  · obtain ⟨r, -, rfl⟩ := Option.map_eq_some_iff.mp h
    rw [List.length_drop]
    exact Nat.sub_le _ _
  · cases h

lemma afterMacro_shorter {macroEnd : List Char → Option ℕ} {str rest : List Char}
    (h : afterMacro macroEnd str = some (some rest)) : rest.length < str.length := by
  have hmacro : parseUserMacro macroEnd str = some (';' :: rest) := by
    rw [afterMacro] at h
    split at h <;> cases h
    assumption
  exact parseUserMacro_length hmacro

lemma delayOf_shorter {macroEnd : List Char → Option ℕ} {str rest : List Char} {interval : ℕ}
    (h : delayOf macroEnd str = some (interval, rest)) : rest.length < str.length := by
  rw [delayOf] at h
  split at h
  · rename_i after hmacro
    cases h
    exact parseUserMacro_length hmacro
  · cases h
  · obtain ⟨value, -, h⟩ := Option.bind_eq_some_iff.mp h
    obtain ⟨after, hafter, h⟩ := Option.bind_eq_some_iff.mp h
    cases h
    exact cut_shorter (Prod.ext rfl hafter)

lemma validateSegment_shorter {macroEnd : List Char → Option ℕ} {simple : ℕ} {str rest : List Char}
    (h : validateSegment macroEnd simple str = .ok (some rest)) : rest.length < str.length := by
  rw [validateSegment] at h
  split at h
  · rename_i interval after hdelay
    have hshort := delayOf_shorter hdelay
    split_ifs at h
    split at h
    · cases h
      rename_i hmacro
      exact (afterMacro_shorter hmacro).trans hshort
    · split at h
      · have hcut : (cut ';' after).2 = some rest := Except.ok.inj h
        exact (cut_shorter (Prod.ext rfl hcut)).trans hshort
      · cases h
  · split at h
    · cases h
      rename_i hmacro
      exact afterMacro_shorter hmacro
    · split at h
      · have hcut : (cut ';' str).2 = some rest := Except.ok.inj h
        exact cut_shorter (Prod.ext rfl hcut)
      · cases h

def validateLoop (macroEnd : List Char → Option ℕ) (simple : ℕ) (str : List Char) : Except String Unit :=
  match _h : validateSegment macroEnd simple str with
  | .error e => .error e
  | .ok none => .ok ()
  | .ok (some rest) => validateLoop macroEnd simple rest
termination_by str.length
decreasing_by exact validateSegment_shorter ‹_›

def updateOf (str : List Char) : Option (ℕ × Option (List Char)) :=
  match afterMacro macroEnd str with
  | some delim => some (1, delim)
  | none => (isTimeSuffix (cut ';' str).1).map fun simple => (simple, (cut ';' str).2)

def validateInterval (str : List Char) : Except String Unit := do
  match updateOf macroEnd str with
  | none => .error (invalid "update interval" (cut ';' str).1 ++ ".")
  | some (simple, delim) =>
    match delim with
    | none => pure ()
    | some rest => validateLoop macroEnd simple rest
    if (delim = none ∧ simple = 0) ∨ secPerDay < simple then
      .error ("Invalid update interval \"" ++ toString simple ++ "\"")
    else return ()

end

end Glaber.Expr
