import Glaber.Eval.StringFunctions
import Glaber.Preproc.Composition

namespace Glaber.Eval

section

inductive CommonFunction where
  | min
  | max
  | sum
  | avg
  | abs
  | length
  | date
  | time
  | now
  | dayofweek
  | dayofmonth
  | bitwise (type : BitOptype)
  | bitnot
  | between
  | isIn
  | ascii
  | char
  | left
  | right
  | mid
  | bitlength
  | bytelength
  | concat
  | insert
  | replace
  | repeat
  | trim (type : TrimOptype)
  | math (func : MathFunc)
  | math2 (func : MathFunc2)
  | pi
  | e
  | rand
  | statistical (func : StatisticalFunc)
  | count
  | histogramQuantile
deriving DecidableEq

def commonFunctions : List (String × CommonFunction) :=
  [("min", .min), ("max", .max), ("sum", .sum), ("avg", .avg), ("abs", .abs), ("length", .length), ("date", .date),
    ("time", .time), ("now", .now), ("dayofweek", .dayofweek), ("dayofmonth", .dayofmonth), ("bitand", .bitwise .and),
    ("bitor", .bitwise .or), ("bitxor", .bitwise .xor), ("bitlshift", .bitwise .lshift), ("bitrshift", .bitwise .rshift),
    ("bitnot", .bitnot), ("between", .between), ("in", .isIn), ("ascii", .ascii), ("char", .char), ("left", .left),
    ("right", .right), ("mid", .mid), ("bitlength", .bitlength), ("bytelength", .bytelength), ("concat", .concat),
    ("insert", .insert), ("replace", .replace), ("repeat", .repeat), ("ltrim", .trim .left), ("rtrim", .trim .right),
    ("trim", .trim .all), ("cbrt", .math .cbrt), ("ceil", .math .ceil), ("exp", .math .exp), ("expm1", .math .expm1),
    ("floor", .math .floor), ("signum", .math .signum), ("degrees", .math .degrees), ("radians", .math .radians),
    ("acos", .math .acos), ("asin", .math .asin), ("atan", .math .atan), ("cos", .math .cos), ("cosh", .math .cosh),
    ("cot", .math .cot), ("sin", .math .sin), ("sinh", .math .sinh), ("tan", .math .tan), ("log", .math .log),
    ("log10", .math .log10), ("sqrt", .math .sqrt), ("power", .math2 .power), ("round", .math2 .round),
    ("mod", .math2 .mod), ("truncate", .math2 .truncate), ("atan2", .math2 .atan2), ("pi", .pi), ("e", .e), ("rand", .rand),
    ("kurtosis", .statistical .kurtosis), ("mad", .statistical .mad), ("skewness", .statistical .skewness),
    ("stddevpop", .statistical .stddevpop), ("stddevsamp", .statistical .stddevsamp),
    ("sumofsquares", .statistical .sumofsquares), ("varpop", .statistical .varpop), ("varsamp", .statistical .varsamp),
    ("count", .count), ("histogram_quantile", .histogramQuantile)]

def commonFunction (name : List Char) : Option CommonFunction :=
  (commonFunctions.find? fun entry => name = entry.1.toList).map Prod.snd

variable {D : Type} (P : Platform D) (ctx : Context D) (token : Token D) (sec : ℤ)

def executeFunction : CommonFunction → List (Variant D) → Run (Variant D)
  | .min => evalExecuteFunctionMin P ctx token
  | .max => evalExecuteFunctionMax P ctx token
  | .sum => evalExecuteFunctionSum P ctx token
  | .avg => evalExecuteFunctionAvg P ctx token
  | .abs => evalExecuteFunctionAbs P ctx token
  | .length => evalExecuteFunctionLength P ctx token
  | .date => evalExecuteFunctionDate P ctx token sec
  | .time => evalExecuteFunctionTime P ctx token sec
  | .now => evalExecuteFunctionNow ctx token sec
  | .dayofweek => evalExecuteFunctionDayofweek P ctx token sec
  | .dayofmonth => evalExecuteFunctionDayofmonth P ctx token sec
  | .bitwise type => evalExecuteFunctionBitwise P ctx token type
  | .bitnot => evalExecuteFunctionBitnot P ctx token
  | .between => evalExecuteFunctionBetween P ctx token
  | .isIn => evalExecuteFunctionIn P ctx token
  | .ascii => evalExecuteFunctionAscii P ctx token
  | .char => evalExecuteFunctionChar P ctx token
  | .left => evalExecuteFunctionLeft P ctx token
  | .right => evalExecuteFunctionRight P ctx token
  | .mid => evalExecuteFunctionMid P ctx token
  | .bitlength => evalExecuteFunctionBitlength P ctx token
  | .bytelength => evalExecuteFunctionBytelength P ctx token
  | .concat => evalExecuteFunctionConcat P ctx token
  | .insert => evalExecuteFunctionInsert P ctx token
  | .replace => evalExecuteFunctionReplace P ctx token
  | .repeat => evalExecuteFunctionRepeat P ctx token
  | .trim type => evalExecuteFunctionTrim P ctx token type
  | .math func => evalExecuteMathFunctionSingleParam P ctx token func
  | .math2 func => evalExecuteMathFunctionDoubleParam P ctx token func
  | .pi => evalExecuteMathReturnValue P ctx token P.pi
  | .e => evalExecuteMathReturnValue P ctx token P.e
  | .rand => evalExecuteMathReturnValue P ctx token P.zero
  | .statistical func => evalExecuteStatisticalFunction P ctx token func
  | .count => evalExecuteFunctionCount ctx token
  | .histogramQuantile => evalExecuteFunctionHistogramQuantile P ctx token

def evalExecuteCbFunction (functionCb : List Char → List (Variant D) → Except Message (Variant D)) (args : List (Variant D)) :
    Run (Variant D) :=
  match functionCb (tokenText ctx token) args with
  | .ok value => .ok value
  | .error errmsg =>
    let error := errmsg ++ atToken ctx token "" ++ ['.']
    if allows ctx.rules processError then .ok (.err error) else .error (.fail error)

variable (commonFuncCb : Option (List Char → List (Variant D) → Except Message (Variant D)))

def evalExecuteCommonFunction (output : List (Variant D)) : Run (List (Variant D)) :=
  if output.length < token.opt.toNat then failAt ctx token "not enough arguments for function"
  else do
    let args := (output.take token.opt.toNat).reverse
    let value ← match commonFunction (tokenText ctx token) with
      | some function => executeFunction P ctx token sec function args
      | none =>
        match commonFuncCb with
        | some functionCb => evalExecuteCbFunction ctx token functionCb args
        | none => .error (.fail (atToken ctx token "Unknown function" ++ ['.']))
    return value :: output.drop token.opt.toNat

end

section

variable {D : Type}

def CommonFunction.ofOneNumber : CommonFunction → Bool
  | .abs => true
  | .math _ => true
  | _ => false

def ReadsByType {α : Type} (run : Run α) : Prop := run ≠ .error .misread

end

section

variable {D : Type} (P : Platform D) (ctx : Context D) (token : Token D)

lemma reads_ok {α : Type} (value : α) : ReadsByType (.ok value) := by simp [ReadsByType]

lemma reads_fail {α : Type} (message : Message) : ReadsByType (.error (.fail message) : Run α) := by simp [ReadsByType]

lemma ReadsByType.bind {α β : Type} {run : Run α} {f : α → Run β} (hrun : ReadsByType run)
    (hf : ∀ value, run = .ok value → ReadsByType (f value)) : ReadsByType (run >>= f) := by
  cases run with
  | ok value => exact hf value rfl
  | error stop => exact fun h => hrun (congrArg Except.error (Except.error.inj h))

lemma reads_validate {args : List (Variant D)} {run : Run (Variant D)} (h : ReadsByType run) :
    ReadsByType (evalValidateFunctionArgs args run) := by
  unfold evalValidateFunctionArgs
  split
  · exact reads_ok _
  · exact h

lemma reads_liftFail {α : Type} (result : Except Message α) : ReadsByType (liftFail result) := by
  cases result with
  | ok value => exact reads_ok value
  | error message => exact reads_fail message

def HasType : ArgType → Variant D → Prop
  | .dbl, value => ∃ x, value = .dbl x
  | .ui64, value => ∃ n, value = .ui64 n
  | .str, value => ∃ text, value = .str text

lemma variantConvert_type {type : ArgType} {arg value : Variant D} (h : variantConvert P type arg = some value) :
    HasType type value := by
  cases type with
  | _ =>
    obtain ⟨x, -, rfl⟩ := Option.map_eq_some_iff.1 h
    exact ⟨x, rfl⟩

lemma convert_type {type : ArgType} {arg value : Variant D} (h : evalConvertFunctionArg P ctx token type arg = .ok value) :
    HasType type value := by
  unfold evalConvertFunctionArg at h
  split at h
  next x hsuffixed =>
    split_ifs at hsuffixed with htype
    rw [htype]
    exact ⟨x, (Except.ok.inj h).symm⟩
  next =>
    split at h
    next converted hconvert =>
      obtain rfl := Except.ok.inj h
      exact variantConvert_type P hconvert
    next => cases h

lemma reads_convert (type : ArgType) (arg : Variant D) : ReadsByType (evalConvertFunctionArg P ctx token type arg) := by
  unfold evalConvertFunctionArg
  split
  · exact reads_ok _
  · split
    · exact reads_ok _
    · exact reads_fail _

variable {P ctx token} (args : List (Variant D))

lemma reads_converted_str {β : Type} {arg : Variant D} {f : Variant D → Run β} (h : ∀ text, ReadsByType (f (.str text))) :
    ReadsByType (evalConvertFunctionArg P ctx token .str arg >>= f) := by
  apply (reads_convert P ctx token .str arg).bind
  intro value hvalue
  obtain ⟨text, rfl⟩ := convert_type P ctx token hvalue
  exact h text

lemma reads_converted_ui64 {β : Type} {arg : Variant D} {f : Variant D → Run β} (h : ∀ n, ReadsByType (f (.ui64 n))) :
    ReadsByType (evalConvertFunctionArg P ctx token .ui64 arg >>= f) := by
  apply (reads_convert P ctx token .ui64 arg).bind
  intro value hvalue
  obtain ⟨n, rfl⟩ := convert_type P ctx token hvalue
  exact h n

lemma reads_mapM {α β : Type} {f : α → Run β} (h : ∀ a, ReadsByType (f a)) (as : List α) : ReadsByType (as.mapM f) := by
  induction as with
  | nil => exact reads_ok _
  | cons a as ih =>
    rw [List.mapM_cons]
    exact (h a).bind fun _ _ => ih.bind fun _ _ => reads_ok _

lemma mapM_ok {α β : Type} {f : α → Run β} {Q : β → Prop} (h : ∀ a b, f a = .ok b → Q b) {as : List α} {bs : List β}
    (hmap : as.mapM f = .ok bs) : bs.length = as.length ∧ ∀ b ∈ bs, Q b := by
  induction as generalizing bs with
  | nil =>
    obtain rfl : [] = bs := Except.ok.inj hmap
    simp
  | cons a as ih =>
    rw [List.mapM_cons] at hmap
    cases hb : f a with
    | error stop => rw [hb] at hmap; cases hmap
    | ok b =>
      cases hbs : as.mapM f with
      | error stop => rw [hb, hbs] at hmap; cases hmap
      | ok bs' =>
        rw [hb, hbs] at hmap
        obtain rfl : b :: bs' = bs := Except.ok.inj hmap
        obtain ⟨hlength, hall⟩ := ih hbs
        exact ⟨by simp [hlength], List.forall_mem_cons.2 ⟨h a b hb, hall⟩⟩

lemma readDbl_mapM {values : List (Variant D)} (h : ∀ value ∈ values, HasType .dbl value) :
    ReadsByType (values.mapM readDbl) := by
  induction values with
  | nil => exact reads_ok _
  | cons value values ih =>
    obtain ⟨hvalue, hvalues⟩ := List.forall_mem_cons.1 h
    obtain ⟨x, rfl⟩ := hvalue
    rw [List.mapM_cons]
    exact (ih hvalues).bind fun _ _ => reads_ok _

lemma reads_prepare {args : List (Variant D)} {run : List (Variant D) → Run (Variant D)}
    (hnumbers : ∀ numbers : List (Variant D), numbers.length = args.length → (∀ value ∈ numbers, HasType .dbl value) →
      ReadsByType (run numbers))
    (hvector : ∀ values, args = [.dblVector values] → values ≠ [] → ReadsByType (run args)) :
    ReadsByType (evalPrepareMathFunctionArgs P ctx token args run) := by
  unfold evalPrepareMathFunctionArgs
  split_ifs with hnone
  · exact reads_fail _
  · apply reads_validate
    split
    next values rest =>
      split_ifs with hmany hempty
      · exact reads_fail _
      · exact reads_fail _
      · obtain rfl : rest = [] := not_not.1 hmany
        exact hvector values rfl hempty
    next =>
      apply (reads_mapM (fun arg => reads_convert P ctx token .dbl arg) args).bind
      intro numbers hmap
      obtain ⟨hlength, hall⟩ := mapM_ok (fun arg value h => convert_type P ctx token h) hmap
      exact hnumbers numbers hlength hall

lemma reads_overall (overall : List D → D) (args : List (Variant D)) :
    ReadsByType (evalExecuteFunctionOverall P ctx token overall args) := by
  apply reads_prepare
  · intro numbers hlength hall
    apply ReadsByType.bind _ fun _ _ => reads_ok _
    unfold inputValues
    split
    next values rest =>
      obtain ⟨x, hx⟩ := hall _ List.mem_cons_self
      cases hx
    next => exact readDbl_mapM hall
  · rintro values rfl hne
    exact reads_ok _

lemma readDbl_at {numbers : List (Variant D)} (hall : ∀ value ∈ numbers, HasType .dbl value) {i : ℕ} (hi : i < numbers.length) :
    ∃ x, readDbl (argAt numbers i) = .ok x := by
  have hmem : argAt numbers i ∈ numbers := by
    rw [argAt, List.getD_eq_getElem?_getD, List.getElem?_eq_getElem hi]
    exact List.getElem_mem hi
  obtain ⟨x, hx⟩ := hall _ hmem
  exact ⟨x, by rw [hx]; rfl⟩

lemma reads_normalResult (result : D) : ReadsByType (normalResult P ctx token result) := by
  unfold normalResult
  split_ifs
  · exact reads_ok _
  · exact reads_fail _

lemma reads_math2 (func : MathFunc2) (args : List (Variant D)) :
    ReadsByType (evalExecuteMathFunctionDoubleParam P ctx token func args) := by
  unfold evalExecuteMathFunctionDoubleParam
  split_ifs with harity
  · exact reads_fail _
  · rw [not_not] at harity
    apply reads_prepare
    · intro numbers hlength hall
      obtain ⟨x, hx⟩ := readDbl_at hall (show 0 < numbers.length by omega)
      obtain ⟨y, hy⟩ := readDbl_at hall (show 1 < numbers.length by omega)
      rw [hx, hy]
      dsimp only [bind, Except.bind]
      split_ifs
      · exact reads_fail _
      · exact reads_fail _
      · exact reads_normalResult _
    · rintro values rfl -
      simp at harity

lemma reads_between : ReadsByType (evalExecuteFunctionBetween P ctx token args) := by
  unfold evalExecuteFunctionBetween
  split_ifs with harity
  · exact reads_fail _
  · rw [not_not] at harity
    apply reads_prepare
    · intro numbers hlength hall
      obtain ⟨x, hx⟩ := readDbl_at hall (show 0 < numbers.length by omega)
      obtain ⟨y, hy⟩ := readDbl_at hall (show 1 < numbers.length by omega)
      obtain ⟨z, hz⟩ := readDbl_at hall (show 2 < numbers.length by omega)
      rw [hx, hy, hz]
      exact reads_ok _
    · rintro values rfl -
      simp at harity

lemma reads_statistical (func : StatisticalFunc) (args : List (Variant D)) :
    ReadsByType (evalExecuteStatisticalFunction P ctx token func args) := by
  apply reads_validate
  split_ifs
  · exact reads_fail _
  · split
    next values hvalues =>
      split_ifs
      · exact reads_fail _
      · rw [hvalues]
        exact (reads_liftFail (P.statistical func values)).bind fun _ _ => reads_ok _
    next => exact reads_fail _

lemma reads_count : ReadsByType (evalExecuteFunctionCount ctx token args) := by
  unfold evalExecuteFunctionCount
  split_ifs
  · exact reads_fail _
  · split
    next values hvalues =>
      rw [hvalues]
      exact reads_ok _
    next => exact reads_fail _

lemma histogramArg_type {arg value : Variant D} (h : histogramArg P ctx token arg = .ok value) : HasType .dbl value := by
  unfold histogramArg at h
  split at h
  next =>
    split_ifs at h
    · exact ⟨P.infinity, (Except.ok.inj h).symm⟩
    · cases h
  next => exact convert_type P ctx token h

lemma reads_histogramArg (arg : Variant D) : ReadsByType (histogramArg P ctx token arg) := by
  unfold histogramArg
  split
  next =>
    split_ifs
    · exact reads_ok _
    · exact reads_fail _
  next => exact reads_convert P ctx token .dbl _

variable (P ctx token) in
lemma histogramArgs_spec : ReadsByType (histogramArgs P ctx token args) ∧
    ∀ buckets, histogramArgs P ctx token args = .ok buckets →
      if args.length = 2 then ∃ values, argAt buckets 0 = .dblVector values else ∀ value ∈ buckets, HasType .dbl value := by
  unfold histogramArgs
  by_cases htwo : args.length = 2
  · obtain ⟨a, b, rfl⟩ := List.length_eq_two.1 htwo
    simp only [htwo, if_true]
    constructor
    · split
      · split_ifs
        · exact reads_fail _
        · exact reads_ok _
      · exact reads_fail _
    · intro buckets h
      split at h
      next values hvalues =>
        split_ifs at h
        · cases h
        · obtain rfl := Except.ok.inj h
          exact ⟨values, hvalues⟩
      next => cases h
  · simp only [if_neg htwo]
    constructor
    · split_ifs
      · exact reads_fail _
      · exact reads_mapM reads_histogramArg _
    · intro buckets h
      split_ifs at h
      · cases h
      · exact (mapM_ok (fun arg value h => histogramArg_type h) h).2

lemma reads_histogramQuantile :
    ReadsByType (evalExecuteFunctionHistogramQuantile P ctx token args) := by
  unfold evalExecuteFunctionHistogramQuantile
  split_ifs with harity
  · exact reads_fail _
  · apply reads_validate
    obtain ⟨hreads, hbuckets⟩ := histogramArgs_spec P ctx token args
    apply hreads.bind
    intro buckets hok
    have htyped := hbuckets buckets hok
    apply ReadsByType.bind
    · unfold quantileArg
      split
      · exact reads_ok _
      · apply (reads_convert P ctx token .dbl _).bind
        intro value hvalue
        obtain ⟨x, rfl⟩ := convert_type P ctx token hvalue
        exact reads_ok x
    · intro q _
      split_ifs
      · exact reads_fail _
      · apply ReadsByType.bind
        · unfold bucketValues
          split_ifs at htyped ⊢
          · obtain ⟨values, hvalues⟩ := htyped
            rw [hvalues]
            exact reads_ok values
          · exact readDbl_mapM htyped
        · intro values _
          exact (reads_liftFail _).bind fun _ _ => reads_ok _

lemma reads_mathReturnValue (value : D) (args : List (Variant D)) :
    ReadsByType (evalExecuteMathReturnValue P ctx token value args) := by
  unfold evalExecuteMathReturnValue
  split_ifs
  · exact reads_fail _
  · split
    · exact reads_fail _
    · exact reads_ok _
  · exact reads_ok _

lemma reads_ofTime (sec : ℤ) (format : Time.Tm → List Char) (args : List (Variant D)) :
    ReadsByType (evalExecuteFunctionOfTime P ctx token sec format args) := by
  unfold evalExecuteFunctionOfTime
  split_ifs
  · exact reads_fail _
  · split
    · exact reads_fail _
    · exact reads_ok _

lemma reads_now (sec : ℤ) (args : List (Variant D)) : ReadsByType (evalExecuteFunctionNow ctx token sec args) := by
  unfold evalExecuteFunctionNow
  split_ifs
  · exact reads_fail _
  · exact reads_ok _

lemma reads_bitwise (type : BitOptype) (args : List (Variant D)) :
    ReadsByType (evalExecuteFunctionBitwise P ctx token type args) := by
  unfold evalExecuteFunctionBitwise
  split_ifs
  · exact reads_fail _
  · apply reads_validate
    apply reads_converted_ui64
    intro left
    apply reads_converted_ui64
    intro right
    exact reads_ok _

lemma reads_bitnot : ReadsByType (evalExecuteFunctionBitnot P ctx token args) := by
  unfold evalExecuteFunctionBitnot
  split_ifs
  · exact reads_fail _
  · apply reads_validate
    apply reads_converted_ui64
    intro n
    exact reads_ok _

lemma reads_size (ofInteger : ℕ → ℕ) (ofByte : ℕ) (args : List (Variant D)) :
    ReadsByType (evalExecuteFunctionSize P ctx token ofInteger ofByte args) := by
  unfold evalExecuteFunctionSize
  split_ifs
  · exact reads_fail _
  · apply reads_validate
    split
    next hconvert =>
      obtain ⟨n, rfl⟩ := variantConvert_type P hconvert
      exact reads_ok _
    next =>
      split
      next => exact reads_fail _
      next hconvert =>
        obtain ⟨text, rfl⟩ := variantConvert_type P hconvert
        exact reads_ok _

lemma reads_length : ReadsByType (evalExecuteFunctionLength P ctx token args) := by
  unfold evalExecuteFunctionLength
  split_ifs
  · exact reads_fail _
  · apply reads_validate
    apply reads_converted_str
    intro text
    exact reads_ok _

lemma reads_left : ReadsByType (evalExecuteFunctionLeft P ctx token args) := by
  unfold evalExecuteFunctionLeft
  split_ifs
  · exact reads_fail _
  · apply reads_validate
    apply reads_converted_str
    intro text
    apply reads_converted_ui64
    intro len
    exact reads_ok _

lemma reads_right : ReadsByType (evalExecuteFunctionRight P ctx token args) := by
  unfold evalExecuteFunctionRight
  split_ifs
  · exact reads_fail _
  · apply reads_validate
    apply reads_converted_str
    intro text
    apply reads_converted_ui64
    intro len
    exact reads_ok _

lemma reads_mid : ReadsByType (evalExecuteFunctionMid P ctx token args) := by
  unfold evalExecuteFunctionMid
  split_ifs
  · exact reads_fail _
  · apply reads_validate
    apply reads_converted_str
    intro text
    apply reads_converted_ui64
    intro start
    apply reads_converted_ui64
    intro len
    dsimp only [readString, readUi64, bind, Except.bind]
    split_ifs
    · exact reads_fail _
    · exact reads_ok _

lemma reads_insert : ReadsByType (evalExecuteFunctionInsert P ctx token args) := by
  unfold evalExecuteFunctionInsert
  split_ifs
  · exact reads_fail _
  · apply reads_validate
    apply reads_converted_str
    intro text
    apply reads_converted_ui64
    intro start
    apply reads_converted_ui64
    intro len
    apply reads_converted_str
    intro replacement
    dsimp only [readString, readUi64, bind, Except.bind]
    split_ifs
    · exact reads_fail _
    · exact reads_fail _
    · exact reads_ok _

lemma reads_replace : ReadsByType (evalExecuteFunctionReplace P ctx token args) := by
  unfold evalExecuteFunctionReplace
  split_ifs
  · exact reads_fail _
  · apply reads_validate
    apply reads_converted_str
    intro text
    apply reads_converted_str
    intro pattern
    apply reads_converted_str
    intro replacement
    dsimp only [readString, bind, Except.bind]
    split_ifs
    · exact reads_ok _
    · exact reads_ok _

lemma reads_repeat : ReadsByType (evalExecuteFunctionRepeat P ctx token args) := by
  unfold evalExecuteFunctionRepeat
  split_ifs
  · exact reads_fail _
  · apply reads_validate
    apply reads_converted_str
    intro text
    apply reads_converted_ui64
    intro num
    dsimp only [readString, readUi64, bind, Except.bind]
    split_ifs
    · exact reads_ok _
    · exact reads_fail _
    · exact reads_ok _

lemma reads_trim (type : TrimOptype) (args : List (Variant D)) :
    ReadsByType (evalExecuteFunctionTrim P ctx token type args) := by
  unfold evalExecuteFunctionTrim
  split_ifs
  · exact reads_fail _
  · apply reads_validate
    apply reads_converted_str
    intro sym
    apply reads_converted_str
    intro text
    exact reads_ok _
  · apply reads_validate
    apply reads_converted_str
    intro text
    exact reads_ok _

lemma reads_concat : ReadsByType (evalExecuteFunctionConcat P ctx token args) := by
  unfold evalExecuteFunctionConcat
  split_ifs
  · exact reads_fail _
  · apply reads_validate
    apply ReadsByType.bind
    · exact reads_mapM (fun arg => (reads_convert P ctx token .str arg).bind fun _ _ => reads_ok _) args
    · intro texts _
      exact reads_ok _

lemma reads_char : ReadsByType (evalExecuteFunctionChar P ctx token args) := by
  unfold evalExecuteFunctionChar
  split_ifs
  · exact reads_fail _
  · apply reads_validate
    apply reads_converted_ui64
    intro n
    dsimp only [readUi64, bind, Except.bind]
    split_ifs
    · exact reads_fail _
    · exact reads_ok _
    · exact reads_ok _

lemma reads_ascii : ReadsByType (evalExecuteFunctionAscii P ctx token args) := by
  unfold evalExecuteFunctionAscii
  split_ifs
  · exact reads_fail _
  · apply reads_validate
    split
    next => exact reads_fail _
    next hconvert =>
      obtain ⟨text, rfl⟩ := variantConvert_type P hconvert
      dsimp only [readString, bind, Except.bind]
      split_ifs
      · exact reads_fail _
      · exact reads_ok _

lemma inNumber_type {arg value : Variant D} (h : inNumber P arg = some value) : HasType .dbl value := by
  unfold inNumber at h
  rcases hsuffixed : variantConvertSuffixedNum P.toDoubles arg with _ | x
  · rw [hsuffixed] at h
    exact variantConvert_type P h
  · rw [hsuffixed] at h
    exact ⟨x, (Option.some.inj h).symm⟩

lemma inNumbers_type {args numbers : List (Variant D)} (h : args.mapM (inNumber P) = some numbers) :
    numbers.length = args.length ∧ ∀ value ∈ numbers, HasType .dbl value := by
  induction args generalizing numbers with
  | nil =>
    obtain rfl : [] = numbers := Option.some.inj h
    simp
  | cons arg args ih =>
    rw [List.mapM_cons] at h
    obtain ⟨value, hvalue, hrest⟩ := Option.bind_eq_some_iff.1 h
    obtain ⟨values, hvalues, hresult⟩ := Option.bind_eq_some_iff.1 hrest
    obtain rfl : value :: values = numbers := Option.some.inj hresult
    obtain ⟨hlength, hall⟩ := ih hvalues
    exact ⟨by simp [hlength], List.forall_mem_cons.2 ⟨inNumber_type hvalue, hall⟩⟩

lemma reads_inTexts (ref : List Char) (args : List (Variant D)) : ReadsByType (inTexts P ctx token ref args) := by
  induction args with
  | nil => exact reads_ok _
  | cons arg args ih =>
    unfold inTexts
    apply reads_converted_str
    intro text
    dsimp only [readString, bind, Except.bind]
    split_ifs
    · exact reads_ok _
    · exact ih

lemma reads_in : ReadsByType (evalExecuteFunctionIn P ctx token args) := by
  unfold evalExecuteFunctionIn
  split_ifs with harity
  · exact reads_fail _
  · apply reads_validate
    split
    next numbers hnumbers =>
      obtain ⟨hlength, hall⟩ := inNumbers_type hnumbers
      obtain ⟨x, hx⟩ := readDbl_at hall (show 0 < numbers.length by omega)
      rw [hx]
      exact (readDbl_mapM fun value hvalue => hall value (List.mem_of_mem_tail hvalue)).bind fun _ _ => reads_ok _
    next =>
      apply reads_converted_str
      intro ref
      exact (reads_inTexts ref args.tail).bind fun _ _ => reads_ok _

end

section

variable {D : Type} {P : Platform D} {ctx : Context D} {token : Token D} {sec : ℤ}

def IsVector (args : List (Variant D)) : Prop := ∃ values, args = [.dblVector values] ∧ values ≠ []

lemma prepared_number {args : List (Variant D)} {run : D → Run (Variant D)} (hone : args.length = 1)
    (hrun : ∀ x, ReadsByType (run x)) :
    ReadsByType (evalPrepareMathFunctionArgs P ctx token args fun args => do
      run (← readDbl (argAt args 0))) ↔ ¬ IsVector args := by
  constructor
  · rintro hreads ⟨values, rfl, hne⟩
    apply hreads
    simp [evalPrepareMathFunctionArgs, evalValidateFunctionArgs, Variant.isErr, hne]
    rfl
  · intro hvector
    apply reads_prepare
    · intro numbers hlength hall
      obtain ⟨x, hx⟩ := readDbl_at hall (show 0 < numbers.length by omega)
      rw [hx]
      exact hrun x
    · intro values hargs hne
      exact absurd ⟨values, hargs, hne⟩ hvector

lemma IsVector.length {args : List (Variant D)} (h : IsVector args) : args.length = 1 := by
  obtain ⟨values, rfl, -⟩ := h
  rfl

lemma reads_abs_iff (args : List (Variant D)) : ReadsByType (evalExecuteFunctionAbs P ctx token args) ↔ ¬ IsVector args := by
  unfold evalExecuteFunctionAbs
  split_ifs with harity
  · exact iff_of_true (reads_fail _) fun h => harity h.length
  · exact prepared_number (not_not.1 harity) fun x => reads_ok _

lemma reads_math_iff (func : MathFunc) (args : List (Variant D)) :
    ReadsByType (evalExecuteMathFunctionSingleParam P ctx token func args) ↔ ¬ IsVector args := by
  unfold evalExecuteMathFunctionSingleParam
  split_ifs with harity
  · exact iff_of_true (reads_fail _) fun h => harity h.length
  · apply prepared_number (not_not.1 harity)
    intro x
    split_ifs
    · exact reads_fail _
    · exact reads_normalResult _

lemma reads_executeFunction {function : CommonFunction} (h : function.ofOneNumber = false) (args : List (Variant D)) :
    ReadsByType (executeFunction P ctx token sec function args) := by
  cases function with
  | abs => cases h
  | math func => cases h
  | min => exact reads_overall _ args
  | max => exact reads_overall _ args
  | sum => exact reads_overall _ args
  | avg => exact reads_overall _ args
  | length => exact reads_length args
  | date => exact reads_ofTime sec _ args
  | time => exact reads_ofTime sec _ args
  | now => exact reads_now sec args
  | dayofweek => exact reads_ofTime sec _ args
  | dayofmonth => exact reads_ofTime sec _ args
  | bitwise type => exact reads_bitwise type args
  | bitnot => exact reads_bitnot args
  | between => exact reads_between args
  | isIn => exact reads_in args
  | ascii => exact reads_ascii args
  | char => exact reads_char args
  | left => exact reads_left args
  | right => exact reads_right args
  | mid => exact reads_mid args
  | bitlength => exact reads_size (fun n => highBit n 64) 8 args
  | bytelength => exact reads_size (fun n => highByte n 8) 1 args
  | concat => exact reads_concat args
  | insert => exact reads_insert args
  | replace => exact reads_replace args
  | «repeat» => exact reads_repeat args
  | trim type => exact reads_trim type args
  | math2 func => exact reads_math2 func args
  | pi => exact reads_mathReturnValue _ args
  | e => exact reads_mathReturnValue _ args
  | rand => exact reads_mathReturnValue _ args
  | statistical func => exact reads_statistical func args
  | count => exact reads_count args
  | histogramQuantile => exact reads_histogramQuantile args

variable (P ctx token sec) in
lemma reads_executeFunction_iff (function : CommonFunction) (args : List (Variant D)) :
    ReadsByType (executeFunction P ctx token sec function args) ↔ ¬ (function.ofOneNumber = true ∧ IsVector args) := by
  cases hfunction : function.ofOneNumber with
  | false => simp [reads_executeFunction hfunction args]
  | true =>
    simp only [true_and]
    cases function with
    | abs => exact reads_abs_iff args
    | math func => exact reads_math_iff func args
    | _ => cases hfunction

lemma ReadsByType.of_bind {α β : Type} {run : Run α} {f : α → Run β} (h : ReadsByType (run >>= f)) : ReadsByType run := by
  rintro rfl
  exact h rfl

lemma isVector_args {output : List (Variant D)} {n : ℕ} (hn : n ≤ output.length) :
    IsVector (output.take n).reverse ↔ n = 1 ∧ ∃ values, output.head? = some (.dblVector values) ∧ values ≠ [] := by
  constructor
  · intro h
    have hone := h.length
    rw [List.length_reverse, List.length_take, Nat.min_eq_left hn] at hone
    obtain ⟨values, hargs, hne⟩ := h
    refine ⟨hone, values, ?_, hne⟩
    cases output with
    | nil => simp at hargs
    | cons value output =>
      rw [hone] at hargs
      simpa using hargs
  · rintro ⟨rfl, values, hhead, hne⟩
    cases output with
    | nil => simp at hhead
    | cons value output =>
      obtain rfl : value = .dblVector values := by simpa using hhead
      exact ⟨values, by simp, hne⟩

theorem functions_read_by_type_iff (P : Platform D) (ctx : Context D) (token : Token D) (sec : ℤ)
    (commonFuncCb : Option (List Char → List (Variant D) → Except Message (Variant D))) (output : List (Variant D)) :
    ReadsByType (evalExecuteCommonFunction P ctx token sec commonFuncCb output) ↔
      ¬ ((∃ function, commonFunction (tokenText ctx token) = some function ∧ function.ofOneNumber = true) ∧
        token.opt.toNat = 1 ∧ ∃ values, output.head? = some (.dblVector values) ∧ values ≠ []) := by
  unfold evalExecuteCommonFunction
  split_ifs with hfew
  · refine iff_of_true (reads_fail _) ?_
    rintro ⟨-, hone, values, hhead, -⟩
    cases output with
    | nil => simp at hhead
    | cons value output => simp [hone] at hfew
  · rw [← isVector_args (not_lt.1 hfew)]
    dsimp only
    rcases hname : commonFunction (tokenText ctx token) with _ | function
    · refine iff_of_true ?_ (by simp)
      cases commonFuncCb with
      | none => exact reads_fail _
      | some functionCb =>
        apply ReadsByType.bind _ fun _ _ => reads_ok _
        unfold evalExecuteCbFunction
        split
        · exact reads_ok _
        · dsimp only
          split_ifs
          · exact reads_ok _
          · exact reads_fail _
    · have hfunction := reads_executeFunction_iff P ctx token sec function (output.take token.opt.toNat).reverse
      constructor
      · rintro hreads ⟨⟨function', hsome, hone⟩, hvector⟩
        obtain rfl : function = function' := Option.some.inj hsome
        exact hfunction.1 hreads.of_bind ⟨hone, hvector⟩
      · intro hnot
        apply ReadsByType.bind _ fun _ _ => reads_ok _
        apply hfunction.2
        rintro ⟨hone, hvector⟩
        exact hnot ⟨⟨function, rfl, hone⟩, hvector⟩

end

section

def wholePlatform : Platform ℤ where
  toNumerics := Preproc.wholeNumbers
  fabs := fun x => |x|
  cbrt := id
  ceil := id
  exp := id
  expm1 := id
  floor := id
  acos := id
  asin := id
  atan := id
  cos := id
  cosh := id
  sin := id
  sinh := id
  tan := id
  log := id
  log10 := id
  sqrt := id
  pow := fun x y => x ^ y.toNat
  fmod := fun x y => x.tmod y
  atan2 := fun x _ => x
  round := id
  pi := 3
  e := 2
  infinity := 0
  random := none
  localtime := fun _ => .error []
  statistical := fun _ _ => .error []
  calcHistogramQuantile := fun _ _ message => .error message

def callOf (name : String) : Context ℤ := ⟨name.toList, triggerExpression, []⟩

def callToken (name : String) (opt : UInt32) : Token ℤ := ⟨tokenFunction, opt, ⟨0, name.length - 1⟩, .none⟩

theorem abs_misreads_vector :
    ¬ ReadsByType (evalExecuteCommonFunction wholePlatform (callOf "abs") (callToken "abs" 1) 0 none [.dblVector [5]]) := by
  simp only [ReadsByType, not_not]
  rfl

end

end Glaber.Eval
