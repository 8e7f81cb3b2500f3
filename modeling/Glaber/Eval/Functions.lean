import Glaber.Eval.Execute
import Glaber.Preproc.Execute
import Glaber.Str.Utf8
import Glaber.Time.Tm

/-! The functions of expressions (`execute.c`, `eval_execute_common_function`). The functions of the C library and the
statistics of double vectors are parameters. Reading the payload of a value under another type than its own is told
apart from failing. -/

namespace Glaber.Eval

open Str
open Preproc (Numerics variantToUi64)

section

/-- How a function stops without a result: it fails, or it has read a payload under a type that the value does not have. -/
inductive Stop where
  | fail (message : Message)
  | misread
deriving DecidableEq

abbrev Run (α : Type) := Except Stop α

variable {D : Type}

def readDbl : Variant D → Run D
  | .dbl value => .ok value
  | _ => .error .misread

def readUi64 : Variant D → Run UInt64
  | .ui64 value => .ok value
  | _ => .error .misread

def readString : Variant D → Run (List Char)
  | .str text => .ok text
  | _ => .error .misread

def readDblVector : Variant D → Run (List D)
  | .dblVector values => .ok values
  | _ => .error .misread

end

section

inductive StatisticalFunc where
  | kurtosis
  | mad
  | skewness
  | stddevpop
  | stddevsamp
  | sumofsquares
  | varpop
  | varsamp
deriving DecidableEq

/-- What the functions use of the C library and of the calculations over vectors (`calc.c`); `round` is that of the library. -/
structure Platform (D : Type) extends Numerics D where
  fabs : D → D
  cbrt : D → D
  ceil : D → D
  exp : D → D
  expm1 : D → D
  floor : D → D
  acos : D → D
  asin : D → D
  atan : D → D
  cos : D → D
  cosh : D → D
  sin : D → D
  sinh : D → D
  tan : D → D
  log : D → D
  log10 : D → D
  sqrt : D → D
  pow : D → D → D
  fmod : D → D → D
  atan2 : D → D → D
  round : D → D
  pi : D
  e : D
  infinity : D
  random : Option D
  localtime : ℤ → Except Message Time.Tm
  statistical : StatisticalFunc → List D → Except Message D
  calcHistogramQuantile : D → List D → Message → Except Message D

variable {D : Type} (P : Platform D)

def Platform.eq (a b : D) : Bool := P.le a b && P.le b a

def Platform.zero : D := P.ofNat 0

end

section

variable {D : Type} (P : Platform D) (ctx : Context D) (token : Token D)

def failAt {α : Type} (text : String) : Run α := .error (.fail (atToken ctx token text))

def invalidNumber {α : Type} : Run α := failAt ctx token "invalid number of arguments for function"

def argAt (args : List (Variant D)) (i : ℕ) : Variant D := args.getD i .none

def evalValidateFunctionArgs (args : List (Variant D)) (run : Run (Variant D)) : Run (Variant D) :=
  match args.find? Variant.isErr with
  | some error => .ok error
  | none => run

inductive ArgType where
  | dbl
  | ui64
  | str
deriving DecidableEq

def evalTypeDesc : ArgType → String
  | .dbl => "a numeric"
  | .ui64 => "an unsigned integer"
  | .str => "a string"

def variantToStr : Variant D → Option (List Char)
  | .str text => some text
  | .dbl value => some (P.print value)
  | .ui64 value => some (Nat.repr value.toNat).toList
  | _ => none

def variantConvert : ArgType → Variant D → Option (Variant D)
  | .dbl, value => (variantToDbl P.toDoubles value).map .dbl
  | .ui64, value => (variantToUi64 P.toNumerics value).map .ui64
  | .str, value => (variantToStr P value).map .str

def evalConvertFunctionArg (type : ArgType) (arg : Variant D) : Run (Variant D) :=
  match if type = .dbl then variantConvertSuffixedNum P.toDoubles arg else none with
  | some value => .ok (.dbl value)
  | none =>
    match variantConvert P type arg with
    | some value => .ok value
    | none => .error (.fail ("function argument \"".toList ++ variantValueDesc P.toDoubles arg ++ "\" is not ".toList ++
        (evalTypeDesc type).toList ++ atToken ctx token " value"))

def evalPrepareMathFunctionArgs (args : List (Variant D)) (run : List (Variant D) → Run (Variant D)) : Run (Variant D) :=
  if args = [] then failAt ctx token "no arguments for function"
  else evalValidateFunctionArgs args <|
    match args with
    | .dblVector values :: rest =>
      if rest ≠ [] then failAt ctx token "too many arguments for function"
      else if values = [] then failAt ctx token "no input data for function"
      else run args
    | _ => do run (← args.mapM (evalConvertFunctionArg P ctx token .dbl))

end

section

variable {D : Type} (P : Platform D) (ctx : Context D) (token : Token D)
  (args : List (Variant D))

def inputValues : Run (List D) :=
  match args with
  | .dblVector _ :: _ => readDblVector (argAt args 0)
  | _ => args.mapM readDbl

def evalExecuteFunctionOverall (overall : List D → D) (args : List (Variant D)) : Run (Variant D) :=
  evalPrepareMathFunctionArgs P ctx token args fun args => do
    let values ← inputValues args
    return .dbl (overall values)

def evalExecuteFunctionMin : Run (Variant D) :=
  evalExecuteFunctionOverall P ctx token
    (fun values => values.tail.foldl (fun min value => if P.lt value min then value else min) (values.headD P.zero)) args

def evalExecuteFunctionMax : Run (Variant D) :=
  evalExecuteFunctionOverall P ctx token
    (fun values => values.tail.foldl (fun max value => if P.lt max value then value else max) (values.headD P.zero)) args

def evalExecuteFunctionSum : Run (Variant D) :=
  evalExecuteFunctionOverall P ctx token (fun values => values.foldl P.add P.zero) args

def evalExecuteFunctionAvg : Run (Variant D) :=
  evalExecuteFunctionOverall P ctx token (fun values => P.div (values.foldl P.add P.zero) (P.ofNat values.length)) args

def evalExecuteFunctionAbs : Run (Variant D) :=
  if args.length ≠ 1 then invalidNumber ctx token
  else evalPrepareMathFunctionArgs P ctx token args fun args => do
    let arg ← readDbl (argAt args 0)
    return .dbl (P.fabs arg)

inductive MathFunc where
  | cbrt
  | ceil
  | exp
  | expm1
  | floor
  | signum
  | degrees
  | radians
  | acos
  | asin
  | atan
  | cos
  | cosh
  | cot
  | sin
  | sinh
  | tan
  | log
  | log10
  | sqrt
deriving DecidableEq

def evalMathFuncDegrees (radians : D) : D := P.mul radians (P.div (P.ofNat 180) P.pi)
def evalMathFuncRadians (degrees : D) : D := P.mul degrees (P.div P.pi (P.ofNat 180))
def evalMathFuncCot (x : D) : D := P.div (P.cos x) (P.sin x)

def evalMathFuncSignum (x : D) : D :=
  if P.lt x P.zero then P.neg (P.ofNat 1) else if P.eq P.zero x then P.zero else P.ofNat 1

def mathFunc : MathFunc → D → D
  | .cbrt => P.cbrt
  | .ceil => P.ceil
  | .exp => P.exp
  | .expm1 => P.expm1
  | .floor => P.floor
  | .signum => evalMathFuncSignum P
  | .degrees => evalMathFuncDegrees P
  | .radians => evalMathFuncRadians P
  | .acos => P.acos
  | .asin => P.asin
  | .atan => P.atan
  | .cos => P.cos
  | .cosh => P.cosh
  | .cot => evalMathFuncCot P
  | .sin => P.sin
  | .sinh => P.sinh
  | .tan => P.tan
  | .log => P.log
  | .log10 => P.log10
  | .sqrt => P.sqrt

def invalidArgument (func : MathFunc) (arg : D) : Bool :=
  ((func = .log || func = .log10) && P.le arg P.zero) || (func = .sqrt && P.lt arg P.zero) ||
    (func = .cot && P.eq P.zero arg)

def normalResult (result : D) : Run (Variant D) :=
  if P.normal result then .ok (.dbl result) else failAt ctx token "calculation resulted in NaN or Infinity"

def evalExecuteMathFunctionSingleParam (func : MathFunc) (args : List (Variant D)) : Run (Variant D) :=
  if args.length ≠ 1 then invalidNumber ctx token
  else evalPrepareMathFunctionArgs P ctx token args fun args => do
    let arg ← readDbl (argAt args 0)
    if invalidArgument P func arg then failAt ctx token "invalid argument for function"
    else normalResult P ctx token (mathFunc P func arg)

inductive MathFunc2 where
  | power
  | round
  | mod
  | truncate
  | atan2
deriving DecidableEq

def evalMathFuncRound (n decimalPoints : D) : D :=
  let multiplier := P.pow (P.ofNat 10) decimalPoints
  P.div (P.round (P.mul n multiplier)) multiplier

def evalMathFuncTruncate (n decimalPoints : D) : D :=
  let multiplier := if P.lt P.zero decimalPoints then P.pow (P.ofNat 10) decimalPoints else P.ofNat 1
  let multiplier := if P.lt n P.zero then P.neg multiplier else multiplier
  P.div (P.floor (P.mul multiplier n)) multiplier

def mathFunc2 : MathFunc2 → D → D → D
  | .power => P.pow
  | .round => evalMathFuncRound P
  | .mod => P.fmod
  | .truncate => evalMathFuncTruncate P
  | .atan2 => P.atan2

def invalidSecondArgument (func : MathFunc2) (arg2 : D) : Bool :=
  ((func = .round || func = .truncate) && (P.lt arg2 P.zero || !P.eq P.zero (P.fmod arg2 (P.ofNat 1)))) ||
    (func = .mod && P.eq P.zero arg2)

def evalExecuteMathFunctionDoubleParam (func : MathFunc2) (args : List (Variant D)) : Run (Variant D) :=
  if args.length ≠ 2 then invalidNumber ctx token
  else evalPrepareMathFunctionArgs P ctx token args fun args => do
    let arg1 ← readDbl (argAt args 0)
    let arg2 ← readDbl (argAt args 1)
    if invalidSecondArgument P func arg2 then failAt ctx token "invalid second argument for function"
    else if func = .atan2 ∧ P.eq P.zero arg1 ∧ P.eq P.zero arg2 then
      failAt ctx token "undefined result for arguments (0,0) for function 'atan2'"
    else normalResult P ctx token (mathFunc2 P func arg1 arg2)

def evalExecuteMathReturnValue (value : D) (args : List (Variant D)) : Run (Variant D) :=
  if args.length ≠ 0 then invalidNumber ctx token
  else if P.eq P.zero value then
    match P.random with
    | none => .error (.fail "failed to generate seed for random number generator".toList)
    | some number => .ok (.dbl number)
  else .ok (.dbl value)

def evalExecuteFunctionBetween : Run (Variant D) :=
  if args.length ≠ 3 then invalidNumber ctx token
  else evalPrepareMathFunctionArgs P ctx token args fun args => do
    let between ← readDbl (argAt args 0)
    let low ← readDbl (argAt args 1)
    let high ← readDbl (argAt args 2)
    return .dbl (P.ofBool (P.le low between && P.le between high))

end

section

variable {D : Type} (P : Platform D) (ctx : Context D) (token : Token D)
  (args : List (Variant D))

def variantTypeDesc : Variant D → String
  | .dbl _ => "double"
  | .ui64 _ => "uint64"
  | .str _ => "string"
  | .none => "none"
  | .bin _ => "binary"
  | .err _ => "error"
  | .dblVector _ => "double vector"

def liftFail {α : Type} : Except Message α → Run α
  | .ok value => .ok value
  | .error message => .error (.fail message)

def evalExecuteStatisticalFunction (statFunc : StatisticalFunc) (args : List (Variant D)) : Run (Variant D) :=
  evalValidateFunctionArgs args <|
    if args.length ≠ 1 then invalidNumber ctx token
    else
      match argAt args 0 with
      | .dblVector values =>
        if values = [] then failAt ctx token "empty vector argument for function"
        else do
          let values ← readDblVector (argAt args 0)
          return .dbl (← liftFail (P.statistical statFunc values))
      | arg => .error (.fail ("invalid argument type \"".toList ++ (variantTypeDesc arg).toList ++
          atToken ctx token "\" for function"))

def evalExecuteFunctionCount : Run (Variant D) :=
  if args.length ≠ 1 then invalidNumber ctx token
  else
    match argAt args 0 with
    | .dblVector _ => do
      let values ← readDblVector (argAt args 0)
      return .ui64 (UInt64.ofNat values.length)
    | _ => failAt ctx token "invalid type of argument for function"

def histogramArg (arg : Variant D) : Run (Variant D) :=
  match arg with
  | .str text =>
    if text.map Char.toUpper = "+INF".toList ∨ text.map Char.toUpper = "INF".toList then .ok (.dbl P.infinity)
    else failAt ctx token "invalid string values of backet for function"
  | arg => evalConvertFunctionArg P ctx token .dbl arg

def histogramArgs : Run (List (Variant D)) :=
  if args.length = 2 then
    match argAt args 1 with
    | .dblVector values =>
      if values.length % 2 ≠ 0 then failAt ctx token "invalid values number of second argument for function"
      else .ok args.tail
    | _ => failAt ctx token "invalid type of second argument for function"
  else if args.tail.length % 2 ≠ 0 then failAt ctx token "invalid number of histogram arguments for function"
  else args.tail.mapM (histogramArg P ctx token)

def quantileArg (arg : Variant D) : Run D :=
  match arg with
  | .dbl value => readDbl (.dbl value)
  | arg => do readDbl (← evalConvertFunctionArg P ctx token .dbl arg)

def bucketValues (argsNum : ℕ) (buckets : List (Variant D)) : Run (List D) :=
  if argsNum = 2 then readDblVector (argAt buckets 0) else buckets.mapM readDbl

def evalExecuteFunctionHistogramQuantile : Run (Variant D) :=
  if args.length < 2 ∨ (2 < args.length ∧ args.length % 2 = 0) then invalidNumber ctx token
  else evalValidateFunctionArgs args do
    let buckets ← histogramArgs P ctx token args
    let q ← quantileArg P ctx token (argAt args 0)
    if P.lt q P.zero || P.lt (P.ofNat 1) q then failAt ctx token "invalid value of quantile for function"
    else do
      let values ← bucketValues args.length buckets
      return .dbl (← liftFail (P.calcHistogramQuantile q values (ctx.expression.drop token.loc.l)))

end

end Glaber.Eval
