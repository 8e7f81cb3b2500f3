import Glaber.Eval.Functions

/-! The functions of expressions over strings, integers and the time (`execute.c`). -/

namespace Glaber.Eval

open Str

section

variable {D : Type} (P : Platform D) (ctx : Context D) (token : Token D)
  (args : List (Variant D))

inductive BitOptype where
  | and
  | or
  | xor
  | lshift
  | rshift
deriving DecidableEq

/-- The shifts take the count modulo 64, as the processor does. -/
def bitwise : BitOptype → UInt64 → UInt64 → UInt64
  | .and => fun left right => left &&& right
  | .or => fun left right => left ||| right
  | .xor => fun left right => left ^^^ right
  | .lshift => fun left right => left <<< right
  | .rshift => fun left right => left >>> right

def evalExecuteFunctionBitwise (type : BitOptype) (args : List (Variant D)) : Run (Variant D) :=
  if args.length ≠ 2 then invalidNumber ctx token
  else evalValidateFunctionArgs args do
    let left ← evalConvertFunctionArg P ctx token .ui64 (argAt args 0)
    let right ← evalConvertFunctionArg P ctx token .ui64 (argAt args 1)
    return .ui64 (bitwise type (← readUi64 left) (← readUi64 right))

def evalExecuteFunctionBitnot : Run (Variant D) :=
  if args.length ≠ 1 then invalidNumber ctx token
  else evalValidateFunctionArgs args do
    let arg ← evalConvertFunctionArg P ctx token .ui64 (argAt args 0)
    return .ui64 (~~~(← readUi64 arg))

def highByte (n : ℕ) : ℕ → ℕ
  | 0 => 0
  | i + 1 => if n / 256 ^ i % 256 ≠ 0 then i + 1 else highByte n i

def highBit (n : ℕ) : ℕ → ℕ
  | 0 => 0
  | i + 1 => if n.testBit i then i + 1 else highBit n i

def evalExecuteFunctionSize (ofInteger : ℕ → ℕ) (ofByte : ℕ) (args : List (Variant D)) : Run (Variant D) :=
  if args.length ≠ 1 then invalidNumber ctx token
  else evalValidateFunctionArgs args <|
    match variantConvert P .ui64 (argAt args 0) with
    | some arg => do
      return .dbl (P.ofNat (ofInteger (← readUi64 arg).toNat))
    | none =>
      match variantConvert P .str (argAt args 0) with
      | none => failAt ctx token "invalid function argument"
      | some arg => do
        return .dbl (P.ofNat ((← readString arg).length * ofByte))

def evalExecuteFunctionBytelength : Run (Variant D) :=
  evalExecuteFunctionSize P ctx token (highByte · 8) 1 args

def evalExecuteFunctionBitlength : Run (Variant D) :=
  evalExecuteFunctionSize P ctx token (highBit · 64) 8 args

end

section

variable {D : Type} (P : Platform D) (ctx : Context D) (token : Token D) (sec : ℤ)
  (args : List (Variant D))

def formatInt (width : ℕ) (n : ℤ) : List Char :=
  let digits := Nat.toDigits 10 n.natAbs
  (if n < 0 then ['-'] else []) ++ (List.replicate (width - digits.length) '0' ++ digits)

def evalExecuteFunctionOfTime (format : Time.Tm → List Char) (args : List (Variant D)) : Run (Variant D) :=
  if args.length ≠ 0 then invalidNumber ctx token
  else match P.localtime sec with
    | .error message => .error (.fail (atToken ctx token "cannot convert time for function" ++ ": ".toList ++ message))
    | .ok tm => .ok (.str (format tm))

def evalExecuteFunctionDate : Run (Variant D) :=
  evalExecuteFunctionOfTime P ctx token sec
    (fun tm => formatInt 4 (tm.year + 1900) ++ (formatInt 2 (tm.mon + 1) ++ formatInt 2 tm.mday)) args

def evalExecuteFunctionTime : Run (Variant D) :=
  evalExecuteFunctionOfTime P ctx token sec
    (fun tm => formatInt 2 tm.hour ++ (formatInt 2 tm.min ++ formatInt 2 tm.sec)) args

def evalExecuteFunctionDayofweek : Run (Variant D) :=
  evalExecuteFunctionOfTime P ctx token sec (fun tm => formatInt 1 (if tm.wday = 0 then 7 else tm.wday)) args

def evalExecuteFunctionDayofmonth : Run (Variant D) :=
  evalExecuteFunctionOfTime P ctx token sec (fun tm => formatInt 1 tm.mday) args

def evalExecuteFunctionNow : Run (Variant D) :=
  if args.length ≠ 0 then invalidNumber ctx token else .ok (.str (formatInt 1 sec))

end

section

variable {D : Type} (P : Platform D) (ctx : Context D) (token : Token D)
  (args : List (Variant D))

def zbxWhitespace : List Char := [' ', '\t', '\r', '\n']

def evalExecuteFunctionLength : Run (Variant D) :=
  if args.length ≠ 1 then invalidNumber ctx token
  else evalValidateFunctionArgs args do
    let arg ← evalConvertFunctionArg P ctx token .str (argAt args 0)
    return .dbl (P.ofNat (strlenUtf8 (← readString arg)))

def copyNchars (text : List Char) (n : ℕ) : List Char := strlcpyUtf8 text (strlenUtf8Nchars n text + 1)

def left (text : List Char) (len : UInt64) : List Char := copyNchars text len.toNat

def evalExecuteFunctionLeft : Run (Variant D) :=
  if args.length ≠ 2 then invalidNumber ctx token
  else evalValidateFunctionArgs args do
    let arg ← evalConvertFunctionArg P ctx token .str (argAt args 0)
    let len ← evalConvertFunctionArg P ctx token .ui64 (argAt args 1)
    return .str (left (← readString arg) (← readUi64 len))

def right (text : List Char) (len : UInt64) : List Char :=
  let srclen := strlenUtf8 text
  if len.toNat < srclen then copyNchars (strshiftUtf8 text (srclen - len.toNat)) len.toNat else text

def evalExecuteFunctionRight : Run (Variant D) :=
  if args.length ≠ 2 then invalidNumber ctx token
  else evalValidateFunctionArgs args do
    let arg ← evalConvertFunctionArg P ctx token .str (argAt args 0)
    let len ← evalConvertFunctionArg P ctx token .ui64 (argAt args 1)
    return .str (right (← readString arg) (← readUi64 len))

def mid (text : List Char) (start len : UInt64) : List Char :=
  let p := strshiftUtf8 text (start.toNat - 1)
  if (start + len).toNat ≤ strlenUtf8 text then copyNchars p len.toNat else p

def evalExecuteFunctionMid : Run (Variant D) :=
  if args.length ≠ 3 then invalidNumber ctx token
  else evalValidateFunctionArgs args do
    let arg ← evalConvertFunctionArg P ctx token .str (argAt args 0)
    let start ← evalConvertFunctionArg P ctx token .ui64 (argAt args 1)
    let len ← evalConvertFunctionArg P ctx token .ui64 (argAt args 2)
    let text ← readString arg
    let start ← readUi64 start
    if start.toNat = 0 ∨ strlenUtf8 text < start.toNat then failAt ctx token "invalid function second argument"
    else return .str (mid text start (← readUi64 len))

def insert (text : List Char) (start len : UInt64) (replacement : List Char) : List Char :=
  let p := strshiftUtf8 text (start.toNat - 1)
  replaceMemDyn text (text.length - p.length) (strlenUtf8Nchars len.toNat p) replacement

def evalExecuteFunctionInsert : Run (Variant D) :=
  if args.length ≠ 4 then invalidNumber ctx token
  else evalValidateFunctionArgs args do
    let arg ← evalConvertFunctionArg P ctx token .str (argAt args 0)
    let start ← evalConvertFunctionArg P ctx token .ui64 (argAt args 1)
    let len ← evalConvertFunctionArg P ctx token .ui64 (argAt args 2)
    let replacement ← evalConvertFunctionArg P ctx token .str (argAt args 3)
    let text ← readString arg
    let start ← readUi64 start
    let len ← readUi64 len
    if start.toNat = 0 ∨ strlenUtf8 text < start.toNat then failAt ctx token "invalid function second argument"
    else if strlenUtf8 text < (start - 1 + len).toNat then failAt ctx token "invalid function third argument"
    else return .str (insert text start len (← readString replacement))

def evalExecuteFunctionReplace : Run (Variant D) :=
  if args.length ≠ 3 then invalidNumber ctx token
  else evalValidateFunctionArgs args do
    let arg ← evalConvertFunctionArg P ctx token .str (argAt args 0)
    let pattern ← evalConvertFunctionArg P ctx token .str (argAt args 1)
    let replacement ← evalConvertFunctionArg P ctx token .str (argAt args 2)
    let text ← readString arg
    let pattern ← readString pattern
    if pattern ≠ [] then return .str (stringReplace pattern (← readString replacement) (text.length + 1) text)
    else return .str text

def repeatText (text : List Char) : ℕ → List Char
  | 0 => []
  | n + 1 => repeatText text n ++ text

def evalExecuteFunctionRepeat : Run (Variant D) :=
  if args.length ≠ 2 then invalidNumber ctx token
  else evalValidateFunctionArgs args do
    let str ← evalConvertFunctionArg P ctx token .str (argAt args 0)
    let num ← evalConvertFunctionArg P ctx token .ui64 (argAt args 1)
    let text ← readString str
    let num ← readUi64 num
    let lenUtf8 := UInt64.ofNat (strlenUtf8 text)
    if strlenUtf8 text = 0 then return .str []
    else if maxStringLen ≤ (num * lenUtf8).toNat then
      .error (.fail ("maximum allowed string length (2048) exceeded: ".toList ++ (Nat.repr (num * lenUtf8).toNat).toList))
    else return .str (repeatText text num.toNat)

inductive TrimOptype where
  | all
  | left
  | right
deriving DecidableEq

def trimText : TrimOptype → List Char → List Char → List Char
  | .all => fun sym text => rtrimUtf8 sym (ltrimUtf8 sym (text.length + 1) text)
  | .right => rtrimUtf8
  | .left => fun sym text => ltrimUtf8 sym (text.length + 1) text

def evalExecuteFunctionTrim (type : TrimOptype) (args : List (Variant D)) : Run (Variant D) :=
  if args.length < 1 ∨ 2 < args.length then invalidNumber ctx token
  else evalValidateFunctionArgs args do
    let sym ← if args.length = 2 then evalConvertFunctionArg P ctx token .str (argAt args 1) else .ok (.str zbxWhitespace)
    let arg ← evalConvertFunctionArg P ctx token .str (argAt args 0)
    let text ← readString arg
    let sym ← readString sym
    return .str (trimText type sym text)

def evalExecuteFunctionConcat : Run (Variant D) :=
  if args.length < 2 then invalidNumber ctx token
  else evalValidateFunctionArgs args do
    let texts ← args.mapM fun arg => do
      return variantValueDesc P.toDoubles (← evalConvertFunctionArg P ctx token .str arg)
    return .str texts.flatten

def evalExecuteFunctionChar : Run (Variant D) :=
  if args.length ≠ 1 then invalidNumber ctx token
  else evalValidateFunctionArgs args do
    let arg ← evalConvertFunctionArg P ctx token .ui64 (argAt args 0)
    let code ← readUi64 arg
    if 127 < code.toNat then
      .error (.fail ("function argument \"".toList ++ variantValueDesc P.toDoubles arg ++
        atToken ctx token "\" is out of allowed range"))
    else return .str (if code = 0 then [] else [Char.ofNat code.toNat])

def evalExecuteFunctionAscii : Run (Variant D) :=
  if args.length ≠ 1 then invalidNumber ctx token
  else evalValidateFunctionArgs args <|
    match variantConvert P .str (argAt args 0) with
    | none => failAt ctx token "invalid function argument"
    | some arg => do
      let text ← readString arg
      if utf8CharLen text ≠ 1 then failAt ctx token "invalid function argument"
      else return .ui64 (UInt64.ofNat (text.head?.getD '\x00').toNat)

def inNumber (arg : Variant D) : Option (Variant D) :=
  ((variantConvertSuffixedNum P.toDoubles arg).map .dbl).or (variantConvert P .dbl arg)

def inTexts (ref : List Char) : List (Variant D) → Run Bool
  | [] => .ok false
  | arg :: args => do
    let text ← readString (← evalConvertFunctionArg P ctx token .str arg)
    if text = ref then return true else inTexts ref args

def evalExecuteFunctionIn : Run (Variant D) :=
  if args.length < 2 then invalidNumber ctx token
  else evalValidateFunctionArgs args <|
    match args.mapM (inNumber P) with
    | some numbers => do
      let ref ← readDbl (argAt numbers 0)
      let others ← numbers.tail.mapM readDbl
      return .dbl (P.ofBool (others.any fun number => P.near ref number))
    | none => do
      let ref ← readString (← evalConvertFunctionArg P ctx token .str (argAt args 0))
      return .dbl (P.ofBool (← inTexts P ctx token ref args.tail))

end

end Glaber.Eval
