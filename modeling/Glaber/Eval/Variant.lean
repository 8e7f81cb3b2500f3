import Glaber.Expr.Interval

/-! Variant values (`variant.c`) and the number texts of expressions. The arithmetic of doubles is a parameter. -/

namespace Glaber.Eval

section

def suffix2factor (c : Char) : ℕ :=
  match c with
  | 'K' => 1024
  | 'M' => 1048576
  | 'G' => 1073741824
  | 'T' => 1099511627776
  | 'm' => Expr.secPerMin
  | 'h' => Expr.secPerHour
  | 'd' => Expr.secPerDay
  | 'w' => Expr.secPerWeek
  | _ => 1

def zbxUnitSymbols : List Char := ['K', 'M', 'G', 'T', 's', 'm', 'h', 'd', 'w']

def isExponentMark (c : Char) : Bool := c = 'e' || c = 'E'

def exponentParse : List Char → Option ℕ
  | [] => some 0
  | c :: tail =>
    if isExponentMark c then
      let sign := if tail.head? = some '-' ∨ tail.head? = some '+' then 1 else 0
      let digits := (tail.drop sign).takeWhile Char.isDigit
      let next := ((tail.drop sign).drop digits.length).head?
      if digits = [] ∨ next = some '.' ∨ (next.map isExponentMark).getD false then none
      else some (1 + sign + digits.length)
    else some 0

def numberParse (number : List Char) : Option ℕ := do
  let body := number.takeWhile fun c => c.isDigit || c = '.'
  let exponent ← exponentParse (number.drop body.length)
  if body.countP Char.isDigit < 1 ∨ 1 < body.count '.' then none else return body.length + exponent

def suffixedNumberParse (number : List Char) : Option ℕ := do
  let len ← numberParse number
  match (number.drop len).head? with
  | some c => if c ∈ zbxUnitSymbols then return len + 1 else return len
  | none => return len

def evalSuffixedNumberParse (value : List Char) : Option Char := do
  let value := if value.head? = some '-' then value.tail else value
  let len ← suffixedNumberParse value
  if len = value.length then value.getLast? else none

end

inductive Variant (D : Type) where
  | none
  | str (text : List Char)
  | dbl (value : D)
  | ui64 (value : UInt64)
  | bin (data : List UInt8)
  | dblVector (values : List D)
  | err (message : List Char)
deriving DecidableEq

/-- The doubles of the platform; `near` is `zbx_double_compare`, `normal` holds of what `fpclassify` finds zero or normal. -/
structure Doubles (D : Type) where
  ofNat : ℕ → D
  neg : D → D
  add : D → D → D
  sub : D → D → D
  mul : D → D → D
  div : D → D → D
  lt : D → D → Bool
  near : D → D → Bool
  normal : D → Bool
  atof : List Char → D
  isDouble : List Char → Option D
  print : D → List Char

section

variable {D : Type} (F : Doubles D)

def Doubles.ofBool (b : Bool) : D := if b then F.ofNat 1 else F.ofNat 0

def maxStringLen : ℕ := 2048

def rtrim (chars : List Char) (text : List Char) : List Char := (text.reverse.dropWhile (· ∈ chars)).reverse

def trimFloat (text : List Char) : List Char :=
  let left := text.dropWhile (· = ' ')
  let right := rtrim [' '] left
  match right with
  | '"' :: c :: rest => if (c :: rest).getLast? = some '"' then (c :: rest).dropLast else right
  | _ => right

def variantToDbl : Variant D → Option D
  | .dbl value => some value
  | .ui64 value => some (F.ofNat value.toNat)
  | .str text => F.isDouble (trimFloat (rtrim ['\n', '\r'] (text.take (maxStringLen - 1))))
  | _ => Option.none

def variantConvertSuffixedNum : Variant D → Option D
  | .str text => do
    let suffix ← evalSuffixedNumberParse text
    let result := F.mul (F.atof text) (F.ofNat (suffix2factor suffix))
    if F.normal result then return result else Option.none
  | _ => Option.none

def hexDigit (n : ℕ) : Char := Nat.digitChar n

def variantValueDesc : Variant D → List Char
  | .dbl value => F.print value
  | .ui64 value => (Nat.repr value.toNat).toList
  | .str text => text
  | .none => []
  | .bin data => ((data.take 21).flatMap fun b => [hexDigit (b.toNat / 16), hexDigit (b.toNat % 16), ' ']).dropLast
  | .err message => message
  | .dblVector values => "double vector[0:".toList ++ (Nat.repr values.length).toList ++ "]".toList

end

section

def strcmp : List Char → List Char → ℤ
  | [], [] => 0
  | [], _ :: _ => -1
  | _ :: _, [] => 1
  | a :: as, b :: bs => if a = b then strcmp as bs else (a.toNat : ℤ) - b.toNat

def memcmp : List UInt8 → List UInt8 → ℤ
  | [], _ => 0
  | _, [] => 0
  | a :: as, b :: bs => if a = b then memcmp as bs else (a.toNat : ℤ) - b.toNat

variable {D : Type} (F : Doubles D)

def compareNat (a b : ℕ) : ℤ := if a < b then -1 else if b < a then 1 else 0

def Doubles.compare (a b : D) : ℤ := if F.lt a b then -1 else if F.lt b a then 1 else 0

def compareDblVectors : List D → List D → ℤ
  | a :: as, b :: bs => if F.compare a b ≠ 0 then F.compare a b else compareDblVectors as bs
  | _, _ => 0

def variantCompareEmpty : Variant D → Variant D → ℤ
  | .none, .none => 0
  | .none, _ => -1
  | _, _ => 1

def variantCompareError : Variant D → Variant D → ℤ
  | .err a, .err b => strcmp a b
  | .err _, _ => 1
  | _, _ => -1

def variantCompareBin : Variant D → Variant D → ℤ
  | .bin a, .bin b => if compareNat a.length b.length ≠ 0 then compareNat a.length b.length else memcmp a b
  | .bin _, _ => 1
  | _, _ => -1

def variantCompareDblVector : Variant D → Variant D → ℤ
  | .dblVector a, .dblVector b =>
    if compareNat a.length b.length ≠ 0 then compareNat a.length b.length else compareDblVectors F a b
  | .dblVector _, _ => 1
  | _, _ => -1

def variantAsDbl : Variant D → Option D
  | .dbl value => some value
  | .ui64 value => some (F.ofNat value.toNat)
  | .str text => some (F.atof text)
  | _ => Option.none

/-- Two doubles that are not near each other and not ordered either are logged and taken as equal. -/
def variantCompareDbl (a b : Variant D) : ℤ :=
  match variantAsDbl F a, variantAsDbl F b with
  | some x, some y => if F.near x y then 0 else F.compare x y
  | _, _ => 0

def variantCompareStr : Variant D → Variant D → ℤ
  | .str a, b => strcmp a (variantValueDesc F b)
  | a, .str b => strcmp (variantValueDesc F a) b
  | _, _ => 0

def Variant.isNone : Variant D → Bool
  | .none => true
  | _ => false

def Variant.isErr : Variant D → Bool
  | .err _ => true
  | _ => false

def Variant.isBin : Variant D → Bool
  | .bin _ => true
  | _ => false

def Variant.isDblVector : Variant D → Bool
  | .dblVector _ => true
  | _ => false

def comparesAsDbl : Variant D → Bool
  | .str text => (F.isDouble text).isSome
  | _ => true

def variantCompare (a b : Variant D) : ℤ :=
  if a.isNone || b.isNone then variantCompareEmpty a b
  else if a.isErr || b.isErr then variantCompareError a b
  else if a.isBin || b.isBin then variantCompareBin a b
  else if a.isDblVector || b.isDblVector then variantCompareDblVector F a b
  else match a, b with
    | .ui64 x, .ui64 y => compareNat x.toNat y.toNat
    | _, _ => if comparesAsDbl F a && comparesAsDbl F b then variantCompareDbl F a b else variantCompareStr F a b

end

end Glaber.Eval
