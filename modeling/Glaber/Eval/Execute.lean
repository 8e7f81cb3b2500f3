import Glaber.Eval.Token

/-! Evaluation of parsed expressions (`execute.c`). The top of the output stack is the head of the list. -/

namespace Glaber.Eval

abbrev Message := List Char

structure Functions (D : Type) where
  common : Context D → Token D → List (Variant D) → Except Message (List (Variant D))
  history : Context D → Token D → List (Variant D) → Except Message (List (Variant D))

variable {D : Type} (F : Doubles D) (calls : Functions D) (ctx : Context D) (token : Token D)

def atToken (text : String) : Message :=
  text.toList ++ " at \"".toList ++ ctx.expression.drop token.loc.l ++ ['"']

def notNumeric (side operator : String) (value : Variant D) : Message :=
  side.toList ++ " \"".toList ++ variantValueDesc F value ++ atToken ctx token ("\" is not a numeric value" ++ operator)

section

def checkNormal (value : D) : Except Message (Variant D) :=
  if F.normal value then .ok (.dbl value) else .error (atToken ctx token "calculation resulted in NaN or Infinity")

def evalUnary (right : Variant D) : Except Message (Variant D) :=
  if right.isErr then .ok right
  else match variantToDbl F right with
    | none => .error (notNumeric F ctx token "unary operator operand" "" right)
    | some value =>
      if token.type = tokenOpMinus then checkNormal F ctx token (F.neg value)
      else if token.type = tokenOpNot then checkNormal F ctx token (F.ofBool (F.near value (F.ofNat 0)))
      else .error (atToken ctx token "unknown unary operator")

def evalExecuteOpUnary : List (Variant D) → Except Message (List (Variant D))
  | [] => .error (atToken ctx token "unary operator requires one operand")
  | right :: output => do return (← evalUnary F ctx token right) :: output

def evalExecuteOpLogicErr (value : Variant D) : Option D :=
  if value.isErr then none
  else do
    let value ← variantToDbl F value
    if token.type = tokenOpAnd then
      if F.near value (F.ofNat 0) then return F.ofNat 0 else none
    else if token.type = tokenOpOr then
      if F.near value (F.ofNat 0) then none else return F.ofNat 1
    else none

def evalVariantCompare (left right : Variant D) : ℤ :=
  let left := ((variantConvertSuffixedNum F left).map Variant.dbl).getD left
  let right := ((variantConvertSuffixedNum F right).map Variant.dbl).getD right
  variantCompare F left right

/-- Only `and` and `or` look at the other operand of an error. -/
def evalErrorOperand (error other : Variant D) : Variant D :=
  ((evalExecuteOpLogicErr F token other).map Variant.dbl).getD error

def evalEquality (left right : Variant D) : Except Message (Variant D) :=
  if left.isDblVector || right.isDblVector then
    .error (atToken ctx token "vector cannot be used with comparison operator")
  else
    let equal : Bool := evalVariantCompare F left right = 0
    .ok (.dbl (F.ofBool (if token.type = tokenOpEq then equal else !equal)))

def evalArithmetic (left right : D) : Except Message (Variant D) :=
  let zero := fun value => F.near value (F.ofNat 0)
  let order := variantCompare F (.dbl left) (.dbl right)
  if token.type = tokenOpAnd then .ok (.dbl (F.ofBool (!(zero left || zero right))))
  else if token.type = tokenOpOr then .ok (.dbl (F.ofBool (!zero left || !zero right)))
  else if token.type = tokenOpLt then checkNormal F ctx token (F.ofBool (order < 0))
  else if token.type = tokenOpLe then checkNormal F ctx token (F.ofBool (order ≤ 0))
  else if token.type = tokenOpGt then checkNormal F ctx token (F.ofBool (0 < order))
  else if token.type = tokenOpGe then checkNormal F ctx token (F.ofBool (0 ≤ order))
  else if token.type = tokenOpAdd then checkNormal F ctx token (F.add left right)
  else if token.type = tokenOpSub then checkNormal F ctx token (F.sub left right)
  else if token.type = tokenOpMul then checkNormal F ctx token (F.mul left right)
  else if zero right then .error (atToken ctx token "division by zero")
  else checkNormal F ctx token (F.div left right)

def evalBinary (left right : Variant D) : Except Message (Variant D) :=
  if left.isErr then .ok (evalErrorOperand F token left right)
  else if right.isErr then .ok (evalErrorOperand F token right left)
  else if token.type = tokenOpEq ∨ token.type = tokenOpNe then evalEquality F ctx token left right
  else match variantToDbl F left, variantToDbl F right with
    | none, _ => .error (notNumeric F ctx token "left operand" " for operator" left)
    | _, none => .error (notNumeric F ctx token "right operand" " for operator" right)
    | some left, some right => evalArithmetic F ctx token left right

def evalExecuteOpBinary : List (Variant D) → Except Message (List (Variant D))
  | right :: left :: output => do return (← evalBinary F ctx token left right) :: output
  | _ => .error (atToken ctx token "binary operator requires two operands")

end

section

/-- The characters up to the closing quote, `n` of them, without the backslashes that escape. -/
def unescape : ℕ → List Char → List Char
  | n + 1, '\\' :: c :: text => c :: unescape (n - 1) text
  | n + 1, c :: text => c :: unescape n text
  | _, _ => []

def tokenText : List Char := (ctx.expression.drop token.loc.l).take (token.loc.r + 1 - token.loc.l)

def constantValue : Variant D :=
  if token.type = tokenVarNum then
    match Expr.isUintNRange (tokenText ctx token) 0 18446744073709551615 with
    | some value => .ui64 (UInt64.ofNat value)
    | none => .dbl (F.mul (F.atof (ctx.expression.drop token.loc.l))
        (F.ofNat (suffix2factor (ctx.expression.getD token.loc.r '\x00'))))
  else if token.type = tokenVarStr then
    .str (unescape (token.loc.r - token.loc.l - 1) (ctx.expression.drop (token.loc.l + 1)))
  else .str (tokenText ctx token)

def pushedValue : Except Message (Variant D) :=
  match token.value with
  | .none => .ok (constantValue F ctx token)
  | .err message => if allows ctx.rules processError then .ok (.err message) else .error message
  | value =>
    if token.type = tokenVarUserMacro then .ok (((variantConvertSuffixedNum F value).map Variant.dbl).getD value)
    else .ok value

def evalExecutePushValue (output : List (Variant D)) : Except Message (List (Variant D)) := do
  return (← pushedValue F ctx token) :: output

def evalThrowException : List (Variant D) → Message
  | [] => "exception must have one argument".toList
  | arg :: _ => variantValueDesc F arg

end

def pushesValue (type : TokenType) : Bool :=
  type = tokenVarNum || type = tokenVarStr || type = tokenVarMacro || type = tokenVarUserMacro || type = tokenArgQuery ||
    type = tokenArgPeriod

def evalExecuteToken (output : List (Variant D)) : Except Message (List (Variant D)) :=
  if has token.type classOperator1 then evalExecuteOpUnary F ctx token output
  else if has token.type classOperator2 then evalExecuteOpBinary F ctx token output
  else if token.type = tokenNop then .ok output
  else if pushesValue token.type then evalExecutePushValue F ctx token output
  else if token.type = tokenArgNull then .ok (.none :: output)
  else if token.type = tokenFunction then calls.common ctx token output
  else if token.type = tokenHistFunction then calls.history ctx token output
  else if token.type = tokenFunctionid then
    if token.value.isNone then .error "trigger history functions must be pre-calculated".toList
    else evalExecutePushValue F ctx token output
  else if token.type = tokenException then .error (evalThrowException F output)
  else .error (atToken ctx token "unknown token")

def evalExecuteTokens : List (Token D) → List (Variant D) → Except Message (List (Variant D))
  | [], output => .ok output
  | token :: tokens, output => do
    let output ← evalExecuteToken F calls ctx token output
    evalExecuteTokens tokens output

def cannotEvaluate (message : Message) : Message :=
  if (message.head?.map Char.isLower).getD false then "Cannot evaluate expression: ".toList ++ message else message

def evalResult : List (Variant D) → Except Message (Variant D)
  | [.err message] => .error message
  | [value] => .ok value
  | _ => .error "output stack after expression execution must contain one value".toList

def evalExecute : Except Message (Variant D) :=
  (do evalResult (← evalExecuteTokens F calls ctx ctx.stack [])).mapError cannotEvaluate

lemma evalExecuteTokens_append (first second : List (Token D)) (output : List (Variant D)) :
    evalExecuteTokens F calls ctx (first ++ second) output =
      (evalExecuteTokens F calls ctx first output).bind (evalExecuteTokens F calls ctx second) := by
  induction first generalizing output with
  | nil => rfl
  | cons token tokens ih =>
    rw [List.cons_append, evalExecuteTokens, evalExecuteTokens]
    cases evalExecuteToken F calls ctx token output with
    | error message => rfl
    | ok next => exact ih next

end Glaber.Eval
