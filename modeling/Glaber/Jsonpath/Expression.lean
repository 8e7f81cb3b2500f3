import Glaber.Jsonpath.Path

/-! Filter expressions: their tokens, the parser that puts them into postfix order (`jsonpath_parse_expression`) and the
choice of what to index (`jsonpath_expression_prepare_index`). -/

namespace Glaber.Jsonpath

open Glaber.Json (skipWhitespace)

inductive Operator2 where
  | plus
  | minus
  | mult
  | div
  | eq
  | ne
  | gt
  | ge
  | lt
  | le
  | and
  | or
  | regexp
  deriving DecidableEq

inductive TokenType where
  | pathAbsolute
  | pathRelative
  | constStr
  | constNum
  | parenLeft
  | parenRight
  | op2 (operator : Operator2)
  | opNot
  deriving DecidableEq

inductive TokenGroup where
  | none
  | operand
  | operator2
  | operator1
  deriving DecidableEq

def tokenGroup : TokenType → TokenGroup
  | .pathAbsolute | .pathRelative | .constStr | .constNum => .operand
  | .parenLeft | .parenRight => .none
  | .op2 _ => .operator2
  | .opNot => .operator1

def operatorPrecedence : Operator2 → ℕ
  | .plus | .minus => 4
  | .mult | .div => 3
  | .eq | .ne | .regexp => 7
  | .gt | .ge | .lt | .le => 6
  | .and => 11
  | .or => 12

def tokenPrecedence : TokenType → ℕ
  | .op2 operator => operatorPrecedence operator
  | .opNot => 2
  | _ => 0

section

/-- `jsonpath_create_token_jsonpath`: the paths of operands hold no filters, their parser does not take them. -/
def createTokenJsonpath (text : List Char) : Option (Path Empty) := do
  let path ← compile (fun _ _ => none) (if text.head? = some '@' then '$' :: text.tail else text)
  if ¬ path.definite ∨ (path.segments.getLast?.map (·.data.isFunction)).getD false then none else return path

structure Operand where
  text : List Char
  path : Path Empty
  created : createTokenJsonpath text = some path
  deriving DecidableEq

def createOperand (text : List Char) : Option Operand :=
  match h : createTokenJsonpath text with
  | none => none
  | some path => some ⟨text, path, h⟩

inductive Token where
  | pathAbsolute (operand : Operand)
  | pathRelative (operand : Operand)
  | constStr (text : List Char)
  | constNum (text : List Char)
  | op2 (operator : Operator2)
  | opNot
  deriving DecidableEq

def Token.type : Token → TokenType
  | .pathAbsolute _ => .pathAbsolute
  | .pathRelative _ => .pathRelative
  | .constStr _ => .constStr
  | .constNum _ => .constNum
  | .op2 operator => .op2 operator
  | .opNot => .opNot

def Token.text : Token → List Char
  | .pathAbsolute operand => operand.text
  | .pathRelative operand => operand.text
  | .constStr text => text
  | .constNum text => text
  | .op2 _ => []
  | .opNot => []

def unquote : List Char → List Char
  | [] => []
  | ['\\'] => []
  | '\\' :: c :: text => c :: unquote text
  | c :: text => c :: unquote text

def createToken (type : TokenType) (text : List Char) : Option (Option Token) :=
  match type with
  | .pathAbsolute => (createOperand text).map fun operand => some (.pathAbsolute operand)
  | .pathRelative => (createOperand text).map fun operand => some (.pathRelative operand)
  | .constStr => some (some (.constStr (unquote text.tail.dropLast)))
  | .constNum => some (some (.constNum text))
  | .op2 operator => some (some (.op2 operator))
  | .opNot => some (some .opNot)
  | .parenLeft => some none
  | .parenRight => some none

end

section

def jsonpathNext (start : List Char) : Option (List Char) :=
  match start with
  | [] => none
  | c :: rest =>
    let next := if c = '.' then rest else start
    match next with
    | [] => none
    | d :: inner =>
      if c = '.' ∧ d ≠ '[' then
        if next.takeWhile isNameChar = [] then none else some (next.dropWhile isNameChar)
      else if d ≠ '[' then none
      else
        match skipWhitespace inner with
        | [] => none
        | e :: tail =>
          if e.isDigit then closing (skipWhitespace (tail.dropWhile Char.isDigit))
          else if e = '\'' ∨ e = '"' then closing (skipWhitespace ((tail.dropWhile (· ≠ e)).tail))
          else none
where
  closing : List Char → Option (List Char)
    | ']' :: next => some next
    | _ => none

def parsePathLoop : ℕ → List Char → Option (List Char)
  | 0, ptr => some ptr
  | turns + 1, ptr =>
    if ptr.head? = some '[' ∨ ptr.head? = some '.' then jsonpathNext ptr >>= parsePathLoop turns else some ptr

def parsePath (start : List Char) : Option (List Char) := parsePathLoop start.length start.tail

def parseSubstringLoop (quotes : Char) : List Char → Option (List Char)
  | [] => none
  | c :: ptr =>
    if c = quotes then some ptr
    else if c = '\\' then
      match ptr with
      | [] => none
      | d :: ptr => if d = quotes ∨ d = '\\' then parseSubstringLoop quotes ptr else none
    else parseSubstringLoop quotes ptr

def parseNumber {D : Type} (P : Platform D) (start : List Char) : Option (List Char) := do
  let sign := if start.head? = some '-' ∨ start.head? = some '+' then 1 else 0
  let size ← Eval.numberParse (start.drop sign)
  let len ← P.strtod start
  if sign + size = len then return start.drop len else none

def tokenStart {D : Type} (P : Platform D) (prevGroup : TokenGroup) (ptr : List Char) : Option (TokenType × List Char) :=
  match ptr with
  | '(' :: rest => some (.parenLeft, rest)
  | ')' :: rest => some (.parenRight, rest)
  | '+' :: rest => some (.op2 .plus, rest)
  | '/' :: rest => some (.op2 .div, rest)
  | '*' :: rest => some (.op2 .mult, rest)
  | '!' :: '=' :: rest => some (.op2 .ne, rest)
  | '!' :: rest => some (.opNot, rest)
  | '=' :: '=' :: rest => some (.op2 .eq, rest)
  | '=' :: '~' :: rest => some (.op2 .regexp, rest)
  | '<' :: '=' :: rest => some (.op2 .le, rest)
  | '<' :: rest => some (.op2 .lt, rest)
  | '>' :: '=' :: rest => some (.op2 .ge, rest)
  | '>' :: rest => some (.op2 .gt, rest)
  | '|' :: '|' :: rest => some (.op2 .or, rest)
  | '&' :: '&' :: rest => some (.op2 .and, rest)
  | '@' :: _ => (parsePath ptr).map fun rest => (.pathRelative, rest)
  | '$' :: _ => (parsePath ptr).map fun rest => (.pathAbsolute, rest)
  | '\'' :: rest => (parseSubstringLoop '\'' rest).map fun rest => (.constStr, rest)
  | '"' :: rest => (parseSubstringLoop '"' rest).map fun rest => (.constStr, rest)
  | '-' :: rest =>
    if prevGroup = .operand then some (.op2 .minus, rest) else (parseNumber P ptr).map fun rest => (.constNum, rest)
  | c :: _ => if c.isDigit then (parseNumber P ptr).map fun rest => (.constNum, rest) else none
  | [] => none

def nextToken {D : Type} (P : Platform D) (prevGroup : TokenGroup) (text : List Char) :
    Option (TokenType × List Char × List Char) := do
  let ptr := skipWhitespace text
  let (type, rest) ← tokenStart P prevGroup ptr
  return (type, ptr.take (ptr.length - rest.length), rest)

end

section

/-- The vectors of `jsonpath_parse_expression`; `none` among the operators is a left parenthesis. -/
structure Yard where
  output : List Token
  operators : List (Option Token)
  prevGroup : TokenGroup
  nesting : ℕ

def popOperators (precedence : ℕ) : List (Option Token) → List Token × List (Option Token)
  | some token :: operators =>
    if tokenPrecedence token.type > precedence then ([], some token :: operators)
    else
      let (moved, rest) := popOperators precedence operators
      (token :: moved, rest)
  | operators => ([], operators)

def popParen : List (Option Token) → Option (List Token × List (Option Token))
  | [] => none
  | none :: operators => some ([], operators)
  | some token :: operators => (popParen operators).map fun (moved, rest) => (token :: moved, rest)

def popAll : List (Option Token) → Option (List Token)
  | [] => some []
  | none :: _ => none
  | some token :: operators => (popAll operators).map (token :: ·)

def Yard.push (y : Yard) (type : TokenType) (text : List Char) : Option Yard :=
  match tokenGroup type with
  | .operand =>
    if y.prevGroup = .operand then none
    else (createToken type text).map fun token => { y with operators := token :: y.operators, prevGroup := .operand }
  | .operator2 =>
    if y.prevGroup ≠ .operand then none else pushOperator .operator2
  | .operator1 =>
    if y.prevGroup = .operand then none else pushOperator .operator1
  | .none =>
    if type = .parenLeft then
      some { y with operators := none :: y.operators, prevGroup := .none, nesting := y.nesting + 1 }
    else if y.prevGroup ≠ .operand then none
    else (popParen y.operators).map fun (moved, rest) =>
      { output := y.output ++ moved, operators := rest, prevGroup := .operand, nesting := y.nesting - 1 }
where
  pushOperator (group : TokenGroup) : Option Yard :=
    let (moved, rest) := popOperators (tokenPrecedence type) y.operators
    (createToken type text).map fun token =>
      { y with output := y.output ++ moved, operators := token :: rest, prevGroup := group }

def parseExpressionLoop {D : Type} (P : Platform D) : ℕ → List Char → Yard → Option (List Token × List Char)
  | 0, _, _ => none
  | turns + 1, text, y => do
    let (type, lexeme, next) ← nextToken P y.prevGroup text
    if type = .parenRight ∧ y.prevGroup = .operand ∧ y.nesting = 1 then
      let rest ← popAll y.operators
      return (y.output ++ rest, next)
    else
      let y ← y.push type lexeme
      parseExpressionLoop P turns next y

end

section

/-- `zbx_jsonpath_index_value_t`: what a value on the stack is known to be. A constant is its token. -/
inductive IndexValueType where
  | const
  | value
  | path
  | pathOp
  deriving DecidableEq

structure IndexValue where
  type : IndexValueType
  indexToken : Option Operand
  valueToken : Option Token

def IndexValue.opEq (left right : IndexValue) : IndexValue :=
  if (left.type = .path ∨ right.type = .path) ∧ (left.type = .const ∨ right.type = .const) then
    if right.type = .const then { left with type := .pathOp, valueToken := right.valueToken }
    else { left with type := .pathOp, indexToken := right.indexToken }
  else { left with type := .value }

def IndexValue.weaken (v : IndexValue) : IndexValue := if v.type = .path then { v with type := .value } else v

def IndexValue.opAnd (left right : IndexValue) : IndexValue :=
  let left := left.weaken
  let right := right.weaken
  if left.type = .pathOp ∧ right.type = .pathOp then left
  else if (left.type = .pathOp ∨ right.type = .pathOp) ∧ (left.type = .value ∨ right.type = .value) then
    if left.type ≠ .pathOp then right else left
  else { left with type := .value }

def indexStep (stack : List IndexValue) : Token → Option (List IndexValue)
  | .opNot =>
    match stack with
    | [] => none
    | _ :: rest => some (⟨.value, none, none⟩ :: rest)
  | .pathRelative operand => some (⟨.path, some operand, none⟩ :: stack)
  | .pathAbsolute _ => some (⟨.value, none, none⟩ :: stack)
  | .constStr text => some (⟨.const, none, some (.constStr text)⟩ :: stack)
  | .constNum text => some (⟨.const, none, some (.constNum text)⟩ :: stack)
  | .op2 operator =>
    match stack with
    | right :: left :: rest =>
      match operator with
      | .eq => some (left.opEq right :: rest)
      | .and => some (left.opAnd right :: rest)
      | _ => some (⟨.value, none, none⟩ :: rest)
    | _ => none

def prepareIndex (tokens : List Token) : Option (Operand × Token) := do
  let stack ← tokens.foldlM indexStep []
  match stack with
  | [⟨.pathOp, some indexToken, some valueToken⟩] => return (indexToken, valueToken)
  | _ => none

structure Expression where
  tokens : List Token
  index : Option (Operand × Token)
  deriving DecidableEq

def parseExpression {D : Type} (P : Platform D) (definite : Bool) (expression : List Char) :
    Option (Expression × List Char) :=
  match expression with
  | '(' :: rest => do
    let (tokens, next) ← parseExpressionLoop P rest.length rest ⟨[], [], .none, 1⟩
    return (⟨tokens, if definite then prepareIndex tokens else none⟩, next)
  | _ => none

def jsonpathCompile {D : Type} (P : Platform D) (path : List Char) : Option (Path Expression) :=
  compile (parseExpression P) path

end

end Glaber.Jsonpath
