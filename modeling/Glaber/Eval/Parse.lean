import Glaber.Eval.Token

/-! The expression parser (`parse.c`). The top of the operator stack is the head of its list. -/

namespace Glaber.Eval

inductive MacroKind where
  | plainMacro
  | funcMacro
  | simpleMacro
  | userMacro
  | lldMacro
  | lldFuncMacro
  | other

/-- What the parser takes from other sources: the macro parsers, which answer with the offset of the last character of a
macro that stands at the start of the text, the length of an item query, and whether `strtod` times a factor overflows
(or `errno` is `EDOM` behind it). -/
structure Scanners where
  plainMacro : List Char → Option (MacroKind × ℕ)
  userMacro : List Char → Option (MacroKind × ℕ)
  lldMacro : List Char → Option (MacroKind × ℕ)
  nestedMacro : List Char → Option (MacroKind × ℕ)
  query : List Char → ℕ
  overflows : List Char → ℕ → Bool

structure Parser (D : Type) where
  expression : List Char
  rules : Rules
  lastTokenType : TokenType
  constIndex : ℕ
  functionidIndex : ℕ
  stack : List (Token D)
  ops : List (Token D)

abbrev ParseError := List Char

variable {D : Type} (S : Scanners)

namespace Parser

variable (p : Parser D)

def char (pos : ℕ) : Char := p.expression.getD pos '\x00'

def rest (pos : ℕ) : List Char := p.expression.drop pos

def quoting (text : String) (pos : ℕ) : ParseError := text.toList ++ " \"".toList ++ p.rest pos ++ ['"']

def invalidToken (pos : ℕ) : ParseError := p.quoting "invalid token starting with" pos

def allowed (mask : Rules) : Bool := allows p.rules mask

def lastIs (mask : TokenType) : Bool := has p.lastTokenType mask

end Parser

section

variable (p : Parser D)

def isWhitespace (c : Char) : Bool := c = ' ' || (9 ≤ c.toNat && c.toNat ≤ 13)

variable (pos : ℕ)

def evalGetWhitespaceLen : ℕ := ((p.rest pos).takeWhile isWhitespace).length

def charToken (type : TokenType) (l r : ℕ) : Token D := ⟨type, 0, ⟨l, r⟩, .none⟩

def evalUpdateConstVariable (token : Token D) : Token D × Parser D :=
  if p.allowed parseConstIndex && !(p.ops.any fun op => has op.type classFunction) then
    ({ token with opt := UInt32.ofNat p.constIndex }, { p with constIndex := p.constIndex + 1 })
  else (token, p)

def evalIsCompoundNumberChar (c : Char) (pos : ℕ) : Bool :=
  c.isDigit || c = '.' || c = '\x7b' || (isExponentMark c && pos ≠ 0)

def tokenParseObjectid : List Char → Option ℕ
  | '\x7b' :: text =>
    let digits := text.takeWhile Char.isDigit
    if digits ≠ [] ∧ (text.drop digits.length).head? = some '\x7d' then some (digits.length + 1) else none
  | _ => none

def evalParseFunctionid : Option (Token D × Parser D) := do
  let r ← tokenParseObjectid (p.rest pos)
  return (⟨tokenFunctionid, UInt32.ofNat p.functionidIndex, ⟨pos, pos + r⟩, .none⟩,
    { p with functionidIndex := p.functionidIndex + 1 })

def evalParseMacro : Option (MacroKind × ℕ) :=
  (if p.allowed parseMacro then S.plainMacro (p.rest pos) else none).orElse fun _ =>
  (if p.allowed parseUserMacro && p.char (pos + 1) = '$' then S.userMacro (p.rest pos) else none).orElse fun _ =>
  (if p.allowed parseLldMacro && p.char (pos + 1) = '#' then S.lldMacro (p.rest pos) else none).orElse fun _ =>
  (if p.char (pos + 1) = '\x7b' then S.nestedMacro (p.rest pos) else none)

def evalParseNumber : Option ℕ := do
  let offset := if p.char pos = '-' then 1 else 0
  let len ← suffixedNumberParse (p.rest (pos + offset))
  if S.overflows (p.rest pos) (suffix2factor (p.char (pos + (len + offset) - 1))) then none
  else return pos + (len + offset) - 1

def macroType : MacroKind → TokenType → TokenType
  | .plainMacro, _ => tokenVarMacro
  | .funcMacro, _ => tokenVarMacro
  | .simpleMacro, _ => tokenVarMacro
  | .userMacro, _ => tokenVarUserMacro
  | .lldMacro, _ => tokenVarLldMacro
  | .lldFuncMacro, _ => tokenVarLldMacro
  | .other, type => type

def constantLoop (pos : ℕ) : ℕ → ℕ → TokenType → Bool → TokenType × ℕ
  | 0, offset, type, _ => (type, offset)
  | fuel + 1, offset, type, afterNumber =>
    let next := fun offset type afterNumber =>
      if p.allowed parseCompoundConst then constantLoop pos fuel offset type afterNumber else (type, offset)
    if p.char offset = '\x7b' then
      match evalParseMacro S p offset with
      | none => (type, offset)
      | some (kind, r) =>
        let type := if pos = offset then macroType kind type else tokenVarNum
        let offset := offset + r + 1
        if p.char offset ∈ zbxUnitSymbols then (tokenVarNum, offset + 1) else next offset type false
    else
      match if afterNumber then none else evalParseNumber S p offset with
      | some r => next (r + 1) tokenVarNum true
      | none => if evalIsCompoundNumberChar (p.char offset) (offset - pos) then next (offset + 1) type afterNumber
        else (type, offset)

def evalParseConstant : Except ParseError (Token D × Parser D) :=
  let (type, offset) := constantLoop S p pos (p.expression.length + 1) pos tokenNop false
  let token := charToken type pos (offset - 1)
  if type = tokenNop then .error (p.invalidToken pos)
  else if type = tokenVarNum ∧ p.allowed parseVarNum = false then .error (p.invalidToken pos)
  else if type = tokenVarNum ∨ type = tokenVarUserMacro then .ok (evalUpdateConstVariable p token)
  else .ok (token, p)

def evalParseLessCharacterToken : Option (Token D) :=
  if p.allowed parseCompareEq && p.char (pos + 1) = '>' then some (charToken tokenOpNe pos (pos + 1))
  else if p.allowed parseCompareSort = false then none
  else if p.char (pos + 1) ≠ '=' then some (charToken tokenOpLt pos pos)
  else some (charToken tokenOpLe pos (pos + 1))

def evalParseGreaterCharacterToken : Token D :=
  if p.char (pos + 1) = '=' then charToken tokenOpGe pos (pos + 1) else charToken tokenOpGt pos pos

def stringLoop : List Char → ℕ → Except ℕ (Option ℕ)
  | [], _ => .ok none
  | '\x00' :: _, _ => .ok none
  | '"' :: _, n => .ok (some n)
  | ['\\'], n => .error n
  | '\\' :: c :: text, n => if c = '"' ∨ c = '\\' then stringLoop text (n + 2) else .error n
  | _ :: text, n => stringLoop text (n + 1)

def evalParseStringToken : Except ParseError (Token D × Parser D) :=
  match stringLoop (p.rest (pos + 1)) 0 with
  | .ok (some n) => .ok (evalUpdateConstVariable p (charToken tokenVarStr pos (pos + 1 + n)))
  | .ok none => .error (p.quoting "unterminated string at" pos)
  | .error n => .error (p.quoting "invalid escape sequence in string starting with" (pos + 1 + n))

def evalParseNumberToken : Option (Token D × Parser D) := do
  let r ← evalParseNumber S p pos
  return evalUpdateConstVariable p (charToken tokenVarNum pos r)

def keyword (word : List Char) (type : TokenType) : Option (Token D) :=
  let next := p.char (pos + word.length)
  if next = '(' || isWhitespace next then some (charToken type pos (pos + word.length - 1)) else none

def evalParseLogicToken : Option (Token D) :=
  if ['a', 'n', 'd'] <+: p.rest pos then keyword p pos ['a', 'n', 'd'] tokenOpAnd
  else if ['o', 'r'] <+: p.rest pos then keyword p pos ['o', 'r'] tokenOpOr
  else if ['n', 'o', 't'] <+: p.rest pos then keyword p pos ['n', 'o', 't'] tokenOpNot
  else none

def isNameChar (c : Char) : Bool := c.isAlpha || c = '_' || c.isDigit

def evalParseFunctionToken : Option (Token D) :=
  let name := (p.rest pos).takeWhile isNameChar
  if p.char (pos + name.length) = '(' then
    some ⟨tokenFunction, UInt32.ofNat p.stack.length, ⟨pos, pos + name.length - 1⟩, .none⟩
  else none

def evalParseQueryToken : Except ParseError (Token D) :=
  let len := S.query (p.rest pos)
  if len = 0 then .error (p.quoting "invalid item query starting at" pos)
  else .ok (charToken tokenArgQuery pos (pos + len - 1))

def periodLoop : ℕ → ℕ → Option ℕ
  | 0, _ => none
  | fuel + 1, offset =>
    let c := p.char offset
    if c = '\x00' then none
    else if c = '\x7b' && p.allowed parseCompoundConst then
      match evalParseMacro S p offset with
      | some (_, r) => periodLoop fuel (offset + r + 1)
      | none => periodLoop fuel (offset + 1)
    else if c = ',' || c = ')' || isWhitespace c then some offset
    else periodLoop fuel (offset + 1)

def evalParsePeriodToken : Except ParseError (Token D × Parser D) :=
  match periodLoop S p (p.expression.length + 1) pos with
  | some offset => .ok (charToken tokenArgPeriod pos (offset - 1), p)
  | none => .error (p.quoting "unterminated function at" pos)

def evalParsePropertyToken : Option (Token D) :=
  if p.allowed parsePropTag && ['t', 'a', 'g'].isPrefixOf (p.rest pos) then some (charToken tokenPropTag pos (pos + 2))
  else if p.allowed parsePropGroup && ['g', 'r', 'o', 'u', 'p'].isPrefixOf (p.rest pos) then
    some (charToken tokenPropGroup pos (pos + 4))
  else none

def afterQuery : Bool :=
  p.lastTokenType = tokenComma && (p.stack.getLast?.map fun token => decide (token.type = tokenArgQuery)).getD false

def evalParseBrace : Except ParseError (Token D × Parser D) :=
  if afterQuery p then evalParsePeriodToken S p pos
  else match if p.allowed parseFunctionid then evalParseFunctionid p pos else none with
    | some read => .ok read
    | none => evalParseConstant S p pos

def evalParseMinus : Except ParseError (Token D × Parser D) :=
  match if p.allowed parseVar && !p.lastIs classOperand then evalParseNumberToken S p pos else none with
  | some read => .ok read
  | none =>
    if p.allowed parseMath = false then .error (p.invalidToken pos)
    else if p.lastIs classOperand then .ok (charToken tokenOpSub pos pos, p)
    else .ok (charToken tokenOpMinus pos pos, p)

def evalParseSlash : Except ParseError (Token D × Parser D) :=
  if p.lastTokenType = tokenGroupOpen ∧ p.allowed parseItemQuery then
    match p.ops with
    | opened :: func :: ops =>
      if has func.type classFunction then do
        let token ← evalParseQueryToken S p pos
        return (token, { p with ops := opened :: { func with type := tokenHistFunction } :: ops })
      else .error (p.quoting "item query must be first argument of a historical function at" pos)
    | _ => .error (p.quoting "item query must be first argument of a historical function at" pos)
  else if p.allowed parseMath then .ok (charToken tokenOpDiv pos pos, p)
  else .error (p.invalidToken pos)

def evalParseWord (skip pos : ℕ) : Except ParseError (Token D × Parser D) :=
  let separated := skip ≠ 0 || p.lastIs classSeparator || p.lastTokenType = tokenGroupClose
  let logic := if p.allowed parseLogic && separated then evalParseLogicToken p pos else none
  let function := if p.allowed parseFunctionName then evalParseFunctionToken p pos else none
  let property := if p.allowed parseProperty then evalParsePropertyToken p pos else none
  match logic.orElse fun _ => function.orElse fun _ => property with
  | some token => .ok (token, p)
  | none => .error (p.invalidToken pos)

def evalParseSign (mask : Rules) (token : Token D) (pos : ℕ) : Except ParseError (Token D × Parser D) :=
  if p.allowed mask then .ok (token, p) else .error (p.invalidToken pos)

def evalParseLess : Except ParseError (Token D × Parser D) :=
  match if p.allowed parseCompare then evalParseLessCharacterToken p pos else none with
  | some token => .ok (token, p)
  | none => .error (p.invalidToken pos)

def evalParseAt (skip pos : ℕ) (c : Char) : Except ParseError (Token D × Parser D) :=
  if c = '\x7b' then evalParseBrace S p pos
  else if c = '+' then evalParseSign p parseMath (charToken tokenOpAdd pos pos) pos
  else if c = '-' then evalParseMinus S p pos
  else if c = '/' then evalParseSlash S p pos
  else if c = '*' then evalParseSign p parseMath (charToken tokenOpMul pos pos) pos
  else if c = '<' then evalParseLess p pos
  else if c = '>' then evalParseSign p parseCompareSort (evalParseGreaterCharacterToken p pos) pos
  else if c = '=' then evalParseSign p parseCompareEq (charToken tokenOpEq pos pos) pos
  else if c = '(' then evalParseSign p parseGroup (charToken tokenGroupOpen pos pos) pos
  else if c = ')' then evalParseSign p parseGroup (charToken tokenGroupClose pos pos) pos
  else if c = '"' then if p.allowed parseVarStr then evalParseStringToken p pos else .error (p.invalidToken pos)
  else if c.isDigit ∧ afterQuery p then evalParsePeriodToken S p pos
  else if c.isDigit ∨ c = '.' then
    if p.allowed parseVarNum then evalParseConstant S p pos else .error (p.invalidToken pos)
  else if c = '#' then if afterQuery p then evalParsePeriodToken S p pos else .error (p.invalidToken pos)
  else if c = ',' then evalParseSign p parseFunctionArgs (charToken tokenComma pos pos) pos
  else if c = '\x00' then .ok (charToken tokenNop 0 0, p)
  else if c.isAlpha then evalParseWord p skip pos
  else .error (p.invalidToken pos)

def evalParseToken (start : ℕ) : Except ParseError (Token D × Parser D) :=
  let skip := evalGetWhitespaceLen p start
  evalParseAt S p skip (start + skip) (p.char (start + skip))

end

section

def contribution (token : Token D) : ℤ :=
  if has token.type classFunction then 1 - token.opt.toNat
  else if has token.type classOperand then 1
  else if has token.type classOperator2 then -1
  else 0

variable (p : Parser D)

def countParams (token : Token D) : Token D :=
  if has token.type classFunction then
    let params := ((p.stack.drop token.opt.toNat).map contribution).sum
    { token with opt := UInt32.ofNat (params % 2 ^ 32).toNat }
  else token

def comparedProperty (token : Token D) : Except ParseError (Option (Token D × Token D)) :=
  match p.stack.reverse with
  | top :: below =>
    if has top.type classProperty then
      match below with
      | [] => .error (p.quoting "missing comparison string for property at" top.loc.l)
      | value :: _ =>
        if has value.type classOperand then .ok (some (top, value))
        else .error (p.quoting "property must be compared with a constant value at" top.loc.l)
    else if has top.type classOperand && has token.type classOperator2 then
      match below with
      | prop :: _ => if has prop.type classProperty then .ok (some (prop, top)) else .ok none
      | [] => .ok none
    else .ok none
  | [] => .ok none

def checkProperty (token : Token D) : Except ParseError Unit := do
  if p.allowed parseProperty then
    match ← comparedProperty p token with
    | none => .ok ()
    | some (prop, value) =>
      if value.type ≠ tokenVarStr ∧ value.type ≠ tokenVarUserMacro ∧ value.type ≠ tokenVarLldMacro then
        .error (p.quoting "invalid value type compared with property at" prop.loc.l)
      else if token.type ≠ tokenOpEq ∧ token.type ≠ tokenOpNe then
        .error (p.quoting "invalid operator used with property at" prop.loc.l)
      else .ok ()
  else .ok ()

def evalAppendOperator (token : Token D) : Except ParseError (Parser D) := do
  let token := countParams p token
  checkProperty p token
  return { p with stack := p.stack ++ [token] }

def pendingOperands : List (Token D) :=
  p.stack.reverse.takeWhile fun token => has token.type classProperty || has token.type classOperand

def checkOperandProperty (token : Token D) : Except ParseError Unit :=
  if p.allowed parseProperty then
    let pending := pendingOperands p
    let prop := (pending.filter fun t => has t.type classProperty).getLast?
    let compared := "property must be compared with a constant value at"
    match prop, has token.type classProperty with
    | some prop, true => .error (p.quoting compared prop.loc.l)
    | some prop, false => if 2 < pending.length + 1 then .error (p.quoting compared prop.loc.l) else .ok ()
    | none, true => if 2 < pending.length + 1 then .error (p.quoting compared token.loc.l) else .ok ()
    | none, false => .ok ()
  else .ok ()

def evalAppendOperand (token : Token D) : Except ParseError (Parser D) := do
  if p.lastIs beforeOperand = false then .error (p.quoting "operand following another operand at" token.loc.l)
  else
    checkOperandProperty p token
    return { p with stack := p.stack ++ [token] }

def evalAppendArgNull : Parser D := { p with stack := p.stack ++ [charToken tokenArgNull 0 0] }

end

section

variable (p : Parser D) (token : Token D) (pos : ℕ)

def popGroup : List (Token D) → Parser D → Except ParseError (Parser D)
  | [], p => .ok { p with ops := [] }
  | op :: ops, p =>
    if op.type = tokenGroupOpen then .ok { p with ops := op :: ops }
    else do popGroup ops (← evalAppendOperator p op)

def popPrecedence : List (Token D) → Parser D → Except ParseError (Parser D)
  | [], p => .ok { p with ops := [] }
  | op :: ops, p =>
    if op.type &&& opPriority > token.type &&& opPriority ∨ has token.type classOperator1 then .ok { p with ops := op :: ops }
    else if op.type = tokenGroupOpen then .ok { p with ops := op :: ops }
    else do popPrecedence ops (← evalAppendOperator p op)

def pushOp : Parser D := { p with ops := token :: p.ops }

def openGroup : Except ParseError (Parser D) :=
  if p.lastIs (beforeOperand ||| classFunction) then .ok (pushOp p token)
  else .error (p.quoting "opening parenthesis must follow operator or function at" pos)

def openFunction : Except ParseError (Parser D) :=
  if p.lastIs beforeOperand then .ok (pushOp p token)
  else .error (p.quoting "function must follow operand or unary operator at" pos)

def nextArgument : Except ParseError (Parser D) :=
  if p.lastIs classOperand = false ∧ p.lastIs classSeparator = false then
    .error (p.quoting "comma must follow an operand or separator at" pos)
  else
    let p := if p.lastIs classSeparator then evalAppendArgNull p else p
    if p.ops = [] then .error ("missing function argument separator for comma at\"".toList ++ p.rest pos ++ ['"'])
    else popGroup p.ops p

def closeCall : Except ParseError (Parser D) :=
  match p.ops with
  | [] => .ok p
  | op :: ops =>
    if has op.type classFunction then do
      let p ← evalAppendOperator p op
      return { p with ops := ops }
    else if p.lastTokenType = tokenGroupOpen then .error (p.quoting "parenthesis cannot close empty group at" pos)
    else .ok p

def closeGroup : Except ParseError (Parser D) :=
  if p.lastIs (classOperand ||| classProperty ||| classSeparator) = false ∧
      (p.ops[1]?.map fun op => op.type) ≠ some tokenFunction then
    .error (p.quoting "right parenthesis must follow an operand or left parenthesis at" pos)
  else if p.ops = [] then .error (p.quoting "missing left parenthesis for right parenthesis at" pos)
  else do
    let p ← popGroup p.ops p
    closeCall { p with ops := p.ops.tail } pos

def addOperator : Except ParseError (Parser D) :=
  if has token.type classOperator2 ∧ p.lastIs beforeOperator = false then
    .error (p.quoting "binary operator must be used after operand at" pos)
  else if has token.type classOperator1 ∧ p.lastIs beforeOperand = false then
    .error (p.quoting "unary operator cannot follow an operand at" pos)
  else do return pushOp (← popPrecedence token p.ops p) token

def addToken : Except ParseError (Parser D) :=
  if token.type = tokenGroupOpen then openGroup p token pos
  else if has token.type classFunction then openFunction p token pos
  else if token.type = tokenComma then nextArgument p pos
  else if token.type = tokenGroupClose then closeGroup p pos
  else if has token.type (classOperand ||| classProperty) then evalAppendOperand p token
  else if has token.type classOperator then addOperator p token pos
  else .ok p

def checkToken : Except ParseError (Parser D) :=
  if 0x7fffffff < token.loc.r then .error "too long expression".toList
  else if p.lastTokenType = tokenArgQuery ∧ token.type ≠ tokenComma ∧ token.type ≠ tokenGroupClose then
    .error (p.quoting "invalid expression following query token at" pos)
  else if token.type = tokenGroupClose ∧ p.lastTokenType = tokenComma then .ok (evalAppendArgNull p)
  else .ok p

def parseStep : Except ParseError (Option (Token D × Parser D)) :=
  if p.char pos = '\x00' then .ok none
  else do
    let (token, p) ← evalParseToken S p pos
    if token.type = tokenNop then .ok none
    else
      let p ← checkToken p token pos
      let p ← addToken p token pos
      return some (token, { p with lastTokenType := token.type })

def parseLoop : ℕ → Parser D → ℕ → Except ParseError (Parser D × List (Token D))
  | 0, _, _ => .error []
  | fuel + 1, p, pos => do
    match ← parseStep S p pos with
    | none => return (p, [])
    | some (token, p) =>
      let (p, tokens) ← parseLoop fuel p (token.loc.r + 1)
      return (p, token :: tokens)

def flushOps : List (Token D) → Parser D → Except ParseError (Parser D)
  | [], p => .ok { p with ops := [] }
  | op :: ops, p =>
    if op.type = tokenGroupOpen then
      .error ("mismatched () brackets in expression: ".toList ++ p.expression)
    else do flushOps ops (← evalAppendOperator p op)

def finish : Except ParseError (Parser D) :=
  if p.lastIs classOperator then .error "expression ends with operator".toList
  else if p.lastTokenType = tokenComma then .error "expression ends with comma".toList
  else do
    let p ← flushOps p.ops p
    match p.stack with
    | [] => .error "empty expression".toList
    | [token] =>
      if p.allowed parseProperty && has token.type classProperty then
        .error (p.quoting "missing comparison string for property at" token.loc.l)
      else return p
    | _ => return p

def initialParser (expression : List Char) (rules : Rules) : Parser D where
  expression := expression
  rules := rules
  lastTokenType := classSeparator
  constIndex := 0
  functionidIndex := 0
  stack := []
  ops := []

def parseWithTokens (expression : List Char) (rules : Rules) : Except ParseError (Parser D × List (Token D)) := do
  let (p, tokens) ← parseLoop S (expression.length + 1) (initialParser expression rules) 0
  return (← finish p, tokens)

def evalParseExpression (expression : List Char) (rules : Rules) : Except ParseError (Context D) := do
  let (p, _) ← parseWithTokens S expression rules
  return ⟨p.expression, p.rules, p.stack⟩

end

end Glaber.Eval
