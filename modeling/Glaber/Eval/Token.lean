import Glaber.Eval.Variant

/-! Tokens of evaluated expressions (`zbxeval.h`): the packed token types, their classes, the parsing rules and the
evaluation context. -/

namespace Glaber.Eval

section

abbrev TokenType := UInt32

def classOperand : TokenType := (0x01 : UInt32) <<< 26
def classOperator1 : TokenType := (0x02 : UInt32) <<< 26
def classOperator2 : TokenType := (0x04 : UInt32) <<< 26
def classFunction : TokenType := (0x08 : UInt32) <<< 26
def classSeparator : TokenType := (0x10 : UInt32) <<< 26
def classProperty : TokenType := (0x20 : UInt32) <<< 26
def classOperator : TokenType := classOperator1 ||| classOperator2

def beforeOperand : TokenType := classOperator ||| classSeparator
def beforeOperator : TokenType := classOperand ||| classProperty

def opSetPrecedence (x : TokenType) : TokenType := x <<< 22
def opPriority : TokenType := opSetPrecedence 0xf

def tokenNop : TokenType := 0
def tokenOpAdd : TokenType := 1 ||| classOperator2 ||| opSetPrecedence 4
def tokenOpSub : TokenType := 2 ||| classOperator2 ||| opSetPrecedence 4
def tokenOpMul : TokenType := 3 ||| classOperator2 ||| opSetPrecedence 3
def tokenOpDiv : TokenType := 4 ||| classOperator2 ||| opSetPrecedence 3
def tokenOpMinus : TokenType := 5 ||| classOperator1 ||| opSetPrecedence 2
def tokenOpEq : TokenType := 6 ||| classOperator2 ||| opSetPrecedence 7
def tokenOpLt : TokenType := 7 ||| classOperator2 ||| opSetPrecedence 6
def tokenOpGt : TokenType := 8 ||| classOperator2 ||| opSetPrecedence 6
def tokenOpLe : TokenType := 9 ||| classOperator2 ||| opSetPrecedence 6
def tokenOpGe : TokenType := 10 ||| classOperator2 ||| opSetPrecedence 6
def tokenOpNe : TokenType := 11 ||| classOperator2 ||| opSetPrecedence 7
def tokenOpAnd : TokenType := 12 ||| classOperator2 ||| opSetPrecedence 11
def tokenOpOr : TokenType := 13 ||| classOperator2 ||| opSetPrecedence 12
def tokenOpNot : TokenType := 14 ||| classOperator1 ||| opSetPrecedence 2
def tokenVarNum : TokenType := 15 ||| classOperand
def tokenVarStr : TokenType := 16 ||| classOperand
def tokenVarMacro : TokenType := 17 ||| classOperand
def tokenVarUserMacro : TokenType := 18 ||| classOperand
def tokenVarLldMacro : TokenType := 19 ||| classOperand
def tokenFunctionid : TokenType := 20 ||| classOperand
def tokenFunction : TokenType := 21 ||| classFunction
def tokenHistFunction : TokenType := 22 ||| classFunction
def tokenGroupOpen : TokenType := 23 ||| classSeparator
def tokenGroupClose : TokenType := 24 ||| classOperand
def tokenComma : TokenType := 25 ||| classSeparator
def tokenArgQuery : TokenType := 26 ||| classOperand
def tokenArgPeriod : TokenType := 27 ||| classOperand
def tokenArgNull : TokenType := 28 ||| classOperand
def tokenPropTag : TokenType := 29 ||| classProperty
def tokenPropGroup : TokenType := 30 ||| classProperty
def tokenException : TokenType := 31 ||| classFunction

def has (type mask : TokenType) : Bool := type &&& mask ≠ 0

end

section

abbrev Rules := UInt64

def parseMacro : Rules := 0x1
def parseUserMacro : Rules := 0x2
def parseLldMacro : Rules := 0x4
def parseFunctionid : Rules := 0x8
def parseItemQuery : Rules := 0x10
def parseConstIndex : Rules := 0x20
def parseCompoundConst : Rules := 0x40
def parseMath : Rules := 0x80
def parseCompareEq : Rules := 0x100
def parseCompareSort : Rules := 0x200
def parseLogic : Rules := 0x400
def parseVarNum : Rules := 0x800
def parseVarStr : Rules := 0x1000
def parseGroup : Rules := 0x2000
def parseFunctionArgs : Rules := 0x4000
def parseFunctionName : Rules := 0x8000
def parsePropTag : Rules := 0x10000
def parsePropGroup : Rules := 0x20000

def parseFunction : Rules := parseFunctionName ||| parseFunctionArgs ||| parseGroup
def parseCompare : Rules := parseCompareEq ||| parseCompareSort
def parseVar : Rules := parseVarNum ||| parseVarStr
def parseProperty : Rules := parsePropTag ||| parsePropGroup

def parseTriggerExpression : Rules :=
  parseMacro ||| parseUserMacro ||| parseFunctionid ||| parseFunction ||| parseMath ||| parseCompare ||| parseLogic |||
    parseVar

def processError : Rules := 0x100000000

def triggerExpression : Rules := parseTriggerExpression ||| parseConstIndex ||| processError

def allows (rules mask : Rules) : Bool := rules &&& mask ≠ 0

end

structure Loc where
  l : ℕ
  r : ℕ
deriving DecidableEq

structure Token (D : Type) where
  type : TokenType
  opt : UInt32
  loc : Loc
  value : Variant D
deriving DecidableEq

structure Context (D : Type) where
  expression : List Char
  rules : Rules
  stack : List (Token D)

end Glaber.Eval
