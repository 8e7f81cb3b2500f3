import Glaber.Eval.Unknown
import Glaber.Eval.WellFormed

namespace Glaber.Eval

section

structure Number where
  text : List Char
  whole : suffixedNumberParse text = some text.length

structure Quoted where
  text : List Char
  no_end : '\x00' ∉ text

structure Name where
  text : List Char
  alpha : ∃ c ∈ text.head?, c.isAlpha = true
  chars : ∀ c ∈ text, isNameChar c = true
  no_keyword : text ≠ ['a', 'n', 'd'] ∧ text ≠ ['o', 'r'] ∧ text ≠ ['n', 'o', 't']

inductive Formula where
  | num (n : Number)
  | str (s : Quoted)
  | unary (op : Unary) (arg : Formula)
  | binary (op : Binary) (left right : Formula)
  | group (inner : Formula)
  | call (name : Name) (args : List Formula)

def Unary.sign : Unary → List Char
  | .minus => ['-']
  | .not => ['n', 'o', 't']

def Binary.sign : Binary → List Char
  | .add => ['+']
  | .sub => ['-']
  | .mul => ['*']
  | .div => ['/']
  | .eq => ['=']
  | .ne => ['<', '>']
  | .lt => ['<']
  | .gt => ['>']
  | .le => ['<', '=']
  | .ge => ['>', '=']
  | .and => ['a', 'n', 'd']
  | .or => ['o', 'r']

def spaced (keyword : Bool) (sign : List Char) : List Char := if keyword then ' ' :: sign ++ [' '] else sign

def Unary.text (op : Unary) : List Char := spaced (op.sign = ['n', 'o', 't']) op.sign

def Binary.text (op : Binary) : List Char := spaced op.isLogic op.sign

def Formula.weight : Formula → TokenType
  | .unary op _ => priority op.type
  | .binary op _ _ => priority op.type
  | _ => 0

def parens (needed : Bool) (text : List Char) : List Char := if needed then '(' :: (text ++ [')']) else text

def escape : List Char → List Char
  | [] => []
  | c :: text => if c = '"' ∨ c = '\\' then '\\' :: c :: escape text else c :: escape text

def Quoted.quoted (s : Quoted) : List Char := '"' :: (escape s.text ++ ['"'])

mutual

def Formula.render : Formula → List Char
  | .num n => n.text
  | .str s => s.quoted
  | .unary op arg => op.text ++ parens (priority op.type < arg.weight) arg.render
  | .binary op left right =>
    parens (priority op.type < left.weight) left.render ++
      (op.text ++ parens (priority op.type ≤ right.weight) right.render)
  | .group inner => parens true inner.render
  | .call name args => name.text ++ parens true (renderArgs args)

def renderArgs : List Formula → List Char
  | [] => []
  | [arg] => arg.render
  | arg :: args => arg.render ++ ',' :: renderArgs args

end

structure Item where
  type : TokenType
  text : List Char
  args : Option ℕ
deriving DecidableEq

mutual

def Formula.traversal (signed : Bool) : Formula → List Item
  | .num n => [⟨tokenVarNum, n.text, none⟩]
  | .str s => [⟨tokenVarStr, s.quoted, none⟩]
  | .unary .minus (.num n) =>
    if signed then [⟨tokenVarNum, '-' :: n.text, none⟩] else [⟨tokenVarNum, n.text, none⟩, ⟨tokenOpMinus, ['-'], none⟩]
  | .unary op arg => arg.traversal signed ++ [⟨op.type, op.sign, none⟩]
  | .binary op left right => left.traversal signed ++ (right.traversal signed ++ [⟨op.type, op.sign, none⟩])
  | .group inner => inner.traversal signed
  | .call name args => traversalArgs signed args ++ [⟨tokenFunction, name.text, some args.length⟩]

def traversalArgs (signed : Bool) : List Formula → List Item
  | [] => []
  | arg :: args => arg.traversal signed ++ traversalArgs signed args

end

def itemOf {D : Type} (expression : List Char) (token : Token D) : Item where
  type := token.type
  text := (expression.drop token.loc.l).take (token.loc.r + 1 - token.loc.l)
  args := if has token.type classFunction then some token.opt.toNat else none

def Follow (tail : List Char) : Prop :=
  ∀ c ∈ tail.head?, c ∈ [')', ',', ' ', '*', '/', '+', '-', '<', '>', '=']

def Number.Fits (S : Scanners) (n : Number) : Prop :=
  ∀ tail, Follow tail → ∀ c ∈ n.text.getLast?,
    S.overflows (n.text ++ tail) (suffix2factor c) = false ∧ S.overflows ('-' :: (n.text ++ tail)) (suffix2factor c) = false

mutual

def Formula.Fits (S : Scanners) : Formula → Prop
  | .num n => n.Fits S
  | .str _ => True
  | .unary _ arg => arg.Fits S
  | .binary _ left right => left.Fits S ∧ right.Fits S
  | .group inner => inner.Fits S
  | .call _ args => FitsArgs S args

def FitsArgs (S : Scanners) : List Formula → Prop
  | [] => True
  | arg :: args => arg.Fits S ∧ FitsArgs S args

end

end

end Glaber.Eval
