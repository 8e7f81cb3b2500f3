import Glaber.Jsonpath.Query
import Mathlib.Data.List.Chain

namespace Glaber.Jsonpath

structure Lexeme where
  type : TokenType
  text : List Char
  deriving DecidableEq

inductive Tree where
  | operand (token : Token) (h : tokenGroup token.type = .operand)
  | not (arg : Tree)
  | op2 (operator : Operator2) (left right : Tree)

def Tree.postorder : Tree → List Token
  | .operand token _ => [token]
  | .not arg => arg.postorder ++ [.opNot]
  | .op2 operator left right => left.postorder ++ (right.postorder ++ [.op2 operator])

/-- Binary operators up to a level of precedence stand in the open, those of one level from left to right; `!` binds tighter
than all of them. -/
inductive Parses : ℕ → List Lexeme → Tree → Prop
  | operand {level : ℕ} {l : Lexeme} {token : Token} (hcreate : createToken l.type l.text = some (some token))
      (h : tokenGroup token.type = .operand) : Parses level [l] (.operand token h)
  | paren {level : ℕ} {l r : Lexeme} {ls : List Lexeme} {e : Tree} (hl : l.type = .parenLeft) (hr : r.type = .parenRight)
      (inner : Parses (operatorPrecedence .or) ls e) : Parses level (l :: (ls ++ [r])) e
  | not {level : ℕ} {l : Lexeme} {ls : List Lexeme} {e : Tree} (hl : l.type = .opNot)
      (hlevel : tokenPrecedence .opNot ≤ level) (arg : Parses (tokenPrecedence .opNot) ls e) :
      Parses level (l :: ls) (.not e)
  | op2 {level : ℕ} {m : Lexeme} {left right : List Lexeme} {operator : Operator2} {e₁ e₂ : Tree}
      (hm : m.type = .op2 operator) (hlevel : operatorPrecedence operator ≤ level)
      (hleft : Parses (operatorPrecedence operator) left e₁)
      (hright : Parses (operatorPrecedence operator - 1) right e₂) :
      Parses level (left ++ m :: right) (.op2 operator e₁ e₂)

lemma lt_operatorPrecedence (operator : Operator2) : tokenPrecedence .opNot < operatorPrecedence operator := by
  cases operator <;> decide

lemma pred_lt_operatorPrecedence (operator : Operator2) : operatorPrecedence operator - 1 < operatorPrecedence operator :=
  Nat.sub_one_lt (Nat.ne_zero_of_lt (lt_operatorPrecedence operator))

lemma operatorPrecedence_le (operator : Operator2) : operatorPrecedence operator ≤ operatorPrecedence .or := by
  cases operator <;> decide

section

lemma Tree.postorder_head (e : Tree) : ∃ token tokens, e.postorder = token :: tokens ∧ tokenGroup token.type = .operand := by
  induction e with
  | operand token h => exact ⟨token, [], rfl, h⟩
  | not arg ih =>
    obtain ⟨token, tokens, heq, h⟩ := ih
    exact ⟨token, tokens ++ [.opNot], by rw [Tree.postorder, heq, List.cons_append], h⟩
  | op2 operator left right ihl _ =>
    obtain ⟨token, tokens, heq, h⟩ := ihl
    exact ⟨token, _, by rw [Tree.postorder, heq, List.cons_append], h⟩

def grow (trees : List Tree) (token : Token) : List Tree :=
  if h : tokenGroup token.type = .operand then .operand token h :: trees
  else
    match token, trees with
    | .opNot, e :: trees => .not e :: trees
    | .op2 operator, right :: left :: trees => .op2 operator left right :: trees
    | _, trees => trees

lemma foldl_grow_postorder (e : Tree) (trees : List Tree) : e.postorder.foldl grow trees = e :: trees := by
  induction e generalizing trees with
  | operand token h =>
    rw [Tree.postorder, List.foldl_cons, List.foldl_nil, grow, dif_pos h]
  | not arg ih =>
    rw [Tree.postorder, List.foldl_append, ih]
    rfl
  | op2 operator left right ihl ihr =>
    rw [Tree.postorder, List.foldl_append, ihl, List.foldl_append, ihr]
    rfl

theorem Tree.postorder_injective : Function.Injective Tree.postorder := by
  intro e e' h
  have htrees := foldl_grow_postorder e []
  rw [h, foldl_grow_postorder] at htrees
  exact (List.cons.inj htrees).1.symm

end

section

variable {D : Type} (P : Platform D) (root obj : JsonObj D)

lemma evalTokens_postorder (e : Tree) (tokens : List Token) (stack : List (Eval.Variant D)) :
    evalTokens P root obj (e.postorder ++ tokens) stack = .fail ∨
      evalTokens P root obj (e.postorder ++ tokens) stack = .mismatch ∨
      ∃ value, evalTokens P root obj (e.postorder ++ tokens) stack = evalTokens P root obj tokens (value :: stack) := by
  induction e generalizing tokens stack with
  | operand token h =>
    cases token with
    | pathAbsolute operand => exact .inr (.inr ⟨_, rfl⟩)
    | pathRelative operand =>
      by_cases hobj : isContainer obj
      · exact .inr (.inr ⟨_, if_pos hobj⟩)
      · exact .inr (.inl (if_neg hobj))
    | constStr text => exact .inr (.inr ⟨_, rfl⟩)
    | constNum text => exact .inr (.inr ⟨_, rfl⟩)
    | op2 operator => cases h
    | opNot => cases h
  | not arg ih =>
    rw [Tree.postorder, List.append_assoc]
    rcases ih ([.opNot] ++ tokens) stack with h | h | ⟨value, h⟩
    · exact .inl h
    · exact .inr (.inl h)
    · exact .inr (.inr ⟨_, h⟩)
  | op2 operator left right ihl ihr =>
    rw [Tree.postorder, List.append_assoc, List.append_assoc]
    rcases ihl (right.postorder ++ ([.op2 operator] ++ tokens)) stack with h | h | ⟨l, hl⟩
    · exact .inl h
    · exact .inr (.inl h)
    rw [hl]
    rcases ihr ([.op2 operator] ++ tokens) (l :: stack) with h | h | ⟨r, hr⟩
    · exact .inl h
    · exact .inr (.inl h)
    rw [hr, List.singleton_append, evalTokens]
    cases evalOperator2 P operator l r with
    | none => exact .inl rfl
    | some value => exact .inr (.inr ⟨value, rfl⟩)

end

section

variable {level : ℕ} {ls : List Lexeme} {e : Tree}

lemma Parses.mono (h : Parses level ls e) {level' : ℕ} (hle : level ≤ level') : Parses level' ls e := by
  cases h with
  | operand hcreate h => exact .operand hcreate h
  | paren hl hr inner => exact .paren hl hr inner
  | not hl hlevel arg => exact .not hl (hlevel.trans hle) arg
  | op2 hm hlevel hleft hright => exact .op2 hm (hlevel.trans hle) hleft hright

lemma Parses.extend (h : Parses level ls e) {m : Lexeme} {operator : Operator2} (hm : m.type = .op2 operator)
    (hlevel : operatorPrecedence operator ≤ level) {u : List Lexeme} {e₂ : Tree} (hu : Parses (tokenPrecedence .opNot) u e₂) :
    ∃ e', Parses level (ls ++ m :: u) e' := by
  have hright := hu.mono (Nat.le_sub_one_of_lt (lt_operatorPrecedence operator))
  have hnot := (lt_operatorPrecedence operator).le
  induction h with
  | operand hcreate h => exact ⟨_, .op2 hm hlevel (.operand hcreate h) hright⟩
  | paren hl hr inner => exact ⟨_, .op2 hm hlevel (.paren hl hr inner) hright⟩
  | not hl _ arg => exact ⟨_, .op2 hm hlevel (.not hl hnot arg) hright⟩
  | @op2 level m' left right operator' e₁ e₂ hm' hlevel' hleft hr _ ih =>
    by_cases hle : operatorPrecedence operator' ≤ operatorPrecedence operator
    · exact ⟨_, .op2 hm hlevel (.op2 hm' hle hleft hr) hright⟩
    · obtain ⟨e', he'⟩ := ih (Nat.le_sub_one_of_lt (not_le.mp hle))
      refine ⟨.op2 operator' e₁ e', ?_⟩
      rw [List.append_assoc, List.cons_append]
      exact .op2 hm' hlevel' hleft he'

end

end Glaber.Jsonpath
