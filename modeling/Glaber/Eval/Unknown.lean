import Glaber.Eval.Execute
import Glaber.Lib.Kleene

namespace Glaber.Eval

open Glaber.Lib

section

inductive Unary where
  | minus
  | not

inductive Binary where
  | add
  | sub
  | mul
  | div
  | eq
  | ne
  | lt
  | gt
  | le
  | ge
  | and
  | or

def Unary.type : Unary → TokenType
  | .minus => tokenOpMinus
  | .not => tokenOpNot

def Binary.type : Binary → TokenType
  | .add => tokenOpAdd
  | .sub => tokenOpSub
  | .mul => tokenOpMul
  | .div => tokenOpDiv
  | .eq => tokenOpEq
  | .ne => tokenOpNe
  | .lt => tokenOpLt
  | .gt => tokenOpGt
  | .le => tokenOpLe
  | .ge => tokenOpGe
  | .and => tokenOpAnd
  | .or => tokenOpOr

lemma Unary.operator1 (op : Unary) : has op.type classOperator1 = true := by
  cases op <;> decide

lemma Binary.not_operator1 (op : Binary) : has op.type classOperator1 = false := by
  cases op <;> decide

lemma Binary.operator2 (op : Binary) : has op.type classOperator2 = true := by
  cases op <;> decide

def Token.isOperand {D : Type} (token : Token D) : Bool :=
  pushesValue token.type || (token.type = tokenFunctionid && !token.value.isNone)

inductive Tree (D : Type) where
  | operand (token : Token D) (operand : token.isOperand = true)
  | unary (op : Unary) (loc : Loc) (arg : Tree D)
  | binary (op : Binary) (loc : Loc) (left right : Tree D)

def opToken {D : Type} (type : TokenType) (loc : Loc) : Token D := ⟨type, 0, loc, .none⟩

variable {D : Type}

def Tree.tokens : Tree D → List (Token D)
  | .operand token _ => [token]
  | .unary op loc arg => arg.tokens ++ [opToken op.type loc]
  | .binary op loc left right => left.tokens ++ (right.tokens ++ [opToken op.type loc])

def Variant.isNumber : Variant D → Bool
  | .dbl _ => true
  | .ui64 _ => true
  | _ => false

inductive Fills : Tree D → Tree D → Prop
  | same (token : Token D) (h : token.isOperand = true) : Fills (.operand token h) (.operand token h)
  | number {token : Token D} {value : Variant D} (h : token.isOperand = true)
      (h' : { token with value := value }.isOperand = true) (herr : token.value.isErr = true)
      (hnum : value.isNumber = true) : Fills (.operand token h) (.operand { token with value := value } h')
  | unary {arg arg' : Tree D} (op : Unary) (loc : Loc) (h : Fills arg arg') :
      Fills (.unary op loc arg) (.unary op loc arg')
  | binary {left left' right right' : Tree D} (op : Binary) (loc : Loc) (hl : Fills left left')
      (hr : Fills right right') : Fills (.binary op loc left right) (.binary op loc left' right')

end

section

variable {D : Type} (F : Doubles D) (ctx : Context D)

def Tree.value : Tree D → Except Message (Variant D)
  | .operand token _ => pushedValue F ctx token
  | .unary op loc arg => do evalUnary F ctx (opToken op.type loc) (← arg.value)
  | .binary op loc left right => do
    let left ← left.value
    let right ← right.value
    evalBinary F ctx (opToken op.type loc) left right

def known (value : Variant D) : Option (Variant D) := if value.isErr then none else some value

def truth (x : Option (Variant D)) : Option Bool :=
  x.bind fun value => (variantToDbl F value).map fun d => !F.near d (F.ofNat 0)

def logicApplies (x y : Option (Variant D)) : Bool :=
  x.isNone || y.isNone || ((truth F x).isSome && (truth F y).isSome)

def kleeneBinary (op : Binary) (loc : Loc) (x y : Option (Variant D)) : Option (Option (Variant D)) :=
  match op with
  | .and => if logicApplies F x y then
      some ((Kleene.and (truth F x) (truth F y)).map fun b => .dbl (F.ofBool b)) else none
  | .or => if logicApplies F x y then
      some ((Kleene.or (truth F x) (truth F y)).map fun b => .dbl (F.ofBool b)) else none
  | op =>
    match x, y with
    | some left, some right => (evalBinary F ctx (opToken op.type loc) left right).toOption.map some
    | _, _ => some none

def kleeneUnary (op : Unary) (loc : Loc) : Option (Variant D) → Option (Option (Variant D))
  | some right => (evalUnary F ctx (opToken op.type loc) right).toOption.map some
  | none => some none

def Tree.kleene : Tree D → Option (Option (Variant D))
  | .operand token _ => (pushedValue F ctx token).toOption.map known
  | .unary op loc arg => do kleeneUnary F ctx op loc (← arg.kleene)
  | .binary op loc left right => do
    let x ← left.kleene
    let y ← right.kleene
    kleeneBinary F ctx op loc x y

end

section

variable {D : Type} (F : Doubles D) (calls : Functions D) (ctx : Context D)

lemma evalExecuteToken_operand {token : Token D} (h : token.isOperand = true) (output : List (Variant D)) :
    evalExecuteToken F calls ctx token output = (pushedValue F ctx token).map (· :: output) := by
  have hpush : evalExecutePushValue F ctx token output = (pushedValue F ctx token).map (· :: output) := by
    rw [evalExecutePushValue]
    cases pushedValue F ctx token <;> rfl
  rw [← hpush]
  rw [Token.isOperand, Bool.or_eq_true, Bool.and_eq_true, decide_eq_true_eq, Bool.not_eq_true'] at h
  obtain h | ⟨ht, hv⟩ := h
  · have hc := h
    simp only [pushesValue, Bool.or_eq_true, decide_eq_true_eq] at hc
    have h1 : has token.type classOperator1 = false := by
      obtain ((((hc | hc) | hc) | hc) | hc) | hc := hc <;> rw [hc] <;> decide
    have h2 : has token.type classOperator2 = false := by
      obtain ((((hc | hc) | hc) | hc) | hc) | hc := hc <;> rw [hc] <;> decide
    have h0 : token.type ≠ tokenNop := by
      obtain ((((hc | hc) | hc) | hc) | hc) | hc := hc <;> rw [hc] <;> decide
    simp only [evalExecuteToken, h1, h2, h0, h, if_true, if_false, Bool.false_eq_true]
  · have hp : pushesValue token.type = false := by
      rw [ht]
      decide
    have hnot : token.type ≠ tokenNop ∧ token.type ≠ tokenArgNull ∧ token.type ≠ tokenFunction ∧
        token.type ≠ tokenHistFunction := by
      rw [ht]
      decide
    have hclass : has token.type classOperator1 = false ∧ has token.type classOperator2 = false := by
      rw [ht]
      decide
    simp only [evalExecuteToken, hclass, hnot, hp, hv, if_false, Bool.false_eq_true, if_pos ht]

lemma evalExecuteToken_unary (op : Unary) (loc : Loc) (right : Variant D) (output : List (Variant D)) :
    evalExecuteToken F calls ctx (opToken op.type loc) (right :: output) =
      (evalUnary F ctx (opToken op.type loc) right).map (· :: output) := by
  have h1 : has (opToken (D := D) op.type loc).type classOperator1 = true := op.operator1
  rw [evalExecuteToken, if_pos h1, evalExecuteOpUnary]
  cases evalUnary F ctx (opToken op.type loc) right <;> rfl

lemma evalExecuteToken_binary (op : Binary) (loc : Loc) (left right : Variant D) (output : List (Variant D)) :
    evalExecuteToken F calls ctx (opToken op.type loc) (right :: left :: output) =
      (evalBinary F ctx (opToken op.type loc) left right).map (· :: output) := by
  have h1 : has (opToken (D := D) op.type loc).type classOperator1 = false := op.not_operator1
  have h2 : has (opToken (D := D) op.type loc).type classOperator2 = true := op.operator2
  rw [evalExecuteToken, h1, if_neg Bool.false_ne_true, if_pos h2, evalExecuteOpBinary]
  cases evalBinary F ctx (opToken op.type loc) left right <;> rfl

lemma evalExecuteTokens_tree (t : Tree D) (output : List (Variant D)) :
    evalExecuteTokens F calls ctx t.tokens output = (t.value F ctx).map (· :: output) := by
  induction t generalizing output with
  | operand token h =>
    rw [Tree.tokens, Tree.value, evalExecuteTokens, evalExecuteToken_operand F calls ctx h]
    cases pushedValue F ctx token <;> rfl
  | unary op loc arg ih =>
    rw [Tree.tokens, Tree.value, evalExecuteTokens_append, ih]
    cases arg.value F ctx with
    | error message => rfl
    | ok right =>
      show evalExecuteTokens F calls ctx [opToken op.type loc] (right :: output) =
        (evalUnary F ctx (opToken op.type loc) right).map (· :: output)
      rw [evalExecuteTokens, evalExecuteToken_unary]
      cases evalUnary F ctx (opToken op.type loc) right <;> rfl
  | binary op loc left right ihl ihr =>
    rw [Tree.tokens, Tree.value, evalExecuteTokens_append, ihl]
    cases left.value F ctx with
    | error message => rfl
    | ok l =>
      show evalExecuteTokens F calls ctx (right.tokens ++ [opToken op.type loc]) (l :: output) = _
      rw [evalExecuteTokens_append, ihr]
      cases right.value F ctx with
      | error message => rfl
      | ok r =>
        show evalExecuteTokens F calls ctx [opToken op.type loc] (r :: l :: output) =
          (evalBinary F ctx (opToken op.type loc) l r).map (· :: output)
        rw [evalExecuteTokens, evalExecuteToken_binary]
        cases evalBinary F ctx (opToken op.type loc) l r <;> rfl

lemma value_stack (stack : List (Token D)) (t : Tree D) : t.value F { ctx with stack := stack } = t.value F ctx := by
  induction t with
  | operand token h => rfl
  | unary op loc arg ih =>
    rw [Tree.value, Tree.value, ih]
    rfl
  | binary op loc left right ihl ihr =>
    rw [Tree.value, Tree.value, ihl, ihr]
    rfl

end

section

variable {D : Type} (F : Doubles D) (ctx : Context D)

lemma known_of_isErr {value : Variant D} (h : value.isErr = true) : known value = none := if_pos h

lemma known_of_not_isErr {value : Variant D} (h : value.isErr = false) : known value = some value := by
  rw [known, h, if_neg Bool.false_ne_true]

lemma truth_known (value : Variant D) :
    truth F (known value) = (variantToDbl F value).map fun d => !F.near d (F.ofNat 0) := by
  cases value <;> rfl

lemma variantToDbl_of_isErr {value : Variant D} (h : value.isErr = true) : variantToDbl F value = none := by
  cases value <;> first | rfl | cases h

lemma evalExecuteOpLogicErr_and (loc : Loc) (other : Variant D) :
    evalExecuteOpLogicErr F (opToken Binary.and.type loc) other =
      (variantToDbl F other).bind fun d => if F.near d (F.ofNat 0) then some (F.ofNat 0) else none := by
  by_cases ho : other.isErr = true
  · rw [evalExecuteOpLogicErr, if_pos ho, variantToDbl_of_isErr F ho, Option.bind_none]
  · rw [evalExecuteOpLogicErr, if_neg ho]
    rfl

lemma evalExecuteOpLogicErr_or (loc : Loc) (other : Variant D) :
    evalExecuteOpLogicErr F (opToken Binary.or.type loc) other =
      (variantToDbl F other).bind fun d => if F.near d (F.ofNat 0) then none else some (F.ofNat 1) := by
  by_cases ho : other.isErr = true
  · rw [evalExecuteOpLogicErr, if_pos ho, variantToDbl_of_isErr F ho, Option.bind_none]
  · rw [evalExecuteOpLogicErr, if_neg ho]
    rfl

lemma evalErrorOperand_and (loc : Loc) {error : Variant D} (he : error.isErr = true) (other : Variant D) :
    known (evalErrorOperand F (opToken Binary.and.type loc) error other) =
      (Kleene.and none (truth F (known other))).map fun b => .dbl (F.ofBool b) := by
  rw [truth_known, evalErrorOperand, evalExecuteOpLogicErr_and]
  cases variantToDbl F other with
  | none => exact known_of_isErr he
  | some d =>
    cases hz : F.near d (F.ofNat 0) with
    | true => simp [hz, known, Variant.isErr, Kleene.and, Doubles.ofBool]
    | false => simp [hz, known_of_isErr he, Kleene.and]

lemma evalErrorOperand_or (loc : Loc) {error : Variant D} (he : error.isErr = true) (other : Variant D) :
    known (evalErrorOperand F (opToken Binary.or.type loc) error other) =
      (Kleene.or none (truth F (known other))).map fun b => .dbl (F.ofBool b) := by
  rw [truth_known, evalErrorOperand, evalExecuteOpLogicErr_or]
  cases variantToDbl F other with
  | none => exact known_of_isErr he
  | some d =>
    cases hz : F.near d (F.ofNat 0) with
    | true => simp [hz, known_of_isErr he, Kleene.or]
    | false => simp [hz, known, Variant.isErr, Kleene.or, Doubles.ofBool]

lemma evalErrorOperand_strict {token : Token D} (ha : token.type ≠ tokenOpAnd) (ho : token.type ≠ tokenOpOr)
    {error : Variant D} (he : error.isErr = true) (other : Variant D) :
    known (evalErrorOperand F token error other) = none := by
  have hnone : evalExecuteOpLogicErr F token other = none := by
    simp only [evalExecuteOpLogicErr, ha, ho, if_false]
    cases variantToDbl F other <;> simp
  rw [evalErrorOperand, hnone]
  exact known_of_isErr he

lemma checkNormal_dbl {token : Token D} {d : D} {value : Variant D} (h : checkNormal F ctx token d = .ok value) :
    value.isErr = false := by
  rw [checkNormal] at h
  split_ifs at h
  cases h
  rfl

lemma ite_ok {p : Prop} [Decidable p] {a b : Except Message (Variant D)} {value : Variant D} {q : Prop}
    (ha : a = .ok value → q) (hb : b = .ok value → q) (h : (if p then a else b) = .ok value) : q := by
  split at h
  · exact ha h
  · exact hb h

lemma evalArithmetic_dbl {token : Token D} {l r : D} {value : Variant D}
    (h : evalArithmetic F ctx token l r = .ok value) : value.isErr = false := by
  have hbool : ∀ x : D, Except.ok (.dbl x) = (.ok value : Except Message (Variant D)) → value.isErr = false := by
    rintro x hx
    cases hx
    rfl
  have hnumber : ∀ x, checkNormal F ctx token x = .ok value → value.isErr = false := fun x => checkNormal_dbl F ctx
  have hdivision : ∀ text, Except.error text = (.ok value : Except Message (Variant D)) → value.isErr = false := by
    intro text ht
    cases ht
  -- One arm for each operator, and two for the division.
  exact ite_ok (hbool _) (ite_ok (hbool _) (ite_ok (hnumber _) (ite_ok (hnumber _) (ite_ok (hnumber _)
    (ite_ok (hnumber _) (ite_ok (hnumber _) (ite_ok (hnumber _) (ite_ok (hnumber _)
      (ite_ok (hdivision _) (hnumber _)))))))))) h

lemma evalEquality_dbl {token : Token D} {l r value : Variant D} (h : evalEquality F ctx token l r = .ok value) :
    value.isErr = false := by
  rw [evalEquality] at h
  split_ifs at h
  all_goals
    cases h
    rfl

lemma evalBinary_known {token : Token D} {l r value : Variant D} (hl : l.isErr = false) (hr : r.isErr = false)
    (h : evalBinary F ctx token l r = .ok value) : value.isErr = false := by
  rw [evalBinary, hl, hr, if_neg Bool.false_ne_true, if_neg Bool.false_ne_true] at h
  split_ifs at h
  · exact evalEquality_dbl F ctx h
  · split at h
    · cases h
    · cases h
    · exact evalArithmetic_dbl F ctx h

lemma evalUnary_known {token : Token D} {r value : Variant D} (hr : r.isErr = false)
    (h : evalUnary F ctx token r = .ok value) : value.isErr = false := by
  rw [evalUnary, hr, if_neg Bool.false_ne_true] at h
  split at h
  · cases h
  · split_ifs at h
    · exact checkNormal_dbl F ctx h
    · exact checkNormal_dbl F ctx h

lemma toOption_map_known {result : Except Message (Variant D)} (h : ∀ value, result = .ok value → value.isErr = false) :
    result.toOption.map known = result.toOption.map some := by
  cases result with
  | error message => rfl
  | ok value => exact congrArg some (known_of_not_isErr (h value rfl))

lemma kleeneUnary_known (op : Unary) (loc : Loc) (r : Variant D) :
    (evalUnary F ctx (opToken op.type loc) r).toOption.map known = kleeneUnary F ctx op loc (known r) := by
  cases hr : r.isErr with
  | true =>
    rw [evalUnary, if_pos hr, known_of_isErr hr, kleeneUnary]
    exact congrArg some (known_of_isErr hr)
  | false =>
    rw [known_of_not_isErr hr, kleeneUnary]
    exact toOption_map_known fun value => evalUnary_known F ctx hr

def Binary.isLogic : Binary → Bool
  | .and | .or => true
  | _ => false

lemma kleeneBinary_strict {op : Binary} (hop : op.isLogic = false) (loc : Loc) (x y : Option (Variant D)) :
    kleeneBinary F ctx op loc x y =
      match x, y with
      | some left, some right => (evalBinary F ctx (opToken op.type loc) left right).toOption.map some
      | _, _ => some none := by
  cases op <;> first | rfl | cases hop

lemma Binary.ne_logic {op : Binary} (hop : op.isLogic = false) :
    op.type ≠ tokenOpAnd ∧ op.type ≠ tokenOpOr := by
  cases op <;> first | decide | cases hop

lemma evalBinary_strict {op : Binary} (hop : op.isLogic = false) (loc : Loc) (l r : Variant D) :
    (evalBinary F ctx (opToken op.type loc) l r).toOption.map known = kleeneBinary F ctx op loc (known l) (known r) := by
  obtain ⟨ha, ho⟩ := Binary.ne_logic hop
  rw [kleeneBinary_strict F ctx hop]
  cases hl : l.isErr with
  | true =>
    rw [known_of_isErr hl, evalBinary, if_pos hl]
    exact congrArg some (evalErrorOperand_strict F ha ho hl r)
  | false =>
    rw [known_of_not_isErr hl]
    cases hr : r.isErr with
    | true =>
      rw [known_of_isErr hr, evalBinary, hl, if_neg Bool.false_ne_true, if_pos hr]
      exact congrArg some (evalErrorOperand_strict F ha ho hr l)
    | false =>
      rw [known_of_not_isErr hr]
      exact toOption_map_known fun value => evalBinary_known F ctx hl hr

structure Follows (op : Binary) (loc : Loc) (table : Option Bool → Option Bool → Option Bool)
    (combine : Bool → Bool → Bool) : Prop where
  comm : ∀ a b, table a b = table b a
  agrees : ∀ a b, table (some a) (some b) = some (combine a b)
  compares : op.type ≠ tokenOpEq ∧ op.type ≠ tokenOpNe
  errors : ∀ {error : Variant D}, error.isErr = true → ∀ other, known (evalErrorOperand F (opToken op.type loc) error other) =
    (table none (truth F (known other))).map fun b => .dbl (F.ofBool b)
  numbers : ∀ x y, evalArithmetic F ctx (opToken op.type loc) x y =
    .ok (.dbl (F.ofBool (combine (!F.near x (F.ofNat 0)) (!F.near y (F.ofNat 0)))))

variable {op : Binary} {loc : Loc} {table : Option Bool → Option Bool → Option Bool} {combine : Bool → Bool → Bool}

lemma Follows.both_known (h : Follows F ctx op loc table combine) {l r : Variant D} (hl : l.isErr = false)
    (hr : r.isErr = false) : (evalBinary F ctx (opToken op.type loc) l r).toOption.map known =
      if logicApplies F (some l) (some r) then
        some ((table (truth F (some l)) (truth F (some r))).map fun b => .dbl (F.ofBool b)) else none := by
  have heq : ¬((opToken (D := D) op.type loc).type = tokenOpEq ∨ (opToken (D := D) op.type loc).type = tokenOpNe) := by
    rintro (he | he)
    · exact h.compares.1 he
    · exact h.compares.2 he
  rw [evalBinary, hl, hr, if_neg Bool.false_ne_true, if_neg Bool.false_ne_true, if_neg heq]
  simp only [logicApplies, truth, Option.isNone_some, Bool.false_or, Option.bind_some]
  cases variantToDbl F l with
  | none => rfl
  | some x =>
    cases variantToDbl F r with
    | none => rfl
    | some y =>
      simp only [h.numbers, Option.map_some, h.agrees]
      rfl

lemma Follows.binary (h : Follows F ctx op loc table combine) (l r : Variant D) :
    (evalBinary F ctx (opToken op.type loc) l r).toOption.map known =
      if logicApplies F (known l) (known r) then
        some ((table (truth F (known l)) (truth F (known r))).map fun b => .dbl (F.ofBool b)) else none := by
  cases hl : l.isErr with
  | true =>
    rw [evalBinary, if_pos hl, known_of_isErr hl]
    exact congrArg some (h.errors hl r)
  | false =>
    cases hr : r.isErr with
    | true =>
      rw [evalBinary, hl, if_neg Bool.false_ne_true, if_pos hr, known_of_isErr hr, logicApplies, Option.isNone_none,
        Bool.or_true, Bool.true_or, if_pos rfl, h.comm]
      exact congrArg some (h.errors hr l)
    | false =>
      rw [known_of_not_isErr hl, known_of_not_isErr hr]
      exact h.both_known F ctx hl hr

lemma follows_and (loc : Loc) : Follows F ctx .and loc Kleene.and Bool.and where
  comm := Kleene.and_comm
  agrees := Kleene.and_some
  compares := by decide
  errors := evalErrorOperand_and F loc
  numbers := by
    intro x y
    rw [← Bool.not_or]
    rfl

lemma follows_or (loc : Loc) : Follows F ctx .or loc Kleene.or Bool.or where
  comm := Kleene.or_comm
  agrees := Kleene.or_some
  compares := by decide
  errors := evalErrorOperand_or F loc
  numbers := by
    intro x y
    rfl

lemma kleeneBinary_known (op : Binary) (loc : Loc) (l r : Variant D) :
    (evalBinary F ctx (opToken op.type loc) l r).toOption.map known = kleeneBinary F ctx op loc (known l) (known r) := by
  cases hop : op.isLogic with
  | true =>
    cases op with
    | and => exact (follows_and F ctx loc).binary F ctx l r
    | or => exact (follows_or F ctx loc).binary F ctx l r
    | _ => cases hop
  | false => exact evalBinary_strict F ctx hop loc l r

lemma kleene_eq_value (t : Tree D) : t.kleene F ctx = (t.value F ctx).toOption.map known := by
  induction t with
  | operand token h => rfl
  | unary op loc arg ih =>
    rw [Tree.kleene, Tree.value, ih]
    cases arg.value F ctx with
    | error message => rfl
    | ok r => exact (kleeneUnary_known F ctx op loc r).symm
  | binary op loc left right ihl ihr =>
    rw [Tree.kleene, Tree.value, ihl, ihr]
    cases left.value F ctx with
    | error message => rfl
    | ok l =>
      cases right.value F ctx with
      | error message => rfl
      | ok r => exact (kleeneBinary_known F ctx op loc l r).symm

end

section

open Kleene (Approx approx_none)

variable {D : Type} (F : Doubles D) (calls : Functions D) (ctx : Context D)

lemma kleeneUnary_mono (op : Unary) (loc : Loc) {x x' z z' : Option (Variant D)} (hx : Approx x x')
    (hz : kleeneUnary F ctx op loc x = some z) (hz' : kleeneUnary F ctx op loc x' = some z') : Approx z z' := by
  obtain rfl | rfl := hx.cases
  · cases hz
    exact approx_none z'
  · rw [hz] at hz'
    cases hz'
    exact .refl z

lemma kleeneBinary_strict_mono {op : Binary} (hop : op.isLogic = false) (loc : Loc)
    {x x' y y' z z' : Option (Variant D)} (hx : Approx x x') (hy : Approx y y')
    (hz : kleeneBinary F ctx op loc x y = some z) (hz' : kleeneBinary F ctx op loc x' y' = some z') : Approx z z' := by
  rw [kleeneBinary_strict F ctx hop] at hz
  obtain rfl | rfl := hx.cases
  · cases hz
    exact approx_none z'
  · obtain rfl | rfl := hy.cases
    · cases x' <;> cases hz <;> exact approx_none z'
    · rw [kleeneBinary_strict F ctx hop, hz] at hz'
      cases hz'
      exact .refl z

lemma kleeneBinary_mono (op : Binary) (loc : Loc) {x x' y y' z z' : Option (Variant D)} (hx : Approx x x')
    (hy : Approx y y') (hz : kleeneBinary F ctx op loc x y = some z)
    (hz' : kleeneBinary F ctx op loc x' y' = some z') : Approx z z' := by
  cases hop : op.isLogic with
  | false => exact kleeneBinary_strict_mono F ctx hop loc hx hy hz hz'
  | true =>
    cases op with
    | and =>
      rw [kleeneBinary] at hz hz'
      split_ifs at hz hz'
      cases hz
      cases hz'
      exact (Kleene.and_mono (hx.bind _) (hy.bind _)).map _
    | or =>
      rw [kleeneBinary] at hz hz'
      split_ifs at hz hz'
      cases hz
      cases hz'
      exact (Kleene.or_mono (hx.bind _) (hy.bind _)).map _
    | _ => cases hop

lemma kleene_error_operand (hrules : allows ctx.rules processError = true) {token : Token D}
    (herr : token.value.isErr = true) {x : Option (Variant D)}
    (hx : (pushedValue F ctx token).toOption.map known = some x) : x = none := by
  cases hv : token.value with
  | err message =>
    rw [pushedValue, hv] at hx
    simp only [hrules, if_true] at hx
    cases hx
    rfl
  | _ =>
    rw [hv] at herr
    cases herr

lemma Fills.approx (hrules : allows ctx.rules processError = true) {t t' : Tree D} (h : Fills t t') :
    ∀ {x x'}, t.kleene F ctx = some x → t'.kleene F ctx = some x' → Approx x x' := by
  induction h with
  | same token h =>
    intro x x' hx hx'
    rw [hx] at hx'
    cases hx'
    exact .refl x
  | number h h' herr hnum =>
    intro x x' hx hx'
    rw [kleene_error_operand F ctx hrules herr hx]
    exact approx_none x'
  | unary op loc h ih =>
    intro z z' hz hz'
    obtain ⟨x, hx, hz⟩ := Option.bind_eq_some_iff.mp hz
    obtain ⟨x', hx', hz'⟩ := Option.bind_eq_some_iff.mp hz'
    exact kleeneUnary_mono F ctx op loc (ih hx hx') hz hz'
  | binary op loc hl hr ihl ihr =>
    intro z z' hz hz'
    obtain ⟨x, hx, hz⟩ := Option.bind_eq_some_iff.mp hz
    obtain ⟨y, hy, hz⟩ := Option.bind_eq_some_iff.mp hz
    obtain ⟨x', hx', hz'⟩ := Option.bind_eq_some_iff.mp hz'
    obtain ⟨y', hy', hz'⟩ := Option.bind_eq_some_iff.mp hz'
    exact kleeneBinary_mono F ctx op loc (ihl hx hx') (ihr hy hy') hz hz'

lemma evalExecute_eq (t : Tree D) : evalExecute F calls { ctx with stack := t.tokens } =
    ((t.value F ctx).bind fun value => evalResult [value]).mapError cannotEvaluate := by
  rw [evalExecute, evalExecuteTokens_tree, value_stack]
  cases t.value F ctx <;> rfl

lemma evalExecute_ok_iff (t : Tree D) (v : Variant D) :
    evalExecute F calls { ctx with stack := t.tokens } = .ok v ↔ t.kleene F ctx = some (some v) := by
  rw [evalExecute_eq, kleene_eq_value]
  cases t.value F ctx with
  | error message => exact ⟨fun h => (by cases h), fun h => (by cases h)⟩
  | ok value =>
    cases value with
    | err message => exact ⟨fun h => (by cases h), fun h => (by cases h)⟩
    | _ => exact ⟨fun h => (by cases h; rfl), fun h => (by cases h; rfl)⟩

lemma leaves_error_iff (t : Tree D) :
    (∃ message, evalExecuteTokens F calls ctx t.tokens [] = .ok [.err message]) ↔ t.kleene F ctx = some none := by
  rw [evalExecuteTokens_tree, kleene_eq_value]
  cases t.value F ctx with
  | error message => exact ⟨fun ⟨_, h⟩ => (by cases h), fun h => (by cases h)⟩
  | ok value =>
    cases value with
    | err message => exact ⟨fun _ => rfl, fun _ => ⟨message, rfl⟩⟩
    | _ => exact ⟨fun ⟨_, h⟩ => (by cases h), fun h => (by cases h)⟩

def wholeDoubles : Doubles ℤ where
  ofNat n := n
  neg := Int.neg
  add := Int.add
  sub := Int.sub
  mul := Int.mul
  div := Int.tdiv
  lt a b := a < b
  near a b := a = b
  normal _ := true
  atof _ := 0
  isDouble _ := none
  print d := (toString d).toList

def noFunctions : Functions D where
  common _ _ _ := .error []
  history _ _ _ := .error []

def andZero (value : Variant ℤ) (h : value.isNone = false) : Tree ℤ :=
  .binary .and ⟨2, 4⟩ (.operand ⟨tokenFunctionid, 0, ⟨0, 0⟩, value⟩ (by rw [Token.isOperand, h]; rfl))
    (.operand ⟨tokenVarNum, 0, ⟨6, 6⟩, .ui64 0⟩ rfl)

def andZeroContext (stack : List (Token ℤ)) : Context ℤ := ⟨"x and 0".toList, triggerExpression, stack⟩

end

end Glaber.Eval
