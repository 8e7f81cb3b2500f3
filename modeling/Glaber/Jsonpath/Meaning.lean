import Glaber.Jsonpath.Postorder

namespace Glaber.Jsonpath

open Glaber.Eval (Variant)

inductive NoValue where
  | fail
  | mismatch

variable {D : Type} (P : Platform D) (root obj : JsonObj D)

/-- Left and right are computed before any operator, `&&` and `||` included. -/
def Tree.value : Tree → Except NoValue (Variant D)
  | .operand (.pathAbsolute o) _ => .ok ((extractValue P root o.path).getD .none)
  | .operand (.pathRelative o) _ =>
    if isContainer obj then .ok ((extractValue P obj o.path).getD .none) else .error .mismatch
  | .operand (.constStr text) _ => .ok (.str text)
  | .operand (.constNum text) _ => .ok (.dbl (P.atof text))
  | .not arg => do return .dbl (P.sub (P.ofNat 1) (variantToBoolean P (← arg.value)))
  | .op2 operator left right => do
    let l ← left.value
    let r ← right.value
    match evalOperator2 P operator l r with
    | some value => .ok value
    | none => .error .fail

def Tree.holds (e : Tree) : Option Bool :=
  match e.value P root obj with
  | .ok value => some (isTrue P (variantToBoolean P value))
  | .error .mismatch => some false
  | .error .fail => none

def Evaluated.after : Except NoValue (Variant D) → (Variant D → Evaluated D) → Evaluated D
  | .ok value, next => next value
  | .error .fail, _ => .fail
  | .error .mismatch, _ => .mismatch

lemma evalTokens_value (e : Tree) (tokens : List Token) (stack : List (Variant D)) :
    evalTokens P root obj (e.postorder ++ tokens) stack =
      .after (e.value P root obj) fun value => evalTokens P root obj tokens (value :: stack) := by
  induction e generalizing tokens stack with
  | operand token h =>
    cases token with
    | pathAbsolute operand => rfl
    | pathRelative operand =>
      by_cases hobj : isContainer obj
      · rw [Tree.value, if_pos hobj]
        exact if_pos hobj
      · rw [Tree.value, if_neg hobj]
        exact if_neg hobj
    | constStr text => rfl
    | constNum text => rfl
    | op2 operator => cases h
    | opNot => cases h
  | not arg ih =>
    rw [Tree.postorder, List.append_assoc, ih, Tree.value]
    rcases arg.value P root obj with (_ | _) | value <;> rfl
  | op2 operator left right ihl ihr =>
    rw [Tree.postorder, List.append_assoc, List.append_assoc, ihl]
    rw [Tree.value]
    rcases left.value P root obj with (_ | _) | l
    · rfl
    · rfl
    rw [Evaluated.after, ihr]
    rcases right.value P root obj with (_ | _) | r
    · rfl
    · rfl
    rw [Evaluated.after, List.singleton_append, evalTokens]
    dsimp only [Bind.bind, Except.bind]
    cases evalOperator2 P operator l r <;> rfl

lemma evaluate_postorder (e : Tree) (expression : Expression)
    (h : expression.tokens = e.postorder) : evaluate P root expression obj = e.holds P root obj := by
  rw [evaluate, h, ← List.append_nil e.postorder, evalTokens_value, Tree.holds]
  rcases e.value P root obj with (_ | _) | value <;> rfl

theorem accepted_filter_means {definite : Bool} {text next : List Char} {expression : Expression} {ls : List Lexeme}
    (h : parseExpression P definite text = some (expression, next)) (hlexemes : lexemes P text = some (ls, next))
    (hnot : NoRepeatedNot ls) (hcall : NoCall ls) :
    ∃ e, (∀ e', Parses (operatorPrecedence .or) ls e' ↔ e' = e) ∧
      ∀ root obj, evaluate P root expression obj = e.holds P root obj := by
  unfold parseExpression at h
  split at h
  · obtain ⟨⟨tokens, next'⟩, hloop, heq⟩ := Option.bind_eq_some_iff.mp h
    cases heq
    obtain ⟨ls', y', waiting, hls, hfin⟩ := parseExpressionLoop_finishes hloop
    cases hlexemes.symm.trans hls
    obtain ⟨⟨e, hparse, htokens⟩, -⟩ := (hfin.compilesRight_iff P).mpr ⟨hnot, hcall⟩
    exact ⟨e, hparse, fun root obj => evaluate_postorder P root obj e _ htokens⟩
  · cases h

def filterText : List Char := "(@.size > 'a' && !(@['name'] == \"x\" || $.b <= 'c'))".toList

def filterTypes : List TokenType :=
  [.pathRelative, .constStr, .op2 .gt, .pathRelative, .constStr, .op2 .eq, .pathAbsolute, .constStr, .op2 .le, .op2 .or,
    .opNot, .op2 .and]

def filterRoot : JsonObj ℤ := .object [(['b'], .string ['d'])]

def filterObj : JsonObj ℤ := .object [("size".toList, .string ['b']), ("name".toList, .string ['y'])]

theorem negated_text_means : ∃ ls expression e, lexemes wholePlatform filterText = some (ls, []) ∧
    parseExpression wholePlatform true filterText = some (expression, []) ∧
    expression.tokens.map Token.type = filterTypes ∧ (∀ e', Parses (operatorPrecedence .or) ls e' ↔ e' = e) ∧
    (∀ root obj, evaluate wholePlatform root expression obj = e.holds wholePlatform root obj) ∧
    e.holds wholePlatform filterRoot filterObj = some true := by
  have hlexemes : ∃ out, lexemes wholePlatform filterText = some out ∧ out.2 = [] ∧ NoRepeatedNot out.1 ∧ NoCall out.1 := by
    refine ⟨_, Option.eq_some_of_isSome (by decide +kernel), ?_⟩
    unfold NoRepeatedNot NoCall
    decide +kernel
  have hparse : ∃ out, parseExpression wholePlatform true filterText = some out ∧ out.2 = [] ∧
      out.1.tokens.map Token.type = filterTypes ∧ evaluate wholePlatform filterRoot out.1 filterObj = some true :=
    ⟨_, Option.eq_some_of_isSome (by decide +kernel), by decide +kernel⟩
  obtain ⟨⟨ls, _⟩, hls, rfl, hnot, hcall⟩ := hlexemes
  obtain ⟨⟨expression, _⟩, hexpression, rfl, htypes, hvalue⟩ := hparse
  obtain ⟨e, hunique, hmeans⟩ := accepted_filter_means wholePlatform hexpression hls hnot hcall
  exact ⟨ls, expression, e, hls, hexpression, htypes, hunique, hmeans, (hmeans _ _).symm.trans hvalue⟩

end Glaber.Jsonpath
