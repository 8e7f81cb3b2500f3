import Glaber.Eval.ParseTokens
import Glaber.Jsonpath.Grammar
import Glaber.Preproc.Composition

namespace Glaber.Jsonpath

open Glaber.Json (skipWhitespace)

section

variable {D : Type} (P : Platform D)

def groupAfter : TokenType → TokenGroup
  | .parenRight => .operand
  | type => tokenGroup type

def nestingAfter (nesting : ℕ) : TokenType → ℕ
  | .parenLeft => nesting + 1
  | .parenRight => nesting - 1
  | _ => nesting

def lexemesLoop : ℕ → List Char → TokenGroup → ℕ → Option (List Lexeme × List Char)
  | 0, _, _, _ => none
  | turns + 1, text, prevGroup, nesting => do
    let (type, lexeme, next) ← nextToken P prevGroup text
    if type = .parenRight ∧ nesting = 1 then return ([], next)
    else
      let (ls, rest) ← lexemesLoop turns next (groupAfter type) (nestingAfter nesting type)
      return (⟨type, lexeme⟩ :: ls, rest)

def lexemes : List Char → Option (List Lexeme × List Char)
  | '(' :: rest => lexemesLoop P rest.length rest .none 1
  | _ => none

/-- Nothing is negated twice without a parenthesis. -/
def NoRepeatedNot (ls : List Lexeme) : Prop := ls.IsChain fun a b => ¬ (a.type = .opNot ∧ b.type = .opNot)

def NoCall (ls : List Lexeme) : Prop := ls.IsChain fun a b => ¬ (groupAfter a.type = .operand ∧ b.type = .parenLeft)

structure CompilesRight (ls : List Lexeme) (tokens : List Token) : Prop where
  parse : ∃ e, (∀ e', Parses (operatorPrecedence .or) ls e' ↔ e' = e) ∧ tokens = e.postorder
  evaluates : ∀ root obj : JsonObj D, evalTokens P root obj tokens [] = .fail ∨ evalTokens P root obj tokens [] = .mismatch ∨
    ∃ value, evalTokens P root obj tokens [] = .stack [value]

end

section

variable {y y' : Yard} {l : Lexeme}

def Yard.run (y : Yard) (ls : List Lexeme) : Option Yard := ls.foldlM (fun y l => y.push l.type l.text) y

lemma createToken_type {type : TokenType} {text : List Char} {token : Token} (h : createToken type text = some (some token)) :
    token.type = type := by
  cases type with
  | pathAbsolute | pathRelative =>
    obtain ⟨operand, -, heq⟩ := Option.map_eq_some_iff.mp h
    cases heq
    rfl
  | constStr | constNum | op2 | opNot => cases h; rfl
  | parenLeft | parenRight => cases h

lemma createToken_operand {type : TokenType} {text : List Char} (htype : tokenGroup type = .operand) {token : Option Token}
    (h : createToken type text = some token) : ∃ t, token = some t ∧ tokenGroup t.type = .operand := by
  cases type with
  | pathAbsolute | pathRelative =>
    obtain ⟨operand, -, rfl⟩ := Option.map_eq_some_iff.mp h
    exact ⟨_, rfl, rfl⟩
  | constStr | constNum => cases h; exact ⟨_, rfl, rfl⟩
  | parenLeft | parenRight | op2 | opNot => cases htype

lemma push_operand (htype : tokenGroup l.type = .operand) :
    y.push l.type l.text =
      if y.prevGroup = .operand then none
      else (createToken l.type l.text).map fun token => { y with operators := token :: y.operators, prevGroup := .operand } := by
  rw [Yard.push, htype]

lemma push_op2 {operator : Operator2} (htype : l.type = .op2 operator) :
    y.push l.type l.text =
      if y.prevGroup ≠ .operand then none
      else some { y with
        output := y.output ++ (popOperators (operatorPrecedence operator) y.operators).1
        operators := some (.op2 operator) :: (popOperators (operatorPrecedence operator) y.operators).2
        prevGroup := .operator2 } := by
  rw [htype]
  rfl

lemma push_not (htype : l.type = .opNot) :
    y.push l.type l.text =
      if y.prevGroup = .operand then none
      else some { y with
        output := y.output ++ (popOperators (tokenPrecedence .opNot) y.operators).1
        operators := some .opNot :: (popOperators (tokenPrecedence .opNot) y.operators).2
        prevGroup := .operator1 } := by
  rw [htype]
  rfl

lemma push_parenLeft (htype : l.type = .parenLeft) :
    y.push l.type l.text =
      some { y with operators := none :: y.operators, prevGroup := .none, nesting := y.nesting + 1 } := by
  rw [htype]
  rfl

lemma push_parenRight (htype : l.type = .parenRight) :
    y.push l.type l.text =
      if y.prevGroup ≠ .operand then none
      else (popParen y.operators).map fun moved =>
        { output := y.output ++ moved.1, operators := moved.2, prevGroup := .operand, nesting := y.nesting - 1 } := by
  rw [htype]
  rfl

lemma push_effect (h : y.push l.type l.text = some y') :
    y.output <+: y'.output ∧ y'.prevGroup = groupAfter l.type ∧ y'.nesting = nestingAfter y.nesting l.type := by
  rcases htype : l.type with _ | _ | _ | _ | _ | _ | operator | _
  case parenLeft =>
    rw [push_parenLeft htype] at h
    cases h
    exact ⟨List.prefix_rfl, rfl, rfl⟩
  case parenRight =>
    rw [push_parenRight htype] at h
    obtain ⟨-, h⟩ := Option.ite_none_left_eq_some.mp h
    obtain ⟨moved, -, rfl⟩ := Option.map_eq_some_iff.mp h
    exact ⟨List.prefix_append _ _, rfl, rfl⟩
  case op2 =>
    rw [push_op2 htype] at h
    obtain ⟨-, h⟩ := Option.ite_none_left_eq_some.mp h
    cases h
    exact ⟨List.prefix_append _ _, rfl, rfl⟩
  case opNot =>
    rw [push_not htype] at h
    obtain ⟨-, h⟩ := Option.ite_none_left_eq_some.mp h
    cases h
    exact ⟨List.prefix_append _ _, rfl, rfl⟩
  all_goals
    rw [push_operand (by rw [htype]; rfl)] at h
    obtain ⟨-, h⟩ := Option.ite_none_left_eq_some.mp h
    obtain ⟨token, -, rfl⟩ := Option.map_eq_some_iff.mp h
    exact ⟨List.prefix_rfl, rfl, rfl⟩

@[simp] lemma run_nil : y.run [] = some y := rfl

lemma run_cons (ls : List Lexeme) : y.run (l :: ls) = (y.push l.type l.text).bind fun y => y.run ls := rfl

lemma run_cons_eq_some {ls : List Lexeme} :
    y.run (l :: ls) = some y' ↔ ∃ y₁, y.push l.type l.text = some y₁ ∧ y₁.run ls = some y' :=
  Option.bind_eq_some_iff

lemma run_append (a b : List Lexeme) : y.run (a ++ b) = (y.run a).bind fun y => y.run b := List.foldlM_append

lemma run_output {ls : List Lexeme} (h : y.run ls = some y') : y.output <+: y'.output := by
  induction ls generalizing y with
  | nil => cases h; exact List.prefix_rfl
  | cons l ls ih =>
    obtain ⟨y₁, hpush, hrun⟩ := run_cons_eq_some.mp h
    exact (push_effect hpush).1.trans (ih hrun)

end

section

def Above (level : ℕ) (operators : List (Option Token)) : Prop :=
  ∀ token, operators.head? = some (some token) → level < tokenPrecedence token.type

lemma Above.mono {level level' : ℕ} {operators : List (Option Token)} (h : Above level operators) (hle : level' ≤ level) :
    Above level' operators := fun token htoken => hle.trans_lt (h token htoken)

lemma above_cons {level : ℕ} {token : Token} {operators : List (Option Token)} (h : level < tokenPrecedence token.type) :
    Above level (some token :: operators) := fun token' h' => by cases h'; exact h

lemma above_paren (level : ℕ) (operators : List (Option Token)) : Above level (none :: operators) := fun _ h => by cases h

lemma popOperators_above {level : ℕ} {operators : List (Option Token)} (h : Above level operators) :
    popOperators level operators = ([], operators) := by
  match operators with
  | [] => rfl
  | none :: operators => rfl
  | some token :: operators => rw [popOperators, if_pos (h token rfl)]

lemma popOperators_append {level : ℕ} {moved : List Token} {operators : List (Option Token)}
    (hmoved : ∀ token ∈ moved, tokenPrecedence token.type ≤ level) (h : Above level operators) :
    popOperators level (moved.map some ++ operators) = (moved, operators) := by
  induction moved with
  | nil => exact popOperators_above h
  | cons token moved ih =>
    rw [List.map_cons, List.cons_append, popOperators, if_neg (not_lt.mpr (hmoved token List.mem_cons_self)),
      ih fun t ht => hmoved t (List.mem_cons_of_mem _ ht)]

lemma popParen_append (moved : List Token) (operators : List (Option Token)) :
    popParen (moved.map some ++ none :: operators) = some (moved, operators) := by
  induction moved with
  | nil => rfl
  | cons token moved ih => rw [List.map_cons, List.cons_append, popParen, ih]; rfl

lemma popAll_map (moved : List Token) : popAll (moved.map some) = some moved := by
  induction moved with
  | nil => rfl
  | cons token moved ih => rw [List.map_cons, popAll, ih]; rfl

end

section

variable {level : ℕ} {ls : List Lexeme} {e : Tree} {y y' : Yard}

lemma noRepeatedNot_split {a b : List Lexeme} {m : Lexeme} (hm : m.type ≠ .opNot) :
    NoRepeatedNot (a ++ m :: b) ↔ NoRepeatedNot a ∧ NoRepeatedNot b := by
  simp only [NoRepeatedNot, List.isChain_append, List.isChain_cons, List.head?_cons, Option.mem_some_iff, forall_eq', hm,
    and_false, false_and, not_false_eq_true, implies_true, true_and, and_true]

lemma noRepeatedNot_singleton (l : Lexeme) : NoRepeatedNot [l] := List.isChain_singleton l

def Leaves (y : Yard) (level : ℕ) (ls : List Lexeme) (e : Tree) : Prop :=
  ∃ out waiting, y.run ls = some ⟨y.output ++ out, waiting.map some ++ y.operators, .operand, y.nesting⟩ ∧
    out ++ waiting = e.postorder ∧ ∀ token ∈ waiting, tokenPrecedence token.type ≤ level

def MayFollow (y : Yard) (level : ℕ) (ls : List Lexeme) : Prop :=
  y.prevGroup ≠ .operand ∧
    (Above level y.operators ∨ level ≤ tokenPrecedence .opNot ∧ ∀ l ∈ ls.head?, l.type ≠ .opNot)

lemma MayFollow.above_op2 {operator : Operator2} {a b : List Lexeme} (h : MayFollow y level a)
    (hlevel : operatorPrecedence operator ≤ level) : MayFollow y (operatorPrecedence operator) b := by
  refine ⟨h.1, .inl ?_⟩
  rcases h.2 with habove | ⟨hle, -⟩
  · exact habove.mono hlevel
  · exact absurd (hlevel.trans hle) (not_le.mpr (lt_operatorPrecedence operator))

lemma MayFollow.above_not {l : Lexeme} (h : MayFollow y level (l :: ls)) (hl : l.type = .opNot)
    (hlevel : tokenPrecedence .opNot ≤ level) : Above (tokenPrecedence .opNot) y.operators := by
  rcases h.2 with habove | ⟨-, hhead⟩
  · exact habove.mono hlevel
  · exact absurd hl (hhead l rfl)

lemma run_not {l : Lexeme} (h : MayFollow y level (l :: ls)) (hl : l.type = .opNot) (hlevel : tokenPrecedence .opNot ≤ level) :
    y.run (l :: ls) =
      Yard.run { y with operators := some .opNot :: y.operators, prevGroup := .operator1 } ls := by
  rw [run_cons, push_not hl, if_neg h.1, popOperators_above (h.above_not hl hlevel), List.append_nil]
  rfl

lemma run_op2 {m : Lexeme} {operator : Operator2} {out moved : List Token} {operators : List (Option Token)} {nesting : ℕ}
    (hm : m.type = .op2 operator) (hmoved : ∀ token ∈ moved, tokenPrecedence token.type ≤ operatorPrecedence operator)
    (habove : Above (operatorPrecedence operator) operators) (ls : List Lexeme) :
    Yard.run ⟨out, moved.map some ++ operators, .operand, nesting⟩ (m :: ls) =
      Yard.run ⟨out ++ moved, some (.op2 operator) :: operators, .operator2, nesting⟩ ls := by
  rw [run_cons, push_op2 hm, if_neg (not_not.mpr rfl), popOperators_append hmoved habove]
  rfl

lemma run_parenRight {r : Lexeme} {out moved : List Token} {operators : List (Option Token)} {nesting : ℕ}
    (hr : r.type = .parenRight) (ls : List Lexeme) :
    Yard.run ⟨out, moved.map some ++ none :: operators, .operand, nesting + 1⟩ (r :: ls) =
      Yard.run ⟨out ++ moved, operators, .operand, nesting⟩ ls := by
  rw [run_cons, push_parenRight hr, if_neg (not_not.mpr rfl), popParen_append]
  rfl

theorem Parses.leaves (h : Parses level ls e) (hnot : NoRepeatedNot ls) (hy : MayFollow y level ls) : Leaves y level ls e := by
  induction h generalizing y with
  | @operand level l token hcreate htoken =>
    refine ⟨[], [token], ?_, rfl, fun t ht => ?_⟩
    · have htype : tokenGroup l.type = .operand := by rw [← createToken_type hcreate, htoken]
      rw [run_cons, push_operand htype, if_neg hy.1, hcreate, List.append_nil]
      rfl
    · rw [List.mem_singleton.mp ht]
      cases token <;> first | exact Nat.zero_le _ | cases htoken
  | @paren level l r ls e hl hr _ ih =>
    have hinner := ((noRepeatedNot_split (by rw [hr]; decide)).mp ((noRepeatedNot_split (by rw [hl]; decide)).mp
      (show NoRepeatedNot ([] ++ l :: (ls ++ [r])) from hnot)).2).1
    obtain ⟨out, waiting, hrun, heq, -⟩ := @ih { y with
      operators := none :: y.operators, prevGroup := .none, nesting := y.nesting + 1 } hinner
      ⟨TokenGroup.noConfusion, .inl (above_paren _ _)⟩
    refine ⟨out ++ waiting, [], ?_, by rw [List.append_nil, heq], fun _ h => absurd h List.not_mem_nil⟩
    rw [run_cons, push_parenLeft hl, Option.bind_some, run_append, hrun, Option.bind_some, run_parenRight hr, List.append_assoc]
    rfl
  | @not level l ls e hl hlevel _ ih =>
    have hchain := List.isChain_cons.mp hnot
    obtain ⟨out, waiting, hrun, heq, hle⟩ := @ih { y with operators := some .opNot :: y.operators, prevGroup := .operator1 }
      hchain.2 ⟨TokenGroup.noConfusion, .inr ⟨le_rfl, fun l' hl' hnot' => hchain.1 l' hl' ⟨hl, hnot'⟩⟩⟩
    refine ⟨out, waiting ++ [.opNot], ?_, by rw [← List.append_assoc, heq]; rfl, fun token htoken => ?_⟩
    · rw [run_not hy hl hlevel, hrun, List.map_append, List.append_assoc]
      rfl
    · rcases List.mem_append.mp htoken with htoken | htoken
      · exact (hle token htoken).trans hlevel
      · rw [List.mem_singleton.mp htoken]
        exact hlevel
  | @op2 level m left right operator e₁ e₂ hm hlevel _ _ ihl ihr =>
    obtain ⟨hnotl, hnotr⟩ := (noRepeatedNot_split (by rw [hm]; exact TokenType.noConfusion)).mp hnot
    have habove := (hy.above_op2 (b := []) hlevel).2.resolve_right fun h =>
      absurd h.1 (not_le.mpr (lt_operatorPrecedence operator))
    obtain ⟨out, waiting, hrun, heq, hle⟩ := ihl hnotl (hy.above_op2 hlevel)
    obtain ⟨out', waiting', hrun', heq', hle'⟩ := @ihr ⟨y.output ++ out ++ waiting, some (.op2 operator) :: y.operators,
      .operator2, y.nesting⟩ hnotr ⟨TokenGroup.noConfusion, .inl (above_cons (pred_lt_operatorPrecedence operator))⟩
    refine ⟨out ++ waiting ++ out', waiting' ++ [.op2 operator], ?_, ?_, fun token htoken => ?_⟩
    · rw [run_append, hrun, Option.bind_some, run_op2 hm hle habove, hrun', List.map_append]
      simp only [List.append_assoc, List.map_cons, List.map_nil, List.cons_append, List.nil_append]
    · rw [List.append_assoc, ← List.append_assoc out', heq, heq']
      rfl
    · rcases List.mem_append.mp htoken with htoken | htoken
      · exact (hle' token htoken).trans ((Nat.sub_le _ _).trans hlevel)
      · rw [List.mem_singleton.mp htoken]
        exact hlevel

def Diverges (a b : List Token) : Prop := ∃ common t t', t ≠ t' ∧ common ++ [t] <+: a ∧ common ++ [t'] <+: b

lemma Diverges.extend {a b a' b' : List Token} (h : Diverges a b) (ha : a <+: a') (hb : b <+: b') : Diverges a' b' := by
  obtain ⟨common, t, t', hne, hta, htb⟩ := h
  exact ⟨common, t, t', hne, hta.trans ha, htb.trans hb⟩

lemma Diverges.behind {a b : List Token} (h : Diverges a b) (c : List Token) : Diverges (c ++ a) (c ++ b) := by
  obtain ⟨common, t, t', hne, hta, htb⟩ := h
  refine ⟨c ++ common, t, t', hne, ?_, ?_⟩
  · rw [List.append_assoc]
    exact (List.prefix_append_right_inj c).mpr hta
  · rw [List.append_assoc]
    exact (List.prefix_append_right_inj c).mpr htb

lemma Diverges.ne {a b : List Token} (h : Diverges a b) : a ≠ b := by
  rintro rfl
  obtain ⟨common, t, t', hne, hta, htb⟩ := h
  have heq := List.IsPrefix.eq_of_length (List.prefix_of_prefix_length_le hta htb (by simp)) (by simp)
  exact hne (List.singleton_inj.mp (List.append_cancel_left heq))

def Departs (y : Yard) (e : Tree) (y' : Yard) : Prop := ∃ out, y.output ++ out <+: y'.output ∧ Diverges out e.postorder

lemma Departs.later {y'' : Yard} (h : Departs y e y') (hrun : y'.run ls = some y'') : Departs y e y'' := by
  obtain ⟨out, hout, hdiverges⟩ := h
  exact ⟨out, hout.trans (run_output hrun), hdiverges⟩

lemma repeatedNot_departs {l' : Lexeme} (hl' : l'.type = .opNot) (habove : Above (tokenPrecedence .opNot) y.operators)
    (hrun : Yard.run { y with operators := some .opNot :: y.operators, prevGroup := .operator1 } (l' :: ls) = some y') :
    Departs y (.not e) y' := by
  rw [run_cons, push_not hl', if_neg TokenGroup.noConfusion] at hrun
  obtain ⟨y₁, hpush, hrest⟩ := Option.bind_eq_some_iff.mp hrun
  cases hpush
  obtain ⟨token, tokens, heq, htoken⟩ := e.postorder_head
  refine ⟨[.opNot], ?_, [], .opNot, token, ?_, List.prefix_rfl, ?_⟩
  · have hpop : popOperators (tokenPrecedence .opNot) (some .opNot :: y.operators) = ([.opNot], y.operators) :=
      @popOperators_append _ [.opNot] _ (fun t ht => by rw [List.mem_singleton.mp ht]; rfl) habove
    have hout := run_output hrest
    rw [hpop] at hout
    exact hout
  · rintro rfl
    cases htoken
  · rw [Tree.postorder, heq]
    exact List.prefix_append [token] _

theorem Parses.departs (h : Parses level ls e) (hnot : ¬ NoRepeatedNot ls) (hy : MayFollow y level ls)
    (hrun : y.run ls = some y') : Departs y e y' := by
  induction h generalizing y y' with
  | operand => exact absurd (noRepeatedNot_singleton _) hnot
  | @paren level l r ls e hl hr _ ih =>
    have hinner : ¬ NoRepeatedNot ls := fun hinner => hnot ((noRepeatedNot_split (a := []) (by rw [hl]; decide)).mpr
      ⟨List.isChain_nil, (noRepeatedNot_split (by rw [hr]; decide)).mpr ⟨hinner, List.isChain_nil⟩⟩)
    rw [run_cons, push_parenLeft hl, Option.bind_some, run_append] at hrun
    obtain ⟨y₁, hrun₁, hrest⟩ := Option.bind_eq_some_iff.mp hrun
    obtain ⟨out, hout, hdiverges⟩ := ih hinner ⟨TokenGroup.noConfusion, .inl (above_paren _ _)⟩ hrun₁
    exact Departs.later ⟨out, hout, hdiverges⟩ hrest
  | @not level l ls e hl hlevel _ ih =>
    have habove := hy.above_not hl hlevel
    rw [run_not hy hl hlevel] at hrun
    by_cases hhead : ∀ l' ∈ ls.head?, l'.type ≠ .opNot
    · have hinner : ¬ NoRepeatedNot ls := fun hinner =>
        hnot (List.isChain_cons.mpr ⟨fun l' hl' hboth => hhead l' hl' hboth.2, hinner⟩)
      obtain ⟨out, hout, hdiverges⟩ := ih hinner ⟨TokenGroup.noConfusion, .inr ⟨le_rfl, hhead⟩⟩ hrun
      exact ⟨out, hout, hdiverges.extend List.prefix_rfl (List.prefix_append _ _)⟩
    · push Not at hhead
      obtain ⟨l', hl', hl'not⟩ := hhead
      obtain ⟨ls', rfl⟩ := List.head?_eq_some_iff.mp hl'
      exact repeatedNot_departs hl'not habove hrun
  | @op2 level m left right operator e₁ e₂ hm hlevel hleft _ ihl ihr =>
    rw [run_append] at hrun
    obtain ⟨y₁, hrun₁, hrest⟩ := Option.bind_eq_some_iff.mp hrun
    by_cases hnotl : NoRepeatedNot left
    · have hnotr : ¬ NoRepeatedNot right := fun hnotr =>
        hnot ((noRepeatedNot_split (by rw [hm]; exact TokenType.noConfusion)).mpr ⟨hnotl, hnotr⟩)
      have habove := (hy.above_op2 (b := []) hlevel).2.resolve_right fun h =>
        absurd h.1 (not_le.mpr (lt_operatorPrecedence operator))
      obtain ⟨out, waiting, hrunl, heq, hle⟩ := hleft.leaves hnotl (hy.above_op2 hlevel)
      obtain rfl := Option.some.inj (hrunl.symm.trans hrun₁)
      rw [run_op2 hm hle habove] at hrest
      obtain ⟨out', hout', hdiverges⟩ := ihr hnotr
        ⟨TokenGroup.noConfusion, .inl (above_cons (pred_lt_operatorPrecedence operator))⟩ hrest
      refine ⟨e₁.postorder ++ out', ?_, (hdiverges.extend List.prefix_rfl (List.prefix_append _ _)).behind _⟩
      rw [← heq, ← List.append_assoc, ← List.append_assoc]
      exact hout'
    · obtain ⟨out, hout, hdiverges⟩ := ihl hnotl (hy.above_op2 hlevel) hrun₁
      exact Departs.later ⟨out, hout, hdiverges.extend List.prefix_rfl (List.prefix_append _ _)⟩ hrest

end

section

variable {level : ℕ} {ls : List Lexeme} {e : Tree} {y y' : Yard}

lemma Parses.last (h : Parses level ls e) : ∃ front l, ls = front ++ [l] ∧ groupAfter l.type = .operand := by
  induction h with
  | @operand level l token hcreate htoken =>
    refine ⟨[], l, rfl, ?_⟩
    rw [← createToken_type hcreate]
    cases token <;> first | rfl | cases htoken
  | @paren level l r ls e hl hr inner ih => exact ⟨l :: ls, r, rfl, by rw [hr]; rfl⟩
  | @not level l ls e hl hlevel arg ih =>
    obtain ⟨front, last, rfl, hlast⟩ := ih
    exact ⟨l :: front, last, rfl, hlast⟩
  | @op2 level m left right operator e₁ e₂ hm hlevel hleft hright ihl ihr =>
    obtain ⟨front, last, rfl, hlast⟩ := ihr
    exact ⟨left ++ m :: front, last, by rw [List.append_assoc, List.cons_append], hlast⟩

theorem Parses.noCall (h : Parses level ls e) : NoCall ls := by
  induction h with
  | operand => exact List.isChain_singleton _
  | @paren level l r ls e hl hr inner ih =>
    refine List.isChain_cons.mpr ⟨fun l' _ hcall => ?_, List.isChain_append.mpr ⟨ih, List.isChain_singleton _, ?_⟩⟩
    · rw [hl] at hcall
      cases hcall.1
    · intro a _ b hb hcall
      cases hb
      rw [hr] at hcall
      cases hcall.2
  | @not level l ls e hl hlevel arg ih =>
    refine List.isChain_cons.mpr ⟨fun l' _ hcall => ?_, ih⟩
    rw [hl] at hcall
    cases hcall.1
  | @op2 level m left right operator e₁ e₂ hm hlevel hleft hright ihl ihr =>
    refine List.isChain_append.mpr ⟨ihl, List.isChain_cons.mpr ⟨fun l' _ hcall => ?_, ihr⟩, fun a _ b hb hcall => ?_⟩
    · rw [hm] at hcall
      cases hcall.1
    · cases hb
      rw [hm] at hcall
      cases hcall.2

structure Reads (level : ℕ) (y : Yard) (ls : List Lexeme) (y' : Yard) (u rest : List Lexeme) (e : Tree) (y₁ : Yard) : Prop where
  split : ls = u ++ rest
  parses : Parses level u e
  run : y.run u = some y₁
  rest : y₁.run rest = some y'
  prevGroup : y₁.prevGroup = .operand
  nesting : y₁.nesting = y.nesting

lemma Reads.next {u rest : List Lexeme} {m : Lexeme} {y₁ : Yard} (h : Reads level y ls y' u (m :: rest) e y₁)
    (hcall : NoCall ls) : (∃ operator, m.type = .op2 operator) ∨ m.type = .parenRight := by
  obtain ⟨front, l, rfl, hl⟩ := h.parses.last
  obtain ⟨y₂, hpush, -⟩ := run_cons_eq_some.mp h.rest
  rcases htype : m.type with _ | _ | _ | _ | _ | _ | operator | _
  case op2 => exact .inl ⟨operator, rfl⟩
  case parenRight => exact .inr rfl
  case parenLeft =>
    rw [h.split, NoCall, List.append_assoc, List.singleton_append, List.isChain_append_cons_cons] at hcall
    exact absurd ⟨hl, htype⟩ hcall.2.1
  case opNot =>
    rw [push_not htype, if_pos h.prevGroup] at hpush
    cases hpush
  all_goals
    rw [push_operand (by rw [htype]; rfl), if_pos h.prevGroup] at hpush
    cases hpush

structure Started (turns : ℕ) (y : Yard) (ls : List Lexeme) (y' : Yard) : Prop where
  length : ls.length ≤ turns
  prevGroup : y.prevGroup ≠ .operand
  run : y.run ls = some y'
  ends : y'.prevGroup = .operand
  nesting : y'.nesting ≤ y.nesting
  noCall : NoCall ls

def ReadsUnary (turns : ℕ) : Prop :=
  ∀ {y ls y'}, Started turns y ls y' → ∃ u rest e y₁, Reads (tokenPrecedence .opNot) y ls y' u rest e y₁

def ReadsExpression (turns : ℕ) : Prop :=
  ∀ {y ls y'}, Started turns y ls y' → ∃ u rest e y₁, Reads (operatorPrecedence .or) y ls y' u rest e y₁ ∧
    ∀ l ∈ rest.head?, l.type = .parenRight

lemma Started.tail {turns : ℕ} {l : Lexeme} {y₁ : Yard} (h : Started (turns + 1) y (l :: ls) y')
    (hrun : y₁.run ls = some y') (hprev : y₁.prevGroup ≠ .operand) (hnesting : y.nesting ≤ y₁.nesting) :
    Started turns y₁ ls y' :=
  ⟨Nat.le_of_succ_le_succ h.length, hprev, hrun, h.ends, h.nesting.trans hnesting, (List.isChain_cons.mp h.noCall).2⟩

lemma reads_operand {turns : ℕ} {l : Lexeme} (h : Started turns y (l :: ls) y') (htype : tokenGroup l.type = .operand) :
    ∃ u rest e y₁, Reads level y (l :: ls) y' u rest e y₁ := by
  obtain ⟨y₁, hpush, hrun⟩ := run_cons_eq_some.mp h.run
  have heffect := push_effect hpush
  have hgroup : groupAfter l.type = .operand := by
    rcases htype' : l.type with _ | _ | _ | _ | _ | _ | _ | _ <;> rw [htype'] at htype <;> first | rfl | cases htype
  have hnesting : nestingAfter y.nesting l.type = y.nesting := by
    rcases htype' : l.type with _ | _ | _ | _ | _ | _ | _ | _ <;> rw [htype'] at htype <;> first | rfl | cases htype
  have hsome := hpush
  rw [push_operand htype, if_neg h.prevGroup] at hsome
  obtain ⟨token, hcreate, -⟩ := Option.map_eq_some_iff.mp hsome
  obtain ⟨t, rfl, ht⟩ := createToken_operand htype hcreate
  exact ⟨[l], ls, .operand t ht, y₁, rfl, .operand hcreate ht, run_cons_eq_some.mpr ⟨y₁, hpush, run_nil⟩, hrun,
    heffect.2.1.trans hgroup, heffect.2.2.trans hnesting⟩

lemma reads_unary {turns : ℕ} (hunary : ReadsUnary turns) (hexpression : ReadsExpression turns) : ReadsUnary (turns + 1) := by
  intro y ls y' h
  cases ls with
  | nil =>
    cases h.run
    exact absurd h.ends h.prevGroup
  | cons l ls =>
    obtain ⟨y₁, hpush, hrun⟩ := run_cons_eq_some.mp h.run
    have heffect := push_effect hpush
    rcases htype : l.type with _ | _ | _ | _ | _ | _ | operator | _
    case parenLeft =>
      rw [htype] at heffect
      obtain ⟨u, rest, e, y₂, hreads, hclose⟩ := hexpression (h.tail hrun (by rw [heffect.2.1]; exact TokenGroup.noConfusion)
        (heffect.2.2 ▸ Nat.le_succ _))
      cases rest with
      | nil =>
        cases hreads.rest
        have hle := h.nesting
        rw [hreads.nesting, heffect.2.2] at hle
        exact absurd hle (Nat.not_succ_le_self _)
      | cons r rest =>
        have hr := hclose r rfl
        obtain ⟨y₃, hpushr, hrest⟩ := run_cons_eq_some.mp hreads.rest
        have heffect' := push_effect hpushr
        rw [hr] at heffect'
        refine ⟨l :: (u ++ [r]), rest, e, y₃, ?_, .paren htype hr hreads.parses, ?_, hrest, heffect'.2.1, ?_⟩
        · rw [hreads.split, List.cons_append, List.append_assoc, List.singleton_append]
        · rw [run_cons, hpush, Option.bind_some, run_append, hreads.run, Option.bind_some, run_cons, hpushr]
          rfl
        · rw [heffect'.2.2, hreads.nesting, heffect.2.2]
          rfl
    case opNot =>
      rw [htype] at heffect
      obtain ⟨u, rest, e, y₂, hreads⟩ := hunary (h.tail hrun (by rw [heffect.2.1]; exact TokenGroup.noConfusion)
        heffect.2.2.ge)
      refine ⟨l :: u, rest, .not e, y₂, by rw [hreads.split, List.cons_append], .not htype le_rfl hreads.parses,
        run_cons_eq_some.mpr ⟨y₁, hpush, hreads.run⟩, hreads.rest, hreads.prevGroup, hreads.nesting.trans heffect.2.2⟩
    case op2 =>
      rw [push_op2 htype, if_pos h.prevGroup] at hpush
      cases hpush
    case parenRight =>
      rw [push_parenRight htype, if_pos h.prevGroup] at hpush
      cases hpush
    all_goals exact reads_operand h (by rw [htype]; rfl)

lemma Reads.extend {turns : ℕ} (hunary : ReadsUnary turns) (hends : y'.prevGroup = .operand) (hnesting : y'.nesting ≤ y.nesting)
    (hcall : NoCall ls) {u rest : List Lexeme} {y₁ : Yard} (hlength : rest.length ≤ turns)
    (h : Reads (operatorPrecedence .or) y ls y' u rest e y₁) :
    ∃ u rest e y₁, Reads (operatorPrecedence .or) y ls y' u rest e y₁ ∧ ∀ l ∈ rest.head?, l.type = .parenRight := by
  induction hn : rest.length using Nat.strong_induction_on generalizing u rest e y₁ with
  | _ n ih =>
    cases rest with
    | nil => exact ⟨u, [], e, y₁, h, fun l hl => by cases hl⟩
    | cons m rest =>
      rcases h.next hcall with ⟨operator, hm⟩ | hm
      · obtain ⟨y₂, hpush, hrun⟩ := run_cons_eq_some.mp h.rest
        have heffect := push_effect hpush
        rw [hm] at heffect
        have hsplit := h.split
        obtain ⟨u', rest', e₂, y₃, h₂⟩ := hunary (y := y₂) ⟨(Nat.le_succ _).trans hlength,
          by rw [heffect.2.1]; exact TokenGroup.noConfusion, hrun, hends,
          by rw [heffect.2.2]; exact hnesting.trans h.nesting.ge,
          (List.isChain_cons.mp (hsplit ▸ hcall).right_of_append).2⟩
        obtain ⟨e', he'⟩ := h.parses.extend hm (operatorPrecedence_le operator) h₂.parses
        have hshorter : rest'.length < n := by
          have hlen := congrArg List.length h₂.split
          rw [List.length_append] at hlen
          rw [← hn, List.length_cons]
          omega
        refine ih _ hshorter ((Nat.le_of_lt (hn ▸ hshorter)).trans hlength) ⟨?_, he', ?_, h₂.rest, h₂.prevGroup, ?_⟩ rfl
        · rw [hsplit, h₂.split, List.append_assoc, List.cons_append]
        · rw [run_append, h.run, Option.bind_some, run_cons, hpush, Option.bind_some, h₂.run]
        · rw [h₂.nesting, heffect.2.2]
          exact h.nesting
      · exact ⟨u, m :: rest, e, y₁, h, fun l hl => by cases hl; exact hm⟩

lemma reads_expression {turns : ℕ} (hunary : ReadsUnary turns) : ReadsExpression turns := by
  intro y ls y' h
  obtain ⟨u, rest, e, y₁, hreads⟩ := hunary h
  have hlength : rest.length ≤ turns := by
    have hlen := congrArg List.length hreads.split
    rw [List.length_append] at hlen
    have := h.length
    omega
  exact Reads.extend hunary h.ends h.nesting h.noCall hlength
    ⟨hreads.split, hreads.parses.mono (lt_operatorPrecedence .or).le, hreads.run, hreads.rest, hreads.prevGroup, hreads.nesting⟩

theorem reads (turns : ℕ) : ReadsUnary turns := by
  induction turns with
  | zero =>
    intro y ls y' h
    obtain rfl := List.eq_nil_of_length_eq_zero (Nat.le_zero.mp h.length)
    cases h.run
    exact absurd h.ends h.prevGroup
  | succ turns ih => exact reads_unary ih (reads_expression ih)

end

section

variable {D : Type} {P : Platform D} {ls : List Lexeme} {e : Tree} {tokens : List Token}

structure Finishes (y : Yard) (ls : List Lexeme) (tokens : List Token) (y' : Yard) (waiting : List Token) : Prop where
  run : y.run ls = some y'
  prevGroup : y'.prevGroup = .operand
  nesting : y'.nesting = 1
  waits : popAll y'.operators = some waiting
  result : tokens = y'.output ++ waiting

lemma parseExpressionLoop_finishes {turns : ℕ} {text next : List Char} {y : Yard}
    (h : parseExpressionLoop P turns text y = some (tokens, next)) :
    ∃ ls y' waiting, lexemesLoop P turns text y.prevGroup y.nesting = some (ls, next) ∧ Finishes y ls tokens y' waiting := by
  induction turns generalizing text y with
  | zero => cases h
  | succ turns ih =>
    rw [parseExpressionLoop] at h
    obtain ⟨⟨type, lexeme, after⟩, htoken, h⟩ := Option.bind_eq_some_iff.mp h
    rw [lexemesLoop, htoken]
    dsimp only at h
    by_cases hlast : type = .parenRight ∧ y.prevGroup = .operand ∧ y.nesting = 1
    · rw [if_pos hlast] at h
      obtain ⟨waiting, hwaiting, heq⟩ := Option.bind_eq_some_iff.mp h
      cases heq
      exact ⟨[], y, waiting, if_pos ⟨hlast.1, hlast.2.2⟩, rfl, hlast.2.1, hlast.2.2, hwaiting, rfl⟩
    · rw [if_neg hlast] at h
      obtain ⟨y₁, hpush, hloop⟩ := Option.bind_eq_some_iff.mp h
      have heffect := @push_effect y y₁ ⟨type, lexeme⟩ hpush
      obtain ⟨ls, y', waiting, hls, hfin⟩ := ih hloop
      have hopen : ¬ (type = .parenRight ∧ y.nesting = 1) := by
        rintro ⟨rfl, hnesting⟩
        have hprev : y.prevGroup ≠ .operand := fun hprev => hlast ⟨rfl, hprev, hnesting⟩
        have hnone := (@push_parenRight y ⟨.parenRight, lexeme⟩ rfl).trans (if_pos hprev)
        rw [hnone] at hpush
        cases hpush
      refine ⟨⟨type, lexeme⟩ :: ls, y', waiting, ?_, run_cons_eq_some.mpr ⟨y₁, hpush, hfin.run⟩, hfin.prevGroup, hfin.nesting,
        hfin.waits, hfin.result⟩
      rw [heffect.2.1, heffect.2.2] at hls
      exact (if_neg hopen).trans (by rw [hls]; rfl)

def Yard.start : Yard := ⟨[], [], .none, 1⟩

lemma mayFollow_start (level : ℕ) (ls : List Lexeme) : MayFollow .start level ls :=
  ⟨TokenGroup.noConfusion, .inl fun _ h => by cases h⟩

lemma popParen_map (moved : List Token) : popParen (moved.map some) = none := by
  induction moved with
  | nil => rfl
  | cons token moved ih => rw [List.map_cons, popParen, ih]; rfl

variable {y' : Yard} {waiting : List Token}

lemma Finishes.tokens_eq (h : Finishes .start ls tokens y' waiting) (hnot : NoRepeatedNot ls)
    (hparses : Parses (operatorPrecedence .or) ls e) : tokens = e.postorder := by
  obtain ⟨out, waiting', hrun, heq, -⟩ := hparses.leaves hnot (mayFollow_start _ _)
  obtain rfl := Option.some.inj (hrun.symm.trans h.run)
  have hwaiting := h.waits
  rw [show Yard.start.operators = [] from rfl, List.append_nil, popAll_map] at hwaiting
  rw [h.result, ← Option.some.inj hwaiting, ← heq]
  rfl

lemma Finishes.tokens_ne (h : Finishes .start ls tokens y' waiting) (hnot : ¬ NoRepeatedNot ls)
    (hparses : Parses (operatorPrecedence .or) ls e) : tokens ≠ e.postorder := by
  obtain ⟨out, hout, hdiverges⟩ := hparses.departs hnot (mayFollow_start _ _) h.run
  rw [h.result]
  exact (hdiverges.extend (hout.trans (List.prefix_append _ _)) List.prefix_rfl).ne

lemma Finishes.parses (h : Finishes .start ls tokens y' waiting) (hnot : NoRepeatedNot ls) (hcall : NoCall ls) :
    ∃ e, Parses (operatorPrecedence .or) ls e := by
  obtain ⟨u, rest, e, y₁, hreads, hclose⟩ := reads_expression (reads ls.length)
    ⟨le_rfl, TokenGroup.noConfusion, h.run, h.prevGroup, h.nesting.le, hcall⟩
  cases rest with
  | nil => exact ⟨e, by rw [hreads.split, List.append_nil]; exact hreads.parses⟩
  | cons r rest =>
    -- nothing is open for a further right parenthesis
    have hnotu : NoRepeatedNot u := (hreads.split ▸ hnot).left_of_append
    obtain ⟨out, moved, hrun, -⟩ := hreads.parses.leaves hnotu (mayFollow_start _ _)
    obtain rfl := Option.some.inj (hrun.symm.trans hreads.run)
    have hrest := hreads.rest
    rw [run_cons, push_parenRight (hclose r rfl), if_neg (not_not.mpr rfl), show Yard.start.operators = [] from rfl,
      List.append_nil, popParen_map] at hrest
    cases hrest

lemma Finishes.compilesRight_iff (P : Platform D) (h : Finishes .start ls tokens y' waiting) :
    CompilesRight P ls tokens ↔ NoRepeatedNot ls ∧ NoCall ls := by
  constructor
  · rintro ⟨⟨e, hparse, htokens⟩, -⟩
    have hparses := (hparse e).mpr rfl
    exact ⟨not_not.mp fun hnot => h.tokens_ne hnot hparses htokens, hparses.noCall⟩
  · rintro ⟨hnot, hcall⟩
    obtain ⟨e, hparses⟩ := h.parses hnot hcall
    have htokens := h.tokens_eq hnot hparses
    refine ⟨⟨e, fun e' => ⟨fun hparses' => ?_, fun heq => heq ▸ hparses⟩, htokens⟩, fun root obj => ?_⟩
    · exact Tree.postorder_injective ((h.tokens_eq hnot hparses').symm.trans htokens)
    · rw [htokens, ← List.append_nil e.postorder]
      exact evalTokens_postorder P root obj e [] []

theorem expression_postorder_iff (P : Platform D) {definite : Bool} {text next : List Char} {expression : Expression}
    (h : parseExpression P definite text = some (expression, next)) :
    ∃ ls, lexemes P text = some (ls, next) ∧
      (CompilesRight P ls expression.tokens ↔ NoRepeatedNot ls ∧ NoCall ls) := by
  unfold parseExpression at h
  split at h
  · obtain ⟨⟨tokens, next'⟩, hloop, heq⟩ := Option.bind_eq_some_iff.mp h
    cases heq
    obtain ⟨ls, y', waiting, hls, hfin⟩ := parseExpressionLoop_finishes hloop
    exact ⟨ls, hls, hfin.compilesRight_iff P⟩
  · cases h

end

section

def wholePlatform : Platform ℤ where
  toDoubles := Preproc.wholeNumbers.toDoubles
  printDouble := fun x => (Int.repr x).toList
  regexpMatch := fun _ _ => none
  strtod := fun _ => none
  near_zero := rfl

theorem negated_comparison_compiles :
    ∃ ls, lexemes wholePlatform "(!('a'=='b'))".toList = some (ls, []) ∧
      CompilesRight wholePlatform ls [.constStr ['a'], .constStr ['b'], .op2 .eq, .opNot] := by
  obtain ⟨ls, hls, hiff⟩ := @expression_postorder_iff ℤ wholePlatform false "(!('a'=='b'))".toList []
    ⟨[.constStr ['a'], .constStr ['b'], .op2 .eq, .opNot], none⟩ (by decide +kernel)
  refine ⟨ls, hls, hiff.mpr ?_⟩
  have heq : lexemes wholePlatform "(!('a'=='b'))".toList = some ([⟨.opNot, ['!']⟩, ⟨.parenLeft, ['(']⟩,
    ⟨.constStr, "'a'".toList⟩, ⟨.op2 .eq, "==".toList⟩, ⟨.constStr, "'b'".toList⟩, ⟨.parenRight, [')']⟩], []) := by
    decide +kernel
  cases hls.symm.trans heq
  exact ⟨by unfold NoRepeatedNot; decide, by unfold NoCall; decide⟩

theorem repeated_not_invalid :
    parseExpression wholePlatform false "(!!'a')".toList = some (⟨[.opNot, .constStr ['a'], .opNot], none⟩, []) ∧
      ∀ ls, ¬ CompilesRight wholePlatform ls [.opNot, .constStr ['a'], .opNot] := by
  refine ⟨by decide +kernel, ?_⟩
  rintro ls ⟨-, hevaluates⟩
  rcases hevaluates .null .null with h | h | ⟨value, h⟩ <;> cases h

end

end Glaber.Jsonpath
