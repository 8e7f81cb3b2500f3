import Glaber.Eval.ParseTokens
import Glaber.Lib.Results

namespace Glaber.Eval

open Lib.Results (ok_of_bind)

variable {D : Type} {S : Scanners} {p q : Parser D} {token op : Token D} {ops : List (Token D)} {pos : ℕ}

section

def operatorTypes : List TokenType := unaryTypes ++ binaryTypes

def waitingTypes : List TokenType := tokenGroupOpen :: tokenFunction :: operatorTypes

def Operators (ops : List (Token D)) : Prop := ∀ op ∈ ops, op.type ∈ operatorTypes

def Shape : List (Token D) → Prop
  | [] => True
  | op :: ops => op.type ∈ waitingTypes ∧
      (op.type ≠ tokenGroupOpen → ∀ below ∈ ops.head?, below.type ≠ tokenFunction) ∧ Shape ops

lemma operatorTypes_classes : ∀ type ∈ operatorTypes,
    has type classFunction = false ∧ type ≠ tokenGroupOpen ∧ type ≠ tokenFunction := by
  decide

lemma evalAppendOperator_operator (hrules : PlainRules p.rules) (ht : op.type ∈ operatorTypes) :
    evalAppendOperator p op = .ok { p with stack := p.stack ++ [op] } := by
  have hproperty : p.allowed parseProperty = false := hrules.property
  rw [evalAppendOperator, countParams, (operatorTypes_classes op.type ht).1, if_neg Bool.false_ne_true, checkProperty,
    hproperty, if_neg Bool.false_ne_true]
  rfl

lemma evalAppendOperator_function (hrules : PlainRules p.rules) :
    evalAppendOperator p op = .ok { p with stack := p.stack ++ [countParams p op] } := by
  have hproperty : p.allowed parseProperty = false := hrules.property
  rw [evalAppendOperator, checkProperty, hproperty, if_neg Bool.false_ne_true]
  rfl

def StopsAt (rest : List (Token D)) : Prop := rest = [] ∨ ∃ group below, rest = group :: below ∧ group.type = tokenGroupOpen

lemma Shape.operator (hs : Shape (op :: ops)) (htop : op.type ≠ tokenFunction) (hg : op.type ≠ tokenGroupOpen) :
    op.type ∈ operatorTypes := by
  rcases List.mem_cons.mp hs.1 with h | h
  · exact absurd h hg
  · exact (List.mem_cons.mp h).resolve_left htop

lemma popGroup_spec (hrules : PlainRules p.rules) (hs : Shape ops) (htop : ∀ top ∈ ops.head?, top.type ≠ tokenFunction) :
    ∃ moved rest, ops = moved ++ rest ∧ Operators moved ∧ StopsAt rest ∧
      popGroup ops p = .ok { p with ops := rest, stack := p.stack ++ moved } := by
  induction ops generalizing p with
  | nil => exact ⟨[], [], rfl, by simp [Operators], .inl rfl, by rw [popGroup, List.append_nil]⟩
  | cons op ops ih =>
    by_cases hg : op.type = tokenGroupOpen
    · exact ⟨[], op :: ops, rfl, by simp [Operators], .inr ⟨op, ops, rfl, hg⟩, by
        rw [popGroup, if_pos hg, List.append_nil]⟩
    · have hop := hs.operator (htop op rfl) hg
      obtain ⟨moved, rest, rfl, hmoved, hrest, hpop⟩ :=
        ih (p := { p with stack := p.stack ++ [op] }) hrules hs.2.2 (hs.2.1 hg)
      refine ⟨op :: moved, rest, rfl, ?_, hrest, ?_⟩
      · intro t ht
        rcases List.mem_cons.mp ht with rfl | ht
        · exact hop
        · exact hmoved t ht
      · rw [popGroup, if_neg hg, evalAppendOperator_operator hrules hop]
        refine Eq.trans hpop ?_
        rw [List.append_assoc, List.singleton_append]

def priority (type : TokenType) : TokenType := type &&& opPriority

lemma popPrecedence_unary (h1 : has token.type classOperator1 = true) :
    popPrecedence token ops p = .ok { p with ops := ops } := by
  cases ops with
  | nil => rfl
  | cons op ops => rw [popPrecedence, if_pos (.inr h1)]

def BindsBelow (token : Token D) (rest : List (Token D)) : Prop :=
  StopsAt rest ∨ ∃ op below, rest = op :: below ∧ priority op.type > priority token.type

lemma popPrecedence_spec (hrules : PlainRules p.rules) (h1 : has token.type classOperator1 = false) (hs : Shape ops)
    (htop : ∀ top ∈ ops.head?, top.type ≠ tokenFunction) :
    ∃ moved rest, ops = moved ++ rest ∧ Operators moved ∧ (∀ op ∈ moved, priority op.type ≤ priority token.type) ∧
      BindsBelow token rest ∧
      popPrecedence token ops p = .ok { p with ops := rest, stack := p.stack ++ moved } := by
  induction ops generalizing p with
  | nil => exact ⟨[], [], rfl, by simp [Operators], by simp, .inl (.inl rfl), by rw [popPrecedence, List.append_nil]⟩
  | cons op ops ih =>
    by_cases hp : op.type &&& opPriority > token.type &&& opPriority
    · exact ⟨[], op :: ops, rfl, by simp [Operators], by simp, .inr ⟨op, ops, rfl, hp⟩, by
        rw [popPrecedence, if_pos (.inl hp), List.append_nil]⟩
    · have hno : ¬(op.type &&& opPriority > token.type &&& opPriority ∨ has token.type classOperator1 = true) := by
        rintro (h | h)
        · exact hp h
        · rw [h1] at h
          cases h
      by_cases hg : op.type = tokenGroupOpen
      · exact ⟨[], op :: ops, rfl, by simp [Operators], by simp, .inl (.inr ⟨op, ops, rfl, hg⟩), by
          rw [popPrecedence, if_neg hno, if_pos hg, List.append_nil]⟩
      · have hop := hs.operator (htop op rfl) hg
        obtain ⟨moved, rest, rfl, hmoved, hle, hrest, hpop⟩ :=
          ih (p := { p with stack := p.stack ++ [op] }) hrules hs.2.2 (hs.2.1 hg)
        refine ⟨op :: moved, rest, rfl, ?_, ?_, hrest, ?_⟩
        · intro t ht
          rcases List.mem_cons.mp ht with rfl | ht
          · exact hop
          · exact hmoved t ht
        · intro t ht
          rcases List.mem_cons.mp ht with rfl | ht
          · exact UInt32.not_lt.mp hp
          · exact hle t ht
        · rw [popPrecedence, if_neg hno, if_neg hg, evalAppendOperator_operator hrules hop]
          refine Eq.trans hpop ?_
          rw [List.append_assoc, List.singleton_append]

end

section

def nullToken : Token D := charToken tokenArgNull 0 0

def called (stack : List (Token D)) (func : Token D) : Token D :=
  { func with opt := UInt32.ofNat (((stack.drop func.opt.toNat).map contribution).sum % 2 ^ 32).toNat }

def completed (last : TokenType) (stack : List (Token D)) : List (Token D) :=
  if has last classSeparator then stack ++ [nullToken] else stack

inductive Moves (last : TokenType) (stack ops : List (Token D)) (token : Token D) : List (Token D) → List (Token D) → Prop
  | openGroup (ht : token.type = tokenGroupOpen) (hl : has last (beforeOperand ||| classFunction) = true) :
      Moves last stack ops token stack (token :: ops)
  | openCall (ht : token.type = tokenFunction) (hl : has last beforeOperand = true) :
      Moves last stack ops token stack (token :: ops)
  | comma {moved rest : List (Token D)} (ht : token.type = tokenComma)
      (hl : has last classOperand = true ∨ has last classSeparator = true) (hne : ops ≠ []) (hops : ops = moved ++ rest)
      (hmoved : Operators moved) (hrest : StopsAt rest) : Moves last stack ops token (completed last stack ++ moved) rest
  | closeStray (ht : token.type = tokenGroupClose) (hmoved : Operators ops) (more : List (Token D)) :
      Moves last stack ops token (stack ++ more) []
  | closeEmpty {group : Token D} (ht : token.type = tokenGroupClose) (hl : last = tokenGroupOpen)
      (hops : ops = [group]) (hg : group.type = tokenGroupOpen) : Moves last stack ops token stack []
  | closeEmptyCall {group func : Token D} {below : List (Token D)} (ht : token.type = tokenGroupClose)
      (hl : last = tokenGroupOpen) (hops : ops = group :: func :: below) (hg : group.type = tokenGroupOpen)
      (hf : func.type = tokenFunction) : Moves last stack ops token (stack ++ [called stack func]) below
  | closeGroup {moved below : List (Token D)} {group : Token D} (ht : token.type = tokenGroupClose)
      (hl : has last classOperand = true ∨ last = tokenComma) (hops : ops = moved ++ group :: below)
      (hmoved : Operators moved) (hg : group.type = tokenGroupOpen)
      (hbelow : ∀ top ∈ below.head?, top.type ≠ tokenFunction) :
      Moves last stack ops token (completed last stack ++ moved) below
  | closeCall {moved below : List (Token D)} {group func : Token D} (ht : token.type = tokenGroupClose)
      (hl : has last classOperand = true ∨ last = tokenComma) (hops : ops = moved ++ group :: func :: below)
      (hmoved : Operators moved) (hg : group.type = tokenGroupOpen) (hf : func.type = tokenFunction) :
      Moves last stack ops token
        (completed last stack ++ moved ++ [called (completed last stack ++ moved) func]) below
  | operand (ht : token.type ∈ operandTypes) (hl : has last beforeOperand = true) :
      Moves last stack ops token (stack ++ [token]) ops
  | unary (ht : token.type ∈ unaryTypes) (hl : has last beforeOperand = true) :
      Moves last stack ops token stack (token :: ops)
  | binary {moved rest : List (Token D)} (ht : token.type ∈ binaryTypes) (hl : has last beforeOperator = true)
      (hops : ops = moved ++ rest) (hmoved : Operators moved) (hle : ∀ op ∈ moved, priority op.type ≤ priority token.type)
      (hrest : BindsBelow token rest) : Moves last stack ops token (stack ++ moved) (token :: rest)

end

section

structure Consistent (p : Parser D) (pos : ℕ) : Prop where
  rules : PlainRules p.rules
  shape : Shape p.ops
  call : ∀ top ∈ p.ops.head?, top.type = tokenFunction → p.lastTokenType = tokenFunction ∧ p.char pos = '('
  last : p.lastTokenType = classSeparator ∧ p.ops = [] ∧ p.stack = [] ∨ p.lastTokenType ∈ textTypes
  top : p.lastTokenType ∈ waitingTypes → ∃ top below, p.ops = top :: below ∧ top.type = p.lastTokenType

structure Step (p : Parser D) (pos : ℕ) (token : Token D) (q : Parser D) : Prop where
  expression : q.expression = p.expression
  rules : q.rules = p.rules
  last : q.lastTokenType = token.type
  type : token.type ∈ textTypes
  function : token.type = tokenFunction → token.opt = UInt32.ofNat p.stack.length ∧ p.char (token.loc.r + 1) = '('
  progress : pos ≤ token.loc.r
  bound : token.loc.r ≤ 0x7fffffff
  moves : Moves p.lastTokenType p.stack p.ops token q.stack q.ops

lemma countParams_function (hf : op.type = tokenFunction) : countParams p op = called p.stack op := by
  have hclass : has op.type classFunction = true := by
    rw [hf]
    decide
  rw [countParams, if_pos hclass]
  rfl

lemma evalParseToken_paren (hc : p.char pos = '(') (h : evalParseToken S p pos = .ok (token, q)) :
    token.type = tokenGroupOpen := by
  have hskip : evalGetWhitespaceLen p pos = 0 := by
    rw [Parser.char, List.getD_eq_getElem?_getD, ← List.head?_drop] at hc
    rw [evalGetWhitespaceLen, Parser.rest]
    cases hd : p.expression.drop pos with
    | nil => rfl
    | cons c tail =>
      rw [hd] at hc
      rw [show c = '(' from hc]
      rfl
  rw [evalParseToken, hskip, Nat.add_zero, hc] at h
  simp only [evalParseAt, Char.reduceEq, if_false, if_true, evalParseSign] at h
  split_ifs at h
  cases h
  rfl

lemma checkToken_spec (h : checkToken p token pos = .ok q) : token.loc.r ≤ 0x7fffffff ∧
    q = if token.type = tokenGroupClose ∧ p.lastTokenType = tokenComma then evalAppendArgNull p else p := by
  rw [checkToken] at h
  split_ifs at h with hbound hquery hclose
  · cases h
    rw [if_pos hclose]
    exact ⟨not_lt.mp hbound, rfl⟩
  · cases h
    rw [if_neg hclose]
    exact ⟨not_lt.mp hbound, rfl⟩

structure Adds (p : Parser D) (token : Token D) (q : Parser D) : Prop where
  expression : q.expression = p.expression
  rules : q.rules = p.rules
  moves : Moves p.lastTokenType p.stack p.ops token q.stack q.ops

lemma openGroup_adds (ht : token.type = tokenGroupOpen) (h : openGroup p token pos = .ok q) : Adds p token q := by
  rw [openGroup] at h
  split_ifs at h with hl
  cases h
  exact ⟨rfl, rfl, .openGroup ht hl⟩

lemma openFunction_adds (ht : token.type = tokenFunction) (h : openFunction p token pos = .ok q) : Adds p token q := by
  rw [openFunction] at h
  split_ifs at h with hl
  cases h
  exact ⟨rfl, rfl, .openCall ht hl⟩

lemma evalAppendOperand_adds (hrules : PlainRules p.rules) (ht : token.type ∈ operandTypes)
    (h : evalAppendOperand p token = .ok q) : Adds p token q := by
  have hproperty : p.allowed parseProperty = false := hrules.property
  rw [evalAppendOperand, checkOperandProperty, hproperty, if_neg Bool.false_ne_true] at h
  split_ifs at h with hl
  cases h
  exact ⟨rfl, rfl, .operand ht ((Bool.not_eq_false _).mp hl)⟩

lemma unaryTypes_classes : ∀ type ∈ unaryTypes, has type classOperator2 = false ∧ has type classOperator1 = true := by
  decide

lemma binaryTypes_classes : ∀ type ∈ binaryTypes, has type classOperator2 = true ∧ has type classOperator1 = false := by
  decide

lemma addOperator_unary_adds (ht : token.type ∈ unaryTypes) (h : addOperator p token pos = .ok q) : Adds p token q := by
  obtain ⟨h2, h1⟩ := unaryTypes_classes token.type ht
  rw [addOperator, popPrecedence_unary h1] at h
  split_ifs at h with hbin hun
  cases h
  refine ⟨rfl, rfl, .unary ht ?_⟩
  rw [h1] at hun
  exact (Bool.not_eq_false _).mp fun hl => hun ⟨rfl, hl⟩

lemma addOperator_binary_adds (hrules : PlainRules p.rules) (hs : Shape p.ops)
    (htop : ∀ top ∈ p.ops.head?, top.type ≠ tokenFunction) (ht : token.type ∈ binaryTypes)
    (h : addOperator p token pos = .ok q) : Adds p token q := by
  obtain ⟨h2, h1⟩ := binaryTypes_classes token.type ht
  obtain ⟨moved, rest, hops, hmoved, hle, hrest, hpop⟩ := popPrecedence_spec hrules h1 hs htop
  rw [addOperator, hpop] at h
  split_ifs at h with hbin hun
  cases h
  refine ⟨rfl, rfl, .binary ht ?_ hops hmoved hle hrest⟩
  rw [h2] at hbin
  exact (Bool.not_eq_false _).mp fun hl => hbin ⟨rfl, hl⟩

lemma completed_of_separator (hl : p.lastIs classSeparator = true) :
    evalAppendArgNull p = { p with stack := completed p.lastTokenType p.stack } := by
  rw [completed, if_pos (show has p.lastTokenType classSeparator = true from hl)]
  rfl

lemma nextArgument_adds (hrules : PlainRules p.rules) (hs : Shape p.ops)
    (htop : ∀ top ∈ p.ops.head?, top.type ≠ tokenFunction) (ht : token.type = tokenComma)
    (h : nextArgument p pos = .ok q) : Adds p token q := by
  have hfill : (if p.lastIs classSeparator = true then evalAppendArgNull p else p) =
      { p with stack := completed p.lastTokenType p.stack } := by
    split_ifs with hl
    · exact completed_of_separator hl
    · rw [completed, if_neg (show ¬has p.lastTokenType classSeparator = true from hl)]
  obtain ⟨moved, rest, hops, hmoved, hrest, hpop⟩ :=
    popGroup_spec (p := { p with stack := completed p.lastTokenType p.stack }) hrules hs htop
  simp only [nextArgument, hfill] at h
  split_ifs at h with hlast hne
  cases hpop.symm.trans h
  refine ⟨rfl, rfl, .comma ht ?_ hne hops hmoved hrest⟩
  rw [not_and_or] at hlast
  exact hlast.imp (Bool.not_eq_false _).mp (Bool.not_eq_false _).mp

lemma textTypes_before_close : ∀ type ∈ textTypes, has type (classOperand ||| classProperty ||| classSeparator) = true →
    type ≠ tokenGroupOpen → has type classOperand = true ∨ type = tokenComma := by
  decide

lemma textTypes_others : ∀ type ∈ textTypes, has type (classOperand ||| classProperty ||| classSeparator) = false →
    type ∈ waitingTypes ∧ type ≠ tokenGroupOpen := by
  decide

lemma function_of_class : ∀ type ∈ waitingTypes, has type classFunction = true → type = tokenFunction := by
  decide

lemma Shape.of_append {moved rest : List (Token D)} (h : Shape (moved ++ rest)) : Shape rest := by
  induction moved with
  | nil => exact h
  | cons op moved ih => exact ih h.2.2

lemma Shape.tail (h : Shape ops) : Shape ops.tail := by
  cases ops with
  | nil => trivial
  | cons op ops => exact h.2.2

lemma Consistent.before_close (hc : Consistent p pos) (hne : p.ops ≠ [])
    (h : ¬(p.lastIs (classOperand ||| classProperty ||| classSeparator) = false ∧
      (p.ops[1]?.map fun op => op.type) ≠ some tokenFunction)) :
    p.lastTokenType = tokenGroupOpen ∨ has p.lastTokenType classOperand = true ∨ p.lastTokenType = tokenComma := by
  have htext : p.lastTokenType ∈ textTypes := hc.last.resolve_left fun hinit => hne hinit.2.1
  rw [or_iff_not_imp_left]
  intro hopen
  cases hclass : p.lastIs (classOperand ||| classProperty ||| classSeparator) with
  | true => exact textTypes_before_close _ htext hclass hopen
  | false =>
    -- a function or an operator on top of the stack has no function right below it
    obtain ⟨hwait, -⟩ := textTypes_others _ htext hclass
    obtain ⟨top, below, hops, htype⟩ := hc.top hwait
    refine absurd ⟨hclass, ?_⟩ h
    have hs := hc.shape
    rw [hops] at hs
    have hbelow := hs.2.1 (htype ▸ hopen)
    rw [hops, List.getElem?_cons_succ, ← List.head?_eq_getElem?]
    cases hh : below.head? with
    | none => exact nofun
    | some op => exact fun he => hbelow op hh (Option.some.inj he)

lemma completed_before_close (htext : p.lastTokenType ∈ textTypes)
    (hl : has p.lastTokenType classOperand = true ∨ p.lastTokenType = tokenComma) :
    (if p.lastTokenType = tokenComma then evalAppendArgNull p else p) =
      { p with stack := completed p.lastTokenType p.stack } := by
  have hclass : ∀ type ∈ textTypes, has type classOperand = true → type ≠ tokenComma ∧ has type classSeparator = false := by
    decide
  rcases hl with hl | hl
  · obtain ⟨hcomma, hsep⟩ := hclass _ htext hl
    rw [if_neg hcomma, completed, hsep, if_neg Bool.false_ne_true]
  · rw [if_pos hl]
    apply completed_of_separator
    rw [Parser.lastIs, hl]
    decide

lemma closeCall_spec (hrules : PlainRules p.rules) (hs : Shape p.ops) (h : closeCall p pos = .ok q) :
    (∃ func below, p.ops = func :: below ∧ func.type = tokenFunction ∧
      q = { p with stack := p.stack ++ [called p.stack func], ops := below }) ∨
    ((∀ top ∈ p.ops.head?, top.type ≠ tokenFunction) ∧ (p.lastTokenType = tokenGroupOpen → p.ops = []) ∧ q = p) := by
  rw [closeCall] at h
  split at h
  · rename_i hops
    cases h
    rw [hops]
    exact .inr ⟨nofun, fun _ => rfl, rfl⟩
  · rename_i func below hops
    rw [hops] at hs
    split_ifs at h with hf hl
    · have htype := function_of_class _ hs.1 hf
      rw [evalAppendOperator_function hrules, countParams_function htype] at h
      cases h
      exact .inl ⟨func, below, hops, htype, rfl⟩
    · cases h
      right
      rw [hops]
      refine ⟨?_, fun he => absurd he hl, rfl⟩
      rintro top ⟨⟩ he
      rw [he] at hf
      exact hf (by decide)

lemma Operators.eq_nil {moved rest : List (Token D)} (hm : Operators moved) (hops : moved ++ rest = op :: ops)
    (hg : op.type = tokenGroupOpen) : moved = [] := by
  cases moved with
  | nil => rfl
  | cons first moved =>
    cases (List.cons.inj hops).1
    exact absurd hg (operatorTypes_classes _ (hm _ List.mem_cons_self)).2.1

lemma closeGroup_adds (hc : Consistent p pos) (htop : ∀ top ∈ p.ops.head?, top.type ≠ tokenFunction)
    (ht : token.type = tokenGroupClose)
    (h : closeGroup (if p.lastTokenType = tokenComma then evalAppendArgNull p else p) pos = .ok q) : Adds p token q := by
  set filled := if p.lastTokenType = tokenComma then evalAppendArgNull p else p with hfilled
  have hsame : filled.expression = p.expression ∧ filled.rules = p.rules ∧ filled.lastTokenType = p.lastTokenType ∧
      filled.ops = p.ops ∧ ∃ more, filled.stack = p.stack ++ more := by
    rw [hfilled]
    split_ifs
    · exact ⟨rfl, rfl, rfl, rfl, [nullToken], rfl⟩
    · exact ⟨rfl, rfl, rfl, rfl, [], (List.append_nil _).symm⟩
  obtain ⟨hexp, hrul, hlast, hops, more, hmore⟩ := hsame
  have hrules : PlainRules filled.rules := hrul ▸ hc.rules
  obtain ⟨moved, rest, hsplit, hmoved, hrest, hpop⟩ := popGroup_spec (p := filled) hrules hc.shape htop
  have hshape : Shape rest := (hsplit ▸ hc.shape).of_append
  rw [closeGroup, hops, hpop] at h
  split_ifs at h with hbefore hne
  rw [Parser.lastIs, hlast] at hbefore
  change closeCall { filled with stack := filled.stack ++ moved, ops := rest.tail } pos = .ok q at h
  have hclose := closeCall_spec (p := { filled with stack := filled.stack ++ moved, ops := rest.tail }) hrules
    hshape.tail h
  simp only at hclose
  rcases hrest with rfl | ⟨group, below, rfl, hg⟩
  · -- the stack of operators holds no open group
    rcases hclose with ⟨func, below, hnil, -⟩ | ⟨-, -, rfl⟩
    · cases hnil
    rw [List.append_nil] at hsplit
    refine ⟨hexp, hrul, ?_⟩
    simp only [hmore, List.append_assoc]
    exact .closeStray ht (hsplit ▸ hmoved) (more ++ moved)
  rcases hc.before_close hne hbefore with hopen | hl
  · obtain ⟨top, under, htops, htype⟩ := hc.top (by rw [hopen]; decide)
    obtain rfl := hmoved.eq_nil (hsplit.symm.trans htops) (htype.trans hopen)
    have hp : filled = p := by
      rw [hfilled, if_neg]
      rw [hopen]
      decide
    rw [hp, List.append_nil] at hclose
    rcases hclose with ⟨func, below', hbelow, hf, rfl⟩ | ⟨-, hempty, rfl⟩
    · rw [List.tail_cons] at hbelow
      rw [hbelow] at hsplit
      exact ⟨rfl, rfl, .closeEmptyCall ht hopen hsplit hg hf⟩
    · have hbelow : below = [] := hempty hopen
      rw [hbelow] at hsplit ⊢
      exact ⟨rfl, rfl, .closeEmpty ht hopen hsplit hg⟩
  · have htext : p.lastTokenType ∈ textTypes := hc.last.resolve_left fun hinit => hne hinit.2.1
    rw [hfilled, completed_before_close htext hl] at hclose
    rcases hclose with ⟨func, below', hbelow, hf, rfl⟩ | ⟨hbelow, -, rfl⟩
    · rw [List.tail_cons] at hbelow
      rw [hbelow] at hsplit
      exact ⟨rfl, rfl, .closeCall ht hl hsplit hmoved hg hf⟩
    · exact ⟨rfl, rfl, .closeGroup ht hl hsplit hmoved hg hbelow⟩

lemma textTypes_kinds {type : TokenType} (h : type ∈ textTypes) : type = tokenGroupOpen ∨ type = tokenGroupClose ∨
    type = tokenComma ∨ type = tokenFunction ∨ type ∈ operandTypes ∨ type ∈ unaryTypes ∨ type ∈ binaryTypes := by
  simpa only [textTypes, List.mem_append, List.mem_cons, List.not_mem_nil, or_false, or_assoc] using h

lemma operandTypes_classes : ∀ type ∈ operandTypes, type ≠ tokenGroupOpen ∧ has type classFunction = false ∧
    type ≠ tokenComma ∧ type ≠ tokenGroupClose ∧ has type (classOperand ||| classProperty) = true := by
  decide

lemma operatorTypes_addToken : ∀ type ∈ operatorTypes, type ≠ tokenGroupOpen ∧ has type classFunction = false ∧
    type ≠ tokenComma ∧ type ≠ tokenGroupClose ∧ has type (classOperand ||| classProperty) = false ∧
    has type classOperator = true := by
  decide

lemma addToken_operator (ht : token.type ∈ operatorTypes) : addToken p token pos = addOperator p token pos := by
  obtain ⟨hopen, hfunc, hcomma, hclose, hoperand, hoperator⟩ := operatorTypes_addToken _ ht
  rw [addToken, if_neg hopen, hfunc, if_neg Bool.false_ne_true, if_neg hcomma, if_neg hclose, hoperand,
    if_neg Bool.false_ne_true, if_pos hoperator]

lemma addToken_operand (ht : token.type ∈ operandTypes) : addToken p token pos = evalAppendOperand p token := by
  obtain ⟨hopen, hfunc, hcomma, hclose, hoperand⟩ := operandTypes_classes _ ht
  rw [addToken, if_neg hopen, hfunc, if_neg Bool.false_ne_true, if_neg hcomma, if_neg hclose, if_pos hoperand]

lemma addToken_adds (hc : Consistent p pos) (ht : token.type ∈ textTypes)
    (htop : token.type ≠ tokenGroupOpen → ∀ top ∈ p.ops.head?, top.type ≠ tokenFunction)
    (h : addToken (if token.type = tokenGroupClose ∧ p.lastTokenType = tokenComma then evalAppendArgNull p else p) token
      pos = .ok q) : Adds p token q := by
  have hplain : token.type ≠ tokenGroupClose → addToken p token pos = .ok q := by
    intro hne
    rwa [if_neg fun hand => hne hand.1] at h
  rcases textTypes_kinds ht with htype | htype | htype | htype | htype | htype | htype
  · have hadd := hplain (by rw [htype]; decide)
    rw [addToken, if_pos htype] at hadd
    exact openGroup_adds htype hadd
  · rw [htype] at htop
    simp only [htype, true_and] at h
    rw [addToken, htype, if_neg (by decide), if_neg (by decide), if_neg (by decide), if_pos rfl] at h
    exact closeGroup_adds hc (htop (by decide)) htype h
  · have hadd := hplain (by rw [htype]; decide)
    rw [addToken, htype, if_neg (by decide), if_neg (by decide), if_pos rfl] at hadd
    exact nextArgument_adds hc.rules hc.shape (htop (by rw [htype]; decide)) htype hadd
  · have hadd := hplain (by rw [htype]; decide)
    rw [addToken, htype, if_neg (by decide), if_pos (by decide)] at hadd
    exact openFunction_adds htype hadd
  · have hadd := hplain (operandTypes_classes _ htype).2.2.2.1
    rw [addToken_operand htype] at hadd
    exact evalAppendOperand_adds hc.rules htype hadd
  · have hop : token.type ∈ operatorTypes := List.mem_append_left _ htype
    have hadd := hplain (operatorTypes_addToken _ hop).2.2.2.1
    rw [addToken_operator hop] at hadd
    exact addOperator_unary_adds htype hadd
  · have hop : token.type ∈ operatorTypes := List.mem_append_right _ htype
    have hadd := hplain (operatorTypes_addToken _ hop).2.2.2.1
    rw [addToken_operator hop] at hadd
    exact addOperator_binary_adds hc.rules hc.shape (htop (operatorTypes_addToken _ hop).1) htype hadd

lemma Consistent.read (hc : Consistent p pos) (hr : Reads p pos token q) : Consistent q pos := by
  have hchar : q.char pos = p.char pos := by rw [Parser.char, Parser.char, hr.expression]
  refine ⟨hr.rules ▸ hc.rules, hr.ops ▸ hc.shape, ?_, ?_, ?_⟩
  · rw [hr.ops, hr.last, hchar]
    exact hc.call
  · rw [hr.last, hr.ops, hr.stack]
    exact hc.last
  · rw [hr.last, hr.ops]
    exact hc.top

lemma parseStep_step (hc : Consistent p pos) (h : parseStep S p pos = .ok (some (token, q))) : Step p pos token q := by
  rw [parseStep] at h
  split_ifs at h with hend
  · cases h
  obtain ⟨⟨first, r⟩, hread, h⟩ := ok_of_bind h
  simp only at h
  split_ifs at h with hnop
  · cases h
  obtain ⟨checked, hcheck, h⟩ := ok_of_bind h
  obtain ⟨added, hadd, h⟩ := ok_of_bind h
  cases h
  have hreads := evalParseToken_reads hc.rules hread hnop
  obtain ⟨hbound, hchecked⟩ := checkToken_spec hcheck
  rw [hchecked] at hadd
  have hadds := addToken_adds (hc.read hreads) hreads.type (fun hne top htop hf => hne
    (evalParseToken_paren (hc.call top (hreads.ops ▸ htop) hf).2 hread)) hadd
  have hmoves := hadds.moves
  rw [hreads.last, hreads.stack, hreads.ops] at hmoves
  exact ⟨hadds.expression.trans hreads.expression, hadds.rules.trans hreads.rules, rfl, hreads.type, hreads.function,
    hreads.progress, hbound, hmoves⟩

lemma Consistent.no_call {mask : TokenType} (hc : Consistent p pos) (hl : has p.lastTokenType mask = true)
    (hmask : has tokenFunction mask = false) : ∀ top ∈ p.ops.head?, top.type ≠ tokenFunction := by
  intro top htop hf
  rw [(hc.call top htop hf).1, hmask] at hl
  cases hl

lemma Shape.waiting (h : Shape ops) (ht : op.type ∈ waitingTypes) (htop : ∀ top ∈ ops.head?, top.type ≠ tokenFunction) :
    Shape (op :: ops) :=
  ⟨ht, fun _ => htop, h⟩

lemma StopsAt.no_call {rest : List (Token D)} (h : StopsAt rest) : ∀ top ∈ rest.head?, top.type ≠ tokenFunction := by
  rcases h with rfl | ⟨group, below, rfl, hg⟩
  · exact nofun
  · rintro top ⟨⟩ hf
    rw [hg] at hf
    revert hf
    decide

lemma BindsBelow.no_call {rest : List (Token D)} (h : BindsBelow token rest) :
    ∀ top ∈ rest.head?, top.type ≠ tokenFunction := by
  rcases h with h | ⟨op, below, rfl, hp⟩
  · exact h.no_call
  · rintro top ⟨⟩ hf
    rw [hf, show priority tokenFunction = 0 by decide] at hp
    exact absurd hp UInt32.not_lt_zero

lemma Shape.below_call {func : Token D} {below : List (Token D)} (h : Shape (func :: below))
    (hf : func.type = tokenFunction) : ∀ top ∈ below.head?, top.type ≠ tokenFunction := by
  apply h.2.1
  rw [hf]
  decide

lemma Step.consistent_of (hc : Consistent p pos) (hs : Step p pos token q) (hshape : Shape q.ops)
    (hcall : ∀ top ∈ q.ops.head?, top.type ≠ tokenFunction) (hwait : token.type ∉ waitingTypes) :
    Consistent q (token.loc.r + 1) where
  rules := hs.rules ▸ hc.rules
  shape := hshape
  call top htop hf := absurd hf (hcall top htop)
  last := .inr (hs.last ▸ hs.type)
  top h := absurd (hs.last ▸ h) hwait

lemma Step.consistent_push (hc : Consistent p pos) (hs : Step p pos token q) {below : List (Token D)}
    (hops : q.ops = token :: below) (hshape : Shape (token :: below)) : Consistent q (token.loc.r + 1) where
  rules := hs.rules ▸ hc.rules
  shape := hops ▸ hshape
  call top htop hf := by
    rw [hops] at htop
    cases htop
    have hchar := (hs.function hf).2
    rw [Parser.char] at hchar ⊢
    rw [hs.expression]
    exact ⟨hs.last.trans hf, hchar⟩
  last := .inr (hs.last ▸ hs.type)
  top _ := ⟨token, below, hops, hs.last.symm⟩

lemma Step.consistent (hc : Consistent p pos) (hs : Step p pos token q) : Consistent q (token.loc.r + 1) := by
  have hnot : ∀ type ∈ tokenGroupClose :: tokenComma :: operandTypes, type ∉ waitingTypes := by decide
  have hmoves := hs.moves
  generalize hstack : q.stack = stack', hops' : q.ops = ops' at hmoves
  cases hmoves with
  | openGroup ht hl =>
    refine hs.consistent_push hc hops' ⟨by rw [ht]; decide, fun hne => absurd ht hne, hc.shape⟩
  | openCall ht hl =>
    exact hs.consistent_push hc hops' (hc.shape.waiting (by rw [ht]; decide) (hc.no_call hl (by decide)))
  | comma ht hl hne hops hmoved hrest =>
    exact hs.consistent_of hc (hops' ▸ (hops ▸ hc.shape).of_append) (hops' ▸ hrest.no_call) (hnot _ (by rw [ht]; decide))
  | closeStray ht hmoved more =>
    exact hs.consistent_of hc (hops' ▸ trivial) (hops' ▸ nofun) (hnot _ (by rw [ht]; decide))
  | closeEmpty ht hl hops hg =>
    exact hs.consistent_of hc (hops' ▸ trivial) (hops' ▸ nofun) (hnot _ (by rw [ht]; decide))
  | closeEmptyCall ht hl hops hg hf =>
    have hshape := (hops ▸ hc.shape).2.2
    exact hs.consistent_of hc (hops' ▸ hshape.2.2) (hops' ▸ hshape.below_call hf) (hnot _ (by rw [ht]; decide))
  | closeGroup ht hl hops hmoved hg hbelow =>
    have hshape := (hops ▸ hc.shape).of_append
    exact hs.consistent_of hc (hops' ▸ hshape.2.2) (hops' ▸ hbelow) (hnot _ (by rw [ht]; decide))
  | closeCall ht hl hops hmoved hg hf =>
    have hshape := ((hops ▸ hc.shape).of_append).2.2
    exact hs.consistent_of hc (hops' ▸ hshape.2.2) (hops' ▸ hshape.below_call hf) (hnot _ (by rw [ht]; decide))
  | operand ht hl =>
    exact hs.consistent_of hc (hops' ▸ hc.shape) (hops' ▸ hc.no_call hl (by decide))
      (hnot _ (List.mem_cons_of_mem _ (List.mem_cons_of_mem _ ht)))
  | unary ht hl =>
    refine hs.consistent_push hc hops' (hc.shape.waiting ?_ (hc.no_call hl (by decide)))
    exact List.mem_cons_of_mem _ (List.mem_cons_of_mem _ (List.mem_append_left _ ht))
  | binary ht hl hops hmoved hle hrest =>
    refine hs.consistent_push hc hops' ((hops ▸ hc.shape).of_append.waiting ?_ ?_)
    · exact List.mem_cons_of_mem _ (List.mem_cons_of_mem _ (List.mem_append_right _ ht))
    · exact hrest.no_call

end

end Glaber.Eval
