import Glaber.Eval.Lexemes

namespace Glaber.Eval

variable {D : Type} {S : Scanners} {p q r : Parser D} {token group : Token D} {ops moved below : List (Token D)} {pos : ℕ}
  {tail : List Char}

section

lemma popGroup_operators (below : List (Token D)) (hrules : PlainRules p.rules) (hm : Operators moved)
    (hg : group.type = tokenGroupOpen) :
    popGroup (moved ++ group :: below) p = .ok { p with ops := group :: below, stack := p.stack ++ moved } := by
  induction moved generalizing p with
  | nil => rw [List.nil_append, popGroup, if_pos hg, List.append_nil]
  | cons op moved ih =>
    have hop := hm op List.mem_cons_self
    rw [List.cons_append, popGroup, if_neg (operatorTypes_classes _ hop).2.1, evalAppendOperator_operator hrules hop]
    refine Eq.trans (ih (p := { p with stack := p.stack ++ [op] }) hrules fun t ht => hm t (List.mem_cons_of_mem _ ht)) ?_
    rw [List.append_assoc, List.singleton_append]

lemma popPrecedence_stop (hb : BindsBelow token below) :
    popPrecedence token below p = .ok { p with ops := below } := by
  rcases hb with (rfl | ⟨group, rest, rfl, hg⟩) | ⟨op, rest, rfl, hp⟩
  · rfl
  · rw [popPrecedence]
    split_ifs with hstop
    · rfl
    · rfl
  · exact if_pos (.inl hp)

lemma popPrecedence_operators (hrules : PlainRules p.rules) (h1 : has token.type classOperator1 = false)
    (hm : Operators moved) (hle : ∀ op ∈ moved, priority op.type ≤ priority token.type) (hb : BindsBelow token below) :
    popPrecedence token (moved ++ below) p = .ok { p with ops := below, stack := p.stack ++ moved } := by
  induction moved generalizing p with
  | nil => rw [List.nil_append, popPrecedence_stop hb, List.append_nil]
  | cons op moved ih =>
    have hop := hm op List.mem_cons_self
    have hno : ¬(op.type &&& opPriority > token.type &&& opPriority ∨ has token.type classOperator1 = true) := by
      rw [h1, not_or]
      exact ⟨UInt32.not_lt.mpr (hle op List.mem_cons_self), Bool.false_ne_true⟩
    rw [List.cons_append, popPrecedence, if_neg hno, if_neg (operatorTypes_classes _ hop).2.1,
      evalAppendOperator_operator hrules hop]
    refine Eq.trans (ih (p := { p with stack := p.stack ++ [op] }) hrules (fun t ht => hm t (List.mem_cons_of_mem _ ht))
      fun t ht => hle t (List.mem_cons_of_mem _ ht)) ?_
    rw [List.append_assoc, List.singleton_append]

end

section

def Clear (weight : TokenType) (ops : List (Token D)) : Prop :=
  StopsAt ops ∨ ∃ op below, ops = op :: below ∧ priority op.type > weight

def startTypes : List TokenType := classSeparator :: tokenGroupOpen :: tokenComma :: operatorTypes

def endTypes : List TokenType := [tokenVarNum, tokenVarStr, tokenGroupClose]

lemma startTypes_classes : ∀ type ∈ startTypes, has type beforeOperand = true ∧ has type classOperand = false ∧
    has type (beforeOperand ||| classFunction) = true ∧ type ≠ tokenArgQuery := by
  decide

lemma endTypes_classes : ∀ type ∈ endTypes, has type classOperand = true ∧ has type classSeparator = false ∧
    type ≠ tokenComma ∧ type ≠ tokenGroupOpen ∧ type ≠ tokenArgQuery ∧ has type beforeOperator = true ∧
    has type (classOperand ||| classProperty ||| classSeparator) = true ∧ has type classOperator = false := by
  decide

lemma addToken_value (hrules : PlainRules r.rules) (hl : has r.lastTokenType beforeOperand = true)
    (ht : token.type ∈ operandTypes) : addToken r token pos = .ok { r with stack := r.stack ++ [token] } := by
  have hproperty : r.allowed parseProperty = false := hrules.property
  rw [addToken_operand ht, evalAppendOperand, checkOperandProperty, hproperty, if_neg Bool.false_ne_true]
  rw [if_neg (by rw [Parser.lastIs, hl]; decide)]
  rfl

lemma addToken_open (hl : has r.lastTokenType (beforeOperand ||| classFunction) = true) (ht : token.type = tokenGroupOpen) :
    addToken r token pos = .ok { r with ops := token :: r.ops } := by
  rw [addToken, if_pos ht, openGroup, Parser.lastIs, if_pos hl]
  rfl

lemma addToken_function (hl : has r.lastTokenType beforeOperand = true) (ht : token.type = tokenFunction) :
    addToken r token pos = .ok { r with ops := token :: r.ops } := by
  rw [addToken, ht, if_neg (by decide), if_pos (by decide), openFunction, Parser.lastIs, if_pos hl]
  rfl

lemma addToken_unary (hl : has r.lastTokenType beforeOperand = true) (ht : token.type ∈ unaryTypes) :
    addToken r token pos = .ok { r with ops := token :: r.ops } := by
  obtain ⟨h2, h1⟩ := unaryTypes_classes _ ht
  rw [addToken_operator (List.mem_append_left _ ht), addOperator, popPrecedence_unary h1, h2,
    if_neg (fun hand => Bool.false_ne_true hand.1), if_neg (by rw [Parser.lastIs, hl]; exact fun hand => absurd hand.2 (by decide))]
  rfl

lemma addToken_binary (hrules : PlainRules r.rules) (hl : has r.lastTokenType beforeOperator = true)
    (ht : token.type ∈ binaryTypes) (hops : r.ops = moved ++ below) (hm : Operators moved)
    (hle : ∀ op ∈ moved, priority op.type ≤ priority token.type) (hb : BindsBelow token below) :
    addToken r token pos = .ok { r with stack := r.stack ++ moved, ops := token :: below } := by
  obtain ⟨h2, h1⟩ := binaryTypes_classes _ ht
  rw [addToken_operator (List.mem_append_right _ ht), addOperator, hops, popPrecedence_operators hrules h1 hm hle hb, h1,
    if_neg (by rw [Parser.lastIs, hl]; exact fun hand => absurd hand.2 (by decide)),
    if_neg (fun hand => Bool.false_ne_true hand.1)]
  rfl

lemma addToken_comma (hrules : PlainRules r.rules) (hl : r.lastTokenType ∈ endTypes) (ht : token.type = tokenComma)
    (hops : r.ops = moved ++ group :: below) (hm : Operators moved) (hg : group.type = tokenGroupOpen) :
    addToken r token pos = .ok { r with stack := r.stack ++ moved, ops := group :: below } := by
  obtain ⟨hoperand, hseparator, -⟩ := endTypes_classes _ hl
  have hpop := popGroup_operators below hrules hm hg
  rw [addToken, ht, if_neg (by decide), if_neg (by decide), if_pos rfl, nextArgument, Parser.lastIs, Parser.lastIs, hoperand,
    hseparator]
  simp only [Bool.true_eq_false, Bool.false_eq_true, false_and, if_false]
  rw [hops, if_neg (by simp), hpop]

lemma addToken_close (hrules : PlainRules r.rules) (hl : r.lastTokenType ∈ endTypes) (ht : token.type = tokenGroupClose)
    (hops : r.ops = moved ++ group :: below) (hm : Operators moved) (hg : group.type = tokenGroupOpen)
    (htop : ∀ top ∈ below.head?, has top.type classFunction = false) :
    addToken r token pos = .ok { r with stack := r.stack ++ moved, ops := below } := by
  obtain ⟨-, -, -, hopen, -, -, hbefore, -⟩ := endTypes_classes _ hl
  have hpop := popGroup_operators below hrules hm hg
  rw [addToken, ht, if_neg (by decide), if_neg (by decide), if_neg (by decide), if_pos rfl, closeGroup, Parser.lastIs, hbefore,
    if_neg (fun hand => absurd hand.1 (by decide)), hops, if_neg (by simp), hpop]
  change closeCall { r with stack := r.stack ++ moved, ops := below } pos = _
  rw [closeCall]
  cases below with
  | nil => rfl
  | cons top below =>
    simp only [htop top rfl, Bool.false_eq_true, if_false]
    rw [if_neg hopen]

lemma addToken_closeCall {func : Token D} (hrules : PlainRules r.rules)
    (hl : has r.lastTokenType (classOperand ||| classProperty ||| classSeparator) = true) (ht : token.type = tokenGroupClose)
    (hops : r.ops = moved ++ group :: func :: below) (hm : Operators moved) (hg : group.type = tokenGroupOpen)
    (hf : func.type = tokenFunction) : addToken r token pos =
      .ok { r with stack := r.stack ++ moved ++ [called (r.stack ++ moved) func], ops := below } := by
  have hpop := popGroup_operators (func :: below) hrules hm hg
  rw [addToken, ht, if_neg (by decide), if_neg (by decide), if_neg (by decide), if_pos rfl, closeGroup, Parser.lastIs, hl,
    if_neg (fun hand => absurd hand.1 (by decide)), hops, if_neg (by simp), hpop]
  change closeCall { r with stack := r.stack ++ moved, ops := func :: below } pos = _
  rw [closeCall]
  simp only [hf, show has tokenFunction classFunction = true by decide, if_true]
  rw [evalAppendOperator_function (p := { r with stack := r.stack ++ moved, ops := func :: below }) hrules,
    countParams_function hf]
  rfl

end

section

def Turn (S : Scanners) (a b : Parser D × ℕ) : Prop :=
  ∃ token, parseStep S a.1 a.2 = .ok (some (token, b.1)) ∧ b.2 = token.loc.r + 1

def Turns (S : Scanners) : Parser D × ℕ → Parser D × ℕ → Prop := Relation.ReflTransGen (Turn S)

structure Took (S : Scanners) (p : Parser D) (pos : ℕ) (word : List Char) (kind : TokenType) (token : Token D)
    (q : Parser D) (next : ℕ) : Prop where
  turn : Turn S (p, pos) (q, next)
  type : token.type = kind
  text : (p.expression.drop token.loc.l).take (token.loc.r + 1 - token.loc.l) = word
  function : kind = tokenFunction → token.opt = UInt32.ofNat p.stack.length
  expression : q.expression = p.expression
  rules : q.rules = p.rules
  last : q.lastTokenType = kind

variable {blanks word : List Char} {type : TokenType}

lemma took_of (h : Steady p) (hw : Word p pos blanks word tail)
    (hg : Gives S p blanks.length (pos + blanks.length) type word.length) (htype : type ≠ tokenNop)
    (hlast : p.lastTokenType ≠ tokenArgQuery) (hclose : ¬(type = tokenGroupClose ∧ p.lastTokenType = tokenComma))
    (stack' ops' : Token D → List (Token D))
    (hadd : ∀ (r : Parser D) (token : Token D), r.rules = p.rules → r.lastTokenType = p.lastTokenType → r.stack = p.stack →
      r.ops = p.ops → token.type = type → addToken r token pos = .ok { r with stack := stack' token, ops := ops' token }) :
    ∃ token q, Took S p pos word type token q (pos + blanks.length + word.length) ∧ q.stack = stack' token ∧
      q.ops = ops' token := by
  have hpos := hw.length_pos
  have hlen := hw.length
  have hshort := h.short
  obtain ⟨token, r, hread, rfl, hloc⟩ := hg
  have hread' := hw.token.trans hread
  have hreads := evalParseToken_reads (plainRules_of_trigger h.rules) hread' htype
  have hend : token.loc.r + 1 = pos + blanks.length + word.length := by
    rw [hloc]
    simp only
    omega
  have hadded := hadd r token hreads.rules hreads.last hreads.stack hreads.ops rfl
  have hcheck : checkToken r token pos = .ok r := by
    rw [checkToken, hreads.last, if_neg (by omega), if_neg fun hand => hlast hand.1, if_neg hclose]
  refine ⟨token, { r with stack := stack' token, ops := ops' token, lastTokenType := token.type }, ⟨?_, rfl, ?_, ?_, ?_, ?_, ?_⟩,
    rfl, rfl⟩
  · refine ⟨token, ?_, hend.symm⟩
    rw [parseStep, if_neg hw.char_ne, hread']
    change (if token.type = tokenNop then _ else _) = _
    rw [if_neg htype, hcheck]
    change (addToken r token pos >>= _) = _
    rw [hadded]
    rfl
  · rw [hloc]
    simp only
    rw [show pos + blanks.length + word.length - 1 + 1 - (pos + blanks.length) = word.length by omega, ← Parser.rest, hw.at,
      List.take_left]
  · exact fun hf => (hreads.function hf).1
  · exact hreads.expression
  · exact hreads.rules
  · rfl

variable {next : ℕ}

lemma Took.rest (ht : Took S p pos word type token q (pos + blanks.length + word.length))
    (hw : Word p pos blanks word tail) : q.rest (pos + blanks.length + word.length) = tail := by
  rw [Parser.rest, ht.expression]
  exact hw.behind

lemma Took.steady (ht : Took S p pos word type token q next) (h : Steady p) (htypes : ∀ t ∈ q.stack, t.type ∈ stackTypes) :
    Steady q where
  rules := by rw [ht.rules]; exact h.rules
  short := by rw [ht.expression]; exact h.short
  types := htypes

lemma Took.item (ht : Took S p pos word type token q next) (hk : has type classFunction = false) :
    itemOf p.expression token = ⟨type, word, none⟩ := by
  rw [itemOf, ht.type, ht.text, hk, if_neg Bool.false_ne_true]

lemma Took.turns (ht : Took S p pos word type token q next) : Turns S (p, pos) (q, next) := Relation.ReflTransGen.single ht.turn

lemma took_value (h : Steady p) (hw : Word p pos blanks word tail) (hl : p.lastTokenType ∈ startTypes)
    (htype : type ∈ [tokenVarNum, tokenVarStr]) (hg : Gives S p blanks.length (pos + blanks.length) type word.length) :
    ∃ token q, Took S p pos word type token q (pos + blanks.length + word.length) ∧ q.stack = p.stack ++ [token] ∧
      q.ops = p.ops := by
  have hkinds : ∀ type ∈ [tokenVarNum, tokenVarStr], type ≠ tokenNop ∧ type ∈ operandTypes ∧ type ≠ tokenGroupClose := by
    decide
  obtain ⟨hnop, hoperand, hclose⟩ := hkinds _ htype
  obtain ⟨hbefore, -, -, hquery⟩ := startTypes_classes _ hl
  refine took_of h hw hg hnop hquery (fun hand => hclose hand.1) (fun token => p.stack ++ [token]) (fun _ => p.ops) ?_
  intro r token hrules hlast hstack hops htok
  rw [addToken_value (plainRules_of_trigger (hrules ▸ h.rules)) (hlast ▸ hbefore) (htok ▸ hoperand), hstack, ← hops]

lemma took_open (h : Steady p) (hw : Word p pos blanks ['('] tail) (hl : p.lastTokenType ∈ tokenFunction :: startTypes) :
    ∃ token q, Took S p pos ['('] tokenGroupOpen token q (pos + blanks.length + 1) ∧ q.stack = p.stack ∧
      q.ops = token :: p.ops := by
  have hkinds : ∀ type ∈ tokenFunction :: startTypes, has type (beforeOperand ||| classFunction) = true ∧
      type ≠ tokenArgQuery := by
    decide
  obtain ⟨hbefore, hquery⟩ := hkinds _ hl
  refine took_of h hw (h.gives_sign (by decide) hw.at) (by decide) hquery (fun hand => absurd hand.1 (by decide))
    (fun _ => p.stack) (fun token => token :: p.ops) ?_
  intro r token hrules hlast hstack hops htok
  rw [addToken_open (hlast ▸ hbefore) htok, ← hstack, hops]

lemma took_close (h : Steady p) (hw : Word p pos blanks [')'] tail) (hl : p.lastTokenType ∈ endTypes)
    (hsplit : p.ops = moved ++ group :: below) (hm : Operators moved) (hg : group.type = tokenGroupOpen)
    (htop : ∀ top ∈ below.head?, has top.type classFunction = false) :
    ∃ token q, Took S p pos [')'] tokenGroupClose token q (pos + blanks.length + 1) ∧ q.stack = p.stack ++ moved ∧
      q.ops = below := by
  obtain ⟨-, -, hcomma, -, hquery, -⟩ := endTypes_classes _ hl
  refine took_of h hw (h.gives_sign (by decide) hw.at) (by decide) hquery (fun hand => hcomma hand.2)
    (fun _ => p.stack ++ moved) (fun _ => below) ?_
  intro r token hrules hlast hstack hops htok
  rw [addToken_close (plainRules_of_trigger (hrules ▸ h.rules)) (hlast ▸ hl) htok (hops.trans hsplit) hm hg htop, hstack]

lemma took_closeCall {func : Token D} (h : Steady p) (hw : Word p pos blanks [')'] tail)
    (hl : p.lastTokenType ∈ tokenGroupOpen :: endTypes) (hsplit : p.ops = moved ++ group :: func :: below)
    (hm : Operators moved) (hg : group.type = tokenGroupOpen) (hf : func.type = tokenFunction) :
    ∃ token q, Took S p pos [')'] tokenGroupClose token q (pos + blanks.length + 1) ∧
      q.stack = p.stack ++ moved ++ [called (p.stack ++ moved) func] ∧ q.ops = below := by
  have hkinds : ∀ type ∈ tokenGroupOpen :: endTypes, type ≠ tokenComma ∧ type ≠ tokenArgQuery ∧
      has type (classOperand ||| classProperty ||| classSeparator) = true := by
    decide
  obtain ⟨hcomma, hquery, hbefore⟩ := hkinds _ hl
  refine took_of h hw (h.gives_sign (by decide) hw.at) (by decide) hquery (fun hand => hcomma hand.2)
    (fun _ => p.stack ++ moved ++ [called (p.stack ++ moved) func]) (fun _ => below) ?_
  intro r token hrules hlast hstack hops htok
  rw [addToken_closeCall (plainRules_of_trigger (hrules ▸ h.rules)) (hlast ▸ hbefore) htok (hops.trans hsplit) hm hg hf,
    hstack]

lemma took_comma (h : Steady p) (hw : Word p pos blanks [','] tail) (hl : p.lastTokenType ∈ endTypes)
    (hsplit : p.ops = moved ++ group :: below) (hm : Operators moved) (hg : group.type = tokenGroupOpen) :
    ∃ token q, Took S p pos [','] tokenComma token q (pos + blanks.length + 1) ∧ q.stack = p.stack ++ moved ∧
      q.ops = group :: below := by
  obtain ⟨-, -, -, -, hquery, -⟩ := endTypes_classes _ hl
  refine took_of h hw (h.gives_sign (by decide) hw.at) (by decide) hquery (fun hand => absurd hand.1 (by decide))
    (fun _ => p.stack ++ moved) (fun _ => group :: below) ?_
  intro r token hrules hlast hstack hops htok
  rw [addToken_comma (plainRules_of_trigger (hrules ▸ h.rules)) (hlast ▸ hl) htok (hops.trans hsplit) hm hg, hstack]

lemma took_function (h : Steady p) (name : Name) (hw : Word p pos blanks name.text ('(' :: tail))
    (hl : p.lastTokenType ∈ startTypes) :
    ∃ token q, Took S p pos name.text tokenFunction token q (pos + blanks.length + name.text.length) ∧ q.stack = p.stack ∧
      q.ops = token :: p.ops := by
  obtain ⟨hbefore, -, -, hquery⟩ := startTypes_classes _ hl
  refine took_of h hw (h.gives_function name hw.at) (by decide) hquery (fun hand => absurd hand.1 (by decide))
    (fun _ => p.stack) (fun token => token :: p.ops) ?_
  intro r token hrules hlast hstack hops htok
  rw [addToken_function (hlast ▸ hbefore) htok, ← hstack, hops]

lemma took_unary (h : Steady p) (hw : Word p pos blanks word tail) (hl : p.lastTokenType ∈ startTypes)
    (htype : type ∈ unaryTypes) (hg : Gives S p blanks.length (pos + blanks.length) type word.length) :
    ∃ token q, Took S p pos word type token q (pos + blanks.length + word.length) ∧ q.stack = p.stack ∧
      q.ops = token :: p.ops := by
  have hkinds : ∀ type ∈ unaryTypes, type ≠ tokenNop ∧ type ≠ tokenGroupClose := by decide
  obtain ⟨hnop, hclose⟩ := hkinds _ htype
  obtain ⟨hbefore, -, -, hquery⟩ := startTypes_classes _ hl
  refine took_of h hw hg hnop hquery (fun hand => hclose hand.1) (fun _ => p.stack) (fun token => token :: p.ops) ?_
  intro r token hrules hlast hstack hops htok
  rw [addToken_unary (hlast ▸ hbefore) (htok ▸ htype), ← hstack, hops]

lemma took_binary (h : Steady p) (hw : Word p pos blanks word tail) (hl : p.lastTokenType ∈ endTypes)
    (htype : type ∈ binaryTypes) (hg : Gives S p blanks.length (pos + blanks.length) type word.length)
    (hsplit : p.ops = moved ++ below) (hm : Operators moved) (hle : ∀ op ∈ moved, priority op.type ≤ priority type)
    (hb : Clear (priority type) below) :
    ∃ token q, Took S p pos word type token q (pos + blanks.length + word.length) ∧ q.stack = p.stack ++ moved ∧
      q.ops = token :: below := by
  have hkinds : ∀ type ∈ binaryTypes, type ≠ tokenNop ∧ type ≠ tokenGroupClose := by decide
  obtain ⟨hnop, hclose⟩ := hkinds _ htype
  obtain ⟨-, -, -, -, hquery, hbefore, -⟩ := endTypes_classes _ hl
  refine took_of h hw hg hnop hquery (fun hand => hclose hand.1) (fun _ => p.stack ++ moved) (fun token => token :: below) ?_
  intro r token hrules hlast hstack hops htok
  have hbinds : BindsBelow token below := by
    rw [BindsBelow, htok]
    exact hb
  rw [addToken_binary (plainRules_of_trigger (hrules ▸ h.rules)) (hlast ▸ hbefore) (htok ▸ htype) (hops.trans hsplit) hm
    (htok ▸ hle) hbinds, hstack]

end

section

structure Starts (p : Parser D) (pos : ℕ) (blanks text tail : List Char) : Prop where
  steady : Steady p
  size : p.stack.length ≤ pos
  rest : p.rest pos = blanks ++ (text ++ tail)
  blank : ∀ c ∈ blanks, isWhitespace c = true
  follow : Follow tail
  last : p.lastTokenType ∈ startTypes
  top : ∀ top ∈ p.ops.head?, has top.type classFunction = false

structure Parsed (S : Scanners) (ends : List TokenType) (p : Parser D) (pos : ℕ) (q : Parser D) (next : ℕ) (tail : List Char)
    (pushed waiting : List (Token D)) (items : List Item) (n : ℕ) : Prop where
  turns : Turns S (p, pos) (q, next)
  expression : q.expression = p.expression
  rules : q.rules = p.rules
  rest : q.rest next = tail
  last : q.lastTokenType ∈ ends
  stack : q.stack = p.stack ++ pushed
  ops : q.ops = waiting ++ p.ops
  operators : Operators waiting
  types : ∀ t ∈ pushed, t.type ∈ stackTypes
  items : (pushed ++ waiting).map (itemOf p.expression) = items
  depth : depthOf (pushed ++ waiting) = n
  size : pos + pushed.length + waiting.length ≤ next

def Parses (S : Scanners) (D : Type) (text : List Char) (items : List Item) (weight : TokenType) : Prop :=
  ∀ (p : Parser D) (pos : ℕ) (blanks tail : List Char), Starts p pos blanks text tail →
    (priority tokenOpMinus < weight → Clear weight p.ops) →
    ∃ q next pushed waiting, Parsed S endTypes p pos q next tail pushed waiting items 1 ∧
      ∀ op ∈ waiting, priority op.type ≤ weight

variable {blanks text word : List Char} {type : TokenType} {items : List Item} {weight : TokenType} {next n : ℕ}
  {pushed waiting : List (Token D)} {ends : List TokenType}

lemma Parsed.steady (h : Parsed S ends p pos q next tail pushed waiting items n) (hs : Steady p) : Steady q where
  rules := by rw [h.rules]; exact hs.rules
  short := by rw [h.expression]; exact hs.short
  types := by
    intro t ht
    rw [h.stack] at ht
    rcases List.mem_append.mp ht with ht | ht
    · exact hs.types t ht
    · exact h.types t ht

lemma parses_atom (htype : type ∈ [tokenVarNum, tokenVarStr])
    (hfirst : ∃ c, word.head? = some c ∧ isWhitespace c = false ∧ c ≠ '\x00')
    (hgives : ∀ (p : Parser D) (skip start : ℕ) (tail : List Char), Steady p → p.rest start = word ++ tail → Follow tail →
      p.lastIs classOperand = false → Gives S p skip start type word.length) :
    Parses S D word [⟨type, word, none⟩] 0 := by
  have hkinds : ∀ type ∈ [tokenVarNum, tokenVarStr], type ∈ operandTypes ∧ has type classFunction = false ∧
      type ∈ endTypes := by
    decide
  obtain ⟨hoperand, hfunction, hend⟩ := hkinds _ htype
  intro p pos blanks tail hs hclear
  obtain ⟨-, hclass, -⟩ := startTypes_classes _ hs.last
  have hw : Word p pos blanks word tail := ⟨hs.rest, hs.blank, hfirst⟩
  obtain ⟨token, q, htook, hstack, hops⟩ := took_value hs.steady hw hs.last htype
    (hgives p _ _ tail hs.steady hw.at hs.follow hclass)
  have hmem : token.type ∈ tokenArgNull :: operandTypes := List.mem_cons_of_mem _ (htook.type ▸ hoperand)
  refine ⟨q, _, [token], [], ⟨htook.turns, htook.expression, htook.rules, htook.rest hw, ?_, hstack, hops, ?_, ?_, ?_, ?_, ?_⟩,
    nofun⟩
  · rw [htook.last]
    exact hend
  · exact nofun
  · intro t ht
    rw [List.mem_singleton.mp ht]
    exact (operands_classes _ hmem).1
  · rw [List.append_nil, List.map_singleton, htook.item hfunction]
  · rw [List.append_nil, depthOf_singleton, contribution_operand hmem]
    rfl
  · have hpos := hw.length_pos
    simp only [List.length_singleton, List.length_nil]
    omega

lemma parses_parens (h : Parses S D text items weight) : Parses S D ('(' :: (text ++ [')'])) items 0 := by
  intro p pos blanks tail hs hclear
  have hw : Word p pos blanks ['('] (text ++ ')' :: tail) := by
    refine ⟨?_, hs.blank, '(', rfl, by decide, by decide⟩
    rw [hs.rest, List.cons_append, List.append_assoc]
    rfl
  obtain ⟨group, q, htook, hstack, hops⟩ := took_open (S := S) hs.steady hw (List.mem_cons_of_mem _ hs.last)
  have hq : Starts q (pos + blanks.length + 1) [] text (')' :: tail) := by
    refine ⟨htook.steady hs.steady (hstack ▸ hs.steady.types), ?_, htook.rest hw, nofun, ?_, ?_, ?_⟩
    · have hsize := hs.size
      rw [hstack]
      omega
    · rintro c ⟨⟩
      decide
    · rw [htook.last]
      decide
    · rw [hops]
      rintro top ⟨⟩
      rw [htook.type]
      decide
  have hclear' : Clear weight q.ops := .inl (.inr ⟨group, p.ops, hops, htook.type⟩)
  obtain ⟨inner, next, pushed, waiting, hp, hle⟩ := h q _ [] (')' :: tail) hq fun _ => hclear'
  have hw' : Word inner next [] [')'] tail := ⟨hp.rest, nofun, ')', rfl, by decide, by decide⟩
  obtain ⟨close, last, htook', hstack', hops'⟩ := took_close (S := S) (hp.steady hq.steady) hw' hp.last
    (by rw [hp.ops, hops]) hp.operators htook.type hs.top
  refine ⟨last, _, pushed ++ waiting, [], ⟨?_, ?_, ?_, htook'.rest hw', ?_, ?_, hops', nofun, ?_, ?_, ?_, ?_⟩, nofun⟩
  · exact (htook.turns.trans hp.turns).trans htook'.turns
  · rw [htook'.expression, hp.expression, htook.expression]
  · rw [htook'.rules, hp.rules, htook.rules]
  · rw [htook'.last]
    decide
  · rw [hstack', hp.stack, hstack, List.append_assoc]
  · intro t ht
    rcases List.mem_append.mp ht with ht | ht
    · exact hp.types t ht
    · exact operatorTypes_stack _ (hp.operators t ht)
  · rw [List.append_nil, ← htook.expression]
    exact hp.items
  · rw [List.append_nil]
    exact hp.depth
  · have hsize := hp.size
    rw [List.length_append, List.length_nil]
    simp only [List.length_nil, List.length_singleton]
    omega

lemma unary_contribution (hop : token.type ∈ unaryTypes) : contribution token = 0 := by
  obtain ⟨hf, ho, -⟩ := operatorTypes_cases _ (List.mem_append_left _ hop)
  rw [contribution, hf, ho, (unaryTypes_classes _ hop).1]
  rfl

lemma binary_contribution (hop : token.type ∈ binaryTypes) : contribution token = -1 := by
  obtain ⟨hf, ho, -⟩ := operatorTypes_cases _ (List.mem_append_right _ hop)
  rw [contribution, hf, ho, (binaryTypes_classes _ hop).1]
  rfl

lemma parses_unary (before word behind : List Char) (htype : type ∈ unaryTypes)
    (hbefore : ∀ c ∈ before, isWhitespace c = true) (hbehind : ∀ c ∈ behind, isWhitespace c = true)
    (hfirst : ∃ c, word.head? = some c ∧ isWhitespace c = false ∧ c ≠ '\x00')
    (hgives : ∀ (p : Parser D) (skip start : ℕ) (tail : List Char), Steady p → before.length ≤ skip →
      p.rest start = word ++ (behind ++ (text ++ tail)) → p.lastIs classOperand = false →
      Gives S p skip start type word.length)
    (hweight : weight ≤ priority type) (h : Parses S D text items weight) :
    Parses S D (before ++ (word ++ behind) ++ text) (items ++ [⟨type, word, none⟩]) (priority type) := by
  have hkinds : ∀ type ∈ unaryTypes, type ∈ startTypes ∧ has type classFunction = false ∧
      priority type = priority tokenOpMinus := by
    decide
  obtain ⟨hstart, hfunction, hpriority⟩ := hkinds _ htype
  intro p pos blanks tail hs hclear
  obtain ⟨-, hclass, -⟩ := startTypes_classes _ hs.last
  have hw : Word p pos (blanks ++ before) word (behind ++ (text ++ tail)) := by
    refine ⟨?_, ?_, hfirst⟩
    · rw [hs.rest]
      simp only [List.append_assoc]
    · intro c hc
      rcases List.mem_append.mp hc with hc | hc
      · exact hs.blank c hc
      · exact hbefore c hc
  obtain ⟨op, q, htook, hstack, hops⟩ := took_unary hs.steady hw hs.last htype
    (hgives p _ _ tail hs.steady (by rw [List.length_append]; omega) hw.at hclass)
  have hq : Starts q (pos + (blanks ++ before).length + word.length) behind text tail := by
    refine ⟨htook.steady hs.steady (hstack ▸ hs.steady.types), ?_, htook.rest hw, hbehind, hs.follow, ?_, ?_⟩
    · have hsize := hs.size
      rw [hstack]
      omega
    · rw [htook.last]
      exact hstart
    · rw [hops]
      rintro top ⟨⟩
      rw [htook.type]
      exact hfunction
  obtain ⟨last, next, pushed, waiting, hp, hle⟩ := h q _ behind tail hq
    fun hlt => absurd hlt (UInt32.not_lt.mpr (hpriority ▸ hweight))
  refine ⟨last, next, pushed, waiting ++ [op], ⟨htook.turns.trans hp.turns, ?_, ?_, hp.rest, hp.last, ?_, ?_, ?_, hp.types,
    ?_, ?_, ?_⟩, ?_⟩
  · rw [hp.expression, htook.expression]
  · rw [hp.rules, htook.rules]
  · rw [hp.stack, hstack]
  · rw [hp.ops, hops, List.append_assoc, List.singleton_append]
  · intro t ht
    rcases List.mem_append.mp ht with ht | ht
    · exact hp.operators t ht
    · rw [List.mem_singleton.mp ht, htook.type]
      exact List.mem_append_left _ htype
  · rw [← List.append_assoc, List.map_append, List.map_singleton, htook.item hfunction, ← hp.items, htook.expression]
  · rw [← List.append_assoc, depthOf_append, hp.depth, depthOf_singleton, unary_contribution (htook.type ▸ htype), add_zero]
  · have hsize := hp.size
    have hpos := hw.length_pos
    rw [List.length_append, List.length_singleton]
    omega
  · intro t ht
    rcases List.mem_append.mp ht with ht | ht
    · exact UInt32.le_trans (hle t ht) hweight
    · rw [List.mem_singleton.mp ht, htook.type]
      exact UInt32.le_refl _

lemma Clear.mono {less : TokenType} (h : Clear weight ops) (hle : less ≤ weight) : Clear less ops := by
  rcases h with h | ⟨op, below, hops, hp⟩
  · exact .inl h
  · exact .inr ⟨op, below, hops, UInt32.lt_of_le_of_lt hle hp⟩

lemma Parsed.types_all (h : Parsed S ends p pos q next tail pushed waiting items n) :
    ∀ t ∈ pushed ++ waiting, t.type ∈ stackTypes := by
  intro t ht
  rcases List.mem_append.mp ht with ht | ht
  · exact h.types t ht
  · exact operatorTypes_stack _ (h.operators t ht)

lemma Parsed.stack_types (h : Parsed S ends p pos q next tail pushed waiting items n) (hs : Steady p) :
    ∀ t ∈ q.stack ++ waiting, t.type ∈ stackTypes := by
  intro t ht
  rw [h.stack, List.append_assoc] at ht
  rcases List.mem_append.mp ht with ht | ht
  · exact hs.types t ht
  · exact h.types_all t ht

lemma parses_binary (before word behind : List Char) {left right : List Char} {leftItems rightItems : List Item}
    {leftWeight rightWeight : TokenType} (htype : type ∈ binaryTypes) (hbefore : ∀ c ∈ before, isWhitespace c = true)
    (hbehind : ∀ c ∈ behind, isWhitespace c = true)
    (hfirst : ∃ c, word.head? = some c ∧ isWhitespace c = false ∧ c ≠ '\x00')
    (hfollow : ∀ tail, Follow (before ++ (word ++ (behind ++ tail))))
    (hgives : ∀ (p : Parser D) (skip start : ℕ) (tail : List Char), Steady p → before.length ≤ skip →
      p.rest start = word ++ (behind ++ (right ++ tail)) → p.lastIs classOperand = true →
      Gives S p skip start type word.length)
    (hleft : leftWeight ≤ priority type) (hright : rightWeight < priority type)
    (hl : Parses S D left leftItems leftWeight) (hr : Parses S D right rightItems rightWeight) :
    Parses S D (left ++ (before ++ (word ++ behind) ++ right)) (leftItems ++ (rightItems ++ [⟨type, word, none⟩]))
      (priority type) := by
  have hkinds : ∀ type ∈ binaryTypes, type ∈ startTypes ∧ has type classFunction = false ∧
      priority tokenOpMinus < priority type := by
    decide
  obtain ⟨hstart, hfunction, hpriority⟩ := hkinds _ htype
  intro p pos blanks tail hs hclear
  have hclear := hclear hpriority
  have hs' : Starts p pos blanks left (before ++ (word ++ (behind ++ (right ++ tail)))) := by
    refine ⟨hs.steady, hs.size, ?_, hs.blank, hfollow _, hs.last, hs.top⟩
    rw [hs.rest]
    simp only [List.append_assoc]
  obtain ⟨q, mid, pushed, waiting, hp, hle⟩ := hl p pos blanks _ hs' fun _ => hclear.mono hleft
  have hw : Word q mid before word (behind ++ (right ++ tail)) := ⟨hp.rest, hbefore, hfirst⟩
  obtain ⟨op, q', htook, hstack, hops⟩ := took_binary (hp.steady hs.steady) hw hp.last htype
    (hgives q _ _ tail (hp.steady hs.steady) le_rfl hw.at (endTypes_classes _ hp.last).1) hp.ops hp.operators
    (fun t ht => UInt32.le_trans (hle t ht) hleft) hclear
  have hq : Starts q' (mid + before.length + word.length) behind right tail := by
    refine ⟨htook.steady (hp.steady hs.steady) (hstack ▸ hp.stack_types hs.steady), ?_, htook.rest hw, hbehind, hs.follow, ?_,
      ?_⟩
    · have hsize := hs.size
      have hsize' := hp.size
      rw [hstack, hp.stack, List.length_append, List.length_append]
      omega
    · rw [htook.last]
      exact hstart
    · rw [hops]
      rintro top ⟨⟩
      rw [htook.type]
      exact hfunction
  have hclear' : Clear rightWeight q'.ops := .inr ⟨op, p.ops, hops, by rw [htook.type]; exact hright⟩
  obtain ⟨last, next, pushed', waiting', hp', hle'⟩ := hr q' _ behind tail hq fun _ => hclear'
  have hexp : q'.expression = p.expression := by rw [htook.expression, hp.expression]
  refine ⟨last, next, pushed ++ waiting ++ pushed', waiting' ++ [op], ⟨(hp.turns.trans htook.turns).trans hp'.turns, ?_, ?_,
    hp'.rest, hp'.last, ?_, ?_, ?_, ?_, ?_, ?_, ?_⟩, ?_⟩
  · rw [hp'.expression, hexp]
  · rw [hp'.rules, htook.rules, hp.rules]
  · rw [hp'.stack, hstack, hp.stack]
    simp only [List.append_assoc]
  · rw [hp'.ops, hops, List.append_assoc, List.singleton_append]
  · intro t ht
    rcases List.mem_append.mp ht with ht | ht
    · exact hp'.operators t ht
    · rw [List.mem_singleton.mp ht, htook.type]
      exact List.mem_append_right _ htype
  · intro t ht
    rcases List.mem_append.mp ht with ht | ht
    · exact hp.types_all t ht
    · exact hp'.types t ht
  · have hitem := htook.item hfunction
    rw [hp.expression] at hitem
    have hitems := hp'.items
    rw [hexp] at hitems
    rw [List.append_assoc, ← List.append_assoc pushed', List.map_append, hp.items, List.map_append, hitems,
      List.map_singleton, hitem]
  · rw [List.append_assoc, ← List.append_assoc pushed', depthOf_append (pushed ++ waiting),
      depthOf_append (pushed' ++ waiting'), hp.depth, hp'.depth, depthOf_singleton, binary_contribution (htook.type ▸ htype)]
    rfl
  · have hsize := hp.size
    have hsize' := hp'.size
    have hpos := hw.length_pos
    rw [List.length_append, List.length_append, List.length_append, List.length_singleton]
    omega
  · intro t ht
    rcases List.mem_append.mp ht with ht | ht
    · exact UInt32.le_trans (hle' t ht) (UInt32.le_of_lt hright)
    · rw [List.mem_singleton.mp ht, htook.type]
      exact UInt32.le_refl _

def ParsesArgs (S : Scanners) (D : Type) (text : List Char) (items : List Item) (n : ℕ) : Prop :=
  ∀ (p : Parser D) (pos : ℕ) (tail : List Char), Starts p pos [] text (')' :: tail) →
    (∃ group below, p.ops = group :: below ∧ group.type = tokenGroupOpen) →
    ∃ q next pushed waiting, Parsed S endTypes p pos q next (')' :: tail) pushed waiting items n

lemma parsesArgs_one (h : Parses S D text items weight) : ParsesArgs S D text items 1 := by
  rintro p pos tail hs ⟨group, below, hops, hg⟩
  obtain ⟨q, next, pushed, waiting, hp, -⟩ := h p pos [] (')' :: tail) hs fun _ => .inl (.inr ⟨group, below, hops, hg⟩)
  exact ⟨q, next, pushed, waiting, hp⟩

lemma parsesArgs_cons {more : List Char} {moreItems : List Item} (h : Parses S D text items weight)
    (hmore : ParsesArgs S D more moreItems n) :
    ParsesArgs S D (text ++ ',' :: more) (items ++ moreItems) (n + 1) := by
  rintro p pos tail hs ⟨group, below, hops, hg⟩
  have hs' : Starts p pos [] text (',' :: (more ++ ')' :: tail)) := by
    refine ⟨hs.steady, hs.size, ?_, nofun, ?_, hs.last, hs.top⟩
    · rw [hs.rest, List.append_assoc, List.cons_append]
    · rintro c ⟨⟩
      decide
  obtain ⟨q, mid, pushed, waiting, hp, -⟩ := h p pos [] _ hs' fun _ => .inl (.inr ⟨group, below, hops, hg⟩)
  have hw : Word q mid [] [','] (more ++ ')' :: tail) := ⟨hp.rest, nofun, ',', rfl, by decide, by decide⟩
  obtain ⟨comma, q', htook, hstack, hops'⟩ := took_comma (S := S) (hp.steady hs.steady) hw hp.last
    (by rw [hp.ops, hops]) hp.operators hg
  have hq : Starts q' (mid + 0 + 1) [] more (')' :: tail) := by
    refine ⟨htook.steady (hp.steady hs.steady) (hstack ▸ hp.stack_types hs.steady), ?_, htook.rest hw, nofun, hs.follow, ?_, ?_⟩
    · have hsize := hs.size
      have hsize' := hp.size
      rw [hstack, hp.stack, List.length_append, List.length_append]
      omega
    · rw [htook.last]
      decide
    · rw [hops']
      rintro top ⟨⟩
      rw [hg]
      decide
  obtain ⟨last, next, pushed', waiting', hp'⟩ := hmore q' _ tail hq ⟨group, below, hops', hg⟩
  have hexp : q'.expression = p.expression := by rw [htook.expression, hp.expression]
  refine ⟨last, next, pushed ++ waiting ++ pushed', waiting', ⟨(hp.turns.trans htook.turns).trans hp'.turns, ?_, ?_,
    hp'.rest, hp'.last, ?_, ?_, hp'.operators, ?_, ?_, ?_, ?_⟩⟩
  · rw [hp'.expression, hexp]
  · rw [hp'.rules, htook.rules, hp.rules]
  · rw [hp'.stack, hstack, hp.stack]
    simp only [List.append_assoc]
  · rw [hp'.ops, hops', hops]
  · intro t ht
    rcases List.mem_append.mp ht with ht | ht
    · exact hp.types_all t ht
    · exact hp'.types t ht
  · rw [List.append_assoc, List.map_append, hp.items, ← hexp, hp'.items]
  · rw [List.append_assoc, depthOf_append (pushed ++ waiting), hp.depth, hp'.depth]
    push_cast
    ring
  · have hsize := hp.size
    have hsize' := hp'.size
    rw [List.length_append, List.length_append]
    omega

lemma called_item {func : Token D} {stack values : List (Token D)} {expression : List Char} (hf : func.type = tokenFunction)
    (hopt : func.opt = UInt32.ofNat stack.length)
    (htext : (expression.drop func.loc.l).take (func.loc.r + 1 - func.loc.l) = text)
    (hsize : stack.length + values.length < 2 ^ 32) (hdepth : depthOf values = n) :
    itemOf expression (called (stack ++ values) func) = ⟨tokenFunction, text, some n⟩ ∧
      contribution (called (stack ++ values) func) = 1 - n := by
  have hplace : func.opt.toNat = stack.length := by rw [hopt, UInt32.toNat_ofNat', Nat.mod_eq_of_lt (by omega)]
  have hdrop : (stack ++ values).drop func.opt.toNat = values := by rw [hplace, List.drop_left]
  have hcount : (called (stack ++ values) func).opt.toNat = n := by
    have hcalled : ((called (stack ++ values) func).opt.toNat : ℤ) = depthOf ((stack ++ values).drop func.opt.toNat) :=
      called_opt (by rw [List.length_append]; exact hsize) (by rw [hdrop, hdepth]; exact Int.natCast_nonneg _)
    rw [hdrop, hdepth] at hcalled
    exact_mod_cast hcalled
  have hclass : has (called (stack ++ values) func).type classFunction = true := by
    rw [show (called (stack ++ values) func).type = func.type from rfl, hf]
    decide
  constructor
  · rw [itemOf, hclass, if_pos rfl, hcount]
    exact congrArg₂ (fun type text => (⟨type, text, some n⟩ : Item)) hf htext
  · rw [contribution, if_pos hclass, hcount]

lemma parses_call (name : Name) (hargs : text = [] ∧ items = [] ∧ n = 0 ∨ ParsesArgs S D text items n) :
    Parses S D (name.text ++ '(' :: (text ++ [')'])) (items ++ [⟨tokenFunction, name.text, some n⟩]) 0 := by
  obtain ⟨c, rest, hn, halpha⟩ := name.head
  intro p pos blanks tail hs hclear
  have hw : Word p pos blanks name.text ('(' :: (text ++ ')' :: tail)) := by
    refine ⟨?_, hs.blank, c, by rw [hn]; rfl, ?_, ?_⟩
    · rw [hs.rest]
      simp only [List.append_assoc, List.cons_append, List.nil_append]
    · exact (Bool.or_eq_false_iff.mp (nameChar_no_end (name.chars c (by rw [hn]; exact List.mem_cons_self)))).2
    · rintro rfl
      exact absurd halpha (by decide)
  obtain ⟨func, q, htook, hstack, hops⟩ := took_function (S := S) hs.steady name hw hs.last
  have hsteady : Steady q := htook.steady hs.steady (hstack ▸ hs.steady.types)
  have hw' : Word q (pos + blanks.length + name.text.length) [] ['('] (text ++ ')' :: tail) :=
    ⟨htook.rest hw, nofun, '(', rfl, by decide, by decide⟩
  obtain ⟨group, q', htook', hstack', hops'⟩ := took_open (S := S) hsteady hw' (by rw [htook.last]; decide)
  have hstarts : Starts q' (pos + blanks.length + name.text.length + 0 + 1) [] text (')' :: tail) := by
    refine ⟨htook'.steady hsteady (hstack' ▸ hsteady.types), ?_, htook'.rest hw', nofun, ?_, ?_, ?_⟩
    · have hsize := hs.size
      rw [hstack', hstack]
      omega
    · rintro d ⟨⟩
      decide
    · rw [htook'.last]
      decide
    · rw [hops']
      rintro top ⟨⟩
      rw [htook'.type]
      decide
  have hinner : ∃ inner next pushed waiting, Parsed S (tokenGroupOpen :: endTypes) q'
      (pos + blanks.length + name.text.length + 0 + 1) inner next (')' :: tail) pushed waiting items n := by
    rcases hargs with ⟨rfl, rfl, rfl⟩ | hargs
    · refine ⟨q', _, [], [], .refl, rfl, rfl, hstarts.rest, ?_, (List.append_nil _).symm, rfl, nofun, nofun, rfl, rfl, le_rfl⟩
      rw [htook'.last]
      exact List.mem_cons_self
    · obtain ⟨inner, next, pushed, waiting, hp⟩ := hargs q' _ tail hstarts ⟨group, q.ops, hops', htook'.type⟩
      exact ⟨inner, next, pushed, waiting, { hp with last := List.mem_cons_of_mem _ hp.last }⟩
  obtain ⟨inner, next, pushed, waiting, hp⟩ := hinner
  have hsteady' := hp.steady hstarts.steady
  have hw'' : Word inner next [] [')'] tail := ⟨hp.rest, nofun, ')', rfl, by decide, by decide⟩
  obtain ⟨close, last, htook'', hstack'', hops''⟩ := took_closeCall (S := S) hsteady' hw'' hp.last
    (by rw [hp.ops, hops', hops]) hp.operators htook'.type htook.type
  have hfull : inner.stack ++ waiting = p.stack ++ (pushed ++ waiting) := by
    rw [hp.stack, hstack', hstack, List.append_assoc]
  have hexp : q'.expression = p.expression := by rw [htook'.expression, htook.expression]
  have hsmall : p.stack.length + (pushed ++ waiting).length < 2 ^ 32 := by
    have hsize := hs.size
    have hsize' := hp.size
    have hlen := hw''.length
    have hshort := hsteady'.short
    rw [List.length_append]
    simp only [List.length_nil, List.length_singleton] at hlen
    omega
  obtain ⟨hitem, hcontribution⟩ := called_item htook.type (htook.function rfl) htook.text hsmall hp.depth
  rw [hfull] at hstack''
  refine ⟨last, _, pushed ++ waiting ++ [called (p.stack ++ (pushed ++ waiting)) func], [], ⟨?_, ?_, ?_, htook''.rest hw'', ?_,
    ?_, hops'', nofun, ?_, ?_, ?_, ?_⟩, nofun⟩
  · exact ((htook.turns.trans htook'.turns).trans hp.turns).trans htook''.turns
  · rw [htook''.expression, hp.expression, hexp]
  · rw [htook''.rules, hp.rules, htook'.rules, htook.rules]
  · rw [htook''.last]
    decide
  · rw [hstack'', List.append_assoc]
  · refine types_snoc hp.types_all ?_
    rw [show (called (p.stack ++ (pushed ++ waiting)) func).type = func.type from rfl, htook.type]
    exact List.mem_cons_self
  · have hitems := hp.items
    rw [hexp] at hitems
    rw [List.append_nil, List.map_append, hitems, List.map_singleton, hitem]
  · rw [List.append_nil, depthOf_append (pushed ++ waiting), hp.depth, depthOf_singleton, hcontribution, add_sub_cancel]
    rfl
  · have hsize := hp.size
    have hpos := hw.length_pos
    simp only [List.length_append, List.length_singleton, List.length_nil]
    omega

end

end Glaber.Eval
