import Glaber.Eval.ShuntingYard

namespace Glaber.Eval

variable {D : Type} {S : Scanners} {text tail : List Char} {items : List Item} {weight : TokenType}

section

def NoCompare (text : List Char) : Prop := ∃ c rest, text = c :: rest ∧ c ≠ '=' ∧ c ≠ '>'

lemma noCompare_parens {needed : Bool} (h : NoCompare text) : NoCompare (parens needed text) := by
  cases needed with
  | true => exact ⟨'(', _, rfl, by decide, by decide⟩
  | false => exact h

lemma NoCompare.append (h : NoCompare text) : NoCompare (text ++ tail) := by
  obtain ⟨c, rest, rfl, hc⟩ := h
  exact ⟨c, rest ++ tail, rfl, hc⟩

lemma Number.noCompare (n : Number) : NoCompare n.text := by
  obtain ⟨c, rest, hn, hc⟩ := n.head
  refine ⟨c, rest, hn, ?_, ?_⟩
  · rintro rfl
    exact absurd hc (by decide)
  · rintro rfl
    exact absurd hc (by decide)

lemma Name.noCompare (name : Name) : NoCompare name.text := by
  obtain ⟨c, rest, hn, hc⟩ := name.head
  refine ⟨c, rest, hn, ?_, ?_⟩
  · rintro rfl
    exact absurd hc (by decide)
  · rintro rfl
    exact absurd hc (by decide)

theorem Formula.noCompare : ∀ t : Formula, NoCompare t.render
  | .num n => n.noCompare
  | .str _ => ⟨'"', _, rfl, by decide, by decide⟩
  | .unary .minus _ => ⟨'-', _, rfl, by decide, by decide⟩
  | .unary .not _ => ⟨' ', _, rfl, by decide, by decide⟩
  | .binary _ left _ => (noCompare_parens left.noCompare).append
  | .group _ => ⟨'(', _, rfl, by decide, by decide⟩
  | .call name _ => name.noCompare.append

def Formula.isNum : Formula → Bool
  | .num _ => true
  | _ => false

lemma Formula.operand_head (op : Unary) : ∀ arg : Formula, arg.isNum = false →
    ∃ c rest, parens (priority op.type < arg.weight) arg.render = c :: rest ∧ c.isDigit = false ∧ c ≠ '.' := by
  have hbinary : ∀ op : Unary, ∀ sign : Binary, priority op.type < priority sign.type := by
    intro op sign
    cases op <;> cases sign <;> decide
  have hunary : ∀ op op' : Unary, ¬priority op.type < priority op'.type := by
    intro op op'
    cases op <;> cases op' <;> decide
  intro arg hnum
  cases arg with
  | num n => cases hnum
  | str s => exact ⟨'"', _, rfl, by decide, by decide⟩
  | unary op' arg =>
    rw [Formula.weight, decide_eq_false (hunary op op')]
    cases op' with
    | minus => exact ⟨'-', _, rfl, by decide, by decide⟩
    | not => exact ⟨' ', _, rfl, by decide, by decide⟩
  | binary sign left right =>
    rw [Formula.weight, decide_eq_true (hbinary op sign)]
    exact ⟨'(', _, rfl, by decide, by decide⟩
  | group inner => exact ⟨'(', _, rfl, by decide, by decide⟩
  | call name args =>
    obtain ⟨c, rest, hn, hc⟩ := name.head
    refine ⟨c, rest ++ parens true (renderArgs args), ?_, not_digit_of_alpha hc, ?_⟩
    · rw [← List.cons_append, ← hn]
      rfl
    · rintro rfl
      exact absurd hc (by decide)

end

section

lemma Parses.mono {more : TokenType} (h : Parses S D text items weight) (hle : weight ≤ more) : Parses S D text items more := by
  intro p pos blanks tail hs hclear
  obtain ⟨q, next, pushed, waiting, hp, hall⟩ := h p pos blanks tail hs fun hlt =>
    (hclear (UInt32.lt_of_lt_of_le hlt hle)).mono hle
  exact ⟨q, next, pushed, waiting, hp, fun op hop => UInt32.le_trans (hall op hop) hle⟩

lemma parses_operand (needed : Bool) (h : Parses S D text items weight) :
    Parses S D (parens needed text) items (if needed then 0 else weight) := by
  cases needed with
  | true => exact parses_parens h
  | false => exact h

lemma Number.first (n : Number) : ∃ c, n.text.head? = some c ∧ isWhitespace c = false ∧ c ≠ '\x00' := by
  obtain ⟨c, rest, hn, hc⟩ := n.head
  have hcode : 46 ≤ c.toNat := by
    rcases hc with hc | rfl
    · exact le_trans (by decide) (digit_code hc).1
    · decide
  refine ⟨c, by rw [hn]; rfl, ?_, ?_⟩
  · rw [isWhitespace, Bool.or_eq_false_iff, Bool.and_eq_false_iff, decide_eq_false_iff_not, decide_eq_false_iff_not,
      decide_eq_false_iff_not]
    refine ⟨?_, .inr (by omega)⟩
    rintro rfl
    exact absurd hcode (by decide)
  · rintro rfl
    exact absurd hcode (by decide)

lemma Number.parses (n : Number) (hfits : n.Fits S) : Parses S D n.text [⟨tokenVarNum, n.text, none⟩] 0 :=
  parses_atom (by decide) n.first fun _ _ _ _ hs hrest htail _ => hs.gives_number n hrest htail hfits

lemma Number.parses_signed (n : Number) (hfits : n.Fits S) :
    Parses S D ('-' :: n.text) [⟨tokenVarNum, '-' :: n.text, none⟩] 0 :=
  parses_atom (by decide) ⟨'-', rfl, by decide, by decide⟩ fun _ _ _ _ hs hrest htail hlast =>
    hs.gives_signed n hrest htail hfits hlast

lemma Quoted.parses (s : Quoted) : Parses S D s.quoted [⟨tokenVarStr, s.quoted, none⟩] 0 :=
  parses_atom (by decide) ⟨'"', rfl, by decide, by decide⟩ fun _ _ _ _ hs hrest _ _ => hs.gives_string s hrest

lemma parses_minus (hweight : weight ≤ priority tokenOpMinus)
    (hhead : ∃ c rest, text = c :: rest ∧ c.isDigit = false ∧ c ≠ '.') (h : Parses S D text items weight) :
    Parses S D (Unary.minus.text ++ text) (items ++ [⟨tokenOpMinus, ['-'], none⟩]) (priority tokenOpMinus) := by
  obtain ⟨c, rest, rfl, hc⟩ := hhead
  refine parses_unary [] ['-'] [] (by decide) nofun nofun ⟨'-', rfl, by decide, by decide⟩ ?_ hweight h
  intro p skip start tail hs hskip hrest hlast
  refine hs.gives_minus hrest ?_ hlast
  rintro d ⟨⟩
  exact hc

lemma parses_not (hweight : weight ≤ priority tokenOpNot) (h : Parses S D text items weight) :
    Parses S D (Unary.not.text ++ text) (items ++ [⟨tokenOpNot, ['n', 'o', 't'], none⟩]) (priority tokenOpNot) := by
  refine parses_unary [' '] ['n', 'o', 't'] [' '] (by decide) (by decide) (by decide)
    ⟨'n', rfl, by decide, by decide⟩ ?_ hweight h
  intro p skip start tail hs hskip hrest hlast
  exact hs.gives_keyword (by simp at hskip; omega) (by decide) hrest

variable (op : Binary)

lemma Binary.mem_types : op.type ∈ binaryTypes := by
  cases op <;> decide

def Binary.blank : List Char := if op.isLogic then [' '] else []

lemma Binary.text_eq : op.text = op.blank ++ (op.sign ++ op.blank) := by
  cases op <;> rfl

lemma Binary.blank_whitespace : ∀ c ∈ op.blank, isWhitespace c = true := by
  cases op <;> decide

lemma Binary.first : ∃ c, op.sign.head? = some c ∧ isWhitespace c = false ∧ c ≠ '\x00' := by
  cases op <;> exact ⟨_, rfl, by decide, by decide⟩

lemma Binary.follow (tail : List Char) : Follow (op.blank ++ (op.sign ++ (op.blank ++ tail))) := by
  intro c hc
  cases op <;> cases hc <;> decide

lemma Binary.gives {p : Parser D} {skip start : ℕ} (hs : Steady p) (hskip : op.blank.length ≤ skip)
    (htext : NoCompare text) (hrest : p.rest start = op.sign ++ (op.blank ++ text)) (hlast : p.lastIs classOperand = true) :
    Gives S p skip start op.type op.sign.length := by
  obtain ⟨c, rest, rfl, hequal, hgreater⟩ := htext
  have hcompare : ∀ d ∈ (c :: rest).head?, d ≠ '=' ∧ d ≠ '>' := by
    rintro d ⟨⟩
    exact ⟨hequal, hgreater⟩
  cases op with
  | add => exact hs.gives_sign (by decide) hrest
  | sub => exact hs.gives_sub hrest hlast
  | mul => exact hs.gives_sign (by decide) hrest
  | div => exact hs.gives_sign (by decide) hrest
  | eq => exact hs.gives_sign (by decide) hrest
  | ne => exact hs.gives_compare (by decide) hrest hcompare
  | lt => exact hs.gives_compare (by decide) hrest hcompare
  | gt => exact hs.gives_compare (by decide) hrest hcompare
  | le => exact hs.gives_compare (by decide) hrest hcompare
  | ge => exact hs.gives_compare (by decide) hrest hcompare
  | and => exact hs.gives_keyword (Nat.pos_iff_ne_zero.mp hskip) (by decide) hrest
  | or => exact hs.gives_keyword (Nat.pos_iff_ne_zero.mp hskip) (by decide) hrest

lemma Binary.parses {left right : List Char} {leftItems rightItems : List Item}
    {leftWeight rightWeight : TokenType} (hleft : leftWeight ≤ priority op.type) (hright : rightWeight < priority op.type)
    (hcompare : NoCompare right) (hl : Parses S D left leftItems leftWeight) (hr : Parses S D right rightItems rightWeight) :
    Parses S D (left ++ (op.text ++ right)) (leftItems ++ (rightItems ++ [⟨op.type, op.sign, none⟩])) (priority op.type) := by
  rw [op.text_eq]
  refine parses_binary op.blank op.sign op.blank op.mem_types op.blank_whitespace op.blank_whitespace op.first op.follow ?_
    hleft hright hl hr
  intro p skip start tail hs hskip hrest hlast
  exact op.gives hs hskip hcompare.append hrest hlast

lemma priority_pos : 0 < priority op.type := by
  cases op <;> decide

lemma traversal_minus {arg : Formula} (h : arg.isNum = false) :
    (Formula.unary .minus arg).traversal true = arg.traversal true ++ [⟨tokenOpMinus, ['-'], none⟩] := by
  cases arg with
  | num n => cases h
  | _ => rfl

lemma traversal_not (arg : Formula) :
    (Formula.unary .not arg).traversal true = arg.traversal true ++ [⟨tokenOpNot, ['n', 'o', 't'], none⟩] := by
  cases arg <;> rfl

lemma parses_within (limit : TokenType) (h : Parses S D text items weight) :
    Parses S D (parens (limit < weight) text) items (if limit < weight then 0 else weight) ∧
      (if limit < weight then 0 else weight) ≤ limit := by
  refine ⟨?_, ?_⟩
  · have hop := parses_operand (decide (limit < weight)) h
    simpa only [decide_eq_true_eq] using hop
  · split_ifs with hlt
    · exact UInt32.zero_le
    · exact UInt32.not_lt.mp hlt

lemma parses_inside {limit : TokenType} (hpos : 0 < limit) (h : Parses S D text items weight) :
    Parses S D (parens (limit ≤ weight) text) items (if limit ≤ weight then 0 else weight) ∧
      (if limit ≤ weight then 0 else weight) < limit := by
  refine ⟨?_, ?_⟩
  · have hop := parses_operand (decide (limit ≤ weight)) h
    simpa only [decide_eq_true_eq] using hop
  · split_ifs with hle
    · exact hpos
    · exact UInt32.not_le.mp hle

lemma Formula.parses_unary_minus {arg : Formula} (hnum : arg.isNum = false)
    (h : Parses S D arg.render (arg.traversal true) arg.weight) :
    Parses S D (Formula.unary .minus arg).render ((Formula.unary .minus arg).traversal true)
      (Formula.unary .minus arg).weight := by
  obtain ⟨hop, hle⟩ := parses_within (priority Unary.minus.type) h
  rw [traversal_minus hnum]
  exact parses_minus hle (Formula.operand_head .minus arg hnum) hop

mutual

theorem Formula.parses : ∀ t : Formula, t.Fits S → Parses S D t.render (t.traversal true) t.weight
  | .num n, hfits => n.parses hfits
  | .str s, _ => s.parses
  | .unary .minus (.num n), hfits => (n.parses_signed hfits).mono UInt32.zero_le
  | .unary .minus (.str s), _ => Formula.parses_unary_minus rfl s.parses
  | .unary .minus (.unary op arg), hfits => Formula.parses_unary_minus rfl (Formula.parses (.unary op arg) hfits)
  | .unary .minus (.binary op left right), hfits =>
    Formula.parses_unary_minus rfl (Formula.parses (.binary op left right) hfits)
  | .unary .minus (.group inner), hfits => Formula.parses_unary_minus rfl (Formula.parses (.group inner) hfits)
  | .unary .minus (.call name args), hfits => Formula.parses_unary_minus rfl (Formula.parses (.call name args) hfits)
  | .unary .not arg, hfits => by
    obtain ⟨hop, hle⟩ := parses_within (priority Unary.not.type) (arg.parses hfits)
    rw [traversal_not arg]
    exact parses_not hle hop
  | .binary op left right, hfits => by
    obtain ⟨hl, hle⟩ := parses_within (priority op.type) (left.parses hfits.1)
    obtain ⟨hr, hlt⟩ := parses_inside (priority_pos op) (right.parses hfits.2)
    exact op.parses hle hlt (noCompare_parens right.noCompare) hl hr
  | .group inner, hfits => parses_parens (inner.parses hfits)
  | .call name args, hfits => parses_call name ((parsesArgs_all args hfits).imp_left fun h => by
      rw [h]
      exact ⟨rfl, rfl, rfl⟩)

theorem parsesArgs_all : ∀ args : List Formula, FitsArgs S args →
    args = [] ∨ ParsesArgs S D (renderArgs args) (traversalArgs true args) args.length
  | [], _ => .inl rfl
  | [arg], hfits => .inr (by
      rw [traversalArgs, traversalArgs, List.append_nil]
      exact parsesArgs_one (arg.parses hfits.1))
  | arg :: second :: args, hfits => .inr (parsesArgs_cons (arg.parses hfits.1)
      ((parsesArgs_all (second :: args) hfits.2).resolve_left (List.cons_ne_nil _ _)))

end

end

section

variable {p q : Parser D} {pos next : ℕ}

lemma Turns.parseLoop (h : Turns S (p, pos) (q, next)) : ∃ n tokens, ∀ fuel, parseLoop S (n + fuel) p pos =
    (do let (r, more) ← parseLoop S fuel q next; return (r, tokens ++ more)) := by
  have hall : ∀ a b : Parser D × ℕ, Relation.ReflTransGen (Turn S) a b → ∃ n tokens, ∀ fuel,
      Glaber.Eval.parseLoop S (n + fuel) a.1 a.2 =
        (do let (r, more) ← Glaber.Eval.parseLoop S fuel b.1 b.2; return (r, tokens ++ more)) := by
    intro a b hturns
    induction hturns using Relation.ReflTransGen.head_induction_on with
    | refl =>
      refine ⟨0, [], fun fuel => ?_⟩
      rw [Nat.zero_add]
      cases Glaber.Eval.parseLoop S fuel b.1 b.2 with
      | error e => rfl
      | ok read => rfl
    | head hturn hrest ih =>
      obtain ⟨token, hstep, hnext⟩ := hturn
      obtain ⟨n, tokens, hfuel⟩ := ih
      refine ⟨n + 1, token :: tokens, fun fuel => ?_⟩
      rw [show n + 1 + fuel = n + fuel + 1 by omega, Glaber.Eval.parseLoop, hstep]
      change (Glaber.Eval.parseLoop S (n + fuel) _ (token.loc.r + 1) >>= _) = _
      rw [← hnext, hfuel fuel]
      cases Glaber.Eval.parseLoop S fuel b.1 b.2 with
      | error e => rfl
      | ok read => rfl
  exact hall _ _ h

lemma flushOps_operators {ops : List (Token D)} (hrules : PlainRules p.rules) (hm : Operators ops) :
    flushOps ops p = .ok { p with ops := [], stack := p.stack ++ ops } := by
  induction ops generalizing p with
  | nil => rw [flushOps, List.append_nil]
  | cons op ops ih =>
    have hop := hm op List.mem_cons_self
    rw [flushOps, if_neg (operatorTypes_classes _ hop).2.1, evalAppendOperator_operator hrules hop]
    refine Eq.trans (ih (p := { p with stack := p.stack ++ [op] }) hrules fun t ht => hm t (List.mem_cons_of_mem _ ht)) ?_
    rw [List.append_assoc, List.singleton_append]

lemma finish_operators (hrules : PlainRules p.rules) (hl : p.lastTokenType ∈ endTypes) (hm : Operators p.ops)
    (hne : p.stack ++ p.ops ≠ []) : finish p = .ok { p with ops := [], stack := p.stack ++ p.ops } := by
  obtain ⟨-, -, hcomma, -, -, -, -, hoperator⟩ := endTypes_classes _ hl
  have hproperty : p.allowed parseProperty = false := hrules.property
  rw [finish, Parser.lastIs, hoperator, if_neg Bool.false_ne_true, if_neg hcomma, flushOps_operators hrules hm]
  rcases hstack : p.stack ++ p.ops with _ | ⟨token, _ | ⟨second, rest⟩⟩
  · exact absurd hstack hne
  · exact if_neg (show ¬(p.allowed parseProperty && has token.type classProperty) = true by simp [hproperty])
  · rfl

lemma initial_starts {rules : Rules} (hrules : rules = parseTriggerExpression ∨ rules = triggerExpression)
    (hshort : text.length < 2 ^ 31) : Starts (initialParser text rules : Parser D) 0 [] text [] where
  steady := ⟨hrules, hshort, nofun⟩
  size := le_rfl
  rest := (List.append_nil text).symm
  blank := nofun
  follow := nofun
  last := List.mem_cons_self
  top := nofun

theorem rendered_formula_parses {rules : Rules} (hrules : rules = parseTriggerExpression ∨ rules = triggerExpression)
    (t : Formula) (hfits : t.Fits S) (hshort : t.render.length < 2 ^ 31) :
    ∃ ctx : Context D, evalParseExpression S t.render rules = .ok ctx ∧
      ctx.stack.map (itemOf t.render) = t.traversal true := by
  have hstarts : Starts (initialParser t.render rules : Parser D) 0 [] t.render [] := initial_starts hrules hshort
  obtain ⟨q, next, pushed, waiting, hp, -⟩ := t.parses hfits _ 0 [] [] hstarts fun _ => .inl (.inl rfl)
  have hplain := plainRules_of_trigger hrules
  have hops : q.ops = waiting := hp.ops.trans (List.append_nil waiting)
  have hstack : q.stack = pushed := hp.stack
  have hend : parseStep S q next = .ok none := by
    rw [parseStep, if_pos]
    rw [char_eq, hp.rest]
    rfl
  obtain ⟨n, tokens, hfuel⟩ := hp.turns.parseLoop
  have hloop : parseLoop S (t.render.length + 1) (initialParser t.render rules) 0 = .ok (q, tokens) := by
    have henough : parseLoop S (t.render.length + 1 + n) (initialParser t.render rules : Parser D) 0 =
        parseLoop S (t.render.length + 1) (initialParser t.render rules) 0 :=
      parseLoop_fuel n (initial_consistent hplain) (Nat.le_of_eq (Nat.zero_add _).symm)
    rw [← henough, Nat.add_comm, hfuel, parseLoop, hend]
    change Except.ok (q, tokens ++ []) = _
    rw [List.append_nil]
  have hne : q.stack ++ q.ops ≠ [] := by
    intro hnil
    have hdepth := hp.depth
    rw [hstack, hops] at hnil
    rw [hnil, depthOf_nil] at hdepth
    exact absurd hdepth (by decide)
  have hfinish := finish_operators (p := q) (hp.rules ▸ hplain) hp.last (hops ▸ hp.operators) hne
  refine ⟨⟨q.expression, q.rules, q.stack ++ q.ops⟩, ?_, ?_⟩
  · rw [evalParseExpression, parseWithTokens, hloop]
    change (finish q >>= _) >>= _ = _
    rw [hfinish]
    rfl
  · rw [hstack, hops]
    exact hp.items

def five : Number := ⟨['5'], by decide⟩

def countName : Name := ⟨['c', 'o', 'u', 'n', 't'], ⟨'c', rfl, by decide⟩, by decide, by decide⟩

def countEqual : Formula :=
  .binary .eq (.call countName [.binary .mul (.num five) (.binary .sub (.num five) (.num five)), .unary .minus (.num five)])
    (.num five)

theorem countEqual_parses : ∃ ctx : Context ℕ, evalParseExpression noMacros countEqual.render triggerExpression = .ok ctx ∧
    ctx.stack.map (itemOf countEqual.render) = countEqual.traversal true := by
  have hfive : five.Fits noMacros := fun tail _ c _ => ⟨rfl, rfl⟩
  exact rendered_formula_parses (.inr rfl) countEqual ⟨⟨⟨hfive, hfive, hfive⟩, hfive, trivial⟩, hfive⟩ (by decide)

theorem minus_five_one_token : ∃ ctx : Context ℕ,
    evalParseExpression noMacros (Formula.unary .minus (.num five)).render parseTriggerExpression = .ok ctx ∧
    ctx.stack.map (itemOf (Formula.unary .minus (.num five)).render) ≠ (Formula.unary .minus (.num five)).traversal false :=
  ⟨_, rfl, by decide⟩

end

end Glaber.Eval
