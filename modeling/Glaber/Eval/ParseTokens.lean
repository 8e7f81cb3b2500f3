import Glaber.Eval.Parse

namespace Glaber.Eval

section

def operandTypes : List TokenType :=
  [tokenVarNum, tokenVarStr, tokenVarMacro, tokenVarUserMacro, tokenVarLldMacro, tokenFunctionid, tokenArgPeriod]

def unaryTypes : List TokenType := [tokenOpMinus, tokenOpNot]

def binaryTypes : List TokenType :=
  [tokenOpAdd, tokenOpSub, tokenOpMul, tokenOpDiv, tokenOpEq, tokenOpNe, tokenOpLt, tokenOpGt, tokenOpLe, tokenOpGe,
    tokenOpAnd, tokenOpOr]

def textTypes : List TokenType :=
  [tokenGroupOpen, tokenGroupClose, tokenComma, tokenFunction] ++ (operandTypes ++ (unaryTypes ++ binaryTypes))

structure PlainRules (rules : Rules) : Prop where
  query : allows rules parseItemQuery = false
  compound : allows rules parseCompoundConst = false
  property : allows rules parseProperty = false

lemma plainRules_of_trigger {rules : Rules} (h : rules = parseTriggerExpression ∨ rules = triggerExpression) :
    PlainRules rules := by
  rcases h with rfl | rfl <;> exact ⟨by decide, by decide, by decide⟩

end

variable {D : Type} {S : Scanners} {p q : Parser D} {token : Token D} {pos : ℕ}

structure Reads (p : Parser D) (pos : ℕ) (token : Token D) (q : Parser D) : Prop where
  expression : q.expression = p.expression
  rules : q.rules = p.rules
  last : q.lastTokenType = p.lastTokenType
  stack : q.stack = p.stack
  ops : q.ops = p.ops
  type : token.type ∈ textTypes
  function : token.type = tokenFunction → token.opt = UInt32.ofNat p.stack.length ∧ p.char (token.loc.r + 1) = '('
  progress : pos ≤ token.loc.r

section

lemma numberParse_pos {number : List Char} {len : ℕ} (h : numberParse number = some len) : 1 ≤ len := by
  obtain ⟨exponent, -, h⟩ := Option.bind_eq_some_iff.mp h
  split_ifs at h with hd
  cases h
  have hle := List.countP_le_length (p := Char.isDigit) (l := number.takeWhile fun c => c.isDigit || c = '.')
  push Not at hd
  omega

lemma suffixedNumberParse_pos {number : List Char} {len : ℕ} (h : suffixedNumberParse number = some len) : 1 ≤ len := by
  obtain ⟨n, hn, h⟩ := Option.bind_eq_some_iff.mp h
  have hpos := numberParse_pos hn
  split at h
  · split_ifs at h
    · cases h
      omega
    · cases h
      exact hpos
  · cases h
    exact hpos

lemma evalParseNumber_le {r : ℕ} (h : evalParseNumber S p pos = some r) : pos ≤ r := by
  obtain ⟨len, hlen, h⟩ := Option.bind_eq_some_iff.mp h
  have hpos := suffixedNumberParse_pos hlen
  split_ifs at h <;> cases h <;> omega

end

section

lemma updateConst_reads {token' : Token D} (ht : token.type ∈ textTypes) (hf : token.type ≠ tokenFunction)
    (hr : pos ≤ token.loc.r) (h : evalUpdateConstVariable p token = (token', q)) : Reads p pos token' q := by
  rw [evalUpdateConstVariable] at h
  split_ifs at h
  · cases h
    exact ⟨rfl, rfl, rfl, rfl, rfl, ht, fun he => absurd he hf, hr⟩
  · cases h
    exact ⟨rfl, rfl, rfl, rfl, rfl, ht, fun he => absurd he hf, hr⟩

lemma charToken_reads {type : TokenType} {r : ℕ} (ht : type ∈ textTypes) (hf : type ≠ tokenFunction) (hr : pos ≤ r) :
    Reads p pos (charToken type pos r) p :=
  ⟨rfl, rfl, rfl, rfl, rfl, ht, fun he => absurd he hf, hr⟩

lemma evalParseSign_reads {mask : Rules} {t : Token D} (ht : Reads p pos t p)
    (h : evalParseSign p mask t pos = .ok (token, q)) : Reads p pos token q := by
  rw [evalParseSign] at h
  split_ifs at h
  cases h
  exact ht

lemma macroType_mem (kind : MacroKind) : macroType kind tokenNop = tokenNop ∨ macroType kind tokenNop ∈ operandTypes := by
  cases kind <;> decide

lemma constantLoop_spec (pos : ℕ) (hrules : PlainRules p.rules) (fuel : ℕ) :
    let read := constantLoop S p pos (fuel + 1) pos tokenNop false
    read.1 = tokenNop ∨ read.1 ∈ operandTypes ∧ pos + 1 ≤ read.2 := by
  have hcompound : p.allowed parseCompoundConst = false := hrules.compound
  simp only [constantLoop, hcompound, Bool.false_eq_true, if_false]
  split_ifs
  · split
    · exact .inl rfl
    · rename_i kind r hmacro
      split_ifs
      · exact .inr ⟨show tokenVarNum ∈ operandTypes by decide, by simp only; omega⟩
      · rcases macroType_mem kind with ht | ht
        · exact .inl ht
        · exact .inr ⟨ht, by simp only; omega⟩
  · split
    · rename_i r hr
      have hle := evalParseNumber_le hr
      exact .inr ⟨show tokenVarNum ∈ operandTypes by decide, by simp only; omega⟩
    · exact .inl rfl
  · split
    · rename_i r hr
      have hle := evalParseNumber_le hr
      exact .inr ⟨show tokenVarNum ∈ operandTypes by decide, by simp only; omega⟩
    · exact .inl rfl

lemma operandTypes_text {type : TokenType} (h : type ∈ operandTypes) : type ∈ textTypes ∧ type ≠ tokenFunction := by
  revert type
  decide

lemma evalParseConstant_reads (hrules : PlainRules p.rules) (h : evalParseConstant S p pos = .ok (token, q)) :
    Reads p pos token q := by
  have hspec := constantLoop_spec (S := S) pos hrules p.expression.length
  rw [evalParseConstant] at h
  revert h hspec
  generalize constantLoop S p pos (p.expression.length + 1) pos tokenNop false = read
  obtain ⟨type, offset⟩ := read
  simp only
  intro h hspec
  split_ifs at h with hnop hnum hconst
  · obtain ⟨htext, hf⟩ := operandTypes_text (hspec.resolve_left hnop).1
    have hle := (hspec.resolve_left hnop).2
    exact updateConst_reads htext hf (show pos ≤ offset - 1 by omega) (Except.ok.inj h)
  · obtain ⟨htext, hf⟩ := operandTypes_text (hspec.resolve_left hnop).1
    have hle := (hspec.resolve_left hnop).2
    cases h
    exact charToken_reads htext hf (by omega)

lemma evalParseNumberToken_reads (h : evalParseNumberToken S p pos = some (token, q)) : Reads p pos token q := by
  obtain ⟨r, hr, h⟩ := Option.bind_eq_some_iff.mp h
  obtain ⟨htext, hf⟩ := operandTypes_text (show tokenVarNum ∈ operandTypes by decide)
  exact updateConst_reads htext hf (evalParseNumber_le hr) (Option.some.inj h)

lemma evalParseFunctionid_reads (h : evalParseFunctionid p pos = some (token, q)) : Reads p pos token q := by
  obtain ⟨r, hr, h⟩ := Option.bind_eq_some_iff.mp h
  obtain ⟨htext, hf⟩ := operandTypes_text (show tokenFunctionid ∈ operandTypes by decide)
  cases h
  exact ⟨rfl, rfl, rfl, rfl, rfl, htext, fun he => absurd he hf, by simp only; omega⟩

lemma evalParseStringToken_reads (h : evalParseStringToken p pos = .ok (token, q)) : Reads p pos token q := by
  rw [evalParseStringToken] at h
  split at h
  · rename_i n _
    obtain ⟨htext, hf⟩ := operandTypes_text (show tokenVarStr ∈ operandTypes by decide)
    exact updateConst_reads htext hf (show pos ≤ pos + 1 + n by omega) (Except.ok.inj h)
  · cases h
  · cases h

lemma periodLoop_le {fuel offset r : ℕ} (h : periodLoop S p fuel offset = some r) : offset ≤ r := by
  induction fuel generalizing offset with
  | zero => cases h
  | succ fuel ih =>
    rw [periodLoop] at h
    split_ifs at h
    · split at h
      · have hle := ih h
        omega
      · have hle := ih h
        omega
    · cases h
      exact le_rfl
    · have hle := ih h
      omega

lemma evalParsePeriodToken_reads (hrules : PlainRules p.rules)
    (hc : p.char pos = '\x7b' ∨ p.char pos = '#' ∨ (p.char pos).isDigit = true)
    (h : evalParsePeriodToken S p pos = .ok (token, q)) : Reads p pos token q := by
  have hcompound : p.allowed parseCompoundConst = false := hrules.compound
  have hmid : (p.char pos = ',' ∨ p.char pos = ')') ∨ isWhitespace (p.char pos) = true → False := by
    rintro ((he | he) | he)
    · rw [he] at hc
      revert hc
      decide
    · rw [he] at hc
      revert hc
      decide
    · rw [isWhitespace, Bool.or_eq_true, Bool.and_eq_true, decide_eq_true_eq, decide_eq_true_eq, decide_eq_true_eq] at he
      rcases he with he | he
      · rw [he] at hc
        revert hc
        decide
      · rcases hc with hc | hc | hc
        · rw [hc] at he
          revert he
          decide
        · rw [hc] at he
          revert he
          decide
        · rw [Char.isDigit, Bool.and_eq_true, decide_eq_true_eq, decide_eq_true_eq] at hc
          have hle : 48 ≤ (p.char pos).toNat := UInt32.le_iff_toNat_le.mp hc.1
          omega
  rw [evalParsePeriodToken] at h
  split at h
  · rename_i offset hoff
    rw [periodLoop] at hoff
    simp only [hcompound, Bool.and_false, Bool.false_eq_true, if_false] at hoff
    split_ifs at hoff with hz hm
    · rw [Bool.or_eq_true, Bool.or_eq_true, decide_eq_true_eq, decide_eq_true_eq] at hm
      exact (hmid hm).elim
    · have hle := periodLoop_le hoff
      cases h
      exact charToken_reads (by decide) (by decide) (by omega)
  · cases h

lemma keyword_reads {word : List Char} {type : TokenType} (ht : type ∈ textTypes) (hf : type ≠ tokenFunction)
    (hw : word ≠ []) (h : keyword p pos word type = some token) : Reads p pos token p := by
  rw [keyword] at h
  have hlen := List.length_pos_of_ne_nil hw
  split_ifs at h
  cases h
  exact charToken_reads ht hf (by omega)

lemma evalParseLogicToken_reads (h : evalParseLogicToken p pos = some token) : Reads p pos token p := by
  rw [evalParseLogicToken] at h
  split_ifs at h
  · exact keyword_reads (by decide) (by decide) (by decide) h
  · exact keyword_reads (by decide) (by decide) (by decide) h
  · exact keyword_reads (by decide) (by decide) (by decide) h

lemma evalParseFunctionToken_reads (hc : (p.char pos).isAlpha = true) (h : evalParseFunctionToken p pos = some token) :
    Reads p pos token p := by
  have hne : (p.rest pos).takeWhile isNameChar ≠ [] := by
    cases hr : p.rest pos with
    | nil =>
      have hlen := List.drop_eq_nil_iff.mp hr
      rw [Parser.char, List.getD_eq_getElem?_getD, List.getElem?_eq_none hlen] at hc
      revert hc
      decide
    | cons c tail =>
      have hchar : p.char pos = c := by
        rw [Parser.char, List.getD_eq_getElem?_getD, ← List.head?_drop]
        rw [Parser.rest] at hr
        rw [hr]
        rfl
      rw [hchar] at hc
      simp [isNameChar, hc]
  have hlen := List.length_pos_of_ne_nil hne
  rw [evalParseFunctionToken] at h
  split_ifs at h with hopen
  cases h
  refine ⟨rfl, rfl, rfl, rfl, rfl, show tokenFunction ∈ textTypes by decide, fun _ => ⟨rfl, ?_⟩, by simp only; omega⟩
  simp only
  rwa [show pos + ((p.rest pos).takeWhile isNameChar).length - 1 + 1 = pos + ((p.rest pos).takeWhile isNameChar).length by
    omega]

lemma evalParseBrace_reads (hrules : PlainRules p.rules) (hc : p.char pos = '\x7b')
    (h : evalParseBrace S p pos = .ok (token, q)) : Reads p pos token q := by
  rw [evalParseBrace] at h
  split_ifs at h with hq hid
  · exact evalParsePeriodToken_reads hrules (.inl hc) h
  · split at h
    · rename_i read hread
      cases h
      exact evalParseFunctionid_reads hread
    · exact evalParseConstant_reads hrules h
  · exact evalParseConstant_reads hrules h

lemma evalParseMinus_reads (h : evalParseMinus S p pos = .ok (token, q)) : Reads p pos token q := by
  rw [evalParseMinus] at h
  split at h
  · rename_i read hread
    cases h
    split_ifs at hread
    exact evalParseNumberToken_reads hread
  · split_ifs at h
    · cases h
      exact charToken_reads (by decide) (by decide) le_rfl
    · cases h
      exact charToken_reads (by decide) (by decide) le_rfl

lemma evalParseSlash_reads (hrules : PlainRules p.rules) (h : evalParseSlash S p pos = .ok (token, q)) :
    Reads p pos token q := by
  have hquery : p.allowed parseItemQuery = false := hrules.query
  rw [evalParseSlash, if_neg (by rw [hquery]; exact fun hand => Bool.false_ne_true hand.2)] at h
  split_ifs at h
  cases h
  exact charToken_reads (by decide) (by decide) le_rfl

lemma orElse_cases {α : Type} {a b : Option α} {x : α} (h : (a.orElse fun _ => b) = some x) : a = some x ∨ b = some x := by
  cases a with
  | none => exact .inr h
  | some y => exact .inl h

lemma evalParseWord_reads (hrules : PlainRules p.rules) (hc : (p.char pos).isAlpha = true) {skip : ℕ}
    (h : evalParseWord p skip pos = .ok (token, q)) : Reads p pos token q := by
  have hproperty : p.allowed parseProperty = false := hrules.property
  simp only [evalParseWord, hproperty, Bool.false_eq_true, if_false] at h
  split at h
  · rename_i t hread
    cases h
    rcases orElse_cases hread with hread | hread
    · split_ifs at hread
      exact evalParseLogicToken_reads hread
    · rcases orElse_cases hread with hread | hread
      · split_ifs at hread
        exact evalParseFunctionToken_reads hc hread
      · cases hread
  · cases h

lemma evalParseLessCharacterToken_reads (h : evalParseLessCharacterToken p pos = some token) : Reads p pos token p := by
  rw [evalParseLessCharacterToken] at h
  split_ifs at h
  all_goals
    cases h
    exact charToken_reads (by decide) (by decide) (by omega)

lemma evalParseLess_reads (h : evalParseLess p pos = .ok (token, q)) : Reads p pos token q := by
  rw [evalParseLess] at h
  split at h
  · rename_i t hread
    cases h
    split_ifs at hread
    exact evalParseLessCharacterToken_reads hread
  · cases h

lemma evalParseGreater_reads : Reads p pos (evalParseGreaterCharacterToken p pos) p := by
  rw [evalParseGreaterCharacterToken]
  split_ifs
  · exact charToken_reads (by decide) (by decide) (by omega)
  · exact charToken_reads (by decide) (by decide) (by omega)

lemma evalParseAt_reads (hrules : PlainRules p.rules) {skip : ℕ}
    (h : evalParseAt S p skip pos (p.char pos) = .ok (token, q)) (hnop : token.type ≠ tokenNop) : Reads p pos token q := by
  have hsign : ∀ {mask type}, type ∈ textTypes → type ≠ tokenFunction →
      evalParseSign p mask (charToken type pos pos) pos = .ok (token, q) → Reads p pos token q :=
    fun ht hf h => evalParseSign_reads (charToken_reads ht hf le_rfl) h
  rw [evalParseAt] at h
  by_cases hbrace : p.char pos = '\x7b'
  · rw [if_pos hbrace] at h
    exact evalParseBrace_reads hrules hbrace h
  rw [if_neg hbrace] at h
  by_cases hplus : p.char pos = '+'
  · rw [if_pos hplus] at h
    exact hsign (by decide) (by decide) h
  rw [if_neg hplus] at h
  by_cases hminus : p.char pos = '-'
  · rw [if_pos hminus] at h
    exact evalParseMinus_reads h
  rw [if_neg hminus] at h
  by_cases hslash : p.char pos = '/'
  · rw [if_pos hslash] at h
    exact evalParseSlash_reads hrules h
  rw [if_neg hslash] at h
  by_cases hstar : p.char pos = '*'
  · rw [if_pos hstar] at h
    exact hsign (by decide) (by decide) h
  rw [if_neg hstar] at h
  by_cases hless : p.char pos = '<'
  · rw [if_pos hless] at h
    exact evalParseLess_reads h
  rw [if_neg hless] at h
  by_cases hgreater : p.char pos = '>'
  · rw [if_pos hgreater] at h
    exact evalParseSign_reads evalParseGreater_reads h
  rw [if_neg hgreater] at h
  by_cases hequal : p.char pos = '='
  · rw [if_pos hequal] at h
    exact hsign (by decide) (by decide) h
  rw [if_neg hequal] at h
  by_cases hopen : p.char pos = '('
  · rw [if_pos hopen] at h
    exact hsign (by decide) (by decide) h
  rw [if_neg hopen] at h
  by_cases hclose : p.char pos = ')'
  · rw [if_pos hclose] at h
    exact hsign (by decide) (by decide) h
  rw [if_neg hclose] at h
  by_cases hquote : p.char pos = '"'
  · rw [if_pos hquote] at h
    split_ifs at h
    exact evalParseStringToken_reads h
  rw [if_neg hquote] at h
  by_cases hdigit : (p.char pos).isDigit ∧ afterQuery p
  · rw [if_pos hdigit] at h
    exact evalParsePeriodToken_reads hrules (.inr (.inr hdigit.1)) h
  rw [if_neg hdigit] at h
  by_cases hnum : (p.char pos).isDigit ∨ p.char pos = '.'
  · rw [if_pos hnum] at h
    split_ifs at h
    exact evalParseConstant_reads hrules h
  rw [if_neg hnum] at h
  by_cases hhash : p.char pos = '#'
  · rw [if_pos hhash] at h
    split_ifs at h
    exact evalParsePeriodToken_reads hrules (.inr (.inl hhash)) h
  rw [if_neg hhash] at h
  by_cases hcomma : p.char pos = ','
  · rw [if_pos hcomma] at h
    exact hsign (by decide) (by decide) h
  rw [if_neg hcomma] at h
  by_cases hend : p.char pos = '\x00'
  · rw [if_pos hend] at h
    cases h
    exact absurd rfl hnop
  rw [if_neg hend] at h
  by_cases hword : (p.char pos).isAlpha
  · rw [if_pos hword] at h
    exact evalParseWord_reads hrules hword h
  rw [if_neg hword] at h
  cases h

lemma evalParseToken_reads (hrules : PlainRules p.rules) {start : ℕ} (h : evalParseToken S p start = .ok (token, q))
    (hnop : token.type ≠ tokenNop) : Reads p start token q := by
  have hreads := evalParseAt_reads hrules h hnop
  exact { hreads with progress := le_trans (Nat.le_add_right start _) hreads.progress }

end

end Glaber.Eval
