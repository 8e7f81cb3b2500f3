import Glaber.Eval.Render
import Glaber.Lib.Parts

namespace Glaber.Eval

open Glaber.Lib.Spans

variable {D : Type} {S : Scanners} {p : Parser D} {pos : ℕ} {tail : List Char}

section

lemma rest_add (p : Parser D) (pos k : ℕ) : p.rest (pos + k) = (p.rest pos).drop k := by
  rw [Parser.rest, Parser.rest, List.drop_drop]

lemma char_eq (p : Parser D) (pos : ℕ) : p.char pos = (p.rest pos).headD '\x00' := by
  rw [Parser.char, Parser.rest, List.getD_eq_getElem?_getD, List.headD_eq_head?_getD, List.head?_drop]

structure Word (p : Parser D) (pos : ℕ) (blanks word tail : List Char) : Prop where
  rest : p.rest pos = blanks ++ (word ++ tail)
  blank : ∀ c ∈ blanks, isWhitespace c = true
  first : ∃ c, word.head? = some c ∧ isWhitespace c = false ∧ c ≠ '\x00'

variable {blanks word : List Char}

lemma Word.skip (h : Word p pos blanks word tail) : evalGetWhitespaceLen p pos = blanks.length := by
  obtain ⟨c, hc, hw, -⟩ := h.first
  have hstop : Lib.Spans.Ends isWhitespace (word ++ tail) := by
    intro d hd
    rw [List.head?_append, hc] at hd
    cases hd
    exact hw
  rw [evalGetWhitespaceLen, h.rest, takeWhile_run h.blank hstop]

lemma Word.at (h : Word p pos blanks word tail) : p.rest (pos + blanks.length) = word ++ tail := by
  rw [rest_add, h.rest, List.drop_left]

lemma Word.behind (h : Word p pos blanks word tail) : p.rest (pos + blanks.length + word.length) = tail := by
  rw [rest_add, h.at, List.drop_left]

lemma Word.length_pos (h : Word p pos blanks word tail) : 0 < word.length := by
  obtain ⟨c, hc, -⟩ := h.first
  cases word with
  | nil => cases hc
  | cons d word => exact Nat.succ_pos _

lemma Word.length (h : Word p pos blanks word tail) :
    pos + blanks.length + word.length + tail.length = p.expression.length := by
  have hlen := congrArg List.length h.rest
  have hpos := h.length_pos
  rw [Parser.rest, List.length_drop, List.length_append, List.length_append] at hlen
  omega

lemma Word.char_ne (h : Word p pos blanks word tail) : p.char pos ≠ '\x00' := by
  obtain ⟨c, hc, -, hend⟩ := h.first
  rw [char_eq, h.rest]
  cases blanks with
  | nil =>
    cases word with
    | nil => cases hc
    | cons d word =>
      cases hc
      exact hend
  | cons d blanks =>
    intro he
    have hblank := h.blank d List.mem_cons_self
    rw [show d = '\x00' from he] at hblank
    exact absurd hblank (by decide)

lemma Word.token (h : Word p pos blanks word tail) : evalParseToken S p pos =
    evalParseAt S p blanks.length (pos + blanks.length) (p.char (pos + blanks.length)) := by
  rw [evalParseToken, h.skip]

end

section

lemma follow_classes : ∀ c ∈ [')', ',', ' ', '*', '/', '+', '-', '<', '>', '='], (c.isDigit || c = '.') = false ∧
    c.isDigit = false ∧ c ≠ '.' ∧ isExponentMark c = false ∧ c ∉ zbxUnitSymbols ∧ c ≠ '\x7b' := by
  decide

lemma next_append {text : List Char} (htail : Follow tail)
    (h : ¬(text.head? = some '.' ∨ (text.head?.map isExponentMark).getD false = true)) :
    ¬((text ++ tail).head? = some '.' ∨ ((text ++ tail).head?.map isExponentMark).getD false = true) := by
  cases text with
  | nil =>
    cases tail with
    | nil => exact h
    | cons c tail =>
      obtain ⟨-, -, hdot, hmark, -⟩ := follow_classes c (htail c rfl)
      simp [hdot, hmark]
  | cons c text => exact h

lemma exponentDigits_append {text : List Char} {sign len : ℕ} (htail : Follow tail) (hsign : sign ≤ text.length)
    (h : (let digits := (text.drop sign).takeWhile Char.isDigit
      let next := ((text.drop sign).drop digits.length).head?
      if digits = [] ∨ next = some '.' ∨ (next.map isExponentMark).getD false then none
      else some (1 + sign + digits.length)) = some len) :
    (let digits := ((text ++ tail).drop sign).takeWhile Char.isDigit
      let next := (((text ++ tail).drop sign).drop digits.length).head?
      if digits = [] ∨ next = some '.' ∨ (next.map isExponentMark).getD false then none
      else some (1 + sign + digits.length)) = some len := by
  have hstop : Lib.Spans.Ends Char.isDigit tail := fun c hc => (follow_classes c (htail c hc)).2.1
  have hle : ((text.drop sign).takeWhile Char.isDigit).length ≤ (text.drop sign).length := (List.takeWhile_prefix _).length_le
  simp only at h
  simp only [List.drop_append_of_le_length hsign, hstop.takeWhile_append, List.drop_append_of_le_length hle]
  split_ifs at h with hnone
  rw [not_or] at hnone
  rw [if_neg (not_or.mpr ⟨hnone.1, next_append htail hnone.2⟩)]
  exact h

lemma exponentParse_append {text : List Char} {len : ℕ} (htail : Follow tail) (h : exponentParse text = some len) :
    exponentParse (text ++ tail) = some len := by
  cases text with
  | nil =>
    cases h
    cases tail with
    | nil => rfl
    | cons c tail => rw [List.nil_append, exponentParse, (follow_classes c (htail c rfl)).2.2.2.1, if_neg Bool.false_ne_true]
  | cons c text =>
    rw [exponentParse] at h
    rw [List.cons_append, exponentParse]
    by_cases hmark : isExponentMark c = true
    · rw [if_pos hmark] at h ⊢
      cases text with
      | nil => simp at h
      | cons d text =>
        refine exponentDigits_append htail ?_ h
        split_ifs <;> simp
    · rw [if_neg hmark] at h ⊢
      exact h

lemma numberParse_append {text : List Char} {len : ℕ} (htail : Follow tail) (h : numberParse text = some len) :
    numberParse (text ++ tail) = some len := by
  have hstop : Lib.Spans.Ends (fun c => c.isDigit || decide (c = '.')) tail := fun c hc => (follow_classes c (htail c hc)).1
  obtain ⟨exponent, hexp, h⟩ := Option.bind_eq_some_iff.mp h
  rw [numberParse]
  simp only [hstop.takeWhile_append]
  have hle : (text.takeWhile fun c => c.isDigit || decide (c = '.')).length ≤ text.length := (List.takeWhile_prefix _).length_le
  rw [List.drop_append_of_le_length hle, exponentParse_append htail hexp]
  exact h

lemma Number.parse_append (n : Number) (htail : Follow tail) :
    suffixedNumberParse (n.text ++ tail) = some n.text.length := by
  obtain ⟨len, hlen, h⟩ := Option.bind_eq_some_iff.mp n.whole
  have happ := numberParse_append htail hlen
  rw [suffixedNumberParse, happ]
  rw [Option.bind_eq_bind, Option.bind_some]
  cases hd : n.text.drop len with
  | nil =>
    rw [hd] at h
    have heq : len = n.text.length := Option.some.inj h
    rw [heq, List.drop_left]
    cases tail with
    | nil => rfl
    | cons c tail => exact if_neg (follow_classes c (htail c rfl)).2.2.2.2.1
  | cons c rest =>
    have hlt : len < n.text.length := by
      by_contra hge
      rw [List.drop_eq_nil_of_le (not_lt.mp hge)] at hd
      cases hd
    rw [List.drop_append_of_le_length (le_of_lt hlt), hd]
    rw [hd] at h
    exact h

end

section

structure Steady (p : Parser D) : Prop where
  rules : p.rules = parseTriggerExpression ∨ p.rules = triggerExpression
  short : p.expression.length < 2 ^ 31
  types : ∀ t ∈ p.stack, t.type ∈ stackTypes

def Gives (S : Scanners) (p : Parser D) (skip start : ℕ) (type : TokenType) (len : ℕ) : Prop :=
  ∃ token r, evalParseAt S p skip start (p.char start) = .ok (token, r) ∧ token.type = type ∧
    token.loc = ⟨start, start + len - 1⟩

lemma Steady.allows (h : Steady p) : ∀ mask ∈ [parseMath, parseCompare, parseCompareEq, parseCompareSort, parseLogic, parseVar,
    parseVarNum, parseVarStr, parseGroup, parseFunctionArgs, parseFunctionName], p.allowed mask = true := by
  have hboth : ∀ rules ∈ [parseTriggerExpression, triggerExpression], ∀ mask ∈ [parseMath, parseCompare, parseCompareEq,
      parseCompareSort, parseLogic, parseVar, parseVarNum, parseVarStr, parseGroup, parseFunctionArgs, parseFunctionName],
      Glaber.Eval.allows rules mask = true := by
    decide
  intro mask hm
  rcases h.rules with hr | hr
  · exact hboth _ (by rw [hr]; simp) mask hm
  · exact hboth _ (by rw [hr]; simp) mask hm

lemma Steady.afterQuery (h : Steady p) : afterQuery p = false := by
  have hquery : ∀ type ∈ stackTypes, type ≠ tokenArgQuery := by decide
  rw [Glaber.Eval.afterQuery]
  cases hl : p.stack.getLast? with
  | none => simp
  | some token =>
    have hne := hquery _ (h.types token (List.mem_of_getLast? hl))
    simp [hne]

variable {skip start : ℕ} {c : Char} {text : List Char}

lemma char_of_rest (h : p.rest start = c :: text) : p.char start = c := by
  rw [char_eq, h]
  rfl

lemma rest_of_rest (h : p.rest start = c :: text) : p.rest (start + 1) = text := by
  rw [rest_add, h]
  rfl

lemma Steady.number_at (h : Steady p) (hc : c.isDigit = true ∨ c = '.') :
    evalParseAt S p skip start c = evalParseConstant S p start := by
  have hother : ∀ d ∈ ['\x7b', '+', '-', '/', '*', '<', '>', '=', '(', ')', '"'], d.isDigit = false ∧ d ≠ '.' := by decide
  have hne : ∀ d ∈ ['\x7b', '+', '-', '/', '*', '<', '>', '=', '(', ')', '"'], c ≠ d := by
    rintro d hd rfl
    obtain ⟨hdigit, hdot⟩ := hother _ hd
    rcases hc with hc | hc
    · rw [hdigit] at hc
      cases hc
    · exact hdot hc
  rw [evalParseAt, if_neg (hne _ (by decide)), if_neg (hne _ (by decide)), if_neg (hne _ (by decide)),
    if_neg (hne _ (by decide)), if_neg (hne _ (by decide)), if_neg (hne _ (by decide)), if_neg (hne _ (by decide)),
    if_neg (hne _ (by decide)), if_neg (hne _ (by decide)), if_neg (hne _ (by decide)), if_neg (hne _ (by decide)),
    h.afterQuery, if_neg (fun hand => Bool.false_ne_true hand.2), if_pos hc, if_pos (h.allows _ (by decide))]

lemma numberParse_head {number : List Char} {len : ℕ} (h : numberParse number = some len) :
    ∃ c rest, number = c :: rest ∧ (c.isDigit = true ∨ c = '.') := by
  obtain ⟨exponent, -, h⟩ := Option.bind_eq_some_iff.mp h
  cases number with
  | nil => simp at h
  | cons c rest =>
    refine ⟨c, rest, rfl, ?_⟩
    by_contra hc
    rw [not_or] at hc
    simp [hc.1, hc.2] at h

lemma Number.head (n : Number) : ∃ c rest, n.text = c :: rest ∧ (c.isDigit = true ∨ c = '.') := by
  obtain ⟨len, hlen, -⟩ := Option.bind_eq_some_iff.mp n.whole
  exact numberParse_head hlen

lemma updateConst_gives (p : Parser D) (token : Token D) : ∃ token' r, evalUpdateConstVariable p token = (token', r) ∧
    token'.type = token.type ∧ token'.loc = token.loc := by
  rw [evalUpdateConstVariable]
  split_ifs
  · exact ⟨_, _, rfl, rfl, rfl⟩
  · exact ⟨_, _, rfl, rfl, rfl⟩

lemma char_last (h : p.rest start = text ++ tail) (hne : text ≠ []) : p.char (start + text.length - 1) ∈ text.getLast? := by
  have hpos := List.length_pos_of_ne_nil hne
  have hlt : text.length - 1 < text.length := by omega
  rw [Nat.add_sub_assoc hpos, char_eq, rest_add, h, List.drop_append_of_le_length (le_of_lt hlt),
    List.headD_eq_head?_getD, List.head?_append, List.head?_drop, List.getElem?_eq_getElem hlt]
  rw [List.getLast?_eq_getElem?, List.getElem?_eq_getElem hlt]
  rfl

lemma Number.ne_nil (n : Number) : n.text ≠ [] := by
  obtain ⟨c, rest, hn, -⟩ := n.head
  rw [hn]
  exact List.cons_ne_nil _ _

lemma Number.read (n : Number) (hrest : p.rest start = n.text ++ tail) (htail : Follow tail) (hfits : n.Fits S) :
    evalParseNumber S p start = some (start + n.text.length - 1) := by
  obtain ⟨c, rest, hn, hc⟩ := n.head
  have hcons : p.rest start = c :: (rest ++ tail) := by rw [hrest, hn, List.cons_append]
  have hchar : p.char start = c := char_of_rest hcons
  have hminus : c ≠ '-' := by
    rintro rfl
    revert hc
    decide
  rw [evalParseNumber, hchar, if_neg hminus]
  simp only [Nat.add_zero]
  rw [hrest, n.parse_append htail]
  change (if S.overflows (n.text ++ tail) (suffix2factor (p.char (start + n.text.length - 1))) = true then none
    else some (start + n.text.length - 1)) = _
  rw [(hfits tail htail _ (char_last hrest n.ne_nil)).1, if_neg Bool.false_ne_true]

lemma Number.read_signed (n : Number) (hrest : p.rest start = '-' :: (n.text ++ tail)) (htail : Follow tail)
    (hfits : n.Fits S) : evalParseNumber S p start = some (start + n.text.length) := by
  have hpos := List.length_pos_of_ne_nil n.ne_nil
  have hnext := rest_of_rest hrest
  have hlast := char_last hnext n.ne_nil
  rw [evalParseNumber, char_of_rest hrest, if_pos rfl, hnext, n.parse_append htail]
  change (if S.overflows (p.rest start) (suffix2factor (p.char (start + (n.text.length + 1) - 1))) = true then none
    else some (start + (n.text.length + 1) - 1)) = _
  rw [show start + (n.text.length + 1) - 1 = start + 1 + n.text.length - 1 by omega, hrest,
    (hfits tail htail _ hlast).2, if_neg Bool.false_ne_true, show start + 1 + n.text.length - 1 = start + n.text.length by
    omega]

lemma Steady.gives_number (h : Steady p) (n : Number) (hrest : p.rest start = n.text ++ tail) (htail : Follow tail)
    (hfits : n.Fits S) : Gives S p skip start tokenVarNum n.text.length := by
  obtain ⟨c, rest, hn, hc⟩ := n.head
  have hpos := List.length_pos_of_ne_nil n.ne_nil
  have hcons : p.rest start = c :: (rest ++ tail) := by rw [hrest, hn, List.cons_append]
  have hchar : p.char start = c := char_of_rest hcons
  have hbrace : c ≠ '\x7b' := by
    rintro rfl
    revert hc
    decide
  have hcompound : p.allowed parseCompoundConst = false := (plainRules_of_trigger h.rules).compound
  have hloop : constantLoop S p start (p.expression.length + 1) start tokenNop false =
      (tokenVarNum, start + n.text.length) := by
    rw [constantLoop, hchar, if_neg hbrace, if_neg Bool.false_ne_true, n.read hrest htail hfits, hcompound]
    simp only [if_neg Bool.false_ne_true]
    rw [Nat.sub_add_cancel (by omega)]
  rw [Gives, hchar, h.number_at hc, evalParseConstant, hloop]
  simp only
  rw [if_neg (by decide), if_neg fun hand => absurd hand.2 (by rw [h.allows _ (by decide)]; decide), if_pos (.inl trivial)]
  obtain ⟨token, r, hupdate, htype, hloc⟩ := updateConst_gives p
    (charToken tokenVarNum start (start + n.text.length - 1))
  exact ⟨token, r, congrArg Except.ok hupdate, htype, hloc⟩

lemma Steady.gives_signed (h : Steady p) (n : Number) (hrest : p.rest start = '-' :: (n.text ++ tail))
    (htail : Follow tail) (hfits : n.Fits S) (hlast : p.lastIs classOperand = false) :
    Gives S p skip start tokenVarNum ('-' :: n.text).length := by
  obtain ⟨token, r, hupdate, htype, hloc⟩ := updateConst_gives p (charToken tokenVarNum start (start + n.text.length))
  refine ⟨token, r, ?_, htype, hloc⟩
  rw [char_of_rest hrest]
  simp only [evalParseAt, Char.reduceEq, if_false, if_true]
  rw [evalParseMinus, h.allows _ (by decide), hlast, evalParseNumberToken, n.read_signed hrest htail hfits]
  exact congrArg Except.ok hupdate

lemma suffixedNumberParse_none (h : ∀ c ∈ text.head?, c.isDigit = false ∧ c ≠ '.') : suffixedNumberParse text = none := by
  cases hp : numberParse text with
  | none => rw [suffixedNumberParse, hp]; rfl
  | some len =>
    obtain ⟨c, rest, rfl, hc⟩ := numberParse_head hp
    obtain ⟨hdigit, hdot⟩ := h c rfl
    rcases hc with hc | hc
    · rw [hdigit] at hc
      cases hc
    · exact absurd hc hdot

lemma Steady.gives_minus (h : Steady p) (hrest : p.rest start = '-' :: text)
    (htext : ∀ c ∈ text.head?, c.isDigit = false ∧ c ≠ '.') (hlast : p.lastIs classOperand = false) :
    Gives S p skip start tokenOpMinus 1 := by
  have hnone : evalParseNumber S p start = none := by
    rw [evalParseNumber, char_of_rest hrest, if_pos rfl, rest_of_rest hrest, suffixedNumberParse_none htext]
    rfl
  refine ⟨charToken tokenOpMinus start start, p, ?_, rfl, rfl⟩
  rw [char_of_rest hrest]
  simp only [evalParseAt, Char.reduceEq, if_false, if_true]
  rw [evalParseMinus, h.allows parseVar (by decide), hlast, evalParseNumberToken, hnone, h.allows parseMath (by decide)]
  rfl

lemma Steady.gives_sub (h : Steady p) (hrest : p.rest start = '-' :: text) (hlast : p.lastIs classOperand = true) :
    Gives S p skip start tokenOpSub 1 := by
  refine ⟨charToken tokenOpSub start start, p, ?_, rfl, rfl⟩
  rw [char_of_rest hrest]
  simp only [evalParseAt, Char.reduceEq, if_false, if_true]
  rw [evalParseMinus, h.allows parseVar (by decide), hlast, h.allows parseMath (by decide)]
  rfl

def signTypes : List (Char × TokenType) :=
  [('+', tokenOpAdd), ('*', tokenOpMul), ('/', tokenOpDiv), ('=', tokenOpEq), ('(', tokenGroupOpen), (')', tokenGroupClose),
    (',', tokenComma)]

lemma Steady.gives_sign (h : Steady p) {type : TokenType} (hmem : (c, type) ∈ signTypes) (hrest : p.rest start = c :: text) :
    Gives S p skip start type 1 := by
  have hquery : p.allowed parseItemQuery = false := (plainRules_of_trigger h.rules).query
  refine ⟨charToken type start start, p, ?_, rfl, rfl⟩
  rw [char_of_rest hrest]
  simp only [signTypes, List.mem_cons, Prod.mk.injEq, List.not_mem_nil, or_false] at hmem
  rcases hmem with ⟨rfl, rfl⟩ | ⟨rfl, rfl⟩ | ⟨rfl, rfl⟩ | ⟨rfl, rfl⟩ | ⟨rfl, rfl⟩ | ⟨rfl, rfl⟩ | ⟨rfl, rfl⟩
  · simp only [evalParseAt, Char.reduceEq, if_false, if_true, evalParseSign, h.allows parseMath (by decide)]
  · simp only [evalParseAt, Char.reduceEq, if_false, if_true, evalParseSign, h.allows parseMath (by decide)]
  · simp only [evalParseAt, Char.reduceEq, if_false, if_true, evalParseSlash, hquery, h.allows parseMath (by decide),
      Bool.false_eq_true, and_false]
  · simp only [evalParseAt, Char.reduceEq, if_false, if_true, evalParseSign, h.allows parseCompareEq (by decide)]
  · simp only [evalParseAt, Char.reduceEq, if_false, if_true, evalParseSign, h.allows parseGroup (by decide)]
  · simp only [evalParseAt, Char.reduceEq, if_false, if_true, evalParseSign, h.allows parseGroup (by decide)]
  · have hdigit : ','.isDigit = false := by decide
    simp only [evalParseAt, Char.reduceEq, if_false, if_true, evalParseSign, h.allows parseFunctionArgs (by decide), hdigit,
      Bool.false_eq_true, false_and, or_false]

lemma Steady.gives_compare (h : Steady p) {sign : List Char} {type : TokenType}
    (hmem : (sign, type) ∈ [(['<', '>'], tokenOpNe), (['<', '='], tokenOpLe), (['<'], tokenOpLt), (['>', '='], tokenOpGe),
      (['>'], tokenOpGt)])
    (hrest : p.rest start = sign ++ text) (htext : ∀ c ∈ text.head?, c ≠ '=' ∧ c ≠ '>') :
    Gives S p skip start type sign.length := by
  have hnext : text.headD '\x00' ≠ '=' ∧ text.headD '\x00' ≠ '>' := by
    cases text with
    | nil => exact ⟨by decide, by decide⟩
    | cons c text => exact htext c rfl
  refine ⟨charToken type start (start + sign.length - 1), p, ?_, rfl, rfl⟩
  simp only [List.mem_cons, Prod.mk.injEq, List.not_mem_nil, or_false] at hmem
  rcases hmem with ⟨rfl, rfl⟩ | ⟨rfl, rfl⟩ | ⟨rfl, rfl⟩ | ⟨rfl, rfl⟩ | ⟨rfl, rfl⟩
  · have hchar : p.char (start + 1) = '>' := char_of_rest (rest_of_rest hrest)
    rw [char_of_rest hrest]
    simp only [evalParseAt, Char.reduceEq, if_false, if_true, evalParseLess, evalParseLessCharacterToken, hchar,
      h.allows parseCompare (by decide), h.allows parseCompareEq (by decide), decide_true, Bool.and_self]
    rfl
  · have hchar : p.char (start + 1) = '=' := char_of_rest (rest_of_rest hrest)
    rw [char_of_rest hrest]
    simp only [evalParseAt, Char.reduceEq, if_false, if_true, evalParseLess, evalParseLessCharacterToken, hchar,
      h.allows parseCompare (by decide), h.allows parseCompareSort (by decide), decide_false, Bool.and_false,
      Bool.false_eq_true, ne_eq, not_true_eq_false, Bool.true_eq_false]
    rfl
  · have hchar : p.char (start + 1) = text.headD '\x00' := by rw [char_eq, rest_of_rest hrest]; rfl
    rw [char_of_rest hrest]
    simp only [evalParseAt, Char.reduceEq, if_false, if_true, evalParseLess, evalParseLessCharacterToken, hchar, hnext.1,
      hnext.2, h.allows parseCompare (by decide), h.allows parseCompareSort (by decide), decide_false, Bool.and_false,
      Bool.false_eq_true, ne_eq, not_false_eq_true, Bool.true_eq_false]
    rfl
  · have hchar : p.char (start + 1) = '=' := char_of_rest (rest_of_rest hrest)
    rw [char_of_rest hrest]
    simp only [evalParseAt, Char.reduceEq, if_false, if_true, evalParseSign, evalParseGreaterCharacterToken, hchar,
      h.allows parseCompareSort (by decide)]
    rfl
  · have hchar : p.char (start + 1) = text.headD '\x00' := by rw [char_eq, rest_of_rest hrest]; rfl
    rw [char_of_rest hrest]
    simp only [evalParseAt, Char.reduceEq, if_false, if_true, evalParseSign, evalParseGreaterCharacterToken, hchar, hnext.1,
      h.allows parseCompareSort (by decide)]
    rfl

lemma stringLoop_plain {n : ℕ} (hend : '\x00' ≠ c) (hquote : ¬c = '"') (hback : ¬c = '\\') :
    stringLoop (c :: text) n = stringLoop text (n + 1) := by
  rw [stringLoop]
  · exact fun he => hend he.symm
  · exact hquote
  · exact fun he => absurd he hback
  · exact fun d more he => absurd he hback

lemma stringLoop_escape (hno : '\x00' ∉ text) (n : ℕ) :
    stringLoop (escape text ++ '"' :: tail) n = .ok (some (n + (escape text).length)) := by
  induction text generalizing n with
  | nil => rfl
  | cons c text ih =>
    rw [List.mem_cons, not_or] at hno
    rw [escape]
    split_ifs with hescaped
    · have hloop := ih hno.2 (n + 2)
      rw [List.cons_append, List.cons_append, stringLoop, if_pos hescaped, hloop, List.length_cons, List.length_cons]
      congr 2
      omega
    · rw [not_or] at hescaped
      have hloop := ih hno.2 (n + 1)
      rw [List.cons_append, stringLoop_plain hno.1 hescaped.1 hescaped.2, hloop, List.length_cons]
      congr 2
      omega

lemma Steady.gives_string (h : Steady p) (s : Quoted) (hrest : p.rest start = s.quoted ++ tail) :
    Gives S p skip start tokenVarStr s.quoted.length := by
  have hcons : p.rest start = '"' :: (escape s.text ++ '"' :: tail) := by
    rw [hrest, Quoted.quoted, List.cons_append, List.append_assoc]
    rfl
  have hlen : start + s.quoted.length - 1 = start + 1 + (escape s.text).length := by
    rw [Quoted.quoted, List.length_cons, List.length_append, List.length_singleton]
    omega
  obtain ⟨token, r, hupdate, htype, hloc⟩ :=
    updateConst_gives p (charToken tokenVarStr start (start + 1 + (escape s.text).length))
  refine ⟨token, r, ?_, htype, by rw [hlen]; exact hloc⟩
  rw [char_of_rest hcons]
  simp only [evalParseAt, Char.reduceEq, if_false, if_true, h.allows parseVarStr (by decide)]
  rw [evalParseStringToken, rest_of_rest hcons, stringLoop_escape s.no_end, Nat.zero_add]
  exact congrArg Except.ok hupdate

lemma alpha_code (hc : c.isAlpha = true) : 65 ≤ c.toNat := by
  replace hc : (decide (65 ≤ c.val ∧ c.val ≤ 90) || decide (97 ≤ c.val) && decide (c.val ≤ 122)) = true := hc
  simp only [Bool.or_eq_true, Bool.and_eq_true, decide_eq_true_eq] at hc
  rcases hc with hc | hc
  · exact UInt32.le_iff_toNat_le.mp hc.1
  · exact le_trans (by decide) (UInt32.le_iff_toNat_le.mp hc.1)

lemma digit_code (hc : c.isDigit = true) : 48 ≤ c.toNat ∧ c.toNat ≤ 57 := by
  simp only [Char.isDigit, Bool.and_eq_true, decide_eq_true_eq] at hc
  exact ⟨UInt32.le_iff_toNat_le.mp hc.1, UInt32.le_iff_toNat_le.mp hc.2⟩

lemma not_digit_of_alpha (hc : c.isAlpha = true) : c.isDigit = false := by
  by_contra hdigit
  have hlow := alpha_code hc
  have hhigh := (digit_code ((Bool.not_eq_false _).mp hdigit)).2
  omega

lemma nameChar_code (hc : isNameChar c = true) : 48 ≤ c.toNat := by
  simp only [isNameChar, Bool.or_eq_true, decide_eq_true_eq] at hc
  rcases hc with (hc | hc) | hc
  · exact le_trans (by decide) (alpha_code hc)
  · rw [hc]
    decide
  · exact (digit_code hc).1

lemma nameChar_no_end (hc : isNameChar c = true) : (c = '(' || isWhitespace c) = false := by
  have hcode := nameChar_code hc
  rw [isWhitespace, Bool.or_eq_false_iff, Bool.or_eq_false_iff, Bool.and_eq_false_iff, decide_eq_false_iff_not,
    decide_eq_false_iff_not, decide_eq_false_iff_not, decide_eq_false_iff_not]
  refine ⟨?_, ?_, .inr (by omega)⟩
  · rintro rfl
    exact absurd hcode (by decide)
  · rintro rfl
    exact absurd hcode (by decide)

lemma word_at (hc : c.isAlpha = true) : evalParseAt S p skip start c = evalParseWord p skip start := by
  have hother : ∀ d ∈ ['\x7b', '+', '-', '/', '*', '<', '>', '=', '(', ')', '"', '.', '#', ',', '\x00'],
      d.isAlpha = false := by
    decide
  have hne : ∀ d ∈ ['\x7b', '+', '-', '/', '*', '<', '>', '=', '(', ')', '"', '.', '#', ',', '\x00'], c ≠ d := by
    rintro d hd rfl
    rw [hother _ hd] at hc
    cases hc
  have hdigit := not_digit_of_alpha hc
  rw [evalParseAt, if_neg (hne _ (by decide)), if_neg (hne _ (by decide)), if_neg (hne _ (by decide)),
    if_neg (hne _ (by decide)), if_neg (hne _ (by decide)), if_neg (hne _ (by decide)), if_neg (hne _ (by decide)),
    if_neg (hne _ (by decide)), if_neg (hne _ (by decide)), if_neg (hne _ (by decide)), if_neg (hne _ (by decide)),
    hdigit, if_neg (fun hand => Bool.false_ne_true hand.1),
    if_neg (not_or.mpr ⟨Bool.false_ne_true, hne _ (by decide)⟩), if_neg (hne _ (by decide)), if_neg (hne _ (by decide)),
    if_neg (hne _ (by decide)), if_pos hc]

lemma Name.head (name : Name) : ∃ c rest, name.text = c :: rest ∧ c.isAlpha = true := by
  obtain ⟨c, hc, halpha⟩ := name.alpha
  cases hn : name.text with
  | nil =>
    rw [hn] at hc
    cases hc
  | cons d rest =>
    rw [hn] at hc
    exact ⟨d, rest, rfl, Option.mem_some_iff.mp hc ▸ halpha⟩

lemma Name.keyword_none (name : Name) {word : List Char} {type : TokenType} (hne : name.text ≠ word)
    (hword : ∀ c ∈ word, isNameChar c = true) (hrest : p.rest start = name.text ++ '(' :: tail)
    (hstarts : word <+: p.rest start) : keyword p start word type = none := by
  obtain ⟨more, hmore⟩ := hstarts
  have hsplit := hmore.trans hrest
  rcases List.append_eq_append_iff.mp hsplit with ⟨extra, htext, hextra⟩ | ⟨extra, hword', hextra⟩
  · cases extra with
    | nil =>
      rw [List.append_nil] at htext
      exact absurd htext hne
    | cons d extra =>
      have hmem : d ∈ name.text := by
        rw [htext]
        exact List.mem_append_right _ List.mem_cons_self
      have hchar : p.char (start + word.length) = d := by
        rw [char_eq, rest_add, hrest, htext, List.append_assoc, List.drop_left]
        rfl
      rw [keyword, hchar, nameChar_no_end (name.chars d hmem), if_neg Bool.false_ne_true]
  · cases extra with
    | nil =>
      rw [List.append_nil] at hword'
      exact absurd hword'.symm hne
    | cons d extra =>
      cases (List.cons.inj hextra).1
      have hname := hword '(' (by rw [hword']; exact List.mem_append_right _ List.mem_cons_self)
      exact absurd hname (by decide)

lemma Name.logic_none (name : Name) (hrest : p.rest start = name.text ++ '(' :: tail) :
    evalParseLogicToken p start = none := by
  obtain ⟨hand, hor, hnot⟩ := name.no_keyword
  rw [evalParseLogicToken]
  split_ifs with h1 h2 h3
  · exact name.keyword_none hand (by decide) hrest h1
  · exact name.keyword_none hor (by decide) hrest h2
  · exact name.keyword_none hnot (by decide) hrest h3
  · rfl

lemma Steady.gives_function (h : Steady p) (name : Name) (hrest : p.rest start = name.text ++ '(' :: tail) :
    Gives S p skip start tokenFunction name.text.length := by
  obtain ⟨c, rest, hn, hc⟩ := name.head
  have hcons : p.rest start = c :: (rest ++ '(' :: tail) := by rw [hrest, hn, List.cons_append]
  have hname : (p.rest start).takeWhile isNameChar = name.text := by
    rw [hrest, takeWhile_run name.chars (ends_cons (by decide) _)]
  have hchar : p.char (start + name.text.length) = '(' := by
    rw [char_eq, rest_add, hrest, List.drop_left]
    rfl
  refine ⟨⟨tokenFunction, UInt32.ofNat p.stack.length, ⟨start, start + name.text.length - 1⟩, .none⟩, p, ?_, rfl, rfl⟩
  rw [char_of_rest hcons, word_at hc]
  simp only [evalParseWord, name.logic_none hrest, h.allows parseFunctionName (by decide), evalParseFunctionToken, hname, hchar,
    if_true, ite_self]
  rfl

lemma Steady.gives_keyword (h : Steady p) {word : List Char} {type : TokenType} (hskip : skip ≠ 0)
    (hmem : (word, type) ∈ [(['a', 'n', 'd'], tokenOpAnd), (['o', 'r'], tokenOpOr), (['n', 'o', 't'], tokenOpNot)])
    (hrest : p.rest start = word ++ ' ' :: tail) : Gives S p skip start type word.length := by
  have hchar : p.char (start + word.length) = ' ' := by
    rw [char_eq, rest_add, hrest, List.drop_left]
    rfl
  have hkeyword : keyword p start word type = some (charToken type start (start + word.length - 1)) := by
    rw [keyword, hchar]
    rfl
  have hlogic : evalParseLogicToken p start = some (charToken type start (start + word.length - 1)) := by
    simp only [List.mem_cons, Prod.mk.injEq, List.not_mem_nil, or_false] at hmem
    rcases hmem with ⟨rfl, rfl⟩ | ⟨rfl, rfl⟩ | ⟨rfl, rfl⟩
    · rw [evalParseLogicToken, hrest, if_pos (by simp), hkeyword]
    · rw [evalParseLogicToken, hrest, if_neg (by simp), if_pos (by simp), hkeyword]
    · rw [evalParseLogicToken, hrest, if_neg (by simp), if_neg (by simp), if_pos (by simp), hkeyword]
  have hhead : ∃ c rest, word = c :: rest ∧ c.isAlpha = true := by
    simp only [List.mem_cons, Prod.mk.injEq, List.not_mem_nil, or_false] at hmem
    rcases hmem with ⟨rfl, -⟩ | ⟨rfl, -⟩ | ⟨rfl, -⟩
    · exact ⟨_, _, rfl, by decide⟩
    · exact ⟨_, _, rfl, by decide⟩
    · exact ⟨_, _, rfl, by decide⟩
  obtain ⟨c, rest, hw, hc⟩ := hhead
  have hcons : p.rest start = c :: (rest ++ ' ' :: tail) := by rw [hrest, hw, List.cons_append]
  refine ⟨charToken type start (start + word.length - 1), p, ?_, rfl, rfl⟩
  rw [char_of_rest hcons, word_at hc]
  simp only [evalParseWord, hlogic, h.allows parseLogic (by decide), hskip, ne_eq, not_false_eq_true, decide_true,
    Bool.true_or, Bool.and_self, if_true]
  rfl

end

end Glaber.Eval
