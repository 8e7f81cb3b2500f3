import Glaber.Expr.FunctionParam
import Glaber.Lib.Parts

/-! The texts of user macros (`macro.c` of `zbxexpr`). -/

namespace Glaber.Macros

abbrev Text := List Char

/-- `ZBX_CONDITION_OPERATOR_EQUAL` comes before `ZBX_CONDITION_OPERATOR_REGEXP`. -/
inductive ContextOp where
  | equal
  | regexp
deriving DecidableEq

section

def charAt (text : Text) (i : ℕ) : Char := text.getD i '\x00'

def isMacroChar (c : Char) : Bool := c.isUpper || c == '.' || c == '_' || c.isDigit

def spaces (text : Text) : ℕ := (text.takeWhile (· == ' ')).length

def macroRegexPrefix : Text := "regex:".toList

structure Parsed where
  macroR : ℕ
  contextL : ℕ
  contextR : ℕ
  contextOp : ContextOp

def quotedLength : Text → Option ℕ
  | [] => none
  | '"' :: _ => some 0
  | '\\' :: '"' :: text => (quotedLength text).map (· + 2)
  | _ :: text => (quotedLength text).map (· + 1)

def unquoteLoop (quoted : Bool) : ℕ → Text → Text
  | 0, _ => []
  | _, [] => []
  | len + 1, '\\' :: '"' :: text =>
    if quoted then '"' :: unquoteLoop quoted (len - 1) text else '\\' :: unquoteLoop quoted len ('"' :: text)
  | len + 1, c :: text => c :: unquoteLoop quoted len text

def unquoteContext (context : Text) (len : ℕ) : Text :=
  match context with
  | '"' :: context => (unquoteLoop true (len - 1) context).dropLast
  | context => unquoteLoop false len context

end

section

def strsplitLast (src : Text) (delimiter : Char) : Option (Text × Text) :=
  if delimiter ∈ src then
    let right := (src.reverse.takeWhile (· != delimiter)).reverse
    some (src.take (src.length - right.length - 1), right)
  else none

def sameIgnoringCase (a b : Text) : Bool := a.map Char.toLower == b.map Char.toLower

/-- `zbx_config_vault_t`, with the program type. -/
structure ConfigVault where
  server : Bool
  dbPath : Option Text

/-- The path and the key of a location that `um_macro_register_kvs` takes. -/
def vaultLocation (vault : ConfigVault) (location : Text) : Option (Text × Text) := do
  let (path, key) ← strsplitLast location ':'
  let credentials := vault.server && vault.dbPath.any (sameIgnoringCase · path) &&
    (sameIgnoringCase key "password".toList || sameIgnoringCase key "username".toList)
  if credentials then none else some (path, key)

example : strsplitLast "secret/zabbix:a:b".toList ':' = some ("secret/zabbix:a".toList, "b".toList) := by decide

end

/-! Contexts of user macros quoted for a macro text and read back from it (`macro.c` of `zbxexpr`). -/

open Glaber.Lib
open Glaber.Expr.FunctionParam (escape escapeChar escape_cons escape_concat escape_head)

section

def contextParse (macroText : Text) (contextOp : ContextOp) (i : ℕ) : Option Parsed :=
  let contextL := i + spaces (macroText.drop i)
  if charAt macroText contextL = '"' then do
    let n ← quotedLength (macroText.drop (contextL + 1))
    let contextR := contextL + 1 + n
    let i := contextR + 1 + spaces (macroText.drop (contextR + 1))
    if charAt macroText i = '\x7d' then some ⟨i, contextL, contextR, contextOp⟩ else none
  else do
    let n ← (macroText.drop contextL).findIdx? (· == '\x7d')
    return ⟨contextL + n, contextL, contextL + n - 1, contextOp⟩

/-- `zbx_user_macro_parse`: only a caller that asks for the operator has the prefix of a regular expression looked for. -/
def userMacroParseFor (asksOp : Bool) (macroText : Text) : Option Parsed :=
  let i := 2 + ((macroText.drop 2).takeWhile isMacroChar).length
  if i = 2 then none
  else if charAt macroText i = '\x7d' then some ⟨i, 0, 0, .equal⟩
  else if charAt macroText i ≠ ':' then none
  else if asksOp && macroRegexPrefix.isPrefixOf (macroText.drop (i + 1)) then
    contextParse macroText .regexp (i + 1 + macroRegexPrefix.length)
  else contextParse macroText .equal (i + 1)

structure ParsedDyn where
  name : Text
  context : Option Text
  length : ℕ
  contextOp : ContextOp
deriving DecidableEq

def userMacroParseDynFor (asksOp : Bool) (macroText : Text) : Option ParsedDyn := do
  let parsed ← userMacroParseFor asksOp macroText
  if parsed.contextL ≠ 0 then
    let colon := ((macroText.take parsed.contextL).reverse.dropWhile (· == ' ')).length - 1
    let separator := if parsed.contextOp = .regexp then colon - macroRegexPrefix.length else colon
    return {
      name := macroText.take separator ++ ['\x7d']
      context := some (unquoteContext (macroText.drop parsed.contextL) (parsed.contextR + 1 - parsed.contextL))
      length := parsed.macroR + 1
      contextOp := parsed.contextOp }
  else
    return {
      name := macroText.take (parsed.macroR + 1)
      context := none
      length := parsed.macroR + 1
      contextOp := parsed.contextOp }

def needsQuotes (context : Text) (forceQuote : Bool) : Bool :=
  forceQuote || context.head? == some '"' || context.head? == some ' ' || context.contains '\x7d'

def quoteContext (context : Text) (forceQuote : Bool) : Except Text Text :=
  if needsQuotes context forceQuote then
    let buffer := '"' :: escape context
    if buffer.getLast? = some '\\' then
      .error ("quoted context \"".toList ++ context ++ "\" cannot end with '\\' character".toList)
    else .ok (buffer ++ ['"'])
  else .ok context

end

example : userMacroParseDynFor true "\x7b$A:regex: ^x$\x7d".toList =
    some ⟨"\x7b$A\x7d".toList, some "^x$".toList, 15, .regexp⟩ := by decide

section

variable {context tail : Text}

lemma quotedLength_plain {c : Char} (hquote : c ≠ '"') (h : c ≠ '\\' ∨ tail.head? ≠ some '"') :
    quotedLength (c :: tail) = (quotedLength tail).map (· + 1) := by
  rw [quotedLength]
  · exact hquote
  · rintro rest rfl rfl
    simp at h

lemma quotedLength_escape (h : context.getLast? ≠ some '\\') :
    quotedLength (escape context ++ '"' :: tail) = some (escape context).length := by
  induction context with
  | nil => rfl
  | cons c context ih =>
    have hrest : context.getLast? ≠ some '\\' := by
      cases context with
      | nil => simp
      | cons x context => simpa using h
    rw [escape_cons, escapeChar]
    by_cases hc : c = '"'
    · subst hc
      rw [if_pos rfl]
      simp only [List.cons_append, List.nil_append, List.length_cons, quotedLength, ih hrest, Option.map_some]
    · rw [if_neg hc]
      simp only [List.cons_append, List.nil_append, List.length_cons]
      rw [quotedLength_plain hc, ih hrest, Option.map_some]
      by_cases hcontext : context = []
      · subst hcontext
        exact .inl (by simpa using h)
      · exact .inr (escape_head context _ hcontext)

lemma unquoteLoop_plain {quoted : Bool} {c : Char} (n : ℕ) (h : quoted = false ∨ c ≠ '\\' ∨ tail.head? ≠ some '"') :
    unquoteLoop quoted (n + 1) (c :: tail) = c :: unquoteLoop quoted n tail := by
  by_cases hescaped : c = '\\' ∧ tail.head? = some '"'
  · obtain ⟨rfl, hhead⟩ := hescaped
    obtain ⟨rest, rfl⟩ := List.head?_eq_some_iff.mp hhead
    have hplain : quoted = false := by simpa using h
    rw [unquoteLoop, hplain, if_neg Bool.false_ne_true]
  · rw [unquoteLoop]
    rintro rest rfl rfl
    simp at hescaped

lemma unquoteLoop_escape (h : context.getLast? ≠ some '\\') :
    unquoteLoop true ((escape context).length + 1) (escape context ++ '"' :: tail) = context ++ ['"'] := by
  induction context with
  | nil =>
    rw [show escape [] = [] from rfl, List.nil_append, List.length_nil, unquoteLoop_plain 0 (.inr (.inl (by decide)))]
    cases tail <;> rfl
  | cons c context ih =>
    have hrest : context.getLast? ≠ some '\\' := by
      cases context with
      | nil => simp
      | cons x context => simpa using h
    rw [escape_cons, escapeChar]
    by_cases hc : c = '"'
    · subst hc
      rw [if_pos rfl]
      simp only [List.cons_append, List.nil_append, List.length_cons, unquoteLoop, if_true]
      exact congrArg ('"' :: ·) (ih hrest)
    · rw [if_neg hc]
      simp only [List.cons_append, List.nil_append, List.length_cons]
      rw [unquoteLoop_plain, ih hrest]
      by_cases hcontext : context = []
      · subst hcontext
        exact .inr (.inl (by simpa using h))
      · exact .inr (.inr (escape_head context _ hcontext))

lemma unquoteLoop_false (n : ℕ) (text : Text) : unquoteLoop false n text = text.take n := by
  induction text generalizing n with
  | nil => cases n <;> rfl
  | cons c text ih =>
    cases n with
    | zero => rfl
    | succ n => rw [unquoteLoop_plain n (.inl rfl), ih, List.take_succ_cons]

end

section

variable {before context name suffix rest : Text} {op : ContextOp}

lemma charAt_eq {text : Text} {i : ℕ} {c : Char} (htext : text = before ++ c :: rest) (hi : i = before.length) :
    charAt text i = c := by
  subst htext hi
  simp [charAt]

lemma spaces_eq_zero (h : rest.head? ≠ some ' ') : spaces rest = 0 := by
  have hends : Spans.Ends (· == ' ') rest := fun c hc => by
    by_contra hblank
    exact h (by simpa using hc.trans (by simpa using hblank))
  rw [spaces, hends.takeWhile, List.length_nil]

def opened (name : Text) : Text := '\x7b' :: '$' :: (name ++ [':'])

lemma opened_length (name : Text) : (opened name).length = 3 + name.length := by
  simp [opened]
  ring

lemma userMacroParseFor_opened (hname : name ≠ []) (hchars : ∀ c ∈ name, isMacroChar c) (rest : Text) :
    userMacroParseFor false (opened name ++ rest) = contextParse (opened name ++ rest) .equal (opened name).length := by
  have htext : opened name ++ rest = '\x7b' :: '$' :: name ++ ':' :: rest := by simp [opened]
  have hrun : ((opened name ++ rest).drop 2).takeWhile isMacroChar = name := by
    rw [htext]
    exact Spans.takeWhile_run hchars (Spans.ends_cons (by decide) rest)
  have hcolon : charAt (opened name ++ rest) (2 + name.length) = ':' := charAt_eq htext (by simp; ring)
  have hlength : 0 < name.length := List.length_pos_iff.mpr hname
  rw [userMacroParseFor, hrun]
  simp only [hcolon, Bool.false_and]
  rw [if_neg (by omega), if_neg (by decide), if_neg (by decide), if_neg (by decide), opened_length]
  congr 1
  ring

lemma contextParse_plain (hblank : context.head? ≠ some ' ') (hquote : context.head? ≠ some '"') (hbrace : '\x7d' ∉ context) :
    contextParse (before ++ (context ++ '\x7d' :: suffix)) op before.length =
      some ⟨before.length + context.length, before.length, before.length + context.length - 1, op⟩ := by
  have hspaces : spaces (context ++ '\x7d' :: suffix) = 0 := spaces_eq_zero (by cases context <;> simp_all)
  have hstart : charAt (before ++ (context ++ '\x7d' :: suffix)) before.length ≠ '"' := by
    obtain ⟨c, rest, hrest, hc⟩ : ∃ c rest, context ++ '\x7d' :: suffix = c :: rest ∧ c ≠ '"' := by
      cases context with
      | nil => exact ⟨_, _, rfl, by decide⟩
      | cons c context => exact ⟨_, _, rfl, by simpa using hquote⟩
    rw [hrest]
    exact ne_of_eq_of_ne (charAt_eq rfl rfl) hc
  have hend : (context ++ '\x7d' :: suffix).findIdx? (· == '\x7d') = some context.length := by
    have hnone : context.findIdx? (· == '\x7d') = none := by
      rw [List.findIdx?_eq_none_iff]
      intro c hc
      rw [beq_eq_false_iff_ne]
      rintro rfl
      exact hbrace hc
    rw [List.findIdx?_append, hnone, List.findIdx?_cons, if_pos (by decide)]
    simp
  rw [contextParse, List.drop_left, hspaces, add_zero, if_neg hstart, List.drop_left, hend]
  rfl

lemma contextParse_quoted (hlast : context.getLast? ≠ some '\\') :
    contextParse (before ++ ('"' :: escape context ++ ['"'] ++ '\x7d' :: suffix)) op before.length =
      some ⟨before.length + (escape context).length + 2, before.length, before.length + 1 + (escape context).length, op⟩ := by
  have htext : before ++ ('"' :: escape context ++ ['"'] ++ '\x7d' :: suffix) =
      (before ++ ['"']) ++ (escape context ++ '"' :: '\x7d' :: suffix) := by simp
  have htext' : before ++ ('"' :: escape context ++ ['"'] ++ '\x7d' :: suffix) =
      (before ++ '"' :: escape context ++ ['"']) ++ '\x7d' :: suffix := by simp
  have hstart : charAt (before ++ ('"' :: escape context ++ ['"'] ++ '\x7d' :: suffix)) before.length = '"' := charAt_eq rfl rfl
  have hend : charAt (before ++ ('"' :: escape context ++ ['"'] ++ '\x7d' :: suffix))
      (before.length + 1 + (escape context).length + 1) = '\x7d' := charAt_eq htext' (by simp; ring)
  have hbody : (before ++ ('"' :: escape context ++ ['"'] ++ '\x7d' :: suffix)).drop (before.length + 1) =
      escape context ++ '"' :: '\x7d' :: suffix := by
    rw [htext]
    exact List.drop_left' (by simp)
  have hrest : (before ++ ('"' :: escape context ++ ['"'] ++ '\x7d' :: suffix)).drop
      (before.length + 1 + (escape context).length + 1) = '\x7d' :: suffix := by
    rw [htext']
    exact List.drop_left' (by simp; ring)
  rw [contextParse, List.drop_left, spaces_eq_zero (by simp), add_zero, if_pos hstart, hbody, quotedLength_escape hlast]
  simp only [Option.bind_eq_bind, Option.bind_some, hrest]
  rw [spaces_eq_zero (by simp), add_zero, if_pos hend]
  congr 2
  ring

lemma unquoteContext_plain (h : context.head? ≠ some '"') (n : ℕ) : unquoteContext context n = context.take n := by
  rw [← unquoteLoop_false, unquoteContext]
  rintro rest rfl
  simp at h

lemma userMacroParseDynFor_opened (hname : name ≠ []) (hchars : ∀ c ∈ name, isMacroChar c) {macroR contextR : ℕ}
    (hparsed : contextParse (opened name ++ rest) .equal (opened name).length = some ⟨macroR, (opened name).length, contextR, .equal⟩) :
    userMacroParseDynFor false (opened name ++ rest) = some {
      name := '\x7b' :: '$' :: (name ++ ['\x7d'])
      context := some (unquoteContext rest (contextR + 1 - (opened name).length))
      length := macroR + 1
      contextOp := .equal } := by
  have hcolon : (((opened name).reverse.dropWhile (· == ' ')).length - 1) = 2 + name.length := by
    simp [opened]
    ring
  have hseparator : (opened name ++ rest).take (2 + name.length) = '\x7b' :: '$' :: name := by
    have : opened name ++ rest = '\x7b' :: '$' :: name ++ ':' :: rest := by simp [opened]
    rw [this]
    exact List.take_left' (by simp; ring)
  have hbehind : (opened name).length ≠ 0 := by
    rw [opened_length]
    omega
  rw [userMacroParseDynFor, userMacroParseFor_opened hname hchars, hparsed]
  simp only [Option.bind_eq_bind, Option.bind_some, List.take_left, List.drop_left, hcolon]
  rw [if_pos hbehind, if_neg (by decide), hseparator]
  rfl

lemma getLast?_escape (context : Text) : (escape context).getLast? = context.getLast? := by
  induction context using List.reverseRecOn with
  | nil => rfl
  | append_singleton context c =>
    rw [escape_concat, escapeChar]
    split_ifs with hc
    · simp [hc]
    · simp

lemma quoteContext_cases (context : Text) (forceQuote : Bool) :
    (needsQuotes context forceQuote = false ∧ quoteContext context forceQuote = .ok context) ∨
    (needsQuotes context forceQuote ∧ context.getLast? = some '\\' ∧ ∃ error, quoteContext context forceQuote = .error error) ∨
    (needsQuotes context forceQuote ∧ context.getLast? ≠ some '\\' ∧
      quoteContext context forceQuote = .ok ('"' :: escape context ++ ['"'])) := by
  have hlast : ('"' :: escape context).getLast? = some '\\' ↔ context.getLast? = some '\\' := by
    rw [List.getLast?_cons, getLast?_escape]
    cases context.getLast? <;> simp
  rw [quoteContext]
  by_cases hneeds : needsQuotes context forceQuote
  · right
    rw [if_pos hneeds]
    by_cases hback : context.getLast? = some '\\'
    · exact .inl ⟨hneeds, hback, _, if_pos (hlast.mpr hback)⟩
    · exact .inr ⟨hneeds, hback, if_neg (mt hlast.mp hback)⟩
  · exact .inl ⟨by simpa using hneeds, if_neg hneeds⟩

theorem quoted_context_read_back (name context suffix : Text) (hname : name ≠ []) (hchars : ∀ c ∈ name, isMacroChar c)
    (forceQuote : Bool) :
    (∀ q, quoteContext context forceQuote = .ok q →
      userMacroParseDynFor false ("\x7b$".toList ++ name ++ [':'] ++ q ++ ['\x7d'] ++ suffix) = some {
        name := "\x7b$".toList ++ name ++ ['\x7d']
        context := some context
        length := ("\x7b$".toList ++ name ++ [':'] ++ q ++ ['\x7d']).length
        contextOp := .equal }) ∧
    ∀ error, quoteContext context forceQuote = .error error →
      needsQuotes context forceQuote ∧ context.getLast? = some '\\' := by
  have htext : ∀ q : Text, "\x7b$".toList ++ name ++ [':'] ++ q ++ ['\x7d'] ++ suffix = opened name ++ (q ++ '\x7d' :: suffix) := by
    intro q
    simp [opened]
  rcases quoteContext_cases context forceQuote with ⟨hplain, hrun⟩ | ⟨hneeds, hlast, error, hrun⟩ | ⟨hneeds, hlast, hrun⟩
  · rw [needsQuotes] at hplain
    simp only [Bool.or_eq_false_iff, beq_eq_false_iff_ne, List.contains_eq_mem, decide_eq_false_iff_not] at hplain
    obtain ⟨⟨⟨-, hquote⟩, hblank⟩, hbrace⟩ := hplain
    rw [hrun]
    constructor
    · intro q hq
      cases hq
      have hhead : (context ++ '\x7d' :: suffix).head? ≠ some '"' := by
        cases context with
        | nil => simp
        | cons c context => simpa using hquote
      have hcount : (opened name).length + context.length - 1 + 1 - (opened name).length = context.length := by
        rw [opened_length]
        omega
      rw [htext, userMacroParseDynFor_opened hname hchars (contextParse_plain hblank hquote hbrace), hcount,
        unquoteContext_plain hhead, List.take_left]
      simp [opened_length]
      ring
    · intro error herror
      cases herror
  · rw [hrun]
    constructor
    · intro q hq
      cases hq
    · intro _ _
      exact ⟨hneeds, hlast⟩
  · rw [hrun]
    constructor
    · intro q hq
      cases hq
      have hcount : (opened name).length + 1 + (escape context).length + 1 - (opened name).length - 1 =
          (escape context).length + 1 := by omega
      rw [htext, userMacroParseDynFor_opened hname hchars (contextParse_quoted hlast), List.append_assoc, List.cons_append,
        List.singleton_append, unquoteContext, hcount, unquoteLoop_escape hlast, List.dropLast_concat]
      simp [opened_length]
      ring
    · intro error herror
      cases herror

theorem brace_and_quote_read_back : userMacroParseDynFor false "\x7b$A:\"\x7d\\\"\"\x7d!".toList =
    some ⟨"\x7b$A\x7d".toList, some "\x7d\"".toList, 10, .equal⟩ :=
  (quoted_context_read_back "A".toList "\x7d\"".toList "!".toList (by decide) (by decide) false).1
    "\"\x7d\\\"\"".toList (by rfl)

end

end Glaber.Macros
