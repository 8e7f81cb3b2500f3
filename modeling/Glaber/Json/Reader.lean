import Glaber.Json.Builder
import Glaber.Json.Parser

/-! The reader of JSON texts (`json.c`). A position is the text from there on, up to the NUL. -/

namespace Glaber.Json

section

/-- `struct zbx_json_parse`: the text from the opening bracket on, and how long it still is at the closing one. -/
structure JsonParse where
  start : List Char
  endLength : ℕ

def jsonOpen (buffer : List Char) : Option JsonParse :=
  let start := skipWhitespace buffer
  if start = [] then none
  else (jsonValidate start).map fun r => ⟨start, r.2.length + 1⟩

def isOpening (c : Char) : Bool := c = '[' || c = '\x7b'
def isClosing (c : Char) : Bool := c = ']' || c = '\x7d'

def scanNext (endLength : ℕ) : Bool → ℕ → List Char → Option (List Char)
  | _, _, [] => none
  | state, level, c :: p =>
    if p.length + 1 < endLength then none
    else if c = '"' then scanNext endLength (!state) level p
    else if c = '\\' ∧ state then
      match p with
      | [] => none
      | _ :: p => scanNext endLength state level p
    else if isOpening c ∧ !state then scanNext endLength state (level + 1) p
    else if isClosing c ∧ !state then if level = 0 then none else scanNext endLength state (level - 1) p
    else if c = ',' ∧ !state ∧ level = 0 then some (skipWhitespace p)
    else scanNext endLength state level p

variable (jp : JsonParse)

def jsonNext (p : Option (List Char)) : Option (List Char) :=
  if jp.start.length = jp.endLength + 1 then none
  else match p with
    | none => some (skipWhitespace jp.start.tail)
    | some p => scanNext jp.endLength false 0 p

def rbracketLoop (rbracket : Char) : Bool → ℕ → List Char → Option (List Char)
  | _, _, [] => none
  | state, level, c :: p =>
    if c = '"' then rbracketLoop rbracket (!state) level p
    else if c = '\\' ∧ state then
      match p with
      | [] => none
      | _ :: p => rbracketLoop rbracket state level p
    else if isOpening c ∧ !state then rbracketLoop rbracket state (level + 1) p
    else if isClosing c ∧ !state then
      if level = 1 then if c = rbracket then some (c :: p) else none else rbracketLoop rbracket state (level - 1) p
    else rbracketLoop rbracket state level p

variable (p : List Char)

def jsonRbracket : Option (List Char) :=
  match p with
  | [] => none
  | c :: _ =>
    if isOpening c then rbracketLoop (if c = '\x7b' then '\x7d' else ']') false 0 p else none

def bracketsOpen : Option JsonParse := do
  let close ← jsonRbracket p
  return ⟨skipWhitespace p, close.length⟩

inductive JsonType where
  | string
  | int
  | array
  | object
  | null
  | true
  | false
  | unknown
deriving DecidableEq

def jsonType : JsonType :=
  match p with
  | [] => .unknown
  | c :: _ =>
    if c = '"' then .string
    else if c.isDigit ∨ c = '-' then .int
    else if c = '[' then .array
    else if c = '\x7b' then .object
    else if "null".toList.isPrefixOf p then .null
    else if "true".toList.isPrefixOf p then .true
    else if "false".toList.isPrefixOf p then .false
    else .unknown

def maxStringLen : ℕ := 2048

def pairNext (p : Option (List Char)) (size : ℕ) : Option (List Char × List Char) := do
  let p ← jsonNext jp p
  if jsonType p = .string then
    let (name, p) ← copyString p size
    match skipWhitespace p with
    | ':' :: p => return (name, skipWhitespace p)
    | _ => none
  else none

def pairLoop (jp : JsonParse) (name : List Char) : ℕ → Option (List Char) → Option (List Char)
  | 0, _ => none
  | fuel + 1, p => do
    let (buffer, p) ← pairNext jp p maxStringLen
    if buffer = name then return p else pairLoop jp name fuel (some p)

def pairByName (name : List Char) : Option (List Char) := pairLoop jp name (jp.start.length + 1) none

def copyUnquotedValue (len size : ℕ) : Option (List Char) := if size < len + 1 then none else some (p.take len)

def decodeInto (len size : ℕ) : Option (List Char) :=
  match jsonType p with
  | .string => (copyString p size).map Prod.fst
  | .null => if size = 0 then none else some []
  | _ => copyUnquotedValue p len size

def valueLength : Option ℕ :=
  match jsonType p with
  | .array | .object | .unknown => none
  | _ => (parseValue (2 * p.length + 2) p).map fun r => p.length - r.2.length

def decodeValue (size : ℕ) : Option (List Char × JsonType) := do
  let len ← valueLength p
  let string ← decodeInto p len size
  return (string, jsonType p)

def decodeValueDyn (stringAlloc : ℕ) : Option (List Char × JsonType) := do
  let len ← valueLength p
  let string ← decodeInto p len (if stringAlloc ≤ len then len + 1 else stringAlloc)
  return (string, jsonType p)

def valueByName (name : List Char) (size : ℕ) : Option (List Char × JsonType) := do
  let p ← pairByName jp name
  decodeValue p size

def valueByNameDyn (name : List Char) (stringAlloc : ℕ) : Option (List Char × JsonType) := do
  let p ← pairByName jp name
  decodeValueDyn p stringAlloc

def bracketsByName (name : List Char) : Option JsonParse := do
  let p ← pairByName jp name
  bracketsOpen p

end

section

structure Scans (scan : Bool → ℕ → List Char → Option (List Char)) (Inside : List Char → Prop) : Prop where
  plain : ∀ state level c rest, Inside rest → c ≠ '"' → c ≠ '\\' →
    (state = true ∨ (isOpening c = false ∧ isClosing c = false ∧ c ≠ ',')) → scan state level (c :: rest) = scan state level rest
  quote : ∀ state level rest, Inside rest → scan state level ('"' :: rest) = scan (!state) level rest
  escaped : ∀ level c rest, Inside rest → scan true level ('\\' :: c :: rest) = scan true level rest
  opening : ∀ level object rest, Inside rest → scan false level (openBracket object :: rest) = scan false (level + 1) rest
  closing : ∀ level object rest, Inside rest →
    scan false (level + 2) (closeBracket object :: rest) = scan false (level + 1) rest
  comma : ∀ level rest, Inside rest → scan false (level + 1) (',' :: rest) = scan false (level + 1) rest
  append : ∀ text rest, Inside rest → Inside (text ++ rest)

lemma scanNext_scans (endLength : ℕ) : Scans (scanNext endLength) fun rest => endLength ≤ rest.length where
  plain := by
    intro state level c rest hrest hquote hback hc
    have hin : ¬ rest.length + 1 < endLength := by omega
    rw [scanNext.eq_def]
    dsimp only
    rw [if_neg hin, if_neg hquote, if_neg (by simp [hback])]
    rcases hc with rfl | ⟨hopen, hclose, hcomma⟩
    · simp
    · simp [hopen, hclose, hcomma]
  quote := by
    intro state level rest hrest
    have hin : ¬ rest.length + 1 < endLength := by omega
    rw [scanNext.eq_def]
    dsimp only
    rw [if_neg hin, if_pos rfl]
  escaped := by
    intro level c rest hrest
    have hin : ¬ (c :: rest).length + 1 < endLength := by simp; omega
    rw [scanNext, if_neg hin, if_neg (by decide), if_pos (by decide)]
  opening := by
    intro level object rest hrest
    have hin : ¬ rest.length + 1 < endLength := by omega
    rw [scanNext.eq_def]
    dsimp only
    rw [if_neg hin]
    cases object <;> simp [openBracket, isOpening]
  closing := by
    intro level object rest hrest
    have hin : ¬ rest.length + 1 < endLength := by omega
    rw [scanNext.eq_def]
    dsimp only
    rw [if_neg hin]
    cases object <;> simp [closeBracket, isOpening, isClosing]
  comma := by
    intro level rest hrest
    have hin : ¬ rest.length + 1 < endLength := by omega
    rw [scanNext.eq_def]
    dsimp only
    rw [if_neg hin]
    simp [isOpening, isClosing]
  append := by
    intro text rest hrest
    simp only [List.length_append]
    omega

lemma rbracketLoop_scans (rbracket : Char) : Scans (rbracketLoop rbracket) fun _ => True where
  plain := by
    intro state level c rest _ hquote hback hc
    rw [rbracketLoop.eq_def]
    dsimp only
    rw [if_neg hquote, if_neg (by simp [hback])]
    rcases hc with rfl | ⟨hopen, hclose, -⟩
    · simp
    · simp [hopen, hclose]
  quote := by
    intro state level rest _
    rw [rbracketLoop.eq_def]
    dsimp only
    rw [if_pos rfl]
  escaped := by
    intro level c rest _
    rw [rbracketLoop, if_neg (by decide), if_pos (by decide)]
  opening := by
    intro level object rest _
    rw [rbracketLoop.eq_def]
    dsimp only
    cases object <;> simp [openBracket, isOpening]
  closing := by
    intro level object rest _
    rw [rbracketLoop.eq_def]
    dsimp only
    cases object <;> simp [closeBracket, isOpening, isClosing]
  comma := by
    intro level rest _
    rw [rbracketLoop.eq_def]
    dsimp only
    simp [isOpening, isClosing]
  append := fun _ _ _ => trivial

lemma escapeChar_shape (c : Char) :
    (escapeChar c = [c] ∧ c ≠ '"' ∧ c ≠ '\\') ∨
      ∃ x tail, escapeChar c = '\\' :: x :: tail ∧ ∀ d ∈ tail, d ≠ '"' ∧ d ≠ '\\' := by
  have hhex : ∀ n ≤ 0x1f, ∀ d ∈ ['0', '0', zbxNum2hex (n / 16), zbxNum2hex (n % 16)], d ≠ '"' ∧ d ≠ '\\' := by decide
  unfold escapeChar
  split
  case h_8 hquote hback _ _ _ _ _ =>
    split_ifs with hc
    · exact .inr ⟨'u', _, rfl, hhex c.toNat hc⟩
    · exact .inl ⟨rfl, hquote, hback⟩
  all_goals exact .inr ⟨_, [], rfl, by simp⟩

section

variable {scan : Bool → ℕ → List Char → Option (List Char)} {Inside : List Char → Prop} (hs : Scans scan Inside)

include hs

lemma Scans.inString {text : List Char} (h : ∀ c ∈ text, c ≠ '"' ∧ c ≠ '\\') (level : ℕ) {rest : List Char} (hrest : Inside rest) :
    scan true level (text ++ rest) = scan true level rest := by
  induction text with
  | nil => rfl
  | cons c text ih =>
      obtain ⟨hquote, hback⟩ := h c List.mem_cons_self
      rw [List.cons_append, hs.plain true level c _ (hs.append text rest hrest) hquote hback (.inl rfl)]
      exact ih fun d hd => h d (List.mem_cons_of_mem c hd)

lemma Scans.escape (text : List Char) (level : ℕ) {rest : List Char} (hrest : Inside rest) :
    scan true level (Json.escape text ++ rest) = scan true level rest := by
  induction text with
  | nil => rfl
  | cons c text ih =>
      have htail : Inside (Json.escape text ++ rest) := hs.append _ rest hrest
      have hcons : Json.escape (c :: text) ++ rest = escapeChar c ++ (Json.escape text ++ rest) := by
        simp [Json.escape]
      rw [hcons]
      rcases escapeChar_shape c with ⟨hc, hquote, hback⟩ | ⟨x, tail, hc, hplain⟩
      · rw [hc, List.singleton_append, hs.plain true level c _ htail hquote hback (.inl rfl), ih]
      · rw [hc, List.cons_append, List.cons_append, hs.escaped level x _ (hs.append tail _ htail),
          hs.inString hplain level htail, ih]

lemma Scans.quoted (text : List Char) (level : ℕ) {rest : List Char} (hrest : Inside rest) :
    scan false level (Json.quoted text ++ rest) = scan false level rest := by
  have hquote : Inside ('"' :: rest) := hs.append ['"'] rest hrest
  have htext : Json.quoted text ++ rest = '"' :: (Json.escape text ++ '"' :: rest) := by simp [Json.quoted]
  rw [htext, hs.quote false level _ (hs.append _ _ hquote), Bool.not_false, hs.escape text level hquote,
    hs.quote true level rest hrest, Bool.not_true]

lemma Scans.literal {token : List Char} (h : ∀ c ∈ token, c ∈ literalChars) (level : ℕ) {rest : List Char}
    (hrest : Inside rest) : scan false level (token ++ rest) = scan false level rest := by
  have hplain : ∀ x ∈ literalChars, x ≠ '"' ∧ x ≠ '\\' ∧ isOpening x = false ∧ isClosing x = false ∧ x ≠ ',' := by decide
  induction token with
  | nil => rfl
  | cons c token ih =>
      obtain ⟨hquote, hback, hbrackets⟩ := hplain c (h c List.mem_cons_self)
      rw [List.cons_append, hs.plain false level c _ (hs.append token rest hrest) hquote hback (.inr hbrackets)]
      exact ih fun d hd => h d (List.mem_cons_of_mem c hd)

lemma Scans.label (object : Bool) (name : List Char) (level : ℕ) {rest : List Char} (hrest : Inside rest) :
    scan false level (Json.label object name ++ rest) = scan false level rest := by
  cases object with
  | false => rfl
  | true =>
      have hcolon : Inside (':' :: rest) := hs.append [':'] rest hrest
      have htext : Json.label true name ++ rest = Json.quoted name ++ ':' :: rest := by simp [Json.label]
      rw [htext, hs.quoted name level hcolon]
      exact hs.plain false level ':' rest hrest (by decide) (by decide) (.inr (by decide))

lemma Scans.tail {object : Bool} {members : List (List Char × Tree)} (level : ℕ) {rest : List Char} (hrest : Inside rest)
    (hvalues : ∀ member ∈ members, ∀ rest, Inside rest →
      scan false (level + 1) (render member.2 ++ rest) = scan false (level + 1) rest) :
    scan false (level + 1) (renderTail object members ++ rest) = scan false (level + 1) rest := by
  induction members with
  | nil => rfl
  | cons member members ih =>
      obtain ⟨name, value⟩ := member
      have htail : Inside (renderTail object members ++ rest) := hs.append _ rest hrest
      have hvalue : Inside (render value ++ (renderTail object members ++ rest)) := hs.append _ _ htail
      have hmember := hvalues (name, value) List.mem_cons_self _ htail
      have htext : renderTail object ((name, value) :: members) ++ rest =
          ',' :: (Json.label object name ++ (render value ++ (renderTail object members ++ rest))) := by simp [renderTail]
      rw [htext, hs.comma level _ (hs.append _ _ hvalue), hs.label object name _ hvalue, hmember]
      exact ih fun m hm => hvalues m (List.mem_cons_of_mem _ hm)

lemma Scans.members {object : Bool} {members : List (List Char × Tree)} (level : ℕ) {rest : List Char} (hrest : Inside rest)
    (hvalues : ∀ member ∈ members, ∀ rest, Inside rest →
      scan false (level + 1) (render member.2 ++ rest) = scan false (level + 1) rest) :
    scan false (level + 1) (renderMembers object members ++ rest) = scan false (level + 1) rest := by
  cases members with
  | nil => rfl
  | cons member members =>
      obtain ⟨name, value⟩ := member
      have htail : Inside (renderTail object members ++ rest) := hs.append _ rest hrest
      have hvalue : Inside (render value ++ (renderTail object members ++ rest)) := hs.append _ _ htail
      have hmember := hvalues (name, value) List.mem_cons_self _ htail
      have htext : renderMembers object ((name, value) :: members) ++ rest =
          Json.label object name ++ (render value ++ (renderTail object members ++ rest)) := by simp [renderMembers]
      rw [htext, hs.label object name _ hvalue, hmember]
      exact hs.tail level hrest fun m hm => hvalues m (List.mem_cons_of_mem _ hm)

lemma Scans.render {tree : Tree} (h : WellFormed tree) (level : ℕ) {rest : List Char} (hrest : Inside rest) :
    scan false (level + 1) (Json.render tree ++ rest) = scan false (level + 1) rest := by
  induction tree using Tree.induct generalizing level rest with
  | str text => exact hs.quoted text (level + 1) hrest
  | literal token => exact hs.literal (LiteralToken.chars h) (level + 1) hrest
  | node object members ih =>
      have hclose : Inside (closeBracket object :: rest) := hs.append [_] rest hrest
      have htext : Json.render (.node object members) ++ rest =
          openBracket object :: (renderMembers object members ++ closeBracket object :: rest) := by simp [Json.render]
      rw [htext, hs.opening (level + 1) object _ (hs.append _ _ hclose), hs.members (level + 1) hclose,
        hs.closing level object rest hrest]
      exact fun member hm rest hrest => ih member hm (MembersWellFormed.mem h hm) (level + 1) hrest

end

end

end Glaber.Json
