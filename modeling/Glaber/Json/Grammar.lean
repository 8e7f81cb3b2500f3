import Glaber.Json.Parser
import Mathlib.Data.List.TakeWhile

namespace Glaber.Json

section

def Blank (w : List Char) : Prop := ∀ c ∈ w, c ∈ whitespace

structure Hex (digits : List Char) (num : ℕ) : Prop where
  length : digits.length = 4
  hex : ∀ c ∈ digits, isXdigit c = true
  value : num = digits.foldl (fun n c => 16 * n + zbxHex2num c) 0

inductive StringBody : List Char → Prop
  | nil : StringBody []
  | plain {c body} : 0x1f < c.toNat → c ≠ '"' → c ≠ '\\' → StringBody body → StringBody (c :: body)
  | letter {x body} : x ∈ escapeLetters → StringBody body → StringBody ('\\' :: x :: body)
  | unit {digits num body} : Hex digits num → num < 0xd800 ∨ 0xdfff < num → StringBody body →
      StringBody ('\\' :: 'u' :: (digits ++ body))
  | pair {high low num num' body} : Hex high num → 0xd800 ≤ num ∧ num ≤ 0xdbff → Hex low num' →
      0xdc00 ≤ num' ∧ num' ≤ 0xdfff → StringBody body →
      StringBody ('\\' :: 'u' :: (high ++ '\\' :: 'u' :: (low ++ body)))

structure RfcNumber (token : List Char) : Prop where
  parts : ∃ sign whole fraction exponent : List Char, token = sign ++ whole ++ fraction ++ exponent ∧
    (sign = [] ∨ sign = ['-']) ∧
    (whole ≠ [] ∧ (∀ c ∈ whole, c.isDigit = true) ∧ (whole.head? = some '0' → whole = ['0'])) ∧
    (fraction = [] ∨ ∃ digits, fraction = '.' :: digits ∧ digits ≠ [] ∧ ∀ c ∈ digits, c.isDigit = true) ∧
    (exponent = [] ∨ ∃ e sign digits, exponent = e :: (sign ++ digits) ∧ (e = 'e' ∨ e = 'E') ∧
      (sign = [] ∨ sign = ['+'] ∨ sign = ['-']) ∧ digits ≠ [] ∧ ∀ c ∈ digits, c.isDigit = true)

structure Gaps where
  before : List Char
  name : List Char
  behindName : List Char
  beforeValue : List Char
  behind : List Char

inductive Layout where
  | str (body : List Char)
  | literal (token : List Char)
  | node (object : Bool) (blank : List Char) (members : List (Gaps × Layout))

def Gaps.label (object : Bool) (gaps : Gaps) : List Char :=
  if object then '"' :: (gaps.name ++ '"' :: (gaps.behindName ++ ':' :: gaps.beforeValue)) else []

mutual

def Layout.text : Layout → List Char
  | .str body => '"' :: (body ++ ['"'])
  | .literal token => token
  | .node object blank members => openBracket object :: (membersText object blank members ++ [closeBracket object])

def membersText (object : Bool) (blank : List Char) : List (Gaps × Layout) → List Char
  | [] => blank
  | (gaps, value) :: members =>
    gaps.before ++ (gaps.label object ++ (value.text ++ (gaps.behind ++ tailText object members)))

def tailText (object : Bool) : List (Gaps × Layout) → List Char
  | [] => []
  | (gaps, value) :: members =>
    ',' :: (gaps.before ++ (gaps.label object ++ (value.text ++ (gaps.behind ++ tailText object members))))

end

structure Gaps.Valid (object : Bool) (gaps : Gaps) : Prop where
  before : Blank gaps.before
  behindName : Blank gaps.behindName
  beforeValue : Blank gaps.beforeValue
  behind : Blank gaps.behind
  name : object = true → StringBody gaps.name

mutual

def Layout.Valid (number : List Char → Prop) : Layout → Prop
  | .str body => StringBody body
  | .literal token => number token ∨ token = "true".toList ∨ token = "false".toList ∨ token = "null".toList
  | .node object blank members => Blank blank ∧ MembersValid number object members

def MembersValid (number : List Char → Prop) (object : Bool) : List (Gaps × Layout) → Prop
  | [] => True
  | (gaps, value) :: members => gaps.Valid object ∧ value.Valid number ∧ MembersValid number object members

end

def decodeBody (body : List Char) : List Char :=
  ((copyString ('"' :: (body ++ ['"'])) (body.length + 1)).map Prod.fst).getD []

mutual

def Layout.tree : Layout → Tree
  | .str body => .str (decodeBody body)
  | .literal token => .literal token
  | .node object _ members => .node object (memberTrees object members)

def memberTrees (object : Bool) : List (Gaps × Layout) → List (List Char × Tree)
  | [] => []
  | (gaps, value) :: members => (if object then decodeBody gaps.name else [], value.tree) :: memberTrees object members

end

end

theorem Layout.induct {P : Layout → Prop} (str : ∀ body, P (.str body)) (literal : ∀ token, P (.literal token))
    (node : ∀ object blank members, (∀ member ∈ members, P member.2) → P (.node object blank members)) (value : Layout) :
    P value := by
  apply @Layout.rec P (fun members => ∀ member ∈ members, P member.2) (fun member => P member.2) str literal node
  · simp
  · intro member members hmember hmembers x hx
    rcases List.mem_cons.1 hx with rfl | hx
    · exact hmember
    · exact hmembers x hx
  · intro gaps value hvalue
    exact hvalue

section

lemma readHex_hex {digits : List Char} {num : ℕ} (h : Hex digits num) (p : List Char) :
    readHex (digits ++ p) = some (num, p) := by
  obtain ⟨hlength, hdigits, rfl⟩ := h
  obtain ⟨a, b, c, d, rfl⟩ : ∃ a b c d, digits = [a, b, c, d] := List.length_eq_four.1 hlength
  have hall : (isXdigit a && isXdigit b && isXdigit c && isXdigit d) = true := by
    simp [hdigits a, hdigits b, hdigits c, hdigits d]
  simp only [List.cons_append, List.nil_append, readHex, hall, if_true, List.foldl]
  congr 2
  omega

lemma hex_of_readHex {p rest : List Char} {num : ℕ} (h : readHex p = some (num, rest)) :
    ∃ digits, p = digits ++ rest ∧ Hex digits num := by
  match p with
  | a :: b :: c :: d :: p =>
    rw [readHex] at h
    split_ifs at h with hall
    obtain ⟨rfl, rfl⟩ := Prod.mk.inj (Option.some.inj h)
    simp only [Bool.and_eq_true] at hall
    obtain ⟨⟨⟨ha, hb⟩, hc⟩, hd⟩ := hall
    refine ⟨[a, b, c, d], rfl, rfl, by simp [ha, hb, hc, hd], ?_⟩
    simp only [List.foldl]
    omega
  | [] | [_] | [_, _] | [_, _, _] => simp [readHex] at h

structure Escape (e bytes : List Char) : Prop where
  decode : ∀ p, decodeCharacter (e ++ p) = some (bytes, p)
  shorter : bytes.length < e.length + 1
  kind : (∃ digits, e = 'u' :: digits) ∨ ∃ x ∈ escapeLetters, e = [x]

lemma escape_letter {x : Char} (hx : x ∈ escapeLetters) : ∃ bytes, Escape [x] bytes := by
  have hcases : x = '"' ∨ x = '\\' ∨ x = '/' ∨ x = 'b' ∨ x = 'f' ∨ x = 'n' ∨ x = 'r' ∨ x = 't' := by
    simpa [escapeLetters] using hx
  rcases hcases with rfl | rfl | rfl | rfl | rfl | rfl | rfl | rfl
  all_goals exact ⟨[_], fun _ => rfl, by simp, .inr ⟨_, hx, rfl⟩⟩

lemma decodeUnit_single {num : ℕ} (h : num < 0xd800 ∨ 0xdfff < num) :
    ∃ bytes : List Char, bytes.length ≤ 3 ∧ ∀ p, decodeUnit num p = some (bytes, p) := by
  by_cases h1 : num ≤ 0x7f
  · exact ⟨[_], by simp, fun p => by rw [decodeUnit.eq_def, if_pos h1]⟩
  · by_cases h2 : num ≤ 0x7ff
    · exact ⟨[_, _], by simp, fun p => by rw [decodeUnit.eq_def, if_neg h1, if_pos h2]⟩
    · have h3 : num ≤ 0xd7ff ∨ 0xe000 ≤ num := by omega
      exact ⟨[_, _, _], by simp, fun p => by rw [decodeUnit.eq_def, if_neg h1, if_neg h2, if_pos h3]⟩

lemma escape_unit {digits : List Char} {num : ℕ} (hhex : Hex digits num) (h : num < 0xd800 ∨ 0xdfff < num) :
    ∃ bytes, Escape ('u' :: digits) bytes := by
  obtain ⟨bytes, hlength, hunit⟩ := decodeUnit_single h
  refine ⟨bytes, ?_, ?_, .inl ⟨digits, rfl⟩⟩
  · intro p
    simp only [List.cons_append, decodeCharacter, readHex_hex hhex, Option.bind_eq_bind, Option.bind_some, hunit]
  · rw [List.length_cons, hhex.length]
    omega

lemma escape_pair {high low : List Char} {num num' : ℕ} (hhigh : Hex high num) (h : 0xd800 ≤ num ∧ num ≤ 0xdbff)
    (hlow : Hex low num') (h' : 0xdc00 ≤ num' ∧ num' ≤ 0xdfff) :
    ∃ bytes, Escape ('u' :: (high ++ '\\' :: 'u' :: low)) bytes := by
  have h1 : ¬ num ≤ 0x7f := by omega
  have h2 : ¬ num ≤ 0x7ff := by omega
  have h3 : ¬ (num ≤ 0xd7ff ∨ 0xe000 ≤ num) := by omega
  have h4 : ¬ (num' < 0xdc00 ∨ 0xdfff < num') := by omega
  let uc := 0x10000 + num % 1024 * 1024 + num' % 1024
  refine ⟨[Char.ofNat (0xf0 + uc / 262144 % 8), Char.ofNat (0x80 + uc / 4096 % 64), Char.ofNat (0x80 + uc / 64 % 64),
    Char.ofNat (0x80 + uc % 64)], ?_, ?_, .inl ⟨_, rfl⟩⟩
  · intro p
    simp only [List.cons_append, List.append_assoc, decodeCharacter, readHex_hex hhigh, Option.bind_eq_bind,
      Option.bind_some, decodeUnit, if_neg h1, if_neg h2, if_neg h3, if_pos h.2, readHex_hex hlow, if_neg h4]
    rfl
  · simp only [List.length_cons, List.length_append, hhigh.length, hlow.length, List.length_nil]
    omega

lemma StringBody.induct {P : (body : List Char) → StringBody body → Prop} (nil : P [] .nil)
    (plain : ∀ c body (hc : 0x1f < c.toNat) (hquote : c ≠ '"') (hback : c ≠ '\\') (hbody : StringBody body), P body hbody →
      P (c :: body) (.plain hc hquote hback hbody))
    (escaped : ∀ e bytes body, Escape e bytes → ∀ (hbody : StringBody body) (h : StringBody ('\\' :: (e ++ body))),
      P body hbody → P ('\\' :: (e ++ body)) h) {body : List Char} (h : StringBody body) : P body h := by
  induction h with
  | nil => exact nil
  | @plain c body hc hquote hback hbody ih => exact plain c body hc hquote hback hbody ih
  | @letter x body hx hbody ih =>
    obtain ⟨bytes, he⟩ := escape_letter hx
    exact escaped [x] bytes body he hbody (.letter hx hbody) ih
  | @unit digits num body hhex hnum hbody ih =>
    obtain ⟨bytes, he⟩ := escape_unit hhex hnum
    exact escaped ('u' :: digits) bytes body he hbody (.unit hhex hnum hbody) ih
  | @pair high low num num' body hhigh h hlow h' hbody ih =>
    obtain ⟨bytes, he⟩ := escape_pair hhigh h hlow h'
    have hpair := StringBody.pair hhigh h hlow h' hbody
    have htext : '\\' :: 'u' :: (high ++ '\\' :: 'u' :: (low ++ body)) =
        '\\' :: ('u' :: (high ++ '\\' :: 'u' :: low) ++ body) := by simp
    have hstep := escaped _ bytes body he hbody (htext ▸ hpair) ih
    simpa only [htext] using hstep

lemma parseStringLoop_body {body : List Char} (h : StringBody body) {fuel : ℕ} (hfuel : body.length < fuel) (rest : List Char) :
    parseStringLoop fuel (body ++ '"' :: rest) = some rest := by
  induction h using StringBody.induct generalizing fuel with
  | nil =>
    obtain ⟨fuel, rfl⟩ := Nat.exists_eq_add_one_of_ne_zero (Nat.ne_of_gt hfuel)
    rfl
  | plain c body hc hquote hback _ ih =>
    obtain ⟨fuel, rfl⟩ := Nat.exists_eq_add_one_of_ne_zero (Nat.ne_of_gt (Nat.zero_lt_of_lt hfuel))
    rw [List.cons_append, parseStringLoop_plain hquote hback hc]
    exact ih (by simpa using hfuel)
  | escaped e bytes body he _ _ ih =>
    obtain ⟨fuel, rfl⟩ := Nat.exists_eq_add_one_of_ne_zero (Nat.ne_of_gt (Nat.zero_lt_of_lt hfuel))
    rw [List.cons_append, List.append_assoc, parseStringLoop_escaped he.decode he.kind]
    apply ih
    simp only [List.length_cons, List.length_append] at hfuel
    omega

lemma unit_of_decodeUnit {num : ℕ} {p rest bytes : List Char} (h : decodeUnit num p = some (bytes, rest)) :
    ((num < 0xd800 ∨ 0xdfff < num) ∧ p = rest) ∨ ((0xd800 ≤ num ∧ num ≤ 0xdbff) ∧
      ∃ low num', p = '\\' :: 'u' :: (low ++ rest) ∧ Hex low num' ∧ 0xdc00 ≤ num' ∧ num' ≤ 0xdfff) := by
  rw [decodeUnit.eq_def] at h
  split_ifs at h with h1 h2 h3 h4
  · exact .inl ⟨by omega, by simpa using (Prod.mk.inj (Option.some.inj h)).2⟩
  · exact .inl ⟨by omega, by simpa using (Prod.mk.inj (Option.some.inj h)).2⟩
  · exact .inl ⟨by omega, by simpa using (Prod.mk.inj (Option.some.inj h)).2⟩
  · right
    split at h
    next q =>
      obtain ⟨⟨num', q'⟩, hread, hrest⟩ := Option.bind_eq_some_iff.1 h
      obtain ⟨low, rfl, hlow⟩ := hex_of_readHex hread
      dsimp only at hrest
      split_ifs at hrest with hrange
      obtain rfl : q' = rest := (Prod.mk.inj (Option.some.inj hrest)).2
      exact ⟨by omega, low, num', rfl, hlow, by omega⟩
    next => cases h

lemma body_of_parseStringLoop {fuel : ℕ} {p rest : List Char} (h : parseStringLoop fuel p = some rest) :
    ∃ body, StringBody body ∧ p = body ++ '"' :: rest := by
  fun_induction parseStringLoop fuel p with
  | case1 => cases h
  | case2 => cases h
  | case3 fuel p =>
    obtain rfl : p = rest := Option.some.inj h
    exact ⟨[], .nil, rfl⟩
  | case4 fuel p ih =>
    obtain ⟨⟨bytes, q⟩, hdecode, hloop⟩ := Option.bind_eq_some_iff.1 h
    obtain ⟨⟨num, q'⟩, hread, hunit⟩ := Option.bind_eq_some_iff.1 hdecode
    obtain ⟨digits, rfl, hhex⟩ := hex_of_readHex hread
    obtain ⟨body, hbody, rfl⟩ := ih _ hloop
    rcases unit_of_decodeUnit hunit with ⟨hnum, rfl⟩ | ⟨hnum, low, num', rfl, hlow, hnum'⟩
    · exact ⟨_, .unit hhex hnum hbody, by simp⟩
    · exact ⟨_, .pair hhex hnum hlow hnum' hbody, by simp⟩
  | case5 => cases h
  | case6 fuel x p hx _ ih =>
    obtain ⟨body, hbody, rfl⟩ := ih h
    exact ⟨_, .letter hx hbody, rfl⟩
  | case7 => cases h
  | case8 => cases h
  | case9 fuel c p hquote _ hback hc ih =>
    obtain ⟨body, hbody, rfl⟩ := ih h
    exact ⟨_, .plain (by omega) hquote hback hbody, rfl⟩

lemma copyLoop_body {body : List Char} (h : StringBody body) : ∃ text : List Char, text.length ≤ body.length ∧
    ∀ size fuel out rest, out.length + body.length < size → body.length < fuel →
      copyLoop size fuel out (body ++ '"' :: rest) = some (out ++ text, rest) := by
  induction h using StringBody.induct with
  | nil =>
    refine ⟨[], le_rfl, fun size fuel out rest _ hfuel => ?_⟩
    obtain ⟨fuel, rfl⟩ := Nat.exists_eq_add_one_of_ne_zero (Nat.ne_of_gt hfuel)
    simp [copyLoop]
  | plain c body hc hquote hback _ ih =>
    obtain ⟨text, hlength, hloop⟩ := ih
    refine ⟨c :: text, by simpa using hlength, fun size fuel out rest hsize hfuel => ?_⟩
    obtain ⟨fuel, rfl⟩ := Nat.exists_eq_add_one_of_ne_zero (Nat.ne_of_gt (Nat.zero_lt_of_lt hfuel))
    simp only [List.length_cons] at hsize hfuel
    have hroom : ¬ (out ++ [c]).length = size := by simp; omega
    have hnext := hloop size fuel (out ++ [c]) rest (by simp; omega) (by omega)
    rw [List.cons_append, copyLoop.eq_def]
    simp only [List.length_append, List.length_singleton] at hroom
    simp [hroom, hnext]
  | escaped e bytes body he _ _ ih =>
    obtain ⟨text, hlength, hloop⟩ := ih
    have hshorter := he.shorter
    refine ⟨bytes ++ text, by simp; omega, fun size fuel out rest hsize hfuel => ?_⟩
    obtain ⟨fuel, rfl⟩ := Nat.exists_eq_add_one_of_ne_zero (Nat.ne_of_gt (Nat.zero_lt_of_lt hfuel))
    simp only [List.length_cons, List.length_append] at hsize hfuel
    have hfits : ¬ size ≤ out.length + bytes.length := by omega
    have hroom : ¬ (out ++ bytes).length = size := by simp; omega
    have hnext := hloop size fuel (out ++ bytes) rest (by simp; omega) (by omega)
    rw [List.cons_append, List.append_assoc, copyLoop]
    simp only [he.decode, Option.bind_eq_bind, Option.bind_some, if_neg hfits, if_neg hroom, hnext, List.append_assoc]

lemma copyString_body {body : List Char} (h : StringBody body) {size : ℕ} (hsize : body.length < size) (rest : List Char) :
    copyString ('"' :: (body ++ '"' :: rest)) size = some (decodeBody body, rest) := by
  obtain ⟨text, -, hloop⟩ := copyLoop_body h
  have hcopy : ∀ size rest, body.length < size →
      copyString ('"' :: (body ++ '"' :: rest)) size = some (text, rest) := by
    intro size rest hsize
    rw [copyString, if_neg (by omega), List.tail_cons]
    exact hloop size _ [] rest (by simpa using hsize) (by simp)
  have htext : decodeBody body = text := by
    rw [decodeBody, hcopy (body.length + 1) [] (Nat.lt_succ_self _)]
    rfl
  rw [htext, hcopy size rest hsize]

lemma parseString_body {body : List Char} (h : StringBody body) (rest : List Char) :
    parseString ('"' :: (body ++ '"' :: rest)) = some (decodeBody body, rest) := by
  have hloop := parseStringLoop_body h (show body.length < ('"' :: (body ++ '"' :: rest)).length by simp) rest
  have hsize : ('"' :: (body ++ '"' :: rest)).length - rest.length - 1 = body.length + 1 := by simp; omega
  unfold parseString
  rw [List.tail_cons, hloop]
  simp only [Option.bind_eq_bind, Option.bind_some, hsize]
  rw [copyString_body h (Nat.lt_succ_self _)]
  rfl

lemma body_of_parseString {p text rest : List Char} (h : parseString ('"' :: p) = some (text, rest)) :
    ∃ body, StringBody body ∧ p = body ++ '"' :: rest := by
  obtain ⟨rest', hloop, hcopy⟩ := Option.bind_eq_some_iff.1 h
  obtain ⟨copied, -, hresult⟩ := Option.bind_eq_some_iff.1 hcopy
  obtain rfl : rest' = rest := (Prod.mk.inj (Option.some.inj hresult)).2
  exact body_of_parseStringLoop hloop

end

section

lemma digits_of_numberScan {point : Bool} {digit digit' : ℕ} {p rest : List Char}
    (h : numberScan point digit p = (digit', rest)) :
    ∃ whole fraction, p = whole ++ (fraction ++ rest) ∧ (∀ c ∈ whole, c.isDigit = true) ∧
      (if point then digit' = digit ∧ fraction = [] else digit' = digit + whole.length ∧ Fraction fraction) := by
  induction p generalizing point digit with
  | nil =>
    obtain ⟨rfl, rfl⟩ := Prod.mk.inj h
    refine ⟨[], [], rfl, by simp, ?_⟩
    cases point
    · exact ⟨rfl, .inl rfl⟩
    · exact ⟨rfl, rfl⟩
  | cons c p ih =>
    rw [numberScan] at h
    by_cases hpoint : c = '.'
    · rw [if_pos hpoint] at h
      cases point with
      | true =>
        obtain ⟨rfl, rfl⟩ := Prod.mk.inj h
        exact ⟨[], [], rfl, by simp, rfl, rfl⟩
      | false =>
        obtain ⟨digits, fraction, rfl, hdigits, hcount⟩ := ih h
        obtain ⟨rfl, rfl⟩ : digit' = digit ∧ fraction = [] := hcount
        exact ⟨[], c :: digits, by simp, by simp, rfl, .inr ⟨digits, by rw [hpoint], hdigits⟩⟩
    · rw [if_neg hpoint] at h
      by_cases hdigit : c.isDigit = true
      · rw [if_pos hdigit] at h
        obtain ⟨whole, fraction, rfl, hwhole, hcount⟩ := ih h
        refine ⟨c :: whole, fraction, rfl, List.forall_mem_cons.2 ⟨hdigit, hwhole⟩, ?_⟩
        cases point with
        | false =>
          simp only [Bool.false_eq_true, if_false, List.length_cons] at hcount ⊢
          exact ⟨by omega, hcount.2⟩
        | true => exact hcount
      · rw [if_neg hdigit] at h
        obtain ⟨rfl, rfl⟩ := Prod.mk.inj h
        refine ⟨[], [], rfl, by simp, ?_⟩
        cases point
        · exact ⟨rfl, .inl rfl⟩
        · exact ⟨rfl, rfl⟩

lemma parseExponent_marked {e : Char} (he : e = 'e' ∨ e = 'E') (p : List Char) :
    ∃ sign q, p = sign ++ q ∧ (sign = [] ∨ sign = ['+'] ∨ sign = ['-']) ∧ parseExponent (e :: p) = (match q with
      | [] => none
      | d :: q => if d.isDigit then some (q.dropWhile Char.isDigit) else none) := by
  cases p with
  | nil => exact ⟨[], [], rfl, by simp, by simp [parseExponent, he]⟩
  | cons c q =>
    by_cases hplus : c = '+'
    · exact ⟨['+'], q, by rw [hplus, List.singleton_append], by simp, by cases q <;> simp [parseExponent, he, hplus]⟩
    · by_cases hminus : c = '-'
      · exact ⟨['-'], q, by rw [hminus, List.singleton_append], by simp, by cases q <;> simp [parseExponent, he, hminus]⟩
      · exact ⟨[], c :: q, rfl, by simp, by simp [parseExponent, he, hplus, hminus]⟩

lemma exponent_of_parseExponent {p rest : List Char} (h : parseExponent p = some rest) :
    ∃ exponent, p = exponent ++ rest ∧ Exponent exponent := by
  cases p with
  | nil =>
    obtain rfl : [] = rest := Option.some.inj h
    exact ⟨[], rfl, .inl rfl⟩
  | cons c p =>
    by_cases hmark : c = 'e' ∨ c = 'E'
    · obtain ⟨sign, q, rfl, hsign, hread⟩ := parseExponent_marked hmark p
      rw [hread] at h
      cases q with
      | nil => cases h
      | cons d q =>
        dsimp only at h
        split_ifs at h with hd
        obtain rfl := Option.some.inj h
        refine ⟨c :: (sign ++ d :: q.takeWhile Char.isDigit), by simp [List.takeWhile_append_dropWhile],
          .inr ⟨c, sign, _, rfl, hmark, hsign, List.cons_ne_nil _ _, ?_⟩⟩
        exact List.forall_mem_cons.2 ⟨hd, fun x hx => List.mem_takeWhile_imp hx⟩
    · rw [parseExponent.eq_def] at h
      dsimp only at h
      rw [if_neg hmark] at h
      obtain rfl := Option.some.inj h
      exact ⟨[], rfl, .inl rfl⟩

lemma parseNumber_signed (p : List Char) :
    ∃ sign ptr, p = sign ++ ptr ∧ (sign = [] ∨ sign = ['-']) ∧ parseNumber p =
      if (numberScan false 0 ptr).1 = 0 then none
      else if ptr.head? = some '0' ∧ 1 < (numberScan false 0 ptr).1 then none
      else (parseExponent (numberScan false 0 ptr).2).map fun rest => (p.take (p.length - rest.length), rest) := by
  unfold parseNumber
  split
  next q => exact ⟨['-'], q, rfl, .inr rfl, by simp [Option.map_eq_bind]⟩
  next => exact ⟨[], p, rfl, .inl rfl, by simp [Option.map_eq_bind]⟩

lemma token_of_parseNumber {p token rest : List Char} (h : parseNumber p = some (token, rest)) :
    p = token ++ rest ∧ NumberToken token := by
  obtain ⟨sign, ptr, hptr, hsign, hparse⟩ := parseNumber_signed p
  obtain ⟨whole, fraction, hwhole, hdigits, hcount⟩ := digits_of_numberScan (Prod.mk.eta (p := numberScan false 0 ptr)).symm
  obtain ⟨hdigit, hfraction⟩ : (numberScan false 0 ptr).1 = 0 + whole.length ∧ Fraction fraction := hcount
  rw [hparse] at h
  split_ifs at h with hzero hlead
  obtain ⟨rest', hexponent, hresult⟩ := Option.map_eq_some_iff.1 h
  obtain ⟨htoken, rfl⟩ := Prod.mk.inj hresult
  obtain ⟨exponent, hsplit, hexp⟩ := exponent_of_parseExponent hexponent
  have hp : p = sign ++ whole ++ fraction ++ exponent ++ rest' := by
    rw [hptr, hwhole, hsplit]
    simp
  have htoken' : token = sign ++ whole ++ fraction ++ exponent := by
    rw [← htoken, hp]
    exact take_token _ _
  refine ⟨by rw [hp, htoken'], ⟨sign, whole, fraction, exponent, htoken', hsign, ⟨?_, hdigits, ?_⟩, hfraction, hexp⟩⟩
  · rintro rfl
    exact hzero hdigit
  · intro hhead
    cases whole with
    | nil => simp at hhead
    | cons d whole =>
      obtain rfl : d = '0' := by simpa using hhead
      have hone : ¬ 1 < (numberScan false 0 ptr).1 := fun hone => hlead ⟨by rw [hwhole]; rfl, hone⟩
      have hnil : whole.length = 0 := by
        simp only [List.length_cons] at hdigit
        omega
      rw [List.length_eq_zero_iff.1 hnil]

end

end Glaber.Json
