import Mathlib.Tactic

/-! Parameters of trigger functions (`function.c`). -/

namespace Glaber.Expr.FunctionParam

abbrev Text := List Char

section

inductive State where
  | next
  | quoted
  | unquoted
  | postquoted
  deriving DecidableEq, Repr

/-- `par_r`, where the terminator was found; `lpp_len` stays unset when it was found before the end of the text. -/
structure Validated where
  parR : Option ℕ
  lppOffset : ℕ
  lppLen : Option ℕ
  deriving DecidableEq, Repr

def validateFrom (terminator : Char) : State → Char → ℕ → ℕ → Text → Validated
  | state, _, ptr, lppOffset, [] =>
    ⟨if terminator = '\x00' ∧ state ≠ .quoted then some ptr else none, lppOffset, some (ptr - lppOffset)⟩
  | state, prev, ptr, lppOffset, c :: expr =>
    if terminator = c ∧ state ≠ .quoted then ⟨some ptr, lppOffset, none⟩
    else
      match state with
      | .next =>
        if c = '"' then validateFrom terminator .quoted c (ptr + 1) ptr expr
        else if c ≠ ' ' ∧ c ≠ ',' then validateFrom terminator .unquoted c (ptr + 1) ptr expr
        else validateFrom terminator .next c (ptr + 1) ptr expr
      | .quoted =>
        if c = '"' ∧ prev ≠ '\\' then validateFrom terminator .postquoted c (ptr + 1) lppOffset expr
        else validateFrom terminator .quoted c (ptr + 1) lppOffset expr
      | .unquoted =>
        if c = ',' then validateFrom terminator .next c (ptr + 1) lppOffset expr
        else validateFrom terminator .unquoted c (ptr + 1) lppOffset expr
      | .postquoted =>
        if c = ',' then validateFrom terminator .next c (ptr + 1) lppOffset expr
        else if c ≠ ' ' then ⟨none, lppOffset, some (ptr - lppOffset)⟩
        else validateFrom terminator .postquoted c (ptr + 1) lppOffset expr

def functionValidateParameters (expr : Text) (terminator : Char) : Validated :=
  validateFrom terminator .next '\x00' 0 0 expr

def spaces (expr : Text) : ℕ := (expr.takeWhile (· == ' ')).length

def scanQuoted : Char → Text → Option ℕ
  | _, [] => none
  | prev, c :: expr => if c ≠ '"' ∨ prev = '\\' then (scanQuoted c expr).map (· + 1) else some 0

structure Param where
  paramPos : ℕ
  length : ℕ
  sepPos : ℕ
  deriving DecidableEq, Repr

def functionParamParse (expr : Text) : Param :=
  let paramPos := spaces expr
  if (expr.drop paramPos).head? = some '"' then
    match scanQuoted '"' (expr.drop (paramPos + 1)) with
    | none => ⟨paramPos, expr.length - paramPos, expr.length⟩
    | some n =>
      let ptr := paramPos + 1 + n + 1
      ⟨paramPos, ptr - paramPos, ptr + spaces (expr.drop ptr)⟩
  else
    let ptr := (expr.takeWhile fun c => c != ')' && c != ',').length
    ⟨paramPos, ptr - paramPos, ptr⟩

def unquoteFrom : ℕ → Text → Text
  | 0, _ => []
  | _, [] => []
  | n + 1, '\\' :: '"' :: pin => '"' :: unquoteFrom (n - 1) pin
  | n + 1, c :: pin => c :: unquoteFrom n pin

def functionParamUnquoteDyn (param : Text) (len : ℕ) : Text × Bool :=
  if len ≠ 0 ∧ param.head? = some '"' then (unquoteFrom (len - 2) (param.drop 1), true) else (param.take len, false)

def getEscapeStringLen (charlist : List Char) : Text → ℕ
  | [] => 0
  | c :: src => getEscapeStringLen charlist src + if c ∈ charlist then 2 else 1

def putBefore (szDst : ℕ) (c : Char) (param : Text) : Option Text :=
  if 0 < szDst ∧ szDst ≤ param.length then some (param.set (szDst - 1) c) else none

def quoteFrom : ℕ → ℕ → Text → Option Text
  | 0, szDst, param => putBefore szDst '"' param
  | szSrc + 1, szDst, param => do
    let param ← putBefore szDst (← param[szSrc]?) param
    if (← param[szSrc]?) = '"' then quoteFrom szSrc (szDst - 2) (← putBefore (szDst - 1) '\\' param)
    else quoteFrom szSrc (szDst - 1) param

def functionParamQuote (param : Text) (forced : Bool) : Option Text :=
  if forced = false ∧ param.head? ≠ some '"' ∧ param.head? ≠ some ' ' ∧ ',' ∉ param ∧ ')' ∉ param then some param
  else if param.getLast? = some '\\' then none
  else do
    let szDst := getEscapeStringLen ['"'] param + 2
    let buffer ← putBefore szDst '"' (param ++ List.replicate (szDst - param.length) '\x00')
    quoteFrom param.length (szDst - 1) buffer

def separators (expr : Text) : ℕ → ℕ → Option (List ℕ)
  | 0, _ => none
  | n + 1, pos =>
    let sep := pos + (functionParamParse (expr.drop pos)).sepPos
    if expr[sep]? = some ',' then (separators expr n (sep + 1)).map (sep :: ·) else some [sep]

end

section

def Open (prev : Char) (body : Text) : Prop := ∀ tail, scanQuoted prev (body ++ '"' :: tail) = some body.length

inductive Element : Text → Prop
  | unquoted (k : ℕ) (word : Text) (hhead : word.head? ≠ some ' ' ∧ word.head? ≠ some '"')
      (hword : ∀ c ∈ word, c ≠ ')' ∧ c ≠ ',') : Element (List.replicate k ' ' ++ word)
  | quoted (k : ℕ) (body : Text) (m : ℕ) (hbody : Open '"' body) :
      Element (List.replicate k ' ' ++ '"' :: body ++ '"' :: List.replicate m ' ')

def IsSep (c : Char) : Prop := c = ',' ∨ c = ')'

variable {word body rest : Text} {sep : Char} {k m : ℕ}

lemma spaces_replicate (k : ℕ) {rest : Text} (h : rest.head? ≠ some ' ') : spaces (List.replicate k ' ' ++ rest) = k := by
  induction k with
  | zero =>
    cases rest with
    | nil => rfl
    | cons c rest =>
      have hc : c ≠ ' ' := by simpa using h
      simp [spaces, hc]
  | succ k ih =>
    rw [spaces] at ih ⊢
    simpa [List.replicate_succ] using ih

lemma head_before (hsep : IsSep sep) {c : Char} (hc : c ≠ ',' ∧ c ≠ ')') (h : word.head? ≠ some c) :
    (word ++ sep :: rest).head? ≠ some c := by
  cases word with
  | nil =>
    rcases hsep with rfl | rfl
    · simpa using hc.1.symm
    · simpa using hc.2.symm
  | cons x word => simpa using h

lemma spaces_of_sep (hsep : IsSep sep) (m : ℕ) : spaces (List.replicate m ' ' ++ sep :: rest) = m :=
  spaces_replicate m (head_before hsep (by decide) (by simp : ([] : Text).head? ≠ some ' '))

lemma parse_unquoted (k : ℕ) (rest : Text) (hhead : word.head? ≠ some ' ' ∧ word.head? ≠ some '"')
    (hword : ∀ c ∈ word, c ≠ ')' ∧ c ≠ ',') (hsep : IsSep sep) :
    functionParamParse (List.replicate k ' ' ++ word ++ sep :: rest) = ⟨k, word.length, k + word.length⟩ := by
  have hspaces : spaces (List.replicate k ' ' ++ (word ++ sep :: rest)) = k :=
    spaces_replicate k (head_before hsep (by decide) hhead.1)
  have hdrop : (List.replicate k ' ' ++ (word ++ sep :: rest)).drop k = word ++ sep :: rest :=
    List.drop_left' List.length_replicate
  have hplain : ∀ c ∈ List.replicate k ' ' ++ word, (c != ')' && c != ',') = true := by
    intro c hc
    rcases List.mem_append.mp hc with hc | hc
    · rw [List.eq_of_mem_replicate hc]
      rfl
    · simpa using hword c hc
  have hstop : (sep :: rest).takeWhile (fun c => c != ')' && c != ',') = [] := by
    rcases hsep with rfl | rfl <;> rfl
  have hlen : ((List.replicate k ' ' ++ (word ++ sep :: rest)).takeWhile fun c => c != ')' && c != ',').length =
      k + word.length := by
    rw [← List.append_assoc, List.takeWhile_append_of_pos hplain, hstop]
    simp
  rw [List.append_assoc, functionParamParse]
  simp only [hspaces, hdrop, hlen, if_neg (head_before hsep (by decide) hhead.2), Nat.add_sub_cancel_left]

lemma parse_quoted (k m : ℕ) (rest : Text) (hbody : Open '"' body) (hsep : IsSep sep) :
    functionParamParse (List.replicate k ' ' ++ '"' :: body ++ '"' :: List.replicate m ' ' ++ sep :: rest) =
      ⟨k, body.length + 2, k + body.length + 2 + m⟩ := by
  obtain ⟨tail, htail⟩ : ∃ tail, List.replicate m ' ' ++ sep :: rest = tail := ⟨_, rfl⟩
  have hblanks : spaces tail = m := htail ▸ spaces_of_sep hsep m
  have htext : List.replicate k ' ' ++ '"' :: body ++ '"' :: List.replicate m ' ' ++ sep :: rest =
      List.replicate k ' ' ++ '"' :: (body ++ '"' :: tail) := by simp [← htail]
  have hspaces : spaces (List.replicate k ' ' ++ '"' :: (body ++ '"' :: tail)) = k := spaces_replicate k (by simp)
  have hopen : (List.replicate k ' ' ++ '"' :: (body ++ '"' :: tail)).drop k = '"' :: (body ++ '"' :: tail) :=
    List.drop_left' List.length_replicate
  have hinner : (List.replicate k ' ' ++ '"' :: (body ++ '"' :: tail)).drop (k + 1) = body ++ '"' :: tail := by
    rw [← List.drop_drop, hopen, List.drop_succ_cons, List.drop_zero]
  have hafter : (List.replicate k ' ' ++ '"' :: (body ++ '"' :: tail)).drop (k + 1 + body.length + 1) = tail := by
    rw [← List.drop_drop, ← List.drop_drop, hinner, List.drop_left, List.drop_succ_cons, List.drop_zero]
  rw [htext, functionParamParse]
  simp only [hspaces, hopen, List.head?_cons, if_true, hinner, hbody tail, hafter, hblanks]
  rw [Param.mk.injEq]
  omega

lemma Element.parse {elem : Text} (h : Element elem) (hsep : IsSep sep) :
    (functionParamParse (elem ++ sep :: rest)).sepPos = elem.length := by
  cases h with
  | unquoted k word hhead hword =>
    rw [parse_unquoted k rest hhead hword hsep]
    simp
  | quoted k body m hbody =>
    rw [parse_quoted k m rest hbody hsep]
    simp only [List.length_append, List.length_cons, List.length_replicate]
    omega

end

section

inductive Listed : ℕ → Text → List ℕ → Prop
  | last {pos : ℕ} {elem rest : Text} (helem : Element elem) : Listed pos (elem ++ ')' :: rest) [pos + elem.length]
  | more {pos : ℕ} {elem rest : Text} {seps : List ℕ} (helem : Element elem)
      (hrest : Listed (pos + elem.length + 1) rest seps) : Listed pos (elem ++ ',' :: rest) ((pos + elem.length) :: seps)

def Continues (ptr : ℕ) (sep : Char) (rest : Text) (r : ℕ) : Prop :=
  (sep = ')' ∧ r = ptr) ∨ (sep = ',' ∧ ∃ prev off, (validateFrom ')' .next prev (ptr + 1) off rest).parR = some r)

variable {prev sep : Char} {ptr off r : ℕ} {expr rest : Text}

lemma validate_nil (state : State) : (validateFrom ')' state prev ptr off []).parR = none := by
  cases state <;> simp [validateFrom]

lemma validate_close {state : State} (hstate : state ≠ .quoted)
    (h : (validateFrom ')' state prev ptr off (')' :: expr)).parR = some r) : r = ptr := by
  cases state with
  | quoted => exact absurd rfl hstate
  | next | unquoted | postquoted =>
    rw [validateFrom, if_pos ⟨rfl, hstate⟩] at h
    simpa using h.symm

lemma validate_postquoted (h : (validateFrom ')' .postquoted prev ptr off expr).parR = some r) :
    ∃ m sep rest, expr = List.replicate m ' ' ++ sep :: rest ∧ Continues (ptr + m) sep rest r := by
  induction expr generalizing prev ptr with
  | nil => simp [validate_nil] at h
  | cons c expr ih =>
    by_cases hclose : c = ')'
    · subst hclose
      exact ⟨0, ')', expr, rfl, .inl ⟨rfl, validate_close (by decide) h⟩⟩
    · rw [validateFrom, if_neg (by simp [Ne.symm hclose])] at h
      by_cases hcomma : c = ','
      · subst hcomma
        rw [if_pos rfl] at h
        exact ⟨0, ',', expr, rfl, .inr ⟨rfl, _, _, h⟩⟩
      · rw [if_neg hcomma] at h
        by_cases hblank : c = ' '
        · subst hblank
          rw [if_neg (by simp)] at h
          obtain ⟨m, sep, rest, rfl, hcont⟩ := ih h
          refine ⟨m + 1, sep, rest, rfl, ?_⟩
          rwa [Nat.add_right_comm] at hcont
        · simp [hblank] at h

lemma validate_unquoted (h : (validateFrom ')' .unquoted prev ptr off expr).parR = some r) :
    ∃ word sep rest, expr = word ++ sep :: rest ∧ (∀ c ∈ word, c ≠ ')' ∧ c ≠ ',') ∧
      Continues (ptr + word.length) sep rest r := by
  induction expr generalizing prev ptr with
  | nil => simp [validate_nil] at h
  | cons c expr ih =>
    by_cases hclose : c = ')'
    · subst hclose
      exact ⟨[], ')', expr, rfl, by simp, .inl ⟨rfl, validate_close (by decide) h⟩⟩
    · rw [validateFrom, if_neg (by simp [Ne.symm hclose])] at h
      by_cases hcomma : c = ','
      · subst hcomma
        rw [if_pos rfl] at h
        exact ⟨[], ',', expr, rfl, by simp, .inr ⟨rfl, _, _, h⟩⟩
      · rw [if_neg hcomma] at h
        obtain ⟨word, sep, rest, rfl, hword, hcont⟩ := ih h
        refine ⟨c :: word, sep, rest, rfl, List.forall_mem_cons.mpr ⟨⟨hclose, hcomma⟩, hword⟩, ?_⟩
        rwa [Nat.add_assoc, Nat.add_comm 1] at hcont

lemma validate_quoted (h : (validateFrom ')' .quoted prev ptr off expr).parR = some r) :
    ∃ body rest prev', expr = body ++ '"' :: rest ∧ Open prev body ∧
      (validateFrom ')' .postquoted prev' (ptr + body.length + 1) off rest).parR = some r := by
  induction expr generalizing prev ptr with
  | nil => simp [validate_nil] at h
  | cons c expr ih =>
    rw [validateFrom, if_neg (by simp)] at h
    by_cases hend : c = '"' ∧ prev ≠ '\\'
    · obtain ⟨rfl, hprev⟩ := hend
      rw [if_pos ⟨rfl, hprev⟩] at h
      refine ⟨[], expr, _, rfl, ?_, h⟩
      intro tail
      exact if_neg (by simp [hprev])
    · rw [if_neg hend] at h
      obtain ⟨body, rest, prev', rfl, hbody, hrest⟩ := ih h
      refine ⟨c :: body, rest, prev', rfl, ?_, ?_⟩
      · intro tail
        rw [List.cons_append, scanQuoted, if_pos (by tauto), hbody tail]
        rfl
      · rwa [Nat.add_assoc ptr, Nat.add_comm 1] at hrest

lemma Element.indent {elem : Text} (h : Element elem) : Element (' ' :: elem) := by
  cases h with
  | unquoted k word hhead hword => exact .unquoted (k + 1) word hhead hword
  | quoted k body m hbody => exact .quoted (k + 1) body m hbody

lemma validate_next (h : (validateFrom ')' .next prev ptr off expr).parR = some r) :
    ∃ elem sep rest, expr = elem ++ sep :: rest ∧ Element elem ∧ Continues (ptr + elem.length) sep rest r := by
  induction expr generalizing prev ptr off with
  | nil => simp [validate_nil] at h
  | cons c expr ih =>
    have hnil : Element [] := .unquoted 0 [] (by simp) (by simp)
    by_cases hclose : c = ')'
    · subst hclose
      exact ⟨[], ')', expr, rfl, hnil, .inl ⟨rfl, validate_close (by decide) h⟩⟩
    · rw [validateFrom, if_neg (by simp [Ne.symm hclose])] at h
      by_cases hquote : c = '"'
      · subst hquote
        rw [if_pos rfl] at h
        obtain ⟨body, tail, prev', rfl, hbody, hpost⟩ := validate_quoted h
        obtain ⟨m, sep, rest, rfl, hcont⟩ := validate_postquoted hpost
        refine ⟨_, sep, rest, ?_, .quoted 0 body m hbody, ?_⟩
        · simp
        · convert hcont using 1
          simp
          omega
      · rw [if_neg hquote] at h
        by_cases hword : c ≠ ' ' ∧ c ≠ ','
        · rw [if_pos hword] at h
          obtain ⟨word, sep, rest, rfl, hplain, hcont⟩ := validate_unquoted h
          refine ⟨_, sep, rest, ?_, .unquoted 0 (c :: word) (by simp [hword.1, hquote])
            (List.forall_mem_cons.mpr ⟨⟨hclose, hword.2⟩, hplain⟩), ?_⟩
          · simp
          · convert hcont using 1
            simp
            omega
        · rw [if_neg hword] at h
          by_cases hcomma : c = ','
          · subst hcomma
            exact ⟨[], ',', expr, rfl, hnil, .inr ⟨rfl, _, _, h⟩⟩
          · obtain rfl : c = ' ' := by tauto
            obtain ⟨elem, sep, rest, rfl, helem, hcont⟩ := ih h
            refine ⟨' ' :: elem, sep, rest, rfl, helem.indent, ?_⟩
            rwa [Nat.add_assoc, Nat.add_comm 1] at hcont

lemma validate_listed (h : (validateFrom ')' .next prev ptr off expr).parR = some r) :
    ∃ seps, Listed ptr expr seps ∧ seps.getLast? = some r := by
  induction hlen : expr.length using Nat.strong_induction_on generalizing prev ptr off expr with
  | _ n ih =>
    obtain ⟨elem, sep, rest, rfl, helem, hcont⟩ := validate_next h
    rcases hcont with ⟨rfl, rfl⟩ | ⟨rfl, prev', off', hrest⟩
    · exact ⟨_, .last helem, rfl⟩
    · have hshort : rest.length < n := by
        rw [← hlen, List.length_append, List.length_cons]
        omega
      obtain ⟨seps, hlist, hlast⟩ := ih _ hshort hrest rfl
      refine ⟨_, .more helem hlist, ?_⟩
      rw [List.getLast?_cons, hlast]
      rfl

lemma Listed.behind {pos : ℕ} {seps : List ℕ} (h : Listed pos expr seps) : ∀ s ∈ seps, pos ≤ s := by
  induction h with
  | last _ => simp
  | more _ _ ih =>
    intro s hs
    rcases List.mem_cons.mp hs with rfl | hs
    · exact Nat.le_add_right _ _
    · have := ih s hs
      omega

lemma Listed.le_last {pos : ℕ} {seps : List ℕ} (h : Listed pos expr seps) (hlast : seps.getLast? = some r) :
    ∀ s ∈ seps, s ≤ r := by
  induction h with
  | last _ =>
    obtain rfl := Option.some_inj.mp hlast
    simp
  | @more pos elem rest seps _ hrest ih =>
    have hlast' : seps.getLast? = some r := by
      cases hrest <;> simpa using hlast
    intro s hs
    rcases List.mem_cons.mp hs with rfl | hs
    · have := hrest.behind r (List.mem_of_getLast? hlast')
      omega
    · exact ih hlast' s hs

lemma separator_at (before elem : Text) (sep : Char) (rest : Text) :
    (before ++ (elem ++ sep :: rest))[before.length + elem.length]? = some sep := by
  rw [← List.append_assoc, ← List.length_append, List.getElem?_append_right le_rfl, Nat.sub_self]
  rfl

lemma Listed.separators {pos : ℕ} {seps : List ℕ} (h : Listed pos expr seps) (before : Text) (hpos : before.length = pos)
    {n : ℕ} (hn : expr.length ≤ n) : separators (before ++ expr) (n + 1) pos = some seps := by
  induction h generalizing before n with
  | @last pos elem rest helem =>
    subst hpos
    rw [FunctionParam.separators, List.drop_left, helem.parse (.inr rfl), separator_at]
    exact if_neg (by decide)
  | @more pos elem rest seps helem hrest ih =>
    subst hpos
    obtain ⟨n, rfl⟩ : ∃ n', n = n' + 1 := by
      refine Nat.exists_eq_succ_of_ne_zero ?_
      rintro rfl
      simp at hn
    have hnext := ih (before ++ elem ++ [',']) (n := n) (by simp [Nat.add_assoc]) (by simp at hn; omega)
    have htext : before ++ elem ++ [','] ++ rest = before ++ (elem ++ ',' :: rest) := by simp
    rw [htext] at hnext
    rw [FunctionParam.separators, List.drop_left, helem.parse (.inl rfl), separator_at]
    simp only [if_true, hnext, Option.map_some]

end

section

def escapeChar (c : Char) : Text := if c = '"' then ['\\', '"'] else [c]

def escape (param : Text) : Text := param.flatMap escapeChar

variable {param src gap tail : Text} {c prev : Char}

lemma escape_cons (c : Char) (src : Text) : escape (c :: src) = escapeChar c ++ escape src := rfl

lemma escape_concat (src : Text) (c : Char) : escape (src ++ [c]) = escape src ++ escapeChar c := by
  simp [escape]

lemma getEscapeStringLen_eq (src : Text) : getEscapeStringLen ['"'] src = (escape src).length := by
  induction src with
  | nil => rfl
  | cons c src ih =>
    rw [getEscapeStringLen, ih, escape_cons, List.length_append, escapeChar, Nat.add_comm]
    by_cases hc : c = '"' <;> simp [hc]

lemma putBefore_concat (u : Text) (x : Char) (w : Text) (c : Char) :
    putBefore (u.length + 1) c (u ++ x :: w) = some (u ++ c :: w) := by
  rw [putBefore, if_pos (by simp)]
  simp

lemma length_le_escape (src : Text) : src.length ≤ (escape src).length := by
  induction src with
  | nil => rfl
  | cons c src ih =>
    rw [escape_cons, List.length_append, List.length_cons, escapeChar]
    split_ifs <;> simp <;> omega

lemma quoteFrom_concat (src : Text) (c : Char) (gap : Text) (x : Char) (done : Text) :
    quoteFrom (src.length + 1) (src.length + gap.length + 1 + 1) (src ++ c :: (gap ++ x :: done)) =
      if c = '"' then (putBefore (src.length + gap.length + 1) '\\' (src ++ c :: (gap ++ c :: done))).bind
        (quoteFrom src.length (src.length + gap.length))
      else quoteFrom src.length (src.length + gap.length + 1) (src ++ c :: (gap ++ c :: done)) := by
  have hread : ∀ w, (src ++ c :: w)[src.length]? = some c := by simp
  have hput := putBefore_concat (src ++ c :: gap) x done c
  simp only [List.length_append, List.length_cons, List.append_assoc, List.cons_append, ← Nat.add_assoc] at hput
  rw [quoteFrom, hread]
  simp only [Option.bind_eq_bind, Option.bind_some, hput, hread]
  rfl

lemma quoteFrom_spec (src gap done : Text) (hgap : src.length + gap.length = (escape src).length + 1) :
    quoteFrom src.length (src.length + gap.length) (src ++ gap ++ done) = some ('"' :: escape src ++ done) := by
  induction src using List.reverseRecOn generalizing gap done with
  | nil =>
    obtain ⟨x, rfl⟩ : ∃ x, gap = [x] := List.length_eq_one_iff.mp (by simpa [escape] using hgap)
    exact putBefore_concat [] x done '"'
  | append_singleton src c ih =>
    have hlong := length_le_escape src
    rw [escape_concat, List.length_append, List.length_append, List.length_singleton, escapeChar] at hgap
    rcases List.eq_nil_or_concat gap with rfl | ⟨gap, x, rfl⟩
    · split_ifs at hgap <;> simp at hgap <;> omega
    · have hstep := quoteFrom_concat src c gap x done
      rw [List.concat_eq_append, List.length_append, List.length_singleton] at hgap ⊢
      have htext : src ++ [c] ++ (gap ++ [x]) ++ done = src ++ c :: (gap ++ x :: done) := by simp
      rw [htext, List.length_append, List.length_singleton, Nat.add_right_comm, ← Nat.add_assoc, hstep, escape_concat,
        escapeChar]
      by_cases hc : c = '"'
      · subst hc
        rw [if_pos rfl] at hgap
        obtain ⟨first, last, hshift⟩ : ∃ first last, '"' :: gap = first ++ [last] :=
          ⟨_, _, (List.dropLast_append_getLast (List.cons_ne_nil _ gap)).symm⟩
        have hlen : gap.length = first.length := by simpa using congrArg List.length hshift
        have hput := putBefore_concat (src ++ first) last ('"' :: done) '\\'
        have hcells : src ++ '"' :: (gap ++ '"' :: done) = src ++ first ++ last :: '"' :: done := by
          rw [← List.cons_append, hshift]
          simp
        have hrest := ih first ('\\' :: '"' :: done) (by simp at hgap; omega)
        rw [List.length_append] at hput
        rw [if_pos rfl, if_pos rfl, hcells, hlen, hput, Option.bind_some, hrest]
        simp
      · rw [if_neg hc] at hgap
        have hrest := ih (c :: gap) (c :: done) (by simp at hgap ⊢; omega)
        rw [if_neg hc, if_neg hc]
        simpa [Nat.add_assoc] using hrest

lemma open_escape (h : src.getLastD prev ≠ '\\') : Open prev (escape src) := by
  intro tail
  induction src generalizing prev with
  | nil => exact if_neg (by simpa using h)
  | cons c src ih =>
    rw [List.getLastD_cons] at h
    by_cases hc : c = '"'
    · subst hc
      rw [escape_cons, escapeChar, if_pos rfl]
      simp only [List.cons_append, List.nil_append, scanQuoted]
      rw [if_pos (.inl (by decide)), if_pos (.inr trivial), ih h]
      rfl
    · rw [escape_cons, escapeChar, if_neg hc]
      simp only [List.cons_append, List.nil_append, scanQuoted]
      rw [if_pos (.inl hc), ih h]
      rfl

lemma unquoteFrom_plain (n : ℕ) (h : c ≠ '\\' ∨ tail.head? ≠ some '"') :
    unquoteFrom (n + 1) (c :: tail) = c :: unquoteFrom n tail := by
  rw [unquoteFrom]
  rintro pin rfl rfl
  simp at h

lemma escape_head (src tail : Text) (h : src ≠ []) : (escape src ++ tail).head? ≠ some '"' := by
  cases src with
  | nil => exact absurd rfl h
  | cons c src =>
    rw [escape_cons, escapeChar]
    split_ifs with hc
    · simp
    · simpa using hc

lemma unquote_escape (tail : Text) (h : src.getLast? ≠ some '\\') : unquoteFrom (escape src).length (escape src ++ tail) = src := by
  induction src with
  | nil => cases tail <;> rfl
  | cons c src ih =>
    have hrest : src.getLast? ≠ some '\\' := by
      cases src with
      | nil => simp
      | cons x src => simpa using h
    by_cases hc : c = '"'
    · subst hc
      rw [escape_cons, escapeChar, if_pos rfl]
      simp only [List.cons_append, List.nil_append, List.length_cons, unquoteFrom, Nat.add_sub_cancel, ih hrest]
    · rw [escape_cons, escapeChar, if_neg hc]
      simp only [List.cons_append, List.nil_append, List.length_cons]
      rw [unquoteFrom_plain, ih hrest]
      by_cases hsrc : src = []
      · subst hsrc
        exact .inl (by simpa using h)
      · exact .inr (escape_head src tail hsrc)

lemma quote_spec (param : Text) (forced : Bool) {q : Text} (h : functionParamQuote param forced = some q) :
    (q = param ∧ param.head? ≠ some '"' ∧ param.head? ≠ some ' ' ∧ ',' ∉ param ∧ ')' ∉ param) ∨
      (q = '"' :: escape param ++ ['"'] ∧ param.getLast? ≠ some '\\') := by
  rw [functionParamQuote] at h
  split_ifs at h with hplain hlast
  · exact .inl ⟨by simpa using h.symm, hplain.2⟩
  · have hlong := length_le_escape param
    obtain ⟨k, hk⟩ : ∃ k, (escape param).length + 2 - param.length = k + 1 :=
      ⟨(escape param).length + 1 - param.length, by omega⟩
    have hput := putBefore_concat (param ++ List.replicate k '\x00') '\x00' [] '"'
    have hloop := quoteFrom_spec param (List.replicate k '\x00') ['"'] (by rw [List.length_replicate]; omega)
    have hsize : (escape param).length + 2 = param.length + k + 1 := by omega
    rw [List.length_append, List.length_replicate, List.append_assoc, ← List.replicate_succ', ← hk, ← hsize] at hput
    rw [List.length_replicate] at hloop
    simp only [getEscapeStringLen_eq, hput, Option.bind_eq_bind, Option.bind_some] at h
    rw [hsize, Nat.add_sub_cancel, hloop] at h
    exact .inr ⟨by simpa using h.symm, hlast⟩

lemma open_quoted (hlast : param.getLast? ≠ some '\\') : Open '"' (escape param) := by
  apply open_escape
  cases param with
  | nil => decide
  | cons c param => simpa [List.getLast?_cons] using hlast

lemma plain_quoted (hcomma : ',' ∉ param) (hclose : ')' ∉ param) : ∀ c ∈ param, c ≠ ')' ∧ c ≠ ',' :=
  fun _ hc => ⟨fun heq => hclose (heq ▸ hc), fun heq => hcomma (heq ▸ hc)⟩

lemma element_of_quoted {q : Text} {forced : Bool} (h : functionParamQuote param forced = some q) : Element q := by
  rcases quote_spec param forced h with ⟨rfl, hquote, hblank, hcomma, hclose⟩ | ⟨rfl, hlast⟩
  · exact .unquoted 0 q ⟨hblank, hquote⟩ (plain_quoted hcomma hclose)
  · exact .quoted 0 (escape param) 0 (open_quoted hlast)

lemma unquote_quote {q : Text} {sep : Char} {forced : Bool} (h : functionParamQuote param forced = some q) (rest : Text)
    (hsep : IsSep sep) :
    (functionParamParse (q ++ sep :: rest)).paramPos = 0 ∧
      (functionParamUnquoteDyn (q ++ sep :: rest) (functionParamParse (q ++ sep :: rest)).length).1 = param := by
  rcases quote_spec param forced h with ⟨rfl, hquote, hblank, hcomma, hclose⟩ | ⟨rfl, hlast⟩
  · have hparse := parse_unquoted 0 rest ⟨hblank, hquote⟩ (plain_quoted hcomma hclose) hsep
    rw [List.replicate_zero, List.nil_append] at hparse
    rw [hparse, functionParamUnquoteDyn, if_neg]
    · exact ⟨rfl, List.take_left⟩
    · exact fun hq => head_before hsep (by decide) hquote hq.2
  · have hparse := parse_quoted 0 0 rest (open_quoted hlast) hsep
    rw [List.replicate_zero, List.nil_append] at hparse
    have hread := unquote_escape ('"' :: sep :: rest) hlast
    rw [hparse, functionParamUnquoteDyn, if_pos ⟨by simp, rfl⟩]
    refine ⟨rfl, ?_⟩
    simpa using hread

end

def readParam (text : Text) (pos : ℕ) : Text × ℕ :=
  let expr := text.drop pos
  let param := functionParamParse expr
  ((functionParamUnquoteDyn (expr.drop param.paramPos) param.length).1, pos + param.sepPos)

theorem parameter_scanners_agree :
    (∀ expr r, (functionValidateParameters expr ')').parR = some r →
      ∃ seps, separators expr (expr.length + 1) 0 = some seps ∧ seps.getLast? = some r ∧ ∀ s ∈ seps, s ≤ r) ∧
    ∀ param forced q, functionParamQuote param forced = some q → ∀ before rest, ∀ opening ∈ ['(', ','], ∀ sep ∈ [',', ')'],
      readParam (before ++ opening :: (q ++ sep :: rest)) (before.length + 1) = (param, before.length + 1 + q.length) := by
  refine ⟨?_, ?_⟩
  · intro expr r h
    obtain ⟨seps, hlist, hlast⟩ := validate_listed h
    exact ⟨seps, hlist.separators [] rfl le_rfl, hlast, hlist.le_last hlast⟩
  · intro param forced q h before rest opening _ sep hsep
    have hsep' : IsSep sep := by simpa [IsSep] using hsep
    have hdrop : (before ++ opening :: (q ++ sep :: rest)).drop (before.length + 1) = q ++ sep :: rest := by
      rw [← List.drop_drop, List.drop_left]
      rfl
    obtain ⟨hpos, hread⟩ := unquote_quote h rest hsep'
    rw [readParam, hdrop, hpos, (element_of_quoted h).parse hsep', List.drop_zero, hread]

theorem a_comma_and_a_quote_read_back :
    (∃ seps, separators "a,\"x\\\",\",5)".toList 12 0 = some seps ∧ seps.getLast? = some 10 ∧ ∀ s ∈ seps, s ≤ 10) ∧
      readParam "max(a,\"x\\\",\",5)".toList 6 = ("x\",".toList, 12) :=
  ⟨parameter_scanners_agree.1 "a,\"x\\\",\",5)".toList 10 (by decide),
    parameter_scanners_agree.2 "x\",".toList false "\"x\\\",\"".toList (by decide) "max(a".toList "5)".toList ',' (by decide)
      ',' (by decide)⟩

end Glaber.Expr.FunctionParam
