import Glaber.Json.Grammar

namespace Glaber.Json

section

structure Written (number : List Char → Prop) (text : List Char) (value : Layout) : Prop where
  split : ∃ before behind, Blank before ∧ Blank behind ∧ text = before ++ (value.text ++ behind)
  valid : value.Valid number
  container : ∃ object blank members, value = .node object blank members

def jsonValidateLength (start : List Char) : ℕ :=
  match jsonValidate start with
  | none => 0
  | some (_, rest) => (skipWhitespace start).length - rest.length

structure AcceptsJson (text : List Char) : Prop where
  accepts : jsonValidateLength text ≠ 0 ↔ ∃ value, Written RfcNumber text value
  length : ∀ value, Written RfcNumber text value → jsonValidateLength text = value.text.length

end

section

variable {number : List Char → Prop}

lemma skipWhitespace_blank {w : List Char} (hw : Blank w) (p : List Char) : skipWhitespace (w ++ p) = skipWhitespace p :=
  List.dropWhile_append_of_pos (by simpa [Blank] using hw)

lemma skipWhitespace_split (p : List Char) : ∃ w, Blank w ∧ p = w ++ skipWhitespace p := by
  refine ⟨p.takeWhile (· ∈ whitespace), fun c hc => ?_, List.takeWhile_append_dropWhile.symm⟩
  simpa using List.mem_takeWhile_imp hc

lemma skipWhitespace_head {c : Char} {p q : List Char} (h : skipWhitespace p = c :: q) : c ∉ whitespace := by
  induction p with
  | nil => cases h
  | cons d p ih =>
    by_cases hd : d ∈ whitespace
    · rw [skipWhitespace, List.dropWhile_cons_of_pos (by simpa using hd)] at h
      exact ih h
    · rw [skipWhitespace_cons hd] at h
      obtain rfl : d = c := (List.cons.inj h).1
      exact hd

lemma membersValid_iff {object : Bool} {members : List (Gaps × Layout)} :
    MembersValid number object members ↔ ∀ member ∈ members, member.1.Valid object ∧ member.2.Valid number := by
  induction members with
  | nil => simp [MembersValid]
  | cons member members ih =>
    obtain ⟨gaps, value⟩ := member
    simp [MembersValid, ih, and_assoc]

lemma Layout.Valid.mono {number' : List Char → Prop} (hnumber : ∀ token, number token → number' token) {value : Layout}
    (h : value.Valid number) : value.Valid number' := by
  induction value using Layout.induct with
  | str body => exact h
  | literal token => exact h.imp_left (hnumber token)
  | node object blank members ih =>
    refine ⟨h.1, membersValid_iff.2 fun member hm => ?_⟩
    have hmember := membersValid_iff.1 h.2 member hm
    exact ⟨hmember.1, ih member hm hmember.2⟩

lemma Layout.Valid.head {value : Layout} (h : value.Valid NumberToken) :
    ∃ c tail, value.text = c :: tail ∧ c ∉ whitespace ∧ c ≠ ']' ∧ c ≠ '\x7d' ∧ c ≠ ',' := by
  cases value with
  | str body => exact ⟨'"', _, rfl, by decide, by decide, by decide, by decide⟩
  | literal token =>
    obtain ⟨c, tail, rfl, hc⟩ := LiteralToken.head h
    refine ⟨c, tail, rfl, ?_⟩
    rcases hc with hc | rfl | rfl | rfl | rfl
    · refine ⟨isDigit_not_mem hc (by decide), ?_, ?_, ?_⟩
      all_goals
        rintro rfl
        exact absurd hc (by decide)
    all_goals decide
  | node object blank members =>
    refine ⟨openBracket object, _, rfl, ?_⟩
    cases object <;> decide

lemma skipWhitespace_lead {object : Bool} {gaps : Gaps} {value : Layout} (hgaps : gaps.Valid object)
    (hvalue : value.Valid NumberToken) (rest : List Char) :
    skipWhitespace (gaps.before ++ (gaps.label object ++ (value.text ++ rest))) =
      gaps.label object ++ (value.text ++ rest) := by
  rw [skipWhitespace_blank hgaps.before]
  cases object with
  | false =>
    obtain ⟨c, tail, hc, hspace, -⟩ := hvalue.head
    rw [hc]
    exact skipWhitespace_cons hspace _
  | true => exact skipWhitespace_cons (by decide) _

lemma breaks_cons {c : Char} {p : List Char} (hc : c ∈ ',' :: ']' :: '\x7d' :: whitespace) : Breaks (c :: p) := by
  intro d hd
  obtain rfl : c = d := by simpa using hd
  exact hc

lemma breaks_behind (object : Bool) {w : List Char} (hw : Blank w) (members : List (Gaps × Layout)) (rest : List Char) :
    Breaks (w ++ (tailText object members ++ closeBracket object :: rest)) := by
  cases w with
  | cons c w =>
    have hc := hw c List.mem_cons_self
    exact breaks_cons (by simp [hc])
  | nil =>
    cases members with
    | cons member members => exact breaks_cons (by simp)
    | nil =>
      apply breaks_cons
      cases object <;> decide

end

section

def ReadsLayout (value : Layout) : Prop :=
  ∀ fuel w rest, weight value.tree ≤ fuel → Blank w → Breaks rest →
    parseValue fuel (w ++ (value.text ++ rest)) = some (value.tree, rest)

lemma parseValue_blank {w : List Char} (hw : Blank w) (fuel : ℕ) (p : List Char) :
    parseValue fuel (w ++ p) = parseValue fuel p := by
  cases fuel with
  | zero => simp [parseValue]
  | succ fuel => simp only [parseValue, skipWhitespace_blank hw]

lemma skipWhitespace_tail (object : Bool) {w : List Char} (hw : Blank w) (members : List (Gaps × Layout)) (rest : List Char) :
    skipWhitespace (w ++ (tailText object members ++ closeBracket object :: rest)) =
      tailText object members ++ closeBracket object :: rest := by
  rw [skipWhitespace_blank hw]
  cases members with
  | nil =>
    have hnot : closeBracket object ∉ whitespace := by cases object <;> decide
    exact skipWhitespace_cons hnot rest
  | cons member members =>
    obtain ⟨gaps, value⟩ := member
    exact skipWhitespace_cons (by decide) _

lemma parseItems_text {members : List (Gaps × Layout)} {gaps : Gaps} {value : Layout} {fuel : ℕ} {w : List Char}
    (hw : Blank w) (hvalid : MembersValid NumberToken false ((gaps, value) :: members))
    (hreads : ∀ member ∈ (gaps, value) :: members, ReadsLayout member.2)
    (hfuel : membersWeight (memberTrees false ((gaps, value) :: members)) ≤ fuel) (rest : List Char) :
    parseItems fuel (w ++ (value.text ++ (gaps.behind ++ (tailText false members ++ ']' :: rest)))) =
      some (memberTrees false ((gaps, value) :: members), rest) := by
  induction members generalizing gaps value fuel w with
  | nil =>
    obtain ⟨hgaps, -, -⟩ := hvalid
    simp only [memberTrees, membersWeight] at hfuel
    obtain ⟨fuel, rfl⟩ : ∃ n, fuel = n + 1 := ⟨fuel - 1, by omega⟩
    have hread := hreads _ List.mem_cons_self fuel w _ (by dsimp only; omega) hw
      (breaks_behind false hgaps.behind [] rest)
    have hskip := skipWhitespace_tail false hgaps.behind [] rest
    rw [show closeBracket false = ']' from rfl] at hread hskip
    rw [parseItems, hread]
    simp only [Option.bind_eq_bind, Option.bind_some, hskip]
    rfl
  | cons member members ih =>
    obtain ⟨gaps', value'⟩ := member
    obtain ⟨hgaps, -, hrest⟩ := hvalid
    simp only [memberTrees, membersWeight] at hfuel
    obtain ⟨fuel, rfl⟩ : ∃ n, fuel = n + 1 := ⟨fuel - 1, by omega⟩
    have hread := hreads _ List.mem_cons_self fuel w _ (by dsimp only; omega) hw
      (breaks_behind false hgaps.behind ((gaps', value') :: members) rest)
    have hskip := skipWhitespace_tail false hgaps.behind ((gaps', value') :: members) rest
    have hmore := ih hrest.1.before hrest (fun member hm => hreads member (List.mem_cons_of_mem _ hm))
      (show membersWeight (memberTrees false ((gaps', value') :: members)) ≤ fuel by
        simp only [memberTrees, membersWeight]; omega)
    have htail : tailText false ((gaps', value') :: members) ++ closeBracket false :: rest = ',' :: (gaps'.before ++
        (value'.text ++ (gaps'.behind ++ (tailText false members ++ ']' :: rest)))) := by
      simp [tailText, Gaps.label, closeBracket]
    rw [show closeBracket false = ']' from rfl] at hread hskip htail
    rw [htail] at hread hskip ⊢
    rw [parseItems, hread]
    simp only [Option.bind_eq_bind, Option.bind_some, hskip, hmore]
    rfl

lemma parse_member {gaps : Gaps} {value : Layout} {fuel : ℕ} {rest : List Char} (hgaps : gaps.Valid true)
    (hread : ReadsLayout value) (hfuel : weight value.tree ≤ fuel) (hrest : Breaks rest) :
    parseString (gaps.label true ++ (value.text ++ rest)) =
        some (decodeBody gaps.name, gaps.behindName ++ ':' :: (gaps.beforeValue ++ (value.text ++ rest))) ∧
      skipWhitespace (gaps.behindName ++ ':' :: (gaps.beforeValue ++ (value.text ++ rest))) =
        ':' :: (gaps.beforeValue ++ (value.text ++ rest)) ∧
      parseValue fuel (gaps.beforeValue ++ (value.text ++ rest)) = some (value.tree, rest) := by
  have htext : gaps.label true ++ (value.text ++ rest) =
      '"' :: (gaps.name ++ '"' :: (gaps.behindName ++ ':' :: (gaps.beforeValue ++ (value.text ++ rest)))) := by
    simp [Gaps.label]
  refine ⟨?_, ?_, hread fuel _ rest hfuel hgaps.beforeValue hrest⟩
  · rw [htext]
    exact parseString_body (hgaps.name rfl) _
  · rw [skipWhitespace_blank hgaps.behindName]
    exact skipWhitespace_cons (by decide) _

lemma parseMembers_text {members : List (Gaps × Layout)} {gaps : Gaps} {value : Layout} {fuel : ℕ}
    (hvalid : MembersValid NumberToken true ((gaps, value) :: members))
    (hreads : ∀ member ∈ (gaps, value) :: members, ReadsLayout member.2)
    (hfuel : membersWeight (memberTrees true ((gaps, value) :: members)) ≤ fuel) (rest : List Char) :
    parseMembers fuel (gaps.label true ++ (value.text ++ (gaps.behind ++ (tailText true members ++ '\x7d' :: rest)))) =
      some (memberTrees true ((gaps, value) :: members), rest) := by
  have hhead : ∀ (gaps : Gaps) p, (gaps.label true ++ p).head? = some '"' := fun gaps p => by simp [Gaps.label]
  induction members generalizing gaps value fuel with
  | nil =>
    obtain ⟨hgaps, -, -⟩ := hvalid
    simp only [memberTrees, membersWeight] at hfuel
    obtain ⟨fuel, rfl⟩ : ∃ n, fuel = n + 1 := ⟨fuel - 1, by omega⟩
    obtain ⟨hname, hcolon, hvalue⟩ := parse_member hgaps (hreads _ List.mem_cons_self)
      (show weight value.tree ≤ fuel by omega) (breaks_behind true hgaps.behind [] rest)
    have hskip := skipWhitespace_tail true hgaps.behind [] rest
    rw [show closeBracket true = '\x7d' from rfl] at hname hcolon hvalue hskip
    rw [parseMembers, if_pos (hhead gaps _), hname]
    simp only [Option.bind_eq_bind, Option.bind_some, hcolon, hvalue, hskip]
    rfl
  | cons member members ih =>
    obtain ⟨gaps', value'⟩ := member
    obtain ⟨hgaps, -, hrest⟩ := hvalid
    simp only [memberTrees, membersWeight] at hfuel
    obtain ⟨fuel, rfl⟩ : ∃ n, fuel = n + 1 := ⟨fuel - 1, by omega⟩
    obtain ⟨hname, hcolon, hvalue⟩ := parse_member hgaps (hreads _ List.mem_cons_self)
      (show weight value.tree ≤ fuel by omega)
      (breaks_behind true hgaps.behind ((gaps', value') :: members) rest)
    have hskip := skipWhitespace_tail true hgaps.behind ((gaps', value') :: members) rest
    have hmore := ih hrest (fun member hm => hreads member (List.mem_cons_of_mem _ hm))
      (show membersWeight (memberTrees true ((gaps', value') :: members)) ≤ fuel by
        simp only [memberTrees, membersWeight]; omega)
    have htail : tailText true ((gaps', value') :: members) ++ closeBracket true :: rest = ',' :: (gaps'.before ++
        (gaps'.label true ++ (value'.text ++ (gaps'.behind ++ (tailText true members ++ '\x7d' :: rest))))) := by
      simp [tailText, closeBracket]
    have hquote : skipWhitespace (gaps'.before ++ (gaps'.label true ++ (value'.text ++ (gaps'.behind ++
        (tailText true members ++ '\x7d' :: rest))))) =
        gaps'.label true ++ (value'.text ++ (gaps'.behind ++ (tailText true members ++ '\x7d' :: rest))) :=
      skipWhitespace_lead hrest.1 hrest.2.1 _
    rw [show closeBracket true = '\x7d' from rfl] at hname hcolon hvalue hskip htail
    rw [htail] at hname hcolon hvalue hskip ⊢
    rw [parseMembers, if_pos (hhead gaps _), hname]
    simp only [Option.bind_eq_bind, Option.bind_some, hcolon, hvalue, hskip, hquote, hmore]
    rfl

lemma parseValue_container {object : Bool} {blank : List Char} {members : List (Gaps × Layout)}
    (hblank : Blank blank) (hvalid : MembersValid NumberToken object members)
    (hreads : ∀ member ∈ members, ReadsLayout member.2) : ReadsLayout (.node object blank members) := by
  intro fuel w rest hfuel hw _
  rw [Layout.tree, weight] at hfuel
  obtain ⟨fuel, rfl⟩ : ∃ n, fuel = n + 1 := ⟨fuel - 1, by omega⟩
  have hopen : openBracket object ∉ whitespace := by cases object <;> decide
  have htext : (Layout.node object blank members).text ++ rest =
      openBracket object :: (membersText object blank members ++ closeBracket object :: rest) := by
    simp [Layout.text]
  rw [htext, parseValue_blank hw, parseValue]
  simp only [skipWhitespace_cons hopen]
  cases members with
  | nil =>
    have hclose : closeBracket object ∉ whitespace := by cases object <;> decide
    simp only [membersText, skipWhitespace_blank hblank, skipWhitespace_cons hclose]
    cases object <;> rfl
  | cons member members =>
    obtain ⟨gaps, value⟩ := member
    obtain ⟨c, tail, hc, -, hsquare, -, -⟩ := hvalid.2.1.head
    cases object with
    | false =>
      have hitems := parseItems_text (w := []) (by simp [Blank]) hvalid hreads (show _ ≤ fuel by omega) rest
      have hskip : skipWhitespace (membersText false blank ((gaps, value) :: members) ++ ']' :: rest) =
          value.text ++ (gaps.behind ++ (tailText false members ++ ']' :: rest)) := by
        simp only [membersText, List.append_assoc, skipWhitespace_lead hvalid.1 hvalid.2.1]
        rfl
      rw [List.nil_append] at hitems
      simp only [openBracket, closeBracket, Bool.false_eq_true, if_false, hskip]
      rw [hc, List.cons_append] at hitems ⊢
      simp [hsquare, hitems, Layout.tree]
    | true =>
      have hmembers := parseMembers_text hvalid hreads (show _ ≤ fuel by omega) rest
      have hskip : skipWhitespace (membersText true blank ((gaps, value) :: members) ++ '\x7d' :: rest) =
          gaps.label true ++ (value.text ++ (gaps.behind ++ (tailText true members ++ '\x7d' :: rest))) := by
        simp only [membersText, List.append_assoc, skipWhitespace_lead hvalid.1 hvalid.2.1]
      obtain ⟨q, hquote⟩ : ∃ q, gaps.label true ++ (value.text ++ (gaps.behind ++ (tailText true members ++ '\x7d' :: rest))) =
          '"' :: q := ⟨_, rfl⟩
      simp only [openBracket, closeBracket, if_true, hskip]
      rw [hquote] at hmembers ⊢
      simp [hmembers, Layout.tree]

lemma reads_layout {value : Layout} (h : value.Valid NumberToken) : ReadsLayout value := by
  induction value using Layout.induct with
  | str body =>
    intro fuel w rest hfuel hw _
    rw [Layout.tree, weight] at hfuel
    obtain ⟨fuel, rfl⟩ : ∃ n, fuel = n + 1 := ⟨fuel - 1, by omega⟩
    have hparse := parseString_body h rest
    have htext : (Layout.str body).text ++ rest = '"' :: (body ++ '"' :: rest) := by simp [Layout.text]
    rw [htext, parseValue_blank hw, parseValue]
    simp only [skipWhitespace_cons (show '"' ∉ whitespace by decide), if_true, hparse]
    rfl
  | literal token =>
    intro fuel w rest hfuel hw hrest
    rw [Layout.tree, weight] at hfuel
    obtain ⟨fuel, rfl⟩ : ∃ n, fuel = n + 1 := ⟨fuel - 1, by omega⟩
    rw [parseValue_blank hw]
    exact parseValue_literal fuel h hrest
  | node object blank members ih =>
    exact parseValue_container h.1 h.2 fun member hm => ih member hm (membersValid_iff.1 h.2 member hm).2

lemma weight_le_text {value : Layout} (h : value.Valid NumberToken) : weight value.tree ≤ 2 * value.text.length := by
  induction value using Layout.induct with
  | str body => simp [Layout.tree, weight, Layout.text]; omega
  | literal token =>
    obtain ⟨c, tail, rfl, -⟩ := LiteralToken.head h
    simp [Layout.tree, weight, Layout.text]
    omega
  | node object blank members ih =>
    have htail : ∀ ms, (∀ member ∈ ms, member ∈ members) →
        membersWeight (memberTrees object ms) ≤ 2 * (tailText object ms).length := by
      intro ms hms
      induction ms with
      | nil => simp [memberTrees, membersWeight]
      | cons member ms ihms =>
        obtain ⟨gaps, value⟩ := member
        have hmem := hms _ List.mem_cons_self
        have hvalue := ih _ hmem (membersValid_iff.1 h.2 _ hmem).2
        have hrest := ihms fun m hm => hms m (List.mem_cons_of_mem _ hm)
        dsimp only at hvalue
        simp only [memberTrees, membersWeight, tailText, List.length_cons, List.length_append]
        omega
    have hmembers : membersWeight (memberTrees object members) ≤ 2 * (membersText object blank members).length + 2 := by
      have hall := htail members fun _ hm => hm
      cases members with
      | nil => simp [memberTrees, membersWeight]
      | cons member members =>
        obtain ⟨gaps, value⟩ := member
        simp only [tailText, membersText, List.length_cons] at hall ⊢
        omega
    simp only [Layout.tree, weight, Layout.text, List.length_cons, List.length_append, List.length_nil]
    omega

end

section

lemma parseLiteral_text {text p token rest : List Char} (h : parseLiteral text p = some (token, rest)) :
    token = text ∧ p = text ++ rest := by
  rw [parseLiteral] at h
  split_ifs at h with hprefix
  obtain ⟨rfl, rfl⟩ := Prod.mk.inj (Option.some.inj h)
  exact ⟨rfl, (List.prefix_iff_eq_append.1 (List.isPrefixOf_iff_prefix.1 hprefix)).symm⟩

def LayoutIn (p rest : List Char) : Prop :=
  ∃ (w : List Char) (value : Layout), Blank w ∧ value.Valid NumberToken ∧ p = w ++ (value.text ++ rest)

def MembersIn (object : Bool) (p rest : List Char) : Prop :=
  ∃ members : List (Gaps × Layout), members ≠ [] ∧ MembersValid NumberToken object members ∧
    p = membersText object [] members ++ closeBracket object :: rest

lemma tailText_eq {object : Bool} {members : List (Gaps × Layout)} (h : members ≠ []) (blank : List Char) :
    tailText object members = ',' :: membersText object blank members := by
  cases members with
  | nil => exact absurd rfl h
  | cons member members => rfl

lemma MembersIn.blank {object : Bool} {p rest w : List Char} (h : MembersIn object p rest) (hw : Blank w) :
    MembersIn object (w ++ p) rest := by
  obtain ⟨members, hne, hvalid, rfl⟩ := h
  cases members with
  | nil => exact absurd rfl hne
  | cons member members =>
    obtain ⟨gaps, value⟩ := member
    obtain ⟨hgaps, hrest⟩ := hvalid
    have hbefore : Blank (w ++ gaps.before) := List.forall_mem_append.2 ⟨hw, hgaps.before⟩
    exact ⟨({ gaps with before := w ++ gaps.before }, value) :: members, List.cons_ne_nil _ _,
      ⟨⟨hbefore, hgaps.behindName, hgaps.beforeValue, hgaps.behind, hgaps.name⟩, hrest⟩, by
        simp [membersText, Gaps.label]⟩

lemma MembersIn.cons {object : Bool} {gaps : Gaps} {value : Layout} (p rest : List Char) (hgaps : gaps.Valid object)
    (hvalue : value.Valid NumberToken)
    (h : p = closeBracket object :: rest ∨ ∃ q, p = ',' :: q ∧ MembersIn object q rest) :
    MembersIn object (gaps.before ++ (gaps.label object ++ (value.text ++ (gaps.behind ++ p)))) rest := by
  rcases h with rfl | ⟨q, rfl, members, hne, hvalid, rfl⟩
  · exact ⟨[(gaps, value)], List.cons_ne_nil _ _, ⟨hgaps, hvalue, trivial⟩, by simp [membersText, tailText]⟩
  · exact ⟨(gaps, value) :: members, List.cons_ne_nil _ _, ⟨hgaps, hvalue, hvalid⟩, by
      simp [membersText, tailText_eq hne []]⟩

lemma LayoutIn.container {object : Bool} {p q rest : List Char} (hp : skipWhitespace p = openBracket object :: q)
    (h : skipWhitespace q = closeBracket object :: rest ∨ MembersIn object (skipWhitespace q) rest) : LayoutIn p rest := by
  obtain ⟨w, hw, hpw⟩ := skipWhitespace_split p
  obtain ⟨blank, hblank, hq⟩ := skipWhitespace_split q
  rw [hp] at hpw
  rcases h with hclose | hmembers
  · refine ⟨w, .node object blank [], hw, ⟨hblank, trivial⟩, ?_⟩
    rw [hclose] at hq
    rw [hpw, hq]
    simp [Layout.text, membersText]
  · obtain ⟨members, -, hvalid, htext⟩ := hmembers.blank hblank
    refine ⟨w, .node object [] members, hw, ⟨by simp [Blank], hvalid⟩, ?_⟩
    rw [hpw, hq, htext]
    simp [Layout.text]

lemma parseItems_sound {fuel : ℕ} (hvalue : ∀ {p tree rest}, parseValue fuel p = some (tree, rest) → LayoutIn p rest)
    (hitems : ∀ {p items rest}, parseItems fuel p = some (items, rest) → MembersIn false p rest) {p : List Char}
    {items : List (List Char × Tree)} {rest : List Char} (h : parseItems (fuel + 1) p = some (items, rest)) :
    MembersIn false p rest := by
  rw [parseItems] at h
  obtain ⟨⟨tree, q⟩, hread, hnext⟩ := Option.bind_eq_some_iff.1 h
  obtain ⟨w, value, hw, hvalid, rfl⟩ := hvalue hread
  obtain ⟨behind, hbehind, hq⟩ := skipWhitespace_split q
  have hgaps : Gaps.Valid false ⟨w, [], [], [], behind⟩ := ⟨hw, by simp [Blank], by simp [Blank], hbehind, by simp⟩
  have hcons := MembersIn.cons (skipWhitespace q) rest hgaps hvalid
  simp only [Gaps.label, Bool.false_eq_true, if_false, List.nil_append, ← hq] at hcons
  apply hcons
  dsimp only at hnext
  split at hnext
  next r hr =>
    obtain ⟨⟨items', rest'⟩, hmore, hresult⟩ := Option.bind_eq_some_iff.1 hnext
    obtain rfl : rest' = rest := (Prod.mk.inj (Option.some.inj hresult)).2
    exact .inr ⟨r, hr, hitems hmore⟩
  next r hr =>
    obtain rfl : r = rest := (Prod.mk.inj (Option.some.inj hnext)).2
    exact .inl hr
  next => cases hnext

lemma parseMembers_sound {fuel : ℕ} (hvalue : ∀ {p tree rest}, parseValue fuel p = some (tree, rest) → LayoutIn p rest)
    (hmembers : ∀ {p members rest}, parseMembers fuel p = some (members, rest) → MembersIn true p rest) {p : List Char}
    {members : List (List Char × Tree)} {rest : List Char} (h : parseMembers (fuel + 1) p = some (members, rest)) :
    MembersIn true p rest := by
  rw [parseMembers] at h
  split_ifs at h with hhead
  obtain ⟨p, rfl⟩ : ∃ p', p = '"' :: p' := by
    cases p with
    | nil => cases hhead
    | cons c p => exact ⟨p, by rw [Option.some.inj hhead]⟩
  obtain ⟨⟨name, q⟩, hname, hcolon⟩ := Option.bind_eq_some_iff.1 h
  obtain ⟨body, hbody, rfl⟩ := body_of_parseString hname
  obtain ⟨behindName, hbehindName, hq⟩ := skipWhitespace_split q
  dsimp only at hcolon
  split at hcolon
  next r hr =>
    obtain ⟨⟨tree, r'⟩, hread, hnext⟩ := Option.bind_eq_some_iff.1 hcolon
    obtain ⟨beforeValue, value, hbeforeValue, hvalid, rfl⟩ := hvalue hread
    obtain ⟨behind, hbehind, hr'⟩ := skipWhitespace_split r'
    have hgaps : Gaps.Valid true ⟨[], body, behindName, beforeValue, behind⟩ :=
      ⟨by simp [Blank], hbehindName, hbeforeValue, hbehind, fun _ => hbody⟩
    have hcons := MembersIn.cons (skipWhitespace r') rest hgaps hvalid
    simp only [Gaps.label, if_true, List.nil_append, ← hr', List.cons_append, List.append_assoc, ← hr, ← hq] at hcons
    apply hcons
    dsimp only at hnext
    split at hnext
    next s hs =>
      obtain ⟨⟨members', rest'⟩, hmore, hresult⟩ := Option.bind_eq_some_iff.1 hnext
      obtain rfl : rest' = rest := (Prod.mk.inj (Option.some.inj hresult)).2
      obtain ⟨w, hw, hsplit⟩ := skipWhitespace_split s
      refine .inr ⟨s, hs, ?_⟩
      rw [hsplit]
      exact (hmembers hmore).blank hw
    next s hs =>
      obtain rfl : s = rest := (Prod.mk.inj (Option.some.inj hnext)).2
      exact .inl hs
    next => cases hnext
  next => cases hcolon

lemma parseValue_sound {fuel : ℕ} (hitems : ∀ {p items rest}, parseItems fuel p = some (items, rest) → MembersIn false p rest)
    (hmembers : ∀ {p members rest}, parseMembers fuel p = some (members, rest) → MembersIn true p rest) {p : List Char}
    {tree : Tree} {rest : List Char} (h : parseValue (fuel + 1) p = some (tree, rest)) : LayoutIn p rest := by
  obtain ⟨w, hw, hp⟩ := skipWhitespace_split p
  have hleaf : ∀ {token : List Char}, LiteralToken token → skipWhitespace p = token ++ rest → LayoutIn p rest := by
    intro token htoken hskip
    exact ⟨w, .literal token, hw, htoken, by rw [hp, hskip]; rfl⟩
  have hword : ∀ {text : List Char}, LiteralToken text →
      (parseLiteral text (skipWhitespace p)).map (fun r => (Tree.literal r.1, r.2)) = some (tree, rest) →
      LayoutIn p rest := by
    intro text htext hparse
    obtain ⟨⟨token, rest'⟩, hliteral, hresult⟩ := Option.map_eq_some_iff.1 hparse
    obtain rfl : rest' = rest := (Prod.mk.inj hresult).2
    exact hleaf htext (parseLiteral_text hliteral).2
  rw [parseValue] at h
  split at h
  next => cases h
  next c q hskip =>
    split_ifs at h with hquote hbrace hsquare htrue hfalse hnull hnumber
    · obtain ⟨⟨text, rest'⟩, hstring, hresult⟩ := Option.map_eq_some_iff.1 h
      obtain rfl : rest' = rest := (Prod.mk.inj hresult).2
      rw [hskip, hquote] at hstring
      obtain ⟨body, hbody, rfl⟩ := body_of_parseString hstring
      exact ⟨w, .str body, hw, hbody, by rw [hp, hskip, hquote]; simp [Layout.text]⟩
    · have hopen : skipWhitespace p = openBracket true :: q := by rw [hskip, hbrace]; rfl
      split at h
      next r hr =>
        obtain rfl : r = rest := (Prod.mk.inj (Option.some.inj h)).2
        exact LayoutIn.container hopen (.inl hr)
      next =>
        obtain ⟨⟨members, rest'⟩, hread, hresult⟩ := Option.map_eq_some_iff.1 h
        obtain rfl : rest' = rest := (Prod.mk.inj hresult).2
        exact LayoutIn.container hopen (.inr (hmembers hread))
    · have hopen : skipWhitespace p = openBracket false :: q := by rw [hskip, hsquare]; rfl
      split at h
      next r hr =>
        obtain rfl : r = rest := (Prod.mk.inj (Option.some.inj h)).2
        exact LayoutIn.container hopen (.inl hr)
      next =>
        obtain ⟨⟨items, rest'⟩, hread, hresult⟩ := Option.map_eq_some_iff.1 h
        obtain rfl : rest' = rest := (Prod.mk.inj hresult).2
        exact LayoutIn.container hopen (.inr (hitems hread))
    · exact hword (.inr (.inl rfl)) h
    · exact hword (.inr (.inr (.inl rfl))) h
    · exact hword (.inr (.inr (.inr rfl))) h
    · obtain ⟨⟨token, rest'⟩, hparse, hresult⟩ := Option.map_eq_some_iff.1 h
      obtain rfl : rest' = rest := (Prod.mk.inj hresult).2
      obtain ⟨hsplit, htoken⟩ := token_of_parseNumber hparse
      exact hleaf (.inl htoken) hsplit

lemma parse_sound (fuel : ℕ) :
    (∀ {p tree rest}, parseValue fuel p = some (tree, rest) → LayoutIn p rest) ∧
    (∀ {p items rest}, parseItems fuel p = some (items, rest) → MembersIn false p rest) ∧
    (∀ {p members rest}, parseMembers fuel p = some (members, rest) → MembersIn true p rest) := by
  induction fuel with
  | zero =>
    refine ⟨fun h => ?_, fun h => ?_, fun h => ?_⟩
    · simp [parseValue] at h
    · simp [parseItems] at h
    · simp [parseMembers] at h
  | succ fuel ih =>
    obtain ⟨hvalue, hitems, hmembers⟩ := ih
    exact ⟨parseValue_sound hitems hmembers, parseItems_sound hvalue hitems, parseMembers_sound hvalue hmembers⟩

end

section

lemma valid_iff_tree {number : List Char → Prop} {value value' : Layout} (htree : value.tree = value'.tree)
    (hvalue : value.Valid NumberToken) (h : value'.Valid number) : value.Valid number := by
  induction value using Layout.induct generalizing value' with
  | str body => exact hvalue
  | literal token =>
    cases value' with
    | literal token' =>
      obtain rfl : token = token' := Tree.literal.inj htree
      exact h
    | _ => cases htree
  | node object blank members ih =>
    cases value' with
    | node object' blank' members' =>
      obtain ⟨rfl, hmembers⟩ := Tree.node.inj htree
      refine ⟨hvalue.1, ?_⟩
      have hvalid := hvalue.2
      have hvalid' := h.2
      clear h hvalue htree
      induction members generalizing members' with
      | nil => trivial
      | cons member members ihm =>
        cases members' with
        | nil => cases hmembers
        | cons member' members' =>
          simp only [memberTrees, List.cons.injEq, Prod.mk.injEq] at hmembers
          exact ⟨hvalid.1, ih _ List.mem_cons_self hmembers.1.2 hvalid.2.1 hvalid'.2.1,
            ihm (fun m hm => ih m (List.mem_cons_of_mem _ hm)) _ hmembers.2 hvalid.2.2 hvalid'.2.2⟩
    | _ => cases htree

lemma RfcNumber.token {token : List Char} (h : RfcNumber token) : NumberToken token := by
  obtain ⟨sign, whole, fraction, exponent, htoken, hsign, hwhole, hfraction, hexponent⟩ := h.parts
  refine ⟨sign, whole, fraction, exponent, htoken, hsign, hwhole, ?_, hexponent⟩
  rcases hfraction with rfl | ⟨digits, rfl, -, hdigits⟩
  · exact .inl rfl
  · exact .inr ⟨digits, rfl, hdigits⟩

lemma RfcNumber.last {token : List Char} (h : RfcNumber token) : ∀ c ∈ token.getLast?, c.isDigit = true := by
  have hlast : ∀ {digits : List Char} (front : List Char), digits ≠ [] → (∀ c ∈ digits, c.isDigit = true) →
      ∀ c ∈ (front ++ digits).getLast?, c.isDigit = true := by
    intro digits front hne hdigits c hc
    rw [List.getLast?_append_of_ne_nil front hne] at hc
    exact hdigits c (List.mem_of_getLast? hc)
  obtain ⟨sign, whole, fraction, exponent, rfl, -, ⟨hwhole, hdigits, -⟩, hfraction, hexponent⟩ := h.parts
  rcases hexponent with rfl | ⟨e, esign, edigits, rfl, -, -, hne, hedigits⟩
  · rcases hfraction with rfl | ⟨fdigits, rfl, hne, hfdigits⟩
    · simpa using hlast sign hwhole hdigits
    · simpa using hlast (sign ++ whole ++ ['.']) hne hfdigits
  · simpa using hlast (sign ++ whole ++ fraction ++ e :: esign) hne hedigits

end

section

lemma Written.token {text : List Char} {value : Layout} (h : Written RfcNumber text value) :
    Written NumberToken text value :=
  ⟨h.split, h.valid.mono fun _ => RfcNumber.token, h.container⟩

lemma skipWhitespace_all {w : List Char} (hw : Blank w) : skipWhitespace w = [] := by
  have hskip := skipWhitespace_blank hw []
  rwa [List.append_nil] at hskip

lemma jsonValidate_written {text : List Char} {value : Layout} (h : Written NumberToken text value) :
    ∃ rest, jsonValidate text = some (value.tree, rest) ∧ skipWhitespace text = value.text ++ rest := by
  obtain ⟨before, behind, hbefore, hbehind, rfl⟩ := h.split
  obtain ⟨c, tail, hc, hspace, -⟩ := h.valid.head
  have hskip : skipWhitespace (before ++ (value.text ++ behind)) = value.text ++ behind := by
    rw [skipWhitespace_blank hbefore, hc]
    exact skipWhitespace_cons hspace _
  have hbreaks : Breaks behind := by
    cases behind with
    | nil => simp [Breaks]
    | cons d behind => exact breaks_cons (by simp [hbehind d List.mem_cons_self])
  have hweight := weight_le_text h.valid
  have hread := reads_layout h.valid (2 * (value.text ++ behind).length + 2) [] behind
    (by rw [List.length_append]; omega) (by simp [Blank]) hbreaks
  rw [List.nil_append] at hread
  refine ⟨behind, ?_, hskip⟩
  unfold jsonValidate
  rw [hskip]
  obtain ⟨object, blank, members, rfl⟩ := h.container
  have hopen : openBracket object = '\x7b' ∨ openBracket object = '[' := by cases object <;> decide
  rw [Layout.text] at hread ⊢
  simp only [List.cons_append] at hread ⊢
  simp only [if_pos hopen, hread, Option.bind_eq_bind, Option.bind_some, skipWhitespace_all hbehind, if_true]
  rfl

lemma jsonValidateLength_written {text : List Char} {value : Layout} (h : Written NumberToken text value) :
    jsonValidateLength text = value.text.length ∧ value.text.length ≠ 0 := by
  obtain ⟨rest, hvalidate, hskip⟩ := jsonValidate_written h
  obtain ⟨c, tail, hc, -⟩ := h.valid.head
  refine ⟨?_, by simp [hc]⟩
  simp only [jsonValidateLength, hvalidate, hskip, List.length_append, Nat.add_sub_cancel]

lemma written_of_jsonValidate {text : List Char} {tree : Tree} {rest : List Char}
    (h : jsonValidate text = some (tree, rest)) : ∃ value, Written NumberToken text value := by
  obtain ⟨before, hbefore, htext⟩ := skipWhitespace_split text
  unfold jsonValidate at h
  dsimp only at h
  split at h
  next => cases h
  next c p hskip =>
    split_ifs at h with hopen
    obtain ⟨⟨tree', rest'⟩, hparse, hend⟩ := Option.bind_eq_some_iff.1 h
    dsimp only at hend
    split_ifs at hend with hblank
    obtain ⟨w, value, hw, hvalid, hvalue⟩ := (parse_sound _).1 hparse
    obtain ⟨behind, hbehind, hrest⟩ := skipWhitespace_split rest'
    rw [hblank, List.append_nil] at hrest
    obtain ⟨d, tail, hd, hspace, -⟩ := hvalid.head
    have hc := skipWhitespace_head hskip
    -- the text begins with the bracket of the value, there is no white space left in front of it
    cases w with
    | cons x w =>
      rw [hskip] at hvalue
      obtain rfl : c = x := (List.cons.inj hvalue).1
      exact absurd (hw c List.mem_cons_self) hc
    | nil =>
      refine ⟨value, ⟨before, behind, hbefore, hbehind, by rw [htext, hvalue, ← hrest, List.nil_append]⟩, hvalid, ?_⟩
      have hhead : c = d := by
        rw [hskip, hd] at hvalue
        exact (List.cons.inj hvalue).1
      cases value with
      | node object blank members => exact ⟨object, blank, members, rfl⟩
      | str body =>
        obtain rfl : '"' = d := (List.cons.inj hd).1
        rw [hhead] at hopen
        exact absurd hopen (by decide)
      | literal token =>
        obtain ⟨x, tail', htoken, hx⟩ := LiteralToken.head hvalid
        obtain rfl : x = d := by
          rw [Layout.text, htoken] at hd
          exact (List.cons.inj hd).1
        rw [hhead] at hopen
        rcases hopen with rfl | rfl
        · exact absurd hx (by decide)
        · exact absurd hx (by decide)

lemma jsonValidateLength_ne_zero {text : List Char} :
    jsonValidateLength text ≠ 0 ↔ ∃ value, Written NumberToken text value := by
  constructor
  · intro h
    rcases hvalidate : jsonValidate text with _ | ⟨tree, rest⟩
    · simp [jsonValidateLength, hvalidate] at h
    · exact written_of_jsonValidate hvalidate
  · rintro ⟨value, h⟩
    obtain ⟨hlength, hpos⟩ := jsonValidateLength_written h
    rwa [hlength]

lemma Written.valid_of {text : List Char} {value value' : Layout} (h : Written NumberToken text value)
    (h' : Written RfcNumber text value') : value.Valid RfcNumber := by
  obtain ⟨rest, hvalidate, -⟩ := jsonValidate_written h
  obtain ⟨rest', hvalidate', -⟩ := jsonValidate_written h'.token
  rw [hvalidate] at hvalidate'
  exact valid_iff_tree (Prod.mk.inj (Option.some.inj hvalidate')).1 h.valid h'.valid

theorem validate_accepts_json_iff (text : List Char) :
    AcceptsJson text ↔ ∀ value, Written NumberToken text value → value.Valid RfcNumber := by
  constructor
  · intro h value hvalue
    have hne : jsonValidateLength text ≠ 0 := jsonValidateLength_ne_zero.2 ⟨value, hvalue⟩
    obtain ⟨value', hvalue'⟩ := h.accepts.1 hne
    exact hvalue.valid_of hvalue'
  · intro h
    refine ⟨?_, fun value hvalue => (jsonValidateLength_written hvalue.token).1⟩
    rw [jsonValidateLength_ne_zero]
    constructor
    · rintro ⟨value, hvalue⟩
      exact ⟨value, hvalue.split, h value hvalue, hvalue.container⟩
    · rintro ⟨value, hvalue⟩
      exact ⟨value, hvalue.token⟩

def barePoint : Layout := .node false [] [(⟨[], [], [], [], []⟩, .literal ['1', '.'])]

theorem barePoint_accepted : jsonValidateLength "[1.]".toList = 4 ∧ ¬ AcceptsJson "[1.]".toList := by
  have hlength : jsonValidateLength "[1.]".toList = 4 := by decide
  have hnumber : NumberToken ['1', '.'] :=
    ⟨[], ['1'], ['.'], [], rfl, .inl rfl, ⟨by decide, by decide, by decide⟩, .inr ⟨[], rfl, by simp⟩, .inl rfl⟩
  have hgaps : Gaps.Valid false ⟨[], [], [], [], []⟩ := by constructor <;> simp [Blank]
  have hwritten : Written NumberToken "[1.]".toList barePoint :=
    ⟨⟨[], [], by simp [Blank], by simp [Blank], rfl⟩, ⟨by simp [Blank], hgaps, .inl hnumber, trivial⟩, ⟨_, _, _, rfl⟩⟩
  refine ⟨hlength, fun h => ?_⟩
  obtain ⟨value, hvalue⟩ := h.accepts.1 (by rw [hlength]; decide)
  have hliteral := (hwritten.valid_of hvalue).2.2.1
  rcases hliteral with hrfc | hword
  · exact absurd (hrfc.last '.' rfl) (by decide)
  · exact absurd hword (by decide)

end

end Glaber.Json
