import Glaber.Json.Accept
import Glaber.Json.Lookup

namespace Glaber.Json

section

def countLoop (jp : JsonParse) : ℕ → Option (List Char) → Option ℕ
  | 0, _ => none
  | fuel + 1, p =>
    match jsonNext jp p with
    | none => some 0
    | some p => (countLoop jp fuel (some p)).map (· + 1)

def jsonCount (jp : JsonParse) : Option ℕ := countLoop jp (jp.start.length + 2) none

end

section

inductive Iterates (jp : JsonParse) : Option (List Char) → List (List Char) → Prop
  | done {p} : jsonNext jp p = none → Iterates jp p []
  | step {p q qs} : jsonNext jp p = some q → Iterates jp (some q) qs → Iterates jp p (q :: qs)

def memberPositions (object : Bool) (rest : List Char) : List (Gaps × Layout) → List (List Char)
  | [] => []
  | (gaps, value) :: members =>
    (gaps.label object ++ (value.text ++ (gaps.behind ++ (tailText object members ++ closeBracket object :: rest)))) ::
      memberPositions object rest members

inductive Stands : Layout → List Char → Layout → List Char → Prop
  | here (value : Layout) (rest : List Char) : Stands value rest value rest
  | member {object blank before gaps value after rest inner behind} :
      Stands value (gaps.behind ++ (tailText object after ++ closeBracket object :: rest)) inner behind →
        Stands (.node object blank (before ++ (gaps, value) :: after)) rest inner behind

def MembersFound (object : Bool) (blank : List Char) (members : List (Gaps × Layout)) (rest : List Char) : Prop :=
  ∃ jp, bracketsOpen ((Layout.node object blank members).text ++ rest) = some jp ∧
    Iterates jp none (memberPositions object rest members) ∧ jsonCount jp = some members.length

end

section

variable {scan : Bool → ℕ → List Char → Option (List Char)} {Inside : List Char → Prop} (hs : Scans scan Inside)

lemma Hex.plain {digits : List Char} {num : ℕ} (h : Hex digits num) : ∀ c ∈ digits, c ≠ '"' ∧ c ≠ '\\' := by
  intro c hc
  have hx := h.hex c hc
  constructor
  · rintro rfl
    exact absurd hx (by decide)
  · rintro rfl
    exact absurd hx (by decide)

include hs

lemma Scans.body {body : List Char} (h : StringBody body) (level : ℕ) {rest : List Char} (hrest : Inside rest) :
    scan true level (body ++ rest) = scan true level rest := by
  induction h with
  | nil => rfl
  | @plain c body _ hquote hback _ ih =>
    rw [List.cons_append, hs.plain true level c _ (hs.append body rest hrest) hquote hback (.inl rfl), ih]
  | @letter x body _ _ ih =>
    rw [List.cons_append, List.cons_append, hs.escaped level x _ (hs.append body rest hrest), ih]
  | @unit digits num body hhex _ _ ih =>
    have hbody : Inside (body ++ rest) := hs.append body rest hrest
    rw [List.cons_append, List.cons_append, List.append_assoc, hs.escaped level 'u' _ (hs.append digits _ hbody),
      hs.inString hhex.plain level hbody, ih]
  | @pair high low num num' body hhigh _ hlow _ _ ih =>
    have hbody : Inside (body ++ rest) := hs.append body rest hrest
    have hsecond : Inside ('\\' :: 'u' :: (low ++ (body ++ rest))) := hs.append ('\\' :: 'u' :: low) _ hbody
    simp only [List.cons_append, List.append_assoc]
    rw [hs.escaped level 'u' _ (hs.append high _ hsecond), hs.inString hhigh.plain level hsecond,
      hs.escaped level 'u' _ (hs.append low _ hbody), hs.inString hlow.plain level hbody, ih]

lemma Scans.between {body : List Char} (h : StringBody body) (level : ℕ) {rest : List Char} (hrest : Inside rest) :
    scan false level ('"' :: (body ++ '"' :: rest)) = scan false level rest := by
  have hquote : Inside ('"' :: rest) := hs.append ['"'] rest hrest
  rw [hs.quote false level _ (hs.append body _ hquote), Bool.not_false, hs.body h level hquote,
    hs.quote true level rest hrest, Bool.not_true]

lemma Scans.blank {w : List Char} (hw : Blank w) (level : ℕ) {rest : List Char} (hrest : Inside rest) :
    scan false level (w ++ rest) = scan false level rest := by
  have hplain : ∀ x ∈ whitespace, x ≠ '"' ∧ x ≠ '\\' ∧ isOpening x = false ∧ isClosing x = false ∧ x ≠ ',' := by decide
  induction w with
  | nil => rfl
  | cons c w ih =>
    obtain ⟨hquote, hback, hbrackets⟩ := hplain c (hw c List.mem_cons_self)
    rw [List.cons_append, hs.plain false level c _ (hs.append w rest hrest) hquote hback (.inr hbrackets)]
    exact ih fun d hd => hw d (List.mem_cons_of_mem c hd)

lemma Scans.gapsLabel {object : Bool} {gaps : Gaps} (h : gaps.Valid object) (level : ℕ) {rest : List Char}
    (hrest : Inside rest) : scan false level (gaps.label object ++ rest) = scan false level rest := by
  cases object with
  | false => rfl
  | true =>
    have hvalue : Inside (gaps.beforeValue ++ rest) := hs.append _ rest hrest
    have hcolon : Inside (':' :: (gaps.beforeValue ++ rest)) := hs.append [':'] _ hvalue
    have htext : gaps.label true ++ rest =
        '"' :: (gaps.name ++ '"' :: (gaps.behindName ++ ':' :: (gaps.beforeValue ++ rest))) := by simp [Gaps.label]
    rw [htext, hs.between (h.name rfl) level (hs.append _ _ hcolon), hs.blank h.behindName level hcolon,
      hs.plain false level ':' _ hvalue (by decide) (by decide) (.inr (by decide)), hs.blank h.beforeValue level hrest]

lemma Scans.member {object : Bool} {gaps : Gaps} {value : Layout} (hgaps : gaps.Valid object) (level : ℕ)
    (hvalue : ∀ rest, Inside rest → scan false level (value.text ++ rest) = scan false level rest) {rest : List Char}
    (hrest : Inside rest) :
    scan false level (gaps.label object ++ (value.text ++ (gaps.behind ++ rest))) = scan false level rest := by
  have hbehind : Inside (gaps.behind ++ rest) := hs.append _ rest hrest
  rw [hs.gapsLabel hgaps level (hs.append _ _ hbehind), hvalue _ hbehind, hs.blank hgaps.behind level hrest]

lemma Scans.tailMembers {object : Bool} {members : List (Gaps × Layout)} (level : ℕ)
    (hgaps : ∀ member ∈ members, member.1.Valid object)
    (hvalues : ∀ member ∈ members, ∀ rest, Inside rest →
      scan false (level + 1) (member.2.text ++ rest) = scan false (level + 1) rest)
    {rest : List Char} (hrest : Inside rest) :
    scan false (level + 1) (tailText object members ++ rest) = scan false (level + 1) rest := by
  induction members with
  | nil => rfl
  | cons member members ih =>
    obtain ⟨gaps, value⟩ := member
    have hg : gaps.Valid object := hgaps _ List.mem_cons_self
    have htail : Inside (tailText object members ++ rest) := hs.append _ rest hrest
    have htext : tailText object ((gaps, value) :: members) ++ rest = ',' :: (gaps.before ++
        (gaps.label object ++ (value.text ++ (gaps.behind ++ (tailText object members ++ rest))))) := by simp [tailText]
    have hmember : Inside (gaps.label object ++ (value.text ++ (gaps.behind ++ (tailText object members ++ rest)))) :=
      hs.append _ _ (hs.append _ _ (hs.append _ _ htail))
    rw [htext, hs.comma level _ (hs.append _ _ hmember), hs.blank hg.before _ hmember,
      hs.member hg _ (hvalues _ List.mem_cons_self) htail]
    exact ih (fun m hm => hgaps m (List.mem_cons_of_mem _ hm)) fun m hm => hvalues m (List.mem_cons_of_mem _ hm)

lemma Scans.contents {object : Bool} {blank : List Char} {members : List (Gaps × Layout)} (level : ℕ) (hblank : Blank blank)
    (hgaps : ∀ member ∈ members, member.1.Valid object)
    (hvalues : ∀ member ∈ members, ∀ rest, Inside rest →
      scan false (level + 1) (member.2.text ++ rest) = scan false (level + 1) rest)
    {rest : List Char} (hrest : Inside rest) :
    scan false (level + 1) (membersText object blank members ++ rest) = scan false (level + 1) rest := by
  cases members with
  | nil => exact hs.blank hblank (level + 1) hrest
  | cons member members =>
    obtain ⟨gaps, value⟩ := member
    have hg : gaps.Valid object := hgaps _ List.mem_cons_self
    have htail : Inside (tailText object members ++ rest) := hs.append _ rest hrest
    have htext : membersText object blank ((gaps, value) :: members) ++ rest = gaps.before ++
        (gaps.label object ++ (value.text ++ (gaps.behind ++ (tailText object members ++ rest)))) := by simp [membersText]
    rw [htext, hs.blank hg.before _ (hs.append _ _ (hs.append _ _ (hs.append _ _ htail))),
      hs.member hg _ (hvalues _ List.mem_cons_self) htail]
    exact hs.tailMembers level (fun m hm => hgaps m (List.mem_cons_of_mem _ hm))
      (fun m hm => hvalues m (List.mem_cons_of_mem _ hm)) hrest

lemma Scans.layout {value : Layout} (h : value.Valid NumberToken) (level : ℕ) {rest : List Char} (hrest : Inside rest) :
    scan false (level + 1) (value.text ++ rest) = scan false (level + 1) rest := by
  induction value using Layout.induct generalizing level rest with
  | str body =>
    have htext : (Layout.str body).text ++ rest = '"' :: (body ++ '"' :: rest) := by simp [Layout.text]
    rw [htext, hs.between h (level + 1) hrest]
  | literal token => exact hs.literal (LiteralToken.chars h) (level + 1) hrest
  | node object blank members ih =>
    have hvalid := membersValid_iff.1 h.2
    have hclose : Inside (closeBracket object :: rest) := hs.append [_] rest hrest
    have htext : (Layout.node object blank members).text ++ rest =
        openBracket object :: (membersText object blank members ++ closeBracket object :: rest) := by simp [Layout.text]
    rw [htext, hs.opening (level + 1) object _ (hs.append _ _ hclose),
      hs.contents (level + 1) h.1 (fun m hm => (hvalid m hm).1) _ hclose, hs.closing level object rest hrest]
    exact fun m hm rest hrest => ih m hm (hvalid m hm).2 (level + 1) hrest

end

section

variable {object : Bool} {blank : List Char} {members : List (Gaps × Layout)}

lemma node_text (object : Bool) (blank : List Char) (members : List (Gaps × Layout)) (rest : List Char) :
    (Layout.node object blank members).text ++ rest =
      openBracket object :: (membersText object blank members ++ closeBracket object :: rest) := by simp [Layout.text]

def windowOf (object : Bool) (blank : List Char) (members : List (Gaps × Layout)) (rest : List Char) : JsonParse :=
  ⟨(Layout.node object blank members).text ++ rest, rest.length + 1⟩

lemma bracketsOpen_layout (h : (Layout.node object blank members).Valid NumberToken) (rest : List Char) :
    bracketsOpen ((Layout.node object blank members).text ++ rest) = some (windowOf object blank members rest) := by
  have hvalid := membersValid_iff.1 h.2
  have hloop : ∀ rbracket, rbracketLoop rbracket false 0
      (openBracket object :: (membersText object blank members ++ closeBracket object :: rest)) =
        rbracketLoop rbracket false 1 (closeBracket object :: rest) := by
    intro rbracket
    have hs := rbracketLoop_scans rbracket
    rw [hs.opening 0 object _ trivial]
    exact hs.contents 0 h.1 (fun m hm => (hvalid m hm).1) (fun m hm rest _ => hs.layout (hvalid m hm).2 0 trivial) trivial
  have hopen : isOpening (openBracket object) = true := by cases object <;> rfl
  have hclose : jsonRbracket ((Layout.node object blank members).text ++ rest) = some (closeBracket object :: rest) := by
    rw [node_text, jsonRbracket, if_pos hopen, hloop, rbracketLoop.eq_def]
    cases object <;> simp [openBracket, closeBracket, isOpening, isClosing]
  have hskip : skipWhitespace ((Layout.node object blank members).text ++ rest) =
      (Layout.node object blank members).text ++ rest := by
    have hnone : openBracket object ∉ whitespace := by cases object <;> decide
    rw [node_text]
    exact skipWhitespace_cons hnone _
  simp [bracketsOpen, hclose, hskip, windowOf]

lemma windowOf_empty_iff (h : (Layout.node object blank members).Valid NumberToken) (rest : List Char) :
    (windowOf object blank members rest).start.length = (windowOf object blank members rest).endLength + 1 ↔
      members = [] ∧ blank = [] := by
  have hlength : (windowOf object blank members rest).start.length =
      (membersText object blank members).length + (rest.length + 2) := by
    rw [windowOf, node_text]
    simp only [List.length_cons, List.length_append]
    omega
  have hend : (windowOf object blank members rest).endLength = rest.length + 1 := rfl
  rw [hlength, hend]
  cases members with
  | nil =>
    simp only [membersText, true_and]
    rw [← List.length_eq_zero_iff]
    omega
  | cons member members =>
    obtain ⟨gaps, value⟩ := member
    obtain ⟨c, tail, hc, -⟩ := h.2.2.1.head
    simp [membersText, hc]

lemma scanNext_layout {value : Layout} (h : value.Valid NumberToken) {endLength : ℕ} {rest : List Char}
    (hend : endLength ≤ rest.length) :
    scanNext endLength false 0 (value.text ++ rest) = scanNext endLength false 0 rest := by
  have hs := scanNext_scans endLength
  cases value with
  | str body =>
    have htext : (Layout.str body).text ++ rest = '"' :: (body ++ '"' :: rest) := by simp [Layout.text]
    rw [htext]
    exact hs.between h 0 hend
  | literal token => exact hs.literal (LiteralToken.chars h) 0 hend
  | node object blank members =>
    have hvalid := membersValid_iff.1 h.2
    have hclose : endLength ≤ (closeBracket object :: rest).length := by simp; omega
    have hin : ¬ rest.length + 1 < endLength := by omega
    rw [node_text, hs.opening 0 object _ (hs.append _ _ hclose), hs.contents 0 h.1 (fun m hm => (hvalid m hm).1)
      (fun m hm rest hrest => hs.layout (hvalid m hm).2 0 hrest) hclose, scanNext.eq_def]
    cases object <;> simp [closeBracket, isOpening, isClosing, hin]

end

section

variable {object : Bool} {rest : List Char}

lemma scanNext_member {gaps : Gaps} {value : Layout} {members : List (Gaps × Layout)} (hgaps : gaps.Valid object)
    (hvalue : value.Valid NumberToken) :
    scanNext (rest.length + 1) false 0
        (gaps.label object ++ (value.text ++ (gaps.behind ++ (tailText object members ++ closeBracket object :: rest)))) =
      scanNext (rest.length + 1) false 0 (tailText object members ++ closeBracket object :: rest) := by
  apply (scanNext_scans (rest.length + 1)).member hgaps 0 fun rest hrest => scanNext_layout hvalue hrest
  simp

lemma iterates_behind {jp : JsonParse} (hend : jp.endLength = rest.length + 1) (hne : ¬ jp.start.length = jp.endLength + 1)
    {gaps : Gaps} {value : Layout} {members : List (Gaps × Layout)}
    (h : MembersValid NumberToken object ((gaps, value) :: members)) :
    Iterates jp
      (some (gaps.label object ++ (value.text ++ (gaps.behind ++ (tailText object members ++ closeBracket object :: rest)))))
      (memberPositions object rest members) := by
  induction members generalizing gaps value with
  | nil =>
    apply Iterates.done
    rw [jsonNext, if_neg hne]
    rw [hend, scanNext_member h.1 h.2.1, tailText, List.nil_append, scanNext.eq_def]
    cases object <;> simp [closeBracket, isOpening, isClosing]
  | cons member members ih =>
    obtain ⟨gaps', value'⟩ := member
    refine Iterates.step ?_ (ih h.2.2)
    have hin : ¬ (gaps'.before ++ (gaps'.label object ++ (value'.text ++ (gaps'.behind ++ (tailText object members ++
        closeBracket object :: rest))))).length + 1 < rest.length + 1 := by
      simp only [List.length_append, List.length_cons]
      omega
    have htail : tailText object ((gaps', value') :: members) ++ closeBracket object :: rest = ',' :: (gaps'.before ++
        (gaps'.label object ++ (value'.text ++ (gaps'.behind ++ (tailText object members ++
          closeBracket object :: rest))))) := by simp [tailText]
    rw [jsonNext, if_neg hne]
    rw [hend, scanNext_member h.1 h.2.1, htail, scanNext.eq_def]
    dsimp only
    rw [if_neg hin, skipWhitespace_lead h.2.2.1 h.2.2.2.1]
    simp [isOpening, isClosing]

variable (rest) in
lemma iterates_members {blank : List Char} {members : List (Gaps × Layout)}
    (h : (Layout.node object blank members).Valid NumberToken) (hblank : members = [] → blank = []) :
    Iterates (windowOf object blank members rest) none (memberPositions object rest members) := by
  have hempty := windowOf_empty_iff h rest
  cases members with
  | nil =>
    apply Iterates.done
    rw [jsonNext, if_pos (hempty.2 ⟨rfl, hblank rfl⟩)]
  | cons member members =>
    obtain ⟨gaps, value⟩ := member
    have hne : ¬ (windowOf object blank ((gaps, value) :: members) rest).start.length =
        (windowOf object blank ((gaps, value) :: members) rest).endLength + 1 := by simp [hempty]
    refine Iterates.step ?_ (iterates_behind rfl hne h.2)
    have htext : (windowOf object blank ((gaps, value) :: members) rest).start.tail = gaps.before ++ (gaps.label object ++
        (value.text ++ (gaps.behind ++ (tailText object members ++ closeBracket object :: rest)))) := by
      rw [windowOf, node_text]
      simp [membersText]
    rw [jsonNext, if_neg hne]
    rw [htext, skipWhitespace_lead h.2.1 h.2.2.1]

lemma countLoop_iterates {jp : JsonParse} {p : Option (List Char)} {qs : List (List Char)} (h : Iterates jp p qs) {fuel : ℕ}
    (hfuel : qs.length < fuel) : countLoop jp fuel p = some qs.length := by
  induction h generalizing fuel with
  | done hnext =>
    obtain ⟨fuel, rfl⟩ := Nat.exists_eq_add_one_of_ne_zero (Nat.ne_of_gt hfuel)
    simp only [countLoop, hnext]
    rfl
  | step hnext _ ih =>
    obtain ⟨fuel, rfl⟩ := Nat.exists_eq_add_one_of_ne_zero (Nat.ne_of_gt (Nat.zero_lt_of_lt hfuel))
    simp only [countLoop, hnext, ih (Nat.lt_of_succ_lt_succ hfuel)]
    rfl

variable (object) in
lemma length_memberPositions (rest : List Char) (members : List (Gaps × Layout)) :
    (memberPositions object rest members).length = members.length := by
  induction members with
  | nil => rfl
  | cons member members ih => simp [memberPositions, ih]

variable (object) in
lemma length_le_text (blank : List Char) (members : List (Gaps × Layout)) :
    members.length ≤ (membersText object blank members).length + 1 := by
  have htail : ∀ members : List (Gaps × Layout), members.length ≤ (tailText object members).length := by
    intro members
    induction members with
    | nil => rfl
    | cons member members ih =>
      simp only [tailText, List.length_cons, List.length_append]
      omega
  cases members with
  | nil => simp
  | cons member members =>
    have hrest := htail members
    simp only [membersText, List.length_cons, List.length_append]
    omega

lemma membersFound_iff {blank : List Char} {members : List (Gaps × Layout)}
    (h : (Layout.node object blank members).Valid NumberToken) (rest : List Char) :
    MembersFound object blank members rest ↔ (members = [] → blank = []) := by
  have hopen := bracketsOpen_layout h rest
  constructor
  · rintro ⟨jp, hjp, hiterates, -⟩ rfl
    obtain rfl : windowOf object blank [] rest = jp := Option.some.inj (hopen.symm.trans hjp)
    by_contra hne
    have hwindow : ¬ (windowOf object blank [] rest).start.length = (windowOf object blank [] rest).endLength + 1 := by
      rw [windowOf_empty_iff h]
      exact fun hboth => hne hboth.2
    cases hiterates with
    | done hnext =>
      rw [jsonNext, if_neg hwindow] at hnext
      cases hnext
  · intro hblank
    have hiterates := iterates_members rest h hblank
    refine ⟨_, hopen, hiterates, ?_⟩
    have hlength := length_memberPositions object rest members
    rw [jsonCount, countLoop_iterates hiterates, hlength]
    have hle := length_le_text object blank members
    rw [hlength, windowOf, node_text]
    simp only [List.length_cons, List.length_append]
    omega

lemma Stands.valid {value inner : Layout} {rest behind : List Char} (h : Stands value rest inner behind)
    (hvalid : value.Valid NumberToken) : inner.Valid NumberToken := by
  induction h with
  | here value rest => exact hvalid
  | member _ ih => exact ih (membersValid_iff.1 hvalid.2 _ (List.mem_append_right _ List.mem_cons_self)).2

lemma jsonOpen_written {text : List Char} {value : Layout} (h : Written NumberToken text value) :
    ∃ jp, jsonOpen text = some jp := by
  obtain ⟨before, behind, hbefore, hbehind, rfl⟩ := h.split
  obtain ⟨c, tail, hc, hspace, -⟩ := h.valid.head
  have hskip : skipWhitespace (before ++ (value.text ++ behind)) = value.text ++ behind := by
    rw [skipWhitespace_blank hbefore, hc]
    exact skipWhitespace_cons hspace _
  have hwritten : Written NumberToken (value.text ++ behind) value :=
    ⟨⟨[], behind, by simp [Blank], hbehind, rfl⟩, h.valid, h.container⟩
  obtain ⟨rest, hvalidate, -⟩ := jsonValidate_written hwritten
  have hne : value.text ++ behind ≠ [] := by simp [hc]
  exact ⟨_, by rw [jsonOpen, hskip, if_neg hne, hvalidate, Option.map_some]⟩

theorem iterate_members_iff {text : List Char} {jp : JsonParse} (hopen : jsonOpen text = some jp) :
    (∃ value, Written NumberToken text value) ∧
      ∀ before value behind, text = before ++ (value.text ++ behind) → Blank before → Blank behind →
        Layout.Valid NumberToken value → ∀ object blank members rest,
          Stands value behind (.node object blank members) rest →
            (MembersFound object blank members rest ↔ (members = [] → blank = [])) := by
  constructor
  · rw [jsonOpen] at hopen
    split_ifs at hopen with hempty
    obtain ⟨⟨tree, rest⟩, hvalidate, -⟩ := Option.map_eq_some_iff.1 hopen
    obtain ⟨w, hw, htext⟩ := skipWhitespace_split text
    obtain ⟨value, hvalue⟩ := written_of_jsonValidate hvalidate
    obtain ⟨before, behind, hbefore, hbehind, hsplit⟩ := hvalue.split
    refine ⟨value, ⟨w ++ before, behind, List.forall_mem_append.2 ⟨hw, hbefore⟩, hbehind, ?_⟩, hvalue.valid, hvalue.container⟩
    rw [htext, hsplit, List.append_assoc]
  · intro before value behind _ _ _ hvalid object blank members rest hstands
    exact membersFound_iff (hstands.valid hvalid) rest

def twoItems : List (Gaps × Layout) :=
  [(⟨[], [], [], [], [' ']⟩, .literal ['1']), (⟨[' '], [], [], [], []⟩, .literal ['2'])]

theorem twoItems_found : MembersFound false [] twoItems ['\x7d'] := by
  have hnumber : ∀ c : Char, c.isDigit = true → NumberToken [c] := fun c hc =>
    ⟨[], [c], [], [], rfl, .inl rfl, ⟨by simp, by simpa using hc, by simp⟩, .inl rfl, .inl rfl⟩
  have hnone : Blank [] := by simp [Blank]
  have hspace : Blank [' '] := by simp [Blank, whitespace]
  have hitems : (Layout.node false [] twoItems).Valid NumberToken :=
    ⟨hnone, ⟨hnone, hnone, hnone, hspace, by simp⟩, .inl (hnumber '1' rfl), ⟨hspace, hnone, hnone, hnone, by simp⟩,
      .inl (hnumber '2' rfl), trivial⟩
  have hname : StringBody ['a'] := .plain (by decide) (by decide) (by decide) .nil
  have hvalid : (Layout.node true [] [(⟨[], ['a'], [], [' '], []⟩, .node false [] twoItems)]).Valid NumberToken :=
    ⟨hnone, ⟨hnone, hnone, hspace, hnone, fun _ => hname⟩, hitems, trivial⟩
  obtain ⟨jp, hopen⟩ := jsonOpen_written ⟨⟨[], [], hnone, hnone, rfl⟩, hvalid, true, [], _, rfl⟩
  have hstands : Stands (.node true [] ([] ++ [(⟨[], ['a'], [], [' '], []⟩, .node false [] twoItems)])) []
    (.node false [] twoItems) ['\x7d'] := .member (.here _ _)
  exact ((iterate_members_iff hopen).2 [] _ [] rfl hnone hnone hvalid _ _ _ _ hstands).2 (by simp)

theorem blank_array_counted : (jsonOpen "[ ]".toList).isSome = true ∧ (bracketsOpen "[ ]".toList).bind jsonCount = some 1 ∧
    ¬ MembersFound false [' '] [] [] := by
  refine ⟨by decide, by decide, ?_⟩
  have hvalid : (Layout.node false [' '] []).Valid NumberToken := ⟨by simp [Blank, whitespace], trivial⟩
  rw [membersFound_iff hvalid]
  simp

end

end Glaber.Json
