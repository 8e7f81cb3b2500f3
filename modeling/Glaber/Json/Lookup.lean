import Glaber.Json.Reader

namespace Glaber.Json

section

def window (object : Bool) (members : List (List Char × Tree)) (rest : List Char) : JsonParse :=
  ⟨render (.node object members) ++ rest, rest.length + 1⟩

lemma jsonRbracket_node {object : Bool} {members : List (List Char × Tree)} (h : WellFormed (.node object members))
    (rest : List Char) :
    jsonRbracket (render (.node object members) ++ rest) = some (closeBracket object :: rest) := by
  have htext : render (.node object members) ++ rest =
      openBracket object :: (renderMembers object members ++ closeBracket object :: rest) := by simp [render]
  have hloop : ∀ rbracket, rbracketLoop rbracket false 0 (render (.node object members) ++ rest) =
      rbracketLoop rbracket false 1 (closeBracket object :: rest) := by
    intro rbracket
    have hs := rbracketLoop_scans rbracket
    rw [htext, hs.opening 0 object _ trivial]
    exact hs.members 0 trivial fun member hm rest _ => hs.render (MembersWellFormed.mem h hm) 0 trivial
  have hopen : isOpening (openBracket object) = true := by cases object <;> rfl
  have hrest := hloop (if openBracket object = '\x7b' then '\x7d' else ']')
  rw [htext] at hrest ⊢
  rw [jsonRbracket, if_pos hopen, hrest, rbracketLoop.eq_def]
  cases object <;> simp [openBracket, closeBracket, isOpening, isClosing]

lemma bracketsOpen_node {object : Bool} {members : List (List Char × Tree)} (h : WellFormed (.node object members))
    (rest : List Char) : bracketsOpen (render (.node object members) ++ rest) = some (window object members rest) := by
  have hskip : skipWhitespace (render (.node object members) ++ rest) = render (.node object members) ++ rest := by
    have hnone : openBracket object ∉ whitespace := by cases object <;> decide
    simpa [render] using skipWhitespace_cons hnone (renderMembers object members ++ [closeBracket object] ++ rest)
  simp [bracketsOpen, jsonRbracket_node h rest, hskip, window]

lemma jsonOpen_render {object : Bool} {members : List (List Char × Tree)} (h : WellFormed (.node object members)) :
    jsonOpen (render (.node object members)) = some (window object members []) := by
  obtain ⟨c, tail, hc, hspace, -⟩ := render_head h
  have hskip : skipWhitespace (render (.node object members)) = render (.node object members) := by
    rw [hc]
    exact skipWhitespace_cons hspace tail
  have hne : render (.node object members) ≠ [] := by simp [hc]
  simp [jsonOpen, hskip, hne, jsonValidate_render h, window]

end

section

variable {object : Bool} {rest : List Char}

lemma scanNext_value {tree : Tree} (h : WellFormed tree) {endLength : ℕ} (hend : endLength ≤ rest.length) :
    scanNext endLength false 0 (render tree ++ rest) = scanNext endLength false 0 rest := by
  have hs := scanNext_scans endLength
  cases tree with
  | str text => exact hs.quoted text 0 hend
  | literal token => exact hs.literal (LiteralToken.chars h) 0 hend
  | node object members =>
      have hclose : endLength ≤ (closeBracket object :: rest).length := by simp; omega
      have hin : ¬ rest.length + 1 < endLength := by omega
      have htext : render (.node object members) ++ rest =
          openBracket object :: (renderMembers object members ++ closeBracket object :: rest) := by simp [render]
      rw [htext, hs.opening 0 object _ (hs.append _ _ hclose),
        hs.members 0 hclose fun member hm rest hrest => hs.render (MembersWellFormed.mem h hm) 0 hrest, scanNext.eq_def]
      cases object <;> simp [closeBracket, isOpening, isClosing, hin]

def valueText (object : Bool) (value : Tree) (after : List (List Char × Tree)) (rest : List Char) : List Char :=
  render value ++ (renderTail object after ++ closeBracket object :: rest)

lemma skipWhitespace_render {tree : Tree} (h : WellFormed tree) (rest : List Char) :
    skipWhitespace (render tree ++ rest) = render tree ++ rest := by
  obtain ⟨c, tail, hc, hspace, -⟩ := render_head h
  rw [hc]
  exact skipWhitespace_cons hspace (tail ++ rest)

lemma skipWhitespace_member (object : Bool) (name : List Char) {tree : Tree} (h : WellFormed tree) (rest : List Char) :
    skipWhitespace (label object name ++ (render tree ++ rest)) = label object name ++ (render tree ++ rest) := by
  cases object with
  | false => exact skipWhitespace_render h rest
  | true =>
      have hquote : '"' ∉ whitespace := by decide
      simpa [label, quoted] using skipWhitespace_cons hquote _

lemma window_not_empty {members : List (List Char × Tree)} (h : MembersWellFormed object members) (hne : members ≠ []) :
    ¬ (window object members rest).start.length = (window object members rest).endLength + 1 := by
  obtain ⟨⟨name, value⟩, members, rfl⟩ := List.exists_cons_of_ne_nil hne
  obtain ⟨c, tail, hc, -⟩ := render_head h.2.1
  simp [window, render, renderMembers, hc]
  omega

lemma jsonNext_first {members : List (List Char × Tree)} {name : List Char} {value : Tree}
    (h : MembersWellFormed object ((name, value) :: members)) :
    jsonNext (window object ((name, value) :: members) rest) none =
      some (label object name ++ valueText object value members rest) := by
  have htail : (window object ((name, value) :: members) rest).start.tail =
      label object name ++ valueText object value members rest := by simp [window, render, renderMembers, valueText]
  simp only [jsonNext, htail]
  rw [if_neg (window_not_empty h (List.cons_ne_nil _ _)), valueText, skipWhitespace_member object name h.2.1]

lemma jsonNext_later {all members : List (List Char × Tree)} {name : List Char} {before value : Tree}
    (hall : MembersWellFormed object all) (hne : all ≠ []) (hbefore : WellFormed before) (hvalue : WellFormed value) :
    jsonNext (window object all rest) (some (valueText object before ((name, value) :: members) rest)) =
      some (label object name ++ valueText object value members rest) := by
  have htail : renderTail object ((name, value) :: members) ++ closeBracket object :: rest =
      ',' :: (label object name ++ valueText object value members rest) := by simp [renderTail, valueText]
  have hin : ¬ (label object name ++ valueText object value members rest).length + 1 < rest.length + 1 := by
    simp [valueText]
    omega
  have hscan : scanNext (rest.length + 1) false 0 (valueText object before ((name, value) :: members) rest) =
      some (label object name ++ valueText object value members rest) := by
    rw [valueText, scanNext_value hbefore (by simp), htail, scanNext.eq_def]
    dsimp only
    rw [if_neg hin]
    simp [isOpening, isClosing, valueText, skipWhitespace_member object name hvalue]
  simp only [jsonNext]
  rw [if_neg (window_not_empty hall hne)]
  exact hscan

lemma jsonNext_last {all : List (List Char × Tree)} {before : Tree} (hbefore : WellFormed before) :
    jsonNext (window object all rest) (some (valueText object before [] rest)) = none := by
  have hscan : scanNext (rest.length + 1) false 0 (valueText object before [] rest) = none := by
    rw [valueText, scanNext_value hbefore (by simp), renderTail, List.nil_append, scanNext.eq_def]
    cases object <;> simp [closeBracket, isOpening, isClosing]
  simp only [jsonNext]
  split_ifs
  · rfl
  · exact hscan

lemma jsonNext_empty (p : Option (List Char)) : jsonNext (window object [] rest) p = none := by
  have hlength : (window object [] rest).start.length = (window object [] rest).endLength + 1 := by
    simp [window, render, renderMembers]
  unfold jsonNext
  rw [if_pos hlength]

end

section

variable {rest : List Char}

lemma pairNext_label {jp : JsonParse} {p : Option (List Char)} {name text : List Char} {size : ℕ}
    (hnext : jsonNext jp p = some (label true name ++ text)) (hsize : name.length < size)
    (htext : skipWhitespace text = text) : pairNext jp p size = some (name, text) := by
  have hlabel : label true name ++ text = '"' :: (escape name ++ '"' :: ':' :: text) := by simp [label, quoted]
  have htype : jsonType ('"' :: (escape name ++ '"' :: ':' :: text)) = .string := by simp [jsonType]
  have hcolon : skipWhitespace (':' :: text) = ':' :: text := skipWhitespace_cons (by decide) text
  have hcopy := copyString_quoted (':' :: text) hsize
  simp [pairNext, hnext, hlabel, htype, hcopy, hcolon, htext]

lemma pairNext_none {jp : JsonParse} {p : Option (List Char)} {size : ℕ} (hnext : jsonNext jp p = none) :
    pairNext jp p size = none := by
  simp [pairNext, hnext]

def findMember (name : List Char) : List (List Char × Tree) → Option (Tree × List (List Char × Tree))
  | [] => none
  | (other, value) :: members => if other = name then some (value, members) else findMember name members

def NamesShort (members : List (List Char × Tree)) : Prop := ∀ member ∈ members, member.1.length < maxStringLen

lemma pairLoop_find {all members : List (List Char × Tree)} {previous : Tree} {fuel : ℕ} (rest name : List Char)
    (hall : MembersWellFormed true all) (hne : all ≠ []) (hprevious : WellFormed previous)
    (hwf : MembersWellFormed true members) (hnames : NamesShort members) (hfuel : members.length < fuel) :
    pairLoop (window true all rest) name fuel (some (valueText true previous members rest)) =
      (findMember name members).map fun found => valueText true found.1 found.2 rest := by
  induction members generalizing previous fuel with
  | nil =>
      obtain ⟨fuel, rfl⟩ : ∃ n, fuel = n + 1 := ⟨fuel - 1, by omega⟩
      rw [pairLoop, pairNext_none (jsonNext_last hprevious)]
      rfl
  | cons member members ih =>
      obtain ⟨other, value⟩ := member
      obtain ⟨fuel, rfl⟩ : ∃ n, fuel = n + 1 := ⟨fuel - 1, by omega⟩
      have hnext : pairNext (window true all rest) (some (valueText true previous ((other, value) :: members) rest))
          maxStringLen = some (other, valueText true value members rest) :=
        pairNext_label (jsonNext_later hall hne hprevious hwf.2.1) (hnames _ List.mem_cons_self)
          (skipWhitespace_render hwf.2.1 _)
      have hlater := ih hwf.2.1 hwf.2.2 (fun m hm => hnames m (List.mem_cons_of_mem _ hm)) (Nat.lt_of_succ_lt_succ hfuel)
      rw [pairLoop, hnext]
      simp only [Option.bind_eq_bind, Option.bind_some, findMember]
      split_ifs
      · rfl
      · exact hlater

lemma length_le_renderTail (object : Bool) (members : List (List Char × Tree)) :
    members.length ≤ (renderTail object members).length := by
  induction members with
  | nil => simp
  | cons member members ih =>
      obtain ⟨name, value⟩ := member
      simp only [renderTail, List.length_cons, List.length_append]
      omega

lemma length_lt_window (object : Bool) (members : List (List Char × Tree)) (rest : List Char) :
    members.length < (window object members rest).start.length := by
  cases members with
  | nil => simp [window, render]
  | cons member members =>
      obtain ⟨name, value⟩ := member
      have := length_le_renderTail object members
      simp [window, render, renderMembers]
      omega

lemma pairByName_window {members : List (List Char × Tree)} (name : List Char) (hwf : MembersWellFormed true members)
    (hnames : NamesShort members) :
    pairByName (window true members rest) name =
      (findMember name members).map fun found => valueText true found.1 found.2 rest := by
  cases members with
  | nil =>
      rw [pairByName, pairLoop, pairNext_none (jsonNext_empty none)]
      rfl
  | cons member members =>
      obtain ⟨other, value⟩ := member
      have hnext : pairNext (window true ((other, value) :: members) rest) none maxStringLen =
          some (other, valueText true value members rest) :=
        pairNext_label (jsonNext_first hwf) (hnames _ List.mem_cons_self) (skipWhitespace_render hwf.2.1 _)
      have hcount : members.length < (window true ((other, value) :: members) rest).start.length :=
        Nat.lt_of_succ_lt (length_lt_window true ((other, value) :: members) rest)
      have hlater := pairLoop_find rest name hwf (List.cons_ne_nil _ _) hwf.2.1 hwf.2.2
        (fun m hm => hnames m (List.mem_cons_of_mem _ hm)) hcount
      rw [pairByName, pairLoop, hnext]
      simp only [Option.bind_eq_bind, Option.bind_some, findMember]
      split_ifs
      · rfl
      · exact hlater

lemma findMember_first {before after : List (List Char × Tree)} {name : List Char} {value : Tree}
    (hfirst : ∀ member ∈ before, member.1 ≠ name) :
    findMember name (before ++ (name, value) :: after) = some (value, after) := by
  induction before with
  | nil => simp [findMember]
  | cons member before ih =>
      obtain ⟨other, between⟩ := member
      have hother : other ≠ name := hfirst (other, between) List.mem_cons_self
      rw [List.cons_append, findMember, if_neg hother]
      exact ih fun m hm => hfirst m (List.mem_cons_of_mem _ hm)

end

section

lemma copyLoop_long {size fuel : ℕ} {out text : List Char} (rest : List Char) (hout : out.length < size)
    (hsize : size ≤ out.length + text.length) : copyLoop size fuel out (escape text ++ '"' :: rest) = none := by
  induction text generalizing out fuel with
  | nil =>
      simp only [List.length_nil] at hsize
      omega
  | cons c text ih =>
      cases fuel with
      | zero => rfl
      | succ fuel =>
          simp only [List.length_cons] at hsize
          have hcons : escape (c :: text) = escapeChar c ++ escape text := rfl
          have hnext : ¬ (out ++ [c]).length = size →
              copyLoop size fuel (out ++ [c]) (escape text ++ '"' :: rest) = none := by
            intro hne
            rw [List.length_append, List.length_singleton] at hne
            exact ih (by simp; omega) (by simp; omega)
          rcases escapeChar_cases c with ⟨hc, hquote, hback, -⟩ | ⟨e, he, hdecode, -⟩
          · rw [hcons, hc, List.singleton_append, List.cons_append, copyLoop_plain hquote hback]
            split_ifs with hfull
            · rfl
            · exact hnext hfull
          · rw [hcons, he, List.cons_append, List.cons_append, List.append_assoc, copyLoop]
            simp only [hdecode, Option.bind_eq_bind, Option.bind_some]
            split_ifs with hroom hfull
            · rfl
            · rfl
            · exact hnext hfull

lemma copyString_long {size : ℕ} {text : List Char} (rest : List Char) (hsize : size ≤ text.length) :
    copyString ('"' :: (escape text ++ '"' :: rest)) size = none := by
  rw [copyString]
  split_ifs with hzero
  · rfl
  · exact copyLoop_long rest (Nat.pos_of_ne_zero hzero) (by simpa using hsize)

lemma jsonType_number {token : List Char} (h : NumberToken token) (rest : List Char) : jsonType (token ++ rest) = .int := by
  obtain ⟨sign, whole, fraction, exponent, rfl, hsign, ⟨hne, hwhole, -⟩, -⟩ := h.parts
  rcases hsign with rfl | rfl
  · obtain ⟨d, ds, rfl⟩ := List.exists_cons_of_ne_nil hne
    have hdigit := hwhole d List.mem_cons_self
    have hquote : d ≠ '"' := by
      rintro rfl
      simp at hdigit
    simp [jsonType, hquote, hdigit]
  · simp [jsonType]

lemma jsonType_literal {token : List Char} (h : LiteralToken token) (rest : List Char) :
    jsonType (token ++ rest) = jsonType token ∧ jsonType token ∈ [JsonType.int, .null, .true, .false] := by
  rcases h with hnumber | rfl | rfl | rfl
  · have hself := jsonType_number hnumber []
    rw [List.append_nil] at hself
    simp [jsonType_number hnumber rest, hself]
  · simp [jsonType]
  · simp [jsonType]
  · simp [jsonType]

def decodeTree (size : ℕ) : Tree → Option (List Char × JsonType)
  | .str text => if text.length < size then some (text, .string) else none
  | .literal token =>
    match jsonType token with
    | .null => if size = 0 then none else some ([], .null)
    | type => if size < token.length + 1 then none else some (token, type)
  | .node _ _ => none

lemma decodeTree_number {token : List Char} (h : NumberToken token) {size : ℕ} (hsize : token.length < size) :
    decodeTree size (.literal token) = some (token, .int) := by
  have htype := jsonType_number h []
  have hroom : ¬ size < token.length + 1 := by omega
  rw [List.append_nil] at htype
  simp [decodeTree, htype, hroom]

lemma decodeValue_quoted (text rest : List Char) (size : ℕ) :
    decodeValue (quoted text ++ rest) size = decodeTree size (.str text) := by
  have htype : jsonType (quoted text ++ rest) = .string := by simp [quoted, jsonType]
  have hlen : valueLength (quoted text ++ rest) = some (quoted text).length := by
    simp [valueLength, htype, parseValue_str]
  have htext : quoted text ++ rest = '"' :: (escape text ++ '"' :: rest) := by simp [quoted]
  simp only [decodeValue, hlen, decodeInto, htype, Option.bind_eq_bind, Option.bind_some, decodeTree]
  split_ifs with hsize
  · rw [htext, copyString_quoted rest hsize]
    rfl
  · rw [htext, copyString_long rest (by omega)]
    rfl

lemma decodeValue_literal {token rest : List Char} (h : LiteralToken token) (hrest : Ends rest) (size : ℕ) :
    decodeValue (token ++ rest) size = decodeTree size (.literal token) := by
  obtain ⟨htype, hcases⟩ := jsonType_literal h rest
  have hlen : valueLength (token ++ rest) = some token.length := by
    have hparse : (parseValue (2 * (token ++ rest).length + 2) (token ++ rest)).map
        (fun r => (token ++ rest).length - r.2.length) = some token.length := by
      rw [parseValue_literal _ h hrest.breaks]
      simp
    simp only [List.mem_cons, List.not_mem_nil, or_false] at hcases
    unfold valueLength
    rw [htype]
    rcases hcases with hcase | hcase | hcase | hcase
    all_goals
      rw [hcase]
      exact hparse
  simp only [decodeValue, hlen, decodeInto, htype, Option.bind_eq_bind, Option.bind_some, decodeTree]
  simp only [List.mem_cons, List.not_mem_nil, or_false] at hcases
  rcases hcases with hcase | hcase | hcase | hcase
  all_goals
    rw [hcase]
    dsimp only [copyUnquotedValue]
    split_ifs <;> simp

lemma decodeValue_node (object : Bool) (members : List (List Char × Tree)) (rest : List Char) (size : ℕ) :
    decodeValue (render (.node object members) ++ rest) size = none := by
  have htype : jsonType (render (.node object members) ++ rest) = if object then .object else .array := by
    cases object <;> simp [render, openBracket, jsonType]
  cases object <;> simp [decodeValue, valueLength, htype]

lemma ends_tail (object : Bool) (after : List (List Char × Tree)) (rest : List Char) :
    Ends (renderTail object after ++ closeBracket object :: rest) := by
  right
  cases after with
  | nil => exact ⟨closeBracket object, rest, rfl, by cases object <;> simp [closeBracket]⟩
  | cons member after =>
      obtain ⟨name, value⟩ := member
      exact ⟨',', _, rfl, .inl rfl⟩

lemma valueByName_window {members : List (List Char × Tree)} {rest : List Char} (name : List Char) (size : ℕ)
    (hwf : MembersWellFormed true members) (hnames : NamesShort members) :
    valueByName (window true members rest) name size =
      (findMember name members).bind fun found => decodeTree size found.1 := by
  have hfound : ∀ members : List (List Char × Tree), MembersWellFormed true members → ∀ found,
      findMember name members = some found → WellFormed found.1 := by
    intro members hwf found hfind
    induction members with
    | nil => simp [findMember] at hfind
    | cons member members ih =>
        obtain ⟨other, value⟩ := member
        rw [findMember] at hfind
        split_ifs at hfind with hname
        · obtain rfl := Option.some.inj hfind
          exact hwf.2.1
        · exact ih hwf.2.2 hfind
  rw [valueByName, pairByName_window name hwf hnames]
  cases hfind : findMember name members with
  | none => rfl
  | some found =>
      obtain ⟨value, after⟩ := found
      have hvalue := hfound members hwf _ hfind
      simp only [Option.map_some, Option.bind_eq_bind, Option.bind_some, valueText]
      cases value with
      | str text => exact decodeValue_quoted text _ size
      | literal token => exact decodeValue_literal hvalue (ends_tail true after rest) size
      | node object members => exact decodeValue_node object members _ size

end

end Glaber.Json
