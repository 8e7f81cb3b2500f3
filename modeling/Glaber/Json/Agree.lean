import Glaber.Json.Lookup

namespace Glaber.Json

section

lemma decodeValueDyn_quoted (text rest : List Char) (stringAlloc : ℕ) :
    decodeValueDyn (quoted text ++ rest) stringAlloc = some (text, .string) := by
  have htype : jsonType (quoted text ++ rest) = .string := by simp [quoted, jsonType]
  have hlen : valueLength (quoted text ++ rest) = some (quoted text).length := by
    simp [valueLength, htype, parseValue_str]
  have hle : text.length < (quoted text).length := by
    have := length_le_escape text
    simp [quoted]
    omega
  have hsize : text.length < if stringAlloc ≤ (quoted text).length then (quoted text).length + 1 else stringAlloc := by
    split_ifs <;> omega
  have hcopy := copyString_quoted rest hsize
  have htext : quoted text ++ rest = '"' :: (escape text ++ '"' :: rest) := by simp [quoted]
  simp only [decodeValueDyn, hlen, decodeInto, htype, Option.bind_eq_bind, Option.bind_some]
  rw [htext, hcopy]
  simp

def ReadsBack (jp : JsonParse) (members : List (List Char × Tree)) : Prop :=
  NamesShort members →
    ∀ before name string after, members = before ++ (name, .str string) :: after → (∀ member ∈ before, member.1 ≠ name) →
      ∀ stringAlloc, valueByNameDyn jp name stringAlloc = some (string, .string)

lemma window_readsBack {members : List (List Char × Tree)} (h : MembersWellFormed true members) (rest : List Char) :
    ReadsBack (window true members rest) members := by
  rintro hnames before name string after rfl hfirst stringAlloc
  rw [valueByNameDyn, pairByName_window name h hnames, findMember_first hfirst]
  exact decodeValueDyn_quoted string _ stringAlloc

inductive Within : Tree → List Char → Tree → List Char → Prop where
  | here (tree : Tree) (rest : List Char) : Within tree rest tree rest
  | member {object : Bool} {before after : List (List Char × Tree)} {name : List Char} {value inner : Tree}
      {rest behind : List Char} :
      Within value (renderTail object after ++ closeBracket object :: rest) inner behind →
        Within (.node object (before ++ (name, value) :: after)) rest inner behind

lemma renderTail_split (object : Bool) (before after : List (List Char × Tree)) :
    renderTail object (before ++ after) = renderTail object before ++ renderTail object after := by
  induction before with
  | nil => rfl
  | cons member before ih =>
      obtain ⟨name, value⟩ := member
      simp [renderTail, ih]

lemma renderMembers_suffix (object : Bool) (before after : List (List Char × Tree)) (name : List Char) (value : Tree) :
    ∃ front, renderMembers object (before ++ (name, value) :: after) = front ++ (render value ++ renderTail object after) := by
  cases before with
  | nil => exact ⟨label object name, by simp [renderMembers]⟩
  | cons member before =>
      obtain ⟨other, between⟩ := member
      refine ⟨label object other ++ (render between ++ (renderTail object before ++ (',' :: label object name))), ?_⟩
      simp [renderMembers, renderTail_split, renderTail]

lemma Within.suffix {tree inner : Tree} {rest behind : List Char} (h : Within tree rest inner behind) :
    ∃ front, render tree ++ rest = front ++ (render inner ++ behind) := by
  induction h with
  | here tree rest => exact ⟨[], rfl⟩
  | @member object before after name value inner rest behind _ ih =>
      obtain ⟨front, hfront⟩ := ih
      obtain ⟨lead, hlead⟩ := renderMembers_suffix object before after name value
      refine ⟨openBracket object :: (lead ++ front), ?_⟩
      simp [render, hlead, hfront]

lemma Within.wellFormed {tree inner : Tree} {rest behind : List Char} (h : Within tree rest inner behind)
    (hwf : WellFormed tree) : WellFormed inner := by
  induction h with
  | here tree rest => exact hwf
  | member _ ih => exact ih (MembersWellFormed.mem hwf (List.mem_append_right _ List.mem_cons_self))

end

section

variable (garbage : ℕ → Char) (object : Bool) (ops : List Op)

def builtTree : Tree := closeAll (applyOps ops (rootFrame object) []).1 (applyOps ops (rootFrame object) []).2

def builtJson : Builder := ops.foldl runOp (startJson garbage object)

variable {object ops} in
lemma builtJson_text (hfits : FitsAll ops (rootFrame object) []) :
    (builtJson garbage object ops).text = render (builtTree object ops) ∧
      ∃ top members, builtTree object ops = .node top members ∧ WellFormed (.node top members) := by
  obtain ⟨hj, hwf⟩ := represents_ops (represents_startJson garbage object) trivial hfits
  obtain ⟨top, members, hnode⟩ : ∃ top members, builtTree object ops = .node top members := closeAll_node _ _
  refine ⟨?_, top, members, hnode, hnode ▸ hwf.closeAll⟩
  rw [builtTree, ← openText_append_closeText]
  exact hj.text

theorem builder_reader_agree (hfits : FitsAll ops (rootFrame object) []) :
    let j := builtJson garbage object ops
    (j.buffer j.size = '\x00' ∧ (∀ k < j.size, j.buffer k ≠ '\x00')) ∧
    (∃ jp, jsonOpen j.text = some jp ∧ jp.start = j.text ∧ jp.endLength = 1 ∧
      ∀ members, builtTree object ops = .node true members → ReadsBack jp members) ∧
    jsonValidate j.text = some (builtTree object ops, []) ∧
    ∀ members behind, Within (builtTree object ops) [] (.node true members) behind →
      ∃ front p jp, j.text = front ++ p ∧ bracketsOpen p = some jp ∧ ReadsBack jp members := by
  intro j
  obtain ⟨hj, -⟩ := represents_ops (represents_startJson garbage object) trivial hfits
  obtain ⟨htext, top, all, hnode, hwf⟩ : j.text = _ ∧ _ := builtJson_text garbage hfits
  rw [hnode] at htext
  refine ⟨⟨hj.nul, ?_⟩, ?_, ?_, ?_⟩
  · intro k hk hnul
    apply hj.noNul
    rw [Builder.text, List.mem_map]
    exact ⟨k, List.mem_range.2 hk, hnul⟩
  · refine ⟨window top all [], htext ▸ jsonOpen_render hwf, by simp [htext, window], rfl, ?_⟩
    intro members hmembers
    obtain ⟨rfl, rfl⟩ : top = true ∧ all = members := by simpa [hnode] using hmembers
    exact window_readsBack hwf []
  · rw [htext, hnode]
    exact jsonValidate_render hwf
  · intro members behind hwithin
    rw [hnode] at hwithin
    have hobject := hwithin.wellFormed hwf
    obtain ⟨front, hfront⟩ := hwithin.suffix
    refine ⟨front, _, _, ?_, bracketsOpen_node hobject behind, window_readsBack hobject behind⟩
    rw [htext, ← hfront, List.append_nil]

def nestedOps : List Op :=
  [.addString (some ['k']) (some ['"', '\n', 'x']) true, .addArray (some ['l']),
    .addString none (some ['-', '1', '.', '5', 'e', '3']) false, .addObject none, .addString (some []) none true]

lemma nestedOps_fits : FitsAll nestedOps (rootFrame true) [] := by
  have hnumber : LiteralToken ['-', '1', '.', '5', 'e', '3'] := by
    refine .inl ⟨['-'], ['1'], ['.', '5'], ['e', '3'], by decide, by simp, by decide, .inr ⟨['5'], ?_⟩,
      .inr ⟨'e', [], ['3'], ?_⟩⟩
    · decide
    · decide
  simp [nestedOps, FitsAll, Op.Fits, NameFits, StringFits, rootFrame, Op.apply, Frame.add, hnumber]

theorem nestedOps_agree :
    FitsAll nestedOps (rootFrame true) [] ∧
      jsonValidate (builtJson (fun _ => 'x') true nestedOps).text = some (builtTree true nestedOps, []) :=
  ⟨nestedOps_fits, (builder_reader_agree (fun _ => 'x') true nestedOps nestedOps_fits).2.2.1⟩

end

end Glaber.Json
