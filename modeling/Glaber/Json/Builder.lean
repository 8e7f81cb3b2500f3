import Glaber.Json.Tree

/-! The builder of JSON texts (`json.c`). The text lies closed in the buffer; an insertion moves the tail by a length that
is computed beforehand and writes into the gap. -/

namespace Glaber.Json

section

/-- `struct zbx_json`; `comma` is the status `ZBX_JSON_COMMA`. -/
structure Builder where
  buffer : ℕ → Char
  offset : ℕ
  size : ℕ
  comma : Bool
  level : ℕ

variable (j : Builder)

def moveTail (len : ℕ) : ℕ → Char :=
  fun k => if j.offset + len ≤ k ∧ k ≤ j.size + len then j.buffer (k - len) else j.buffer k

def writeAt (buffer : ℕ → Char) (offset : ℕ) (text : List Char) : ℕ → Char :=
  fun k => if offset ≤ k ∧ k < offset + text.length then text.getD (k - offset) '\x00' else buffer k

def nameSize (name : Option (List Char)) : ℕ :=
  match name with
  | none => 0
  | some name => stringSize (some name) true + 1

def nameText (name : Option (List Char)) : List Char :=
  match name with
  | none => []
  | some name => insString (some name) true ++ [':']

def commaText : List Char := if j.comma then [','] else []

def addContainer (name : Option (List Char)) (object : Bool) : Builder :=
  let len := 2 + (if j.comma then 1 else 0) + nameSize name
  let text := commaText j ++ nameText name ++ [openBracket object, closeBracket object]
  { buffer := writeAt (moveTail j len) j.offset text
    offset := j.offset + text.length - 1
    size := j.size + len
    comma := false
    level := j.level + 1 }

def addObject (name : Option (List Char)) : Builder := addContainer j name true

def addArray (name : Option (List Char)) : Builder := addContainer j name false

def addString (name : Option (List Char)) (string : Option (List Char)) (isString : Bool) : Builder :=
  let len := (if j.comma then 1 else 0) + nameSize name + stringSize string isString
  let text := commaText j ++ nameText name ++ insString string isString
  { j with
    buffer := writeAt (moveTail j len) j.offset text
    offset := j.offset + text.length
    size := j.size + len
    comma := true }

/-- `zbx_json_close`: the top level cannot be closed. -/
def closeJson : Builder :=
  if j.level = 1 then j
  else { j with level := j.level - 1, offset := j.offset + 1, comma := true }

def emptyJson (garbage : ℕ → Char) : Builder where
  buffer := fun k => if k = 0 then '\x00' else garbage k
  offset := 0
  size := 0
  comma := false
  level := 0

def jsonInit (garbage : ℕ → Char) : Builder := addObject (emptyJson garbage) none

def jsonInitarray (garbage : ℕ → Char) : Builder := addArray (emptyJson garbage) none

inductive Op where
  | addObject (name : Option (List Char))
  | addArray (name : Option (List Char))
  | addString (name : Option (List Char)) (string : Option (List Char)) (isString : Bool)
  | close

def runOp : Op → Builder
  | .addObject name => addObject j name
  | .addArray name => addArray j name
  | .addString name string isString => addString j name string isString
  | .close => closeJson j

def Builder.text : List Char := (List.range j.size).map j.buffer

end

section

lemma text_eq (buffer : ℕ → Char) (size : ℕ) (text : List Char) (hlen : text.length = size)
    (h : ∀ k (hk : k < text.length), buffer k = text[k]) : (List.range size).map buffer = text := by
  apply List.ext_getElem
  · simp [hlen]
  · intro k h₁ h₂
    simp [h k h₂]

lemma splice_text {j : Builder} (hoffset : j.offset ≤ j.size) (text : List Char) :
    (List.range (j.size + text.length)).map (writeAt (moveTail j text.length) j.offset text) =
      j.text.take j.offset ++ (text ++ j.text.drop j.offset) := by
  apply text_eq
  · simp [Builder.text]
    omega
  · intro k hk
    simp only [List.length_append, List.length_take, List.length_drop, Builder.text, List.length_map, List.length_range] at hk
    unfold writeAt moveTail
    by_cases hbefore : k < j.offset
    · rw [if_neg (by omega), if_neg (by omega), List.getElem_append_left (by simp [Builder.text]; omega)]
      simp [Builder.text]
    · by_cases hin : k < j.offset + text.length
      · rw [if_pos ⟨by omega, hin⟩, List.getElem_append_right (by simp [Builder.text]; omega),
          List.getElem_append_left (by simp [Builder.text]; omega)]
        simp only [Builder.text, List.length_take, List.length_map, List.length_range, Nat.min_eq_left hoffset]
        rw [List.getD_eq_getElem?_getD, List.getElem?_eq_getElem (by omega)]
        rfl
      · rw [if_neg (by omega), if_pos (by omega), List.getElem_append_right (by simp [Builder.text]; omega),
          List.getElem_append_right (by simp [Builder.text]; omega)]
        simp only [Builder.text, List.getElem_drop, List.getElem_map, List.getElem_range, List.length_take,
          List.length_map, List.length_range, Nat.min_eq_left hoffset]
        congr 1
        omega

lemma splice_end {j : Builder} (hoffset : j.offset ≤ j.size) (text : List Char) :
    writeAt (moveTail j text.length) j.offset text (j.size + text.length) = j.buffer j.size := by
  unfold writeAt moveTail
  rw [if_neg (by omega), if_pos (by omega), Nat.add_sub_cancel]

end

section

def leaf (string : Option (List Char)) (isString : Bool) : Tree :=
  match string with
  | none => .literal "null".toList
  | some string => if isString then .str string else .literal string

def Op.apply : Op → Frame → List Frame → Frame × List Frame
  | .addObject name, frame, frames => (⟨name.getD [], true, []⟩, frame :: frames)
  | .addArray name, frame, frames => (⟨name.getD [], false, []⟩, frame :: frames)
  | .addString name string isString, frame, frames => (frame.add (name.getD []) (leaf string isString), frames)
  | .close, frame, [] => (frame, [])
  | .close, frame, outer :: frames => (outer.add frame.name frame.toTree, frames)

def NameFits (frame : Frame) (name : Option (List Char)) : Prop :=
  (name.isSome = true ↔ frame.object = true) ∧ ∀ text, name = some text → '\x00' ∉ text

def StringFits (string : Option (List Char)) (isString : Bool) : Prop :=
  ∀ text, string = some text → if isString then '\x00' ∉ text else LiteralToken text

def Op.Fits (frame : Frame) : Op → Prop
  | .addObject name => NameFits frame name
  | .addArray name => NameFits frame name
  | .addString name string isString => NameFits frame name ∧ StringFits string isString
  | .close => True

structure Represents (j : Builder) (frame : Frame) (frames : List Frame) : Prop where
  text : j.text = openText (frame :: frames) ++ closeText (frame :: frames)
  offset : j.offset = (openText (frame :: frames)).length
  comma : j.comma = true ↔ frame.members ≠ []
  level : j.level = frames.length + 1
  nul : j.buffer j.size = '\x00'
  noNul : '\x00' ∉ j.text

lemma nameText_eq {frame : Frame} {name : Option (List Char)} (h : NameFits frame name) :
    nameText name = label frame.object (name.getD []) := by
  cases name with
  | none =>
      have hobject : frame.object = false := by simpa using h.1
      simp [nameText, label, hobject]
  | some name =>
      have hobject : frame.object = true := by simpa using h.1
      simp [nameText, label, hobject, insString, quoted]

lemma length_nameText (name : Option (List Char)) : (nameText name).length = nameSize name := by
  cases name with
  | none => rfl
  | some name => simp [nameText, nameSize, length_insString]

lemma escapeChar_plain {c : Char} (hquote : c ≠ '"') (hback : c ≠ '\\') (hc : 0x1f < c.toNat) : escapeChar c = [c] := by
  have hcontrol : ¬ c.toNat ≤ 0x1f := by omega
  unfold escapeChar
  split <;> first | exact absurd hc (by decide) | skip
  · exact absurd rfl hquote
  · exact absurd rfl hback
  · rw [if_neg hcontrol]

def literalChars : List Char := "0123456789+-.eEtrufalsn".toList

lemma mem_literalChars_of_isDigit {c : Char} (h : c.isDigit = true) : c ∈ literalChars := by
  have hrange : 48 ≤ c.toNat ∧ c.toNat ≤ 57 := by
    simp only [Char.isDigit, Bool.and_eq_true, decide_eq_true_eq] at h
    exact h
  have hc : c = Char.ofNat c.toNat := (Char.ofNat_toNat c).symm
  obtain ⟨h₁, h₂⟩ := hrange
  rw [hc]
  interval_cases c.toNat <;> decide

lemma LiteralToken.chars {token : List Char} (h : LiteralToken token) : ∀ c ∈ token, c ∈ literalChars := by
  rcases h with hnumber | rfl | rfl | rfl
  · obtain ⟨sign, whole, fraction, exponent, rfl, hsign, ⟨-, hwhole, -⟩, hfraction, hexponent⟩ := hnumber.parts
    intro c hc
    simp only [List.mem_append] at hc
    rcases hc with ((hc | hc) | hc) | hc
    · rcases hsign with rfl | rfl
      · simp at hc
      · rw [List.mem_singleton.1 hc]
        decide
    · exact mem_literalChars_of_isDigit (hwhole c hc)
    · rcases hfraction with rfl | ⟨digits, rfl, hdigits⟩
      · simp at hc
      · rcases List.mem_cons.1 hc with rfl | hc
        · decide
        · exact mem_literalChars_of_isDigit (hdigits c hc)
    · rcases hexponent with rfl | ⟨e, sign', digits, rfl, he, hsign', -, hdigits⟩
      · simp at hc
      · simp only [List.mem_cons, List.mem_append] at hc
        rcases hc with rfl | hc | hc
        · rcases he with rfl | rfl <;> decide
        · rcases hsign' with rfl | rfl | rfl
          · simp at hc
          · rw [List.mem_singleton.1 hc]
            decide
          · rw [List.mem_singleton.1 hc]
            decide
        · exact mem_literalChars_of_isDigit (hdigits c hc)
  · decide
  · decide
  · decide

lemma escape_literal {token : List Char} (h : ∀ c ∈ token, c ∈ literalChars) : escape token = token := by
  induction token with
  | nil => rfl
  | cons c token ih =>
      have hc : c ∈ literalChars := h c List.mem_cons_self
      have hplain : ∀ x ∈ literalChars, x ≠ '"' ∧ x ≠ '\\' ∧ 0x1f < x.toNat := by decide
      obtain ⟨hquote, hback, hcontrol⟩ := hplain c hc
      have hrest := ih fun x hx => h x (List.mem_cons_of_mem c hx)
      simp only [escape, List.flatMap_cons, escapeChar_plain hquote hback hcontrol] at hrest ⊢
      rw [hrest]
      rfl

lemma insString_leaf {string : Option (List Char)} {isString : Bool} (h : StringFits string isString) :
    insString string isString = render (leaf string isString) := by
  cases string with
  | none => rfl
  | some text =>
      have htext := h text rfl
      cases isString with
      | true => simp [insString, leaf, render, quoted]
      | false =>
          have hliteral : LiteralToken text := htext
          simp [insString, leaf, render, escape_literal hliteral.chars]

end

section

variable {j : Builder} {frame : Frame} {frames : List Frame}

lemma nul_not_mem_escapeChar (c : Char) : '\x00' ∉ escapeChar c := by
  unfold escapeChar
  split <;> try decide
  split_ifs with hc
  · have hhex : ∀ n ≤ 0x1f, '\x00' ∉ ['\\', 'u', '0', '0', zbxNum2hex (n / 16), zbxNum2hex (n % 16)] := by decide
    exact hhex c.toNat hc
  · rw [List.mem_singleton]
    rintro rfl
    exact hc (by decide)

lemma nul_not_mem_insString (string : Option (List Char)) (isString : Bool) : '\x00' ∉ insString string isString := by
  have hbody : '\x00' ∉ escape (string.getD "null".toList) := by
    simp only [escape, List.mem_flatMap, not_exists, not_and]
    exact fun c _ => nul_not_mem_escapeChar c
  unfold insString
  generalize string.getD "null".toList = text at hbody
  split_ifs
  · simp [hbody]
  · exact hbody

lemma nul_not_mem_nameText (name : Option (List Char)) : '\x00' ∉ nameText name := by
  cases name with
  | none => simp [nameText]
  | some name => simp [nameText, nul_not_mem_insString]

lemma nul_not_mem_commaText (j : Builder) : '\x00' ∉ commaText j := by
  unfold commaText
  split_ifs <;> decide

lemma Represents.offset_le (h : Represents j frame frames) : j.offset ≤ j.size := by
  have hlen : j.text.length = j.size := by simp [Builder.text]
  rw [h.text, List.length_append] at hlen
  rw [h.offset]
  omega

lemma Represents.lead (h : Represents j frame frames) {name : Option (List Char)} (hname : NameFits frame name) :
    commaText j ++ nameText name = frame.lead (name.getD []) := by
  have hcomma : commaText j = if frame.members = [] then [] else [','] := by
    unfold commaText
    by_cases hm : frame.members = []
    · have hj : j.comma = false := by
        by_contra hne
        exact h.comma.1 (by simpa using hne) hm
      rw [if_neg (by simp [hj]), if_pos hm]
    · rw [if_pos (h.comma.2 hm), if_neg hm]
  rw [hcomma, nameText_eq hname, Frame.lead]

lemma Represents.splice (h : Represents j frame frames) (text : List Char) :
    (List.range (j.size + text.length)).map (writeAt (moveTail j text.length) j.offset text) =
      openText (frame :: frames) ++ (text ++ closeText (frame :: frames)) := by
  rw [splice_text h.offset_le, h.text, h.offset, List.take_left, List.drop_left]

lemma length_commaText (j : Builder) : (commaText j).length = if j.comma then 1 else 0 := by
  unfold commaText
  split_ifs <;> rfl

lemma openText_cons (name : List Char) (object : Bool) (frame : Frame) (frames : List Frame) :
    openText (⟨name, object, []⟩ :: frame :: frames) = openText (frame :: frames) ++ (frame.lead name ++ [openBracket object]) := by
  simp [openText, Frame.openText, renderMembers]

lemma Represents.addContainer (h : Represents j frame frames) {name : Option (List Char)} (hname : NameFits frame name)
    (object : Bool) : Represents (addContainer j name object) ⟨name.getD [], object, []⟩ (frame :: frames) := by
  have hlen : 2 + (if j.comma then 1 else 0) + nameSize name =
      (commaText j ++ nameText name ++ [openBracket object, closeBracket object]).length := by
    simp only [List.length_append, length_commaText, length_nameText, List.length_cons, List.length_nil]
    omega
  have hpiece : commaText j ++ nameText name ++ [openBracket object, closeBracket object] =
      frame.lead (name.getD []) ++ [openBracket object, closeBracket object] := by rw [h.lead hname]
  have htext : (Json.addContainer j name object).text = openText (frame :: frames) ++
      (commaText j ++ nameText name ++ [openBracket object, closeBracket object] ++ closeText (frame :: frames)) := by
    rw [← h.splice]
    simp only [Json.addContainer, Builder.text, hlen]
  refine ⟨?_, ?_, ?_, ?_, ?_, ?_⟩
  · rw [htext, hpiece, openText_cons]
    simp [closeText]
  · simp only [Json.addContainer]
    rw [hpiece, openText_cons, h.offset]
    simp only [List.length_append, List.length_cons, List.length_nil]
    omega
  · simp [Json.addContainer]
  · simp [Json.addContainer, h.level]
  · simp only [Json.addContainer, hlen]
    rw [splice_end h.offset_le]
    exact h.nul
  · rw [htext]
    have hold := h.noNul
    rw [h.text] at hold
    simp only [List.mem_append, not_or] at hold ⊢
    refine ⟨hold.1, ⟨⟨nul_not_mem_commaText j, nul_not_mem_nameText name⟩, ?_⟩, hold.2⟩
    cases object <;> decide

lemma Represents.addString (h : Represents j frame frames) {name string : Option (List Char)} {isString : Bool}
    (hname : NameFits frame name) (hstring : StringFits string isString) :
    Represents (addString j name string isString) (frame.add (name.getD []) (leaf string isString)) frames := by
  have hlen : (if j.comma then 1 else 0) + nameSize name + stringSize string isString =
      (commaText j ++ nameText name ++ insString string isString).length := by
    simp only [List.length_append, length_commaText, length_nameText, length_insString]
  have hpiece : commaText j ++ nameText name ++ insString string isString =
      frame.lead (name.getD []) ++ render (leaf string isString) := by rw [h.lead hname, insString_leaf hstring]
  have htext : (Json.addString j name string isString).text = openText (frame :: frames) ++
      (commaText j ++ nameText name ++ insString string isString ++ closeText (frame :: frames)) := by
    rw [← h.splice]
    simp only [Json.addString, Builder.text, hlen]
  refine ⟨?_, ?_, ?_, ?_, ?_, ?_⟩
  · rw [htext, hpiece, openText_cons_add]
    simp [closeText, Frame.add]
  · simp only [Json.addString]
    rw [hpiece, openText_cons_add, h.offset]
    simp only [List.length_append]
  · simp [Json.addString, Frame.add]
  · simp [Json.addString, h.level]
  · simp only [Json.addString, hlen]
    rw [splice_end h.offset_le]
    exact h.nul
  · rw [htext]
    have hold := h.noNul
    rw [h.text] at hold
    simp only [List.mem_append, not_or] at hold ⊢
    exact ⟨hold.1, ⟨⟨nul_not_mem_commaText j, nul_not_mem_nameText name⟩, nul_not_mem_insString _ _⟩, hold.2⟩

lemma Represents.close {outer : Frame} (h : Represents j frame (outer :: frames)) :
    Represents (closeJson j) (outer.add frame.name frame.toTree) frames := by
  have hlevel : ¬ j.level = 1 := by simp [h.level]
  have hopen : openText (outer.add frame.name frame.toTree :: frames) =
      openText (frame :: outer :: frames) ++ [closeBracket frame.object] := by
    rw [openText_cons_add, render_toTree]
    simp [openText]
  refine ⟨?_, ?_, ?_, ?_, ?_, ?_⟩
  · have htext : (closeJson j).text = j.text := by simp [closeJson, hlevel, Builder.text]
    rw [htext, h.text, hopen]
    simp [closeText, Frame.add]
  · simp [closeJson, hlevel, h.offset, hopen]
  · simp [closeJson, hlevel, Frame.add]
  · simp [closeJson, h.level]
  · have hsame : (closeJson j).buffer (closeJson j).size = j.buffer j.size := by simp [closeJson, hlevel]
    rw [hsame]
    exact h.nul
  · have htext : (closeJson j).text = j.text := by simp [closeJson, hlevel, Builder.text]
    rw [htext]
    exact h.noNul

lemma Represents.runOp (h : Represents j frame frames) {op : Op} (hfits : op.Fits frame) :
    Represents (runOp j op) (op.apply frame frames).1 (op.apply frame frames).2 := by
  cases op with
  | addObject name => exact h.addContainer hfits true
  | addArray name => exact h.addContainer hfits false
  | addString name string isString => exact h.addString hfits.1 hfits.2
  | close =>
      cases frames with
      | nil =>
          have hlevel : closeJson j = j := by simp [closeJson, h.level]
          simpa [Json.runOp, Op.apply, hlevel] using h
      | cons outer frames => exact h.close

end

section

def applyOps : List Op → Frame → List Frame → Frame × List Frame
  | [], frame, frames => (frame, frames)
  | op :: ops, frame, frames => applyOps ops (op.apply frame frames).1 (op.apply frame frames).2

def FitsAll : List Op → Frame → List Frame → Prop
  | [], _, _ => True
  | op :: ops, frame, frames => op.Fits frame ∧ FitsAll ops (op.apply frame frames).1 (op.apply frame frames).2

def StackWellFormed : Frame → List Frame → Prop
  | frame, [] => MembersWellFormed frame.object frame.members
  | frame, outer :: frames =>
    MembersWellFormed frame.object frame.members ∧ (outer.object = false → frame.name = []) ∧ StackWellFormed outer frames

lemma StackWellFormed.add {frame : Frame} {frames : List Frame} (h : StackWellFormed frame frames) {name : List Char}
    {value : Tree} (hname : frame.object = false → name = []) (hvalue : WellFormed value) :
    StackWellFormed (frame.add name value) frames := by
  cases frames with
  | nil => exact MembersWellFormed.append h ⟨hname, hvalue, trivial⟩
  | cons outer frames => exact ⟨h.1.append ⟨hname, hvalue, trivial⟩, h.2⟩

lemma StackWellFormed.closeAll {frame : Frame} {frames : List Frame} (h : StackWellFormed frame frames) :
    WellFormed (closeAll frame frames) := by
  induction frames generalizing frame with
  | nil => exact h
  | cons outer frames ih => exact ih (h.2.2.add h.2.1 h.1)

lemma closeAll_node (frame : Frame) (frames : List Frame) : ∃ object members, closeAll frame frames = .node object members := by
  induction frames generalizing frame with
  | nil => exact ⟨_, _, rfl⟩
  | cons outer frames ih => exact ih _

lemma leaf_wellFormed {string : Option (List Char)} {isString : Bool} (h : StringFits string isString) :
    WellFormed (leaf string isString) := by
  cases string with
  | none => exact .inr (.inr (.inr rfl))
  | some text =>
      have htext := h text rfl
      cases isString with
      | true => trivial
      | false => exact htext

lemma NameFits.none_in_array {frame : Frame} {name : Option (List Char)} (h : NameFits frame name)
    (harray : frame.object = false) : name.getD [] = [] := by
  cases name with
  | none => rfl
  | some name => simp [h.1.1 rfl] at harray

lemma StackWellFormed.apply {frame : Frame} {frames : List Frame} (h : StackWellFormed frame frames) {op : Op}
    (hfits : op.Fits frame) : StackWellFormed (op.apply frame frames).1 (op.apply frame frames).2 := by
  cases op with
  | addObject name => exact ⟨trivial, NameFits.none_in_array hfits, h⟩
  | addArray name => exact ⟨trivial, NameFits.none_in_array hfits, h⟩
  | addString name string isString => exact h.add hfits.1.none_in_array (leaf_wellFormed hfits.2)
  | close =>
      cases frames with
      | nil => exact h
      | cons outer frames => exact h.2.2.add h.2.1 h.1

def rootFrame (object : Bool) : Frame := ⟨[], object, []⟩

def startJson (garbage : ℕ → Char) (object : Bool) : Builder := if object then jsonInit garbage else jsonInitarray garbage

lemma represents_startJson (garbage : ℕ → Char) (object : Bool) :
    Represents (startJson garbage object) (rootFrame object) [] := by
  cases object with
  | false =>
      refine ⟨rfl, rfl, by simp [startJson, jsonInitarray, addArray, addContainer, rootFrame], rfl, rfl, ?_⟩
      show '\x00' ∉ ['[', ']']
      decide
  | true =>
      refine ⟨rfl, rfl, by simp [startJson, jsonInit, addObject, addContainer, rootFrame], rfl, rfl, ?_⟩
      show '\x00' ∉ ['\x7b', '\x7d']
      decide

lemma represents_ops {j : Builder} {frame : Frame} {frames : List Frame} {ops : List Op} (h : Represents j frame frames)
    (hwf : StackWellFormed frame frames) (hfits : FitsAll ops frame frames) :
    Represents (ops.foldl runOp j) (applyOps ops frame frames).1 (applyOps ops frame frames).2 ∧
      StackWellFormed (applyOps ops frame frames).1 (applyOps ops frame frames).2 := by
  induction ops generalizing j frame frames with
  | nil => exact ⟨h, hwf⟩
  | cons op ops ih => exact ih (h.runOp hfits.1) (hwf.apply hfits.1) hfits.2

end

section

def jsonStatBufLen : ℕ := 4096

def reallocLoop (need : ℕ) : ℕ → ℕ → ℕ
  | 0, allocated => allocated
  | fuel + 1, allocated =>
    if allocated < need then reallocLoop need fuel (if allocated = 0 then 1024 else allocated * 2) else allocated

def jsonRealloc (allocated need : ℕ) : ℕ := reallocLoop need need allocated

structure JsonBuffer where
  json : Builder
  allocated : ℕ

def JsonBuffer.run (j : JsonBuffer) (op : Op) : JsonBuffer :=
  let json := runOp j.json op
  match op with
  | .close => ⟨json, j.allocated⟩
  | _ => ⟨json, jsonRealloc j.allocated (json.size + 1)⟩

def jsonBufferInitarray (garbage : ℕ → Char) : JsonBuffer :=
  ⟨jsonInitarray garbage, jsonRealloc jsonStatBufLen ((jsonInitarray garbage).size + 1)⟩

end

section

def JsonBuffer.Doubled (j : JsonBuffer) (k : ℕ) : Prop := j.allocated = jsonStatBufLen * 2 ^ k

lemma reallocLoop_doubles {need fuel allocated k : ℕ} (h : allocated = jsonStatBufLen * 2 ^ k) (hfuel : need ≤ allocated + fuel) :
    ∃ k', reallocLoop need fuel allocated = jsonStatBufLen * 2 ^ k' ∧ need ≤ jsonStatBufLen * 2 ^ k' ∧
      ∀ bound, k ≤ bound → need ≤ jsonStatBufLen * 2 ^ bound → k' ≤ bound := by
  induction fuel generalizing allocated k with
  | zero => exact ⟨k, h, by omega, fun bound hbound _ => hbound⟩
  | succ fuel ih =>
    rw [reallocLoop]
    split_ifs with hless hzero
    · have := Nat.two_pow_pos k
      rw [jsonStatBufLen] at h
      omega
    · have hnext : allocated * 2 = jsonStatBufLen * 2 ^ (k + 1) := by rw [h, Nat.pow_succ, Nat.mul_assoc]
      obtain ⟨k', hloop, hneed, hleast⟩ := ih hnext (by omega)
      refine ⟨k', hloop, hneed, fun bound hbound henough => hleast bound (Nat.succ_le_of_lt ?_) henough⟩
      rcases Nat.lt_or_eq_of_le hbound with hlt | rfl
      · exact hlt
      · rw [← h] at henough
        omega
    · exact ⟨k, h, by omega, fun bound hbound _ => hbound⟩

lemma jsonRealloc_doubles {allocated k : ℕ} (need : ℕ) (h : allocated = jsonStatBufLen * 2 ^ k) :
    ∃ k', jsonRealloc allocated need = jsonStatBufLen * 2 ^ k' ∧ need ≤ jsonStatBufLen * 2 ^ k' ∧
      ∀ bound, k ≤ bound → need ≤ jsonStatBufLen * 2 ^ bound → k' ≤ bound :=
  reallocLoop_doubles h (by omega)

lemma JsonBuffer.run_within {j : JsonBuffer} {k bound : ℕ} (h : j.Doubled k) (hk : k ≤ bound) (op : Op)
    (hroom : (runOp j.json op).size + 1 ≤ jsonStatBufLen * 2 ^ bound) : ∃ k' ≤ bound, (j.run op).Doubled k' := by
  cases op with
  | close => exact ⟨k, hk, h⟩
  | addObject name =>
    obtain ⟨k', hrealloc, -, hleast⟩ := jsonRealloc_doubles _ h
    exact ⟨k', hleast bound hk hroom, hrealloc⟩
  | addArray name =>
    obtain ⟨k', hrealloc, -, hleast⟩ := jsonRealloc_doubles _ h
    exact ⟨k', hleast bound hk hroom, hrealloc⟩
  | addString name string isString =>
    obtain ⟨k', hrealloc, -, hleast⟩ := jsonRealloc_doubles _ h
    exact ⟨k', hleast bound hk hroom, hrealloc⟩

lemma JsonBuffer.doubled_initarray (garbage : ℕ → Char) : (jsonBufferInitarray garbage).Doubled 0 := rfl

lemma size_le_runOp (j : Builder) (op : Op) : j.size ≤ (runOp j op).size := by
  cases op with
  | addObject name => exact Nat.le_add_right _ _
  | addArray name => exact Nat.le_add_right _ _
  | addString name string isString => exact Nat.le_add_right _ _
  | close =>
    rw [runOp, closeJson]
    split_ifs
    · exact le_rfl
    · exact le_rfl

lemma size_le_foldl (j : Builder) (ops : List Op) : j.size ≤ (ops.foldl runOp j).size := by
  induction ops generalizing j with
  | nil => exact le_rfl
  | cons op ops ih => exact (size_le_runOp j op).trans (ih (runOp j op))

end

end Glaber.Json
