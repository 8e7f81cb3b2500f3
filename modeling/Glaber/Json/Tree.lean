import Glaber.Json.Text

namespace Glaber.Json

/-- A leaf is a string or the token of a number, `true`, `false` or `null`; the members of an array have empty names. -/
inductive Tree where
  | str (text : List Char)
  | literal (token : List Char)
  | node (object : Bool) (members : List (List Char × Tree))

def openBracket (object : Bool) : Char := if object then '\x7b' else '['
def closeBracket (object : Bool) : Char := if object then '\x7d' else ']'

def quoted (text : List Char) : List Char := '"' :: (escape text ++ ['"'])

def label (object : Bool) (name : List Char) : List Char := if object then quoted name ++ [':'] else []

mutual

def render : Tree → List Char
  | .str text => quoted text
  | .literal token => token
  | .node object members => openBracket object :: (renderMembers object members ++ [closeBracket object])

def renderMembers (object : Bool) : List (List Char × Tree) → List Char
  | [] => []
  | (name, value) :: members => label object name ++ (render value ++ renderTail object members)

def renderTail (object : Bool) : List (List Char × Tree) → List Char
  | [] => []
  | (name, value) :: members => ',' :: (label object name ++ (render value ++ renderTail object members))

end

theorem Tree.induct {P : Tree → Prop} (str : ∀ text, P (.str text)) (literal : ∀ token, P (.literal token))
    (node : ∀ object members, (∀ member ∈ members, P member.2) → P (.node object members)) (tree : Tree) : P tree := by
  apply @Tree.rec P (fun members => ∀ member ∈ members, P member.2) (fun member => P member.2) str literal node
  · simp
  · intro member members hmember hmembers x hx
    rcases List.mem_cons.1 hx with rfl | hx
    · exact hmember
    · exact hmembers x hx
  · intro name value hvalue
    exact hvalue

section

/-- The number of JSON: sign, whole part without leading zeros, fraction, exponent. The reader lets a point stand without
digits behind it. -/
structure NumberToken (token : List Char) : Prop where
  parts : ∃ sign whole fraction exponent : List Char, token = sign ++ whole ++ fraction ++ exponent ∧
    (sign = [] ∨ sign = ['-']) ∧
    (whole ≠ [] ∧ (∀ c ∈ whole, c.isDigit = true) ∧ (whole.head? = some '0' → whole = ['0'])) ∧
    (fraction = [] ∨ ∃ digits, fraction = '.' :: digits ∧ ∀ c ∈ digits, c.isDigit = true) ∧
    (exponent = [] ∨ ∃ e sign digits, exponent = e :: (sign ++ digits) ∧ (e = 'e' ∨ e = 'E') ∧
      (sign = [] ∨ sign = ['+'] ∨ sign = ['-']) ∧ digits ≠ [] ∧ ∀ c ∈ digits, c.isDigit = true)

def LiteralToken (token : List Char) : Prop :=
  NumberToken token ∨ token = "true".toList ∨ token = "false".toList ∨ token = "null".toList

mutual

def WellFormed : Tree → Prop
  | .str _ => True
  | .literal token => LiteralToken token
  | .node object members => MembersWellFormed object members

def MembersWellFormed (object : Bool) : List (List Char × Tree) → Prop
  | [] => True
  | (name, value) :: members => (object = false → name = []) ∧ WellFormed value ∧ MembersWellFormed object members

end

end

section

mutual

def weight : Tree → ℕ
  | .str _ => 1
  | .literal _ => 1
  | .node _ members => 1 + membersWeight members

def membersWeight : List (List Char × Tree) → ℕ
  | [] => 0
  | (_, value) :: members => 1 + weight value + membersWeight members

end

lemma LiteralToken.head {token : List Char} (h : LiteralToken token) :
    ∃ c tail, token = c :: tail ∧ (c.isDigit = true ∨ c = '-' ∨ c = 't' ∨ c = 'f' ∨ c = 'n') := by
  rcases h with hnumber | rfl | rfl | rfl
  · obtain ⟨sign, whole, fraction, exponent, rfl, hsign, ⟨hne, hwhole, -⟩, -⟩ := hnumber.parts
    rcases hsign with rfl | rfl
    · obtain ⟨d, ds, rfl⟩ := List.exists_cons_of_ne_nil hne
      exact ⟨d, ds ++ fraction ++ exponent, by simp, .inl (hwhole d List.mem_cons_self)⟩
    · exact ⟨'-', whole ++ fraction ++ exponent, by simp, .inr (.inl rfl)⟩
  · exact ⟨'t', _, rfl, by simp⟩
  · exact ⟨'f', _, rfl, by simp⟩
  · exact ⟨'n', _, rfl, by simp⟩

lemma weight_le (tree : Tree) (h : WellFormed tree) : weight tree ≤ 2 * (render tree).length := by
  induction tree using Tree.induct with
  | str text => simp [weight, render, quoted]; omega
  | literal token =>
      obtain ⟨c, tail, rfl, -⟩ := LiteralToken.head h
      simp [weight, render]
      omega
  | node object members ih =>
      have htail : ∀ ms : List (List Char × Tree), (∀ member ∈ ms, member ∈ members) → MembersWellFormed object ms →
          membersWeight ms ≤ 2 * (renderTail object ms).length := by
        intro ms hms hwf
        induction ms with
        | nil => simp [membersWeight]
        | cons member ms ihms =>
            obtain ⟨name, value⟩ := member
            have hvalue := ih (name, value) (hms _ List.mem_cons_self) hwf.2.1
            have hrest := ihms (fun m hm => hms m (List.mem_cons_of_mem _ hm)) hwf.2.2
            simp only [membersWeight, renderTail, List.length_cons, List.length_append]
            dsimp only at hvalue
            omega
      cases members with
      | nil => simp [weight, membersWeight, render]; omega
      | cons member members =>
          obtain ⟨name, value⟩ := member
          have hvalue := ih (name, value) List.mem_cons_self h.2.1
          have hrest := htail members (fun m hm => List.mem_cons_of_mem _ hm) h.2.2
          simp only [weight, membersWeight, render, renderMembers, List.length_cons, List.length_append, List.length_nil]
          dsimp only at hvalue
          omega

end

section

lemma renderTail_append (object : Bool) (members : List (List Char × Tree)) (name : List Char) (value : Tree) :
    renderTail object (members ++ [(name, value)]) = renderTail object members ++ ',' :: (label object name ++ render value) := by
  induction members with
  | nil => simp [renderTail]
  | cons member members ih =>
      obtain ⟨n, v⟩ := member
      simp [renderTail, ih]

lemma renderMembers_append (object : Bool) (members : List (List Char × Tree)) (name : List Char) (value : Tree) :
    renderMembers object (members ++ [(name, value)]) =
      renderMembers object members ++ ((if members = [] then [] else [',']) ++ (label object name ++ render value)) := by
  cases members with
  | nil => simp [renderMembers, renderTail]
  | cons member members =>
      obtain ⟨n, v⟩ := member
      simp [renderMembers, renderTail_append]

lemma MembersWellFormed.append {object : Bool} {members behind : List (List Char × Tree)}
    (h : MembersWellFormed object members) (hbehind : MembersWellFormed object behind) :
    MembersWellFormed object (members ++ behind) := by
  induction members with
  | nil => exact hbehind
  | cons member members ih => exact ⟨h.1, h.2.1, ih h.2.2⟩

lemma MembersWellFormed.mem {object : Bool} {members : List (List Char × Tree)} (h : MembersWellFormed object members)
    {member : List Char × Tree} (hm : member ∈ members) : WellFormed member.2 := by
  induction members with
  | nil => simp at hm
  | cons head members ih =>
      rcases List.mem_cons.1 hm with rfl | hm
      · exact h.2.1
      · exact ih h.2.2 hm

end

section

structure Frame where
  name : List Char
  object : Bool
  members : List (List Char × Tree)

variable (frame : Frame)

def Frame.add (name : List Char) (value : Tree) : Frame :=
  { frame with members := frame.members ++ [(name, value)] }

def Frame.toTree : Tree := .node frame.object frame.members

def Frame.lead (name : List Char) : List Char :=
  (if frame.members = [] then [] else [',']) ++ label frame.object name

def Frame.openText : List Char := openBracket frame.object :: renderMembers frame.object frame.members

def openText : List Frame → List Char
  | [] => []
  | [frame] => frame.openText
  | frame :: outer :: frames => openText (outer :: frames) ++ (outer.lead frame.name ++ frame.openText)

def closeText (frames : List Frame) : List Char := frames.map fun frame => closeBracket frame.object

def closeAll : Frame → List Frame → Tree
  | frame, [] => frame.toTree
  | frame, outer :: frames => closeAll (outer.add frame.name frame.toTree) frames

lemma openText_add (name : List Char) (value : Tree) :
    (frame.add name value).openText = frame.openText ++ (frame.lead name ++ render value) := by
  simp [Frame.openText, Frame.add, Frame.lead, renderMembers_append]

lemma openText_cons_add (frames : List Frame) (name : List Char) (value : Tree) :
    openText (frame.add name value :: frames) = openText (frame :: frames) ++ (frame.lead name ++ render value) := by
  cases frames with
  | nil => exact openText_add frame name value
  | cons outer frames =>
      simp only [openText, openText_add, List.append_assoc]
      rfl

lemma render_toTree : render frame.toTree = frame.openText ++ [closeBracket frame.object] := by
  simp [Frame.toTree, render, Frame.openText]

lemma openText_append_closeText (frames : List Frame) :
    openText (frame :: frames) ++ closeText (frame :: frames) = render (closeAll frame frames) := by
  induction frames generalizing frame with
  | nil => simp [openText, closeText, closeAll, render_toTree]
  | cons outer frames ih =>
      rw [closeAll, ← ih, openText_cons_add, render_toTree]
      simp [openText, closeText, Frame.add]

end

end Glaber.Json
