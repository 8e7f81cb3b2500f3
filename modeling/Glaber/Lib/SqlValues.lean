import Glaber.Lib.Parts

/-! A reader of the tuples behind `VALUES` in an SQL statement: fields are quoted texts, in which a backslash takes the
next character as it is, bare words and calls. -/

namespace Glaber.Lib.SqlValues

section

def readLiteral : List Char → Option (List Char × List Char)
  | [] => none
  | '\'' :: rest => some ([], rest)
  | '\\' :: c :: rest => (readLiteral rest).map fun r => (c :: r.1, r.2)
  | c :: rest => if c = '\\' then none else (readLiteral rest).map fun r => (c :: r.1, r.2)

def special (c : Char) : Bool := c = '\'' || c = '\\'

def escape (text : List Char) : List Char := text.flatMap fun c => if special c then ['\\', c] else [c]

lemma readLiteral_escaped (c : Char) (rest : List Char) :
    readLiteral ('\\' :: c :: rest) = (readLiteral rest).map fun r => (c :: r.1, r.2) := by
  simp [readLiteral]

lemma readLiteral_plain {c : Char} (h : special c = false) (rest : List Char) :
    readLiteral (c :: rest) = (readLiteral rest).map fun r => (c :: r.1, r.2) := by
  simp only [special, Bool.or_eq_false_iff, decide_eq_false_iff_not] at h
  rw [readLiteral.eq_def]
  split
  · rename_i heq
    cases heq
  · rename_i heq
    cases heq
    exact absurd rfl h.1
  · rename_i heq
    cases heq
    exact absurd rfl h.2
  · rename_i heq
    cases heq
    simp [h.2]

lemma readLiteral_escape (text rest : List Char) :
    readLiteral (escape text ++ '\'' :: rest) = some (text, rest) := by
  induction text with
  | nil => simp [escape, readLiteral]
  | cons c text ih =>
      cases hc : special c with
      | true =>
          have htext : escape (c :: text) = '\\' :: c :: escape text := by simp [escape, hc]
          rw [htext, List.cons_append, List.cons_append, readLiteral_escaped, ih]
          rfl
      | false =>
          have htext : escape (c :: text) = c :: escape text := by simp [escape, hc]
          rw [htext, List.cons_append, readLiteral_plain hc, ih]
          rfl

def Plain (text : List Char) : Prop := ∀ c ∈ text, special c = false

instance (text : List Char) : Decidable (Plain text) := inferInstanceAs (Decidable (∀ c ∈ text, _))

lemma escape_plain {text : List Char} (h : Plain text) : escape text = text := by
  induction text with
  | nil => rfl
  | cons c text ih =>
      have hc : special c = false := h c List.mem_cons_self
      have hrest : escape text = text := ih fun x hx => h x (List.mem_cons_of_mem c hx)
      simp only [escape, List.flatMap_cons, hc] at hrest ⊢
      simp [hrest]

lemma readLiteral_raw {text rest out rest' : List Char} (h : readLiteral (text ++ '\'' :: rest) = some (out, rest')) :
    Plain text ∨ out.length < text.length ∨ text.count '\'' < out.count '\'' := by
  induction text using List.twoStepInduction generalizing out rest' with
  | nil => exact .inl (by simp [Plain])
  | singleton c =>
      by_cases hquote : c = '\''
      · subst hquote
        simp only [List.cons_append, readLiteral, Option.some.injEq, Prod.mk.injEq] at h
        simp [← h.1]
      · by_cases hback : c = '\\'
        · subst hback
          rw [List.cons_append, List.nil_append, readLiteral_escaped] at h
          obtain ⟨r, -, hr⟩ := Option.map_eq_some_iff.1 h
          have hout : out = '\'' :: r.1 := (congrArg Prod.fst hr).symm
          exact .inr (.inr (by simp [hout]))
        · exact .inl (by simp [Plain, special, hquote, hback])
  | cons_cons c d text ih₁ ih₂ =>
      by_cases hquote : c = '\''
      · subst hquote
        simp only [List.cons_append, readLiteral, Option.some.injEq, Prod.mk.injEq] at h
        simp [← h.1]
      · by_cases hback : c = '\\'
        · subst hback
          rw [List.cons_append, List.cons_append, readLiteral_escaped] at h
          obtain ⟨r, hr, hout⟩ := Option.map_eq_some_iff.1 h
          have hout : out = d :: r.1 := (congrArg Prod.fst hout).symm
          subst hout
          rcases ih₁ hr with hplain | hshort | hmore
          · have hread := readLiteral_escape text rest
            rw [escape_plain hplain, hr] at hread
            have hr1 : r.1 = text := by simpa using congrArg (Option.map Prod.fst) hread
            exact .inr (.inl (by simp [hr1]))
          · exact .inr (.inl (by simp only [List.length_cons]; omega))
          · refine .inr (.inr ?_)
            simp only [List.count_cons]
            simp only [show ('\\' == '\'') = false by decide, Bool.false_eq_true, if_false]
            omega
        · have hc : special c = false := by simp [special, hquote, hback]
          rw [List.cons_append, readLiteral_plain hc] at h
          obtain ⟨r, hr, hout⟩ := Option.map_eq_some_iff.1 h
          have hout : out = c :: r.1 := (congrArg Prod.fst hout).symm
          subst hout
          rcases ih₂ d hr with hplain | hshort | hmore
          · exact .inl (by
              intro x hx
              rcases List.mem_cons.1 hx with rfl | hx
              · exact hc
              · exact hplain x hx)
          · exact .inr (.inl (by simp only [List.length_cons] at hshort ⊢; omega))
          · refine .inr (.inr ?_)
            have hne : ¬ c = '\'' := hquote
            simpa [List.count_cons, hne] using hmore

lemma readLiteral_raw_iff (text rest : List Char) :
    (∃ rest', readLiteral (text ++ '\'' :: rest) = some (text, rest')) ↔ Plain text := by
  constructor
  · rintro ⟨rest', h⟩
    rcases readLiteral_raw h with hplain | hshort | hmore
    · exact hplain
    · omega
    · omega
  · intro h
    have hread := readLiteral_escape text rest
    rw [escape_plain h] at hread
    exact ⟨rest, hread⟩

end

section

inductive Field where
  | text (value : List Char)
  | bare (word : List Char)
  | call (name arguments : List Char)
deriving DecidableEq

def separator (c : Char) : Bool := c = ',' || c = '(' || c = ')' || c = ' ' || c = '\''

variable (text : List Char)

def skipBlanks : List Char := text.dropWhile (· = ' ')

def readWord : Option (Field × List Char) :=
  let word := text.takeWhile fun c => !separator c
  match text.drop word.length with
  | '(' :: rest =>
    let arguments := rest.takeWhile (· ≠ ')')
    match rest.drop arguments.length with
    | ')' :: rest => some (.call word arguments, rest)
    | _ => none
  | rest => if word = [] then none else some (.bare word, rest)

def readField : Option (Field × List Char) :=
  match skipBlanks text with
  | '\'' :: rest => (readLiteral rest).map fun r => (.text r.1, r.2)
  | rest => readWord rest

def readFields : ℕ → List Char → Option (List Field × List Char)
  | 0, _ => none
  | fuel + 1, text => do
    let (field, rest) ← readField text
    match skipBlanks rest with
    | ',' :: rest => do
      let (fields, rest) ← readFields fuel rest
      return (field :: fields, rest)
    | ')' :: rest => return ([field], rest)
    | _ => none

def readTuples : ℕ → List Char → Option (List (List Field))
  | 0, _ => none
  | fuel + 1, text =>
    match skipBlanks text with
    | '(' :: rest => do
      let (fields, rest) ← readFields rest.length rest
      match rest with
      | [] => return [fields]
      | ',' :: rest => do
        let tuples ← readTuples fuel rest
        return fields :: tuples
      | _ => none
    | _ => none

def readColumns : List (List Char) := (text.splitOn ',').map skipBlanks

def readInsert (table : List Char) (text : List Char) : Option (List (List Char) × List (List Field)) := do
  let head := "INSERT INTO ".toList ++ table ++ " (".toList
  if head.isPrefixOf text then
    let rest := text.drop head.length
    let columns := rest.takeWhile (· ≠ ')')
    let rest := rest.drop columns.length
    let values := ") VALUES ".toList
    if values.isPrefixOf rest then
      let tuples ← readTuples text.length (rest.drop values.length)
      return (readColumns columns, tuples)
    else none
  else none

end

section

def Follows (rest : List Char) : Prop := ∃ c tail, rest = c :: tail ∧ (c = ',' ∨ c = ')' ∨ c = ' ')

variable (text : List Char)

def Prints (field : Field) : Prop :=
  ∀ rest, Follows rest → readField (text ++ rest) = some (field, rest)

lemma skipBlanks_cons {c : Char} (h : c ≠ ' ') (text : List Char) : skipBlanks (c :: text) = c :: text := by
  simp [skipBlanks, h]

lemma skipBlanks_blank : skipBlanks (' ' :: text) = skipBlanks text := by
  simp [skipBlanks]

lemma Prints.blank {text : List Char} {field : Field} (h : Prints text field) : Prints (' ' :: text) field := by
  intro rest hrest
  have hread := h rest hrest
  unfold readField at hread ⊢
  rwa [List.cons_append, skipBlanks_blank]

lemma prints_literal : Prints ('\'' :: escape text ++ ['\'']) (.text text) := by
  intro rest _
  have hread := readLiteral_escape text rest
  unfold readField
  rw [List.append_assoc, List.cons_append, skipBlanks_cons (by decide), List.singleton_append]
  simp only
  rw [hread]
  rfl

lemma takeWhile_word {word rest : List Char} (hword : ∀ c ∈ word, separator c = false)
    (hrest : ∃ c tail, rest = c :: tail ∧ separator c = true) : (word ++ rest).takeWhile (fun c => !separator c) = word := by
  obtain ⟨c, tail, rfl, hc⟩ := hrest
  exact Spans.takeWhile_run (by simpa using hword) (Spans.ends_cons (by simp [hc]) tail)

lemma Follows.separator {rest : List Char} (h : Follows rest) : ∃ c tail, rest = c :: tail ∧ separator c = true := by
  obtain ⟨c, tail, rfl, hc⟩ := h
  exact ⟨c, tail, rfl, by rcases hc with rfl | rfl | rfl <;> decide⟩

lemma not_quote_of_word {word : List Char} (hne : word ≠ []) (hword : ∀ c ∈ word, separator c = false) (rest : List Char) :
    ∃ c tail, word ++ rest = c :: tail ∧ c ≠ ' ' ∧ c ≠ '\'' := by
  obtain ⟨c, word, rfl⟩ := List.exists_cons_of_ne_nil hne
  have hc : separator c = false := hword c List.mem_cons_self
  refine ⟨c, word ++ rest, rfl, ?_, ?_⟩
  · rintro rfl
    exact absurd hc (by decide)
  · rintro rfl
    exact absurd hc (by decide)

lemma readField_word {word : List Char} (hne : word ≠ []) (hword : ∀ c ∈ word, separator c = false) (rest : List Char) :
    readField (word ++ rest) = readWord (word ++ rest) := by
  obtain ⟨c, tail, htext, hblank, hquote⟩ := not_quote_of_word hne hword rest
  unfold readField
  rw [htext, skipBlanks_cons hblank]
  split
  · rename_i heq
    cases heq
    exact absurd rfl hquote
  · rfl

lemma prints_bare {word : List Char} (hne : word ≠ []) (hword : ∀ c ∈ word, separator c = false) :
    Prints word (.bare word) := by
  intro rest hrest
  rw [readField_word hne hword]
  unfold readWord
  rw [takeWhile_word hword hrest.separator]
  simp only [List.drop_left]
  obtain ⟨c, tail, rfl, hc⟩ := hrest
  split
  · rename_i heq
    cases heq
    simp at hc
  · simp [hne]

lemma prints_call {name arguments : List Char} (hne : name ≠ []) (hname : ∀ c ∈ name, separator c = false)
    (harguments : ∀ c ∈ arguments, c ≠ ')') : Prints (name ++ '(' :: arguments ++ [')']) (.call name arguments) := by
  intro rest _
  have htext : name ++ '(' :: arguments ++ [')'] ++ rest = name ++ '(' :: (arguments ++ ')' :: rest) := by simp
  rw [htext, readField_word hne hname]
  unfold readWord
  rw [takeWhile_word hname ⟨'(', _, rfl, by decide⟩]
  have htake : (arguments ++ ')' :: rest).takeWhile (· ≠ ')') = arguments := by
    rw [List.takeWhile_append_of_pos (by simpa using harguments)]
    simp
  simp only [List.drop_left]
  rw [htake]
  simp

def Cell (field : Field) : Prop :=
  ∀ c rest, c = ',' ∨ c = ')' → ∃ rest', readField (text ++ c :: rest) = some (field, rest') ∧ skipBlanks rest' = c :: rest

lemma skipBlanks_end {c : Char} (h : c = ',' ∨ c = ')') (rest : List Char) : skipBlanks (c :: rest) = c :: rest := by
  apply skipBlanks_cons
  rcases h with rfl | rfl <;> decide

lemma Prints.cell {text : List Char} {field : Field} (h : Prints text field) : Cell text field := by
  intro c rest hc
  refine ⟨c :: rest, h _ ⟨c, rest, rfl, ?_⟩, skipBlanks_end hc rest⟩
  rcases hc with hc | hc
  · exact .inl hc
  · exact .inr (.inl hc)

lemma Prints.cell_blank {text : List Char} {field : Field} (h : Prints text field) : Cell (text ++ [' ']) field := by
  intro c rest hc
  refine ⟨' ' :: c :: rest, ?_, ?_⟩
  · rw [List.append_assoc, List.singleton_append]
    exact h _ ⟨' ', c :: rest, rfl, .inr (.inr rfl)⟩
  · rw [skipBlanks_blank, skipBlanks_end hc]

lemma readFields_comma {text : List Char} {field : Field} (h : Cell text field) (fuel : ℕ) (rest : List Char) :
    readFields (fuel + 1) (text ++ ',' :: rest) = (readFields fuel rest).map fun r => (field :: r.1, r.2) := by
  obtain ⟨rest', hread, hskip⟩ := h ',' rest (.inl rfl)
  simp only [readFields, hread, Option.bind_eq_bind, Option.bind_some, hskip]
  cases readFields fuel rest <;> rfl

lemma readFields_close {text : List Char} {field : Field} (h : Cell text field) (fuel : ℕ) (rest : List Char) :
    readFields (fuel + 1) (text ++ ')' :: rest) = some ([field], rest) := by
  obtain ⟨rest', hread, hskip⟩ := h ')' rest (.inr rfl)
  simp only [readFields, hread, Option.bind_eq_bind, Option.bind_some, hskip]
  rfl

def withCommas (cells : List (List Char × Field)) (tail : List Char) : List Char :=
  cells.foldr (fun cell text => cell.1 ++ ',' :: text) tail

lemma length_withCommas (cells : List (List Char × Field)) (tail : List Char) :
    cells.length + tail.length ≤ (withCommas cells tail).length := by
  induction cells with
  | nil => simp [withCommas]
  | cons cell cells ih =>
      simp only [withCommas, List.foldr_cons, List.length_append, List.length_cons] at ih ⊢
      omega

lemma readFields_withCommas {cells : List (List Char × Field)} (h : ∀ cell ∈ cells, Cell cell.1 cell.2) (fuel : ℕ)
    (tail : List Char) :
    readFields (fuel + cells.length) (withCommas cells tail) =
      (readFields fuel tail).map fun r => (cells.map Prod.snd ++ r.1, r.2) := by
  induction cells with
  | nil => simp [withCommas]
  | cons cell cells ih =>
      have htail := ih fun c hc => h c (List.mem_cons_of_mem cell hc)
      have hstep := readFields_comma (h cell List.mem_cons_self) (fuel + cells.length) (withCommas cells tail)
      rw [htail] at hstep
      have htext : withCommas (cell :: cells) tail = cell.1 ++ ',' :: withCommas cells tail := rfl
      rw [htext, List.length_cons, show fuel + (cells.length + 1) = fuel + cells.length + 1 by omega, hstep,
        Option.map_map]
      rfl

end

end Glaber.Lib.SqlValues
