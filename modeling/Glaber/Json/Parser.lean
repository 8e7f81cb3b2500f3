import Glaber.Json.Tree

/-! The validator of JSON texts (`json_parser.c`). A position is the text from there on. Along with it the functions
give the tree they walk over. -/

namespace Glaber.Json

section

def whitespace : List Char := [' ', '\t', '\r', '\n']

def skipWhitespace (p : List Char) : List Char := p.dropWhile (· ∈ whitespace)

def parseStringLoop : ℕ → List Char → Option (List Char)
  | 0, _ => none
  | _ + 1, [] => none
  | _ + 1, '"' :: p => some p
  | fuel + 1, '\\' :: 'u' :: p => do
    let (_, p) ← decodeCharacter ('u' :: p)
    parseStringLoop fuel p
  | fuel + 1, '\\' :: p =>
    match p with
    | [] => none
    | c :: p => if c ∈ escapeLetters then parseStringLoop fuel p else none
  | fuel + 1, c :: p => if c.toNat ≤ 0x1f then none else parseStringLoop fuel p

def parseString (start : List Char) : Option (List Char × List Char) := do
  let rest ← parseStringLoop start.length start.tail
  let (text, _) ← copyString start (start.length - rest.length - 1)
  return (text, rest)

def numberScan : Bool → ℕ → List Char → ℕ × List Char
  | _, digit, [] => (digit, [])
  | point, digit, c :: p =>
    if c = '.' then if point then (digit, c :: p) else numberScan true digit p
    else if c.isDigit then numberScan point (if point then digit else digit + 1) p
    else (digit, c :: p)

def parseExponent : List Char → Option (List Char)
  | [] => some []
  | c :: p =>
    if c = 'e' ∨ c = 'E' then
      let p := match p with
        | '+' :: p => p
        | '-' :: p => p
        | p => p
      match p with
      | [] => none
      | d :: p => if d.isDigit then some (p.dropWhile Char.isDigit) else none
    else some (c :: p)

def parseNumber (start : List Char) : Option (List Char × List Char) := do
  let ptr := match start with
    | '-' :: p => p
    | p => p
  let (digit, p) := numberScan false 0 ptr
  if digit = 0 then none
  else if ptr.head? = some '0' ∧ 1 < digit then none
  else
    let rest ← parseExponent p
    return (start.take (start.length - rest.length), rest)

def parseLiteral (text : List Char) (p : List Char) : Option (List Char × List Char) :=
  if text.isPrefixOf p then some (text, p.drop text.length) else none

mutual

def parseValue : ℕ → List Char → Option (Tree × List Char)
  | 0, _ => none
  | fuel + 1, start =>
    let p := skipWhitespace start
    match p with
    | [] => none
    | c :: rest =>
      if c = '"' then (parseString p).map fun r => (.str r.1, r.2)
      else if c = '\x7b' then
        match skipWhitespace rest with
        | '\x7d' :: rest => some (.node true [], rest)
        | rest => (parseMembers fuel rest).map fun r => (.node true r.1, r.2)
      else if c = '[' then
        match skipWhitespace rest with
        | ']' :: rest => some (.node false [], rest)
        | rest => (parseItems fuel rest).map fun r => (.node false r.1, r.2)
      else if c = 't' then (parseLiteral "true".toList p).map fun r => (.literal r.1, r.2)
      else if c = 'f' then (parseLiteral "false".toList p).map fun r => (.literal r.1, r.2)
      else if c = 'n' then (parseLiteral "null".toList p).map fun r => (.literal r.1, r.2)
      else if c.isDigit ∨ c = '-' then (parseNumber p).map fun r => (.literal r.1, r.2)
      else none

def parseItems : ℕ → List Char → Option (List (List Char × Tree) × List Char)
  | 0, _ => none
  | fuel + 1, p => do
    let (value, p) ← parseValue fuel p
    match skipWhitespace p with
    | ',' :: p => do
      let (items, p) ← parseItems fuel p
      return (([], value) :: items, p)
    | ']' :: p => return ([([], value)], p)
    | _ => none

def parseMembers : ℕ → List Char → Option (List (List Char × Tree) × List Char)
  | 0, _ => none
  | fuel + 1, p =>
    if p.head? = some '"' then do
      let (name, p) ← parseString p
      match skipWhitespace p with
      | ':' :: p => do
        let (value, p) ← parseValue fuel p
        match skipWhitespace p with
        | ',' :: p => do
          let (members, p) ← parseMembers fuel (skipWhitespace p)
          return ((name, value) :: members, p)
        | '\x7d' :: p => return ([(name, value)], p)
        | _ => none
      | _ => none
    else none

end

def jsonValidate (start : List Char) : Option (Tree × List Char) :=
  let start := skipWhitespace start
  match start with
  | [] => none
  | c :: _ =>
    if c = '\x7b' ∨ c = '[' then do
      let (tree, rest) ← parseValue (2 * start.length + 2) start
      if skipWhitespace rest = [] then return (tree, rest) else none
    else none

end

section

lemma parseStringLoop_plain {fuel : ℕ} {c : Char} {p : List Char} (hquote : c ≠ '"') (hback : c ≠ '\\')
    (hc : 0x1f < c.toNat) : parseStringLoop (fuel + 1) (c :: p) = parseStringLoop fuel p := by
  have hno : ¬ c.toNat ≤ 0x1f := by omega
  rw [parseStringLoop]
  · rw [if_neg hno]
  · exact hquote
  · exact fun _ h _ => absurd h hback
  · exact hback

lemma parseStringLoop_escaped {fuel : ℕ} {e p bytes : List Char}
    (hdecode : ∀ p, decodeCharacter (e ++ p) = some (bytes, p))
    (he : (∃ digits, e = 'u' :: digits) ∨ ∃ x ∈ escapeLetters, e = [x]) :
    parseStringLoop (fuel + 1) ('\\' :: (e ++ p)) = parseStringLoop fuel p := by
  obtain ⟨digits, rfl⟩ | ⟨x, hx, rfl⟩ := he
  · have hd := hdecode p
    rw [List.cons_append] at hd ⊢
    rw [parseStringLoop, hd]
    rfl
  · have hu : x ≠ 'u' := by
      rintro rfl
      exact absurd hx (by decide)
    rw [List.singleton_append, parseStringLoop]
    · simp [hx]
    · intro q hq
      simp only [List.cons.injEq] at hq
      exact hu hq.1

lemma parseStringLoop_escape {fuel : ℕ} (text rest : List Char) (hfuel : text.length < fuel) :
    parseStringLoop fuel (escape text ++ '"' :: rest) = some rest := by
  induction text generalizing fuel with
  | nil =>
      obtain ⟨fuel, rfl⟩ := Nat.exists_eq_add_one_of_ne_zero (Nat.ne_of_gt hfuel)
      simp [escape, parseStringLoop]
  | cons c text ih =>
      obtain ⟨fuel, rfl⟩ := Nat.exists_eq_add_one_of_ne_zero (Nat.ne_of_gt (Nat.zero_lt_of_lt hfuel))
      have hnext : parseStringLoop fuel (escape text ++ '"' :: rest) = some rest := ih (by simpa using hfuel)
      have hcons : escape (c :: text) = escapeChar c ++ escape text := rfl
      rcases escapeChar_cases c with ⟨hc, hquote, hback, hcontrol⟩ | ⟨e, he, hdecode, hletters⟩
      · rw [hcons, hc, List.singleton_append, List.cons_append, parseStringLoop_plain hquote hback hcontrol, hnext]
      · rw [hcons, he, List.cons_append, List.cons_append, List.append_assoc, parseStringLoop_escaped hdecode hletters,
          hnext]

lemma parseString_quoted (text rest : List Char) : parseString (quoted text ++ rest) = some (text, rest) := by
  have htext : quoted text ++ rest = '"' :: (escape text ++ '"' :: rest) := by simp [quoted]
  have hlen := length_le_escape text
  have hloop : parseStringLoop (quoted text ++ rest).length (escape text ++ '"' :: rest) = some rest :=
    parseStringLoop_escape text rest (by simp [quoted]; omega)
  have hsize : (quoted text ++ rest).length - rest.length - 1 = (escape text).length + 1 := by
    simp [quoted]
    omega
  unfold parseString
  rw [htext] at hloop hsize ⊢
  rw [List.tail_cons, hloop]
  simp only [Option.bind_eq_bind, Option.bind_some, hsize]
  rw [copyString_quoted rest (by omega)]
  rfl

end

section

def Ends (rest : List Char) : Prop := rest = [] ∨ ∃ c tail, rest = c :: tail ∧ (c = ',' ∨ c = ']' ∨ c = '\x7d')

lemma numberScan_digits {digits : List Char} (h : ∀ c ∈ digits, c.isDigit = true) (point : Bool) (digit : ℕ) (p : List Char) :
    numberScan point digit (digits ++ p) = numberScan point (if point then digit else digit + digits.length) p := by
  induction digits generalizing digit with
  | nil => simp
  | cons c digits ih =>
      have hc : c.isDigit = true := h c List.mem_cons_self
      have hpoint : ¬ c = '.' := by
        rintro rfl
        exact absurd hc (by decide)
      rw [List.cons_append, numberScan, if_neg hpoint, if_pos hc, ih fun x hx => h x (List.mem_cons_of_mem c hx)]
      cases point
      · simp [Nat.add_comm, Nat.add_left_comm]
      · rfl

def Stops (p : List Char) : Prop := p = [] ∨ ∃ c tail, p = c :: tail ∧ c ≠ '.' ∧ c.isDigit = false

lemma numberScan_stops {p : List Char} (h : Stops p) (point : Bool) (digit : ℕ) : numberScan point digit p = (digit, p) := by
  rcases h with rfl | ⟨c, tail, rfl, hpoint, hdigit⟩
  · rfl
  · simp [numberScan, hpoint, hdigit]

def Breaks (rest : List Char) : Prop := ∀ c ∈ rest.head?, c ∈ ',' :: ']' :: '\x7d' :: whitespace

lemma Ends.breaks {rest : List Char} (h : Ends rest) : Breaks rest := by
  rcases h with rfl | ⟨c, tail, rfl, hc⟩
  · intro c hc
    simp at hc
  · intro d hd
    obtain rfl : c = d := by simpa using hd
    rcases hc with rfl | rfl | rfl <;> decide

lemma Breaks.cases {rest : List Char} (h : Breaks rest) : rest = [] ∨ ∃ c tail, rest = c :: tail ∧
    c ≠ '.' ∧ c.isDigit = false ∧ c ≠ 'e' ∧ c ≠ 'E' := by
  have hplain : ∀ c ∈ ',' :: ']' :: '\x7d' :: whitespace, c ≠ '.' ∧ c.isDigit = false ∧ c ≠ 'e' ∧ c ≠ 'E' := by decide
  cases rest with
  | nil => exact .inl rfl
  | cons c tail => exact .inr ⟨c, tail, rfl, hplain c (h c rfl)⟩

lemma Breaks.stops {rest : List Char} (h : Breaks rest) : Stops rest := by
  rcases h.cases with rfl | ⟨c, tail, rfl, hpoint, hdigit, -⟩
  · exact .inl rfl
  · exact .inr ⟨c, tail, rfl, hpoint, hdigit⟩

def Exponent (exponent : List Char) : Prop :=
  exponent = [] ∨ ∃ e sign digits, exponent = e :: (sign ++ digits) ∧ (e = 'e' ∨ e = 'E') ∧
    (sign = [] ∨ sign = ['+'] ∨ sign = ['-']) ∧ digits ≠ [] ∧ ∀ c ∈ digits, c.isDigit = true

lemma Exponent.stops {exponent rest : List Char} (h : Exponent exponent) (hrest : Breaks rest) : Stops (exponent ++ rest) := by
  rcases h with rfl | ⟨e, sign, digits, rfl, he, -⟩
  · exact hrest.stops
  · refine .inr ⟨e, sign ++ digits ++ rest, by simp, ?_, ?_⟩
    · rcases he with rfl | rfl <;> decide
    · rcases he with rfl | rfl <;> decide

lemma dropWhile_digits {digits rest : List Char} (h : ∀ c ∈ digits, c.isDigit = true) (hrest : Breaks rest) :
    (digits ++ rest).dropWhile Char.isDigit = rest := by
  rw [List.dropWhile_append_of_pos h]
  rcases hrest.stops with rfl | ⟨c, tail, rfl, -, hdigit⟩
  · rfl
  · simp [hdigit]

lemma parseExponent_exponent {exponent rest : List Char} (h : Exponent exponent) (hrest : Breaks rest) :
    parseExponent (exponent ++ rest) = some rest := by
  rcases h with rfl | ⟨e, sign, digits, rfl, he, hsign, hne, hdigits⟩
  · rcases hrest.cases with rfl | ⟨c, tail, rfl, -, -, hlower, hupper⟩
    · rfl
    · simp [parseExponent, hlower, hupper]
  · obtain ⟨d, digits, rfl⟩ := List.exists_cons_of_ne_nil hne
    have hd : d.isDigit = true := hdigits d List.mem_cons_self
    have hdrop := dropWhile_digits (fun c hc => hdigits c (List.mem_cons_of_mem d hc)) hrest
    have hplus : d ≠ '+' := by
      rintro rfl
      exact absurd hd (by decide)
    have hminus : d ≠ '-' := by
      rintro rfl
      exact absurd hd (by decide)
    have hmark : e = 'e' ∨ e = 'E' := he
    rcases hsign with rfl | rfl | rfl
    · simp [parseExponent, hmark, hplus, hminus, hd, hdrop]
    · simp [parseExponent, hmark, hd, hdrop]
    · simp [parseExponent, hmark, hd, hdrop]

def Fraction (fraction : List Char) : Prop :=
  fraction = [] ∨ ∃ digits, fraction = '.' :: digits ∧ ∀ c ∈ digits, c.isDigit = true

lemma numberScan_fraction {fraction p : List Char} (h : Fraction fraction) (hp : Stops p) (digit : ℕ) :
    numberScan false digit (fraction ++ p) = (digit, p) := by
  rcases h with rfl | ⟨digits, rfl, hdigits⟩
  · exact numberScan_stops hp false digit
  · rw [List.cons_append, numberScan, if_pos rfl]
    simp only [Bool.false_eq_true, if_false]
    rw [numberScan_digits hdigits, if_pos rfl, numberScan_stops hp]

lemma take_token (token rest : List Char) : (token ++ rest).take ((token ++ rest).length - rest.length) = token := by
  simp

lemma parseNumber_token {token rest : List Char} (h : NumberToken token) (hrest : Breaks rest) :
    parseNumber (token ++ rest) = some (token, rest) := by
  obtain ⟨sign, whole, fraction, exponent, htoken, hsign, ⟨hne, hwhole, hzero⟩, hfraction, hexponent⟩ := h.parts
  have htail : Stops (exponent ++ rest) := Exponent.stops hexponent hrest
  have hscan : numberScan false 0 (whole ++ (fraction ++ (exponent ++ rest))) = (whole.length, exponent ++ rest) := by
    rw [numberScan_digits hwhole, if_neg (by decide), numberScan_fraction hfraction htail, Nat.zero_add]
  have hpos : whole.length ≠ 0 := by simpa using hne
  obtain ⟨d, ds, hd⟩ := List.exists_cons_of_ne_nil hne
  have hdigit : d.isDigit = true := hwhole d (by simp [hd])
  have hminus : d ≠ '-' := by
    rintro rfl
    exact absurd hdigit (by decide)
  have hlead : ¬ ((whole ++ (fraction ++ (exponent ++ rest))).head? = some '0' ∧ 1 < whole.length) := by
    rintro ⟨hhead, hlen⟩
    have hhead' : whole.head? = some '0' := by simpa [hd] using hhead
    rw [hzero hhead'] at hlen
    simp at hlen
  have hptr : (match token ++ rest with
      | '-' :: p => p
      | p => p) = whole ++ (fraction ++ (exponent ++ rest)) := by
    rcases hsign with rfl | rfl
    · rw [htoken]
      simp [hd, hminus]
    · rw [htoken]
      simp
  unfold parseNumber
  simp only [hptr, hscan, if_neg hpos, if_neg hlead, parseExponent_exponent hexponent hrest, take_token,
    Option.bind_eq_bind, Option.bind_some]
  rfl

end

section

lemma skipWhitespace_cons {c : Char} (h : c ∉ whitespace) (p : List Char) : skipWhitespace (c :: p) = c :: p := by
  simp [skipWhitespace, h]

lemma isDigit_not_mem {c : Char} (h : c.isDigit = true) {cs : List Char} (hcs : ∀ x ∈ cs, x.isDigit = false) : c ∉ cs := by
  intro hc
  have := hcs c hc
  simp_all

lemma parseValue_str (fuel : ℕ) (text rest : List Char) :
    parseValue (fuel + 1) (quoted text ++ rest) = some (.str text, rest) := by
  have hparse := parseString_quoted text rest
  have htext : quoted text ++ rest = '"' :: (escape text ++ ['"'] ++ rest) := by simp [quoted]
  rw [parseValue]
  rw [htext] at hparse ⊢
  simp only [skipWhitespace_cons (show '"' ∉ whitespace by decide), if_true, hparse, Option.map_some]

lemma parseLiteral_append (text rest : List Char) : parseLiteral text (text ++ rest) = some (text, rest) := by
  simp [parseLiteral]

lemma parseValue_literal (fuel : ℕ) {token rest : List Char} (h : LiteralToken token) (hrest : Breaks rest) :
    parseValue (fuel + 1) (token ++ rest) = some (.literal token, rest) := by
  rcases h with hnumber | rfl | rfl | rfl
  · have hparse := parseNumber_token hnumber hrest
    obtain ⟨sign, whole, fraction, exponent, htoken, hsign, ⟨hne, hwhole, -⟩, -⟩ := hnumber.parts
    have hhead : ∃ c tail, token ++ rest = c :: tail ∧ (c.isDigit = true ∨ c = '-') := by
      rcases hsign with rfl | rfl
      · obtain ⟨d, ds, rfl⟩ := List.exists_cons_of_ne_nil hne
        exact ⟨d, ds ++ fraction ++ exponent ++ rest, by simp [htoken], .inl (hwhole d List.mem_cons_self)⟩
      · exact ⟨'-', whole ++ fraction ++ exponent ++ rest, by simp [htoken], .inr rfl⟩
    obtain ⟨c, tail, hcons, hc⟩ := hhead
    rw [hcons] at hparse ⊢
    have hnot : c ∉ whitespace ∧ c ≠ '"' ∧ c ≠ '\x7b' ∧ c ≠ '[' ∧ c ≠ 't' ∧ c ≠ 'f' ∧ c ≠ 'n' := by
      rcases hc with hc | rfl
      · refine ⟨isDigit_not_mem hc (by decide), ?_, ?_, ?_, ?_, ?_, ?_⟩ <;> rintro rfl <;> exact absurd hc (by decide)
      · decide
    obtain ⟨hblank, h1, h2, h3, h4, h5, h6⟩ := hnot
    rw [parseValue]
    simp only [skipWhitespace_cons hblank, if_neg h1, if_neg h2, if_neg h3, if_neg h4, if_neg h5, if_neg h6, if_pos hc,
      hparse, Option.map_some]
  · have hparse := parseLiteral_append "true".toList rest
    rw [parseValue]
    exact congrArg (Option.map fun r => (Tree.literal r.1, r.2)) hparse
  · have hparse := parseLiteral_append "false".toList rest
    rw [parseValue]
    exact congrArg (Option.map fun r => (Tree.literal r.1, r.2)) hparse
  · have hparse := parseLiteral_append "null".toList rest
    rw [parseValue]
    exact congrArg (Option.map fun r => (Tree.literal r.1, r.2)) hparse

def Reads (tree : Tree) : Prop :=
  ∀ fuel rest, weight tree ≤ fuel → Ends rest → parseValue fuel (render tree ++ rest) = some (tree, rest)

lemma render_head {tree : Tree} (h : WellFormed tree) :
    ∃ c tail, render tree = c :: tail ∧ c ∉ whitespace ∧ c ≠ ']' := by
  cases tree with
  | str text => exact ⟨'"', _, rfl, by decide, by decide⟩
  | literal token =>
      obtain ⟨c, tail, rfl, hc⟩ := LiteralToken.head h
      refine ⟨c, tail, rfl, ?_, ?_⟩
      · rcases hc with hc | rfl | rfl | rfl | rfl
        · exact isDigit_not_mem hc (by decide)
        all_goals decide
      · rcases hc with hc | rfl | rfl | rfl | rfl
        · rintro rfl
          exact absurd hc (by decide)
        all_goals decide
  | node object members =>
      refine ⟨openBracket object, _, rfl, ?_, ?_⟩
      · cases object <;> decide
      · cases object <;> decide

lemma parseItems_render {items : List (List Char × Tree)} {name : List Char} {value : Tree} {fuel : ℕ} (rest : List Char)
    (hreads : ∀ item ∈ (name, value) :: items, Reads item.2) (hnames : MembersWellFormed false ((name, value) :: items))
    (hfuel : membersWeight ((name, value) :: items) ≤ fuel) :
    parseItems fuel (renderMembers false ((name, value) :: items) ++ ']' :: rest) = some ((name, value) :: items, rest) := by
  induction items generalizing name value fuel with
  | nil =>
      simp only [membersWeight] at hfuel
      obtain ⟨fuel, rfl⟩ : ∃ n, fuel = n + 1 := ⟨fuel - 1, by omega⟩
      have hvalue := hreads (name, value) List.mem_cons_self fuel (']' :: rest) (by dsimp only; omega)
        (.inr ⟨']', rest, rfl, by simp⟩)
      have hname : name = [] := hnames.1 rfl
      rw [parseItems]
      simp only [renderMembers, renderTail, label, Bool.false_eq_true, if_false, List.nil_append, List.append_nil] at hvalue ⊢
      rw [hvalue]
      simp [skipWhitespace, whitespace, hname]
  | cons item items ih =>
      obtain ⟨name', value'⟩ := item
      simp only [membersWeight] at hfuel
      obtain ⟨fuel, rfl⟩ : ∃ n, fuel = n + 1 := ⟨fuel - 1, by omega⟩
      have hmore : parseItems fuel (renderMembers false ((name', value') :: items) ++ ']' :: rest) =
          some ((name', value') :: items, rest) :=
        ih (fun i hi => hreads i (List.mem_cons_of_mem _ hi)) hnames.2.2 (by simp only [membersWeight]; omega)
      have hvalue := hreads (name, value) List.mem_cons_self fuel
        (',' :: (renderMembers false ((name', value') :: items) ++ ']' :: rest)) (by dsimp only; omega)
        (.inr ⟨',', _, rfl, by simp⟩)
      have hname : name = [] := hnames.1 rfl
      have htext : renderMembers false ((name, value) :: (name', value') :: items) ++ ']' :: rest =
          render value ++ (',' :: (renderMembers false ((name', value') :: items) ++ ']' :: rest)) := by
        simp [renderMembers, renderTail, label]
      rw [parseItems, htext, hvalue]
      simp only [Option.bind_eq_bind, Option.bind_some, skipWhitespace_cons (show ',' ∉ whitespace by decide), hmore]
      simp [hname]

lemma head_label (name p : List Char) : (label true name ++ p).head? = some '"' := by
  simp [label, quoted]

lemma parse_pair (name : List Char) {value : Tree} {fuel : ℕ} {rest : List Char} (hreads : Reads value)
    (hfuel : weight value ≤ fuel) (hrest : Ends rest) :
    parseString (label true name ++ (render value ++ rest)) = some (name, ':' :: (render value ++ rest)) ∧
      parseValue fuel (render value ++ rest) = some (value, rest) := by
  refine ⟨?_, hreads fuel rest hfuel hrest⟩
  have htext : label true name ++ (render value ++ rest) = quoted name ++ (':' :: (render value ++ rest)) := by
    simp [label]
  rw [htext]
  exact parseString_quoted name _

lemma parseMembers_render {members : List (List Char × Tree)} {name : List Char} {value : Tree} {fuel : ℕ} (rest : List Char)
    (hreads : ∀ member ∈ (name, value) :: members, Reads member.2)
    (hfuel : membersWeight ((name, value) :: members) ≤ fuel) :
    parseMembers fuel (renderMembers true ((name, value) :: members) ++ '\x7d' :: rest) =
      some ((name, value) :: members, rest) := by
  induction members generalizing name value fuel with
  | nil =>
      simp only [membersWeight] at hfuel
      obtain ⟨fuel, rfl⟩ : ∃ n, fuel = n + 1 := ⟨fuel - 1, by omega⟩
      have hends : Ends ('\x7d' :: rest) := .inr ⟨'\x7d', rest, rfl, by simp⟩
      have hread : Reads value := hreads (name, value) List.mem_cons_self
      obtain ⟨hname, hvalue⟩ := parse_pair name hread (show weight value ≤ fuel by omega) hends
      have htext : renderMembers true [(name, value)] ++ '\x7d' :: rest =
          label true name ++ (render value ++ '\x7d' :: rest) := by
        simp [renderMembers, renderTail]
      rw [parseMembers, htext, if_pos (head_label _ _), hname]
      simp only [Option.bind_eq_bind, Option.bind_some, skipWhitespace_cons (show ':' ∉ whitespace by decide), hvalue,
        skipWhitespace_cons (show '\x7d' ∉ whitespace by decide)]
      rfl
  | cons member members ih =>
      obtain ⟨name', value'⟩ := member
      simp only [membersWeight] at hfuel
      obtain ⟨fuel, rfl⟩ : ∃ n, fuel = n + 1 := ⟨fuel - 1, by omega⟩
      have hmore : parseMembers fuel (renderMembers true ((name', value') :: members) ++ '\x7d' :: rest) =
          some ((name', value') :: members, rest) :=
        ih (fun m hm => hreads m (List.mem_cons_of_mem _ hm)) (by simp only [membersWeight]; omega)
      have hends : Ends (',' :: (renderMembers true ((name', value') :: members) ++ '\x7d' :: rest)) :=
        .inr ⟨',', _, rfl, by simp⟩
      have hread : Reads value := hreads (name, value) List.mem_cons_self
      obtain ⟨hname, hvalue⟩ := parse_pair name hread (show weight value ≤ fuel by omega) hends
      have htext : renderMembers true ((name, value) :: (name', value') :: members) ++ '\x7d' :: rest =
          label true name ++ (render value ++ (',' :: (renderMembers true ((name', value') :: members) ++ '\x7d' :: rest))) := by
        simp [renderMembers, renderTail]
      have hquote : skipWhitespace (renderMembers true ((name', value') :: members) ++ '\x7d' :: rest) =
          renderMembers true ((name', value') :: members) ++ '\x7d' :: rest := by
        simp only [renderMembers, label, quoted, if_true, List.cons_append]
        exact skipWhitespace_cons (by decide) _
      rw [parseMembers, htext, if_pos (head_label _ _), hname]
      simp only [Option.bind_eq_bind, Option.bind_some, skipWhitespace_cons (show ':' ∉ whitespace by decide), hvalue,
        skipWhitespace_cons (show ',' ∉ whitespace by decide), hquote, hmore]
      rfl

lemma parseValue_node {object : Bool} {members : List (List Char × Tree)} (hwf : MembersWellFormed object members)
    (hreads : ∀ member ∈ members, Reads member.2) : Reads (.node object members) := by
  intro fuel rest hfuel hrest
  simp only [weight] at hfuel
  obtain ⟨fuel, rfl⟩ : ∃ n, fuel = n + 1 := ⟨fuel - 1, by omega⟩
  have hblank : openBracket object ∉ whitespace := by cases object <;> decide
  rw [parseValue]
  simp only [render, List.cons_append, skipWhitespace_cons hblank, List.append_assoc, List.nil_append]
  cases members with
  | nil => cases object <;> simp [renderMembers, openBracket, closeBracket, skipWhitespace, whitespace]
  | cons member members =>
      obtain ⟨name, value⟩ := member
      cases object with
      | false =>
          have hitems : parseItems fuel (renderMembers false ((name, value) :: members) ++ ']' :: rest) =
              some ((name, value) :: members, rest) := parseItems_render rest hreads hwf (by omega)
          obtain ⟨c, tail, hhead, hc, hclose⟩ := render_head hwf.2.1
          obtain ⟨q, hstart⟩ : ∃ q, renderMembers false ((name, value) :: members) ++ ']' :: rest = c :: q :=
            ⟨tail ++ renderTail false members ++ ']' :: rest, by simp [renderMembers, label, hhead]⟩
          simp only [openBracket, closeBracket, Bool.false_eq_true, if_false]
          rw [hstart] at hitems ⊢
          rw [skipWhitespace_cons hc]
          simp [hclose, hitems]
      | true =>
          have hmembers : parseMembers fuel (renderMembers true ((name, value) :: members) ++ '\x7d' :: rest) =
              some ((name, value) :: members, rest) := parseMembers_render rest hreads (by omega)
          obtain ⟨q, hstart⟩ : ∃ q, renderMembers true ((name, value) :: members) ++ '\x7d' :: rest = '"' :: q := by
            simp only [renderMembers, label, quoted, if_true, List.cons_append]
            exact ⟨_, rfl⟩
          simp only [openBracket, closeBracket, if_true]
          rw [hstart] at hmembers ⊢
          rw [skipWhitespace_cons (by decide)]
          simp [hmembers]

lemma reads_render {tree : Tree} (h : WellFormed tree) : Reads tree := by
  induction tree using Tree.induct with
  | str text =>
      intro fuel rest hfuel _
      simp only [weight] at hfuel
      obtain ⟨fuel, rfl⟩ : ∃ n, fuel = n + 1 := ⟨fuel - 1, by omega⟩
      exact parseValue_str fuel text rest
  | literal token =>
      intro fuel rest hfuel hrest
      simp only [weight] at hfuel
      obtain ⟨fuel, rfl⟩ : ∃ n, fuel = n + 1 := ⟨fuel - 1, by omega⟩
      exact parseValue_literal fuel h hrest.breaks
  | node object members ih =>
      have hmembers : ∀ ms : List (List Char × Tree), (∀ m ∈ ms, m ∈ members) → MembersWellFormed object ms →
          ∀ m ∈ ms, Reads m.2 := by
        intro ms hsub hwf
        induction ms with
        | nil => simp
        | cons m ms ihms =>
            intro x hx
            rcases List.mem_cons.1 hx with rfl | hx
            · exact ih x (hsub x List.mem_cons_self) hwf.2.1
            · exact ihms (fun y hy => hsub y (List.mem_cons_of_mem m hy)) hwf.2.2 x hx
      exact parseValue_node h (hmembers members (fun _ hm => hm) h)

lemma jsonValidate_render {object : Bool} {members : List (List Char × Tree)} (h : WellFormed (.node object members)) :
    jsonValidate (render (.node object members)) = some (.node object members, []) := by
  have hread := reads_render h (2 * (render (.node object members)).length + 2) []
    ((weight_le _ h).trans (by omega)) (.inl rfl)
  rw [List.append_nil] at hread
  have hblank : openBracket object ∉ whitespace := by cases object <;> decide
  have hopen : openBracket object = '\x7b' ∨ openBracket object = '[' := by cases object <;> decide
  have hskip : skipWhitespace (render (.node object members)) = render (.node object members) :=
    skipWhitespace_cons hblank _
  unfold jsonValidate
  rw [hskip, render]
  rw [render] at hread
  simp only [if_pos hopen, hread, Option.bind_eq_bind, Option.bind_some]
  rfl

end

end Glaber.Json
