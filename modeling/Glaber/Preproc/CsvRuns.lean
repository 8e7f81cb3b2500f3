import Glaber.Preproc.Csv

namespace Glaber.Preproc

open Json Str Lib.Results

section

def Csv.Follows (s s' : Csv) : Prop := s'.buf.length = s.buf.length ∧ s.data ≤ s'.data

variable {s s' s'' : Csv} {params : CsvParams} {header : Bool}

lemma Csv.Follows.refl (s : Csv) : s.Follows s := ⟨rfl, le_rfl⟩

lemma Csv.Follows.trans (h : s.Follows s') (h' : s'.Follows s'') : s.Follows s'' := ⟨h'.1.trans h.1, h.2.trans h'.2⟩

lemma Csv.put_follows (s : Csv) (offset : ℕ) : s.Follows (s.put offset) := ⟨List.length_set, le_rfl⟩

lemma Csv.addField_follows (h : s.addField header = .ok s') : s.Follows s' := by
  obtain ⟨⟨json, names⟩, -, hadded⟩ := ok_of_bind h
  obtain rfl := Except.ok.inj hadded
  exact .refl s

lemma Csv.addFields_follows {fuel : ℕ} (h : s.addFields header fuel = .ok s') : s.Follows s' := by
  induction fuel generalizing s with
  | zero =>
    obtain rfl := Except.ok.inj h
    exact .refl s
  | succ fuel ih =>
    obtain ⟨added, hadd, hrest⟩ := ok_of_bind h
    split_ifs at hrest
    · exact (addField_follows hadd).trans (ih hrest)
    · obtain rfl := Except.ok.inj hrest
      exact addField_follows hadd

lemma Csv.endRow_follows (h : s.endRow header = .ok s') : s.Follows s' := by
  unfold endRow at h
  split_ifs at h
  · obtain ⟨added, hadd, hrest⟩ := ok_of_bind h
    have hfollows := (s.put_follows s.data).trans (addFields_follows hadd)
    obtain rfl := Except.ok.inj hrest
    exact hfollows
  · obtain rfl := Except.ok.inj h
    exact .refl s

lemma Csv.carriageReturn_follows (h : s.carriageReturn = .ok s') : s.Follows s' := by
  unfold carriageReturn at h
  dsimp only at h
  split_ifs at h
  · obtain rfl := Except.ok.inj h
    exact ⟨List.length_set, Nat.le_succ _⟩
  · obtain rfl := Except.ok.inj h
    exact .refl s

lemma Csv.plain_follows {step : ℕ} (h : s.plain params step = .ok s') : s.Follows s' := by
  obtain ⟨s₁, hreturn, h⟩ := ok_of_bind h
  apply (carriageReturn_follows hreturn).trans
  split_ifs at h
  · exact endRow_follows h
  · obtain ⟨added, hadd, hrest⟩ := ok_of_bind h
    have hfollows := (s₁.put_follows s₁.data).trans (addField_follows hadd)
    obtain rfl := Except.ok.inj hrest
    exact hfollows
  · obtain rfl := Except.ok.inj h
    exact .refl s₁
  · obtain rfl := Except.ok.inj h
    exact .refl s₁
  · obtain rfl := Except.ok.inj h
    exact .refl s₁

lemma Csv.closing_follows {charSz : ℕ} (h : s.closing params charSz = .ok s') : s.Follows s' := by
  unfold closing at h
  dsimp only at h
  split_ifs at h
  · obtain rfl := Except.ok.inj h
    exact .refl s
  · obtain rfl := Except.ok.inj h
    exact ⟨List.length_set, Nat.le_add_right _ _⟩
  · split at h
    · obtain rfl := Except.ok.inj h
      exact ⟨List.length_set, le_rfl⟩
    · obtain rfl := Except.ok.inj h
      exact ⟨List.length_set, le_rfl⟩

lemma Csv.quoted_follows {step : ℕ} (h : s.quoted params step = .ok s') : s.Follows s' := by
  unfold quoted at h
  split_ifs at h
  · exact closing_follows h
  · obtain rfl := Except.ok.inj h
    exact .refl s

lemma Csv.character_follows {step : ℕ} (h : s.character params step = .ok s') : s.Follows s' := by
  unfold character at h
  split_ifs at h
  · exact quoted_follows h
  · exact plain_follows h

lemma Csv.step_advances (h : s.step params = .ok s') : s'.buf.length = s.buf.length ∧ s.data < s'.data := by
  unfold step at h
  dsimp only at h
  split_ifs at h with hzero
  obtain ⟨s₁, hstep, hrest⟩ := ok_of_bind h
  obtain rfl := Except.ok.inj hrest
  have hfollows := character_follows hstep
  exact ⟨hfollows.1, hfollows.2.trans_lt (Nat.lt_add_of_pos_right (Nat.pos_of_ne_zero hzero))⟩

def Csv.run (params : CsvParams) (s : Csv) : Except CsvError Csv := Csv.loop params (s.buf.length + 1 - s.data) s

lemma Csv.run_step (hin : s.data ≤ s.buf.length) : Csv.run params s = s.step params >>= Csv.run params := by
  apply whileLoop_step (fun s : Csv => s.buf.length + 1 - s.data) _ _ hin
  · intro s hin
    omega
  · intro s s' hin hstep
    obtain ⟨hlength, hless⟩ := step_advances hstep
    omega

lemma Csv.run_end (hout : s.buf.length < s.data) : Csv.run params s = .ok s := whileLoop_end (by omega) _

lemma Csv.loop_eq_run {fuel : ℕ} (h : s.buf.length + 1 - s.data ≤ fuel) : Csv.loop params fuel s = Csv.run params s := by
  apply whileLoop_eq (fun s : Csv => s.buf.length + 1 - s.data) _ _ h le_rfl
  · intro s hin
    omega
  · intro s s' hin hstep
    obtain ⟨hlength, hless⟩ := step_advances hstep
    omega

end

section

variable {s : Csv} {c delim quote : Char} {offset : ℕ} {rest : List Char} {header : Bool}

def charParams (delim quote : Char) (header : Bool) : CsvParams := ⟨encodeChar delim, encodeChar quote, header⟩

lemma length_encodeChar_pos (c : Char) : 0 < (encodeChar c).length := List.length_pos_of_ne_nil (letter_encodeChar c).ne_nil

lemma Csv.isAt_eq (h : s.buf.drop offset = encodeChar c ++ rest) (e : Char) :
    s.isAt offset (encodeChar c).length (encodeChar e) = decide (c = e) := by
  rw [isAt, h]
  by_cases hce : c = e
  · subst hce
    simp
  · rw [decide_eq_false hce, Bool.and_eq_false_iff, decide_eq_false_iff_not, decide_eq_false_iff_not]
    by_contra hno
    obtain ⟨hlength, htake⟩ := not_or.1 hno
    rw [not_not] at hlength htake
    rw [← hlength, List.take_left] at htake
    exact hce (encodeChar_injective htake)

lemma Csv.isAt_end (h : s.buf.drop offset = []) (sz : ℕ) (e : Char) : s.isAt offset sz (encodeChar e) = false := by
  rw [isAt, h, List.take_nil, Bool.and_eq_false_iff, decide_eq_false_iff_not, decide_eq_false_iff_not]
  exact .inr (letter_encodeChar e).ne_nil.symm

lemma byte_eq_iff {buf : List Char} (h : buf.drop offset = encodeChar c ++ rest) {a : Char} (ha : a.toNat < 128) :
    buf.getD offset '\x00' = a ↔ c = a := by
  have hhead := head_encodeChar_ascii ha rest (c := c)
  rw [← h, List.head?_drop] at hhead
  rw [← hhead, List.getD_eq_getElem?_getD]
  constructor
  · intro hbyte
    have hin : offset < buf.length := by
      by_contra hout
      rw [List.drop_eq_nil_of_le (not_lt.1 hout)] at h
      exact (letter_encodeChar c).ne_nil (List.append_eq_nil_iff.1 h.symm).1
    rw [List.getElem?_eq_getElem hin] at hbyte ⊢
    exact congrArg some hbyte
  · intro hbyte
    rw [hbyte]
    rfl

lemma byte_end {buf : List Char} (h : buf.drop offset = []) : buf.getD offset '\x00' = '\x00' := by
  rw [List.getD_eq_getElem?_getD, ← List.head?_drop, h]
  rfl

lemma Csv.step_eq (params : CsvParams) (h : s.buf.drop s.data = encodeChar c ++ rest) : s.step params =
    s.character params (encodeChar c).length >>= fun s' => .ok { s' with data := s'.data + (encodeChar c).length } := by
  have hlength : utf8CharLen (s.buf.drop s.data) = (encodeChar c).length := by rw [h, utf8CharLen_encodeChar]
  rw [step, hlength]
  exact if_neg (Nat.ne_of_gt (length_encodeChar_pos c))

lemma Csv.step_end (params : CsvParams) (h : s.buf.drop s.data = []) : s.step params =
    s.character params 1 >>= fun s' => .ok { s' with data := s'.data + 1 } := by
  have hlength : utf8CharLen (s.buf.drop s.data) = 1 := by rw [h]; rfl
  rw [step, hlength]
  rfl

end

section

variable {s : Csv} {c delim quote : Char} {rest : List Char} {header : Bool}

lemma Csv.quoted_char (hstate : s.state = .fieldQuoted) (h : s.buf.drop s.data = encodeChar c ++ rest) (hc : c ≠ quote) :
    s.step (charParams delim quote header) =
      .ok { s with field := some (s.field.getD (.data s.data)), data := s.data + (encodeChar c).length } := by
  have hat : s.isAt s.data (encodeChar c).length (encodeChar quote) = false := by
    rw [isAt_eq h, decide_eq_false hc]
  rw [step_eq _ h, character, if_pos hstate, quoted, charParams, hat]
  rfl

lemma Csv.quoted_quote (hstate : s.state = .fieldQuoted) (h : s.buf.drop s.data = encodeChar quote ++ rest) :
    s.step (charParams delim quote header) = s.closing (charParams delim quote header) (utf8CharLen rest) >>=
      fun s' => .ok { s' with data := s'.data + (encodeChar quote).length } := by
  have hat : s.isAt s.data (encodeChar quote).length (encodeChar quote) = true := by
    rw [isAt_eq h, decide_eq_true rfl]
  have hnext : s.buf.drop (s.data + (encodeChar quote).length) = rest := by rw [← List.drop_drop, h, List.drop_left]
  rw [step_eq _ h, character, if_pos hstate, quoted, charParams, if_pos hat, hnext]

lemma Csv.quoted_double (hstate : s.state = .fieldQuoted) (h : s.buf.drop s.data = encodeChar quote ++ (encodeChar quote ++ rest)) :
    s.step (charParams delim quote header) = .ok { s with
      buf := s.buf.set (s.data + (encodeChar quote).length) '\x00'
      fieldEsc := some (s.fieldEsc.getD [] ++
        (({ s with field := some (s.field.getD (.data s.data)) } : Csv).put (s.data + (encodeChar quote).length)).fieldText.getD [])
      field := none
      data := s.data + (encodeChar quote).length + (encodeChar quote).length } := by
  have hnext : s.buf.drop (s.data + (encodeChar quote).length) = encodeChar quote ++ rest := by
    rw [← List.drop_drop, h, List.drop_left]
  have hagain : s.isAt (s.data + (encodeChar quote).length) (encodeChar quote).length (encodeChar quote) = true := by
    rw [isAt_eq hnext, decide_eq_true rfl]
  rw [quoted_quote hstate h, utf8CharLen_encodeChar, closing, charParams]
  dsimp only
  rw [if_neg (Nat.ne_of_gt (length_encodeChar_pos quote)), if_pos hagain]
  rfl

def Ends (delim : Char) (tail : List Char) : Prop :=
  tail = [] ∨ ∃ d rest, tail = encodeChar d ++ rest ∧ (d = '\n' ∨ d = delim)

def Csv.closed (s : Csv) (width : ℕ) : Csv :=
  let put := { s with state := .field }.put s.data
  match s.fieldEsc with
  | none => { put with data := s.data + width }
  | some esc => { put with fieldEsc := some (esc ++ put.fieldText.getD []), field := some .esc, data := s.data + width }

lemma Csv.closed_state (s : Csv) (width : ℕ) : (s.closed width).state = .field := by
  rw [closed]
  cases s.fieldEsc <;> rfl

lemma Csv.closed_buf (s : Csv) (width : ℕ) : (s.closed width).buf = s.buf.set s.data '\x00' := by
  rw [closed]
  cases s.fieldEsc <;> rfl

lemma Csv.closed_data (s : Csv) (width : ℕ) : (s.closed width).data = s.data + width := by
  rw [closed]
  cases s.fieldEsc <;> rfl

lemma Csv.closing_closed {params : CsvParams} {charSz : ℕ} (hsz : charSz ≠ 0)
    (hno : s.isAt (s.data + params.quote.length) charSz params.quote = false)
    (hend : s.buf.getD (s.data + params.quote.length) '\x00' ∈ ['\r', '\n', '\x00'] ∨
      s.isAt (s.data + params.quote.length) charSz params.delim = true) (width : ℕ) :
    (s.closing params charSz >>= fun s' => .ok { s' with data := s'.data + width }) = .ok (s.closed width) := by
  rw [closing, closed]
  dsimp only
  rw [if_neg hsz, if_neg (by rw [hno]; simp), if_pos hend]
  cases s.fieldEsc with
  | none => rfl
  | some esc => rfl

lemma Csv.quoted_close (hstate : s.state = .fieldQuoted) {tail : List Char} (h : s.buf.drop s.data = encodeChar quote ++ tail)
    (htail : Ends delim tail) (hdelim : delim ≠ quote) (hline : quote ≠ '\n') :
    s.step (charParams delim quote header) = .ok (s.closed (encodeChar quote).length) := by
  have hnext : s.buf.drop (s.data + (encodeChar quote).length) = tail := by rw [← List.drop_drop, h, List.drop_left]
  rw [quoted_quote hstate h]
  rcases htail with rfl | ⟨d, rest, rfl, hd⟩
  · apply closing_closed
    · decide
    · exact isAt_end hnext _ _
    · left
      rw [charParams, byte_end hnext]
      simp
  · rw [utf8CharLen_encodeChar]
    apply closing_closed
    · exact Nat.ne_of_gt (length_encodeChar_pos d)
    · rw [charParams, isAt_eq hnext, decide_eq_false]
      rcases hd with rfl | rfl
      · exact hline.symm
      · exact hdelim
    · rcases hd with rfl | rfl
      · left
        rw [charParams, (byte_eq_iff hnext (by decide)).2 rfl]
        simp
      · right
        rw [charParams, isAt_eq hnext, decide_eq_true rfl]

end

section

variable {s : Csv} {c delim quote : Char} {text rest tail : List Char} {header : Bool}

def Separate (c : Char) : Prop := c ≠ '\r' ∧ c ≠ '\n' ∧ c ≠ '\x00'

lemma Csv.plain_eq (params : CsvParams) (step : ℕ) (h : s.buf.drop s.data = encodeChar c ++ rest) (hc : Separate c) :
    s.plain params step =
      if s.isAt s.data step params.delim then
        (s.put s.data).addField params.header >>= fun s' => .ok { s' with state := .delim }
      else if s.state = .delim ∧ s.isAt s.data step params.quote then .ok { s with state := .fieldQuoted }
      else if s.state ≠ .field then .ok { s with field := some (.data s.data), state := .field }
      else .ok s := by
  have hchar : ∀ {a : Char}, a.toNat < 128 → c ≠ a → s.char ≠ a := fun ha hne hbyte => hne ((byte_eq_iff h ha).1 hbyte)
  have hreturn : s.carriageReturn = .ok s := if_neg (hchar (by decide) hc.1)
  rw [plain, hreturn]
  exact if_neg (not_or.2 ⟨hchar (by decide) hc.2.1, hchar (by decide) hc.2.2⟩)

lemma Csv.opening (hstate : s.state = .delim) (h : s.buf.drop s.data = encodeChar quote ++ rest) (hquote : Separate quote)
    (hne : delim ≠ quote) : s.step (charParams delim quote header) =
      .ok { s with state := .fieldQuoted, data := s.data + (encodeChar quote).length } := by
  have hdelim : s.isAt s.data (encodeChar quote).length (charParams delim quote header).delim = false := by
    rw [charParams, isAt_eq h, decide_eq_false hne.symm]
  have hat : s.isAt s.data (encodeChar quote).length (charParams delim quote header).quote = true := by
    rw [charParams, isAt_eq h, decide_eq_true rfl]
  rw [step_eq _ h, character, if_neg (by rw [hstate]; decide), plain_eq _ _ h hquote, hdelim, if_neg Bool.false_ne_true,
    if_pos ⟨hstate, hat⟩]
  rfl

lemma Csv.delimiting (hstate : s.state ≠ .fieldQuoted) (h : s.buf.drop s.data = encodeChar delim ++ rest)
    (hdelim : Separate delim) :
    s.step (charParams delim quote header) = (s.put s.data).addField header >>=
      fun s' => .ok { s' with state := .delim, data := s'.data + (encodeChar delim).length } := by
  have hat : s.isAt s.data (encodeChar delim).length (charParams delim quote header).delim = true := by
    rw [charParams, isAt_eq h, decide_eq_true rfl]
  rw [step_eq _ h, character, if_neg hstate, plain_eq _ _ h hdelim, if_pos hat]
  have hheader : (charParams delim quote header).header = header := rfl
  rw [hheader]
  cases (s.put s.data).addField header with
  | error e => rfl
  | ok added => rfl

lemma Csv.ending (params : CsvParams) (hstate : s.state ≠ .fieldQuoted)
    (h : s.buf.drop s.data = [] ∨ s.buf.drop s.data = '\n' :: rest) :
    s.step params = s.endRow params.header >>= fun s' => .ok { s' with data := s'.data + 1 } := by
  have hbyte : s.char = '\n' ∨ s.char = '\x00' := by
    rcases h with h | h
    · exact .inr (byte_end h)
    · exact .inl ((byte_eq_iff (c := '\n') h (by decide)).2 rfl)
  have hreturn : s.carriageReturn = .ok s := by
    apply if_neg
    rcases hbyte with hchar | hchar <;> rw [hchar] <;> decide
  have hplain (step : ℕ) : s.plain params step = s.endRow params.header := by
    rw [plain, hreturn]
    exact if_pos hbyte
  rcases h with h | h
  · rw [step_end _ h, character, if_neg hstate, hplain]
  · rw [step_eq (c := '\n') _ h, character, if_neg hstate, hplain]
    rfl

lemma cString_append_nul {seg : List Char} (h : '\x00' ∉ seg) (rest : List Char) : cString (seg ++ '\x00' :: rest) = seg := by
  have hall : ∀ c ∈ seg, decide (c ≠ '\x00') = true := by
    intro c hc
    exact decide_eq_true fun hnul => h (hnul ▸ hc)
  rw [cString, List.takeWhile_append_of_pos hall]
  simp

lemma set_length_append (before rest : List Char) (c a : Char) :
    (before ++ c :: rest).set before.length a = before ++ a :: rest := by
  rw [List.set_append_right _ _ le_rfl, Nat.sub_self, List.set_cons_zero]

structure Csv.Reading (s : Csv) (text rest : List Char) : Prop where
  state : s.state = .fieldQuoted
  parts : ∃ front seg, s.buf = (front ++ seg) ++ rest ∧ s.data = (front ++ seg).length ∧ '\x00' ∉ seg ∧
    s.fieldEsc.getD [] ++ seg = text ∧ (s.field = some (.data front.length) ∨ s.field = none ∧ seg = [])

structure Csv.Closed (s : Csv) (text rest : List Char) : Prop where
  state : s.state = .field
  rest : s.buf.drop s.data = rest
  inside : s.data ≤ s.buf.length
  text : (s.put s.data).fieldText.getD [] = text

def Csv.SameRows (s s' : Csv) : Prop :=
  s'.fldNum = s.fldNum ∧ s'.fldNumMax = s.fldNumMax ∧ s'.names = s.names ∧ s'.json = s.json

lemma Csv.Reading.drop (h : s.Reading text rest) : s.buf.drop s.data = rest := by
  obtain ⟨front, seg, hbuf, hdata, -⟩ := h.parts
  rw [hbuf, hdata, List.drop_left]

lemma Csv.Reading.inside (h : s.Reading text rest) : s.data ≤ s.buf.length := by
  obtain ⟨front, seg, hbuf, hdata, -⟩ := h.parts
  simp only [hbuf, hdata, List.length_append]
  omega

variable (delim header) in
lemma Csv.Reading.char (h : s.Reading text (encodeChar c ++ rest)) (hc : c ≠ quote) (hnul : c ≠ '\x00') :
    ∃ s' : Csv, s.step (charParams delim quote header) = .ok s' ∧ s'.Reading (text ++ encodeChar c) rest ∧ s.SameRows s' := by
  obtain ⟨front, seg, hbuf, hdata, hseg, htext, hfield⟩ := h.parts
  refine ⟨_, quoted_char h.state h.drop hc, ⟨h.state, front, seg ++ encodeChar c, ?_, ?_, ?_, ?_, .inl ?_⟩, rfl, rfl, rfl, rfl⟩
  · simp [hbuf]
  · simp [hdata, Nat.add_assoc]
  · rw [List.mem_append, not_or]
    exact ⟨hseg, ascii_not_mem_encodeChar (by decide) hnul⟩
  · rw [← htext, List.append_assoc]
  · rcases hfield with hfield | ⟨hfield, rfl⟩
    · simp [hfield]
    · simp [hfield, hdata]

variable (delim header) in
lemma Csv.Reading.double (h : s.Reading text (encodeChar quote ++ (encodeChar quote ++ rest))) (hnul : quote ≠ '\x00') :
    ∃ s' : Csv, s.step (charParams delim quote header) = .ok s' ∧ s'.Reading (text ++ encodeChar quote) rest ∧ s.SameRows s' := by
  obtain ⟨front, seg, hbuf, hdata, hseg, htext, hfield⟩ := h.parts
  obtain ⟨b, t, hquote, -⟩ := letter_encodeChar quote
  have hsegQuote : '\x00' ∉ seg ++ encodeChar quote := by
    rw [List.mem_append, not_or]
    exact ⟨hseg, ascii_not_mem_encodeChar (by decide) hnul⟩
  have hset : s.buf.set (s.data + (encodeChar quote).length) '\x00' =
      front ++ ((seg ++ encodeChar quote) ++ '\x00' :: (t ++ rest)) := by
    have hlength : s.data + (encodeChar quote).length = (front ++ seg ++ encodeChar quote).length := by
      rw [hdata, ← List.length_append]
    have hsplit : s.buf = (front ++ seg ++ encodeChar quote) ++ b :: (t ++ rest) := by
      rw [hbuf, ← List.cons_append, ← hquote]
      simp
    rw [hlength, hsplit, set_length_append]
    simp
  have hoffset : s.field.getD (.data s.data) = .data front.length := by
    rcases hfield with hfield | ⟨hfield, rfl⟩
    · rw [hfield, Option.getD_some]
    · rw [hfield, Option.getD_none, hdata, List.append_nil]
  refine ⟨_, quoted_double h.state h.drop, ⟨h.state, front ++ ((seg ++ encodeChar quote) ++ '\x00' :: t), [], ?_, ?_, ?_, ?_,
    .inr ⟨rfl, rfl⟩⟩, rfl, rfl, rfl, rfl⟩
  · simp [hset]
  · have hlength := congrArg List.length hquote
    simp only [List.length_cons] at hlength
    simp only [hdata, List.length_append, List.length_cons, List.append_nil]
    omega
  · exact List.not_mem_nil
  · have hfieldText : (({ s with field := some (s.field.getD (.data s.data)) } : Csv).put
        (s.data + (encodeChar quote).length)).fieldText = some (seg ++ encodeChar quote) := by
      rw [fieldText, put, hoffset]
      rw [Option.map_some]
      dsimp only
      rw [hset, List.drop_left, cString_append_nul hsegQuote]
    rw [hfieldText, ← htext]
    simp

variable (header) in
lemma Csv.Reading.close (h : s.Reading text (encodeChar quote ++ tail)) (htail : Ends delim tail) (hne : delim ≠ quote)
    (hline : quote ≠ '\n') :
    ∃ s' : Csv, s.step (charParams delim quote header) = .ok s' ∧ s'.Closed text tail ∧ s.SameRows s' := by
  obtain ⟨front, seg, hbuf, hdata, hseg, htext, hfield⟩ := h.parts
  obtain ⟨b, t, hquote, -⟩ := letter_encodeChar quote
  have hlengthQuote : (encodeChar quote).length = t.length + 1 := by rw [hquote, List.length_cons]
  have hset : s.buf.set s.data '\x00' = front ++ (seg ++ '\x00' :: (t ++ tail)) := by
    rw [hbuf, hdata, hquote, List.cons_append, set_length_append, List.append_assoc]
  have hdrop : (s.buf.set s.data '\x00').drop (s.data + (encodeChar quote).length) = tail := by
    have hsplit : front ++ (seg ++ '\x00' :: (t ++ tail)) = (front ++ seg ++ '\x00' :: t) ++ tail := by simp
    have hlength : s.data + (encodeChar quote).length = (front ++ seg ++ '\x00' :: t).length := by
      simp only [hdata, hlengthQuote, List.length_append, List.length_cons]
    rw [hset, hsplit, hlength, List.drop_left]
  -- the NUL that ends the field at the delimiter or the line end stands behind the one of the quote
  have hread : ∀ buf : List Char, buf = (s.buf.set s.data '\x00').set (s.data + (encodeChar quote).length) '\x00' →
      cString (buf.drop front.length) = seg := by
    rintro buf rfl
    have hbehind : ∃ k, s.data + (encodeChar quote).length = front.length + (seg.length + (k + 1)) :=
      ⟨t.length, by rw [hdata, hlengthQuote, List.length_append]; omega⟩
    obtain ⟨k, hk⟩ := hbehind
    rw [hset, hk, List.set_append_right _ _ (Nat.le_add_right _ _), Nat.add_sub_cancel_left, List.drop_left,
      List.set_append_right _ _ (Nat.le_add_right _ _), Nat.add_sub_cancel_left, List.set_cons_succ, cString_append_nul hseg]
  refine ⟨_, quoted_close h.state h.drop htail hne hline, ⟨s.closed_state _, ?_, ?_, ?_⟩, ?_⟩
  · rw [closed_buf, closed_data, hdrop]
  · rw [closed_buf, closed_data, hset]
    simp only [hdata, hlengthQuote, List.length_append, List.length_cons]
    omega
  · rw [fieldText, put, closed_buf, closed_data, closed]
    cases hesc : s.fieldEsc with
    | none =>
      rw [hesc] at htext
      rcases hfield with hfield | ⟨hfield, rfl⟩
      · dsimp only [put]
        rw [hfield, Option.map_some, Option.getD_some]
        dsimp only
        rw [hread _ rfl]
        exact htext
      · dsimp only [put]
        rw [hfield]
        exact htext
    | some esc =>
      rw [hesc] at htext
      rw [Option.map_some]
      dsimp only [put, fieldText]
      rw [Option.getD_some, Option.getD_some, ← htext]
      rcases hfield with hfield | ⟨hfield, rfl⟩
      · rw [hfield, Option.map_some, Option.getD_some]
        dsimp only
        rw [hset, List.drop_left, cString_append_nul hseg]
        rfl
      · rw [hfield]
        rfl
  · rw [closed]
    cases s.fieldEsc with
    | none => exact ⟨rfl, rfl, rfl, rfl⟩
    | some esc => exact ⟨rfl, rfl, rfl, rfl⟩

lemma Csv.run_of_step {params : CsvParams} {s' : Csv} (hin : s.data ≤ s.buf.length) (h : s.step params = .ok s') :
    Csv.run params s = Csv.run params s' := by
  rw [run_step hin, h]
  rfl

lemma Csv.SameRows.trans {s' s'' : Csv} (h : s.SameRows s') (h' : s'.SameRows s'') : s.SameRows s'' :=
  ⟨h'.1.trans h.1, h'.2.1.trans h.2.1, h'.2.2.1.trans h.2.2.1, h'.2.2.2.trans h.2.2.2⟩

def doubled (quote : Char) (field : List Char) : List Char := field.flatMap fun c => if c = quote then [quote, quote] else [c]

def csvQuoted (quote : Char) (field : List Char) : List Char := quote :: (doubled quote field ++ [quote])

variable (header) in
lemma Csv.Reading.field {field : List Char} (h : s.Reading text (encode (doubled quote field ++ [quote]) ++ tail))
    (hnul : '\x00' ∉ field) (htail : Ends delim tail) (hne : delim ≠ quote) (hquote : Separate quote) :
    ∃ s' : Csv, Csv.run (charParams delim quote header) s = Csv.run (charParams delim quote header) s' ∧
      s'.Closed (text ++ encode field) tail ∧ s.SameRows s' := by
  induction field generalizing s text with
  | nil =>
    have hrest : encode (doubled quote [] ++ [quote]) ++ tail = encodeChar quote ++ tail := by
      simp [doubled, encode]
    rw [hrest] at h
    obtain ⟨s', hstep, hclosed, hrows⟩ := h.close header htail hne hquote.2.1
    refine ⟨s', run_of_step h.inside hstep, ?_, hrows⟩
    simpa [encode] using hclosed
  | cons c field ih =>
    obtain ⟨hc, hfield⟩ := not_or.1 (List.mem_cons.not.1 hnul)
    have htext : text ++ encode (c :: field) = text ++ encodeChar c ++ encode field := by
      rw [encode_cons, List.append_assoc]
    rw [htext]
    by_cases hcq : c = quote
    · subst hcq
      have hrest : encode (doubled c (c :: field) ++ [c]) ++ tail =
          encodeChar c ++ (encodeChar c ++ (encode (doubled c field ++ [c]) ++ tail)) := by
        simp [doubled, encode]
      rw [hrest] at h
      obtain ⟨s', hstep, hreading, hrows⟩ := h.double delim header hquote.2.2
      obtain ⟨s'', hrun, hclosed, hrows'⟩ := ih hreading hfield
      exact ⟨s'', (run_of_step h.inside hstep).trans hrun, hclosed, hrows.trans hrows'⟩
    · have hrest : encode (doubled quote (c :: field) ++ [quote]) ++ tail =
          encodeChar c ++ (encode (doubled quote field ++ [quote]) ++ tail) := by
        simp [doubled, encode, hcq]
      rw [hrest] at h
      obtain ⟨s', hstep, hreading, hrows⟩ := h.char delim header hcq (Ne.symm hc)
      obtain ⟨s'', hrun, hclosed, hrows'⟩ := ih hreading hfield
      exact ⟨s'', (run_of_step h.inside hstep).trans hrun, hclosed, hrows.trans hrows'⟩

structure Csv.Start (s : Csv) (rest : List Char) : Prop where
  state : s.state = .delim
  rest : s.buf.drop s.data = rest
  inside : s.data ≤ s.buf.length
  field : s.field = none
  fieldEsc : s.fieldEsc = none

variable (header) in
lemma Csv.Start.quoted {field : List Char} (h : s.Start (encode (csvQuoted quote field) ++ tail)) (hnul : '\x00' ∉ field)
    (htail : Ends delim tail) (hne : delim ≠ quote) (hquote : Separate quote) :
    ∃ s' : Csv, Csv.run (charParams delim quote header) s = Csv.run (charParams delim quote header) s' ∧
      s'.Closed (encode field) tail ∧ s.SameRows s' := by
  have hdrop : s.buf.drop s.data = encodeChar quote ++ (encode (doubled quote field ++ [quote]) ++ tail) := by
    rw [h.rest, csvQuoted, encode_cons, List.append_assoc]
  have hlength : s.buf.take s.data ++ encodeChar quote ++ (encode (doubled quote field ++ [quote]) ++ tail) = s.buf := by
    rw [List.append_assoc, ← hdrop, List.take_append_drop]
  have hreading : ({ s with state := .fieldQuoted, data := s.data + (encodeChar quote).length } : Csv).Reading []
      (encode (doubled quote field ++ [quote]) ++ tail) := by
    refine ⟨rfl, s.buf.take s.data ++ encodeChar quote, [], ?_, ?_, List.not_mem_nil, ?_, .inr ⟨h.field, rfl⟩⟩
    · rw [List.append_nil]
      exact hlength.symm
    · simp [List.length_take, Nat.min_eq_left h.inside]
    · simp [h.fieldEsc]
  obtain ⟨s', hrun, hclosed, hrows⟩ := hreading.field header hnul htail hne hquote
  exact ⟨s', (run_of_step h.inside (opening h.state hdrop hquote hne)).trans hrun, hclosed, hrows⟩

end

section

variable {s : Csv} {delim quote : Char} {text rest tail : List Char} {header : Bool}

def addRow (header : Bool) (numMax : ℕ) : ℕ → List (List Char) → JsonBuffer × List (List Char) →
    Except CsvError (JsonBuffer × List (List Char))
  | _, [], rows => .ok rows
  | num, field :: fields, rows => csvAddField header rows.1 rows.2 (some field) num numMax >>= addRow header numMax (num + 1) fields

def missing (header : Bool) (numMax num : ℕ) : ℕ := if header then numMax - num else 0

lemma Csv.addFields_eq {fuel : ℕ} (hfuel : missing header s.fldNumMax (s.fldNum + 1) < fuel) : s.addFields header fuel =
    addRow header s.fldNumMax s.fldNum
      (s.fieldText.getD [] :: List.replicate (missing header s.fldNumMax (s.fldNum + 1)) []) (s.json, s.names) >>=
    fun rows => .ok { s with
      json := rows.1
      names := rows.2
      field := none
      fieldEsc := none
      fldNum := s.fldNum + 1 + missing header s.fldNumMax (s.fldNum + 1) } := by
  induction fuel generalizing s with
  | zero => omega
  | succ fuel ih =>
    have hadd : s.addField header = csvAddField header s.json s.names (some (s.fieldText.getD [])) s.fldNum s.fldNumMax >>=
        fun rows => .ok { s with json := rows.1, names := rows.2, field := none, fieldEsc := none, fldNum := s.fldNum + 1 } := by
      rfl
    rw [addFields, hadd, addRow]
    cases hrows : csvAddField header s.json s.names (some (s.fieldText.getD [])) s.fldNum s.fldNumMax with
    | error e => rfl
    | ok rows =>
      show (if s.fldNum + 1 < s.fldNumMax ∧ header = true then _ else _) = _
      by_cases hmore : s.fldNum + 1 < s.fldNumMax ∧ header = true
      · have hmissing : missing header s.fldNumMax (s.fldNum + 1) = missing header s.fldNumMax (s.fldNum + 1 + 1) + 1 := by
          rw [missing, missing, if_pos hmore.2, if_pos hmore.2]
          omega
        rw [if_pos hmore, hmissing, ih (by simp only; omega), List.replicate_succ]
        simp only [Nat.add_assoc, Nat.add_comm 1]
        rfl
      · have hmissing : missing header s.fldNumMax (s.fldNum + 1) = 0 := by
          rw [missing]
          split_ifs with hheader
          · rw [not_and_or] at hmore
            simp only [hheader, not_true_eq_false, or_false] at hmore
            omega
          · rfl
        rw [if_neg hmore, hmissing]
        rfl

def Csv.outcome (params : CsvParams) (s : Csv) : Except CsvError (CsvState × JsonBuffer) :=
  (Csv.run params s).map fun t => (t.state, t.json)

def Csv.Passed (s : Csv) (tail : List Char) : Prop :=
  (tail = [] ∧ s.buf.length < s.data ∧ s.state = .delim) ∨ ∃ rest, tail = '\n' :: rest ∧ s.Start rest

lemma Csv.outcome_of_step {params : CsvParams} {step : Except CsvError (JsonBuffer × List (List Char))}
    {next : JsonBuffer × List (List Char) → Csv} {K : JsonBuffer × List (List Char) → Except CsvError (CsvState × JsonBuffer)}
    (hin : s.data ≤ s.buf.length) (h : s.step params = step >>= fun rows => .ok (next rows))
    (hK : ∀ rows, step = .ok rows → Csv.outcome params (next rows) = K rows) : Csv.outcome params s = step >>= K := by
  rw [outcome, run_step hin, h]
  cases step with
  | error e => rfl
  | ok rows => exact hK rows rfl

lemma Csv.Closed.delimited (h : s.Closed text (encodeChar delim ++ rest)) (hdelim : Separate delim)
    {K : JsonBuffer × List (List Char) → Except CsvError (CsvState × JsonBuffer)}
    (hK : ∀ t : Csv, t.Start rest → t.fldNum = s.fldNum + 1 → t.fldNumMax = s.fldNumMax →
      t.outcome (charParams delim quote header) = K (t.json, t.names)) :
    s.outcome (charParams delim quote header) =
      csvAddField header s.json s.names (some text) s.fldNum s.fldNumMax >>= K := by
  have hadd : (s.put s.data).addField header = csvAddField header s.json s.names (some text) s.fldNum s.fldNumMax >>=
      fun rows => .ok { s.put s.data with
        json := rows.1, names := rows.2, field := none, fieldEsc := none, fldNum := s.fldNum + 1 } := by
    rw [← h.text]
    rfl
  have hstep : s.step (charParams delim quote header) = csvAddField header s.json s.names (some text) s.fldNum s.fldNumMax >>=
      fun rows => .ok { s.put s.data with
        json := rows.1, names := rows.2, field := none, fieldEsc := none, fldNum := s.fldNum + 1
        state := .delim, data := s.data + (encodeChar delim).length } := by
    rw [delimiting (by rw [h.state]; decide) h.rest hdelim, hadd]
    cases csvAddField header s.json s.names (some text) s.fldNum s.fldNumMax with
    | error e => rfl
    | ok rows => rfl
  refine outcome_of_step h.inside hstep fun rows _ => hK _ ⟨rfl, ?_, ?_, rfl, rfl⟩ rfl rfl
  · show (s.buf.set s.data '\x00').drop (s.data + (encodeChar delim).length) = rest
    rw [List.drop_set_of_lt (Nat.lt_add_of_pos_right (length_encodeChar_pos delim)), ← List.drop_drop, h.rest, List.drop_left]
  · have hlength := congrArg List.length h.rest
    have hin := h.inside
    rw [List.length_drop, List.length_append] at hlength
    simp only [put, List.length_set]
    omega

lemma Csv.passed_of {t : Csv} (hrest : s.buf.drop s.data = tail) (hin : s.data ≤ s.buf.length)
    (htail : tail = [] ∨ ∃ rest, tail = '\n' :: rest) (hlength : t.buf.length = s.buf.length) (hdata : t.data = s.data + 1)
    (hstate : t.state = .delim) (hfield : t.field = none) (hesc : t.fieldEsc = none)
    (hdrop : t.buf.drop (s.data + 1) = s.buf.drop (s.data + 1)) : t.Passed tail := by
  rcases htail with rfl | ⟨rest, rfl⟩
  · have hend := List.drop_eq_nil_iff.1 hrest
    exact .inl ⟨rfl, by omega, hstate⟩
  · have hmore := congrArg List.length hrest
    rw [List.length_drop, List.length_cons] at hmore
    refine .inr ⟨rest, rfl, hstate, ?_, by omega, hfield, hesc⟩
    rw [hdata, hdrop, ← List.drop_drop, hrest]
    rfl

lemma Csv.outcome_endRow (params : CsvParams) (hstate : s.state ≠ .fieldQuoted)
    (hrest : s.buf.drop s.data = tail) (hin : s.data ≤ s.buf.length) (htail : tail = [] ∨ ∃ rest, tail = '\n' :: rest)
    (hfields : s.state = .field ∨ params.header = true ∨ s.fldNum ≠ 0) (htext : (s.put s.data).fieldText.getD [] = text)
    {K : JsonBuffer × List (List Char) → Except CsvError (CsvState × JsonBuffer)}
    (hK : ∀ t : Csv, t.Passed tail → t.fldNum = 0 →
      t.fldNumMax = max s.fldNumMax (s.fldNum + 1 + missing params.header s.fldNumMax (s.fldNum + 1)) →
      t.outcome params = K (t.json, t.names)) :
    s.outcome params =
      addRow params.header s.fldNumMax s.fldNum
        (text :: List.replicate (missing params.header s.fldNumMax (s.fldNum + 1)) []) (s.json, s.names) >>=
      fun rows => K (rows.1.run .close, rows.2) := by
  have hadd : (s.put s.data).addFields params.header (s.fldNumMax + 1) = _ := addFields_eq (s := s.put s.data) (by
    simp only [missing, put]
    split_ifs <;> omega)
  have hend : s.buf.drop s.data = [] ∨ s.buf.drop s.data = '\n' :: tail.tail := by
    rcases htail with rfl | ⟨rest, rfl⟩
    · exact .inl hrest
    · exact .inr hrest
  rw [htext] at hadd
  have hrow : s.endRow params.header = (s.put s.data).addFields params.header (s.fldNumMax + 1) >>=
      fun t => .ok { t with
        fldNumMax := max t.fldNumMax t.fldNum, fldNum := 0, json := t.json.run .close, state := .delim } := if_pos hfields
  have hstep : s.step params =
      addRow params.header s.fldNumMax s.fldNum
        (text :: List.replicate (missing params.header s.fldNumMax (s.fldNum + 1)) []) (s.json, s.names) >>=
      fun rows => .ok { s.put s.data with
        json := rows.1.run .close, names := rows.2, field := none, fieldEsc := none, fldNum := 0
        fldNumMax := max s.fldNumMax (s.fldNum + 1 + missing params.header s.fldNumMax (s.fldNum + 1))
        state := .delim, data := s.data + 1 } := by
    rw [ending params hstate hend, hrow, hadd]
    dsimp only [put]
    cases addRow params.header s.fldNumMax s.fldNum
        (text :: List.replicate (missing params.header s.fldNumMax (s.fldNum + 1)) []) (s.json, s.names) with
    | error e => rfl
    | ok rows => rfl
  exact outcome_of_step hin hstep fun rows _ => hK _ (passed_of hrest hin htail (List.length_set) rfl rfl rfl rfl
    (List.drop_set_of_lt (Nat.lt_succ_self _))) rfl rfl

lemma Csv.outcome_emptyRow {params : CsvParams} (hstart : s.Start tail) (htail : tail = [] ∨ ∃ rest, tail = '\n' :: rest)
    (hheader : params.header = false) (hnum : s.fldNum = 0)
    {K : JsonBuffer × List (List Char) → Except CsvError (CsvState × JsonBuffer)}
    (hK : ∀ t : Csv, t.Passed tail → t.fldNum = 0 → t.fldNumMax = s.fldNumMax → t.outcome params = K (t.json, t.names)) :
    s.outcome params = K ((s.json.run (.addObject none)).run .close, s.names) := by
  have hend : s.buf.drop s.data = [] ∨ s.buf.drop s.data = '\n' :: tail.tail := by
    rcases htail with rfl | ⟨rest, rfl⟩
    · exact .inl hstart.rest
    · exact .inr hstart.rest
  have hrow : s.endRow params.header = .ok { s with json := (s.json.run (.addObject none)).run .close, state := .delim } :=
    if_neg (by simp [hstart.state, hheader, hnum])
  have hstep : s.step params = .ok { s with
      json := (s.json.run (.addObject none)).run .close, state := .delim, data := s.data + 1 } := by
    rw [ending params (by rw [hstart.state]; decide) hend, hrow]
    rfl
  rw [outcome, run_of_step hstart.inside hstep]
  exact hK _ (passed_of hstart.rest hstart.inside htail rfl rfl rfl hstart.field hstart.fieldEsc rfl) hnum rfl

end

section

variable {s : Csv} {delim quote : Char} {tail : List Char} {header : Bool}

def csvLine (delim quote : Char) (row : List (List Char)) : List Char := [delim].intercalate (row.map (csvQuoted quote))

def csvText (delim quote : Char) (table : List (List (List Char))) : List Char :=
  ['\n'].intercalate (table.map (csvLine delim quote))

def rowFields (header : Bool) (numMax : ℕ) (row : List (List Char)) : List (List Char) :=
  row ++ List.replicate (missing header numMax row.length) []

def endedRow (header : Bool) (numMax : ℕ) (row : List (List Char)) (rows : JsonBuffer × List (List Char)) :
    Except CsvError (JsonBuffer × List (List Char)) :=
  if rowFields header numMax row = [] then .ok ((rows.1.run (.addObject none)).run .close, rows.2)
  else addRow header numMax 0 (rowFields header numMax row) rows >>= fun rows => .ok (rows.1.run .close, rows.2)

def tableRun (header : Bool) : ℕ → List (List (List Char)) → JsonBuffer × List (List Char) →
    Except CsvError (JsonBuffer × List (List Char))
  | _, [], rows => .ok rows
  | numMax, row :: table, rows =>
    endedRow header numMax row rows >>= tableRun header (max numMax (rowFields header numMax row).length) table

lemma csvLine_cons (delim quote : Char) (field next : List Char) (row : List (List Char)) :
    csvLine delim quote (field :: next :: row) = csvQuoted quote field ++ delim :: csvLine delim quote (next :: row) := by
  rw [csvLine, List.map_cons, List.map_cons, List.intercalate_cons_of_ne_nil (List.cons_ne_nil _ _), csvLine, List.map_cons]
  simp

lemma csvText_cons (delim quote : Char) (row next : List (List Char)) (table : List (List (List Char))) :
    csvText delim quote (row :: next :: table) = csvLine delim quote row ++ '\n' :: csvText delim quote (next :: table) := by
  rw [csvText, List.map_cons, List.map_cons, List.intercalate_cons_of_ne_nil (List.cons_ne_nil _ _), csvText, List.map_cons]
  simp

lemma ends_of_line (delim : Char) (htail : tail = [] ∨ ∃ rest, tail = '\n' :: rest) : Ends delim tail := by
  rcases htail with rfl | ⟨rest, rfl⟩
  · exact .inl rfl
  · exact .inr ⟨'\n', rest, rfl, .inl rfl⟩

lemma Csv.Start.fields {field : List Char} {row : List (List Char)}
    (h : s.Start (encode (csvLine delim quote (field :: row)) ++ tail)) (htail : tail = [] ∨ ∃ rest, tail = '\n' :: rest)
    (hnul : ∀ f ∈ field :: row, '\x00' ∉ f) (hne : delim ≠ quote) (hdelim : Separate delim) (hquote : Separate quote)
    {K : JsonBuffer × List (List Char) → Except CsvError (CsvState × JsonBuffer)}
    (hK : ∀ t : Csv, t.Passed tail → t.fldNum = 0 →
      t.fldNumMax = max s.fldNumMax (s.fldNum + (field :: row).length + missing header s.fldNumMax (s.fldNum + (field :: row).length)) →
      t.outcome (charParams delim quote header) = K (t.json, t.names)) :
    s.outcome (charParams delim quote header) =
      addRow header s.fldNumMax s.fldNum ((field :: row).map encode ++
        List.replicate (missing header s.fldNumMax (s.fldNum + (field :: row).length)) []) (s.json, s.names) >>=
      fun rows => K (rows.1.run .close, rows.2) := by
  induction row generalizing s field with
  | nil =>
    have hline : csvLine delim quote [field] = csvQuoted quote field := by simp [csvLine]
    rw [hline] at h
    obtain ⟨s', hrun, hclosed, hnum, hmax, hnames, hjson⟩ :=
      h.quoted header (hnul field List.mem_cons_self) (ends_of_line delim htail) hne hquote
    rw [outcome, hrun, ← outcome]
    have hend := outcome_endRow (charParams delim quote header) (by rw [hclosed.state]; decide) hclosed.rest
      hclosed.inside htail (.inl hclosed.state) hclosed.text (K := K)
    rw [hnum, hmax, hnames, hjson] at hend
    exact hend hK
  | cons next row ih =>
    have hline : encode (csvLine delim quote (field :: next :: row)) ++ tail =
        encode (csvQuoted quote field) ++ (encodeChar delim ++ (encode (csvLine delim quote (next :: row)) ++ tail)) := by
      rw [csvLine_cons, encode_append, encode_cons]
      simp
    rw [hline] at h
    obtain ⟨s', hrun, hclosed, hnum, hmax, hnames, hjson⟩ :=
      h.quoted header (hnul field List.mem_cons_self) (.inr ⟨delim, _, rfl, .inr rfl⟩) hne hquote
    have hcount : s.fldNum + (field :: next :: row).length = s.fldNum + 1 + (next :: row).length := by
      simp only [List.length_cons]
      omega
    rw [hcount] at hK ⊢
    rw [← hnum, ← hmax] at hK
    rw [outcome, hrun, ← outcome, List.map_cons, List.cons_append, addRow, bind_assoc, ← hnum, ← hmax, ← hnames, ← hjson]
    apply hclosed.delimited hdelim
    intro t hstart htNum htMax
    rw [← htNum, ← htMax] at hK ⊢
    exact ih hstart (fun f hf => hnul f (List.mem_cons_of_mem field hf)) hK

lemma rowFields_map (numMax : ℕ) (row : List (List Char)) : rowFields header numMax (row.map encode) =
    row.map encode ++ List.replicate (missing header numMax row.length) [] := by
  rw [rowFields, List.length_map]

lemma Csv.Start.row {row : List (List Char)} (h : s.Start (encode (csvLine delim quote row) ++ tail))
    (htail : tail = [] ∨ ∃ rest, tail = '\n' :: rest) (hnum : s.fldNum = 0)
    (hrow : header = true → s.fldNumMax = 0 → row ≠ []) (hnul : ∀ field ∈ row, '\x00' ∉ field) (hne : delim ≠ quote)
    (hdelim : Separate delim) (hquote : Separate quote)
    {K : JsonBuffer × List (List Char) → Except CsvError (CsvState × JsonBuffer)}
    (hK : ∀ t : Csv, t.Passed tail → t.fldNum = 0 →
      t.fldNumMax = max s.fldNumMax (rowFields header s.fldNumMax (row.map encode)).length →
      t.outcome (charParams delim quote header) = K (t.json, t.names)) :
    s.outcome (charParams delim quote header) =
      endedRow header s.fldNumMax (row.map encode) (s.json, s.names) >>= K := by
  rw [rowFields_map, List.length_append, List.length_replicate, List.length_map] at hK
  rw [endedRow, rowFields_map]
  cases row with
  | nil =>
    have hrest : encode (csvLine delim quote []) ++ tail = tail := rfl
    rw [hrest] at h
    cases hheader : header with
    | false =>
      subst hheader
      have hnone : ([] : List (List Char)).map encode ++
          List.replicate (missing false s.fldNumMax ([] : List (List Char)).length) [] = [] := rfl
      rw [if_pos hnone]
      have hmax : max s.fldNumMax (([] : List (List Char)).length + missing false s.fldNumMax ([] : List (List Char)).length) =
          s.fldNumMax := Nat.max_eq_left (Nat.zero_le _)
      rw [hmax] at hK
      exact outcome_emptyRow h htail rfl hnum hK
    | true =>
      subst hheader
      obtain ⟨n, hmax⟩ := Nat.exists_eq_add_one_of_ne_zero fun hzero => hrow rfl hzero rfl
      have hmissing : missing true s.fldNumMax ([] : List (List Char)).length = missing true s.fldNumMax (s.fldNum + 1) + 1 := by
        simp only [missing, if_true, List.length_nil, hnum]
        omega
      have hcount : ([] : List (List Char)).length + missing true s.fldNumMax ([] : List (List Char)).length =
          s.fldNum + 1 + missing true s.fldNumMax (s.fldNum + 1) := by
        rw [hmissing, List.length_nil, hnum]
        omega
      have htext : (s.put s.data).fieldText.getD [] = [] := by
        rw [fieldText, put, h.field]
        rfl
      rw [hcount] at hK
      have hend := outcome_endRow (charParams delim quote true) (by rw [h.state]; decide) h.rest h.inside htail
        (.inr (.inl rfl)) htext hK
      rw [hmissing, List.replicate_succ, List.map_nil, List.nil_append, if_neg (List.cons_ne_nil _ _), bind_assoc]
      rw [hnum] at hend ⊢
      exact hend
  | cons field row =>
    rw [if_neg (by simp), bind_assoc]
    have hcount : s.fldNum + (field :: row).length = (field :: row).length := by rw [hnum, Nat.zero_add]
    rw [← hcount] at hK
    have hfields := h.fields htail hnul hne hdelim hquote hK
    rw [hcount, hnum] at hfields
    exact hfields

lemma Csv.Start.table {row : List (List Char)} {table : List (List (List Char))}
    (h : s.Start (encode (csvText delim quote (row :: table)))) (hnum : s.fldNum = 0)
    (hrow : header = true → s.fldNumMax = 0 → row ≠ []) (hnul : ∀ r ∈ row :: table, ∀ field ∈ r, '\x00' ∉ field)
    (hne : delim ≠ quote) (hdelim : Separate delim) (hquote : Separate quote) :
    s.outcome (charParams delim quote header) =
      tableRun header s.fldNumMax ((row :: table).map (List.map encode)) (s.json, s.names) >>= fun rows => .ok (.delim, rows.1) := by
  induction table generalizing s row with
  | nil =>
    have htext : encode (csvText delim quote [row]) = encode (csvLine delim quote row) ++ [] := by simp [csvText]
    rw [htext] at h
    rw [List.map_singleton, tableRun, bind_assoc]
    apply h.row (.inl rfl) hnum hrow (hnul row List.mem_cons_self) hne hdelim hquote
    intro t hpassed _ _
    rcases hpassed with ⟨-, hout, hstate⟩ | ⟨rest, hrest, -⟩
    · rw [outcome, run_end hout, ← hstate]
      rfl
    · cases hrest
  | cons next table ih =>
    have htext : encode (csvText delim quote (row :: next :: table)) =
        encode (csvLine delim quote row) ++ '\n' :: encode (csvText delim quote (next :: table)) := by
      rw [csvText_cons, encode_append]
      rfl
    rw [htext] at h
    rw [List.map_cons, tableRun, bind_assoc]
    apply h.row (.inr ⟨_, rfl⟩) hnum hrow (hnul row List.mem_cons_self) hne hdelim hquote
    intro t hpassed htNum htMax
    rcases hpassed with ⟨hnil, -⟩ | ⟨rest, hrest, hstart⟩
    · cases hnil
    · obtain rfl := (List.cons.inj hrest).2
      rw [← htMax]
      apply ih hstart htNum _ fun r hr => hnul r (List.mem_cons_of_mem row hr)
      intro hheader hzero
      rw [htMax] at hzero
      -- behind a first row that is not empty the number of names is known
      have hboth := Nat.max_eq_zero_iff.1 hzero
      rw [rowFields, List.length_append, List.length_map] at hboth
      exact absurd (List.eq_nil_of_length_eq_zero (by omega)) (hrow hheader hboth.1)

end

end Glaber.Preproc
