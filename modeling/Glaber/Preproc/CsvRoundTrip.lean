import Glaber.Preproc.CsvRuns
import Mathlib.Data.List.TakeWhile

namespace Glaber.Preproc

open Json Str Lib.Results

section

def mostDoublings : ℕ := 17

def jsonRoom : ℕ := jsonStatBufLen * 2 ^ mostDoublings

def Roomy (j : JsonBuffer) : Prop := ∃ k ≤ mostDoublings, j.Doubled k

variable {j : JsonBuffer} {op : Op} {ops : List Op}

lemma JsonBuffer.run_json (j : JsonBuffer) (op : Op) : (j.run op).json = runOp j.json op := by
  cases op <;> rfl

lemma JsonBuffer.foldl_json (j : JsonBuffer) (ops : List Op) : (ops.foldl JsonBuffer.run j).json = ops.foldl runOp j.json := by
  induction ops generalizing j with
  | nil => rfl
  | cons op ops ih => rw [List.foldl_cons, List.foldl_cons, ih, run_json]

lemma Roomy.allocated (h : Roomy j) : j.allocated < maxRecvDataSize := by
  obtain ⟨k, hk, hdoubled⟩ := h
  have hpow : 2 ^ k ≤ 2 ^ mostDoublings := Nat.pow_le_pow_right (by decide) hk
  rw [hdoubled]
  calc jsonStatBufLen * 2 ^ k ≤ jsonStatBufLen * 2 ^ mostDoublings := Nat.mul_le_mul_left _ hpow
    _ < maxRecvDataSize := by decide

lemma Roomy.run (h : Roomy j) (hroom : (runOp j.json op).size + 1 ≤ jsonRoom) : Roomy (j.run op) := by
  obtain ⟨k, hk, hdoubled⟩ := h
  exact JsonBuffer.run_within hdoubled hk op hroom

lemma Roomy.foldl (h : Roomy j) (hroom : (ops.foldl runOp j.json).size + 1 ≤ jsonRoom) : Roomy (ops.foldl JsonBuffer.run j) := by
  induction ops generalizing j with
  | nil => exact h
  | cons op ops ih =>
    have hfirst : (runOp j.json op).size + 1 ≤ jsonRoom := (Nat.succ_le_succ (size_le_foldl _ ops)).trans hroom
    apply ih (h.run hfirst)
    rwa [JsonBuffer.run_json]

lemma roomy_initarray (garbage : ℕ → Char) : Roomy (jsonBufferInitarray garbage) :=
  ⟨0, Nat.zero_le _, JsonBuffer.doubled_initarray garbage⟩

lemma Roomy.full (h : Roomy j) (hopen : op ≠ .close) (hsize : jsonRoom < (runOp j.json op).size + 1) :
    maxRecvDataSize ≤ (j.run op).allocated := by
  obtain ⟨k, hk, hdoubled⟩ := h
  obtain ⟨k', hrealloc, hneed, -⟩ := jsonRealloc_doubles ((runOp j.json op).size + 1) hdoubled
  have hallocated : (j.run op).allocated = jsonRealloc j.allocated ((runOp j.json op).size + 1) := by
    cases op with
    | close => exact absurd rfl hopen
    | addObject name => rfl
    | addArray name => rfl
    | addString name string isString => rfl
  have hmore : mostDoublings < k' := by
    by_contra hle
    have hpow : 2 ^ k' ≤ 2 ^ mostDoublings := Nat.pow_le_pow_right (by decide) (not_lt.1 hle)
    exact absurd (hneed.trans (Nat.mul_le_mul_left _ hpow)) (not_le.2 hsize)
  have hpow : 2 ^ (mostDoublings + 1) ≤ 2 ^ k' := Nat.pow_le_pow_right (by decide) hmore
  rw [hallocated, hrealloc]
  calc maxRecvDataSize = jsonStatBufLen * 2 ^ (mostDoublings + 1) := by decide
    _ ≤ jsonStatBufLen * 2 ^ k' := Nat.mul_le_mul_left _ hpow

end

section

def named (name : ℕ → List Char) (fields : List (List Char)) : List (List Char × List Char) :=
  fields.mapIdx fun k field => (name k, field)

def fieldOps (pairs : List (List Char × List Char)) : List Op := pairs.map fun pair => .addString (some pair.1) (some pair.2) true

def rowOps (pairs : List (List Char × List Char)) : List Op := .addObject none :: (fieldOps pairs ++ [.close])

def fieldName (header : Bool) (names : List (List Char)) (num : ℕ) : List Char :=
  if header then names.getD num [] else Nat.toDigits 10 (num + 1)

variable {header : Bool} {numMax num : ℕ} {names fields : List (List Char)} {j : JsonBuffer} {ops : List Op}

lemma csvAddField_ok (hheader : header = true → num < numMax) {field : List Char}
    (hroomy : Roomy (if num = 0 then j.run (.addObject none) else j))
    (hroom : (runOp (if num = 0 then j.run (.addObject none) else j).json
      (.addString (some (fieldName header names num)) (some field) true)).size + 1 ≤ jsonRoom) :
    csvAddField header j names (some field) num numMax =
      .ok ((if num = 0 then j.run (.addObject none) else j).run
        (.addString (some (fieldName header names num)) (some field) true), names) := by
  have hfits : ¬ (0 < numMax ∧ numMax ≤ num ∧ header = true) := fun h => absurd (hheader h.2.2) (not_lt.2 h.2.1)
  have hnames : ¬ (numMax = 0 ∧ header = true) := fun h => by
    have := hheader h.2
    omega
  rw [csvAddField, if_neg hfits, if_neg hnames, Option.getD_some]
  exact if_neg (not_le.2 (hroomy.run hroom).allocated)

lemma addRow_ok (hheader : header = true → num + 1 + fields.length ≤ numMax) (hroomy : Roomy j)
    (hroom : ((fieldOps (named (fun k => fieldName header names (num + 1 + k)) fields)).foldl runOp j.json).size + 1 ≤ jsonRoom) :
    addRow header numMax (num + 1) fields (j, names) =
      .ok ((fieldOps (named (fun k => fieldName header names (num + 1 + k)) fields)).foldl JsonBuffer.run j, names) := by
  induction fields generalizing num j with
  | nil => rfl
  | cons field fields ih =>
    have hshift : named (fun k => fieldName header names (num + 1 + k)) (field :: fields) =
        (fieldName header names (num + 1), field) :: named (fun k => fieldName header names (num + 1 + 1 + k)) fields := by
      simp only [named, List.mapIdx_cons, Nat.add_zero]
      simp only [Nat.add_assoc, Nat.add_comm 1]
    rw [hshift, fieldOps, List.map_cons, List.foldl_cons, ← fieldOps] at hroom
    rw [hshift, fieldOps, List.map_cons, List.foldl_cons, ← fieldOps]
    have hfirst : (runOp j.json (.addString (some (fieldName header names (num + 1))) (some field) true)).size + 1 ≤ jsonRoom :=
      (Nat.succ_le_succ (size_le_foldl _ _)).trans hroom
    have hfield : csvAddField header j names (some field) (num + 1) numMax = _ :=
      csvAddField_ok (fun h => by have := hheader h; rw [List.length_cons] at this; omega) hroomy hfirst
    rw [addRow, hfield]
    apply ih
    · intro h
      have := hheader h
      rw [List.length_cons] at this
      omega
    · exact hroomy.run hfirst
    · rwa [JsonBuffer.run_json]

lemma length_rowFields {row : List (List Char)} (hheader : header = true → row.length ≤ numMax) :
    header = true → (rowFields header numMax row).length = numMax := by
  intro h
  have := hheader h
  rw [rowFields, List.length_append, List.length_replicate, missing, if_pos h]
  omega

lemma rowFields_false (numMax : ℕ) (row : List (List Char)) : rowFields false numMax row = row := List.append_nil row

lemma endedRow_ok {row : List (List Char)} (hheader : header = true → row.length ≤ numMax) (hroomy : Roomy j)
    (hroom : ((rowOps (named (fieldName header names) (rowFields header numMax row))).foldl runOp j.json).size + 1 ≤ jsonRoom) :
    endedRow header numMax row (j, names) =
      .ok ((rowOps (named (fieldName header names) (rowFields header numMax row))).foldl JsonBuffer.run j, names) := by
  have hlength := length_rowFields hheader
  rw [endedRow]
  cases hfields : rowFields header numMax row with
  | nil => exact if_pos rfl
  | cons field fields =>
    rw [hfields] at hroom hlength
    have hsplit : named (fieldName header names) (field :: fields) =
        (fieldName header names 0, field) :: named (fun k => fieldName header names (0 + 1 + k)) fields := by
      simp only [named, List.mapIdx_cons]
      simp only [Nat.zero_add, Nat.add_comm 1]
    rw [hsplit, rowOps, fieldOps, List.map_cons, ← fieldOps, List.cons_append, List.foldl_cons, List.foldl_cons,
      List.foldl_append] at hroom ⊢
    have hopened : Roomy (j.run (.addObject none)) := by
      apply hroomy.run
      exact (Nat.succ_le_succ ((size_le_runOp _ _).trans ((size_le_foldl _ _).trans (size_le_foldl _ _)))).trans hroom
    have hfirst : (runOp (j.run (.addObject none)).json
        (.addString (some (fieldName header names 0)) (some field) true)).size + 1 ≤ jsonRoom := by
      rw [JsonBuffer.run_json]
      exact (Nat.succ_le_succ ((size_le_foldl _ _).trans (size_le_foldl _ _))).trans hroom
    have hadd : csvAddField header j names (some field) 0 numMax =
        .ok ((j.run (.addObject none)).run (.addString (some (fieldName header names 0)) (some field) true), names) :=
      csvAddField_ok (fun h => by rw [← hlength h]; exact Nat.succ_pos _) hopened hfirst
    have hrest : addRow header numMax (0 + 1) fields
        ((j.run (.addObject none)).run (.addString (some (fieldName header names 0)) (some field) true), names) = _ := addRow_ok
      (fun h => by rw [← hlength h, List.length_cons]; omega) (hopened.run hfirst) (by
        rw [JsonBuffer.run_json, JsonBuffer.run_json]
        exact (Nat.succ_le_succ (size_le_foldl _ _)).trans hroom)
    rw [if_neg (List.cons_ne_nil field fields), addRow, hadd]
    dsimp only [bind, Except.bind] at hrest ⊢
    rw [hrest]
    rfl

lemma tableRun_ok {table : List (List (List Char))} (hheader : header = true → ∀ row ∈ table, row.length ≤ numMax)
    (hroomy : Roomy j) (hroom : ((table.flatMap fun row =>
      rowOps (named (fieldName header names) (rowFields header numMax row))).foldl runOp j.json).size + 1 ≤ jsonRoom) :
    tableRun header numMax table (j, names) = .ok ((table.flatMap fun row =>
      rowOps (named (fieldName header names) (rowFields header numMax row))).foldl JsonBuffer.run j, names) := by
  induction table generalizing numMax j with
  | nil => rfl
  | cons row table ih =>
    rw [List.flatMap_cons, List.foldl_append] at hroom ⊢
    have hrowHeader : header = true → row.length ≤ numMax := fun h => hheader h row List.mem_cons_self
    have hrow : endedRow header numMax row (j, names) = _ :=
      endedRow_ok hrowHeader hroomy ((Nat.succ_le_succ (size_le_foldl _ _)).trans hroom)
    have hsame : ∀ row' : List (List Char), rowFields header (max numMax (rowFields header numMax row).length) row' =
        rowFields header numMax row' := by
      intro row'
      cases header with
      | false => rw [rowFields_false, rowFields_false]
      | true => rw [length_rowFields hrowHeader rfl, Nat.max_self]
    rw [tableRun, hrow]
    dsimp only [bind, Except.bind]
    have hops : (fun row' => rowOps (named (fieldName header names) (rowFields header numMax row'))) = fun row' =>
        rowOps (named (fieldName header names) (rowFields header (max numMax (rowFields header numMax row).length) row')) := by
      funext row'
      rw [hsame]
    rw [hops] at hroom ⊢
    apply ih
    · intro h row' hrow'
      exact (hheader h row' (List.mem_cons_of_mem row hrow')).trans (Nat.le_max_left _ _)
    · exact hroomy.foldl ((Nat.succ_le_succ (size_le_foldl _ _)).trans hroom)
    · rwa [JsonBuffer.foldl_json]

end

section

variable (pairs : List (List Char × List Char))

def rowTree : Tree := .node true (pairs.map fun pair => (pair.1, .str pair.2))

def tableTree (rows : List (List (List Char × List Char))) : Tree := .node false (rows.map fun pairs => ([], rowTree pairs))

variable {frame : Frame} {frames : List Frame}

lemma applyOps_append (ops ops' : List Op) : applyOps (ops ++ ops') frame frames =
    applyOps ops' (applyOps ops frame frames).1 (applyOps ops frame frames).2 := by
  induction ops generalizing frame frames with
  | nil => rfl
  | cons op ops ih => exact ih

lemma fitsAll_append {ops ops' : List Op} : FitsAll (ops ++ ops') frame frames ↔
    FitsAll ops frame frames ∧ FitsAll ops' (applyOps ops frame frames).1 (applyOps ops frame frames).2 := by
  induction ops generalizing frame frames with
  | nil => exact (and_iff_right trivial).symm
  | cons op ops ih =>
    rw [List.cons_append, FitsAll, FitsAll, ih, and_assoc]
    rfl

lemma applyOps_fieldOps : applyOps (fieldOps pairs) frame frames =
    ({ frame with members := frame.members ++ pairs.map fun pair => (pair.1, .str pair.2) }, frames) := by
  induction pairs generalizing frame with
  | nil => simp [fieldOps, applyOps]
  | cons pair pairs ih =>
    rw [fieldOps, List.map_cons, applyOps, ← fieldOps]
    dsimp only [Op.apply]
    rw [ih]
    simp [Frame.add, leaf]

lemma applyOps_rowOps :
    applyOps (rowOps pairs) frame frames = (frame.add [] (rowTree pairs), frames) := by
  rw [rowOps, applyOps, applyOps_append]
  dsimp only [Op.apply]
  rw [applyOps_fieldOps]
  rfl

def NoNul : Prop := ∀ pair ∈ pairs, '\x00' ∉ pair.1 ∧ '\x00' ∉ pair.2

lemma fitsAll_fieldOps {pairs : List (List Char × List Char)} (hobject : frame.object = true) (hnul : NoNul pairs) :
    FitsAll (fieldOps pairs) frame frames := by
  induction pairs generalizing frame with
  | nil => trivial
  | cons pair pairs ih =>
    obtain ⟨hname, hfield⟩ := hnul pair List.mem_cons_self
    refine ⟨⟨⟨iff_of_true rfl hobject, ?_⟩, ?_⟩, ih hobject fun p hp => hnul p (List.mem_cons_of_mem pair hp)⟩
    · rintro text ⟨⟩
      exact hname
    · rintro text ⟨⟩
      exact hfield

lemma fitsAll_rowOps {pairs : List (List Char × List Char)} (harray : frame.object = false) (hnul : NoNul pairs) :
    FitsAll (rowOps pairs) frame frames := by
  refine ⟨⟨iff_of_false (by simp) (by simp [harray]), by simp⟩, ?_⟩
  rw [fitsAll_append]
  exact ⟨fitsAll_fieldOps rfl hnul, trivial, trivial⟩

lemma applyOps_tableOps (rows : List (List (List Char × List Char))) : applyOps (rows.flatMap rowOps) frame frames =
    ({ frame with members := frame.members ++ rows.map fun pairs => ([], rowTree pairs) }, frames) := by
  induction rows generalizing frame with
  | nil => simp [applyOps]
  | cons pairs rows ih =>
    rw [List.flatMap_cons, applyOps_append, applyOps_rowOps, ih]
    simp [Frame.add]

lemma fitsAll_tableOps {rows : List (List (List Char × List Char))} (harray : frame.object = false)
    (hnul : ∀ pairs ∈ rows, NoNul pairs) : FitsAll (rows.flatMap rowOps) frame frames := by
  induction rows generalizing frame with
  | nil => trivial
  | cons pairs rows ih =>
    rw [List.flatMap_cons, fitsAll_append, applyOps_rowOps]
    exact ⟨fitsAll_rowOps harray (hnul pairs List.mem_cons_self),
      ih harray fun p hp => hnul p (List.mem_cons_of_mem pairs hp)⟩

lemma tableOps_text {rows : List (List (List Char × List Char))} (hnul : ∀ pairs ∈ rows, NoNul pairs) (garbage : ℕ → Char) :
    ((rows.flatMap rowOps).foldl runOp (jsonInitarray garbage)).text = render (tableTree rows) := by
  have hfits : FitsAll (rows.flatMap rowOps) (rootFrame false) [] := fitsAll_tableOps rfl hnul
  obtain ⟨hrepresents, -⟩ := represents_ops (represents_startJson garbage false) trivial hfits
  have htext := hrepresents.text
  rw [openText_append_closeText, applyOps_tableOps] at htext
  exact htext

lemma tableOps_size {rows : List (List (List Char × List Char))} (hnul : ∀ pairs ∈ rows, NoNul pairs) (garbage : ℕ → Char) :
    ((rows.flatMap rowOps).foldl runOp (jsonInitarray garbage)).size = (render (tableTree rows)).length := by
  rw [← tableOps_text hnul garbage, Builder.text, List.length_map, List.length_range]

end

section

variable {delim quote : Char}

def csvParamsText (delim quote option : Char) : List Char := encode [delim, '\n', quote, '\n', option]

lemma csvParam_char {c : Char} (hc : Separate c) (missing invalid : CsvError) (rest : List Char) :
    csvParam missing invalid (encodeChar c ++ '\n' :: rest) = .ok (encodeChar c, '\n' :: rest) := by
  have hhead : ¬ (encodeChar c ++ '\n' :: rest).head? = some '\n' := fun h =>
    hc.2.1 ((head_encodeChar_ascii (by decide) _).1 h)
  have hall : ∀ b ∈ encodeChar c, decide (b ≠ '\n') = true := by
    intro b hb
    exact decide_eq_true fun hline => ascii_not_mem_encodeChar (by decide) hc.2.1 (hline ▸ hb)
  have hfield : (encodeChar c ++ '\n' :: rest).dropWhile (· ≠ '\n') = '\n' :: rest := by
    rw [List.dropWhile_append_of_pos hall]
    simp
  have hpos := length_encodeChar_pos c
  rw [csvParam, if_neg hhead, hfield, utf8CharLen_encodeChar]
  dsimp only
  rw [if_neg (by rw [List.length_append]; omega), List.take_left]

lemma csvParams_chars (hdelim : Separate delim) (hquote : Separate quote) (default : List Char) (option : Char) :
    csvParams default (csvParamsText delim quote option) = .ok (charParams delim quote (option = '1')) := by
  have htext : csvParamsText delim quote option =
      encodeChar delim ++ '\n' :: (encodeChar quote ++ '\n' :: (encodeChar option ++ [])) := by
    have hline : encodeChar '\n' = ['\n'] := encodeChar_ascii (by decide)
    simp [csvParamsText, encode, hline]
  have hhead : ((encodeChar option ++ []).head? = some '1') = (option = '1') :=
    propext (head_encodeChar_ascii (by decide) [])
  rw [htext, csvParams, csvParam_char hdelim]
  dsimp only [bind, Except.bind]
  rw [List.tail_cons, csvParam_char hquote]
  dsimp only
  rw [List.tail_cons, if_neg (letter_encodeChar delim).ne_nil]
  simp only [hhead]
  rfl

end

section

def HasSepLine (text : List Char) : Prop :=
  ∃ word c rest, text = word ++ c :: rest ∧ word.map Char.toLower = "sep=".toList ∧ c ≠ '\r' ∧ c ≠ '\n' ∧
    (rest = [] ∨ ∃ d more, rest = d :: more ∧ (d = '\r' ∨ d = '\n'))

lemma toNat_lt_of_toLower {c : Char} (h : c.toLower.toNat < 128) : c.toNat < 128 := by
  unfold Char.toLower at h
  split_ifs at h with hupper
  · have hle : c.val ≤ 90 := hupper.2
    have hnat : c.toNat ≤ 90 := UInt32.le_iff_toNat_le.1 hle
    omega
  · exact h

lemma encode_ascii_front {text : List Char} {k : ℕ} (h : ∀ b ∈ (encode text).take k, b.toNat < 128) :
    (encode text).take k = text.take k ∧ (encode text).drop k = encode (text.drop k) := by
  induction k generalizing text with
  | zero => exact ⟨rfl, rfl⟩
  | succ k ih =>
    cases text with
    | nil => exact ⟨rfl, rfl⟩
    | cons c text =>
      have hc : encodeChar c = [c] := by
        obtain ⟨b, t, hb, -⟩ := letter_encodeChar c
        have hsmall : b.toNat < 128 := h b (by simp [encode_cons, hb])
        have hhead : (encodeChar c ++ []).head? = some b := by rw [hb]; rfl
        rw [(head_encodeChar_ascii hsmall []).1 hhead, encodeChar_ascii hsmall]
      rw [encode_cons, hc, List.singleton_append] at h ⊢
      obtain ⟨htake, hdrop⟩ := ih fun b hb => h b (List.mem_cons_of_mem c hb)
      rw [List.take_succ_cons, List.take_succ_cons, List.drop_succ_cons, List.drop_succ_cons, htake]
      exact ⟨rfl, hdrop⟩

lemma csvSepLine_none {text : List Char} (h : ¬ HasSepLine text) : csvSepLine (encode text) = none := by
  rw [csvSepLine]
  split_ifs with hword
  · have hsmall : ∀ b ∈ (encode text).take 4, b.toNat < 128 := by
      intro b hb
      have hmem : b.toLower ∈ "sep=".toList := hword ▸ List.mem_map_of_mem hb
      have hletters : ∀ c ∈ "sep=".toList, c.toNat < 128 := by decide
      exact toNat_lt_of_toLower (hletters _ hmem)
    obtain ⟨htake, hdrop⟩ := encode_ascii_front hsmall
    dsimp only
    rw [hdrop]
    refine if_neg ?_
    rintro ⟨-, hlength⟩
    apply h
    cases hrest : text.drop 4 with
    | nil =>
      rw [hrest] at hlength
      cases hlength
    | cons c rest =>
      rw [hrest, encode_cons, utf8CharLen_encodeChar] at hlength
      have hsplit := List.takeWhile_append_dropWhile (p := fun b => decide (b ≠ '\r' ∧ b ≠ '\n')) (l := encodeChar c ++ encode rest)
      have hfront : ((encodeChar c ++ encode rest).takeWhile fun b => decide (b ≠ '\r' ∧ b ≠ '\n')).length =
          (encodeChar c).length := by
        have hboth := congrArg List.length hsplit
        rw [List.length_append] at hboth
        omega
      obtain ⟨hchar, hline⟩ := List.append_inj hsplit hfront
      have hkept : ∀ a : Char, a.toNat < 128 → c = a → a ≠ '\r' ∧ a ≠ '\n' := by
        rintro a ha rfl
        have hmem : c ∈ encodeChar c := by rw [encodeChar_ascii ha]; exact List.mem_cons_self
        rw [← hchar] at hmem
        have hkeep := List.mem_takeWhile_imp hmem
        simpa using hkeep
      refine ⟨text.take 4, c, rest, ?_, ?_, fun hc => (hkept '\r' (by decide) hc).1 rfl,
        fun hc => (hkept '\n' (by decide) hc).2 rfl, ?_⟩
      · rw [← hrest, List.take_append_drop]
      · rw [← htake, hword]
      · cases rest with
        | nil => exact .inl rfl
        | cons d more =>
          right
          refine ⟨d, more, rfl, ?_⟩
          obtain ⟨b, t, hb, -⟩ := letter_encodeChar d
          have hhead := List.head?_dropWhile_not (fun b => decide (b ≠ '\r' ∧ b ≠ '\n')) (encodeChar c ++ encode (d :: more))
          rw [hline, encode_cons, hb] at hhead
          simp only [List.cons_append, List.head?_cons, decide_eq_false_iff_not, not_and_or, not_not] at hhead
          have hfirst : (encodeChar d ++ []).head? = some b := by rw [hb]; rfl
          rcases hhead with rfl | rfl
          · exact .inl ((head_encodeChar_ascii (by decide) []).1 hfirst)
          · exact .inr ((head_encodeChar_ascii (by decide) []).1 hfirst)
  · rfl

end

section

variable {delim quote : Char}

def csvStart (garbage : ℕ → Char) (value : List Char) : Csv :=
  ⟨value, value.length - value.length, .delim, none, none, 0, 0, [], jsonBufferInitarray garbage⟩

lemma csvToJson_of_outcome {garbage : ℕ → Char} {value : List Char} {option : Char} (hsep : csvSepLine value = none)
    (hvalue : value ≠ []) (hdelim : Separate delim) (hquote : Separate quote)
    {result : Except CsvError (JsonBuffer × List (List Char))}
    (h : (csvStart garbage value).outcome (charParams delim quote (option = '1')) =
      result >>= fun rows => .ok (.delim, rows.1)) :
    csvToJson garbage value (csvParamsText delim quote option) = result >>= fun rows => .ok rows.1.json.text := by
  have hloop : Csv.loop (charParams delim quote (option = '1')) (value.length + 1) (csvStart garbage value) =
      Csv.run (charParams delim quote (option = '1')) (csvStart garbage value) := by
    apply Csv.loop_eq_run
    simp only [csvStart]
    omega
  rw [csvToJson, hsep, Option.getD_none]
  dsimp only
  rw [csvParams_chars hdelim hquote]
  dsimp only [bind, Except.bind]
  rw [if_neg hvalue]
  rw [csvStart] at hloop
  dsimp only [pure, Except.pure]
  rw [hloop]
  rw [Csv.outcome, csvStart] at h
  cases hrun : Csv.run (charParams delim quote (option = '1'))
      ⟨value, value.length - value.length, .delim, none, none, 0, 0, [], jsonBufferInitarray garbage⟩ with
  | error e =>
    rw [hrun] at h
    cases result with
    | error e' =>
      cases h
      rfl
    | ok rows => cases h
  | ok t =>
    rw [hrun] at h
    cases result with
    | error e' => cases h
    | ok rows =>
      have hboth := Prod.mk.inj (Except.ok.inj h)
      dsimp only
      rw [if_neg (by rw [hboth.1]; decide), hboth.2]

lemma csvText_ne_nil {table : List (List (List Char))} (hne : table ≠ []) (hempty : table ≠ [[]]) :
    csvText delim quote table ≠ [] := by
  match table with
  | [row] =>
    cases row with
    | nil => exact absurd rfl hempty
    | cons field row =>
      cases row with
      | nil => simp [csvText, csvLine, csvQuoted]
      | cons next row =>
        have htext : csvText delim quote [field :: next :: row] = csvLine delim quote (field :: next :: row) := by simp [csvText]
        rw [htext, csvLine_cons]
        simp
  | row :: next :: table =>
    rw [csvText_cons]
    simp

lemma encode_ne_nil {text : List Char} (h : text ≠ []) : encode text ≠ [] := fun hempty => h (encode_injective hempty)

lemma csvToJson_table (garbage : ℕ → Char) (hne : delim ≠ quote) (hdelim : Separate delim) (hquote : Separate quote)
    {table : List (List (List Char))} (htable : table ≠ []) (hempty : table ≠ [[]])
    (hnul : ∀ row ∈ table, ∀ field ∈ row, '\x00' ∉ field) (hsep : ¬ HasSepLine (csvText delim quote table)) {option : Char}
    (hrow : option = '1' → ∀ row ∈ table.head?, row ≠ []) :
    csvToJson garbage (encode (csvText delim quote table)) (csvParamsText delim quote option) =
      tableRun (option = '1') 0 (table.map (List.map encode)) (jsonBufferInitarray garbage, []) >>=
        fun rows => .ok rows.1.json.text := by
  apply csvToJson_of_outcome (csvSepLine_none hsep) (encode_ne_nil (csvText_ne_nil htable hempty)) hdelim hquote
  cases table with
  | nil => exact absurd rfl htable
  | cons row table =>
    have hstart : (csvStart garbage (encode (csvText delim quote (row :: table)))).Start
        (encode (csvText delim quote (row :: table))) :=
      ⟨rfl, by simp [csvStart], by simp [csvStart], rfl, rfl⟩
    exact hstart.table rfl (fun h _ => hrow (of_decide_eq_true h) row rfl) hnul hne hdelim hquote

end

section

def numberedRows (table : List (List (List Char))) : List (List (List Char × List Char)) :=
  table.map fun row => row.mapIdx fun k field => (Nat.toDigits 10 (k + 1), encode field)

def namedRows (header : List (List Char)) (rows : List (List (List Char))) : List (List (List Char × List Char)) :=
  rows.map fun row => header.mapIdx fun k name => (encode name, encode (row.getD k []))

def FitsJson (rows : List (List (List Char × List Char))) : Prop := (render (tableTree rows)).length + 1 ≤ jsonRoom

lemma nul_not_mem_encode {text : List Char} (h : '\x00' ∉ text) : '\x00' ∉ encode text := ascii_not_mem_encode (by decide) h

lemma numberedRows_noNul {table : List (List (List Char))} (hnul : ∀ row ∈ table, ∀ field ∈ row, '\x00' ∉ field) :
    ∀ pairs ∈ numberedRows table, NoNul pairs := by
  intro pairs hpairs pair hpair
  obtain ⟨row, hrow, rfl⟩ := List.mem_map.1 hpairs
  obtain ⟨k, hk, rfl⟩ := List.mem_mapIdx.1 hpair
  refine ⟨fun hmem => ?_, nul_not_mem_encode (hnul row hrow _ (List.getElem_mem hk))⟩
  cases Nat.isDigit_of_mem_toDigits (by decide) (by decide) hmem

lemma namedRows_noNul {header : List (List Char)} {rows : List (List (List Char))} (hheader : ∀ name ∈ header, '\x00' ∉ name)
    (hnul : ∀ row ∈ rows, ∀ field ∈ row, '\x00' ∉ field) : ∀ pairs ∈ namedRows header rows, NoNul pairs := by
  intro pairs hpairs pair hpair
  obtain ⟨row, hrow, rfl⟩ := List.mem_map.1 hpairs
  obtain ⟨k, hk, rfl⟩ := List.mem_mapIdx.1 hpair
  refine ⟨nul_not_mem_encode (hheader _ (List.getElem_mem hk)), nul_not_mem_encode ?_⟩
  rw [List.getD_eq_getElem?_getD]
  cases hfield : row[k]? with
  | none => exact List.not_mem_nil
  | some field => exact hnul row hrow field (List.mem_of_getElem? hfield)

lemma tableOps_ok {rows : List (List (List Char × List Char))} (hnul : ∀ pairs ∈ rows, NoNul pairs) (hfits : FitsJson rows)
    (garbage : ℕ → Char) :
    ((rows.flatMap rowOps).foldl runOp (jsonBufferInitarray garbage).json).size + 1 ≤ jsonRoom ∧
      ((rows.flatMap rowOps).foldl JsonBuffer.run (jsonBufferInitarray garbage)).json.text = render (tableTree rows) := by
  constructor
  · exact (congrArg (· + 1) (tableOps_size hnul garbage)).trans_le hfits
  · rw [JsonBuffer.foldl_json]
    exact tableOps_text hnul garbage

lemma named_numbered (row : List (List Char)) : named (fieldName false []) (rowFields false 0 (row.map encode)) =
    row.mapIdx fun k field => (Nat.toDigits 10 (k + 1), encode field) := by
  rw [rowFields_false, named]
  apply List.ext_getElem
  · simp
  · intro k h h'
    simp [fieldName]

lemma named_header {header row : List (List Char)} (h : row.length ≤ header.length) :
    named (fieldName true (header.map encode)) (rowFields true header.length (row.map encode)) =
      header.mapIdx fun k name => (encode name, encode (row.getD k [])) := by
  have hlength : (rowFields true header.length (row.map encode)).length = header.length :=
    length_rowFields (fun _ => by rwa [List.length_map]) rfl
  rw [named]
  apply List.ext_getElem
  · simp [hlength]
  · intro k hk hk'
    have hheader : k < header.length := by simpa using hk'
    have hin : k < (rowFields true header.length (row.map encode)).length := by omega
    have hfield : (rowFields true header.length (row.map encode))[k] = encode (row.getD k []) := by
      simp only [rowFields, List.getElem_append, List.length_map, List.getElem_map, List.getElem_replicate]
      split_ifs with hin
      · simp [hin]
      · rw [List.getD_eq_getElem?_getD, List.getElem?_eq_none (not_lt.1 hin)]
        rfl
    simp only [List.getElem_mapIdx, hfield, fieldName, if_true]
    simp [hheader]

lemma addRow_header {names fields : List (List Char)} (hnodup : (names ++ fields).Nodup) (j : JsonBuffer) :
    addRow true 0 names.length fields (j, names) = .ok (j, names ++ fields) := by
  induction fields generalizing names with
  | nil => rw [List.append_nil]; rfl
  | cons field fields ih =>
    have hnew : field ∉ names := by
      intro hmem
      exact (List.nodup_append.1 hnodup).2.2 field hmem field List.mem_cons_self rfl
    have hadd : csvAddField true j names (some field) names.length 0 = .ok (j, names ++ [field]) := by
      rw [csvAddField, if_neg (by simp), if_pos ⟨rfl, rfl⟩, List.take_length, Option.getD_some, if_neg hnew]
    have hsplit : names ++ field :: fields = (names ++ [field]) ++ fields := by simp
    rw [addRow, hadd, hsplit]
    rw [hsplit] at hnodup
    have hrest := ih hnodup
    rw [List.length_append] at hrest
    exact hrest

lemma csvToJson_numbered (garbage : ℕ → Char) (hne : delim ≠ quote) (hdelim : Separate delim) (hquote : Separate quote)
    {table : List (List (List Char))} (htable : table ≠ []) (hempty : table ≠ [[]])
    (hnul : ∀ row ∈ table, ∀ field ∈ row, '\x00' ∉ field) (hsep : ¬ HasSepLine (csvText delim quote table))
    (hfits : FitsJson (numberedRows table)) :
    csvToJson garbage (encode (csvText delim quote table)) (csvParamsText delim quote '0') =
      .ok (render (tableTree (numberedRows table))) := by
  have hops : (table.map (List.map encode)).flatMap (fun row => rowOps (named (fieldName false []) (rowFields false 0 row))) =
      (numberedRows table).flatMap rowOps := by
    rw [numberedRows, List.flatMap_map, List.flatMap_map]
    simp only [named_numbered]
  obtain ⟨hroom, htext⟩ := tableOps_ok (numberedRows_noNul hnul) hfits garbage
  have hrun : tableRun false 0 (table.map (List.map encode)) (jsonBufferInitarray garbage, []) = _ :=
    tableRun_ok (fun h => by cases h) (roomy_initarray garbage) (by rw [hops]; exact hroom)
  rw [csvToJson_table garbage hne hdelim hquote htable hempty hnul hsep (fun h => by cases h)]
  have hoption : decide ('0' = '1') = false := rfl
  rw [hoption, hrun, hops]
  exact congrArg Except.ok htext

lemma csvToJson_named (garbage : ℕ → Char) (hne : delim ≠ quote) (hdelim : Separate delim) (hquote : Separate quote)
    {header : List (List Char)} {rows : List (List (List Char))} (hheader : header ≠ []) (hnodup : header.Nodup)
    (hlength : ∀ row ∈ rows, row.length ≤ header.length)
    (hnul : ∀ row ∈ header :: rows, ∀ field ∈ row, '\x00' ∉ field) (hsep : ¬ HasSepLine (csvText delim quote (header :: rows)))
    (hfits : FitsJson (namedRows header rows)) :
    csvToJson garbage (encode (csvText delim quote (header :: rows))) (csvParamsText delim quote '1') =
      .ok (render (tableTree (namedRows header rows))) := by
  have hops : (rows.map (List.map encode)).flatMap
      (fun row => rowOps (named (fieldName true (header.map encode)) (rowFields true header.length row))) =
      (namedRows header rows).flatMap rowOps := by
    rw [namedRows, List.flatMap_map, List.flatMap_map]
    exact List.flatMap_congr fun row hrow => by rw [named_header (hlength row hrow)]
  have hbelow := namedRows_noNul (hnul header List.mem_cons_self) fun row hrow => hnul row (List.mem_cons_of_mem header hrow)
  obtain ⟨hroom, htext⟩ := tableOps_ok hbelow hfits garbage
  have hrun : tableRun true header.length (rows.map (List.map encode)) (jsonBufferInitarray garbage, header.map encode) = _ :=
    tableRun_ok (fun _ row hrow => by
      obtain ⟨row', hrow', rfl⟩ := List.mem_map.1 hrow
      rw [List.length_map]
      exact hlength row' hrow') (roomy_initarray garbage) (by rw [hops]; exact hroom)
  have hfields : rowFields true 0 (header.map encode) = header.map encode := by
    rw [rowFields, missing, if_pos rfl, Nat.zero_sub, List.replicate_zero, List.append_nil]
  have hnames : endedRow true 0 (header.map encode) (jsonBufferInitarray garbage, []) =
      .ok (jsonBufferInitarray garbage, header.map encode) := by
    have hdistinct : ([] ++ header.map encode).Nodup := hnodup.map encode_injective
    have hadded : addRow true 0 0 (header.map encode) (jsonBufferInitarray garbage, []) = .ok (_, [] ++ header.map encode) :=
      addRow_header hdistinct _
    rw [endedRow, hfields, if_neg (by simpa using hheader), hadded]
    rfl
  rw [csvToJson_table garbage hne hdelim hquote (List.cons_ne_nil _ _) (by simpa using fun h => absurd h hheader) hnul hsep
    (fun _ row hrow => by obtain rfl := Option.some.inj hrow; exact hheader)]
  have hoption : decide ('1' = '1') = true := rfl
  rw [hoption, List.map_cons, tableRun, hnames, hfields, Nat.zero_max, List.length_map]
  dsimp only [bind, Except.bind]
  rw [hrun, hops]
  exact congrArg Except.ok htext

theorem csv_round_trip (garbage : ℕ → Char) (delim quote : Char) (hne : delim ≠ quote) (hdelim : Separate delim)
    (hquote : Separate quote) :
    (∀ table : List (List (List Char)), table ≠ [] → table ≠ [[]] → (∀ row ∈ table, ∀ field ∈ row, '\x00' ∉ field) →
      ¬ HasSepLine (csvText delim quote table) → FitsJson (numberedRows table) →
      csvToJson garbage (encode (csvText delim quote table)) (csvParamsText delim quote '0') =
        .ok (render (tableTree (numberedRows table)))) ∧
    ∀ (header : List (List Char)) (rows : List (List (List Char))), header ≠ [] → header.Nodup →
      (∀ row ∈ rows, row.length ≤ header.length) → (∀ row ∈ header :: rows, ∀ field ∈ row, '\x00' ∉ field) →
      ¬ HasSepLine (csvText delim quote (header :: rows)) → FitsJson (namedRows header rows) →
      csvToJson garbage (encode (csvText delim quote (header :: rows))) (csvParamsText delim quote '1') =
        .ok (render (tableTree (namedRows header rows))) := by
  constructor
  · intro table htable hempty hnul hsep hfits
    exact csvToJson_numbered garbage hne hdelim hquote htable hempty hnul hsep hfits
  · intro header rows hheader hnodup hlength hnul hsep hfits
    exact csvToJson_named garbage hne hdelim hquote hheader hnodup hlength hnul hsep hfits

lemma not_hasSepLine {c : Char} (hc : c.toLower ≠ 's') (text : List Char) : ¬ HasSepLine (c :: text) := by
  rintro ⟨word, d, rest, htext, hword, -⟩
  cases word with
  | nil => cases hword
  | cons w word =>
    obtain ⟨rfl, -⟩ := List.cons.inj htext
    exact hc (List.cons.inj hword).1

theorem csv_round_trip_quotes :
    csvToJson (fun _ => ' ') (encode (csvText ',' '"' [["a\"".toList, ",".toList], ["\n".toList]])) (csvParamsText ',' '"' '0') =
        .ok "[\x7b\"1\":\"a\\\"\",\"2\":\",\"\x7d,\x7b\"1\":\"\\n\"\x7d]".toList ∧
      csvToJson (fun _ => ' ') (encode (csvText ',' '"' [["a\"".toList, ",".toList], ["\n".toList]])) (csvParamsText ',' '"' '1') =
        .ok "[\x7b\"a\\\"\":\"\\n\",\",\":\"\"\x7d]".toList := by
  have hseparate : Separate ',' ∧ Separate '"' := ⟨⟨by decide, by decide, by decide⟩, by decide, by decide, by decide⟩
  obtain ⟨hnumbered, hnamed⟩ := csv_round_trip (fun _ => ' ') ',' '"' (by decide) hseparate.1 hseparate.2
  constructor
  · exact hnumbered [["a\"".toList, ",".toList], ["\n".toList]] (by decide) (by decide) (by decide)
      (not_hasSepLine (by decide) _) (by unfold FitsJson; decide)
  · exact hnamed ["a\"".toList, ",".toList] [["\n".toList]] (by decide) (by decide) (by decide) (by decide)
      (not_hasSepLine (by decide) _) (by unfold FitsJson; decide)

end

section

lemma csvAddField_full {j : JsonBuffer} {num numMax : ℕ} {names : List (List Char)} {field : List Char}
    (hroomy : Roomy (if num = 0 then j.run (.addObject none) else j)) (hfull : jsonRoom ≤ field.length) :
    csvAddField false j names (some field) num numMax = .error .tooLarge := by
  have hsize :
      ∀ (json : Builder) (name : List Char), field.length ≤ (runOp json (.addString (some name) (some field) true)).size := by
    intro json name
    have hstring : field.length ≤ stringSize (some field) true := by
      rw [stringSize, Option.getD_some, ← length_escape]
      exact (length_le_escape field).trans (Nat.le_add_right _ _)
    exact hstring.trans ((Nat.le_add_left _ _).trans (Nat.le_add_left _ _))
  rw [csvAddField, if_neg (by simp), if_neg (by simp), Option.getD_some]
  exact if_pos (hroomy.full (by simp) (Nat.lt_succ_of_le (hfull.trans (hsize _ _))))

lemma length_le_encode (text : List Char) : text.length ≤ (encode text).length := by
  have hletters := Lib.Letters.length_le_flatten (letters_encode text)
  rwa [List.length_map, ← encode_eq_flatten] at hletters

lemma csvToJson_full (garbage : ℕ → Char) {field : List Char} (hnul : '\x00' ∉ field) (hfull : jsonRoom ≤ field.length) :
    csvToJson garbage (encode (csvText ',' '"' [[field]])) (csvParamsText ',' '"' '0') = .error .tooLarge := by
  have htext : csvText ',' '"' [[field]] = '"' :: (doubled '"' field ++ ['"']) := by simp [csvText, csvLine, csvQuoted]
  have hsep : ¬ HasSepLine (csvText ',' '"' [[field]]) := by
    rw [htext]
    exact not_hasSepLine (by decide) _
  have hsmall : 4 + 1 ≤ jsonRoom := by decide
  have hopened : Roomy ((jsonBufferInitarray garbage).run (.addObject none)) := (roomy_initarray garbage).run hsmall
  have hadd : csvAddField false (jsonBufferInitarray garbage) [] (some (encode field)) 0 0 = .error .tooLarge :=
    csvAddField_full hopened (hfull.trans (length_le_encode field))
  rw [csvToJson_table garbage (by decide) ⟨by decide, by decide, by decide⟩ ⟨by decide, by decide, by decide⟩ (by simp) (by simp)
    (by simpa using hnul) hsep (fun h => by cases h)]
  have hoption : decide ('0' = '1') = false := rfl
  have hrow : rowFields false 0 [encode field] = [encode field] := rowFields_false 0 _
  rw [hoption, List.map_singleton, List.map_singleton, tableRun, endedRow, hrow, if_neg (List.cons_ne_nil _ _), addRow, hadd]
  rfl

theorem carriage_return_delimiter_or_too_large :
    csvToJson (fun _ => ' ') (encode (csvText '\r' '"' [["a".toList, "b".toList]])) (csvParamsText '\r' '"' '0') =
        .error .lineBreak ∧
      csvToJson (fun _ => ' ') (encode (csvText ',' '"' [[List.replicate 536870912 'a']])) (csvParamsText ',' '"' '0') =
        .error .tooLarge := by
  have hnul : '\x00' ∉ List.replicate 536870912 'a' := by
    intro hmem
    cases List.eq_of_mem_replicate hmem
  have hfull : jsonRoom ≤ (List.replicate 536870912 'a').length := by
    rw [List.length_replicate]
    decide
  exact ⟨by decide, csvToJson_full _ hnul hfull⟩

end

end Glaber.Preproc
