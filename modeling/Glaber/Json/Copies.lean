import Glaber.Json.Grammar
import Glaber.Json.Reader

namespace Glaber.Json

section

def copyLoopWritten (size : ℕ) : ℕ → ℕ → List Char → ℕ
  | 0, n, _ => n
  | fuel + 1, n, p =>
    match p with
    | [] => n
    | '\\' :: p =>
      match decodeCharacter p with
      | none => n
      | some (bytes, p) =>
        if size ≤ n + bytes.length then n
        else if n + bytes.length = size then n + bytes.length
        else copyLoopWritten size fuel (n + bytes.length) p
    | '"' :: _ => n + 1
    | _ :: p => if n + 1 = size then n + 1 else copyLoopWritten size fuel (n + 1) p

def copyStringWritten (p : List Char) (size : ℕ) : ℕ := if size = 0 then 0 else copyLoopWritten size p.length 0 p.tail

def decodeValueWritten (p : List Char) (size : ℕ) : ℕ :=
  match valueLength p with
  | none => 0
  | some len =>
    match jsonType p with
    | .string => copyStringWritten p size
    | .null => if size = 0 then 0 else 1
    | _ => if size < len + 1 then 0 else len + 1

end

section

lemma length_decodeCharacter {p rest bytes : List Char} (h : decodeCharacter p = some (bytes, rest)) : bytes.length ≤ 4 := by
  have hunit : ∀ {num : ℕ} {p rest bytes : List Char}, decodeUnit num p = some (bytes, rest) → bytes.length ≤ 4 := by
    intro num p rest bytes h
    unfold decodeUnit at h
    split_ifs at h
    · simp [← (Prod.mk.inj (Option.some.inj h)).1]
    · simp [← (Prod.mk.inj (Option.some.inj h)).1]
    · simp [← (Prod.mk.inj (Option.some.inj h)).1]
    · split at h
      · obtain ⟨⟨low, p⟩, -, hlow⟩ := Option.bind_eq_some_iff.1 h
        dsimp only at hlow
        split_ifs at hlow
        simp [← (Prod.mk.inj (Option.some.inj hlow)).1]
      · cases h
  unfold decodeCharacter at h
  split at h
  case h_9 =>
    obtain ⟨⟨num, p⟩, -, hnum⟩ := Option.bind_eq_some_iff.1 h
    exact hunit hnum
  case h_10 => cases h
  all_goals simp [← (Prod.mk.inj (Option.some.inj h)).1]

structure Copies (text : List Char) (size : ℕ) (out rest : List Char) (written : ℕ) (copied : Option (List Char × List Char)) :
    Prop where
  fits : out.length + text.length < size → copied = some (out ++ text, rest) ∧ written = out.length + text.length + 1
  long : size ≤ out.length + text.length → copied = none ∧ size ≤ written + 4 ∧ written ≤ size

lemma Copies.prepend (bytes : List Char) {text out rest : List Char} {size written : ℕ}
    {copied : Option (List Char × List Char)} (h : Copies text size (out ++ bytes) rest written copied) :
    Copies (bytes ++ text) size out rest written copied := by
  obtain ⟨hfits, hlong⟩ := h
  rw [List.length_append, Nat.add_assoc, ← List.length_append, List.append_assoc] at hfits
  rw [List.length_append, Nat.add_assoc, ← List.length_append] at hlong
  exact ⟨hfits, hlong⟩

lemma copies_body {body : List Char} (h : StringBody body) : ∃ text : List Char, ∀ size fuel out rest, out.length < size →
    body.length < fuel → Copies text size out rest (copyLoopWritten size fuel out.length (body ++ '"' :: rest))
      (copyLoop size fuel out (body ++ '"' :: rest)) := by
  induction h using StringBody.induct with
  | nil =>
    refine ⟨[], fun size fuel out rest hout hfuel => ?_⟩
    obtain ⟨fuel, rfl⟩ := Nat.exists_eq_add_one_of_ne_zero (Nat.ne_of_gt hfuel)
    constructor
    · intro _
      simp [copyLoop, copyLoopWritten]
    · intro hlong
      simp only [List.length_nil] at hlong
      omega
  | plain c body hc hquote hback _ ih =>
    obtain ⟨text, hcopies⟩ := ih
    refine ⟨c :: text, fun size fuel out rest hout hfuel => ?_⟩
    obtain ⟨fuel, rfl⟩ := Nat.exists_eq_add_one_of_ne_zero (Nat.ne_of_gt (Nat.zero_lt_of_lt hfuel))
    have hcopy : copyLoop size (fuel + 1) out (c :: (body ++ '"' :: rest)) =
        if (out ++ [c]).length = size then none else copyLoop size fuel (out ++ [c]) (body ++ '"' :: rest) :=
      copyLoop_plain hquote hback
    have hwritten : copyLoopWritten size (fuel + 1) out.length (c :: (body ++ '"' :: rest)) =
        if out.length + 1 = size then out.length + 1 else copyLoopWritten size fuel (out.length + 1) (body ++ '"' :: rest) := by
      rw [copyLoopWritten]
      · exact hback
      · exact hquote
    have hlength : (out ++ [c]).length = out.length + 1 := by simp
    rw [List.cons_append, hcopy, hwritten, hlength]
    by_cases hfull : out.length + 1 = size
    · rw [if_pos hfull, if_pos hfull]
      refine ⟨fun hfits => ?_, fun _ => ⟨rfl, by omega, by omega⟩⟩
      simp only [List.length_cons] at hfits
      omega
    · rw [if_neg hfull, if_neg hfull]
      have hnext := hcopies size fuel (out ++ [c]) rest (by omega) (Nat.lt_of_succ_lt_succ hfuel)
      exact .prepend [c] (hlength ▸ hnext)
  | escaped e bytes body he _ _ ih =>
    obtain ⟨text, hcopies⟩ := ih
    have hshort := length_decodeCharacter (he.decode [])
    refine ⟨bytes ++ text, fun size fuel out rest hout hfuel => ?_⟩
    obtain ⟨fuel, rfl⟩ := Nat.exists_eq_add_one_of_ne_zero (Nat.ne_of_gt (Nat.zero_lt_of_lt hfuel))
    have hlength : (out ++ bytes).length = out.length + bytes.length := List.length_append
    have htext : '\\' :: (e ++ body) ++ '"' :: rest = '\\' :: (e ++ (body ++ '"' :: rest)) := by simp
    rw [htext, copyLoop, copyLoopWritten]
    simp only [he.decode, Option.bind_eq_bind, Option.bind_some, hlength]
    by_cases hfull : size ≤ out.length + bytes.length
    · rw [if_pos hfull, if_pos hfull]
      refine ⟨fun hfits => ?_, fun _ => ⟨rfl, by omega, by omega⟩⟩
      simp only [List.length_append] at hfits
      omega
    · have hroom : ¬ out.length + bytes.length = size := by omega
      rw [if_neg hfull, if_neg hroom, if_neg hfull, if_neg hroom]
      have hnext := hcopies size fuel (out ++ bytes) rest (by omega) (by simp at hfuel; omega)
      exact .prepend bytes (hlength ▸ hnext)

lemma copies_string {body : List Char} (h : StringBody body) (rest : List Char) : ∃ text : List Char, ∀ size, 0 < size →
    Copies text size [] rest (copyStringWritten ('"' :: (body ++ '"' :: rest)) size)
      (copyString ('"' :: (body ++ '"' :: rest)) size) := by
  obtain ⟨text, hcopies⟩ := copies_body h
  refine ⟨text, fun size hsize => ?_⟩
  rw [copyStringWritten, copyString, if_neg (Nat.ne_of_gt hsize), if_neg (Nat.ne_of_gt hsize), List.tail_cons]
  exact hcopies size _ [] rest hsize (by simp)

end

section

structure ValueText (p text : List Char) : Prop where
  fits : ∀ size, text.length < size → decodeValue p size = some (text, jsonType p) ∧ decodeValueWritten p size = text.length + 1
  long : ∀ size, size ≤ text.length → decodeValue p size = none ∧ decodeValueWritten p size ≤ size
  string : jsonType p = .string → ∀ size, size ≤ text.length → size ≤ decodeValueWritten p size + 4
  other : jsonType p ≠ .string → ∀ size, size ≤ text.length → decodeValueWritten p size = 0

lemma ValueText.decode_iff {p text : List Char} (h : ValueText p text) {size : ℕ} {text' : List Char} {type : JsonType} :
    decodeValue p size = some (text', type) ↔ text' = text ∧ type = jsonType p ∧ text.length < size := by
  constructor
  · intro hdecode
    have hsize : text.length < size := by
      by_contra hlong
      rw [(h.long size (not_lt.1 hlong)).1] at hdecode
      cases hdecode
    rw [(h.fits size hsize).1] at hdecode
    obtain ⟨rfl, rfl⟩ := Prod.mk.inj (Option.some.inj hdecode)
    exact ⟨rfl, rfl, hsize⟩
  · rintro ⟨rfl, rfl, hsize⟩
    exact (h.fits size hsize).1

lemma head_of_jsonType_string {p : List Char} (h : jsonType p = .string) : ∃ q, p = '"' :: q := by
  cases p with
  | nil => cases h
  | cons c q =>
    by_cases hc : c = '"'
    · exact ⟨q, by rw [hc]⟩
    · simp only [jsonType, if_neg hc] at h
      split_ifs at h

lemma valueText_string {p : List Char} {len : ℕ} (htype : jsonType p = .string) (hlen : valueLength p = some len) :
    ∃ text, ValueText p text := by
  obtain ⟨q, rfl⟩ := head_of_jsonType_string htype
  have hparse := hlen
  simp only [valueLength, htype] at hparse
  obtain ⟨⟨tree, rest⟩, hvalue, -⟩ := Option.map_eq_some_iff.1 hparse
  rw [parseValue, skipWhitespace_cons (by decide)] at hvalue
  obtain ⟨⟨read, rest'⟩, hstring, -⟩ := Option.map_eq_some_iff.1 hvalue
  obtain ⟨body, hbody, rfl⟩ := body_of_parseString hstring
  obtain ⟨text, hcopies⟩ := copies_string hbody rest'
  have hdecode : ∀ size, decodeValue ('"' :: (body ++ '"' :: rest')) size =
      (copyString ('"' :: (body ++ '"' :: rest')) size).map fun r => (r.1, .string) := by
    intro size
    rw [decodeValue, hlen]
    simp only [decodeInto, htype]
    cases copyString ('"' :: (body ++ '"' :: rest')) size <;> rfl
  have hwritten : ∀ size, decodeValueWritten ('"' :: (body ++ '"' :: rest')) size =
      copyStringWritten ('"' :: (body ++ '"' :: rest')) size := by
    intro size
    simp only [decodeValueWritten, hlen, htype]
  have hzero : copyString ('"' :: (body ++ '"' :: rest')) 0 = none ∧ copyStringWritten ('"' :: (body ++ '"' :: rest')) 0 = 0 :=
    ⟨rfl, rfl⟩
  have hlong : ∀ size, size ≤ text.length → copyString ('"' :: (body ++ '"' :: rest')) size = none ∧
      size ≤ copyStringWritten ('"' :: (body ++ '"' :: rest')) size + 4 ∧
        copyStringWritten ('"' :: (body ++ '"' :: rest')) size ≤ size := by
    intro size hsize
    rcases Nat.eq_zero_or_pos size with rfl | hpos
    · exact ⟨hzero.1, by omega, hzero.2.le⟩
    · exact (hcopies size hpos).long (by simpa using hsize)
  refine ⟨text, ⟨fun size hsize => ?_, fun size hsize => ?_, fun _ size hsize => ?_, fun hother => absurd htype hother⟩⟩
  · obtain ⟨hcopied, hsum⟩ := (hcopies size (Nat.zero_lt_of_lt hsize)).fits (by simpa using hsize)
    rw [hdecode, hwritten, hcopied, hsum, htype]
    simp
  · rw [hdecode, hwritten, (hlong size hsize).1]
    exact ⟨rfl, (hlong size hsize).2.2⟩
  · rw [hwritten]
    exact (hlong size hsize).2.1

lemma valueText_literal {p : List Char} {len : ℕ} (htype : jsonType p ≠ .string) (hlen : valueLength p = some len) :
    ∃ text, ValueText p text := by
  by_cases hnull : jsonType p = .null
  · have hdecode : ∀ size, decodeValue p size = if size = 0 then none else some ([], .null) := by
      intro size
      rw [decodeValue, hlen]
      simp only [decodeInto, hnull]
      split_ifs <;> rfl
    have hwritten : ∀ size, decodeValueWritten p size = if size = 0 then 0 else 1 := by
      intro size
      simp only [decodeValueWritten, hlen, hnull]
    refine ⟨[], ⟨fun size hsize => ?_, fun size hsize => ?_, fun hstring => absurd hstring htype, fun _ size hsize => ?_⟩⟩
    · have hne : size ≠ 0 := Nat.ne_of_gt hsize
      rw [hdecode, hwritten, if_neg hne, if_neg hne, hnull]
      exact ⟨rfl, rfl⟩
    · obtain rfl : size = 0 := by simpa using hsize
      rw [hdecode, hwritten]
      exact ⟨rfl, le_rfl⟩
    · obtain rfl : size = 0 := by simpa using hsize
      rw [hwritten]
      rfl
  · have hdecode : ∀ size, decodeValue p size = if size < len + 1 then none else some (p.take len, jsonType p) := by
      intro size
      rw [decodeValue, hlen]
      cases htext : jsonType p with
      | string => exact absurd htext htype
      | null => exact absurd htext hnull
      | _ =>
        simp only [decodeInto, htext, copyUnquotedValue, Option.bind_eq_bind, Option.bind_some]
        by_cases hroom : size < len + 1
        · rw [if_pos hroom, if_pos hroom]
          rfl
        · rw [if_neg hroom, if_neg hroom]
          rfl
    have hwritten : ∀ size, decodeValueWritten p size = if size < len + 1 then 0 else len + 1 := by
      intro size
      rw [decodeValueWritten, hlen]
      cases htext : jsonType p with
      | string => exact absurd htext htype
      | null => exact absurd htext hnull
      | _ => rfl
    have hlength : (p.take len).length = len := by
      have hle : len ≤ p.length := by
        unfold valueLength at hlen
        split at hlen
        case h_4 =>
          obtain ⟨r, -, rfl⟩ := Option.map_eq_some_iff.1 hlen
          exact Nat.sub_le _ _
        all_goals cases hlen
      rw [List.length_take, Nat.min_eq_left hle]
    refine ⟨p.take len, ⟨fun size hsize => ?_, fun size hsize => ?_, fun hstring => absurd hstring htype, fun _ size hsize => ?_⟩⟩
    · have hroom : ¬ size < len + 1 := by omega
      rw [hdecode, hwritten, if_neg hroom, if_neg hroom, hlength]
      exact ⟨rfl, rfl⟩
    · have hroom : size < len + 1 := by omega
      rw [hdecode, hwritten, if_pos hroom, if_pos hroom]
      exact ⟨rfl, Nat.zero_le _⟩
    · rw [hwritten, if_pos (by omega)]

lemma valueText_exists {p : List Char} {len : ℕ} (hlen : valueLength p = some len) : ∃ text, ValueText p text := by
  by_cases htype : jsonType p = .string
  · exact valueText_string htype hlen
  · exact valueText_literal htype hlen

lemma decodeValue_none {p : List Char} (hlen : valueLength p = none) (size : ℕ) :
    decodeValue p size = none ∧ decodeValueWritten p size = 0 := by
  constructor
  · rw [decodeValue, hlen]
    rfl
  · rw [decodeValueWritten, hlen]

lemma decodeValueWritten_le (p : List Char) (size : ℕ) : decodeValueWritten p size ≤ size := by
  cases hlen : valueLength p with
  | none => exact (decodeValue_none hlen size).2.trans_le (Nat.zero_le _)
  | some len =>
    obtain ⟨text, htext⟩ := valueText_exists hlen
    by_cases hsize : text.length < size
    · rw [(htext.fits size hsize).2]
      exact hsize
    · exact (htext.long size (not_lt.1 hsize)).2

end

end Glaber.Json
