import Glaber.Common
import Glaber.Lib.Bytes

/-! The functions for UTF-8 texts of `str.c`. A C string is the list of its bytes, without the NUL, and a byte is the
character with its code. -/

namespace Glaber.Str

section

def isContinuation (c : Char) : Bool := c.toNat / 64 % 4 = 2

variable (text : List Char)

def utf8CharLen : ℕ :=
  let c := (text.head?.getD '\x00').toNat
  if c / 128 % 2 = 0 then 1
  else if c / 32 % 8 = 6 then 2
  else if c / 16 % 16 = 14 then 3
  else if c / 8 % 32 = 30 then 4
  else 0

def strlenUtf8 : ℕ := text.countP fun c => !isContinuation c

def strshiftUtf8 : List Char → ℕ → List Char
  | [], _ => []
  | text, 0 => text
  | _ :: text, num + 1 =>
    if isContinuation (text.head?.getD '\x00') then strshiftUtf8 text (num + 1) else strshiftUtf8 text num

def strlenUtf8Nchars : ℕ → List Char → ℕ
  | 0, _ => 0
  | _ + 1, [] => 0
  | utf8Maxlen + 1, text@(_ :: _) =>
    let csz := utf8CharLen text
    if csz = 0 then 0
    else if text.length < csz then 0
    else csz + strlenUtf8Nchars utf8Maxlen (text.drop csz)

def backToStart (text : List Char) : ℕ → ℕ
  | 0 => 0
  | sz + 1 => if isContinuation (text.getD (sz + 1) '\x00') then backToStart text sz else sz + 1

def strlenUtf8Nbytes (maxlen : ℕ) : ℕ :=
  if maxlen < text.length then backToStart text maxlen else text.length

def strlcpyUtf8 (src : List Char) (size : ℕ) : List Char := src.take (strlenUtf8Nbytes src (size - 1))

def replaceMemDyn (data : List Char) (offset szTo : ℕ) (block : List Char) : List Char :=
  data.take offset ++ (block ++ data.drop (offset + szTo))

def utf8ChrNext : List Char := Lib.Letters.next isContinuation text

def utf8ChrPrev (text : List Char) : ℕ → Option ℕ
  | 0 => none
  | n + 1 => if isContinuation (text.getD n '\x00') then utf8ChrPrev text n else some n

def strchrLoop (c : List Char) : ℕ → List Char → Bool
  | 0, _ => false
  | _ + 1, [] => false
  | fuel + 1, seq@(_ :: _) =>
    let len := seq.length - (utf8ChrNext seq).length
    if len = c.length ∧ seq.take len = c then true else strchrLoop c fuel (utf8ChrNext seq)

def strchrUtf8 (seq c : List Char) : Bool :=
  let cLen := utf8CharLen c
  if cLen = 0 then false
  else if cLen = 1 then
    match c with
    | [] => true
    | x :: _ => x ∈ seq
  else if c.length - (utf8ChrNext c).length = cLen then strchrLoop (c.take cLen) (seq.length + 1) seq
  else false

def ltrimUtf8 (charlist : List Char) : ℕ → List Char → List Char
  | 0, text => text
  | _ + 1, [] => []
  | fuel + 1, text@(_ :: _) => if strchrUtf8 charlist text then ltrimUtf8 charlist fuel (utf8ChrNext text) else text

def rtrimLoop (charlist text : List Char) : ℕ → ℕ → ℕ → ℕ
  | 0, last, _ => last
  | fuel + 1, last, prev =>
    if strchrUtf8 charlist (text.drop prev) then
      if prev = 0 then 0
      else match utf8ChrPrev text prev with
        | none => prev
        | some p => rtrimLoop charlist text fuel prev p
    else last

def rtrimUtf8 (charlist text : List Char) : List Char :=
  text.take (rtrimLoop charlist text (text.length + 1) text.length text.length)

def stringReplace (subStr₁ subStr₂ : List Char) : ℕ → List Char → List Char
  | 0, text => text
  | _ + 1, [] => []
  | fuel + 1, c :: text =>
    if subStr₁.isPrefixOf (c :: text) then subStr₂ ++ stringReplace subStr₁ subStr₂ fuel ((c :: text).drop subStr₁.length)
    else c :: stringReplace subStr₁ subStr₂ fuel text

end

section

open Lib.Letters

def encodeChar (c : Char) : List Char := (String.utf8EncodeChar c).map fun b => Char.ofNat b.toNat

variable (text : List Char)

def encode : List Char := text.flatMap encodeChar

lemma toNat_byte (n : ℕ) : (Char.ofNat (UInt8.ofNat n).toNat).toNat = n % 256 := by
  have hlt : n % 256 < 256 := Nat.mod_lt n (by decide)
  have hvalid : (n % 256).isValidChar := .inl (by omega)
  rw [UInt8.toNat_ofNat', Char.ofNat, dif_pos hvalid]
  rfl

lemma encodeChar_cases (c : Char) : ∃ b t, encodeChar c = b :: t ∧ isContinuation b = false ∧
    (∀ d ∈ t, isContinuation d = true) ∧ ∀ rest, utf8CharLen (b :: rest) = t.length + 1 := by
  have hc := c.val.toNat_lt
  unfold encodeChar String.utf8EncodeChar
  generalize c.val.toNat = v at hc
  dsimp only
  split_ifs with h1 h2 h3
  · refine ⟨_, _, rfl, ?_, by simp, fun rest => ?_⟩
    · simp only [isContinuation, toNat_byte, decide_eq_false_iff_not]
      omega
    · simp only [utf8CharLen, List.head?_cons, Option.getD_some, toNat_byte]
      rw [if_pos (by omega)]
      rfl
  · refine ⟨_, _, rfl, ?_, ?_, fun rest => ?_⟩
    · simp only [isContinuation, toNat_byte, decide_eq_false_iff_not]
      omega
    · intro d hd
      obtain rfl : d = _ := List.mem_singleton.1 hd
      simp only [isContinuation, toNat_byte, decide_eq_true_eq]
      omega
    · simp only [utf8CharLen, List.head?_cons, Option.getD_some, toNat_byte]
      rw [if_neg (by omega), if_pos (by omega)]
      rfl
  · refine ⟨_, _, rfl, ?_, ?_, fun rest => ?_⟩
    · simp only [isContinuation, toNat_byte, decide_eq_false_iff_not]
      omega
    · intro d hd
      simp only [List.mem_map, List.mem_cons, List.not_mem_nil, or_false] at hd
      obtain ⟨b, rfl | rfl, rfl⟩ := hd
      all_goals
        simp only [isContinuation, toNat_byte, decide_eq_true_eq]
        omega
    · simp only [utf8CharLen, List.head?_cons, Option.getD_some, toNat_byte]
      rw [if_neg (by omega), if_neg (by omega), if_pos (by omega)]
      rfl
  · refine ⟨_, _, rfl, ?_, ?_, fun rest => ?_⟩
    · simp only [isContinuation, toNat_byte, decide_eq_false_iff_not]
      omega
    · intro d hd
      simp only [List.mem_map, List.mem_cons, List.not_mem_nil, or_false] at hd
      obtain ⟨b, rfl | rfl | rfl, rfl⟩ := hd
      all_goals
        simp only [isContinuation, toNat_byte, decide_eq_true_eq]
        omega
    · simp only [utf8CharLen, List.head?_cons, Option.getD_some, toNat_byte]
      rw [if_neg (by omega), if_neg (by omega), if_neg (by omega), if_pos (by omega)]
      rfl

lemma letter_encodeChar (c : Char) : Letter isContinuation (encodeChar c) := by
  obtain ⟨b, t, hb, hstart, htail, -⟩ := encodeChar_cases c
  exact ⟨b, t, hb, hstart, htail⟩

lemma utf8CharLen_encodeChar (c : Char) (rest : List Char) :
    utf8CharLen (encodeChar c ++ rest) = (encodeChar c).length := by
  obtain ⟨b, t, hb, -, -, hlen⟩ := encodeChar_cases c
  rw [hb, List.cons_append, hlen, List.length_cons]

lemma encode_cons (c : Char) (text : List Char) : encode (c :: text) = encodeChar c ++ encode text := rfl

lemma encode_append (text text' : List Char) : encode (text ++ text') = encode text ++ encode text' :=
  List.flatMap_append

lemma encode_eq_flatten : encode text = (text.map encodeChar).flatten := List.flatMap_def

lemma letters_encode : ∀ w ∈ text.map encodeChar, Letter isContinuation w := by
  intro w hw
  obtain ⟨c, -, rfl⟩ := List.mem_map.1 hw
  exact letter_encodeChar c

lemma head_encode : ∀ b ∈ (encode text).head?, isContinuation b = false := by
  rw [encode_eq_flatten]
  exact head_flatten (letters_encode text)

lemma strlenUtf8_encode : strlenUtf8 (encode text) = text.length := by
  rw [strlenUtf8, encode_eq_flatten, countP_flatten (letters_encode text), List.length_map]

lemma strshiftUtf8_tail {t rest : List Char} (ht : ∀ c ∈ t, isContinuation c = true)
    (hrest : ∀ b ∈ rest.head?, isContinuation b = false) (b : Char) (n : ℕ) :
    strshiftUtf8 (b :: (t ++ rest)) (n + 1) = strshiftUtf8 rest n := by
  induction t generalizing b with
  | nil =>
    have hstart : isContinuation (rest.head?.getD '\x00') = false := by
      cases rest with
      | nil => rfl
      | cons c rest => exact hrest c rfl
    rw [List.nil_append, strshiftUtf8, hstart]
    rfl
  | cons c t ih =>
    rw [strshiftUtf8]
    simp only [List.cons_append, List.head?_cons, Option.getD_some, ht c List.mem_cons_self, if_true]
    exact ih (fun d hd => ht d (List.mem_cons_of_mem c hd)) c

lemma strshiftUtf8_encode (n : ℕ) : strshiftUtf8 (encode text) n = encode (text.drop n) := by
  induction text generalizing n with
  | nil => cases n <;> rfl
  | cons c text ih =>
    cases n with
    | zero =>
      obtain ⟨b, t, hb, -⟩ := letter_encodeChar c
      rw [encode_cons, hb, List.cons_append, strshiftUtf8]
      · rw [List.drop_zero, encode_cons, hb, List.cons_append]
      · simp
    | succ n =>
      obtain ⟨b, t, hb, -, ht⟩ := letter_encodeChar c
      rw [encode_cons, hb, List.cons_append, strshiftUtf8_tail ht (head_encode text), ih, List.drop_succ_cons]

lemma strlenUtf8Nchars_encode (n : ℕ) :
    strlenUtf8Nchars n (encode text) = (encode (text.take n)).length := by
  induction text generalizing n with
  | nil => cases n <;> rfl
  | cons c text ih =>
    cases n with
    | zero => rfl
    | succ n =>
      obtain ⟨b, t, hb, -⟩ := letter_encodeChar c
      have hlen := utf8CharLen_encodeChar c (encode text)
      have hpos : (encodeChar c).length ≠ 0 := by simp [hb]
      have hdrop : (encodeChar c ++ encode text).drop (encodeChar c).length = encode text := List.drop_left
      have hlong : ¬ (encodeChar c ++ encode text).length < (encodeChar c).length := by simp
      rw [List.take_succ_cons, encode_cons, encode_cons, List.length_append, ← ih]
      rw [hb, List.cons_append] at hlen hdrop hlong ⊢
      rw [hb] at hpos
      rw [strlenUtf8Nchars]
      simp only [hlen, if_neg hpos, if_neg hlong, hdrop]

lemma strlcpyUtf8_encode (n : ℕ) :
    strlcpyUtf8 (encode text) (strlenUtf8Nchars n (encode text) + 1) = encode (text.take n) := by
  have hsplit : encode text = encode (text.take n) ++ encode (text.drop n) := by
    rw [← encode_append, List.take_append_drop]
  have hbytes : strlenUtf8Nbytes (encode text) (encode (text.take n)).length = (encode (text.take n)).length := by
    rw [strlenUtf8Nbytes]
    split_ifs with hcut
    · -- the cut falls on the beginning of a character, so the loop stays where it is
      have hstart : isContinuation ((encode text).getD (encode (text.take n)).length '\x00') = false := by
        rw [hsplit, List.getD_eq_getElem?_getD, List.getElem?_append_right le_rfl, Nat.sub_self]
        cases hrest : encode (text.drop n) with
        | nil => rfl
        | cons b rest => exact head_encode (text.drop n) b (by rw [hrest]; rfl)
      cases hlen : (encode (text.take n)).length with
      | zero => rfl
      | succ m =>
        rw [hlen] at hstart
        rw [backToStart, hstart]
        rfl
    · rw [hsplit, List.length_append] at hcut ⊢
      omega
  rw [strlcpyUtf8, Nat.add_sub_cancel, strlenUtf8Nchars_encode, hbytes]
  conv_lhs => rw [hsplit]
  exact List.take_left

lemma byte_injective : Function.Injective fun b : UInt8 => Char.ofNat b.toNat := by
  intro a b h
  have hnat := congrArg Char.toNat h
  have hbyte (b : UInt8) : (Char.ofNat b.toNat).toNat = b.toNat := by
    have hmod := toNat_byte b.toNat
    rwa [UInt8.ofNat_toNat, Nat.mod_eq_of_lt b.toNat_lt] at hmod
  rw [hbyte, hbyte] at hnat
  exact UInt8.toNat_inj.1 hnat

lemma encodeChar_append_inj {c d : Char} {rest rest' : List Char} (h : encodeChar c ++ rest = encodeChar d ++ rest') :
    c = d ∧ rest = rest' := by
  have hlength : (encodeChar c).length = (encodeChar d).length := by
    rw [← utf8CharLen_encodeChar c rest, h, utf8CharLen_encodeChar]
  obtain ⟨hbytes, hrest⟩ := List.append_inj h hlength
  have hencoded : String.utf8EncodeChar c = String.utf8EncodeChar d := (List.map_injective_iff.2 byte_injective) hbytes
  have hc := ByteArray.utf8DecodeChar?_utf8EncodeChar_append (b := ByteArray.empty) (c := c)
  rw [hencoded, ByteArray.utf8DecodeChar?_utf8EncodeChar_append] at hc
  exact ⟨(Option.some.inj hc).symm, hrest⟩

lemma encodeChar_injective : Function.Injective encodeChar := by
  intro c d h
  exact (encodeChar_append_inj (congrArg (· ++ []) h)).1

lemma encode_injective : Function.Injective encode := by
  intro text text' h
  induction text generalizing text' with
  | nil =>
    cases text' with
    | nil => rfl
    | cons d text' =>
      obtain ⟨b, t, hb, -⟩ := letter_encodeChar d
      rw [encode_cons, hb] at h
      cases h
  | cons c text ih =>
    cases text' with
    | nil =>
      obtain ⟨b, t, hb, -⟩ := letter_encodeChar c
      rw [encode_cons, hb] at h
      cases h
    | cons d text' =>
      obtain ⟨rfl, hrest⟩ := encodeChar_append_inj h
      rw [ih hrest]

lemma encodeChar_ascii {c : Char} (hc : c.toNat < 128) : encodeChar c = [c] := by
  have hsmall : c.val.toNat ≤ 127 := Nat.le_of_lt_succ hc
  rw [encodeChar, String.utf8EncodeChar, if_pos hsmall, List.map_singleton]
  have hbyte : (Char.ofNat (UInt8.ofNat c.val.toNat).toNat).toNat = c.toNat := by
    rw [toNat_byte, Nat.mod_eq_of_lt (by omega)]
    rfl
  rw [Char.toNat_inj.1 hbyte]

lemma head_encodeChar_ascii {c a : Char} (ha : a.toNat < 128) (rest : List Char) :
    (encodeChar c ++ rest).head? = some a ↔ c = a := by
  constructor
  · intro h
    obtain ⟨b, t, hb, -, -, hlen⟩ := encodeChar_cases c
    rw [hb, List.cons_append, List.head?_cons] at h
    obtain rfl := Option.some.inj h
    have hone := hlen []
    rw [utf8CharLen, List.head?_cons, Option.getD_some, if_pos (by omega)] at hone
    obtain rfl : t = [] := List.eq_nil_of_length_eq_zero (by omega)
    rw [← encodeChar_ascii ha] at hb
    exact encodeChar_injective hb
  · rintro rfl
    rw [encodeChar_ascii ha]
    rfl

lemma ascii_not_mem_encodeChar {c a : Char} (ha : a.toNat < 128) (hne : c ≠ a) : a ∉ encodeChar c := by
  obtain ⟨b, t, hb, -, htail, -⟩ := encodeChar_cases c
  rw [hb]
  intro hmem
  rcases List.mem_cons.1 hmem with rfl | hmem
  · apply hne
    rw [← head_encodeChar_ascii ha [], hb]
    rfl
  · have hcontinues := htail _ hmem
    simp only [isContinuation, decide_eq_true_eq] at hcontinues
    omega

lemma ascii_not_mem_encode {text : List Char} {a : Char} (ha : a.toNat < 128) (hno : a ∉ text) : a ∉ encode text := by
  intro hmem
  obtain ⟨c, hc, hbyte⟩ := List.mem_flatMap.1 hmem
  exact ascii_not_mem_encodeChar ha (fun heq => hno (heq ▸ hc)) hbyte

end

end Glaber.Str
