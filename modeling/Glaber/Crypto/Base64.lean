import Glaber.Lib.Bytes

/-! Base64 texts (`base64.c`): the encoder that works block by block and the decoder. -/

namespace Glaber.Crypto

open Lib.Bytes

section

def maxB64Len : ℕ := 16 * 1024

def isBase64 (c : UInt8) : Bool :=
  ( 'A'.toUInt8 ≤ c && c ≤ 'Z'.toUInt8) || ( 'a'.toUInt8 ≤ c && c ≤ 'z'.toUInt8) ||
    ( '0'.toUInt8 ≤ c && c ≤ '9'.toUInt8) || c == '+'.toUInt8 || c == '/'.toUInt8 || c == '='.toUInt8

def base64Set : List UInt8 :=
  "ABCDEFGHIJKLMNOPQRSTUVWXYZabcdefghijklmnopqrstuvwxyz0123456789+/".toList.map Char.toUInt8

def charBase64Encode (uc : UInt8) : UInt8 := base64Set.getD uc.toNat 0

def charBase64Decode (c : UInt8) : UInt8 :=
  if 'A'.toUInt8 ≤ c ∧ c ≤ 'Z'.toUInt8 then c - 'A'.toUInt8
  else if 'a'.toUInt8 ≤ c ∧ c ≤ 'z'.toUInt8 then c - 'a'.toUInt8 + 26
  else if '0'.toUInt8 ≤ c ∧ c ≤ '9'.toUInt8 then c - '0'.toUInt8 + 52
  else if c = '+'.toUInt8 then 62
  else 63

def to1 (from1 : UInt8) : UInt8 := (from1 >>> 2) &&& 0x3f

def to2 (from1 from2 : UInt8) : UInt8 := ((from1 &&& 0x3) <<< 4) ||| (from2 >>> 4)

def to3 (from2 from3 : UInt8) : UInt8 := ((from2 &&& 0xf) <<< 2) ||| (from3 >>> 6)

def to4 (from3 : UInt8) : UInt8 := from3 &&& 0x3f

def encodeLoop (str : Memory) (inSize i : ℕ) (b64str : Memory) (off p : ℕ) : Memory × ℕ :=
  if i < inSize then
    if p > maxB64Len - 5 then (b64str, p)
    else
      let from1 := str i
      let from2 := if i + 1 < inSize then str (i + 1) else 0
      let from3 := if i + 2 < inSize then str (i + 2) else 0
      let chars := [charBase64Encode (to1 from1), charBase64Encode (to2 from1 from2),
        if i + 1 < inSize then charBase64Encode (to3 from2 from3) else '='.toUInt8,
        if i + 2 < inSize then charBase64Encode (to4 from3) else '='.toUInt8]
      encodeLoop str inSize (i + 3) (write b64str (off + p) chars) off (p + 4)
  else (b64str, p)
termination_by inSize - i

def strBase64Encode (str b64str : Memory) (off inSize : ℕ) : Memory :=
  if inSize = 0 then b64str
  else
    let (b64str, p) := encodeLoop str inSize 0 b64str off 0
    write b64str (off + p) [0]

def cPerBlock : ℕ := (maxB64Len - 1) / 4 * 3

def bPerBlock : ℕ := cPerBlock / 3 * 4

def encodeBlocks (str : Memory) : ℕ → Memory → ℕ → ℕ → Memory × ℕ × ℕ
  | 0, b64str, pc, pcR => (b64str, pc, pcR)
  | fullBlockNum + 1, b64str, pc, pcR =>
    encodeBlocks str fullBlockNum (strBase64Encode (fun k => str (pc + k)) b64str pcR cPerBlock) (pc + cPerBlock)
      (pcR + bPerBlock)

def intOf (n : ℕ) : Option ℕ := if n < 2 ^ 31 then some n else none

structure Block where
  data : Memory
  size : ℕ

def Block.bytes (block : Block) : List UInt8 := (List.range block.size).map block.data

def strBase64EncodeDyn (fresh str : Memory) (inSize : ℕ) : Option Block := do
  let rounded ← intOf (inSize + 2)
  let size ← intOf (rounded / 3 * 4 + 1)
  let fullBlockNum := inSize / cPerBlock
  let bytesLeft := inSize % cPerBlock
  let bytesForLeft := (bytesLeft + 2) / 3 * 4
  let (b64str, pc, pcR) := encodeBlocks str fullBlockNum fresh 0 0
  let (b64str, pcR) :=
    if bytesLeft ≠ 0 then (strBase64Encode (fun k => str (pc + k)) b64str pcR bytesLeft, pcR + bytesForLeft)
    else (b64str, pcR)
  return ⟨write b64str pcR [0], size⟩

structure Decoded where
  str : Memory
  outSize : ℕ
  full : Bool

def Decoded.put (maxsize : ℕ) (available : Bool) (b : UInt8) (out : Decoded) : Decoded :=
  if out.full then out
  else if available then ⟨write out.str out.outSize [b], out.outSize + 1, out.outSize + 1 == maxsize⟩
  else out

def decodeBlock (maxsize : ℕ) (chars : ℕ → UInt8) (lasti : ℕ) (out : Decoded) : Decoded :=
  let value := fun j => charBase64Decode (chars j)
  let out := out.put maxsize (1 ≤ lasti) ((value 0 <<< 2) ||| (value 1 >>> 4))
  let out := out.put maxsize (2 ≤ lasti && chars 2 != '='.toUInt8) (((value 1 &&& 0xf) <<< 4) ||| (value 2 >>> 2))
  out.put maxsize (lasti == 3 && chars 3 != '='.toUInt8) (((value 2 &&& 0x3) <<< 6) ||| value 3)

/-- The loop of `str_base64_decode` over the rest of the memory that holds the text; nothing when it runs out of it. The
index of the last filled-in element of `from` is none while there is none. -/
def decodeLoop (maxsize : ℕ) : List UInt8 → (ℕ → UInt8) → ℕ → Option ℕ → Decoded → Option Decoded
  | [], _, _, _, _ => none
  | c :: text, chars, i, lasti, out =>
    if c ≠ 0 then
      if isBase64 c then
        let chars := Function.update chars i c
        if i < 3 then decodeLoop maxsize text chars (i + 1) (some i) out
        else
          let out := decodeBlock maxsize chars i out
          if out.full then some out else decodeLoop maxsize text chars 0 none out
      else decodeLoop maxsize text chars i lasti out
    else
      match lasti with
      | none => some out
      | some lasti => some (decodeBlock maxsize (fun j => if lasti < j then 'A'.toUInt8 else chars j) lasti out)

def strBase64Decode (chars : ℕ → UInt8) (b64str : List UInt8) (str : Memory) (maxsize : ℕ) : Option (Memory × ℕ) :=
  (decodeLoop maxsize b64str chars 0 none ⟨str, 0, false⟩).map fun out => (out.str, out.outSize)

end

section

lemma charBase64Decode_encode {v : UInt8} (hv : v < 64) : charBase64Decode (charBase64Encode v) = v := by
  have h : ∀ k : Fin 64, charBase64Decode (charBase64Encode (UInt8.ofNat k)) = UInt8.ofNat k := by decide +kernel
  have hk := h ⟨v.toNat, hv⟩
  rwa [UInt8.ofNat_toNat] at hk

lemma charBase64Encode_isBase64 {v : UInt8} (hv : v < 64) :
    isBase64 (charBase64Encode v) = true ∧ charBase64Encode v ≠ 0 ∧ charBase64Encode v ≠ '='.toUInt8 := by
  have h : ∀ k : Fin 64, isBase64 (charBase64Encode (UInt8.ofNat k)) = true ∧ charBase64Encode (UInt8.ofNat k) ≠ 0 ∧
      charBase64Encode (UInt8.ofNat k) ≠ '='.toUInt8 := by decide +kernel
  have hk := h ⟨v.toNat, hv⟩
  rwa [UInt8.ofNat_toNat] at hk

end

section

variable (a b c : UInt8)

lemma and_lt : a &&& 0x3f < 64 := by
  rw [UInt8.lt_iff_toNat_lt, UInt8.toNat_and]
  exact Nat.lt_of_le_of_lt Nat.and_le_right (by decide)

lemma to1_lt : to1 a < 64 := and_lt _

lemma to2_lt : to2 a b < 64 := by
  have h : to2 a b &&& 0x3f = to2 a b := by
    apply UInt8.eq_of_toBitVec_eq
    ext i hi
    simp [to2]
    interval_cases i <;> simp
  exact h ▸ and_lt _

lemma to3_lt : to3 b c < 64 := by
  have h : to3 b c &&& 0x3f = to3 b c := by
    apply UInt8.eq_of_toBitVec_eq
    ext i hi
    simp [to3]
    interval_cases i <;> simp
  exact h ▸ and_lt _

lemma to4_lt : to4 c < 64 := and_lt _

lemma first_byte : (to1 a <<< 2) ||| (to2 a b >>> 4) = a := by
  apply UInt8.eq_of_toBitVec_eq
  ext i hi
  simp [to1, to2]
  interval_cases i <;> simp

lemma second_byte : ((to2 a b &&& 0xf) <<< 4) ||| (to3 b c >>> 2) = b := by
  apply UInt8.eq_of_toBitVec_eq
  ext i hi
  simp [to3, to2]
  interval_cases i <;> simp

lemma third_byte : ((to3 b c &&& 0x3) <<< 6) ||| to4 c = c := by
  apply UInt8.eq_of_toBitVec_eq
  ext i hi
  simp [to3, to4]
  interval_cases i <;> simp

end

section

def encodeText : List UInt8 → List UInt8
  | [] => []
  | [a] => [charBase64Encode (to1 a), charBase64Encode (to2 a 0), '='.toUInt8, '='.toUInt8]
  | [a, b] => [charBase64Encode (to1 a), charBase64Encode (to2 a b), charBase64Encode (to3 b 0), '='.toUInt8]
  | a :: b :: c :: bytes =>
    charBase64Encode (to1 a) :: charBase64Encode (to2 a b) :: charBase64Encode (to3 b c) :: charBase64Encode (to4 c) ::
      encodeText bytes

lemma encodeText_length (bytes : List UInt8) : (encodeText bytes).length = (bytes.length + 2) / 3 * 4 := by
  induction bytes using encodeText.induct with
  | case1 => rfl
  | case2 a => simp [encodeText]
  | case3 a b => simp [encodeText]
  | case4 a b c bytes ih =>
    simp only [encodeText, List.length_cons, ih]
    omega

lemma encodeText_append {bytes : List UInt8} (hlen : 3 ∣ bytes.length) (bytes' : List UInt8) :
    encodeText (bytes ++ bytes') = encodeText bytes ++ encodeText bytes' := by
  induction bytes using encodeText.induct with
  | case1 => rfl
  | case2 a => exact absurd hlen (by simp)
  | case3 a b => exact absurd hlen (by simp)
  | case4 a b c bytes ih =>
    have hrest : 3 ∣ bytes.length := by
      simp only [List.length_cons] at hlen
      omega
    simp only [List.cons_append, encodeText, ih hrest]

variable {str : Memory}

lemma encodeLoop_eq {inSize off : ℕ} (bytes : List UInt8) {i p : ℕ} {b64str : Memory} (hstr : Holds str i bytes)
    (hsize : inSize = i + bytes.length) (hp : p + (encodeText bytes).length < maxB64Len) :
    encodeLoop str inSize i b64str off p =
      (write b64str (off + p) (encodeText bytes), p + (encodeText bytes).length) := by
  induction bytes using encodeText.induct generalizing i p b64str with
  | case1 =>
    rw [encodeLoop, if_neg (by simp [hsize]), encodeText, write_nil]
    rfl
  | case2 a =>
    have ha : str i = a := hstr 0 a rfl
    rw [encodeText, List.length_cons, List.length_cons] at hp
    simp only [List.length_cons, List.length_nil] at hsize hp
    rw [encodeLoop, if_pos (by omega), if_neg (by omega), if_neg (by omega), if_neg (by omega), encodeLoop,
      if_neg (by omega), ha, if_neg (by omega), if_neg (by omega)]
    rfl
  | case3 a b =>
    have ha : str i = a := hstr 0 a rfl
    have hb : str (i + 1) = b := hstr 1 b rfl
    rw [encodeText, List.length_cons, List.length_cons] at hp
    simp only [List.length_cons, List.length_nil] at hsize hp
    rw [encodeLoop, if_pos (by omega), if_neg (by omega), if_pos (by omega), if_neg (by omega), encodeLoop,
      if_neg (by omega), ha, hb, if_pos (by omega), if_neg (by omega)]
    rfl
  | case4 a b c bytes ih =>
    have ha : str i = a := hstr 0 a rfl
    have hb : str (i + 1) = b := hstr 1 b rfl
    have hc : str (i + 2) = c := hstr 2 c rfl
    have hrest : Holds str (i + 3) bytes := by
      intro k x hx
      rw [Nat.add_assoc, Nat.add_comm 3]
      exact hstr (k + 3) x hx
    simp only [encodeText, List.length_cons] at hsize hp ⊢
    rw [encodeLoop, if_pos (by omega), if_neg (by omega), if_pos (by omega), if_pos (by omega), ha, hb, hc,
      ih hrest (by omega) (by omega), if_pos (by omega), if_pos (by omega)]
    refine Prod.ext ?_ (by simp only; omega)
    exact write_append b64str (off + p) [_, _, _, _] (encodeText bytes)

lemma strBase64Encode_eq {bytes : List UInt8} (hstr : Holds str 0 bytes) (hne : bytes ≠ [])
    (hlen : (encodeText bytes).length < maxB64Len) (b64str : Memory) (off : ℕ) :
    strBase64Encode str b64str off bytes.length = write b64str off (encodeText bytes ++ [0]) := by
  have hpos := List.length_pos_of_ne_nil hne
  rw [strBase64Encode, if_neg (by omega), encodeLoop_eq bytes hstr (Nat.zero_add _).symm (by omega)]
  simp only [Nat.add_zero, Nat.zero_add]
  exact write_append b64str off (encodeText bytes) [0]

lemma encodeBlocks_write {n : ℕ} {bytes last : List UInt8} (hlast : last ≠ []) {pc pcR : ℕ} {b64str : Memory}
    (hstr : Holds str pc bytes) (hlen : bytes.length = n * cPerBlock) :
    (encodeBlocks str n b64str pc pcR).2 = (pc + n * cPerBlock, pcR + n * bPerBlock) ∧
      write (encodeBlocks str n b64str pc pcR).1 (pcR + n * bPerBlock) last =
        write b64str pcR (encodeText bytes ++ last) := by
  induction n generalizing bytes pc pcR b64str with
  | zero =>
    obtain rfl := List.length_eq_zero_iff.mp (hlen.trans (Nat.zero_mul _))
    simp [encodeBlocks, encodeText]
  | succ n ih =>
    have hblock : (bytes.take cPerBlock).length = cPerBlock := by
      rw [List.length_take, hlen, Nat.min_eq_left (Nat.le_mul_of_pos_left _ n.succ_pos)]
    have hb : (encodeText (bytes.take cPerBlock)).length = bPerBlock := by
      rw [encodeText_length, hblock]
      rfl
    obtain ⟨hpc, hwrite⟩ := @ih (bytes.drop cPerBlock) (pc + cPerBlock) (pcR + bPerBlock)
      (write b64str pcR (encodeText (bytes.take cPerBlock) ++ [0])) (hstr.drop cPerBlock)
      (by rw [List.length_drop, hlen, Nat.succ_mul, Nat.add_sub_cancel])
    have henc : strBase64Encode (fun k => str (pc + k)) b64str pcR cPerBlock =
        write b64str pcR (encodeText (bytes.take cPerBlock) ++ [0]) := by
      have h := strBase64Encode_eq (hstr.take cPerBlock).shift (List.ne_nil_of_length_pos (by rw [hblock]; decide))
        (by rw [hb]; decide) b64str pcR
      rwa [hblock] at h
    have hsum (m : ℕ) : (n + 1) * m = m + n * m := by rw [Nat.succ_mul, Nat.add_comm]
    rw [encodeBlocks, henc, hsum, hsum, ← Nat.add_assoc, ← Nat.add_assoc]
    refine ⟨hpc, hwrite.trans ?_⟩
    have hdiv : 3 ∣ (bytes.take cPerBlock).length := by rw [hblock]; decide
    rw [← hb, write_over _ _ (by simp; exact List.length_pos_of_ne_nil hlast |> Nat.le_add_left_of_le),
      ← List.append_assoc, ← encodeText_append hdiv, List.take_append_drop]

lemma strBase64EncodeDyn_eq {bytes : List UInt8} (hn : bytes.length < 2 ^ 30) (hstr : Holds str 0 bytes) (fresh : Memory) :
    strBase64EncodeDyn fresh str bytes.length =
      some ⟨write fresh 0 (encodeText bytes ++ [0]), (encodeText bytes).length + 1⟩ := by
  have hrounded : intOf (bytes.length + 2) = some (bytes.length + 2) := if_pos (by omega)
  have hsize : intOf ((bytes.length + 2) / 3 * 4 + 1) = some ((encodeText bytes).length + 1) := by
    rw [encodeText_length]
    exact if_pos (by omega)
  have hdiv : bytes.length / cPerBlock * cPerBlock ≤ bytes.length := Nat.div_mul_le_self _ _
  set n := bytes.length / cPerBlock with hnd
  have hhead : (bytes.take (n * cPerBlock)).length = n * cPerBlock := by rw [List.length_take, Nat.min_eq_left hdiv]
  have hthree : 3 ∣ (bytes.take (n * cPerBlock)).length := by
    rw [hhead]
    exact Dvd.dvd.mul_left (by decide) n
  have htail : (bytes.drop (n * cPerBlock)).length = bytes.length % cPerBlock := by
    rw [List.length_drop, hnd, Nat.mod_eq_sub_div_mul]
  have htext : encodeText bytes = encodeText (bytes.take (n * cPerBlock)) ++ encodeText (bytes.drop (n * cPerBlock)) := by
    rw [← encodeText_append hthree, List.take_append_drop]
  have hpcR : (encodeText (bytes.take (n * cPerBlock))).length = n * bPerBlock := by
    rw [encodeText_length, hhead]
    simp only [cPerBlock, bPerBlock, maxB64Len]
    omega
  have hblocks {last : List UInt8} (hlast : last ≠ []) :=
    @encodeBlocks_write str n _ last hlast 0 0 fresh (hstr.take (n * cPerBlock)) hhead
  simp only [strBase64EncodeDyn, hrounded, Option.bind_eq_bind, Option.bind_some, hsize]
  rw [← hnd]
  generalize hres : encodeBlocks str n fresh 0 0 = res at hblocks
  obtain ⟨b64str, pc, pcR⟩ := res
  have hptr := (hblocks (List.cons_ne_nil (0 : UInt8) [])).1
  simp only [Nat.zero_add, Prod.mk.injEq] at hptr hblocks
  obtain ⟨rfl, rfl⟩ := hptr
  simp only [true_and] at hblocks
  split_ifs with hleft
  · have hne : bytes.drop (n * cPerBlock) ≠ [] := List.ne_nil_of_length_pos (by omega)
    have hstop : (encodeText (bytes.drop (n * cPerBlock))).length = (bytes.length % cPerBlock + 2) / 3 * 4 := by
      rw [encodeText_length, htail]
    have hlt : bytes.length % cPerBlock < cPerBlock := Nat.mod_lt _ (by decide)
    have henc := strBase64Encode_eq (Nat.zero_add (n * cPerBlock) ▸ hstr.drop (n * cPerBlock)).shift hne
      (by rw [hstop]; simp only [cPerBlock, maxB64Len] at hlt ⊢; omega) b64str (n * bPerBlock)
    rw [← htail, henc, hblocks (by simp), htail, ← hstop, ← List.append_assoc, ← htext]
    have hend : n * bPerBlock + (encodeText (bytes.drop (n * cPerBlock))).length = 0 + (encodeText bytes).length := by
      rw [htext, List.length_append, hpcR, Nat.zero_add]
    have hover := @write_over fresh 0 (encodeText bytes) [0] [0] le_rfl
    simp only [hend, hover]
    rfl
  · have hnil : bytes.drop (n * cPerBlock) = [] := List.eq_nil_of_length_eq_zero (by omega)
    have hall : encodeText (bytes.take (n * cPerBlock)) = encodeText bytes := by
      rw [htext, hnil]
      simp [encodeText]
    simp only [hblocks (List.cons_ne_nil (0 : UInt8) []), hall]
    rfl

end

section

variable {maxsize : ℕ} {chars : ℕ → UInt8}

lemma put_available {data : Memory} {off : ℕ} (hroom : off + 1 < maxsize) (b : UInt8) :
    Decoded.put maxsize true b ⟨data, off, false⟩ = ⟨write data off [b], off + 1, false⟩ := by
  rw [Decoded.put]
  simp only [Bool.false_eq_true, if_false, if_true, beq_eq_false_iff_ne.mpr hroom.ne]

lemma put_missing (b : UInt8) (out : Decoded) : out.put maxsize false b = out := by simp [Decoded.put]

def TextChar (c : UInt8) : Prop := c ≠ 0 ∧ isBase64 c = true

lemma textChar_encode {v : UInt8} (hv : v < 64) : TextChar (charBase64Encode v) :=
  have h := charBase64Encode_isBase64 hv
  ⟨h.2.1, h.1⟩

lemma textChar_padding : TextChar '='.toUInt8 := ⟨by decide, by decide⟩

lemma decodeLoop_collect {c : UInt8} (hc : TextChar c) {i : ℕ} (hi : i < 3) (text : List UInt8) (lasti : Option ℕ)
    (out : Decoded) :
    decodeLoop maxsize (c :: text) chars i lasti out =
      decodeLoop maxsize text (Function.update chars i c) (i + 1) (some i) out := by
  rw [decodeLoop.eq_def]
  simp only [if_pos hc.1, if_pos hc.2, if_pos hi]

lemma decodeLoop_four {c₀ c₁ c₂ c₃ : UInt8} (h₀ : TextChar c₀) (h₁ : TextChar c₁) (h₂ : TextChar c₂) (h₃ : TextChar c₃)
    (chars : ℕ → UInt8) (text : List UInt8) (out : Decoded) :
    ∃ chars', chars' 0 = c₀ ∧ chars' 1 = c₁ ∧ chars' 2 = c₂ ∧ chars' 3 = c₃ ∧
      ((decodeBlock maxsize chars' 3 out).full = false →
        decodeLoop maxsize (c₀ :: c₁ :: c₂ :: c₃ :: text) chars 0 none out =
          decodeLoop maxsize text chars' 0 none (decodeBlock maxsize chars' 3 out)) := by
  refine ⟨Function.update (Function.update (Function.update (Function.update chars 0 c₀) 1 c₁) 2 c₂) 3 c₃, ?_, ?_, ?_, ?_,
    fun hfull => ?_⟩
  · simp
  · simp
  · simp
  · simp
  · rw [decodeLoop_collect h₀ (by decide), decodeLoop_collect h₁ (by decide), decodeLoop_collect h₂ (by decide), decodeLoop,
      if_pos h₃.1, if_pos h₃.2, if_neg (by decide)]
    simp only [hfull, Bool.false_eq_true, if_false]

variable {a b c : UInt8} {data : Memory} {off : ℕ}

lemma decodeBlock_one (h₀ : chars 0 = charBase64Encode (to1 a)) (h₁ : chars 1 = charBase64Encode (to2 a 0))
    (h₂ : chars 2 = '='.toUInt8) (h₃ : chars 3 = '='.toUInt8) (hroom : off + 1 < maxsize) :
    decodeBlock maxsize chars 3 ⟨data, off, false⟩ = ⟨write data off [a], off + 1, false⟩ := by
  simp only [decodeBlock, h₀, h₁, h₂, h₃, charBase64Decode_encode (to1_lt a), charBase64Decode_encode (to2_lt a 0),
    first_byte, bne_self_eq_false, Bool.and_false, put_missing]
  exact put_available hroom a

lemma decodeBlock_two (h₀ : chars 0 = charBase64Encode (to1 a)) (h₁ : chars 1 = charBase64Encode (to2 a b))
    (h₂ : chars 2 = charBase64Encode (to3 b 0)) (h₃ : chars 3 = '='.toUInt8) (hroom : off + 2 < maxsize) :
    decodeBlock maxsize chars 3 ⟨data, off, false⟩ = ⟨write data off [a, b], off + 2, false⟩ := by
  have hpad := bne_iff_ne.mpr (charBase64Encode_isBase64 (to3_lt b 0)).2.2
  simp only [decodeBlock, h₀, h₁, h₂, h₃, charBase64Decode_encode (to1_lt a), charBase64Decode_encode (to2_lt a b),
    charBase64Decode_encode (to3_lt b 0), first_byte, second_byte, hpad, bne_self_eq_false, Bool.and_false, put_missing]
  change (Decoded.put maxsize true a ⟨data, off, false⟩).put maxsize true b = _
  have hroom₁ : off + 1 < maxsize := by omega
  rw [put_available hroom₁, put_available hroom]
  exact congrArg (Decoded.mk · _ _) (write_append data off [a] [b])

lemma decodeBlock_three (h₀ : chars 0 = charBase64Encode (to1 a)) (h₁ : chars 1 = charBase64Encode (to2 a b))
    (h₂ : chars 2 = charBase64Encode (to3 b c)) (h₃ : chars 3 = charBase64Encode (to4 c)) (hroom : off + 3 < maxsize) :
    decodeBlock maxsize chars 3 ⟨data, off, false⟩ = ⟨write data off [a, b, c], off + 3, false⟩ := by
  have hpad₂ := bne_iff_ne.mpr (charBase64Encode_isBase64 (to3_lt b c)).2.2
  have hpad₃ := bne_iff_ne.mpr (charBase64Encode_isBase64 (to4_lt c)).2.2
  simp only [decodeBlock, h₀, h₁, h₂, h₃, charBase64Decode_encode (to1_lt a), charBase64Decode_encode (to2_lt a b),
    charBase64Decode_encode (to3_lt b c), charBase64Decode_encode (to4_lt c), first_byte, second_byte, third_byte, hpad₂,
    hpad₃]
  change ((Decoded.put maxsize true a ⟨data, off, false⟩).put maxsize true b).put maxsize true c = _
  have hroom₁ : off + 1 < maxsize := by omega
  have hroom₂ : off + 1 + 1 < maxsize := by omega
  rw [put_available hroom₁, put_available hroom₂, put_available hroom]
  have hab : write (write data off [a]) (off + 1) [b] = write data off [a, b] := write_append data off [a] [b]
  rw [hab]
  exact congrArg (Decoded.mk · _ _) (write_append data off [a, b] [c])

lemma decodeLoop_text (bytes rest : List UInt8) (hroom : off + bytes.length < maxsize) :
    decodeLoop maxsize (encodeText bytes ++ 0 :: rest) chars 0 none ⟨data, off, false⟩ =
      some ⟨write data off bytes, off + bytes.length, false⟩ := by
  induction bytes using encodeText.induct generalizing off data chars with
  | case1 => simp [encodeText, decodeLoop, write_nil]
  | case2 a =>
    obtain ⟨chars', e₀, e₁, e₂, e₃, hnext⟩ := decodeLoop_four (textChar_encode (to1_lt a)) (textChar_encode (to2_lt a 0))
      textChar_padding textChar_padding chars (0 :: rest) ⟨data, off, false⟩
    rw [decodeBlock_one e₀ e₁ e₂ e₃ hroom] at hnext
    rw [encodeText]
    exact (hnext rfl).trans (by simp [decodeLoop])
  | case3 a b =>
    obtain ⟨chars', e₀, e₁, e₂, e₃, hnext⟩ := decodeLoop_four (textChar_encode (to1_lt a)) (textChar_encode (to2_lt a b))
      (textChar_encode (to3_lt b 0)) textChar_padding chars (0 :: rest) ⟨data, off, false⟩
    rw [decodeBlock_two e₀ e₁ e₂ e₃ hroom] at hnext
    rw [encodeText]
    exact (hnext rfl).trans (by simp [decodeLoop])
  | case4 a b c bytes ih =>
    simp only [List.length_cons] at hroom
    obtain ⟨chars', e₀, e₁, e₂, e₃, hnext⟩ := decodeLoop_four (textChar_encode (to1_lt a)) (textChar_encode (to2_lt a b))
      (textChar_encode (to3_lt b c)) (textChar_encode (to4_lt c)) chars (encodeText bytes ++ 0 :: rest) ⟨data, off, false⟩
    have hroom₃ : off + 3 < maxsize := by omega
    rw [decodeBlock_three e₀ e₁ e₂ e₃ hroom₃] at hnext
    refine (hnext rfl).trans ?_
    have hwrite : write (write data off [a, b, c]) (off + 3) bytes = write data off (a :: b :: c :: bytes) :=
      write_append data off [a, b, c] bytes
    rw [ih (by omega), hwrite]
    simp only [List.length_cons]
    congr 2
    omega

end

section

lemma bytes_write {text : List UInt8} (fresh : Memory) : (Block.mk (write fresh 0 text) text.length).bytes = text := by
  refine List.ext_getElem (by simp [Block.bytes]) fun k _ hk => ?_
  have h := holds_write fresh 0 text k _ (List.getElem?_eq_getElem hk)
  rw [Nat.zero_add] at h
  simp [Block.bytes, h]

theorem decode_encode_dyn {bytes : List UInt8} (hn : bytes.length < 2 ^ 30) {str : Memory} (hstr : Holds str 0 bytes)
    {maxsize : ℕ} (hmax : bytes.length + 1 ≤ maxsize) (fresh buffer : Memory) (chars : ℕ → UInt8) :
    ∃ block, strBase64EncodeDyn fresh str bytes.length = some block ∧
      ∃ out, strBase64Decode chars block.bytes buffer maxsize = some (out, bytes.length) ∧ Holds out 0 bytes ∧
        ∀ k, bytes.length ≤ k → out k = buffer k := by
  refine ⟨_, strBase64EncodeDyn_eq hn hstr fresh, write buffer 0 bytes, ?_, holds_write buffer 0 bytes, fun k hk => ?_⟩
  · have hlen : (encodeText bytes).length + 1 = (encodeText bytes ++ [0]).length := by simp
    rw [hlen, bytes_write, strBase64Decode, decodeLoop_text bytes [] (by omega)]
    simp
  · exact write_outside (.inr (by omega))

theorem decode_encode_dyn_four :
    ∃ block, strBase64EncodeDyn (fun _ => 7) (write (fun _ => 0) 0 [1, 0, 255, 61]) 4 = some block ∧
      ∃ out, strBase64Decode (fun _ => 9) block.bytes (fun _ => 3) 5 = some (out, 4) ∧ Holds out 0 [1, 0, 255, 61] ∧
        ∀ k, 4 ≤ k → out k = 3 :=
  decode_encode_dyn (by decide) (holds_write (fun _ => 0) 0 [1, 0, 255, 61]) (by decide) (fun _ => 7) (fun _ => 3) fun _ => 9

end

end Glaber.Crypto
