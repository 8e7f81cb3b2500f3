import Glaber.Eval.Serialize
import Mathlib.Data.Nat.Bitwise

namespace Glaber.Eval

open Glaber.Lib.Bytes

section

def lead (pos high : ℕ) : UInt8 := UInt8.ofNat (high ||| 0xfe <<< (pos + 1))

def addMarked (value : ℕ) (b : UInt8) : ℕ := value <<< 6 % 2 ^ 32 ||| b.toNat &&& 0x3f

lemma readMarked_append (value : ℕ) (marked rest : List UInt8) :
    readMarked marked.length value (marked ++ rest) = some (marked.foldl addMarked value, rest) := by
  induction marked generalizing value with
  | nil => rfl
  | cons b marked ih => exact ih (addMarked value b)

lemma addMarked_digit {high value : ℕ} (hv : value < 2 ^ 32) (hh : high = value / 64) :
    addMarked high (UInt8.ofNat (0x80 ||| value &&& 0x3f)) = value := by
  have hand : value &&& 0x3f = value % 64 := Nat.and_two_pow_sub_one_eq_mod value 6
  have hlt : value % 64 < 2 ^ 7 := by omega
  have hor : 0x80 ||| value % 64 = 2 ^ 7 * 1 + value % 64 := (Nat.two_pow_add_eq_or_of_lt hlt 1).symm
  have hbyte : (UInt8.ofNat (0x80 ||| value &&& 0x3f)).toNat = 128 + value % 64 := by
    rw [hand, hor, UInt8.toNat_ofNat']
    omega
  have hlow : (128 + value % 64) &&& 0x3f = value % 64 := by
    rw [show (0x3f : ℕ) = 2 ^ 6 - 1 from rfl, Nat.and_two_pow_sub_one_eq_mod]
    omega
  have hshift : high <<< 6 % 2 ^ 32 = 2 ^ 6 * high := by
    rw [Nat.shiftLeft_eq, hh]
    omega
  rw [addMarked, hbyte, hlow, hshift, ← Nat.two_pow_add_eq_or_of_lt (by omega)]
  omega

lemma compactLoop_spec {pos value : ℕ} (hpos : pos ≤ 5) (hv : value < 2 ^ (6 * pos + 1)) (tail : List UInt8) :
    ∃ p high marked, p ≤ pos ∧ marked.length = pos - p ∧ high ≤ 0x7f >>> (6 - p) ∧
      compactLoop pos value tail = some (lead p high :: (marked ++ tail)) ∧ marked.foldl addMarked high = value := by
  induction pos generalizing value tail with
  | zero =>
    have hle : value ≤ 0x7f >>> 6 := by
      simp only [Nat.reduceShiftRight]
      omega
    exact ⟨0, value, [], le_rfl, rfl, hle, by rw [compactLoop, if_neg (not_lt.mpr hle)]; rfl, rfl⟩
  | succ pos ih =>
    by_cases hle : 0x7f >>> (6 - (pos + 1)) < value
    · have hshift : value >>> 6 = value / 64 := Nat.shiftRight_eq_div_pow value 6
      have hlt : value >>> 6 < 2 ^ (6 * pos + 1) := by
        rw [hshift, Nat.div_lt_iff_lt_mul (by omega)]
        calc value < 2 ^ (6 * (pos + 1) + 1) := hv
          _ = 2 ^ (6 * pos + 1) * 64 := by ring
      obtain ⟨p, high, marked, hp, hlen, hhigh, heq, hfold⟩ :=
        ih (by omega) hlt (UInt8.ofNat (0x80 ||| value &&& 0x3f) :: tail)
      have hbig : value < 2 ^ 32 := lt_of_lt_of_le hv (Nat.pow_le_pow_right (by omega) (by omega))
      refine ⟨p, high, marked ++ [UInt8.ofNat (0x80 ||| value &&& 0x3f)], by omega, ?_, hhigh, ?_, ?_⟩
      · rw [List.length_append, List.length_singleton]
        omega
      · rw [compactLoop, if_pos hle, heq, List.append_assoc]
        rfl
      · rw [List.foldl_append, hfold]
        exact addMarked_digit hbig hshift
    · exact ⟨pos + 1, value, [], le_rfl, by rw [List.length_nil]; omega, not_lt.mp hle, by rw [compactLoop, if_neg hle]; rfl,
        rfl⟩

lemma leadingMarks_lead : ∀ p < 5, ∀ high ≤ 0x7f >>> (6 - p), leadingMarks (lead p high) 6 2 = 6 - p := by
  decide

lemma lead_high : ∀ p < 5, ∀ high ≤ 0x7f >>> (6 - p),
    (lead p high).toNat &&& 0x80 ≠ 0 ∧ (lead p high).toNat &&& 0xff >>> (6 - p + 1) = high := by
  decide

lemma serializeUint31Compact_spec {value : ℕ} (hv : value < 2 ^ 31) :
    ∃ bytes, serializeUint31Compact value = some bytes ∧ 1 ≤ bytes.length ∧ bytes.length ≤ 6 ∧
      ∀ rest, deserializeUint31Compact (bytes ++ rest) = some (value, rest) := by
  rw [serializeUint31Compact]
  split_ifs with hle
  · refine ⟨[UInt8.ofNat value], rfl, le_rfl, by simp, fun rest => ?_⟩
    have hbyte : (UInt8.ofNat value).toNat = value := by
      rw [UInt8.toNat_ofNat']
      omega
    have hbit : value &&& 0x80 = 0 := by
      rw [show (0x80 : ℕ) = 2 ^ 7 from rfl, Nat.and_two_pow, Nat.testBit_lt_two_pow (by omega)]
      rfl
    rw [List.singleton_append, deserializeUint31Compact, hbyte, if_pos hbit]
  · obtain ⟨p, high, marked, hp, hlen, hhigh, heq, hfold⟩ := compactLoop_spec le_rfl hv []
    have hp5 : p < 5 := by
      by_contra hp5
      obtain rfl : p = 5 := by omega
      rw [Nat.sub_self, List.length_eq_zero_iff] at hlen
      rw [hlen] at hfold
      simp only [List.foldl_nil, Nat.reduceSub, Nat.reduceShiftRight] at hfold hhigh
      omega
    obtain ⟨hmark, hvalue⟩ := lead_high p hp5 high hhigh
    refine ⟨lead p high :: marked, by rw [heq, List.append_nil], by simp, by rw [List.length_cons]; omega, fun rest => ?_⟩
    simp only [List.cons_append, deserializeUint31Compact, hmark, if_false, leadingMarks_lead p hp5 high hhigh, hvalue]
    rw [show 6 - p - 1 = marked.length by omega, readMarked_append, hfold]

lemma compactLoop_none {pos value : ℕ} (hv : 2 ^ (6 * pos + 1) ≤ value) (hpos : pos ≤ 5) (tail : List UInt8) :
    compactLoop pos value tail = none := by
  induction pos generalizing value tail with
  | zero =>
    rw [compactLoop, if_pos]
    simp only [Nat.reduceShiftRight]
    omega
  | succ pos ih =>
    have hlarge : 2 ^ 7 ≤ value := le_trans (Nat.pow_le_pow_right (by omega) (by omega)) hv
    have hsmall : 0x7f >>> (6 - (pos + 1)) ≤ 0x7f := by
      rw [Nat.shiftRight_eq_div_pow]
      exact Nat.div_le_self _ _
    rw [compactLoop, if_pos (by omega)]
    apply ih
    · rw [Nat.shiftRight_eq_div_pow, Nat.le_div_iff_mul_le (by omega)]
      calc 2 ^ (6 * pos + 1) * 2 ^ 6 = 2 ^ (6 * (pos + 1) + 1) := by ring
        _ ≤ value := hv
    · omega

lemma serializeUint31Compact_none {value : ℕ} (hv : 2 ^ 31 ≤ value) : serializeUint31Compact value = none := by
  rw [serializeUint31Compact, if_neg (by omega)]
  exact compactLoop_none hv le_rfl []

end

section

def IsCString (text : List Char) : Prop := ∀ c ∈ text, 0 < c.toNat ∧ c.toNat < 256

def Variant.Cached : Variant UInt64 → Prop
  | .none => True
  | .ui64 _ => True
  | .dbl _ => True
  | .str text => IsCString text
  | _ => False

structure Token.Cached (token : Token UInt64) : Prop where
  opt : token.opt.toNat < 2 ^ 31
  left : token.loc.l < 2 ^ 31
  right : token.loc.r < 2 ^ 31
  value : token.value.Cached

structure Token.Numbered (token : Token UInt64) : Prop where
  opt : token.opt.toNat < 2 ^ 31
  left : token.loc.l < 2 ^ 31
  right : token.loc.r < 2 ^ 31

lemma Token.Cached.numbered {token : Token UInt64} (h : token.Cached) : token.Numbered := ⟨h.opt, h.left, h.right⟩

structure Cacheable (ctx : Context UInt64) : Prop where
  expression : ctx.expression.length < 2 ^ 31
  tokens : ctx.stack.length < 2 ^ 31
  cached : ∀ token ∈ ctx.stack, token.Cached

end

section

def compactBytes (value : ℕ) : List UInt8 := (serializeUint31Compact value).getD []

lemma serializeUint31Compact_eq {value : ℕ} (hv : value < 2 ^ 31) :
    serializeUint31Compact value = some (compactBytes value) := by
  obtain ⟨bytes, hbytes, -⟩ := serializeUint31Compact_spec hv
  rw [compactBytes, hbytes, Option.getD_some]

lemma compactBytes_length {value : ℕ} (hv : value < 2 ^ 31) :
    1 ≤ (compactBytes value).length ∧ (compactBytes value).length ≤ 6 := by
  obtain ⟨bytes, hbytes, hmin, hmax, -⟩ := serializeUint31Compact_spec hv
  rw [compactBytes, hbytes, Option.getD_some]
  exact ⟨hmin, hmax⟩

lemma deserialize_compactBytes {value : ℕ} (hv : value < 2 ^ 31) (rest : List UInt8) :
    deserializeUint31Compact (compactBytes value ++ rest) = some (value, rest) := by
  obtain ⟨bytes, hbytes, -, -, hread⟩ := serializeUint31Compact_spec hv
  rw [compactBytes, hbytes, Option.getD_some, hread]

def variantBytes : Variant UInt64 → List UInt8
  | .ui64 n => variantUi64 :: encodeWord 8 n.toNat
  | .dbl bits => variantDbl :: encodeWord 8 bits.toNat
  | .str text => variantStr :: (text.map charByte ++ [0])
  | _ => [variantNone]

def headBytes (token : Token UInt64) : List UInt8 :=
  encodeWord 4 token.type.toNat ++ (compactBytes token.opt.toNat ++ (compactBytes token.loc.l ++ compactBytes token.loc.r))

def tokenBytes (token : Token UInt64) : List UInt8 := headBytes token ++ variantBytes token.value

def bodyBytes (stack : List (Token UInt64)) : List UInt8 := compactBytes stack.length ++ stack.flatMap tokenBytes

lemma headBytes_length {token : Token UInt64} (h : token.Numbered) :
    7 ≤ (headBytes token).length ∧ (headBytes token).length ≤ 22 := by
  have ho := compactBytes_length h.opt
  have hl := compactBytes_length h.left
  have hr := compactBytes_length h.right
  simp only [headBytes, List.length_append, encodeWord_length]
  omega

end

section

def StringFits (size offset : ℕ) (token : Token UInt64) : Prop :=
  match token.value with
  | .str text =>
    let start := offset + (headBytes token).length + 1
    start + (text.length + 1) ≤ reserveBuffer (reserveBuffer size offset 23) start (text.length + 1)
  | _ => True

def sizeAfter (size offset : ℕ) (token : Token UInt64) : ℕ :=
  let start := offset + (headBytes token).length + 1
  reserveBuffer (reserveBuffer size offset 23) start ((variantBytes token.value).length - 1)

def StringsFit : ℕ → ℕ → List (Token UInt64) → Prop
  | _, _, [] => True
  | size, offset, token :: tokens =>
    StringFits size offset token ∧ StringsFit (sizeAfter size offset token) (offset + (tokenBytes token).length) tokens

structure Buffer.Good (buffer : Buffer) : Prop where
  large : evalStaticBufferSize ≤ buffer.size
  within : buffer.bytes.length ≤ buffer.size

lemma le_reserveBuffer (size offset n : ℕ) : size ≤ reserveBuffer size offset n := by
  rw [reserveBuffer]
  split_ifs
  · exact le_rfl
  · omega

lemma reserveBuffer_small {size offset n : ℕ} (hs : evalStaticBufferSize ≤ size) (ho : offset ≤ size) (hn : n ≤ 2048) :
    offset + n ≤ reserveBuffer size offset n := by
  rw [evalStaticBufferSize] at hs
  rw [reserveBuffer]
  split_ifs with h
  · exact h
  · omega

lemma put_of_le {buffer : Buffer} {data : List UInt8} (h : buffer.bytes.length + data.length ≤ buffer.size) :
    buffer.put data = some ⟨buffer.size, buffer.bytes ++ data⟩ := if_pos h

lemma serializeToken_eq {buffer : Buffer} (hg : buffer.Good) {token : Token UInt64} (ht : token.Cached) :
    serializeToken buffer token =
      serializeVariant ⟨reserveBuffer buffer.size buffer.bytes.length 23, buffer.bytes ++ headBytes token⟩ token.value := by
  have hfit := reserveBuffer_small hg.large hg.within (n := 23) (by omega)
  have ho := compactBytes_length ht.opt
  have hl := compactBytes_length ht.left
  have hr := compactBytes_length ht.right
  have hmodl : token.loc.l % 2 ^ 32 = token.loc.l := Nat.mod_eq_of_lt (lt_trans ht.left (by norm_num))
  have hmodr : token.loc.r % 2 ^ 32 = token.loc.r := Nat.mod_eq_of_lt (lt_trans ht.right (by norm_num))
  rw [serializeToken, hmodl, hmodr, serializeUint31Compact_eq ht.opt, serializeUint31Compact_eq ht.left,
    serializeUint31Compact_eq ht.right, Buffer.reserve]
  simp only [Option.bind_eq_bind, Option.bind_some]
  rw [put_of_le (by simp only [encodeWord_length]; omega)]
  simp only [Option.bind_some]
  rw [put_of_le (by simp only [List.length_append, encodeWord_length]; omega)]
  simp only [Option.bind_some]
  rw [put_of_le (by simp only [List.length_append, encodeWord_length]; omega)]
  simp only [Option.bind_some]
  rw [put_of_le (by simp only [List.length_append, encodeWord_length]; omega)]
  simp only [Option.bind_some, headBytes, List.append_assoc]

lemma put_reserve_put {buffer : Buffer} (h : buffer.bytes.length + 1 ≤ buffer.size) (type : UInt8) (data : List UInt8) :
    ((buffer.reserve 1).put [type]).bind (fun b => (b.reserve data.length).put data) =
      let size := reserveBuffer buffer.size (buffer.bytes.length + 1) data.length
      if buffer.bytes.length + 1 + data.length ≤ size then some ⟨size, buffer.bytes ++ type :: data⟩ else none := by
  rw [Buffer.reserve, reserveBuffer, if_pos h, put_of_le h, Option.bind_some, Buffer.reserve, Buffer.put]
  simp only [List.length_append, List.length_singleton, List.append_assoc, List.singleton_append]

lemma serializeVariant_eq {buffer : Buffer} (h : buffer.bytes.length + 1 ≤ buffer.size) (value : Variant UInt64) :
    serializeVariant buffer value =
      let rest := (variantBytes value).length - 1
      let size := reserveBuffer buffer.size (buffer.bytes.length + 1) rest
      if buffer.bytes.length + 1 + rest ≤ size then some ⟨size, buffer.bytes ++ variantBytes value⟩ else none := by
  have hnone : (buffer.reserve 1).put [variantNone] =
      let size := reserveBuffer buffer.size (buffer.bytes.length + 1) 0
      if buffer.bytes.length + 1 + 0 ≤ size then some ⟨size, buffer.bytes ++ [variantNone]⟩ else none := by
    rw [Buffer.reserve, reserveBuffer, if_pos h, put_of_le h]
    simp only [reserveBuffer, Nat.add_zero, h, if_true]
  cases value with
  | ui64 n => exact put_reserve_put h variantUi64 (encodeWord 8 n.toNat)
  | dbl bits => exact put_reserve_put h variantDbl (encodeWord 8 bits.toNat)
  | str text =>
    have hlen : (text.map charByte ++ [0]).length = text.length + 1 := by
      rw [List.length_append, List.length_map, List.length_singleton]
    have hput := put_reserve_put h variantStr (text.map charByte ++ [0])
    simp only [variantBytes, List.length_cons, Nat.add_sub_cancel]
    rw [hlen] at hput ⊢
    exact hput
  | _ => exact hnone

lemma StringFits_iff {size offset : ℕ} {token : Token UInt64} (hs : evalStaticBufferSize ≤ size) (ho : offset ≤ size)
    (ht : token.Numbered) : StringFits size offset token ↔
      offset + (headBytes token).length + 1 + ((variantBytes token.value).length - 1) ≤ sizeAfter size offset token := by
  have hhead := headBytes_length ht
  have hfit := reserveBuffer_small hs ho (n := 23) (by omega)
  have hlarge := le_trans hs (le_reserveBuffer size offset 23)
  rw [StringFits, sizeAfter]
  cases token.value with
  | str text => simp [variantBytes]
  | ui64 n => simpa [variantBytes] using reserveBuffer_small hlarge (by omega) (n := 8) (by omega)
  | dbl bits => simpa [variantBytes] using reserveBuffer_small hlarge (by omega) (n := 8) (by omega)
  | _ => exact ⟨fun _ => reserveBuffer_small hlarge (by omega) (n := 0) (by omega), fun _ => trivial⟩

lemma variantBytes_length (value : Variant UInt64) : 1 ≤ (variantBytes value).length := by
  cases value <;> simp [variantBytes]

lemma serializeToken_spec {buffer : Buffer} (hg : buffer.Good) {token : Token UInt64} (ht : token.Cached) :
    (StringFits buffer.size buffer.bytes.length token →
      serializeToken buffer token =
        some ⟨sizeAfter buffer.size buffer.bytes.length token, buffer.bytes ++ tokenBytes token⟩) ∧
    (¬StringFits buffer.size buffer.bytes.length token → serializeToken buffer token = none) := by
  have hhead := headBytes_length ht.numbered
  have hfit := reserveBuffer_small hg.large hg.within (n := 23) (by omega)
  have heq : serializeToken buffer token =
      if buffer.bytes.length + (headBytes token).length + 1 + ((variantBytes token.value).length - 1) ≤
          sizeAfter buffer.size buffer.bytes.length token then
        some ⟨sizeAfter buffer.size buffer.bytes.length token, buffer.bytes ++ tokenBytes token⟩ else none := by
    rw [serializeToken_eq hg ht, serializeVariant_eq (by simp only [List.length_append]; omega)]
    simp only [List.length_append, List.append_assoc]
    rfl
  rw [heq, StringFits_iff hg.large hg.within ht.numbered]
  exact ⟨fun h => if_pos h, fun h => if_neg h⟩

lemma sizeAfter_good {buffer : Buffer} (hg : buffer.Good) {token : Token UInt64} (ht : token.Cached)
    (hfit : StringFits buffer.size buffer.bytes.length token) :
    Buffer.Good ⟨sizeAfter buffer.size buffer.bytes.length token, buffer.bytes ++ tokenBytes token⟩ := by
  rw [StringFits_iff hg.large hg.within ht.numbered] at hfit
  have hvar := variantBytes_length token.value
  constructor
  · exact le_trans hg.large (le_trans (le_reserveBuffer _ _ 23) (le_reserveBuffer _ _ _))
  · simp only [tokenBytes, List.length_append]
    omega

lemma serializeTokens_spec {tokens : List (Token UInt64)} (ht : ∀ token ∈ tokens, token.Cached) {buffer : Buffer}
    (hg : buffer.Good) :
    (StringsFit buffer.size buffer.bytes.length tokens →
      ∃ size, serializeTokens buffer tokens = some ⟨size, buffer.bytes ++ tokens.flatMap tokenBytes⟩) ∧
    (¬StringsFit buffer.size buffer.bytes.length tokens → serializeTokens buffer tokens = none) := by
  induction tokens generalizing buffer with
  | nil => exact ⟨fun _ => ⟨buffer.size, by simp [serializeTokens]⟩, fun h => absurd trivial h⟩
  | cons token tokens ih =>
    have hcached := ht token List.mem_cons_self
    obtain ⟨hok, hbad⟩ := serializeToken_spec hg hcached
    rw [StringsFit, serializeTokens]
    by_cases hfit : StringFits buffer.size buffer.bytes.length token
    · obtain ⟨hrest, hstop⟩ := ih (fun t h => ht t (List.mem_cons_of_mem _ h)) (sizeAfter_good hg hcached hfit)
      simp only [hok hfit, Option.bind_eq_bind, Option.bind_some, hfit, true_and, List.length_append,
        List.append_assoc] at hrest hstop ⊢
      exact ⟨hrest, hstop⟩
    · simp only [hbad hfit, Option.bind_eq_bind, Option.bind_none, hfit, false_and]
      exact ⟨False.elim, fun _ => trivial⟩

def BufferHolds (stack : List (Token UInt64)) : Prop :=
  StringsFit evalStaticBufferSize (compactBytes stack.length).length stack

lemma evalSerialize_spec {ctx : Context UInt64} (hc : Cacheable ctx) :
    (BufferHolds ctx.stack → evalSerialize ctx =
      (serializeUint31Compact ((bodyBytes ctx.stack).length % 2 ^ 32)).map
        (· ++ (bodyBytes ctx.stack).take ((bodyBytes ctx.stack).length % 2 ^ 32))) ∧
    (¬BufferHolds ctx.stack → evalSerialize ctx = none) := by
  have hlen := compactBytes_length hc.tokens
  have hput : Buffer.put ⟨evalStaticBufferSize, []⟩ (compactBytes ctx.stack.length) =
      some ⟨evalStaticBufferSize, compactBytes ctx.stack.length⟩ := by
    rw [put_of_le]
    · rfl
    · simp only [List.length_nil, evalStaticBufferSize]
      omega
  have hgood : Buffer.Good ⟨evalStaticBufferSize, compactBytes ctx.stack.length⟩ :=
    ⟨le_rfl, by simp only [evalStaticBufferSize]; omega⟩
  obtain ⟨hok, hbad⟩ := serializeTokens_spec hc.cached hgood
  rw [evalSerialize, serializeUint31Compact_eq hc.tokens]
  simp only [Option.bind_eq_bind, Option.bind_some, hput]
  constructor
  · intro h
    obtain ⟨size, hsize⟩ := hok h
    rw [hsize, Option.bind_some]
    show (serializeUint31Compact ((bodyBytes ctx.stack).length % 2 ^ 32)).bind _ = _
    cases serializeUint31Compact ((bodyBytes ctx.stack).length % 2 ^ 32) <;> rfl
  · intro h
    rw [hbad h, Option.bind_none]

end

section

lemma readWord_encodeWord (n value : ℕ) (rest : List UInt8) :
    readWord n (encodeWord n value ++ rest) = some (value % 256 ^ n, rest) := by
  rw [readWord, if_pos (by rw [List.length_append, encodeWord_length]; omega)]
  have htake : (encodeWord n value ++ rest).take n = encodeWord n value := List.take_left' (encodeWord_length n value)
  have hdrop : (encodeWord n value ++ rest).drop n = rest := List.drop_left' (encodeWord_length n value)
  rw [htake, hdrop, decodeWord_encodeWord]

lemma charByte_toNat {c : Char} (h : c.toNat < 256) : (charByte c).toNat = c.toNat := by
  rw [charByte, UInt8.toNat_ofNat']
  exact Nat.mod_eq_of_lt h

lemma byteChar_charByte {c : Char} (h : c.toNat < 256) : byteChar (charByte c) = c := by
  rw [byteChar, charByte_toNat h, Char.ofNat_toNat]

lemma map_byteChar {text : List Char} (h : IsCString text) : (text.map charByte).map byteChar = text := by
  rw [List.map_map]
  conv_rhs => rw [← List.map_id text]
  apply List.map_congr_left
  intro c hc
  exact byteChar_charByte (h c hc).2

lemma readStr_append {text : List Char} (h : IsCString text) (rest : List UInt8) :
    readStr (text.map charByte ++ [0] ++ rest) = some (text.map charByte, rest) := by
  have hne : ∀ b ∈ text.map charByte, decide (b ≠ 0) = true := by
    intro b hb
    obtain ⟨c, hc, rfl⟩ := List.mem_map.mp hb
    have hpos := (h c hc).1
    rw [decide_eq_true_eq]
    intro hzero
    have hnat := charByte_toNat (h c hc).2
    rw [hzero] at hnat
    simp only [UInt8.toNat_zero] at hnat
    omega
  have htake : (text.map charByte ++ [0] ++ rest).takeWhile (· ≠ 0) = text.map charByte := by
    rw [List.append_assoc, List.takeWhile_append_of_pos hne]
    simp
  rw [readStr, htake, List.append_assoc, List.drop_left]
  rfl

lemma toNat_word (n : UInt64) : UInt64.ofNat (n.toNat % 256 ^ 8) = n := by
  have hmod : n.toNat % 256 ^ 8 = n.toNat := Nat.mod_eq_of_lt (lt_of_lt_of_le n.toNat_lt (by norm_num))
  rw [hmod, UInt64.ofNat_toNat]

lemma deserializeVariant_append {value : Variant UInt64} (h : value.Cached) (rest : List UInt8) :
    deserializeVariant (variantBytes value ++ rest) = some (value, rest) := by
  cases value with
  | none => rfl
  | ui64 n =>
    rw [variantBytes, List.cons_append, deserializeVariant, if_pos rfl, readWord_encodeWord]
    simp only [Option.bind_eq_bind, Option.bind_some, toNat_word]
    rfl
  | dbl bits =>
    rw [variantBytes, List.cons_append, deserializeVariant, if_neg (by decide), if_pos rfl, readWord_encodeWord]
    simp only [Option.bind_eq_bind, Option.bind_some, toNat_word]
    rfl
  | str text =>
    rw [variantBytes, List.cons_append, deserializeVariant, if_neg (by decide), if_neg (by decide), if_pos rfl,
      readStr_append h]
    simp only [Option.bind_eq_bind, Option.bind_some, map_byteChar h]
    rfl
  | bin | dblVector | err => exact h.elim

lemma skipVariant_append {value : Variant UInt64} (h : value.Cached) (rest : List UInt8) :
    skipVariant (variantBytes value ++ rest) = some (some rest) := by
  cases value with
  | none => rfl
  | ui64 n => rfl
  | dbl bits => rfl
  | str text =>
    rw [variantBytes, List.cons_append, skipVariant, if_neg (by decide), if_neg (by decide), if_pos rfl, readStr_append h]
    rfl
  | bin | dblVector | err => exact h.elim

lemma deserializeHead_append {token : Token UInt64} (h : token.Cached) (rest : List UInt8) :
    deserializeHead (headBytes token ++ rest) =
      some ((token.type.toNat, token.opt.toNat, token.loc.l, token.loc.r), rest) := by
  have htype : token.type.toNat % 256 ^ 4 = token.type.toNat :=
    Nat.mod_eq_of_lt (lt_of_lt_of_le token.type.toNat_lt (by norm_num))
  rw [headBytes, deserializeHead, List.append_assoc, readWord_encodeWord, htype]
  simp only [Option.bind_eq_bind, Option.bind_some, List.append_assoc, deserialize_compactBytes h.opt,
    deserialize_compactBytes h.left, deserialize_compactBytes h.right]
  rfl

lemma deserializeTokens_append {tokens : List (Token UInt64)} (h : ∀ token ∈ tokens, token.Cached) (rest : List UInt8) :
    deserializeTokens tokens.length (tokens.flatMap tokenBytes ++ rest) = some (tokens, rest) := by
  induction tokens with
  | nil => rfl
  | cons token tokens ih =>
    have hcached := h token List.mem_cons_self
    rw [List.length_cons, deserializeTokens, List.flatMap_cons, tokenBytes, List.append_assoc, List.append_assoc,
      deserializeHead_append hcached]
    simp only [Option.bind_eq_bind, Option.bind_some, deserializeVariant_append hcached.value,
      ih fun t ht => h t (List.mem_cons_of_mem _ ht)]
    show some (_ :: tokens, rest) = _
    rw [UInt32.ofNat_toNat, UInt32.ofNat_toNat]

end

section

def Local {α : Type} (read : List UInt8 → Option (α × List UInt8)) : Prop :=
  ∀ data rest a, read data = some (a, rest) → ∀ more, read (data ++ more) = some (a, rest ++ more)

lemma Local.bind {α β : Type} {read : List UInt8 → Option (α × List UInt8)}
    {next : α → List UInt8 → Option (β × List UInt8)} (hr : Local read) (hn : ∀ a, Local (next a)) :
    Local fun data => (read data).bind fun p => next p.1 p.2 := by
  intro data rest b h more
  obtain ⟨⟨a, mid⟩, ha, hb⟩ := Option.bind_eq_some_iff.mp h
  show (read (data ++ more)).bind _ = _
  rw [hr _ _ _ ha more]
  exact hn a _ _ _ hb more

lemma Local.pure {α : Type} (a : α) : Local fun data => some (a, data) := by
  intro data rest b h more
  cases h
  rfl

lemma readMarked_local (n value : ℕ) : Local (readMarked n value) := by
  induction n generalizing value with
  | zero =>
    intro data rest a h more
    cases h
    rfl
  | succ n ih =>
    intro data rest a h more
    cases data with
    | nil => cases h
    | cons b data => exact ih _ _ _ _ h more

lemma deserializeUint31Compact_local : Local deserializeUint31Compact := by
  intro data rest a h more
  cases data with
  | nil => cases h
  | cons b data =>
    rw [List.cons_append, deserializeUint31Compact]
    rw [deserializeUint31Compact] at h
    split_ifs at h ⊢ with hb
    · cases h
      rfl
    · exact readMarked_local _ _ _ _ _ h more

lemma readWord_local (n : ℕ) : Local (readWord n) := by
  intro data rest a h more
  rw [readWord] at h
  split_ifs at h with hn
  cases h
  rw [readWord, if_pos (by rw [List.length_append]; omega), List.take_append_of_le_length hn,
    List.drop_append_of_le_length hn]

lemma readStr_local : Local readStr := by
  intro data rest a h more
  rw [readStr] at h
  cases hd : data.drop (data.takeWhile (· ≠ 0)).length with
  | nil =>
    rw [hd] at h
    cases h
  | cons b tail =>
    rw [hd] at h
    cases h
    have hlt : (data.takeWhile (· ≠ 0)).length < data.length := by
      by_contra hge
      rw [List.drop_eq_nil_of_le (by omega)] at hd
      cases hd
    have htake : (data ++ more).takeWhile (· ≠ 0) = data.takeWhile (· ≠ 0) := by
      rw [List.takeWhile_append, if_neg (by omega)]
    rw [readStr, htake, List.drop_append_of_le_length (by omega), hd]
    rfl

lemma deserializeVariant_local : Local deserializeVariant := by
  intro data rest a h more
  cases data with
  | nil => cases h
  | cons type data =>
    rw [List.cons_append, deserializeVariant]
    rw [deserializeVariant] at h
    split_ifs at h ⊢
    · exact (readWord_local 8).bind (fun n => .pure (Variant.ui64 (UInt64.ofNat n))) _ _ _ h more
    · exact (readWord_local 8).bind (fun n => .pure (Variant.dbl (UInt64.ofNat n))) _ _ _ h more
    · exact readStr_local.bind (fun text => .pure (Variant.str (text.map byteChar))) _ _ _ h more
    · cases h
      rfl

lemma deserializeHead_local : Local deserializeHead :=
  (readWord_local 4).bind fun type => deserializeUint31Compact_local.bind fun opt =>
    deserializeUint31Compact_local.bind fun l => deserializeUint31Compact_local.bind fun r => .pure (type, opt, l, r)

lemma deserializeTokens_local (n : ℕ) : Local (deserializeTokens n) := by
  induction n with
  | zero => exact .pure []
  | succ n ih =>
    exact deserializeHead_local.bind fun head => deserializeVariant_local.bind fun value => ih.bind fun tokens =>
      .pure (⟨UInt32.ofNat head.1, UInt32.ofNat head.2.1, ⟨head.2.2.1, head.2.2.2⟩, value⟩ :: tokens)

def deserializeBody (data : List UInt8) : Option (List (Token UInt64) × List UInt8) :=
  (deserializeUint31Compact data).bind fun p => deserializeTokens p.1 p.2

lemma deserializeBody_bodyBytes {stack : List (Token UInt64)} (hn : stack.length < 2 ^ 31)
    (h : ∀ token ∈ stack, token.Cached) : deserializeBody (bodyBytes stack) = some (stack, []) := by
  rw [deserializeBody, bodyBytes, deserialize_compactBytes hn, Option.bind_some]
  have htokens := deserializeTokens_append h []
  rwa [List.append_nil] at htokens

lemma deserializeBody_take {stack : List (Token UInt64)} (hn : stack.length < 2 ^ 31)
    (h : ∀ token ∈ stack, token.Cached) {len : ℕ} (hlen : len < (bodyBytes stack).length) :
    deserializeBody ((bodyBytes stack).take len) = none := by
  cases hread : deserializeBody ((bodyBytes stack).take len) with
  | none => rfl
  | some read =>
    have hmore := (deserializeUint31Compact_local.bind deserializeTokens_local) _ _ _ hread ((bodyBytes stack).drop len)
    rw [List.take_append_drop] at hmore
    have heq := (deserializeBody_bodyBytes hn h).symm.trans hmore
    have hrest := (Prod.mk.inj (Option.some.inj heq)).2
    have hzero := congrArg List.length hrest
    rw [List.length_nil, List.length_append, List.length_drop] at hzero
    omega

lemma evalDeserialize_eq {len : ℕ} (hlen : len < 2 ^ 31) (expression : List Char) (rules : Rules) (body : List UInt8) :
    evalDeserialize expression rules (compactBytes len ++ body) =
      (deserializeBody body).map fun p => ⟨expression, rules, p.1⟩ := by
  rw [evalDeserialize, deserialize_compactBytes hlen, deserializeBody]
  simp only [Option.bind_eq_bind, Option.bind_some]
  cases deserializeUint31Compact body with
  | none => rfl
  | some p =>
    simp only [Option.bind_some]
    cases deserializeTokens p.1 p.2 <;> rfl

end

section

lemma functionidAt_word {expression : List Char} (he : expression.length < 2 ^ 31) {l r : ℕ} (hl : l < 2 ^ 31)
    (hr : r < 2 ^ 31) : functionidAt expression (2 ^ 32) l r = functionidAt expression (2 ^ 64) l r := by
  rw [functionidAt, functionidAt]
  congr 1
  by_cases hlr : l < r
  · congr 1
    omega
  · rw [List.take_of_length_le (by rw [List.length_drop]; omega), List.take_of_length_le (by rw [List.length_drop]; omega)]

lemma serializedFunctionids_append (expression : List Char) {tokens : List (Token UInt64)}
    (h : ∀ token ∈ tokens, token.Cached) (rest : List UInt8) :
    serializedFunctionids expression tokens.length (tokens.flatMap tokenBytes ++ rest) =
      some (tokens.filterMap (fun token => if token.type = tokenFunctionid then
        functionidAt expression (2 ^ 32) token.loc.l token.loc.r else none), true) := by
  induction tokens with
  | nil => rfl
  | cons token tokens ih =>
    have hcached := h token List.mem_cons_self
    rw [List.length_cons, serializedFunctionids, List.flatMap_cons, tokenBytes, List.append_assoc, List.append_assoc,
      deserializeHead_append hcached]
    simp only [Option.bind_eq_bind, Option.bind_some, skipVariant_append hcached.value,
      ih fun t ht => h t (List.mem_cons_of_mem _ ht), UInt32.ofNat_toNat]
    rw [List.filterMap_cons]
    by_cases hid : token.type = tokenFunctionid
    · rw [if_pos hid, if_pos hid]
      cases functionidAt expression (2 ^ 32) token.loc.l token.loc.r <;> rfl
    · rw [if_neg hid, if_neg hid]
      rfl

lemma filterMap_extract {ctx : Context UInt64} (hc : Cacheable ctx) (hnone : ∀ token ∈ ctx.stack, token.value = .none) :
    ctx.stack.filterMap (fun token => if token.type = tokenFunctionid then
      functionidAt ctx.expression (2 ^ 32) token.loc.l token.loc.r else none) = evalGetFunctionids ctx := by
  apply List.filterMap_congr
  intro token ht
  rw [extractFunctionid, hnone token ht, functionidAt_word hc.expression (hc.cached token ht).left (hc.cached token ht).right]
  by_cases hid : token.type = tokenFunctionid
  · rw [if_pos hid, if_neg (not_not.mpr hid)]
  · rw [if_neg hid, if_pos hid]

lemma mem_uniq (xs : List ℕ) (x : ℕ) : x ∈ uniq xs ↔ x ∈ xs := by
  fun_induction uniq xs with
  | case1 y xs ih =>
    rw [ih]
    simp
  | case2 y z xs hne ih =>
    rw [List.mem_cons, ih, List.mem_cons (l := z :: xs)]
  | case3 xs h => rfl

lemma uniq_sorted {xs : List ℕ} (h : xs.Pairwise (· ≤ ·)) : (uniq xs).Pairwise (· < ·) := by
  fun_induction uniq xs with
  | case1 y xs ih => exact ih (List.pairwise_cons.mp h).2
  | case2 y z xs hne ih =>
    obtain ⟨hy, htail⟩ := List.pairwise_cons.mp h
    refine List.pairwise_cons.mpr ⟨fun x hx => ?_, ih htail⟩
    have hyz := hy z List.mem_cons_self
    rcases List.mem_cons.mp ((mem_uniq _ _).mp hx) with rfl | hx
    · omega
    · have hzx := (List.pairwise_cons.mp htail).1 x hx
      omega
  | case3 xs hshort =>
    match xs, hshort with
    | [], _ => exact .nil
    | [x], _ => exact List.pairwise_singleton _ x
    | x :: y :: xs, hshort => exact absurd rfl (hshort x y xs)

end

section

def RoundTrips (ctx : Context UInt64) (rules : Rules) : Prop :=
  ∃ data, evalSerialize ctx = some data ∧
    (∃ len body, deserializeUint31Compact data = some (len, body) ∧ body.length = len) ∧
    ∃ ctx', evalDeserialize ctx.expression rules data = some ctx' ∧ ctx'.stack = ctx.stack ∧
      ((∀ token ∈ ctx.stack, token.value = .none) →
        ∃ ids, getSerializedExpressionFunctionids ctx.expression data = some ids ∧ ids.Pairwise (· < ·) ∧
          ∀ id, id ∈ ids ↔ id ∈ evalGetFunctionids ctx')

lemma functionids_of_bytes {ctx : Context UInt64} (hc : Cacheable ctx)
    (hnone : ∀ token ∈ ctx.stack, token.value = .none) {len : ℕ} (hlen : len < 2 ^ 31) :
    getSerializedExpressionFunctionids ctx.expression (compactBytes len ++ bodyBytes ctx.stack) =
      some (uniq ((evalGetFunctionids ctx).mergeSort (· ≤ ·))) := by
  have hids := serializedFunctionids_append ctx.expression hc.cached []
  rw [List.append_nil, filterMap_extract hc hnone] at hids
  rw [getSerializedExpressionFunctionids, deserialize_compactBytes hlen, bodyBytes]
  simp only [Option.bind_eq_bind, Option.bind_some, deserialize_compactBytes hc.tokens, hids, if_true]
  rfl

lemma roundTrips_of_fits {ctx : Context UInt64} (hc : Cacheable ctx) (rules : Rules) (hholds : BufferHolds ctx.stack)
    (hlen : (bodyBytes ctx.stack).length < 2 ^ 31) : RoundTrips ctx rules := by
  have hmod : (bodyBytes ctx.stack).length % 2 ^ 32 = (bodyBytes ctx.stack).length :=
    Nat.mod_eq_of_lt (lt_trans hlen (by norm_num))
  have hbody := deserializeBody_bodyBytes hc.tokens hc.cached
  refine ⟨compactBytes (bodyBytes ctx.stack).length ++ bodyBytes ctx.stack, ?_, ?_, ⟨ctx.expression, rules, ctx.stack⟩,
    ?_, rfl, ?_⟩
  · rw [(evalSerialize_spec hc).1 hholds, hmod, serializeUint31Compact_eq hlen, List.take_length, Option.map_some]
  · exact ⟨_, _, deserialize_compactBytes hlen _, rfl⟩
  · rw [evalDeserialize_eq hlen, hbody, Option.map_some]
  · intro hnone
    refine ⟨_, functionids_of_bytes hc hnone hlen, uniq_sorted ?_, fun id => ?_⟩
    · exact List.pairwise_mergeSort' (· ≤ ·) _
    · rw [mem_uniq, List.mem_mergeSort]
      rfl

lemma fits_of_roundTrips {ctx : Context UInt64} (hc : Cacheable ctx) {rules : Rules} (h : RoundTrips ctx rules) :
    BufferHolds ctx.stack ∧ (bodyBytes ctx.stack).length < 2 ^ 31 := by
  obtain ⟨data, hdata, -, ctx', hctx', hstack, -⟩ := h
  by_cases hholds : BufferHolds ctx.stack
  · refine ⟨hholds, ?_⟩
    rw [(evalSerialize_spec hc).1 hholds] at hdata
    by_contra hlong
    by_cases hmod : (bodyBytes ctx.stack).length % 2 ^ 32 < 2 ^ 31
    · -- the length has wrapped, so the data ends before the tokens do
      rw [serializeUint31Compact_eq hmod, Option.map_some] at hdata
      cases hdata
      rw [evalDeserialize_eq hmod, deserializeBody_take hc.tokens hc.cached (by omega)] at hctx'
      cases hctx'
    · rw [serializeUint31Compact_none (not_lt.mp hmod)] at hdata
      cases hdata
  · rw [(evalSerialize_spec hc).2 hholds] at hdata
    cases hdata

theorem cached_expression_round_trips_iff {ctx : Context UInt64} (hc : Cacheable ctx) (rules : Rules) :
    RoundTrips ctx rules ↔ BufferHolds ctx.stack ∧ (bodyBytes ctx.stack).length < 2 ^ 31 :=
  ⟨fits_of_roundTrips hc, fun h => roundTrips_of_fits hc rules h.1 h.2⟩

-- A string compared with the value of one function, or the value of another above a number.
def comparisons (text number : Variant UInt64) : Context UInt64 where
  expression := ['\x7b', '1', '2', '\x7d', '=', '"', 'o', 'k', '"', ' ', 'o', 'r', ' ', '\x7b', '3', '4', '5', '\x7d', '>', '7']
  rules := triggerExpression
  stack := [⟨tokenFunctionid, 0, ⟨0, 3⟩, .none⟩, ⟨tokenVarStr, 0, ⟨5, 8⟩, text⟩, ⟨tokenOpEq, 0, ⟨4, 4⟩, .none⟩,
    ⟨tokenFunctionid, 0, ⟨13, 17⟩, .none⟩, ⟨tokenVarNum, 0, ⟨19, 19⟩, number⟩, ⟨tokenOpGt, 0, ⟨18, 18⟩, .none⟩,
    ⟨tokenOpOr, 0, ⟨10, 11⟩, .none⟩]

lemma comparisons_cacheable {text number : Variant UInt64} (htext : text.Cached) (hnumber : number.Cached) :
    Cacheable (comparisons text number) := by
  have hcached (type : TokenType) (l r : ℕ) {value : Variant UInt64} (hl : l < 32) (hr : r < 32) (hvalue : value.Cached) :
      Token.Cached ⟨type, 0, ⟨l, r⟩, value⟩ :=
    ⟨show 0 < 2 ^ 31 by norm_num, hl.trans (by norm_num), hr.trans (by norm_num), hvalue⟩
  refine ⟨show 20 < 2 ^ 31 by norm_num, show 7 < 2 ^ 31 by norm_num, ?_⟩
  simp only [comparisons, List.forall_mem_cons]
  refine ⟨?_, ?_, ?_, ?_, ?_, ?_, ?_, by simp⟩
  · exact hcached _ _ _ (by norm_num) (by norm_num) trivial
  · exact hcached _ _ _ (by norm_num) (by norm_num) htext
  · exact hcached _ _ _ (by norm_num) (by norm_num) trivial
  · exact hcached _ _ _ (by norm_num) (by norm_num) trivial
  · exact hcached _ _ _ (by norm_num) (by norm_num) hnumber
  · exact hcached _ _ _ (by norm_num) (by norm_num) trivial
  · exact hcached _ _ _ (by norm_num) (by norm_num) trivial

theorem comparisons_round_trip : RoundTrips (comparisons .none .none) triggerExpression ∧
    RoundTrips (comparisons (.str ['o', 'k']) (.ui64 7)) triggerExpression := by
  have htext : IsCString ['o', 'k'] := by simp [IsCString]
  have hids : Cacheable (comparisons .none .none) := comparisons_cacheable trivial trivial
  have hvalues : Cacheable (comparisons (.str ['o', 'k']) (.ui64 7)) := comparisons_cacheable htext trivial
  refine ⟨(cached_expression_round_trips_iff hids triggerExpression).mpr ⟨?_, by decide +kernel⟩,
    (cached_expression_round_trips_iff hvalues triggerExpression).mpr ⟨?_, by decide +kernel⟩⟩
  · exact ⟨trivial, trivial, trivial, trivial, trivial, trivial, trivial, trivial⟩
  · refine ⟨trivial, ?_, trivial, trivial, trivial, trivial, trivial, trivial⟩
    rw [StringFits]
    decide +kernel

lemma exception_cacheable {message : List Char} (h : IsCString message) : Cacheable (evalSetException message) := by
  have hzero : (0 : ℕ) < 2 ^ 31 := by norm_num
  refine ⟨hzero, show 2 < 2 ^ 31 by norm_num, fun token ht => ?_⟩
  rcases List.mem_cons.mp ht with rfl | ht
  · exact ⟨hzero, hzero, hzero, h⟩
  · rw [List.mem_singleton.mp ht]
    exact ⟨hzero, hzero, hzero, trivial⟩

lemma exception_overruns {message : List Char} (h : IsCString message) (hlong : 6144 ≤ message.length) (rules : Rules) :
    ¬RoundTrips (evalSetException message) rules := by
  intro hround
  have hfits := (fits_of_roundTrips (exception_cacheable h) hround).1.1
  have hoffset := compactBytes_length (exception_cacheable h).tokens
  have hfirst : reserveBuffer evalStaticBufferSize (compactBytes (evalSetException message).stack.length).length 23 = 4096 :=
    if_pos (by rw [evalStaticBufferSize]; omega)
  simp only [StringFits, hfirst] at hfits
  rw [reserveBuffer] at hfits
  split_ifs at hfits
  all_goals omega

theorem long_message_overruns :
    Cacheable (evalSetException (List.replicate 10000 'a')) ∧
      ¬RoundTrips (evalSetException (List.replicate 10000 'a')) triggerExpression := by
  have htext : IsCString (List.replicate 10000 'a') := by
    intro c hc
    rw [List.eq_of_mem_replicate hc]
    decide
  refine ⟨exception_cacheable htext, exception_overruns htext ?_ triggerExpression⟩
  rw [List.length_replicate]
  norm_num

end

end Glaber.Eval
