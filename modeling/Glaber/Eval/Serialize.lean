import Glaber.Eval.Token
import Glaber.Lib.Bytes

/-! Cached expressions (`serialize.c`, `misc.c`). A write past the buffer and a read past the data have no result. A
double is its bit pattern. -/

namespace Glaber.Eval

open Glaber.Lib.Bytes

section

def compactLoop : ℕ → ℕ → List UInt8 → Option (List UInt8)
  | 0, value, tail => if 0x7f >>> 6 < value then none else some (UInt8.ofNat (value ||| 0xfe <<< 1) :: tail)
  | pos + 1, value, tail =>
    if 0x7f >>> (6 - (pos + 1)) < value then compactLoop pos (value >>> 6) (UInt8.ofNat (0x80 ||| value &&& 0x3f) :: tail)
    else some (UInt8.ofNat (value ||| 0xfe <<< (pos + 2)) :: tail)

def serializeUint31Compact (value : ℕ) : Option (List UInt8) :=
  if value ≤ 0x7f then some [UInt8.ofNat value] else compactLoop 5 value []

def leadingMarks (b : UInt8) : ℕ → ℕ → ℕ
  | 0, pos => pos
  | fuel + 1, pos => if b.toNat &&& 0x80 >>> pos ≠ 0 then leadingMarks b fuel (pos + 1) else pos

def readMarked : ℕ → ℕ → List UInt8 → Option (ℕ × List UInt8)
  | 0, value, data => some (value, data)
  | _ + 1, _, [] => none
  | n + 1, value, b :: data => readMarked n (value <<< 6 % 2 ^ 32 ||| b.toNat &&& 0x3f) data

def deserializeUint31Compact : List UInt8 → Option (ℕ × List UInt8)
  | [] => none
  | b :: data =>
    if b.toNat &&& 0x80 = 0 then some (b.toNat, data)
    else
      let pos := leadingMarks b 6 2
      readMarked (pos - 1) (b.toNat &&& 0xff >>> (pos + 1)) data

end

section

def evalStaticBufferSize : ℕ := 4096

structure Buffer where
  size : ℕ
  bytes : List UInt8

def reserveBuffer (size offset reserve : ℕ) : ℕ := if offset + reserve ≤ size then size else size * 3 / 2

def Buffer.reserve (buffer : Buffer) (n : ℕ) : Buffer :=
  { buffer with size := reserveBuffer buffer.size buffer.bytes.length n }

def Buffer.put (buffer : Buffer) (data : List UInt8) : Option Buffer :=
  if buffer.bytes.length + data.length ≤ buffer.size then some { buffer with bytes := buffer.bytes ++ data } else none

def variantNone : UInt8 := 0
def variantStr : UInt8 := 1
def variantDbl : UInt8 := 2
def variantUi64 : UInt8 := 3

def charByte (c : Char) : UInt8 := UInt8.ofNat c.toNat

def byteChar (b : UInt8) : Char := Char.ofNat b.toNat

def serializeVariant (buffer : Buffer) (value : Variant UInt64) : Option Buffer :=
  let buffer := buffer.reserve 1
  match value with
  | .ui64 n => do ((← buffer.put [variantUi64]).reserve 8).put (encodeWord 8 n.toNat)
  | .dbl bits => do ((← buffer.put [variantDbl]).reserve 8).put (encodeWord 8 bits.toNat)
  | .str text => do ((← buffer.put [variantStr]).reserve (text.length + 1)).put (text.map charByte ++ [0])
  | _ => buffer.put [variantNone]

def serializeToken (buffer : Buffer) (token : Token UInt64) : Option Buffer := do
  let buffer := buffer.reserve 23
  let buffer ← buffer.put (encodeWord 4 token.type.toNat)
  let buffer ← buffer.put (← serializeUint31Compact token.opt.toNat)
  let buffer ← buffer.put (← serializeUint31Compact (token.loc.l % 2 ^ 32))
  let buffer ← buffer.put (← serializeUint31Compact (token.loc.r % 2 ^ 32))
  serializeVariant buffer token.value

def serializeTokens : Buffer → List (Token UInt64) → Option Buffer
  | buffer, [] => some buffer
  | buffer, token :: tokens => do serializeTokens (← serializeToken buffer token) tokens

def evalSerialize (ctx : Context UInt64) : Option (List UInt8) := do
  let buffer : Buffer := ⟨evalStaticBufferSize, []⟩
  let buffer ← buffer.put (← serializeUint31Compact ctx.stack.length)
  let buffer ← serializeTokens buffer ctx.stack
  let len := buffer.bytes.length % 2 ^ 32
  return (← serializeUint31Compact len) ++ buffer.bytes.take len

end

def evalSetException (message : List Char) : Context UInt64 where
  expression := []
  rules := 0
  stack := [⟨tokenVarStr, 0, ⟨0, 0⟩, .str message⟩, ⟨tokenException, 0, ⟨0, 0⟩, .none⟩]

section

def readWord (n : ℕ) (data : List UInt8) : Option (ℕ × List UInt8) :=
  if n ≤ data.length then some (decodeWord (data.take n), data.drop n) else none

def readStr (data : List UInt8) : Option (List UInt8 × List UInt8) :=
  let text := data.takeWhile (· ≠ 0)
  match data.drop text.length with
  | [] => none
  | _ :: data => some (text, data)

def deserializeVariant : List UInt8 → Option (Variant UInt64 × List UInt8)
  | [] => none
  | type :: data =>
    if type = variantUi64 then do
      let (n, data) ← readWord 8 data
      return (.ui64 (UInt64.ofNat n), data)
    else if type = variantDbl then do
      let (n, data) ← readWord 8 data
      return (.dbl (UInt64.ofNat n), data)
    else if type = variantStr then do
      let (text, data) ← readStr data
      return (.str (text.map byteChar), data)
    else some (.none, data)

def deserializeHead (data : List UInt8) : Option ((ℕ × ℕ × ℕ × ℕ) × List UInt8) := do
  let (type, data) ← readWord 4 data
  let (opt, data) ← deserializeUint31Compact data
  let (l, data) ← deserializeUint31Compact data
  let (r, data) ← deserializeUint31Compact data
  return ((type, opt, l, r), data)

def deserializeTokens : ℕ → List UInt8 → Option (List (Token UInt64) × List UInt8)
  | 0, data => some ([], data)
  | n + 1, data => do
    let ((type, opt, l, r), data) ← deserializeHead data
    let (value, data) ← deserializeVariant data
    let (tokens, data) ← deserializeTokens n data
    return (⟨UInt32.ofNat type, UInt32.ofNat opt, ⟨l, r⟩, value⟩ :: tokens, data)

def evalDeserialize (expression : List Char) (rules : Rules) (data : List UInt8) : Option (Context UInt64) := do
  let (_, data) ← deserializeUint31Compact data
  let (tokensNum, data) ← deserializeUint31Compact data
  let (stack, _) ← deserializeTokens tokensNum data
  return ⟨expression, rules, stack⟩

end

section

/-- `zbx_is_uint64_n` on the text after `l`, whose length is `r - l - 1` in unsigned words of the given size. -/
def functionidAt (expression : List Char) (word l r : ℕ) : Option ℕ :=
  Expr.isUintNRange ((expression.drop (l + 1)).take ((word + r - l - 1) % word)) 0 18446744073709551615

def extractFunctionid (expression : List Char) (token : Token UInt64) : Option ℕ :=
  if token.type ≠ tokenFunctionid then none
  else match token.value with
    | .ui64 n => some n.toNat
    | .none => functionidAt expression (2 ^ 64) token.loc.l token.loc.r
    | _ => none

def evalGetFunctionids (ctx : Context UInt64) : List ℕ := ctx.stack.filterMap (extractFunctionid ctx.expression)

def skipVariant : List UInt8 → Option (Option (List UInt8))
  | [] => none
  | type :: data =>
    if type = variantUi64 then some (some (data.drop 8))
    else if type = variantDbl then some (some (data.drop 8))
    else if type = variantStr then (readStr data).map fun read => some read.2
    else if type = variantNone then some (some data)
    else some none

def serializedFunctionids (expression : List Char) : ℕ → List UInt8 → Option (List ℕ × Bool)
  | 0, _ => some ([], true)
  | n + 1, data => do
    let ((type, _, l, r), data) ← deserializeHead data
    match ← skipVariant data with
    | none => return ([], false)
    | some data =>
      let (ids, complete) ← serializedFunctionids expression n data
      if UInt32.ofNat type = tokenFunctionid then
        return ((functionidAt expression (2 ^ 32) l r).toList ++ ids, complete)
      else return (ids, complete)

def uniq : List ℕ → List ℕ
  | x :: y :: xs => if x = y then uniq (y :: xs) else x :: uniq (y :: xs)
  | xs => xs

def getSerializedExpressionFunctionids (expression : List Char) (data : List UInt8) : Option (List ℕ) := do
  let (_, data) ← deserializeUint31Compact data
  let (tokensNum, data) ← deserializeUint31Compact data
  let (ids, complete) ← serializedFunctionids expression tokensNum data
  return if complete then uniq (ids.mergeSort (· ≤ ·)) else ids

end

end Glaber.Eval
