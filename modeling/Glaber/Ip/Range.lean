import Glaber.Expr.Interval

/-! Ranges of IP addresses (`iprange.c`). A pointer into the address is the text from there on, up to its NUL; what stands in
memory behind the NUL is a parameter. A write outside of the groups of the range is told apart from failing. -/

namespace Glaber.Ip

section

inductive Stop where
  | fail
  | overflow
deriving DecidableEq

abbrev Run (α : Type) := Except Stop α

end

section

def groupsV4 : ℕ := 4
def groupsV6 : ℕ := 8

structure Group where
  rangeFrom : ℕ
  rangeTo : ℕ
deriving DecidableEq

inductive RangeType where
  | v4
  | v6
deriving DecidableEq

structure IpRange where
  range : Fin groupsV6 → Group
  type : RangeType
  mask : Bool
deriving DecidableEq

def IpRange.set (iprange : IpRange) (index : ℕ) (group : Group) : Run IpRange :=
  if h : index < groupsV6 then .ok { iprange with range := Function.update iprange.range ⟨index, h⟩ group }
  else .error .overflow

def applyMaskLoop (groupBits : ℕ) : ℕ → ℕ → IpRange → Run IpRange
  | _, 0, iprange => .ok iprange
  | 0, _ + 1, _ => .error .overflow
  | i + 1, bits@(_ + 1), iprange =>
    if h : i < groupsV6 then
      let maskBits := min bits groupBits
      let group := iprange.range ⟨i, h⟩
      let masked := ⟨group.rangeFrom >>> maskBits <<< maskBits, group.rangeTo ||| (2 ^ maskBits - 1)⟩
      applyMaskLoop groupBits i (bits - groupBits)
        { iprange with range := Function.update iprange.range ⟨i, h⟩ masked }
    else .error .overflow

def applyMask (iprange : IpRange) (bits : ℕ) : Run IpRange :=
  match iprange.type with
  | .v4 => applyMaskLoop 8 groupsV4 (groupsV4 * 8 - bits) iprange
  | .v6 => applyMaskLoop 16 groupsV6 (groupsV6 * 16 - bits) iprange

end

section

def isWhitespaceCharacter (value : Char) : Bool := value = ' ' || value = '\r' || value = '\n' || value = '\t'

def addressLength (address : List Char) : ℕ := (address.reverse.dropWhile isWhitespaceCharacter).length

def strchr (text : List Char) (c : Char) : Option (List Char) :=
  match text.dropWhile (· ≠ c) with
  | [] => none
  | p@(_ :: _) => some p

/-- The character behind a pointer, that of the memory behind the text when the pointer is at the NUL. -/
def charBehind (memory : List Char) : List Char → Char
  | [] => memory.head?.getD '\x00'
  | [_] => '\x00'
  | _ :: c :: _ => c

def hexValue (c : Char) : Option ℕ :=
  if '0' ≤ c ∧ c ≤ '9' then some (c.toNat - '0'.toNat)
  else if 'a' ≤ c ∧ c ≤ 'f' then some (10 + (c.toNat - 'a'.toNat))
  else if 'A' ≤ c ∧ c ≤ 'F' then some (10 + (c.toNat - 'A'.toNat))
  else none

def hexLoop : ℕ → ℕ → List Char → Option ℕ
  | value, _, [] => some value
  | value, len, c :: str => do
    let digit ← hexValue c
    if 16 < len + 1 ∧ 2 ^ 60 - 1 < value then none else hexLoop ((value * 16 + digit) % 2 ^ 64) (len + 1) str

def isHexNRange (str : List Char) (min max : ℕ) : Option ℕ :=
  if str = [] then none
  else do
    let value ← hexLoop 0 0 str
    if value < min ∨ max < value then none else return value

end

section

def addressEnd (maxBits : ℕ) (address : List Char) : Run (ℕ × Option ℕ) :=
  let len := addressLength address
  match strchr address '/' with
  | some stop =>
    match Expr.isUintNRange (stop.tail.take (len - (address.length - stop.length + 1))) 0 maxBits with
    | none => .error .fail
    | some bits => .ok (stop.length, some bits)
  | none => .ok (address.length - len, none)

def parseGroup (number : List Char → Option ℕ) (bits : Option ℕ) (address ptr : List Char) : Option Group :=
  let single := (number (address.take (address.length - ptr.length))).map fun value => ⟨value, value⟩
  match strchr address '-' with
  | none => single
  | some dash =>
    if bits.isSome then none
    else if dash.length < ptr.length then single
    else do
      let first ← number (address.take (address.length - dash.length))
      let last ← number (dash.tail.take (dash.tail.length - ptr.length))
      if last < first then none else return ⟨first, last⟩

def decimal255 (text : List Char) : Option ℕ := Expr.isUintNRange text 0 255

def hex16 (text : List Char) : Option ℕ := isHexNRange text 0 65535

def groupEnd (separator : Char) (endLength : ℕ) (address : List Char) : List Char :=
  (strchr address separator).getD (address.drop (address.length - endLength))

def v4Loop (bits : Option ℕ) (endLength : ℕ) : ℕ → List Char → List Char → IpRange → Run (ℕ × IpRange)
  | 0, _, _, iprange => .ok (groupsV4, iprange)
  | n + 1, ptr, address, iprange =>
    let index := groupsV4 - (n + 1)
    if endLength < ptr.length then do
      let ptr := groupEnd '.' endLength address
      match parseGroup decimal255 bits address ptr with
      | none => .error .fail
      | some group =>
        let iprange ← iprange.set index group
        v4Loop bits endLength n ptr ptr.tail iprange
    else .ok (index, iprange)

def masked (bits : Option ℕ) (iprange : IpRange) : Run IpRange :=
  match bits with
  | none => .ok iprange
  | some bits => applyMask iprange bits

def iprangev4Parse (iprange : IpRange) (address : List Char) : Run IpRange := do
  let (endLength, bits) ← addressEnd 30 address
  let (index, iprange) ← v4Loop bits endLength groupsV4 address address { iprange with type := .v4, mask := bits.isSome }
  if index ≠ groupsV4 then .error .fail else masked bits iprange

structure V6State where
  index : ℕ
  fill : Option ℕ
  ptr : List Char
  iprange : IpRange

variable (memory : List Char)

/-- Behind `check_fill`; whether the loop is left. -/
def checkFill (endLength : ℕ) (s : V6State) : Run (V6State × Bool) :=
  if s.ptr ≠ [] ∧ charBehind memory s.ptr = ':' then
    if s.fill.isSome then .error .fail
    else do
      let iprange ← s.iprange.set s.index ⟨0, 0⟩
      let ptr := s.ptr.tail
      return (⟨s.index + 1, some s.index, ptr, iprange⟩, ptr.length = endLength + 1)
  else return (s, false)

def readGroup (bits : Option ℕ) (endLength : ℕ) (s : V6State) (address : List Char) : Run V6State :=
  let ptr := groupEnd ':' endLength address
  if ptr.length = address.length then
    if charBehind memory ptr ≠ ':' then .error .fail else .ok { s with ptr := ptr }
  else
    match parseGroup hex16 bits address ptr with
    | none => .error .fail
    | some group => do
      let iprange ← s.iprange.set s.index group
      return ⟨s.index + 1, s.fill, ptr, iprange⟩

def v6Loop (bits : Option ℕ) (endLength : ℕ) : ℕ → V6State → List Char → Run V6State
  | 0, s, _ => .ok s
  | fuel + 1, s, address =>
    if endLength < s.ptr.length ∧ s.index < groupsV6 then do
      let s ← readGroup memory bits endLength s address
      let (s, left) ← checkFill memory endLength s
      if left then return s else v6Loop bits endLength fuel s s.ptr.tail
    else .ok s

def shiftLoop (fill : ℕ) : ℕ → ℕ → IpRange → Run (ℕ × IpRange)
  | 0, target, iprange => .ok (target, iprange)
  | index + 1, target, iprange =>
    if fill < index then
      if h : index < groupsV6 then do
        let iprange ← iprange.set target (iprange.range ⟨index, h⟩)
        shiftLoop fill index (target - 1) iprange
      else .error .overflow
    else .ok (target, iprange)

def zeroLoop (fill : ℕ) : ℕ → IpRange → Run IpRange
  | 0, iprange => .ok iprange
  | target + 1, iprange =>
    if fill < target + 1 then do
      let iprange ← iprange.set (target + 1) ⟨0, 0⟩
      zeroLoop fill target iprange
    else .ok iprange

def expand (s : V6State) : Run IpRange :=
  if groupsV6 < s.index then .error .fail
  else if s.index < groupsV6 then
    match s.fill with
    | none => .error .fail
    | some fill => do
      let (target, iprange) ← shiftLoop fill s.index 7 s.iprange
      zeroLoop fill target iprange
  else .ok s.iprange

def iprangev6Parse (iprange : IpRange) (address : List Char) : Run IpRange := do
  let (endLength, bits) ← addressEnd 128 address
  let s ← v6Loop memory bits endLength (groupsV6 + 2) ⟨0, none, address, { iprange with type := .v6, mask := bits.isSome }⟩
    address
  let iprange ← expand s
  masked bits iprange

def iprangeParse (iprange : IpRange) (address : List Char) : Run IpRange :=
  let address := address.dropWhile isWhitespaceCharacter
  if (strchr address '.').isSome then iprangev4Parse iprange address else iprangev6Parse memory iprange address

end

end Glaber.Ip
