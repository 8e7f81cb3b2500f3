import Glaber.Lib.Traced

/-! Reading and writing ASN.1 values (`asn1.c`). A `char` is signed, and the arithmetic of `int` wraps. -/

namespace Glaber.Poller

open Glaber.Lib

abbrev Mem := ℤ → UInt8

def cint (x : ℤ) : ℤ := x.bmod (2 ^ 32)

def schar (c : UInt8) : ℤ := c.toInt8.toInt

inductive Access where
  | read (index limit : ℤ)
  | block (index count limit : ℤ)
  | move (cursor limit : ℤ)
  | enter (inner outer : ℤ)
deriving DecidableEq

structure Asn1Error where
  pos : ℤ
  message : String
deriving DecidableEq

abbrev Dec (α : Type) : Type := Traced ℤ Access (Option Asn1Error) α

namespace Asn1

def int : UInt8 := 0x2
def octStr : UInt8 := 0x4
def oid : UInt8 := 0x6
def seq : UInt8 := 0x10
def constructor : UInt8 := 0x20
def longLen : UInt8 := 0x80

def failWith (message : String) : Dec α := do
  let i ← Traced.get
  Traced.fail (some ⟨i, message⟩)

def setError (message : String) (d : Dec α) : Dec α :=
  Traced.mapError (fun i e => some (e.getD ⟨i, message⟩)) d

variable (b : Mem)

def readByte (l : ℤ) : Dec UInt8 := do
  let i ← Traced.get
  Traced.note (.read i l)
  Traced.set (i + 1)
  return b i

def moreBytes (b : Mem) (l : ℤ) : ℕ → ℤ → Dec ℤ
  | 0, res => return res
  | n + 1, res => do
    let c ← readByte b l
    moreBytes b l n (cint (res * 256 + c.toNat))

def decLength (l : ℤ) : Dec ℤ := do
  let i ← Traced.get
  if l ≤ i then return -1
  else
    let c ← readByte b l
    if c &&& longLen ≠ longLen then return c.toNat
    else
      let n := (c &&& 0xf).toNat
      let i ← Traced.get
      if l < cint (i + n) then return -1
      else moreBytes b l n 0

/-- The length of a number is a single signed byte. -/
def decCounted (l : ℤ) (body : ℤ → Dec α) : Dec α := do
  let i ← Traced.get
  if l ≤ i then Traced.fail none
  else
    let n := schar (← readByte b l)
    let i ← Traced.get
    if l < cint (i + n) then Traced.fail none else body n

-- The first byte is read as signed.
def intBytes (l n : ℤ) : Dec Int32 :=
  if n ≤ 0 then return 0
  else do
    let c ← readByte b l
    let res ← moreBytes b l (n - 1).toNat (schar c)
    return Int32.ofInt res

def decInt (l : ℤ) : Dec Int32 := decCounted b l (intBytes b l)

def longBytes (b : Mem) (l : ℤ) : ℕ → UInt64 → Dec UInt64
  | 0, res => return res
  | n + 1, res => do
    let c ← readByte b l
    longBytes b l n (res <<< 8 ||| c.toUInt64)

def decLong (l : ℤ) : Dec UInt64 := decCounted b l fun n => longBytes b l n.toNat 0

def decBody (l : ℤ) (body : ℤ → Dec α) : Dec α := do
  let n ← decLength b l
  if n < 0 then Traced.fail none
  else
    let i ← Traced.get
    if l < cint (i + n) then Traced.fail none else body n

def strBytes (l : ℤ) (val : Bool) (n : ℤ) : Dec (List UInt8) := do
  let i ← Traced.get
  if val then Traced.note (.block i n l)
  Traced.note (.move (cint (i + n)) l)
  Traced.set (cint (i + n))
  return if val then (List.range n.toNat).map fun k => b (i + k) else []

def decString (l : ℤ) (val : Bool) : Dec (List UInt8) := decBody b l (strBytes b l val)

def oidBytes (b : Mem) (l : ℤ) : ℕ → ℤ → List ℤ → Dec (List ℤ)
  | 0, _, ids => return ids
  | n + 1, buf, ids => do
    let q ← readByte b l
    let buf := cint (buf * 128 + (q &&& 0x7f).toNat)
    if q &&& 0x80 = 0 then oidBytes b l n 0 (ids ++ [buf]) else oidBytes b l n buf ids

def idBytes (l n : ℤ) : Dec (List ℤ) :=
  if n = 0 then return []
  else do
    let c := schar (← readByte b l)
    oidBytes b l (n - 1).toNat 0 [c.tdiv 40, c.tmod 40]

def decOid (l : ℤ) : Dec (List ℤ) := decBody b l (idBytes b l)

def decSequence (l : ℤ) (c : ℤ → UInt8 → Dec α) : Dec α := do
  let i ← Traced.get
  if l ≤ i then Traced.fail none
  else
    let tp ← readByte b l
    let rl ← decLength b l
    if rl < 0 then Traced.fail none
    else
      let i ← Traced.get
      Traced.note (.enter (cint (i + rl)) l)
      c (cint (i + rl)) tp

def shifts : ℕ → ℕ → ℕ
  | 0, _ => 0
  | fuel + 1, q => if q = 0 then 0 else shifts fuel (q / 256) + 1

def intLen (val : Int32) : ℕ := 1 + shifts 4 (val.toInt / 256 % 2 ^ 32).toNat

/-- A shift by the width of the number has no defined result, `wide` is what the processor makes of it. -/
def shiftedByte (wide : UInt8) (val : Int32) (j : ℕ) : UInt8 :=
  if j < 4 then UInt8.ofNat (val.toInt / 256 ^ j % 256).toNat else wide

def encInt (wide : UInt8) (tp : UInt8) (val : Int32) : List UInt8 :=
  tp :: UInt8.ofNat (intLen val) :: (List.range (intLen val)).reverse.map (shiftedByte wide val)

end Asn1

end Glaber.Poller
