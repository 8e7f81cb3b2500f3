import Glaber.Common
import Glaber.Poller.Asn1

/-! SNMP messages (`csnmp.c`): the decoder of a received datagram. -/

namespace Glaber.Poller.Csnmp

open Glaber.Lib Glaber.Poller.Asn1

def cmdGetBulk : UInt8 := 0xa5

inductive VarValue where
  | int (val : Int32)
  | long (val : UInt64)
  | str (val : List UInt8)
  | oid (val : List ℤ)
  | none
deriving DecidableEq

structure Var where
  oid : List ℤ
  type : ℤ
  value : VarValue
deriving DecidableEq

structure Pdu where
  version : Int32
  community : List UInt8
  command : UInt8
  reqId : Int32
  -- the error status and index, or the maximum of repeaters and of repetitions
  first : Int32
  second : Int32
  vars : List Var
deriving DecidableEq

/-- The types above `0x7f` reach the switch as negative numbers, so that none of its cases names them. -/
def decValue (b : Mem) (l : ℤ) (type : ℤ) : Dec VarValue :=
  if type ∈ [0x1, 0x2, 0x41, 0x42] then return .int (← decInt b l)
  else if type ∈ [0x46, 0x50, 0x51, 0x43] then return .long (← decLong b l)
  else if type = 0x6 then return .oid (← decOid b l)
  else if type ∈ [0x5, 0x80, 0x81, 0x82] then do
    let _ ← decString b l false
    return .none
  else return .str (← decString b l true)

def decVar (b : Mem) (l : ℤ) (_ : UInt8) : Dec Var := do
  let tag ← readByte b l
  if tag ≠ Asn1.oid then failWith "expected oid"
  else
    let oid ← setError "bad oid" (decOid b l)
    let type := schar (← readByte b l)
    let value ← setError "bad var value" (decValue b l type)
    return ⟨oid, type, value⟩

def decVars (b : Mem) (l : ℤ) : ℕ → List Var → Dec (List Var)
  | 0, vars => return vars
  | fuel + 1, vars => do
    let i ← Traced.get
    if i < l then do
      let v ← decSequence b l (decVar b)
      decVars b l fuel (vars ++ [v])
    else return vars

def decPdu3 (b : Mem) (l : ℤ) (_ : UInt8) : Dec (List Var) := do
  let i ← Traced.get
  let vars ← decVars b l (l - i).toNat []
  let i ← Traced.get
  if i ≠ l then failWith "unexpected end of stream" else return vars

def decField (b : Mem) (l : ℤ) (expected bad : String) : Dec Int32 := do
  let tag ← readByte b l
  if tag ≠ Asn1.int then failWith expected else setError bad (decInt b l)

def decPdu2 (b : Mem) (version : Int32) (community : List UInt8) (l : ℤ) (tp : UInt8) : Dec Pdu := do
  let reqId ← decField b l "request id expected" "bad request id"
  let (first, second) ←
    if tp = cmdGetBulk then do
      let maxRepeaters ← decField b l "max repeaters expected" "bad max repeaters"
      let maxRepetitions ← decField b l "max repetitions expected" "bad max repetitions"
      pure (maxRepeaters, maxRepetitions)
    else do
      let errorStatus ← decField b l "error status expected" "bad error status"
      let errorIndex ← decField b l "error index expected" "bad error index"
      pure (errorStatus, errorIndex)
  let vars ← setError "pdu2 seq" (decSequence b l (decPdu3 b))
  return ⟨version, community, tp, reqId, first, second, vars⟩

def decHeader (b : Mem) (pdu2 : Int32 → List UInt8 → ℤ → UInt8 → Dec α) (l : ℤ) (_ : UInt8) : Dec α := do
  let i ← Traced.get
  if l ≤ i then failWith "empty stream"
  else
    let version ← decField b l "version expected" "unsupported version"
    let i ← Traced.get
    if l ≤ i then failWith "unexpected end of stream"
    else
      let tag ← readByte b l
      if tag ≠ octStr then failWith "community expected"
      else
        let community ← setError "bad community" (decString b l true)
        setError "pdu1 seq" (decSequence b l (pdu2 version community))

def decPdu (b : Mem) : ℤ → UInt8 → Dec Pdu := decHeader b (decPdu2 b)

def snmpDecPdu (b : Mem) (bufLen : Int32) : Dec Pdu := do
  let pdu ← setError "pdu seq" (decSequence b bufLen.toInt (decPdu b))
  let i ← Traced.get
  if i < bufLen.toInt then failWith "unused data at the end of pdu"
  else if bufLen.toInt < i then failWith "unexpected end of stream"
  else return pdu

open Glaber.Lib Glaber.Lib.Traced Glaber.Poller.Asn1

/-- Every byte read is one of the datagram, and neither a byte read nor a cursor moved nor a declared end is past the
end of the sequence around it. -/
def Inside (bufLen : Int32) : Access → Prop
  | .read i l => 0 ≤ i ∧ i < bufLen.toInt ∧ i < l
  | .block i n l => 0 ≤ i ∧ i + n ≤ bufLen.toInt ∧ i + n ≤ l
  | .move i l => 0 ≤ i ∧ i ≤ l
  | .enter inner outer => inner ≤ outer

section

variable (b : Mem) (l i : ℤ)

-- A count of bytes keeps the cursor an `int`.
def LengthFits : Prop := i < l → b i &&& longLen = longLen → i + 1 + (b i &&& 0xf).toNat < 2 ^ 31

def IntFits : Prop := i < l → i + 1 + schar (b i) < 2 ^ 31

def BodyFits : Prop := LengthFits b l i ∧ ∀ n i', Ends (decLength b l) i n i' → 0 ≤ n → i' + n < 2 ^ 31

def FieldFits (next : ℤ → Prop) : Prop :=
  i < l ∧ (b i = Asn1.int → IntFits b l (i + 1) ∧ ∀ v i', Ends (decInt b l) (i + 1) v i' → next i')

def SequenceFits (body : ℤ → UInt8 → ℤ → Prop) : Prop :=
  i < l → LengthFits b l (i + 1) ∧ ∀ n i', Ends (decLength b l) (i + 1) n i' → 0 ≤ n →
    cint (i' + n) ≤ l ∧ body (cint (i' + n)) (b i) i'

def ValueFits (type : ℤ) : Prop :=
  if type ∈ [0x1, 0x2, 0x41, 0x42, 0x46, 0x50, 0x51, 0x43] then IntFits b l i else BodyFits b l i

def VarFits (_ : UInt8) : Prop :=
  i < l ∧ (b i = Asn1.oid → BodyFits b l (i + 1) ∧ ∀ ids i', Ends (decOid b l) (i + 1) ids i' →
    i' < l ∧ ValueFits b l (i' + 1) (schar (b i')))

inductive VarStart : ℤ → ℤ → Prop
  | here (i : ℤ) : VarStart i i
  | next {i i' j : ℤ} {v : Var} (hi : i < l) (hv : Ends (decSequence b l (decVar b)) i v i') (hj : VarStart i' j) :
      VarStart i j

def VarsFit (_ : UInt8) : Prop := ∀ j, VarStart b l i j → j < l → SequenceFits b l j fun l tp i => VarFits b l i tp

def Pdu2Fits (_ : UInt8) : Prop :=
  FieldFits b l i fun i => FieldFits b l i fun i => FieldFits b l i fun i =>
    SequenceFits b l i fun l tp i => VarsFit b l i tp

def PduFits (_ : UInt8) : Prop :=
  i < l → FieldFits b l i fun i => i < l → b i = octStr →
    BodyFits b l (i + 1) ∧ ∀ s i', Ends (decString b l true) (i + 1) s i' →
      SequenceFits b l i' fun l tp i => Pdu2Fits b l i tp

end

def Fits (b : Mem) (bufLen : Int32) : Prop := SequenceFits b bufLen.toInt 0 fun l tp i => PduFits b l i tp

section

variable {bufLen : Int32} {b : Mem} {l i i' : ℤ}

lemma bufLen_lt (bufLen : Int32) : bufLen.toInt < 2 ^ 31 := by
  have := bufLen.toInt_lt
  omega

lemma cint_of_lt {x : ℤ} (h0 : -2 ^ 31 ≤ x) (h1 : x < 2 ^ 31) : cint x = x := bmod_self h0 h1

lemma cint_of_ge {x : ℤ} (h0 : 2 ^ 31 ≤ x) (h1 : x < 2 ^ 32) : cint x = x - 2 ^ 32 := by
  rw [cint, Int.bmod]
  have hx : x % (2 ^ 32 : ℕ) = x := Int.emod_eq_of_lt (by omega) (by omega)
  rw [hx]
  split_ifs <;> omega

lemma cint_range (x : ℤ) : -2 ^ 31 ≤ cint x ∧ cint x < 2 ^ 31 := bmod_int x

lemma schar_range (c : UInt8) : -128 ≤ schar c ∧ schar c < 128 := by
  have h1 := c.toInt8.le_toInt
  have h2 := c.toInt8.toInt_lt
  rw [schar]
  omega

lemma safe_readByte : Safe (Inside bufLen) (readByte b l) i ↔ 0 ≤ i ∧ i < bufLen.toInt ∧ i < l := by
  simp [readByte, safe_bind, Inside]

lemma ends_readByte {c : UInt8} : Ends (readByte b l) i c i' ↔ b i = c ∧ i + 1 = i' := by
  simp [readByte, ends_bind]

lemma safe_readByte_bind {f : UInt8 → Dec α} :
    Safe (Inside bufLen) (readByte b l >>= f) i ↔
      (0 ≤ i ∧ i < bufLen.toInt ∧ i < l) ∧ Safe (Inside bufLen) (f (b i)) (i + 1) := by
  simp [safe_bind, safe_readByte, ends_readByte]

lemma ends_readByte_bind {f : UInt8 → Dec α} {x : α} :
    Ends (readByte b l >>= f) i x i' ↔ Ends (f (b i)) (i + 1) x i' := by
  simp [ends_bind, ends_readByte]

structure ByteLoop (b : Mem) (l : ℤ) (loop : ℕ → σ → Dec α) : Prop where
  stop : ∀ x, ∃ a, loop 0 x = pure a
  turn : ∀ n x, ∃ next : UInt8 → σ, loop (n + 1) x = readByte b l >>= fun c => loop n (next c)

lemma ByteLoop.safe {loop : ℕ → σ → Dec α} (h : ByteLoop b l loop) (n : ℕ) (x : σ) (hi : 0 ≤ i)
    (hl : l ≤ bufLen.toInt) (hil : i ≤ l) : Safe (Inside bufLen) (loop n x) i ↔ i + n ≤ l := by
  induction n generalizing i x with
  | zero =>
    obtain ⟨a, ha⟩ := h.stop x
    simp [ha, hil]
  | succ n ih =>
    obtain ⟨next, hturn⟩ := h.turn n x
    rw [hturn, safe_readByte_bind]
    push_cast
    constructor
    · rintro ⟨⟨_, _, hlt⟩, hrest⟩
      rw [ih _ (by omega) (by omega)] at hrest
      omega
    · intro hle
      refine ⟨by omega, ?_⟩
      rw [ih _ (by omega) (by omega)]
      omega

lemma ByteLoop.ends {loop : ℕ → σ → Dec α} (h : ByteLoop b l loop) (n : ℕ) (x : σ) {a : α}
    (hend : Ends (loop n x) i a i') : i' = i + n := by
  induction n generalizing i x with
  | zero =>
    obtain ⟨a', ha⟩ := h.stop x
    rw [ha] at hend
    simpa using ((ends_pure _ _).mp hend).2.symm
  | succ n ih =>
    obtain ⟨next, hturn⟩ := h.turn n x
    rw [hturn, ends_readByte_bind] at hend
    rw [ih _ hend]
    push_cast
    ring

lemma moreBytes_loop : ByteLoop b l (moreBytes b l) := ⟨fun x => ⟨x, rfl⟩, fun _ _ => ⟨_, rfl⟩⟩

lemma longBytes_loop : ByteLoop b l (longBytes b l) := ⟨fun x => ⟨x, rfl⟩, fun _ _ => ⟨_, rfl⟩⟩

lemma oidBytes_loop : ByteLoop b l (fun n (x : ℤ × List ℤ) => oidBytes b l n x.1 x.2) := by
  refine ⟨fun x => ⟨x.2, rfl⟩, fun n x => ⟨fun q => if q &&& 0x80 = 0 then
    (0, x.2 ++ [cint (x.1 * 128 + (q &&& 0x7f).toNat)]) else (cint (x.1 * 128 + (q &&& 0x7f).toNat), x.2), ?_⟩⟩
  rw [oidBytes]
  refine congrArg _ (funext fun q => ?_)
  simp only
  split_ifs <;> rfl

lemma moreBytes_range (n : ℕ) {res r : ℤ} (h : Ends (moreBytes b l n res) i r i')
    (hres : -2 ^ 31 ≤ res ∧ res < 2 ^ 31) : -2 ^ 31 ≤ r ∧ r < 2 ^ 31 := by
  induction n generalizing i res with
  | zero =>
    obtain ⟨rfl, rfl⟩ := (ends_pure _ _).mp h
    exact hres
  | succ n ih =>
    rw [moreBytes, ends_readByte_bind] at h
    exact ih h (cint_range _)

end

section

variable {bufLen : Int32} {b : Mem} {l i i' : ℤ}

lemma safe_decLength (hi : 0 ≤ i) (hl : l ≤ bufLen.toInt) :
    Safe (Inside bufLen) (decLength b l) i ↔ LengthFits b l i := by
  have hmax := bufLen_lt bufLen
  rw [decLength, safe_get_bind, LengthFits]
  by_cases hil : l ≤ i
  · rw [if_pos hil]
    exact iff_of_true ((safe_pure _).mpr trivial) fun h => by omega
  rw [if_neg hil, safe_readByte_bind]
  by_cases hlong : b i &&& longLen ≠ longLen
  · rw [if_pos hlong]
    exact iff_of_true ⟨by omega, (safe_pure _).mpr trivial⟩ fun _ h => absurd h hlong
  rw [if_neg hlong]
  simp only [safe_get_bind]
  have hn : (b i &&& 0xf).toNat ≤ 15 := by
    rw [UInt8.toNat_and]
    exact Nat.and_le_right
  by_cases hsmall : i + 1 + (b i &&& 0xf).toNat < 2 ^ 31
  · rw [cint_of_lt (by omega) hsmall]
    refine iff_of_true ⟨by omega, ?_⟩ fun _ _ => hsmall
    by_cases hover : l < i + 1 + (b i &&& 0xf).toNat
    · rw [if_pos hover]
      exact (safe_pure _).mpr trivial
    · rw [if_neg hover, moreBytes_loop.safe _ _ (by omega) hl (by omega)]
      omega
  · -- the sum has wrapped, and the bytes counted go past any end
    rw [cint_of_ge (by omega) (by omega), if_neg (by omega), moreBytes_loop.safe _ _ (by omega) hl (by omega)]
    exact iff_of_false (fun h => by omega) fun h => hsmall (h (by omega) (not_not.mp hlong))

lemma ends_decLength (hi : 0 ≤ i) (hfit : LengthFits b l i) {n : ℤ}
    (h : Ends (decLength b l) i n i') (hn : 0 ≤ n) : i < l ∧ i + 1 ≤ i' ∧ i' ≤ l ∧ n < 2 ^ 31 := by
  rw [decLength, ends_get_bind] at h
  by_cases hil : l ≤ i
  · rw [if_pos hil] at h
    obtain ⟨rfl, -⟩ := (ends_pure _ _).mp h
    omega
  rw [if_neg hil, ends_readByte_bind] at h
  by_cases hlong : b i &&& longLen ≠ longLen
  · rw [if_pos hlong] at h
    obtain ⟨rfl, rfl⟩ := (ends_pure _ _).mp h
    have := (b i).toNat_lt
    omega
  rw [if_neg hlong] at h
  simp only [ends_get_bind] at h
  rw [cint_of_lt (by omega) (hfit (by omega) (not_not.mp hlong))] at h
  by_cases hover : l < i + 1 + (b i &&& 0xf).toNat
  · rw [if_pos hover] at h
    obtain ⟨rfl, -⟩ := (ends_pure _ _).mp h
    omega
  · rw [if_neg hover] at h
    have hend := moreBytes_loop.ends _ _ h
    have hrange := moreBytes_range _ h (by norm_num)
    omega

lemma int_check (hi : 0 ≤ i) (hil : i < l) (hl : l ≤ bufLen.toInt) {n : ℤ} (hn : -128 ≤ n ∧ n < 128) :
    (l < cint (i + 1 + n) ↔ l < i + 1 + n ∧ i + 1 + n < 2 ^ 31) := by
  have hmax := bufLen_lt bufLen
  by_cases hsmall : i + 1 + n < 2 ^ 31
  · rw [cint_of_lt (by omega) hsmall]
    omega
  · rw [cint_of_ge (by omega) (by omega)]
    omega

section

variable {body : ℤ → Dec α} (hi : 0 ≤ i) (hl : l ≤ bufLen.toInt)

include hi hl

lemma safe_decCounted
    (hbody : ∀ n j, 0 ≤ j → j ≤ l → (Safe (Inside bufLen) (body n) j ↔ n ≤ 0 ∨ j + n ≤ l)) :
    Safe (Inside bufLen) (decCounted b l body) i ↔ IntFits b l i := by
  have hmax := bufLen_lt bufLen
  rw [decCounted, safe_get_bind, IntFits]
  by_cases hil : l ≤ i
  · rw [if_pos hil]
    exact iff_of_true ((safe_fail _).mpr trivial) fun h => by omega
  rw [if_neg hil, safe_readByte_bind]
  simp only [safe_get_bind]
  have hn := schar_range (b i)
  have hcheck := int_check hi (by omega) hl hn
  by_cases hover : l < cint (i + 1 + schar (b i))
  · rw [if_pos hover]
    exact iff_of_true ⟨by omega, (safe_fail _).mpr trivial⟩ fun _ => (hcheck.mp hover).2
  · rw [if_neg hover, hbody _ _ (by omega) (by omega)]
    rw [hcheck] at hover
    omega

lemma ends_decCounted (hfit : IntFits b l i)
    (hbody : ∀ n j a j', Ends (body n) j a j' → j' = j + max n 0) {a : α}
    (h : Ends (decCounted b l body) i a i') : i + 1 ≤ i' ∧ i' ≤ l := by
  rw [decCounted, ends_get_bind] at h
  by_cases hil : l ≤ i
  · rw [if_pos hil] at h
    exact absurd h (by simp)
  rw [if_neg hil, ends_readByte_bind] at h
  simp only [ends_get_bind] at h
  have hn := schar_range (b i)
  have hsum := hfit (by omega)
  have hcheck := int_check hi (by omega) hl hn
  by_cases hover : l < cint (i + 1 + schar (b i))
  · rw [if_pos hover] at h
    exact absurd h (by simp)
  · rw [if_neg hover] at h
    rw [hcheck] at hover
    have := hbody _ _ _ _ h
    omega

lemma safe_decInt :
    Safe (Inside bufLen) (decInt b l) i ↔ IntFits b l i := by
  refine safe_decCounted hi hl fun n j hj hjl => ?_
  rw [intBytes]
  by_cases hneg : n ≤ 0
  · rw [if_pos hneg]
    exact iff_of_true ((safe_pure _).mpr trivial) (.inl hneg)
  rw [if_neg hneg, safe_readByte_bind, safe_bind]
  constructor
  · rintro ⟨⟨_, _, hlt⟩, hrest, _⟩
    rw [moreBytes_loop.safe _ _ (by omega) hl (by omega)] at hrest
    omega
  · intro hfit
    refine ⟨by omega, ?_, fun r t _ => (safe_pure _).mpr trivial⟩
    rw [moreBytes_loop.safe _ _ (by omega) hl (by omega)]
    omega

lemma ends_decInt (hfit : IntFits b l i) {v : Int32}
    (h : Ends (decInt b l) i v i') : i + 1 ≤ i' ∧ i' ≤ l := by
  refine ends_decCounted hi hl hfit (fun n j a j' hend => ?_) h
  rw [intBytes] at hend
  by_cases hneg : n ≤ 0
  · rw [if_pos hneg] at hend
    obtain ⟨-, rfl⟩ := (ends_pure _ _).mp hend
    omega
  · rw [if_neg hneg, ends_readByte_bind, ends_bind] at hend
    obtain ⟨r, t, hloop, hpure⟩ := hend
    obtain ⟨-, rfl⟩ := (ends_pure _ _).mp hpure
    have := moreBytes_loop.ends _ _ hloop
    omega

lemma safe_decLong :
    Safe (Inside bufLen) (decLong b l) i ↔ IntFits b l i := by
  refine safe_decCounted hi hl fun n j hj hjl => ?_
  rw [longBytes_loop.safe _ _ hj hl hjl]
  omega

lemma ends_decLong (hfit : IntFits b l i) {v : UInt64}
    (h : Ends (decLong b l) i v i') : i + 1 ≤ i' ∧ i' ≤ l := by
  refine ends_decCounted hi hl hfit (fun n j a j' hend => ?_) h
  have := longBytes_loop.ends _ _ hend
  omega

lemma safe_decBody
    (hbody : ∀ n j, 0 ≤ n → 0 ≤ j → j ≤ l → n < 2 ^ 31 → (Safe (Inside bufLen) (body n) j ↔ j + n ≤ l)) :
    Safe (Inside bufLen) (decBody b l body) i ↔ BodyFits b l i := by
  have hmax := bufLen_lt bufLen
  rw [decBody, safe_bind, safe_decLength hi hl, BodyFits]
  refine and_congr_right fun hfit => forall_congr' fun n => forall_congr' fun j => imp_congr_right fun hlen => ?_
  by_cases hneg : n < 0
  · rw [if_pos hneg]
    exact iff_of_true ((safe_fail _).mpr trivial) fun h => by omega
  obtain ⟨_, hj, hjl, hn⟩ := ends_decLength hi hfit hlen (by omega)
  rw [if_neg hneg, safe_get_bind]
  by_cases hsmall : j + n < 2 ^ 31
  · rw [cint_of_lt (by omega) hsmall]
    refine iff_of_true ?_ fun _ => hsmall
    by_cases hover : l < j + n
    · rw [if_pos hover]
      exact (safe_fail _).mpr trivial
    · rw [if_neg hover, hbody n j (by omega) (by omega) hjl hn]
      omega
  · rw [cint_of_ge (by omega) (by omega), if_neg (by omega), hbody n j (by omega) (by omega) hjl hn]
    omega

omit hl in
lemma ends_decBody (hfit : BodyFits b l i)
    (hbody : ∀ n j a j', 0 ≤ n → 0 ≤ j → j + n < 2 ^ 31 → Ends (body n) j a j' → j' = j + n) {a : α}
    (h : Ends (decBody b l body) i a i') : i + 1 ≤ i' ∧ i' ≤ l := by
  rw [decBody, ends_bind] at h
  obtain ⟨n, j, hlen, h⟩ := h
  by_cases hneg : n < 0
  · rw [if_pos hneg] at h
    exact absurd h (by simp)
  obtain ⟨_, hj, hjl, hn⟩ := ends_decLength hi hfit.1 hlen (by omega)
  have hsmall := hfit.2 n j hlen (by omega)
  rw [if_neg hneg, ends_get_bind, cint_of_lt (by omega) hsmall] at h
  by_cases hover : l < j + n
  · rw [if_pos hover] at h
    exact absurd h (by simp)
  · rw [if_neg hover] at h
    have := hbody n j a i' (by omega) (by omega) hsmall h
    omega

lemma safe_decString (val : Bool) :
    Safe (Inside bufLen) (decString b l val) i ↔ BodyFits b l i := by
  have hmax := bufLen_lt bufLen
  refine safe_decBody hi hl fun n j hn hj hjl hnmax => ?_
  have hmove : (0 ≤ cint (j + n) ∧ cint (j + n) ≤ l) ↔ j + n ≤ l := by
    by_cases hsmall : j + n < 2 ^ 31
    · rw [cint_of_lt (by omega) hsmall]
      omega
    · rw [cint_of_ge (by omega) (by omega)]
      omega
  rw [strBytes, safe_get_bind]
  cases val with
  | true =>
    simp only [if_true, safe_note_bind, safe_set_bind, safe_pure, and_true, Inside, hmove]
    omega
  | false =>
    simp only [Bool.false_eq_true, if_false, safe_note_bind, safe_set_bind, safe_pure, and_true, Inside, hmove]

omit hl in
lemma ends_decString (hfit : BodyFits b l i) {val : Bool} {str : List UInt8}
    (h : Ends (decString b l val) i str i') : i + 1 ≤ i' ∧ i' ≤ l := by
  refine ends_decBody hi hfit (fun n j a j' hn hj hsmall hend => ?_) h
  rw [strBytes, ends_get_bind, cint_of_lt (by omega) hsmall] at hend
  cases val with
  | true =>
    simp only [if_true, ends_note_bind, ends_set_bind, ends_pure] at hend
    exact hend.2.symm
  | false =>
    simp only [Bool.false_eq_true, if_false, ends_note_bind, ends_set_bind, ends_pure] at hend
    exact hend.2.symm

lemma safe_decOid :
    Safe (Inside bufLen) (decOid b l) i ↔ BodyFits b l i := by
  refine safe_decBody hi hl fun n j hn hj hjl _ => ?_
  rw [idBytes]
  by_cases hzero : n = 0
  · rw [if_pos hzero]
    exact iff_of_true ((safe_pure _).mpr trivial) (by omega)
  · rw [if_neg hzero, safe_readByte_bind]
    constructor
    · rintro ⟨⟨_, _, hlt⟩, hrest⟩
      rw [oidBytes_loop.safe _ (0, _) (by omega) hl (by omega)] at hrest
      omega
    · intro hle
      refine ⟨by omega, ?_⟩
      rw [oidBytes_loop.safe _ (0, _) (by omega) hl (by omega)]
      omega

omit hl in
lemma ends_decOid (hfit : BodyFits b l i) {ids : List ℤ}
    (h : Ends (decOid b l) i ids i') : i + 1 ≤ i' ∧ i' ≤ l := by
  refine ends_decBody hi hfit (fun n j a j' hn hj _ hend => ?_) h
  rw [idBytes] at hend
  by_cases hzero : n = 0
  · rw [if_pos hzero] at hend
    obtain ⟨-, rfl⟩ := (ends_pure _ _).mp hend
    omega
  · rw [if_neg hzero, ends_readByte_bind] at hend
    have := oidBytes_loop.ends _ (0, _) hend
    omega

end

lemma safe_decSequence (hi : 0 ≤ i) (hl : l ≤ bufLen.toInt) {c : ℤ → UInt8 → Dec α} {body : ℤ → UInt8 → ℤ → Prop}
    (hbody : ∀ inner tp j, 0 ≤ j → inner ≤ bufLen.toInt → (Safe (Inside bufLen) (c inner tp) j ↔ body inner tp j)) :
    Safe (Inside bufLen) (decSequence b l c) i ↔ SequenceFits b l i body := by
  rw [decSequence, safe_get_bind, SequenceFits]
  by_cases hil : l ≤ i
  · rw [if_pos hil]
    exact iff_of_true ((safe_fail _).mpr trivial) fun h => by omega
  have hin : 0 ≤ i ∧ i < bufLen.toInt ∧ i < l := by omega
  rw [if_neg hil, safe_readByte_bind, safe_bind, safe_decLength (by omega) hl, and_iff_right hin,
    forall_prop_of_true hin.2.2]
  refine and_congr_right fun hfit => forall_congr' fun n => forall_congr' fun j => imp_congr_right fun hlen => ?_
  by_cases hneg : n < 0
  · rw [if_pos hneg]
    exact iff_of_true ((safe_fail _).mpr trivial) fun h => by omega
  obtain ⟨_, hj, _, _⟩ := ends_decLength (by omega) hfit hlen (by omega)
  rw [if_neg hneg, safe_get_bind, safe_note_bind, forall_prop_of_true (by omega)]
  refine and_congr_right fun hle => hbody _ _ _ (by omega) ?_
  exact le_trans hle hl

lemma ends_decSequence_iff {c : ℤ → UInt8 → Dec α} {a : α} : Ends (decSequence b l c) i a i' ↔
    i < l ∧ ∃ n j, Ends (decLength b l) (i + 1) n j ∧ 0 ≤ n ∧ Ends (c (cint (j + n)) (b i)) j a i' := by
  rw [decSequence, ends_get_bind]
  by_cases hil : l ≤ i
  · rw [if_pos hil]
    exact iff_of_false (by simp) fun h => by omega
  rw [if_neg hil, ends_readByte_bind, ends_bind, and_iff_right (by omega)]
  refine exists_congr fun n => exists_congr fun j => and_congr_right fun _ => ?_
  by_cases hneg : n < 0
  · rw [if_pos hneg]
    exact iff_of_false (by simp) fun h => by omega
  · rw [if_neg hneg, ends_get_bind, ends_note_bind, and_iff_right (by omega)]

lemma ends_decSequence (hi : 0 ≤ i) {c : ℤ → UInt8 → Dec α} {body : ℤ → UInt8 → ℤ → Prop}
    (hfit : SequenceFits b l i body) {a : α} (h : Ends (decSequence b l c) i a i') :
    i < l ∧ ∃ n j, i + 2 ≤ j ∧ cint (j + n) ≤ l ∧ body (cint (j + n)) (b i) j ∧ Ends (c (cint (j + n)) (b i)) j a i' := by
  obtain ⟨hil, n, j, hlen, hn, hend⟩ := ends_decSequence_iff.mp h
  obtain ⟨hlfit, hrest⟩ := hfit hil
  obtain ⟨_, hj, _, _⟩ := ends_decLength (by omega) hlfit hlen hn
  obtain ⟨hle, hbody⟩ := hrest n j hlen hn
  exact ⟨hil, n, j, by omega, hle, hbody, hend⟩

lemma safe_failWith (message : String) : Safe (Inside bufLen) (failWith message : Dec α) i := by
  simp [failWith]

lemma not_ends_failWith {message : String} {a : α} : ¬ Ends (failWith message : Dec α) i a i' := by
  simp [failWith]

lemma safe_setError {message : String} {d : Dec α} :
    Safe (Inside bufLen) (setError message d) i ↔ Safe (Inside bufLen) d i := safe_mapError _

lemma ends_setError {message : String} {d : Dec α} {a : α} : Ends (setError message d) i a i' ↔ Ends d i a i' :=
  ends_mapError _ _

end

section

variable {bufLen : Int32} {b : Mem} {l i i' : ℤ}

section

variable (hi : 0 ≤ i) (hl : l ≤ bufLen.toInt)

include hi hl

lemma safe_decField {expected bad : String} :
    Safe (Inside bufLen) (decField b l expected bad) i ↔ i < l ∧ (b i = Asn1.int → IntFits b l (i + 1)) := by
  rw [decField, safe_readByte_bind]
  refine and_congr (by omega) ?_
  by_cases htag : b i ≠ Asn1.int
  · rw [if_pos htag]
    exact iff_of_true (safe_failWith _) fun h => absurd h htag
  · rw [if_neg htag, safe_setError, safe_decInt (by omega) hl, forall_prop_of_true (not_not.mp htag)]

omit hi hl in
lemma ends_decField {expected bad : String} {v : Int32} :
    Ends (decField b l expected bad) i v i' ↔ b i = Asn1.int ∧ Ends (decInt b l) (i + 1) v i' := by
  rw [decField, ends_readByte_bind]
  by_cases htag : b i ≠ Asn1.int
  · rw [if_pos htag]
    exact iff_of_false not_ends_failWith fun h => htag h.1
  · rw [if_neg htag, ends_setError, and_iff_right (not_not.mp htag)]

lemma safe_decField_bind {expected bad : String} {f : Int32 → Dec α}
    {next : ℤ → Prop} (hnext : ∀ v j, 0 ≤ j → (Safe (Inside bufLen) (f v) j ↔ next j)) :
    Safe (Inside bufLen) (decField b l expected bad >>= f) i ↔ FieldFits b l i next := by
  rw [FieldFits, safe_bind, safe_decField hi hl]
  constructor
  · rintro ⟨⟨hil, hint⟩, hrest⟩
    refine ⟨hil, fun htag => ⟨hint htag, fun v j hv => ?_⟩⟩
    have hj := ends_decInt (by omega) hl (hint htag) hv
    exact (hnext v j (by omega)).mp (hrest v j (ends_decField.mpr ⟨htag, hv⟩))
  · rintro ⟨hil, hint⟩
    refine ⟨⟨hil, fun htag => (hint htag).1⟩, fun v j hv => ?_⟩
    obtain ⟨htag, hv⟩ := ends_decField.mp hv
    obtain ⟨hfit, hrest⟩ := hint htag
    have hj := ends_decInt (by omega) hl hfit hv
    exact (hnext v j (by omega)).mpr (hrest v j hv)

omit hi hl in
lemma number_types {type : ℤ} : type ∈ [(0x1 : ℤ), 0x2, 0x41, 0x42, 0x46, 0x50, 0x51, 0x43] ↔
    type ∈ [(0x1 : ℤ), 0x2, 0x41, 0x42] ∨ type ∈ [(0x46 : ℤ), 0x50, 0x51, 0x43] := by
  simp only [List.mem_cons, List.not_mem_nil, or_false]
  tauto

lemma safe_decValue (type : ℤ) :
    Safe (Inside bufLen) (decValue b l type) i ↔ ValueFits b l i type := by
  rw [decValue, ValueFits]
  by_cases hint : type ∈ [(0x1 : ℤ), 0x2, 0x41, 0x42]
  · rw [if_pos hint, if_pos (number_types.mpr (.inl hint)), safe_bind_pure, safe_decInt hi hl]
  rw [if_neg hint]
  by_cases hlong : type ∈ [(0x46 : ℤ), 0x50, 0x51, 0x43]
  · rw [if_pos hlong, if_pos (number_types.mpr (.inr hlong)), safe_bind_pure, safe_decLong hi hl]
  have hother : type ∉ [(0x1 : ℤ), 0x2, 0x41, 0x42, 0x46, 0x50, 0x51, 0x43] := fun h =>
    (number_types.mp h).elim hint hlong
  rw [if_neg hlong, if_neg hother]
  by_cases hoid : type = 0x6
  · rw [if_pos hoid, safe_bind_pure, safe_decOid hi hl]
  rw [if_neg hoid]
  by_cases hnull : type ∈ [(0x5 : ℤ), 0x80, 0x81, 0x82]
  · rw [if_pos hnull, safe_bind_pure, safe_decString hi hl]
  · rw [if_neg hnull, safe_bind_pure, safe_decString hi hl]

lemma ends_decValue {type : ℤ} (hfit : ValueFits b l i type) {v : VarValue}
    (h : Ends (decValue b l type) i v i') : i + 1 ≤ i' ∧ i' ≤ l := by
  rw [ValueFits] at hfit
  rw [decValue] at h
  by_cases hint : type ∈ [(0x1 : ℤ), 0x2, 0x41, 0x42]
  · rw [if_pos hint, ends_bind_pure] at h
    rw [if_pos (number_types.mpr (.inl hint))] at hfit
    obtain ⟨a, -, h⟩ := h
    exact ends_decInt hi hl hfit h
  rw [if_neg hint] at h
  by_cases hlong : type ∈ [(0x46 : ℤ), 0x50, 0x51, 0x43]
  · rw [if_pos hlong, ends_bind_pure] at h
    rw [if_pos (number_types.mpr (.inr hlong))] at hfit
    obtain ⟨a, -, h⟩ := h
    exact ends_decLong hi hl hfit h
  rw [if_neg hlong] at h
  rw [if_neg fun h => (number_types.mp h).elim hint hlong] at hfit
  by_cases hoid : type = 0x6
  · rw [if_pos hoid, ends_bind_pure] at h
    obtain ⟨a, -, h⟩ := h
    exact ends_decOid hi hfit h
  rw [if_neg hoid] at h
  by_cases hnull : type ∈ [(0x5 : ℤ), 0x80, 0x81, 0x82]
  · rw [if_pos hnull, ends_bind_pure] at h
    obtain ⟨a, -, h⟩ := h
    exact ends_decString hi hfit h
  · rw [if_neg hnull, ends_bind_pure] at h
    obtain ⟨a, -, h⟩ := h
    exact ends_decString hi hfit h

lemma safe_decVar (tp : UInt8) :
    Safe (Inside bufLen) (decVar b l tp) i ↔ VarFits b l i tp := by
  rw [decVar, VarFits, safe_readByte_bind]
  refine and_congr (by omega) ?_
  by_cases htag : b i ≠ Asn1.oid
  · rw [if_pos htag]
    exact iff_of_true (safe_failWith _) fun h => absurd h htag
  rw [if_neg htag, forall_prop_of_true (not_not.mp htag), safe_bind, safe_setError, safe_decOid (by omega) hl]
  refine and_congr_right fun hfit => forall_congr' fun ids => forall_congr' fun j => ?_
  rw [ends_setError]
  refine imp_congr_right fun hids => ?_
  have hj := ends_decOid (by omega) hfit hids
  rw [safe_readByte_bind, safe_bind_pure, safe_setError, safe_decValue (by omega) hl]
  exact and_congr_left fun _ => by omega

lemma ends_decVar {tp : UInt8} (hfit : VarFits b l i tp) {v : Var}
    (h : Ends (decVar b l tp) i v i') : i + 1 ≤ i' ∧ i' ≤ l := by
  obtain ⟨hil, hbody⟩ := hfit
  rw [decVar, ends_readByte_bind] at h
  by_cases htag : b i ≠ Asn1.oid
  · rw [if_pos htag] at h
    exact absurd h not_ends_failWith
  rw [if_neg htag, ends_bind] at h
  obtain ⟨ids, j, hids, h⟩ := h
  rw [ends_setError] at hids
  obtain ⟨hoid, hrest⟩ := hbody (not_not.mp htag)
  obtain ⟨hjl, hvalue⟩ := hrest ids j hids
  have hj := ends_decOid (by omega) hoid hids
  rw [ends_readByte_bind, ends_bind_pure] at h
  obtain ⟨value, -, h⟩ := h
  have := ends_decValue (by omega) hl hvalue (ends_setError.mp h)
  omega

omit hi hl in
lemma safe_decVars (hl : l ≤ bufLen.toInt) (fuel : ℕ) (vars : List Var) (hi : 0 ≤ i) (hfuel : l ≤ i + fuel) (tp : UInt8) :
    Safe (Inside bufLen) (decVars b l fuel vars) i ↔ VarsFit b l i tp := by
  induction fuel generalizing i vars with
  | zero =>
    refine iff_of_true ((safe_pure _).mpr trivial) fun j hj hjl => ?_
    cases hj with
    | here => omega
    | next hi' => omega
  | succ fuel ih =>
    rw [decVars, safe_get_bind]
    by_cases hil : i < l
    · rw [if_pos hil, safe_bind, safe_decSequence hi hl fun inner tp j hj hle => safe_decVar hj hle tp]
      constructor
      · rintro ⟨hfit, hrest⟩ j hj hjl
        cases hj with
        | here => exact hfit
        | next hi' hv hj =>
          obtain ⟨_, n, k, hk, hle, hvar, hend⟩ := ends_decSequence hi hfit hv
          have := ends_decVar (by omega) (hle.trans hl) hvar hend
          have hlater := hrest _ _ hv
          rw [ih _ (by omega) (by omega)] at hlater
          exact hlater j hj hjl
      · intro hfits
        have hfit := hfits i (.here i) hil
        refine ⟨hfit, fun v t hv => ?_⟩
        obtain ⟨_, n, k, hk, hle, hvar, hend⟩ := ends_decSequence hi hfit hv
        have := ends_decVar (by omega) (hle.trans hl) hvar hend
        rw [ih _ (by omega) (by omega)]
        exact fun j hj => hfits j (.next hil hv hj)
    · rw [if_neg hil]
      refine iff_of_true ((safe_pure _).mpr trivial) fun j hj hjl => ?_
      cases hj with
      | here => omega
      | next hi' => omega

lemma safe_decPdu3 (tp : UInt8) :
    Safe (Inside bufLen) (decPdu3 b l tp) i ↔ VarsFit b l i tp := by
  rw [decPdu3, safe_get_bind, safe_bind, safe_decVars hl _ _ hi (by omega) tp]
  refine ⟨And.left, fun h => ⟨h, fun vars j _ => ?_⟩⟩
  rw [safe_get_bind]
  split_ifs
  · exact safe_failWith _
  · exact (safe_pure _).mpr trivial

lemma safe_decPdu2 (version : Int32) (community : List UInt8) (tp : UInt8) :
    Safe (Inside bufLen) (decPdu2 b version community l tp) i ↔ Pdu2Fits b l i tp := by
  have hlast : ∀ (reqId : Int32) (pair : Int32 × Int32) (j : ℤ), 0 ≤ j →
      (Safe (Inside bufLen) (do
        let vars ← setError "pdu2 seq" (decSequence b l (decPdu3 b))
        return (⟨version, community, tp, reqId, pair.1, pair.2, vars⟩ : Pdu)) j ↔
      SequenceFits b l j fun l tp i => VarsFit b l i tp) := by
    intro reqId pair j hj
    rw [safe_bind_pure, safe_setError, safe_decSequence hj hl fun inner tp k hk hle => safe_decPdu3 hk hle tp]
  rw [decPdu2, Pdu2Fits]
  refine safe_decField_bind hi hl fun reqId j hj => ?_
  by_cases hbulk : tp = cmdGetBulk
  · simp only [if_pos hbulk]
    refine safe_decField_bind hj hl fun first k hk => safe_decField_bind hk hl fun second m hm => ?_
    exact hlast reqId (first, second) m hm
  · simp only [if_neg hbulk]
    refine safe_decField_bind hj hl fun first k hk => safe_decField_bind hk hl fun second m hm => ?_
    exact hlast reqId (first, second) m hm

omit hi hl in
lemma ends_decHeader_iff {c : Int32 → List UInt8 → ℤ → UInt8 → Dec α} {tp : UInt8} {a : α} :
    Ends (decHeader b c l tp) i a i' ↔ i < l ∧ ∃ version j, Ends (decField b l "version expected" "unsupported version")
      i version j ∧ j < l ∧ b j = octStr ∧ ∃ community k, Ends (decString b l true) (j + 1) community k ∧
      Ends (decSequence b l (c version community)) k a i' := by
  rw [decHeader, ends_get_bind]
  by_cases hil : l ≤ i
  · rw [if_pos hil]
    exact iff_of_false not_ends_failWith fun h => by omega
  rw [if_neg hil, ends_bind, and_iff_right (by omega)]
  refine exists_congr fun version => exists_congr fun j => and_congr_right fun _ => ?_
  rw [ends_get_bind]
  by_cases hjl : l ≤ j
  · rw [if_pos hjl]
    exact iff_of_false not_ends_failWith fun h => by omega
  rw [if_neg hjl, ends_readByte_bind, and_iff_right (by omega)]
  by_cases htag : b j ≠ octStr
  · rw [if_pos htag]
    exact iff_of_false not_ends_failWith fun h => htag h.1
  rw [if_neg htag, ends_bind, and_iff_right (not_not.mp htag)]
  simp only [ends_setError]

lemma safe_decPdu (tp : UInt8) :
    Safe (Inside bufLen) (decPdu b l tp) i ↔ PduFits b l i tp := by
  rw [decPdu, decHeader, PduFits, safe_get_bind]
  by_cases hil : l ≤ i
  · rw [if_pos hil]
    exact iff_of_true (safe_failWith _) fun h => by omega
  rw [if_neg hil, forall_prop_of_true (by omega)]
  refine safe_decField_bind hi hl fun version j hj => ?_
  rw [safe_get_bind]
  by_cases hjl : l ≤ j
  · rw [if_pos hjl]
    exact iff_of_true (safe_failWith _) fun h => by omega
  rw [if_neg hjl, forall_prop_of_true (by omega), safe_readByte_bind, and_iff_right (by omega)]
  by_cases htag : b j ≠ octStr
  · rw [if_pos htag]
    exact iff_of_true (safe_failWith _) fun h => absurd h htag
  rw [if_neg htag, forall_prop_of_true (not_not.mp htag), safe_bind, safe_setError, safe_decString (by omega) hl]
  refine and_congr_right fun hfit => forall_congr' fun community => forall_congr' fun k => ?_
  rw [ends_setError]
  refine imp_congr_right fun hstr => ?_
  have hk := ends_decString (by omega) hfit hstr
  rw [safe_setError, safe_decSequence (by omega) hl fun inner tp m hm hle => safe_decPdu2 hm hle version community tp]

end

theorem datagram_read_inside_iff (b : Mem) (bufLen : Int32) :
    Safe (Inside bufLen) (snmpDecPdu b bufLen) 0 ↔ Fits b bufLen := by
  rw [snmpDecPdu, safe_bind, safe_setError,
    safe_decSequence le_rfl le_rfl fun inner tp j hj hle => safe_decPdu hj hle tp, Fits]
  refine ⟨And.left, fun h => ⟨h, fun pdu j _ => ?_⟩⟩
  rw [safe_get_bind]
  split_ifs
  · exact safe_failWith _
  · exact safe_failWith _
  · exact (safe_pure _).mpr trivial

def cutDatagram : Mem := fun k => if k = 0 then 0x30 else if k = 1 then 0x05 else 0

theorem cut_datagram_read_outside : ¬ Safe (Inside 2) (snmpDecPdu cutDatagram 2) 0 := by
  intro h
  have hread := h (.read 2 7) (by decide)
  exact absurd hread.2.1 (by decide)

end

end Glaber.Poller.Csnmp
