import Glaber.Poller.Csnmp

/-! Writing ASN.1 strings and OIDs (`asn1.c`) into a buffer that grows, and how far its growth goes. -/

namespace Glaber.Poller.Asn1

open Glaber.Poller.Csnmp

/-- A buffer of the encoder; its capacity is the length of the block it was given last. -/
@[ext] structure EncBuf where
  block : List UInt8
  used : ℕ
  fits : used ≤ block.length
  int : block.length < 2 ^ 31

inductive EncError where
  | failed
  -- a byte is written past the end of the block
  | overrun
deriving DecidableEq

structure Asn1Str where
  b : List UInt8
  int : b.length < 2 ^ 31

structure Asn1Oid where
  b : List Int32
  int : b.length < 2 ^ 31

section

def EncBuf.capacity (out : EncBuf) : ℕ := out.block.length

def grownCapacity (l : ℕ) : ℕ := if l = 0 then 20 else if l < 1000 then l * 2 else l + l / 4

def moved (out : EncBuf) (l : ℕ) (fresh : ℕ → UInt8) : List UInt8 :=
  (List.range l).map fun k => out.block[k]?.getD (fresh k)

lemma le_grownCapacity (l : ℕ) : l ≤ grownCapacity l := by
  rw [grownCapacity]
  split_ifs <;> omega

/-- `_grow`. Whether `realloc` finds memory of a size, and what is in it, are given; a capacity past the range of an `int`
is negative, of which `realloc` makes a size that no memory has. -/
def grow (realloc : ℕ → Option (ℕ → UInt8)) (s : ℤ) (out : EncBuf) : Except EncError EncBuf :=
  if cint (out.used + s) ≤ out.capacity then .ok out
  else if h : grownCapacity out.capacity < 2 ^ 31 then
    match realloc (grownCapacity out.capacity) with
    | none => .error .failed
    | some fresh => .ok {
        block := moved out (grownCapacity out.capacity) fresh
        used := out.used
        fits := by
          rw [moved, List.length_map, List.length_range]
          exact out.fits.trans (le_grownCapacity _)
        int := by rwa [moved, List.length_map, List.length_range] }
  else .error .failed

def EncBuf.stored (out : EncBuf) (c : UInt8) (h : out.used < out.capacity) : EncBuf where
  block := out.block.set out.used c
  used := out.used + 1
  fits := by rwa [List.length_set]
  int := by
    rw [List.length_set]
    exact out.int

def put (c : UInt8) (out : EncBuf) : Except EncError EncBuf :=
  if h : out.used < out.capacity then .ok (out.stored c h) else .error .overrun

def putAll (bytes : List UInt8) (out : EncBuf) : Except EncError EncBuf := bytes.foldlM (fun out c => put c out) out

def lenSize (l : ℤ) : ℕ := if l < 0x80 then 1 else 2 + shifts 4 (l.toNat / 256)

def lenBytes (len : ℤ) : List UInt8 :=
  if len < 0x80 then [UInt8.ofInt len]
  else
    let n := 1 + shifts 4 (len.toNat / 256)
    (UInt8.ofNat n ||| longLen) :: (List.range n).reverse.map fun j => UInt8.ofNat (len.toNat / 256 ^ j)

variable (realloc : ℕ → Option (ℕ → UInt8)) (tp : UInt8)

def encString (val : Asn1Str) (out : EncBuf) : Except EncError EncBuf := do
  let out ← grow realloc (cint (1 + lenSize val.b.length + val.b.length)) out
  let out ← put tp out
  let out ← putAll (lenBytes val.b.length) out
  putAll val.b out

def subIdSize (q : Int32) : ℕ :=
  if q < 0x80 then 1 else if q < 0x4000 then 2 else if q < 0x200000 then 3 else if q < 0x10000000 then 4 else 5

def low (q : Int32) : UInt8 := UInt8.ofInt (q.toInt % 128)

def high (q : Int32) (place : ℕ) : UInt8 := UInt8.ofInt (q.toInt / 128 ^ place) ||| 0x80

def subIdBytes (q : Int32) : List UInt8 :=
  if q < 0x80 then [UInt8.ofInt q.toInt]
  else if q < 0x4000 then [high q 1, low q]
  else if q < 0x200000 then [high q 2, high q 1, low q]
  else if q < 0x10000000 then [high q 3, high q 2, high q 1, low q]
  else [high q 4, high q 3, high q 2, high q 1, low q]

/-- The length is summed up in an `int`. -/
def oidLen (val : Asn1Oid) : ℤ := (val.b.drop 2).foldl (fun len q => cint (len + subIdSize q)) 1

def firstByte : List Int32 → Option UInt8
  | [] => some 0
  | first :: rest =>
    if 2 < first then none
    else
      match rest with
      | [] => some (UInt8.ofInt (first.toInt * 40))
      | second :: _ => if 40 ≤ second then none else some (UInt8.ofInt (first.toInt * 40 + second.toInt))

def encOid (val : Asn1Oid) (out : EncBuf) : Except EncError EncBuf := do
  let len := oidLen val
  let out ← grow realloc (cint (1 + lenSize len + len)) out
  let out ← put tp out
  let out ← putAll (lenBytes len) out
  let out ←
    match firstByte val.b with
    | none => .error .failed
    | some c => put c out
  (val.b.drop 2).foldlM (fun out q => putAll (subIdBytes q) out) out

end

section

variable {out : EncBuf} {bytes : List UInt8}

lemma putAll_cons (c : UInt8) (bytes : List UInt8) (out : EncBuf) : putAll (c :: bytes) out = put c out >>= putAll bytes :=
  List.foldlM_cons

lemma putAll_append (bytes bytes' : List UInt8) (out : EncBuf) :
    putAll (bytes ++ bytes') out = putAll bytes out >>= putAll bytes' := List.foldlM_append

@[simp] lemma stored_capacity (out : EncBuf) (c : UInt8) (h : out.used < out.capacity) :
    (out.stored c h).capacity = out.capacity := List.length_set

@[simp] lemma stored_used (out : EncBuf) (c : UInt8) (h : out.used < out.capacity) :
    (out.stored c h).used = out.used + 1 := rfl

lemma stored_take (out : EncBuf) (c : UInt8) (h : out.used < out.capacity) :
    (out.stored c h).block.take (out.used + 1) = out.block.take out.used ++ [c] := by
  rw [EncBuf.stored, List.take_add_one, List.take_set_of_le le_rfl, List.getElem?_set_self h, Option.toList_some]

lemma stored_drop (out : EncBuf) (c : UInt8) (h : out.used < out.capacity) {n : ℕ} (hn : out.used < n) :
    (out.stored c h).block.drop n = out.block.drop n := List.drop_set_of_lt hn

lemma putAll_fits (h : out.used + bytes.length ≤ out.capacity) : ∃ out', putAll bytes out = .ok out' ∧
    out'.used = out.used + bytes.length ∧
    out'.block = out.block.take out.used ++ bytes ++ out.block.drop (out.used + bytes.length) := by
  induction bytes generalizing out with
  | nil => exact ⟨out, rfl, rfl, by simp⟩
  | cons c bytes ih =>
    rw [List.length_cons] at h
    have hroom : out.used < out.capacity := by omega
    obtain ⟨out', hrun, hused, hblock⟩ := @ih (out.stored c hroom) (by
      rw [stored_used, stored_capacity]
      omega)
    rw [stored_used] at hused
    refine ⟨out', ?_, ?_, ?_⟩
    · rw [putAll_cons, put, dif_pos hroom]
      exact hrun
    · rw [hused, List.length_cons]
      ring
    · rw [hblock, stored_used, stored_take, stored_drop _ _ _ (by omega), List.length_cons, add_assoc, add_comm 1]
      simp

lemma putAll_overrun (h : out.capacity < out.used + bytes.length) : putAll bytes out = .error .overrun := by
  induction bytes generalizing out with
  | nil =>
    have hfits : out.used ≤ out.capacity := out.fits
    rw [List.length_nil] at h
    omega
  | cons c bytes ih =>
    rw [putAll_cons, put]
    split_ifs with hroom
    · apply ih
      rw [stored_used, stored_capacity]
      rw [List.length_cons] at h
      omega
    · rfl

lemma putAll_overrun_iff : putAll bytes out = .error .overrun ↔ out.capacity < out.used + bytes.length := by
  constructor
  · intro h
    by_contra hfits
    obtain ⟨out', hrun, -⟩ := putAll_fits (not_lt.mp hfits)
    rw [h] at hrun
    cases hrun
  · exact putAll_overrun

end

section

variable {realloc : ℕ → Option (ℕ → UInt8)} {out : EncBuf}

/-- The test of `_grow` finds room, also when its sum wraps. -/
def Passes (out : EncBuf) (request : ℤ) : Prop := out.used + request ≤ out.capacity ∨ 2 ^ 31 ≤ out.used + request

def Served (realloc : ℕ → Option (ℕ → UInt8)) (out : EncBuf) : Prop :=
  grownCapacity out.capacity < 2 ^ 31 ∧ (realloc (grownCapacity out.capacity)).isSome

def Shortfall (realloc : ℕ → Option (ℕ → UInt8)) (out : EncBuf) (request need : ℤ) : Prop :=
  (Passes out request ∧ out.capacity < out.used + need) ∨
    (¬Passes out request ∧ Served realloc out ∧ grownCapacity out.capacity < out.used + need)

lemma grow_cases (realloc : ℕ → Option (ℕ → UInt8)) (out : EncBuf) {s : ℤ} (hlow : -2 ^ 31 ≤ s) (hhigh : s < 2 ^ 31) :
    (Passes out s ∧ grow realloc s out = .ok out) ∨
    (¬Passes out s ∧ ¬Served realloc out ∧ grow realloc s out = .error .failed) ∨
    (¬Passes out s ∧ Served realloc out ∧ ∃ out', grow realloc s out = .ok out' ∧ out'.used = out.used ∧
      out'.capacity = grownCapacity out.capacity ∧ out'.block.take out.used = out.block.take out.used) := by
  have hcap := out.int
  have hused := out.fits
  have htest : cint (out.used + s) ≤ out.capacity ↔ Passes out s := by
    rw [Passes, EncBuf.capacity]
    by_cases hwrap : 2 ^ 31 ≤ out.used + s
    · rw [cint_of_ge hwrap (by omega)]
      omega
    · rw [cint_of_lt (by omega) (by omega)]
      omega
  by_cases hpass : Passes out s
  · exact .inl ⟨hpass, if_pos (htest.mpr hpass)⟩
  · right
    rw [grow, if_neg (mt htest.mp hpass)]
    by_cases hint : grownCapacity out.capacity < 2 ^ 31
    · rw [dif_pos hint]
      cases hmem : realloc (grownCapacity out.capacity) with
      | none =>
        refine .inl ⟨hpass, ?_, rfl⟩
        rintro ⟨-, hsome⟩
        simp [hmem] at hsome
      | some fresh =>
        refine .inr ⟨hpass, ⟨hint, by simp [hmem]⟩, _, rfl, rfl, by simp [EncBuf.capacity, moved], ?_⟩
        have hle := le_grownCapacity out.capacity
        rw [EncBuf.capacity] at hle
        apply List.ext_getElem?
        intro k
        simp only [List.getElem?_take, moved, List.getElem?_map, EncBuf.capacity]
        split_ifs with hk
        · have hget := List.getElem?_eq_getElem (l := out.block) (i := k) (by omega)
          rw [List.getElem?_range (by omega), Option.map_some, hget, Option.getD_some]
        · rfl
    · rw [dif_neg hint]
      exact .inl ⟨hpass, fun h => hint h.1, rfl⟩

lemma grow_putAll_overrun_iff (realloc : ℕ → Option (ℕ → UInt8)) (out : EncBuf) (bytes : List UInt8) {s : ℤ}
    (hlow : -2 ^ 31 ≤ s) (hhigh : s < 2 ^ 31) :
    grow realloc s out >>= putAll bytes = .error .overrun ↔ Shortfall realloc out s bytes.length := by
  rw [Shortfall]
  rcases grow_cases realloc out hlow hhigh with ⟨hpass, hrun⟩ | ⟨hpass, hserved, hrun⟩ |
    ⟨hpass, hserved, out', hrun, hused, hcap, -⟩
  · rw [hrun]
    have := @putAll_overrun_iff out bytes
    simp only [hpass, not_true_eq_false, false_and, or_false, true_and]
    exact this.trans (by omega)
  · rw [hrun]
    simp only [hpass, hserved, false_and, not_false_eq_true, and_false, or_false, iff_false]
    rintro ⟨⟩
  · rw [hrun]
    have := @putAll_overrun_iff out' bytes
    rw [hused, hcap] at this
    simp only [hpass, hserved, not_false_eq_true, false_and, true_and, false_or]
    exact this.trans (by omega)

end

section

lemma lenBytes_length (len : ℤ) : (lenBytes len).length = lenSize len := by
  rw [lenBytes, lenSize]
  split_ifs
  · rfl
  · simp only [List.length_cons, List.length_map, List.length_reverse, List.length_range]
    ring

def stringBytes (tp : UInt8) (val : Asn1Str) : List UInt8 := tp :: (lenBytes val.b.length ++ val.b)

def oidBytesWritten (tp : UInt8) (val : Asn1Oid) : List UInt8 :=
  tp :: (lenBytes (oidLen val) ++ (firstByte val.b).elim [] fun c => c :: (val.b.drop 2).flatMap subIdBytes)

def oidRequest (val : Asn1Oid) : ℤ := cint (1 + lenSize (oidLen val) + oidLen val)

def stringRequest (val : Asn1Str) : ℤ := cint (1 + lenSize val.b.length + val.b.length)

lemma putAll_cons_eq (c : UInt8) (bytes : List UInt8) : putAll (c :: bytes) = fun out => put c out >>= putAll bytes :=
  funext (putAll_cons c bytes)

lemma putAll_append_eq (bytes bytes' : List UInt8) :
    putAll (bytes ++ bytes') = fun out => putAll bytes out >>= putAll bytes' := funext (putAll_append bytes bytes')

lemma putAll_flatMap (ids : List Int32) :
    (fun out => ids.foldlM (fun out q => putAll (subIdBytes q) out) out) = putAll (ids.flatMap subIdBytes) := by
  induction ids with
  | nil => rfl
  | cons q ids ih =>
    rw [List.flatMap_cons, putAll_append_eq, ← ih]
    funext out
    exact List.foldlM_cons

lemma encString_eq (realloc : ℕ → Option (ℕ → UInt8)) (tp : UInt8) (val : Asn1Str) (out : EncBuf) :
    encString realloc tp val out = grow realloc (stringRequest val) out >>= putAll (stringBytes tp val) := by
  rw [stringBytes, putAll_cons_eq, putAll_append_eq]
  rfl

lemma encOid_eq (realloc : ℕ → Option (ℕ → UInt8)) (tp : UInt8) (val : Asn1Oid) (out : EncBuf) :
    encOid realloc tp val out = (grow realloc (oidRequest val) out >>= putAll (oidBytesWritten tp val)) >>=
      fun out => if (firstByte val.b).isSome then .ok out else .error .failed := by
  simp only [oidBytesWritten, putAll_cons_eq, putAll_append_eq, encOid, oidRequest, bind_assoc]
  cases hfirst : firstByte val.b with
  | none => rfl
  | some c =>
    have hok : (fun out : EncBuf => (Except.ok out : Except EncError EncBuf)) = pure := rfl
    simp only [Option.elim_some, Option.isSome_some, if_true, putAll_cons_eq, ← putAll_flatMap, hok, bind_pure]

theorem growth_makes_room_iff (realloc : ℕ → Option (ℕ → UInt8)) (out : EncBuf) :
    (∀ s : Int32, (∀ out', grow realloc s.toInt out = .ok out' → out'.used = out.used ∧
      out'.used + s.toInt ≤ out'.capacity ∧ out'.block.take out.used = out.block.take out.used) ↔
        ¬Shortfall realloc out s.toInt s.toInt) ∧
    (∀ tp val, encString realloc tp val out ≠ .error .overrun ↔
      ¬Shortfall realloc out (stringRequest val) (stringBytes tp val).length) ∧
    ∀ tp val, encOid realloc tp val out ≠ .error .overrun ↔
      ¬Shortfall realloc out (oidRequest val) (oidBytesWritten tp val).length := by
  refine ⟨fun s => ?_, fun tp val => ?_, fun tp val => ?_⟩
  · have hlow := s.le_toInt
    have hhigh := s.toInt_lt
    rw [Shortfall]
    rcases grow_cases realloc out hlow hhigh with ⟨hpass, hrun⟩ | ⟨hpass, hserved, hrun⟩ |
      ⟨hpass, hserved, out', hrun, hused, hcap, hkept⟩
    · simp only [hrun, hpass, Except.ok.injEq, forall_eq', not_true_eq_false, false_and, or_false, true_and, and_true]
      omega
    · simp [hrun, hpass, hserved]
    · simp only [hrun, hpass, hserved, Except.ok.injEq, forall_eq', hused, hcap, hkept, not_false_eq_true, false_and,
        false_or, true_and, and_true]
      omega
  · have hrange : -2 ^ 31 ≤ stringRequest val ∧ stringRequest val < 2 ^ 31 := cint_range _
    rw [encString_eq, ne_eq, grow_putAll_overrun_iff realloc out _ hrange.1 hrange.2]
  · have hrange : -2 ^ 31 ≤ oidRequest val ∧ oidRequest val < 2 ^ 31 := cint_range _
    rw [encOid_eq, ← grow_putAll_overrun_iff realloc out _ hrange.1 hrange.2, not_iff_not]
    cases hrun : grow realloc (oidRequest val) out >>= putAll (oidBytesWritten tp val) with
    | error e => rfl
    | ok out' =>
      refine iff_of_false ?_ (by simp)
      change (if (firstByte val.b).isSome then Except.ok out' else Except.error EncError.failed) ≠ Except.error EncError.overrun
      split_ifs <;> simp

def emptyBuf : EncBuf := ⟨[], 0, le_rfl, by decide⟩

theorem growth_falls_short_of_twenty_one : ¬∀ (realloc : ℕ → Option (ℕ → UInt8)) (out : EncBuf),
    (∀ (s : Int32) out', grow realloc s.toInt out = .ok out' → out'.used = out.used ∧
      out'.used + s.toInt ≤ out'.capacity ∧ out'.block.take out.used = out.block.take out.used) ∧
    ∀ tp val, encString realloc tp val out ≠ .error .overrun := by
  intro h
  have hrequest : stringRequest ⟨List.replicate 19 0x41, by decide⟩ = 21 := by decide
  apply (h (fun _ => some fun _ => 0) emptyBuf).2 octStr ⟨List.replicate 19 0x41, by decide⟩
  rw [encString_eq, hrequest]
  apply (grow_putAll_overrun_iff _ _ _ (by decide) (by decide)).mpr
  exact .inr ⟨by simp [Passes, emptyBuf, EncBuf.capacity], ⟨by decide, rfl⟩, by decide⟩

end

end Glaber.Poller.Asn1
