import Glaber.Lib.Assoc
import Mathlib.NumberTheory.Bertrand

/-! The hash set (`hashset.c`, with `next_prime` of `algodefs.c`). Nothing is returned where the source exits the
process or follows a null or dangling pointer. -/

namespace Glaber.Algo

def noDivisor (n : ℕ) : ℕ → ℕ → Bool
  | 0, _ => true
  | fuel + 1, i => if i * i ≤ n then if n % i = 0 then false else noDivisor n fuel (i + 2) else true

def isPrime (n : ℕ) : Bool :=
  if n ≤ 1 then false else if n = 2 then true else if n % 2 = 0 then false else noDivisor n n 3

def nextPrimeFrom : ℕ → ℕ → ℕ
  | 0, n => n
  | fuel + 1, n => if isPrime n then n else nextPrimeFrom fuel (n + 1)

-- There is a prime before twice the number.
def nextPrime (n : ℕ) : ℕ := nextPrimeFrom (n + 2) n

structure HashFuncs (δ : Type) where
  hash : δ → UInt32
  compare : δ → δ → ℤ
  refl : ∀ a, compare a a = 0
  symm : ∀ a b, compare a b = 0 → compare b a = 0
  trans : ∀ a b c, compare a b = 0 → compare b c = 0 → compare a c = 0
  consistent : ∀ a b, compare a b = 0 → hash a = hash b

abbrev Addr := ℕ

structure Entry (δ : Type) where
  addr : Addr
  hash : UInt32
  data : δ
deriving DecidableEq

-- The slot array is a null pointer before its allocation, and after one that failed.
structure Hashset (δ : Type) where
  slots : Option (ℕ → List (Entry δ))
  numSlots : ℕ
  numData : ℤ

structure Iter where
  slot : ℤ
  entry : Option Addr

/-- What the memory functions answer: whether the slot array, its enlargement and the entry were allocated. -/
structure Memory where
  slots : Bool
  enlarged : Bool
  entry : Bool

namespace Hashset

variable {δ : Type}

def defaultSlots : ℕ := 10

def iterStart : ℤ := -1
def iterFinish : ℤ := -2

def initSlots (hs : Hashset δ) (initSize : ℕ) (mem : Memory) : Hashset δ × Bool :=
  if 0 < initSize then
    ({ hs with numData := 0, numSlots := nextPrime initSize,
               slots := if mem.slots then some fun _ => [] else none }, mem.slots)
  else ({ hs with numData := 0, numSlots := 0, slots := none }, true)

def create (initSize : ℕ) (mem : Memory) : Hashset δ := (initSlots ⟨none, 0, 0⟩ initSize mem).1

def relink (incSlots slot : ℕ) :
    List (Entry δ) → List (Entry δ) → (ℕ → List (Entry δ)) → ℕ → List (Entry δ)
  | _, [], slots => slots
  | kept, curr :: rest, slots =>
    let newSlot := curr.hash.toNat % incSlots
    if slot ≠ newSlot then
      relink incSlots slot kept rest
        (Function.update (Function.update slots newSlot (curr :: slots newSlot)) slot (kept ++ rest))
    else relink incSlots slot (kept ++ [curr]) rest slots

def rehash (numSlots incSlots : ℕ) (slots : ℕ → List (Entry δ)) : ℕ → List (Entry δ) :=
  (List.range numSlots).foldl (fun slots slot => relink incSlots slot [] (slots slot) slots)
    fun slot => if numSlots ≤ slot ∧ slot < incSlots then [] else slots slot

def reserve (hs : Hashset δ) (numSlotsReq : ℤ) (mem : Memory) : Option (Hashset δ × Bool) :=
  if hs.numSlots = 0 then some (hs.initSlots (max (defaultSlots : ℤ) (numSlotsReq * 2 + 1)).toNat mem)
  else if hs.numSlots * 4 / 5 ≤ numSlotsReq then
    let incSlots := nextPrime (hs.numSlots * 3 / 2)
    if mem.enlarged then
      hs.slots.map fun slots => ({ hs with slots := some (rehash hs.numSlots incSlots slots), numSlots := incSlots }, true)
    else some (hs, false)
  else some (hs, true)

section

variable (h : HashFuncs δ)

def isMatch (data : δ) (entry : Entry δ) : Bool := entry.hash = h.hash data ∧ h.compare entry.data data = 0

/-- The copy starts at the first byte of the data, and the entry gets the address `addr`. -/
def insert (hs : Hashset δ) (data : δ) (addr : Addr) (mem : Memory) : Option (Hashset δ × Option Addr) :=
  let (hs, ok) := if hs.numSlots = 0 then hs.initSlots defaultSlots mem else (hs, true)
  if ok then
    hs.slots.bind fun slots =>
      match (slots ((h.hash data).toNat % hs.numSlots)).find? (isMatch h data) with
      | some entry => some (hs, some entry.addr)
      | none =>
        (hs.reserve (hs.numData + 1) mem).bind fun (hs, ok) =>
          if ok ∧ mem.entry then
            hs.slots.map fun slots =>
              let slot := (h.hash data).toNat % hs.numSlots
              ({ hs with slots := some (Function.update slots slot (⟨addr, h.hash data, data⟩ :: slots slot)),
                         numData := hs.numData + 1 }, some addr)
          else some (hs, none)
  else some (hs, none)

def search (hs : Hashset δ) (data : δ) : Option (Option (Entry δ)) :=
  if hs.numSlots = 0 then some none
  else hs.slots.map fun slots => (slots ((h.hash data).toNat % hs.numSlots)).find? (isMatch h data)

end

def unlink (hs : Hashset δ) (slots : ℕ → List (Entry δ)) (slot : ℕ) (p : Entry δ → Bool) : Hashset δ :=
  if (slots slot).any p then
    { hs with slots := some (Function.update slots slot ((slots slot).eraseP p)), numData := hs.numData - 1 }
  else hs

def remove (h : HashFuncs δ) (hs : Hashset δ) (data : δ) : Option (Hashset δ) :=
  if hs.numSlots = 0 then some hs
  else hs.slots.map fun slots => hs.unlink slots ((h.hash data).toNat % hs.numSlots) (isMatch h data)

def chainOf (numSlots : ℕ) (slots : ℕ → List (Entry δ)) (addr : Addr) : Option (List (Entry δ)) :=
  ((List.range numSlots).map slots).find? fun chain => chain.any (·.addr = addr)

def entryAt (numSlots : ℕ) (slots : ℕ → List (Entry δ)) (addr : Addr) : Option (Entry δ) :=
  (chainOf numSlots slots addr).bind (·.find? (·.addr = addr))

def removeDirect (hs : Hashset δ) (addr : Addr) : Option (Hashset δ) :=
  if hs.numSlots = 0 then some hs
  else
    hs.slots.bind fun slots =>
      (entryAt hs.numSlots slots addr).map fun dataEntry =>
        hs.unlink slots (dataEntry.hash.toNat % hs.numSlots) (·.addr = addr)

def clear (hs : Hashset δ) : Option (Hashset δ) :=
  if hs.numSlots = 0 then some { hs with numData := 0 }
  else
    hs.slots.map fun slots =>
      { hs with slots := some fun slot => if slot < hs.numSlots then [] else slots slot, numData := 0 }

def iterReset (iter : Iter) : Iter := { iter with slot := iterStart }

def nextEntry (numSlots : ℕ) (slots : ℕ → List (Entry δ)) (addr : Addr) : Option (Option Addr) :=
  (chainOf numSlots slots addr).map fun chain => ((chain.dropWhile (·.addr ≠ addr)).drop 1).head?.map (·.addr)

def iterAdvance (numSlots : ℕ) (slots : ℕ → List (Entry δ)) (iter : Iter) : ℕ → ℕ → Iter × Option Addr
  | 0, _ => ({ iter with slot := iterFinish }, none)
  | fuel + 1, slot =>
    if slot = numSlots then ({ iter with slot := iterFinish }, none)
    else
      match (slots slot).head? with
      | some entry => (⟨slot, some entry.addr⟩, some entry.addr)
      | none => iterAdvance numSlots slots iter fuel (slot + 1)

def iterNext (hs : Hashset δ) (iter : Iter) : Option (Iter × Option Addr) :=
  if iter.slot = iterFinish then some (iter, none)
  else if hs.numSlots = 0 then some ({ iter with slot := iterFinish }, none)
  else
    hs.slots.bind fun slots =>
      let advance := iterAdvance hs.numSlots slots iter hs.numSlots.succ (iter.slot + 1).toNat
      match iter.entry with
      | none => some advance
      | some addr =>
        if iter.slot = iterStart then some advance
        else
          (nextEntry hs.numSlots slots addr).map fun next =>
            match next with
            | some addr => ({ iter with entry := some addr }, some addr)
            | none => advance

def prevEntry (addr : Addr) : List (Entry δ) → Option Addr
  | prev :: curr :: rest => if curr.addr = addr then some prev.addr else prevEntry addr (curr :: rest)
  | _ => none

def iterRemove (hs : Hashset δ) (iter : Iter) : Option (Hashset δ × Iter) :=
  if iter.slot = iterStart ∨ iter.slot = iterFinish then none
  else
    iter.entry.bind fun addr =>
      hs.slots.bind fun slots =>
        let chain := slots iter.slot.toNat
        let hs := hs.unlink slots iter.slot.toNat (·.addr = addr)
        if chain.head?.map (·.addr) = some addr then some (hs, ⟨iter.slot - 1, none⟩)
        else (prevEntry addr chain).map fun prev => (hs, { iter with entry := some prev })

end Hashset

section

lemma noDivisor_sound {n : ℕ} (fuel i : ℕ) (hi : 3 ≤ i) (hodd : i % 2 = 1) (hfuel : n < i + fuel) :
    noDivisor n fuel i = true ↔ ∀ k, i ≤ k → k % 2 = 1 → k * k ≤ n → n % k ≠ 0 := by
  induction fuel generalizing i with
  | zero =>
    refine iff_of_true rfl fun k hk _ hle => ?_
    have : k ≤ k * k := Nat.le_mul_self k
    omega
  | succ fuel ih =>
    rw [noDivisor]
    by_cases hsq : i * i ≤ n
    · rw [if_pos hsq]
      by_cases hmod : n % i = 0
      · rw [if_pos hmod]
        exact iff_of_false (by simp) fun h => h i le_rfl hodd hsq hmod
      · rw [if_neg hmod, ih (i + 2) (by omega) (by omega) (by omega)]
        refine ⟨fun h k hk hkodd hle => ?_, fun h k hk => h k (by omega)⟩
        by_cases hki : k = i
        · rwa [hki]
        · exact h k (by omega) hkodd hle
    · rw [if_neg hsq]
      refine iff_of_true rfl fun k hk _ hle => ?_
      exact absurd ((Nat.mul_le_mul hk hk).trans hle) hsq

lemma isPrime_iff (n : ℕ) : isPrime n = true ↔ n.Prime := by
  rw [isPrime]
  by_cases h1 : n ≤ 1
  · rw [if_pos h1]
    exact iff_of_false (by simp) fun hp => by have := hp.two_le; omega
  rw [if_neg h1]
  by_cases h2 : n = 2
  · rw [if_pos h2, h2]
    exact iff_of_true rfl Nat.prime_two
  rw [if_neg h2]
  by_cases heven : n % 2 = 0
  · rw [if_pos heven]
    refine iff_of_false (by simp) fun hp => h2 ?_
    exact ((Nat.prime_dvd_prime_iff_eq Nat.prime_two hp).mp (Nat.dvd_of_mod_eq_zero heven)).symm
  rw [if_neg heven, noDivisor_sound n 3 le_rfl rfl (by omega)]
  constructor
  · intro h
    -- the least divisor is odd and at least three, so the loop has tried it
    refine Nat.prime_def_minFac.mpr ⟨by omega, ?_⟩
    by_contra hne
    have hdvd := Nat.minFac_dvd n
    have hsq := Nat.minFac_sq_le_self (by omega) (fun hp => hne (Nat.Prime.minFac_eq hp))
    have hprime := Nat.minFac_prime (n := n) (by omega)
    have hodd : n.minFac % 2 = 1 := by
      rcases hprime.eq_two_or_odd with h2' | hodd
      · rw [h2'] at hdvd
        exact absurd (Nat.mod_eq_zero_of_dvd hdvd) heven
      · exact hodd
    have := hprime.two_le
    exact h n.minFac (by omega) hodd (by rwa [← sq]) (Nat.mod_eq_zero_of_dvd hdvd)
  · intro hp k hk _ hle hmod
    rcases (Nat.dvd_prime hp).mp (Nat.dvd_of_mod_eq_zero hmod) with h1' | hkn
    · omega
    · rw [hkn] at hle
      nlinarith

lemma nextPrimeFrom_spec (fuel : ℕ) {n p : ℕ} (hp : p.Prime) (hn : n ≤ p) (hfuel : p < n + fuel) :
    n ≤ nextPrimeFrom fuel n ∧ (nextPrimeFrom fuel n).Prime := by
  induction fuel generalizing n with
  | zero => omega
  | succ fuel ih =>
    rw [nextPrimeFrom]
    by_cases hprime : isPrime n
    · rw [if_pos hprime]
      exact ⟨le_rfl, (isPrime_iff n).mp hprime⟩
    · rw [if_neg hprime]
      have hne : n ≠ p := fun h => hprime (h ▸ (isPrime_iff p).mpr hp)
      obtain ⟨hle, hres⟩ := ih (n := n + 1) (by omega) (by omega)
      exact ⟨by omega, hres⟩

lemma nextPrime_spec (n : ℕ) : n ≤ nextPrime n ∧ (nextPrime n).Prime := by
  rcases Nat.eq_zero_or_pos n with rfl | hpos
  · exact ⟨Nat.zero_le _, by decide⟩
  · obtain ⟨p, hp, hlt, hle⟩ := Nat.exists_prime_lt_and_le_two_mul n hpos.ne'
    exact nextPrimeFrom_spec (n + 2) hp hlt.le (by omega)

end

namespace Hashset

open Glaber.Lib.Buckets

variable {δ : Type}

def Placed (numSlots : ℕ) (slots : ℕ → List (Entry δ)) (slot : ℕ) : Prop :=
  ∀ e ∈ slots slot, e.hash.toNat % numSlots = slot

lemma relink_total {inc slot : ℕ} (hslot : slot < inc) (rest kept : List (Entry δ)) (slots : ℕ → List (Entry δ))
    (hchain : slots slot = kept ++ rest) :
    total (relink inc slot kept rest slots) inc = total slots inc := by
  induction rest generalizing kept slots with
  | nil => rfl
  | cons curr rest ih =>
    rw [relink]
    by_cases hmove : slot ≠ curr.hash.toNat % inc
    · rw [if_pos hmove, ih _ _ (by rw [Function.update_self])]
      have hlt : curr.hash.toNat % inc < inc := Nat.mod_lt _ (by omega)
      refine total_move hslot hlt hmove ?_ (Multiset.cons_coe _ _).symm
      rw [hchain, Multiset.cons_coe]
      exact Multiset.coe_eq_coe.mpr List.perm_middle
    · rw [if_neg hmove]
      exact ih _ _ (by rw [hchain, List.append_assoc, List.singleton_append])

lemma relink_placed (inc slot : ℕ) (rest kept : List (Entry δ)) (slots : ℕ → List (Entry δ))
    (hchain : slots slot = kept ++ rest) (hkept : ∀ e ∈ kept, e.hash.toNat % inc = slot) :
    Placed inc (relink inc slot kept rest slots) slot ∧
    ∀ t, t ≠ slot → Placed inc slots t → Placed inc (relink inc slot kept rest slots) t := by
  induction rest generalizing kept slots with
  | nil =>
    refine ⟨fun e he => hkept e ?_, fun t _ h => h⟩
    rw [relink, hchain, List.append_nil] at he
    exact he
  | cons curr rest ih =>
    rw [relink]
    by_cases hmove : slot ≠ curr.hash.toNat % inc
    · rw [if_pos hmove]
      obtain ⟨hslot, hother⟩ := ih kept
        (Function.update (Function.update slots (curr.hash.toNat % inc) (curr :: slots (curr.hash.toNat % inc))) slot
          (kept ++ rest))
        (by rw [Function.update_self]) hkept
      refine ⟨hslot, fun t ht hplaced => hother t ht ?_⟩
      -- the entry went to the head of the chain of its own new slot
      intro e he
      rw [Function.update_of_ne ht] at he
      by_cases htn : t = curr.hash.toNat % inc
      · rw [htn, Function.update_self] at he
        rcases List.mem_cons.mp he with rfl | he
        · exact htn.symm
        · exact hplaced e (by rwa [htn])
      · rw [Function.update_of_ne htn] at he
        exact hplaced e he
    · rw [if_neg hmove]
      apply ih
      · rw [hchain, List.append_assoc, List.singleton_append]
      · intro e he
        rcases List.mem_append.mp he with he | he
        · exact hkept e he
        · obtain rfl : e = curr := by simpa using he
          exact (not_not.mp hmove).symm

lemma rehash_spec {numSlots inc : ℕ} (hle : numSlots ≤ inc) (slots : ℕ → List (Entry δ)) :
    total (rehash numSlots inc slots) inc = total slots numSlots ∧
    ∀ t < inc, Placed inc (rehash numSlots inc slots) t := by
  rw [rehash]
  generalize hstart : (fun slot => if numSlots ≤ slot ∧ slot < inc then [] else slots slot) = start
  have hcell : ∀ t, start t = if numSlots ≤ t ∧ t < inc then [] else slots t := fun t => by rw [← hstart]
  have hmemset : total start inc = total slots numSlots := by
    rw [total_extend hle fun i h1 h2 => by rw [hcell, if_pos ⟨h1, h2⟩]]
    exact total_congr fun i hi => by rw [hcell, if_neg (by omega)]
  -- the slots walked so far and the new ones hold only entries that belong there
  have hwalk : ∀ m ≤ numSlots,
      total ((List.range m).foldl (fun slots slot => relink inc slot [] (slots slot) slots) start) inc
        = total start inc ∧
      ∀ t < inc, t < m ∨ numSlots ≤ t →
        Placed inc ((List.range m).foldl (fun slots slot => relink inc slot [] (slots slot) slots) start) t := by
    intro m hm
    induction m with
    | zero =>
      refine ⟨rfl, fun t ht hcase e he => ?_⟩
      rw [List.range_zero, List.foldl_nil, hcell, if_pos ⟨by omega, ht⟩] at he
      cases he
    | succ m ih =>
      obtain ⟨htotal, hplaced⟩ := ih (by omega)
      rw [List.range_succ, List.foldl_append, List.foldl_cons, List.foldl_nil]
      generalize (List.range m).foldl (fun slots slot => relink inc slot [] (slots slot) slots) start = mid at *
      refine ⟨(relink_total (by omega) _ _ _ (List.nil_append _).symm).trans htotal, fun t ht hcase => ?_⟩
      obtain ⟨hslot, hother⟩ := relink_placed inc m (mid m) [] mid (List.nil_append _).symm (by simp)
      by_cases htm : t = m
      · rw [htm]
        exact hslot
      · exact hother t htm (hplaced t ht (by omega))
  obtain ⟨htotal, hplaced⟩ := hwalk numSlots le_rfl
  exact ⟨htotal.trans hmemset, fun t ht => hplaced t ht (by omega)⟩

end Hashset

end Glaber.Algo
