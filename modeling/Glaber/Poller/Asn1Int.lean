import Glaber.Poller.Csnmp

namespace Glaber.Poller.Asn1

open Glaber.Lib.Traced Glaber.Poller.Csnmp

def StandsAt (b : Mem) (i : ℤ) (bytes : List UInt8) : Prop := ∀ (k : ℕ) (c : UInt8), bytes[k]? = some c → b (i + k) = c

lemma standsAt_iff {b : Mem} {i : ℤ} {bytes : List UInt8} :
    StandsAt b i bytes ↔ ∀ k : Fin bytes.length, b (i + k.val) = bytes.get k := by
  constructor
  · intro h k
    exact h k (bytes.get k) (List.getElem?_eq_getElem k.isLt)
  · intro h k c hc
    obtain ⟨hk, rfl⟩ := List.getElem?_eq_some_iff.mp hc
    exact h ⟨k, hk⟩

instance (b : Mem) (i : ℤ) (bytes : List UInt8) : Decidable (StandsAt b i bytes) := decidable_of_iff' _ standsAt_iff

def SignSafe (val : Int32) : Prop :=
  ¬ (2 ^ 7 ≤ val.toInt ∧ val.toInt < 2 ^ 8) ∧ ¬ (2 ^ 15 ≤ val.toInt ∧ val.toInt < 2 ^ 16) ∧
  ¬ (2 ^ 23 ≤ val.toInt ∧ val.toInt < 2 ^ 24)

instance (val : Int32) : Decidable (SignSafe val) := inferInstanceAs (Decidable (_ ∧ _ ∧ _))

lemma cint_eq (x : ℤ) : cint x = (x + 2 ^ 31) % 2 ^ 32 - 2 ^ 31 := by
  rw [cint, Int.bmod]
  split_ifs <;> omega

lemma schar_eq (c : UInt8) : schar c = ((c.toNat : ℤ) + 128) % 256 - 128 := by
  have hc := c.toNat_lt
  have h : schar c = Int.bmod c.toNat 256 := by
    rw [schar, Int8.toInt, UInt8.toInt8, BitVec.toInt_eq_toNat_bmod]
    rfl
  rw [h, Int.bmod]
  split_ifs <;> omega

lemma shifts_of_lt {q k : ℕ} (fuel : ℕ) (hk : k < fuel) (hlow : 256 ^ k ≤ q) (hhigh : q < 256 ^ (k + 1)) :
    shifts fuel q = k + 1 := by
  induction k generalizing fuel q with
  | zero =>
    obtain ⟨fuel, rfl⟩ : ∃ f, fuel = f + 1 := ⟨fuel - 1, by omega⟩
    have hq : q / 256 = 0 := Nat.div_eq_of_lt (by simpa using hhigh)
    rw [shifts, if_neg (by simp at hlow; omega), hq]
    cases fuel <;> simp [shifts]
  | succ k ih =>
    obtain ⟨fuel, rfl⟩ : ∃ f, fuel = f + 1 := ⟨fuel - 1, by omega⟩
    have hpos : 0 < 256 ^ (k + 1) := by positivity
    rw [shifts, if_neg (by omega), ih fuel (by omega)]
    · rw [pow_succ] at hlow
      exact (Nat.le_div_iff_mul_le (by norm_num)).mpr hlow
    · rw [pow_succ] at hhigh
      exact (Nat.div_lt_iff_lt_mul (by norm_num)).mpr hhigh

lemma intLen_cases (val : Int32) :
    (intLen val = 1 ∧ 0 ≤ val.toInt ∧ val.toInt < 2 ^ 8) ∨
    (intLen val = 2 ∧ 2 ^ 8 ≤ val.toInt ∧ val.toInt < 2 ^ 16) ∨
    (intLen val = 3 ∧ 2 ^ 16 ≤ val.toInt ∧ val.toInt < 2 ^ 24) ∨
    (intLen val = 4 ∧ 2 ^ 24 ≤ val.toInt ∧ val.toInt < 2 ^ 31) ∨
    (intLen val = 5 ∧ -2 ^ 31 ≤ val.toInt ∧ val.toInt < 0) := by
  have hlow := val.le_toInt
  have hhigh := val.toInt_lt
  rw [intLen]
  generalize hq : (val.toInt / 256 % 2 ^ 32).toNat = q
  by_cases h1 : val.toInt < 0
  · rw [shifts_of_lt (k := 3) 4 (by omega) (by omega) (by omega)]
    omega
  by_cases h2 : val.toInt < 2 ^ 8
  · have : q = 0 := by omega
    rw [this]
    exact .inl ⟨rfl, by omega, h2⟩
  by_cases h3 : val.toInt < 2 ^ 16
  · rw [shifts_of_lt (k := 0) 4 (by omega) (by omega) (by omega)]
    omega
  by_cases h4 : val.toInt < 2 ^ 24
  · rw [shifts_of_lt (k := 1) 4 (by omega) (by omega) (by omega)]
    omega
  · rw [shifts_of_lt (k := 2) 4 (by omega) (by omega) (by omega)]
    omega

def gather (b : Mem) : ℕ → ℤ → ℤ → ℤ
  | 0, res, _ => res
  | m + 1, res, i => gather b m (cint (res * 256 + (b i).toNat)) (i + 1)

lemma ends_moreBytes (b : Mem) (l i : ℤ) (m : ℕ) (res : ℤ) :
    Ends (moreBytes b l m res) i (gather b m res i) (i + m) := by
  induction m generalizing i res with
  | zero => simp [moreBytes, gather]
  | succ m ih =>
    rw [moreBytes, ends_readByte_bind, gather]
    have := ih (i + 1) (cint (res * 256 + (b i).toNat))
    rwa [show i + 1 + (m : ℤ) = i + ((m + 1 : ℕ) : ℤ) by push_cast; ring] at this

lemma ends_intBytes (b : Mem) (l i : ℤ) (m : ℕ) :
    Ends (intBytes b l (m + 1 : ℕ)) i (Int32.ofInt (gather b m (schar (b i)) (i + 1))) (i + (m + 1 : ℕ)) := by
  rw [intBytes, if_neg (by omega), ends_readByte_bind, ends_bind_pure]
  refine ⟨_, rfl, ?_⟩
  have := ends_moreBytes b l (i + 1) m (schar (b i))
  rwa [show ((m + 1 : ℕ) - 1 : ℤ).toNat = m by omega, show i + ((m + 1 : ℕ) : ℤ) = i + 1 + m by push_cast; ring]

section

variable {wide tp : UInt8} {val : Int32} {b : Mem} {l i : ℤ}

lemma StandsAt.count (h : StandsAt b i (encInt wide tp val)) : b (i + 1) = UInt8.ofNat (intLen val) := by
  have := h 1 (UInt8.ofNat (intLen val)) rfl
  simpa using this

lemma StandsAt.byte (h : StandsAt b i (encInt wide tp val)) {k : ℕ} (hk : k < intLen val) :
    b (i + 2 + k) = shiftedByte wide val (intLen val - 1 - k) := by
  have hget : (encInt wide tp val)[k + 2]? = some (shiftedByte wide val (intLen val - 1 - k)) := by
    simp [encInt, hk]
  have := h (k + 2) _ hget
  push_cast at this
  rw [← this]
  congr 1
  ring

lemma shiftedByte_toNat {j : ℕ} (hj : j < 4) :
    ((shiftedByte wide val j).toNat : ℤ) = val.toInt / 256 ^ j % 256 := by
  have h0 : 0 ≤ val.toInt / 256 ^ j % 256 := Int.emod_nonneg _ (by norm_num)
  have h1 : val.toInt / 256 ^ j % 256 < 256 := Int.emod_lt_of_pos _ (by norm_num)
  rw [shiftedByte, if_pos hj, UInt8.toNat_ofNat']
  omega

lemma schar_count {n : ℕ} (hn : n ≤ 5) : schar (UInt8.ofNat n) = n := by
  rw [schar_eq, UInt8.toNat_ofNat']
  omega

lemma intLen_range (val : Int32) : 1 ≤ intLen val ∧ intLen val ≤ 5 := by
  rcases intLen_cases val with h | h | h | h | h <;> omega

def readBack (b : Mem) (i : ℤ) (val : Int32) : ℤ := gather b (intLen val - 1) (schar (b (i + 2))) (i + 2 + 1)

lemma readBack_spec (hb : StandsAt b i (encInt wide tp val)) :
    -2 ^ 31 ≤ readBack b i val ∧ readBack b i val < 2 ^ 31 ∧ (SignSafe val → readBack b i val = val.toInt) ∧
      (¬ SignSafe val → readBack b i val < 0) := by
  have hvalue : ∀ k < intLen val, intLen val - 1 - k < 4 →
      ((b (i + 2 + k)).toNat : ℤ) = val.toInt / 256 ^ (intLen val - 1 - k) % 256 := by
    intro k hk hj
    rw [hb.byte hk, shiftedByte_toNat hj]
  have hnext2 : i + 2 + 1 + 1 = i + 2 + 2 := by ring
  have hnext3 : i + 2 + 2 + 1 = i + 2 + 3 := by ring
  have hnext4 : i + 2 + 3 + 1 = i + 2 + 4 := by ring
  rw [readBack]
  rcases intLen_cases val with ⟨hn, h0, h1⟩ | ⟨hn, h0, h1⟩ | ⟨hn, h0, h1⟩ | ⟨hn, h0, h1⟩ | ⟨hn, h0, h1⟩
  · have hb0 := hvalue 0 (by omega) (by omega)
    rw [hn] at hb0 ⊢
    simp only [Nat.cast_zero, add_zero, Nat.sub_self, pow_zero, Int.ediv_one] at hb0
    simp only [Nat.sub_self, gather, schar_eq, hb0, SignSafe]
    omega
  · have hb0 := hvalue 0 (by omega) (by omega)
    have hb1 := hvalue 1 (by omega) (by omega)
    rw [hn] at hb0 hb1 ⊢
    norm_num at hb0 hb1
    simp only [gather, schar_eq, cint_eq, hb0, hb1, SignSafe]
    omega
  · have hb0 := hvalue 0 (by omega) (by omega)
    have hb1 := hvalue 1 (by omega) (by omega)
    have hb2 := hvalue 2 (by omega) (by omega)
    rw [hn] at hb0 hb1 hb2 ⊢
    norm_num at hb0 hb1 hb2
    simp only [gather, schar_eq, cint_eq, hnext2, hb0, hb1, hb2, SignSafe]
    omega
  · have hb0 := hvalue 0 (by omega) (by omega)
    have hb1 := hvalue 1 (by omega) (by omega)
    have hb2 := hvalue 2 (by omega) (by omega)
    have hb3 := hvalue 3 (by omega) (by omega)
    rw [hn] at hb0 hb1 hb2 hb3 ⊢
    norm_num at hb0 hb1 hb2 hb3
    simp only [gather, schar_eq, cint_eq, hnext2, hnext3, hb0, hb1, hb2, hb3, SignSafe]
    omega
  · -- the first of five bytes is shifted out again
    have hb1 := hvalue 1 (by omega) (by omega)
    have hb2 := hvalue 2 (by omega) (by omega)
    have hb3 := hvalue 3 (by omega) (by omega)
    have hb4 := hvalue 4 (by omega) (by omega)
    rw [hn] at hb1 hb2 hb3 hb4 ⊢
    norm_num at hb1 hb2 hb3 hb4
    have htop := (b (i + 2)).toNat_lt
    simp only [gather, schar_eq, cint_eq, hnext2, hnext3, hnext4, hb1, hb2, hb3, hb4, SignSafe]
    omega

lemma ofInt_readBack (hb : StandsAt b i (encInt wide tp val)) :
    (Int32.ofInt (readBack b i val) = val ↔ SignSafe val) ∧
    (¬ SignSafe val → (Int32.ofInt (readBack b i val)).toInt < 0) := by
  obtain ⟨h0, h1, hsafe, hunsafe⟩ := readBack_spec hb
  have hint : (Int32.ofInt (readBack b i val)).toInt = readBack b i val := by
    rw [Int32.toInt_ofInt]
    exact cint_of_lt h0 h1
  refine ⟨⟨fun heq => ?_, fun h => ?_⟩, fun h => ?_⟩
  · by_contra hns
    have hneg := hunsafe hns
    rw [← hint, heq] at hneg
    simp only [SignSafe] at hns
    omega
  · rw [← Int32.toInt_inj, hint, hsafe h]
  · rw [hint]
    exact hunsafe h

lemma decInt_value (hb : StandsAt b i (encInt wide tp val)) {v : Int32} {i' : ℤ}
    (hv : Ends (decInt b l) (i + 1) v i') : v = Int32.ofInt (readBack b i val) := by
  obtain ⟨m, hm⟩ : ∃ m, intLen val = m + 1 := ⟨intLen val - 1, by have := intLen_range val; omega⟩
  rw [decInt, decCounted, ends_get_bind] at hv
  by_cases hil : l ≤ i + 1
  · rw [if_pos hil] at hv
    exact absurd hv (by simp)
  rw [if_neg hil, ends_readByte_bind, hb.count] at hv
  simp only [ends_get_bind, schar_count (intLen_range val).2] at hv
  by_cases hover : l < cint (i + 1 + 1 + intLen val)
  · rw [if_pos hover] at hv
    exact absurd hv (by simp)
  rw [if_neg hover, hm, show i + 1 + 1 = i + 2 by ring] at hv
  rw [(hv.det (ends_intBytes b l (i + 2) m)).1, readBack, hm, Nat.add_sub_cancel]

lemma decInt_ends (hb : StandsAt b i (encInt wide tp val)) (hi : 0 ≤ i) (hl : i + 2 + intLen val ≤ l)
    (hmax : l < 2 ^ 31) : ∃ v, Ends (decInt b l) (i + 1) v (i + 2 + intLen val) := by
  obtain ⟨m, hm⟩ : ∃ m, intLen val = m + 1 := ⟨intLen val - 1, by have := intLen_range val; omega⟩
  have hcheck : ¬ l < cint (i + 1 + 1 + intLen val) := by
    rw [cint_of_lt (by omega) (by omega)]
    omega
  refine ⟨Int32.ofInt (gather b m (schar (b (i + 2))) (i + 2 + 1)), ?_⟩
  rw [decInt, decCounted, ends_get_bind, if_neg (by omega), ends_readByte_bind, hb.count]
  simp only [ends_get_bind, schar_count (intLen_range val).2]
  rw [if_neg hcheck, show i + 1 + 1 = i + 2 by ring, hm]
  exact ends_intBytes b l (i + 2) m

end

end Glaber.Poller.Asn1
