import Mathlib.Tactic

/-! Unsigned integers of 128 bits in two words (`int128.c`). -/

namespace Glaber.Algo.Int128

structure UInt128 where
  hi : UInt64
  lo : UInt64
deriving DecidableEq

def uint64BitCount : ℕ := 64
def uint32BitCount : ℕ := 32
def uint32BitMask : UInt64 := 0xffffffff

section

def udec128_128 (base value : UInt128) : UInt128 :=
  let lo := base.lo - value.lo
  let hi := if base.lo < lo then base.hi - 1 else base.hi
  ⟨hi - value.hi, lo⟩

def ushiftr128 (base : UInt128) (bits : ℕ) : UInt128 :=
  if 0 = bits then base
  else if uint64BitCount ≤ bits then ⟨0, base.hi >>> UInt64.ofNat (bits - uint64BitCount)⟩
  else ⟨base.hi >>> UInt64.ofNat bits,
    (base.lo >>> UInt64.ofNat bits) ||| (base.hi <<< UInt64.ofNat (uint64BitCount - bits))⟩

def ushiftl128 (base : UInt128) (bits : ℕ) : UInt128 :=
  if 0 = bits then base
  else if uint64BitCount ≤ bits then ⟨base.lo <<< UInt64.ofNat (bits - uint64BitCount), 0⟩
  else ⟨(base.hi <<< UInt64.ofNat bits) ||| (base.lo >>> UInt64.ofNat (uint64BitCount - bits)),
    base.lo <<< UInt64.ofNat bits⟩

def ucmp128_128 (value1 value2 : UInt128) : ℤ :=
  if value1.hi ≠ value2.hi then if value1.hi < value2.hi then -1 else 1
  else if value1.lo = value2.lo then 0
  else if value1.lo < value2.lo then -1
  else 1

def uinc128_64 (base : UInt128) (value : UInt64) : UInt128 :=
  let lo := base.lo + value
  ⟨if base.lo > lo then base.hi + 1 else base.hi, lo⟩

def uinc128_128 (base value : UInt128) : UInt128 :=
  let lo := base.lo + value.lo
  let hi := if base.lo > lo then base.hi + 1 else base.hi
  ⟨hi + value.hi, lo⟩

def umul64_32_shift (base : UInt128) (value factor : UInt64) (shift : ℕ) : UInt128 :=
  let base := uinc128_128 base (ushiftl128 ⟨0, (value &&& uint32BitMask) * factor⟩ shift)
  uinc128_128 base (ushiftl128 ⟨0, (value >>> UInt64.ofNat uint32BitCount) * factor⟩ (uint32BitCount + shift))

def umul64_64 (value factor : UInt64) : UInt128 :=
  umul64_32_shift (umul64_32_shift ⟨0, 0⟩ value (factor &&& uint32BitMask) 0) value
    (factor >>> UInt64.ofNat uint32BitCount) uint32BitCount

end

section

def divisorLoop (reminder : UInt128) : ℕ → UInt128 → UInt64 → Option (UInt128 × UInt64)
  | 0, _, _ => none
  | fuel + 1, divisor, mask =>
    if ucmp128_128 reminder divisor < 0 then divisorLoop reminder fuel (ushiftr128 divisor 1) (mask >>> 1)
    else some (divisor, mask)

def reminderLoop (fuel : ℕ) : ℕ → UInt128 → UInt128 → UInt64 → UInt64 → Option (UInt128 × UInt64)
  | 0, _, _, _, _ => none
  | n + 1, reminder, divisor, mask, lo =>
    if reminder.hi ≠ 0 then do
      let (divisor, mask) ← divisorLoop reminder fuel divisor mask
      reminderLoop fuel n (udec128_128 reminder divisor) divisor mask (lo ||| mask)
    else some (reminder, lo)

def udiv128_64 (fuel : ℕ) (dividend : UInt128) (value : UInt64) : Option UInt128 :=
  if 0 = dividend.hi then some ⟨0, dividend.lo / value⟩
  else do
    let hi := if dividend.hi ≥ value then dividend.hi / value else 0
    let reminder := { dividend with hi := if dividend.hi ≥ value then dividend.hi - hi * value else dividend.hi }
    let (reminder, lo) ← reminderLoop fuel fuel reminder (ushiftr128 ⟨value, 0⟩ 1) ((1 : UInt64) <<< 63) 0
    return ⟨hi, lo ||| (reminder.lo / value)⟩

end

section

def UInt128.toNat (x : UInt128) : ℕ := x.hi.toNat * 2 ^ 64 + x.lo.toNat

lemma UInt128.toNat_lt (x : UInt128) : x.toNat < 2 ^ 128 := by
  have hhi := x.hi.toNat_lt
  have hlo := x.lo.toNat_lt
  rw [toNat]
  omega

lemma UInt128.lt_iff {x y : UInt128} : x.toNat < y.toNat ↔ x.hi < y.hi ∨ x.hi = y.hi ∧ x.lo < y.lo := by
  have hx := x.lo.toNat_lt
  have hy := y.lo.toNat_lt
  simp only [toNat, UInt64.lt_iff_toNat_lt, ← UInt64.toNat_inj]
  omega

lemma ucmp128_128_neg {x y : UInt128} : ucmp128_128 x y < 0 ↔ x.toNat < y.toNat := by
  rw [UInt128.lt_iff, ucmp128_128]
  split_ifs with hhi hlt hlo hlt <;> simp_all

lemma uinc128_128_toNat (x y : UInt128) : (uinc128_128 x y).toNat = (x.toNat + y.toNat) % 2 ^ 128 := by
  have hx := x.lo.toNat_lt
  have hy := y.lo.toNat_lt
  have hxh := x.hi.toNat_lt
  have hyh := y.hi.toNat_lt
  simp only [uinc128_128, UInt128.toNat, gt_iff_lt, UInt64.lt_iff_toNat_lt, apply_ite UInt64.toNat,
    UInt64.toNat_add, UInt64.toNat_one]
  split_ifs <;> omega

lemma uinc128_64_toNat (x : UInt128) (y : UInt64) : (uinc128_64 x y).toNat = (x.toNat + y.toNat) % 2 ^ 128 := by
  have hx := x.lo.toNat_lt
  have hy := y.toNat_lt
  have hxh := x.hi.toNat_lt
  simp only [uinc128_64, UInt128.toNat, gt_iff_lt, UInt64.lt_iff_toNat_lt, apply_ite UInt64.toNat,
    UInt64.toNat_add, UInt64.toNat_one]
  split_ifs <;> omega

lemma udec128_128_toNat {x y : UInt128} (h : y.toNat ≤ x.toNat) : (udec128_128 x y).toNat = x.toNat - y.toNat := by
  have hx := x.lo.toNat_lt
  have hy := y.lo.toNat_lt
  have hxh := x.hi.toNat_lt
  have hyh := y.hi.toNat_lt
  simp only [UInt128.toNat] at h
  simp only [udec128_128, UInt128.toNat, UInt64.lt_iff_toNat_lt, apply_ite UInt64.toNat, UInt64.toNat_sub,
    UInt64.toNat_one]
  split_ifs <;> omega

lemma shiftLeft_toNat (x : UInt64) {n : ℕ} (hn : n < 64) :
    (x <<< UInt64.ofNat n).toNat = x.toNat % 2 ^ (64 - n) * 2 ^ n := by
  have hpow : 2 ^ 64 = 2 ^ (64 - n) * 2 ^ n := by rw [← pow_add, Nat.sub_add_cancel hn.le]
  have hshift : (UInt64.ofNat n).toNat % 64 = n := by
    rw [UInt64.toNat_ofNat']
    omega
  rw [UInt64.toNat_shiftLeft, hshift, Nat.shiftLeft_eq, hpow, Nat.mul_mod_mul_right]

lemma shiftRight_toNat (x : UInt64) {n : ℕ} (hn : n < 64) : (x >>> UInt64.ofNat n).toNat = x.toNat / 2 ^ n := by
  have hshift : (UInt64.ofNat n).toNat % 64 = n := by
    rw [UInt64.toNat_ofNat']
    omega
  rw [UInt64.toNat_shiftRight, hshift, Nat.shiftRight_eq_div_pow]

lemma or_toNat {x y : UInt64} {a n : ℕ} (hx : x.toNat = a * 2 ^ n) (hy : y.toNat < 2 ^ n) :
    (x ||| y).toNat = x.toNat + y.toNat := by
  rw [UInt64.toNat_or, hx, ← Nat.shiftLeft_eq, Nat.shiftLeft_add_eq_or_of_lt hy]

lemma ushiftl128_toNat (x : UInt128) {n : ℕ} (hn : n < 128) : (ushiftl128 x n).toNat = x.toNat * 2 ^ n % 2 ^ 128 := by
  have hlo := x.lo.toNat_lt
  rw [ushiftl128, uint64BitCount]
  split_ifs with h0 h64
  · subst h0
    rw [pow_zero, mul_one, Nat.mod_eq_of_lt x.toNat_lt]
  · obtain ⟨m, rfl⟩ : ∃ m, n = m + 64 := ⟨n - 64, by omega⟩
    have hpow : 2 ^ 128 = 2 ^ (64 - m) * 2 ^ (m + 64) := by
      rw [← pow_add]
      congr 1
      omega
    have hword : x.hi.toNat * 2 ^ 64 = 2 ^ (64 - m) * (2 ^ m * x.hi.toNat) := by
      rw [← mul_assoc, ← pow_add, Nat.sub_add_cancel (by omega), mul_comm]
    rw [hpow, Nat.mul_mod_mul_right, UInt128.toNat, UInt128.toNat, Nat.add_sub_cancel, shiftLeft_toNat _ (by omega),
      hword, Nat.mul_add_mod, UInt64.toNat_zero, add_zero, pow_add, mul_assoc]
  · have hpow : 2 ^ 64 = 2 ^ (64 - n) * 2 ^ n := by rw [← pow_add, Nat.sub_add_cancel (by omega)]
    have hpow' : 2 ^ 128 = 2 ^ 64 * 2 ^ (64 - n) * 2 ^ n := by
      rw [← pow_add, ← pow_add]
      congr 1
      omega
    have hhigh := shiftLeft_toNat x.hi (show n < 64 by omega)
    have hlow : (x.lo >>> UInt64.ofNat (64 - n)).toNat = x.lo.toNat / 2 ^ (64 - n) := shiftRight_toNat _ (by omega)
    have hlt : x.lo.toNat / 2 ^ (64 - n) < 2 ^ n := by
      rw [Nat.div_lt_iff_lt_mul (by positivity), mul_comm, ← hpow]
      exact hlo
    have hsplit := Nat.div_add_mod x.lo.toNat (2 ^ (64 - n))
    have hword : x.toNat % 2 ^ 64 = x.lo.toNat ∧ x.toNat / 2 ^ 64 = x.hi.toNat := by
      rw [UInt128.toNat]
      omega
    rw [hpow', Nat.mul_mod_mul_right, Nat.mod_mul, hword.1, hword.2, UInt128.toNat, or_toNat hhigh (hlow ▸ hlt), hhigh,
      hlow, shiftLeft_toNat _ (by omega), hpow]
    conv_rhs => rw [← hsplit]
    ring

lemma ushiftr128_toNat (x : UInt128) {n : ℕ} (hn : n < 128) : (ushiftr128 x n).toNat = x.toNat / 2 ^ n := by
  have hlo := x.lo.toNat_lt
  rw [ushiftr128, uint64BitCount]
  split_ifs with h0 h64
  · subst h0
    rw [pow_zero, Nat.div_one]
  · obtain ⟨m, rfl⟩ : ∃ m, n = m + 64 := ⟨n - 64, by omega⟩
    have hword : x.toNat / 2 ^ 64 = x.hi.toNat := by
      rw [UInt128.toNat]
      omega
    rw [UInt128.toNat, Nat.add_sub_cancel, shiftRight_toNat _ (by omega), add_comm m, pow_add, ← Nat.div_div_eq_div_mul,
      hword, UInt64.toNat_zero, zero_mul, zero_add]
  · have hpow : 2 ^ 64 = 2 ^ (64 - n) * 2 ^ n := by rw [← pow_add, Nat.sub_add_cancel (by omega)]
    have hlow := shiftRight_toNat x.lo (show n < 64 by omega)
    have hhigh : (x.hi <<< UInt64.ofNat (64 - n)).toNat = x.hi.toNat % 2 ^ n * 2 ^ (64 - n) := by
      rw [shiftLeft_toNat _ (by omega), Nat.sub_sub_self (by omega)]
    have hlt : x.lo.toNat / 2 ^ n < 2 ^ (64 - n) := by
      rw [Nat.div_lt_iff_lt_mul (by positivity), ← hpow]
      exact hlo
    have hsplit := Nat.div_add_mod x.hi.toNat (2 ^ n)
    have hor := or_toNat hhigh (hlow ▸ hlt)
    rw [UInt128.toNat, UInt128.toNat, UInt64.or_comm, hor, hhigh, hlow, shiftRight_toNat _ (by omega)]
    conv_rhs => rw [hpow, ← mul_assoc, add_comm, Nat.add_mul_div_right _ _ (by positivity), ← hsplit]
    rw [hpow]
    ring

end

section

lemma bitMask_toNat (x : UInt64) : (x &&& uint32BitMask).toNat = x.toNat % 2 ^ 32 := by
  rw [UInt64.toNat_and]
  exact Nat.and_two_pow_sub_one_eq_mod x.toNat 32

lemma umul64_32_shift_toNat (base : UInt128) (value factor : UInt64) {shift : ℕ} (hfactor : factor.toNat < 2 ^ 32)
    (hshift : shift ≤ 32) : (umul64_32_shift base value factor shift).toNat =
      (base.toNat + value.toNat * factor.toNat * 2 ^ shift) % 2 ^ 128 := by
  have hhalf : (value >>> UInt64.ofNat uint32BitCount).toNat = value.toNat / 2 ^ 32 :=
    shiftRight_toNat value (by decide)
  have hvalue := value.toNat_lt
  have hpart : ∀ x : UInt64, x.toNat < 2 ^ 32 → (UInt128.mk 0 (x * factor)).toNat = x.toNat * factor.toNat := by
    intro x hx
    have hlt : x.toNat * factor.toNat < 2 ^ 32 * 2 ^ 32 := Nat.mul_lt_mul'' hx hfactor
    rw [UInt128.toNat, UInt64.toNat_mul, UInt64.toNat_zero, Nat.mod_eq_of_lt (hlt.trans_eq (by norm_num)), zero_mul,
      zero_add]
  have hlow := hpart _ (show (value &&& uint32BitMask).toNat < 2 ^ 32 by
    rw [bitMask_toNat]
    exact Nat.mod_lt _ (by norm_num))
  have hhigh := hpart _ (show (value >>> UInt64.ofNat uint32BitCount).toNat < 2 ^ 32 by
    rw [hhalf]
    omega)
  rw [umul64_32_shift, uinc128_128_toNat, uinc128_128_toNat, ushiftl128_toNat _ (by omega),
    ushiftl128_toNat _ (by rw [uint32BitCount]; omega), hlow, hhigh, bitMask_toNat, hhalf, uint32BitCount]
  have hsplit : value.toNat * factor.toNat * 2 ^ shift = value.toNat % 2 ^ 32 * factor.toNat * 2 ^ shift +
      value.toNat / 2 ^ 32 * factor.toNat * 2 ^ (32 + shift) := by
    conv_lhs => rw [← Nat.div_add_mod value.toNat (2 ^ 32)]
    ring
  rw [hsplit, ← add_assoc]
  simp only [Nat.mod_add_mod, Nat.add_mod_mod]

lemma umul64_64_toNat (a b : UInt64) : (umul64_64 a b).toNat = a.toNat * b.toNat := by
  have hhalf : (b >>> UInt64.ofNat uint32BitCount).toNat = b.toNat / 2 ^ 32 := shiftRight_toNat b (by decide)
  have ha := a.toNat_lt
  have hb := b.toNat_lt
  have hlt : a.toNat * b.toNat < 2 ^ 64 * 2 ^ 64 := Nat.mul_lt_mul'' ha hb
  have hlow : (b &&& uint32BitMask).toNat < 2 ^ 32 := by
    rw [bitMask_toNat]
    exact Nat.mod_lt _ (by norm_num)
  have hhigh : (b >>> UInt64.ofNat uint32BitCount).toNat < 2 ^ 32 := by
    rw [hhalf]
    omega
  have hsplit : a.toNat * b.toNat = a.toNat * (b.toNat % 2 ^ 32) + a.toNat * (b.toNat / 2 ^ 32) * 2 ^ 32 := by
    conv_lhs => rw [← Nat.div_add_mod b.toNat (2 ^ 32)]
    ring
  rw [umul64_64, umul64_32_shift_toNat _ _ _ hhigh (show uint32BitCount ≤ 32 from le_rfl),
    umul64_32_shift_toNat _ _ _ hlow (Nat.zero_le _),
    bitMask_toNat, hhalf, uint32BitCount, pow_zero, mul_one, Nat.mod_add_mod]
  rw [show (UInt128.mk 0 0).toNat = 0 from rfl, zero_add, ← hsplit,
    Nat.mod_eq_of_lt (hlt.trans_eq (by norm_num))]

variable {value mask lo : UInt64} {reminder divisor : UInt128} {j k : ℕ}

structure Shifted (value : UInt64) (j : ℕ) (divisor : UInt128) (mask : UInt64) : Prop where
  bits : j < 64
  divisor : divisor.toNat = value.toNat * 2 ^ j
  mask : mask.toNat = 2 ^ j

lemma Shifted.next (h : Shifted value (j + 1) divisor mask) : Shifted value j (ushiftr128 divisor 1) (mask >>> 1) := by
  have hbits := h.bits
  refine ⟨by omega, ?_, ?_⟩
  · rw [ushiftr128_toNat _ (by norm_num), h.divisor, pow_succ, ← mul_assoc, pow_one, Nat.mul_div_cancel _ (by norm_num)]
  · have hshift : (mask >>> UInt64.ofNat 1).toNat = mask.toNat / 2 ^ 1 := shiftRight_toNat mask (by norm_num)
    rw [h.mask, pow_succ, pow_one, Nat.mul_div_cancel _ (by norm_num)] at hshift
    exact hshift

lemma divisorLoop_spec (h : Shifted value j divisor mask) (hreminder : 2 ^ 64 ≤ reminder.toNat) {fuel : ℕ}
    (hfuel : j < fuel) : ∃ i divisor' mask', divisorLoop reminder fuel divisor mask = some (divisor', mask') ∧
      Shifted value i divisor' mask' ∧ divisor'.toNat ≤ reminder.toNat ∧
      (reminder.toNat < value.toNat * 2 ^ (j + 1) → reminder.toNat < value.toNat * 2 ^ (i + 1)) := by
  induction j generalizing divisor mask fuel with
  | zero =>
    obtain ⟨fuel, rfl⟩ : ∃ n, fuel = n + 1 := ⟨fuel - 1, by omega⟩
    have hle : divisor.toNat ≤ reminder.toNat := by
      rw [h.divisor, pow_zero, mul_one]
      exact value.toNat_lt.le.trans hreminder
    rw [divisorLoop, if_neg (by rw [ucmp128_128_neg]; exact not_lt.mpr hle)]
    exact ⟨0, divisor, mask, rfl, h, hle, id⟩
  | succ j ih =>
    obtain ⟨fuel, rfl⟩ : ∃ n, fuel = n + 1 := ⟨fuel - 1, by omega⟩
    rw [divisorLoop]
    split_ifs with hlt
    · rw [ucmp128_128_neg, h.divisor] at hlt
      obtain ⟨i, divisor', mask', hloop, hshifted, hle, hbound⟩ := ih h.next (show j < fuel by omega)
      exact ⟨i, divisor', mask', hloop, hshifted, hle, fun _ => hbound hlt⟩
    · rw [ucmp128_128_neg, not_lt] at hlt
      exact ⟨j + 1, divisor, mask, rfl, h, hlt, id⟩

structure Dividing (value : UInt64) (dividend k : ℕ) (reminder : UInt128) (lo : UInt64) : Prop where
  total : lo.toNat * value.toNat + reminder.toNat = dividend
  below : reminder.toNat < value.toNat * 2 ^ k
  above : 2 ^ k ∣ lo.toNat

variable {dividend : ℕ}

lemma Dividing.setBit (h : Dividing value dividend k reminder lo) (hshifted : Shifted value j divisor mask)
    (hjk : j < k) (hle : divisor.toNat ≤ reminder.toNat) (hbound : reminder.toNat < value.toNat * 2 ^ (j + 1)) :
    Dividing value dividend j (udec128_128 reminder divisor) (lo ||| mask) := by
  obtain ⟨a, ha⟩ := h.above
  have hmask : mask.toNat < 2 ^ k := by
    rw [hshifted.mask]
    exact Nat.pow_lt_pow_right (by norm_num) hjk
  have hor : (lo ||| mask).toNat = lo.toNat + mask.toNat := or_toNat (ha.trans (mul_comm _ _)) hmask
  have htotal := h.total
  have hdec := udec128_128_toNat hle
  have hdivisor := hshifted.divisor
  refine ⟨?_, ?_, ?_⟩
  · rw [hor, hdec, add_mul, hshifted.mask, mul_comm (2 ^ j), ← hdivisor]
    omega
  · rw [hdec]
    rw [pow_succ, ← mul_assoc, ← hdivisor] at hbound
    rw [← hdivisor]
    omega
  · rw [hor, hshifted.mask]
    exact dvd_add ((pow_dvd_pow 2 hjk.le).trans h.above) dvd_rfl

lemma lo_of_hi_zero (h : reminder.hi = 0) : reminder.toNat = reminder.lo.toNat := by
  rw [UInt128.toNat, h, UInt64.toNat_zero, zero_mul, zero_add]

lemma le_of_hi_ne_zero (h : reminder.hi ≠ 0) : 2 ^ 64 ≤ reminder.toNat := by
  have hpos : reminder.hi.toNat ≠ 0 := fun h0 => h (UInt64.toNat_inj.mp h0)
  rw [UInt128.toNat]
  omega

lemma reminderLoop_spec (h : Dividing value dividend k reminder lo) (hshifted : Shifted value j divisor mask)
    (hkj : k ≤ j + 1) {fuel n : ℕ} (hfuel : 64 ≤ fuel) (hn : k < n) :
    ∃ reminder' lo' k', reminderLoop fuel n reminder divisor mask lo = some (reminder', lo') ∧
      reminder'.hi = 0 ∧ Dividing value dividend k' reminder' lo' := by
  induction n generalizing k j reminder divisor mask lo with
  | zero => omega
  | succ n ih =>
    rw [reminderLoop]
    split_ifs with hhi
    · have hbelow : reminder.toNat < value.toNat * 2 ^ (j + 1) :=
        h.below.trans_le (Nat.mul_le_mul_left _ (Nat.pow_le_pow_right (by norm_num) hkj))
      obtain ⟨i, divisor', mask', hloop, hshifted', hle, hbound⟩ :=
        divisorLoop_spec hshifted (le_of_hi_ne_zero hhi) (hshifted.bits.trans_le hfuel)
      have hik : i < k := by
        have hlt := hle.trans_lt h.below
        rw [hshifted'.divisor] at hlt
        exact (Nat.pow_lt_pow_iff_right (by norm_num)).mp (lt_of_mul_lt_mul_left hlt (Nat.zero_le _))
      rw [hloop]
      exact ih (h.setBit hshifted' hik hle (hbound hbelow)) hshifted' (Nat.le_succ i) (by omega)
    · exact ⟨reminder, lo, k, rfl, not_not.mp hhi, h⟩

lemma Dividing.quotient (h : Dividing value dividend k reminder lo) (hhi : reminder.hi = 0) :
    (lo ||| (reminder.lo / value)).toNat = dividend / value.toNat := by
  obtain ⟨a, ha⟩ := h.above
  have hreminder := lo_of_hi_zero hhi
  have hbelow := h.below
  have hpos : 0 < value.toNat := Nat.pos_of_mul_pos_right (Nat.zero_lt_of_lt hbelow)
  have hlast : (reminder.lo / value).toNat = reminder.toNat / value.toNat := by rw [UInt64.toNat_div, hreminder]
  have hlt : reminder.toNat / value.toNat < 2 ^ k := by
    rw [Nat.div_lt_iff_lt_mul hpos, mul_comm]
    exact hbelow
  rw [or_toNat (ha.trans (mul_comm _ _)) (hlast ▸ hlt), hlast, ← h.total, add_comm (lo.toNat * value.toNat),
    Nat.add_mul_div_right _ _ hpos, add_comm]

lemma shifted_start (value : UInt64) : Shifted value 63 (ushiftr128 ⟨value, 0⟩ 1) ((1 : UInt64) <<< 63) := by
  refine ⟨by norm_num, ?_, by decide⟩
  rw [ushiftr128_toNat _ (by norm_num), UInt128.toNat, UInt64.toNat_zero]
  dsimp only
  omega

lemma upper_spec (dividend : UInt128) (hvalue : value ≠ 0) {hi : UInt64} {reminder : UInt128}
    (hhi : hi = if dividend.hi ≥ value then dividend.hi / value else 0)
    (hreminder : reminder = { dividend with
      hi := if dividend.hi ≥ value then dividend.hi - hi * value else dividend.hi }) :
    reminder.hi.toNat < value.toNat ∧ dividend.toNat = hi.toNat * value.toNat * 2 ^ 64 + reminder.toNat := by
  have hpos : 0 < value.toNat := Nat.pos_of_ne_zero fun h0 => hvalue (UInt64.toNat_inj.mp h0)
  have hdiv := Nat.div_add_mod dividend.hi.toNat value.toNat
  have hmod := Nat.mod_lt dividend.hi.toNat hpos
  have hword := dividend.hi.toNat_lt
  subst hreminder
  simp only [UInt128.toNat]
  split_ifs at hhi ⊢ with hge
  · have hquot : hi.toNat = dividend.hi.toNat / value.toNat := by rw [hhi, UInt64.toNat_div]
    have hprod : (hi * value).toNat = value.toNat * (dividend.hi.toNat / value.toNat) := by
      rw [UInt64.toNat_mul, hquot, mul_comm, Nat.mod_eq_of_lt (by omega)]
    have hsub : (dividend.hi - hi * value).toNat = dividend.hi.toNat % value.toNat := by
      rw [UInt64.toNat_sub_of_le _ _ (by rw [UInt64.le_iff_toNat_le, hprod]; omega), hprod]
      omega
    rw [hsub, hquot, mul_comm (dividend.hi.toNat / value.toNat)]
    omega
  · rw [ge_iff_le, UInt64.le_iff_toNat_le, not_le] at hge
    rw [hhi, UInt64.toNat_zero]
    omega

lemma udiv128_64_spec (dividend : UInt128) (hvalue : value ≠ 0) {fuel : ℕ} (hfuel : 66 ≤ fuel) :
    ∃ q, udiv128_64 fuel dividend value = some q ∧ q.toNat = dividend.toNat / value.toNat := by
  have hpos : 0 < value.toNat := Nat.pos_of_ne_zero fun h0 => hvalue (UInt64.toNat_inj.mp h0)
  rw [udiv128_64]
  by_cases hzero : 0 = dividend.hi
  · rw [if_pos hzero]
    refine ⟨_, rfl, ?_⟩
    rw [lo_of_hi_zero hzero.symm, lo_of_hi_zero rfl, UInt64.toNat_div]
  · rw [if_neg hzero]
    generalize hhi : (if dividend.hi ≥ value then dividend.hi / value else 0) = hi
    generalize hreminder : ({ dividend with
      hi := if dividend.hi ≥ value then dividend.hi - hi * value else dividend.hi } : UInt128) = reminder
    obtain ⟨hupper, htotal⟩ := upper_spec dividend hvalue hhi.symm hreminder.symm
    have hlo := reminder.lo.toNat_lt
    have hstart : Dividing value reminder.toNat 64 reminder 0 := by
      refine ⟨by rw [UInt64.toNat_zero, zero_mul, zero_add], ?_, dvd_zero _⟩
      rw [UInt128.toNat]
      omega
    obtain ⟨rest, lo, k, hloop, hend, hdividing⟩ :=
      reminderLoop_spec hstart (shifted_start value) le_rfl (show 64 ≤ fuel by omega) (show 64 < fuel by omega)
    refine ⟨⟨hi, lo ||| (rest.lo / value)⟩, ?_, ?_⟩
    · dsimp only
      rw [hreminder, hloop]
      rfl
    · rw [UInt128.toNat, hdividing.quotient hend, htotal, add_comm, mul_right_comm, add_comm (_ * value.toNat),
        Nat.add_mul_div_right _ _ hpos]

theorem arithmetic_exact (a b d : UInt64) (x y : UInt128) (hd : d ≠ 0) :
    (umul64_64 a b).toNat = a.toNat * b.toNat ∧
    (uinc128_128 x y).toNat = (x.toNat + y.toNat) % 2 ^ 128 ∧
    (uinc128_64 x a).toNat = (x.toNat + a.toNat) % 2 ^ 128 ∧
    ∃ n, ∀ fuel ≥ n, ∃ q, udiv128_64 fuel x d = some q ∧ q.toNat = x.toNat / d.toNat :=
  ⟨umul64_64_toNat a b, uinc128_128_toNat x y, uinc128_64_toNat x a, 66, fun _ => udiv128_64_spec x hd⟩

theorem thousand_words_divided :
    (umul64_64 6 7).toNat = 42 ∧ (uinc128_128 ⟨1000, 5⟩ ⟨0, 3⟩).toNat = (1000 * 2 ^ 64 + 5 + 3) % 2 ^ 128 ∧
    (uinc128_64 ⟨1000, 5⟩ 6).toNat = (1000 * 2 ^ 64 + 5 + 6) % 2 ^ 128 ∧
    ∃ n, ∀ fuel ≥ n, ∃ q, udiv128_64 fuel ⟨1000, 5⟩ 7 = some q ∧ q.toNat = (1000 * 2 ^ 64 + 5) / 7 :=
  arithmetic_exact 6 7 7 ⟨1000, 5⟩ ⟨0, 3⟩ (by decide)

end

end Glaber.Algo.Int128
