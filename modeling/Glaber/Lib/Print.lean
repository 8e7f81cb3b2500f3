import Mathlib.Tactic

/-! Numbers as the conversions of `printf` take them. -/

namespace Glaber.Lib.Print

def ld (n : UInt64) : ℤ := n.toInt64.toInt

lemma ld_eq (u : UInt64) : ld u = if u.toNat < 2 ^ 63 then (u.toNat : ℤ) else u.toNat - 2 ^ 64 := by
  have h : ld u = u.toBitVec.toInt := rfl
  rw [h, BitVec.toInt_eq_toNat_cond, UInt64.toNat_toBitVec]
  split_ifs <;> omega

lemma ld_eq_natCast_iff (u : UInt64) (n : ℕ) : ld u = n ↔ u.toNat = n ∧ n < 2 ^ 63 := by
  have := UInt64.toNat_lt u
  rw [ld_eq]
  split_ifs <;> omega

def decimal (z : ℤ) : List Char := if z < 0 then '-' :: Nat.toDigits 10 z.natAbs else Nat.toDigits 10 z.natAbs

def readNat (text : List Char) : Option ℕ :=
  if text ≠ [] ∧ text.all Char.isDigit then some (Nat.ofDigitChars 10 text 0) else none

def readDecimal : List Char → Option ℤ
  | '-' :: text => (readNat text).map fun n => -(n : ℤ)
  | text => (readNat text).map fun n => (n : ℤ)

lemma isDigit_of_mem_toDigits {n : ℕ} {c : Char} (h : c ∈ Nat.toDigits 10 n) : c.isDigit = true :=
  Nat.isDigit_of_mem_toDigits (by omega) (by omega) h

lemma readNat_toDigits (n : ℕ) : readNat (Nat.toDigits 10 n) = some n := by
  have hall : (Nat.toDigits 10 n).all Char.isDigit = true :=
    List.all_eq_true.2 fun c hc => isDigit_of_mem_toDigits hc
  simp [readNat, hall]

lemma readDecimal_toDigits (n : ℕ) : readDecimal (Nat.toDigits 10 n) = some (n : ℤ) := by
  unfold readDecimal
  split
  · rename_i text htext
    have hminus : '-' ∈ Nat.toDigits 10 n := by simp [htext]
    exact absurd (isDigit_of_mem_toDigits hminus) (by decide)
  · simp [readNat_toDigits]

lemma readDecimal_decimal (z : ℤ) : readDecimal (decimal z) = some z := by
  unfold decimal
  split_ifs with hz
  · have hneg : -|z| = z := by rw [abs_of_neg hz, neg_neg]
    simp [readDecimal, readNat_toDigits, hneg]
  · rw [readDecimal_toDigits]
    simp only [Option.some.injEq]
    omega

lemma decimal_ne_nil (z : ℤ) : decimal z ≠ [] := by
  unfold decimal
  split_ifs
  · simp
  · exact Nat.toDigits_ne_nil

lemma mem_decimal {z : ℤ} {c : Char} (h : c ∈ decimal z) : c = '-' ∨ c.isDigit = true := by
  unfold decimal at h
  split_ifs at h
  · rcases List.mem_cons.1 h with rfl | h
    · exact .inl rfl
    · exact .inr (isDigit_of_mem_toDigits h)
  · exact .inr (isDigit_of_mem_toDigits h)

end Glaber.Lib.Print
