import Mathlib.Tactic

/-! Counters that are moved on digit by digit. -/

namespace Glaber.Lib.Odometer

def Least (S : ℕ → Prop) : Option ℕ → Prop
  | some v => S v ∧ ∀ x, S x → v ≤ x
  | none => ∀ x, ¬S x

lemma Least.congr {S S' : ℕ → Prop} {found : Option ℕ} (h : Least S found) (hiff : ∀ x, S x ↔ S' x) :
    Least S' found := by
  rwa [← funext fun x => propext (hiff x)]

section

inductive Stops (next : ℕ → Option ℕ) : ℕ → ℕ → Prop
  | here {b v : ℕ} (h : next b = some v) : Stops next b v
  | later {b w v : ℕ} (h : next b = some w) (hrest : Stops next (w + 1) v) : Stops next b v

variable {next : ℕ → Option ℕ} {b v : ℕ}

lemma Stops.le (hnext : ∀ b v, next b = some v → b ≤ v) (h : Stops next b v) : b ≤ v := by
  induction h with
  | here h => exact hnext _ _ h
  | later h _ ih => exact (hnext _ _ h).trans (Nat.le_of_succ_le ih)

lemma Stops.bounded {k : ℕ} (hnext : ∀ b v, next b = some v → v < k) (h : Stops next b v) : v < k := by
  induction h with
  | here h => exact hnext _ _ h
  | later _ _ ih => exact ih

lemma stops_iff {w : ℕ} (hb : next b = some w) : Stops next b v ↔ v = w ∨ Stops next (w + 1) v := by
  constructor
  · intro h
    cases h with
    | here h => exact .inl (Option.some.inj (h.symm.trans hb))
    | later h hrest => exact .inr (Option.some.inj (h.symm.trans hb) ▸ hrest)
  · rintro (rfl | hrest)
    · exact .here hb
    · exact .later hb hrest

lemma stops_least (hnext : ∀ b v, next b = some v → b ≤ v) (b : ℕ) : Least (Stops next b) (next b) := by
  cases hb : next b with
  | none =>
    intro x h
    cases h with
    | here h => cases hb.symm.trans h
    | later h _ => cases hb.symm.trans h
  | some v =>
    refine ⟨.here hb, fun x h => ?_⟩
    obtain rfl | hrest := (stops_iff hb).mp h
    · exact le_rfl
    · exact Nat.le_of_succ_le (hrest.le hnext)

lemma stops_behind (hnext : ∀ b v, next b = some v → b ≤ v) (hb : next b = some b) :
    b < v ∧ Stops next b v ↔ Stops next (b + 1) v := by
  rw [stops_iff hb]
  constructor
  · rintro ⟨hlt, rfl | hrest⟩
    · exact absurd hlt (lt_irrefl _)
    · exact hrest
  · intro h
    exact ⟨h.le hnext, .inr h⟩

end

section

def Digits (high low : ℕ → ℕ → Prop) (k start t : ℕ) : Prop :=
  high (start / k) (t / k) ∧ low (if t / k = start / k then start % k else 0) (t % k)

variable {high low : ℕ → ℕ → Prop} {k start x y : ℕ}

lemma digits_none (h : Least (high (start / k)) none) : Least (Digits high low k start) none :=
  fun _ hx => h _ hx.1

lemma mul_add_div_mod (hy : y < k) : (x * k + y) / k = x ∧ (x * k + y) % k = y := by
  have hk : 0 < k := Nat.zero_lt_of_lt hy
  rw [Nat.mul_comm, Nat.mul_add_div hk, Nat.div_eq_of_lt hy, Nat.mul_add_mod, Nat.mod_eq_of_lt hy]
  exact ⟨rfl, rfl⟩

lemma mul_add_le {t : ℕ} (hx : x ≤ t / k) (hy : x = t / k → y ≤ t % k) (hk : y < k) : x * k + y ≤ t := by
  have ht := Nat.div_add_mod t k
  obtain rfl | hlt := hx.eq_or_lt
  · rw [Nat.mul_comm]
    have := hy rfl
    omega
  · have hmul := Nat.mul_le_mul_right k (Nat.succ_le_of_lt hlt)
    rw [Nat.succ_mul, Nat.mul_comm (t / k)] at hmul
    omega

lemma Digits.le {t : ℕ} (hhigh : ∀ b v, high b v → b ≤ v) (hlow : ∀ b v, low b v → b ≤ v)
    (h : Digits high low k start t) : start ≤ t := by
  have hdiv := hhigh _ _ h.1
  have hmod := hlow _ _ h.2
  have hstart := Nat.div_add_mod start k
  have ht := Nat.div_add_mod t k
  obtain heq | hlt := hdiv.eq_or_lt
  · rw [if_pos heq.symm] at hmod
    rw [heq] at hstart
    omega
  · by_contra! hback
    exact absurd (Nat.div_le_div_right hback.le) (not_le.mpr hlt)

variable (hlow : ∀ b v, low b v → v < k)
include hlow

lemma Digits.bounded {m t : ℕ} (hhigh : ∀ b v, high b v → v < m) (h : Digits high low k start t) : t < m * k :=
  (Nat.div_lt_iff_lt_mul (Nat.zero_lt_of_lt (hlow _ _ h.2))).mp (hhigh _ _ h.1)

lemma digits_past (hx : Least (high (start / k)) (some x)) (hne : x ≠ start / k)
    (hy : Least (low 0) (some y)) : Least (Digits high low k start) (some (x * k + y)) := by
  obtain ⟨hdiv, hmod⟩ := mul_add_div_mod (x := x) (hlow _ _ hy.1)
  refine ⟨⟨by rw [hdiv]; exact hx.1, by rw [hdiv, hmod, if_neg hne]; exact hy.1⟩, fun t ht => ?_⟩
  have hle := hx.2 _ ht.1
  refine mul_add_le hle (fun h => hy.2 _ ?_) (hlow _ _ hy.1)
  have hlower := ht.2
  rwa [← h, if_neg hne] at hlower

lemma digits_here (hge : ∀ b v, high b v → b ≤ v) (hx : high (start / k) (start / k))
    (hy : Least (low (start % k)) (some y)) : Least (Digits high low k start) (some (start / k * k + y)) := by
  obtain ⟨hdiv, hmod⟩ := mul_add_div_mod (x := start / k) (hlow _ _ hy.1)
  refine ⟨⟨by rw [hdiv]; exact hx, by rw [hdiv, hmod, if_pos rfl]; exact hy.1⟩, fun t ht => ?_⟩
  refine mul_add_le (hge _ _ ht.1) (fun h => hy.2 _ ?_) (hlow _ _ hy.1)
  have hlower := ht.2
  rwa [if_pos h.symm] at hlower

lemma digits_zero (hge : ∀ b v, high b v → b ≤ v) (hx : Least (high 0) (some x)) (hy : Least (low 0) (some y)) :
    Least (Digits high low k 0) (some (x * k + y)) := by
  obtain rfl | hne := eq_or_ne x 0
  · have h := @digits_here high low k 0 y hlow hge (by rw [Nat.zero_div]; exact hx.1) (by rw [Nat.zero_mod]; exact hy)
    rwa [Nat.zero_div] at h
  · apply digits_past hlow (by rwa [Nat.zero_div]) _ hy
    rwa [Nat.zero_div]

lemma digits_next (hge : ∀ b v, high b v → b ≤ v) (hnone : Least (low (start % k)) none)
    (hx : Least (fun v => start / k < v ∧ high (start / k) v) (some x)) (hy : Least (low 0) (some y)) :
    Least (Digits high low k start) (some (x * k + y)) := by
  have hlater : ∀ t, Digits high low k start t → t / k ≠ start / k := by
    intro t ht heq
    have hlower := ht.2
    rw [if_pos heq] at hlower
    exact hnone _ hlower
  obtain ⟨hdiv, hmod⟩ := mul_add_div_mod (x := x) (hlow _ _ hy.1)
  have hne : x ≠ start / k := hx.1.1.ne'
  refine ⟨⟨by rw [hdiv]; exact hx.1.2, by rw [hdiv, hmod, if_neg hne]; exact hy.1⟩, fun t ht => ?_⟩
  have hlower := ht.2
  rw [if_neg (hlater t ht)] at hlower
  exact mul_add_le (hx.2 _ ⟨lt_of_le_of_ne (hge _ _ ht.1) (hlater t ht).symm, ht.1⟩) (fun _ => hy.2 _ hlower)
    (hlow _ _ hy.1)

omit hlow in
lemma digits_over (hge : ∀ b v, high b v → b ≤ v) (hnone : Least (low (start % k)) none)
    (hx : Least (fun v => start / k < v ∧ high (start / k) v) none) : Least (Digits high low k start) none := by
  intro t ht
  obtain heq | hne := eq_or_ne (t / k) (start / k)
  · have hlower := ht.2
    rw [if_pos heq] at hlower
    exact hnone _ hlower
  · exact hx _ ⟨lt_of_le_of_ne (hge _ _ ht.1) hne.symm, ht.1⟩

end

end Glaber.Lib.Odometer
