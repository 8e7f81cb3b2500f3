import Mathlib.Tactic.Common

/-! Computations that may fail, and loops of them. -/

namespace Glaber.Lib.Results

variable {ε α β σ : Type}

lemma ok_of_bind {x : Except ε α} {f : α → Except ε β} {b : β} (h : (x >>= f) = .ok b) : ∃ a, x = .ok a ∧ f a = .ok b := by
  cases x with
  | error e => cases h
  | ok a => exact ⟨a, rfl, h⟩

lemma bind_congr_ok {x : Except ε α} {f g : α → Except ε β} (h : ∀ a, x = .ok a → f a = g a) : (x >>= f) = (x >>= g) := by
  cases x with
  | error e => rfl
  | ok a => exact h a rfl

section

variable (guard : σ → Prop) [DecidablePred guard] (step : σ → Except ε σ)

def whileLoop : ℕ → σ → Except ε σ
  | 0, s => .ok s
  | fuel + 1, s => if guard s then step s >>= whileLoop fuel else .ok s

variable {guard step} (left : σ → ℕ) (hpos : ∀ s, guard s → 0 < left s)
  (hleft : ∀ s s', guard s → step s = .ok s' → left s' < left s)
include hpos hleft

lemma whileLoop_eq {fuel fuel' : ℕ} {s : σ} (h : left s ≤ fuel) (h' : left s ≤ fuel') :
    whileLoop guard step fuel s = whileLoop guard step fuel' s := by
  induction fuel generalizing fuel' s with
  | zero =>
    have hno : ¬ guard s := fun hguard => by
      have := hpos s hguard
      omega
    cases fuel' with
    | zero => rfl
    | succ fuel' => rw [whileLoop, whileLoop, if_neg hno]
  | succ fuel ih =>
    cases fuel' with
    | zero =>
      have hno : ¬ guard s := fun hguard => by
        have := hpos s hguard
        omega
      rw [whileLoop, whileLoop, if_neg hno]
    | succ fuel' =>
      rw [whileLoop, whileLoop]
      split_ifs with hguard
      · apply bind_congr_ok
        intro s' hstep
        have := hleft s s' hguard hstep
        exact ih (by omega) (by omega)
      · rfl

lemma whileLoop_step {s : σ} (hguard : guard s) :
    whileLoop guard step (left s) s = step s >>= fun s' => whileLoop guard step (left s') s' := by
  obtain ⟨n, hn⟩ := Nat.exists_eq_add_one_of_ne_zero (Nat.ne_of_gt (hpos s hguard))
  rw [hn, whileLoop, if_pos hguard]
  apply bind_congr_ok
  intro s' hstep
  have := hleft s s' hguard hstep
  exact whileLoop_eq left hpos hleft (by omega) (Nat.le_refl _)

omit hpos hleft in
lemma whileLoop_end {s : σ} (hguard : ¬ guard s) (fuel : ℕ) : whileLoop guard step fuel s = .ok s := by
  cases fuel with
  | zero => rfl
  | succ fuel => rw [whileLoop, if_neg hguard]

end

end Glaber.Lib.Results
