import Mathlib.Tactic

/-! Return codes and time constants shared by the modelled sources (`zbxcommon.h`). -/

namespace Glaber

-- What is said of the members of a list is decided along the list, not over the whole type.
instance (priority := 2000) decidableForallMem {α : Type*} (p : α → Prop) [DecidablePred p] (l : List α) :
    Decidable (∀ x ∈ l, p x) := List.decidableBAll p l

def succeed : ℤ := 0
def fail : ℤ := -1

def zbxJan2038 : ℤ := 2145916800

lemma bmod_int (x : ℤ) : -2 ^ 31 ≤ x.bmod (2 ^ 32) ∧ x.bmod (2 ^ 32) < 2 ^ 31 := by
  have hlow := Int.le_bmod (x := x) (m := 2 ^ 32) (by decide)
  have hhigh := Int.bmod_lt (x := x) (m := 2 ^ 32) (by decide)
  exact ⟨by simpa using hlow, by simpa using hhigh⟩

lemma bmod_self {x : ℤ} (hlow : -2 ^ 31 ≤ x) (hhigh : x < 2 ^ 31) : x.bmod (2 ^ 32) = x :=
  Int.bmod_eq_of_le (by simpa using hlow) (by simpa using hhigh)

end Glaber
