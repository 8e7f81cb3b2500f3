import Mathlib.Tactic

/-! Operations of `zbx_vector` that other modules share (`vectorimpl.h`). A vector is the list of its values. -/

namespace Glaber.Algo.Vector

variable {α : Type}

def removeNoorder (xs : List α) (i : ℕ) : List α :=
  match xs.getLast? with
  | some last => (xs.set i last).dropLast
  | none => xs

lemma removeNoorder_concat_length (xs : List α) (last : α) : removeNoorder (xs ++ [last]) xs.length = xs := by
  simp [removeNoorder]

lemma removeNoorder_concat (xs : List α) (last : α) {i : ℕ} (h : i < xs.length) :
    removeNoorder (xs ++ [last]) i = xs.set i last := by
  simp [removeNoorder, List.set_append_left _ _ h]

lemma set_perm_cons_eraseIdx (xs : List α) (a : α) {i : ℕ} (h : i < xs.length) : (xs.set i a).Perm (a :: xs.eraseIdx i) := by
  rw [List.set_eq_take_append_cons_drop, if_pos h, List.eraseIdx_eq_take_drop_succ]
  exact List.perm_middle

lemma removeNoorder_perm (xs : List α) {i : ℕ} (h : i < xs.length) : (removeNoorder xs i).Perm (xs.eraseIdx i) := by
  induction xs using List.reverseRecOn with
  | nil => simp at h
  | append_singleton xs last _ =>
      rcases Nat.lt_or_ge i xs.length with hi | hi
      · rw [removeNoorder_concat xs last hi, List.eraseIdx_append_of_lt_length hi]
        exact (set_perm_cons_eraseIdx xs last hi).trans (List.perm_append_singleton last _).symm
      · have hlast : i = xs.length := by
          simp only [List.length_append, List.length_singleton] at h
          omega
        subst hlast
        rw [removeNoorder_concat_length, List.eraseIdx_append_of_length_le le_rfl]
        simp

end Glaber.Algo.Vector
