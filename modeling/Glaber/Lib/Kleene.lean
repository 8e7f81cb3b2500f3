import Mathlib.Data.Option.Basic
import Mathlib.Tactic

/-! Three-valued logic after Kleene, with `none` for the unknown truth value, and the order of information. -/

namespace Glaber.Lib.Kleene

def and : Option Bool → Option Bool → Option Bool
  | some false, _ => some false
  | _, some false => some false
  | some true, some true => some true
  | _, _ => none

def or : Option Bool → Option Bool → Option Bool
  | some true, _ => some true
  | _, some true => some true
  | some false, some false => some false
  | _, _ => none

def Approx {α : Type} (x y : Option α) : Prop := ∀ v, x = some v → y = some v

section

variable {α β : Type} {x y : Option α}

lemma Approx.refl (x : Option α) : Approx x x := fun _ h => h

lemma approx_none (y : Option α) : Approx none y := by
  intro v h
  exact absurd h (by simp)

lemma Approx.cases (h : Approx x y) : x = none ∨ y = x := by
  cases hx : x with
  | none => exact .inl rfl
  | some v => exact .inr (h v hx)

lemma Approx.map (h : Approx x y) (f : α → β) : Approx (x.map f) (y.map f) := by
  obtain rfl | rfl := h.cases
  · exact approx_none _
  · exact .refl _

lemma Approx.bind (h : Approx x y) (f : α → Option β) : Approx (x.bind f) (y.bind f) := by
  obtain rfl | rfl := h.cases
  · exact approx_none _
  · exact .refl _

end

section

variable {a a' b b' : Option Bool}

@[simp] lemma and_some (p q : Bool) : and (some p) (some q) = some (p && q) := by
  cases p <;> cases q <;> rfl

@[simp] lemma or_some (p q : Bool) : or (some p) (some q) = some (p || q) := by
  cases p <;> cases q <;> rfl

lemma and_false_right (a : Option Bool) : and a (some false) = some false := by
  rcases a with _ | _ | _ <;> rfl

lemma or_true_right (a : Option Bool) : or a (some true) = some true := by
  rcases a with _ | _ | _ <;> rfl

lemma and_comm (a b : Option Bool) : and a b = and b a := by
  rcases a with _ | _ | _ <;> rcases b with _ | _ | _ <;> rfl

lemma or_comm (a b : Option Bool) : or a b = or b a := by
  rcases a with _ | _ | _ <;> rcases b with _ | _ | _ <;> rfl

lemma and_mono_left (b : Option Bool) (h : Approx a a') : Approx (and a b) (and a' b) := by
  obtain rfl | rfl := h.cases
  · rcases b with _ | _ | _
    · exact approx_none _
    · rw [and_false_right, and_false_right]
      exact .refl _
    · exact approx_none _
  · exact .refl _

lemma or_mono_left (b : Option Bool) (h : Approx a a') : Approx (or a b) (or a' b) := by
  obtain rfl | rfl := h.cases
  · rcases b with _ | _ | _
    · exact approx_none _
    · exact approx_none _
    · rw [or_true_right, or_true_right]
      exact .refl _
  · exact .refl _

lemma and_mono (ha : Approx a a') (hb : Approx b b') : Approx (and a b) (and a' b') := by
  intro v h
  have h' := and_mono_left b ha v h
  rw [and_comm] at h' ⊢
  exact and_mono_left a' hb v h'

lemma or_mono (ha : Approx a a') (hb : Approx b b') : Approx (or a b) (or a' b') := by
  intro v h
  have h' := or_mono_left b ha v h
  rw [or_comm] at h' ⊢
  exact or_mono_left a' hb v h'

end

end Glaber.Lib.Kleene
