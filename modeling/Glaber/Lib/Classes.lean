import Mathlib.Data.List.Basic
import Mathlib.Tactic

/-! Lists ordered by a comparison function, whose equal elements need not be the same: one element of each class, and the
difference of two lists, class by class. -/

namespace Glaber.Lib.Classes

structure Comparison (α : Type) where
  compare : α → α → ℤ
  neg_iff : ∀ a b, compare a b < 0 ↔ 0 < compare b a
  trans : ∀ a b d, compare a b ≤ 0 → compare b d ≤ 0 → compare a d ≤ 0

variable {α : Type} (c : Comparison α)

section

lemma Comparison.self (a : α) : c.compare a a = 0 := by
  have h := c.neg_iff a a
  omega

lemma Comparison.zero_symm {a b : α} (h : c.compare a b = 0) : c.compare b a = 0 := by
  have h1 := c.neg_iff a b
  have h2 := c.neg_iff b a
  omega

lemma Comparison.neg_of_neg_of_le {a b d : α} (h : c.compare a b < 0) (h' : c.compare b d ≤ 0) : c.compare a d < 0 := by
  have hle := c.trans a b d h.le h'
  refine lt_of_le_of_ne hle fun heq => ?_
  have hback := c.trans b d a h' (c.zero_symm heq).le
  have hpos := (c.neg_iff a b).1 h
  omega

lemma Comparison.neg_of_le_of_neg {a b d : α} (h : c.compare a b ≤ 0) (h' : c.compare b d < 0) : c.compare a d < 0 := by
  have hle := c.trans a b d h h'.le
  refine lt_of_le_of_ne hle fun heq => ?_
  have hback := c.trans d a b (c.zero_symm heq).le h
  have hpos := (c.neg_iff b d).1 h'
  omega

lemma Comparison.zero_trans {a b d : α} (h : c.compare a b = 0) (h' : c.compare b d = 0) : c.compare a d = 0 := by
  have hle := c.trans a b d h.le h'.le
  have hback := c.trans d b a (c.zero_symm h').le (c.zero_symm h).le
  have hneg := c.neg_iff a d
  omega

lemma Comparison.same_class {a b : α} (h : c.compare a b = 0) (d : α) : c.compare d a = 0 ↔ c.compare d b = 0 :=
  ⟨fun h' => c.zero_trans h' h, fun h' => c.zero_trans h' (c.zero_symm h)⟩

def Ordered (xs : List α) : Prop := xs.Pairwise fun a b => c.compare a b ≤ 0

def count (a : α) (xs : List α) : ℕ := xs.countP fun b => c.compare a b = 0

lemma count_cons (a x : α) (xs : List α) : count c a (x :: xs) = count c a xs + if c.compare a x = 0 then 1 else 0 := by
  simp [count, List.countP_cons]

lemma count_eq_zero {a : α} {xs : List α} (h : ∀ x ∈ xs, c.compare a x ≠ 0) : count c a xs = 0 := by
  simpa [count, List.countP_eq_zero] using h

end

section

variable {c}

def changes (compare : α → α → ℤ) : α → List α → List α
  | _, [] => []
  | x, y :: ys => if 0 ≠ compare x y then y :: changes compare y ys else changes compare y ys

lemma changes_sublist (compare : α → α → ℤ) (x : α) (ys : List α) : (changes compare x ys).Sublist ys := by
  induction ys generalizing x with
  | nil => exact List.Sublist.refl _
  | cons y ys ih =>
    rw [changes]
    split_ifs
    · exact (ih y).cons_cons y
    · exact (ih y).cons y

lemma Ordered.changes_above {x : α} {ys : List α} (h : Ordered c (x :: ys)) :
    ∀ y ∈ changes c.compare x ys, c.compare x y < 0 := by
  induction ys generalizing x with
  | nil => simp [changes]
  | cons y ys ih =>
    obtain ⟨hhead, htail⟩ := List.pairwise_cons.1 h
    have hle := hhead y List.mem_cons_self
    rw [changes]
    split_ifs with hne
    · have hlt : c.compare x y < 0 := lt_of_le_of_ne hle (Ne.symm hne)
      intro z hz
      rcases List.mem_cons.1 hz with rfl | hz
      · exact hlt
      · exact c.neg_of_neg_of_le hlt (ih htail z hz).le
    · intro z hz
      exact c.neg_of_le_of_neg hle (ih htail z hz)

lemma Ordered.changes_strict {x : α} {ys : List α} (h : Ordered c (x :: ys)) :
    (x :: changes c.compare x ys).Pairwise fun a b => c.compare a b < 0 := by
  refine List.pairwise_cons.2 ⟨h.changes_above, ?_⟩
  induction ys generalizing x with
  | nil => exact List.Pairwise.nil
  | cons y ys ih =>
    obtain ⟨-, htail⟩ := List.pairwise_cons.1 h
    rw [changes]
    split_ifs
    · exact List.pairwise_cons.2 ⟨Ordered.changes_above htail, ih htail⟩
    · exact ih htail

lemma changes_cover (x : α) (ys : List α) : ∀ y ∈ x :: ys, ∃ z ∈ x :: changes c.compare x ys, c.compare z y = 0 := by
  induction ys generalizing x with
  | nil =>
    intro y hy
    exact ⟨x, List.mem_cons_self, by rw [List.mem_singleton.1 hy, c.self]⟩
  | cons y ys ih =>
    intro z hz
    rcases List.mem_cons.1 hz with rfl | hz
    · exact ⟨z, List.mem_cons_self, c.self z⟩
    · obtain ⟨w, hw, hcompare⟩ := ih y z hz
      rw [changes]
      split_ifs with hne
      · exact ⟨w, List.mem_cons_of_mem _ hw, hcompare⟩
      · -- `x` stands for the class of `y`
        rcases List.mem_cons.1 hw with rfl | hw
        · exact ⟨x, List.mem_cons_self, c.zero_trans (not_ne_iff.1 hne).symm hcompare⟩
        · exact ⟨w, List.mem_cons_of_mem _ hw, hcompare⟩

end

section

variable {c}

def diff (compare : α → α → ℤ) : List α → List α → List α
  | [], _ => []
  | left, [] => left
  | x :: left, y :: right =>
    if compare x y < 0 then x :: diff compare left (y :: right)
    else if 0 < compare x y then diff compare (x :: left) right
    else diff compare left right
termination_by left right => left.length + right.length

lemma diff_nil_right (compare : α → α → ℤ) (left : List α) : diff compare left [] = left := by
  cases left <;> simp [diff]

lemma diff_sublist (compare : α → α → ℤ) (left right : List α) : (diff compare left right).Sublist left := by
  induction left, right using diff.induct compare with
  | case1 right => simp [diff]
  | case2 left hne => rw [diff_nil_right]
  | case3 x left y right hlt ih =>
    rw [diff, if_pos hlt]
    exact ih.cons_cons x
  | case4 x left y right hlt hgt ih =>
    rw [diff, if_neg hlt, if_pos hgt]
    exact ih
  | case5 x left y right hlt hgt ih =>
    rw [diff, if_neg hlt, if_neg hgt]
    exact ih.cons x

lemma Ordered.none_equal {a x : α} {xs : List α} (h : Ordered c (x :: xs)) (hlt : c.compare a x < 0) {b : α}
    (hb : c.compare b a = 0) : count c b (x :: xs) = 0 := by
  refine count_eq_zero c fun y hy heq => ?_
  have hle : c.compare x y ≤ 0 := by
    rcases List.mem_cons.1 hy with rfl | hy
    · exact (c.self _).le
    · exact (List.pairwise_cons.1 h).1 y hy
  exact (c.neg_of_neg_of_le hlt hle).ne (c.zero_trans (c.zero_symm hb) heq)

lemma count_diff (a : α) {left right : List α} (hl : Ordered c left) (hr : Ordered c right) :
    count c a (diff c.compare left right) = count c a left - count c a right := by
  induction left, right using diff.induct c.compare with
  | case1 right => simp [diff, count]
  | case2 left hne => simp [diff_nil_right, count]
  | case3 x left y right hlt ih =>
    rw [diff, if_pos hlt, count_cons, ih (List.pairwise_cons.1 hl).2 hr, count_cons c _ _ left]
    by_cases ha : c.compare a x = 0
    · rw [hr.none_equal hlt ha]
      simp
    · simp [ha]
  | case4 x left y right hlt hgt ih =>
    rw [diff, if_neg hlt, if_pos hgt, ih hl (List.pairwise_cons.1 hr).2, count_cons c _ _ right]
    by_cases ha : c.compare a y = 0
    · rw [hl.none_equal ((c.neg_iff y x).2 hgt) ha]
      simp
    · simp [ha]
  | case5 x left y right hlt hgt ih =>
    have heq : c.compare x y = 0 := by omega
    rw [diff, if_neg hlt, if_neg hgt, ih (List.pairwise_cons.1 hl).2 (List.pairwise_cons.1 hr).2, count_cons, count_cons]
    simp only [c.same_class heq a]
    omega

end

end Glaber.Lib.Classes
