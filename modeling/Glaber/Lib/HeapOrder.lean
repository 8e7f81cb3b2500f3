import Mathlib.Data.Multiset.Range
import Mathlib.Logic.Equiv.Basic
import Mathlib.Tactic

/-! The order of a binary heap in an array, with at most one element out of place, and what exchanging
it with its parent or with its smaller child does. -/

namespace Glaber.Lib.HeapOrder

variable {α : Type}

def Ordered (le : α → α → Prop) (f : ℕ → α) (n : ℕ) : Prop := ∀ i, 0 < i → i < n → le (f ((i - 1) / 2)) (f i)

structure Hole (le : α → α → Prop) (f : ℕ → α) (n p : ℕ) : Prop where
  off : ∀ i, 0 < i → i < n → i ≠ p → (i - 1) / 2 ≠ p → le (f ((i - 1) / 2)) (f i)
  across : 0 < p → ∀ i, 0 < i → i < n → (i - 1) / 2 = p → le (f ((p - 1) / 2)) (f i)

structure Rising (le : α → α → Prop) (f : ℕ → α) (n p : ℕ) : Prop extends Hole le f n p where
  below : ∀ i, 0 < i → i < n → (i - 1) / 2 = p → le (f p) (f i)

structure Sinking (le : α → α → Prop) (f : ℕ → α) (n p : ℕ) : Prop extends Hole le f n p where
  above : 0 < p → le (f ((p - 1) / 2)) (f p)

variable {le : α → α → Prop} {f : ℕ → α} {n p c : ℕ}

lemma Ordered.mono (h : Ordered le f n) {m : ℕ} (hm : m ≤ n) : Ordered le f m :=
  fun i h0 hi => h i h0 (hi.trans_le hm)

lemma Rising.ordered (h : Rising le f n p) (hp : 0 < p → le (f ((p - 1) / 2)) (f p)) : Ordered le f n := by
  intro i h0 hi
  by_cases hip : i = p
  · subst hip
    exact hp h0
  · by_cases hpar : (i - 1) / 2 = p
    · rw [hpar]
      exact h.below i h0 hi hpar
    · exact h.off i h0 hi hip hpar

lemma Sinking.ordered (h : Sinking le f n p) (hc : ∀ i, 0 < i → i < n → (i - 1) / 2 = p → le (f p) (f i)) :
    Ordered le f n :=
  Rising.ordered ⟨h.toHole, hc⟩ h.above

lemma Ordered.minimal (h : Ordered le f n) (hrefl : ∀ a, le a a) (htrans : ∀ a b c, le a b → le b c → le a c)
    {i : ℕ} (hi : i < n) : le (f 0) (f i) := by
  induction i using Nat.strong_induction_on with
  | _ i ih =>
    rcases Nat.eq_zero_or_pos i with rfl | hpos
    · exact hrefl _
    · exact htrans _ _ _ (ih ((i - 1) / 2) (by omega) (by omega)) (h i hpos hi)

lemma Ordered.hole_update (h : Ordered le f n) (htrans : ∀ a b c, le a b → le b c → le a c) (hp : p < n) (x : α) :
    Hole le (Function.update f p x) n p := by
  refine ⟨fun i h0 hi hip hpar => ?_, fun hp0 i h0 hi hpar => ?_⟩
  · rw [Function.update_of_ne hip, Function.update_of_ne hpar]
    exact h i h0 hi
  · rw [Function.update_of_ne (by omega), Function.update_of_ne (by omega)]
    have hip := h i h0 hi
    rw [hpar] at hip
    exact htrans _ _ _ (h p hp0 hp) hip

lemma Ordered.hole_push (h : Ordered le f n) (x : α) : Hole le (Function.update f n x) (n + 1) n := by
  refine ⟨fun i h0 hi hin hpar => ?_, fun _ i h0 hi hpar => by omega⟩
  rw [Function.update_of_ne hin, Function.update_of_ne hpar]
  exact h i h0 (by omega)

lemma map_range_swap (f : ℕ → α) {i j : ℕ} (hi : i < n) (hj : j < n) :
    (Multiset.range n).map (f ∘ Equiv.swap i j) = (Multiset.range n).map f := by
  have hperm : (Multiset.range n).map (Equiv.swap i j) = Multiset.range n := by
    refine Multiset.Nodup.toFinset_inj ?_ (Multiset.nodup_range n) ?_
    · exact (Multiset.nodup_range n).map (Equiv.swap i j).injective
    · ext k
      simp only [Multiset.mem_toFinset, Multiset.mem_map, Multiset.mem_range]
      constructor
      · rintro ⟨m, hm, rfl⟩
        rw [Equiv.swap_apply_def]
        split_ifs <;> omega
      · intro hk
        refine ⟨Equiv.swap i j k, ?_, Equiv.swap_apply_self i j k⟩
        rw [Equiv.swap_apply_def]
        split_ifs <;> omega
  rw [← Multiset.map_map, hperm]

section

variable (htotal : ∀ a b, le a b ∨ le b a)

include htotal

lemma Hole.swap_up (htrans : ∀ a b c, le a b → le b c → le a c) (h : Hole le f n p) (hp0 : 0 < p) (hp : p < n)
    (hgt : ¬ le (f ((p - 1) / 2)) (f p)) :
    Rising le (f ∘ Equiv.swap ((p - 1) / 2) p) n ((p - 1) / 2) := by
  have hle : le (f p) (f ((p - 1) / 2)) := (htotal _ _).resolve_left hgt
  have hq : (p - 1) / 2 ≠ p := by omega
  -- a child of the parent other than `p` keeps its place and was above nothing but the parent
  have hsib : ∀ i, 0 < i → i < n → (i - 1) / 2 = (p - 1) / 2 → i ≠ p → le (f ((p - 1) / 2)) (f i) := by
    intro i h0 hi hpar hip
    have := h.off i h0 hi hip (by omega)
    rwa [hpar] at this
  refine ⟨⟨fun i h0 hi hip hpar => ?_, fun hq0 i h0 hi hpar => ?_⟩, fun i h0 hi hpar => ?_⟩
  · simp only [Function.comp_apply]
    have hi_ne : i ≠ p := fun hip' => hpar (by rw [hip'])
    rw [Equiv.swap_apply_of_ne_of_ne hip hi_ne]
    by_cases hpp : (i - 1) / 2 = p
    · rw [hpp, Equiv.swap_apply_right]
      exact h.across hp0 i h0 hi hpp
    · rw [Equiv.swap_apply_of_ne_of_ne hpar hpp]
      exact h.off i h0 hi hi_ne hpp
  · simp only [Function.comp_apply]
    rw [Equiv.swap_apply_of_ne_of_ne (a := (p - 1) / 2) (by omega) (by omega)]
    have hgrand : le (f (((p - 1) / 2 - 1) / 2)) (f ((p - 1) / 2)) :=
      h.off ((p - 1) / 2) hq0 (lt_of_le_of_lt (by omega) hp) hq (by omega)
    by_cases hip : i = p
    · rw [hip, Equiv.swap_apply_right]
      exact hgrand
    · rw [Equiv.swap_apply_of_ne_of_ne (by omega) hip]
      exact htrans _ _ _ hgrand (hsib i h0 hi hpar hip)
  · simp only [Function.comp_apply]
    rw [Equiv.swap_apply_left]
    by_cases hip : i = p
    · rw [hip, Equiv.swap_apply_right]
      exact hle
    · rw [Equiv.swap_apply_of_ne_of_ne (by omega) hip]
      exact htrans _ _ _ hle (hsib i h0 hi hpar hip)

lemma Sinking.swap_down (h : Sinking le f n p) (hc0 : 0 < c) (hc : c < n) (hpar : (c - 1) / 2 = p)
    (hgt : ¬ le (f p) (f c)) (hmin : ∀ i, 0 < i → i < n → (i - 1) / 2 = p → le (f c) (f i)) :
    Sinking le (f ∘ Equiv.swap p c) n c := by
  have hle : le (f c) (f p) := (htotal _ _).resolve_left hgt
  refine ⟨⟨fun i h0 hi hic hipc => ?_, fun _ i h0 hi hipc => ?_⟩, fun _ => ?_⟩
  · simp only [Function.comp_apply]
    by_cases hip : i = p
    · rw [hip, Equiv.swap_apply_left, Equiv.swap_apply_of_ne_of_ne (by omega) (by omega)]
      exact h.across (by omega) c hc0 hc hpar
    · rw [Equiv.swap_apply_of_ne_of_ne hip hic]
      by_cases hpp : (i - 1) / 2 = p
      · rw [hpp, Equiv.swap_apply_left]
        exact hmin i h0 hi hpp
      · rw [Equiv.swap_apply_of_ne_of_ne hpp hipc]
        exact h.off i h0 hi hip hpp
  · simp only [Function.comp_apply]
    rw [hpar, Equiv.swap_apply_left, Equiv.swap_apply_of_ne_of_ne (by omega) (by omega)]
    have := h.off i h0 hi (by omega) (by omega)
    rwa [hipc] at this
  · simp only [Function.comp_apply]
    rw [hpar, Equiv.swap_apply_left, Equiv.swap_apply_right]
    exact hle

end

end Glaber.Lib.HeapOrder
