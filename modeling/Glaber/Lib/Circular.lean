import Mathlib.Data.List.Chain
import Mathlib.Tactic

/-! Positions on a ring of `n` cells, counted from a start cell. -/

namespace Glaber.Lib.Ring

def pos (n start k : ℕ) : ℕ := if start + k < n then start + k else start + k - n

section

variable {n start j k : ℕ}

lemma pos_lt (hs : start < n) (hk : k ≤ n) : pos n start k < n := by
  rw [pos]
  split_ifs <;> omega

lemma pos_zero (hs : start < n) : pos n start 0 = start := by
  rw [pos]
  split_ifs <;> omega

lemma pos_inj (hj : j < n) (hk : k < n) : pos n start j = pos n start k ↔ j = k := by
  simp only [pos]
  split_ifs <;> omega

lemma pos_ne (hj : 0 < j) (hjk : j < k) (hk : k ≤ n) : pos n start j ≠ pos n start k := by
  simp only [pos]
  split_ifs <;> omega

lemma pos_shift (hs : start < n) (hk : j + k ≤ n) : pos n (pos n start j) k = pos n start (j + k) := by
  simp only [pos]
  split_ifs <;> omega

lemma pos_back (hs : start < n) (hk : k + 1 < n) : pos n (pos n start (n - 1)) (k + 1) = pos n start k := by
  simp only [pos]
  split_ifs <;> omega

end

lemma tmod_index {n : ℕ} {i j : ℤ} (h0 : 0 ≤ j) (hn : j < n)
    (h : i = j ∨ i = j + n ∨ i = j + 2 * n ∨ i = j + 3 * n) : i.tmod n = j := by
  have hi : 0 ≤ i := by omega
  rw [Int.tmod_eq_emod_of_nonneg hi]
  rcases h with rfl | rfl | rfl | rfl
  · exact Int.emod_eq_of_lt h0 hn
  · rw [Int.add_emod_right, Int.emod_eq_of_lt h0 hn]
  · rw [mul_comm, Int.add_mul_emod_self_left, Int.emod_eq_of_lt h0 hn]
  · rw [mul_comm, Int.add_mul_emod_self_left, Int.emod_eq_of_lt h0 hn]

end Glaber.Lib.Ring

/-! Circular doubly linked lists: the nodes that follow a head until it comes again. The links are functions, so that an
update of one field of a node is an update of a function. -/

namespace Glaber.Lib.Circular

variable {α : Type}

def Joined (next prev : α → α) (a b : α) : Prop := next a = b ∧ prev b = a

def Circle (next prev : α → α) (head : α) (nodes : List α) : Prop :=
  List.IsChain (Joined next prev) (head :: (nodes ++ [head]))

section

variable {next prev next' prev' : α → α} {head x : α} {nodes before behind : List α}

lemma Circle.congr (h : Circle next prev head nodes) (hnext : ∀ a ∈ head :: nodes, next' a = next a)
    (hprev : ∀ a ∈ head :: nodes, prev' a = prev a) : Circle next' prev' head nodes := by
  have hmem : ∀ a ∈ head :: (nodes ++ [head]), a ∈ head :: nodes := by
    intro a ha
    simp only [List.mem_cons, List.mem_append, List.not_mem_nil, or_false] at ha ⊢
    tauto
  apply List.IsChain.imp_of_mem_imp _ h
  intro a b ha hb hab
  exact ⟨(hnext a (hmem a ha)).trans hab.1, (hprev b (hmem b hb)).trans hab.2⟩

lemma circle_nil (hnext : next head = head) (hprev : prev head = head) : Circle next prev head [] :=
  List.isChain_pair.2 ⟨hnext, hprev⟩

lemma Circle.next_head (h : Circle next prev head nodes) : next head = nodes.headD head := by
  cases nodes with
  | nil => exact (List.isChain_pair.1 h).1
  | cons a nodes => exact (List.isChain_cons_cons.1 h).1.1

lemma Circle.prev_head_mem (h : Circle next prev head nodes) : prev head ∈ head :: nodes := by
  obtain ⟨u, p, hp⟩ : ∃ u p, head :: nodes = u ++ [p] :=
    ⟨_, _, (List.dropLast_append_getLast (List.cons_ne_nil head nodes)).symm⟩
  have hchain : head :: (nodes ++ [head]) = u ++ p :: head :: [] := by
    rw [← List.cons_append, hp]
    simp
  rw [Circle, hchain, List.isChain_append_cons_cons] at h
  rw [h.2.1.2, hp]
  simp

lemma Circle.neighbours (h : Circle next prev head (before ++ x :: behind)) :
    ∃ u p n v, head :: before = u ++ [p] ∧ behind ++ [head] = n :: v ∧
      List.IsChain (Joined next prev) (u ++ [p]) ∧ Joined next prev p x ∧ Joined next prev x n ∧
      List.IsChain (Joined next prev) (n :: v) := by
  obtain ⟨u, p, hp⟩ : ∃ u p, head :: before = u ++ [p] :=
    ⟨_, _, (List.dropLast_append_getLast (List.cons_ne_nil head before)).symm⟩
  obtain ⟨n, v, hn⟩ : ∃ n v, behind ++ [head] = n :: v := List.exists_cons_of_ne_nil (by simp)
  have hchain : head :: (before ++ x :: behind ++ [head]) = u ++ p :: x :: n :: v := by
    rw [← hn, List.append_assoc, List.cons_append, ← List.cons_append, hp]
    simp
  rw [Circle, hchain, List.isChain_append_cons_cons, List.isChain_cons_cons] at h
  exact ⟨u, p, n, v, hp, hn, h.1, h.2.1, h.2.2.1, h.2.2.2⟩

lemma Circle.prev_mem (h : Circle next prev head (before ++ x :: behind)) : prev x ∈ head :: before := by
  obtain ⟨u, p, n, v, hp, -, -, hpx, -⟩ := h.neighbours
  rw [hpx.2, hp]
  simp

lemma Circle.next_mem (h : Circle next prev head (before ++ x :: behind)) : next x ∈ head :: behind := by
  obtain ⟨u, p, n, v, -, hn, -, -, hxn, -⟩ := h.neighbours
  have hmem : n ∈ behind ++ [head] := by simp [hn]
  rw [hxn.1, List.mem_cons, or_comm]
  simpa using hmem

lemma Circle.alone_iff (h : Circle next prev head (before ++ x :: behind)) (hnodup : (head :: (before ++ x :: behind)).Nodup) :
    prev x = next x ↔ before = [] ∧ behind = [] := by
  obtain ⟨u, p, n, v, hp, hn, -, hpx, hxn, -⟩ := h.neighbours
  rw [hpx.2, hxn.1]
  constructor
  · rintro rfl
    have hbefore : p ∈ head :: before := by simp [hp]
    have hbehind : p ∈ behind ++ [head] := by simp [hn]
    simp only [List.nodup_cons, List.mem_append, List.mem_cons, not_or, List.nodup_append] at hnodup
    have hhead : p = head := by
      simp only [List.mem_cons, List.mem_append, List.not_mem_nil, or_false] at hbefore hbehind
      rcases hbefore with hp | hp
      · exact hp
      · rcases hbehind with hq | hq
        · exact absurd rfl (hnodup.2.2.2 p hp p (.inr hq))
        · exact hq
    subst hhead
    refine ⟨?_, ?_⟩
    · cases u with
      | nil => simpa using hp
      | cons a u =>
          obtain ⟨rfl, rfl⟩ : p = a ∧ before = u ++ [p] := by simpa using hp
          exact absurd (by simp) hnodup.1.1
    · cases behind with
      | nil => rfl
      | cons a behind =>
          obtain ⟨rfl, -⟩ : a = p ∧ _ := by simpa using hn
          exact absurd List.mem_cons_self hnodup.1.2.2
  · rintro ⟨rfl, rfl⟩
    obtain rfl : n = head := by
      have := List.cons.inj hn.symm
      exact this.1
    have : u = [] ∧ n = p := by
      cases u <;> simp_all
    exact this.2.symm

end

section

variable [DecidableEq α] {next prev : α → α} {head x : α} {nodes before behind : List α}

lemma Circle.remove (h : Circle next prev head (before ++ x :: behind)) (hx : x ∉ head :: (before ++ behind)) :
    Circle (Function.update next (prev x) (next x)) (Function.update prev (next x) (prev x)) head (before ++ behind) := by
  obtain ⟨u, p, n, v, hp, hn, hfront, hpx, hxn, hback⟩ := h.neighbours
  have hchain : head :: (before ++ behind ++ [head]) = u ++ p :: n :: v := by
    rw [← hn, List.append_assoc, ← List.cons_append, hp]
    simp
  have hnot : ∀ a ∈ u ++ p :: n :: v, a ≠ x := by
    intro a ha hax
    rw [← hchain] at ha
    simp only [List.mem_cons, List.mem_append, List.not_mem_nil, or_false, not_or] at ha hx
    subst hax
    tauto
  rw [hpx.2, hxn.1]
  -- an old edge away from the node starts neither at the one before it nor ends at the one behind it
  have hkeep : ∀ a b, a ≠ x → b ≠ x → Joined next prev a b →
      Joined (Function.update next p n) (Function.update prev n p) a b := by
    intro a b ha hb hab
    have hap : a ≠ p := by
      rintro rfl
      exact hb (hab.1.symm.trans hpx.1)
    have hbn : b ≠ n := by
      rintro rfl
      exact ha (hab.2.symm.trans hxn.2)
    exact ⟨by rw [Function.update_of_ne hap, hab.1], by rw [Function.update_of_ne hbn, hab.2]⟩
  rw [Circle, hchain, List.isChain_append_cons_cons]
  refine ⟨?_, ⟨by simp, by simp⟩, ?_⟩
  · apply List.IsChain.imp_of_mem_imp _ hfront
    intro a b ha hb
    apply hkeep a b
    · apply hnot
      simp only [List.mem_append, List.mem_cons] at ha ⊢
      tauto
    · apply hnot
      simp only [List.mem_append, List.mem_cons] at hb ⊢
      tauto
  · apply List.IsChain.imp_of_mem_imp _ hback
    intro a b ha hb
    apply hkeep a b
    · apply hnot
      simp only [List.mem_append, List.mem_cons] at ha ⊢
      tauto
    · apply hnot
      simp only [List.mem_append, List.mem_cons] at hb ⊢
      tauto

lemma Circle.append (h : Circle next prev head nodes) (hhead : head ∉ nodes) (hx : x ∉ head :: nodes) :
    Circle (Function.update (Function.update next x head) (prev head) x)
      (Function.update (Function.update prev x (prev head)) head x) head (nodes ++ [x]) := by
  obtain ⟨u, p, hp⟩ : ∃ u p, head :: nodes = u ++ [p] :=
    ⟨_, _, (List.dropLast_append_getLast (List.cons_ne_nil head nodes)).symm⟩
  have hold : head :: (nodes ++ [head]) = u ++ p :: head :: [] := by
    rw [← List.cons_append, hp]
    simp
  have hnew : head :: (nodes ++ [x] ++ [head]) = u ++ p :: x :: [head] := by
    rw [List.append_assoc, ← List.cons_append, hp]
    simp
  rw [Circle, hold, List.isChain_append_cons_cons] at h
  obtain ⟨hfront, hlast, -⟩ := h
  have hpx : p ≠ x := by
    rintro rfl
    exact hx (by simp [hp])
  have hheadx : head ≠ x := by
    rintro rfl
    exact hx List.mem_cons_self
  rw [hlast.2, Circle, hnew, List.isChain_append_cons_cons, List.isChain_cons_cons]
  refine ⟨?_, ⟨by simp, ?_⟩, ⟨?_, by simp⟩, List.isChain_singleton _⟩
  · apply List.IsChain.imp_of_mem_tail_imp _ hfront
    intro a b ha hb hab
    rw [← hp, List.tail_cons] at hb
    have hbhead : b ≠ head := fun e => hhead (e ▸ hb)
    have hbx : b ≠ x := fun e => hx (e ▸ List.mem_cons_of_mem _ hb)
    have hax : a ≠ x := fun e => hx (by rw [hp]; exact e ▸ ha)
    have hap : a ≠ p := by
      rintro rfl
      exact hbhead (hab.1.symm.trans hlast.1)
    exact ⟨by rw [Function.update_of_ne hap, Function.update_of_ne hax, hab.1],
      by rw [Function.update_of_ne hbhead, Function.update_of_ne hbx, hab.2]⟩
  · rw [Function.update_of_ne hheadx.symm, Function.update_self]
  · rw [Function.update_of_ne hpx.symm, Function.update_self]

end

end Glaber.Lib.Circular
