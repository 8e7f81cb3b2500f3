import Mathlib.Data.List.TakeWhile
import Mathlib.Tactic

/-! Cursors over arrays. A cursor is an index, that is the length of what stands in front of it; a read past the end of the
array has no result. -/

namespace Glaber.Lib.Cursor

section

variable {α : Type} {stop : α → Bool} {values : List α}

def advance (stop : α → Bool) (values : List α) : ℕ → ℕ → Option ℕ
  | 0, _ => none
  | turns + 1, i =>
    if i < values.length then do
      let x ← values[i]?
      if stop x then return i else advance stop values turns (i + 1)
    else return i

def anyFrom (found : α → Option Bool) (values : List α) : ℕ → ℕ → Option Bool
  | 0, _ => some false
  | num + 1, i => do
    let x ← values[i]?
    if ← found x then return true else anyFrom found values num (i + 1)

lemma advance_append (stop : α → Bool) (front back : List α) {turns : ℕ} (hturns : back.length < turns) :
    advance stop (front ++ back) turns front.length = some (front ++ back.takeWhile fun x => !stop x).length := by
  induction back generalizing front turns with
  | nil =>
    obtain ⟨turns, rfl⟩ := Nat.exists_eq_add_one_of_ne_zero (Nat.ne_of_gt hturns)
    simp [advance]
  | cons x back ih =>
    obtain ⟨turns, rfl⟩ := Nat.exists_eq_add_one_of_ne_zero (Nat.ne_of_gt (Nat.zero_lt_of_lt hturns))
    have hnext := @ih (front ++ [x]) turns (by simpa using hturns)
    rw [List.append_assoc, List.singleton_append, List.length_append, List.length_singleton] at hnext
    rw [advance, if_pos (by simp), List.getElem?_append_right le_rfl, Nat.sub_self]
    cases hstop : stop x with
    | true => simp [hstop]
    | false => simp [hstop, hnext]

lemma anyFrom_append {found : α → Option Bool} {holds : α → Bool} (front mid back : List α)
    (hfound : ∀ x ∈ mid, found x = some (holds x)) :
    anyFrom found (front ++ (mid ++ back)) mid.length front.length = some (mid.any holds) := by
  induction mid generalizing front with
  | nil => rfl
  | cons x mid ih =>
    have hnext := ih (front ++ [x]) fun y hy => hfound y (List.mem_cons_of_mem _ hy)
    rw [List.append_assoc, List.singleton_append, List.length_append, List.length_singleton] at hnext
    rw [List.length_cons, anyFrom, List.getElem?_append_right le_rfl, Nat.sub_self, List.any_cons]
    cases hholds : holds x with
    | true => simp [hfound x List.mem_cons_self, hholds]
    | false =>
      simp only [List.cons_append] at hnext ⊢
      simp [hfound x List.mem_cons_self, hholds, hnext]

end

section

variable {α κ : Type} [LinearOrder κ] {key : α → κ} {xs : List α} {stop : α → Bool} {k : κ}

def Ascending (key : α → κ) (xs : List α) : Prop := xs.Pairwise fun x y => key x ≤ key y

lemma Ascending.stops (h : Ascending key xs) (hmono : ∀ x ∈ xs, ∀ y ∈ xs, key x ≤ key y → stop x → stop y) :
    ∀ x ∈ xs.dropWhile fun x => !stop x, stop x := by
  induction xs with
  | nil => simp
  | cons x xs ih =>
    obtain ⟨hhead, htail⟩ := List.pairwise_cons.1 h
    cases hstop : stop x with
    | true =>
      rw [List.dropWhile_cons_of_neg (by simp [hstop])]
      intro y hy
      rcases List.mem_cons.1 hy with rfl | hmem
      · exact hstop
      · exact hmono x List.mem_cons_self y hy (hhead y hmem) hstop
    | false =>
      rw [List.dropWhile_cons_of_pos (by simp [hstop])]
      exact ih htail fun y hy z hz => hmono y (List.mem_cons_of_mem _ hy) z (List.mem_cons_of_mem _ hz)

lemma advance_parts (stop : α → Bool) (front back : List α) {turns : ℕ} (hturns : back.length < turns)
    (hstops : ∀ x ∈ back.dropWhile fun x => !stop x, stop x) :
    ∃ passed rest, back = passed ++ rest ∧ (∀ x ∈ passed, stop x = false) ∧ (∀ x ∈ rest, stop x = true) ∧
      advance stop (front ++ back) turns front.length = some (front ++ passed).length := by
  refine ⟨_, _, (List.takeWhile_append_dropWhile (p := fun x => !stop x)).symm, fun x hx => ?_, hstops,
    advance_append stop front back hturns⟩
  simpa using List.mem_takeWhile_imp hx

lemma Ascending.advance_below {back : List α} (h : Ascending key back) (hstop : ∀ x, stop x = true ↔ k ≤ key x)
    (front : List α) :
    ∃ below rest, back = below ++ rest ∧ (∀ x ∈ below, key x < k) ∧ (∀ x ∈ rest, k ≤ key x) ∧
      advance stop (front ++ back) ((front ++ back).length + 1) front.length = some (front ++ below).length := by
  have hmono : ∀ x ∈ back, ∀ y ∈ back, key x ≤ key y → stop x → stop y := fun x _ y _ hxy hx =>
    (hstop y).2 (((hstop x).1 hx).trans hxy)
  have hturns : back.length < (front ++ back).length + 1 := by simp
  obtain ⟨below, rest, hback, hbelow, hrest, hscan⟩ := advance_parts stop front back hturns (h.stops hmono)
  refine ⟨below, rest, hback, fun x hx => lt_of_not_ge fun hge => ?_, fun x hx => (hstop x).1 (hrest x hx), hscan⟩
  exact Bool.false_ne_true ((hbelow x hx).symm.trans ((hstop x).2 hge))

lemma Ascending.advance_same {back : List α} {x : α} (h : Ascending key (x :: back))
    (hstop : ∀ y, stop y = true ↔ key y ≠ key x) (front : List α) :
    ∃ same above, back = same ++ above ∧ (∀ y ∈ same, key y = key x) ∧ (∀ y ∈ above, key x < key y) ∧
      advance stop (front ++ x :: back) ((front ++ x :: back).length + 1) (front.length + 1) =
        some (front ++ x :: same).length := by
  obtain ⟨hhead, htail⟩ := List.pairwise_cons.1 h
  have hmono : ∀ y ∈ back, ∀ z ∈ back, key y ≤ key z → stop y → stop z := by
    intro y hy z _ hyz hne
    have hlt : key x < key y := lt_of_le_of_ne (hhead y hy) (Ne.symm ((hstop y).1 hne))
    exact (hstop z).2 (hlt.trans_le hyz).ne'
  have hturns : back.length < (front ++ x :: back).length + 1 := by simp; omega
  obtain ⟨same, above, hback, hsame, habove, hscan⟩ := advance_parts stop (front ++ [x]) back hturns (Ascending.stops htail hmono)
  refine ⟨same, above, hback, fun y hy => ?_, fun y hy => ?_, ?_⟩
  · exact not_not.1 fun hne => Bool.false_ne_true ((hsame y hy).symm.trans ((hstop y).2 hne))
  · exact lt_of_le_of_ne (hhead y (hback ▸ List.mem_append_right _ hy)) (Ne.symm ((hstop y).1 (habove y hy)))
  · simpa using hscan

end

end Glaber.Lib.Cursor
