import Glaber.Lib.Classes

/-! The operations of `zbx_vector` on sorted vectors (`zbxalgo.h`). A vector is the list of its values, and a read or a move
outside of them has no result. -/

namespace Glaber.Algo.Vector

open Lib.Classes

section

variable {α : Type} (compareFunc : α → α → ℤ)

def uniqLoop : ℕ → ℕ → ℕ → List α → Option (ℕ × List α)
  | 0, _, j, values => some (j, values)
  | turns + 1, i, j, values => do
    let previous ← values[i - 1]?
    let value ← values[i]?
    if 0 ≠ compareFunc previous value then
      if j < values.length then uniqLoop turns (i + 1) (j + 1) (values.set j value) else none
    else uniqLoop turns (i + 1) j values

def uniq (values : List α) : Option (List α) :=
  if 2 ≤ values.length then (uniqLoop compareFunc (values.length - 1) 1 1 values).map fun (j, values) => values.take j
  else some values

def nearestindexLoop (values : List α) (value : α) : ℕ → ℕ → ℕ → Option ℕ
  | 0, _, _ => none
  | turns + 1, lo, hi =>
    if lo < hi then do
      -- an `int` holds the sum while there are less than 2^30 elements
      let mid := (lo + hi) / 2
      let c := compareFunc (← values[mid]?) value
      if c < 0 then nearestindexLoop values value turns (mid + 1) hi
      else if c = 0 then return mid
      else nearestindexLoop values value turns lo mid
    else some hi

def nearestindex (values : List α) (value : α) : Option ℕ :=
  nearestindexLoop compareFunc values value (values.length + 1) 0 values.length

def memmove (values : List α) (dst src num : ℕ) : Option (List α) :=
  if dst + num ≤ values.length ∧ src + num ≤ values.length then
    some (values.take dst ++ ((values.drop src).take num ++ values.drop (dst + num)))
  else none

structure Setdiff (α : Type) where
  values : List α
  blockStart : Option ℕ
  deleted : ℕ
  leftIndex : ℕ
  rightIndex : ℕ

def Setdiff.delete (s : Setdiff α) : Option (Setdiff α) :=
  if 0 < s.deleted then do
    let blockStart ← s.blockStart
    if blockStart < s.deleted ∨ s.leftIndex < blockStart + 1 then none
    else
      let values ← memmove s.values (blockStart - s.deleted) blockStart (s.leftIndex - 1 - blockStart)
      return { s with values := values, blockStart := some s.leftIndex, deleted := s.deleted + 1 }
  else some { s with blockStart := some s.leftIndex, deleted := s.deleted + 1 }

def setdiffLoop (right : List α) : ℕ → Setdiff α → Option (Setdiff α)
  | 0, _ => none
  | turns + 1, s =>
    if s.leftIndex < s.values.length ∧ s.rightIndex < right.length then do
      let c := compareFunc (← s.values[s.leftIndex]?) (← right[s.rightIndex]?)
      if c < 0 then setdiffLoop right turns { s with leftIndex := s.leftIndex + 1 }
      else if 0 < c then setdiffLoop right turns { s with rightIndex := s.rightIndex + 1 }
      else do
        let s ← { s with leftIndex := s.leftIndex + 1, rightIndex := s.rightIndex + 1 }.delete
        setdiffLoop right turns s
    else some s

def setdiff (left right : List α) : Option (List α) := do
  let s ← setdiffLoop compareFunc right (left.length + right.length + 1) ⟨left, none, 0, 0, 0⟩
  if 0 < s.deleted then
    let blockStart ← s.blockStart
    if blockStart < s.deleted ∨ s.values.length < blockStart then none
    else
      let values ← memmove s.values (blockStart - s.deleted) blockStart (s.values.length - blockStart)
      return values.take (s.values.length - s.deleted)
  else return s.values

end

section

variable {α : Type} {c : Comparison α}

lemma take_set_succ {values : List α} {j : ℕ} (hj : j < values.length) (value : α) :
    (values.set j value).take (j + 1) = values.take j ++ [value] := by
  rw [List.set_eq_take_append_cons_drop, if_pos hj, List.take_append, List.take_take, List.length_take,
    Nat.min_eq_left hj.le, Nat.min_eq_right (Nat.le_succ j), Nat.add_sub_cancel_left]
  rfl

lemma getElem?_of_drop {values rest : List α} {k : ℕ} {x : α} (h : values.drop k = x :: rest) : values[k]? = some x := by
  have hget := congrArg (·[0]?) h
  simpa using hget

lemma drop_succ_of_drop {values rest : List α} {k : ℕ} {x : α} (h : values.drop k = x :: rest) :
    values.drop (k + 1) = rest := by
  rw [← List.drop_drop, h, List.drop_one, List.tail_cons]

lemma uniqLoop_eq (compareFunc : α → α → ℤ) (ys : List α) {k j : ℕ} {x : α} {values : List α}
    (hdrop : values.drop k = x :: ys) (hj : j ≤ k + 1) :
    ∃ j' values', uniqLoop compareFunc ys.length (k + 1) j values = some (j', values') ∧
      values'.take j' = values.take j ++ changes compareFunc x ys := by
  induction ys generalizing k j x values with
  | nil => exact ⟨j, values, rfl, by rw [changes, List.append_nil]⟩
  | cons y ys ih =>
    have hnext := drop_succ_of_drop hdrop
    have hlt : k + 1 < values.length := by
      have hlength := congrArg List.length hnext
      rw [List.length_drop, List.length_cons] at hlength
      omega
    rw [List.length_cons, uniqLoop, Nat.add_sub_cancel, getElem?_of_drop hdrop, getElem?_of_drop hnext, changes]
    simp only [Option.bind_eq_bind, Option.bind_some]
    split_ifs with hne hroom
    · have hset : (values.set j y).drop (k + 1) = y :: ys := by
        rw [List.drop_set]
        split_ifs with hless
        · exact hnext
        · rw [hnext, show j - (k + 1) = 0 by omega, List.set_cons_zero]
      obtain ⟨j', values', hloop, htake⟩ := ih hset (by omega : j + 1 ≤ k + 1 + 1)
      refine ⟨j', values', hloop, ?_⟩
      rw [htake, take_set_succ hroom, List.append_assoc, List.singleton_append]
    · omega
    · exact ih hnext (by omega)

lemma uniq_cons (compareFunc : α → α → ℤ) (x : α) (ys : List α) :
    uniq compareFunc (x :: ys) = some (x :: changes compareFunc x ys) := by
  rw [uniq]
  cases ys with
  | nil => rfl
  | cons y ys =>
    obtain ⟨j', values', hloop, htake⟩ := @uniqLoop_eq _ compareFunc (y :: ys) 0 1 x (x :: y :: ys) rfl le_rfl
    rw [if_pos (by simp), List.length_cons, Nat.add_sub_cancel, hloop]
    exact congrArg some htake

end

section

variable {α : Type} {c : Comparison α} {values : List α} {value : α}

def Nearest (c : Comparison α) (values : List α) (value : α) (index : ℕ) : Prop :=
  (∃ x, values[index]? = some x ∧ c.compare x value = 0) ∨
    (∀ x ∈ values, c.compare x value ≠ 0) ∧ index ≤ values.length ∧
      (∀ x ∈ values.take index, c.compare x value < 0) ∧ ∀ x ∈ values.drop index, 0 < c.compare x value

lemma nearestindexLoop_eq (hvalues : Ordered c values) {turns lo hi : ℕ} (hturns : hi - lo < turns) (hhi : hi ≤ values.length)
    (hlo : lo ≤ hi) (hbelow : ∀ x ∈ values.take lo, c.compare x value < 0)
    (habove : ∀ x ∈ values.drop hi, 0 < c.compare x value) :
    ∃ index, nearestindexLoop c.compare values value turns lo hi = some index ∧ Nearest c values value index := by
  induction turns generalizing lo hi with
  | zero => omega
  | succ turns ih =>
    rw [nearestindexLoop]
    split_ifs with hlt
    · obtain ⟨mid, hmid⟩ : ∃ mid, (lo + hi) / 2 = mid := ⟨_, rfl⟩
      have hlength : mid < values.length := by omega
      have hget := List.getElem?_eq_getElem hlength
      have hdrop := List.drop_eq_getElem_cons hlength
      obtain ⟨x, hx⟩ : ∃ x, values[mid] = x := ⟨_, rfl⟩
      rw [hx] at hget hdrop
      have hparts : Ordered c (values.take mid ++ x :: values.drop (mid + 1)) := by
        rwa [← hdrop, List.take_append_drop]
      obtain ⟨-, hback, hfront⟩ := List.pairwise_append.1 hparts
      simp only [hmid, hget, Option.bind_eq_bind, Option.bind_some]
      split_ifs with hneg hzero
      · refine ih (by omega) hhi (by omega) (fun y hy => ?_) habove
        rw [List.take_add_one, hget, Option.toList_some] at hy
        rcases List.mem_append.1 hy with hy | hy
        · exact c.neg_of_le_of_neg (hfront y hy x List.mem_cons_self) hneg
        · rwa [List.mem_singleton.1 hy]
      · exact ⟨mid, rfl, .inl ⟨x, hget, hzero⟩⟩
      · have hpos : c.compare value x < 0 := (c.neg_iff value x).2 (by omega)
        refine ih (by omega) hlength.le (by omega) hbelow fun y hy => ?_
        rw [hdrop] at hy
        refine (c.neg_iff value y).1 ?_
        rcases List.mem_cons.1 hy with rfl | hy
        · exact hpos
        · exact c.neg_of_neg_of_le hpos ((List.pairwise_cons.1 hback).1 y hy)
    · obtain rfl : lo = hi := by omega
      refine ⟨lo, rfl, .inr ⟨fun x hx => ?_, hhi, hbelow, habove⟩⟩
      rw [← List.take_append_drop lo values] at hx
      rcases List.mem_append.1 hx with hx | hx
      · exact (hbelow x hx).ne
      · exact (habove x hx).ne'

end

section

variable {α : Type} {c : Comparison α} {front junk pending left : List α}

lemma memmove_block (front junk block rest : List α) :
    memmove (front ++ (junk ++ (block ++ rest))) front.length (front ++ junk).length block.length =
      some (front ++ (block ++ ((junk ++ block).drop block.length ++ rest))) := by
  have hblock : (front ++ (junk ++ (block ++ rest))).drop (front ++ junk).length = block ++ rest := by
    rw [← List.append_assoc, List.drop_left]
  have hbehind : (front ++ (junk ++ (block ++ rest))).drop (front.length + block.length) =
      (junk ++ block).drop block.length ++ rest := by
    rw [← List.drop_drop, List.drop_left, ← List.append_assoc, List.drop_append_of_le_length (by simp)]
  rw [memmove, if_pos (by simp; omega), List.take_left, hblock, List.take_left, hbehind]

structure Setdiff.Holds (s : Setdiff α) (front junk pending left : List α) : Prop where
  values_eq : s.values = front ++ (junk ++ (pending ++ left))
  deleted_eq : s.deleted = junk.length
  leftIndex_eq : s.leftIndex = (front ++ (junk ++ pending)).length
  block : junk ≠ [] → s.blockStart = some (front ++ junk).length
  untouched : junk = [] → front = []

variable {s : Setdiff α} {x : α}

lemma Setdiff.Holds.move (h : s.Holds front junk pending left) (hne : junk ≠ []) (rest : List α) (block : List α)
    (hblock : pending ++ left = block ++ rest) :
    ∃ blockStart, s.blockStart = some blockStart ∧ s.deleted ≤ blockStart ∧ blockStart + block.length ≤ s.values.length ∧
      blockStart = (front ++ junk).length ∧ memmove s.values (blockStart - s.deleted) blockStart block.length =
        some (front ++ (block ++ ((junk ++ block).drop block.length ++ rest))) := by
  refine ⟨_, h.block hne, ?_, ?_, rfl, ?_⟩
  · rw [h.deleted_eq, List.length_append]
    omega
  · rw [h.values_eq, hblock]
    simp
    omega
  · have hdst : (front ++ junk).length - s.deleted = front.length := by
      rw [h.deleted_eq, List.length_append, Nat.add_sub_cancel]
    rw [hdst, h.values_eq, hblock]
    exact memmove_block front junk block rest

lemma Setdiff.Holds.delete (h : s.Holds front junk pending (x :: left)) :
    ∃ s' junk', Setdiff.delete { s with leftIndex := s.leftIndex + 1, rightIndex := s.rightIndex + 1 } = some s' ∧
      s'.Holds (front ++ pending) junk' [] left ∧ s'.rightIndex = s.rightIndex + 1 := by
  have hindex := h.leftIndex_eq
  rw [Setdiff.delete]
  by_cases hjunk : junk = []
  · obtain rfl := h.untouched hjunk
    subst hjunk
    have hdeleted : ¬ 0 < s.deleted := by simp [h.deleted_eq]
    refine ⟨_, [x], if_neg hdeleted, ⟨?_, ?_, ?_, fun _ => ?_, by simp⟩, rfl⟩
    · simpa using h.values_eq
    · simp [h.deleted_eq]
    · simp [hindex]
    · simp [hindex]
  · obtain ⟨blockStart, hstart, hle, hroom, heq, hmove⟩ := h.move hjunk (x :: left) pending rfl
    have hdeleted : 0 < s.deleted := by
      rw [h.deleted_eq]
      exact List.length_pos_of_ne_nil hjunk
    have hnum : s.leftIndex + 1 - 1 - blockStart = pending.length := by
      rw [hindex, heq]
      simp
      omega
    have hinside : ¬ (blockStart < s.deleted ∨ s.leftIndex + 1 < blockStart + 1) := by
      have hbehind : blockStart ≤ s.leftIndex := by
        rw [hindex, heq]
        simp
      omega
    refine ⟨⟨front ++ (pending ++ ((junk ++ pending).drop pending.length ++ x :: left)), some (s.leftIndex + 1),
        s.deleted + 1, s.leftIndex + 1, s.rightIndex + 1⟩,
      (junk ++ pending).drop pending.length ++ [x], ?_, ⟨?_, ?_, ?_, fun _ => ?_, by simp⟩, rfl⟩
    · rw [if_pos hdeleted]
      simp only [hstart, Option.bind_eq_bind, Option.bind_some, if_neg hinside, hnum, hmove]
      rfl
    · simp
    · simp [h.deleted_eq]
    · simp [hindex]
      omega
    · simp [hindex]
      omega

lemma setdiffLoop_eq (compareFunc : α → α → ℤ) (right : List α) {turns : ℕ}
    (h : s.Holds front junk pending left) (hright : s.rightIndex ≤ right.length)
    (hturns : left.length + (right.length - s.rightIndex) < turns) :
    ∃ s' front' junk' pending' left', setdiffLoop compareFunc right turns s = some s' ∧
      s'.Holds front' junk' pending' left' ∧
        front' ++ (pending' ++ left') = front ++ (pending ++ diff compareFunc left (right.drop s.rightIndex)) := by
  induction turns generalizing s front junk pending left with
  | zero => omega
  | succ turns ih =>
    rw [setdiffLoop]
    cases left with
    | nil =>
      have hend : ¬ s.leftIndex < s.values.length := by simp [h.leftIndex_eq, h.values_eq]
      rw [if_neg fun hguard => hend hguard.1]
      exact ⟨s, front, junk, pending, [], rfl, h, by simp [diff]⟩
    | cons x left =>
      by_cases hlt : s.rightIndex < right.length
      · have hguard : s.leftIndex < s.values.length := by simp [h.leftIndex_eq, h.values_eq]
        have hx : s.values[s.leftIndex]? = some x := by
          rw [h.leftIndex_eq, h.values_eq, ← List.append_assoc, ← List.append_assoc, List.append_assoc front,
            List.getElem?_append_right le_rfl, Nat.sub_self]
          rfl
        have hy := List.getElem?_eq_getElem hlt
        have hdrop := List.drop_eq_getElem_cons hlt
        obtain ⟨y, heq⟩ : ∃ y, right[s.rightIndex] = y := ⟨_, rfl⟩
        rw [heq] at hy hdrop
        rw [if_pos ⟨hguard, hlt⟩, hdrop, diff]
        simp only [hx, hy, Option.bind_eq_bind, Option.bind_some]
        split_ifs with hneg hpos
        · have hnext : Setdiff.Holds { s with leftIndex := s.leftIndex + 1 } front junk (pending ++ [x]) left :=
            ⟨by simp [h.values_eq], h.deleted_eq, by simp [h.leftIndex_eq]; omega, h.block, h.untouched⟩
          obtain ⟨s', front', junk', pending', left', hloop, hholds, hkept⟩ := ih hnext hright
            (by simp only [List.length_cons] at hturns ⊢; omega)
          refine ⟨s', front', junk', pending', left', hloop, hholds, ?_⟩
          rw [hkept, hdrop]
          simp
        · have hnext : Setdiff.Holds { s with rightIndex := s.rightIndex + 1 } front junk pending (x :: left) :=
            ⟨h.values_eq, h.deleted_eq, h.leftIndex_eq, h.block, h.untouched⟩
          exact ih hnext hlt (by simp only at hturns ⊢; omega)
        · obtain ⟨s₁, junk₁, hdelete, hholds₁, hindex⟩ := h.delete
          obtain ⟨s', front', junk', pending', left', hloop, hholds, hkept⟩ := ih hholds₁ (by omega)
            (by simp only [List.length_cons] at hturns; omega)
          refine ⟨s', front', junk', pending', left', ?_, hholds, ?_⟩
          · rw [hdelete]
            exact hloop
          · rw [hkept, hindex]
            simp
      · rw [if_neg fun hguard => hlt hguard.2, List.drop_eq_nil_of_le (not_lt.1 hlt), diff_nil_right]
        exact ⟨s, front, junk, pending, x :: left, rfl, h, rfl⟩

lemma setdiff_eq (compareFunc : α → α → ℤ) (left right : List α) :
    setdiff compareFunc left right = some (diff compareFunc left right) := by
  have hstart : Setdiff.Holds ⟨left, none, 0, 0, 0⟩ [] [] [] left := ⟨rfl, rfl, rfl, by simp, by simp⟩
  obtain ⟨s, front, junk, pending, rest, hloop, h, hkept⟩ := setdiffLoop_eq compareFunc right hstart (Nat.zero_le _)
    (Nat.lt_succ_self (left.length + right.length))
  rw [List.nil_append, List.nil_append, List.drop_zero] at hkept
  rw [setdiff, hloop, ← hkept]
  simp only [Option.bind_eq_bind, Option.bind_some]
  by_cases hjunk : junk = []
  · obtain rfl := h.untouched hjunk
    have hdeleted : ¬ 0 < s.deleted := by simp [h.deleted_eq, hjunk]
    rw [if_neg hdeleted, h.values_eq, hjunk]
    rfl
  · obtain ⟨blockStart, hblock, hle, hroom, heq, hmove⟩ := h.move hjunk [] (pending ++ rest) (by simp)
    have hdeleted : 0 < s.deleted := by
      rw [h.deleted_eq]
      exact List.length_pos_of_ne_nil hjunk
    have hnum : s.values.length - blockStart = (pending ++ rest).length := by
      rw [h.values_eq, heq]
      simp
      omega
    have hinside : ¬ (blockStart < s.deleted ∨ s.values.length < blockStart) := by omega
    have hkeep : s.values.length - s.deleted = (front ++ (pending ++ rest)).length := by
      rw [h.values_eq, h.deleted_eq]
      simp
      omega
    rw [if_pos hdeleted, hblock]
    simp only [Option.bind_some, if_neg hinside, hnum, hmove, hkeep]
    rw [← List.append_assoc front (pending ++ rest), List.take_left]
    rfl

end

section

variable {α : Type}

structure Representatives (c : Comparison α) (values representatives : List α) : Prop where
  sublist : representatives.Sublist values
  strict : representatives.Pairwise fun a b => c.compare a b < 0
  cover : ∀ x ∈ values, ∃ y ∈ representatives, c.compare y x = 0

structure Difference (c : Comparison α) (left right rest : List α) : Prop where
  sublist : rest.Sublist left
  count : ∀ a, count c a rest = Lib.Classes.count c a left - Lib.Classes.count c a right

lemma uniq_representatives {c : Comparison α} {values : List α} (h : Ordered c values) :
    ∃ r, uniq c.compare values = some r ∧ Representatives c values r := by
  cases values with
  | nil => exact ⟨[], rfl, List.Sublist.refl _, List.Pairwise.nil, by simp⟩
  | cons x ys =>
    exact ⟨_, uniq_cons c.compare x ys, (changes_sublist c.compare x ys).cons_cons x, h.changes_strict, changes_cover x ys⟩

theorem sorted_vector_operations {c : Comparison α} {values left right : List α} (hvalues : Ordered c values)
    (hleft : Ordered c left) (hright : Ordered c right) (value : α) :
    (∃ r, uniq c.compare values = some r ∧ Representatives c values r) ∧
      (∃ r, setdiff c.compare left right = some r ∧ Difference c left right r) ∧
        ∃ index, nearestindex c.compare values value = some index ∧ Nearest c values value index := by
  refine ⟨uniq_representatives hvalues, ?_, ?_⟩
  · exact ⟨_, setdiff_eq c.compare left right, diff_sublist c.compare left right, fun a => count_diff a hleft hright⟩
  · exact nearestindexLoop_eq hvalues (Nat.lt_succ_self _) le_rfl (Nat.zero_le _) (by simp) (by simp)

def byHalves : Comparison ℤ where
  compare a b := a / 2 - b / 2
  neg_iff a b := by omega
  trans a b d h h' := by omega

theorem halves_sorted :
    (∃ r, uniq byHalves.compare [0, 1, 4, 5, 5] = some r ∧ Representatives byHalves [0, 1, 4, 5, 5] r) ∧
      (∃ r, setdiff byHalves.compare [0, 1, 4, 5, 5] [1, 4, 5] = some r ∧ Difference byHalves [0, 1, 4, 5, 5] [1, 4, 5] r) ∧
        ∃ index, nearestindex byHalves.compare [0, 1, 4, 5, 5] 3 = some index ∧
          Nearest byHalves [0, 1, 4, 5, 5] 3 index :=
  sorted_vector_operations (by simp [Ordered, byHalves]) (by simp [Ordered, byHalves]) (by simp [Ordered, byHalves]) 3

end

end Glaber.Algo.Vector
