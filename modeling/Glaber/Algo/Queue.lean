import Glaber.Lib.Runs

/-! The pointer queue (`queue.c`). -/

namespace Glaber.Algo.Queue

open Glaber.Lib.Runs

variable {α : Type}

/-- `zbx_queue_ptr_t`: `alloc_num` is the number of cells, and a cell that was never written holds nothing. -/
structure QueuePtr (α : Type) where
  values : List (Option α)
  headPos : ℕ
  tailPos : ℕ
  deriving DecidableEq, Repr

section

variable (values : List (Option α))

def read (i : ℕ) : Option α := values[i]?.join

def write (i : ℕ) (value : α) : Option (List (Option α)) :=
  if i < values.length then some (values.set i (some value)) else none

def memmove (dst src n : ℕ) : Option (List (Option α)) :=
  if dst + n ≤ values.length ∧ src + n ≤ values.length then
    some (values.take dst ++ (values.drop src).take n ++ values.drop (dst + n))
  else none

def realloc (allocNum : ℕ) : List (Option α) :=
  values.take allocNum ++ List.replicate (allocNum - values.length) none

end

namespace QueuePtr

variable (q : QueuePtr α)

def allocNum : ℕ := q.values.length

def create : QueuePtr α := ⟨[], 0, 0⟩

def valuesNum (q : QueuePtr α) : ℤ :=
  let valuesNum : ℤ := q.headPos - q.tailPos
  if 0 > valuesNum then valuesNum + q.allocNum else valuesNum

def reserve (num : ℤ) : Option (QueuePtr α) :=
  if q.valuesNum + num + 1 ≤ q.allocNum then some q
  else
    let allocNum := (q.allocNum + max (num + 1) (q.allocNum / 2 : ℕ)).toNat
    let values := realloc q.values allocNum
    if q.tailPos > q.headPos then do
      let resizeNum := allocNum - q.allocNum
      let values ← memmove values (q.tailPos + resizeNum) q.tailPos (q.allocNum - q.tailPos)
      some ⟨values, q.headPos, q.tailPos + resizeNum⟩
    else some ⟨values, q.headPos, q.tailPos⟩

def gather : Option (QueuePtr α) :=
  if q.tailPos ≠ 0 then
    if q.tailPos > q.headPos then do
      let values ← memmove q.values (q.headPos + 1) q.tailPos (q.allocNum - q.tailPos)
      some ⟨values, q.headPos, q.headPos + 1⟩
    else do
      let values ← memmove q.values 0 q.tailPos q.valuesNum.toNat
      some ⟨values, q.valuesNum.toNat, 0⟩
  else some q

def compact : Option (QueuePtr α) :=
  let allocNum := q.valuesNum + 1
  if allocNum = q.allocNum then some q
  else do
    let q ← q.gather
    some { q with values := realloc q.values allocNum.toNat }

def push (value : α) : Option (QueuePtr α) := do
  let q ← q.reserve 1
  let values ← write q.values q.headPos value
  some ⟨values, if q.headPos + 1 = values.length then 0 else q.headPos + 1, q.tailPos⟩

def pop : Option (Option α × QueuePtr α) :=
  if q.tailPos ≠ q.headPos then do
    let value ← read q.values q.tailPos
    some (some value, ⟨q.values, if q.headPos = q.allocNum then 0 else q.headPos,
      if q.tailPos + 1 = q.allocNum then 0 else q.tailPos + 1⟩)
  else some (none, q)

section

variable [DecidableEq α]

def findUp (values : List (Option α)) (value : α) : ℕ → ℕ → Option (Option ℕ)
  | _, 0 => some none
  | i, n + 1 => do
    let v ← read values i
    if v = value then some (some i) else findUp values value (i + 1) n

def findDown (values : List (Option α)) (value : α) : ℕ → ℕ → Option (Option ℕ)
  | _, 0 => some none
  | i, n + 1 => do
    let v ← read values i
    if v = value then some (some i) else findDown values value (i - 1) n

def shiftLeft (values : List (Option α)) : ℕ → ℕ → Option (List (Option α))
  | _, 0 => some values
  | i, n + 1 => do
    let v ← read values (i + 1)
    let values ← write values i v
    shiftLeft values (i + 1) n

def shiftRight (values : List (Option α)) : ℕ → ℕ → Option (List (Option α))
  | _, 0 => some values
  | i, n + 1 => do
    let v ← read values (i - 1)
    let values ← write values i v
    shiftRight values (i - 1) n

def removeValue (q : QueuePtr α) (value : α) : Option (QueuePtr α) :=
  if q.tailPos = q.headPos then some q
  else do
    let startPos := if q.tailPos < q.headPos then q.tailPos else 0
    match ← findUp q.values value startPos (q.headPos - startPos) with
    | some i =>
      let values ← shiftLeft q.values i (q.headPos - 1 - i)
      some ⟨values, q.headPos - 1, q.tailPos⟩
    | none =>
      if q.tailPos ≤ q.headPos then some q
      else
        match ← findDown q.values value (q.allocNum - 1) (q.allocNum - q.tailPos) with
        | some i =>
          let values ← shiftRight q.values i (i - q.tailPos)
          some ⟨values, q.headPos, if q.tailPos + 1 = q.allocNum then 0 else q.tailPos + 1⟩
        | none => some q

end

def contents : List (Option α) :=
  if q.tailPos ≤ q.headPos then (q.values.take q.headPos).drop q.tailPos
  else q.values.drop q.tailPos ++ q.values.take q.headPos

end QueuePtr

open QueuePtr

inductive Holds : QueuePtr α → List α → Prop
  | empty : Holds create []
  | straight (pre : List (Option α)) (xs : List α) (post : List (Option α)) (hpost : post ≠ []) :
      Holds ⟨pre ++ xs.map some ++ post, pre.length + xs.length, pre.length⟩ xs
  | wrapped (front : List α) (gap : List (Option α)) (back : List α) (hgap : gap ≠ []) (hback : back ≠ []) :
      Holds ⟨front.map some ++ gap ++ back.map some, front.length, front.length + gap.length⟩ (back ++ front)

section

variable {values : List (Option α)} {xs : List α} {headPos tailPos : ℕ} {q : QueuePtr α}

lemma Holds.of_straight (pre post : List (Option α)) (hvalues : values = pre ++ xs.map some ++ post) (hpost : post ≠ [])
    (hhead : headPos = pre.length + xs.length) (htail : tailPos = pre.length) : Holds ⟨values, headPos, tailPos⟩ xs := by
  subst hvalues hhead htail
  exact .straight pre xs post hpost

lemma Holds.of_wrapped (front : List α) (gap : List (Option α)) (back : List α)
    (hvalues : values = front.map some ++ gap ++ back.map some) (hgap : gap ≠ []) (hback : back ≠ [])
    (hhead : headPos = front.length) (htail : tailPos = front.length + gap.length) (hxs : xs = back ++ front) :
    Holds ⟨values, headPos, tailPos⟩ xs := by
  subst hvalues hhead htail hxs
  exact .wrapped front gap back hgap hback

lemma Holds.valuesNum (h : Holds q xs) : q.valuesNum = xs.length := by
  cases h with
  | empty => rfl
  | straight pre _ post hpost =>
    simp only [QueuePtr.valuesNum, Nat.cast_add]
    rw [if_neg (by omega)]
    omega
  | wrapped front gap back hgap hback =>
    have hg := List.length_pos_of_ne_nil hgap
    simp only [QueuePtr.valuesNum, allocNum, List.length_append, List.length_map, Nat.cast_add]
    rw [if_pos (by omega)]
    omega

lemma Holds.length_le (h : Holds q xs) : xs.length ≤ q.allocNum := by
  cases h with
  | empty => exact le_rfl
  | straight pre _ post hpost =>
    simp only [allocNum, List.length_append, List.length_map]
    omega
  | wrapped front gap back hgap hback =>
    simp only [allocNum, List.length_append, List.length_map]
    omega

lemma Holds.contents (h : Holds q xs) : q.contents = xs.map some := by
  cases h with
  | empty => rfl
  | straight pre _ post hpost =>
    have htake : (pre ++ xs.map some ++ post).take (pre.length + xs.length) = pre ++ xs.map some :=
      List.take_left' (by simp)
    simp only [QueuePtr.contents]
    rw [if_pos (by omega), htake, List.drop_left]
  | wrapped front gap back hgap hback =>
    have hg := List.length_pos_of_ne_nil hgap
    have hdrop : (front.map some ++ gap ++ back.map some).drop (front.length + gap.length) = back.map some :=
      List.drop_left' (by simp)
    have htake : (front.map some ++ gap ++ back.map some).take front.length = front.map some := by
      rw [List.append_assoc]
      exact List.take_left' (by simp)
    simp only [QueuePtr.contents]
    rw [if_neg (by omega), hdrop, htake, List.map_append]

end

section

variable {u w : List (Option α)}

lemma read_middle (u : List (Option α)) (v : α) (w : List (Option α)) : read (u ++ some v :: w) u.length = some v := by
  simp [read]

lemma read_at {values : List (Option α)} {i : ℕ} (u : List (Option α)) (v : α) (w : List (Option α))
    (hvalues : values = u ++ some v :: w) (hi : i = u.length) : read values i = some v := by
  subst hvalues hi
  exact read_middle u v w

lemma write_middle (u : List (Option α)) (c : Option α) (w : List (Option α)) (v : α) :
    write (u ++ c :: w) u.length v = some (u ++ some v :: w) := by
  simp [write]

lemma memmove_right (u xs w : List (Option α)) :
    memmove (u ++ xs ++ w) (u.length + w.length) u.length xs.length = some (u ++ (xs ++ w).take w.length ++ xs) := by
  have hfit : u.length + w.length + xs.length ≤ (u ++ xs ++ w).length ∧
      u.length + xs.length ≤ (u ++ xs ++ w).length := by
    simp only [List.length_append]
    omega
  have hend : (u ++ xs ++ w).drop (u.length + w.length + xs.length) = [] := by
    apply List.drop_of_length_le
    simp only [List.length_append]
    omega
  rw [memmove, if_pos hfit, hend, List.append_assoc u xs w, List.take_length_add_append, List.drop_left, List.take_left,
    List.append_nil]

lemma memmove_left (u m xs w : List (Option α)) :
    memmove (u ++ m ++ xs ++ w) u.length (u.length + m.length) xs.length =
      some (u ++ xs ++ (m ++ xs ++ w).drop xs.length) := by
  have hfit : u.length + xs.length ≤ (u ++ m ++ xs ++ w).length ∧
      u.length + m.length + xs.length ≤ (u ++ m ++ xs ++ w).length := by
    simp only [List.length_append]
    omega
  have hsrc : (u ++ m ++ xs ++ w).drop (u.length + m.length) = xs ++ w := by
    rw [List.append_assoc]
    exact List.drop_left' (by simp)
  have hsplit : u ++ m ++ xs ++ w = u ++ (m ++ xs ++ w) := by simp
  rw [memmove, if_pos hfit, hsrc, List.take_left, hsplit, List.take_left, List.drop_length_add_append]

lemma realloc_cut (values rest : List (Option α)) {n : ℕ} (hn : n = values.length) :
    realloc (values ++ rest) n = values := by
  subst hn
  simp [realloc]

lemma realloc_grow (values : List (Option α)) {n : ℕ} (hn : values.length ≤ n) :
    realloc values n = values ++ List.replicate (n - values.length) none := by
  rw [realloc, List.take_of_length_le hn]

end

section

variable {q : QueuePtr α} {xs : List α}

def enlarge (q : QueuePtr α) (k : ℕ) : Option (QueuePtr α) :=
  let values := q.values ++ List.replicate k none
  if q.tailPos > q.headPos then do
    let values ← memmove values (q.tailPos + k) q.tailPos (q.allocNum - q.tailPos)
    some ⟨values, q.headPos, q.tailPos + k⟩
  else some ⟨values, q.headPos, q.tailPos⟩

lemma enlarge_spec (h : Holds q xs) {k : ℕ} (hk : 0 < k) :
    ∃ q', enlarge q k = some q' ∧ Holds q' xs ∧ q'.allocNum = q.allocNum + k := by
  cases h with
  | empty =>
    refine ⟨⟨List.replicate k none, 0, 0⟩, rfl, ?_, by simp [allocNum, create]⟩
    have hnew : List.replicate k (none : Option α) ≠ [] := List.ne_nil_of_length_pos (by simpa using hk)
    exact Holds.straight [] [] (List.replicate k none) hnew
  | straight pre _ post hpost =>
    refine ⟨_, if_neg (by simp), ?_, by simp [allocNum, Nat.add_assoc]⟩
    exact Holds.of_straight pre (post ++ List.replicate k none) (List.append_assoc _ _ _) (by simp [hpost]) rfl rfl
  | wrapped front gap back hgap hback =>
    have hg := List.length_pos_of_ne_nil hgap
    have hmove := memmove_right (front.map some ++ gap) (back.map some) (List.replicate k none)
    simp only [List.length_append, List.length_map, List.length_replicate] at hmove
    have hlen : (front.map some ++ gap ++ back.map some).length - (front.length + gap.length) = back.length := by
      simp only [List.length_append, List.length_map]
      omega
    refine ⟨⟨front.map some ++ (gap ++ (back.map some ++ List.replicate k none).take k) ++ back.map some, front.length,
      front.length + gap.length + k⟩, ?_, ?_, ?_⟩
    · simp only [enlarge, allocNum, hlen]
      rw [if_pos (by omega), hmove]
      simp
    · apply Holds.of_wrapped front _ back rfl (by simp [hgap]) hback rfl _ rfl
      simp [Nat.add_assoc]
    · simp only [allocNum, List.length_append, List.length_map, List.length_take, List.length_replicate]
      omega

lemma reserve_spec (h : Holds q xs) (num : ℤ) :
    ∃ q', q.reserve num = some q' ∧ Holds q' xs ∧ xs.length + num + 1 ≤ q'.allocNum := by
  by_cases hroom : q.valuesNum + num + 1 ≤ q.allocNum
  · refine ⟨q, if_pos hroom, h, ?_⟩
    rwa [h.valuesNum] at hroom
  · obtain ⟨k, hk⟩ : ∃ k : ℕ, (k : ℤ) = max (num + 1) (q.allocNum / 2 : ℕ) := ⟨_, Int.toNat_of_nonneg (by omega)⟩
    have halloc : (q.allocNum + max (num + 1) (q.allocNum / 2 : ℕ) : ℤ).toNat = q.allocNum + k := by omega
    have hgrow : realloc q.values (q.allocNum + k) = q.values ++ List.replicate k none := by
      rw [realloc_grow _ (by simp [allocNum])]
      simp [allocNum]
    have hreserve : q.reserve num = enlarge q k := by
      simp only [reserve, if_neg hroom, halloc, hgrow, Nat.add_sub_cancel_left, enlarge]
    have hle := h.length_le
    rw [h.valuesNum] at hroom
    obtain ⟨q', henlarge, hholds, hsize⟩ := enlarge_spec h (k := k) (by omega)
    exact ⟨q', hreserve.trans henlarge, hholds, by omega⟩

end

section

variable {q : QueuePtr α} {xs : List α}

lemma gather_spec (h : Holds q xs) (hcells : q.values ≠ []) :
    ∃ kept rest headPos tailPos, q.gather = some ⟨kept ++ rest, headPos, tailPos⟩ ∧ Holds ⟨kept, headPos, tailPos⟩ xs ∧
      kept.length = xs.length + 1 := by
  have hnum := h.valuesNum
  cases h with
  | empty => exact absurd rfl hcells
  | straight pre _ post hpost =>
    obtain ⟨junk, hjunk, hmoved⟩ : ∃ junk : List (Option α), junk ≠ [] ∧
        gather ⟨pre ++ xs.map some ++ post, pre.length + xs.length, pre.length⟩ =
          some ⟨xs.map some ++ junk, xs.length, 0⟩ := by
      by_cases hpre : pre = []
      · subst hpre
        exact ⟨post, hpost, by simp [gather]⟩
      · have hmove := memmove_left [] pre (xs.map some) post
        simp only [List.nil_append, List.length_nil, Nat.zero_add, List.length_map] at hmove
        refine ⟨(pre ++ xs.map some ++ post).drop xs.length, ?_, ?_⟩
        · apply List.ne_nil_of_length_pos
          have hp := List.length_pos_of_ne_nil hpost
          simp only [List.length_drop, List.length_append, List.length_map]
          omega
        · rw [gather, if_pos (by simpa using hpre), if_neg (by simp), hnum, Int.toNat_natCast, hmove]
          rfl
    obtain ⟨c, rest, rfl⟩ := List.exists_cons_of_ne_nil hjunk
    refine ⟨xs.map some ++ [c], rest, xs.length, 0, ?_, ?_, by simp⟩
    · rw [hmoved, List.append_assoc, List.singleton_append]
    · simpa using Holds.straight [] xs [c] (List.cons_ne_nil c [])
  | wrapped front gap back hgap hback =>
    obtain ⟨c, gap, rfl⟩ := List.exists_cons_of_ne_nil hgap
    have hlen : (front.map some ++ c :: gap ++ back.map some).length - (front.length + (c :: gap).length) = back.length := by
      simp only [List.length_append, List.length_map]
      omega
    have hmove := memmove_left (front.map some ++ [c]) gap (back.map some) []
    simp only [List.append_nil, List.length_append, List.length_map, List.length_singleton, List.append_assoc,
      List.cons_append, List.nil_append] at hmove
    refine ⟨front.map some ++ [c] ++ back.map some, (gap ++ back.map some).drop back.length, front.length,
      front.length + 1, ?_, Holds.wrapped front [c] back (by simp) hback, ?_⟩
    · simp only [gather, allocNum, hlen]
      rw [if_pos (by simp), if_pos (by simp), List.length_cons, ← Nat.add_assoc, Nat.add_right_comm]
      simp only [List.append_assoc, List.cons_append, hmove, Option.bind_eq_bind, Option.bind_some, List.nil_append]
    · simp only [List.length_append, List.length_map, List.length_singleton]
      omega

lemma compact_spec (h : Holds q xs) : ∃ q', q.compact = some q' ∧ Holds q' xs := by
  by_cases hfull : q.valuesNum + 1 = q.allocNum
  · exact ⟨q, if_pos hfull, h⟩
  · rw [compact, if_neg hfull, h.valuesNum]
    have hsize : ((xs.length : ℤ) + 1).toNat = xs.length + 1 := by omega
    by_cases hcells : q.values = []
    · cases h with
      | empty => exact ⟨⟨[none], 0, 0⟩, rfl, Holds.straight [] [] [none] (by simp)⟩
      | straight pre _ post hpost => simp [hpost] at hcells
      | wrapped front gap back hgap hback => simp [hgap] at hcells
    · obtain ⟨kept, rest, headPos, tailPos, hgather, hholds, hlen⟩ := gather_spec h hcells
      refine ⟨⟨kept, headPos, tailPos⟩, ?_, hholds⟩
      simp only [hgather, hsize, Option.bind_eq_bind, Option.bind_some, realloc_cut kept rest hlen.symm]

end

section

variable {q : QueuePtr α} {xs : List α}

lemma push_spec (h : Holds q xs) (v : α) : ∃ q', q.push v = some q' ∧ Holds q' (xs ++ [v]) := by
  obtain ⟨q', hreserve, hholds, hroom⟩ := reserve_spec h 1
  rw [push, hreserve]
  cases hholds with
  | empty => simp [allocNum, create] at hroom
  | straight pre _ post hpost =>
    obtain ⟨c, post, rfl⟩ := List.exists_cons_of_ne_nil hpost
    simp only [allocNum, List.length_append, List.length_map, List.length_cons, Nat.cast_add, Nat.cast_one] at hroom
    have hwrite := write_middle (pre ++ xs.map some) c post v
    simp only [List.length_append, List.length_map] at hwrite
    simp only [Option.bind_eq_bind, Option.bind_some, hwrite]
    refine ⟨_, rfl, ?_⟩
    by_cases hlast : post = []
    · -- The last cell: the head goes around.
      subst hlast
      have hpre : pre ≠ [] := by
        apply List.ne_nil_of_length_pos
        simp only [List.length_nil] at hroom
        omega
      rw [if_pos (by simp [Nat.add_assoc])]
      exact Holds.of_wrapped [] pre (xs ++ [v]) (by simp) hpre (by simp) rfl (by simp) (by simp)
    · have hp := List.length_pos_of_ne_nil hlast
      rw [if_neg]
      · exact Holds.of_straight pre post (by simp) hlast (by simp [Nat.add_assoc]) rfl
      · simp only [List.length_append, List.length_map, List.length_cons]
        omega
  | wrapped front gap back hgap hback =>
    obtain ⟨c, gap, rfl⟩ := List.exists_cons_of_ne_nil hgap
    simp only [allocNum, List.length_append, List.length_map, List.length_cons, Nat.cast_add, Nat.cast_one] at hroom
    have hwrite := write_middle (front.map some) c (gap ++ back.map some) v
    have hb := List.length_pos_of_ne_nil hback
    have hrest : gap ≠ [] := by
      apply List.ne_nil_of_length_pos
      omega
    simp only [List.length_map] at hwrite
    simp only [List.append_assoc, List.cons_append, Option.bind_eq_bind, Option.bind_some, hwrite]
    refine ⟨_, rfl, ?_⟩
    rw [if_neg]
    · exact Holds.of_wrapped (front ++ [v]) gap back (by simp) hrest hback (by simp)
        (by simp [Nat.add_right_comm, Nat.add_assoc])
        (by simp)
    · simp only [List.length_append, List.length_map, List.length_cons]
      omega

lemma holds_behind (front : List α) (gap : List (Option α)) (c : Option α) (back : List α) :
    Holds ⟨front.map some ++ gap ++ [c] ++ back.map some, front.length,
      if front.length + gap.length + 1 = (front.map some ++ gap ++ [c] ++ back.map some).length then 0
      else front.length + gap.length + 1⟩ (back ++ front) := by
  by_cases hlast : back = []
  · subst hlast
    rw [if_pos (by simp [Nat.add_assoc])]
    exact Holds.of_straight [] (gap ++ [c]) (by simp) (by simp) (by simp) rfl
  · have hb := List.length_pos_of_ne_nil hlast
    rw [if_neg]
    · exact Holds.of_wrapped front (gap ++ [c]) back (by simp) (by simp) hlast rfl (by simp [Nat.add_assoc]) rfl
    · simp only [List.length_append, List.length_map, List.length_singleton]
      omega

lemma pop_nil (h : Holds q []) : q.pop = some (none, q) := by
  have hnum := h.valuesNum
  have hsame : q.tailPos = q.headPos := by
    generalize hlist : ([] : List α) = l at h
    cases h with
    | empty => rfl
    | straight pre _ post hpost =>
      subst hlist
      rfl
    | wrapped front gap back hgap hback => simp [hback] at hlist
  rw [pop, if_neg (not_not.mpr hsame)]

lemma pop_cons {x : α} (h : Holds q (x :: xs)) : ∃ q', q.pop = some (some x, q') ∧ Holds q' xs := by
  generalize hlist : x :: xs = l at h
  cases h with
  | empty => simp at hlist
  | straight pre _ post hpost =>
    subst hlist
    have hp := List.length_pos_of_ne_nil hpost
    have hread := read_middle pre x (xs.map some ++ post)
    refine ⟨⟨pre ++ (x :: xs).map some ++ post, pre.length + (x :: xs).length, pre.length + 1⟩, ?_, ?_⟩
    · rw [pop, if_pos (by simp)]
      simp only [allocNum, List.map_cons, List.append_assoc, List.cons_append, hread, Option.bind_eq_bind, Option.bind_some]
      rw [if_neg, if_neg]
      all_goals
        simp only [List.length_append, List.length_map, List.length_cons]
        omega
    · exact Holds.of_straight (pre ++ [some x]) post (by simp) hpost (by simp [Nat.add_right_comm, Nat.add_assoc]) (by simp)
  | wrapped front gap back hgap hback =>
    obtain ⟨y, back, rfl⟩ := List.exists_cons_of_ne_nil hback
    obtain ⟨rfl, rfl⟩ : x = y ∧ xs = back ++ front := by simpa using hlist
    have hg := List.length_pos_of_ne_nil hgap
    have hread := read_middle (front.map some ++ gap) x (back.map some)
    simp only [List.length_append, List.length_map] at hread
    have hhead : front.length ≠ (front.map some ++ gap ++ some x :: back.map some).length := by
      simp only [List.length_append, List.length_map, List.length_cons]
      omega
    have hrest := holds_behind front gap (some x) back
    simp only [List.append_assoc, List.singleton_append] at hrest hread hhead
    refine ⟨_, ?_, hrest⟩
    rw [pop, if_pos (by simpa using hgap)]
    simp only [List.map_cons, List.append_assoc, hread, Option.bind_eq_bind, Option.bind_some, allocNum, hhead, if_false]

end

section

variable [DecidableEq α] {values : List (Option α)} {xs : List α} {v value : α} {i n : ℕ}

lemma findUp_hit (h : read values i = some value) : findUp values value i (n + 1) = some (some i) := by
  simp [findUp, h]

lemma findUp_miss (h : read values i = some v) (hne : value ≠ v) :
    findUp values value i (n + 1) = findUp values value (i + 1) n := by
  simp [findUp, h, hne.symm]

lemma findDown_hit (h : read values i = some value) : findDown values value i (n + 1) = some (some i) := by
  simp [findDown, h]

lemma findDown_miss (h : read values i = some v) (hne : value ≠ v) :
    findDown values value i (n + 1) = findDown values value (i - 1) n := by
  simp [findDown, h, hne.symm]

lemma findUp_absent (u w : List (Option α)) (h : value ∉ xs) :
    findUp (u ++ xs.map some ++ w) value u.length xs.length = some none := by
  induction xs generalizing u with
  | nil => rfl
  | cons x xs ih =>
    obtain ⟨hx, hxs⟩ := not_or.mp (mt List.mem_cons.mpr h)
    have hread := read_at u x (xs.map some ++ w) (by simp : u ++ (x :: xs).map some ++ w = _) rfl
    have hrest := ih (u ++ [some x]) hxs
    rw [List.length_cons, findUp_miss hread hx]
    simpa using hrest

lemma findUp_first (u w : List (Option α)) {a : List α} (b : List α) (h : value ∉ a) :
    findUp (u ++ (a ++ value :: b).map some ++ w) value u.length (a ++ value :: b).length =
      some (some (u.length + a.length)) := by
  induction a generalizing u with
  | nil => exact findUp_hit (read_at u value (b.map some ++ w) (by simp) rfl)
  | cons x a ih =>
    obtain ⟨hx, ha⟩ := not_or.mp (mt List.mem_cons.mpr h)
    have hread := read_at u x ((a ++ value :: b).map some ++ w)
      (by simp : u ++ (x :: a ++ value :: b).map some ++ w = _) rfl
    have hrest := ih (u ++ [some x]) ha
    rw [List.cons_append] at hread ⊢
    rw [List.length_cons, findUp_miss hread hx]
    simpa [Nat.add_assoc, Nat.add_comm 1] using hrest

lemma findDown_absent (u w : List (Option α)) (h : value ∉ xs) :
    findDown (u ++ xs.map some ++ w) value (u.length + xs.length - 1) xs.length = some none := by
  induction xs using List.reverseRecOn generalizing w with
  | nil => rfl
  | append_singleton xs x ih =>
    obtain ⟨hxs, hx⟩ := not_or.mp (mt List.mem_append.mpr h)
    have hread := read_at (u ++ xs.map some) x w (by simp : u ++ (xs ++ [x]).map some ++ w = _)
      (by simp : u.length + (xs.length + 1) - 1 = _)
    have hrest := ih (some x :: w) hxs
    rw [List.length_append, List.length_singleton, findDown_miss hread (by simpa using hx)]
    simpa using hrest

lemma findDown_last (u w : List (Option α)) (a : List α) {b : List α} (h : value ∉ b) :
    findDown (u ++ (a ++ value :: b).map some ++ w) value (u.length + (a ++ value :: b).length - 1) (a ++ value :: b).length =
      some (some (u.length + a.length)) := by
  induction b using List.reverseRecOn generalizing w with
  | nil =>
    have hread := read_at (u ++ a.map some) value w (by simp : u ++ (a ++ [value]).map some ++ w = _)
      (by simp : u.length + (a.length + 1) - 1 = _)
    rw [List.length_append, List.length_singleton, findDown_hit hread]
    rfl
  | append_singleton b x ih =>
    obtain ⟨hb, hx⟩ := not_or.mp (mt List.mem_append.mpr h)
    have hlist : a ++ value :: (b ++ [x]) = a ++ value :: b ++ [x] := by simp
    have hread := read_at (u ++ (a ++ value :: b).map some) x w
      (by simp : u ++ (a ++ value :: b ++ [x]).map some ++ w = _)
      (by simp : u.length + ((a ++ value :: b).length + 1) - 1 = _)
    have hrest := ih (some x :: w) hb
    rw [hlist, List.length_append, List.length_singleton, findDown_miss hread (by simpa using hx)]
    simpa using hrest

end

section

lemma shiftLeft_spec (u : List (Option α)) (c : Option α) (b : List α) (w : List (Option α)) :
    ∃ d, shiftLeft (u ++ c :: (b.map some ++ w)) u.length b.length = some (u ++ b.map some ++ d :: w) := by
  induction b generalizing u c with
  | nil => exact ⟨c, by simp [shiftLeft]⟩
  | cons x b ih =>
    have hread := read_at (u ++ [c]) x (b.map some ++ w) (by simp : u ++ c :: ((x :: b).map some ++ w) = _)
      (by simp : u.length + 1 = _)
    have hwrite := write_middle u c ((x :: b).map some ++ w) x
    obtain ⟨d, hd⟩ := ih (u ++ [some x]) (some x)
    refine ⟨d, ?_⟩
    rw [List.length_cons, shiftLeft, hread]
    simp only [Option.bind_eq_bind, Option.bind_some, hwrite]
    simpa using hd

lemma shiftRight_spec (u : List (Option α)) (a : List α) (c : Option α) (w : List (Option α)) :
    ∃ d, shiftRight (u ++ a.map some ++ c :: w) (u.length + a.length) a.length = some (u ++ d :: a.map some ++ w) := by
  induction a using List.reverseRecOn generalizing c w with
  | nil => exact ⟨c, by simp [shiftRight]⟩
  | append_singleton a x ih =>
    have hread := read_at (u ++ a.map some) x (c :: w) (by simp : u ++ (a ++ [x]).map some ++ c :: w = _)
      (by simp : u.length + (a.length + 1) - 1 = _)
    have hwrite := write_middle (u ++ (a ++ [x]).map some) c w x
    have hat : (u ++ (a ++ [x]).map some).length = u.length + (a.length + 1) := by simp
    obtain ⟨d, hd⟩ := ih (some x) (some x :: w)
    refine ⟨d, ?_⟩
    rw [hat] at hwrite
    rw [List.length_append, List.length_singleton, shiftRight, hread]
    simp only [Option.bind_eq_bind, Option.bind_some, hwrite]
    simpa using hd

end

section

variable [DecidableEq α] {q : QueuePtr α} {xs : List α} {value : α}

lemma removeValue_absent (h : Holds q xs) (habsent : value ∉ xs) : q.removeValue value = some q := by
  by_cases hempty : q.tailPos = q.headPos
  · exact if_pos hempty
  · rw [removeValue, if_neg hempty]
    cases h with
    | empty => exact absurd rfl hempty
    | straight pre _ post hpost =>
      have hup := findUp_absent pre post habsent
      have hlt : pre.length < pre.length + xs.length := by
        simp only at hempty
        omega
      simp only [if_pos hlt, Nat.add_sub_cancel_left, hup, Option.bind_eq_bind, Option.bind_some]
      rw [if_pos hlt.le]
    | wrapped front gap back hgap hback =>
      obtain ⟨hb, hf⟩ := not_or.mp (mt List.mem_append.mpr habsent)
      have hg := List.length_pos_of_ne_nil hgap
      have hup := findUp_absent [] (gap ++ back.map some) hf
      have hdown := findDown_absent (front.map some ++ gap) [] hb
      simp only [List.nil_append, List.append_nil, List.length_nil, List.length_append, List.length_map,
        ← List.append_assoc] at hup hdown
      have hlen : front.length + gap.length + back.length - (front.length + gap.length) = back.length := by omega
      simp only [if_neg (by omega : ¬ front.length + gap.length < front.length), Nat.sub_zero, hup, allocNum,
        List.length_append, List.length_map, hlen, hdown, Option.bind_eq_bind, Option.bind_some]
      rw [if_neg (by omega)]

lemma removeValue_straight {a b : List α} (pre post : List (Option α)) (ha : value ∉ a) :
    ∃ q', removeValue ⟨pre ++ (a ++ value :: b).map some ++ post, pre.length + (a ++ value :: b).length, pre.length⟩ value =
      some q' ∧ Holds q' (a ++ b) := by
  have hup := findUp_first pre post b ha
  obtain ⟨d, hshift⟩ := shiftLeft_spec (pre ++ a.map some) (some value) b post
  have hcells : pre ++ a.map some ++ some value :: (b.map some ++ post) = pre ++ (a ++ value :: b).map some ++ post := by simp
  have hturns : pre.length + (a ++ value :: b).length - 1 - (pre.length + a.length) = b.length := by
    simp only [List.length_append, List.length_cons]
    omega
  rw [hcells, List.length_append, List.length_map] at hshift
  refine ⟨⟨pre ++ a.map some ++ b.map some ++ d :: post, pre.length + (a ++ value :: b).length - 1, pre.length⟩, ?_, ?_⟩
  · rw [removeValue, if_neg (by simp)]
    simp only [if_pos (by simp : pre.length < pre.length + (a ++ value :: b).length), Nat.add_sub_cancel_left, hup,
      Option.bind_eq_bind, Option.bind_some, hturns, hshift]
  · apply Holds.of_straight pre (d :: post) (by simp) (List.cons_ne_nil d post) _ rfl
    simp only [List.length_append, List.length_cons]
    omega

lemma removeValue_front (a b : List α) (gap : List (Option α)) (back : List α) (hgap : gap ≠ []) (hback : back ≠ [])
    (ha : value ∉ a) :
    ∃ q', removeValue ⟨(a ++ value :: b).map some ++ gap ++ back.map some, (a ++ value :: b).length,
      (a ++ value :: b).length + gap.length⟩ value = some q' ∧ Holds q' (back ++ (a ++ b)) := by
  have hg := List.length_pos_of_ne_nil hgap
  have hup := findUp_first [] (gap ++ back.map some) b ha
  obtain ⟨d, hshift⟩ := shiftLeft_spec (a.map some) (some value) b (gap ++ back.map some)
  have hcells : a.map some ++ some value :: (b.map some ++ (gap ++ back.map some)) =
      (a ++ value :: b).map some ++ gap ++ back.map some := by simp
  have hturns : (a ++ value :: b).length - 1 - a.length = b.length := by
    simp only [List.length_append, List.length_cons]
    omega
  rw [hcells, List.length_map] at hshift
  rw [← List.append_assoc] at hup
  simp only [List.nil_append, List.length_nil, Nat.zero_add] at hup
  refine ⟨⟨a.map some ++ b.map some ++ d :: (gap ++ back.map some), (a ++ value :: b).length - 1,
    (a ++ value :: b).length + gap.length⟩, ?_, ?_⟩
  · rw [removeValue, if_neg (by simpa using hgap)]
    simp only [if_neg (by omega : ¬ (a ++ value :: b).length + gap.length < (a ++ value :: b).length), Nat.sub_zero, hup,
      Option.bind_eq_bind, Option.bind_some, hturns, hshift]
  · apply Holds.of_wrapped (a ++ b) (d :: gap) back (by simp) (List.cons_ne_nil d gap) hback (by simp) _ rfl
    simp only [List.length_append, List.length_cons]
    omega

lemma removeValue_back (front : List α) (gap : List (Option α)) (a b : List α) (hgap : gap ≠ [])
    (hfront : value ∉ front) (hb : value ∉ b) :
    ∃ q', removeValue ⟨front.map some ++ gap ++ (a ++ value :: b).map some, front.length, front.length + gap.length⟩ value =
      some q' ∧ Holds q' (a ++ b ++ front) := by
  have hg := List.length_pos_of_ne_nil hgap
  have hup := findUp_absent [] (gap ++ (a ++ value :: b).map some) hfront
  have hdown := findDown_last (front.map some ++ gap) [] a hb
  obtain ⟨d, hshift⟩ := shiftRight_spec (front.map some ++ gap) a (some value) (b.map some)
  have hcells : front.map some ++ gap ++ a.map some ++ some value :: b.map some =
      front.map some ++ gap ++ (a ++ value :: b).map some := by simp
  have hlen : (front.map some ++ gap ++ (a ++ value :: b).map some).length =
      front.length + gap.length + (a ++ value :: b).length := by
    simp only [List.length_append, List.length_map]
  have hrest := holds_behind front gap d (a ++ b)
  have hrestLen : (front.map some ++ gap ++ [d] ++ (a ++ b).map some).length =
      (front.map some ++ gap ++ (a ++ value :: b).map some).length := by
    simp only [List.length_append, List.length_map, List.length_cons, List.length_nil]
    omega
  have hat : (front.map some ++ gap).length = front.length + gap.length := by simp
  rw [hcells, hat] at hshift
  rw [hat, List.append_nil] at hdown
  rw [List.nil_append, ← List.append_assoc, List.length_nil] at hup
  rw [hrestLen] at hrest
  refine ⟨_, ?_, hrest⟩
  rw [removeValue, if_neg (by simpa using hgap)]
  simp only [if_neg (by omega : ¬ front.length + gap.length < front.length), Nat.sub_zero, hup, allocNum, hlen,
    Nat.add_sub_cancel_left, hdown, hshift, Option.bind_eq_bind, Option.bind_some]
  rw [if_neg (by omega)]
  simp

lemma removeValue_present {a b : List α} (h : Holds q (a ++ value :: b)) (ha : value ∉ a) (hb : value ∉ b) :
    ∃ q', q.removeValue value = some q' ∧ Holds q' (a ++ b) := by
  generalize hlist : a ++ value :: b = l at h
  cases h with
  | empty => simp at hlist
  | straight pre _ post hpost =>
    subst hlist
    exact removeValue_straight pre post ha
  | wrapped front gap back hgap hback =>
    rcases List.append_eq_append_iff.mp hlist with ⟨c, rfl, hc⟩ | ⟨c, rfl, rfl⟩
    · cases c with
      | nil =>
        obtain rfl : value :: b = front := by simpa using hc
        simpa using removeValue_front [] b gap (a ++ []) hgap hback List.not_mem_nil
      | cons x c =>
        obtain ⟨rfl, rfl⟩ : value = x ∧ b = c ++ front := by simpa using hc
        obtain ⟨hc, hfront⟩ := not_or.mp (mt List.mem_append.mpr hb)
        simpa using removeValue_back front gap a c hgap hfront hc
    · have hc := (not_or.mp (mt List.mem_append.mpr ha)).2
      simpa using removeValue_front c b gap back hgap hback hc

end

section

variable [DecidableEq α]

inductive Op (α : Type) where
  | push (value : α)
  | pop
  | reserve (num : ℤ)
  | compact
  | removeValue (value : α)
  deriving DecidableEq, Repr

def step (s : QueuePtr α × List (Option α)) : Op α → Option (QueuePtr α × List (Option α))
  | .push value => (s.1.push value).map fun q => (q, s.2)
  | .pop => s.1.pop.map fun r => (r.2, s.2 ++ [r.1])
  | .reserve num => (s.1.reserve num).map fun q => (q, s.2)
  | .compact => s.1.compact.map fun q => (q, s.2)
  | .removeValue value => (s.1.removeValue value).map fun q => (q, s.2)

def run (ops : List (Op α)) : Option (QueuePtr α × List (Option α)) := ops.foldlM step (create, [])

def listStep (s : List α × List (Option α)) : Op α → List α × List (Option α)
  | .push value => (s.1 ++ [value], s.2)
  | .pop => (s.1.tail, s.2 ++ [s.1.head?])
  | .reserve _ => s
  | .compact => s
  | .removeValue value => (s.1.erase value, s.2)

def listRun (ops : List (Op α)) : List α × List (Option α) := ops.foldl listStep ([], [])

def Distinct (ops : List (Op α)) : Prop :=
  ∀ past value later, ops = past ++ Op.push value :: later → value ∉ (listRun past).1

structure Kept (past : List (Op α)) (s : QueuePtr α × List (Option α)) : Prop where
  holds : Holds s.1 (listRun past).1
  nodup : (listRun past).1.Nodup
  popped : s.2 = (listRun past).2

lemma listRun_snoc (past : List (Op α)) (op : Op α) : listRun (past ++ [op]) = listStep (listRun past) op := by
  rw [listRun, List.foldl_append]
  rfl

lemma removeValue_spec {q : QueuePtr α} {xs : List α} (h : Holds q xs) (hnodup : xs.Nodup) (value : α) :
    ∃ q', q.removeValue value = some q' ∧ Holds q' (xs.erase value) := by
  by_cases hmem : value ∈ xs
  · obtain ⟨a, b, ha, rfl, herase⟩ := List.exists_erase_eq hmem
    rw [herase]
    exact removeValue_present h ha (List.nodup_cons.mp (List.nodup_append.mp hnodup).2.1).1
  · rw [List.erase_of_not_mem hmem]
    exact ⟨q, removeValue_absent h hmem, h⟩

lemma step_spec {past : List (Op α)} {s : QueuePtr α × List (Option α)} (h : Kept past s) (op : Op α)
    (hop : ∀ value, op = .push value → value ∉ (listRun past).1) : ∃ s', step s op = some s' ∧ Kept (past ++ [op]) s' := by
  cases op with
  | push value =>
    obtain ⟨q', hpush, hholds⟩ := push_spec h.holds value
    refine ⟨(q', s.2), by rw [step, hpush]; rfl, ?_, ?_, ?_⟩ <;> rw [listRun_snoc]
    · exact hholds
    · rw [listStep, ← List.concat_eq_append]
      exact h.nodup.concat (hop value rfl)
    · exact h.popped
  | pop =>
    obtain ⟨q', hpop, hholds⟩ : ∃ q', s.1.pop = some ((listRun past).1.head?, q') ∧ Holds q' (listRun past).1.tail := by
      have hholds := h.holds
      cases hlist : (listRun past).1 with
      | nil =>
        rw [hlist] at hholds
        exact ⟨s.1, pop_nil hholds, hholds⟩
      | cons x xs =>
        rw [hlist] at hholds
        exact pop_cons hholds
    refine ⟨(q', s.2 ++ [(listRun past).1.head?]), by rw [step, hpop]; rfl, ?_, ?_, ?_⟩ <;> rw [listRun_snoc]
    · exact hholds
    · exact h.nodup.tail
    · rw [h.popped]
      rfl
  | reserve num =>
    obtain ⟨q', hreserve, hholds, -⟩ := reserve_spec h.holds num
    refine ⟨(q', s.2), by rw [step, hreserve]; rfl, ?_, ?_, ?_⟩ <;> rw [listRun_snoc]
    exacts [hholds, h.nodup, h.popped]
  | compact =>
    obtain ⟨q', hcompact, hholds⟩ := compact_spec h.holds
    refine ⟨(q', s.2), by rw [step, hcompact]; rfl, ?_, ?_, ?_⟩ <;> rw [listRun_snoc]
    exacts [hholds, h.nodup, h.popped]
  | removeValue value =>
    obtain ⟨q', hremove, hholds⟩ := removeValue_spec h.holds h.nodup value
    refine ⟨(q', s.2), by rw [step, hremove]; rfl, ?_, ?_, ?_⟩ <;> rw [listRun_snoc]
    exacts [hholds, h.nodup.erase value, h.popped]

lemma distinct_snoc {ops : List (Op α)} {op : Op α} :
    Distinct (ops ++ [op]) ↔ Distinct ops ∧ ∀ value, op = .push value → value ∉ (listRun ops).1 := by
  constructor
  · refine fun h => ⟨?_, ?_⟩
    · rintro past value later rfl
      exact h past value (later ++ [op]) (by simp)
    · rintro value rfl
      exact h ops value [] rfl
  · rintro ⟨h, hop⟩ past value later heq
    rcases List.eq_nil_or_concat later with rfl | ⟨later, last, rfl⟩
    · obtain ⟨rfl, hlast⟩ := List.append_inj' heq rfl
      exact hop value (by simpa using hlast)
    · rw [List.concat_eq_append, ← List.cons_append, ← List.append_assoc] at heq
      exact h past value later (List.append_inj' heq rfl).1

lemma run_spec {ops : List (Op α)} (h : Distinct ops) : ∃ s, run ops = some s ∧ Kept ops s := by
  induction ops using List.reverseRecOn with
  | nil => exact ⟨(create, []), rfl, Holds.empty, List.nodup_nil, rfl⟩
  | append_singleton ops op ih =>
    obtain ⟨hbefore, hfresh⟩ := distinct_snoc.mp h
    obtain ⟨s, hrun, hkept⟩ := ih hbefore
    obtain ⟨s', hstep, hkept'⟩ := step_spec hkept op hfresh
    refine ⟨s', ?_, hkept'⟩
    rw [run, List.foldlM_append, ← run, hrun]
    simp [hstep]

theorem queue_runs_as_a_list (ops : List (Op α)) (h : Distinct ops) :
    ∃ q, run ops = some (q, (listRun ops).2) ∧ q.contents = (listRun ops).1.map some ∧
      q.valuesNum = (listRun ops).1.length := by
  obtain ⟨⟨q, popped⟩, hrun, hkept⟩ := run_spec h
  obtain rfl : popped = (listRun ops).2 := hkept.popped
  exact ⟨q, hrun, hkept.holds.contents, hkept.holds.valuesNum⟩

lemma distinct_of_take {ops : List (Op α)}
    (h : ∀ k < ops.length, ∀ value ∈ (listRun (ops.take k)).1, ops[k]? ≠ some (Op.push value)) : Distinct ops := by
  rintro past value later rfl hmem
  apply h past.length (by simp) value
  · rwa [List.take_left]
  · simp

theorem queue_runs_around_the_array :
    ∃ q, run [.push 1, .push 2, .pop, .push 3, .push 4, .push 5, .pop, .push 6, .removeValue 4, .pop] =
      some (q, [some 1, some 2, some 3]) ∧ q.contents = [some 5, some 6] ∧ q.valuesNum = 2 :=
  queue_runs_as_a_list [.push 1, .push 2, .pop, .push 3, .push 4, .push 5, .pop, .push 6, .removeValue 4, .pop]
    (distinct_of_take (by decide))

end

end Glaber.Algo.Queue
