import Glaber.Algo.TsbuffFind
import Glaber.Lib.Parts
import Glaber.State.Items

namespace Glaber.State.Items

open Glaber.Algo Glaber.Algo.Tsbuff Glaber.Lib.Newest

variable {α : Type}

structure View (α : Type) where
  live : List (TsValue α)
  size : ℕ

def secondTime : List (TsValue α) → ℤ
  | [] => 0
  | [v] => v.time
  | _ :: v :: _ => v.time

namespace View

def makeRoom (d : ItemDemand) (now : ℤ) (v : View α) : View α :=
  if v.live.length = v.size then
    if d.count ≤ v.live.length - 1 ∧ (d.period : ℤ) ≤ now - secondTime v.live then ⟨v.live.tail, v.size⟩
    else if (calcGrowBufferSize v.size : ℤ) ≤ maxSize then ⟨v.live, calcGrowBufferSize v.size⟩
    else v
  else v

def push (v : View α) (x : TsValue α) : View α :=
  if Accepts v.live v.size x.time then ⟨x :: v.live, v.size⟩ else v

def fill (v : View α) (xs : List (TsValue α)) : View α := xs.foldl push v

def absorb (d : ItemDemand) (now : ℤ) (v : View α) (xs : List (TsValue α)) : View α :=
  xs.foldl (fun v x => (v.makeRoom d now).push x) v

def room (v : View α) : ℕ := v.size - v.live.length

end View

lemma lt_calcGrowBufferSize (n : ℕ) : n < calcGrowBufferSize n := by
  have hgrow : calcGrowBufferSize n = if n * 120 / 100 - n < 8 then n + 8 else n * 120 / 100 := rfl
  rw [hgrow]
  split_ifs <;> omega

namespace View

variable {v : View α} {xs : List (TsValue α)}

lemma fill_cons (v : View α) (x : TsValue α) (xs : List (TsValue α)) : v.fill (x :: xs) = (v.push x).fill xs := rfl

lemma absorb_append (d : ItemDemand) (now : ℤ) (v : View α) (xs ys : List (TsValue α)) :
    v.absorb d now (xs ++ ys) = (v.absorb d now xs).absorb d now ys :=
  List.foldl_append

lemma fill_of_old (hfit : v.live.length ≤ v.size) (hd : xs.Pairwise (fun x y => y.time ≤ x.time))
    (hold : ∀ x ∈ xs, ∀ u ∈ v.live.head?, x.time ≤ u.time) :
    v.fill xs = ⟨(xs.take v.room).reverse ++ v.live, v.size⟩ := by
  induction xs generalizing v with
  | nil => simp [fill]
  | cons x xs ih =>
    obtain ⟨hx, hd'⟩ := List.pairwise_cons.mp hd
    rw [fill_cons, push]
    by_cases hroom : v.live.length < v.size
    · have hacc : Accepts v.live v.size x.time := ⟨hroom, fun u hu _ => hold x (by simp) u hu⟩
      have hr : v.room = (⟨x :: v.live, v.size⟩ : View α).room + 1 := by
        simp only [room, List.length_cons]
        omega
      rw [if_pos hacc, ih (v := ⟨x :: v.live, v.size⟩) hroom hd', hr, List.take_succ_cons]
      · simp
      · rintro y hy u ⟨⟩
        exact hx y hy
    · have hr : v.room = 0 := by
        rw [room]
        omega
      rw [if_neg (fun hacc => hroom hacc.1), ih hfit hd' fun y hy => hold y (List.mem_cons_of_mem _ hy), hr]
      rfl

lemma fill_skip {w : TsValue α} (hw : v.live.head? = some w) (hpos : 0 < w.time) (ys : List (TsValue α))
    (hnew : ∀ x ∈ xs, w.time < x.time) : v.fill (xs ++ ys) = v.fill ys := by
  induction xs with
  | nil => rfl
  | cons x xs ih =>
    have hrej : ¬ Accepts v.live v.size x.time := by
      intro hacc
      have := hacc.2 w hw hpos
      have := hnew x (by simp)
      omega
    rw [List.cons_append, fill_cons, push, if_neg hrej]
    exact ih fun y hy => hnew y (List.mem_cons_of_mem _ hy)

lemma live_suffix_fill (v : View α) (xs : List (TsValue α)) : v.live <:+ (v.fill xs).live := by
  induction xs generalizing v with
  | nil => exact List.suffix_rfl
  | cons x xs ih =>
    refine List.IsSuffix.trans ?_ (ih (v.push x))
    rw [push]
    split_ifs
    · exact List.suffix_cons x v.live
    · exact List.suffix_rfl

lemma mem_push {u x : TsValue α} (hu : u ∈ (v.push x).live) : u = x ∨ u ∈ v.live := by
  rw [push] at hu
  split_ifs at hu
  · exact List.mem_cons.mp hu
  · exact .inr hu

lemma mem_push_of_mem {u x : TsValue α} (hu : u ∈ v.live) : u ∈ (v.push x).live := by
  rw [push]
  split_ifs
  · exact List.mem_cons_of_mem _ hu
  · exact hu

lemma push_size (v : View α) (x : TsValue α) : (v.push x).size = v.size := by
  rw [push]
  split_ifs <;> rfl

lemma mem_makeRoom {d : ItemDemand} {now : ℤ} {u : TsValue α} (hu : u ∈ (v.makeRoom d now).live) :
    u ∈ v.live := by
  rw [makeRoom] at hu
  split_ifs at hu
  · exact List.mem_of_mem_tail hu
  · exact hu
  · exact hu
  · exact hu

lemma mem_absorb {d : ItemDemand} {now : ℤ} {u : TsValue α} (hu : u ∈ (v.absorb d now xs).live) :
    u ∈ xs ∨ u ∈ v.live := by
  induction xs generalizing v with
  | nil => exact .inr hu
  | cons x xs ih =>
    rcases ih hu with h | h
    · exact .inl (List.mem_cons_of_mem _ h)
    · rcases mem_push h with rfl | h
      · exact .inl (by simp)
      · exact .inr (mem_makeRoom h)

structure Tidy (v : View α) : Prop where
  sorted : Sorted v.live
  positive : ∀ u ∈ v.live, 0 < u.time
  fits : v.live.length ≤ v.size
  size_pos : 0 < v.size

lemma Tidy.push (h : Tidy v) {x : TsValue α} (hx : 0 < x.time) : Tidy (v.push x) := by
  rw [View.push]
  split_ifs with hacc
  · refine ⟨List.pairwise_cons.mpr ⟨?_, h.sorted⟩, ?_, hacc.1, h.size_pos⟩
    · intro u hu
      obtain ⟨w, l, hl⟩ := List.exists_cons_of_ne_nil (List.ne_nil_of_mem hu)
      have hxw := hacc.2 w (by rw [hl]; rfl) (h.positive w (by rw [hl]; simp))
      have hs := h.sorted
      rw [hl] at hs hu
      rcases List.mem_cons.mp hu with rfl | hu
      · exact hxw
      · exact hxw.trans ((List.pairwise_cons.mp hs).1 u hu)
    · intro u hu
      rcases List.mem_cons.mp hu with rfl | hu
      · exact hx
      · exact h.positive u hu
  · exact h

lemma Tidy.makeRoom (h : Tidy v) (d : ItemDemand) (now : ℤ) : Tidy (v.makeRoom d now) := by
  have hmem : ∀ u ∈ (v.makeRoom d now).live, 0 < u.time := fun u hu => h.positive u (mem_makeRoom hu)
  have hlt := lt_calcGrowBufferSize v.size
  have hfit := h.fits
  have hpos := h.size_pos
  rw [View.makeRoom] at hmem ⊢
  split_ifs at hmem ⊢
  · exact ⟨h.sorted.sublist (List.tail_sublist _), hmem, by simp only [List.length_tail]; omega, hpos⟩
  · exact ⟨h.sorted, hmem, by simp only; omega, by simp only; omega⟩
  · exact h
  · exact h

lemma Tidy.fill (h : Tidy v) (hx : ∀ x ∈ xs, 0 < x.time) : Tidy (v.fill xs) := by
  induction xs generalizing v with
  | nil => exact h
  | cons x xs ih => exact ih (h.push (hx x (by simp))) fun y hy => hx y (List.mem_cons_of_mem _ hy)

lemma Tidy.absorb (h : Tidy v) (d : ItemDemand) (now : ℤ) (hx : ∀ x ∈ xs, 0 < x.time) :
    Tidy (v.absorb d now xs) := by
  induction xs generalizing v with
  | nil => exact h
  | cons x xs ih =>
    exact ih ((h.makeRoom d now).push (hx x (by simp))) fun y hy => hx y (List.mem_cons_of_mem _ hy)

lemma push_ne_nil (hpos : 0 < v.size) (x : TsValue α) : (v.push x).live ≠ [] := by
  rw [push]
  split_ifs with hacc
  · exact List.cons_ne_nil _ _
  · intro hnil
    exact hacc ⟨by rw [hnil]; exact hpos, by rw [hnil]; simp⟩

lemma Tidy.absorb_ne_nil (h : Tidy v) (d : ItemDemand) (now : ℤ) (hx : ∀ x ∈ xs, 0 < x.time)
    (hne : v.live ≠ [] ∨ xs ≠ []) : (v.absorb d now xs).live ≠ [] := by
  induction xs generalizing v with
  | nil => exact hne.resolve_right (by simp)
  | cons x xs ih =>
    exact ih ((h.makeRoom d now).push (hx x (by simp))) (fun y hy => hx y (List.mem_cons_of_mem _ hy))
      (.inl (push_ne_nil (h.makeRoom d now).size_pos x))

lemma Tidy.makeRoom_cases (h : Tidy v) (d : ItemDemand) (now : ℤ) :
    (v.makeRoom d now).live = v.live ∧ v.live.length < (v.makeRoom d now).size ∨
    v.live.length = v.size ∧ v.makeRoom d now = v ∨
    v.live.length = v.size ∧ (d.period : ℤ) ≤ now - secondTime v.live ∧
      v.makeRoom d now = ⟨v.live.tail, v.size⟩ := by
  have hfit := h.fits
  have hlt := lt_calcGrowBufferSize v.size
  rw [View.makeRoom]
  split_ifs with hfull hevict hgrow
  · exact .inr (.inr ⟨hfull, hevict.2, rfl⟩)
  · exact .inl ⟨rfl, by simp only; omega⟩
  · exact .inr (.inl ⟨hfull, rfl⟩)
  · exact .inl ⟨rfl, by omega⟩

lemma push_of_room {x : TsValue α} (hroom : v.live.length < v.size) (hold : ∀ u ∈ v.live, x.time ≤ u.time) :
    (v.push x).live = x :: v.live := by
  rw [push, if_pos ⟨hroom, fun u hu _ => hold u (List.mem_of_mem_head? hu)⟩]

lemma push_of_full {x : TsValue α} (hfull : v.live.length = v.size) : v.push x = v := by
  rw [push, if_neg fun hacc => by have := hacc.1; omega]

end View

end Glaber.State.Items
