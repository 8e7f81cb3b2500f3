import Mathlib.Data.List.Basic
import Mathlib.Tactic

/-! Singly linked chains in a heap: the cells a head pointer reaches, and what they hold. -/

namespace Glaber.Lib.Linked

variable {α ν β : Type}

def Chain (heap : α → Option ν) (link : ν → Option α) : Option α → List α → Prop
  | head, [] => head = none
  | head, a :: as => head = some a ∧ ∃ n, heap a = some n ∧ Chain heap link (link n) as

def contents (heap : α → Option ν) (value : ν → β) (as : List α) : List β :=
  as.filterMap fun a => (heap a).map value

section

variable {heap heap' : α → Option ν} {link : ν → Option α} {value : ν → β} {head : Option α} {as : List α}

lemma Chain.nil_of_none (h : Chain heap link none as) : as = [] := by
  cases as with
  | nil => rfl
  | cons a as => cases h.1

lemma Chain.cons_of_some {a : α} (h : Chain heap link (some a) as) :
    ∃ n rest, as = a :: rest ∧ heap a = some n ∧ Chain heap link (link n) rest := by
  cases as with
  | nil => cases h
  | cons b rest =>
    obtain ⟨hb, n, hn, hr⟩ := h
    cases hb
    exact ⟨n, rest, rfl, hn, hr⟩

lemma Chain.congr (h : Chain heap link head as) (hh : ∀ a ∈ as, heap' a = heap a) : Chain heap' link head as := by
  induction as generalizing head with
  | nil => exact h
  | cons a as ih =>
    obtain ⟨ha, n, hn, hr⟩ := h
    refine ⟨ha, n, (hh a List.mem_cons_self).trans hn, ih hr ?_⟩
    intro b hb
    exact hh b (List.mem_cons_of_mem a hb)

lemma Chain.live (h : Chain heap link head as) : ∀ a ∈ as, ∃ n, heap a = some n := by
  induction as generalizing head with
  | nil => simp
  | cons a as ih =>
    obtain ⟨-, n, hn, hr⟩ := h
    intro b hb
    rcases List.mem_cons.mp hb with rfl | hb
    · exact ⟨n, hn⟩
    · exact ih hr b hb

lemma Chain.unique {bs : List α} (h : Chain heap link head as) (h' : Chain heap link head bs) : bs = as := by
  induction as generalizing head bs with
  | nil =>
    cases (h : head = none)
    exact h'.nil_of_none
  | cons a as ih =>
    obtain ⟨rfl, n, hn, hr⟩ := h
    obtain ⟨m, rest, rfl, hm, hr'⟩ := h'.cons_of_some
    cases hn.symm.trans hm
    rw [ih hr hr']

lemma contents_congr (hh : ∀ a ∈ as, (heap' a).map value = (heap a).map value) :
    contents heap' value as = contents heap value as :=
  List.filterMap_congr hh

@[simp] lemma contents_nil : contents heap value [] = [] := rfl

lemma contents_append (as bs : List α) :
    contents heap value (as ++ bs) = contents heap value as ++ contents heap value bs :=
  List.filterMap_append

lemma contents_cons {a : α} {n : ν} (h : heap a = some n) (as : List α) :
    contents heap value (a :: as) = value n :: contents heap value as := by
  simp [contents, h]

end

lemma Chain.snoc [DecidableEq α] {heap : α → Option ν} {link : ν → Option α} {head : Option α} {as : List α}
    {a b : α} {n m : ν} (h : Chain heap link head as) (hn : as.Nodup) (hlast : as.getLast? = some a)
    (hb : b ∉ as) (hm : heap b = some m) (hend : link m = none) (hlink : link n = some b) :
    Chain (Function.update heap a (some n)) link head (as ++ [b]) := by
  induction as generalizing head with
  | nil => cases hlast
  | cons c as ih =>
    obtain ⟨hc, k, hk, hr⟩ := h
    obtain ⟨hcn, hn'⟩ := List.nodup_cons.mp hn
    have hba : b ≠ a := fun e => hb (e ▸ List.mem_of_getLast? hlast)
    cases as with
    | nil =>
      cases hlast
      refine ⟨hc, n, Function.update_self .., hlink, m, ?_, hend⟩
      rw [Function.update_of_ne hba, hm]
    | cons d as =>
      have hlast' : (d :: as).getLast? = some a := by simpa using hlast
      have hca : c ≠ a := fun e => hcn (e ▸ List.mem_of_getLast? hlast')
      refine ⟨hc, k, by rw [Function.update_of_ne hca, hk], ?_⟩
      exact ih hr hn' hlast' fun hbd => hb (List.mem_cons_of_mem c hbd)

end Glaber.Lib.Linked
