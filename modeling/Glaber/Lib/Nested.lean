import Mathlib.Data.List.AList

/-! Maps of two levels: an inner map that gets empty is taken away with its last entry. -/

namespace Glaber.Lib

variable {κ ι β : Type} [DecidableEq κ] [DecidableEq ι]

abbrev Nested (κ ι β : Type) := AList fun _ : κ => AList fun _ : ι => β

namespace Nested

def get (m : Nested κ ι β) (place : κ × ι) : Option β := (m.lookup place.1).bind fun inner => inner.lookup place.2

def put (m : Nested κ ι β) (place : κ × ι) (b : β) : Nested κ ι β :=
  m.insert place.1 (((m.lookup place.1).getD ∅).insert place.2 b)

def drop (m : Nested κ ι β) (place : κ × ι) : Nested κ ι β :=
  match m.lookup place.1 with
  | none => m
  | some inner =>
    let rest := inner.erase place.2
    if rest.keys = [] then m.erase place.1 else m.insert place.1 rest

def Full (m : Nested κ ι β) : Prop := ∀ k inner, m.lookup k = some inner → inner.keys ≠ []

variable {m : Nested κ ι β} {place p : κ × ι} {b : β}

lemma get_put_self : (m.put place b).get place = some b := by
  rw [get, put, AList.lookup_insert, Option.bind_some, AList.lookup_insert]

lemma get_put_ne (h : p ≠ place) : (m.put place b).get p = m.get p := by
  rw [get, put, get]
  by_cases hfst : p.1 = place.1
  · have hsnd : p.2 ≠ place.2 := fun heq => h (Prod.ext hfst heq)
    rw [hfst, AList.lookup_insert, Option.bind_some, AList.lookup_insert_ne hsnd]
    cases m.lookup place.1 with
    | none => rfl
    | some inner => rfl
  · rw [AList.lookup_insert_ne hfst]

lemma lookup_of_keys_nil {inner : AList fun _ : ι => β} (h : inner.keys = []) (i : ι) : inner.lookup i = none := by
  rw [AList.lookup_eq_none, AList.mem_keys, h]
  exact List.not_mem_nil

lemma get_drop_self : (m.drop place).get place = none := by
  rw [drop]
  cases hlookup : m.lookup place.1 with
  | none => rw [get, hlookup, Option.bind_none]
  | some inner =>
    simp only
    split_ifs with hempty
    · rw [get, AList.lookup_erase, Option.bind_none]
    · rw [get, AList.lookup_insert, Option.bind_some, AList.lookup_erase]

lemma get_drop_ne (h : p ≠ place) : (m.drop place).get p = m.get p := by
  rw [drop]
  cases hlookup : m.lookup place.1 with
  | none => rfl
  | some inner =>
    by_cases hfst : p.1 = place.1
    · have hsnd : p.2 ≠ place.2 := fun heq => h (Prod.ext hfst heq)
      have hrest : (inner.erase place.2).lookup p.2 = inner.lookup p.2 := AList.lookup_erase_ne hsnd
      simp only
      split_ifs with hempty
      · rw [lookup_of_keys_nil hempty] at hrest
        rw [get, get, hfst, AList.lookup_erase, hlookup, Option.bind_some, ← hrest, Option.bind_none]
      · rw [get, get, hfst, AList.lookup_insert, hlookup, Option.bind_some, Option.bind_some, hrest]
    · simp only
      split_ifs with hempty
      · rw [get, get, AList.lookup_erase_ne hfst]
      · rw [get, get, AList.lookup_insert_ne hfst]

omit [DecidableEq ι] in
lemma full_empty : Full (∅ : Nested κ ι β) := by
  intro k inner h
  rw [AList.lookup_empty] at h
  cases h

lemma Full.put (h : m.Full) (place : κ × ι) (b : β) : (m.put place b).Full := by
  intro k inner hk
  rw [Nested.put] at hk
  by_cases heq : k = place.1
  · rw [heq, AList.lookup_insert] at hk
    obtain rfl := Option.some.inj hk
    rw [AList.keys_insert]
    exact List.cons_ne_nil _ _
  · rw [AList.lookup_insert_ne heq] at hk
    exact h k inner hk

lemma Full.drop (h : m.Full) (place : κ × ι) : (m.drop place).Full := by
  rw [Nested.drop]
  cases hlookup : m.lookup place.1 with
  | none => exact h
  | some inner =>
    intro k found hk
    simp only at hk
    by_cases heq : k = place.1
    · split_ifs at hk with hempty
      · rw [heq, AList.lookup_erase] at hk
        cases hk
      · rw [heq, AList.lookup_insert] at hk
        obtain rfl := Option.some.inj hk
        exact hempty
    · split_ifs at hk with hempty
      · rw [AList.lookup_erase_ne heq] at hk
        exact h k found hk
      · rw [AList.lookup_insert_ne heq] at hk
        exact h k found hk

end Nested

end Glaber.Lib
