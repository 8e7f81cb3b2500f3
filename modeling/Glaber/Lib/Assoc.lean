import Mathlib.Algebra.BigOperators.Group.Finset.Basic
import Mathlib.Algebra.Order.BigOperators.Group.Multiset
import Mathlib.Data.List.AList
import Mathlib.Data.Multiset.Pairwise
import Mathlib.Tactic

/-! Association lists with in-place updates, and the induction rule for a loop that
visits every key of a duplicate-free list once. -/

namespace Glaber.Lib.Assoc

variable {α : Type} [DecidableEq α] {β : Type}

@[simp] lemma lookup_replace_ne {a a' : α} (h : a' ≠ a) (b : β) (s : AList fun _ : α => β) :
    (s.replace a b).lookup a' = s.lookup a' := by
  obtain ⟨l, hl⟩ := s
  change List.dlookup a' (List.kreplace a b l) = List.dlookup a' l
  clear hl
  induction l with
  | nil => rfl
  | cons x l ih =>
    obtain ⟨k, c⟩ := x
    by_cases hk : a = k
    · subst hk
      rw [List.kreplace, List.lookmap_cons_some _ _ (by simp; rfl)]
      simp [List.dlookup_cons_ne, h]
    · rw [List.kreplace, List.lookmap_cons_none _ _ (by simp [hk])]
      by_cases hk' : a' = k
      · subst hk'
        simp
      · rw [List.dlookup_cons_ne _ _ hk', List.dlookup_cons_ne _ _ hk']
        exact ih

@[simp] lemma lookup_replace_self {a : α} (b : β) {s : AList fun _ : α => β} (h : a ∈ s) :
    (s.replace a b).lookup a = some b := by
  obtain ⟨l, hl⟩ := s
  change List.dlookup a (List.kreplace a b l) = some b
  change a ∈ l.keys at h
  clear hl
  induction l with
  | nil => simp at h
  | cons x l ih =>
    obtain ⟨k, c⟩ := x
    by_cases hk : a = k
    · subst hk
      rw [List.kreplace, List.lookmap_cons_some _ _ (by simp; rfl)]
      simp
    · rw [List.kreplace, List.lookmap_cons_none _ _ (by simp [hk]), List.dlookup_cons_ne _ _ hk]
      exact ih (by simpa [hk] using h)

lemma lookup_eq_some_mem {a : α} {b : β} {s : AList fun _ : α => β} (h : s.lookup a = some b) : a ∈ s :=
  AList.lookup_isSome.mp (by rw [h]; rfl)

def countIf (p : β → Bool) (s : AList fun _ : α => β) : ℕ := s.entries.countP fun e => p e.2

lemma countIf_insert (p : β → Bool) {a : α} (b : β) {s : AList fun _ : α => β} (h : a ∉ s) :
    countIf p (s.insert a b) = countIf p s + (if p b then 1 else 0) := by
  rw [countIf, AList.insert_of_notMem h, List.countP_cons]
  rfl

lemma countIf_replace (p : β → Bool) {a : α} (b : β) {c : β} {s : AList fun _ : α => β} (h : s.lookup a = some c) :
    countIf p (s.replace a b) + (if p c then 1 else 0) = countIf p s + (if p b then 1 else 0) := by
  obtain ⟨l, hl⟩ := s
  change List.dlookup a l = some c at h
  change (List.kreplace a b l).countP _ + _ = l.countP _ + _
  clear hl
  induction l with
  | nil => simp at h
  | cons x l ih =>
    obtain ⟨k, d⟩ := x
    by_cases hk : a = k
    · subst hk
      rw [List.dlookup_cons_eq, Option.some.injEq] at h
      subst h
      rw [List.kreplace, List.lookmap_cons_some _ _ (by simp; rfl), List.countP_cons, List.countP_cons]
      dsimp only
      omega
    · rw [List.dlookup_cons_ne _ _ hk] at h
      have hrec := ih h
      rw [List.kreplace, List.lookmap_cons_none _ _ (by simp [hk]), List.countP_cons, List.countP_cons]
      rw [List.kreplace] at hrec
      omega

lemma le_countIf (p : β → Bool) {a : α} {c : β} {s : AList fun _ : α => β} (h : s.lookup a = some c) :
    (if p c then 1 else 0) ≤ countIf p s := by
  split_ifs with hp
  · exact List.countP_pos_iff.mpr ⟨⟨a, c⟩, AList.mem_lookup_iff.mp h, hp⟩
  · exact Nat.zero_le _

lemma foldl_pointwise {σ γ : Type} {f : σ → α → σ} (view : σ → α → γ) {F : α → γ → γ}
    (hself : ∀ s k, view (f s k) k = F k (view s k))
    (hne : ∀ s k j, j ≠ k → view (f s k) j = view s j)
    {keys : List α} (hn : keys.Nodup) (s : σ) (j : α) :
    view (keys.foldl f s) j = if j ∈ keys then F j (view s j) else view s j := by
  induction keys generalizing s with
  | nil => simp
  | cons k keys ih =>
    obtain ⟨hk, hn'⟩ := List.nodup_cons.mp hn
    rw [List.foldl_cons, ih hn']
    by_cases hj : j = k
    · subst hj
      simp [hk, hself]
    · simp [hj, hne s k j hj]

end Glaber.Lib.Assoc

/-! Elements distributed over numbered lists: the collection of all of them, and what changing one list does
to it. -/

namespace Glaber.Lib.Buckets

variable {α : Type} {f g : ℕ → List α} {n i : ℕ} {a : α}

def total (f : ℕ → List α) (n : ℕ) : Multiset α := ∑ i ∈ Finset.range n, (f i : Multiset α)

lemma mem_total : a ∈ total f n ↔ ∃ i < n, a ∈ f i := by
  simp [total, Multiset.mem_sum]

lemma total_congr (h : ∀ i < n, f i = g i) : total f n = total g n :=
  Finset.sum_congr rfl fun i hi => by rw [h i (Finset.mem_range.mp hi)]

lemma total_empty (h : ∀ i < n, f i = []) : total f n = 0 :=
  Finset.sum_eq_zero fun i hi => by rw [h i (Finset.mem_range.mp hi), Multiset.coe_nil]

lemma total_update (hi : i < n) (l : List α) : total (Function.update f i l) n + f i = total f n + l := by
  have hmem : i ∈ Finset.range n := Finset.mem_range.mpr hi
  rw [total, total, ← Finset.add_sum_erase _ _ hmem, ← Finset.add_sum_erase _ (fun i => (f i : Multiset α)) hmem,
    Function.update_self]
  have hrest : ∑ j ∈ (Finset.range n).erase i, (Function.update f i l j : Multiset α)
      = ∑ j ∈ (Finset.range n).erase i, (f j : Multiset α) :=
    Finset.sum_congr rfl fun j hj => by rw [Function.update_of_ne (Finset.ne_of_mem_erase hj)]
  rw [hrest]
  abel

lemma total_exchange {l : List α} {s s' r : Multiset α} (hi : i < n) (hold : (f i : Multiset α) = s + r)
    (hnew : (l : Multiset α) = s' + r) : total (Function.update f i l) n + s = total f n + s' := by
  have h := total_update (f := f) hi l
  rw [hold, hnew, ← add_assoc, ← add_assoc] at h
  exact add_right_cancel h

lemma total_push (hi : i < n) : total (Function.update f i (a :: f i)) n = a ::ₘ total f n := by
  have h := total_update (f := f) hi (a :: f i)
  rw [← Multiset.cons_coe, Multiset.add_cons, ← Multiset.cons_add] at h
  exact add_right_cancel h

lemma total_move {j : ℕ} {l l' : List α} (hi : i < n) (hj : j < n) (hne : i ≠ j) (hcut : (f i : Multiset α) = a ::ₘ l)
    (hput : (l' : Multiset α) = a ::ₘ f j) : total (Function.update (Function.update f j l') i l) n = total f n := by
  rw [← Multiset.singleton_add] at hcut hput
  have hgrown := total_exchange hj (zero_add (f j : Multiset α)).symm hput
  rw [← Function.update_of_ne hne l' f] at hcut
  have hshrunk := total_exchange hi hcut (zero_add (l : Multiset α)).symm
  rw [add_zero] at hgrown hshrunk
  rw [hgrown] at hshrunk
  exact add_right_cancel hshrunk

lemma total_extend {m : ℕ} (hm : m ≤ n) (h : ∀ i, m ≤ i → i < n → f i = []) : total f n = total f m := by
  rw [total, total, ← Finset.sum_subset (Finset.range_mono hm)]
  intro i hi hm
  rw [h i (by simpa using hm) (Finset.mem_range.mp hi), Multiset.coe_nil]

lemma total_eraseP {p : α → Bool} (hi : i < n) (ha : (f i).find? p = some a) :
    total f n = a ::ₘ total (Function.update f i ((f i).eraseP p)) n := by
  obtain ⟨hpa, before, after, hsplit, hbefore⟩ := List.find?_eq_some_iff_append.mp ha
  have herase : (f i).eraseP p = before ++ after := by
    rw [hsplit, List.eraseP_append_right _ (by simpa using hbefore), List.eraseP_cons_of_pos hpa]
  have h := total_update (f := f) hi ((f i).eraseP p)
  rw [herase, hsplit] at h
  have hmid : ((before ++ a :: after : List α) : Multiset α) = a ::ₘ (before ++ after : List α) := by
    rw [Multiset.cons_coe]
    exact Multiset.coe_eq_coe.mpr List.perm_middle
  rw [hmid, Multiset.add_cons, ← Multiset.cons_add] at h
  rw [herase]
  exact (add_right_cancel h).symm

lemma pairwise_cons {r : α → α → Prop} [Std.Symm r] {s : Multiset α} :
    (a ::ₘ s).Pairwise r ↔ (∀ b ∈ s, r a b) ∧ s.Pairwise r := by
  induction s using Quotient.inductionOn with
  | _ l =>
    rw [Multiset.quot_mk_to_coe, Multiset.cons_coe, Multiset.pairwise_coe_iff_pairwise,
      Multiset.pairwise_coe_iff_pairwise, List.pairwise_cons]
    simp

end Glaber.Lib.Buckets
