import Mathlib.Data.List.MinMax
import Mathlib.Order.Bounds.Basic
import Mathlib.Tactic

/-! What a loop with a running extreme finds. -/

namespace Glaber.Lib.Extremes

variable {β : Type} [LinearOrder β]

def firstMost (f : ℕ → β) (n : ℕ) : ℕ := ((List.range n).argmax f).getD 0

def firstLeast (f : ℕ → β) (n : ℕ) : ℕ := ((List.range n).argmin f).getD 0

variable (f : ℕ → β) {n : ℕ}

lemma argmax_range (hn : 0 < n) : (List.range n).argmax f = some (firstMost f n) := by
  cases h : (List.range n).argmax f with
  | none =>
    have hnil := List.argmax_eq_none.mp h
    simp at hnil
    omega
  | some k => simp [firstMost, h]

lemma firstMost_one : firstMost f 1 = 0 := rfl

lemma firstLeast_one : firstLeast f 1 = 0 := rfl

lemma firstMost_succ (hn : 0 < n) :
    firstMost f (n + 1) = if f (firstMost f n) < f n then n else firstMost f n := by
  rw [firstMost, List.range_succ, List.argmax_concat, argmax_range f hn]
  simp only
  split_ifs <;> rfl

lemma firstLeast_succ (hn : 0 < n) :
    firstLeast f (n + 1) = if f n < f (firstLeast f n) then n else firstLeast f n :=
  firstMost_succ (β := βᵒᵈ) f hn

lemma firstMost_lt (hn : 0 < n) : firstMost f n < n :=
  List.mem_range.mp (List.argmax_mem (argmax_range f hn))

lemma firstLeast_lt (hn : 0 < n) : firstLeast f n < n := firstMost_lt (β := βᵒᵈ) f hn

lemma le_firstMost {k : ℕ} (hk : k < n) : f k ≤ f (firstMost f n) :=
  List.le_of_mem_argmax (List.mem_range.mpr hk) (argmax_range f (by omega))

lemma firstLeast_le {k : ℕ} (hk : k < n) : f (firstLeast f n) ≤ f k := le_firstMost (β := βᵒᵈ) f hk

section

lemma foldl_if_lt {γ : Type} (g : γ → β) (xs : List γ) (a : β) :
    xs.foldl (fun best x => if best < g x then g x else best) a = (xs.map g).foldl max a := by
  induction xs generalizing a with
  | nil => rfl
  | cons x xs ih =>
    rw [List.foldl_cons, ih, List.map_cons, List.foldl_cons, max_def_lt]

theorem isGreatest_foldl_max (a : β) (xs : List β) : IsGreatest {x | x ∈ a :: xs} (xs.foldl max a) := by
  induction xs generalizing a with
  | nil => simp
  | cons x xs ih =>
    obtain ⟨hmem, hle⟩ := ih (max a x)
    rw [List.foldl_cons]
    constructor
    · rcases List.mem_cons.mp hmem with heq | hin
      · rw [heq]
        rcases max_choice a x with h | h <;> simp [h]
      · exact List.mem_cons_of_mem _ (List.mem_cons_of_mem _ hin)
    · intro y hy
      have hmax : max a x ≤ xs.foldl max (max a x) := hle List.mem_cons_self
      rcases List.mem_cons.mp hy with rfl | hy
      · exact (le_max_left _ _).trans hmax
      rcases List.mem_cons.mp hy with rfl | hy
      · exact (le_max_right _ _).trans hmax
      · exact hle (List.mem_cons_of_mem _ hy)

end

end Glaber.Lib.Extremes

/-! The largest request of the last `span` time units, from three numbers: the current maximum, the largest request that
it covered since it changed, and the time of that change. -/

namespace Glaber.Lib.WindowMax

structure Request where
  value : ℕ
  time : ℤ

structure Window where
  current : ℕ
  candidate : ℕ
  change : ℤ

def Window.raise (w : Window) (r : Request) : Window :=
  if w.current < r.value then ⟨r.value, 0, r.time⟩
  else if w.candidate < r.value then { w with candidate := r.value }
  else w

def Window.expire (span now : ℤ) (w : Window) : Window :=
  if span < now - w.change then ⟨w.candidate, 0, now⟩ else w

def Window.step (span : ℤ) (w : Window) (r : Request) : Window := (w.raise r).expire span r.time

def Window.zero : Window := ⟨0, 0, 0⟩

def Attained (past : List Request) (n : ℕ) : Prop := n = 0 ∨ ∃ r ∈ past, n ≤ r.value

structure Covers (span : ℤ) (past : List Request) (last : ℤ) (w : Window) : Prop where
  change : w.change ≤ last
  notAfter : ∀ r ∈ past, r.time ≤ last
  current : ∀ r ∈ past, last ≤ r.time + span → r.value ≤ w.current
  candidate : ∀ r ∈ past, w.change < r.time → r.value ≤ w.candidate
  current_attained : Attained past w.current
  candidate_attained : Attained past w.candidate

variable {span last : ℤ} {past : List Request} {w : Window}

lemma Attained.append {n : ℕ} (h : Attained past n) (r : Request) : Attained (past ++ [r]) n := by
  rcases h with hzero | ⟨s, hs, hn⟩
  · exact .inl hzero
  · exact .inr ⟨s, List.mem_append_left [r] hs, hn⟩

lemma covers_zero (hlast : 0 ≤ last) : Covers span [] last Window.zero :=
  ⟨hlast, by simp, by simp, by simp, .inl rfl, .inl rfl⟩

lemma Covers.raise (h : Covers span past last w) (r : Request) (hr : last ≤ r.time) :
    Covers span (past ++ [r]) r.time (w.raise r) := by
  have hnew : Attained (past ++ [r]) r.value := .inr ⟨r, List.mem_append_right _ List.mem_cons_self, le_rfl⟩
  have hchange := h.change
  have hpast : ∀ s ∈ past ++ [r], s.time ≤ r.time := by
    intro s hs
    rcases List.mem_append.mp hs with hs | hs
    · exact (h.notAfter s hs).trans hr
    · rw [List.mem_singleton.mp hs]
  rw [Window.raise]
  split_ifs with hcur hcand
  · refine ⟨le_rfl, hpast, ?_, ?_, hnew, .inl rfl⟩
    · intro s hs hin
      rcases List.mem_append.mp hs with hs | hs
      · exact (h.current s hs (by omega)).trans hcur.le
      · rw [List.mem_singleton.mp hs]
    · -- the change is now, so no request is later
      intro s hs hlater
      exact absurd hlater (hpast s hs).not_gt
  · refine ⟨hchange.trans hr, hpast, ?_, ?_, h.current_attained.append r, hnew⟩
    · intro s hs hin
      rcases List.mem_append.mp hs with hs | hs
      · exact h.current s hs (by omega)
      · rw [List.mem_singleton.mp hs]
        exact not_lt.mp hcur
    · intro s hs hlater
      rcases List.mem_append.mp hs with hs | hs
      · exact (h.candidate s hs hlater).trans hcand.le
      · rw [List.mem_singleton.mp hs]
  · refine ⟨hchange.trans hr, hpast, ?_, ?_, h.current_attained.append r, h.candidate_attained.append r⟩
    · intro s hs hin
      rcases List.mem_append.mp hs with hs | hs
      · exact h.current s hs (by omega)
      · rw [List.mem_singleton.mp hs]
        exact not_lt.mp hcur
    · intro s hs hlater
      rcases List.mem_append.mp hs with hs | hs
      · exact h.candidate s hs hlater
      · rw [List.mem_singleton.mp hs]
        exact not_lt.mp hcand

lemma Covers.expire (h : Covers span past last w) : Covers span past last (w.expire span last) := by
  rw [Window.expire]
  split_ifs with hold
  · refine ⟨le_rfl, h.notAfter, ?_, ?_, h.candidate_attained, .inl rfl⟩
    · intro r hr hin
      apply h.candidate r hr
      omega
    · intro r hr hlater
      exact absurd hlater (h.notAfter r hr).not_gt
  · exact h

lemma Covers.step (h : Covers span past last w) (r : Request) (hr : last ≤ r.time) :
    Covers span (past ++ [r]) r.time (w.step span r) :=
  (h.raise r hr).expire

lemma Attained.exists {n : ℕ} (h : Attained past n) {r : Request} (hr : r ∈ past) : ∃ s ∈ past, n ≤ s.value := by
  rcases h with rfl | hs
  · exact ⟨r, hr, Nat.zero_le _⟩
  · exact hs

end Glaber.Lib.WindowMax
