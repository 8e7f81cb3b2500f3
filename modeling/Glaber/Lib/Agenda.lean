import Mathlib.Data.Multiset.Filter
import Mathlib.Tactic

/-! A collection of timed items that is served in the order of time, while serving an item may add more. -/

namespace Glaber.Lib.Agenda

variable {ε : Type}

inductive Serves (time : ε → ℕ) (now : ℕ) : Multiset ε → List (ε × List ε) → Multiset ε → Prop
  | nil (stock : Multiset ε) : Serves time now stock [] stock
  | snoc {stock rest : Multiset ε} {least : ε} {added : List ε} {log : List (ε × List ε)}
      (hlog : Serves time now stock log (least ::ₘ rest)) (hleast : ∀ x ∈ least ::ₘ rest, time least ≤ time x)
      (hdue : time least ≤ now) : Serves time now stock (log ++ [(least, added)]) (added + rest)

def served (log : List (ε × List ε)) : List ε := log.map Prod.fst

def added (log : List (ε × List ε)) : List ε := log.flatMap Prod.snd

def dueCount (time : ε → ℕ) (now : ℕ) (stock : Multiset ε) : ℕ := stock.countP fun x => time x ≤ now

variable {time : ε → ℕ} {now : ℕ} {stock left : Multiset ε} {log : List (ε × List ε)}

lemma Serves.once (h : Serves time now stock log left) : (served log : Multiset ε) + left = stock + added log := by
  induction h with
  | nil => simp [served, added]
  | @snoc rest least more log _ _ _ ih =>
    have hserved : (served (log ++ [(least, more)]) : Multiset ε) = (served log : Multiset ε) + {least} := by
      rw [served, List.map_append, ← Multiset.coe_add]
      rfl
    have hadded : (added (log ++ [(least, more)]) : Multiset ε) = (added log : Multiset ε) + more := by
      rw [added, List.flatMap_append, ← Multiset.coe_add]
      simp [added]
    rw [← Multiset.singleton_add, ← add_assoc] at ih
    rw [hserved, hadded, ← add_assoc stock, ← ih]
    abel

lemma Serves.due (h : Serves time now stock log left) : ∀ x ∈ served log, time x ≤ now := by
  induction h with
  | nil => simp [served]
  | snoc _ _ hdue ih =>
    intro x hx
    rw [served, List.map_append, List.mem_append] at hx
    rcases hx with hx | hx
    · exact ih x hx
    · obtain rfl := List.mem_singleton.mp hx
      exact hdue

lemma Serves.length_le (h : Serves time now stock log left) :
    log.length ≤ dueCount time now stock + dueCount time now (added log) := by
  have hall : (served log : Multiset ε).countP (fun x => time x ≤ now) = log.length := by
    have hcard : (served log : Multiset ε).card = log.length := by simp [served]
    rw [← hcard]
    exact Multiset.countP_eq_card.mpr h.due
  have hcount := congrArg (Multiset.countP fun x => time x ≤ now) h.once
  rw [Multiset.countP_add, Multiset.countP_add, hall] at hcount
  rw [dueCount, dueCount]
  omega

end Glaber.Lib.Agenda
