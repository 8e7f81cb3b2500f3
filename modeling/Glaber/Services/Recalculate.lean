import Glaber.Services.Orders

/-! What a call of `db_update_services` makes of arbitrary statuses: those of the services with a diff, and of all above a
service that is recalculated, are right afterwards. -/

namespace Glaber.Services

open Glaber.Lib.Dependency Glaber.Lib.Runs

variable {ι : Type} {t : Tree ι}

def Worst (problems : ι → List Problem) (status : ι → ℤ) (s : ι) : Prop :=
  IsGreatest {x | x = statusOk ∨ ∃ p ∈ problems s, x = p.severity} (status s)

lemma exists_leaf_below [Finite ι] (hacyclic : Acyclic (IsChild t)) (s : ι) :
    ∃ leaf, ¬ HasChildren t leaf ∧ Relation.ReflTransGen (IsChild t) leaf s := by
  induction s using hacyclic.wellFounded.induction with
  | _ s ih =>
    by_cases hs : HasChildren t s
    · obtain ⟨child, hchild⟩ := List.exists_mem_of_ne_nil _ hs
      obtain ⟨leaf, hleaf, hbelow⟩ := ih child hchild
      exact ⟨leaf, hleaf, hbelow.tail hchild⟩
    · exact ⟨s, hs, .refl⟩

variable [DecidableEq ι] {now : UInt64 → Timespec} {fuel : ℕ}

/-- Where the loop over the diffs stands after those of `past`, whatever the statuses were before. -/
structure Brought (t : Tree ι) (manager : Manager ι) (past : List Diff) (w : Work ι) : Prop where
  problems : ∀ s, w.serviceProblems s =
    (past.filter (·.For t s)).foldl (fun problems diff => openProblems s diff problems) (manager.serviceProblems s)
  leaf : ∀ s, ¬ HasChildren t s → (Worst manager.serviceProblems manager.status s ∨ ∃ diff ∈ past, diff.For t s) →
    Worst w.serviceProblems w.status s
  inner : ∀ s, HasChildren t s → (Settled (calcStatus t) manager.status s ∨
    ∃ diff ∈ past, diff.recalculate ∧ ∃ leaf, diff.For t leaf ∧ Relation.TransGen (IsChild t) leaf s) →
    Settled (calcStatus t) w.status s

lemma updateServiceDiff_above (hacyclic : Acyclic (IsChild t)) {s : ι} {diff : Diff} (hdiff : diff.For t s)
    (hrecalculate : diff.recalculate) {w w' : Work ι} (hrun : updateServiceDiff t now fuel w diff = some w') {u : ι}
    (hu : Relation.TransGen (IsChild t) s u) : Settled (calcStatus t) w'.status u := by
  rw [updateServiceDiff, hdiff] at hrun
  dsimp only at hrun
  rw [hrecalculate] at hrun
  have hstatus := congrArg (Option.map fun w => w.status) hrun
  rw [storeStatus_status _ _ _ (itsItserviceUpdateStatus_status _ _ _ fuel)] at hstatus
  have hpar : ∀ c p, IsChild t c p → p ∈ (t.service c).parents := fun c p => t.mem_parents.mpr
  exact assign_reaches hpar (propagate_settles (calcStatus_local t) hacyclic.irrefl hpar fuel)
    (propagate_reaches (calcStatus_local t) hacyclic.irrefl hpar fuel) hstatus hu

lemma Brought.step (hacyclic : Acyclic (IsChild t)) {manager : Manager ι} {past : List Diff} {w w' : Work ι} {diff : Diff}
    (hleaf : ∀ s, diff.For t s → ¬ HasChildren t s) (h : Brought t manager past w)
    (hrun : updateServiceDiff t now fuel w diff = some w') : Brought t manager (past ++ [diff]) w' := by
  cases hsearch : t.search diff.serviceid with
  | none =>
    have hnone : ∀ u, ¬ diff.For t u := by
      intro u hu
      rw [Diff.For, hsearch] at hu
      cases hu
    rw [updateServiceDiff_none hsearch, Option.some.injEq] at hrun
    subst hrun
    constructor
    · intro u
      rw [List.filter_append, h.problems u]
      simp [hnone u]
    · intro u hu hold
      apply h.leaf u hu
      simpa [hnone u] using hold
    · intro u hu hold
      apply h.inner u hu
      simpa [hnone] using hold
  | some s =>
    have hs := hleaf s hsearch
    have hfor : ∀ u, diff.For t u ↔ u = s := by
      intro u
      rw [Diff.For, hsearch, Option.some.injEq, eq_comm]
    obtain ⟨c, status, hopen, hworst, hstored⟩ := updateServiceDiff_stored hacyclic hsearch hrun
    have hproblems : ∀ u, w'.serviceProblems u =
        if u = s then openProblems s diff (w.serviceProblems s) else w.serviceProblems u := by
      intro u
      rw [hstored.problems, ← hopen]
      exact Function.update_apply _ _ _ _
    constructor
    · intro u
      rw [hproblems u, List.filter_append, List.foldl_append, h.problems u]
      by_cases hus : u = s
      · subst hus
        simp [hfor, ← h.problems u]
      · simp [hfor, hus]
    · intro u hu hold
      rw [Worst, hstored.leaves u hu, hproblems u]
      by_cases hus : u = s
      · subst hus
        rw [if_pos rfl, Function.update_self, ← hopen]
        exact hworst
      · rw [if_neg hus, Function.update_of_ne hus]
        apply h.leaf u hu
        simpa [hfor, hus] using hold
    · intro u hu hold
      have hus : u ≠ s := by
        rintro rfl
        exact hs hu
      by_cases habove : diff.recalculate ∧ Relation.TransGen (IsChild t) s u
      · exact updateServiceDiff_above hacyclic hsearch habove.1 hrun habove.2
      · apply hstored.settled u hus
        apply h.inner u hu
        refine hold.imp_right ?_
        rintro ⟨d, hd, hrecalculate, leaf, hd', hbelow⟩
        rcases List.mem_append.mp hd with hd | hd
        · exact ⟨d, hd, hrecalculate, leaf, hd', hbelow⟩
        · obtain rfl := List.mem_singleton.mp hd
          obtain rfl := (hfor leaf).mp hd'
          exact absurd ⟨hrecalculate, hbelow⟩ habove

lemma dbUpdateServices_brought (hacyclic : Acyclic (IsChild t)) {manager : Manager ι} {diffs : List Diff}
    (hleaf : ∀ diff ∈ diffs, ∀ s, diff.For t s → ¬ HasChildren t s) {w : Work ι}
    (hrun : dbUpdateServices t now fuel manager diffs = some w) : Brought t manager diffs w := by
  have hstart : Brought t manager [] { manager with
      serviceUpdates := [], alarms := [], serviceProblemsNew := [], serviceProblemids := [] } :=
    ⟨fun _ => rfl, fun _ _ h => h.resolve_right (by simp), fun _ _ h => h.resolve_right (by simp)⟩
  have h := foldlM_rule_of_mem (Brought t manager) diffs
    (fun _ _ diff hdiff _ h hstep => Brought.step hacyclic (hleaf diff hdiff) h hstep) hstart hrun
  exact h

section

open Glaber.Algo.Vector

/-- The index leads from each event to the services that have it open, as often as they have it. -/
def Indexed (problems : ι → List Problem) (index : UInt64 → List ι) : Prop :=
  ∀ eventid s, (index eventid).count s = (eventids (problems s)).count eventid

variable {problems : ι → List Problem} {s : ι} {c : Collection ι}

abbrev Mirrored (problems : ι → List Problem) (s : ι) (c : Collection ι) : Prop :=
  Indexed (Function.update problems s c.serviceProblems) c.serviceProblemsIndex

lemma count_removeNoorder {xs : List ι} {i : ℕ} (h : i < xs.length) (x : ι) :
    (removeNoorder xs i).count x + (if xs[i] = x then 1 else 0) = xs.count x := by
  have hperm := ((removeNoorder_perm xs h).cons xs[i]).trans (List.getElem_cons_eraseIdx_perm h)
  rw [← hperm.count_eq x, List.count_cons]
  simp

lemma Mirrored.add (h : Mirrored problems s c) (p : Problem) : Mirrored problems s (addServiceProblem s p c) := by
  intro id u
  have hold := h id u
  rw [addServiceProblem]
  by_cases hid : id = p.eventid
  · subst hid
    by_cases hu : u = s
    · subst hu
      simp only [Function.update_self] at hold ⊢
      rw [List.count_append, hold, eventids_append, Multiset.count_add]
      simp [eventids]
    · simp only [Function.update_of_ne hu, Function.update_self] at hold ⊢
      rw [List.count_append, hold, List.count_singleton, if_neg (by simpa using Ne.symm hu), add_zero]
  · by_cases hu : u = s
    · subst hu
      simp only [Function.update_self, Function.update_of_ne hid] at hold ⊢
      rw [hold, eventids_append, Multiset.count_add]
      simp [eventids, hid]
    · simp only [Function.update_of_ne hu, Function.update_of_ne hid] at hold ⊢
      exact hold

lemma Mirrored.drop (h : Mirrored problems s c) (i : ℕ) : Mirrored problems s (dropServiceProblem s i c) := by
  rw [dropServiceProblem, removeServiceProblem]
  dsimp only
  cases hget : c.serviceProblems[i]? with
  | none => exact h
  | some p =>
    dsimp only
    have hfound : s ∈ c.serviceProblemsIndex p.eventid := by
      rw [← List.count_pos_iff, h p.eventid s, Function.update_self, Multiset.count_pos]
      exact Multiset.mem_coe.mpr (List.mem_map_of_mem (List.mem_of_getElem? hget))
    cases hfind : (c.serviceProblemsIndex p.eventid).findIdx? (· = s) with
    | none => simpa using List.findIdx?_eq_none_iff.mp hfind s hfound
    | some j =>
      obtain ⟨hlt, hj, -⟩ := List.findIdx?_eq_some_iff_getElem.mp hfind
      intro id u
      have hold := h id u
      have hcount := count_removeNoorder hlt u
      rw [of_decide_eq_true hj] at hcount
      by_cases hu : u = s
      · subst hu
        simp only [Function.update_self, eventids_removeNoorder hget] at hold ⊢
        by_cases hid : id = p.eventid
        · subst hid
          rw [Function.update_self, Multiset.count_erase_self, ← hold]
          rw [if_pos rfl] at hcount
          omega
        · rw [Function.update_of_ne hid, Multiset.count_erase_of_ne hid, hold]
      · simp only [Function.update_of_ne hu] at hold ⊢
        by_cases hid : id = p.eventid
        · subst hid
          rw [Function.update_self, ← hold, ← hcount, if_neg (Ne.symm hu), add_zero]
        · rw [Function.update_of_ne hid, hold]

lemma Mirrored.recalculate (n i : ℕ) (found : List Problem) (h : Mirrored problems s c) :
    Mirrored problems s (recalculateProblems s n i found c).2 := by
  induction n generalizing i found c with
  | zero => exact h
  | succ n ih =>
    rw [recalculateProblems]
    cases c.serviceProblems[i]? with
    | none => exact h
    | some p =>
      dsimp only
      cases found.findIdx? (·.eventid = p.eventid) with
      | none => exact ih i found (h.drop i)
      | some index => exact ih (i + 1) _ h

lemma Mirrored.addAll (found : List Problem) (h : Mirrored problems s c) :
    Mirrored problems s (addProblems s found c) := by
  induction found generalizing c with
  | nil => exact h
  | cons p found ih => exact ih (c := { addServiceProblem s p c with
      serviceProblemsNew := (addServiceProblem s p c).serviceProblemsNew ++ [p] }) (h.add p)

lemma Mirrored.recoverAll (recovered : List Problem) {out : Timespec × Collection ι} (h : Mirrored problems s out.2) :
    Mirrored problems s (recovered.foldl (recoverProblem s) out).2 := by
  induction recovered generalizing out with
  | nil => exact h
  | cons p recovered ih =>
    apply ih
    rw [recoverProblem]
    cases out.2.serviceProblems.findIdx? (·.eventid = p.eventid) with
    | none => exact h
    | some index => exact h.drop index

lemma Mirrored.collect (diff : Diff) (h : Mirrored problems s c) : Mirrored problems s (collectProblems s diff c).2 := by
  rw [collectProblems]
  apply Mirrored.recoverAll
  apply Mirrored.addAll
  cases diff.recalculate with
  | true => exact h.recalculate _ _ _
  | false => exact h

lemma updateServiceDiff_indexed {w w' : Work ι} {diff : Diff} (h : Indexed w.serviceProblems w.serviceProblemsIndex)
    (hrun : updateServiceDiff t now fuel w diff = some w') : Indexed w'.serviceProblems w'.serviceProblemsIndex := by
  rw [updateServiceDiff] at hrun
  cases hsearch : t.search diff.serviceid with
  | none =>
    rw [hsearch] at hrun
    cases hrun
    exact h
  | some s =>
    rw [hsearch] at hrun
    refine storeStatus_rule (I := fun w : Work ι => Indexed w.serviceProblems w.serviceProblemsIndex) (fun _ _ _ _ h => h)
      (itsItserviceUpdateStatus_rule (fun _ _ _ _ h => h) fuel) ?_ hrun
    refine Mirrored.collect diff ?_
    rw [Work.collection, Mirrored, Function.update_eq_self]
    exact h

lemma dbUpdateServices_indexed {manager : Manager ι} (h : Indexed manager.serviceProblems manager.serviceProblemsIndex)
    {diffs : List Diff} {w : Work ι} (hrun : dbUpdateServices t now fuel manager diffs = some w) :
    Indexed w.serviceProblems w.serviceProblemsIndex :=
  @foldlM_rule _ _ _ (fun _ w => Indexed w.serviceProblems w.serviceProblemsIndex)
    (fun _ _ _ _ h hstep => updateServiceDiff_indexed h hstep) diffs [] _ _ h hrun

end

end Glaber.Services
