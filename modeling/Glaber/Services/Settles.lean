import Glaber.Services.Manager

namespace Glaber.Services

open Glaber.Lib.Dependency Glaber.Lib.Runs

variable {ι : Type}

def HasChildren (t : Tree ι) (s : ι) : Prop := (t.service s).children ≠ []

lemma Tree.hasChildren (t : Tree ι) (child : ι) : ∀ p ∈ (t.service child).parents, HasChildren t p :=
  fun _ hp => List.ne_nil_of_mem (t.mem_parents.mp hp)

lemma Tree.serviceid_inj (t : Tree ι) {a b : ι} (h : (t.service a).serviceid = (t.service b).serviceid) : a = b :=
  Option.some.inj ((t.search_eq_some.mpr h).symm.trans (t.search_eq_some.mpr rfl))

variable [DecidableEq ι]

section

variable (t : Tree ι) (ts : Timespec) (recalculate : Bool)

lemma storeStatus_status {next : Work ι → ι → Option (Work ι)} {next' : (ι → ℤ) → ι → Option (ι → ℤ)}
    (hnext : ∀ w s, (next w s).map (fun w => w.status) = next' w.status s) (w : Work ι) (s : ι) (status : ℤ) :
    (storeStatus t ts recalculate next w s status).map (fun w => w.status) =
      assign next' (fun s => (t.service s).parents) recalculate w.status s status := by
  rw [storeStatus, assign]
  split_ifs
  · exact foldlM_view (fun w : Work ι => w.status) hnext _ _
  · exact foldlM_view (fun w : Work ι => w.status) hnext _ _
  · rfl

lemma itsItserviceUpdateStatus_status (fuel : ℕ) (w : Work ι) (s : ι) :
    (itsItserviceUpdateStatus t ts recalculate fuel w s).map (fun w => w.status) =
      propagate (fun s => (t.service s).parents) (calcStatus t) recalculate fuel w.status s := by
  induction fuel generalizing w s with
  | zero => rfl
  | succ fuel ih => exact storeStatus_status t ts recalculate ih w s _

variable {t ts recalculate}

lemma storeStatus_rule {I : Work ι → Prop} {next : Work ι → ι → Option (Work ι)}
    (hupdate : ∀ w s status clock, I w → I (itsUpdatesAppend (updateService t w s status ts) (t.service s).serviceid status clock))
    (hnext : ∀ w s w', I w → next w s = some w' → I w') {w w' : Work ι} {s : ι} {status : ℤ} (hi : I w)
    (hrun : storeStatus t ts recalculate next w s status = some w') : I w' := by
  have hparents : ∀ w w', I w → (t.service s).parents.foldlM next w = some w' → I w' := by
    intro w w' hi hrun
    exact @foldlM_rule _ _ next (fun _ w => I w) (fun _ w p w' => hnext w p w') _ [] w w' hi hrun
  rw [storeStatus] at hrun
  split_ifs at hrun
  · exact hparents _ _ (hupdate w s status ts.sec hi) hrun
  · exact hparents _ _ hi hrun
  · obtain rfl : w = w' := by simpa using hrun
    exact hi

lemma itsItserviceUpdateStatus_rule {I : Work ι → Prop}
    (hupdate : ∀ w s status clock, I w → I (itsUpdatesAppend (updateService t w s status ts) (t.service s).serviceid status clock))
    (fuel : ℕ) : ∀ w s w', I w → itsItserviceUpdateStatus t ts recalculate fuel w s = some w' → I w' := by
  induction fuel with
  | zero =>
    intro w s w' _ hrun
    cases hrun
  | succ fuel ih =>
    intro w s w' hi hrun
    exact storeStatus_rule hupdate ih hi hrun

end

section

structure Recorded (before : ι → ℤ) (w : Work ι) : Prop where
  oldStatus : ∀ u ∈ w.serviceUpdates, u.oldStatus = before u.service
  missing : ∀ s, (∀ u ∈ w.serviceUpdates, u.service ≠ s) → w.status s = before s
  once : (w.serviceUpdates.map (·.service)).Nodup

variable {before : ι → ℤ} {t : Tree ι}

lemma Recorded.update {w : Work ι} (h : Recorded before w) (t : Tree ι) (s : ι) (status : ℤ) (ts : Timespec) :
    Recorded before (updateService t w s status ts) := by
  have hfound : ∀ u : ServiceUpdate ι, (t.service u.service).serviceid = (t.service s).serviceid ↔ u.service = s :=
    fun u => ⟨t.serviceid_inj, fun hu => by rw [hu]⟩
  rw [updateService]
  simp only [hfound]
  by_cases hany : w.serviceUpdates.any fun u => decide (u.service = s)
  · obtain ⟨v, hv, hvs⟩ := List.any_eq_true.mp hany
    have hservice : ∀ u : ServiceUpdate ι, (if decide (u.service = s) then { u with ts := ts } else u).service = u.service :=
      fun u => by split_ifs <;> rfl
    have hold : ∀ u : ServiceUpdate ι, (if decide (u.service = s) then { u with ts := ts } else u).oldStatus = u.oldStatus :=
      fun u => by split_ifs <;> rfl
    rw [if_pos hany]
    constructor
    · intro u' hu'
      obtain ⟨u, hu, rfl⟩ := List.mem_map.mp hu'
      rw [hservice, hold]
      exact h.oldStatus u hu
    · intro s' hs'
      have hmiss : ∀ u ∈ w.serviceUpdates, u.service ≠ s' := by
        intro u hu
        rw [← hservice u]
        exact hs' _ (List.mem_map_of_mem hu)
      have hne : s' ≠ s := by
        rintro rfl
        exact hmiss v hv (of_decide_eq_true hvs)
      exact (Function.update_of_ne hne _ _).trans (h.missing s' hmiss)
    · have hmap : (w.serviceUpdates.map fun u => if decide (u.service = s) then { u with ts := ts } else u).map (·.service) =
          w.serviceUpdates.map (·.service) := by
        rw [List.map_map]
        exact List.map_congr_left fun u _ => hservice u
      rw [hmap]
      exact h.once
  · have hnone : ∀ u ∈ w.serviceUpdates, u.service ≠ s := by
      intro u hu hs
      exact hany (List.any_eq_true.mpr ⟨u, hu, decide_eq_true hs⟩)
    rw [if_neg hany]
    constructor
    · intro u hu
      rcases List.mem_append.mp hu with hu | hu
      · exact h.oldStatus u hu
      · obtain rfl := List.mem_singleton.mp hu
        exact h.missing s hnone
    · intro s' hs'
      obtain ⟨hmiss, hs⟩ := List.forall_mem_append.mp hs'
      have hne : s' ≠ s := fun h => List.forall_mem_singleton.mp hs h.symm
      exact (Function.update_of_ne hne _ _).trans (h.missing s' hmiss)
    · rw [List.map_append]
      apply List.Nodup.append h.once (List.nodup_singleton _)
      intro s' hs' hmem
      obtain ⟨u, hu, rfl⟩ := List.mem_map.mp hs'
      exact hnone u hu (List.mem_singleton.mp hmem)

lemma Recorded.written {w : Work ι} (h : Recorded before w) (update : StatusUpdate) :
    update ∈ itsWriteStatus t w ↔
      ∃ s, w.status s ≠ before s ∧ update = ⟨(t.service s).serviceid, w.status s, 0⟩ := by
  rw [itsWriteStatus, List.mem_mergeSort, List.mem_map]
  constructor
  · rintro ⟨u, hu, rfl⟩
    obtain ⟨hmem, hne⟩ := List.mem_filter.mp hu
    refine ⟨u.service, ?_, rfl⟩
    rw [← h.oldStatus u hmem]
    exact Ne.symm (of_decide_eq_true hne)
  · rintro ⟨s, hs, rfl⟩
    by_cases hu : ∃ u ∈ w.serviceUpdates, u.service = s
    · obtain ⟨u, hmem, rfl⟩ := hu
      refine ⟨u, List.mem_filter.mpr ⟨hmem, ?_⟩, rfl⟩
      rw [h.oldStatus u hmem]
      exact decide_eq_true (Ne.symm hs)
    · push Not at hu
      exact absurd (h.missing s hu) hs

omit [DecidableEq ι] in
lemma Recorded.written_once {w : Work ι} (h : Recorded before w) : ((itsWriteStatus t w).map (·.sourceid)).Nodup := by
  rw [itsWriteStatus, ((List.mergeSort_perm _ _).map _).nodup_iff, List.map_map]
  have hsub := (List.filter_sublist (p := fun u => decide (u.oldStatus ≠ w.status u.service))
    (l := w.serviceUpdates)).map (·.service)
  have hnodup := (hsub.nodup h.once).map (f := fun s => (t.service s).serviceid) fun a b => t.serviceid_inj
  rwa [List.map_map] at hnodup

end

section

variable {t : Tree ι} {now : UInt64 → Timespec} {fuel : ℕ}

def Diff.For (t : Tree ι) (s : ι) (diff : Diff) : Prop := t.search diff.serviceid = some s

instance (s : ι) (diff : Diff) : Decidable (diff.For t s) := inferInstanceAs (Decidable (_ = _))

structure Handled (t : Tree ι) (manager : Manager ι) (past : List Diff) (w : Work ι) : Prop where
  recorded : Recorded manager.status w
  settled : ∀ s, HasChildren t s → Settled (calcStatus t) w.status s
  problems : ∀ s, w.serviceProblems s =
    (past.filter (·.For t s)).foldl (fun problems diff => openProblems s diff problems) (manager.serviceProblems s)
  collected : ∀ s, ¬ HasChildren t s → (∃ diff ∈ past, diff.For t s) →
    IsGreatest {x | x = statusOk ∨ ∃ p ∈ w.serviceProblems s, x = p.severity} (w.status s)
  kept : ∀ s, ¬ HasChildren t s → (∀ diff ∈ past, ¬ diff.For t s) → w.status s = manager.status s

lemma handled_start {manager : Manager ι} (h : ∀ s, HasChildren t s → Settled (calcStatus t) manager.status s) :
    Handled t manager [] { manager with
      serviceUpdates := [], alarms := [], serviceProblemsNew := [], serviceProblemids := [] } where
  recorded := ⟨fun _ hu => absurd hu List.not_mem_nil, fun _ _ => rfl, List.nodup_nil⟩
  settled := h
  problems _ := rfl
  collected _ _ hd := by simp at hd
  kept _ _ _ := rfl

lemma updateServiceDiff_none {w : Work ι} {diff : Diff} (h : t.search diff.serviceid = none) :
    updateServiceDiff t now fuel w diff = some w := by
  rw [updateServiceDiff, h]

structure Stored (t : Tree ι) (s : ι) (status : ℤ) (w w' : Work ι) : Prop where
  recorded : ∀ before, Recorded before w → Recorded before w'
  problems : w'.serviceProblems = w.serviceProblems
  settled : ∀ u ≠ s, Settled (calcStatus t) w.status u → Settled (calcStatus t) w'.status u
  leaves : ∀ u, ¬ HasChildren t u → w'.status u = Function.update w.status s status u

lemma storeStatus_stored (hacyclic : Acyclic (IsChild t)) {ts : Timespec} {recalculate : Bool}
    {s : ι} {status : ℤ} {w w' : Work ι}
    (hrun : storeStatus t ts recalculate (itsItserviceUpdateStatus t ts recalculate fuel) w s status = some w') :
    Stored t s status w w' := by
  have hstatus := storeStatus_status t ts recalculate (itsItserviceUpdateStatus_status t ts recalculate fuel) w s status
  rw [hrun] at hstatus
  have hpar : ∀ c p, IsChild t c p → p ∈ (t.service c).parents := fun c p => t.mem_parents.mpr
  constructor
  · intro before hw
    have hkeep : ∀ (w : Work ι) s status clock, Recorded before w →
        Recorded before (itsUpdatesAppend (updateService t w s status ts) (t.service s).serviceid status clock) := by
      intro w s status clock h
      obtain ⟨hold, hmissing, honce⟩ := h.update t s status ts
      exact ⟨hold, hmissing, honce⟩
    exact storeStatus_rule hkeep (itsItserviceUpdateStatus_rule hkeep fuel) hw hrun
  · refine storeStatus_rule (I := fun w' : Work ι => w'.serviceProblems = w.serviceProblems) ?_ ?_ rfl hrun
    · exact fun _ _ _ _ h => h
    · exact itsItserviceUpdateStatus_rule (fun _ _ _ _ h => h) fuel
  · intro u hu hsettled
    have hnext : Settles (calcStatus t) (propagate (fun s => (t.service s).parents) (calcStatus t) recalculate fuel) :=
      propagate_settles (calcStatus_local t) hacyclic.irrefl hpar fuel
    exact assign_settles (calcStatus_local t) hpar hnext hstatus.symm hu hsettled
  · intro u hu
    have hnext : Confined (HasChildren t) (propagate (fun s => (t.service s).parents) (calcStatus t) recalculate fuel) :=
      propagate_confined t.hasChildren fuel
    exact assign_confined t.hasChildren hnext hstatus.symm hu

lemma updateServiceDiff_stored (hacyclic : Acyclic (IsChild t)) {s : ι} {diff : Diff}
    (hdiff : diff.For t s) {w w' : Work ι} (hrun : updateServiceDiff t now fuel w diff = some w') :
    ∃ c status, c.serviceProblems = openProblems s diff (w.serviceProblems s) ∧
      IsGreatest {x | x = statusOk ∨ ∃ p ∈ c.serviceProblems, x = p.severity} status ∧
      Stored t s status (w.putCollection s c) w' := by
  rw [updateServiceDiff, hdiff] at hrun
  exact ⟨_, _, collectProblems_problems s diff (w.collection s), worstProblem_isGreatest _ _,
    storeStatus_stored hacyclic hrun⟩

lemma Handled.step (hacyclic : Acyclic (IsChild t)) {manager : Manager ι} {past : List Diff}
    {w w' : Work ι} {diff : Diff} (hleaf : ∀ s, diff.For t s → ¬ HasChildren t s) (h : Handled t manager past w)
    (hrun : updateServiceDiff t now fuel w diff = some w') : Handled t manager (past ++ [diff]) w' := by
  have hfilter : ∀ u, ¬ diff.For t u → (past ++ [diff]).filter (·.For t u) = past.filter (·.For t u) := by
    intro u hu
    simp [List.filter_append, hu]
  cases hsearch : t.search diff.serviceid with
  | none =>
    have hnone : ∀ u, ¬ diff.For t u := by
      intro u hu
      rw [Diff.For, hsearch] at hu
      cases hu
    rw [updateServiceDiff_none hsearch, Option.some.injEq] at hrun
    subst hrun
    refine ⟨h.recorded, h.settled, fun u => ?_, fun u hu hd => ?_, fun u hu hd => ?_⟩
    · rw [hfilter u (hnone u)]
      exact h.problems u
    · apply h.collected u hu
      simpa [hnone u] using hd
    · apply h.kept u hu
      exact fun d hmem => hd d (List.mem_append_left _ hmem)
  | some s =>
    have hs := hleaf s hsearch
    have hnot : ∀ u ≠ s, ¬ diff.For t u := by
      intro u hu hfor
      exact hu (Option.some.inj (hfor.symm.trans hsearch))
    obtain ⟨c, status, hopen, hworst, hstored⟩ := updateServiceDiff_stored hacyclic hsearch hrun
    have hself : w'.serviceProblems s = openProblems s diff (w.serviceProblems s) := by
      rw [hstored.problems, ← hopen]
      exact Function.update_self _ _ _
    have hother : ∀ u ≠ s, w'.serviceProblems u = w.serviceProblems u := by
      intro u hu
      rw [hstored.problems]
      exact Function.update_of_ne hu _ _
    have hleaves : ∀ u ≠ s, ¬ HasChildren t u → w'.status u = w.status u := by
      intro u hu hchildren
      rw [hstored.leaves u hchildren]
      exact Function.update_of_ne hu _ _
    constructor
    · obtain ⟨hold, hmissing, honce⟩ := h.recorded
      exact hstored.recorded _ ⟨hold, hmissing, honce⟩
    · intro u hu
      have hne : u ≠ s := by
        rintro rfl
        exact hs hu
      exact hstored.settled u hne (h.settled u hu)
    · intro u
      by_cases hu : u = s
      · subst hu
        have hfor : diff.For t u := hsearch
        rw [hself, List.filter_append, List.foldl_append, h.problems u]
        simp [hfor]
      · rw [hother u hu, hfilter u (hnot u hu)]
        exact h.problems u
    · intro u hu hex
      by_cases hus : u = s
      · subst hus
        rw [hself, ← hopen, hstored.leaves u hu, Function.update_self]
        exact hworst
      · rw [hleaves u hus hu, hother u hus]
        apply h.collected u hu
        simpa [hnot u hus] using hex
    · intro u hu hno
      have hus : u ≠ s := by
        rintro rfl
        exact hno diff (List.mem_append_right _ List.mem_cons_self) hsearch
      rw [hleaves u hus hu]
      exact h.kept u hu fun d hmem => hno d (List.mem_append_left _ hmem)

lemma dbUpdateServices_handled (hacyclic : Acyclic (IsChild t)) {manager : Manager ι}
    (hsettled : ∀ s, HasChildren t s → Settled (calcStatus t) manager.status s) {diffs : List Diff}
    (hleaf : ∀ diff ∈ diffs, ∀ s, diff.For t s → ¬ HasChildren t s) {w : Work ι}
    (hrun : dbUpdateServices t now fuel manager diffs = some w) : Handled t manager diffs w := by
  have h := foldlM_rule_of_mem (Handled t manager) diffs
    (fun _ _ diff hdiff _ h hstep => Handled.step hacyclic (hleaf diff hdiff) h hstep)
    (handled_start hsettled) hrun
  exact h

end

end Glaber.Services
