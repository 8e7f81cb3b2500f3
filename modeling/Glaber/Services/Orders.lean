import Glaber.Services.Settles

namespace Glaber.Services

open Glaber.Lib.Dependency Glaber.Lib.Runs

variable {ι : Type}

structure Reordered (t t' : Tree ι) : Prop where
  search : t'.search = t.search
  children : ∀ s, (t'.service s).children.Perm (t.service s).children
  parents : ∀ s, (t'.service s).parents.Perm (t.service s).parents
  rest : ∀ s, t'.service s =
    { t.service s with children := (t'.service s).children, parents := (t'.service s).parents }

section

variable {t t' : Tree ι}

lemma Reordered.refl (t : Tree ι) : Reordered t t := ⟨rfl, fun _ => .refl _, fun _ => .refl _, fun _ => rfl⟩

lemma Reordered.isChild (h : Reordered t t') : IsChild t' = IsChild t := by
  funext c p
  exact propext (h.children p).mem_iff

lemma Reordered.hasChildren (h : Reordered t t') (s : ι) : HasChildren t' s ↔ HasChildren t s :=
  not_congr ⟨fun hn => (hn ▸ h.children s).symm.eq_nil, fun hn => (hn ▸ h.children s).eq_nil⟩

lemma Reordered.calcStatus (h : Reordered t t') : calcStatus t' = calcStatus t := by
  funext status s
  have hcontribution : contribution t' status = contribution t status := by
    funext child
    rw [contribution, contribution, getStatus, getStatus, h.rest child]
    rfl
  refine calcStatus_congr ?_ ?_ ?_
  · rw [contributions, contributions, hcontribution]
    exact Multiset.coe_eq_coe.mpr ((h.children s).map _)
  · rw [h.rest s]
  · rw [h.rest s]

end

variable [DecidableEq ι] {t t' : Tree ι}

lemma filter_for {diffs : List Diff} (hdistinct : (diffs.map (·.serviceid)).Nodup) {s : ι} {diff : Diff}
    (hmem : diff ∈ diffs) (hfor : diff.For t s) : diffs.filter (·.For t s) = [diff] := by
  obtain ⟨before, after, rfl⟩ := List.append_of_mem hmem
  have hsame : ∀ d : Diff, d.For t s → d.serviceid = diff.serviceid := by
    intro d hd
    exact (t.search_eq_some.mp hd).symm.trans (t.search_eq_some.mp hfor)
  rw [List.map_append, List.map_cons, List.nodup_middle, List.nodup_cons] at hdistinct
  have hother : ∀ d ∈ before ++ after, ¬ d.For t s := by
    intro d hd hfor'
    apply hdistinct.1
    rw [← hsame d hfor', ← List.map_append]
    exact List.mem_map_of_mem hd
  have hbefore : before.filter (·.For t s) = [] :=
    List.filter_eq_nil_iff.mpr fun d hd => by simpa using hother d (List.mem_append_left _ hd)
  have hafter : after.filter (·.For t s) = [] :=
    List.filter_eq_nil_iff.mpr fun d hd => by simpa using hother d (List.mem_append_right _ hd)
  rw [List.filter_append, hbefore, List.filter_cons_of_pos (by simpa using hfor), hafter]
  rfl

lemma Handled.problems_of_for {manager : Manager ι} {diffs : List Diff} {w : Work ι} (h : Handled t manager diffs w)
    (hdistinct : (diffs.map (·.serviceid)).Nodup) {s : ι} {diff : Diff} (hmem : diff ∈ diffs) (hfor : diff.For t s) :
    w.serviceProblems s = openProblems s diff (manager.serviceProblems s) := by
  rw [h.problems s, filter_for hdistinct hmem hfor]
  rfl

lemma Handled.status_unique [Finite ι] (hacyclic : Acyclic (IsChild t)) (ht : Reordered t t') {manager : Manager ι}
    {diffs diffs' : List Diff} (hdistinct : (diffs.map (·.serviceid)).Nodup) (hdiffs : diffs'.Perm diffs) {w w' : Work ι}
    (h : Handled t manager diffs w) (h' : Handled t' manager diffs' w') : w'.status = w.status := by
  have hfor : ∀ (diff : Diff) s, diff.For t' s ↔ diff.For t s := by
    intro diff s
    rw [Diff.For, ht.search]
    rfl
  refine settled_unique hacyclic.wellFounded (calcStatus_local t) fun s => ?_
  by_cases hs : HasChildren t s
  · right
    have hs' := h'.settled s ((ht.hasChildren s).mpr hs)
    rw [ht.calcStatus] at hs'
    exact ⟨hs', h.settled s hs⟩
  · left
    have hs' := mt (ht.hasChildren s).mp hs
    by_cases hd : ∃ diff ∈ diffs, diff.For t s
    · obtain ⟨diff, hmem, hdiff⟩ := hd
      have hmem' := hdiffs.mem_iff.mpr hmem
      have hdiff' := (hfor diff s).mpr hdiff
      have hdistinct' := (hdiffs.map (·.serviceid)).nodup_iff.mpr hdistinct
      have hgreatest := h.collected s hs ⟨diff, hmem, hdiff⟩
      have hgreatest' := h'.collected s hs' ⟨diff, hmem', hdiff'⟩
      rw [h.problems_of_for hdistinct hmem hdiff] at hgreatest
      rw [h'.problems_of_for hdistinct' hmem' hdiff'] at hgreatest'
      exact hgreatest'.unique hgreatest
    · push Not at hd
      rw [h.kept s hs hd, h'.kept s hs' fun diff hmem => mt (hfor diff s).mp (hd diff (hdiffs.mem_iff.mp hmem))]

lemma exists_depth [Finite ι] (hacyclic : Acyclic (IsChild t)) : ∃ N, ∀ fuel ≥ N, ∀ t', Reordered t t' →
    ∀ now manager diffs, (dbUpdateServices t' now fuel manager diffs).isSome := by
  obtain ⟨N, hN⟩ := exists_fuel (α := ℤ) hacyclic.swap.wellFounded
  refine ⟨N, fun fuel hfuel t' ht now manager diffs => ?_⟩
  have hparents : ∀ c, ∀ p ∈ (t'.service c).parents, IsChild t c p := by
    intro c p hp
    rw [← ht.isChild]
    exact t'.mem_parents.mp hp
  apply foldlM_isSome
  intro diff _ w
  cases hsearch : t'.search diff.serviceid with
  | none =>
    rw [updateServiceDiff_none hsearch]
    rfl
  | some s =>
    rw [updateServiceDiff, hsearch]
    dsimp only
    rw [← Option.isSome_map, storeStatus_status _ _ _ (itsItserviceUpdateStatus_status _ _ _ fuel)]
    exact assign_isSome (fun p _ => hN _ hparents _ _ fuel hfuel p) _ _

structure Updated (t : Tree ι) (manager : Manager ι) (diffs : List Diff) (w : Work ι) : Prop where
  opened : ∀ diff ∈ diffs, ∀ s, t.search diff.serviceid = some s →
    eventids (w.serviceProblems s) = openEvents diff (manager.serviceProblems s)
  collected : ∀ diff ∈ diffs, ∀ s, t.search diff.serviceid = some s →
    IsGreatest {x | x = statusOk ∨ ∃ p ∈ w.serviceProblems s, x = p.severity} (w.status s)
  computed : ∀ s, HasChildren t s → IsGreatest {x | x = serviceGetMainStatus t w.status s ∨
    ∃ rule ∈ (t.service s).statusRules, x = serviceGetRuleStatus t w.status s rule} (w.status s)
  written : ∀ update, update ∈ itsWriteStatus t w ↔
    ∃ s, w.status s ≠ manager.status s ∧ update = ⟨(t.service s).serviceid, w.status s, 0⟩
  once : ((itsWriteStatus t w).map (·.sourceid)).Nodup

lemma Handled.updated {manager : Manager ι} {diffs : List Diff} (hdistinct : (diffs.map (·.serviceid)).Nodup)
    (hleaf : ∀ diff ∈ diffs, ∀ s, diff.For t s → ¬ HasChildren t s) {w : Work ι} (h : Handled t manager diffs w) :
    Updated t manager diffs w where
  opened diff hmem s hfor := by
    rw [h.problems_of_for hdistinct hmem hfor]
    exact openProblems_events s diff _
  collected diff hmem s hfor := h.collected s (hleaf diff hmem s hfor) ⟨diff, hmem, hfor⟩
  computed s hs := by
    have hsettled : w.status s = calcStatus t w.status s := h.settled s hs
    have hgreatest := calcStatus_isGreatest t w.status s
    rwa [← hsettled] at hgreatest
  written := h.recorded.written
  once := h.recorded.written_once

theorem statuses_settle [Finite ι] (t : Tree ι) (hacyclic : Acyclic (IsChild t))
    (manager : Manager ι) (hsettled : ∀ s, HasChildren t s → manager.status s = calcStatus t manager.status s)
    (diffs : List Diff) (hdistinct : (diffs.map (·.serviceid)).Nodup)
    (hleaf : ∀ diff ∈ diffs, ∀ s, t.search diff.serviceid = some s → ¬ HasChildren t s) :
    ∃ N, ∃ final : ι → ℤ, ∀ fuel ≥ N, ∀ now t' diffs', Reordered t t' → diffs'.Perm diffs →
      ∃ w, dbUpdateServices t' now fuel manager diffs' = some w ∧ w.status = final ∧ Updated t' manager diffs' w := by
  obtain ⟨N, hN⟩ := exists_depth hacyclic
  have hhandled : ∀ fuel now t' diffs' w, Reordered t t' → diffs'.Perm diffs →
      dbUpdateServices t' now fuel manager diffs' = some w →
      Handled t' manager diffs' w ∧ Updated t' manager diffs' w := by
    intro fuel now t' diffs' w ht hdiffs hrun
    have hacyclic' : Acyclic (IsChild t') := ht.isChild ▸ hacyclic
    have hleaf' : ∀ diff ∈ diffs', ∀ s, diff.For t' s → ¬ HasChildren t' s := by
      intro diff hmem s hfor
      rw [ht.hasChildren]
      rw [Diff.For, ht.search] at hfor
      exact hleaf diff (hdiffs.mem_iff.mp hmem) s hfor
    have hsettled' : ∀ s, HasChildren t' s → Settled (calcStatus t') manager.status s := by
      intro s hs
      rw [ht.calcStatus]
      exact hsettled s ((ht.hasChildren s).mp hs)
    have h := dbUpdateServices_handled hacyclic' hsettled' hleaf' hrun
    exact ⟨h, h.updated ((hdiffs.map _).nodup_iff.mpr hdistinct) hleaf'⟩
  have hstart := hN N le_rfl t (.refl t) (fun _ => ⟨0, 0⟩) manager diffs
  obtain ⟨w₀, hw₀⟩ := Option.isSome_iff_exists.mp hstart
  have h₀ := (hhandled _ _ t diffs w₀ (.refl t) (.refl _) hw₀).1
  refine ⟨N, w₀.status, fun fuel hfuel now t' diffs' ht hdiffs => ?_⟩
  obtain ⟨w, hw⟩ := Option.isSome_iff_exists.mp (hN fuel hfuel t' ht now manager diffs')
  obtain ⟨h, hupdated⟩ := hhandled fuel now t' diffs' w ht hdiffs hw
  exact ⟨w, hw, h₀.status_unique hacyclic ht hdistinct hdiffs h, hupdated⟩

def diamondService : Fin 4 → Service (Fin 4)
  | 0 => ⟨1, [], [1, 2], [], .setOk, 0, .asIs, 0⟩
  | 1 => ⟨2, [0], [3], [], .mostCriticalAll, 0, .asIs, 0⟩
  | 2 => ⟨3, [0], [3], [⟨.nGe, 1, 2, 5⟩], .setOk, 0, .asIs, 0⟩
  | 3 => ⟨4, [1, 2], [], [], .mostCriticalOne, 0, .asIs, 0⟩

def diamond : Tree (Fin 4) where
  service := diamondService
  search id := (List.finRange 4).find? fun s => (diamondService s).serviceid = id
  search_eq_some := by
    intro id s
    constructor
    · intro h
      simpa using List.find?_some h
    · rintro rfl
      revert s
      decide
  mem_parents := by decide

def allOk : Manager (Fin 4) := ⟨fun _ => statusOk, fun _ => [], fun _ => []⟩

def newProblem : Diff := ⟨1, [⟨7, 0, 4, ⟨100, 0⟩⟩], [], false⟩

theorem diamond_settles : ∃ N, ∃ final : Fin 4 → ℤ, ∀ fuel ≥ N, ∀ now t' diffs', Reordered diamond t' →
    diffs'.Perm [newProblem] → ∃ w, dbUpdateServices t' now fuel allOk diffs' = some w ∧ w.status = final ∧
      Updated t' allOk diffs' w := by
  have hrank : ∀ c p, IsChild diamond c p → c.val < p.val := by
    unfold IsChild
    decide
  have hok : ∀ s, statusOk = calcStatus diamond (fun _ => statusOk) s := by decide
  have hleaf : ∀ s, diamond.search 1 = some s → (diamond.service s).children = [] := by decide
  refine statuses_settle diamond (.of_rank Fin.val hrank) allOk (fun s _ => hok s) [newProblem] (List.nodup_singleton _) ?_
  intro diff hmem s hs
  obtain rfl := List.mem_singleton.mp hmem
  exact fun hchildren => hchildren (hleaf s hs)

example : (dbUpdateServices diamond (fun _ => ⟨0, 0⟩) 4 allOk [newProblem]).map (fun w => w.status 3) = some 5 := by
  decide

end Glaber.Services
