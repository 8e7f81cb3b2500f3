import Glaber.Common
import Glaber.Services.Orders
import Glaber.Services.RootCause

namespace Glaber.Services

open Glaber.Lib.Classes Glaber.Lib.Dependency Glaber.Lib.Runs

variable {ι : Type}

def Propagates (t : Tree ι) (child parent : ι) : Prop :=
  IsChild t child parent ∧ (t.service child).propagationRule ≠ .ignore

def IsRootCause (t : Tree ι) (problems : ι → List Problem) (s : ι) (eventid : UInt64) : Prop :=
  ∃ leaf, Relation.ReflTransGen (Propagates t) leaf s ∧ (t.service leaf).children = [] ∧
    ∃ p ∈ problems leaf, p.eventid = eventid

lemma IsRootCause.up {t : Tree ι} {problems : ι → List Problem} {child s : ι} {eventid : UInt64}
    (h : IsRootCause t problems child eventid) (hlink : Propagates t child s) : IsRootCause t problems s eventid := by
  obtain ⟨leaf, hpath, hrest⟩ := h
  exact ⟨leaf, hpath.tail hlink, hrest⟩

@[simp] lemma reversePropagation_ok (service : Service ι) : reversePropagation service statusOk = (0, statusOk) :=
  if_neg (not_not.mpr rfl)

lemma reversePropagation_cases (service : Service ι) (severity : ℤ) :
    reversePropagation service severity = (0, statusOk) ∨
      (reversePropagation service severity).2 = (reversePropagation service severity).1 := by
  by_cases hok : severity = statusOk
  · exact .inl (by rw [hok, reversePropagation_ok])
  · rw [reversePropagation, if_pos (Ne.symm hok)]
    cases service.propagationRule with
    | fixed => exact .inl rfl
    | increase | decrease | asIs | ignore | unknown => exact .inr rfl

lemma reversePropagation_le (service : Service ι) (severity : ℤ) :
    (reversePropagation service severity).2 ≤ (reversePropagation service severity).1 := by
  rcases reversePropagation_cases service severity with h | h
  · rw [h]
    decide
  · exact h.le

section

variable [DecidableEq ι] {t : Tree ι} {status : ι → ℤ} {problems : ι → List Problem} {s child : ι} {severity severity' : ℤ}
  {ids out : List UInt64}

omit [DecidableEq ι] in
lemma IsCause.propagates (h : IsCause t status s severity child severity') : Propagates t child s := by
  have hpropagates {p : ℤ} (hchild : child ∈ (t.service s).children) (hp : getStatus t status child = some p) :
      Propagates t child s := by
    refine ⟨hchild, fun hignore => ?_⟩
    rw [getStatus, serviceGetStatus, if_pos hignore] at hp
    cases hp
  cases h with
  | all hchild hp => exact hpropagates hchild hp
  | one _ hchild hp _ => exact hpropagates hchild hp
  | rule _ _ hchild hp _ => exact hpropagates hchild hp

lemma serviceGetCauses_finds {fuel : ℕ} (h : serviceGetCauses t status problems fuel s severity ids = some out) :
    (∀ id ∈ ids, id ∈ out) ∧ ∀ id ∈ out, id ∈ ids ∨ IsRootCause t problems s id := by
  induction fuel generalizing s severity ids out with
  | zero => cases h
  | succ fuel ih =>
    rw [serviceGetCauses] at h
    split at h
    · rename_i hleaf
      cases h
      refine ⟨fun id hid => List.mem_append_left _ hid, fun id hid => ?_⟩
      rcases List.mem_append.mp hid with hid | hid
      · exact .inl hid
      · obtain ⟨p, hp, rfl⟩ := List.mem_map.mp hid
        exact .inr ⟨s, .refl, hleaf, p, List.mem_of_mem_filter hp, rfl⟩
    · have hcause := @isCause_of_mem _ _ t status s _ _ (reversePropagation_le (t.service s) severity)
      refine @foldlM_rule_of_mem _ _ _ (fun _ out => (∀ id ∈ ids, id ∈ out) ∧ ∀ id ∈ out, id ∈ ids ∨ IsRootCause t problems s id)
        _ (fun past mid e he mid' hmid hstep => ?_) [] _ _ ⟨fun id hid => hid, fun id hid => .inl hid⟩ h
      obtain ⟨hkeep, hnew⟩ := ih hstep
      refine ⟨fun id hid => hkeep id (hmid.1 id hid), fun id hid => ?_⟩
      rcases hnew id hid with hid | hid
      · exact hmid.2 id hid
      · exact .inr (hid.up (hcause e he).propagates)

lemma foldlM_some_mono {α β : Type} {step step' : β → α → Option β} (h : ∀ b a c, step b a = some c → step' b a = some c)
    (xs : List α) {b c : β} (hrun : xs.foldlM step b = some c) : xs.foldlM step' b = some c := by
  induction xs generalizing b with
  | nil => exact hrun
  | cons x xs ih =>
    obtain ⟨mid, hmid, hrest⟩ := Option.bind_eq_some_iff.mp (List.foldlM_cons.symm.trans hrun)
    rw [List.foldlM_cons, h b x mid hmid]
    exact ih hrest

lemma serviceGetCauses_fuel {fuel fuel' : ℕ} (hle : fuel ≤ fuel')
    (h : serviceGetCauses t status problems fuel s severity ids = some out) :
    serviceGetCauses t status problems fuel' s severity ids = some out := by
  induction fuel generalizing fuel' s severity ids out with
  | zero => cases h
  | succ fuel ih =>
    obtain ⟨fuel', rfl⟩ : ∃ n, fuel' = n + 1 := ⟨fuel' - 1, by omega⟩
    rw [serviceGetCauses] at h ⊢
    split at h
    · rename_i hleaf
      rw [if_pos hleaf]
      exact h
    · rename_i hinner
      rw [if_neg hinner]
      exact foldlM_some_mono (fun ids e out => ih (Nat.le_of_succ_le_succ hle)) _ h

lemma serviceGetCauses_ends [Finite ι] (hacyclic : Acyclic (IsChild t)) (s : ι) :
    ∃ N, ∀ fuel ≥ N, ∀ severity ids, (serviceGetCauses t status problems fuel s severity ids).isSome := by
  induction s using hacyclic.wellFounded.induction with
  | _ s ih =>
    choose! N hN using ih
    obtain ⟨M, hM⟩ := (Set.finite_range N).bddAbove
    refine ⟨M + 1, fun fuel hfuel severity ids => ?_⟩
    obtain ⟨fuel, rfl⟩ : ∃ k, fuel = k + 1 := ⟨fuel - 1, by omega⟩
    rw [serviceGetCauses]
    split
    · rfl
    · apply foldlM_isSome
      intro e he ids
      have hchild := (isCause_of_mem (reversePropagation_le (t.service s) severity) e he).propagates.1
      have hle : N e.1 ≤ M := hM ⟨e.1, rfl⟩
      exact hN e.1 hchild fuel (by omega) e.2 ids

end

section

lemma uint64Compare_neg {a b : UInt64} : uint64Compare a b < 0 ↔ a < b := by
  rw [uint64Compare]
  split_ifs <;> simp_all

lemma uint64Compare_le {a b : UInt64} : uint64Compare a b ≤ 0 ↔ a ≤ b := by
  rw [uint64Compare]
  split_ifs <;> simp only [UInt64.lt_iff_toNat_lt, UInt64.le_iff_toNat_le] at * <;> omega

def uint64Order : Comparison UInt64 where
  compare := uint64Compare
  neg_iff a b := by
    rw [uint64Compare, uint64Compare]
    split_ifs <;> simp only [UInt64.lt_iff_toNat_lt] at * <;> omega
  trans a b d h h' := uint64Compare_le.mpr (UInt64.le_trans (uint64Compare_le.mp h) (uint64Compare_le.mp h'))

lemma uniq_mergeSort (ids : List UInt64) : ∃ out, Algo.Vector.uniq uint64Compare (ids.mergeSort fun a b => a ≤ b) = some out ∧
    out.Pairwise (· < ·) ∧ ∀ id, id ∈ out ↔ id ∈ ids := by
  have hordered : Ordered uint64Order (ids.mergeSort fun a b => a ≤ b) := by
    refine (List.pairwise_mergeSort (fun a b c hab hbc => ?_) (fun a b => ?_) ids).imp fun {a b} h => ?_
    · exact decide_eq_true (UInt64.le_trans (of_decide_eq_true hab) (of_decide_eq_true hbc))
    · rw [Bool.or_eq_true, decide_eq_true_eq, decide_eq_true_eq]
      exact UInt64.le_total a b
    · exact uint64Compare_le.mpr (of_decide_eq_true h)
  obtain ⟨out, hout, hrep⟩ := Algo.Vector.uniq_representatives hordered
  refine ⟨out, hout, hrep.strict.imp uint64Compare_neg.mp, fun id => ⟨fun hid => ?_, fun hid => ?_⟩⟩
  · exact List.mem_mergeSort.mp (hrep.sublist.subset hid)
  · obtain ⟨y, hy, heq⟩ := hrep.cover id (List.mem_mergeSort.mpr hid)
    have hle := uint64Compare_le.mp heq.le
    have hge := uint64Compare_le.mp (uint64Order.zero_symm heq).le
    rwa [← UInt64.le_antisymm hle hge]

end

section

def InRange (x : ℤ) : Prop := -1 ≤ x ∧ x ≤ 5

lemma inRange_ok : InRange statusOk := ⟨by decide, by decide⟩

structure Valid (t : Tree ι) (problems : ι → List Problem) : Prop where
  severity : ∀ s, ∀ p ∈ problems s, 0 ≤ p.severity ∧ p.severity ≤ 5
  limitStatus : ∀ s, ∀ rule ∈ (t.service s).statusRules, InRange rule.limitStatus
  newStatus : ∀ s, ∀ rule ∈ (t.service s).statusRules, InRange rule.newStatus
  propagationValue : ∀ s, (t.service s).propagationRule = .increase ∨ (t.service s).propagationRule = .decrease →
    1 ≤ (t.service s).propagationValue ∧ (t.service s).propagationValue ≤ 5
  fixedValue : ∀ s, (t.service s).propagationRule = .fixed → InRange (t.service s).propagationValue

structure Consistent (t : Tree ι) (status : ι → ℤ) (problems : ι → List Problem) : Prop where
  leaf : ∀ s, (t.service s).children = [] →
    IsGreatest {x | x = statusOk ∨ ∃ p ∈ problems s, x = p.severity} (status s)
  inner : ∀ s, (t.service s).children ≠ [] → status s = calcStatus t status s

variable {t : Tree ι} {status : ι → ℤ} {problems : ι → List Problem} {parent s child : ι} {p severity : ℤ}

lemma Consistent.of_worst
    (hleaf : ∀ s, (t.service s).children = [] → status s = (worstProblem ⟨0, 0⟩ (problems s)).1)
    (hinner : ∀ s, (t.service s).children ≠ [] → status s = calcStatus t status s) : Consistent t status problems := by
  refine ⟨fun s hs => ?_, hinner⟩
  rw [hleaf s hs]
  exact worstProblem_isGreatest _ _

lemma wrap_small {x : ℤ} (hlow : -20 ≤ x) (hhigh : x ≤ 20) : wrap x = x := bmod_self (by omega) (by omega)

lemma getStatus_spec (hvalid : Valid t problems) (hchild : InRange (status child)) (hp : getStatus t status child = some p) :
    InRange p ∧ (p ≠ statusOk → status child ≠ statusOk) := by
  obtain ⟨hlow, hhigh⟩ := hchild
  have hvalue := hvalid.propagationValue child
  have hfixed := hvalid.fixedValue child
  rw [getStatus, serviceGetStatus] at hp
  split at hp
  · cases hp
  split at hp
  · cases hp
    exact ⟨inRange_ok, fun h => absurd rfl h⟩
  · rename_i hok
    refine ⟨?_, fun _ => Ne.symm hok⟩
    unfold InRange
    cases hrule : (t.service child).propagationRule with
    | asIs =>
      rw [hrule] at hp
      cases hp
      exact ⟨hlow, hhigh⟩
    | increase =>
      obtain ⟨h₁, h₂⟩ := hvalue (.inl hrule)
      rw [hrule] at hp
      dsimp only at hp
      rw [wrap_small (by omega) (by omega), triggerSeverityCount] at hp
      split at hp <;> cases hp <;> omega
    | decrease =>
      obtain ⟨h₁, h₂⟩ := hvalue (.inr hrule)
      rw [hrule] at hp
      dsimp only at hp
      rw [wrap_small (by omega) (by omega), statusOk] at hp
      split at hp <;> cases hp <;> omega
    | fixed =>
      rw [hrule] at hp
      cases hp
      exact hfixed hrule
    | ignore | unknown =>
      rw [hrule] at hp
      cases hp
      decide

lemma mainStatus_cases (t : Tree ι) (status : ι → ℤ) (s : ι) :
    serviceGetMainStatus t status s = statusOk ∨
      ((t.service s).algorithm = .mostCriticalAll ∨ (t.service s).algorithm = .mostCriticalOne) ∧
        ∃ child ∈ (t.service s).children, getStatus t status child = some (serviceGetMainStatus t status s) := by
  have hmem := (Lib.Extremes.isGreatest_foldl_max statusOk ((t.service s).children.filterMap (getStatus t status))).1
  rw [Set.mem_ofPred_eq, List.mem_cons, List.mem_filterMap] at hmem
  rw [serviceGetMainStatus]
  cases (t.service s).algorithm with
  | mostCriticalAll =>
    dsimp only
    rw [mostCriticalAll_eq]
    split
    · exact .inl rfl
    · exact hmem.imp_right fun h => ⟨.inl rfl, h⟩
  | mostCriticalOne =>
    dsimp only
    rw [mostCriticalOne_eq]
    exact hmem.imp_right fun h => ⟨.inr rfl, h⟩
  | setOk | unknown => exact .inl rfl

lemma ruleStatus_cases (t : Tree ι) (status : ι → ℤ) (s : ι) (rule : Rule) :
    serviceGetRuleStatus t status s rule = statusOk ∨ serviceGetRuleStatus t status s rule = rule.newStatus := by
  rw [serviceGetRuleStatus]
  split
  · exact .inl rfl
  · dsimp only
    split
    · exact .inr rfl
    · exact .inl rfl

lemma status_inRange [Finite ι] (hacyclic : Acyclic (IsChild t)) (hvalid : Valid t problems)
    (hconsistent : Consistent t status problems) (s : ι) : InRange (status s) := by
  induction s using hacyclic.wellFounded.induction with
  | _ s ih =>
    by_cases hleaf : (t.service s).children = []
    · rcases (hconsistent.leaf s hleaf).1 with heq | ⟨p, hp, heq⟩
      · rw [heq]
        exact inRange_ok
      · obtain ⟨h₁, h₂⟩ := hvalid.severity s p hp
        rw [heq]
        exact ⟨by omega, h₂⟩
    · rw [hconsistent.inner s hleaf]
      rcases (calcStatus_isGreatest t status s).1 with heq | ⟨rule, hrule, heq⟩
      · rw [heq]
        rcases mainStatus_cases t status s with hmain | ⟨-, child, hchild, hp⟩
        · rw [hmain]
          exact inRange_ok
        · exact (getStatus_spec hvalid (ih child hchild) hp).1
      · rw [heq]
        rcases ruleStatus_cases t status s rule with h | h
        · rw [h]
          exact inRange_ok
        · rw [h]
          exact hvalid.newStatus s rule hrule

/-- What may be required of the services below `parent`: the limits of the rules that hold there, handed on. -/
inductive Asked (t : Tree ι) (status : ι → ℤ) (parent : ι) : ι → ℤ → Prop
  | rule {s child : ι} {rule : Rule} (hbelow : Relation.ReflTransGen (Propagates t) s parent)
      (hchild : child ∈ (t.service s).children) (hrule : rule ∈ (t.service s).statusRules)
      (hholds : serviceGetRuleStatus t status s rule ≠ statusOk) : Asked t status parent child rule.limitStatus
  | one {s child : ι} {severity : ℤ} (hasked : Asked t status parent s severity)
      (halgorithm : (t.service s).algorithm = .mostCriticalOne) (hchild : child ∈ (t.service s).children) :
      Asked t status parent child (reversePropagation (t.service s) severity).2

def ClampedDecrease (t : Tree ι) (status : ι → ℤ) (parent s : ι) : Prop :=
  Asked t status parent s 0 ∧ (t.service s).propagationRule = .decrease ∧ status s ≠ statusOk ∧
    status s < (t.service s).propagationValue

structure Met (t : Tree ι) (status : ι → ℤ) (parent s : ι) (severity : ℤ) : Prop where
  below : Relation.ReflTransGen (Propagates t) s parent
  range : InRange severity
  asked : severity = statusOk ∨ Asked t status parent s severity
  low : 0 ≤ (reversePropagation (t.service s) severity).1
  reached : (reversePropagation (t.service s) severity).1 ≤ status s

lemma met_ok (hbelow : Relation.ReflTransGen (Propagates t) s parent) (hrange : InRange (status s))
    (hok : status s ≠ statusOk) : Met t status parent s statusOk := by
  refine ⟨hbelow, inRange_ok, .inl rfl, by rw [reversePropagation_ok], ?_⟩
  rw [reversePropagation_ok]
  have hlow := hrange.1
  unfold statusOk at hok
  omega

lemma Met.inRange (h : Met t status parent s severity) (hrange : InRange (status s)) :
    InRange (reversePropagation (t.service s) severity).2 := by
  rcases reversePropagation_cases (t.service s) severity with heq | heq
  · rw [heq]
    exact inRange_ok
  · rw [heq]
    exact ⟨(by decide : (-1 : ℤ) ≤ 0).trans h.low, h.reached.trans hrange.2⟩

lemma met_of_getStatus (hbelow : Relation.ReflTransGen (Propagates t) child parent) (hvalid : Valid t problems)
    (hchild : InRange (status child)) (hok : status child ≠ statusOk) (hp : getStatus t status child = some p) (hle : severity ≤ p)
    (hrange : InRange severity) (hasked : severity = statusOk ∨ Asked t status parent child severity)
    (hclamped : ¬ ClampedDecrease t status parent child) : Met t status parent child severity := by
  suffices h : 0 ≤ (reversePropagation (t.service child) severity).1 ∧
      (reversePropagation (t.service child) severity).1 ≤ status child from ⟨hbelow, hrange, hasked, h.1, h.2⟩
  obtain ⟨hlow, hhigh⟩ := hchild
  obtain ⟨hlow', hhigh'⟩ := hrange
  have hpositive : 0 ≤ status child := by
    unfold statusOk at hok
    omega
  have hvalue := hvalid.propagationValue child
  rw [reversePropagation]
  split
  · rename_i hne
    have hseverity : 0 ≤ severity := by
      unfold statusOk at hne
      omega
    rw [getStatus, serviceGetStatus] at hp
    split at hp
    · cases hp
    rw [if_neg hok.symm] at hp
    cases hrule : (t.service child).propagationRule with
    | asIs =>
      rw [hrule] at hp
      cases hp
      exact ⟨hseverity, hle⟩
    | increase =>
      obtain ⟨h₁, h₂⟩ := hvalue (.inl hrule)
      rw [hrule] at hp
      dsimp only at hp ⊢
      rw [wrap_small (by omega) (by omega), triggerSeverityCount] at hp
      rw [wrap_small (by omega) (by omega), statusOk]
      split at hp <;> cases hp <;> split <;> omega
    | decrease =>
      obtain ⟨h₁, h₂⟩ := hvalue (.inr hrule)
      have hreach : severity = 0 → (t.service child).propagationValue ≤ status child := by
        rintro rfl
        by_contra hlt
        exact hclamped ⟨hasked.resolve_left hne.symm, hrule, hok, not_le.mp hlt⟩
      rw [hrule] at hp
      dsimp only at hp ⊢
      rw [wrap_small (by omega) (by omega), statusOk] at hp
      rw [wrap_small (by omega) (by omega), triggerSeverityCount]
      split at hp <;> cases hp <;> split <;> omega
    | fixed => exact ⟨le_rfl, hpositive⟩
    | ignore | unknown =>
      rw [hrule] at hp
      cases hp
      unfold statusOk at hle
      omega
  · exact ⟨le_rfl, hpositive⟩

/-- A rule that gives the status of a service at or below `parent` has a child to blame. -/
def Grounded (t : Tree ι) (status : ι → ℤ) (parent : ι) : Prop :=
  ∀ s, Relation.ReflTransGen (Propagates t) s parent → (t.service s).children ≠ [] →
    ∀ rule ∈ (t.service s).statusRules, serviceGetRuleStatus t status s rule = status s → status s ≠ statusOk →
    ∃ child ∈ (t.service s).children, ∃ p, getStatus t status child = some p ∧ p ≠ statusOk ∧ rule.limitStatus ≤ p ∧
      (rule.byCount = false → (t.service child).weight ≠ 0)

lemma Rule.applies_congr (rule : Rule) {num num' weight weight' : ℤ} (totalNum totalWeight : ℤ)
    (hnum : rule.byCount = true → num = num') (hweight : rule.byCount = false → weight = weight') :
    rule.applies num weight totalNum totalWeight = rule.applies num' weight' totalNum totalWeight := by
  cases htype : rule.type with
  | nGe | npGe | nL | npL =>
    rw [hnum (by simp [Rule.byCount, htype])]
    simp only [Rule.applies, htype]
  | wGe | wpGe | wL | wpL =>
    rw [hweight (by simp [Rule.byCount, htype])]
    simp only [Rule.applies, htype]
  | unknown => simp only [Rule.applies, htype]

lemma getStatus_isSome (t : Tree ι) (status : ι → ℤ) (child : ι) :
    (getStatus t status child).isSome = decide ((t.service child).propagationRule ≠ .ignore) := by
  rw [getStatus, serviceGetStatus]
  split_ifs with hignore hok
  · rw [hignore]
    rfl
  · exact (decide_eq_true hignore).symm
  · cases hrule : (t.service child).propagationRule with
    | increase | decrease =>
      dsimp only
      split <;> rfl
    | asIs | fixed | unknown => rfl
    | ignore => exact absurd hrule hignore

lemma totals_eq (t : Tree ι) (status status' : ι → ℤ) (s : ι) (limit : ℤ) :
    (serviceGetChildrenByStatus t status s limit).totalNum = (serviceGetChildrenByStatus t status' s limit).totalNum ∧
      (serviceGetChildrenByStatus t status s limit).totalWeight = (serviceGetChildrenByStatus t status' s limit).totalWeight := by
  have hfilter (status : ι → ℤ) : (((t.service s).children.map (contribution t status)).filter (·.1.isSome)).map Prod.snd =
      ((t.service s).children.filter fun child => decide ((t.service child).propagationRule ≠ .ignore)).map fun child =>
        (t.service child).weight := by
    rw [List.filter_map, List.map_map]
    congr 1
    exact List.filter_congr fun child _ => getStatus_isSome t status child
  have hlength := congrArg List.length ((hfilter status).trans (hfilter status').symm)
  rw [List.length_map, List.length_map] at hlength
  simp only [serviceGetChildrenByStatus, childrenByStatus_eq, hfilter, hlength, and_self]

lemma Rule.limitStatus_le {rule : Rule} (hrange : InRange rule.limitStatus) {limit : ℤ} (h : rule.statusLimit = some limit) :
    rule.limitStatus ≤ limit := by
  obtain ⟨hlow, hhigh⟩ := hrange
  have hwrap : wrap (rule.limitStatus + 1) = rule.limitStatus + 1 := wrap_small (by omega) (by omega)
  rw [Rule.statusLimit] at h
  split at h <;> cases h <;> omega

lemma getStatus_of_ok (t : Tree ι) (child : ι) :
    getStatus t (fun _ => statusOk) child = none ∨ getStatus t (fun _ => statusOk) child = some statusOk := by
  rw [getStatus, serviceGetStatus]
  split
  · exact .inl rfl
  · exact .inr (if_pos rfl)

lemma childrenByStatus_of_ok (t : Tree ι) (s : ι) {limit : ℤ} (hlimit : 0 ≤ limit) :
    (serviceGetChildrenByStatus t (fun _ => statusOk) s limit).children = [] := by
  refine List.eq_nil_iff_forall_not_mem.mpr fun child hchild => ?_
  obtain ⟨-, p, hp, hle⟩ := mem_childrenByStatus.mp hchild
  rcases getStatus_of_ok t child with h | h
  · rw [h] at hp
    cases hp
  · rw [h] at hp
    cases hp
    exact absurd (hlimit.trans hle) (by decide)

lemma childrenByStatus_of_low (hvalid : Valid t problems) (hrange : ∀ s, InRange (status s)) (s : ι) {limit : ℤ}
    (hlimit : limit < 0) : (serviceGetChildrenByStatus t status s limit).children =
      (serviceGetChildrenByStatus t (fun _ => statusOk) s limit).children := by
  simp only [serviceGetChildrenByStatus, childrenByStatus_eq, List.nil_append]
  refine List.filter_congr fun child _ => ?_
  have hsome := (getStatus_isSome t status child).trans (getStatus_isSome t (fun _ => statusOk) child).symm
  rw [Function.comp_apply, Function.comp_apply, contribution, contribution, reaches, reaches]
  rcases getStatus_of_ok t child with h | h
  · rw [h, Option.isSome_none, Option.isSome_eq_false_iff, Option.isNone_iff_eq_none] at hsome
    rw [h, hsome]
  · rw [h, Option.isSome_some] at hsome
    obtain ⟨p, hp⟩ := Option.isSome_iff_exists.mp hsome
    have hlow := (getStatus_spec hvalid (hrange child) hp).1.1
    rw [h, hp, Option.any_some, Option.any_some, decide_eq_true (by omega : p ≥ limit), statusOk,
      decide_eq_true (by omega : (-1 : ℤ) ≥ limit)]

lemma servicesGetWeight_eq_zero {children : List ι} (hzero : ∀ child ∈ children, (t.service child).weight = 0) :
    servicesGetWeight t children = 0 := by
  rw [servicesGetWeight]
  induction children with
  | nil => rfl
  | cons child children ih =>
    rw [List.foldl_cons, hzero child List.mem_cons_self]
    exact ih fun c hc => hzero c (List.mem_cons_of_mem _ hc)

theorem grounded_of_quiet (hvalid : Valid t problems) (hrange : ∀ s, InRange (status s))
    (hquiet : ∀ s, ∀ rule ∈ (t.service s).statusRules, serviceGetRuleStatus t (fun _ => statusOk) s rule = statusOk) :
    Grounded t status parent := by
  intro s _ _ rule hrule hgives hok
  have hne := hgives ▸ hok
  have hsame (h : serviceGetRuleStatus t status s rule = serviceGetRuleStatus t (fun _ => statusOk) s rule) : False :=
    hne (h.trans (hquiet s rule hrule))
  rw [serviceGetRuleStatus, serviceGetRuleStatus] at hsame
  cases hlimit : rule.statusLimit with
  | none => exact absurd (by rw [serviceGetRuleStatus, hlimit]) hne
  | some limit =>
    obtain ⟨hnum, hweight⟩ := totals_eq t status (fun _ => statusOk) s limit
    simp only [hlimit, hnum, hweight] at hsame
    by_cases hpositive : 0 ≤ limit
    · rw [childrenByStatus_of_ok t s hpositive] at hsame
      by_contra hno
      have hfound {child : ι} (hchild : child ∈ (serviceGetChildrenByStatus t status s limit).children) :
          ¬(rule.byCount = false → (t.service child).weight ≠ 0) := by
        intro hcounts
        obtain ⟨hmem, p, hp, hle⟩ := mem_childrenByStatus.mp hchild
        refine hno ⟨child, hmem, p, hp, ?_, ((Rule.limitStatus_le (hvalid.limitStatus s rule hrule) hlimit).trans hle),
          hcounts⟩
        unfold statusOk
        omega
      apply hsame
      rw [Rule.applies_congr rule]
      · intro hcount
        have hempty : (serviceGetChildrenByStatus t status s limit).children = [] :=
          List.eq_nil_iff_forall_not_mem.mpr fun child hchild => hfound hchild fun h => by rw [hcount] at h; cases h
        rw [hempty]
      · intro _
        exact servicesGetWeight_eq_zero fun child hchild => by_contra fun h => hfound hchild fun _ => h
    · rw [childrenByStatus_of_low hvalid hrange s (not_le.mp hpositive)] at hsame
      exact (hsame rfl).elim

end

section

variable [DecidableEq ι] {t : Tree ι} {status : ι → ℤ} {problems : ι → List Problem} {parent s : ι}
  {minSeverity severity : ℤ}

lemma exists_cause (hvalid : Valid t problems) (hconsistent : Consistent t status problems)
    (hgrounded : Grounded t status parent) (hbelow : Relation.ReflTransGen (Propagates t) s parent)
    (hrange : ∀ s, InRange (status s)) (hinner : (t.service s).children ≠ []) (hlow : 0 ≤ minSeverity)
    (hreached : minSeverity ≤ status s) (hle : severity ≤ minSeverity) :
    ∃ child ∈ (serviceCauses t status s minSeverity severity).map Prod.fst, status child ≠ statusOk := by
  have hstatus := hconsistent.inner s hinner
  rcases (calcStatus_isGreatest t status s).1 with heq | ⟨rule, hrule, heq⟩
  · have hmain : minSeverity ≤ serviceGetMainStatus t status s := by rwa [← heq, ← hstatus]
    rcases mainStatus_cases t status s with hok | ⟨halgorithm, child, hchild, hp⟩
    · rw [hok, statusOk] at hmain
      omega
    · have hne : serviceGetMainStatus t status s ≠ statusOk := by
        unfold statusOk
        omega
      exact ⟨child, mem_of_main hle hmain hchild hp hne (halgorithm.imp_right fun h => ⟨h, hmain⟩),
        (getStatus_spec hvalid (hrange child) hp).2 hne⟩
  · have hgives := (hstatus.trans heq).symm
    have hmin : minSeverity ≤ serviceGetRuleStatus t status s rule := by rwa [hgives]
    have hne : serviceGetRuleStatus t status s rule ≠ statusOk := by
      unfold statusOk
      omega
    have hnew := (ruleStatus_cases t status s rule).resolve_left hne
    obtain ⟨child, hchild, p, hp, hok, hlimit, hweight⟩ := hgrounded s hbelow hinner rule hrule hgives (hgives ▸ hne)
    exact ⟨child, mem_of_rule hrule ⟨hnew ▸ hmin, hne⟩ hchild hp hlimit hweight,
      (getStatus_spec hvalid (hrange child) hp).2 hok⟩

omit [DecidableEq ι] in
lemma IsCause.met (hvalid : Valid t problems) (hrange : ∀ s, InRange (status s))
    (hclamped : ∀ s, ¬ ClampedDecrease t status parent s) (hmet : Met t status parent s severity) {child : ι} {severity' : ℤ}
    (h : IsCause t status s (reversePropagation (t.service s) severity).2 child severity') (hok : status child ≠ statusOk) :
    Met t status parent child severity' := by
  have hbelow := hmet.below.head h.propagates
  cases h with
  | all hchild hp => exact met_ok hbelow (hrange child) hok
  | one halgorithm hchild hp hle =>
    have hasked : (reversePropagation (t.service s) severity).2 = statusOk ∨
        Asked t status parent child (reversePropagation (t.service s) severity).2 := by
      rcases hmet.asked with rfl | hasked
      · exact .inl (by rw [reversePropagation_ok])
      · exact .inr (.one hasked halgorithm hchild)
    exact met_of_getStatus hbelow hvalid (hrange child) hok hp hle (hmet.inRange (hrange s)) hasked (hclamped child)
  | rule hrule hholds hchild hp hle =>
    exact met_of_getStatus hbelow hvalid (hrange child) hok hp hle (hvalid.limitStatus s _ hrule)
      (.inr (.rule hmet.below hchild hrule hholds)) (hclamped child)

lemma serviceGetCauses_ne_nil (hvalid : Valid t problems) (hconsistent : Consistent t status problems)
    (hgrounded : Grounded t status parent) (hrange : ∀ s, InRange (status s))
    (hclamped : ∀ s, ¬ ClampedDecrease t status parent s) {fuel : ℕ} {ids out : List UInt64}
    (hmet : Met t status parent s severity)
    (h : serviceGetCauses t status problems fuel s severity ids = some out) : out ≠ [] := by
  induction fuel generalizing s severity ids out with
  | zero => cases h
  | succ fuel ih =>
    rw [serviceGetCauses] at h
    split at h
    · rename_i hleaf
      cases h
      have hok : status s ≠ statusOk := by
        have := hmet.low.trans hmet.reached
        unfold statusOk
        omega
      obtain ⟨p, hp, heq⟩ := ((hconsistent.leaf s hleaf).1).resolve_left hok
      have hle := hmet.reached
      rw [heq] at hle
      exact List.append_ne_nil_of_right_ne_nil _ (List.ne_nil_of_mem (List.mem_map_of_mem
        (List.mem_filter.mpr ⟨hp, decide_eq_true hle⟩)))
    · rename_i hinner
      have hsevere := reversePropagation_le (t.service s) severity
      obtain ⟨child, hchild, hok⟩ :=
        exists_cause hvalid hconsistent hgrounded hmet.below hrange hinner hmet.low hmet.reached hsevere
      obtain ⟨e, he, rfl⟩ := List.mem_map.mp hchild
      have hout := @foldlM_rule_of_mem _ _ _ (fun past out => e ∈ past → out ≠ []) _
        (fun past mid e' he' mid' hmid hstep hmem => ?_) [] _ _ (fun h => absurd h List.not_mem_nil) h
      · exact hout he
      · rcases List.mem_append.mp hmem with hmem | hmem
        · obtain ⟨id, hid⟩ := List.exists_mem_of_ne_nil _ (hmid hmem)
          exact List.ne_nil_of_mem ((serviceGetCauses_finds hstep).1 id hid)
        · obtain rfl := List.mem_singleton.mp hmem
          exact ih ((isCause_of_mem hsevere e he').met hvalid hrange hclamped hmet hok) hstep

theorem rootcause_eventids [Finite ι] (t : Tree ι) (hacyclic : Acyclic (IsChild t)) (status : ι → ℤ)
    (problems : ι → List Problem) (parent : ι) :
    ∃ N ids, (∀ fuel ≥ N, serviceGetRootcauseEventids t status problems fuel parent = some ids) ∧
      ids.Pairwise (· < ·) ∧ (∀ id ∈ ids, IsRootCause t problems parent id) ∧
      (Valid t problems → Consistent t status problems → Grounded t status parent →
        (∀ s, ¬ ClampedDecrease t status parent s) → status parent ≠ statusOk → ids ≠ []) := by
  obtain ⟨N, hN⟩ := @serviceGetCauses_ends _ _ t status problems _ hacyclic parent
  obtain ⟨out, hout⟩ := Option.isSome_iff_exists.mp (hN N le_rfl statusOk [])
  obtain ⟨ids, hids, hsorted, hmem⟩ := uniq_mergeSort out
  refine ⟨N, ids, fun fuel hfuel => ?_, hsorted, fun id hid => ?_, ?_⟩
  · rw [serviceGetRootcauseEventids, serviceGetCauses_fuel hfuel hout]
    exact hids
  · exact ((serviceGetCauses_finds hout).2 id ((hmem id).mp hid)).resolve_left List.not_mem_nil
  · intro hvalid hconsistent hgrounded hclamped hok
    have hrange := status_inRange hacyclic hvalid hconsistent
    obtain ⟨id, hid⟩ := List.exists_mem_of_ne_nil _
      (serviceGetCauses_ne_nil hvalid hconsistent hgrounded hrange hclamped (met_ok .refl (hrange parent) hok) hout)
    exact List.ne_nil_of_mem ((hmem id).mpr hid)

end

section

def diamondStatus : Fin 4 → ℤ
  | 0 | 1 => 4
  | 2 | 3 => 5

def diamondProblems : Fin 4 → List Problem
  | 0 => [⟨9, 0, 2, ⟨100, 0⟩⟩, ⟨7, 0, 4, ⟨100, 0⟩⟩]
  | _ => []

theorem diamond_rootcause :
    ∃ N ids, (∀ fuel ≥ N, serviceGetRootcauseEventids diamond diamondStatus diamondProblems fuel 3 = some ids) ∧
      ids.Pairwise (· < ·) ∧ (∀ id ∈ ids, IsRootCause diamond diamondProblems 3 id) ∧ ids ≠ [] := by
  have hrank : ∀ c p, IsChild diamond c p → c.val < p.val := by
    unfold IsChild
    decide
  obtain ⟨N, ids, hids, hsorted, hcauses, hne⟩ :=
    rootcause_eventids diamond (.of_rank Fin.val hrank) diamondStatus diamondProblems 3
  have hvalid : Valid diamond diamondProblems := by constructor <;> (try unfold InRange) <;> decide
  refine ⟨N, ids, hids, hsorted, hcauses, hne hvalid (.of_worst (by decide) (by decide)) ?_ ?_ (by decide)⟩
  · apply grounded_of_quiet hvalid
    · unfold InRange
      decide
    · decide
  · rintro s ⟨-, hrule, -⟩
    revert s
    decide

def fewService : Fin 2 → Service (Fin 2)
  | 0 => ⟨1, [], [1], [], .setOk, 0, .asIs, 0⟩
  | 1 => ⟨2, [0], [], [⟨.nL, 2, 0, 3⟩], .setOk, 0, .asIs, 0⟩

def few : Tree (Fin 2) where
  service := fewService
  search id := (List.finRange 2).find? fun s => (fewService s).serviceid = id
  search_eq_some := by
    intro id s
    constructor
    · intro h
      simpa using List.find?_some h
    · rintro rfl
      revert s
      decide
  mem_parents := by decide

theorem rule_without_cause :
    Acyclic (IsChild few) ∧ Valid few (fun _ => []) ∧ Consistent few ![-1, 3] (fun _ => []) ∧ ![-1, 3] (1 : Fin 2) ≠ statusOk ∧
      ∀ fuel ≥ 2, serviceGetRootcauseEventids few ![-1, 3] (fun _ => []) fuel 1 = some [] := by
  have hrank : ∀ c p, IsChild few c p → c.val < p.val := by
    unfold IsChild
    decide
  refine ⟨.of_rank Fin.val hrank, ?_, .of_worst (by decide) (by decide), by decide, fun fuel hfuel => ?_⟩
  · constructor <;> (try unfold InRange) <;> decide
  · have hwalk : serviceGetCauses few ![-1, 3] (fun _ => []) 2 1 statusOk [] = some [] := by decide
    rw [serviceGetRootcauseEventids, serviceGetCauses_fuel hfuel hwalk]
    simp [Algo.Vector.uniq]

end

end Glaber.Services
