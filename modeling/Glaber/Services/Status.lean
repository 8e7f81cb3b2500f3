import Glaber.Lib.Dependency
import Glaber.Lib.Extremes

/-! Service status calculation (`service_manager.c`). -/

namespace Glaber.Services

def statusOk : ℤ := -1

def triggerSeverityCount : ℤ := 6

inductive PropagationRule
  | asIs | increase | decrease | ignore | fixed | unknown
  deriving DecidableEq

inductive Algorithm
  | setOk | mostCriticalAll | mostCriticalOne | unknown
  deriving DecidableEq

inductive RuleType
  | nGe | npGe | nL | npL | wGe | wpGe | wL | wpL | unknown
  deriving DecidableEq

structure Rule where
  type : RuleType
  limitValue : ℤ
  limitStatus : ℤ
  newStatus : ℤ

/-- `zbx_service_t`, less its status and its problems, which change; `ι` are the pointers to services. -/
structure Service (ι : Type) where
  serviceid : UInt64
  children : List ι
  parents : List ι
  statusRules : List Rule
  algorithm : Algorithm
  weight : ℤ
  propagationRule : PropagationRule
  propagationValue : ℤ

/-- `manager->services`, the hashset of the services by id, every link being kept at both of its ends. -/
structure Tree (ι : Type) where
  service : ι → Service ι
  search : UInt64 → Option ι
  search_eq_some : ∀ {id s}, search id = some s ↔ (service s).serviceid = id
  mem_parents : ∀ {child parent}, parent ∈ (service child).parents ↔ child ∈ (service parent).children

def wrap (x : ℤ) : ℤ := Int.bmod x (2 ^ 32)

variable {ι : Type}

def serviceGetStatus (service : Service ι) (status : ℤ) : Option ℤ :=
  if service.propagationRule = .ignore then none
  else if statusOk = status then some statusOk
  else match service.propagationRule with
    | .asIs => some status
    | .increase =>
      let status' := wrap (status + service.propagationValue)
      if triggerSeverityCount ≤ status' then some (triggerSeverityCount - 1) else some status'
    | .decrease =>
      let status' := wrap (status - service.propagationValue)
      if statusOk ≥ status' then some (statusOk + 1) else some status'
    | .fixed => some service.propagationValue
    | .ignore | .unknown => some statusOk

def mostCriticalAll (get : ι → Option ℤ) : List ι → ℤ → ℤ
  | [], status => status
  | child :: children, status =>
    match get child with
    | none => mostCriticalAll get children status
    | some childStatus =>
      if statusOk = childStatus then childStatus
      else mostCriticalAll get children (if status < childStatus then childStatus else status)

def mostCriticalOne (get : ι → Option ℤ) : List ι → ℤ → ℤ
  | [], status => status
  | child :: children, status =>
    match get child with
    | none => mostCriticalOne get children status
    | some childStatus => mostCriticalOne get children (if status < childStatus then childStatus else status)

structure ByStatus (ι : Type) where
  children : List ι
  totalWeight : ℤ
  totalNum : ℤ

section

variable (t : Tree ι) (status : ι → ℤ)

def getStatus (s : ι) : Option ℤ := serviceGetStatus (t.service s) (status s)

def serviceGetMainStatus (s : ι) : ℤ :=
  match (t.service s).algorithm with
  | .mostCriticalAll => mostCriticalAll (getStatus t status) (t.service s).children statusOk
  | .mostCriticalOne => mostCriticalOne (getStatus t status) (t.service s).children statusOk
  | .setOk | .unknown => statusOk

def childByStatus (limit : ℤ) (out : ByStatus ι) (child : ι) : ByStatus ι :=
  match getStatus t status child with
  | none => out
  | some childStatus =>
    { children := if childStatus ≥ limit then out.children ++ [child] else out.children
      totalWeight := wrap (out.totalWeight + (t.service child).weight)
      totalNum := out.totalNum + 1 }

def serviceGetChildrenByStatus (s : ι) (limit : ℤ) : ByStatus ι :=
  (t.service s).children.foldl (childByStatus t status limit) ⟨[], 0, 0⟩

def servicesGetWeight (services : List ι) : ℤ :=
  services.foldl (fun weight s => wrap (weight + (t.service s).weight)) 0

def Rule.statusLimit (rule : Rule) : Option ℤ :=
  match rule.type with
  | .nGe | .npGe | .wGe | .wpGe => some rule.limitStatus
  | .nL | .npL | .wL | .wpL => some (wrap (rule.limitStatus + 1))
  | .unknown => none

def Rule.applies (rule : Rule) (num weight totalNum totalWeight : ℤ) : Bool :=
  match rule.type with
  | .nGe => ¬ num < rule.limitValue
  | .npGe => ¬ (0 = totalNum ∨ (wrap (num * 100)).tdiv totalNum < rule.limitValue)
  | .nL => ¬ totalNum - num ≥ rule.limitValue
  | .npL => ¬ (0 = totalNum ∨ (wrap ((totalNum - num) * 100)).tdiv totalNum ≥ rule.limitValue)
  | .wGe => ¬ weight < rule.limitValue
  | .wpGe => ¬ (0 = totalWeight ∨ (wrap (weight * 100)).tdiv totalWeight < rule.limitValue)
  | .wL => ¬ wrap (totalWeight - weight) ≥ rule.limitValue
  | .wpL =>
    ¬ (0 = totalWeight ∨ (wrap (wrap (totalWeight - weight) * 100)).tdiv totalWeight ≥ rule.limitValue)
  | .unknown => false

def serviceGetRuleStatus (s : ι) (rule : Rule) : ℤ :=
  match rule.statusLimit with
  | none => statusOk
  | some limit =>
    let out := serviceGetChildrenByStatus t status s limit
    let weight := servicesGetWeight t out.children
    if rule.applies out.children.length weight out.totalNum out.totalWeight then rule.newStatus else statusOk

def calcStatus (s : ι) : ℤ :=
  (t.service s).statusRules.foldl
    (fun status' rule =>
      let ruleStatus := serviceGetRuleStatus t status s rule
      if status' < ruleStatus then ruleStatus else status')
    (serviceGetMainStatus t status s)

end

section

open Glaber.Lib.Extremes Glaber.Lib.Dependency

def contribution (t : Tree ι) (status : ι → ℤ) (child : ι) : Option ℤ × ℤ :=
  (getStatus t status child, (t.service child).weight)

def contributions (t : Tree ι) (status : ι → ℤ) (s : ι) : Multiset (Option ℤ × ℤ) :=
  ((t.service s).children.map (contribution t status) : List (Option ℤ × ℤ))

lemma mostCriticalAll_eq (get : ι → Option ℤ) (children : List ι) (status : ℤ) :
    mostCriticalAll get children status =
      if statusOk ∈ children.filterMap get then statusOk else (children.filterMap get).foldl max status := by
  induction children generalizing status with
  | nil => simp [mostCriticalAll]
  | cons child children ih =>
    rw [mostCriticalAll]
    cases hget : get child with
    | none => rw [List.filterMap_cons_none hget, ← ih]
    | some childStatus =>
      rw [List.filterMap_cons_some hget]
      by_cases hok : statusOk = childStatus
      · simp [hok]
      · simp only [hok, if_false, ih, List.mem_cons, false_or, List.foldl_cons, max_def_lt]

lemma mostCriticalOne_eq (get : ι → Option ℤ) (children : List ι) (status : ℤ) :
    mostCriticalOne get children status = (children.filterMap get).foldl max status := by
  induction children generalizing status with
  | nil => rfl
  | cons child children ih =>
    rw [mostCriticalOne]
    cases hget : get child with
    | none => rw [List.filterMap_cons_none hget, ← ih]
    | some childStatus => rw [List.filterMap_cons_some hget, List.foldl_cons, max_def_lt, ← ih]

variable {t t' : Tree ι} {status status' : ι → ℤ} {s : ι}

lemma statuses_perm (h : contributions t status s = contributions t' status' s) :
    ((t.service s).children.filterMap (getStatus t status)).Perm
      ((t'.service s).children.filterMap (getStatus t' status')) := by
  have hperm := (Multiset.coe_eq_coe.mp h).filterMap Prod.fst
  rwa [List.filterMap_map, List.filterMap_map] at hperm

lemma mainStatus_congr (h : contributions t status s = contributions t' status' s)
    (halgorithm : (t.service s).algorithm = (t'.service s).algorithm) :
    serviceGetMainStatus t status s = serviceGetMainStatus t' status' s := by
  have hperm := statuses_perm h
  have hmax := hperm.foldl_eq (f := max) statusOk
  rw [serviceGetMainStatus, serviceGetMainStatus, halgorithm]
  cases (t'.service s).algorithm with
  | mostCriticalAll =>
    simp only [mostCriticalAll_eq, hperm.mem_iff]
    rw [hmax]
  | mostCriticalOne =>
    simp only [mostCriticalOne_eq]
    exact hmax
  | setOk | unknown => rfl

def addWeight (total weight : ℤ) : ℤ := wrap (total + weight)

instance : RightCommutative addWeight where
  right_comm total a b := by
    simp only [addWeight, wrap, Int.bmod_add_bmod, add_right_comm]

def reaches (limit : ℤ) (c : Option ℤ × ℤ) : Bool := c.1.any (· ≥ limit)

lemma childrenByStatus_eq (t : Tree ι) (status : ι → ℤ) (limit : ℤ) (children : List ι) (out : ByStatus ι) :
    children.foldl (childByStatus t status limit) out =
      { children := out.children ++ children.filter (reaches limit ∘ contribution t status)
        totalWeight :=
          (((children.map (contribution t status)).filter (·.1.isSome)).map Prod.snd).foldl addWeight out.totalWeight
        totalNum := out.totalNum + ((children.map (contribution t status)).filter (·.1.isSome)).length } := by
  induction children generalizing out with
  | nil => simp
  | cons child children ih =>
    rw [List.foldl_cons, ih, childByStatus]
    cases hget : getStatus t status child with
    | none => simp [contribution, hget, reaches]
    | some childStatus =>
      by_cases hlimit : childStatus ≥ limit
      · simp [contribution, hget, reaches, hlimit, addWeight]
        ring
      · simp [contribution, hget, reaches, hlimit, addWeight]
        ring

lemma servicesGetWeight_eq (t : Tree ι) (status : ι → ℤ) (services : List ι) :
    servicesGetWeight t services = ((services.map (contribution t status)).map Prod.snd).foldl addWeight 0 := by
  rw [servicesGetWeight, List.map_map, List.foldl_map]
  rfl

lemma ruleStatus_congr (h : contributions t status s = contributions t' status' s) (rule : Rule) :
    serviceGetRuleStatus t status s rule = serviceGetRuleStatus t' status' s rule := by
  have hperm := Multiset.coe_eq_coe.mp h
  rw [serviceGetRuleStatus, serviceGetRuleStatus]
  cases rule.statusLimit with
  | none => rfl
  | some limit =>
    have hcounted := hperm.filter (·.1.isSome)
    have hfound := hperm.filter (reaches limit)
    have hnum := hfound.length_eq
    have hweight := (hfound.map Prod.snd).foldl_eq (f := addWeight) 0
    have htotal := (hcounted.map Prod.snd).foldl_eq (f := addWeight) 0
    simp only [List.filter_map, List.length_map] at hnum hweight
    simp only [serviceGetChildrenByStatus, childrenByStatus_eq, List.nil_append, servicesGetWeight_eq t status,
      servicesGetWeight_eq t' status', hnum, hweight, htotal, hcounted.length_eq]

lemma calcStatus_congr (h : contributions t status s = contributions t' status' s)
    (halgorithm : (t.service s).algorithm = (t'.service s).algorithm)
    (hrules : (t.service s).statusRules = (t'.service s).statusRules) :
    calcStatus t status s = calcStatus t' status' s := by
  simp only [calcStatus, mainStatus_congr h halgorithm, hrules, ruleStatus_congr h]

def IsChild (t : Tree ι) (child parent : ι) : Prop := child ∈ (t.service parent).children

theorem calcStatus_local (t : Tree ι) : Local (IsChild t) (calcStatus t) := by
  intro s status status' hsame
  refine calcStatus_congr ?_ rfl rfl
  refine congrArg _ (List.map_congr_left fun child hchild => ?_)
  rw [contribution, contribution, getStatus, getStatus, hsame child hchild]

theorem calcStatus_isGreatest (t : Tree ι) (status : ι → ℤ) (s : ι) :
    IsGreatest {x | x = serviceGetMainStatus t status s ∨
      ∃ rule ∈ (t.service s).statusRules, x = serviceGetRuleStatus t status s rule} (calcStatus t status s) := by
  have h := isGreatest_foldl_max (serviceGetMainStatus t status s)
    ((t.service s).statusRules.map (serviceGetRuleStatus t status s))
  rw [← foldl_if_lt] at h
  have hset : {x | x = serviceGetMainStatus t status s ∨
      ∃ rule ∈ (t.service s).statusRules, x = serviceGetRuleStatus t status s rule} =
      {x | x ∈ serviceGetMainStatus t status s :: (t.service s).statusRules.map (serviceGetRuleStatus t status s)} := by
    ext x
    simp only [Set.mem_ofPred_eq, List.mem_cons, List.mem_map, eq_comm (a := x)]
  rw [hset]
  exact h

end

end Glaber.Services
