import Glaber.Algo.VectorOrder
import Glaber.Services.Manager

/-! The root causes of the status of a service (`service_get_causes`). -/

namespace Glaber.Services

variable {ι : Type}

/-- What the propagation rule makes of the required severity: `min_severity` and the new `severity`. -/
def reversePropagation (service : Service ι) (severity : ℤ) : ℤ × ℤ :=
  if statusOk ≠ severity then
    match service.propagationRule with
    | .increase =>
      let minSeverity := wrap (severity - service.propagationValue)
      let minSeverity := if statusOk ≥ minSeverity then statusOk + 1 else minSeverity
      (minSeverity, minSeverity)
    | .decrease =>
      let minSeverity := wrap (severity + service.propagationValue)
      let minSeverity := if triggerSeverityCount ≤ minSeverity then triggerSeverityCount - 1 else minSeverity
      (minSeverity, minSeverity)
    | .fixed => (0, statusOk)
    | _ => (severity, severity)
  else (0, statusOk)

section

variable [DecidableEq ι]

def serviceAddCause : List (ι × ℤ) → ι → ℤ → List (ι × ℤ)
  | [], service, severity => [(service, severity)]
  | cause :: causes, service, severity =>
    if cause.1 = service then (cause.1, if cause.2 > severity then severity else cause.2) :: causes
    else cause :: serviceAddCause causes service severity

variable (t : Tree ι) (status : ι → ℤ)

def addMainCause (algorithm : Algorithm) (minSeverity severity : ℤ) (causes : List (ι × ℤ)) (child : ι) : List (ι × ℤ) :=
  match getStatus t status child with
  | none => causes
  | some childStatus =>
    if statusOk = childStatus then causes
    else
      let causes := if algorithm = .mostCriticalAll then serviceAddCause causes child statusOk else causes
      if algorithm = .mostCriticalOne ∧ childStatus ≥ minSeverity then serviceAddCause causes child severity else causes

def Rule.byCount (rule : Rule) : Bool := rule.type = .nGe ∨ rule.type = .npGe ∨ rule.type = .nL ∨ rule.type = .npL

def lowerRule (current : Option Rule) (rule : Rule) : Option Rule :=
  match current with
  | none => some rule
  | some r => if rule.limitStatus < r.limitStatus then some rule else some r

def pickRule (s : ι) (minSeverity : ℤ) (picked : Option Rule × Option Rule) (rule : Rule) : Option Rule × Option Rule :=
  if rule.newStatus < minSeverity then picked
  else if statusOk = serviceGetRuleStatus t status s rule then picked
  else if rule.byCount then (lowerRule picked.1 rule, picked.2)
  else (picked.1, lowerRule picked.2 rule)

def addRuleCauses (s : ι) (skip : ι → Bool) (causes : List (ι × ℤ)) : Option Rule → List (ι × ℤ)
  | none => causes
  | some rule =>
    (serviceGetChildrenByStatus t status s rule.limitStatus).children.foldl
      (fun causes child => if skip child then causes else serviceAddCause causes child rule.limitStatus) causes

def serviceCauses (s : ι) (minSeverity severity : ℤ) : List (ι × ℤ) :=
  let causes :=
    if serviceGetMainStatus t status s ≥ minSeverity then
      (t.service s).children.foldl (addMainCause t status (t.service s).algorithm minSeverity severity) []
    else []
  let picked := (t.service s).statusRules.foldl (pickRule t status s minSeverity) (none, none)
  let causes := addRuleCauses t status s (fun _ => false) causes picked.1
  addRuleCauses t status s (fun child => 0 = (t.service child).weight) causes picked.2

variable (problems : ι → List Problem)

def serviceGetCauses : ℕ → ι → ℤ → List UInt64 → Option (List UInt64)
  | 0, _, _, _ => none
  | fuel + 1, s, severity, eventids =>
    let required := reversePropagation (t.service s) severity
    if (t.service s).children = [] then
      some (eventids ++ ((problems s).filter (·.severity ≥ required.1)).map (·.eventid))
    else
      (serviceCauses t status s required.1 required.2).foldlM
        (fun eventids cause => serviceGetCauses fuel cause.1 cause.2 eventids) eventids

def uint64Compare (a b : UInt64) : ℤ := if a < b then -1 else if b < a then 1 else 0

def serviceGetRootcauseEventids (fuel : ℕ) (parent : ι) : Option (List UInt64) := do
  let eventids ← serviceGetCauses t status problems fuel parent statusOk []
  Algo.Vector.uniq uint64Compare (eventids.mergeSort fun a b => a ≤ b)

end

section

variable {causes : List (ι × ℤ)} {s c : ι} {severity : ℤ}

lemma mem_serviceAddCause [DecidableEq ι] {e : ι × ℤ} (h : e ∈ serviceAddCause causes c severity) :
    e ∈ causes ∨ e = (c, severity) := by
  induction causes with
  | nil => exact .inr (List.mem_singleton.mp h)
  | cons cause causes ih =>
    rw [serviceAddCause] at h
    split at h
    · rename_i hc
      rcases List.mem_cons.mp h with rfl | h
      · split
        · exact .inr (by rw [hc])
        · exact .inl List.mem_cons_self
      · exact .inl (List.mem_cons_of_mem _ h)
    · rcases List.mem_cons.mp h with rfl | h
      · exact .inl List.mem_cons_self
      · exact (ih h).imp_left (List.mem_cons_of_mem _)

lemma services_serviceAddCause [DecidableEq ι] (causes : List (ι × ℤ)) (c : ι) (severity : ℤ) (x : ι) :
    x ∈ (serviceAddCause causes c severity).map Prod.fst ↔ x ∈ causes.map Prod.fst ∨ x = c := by
  induction causes with
  | nil => simp [serviceAddCause]
  | cons cause causes ih =>
    rw [serviceAddCause]
    split
    · rename_i hc
      rw [← hc]
      simp only [List.map_cons, List.mem_cons]
      tauto
    · rw [List.map_cons, List.mem_cons, ih, List.map_cons, List.mem_cons, or_assoc]

def Adds (Q : ι → ℤ → Prop) (step : List (ι × ℤ) → ι → List (ι × ℤ)) (children : List ι) : Prop :=
  ∀ causes, ∀ child ∈ children, (∀ e ∈ step causes child, e ∈ causes ∨ Q e.1 e.2) ∧
    ∀ x ∈ causes.map Prod.fst, x ∈ (step causes child).map Prod.fst

lemma Adds.foldl {Q : ι → ℤ → Prop} {step : List (ι × ℤ) → ι → List (ι × ℤ)} {children : List ι} (h : Adds Q step children)
    (causes : List (ι × ℤ)) :
    (∀ e ∈ children.foldl step causes, e ∈ causes ∨ Q e.1 e.2) ∧
      ∀ x ∈ causes.map Prod.fst, x ∈ (children.foldl step causes).map Prod.fst := by
  induction children generalizing causes with
  | nil => exact ⟨fun e he => .inl he, fun x hx => hx⟩
  | cons child children ih =>
    have hhead := h causes child List.mem_cons_self
    have htail := ih (fun causes c hc => h causes c (List.mem_cons_of_mem _ hc)) (step causes child)
    refine ⟨fun e he => ?_, fun x hx => htail.2 x (hhead.2 x hx)⟩
    rcases htail.1 e he with he | he
    · exact hhead.1 e he
    · exact .inr he

lemma Adds.mem {Q : ι → ℤ → Prop} {step : List (ι × ℤ) → ι → List (ι × ℤ)} {children : List ι} (h : Adds Q step children)
    (hc : c ∈ children) (hadd : ∀ causes, c ∈ (step causes c).map Prod.fst) (causes : List (ι × ℤ)) :
    c ∈ (children.foldl step causes).map Prod.fst := by
  obtain ⟨before, behind, rfl⟩ := List.append_of_mem hc
  rw [List.foldl_append, List.foldl_cons]
  exact (Adds.foldl (fun causes x hx => h causes x (List.mem_append_right _ (List.mem_cons_of_mem _ hx))) _).2 c (hadd _)

end

section

variable {t : Tree ι} {status : ι → ℤ} {s : ι} {minSeverity : ℤ}

def picked (byCount : Bool) (p : Option Rule × Option Rule) : Option Rule := if byCount then p.1 else p.2

def Holds (t : Tree ι) (status : ι → ℤ) (s : ι) (minSeverity : ℤ) (rule : Rule) : Prop :=
  minSeverity ≤ rule.newStatus ∧ serviceGetRuleStatus t status s rule ≠ statusOk

lemma pickRule_skip {p : Option Rule × Option Rule} {rule : Rule} (h : ¬ Holds t status s minSeverity rule) :
    pickRule t status s minSeverity p rule = p := by
  rw [pickRule]
  split_ifs with hsev hok
  · rfl
  · rfl
  · exact absurd ⟨not_lt.mp hsev, Ne.symm hok⟩ h
  · exact absurd ⟨not_lt.mp hsev, Ne.symm hok⟩ h

lemma pickRule_take {p : Option Rule × Option Rule} {rule : Rule} (h : Holds t status s minSeverity rule) (b : Bool) :
    picked b (pickRule t status s minSeverity p rule) = if rule.byCount = b then lowerRule (picked b p) rule else picked b p := by
  rw [pickRule, if_neg (not_lt.mpr h.1), if_neg (Ne.symm h.2)]
  cases hcount : rule.byCount <;> cases b <;> rfl

lemma lowerRule_spec (current : Option Rule) (rule : Rule) :
    ∃ r, lowerRule current rule = some r ∧ (r = rule ∨ current = some r) ∧ r.limitStatus ≤ rule.limitStatus ∧
      ∀ r' ∈ current, r.limitStatus ≤ r'.limitStatus := by
  cases current with
  | none => exact ⟨rule, rfl, .inl rfl, le_rfl, fun _ h => by cases h⟩
  | some r =>
    by_cases hlt : rule.limitStatus < r.limitStatus
    · exact ⟨rule, if_pos hlt, .inl rfl, le_rfl, fun r' h => by cases h; exact hlt.le⟩
    · exact ⟨r, if_neg hlt, .inr rfl, not_lt.mp hlt, fun r' h => by cases h; exact le_rfl⟩

structure Picks (t : Tree ι) (status : ι → ℤ) (s : ι) (minSeverity : ℤ) (byCount : Bool) (rules : List Rule)
    (out : Option Rule) : Prop where
  mem : ∀ r ∈ out, r ∈ rules ∧ Holds t status s minSeverity r
  lowest : ∀ rule ∈ rules, Holds t status s minSeverity rule → rule.byCount = byCount →
    ∃ r, out = some r ∧ r.limitStatus ≤ rule.limitStatus

lemma pickRules_spec (t : Tree ι) (status : ι → ℤ) (s : ι) (minSeverity : ℤ) (b : Bool) (rules : List Rule) :
    Picks t status s minSeverity b rules (picked b (rules.foldl (pickRule t status s minSeverity) (none, none))) := by
  induction rules using List.reverseRecOn with
  | nil => exact ⟨fun r hr => (by cases b <;> cases hr), fun _ h => absurd h List.not_mem_nil⟩
  | append_singleton rules rule ih =>
    rw [List.foldl_concat]
    have hmem : ∀ r ∈ picked b (rules.foldl (pickRule t status s minSeverity) (none, none)),
        r ∈ rules ++ [rule] ∧ Holds t status s minSeverity r :=
      fun r hr => ⟨List.mem_append_left _ (ih.mem r hr).1, (ih.mem r hr).2⟩
    by_cases hholds : Holds t status s minSeverity rule
    · rw [pickRule_take hholds]
      by_cases hb : rule.byCount = b
      · rw [if_pos hb]
        obtain ⟨r, hr, hfrom, hle, hbelow⟩ :=
          lowerRule_spec (picked b (rules.foldl (pickRule t status s minSeverity) (none, none))) rule
        rw [hr]
        refine ⟨fun r' hr' => ?_, fun r' hr' hholds' hb' => ⟨r, rfl, ?_⟩⟩
        · cases hr'
          rcases hfrom with rfl | hfrom
          · exact ⟨List.mem_append_right _ List.mem_cons_self, hholds⟩
          · exact hmem r hfrom
        · rcases List.mem_append.mp hr' with hr' | hr'
          · obtain ⟨r₀, hr₀, hle₀⟩ := ih.lowest r' hr' hholds' hb'
            exact (hbelow r₀ hr₀).trans hle₀
          · obtain rfl := List.mem_singleton.mp hr'
            exact hle
      · rw [if_neg hb]
        refine ⟨hmem, fun r hr hholds' hb' => ?_⟩
        rcases List.mem_append.mp hr with hr | hr
        · exact ih.lowest r hr hholds' hb'
        · obtain rfl := List.mem_singleton.mp hr
          exact absurd hb' hb
    · rw [pickRule_skip hholds]
      refine ⟨hmem, fun r hr hholds' hb' => ?_⟩
      rcases List.mem_append.mp hr with hr | hr
      · exact ih.lowest r hr hholds' hb'
      · obtain rfl := List.mem_singleton.mp hr
        exact absurd hholds' hholds

lemma mem_childrenByStatus {limit : ℤ} {child : ι} :
    child ∈ (serviceGetChildrenByStatus t status s limit).children ↔
      child ∈ (t.service s).children ∧ ∃ p, getStatus t status child = some p ∧ limit ≤ p := by
  rw [serviceGetChildrenByStatus, childrenByStatus_eq, List.nil_append, List.mem_filter, Function.comp_apply, reaches,
    contribution, Option.any_eq_true]
  simp only [decide_eq_true_eq, ge_iff_le]

end

section

variable [DecidableEq ι] {t : Tree ι} {status : ι → ℤ} {s child : ι} {minSeverity severity p : ℤ} {rule : Rule}

inductive IsCause (t : Tree ι) (status : ι → ℤ) (s : ι) (severity : ℤ) : ι → ℤ → Prop
  | all {child : ι} {p : ℤ} (hchild : child ∈ (t.service s).children) (hp : getStatus t status child = some p) :
      IsCause t status s severity child statusOk
  | one {child : ι} {p : ℤ} (halgorithm : (t.service s).algorithm = .mostCriticalOne)
      (hchild : child ∈ (t.service s).children) (hp : getStatus t status child = some p) (hle : severity ≤ p) :
      IsCause t status s severity child severity
  | rule {child : ι} {p : ℤ} {rule : Rule} (hrule : rule ∈ (t.service s).statusRules)
      (hholds : serviceGetRuleStatus t status s rule ≠ statusOk)
      (hchild : child ∈ (t.service s).children) (hp : getStatus t status child = some p) (hle : rule.limitStatus ≤ p) :
      IsCause t status s severity child rule.limitStatus

lemma adds_mainCauses (hle : severity ≤ minSeverity) :
    Adds (IsCause t status s severity) (addMainCause t status (t.service s).algorithm minSeverity severity)
      (t.service s).children := by
  intro causes child hchild
  rw [addMainCause]
  cases hp : getStatus t status child with
  | none => exact ⟨fun e he => .inl he, fun x hx => hx⟩
  | some p =>
    by_cases hok : statusOk = p
    · simp only [if_pos hok]
      exact ⟨fun e he => .inl he, fun x hx => hx⟩
    · simp only [if_neg hok]
      constructor
      · intro e he
        have hall (he : e ∈ if (t.service s).algorithm = .mostCriticalAll then serviceAddCause causes child statusOk else causes) :
            e ∈ causes ∨ IsCause t status s severity e.1 e.2 := by
          split at he
          · rcases mem_serviceAddCause he with he | rfl
            · exact .inl he
            · exact .inr (.all hchild hp)
          · exact .inl he
        split at he
        · rename_i hone
          rcases mem_serviceAddCause he with he | rfl
          · exact hall he
          · exact .inr (.one hone.1 hchild hp (hle.trans hone.2))
        · exact hall he
      · intro x hx
        split_ifs <;> simp only [services_serviceAddCause, hx, true_or]

lemma addMainCause_adds (hp : getStatus t status child = some p) (hok : p ≠ statusOk) {algorithm : Algorithm}
    (h : algorithm = .mostCriticalAll ∨ algorithm = .mostCriticalOne ∧ minSeverity ≤ p) (causes : List (ι × ℤ)) :
    child ∈ (addMainCause t status algorithm minSeverity severity causes child).map Prod.fst := by
  rw [addMainCause, hp]
  simp only [if_neg hok.symm]
  rcases h with rfl | ⟨rfl, hle⟩
  · rw [if_neg (fun h => by cases h.1), if_pos rfl, services_serviceAddCause]
    exact .inr rfl
  · rw [if_pos ⟨rfl, hle⟩, services_serviceAddCause]
    exact .inr rfl

lemma adds_ruleCauses (hrule : rule ∈ (t.service s).statusRules ∧ Holds t status s minSeverity rule) (skip : ι → Bool) :
    Adds (IsCause t status s severity)
      (fun causes child => if skip child then causes else serviceAddCause causes child rule.limitStatus)
      (serviceGetChildrenByStatus t status s rule.limitStatus).children := by
  intro causes child hchild
  obtain ⟨hmem, p, hp, hle⟩ := mem_childrenByStatus.mp hchild
  dsimp only
  split
  · exact ⟨fun e he => .inl he, fun x hx => hx⟩
  · refine ⟨fun e he => ?_, fun x hx => (services_serviceAddCause _ _ _ _).mpr (.inl hx)⟩
    rcases mem_serviceAddCause he with he | rfl
    · exact .inl he
    · exact .inr (.rule hrule.1 hrule.2.2 hmem hp hle)

variable {causes : List (ι × ℤ)} {skip : ι → Bool} {out : Option Rule} {byCount : Bool}

lemma mem_addRuleCauses (hout : Picks t status s minSeverity byCount (t.service s).statusRules out)
    (hcauses : ∀ e ∈ causes, IsCause t status s severity e.1 e.2) :
    ∀ e ∈ addRuleCauses t status s skip causes out, IsCause t status s severity e.1 e.2 := by
  intro e he
  cases out with
  | none => exact hcauses e he
  | some rule =>
    rcases ((adds_ruleCauses (hout.mem rule rfl) skip).foldl causes).1 e he with he | he
    · exact hcauses e he
    · exact he

lemma addRuleCauses_mono (hout : Picks t status s minSeverity byCount (t.service s).statusRules out) {x : ι}
    (hx : x ∈ causes.map Prod.fst) : x ∈ (addRuleCauses t status s skip causes out).map Prod.fst := by
  cases out with
  | none => exact hx
  | some rule =>
    have hadds : Adds (IsCause t status s 0) _ _ := adds_ruleCauses (hout.mem rule rfl) skip
    exact (hadds.foldl causes).2 x hx

lemma addRuleCauses_adds (hout : Picks t status s minSeverity byCount (t.service s).statusRules out)
    (hrule : rule ∈ (t.service s).statusRules) (hholds : Holds t status s minSeverity rule) (hcount : rule.byCount = byCount)
    (hchild : child ∈ (t.service s).children) (hp : getStatus t status child = some p) (hle : rule.limitStatus ≤ p)
    (hskip : skip child = false) : child ∈ (addRuleCauses t status s skip causes out).map Prod.fst := by
  obtain ⟨r, rfl, hlow⟩ := hout.lowest rule hrule hholds hcount
  have hadds : Adds (IsCause t status s 0) _ _ := adds_ruleCauses (hout.mem r rfl) skip
  apply hadds.mem (mem_childrenByStatus.mpr ⟨hchild, p, hp, hlow.trans hle⟩)
  intro causes
  rw [if_neg (by rw [hskip]; exact Bool.false_ne_true), services_serviceAddCause]
  exact .inr rfl

theorem isCause_of_mem (hle : severity ≤ minSeverity) :
    ∀ e ∈ serviceCauses t status s minSeverity severity, IsCause t status s severity e.1 e.2 := by
  have hpick (b : Bool) := pickRules_spec t status s minSeverity b (t.service s).statusRules
  apply mem_addRuleCauses (hpick false)
  apply mem_addRuleCauses (hpick true)
  split
  · intro e he
    rcases ((adds_mainCauses hle).foldl []).1 e he with he | he
    · exact absurd he List.not_mem_nil
    · exact he
  · exact fun e he => absurd he List.not_mem_nil

lemma mem_of_main (hle : severity ≤ minSeverity) (hmain : minSeverity ≤ serviceGetMainStatus t status s)
    (hchild : child ∈ (t.service s).children) (hp : getStatus t status child = some p) (hok : p ≠ statusOk)
    (h : (t.service s).algorithm = .mostCriticalAll ∨ (t.service s).algorithm = .mostCriticalOne ∧ minSeverity ≤ p) :
    child ∈ (serviceCauses t status s minSeverity severity).map Prod.fst := by
  have hpick (b : Bool) := pickRules_spec t status s minSeverity b (t.service s).statusRules
  apply addRuleCauses_mono (hpick false)
  apply addRuleCauses_mono (hpick true)
  rw [if_pos hmain]
  exact (adds_mainCauses hle).mem hchild (addMainCause_adds hp hok h) []

lemma mem_of_rule (hrule : rule ∈ (t.service s).statusRules) (hholds : Holds t status s minSeverity rule)
    (hchild : child ∈ (t.service s).children) (hp : getStatus t status child = some p) (hle : rule.limitStatus ≤ p)
    (hweight : rule.byCount = false → (t.service child).weight ≠ 0) :
    child ∈ (serviceCauses t status s minSeverity severity).map Prod.fst := by
  have hpick (b : Bool) := pickRules_spec t status s minSeverity b (t.service s).statusRules
  cases hcount : rule.byCount with
  | true =>
    apply addRuleCauses_mono (hpick false)
    exact addRuleCauses_adds (hpick true) hrule hholds hcount hchild hp hle rfl
  | false =>
    exact addRuleCauses_adds (hpick false) hrule hholds hcount hchild hp hle (decide_eq_false (hweight hcount).symm)

end

end Glaber.Services
