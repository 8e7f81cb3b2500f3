import Glaber.Lib.Streams
import Glaber.Preproc.Execute

namespace Glaber.Preproc

open Eval Lib.Streams Algo.Vector

section

variable {D : Type}

abbrev StepState (D : Type) := Option (Variant D × Timespec)

def StepState.values (s : StepState D) : Variant D × Timespec := s.getD (.none, ⟨0, 0⟩)

def lookup (history : Option (History D)) (i : ℕ) : StepState D :=
  ((history.getD []).find? (·.index = i)).map fun entry => (entry.value, entry.ts)

def Distinct (history : Option (History D)) : Prop := ((history.getD []).map StepHistory.index).Nodup

lemma find_eq_some_iff {entries : History D} (hd : (entries.map StepHistory.index).Nodup) (i : ℕ) (entry : StepHistory D) :
    entries.find? (·.index = i) = some entry ↔ entry ∈ entries ∧ entry.index = i := by
  constructor
  · intro h
    exact ⟨List.mem_of_find?_eq_some h, by simpa using List.find?_some h⟩
  · rintro ⟨hmem, hi⟩
    induction entries with
    | nil => simp at hmem
    | cons head entries ih =>
        simp only [List.map_cons, List.nodup_cons] at hd
        rcases List.mem_cons.1 hmem with rfl | hmem
        · simp [hi]
        · have hne : ¬ head.index = i := by
            rintro rfl
            exact hd.1 (hi ▸ List.mem_map_of_mem hmem)
          simpa [List.find?_cons, hne] using ih hd.2 hmem

lemma find_perm {entries entries' : History D} (hp : entries.Perm entries')
    (hd : (entries.map StepHistory.index).Nodup) (i : ℕ) :
    entries.find? (·.index = i) = entries'.find? (·.index = i) := by
  apply Option.ext
  intro entry
  rw [find_eq_some_iff hd, find_eq_some_iff ((hp.map _).nodup_iff.1 hd), hp.mem_iff]

lemma find_eraseIdx_ne {entries : History D} {i k : ℕ} (hk : ∃ entry, entries[k]? = some entry ∧ entry.index = i) {j : ℕ}
    (hj : j ≠ i) : (entries.eraseIdx k).find? (·.index = j) = entries.find? (·.index = j) := by
  induction entries generalizing k with
  | nil => simp
  | cons head entries ih =>
      obtain ⟨entry, hentry, hi⟩ := hk
      cases k with
      | zero =>
          simp only [List.getElem?_cons_zero, Option.some.injEq] at hentry
          subst hentry
          have hne : ¬ head.index = j := fun h => hj (h.symm.trans hi)
          simp [hne]
      | succ k =>
          simp only [List.eraseIdx_cons_succ, List.find?_cons]
          rw [ih ⟨entry, by simpa using hentry, hi⟩]

lemma pop_some {entries : History D} {i k : ℕ} {entry : StepHistory D} (hk : entries.findIdx? (·.index = i) = some k)
    (hentry : entries[k]? = some entry) :
    historyPop (some entries) i = (some (removeNoorder entries k), entry.value, entry.ts) := by
  simp [historyPop, hk, hentry]

lemma find_of_findIdx {entries : History D} {i k : ℕ} (hk : entries.findIdx? (·.index = i) = some k) :
    ∃ entry, entries[k]? = some entry ∧ entry.index = i ∧ entries.find? (·.index = i) = some entry := by
  obtain ⟨hlt, hp, hbefore⟩ := List.findIdx?_eq_some_iff_getElem.1 hk
  refine ⟨entries[k], by simp [hlt], by simpa using hp, ?_⟩
  exact List.find?_eq_some_iff_getElem.2 ⟨hp, k, hlt, rfl, by simpa using hbefore⟩

lemma historyPop_spec {history : Option (History D)} (hd : Distinct history) (i : ℕ) :
    (historyPop history i).2 = (lookup history i).values ∧ Distinct (historyPop history i).1 ∧
      ∀ j, j ≠ i → lookup (historyPop history i).1 j = lookup history j := by
  cases history with
  | none => exact ⟨rfl, hd, fun _ _ => rfl⟩
  | some entries =>
      cases hk : entries.findIdx? (·.index = i) with
      | none =>
          have hfind : entries.find? (·.index = i) = none := by simpa using hk
          simp [historyPop, hk, lookup, hfind, StepState.values, hd]
      | some k =>
          obtain ⟨entry, hentry, hindex, hfind⟩ := find_of_findIdx hk
          have hlt : k < entries.length := (List.getElem?_eq_some_iff.1 hentry).1
          have hperm := removeNoorder_perm entries hlt
          have hnodup : ((entries.eraseIdx k).map StepHistory.index).Nodup :=
            hd.sublist ((List.eraseIdx_sublist entries k).map _)
          rw [pop_some hk hentry]
          refine ⟨by simp [lookup, hfind, StepState.values], ((hperm.map _).nodup_iff.2 hnodup), ?_⟩
          intro j hj
          have hrest := find_perm hperm ((hperm.map _).nodup_iff.2 hnodup) j
          simp [lookup, hrest, find_eraseIdx_ne ⟨entry, hentry, hindex⟩ hj]

lemma lookup_add_ne {history : History D} {i j : ℕ} (h : j ≠ i) (value : Variant D) (ts : Timespec) :
    lookup (some (historyAdd history i value ts)) j = lookup (some history) j := by
  have hne : ¬ i = j := fun hij => h hij.symm
  simp [lookup, historyAdd, List.find?_append, hne]

lemma lookup_add_self {history : History D} {i : ℕ} (h : lookup (some history) i = none) (value : Variant D)
    (ts : Timespec) : lookup (some (historyAdd history i value ts)) i = some (value, ts) := by
  have hnone : history.find? (·.index = i) = none := by simpa [lookup] using h
  simp [lookup, historyAdd, List.find?_append, hnone]

end

section

variable {D : Type} (F : Numerics D)

def Step.stream (valueType : ValueType) (step : Step) : Processor (StepState D) (Timespec × Variant D) :=
  fun s (ts, value) =>
    let outcome := executeStep F valueType step value ts s.values.1 s.values.2
    (if outcome.historyValue.isNone then none else some (outcome.historyValue, outcome.historyTs),
      if outcome.value.isNone then none else some (ts, outcome.value))

def outValue : Option (Timespec × Variant D) → Variant D
  | none => .none
  | some (_, value) => value

def chain (valueType : ValueType) (history : Option (History D)) :
    ℕ → List Step → List (Processor (StepState D) (Timespec × Variant D) × StepState D)
  | _, [] => []
  | i, step :: steps => (step.stream F valueType, lookup history i) :: chain valueType history (i + 1) steps

def Exec.outcomes (valueType : ValueType) (ts : Timespec) : ℕ → List Step → Exec D → List (StepOutcome D)
  | _, [], _ => []
  | i, step :: steps, e =>
    if e.value.isErr then []
    else
      e.outcome F valueType ts i step ::
        if (e.step F valueType ts i step).value.isNone then []
        else (e.step F valueType ts i step).outcomes valueType ts (i + 1) steps

def NoStepFails (preproc : ItemPreproc D) (input : Timespec × Variant D) : Prop :=
  input.2.isErr = false ∧
    ∀ outcome ∈ (Exec.start preproc input.2).outcomes F preproc.valueType input.1 0 preproc.steps, outcome.succeeded = true

def ReachesHistories (preproc : ItemPreproc D) (input : Timespec × Variant D) : Prop :=
  ∀ entry ∈ preproc.history.getD [],
    entry.index < ((Exec.start preproc input.2).outcomes F preproc.valueType input.1 0 preproc.steps).length

instance (preproc : ItemPreproc D) (input : Timespec × Variant D) : Decidable (NoStepFails F preproc input) :=
  inferInstanceAs (Decidable (_ ∧ _))

instance (preproc : ItemPreproc D) (input : Timespec × Variant D) : Decidable (ReachesHistories F preproc input) :=
  inferInstanceAs (Decidable (∀ entry ∈ preproc.history.getD [], _))

def Along (formatError : Variant D → List (Result D) → List Char)
    (P : ItemPreproc D → Timespec × Variant D → Prop) : ItemPreproc D → List (Timespec × Variant D) → Prop
  | _, [] => True
  | preproc, input :: inputs =>
    P preproc input ∧ Along formatError P (ppExecute F formatError preproc input.2 input.1).2 inputs

end

section

variable {D : Type} {F : Numerics D}

lemma delta_not_err (speed : Bool) (value : Variant D) (ts : Timespec) (historyValue : Variant D) (historyTs : Timespec) :
    (deltaChange F speed value ts historyValue historyTs).isErr = false := by
  unfold deltaChange
  split
  · rfl
  · unfold deltaUint64
    split_ifs <;> rfl
  · unfold deltaFloat
    split_ifs <;> rfl

lemma aggStart_not_err (func : AggFunc) (value : Variant D) (ts : Timespec) {historyValue : Variant D}
    (historyTs : Timespec) (h : historyValue.isErr = false) :
    (aggStart F func value ts historyValue historyTs).1.isErr = false := by
  unfold aggStart
  split_ifs
  · rfl
  · rfl
  · exact h

lemma aggTake_not_err (func : AggFunc) (value : Variant D) {historyValue : Variant D} (historyTs : Timespec)
    (h : historyValue.isErr = false) : (aggTake F func value historyValue historyTs).isErr = false := by
  unfold aggTake
  cases func with
  | min | max => rfl
  | avg | sum => split_ifs <;> first | rfl | exact h
  | count => exact h

lemma aggResult_not_err (func : AggFunc) {historyValue : Variant D} (num : ℤ) (h : historyValue.isErr = false) :
    (aggResult F func historyValue num).isErr = false := by
  cases func with
  | min | max | sum => exact h
  | avg | count => rfl

lemma aggAdd_not_err (func : AggFunc) (timeout : ℕ) (value : Variant D) (ts : Timespec) {historyValue : Variant D}
    (historyTs : Timespec) (h : historyValue.isErr = false) :
    (aggAdd F func timeout value ts historyValue historyTs).value.isErr = false ∧
      (aggAdd F func timeout value ts historyValue historyTs).historyValue.isErr = false := by
  have hstart : (aggStart F func value ts historyValue historyTs).1.isErr = false := aggStart_not_err func value ts historyTs h
  unfold aggAdd
  generalize aggStart F func value ts historyValue historyTs = start at hstart ⊢
  obtain ⟨start, startTs⟩ := start
  have htaken : (aggTake F func value start startTs).isErr = false := aggTake_not_err func value startTs hstart
  dsimp only
  split_ifs
  · exact ⟨aggResult_not_err func _ htaken, rfl⟩
  · exact ⟨rfl, htaken⟩

lemma agg_not_err (params : List Char) {value : Variant D} (ts : Timespec) {historyValue : Variant D} (historyTs : Timespec)
    (hh : historyValue.isErr = false)
    (hs : (throttleValueAgg F params value ts historyValue historyTs).succeeded = true) :
    (throttleValueAgg F params value ts historyValue historyTs).value.isErr = false ∧
      (throttleValueAgg F params value ts historyValue historyTs).historyValue.isErr = false := by
  unfold throttleValueAgg at hs ⊢
  dsimp only at hs ⊢
  split at hs
  · exact ⟨rfl, hh⟩
  · split at hs
    · simp at hs
    · split_ifs at hs with htime
      rw [if_neg htime]
      split at hs
      · simp at hs
      · split at hs
        · simp at hs
        · split at hs
          · simp at hs
          · exact aggAdd_not_err _ _ _ ts historyTs hh

lemma convertHint_not_err (valueType : ValueType) {value : Variant D} (h : value.isErr = false) :
    (convertHint F valueType value).isErr = false := by
  cases valueType with
  | float =>
      unfold convertHint convertDbl
      cases variantToDbl F.toDoubles value with
      | none => exact h
      | some x => rfl
  | uint64 =>
      unfold convertHint convertUi64
      cases variantToUi64 F value with
      | none => exact h
      | some x => rfl
  | str | text | log | bin => exact h

lemma variantSetNumeric_not_err {text : List Char} {value : Variant D} (h : variantSetNumeric F text = some value) :
    value.isErr = false := by
  unfold variantSetNumeric at h
  dsimp only at h
  split_ifs at h
  split at h
  · cases h
    rfl
  · obtain ⟨x, -, rfl⟩ := Option.map_eq_some_iff.1 h
    rfl

lemma convertValueToNumeric_not_err {valueType : ValueType} {value valueNum : Variant D}
    (h : convertValueToNumeric F valueType value = some valueNum) : valueNum.isErr = false := by
  cases value with
  | dbl x | ui64 x =>
      cases h
      exact convertHint_not_err valueType rfl
  | str text =>
      obtain ⟨number, hnumber, rfl⟩ := Option.map_eq_some_iff.1 h
      exact convertHint_not_err valueType (variantSetNumeric_not_err hnumber)
  | none | bin _ | dblVector _ | err _ => cases h

lemma executeDelta_not_err (speed : Bool) (valueType : ValueType) (value : Variant D) (ts : Timespec)
    (historyValue : Variant D) (historyTs : Timespec)
    (hs : (executeDelta F speed valueType value ts historyValue historyTs).succeeded = true) :
    (executeDelta F speed valueType value ts historyValue historyTs).value.isErr = false ∧
      (executeDelta F speed valueType value ts historyValue historyTs).historyValue.isErr = false := by
  unfold executeDelta at hs ⊢
  cases hnum : convertValueToNumeric F valueType value with
  | none => simp [hnum] at hs
  | some valueNum => exact ⟨delta_not_err _ _ _ _ _, convertValueToNumeric_not_err hnum⟩

lemma executeStep_not_err {valueType : ValueType} {step : Step} {value : Variant D} {ts : Timespec}
    {historyValue : Variant D} {historyTs : Timespec} (hv : value.isErr = false) (hh : historyValue.isErr = false)
    (hs : (executeStep F valueType step value ts historyValue historyTs).succeeded = true) :
    (executeStep F valueType step value ts historyValue historyTs).value.isErr = false ∧
      (executeStep F valueType step value ts historyValue historyTs).historyValue.isErr = false := by
  unfold executeStep at hs ⊢
  split at hs
  · exact executeDelta_not_err _ _ _ _ _ _ hs
  · exact executeDelta_not_err _ _ _ _ _ _ hs
  · unfold throttleValue
    split_ifs
    · exact ⟨rfl, hv⟩
    · exact ⟨hv, hv⟩
  · unfold throttleTimedValue at hs ⊢
    split at hs
    · simp at hs
    · dsimp only
      split_ifs
      · exact ⟨rfl, hv⟩
      · exact ⟨hv, hv⟩
      · exact ⟨rfl, hv⟩
      · exact ⟨hv, hv⟩
  · exact agg_not_err step.params ts historyTs hh hs

end

section

variable {D : Type} {F : Numerics D}

structure Built (i : ℕ) (history : Option (History D)) : Prop where
  isSome : ∃ entries, history = some entries
  distinct : Distinct history
  below : ∀ entry ∈ history.getD [], entry.index < i
  noErr : ∀ entry ∈ history.getD [], entry.value.isErr = false

lemma Built.lookup_none {i j : ℕ} {history : Option (History D)} (h : Built i history) (hj : i ≤ j) :
    lookup history j = none := by
  simp only [lookup, Option.map_eq_none_iff, List.find?_eq_none, decide_eq_true_eq]
  intro entry hentry hindex
  have := h.below entry hentry
  omega

lemma values_not_err {history : Option (History D)} (h : ∀ entry ∈ history.getD [], entry.value.isErr = false) (i : ℕ) :
    (lookup history i).values.1.isErr = false := by
  unfold lookup
  cases hfind : (history.getD []).find? (·.index = i) with
  | none => rfl
  | some entry => exact h entry (List.mem_of_find?_eq_some hfind)

lemma Built.add {i : ℕ} {entries : History D} (h : Built i (some entries)) {value : Variant D} (hv : value.isErr = false)
    (ts : Timespec) : Built (i + 1) (some (historyAdd entries i value ts)) where
  isSome := ⟨_, rfl⟩
  distinct := by
    have hnew : ∀ entry ∈ entries, ¬ entry.index = i := fun entry hentry => (h.below entry hentry).ne
    have hd : (entries.map StepHistory.index).Nodup := h.distinct
    simpa [Distinct, historyAdd, List.nodup_append, hd] using hnew
  below := by
    intro entry hentry
    simp only [Option.getD_some, historyAdd, List.mem_append, List.mem_singleton] at hentry
    rcases hentry with hentry | rfl
    · exact (h.below entry hentry).trans (Nat.lt_succ_self i)
    · exact Nat.lt_succ_self i
  noErr := by
    intro entry hentry
    simp only [Option.getD_some, historyAdd, List.mem_append, List.mem_singleton] at hentry
    rcases hentry with hentry | rfl
    · exact h.noErr entry hentry
    · exact hv

lemma Built.skip {i : ℕ} {history : Option (History D)} (h : Built i history) : Built (i + 1) history :=
  { h with below := fun entry hentry => (h.below entry hentry).trans (Nat.lt_succ_self i) }

structure Ready (i : ℕ) (e : Exec D) : Prop where
  value : e.value.isErr = false
  distinct : Distinct e.preprocHistory
  noErr : ∀ j, i ≤ j → (lookup e.preprocHistory j).values.1.isErr = false
  built : Built i e.history

lemma outcome_eq {valueType : ValueType} {ts : Timespec} {i : ℕ} {step : Step} {e : Exec D} (h : Ready i e) :
    e.outcome F valueType ts i step = executeStep F valueType step e.value ts (lookup e.preprocHistory i).values.1
      (lookup e.preprocHistory i).values.2 := by
  simp [Exec.outcome, (historyPop_spec h.distinct i).1]

lemma step_stream {valueType : ValueType} {ts : Timespec} {i : ℕ} {step : Step} {e : Exec D} (h : Ready i e)
    (hs : (e.outcome F valueType ts i step).succeeded = true) :
    Ready (i + 1) (e.step F valueType ts i step) ∧
      step.stream F valueType (lookup e.preprocHistory i) (ts, e.value) =
        (lookup (e.step F valueType ts i step).history i,
          if (e.step F valueType ts i step).value.isNone then none
          else some (ts, (e.step F valueType ts i step).value)) ∧
      (∀ j, j ≠ i → lookup (e.step F valueType ts i step).preprocHistory j = lookup e.preprocHistory j) ∧
      ∀ j, j < i → lookup (e.step F valueType ts i step).history j = lookup e.history j := by
  obtain ⟨-, hpopDistinct, hpop⟩ := historyPop_spec h.distinct i
  have hout : e.outcome F valueType ts i step = executeStep F valueType step e.value ts
      (lookup e.preprocHistory i).values.1 (lookup e.preprocHistory i).values.2 := outcome_eq h
  have herr : (e.outcome F valueType ts i step).value.isErr = false ∧
      (e.outcome F valueType ts i step).historyValue.isErr = false := by
    rw [hout] at hs ⊢
    exact executeStep_not_err h.value (h.noErr i le_rfl) hs
  obtain ⟨entries, hentries⟩ := h.built.isSome
  have hbuilt : Built i (some entries) := hentries ▸ h.built
  have hvalue : (e.step F valueType ts i step).value = (e.outcome F valueType ts i step).value := by
    simp [Exec.step, hs]
  have hhas : hasHistory step.type = true := by cases step.type <;> rfl
  have hhistory : (e.step F valueType ts i step).history =
      some (if (e.outcome F valueType ts i step).historyValue.isNone then entries
        else historyAdd entries i (e.outcome F valueType ts i step).historyValue
          (e.outcome F valueType ts i step).historyTs) := by
    simp only [Exec.step, hs, hentries, herr.1, hhas, if_true, Option.map_some]
    cases (e.outcome F valueType ts i step).historyValue.isNone <;> simp
  refine ⟨⟨?_, ?_, ?_, ?_⟩, ?_, ?_, ?_⟩
  · rw [hvalue]
    exact herr.1
  · exact hpopDistinct
  · intro j hj
    have hne : j ≠ i := by omega
    show (lookup (historyPop e.preprocHistory i).1 j).values.1.isErr = false
    rw [hpop j hne]
    exact h.noErr j (by omega)
  · rw [hhistory]
    split_ifs
    · exact hbuilt.skip
    · exact hbuilt.add herr.2 _
  · rw [hvalue, hhistory]
    simp only [Step.stream, ← hout]
    cases hnone : (e.outcome F valueType ts i step).historyValue.isNone with
    | true => simp [hbuilt.lookup_none le_rfl]
    | false => simp [lookup_add_self (hbuilt.lookup_none le_rfl)]
  · exact hpop
  · intro j hj
    rw [hhistory, hentries]
    split_ifs
    · rfl
    · exact lookup_add_ne (by omega) _ _

lemma chain_congr {valueType : ValueType} {history history' : Option (History D)} {i : ℕ} {steps : List Step}
    (h : ∀ j, i ≤ j → lookup history j = lookup history' j) :
    chain F valueType history i steps = chain F valueType history' i steps := by
  induction steps generalizing i with
  | nil => rfl
  | cons step steps ih =>
      simp only [chain]
      rw [h i le_rfl, ih fun j hj => h j (by omega)]

lemma run_cascade {valueType : ValueType} {ts : Timespec} {i : ℕ} {steps : List Step} {e : Exec D} (h : Ready i e)
    (hs : ∀ outcome ∈ e.outcomes F valueType ts i steps, outcome.succeeded = true)
    (hreach : ∀ j, i ≤ j → lookup e.preprocHistory j ≠ none → j < i + (e.outcomes F valueType ts i steps).length) :
    (e.run F valueType ts i steps).value.isErr = false ∧
      Built (i + steps.length) (e.run F valueType ts i steps).history ∧
      (∀ j, j < i → lookup (e.run F valueType ts i steps).history j = lookup e.history j) ∧
      (cascade (chain F valueType e.preprocHistory i steps) (ts, e.value)).1 =
        chain F valueType (e.run F valueType ts i steps).history i steps ∧
      outValue (cascade (chain F valueType e.preprocHistory i steps) (ts, e.value)).2 =
        (e.run F valueType ts i steps).value := by
  induction steps generalizing i e with
  | nil => exact ⟨h.value, h.built, fun _ _ => rfl, rfl, rfl⟩
  | cons step steps ih =>
      have hoc := hs (e.outcome F valueType ts i step) (by simp [Exec.outcomes, h.value])
      obtain ⟨hready, hstream, hpop, hkeep⟩ := step_stream h hoc
      cases hnone : (e.step F valueType ts i step).value.isNone with
      | true =>
          -- the value is discarded here, and no step behind has an entry to lose
          have hrun : e.run F valueType ts i (step :: steps) = e.step F valueType ts i step := by
            simp [Exec.run, h.value, hnone]
          have hlater : ∀ j, i + 1 ≤ j →
              lookup e.preprocHistory j = lookup (e.step F valueType ts i step).history j := by
            intro j hj
            rw [hready.built.lookup_none hj]
            by_contra hsome
            have := hreach j (by omega) hsome
            simp only [Exec.outcomes, h.value, hnone] at this
            simp at this
            omega
          have hvalue : (e.step F valueType ts i step).value = .none := by
            generalize (e.step F valueType ts i step).value = value at hnone
            cases value <;> first | rfl | cases hnone
          rw [hrun]
          refine ⟨hready.value, ?_, hkeep, ?_, ?_⟩
          · exact { hready.built with
              below := fun entry hentry => (hready.built.below entry hentry).trans_le (by simp) }
          · simp only [chain, cascade, hstream, hnone, if_true]
            rw [chain_congr hlater]
          · simp only [chain, cascade, hstream, hnone, if_true]
            exact hvalue.symm
      | false =>
          have hrun : e.run F valueType ts i (step :: steps) =
              (e.step F valueType ts i step).run F valueType ts (i + 1) steps := by
            simp [Exec.run, h.value, hnone]
          have houtcomes : e.outcomes F valueType ts i (step :: steps) =
              e.outcome F valueType ts i step :: (e.step F valueType ts i step).outcomes F valueType ts (i + 1) steps := by
            simp [Exec.outcomes, h.value, hnone]
          have hrest : chain F valueType e.preprocHistory (i + 1) steps =
              chain F valueType (e.step F valueType ts i step).preprocHistory (i + 1) steps :=
            chain_congr fun j hj => (hpop j (by omega)).symm
          obtain ⟨herr, hbuilt, hbefore, hstates, hout⟩ := ih hready
            (fun outcome houtcome => hs outcome (houtcomes ▸ List.mem_cons_of_mem _ houtcome))
            (by
              intro j hj hsome
              have hj' := hreach j (by omega) (hpop j (by omega) ▸ hsome)
              rw [houtcomes, List.length_cons] at hj'
              omega)
          rw [hrun]
          refine ⟨herr, ?_, ?_, ?_, ?_⟩
          · rw [List.length_cons, show i + (steps.length + 1) = i + 1 + steps.length by omega]
            exact hbuilt
          · intro j hj
            rw [hbefore j (by omega), hkeep j hj]
          · simp only [chain, cascade, hstream, hnone, Bool.false_eq_true, if_false]
            rw [hrest, hstates, hbefore i (by omega)]
          · simp only [chain, cascade, hstream, hnone, Bool.false_eq_true, if_false]
            rw [hrest, hout]

end

section

variable {D : Type} {F : Numerics D} {formatError : Variant D → List (Result D) → List Char}

structure Kept (preproc : ItemPreproc D) : Prop where
  distinct : Distinct preproc.history
  noErr : ∀ entry ∈ preproc.history.getD [], entry.value.isErr = false

lemma historyNum_ne_zero {preproc : ItemPreproc D} (h : preproc.steps ≠ []) : preproc.historyNum ≠ 0 := by
  unfold ItemPreproc.historyNum
  cases hsteps : preproc.steps with
  | nil => exact absurd hsteps h
  | cons step steps =>
      have hhas : hasHistory step.type = true := by cases step.type <;> rfl
      simp [hhas]

lemma Kept.ready {preproc : ItemPreproc D} (h : Kept preproc) (hsteps : preproc.steps ≠ []) {value : Variant D}
    (hv : value.isErr = false) : Ready 0 (Exec.start preproc value) where
  value := hv
  distinct := h.distinct
  noErr := fun j _ => values_not_err h.noErr j
  built := by
    have hhistory : (Exec.start preproc value).history = some [] := by
      simp [Exec.start, historyNum_ne_zero hsteps]
    rw [hhistory]
    exact ⟨⟨[], rfl⟩, List.nodup_nil, by simp, by simp⟩

lemma lookup_reached {preproc : ItemPreproc D} {input : Timespec × Variant D} (h : ReachesHistories F preproc input) {j : ℕ}
    (hj : lookup preproc.history j ≠ none) :
    j < ((Exec.start preproc input.2).outcomes F preproc.valueType input.1 0 preproc.steps).length := by
  unfold lookup at hj
  cases hfind : (preproc.history.getD []).find? (·.index = j) with
  | none => simp [hfind] at hj
  | some entry =>
      have hindex : entry.index = j := by simpa using List.find?_some hfind
      exact hindex ▸ h entry (List.mem_of_find?_eq_some hfind)

lemma ppExecute_cascade {preproc : ItemPreproc D} {input : Timespec × Variant D} (h : Kept preproc)
    (hf : NoStepFails F preproc input) (hr : ReachesHistories F preproc input) :
    Kept (ppExecute F formatError preproc input.2 input.1).2 ∧
      (ppExecute F formatError preproc input.2 input.1).2.steps = preproc.steps ∧
      (ppExecute F formatError preproc input.2 input.1).2.valueType = preproc.valueType ∧
      (cascade (chain F preproc.valueType preproc.history 0 preproc.steps) input).1 =
        chain F preproc.valueType (ppExecute F formatError preproc input.2 input.1).2.history 0 preproc.steps ∧
      outValue (cascade (chain F preproc.valueType preproc.history 0 preproc.steps) input).2 =
        (ppExecute F formatError preproc input.2 input.1).1 := by
  by_cases hsteps : preproc.steps = []
  · have hexec : ppExecute F formatError preproc input.2 input.1 = (input.2, preproc) := by simp [ppExecute, hsteps]
    rw [hexec, hsteps]
    exact ⟨h, rfl, rfl, rfl, rfl⟩
  · obtain ⟨herr, hbuilt, -, hstates, hout⟩ := run_cascade (h.ready hsteps hf.1) hf.2
      (fun j _ hj => by simpa using lookup_reached hr hj)
    have hexec : ppExecute F formatError preproc input.2 input.1 =
        (((Exec.start preproc input.2).run F preproc.valueType input.1 0 preproc.steps).value,
          { preproc with
            history := ((Exec.start preproc input.2).run F preproc.valueType input.1 0 preproc.steps).history }) := by
      simp [ppExecute, hsteps, herr]
    rw [hexec]
    exact ⟨⟨hbuilt.distinct, hbuilt.noErr⟩, rfl, rfl, hstates, hout⟩

lemma ppExecuteAll_pipeline {preproc : ItemPreproc D} (h : Kept preproc) {inputs : List (Timespec × Variant D)}
    (hf : Along F formatError (NoStepFails F) preproc inputs)
    (hr : Along F formatError (ReachesHistories F) preproc inputs) :
    ppExecuteAll F formatError preproc inputs =
      (pipeline (chain F preproc.valueType preproc.history 0 preproc.steps) (inputs.map some)).map outValue := by
  induction inputs generalizing preproc with
  | nil => simp [ppExecuteAll, pipeline_nil]
  | cons input inputs ih =>
      obtain ⟨hkept, hsteps, hvalueType, hstates, hout⟩ := ppExecute_cascade h hf.1 hr.1
      rw [List.map_cons, pipeline_some, List.map_cons, hout, hstates, ← hsteps, ← hvalueType, ← ih hkept hf.2 hr.2]
      rfl

lemma chain_none (valueType : ValueType) (i : ℕ) (steps : List Step) :
    chain F valueType (none : Option (History D)) i steps = steps.map fun step => (step.stream F valueType, none) := by
  induction steps generalizing i with
  | nil => rfl
  | cons step steps ih =>
      rw [chain, ih]
      rfl

theorem outputs_of_composed_streams (formatError : Variant D → List (Result D) → List Char) (preproc : ItemPreproc D)
    (hnew : preproc.history = none) (inputs : List (Timespec × Variant D))
    (hf : Along F formatError (NoStepFails F) preproc inputs)
    (hr : Along F formatError (ReachesHistories F) preproc inputs) :
    ppExecuteAll F formatError preproc inputs =
      (pipeline (preproc.steps.map fun step => (step.stream F preproc.valueType, none)) (inputs.map some)).map
        outValue := by
  have hkept : Kept preproc := by
    refine ⟨?_, ?_⟩
    · simp [Distinct, hnew]
    · simp [hnew]
  rw [ppExecuteAll_pipeline hkept hf hr, hnew, chain_none]

end

section

def wholeNumbers : Numerics ℤ where
  ofNat := fun n => n
  neg := fun x => -x
  add := fun x y => x + y
  sub := fun x y => x - y
  mul := fun x y => x * y
  div := fun x y => x / y
  lt := fun x y => x < y
  near := fun x y => x = y
  normal := fun _ => true
  atof := fun _ => 0
  isDouble := fun _ => none
  print := fun x => (Int.repr x).toList
  le := fun x y => x ≤ y
  truncate := fun x => UInt64.ofNat x.toNat
  reinterpret := fun _ => 0

def changeOfUnrepeated : ItemPreproc ℤ where
  valueType := .uint64
  steps := [⟨.throttleValue, [], .default, []⟩, ⟨.deltaValue, [], .default, []⟩]
  history := none

def fiveFiveSeven : List (Timespec × Variant ℤ) := [(⟨1, 0⟩, .ui64 5), (⟨2, 0⟩, .ui64 5), (⟨3, 0⟩, .ui64 7)]

theorem repeated_value_loses_change :
    Along wholeNumbers (fun _ _ => []) (NoStepFails wholeNumbers) changeOfUnrepeated fiveFiveSeven ∧
      ppExecuteAll wholeNumbers (fun _ _ => []) changeOfUnrepeated fiveFiveSeven = [.none, .none, .none] ∧
      (pipeline (changeOfUnrepeated.steps.map fun step => (step.stream wholeNumbers changeOfUnrepeated.valueType, none))
        (fiveFiveSeven.map some)).map outValue = [.none, .none, .ui64 2] := by
  refine ⟨⟨?_, ?_, ?_, trivial⟩, ?_, ?_⟩ <;> decide

def fiveSevenNine : List (Timespec × Variant ℤ) := [(⟨1, 0⟩, .ui64 5), (⟨2, 0⟩, .ui64 7), (⟨3, 0⟩, .ui64 9)]

theorem changes_of_fiveSevenNine :
    ppExecuteAll wholeNumbers (fun _ _ => []) changeOfUnrepeated fiveSevenNine = [.none, .ui64 2, .ui64 2] ∧
      ppExecuteAll wholeNumbers (fun _ _ => []) changeOfUnrepeated fiveSevenNine =
        (pipeline (changeOfUnrepeated.steps.map fun step => (step.stream wholeNumbers changeOfUnrepeated.valueType, none))
          (fiveSevenNine.map some)).map outValue := by
  refine ⟨by decide, ?_⟩
  apply outputs_of_composed_streams
  · rfl
  · refine ⟨?_, ?_, ?_, trivial⟩ <;> decide
  · refine ⟨?_, ?_, ?_, trivial⟩ <;> decide

end

end Glaber.Preproc
