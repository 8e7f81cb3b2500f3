import Glaber.Algo.ElemsHash
import Glaber.Algo.Strpool
import Glaber.Lib.Runs

/-! Trigger states (`glb_state_triggers.c`). -/

namespace Glaber.State.Triggers

open Glaber.Algo Glaber.Lib.Assoc Glaber.Lib.Runs

abbrev ErrorText := List UInt8

def triggerValueOk : UInt8 := 0
def triggerValueProblem : UInt8 := 1
def triggerValueUnknown : UInt8 := 2
def triggerValueNone : UInt8 := 3

structure StateTrigger where
  lastchange : Int32
  lastcalc : Int32
  value : UInt8
  error : Option ErrorText
deriving DecidableEq

structure TriggerInfo where
  id : Id
  value : UInt8
  lastcalc : Int32
  error : Option ErrorText

-- The pool is lost once a pointer that leads to no record is released.
structure TriggersState where
  triggers : ElemsHash StateTrigger
  strpool : Option (Strpool ErrorText)

def freshTrigger : StateTrigger := ⟨0, 0, triggerValueNone, none⟩

def triggerCreateCb (_ : Id) : Elem StateTrigger := ⟨0, freshTrigger⟩

def triggersInit (freeCb : Id → Elem StateTrigger → ℤ) : TriggersState :=
  ⟨ElemsHash.init triggerCreateCb freeCb, some Strpool.init⟩

def setValueOf (now : Int32) (info : TriggerInfo) (trigger : StateTrigger) : StateTrigger :=
  { (if trigger.value ≠ info.value then { trigger with value := info.value, lastchange := now } else trigger) with
    lastcalc := info.lastcalc }

def freeError (trigger : StateTrigger) (pool : Option (Strpool ErrorText)) : Option (Strpool ErrorText) :=
  match trigger.error with
  | none => pool
  | some old => pool.bind (·.release old)

def setErrorOf (info : TriggerInfo) (trigger : StateTrigger) (pool : Option (Strpool ErrorText)) :
    StateTrigger × Option (Strpool ErrorText) :=
  match info.error with
  | none => (trigger, pool)
  | some text => ({ trigger with error := some text }, (freeError trigger pool).map (·.intern text))

def clearErrorOf (trigger : StateTrigger) (pool : Option (Strpool ErrorText)) :
    StateTrigger × Option (Strpool ErrorText) :=
  if (triggerValueOk = trigger.value ∨ triggerValueProblem = trigger.value) ∧ trigger.error ≠ none then
    ({ trigger with error := none }, freeError trigger pool)
  else (trigger, pool)

def setTriggerInfo (now : Int32) (info : TriggerInfo) :
    ProcessCb StateTrigger (Option (Strpool ErrorText)) := fun _ elem pool =>
  let (trigger, pool) := setErrorOf info (setValueOf now info elem.data) pool
  let (trigger, pool) := clearErrorOf trigger pool
  (succeed, { elem with data := trigger }, pool)

def validateInfo : Option TriggerInfo → ℤ
  | none => fail
  | some info =>
    if 0 = info.id ∨ info.lastcalc = 0 then fail
    else if triggerValueOk ≠ info.value ∧ triggerValueProblem ≠ info.value ∧ triggerValueUnknown ≠ info.value then
      fail
    else if info.error ≠ none ∧ triggerValueUnknown ≠ info.value then fail
    else succeed

-- One call of `glb_state_trigger_set_info` and the clock it would read.
structure SetCall where
  now : Int32
  info : Option TriggerInfo

variable (state : TriggersState)

def triggerSetInfo (call : SetCall) : ℤ × TriggersState :=
  if validateInfo call.info = fail then (fail, state)
  else match call.info with
    | none => (fail, state)
    | some info =>
      let (ret, triggers, pool) :=
        state.triggers.process info.id (some (setTriggerInfo call.now info)) state.strpool 0
      (ret, ⟨triggers, pool⟩)

inductive Ending where
  | returned
  | halted

def valueCall (clock now : Int32) (id : Id) (value : UInt8) (lastcalc : Int32) : SetCall :=
  ⟨now, some ⟨id, value, if 0 = lastcalc then clock else lastcalc, none⟩⟩

def triggerSetValue (clock now : Int32) (id : Id) (value : UInt8) (lastcalc : Int32) :
    Ending × TriggersState :=
  let (ret, state) := triggerSetInfo state (valueCall clock now id value lastcalc)
  if fail = ret then (.halted, state) else (.returned, state)

def flagsTriggerDiffUpdateError : BitVec 64 := 8

structure TriggerDiff where
  triggerid : Id
  value : UInt8
  lastchange : Int32
  error : Option ErrorText
  flags : BitVec 64

def diffCall (now : Int32) (diff : TriggerDiff) : SetCall :=
  ⟨now, some ⟨diff.triggerid, diff.value, diff.lastchange,
    if diff.flags &&& flagsTriggerDiffUpdateError ≠ 0 then diff.error else none⟩⟩

def applyDiffs (diffs : List (Int32 × TriggerDiff)) : TriggersState :=
  diffs.foldl (fun state diff => (triggerSetInfo state (diffCall diff.1 diff.2)).2) state

inductive Request where
  | setInfo (call : SetCall)
  | setValue (clock now : Int32) (id : Id) (value : UInt8) (lastcalc : Int32)
  | applyDiffs (diffs : List (Int32 × TriggerDiff))

def step : Request → TriggersState
  | .setInfo call => (triggerSetInfo state call).2
  | .setValue clock now id value lastcalc => (triggerSetValue state clock now id value lastcalc).2
  | .applyDiffs diffs => applyDiffs state diffs

def setStep (call : SetCall) : TriggersState := (triggerSetInfo state call).2

def Request.calls : Request → List SetCall
  | .setInfo call => [call]
  | .setValue clock now id value lastcalc => [valueCall clock now id value lastcalc]
  | .applyDiffs diffs => diffs.map fun diff => diffCall diff.1 diff.2

lemma step_eq (r : Request) : step state r = r.calls.foldl setStep state := by
  cases r with
  | setInfo call => rfl
  | setValue clock now id value lastcalc =>
    simp only [step, triggerSetValue, Request.calls, List.foldl_cons, List.foldl_nil, setStep]
    split_ifs <;> rfl
  | applyDiffs diffs =>
    rw [step, applyDiffs, Request.calls, List.foldl_map]
    rfl

def stored (id : Id) : Option StateTrigger := (state.triggers.lookup id).map Elem.data

-- A trigger that was never set counts as one without a value.
def current (id : Id) : StateTrigger := (stored state id).getD freshTrigger

def holds (text : ErrorText) (elem : Elem StateTrigger) : Bool := elem.data.error = some text

def holders (text : ErrorText) : ℕ := countIf (holds text) state.triggers.elems

structure Valid (trigger : StateTrigger) : Prop where
  value : trigger.value = triggerValueOk ∨ trigger.value = triggerValueProblem ∨
    trigger.value = triggerValueUnknown
  error : trigger.error ≠ none → trigger.value = triggerValueUnknown

structure Consistent (state : TriggersState) : Prop where
  valid : ∀ id trigger, stored state id = some trigger → Valid trigger
  counted : ∃ pool, state.strpool = some pool ∧ pool.Counts (holders state)

structure UpdateKept (u : Transition TriggersState SetCall) : Prop where
  rejected : (triggerSetInfo u.source u.event).1 = fail → u.target = u.source
  changed : ∀ id, (current u.target id).value ≠ (current u.source id).value →
    (current u.target id).lastchange = u.event.now
  unchanged : ∀ id, (current u.target id).value = (current u.source id).value →
    (current u.target id).lastchange = (current u.source id).lastchange

def PoolCounts (pool : Option (Strpool ErrorText)) (rest : ErrorText → ℕ) (trigger : StateTrigger) : Prop :=
  ∃ p, pool = some p ∧ p.Counts fun text => rest text + if trigger.error = some text then 1 else 0

section

variable {pool : Option (Strpool ErrorText)} {rest : ErrorText → ℕ} {trigger : StateTrigger}

lemma freeError_counts (h : PoolCounts pool rest trigger) : ∃ p, freeError trigger pool = some p ∧ p.Counts rest := by
  obtain ⟨p, rfl, hp⟩ := h
  rw [freeError]
  cases he : trigger.error with
  | none => exact ⟨p, rfl, hp.congr fun t => by simp [he]⟩
  | some old =>
    refine hp.release fun t => ?_
    simp only [he, Option.some.injEq, eq_comm]

lemma setErrorOf_counts (h : PoolCounts pool rest trigger) (info : TriggerInfo) :
    PoolCounts (setErrorOf info trigger pool).2 rest (setErrorOf info trigger pool).1 := by
  rw [setErrorOf]
  cases he : info.error with
  | none => exact h
  | some text =>
    obtain ⟨p, hfree, hp⟩ := freeError_counts h
    refine ⟨p.intern text, by simp [hfree], hp.intern fun t => ?_⟩
    simp only [Option.some.injEq, eq_comm]

lemma clearErrorOf_counts (h : PoolCounts pool rest trigger) :
    PoolCounts (clearErrorOf trigger pool).2 rest (clearErrorOf trigger pool).1 := by
  rw [clearErrorOf]
  split_ifs
  · obtain ⟨p, hfree, hp⟩ := freeError_counts h
    exact ⟨p, hfree, hp.congr fun t => by simp⟩
  · exact h

@[simp] lemma setErrorOf_value (info : TriggerInfo) (trigger : StateTrigger) (pool : Option (Strpool ErrorText)) :
    (setErrorOf info trigger pool).1.value = trigger.value := by
  rw [setErrorOf]
  split <;> rfl

@[simp] lemma setErrorOf_lastchange (info : TriggerInfo) (trigger : StateTrigger)
    (pool : Option (Strpool ErrorText)) : (setErrorOf info trigger pool).1.lastchange = trigger.lastchange := by
  rw [setErrorOf]
  split <;> rfl

@[simp] lemma clearErrorOf_value (trigger : StateTrigger) (pool : Option (Strpool ErrorText)) :
    (clearErrorOf trigger pool).1.value = trigger.value := by
  rw [clearErrorOf]
  split_ifs <;> rfl

@[simp] lemma clearErrorOf_lastchange (trigger : StateTrigger) (pool : Option (Strpool ErrorText)) :
    (clearErrorOf trigger pool).1.lastchange = trigger.lastchange := by
  rw [clearErrorOf]
  split_ifs <;> rfl

@[simp] lemma setValueOf_value (now : Int32) (info : TriggerInfo) (trigger : StateTrigger) :
    (setValueOf now info trigger).value = info.value := by
  rw [setValueOf]
  split_ifs with h
  · rfl
  · exact not_not.mp h

lemma setValueOf_lastchange (now : Int32) (info : TriggerInfo) (trigger : StateTrigger) :
    (setValueOf now info trigger).lastchange = if trigger.value ≠ info.value then now else trigger.lastchange := by
  rw [setValueOf]
  split_ifs <;> rfl

lemma clearErrorOf_error (trigger : StateTrigger) (pool : Option (Strpool ErrorText))
    (h : triggerValueOk = trigger.value ∨ triggerValueProblem = trigger.value) :
    (clearErrorOf trigger pool).1.error = none := by
  rw [clearErrorOf]
  by_cases he : trigger.error = none
  · rw [if_neg fun hh => hh.2 he]
    exact he
  · rw [if_pos ⟨h, he⟩]

end

lemma validateInfo_some {info : TriggerInfo} (h : validateInfo (some info) ≠ fail) :
    info.value = triggerValueOk ∨ info.value = triggerValueProblem ∨ info.value = triggerValueUnknown := by
  rw [validateInfo] at h
  split_ifs at h with hid hval herr
  · exact absurd rfl h
  · exact absurd rfl h
  · exact absurd rfl h
  · by_contra hn
    push Not at hn
    exact hval ⟨hn.1.symm, hn.2.1.symm, hn.2.2.symm⟩

section

variable (now : Int32) (info : TriggerInfo) (id : Id) (elem : Elem StateTrigger)
  (pool : Option (Strpool ErrorText))

lemma setTriggerInfo_value : (setTriggerInfo now info id elem pool).2.1.data.value = info.value := by
  simp [setTriggerInfo]

lemma setTriggerInfo_lastchange : (setTriggerInfo now info id elem pool).2.1.data.lastchange
    = if elem.data.value ≠ info.value then now else elem.data.lastchange := by
  simp [setTriggerInfo, setValueOf_lastchange]

lemma setTriggerInfo_valid (h : validateInfo (some info) ≠ fail) :
    Valid (setTriggerInfo now info id elem pool).2.1.data := by
  have hval := setTriggerInfo_value now info id elem pool
  refine ⟨by rw [hval]; exact validateInfo_some h, fun herr => ?_⟩
  rw [hval]
  by_contra hne
  refine herr (clearErrorOf_error (setErrorOf info (setValueOf now info elem.data) pool).1 _ ?_)
  rw [setErrorOf_value, setValueOf_value]
  rcases validateInfo_some h with hv | hv | hv
  · exact .inl hv.symm
  · exact .inr hv.symm
  · exact absurd hv hne

lemma setTriggerInfo_counts {rest : ErrorText → ℕ} (h : PoolCounts pool rest elem.data) :
    PoolCounts (setTriggerInfo now info id elem pool).2.2 rest (setTriggerInfo now info id elem pool).2.1.data := by
  have hset : PoolCounts pool rest (setValueOf now info elem.data) := by
    have herr : (setValueOf now info elem.data).error = elem.data.error := by
      rw [setValueOf]
      split_ifs <;> rfl
    obtain ⟨p, hp, hc⟩ := h
    exact ⟨p, hp, hc.congr fun t => by rw [herr]⟩
  exact clearErrorOf_counts (setErrorOf_counts hset info)

end

section

variable {state : TriggersState}

structure Reachable (state : TriggersState) : Prop where
  create : state.triggers.elemCreateFunc = triggerCreateCb
  consistent : Consistent state

lemma target_current (hr : Reachable state) (id : Id) :
    ∃ elem, state.triggers.target id 0 = some elem ∧ elem.data = current state id ∧
      ∀ text, (if holds text elem then 1 else 0) ≤ holders state text := by
  rw [ElemsHash.target, hr.create, current, stored]
  cases hl : state.triggers.lookup id with
  | none => exact ⟨triggerCreateCb id, if_neg (by decide), rfl, fun text => Nat.zero_le _⟩
  | some elem => exact ⟨elem, rfl, rfl, fun text => le_countIf (holds text) hl⟩

def updated (state : TriggersState) (now : Int32) (info : TriggerInfo) : TriggersState :=
  let r := state.triggers.process info.id (some (setTriggerInfo now info)) state.strpool 0
  ⟨r.2.1, r.2.2⟩

lemma triggerSetInfo_cases (state : TriggersState) (call : SetCall) :
    triggerSetInfo state call = (fail, state) ∨ ∃ info, call.info = some info ∧ validateInfo (some info) ≠ fail ∧
      (triggerSetInfo state call).1
        = (state.triggers.process info.id (some (setTriggerInfo call.now info)) state.strpool 0).1 ∧
      setStep state call = updated state call.now info := by
  rw [setStep, triggerSetInfo]
  by_cases hv : validateInfo call.info = fail
  · exact .inl (if_pos hv)
  · rw [if_neg hv]
    cases hi : call.info with
    | none => exact .inl rfl
    | some info => exact .inr ⟨info, rfl, hi ▸ hv, rfl, rfl⟩

lemma updated_current (hr : Reachable state) (now : Int32) (info : TriggerInfo) :
    (current (updated state now info) info.id).value = info.value ∧
    (current (updated state now info) info.id).lastchange
      = (if (current state info.id).value ≠ info.value then now else (current state info.id).lastchange) ∧
    ∀ j, j ≠ info.id → current (updated state now info) j = current state j := by
  obtain ⟨elem, ht, helem, -⟩ := target_current hr info.id
  obtain ⟨-, -, hself, hother, -⟩ := ElemsHash.process_of_target ht (setTriggerInfo now info) state.strpool
  have hnew : current (updated state now info) info.id
      = (setTriggerInfo now info info.id elem state.strpool).2.1.data := by
    rw [current, stored, updated, hself]
    rfl
  refine ⟨?_, ?_, fun j hj => ?_⟩
  · rw [hnew, setTriggerInfo_value]
  · rw [hnew, setTriggerInfo_lastchange, helem]
  · rw [current, stored, updated, hother j hj, ← stored, ← current]

lemma updated_counted (hr : Reachable state) (now : Int32) (info : TriggerInfo) :
    ∃ pool, (updated state now info).strpool = some pool ∧ pool.Counts (holders (updated state now info)) := by
  obtain ⟨elem, ht, -, hle⟩ := target_current hr info.id
  obtain ⟨-, hpool, -, -, -⟩ := ElemsHash.process_of_target ht (setTriggerInfo now info) state.strpool
  have hcount := fun text => ElemsHash.countIf_process (holds text) ht (by rw [hr.create]; rfl)
    (setTriggerInfo now info) state.strpool
  obtain ⟨pool, hsome, hc⟩ := hr.consistent.counted
  have hbefore : PoolCounts state.strpool (fun text => holders state text - if holds text elem then 1 else 0)
      elem.data := by
    refine ⟨pool, hsome, hc.congr fun text => ?_⟩
    have := hle text
    simp only [holds, decide_eq_true_eq] at this ⊢
    omega
  obtain ⟨pool', hsome', hc'⟩ := setTriggerInfo_counts now info info.id elem state.strpool hbefore
  refine ⟨pool', hpool.trans hsome', hc'.congr fun text => ?_⟩
  have hafter := hcount text
  have := hle text
  simp only [holders, updated, holds, decide_eq_true_eq] at hafter this ⊢
  omega

lemma updated_reachable (hr : Reachable state) (now : Int32) {info : TriggerInfo}
    (hv : validateInfo (some info) ≠ fail) : Reachable (updated state now info) := by
  obtain ⟨elem, ht, -, -⟩ := target_current hr info.id
  obtain ⟨-, -, hself, hother, hcreate⟩ := ElemsHash.process_of_target ht (setTriggerInfo now info) state.strpool
  refine ⟨hcreate.trans hr.create, fun j trigger hj => ?_, updated_counted hr now info⟩
  by_cases hid : j = info.id
  · subst hid
    rw [stored, updated, hself] at hj
    cases hj
    exact setTriggerInfo_valid now info info.id elem state.strpool hv
  · rw [stored, updated, hother j hid] at hj
    exact hr.consistent.valid j trigger hj

lemma setStep_reachable (hr : Reachable state) (call : SetCall) : Reachable (setStep state call) := by
  rcases triggerSetInfo_cases state call with hrej | ⟨info, -, hv, -, heq⟩
  · rw [setStep, hrej]
    exact hr
  · rw [heq]
    exact updated_reachable hr call.now hv

lemma setStep_kept (hr : Reachable state) (past : List SetCall) (call : SetCall) :
    UpdateKept ⟨past, state, call, setStep state call⟩ := by
  rcases triggerSetInfo_cases state call with hrej | ⟨info, -, -, hret, heq⟩
  · have hsame : setStep state call = state := by rw [setStep, hrej]
    exact ⟨fun _ => hsame, fun id hne => absurd (by rw [hsame]) hne, fun id _ => by rw [hsame]⟩
  · obtain ⟨elem, ht, -, -⟩ := target_current hr info.id
    have hsucc := (ElemsHash.process_of_target ht (setTriggerInfo call.now info) state.strpool).1
    obtain ⟨hvalue, hlast, hother⟩ := updated_current hr call.now info
    refine ⟨fun hfail => ?_, fun id hne => ?_, fun id hsame => ?_⟩
    · rw [hret, hsucc] at hfail
      exact absurd hfail (by simp [setTriggerInfo, succeed, fail])
    · simp only [heq] at hne ⊢
      by_cases hid : id = info.id
      · subst hid
        rw [hvalue] at hne
        rw [hlast, if_pos (Ne.symm hne)]
      · exact absurd (by rw [hother id hid]) hne
    · simp only [heq] at hsame ⊢
      by_cases hid : id = info.id
      · subst hid
        rw [hvalue] at hsame
        rw [hlast, if_neg (not_not.mpr hsame.symm)]
      · rw [hother id hid]

lemma calls_reachable (hr : Reachable state) (calls : List SetCall) : Reachable (calls.foldl setStep state) := by
  induction calls generalizing state with
  | nil => exact hr
  | cons call calls ih => exact ih (setStep_reachable hr call)

lemma calls_kept (hr : Reachable state) (calls : List SetCall) :
    ∀ u ∈ transitions setStep state calls, UpdateKept u :=
  transitions_rule (fun _ s => Reachable s) (C := fun _ => True) hr
    (fun past _ call hi _ => ⟨setStep_reachable hi call, setStep_kept hi past call⟩) (fun _ _ => trivial)

end

lemma init_reachable (freeCb : Id → Elem StateTrigger → ℤ) : Reachable (triggersInit freeCb) :=
  ⟨rfl, ⟨fun _ _ h => absurd h (by simp [stored, triggersInit, ElemsHash.init, ElemsHash.lookup]),
    Strpool.init, rfl, Strpool.init_counts⟩⟩

theorem triggers_stay_consistent (freeCb : Id → Elem StateTrigger → ℤ) (requests : List Request) :
    Consistent (triggersInit freeCb) ∧
    ∀ t ∈ transitions step (triggersInit freeCb) requests,
      Consistent t.target ∧ t.target = t.event.calls.foldl setStep t.source ∧
      ∀ u ∈ transitions setStep t.source t.event.calls, UpdateKept u := by
  refine ⟨(init_reachable freeCb).consistent, ?_⟩
  refine transitions_rule (fun _ s => Reachable s) (C := fun _ => True) (init_reachable freeCb)
    (fun past s r hi _ => ?_) fun _ _ => trivial
  have hstep : Reachable (step s r) := by
    rw [step_eq]
    exact calls_reachable hi r.calls
  exact ⟨hstep, hstep.consistent, step_eq s r, calls_kept hi r.calls⟩

end Glaber.State.Triggers
