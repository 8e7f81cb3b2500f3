import Glaber.Algo.Vector
import Glaber.Services.Status
import Mathlib.Data.Multiset.AddSub

/-! One call of `db_update_services` (`service_manager.c`). -/

namespace Glaber.Services

open Glaber.Algo.Vector

structure Timespec where
  sec : ℤ
  ns : ℤ

def Timespec.before (a b : Timespec) : Bool := a.sec < b.sec ∨ a.sec = b.sec ∧ a.ns < b.ns

structure Problem where
  eventid : UInt64
  serviceProblemid : UInt64
  severity : ℤ
  ts : Timespec

/-- `zbx_services_diff_t`; the one flag is `ZBX_FLAG_SERVICE_RECALCULATE`. -/
structure Diff where
  serviceid : UInt64
  serviceProblems : List Problem
  serviceProblemsRecovered : List Problem
  recalculate : Bool

structure StatusUpdate where
  sourceid : UInt64
  status : ℤ
  clock : ℤ

structure ServiceUpdate (ι : Type) where
  service : ι
  oldStatus : ℤ
  ts : Timespec

structure Manager (ι : Type) where
  status : ι → ℤ
  serviceProblems : ι → List Problem
  serviceProblemsIndex : UInt64 → List ι

structure Work (ι : Type) extends Manager ι where
  serviceUpdates : List (ServiceUpdate ι)
  alarms : List StatusUpdate
  serviceProblemsNew : List Problem
  serviceProblemids : List UInt64

variable {ι : Type}

section

/-- What the problem loops of `db_update_services` work on: the problems of the service at hand, and the rest. -/
structure Collection (ι : Type) where
  serviceProblems : List Problem
  serviceProblemsIndex : UInt64 → List ι
  serviceProblemsNew : List Problem
  serviceProblemids : List UInt64

variable [DecidableEq ι] (s : ι)

def Work.collection (w : Work ι) : Collection ι :=
  ⟨w.serviceProblems s, w.serviceProblemsIndex, w.serviceProblemsNew, w.serviceProblemids⟩

def Work.putCollection (w : Work ι) (c : Collection ι) : Work ι :=
  { w with
    serviceProblems := Function.update w.serviceProblems s c.serviceProblems
    serviceProblemsIndex := c.serviceProblemsIndex
    serviceProblemsNew := c.serviceProblemsNew
    serviceProblemids := c.serviceProblemids }

def addServiceProblem (p : Problem) (c : Collection ι) : Collection ι :=
  { c with
    serviceProblemsIndex :=
      Function.update c.serviceProblemsIndex p.eventid (c.serviceProblemsIndex p.eventid ++ [s])
    serviceProblems := c.serviceProblems ++ [p] }

def removeServiceProblem (index : ℕ) (c : Collection ι) : Collection ι :=
  match c.serviceProblems[index]? with
  | none => c
  | some p =>
    { c with
      serviceProblemsIndex :=
        match (c.serviceProblemsIndex p.eventid).findIdx? (· = s) with
        | none => c.serviceProblemsIndex
        | some i =>
          Function.update c.serviceProblemsIndex p.eventid (removeNoorder (c.serviceProblemsIndex p.eventid) i)
      serviceProblems := removeNoorder c.serviceProblems index }

def dropServiceProblem (index : ℕ) (c : Collection ι) : Collection ι :=
  let dropped := c.serviceProblems[index]?.toList.map (·.serviceProblemid)
  removeServiceProblem s index { c with serviceProblemids := c.serviceProblemids ++ dropped }

/-- The loop of a recalculation, `n` being the problems left to visit: a problem that was not found again is
removed, one that was is no new problem. -/
def recalculateProblems : ℕ → ℕ → List Problem → Collection ι → List Problem × Collection ι
  | 0, _, found, c => (found, c)
  | n + 1, i, found, c =>
    match c.serviceProblems[i]? with
    | none => (found, c)
    | some p =>
      match found.findIdx? (·.eventid = p.eventid) with
      | none => recalculateProblems n i found (dropServiceProblem s i c)
      | some index => recalculateProblems n (i + 1) (removeNoorder found index) c

def addProblems (found : List Problem) (c : Collection ι) : Collection ι :=
  found.foldl (fun c p =>
    let c' := addServiceProblem s p c
    { c' with serviceProblemsNew := c'.serviceProblemsNew ++ [p] }) c

def recoverProblem (out : Timespec × Collection ι) (p : Problem) : Timespec × Collection ι :=
  match out.2.serviceProblems.findIdx? (·.eventid = p.eventid) with
  | none => out
  | some index => (if out.1.before p.ts then p.ts else out.1, dropServiceProblem s index out.2)

def collectProblems (diff : Diff) (c : Collection ι) : Timespec × Collection ι :=
  let out :=
    if diff.recalculate then recalculateProblems s c.serviceProblems.length 0 diff.serviceProblems c
    else (diff.serviceProblems, c)
  diff.serviceProblemsRecovered.foldl (recoverProblem s) (⟨0, 0⟩, addProblems s out.1 out.2)

end

def worstProblem (ts : Timespec) (problems : List Problem) : ℤ × Timespec :=
  problems.foldl (fun out p => if p.severity > out.1 then (p.severity, p.ts) else out) (statusOk, ts)

section

variable [DecidableEq ι] (t : Tree ι)

def updateService (w : Work ι) (s : ι) (status : ℤ) (ts : Timespec) : Work ι :=
  let found (u : ServiceUpdate ι) : Bool := (t.service u.service).serviceid = (t.service s).serviceid
  { w with
    serviceUpdates :=
      if w.serviceUpdates.any found then w.serviceUpdates.map fun u => if found u then { u with ts := ts } else u
      else w.serviceUpdates ++ [⟨s, w.status s, ts⟩]
    status := Function.update w.status s status }

def itsUpdatesAppend (w : Work ι) (sourceid : UInt64) (status clock : ℤ) : Work ι :=
  { w with alarms := w.alarms ++ [⟨sourceid, status, clock⟩] }

def storeStatus (ts : Timespec) (recalculate : Bool) (next : Work ι → ι → Option (Work ι)) (w : Work ι) (s : ι)
    (status : ℤ) : Option (Work ι) :=
  if w.status s ≠ status then
    let w' := itsUpdatesAppend (updateService t w s status ts) (t.service s).serviceid status ts.sec
    (t.service s).parents.foldlM next w'
  else if recalculate then (t.service s).parents.foldlM next w
  else some w

/-- `fuel` bounds the depth of the recursion. -/
def itsItserviceUpdateStatus (ts : Timespec) (recalculate : Bool) : ℕ → Work ι → ι → Option (Work ι)
  | 0, _, _ => none
  | fuel + 1, w, itservice =>
    storeStatus t ts recalculate (itsItserviceUpdateStatus ts recalculate fuel) w itservice (calcStatus t w.status itservice)

def updateServiceDiff (now : UInt64 → Timespec) (fuel : ℕ) (w : Work ι) (diff : Diff) : Option (Work ι) :=
  match t.search diff.serviceid with
  | none => some w
  | some s =>
    let collected := collectProblems s diff (w.collection s)
    let worst := worstProblem collected.1 collected.2.serviceProblems
    let ts := if 0 = worst.2.sec then now diff.serviceid else worst.2
    let next := itsItserviceUpdateStatus t ts diff.recalculate fuel
    storeStatus t ts diff.recalculate next (w.putCollection s collected.2) s worst.1

def dbUpdateServices (now : UInt64 → Timespec) (fuel : ℕ) (manager : Manager ι) (diffs : List Diff) : Option (Work ι) :=
  diffs.foldlM (updateServiceDiff t now fuel)
    { manager with serviceUpdates := [], alarms := [], serviceProblemsNew := [], serviceProblemids := [] }

def itsWriteStatus (t : Tree ι) (w : Work ι) : List StatusUpdate :=
  let updates := w.serviceUpdates.filter fun u => u.oldStatus ≠ w.status u.service
  (updates.map fun u => ⟨(t.service u.service).serviceid, w.status u.service, 0⟩).mergeSort
    fun a b => a.sourceid ≤ b.sourceid

end

open Glaber.Algo.Vector Glaber.Lib.Extremes

def eventids (problems : List Problem) : Multiset UInt64 := (problems.map (·.eventid) : List UInt64)

def openEvents (diff : Diff) (problems : List Problem) : Multiset UInt64 :=
  (if diff.recalculate then 0 else eventids problems) + eventids diff.serviceProblems -
    eventids diff.serviceProblemsRecovered

@[simp] lemma eventids_append (ps qs : List Problem) : eventids (ps ++ qs) = eventids ps + eventids qs := by
  simp [eventids]

@[simp] lemma eventids_cons (p : Problem) (ps : List Problem) : eventids (p :: ps) = p.eventid ::ₘ eventids ps := rfl

lemma eventids_perm {ps qs : List Problem} (h : ps.Perm qs) : eventids ps = eventids qs :=
  Multiset.coe_eq_coe.mpr (h.map _)

lemma removeNoorder_pick {ps : List Problem} {index : ℕ} {p : Problem} (h : ps[index]? = some p) :
    (p :: removeNoorder ps index).Perm ps := by
  obtain ⟨hlt, rfl⟩ := List.getElem?_eq_some_iff.mp h
  exact ((removeNoorder_perm ps hlt).cons _).trans (List.getElem_cons_eraseIdx_perm hlt)

lemma eventids_removeNoorder {ps : List Problem} {index : ℕ} {p : Problem} (h : ps[index]? = some p) :
    eventids (removeNoorder ps index) = (eventids ps).erase p.eventid := by
  rw [← eventids_perm (removeNoorder_pick h), eventids_cons, Multiset.erase_cons_head]

lemma getElem?_of_findIdx? {ps : List Problem} {eventid : UInt64} {index : ℕ}
    (h : ps.findIdx? (·.eventid = eventid) = some index) : ∃ p, ps[index]? = some p ∧ p.eventid = eventid := by
  obtain ⟨hlt, hp, -⟩ := List.findIdx?_eq_some_iff_getElem.mp h
  exact ⟨ps[index], List.getElem?_eq_getElem hlt, of_decide_eq_true hp⟩

lemma not_mem_of_findIdx? {ps : List Problem} {eventid : UInt64} (h : ps.findIdx? (·.eventid = eventid) = none) :
    eventid ∉ eventids ps := by
  intro hmem
  obtain ⟨p, hp, rfl⟩ := List.mem_map.mp (Multiset.mem_coe.mp hmem)
  simpa using List.findIdx?_eq_none_iff.mp h p hp

lemma take_removeNoorder {ps : List Problem} {index : ℕ} (h : index < ps.length) :
    (removeNoorder ps index).take index = ps.take index := by
  induction ps using List.reverseRecOn with
  | nil => cases h
  | append_singleton ps last _ =>
    rcases Nat.lt_or_ge index ps.length with hlt | hge
    · rw [removeNoorder_concat ps last hlt, List.take_set_of_le le_rfl, List.take_append_of_le_length hlt.le]
    · obtain rfl : index = ps.length := by
        simp only [List.length_append, List.length_singleton] at h
        omega
      rw [removeNoorder_concat_length, List.take_append_of_le_length le_rfl]

lemma length_removeNoorder {ps : List Problem} {index : ℕ} (h : index < ps.length) :
    (removeNoorder ps index).length + 1 = ps.length :=
  (removeNoorder_pick (List.getElem?_eq_getElem h)).length_eq

section

variable {ι : Type} [DecidableEq ι] (s : ι)

lemma dropServiceProblem_problems {c : Collection ι} {index : ℕ} {p : Problem}
    (h : c.serviceProblems[index]? = some p) :
    (dropServiceProblem s index c).serviceProblems = removeNoorder c.serviceProblems index := by
  rw [dropServiceProblem, removeServiceProblem]
  simp only [h]

omit [DecidableEq ι] in
lemma addProblems_problems (found : List Problem) (c : Collection ι) :
    (addProblems s found c).serviceProblems = c.serviceProblems ++ found := by
  induction found generalizing c with
  | nil => simp [addProblems]
  | cons p found ih =>
    rw [addProblems, List.foldl_cons]
    refine (ih _).trans ?_
    simp [addServiceProblem]

lemma recalculateProblems_events (n i : ℕ) (found : List Problem) (c : Collection ι)
    (hn : i + n = c.serviceProblems.length) :
    eventids (recalculateProblems s n i found c).2.serviceProblems + eventids (recalculateProblems s n i found c).1 =
      eventids (c.serviceProblems.take i) + eventids found := by
  induction n generalizing i found c with
  | zero =>
    rw [recalculateProblems, List.take_of_length_le (by omega)]
  | succ n ih =>
    have hlt : i < c.serviceProblems.length := by omega
    have hget := List.getElem?_eq_getElem hlt
    rw [recalculateProblems, hget]
    dsimp only
    cases hfind : found.findIdx? (·.eventid = c.serviceProblems[i].eventid) with
    | none =>
      dsimp only
      rw [ih, dropServiceProblem_problems s hget]
      · rw [take_removeNoorder hlt]
      · rw [dropServiceProblem_problems s hget]
        have := length_removeNoorder hlt
        omega
    | some index =>
      obtain ⟨p, hp, hevent⟩ := getElem?_of_findIdx? hfind
      dsimp only
      rw [ih _ _ _ (by omega), eventids_removeNoorder hp, List.take_add_one, hget, eventids_append, hevent, add_assoc]
      have hmem : c.serviceProblems[i].eventid ∈ eventids found := by
        rw [← hevent]
        exact Multiset.mem_coe.mpr (List.mem_map_of_mem (List.mem_of_getElem? hp))
      congr 1
      exact Multiset.cons_erase hmem

lemma recoverProblem_events (out : Timespec × Collection ι) (p : Problem) :
    eventids (recoverProblem s out p).2.serviceProblems = (eventids out.2.serviceProblems).erase p.eventid := by
  rw [recoverProblem]
  cases hfind : out.2.serviceProblems.findIdx? (·.eventid = p.eventid) with
  | none => exact (Multiset.erase_of_notMem (not_mem_of_findIdx? hfind)).symm
  | some index =>
    obtain ⟨q, hq, hevent⟩ := getElem?_of_findIdx? hfind
    dsimp only
    rw [dropServiceProblem_problems s hq, eventids_removeNoorder hq, hevent]

lemma recoverProblems_events (recovered : List Problem) (out : Timespec × Collection ι) :
    eventids (recovered.foldl (recoverProblem s) out).2.serviceProblems =
      eventids out.2.serviceProblems - eventids recovered := by
  induction recovered generalizing out with
  | nil => simp [eventids]
  | cons p recovered ih =>
    rw [List.foldl_cons, ih, recoverProblem_events, eventids_cons, Multiset.sub_cons]

theorem collectProblems_events (diff : Diff) (c : Collection ι) :
    eventids (collectProblems s diff c).2.serviceProblems = openEvents diff c.serviceProblems := by
  rw [collectProblems, openEvents]
  split_ifs
  · have h := recalculateProblems_events s c.serviceProblems.length 0 diff.serviceProblems c (by omega)
    rw [recoverProblems_events, addProblems_problems, eventids_append, h]
    rfl
  · rw [recoverProblems_events, addProblems_problems, eventids_append]

end

section

variable {ι : Type} [DecidableEq ι] (s : ι)

def SameProblems (c c' : Collection ι) : Prop := c.serviceProblems = c'.serviceProblems

lemma SameProblems.drop {c c' : Collection ι} (h : SameProblems c c') (index : ℕ) :
    SameProblems (dropServiceProblem s index c) (dropServiceProblem s index c') := by
  obtain ⟨problems, _, _, _⟩ := c
  obtain ⟨problems', _, _, _⟩ := c'
  obtain rfl : problems = problems' := h
  rw [SameProblems, dropServiceProblem, dropServiceProblem, removeServiceProblem, removeServiceProblem]
  cases problems[index]? with
  | none => rfl
  | some p => rfl

lemma SameProblems.recalculate {c c' : Collection ι} (h : SameProblems c c') (n i : ℕ) (found : List Problem) :
    (recalculateProblems s n i found c).1 = (recalculateProblems s n i found c').1 ∧
      SameProblems (recalculateProblems s n i found c).2 (recalculateProblems s n i found c').2 := by
  induction n generalizing i found c c' with
  | zero => exact ⟨rfl, h⟩
  | succ n ih =>
    rw [recalculateProblems, recalculateProblems, ← h]
    cases c.serviceProblems[i]? with
    | none => exact ⟨rfl, h⟩
    | some p =>
      dsimp only
      cases found.findIdx? (·.eventid = p.eventid) with
      | none => exact ih (h.drop s i) i found
      | some index => exact ih h (i + 1) _

lemma SameProblems.recover {out out' : Timespec × Collection ι} (h : SameProblems out.2 out'.2) (p : Problem) :
    SameProblems (recoverProblem s out p).2 (recoverProblem s out' p).2 := by
  rw [recoverProblem, recoverProblem, ← h]
  cases out.2.serviceProblems.findIdx? (·.eventid = p.eventid) with
  | none => exact h
  | some index => exact h.drop s index

lemma SameProblems.recoverAll {out out' : Timespec × Collection ι} (h : SameProblems out.2 out'.2)
    (recovered : List Problem) :
    SameProblems (recovered.foldl (recoverProblem s) out).2 (recovered.foldl (recoverProblem s) out').2 := by
  induction recovered generalizing out out' with
  | nil => exact h
  | cons p recovered ih => exact ih (SameProblems.recover s h p)

def openProblems (diff : Diff) (problems : List Problem) : List Problem :=
  (collectProblems s diff ⟨problems, fun _ => [], [], []⟩).2.serviceProblems

lemma collectProblems_problems (diff : Diff) (c : Collection ι) :
    (collectProblems s diff c).2.serviceProblems = openProblems s diff c.serviceProblems := by
  have h : SameProblems c ⟨c.serviceProblems, fun _ => [], [], []⟩ := rfl
  rw [openProblems, collectProblems, collectProblems]
  apply SameProblems.recoverAll
  rw [SameProblems, addProblems_problems, addProblems_problems]
  cases diff.recalculate with
  | true =>
    obtain ⟨hfound, hsame⟩ := h.recalculate s c.serviceProblems.length 0 diff.serviceProblems
    exact congrArg₂ (· ++ ·) hsame hfound
  | false => rfl

lemma openProblems_events (diff : Diff) (problems : List Problem) :
    eventids (openProblems s diff problems) = openEvents diff problems := collectProblems_events s diff _

end

lemma worstProblem_isGreatest (ts : Timespec) (problems : List Problem) :
    IsGreatest {x | x = statusOk ∨ ∃ p ∈ problems, x = p.severity} (worstProblem ts problems).1 := by
  have hfst : ∀ out : ℤ × Timespec,
      (problems.foldl (fun out p => if p.severity > out.1 then (p.severity, p.ts) else out) out).1 =
      (problems.map (·.severity)).foldl max out.1 := by
    intro out
    induction problems generalizing out with
    | nil => rfl
    | cons p problems ih =>
      rw [List.foldl_cons, ih, List.map_cons, List.foldl_cons, max_def_lt]
      split_ifs <;> rfl
  have hset : {x | x = statusOk ∨ ∃ p ∈ problems, x = p.severity} = {x | x ∈ statusOk :: problems.map (·.severity)} := by
    ext x
    simp only [Set.mem_ofPred_eq, List.mem_cons, List.mem_map, eq_comm (a := x)]
  rw [worstProblem, hfst, hset]
  exact isGreatest_foldl_max statusOk (problems.map (·.severity))

end Glaber.Services
