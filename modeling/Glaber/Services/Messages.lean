import Glaber.Services.Recalculate
import Glaber.Services.RootCauseFound

/-! The messages of the service manager (`service_manager.c`). -/

namespace Glaber.Services

open Glaber.Lib.Dependency Glaber.Lib.Runs

abbrev Tags := List (List Char × List Char)

structure ServiceProblemTag where
  tag : List Char
  value : List Char
  like : Bool
deriving DecidableEq

def ServiceProblemTag.finds (p : ServiceProblemTag) (tag : List Char × List Char) : Bool :=
  p.tag = tag.1 ∧ if p.like then p.value <:+: tag.2 else p.value = tag.2

def triggerValueOk : ℤ := 0

def triggerValueProblem : ℤ := 1

structure Event where
  eventid : UInt64
  value : ℤ
  severity : ℤ
  ts : Timespec
  tags : Tags

/-- `zbx_service_manager_t`, less what changes with the configuration only; the diffs are found by their service. -/
structure EventState (ι : Type) extends Manager ι where
  problemEvents : List Event
  recoveryEvents : List UInt64
  deletedEventids : List (UInt64 × ℤ)
  currentEventid : ι → ℕ → UInt64
  serviceDiffs : ι → Option Diff

def Diff.append (recovered : Bool) (p : Problem) (diff : Diff) : Diff :=
  if recovered then { diff with serviceProblemsRecovered := diff.serviceProblemsRecovered ++ [p] }
  else { diff with serviceProblems := diff.serviceProblems ++ [p] }

section

variable {ι : Type} [DecidableEq ι] (t : Tree ι) (problemTags : ι → List ServiceProblemTag) (services : List ι)

def insertDiff (recalculate : Bool) (diffs : ι → Option Diff) (s : ι) : Diff :=
  (diffs s).getD ⟨(t.service s).serviceid, [], [], recalculate⟩

def appendDiff (recalculate recovered : Bool) (p : Problem) (diffs : ι → Option Diff) (s : ι) : ι → Option Diff :=
  Function.update diffs s (some ((insertDiff t recalculate diffs s).append recovered p))

def Event.problem (event : Event) : Problem := ⟨event.eventid, 0, event.severity, event.ts⟩

@[simp] lemma Event.problem_eventid (event : Event) : event.problem.eventid = event.eventid := rfl

def markTags (event : Event) (current : ι → ℕ → UInt64) : ι → ℕ → UInt64 := fun s j =>
  if ((problemTags s)[j]?).any fun p => event.tags.any p.finds then event.eventid else current s j

/-- `services` are all services in the order of their pointers. -/
def matched (event : Event) (current : ι → ℕ → UInt64) : List ι :=
  (services.filter fun s => (problemTags s).any fun p => event.tags.any p.finds).filter fun s =>
    (List.range (problemTags s).length).all fun j => current s j = event.eventid

def matchEventToServiceProblemTags (recalculate : Bool) (st : EventState ι) (event : Event) : EventState ι :=
  let current := markTags problemTags event st.currentEventid
  { st with
    currentEventid := current
    serviceDiffs :=
      (matched problemTags services event current).foldl (appendDiff t recalculate false event.problem) st.serviceDiffs }

def recoverServicesProblem (st : EventState ι) (event : Event) : EventState ι :=
  { st with
    serviceDiffs :=
      (st.serviceProblemsIndex event.eventid).foldl (appendDiff t false true event.problem) st.serviceDiffs }

def closeProblem (st : EventState ι) (event : Event) : EventState ι :=
  let st' := recoverServicesProblem t st event
  { st' with problemEvents := st'.problemEvents.filter (·.eventid ≠ event.eventid) }

def processEvent (st : EventState ι) (event : Event) : EventState ι :=
  if event.eventid ∈ st.deletedEventids.map Prod.fst then st
  else if event.value = triggerValueOk then
    if event.eventid ∈ st.problemEvents.map (·.eventid) then closeProblem t st event
    else { st with recoveryEvents := st.recoveryEvents.insert event.eventid }
  else if event.value = triggerValueProblem then
    if event.eventid ∈ st.problemEvents.map (·.eventid) then st
    else if event.eventid ∈ st.recoveryEvents then { st with recoveryEvents := st.recoveryEvents.erase event.eventid }
    else
      matchEventToServiceProblemTags t problemTags services false
        { st with problemEvents := st.problemEvents ++ [event] } event
  else st

def insertDeleted (ts : Timespec) (deleted : List (UInt64 × ℤ)) (eventid : UInt64) : List (UInt64 × ℤ) :=
  if eventid ∈ deleted.map Prod.fst then deleted else deleted ++ [(eventid, ts.sec)]

def processDeletedEventid (ts : Timespec) (st : EventState ι) (eventid : UInt64) : EventState ι :=
  let st' := { st with deletedEventids := insertDeleted ts st.deletedEventids eventid }
  match st.problemEvents.find? (·.eventid = eventid) with
  | none => st'
  | some event => closeProblem t st' { event with ts := ts }

def addLeafDiff (diffs : ι → Option Diff) (s : ι) : ι → Option Diff :=
  if (t.service s).children ≠ [] then diffs else Function.update diffs s (some (insertDiff t true diffs s))

/-- The orders in which the hashsets of the diffs, of the open events and of the services are gone over. -/
structure Walks (ι : Type) where
  diffs : (ι → Option Diff) → List ι
  events : List Event → List Event
  services : List ι
  diffs_nodup : ∀ d, (diffs d).Nodup
  mem_diffs : ∀ d s, s ∈ diffs d
  events_perm : ∀ es, (events es).Perm es
  mem_services : ∀ s, s ∈ services

variable (walks : Walks ι)

def recalculateServices (st : EventState ι) : EventState ι :=
  let st' := (walks.events st.problemEvents).foldl (matchEventToServiceProblemTags t problemTags services true) st
  { st' with serviceDiffs := walks.services.foldl (addLeafDiff t) st'.serviceDiffs }

def problemCleanupAge : ℤ := 7200

inductive Message
  | problems (events : List Event)
  | problemsDelete (ts : Timespec) (eventids : List UInt64)
  | recalculate
  | cleanup (now : ℤ)

variable (now : UInt64 → Timespec) (fuel : ℕ)

def flush (st : EventState ι) : Option (EventState ι) :=
  (dbUpdateServices t now fuel st.toManager ((walks.diffs st.serviceDiffs).filterMap st.serviceDiffs)).map fun w =>
    { st with toManager := w.toManager, serviceDiffs := fun _ => none }

def handle (st : EventState ι) : Message → Option (EventState ι)
  | .problems events => flush t walks now fuel (events.foldl (processEvent t problemTags services) st)
  | .problemsDelete ts eventids => flush t walks now fuel (eventids.foldl (processDeletedEventid t ts) st)
  | .recalculate => flush t walks now fuel (recalculateServices t problemTags services walks st)
  | .cleanup time =>
    some { st with deletedEventids := st.deletedEventids.filter fun pair => ¬ problemCleanupAge < time - pair.2 }

end

variable {ι : Type} {t : Tree ι} {problemTags : ι → List ServiceProblemTag} {services : List ι} {s u : ι}

section

def Diff.part (recovered : Bool) (diff : Diff) : List Problem :=
  if recovered then diff.serviceProblemsRecovered else diff.serviceProblems

lemma Diff.append_eq (recovered : Bool) (p : Problem) (diff : Diff) :
    (diff.append recovered p).serviceid = diff.serviceid ∧ (diff.append recovered p).recalculate = diff.recalculate := by
  cases recovered <;> exact ⟨rfl, rfl⟩

lemma Diff.part_append (b recovered : Bool) (p : Problem) (diff : Diff) :
    eventids ((diff.append recovered p).part b) = eventids (diff.part b) + if b = recovered then {p.eventid} else 0 := by
  cases b <;> cases recovered <;> simp only [Diff.append, Diff.part, eventids_append, add_zero, if_true, if_false,
    Bool.false_eq_true, Bool.true_eq_false] <;> rfl

lemma Diff.for_iff {diff : Diff} : diff.For t s ↔ diff.serviceid = (t.service s).serviceid :=
  t.search_eq_some.trans eq_comm

def gathered (recovered : Bool) (diffs : ι → Option Diff) (s : ι) : Multiset UInt64 :=
  eventids (((diffs s).map (·.part recovered)).getD [])

def Batch (t : Tree ι) (recalculate : Bool) (diffs : ι → Option Diff) : Prop :=
  ∀ s diff, diffs s = some diff →
    diff.serviceid = (t.service s).serviceid ∧ diff.recalculate = recalculate ∧ ¬ HasChildren t s

lemma Batch.none (recalculate : Bool) : Batch t recalculate fun _ => none := fun _ _ h => by cases h

variable {recalculate : Bool} {diffs : ι → Option Diff}

lemma Batch.insert (h : Batch t recalculate diffs) (s : ι) (b : Bool) :
    (insertDiff t recalculate diffs s).serviceid = (t.service s).serviceid ∧
      (insertDiff t recalculate diffs s).recalculate = recalculate ∧
        eventids ((insertDiff t recalculate diffs s).part b) = gathered b diffs s := by
  rw [insertDiff, gathered]
  cases hs : diffs s with
  | none => cases b <;> exact ⟨rfl, rfl, rfl⟩
  | some diff => exact ⟨(h s diff hs).1, (h s diff hs).2.1, rfl⟩

variable [DecidableEq ι]

lemma Batch.update (h : Batch t recalculate diffs) (hs : ¬ HasChildren t s) {diff : Diff}
    (hid : diff.serviceid = (t.service s).serviceid) (hflag : diff.recalculate = recalculate) :
    Batch t recalculate (Function.update diffs s (some diff)) := by
  intro u d hd
  rw [Function.update_apply] at hd
  split_ifs at hd with hu
  · cases hd
    rw [hu]
    exact ⟨hid, hflag, hs⟩
  · exact h u d hd

lemma Batch.append (h : Batch t recalculate diffs) (hs : ¬ HasChildren t s) (recovered : Bool) (p : Problem) :
    Batch t recalculate (appendDiff t recalculate recovered p diffs s) ∧
      ∀ b u, gathered b (appendDiff t recalculate recovered p diffs s) u =
        gathered b diffs u + if b = recovered ∧ s = u then {p.eventid} else 0 := by
  obtain ⟨hid, hflag, -⟩ := h.insert s true
  obtain ⟨hid', hflag'⟩ := (insertDiff t recalculate diffs s).append_eq recovered p
  refine ⟨h.update hs (hid'.trans hid) (hflag'.trans hflag), fun b u => ?_⟩
  rw [gathered, appendDiff, Function.update_apply]
  by_cases hu : u = s
  · subst hu
    rw [if_pos rfl, Option.map_some, Option.getD_some, Diff.part_append, (h.insert u b).2.2]
    simp
  · rw [if_neg hu, if_neg fun h => hu h.2.symm, add_zero]
    rfl

lemma Batch.appendAll (h : Batch t recalculate diffs) (recovered : Bool)
    (p : Problem) {ss : List ι} (hss : ∀ s ∈ ss, ¬ HasChildren t s) :
    Batch t recalculate (ss.foldl (appendDiff t recalculate recovered p) diffs) ∧
      ∀ b u, gathered b (ss.foldl (appendDiff t recalculate recovered p) diffs) u =
        gathered b diffs u + if b = recovered then ss.count u • {p.eventid} else 0 := by
  induction ss generalizing diffs with
  | nil => exact ⟨h, fun b u => by simp⟩
  | cons s ss ih =>
    obtain ⟨hs, hss⟩ := List.forall_mem_cons.mp hss
    obtain ⟨happend, hone⟩ := h.append hs recovered p
    obtain ⟨hbatch, hgathered⟩ := ih happend hss
    refine ⟨hbatch, fun b u => ?_⟩
    rw [List.foldl_cons, hgathered, hone, List.count_cons, add_assoc]
    congr 1
    by_cases hb : b = recovered
    · by_cases hu : s = u
      · simp [hb, hu, add_nsmul, add_comm]
      · simp [hb, hu]
    · simp [hb]

lemma Batch.addLeafDiffs (h : Batch t true diffs) (ss : List ι) :
    Batch t true (ss.foldl (addLeafDiff t) diffs) ∧
      (∀ b u, gathered b (ss.foldl (addLeafDiff t) diffs) u = gathered b diffs u) ∧
        ∀ u, ¬ HasChildren t u → (u ∈ ss ∨ (diffs u).isSome) → (ss.foldl (addLeafDiff t) diffs u).isSome := by
  induction ss generalizing diffs with
  | nil => exact ⟨h, fun _ _ => rfl, fun u _ hu => hu.resolve_left List.not_mem_nil⟩
  | cons s ss ih =>
    rw [List.foldl_cons, addLeafDiff]
    split_ifs with hs
    · obtain ⟨hbatch, hgathered, hfound⟩ := ih h
      refine ⟨hbatch, hgathered, fun u hu hor => hfound u hu (hor.imp_left fun hmem => ?_)⟩
      exact (List.mem_cons.mp hmem).resolve_left fun hus => hu (hus ▸ hs)
    · obtain ⟨hid, hflag, -⟩ := h.insert s true
      obtain ⟨hbatch, hgathered, hfound⟩ := ih (h.update hs hid hflag)
      refine ⟨hbatch, fun b u => (hgathered b u).trans ?_, fun u hu hor => hfound u hu ?_⟩
      · rw [gathered, Function.update_apply]
        split_ifs with hus
        · rw [hus]
          exact (h.insert s b).2.2
        · rfl
      · rw [Function.update_apply]
        by_cases hus : u = s
        · exact .inr (by rw [if_pos hus]; rfl)
        · rw [if_neg hus]
          exact hor.imp_left fun hmem => (List.mem_cons.mp hmem).resolve_left hus

variable {now : UInt64 → Timespec} {fuel : ℕ}

structure Flushed (t : Tree ι) (recalculate : Bool) (manager : Manager ι) (diffs : ι → Option Diff) (w : Work ι) :
    Prop where
  events : ∀ s, eventids (w.serviceProblems s) =
    (if recalculate then 0 else eventids (manager.serviceProblems s)) + gathered false diffs s - gathered true diffs s
  consistent : Consistent t w.status w.serviceProblems
  indexed : Indexed w.serviceProblems w.serviceProblemsIndex

lemma Batch.flushed [Finite ι] (hacyclic : Acyclic (IsChild t)) (h : Batch t recalculate diffs) {walk : List ι}
    (hwalk : walk.Nodup ∧ ∀ s, s ∈ walk) {manager : Manager ι}
    (hindexed : Indexed manager.serviceProblems manager.serviceProblemsIndex)
    (hinner : ∀ s, HasChildren t s → manager.serviceProblems s = [])
    (hold : recalculate = false → Consistent t manager.status manager.serviceProblems)
    (hall : recalculate = true → ∀ s, ¬ HasChildren t s → (diffs s).isSome) {w : Work ι}
    (hrun : dbUpdateServices t now fuel manager (walk.filterMap diffs) = some w) : Flushed t recalculate manager diffs w := by
  have hmem : ∀ diff ∈ walk.filterMap diffs, ∀ s, diff.For t s → diffs s = some diff := by
    intro diff hdiff s hfor
    obtain ⟨u, -, hu⟩ := List.mem_filterMap.mp hdiff
    rwa [t.serviceid_inj ((Diff.for_iff.mp hfor).symm.trans (h u diff hu).1)]
  have hdistinct : ((walk.filterMap diffs).map (·.serviceid)).Nodup := by
    rw [List.map_filterMap]
    refine hwalk.1.filterMap fun s u id hs hu => ?_
    obtain ⟨d, hd, rfl⟩ := Option.map_eq_some_iff.mp hs
    obtain ⟨d', hd', hid⟩ := Option.map_eq_some_iff.mp hu
    exact t.serviceid_inj ((h s d hd).1.symm.trans (hid.symm.trans (h u d' hd').1))
  have hfound : ∀ s diff, diffs s = some diff → diff ∈ walk.filterMap diffs ∧ diff.For t s :=
    fun s diff hs => ⟨List.mem_filterMap.mpr ⟨s, hwalk.2 s, hs⟩, Diff.for_iff.mpr (h s diff hs).1⟩
  have hbrought := dbUpdateServices_brought hacyclic
    (fun diff hdiff s hfor => (h s diff (hmem diff hdiff s hfor)).2.2) hrun
  have hleaf : recalculate = true → ∀ s, ¬ HasChildren t s →
      ∃ diff ∈ walk.filterMap diffs, diff.recalculate ∧ diff.For t s := by
    intro hr s hs
    obtain ⟨diff, hdiff⟩ := Option.isSome_iff_exists.mp (hall hr s hs)
    exact ⟨diff, (hfound s diff hdiff).1, (h s diff hdiff).2.1.trans hr, (hfound s diff hdiff).2⟩
  constructor
  · intro s
    rw [hbrought.problems s, gathered, gathered]
    cases hs : diffs s with
    | some diff =>
      rw [filter_for hdistinct (hfound s diff hs).1 (hfound s diff hs).2, List.foldl_cons, List.foldl_nil, openProblems_events,
        openEvents, (h s diff hs).2.1]
      rfl
    | none =>
      have hnil : (walk.filterMap diffs).filter (·.For t s) = [] := by
        refine List.filter_eq_nil_iff.mpr fun diff hdiff hfor => ?_
        rw [hmem diff hdiff s (of_decide_eq_true hfor)] at hs
        cases hs
      rw [hnil, List.foldl_nil]
      cases recalculate with
      | false => simp [eventids]
      | true =>
        by_cases hchildren : HasChildren t s
        · rw [hinner s hchildren]
          rfl
        · have hsome := hall rfl s hchildren
          rw [hs] at hsome
          cases hsome
  · constructor
    · intro s hs
      apply hbrought.leaf s (not_not.mpr hs)
      cases recalculate with
      | false => exact .inl ((hold rfl).leaf s hs)
      | true =>
        obtain ⟨diff, hdiff, -, hfor⟩ := hleaf rfl s (not_not.mpr hs)
        exact .inr ⟨diff, hdiff, hfor⟩
    · intro s hs
      apply hbrought.inner s hs
      cases recalculate with
      | false => exact .inl ((hold rfl).inner s hs)
      | true =>
        obtain ⟨leaf, hnone, hbelow⟩ := exists_leaf_below hacyclic s
        obtain ⟨diff, hdiff, hflag, hfor⟩ := hleaf rfl leaf hnone
        refine .inr ⟨diff, hdiff, hflag, leaf, hfor, ?_⟩
        rcases Relation.reflTransGen_iff_eq_or_transGen.mp hbelow with rfl | hbelow
        · exact absurd hs hnone
        · exact hbelow
  · exact dbUpdateServices_indexed hindexed hrun

end

section

/-- A service is affected by the events that have a tag for each of its problem tags, of which it has at least one. -/
def matchesTags (problemTags : ι → List ServiceProblemTag) (tags : Tags) (s : ι) : Bool :=
  (problemTags s).any (fun p => tags.any p.finds) && (problemTags s).all fun p => tags.any p.finds

def matching (problemTags : ι → List ServiceProblemTag) (events : List Event) (s : ι) : Multiset UInt64 :=
  ((events.filter fun event => matchesTags problemTags event.tags s).map (·.eventid) : List UInt64)

def Marked (problemTags : ι → List ServiceProblemTag) (tagsOf : UInt64 → Tags)
    (current : ι → ℕ → UInt64) : Prop :=
  ∀ s j p, (problemTags s)[j]? = some p → current s j ≠ 0 → (tagsOf (current s j)).any p.finds

def Event.Valid (tagsOf : UInt64 → Tags) (event : Event) : Prop :=
  event.eventid ≠ 0 ∧ event.tags = tagsOf event.eventid

variable {tagsOf : UInt64 → Tags} {event : Event} {current : ι → ℕ → UInt64}

lemma Marked.mark (h : Marked problemTags tagsOf current) (hevent : event.Valid tagsOf) :
    Marked problemTags tagsOf (markTags problemTags event current) := by
  intro s j p hp hne
  rw [markTags, hp, Option.any_some] at hne ⊢
  split_ifs at hne ⊢ with hfinds
  · rwa [← hevent.2]
  · exact h s j p hp hne

lemma Marked.matched_eq (h : Marked problemTags tagsOf current) (hevent : event.Valid tagsOf) (services : List ι) :
    matched problemTags services event (markTags problemTags event current) =
      services.filter (matchesTags problemTags event.tags) := by
  rw [matched, List.filter_filter]
  refine List.filter_congr fun s _ => ?_
  rw [matchesTags, Bool.and_comm]
  congr 1
  rw [Bool.eq_iff_iff, List.all_eq_true, List.all_eq_true]
  constructor
  · intro hall p hp
    obtain ⟨j, hj, rfl⟩ := List.getElem_of_mem hp
    have hget := List.getElem?_eq_getElem hj
    have hcurrent := of_decide_eq_true (hall j (List.mem_range.mpr hj))
    rw [hevent.2, ← hcurrent]
    apply (h.mark hevent) s j _ hget
    rw [hcurrent]
    exact hevent.1
  · intro hall j hj
    have hj := List.mem_range.mp hj
    rw [markTags, List.getElem?_eq_getElem hj, Option.any_some, if_pos (hall _ (List.getElem_mem hj))]
    exact decide_eq_true rfl

lemma matching_inner (hleaf : ∀ s, problemTags s ≠ [] → ¬ HasChildren t s) (events : List Event) (hs : HasChildren t s) :
    matching problemTags events s = 0 := by
  have hnil : problemTags s = [] := by
    by_contra hne
    exact hleaf s hne hs
  have hno : ∀ event ∈ events, ¬ matchesTags problemTags event.tags s := by
    intro event _
    simp [matchesTags, hnil]
  rw [matching, List.filter_eq_nil_iff.mpr hno]
  rfl

lemma matching_concat (events : List Event) (event : Event) (s : ι) : matching problemTags (events ++ [event]) s =
    matching problemTags events s + if matchesTags problemTags event.tags s then {event.eventid} else 0 := by
  rw [matching, List.filter_append, List.map_append, ← Multiset.coe_add]
  congr 1
  rw [List.filter_singleton]
  cases matchesTags problemTags event.tags s <;> rfl

lemma matching_perm {events events' : List Event} (h : events.Perm events') (s : ι) :
    matching problemTags events s = matching problemTags events' s :=
  Multiset.coe_eq_coe.mpr ((h.filter _).map _)

lemma count_matching_close (events : List Event) (closed : Event) (s : ι) (id : UInt64) :
    (matching problemTags (events.filter (·.eventid ≠ closed.eventid)) s).count id =
      if id = closed.eventid then 0 else (matching problemTags events s).count id := by
  rw [matching, matching, Multiset.coe_count, Multiset.coe_count, List.filter_filter]
  split_ifs with hid
  · apply List.count_eq_zero.mpr
    intro hmem
    obtain ⟨event, hevent, rfl⟩ := List.mem_map.mp hmem
    have hkept := (List.mem_filter.mp hevent).2
    simp [hid] at hkept
  · rw [List.count_eq_countP, List.count_eq_countP, List.countP_map, List.countP_map, List.countP_filter, List.countP_filter]
    refine List.countP_congr fun event _ => ?_
    simp only [Function.comp_apply, beq_iff_eq, Bool.and_eq_true, decide_eq_true_eq]
    constructor
    · rintro ⟨rfl, hmatch, -⟩
      exact ⟨rfl, hmatch⟩
    · rintro ⟨rfl, hmatch⟩
      exact ⟨rfl, hmatch, hid⟩

end

section

variable [DecidableEq ι]

section

variable (t : Tree ι) (problemTags : ι → List ServiceProblemTag) (tagsOf : UInt64 → Tags)

/-- What holds at any time, also before the first recalculation. -/
structure Sound (st : EventState ι) : Prop where
  distinct : (st.problemEvents.map (·.eventid)).Nodup
  valid : ∀ event ∈ st.problemEvents, event.Valid tagsOf
  marked : Marked problemTags tagsOf st.currentEventid
  indexed : Indexed st.serviceProblems st.serviceProblemsIndex
  inner : ∀ s, HasChildren t s → st.serviceProblems s = []

/-- Between two messages: the open problems of a service are the open events that affect it, and the statuses follow. -/
structure Right (st : EventState ι) : Prop extends Sound t problemTags tagsOf st where
  flushed : st.serviceDiffs = fun _ => none
  opened : ∀ s, eventids (st.serviceProblems s) = matching problemTags st.problemEvents s
  consistent : Consistent t st.status st.serviceProblems

/-- In the loop over the events of a message: what the diffs have gathered accounts for what has changed. -/
structure Gathers (st : EventState ι) : Prop extends Sound t problemTags tagsOf st where
  batch : Batch t false st.serviceDiffs
  account : ∀ s, matching problemTags st.problemEvents s + gathered true st.serviceDiffs s =
    eventids (st.serviceProblems s) + gathered false st.serviceDiffs s
  consistent : Consistent t st.status st.serviceProblems

structure Rebuilds (events past : List Event) (st : EventState ι) : Prop extends Sound t problemTags tagsOf st where
  same : st.problemEvents = events
  batch : Batch t true st.serviceDiffs
  gathered : ∀ b s, gathered b st.serviceDiffs s = if b then 0 else matching problemTags past s

structure Complete (services : List ι) : Prop where
  nodup : services.Nodup
  all : ∀ s, s ∈ services
  leaf : ∀ s, problemTags s ≠ [] → ¬ HasChildren t s

def Untouched (st : EventState ι) (id : UInt64) : Prop := ∀ b s, id ∉ gathered b st.serviceDiffs s

end

variable {tagsOf : UInt64 → Tags} {event : Event} {st : EventState ι}

lemma Right.gathers (h : Right t problemTags tagsOf st) : Gathers t problemTags tagsOf st := by
  refine ⟨h.toSound, ?_, fun s => ?_, h.consistent⟩
  · rw [h.flushed]
    exact .none false
  · rw [h.flushed, ← h.opened s]
    rfl

lemma Right.untouched (h : Right t problemTags tagsOf st) (id : UInt64) : Untouched st id := by
  intro b s
  rw [h.flushed]
  exact Multiset.notMem_zero id

lemma Gathers.close (h : Gathers t problemTags tagsOf st) (hfresh : Untouched st event.eventid) :
    Gathers t problemTags tagsOf (closeProblem t st event) ∧
      ∀ id ≠ event.eventid, Untouched st id → Untouched (closeProblem t st event) id := by
  have hleaf : ∀ s ∈ st.serviceProblemsIndex event.eventid, ¬ HasChildren t s := by
    intro s hs hchildren
    have hcount := h.indexed event.eventid s
    rw [h.inner s hchildren] at hcount
    exact (List.count_pos_iff.mpr hs).ne' hcount
  obtain ⟨hbatch, hgathered⟩ := h.batch.appendAll true event.problem hleaf
  refine ⟨⟨⟨?_, ?_, h.marked, h.indexed, h.inner⟩, hbatch, fun s => ?_, h.consistent⟩, fun id hid hold b s hmem => ?_⟩
  · exact (List.filter_sublist.map _).nodup h.distinct
  · exact fun e he => h.valid e (List.mem_of_mem_filter he)
  · have hopen := hgathered true s
    have hnew := hgathered false s
    rw [if_pos rfl, h.indexed event.eventid s] at hopen
    rw [if_neg (by decide), add_zero] at hnew
    ext id
    have haccount := congrArg (Multiset.count id) (h.account s)
    rw [Multiset.count_add, Multiset.count_add] at haccount
    rw [closeProblem, recoverServicesProblem]
    dsimp only
    rw [hopen, hnew, Multiset.count_add, Multiset.count_add, Multiset.count_add, count_matching_close, Multiset.count_nsmul,
      Multiset.count_singleton, Event.problem_eventid]
    split_ifs with hid
    · rw [hid, Multiset.count_eq_zero.mpr (hfresh true s), Multiset.count_eq_zero.mpr (hfresh false s)]
      omega
    · omega
  · have hmem := hgathered b s ▸ hmem
    rcases Multiset.mem_add.mp hmem with hmem | hmem
    · exact hold b s hmem
    · split_ifs at hmem
      · exact hid (Multiset.mem_singleton.mp (Multiset.mem_of_mem_nsmul hmem))
      · exact Multiset.notMem_zero _ hmem

lemma Complete.matchEvent (hservices : Complete t problemTags services) {recalculate : Bool}
    (hmarked : Marked problemTags tagsOf st.currentEventid) (hbatch : Batch t recalculate st.serviceDiffs)
    (hevent : event.Valid tagsOf) :
    Batch t recalculate (matchEventToServiceProblemTags t problemTags services recalculate st event).serviceDiffs ∧
      ∀ b s, gathered b (matchEventToServiceProblemTags t problemTags services recalculate st event).serviceDiffs s =
        gathered b st.serviceDiffs s + if b = false ∧ matchesTags problemTags event.tags s then {event.eventid} else 0 := by
  rw [matchEventToServiceProblemTags]
  dsimp only
  rw [hmarked.matched_eq hevent]
  have hleaf : ∀ s ∈ services.filter (matchesTags problemTags event.tags), ¬ HasChildren t s := by
    intro s hs
    apply hservices.leaf s
    intro hnil
    have hmatch := (List.mem_filter.mp hs).2
    simp [matchesTags, hnil] at hmatch
  obtain ⟨hbatch', hgathered⟩ := hbatch.appendAll false event.problem hleaf
  refine ⟨hbatch', fun b s => ?_⟩
  rw [hgathered b s, Event.problem_eventid]
  congr 1
  cases hmatch : matchesTags problemTags event.tags s with
  | true =>
    rw [List.count_filter hmatch, List.count_eq_one_of_mem hservices.nodup (hservices.all s)]
    simp
  | false =>
    have hcount : (services.filter (matchesTags problemTags event.tags)).count s = 0 := by
      apply List.count_eq_zero.mpr
      intro hmem
      rw [(List.mem_filter.mp hmem).2] at hmatch
      cases hmatch
    rw [hcount]
    simp

lemma Gathers.problem (hservices : Complete t problemTags services) (h : Gathers t problemTags tagsOf st)
    (hevent : event.Valid tagsOf) (hnew : event.eventid ∉ st.problemEvents.map (·.eventid)) {st' : EventState ι}
    (hst' : matchEventToServiceProblemTags t problemTags services false
      { st with problemEvents := st.problemEvents ++ [event] } event = st') :
    Gathers t problemTags tagsOf st' ∧ ∀ id ≠ event.eventid, Untouched st id → Untouched st' id := by
  obtain ⟨hbatch, hgathered⟩ := @Complete.matchEvent _ _ _ _ _ _ event
    { st with problemEvents := st.problemEvents ++ [event] } hservices _ h.marked h.batch hevent
  subst hst'
  refine ⟨⟨⟨?_, ?_, h.marked.mark hevent, h.indexed, h.inner⟩, hbatch, fun s => ?_, h.consistent⟩,
    fun id hid hold b s hmem => ?_⟩
  · have happend : ((st.problemEvents ++ [event]).map (·.eventid)).Nodup := by
      rw [List.map_append]
      exact h.distinct.append (List.nodup_singleton _) (by simpa using hnew)
    exact happend
  · exact List.forall_mem_append.mpr ⟨h.valid, List.forall_mem_singleton.mpr hevent⟩
  · rw [hgathered true s, hgathered false s]
    refine (congrArg (· + _) (matching_concat st.problemEvents event s)).trans ?_
    simp only [Bool.true_eq_false, false_and, if_false, true_and, add_zero]
    rw [add_right_comm, h.account s, add_assoc]
    rfl
  · rw [hgathered b s] at hmem
    rcases Multiset.mem_add.mp hmem with hmem | hmem
    · exact hold b s hmem
    · split_ifs at hmem
      · exact hid (Multiset.mem_singleton.mp hmem)
      · exact Multiset.notMem_zero _ hmem

lemma Gathers.process (hservices : Complete t problemTags services) (h : Gathers t problemTags tagsOf st)
    (hevent : event.value = triggerValueProblem → event.Valid tagsOf) (hfresh : Untouched st event.eventid) :
    Gathers t problemTags tagsOf (processEvent t problemTags services st event) ∧
      ∀ id ≠ event.eventid, Untouched st id → Untouched (processEvent t problemTags services st event) id := by
  have hskip : ∀ recoveryEvents, Gathers t problemTags tagsOf { st with recoveryEvents := recoveryEvents } ∧
      ∀ id ≠ event.eventid, Untouched st id → Untouched { st with recoveryEvents := recoveryEvents } id :=
    fun _ => ⟨⟨⟨h.distinct, h.valid, h.marked, h.indexed, h.inner⟩, h.batch, h.account, h.consistent⟩,
      fun _ _ hold => hold⟩
  rw [processEvent]
  split_ifs with hdeleted hok hopen hproblem hopen hrecovered
  · exact hskip st.recoveryEvents
  · exact h.close hfresh
  · exact hskip _
  · exact hskip st.recoveryEvents
  · exact hskip _
  · exact h.problem hservices (hevent hproblem) hopen rfl
  · exact hskip st.recoveryEvents

lemma Gathers.processAll (hservices : Complete t problemTags services) (h : Gathers t problemTags tagsOf st)
    {events : List Event} (hdistinct : (events.map (·.eventid)).Nodup)
    (hevents : ∀ event ∈ events, event.value = triggerValueProblem → event.Valid tagsOf)
    (hfresh : ∀ event ∈ events, Untouched st event.eventid) :
    Gathers t problemTags tagsOf (events.foldl (processEvent t problemTags services) st) := by
  induction events generalizing st with
  | nil => exact h
  | cons event events ih =>
    rw [List.map_cons, List.nodup_cons] at hdistinct
    obtain ⟨hevent, hevents⟩ := List.forall_mem_cons.mp hevents
    obtain ⟨hhead, htail⟩ := List.forall_mem_cons.mp hfresh
    obtain ⟨hnext, hkept⟩ := h.process hservices hevent hhead
    refine ih hnext hdistinct.2 hevents fun later hlater => hkept _ ?_ (htail later hlater)
    intro heq
    exact hdistinct.1 (heq ▸ List.mem_map_of_mem hlater)

lemma Gathers.deleteAll (h : Gathers t problemTags tagsOf st) (ts : Timespec) (eventids : List UInt64)
    (hfresh : ∀ event ∈ st.problemEvents, Untouched st event.eventid) :
    Gathers t problemTags tagsOf (eventids.foldl (processDeletedEventid t ts) st) := by
  induction eventids generalizing st with
  | nil => exact h
  | cons id eventids ih =>
    have hdeleted : Gathers t problemTags tagsOf { st with deletedEventids := insertDeleted ts st.deletedEventids id } :=
      ⟨⟨h.distinct, h.valid, h.marked, h.indexed, h.inner⟩, h.batch, h.account, h.consistent⟩
    rw [List.foldl_cons, processDeletedEventid]
    cases hfind : st.problemEvents.find? (·.eventid = id) with
    | none => exact ih hdeleted hfresh
    | some event =>
      have hclosed : Untouched st ({ event with ts := ts } : Event).eventid :=
        hfresh event (List.mem_of_find?_eq_some hfind)
      obtain ⟨hnext, hkept⟩ := hdeleted.close hclosed
      refine ih hnext fun later hlater => ?_
      obtain ⟨hold, hne⟩ := List.mem_filter.mp hlater
      exact hkept _ (of_decide_eq_true hne) (hfresh later hold)

lemma Rebuilds.matchAll (hservices : Complete t problemTags services) {open_ past events : List Event}
    (h : Rebuilds t problemTags tagsOf open_ past st) (hvalid : ∀ event ∈ events, event.Valid tagsOf) :
    Rebuilds t problemTags tagsOf open_ (past ++ events)
      (events.foldl (matchEventToServiceProblemTags t problemTags services true) st) := by
  induction events generalizing past st with
  | nil => rwa [List.append_nil]
  | cons event events ih =>
    obtain ⟨hevent, hvalid⟩ := List.forall_mem_cons.mp hvalid
    obtain ⟨hbatch, hgathered⟩ := hservices.matchEvent h.marked h.batch hevent
    rw [← List.singleton_append, ← List.append_assoc]
    refine ih ⟨⟨h.distinct, h.valid, h.marked.mark hevent, h.indexed, h.inner⟩, h.same, hbatch, fun b s => ?_⟩ hvalid
    rw [hgathered b s, h.gathered b s, matching_concat]
    cases b <;> simp

def Message.Valid (tagsOf : UInt64 → Tags) : Message → Prop
  | .problems events => (events.map (·.eventid)).Nodup ∧
      ∀ event ∈ events, event.value = triggerValueProblem → event.Valid tagsOf
  | _ => True

variable [Finite ι] {now : UInt64 → Timespec} {fuel : ℕ} {walks : Walks ι}
  (hacyclic : Acyclic (IsChild t)) (hservices : Complete t problemTags services)

section

variable (hfuel : ∀ manager diffs, (dbUpdateServices t now fuel manager diffs).isSome)

include hacyclic hservices hfuel

lemma Sound.flush (h : Sound t problemTags tagsOf st) {recalculate : Bool} (hbatch : Batch t recalculate st.serviceDiffs)
    (hold : recalculate = false → Consistent t st.status st.serviceProblems)
    (hall : recalculate = true → ∀ s, ¬ HasChildren t s → (st.serviceDiffs s).isSome)
    (hevents : ∀ s, (if recalculate then 0 else eventids (st.serviceProblems s)) + gathered false st.serviceDiffs s -
      gathered true st.serviceDiffs s = matching problemTags st.problemEvents s) :
    ∃ st', Services.flush t walks now fuel st = some st' ∧ Right t problemTags tagsOf st' := by
  obtain ⟨w, hw⟩ := Option.isSome_iff_exists.mp (hfuel st.toManager ((walks.diffs st.serviceDiffs).filterMap st.serviceDiffs))
  have hflushed := hbatch.flushed hacyclic ⟨walks.diffs_nodup _, walks.mem_diffs _⟩ h.indexed h.inner hold hall hw
  have hopened : ∀ s, eventids (w.serviceProblems s) = matching problemTags st.problemEvents s :=
    fun s => (hflushed.events s).trans (hevents s)
  refine ⟨{ st with toManager := w.toManager, serviceDiffs := fun _ => none }, by rw [Services.flush, hw]; rfl, ?_⟩
  refine ⟨⟨h.distinct, h.valid, h.marked, hflushed.indexed, fun s hs => ?_⟩, rfl, hopened, hflushed.consistent⟩
  have hnone := (hopened s).trans (matching_inner hservices.leaf _ hs)
  exact List.map_eq_nil_iff.mp ((Multiset.coe_eq_zero _).mp hnone)

lemma Gathers.flush (h : Gathers t problemTags tagsOf st) :
    ∃ st', Services.flush t walks now fuel st = some st' ∧ Right t problemTags tagsOf st' := by
  refine h.toSound.flush hacyclic hservices hfuel h.batch (fun _ => h.consistent) (fun hr => by cases hr) fun s => ?_
  rw [if_neg (by decide), ← h.account s, add_tsub_cancel_right]

lemma Sound.recalculate (h : Sound t problemTags tagsOf st) (hempty : st.serviceDiffs = fun _ => none) :
    ∃ st', handle t problemTags services walks now fuel st .recalculate = some st' ∧ Right t problemTags tagsOf st' := by
  have hstart : Rebuilds t problemTags tagsOf st.problemEvents [] st := by
    refine ⟨h, rfl, hempty ▸ .none true, fun b s => ?_⟩
    rw [hempty]
    cases b <;> rfl
  have hperm := walks.events_perm st.problemEvents
  have hdone := hstart.matchAll hservices fun event hevent => h.valid event (hperm.mem_iff.mp hevent)
  obtain ⟨hbatch, hgathered, hfound⟩ := hdone.batch.addLeafDiffs walks.services
  refine Sound.flush hacyclic hservices hfuel
    ⟨hdone.distinct, hdone.valid, hdone.marked, hdone.indexed, hdone.inner⟩ hbatch
    (fun hr => by cases hr) (fun _ s hs => hfound s hs (.inl (walks.mem_services s))) fun s => ?_
  rw [recalculateServices, hgathered false s, hgathered true s, hdone.gathered, hdone.gathered, hdone.same,
    List.nil_append, ← matching_perm hperm]
  simp

lemma Right.handle {message : Message} (h : Right t problemTags tagsOf st) (hvalid : message.Valid tagsOf) :
    ∃ st', Services.handle t problemTags services walks now fuel st message = some st' ∧ Right t problemTags tagsOf st' := by
  cases message with
  | problems events =>
    have hgathers := h.gathers.processAll hservices hvalid.1 hvalid.2 fun event _ => h.untouched _
    exact hgathers.flush hacyclic hservices hfuel
  | problemsDelete ts eventids =>
    have hgathers := h.gathers.deleteAll ts eventids fun event _ => h.untouched _
    exact hgathers.flush hacyclic hservices hfuel
  | recalculate => exact h.toSound.recalculate hacyclic hservices hfuel h.flushed
  | cleanup time => exact ⟨_, rfl, ⟨h.distinct, h.valid, h.marked, h.indexed, h.inner⟩, h.flushed, h.opened, h.consistent⟩

end

include hacyclic hservices

/-- The first recalculation makes the open problems and the statuses right, whatever they were; messages keep them so. -/
theorem messages_right : ∃ N, ∀ fuel ≥ N, ∀ now (st : EventState ι) messages,
    Sound t problemTags tagsOf st → st.serviceDiffs = (fun _ => none) → (∀ message ∈ messages, message.Valid tagsOf) →
      ∃ st', (Message.recalculate :: messages).foldlM (handle t problemTags services walks now fuel) st = some st' ∧
        Right t problemTags tagsOf st' := by
  obtain ⟨N, hN⟩ := exists_depth hacyclic
  refine ⟨N, fun fuel hfuel now st messages hsound hempty hvalid => ?_⟩
  have hdepth : ∀ manager diffs, (dbUpdateServices t now fuel manager diffs).isSome := hN fuel hfuel t (.refl t) now
  obtain ⟨st₁, hfirst, hright⟩ := hsound.recalculate hacyclic hservices hdepth hempty
  obtain ⟨st', hrest, hright'⟩ := @foldlM_total_of_mem _ _ _ (fun _ => Right t problemTags tagsOf) messages
    (fun _ st message hmem h => h.handle hacyclic hservices hdepth (hvalid message hmem)) [] _ hright
  exact ⟨st', by rw [List.foldlM_cons, hfirst]; exact hrest, hright'⟩

end

section

def diamondTags : Fin 4 → List ServiceProblemTag
  | 0 => [⟨"host".toList, "db".toList, true⟩]
  | _ => []

def outage : Event := ⟨5, triggerValueProblem, 4, ⟨100, 0⟩, [("host".toList, "db1".toList)]⟩

def unready : EventState (Fin 4) :=
  ⟨⟨fun _ => 2, fun _ => [], fun _ => []⟩, [outage], [], [], fun _ _ => 0, fun _ => none⟩

/-- The open events are gone over backwards. -/
def diamondWalks : Walks (Fin 4) where
  diffs _ := List.finRange 4
  events := List.reverse
  services := (List.finRange 4).reverse
  diffs_nodup _ := List.nodup_finRange 4
  mem_diffs _ := List.mem_finRange
  events_perm := List.reverse_perm
  mem_services := by simp

theorem diamond_messages_right : ∃ N, ∀ fuel ≥ N, ∀ now, ∃ st',
    [.recalculate, .problems [{ outage with value := triggerValueOk }], .problemsDelete ⟨200, 0⟩ [5]].foldlM
        (handle diamond diamondTags (List.finRange 4) diamondWalks now fuel) unready = some st' ∧
      Right diamond diamondTags (fun _ => outage.tags) st' := by
  have hrank : ∀ c p, IsChild diamond c p → c.val < p.val := by
    unfold IsChild
    decide
  have hsound : Sound diamond diamondTags (fun _ => outage.tags) unready := by
    refine ⟨by decide, ?_, fun _ _ _ _ hne => absurd rfl hne, fun _ _ => rfl, fun _ _ => rfl⟩
    intro event hevent
    obtain rfl := List.mem_singleton.mp hevent
    exact ⟨by decide, rfl⟩
  have hcomplete : Complete diamond diamondTags (List.finRange 4) :=
    ⟨by decide, by decide, by unfold HasChildren; decide⟩
  obtain ⟨N, hN⟩ := messages_right (.of_rank Fin.val hrank) hcomplete
  refine ⟨N, fun fuel hfuel now => hN fuel hfuel now unready _ hsound rfl ?_⟩
  intro message hmessage
  rcases List.mem_cons.mp hmessage with rfl | hmessage
  · exact ⟨by decide, fun event hevent hvalue => absurd hvalue (by rw [List.mem_singleton.mp hevent]; decide)⟩
  · obtain rfl := List.mem_singleton.mp hmessage
    trivial

end

end Glaber.Services
