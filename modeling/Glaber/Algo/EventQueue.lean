import Glaber.Algo.BinaryHeapRun
import Glaber.Lib.Agenda

/-! The queue of timed events (`event_queue.c`), whose callbacks may add events while it is drained. -/

namespace Glaber.Algo.EventQueue

open Glaber.Lib.Agenda Glaber.Lib.HeapOrder

structure Payload (δ : Type) where
  eventId : UInt8
  data : δ
deriving DecidableEq

abbrev Event (δ : Type) := HeapElem (Payload δ)

def msecTime {δ : Type} (event : Event δ) : ℕ := event.key

abbrev Queue (δ : Type) := BinaryHeap (Payload δ)

def compareKeys (key1 key2 : ℕ) : ℤ := if key1 < key2 then -1 else if key2 < key1 then 1 else 0

lemma compareKeys_iff (key1 key2 : ℕ) : compareKeys key1 key2 ≤ 0 ↔ key1 ≤ key2 := by
  rw [compareKeys]
  split_ifs <;> omega

def eventQueueCompareFunc {δ : Type} : CompareFunc (Payload δ) where
  compare e1 e2 := compareKeys e1.key e2.key
  total e1 e2 := by
    rw [compareKeys_iff, compareKeys_iff]
    exact le_total e1.key e2.key
  trans e1 e2 e3 := by
    rw [compareKeys_iff, compareKeys_iff, compareKeys_iff]
    exact le_trans

abbrev Callback (δ σ : Type) := σ → Queue δ → (msecTime : ℕ) → (eventId : UInt8) → δ → σ × List (Event δ)

variable {δ σ : Type}

section

variable (callbacks : UInt8 → Option (Callback δ σ))

/-- Nothing is returned where the source exits the process. -/
def eventQueueAddEvent (queue : Queue δ) (event : Event δ) : Option (Queue δ) :=
  if (callbacks event.data.eventId).isNone then none else queue.insert eventQueueCompareFunc event

structure Drain (δ σ : Type) where
  queue : Queue δ
  world : σ
  i : ℕ
  log : List (Event δ × List (Event δ))

inductive Outcome (δ σ : Type) where
  | running (s : Drain δ σ)
  | returned (s : Drain δ σ)
  | exited

def turn (now : ℕ) (maxEvents : ℤ) (s : Drain δ σ) : Outcome δ σ :=
  if s.queue.elemsNum = 0 ∨ ¬ (maxEvents = 0 ∨ (s.i : ℤ) < maxEvents) then .returned s
  else match s.queue.findMin, s.queue.removeMin eventQueueCompareFunc with
    | some min, some queue =>
      if now < min.key then .returned s
      else match callbacks min.data.eventId with
        | none => .exited
        | some callback =>
          let (world, added) := callback s.world queue min.key min.data.eventId min.data.data
          match added.foldlM (eventQueueAddEvent callbacks) queue with
          | none => .exited
          | some queue => .running ⟨queue, world, s.i + 1, s.log ++ [(min, added)]⟩
    | _, _ => .exited

def drain (now : ℕ) (maxEvents : ℤ) : ℕ → Drain δ σ → Outcome δ σ
  | 0, s => .running s
  | turns + 1, s =>
    match turn callbacks now maxEvents s with
    | .running s => drain now maxEvents turns s
    | outcome => outcome

def eventQueueProcessEvents (queue : Queue δ) (world : σ) (now : ℕ) (maxEvents : ℤ) (turns : ℕ) : Outcome δ σ :=
  drain callbacks now maxEvents turns ⟨queue, world, 0, []⟩

structure Ready (queue : Queue δ) : Prop where
  direct : queue.direct = false
  ordered : Ordered (BinaryHeap.Le eventQueueCompareFunc) queue.elems queue.elemsNum
  callback : ∀ event ∈ queue.contents, callbacks event.data.eventId ≠ none

def AddKnown : Prop :=
  ∀ eventId callback, callbacks eventId = some callback → ∀ world queue msecTime data,
    ∀ event ∈ (callback world queue msecTime eventId data).2, callbacks event.data.eventId ≠ none

end

variable {callbacks : UInt8 → Option (Callback δ σ)} {queue : Queue δ}

lemma le_iff (e1 e2 : Event δ) : BinaryHeap.Le eventQueueCompareFunc e1 e2 ↔ e1.key ≤ e2.key :=
  compareKeys_iff e1.key e2.key

lemma Ready.addEvent (h : Ready callbacks queue) {event : Event δ} (hevent : callbacks event.data.eventId ≠ none) :
    ∃ queue', eventQueueAddEvent callbacks queue event = some queue' ∧ Ready callbacks queue' ∧
      queue'.contents = event ::ₘ queue.contents := by
  have hplain : ¬ (queue.direct ∧ queue.keyIndex event.key ≠ none) := by simp [h.direct]
  obtain ⟨queue', hrun, hdirect, hord, hstock⟩ := BinaryHeap.insert_order h.ordered hplain
  refine ⟨queue', ?_, ⟨hdirect.trans h.direct, hord, ?_⟩, hstock⟩
  · rw [eventQueueAddEvent, if_neg (by simpa using hevent), hrun]
  · intro e he
    rw [hstock, Multiset.mem_cons] at he
    rcases he with rfl | he
    · exact hevent
    · exact h.callback e he

lemma Ready.addEvents (h : Ready callbacks queue) (events : List (Event δ))
    (hevents : ∀ event ∈ events, callbacks event.data.eventId ≠ none) :
    ∃ queue', events.foldlM (eventQueueAddEvent callbacks) queue = some queue' ∧ Ready callbacks queue' ∧
      queue'.contents = events + queue.contents := by
  induction events generalizing queue with
  | nil => exact ⟨queue, rfl, h, by simp⟩
  | cons event events ih =>
    obtain ⟨hevent, hrest⟩ := List.forall_mem_cons.mp hevents
    obtain ⟨mid, hmid, hready, hstock⟩ := h.addEvent hevent
    obtain ⟨queue', hrun, hready', hstock'⟩ := ih hready hrest
    refine ⟨queue', by rw [List.foldlM_cons, hmid]; exact hrun, hready', ?_⟩
    rw [hstock', hstock, Multiset.add_cons, ← Multiset.cons_coe, Multiset.cons_add]

def Calls (callbacks : UInt8 → Option (Callback δ σ)) (event : Event δ) (added : List (Event δ)) : Prop :=
  ∃ callback world queue, callbacks event.data.eventId = some callback ∧
    added = (callback world queue (msecTime event) event.data.eventId event.data.data).2

lemma turn_spec (hadds : AddKnown callbacks) (now : ℕ) (maxEvents : ℤ) {s : Drain δ σ} (h : Ready callbacks s.queue) :
    (turn callbacks now maxEvents s = .returned s ∧
      ((∀ e ∈ s.queue.contents, now < e.key) ∨ (maxEvents ≠ 0 ∧ maxEvents ≤ s.i))) ∨
    ∃ (least : Event δ) (rest : Multiset (Event δ)) (added : List (Event δ)) (s' : Drain δ σ),
      turn callbacks now maxEvents s = .running s' ∧ s.queue.contents = least ::ₘ rest ∧
      (∀ e ∈ least ::ₘ rest, least.key ≤ e.key) ∧ least.key ≤ now ∧ (maxEvents = 0 ∨ (s.i : ℤ) < maxEvents) ∧
      s'.log = s.log ++ [(least, added)] ∧ s'.i = s.i + 1 ∧ s'.queue.contents = added + rest ∧
      Ready callbacks s'.queue ∧ Calls callbacks least added := by
  rw [turn]
  by_cases hnone : s.queue.elemsNum = 0
  · rw [if_pos (.inl hnone)]
    refine .inl ⟨rfl, .inl fun e he => ?_⟩
    simp [BinaryHeap.contents, hnone] at he
  by_cases hlimit : maxEvents = 0 ∨ (s.i : ℤ) < maxEvents
  · obtain ⟨queue, hremove, hdirect, hord, hstock⟩ := BinaryHeap.removeMin_order h.ordered hnone
    have hmin := BinaryHeap.minimal_contents h.ordered
    have hleast : ∀ e ∈ s.queue.contents, (s.queue.elems 0).key ≤ e.key := fun e he => (le_iff _ _).mp (hmin e he)
    rw [if_neg (by simp [hnone, hlimit]), hremove, BinaryHeap.findMin, if_neg hnone]
    dsimp only
    by_cases hdue : now < (s.queue.elems 0).key
    · rw [if_pos hdue]
      exact .inl ⟨rfl, .inl fun e he => hdue.trans_le (hleast e he)⟩
    · rw [if_neg hdue]
      right
      rw [hstock] at hleast
      obtain ⟨callback, hcallback⟩ : ∃ callback, callbacks (s.queue.elems 0).data.eventId = some callback := by
        apply Option.ne_none_iff_exists'.mp
        apply h.callback
        rw [hstock]
        exact Multiset.mem_cons_self _ _
      have hready : Ready callbacks queue := by
        refine ⟨hdirect.trans h.direct, hord, fun e he => h.callback e ?_⟩
        rw [hstock]
        exact Multiset.mem_cons_of_mem he
      obtain ⟨queue', hadd, hready', hstock'⟩ := hready.addEvents _
        (hadds _ callback hcallback s.world queue (s.queue.elems 0).key (s.queue.elems 0).data.data)
      rw [hcallback]
      dsimp only
      rw [hadd]
      exact ⟨_, _, _, _, rfl, hstock, hleast, not_lt.mp hdue, hlimit, rfl, rfl, hstock', hready',
        callback, s.world, queue, hcallback, rfl⟩
  · rw [if_pos (.inr hlimit)]
    rw [not_or, not_lt] at hlimit
    exact .inl ⟨rfl, .inr hlimit⟩

structure Drained (callbacks : UInt8 → Option (Callback δ σ)) (now : ℕ) (maxEvents : ℤ) (stock : Multiset (Event δ))
    (s : Drain δ σ) : Prop where
  serves : Serves msecTime now stock s.log s.queue.contents
  count : s.i = s.log.length
  limit : maxEvents = 0 ∨ (s.i : ℤ) ≤ max 0 maxEvents
  calls : ∀ run ∈ s.log, Calls callbacks run.1 run.2
  ready : Ready callbacks s.queue

lemma drain_spec (hadds : AddKnown callbacks) {now : ℕ} {maxEvents : ℤ} {stock : Multiset (Event δ)} (turns : ℕ)
    {s : Drain δ σ} (h : Drained callbacks now maxEvents stock s) :
    (∃ s', drain callbacks now maxEvents turns s = .running s' ∧ Drained callbacks now maxEvents stock s' ∧
      s'.i = s.i + turns) ∨
    ∃ s', drain callbacks now maxEvents turns s = .returned s' ∧ Drained callbacks now maxEvents stock s' ∧
      ((∀ e ∈ s'.queue.contents, now < e.key) ∨ (maxEvents ≠ 0 ∧ maxEvents ≤ s'.i)) := by
  induction turns generalizing s with
  | zero => exact .inl ⟨s, rfl, h, rfl⟩
  | succ turns ih =>
    rw [drain]
    rcases turn_spec hadds now maxEvents h.ready with ⟨hturn, hend⟩ |
      ⟨least, rest, more, mid, hturn, hstock, hleast, hdue, hlimit, hlog, hi, hleft, hready, hcalls⟩
    · rw [hturn]
      exact .inr ⟨s, rfl, h, hend⟩
    · have hserves := h.serves
      rw [hstock] at hserves
      have hmid : Drained callbacks now maxEvents stock mid := by
        refine ⟨?_, ?_, ?_, ?_, hready⟩
        · rw [hlog, hleft]
          exact hserves.snoc hleast hdue
        · rw [hi, hlog, List.length_append, h.count]
          rfl
        · rw [hi]
          rcases hlimit with hlimit | hlimit
          · exact .inl hlimit
          · exact .inr (le_max_of_le_right (by omega))
        · rw [hlog]
          intro run hrun
          rcases List.mem_append.mp hrun with hrun | hrun
          · exact h.calls run hrun
          · obtain rfl := List.mem_singleton.mp hrun
            exact hcalls
      rw [hturn]
      rcases ih hmid with ⟨s', hrun, hs', hi'⟩ | hreturned
      · exact .inl ⟨s', hrun, hs', by omega⟩
      · exact .inr hreturned

section

variable (world : σ) (now : ℕ) (maxEvents : ℤ)

lemma drained_start (hq : Ready callbacks queue) :
    Drained callbacks now maxEvents queue.contents ⟨queue, world, 0, []⟩ :=
  ⟨.nil _, rfl, .inr (le_max_left 0 maxEvents), by simp, hq⟩

theorem events_served_in_order (hadds : AddKnown callbacks) (hq : Ready callbacks queue) :
    (∀ turns s, (eventQueueProcessEvents callbacks queue world now maxEvents turns = .running s ∨
        eventQueueProcessEvents callbacks queue world now maxEvents turns = .returned s) →
      Serves msecTime now queue.contents s.log s.queue.contents ∧ s.i = s.log.length ∧
        (∀ run ∈ s.log, Calls callbacks run.1 run.2) ∧ (∀ e ∈ served s.log, e.key ≤ now) ∧
        (served s.log : Multiset (Event δ)) + s.queue.contents = queue.contents + added s.log ∧
        (maxEvents = 0 ∨ (s.i : ℤ) ≤ max 0 maxEvents)) ∧
    (∀ turns s, eventQueueProcessEvents callbacks queue world now maxEvents turns = .returned s →
      maxEvents = 0 ∨ (s.i : ℤ) < maxEvents → ∀ e ∈ s.queue.contents, now < e.key) ∧
    (∀ turns, eventQueueProcessEvents callbacks queue world now maxEvents turns ≠ .exited) ∧
    ((maxEvents ≠ 0 ∨ ∃ bound, ∀ turns s, eventQueueProcessEvents callbacks queue world now maxEvents turns = .running s →
        dueCount msecTime now (added s.log : Multiset (Event δ)) ≤ bound) →
      ∃ turns s, eventQueueProcessEvents callbacks queue world now maxEvents turns = .returned s) := by
  have hspec := fun turns => drain_spec hadds turns (drained_start world now maxEvents hq)
  refine ⟨fun turns s hrun => ?_, fun turns s hrun hlimit => ?_, fun turns hexit => ?_, fun hbound => ?_⟩
  · have hs : Drained callbacks now maxEvents queue.contents s := by
      rcases hspec turns with ⟨s', hs', hdrained, -⟩ | ⟨s', hs', hdrained, -⟩
      · rcases hrun with hrun | hrun
        · cases hs'.symm.trans hrun
          exact hdrained
        · cases hs'.symm.trans hrun
      · rcases hrun with hrun | hrun
        · cases hs'.symm.trans hrun
        · cases hs'.symm.trans hrun
          exact hdrained
    exact ⟨hs.serves, hs.count, hs.calls, hs.serves.due, hs.serves.once, hs.limit⟩
  · rcases hspec turns with ⟨s', hs', -⟩ | ⟨s', hs', -, hend⟩
    · cases hs'.symm.trans hrun
    · cases hs'.symm.trans hrun
      rcases hend with hend | ⟨hne, hle⟩
      · exact hend
      · omega
  · rcases hspec turns with ⟨s', hs', -⟩ | ⟨s', hs', -⟩
    · cases hs'.symm.trans hexit
    · cases hs'.symm.trans hexit
  · by_contra hnever
    have hruns : ∀ turns, ∃ s, eventQueueProcessEvents callbacks queue world now maxEvents turns = .running s ∧
        Drained callbacks now maxEvents queue.contents s ∧ s.i = turns := by
      intro turns
      rcases hspec turns with ⟨s, hs, hdrained, hi⟩ | ⟨s, hs, -⟩
      · exact ⟨s, hs, hdrained, hi.trans (Nat.zero_add turns)⟩
      · exact absurd ⟨turns, s, hs⟩ hnever
    rcases hbound with hne | ⟨bound, hbound⟩
    · obtain ⟨s, -, hdrained, hi⟩ := hruns ((max 0 maxEvents).toNat + 1)
      have := hdrained.limit
      omega
    · obtain ⟨s, hs, hdrained, hi⟩ := hruns (dueCount msecTime now queue.contents + bound + 1)
      have hlen := hdrained.serves.length_le
      have hle := hbound _ s hs
      have hcount := hdrained.count
      omega

end

def twoEvents : Queue ℕ := ⟨fun k => if k = 0 then ⟨0, 0, 7⟩ else ⟨5, 1, 8⟩, 2, false, fun _ => none⟩

def readding : UInt8 → Option (Callback ℕ Unit) := fun eventId =>
  if eventId = 0 then some fun world _ msecTime eventId data => (world, [⟨msecTime, eventId, data⟩])
  else if eventId = 1 then some fun world _ _ _ _ => (world, [])
  else none

lemma ready_twoEvents : Ready readding twoEvents where
  direct := rfl
  ordered := by
    intro i h0 hi
    obtain rfl : i = 1 := by
      have : i < 2 := hi
      omega
    exact (le_iff _ _).mpr (by decide)
  callback := by
    intro e he
    obtain ⟨i, hi, rfl⟩ := BinaryHeap.mem_contents.mp he
    have hi' : i < 2 := hi
    interval_cases i <;> decide

lemma addKnown_readding : AddKnown readding := by
  intro eventId callback hcallback world queue msecTime data event hevent
  rw [readding] at hcallback
  split_ifs at hcallback with h0 h1
  · cases hcallback
    obtain rfl := List.mem_singleton.mp hevent
    subst h0
    show readding 0 ≠ none
    decide
  · cases hcallback
    cases hevent

theorem two_events_served_in_order :
    (∀ turns s, (eventQueueProcessEvents readding twoEvents () 10 3 turns = .running s ∨
        eventQueueProcessEvents readding twoEvents () 10 3 turns = .returned s) →
      Serves msecTime 10 twoEvents.contents s.log s.queue.contents ∧ s.i = s.log.length ∧
        (∀ run ∈ s.log, Calls readding run.1 run.2) ∧ (∀ e ∈ served s.log, e.key ≤ 10) ∧
        (served s.log : Multiset (Event ℕ)) + s.queue.contents = twoEvents.contents + added s.log ∧
        ((3 : ℤ) = 0 ∨ (s.i : ℤ) ≤ max 0 3)) ∧
    (∀ turns s, eventQueueProcessEvents readding twoEvents () 10 3 turns = .returned s →
      (3 : ℤ) = 0 ∨ (s.i : ℤ) < 3 → ∀ e ∈ s.queue.contents, 10 < e.key) ∧
    (∀ turns, eventQueueProcessEvents readding twoEvents () 10 3 turns ≠ .exited) ∧
    (((3 : ℤ) ≠ 0 ∨ ∃ bound, ∀ turns s, eventQueueProcessEvents readding twoEvents () 10 3 turns = .running s →
        dueCount msecTime 10 (added s.log : Multiset (Event ℕ)) ≤ bound) →
      ∃ turns s, eventQueueProcessEvents readding twoEvents () 10 3 turns = .returned s) :=
  events_served_in_order () 10 3 addKnown_readding ready_twoEvents

lemma starved (turns : ℕ) (s : Drain ℕ Unit) (h : Ready readding s.queue)
    (hstock : s.queue.contents = {⟨0, 0, 7⟩, ⟨5, 1, 8⟩}) (hlog : (⟨5, 1, 8⟩ : Event ℕ) ∉ served s.log) :
    ∃ s', drain readding 10 0 turns s = .running s' ∧ s'.queue.contents = {⟨0, 0, 7⟩, ⟨5, 1, 8⟩} ∧
      (⟨5, 1, 8⟩ : Event ℕ) ∉ served s'.log := by
  induction turns generalizing s with
  | zero => exact ⟨s, rfl, hstock, hlog⟩
  | succ turns ih =>
    rw [drain]
    rcases turn_spec addKnown_readding 10 0 h with ⟨-, hend⟩ |
      ⟨least, rest, more, mid, hturn, hcons, hleast, hdue, -, hmore, -, hleft, hready, callback, world, queue, hcb, hadded⟩
    · rcases hend with hend | ⟨hne, -⟩
      · have := hend ⟨0, 0, 7⟩ (by rw [hstock]; simp)
        exact absurd this (by decide)
      · exact absurd rfl hne
    · rw [hstock] at hcons
      have hmem : least = ⟨0, 0, 7⟩ ∨ least = ⟨5, 1, 8⟩ := by
        have : least ∈ least ::ₘ rest := Multiset.mem_cons_self _ _
        rw [← hcons] at this
        simpa using this
      obtain rfl : least = ⟨0, 0, 7⟩ := by
        have hzero : least.key ≤ 0 := hleast ⟨0, 0, 7⟩ (by rw [← hcons]; simp)
        rcases hmem with rfl | rfl
        · rfl
        · exact absurd hzero (by decide)
      have hrest : rest = {⟨5, 1, 8⟩} := ((Multiset.cons_inj_right _).mp hcons).symm
      have hagain : more = [⟨0, 0, 7⟩] := by
        rw [hadded]
        cases hcb
        rfl
      rw [hturn]
      apply ih mid hready
      · rw [hleft, hrest, hagain]
        rfl
      · rw [hmore, served, List.map_append, List.mem_append]
        rintro (hin | hin)
        · exact hlog hin
        · simp at hin

theorem due_event_starves :
    (∀ turns, ∃ s, eventQueueProcessEvents readding twoEvents () 10 0 turns = .running s ∧
      (⟨5, 1, 8⟩ : Event ℕ) ∈ s.queue.contents ∧ (⟨5, 1, 8⟩ : Event ℕ) ∉ served s.log) ∧
    ∃ s, eventQueueProcessEvents readding twoEvents () 10 (-1) 1 = .returned s ∧
      (⟨5, 1, 8⟩ : Event ℕ) ∈ s.queue.contents ∧ (⟨5, 1, 8⟩ : Event ℕ) ∉ served s.log := by
  have hstock : twoEvents.contents = {⟨0, 0, 7⟩, ⟨5, 1, 8⟩} := by decide
  refine ⟨fun turns => ?_, ?_⟩
  · obtain ⟨s, hrun, hs, hlog⟩ := starved turns ⟨twoEvents, (), 0, []⟩ ready_twoEvents hstock (by simp [served])
    exact ⟨s, hrun, by rw [hs]; simp, hlog⟩
  · exact ⟨_, rfl, by decide, by simp [served]⟩

end Glaber.Algo.EventQueue
