import Glaber.Lib.Runs

/-! Notification of the pollers (`poller_ipc.c`) by pairs of a host and an item. -/

namespace Glaber.Poller.Notify

open Glaber.Lib.Runs

def itemTypeAgent : ℤ := 0
def itemTypeSimple : ℤ := 3
def itemTypeExternal : ℤ := 10
def itemTypeCalculated : ℤ := 15
def itemTypeSnmp : ℤ := 20
def itemTypeWorkerServer : ℤ := 47
def itemTypeMax : ℤ := 48

def processTypeHistorypoller : ℕ := 30
def processTypeSnmp : ℕ := 39
def processTypePinger : ℕ := 40
def processTypeWorker : ℕ := 41
def processTypeServer : ℕ := 42
def processTypeAgent : ℕ := 43
def processTypeSnmpWorker : ℕ := 46
def processTypeCount : ℕ := 47

def zbxIfSnmpVersion3 : ℤ := 3

section

structure Pair where
  hostid : UInt64
  itemid : UInt64
deriving DecidableEq

/-- Chunks wait in the shared queue, and in the local one of the poller that took them over. -/
structure Queue where
  shared : List (List UInt64)
  taken : List (List UInt64)

inductive Pc where
  | idle
  | scanning (type : ℕ)
  | sending (type consumer : ℕ)
deriving DecidableEq

/-- A destroyed buffer has no functions to allocate with. `accepted` and `received` are kept for the statements only. -/
structure State where
  buffer : ℕ → Option (List Pair)
  queue : ℕ → ℕ → Queue
  pc : Pc
  accepted : List (ℕ × Pair)
  received : ℕ → ℕ → List UInt64

inductive Event where
  | addNotify (itemType : ℤ) (key : List Char) (pair : Pair) (snmpVersion : ℤ)
  | flush
  | turn
  | rcv (type consumer : ℕ)

/-- The map made by `poller_item_notify_init`; 0 stands for no process type. -/
def processByItemType (itemType : ℤ) : ℕ :=
  if itemType = itemTypeSnmp then processTypeSnmp
  else if itemType = itemTypeAgent then processTypeAgent
  else if itemType = itemTypeSimple then processTypePinger
  else if itemType = itemTypeCalculated then processTypeHistorypoller
  else if itemType = itemTypeWorkerServer then processTypeServer
  else if itemType = itemTypeExternal then processTypeWorker
  else 0

variable (forks : ℕ → ℕ)

/-- The process type of an item; there is none where the notifying process halts. Only 19 characters are compared. -/
def processTypeOf (itemType : ℤ) (key : List Char) (snmpVersion : ℤ) : Option ℕ :=
  let itemType :=
    if itemType = itemTypeSimple ∧ "net.tcp.service[htt".toList <+: key then itemTypeAgent else itemType
  let processType := processByItemType itemType
  if itemTypeMax ≤ itemType ∨ itemType < 0 ∨ processType = 0 then none
  else if processType = processTypeSnmp ∧ (snmpVersion = zbxIfSnmpVersion3 ∨ forks processTypeSnmp = 0) then
    some processTypeSnmpWorker
  else some processType

def addNotify (itemType : ℤ) (key : List Char) (pair : Pair) (snmpVersion : ℤ) (s : State) : Option State := do
  let type ← processTypeOf forks itemType key snmpVersion
  if forks type = 0 then return s
  else
    let values ← s.buffer type
    return { s with
      buffer := Function.update s.buffer type (some (values ++ [pair]))
      accepted := s.accepted ++ [(type, pair)] }

def itemsFor (consumers : ℕ) (pairs : List Pair) (consumer : ℕ) : List UInt64 :=
  (pairs.filter fun pair => pair.hostid.toNat % consumers = consumer).map Pair.itemid

def values (s : State) (type : ℕ) : List Pair := (s.buffer type).getD []

def setQueue (s : State) (type consumer : ℕ) (q : Queue) : State :=
  { s with queue := Function.update s.queue type (Function.update (s.queue type) consumer q) }

def turn (s : State) : State :=
  match s.pc with
  | .idle => s
  | .scanning type =>
    if processTypeCount ≤ type then { s with pc := .idle }
    else if values s type = [] then { s with pc := .scanning (type + 1) }
    else { s with pc := .sending type 0 }
  | .sending type consumer =>
    if consumer < forks type then
      let q := s.queue type consumer
      { setQueue s type consumer { q with shared := q.shared ++ [itemsFor (forks type) (values s type) consumer] } with
        pc := .sending type (consumer + 1) }
    else { s with buffer := Function.update s.buffer type none, pc := .scanning (type + 1) }

def takeOver (q : Queue) : Queue := if q.taken = [] then ⟨[], q.shared⟩ else q

def rcv (type consumer : ℕ) (s : State) : State :=
  let q := takeOver (s.queue type consumer)
  { setQueue s type consumer { q with taken := q.taken.tail } with
    received := Function.update s.received type
      (Function.update (s.received type) consumer (s.received type consumer ++ q.taken.headD [])) }

/-- The notifying process makes one call at a time, and there are as many pollers of a type as were forked. What C leaves
undefined, and a halt, is `none`. -/
def step (s : State) : Event → Option State
  | .addNotify itemType key pair snmpVersion =>
    if s.pc = .idle then addNotify forks itemType key pair snmpVersion s else some s
  | .flush => if s.pc = .idle then some { s with pc := .scanning 0 } else some s
  | .turn => some (turn forks s)
  | .rcv type consumer => if consumer < forks type then some (rcv type consumer s) else some s

def init : State where
  buffer := fun _ => some []
  queue := fun _ _ => ⟨[], []⟩
  pc := .idle
  accepted := []
  received := fun _ _ => []

def run (events : List Event) : Option State := events.foldlM (step forks) init

end

section

variable {forks : ℕ → ℕ} {s s' : State}

def owed (forks : ℕ → ℕ) (s : State) (type consumer : ℕ) : List UInt64 :=
  itemsFor (forks type) ((s.accepted.filter fun entry => entry.1 = type).map Prod.snd) consumer

structure Drained (s : State) (type consumer : ℕ) : Prop where
  idle : s.pc = .idle
  flushed : values s type = []
  taken : (s.queue type consumer).taken = []
  shared : (s.queue type consumer).shared = []

def Delivered (forks : ℕ → ℕ) (s : State) : Prop :=
  ∀ type consumer, s.received type consumer <+: owed forks s type consumer ∧
    (Drained s type consumer → s.received type consumer = owed forks s type consumer)

def Meets (forks : ℕ → ℕ) (s : State) : Event → Prop
  | .addNotify itemType key _ snmpVersion => s.pc = .idle →
      ∃ type, processTypeOf forks itemType key snmpVersion = some type ∧ (forks type = 0 ∨ s.buffer type ≠ none)
  | _ => True

def Pc.served : Pc → ℕ → ℕ → Bool
  | .sending type next, type', consumer => type = type' ∧ consumer < next
  | _, _, _ => false

def pending (forks : ℕ → ℕ) (s : State) (type consumer : ℕ) : List UInt64 :=
  if s.pc.served type consumer then [] else itemsFor (forks type) (values s type) consumer

structure Inv (forks : ℕ → ℕ) (s : State) : Prop where
  flow : ∀ type consumer, s.received type consumer ++ (s.queue type consumer).taken.flatten ++
    (s.queue type consumer).shared.flatten ++ pending forks s type consumer = owed forks s type consumer
  backed : ∀ type, values s type ≠ [] → forks type ≠ 0

lemma itemsFor_append (consumers : ℕ) (pairs pairs' : List Pair) (consumer : ℕ) :
    itemsFor consumers (pairs ++ pairs') consumer =
      itemsFor consumers pairs consumer ++ itemsFor consumers pairs' consumer := by
  rw [itemsFor, List.filter_append, List.map_append, itemsFor, itemsFor]

lemma itemsFor_nobody {consumers consumer : ℕ} (hpos : consumers ≠ 0) (h : consumers ≤ consumer) (pairs : List Pair) :
    itemsFor consumers pairs consumer = [] := by
  rw [itemsFor, List.map_eq_nil_iff, List.filter_eq_nil_iff]
  intro pair _
  have := Nat.mod_lt pair.hostid.toNat (Nat.pos_of_ne_zero hpos)
  simp only [decide_eq_true_eq]
  omega

lemma inv_init (forks : ℕ → ℕ) : Inv forks init where
  flow := fun _ _ => rfl
  backed := fun _ h => absurd rfl h

lemma Inv.delivered (h : Inv forks s) : Delivered forks s := by
  intro type consumer
  have hflow := h.flow type consumer
  constructor
  · rw [← hflow, List.append_assoc, List.append_assoc]
    exact List.prefix_append _ _
  · intro hdrained
    have hpending : pending forks s type consumer = [] := by
      rw [pending, hdrained.flushed]
      split_ifs <;> rfl
    rwa [hdrained.taken, hdrained.shared, hpending, List.flatten_nil, List.append_nil, List.append_nil,
      List.append_nil] at hflow

lemma update_update {α : Type} (f : ℕ → ℕ → α) (type consumer : ℕ) (x : α) (other consumer' : ℕ) :
    Function.update f type (Function.update (f type) consumer x) other consumer' =
      if other = type ∧ consumer' = consumer then x else f other consumer' := by
  by_cases hother : other = type
  · subst hother
    rw [Function.update_self, Function.update_apply]
    simp
  · rw [Function.update_of_ne hother, if_neg fun h => hother h.1]

lemma values_update (s : State) (type other : ℕ) (pairs : Option (List Pair)) :
    (Function.update s.buffer type pairs other).getD [] = if other = type then pairs.getD [] else values s other := by
  rw [Function.update_apply]
  split_ifs <;> rfl

lemma owed_snoc (forks : ℕ → ℕ) (accepted : List (ℕ × Pair)) (type : ℕ) (pair : Pair) (other consumer : ℕ) :
    itemsFor (forks other) (((accepted ++ [(type, pair)]).filter fun entry => entry.1 = other).map Prod.snd) consumer =
      itemsFor (forks other) ((accepted.filter fun entry => entry.1 = other).map Prod.snd) consumer ++
        if other = type then itemsFor (forks other) [pair] consumer else [] := by
  rw [List.filter_append, List.map_append, itemsFor_append]
  by_cases hother : other = type
  · subst hother
    simp
  · simp [hother, Ne.symm hother, itemsFor]

lemma addNotify_spec (h : Inv forks s) (hidle : s.pc = .idle) (itemType : ℤ) (key : List Char) (pair : Pair)
    (snmpVersion : ℤ) :
    (Meets forks s (.addNotify itemType key pair snmpVersion) →
      ∃ s', addNotify forks itemType key pair snmpVersion s = some s' ∧ Inv forks s') ∧
    (¬Meets forks s (.addNotify itemType key pair snmpVersion) →
      addNotify forks itemType key pair snmpVersion s = none) := by
  rw [addNotify, Meets]
  cases htype : processTypeOf forks itemType key snmpVersion with
  | none =>
    refine ⟨fun hmeets => ?_, fun _ => rfl⟩
    obtain ⟨type, hsome, -⟩ := hmeets hidle
    cases hsome
  | some type =>
    simp only [Option.bind_eq_bind, Option.bind_some]
    by_cases hforks : forks type = 0
    · rw [if_pos hforks]
      exact ⟨fun _ => ⟨s, rfl, h⟩, fun hmeets => absurd (fun _ => ⟨type, rfl, .inl hforks⟩) hmeets⟩
    rw [if_neg hforks]
    cases hbuffer : s.buffer type with
    | none =>
      refine ⟨fun hmeets => ?_, fun _ => rfl⟩
      obtain ⟨_, ⟨⟩, hzero | halive⟩ := hmeets hidle
      · exact absurd hzero hforks
      · exact absurd hbuffer halive
    | some pairs =>
      refine ⟨fun _ => ⟨_, rfl, ?_, ?_⟩, fun hmeets => absurd (fun _ => ⟨type, rfl, .inr (by simp [hbuffer])⟩) hmeets⟩
      · intro other consumer
        have hflow := h.flow other consumer
        simp only [pending, hidle, owed, values, Pc.served, owed_snoc, values_update, Bool.false_eq_true,
          if_false] at hflow ⊢
        by_cases hother : other = type
        · subst hother
          rw [if_pos rfl, if_pos rfl, Option.getD_some, itemsFor_append, ← hflow, hbuffer, Option.getD_some]
          simp only [List.append_assoc]
        · rw [if_neg hother, if_neg hother, List.append_nil]
          exact hflow
      · intro other hother
        by_cases heq : other = type
        · rwa [heq]
        · rw [values, values_update, if_neg heq] at hother
          exact h.backed other hother

lemma Inv.setPc (h : Inv forks s) {pc : Pc}
    (hserved : ∀ type consumer, s.pc.served type consumer = pc.served type consumer) : Inv forks { s with pc := pc } := by
  refine ⟨fun type consumer => ?_, h.backed⟩
  have hflow := h.flow type consumer
  rw [pending, hserved] at hflow
  exact hflow

lemma Inv.turn (h : Inv forks s) : Inv forks (turn forks s) := by
  rw [Notify.turn]
  split
  · exact h
  · rename_i type hpc
    have hserved : ∀ type' consumer, s.pc.served type' consumer = false := fun _ _ => by
      rw [hpc]
      rfl
    split_ifs
    · exact h.setPc fun type' consumer => hserved type' consumer
    · exact h.setPc fun type' consumer => hserved type' consumer
    · refine h.setPc fun type' consumer => ?_
      rw [hserved]
      simp [Pc.served]
  · rename_i type next hpc
    split_ifs with hnext
    · refine ⟨fun other consumer => ?_, h.backed⟩
      have hflow := h.flow other consumer
      simp only [pending, hpc, Pc.served, setQueue, update_update, values, owed, decide_eq_true_eq] at hflow ⊢
      by_cases hother : type = other
      · subst hother
        by_cases hconsumer : consumer = next
        · subst hconsumer
          rw [if_neg fun hlt => lt_irrefl _ hlt.2] at hflow
          rw [if_pos ⟨rfl, rfl⟩, if_pos ⟨rfl, Nat.lt_succ_self _⟩, List.flatten_append, List.flatten_singleton,
            List.append_nil, ← hflow]
          simp only [List.append_assoc]
        · have hlt : consumer < next + 1 ↔ consumer < next := by omega
          rw [if_neg fun heq => hconsumer heq.2]
          simpa only [hlt] using hflow
      · rw [if_neg fun heq => hother heq.1.symm, if_neg fun heq => hother heq.1]
        rwa [if_neg fun heq => hother heq.1] at hflow
    · refine ⟨fun other consumer => ?_, fun other hother => ?_⟩
      · have hflow := h.flow other consumer
        simp only [pending, hpc, Pc.served, values_update, values, owed, decide_eq_true_eq, Bool.false_eq_true,
          if_false] at hflow ⊢
        by_cases hother : other = type
        · subst hother
          have hrest : ¬consumer < next → itemsFor (forks other) ((s.buffer other).getD []) consumer = [] := by
            intro hle
            by_cases hempty : values s other = []
            · rw [← values, hempty]
              rfl
            · exact itemsFor_nobody (h.backed other hempty) (by omega) _
          rw [if_pos rfl]
          split_ifs at hflow with hlt
          · exact hflow
          · rwa [hrest fun hlt' => hlt ⟨rfl, hlt'⟩] at hflow
        · rw [if_neg hother]
          rwa [if_neg fun heq => hother heq.1.symm] at hflow
      · rw [values, values_update] at hother
        split_ifs at hother with heq
        · exact absurd rfl hother
        · exact h.backed other hother

lemma takeOver_chunks (q : Queue) :
    (takeOver q).taken.flatten ++ (takeOver q).shared.flatten = q.taken.flatten ++ q.shared.flatten := by
  rw [takeOver]
  split_ifs with htaken
  · simp [htaken]
  · rfl

lemma headD_tail_flatten (chunks : List (List UInt64)) : chunks.headD [] ++ chunks.tail.flatten = chunks.flatten := by
  cases chunks <;> rfl

lemma Inv.rcv (h : Inv forks s) (type consumer : ℕ) : Inv forks (rcv type consumer s) := by
  refine ⟨fun other consumer' => ?_, h.backed⟩
  have hflow := h.flow other consumer'
  simp only [Notify.rcv, pending, setQueue, update_update, values, owed] at hflow ⊢
  by_cases heq : other = type ∧ consumer' = consumer
  · obtain ⟨rfl, rfl⟩ := heq
    rw [if_pos ⟨rfl, rfl⟩, if_pos ⟨rfl, rfl⟩, ← hflow, List.append_assoc (s.received other consumer'), headD_tail_flatten,
      List.append_assoc (s.received other consumer'), takeOver_chunks, ← List.append_assoc]
    rfl
  · rw [if_neg heq, if_neg heq]
    exact hflow

lemma step_spec (s : State) (event : Event) (h : Inv forks s) :
    (Meets forks s event → ∃ s', step forks s event = some s' ∧ Inv forks s') ∧
    (¬Meets forks s event → step forks s event = none) := by
  cases event with
  | addNotify itemType key pair snmpVersion =>
    by_cases hidle : s.pc = .idle
    · rw [step, if_pos hidle]
      exact addNotify_spec h hidle itemType key pair snmpVersion
    · rw [step, if_neg hidle]
      exact ⟨fun _ => ⟨s, rfl, h⟩, fun hmeets => absurd (fun hpc => absurd hpc hidle) hmeets⟩
  | flush =>
    refine ⟨fun _ => ?_, fun hmeets => absurd trivial hmeets⟩
    rw [step]
    split_ifs with hidle
    · refine ⟨_, rfl, h.setPc fun _ _ => ?_⟩
      rw [hidle]
      rfl
    · exact ⟨s, rfl, h⟩
  | turn => exact ⟨fun _ => ⟨_, rfl, h.turn⟩, fun hmeets => absurd trivial hmeets⟩
  | rcv type consumer =>
    refine ⟨fun _ => ?_, fun hmeets => absurd trivial hmeets⟩
    rw [step]
    split_ifs
    · exact ⟨_, rfl, h.rcv type consumer⟩
    · exact ⟨s, rfl, h⟩

theorem notified_iff_allMeet (forks : ℕ → ℕ) (events : List Event) :
    (∃ s, run forks events = some s ∧ Delivered forks s) ↔ AllMeet (step forks) (Meets forks) init events := by
  obtain ⟨hsome, hnone⟩ := foldlM_allMeet (Inv forks) step_spec events (inv_init forks)
  constructor
  · rintro ⟨s, hrun, -⟩
    by_contra hmeets
    cases hrun.symm.trans (hnone hmeets)
  · intro hmeets
    obtain ⟨s, hrun, hinv⟩ := hsome hmeets
    exact ⟨s, hrun, hinv.delivered⟩

def secondRound : List Event :=
  let add := Event.addNotify itemTypeAgent "agent.ping".toList ⟨1, 10⟩ 0
  [add, .flush] ++ List.replicate 60 .turn ++ [add]

theorem second_round_crashes :
    ¬∀ forks events, ∃ s, run forks events = some s ∧ Delivered forks s := by
  intro hall
  obtain ⟨s, hrun, -⟩ := hall (fun _ => 1) secondRound
  have hcrash : (run (fun _ => 1) secondRound).isNone = true := by decide +kernel
  rw [hrun] at hcrash
  cases hcrash

end

end Glaber.Poller.Notify
