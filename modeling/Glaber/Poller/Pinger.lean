import Glaber.Lib.Runs

/-! Polls by ICMP echo (`glb_pinger.c`). -/

namespace Glaber.Poller.Pinger

open Glaber.Lib.Runs

abbrev ItemId := UInt64

inductive IcmpPing where
  | icmpPing
  | icmpPingSec
  | icmpPingLoss
deriving DecidableEq

inductive IcmpPingSecType where
  | min
  | max
  | avg
deriving DecidableEq

structure Config (Addr : Type) where
  icmpping : IcmpPing
  type : IcmpPingSecType
  count : ℕ
  timeout : UInt32
  addr : Addr
  isIp4 : Bool
  count_pos : 0 < count

inductive Report where
  | uint64 (value : ℕ)
  | dbl (value : ℚ)
  | error (text : String)
deriving DecidableEq

structure PingerItem (Addr : Type) where
  config : Config Addr
  ip : Option Addr
  polling : Bool
  queued : Bool
  min : ℤ
  max : ℤ
  sum : ℤ
  rcv : ℕ
  sent : ℕ
  packetArmed : Bool
  timeoutArmed : Bool
  lookups : ℕ
  polls : ℕ
  results : List Report

variable {Addr : Type}

def initItem (config : Config Addr) : PingerItem Addr :=
  ⟨config, none, false, true, 0, 0, 0, 0, 0, false, false, 0, 0, []⟩

def icmpResult (item : PingerItem Addr) : Report :=
  match item.config.icmpping with
  | .icmpPing => .uint64 (if item.rcv ≠ 0 then 1 else 0)
  | .icmpPingSec =>
    let value : ℚ :=
      match item.config.type with
      | .min => item.min
      | .max => item.max
      | .avg => if item.rcv ≠ 0 then item.sum / item.rcv else 0
    .dbl (value / 1000)
  | .icmpPingLoss => .dbl (100 * ((item.config.count : ℚ) - item.rcv) / item.config.count)

def finishIcmpPoll (error : Option String) (item : PingerItem Addr) : PingerItem Addr :=
  let report : Report := error.elim (icmpResult item) .error
  { item with timeoutArmed := false, results := item.results ++ [report], queued := true, polling := false }

/-- The counters after a reply, and whether it was the last one of the poll; the comparison with the timeout is
unsigned. -/
def processResponse (rtt : Int32) (item : PingerItem Addr) : Bool × PingerItem Addr :=
  if item.config.timeout < rtt.toUInt32 then (false, item)
  else
    let item := { item with
      min := if item.rcv = 0 ∨ rtt.toInt < item.min then rtt.toInt else item.min
      max := if item.rcv = 0 ∨ item.max < rtt.toInt then rtt.toInt else item.max
      sum := item.sum + rtt.toInt
      rcv := item.rcv + 1 }
    (item.config.count = item.rcv, item)

def receive (rtt : Int32) (item : PingerItem Addr) : PingerItem Addr :=
  match processResponse rtt item with
  | (true, item) => finishIcmpPoll none item
  | (false, item) => item

def defaultRtt : Int32 := 20

def sendIcmpPacket (sendOk : Bool) (item : PingerItem Addr) : PingerItem Addr :=
  if sendOk then { item with sent := item.sent + 1 }
  else finishIcmpPoll (some "Couldn't start or pass request to glbmap") item

def sendPacketCb (sendOk : Bool) (item : PingerItem Addr) : PingerItem Addr :=
  let item := sendIcmpPacket sendOk item
  if item.sent < item.config.count then { item with packetArmed := true } else { item with timeoutArmed := true }

def scheduleItemPoll (sendOk : Bool) (item : PingerItem Addr) : PingerItem Addr :=
  sendPacketCb sendOk { item with rcv := 0, min := 0, max := 0, sum := 0, sent := 0, polling := true }

def startPing (lookupStarted sendOk : Bool) (item : PingerItem Addr) : PingerItem Addr :=
  if item.polling then { item with queued := true }
  else
    let item := { item with polls := item.polls + 1 }
    if item.config.isIp4 then scheduleItemPoll sendOk { item with ip := some item.config.addr }
    else if lookupStarted then { item with lookups := item.lookups + 1 }
    else { item with results := item.results ++
      [.error "Cannot start DNS lookup. Check the item hostname or interface settings"] }

def itemPollCb (lookupStarted sendOk : Bool) (item : PingerItem Addr) : PingerItem Addr :=
  if item.queued then startPing lookupStarted sendOk { item with queued := false } else item

def resolvedCb (addr : Option Addr) (sendOk : Bool) (item : PingerItem Addr) : PingerItem Addr :=
  if 0 < item.lookups then
    let item := { item with lookups := item.lookups - 1 }
    match addr with
    | none => item
    | some addr => scheduleItemPoll sendOk { item with ip := some addr }
  else item

def resolveFailedCb (naOnResolveFail : Bool) (item : PingerItem Addr) : PingerItem Addr :=
  if 0 < item.lookups then
    let item := { item with lookups := item.lookups - 1 }
    if naOnResolveFail then finishIcmpPoll none { item with sent := item.config.count, rcv := 0 }
    else finishIcmpPoll (some "Failed to resolve host name") item
  else item

def packetEvent (sendOk : Bool) (item : PingerItem Addr) : PingerItem Addr :=
  if item.packetArmed then sendPacketCb sendOk { item with packetArmed := false } else item

def timeoutEvent (item : PingerItem Addr) : PingerItem Addr :=
  if item.timeoutArmed then finishIcmpPoll none { item with timeoutArmed := false } else item

abbrev State (Addr : Type) := ItemId → Option (PingerItem Addr)

def State.onItem (s : State Addr) (itemid : ItemId) (f : PingerItem Addr → PingerItem Addr) : State Addr :=
  match s itemid with
  | none => s
  | some item => Function.update s itemid (some (f item))

inductive Event (Addr : Type) where
  | poll (itemid : ItemId) (lookupStarted sendOk : Bool)
  | resolved (itemid : ItemId) (addr : Option Addr) (sendOk : Bool)
  | resolveFailed (itemid : ItemId)
  | packet (itemid : ItemId) (sendOk : Bool)
  | timeout (itemid : ItemId)
  | reply (itemid : ItemId) (ip : Addr) (rtt : Int32)

section

variable [DecidableEq Addr]

def itemByIp (order : List ItemId) (s : State Addr) (ip : Addr) : Option ItemId :=
  order.find? fun itemid => (s itemid).any fun item => item.ip = some ip

/-- The item a reply is counted for, and the round trip time it is counted with: that of the item id in the reply, while it
polls, or one with the address when there is no such item. -/
def replyTarget (order : List ItemId) (s : State Addr) (itemid : ItemId) (ip : Addr) (rtt : Int32) :
    Option (ItemId × Int32) :=
  match s itemid with
  | none => (itemByIp order s ip).map fun found => (found, defaultRtt)
  | some item =>
    if item.ip ≠ none ∧ item.ip ≠ some ip then none
    else if item.polling then some (itemid, rtt) else none

def step (order : List ItemId) (naOnResolveFail : Bool) (s : State Addr) : Event Addr → State Addr
  | .poll itemid lookupStarted sendOk => s.onItem itemid (itemPollCb lookupStarted sendOk)
  | .resolved itemid addr sendOk => s.onItem itemid (resolvedCb addr sendOk)
  | .resolveFailed itemid => s.onItem itemid (resolveFailedCb naOnResolveFail)
  | .packet itemid sendOk => s.onItem itemid (packetEvent sendOk)
  | .timeout itemid => s.onItem itemid timeoutEvent
  | .reply itemid ip rtt =>
    match replyTarget order s itemid ip rtt with
    | none => s
    | some (found, rtt) => s.onItem found (receive rtt)

end

def init (configs : ItemId → Option (Config Addr)) : State Addr := fun itemid => (configs itemid).map initItem

def PingerItem.inProgress (item : PingerItem Addr) : Bool := item.polling || decide (0 < item.lookups)

structure Orderly (item : PingerItem Addr) : Prop where
  sent_le : item.sent ≤ item.config.count
  rcv_le : item.rcv ≤ item.sent
  idle : item.polling = false → item.packetArmed = false ∧ item.timeoutArmed = false
  busy : item.polling = true → item.queued = false ∧ item.lookups = 0 ∧
    (item.sent < item.config.count ∧ item.packetArmed = true ∧ item.timeoutArmed = false ∨
      item.sent = item.config.count ∧ item.packetArmed = false ∧ item.timeoutArmed = true)
  waiting : 0 < item.lookups → item.lookups = 1 ∧ item.queued = false
  results : item.results.length + item.inProgress.toNat = item.polls

section

variable {item : PingerItem Addr}

lemma initItem_orderly (config : Config Addr) : Orderly (initItem config) := by
  constructor <;> simp [initItem, PingerItem.inProgress]

lemma finishIcmpPoll_orderly (error : Option String) (hsent : item.sent ≤ item.config.count)
    (hrcv : item.rcv ≤ item.sent) (hpacket : item.packetArmed = false) (hlookups : item.lookups = 0)
    (hresults : item.results.length + 1 = item.polls) : Orderly (finishIcmpPoll error item) := by
  constructor <;> simp [finishIcmpPoll, PingerItem.inProgress, *]

lemma sendPacketCb_orderly (hsent : item.sent < item.config.count) (hrcv : item.rcv ≤ item.sent)
    (hpolling : item.polling = true) (hqueued : item.queued = false) (hpacket : item.packetArmed = false)
    (htimeout : item.timeoutArmed = false) (hlookups : item.lookups = 0)
    (hresults : item.results.length + 1 = item.polls) : Orderly (sendPacketCb true item) := by
  simp only [sendPacketCb, sendIcmpPacket, if_true]
  split_ifs with hmore
  · constructor <;> simp_all [PingerItem.inProgress]
    omega
  · constructor <;> simp_all [PingerItem.inProgress] <;> omega

lemma scheduleItemPoll_orderly (hqueued : item.queued = false) (hpacket : item.packetArmed = false)
    (htimeout : item.timeoutArmed = false) (hlookups : item.lookups = 0)
    (hresults : item.results.length + 1 = item.polls) : Orderly (scheduleItemPoll true item) := by
  apply sendPacketCb_orderly
  · exact item.config.count_pos
  · exact le_rfl
  all_goals first | rfl | assumption

lemma itemPollCb_orderly (h : Orderly item) {lookupStarted sendOk : Bool}
    (hsend : item.queued = true → item.config.isIp4 = true → sendOk = true) :
    Orderly (itemPollCb lookupStarted sendOk item) := by
  rw [itemPollCb]
  split_ifs with hqueued
  · have hpolling : item.polling = false := by
      by_contra hbusy
      have := (h.busy (by simpa using hbusy)).1
      simp_all
    have hlookups : item.lookups = 0 := by
      by_contra hwait
      have := (h.waiting (by omega)).2
      simp_all
    obtain ⟨hpacket, htimeout⟩ := h.idle hpolling
    have hresults := h.results
    simp only [PingerItem.inProgress, hpolling, hlookups, lt_irrefl, decide_false, Bool.or_self, Bool.toNat_false] at hresults
    rw [startPing]
    simp only [hpolling, Bool.false_eq_true, if_false]
    split_ifs with hip hstarted
    · rw [hsend hqueued hip]
      apply scheduleItemPoll_orderly <;> simp_all
    · constructor <;> simp_all [PingerItem.inProgress, h.sent_le, h.rcv_le]
    · constructor <;> simp_all [PingerItem.inProgress, h.sent_le, h.rcv_le]
  · exact h

lemma answered_facts (h : Orderly item) (hlookups : 0 < item.lookups) :
    item.lookups - 1 = 0 ∧ item.queued = false ∧ item.packetArmed = false ∧ item.timeoutArmed = false ∧
      item.results.length + 1 = item.polls := by
  obtain ⟨hone, hqueued⟩ := h.waiting hlookups
  have hpolling : item.polling = false := by
    by_contra hbusy
    have := (h.busy (by simpa using hbusy)).2.1
    omega
  have hresults := h.results
  obtain ⟨hpacket, htimeout⟩ := h.idle hpolling
  simp_all [PingerItem.inProgress]

lemma resolvedCb_orderly (h : Orderly item) {addr : Option Addr} {sendOk : Bool}
    (hanswer : 0 < item.lookups → addr ≠ none ∧ sendOk = true) : Orderly (resolvedCb addr sendOk item) := by
  rw [resolvedCb]
  split_ifs with hlookups
  · obtain ⟨haddr, rfl⟩ := hanswer hlookups
    obtain ⟨known, rfl⟩ := Option.ne_none_iff_exists'.mp haddr
    obtain ⟨hone, hqueued, hpacket, htimeout, hresults⟩ := answered_facts h hlookups
    exact scheduleItemPoll_orderly hqueued hpacket htimeout hone hresults
  · exact h

lemma resolveFailedCb_orderly (h : Orderly item) (naOnResolveFail : Bool) :
    Orderly (resolveFailedCb naOnResolveFail item) := by
  rw [resolveFailedCb]
  split_ifs with hlookups hna
  · obtain ⟨hone, _, hpacket, _, hresults⟩ := answered_facts h hlookups
    exact finishIcmpPoll_orderly none le_rfl (Nat.zero_le _) hpacket hone hresults
  · obtain ⟨hone, _, hpacket, _, hresults⟩ := answered_facts h hlookups
    exact finishIcmpPoll_orderly _ h.sent_le h.rcv_le hpacket hone hresults
  · exact h

lemma busy_facts (h : Orderly item) (hpolling : item.polling = true) :
    item.queued = false ∧ item.lookups = 0 ∧ item.results.length + 1 = item.polls := by
  obtain ⟨hqueued, hlookups, _⟩ := h.busy hpolling
  have hresults := h.results
  simp_all [PingerItem.inProgress]

lemma packetEvent_orderly (h : Orderly item) {sendOk : Bool} (hsend : item.packetArmed = true → sendOk = true) :
    Orderly (packetEvent sendOk item) := by
  rw [packetEvent]
  split_ifs with harmed
  · have hpolling : item.polling = true := by
      by_contra hidle
      have := (h.idle (by simpa using hidle)).1
      simp_all
    obtain ⟨hqueued, hlookups, hresults⟩ := busy_facts h hpolling
    obtain ⟨_, _, ⟨hmore, _, htimeout⟩ | ⟨_, hpacket, _⟩⟩ := h.busy hpolling
    · rw [hsend harmed]
      exact sendPacketCb_orderly hmore h.rcv_le hpolling hqueued rfl htimeout hlookups hresults
    · simp_all
  · exact h

lemma timeoutEvent_orderly (h : Orderly item) : Orderly (timeoutEvent item) := by
  rw [timeoutEvent]
  split_ifs with harmed
  · have hpolling : item.polling = true := by
      by_contra hidle
      have := (h.idle (by simpa using hidle)).2
      simp_all
    obtain ⟨_, hlookups, hresults⟩ := busy_facts h hpolling
    obtain ⟨_, _, ⟨_, _, htimeout⟩ | ⟨_, hpacket, _⟩⟩ := h.busy hpolling
    · simp_all
    · exact finishIcmpPoll_orderly none h.sent_le h.rcv_le hpacket hlookups hresults
  · exact h

lemma receive_orderly (h : Orderly item) {rtt : Int32} (hreply : rtt.toUInt32 ≤ item.config.timeout →
    item.rcv < item.sent ∧ (item.polling = true ∨ item.rcv + 1 ≠ item.config.count)) : Orderly (receive rtt item) := by
  rw [receive, processResponse]
  by_cases hlate : item.config.timeout < rtt.toUInt32
  · simpa only [if_pos hlate] using h
  · obtain ⟨hrcv, hopen⟩ := hreply (UInt32.not_lt.mp hlate)
    simp only [if_neg hlate]
    by_cases hlast : item.config.count = item.rcv + 1
    · have hpolling := hopen.resolve_right (not_not.mpr hlast.symm)
      obtain ⟨_, hlookups, hresults⟩ := busy_facts h hpolling
      have hsent := h.sent_le
      obtain ⟨_, _, ⟨hmore, _, _⟩ | ⟨_, hpacket, _⟩⟩ := h.busy hpolling
      · omega
      · simp only [hlast, decide_true]
        exact finishIcmpPoll_orderly none hsent hrcv hpacket hlookups hresults
    · simp only [hlast, decide_false]
      exact ⟨h.sent_le, hrcv, h.idle, h.busy, h.waiting, h.results⟩

end

def AllOrderly (s : State Addr) : Prop := ∀ itemid item, s itemid = some item → Orderly item

lemma onItem_orderly {s : State Addr} {itemid : ItemId} (hs : AllOrderly s) {f : PingerItem Addr → PingerItem Addr}
    (hf : ∀ item, s itemid = some item → Orderly item → Orderly (f item)) : AllOrderly (s.onItem itemid f) := by
  rw [State.onItem]
  cases hitem : s itemid with
  | none => exact hs
  | some item =>
    intro other found hfound
    by_cases hsame : other = itemid
    · subst hsame
      obtain rfl : f item = found := by simpa using hfound
      exact hf item hitem (hs other item hitem)
    · exact hs other found (by simpa [hsame] using hfound)

section

variable [DecidableEq Addr] {order : List ItemId} {naOnResolveFail : Bool} {s : State Addr} {itemid : ItemId}

/-- Every packet can be sent, every lookup is answered with an address or an error, and a reply is counted only for a packet
that has none yet, the last one only for a poll in progress. -/
def KeepsResults (order : List ItemId) (s : State Addr) : Event Addr → Prop
  | .poll itemid _ sendOk => ∀ item, s itemid = some item → item.queued = true → item.config.isIp4 = true → sendOk = true
  | .resolved itemid addr sendOk => ∀ item, s itemid = some item → 0 < item.lookups → addr ≠ none ∧ sendOk = true
  | .packet itemid sendOk => ∀ item, s itemid = some item → item.packetArmed = true → sendOk = true
  | .reply itemid ip rtt => ∀ found rtt', replyTarget order s itemid ip rtt = some (found, rtt') →
      ∀ item, s found = some item → rtt'.toUInt32 ≤ item.config.timeout →
        item.rcv < item.sent ∧ (item.polling = true ∨ item.rcv + 1 ≠ item.config.count)
  | _ => True

lemma step_orderly {e : Event Addr} (hs : AllOrderly s) (h : KeepsResults order s e) :
    AllOrderly (step order naOnResolveFail s e) := by
  cases e with
  | poll itemid lookupStarted sendOk =>
    apply onItem_orderly hs
    intro item hitem hitemOk
    exact itemPollCb_orderly hitemOk (h item hitem)
  | resolved itemid addr sendOk =>
    apply onItem_orderly hs
    intro item hitem hitemOk
    exact resolvedCb_orderly hitemOk (h item hitem)
  | resolveFailed itemid =>
    apply onItem_orderly hs
    intro item _ hitemOk
    exact resolveFailedCb_orderly hitemOk naOnResolveFail
  | packet itemid sendOk =>
    apply onItem_orderly hs
    intro item hitem hitemOk
    exact packetEvent_orderly hitemOk (h item hitem)
  | timeout itemid =>
    apply onItem_orderly hs
    intro item _ hitemOk
    exact timeoutEvent_orderly hitemOk
  | reply itemid ip rtt =>
    simp only [step]
    split
    · exact hs
    · rename_i found rtt' htarget
      apply onItem_orderly hs
      intro item hitem hitemOk
      exact receive_orderly hitemOk (h found rtt' htarget item hitem)

def timersLeft (itemid : ItemId) (item : PingerItem Addr) : List (Event Addr) :=
  List.replicate (item.config.count - item.sent) (.packet itemid true) ++ [.timeout itemid]

lemma timersLeft_finish {item : PingerItem Addr} (hitem : s itemid = some item) (h : Orderly item)
    (hpolling : item.polling = true) : ∃ done, (timersLeft itemid item).foldl (step order naOnResolveFail) s itemid = some done ∧
      done.polls = item.polls ∧ done.results.length = item.polls ∧ done.inProgress = false := by
  induction hleft : item.config.count - item.sent generalizing s item with
  | zero =>
    obtain ⟨_, hlookups, hresults⟩ := busy_facts h hpolling
    obtain ⟨_, _, ⟨hmore, _, _⟩ | ⟨_, _, htimeout⟩⟩ := h.busy hpolling
    · omega
    · refine ⟨timeoutEvent item, ?_, ?_⟩
      · simp [timersLeft, hleft, step, State.onItem, hitem]
      · simp [timeoutEvent, htimeout, finishIcmpPoll, PingerItem.inProgress, hlookups, hresults]
  | succ n ih =>
    obtain ⟨_, _, ⟨hmore, hpacket, _⟩ | ⟨hall, _, _⟩⟩ := h.busy hpolling
    · have hnext : Orderly (packetEvent true item) := packetEvent_orderly h fun _ => rfl
      have hsent : (packetEvent true item).sent = item.sent + 1 ∧ (packetEvent true item).config = item.config ∧
          (packetEvent true item).polling = true ∧ (packetEvent true item).polls = item.polls := by
        simp only [packetEvent, hpacket, if_true, sendPacketCb, sendIcmpPacket]
        split_ifs <;> simp [hpolling]
      obtain ⟨hsent, hconfig, hstill, hpolls⟩ := hsent
      have hs' : step order naOnResolveFail s (.packet itemid true) itemid = some (packetEvent true item) := by
        simp [step, State.onItem, hitem]
      have hone : (packetEvent true item).config.count - (packetEvent true item).sent = n := by
        rw [hsent, hconfig]
        omega
      obtain ⟨done, hdone, hp, hr, hi⟩ := ih hs' hnext hstill hone
      refine ⟨done, ?_, hp.trans hpolls, hr.trans hpolls, hi⟩
      rw [timersLeft, hleft, List.replicate_succ, List.cons_append, List.foldl_cons]
      rw [timersLeft, hone] at hdone
      exact hdone
    · omega

theorem polls_have_one_result (order : List ItemId) (naOnResolveFail : Bool) (configs : ItemId → Option (Config Addr))
    (es : List (Event Addr))
    (h : ∀ t ∈ transitions (step order naOnResolveFail) (init configs) es, KeepsResults order t.source t.event) :
    ∀ t ∈ transitions (step order naOnResolveFail) (init configs) es, ∀ itemid item, t.target itemid = some item →
      item.results.length + item.inProgress.toNat = item.polls ∧ item.rcv ≤ item.sent ∧
      (item.polling = true → ∃ done,
        (timersLeft itemid item).foldl (step order naOnResolveFail) t.target itemid = some done ∧
          done.polls = item.polls ∧ done.results.length = item.polls ∧ done.inProgress = false) := by
  have hinit : AllOrderly (init configs) := by
    intro itemid item hitem
    obtain ⟨config, _, rfl⟩ := Option.map_eq_some_iff.mp hitem
    exact initItem_orderly config
  refine transitions_rule (fun _ s => AllOrderly s) hinit ?_ h
  intro past s e hs hkeeps
  have hnext : AllOrderly (step order naOnResolveFail s e) := step_orderly hs hkeeps
  refine ⟨hnext, ?_⟩
  intro itemid item hitem
  have hitemOk := hnext itemid item hitem
  exact ⟨hitemOk.results, hitemOk.rcv_le, timersLeft_finish hitem hitemOk⟩

end

def onePacket : ItemId → Option (Config ℕ) := fun itemid =>
  if itemid = 1 then some ⟨.icmpPing, .avg, 1, 500, 7, true, Nat.one_pos⟩ else none

def repliedPoll : List (Event ℕ) := [.poll 1 true true, .reply 1 7 10]

theorem repliedPoll_one_result : (transitions (step [1] false) (init onePacket) repliedPoll).length = 2 ∧
    ∀ t ∈ transitions (step [1] false) (init onePacket) repliedPoll, ∀ itemid item, t.target itemid = some item →
      item.results.length + item.inProgress.toNat = item.polls ∧ item.rcv ≤ item.sent ∧
      (item.polling = true → ∃ done, (timersLeft itemid item).foldl (step [1] false) t.target itemid = some done ∧
        done.polls = item.polls ∧ done.results.length = item.polls ∧ done.inProgress = false) := by
  refine ⟨rfl, ?_⟩
  apply polls_have_one_result
  intro t ht
  simp only [transitions, repliedPoll, transitionsFrom, List.mem_cons, List.not_mem_nil, or_false] at ht
  obtain rfl | rfl := ht
  · intro item _ _ _
    rfl
  · intro found rtt' htarget item hitem _
    obtain ⟨rfl, rfl⟩ : (1 : ItemId) = found ∧ (10 : Int32) = rtt' := by simpa using Option.some.inj htarget
    obtain rfl := Option.some.inj hitem
    decide

def unsentPoll : List (Event ℕ) := [.poll 1 true false, .packet 1 false]

theorem unsentPoll_two_results : ¬∀ es : List (Event ℕ), ∀ t ∈ transitions (step [1] false) (init onePacket) es,
    ∀ itemid item, t.target itemid = some item →
      item.results.length + item.inProgress.toNat = item.polls ∧ item.rcv ≤ item.sent := by
  intro h
  have hlast := h unsentPoll
  simp only [transitions, unsentPoll, transitionsFrom, List.forall_mem_cons] at hlast
  have htwo : (2 : ℕ) = 1 := (hlast.2.1 1 _ rfl).1
  cases htwo

end Glaber.Poller.Pinger
