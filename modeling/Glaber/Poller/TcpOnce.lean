import Glaber.Poller.Tcp

namespace Glaber.Poller.Tcp

open Glaber.Lib.Runs Glaber.Poller.Contention Glaber.Poller.TcpAgent

variable {Addr : Type}

def Entry.isResultOf (itemid : ItemId) : Entry → Bool
  | .interpreted id _ _ result => id = itemid ∧ result.isSome
  | .error id _ => id = itemid
  | .uint64 id _ => id = itemid

def Shared.reported (shared : Shared Addr) (itemid : ItemId) : ℕ := shared.log.countP (·.isResultOf itemid)

def Shared.connsOf (shared : Shared Addr) (itemid : ItemId) : List (Conn Addr) :=
  shared.conns.filter (·.itemid = itemid)

def Shared.inProgress (shared : Shared Addr) (itemid : ItemId) : ℕ :=
  shared.lookups itemid + (shared.connsOf itemid).length

def Event.itemid : Event Addr → Option ItemId
  | .create itemid _ _ _ | .delete itemid | .poll itemid _ _ _ | .resolved itemid _ _ _ _ | .resolveFailed itemid _ _
  | .resolvedEmpty itemid | .connected itemid | .read itemid _ _ | .error itemid | .timeout itemid
  | .eof itemid _ _ => some itemid
  | .housekeep _ => none

def Event.Polls (itemid : ItemId) : Event Addr → Prop
  | .poll id _ _ _ => id = itemid
  | _ => False

structure Reports (n : ℕ) (p q : Poll Addr) : Prop where
  itemid : q.itemid = p.itemid
  bev : q.item.bev = p.item.bev
  conns : q.shared.conns = p.shared.conns
  nextConn : q.shared.nextConn = p.shared.nextConn
  lookups : q.shared.lookups = p.shared.lookups
  reported : ∀ id, q.shared.reported id = p.shared.reported id + if id = p.itemid then n else 0

structure Aside (p q : Poll Addr) : Prop where
  itemid : q.itemid = p.itemid
  lookups : ∀ other ≠ p.itemid, q.shared.lookups other = p.shared.lookups other
  reported : ∀ other ≠ p.itemid, q.shared.reported other = p.shared.reported other
  conns : ∀ other ≠ p.itemid, (q.shared.connsOf other).Sublist (p.shared.connsOf other)

structure Sent (p q : Poll Addr) : Prop extends Aside p q where
  lookups' : q.shared.lookups = p.shared.lookups
  since : p.shared.reported p.itemid ≤ q.shared.reported p.itemid
  balance : q.shared.reported p.itemid + (q.shared.connsOf p.itemid).length =
    p.shared.reported p.itemid + (p.shared.connsOf p.itemid).length + 1
  opened : q.shared.nextConn ≤ p.shared.nextConn + 1
  own : p.shared.connsOf p.itemid = [] → ∀ conn ∈ q.shared.connsOf p.itemid, q.item.bev = some conn

section

variable {n m : ℕ} {p q r : Poll Addr}

namespace Reports

lemma trans (h : Reports n p q) (h' : Reports m q r) : Reports (n + m) p r where
  itemid := h'.itemid.trans h.itemid
  bev := h'.bev.trans h.bev
  conns := h'.conns.trans h.conns
  nextConn := h'.nextConn.trans h.nextConn
  lookups := h'.lookups.trans h.lookups
  reported id := by
    rw [h'.reported, h.reported, h.itemid]
    split_ifs <;> omega

lemma of_log (hitemid : q.itemid = p.itemid) (hbev : q.item.bev = p.item.bev) (hconns : q.shared.conns = p.shared.conns)
    (hnext : q.shared.nextConn = p.shared.nextConn) (hlookups : q.shared.lookups = p.shared.lookups)
    (hlog : q.shared.log = p.shared.log) : Reports 0 p q :=
  ⟨hitemid, hbev, hconns, hnext, hlookups, fun id => by rw [Shared.reported, hlog, Shared.reported, ite_self]; rfl⟩

lemma refl (p : Poll Addr) : Reports 0 p p := of_log rfl rfl rfl rfl rfl rfl

lemma queue (p : Poll Addr) : Reports 0 p p.returnItemToQueue := of_log rfl rfl rfl rfl rfl rfl

lemma report (p : Poll Addr) {entry : Entry} (h : ∀ id, entry.isResultOf id ↔ id = p.itemid ∧ n = 1) (hn : n ≤ 1) :
    Reports n p (p.report entry) := by
  refine ⟨rfl, rfl, rfl, rfl, rfl, fun id => ?_⟩
  rw [Shared.reported, Poll.report, List.countP_append, List.countP_singleton, Shared.reported]
  simp only [h]
  by_cases hid : id = p.itemid
  · obtain rfl | rfl : n = 0 ∨ n = 1 := by omega
    · simp
    · simp [hid]
  · simp [hid]

lemma error (p : Poll Addr) (text : String) : Reports 1 p (p.report (.error p.itemid text)) :=
  report p (by simp [Entry.isResultOf, eq_comm]) le_rfl

lemma uint64 (p : Poll Addr) (value : ℕ) : Reports 1 p (p.report (.uint64 p.itemid value)) :=
  report p (by simp [Entry.isResultOf, eq_comm]) le_rfl

lemma resolveFailed (errcode count : ℤ) (p : Poll Addr) : Reports 1 p (resolveFailedCb errcode count p) :=
  (error p _).trans (queue _)

lemma connFail (text : String) (p : Poll Addr) : Reports 1 p (connFailCb text p) := by
  rw [connFailCb]
  split
  · exact error p text
  · exact uint64 p 0

lemma inProgress (h : Reports n p q) (id : ItemId) : q.shared.inProgress id = p.shared.inProgress id := by
  rw [Shared.inProgress, Shared.connsOf, h.lookups, h.conns]
  rfl

lemma aside (h : Reports n p q) : Aside p q where
  itemid := h.itemid
  lookups other _ := congrFun h.lookups other
  reported other hother := by rw [h.reported, if_neg hother, add_zero]
  conns other _ := by rw [Shared.connsOf, h.conns]; exact List.Sublist.refl _

end Reports

namespace Aside

lemma trans (h : Aside p q) (h' : Aside q r) : Aside p r where
  itemid := h'.itemid.trans h.itemid
  lookups other hother := (h'.lookups other (h.itemid ▸ hother)).trans (h.lookups other hother)
  reported other hother := (h'.reported other (h.itemid ▸ hother)).trans (h.reported other hother)
  conns other hother := (h'.conns other (h.itemid ▸ hother)).trans (h.conns other hother)

lemma newBev (p : Poll Addr) : Aside p (newBev p) := by
  refine ⟨rfl, fun _ _ => rfl, fun _ _ => rfl, fun other hother => ?_⟩
  rw [Shared.connsOf, Tcp.newBev, List.filter_cons_of_neg (by simpa using hother.symm)]
  exact List.Sublist.refl _

lemma resolve (lookup : Lookup) (p : Poll Addr) : Aside p (pollerAsyncResolve lookup p) := by
  rw [pollerAsyncResolve]
  split_ifs
  · exact ⟨rfl, fun other hother => Function.update_of_ne hother _ _, fun _ _ => rfl, fun _ _ => List.Sublist.refl _⟩
  · exact (Reports.error p _).aside

end Aside

lemma newBev_connsOf (p : Poll Addr) : (newBev p).shared.connsOf p.itemid =
    ⟨p.shared.nextConn, p.itemid, p.item.ipaddr⟩ :: p.shared.connsOf p.itemid := by
  rw [newBev, Shared.connsOf, List.filter_cons_of_pos (by simp)]
  rfl

lemma Reports.sent (h : Reports 1 r q) (haside : Aside p r) (hlookups : r.shared.lookups = p.shared.lookups)
    (hreported : r.shared.reported p.itemid = p.shared.reported p.itemid)
    (hconns : r.shared.connsOf p.itemid = p.shared.connsOf p.itemid)
    (hnext : r.shared.nextConn ≤ p.shared.nextConn + 1) : Sent p q := by
  have hone := h.reported p.itemid
  rw [if_pos haside.itemid.symm, hreported] at hone
  have hsame : q.shared.connsOf p.itemid = p.shared.connsOf p.itemid := by
    rw [Shared.connsOf, h.conns]
    exact hconns
  refine ⟨haside.trans h.aside, h.lookups.trans hlookups, by omega, ?_, h.nextConn.trans_le hnext, ?_⟩
  · rw [hone, hsame]
    omega
  · intro hnone conn hconn
    rw [hsame, hnone] at hconn
    cases hconn

end

section

variable {base n : ℕ} {itemid : ItemId} {bev : Option (Conn Addr)} {shared : Shared Addr} {p q : Poll Addr}
  {s : State Addr}

structure Spare (base n : ℕ) (shared : Shared Addr) (itemid : ItemId) (bev : Option (Conn Addr)) : Prop where
  opened : n + shared.lookups itemid ≤ 1
  since : base ≤ shared.reported itemid
  reported : shared.reported itemid + shared.inProgress itemid ≤ base + 1
  own : ∀ conn ∈ shared.connsOf itemid, bev = some conn

def State.bevOf (s : State Addr) (itemid : ItemId) : Option (Conn Addr) := (s.items itemid).bind TcpItem.bev

lemma Spare.aside (h : Spare base n p.shared itemid bev) (haside : Aside p q) (hother : itemid ≠ p.itemid) :
    Spare base n q.shared itemid bev := by
  have hconns := haside.conns itemid hother
  have hlength := hconns.length_le
  have hreported := h.reported
  rw [Shared.inProgress] at hreported
  refine ⟨?_, ?_, ?_, fun conn hconn => h.own conn (hconns.subset hconn)⟩
  · rw [haside.lookups itemid hother]
    exact h.opened
  · rw [haside.reported itemid hother]
    exact h.since
  · rw [haside.reported itemid hother, Shared.inProgress, haside.lookups itemid hother]
    omega

lemma Spare.quiet (h : Spare base n p.shared p.itemid p.item.bev) (hquiet : Reports 0 p q) :
    Spare base n q.shared p.itemid q.item.bev := by
  have hreported := hquiet.reported p.itemid
  rw [ite_self, add_zero] at hreported
  refine ⟨?_, ?_, ?_, ?_⟩
  · rw [hquiet.lookups]
    exact h.opened
  · rw [hreported]
    exact h.since
  · rw [hreported, hquiet.inProgress]
    exact h.reported
  · rw [Shared.connsOf, hquiet.conns, hquiet.bev]
    exact h.own

lemma Sent.spare (h : Sent p q) (hidle : p.shared.inProgress p.itemid = 0) (hsince : base ≤ p.shared.reported p.itemid)
    (hspare : p.shared.reported p.itemid ≤ base) :
    Spare base (q.shared.nextConn - p.shared.nextConn) q.shared p.itemid q.item.bev := by
  rw [Shared.inProgress, Nat.add_eq_zero_iff, List.length_eq_zero_iff] at hidle
  have hopened := h.opened
  have hbalance := h.balance
  have hmore := h.since
  rw [hidle.2, List.length_nil] at hbalance
  refine ⟨?_, hsince.trans h.since, ?_, h.own hidle.2⟩
  · rw [h.lookups', hidle.1]
    omega
  · rw [Shared.inProgress, h.lookups', hidle.1]
    omega

lemma bevOf_of_item {item : TcpItem Addr} (h : s.items itemid = some item) : s.bevOf itemid = item.bev := by
  rw [State.bevOf, h]
  rfl

lemma bevOf_congr {items : ItemId → Option (TcpItem Addr)} (h : items itemid = s.items itemid) :
    State.bevOf ⟨items, shared⟩ itemid = s.bevOf itemid := congrArg (Option.bind · TcpItem.bev) h

lemma Spare.onItem {id : ItemId} {callback : Poll Addr → Poll Addr} (hs : Spare base n s.shared itemid (s.bevOf itemid))
    (haside : ∀ p, Aside p (callback p))
    (hown : ∀ item, id = itemid → s.items id = some item →
      let q := callback ⟨s.shared, id, item⟩
      Spare base (n + (q.shared.nextConn - s.shared.nextConn)) q.shared itemid q.item.bev) :
    Spare base (if id = itemid then n + ((s.onItem id callback).shared.nextConn - s.shared.nextConn) else n)
      (s.onItem id callback).shared itemid ((s.onItem id callback).bevOf itemid) := by
  rw [State.onItem]
  cases hitem : s.items id with
  | none =>
    rw [Nat.sub_self, add_zero, ite_self]
    exact hs
  | some item =>
    dsimp only
    by_cases hid : id = itemid
    · rw [if_pos hid]
      have hq := hown item hid hitem
      subst hid
      rwa [bevOf_of_item (Function.update_self _ _ _)]
    · have hsame := hs.aside (haside ⟨s.shared, id, item⟩) (Ne.symm hid)
      rw [if_neg hid]
      rwa [← bevOf_congr (Function.update_of_ne (Ne.symm hid) _ s.items)] at hsame

lemma State.answered_connsOf (s : State Addr) (id other : ItemId) :
    (s.answered id).shared.connsOf other = s.shared.connsOf other := rfl

lemma Spare.answered (h : Spare base n s.shared itemid bev) (id : ItemId) :
    Spare base n (s.answered id).shared itemid bev := by
  have hlookups : (s.answered id).shared.lookups itemid ≤ s.shared.lookups itemid := by
    simp only [State.answered, Function.update_apply]
    split_ifs with hid
    · rw [hid]
      omega
    · rfl
  have hopened := h.opened
  have hreported := h.reported
  rw [Shared.inProgress, ← s.answered_connsOf id] at hreported
  refine ⟨by omega, h.since, ?_, h.own⟩
  rw [Shared.inProgress]
  have hsame : (s.answered id).shared.reported itemid = s.shared.reported itemid := rfl
  omega

lemma Spare.awaited (h : Spare base n s.shared itemid bev) (hlookups : 0 < s.shared.lookups itemid) :
    n = 0 ∧ (s.answered itemid).shared.inProgress itemid = 0 ∧ (s.answered itemid).shared.reported itemid = base := by
  have hopened := h.opened
  have hsince := h.since
  have hreported := h.reported
  rw [Shared.inProgress] at hreported
  have hsame : (s.answered itemid).shared.reported itemid = s.shared.reported itemid := rfl
  refine ⟨by omega, ?_, by omega⟩
  have hanswered : (s.answered itemid).shared.lookups itemid = s.shared.lookups itemid - 1 := Function.update_self _ _ _
  rw [Shared.inProgress, s.answered_connsOf, hanswered]
  omega

lemma Reports.spare {k : ℕ} (h : Reports k p q) (hk : k ≤ 1) (hidle : p.shared.inProgress p.itemid = 0)
    (hbase : p.shared.reported p.itemid = base) (hn : n ≤ 1) : Spare base n q.shared p.itemid q.item.bev := by
  have hreported := h.reported p.itemid
  rw [if_pos rfl, hbase] at hreported
  have hprogress := h.inProgress p.itemid
  rw [hidle] at hprogress
  obtain ⟨hlookups, hconns⟩ := Nat.add_eq_zero_iff.mp hprogress
  refine ⟨by omega, by omega, by omega, ?_⟩
  intro conn hconn
  rw [List.length_eq_zero_iff.mp hconns] at hconn
  cases hconn

lemma Spare.onLookup {id : ItemId} {callback : Poll Addr → Poll Addr} (hs : Spare base n s.shared itemid (s.bevOf itemid))
    (haside : ∀ p, Aside p (callback p))
    (hown : ∀ p : Poll Addr, p.shared.inProgress p.itemid = 0 → p.shared.reported p.itemid = base →
      Spare base ((callback p).shared.nextConn - p.shared.nextConn) (callback p).shared p.itemid (callback p).item.bev) :
    Spare base (if id = itemid then n + ((s.onLookup id callback).shared.nextConn - s.shared.nextConn) else n)
      (s.onLookup id callback).shared itemid ((s.onLookup id callback).bevOf itemid) := by
  rw [State.onLookup]
  by_cases hlookups : 0 < s.shared.lookups id
  · rw [if_pos hlookups]
    have hanswered : Spare base n (s.answered id).shared itemid ((s.answered id).bevOf itemid) := hs.answered id
    apply hanswered.onItem haside
    intro item hid hitem q
    subst hid
    obtain ⟨hn, hidle, hbase⟩ := hs.awaited hlookups
    rw [hn, zero_add]
    exact hown ⟨(s.answered id).shared, id, item⟩ hidle hbase
  · rw [if_neg hlookups, Nat.sub_self, add_zero, ite_self]
    exact hs

lemma bevOf_update (items : ItemId → Option (TcpItem Addr)) (itemid : ItemId) (item : Option (TcpItem Addr)) :
    State.bevOf ⟨Function.update items itemid item, shared⟩ itemid = item.bind TcpItem.bev :=
  congrArg (Option.bind · TcpItem.bev) (Function.update_self _ _ _)

lemma resolve_balance (lookup : Lookup) (p : Poll Addr) :
    (pollerAsyncResolve lookup p).shared.reported p.itemid + (pollerAsyncResolve lookup p).shared.inProgress p.itemid =
      p.shared.reported p.itemid + p.shared.inProgress p.itemid + 1 := by
  rw [pollerAsyncResolve]
  split_ifs
  · have hlookups : Function.update p.shared.lookups p.itemid (p.shared.lookups p.itemid + 1) p.itemid =
        p.shared.lookups p.itemid + 1 := Function.update_self _ _ _
    simp only [Shared.inProgress, hlookups, Shared.reported, Shared.connsOf]
    omega
  · have hreports := Reports.error p "Cannot start DNS lookup. Check the item hostname or interface settings"
    have hone := hreports.reported p.itemid
    rw [if_pos rfl] at hone
    rw [hreports.inProgress, hone]
    omega

lemma Sent.total {p q : Poll Addr} (h : Sent p q) : q.shared.reported p.itemid + q.shared.inProgress p.itemid =
    p.shared.reported p.itemid + p.shared.inProgress p.itemid + 1 := by
  have := h.balance
  rw [Shared.inProgress, Shared.inProgress, h.lookups']
  omega

end

variable [DecidableEq Addr]

def countOpened (unreachableDelay : ℤ) (itemid : ItemId) (s : State Addr) (event : Event Addr) (n : ℕ) : ℕ :=
  if event.itemid = some itemid then n + ((step unreachableDelay s event).shared.nextConn - s.shared.nextConn) else n

def opened (unreachableDelay : ℤ) (itemid : ItemId) (s : State Addr) (events : List (Event Addr)) : ℕ :=
  follow (step unreachableDelay) (countOpened unreachableDelay itemid) s 0 events

def Once (unreachableDelay : ℤ) (itemid : ItemId) (s : State Addr) (events : List (Event Addr)) : Prop :=
  opened unreachableDelay itemid s events ≤ 1 ∧
    (events.foldl (step unreachableDelay) s).shared.reported itemid ≤ s.shared.reported itemid + 1

def Starts (unreachableDelay now : ℤ) (shared : Shared Addr) (item : TcpItem Addr) : Prop :=
  item.queued ∧ (getSessions unreachableDelay now shared.sessions item.ipaddr).1 < tcpHostContention

def PollsOnce (unreachableDelay now : ℤ) (shared : Shared Addr) (itemid : ItemId) (item : TcpItem Addr) : Prop :=
  (Starts unreachableDelay now shared item → ¬item.nextResolve < now ∧ shared.inProgress itemid = 0) ∧
  (¬Starts unreachableDelay now shared item → shared.inProgress itemid ≤ 1 ∧
    ∀ conn ∈ shared.connsOf itemid, item.bev = some conn)

section

variable {n m : ℕ} {p q r : Poll Addr}

lemma Reports.removeSession (p : Poll Addr) : Reports 0 p p.removeSession := of_log rfl rfl rfl rfl rfl rfl

lemma Reports.addSession (now : ℤ) (p : Poll Addr) : Reports 0 p (p.addSession now) := of_log rfl rfl rfl rfl rfl rfl

lemma Aside.destroy (p : Poll Addr) : Aside p (asyncTcpDestroySession p) := by
  rw [asyncTcpDestroySession]
  split
  · refine ⟨rfl, fun _ _ => rfl, fun _ _ => rfl, fun other _ => ?_⟩
    exact List.Sublist.filter _ List.erase_sublist
  · exact (Reports.queue p).aside

def Ends (p q : Poll Addr) : Prop :=
  Reports 0 p q ∨ ∃ n ≤ 1, ∃ p', Reports n p p' ∧ Reports 0 (asyncTcpDestroySession p') q

lemma destroy_without_bev (h : p.item.bev = none) : Reports 0 p (asyncTcpDestroySession p) := by
  rw [asyncTcpDestroySession, h]
  exact Reports.queue p

lemma destroy_bev (p : Poll Addr) : (asyncTcpDestroySession p).item.bev = none := by
  rw [asyncTcpDestroySession]
  split
  · rfl
  · assumption

lemma destroy_conns (p : Poll Addr) (id : ItemId) : (asyncTcpDestroySession p).shared.connsOf id =
    p.item.bev.elim (p.shared.connsOf id) (p.shared.connsOf id).erase := by
  rw [asyncTcpDestroySession]
  split
  · rename_i conn hbev
    rw [hbev, Option.elim_some, Shared.connsOf, Shared.connsOf, List.erase_filter]
    rfl
  · rename_i hbev
    rw [hbev]
    rfl

lemma destroy_same (p : Poll Addr) : (asyncTcpDestroySession p).shared.nextConn = p.shared.nextConn ∧
    (asyncTcpDestroySession p).shared.lookups = p.shared.lookups ∧
    (asyncTcpDestroySession p).shared.log = p.shared.log := by
  rw [asyncTcpDestroySession]
  split <;> exact ⟨rfl, rfl, rfl⟩

lemma responseCb_ends (now : ℤ) (bytes : List UInt8) (p : Poll Addr) : Ends p (responseCb now bytes p) := by
  rw [responseCb]
  split
  · exact .inl (Reports.refl p)
  · rename_i conn data _ _
    dsimp only
    generalize TcpAgent.responseCb Byte.octet p.shared.lastcheck now data (bytes.map (Byte.mk conn.id)) = reply
    let stored : Poll Addr :=
      { p with
        shared := { p.shared with lastcheck := reply.lastcheck }
        item := { p.item with protoCtx := .agent reply.data } }
    have hstored : Reports 0 p stored := Reports.of_log rfl rfl rfl rfl rfl rfl
    cases hresult : reply.result with
    | none =>
      have hreport : Reports 0 stored (stored.report (.interpreted p.itemid conn.id reply.interpreted none)) :=
        Reports.report stored (by simp [Entry.isResultOf]) (Nat.zero_le 1)
      exact .inl (hstored.trans hreport)
    | some result =>
      have hreport : Reports 1 stored (stored.report (.interpreted p.itemid conn.id reply.interpreted (some result))) :=
        Reports.report stored (by simp [Entry.isResultOf, stored, eq_comm]) le_rfl
      exact .inr ⟨1, le_rfl, _, (Nat.zero_add 1) ▸ hstored.trans hreport, Reports.removeSession _⟩
  · exact .inr ⟨1, le_rfl, _, Reports.uint64 p 1, Reports.removeSession _⟩

lemma connectedCb_ends (p : Poll Addr) : Ends p (connectedCb p) := by
  rw [connectedCb]
  split
  · exact .inl (Reports.refl p)
  · exact .inr ⟨1, le_rfl, _, Reports.uint64 p 1, Reports.removeSession _⟩

lemma connFailCb_ends (text : String) (p : Poll Addr) : Ends p (asyncTcpDestroySession (connFailCb text p)) :=
  .inr ⟨1, le_rfl, _, Reports.connFail text p, Reports.refl _⟩

lemma eofCb_ends (now : ℤ) (bytes : List UInt8) (p : Poll Addr) : Ends p (eofCb now bytes p) := by
  rw [eofCb]
  split_ifs
  · exact .inl (Reports.refl p)
  · obtain hsame | ⟨n, hn, p', hreports, hclosed⟩ := responseCb_ends now bytes p
    · exact .inr ⟨0, Nat.zero_le 1, _, hsame.trans (Reports.removeSession _), Reports.refl _⟩
    · refine .inr ⟨n, hn, p', hreports, ?_⟩
      have hremoved := hclosed.trans (Reports.removeSession _)
      exact hremoved.trans (destroy_without_bev (hremoved.bev.trans (destroy_bev p')))
  · exact connFailCb_ends _ p

lemma Ends.aside (h : Ends p q) : Aside p q := by
  obtain hsame | ⟨_, _, p', hreports, hclosed⟩ := h
  · exact hsame.aside
  · exact hreports.aside.trans ((Aside.destroy p').trans hclosed.aside)

lemma Ends.nextConn (h : Ends p q) : q.shared.nextConn = p.shared.nextConn := by
  obtain hsame | ⟨_, _, p', hreports, hclosed⟩ := h
  · exact hsame.nextConn
  · exact hclosed.nextConn.trans ((destroy_same p').1.trans hreports.nextConn)

lemma tcpSendRequest_sent (now : ℤ) (connect : Connect) (p : Poll Addr) : Sent p (tcpSendRequest now connect p) := by
  cases connect with
  | noSocket => exact (Reports.error p _).sent (Reports.refl p).aside rfl rfl rfl (Nat.le_succ _)
  | refused =>
    obtain ⟨hnext, hlookups, hlog⟩ := destroy_same (newBev p)
    have haside := (Aside.newBev p).trans (Aside.destroy (newBev p))
    have hreport := Reports.error (asyncTcpDestroySession (newBev p)) "There was an error while connect"
    refine hreport.sent haside hlookups ?_ ?_ hnext.le
    · rw [Shared.reported, hlog]
      rfl
    · rw [destroy_conns, newBev_connsOf]
      exact List.erase_cons_head _ _
  | started =>
    refine ⟨(Aside.newBev p).trans ?_, rfl, le_rfl, ?_, le_rfl, ?_⟩
    · exact (Reports.addSession now (newBev p)).aside
    · have hconns : (tcpSendRequest now .started p).shared.connsOf p.itemid = (newBev p).shared.connsOf p.itemid := rfl
      rw [hconns, newBev_connsOf, List.length_cons, ← Nat.add_assoc]
      rfl
    · intro hnone conn hconn
      have hconns : (tcpSendRequest now .started p).shared.connsOf p.itemid = (newBev p).shared.connsOf p.itemid := rfl
      rw [hconns, newBev_connsOf, hnone, List.mem_singleton] at hconn
      exact congrArg some hconn.symm

end

section

variable {base n : ℕ} {itemid : ItemId} {bev : Option (Conn Addr)} {shared : Shared Addr} {p q : Poll Addr}
  {s : State Addr}

lemma Spare.closed (h : Spare base n shared itemid bev) :
    bev.elim (shared.connsOf itemid) (shared.connsOf itemid).erase = [] := by
  have hreported := h.reported
  have hsince := h.since
  rw [Shared.inProgress] at hreported
  match hconns : shared.connsOf itemid with
  | [] => cases bev <;> rfl
  | [conn] =>
    rw [h.own conn (by simp [hconns])]
    exact List.erase_cons_head conn []
  | conn :: conn' :: rest =>
    rw [hconns] at hreported
    simp only [List.length_cons] at hreported
    omega

lemma Spare.destroy {k : ℕ} {p' : Poll Addr} (h : Spare base n p.shared p.itemid p.item.bev) (hreports : Reports k p p')
    (hk : k ≤ (p.shared.connsOf p.itemid).length) :
    Spare base n (asyncTcpDestroySession p').shared p.itemid (asyncTcpDestroySession p').item.bev := by
  obtain ⟨-, hlookups, hlog⟩ := destroy_same p'
  have hspare := h.reported
  have hopened := h.opened
  have hsince := h.since
  rw [Shared.inProgress] at hspare
  have hreported := hreports.reported p.itemid
  rw [if_pos rfl] at hreported
  have hlookups' : (asyncTcpDestroySession p').shared.lookups = p.shared.lookups := hlookups.trans hreports.lookups
  have hreported' : (asyncTcpDestroySession p').shared.reported p.itemid = p.shared.reported p.itemid + k := by
    rw [Shared.reported, hlog]
    exact hreported
  have hconns : (asyncTcpDestroySession p').shared.connsOf p.itemid = [] := by
    rw [destroy_conns, Shared.connsOf, hreports.conns, hreports.bev]
    exact h.closed
  refine ⟨by rw [hlookups']; omega, by rw [hreported']; omega, ?_, ?_⟩
  · rw [Shared.inProgress, hreported', hlookups', hconns, List.length_nil]
    omega
  · intro conn hconn
    rw [hconns] at hconn
    cases hconn

lemma Spare.ends (h : Spare base n p.shared p.itemid p.item.bev) (hopen : p.shared.connsOf p.itemid ≠ [])
    (hends : Ends p q) : Spare base n q.shared p.itemid q.item.bev := by
  obtain hquiet | ⟨k, hk, p', hreports, hclosed⟩ := hends
  · exact h.quiet hquiet
  · have hitemid : (asyncTcpDestroySession p').itemid = p.itemid := (Aside.destroy p').itemid.trans hreports.itemid
    have hdestroyed := h.destroy hreports (hk.trans (List.length_pos_of_ne_nil hopen))
    rw [← hitemid] at hdestroyed ⊢
    exact hdestroyed.quiet hclosed

lemma Spare.onBev {id : ItemId} {callback : Poll Addr → Poll Addr} (hs : Spare base n s.shared itemid (s.bevOf itemid))
    (hends : ∀ p, Ends p (callback p)) :
    Spare base (if id = itemid then n + ((s.onBev id callback).shared.nextConn - s.shared.nextConn) else n)
      (s.onBev id callback).shared itemid ((s.onBev id callback).bevOf itemid) := by
  rw [State.onBev]
  by_cases hany : s.shared.conns.any (·.itemid = id)
  · rw [if_pos hany]
    apply hs.onItem fun p => (hends p).aside
    intro item hid hitem q
    subst hid
    rw [(hends _).nextConn, Nat.sub_self, add_zero]
    rw [bevOf_of_item hitem] at hs
    refine Spare.ends (p := ⟨s.shared, id, item⟩) hs ?_ (hends _)
    obtain ⟨conn, hconn, hsame⟩ := List.any_eq_true.mp hany
    exact List.ne_nil_of_mem (List.mem_filter.mpr ⟨hconn, hsame⟩)
  · rw [if_neg hany, Nat.sub_self, add_zero, ite_self]
    exact hs

lemma deleteItem_bevOf (s : State Addr) (id : ItemId) : (s.deleteItem id).bevOf id = none := by
  rw [State.deleteItem]
  cases hitem : s.items id with
  | none =>
    rw [State.bevOf, hitem]
    rfl
  | some item => exact bevOf_update _ _ _

lemma deleteItem_nextConn (s : State Addr) (id : ItemId) : (s.deleteItem id).shared.nextConn = s.shared.nextConn := by
  rw [State.deleteItem]
  split
  · rfl
  · dsimp only
    split_ifs
    · exact (destroy_same _).1
    · rfl

lemma Spare.deleteItem (hs : Spare base n s.shared itemid (s.bevOf itemid)) (id : ItemId) :
    Spare base n (s.deleteItem id).shared itemid ((s.deleteItem id).bevOf itemid) := by
  rw [State.deleteItem]
  cases hitem : s.items id with
  | none => exact hs
  | some item =>
    dsimp only
    let p : Poll Addr := ⟨s.shared, id, item⟩
    have hclosed : (if item.bev.isSome then (asyncTcpDestroySession p).shared else s.shared) =
        (asyncTcpDestroySession p).shared := by
      split_ifs with hbev
      · rfl
      · rw [asyncTcpDestroySession, Option.not_isSome_iff_eq_none.mp hbev]
        rfl
    rw [hclosed]
    by_cases hid : itemid = id
    · subst hid
      rw [bevOf_of_item hitem] at hs
      have hend := Spare.destroy (p := p) hs (Reports.refl p) (Nat.zero_le _)
      rw [destroy_bev] at hend
      rw [bevOf_update]
      exact hend
    · have hsame := hs.aside (Aside.destroy p) hid
      rwa [← bevOf_congr (Function.update_of_ne hid _ s.items)] at hsame

lemma tcpSendRequest_aside (now : ℤ) (connect : Connect) (p : Poll Addr) : Aside p (tcpSendRequest now connect p) :=
  (tcpSendRequest_sent now connect p).toAside

lemma itemPollCb_poll (unreachableDelay now : ℤ) (lookup : Lookup) (connect : Connect) (p : Poll Addr) :
    ∃ r, Reports 0 p r ∧
      (¬Starts unreachableDelay now p.shared p.item ∧ itemPollCb unreachableDelay now lookup connect p = r ∨
        Starts unreachableDelay now p.shared p.item ∧ (p.item.useip ∨ ¬p.item.nextResolve < now) ∧
          Sent r (itemPollCb unreachableDelay now lookup connect p) ∨
        Starts unreachableDelay now p.shared p.item ∧ p.item.nextResolve < now ∧
          (Sent (pollerAsyncResolve lookup r) (itemPollCb unreachableDelay now lookup connect p) ∨
            Reports 1 (pollerAsyncResolve lookup r) (itemPollCb unreachableDelay now lookup connect p))) := by
  let r : Poll Addr := { asked unreachableDelay now p with item := { p.item with queued := false } }
  have hr : Reports 0 p r := Reports.of_log rfl rfl rfl rfl rfl rfl
  by_cases hqueued : p.item.queued
  · rw [itemPollCb, if_pos hqueued, tcpStartConnection, Starts]
    dsimp only
    split_ifs with hmany huseip hresolve hfailed
    · exact ⟨_, hr.trans (Reports.queue r), .inl ⟨fun h => absurd h.2 (Nat.not_lt.mpr hmany), rfl⟩⟩
    · exact ⟨r, hr, .inr (.inl ⟨⟨hqueued, Nat.lt_of_not_le hmany⟩, .inl huseip, tcpSendRequest_sent now connect r⟩)⟩
    · have herror := Reports.error (pollerAsyncResolve lookup r) "Cannot resolve item's interface hostname"
      exact ⟨r, hr, .inr (.inr ⟨⟨hqueued, Nat.lt_of_not_le hmany⟩, hresolve, .inr (herror.trans (Reports.queue _))⟩)⟩
    · refine ⟨r, hr, .inr (.inr ⟨⟨hqueued, Nat.lt_of_not_le hmany⟩, hresolve, .inl ?_⟩)⟩
      exact tcpSendRequest_sent now connect _
    · exact ⟨r, hr, .inr (.inl ⟨⟨hqueued, Nat.lt_of_not_le hmany⟩, .inr hresolve, tcpSendRequest_sent now connect r⟩)⟩
  · exact ⟨p, Reports.refl p, .inl ⟨fun h => hqueued h.1, if_neg hqueued⟩⟩

lemma itemPollCb_aside (unreachableDelay now : ℤ) (lookup : Lookup) (connect : Connect) (p : Poll Addr) :
    Aside p (itemPollCb unreachableDelay now lookup connect p) := by
  obtain ⟨r, hr, ⟨-, hsame⟩ | ⟨-, -, hsent⟩ | ⟨-, -, hsent | hreports⟩⟩ :=
    itemPollCb_poll unreachableDelay now lookup connect p
  · rw [hsame]
    exact hr.aside
  · exact hr.aside.trans hsent.toAside
  · exact hr.aside.trans ((Aside.resolve lookup r).trans hsent.toAside)
  · exact hr.aside.trans ((Aside.resolve lookup r).trans hreports.aside)

lemma step_spare {unreachableDelay : ℤ} {event : Event Addr} (hpolls : ¬event.Polls itemid)
    (hs : Spare base n s.shared itemid (s.bevOf itemid)) :
    Spare base (countOpened unreachableDelay itemid s event n) (step unreachableDelay s event).shared itemid
      ((step unreachableDelay s event).bevOf itemid) := by
  rw [countOpened]
  cases event with
  | create id http useip addr =>
    have hdeleted := hs.deleteItem id
    simp only [step, State.createItem, deleteItem_nextConn, Nat.sub_self, add_zero, ite_self]
    by_cases hid : itemid = id
    · subst hid
      rw [deleteItem_bevOf] at hdeleted
      rw [bevOf_update]
      exact hdeleted
    · rwa [bevOf_congr (Function.update_of_ne hid _ _)]
  | delete id =>
    simp only [step, deleteItem_nextConn, Nat.sub_self, add_zero, ite_self]
    exact hs.deleteItem id
  | poll id now lookup connect =>
    simp only [Event.itemid, Option.some.injEq]
    apply hs.onItem (itemPollCb_aside unreachableDelay now lookup connect)
    intro item hid
    exact absurd hid hpolls
  | resolved id now spread addr connect =>
    simp only [Event.itemid, Option.some.injEq]
    have hmoved : ∀ p : Poll Addr, Reports 0 p
        { p with item := { p.item with ipaddr := some addr, nextResolve := now + dnsTtl + spread } } :=
      fun _ => Reports.of_log rfl rfl rfl rfl rfl rfl
    apply hs.onLookup
    · intro p
      exact (hmoved p).aside.trans (tcpSendRequest_aside now connect _)
    · intro p hidle hbase
      exact (tcpSendRequest_sent now connect _).spare hidle hbase.ge hbase.le
  | resolveFailed id errcode count =>
    simp only [Event.itemid, Option.some.injEq]
    apply hs.onLookup fun p => (Reports.resolveFailed errcode count p).aside
    intro p hidle hbase
    have hreports := Reports.resolveFailed errcode count p
    rw [hreports.nextConn, Nat.sub_self]
    exact hreports.spare le_rfl hidle hbase (Nat.zero_le 1)
  | resolvedEmpty id =>
    simp only [Event.itemid, Option.some.injEq]
    apply hs.onLookup fun p => (Reports.refl p).aside
    intro p hidle hbase
    rw [Nat.sub_self]
    exact (Reports.refl p).spare (Nat.zero_le 1) hidle hbase (Nat.zero_le 1)
  | connected id =>
    simp only [Event.itemid, Option.some.injEq]
    exact hs.onBev connectedCb_ends
  | read id now bytes =>
    simp only [Event.itemid, Option.some.injEq]
    exact hs.onBev (responseCb_ends now bytes)
  | error id =>
    simp only [Event.itemid, Option.some.injEq]
    exact hs.onBev (connFailCb_ends _)
  | timeout id =>
    simp only [Event.itemid, Option.some.injEq]
    exact hs.onBev (connFailCb_ends _)
  | eof id now bytes =>
    simp only [Event.itemid, Option.some.injEq]
    exact hs.onBev (eofCb_ends now bytes)
  | housekeep now =>
    simp only [Event.itemid, reduceCtorEq, if_false]
    exact ⟨hs.opened, hs.since, hs.reported, hs.own⟩

end

section

variable {unreachableDelay now : ℤ} {itemid : ItemId} {item : TcpItem Addr} {s : State Addr}

lemma Spare.once {event : Event Addr} {later : List (Event Addr)} (hlater : ∀ event ∈ later, ¬event.Polls itemid)
    (hs : Spare (s.shared.reported itemid) (countOpened unreachableDelay itemid s event 0)
      (step unreachableDelay s event).shared itemid ((step unreachableDelay s event).bevOf itemid)) :
    Once unreachableDelay itemid s (event :: later) := by
  let R := fun (t : State Addr) (n : ℕ) => Spare (s.shared.reported itemid) n t.shared itemid (t.bevOf itemid)
  have hkeep : ∀ t, ∀ event ∈ later, ∀ n, R t n →
      R (step unreachableDelay t event) (countOpened unreachableDelay itemid t event n) :=
    fun _ event hevent _ => step_spare (hlater event hevent)
  have hrun := follow_rule_of_mem later hkeep hs
  exact ⟨le_of_add_le_left hrun.opened, le_of_add_le_left hrun.reported⟩

lemma timeout_reports (unreachableDelay : ℤ) (hitem : s.items itemid = some item) (hopen : s.shared.connsOf itemid ≠ []) :
    ∃ item', (step unreachableDelay s (.timeout itemid)).items itemid = some item' ∧
      (step unreachableDelay s (.timeout itemid)).shared.reported itemid = s.shared.reported itemid + 1 ∧
      (step unreachableDelay s (.timeout itemid)).shared.lookups = s.shared.lookups ∧
      (step unreachableDelay s (.timeout itemid)).shared.connsOf itemid =
        item.bev.elim (s.shared.connsOf itemid) (s.shared.connsOf itemid).erase := by
  have hany : s.shared.conns.any (·.itemid = itemid) := by
    obtain ⟨conn, hconn⟩ := List.exists_mem_of_ne_nil _ hopen
    exact List.any_eq_true.mpr ⟨conn, (List.mem_filter.mp hconn).1, (List.mem_filter.mp hconn).2⟩
  let p : Poll Addr := ⟨s.shared, itemid, item⟩
  have hfail := Reports.connFail "Timeout while waiting for response" p
  obtain ⟨-, hlookups, hlog⟩ := destroy_same (connFailCb "Timeout while waiting for response" p)
  rw [step, State.onBev, if_pos hany, State.onItem, hitem]
  refine ⟨_, Function.update_self _ _ _, ?_, hlookups.trans hfail.lookups, ?_⟩
  · have hone := hfail.reported itemid
    rw [if_pos rfl, Shared.reported, ← hlog] at hone
    exact hone
  · dsimp only
    rw [timeoutCb, destroy_conns, hfail.bev, Shared.connsOf, hfail.conns]
    rfl

lemma resolveFailed_reports (unreachableDelay : ℤ) (hitem : s.items itemid = some item)
    (hlookups : 0 < s.shared.lookups itemid) :
    ∃ item', (step unreachableDelay s (.resolveFailed itemid 0 0)).items itemid = some item' ∧
      (step unreachableDelay s (.resolveFailed itemid 0 0)).shared.reported itemid = s.shared.reported itemid + 1 ∧
      s.shared.inProgress itemid =
        (step unreachableDelay s (.resolveFailed itemid 0 0)).shared.inProgress itemid + 1 := by
  let p : Poll Addr := ⟨(s.answered itemid).shared, itemid, item⟩
  have hreports : Reports 1 p (resolveFailedCb 0 0 p) := Reports.resolveFailed 0 0 p
  have hanswered : (s.answered itemid).items itemid = some item := hitem
  rw [step, State.onLookup, if_pos hlookups, State.onItem, hanswered]
  refine ⟨_, Function.update_self _ _ _, ?_, ?_⟩
  · have hone := hreports.reported itemid
    rw [if_pos rfl] at hone
    exact hone
  · have hrest : (resolveFailedCb 0 0 p).shared.inProgress itemid = (s.answered itemid).shared.inProgress itemid :=
      hreports.inProgress itemid
    have hfewer : (s.answered itemid).shared.lookups itemid = s.shared.lookups itemid - 1 := Function.update_self _ _ _
    have hleft : (s.answered itemid).shared.inProgress itemid =
        s.shared.lookups itemid - 1 + (s.shared.connsOf itemid).length := by
      rw [Shared.inProgress, hfewer, s.answered_connsOf]
    dsimp only
    rw [hrest, hleft, Shared.inProgress]
    omega

lemma exists_reported (unreachableDelay : ℤ) {k : ℕ} (hitem : s.items itemid = some item)
    (hk : k ≤ s.shared.inProgress itemid) :
    ∃ later : List (Event Addr), (∀ event ∈ later, ¬event.Polls itemid) ∧
      s.shared.reported itemid + k ≤ (later.foldl (step unreachableDelay) s).shared.reported itemid := by
  induction k generalizing s item with
  | zero => exact ⟨[], by simp, le_rfl⟩
  | succ k ih =>
    obtain ⟨event, hpolls, item', hitem', hreported, hrest⟩ : ∃ event : Event Addr, ¬event.Polls itemid ∧
        ∃ item', (step unreachableDelay s event).items itemid = some item' ∧
          (step unreachableDelay s event).shared.reported itemid = s.shared.reported itemid + 1 ∧
          s.shared.inProgress itemid ≤ (step unreachableDelay s event).shared.inProgress itemid + 1 := by
      by_cases hlookups : 0 < s.shared.lookups itemid
      · obtain ⟨item', hitem', hreported, hrest⟩ := resolveFailed_reports unreachableDelay hitem hlookups
        exact ⟨_, id, item', hitem', hreported, hrest.le⟩
      · rw [Shared.inProgress] at hk
        have hopen : s.shared.connsOf itemid ≠ [] := by
          intro hnone
          rw [hnone, List.length_nil] at hk
          omega
        obtain ⟨item', hitem', hreported, hsame, hconns⟩ := timeout_reports unreachableDelay hitem hopen
        refine ⟨_, id, item', hitem', hreported, ?_⟩
        have hlength : (s.shared.connsOf itemid).length ≤
            (item.bev.elim (s.shared.connsOf itemid) (s.shared.connsOf itemid).erase).length + 1 := by
          cases item.bev with
          | none => exact Nat.le_succ _
          | some conn =>
            rw [Option.elim_some, List.length_erase]
            split_ifs <;> omega
        rw [Shared.inProgress, Shared.inProgress, hsame, hconns]
        omega
    obtain ⟨later, hlater, hmore⟩ := ih hitem' (by omega)
    refine ⟨event :: later, List.forall_mem_cons.mpr ⟨hpolls, hlater⟩, ?_⟩
    rw [List.foldl_cons]
    omega

lemma exists_reported_of_lost (unreachableDelay : ℤ) {conn : Conn Addr} (hitem : s.items itemid = some item)
    (hconn : conn ∈ s.shared.connsOf itemid) (hlost : item.bev ≠ some conn) :
    ∃ later : List (Event Addr), (∀ event ∈ later, ¬event.Polls itemid) ∧
      s.shared.reported itemid + 2 ≤ (later.foldl (step unreachableDelay) s).shared.reported itemid := by
  obtain ⟨item', hitem', hreported, -, hconns⟩ :=
    timeout_reports unreachableDelay hitem (List.ne_nil_of_mem hconn)
  have hstill : conn ∈ (step unreachableDelay s (.timeout itemid)).shared.connsOf itemid := by
    rw [hconns]
    cases hbev : item.bev with
    | none => exact hconn
    | some conn' =>
      refine (List.mem_erase_of_ne ?_).mpr hconn
      rintro rfl
      exact hlost hbev
  have hprogress : 1 ≤ (step unreachableDelay s (.timeout itemid)).shared.inProgress itemid := by
    rw [Shared.inProgress]
    have := List.length_pos_of_mem hstill
    omega
  obtain ⟨later, hlater, hmore⟩ := exists_reported unreachableDelay hitem' hprogress
  refine ⟨.timeout itemid :: later, List.forall_mem_cons.mpr ⟨id, hlater⟩, ?_⟩
  rw [List.foldl_cons]
  omega

lemma step_poll (hitem : s.items itemid = some item) (unreachableDelay now : ℤ) (lookup : Lookup) (connect : Connect) :
    step unreachableDelay s (.poll itemid now lookup connect) =
      let q := itemPollCb unreachableDelay now lookup connect ⟨s.shared, itemid, item⟩
      ⟨Function.update s.items itemid (some q.item), q.shared⟩ := by
  rw [step, State.onItem, hitem]

lemma pollsOnce_spare (lookup : Lookup) (connect : Connect) (hitem : s.items itemid = some item)
    (h : PollsOnce unreachableDelay now s.shared itemid item) :
    Spare (s.shared.reported itemid) (countOpened unreachableDelay itemid s (.poll itemid now lookup connect) 0)
      (step unreachableDelay s (.poll itemid now lookup connect)).shared itemid
      ((step unreachableDelay s (.poll itemid now lookup connect)).bevOf itemid) := by
  rw [countOpened, step_poll hitem]
  simp only [Event.itemid, if_true, zero_add, bevOf_update, Option.bind_some]
  let p : Poll Addr := ⟨s.shared, itemid, item⟩
  obtain ⟨r, hr, ⟨hstarts, hsame⟩ | ⟨hstarts, -, hsent⟩ | ⟨hstarts, hresolve, -⟩⟩ :=
    itemPollCb_poll unreachableDelay now lookup connect p
  · obtain ⟨hprogress, hown⟩ := h.2 hstarts
    have hbefore : Spare (s.shared.reported itemid) 0 p.shared p.itemid p.item.bev := by
      refine ⟨?_, le_rfl, Nat.add_le_add_left hprogress _, hown⟩
      rw [Shared.inProgress] at hprogress
      have hlookups : p.shared.lookups p.itemid = s.shared.lookups itemid := rfl
      omega
    rw [hsame, hr.nextConn, Nat.sub_self]
    exact hbefore.quiet hr
  · obtain ⟨-, hprogress⟩ := h.1 hstarts
    have hreported := hr.reported itemid
    rw [ite_self, add_zero] at hreported
    have hidle : r.shared.inProgress r.itemid = 0 := by
      rw [hr.itemid, hr.inProgress]
      exact hprogress
    have hbase : r.shared.reported r.itemid = s.shared.reported itemid := by
      rw [hr.itemid]
      exact hreported
    have hspare := hsent.spare hidle hbase.ge hbase.le
    rwa [hr.nextConn, hr.itemid] at hspare
  · exact absurd hresolve (h.1 hstarts).1

lemma exists_second_result (lookup : Lookup) (connect : Connect) (hname : item.useip = false)
    (hitem : s.items itemid = some item) (h : ¬PollsOnce unreachableDelay now s.shared itemid item) :
    ∃ later : List (Event Addr), (∀ event ∈ later, ¬event.Polls itemid) ∧
      s.shared.reported itemid + 2 ≤ (later.foldl (step unreachableDelay)
        (step unreachableDelay s (.poll itemid now lookup connect))).shared.reported itemid := by
  let p : Poll Addr := ⟨s.shared, itemid, item⟩
  have hitem' : (step unreachableDelay s (.poll itemid now lookup connect)).items itemid =
      some (itemPollCb unreachableDelay now lookup connect p).item := by
    rw [step_poll hitem]
    exact Function.update_self _ _ _
  have hshared : (step unreachableDelay s (.poll itemid now lookup connect)).shared =
      (itemPollCb unreachableDelay now lookup connect p).shared := by
    rw [step_poll hitem]
  have htotal : s.shared.reported itemid + 2 ≤ (itemPollCb unreachableDelay now lookup connect p).shared.reported itemid +
      (itemPollCb unreachableDelay now lookup connect p).shared.inProgress itemid → ∃ later : List (Event Addr),
      (∀ event ∈ later, ¬event.Polls itemid) ∧ s.shared.reported itemid + 2 ≤ (later.foldl (step unreachableDelay)
        (step unreachableDelay s (.poll itemid now lookup connect))).shared.reported itemid := by
    intro hle
    obtain ⟨later, hlater, hmore⟩ := exists_reported unreachableDelay hitem' le_rfl
    refine ⟨later, hlater, hle.trans ?_⟩
    rwa [hshared] at hmore
  obtain ⟨r, hr, hcases⟩ := itemPollCb_poll unreachableDelay now lookup connect p
  have hreported : r.shared.reported itemid = s.shared.reported itemid := by
    have hsame := hr.reported itemid
    rwa [ite_self, add_zero] at hsame
  have hprogress : r.shared.inProgress itemid = s.shared.inProgress itemid := hr.inProgress itemid
  have hitemid : r.itemid = itemid := hr.itemid
  obtain ⟨hstarts, hsame⟩ | ⟨hstarts, huseip | hresolve, hsent⟩ | ⟨hstarts, hresolve, hends⟩ := hcases
  · by_cases hmany : s.shared.inProgress itemid ≤ 1
    · obtain ⟨conn, hconn, hlost⟩ : ∃ conn ∈ s.shared.connsOf itemid, item.bev ≠ some conn := by
        by_contra hown
        push Not at hown
        exact h ⟨fun h => absurd h hstarts, fun _ => ⟨hmany, hown⟩⟩
      rw [hsame] at hitem' hshared
      have hconn' : conn ∈ (step unreachableDelay s (.poll itemid now lookup connect)).shared.connsOf itemid := by
        rw [hshared, Shared.connsOf, hr.conns]
        exact hconn
      obtain ⟨later, hlater, hmore⟩ := exists_reported_of_lost unreachableDelay hitem' hconn' (hr.bev ▸ hlost)
      rw [hshared, hreported] at hmore
      exact ⟨later, hlater, hmore⟩
    · apply htotal
      rw [hsame, hreported, hprogress]
      omega
  · exact absurd huseip (by rw [hname]; exact Bool.false_ne_true)
  · apply htotal
    have hsum := hsent.total
    rw [hitemid, hreported, hprogress] at hsum
    have hbusy : s.shared.inProgress itemid ≠ 0 := by
      intro hidle
      exact h ⟨fun _ => ⟨hresolve, hidle⟩, fun hnot => absurd hstarts hnot⟩
    omega
  · apply htotal
    have hasked := resolve_balance lookup r
    rw [hitemid, hreported, hprogress] at hasked
    have hsame : (pollerAsyncResolve lookup r).itemid = itemid := (Aside.resolve lookup r).itemid.trans hitemid
    obtain hsent | hreports := hends
    · have hsum := hsent.total
      rw [hsame] at hsum
      omega
    · have hone := hreports.reported itemid
      rw [if_pos hsame.symm] at hone
      rw [hone, hreports.inProgress]
      omega

theorem once_per_poll_iff (unreachableDelay : ℤ) (s : State Addr) (itemid : ItemId) (item : TcpItem Addr)
    (hitem : s.items itemid = some item) (hname : item.useip = false) (now : ℤ) (lookup : Lookup) (connect : Connect) :
    (∀ later : List (Event Addr), (∀ event ∈ later, ¬event.Polls itemid) →
        Once unreachableDelay itemid s (.poll itemid now lookup connect :: later)) ↔
      PollsOnce unreachableDelay now s.shared itemid item := by
  constructor
  · intro honce
    by_contra hpolls
    obtain ⟨later, hlater, hmore⟩ := exists_second_result lookup connect hname hitem hpolls
    have hle := (honce later hlater).2
    rw [List.foldl_cons] at hle
    omega
  · intro hpolls later hlater
    exact (pollsOnce_spare lookup connect hitem hpolls).once hlater

def resolvedItem : List (Event ℕ) :=
  [.create 1 false false 7, .poll 1 100 ⟨true, false⟩ .noSocket, .resolved 1 100 0 7 .refused]

theorem resolvedItem_polls_once : (resolvedItem.foldl (step 60) init).shared.inProgress 1 = 0 ∧
    ∀ later : List (Event ℕ), (∀ event ∈ later, ¬event.Polls 1) →
      Once 60 1 (resolvedItem.foldl (step 60) init) (.poll 1 150 ⟨true, false⟩ .started :: later) := by
  have hitem : (resolvedItem.foldl (step 60) init).items 1 =
      some ⟨some 7, false, .agent (.clean 0), none, 220, true⟩ := rfl
  refine ⟨rfl, (once_per_poll_iff 60 _ 1 _ hitem rfl 150 ⟨true, false⟩ .started).mpr ⟨?_, ?_⟩⟩
  · exact fun _ => ⟨by decide, rfl⟩
  · exact fun hstarts => absurd ⟨rfl, by decide⟩ hstarts

theorem first_poll_connects_twice : ¬∀ (s : State ℕ) (itemid : ItemId) (item : TcpItem ℕ),
    s.items itemid = some item → item.useip = false → ∀ (now : ℤ) (lookup : Lookup) (connect : Connect)
      (later : List (Event ℕ)), (∀ event ∈ later, ¬event.Polls itemid) →
        Once 60 itemid s (.poll itemid now lookup connect :: later) := by
  intro hall
  have honce := hall (step 60 init (.create 1 false false 7)) 1 (initItem false false 7) rfl rfl 100 ⟨true, false⟩ .started
    [.resolved 1 101 0 7 .started] (by simp [Event.Polls])
  have htwo : opened 60 1 (step 60 init (.create 1 false false 7))
      [.poll 1 100 ⟨true, false⟩ .started, .resolved 1 101 0 7 .started] = 2 := rfl
  exact absurd honce.1 (by rw [htwo]; decide)

end

end Glaber.Poller.Tcp
