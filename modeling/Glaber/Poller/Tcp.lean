import Glaber.Poller.Contention
import Glaber.Poller.TcpAgent

/-! Polls over TCP (`poller_tcp.c`, `glb_poller.c`) with the protocols of the agent and of the simple HTTP check. -/

namespace Glaber.Poller.Tcp

open Glaber.Lib.Runs Glaber.Poller.Contention Glaber.Poller.TcpAgent

abbrev ItemId := UInt64

structure Byte where
  conn : ℕ
  octet : UInt8
deriving DecidableEq

structure Conn (Addr : Type) where
  id : ℕ
  itemid : ItemId
  addr : Option Addr
deriving DecidableEq

inductive ProtoCtx where
  | agent (data : AgentData Byte)
  | simpleHttp

def ProtoCtx.buffered : ProtoCtx → List Byte
  | .agent data => data.buffer
  | .simpleHttp => []

structure TcpItem (Addr : Type) where
  ipaddr : Option Addr
  useip : Bool
  protoCtx : ProtoCtx
  bev : Option (Conn Addr)
  nextResolve : ℤ
  queued : Bool

inductive Entry where
  | interpreted (itemid : ItemId) (conn : ℕ) (bytes : List Byte) (result : Option Result)
  | error (itemid : ItemId) (text : String)
  | uint64 (itemid : ItemId) (value : ℕ)
deriving DecidableEq

structure Shared (Addr : Type) where
  conns : List (Conn Addr)
  nextConn : ℕ
  lookups : ItemId → ℕ
  sessions : Contention.Table Addr
  lastHousekeep : ℤ
  lastcheck : ℤ
  log : List Entry

structure State (Addr : Type) where
  items : ItemId → Option (TcpItem Addr)
  shared : Shared Addr

structure Poll (Addr : Type) where
  shared : Shared Addr
  itemid : ItemId
  item : TcpItem Addr

/-- How the making of a connection ends: before there is a buffer event, in `bufferevent_socket_connect`, or not yet. -/
inductive Connect where
  | noSocket
  | refused
  | started
deriving DecidableEq

/-- Whether the lookup of a name was started, and whether the caller reads a failure: `poller_async_resolve` has no
return statement. -/
structure Lookup where
  started : Bool
  failed : Bool

inductive PollRet where
  | startedOk
  | startedFail
  | needDelay

def tcpHostContention : ℕ := 4
def dnsTtl : ℤ := 120

variable {Addr : Type} [DecidableEq Addr] (p : Poll Addr)

def Poll.report (entry : Entry) : Poll Addr :=
  { p with shared := { p.shared with log := p.shared.log ++ [entry] } }

def Poll.returnItemToQueue : Poll Addr := { p with item := { p.item with queued := true } }

def Poll.removeSession : Poll Addr :=
  { p with shared := { p.shared with sessions := Contention.removeSession p.shared.sessions p.item.ipaddr } }

def Poll.addSession (now : ℤ) (p : Poll Addr) : Poll Addr :=
  { p with shared := { p.shared with sessions := Contention.addSession now p.shared.sessions p.item.ipaddr } }

def asyncTcpDestroySession : Poll Addr :=
  match p.item.bev with
  | some conn =>
    Poll.returnItemToQueue { p with
      shared := { p.shared with conns := p.shared.conns.erase conn }
      item := { p.item with bev := none } }
  | none => p.returnItemToQueue

def responseCb (now : ℤ) (bytes : List UInt8) (p : Poll Addr) : Poll Addr :=
  match p.item.bev, p.item.protoCtx with
  | none, _ => p
  | some conn, .agent data =>
    let reply := TcpAgent.responseCb Byte.octet p.shared.lastcheck now data (bytes.map (Byte.mk conn.id))
    let p : Poll Addr := Poll.report
      { p with
        shared := { p.shared with lastcheck := reply.lastcheck }
        item := { p.item with protoCtx := .agent reply.data } }
      (.interpreted p.itemid conn.id reply.interpreted reply.result)
    if reply.result.isSome then (asyncTcpDestroySession p).removeSession else p
  | some _, .simpleHttp => (asyncTcpDestroySession (p.report (.uint64 p.itemid 1))).removeSession

def connFailCb (text : String) (p : Poll Addr) : Poll Addr :=
  match p.item.protoCtx with
  | .agent _ => p.report (.error p.itemid text)
  | .simpleHttp => p.report (.uint64 p.itemid 0)

def connectedCb : Poll Addr :=
  match p.item.protoCtx with
  | .agent _ => p
  | .simpleHttp => (asyncTcpDestroySession (p.report (.uint64 p.itemid 1))).removeSession

def errorCb : Poll Addr := asyncTcpDestroySession (connFailCb "Connection error" p)

def timeoutCb : Poll Addr := asyncTcpDestroySession (connFailCb "Timeout while waiting for response" p)

def eofCb (now : ℤ) (bytes : List UInt8) (p : Poll Addr) : Poll Addr :=
  if p.item.bev.isNone then p
  else if 0 < bytes.length then asyncTcpDestroySession (responseCb now bytes p).removeSession
  else asyncTcpDestroySession (connFailCb "Connection is dropped" p)

/-- The buffer event the item had before is not freed. -/
def newBev : Poll Addr :=
  let conn : Conn Addr := ⟨p.shared.nextConn, p.itemid, p.item.ipaddr⟩
  { p with
    shared := { p.shared with conns := conn :: p.shared.conns, nextConn := p.shared.nextConn + 1 }
    item := { p.item with bev := some conn } }

def tcpBevRequest (connect : Connect) (p : Poll Addr) : Bool × Poll Addr :=
  match connect with
  | .noSocket => (false, p)
  | .refused => (false, asyncTcpDestroySession (newBev p))
  | .started => (true, newBev p)

def tcpSendRequest (now : ℤ) (connect : Connect) (p : Poll Addr) : Poll Addr :=
  match tcpBevRequest connect p with
  | (false, p) => p.report (.error p.itemid "There was an error while connect")
  | (true, p) => p.addSession now

def resolveReadyFuncCb (now spread : ℤ) (addr : Addr) (connect : Connect) (p : Poll Addr) : Poll Addr :=
  tcpSendRequest now connect
    { p with item := { p.item with ipaddr := some addr, nextResolve := now + dnsTtl + spread } }

def pollerAsyncResolve (lookup : Lookup) (p : Poll Addr) : Poll Addr :=
  if lookup.started then
    { p with shared := { p.shared with
      lookups := Function.update p.shared.lookups p.itemid (p.shared.lookups p.itemid + 1) } }
  else p.report (.error p.itemid "Cannot start DNS lookup. Check the item hostname or interface settings")

def tcpStartConnection (unreachableDelay now : ℤ) (lookup : Lookup) (connect : Connect) (p : Poll Addr) :
    PollRet × Poll Addr :=
  let got := getSessions unreachableDelay now p.shared.sessions p.item.ipaddr
  let p := { p with shared := { p.shared with sessions := got.2 } }
  if tcpHostContention ≤ got.1 then (.needDelay, p)
  else if p.item.useip then (.startedOk, tcpSendRequest now connect p)
  else if p.item.nextResolve < now then
    let p := pollerAsyncResolve lookup p
    if lookup.failed then
      (.startedFail, (p.report (.error p.itemid "Cannot resolve item's interface hostname")).returnItemToQueue)
    else (.startedOk, tcpSendRequest now connect p)
  else (.startedOk, tcpSendRequest now connect p)

def itemPollCb (unreachableDelay now : ℤ) (lookup : Lookup) (connect : Connect) (p : Poll Addr) : Poll Addr :=
  if p.item.queued then
    match tcpStartConnection unreachableDelay now lookup connect
      { p with item := { p.item with queued := false } } with
    | (.needDelay, p) => p.returnItemToQueue
    | (_, p) => p
  else p

def resolveFailedCb (errcode count : ℤ) (p : Poll Addr) : Poll Addr :=
  (p.report (.error p.itemid
    s!"Couldn't resolve item's hostname, errcode is {errcode}, returned {count} records")).returnItemToQueue

def State.onItem (s : State Addr) (itemid : ItemId) (callback : Poll Addr → Poll Addr) : State Addr :=
  match s.items itemid with
  | none => s
  | some item =>
    let p := callback ⟨s.shared, itemid, item⟩
    ⟨Function.update s.items itemid (some p.item), p.shared⟩

def State.onBev (s : State Addr) (itemid : ItemId) (callback : Poll Addr → Poll Addr) : State Addr :=
  if s.shared.conns.any (·.itemid = itemid) then s.onItem itemid callback else s

def State.answered (s : State Addr) (itemid : ItemId) : State Addr :=
  { s with shared := { s.shared with
    lookups := Function.update s.shared.lookups itemid (s.shared.lookups itemid - 1) } }

def State.onLookup (s : State Addr) (itemid : ItemId) (callback : Poll Addr → Poll Addr) : State Addr :=
  if 0 < s.shared.lookups itemid then (s.answered itemid).onItem itemid callback else s

def State.deleteItem (s : State Addr) (itemid : ItemId) : State Addr :=
  match s.items itemid with
  | none => s
  | some item =>
    let shared := if item.bev.isSome then (asyncTcpDestroySession ⟨s.shared, itemid, item⟩).shared else s.shared
    ⟨Function.update s.items itemid none, shared⟩

def initItem (http useip : Bool) (addr : Addr) : TcpItem Addr where
  ipaddr := if useip then some addr else none
  useip := useip
  protoCtx := if http then .simpleHttp else .agent (.clean 0)
  bev := none
  nextResolve := 0
  queued := true

def State.createItem (s : State Addr) (itemid : ItemId) (item : TcpItem Addr) : State Addr :=
  let s := s.deleteItem itemid
  { s with items := Function.update s.items itemid (some item) }

inductive Event (Addr : Type) where
  | create (itemid : ItemId) (http useip : Bool) (addr : Addr)
  | delete (itemid : ItemId)
  | poll (itemid : ItemId) (now : ℤ) (lookup : Lookup) (connect : Connect)
  | resolved (itemid : ItemId) (now spread : ℤ) (addr : Addr) (connect : Connect)
  | resolveFailed (itemid : ItemId) (errcode count : ℤ)
  | resolvedEmpty (itemid : ItemId)
  | connected (itemid : ItemId)
  | read (itemid : ItemId) (now : ℤ) (bytes : List UInt8)
  | error (itemid : ItemId)
  | timeout (itemid : ItemId)
  | eof (itemid : ItemId) (now : ℤ) (bytes : List UInt8)
  | housekeep (now : ℤ)

def step (unreachableDelay : ℤ) (s : State Addr) : Event Addr → State Addr
  | .create itemid http useip addr => s.createItem itemid (initItem http useip addr)
  | .delete itemid => s.deleteItem itemid
  | .poll itemid now lookup connect => s.onItem itemid (itemPollCb unreachableDelay now lookup connect)
  | .resolved itemid now spread addr connect => s.onLookup itemid (resolveReadyFuncCb now spread addr connect)
  | .resolveFailed itemid errcode count => s.onLookup itemid (resolveFailedCb errcode count)
  | .resolvedEmpty itemid => s.onLookup itemid id
  | .connected itemid => s.onBev itemid connectedCb
  | .read itemid now bytes => s.onBev itemid (responseCb now bytes)
  | .error itemid => s.onBev itemid errorCb
  | .timeout itemid => s.onBev itemid timeoutCb
  | .eof itemid now bytes => s.onBev itemid (eofCb now bytes)
  | .housekeep now =>
    let kept := housekeep unreachableDelay now s.shared.lastHousekeep s.shared.sessions
    { s with shared := { s.shared with lastHousekeep := kept.1, sessions := kept.2 } }

def init : State Addr := ⟨fun _ => none, ⟨[], 0, fun _ => 0, fun _ => none, 0, 0, []⟩⟩

def Sends (unreachableDelay now : ℤ) (lookup : Lookup) (shared : Shared Addr) (item : TcpItem Addr) : Prop :=
  item.queued ∧ (getSessions unreachableDelay now shared.sessions item.ipaddr).1 < tcpHostContention ∧
    (item.useip ∨ (item.nextResolve < now → ¬lookup.failed))

def Entry.isInterpreted : Entry → Bool
  | .interpreted .. => true
  | _ => false

structure SameConns (p q : Poll Addr) : Prop where
  itemid : q.itemid = p.itemid
  bev : q.item.bev = p.item.bev
  ipaddr : q.item.ipaddr = p.item.ipaddr
  conns : q.shared.conns = p.shared.conns
  nextConn : p.shared.nextConn ≤ q.shared.nextConn
  sessions : q.shared.sessions = p.shared.sessions

structure Quiet (p q : Poll Addr) : Prop extends SameConns p q where
  protoCtx : q.item.protoCtx = p.item.protoCtx
  log : ∀ entry ∈ q.shared.log, entry ∈ p.shared.log ∨ entry.isInterpreted = false

omit [DecidableEq Addr] in
lemma SameConns.trans {p q r : Poll Addr} (h : SameConns p q) (h' : SameConns q r) : SameConns p r where
  itemid := h'.itemid.trans h.itemid
  bev := h'.bev.trans h.bev
  ipaddr := h'.ipaddr.trans h.ipaddr
  conns := h'.conns.trans h.conns
  nextConn := h.nextConn.trans h'.nextConn
  sessions := h'.sessions.trans h.sessions

namespace Quiet

variable {p q r : Poll Addr}

omit [DecidableEq Addr] in
lemma trans (h : Quiet p q) (h' : Quiet q r) : Quiet p r where
  toSameConns := h.toSameConns.trans h'.toSameConns
  protoCtx := h'.protoCtx.trans h.protoCtx
  log entry hentry := (h'.log entry hentry).elim (h.log entry) .inr

omit [DecidableEq Addr] in
lemma queue (p : Poll Addr) : Quiet p p.returnItemToQueue :=
  ⟨⟨rfl, rfl, rfl, rfl, le_rfl, rfl⟩, rfl, fun _ h => .inl h⟩

omit [DecidableEq Addr] in
lemma report (p : Poll Addr) {entry : Entry} (hentry : entry.isInterpreted = false) : Quiet p (p.report entry) := by
  refine ⟨⟨rfl, rfl, rfl, rfl, le_rfl, rfl⟩, rfl, ?_⟩
  intro e he
  rcases List.mem_append.mp he with h | h
  · exact .inl h
  · exact .inr (List.mem_singleton.mp h ▸ hentry)

omit [DecidableEq Addr] in
lemma connFail (text : String) (p : Poll Addr) : Quiet p (connFailCb text p) := by
  rw [connFailCb]
  split
  · exact report p rfl
  · exact report p rfl

omit [DecidableEq Addr] in
lemma resolve (lookup : Lookup) (p : Poll Addr) : Quiet p (pollerAsyncResolve lookup p) := by
  rw [pollerAsyncResolve]
  split_ifs
  · exact ⟨⟨rfl, rfl, rfl, rfl, le_rfl, rfl⟩, rfl, fun _ h => .inl h⟩
  · exact report p rfl

omit [DecidableEq Addr] in
lemma resolveFailed (errcode count : ℤ) (p : Poll Addr) : Quiet p (resolveFailedCb errcode count p) :=
  (report p rfl).trans (queue _)

end Quiet

def asked (unreachableDelay now : ℤ) (p : Poll Addr) : Poll Addr :=
  { p with shared := { p.shared with
    sessions := (getSessions unreachableDelay now p.shared.sessions p.item.ipaddr).2 } }

lemma itemPollCb_cases (unreachableDelay now : ℤ) (lookup : Lookup) (connect : Connect) (p : Poll Addr) :
    itemPollCb unreachableDelay now lookup connect p = p ∨
    p.item.queued ∧ Quiet (asked unreachableDelay now p) (itemPollCb unreachableDelay now lookup connect p) ∨
    Sends unreachableDelay now lookup p.shared p.item ∧ ∃ q, Quiet (asked unreachableDelay now p) q ∧
      itemPollCb unreachableDelay now lookup connect p = tcpSendRequest now connect q := by
  by_cases hqueued : p.item.queued
  · let started : Poll Addr := { asked unreachableDelay now p with item := { p.item with queued := false } }
    have hstarted : Quiet (asked unreachableDelay now p) started :=
      ⟨⟨rfl, rfl, rfl, rfl, le_rfl, rfl⟩, rfl, fun _ h => .inl h⟩
    right
    rw [itemPollCb, if_pos hqueued, tcpStartConnection]
    dsimp only
    split_ifs with hmany huseip hresolve hfailed
    · exact .inl ⟨hqueued, hstarted.trans (Quiet.queue _)⟩
    · exact .inr ⟨⟨hqueued, Nat.lt_of_not_le hmany, .inl huseip⟩, started, hstarted, rfl⟩
    · left
      refine ⟨hqueued, hstarted.trans ((Quiet.resolve lookup started).trans ?_)⟩
      exact (Quiet.report _ rfl).trans (Quiet.queue _)
    · refine .inr ⟨⟨hqueued, Nat.lt_of_not_le hmany, .inr fun _ => hfailed⟩, _, ?_, rfl⟩
      exact hstarted.trans (Quiet.resolve lookup started)
    · exact .inr ⟨⟨hqueued, Nat.lt_of_not_le hmany, .inr fun h => absurd h hresolve⟩, started, hstarted, rfl⟩
  · exact .inl (if_neg hqueued)

lemma tcpSendRequest_quiet (now : ℤ) (p : Poll Addr) :
    Quiet p (tcpSendRequest now .noSocket p) ∧
    Quiet (asyncTcpDestroySession (newBev p)) (tcpSendRequest now .refused p) ∧
    tcpSendRequest now .started p = (newBev p).addSession now :=
  ⟨Quiet.report p rfl, Quiet.report _ rfl, rfl⟩

end Glaber.Poller.Tcp
