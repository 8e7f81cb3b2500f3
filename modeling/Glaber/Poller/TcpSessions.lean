import Glaber.Poller.TcpBytes

namespace Glaber.Poller.Tcp

open Glaber.Lib.Runs Glaber.Poller.Contention Glaber.Poller.TcpAgent

variable {Addr : Type} [DecidableEq Addr]

def openTo (conns : List (Conn Addr)) (addr : Addr) : ℕ := conns.countP (·.addr = some addr)

def Holds (conns : List (Conn Addr)) (itemid : ItemId) (item : TcpItem Addr) : Prop :=
  ∀ conn, item.bev = some conn → conn ∈ conns ∧ conn.itemid = itemid ∧ conn.addr = item.ipaddr ∧ conn.addr ≠ none

structure Counted (shared : Shared Addr) : Prop where
  nodup : shared.conns.Nodup
  fresh : ∀ conn ∈ shared.conns, conn.id < shared.nextConn
  count : ∀ addr, Contention.count shared.sessions (some addr) = openTo shared.conns addr

structure Accounted (s : State Addr) : Prop where
  held : ∀ conn ∈ s.shared.conns, ∃ item, s.items conn.itemid = some item ∧ item.bev = some conn
  holds : ∀ itemid item, s.items itemid = some item → Holds s.shared.conns itemid item
  counted : Counted s.shared

structure Poll.Accounted (items : ItemId → Option (TcpItem Addr)) (itemid : ItemId) (p : Poll Addr) : Prop where
  same : p.itemid = itemid
  mine : ∀ conn ∈ p.shared.conns, conn.itemid = itemid → p.item.bev = some conn
  held : ∀ conn ∈ p.shared.conns, conn.itemid ≠ itemid → ∃ item, items conn.itemid = some item ∧ item.bev = some conn
  own : Holds p.shared.conns itemid p.item
  others : ∀ other item, other ≠ itemid → items other = some item → Holds p.shared.conns other item
  counted : Counted p.shared

lemma openTo_erase {conns : List (Conn Addr)} {conn : Conn Addr} (h : conn ∈ conns) (addr : Addr) :
    openTo conns addr = openTo (conns.erase conn) addr + if conn.addr = some addr then 1 else 0 := by
  have hperm := List.perm_cons_erase h
  rw [openTo, hperm.countP_eq, List.countP_cons, openTo]
  simp

section

variable {items : ItemId → Option (TcpItem Addr)} {itemid : ItemId} {p q : Poll Addr}

lemma SameConns.accounted (h : SameConns p q) (hp : p.Accounted items itemid) : q.Accounted items itemid where
  same := h.itemid.trans hp.same
  mine := by
    rw [h.conns, h.bev]
    exact hp.mine
  held := by
    rw [h.conns]
    exact hp.held
  own := by
    intro conn hconn
    rw [h.bev] at hconn
    rw [h.conns, h.ipaddr]
    exact hp.own conn hconn
  others := by
    rw [h.conns]
    exact hp.others
  counted := by
    refine ⟨h.conns ▸ hp.counted.nodup, ?_, ?_⟩
    · intro conn hconn
      exact (hp.counted.fresh conn (h.conns ▸ hconn)).trans_le h.nextConn
    · rw [h.sessions, h.conns]
      exact hp.counted.count

lemma Poll.Accounted.close (hp : p.Accounted items itemid) {conn : Conn Addr} (hbev : p.item.bev = some conn)
    (hsame : q.itemid = p.itemid) (hclosed : q.item.bev = none)
    (hconns : q.shared.conns = p.shared.conns.erase conn) (hnext : q.shared.nextConn = p.shared.nextConn)
    (hsessions : q.shared.sessions = Contention.removeSession p.shared.sessions p.item.ipaddr) :
    q.Accounted items itemid := by
  obtain ⟨hopen, hmade, haddr, hknown⟩ := hp.own conn hbev
  have hmem : ∀ other, other ∈ q.shared.conns ↔ other ≠ conn ∧ other ∈ p.shared.conns := by
    intro other
    rw [hconns]
    exact hp.counted.nodup.mem_erase_iff
  refine ⟨hsame.trans hp.same, ?_, ?_, ?_, ?_, ?_⟩
  · intro other hother hmine
    obtain ⟨hne, hold⟩ := (hmem other).mp hother
    have := hp.mine other hold hmine
    rw [hbev] at this
    exact absurd (Option.some.inj this).symm hne
  · intro other hother
    exact hp.held other ((hmem other).mp hother).2
  · intro other hother
    rw [hclosed] at hother
    cases hother
  · intro id item hdiff hitem other hother
    obtain ⟨hold, hrest⟩ := hp.others id item hdiff hitem other hother
    refine ⟨(hmem other).mpr ⟨?_, hold⟩, hrest⟩
    rintro rfl
    exact hdiff (hrest.1.symm.trans hmade)
  · refine ⟨hconns ▸ hp.counted.nodup.erase conn, ?_, ?_⟩
    · intro other hother
      rw [hnext]
      exact hp.counted.fresh other ((hmem other).mp hother).2
    · intro addr
      obtain ⟨known, hsome⟩ := Option.ne_none_iff_exists'.mp hknown
      rw [hsessions, ← haddr, hsome, count_removeSession, hp.counted.count, openTo_erase hopen, hconns, hsome]
      by_cases heq : some addr = some known
      · simp [heq]
      · simp [heq, Ne.symm heq]

lemma Poll.Accounted.connect (hp : p.Accounted items itemid) (hbev : p.item.bev = none)
    (hknown : p.item.ipaddr ≠ none) (now : ℤ) : ((newBev p).addSession now).Accounted items itemid := by
  have hnew : ∀ conn ∈ p.shared.conns, conn.itemid ≠ itemid := by
    intro conn hconn hmine
    have := hp.mine conn hconn hmine
    rw [hbev] at this
    cases this
  refine ⟨hp.same, ?_, ?_, ?_, ?_, ?_⟩
  · intro conn hconn hmine
    rcases List.mem_cons.mp hconn with rfl | hold
    · rfl
    · exact absurd hmine (hnew conn hold)
  · intro conn hconn hdiff
    rcases List.mem_cons.mp hconn with rfl | hold
    · exact absurd hp.same hdiff
    · exact hp.held conn hold hdiff
  · intro conn hconn
    obtain rfl := Option.some.inj hconn
    exact ⟨List.mem_cons_self, hp.same, rfl, hknown⟩
  · intro other item hdiff hitem conn hconn
    obtain ⟨hold, hrest⟩ := hp.others other item hdiff hitem conn hconn
    exact ⟨List.mem_cons_of_mem _ hold, hrest⟩
  · refine ⟨?_, ?_, ?_⟩
    · apply List.nodup_cons.mpr
      refine ⟨?_, hp.counted.nodup⟩
      intro hold
      exact absurd (hp.counted.fresh _ hold) (lt_irrefl _)
    · intro conn hconn
      rcases List.mem_cons.mp hconn with rfl | hold
      · exact Nat.lt_succ_self _
      · exact Nat.lt_succ_of_lt (hp.counted.fresh conn hold)
    · intro addr
      have hcount := hp.counted.count addr
      simp only [Poll.addSession, newBev, count_addSession, hcount, openTo, List.countP_cons, eq_comm]
      simp

lemma Poll.Accounted.move (hp : p.Accounted items itemid) (hbev : p.item.bev = none) {item : TcpItem Addr}
    (hitem : item.bev = none) : ({ p with item := item } : Poll Addr).Accounted items itemid := by
  refine ⟨hp.same, ?_, hp.held, ?_, hp.others, hp.counted⟩
  · intro conn hconn hmine
    have := hp.mine conn hconn hmine
    rw [hbev] at this
    cases this
  · intro conn hconn
    rw [hitem] at hconn
    cases hconn

lemma Poll.Accounted.remove_nothing (hp : p.Accounted items itemid)
    (hzero : Contention.count p.shared.sessions p.item.ipaddr = 0) : p.removeSession.Accounted items itemid := by
  refine ⟨hp.same, hp.mine, hp.held, hp.own, hp.others, hp.counted.nodup, hp.counted.fresh, ?_⟩
  intro addr
  have hcount := hp.counted.count addr
  simp only [Poll.removeSession]
  cases hip : p.item.ipaddr with
  | none => exact hcount
  | some known =>
    rw [hip] at hzero
    rw [count_removeSession]
    split_ifs with hsame
    · rw [← hcount, hsame, hzero]
    · exact hcount

lemma asyncTcpDestroySession_none (hbev : p.item.bev = none) : SameConns p (asyncTcpDestroySession p) := by
  rw [asyncTcpDestroySession, hbev]
  exact (Quiet.queue p).toSameConns

lemma Poll.Accounted.finish (hp : p.Accounted items itemid) {conn : Conn Addr} (hbev : p.item.bev = some conn) :
    (asyncTcpDestroySession p).removeSession.Accounted items itemid ∧
      (asyncTcpDestroySession p.removeSession).Accounted items itemid := by
  constructor
  · apply hp.close hbev <;> simp [asyncTcpDestroySession, hbev, Poll.removeSession, Poll.returnItemToQueue]
  · apply hp.close hbev <;> simp [asyncTcpDestroySession, hbev, Poll.removeSession, Poll.returnItemToQueue]

lemma tcpSendRequest_accounted {now : ℤ} {connect : Connect} (hp : p.Accounted items itemid)
    (hsend : connect ≠ .noSocket → p.item.bev = none ∧ (connect = .started → p.item.ipaddr ≠ none)) :
    (tcpSendRequest now connect p).Accounted items itemid := by
  obtain ⟨hnone, hrefused, hstarted⟩ := tcpSendRequest_quiet now p
  cases connect with
  | noSocket => exact hnone.accounted hp
  | refused =>
    obtain ⟨hbev, _⟩ := hsend (by simp)
    have hsame : SameConns p (asyncTcpDestroySession (newBev p)) := by
      refine ⟨rfl, hbev.symm, rfl, ?_, Nat.le_succ _, rfl⟩
      exact List.erase_cons_head ..
    exact hrefused.accounted (hsame.accounted hp)
  | started =>
    obtain ⟨hbev, hknown⟩ := hsend (by simp)
    rw [hstarted]
    exact hp.connect hbev (hknown rfl) now

lemma asked_fresh {unreachableDelay now : ℤ} (h : Fresh unreachableDelay now p.shared.sessions p.item.ipaddr) :
    SameConns p (asked unreachableDelay now p) :=
  ⟨rfl, rfl, rfl, rfl, le_rfl, getSessions_fresh h⟩

lemma responseCb_conns (now : ℤ) (bytes : List UInt8) {conn : Conn Addr} (hbev : p.item.bev = some conn) :
    p.item.protoCtx.Unfinished bytes ∧ SameConns p (responseCb now bytes p) ∨
      ¬p.item.protoCtx.Unfinished bytes ∧
        ∃ q, SameConns p q ∧ responseCb now bytes p = (asyncTcpDestroySession q).removeSession := by
  rw [responseCb]
  split
  · simp_all
  · rename_i conn' data hbev' hctx
    cases hresult : processResponse ((data.buffer ++ bytes.map (Byte.mk conn'.id)).map Byte.octet) with
    | none =>
      left
      rw [hctx, responseCb_continue hresult]
      rw [octets_append] at hresult
      exact ⟨hresult, rfl, rfl, rfl, rfl, le_rfl, rfl⟩
    | some result =>
      right
      obtain ⟨data', lastcheck', hreply, _⟩ := responseCb_finish p.shared.lastcheck now hresult
      simp only [hreply, Option.isSome_some, if_true]
      rw [octets_append] at hresult
      refine ⟨by simp [hctx, ProtoCtx.Unfinished, hresult], _, ?_, rfl⟩
      exact ⟨rfl, rfl, rfl, rfl, le_rfl, rfl⟩
  · rename_i hctx
    right
    exact ⟨by simp [hctx, ProtoCtx.Unfinished], _, (Quiet.report p rfl).toSameConns, rfl⟩

lemma eofCb_accounted (now : ℤ) {bytes : List UInt8} (hp : p.Accounted items itemid)
    (heof : ∀ conn, p.item.bev = some conn → bytes ≠ [] ∧
      (p.item.protoCtx.Unfinished bytes ∨ Contention.count p.shared.sessions p.item.ipaddr = 1)) :
    (eofCb now bytes p).Accounted items itemid := by
  rw [eofCb]
  cases hbev : p.item.bev with
  | none => exact hp
  | some conn =>
    obtain ⟨hbytes, hend⟩ := heof conn hbev
    rw [if_neg (by simp), if_pos (List.length_pos_of_ne_nil hbytes)]
    obtain ⟨_, hsame⟩ | ⟨hfinished, q, hsame, hresponse⟩ := responseCb_conns now bytes hbev
    · exact ((hsame.accounted hp).finish (hsame.bev.trans hbev)).2
    · have hone := hend.resolve_left hfinished
      have hq := hsame.accounted hp
      have hqbev := hsame.bev.trans hbev
      obtain ⟨_, _, haddr, hknown⟩ := hq.own conn hqbev
      obtain ⟨known, hsome⟩ := Option.ne_none_iff_exists'.mp hknown
      have hipaddr : q.item.ipaddr = some known := haddr.symm.trans hsome
      rw [hresponse]
      refine (asyncTcpDestroySession_none ?_).accounted ((hq.finish hqbev).1.remove_nothing ?_)
      · exact asyncTcpDestroySession_bev
      · rw [← hsame.sessions, ← hsame.ipaddr, hipaddr] at hone
        simp [Poll.removeSession, asyncTcpDestroySession, hqbev, Poll.returnItemToQueue, hipaddr, count_removeSession,
          hone]

end

section

variable {s : State Addr} {itemid : ItemId} {callback : Poll Addr → Poll Addr}

lemma Accounted.poll (hs : Accounted s) {item : TcpItem Addr} (hitem : s.items itemid = some item) :
    (⟨s.shared, itemid, item⟩ : Poll Addr).Accounted s.items itemid where
  same := rfl
  mine conn hconn hmine := by
    obtain ⟨found, hfound, hbev⟩ := hs.held conn hconn
    rw [hmine, hitem] at hfound
    exact Option.some.inj hfound ▸ hbev
  held conn hconn _ := hs.held conn hconn
  own := hs.holds itemid item hitem
  others other item _ := hs.holds other item
  counted := hs.counted

lemma Poll.Accounted.state {items : ItemId → Option (TcpItem Addr)} {p : Poll Addr} (hp : p.Accounted items itemid) :
    Tcp.Accounted ⟨Function.update items itemid (some p.item), p.shared⟩ where
  held conn hconn := by
    by_cases hmine : conn.itemid = itemid
    · exact ⟨p.item, by simp [hmine], hp.mine conn hconn hmine⟩
    · simpa [hmine] using hp.held conn hconn hmine
  holds other item hitem := by
    by_cases hmine : other = itemid
    · subst hmine
      obtain rfl : p.item = item := by simpa using hitem
      exact hp.own
    · exact hp.others other item hmine (by simpa [hmine] using hitem)
  counted := hp.counted

lemma Accounted.onItem (hs : Accounted s)
    (hcallback : ∀ item, s.items itemid = some item →
      (⟨s.shared, itemid, item⟩ : Poll Addr).Accounted s.items itemid →
      (callback ⟨s.shared, itemid, item⟩).Accounted s.items itemid) : Accounted (s.onItem itemid callback) := by
  rw [State.onItem]
  cases hitem : s.items itemid with
  | none => exact hs
  | some item => exact (hcallback item hitem (hs.poll hitem)).state

lemma Accounted.onBev (hs : Accounted s)
    (hcallback : ∀ item, s.items itemid = some item →
      (⟨s.shared, itemid, item⟩ : Poll Addr).Accounted s.items itemid → item.bev ≠ none →
      (callback ⟨s.shared, itemid, item⟩).Accounted s.items itemid) : Accounted (s.onBev itemid callback) := by
  rw [State.onBev]
  split_ifs with hany
  · apply hs.onItem
    intro item hitem hp
    -- the connection the event comes from is the item's
    obtain ⟨conn, hconn, hmine⟩ := List.any_eq_true.mp hany
    have hbev := hp.mine conn hconn (by simpa using hmine)
    exact hcallback item hitem hp (by simp_all)
  · exact hs

lemma Accounted.onLookup (hs : Accounted s)
    (hcallback : ∀ item, s.items itemid = some item → 0 < s.shared.lookups itemid →
      (⟨(s.answered itemid).shared, itemid, item⟩ : Poll Addr).Accounted s.items itemid →
      (callback ⟨(s.answered itemid).shared, itemid, item⟩).Accounted s.items itemid) :
    Accounted (s.onLookup itemid callback) := by
  rw [State.onLookup]
  split_ifs with hlookup
  · have hanswered : Accounted (s.answered itemid) :=
      ⟨hs.held, hs.holds, hs.counted.nodup, hs.counted.fresh, hs.counted.count⟩
    exact hanswered.onItem fun item hitem => hcallback item hitem hlookup
  · exact hs

lemma Accounted.replace (hs : Accounted s) (hbev : ∀ item, s.items itemid = some item → item.bev = none)
    {new : Option (TcpItem Addr)} (hnew : ∀ item, new = some item → item.bev = none) :
    Accounted ⟨Function.update s.items itemid new, s.shared⟩ := by
  refine ⟨?_, ?_, hs.counted⟩
  · intro conn hconn
    obtain ⟨item, hitem, hopen⟩ := hs.held conn hconn
    have hdiff : conn.itemid ≠ itemid := by
      rintro rfl
      rw [hbev item hitem] at hopen
      cases hopen
    exact ⟨item, by simpa [hdiff] using hitem, hopen⟩
  · intro other item hitem
    by_cases hmine : other = itemid
    · subst hmine
      intro conn hconn
      rw [hnew item (by simpa using hitem)] at hconn
      cases hconn
    · exact hs.holds other item (by simpa [hmine] using hitem)

lemma Accounted.deleteItem (hs : Accounted s) (hbev : ∀ item, s.items itemid = some item → item.bev = none) :
    Accounted (s.deleteItem itemid) := by
  rw [State.deleteItem]
  cases hitem : s.items itemid with
  | none => exact hs
  | some item =>
    simp only [hbev item hitem, Option.isSome_none, Bool.false_eq_true, if_false]
    exact hs.replace hbev (by simp)

end

def KeepsCount (unreachableDelay : ℤ) (s : State Addr) : Event Addr → Prop
  | .create itemid _ _ _ | .delete itemid => ∀ item, s.items itemid = some item → item.bev = none
  | .poll itemid now lookup connect => ∀ item, s.items itemid = some item →
      (item.queued → Fresh unreachableDelay now s.shared.sessions item.ipaddr) ∧
      (Sends unreachableDelay now lookup s.shared item → connect ≠ .noSocket →
        item.bev = none ∧ (connect = .started → item.ipaddr ≠ none))
  | .resolved itemid _ _ _ _ => ∀ item, s.items itemid = some item → 0 < s.shared.lookups itemid → item.bev = none
  | .error itemid | .timeout itemid => ∀ item, s.items itemid = some item → item.bev = none
  | .eof itemid _ bytes => ∀ item, s.items itemid = some item → item.bev ≠ none →
      bytes ≠ [] ∧ (item.protoCtx.Unfinished bytes ∨ Contention.count s.shared.sessions item.ipaddr = 1)
  | .housekeep now => unreachableDelay.tdiv 4 ≤ now - s.shared.lastHousekeep →
      ∀ name, Fresh unreachableDelay now s.shared.sessions name
  | _ => True

lemma step_accounted {unreachableDelay : ℤ} {s : State Addr} {e : Event Addr} (hs : Accounted s)
    (h : KeepsCount unreachableDelay s e) : Accounted (step unreachableDelay s e) := by
  cases e with
  | create itemid http useip addr =>
    apply (hs.deleteItem h).replace
    · intro item hitem
      rw [State.deleteItem] at hitem
      split at hitem
      · simp_all
      · simp at hitem
    · intro item hitem
      rw [← Option.some.inj hitem]
      rfl
  | delete itemid => exact hs.deleteItem h
  | poll itemid now lookup connect =>
    apply hs.onItem
    intro item hitem hp
    obtain ⟨hfresh, hsend⟩ := h item hitem
    obtain hsame | ⟨hqueued, hquiet⟩ | ⟨hsends, q, hquiet, hsent⟩ :=
      itemPollCb_cases unreachableDelay now lookup connect ⟨s.shared, itemid, item⟩
    · rw [hsame]
      exact hp
    · exact hquiet.accounted ((asked_fresh (hfresh hqueued)).accounted hp)
    · rw [hsent]
      apply tcpSendRequest_accounted (hquiet.accounted ((asked_fresh (hfresh hsends.1)).accounted hp))
      rw [hquiet.bev, hquiet.ipaddr]
      exact hsend hsends
  | resolved itemid now spread addr connect =>
    apply hs.onLookup
    intro item hitem hlookup hp
    have hbev := h item hitem hlookup
    refine tcpSendRequest_accounted (hp.move hbev hbev) ?_
    intro _
    exact ⟨hbev, by simp⟩
  | resolveFailed itemid errcode count =>
    apply hs.onLookup
    intro item _ _ hp
    exact (Quiet.resolveFailed errcode count _).accounted hp
  | resolvedEmpty itemid =>
    apply hs.onLookup
    intro item _ _ hp
    exact hp
  | connected itemid =>
    apply hs.onBev
    intro item _ hp hbev
    obtain ⟨conn, hconn⟩ := Option.ne_none_iff_exists'.mp hbev
    rw [connectedCb]
    split
    · exact hp
    · have hreport : Quiet ⟨s.shared, itemid, item⟩ (Poll.report ⟨s.shared, itemid, item⟩ (.uint64 itemid 1)) :=
        Quiet.report _ rfl
      exact ((hreport.accounted hp).finish hconn).1
  | read itemid now bytes =>
    apply hs.onBev
    intro item _ hp hbev
    obtain ⟨conn, hconn⟩ := Option.ne_none_iff_exists'.mp hbev
    obtain ⟨_, hsame⟩ | ⟨_, q, hsame, hresponse⟩ := responseCb_conns (p := ⟨s.shared, itemid, item⟩) now bytes hconn
    · exact hsame.accounted hp
    · rw [hresponse]
      exact ((hsame.accounted hp).finish (hsame.bev.trans hconn)).1
  | error itemid =>
    apply hs.onBev
    intro item hitem _ hbev
    exact absurd (h item hitem) hbev
  | timeout itemid =>
    apply hs.onBev
    intro item hitem _ hbev
    exact absurd (h item hitem) hbev
  | eof itemid now bytes =>
    apply hs.onBev
    intro item hitem hp hbev
    exact eofCb_accounted now hp fun conn _ => h item hitem hbev
  | housekeep now =>
    refine ⟨hs.held, hs.holds, hs.counted.nodup, hs.counted.fresh, ?_⟩
    simp only [step, housekeep_fresh h]
    exact hs.counted.count

theorem sessions_count_open_connections (unreachableDelay : ℤ) (es : List (Event Addr))
    (h : ∀ t ∈ transitions (step unreachableDelay) init es, KeepsCount unreachableDelay t.source t.event) :
    ∀ t ∈ transitions (step unreachableDelay) init es,
      (∀ addr, Contention.count t.target.shared.sessions (some addr) = openTo t.target.shared.conns addr) ∧
      ∀ conn ∈ t.target.shared.conns, ∃ item, t.target.items conn.itemid = some item ∧ item.bev = some conn := by
  have hinit : Accounted (init : State Addr) := by
    refine ⟨by simp [init], by simp [init], by simp [init], by simp [init], ?_⟩
    intro addr
    rfl
  refine transitions_rule (fun _ s => Accounted s) hinit ?_ h
  intro past s e hs hkeeps
  have hnext := step_accounted hs hkeeps
  exact ⟨hnext, hnext.counted.count, hnext.held⟩

theorem answeredPoll_sessions : (transitions (step 60) init answeredPoll).length = 3 ∧
    ∀ t ∈ transitions (step 60) init answeredPoll,
      (∀ addr, Contention.count t.target.shared.sessions (some addr) = openTo t.target.shared.conns addr) ∧
        ∀ conn ∈ t.target.shared.conns, ∃ item, t.target.items conn.itemid = some item ∧ item.bev = some conn := by
  refine ⟨rfl, ?_⟩
  apply sessions_count_open_connections
  intro t ht
  simp only [transitions, answeredPoll, transitionsFrom, List.mem_cons, List.not_mem_nil, or_false] at ht
  obtain rfl | rfl | rfl := ht
  · intro item hitem
    cases hitem
  · intro item hitem
    obtain rfl : initItem false true 7 = item := Option.some.inj hitem
    refine ⟨?_, fun _ _ => ⟨rfl, by simp [initItem]⟩⟩
    intro _ sess hsess
    cases hsess
  · trivial

def abandonedPoll : List (Event ℕ) := [.create 1 false true 7, .poll 1 100 ⟨true, false⟩ .started, .timeout 1]

theorem abandonedPoll_leaks_session : ¬∀ es : List (Event ℕ), ∀ t ∈ transitions (step 60) init es, ∀ addr,
    Contention.count t.target.shared.sessions (some addr) = openTo t.target.shared.conns addr := by
  intro h
  have hlast := h abandonedPoll
  simp only [transitions, abandonedPoll, transitionsFrom, List.forall_mem_cons] at hlast
  have hcount : (1 : ℕ) = 0 := hlast.2.2.1 7
  cases hcount

end Glaber.Poller.Tcp
