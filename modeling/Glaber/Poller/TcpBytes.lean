import Glaber.Poller.Tcp

namespace Glaber.Poller.Tcp

open Glaber.Lib.Runs Glaber.Poller.Contention Glaber.Poller.TcpAgent

variable {Addr : Type} [DecidableEq Addr]

def Entry.Own : Entry → Prop
  | .interpreted _ conn bytes result => (∀ byte ∈ bytes, byte.conn = conn) ∧ ∀ received, result ≠ some (.outside received)
  | _ => True

def AllOwn (log : List Entry) : Prop := ∀ entry ∈ log, entry.Own

def TcpItem.Pure (item : TcpItem Addr) : Prop :=
  ∀ byte ∈ item.protoCtx.buffered, item.bev.map Conn.id = some byte.conn

structure Poll.Unmixed (p : Poll Addr) : Prop where
  item : p.item.Pure
  log : AllOwn p.shared.log

structure State.Unmixed (s : State Addr) : Prop where
  items : ∀ itemid item, s.items itemid = some item → item.Pure
  log : AllOwn s.shared.log

def ProtoCtx.Wraps (ctx : ProtoCtx) (bytes : List UInt8) : Prop :=
  match ctx with
  | .agent data => LengthWraps (data.buffer.map Byte.octet ++ bytes)
  | .simpleHttp => False

def ProtoCtx.Unfinished (ctx : ProtoCtx) (bytes : List UInt8) : Prop :=
  match ctx with
  | .agent data => processResponse (data.buffer.map Byte.octet ++ bytes) = none
  | .simpleHttp => False

lemma Entry.own_of_not_interpreted {entry : Entry} (h : entry.isInterpreted = false) : entry.Own := by
  cases entry with
  | interpreted => cases h
  | error => trivial
  | uint64 => trivial

lemma allOwn_append {log : List Entry} {entry : Entry} (h : AllOwn log) (hentry : entry.Own) :
    AllOwn (log ++ [entry]) := by
  intro e he
  rcases List.mem_append.mp he with hold | hnew
  · exact h e hold
  · rwa [List.mem_singleton.mp hnew]

omit [DecidableEq Addr] in
lemma pure_of_empty {item : TcpItem Addr} (h : item.protoCtx.buffered = []) : item.Pure := by
  intro byte hbyte
  rw [h] at hbyte
  cases hbyte

lemma octets_append (data : AgentData Byte) (conn : ℕ) (bytes : List UInt8) :
    (data.buffer ++ bytes.map (Byte.mk conn)).map Byte.octet = data.buffer.map Byte.octet ++ bytes := by
  simp [Function.comp_def]

section

variable {p q : Poll Addr}

omit [DecidableEq Addr] in
lemma Quiet.unmixed (h : Quiet p q) (hp : p.Unmixed) : q.Unmixed where
  item := by
    intro byte hbyte
    rw [h.bev]
    exact hp.item byte (h.protoCtx ▸ hbyte)
  log entry hentry := (h.log entry hentry).elim (hp.log entry) Entry.own_of_not_interpreted

lemma asyncTcpDestroySession_keeps : (asyncTcpDestroySession p).item.protoCtx = p.item.protoCtx ∧
    (asyncTcpDestroySession p).shared.log = p.shared.log := by
  rw [asyncTcpDestroySession]
  split
  · exact ⟨rfl, rfl⟩
  · exact ⟨rfl, rfl⟩

lemma Poll.Unmixed.destroy (hlog : AllOwn p.shared.log) (hempty : p.item.protoCtx.buffered = []) :
    (asyncTcpDestroySession p).Unmixed := by
  obtain ⟨hctx, hsame⟩ := asyncTcpDestroySession_keeps (p := p)
  exact ⟨pure_of_empty (by rwa [hctx]), by rwa [hsame]⟩

lemma Poll.Unmixed.destroy_closed (hp : p.Unmixed) (hbev : p.item.bev = none) :
    (asyncTcpDestroySession p).Unmixed := by
  apply Poll.Unmixed.destroy hp.log
  apply List.eq_nil_iff_forall_not_mem.mpr
  intro byte hbyte
  have := hp.item byte hbyte
  rw [hbev] at this
  cases this

omit [DecidableEq Addr] in
lemma Poll.Unmixed.newBev (hp : p.Unmixed) (hempty : p.item.protoCtx.buffered = []) : (Tcp.newBev p).Unmixed :=
  ⟨pure_of_empty hempty, hp.log⟩

lemma Poll.Unmixed.removeSession (hp : p.Unmixed) : p.removeSession.Unmixed := ⟨hp.item, hp.log⟩

lemma Poll.Unmixed.addSession {now : ℤ} (hp : p.Unmixed) : (p.addSession now).Unmixed := ⟨hp.item, hp.log⟩

lemma tcpSendRequest_unmixed {now : ℤ} {connect : Connect} (hp : p.Unmixed)
    (hempty : connect ≠ .noSocket → p.item.protoCtx.buffered = []) : (tcpSendRequest now connect p).Unmixed := by
  obtain ⟨hnone, hrefused, hstarted⟩ := tcpSendRequest_quiet now p
  cases connect with
  | noSocket => exact hnone.unmixed hp
  | refused =>
    apply hrefused.unmixed
    exact Poll.Unmixed.destroy hp.log (hempty (by simp))
  | started =>
    rw [hstarted]
    exact (hp.newBev (hempty (by simp))).addSession

lemma responseCb_unmixed (now : ℤ) {bytes : List UInt8} (hp : p.Unmixed)
    (hwraps : p.item.bev ≠ none → ¬p.item.protoCtx.Wraps bytes) : (responseCb now bytes p).Unmixed := by
  rw [responseCb]
  split
  · exact hp
  · rename_i conn data hbev hctx
    have hbytes : ∀ byte ∈ data.buffer ++ bytes.map (Byte.mk conn.id), byte.conn = conn.id := by
      intro byte hbyte
      rcases List.mem_append.mp hbyte with h | h
      · have := hp.item byte (by rwa [hctx])
        rw [hbev] at this
        simpa using this.symm
      · obtain ⟨octet, _, rfl⟩ := List.mem_map.mp h
        rfl
    rw [hctx] at hwraps
    specialize hwraps (by simp [hbev])
    dsimp only
    cases hresult : processResponse ((data.buffer ++ bytes.map (Byte.mk conn.id)).map Byte.octet) with
    | none =>
      rw [responseCb_continue hresult]
      refine ⟨?_, allOwn_append hp.log ⟨hbytes, by simp⟩⟩
      intro byte hbyte
      simpa [hbev, Poll.report] using (hbytes byte hbyte).symm
    | some result =>
      obtain ⟨data', lastcheck', hreply, hempty⟩ := responseCb_finish p.shared.lastcheck now hresult
      have hproper : ∀ received, some result ≠ some (.outside received) := by
        rw [octets_append] at hresult
        simpa using (processResponse_stands hwraps List.prefix_rfl hresult).2
      rw [hreply]
      apply Poll.Unmixed.removeSession
      exact Poll.Unmixed.destroy (allOwn_append hp.log ⟨hbytes, hproper⟩) hempty
  · rename_i hctx
    apply Poll.Unmixed.removeSession
    apply Poll.Unmixed.destroy
    · exact allOwn_append hp.log trivial
    · exact congrArg ProtoCtx.buffered hctx

lemma asyncTcpDestroySession_bev : (asyncTcpDestroySession p).item.bev = none := by
  rw [asyncTcpDestroySession]
  split
  · rfl
  · assumption

lemma responseCb_closes (now : ℤ) {bytes : List UInt8} (hbev : p.item.bev ≠ none)
    (hfinished : ¬p.item.protoCtx.Unfinished bytes) : (responseCb now bytes p).item.bev = none := by
  rw [responseCb]
  split
  · contradiction
  · rename_i conn data _ hctx
    rw [hctx] at hfinished
    obtain ⟨result, hresult⟩ := Option.ne_none_iff_exists'.mp hfinished
    rw [← octets_append data conn.id] at hresult
    obtain ⟨data', lastcheck', hreply, _⟩ := responseCb_finish p.shared.lastcheck now hresult
    rw [hreply]
    exact asyncTcpDestroySession_bev
  · exact asyncTcpDestroySession_bev

lemma eofCb_unmixed {now : ℤ} {bytes : List UInt8} (hp : p.Unmixed)
    (hempty : bytes = [] → p.item.protoCtx.buffered = [])
    (hbytes : bytes ≠ [] → p.item.bev ≠ none → ¬p.item.protoCtx.Wraps bytes ∧ ¬p.item.protoCtx.Unfinished bytes) :
    (eofCb now bytes p).Unmixed := by
  rw [eofCb]
  split_ifs with hbev hlen
  · exact hp
  · obtain ⟨hwraps, hfinished⟩ := hbytes (List.ne_nil_of_length_pos hlen) (by simpa using hbev)
    have hresponse := responseCb_unmixed now hp fun _ => hwraps
    apply hresponse.removeSession.destroy_closed
    exact responseCb_closes now (by simpa using hbev) hfinished
  · have hfail := Quiet.connFail "Connection is dropped" p
    apply Poll.Unmixed.destroy (hfail.unmixed hp).log
    rw [hfail.protoCtx]
    exact hempty (List.eq_nil_of_length_eq_zero (by omega))

end

section

variable {s : State Addr} {itemid : ItemId} {callback : Poll Addr → Poll Addr}

omit [DecidableEq Addr] in
lemma State.Unmixed.onItem (hs : s.Unmixed)
    (hcallback : ∀ item, s.items itemid = some item → (⟨s.shared, itemid, item⟩ : Poll Addr).Unmixed →
      (callback ⟨s.shared, itemid, item⟩).Unmixed) : (s.onItem itemid callback).Unmixed := by
  rw [State.onItem]
  cases hitem : s.items itemid with
  | none => exact hs
  | some item =>
    have hp := hcallback item hitem ⟨hs.items itemid item hitem, hs.log⟩
    refine ⟨?_, hp.log⟩
    intro other found hfound
    by_cases hsame : other = itemid
    · subst hsame
      obtain rfl : _ = found := by simpa using hfound
      exact hp.item
    · exact hs.items other found (by simpa [hsame] using hfound)

omit [DecidableEq Addr] in
lemma State.Unmixed.onBev (hs : s.Unmixed)
    (hcallback : ∀ item, s.items itemid = some item → (⟨s.shared, itemid, item⟩ : Poll Addr).Unmixed →
      (callback ⟨s.shared, itemid, item⟩).Unmixed) : (s.onBev itemid callback).Unmixed := by
  rw [State.onBev]
  split_ifs
  · exact hs.onItem hcallback
  · exact hs

omit [DecidableEq Addr] in
lemma State.Unmixed.onLookup (hs : s.Unmixed)
    (hcallback : ∀ item, s.items itemid = some item → 0 < s.shared.lookups itemid →
      (⟨(s.answered itemid).shared, itemid, item⟩ : Poll Addr).Unmixed →
      (callback ⟨(s.answered itemid).shared, itemid, item⟩).Unmixed) : (s.onLookup itemid callback).Unmixed := by
  rw [State.onLookup]
  split_ifs with hlookup
  · have hanswered : (s.answered itemid).Unmixed := ⟨hs.items, hs.log⟩
    exact hanswered.onItem fun item hitem => hcallback item hitem hlookup
  · exact hs

lemma State.Unmixed.deleteItem (hs : s.Unmixed) (itemid : ItemId) : (s.deleteItem itemid).Unmixed := by
  rw [State.deleteItem]
  cases hitem : s.items itemid with
  | none => exact hs
  | some item =>
    refine ⟨?_, ?_⟩
    · intro other found hfound
      by_cases hsame : other = itemid
      · simp [hsame] at hfound
      · exact hs.items other found (by simpa [hsame] using hfound)
    · dsimp only
      split_ifs
      · rw [asyncTcpDestroySession_keeps.2]
        exact hs.log
      · exact hs.log

end

def KeepsBytes (unreachableDelay : ℤ) (s : State Addr) : Event Addr → Prop
  | .poll itemid now lookup connect => ∀ item, s.items itemid = some item →
      Sends unreachableDelay now lookup s.shared item → connect ≠ .noSocket → item.protoCtx.buffered = []
  | .resolved itemid _ _ _ connect => ∀ item, s.items itemid = some item →
      0 < s.shared.lookups itemid → connect ≠ .noSocket → item.protoCtx.buffered = []
  | .read itemid _ bytes => ∀ item, s.items itemid = some item → item.bev ≠ none → ¬item.protoCtx.Wraps bytes
  | .error itemid | .timeout itemid => ∀ item, s.items itemid = some item → item.protoCtx.buffered = []
  | .eof itemid _ bytes => ∀ item, s.items itemid = some item →
      (bytes = [] → item.protoCtx.buffered = []) ∧
      (bytes ≠ [] → item.bev ≠ none → ¬item.protoCtx.Wraps bytes ∧ ¬item.protoCtx.Unfinished bytes)
  | _ => True

lemma step_unmixed {unreachableDelay : ℤ} {s : State Addr} {e : Event Addr} (hs : s.Unmixed)
    (h : KeepsBytes unreachableDelay s e) : (step unreachableDelay s e).Unmixed := by
  cases e with
  | create itemid http useip addr =>
    have hdeleted := hs.deleteItem itemid
    refine ⟨?_, hdeleted.log⟩
    intro other item hitem
    by_cases hsame : other = itemid
    · subst hsame
      obtain rfl : _ = item := by simpa [step, State.createItem] using hitem
      apply pure_of_empty
      cases http <;> rfl
    · exact hdeleted.items other item (by simpa [step, State.createItem, hsame] using hitem)
  | delete itemid => exact hs.deleteItem itemid
  | poll itemid now lookup connect =>
    apply hs.onItem
    intro item hitem hp
    have hasked : (asked unreachableDelay now ⟨s.shared, itemid, item⟩).Unmixed := ⟨hp.item, hp.log⟩
    obtain hsame | ⟨_, hquiet⟩ | ⟨hsends, q, hquiet, hsent⟩ :=
      itemPollCb_cases unreachableDelay now lookup connect ⟨s.shared, itemid, item⟩
    · rw [hsame]
      exact hp
    · exact hquiet.unmixed hasked
    · rw [hsent]
      apply tcpSendRequest_unmixed (hquiet.unmixed hasked)
      intro hconnect
      rw [hquiet.protoCtx]
      exact h item hitem hsends hconnect
  | resolved itemid now spread addr connect =>
    apply hs.onLookup
    intro item hitem hlookup hp
    refine tcpSendRequest_unmixed ?_ (h item hitem hlookup)
    exact ⟨hp.item, hp.log⟩
  | resolveFailed itemid errcode count =>
    apply hs.onLookup
    intro item _ _ hp
    exact (Quiet.resolveFailed errcode count _).unmixed hp
  | resolvedEmpty itemid =>
    apply hs.onLookup
    intro item _ _ hp
    exact hp
  | connected itemid =>
    apply hs.onBev
    intro item _ hp
    rw [connectedCb]
    split
    · exact hp
    · rename_i hctx
      apply Poll.Unmixed.removeSession
      apply Poll.Unmixed.destroy
      · exact allOwn_append hp.log trivial
      · exact congrArg ProtoCtx.buffered hctx
  | read itemid now bytes =>
    apply hs.onBev
    intro item hitem hp
    exact responseCb_unmixed now hp (h item hitem)
  | error itemid =>
    apply hs.onBev
    intro item hitem hp
    have hfail := Quiet.connFail "Connection error" ⟨s.shared, itemid, item⟩
    apply Poll.Unmixed.destroy (hfail.unmixed hp).log
    rw [hfail.protoCtx]
    exact h item hitem
  | timeout itemid =>
    apply hs.onBev
    intro item hitem hp
    have hfail := Quiet.connFail "Timeout while waiting for response" ⟨s.shared, itemid, item⟩
    apply Poll.Unmixed.destroy (hfail.unmixed hp).log
    rw [hfail.protoCtx]
    exact h item hitem
  | eof itemid now bytes =>
    apply hs.onBev
    intro item hitem hp
    exact eofCb_unmixed hp (h item hitem).1 (h item hitem).2
  | housekeep now => exact ⟨hs.items, hs.log⟩

theorem interpreted_bytes_of_connection (unreachableDelay : ℤ) (es : List (Event Addr))
    (h : ∀ t ∈ transitions (step unreachableDelay) init es, KeepsBytes unreachableDelay t.source t.event) :
    ∀ t ∈ transitions (step unreachableDelay) init es, ∀ entry ∈ t.target.shared.log, entry.Own := by
  have hinit : (init : State Addr).Unmixed := ⟨by simp [init], by simp [init, AllOwn]⟩
  refine transitions_rule (fun _ s => s.Unmixed) hinit ?_ h
  intro past s e hs hkeeps
  have hnext := step_unmixed hs hkeeps
  exact ⟨hnext, hnext.log⟩

def answer : List UInt8 := headerData ++ [tcpProtocol, 1, 0, 0, 0, 0, 0, 0, 0, 0x31]

def answeredPoll : List (Event ℕ) :=
  [.create 1 false true 7, .poll 1 100 ⟨true, false⟩ .started, .read 1 101 answer]

theorem answeredPoll_bytes : (transitions (step 60) init answeredPoll).length = 3 ∧
    ∀ t ∈ transitions (step 60) init answeredPoll, ∀ entry ∈ t.target.shared.log, entry.Own := by
  refine ⟨rfl, ?_⟩
  apply interpreted_bytes_of_connection
  intro t ht
  simp only [transitions, answeredPoll, transitionsFrom, List.mem_cons, List.not_mem_nil, or_false] at ht
  obtain rfl | rfl | rfl := ht
  · trivial
  · intro item hitem _ _
    obtain rfl : initItem false true 7 = item := Option.some.inj hitem
    rfl
  · intro item hitem _
    obtain rfl : _ = item := Option.some.inj hitem
    show ¬LengthWraps answer
    decide

def longHeader : List UInt8 := headerData ++ [tcpProtocol, 14, 0, 0, 0, 0, 0, 0, 0]

def timedOutPoll : List (Event ℕ) :=
  [.create 1 false true 7, .poll 1 100 ⟨true, false⟩ .started, .read 1 101 longHeader, .timeout 1,
    .poll 1 200 ⟨true, false⟩ .started, .read 1 201 answer]

theorem timedOutPoll_mixes : ¬∀ es : List (Event ℕ), ∀ t ∈ transitions (step 60) init es,
    ∀ entry ∈ t.target.shared.log, entry.Own := by
  intro h
  have hmixed : Entry.interpreted 1 1 (longHeader.map (Byte.mk 0) ++ answer.map (Byte.mk 1))
      (some (.value [0x5A, 0x42, 0x58, 0x44, 1, 1])) ∈ (timedOutPoll.foldl (step 60) init).shared.log := by
    decide
  have hlast := h timedOutPoll
  simp only [transitions, timedOutPoll, transitionsFrom, List.forall_mem_cons] at hlast
  have hown := hlast.2.2.2.2.2.1 _ hmixed
  have hfirst : (0 : ℕ) = 1 := hown.1 ⟨0, 0x5A⟩ (by decide)
  cases hfirst

end Glaber.Poller.Tcp
