import Glaber.Ipc.Ipc2Delivery
import Glaber.Ipc.MetricsBuffer

namespace Glaber.Ipc.Metrics

open Glaber.Lib.Bytes Glaber.Lib.Linked Glaber.Lib.Runs Glaber.Ipc.Ipc2 Glaber.Ipc.Serial

def expected (consumers : ℕ) (sent : List Handed) (c : ℕ) : List Handed :=
  sent.filter fun handed => queueNum consumers handed = c

structure Drained (s : System) (c : ℕ) : Prop where
  sender : s.pc = .idle
  flushed : (s.sbuff c).itemsCount = 0
  queue : (s.ipc.consumer c).queue.first = none
  hand : (s.ipc.consumer c).rcvQueue = none
  receiver : (s.ipc.consumer c).pc = .idle

def Delivered (consumers : ℕ) (s : System) : Prop :=
  ∀ c place, ∃ seen, consumerSees place (s.ipc.consumer c).delivered = some seen ∧
    seen <+: (expected consumers s.sent c).map Handed.reading ∧
    (Drained s c → seen = (expected consumers s.sent c).map Handed.reading)

def EventFits (consumers : ℕ) (s : System) (e : Event) : Prop :=
  match e, s.pc with
  | .sendMetric handed _ _ _ _ _, .idle =>
    let sbuff := s.sbuff (queueNum consumers handed)
    MetricFits sbuff.size sbuff.used handed
  | _, _ => True

def RunFits (consumers : ℕ) : System → List Event → Prop
  | _, [] => True
  | s, e :: events => EventFits consumers s e ∧ ∀ s', sysStep consumers s e = some s' → RunFits consumers s' events

section

variable {consumers : ℕ} {s s' : IpcConf} {owner : Addr → Option Owner} {ret : Option Int32}

lemma appended_setConsumer {c : ℕ} {e : Consumer} (h : e.appended = (s.consumer c).appended) (d : ℕ) :
    ((s.setConsumer c e).consumer d).appended = (s.consumer d).appended := by
  simp only [IpcConf.setConsumer]
  by_cases hd : d = c
  · rw [hd, Function.update_self, h]
  · rw [Function.update_of_ne hd]

structure Untouched (s s' : IpcConf) : Prop where
  sender : s'.sender = s.sender
  appended : ∀ d, (s'.consumer d).appended = (s.consumer d).appended
  filled : ∀ i d a n, s.sender i = .filled d a n → s'.heap a = s.heap a

lemma untouched_setConsumer {c : ℕ} {e : Consumer} (h : e.appended = (s.consumer c).appended) :
    Untouched s (s.setConsumer c e) :=
  ⟨rfl, appended_setConsumer h, fun _ _ _ _ _ => rfl⟩

lemma receiver_untouched (h : Owned owner s) (c : ℕ) (act : ReceiverStep)
    (hs : step consumers s (act.action c) = .next ret s') : Untouched s s' := by
  cases act with
  | receive =>
    simp only [ReceiverStep.action, step, receiveCall] at hs
    split at hs
    · split_ifs at hs
      · cases hs
        exact untouched_setConsumer rfl
      · split at hs <;> cases hs <;> exact untouched_setConsumer rfl
    · cases hs
  | steal =>
    simp only [ReceiverStep.action, step, stealQueue] at hs
    split at hs
    · cases hs
      exact untouched_setConsumer rfl
    · cases hs
  | check =>
    simp only [ReceiverStep.action, step, checkLocalQueue] at hs
    split at hs
    · split at hs <;> cases hs <;> exact untouched_setConsumer rfl
    · cases hs
  | take =>
    simp only [ReceiverStep.action, step, takeChunk] at hs
    split at hs
    · split at hs
      · cases hs
      · split at hs <;> cases hs
        exact untouched_setConsumer rfl
    · cases hs
  | deliver =>
    simp only [ReceiverStep.action, step, deliverChunk] at hs
    split at hs
    · split at hs <;> cases hs
      exact untouched_setConsumer rfl
    · cases hs
  | free =>
    simp only [ReceiverStep.action, step, freeChunk] at hs
    split at hs
    · rename_i b hpc
      split at hs <;> cases hs
      refine ⟨rfl, appended_setConsumer rfl, fun i d a n hi => Function.update_of_ne ?_ _ _⟩
      -- the chunk in the receiver's hand is not the one the sender is filling
      rintro rfl
      obtain ⟨stolen, shared, hl⟩ := h.consumers c
      have hhand := hl.pc
      simp only [PcHolds, hpc] at hhand
      cases (h.senders i d a n hi).1.symm.trans hhand
    · cases hs

lemma send_cases (hidle : s.sender 0 = .idle) {i : ℕ} (hi : i < consumers) {n : Int32} {data : Payload} {chunk : Addr}
    (hs : step consumers s (.send 0 i n data chunk) = .next ret s') :
    (n = 0 ∧ s' = s) ∨ (n ≠ 0 ∧ (∀ d, s'.consumer d = s.consumer d) ∧ s'.sender 0 = .filled i chunk n ∧
      ∃ filled, s'.heap chunk = some filled ∧ filled.data = data) := by
  simp only [step, sendChunk, hidle, if_neg (Nat.not_le.mpr hi)] at hs
  split_ifs at hs with hz
  · cases hs
    exact .inl ⟨hz.symm, rfl⟩
  · split at hs <;> cases hs
    refine .inr ⟨fun h => hz h.symm, fun _ => rfl, ?_, _, Function.update_self .., rfl⟩
    simp only [IpcConf.setSender, Function.update_self]

lemma append_cases {i : ℕ} {a : Addr} {n : Int32} {chunk : Chunk} (hfilled : s.sender 0 = .filled i a n)
    (ha : s.heap a = some chunk) (hs : step consumers s (.append 0) = .next ret s') :
    s'.sender 0 = .idle ∧ (s'.consumer i).appended = (s.consumer i).appended ++ [chunk.data] ∧
    ∀ d, d ≠ i → (s'.consumer d).appended = (s.consumer d).appended := by
  simp only [step, addChunkToQueue, hfilled, ha] at hs
  split at hs
  · cases hs
    refine ⟨?_, ?_, fun d hd => ?_⟩
    · simp only [IpcConf.setConsumer, IpcConf.setSender, Function.update_self]
    · simp only [IpcConf.setConsumer, Function.update_self]
    · simp only [IpcConf.setConsumer, IpcConf.setSender, Function.update_of_ne hd]
  · split at hs
    · cases hs
    · split at hs <;> cases hs
      refine ⟨?_, ?_, fun d hd => ?_⟩
      · simp only [IpcConf.setConsumer, IpcConf.setSender, IpcConf.setChunk, Function.update_self]
      · simp only [IpcConf.setConsumer, Function.update_self]
      · simp only [IpcConf.setConsumer, IpcConf.setSender, IpcConf.setChunk, Function.update_of_ne hd]

lemma step_next (h : Invariant s) {a : Action} (hs : step consumers s a = .next ret s') : Invariant s' := by
  have := step_holds consumers h a
  rw [hs] at this
  exact this.1

lemma step_no_fault (h : Invariant s) (a : Action) : step consumers s a ≠ .fault := by
  intro hs
  have := step_holds consumers h a
  rw [hs] at this
  exact this

lemma delivered_of_drained (h : Invariant s) {c : ℕ} (hq : (s.consumer c).queue.first = none)
    (hr : (s.consumer c).rcvQueue = none) (hpc : (s.consumer c).pc = .idle) :
    (s.consumer c).delivered = (s.consumer c).appended := by
  obtain ⟨owner, h⟩ := h
  obtain ⟨stolen, shared, hl⟩ := h.consumers c
  have hstolen := (hr ▸ hl.stolenChain).nil_of_none
  have hshared := (hq ▸ hl.sharedChain).nil_of_none
  have hlog := hl.log
  rw [hstolen, hshared, hpc] at hlog
  simpa [inHand] using hlog

end

section

def Carries (chunk : Payload) (handed : List Handed) : Prop :=
  ∀ buffer, metricsChunkProcessCb chunk buffer = some (handed.map Handed.reading)

def pending (pc : Pc) (c : ℕ) (held : List Handed) : List Handed :=
  match pc with
  | .cleaning i _ _ => if i = c then [] else held
  | _ => held

def PcInv (s : System) : Prop :=
  match s.pc with
  | .appending i _ _ => ∃ a n chunk, s.ipc.sender 0 = .filled i a n ∧ s.ipc.heap a = some chunk ∧
      chunk.data = chunkOf (s.sbuff i) ∧ (s.sbuff i).itemsCount ≠ 0
  | _ => s.ipc.sender 0 = .idle

structure Routed (s : System) (c : ℕ) (sent : List Handed) (groups : List (List Handed)) (held : List Handed) : Prop where
  appended : List.Forall₂ Carries (s.ipc.consumer c).appended groups
  holding : Holding (s.sbuff c) held
  sent : sent = groups.flatten ++ pending s.pc c held

structure SysInv (consumers : ℕ) (s : System) : Prop where
  ipc : Invariant s.ipc
  pc : PcInv s
  routed : ∀ c, ∃ groups held, Routed s c (expected consumers s.sent c) groups held

lemma holding_init (fresh : Memory) (now : Int32) : Holding (initBuffer fresh now) [] := by
  refine ⟨rfl, Nat.zero_le _, ?_, ?_, [], laid_fresh rfl rfl, .nil⟩
  · change 56 < 2 ^ 31
    norm_num
  · change 0 < 2 ^ 31
    norm_num

lemma Holding.clean {buf : SerialBuffer} {held : List Handed} (h : Holding buf held) (now : Int32) :
    Holding (serialBufferClean buf now) [] := by
  refine ⟨rfl, Nat.zero_le _, ?_, h.size_lt, [], laid_fresh rfl rfl, .nil⟩
  change 56 < 2 ^ 31
  norm_num

lemma sysInv_init (consumers : ℕ) (fresh : ℕ → Memory) (now : Int32) : SysInv consumers (sysInit fresh now) :=
  ⟨invariant_init, rfl, fun c => ⟨[], [], .nil, holding_init (fresh c) now, rfl⟩⟩

variable {consumers : ℕ} {s : System}

lemma SysInv.setPc (h : SysInv consumers s) {pc : Pc} (hidle : s.ipc.sender 0 = .idle)
    (hpending : ∀ c held, pending pc c held = pending s.pc c held) (hpc : ∀ i t l, pc ≠ .appending i t l) :
    SysInv consumers { s with pc := pc } := by
  refine ⟨h.ipc, ?_, fun c => ?_⟩
  · cases pc with
    | appending i t l => exact absurd rfl (hpc i t l)
    | idle | looking | cleaning => exact hidle
  · obtain ⟨groups, held, hr⟩ := h.routed c
    exact ⟨groups, held, hr.appended, hr.holding, by rw [hpending]; exact hr.sent⟩

lemma SysInv.idle (h : SysInv consumers s) (hpc : ∀ i t l, s.pc ≠ .appending i t l) : s.ipc.sender 0 = .idle := by
  have := h.pc
  rw [PcInv] at this
  cases hs : s.pc with
  | appending i t l => exact absurd hs (hpc i t l)
  | idle | looking | cleaning => simpa only [hs] using this

lemma expected_snoc (sent : List Handed) (new : Handed) (c : ℕ) :
    expected consumers (sent ++ [new]) c = expected consumers sent c ++ if queueNum consumers new = c then [new] else [] := by
  rw [expected, List.filter_append, List.filter_singleton, expected]
  simp

lemma SysInv.sendMetric (h : SysInv consumers s) (hpc : s.pc = .idle) (handed : Handed) (pad : Fin 7 → UInt8)
    (fresh₁ fresh₂ : Memory) (flush : Flush) (now : Int32) :
    (MetricFits (s.sbuff (queueNum consumers handed)).size (s.sbuff (queueNum consumers handed)).used handed →
      ∃ s', sendMetric consumers s handed pad fresh₁ fresh₂ flush now = some s' ∧ SysInv consumers s') ∧
    (¬ MetricFits (s.sbuff (queueNum consumers handed)).size (s.sbuff (queueNum consumers handed)).used handed →
      sendMetric consumers s handed pad fresh₁ fresh₂ flush now = none) := by
  obtain ⟨groups, held, hr⟩ := h.routed (queueNum consumers handed)
  obtain ⟨hfits, hnot⟩ := hr.holding.addMetric fresh₁ fresh₂ pad handed
  refine ⟨fun hf => ?_, fun hf => by rw [Metrics.sendMetric, hnot hf]; rfl⟩
  obtain ⟨sbuff, hadd, hholding⟩ := hfits hf
  refine ⟨_, by rw [Metrics.sendMetric, hadd]; rfl, ?_⟩
  refine ⟨h.ipc, h.idle (by simp [hpc]), fun c => ?_⟩
  by_cases hc : queueNum consumers handed = c
  · subst hc
    refine ⟨groups, held ++ [handed], hr.appended, ?_, ?_⟩
    · simpa only [Function.update_self] using hholding
    · rw [expected_snoc, if_pos rfl, hr.sent, hpc, List.append_assoc]
      rfl
  · obtain ⟨groups, held, hr⟩ := h.routed c
    refine ⟨groups, held, hr.appended, ?_, ?_⟩
    · simpa only [Function.update_of_ne (Ne.symm hc)] using hr.holding
    · rw [expected_snoc, if_neg hc, hr.sent, hpc, List.append_nil]
      rfl

lemma ofNat_eq_zero {n : ℕ} (hn : n < 2 ^ 31) : Int32.ofNat n = 0 ↔ n = 0 := by
  constructor
  · intro h
    have := Int32.toInt_ofNat_of_lt hn
    rw [h] at this
    exact Int.natCast_eq_zero.mp this.symm
  · rintro rfl
    rfl

lemma Holding.count_zero_iff {buf : SerialBuffer} {held : List Handed} (h : Holding buf held) :
    Int32.ofNat buf.itemsCount = 0 ↔ held = [] := by
  have hlt : buf.itemsCount < 2 ^ 31 := by
    have := h.few
    have := h.used_lt
    rw [h.count]
    omega
  rw [ofNat_eq_zero hlt, h.count, List.length_eq_zero_iff]

lemma SysInv.look (h : SysInv consumers s) {i : ℕ} {t l : Int32} (hpc : s.pc = .looking i t l) (chunk : Addr) :
    ∃ s', look consumers s i t l chunk = some s' ∧ SysInv consumers s' := by
  have hidle := h.idle (by simp [hpc])
  rw [Metrics.look]
  by_cases hi : consumers ≤ i
  · rw [if_pos hi]
    exact ⟨_, rfl, h.setPc hidle (fun c held => by rw [hpc]; rfl) (by simp)⟩
  rw [if_neg hi]
  by_cases hdue : dueToFlush (s.sbuff i) t l
  · rw [if_pos hdue]
    obtain ⟨groups, held, hr⟩ := h.routed i
    cases hs : step consumers s.ipc (.send 0 i (Int32.ofNat (s.sbuff i).itemsCount) (chunkOf (s.sbuff i)) chunk) with
    | disabled => exact ⟨s, rfl, h⟩
    | fault => exact absurd hs (step_no_fault h.ipc _)
    | next ret ipc =>
      have hinv := step_next h.ipc hs
      rcases send_cases hidle (Nat.not_le.mp hi) hs with ⟨hz, rfl⟩ | ⟨hz, hcons, hfilled, filled, hheap, hdata⟩
      · simp only [hz, if_true]
        have hheld := hr.holding.count_zero_iff.mp hz
        refine ⟨_, rfl, hinv, hidle, fun c => ?_⟩
        obtain ⟨groups', held', hr'⟩ := h.routed c
        refine ⟨groups', held', hr'.appended, hr'.holding, ?_⟩
        rw [hr'.sent, hpc]
        by_cases hc : i = c
        · subst hc
          have : held' = [] := hr'.holding.count_zero_iff.mp hz
          rw [this]
          simp [pending]
        · simp [pending, hc]
      · simp only [hz, if_false]
        refine ⟨_, rfl, hinv, ?_, fun c => ?_⟩
        · exact ⟨chunk, _, filled, hfilled, hheap, hdata, fun h0 => hz (by rw [h0]; rfl)⟩
        · obtain ⟨groups', held', hr'⟩ := h.routed c
          refine ⟨groups', held', ?_, hr'.holding, by rw [hr'.sent, hpc]; rfl⟩
          simpa only [hcons c] using hr'.appended
  · rw [if_neg hdue]
    exact ⟨_, rfl, h.setPc hidle (fun c held => by rw [hpc]; rfl) (by simp)⟩

lemma SysInv.append (h : SysInv consumers s) {i : ℕ} {t l : Int32} (hpc : s.pc = .appending i t l) :
    ∃ s', sysStep consumers s .append = some s' ∧ SysInv consumers s' := by
  have hfilling := h.pc
  simp only [PcInv, hpc] at hfilling
  obtain ⟨a, n, chunk, hfilled, hheap, hdata, hitems⟩ := hfilling
  simp only [sysStep, hpc]
  cases hs : step consumers s.ipc (.append 0) with
  | disabled => exact ⟨s, rfl, h⟩
  | fault => exact absurd hs (step_no_fault h.ipc _)
  | next ret ipc =>
    obtain ⟨hidle, happended, hothers⟩ := append_cases hfilled hheap hs
    refine ⟨_, rfl, step_next h.ipc hs, hidle, fun c => ?_⟩
    obtain ⟨groups, held, hr⟩ := h.routed c
    have hsent := hr.sent
    rw [hpc] at hsent
    by_cases hc : c = i
    · subst hc
      have hne : held ≠ [] := fun h0 => hitems (by rw [hr.holding.count, h0]; rfl)
      have hcarries : Carries chunk.data held := fun buffer => hdata ▸ hr.holding.chunk_read hne buffer
      refine ⟨groups ++ [held], held, ?_, hr.holding, ?_⟩
      · simp only [happended]
        exact List.rel_append hr.appended (.cons hcarries .nil)
      · rw [hsent, List.flatten_append, List.flatten_singleton]
        simp [pending]
    · refine ⟨groups, held, ?_, hr.holding, ?_⟩
      · simpa only [hothers c hc] using hr.appended
      · rw [hsent]
        simp [pending, Ne.symm hc]

lemma SysInv.clean (h : SysInv consumers s) {i : ℕ} {t l : Int32} (hpc : s.pc = .cleaning i t l) (now : Int32) :
    SysInv consumers { s with
      sbuff := Function.update s.sbuff i (serialBufferClean (s.sbuff i) now)
      pc := .looking (i + 1) t l } := by
  refine ⟨h.ipc, h.idle (by simp [hpc]), fun c => ?_⟩
  obtain ⟨groups, held, hr⟩ := h.routed c
  have hsent := hr.sent
  rw [hpc] at hsent
  by_cases hc : c = i
  · subst hc
    refine ⟨groups, [], hr.appended, ?_, ?_⟩
    · simpa only [Function.update_self] using hr.holding.clean now
    · rw [hsent]
      simp [pending]
  · refine ⟨groups, held, hr.appended, ?_, ?_⟩
    · simpa only [Function.update_of_ne hc] using hr.holding
    · rw [hsent]
      simp [pending, Ne.symm hc]

lemma SysInv.consumer (h : SysInv consumers s) (c : ℕ) (act : ReceiverStep) :
    ∃ s', sysStep consumers s (.consumer c act) = some s' ∧ SysInv consumers s' := by
  simp only [sysStep]
  cases hs : step consumers s.ipc (act.action c) with
  | disabled => exact ⟨s, rfl, h⟩
  | fault => exact absurd hs (step_no_fault h.ipc _)
  | next ret ipc =>
    obtain ⟨owner, howned⟩ := h.ipc
    obtain ⟨hsender, happended, hfilled⟩ := receiver_untouched howned c act hs
    refine ⟨_, rfl, step_next h.ipc hs, ?_, fun d => ?_⟩
    · have hpc := h.pc
      simp only [PcInv, hsender] at hpc ⊢
      cases hp : s.pc with
      | appending i t l =>
        simp only [hp] at hpc
        obtain ⟨a, n, chunk, hsend, hheap, hrest⟩ := hpc
        exact ⟨a, n, chunk, hsend, (hfilled 0 i a n hsend).trans hheap, hrest⟩
      | idle | looking | cleaning =>
        simp only [hp] at hpc
        exact hpc
    · obtain ⟨groups, held, hr⟩ := h.routed d
      refine ⟨groups, held, ?_, hr.holding, hr.sent⟩
      simpa only [happended d] using hr.appended

lemma sysStep_spec (h : SysInv consumers s) (e : Event) :
    (EventFits consumers s e → ∃ s', sysStep consumers s e = some s' ∧ SysInv consumers s') ∧
    (¬ EventFits consumers s e → sysStep consumers s e = none) := by
  cases e with
  | sendMetric handed pad fresh₁ fresh₂ flush now =>
    cases hpc : s.pc with
    | idle =>
      simp only [EventFits, sysStep, hpc]
      exact h.sendMetric hpc handed pad fresh₁ fresh₂ flush now
    | looking | appending | cleaning =>
      simp only [EventFits, sysStep, hpc]
      exact ⟨fun _ => ⟨s, rfl, h⟩, fun hf => absurd trivial hf⟩
  | flush flush now =>
    refine ⟨fun _ => ?_, fun hf => absurd trivial hf⟩
    cases hpc : s.pc with
    | idle =>
      simp only [sysStep, hpc]
      exact ⟨_, rfl, h.setPc (h.idle (by simp [hpc])) (fun c held => by rw [hpc]; rfl) (by simp)⟩
    | looking | appending | cleaning => exact ⟨s, by simp only [sysStep, hpc], h⟩
  | look chunk =>
    refine ⟨fun _ => ?_, fun hf => absurd trivial hf⟩
    cases hpc : s.pc with
    | looking i t l =>
      simp only [sysStep, hpc]
      exact h.look hpc chunk
    | idle | appending | cleaning => exact ⟨s, by simp only [sysStep, hpc], h⟩
  | append =>
    refine ⟨fun _ => ?_, fun hf => absurd trivial hf⟩
    cases hpc : s.pc with
    | appending i t l => exact h.append hpc
    | idle | looking | cleaning => exact ⟨s, by simp only [sysStep, hpc], h⟩
  | clean now =>
    refine ⟨fun _ => ?_, fun hf => absurd trivial hf⟩
    cases hpc : s.pc with
    | cleaning i t l => exact ⟨_, by simp only [sysStep, hpc], h.clean hpc now⟩
    | idle | looking | appending => exact ⟨s, by simp only [sysStep, hpc], h⟩
  | consumer c act => exact ⟨fun _ => h.consumer c act, fun hf => absurd trivial hf⟩

lemma runFits_iff (events : List Event) (s : System) :
    RunFits consumers s events ↔ AllMeet (sysStep consumers) (EventFits consumers) s events := by
  induction events generalizing s with
  | nil => exact Iff.rfl
  | cons e events ih => exact and_congr_right fun _ => forall₂_congr fun s' _ => ih s'

lemma run_spec (h : SysInv consumers s) (events : List Event) :
    (RunFits consumers s events → ∃ s', events.foldlM (sysStep consumers) s = some s' ∧ SysInv consumers s') ∧
    (¬ RunFits consumers s events → events.foldlM (sysStep consumers) s = none) := by
  rw [runFits_iff]
  exact foldlM_allMeet (SysInv consumers) (fun _ e hs => sysStep_spec hs e) events h

lemma mapM_carries (place : ℕ → ℕ) {chunks : List Payload} {groups : List (List Handed)}
    (h : List.Forall₂ Carries chunks groups) (k : ℕ) :
    ((chunks.zipIdx k).mapM fun (chunk, k) => metricsChunkProcessCb chunk (place k)) =
      some (groups.map fun group => group.map Handed.reading) := by
  induction h generalizing k with
  | nil => rfl
  | cons hchunk _ ih =>
    rw [List.zipIdx_cons, List.mapM_cons, ih (k + 1)]
    simp only [hchunk (place k)]
    rfl

lemma consumerSees_carries (place : ℕ → ℕ) {chunks : List Payload} {groups : List (List Handed)}
    (h : List.Forall₂ Carries chunks groups) :
    consumerSees place chunks = some (groups.flatten.map Handed.reading) := by
  rw [consumerSees, mapM_carries place h, Option.map_some, List.map_flatten]

lemma SysInv.delivered (h : SysInv consumers s) : Delivered consumers s := by
  intro c place
  obtain ⟨groups, held, hr⟩ := h.routed c
  have hseen := List.forall₂_take (s.ipc.consumer c).delivered.length hr.appended
  rw [← List.prefix_iff_eq_take.mp (h.ipc.ordered c)] at hseen
  refine ⟨_, consumerSees_carries place hseen, ?_, fun hd => ?_⟩
  · rw [hr.sent, List.map_append]
    exact ((List.take_prefix _ groups).flatten.map _).trans (List.prefix_append _ _)
  · rw [delivered_of_drained h.ipc hd.queue hd.hand hd.receiver, hr.appended.length_eq, List.take_length]
    have hheld : held = [] := by
      rw [← List.length_eq_zero_iff, ← hr.holding.count, hd.flushed]
    rw [hr.sent, hheld, hd.sender]
    simp [pending]

end

theorem metrics_delivered_iff_fit (consumers : ℕ) (fresh : ℕ → Memory) (now : Int32) (events : List Event) :
    (∃ s, sysRun consumers fresh now events = some s ∧ Delivered consumers s) ↔
      RunFits consumers (sysInit fresh now) events := by
  obtain ⟨hsome, hnone⟩ := run_spec (sysInv_init consumers fresh now) events
  constructor
  · rintro ⟨s, hrun, -⟩
    by_contra hf
    cases hrun.symm.trans (hnone hf)
  · intro hf
    obtain ⟨s, hrun, hinv⟩ := hsome hf
    exact ⟨s, hrun, hinv.delivered⟩

def shortMetric : Handed where
  metric := ⟨1, 7, 0, 1700000000, 0, variantStr, 4096⟩
  text := [104, 105]
  terminated := by decide
  pointer := by decide

example : (sysRun 1 (fun _ _ => 0) 100 ([.sendMetric shortMetric (fun _ => 0) (fun _ => 0) (fun _ => 0) .timed 102,
    .look 64, .append, .clean 102, .look 0] ++ [.receive, .steal, .check, .take, .deliver, .free].map (.consumer 0))).bind
    (fun s => consumerSees (fun _ => 5000) (s.ipc.consumer 0).delivered) = some [shortMetric.reading] := by
  decide +kernel

def longMetric (length : ℕ) : Handed where
  metric := ⟨1, 7, 0, 1700000000, 0, variantStr, 4096⟩
  text := List.replicate length 65
  terminated h := absurd (List.eq_of_mem_replicate h) (by decide)
  pointer := by decide

lemma longMetric_not_fits {length : ℕ} (h : 2 ^ 31 ≤ length + 57) : ¬ MetricFits 0 56 (longMetric length) := by
  have hdyn : isMetricDynamicSize (longMetric length).metric = true := rfl
  have hlen : (longMetric length).text.length = length := List.length_replicate
  rw [MetricFits, if_pos hdyn, hlen]
  rintro ⟨hfits, -⟩
  have := hfits (by omega)
  omega

def onlyMetric (handed : Handed) : List Event :=
  [.sendMetric handed (fun _ => 0) (fun _ => 0) (fun _ => 0) .timed 1700000000]

lemma longMetric_undefined {length : ℕ} (h : 2 ^ 31 ≤ length + 57) :
    sysRun 1 (fun _ _ => 0) 1700000000 (onlyMetric (longMetric length)) = none := by
  rw [sysRun]
  refine (run_spec (sysInv_init 1 (fun _ _ => 0) 1700000000) (onlyMetric (longMetric length))).2 fun hf => ?_
  exact longMetric_not_fits h hf.1

theorem metric_of_two_gibibytes_lost :
    sysRun 1 (fun _ _ => 0) 1700000000 (onlyMetric (longMetric 2147483591)) = none :=
  longMetric_undefined (by norm_num)

end Glaber.Ipc.Metrics
