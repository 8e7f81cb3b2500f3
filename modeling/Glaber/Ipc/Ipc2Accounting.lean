import Glaber.Ipc.Ipc2Delivery

namespace Glaber.Ipc.Ipc2

open Glaber.Lib.Linked Glaber.Lib.Runs

variable (consumers : UInt32)

def getQueueSize (s : IpcConf) : UInt64 :=
  (List.range consumers.toNat).foldl (fun total i => total + (s.consumer i).queue.items.toInt64.toUInt64) 0

def waiting (heap : Addr → Option Chunk) (shared : List Addr) : ℤ :=
  ((contents heap Chunk.items shared).map Int32.toInt).sum

def waitingAll (s : IpcConf) (shared : ℕ → List Addr) : ℤ :=
  ((List.range consumers.toNat).map fun c => waiting s.heap (shared c)).sum

structure Counted (heap : Addr → Option Chunk) (q : ChunkQueue) (shared : List Addr) : Prop where
  chain : Chain heap Chunk.next q.first shared
  count : q.count.toInt = shared.length
  items : q.items.toInt = waiting heap shared

structure Accounting (consumers : UInt32) (s : IpcConf) (shared : ℕ → List Addr) : Prop where
  queues : ∀ c, Counted s.heap (s.consumer c).queue (shared c)
  size : 0 ≤ waitingAll consumers s shared → ((getQueueSize consumers s).toNat : ℤ) = waitingAll consumers s shared

def FitsInt (x : ℤ) : Prop := -2 ^ 31 ≤ x ∧ x < 2 ^ 31

def Keeps (s : IpcConf) : Action → Prop
  | .steal c => (s.consumer c).pc = .locking → (s.consumer c).queue.items = 0
  | .append i => ∀ c a n chunk, s.sender i = .filled c a n → s.heap a = some chunk →
      (s.consumer c).queue.first ≠ none →
      FitsInt ((s.consumer c).queue.count.toInt + 1) ∧
      FitsInt ((s.consumer c).queue.items.toInt + chunk.items.toInt)
  | _ => True

section

lemma toInt_add_iff (x y : Int32) : (x + y).toInt = x.toInt + y.toInt ↔ FitsInt (x.toInt + y.toInt) := by
  constructor
  · intro h
    rw [← h]
    exact ⟨(x + y).le_toInt, (x + y).toInt_lt⟩
  · rintro ⟨hle, hlt⟩
    rw [Int32.toInt_add]
    exact Int.bmod_eq_of_le (by omega) (by omega)

lemma widened (x : Int32) : (x.toInt64.toUInt64.toNat : ℤ) = x.toInt % 2 ^ 64 := by
  have h : (x.toInt64.toBitVec.toNat : ℤ) = x.toInt64.toBitVec.toInt % 2 ^ 64 := by
    have hlt := x.toInt64.toBitVec.isLt
    rw [BitVec.toInt_eq_toNat_cond]
    push_cast
    split_ifs <;> omega
  rw [← Int64.toNat_toBitVec, h]
  congr 1
  exact x.toInt_toInt64

lemma foldl_queues (queue : ℕ → ChunkQueue) (cs : List ℕ) (total : UInt64) :
    ((cs.foldl (fun total i => total + (queue i).items.toInt64.toUInt64) total).toNat : ℤ) =
      (total.toNat + (cs.map fun c => (queue c).items.toInt).sum) % 2 ^ 64 := by
  induction cs generalizing total with
  | nil =>
    have hlt := total.toNat_lt
    simp only [List.foldl_nil, List.map_nil, List.sum_nil]
    omega
  | cons c cs ih =>
    rw [List.foldl_cons, ih, UInt64.toNat_add, List.map_cons, List.sum_cons]
    have hw := widened (queue c).items
    push_cast
    omega

lemma sum_lt (queue : ℕ → ChunkQueue) (cs : List ℕ) :
    (cs.map fun c => (queue c).items.toInt).sum ≤ 2 ^ 31 * cs.length := by
  induction cs with
  | nil => simp
  | cons c cs ih =>
    have hlt := (queue c).items.toInt_lt
    rw [List.map_cons, List.sum_cons, List.length_cons]
    push_cast
    omega

end

lemma waiting_append {heap : Addr → Option Chunk} {shared : List Addr} {a : Addr} {chunk : Chunk}
    (ha : heap a = some chunk) : waiting heap (shared ++ [a]) = waiting heap shared + chunk.items.toInt := by
  rw [waiting, contents_append, contents_cons ha]
  simp [waiting]

lemma Counted.congr {heap heap' : Addr → Option Chunk} {q : ChunkQueue} {shared : List Addr}
    (h : Counted heap q shared) (hh : ∀ a ∈ shared, heap' a = heap a) : Counted heap' q shared := by
  refine ⟨h.chain.congr hh, h.count, ?_⟩
  rw [h.items, waiting, waiting]
  congr 2
  apply contents_congr
  intro a ha
  rw [hh a ha]

lemma accounting_iff (s : IpcConf) (shared : ℕ → List Addr) :
    Accounting consumers s shared ↔ ∀ c, Counted s.heap (s.consumer c).queue (shared c) := by
  refine ⟨Accounting.queues, fun hq => ⟨hq, fun hpos => ?_⟩⟩
  have hsum : waitingAll consumers s shared =
      ((List.range consumers.toNat).map fun c => (s.consumer c).queue.items.toInt).sum := by
    rw [waitingAll]
    congr 1
    apply List.map_congr_left
    intro c _
    exact (hq c).items.symm
  have hlt := sum_lt (fun c => (s.consumer c).queue) (List.range consumers.toNat)
  have hc := consumers.toNat_lt
  rw [List.length_range] at hlt
  rw [getQueueSize, foldl_queues fun c => (s.consumer c).queue]
  simp only [UInt64.toNat_zero, Nat.cast_zero, zero_add]
  rw [← hsum] at hlt ⊢
  omega

def Accounted (s : IpcConf) : Prop := ∃ shared, Accounting consumers s shared

lemma accounted_iff (s : IpcConf) :
    Accounted consumers s ↔ ∀ c, ∃ shared, Counted s.heap (s.consumer c).queue shared := by
  simp only [Accounted, accounting_iff]
  exact Classical.skolem.symm

section

variable {s : IpcConf} {owner : Addr → Option Owner}

lemma Owned.linked (h : Owned owner s) {c : ℕ} {shared : List Addr}
    (hc : Chain s.heap Chunk.next (s.consumer c).queue.first shared) :
    (∀ a ∈ shared, owner a = some (.shared c)) ∧ shared.Nodup ∧ (s.consumer c).queue.last = shared.getLast? := by
  obtain ⟨stolen, shared', hl⟩ := h.consumers c
  cases hc.unique hl.sharedChain
  exact ⟨hl.sharedOwned, hl.sharedNodup, hl.last⟩

structure Intact (owner : Addr → Option Owner) (s s' : IpcConf) : Prop where
  queue : ∀ c, (s'.consumer c).queue = (s.consumer c).queue
  heap : ∀ a c, owner a = some (.shared c) → s'.heap a = s.heap a

lemma Intact.counted {s' : IpcConf} (hs : Intact owner s s') (h : Owned owner s) {c : ℕ} {shared : List Addr}
    (hc : Counted s.heap (s.consumer c).queue shared) : Counted s'.heap (s'.consumer c).queue shared := by
  rw [hs.queue]
  apply hc.congr
  intro a ha
  exact hs.heap a c ((h.linked hc.chain).1 a ha)

lemma intact_refl : Intact owner s s := ⟨fun _ => rfl, fun _ _ _ => rfl⟩

lemma intact_setConsumer {c : ℕ} {e : Consumer} (he : e.queue = (s.consumer c).queue) :
    Intact owner s (s.setConsumer c e) := by
  refine ⟨fun d => ?_, fun _ _ _ => rfl⟩
  by_cases hd : d = c
  · subst hd
    simpa [IpcConf.setConsumer] using he
  · simp [IpcConf.setConsumer, hd]

lemma intact_exec (consumers : ℕ) (h : Owned owner s) (a : Action) (hs : ∀ c, a ≠ .steal c)
    (ha : ∀ i, a ≠ .append i) : Intact owner s (exec consumers s a) := by
  rw [exec]
  cases a with
  | steal c => exact absurd rfl (hs c)
  | append i => exact absurd rfl (ha i)
  | send i c n data b =>
    simp only [step, sendChunk]
    cases s.sender i with
    | filled | halted => exact intact_refl
    | idle =>
      simp only
      split_ifs with hz hc
      · exact intact_refl
      · exact ⟨fun _ => rfl, fun _ _ _ => rfl⟩
      · cases hb : s.heap b with
        | some chunk => exact intact_refl
        | none =>
          refine ⟨fun _ => rfl, fun d k hd => ?_⟩
          have hdb : d ≠ b := by
            rintro rfl
            obtain ⟨chunk, hchunk, -⟩ := h.live d (by simp [hd])
            cases hb.symm.trans hchunk
          exact Function.update_of_ne hdb _ _
  | receive c =>
    simp only [step, receiveCall]
    cases (s.consumer c).pc with
    | locking | checking | taking | delivering | freeing | halted => exact intact_refl
    | idle =>
      simp only
      split_ifs
      · exact intact_setConsumer rfl
      · cases (s.consumer c).rcvQueue with
        | none | some => exact intact_setConsumer rfl
  | check c =>
    simp only [step, checkLocalQueue]
    cases (s.consumer c).pc with
    | idle | locking | taking | delivering | freeing | halted => exact intact_refl
    | checking n =>
      cases (s.consumer c).rcvQueue with
      | none | some => exact intact_setConsumer rfl
  | take c =>
    simp only [step, takeChunk]
    cases (s.consumer c).pc with
    | idle | locking | checking | delivering | freeing | halted => exact intact_refl
    | taking =>
      cases (s.consumer c).rcvQueue with
      | none => exact intact_refl
      | some b =>
        simp only
        cases s.heap b with
        | none => exact intact_refl
        | some chunk => exact intact_setConsumer rfl
  | deliver c =>
    simp only [step, deliverChunk]
    cases (s.consumer c).pc with
    | idle | locking | checking | taking | freeing | halted => exact intact_refl
    | delivering b =>
      simp only
      cases s.heap b with
      | none => exact intact_refl
      | some chunk => exact intact_setConsumer rfl
  | free c =>
    obtain ⟨stolen, shared, hl⟩ := h.consumers c
    have hpc := hl.pc
    simp only [step, freeChunk]
    cases he : (s.consumer c).pc with
    | idle | locking | checking | taking | delivering | halted => exact intact_refl
    | freeing b =>
      simp only [PcHolds, he] at hpc
      simp only
      cases s.heap b with
      | none => exact intact_refl
      | some chunk =>
        have hq : Intact owner s (s.setConsumer c { s.consumer c with pc := .idle }) := intact_setConsumer rfl
        refine ⟨hq.queue, fun d k hd => ?_⟩
        have hdb : d ≠ b := by
          rintro rfl
          cases hd.symm.trans hpc
        exact Function.update_of_ne hdb _ _

end

lemma accounted_step {consumers : UInt32} {s s' : IpcConf} (h : Accounted consumers s) (c : ℕ)
    (hother : ∀ d ≠ c, ∀ shared, Counted s.heap (s.consumer d).queue shared →
      Counted s'.heap (s'.consumer d).queue shared) :
    Accounted consumers s' ↔ ∃ shared, Counted s'.heap (s'.consumer c).queue shared := by
  rw [accounted_iff] at h ⊢
  refine ⟨fun h' => h' c, fun h' d => ?_⟩
  by_cases hd : d = c
  · exact hd ▸ h'
  · obtain ⟨shared, hq⟩ := h d
    exact ⟨shared, hother d hd shared hq⟩

lemma steal_iff {consumers : UInt32} {s : IpcConf} (h : Accounted consumers s) (c : ℕ) :
    Accounted consumers (exec consumers.toNat s (.steal c)) ↔ Keeps s (.steal c) := by
  simp only [exec, step, stealQueue, Keeps]
  cases (s.consumer c).pc with
  | idle | checking | taking | delivering | freeing | halted => simpa using h
  | locking =>
    rw [accounted_step h c]
    · simp only [IpcConf.setConsumer, Function.update_self, forall_true_left]
      constructor
      · rintro ⟨shared, hq⟩
        have hnil := hq.chain.nil_of_none
        subst hnil
        exact Int32.toInt_inj.mp hq.items
      · intro hz
        exact ⟨[], rfl, rfl, by rw [hz]; rfl⟩
    · intro d hd shared hq
      simpa [IpcConf.setConsumer, hd] using hq

lemma counted_append_iff {heap heap' : Addr → Option Chunk} {q q' : ChunkQueue} {shared : List Addr} {a : Addr}
    {chunk : Chunk} (hq : Counted heap q shared) (ha : heap a = some chunk)
    (hchain : Chain heap' Chunk.next q'.first (shared ++ [a]))
    (hitems : ∀ b, (heap' b).map Chunk.items = (heap b).map Chunk.items)
    (hcount : q'.count = q.count + 1) (hsum : q'.items = q.items + chunk.items) :
    (∃ shared', Counted heap' q' shared') ↔
      FitsInt (q.count.toInt + 1) ∧ FitsInt (q.items.toInt + chunk.items.toInt) := by
  have hone : (1 : Int32).toInt = 1 := rfl
  have hwait : waiting heap' (shared ++ [a]) = q.items.toInt + chunk.items.toInt := by
    rw [hq.items, ← waiting_append ha, waiting, waiting, contents_congr fun b _ => hitems b]
  rw [← hone, ← toInt_add_iff, ← toInt_add_iff, ← hcount, ← hsum, ← hwait, hone]
  constructor
  · rintro ⟨shared', h⟩
    cases hchain.unique h.chain
    refine ⟨?_, h.items⟩
    rw [h.count, hq.count, List.length_append]
    simp
  · rintro ⟨hc, hi⟩
    refine ⟨_, hchain, ?_, hi⟩
    rw [hc, hq.count, List.length_append]
    simp

lemma keeps_append {s : IpcConf} {i c : ℕ} {a : Addr} {n : Int32} {chunk : Chunk}
    (hi : s.sender i = .filled c a n) (ha : s.heap a = some chunk) :
    Keeps s (.append i) ↔ ((s.consumer c).queue.first ≠ none →
      FitsInt ((s.consumer c).queue.count.toInt + 1) ∧
      FitsInt ((s.consumer c).queue.items.toInt + chunk.items.toInt)) := by
  refine ⟨fun h => h c a n chunk hi ha, fun h c' a' n' chunk' hi' ha' => ?_⟩
  cases hi.symm.trans hi'
  cases ha.symm.trans ha'
  exact h

lemma append_iff {consumers : UInt32} {s : IpcConf} {owner : Addr → Option Owner} (h : Owned owner s)
    (hacc : Accounted consumers s) (i : ℕ) :
    Accounted consumers (exec consumers.toNat s (.append i)) ↔ Keeps s (.append i) := by
  cases hpc : s.sender i with
  | idle | halted =>
    refine iff_of_true ?_ ?_
    · simpa [exec, step, addChunkToQueue, hpc] using hacc
    · intro c a n chunk hi
      cases hpc.symm.trans hi
  | filled c a itemsCount =>
    obtain ⟨hao, chunk, ha, hnext⟩ := h.senders i c a itemsCount hpc
    obtain ⟨shared, hq⟩ := (accounted_iff consumers s).mp hacc c
    obtain ⟨hown, hnd, hlast⟩ := h.linked hq.chain
    rw [keeps_append hpc ha]
    simp only [exec, step, addChunkToQueue, hpc, ha]
    cases hfirst : (s.consumer c).queue.first with
    | none =>
      refine iff_of_true ?_ (by simp)
      rw [accounted_step hacc c]
      · refine ⟨[a], ⟨?_, ?_, ?_⟩⟩
        · simp [IpcConf.setConsumer, IpcConf.setSender, ChunkQueue.account, Chain, ha, hnext]
        · simp [IpcConf.setConsumer, ChunkQueue.account]
        · simp [IpcConf.setConsumer, IpcConf.setSender, ChunkQueue.account, waiting, contents, ha]
      · intro d hd shared' hq'
        simpa [IpcConf.setConsumer, IpcConf.setSender, hd] using hq'
    | some f =>
      obtain ⟨first, rest, rfl, -, -⟩ := (hfirst ▸ hq.chain).cons_of_some
      obtain ⟨l, hl⟩ : ∃ l, (f :: rest).getLast? = some l := ⟨_, List.getLast?_eq_some_getLast (by simp)⟩
      have hmem := List.mem_of_getLast? hl
      obtain ⟨lastChunk, hlc⟩ := hq.chain.live l hmem
      have hal : a ∉ f :: rest := fun hm => by cases (hown a hm).symm.trans hao
      have hlink : ({ lastChunk with next := some a } : Chunk).next = some a := rfl
      have hsnoc := hq.chain.snoc hnd hl hal ha hnext hlink
      simp only [hlast.trans hl, IpcConf.setSender, hlc, ne_eq, reduceCtorEq, not_false_eq_true, forall_const]
      rw [accounted_step hacc c]
      · simp only [IpcConf.setConsumer, IpcConf.setChunk, Function.update_self]
        refine counted_append_iff hq ha ?_ (fun b => ?_) rfl rfl
        · rw [← hfirst]
          exact hsnoc
        · by_cases hb : b = l
          · simp [hb, hlc]
          · simp [hb]
      · intro d hd shared' hq'
        simp only [IpcConf.setConsumer, IpcConf.setChunk, Function.update_of_ne hd]
        apply hq'.congr
        intro b hb
        have hbl : b ≠ l := by
          rintro rfl
          cases ((h.linked hq'.chain).1 b hb).symm.trans (hown b hmem)
          exact hd rfl
        exact Function.update_of_ne hbl _ _

lemma step_iff {consumers : UInt32} {s : IpcConf} (h : Invariant s) (hacc : Accounted consumers s) (a : Action) :
    Accounted consumers (exec consumers.toNat s a) ↔ Keeps s a := by
  obtain ⟨owner, h⟩ := h
  have other : (∀ c, a ≠ .steal c) → (∀ i, a ≠ .append i) → Accounted consumers (exec consumers.toNat s a) := by
    intro hs ha
    rw [accounted_iff] at hacc ⊢
    intro c
    obtain ⟨shared, hq⟩ := hacc c
    exact ⟨shared, (intact_exec consumers.toNat h a hs ha).counted h hq⟩
  cases a with
  | steal c => exact steal_iff hacc c
  | append i => exact append_iff h hacc i
  | send | receive | check | take | deliver | free => exact iff_of_true (other (by simp) (by simp)) trivial

lemma accounted_init : Accounted consumers ipc2Init :=
  (accounted_iff _ _).mpr fun _ => ⟨[], rfl, rfl, rfl⟩

theorem queues_accounted_iff (schedule : List Action) :
    (∀ t ∈ transitions (exec consumers.toNat) ipc2Init schedule, Accounted consumers t.target) ↔
      ∀ t ∈ transitions (exec consumers.toNat) ipc2Init schedule, Keeps t.source t.event := by
  refine transitions_iff (Q := fun t => Accounted consumers t.target) (C := fun t => Keeps t.source t.event)
    (fun _ s => Invariant s ∧ Accounted consumers s) ⟨invariant_init, accounted_init consumers⟩ ?_
  rintro past s a ⟨hi, hacc⟩
  refine ⟨step_iff hi hacc a, fun hq => ⟨?_, hq⟩⟩
  have hs := step_holds consumers.toNat hi a
  rw [exec]
  cases ho : step consumers.toNat s a with
  | disabled | fault => exact hi
  | next ret s' =>
    rw [ho] at hs
    exact hs.1

def drainedOnce : List Action :=
  [.send 4 0 1 [10] 100, .append 4, .receive 0, .steal 0, .check 0, .take 0, .deliver 0, .free 0]

theorem drained_queue_counts_items :
    ¬ ∀ t ∈ transitions (exec 1) ipc2Init drainedOnce, Accounted 1 t.target := by
  intro h
  have hlen : 7 < (transitions (exec 1) ipc2Init drainedOnce).length := by decide
  obtain ⟨shared, hacc⟩ := h _ (List.getElem_mem hlen)
  have hq := hacc.queues 0
  have hnil : shared 0 = [] := hq.chain.nil_of_none
  have hitems := hq.items
  rw [hnil] at hitems
  have hstale : (1 : ℤ) = 0 := hitems
  exact absurd hstale (by decide)

end Glaber.Ipc.Ipc2
