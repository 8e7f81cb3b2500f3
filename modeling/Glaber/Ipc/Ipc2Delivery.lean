import Glaber.Ipc.Ipc2

namespace Glaber.Ipc.Ipc2

open Glaber.Lib.Linked Glaber.Lib.Runs

inductive Owner where
  | sender (i : ℕ)
  | shared (c : ℕ)
  | stolen (c : ℕ)
  | hand (c : ℕ)
deriving DecidableEq

def Owner.consumer : Owner → Option ℕ
  | .sender _ => none
  | .shared c | .stolen c | .hand c => some c

def inHand : ReceiverPc → List Addr
  | .delivering a => [a]
  | _ => []

def holding : ReceiverPc → Option Addr
  | .delivering a | .freeing a => some a
  | _ => none

section

variable (heap : Addr → Option Chunk) (owner : Addr → Option Owner)

def PcHolds (c : ℕ) (e : Consumer) (stolen : List Addr) : Prop :=
  match e.pc with
  | .idle | .halted => True
  | .locking => stolen = []
  | .checking n => n ≤ e.appended.length ∧ e.delivered ++ contents heap Chunk.data stolen = e.appended.take n
  | .taking => stolen ≠ []
  | .delivering a | .freeing a => owner a = some (.hand c)

structure Lists (c : ℕ) (e : Consumer) (stolen shared : List Addr) : Prop where
  stolenChain : Chain heap Chunk.next e.rcvQueue stolen
  sharedChain : Chain heap Chunk.next e.queue.first shared
  last : e.queue.last = shared.getLast?
  stolenOwned : ∀ a ∈ stolen, owner a = some (.stolen c)
  sharedOwned : ∀ a ∈ shared, owner a = some (.shared c)
  stolenNodup : stolen.Nodup
  sharedNodup : shared.Nodup
  log : e.delivered ++ contents heap Chunk.data (inHand e.pc) ++ contents heap Chunk.data stolen ++
    contents heap Chunk.data shared = e.appended
  pc : PcHolds heap owner c e stolen

structure Owned (s : IpcConf) : Prop where
  live : ∀ a, owner a ≠ none → ∃ chunk, s.heap a = some chunk ∧ chunk.items ≠ 0
  senders : ∀ i c a n, s.sender i = .filled c a n →
    owner a = some (.sender i) ∧ ∃ chunk, s.heap a = some chunk ∧ chunk.next = none
  consumers : ∀ c, ∃ stolen shared, Lists s.heap owner c (s.consumer c) stolen shared

end

def Invariant (s : IpcConf) : Prop := ∃ owner, Owned owner s

lemma invariant_init : Invariant ipc2Init := by
  refine ⟨fun _ => none, ⟨fun a h => absurd rfl h, fun i c a n h => ?_, fun c => ⟨[], [], ?_⟩⟩⟩
  · cases h
  · constructor <;> simp [ipc2Init, Chain, inHand, PcHolds]

section

variable {heap heap' : Addr → Option Chunk} {owner owner' : Addr → Option Owner}

lemma Lists.frame {c : ℕ} {e : Consumer} {stolen shared : List Addr} (h : Lists heap owner c e stolen shared)
    (hf : ∀ a o, owner a = some o → o.consumer = some c → (o = .hand c → holding e.pc = some a) →
      heap' a = heap a ∧ owner' a = owner a) :
    Lists heap' owner' c e stolen shared := by
  have hstolen : ∀ a ∈ stolen, heap' a = heap a ∧ owner' a = owner a :=
    fun a ha => hf a _ (h.stolenOwned a ha) rfl (by simp)
  have hshared : ∀ a ∈ shared, heap' a = heap a ∧ owner' a = owner a :=
    fun a ha => hf a _ (h.sharedOwned a ha) rfl (by simp)
  have cstolen : contents heap' Chunk.data stolen = contents heap Chunk.data stolen :=
    contents_congr fun a ha => by rw [(hstolen a ha).1]
  have cshared : contents heap' Chunk.data shared = contents heap Chunk.data shared :=
    contents_congr fun a ha => by rw [(hshared a ha).1]
  have hpc := h.pc
  refine ⟨h.stolenChain.congr fun a ha => (hstolen a ha).1, h.sharedChain.congr fun a ha => (hshared a ha).1,
    h.last, fun a ha => ?_, fun a ha => ?_, h.stolenNodup, h.sharedNodup, ?_, ?_⟩
  · rw [(hstolen a ha).2, h.stolenOwned a ha]
  · rw [(hshared a ha).2, h.sharedOwned a ha]
  · have chand : contents heap' Chunk.data (inHand e.pc) = contents heap Chunk.data (inHand e.pc) := by
      apply contents_congr
      intro a ha
      cases he : e.pc with
      | delivering b =>
        simp only [PcHolds, he] at hpc
        simp only [he, inHand, List.mem_singleton] at ha
        rw [ha, (hf b _ hpc rfl fun _ => by rw [he]; rfl).1]
      | idle | locking | checking | taking | freeing | halted => simp [he, inHand] at ha
    rw [chand, cstolen, cshared]
    exact h.log
  · cases he : e.pc with
    | idle | halted => simp only [PcHolds, he]
    | locking | taking => simpa only [PcHolds, he] using hpc
    | checking n =>
      simp only [PcHolds, he] at hpc ⊢
      rw [cstolen]
      exact hpc
    | delivering b | freeing b =>
      simp only [PcHolds, he] at hpc ⊢
      rw [(hf b _ hpc rfl fun _ => by rw [he]; rfl).2, hpc]

end

def Outcome.Holds (o : Outcome) (post : Option Int32 → IpcConf → Prop) : Prop :=
  match o with
  | .disabled => True
  | .fault => False
  | .next ret s' => post ret s'

section

variable {s : IpcConf} {owner : Addr → Option Owner}

lemma Owned.onConsumer (h : Owned owner s) {c : ℕ} {e : Consumer} {heap' : Addr → Option Chunk}
    (owner' : Addr → Option Owner) (stolen shared : List Addr)
    (hf : ∀ a o, owner a = some o → o.consumer ≠ some c → heap' a = s.heap a ∧ owner' a = owner a)
    (hlive : ∀ a, owner' a ≠ none → ∃ chunk, heap' a = some chunk ∧ chunk.items ≠ 0)
    (hl : Lists heap' owner' c e stolen shared) :
    Invariant ⟨heap', Function.update s.consumer c e, s.sender⟩ := by
  refine ⟨owner', hlive, fun i d a n hi => ?_, fun d => ?_⟩
  · obtain ⟨ho, chunk, hc, hn⟩ := h.senders i d a n hi
    obtain ⟨hh, ho'⟩ := hf a _ ho (by simp [Owner.consumer])
    exact ⟨ho'.trans ho, chunk, hh.trans hc, hn⟩
  · by_cases hd : d = c
    · subst hd
      exact ⟨stolen, shared, by simpa using hl⟩
    · obtain ⟨stolen', shared', hl'⟩ := h.consumers d
      refine ⟨stolen', shared', ?_⟩
      simp only [Function.update_of_ne hd]
      apply hl'.frame
      intro a o ho hc _
      apply hf a o ho
      rw [hc]
      simpa using hd

lemma Owned.setPc (h : Owned owner s) {c : ℕ} {e : Consumer} {stolen shared : List Addr}
    (hl : Lists s.heap owner c e stolen shared) : Invariant (s.setConsumer c e) :=
  h.onConsumer owner stolen shared (fun _ _ _ _ => ⟨rfl, rfl⟩) h.live hl

lemma Lists.withPc {heap : Addr → Option Chunk} {c : ℕ} {e : Consumer} {stolen shared : List Addr}
    (h : Lists heap owner c e stolen shared) (pc : ReceiverPc) (hh : inHand pc = inHand e.pc)
    (hpc : PcHolds heap owner c { e with pc := pc } stolen) :
    Lists heap owner c { e with pc := pc } stolen shared :=
  ⟨h.stolenChain, h.sharedChain, h.last, h.stolenOwned, h.sharedOwned, h.stolenNodup, h.sharedNodup,
    by simpa only [hh] using h.log, hpc⟩

lemma receive_holds (consumers : ℕ) (h : Owned owner s) (c : ℕ) :
    (receiveCall consumers s c).Holds fun ret s' => ret ≠ some 0 ∧ Invariant s' := by
  obtain ⟨stolen, shared, hl⟩ := h.consumers c
  rw [receiveCall]
  generalize s.consumer c = e at hl ⊢
  obtain ⟨queue, rcvQueue, pc, appended, delivered⟩ := e
  cases pc with
  | idle =>
    simp only
    split_ifs
    · exact ⟨by simp, h.setPc (hl.withPc .halted rfl trivial)⟩
    · cases rcvQueue with
      | some a =>
        refine ⟨by simp, h.setPc (hl.withPc .taking rfl ?_)⟩
        obtain ⟨n, rest, hr, -⟩ := hl.stolenChain.cons_of_some
        simp [PcHolds, hr]
      | none => exact ⟨by simp, h.setPc (hl.withPc .locking rfl hl.stolenChain.nil_of_none)⟩
  | locking | checking | taking | delivering | freeing | halted => trivial

lemma check_holds (h : Owned owner s) (c : ℕ) :
    (checkLocalQueue s c).Holds fun ret s' => Invariant s' ∧ (ret = some 0 →
      ∃ n, (s.consumer c).pc = .checking n ∧ n ≤ (s'.consumer c).appended.length ∧
        (s'.consumer c).delivered = (s'.consumer c).appended.take n) := by
  obtain ⟨stolen, shared, hl⟩ := h.consumers c
  rw [checkLocalQueue]
  generalize s.consumer c = e at hl ⊢
  obtain ⟨queue, rcvQueue, pc, appended, delivered⟩ := e
  cases pc with
  | checking n =>
    have hmark := hl.pc
    simp only [PcHolds] at hmark
    cases rcvQueue with
    | none =>
      have hnil := hl.stolenChain.nil_of_none
      subst hnil
      refine ⟨h.setPc (hl.withPc .idle rfl trivial), fun _ => ⟨n, rfl, ?_⟩⟩
      simpa [IpcConf.setConsumer] using hmark
    | some a =>
      refine ⟨h.setPc (hl.withPc .taking rfl ?_), fun h0 => by cases h0⟩
      obtain ⟨m, rest, hr, -⟩ := hl.stolenChain.cons_of_some
      simp [PcHolds, hr]
  | idle | locking | taking | delivering | freeing | halted => trivial

lemma steal_holds (h : Owned owner s) (c : ℕ) :
    (stealQueue s c).Holds fun ret s' => ret ≠ some 0 ∧ Invariant s' := by
  obtain ⟨stolen, shared, hl⟩ := h.consumers c
  rw [stealQueue]
  generalize s.consumer c = e at hl ⊢
  obtain ⟨queue, rcvQueue, pc, appended, delivered⟩ := e
  cases pc with
  | locking =>
    have hnil : stolen = [] := hl.pc
    subst hnil
    have hlog : delivered ++ contents s.heap Chunk.data shared = appended := by
      simpa [inHand] using hl.log
    let owner' : Addr → Option Owner := fun a => if owner a = some (.shared c) then some (.stolen c) else owner a
    refine ⟨by simp, h.onConsumer owner' shared [] ?_ ?_ ?_⟩
    · intro a o ho hc
      refine ⟨rfl, if_neg fun hs => hc ?_⟩
      cases ho.symm.trans hs
      rfl
    · intro a ha
      apply h.live a
      intro hn
      simp [owner', hn] at ha
    · refine ⟨hl.sharedChain, rfl, rfl, fun a ha => if_pos (hl.sharedOwned a ha), by simp, hl.sharedNodup, by simp,
        ?_, ?_⟩
      · simpa [inHand] using hlog
      · simpa [PcHolds] using hlog
  | idle | checking | taking | delivering | freeing | halted => trivial

lemma take_holds (h : Owned owner s) (c : ℕ) :
    (takeChunk s c).Holds fun ret s' => ret ≠ some 0 ∧ Invariant s' := by
  obtain ⟨stolen, shared, hl⟩ := h.consumers c
  rw [takeChunk]
  generalize s.consumer c = e at hl ⊢
  obtain ⟨queue, rcvQueue, pc, appended, delivered⟩ := e
  cases pc with
  | taking =>
    have hne : stolen ≠ [] := hl.pc
    cases rcvQueue with
    | none => exact absurd hl.stolenChain.nil_of_none hne
    | some a =>
      obtain ⟨chunk, rest, rfl, ha, hr⟩ := hl.stolenChain.cons_of_some
      obtain ⟨har, hn⟩ := List.nodup_cons.mp hl.stolenNodup
      have hao := hl.stolenOwned a List.mem_cons_self
      simp only [ha]
      refine ⟨by simp, h.onConsumer (Function.update owner a (some (.hand c))) rest shared ?_ ?_ ?_⟩
      · intro b o ho hc
        refine ⟨rfl, Function.update_of_ne (fun hb => hc ?_) _ _⟩
        cases ho.symm.trans (hb ▸ hao)
        rfl
      · intro b hb
        by_cases hba : b = a
        · exact h.live b (by simp [hba, hao])
        · exact h.live b (by simpa [hba] using hb)
      · refine ⟨hr, hl.sharedChain, hl.last, fun b hb => ?_, fun b hb => ?_, hn, hl.sharedNodup, ?_, ?_⟩
        · have hba : b ≠ a := fun e => har (e ▸ hb)
          rw [Function.update_of_ne hba]
          exact hl.stolenOwned b (List.mem_cons_of_mem a hb)
        · have hbo := hl.sharedOwned b hb
          have hba : b ≠ a := fun e => by cases hbo.symm.trans (e ▸ hao)
          rw [Function.update_of_ne hba, hbo]
        · have hlog := hl.log
          rw [contents_cons ha] at hlog
          simpa [inHand, contents_cons ha] using hlog
        · simp [PcHolds]
  | idle | locking | checking | delivering | freeing | halted => trivial

lemma deliver_holds (h : Owned owner s) (c : ℕ) :
    (deliverChunk s c).Holds fun ret s' => ret ≠ some 0 ∧ Invariant s' := by
  obtain ⟨stolen, shared, hl⟩ := h.consumers c
  rw [deliverChunk]
  generalize s.consumer c = e at hl ⊢
  obtain ⟨queue, rcvQueue, pc, appended, delivered⟩ := e
  cases pc with
  | delivering a =>
    have hao : owner a = some (.hand c) := hl.pc
    obtain ⟨chunk, ha, -⟩ := h.live a (by simp [hao])
    have hlog := hl.log
    simp only [inHand, contents_cons ha, contents_nil] at hlog
    have hl' : Lists s.heap owner c ⟨queue, rcvQueue, .freeing a, appended, delivered ++ [chunk.data]⟩ stolen shared :=
      ⟨hl.stolenChain, hl.sharedChain, hl.last, hl.stolenOwned, hl.sharedOwned, hl.stolenNodup,
        hl.sharedNodup, by simpa [inHand] using hlog, hao⟩
    simp only [ha]
    exact ⟨by simp, h.setPc hl'⟩
  | idle | locking | checking | taking | freeing | halted => trivial

lemma free_holds (h : Owned owner s) (c : ℕ) :
    (freeChunk s c).Holds fun ret s' => ret ≠ some 0 ∧ Invariant s' := by
  obtain ⟨stolen, shared, hl⟩ := h.consumers c
  rw [freeChunk]
  generalize s.consumer c = e at hl ⊢
  obtain ⟨queue, rcvQueue, pc, appended, delivered⟩ := e
  cases pc with
  | freeing a =>
    have hao : owner a = some (.hand c) := hl.pc
    obtain ⟨chunk, ha, hitems⟩ := h.live a (by simp [hao])
    simp only [ha]
    have hother : ∀ b o, owner b = some o → o ≠ .hand c →
        Function.update s.heap a none b = s.heap b ∧ Function.update owner a none b = owner b := by
      intro b o ho hc
      have hba : b ≠ a := fun e => hc (by cases ho.symm.trans (e ▸ hao); rfl)
      exact ⟨Function.update_of_ne hba _ _, Function.update_of_ne hba _ _⟩
    refine ⟨by simpa using hitems, h.onConsumer (Function.update owner a none) stolen shared ?_ ?_ ?_⟩
    · intro b o ho hc
      exact hother b o ho fun e => hc (by rw [e]; rfl)
    · intro b hb
      have hba : b ≠ a := fun e => hb (by simp [e])
      rw [Function.update_of_ne hba] at hb
      simpa [IpcConf.setChunk, hba] using h.live b hb
    · apply (hl.withPc .idle rfl trivial).frame
      intro b o ho _ hh
      exact hother b o ho fun e => by cases hh e
  | idle | locking | checking | taking | delivering | halted => trivial

end

section

variable {s : IpcConf} {owner : Addr → Option Owner}

lemma send_holds (consumers : ℕ) (h : Owned owner s) (i c : ℕ) (itemsCount : Int32) (data : Payload) (a : Addr) :
    (sendChunk consumers s i c itemsCount data a).Holds fun ret s' => ret ≠ some 0 ∧ Invariant s' := by
  rw [sendChunk]
  cases hpc : s.sender i with
  | idle =>
    simp only
    split_ifs with hz hc
    · exact ⟨by simp, owner, h⟩
    · refine ⟨by simp, owner, h.live, fun j d b n hj => ?_, h.consumers⟩
      have hji : j ≠ i := fun e => by simp [IpcConf.setSender, e] at hj
      exact h.senders j d b n (by simpa [IpcConf.setSender, hji] using hj)
    · cases ha : s.heap a with
      | some chunk => trivial
      | none =>
        have hfree : owner a = none := by
          by_contra ho
          obtain ⟨chunk, hchunk, -⟩ := h.live a ho
          cases ha.symm.trans hchunk
        have hold : ∀ b o, owner b = some o → b ≠ a := fun b o ho e => by cases ho.symm.trans (e ▸ hfree)
        refine ⟨by simp, Function.update owner a (some (.sender i)), fun b hb => ?_, fun j d b n hj => ?_, fun d => ?_⟩
        · by_cases hba : b = a
          · subst hba
            exact ⟨_, Function.update_self .., fun e => hz e.symm⟩
          · rw [Function.update_of_ne hba] at hb
            simpa [IpcConf.setSender, IpcConf.setChunk, hba] using h.live b hb
        · by_cases hji : j = i
          · subst hji
            simp only [IpcConf.setSender, Function.update_self, SenderPc.filled.injEq] at hj
            obtain ⟨-, rfl, -⟩ := hj
            exact ⟨Function.update_self .., _, Function.update_self .., rfl⟩
          · simp only [IpcConf.setSender, IpcConf.setChunk, Function.update_of_ne hji] at hj
            obtain ⟨ho, chunk, hchunk, hn⟩ := h.senders j d b n hj
            have hba := hold b _ ho
            refine ⟨(Function.update_of_ne hba _ _).trans ho, chunk, ?_, hn⟩
            exact (Function.update_of_ne hba _ _).trans hchunk
        · obtain ⟨stolen, shared, hl⟩ := h.consumers d
          refine ⟨stolen, shared, hl.frame fun b o ho _ _ => ?_⟩
          have hba := hold b o ho
          exact ⟨Function.update_of_ne hba _ _, Function.update_of_ne hba _ _⟩
  | filled | halted => trivial

lemma Owned.appendChunk (h : Owned owner s) {i c : ℕ} {a : Addr} {n : Int32} {chunk : Chunk} {e : Consumer}
    {stolen shared : List Addr} {heap' : Addr → Option Chunk} {queue' : ChunkQueue}
    (hi : s.sender i = .filled c a n) (ha : s.heap a = some chunk) (hl : Lists s.heap owner c e stolen shared)
    (hdata : ∀ b, (heap' b).map Chunk.data = (s.heap b).map Chunk.data)
    (hitems : ∀ b, (heap' b).map Chunk.items = (s.heap b).map Chunk.items)
    (hf : ∀ b, owner b ≠ some (.shared c) → heap' b = s.heap b)
    (hchain : Chain heap' Chunk.next queue'.first (shared ++ [a])) (hlast : queue'.last = some a) :
    Invariant ⟨heap', Function.update s.consumer c { e with
      queue := queue'
      appended := e.appended ++ [chunk.data] }, Function.update s.sender i .idle⟩ := by
  have hao := (h.senders i c a n hi).1
  have hother : ∀ b o, owner b = some o → o ≠ .sender i →
      Function.update owner a (some (.shared c)) b = owner b := by
    intro b o ho hne
    exact Function.update_of_ne (fun e => hne (by cases ho.symm.trans (e ▸ hao); rfl)) _ _
  refine ⟨Function.update owner a (some (.shared c)), fun b hb => ?_, fun j d b m hj => ?_, fun d => ?_⟩
  · have hob : owner b ≠ none := by
      by_cases hba : b = a
      · simp [hba, hao]
      · simpa [hba] using hb
    obtain ⟨old, hold, hz⟩ := h.live b hob
    have hmap := hitems b
    rw [hold, Option.map_some] at hmap
    obtain ⟨new, hnew, he⟩ := Option.map_eq_some_iff.mp hmap
    exact ⟨new, hnew, he ▸ hz⟩
  · have hji : j ≠ i := fun e => by simp [e] at hj
    simp only [Function.update_of_ne hji] at hj
    obtain ⟨ho, old, hold, hn⟩ := h.senders j d b m hj
    refine ⟨(hother b _ ho fun e => hji (Owner.sender.inj e)).trans ho, old, ?_, hn⟩
    exact (hf b (by simp [ho])).trans hold
  · by_cases hd : d = c
    · subst hd
      refine ⟨stolen, shared ++ [a], ?_⟩
      have cstolen : contents heap' Chunk.data stolen = contents s.heap Chunk.data stolen :=
        contents_congr fun b _ => hdata b
      simp only [Function.update_self]
      refine ⟨hl.stolenChain.congr fun b hb => hf b (by simp [hl.stolenOwned b hb]), hchain, by simpa using hlast,
        fun b hb => ?_, fun b hb => ?_, hl.stolenNodup, ?_, ?_, ?_⟩
      · exact (hother b _ (hl.stolenOwned b hb) (by simp)).trans (hl.stolenOwned b hb)
      · rcases List.mem_append.mp hb with hb | hb
        · exact (hother b _ (hl.sharedOwned b hb) (by simp)).trans (hl.sharedOwned b hb)
        · rw [List.mem_singleton.mp hb, Function.update_self]
      · refine List.nodup_append.mpr ⟨hl.sharedNodup, List.nodup_singleton a, fun b hb b' hb' e => ?_⟩
        rw [List.mem_singleton.mp hb'] at e
        cases (hl.sharedOwned b hb).symm.trans (e ▸ hao)
      · have chand : contents heap' Chunk.data (inHand e.pc) = contents s.heap Chunk.data (inHand e.pc) :=
          contents_congr fun b _ => hdata b
        have cshared : contents heap' Chunk.data (shared ++ [a]) =
            contents s.heap Chunk.data shared ++ [chunk.data] := by
          rw [contents_congr fun b _ => hdata b, contents_append, contents_cons ha, contents_nil]
        simp only [chand, cstolen, cshared]
        rw [← List.append_assoc, hl.log]
      · have hp := hl.pc
        cases hpc : e.pc with
        | idle | halted => simp only [PcHolds]
        | locking | taking => simpa only [PcHolds, hpc] using hp
        | checking k =>
          simp only [PcHolds, hpc, List.length_append] at hp ⊢
          refine ⟨by omega, ?_⟩
          rw [cstolen, hp.2, List.take_append_of_le_length hp.1]
        | delivering b | freeing b =>
          simp only [PcHolds, hpc] at hp ⊢
          exact (hother b _ hp (by simp)).trans hp
    · obtain ⟨stolen', shared', hl'⟩ := h.consumers d
      refine ⟨stolen', shared', ?_⟩
      simp only [Function.update_of_ne hd]
      apply hl'.frame
      intro b o ho hc _
      refine ⟨hf b fun e => hd ?_, hother b o ho fun e => by simp [e, Owner.consumer] at hc⟩
      cases ho.symm.trans e
      exact (Option.some.inj hc).symm

lemma append_holds (h : Owned owner s) (i : ℕ) :
    (addChunkToQueue s i).Holds fun ret s' => ret ≠ some 0 ∧ Invariant s' := by
  rw [addChunkToQueue]
  cases hpc : s.sender i with
  | filled c a itemsCount =>
    obtain ⟨hao, chunk, ha, hnext⟩ := h.senders i c a itemsCount hpc
    obtain ⟨stolen, shared, hl⟩ := h.consumers c
    simp only [ha]
    cases hfirst : (s.consumer c).queue.first with
    | none =>
      have hnil := (hfirst ▸ hl.sharedChain).nil_of_none
      subst hnil
      refine ⟨by simp, h.appendChunk hpc ha hl (fun _ => rfl) (fun _ => rfl) (fun _ _ => rfl) ?_ rfl⟩
      exact ⟨rfl, chunk, ha, hnext⟩
    | some f =>
      obtain ⟨first, rest, rfl, -, -⟩ := (hfirst ▸ hl.sharedChain).cons_of_some
      obtain ⟨l, hlast⟩ : ∃ l, (f :: rest).getLast? = some l := ⟨_, List.getLast?_eq_some_getLast (by simp)⟩
      have hmem := List.mem_of_getLast? hlast
      obtain ⟨lastChunk, hlc⟩ := hl.sharedChain.live l hmem
      have hlo := hl.sharedOwned l hmem
      have hal : a ∉ f :: rest := fun hm => by cases (hl.sharedOwned a hm).symm.trans hao
      simp only [hl.last.trans hlast, IpcConf.setSender, hlc]
      refine ⟨by simp, h.appendChunk hpc ha hl (fun b => ?_) (fun b => ?_) (fun b hb => ?_) ?_ rfl⟩
      · by_cases hb : b = l
        · simp [IpcConf.setChunk, hb, hlc]
        · simp [IpcConf.setChunk, hb]
      · by_cases hb : b = l
        · simp [IpcConf.setChunk, hb, hlc]
        · simp [IpcConf.setChunk, hb]
      · have hbl : b ≠ l := fun e => hb (e ▸ hlo)
        exact Function.update_of_ne hbl _ _
      · have hlink : ({ lastChunk with next := some a } : Chunk).next = some a := rfl
        have hsnoc := hl.sharedChain.snoc hl.sharedNodup hlast hal ha hnext hlink
        rw [hfirst] at hsnoc
        exact hsnoc
  | idle | halted => trivial

end

lemma step_holds (consumers : ℕ) {s : IpcConf} (h : Invariant s) (a : Action) :
    (step consumers s a).Holds fun ret s' => Invariant s' ∧ (ret = some 0 →
      ∃ c n, a = .check c ∧ (s.consumer c).pc = .checking n ∧ n ≤ (s'.consumer c).appended.length ∧
        (s'.consumer c).delivered = (s'.consumer c).appended.take n) := by
  obtain ⟨owner, h⟩ := h
  have weaken : ∀ {o : Outcome} {Q : IpcConf → Prop},
      o.Holds (fun ret s' => ret ≠ some 0 ∧ Invariant s') →
      o.Holds (fun ret s' => Invariant s' ∧ (ret = some 0 → Q s')) := by
    intro o Q ho
    cases o with
    | disabled => trivial
    | fault => exact ho
    | next ret s' => exact ⟨ho.2, fun hr => absurd hr ho.1⟩
  cases a with
  | send i c n data a => exact weaken (send_holds consumers h i c n data a)
  | append i => exact weaken (append_holds h i)
  | receive c => exact weaken (receive_holds consumers h c)
  | steal c => exact weaken (steal_holds h c)
  | take c => exact weaken (take_holds h c)
  | deliver c => exact weaken (deliver_holds h c)
  | free c => exact weaken (free_holds h c)
  | check c =>
    have hc := check_holds h c
    simp only [step]
    cases ho : checkLocalQueue s c with
    | disabled => trivial
    | fault => exact (ho ▸ hc : Outcome.fault.Holds _)
    | next ret s' =>
      rw [ho] at hc
      refine ⟨hc.1, fun hr => ?_⟩
      obtain ⟨n, hn⟩ := hc.2 hr
      exact ⟨c, n, rfl, hn⟩

lemma Invariant.ordered {s : IpcConf} (h : Invariant s) (c : ℕ) :
    (s.consumer c).delivered <+: (s.consumer c).appended := by
  obtain ⟨owner, h⟩ := h
  obtain ⟨stolen, shared, hl⟩ := h.consumers c
  exact ⟨_, by rw [← hl.log, List.append_assoc, List.append_assoc]⟩

theorem chunks_delivered_in_order (consumers : ℕ) (schedule : List Action) :
    ∀ t ∈ transitions (exec consumers) ipc2Init schedule, Delivery consumers t := by
  refine transitions_rule (C := fun _ => True) (fun _ s => Invariant s) invariant_init ?_ (fun _ _ => trivial)
  intro past s a hi _
  have hs := step_holds consumers hi a
  have hinv : Invariant (exec consumers s a) := by
    rw [exec]
    cases ho : step consumers s a with
    | disabled | fault => exact hi
    | next ret s' =>
      rw [ho] at hs
      exact hs.1
  refine ⟨hinv, fun hf => ?_, hinv.ordered, fun s' hs' => ?_⟩
  · rw [hf] at hs
    exact hs
  · rw [hs'] at hs
    exact hs.2 rfl

def interleaved : List Action :=
  [.send 4 0 1 [10] 100, .send 5 0 2 [20] 200, .append 5, .receive 0, .steal 0, .append 4, .check 0, .take 0,
    .deliver 0, .free 0, .receive 0, .steal 0, .check 0, .take 0, .deliver 0, .free 0, .receive 0, .steal 0, .check 0]

theorem interleaved_drained : ∃ t ∈ transitions (exec 1) ipc2Init interleaved,
    (t.target.consumer 0).delivered = [[20], [10]] ∧ Delivery 1 t ∧
    ∃ s', step 1 t.source t.event = .next (some 0) s' := by
  have hlen : 18 < (transitions (exec 1) ipc2Init interleaved).length := by decide
  have hmem := List.getElem_mem hlen
  exact ⟨_, hmem, rfl, chunks_delivered_in_order 1 interleaved _ hmem, _, rfl⟩

end Glaber.Ipc.Ipc2
