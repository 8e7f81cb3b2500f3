import Glaber.Trends.CacheSteps

namespace Glaber.Trends

open Lib.Circular Lib.Linked

variable {V : Type} {c c' c'' : Cache V} {s s' s'' : Shape} {fresh : Option ℕ} {i j : ℕ} {k : Key}

section

def entry (c : Cache V) (i : ℕ) : Key × V × TrendState := ((c.slots i).key, (c.slots i).value, (c.slots i).state)

structure Drops (c : Cache V) (s : Shape) (c' : Cache V) (s' : Shape) (evicted : List Key) : Prop where
  slotsNum : c'.slotsNum = c.slotsNum
  lru : ∃ dropped, s.lru = dropped ++ s'.lru ∧ evicted = dropped.map (key c)
  entries : ∀ j ∈ s'.lru, entry c' j = entry c j

lemma entry_key (h : entry c' i = entry c i) : key c' i = key c i := congrArg Prod.fst h

lemma Drops.refl (hslots : c'.slotsNum = c.slotsNum) (hlru : s'.lru = s.lru) (hentries : ∀ j ∈ s'.lru, entry c' j = entry c j) :
    Drops c s c' s' [] :=
  ⟨hslots, ⟨[], by simp [hlru], rfl⟩, hentries⟩

lemma Drops.trans {evicted evicted' : List Key} (h : Drops c s c' s' evicted) (h' : Drops c' s' c'' s'' evicted') :
    Drops c s c'' s'' (evicted ++ evicted') := by
  obtain ⟨dropped, hlru, rfl⟩ := h.lru
  obtain ⟨dropped', hlru', rfl⟩ := h'.lru
  refine ⟨h'.slotsNum.trans h.slotsNum, ⟨dropped ++ dropped', ?_, ?_⟩, ?_⟩
  · rw [hlru, hlru', List.append_assoc]
  · rw [List.map_append]
    congr 1
    apply List.map_congr_left
    intro j hj
    exact entry_key (h.entries j (by simp [hlru', hj]))
  · intro j hj
    exact (h'.entries j hj).trans (h.entries j (by simp [hlru', hj]))

lemma SameData.entry (h : SameData c c') (j : ℕ) : entry c' j = entry c j := by
  have hk := congrFun h.key j
  have hs := congrFun h.state j
  simp only [Trends.key, Trends.state] at hk hs
  simp [Trends.entry, hk, hs, h.value j]

def Available (c : Cache V) (s : Shape) : Prop := s.free ≠ [] ∨ c.freeSlot < c.slotsNum

lemma Holds.roots_le (h : Holds c s fresh) (hlru : s.lru = []) : s.roots.length ≤ 1 := by
  have hempty : ∀ r ∈ s.roots, fresh = some r := by
    intro r hr
    apply h.full r hr
    rw [List.eq_nil_iff_forall_not_mem]
    intro j hj
    have := ((h.valued.members r hr j).1 hj).1
    simp [hlru] at this
  have hnodup := (List.nodup_append.1 h.placed.lru_nodup).2.1
  cases hroots : s.roots with
  | nil => simp
  | cons r roots =>
      cases roots with
      | nil => simp
      | cons r' roots =>
          have h₁ := hempty r (by simp [hroots])
          have h₂ := hempty r' (by simp [hroots])
          rw [hroots] at hnodup
          simp [Option.some.inj (h₁.symm.trans h₂)] at hnodup

lemma Holds.reserve (h : Holds c s fresh) (hslots : 2 ≤ c.slotsNum) :
    ∃ c' evicted s', tfcReserveSlot c = some (c', evicted) ∧ Holds c' s' fresh ∧ Drops c s c' s' evicted ∧ Available c' s' ∧
      SameData c c' ∧ ∀ r ∈ s.roots, s.values r = [] → r ∈ s'.roots := by
  by_cases hfull : c.freeHead = uint32Max ∧ c.slotsNum = c.freeSlot
  · have hfree := h.placed.freeHead.1 hfull.1
    have hlength := h.placed.length_eq
    have hne : s.lru ≠ [] := by
      intro hlru
      have := h.roots_le hlru
      simp only [hfree, hlru, List.length_nil] at hlength
      omega
    obtain ⟨i, lru, hlru⟩ := List.exists_cons_of_ne_nil hne
    have hhead : c.lruHead = i := by simpa [hlru] using h.placed.lruHead
    have hinil : ¬ i = uint32Max := h.placed.ne_nil (by simp [hlru])
    obtain ⟨s', hholds, hevicted, hroots⟩ := h.evict hlru
    refine ⟨tfcFreeData c i, [key c i], s', ?_, hholds, ⟨hevicted.slotsNum, ⟨[i], ?_, rfl⟩, ?_⟩, .inl hevicted.free,
      hevicted.data, hroots⟩
    · rw [tfcReserveSlot, if_pos hfull, hhead, if_neg hinil]
      rfl
    · rw [hlru, hevicted.lru]
      rfl
    · exact fun j _ => hevicted.data.entry j
  · refine ⟨c, [], s, by rw [tfcReserveSlot, if_neg hfull], h, .refl rfl rfl fun _ _ => rfl, ?_,
      ⟨rfl, rfl, fun _ => rfl⟩, fun r hr _ => hr⟩
    by_cases hfree : s.free = []
    · have hle := h.placed.freeSlot_le
      have hne : ¬ c.slotsNum = c.freeSlot := fun e => hfull ⟨h.placed.freeHead.2 hfree, e⟩
      exact .inr (by omega)
    · exact .inl hfree

end

section

lemma Placed.mem_index (h : Placed c s) : i ∈ c.index ↔ i ∈ s.lru ++ s.roots := h.index.mem_iff

lemma Placed.search_none (h : Placed c s) : indexSearch c k = none ↔ ∀ i ∈ s.lru ++ s.roots, key c i ≠ k := by
  simp only [indexSearch, List.find?_eq_none, h.mem_index, decide_eq_true_eq]
  rfl

lemma Placed.search_some (h : Placed c s) (hi : indexSearch c k = some i) : i ∈ s.lru ++ s.roots ∧ key c i = k := by
  refine ⟨h.mem_index.1 (List.mem_of_find?_eq_some hi), ?_⟩
  have hkey := List.find?_some hi
  rwa [decide_eq_true_eq] at hkey

structure Allocated (c : Cache V) (s : Shape) (c' : Cache V) (i : ℕ) (free : List ℕ) : Prop where
  slots : (i :: (free ++ (s.lru ++ s.roots))).Perm (List.range c'.freeSlot)
  freeSlot_le : c'.freeSlot ≤ c'.slotsNum
  free : FreeList c' free
  same : ∀ j ≠ i, c'.slots j = c.slots j
  frame : c'.index = c.index ∧ c'.indexSlots = c.indexSlots ∧ c'.slotsNum = c.slotsNum ∧ c'.itemsNum = c.itemsNum
  ends : c'.lruHead = c.lruHead ∧ c'.lruTail = c.lruTail

lemma Placed.alloc (h : Placed c s) (hroom : Available c s) :
    ∃ c' i free, tfcAllocSlot c = some (c', i) ∧ Allocated c s c' i free := by
  by_cases hnew : c.freeSlot ≠ c.slotsNum
  · have hlt : c.freeSlot < c.slotsNum := lt_of_le_of_ne h.freeSlot_le hnew
    have hnil : c.freeSlot ≠ uint32Max := by
      have := h.slotsNum_le
      omega
    have hout : c.freeSlot ∉ s.free ++ (s.lru ++ s.roots) := fun hm => (h.lt hm).false
    have hpush := FreeList.push (c := { c with freeSlot := c.freeSlot + 1 }) h.free
      (fun hm => hout (List.mem_append_left _ hm)) hnil
    refine ⟨{ tfcFreeSlot { c with freeSlot := c.freeSlot + 1 } c.freeSlot with freeHead := c.freeHead }, c.freeSlot, s.free, ?_,
      ⟨?_, hlt, ?_, ?_, ⟨rfl, rfl, rfl, rfl⟩, rfl, rfl⟩⟩
    · rw [tfcAllocSlot, if_pos hnew]
      simp [tfcFreeSlot, setSlot, hnil]
    · have hrange : List.range (c.freeSlot + 1) = List.range c.freeSlot ++ [c.freeSlot] := List.range_succ
      show (c.freeSlot :: (s.free ++ (s.lru ++ s.roots))).Perm (List.range (c.freeSlot + 1))
      rw [hrange]
      exact (h.slots.cons _).trans (List.perm_append_singleton _ _).symm
    · obtain ⟨-, n, hn, hrest⟩ := hpush
      have hnext : n = c.freeHead := by
        rw [← Option.some.inj hn]
        simp [tfcFreeSlot, setSlot]
      exact hnext ▸ hrest
    · intro j hj
      simp [tfcFreeSlot, setSlot, hj]
  · have hslot : c.freeSlot = c.slotsNum := not_not.1 hnew
    obtain ⟨i, free, hfree⟩ : ∃ i free, s.free = i :: free := by
      rcases hroom with hroom | hroom
      · exact List.exists_cons_of_ne_nil hroom
      · omega
    have hchain := h.free
    rw [FreeList, hfree] at hchain
    obtain ⟨hhead, n, hn, hrest⟩ := hchain
    have hnil : ¬ c.freeHead = uint32Max := fun e => by simp [link, e] at hhead
    have hi : c.freeHead = i := by simpa [link, hnil] using hhead
    refine ⟨{ c with freeHead := (c.slots i).next }, i, free, ?_, ⟨?_, h.freeSlot_le, ?_, fun _ _ => rfl, ⟨rfl, rfl, rfl, rfl⟩,
      rfl, rfl⟩⟩
    · rw [tfcAllocSlot, if_neg hnew]
      simp only [if_neg hnil]
      rw [hi]
    · have hslots := h.slots
      rwa [hfree] at hslots
    · have hnext : n = (c.slots i).next := (Option.some.inj hn).symm
      exact hnext ▸ hrest

lemma Allocated.apart {free : List ℕ} (h : Allocated c s c' i free) : i ∉ free ++ (s.lru ++ s.roots) := by
  have hnodup := h.slots.nodup_iff.2 List.nodup_range
  exact (List.nodup_cons.1 hnodup).1

lemma Placed.insert (h : Placed c s) (hroom : Available c s) (data : Data V) (hnone : indexSearch c data.key = none) :
    ∃ c' i free, Allocated c s c' i free ∧
      tfcIndexAdd c data = some ({ setSlot c' i fun _ => data with index := i :: c.index }, i, []) := by
  obtain ⟨c', i, free, halloc, hallocated⟩ := h.alloc hroom
  have hsmall : ¬ c.indexSlots * 4 / 5 ≤ c.index.length + 1 := by
    have hlength := h.length_eq
    have hindex : c.index.length = s.lru.length + s.roots.length := by simpa using h.index.length_eq
    have := h.indexSlots
    have := h.freeSlot_le
    have hfree : s.free.length = 0 → c.freeSlot < c.slotsNum := by
      intro hzero
      rcases hroom with hroom | hroom
      · exact absurd (List.length_eq_zero_iff.1 hzero) hroom
      · exact hroom
    omega
  have hinsert : indexInsert c data = some ({ setSlot c' i fun _ => data with index := i :: c.index }, some i) := by
    rw [indexInsert, hnone]
    simp only [if_neg hsmall, halloc, Option.bind_eq_bind, Option.bind_some, hallocated.frame.1]
    rfl
  exact ⟨c', i, free, hallocated, by simp [tfcIndexAdd, hinsert]⟩

lemma tfcIndexAdd_found {data : Data V} (hfound : indexSearch c data.key = some i) :
    tfcIndexAdd c data = some (c, i, []) := by
  simp [tfcIndexAdd, indexInsert, hfound]

end

section

variable {free : List ℕ}

lemma lru_links_of_slots (hslot : c'.slots j = c.slots j) (hends : c'.lruHead = c.lruHead ∧ c'.lruTail = c.lruTail) :
    lruNext c' j = lruNext c j ∧ lruPrev c' j = lruPrev c j := by
  simp [lruNext, lruPrev, hslot, hends.1, hends.2]

lemma Circle.of_slots {head : ℕ} {nodes : List ℕ} (h : Circle (nextValue c) (prevValue c) head nodes)
    (hslots : ∀ j ∈ head :: nodes, c'.slots j = c.slots j) : Circle (nextValue c') (prevValue c') head nodes :=
  h.congr (fun j hj => congrArg Data.nextValue (hslots j hj)) fun j hj => congrArg Data.prevValue (hslots j hj)

def storeValue (c : Cache V) (i : ℕ) (value : V) (st : TrendState) : Cache V :=
  setSlot c i fun d => { d with value := value, state := st }

lemma storeValue_links (c : Cache V) (i : ℕ) (value : V) (st : TrendState) :
    lruNext (storeValue c i value st) = lruNext c ∧ lruPrev (storeValue c i value st) = lruPrev c ∧
      nextValue (storeValue c i value st) = nextValue c ∧ prevValue (storeValue c i value st) = prevValue c ∧
      key (storeValue c i value st) = key c ∧ ∀ j, ((storeValue c i value st).slots j).next = (c.slots j).next := by
  have hfield : ∀ {β : Type} (f : Data V → β), (∀ d, f { d with value := value, state := st } = f d) → ∀ j,
      f ((storeValue c i value st).slots j) = f (c.slots j) := by
    intro β f hf j
    rw [storeValue, slots_setSlot]
    split_ifs with hj
    · rw [hj, hf]
    · rfl
  refine ⟨?_, ?_, funext (hfield Data.nextValue fun _ => rfl), funext (hfield Data.prevValue fun _ => rfl),
    funext (hfield Data.key fun _ => rfl), hfield Data.next fun _ => rfl⟩
  · funext j
    simp only [lruNext, hfield Data.next fun _ => rfl]
    rfl
  · funext j
    simp only [lruPrev, hfield Data.prev fun _ => rfl]
    rfl

lemma Placed.setData (h : Placed c s) (i : ℕ) (value : V) (st : TrendState) : Placed (storeValue c i value st) s := by
  obtain ⟨hn, hp, -, -, -, hnext⟩ := storeValue_links c i value st
  refine ⟨h.slots, h.freeSlot_le, h.slotsNum_le, h.indexSlots, h.index, h.items, ?_, ?_⟩
  · exact FreeList.congr h.free rfl fun j _ => hnext j
  · rw [hn, hp]
    exact h.lru

lemma Holds.setData (h : Holds c s fresh) (value : V) {st : TrendState} (hst : st ≠ .unknown) :
    Holds (storeValue c i value st) s fresh := by
  obtain ⟨-, -, hnv, hpv, hkey, -⟩ := storeValue_links c i value st
  refine ⟨h.placed.setData i value st, hkey ▸ h.keyed, ?_, h.full, ?_⟩
  · rw [hnv, hpv, hkey]
    exact h.valued
  · intro j hj
    rw [state, storeValue, slots_setSlot]
    split_ifs with hji
    · exact hst
    · exact h.known j hj

structure Filled (c : Cache V) (s : Shape) (c₁ : Cache V) (i : ℕ) (free : List ℕ) (data : Data V) : Prop where
  slots : (i :: (free ++ (s.lru ++ s.roots))).Perm (List.range c₁.freeSlot)
  freeSlot_le : c₁.freeSlot ≤ c₁.slotsNum
  free : FreeList c₁ free
  same : ∀ j ≠ i, c₁.slots j = c.slots j
  slot : c₁.slots i = data
  index : c₁.index = i :: c.index
  frame : c₁.indexSlots = c.indexSlots ∧ c₁.slotsNum = c.slotsNum ∧ c₁.itemsNum = c.itemsNum
  ends : c₁.lruHead = c.lruHead ∧ c₁.lruTail = c.lruTail

lemma Allocated.filled (h : Allocated c s c' i free) (data : Data V) :
    Filled c s { setSlot c' i fun _ => data with index := i :: c.index } i free data := by
  have hapart := h.apart
  refine ⟨h.slots, h.freeSlot_le, ?_, ?_, by simp [setSlot], rfl, h.frame.2, h.ends⟩
  · have hhead : ({ setSlot c' i fun _ => data with index := i :: c.index } : Cache V).freeHead = c'.freeHead := rfl
    refine FreeList.congr h.free hhead fun j hj => ?_
    have hne : j ≠ i := fun e => hapart (List.mem_append_left _ (e ▸ hj))
    simp [setSlot, hne]
  · intro j hj
    simp [setSlot, hj, h.same j hj]

variable {c₁ : Cache V} {data : Data V} {r : ℕ}

lemma Filled.apart (h : Filled c s c₁ i free data) : i ∉ free ∧ i ∉ s.lru ∧ i ∉ s.roots := by
  have hnodup := h.slots.nodup_iff.2 List.nodup_range
  have hapart := (List.nodup_cons.1 hnodup).1
  simpa only [List.mem_append, not_or] using hapart

lemma Filled.ne_nil (h : Filled c s c₁ i free data) (hp : Placed c s) : i ≠ uint32Max := by
  have hlt : i < c₁.freeSlot := List.mem_range.1 (h.slots.mem_iff.1 List.mem_cons_self)
  have := h.freeSlot_le
  have := h.frame.2.1
  have := hp.slotsNum_le
  omega

def withRoot (s : Shape) (free : List ℕ) (r : ℕ) : Shape := ⟨free, s.lru, r :: s.roots, Function.update s.values r []⟩

def selfLinked (c₁ : Cache V) (r : ℕ) : Cache V :=
  { setSlot c₁ r fun d => { d with prevValue := r, nextValue := r } with itemsNum := c₁.itemsNum + 1 }

lemma selfLinked_key (c₁ : Cache V) (r : ℕ) : key (selfLinked c₁ r) = key c₁ := by
  funext j
  rw [key, selfLinked, slots_setSlot]
  split_ifs with hj
  · rw [hj, key]
  · rfl

lemma Holds.no_item (hc : Holds c s fresh) {itemid : ℕ} (hnone : indexSearch c (reserved itemid) = none) :
    ∀ j ∈ s.lru, (key c j).itemid ≠ itemid := by
  intro j hj heq
  obtain ⟨r', hr', hitem⟩ := hc.keyed.rooted j hj
  apply hc.placed.search_none.1 hnone r' (List.mem_append_right _ hr')
  rw [hc.keyed.root r' hr', hitem.trans heq]

section

variable (h : Filled c s c₁ i free data)

include h

lemma Filled.key_eq : (∀ j ≠ i, key c₁ j = key c j) ∧ key c₁ i = data.key :=
  ⟨fun j hj => congrArg Data.key (h.same j hj), congrArg Data.key h.slot⟩

lemma Filled.apart_of_mem : (∀ j ∈ s.lru, j ≠ i) ∧ ∀ j ∈ s.roots, j ≠ i :=
  ⟨fun _ hj e => h.apart.2.1 (e ▸ hj), fun _ hj e => h.apart.2.2 (e ▸ hj)⟩

lemma Filled.lru_circle (hp : Placed c s) : Circle (lruNext c₁) (lruPrev c₁) uint32Max s.lru := by
  have hne : ∀ j ∈ uint32Max :: s.lru, j ≠ i := by
    intro j hj
    rcases List.mem_cons.1 hj with rfl | hj
    · exact (h.ne_nil hp).symm
    · exact h.apart_of_mem.1 j hj
  apply hp.lru.congr
  · exact fun j hj => (lru_links_of_slots (h.same j (hne j hj)) h.ends).1
  · exact fun j hj => (lru_links_of_slots (h.same j (hne j hj)) h.ends).2

lemma Filled.root_slots : ∀ j ≠ i, (selfLinked c₁ i).slots j = c.slots j := by
  intro j hj
  rw [selfLinked, slots_setSlot, if_neg hj, h.same j hj]

lemma Filled.root_placed (hp : Placed c s) : Placed (selfLinked c₁ i) (withRoot s free i) := by
  have hnext : ∀ j, ((selfLinked c₁ i).slots j).next = (c₁.slots j).next ∧ ((selfLinked c₁ i).slots j).prev = (c₁.slots j).prev := by
    intro j
    rw [selfLinked, slots_setSlot]
    split_ifs with hj
    · rw [hj]
      exact ⟨rfl, rfl⟩
    · exact ⟨rfl, rfl⟩
  refine ⟨?_, h.freeSlot_le, h.frame.2.1.le.trans hp.slotsNum_le, ?_, ?_, ?_, ?_, ?_⟩
  · refine List.Perm.trans ?_ h.slots
    apply List.perm_iff_count.2
    intro a
    simp only [withRoot, List.count_append, List.count_cons]
    omega
  · show c₁.slotsNum * 5 / 4 + 4 ≤ c₁.indexSlots
    rw [h.frame.1, h.frame.2.1]
    exact hp.indexSlots
  · show c₁.index.Perm (s.lru ++ i :: s.roots)
    rw [h.index]
    exact (hp.index.cons i).trans List.perm_middle.symm
  · show c₁.itemsNum + 1 = (i :: s.roots).length
    rw [h.frame.2.2, hp.items, List.length_cons]
  · exact FreeList.congr h.free rfl fun j _ => (hnext j).1
  · apply (h.lru_circle hp).congr
    · intro j _
      simp only [lruNext, (hnext j).1]
      rfl
    · intro j _
      simp only [lruPrev, (hnext j).2]
      rfl

variable (hc : Holds c s fresh)

include hc

lemma Filled.values_circle {r' : ℕ} (hr' : r' ∈ s.roots) :
    (∀ a ∈ r' :: s.values r', a ≠ i) ∧ Circle (nextValue c₁) (prevValue c₁) r' (s.values r') := by
  obtain ⟨hlruNe, hrootNe⟩ := h.apart_of_mem
  have hnodes : ∀ a ∈ r' :: s.values r', a ≠ i := by
    intro a ha
    rcases List.mem_cons.1 ha with rfl | ha
    · exact hrootNe _ hr'
    · exact hlruNe a ((hc.valued.members r' hr' a).1 ha).1
  exact ⟨hnodes, Circle.of_slots (hc.valued.circle r' hr') fun j hj => h.same j (hnodes j hj)⟩

lemma Filled.distinct (hnone : indexSearch c data.key = none)
    {nodes : List ℕ} (hnodes : ∀ j ∈ nodes, j = i ∨ j ∈ s.lru ++ s.roots) :
    ∀ a ∈ nodes, ∀ b ∈ nodes, key c₁ a = key c₁ b → a = b := by
  have hsearch := hc.placed.search_none.1 hnone
  obtain ⟨hkey, hkeyi⟩ := h.key_eq
  have hold : ∀ j ∈ nodes, j = i ∨ j ∈ s.lru ++ s.roots ∧ j ≠ i := fun j hj =>
    (em (j = i)).imp_right fun hji => ⟨(hnodes j hj).resolve_left hji, hji⟩
  intro a ha b hb heq
  rcases hold a ha with rfl | ⟨ha', hai⟩
  · rcases hold b hb with rfl | ⟨hb', hbi⟩
    · rfl
    · rw [hkeyi, hkey b hbi] at heq
      exact absurd heq.symm (hsearch b hb')
  · rcases hold b hb with rfl | ⟨hb', hbi⟩
    · rw [hkeyi, hkey a hai] at heq
      exact absurd heq (hsearch a ha')
    · rw [hkey a hai, hkey b hbi] at heq
      exact hc.keyed.distinct a ha' b hb' heq

lemma Filled.root_keyed (hnone : indexSearch c data.key = none)
    (hroot : data.key = reserved data.key.itemid) : Keyed (key c₁) (withRoot s free i) := by
  obtain ⟨hkey, hkeyi⟩ := h.key_eq
  obtain ⟨hlruNe, hrootNe⟩ := h.apart_of_mem
  refine ⟨?_, ?_, h.distinct hc hnone fun j hj => ?_, ?_⟩
  · intro r' hr'
    rcases List.mem_cons.1 hr' with rfl | hr'
    · rw [hkeyi]
      exact hroot
    · rw [hkey r' (hrootNe r' hr')]
      exact hc.keyed.root r' hr'
  · intro j hj
    rw [hkey j (hlruNe j hj)]
    exact hc.keyed.value j hj
  · exact List.mem_cons.1 (List.perm_middle.mem_iff.1 hj)
  · intro j hj
    obtain ⟨r', hr', hitem⟩ := hc.keyed.rooted j hj
    refine ⟨r', List.mem_cons_of_mem _ hr', ?_⟩
    rw [hkey r' (hrootNe r' hr'), hkey j (hlruNe j hj), hitem]

lemma Filled.root_valued (hnone : indexSearch c data.key = none)
    (hroot : data.key = reserved data.key.itemid) :
    Valued (key c₁) (nextValue (selfLinked c₁ i)) (prevValue (selfLinked c₁ i)) (withRoot s free i) := by
  obtain ⟨hkey, hkeyi⟩ := h.key_eq
  obtain ⟨hlruNe, hrootNe⟩ := h.apart_of_mem
  have hvalues : ∀ r' ∈ s.roots, (withRoot s free i).values r' = s.values r' :=
    fun r' hr' => Function.update_of_ne (hrootNe r' hr') ..
  have hnil : (withRoot s free i).values i = [] := Function.update_self ..
  refine ⟨?_, ?_, ?_⟩
  · intro r' hr'
    rcases List.mem_cons.1 hr' with rfl | hr'
    · rw [hnil]
      apply circle_nil <;> simp [nextValue, prevValue, selfLinked, setSlot]
    · rw [hvalues r' hr']
      exact Circle.of_slots (hc.valued.circle r' hr') fun j hj => h.root_slots j ((h.values_circle hc hr').1 j hj)
  · intro r' hr' j
    rcases List.mem_cons.1 hr' with rfl | hr'
    · rw [hnil, hkeyi]
      refine ⟨by simp, ?_⟩
      rintro ⟨hj, heq⟩
      rw [hkey j (hlruNe j hj)] at heq
      exact absurd heq (hc.no_item (hroot ▸ hnone) j hj)
    · rw [hvalues r' hr', hc.valued.members r' hr' j, hkey r' (hrootNe r' hr')]
      refine and_congr_right fun hj => ?_
      rw [hkey j (hlruNe j hj)]
  · intro r' hr'
    rcases List.mem_cons.1 hr' with rfl | hr'
    · rw [hnil]
      exact List.nodup_nil
    · rw [hvalues r' hr']
      exact hc.valued.nodup r' hr'

end

lemma Holds.newRoot (h : Holds c s none) (hroom : Available c s) (junk : Data V) {itemid : ℕ}
    (hnone : indexSearch c (reserved itemid) = none) :
    ∃ c₁ r s', tfcIndexAdd c { junk with key := reserved itemid } = some (c₁, r, []) ∧ Holds (selfLinked c₁ r) s' (some r) ∧
      Drops c s (selfLinked c₁ r) s' [] ∧ r ∈ s'.roots ∧ s'.values r = [] ∧ (key c₁ r).itemid = itemid := by
  obtain ⟨c', r, free, halloc, hadd⟩ := h.placed.insert hroom { junk with key := reserved itemid } hnone
  have hfilled := halloc.filled { junk with key := reserved itemid }
  have hlruNe := hfilled.apart_of_mem.1
  refine ⟨_, r, withRoot s free r, hadd, ⟨hfilled.root_placed h.placed, ?_, ?_, ?_, ?_⟩,
    .refl hfilled.frame.2.1 rfl fun j hj => ?_, List.mem_cons_self, Function.update_self .., ?_⟩
  · rw [selfLinked_key]
    exact hfilled.root_keyed h hnone rfl
  · rw [selfLinked_key]
    exact hfilled.root_valued h hnone rfl
  · intro r' hr' hempty
    rcases List.mem_cons.1 hr' with rfl | hr'
    · rfl
    · have hvalues : (withRoot s free r).values r' = s.values r' :=
        Function.update_of_ne (hfilled.apart_of_mem.2 r' hr') ..
      exact absurd (h.full r' hr' (hvalues ▸ hempty)) (by simp)
  · intro j hj
    rw [state, hfilled.root_slots j (hlruNe j hj)]
    exact h.known j hj
  · rw [entry, hfilled.root_slots j (hlruNe j hj)]
    rfl
  · rw [hfilled.key_eq.2]
    rfl

def withValue (s : Shape) (free : List ℕ) (r i : ℕ) : Shape :=
  ⟨free, s.lru ++ [i], s.roots, Function.update s.values r (s.values r ++ [i])⟩

def linked (c₁ : Cache V) (r i : ℕ) : Cache V := tfcValueAppend (tfcLruAppend c₁ i) r i

section

variable (h : Filled c s c₁ i free data) (hc : Holds c s fresh) (hr : r ∈ s.roots)

include h hc hr

lemma Filled.prev_root : r ≠ i ∧ prevValue c₁ r = prevValue c r ∧ prevValue c r ∈ r :: s.values r ∧ i ∉ r :: s.values r := by
  obtain ⟨-, hilru, hiroots⟩ := h.apart
  have hri : r ≠ i := fun e => hiroots (e ▸ hr)
  refine ⟨hri, congrArg Data.prevValue (h.same r hri), (hc.valued.circle r hr).prev_head_mem, ?_⟩
  rw [List.mem_cons, not_or]
  exact ⟨hri.symm, fun hm => hilru ((hc.valued.members r hr i).1 hm).1⟩

lemma Filled.value_links :
    nextValue (linked c₁ r i) = Function.update (Function.update (nextValue c₁) i r) (prevValue c₁ r) i ∧
      prevValue (linked c₁ r i) = Function.update (Function.update (prevValue c₁) i (prevValue c₁ r)) r i ∧
        SameButValues (tfcLruAppend c₁ i) (linked c₁ r i) := by
  obtain ⟨hri, hprev, hmem, hout⟩ := h.prev_root hc hr
  obtain ⟨hnv, hpv⟩ := (sameButUse_lruAppend c₁ i).values
  have hlast : prevValue (tfcLruAppend c₁ i) r ≠ i := by
    rw [hpv, hprev]
    exact fun e => hout (e ▸ hmem)
  obtain ⟨hn, hp, hsame⟩ := value_append_links hri hlast
  rw [hnv, hpv] at hn
  rw [hpv] at hp
  exact ⟨hn, hp, hsame⟩

lemma Filled.linked_data : SameData c₁ (linked c₁ r i) :=
  (sameButUse_lruAppend c₁ i).data.trans (h.value_links hc hr).2.2.data

lemma Filled.placed : Placed (linked c₁ r i) (withValue s free r i) := by
  obtain ⟨hifree, hilru, -⟩ := h.apart
  have hinil := h.ne_nil hc.placed
  have hframe : SameFrame c₁ (linked c₁ r i) := (sameFrame_lruAppend c₁ i).trans (sameFrame_valueAppend _ r i)
  have hsame := (h.value_links hc hr).2.2
  obtain ⟨hn, hp⟩ := lru_append_links (c := c₁) hinil
  have hcircle := h.lru_circle hc.placed
  have hnil : uint32Max ∉ s.lru := fun hm => hc.placed.nil_not_mem (List.mem_append_right _ (List.mem_append_left _ hm))
  have happend := hcircle.append hnil fun hm => (List.mem_cons.1 hm).elim hinil hilru
  rw [← hn, ← hp] at happend
  have hends : (linked c₁ r i).lruHead = (tfcLruAppend c₁ i).lruHead ∧ (linked c₁ r i).lruTail = (tfcLruAppend c₁ i).lruTail := by
    unfold linked tfcValueAppend
    split_ifs <;> exact ⟨rfl, rfl⟩
  refine ⟨?_, ?_, ?_, ?_, ?_, ?_, ?_, ?_⟩
  · show (free ++ (s.lru ++ [i] ++ s.roots)).Perm (List.range (linked c₁ r i).freeSlot)
    rw [hframe.freeSlot]
    refine List.Perm.trans ?_ h.slots
    apply List.perm_iff_count.2
    intro a
    simp only [List.count_append, List.count_cons, List.count_nil]
    omega
  · rw [hframe.freeSlot, hframe.slotsNum]
    exact h.freeSlot_le
  · rw [hframe.slotsNum, h.frame.2.1]
    exact hc.placed.slotsNum_le
  · rw [hframe.slotsNum, hframe.indexSlots, h.frame.1, h.frame.2.1]
    exact hc.placed.indexSlots
  · rw [hframe.index, h.index]
    refine (hc.placed.index.cons i).trans ?_
    apply List.perm_iff_count.2
    intro a
    simp only [withValue, List.count_append, List.count_cons, List.count_nil]
    omega
  · rw [hframe.itemsNum, h.frame.2.2]
    exact hc.placed.items
  · apply FreeList.congr h.free hframe.freeHead
    intro j hj
    have hjnil : j ≠ uint32Max := by
      have hlt : j < c₁.freeSlot := List.mem_range.1 (h.slots.mem_iff.1 (List.mem_cons_of_mem _ (List.mem_append_left _ hj)))
      have := h.freeSlot_le
      have := h.frame.2.1
      have := hc.placed.slotsNum_le
      omega
    have hji : j ≠ i := fun e => hifree (e ▸ hj)
    have hjlast : j ≠ lruPrev c₁ uint32Max := by
      rintro rfl
      rcases List.mem_cons.1 hcircle.prev_head_mem with hm | hm
      · exact hjnil hm
      · have hnodup := h.slots.nodup_iff.2 List.nodup_range
        rw [List.nodup_cons, List.nodup_append] at hnodup
        exact hnodup.2.2.2 _ hj _ (List.mem_append_left _ hm) rfl
    rw [hsame.next j, ← lruNext_eq (c := tfcLruAppend c₁ i) hjnil, hn, Function.update_of_ne hjlast,
      Function.update_of_ne hji, lruNext_eq hjnil]
  · apply happend.congr
    · intro j _
      simp only [lruNext, hsame.next j, hends.1]
    · intro j _
      simp only [lruPrev, hsame.prev j, hends.2]

lemma Filled.keyed (hitem : (key c r).itemid = data.key.itemid) (hreserved : data.key ≠ reserved data.key.itemid)
    (hnone : indexSearch c data.key = none) : Keyed (key c₁) (withValue s free r i) := by
  obtain ⟨hkey, hkeyi⟩ := h.key_eq
  obtain ⟨hlruNe, hrootNe⟩ := h.apart_of_mem
  refine ⟨?_, ?_, h.distinct hc hnone fun j hj => ?_, ?_⟩
  · intro r' hr'
    rw [hkey r' (hrootNe r' hr')]
    exact hc.keyed.root r' hr'
  · intro j hj
    rcases List.mem_append.1 hj with hj | hj
    · rw [hkey j (hlruNe j hj)]
      exact hc.keyed.value j hj
    · rw [List.mem_singleton.1 hj, hkeyi]
      exact hreserved
  · simp only [withValue, List.mem_append, List.mem_singleton] at hj ⊢
    tauto
  · intro j hj
    rcases List.mem_append.1 hj with hj | hj
    · obtain ⟨r', hr', hitem'⟩ := hc.keyed.rooted j hj
      refine ⟨r', hr', ?_⟩
      rw [hkey r' (hrootNe r' hr'), hkey j (hlruNe j hj), hitem']
    · refine ⟨r, hr, ?_⟩
      rw [List.mem_singleton.1 hj, hkeyi, hkey r (hrootNe r hr), hitem]

lemma Filled.valued (hitem : (key c r).itemid = data.key.itemid) :
    Valued (key c₁) (nextValue (linked c₁ r i)) (prevValue (linked c₁ r i)) (withValue s free r i) := by
  have hilru := h.apart.2.1
  obtain ⟨hri, hprev, hmem, hout⟩ := h.prev_root hc hr
  obtain ⟨hn, hp, -⟩ := h.value_links hc hr
  obtain ⟨hkey, hkeyi⟩ := h.key_eq
  have hrootNe := h.apart_of_mem.2
  have hnodes : ∀ r' ∈ s.roots, ∀ a ∈ r' :: s.values r', a ≠ i := fun r' hr' => (h.values_circle hc hr').1
  have hcircle : ∀ r' ∈ s.roots, Circle (nextValue c₁) (prevValue c₁) r' (s.values r') :=
    fun r' hr' => (h.values_circle hc hr').2
  refine ⟨?_, ?_, ?_⟩
  · intro r' hr'
    rw [hn, hp]
    by_cases hne : r' = r
    · subst hne
      dsimp only [withValue]
      rw [Function.update_self]
      exact (hcircle r' hr').append (hc.root_not_value hr') hout
    · dsimp only [withValue]
      rw [Function.update_of_ne hne]
      have hin : ∀ a ∈ r' :: s.values r', a ∉ r :: s.values r := fun a ha => hc.disjoint hr' hr hne ha
      apply (hcircle r' hr').congr
      · intro a ha
        have hlast : a ≠ prevValue c₁ r := by
          rintro rfl
          exact hin _ ha (hprev ▸ hmem)
        rw [Function.update_of_ne hlast, Function.update_of_ne (hnodes r' hr' a ha)]
      · intro a ha
        have har : a ≠ r := fun e => hin a ha (e ▸ List.mem_cons_self)
        rw [Function.update_of_ne har, Function.update_of_ne (hnodes r' hr' a ha)]
  · intro r' hr' j
    have hold := hc.valued.members r' hr' j
    rw [hkey r' (hrootNe r' hr')]
    dsimp only [withValue]
    by_cases hji : j = i
    · subst hji
      rw [hkeyi, ← hitem]
      by_cases hne : r' = r
      · subst hne
        simp
      · rw [Function.update_of_ne hne]
        constructor
        · intro hm
          exact absurd (hold.1 hm).1 hilru
        · rintro ⟨-, heq⟩
          exact absurd (hc.keyed.root_unique hr' hr heq.symm) hne
    · rw [hkey j hji, List.mem_append, List.mem_singleton, or_iff_left hji, ← hold]
      by_cases hne : r' = r
      · subst hne
        rw [Function.update_self, List.mem_append, List.mem_singleton, or_iff_left hji]
      · rw [Function.update_of_ne hne]
  · intro r' hr'
    dsimp only [withValue]
    by_cases hne : r' = r
    · subst hne
      rw [Function.update_self, List.nodup_append]
      refine ⟨hc.valued.nodup r' hr', by simp, ?_⟩
      intro a ha b hb
      rw [List.mem_singleton.1 hb]
      exact hnodes r' hr' a (List.mem_cons_of_mem _ ha)
    · rw [Function.update_of_ne hne]
      exact hc.valued.nodup r' hr'

lemma Filled.holds (hitem : (key c r).itemid = data.key.itemid) (hreserved : data.key ≠ reserved data.key.itemid)
    (hnone : indexSearch c data.key = none) (hfresh : ∀ x, fresh = some x → x = r) (value : V) {st : TrendState}
    (hst : st ≠ .unknown) :
    Holds (storeValue (linked c₁ r i) i value st) (withValue s free r i) none := by
  obtain ⟨-, hilru, -⟩ := h.apart
  have hdata := h.linked_data hc hr
  obtain ⟨-, -, hnv, hpv, hkey, -⟩ := storeValue_links (linked c₁ r i) i value st
  refine ⟨(h.placed hc hr).setData i value st, ?_, ?_, ?_, ?_⟩
  · rw [hkey, hdata.key]
    exact h.keyed hc hr hitem hreserved hnone
  · rw [hkey, hdata.key, hnv, hpv]
    exact h.valued hc hr hitem
  · intro r' hr' hempty
    dsimp only [withValue] at hempty
    by_cases hne : r' = r
    · rw [hne, Function.update_self] at hempty
      simp at hempty
    · rw [Function.update_of_ne hne] at hempty
      exact absurd (hfresh r' (hc.full r' hr' hempty)) hne
  · intro j hj
    rw [state, storeValue, slots_setSlot]
    split_ifs with hji
    · exact hst
    · have hjlru : j ∈ s.lru := by simpa [withValue, hji] using hj
      have hstate : state (linked c₁ r i) j = state c j :=
        (congrFun hdata.state j).trans (congrArg Data.state (h.same j hji))
      show state (linked c₁ r i) j ≠ .unknown
      rw [hstate]
      exact hc.known j hjlru

end

end

end Glaber.Trends
