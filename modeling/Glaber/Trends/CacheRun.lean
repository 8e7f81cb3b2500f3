import Glaber.Trends.CacheCalls

namespace Glaber.Trends

open Lib.Circular Lib.Linked

variable {V : Type} {c c' : Cache V} {s s' : Shape} {fresh : Option ℕ} {i j : ℕ} {k : Key}

section

lemma Holds.search_value (h : Holds c s fresh) (hk : k ≠ reserved k.itemid) (hi : indexSearch c k = some i) :
    i ∈ s.lru ∧ key c i = k := by
  obtain ⟨hmem, hkey⟩ := h.placed.search_some hi
  rcases List.mem_append.1 hmem with hm | hm
  · exact ⟨hm, hkey⟩
  · have hroot := h.keyed.root i hm
    rw [hkey] at hroot
    exact absurd hroot hk

lemma Holds.search_root (h : Holds c s fresh) {itemid : ℕ} (hi : indexSearch c (reserved itemid) = some i) :
    i ∈ s.roots ∧ (key c i).itemid = itemid := by
  obtain ⟨hmem, hkey⟩ := h.placed.search_some hi
  rcases List.mem_append.1 hmem with hm | hm
  · have hvalue := h.keyed.value i hm
    rw [hkey] at hvalue
    exact absurd rfl hvalue
  · exact ⟨hm, by rw [hkey]; rfl⟩

lemma Holds.root_spec (h : Holds c s none) (hroom : Available c s) (hslots : 2 ≤ c.slotsNum) (junk : Data V) (itemid : ℕ) :
    ∃ c' r evicted s' fresh', tfcRoot c itemid junk = some (c', r, evicted) ∧ Holds c' s' fresh' ∧
      (∀ x, fresh' = some x → x = r) ∧ Drops c s c' s' evicted ∧ Available c' s' ∧ r ∈ s'.roots ∧
      (key c' r).itemid = itemid := by
  cases hsearch : indexSearch c (reserved itemid) with
  | some r =>
      obtain ⟨hr, hitem⟩ := h.search_root hsearch
      exact ⟨c, r, [], s, none, by simp [tfcRoot, hsearch], h, by simp, .refl rfl rfl fun _ _ => rfl, hroom, hr, hitem⟩
  | none =>
      obtain ⟨c₁, r, s₁, hadd, hholds, hdrops, hr, hempty, hitem⟩ := h.newRoot hroom junk hsearch
      obtain ⟨c₂, evicted, s₂, hreserve, hholds₂, hdrops₂, hroom₂, hdata, hroots⟩ :=
        hholds.reserve (hdrops.slotsNum ▸ hslots)
      refine ⟨c₂, r, evicted, s₂, some r, ?_, hholds₂, by simp, hdrops.trans hdrops₂, hroom₂, hroots r hr hempty, ?_⟩
      · simp only [tfcRoot, hsearch, hadd, Option.bind_eq_bind, Option.bind_some]
        change ((tfcReserveSlot (selfLinked c₁ r)).bind _) = _
        rw [hreserve]
        rfl
      · rw [hdata.key, selfLinked_key, hitem]

def content (c : Cache V) (s : Shape) : List (Key × V × TrendState) := s.lru.map (entry c)

def putEntry (k : Key) (value : V) (st : TrendState) (entries : List (Key × V × TrendState)) : List (Key × V × TrendState) :=
  if k ∈ entries.map Prod.fst then entries.map fun e => if e.1 = k then (k, value, st) else e
  else entries ++ [(k, value, st)]

lemma mem_content_key : k ∈ (content c s).map Prod.fst ↔ ∃ j ∈ s.lru, key c j = k := by
  simp [content, entry, key]

lemma Holds.content_storeValue (h : Holds c s fresh) (hi : i ∈ s.lru) (hkey : key c i = k) (value : V)
    (st : TrendState) : content (storeValue c i value st) s = putEntry k value st (content c s) := by
  rw [putEntry, if_pos (mem_content_key.2 ⟨i, hi, hkey⟩), content, content, List.map_map]
  apply List.map_congr_left
  intro j hj
  by_cases hji : j = i
  · subst hji
    have hk : (c.slots j).key = k := hkey
    simp [entry, storeValue, setSlot, hk]
  · have hk : ¬ (c.slots j).key = k := by
      intro e
      apply hji
      apply h.keyed.distinct j (List.mem_append_left _ hj) i (List.mem_append_left _ hi)
      rw [hkey]
      exact e
    simp [entry, storeValue, setSlot, hji, hk]

lemma Holds.put (h : Holds c s none) (hslots : 2 ≤ c.slotsNum) (hk : k ≠ reserved k.itemid) (value : V) {st : TrendState}
    (hst : st ≠ .unknown) (junk : Data V) :
    ∃ c' evicted s' n, tfcPutValue c k value st junk = some (c', evicted) ∧ Holds c' s' none ∧ c'.slotsNum = c.slotsNum ∧
      evicted = ((content c s).take n).map Prod.fst ∧ content c' s' = putEntry k value st ((content c s).drop n) := by
  obtain ⟨c₁, evicted₁, s₁, hreserve, hholds₁, hdrops₁, hroom₁, -⟩ := h.reserve hslots
  obtain ⟨c₂, r, evicted₂, s₂, fresh', hroot, hholds₂, hfresh, hdrops₂, hroom₂, hr, hitem⟩ :=
    hholds₁.root_spec hroom₁ (hdrops₁.slotsNum ▸ hslots) junk k.itemid
  have hdrops := hdrops₁.trans hdrops₂
  obtain ⟨dropped, hlru, hevicted⟩ := hdrops.lru
  have hrest : (content c s).drop dropped.length = content c₂ s₂ := by
    simp only [content, hlru, List.map_append]
    rw [List.drop_left' (by simp)]
    exact (List.map_congr_left hdrops.entries).symm
  have htake : evicted₁ ++ evicted₂ = ((content c s).take dropped.length).map Prod.fst := by
    simp only [content, hlru, List.map_append]
    rw [List.take_left' (by simp), hevicted, List.map_map]
    rfl
  cases hsearch : indexSearch c₂ k with
  | some i =>
      obtain ⟨hi, hkey⟩ := hholds₂.search_value hk hsearch
      have hadd : tfcIndexAdd c₂ { junk with key := k, state := .unknown } = some (c₂, i, []) := tfcIndexAdd_found hsearch
      have hknown : ¬ (c₂.slots i).state = .unknown := hholds₂.known i hi
      have hrvalues : s₂.values r ≠ [] := by
        intro hempty
        have hm := (hholds₂.valued.members r hr i).2 ⟨hi, by rw [hkey, hitem]⟩
        simp [hempty] at hm
      have hholds : Holds c₂ s₂ none := by
        refine ⟨hholds₂.placed, hholds₂.keyed, hholds₂.valued, fun r' hr' hempty => ?_, hholds₂.known⟩
        have hrr := hfresh r' (hholds₂.full r' hr' hempty)
        exact absurd (hrr ▸ hempty) hrvalues
      refine ⟨_, evicted₁ ++ evicted₂, s₂, dropped.length, ?_, hholds.setData (i := i) value hst,
        hdrops.slotsNum, htake, ?_⟩
      · simp only [tfcPutValue, hreserve, hroot, hadd, Option.bind_eq_bind, Option.bind_some, if_neg hknown, List.append_nil]
        rfl
      · rw [hrest]
        exact hholds₂.content_storeValue hi hkey value st
  | none =>
      obtain ⟨c₃, i, free, halloc, hadd⟩ := hholds₂.placed.insert hroom₂ { junk with key := k, state := .unknown } hsearch
      have hfilled := halloc.filled { junk with key := k, state := .unknown }
      set c₄ : Cache V := { setSlot c₃ i fun _ => { junk with key := k, state := .unknown } with index := i :: c₂.index } with hc₄
      have hunknown : (c₄.slots i).state = .unknown := congrArg Data.state hfilled.slot
      obtain ⟨-, hilru, -⟩ := hfilled.apart
      have hholds := hfilled.holds hholds₂ hr hitem hk hsearch hfresh value hst
      have hdata := hfilled.linked_data hholds₂ hr
      have hframe := (sameFrame_lruAppend c₄ i).trans (sameFrame_valueAppend _ r i)
      refine ⟨_, evicted₁ ++ evicted₂, withValue s₂ free r i, dropped.length, ?_, hholds, ?_, htake, ?_⟩
      · simp only [tfcPutValue, hreserve, hroot, hadd, Option.bind_eq_bind, Option.bind_some, if_pos hunknown, List.append_nil]
        rfl
      · exact hframe.slotsNum.trans (hfilled.frame.2.1.trans hdrops.slotsNum)
      · have hnone : ¬ k ∈ (content c₂ s₂).map Prod.fst := by
          rw [mem_content_key]
          rintro ⟨j, hj, hkey⟩
          exact hholds₂.placed.search_none.1 hsearch j (List.mem_append_left _ hj) hkey
        have hkey : ((linked c₄ r i).slots i).key = k :=
          (congrFun hdata.key i).trans (congrArg Data.key hfilled.slot)
        rw [hrest, putEntry, if_neg hnone, content, content, withValue, List.map_append]
        congr 1
        · apply List.map_congr_left
          intro j hj
          have hji : j ≠ i := fun e => hilru (e ▸ hj)
          have hlinked := hdata.entry j
          rw [entry, entry, hfilled.same j hji] at hlinked
          rw [entry, storeValue, slots_setSlot, if_neg hji]
          exact hlinked
        · simp [entry, storeValue, setSlot, hkey]

end

section

variable {before behind : List ℕ}

lemma Holds.touch (h : Holds c s none) (hlru : s.lru = before ++ i :: behind) :
    Holds (tfcLruAppend (tfcLruRemove c i) i) { s with lru := before ++ behind ++ [i] } none := by
  obtain ⟨hfree, hcircle⟩ := h.placed.lruRemove hlru
  have hapart := h.placed.lru_apart hlru
  have hnil : i ≠ uint32Max := fun e => hapart (e ▸ List.mem_cons_self)
  have hsame := (sameButUse_lruRemove c i).trans (sameButUse_lruAppend (tfcLruRemove c i) i)
  have hframe := (sameFrame_lruRemove c i).trans (sameFrame_lruAppend (tfcLruRemove c i) i)
  obtain ⟨hn, hp⟩ := lru_append_links (c := tfcLruRemove c i) hnil
  have hmem : ∀ j, j ∈ before ++ behind ++ [i] ↔ j ∈ s.lru := by
    intro j
    simp only [hlru, List.mem_append, List.mem_cons, List.not_mem_nil, or_false]
    tauto
  have hperm : (before ++ behind ++ [i]).Perm s.lru := by
    rw [hlru]
    exact (List.perm_append_singleton i _).trans List.perm_middle.symm
  have hmem' : ∀ j, j ∈ before ++ behind ++ [i] ++ s.roots ↔ j ∈ s.lru ++ s.roots := by
    intro j
    rw [List.mem_append, List.mem_append (s := s.lru), hmem]
  have hout : uint32Max ∉ before ++ behind := by
    intro hm
    apply h.placed.nil_not_mem
    apply List.mem_append_right
    apply List.mem_append_left
    exact (hmem _).1 (List.mem_append_left _ hm)
  have happend := hcircle.append hout hapart
  rw [← hn, ← hp] at happend
  refine ⟨?_, ?_, ?_, h.full, ?_⟩
  · refine ⟨?_, ?_, ?_, ?_, ?_, ?_, ?_, happend⟩
    · rw [hframe.freeSlot]
      exact ((hperm.append_right s.roots).append_left s.free).trans h.placed.slots
    · rw [hframe.freeSlot, hframe.slotsNum]
      exact h.placed.freeSlot_le
    · rw [hframe.slotsNum]
      exact h.placed.slotsNum_le
    · rw [hframe.slotsNum, hframe.indexSlots]
      exact h.placed.indexSlots
    · rw [hframe.index]
      exact h.placed.index.trans (hperm.append_right s.roots).symm
    · rw [hframe.itemsNum]
      exact h.placed.items
    · apply FreeList.congr hfree (sameFrame_lruAppend (tfcLruRemove c i) i).freeHead
      intro j hj
      have hjnil : j ≠ uint32Max := h.placed.ne_nil (List.mem_append_left _ hj)
      have hjlru : j ∉ s.lru := fun hm => h.placed.not_free (List.mem_append_left _ hm) hj
      have hji : j ≠ i := fun e => hjlru ((hmem j).1 (by simp [e]))
      have hjlast : j ≠ lruPrev (tfcLruRemove c i) uint32Max := by
        rintro rfl
        rcases List.mem_cons.1 hcircle.prev_head_mem with hm | hm
        · exact hjnil hm
        · exact hjlru ((hmem _).1 (List.mem_append_left _ hm))
      rw [← lruNext_eq (c := tfcLruAppend (tfcLruRemove c i) i) hjnil, hn, Function.update_of_ne hjlast,
        Function.update_of_ne hji, lruNext_eq hjnil]
  · rw [hsame.data.key]
    refine ⟨h.keyed.root, fun j hj => h.keyed.value j ((hmem j).1 hj), ?_, fun j hj => h.keyed.rooted j ((hmem j).1 hj)⟩
    exact fun a ha b hb => h.keyed.distinct a ((hmem' a).1 ha) b ((hmem' b).1 hb)
  · rw [hsame.data.key, hsame.values.1, hsame.values.2]
    refine ⟨h.valued.circle, fun r hr j => ?_, h.valued.nodup⟩
    rw [h.valued.members r hr j, ← hmem j]
  · rw [hsame.data.state]
    exact fun j hj => h.known j ((hmem j).1 hj)

def cached (k : Key) (entries : List (Key × V × TrendState)) : Option (V × TrendState) :=
  (entries.find? fun e => e.1 = k).map Prod.snd

def getEntry (k : Key) (entries : List (Key × V × TrendState)) : List (Key × V × TrendState) :=
  entries.filter (fun e => e.1 ≠ k) ++ entries.filter fun e => e.1 = k

lemma Holds.content_distinct (h : Holds c s fresh) : ((content c s).map Prod.fst).Nodup := by
  rw [content, List.map_map]
  apply List.Nodup.map_on _ (List.nodup_append.1 h.placed.lru_nodup).1
  intro a ha b hb heq
  exact h.keyed.distinct a (List.mem_append_left _ ha) b (List.mem_append_left _ hb) heq

lemma Holds.get (h : Holds c s none) (hk : k ≠ reserved k.itemid) :
    ∃ s', Holds (tfcGetValue c k).1 s' none ∧ (tfcGetValue c k).1.slotsNum = c.slotsNum ∧
      (tfcGetValue c k).2 = cached k (content c s) ∧ content (tfcGetValue c k).1 s' = getEntry k (content c s) := by
  cases hsearch : indexSearch c k with
  | none =>
      have hnone : ∀ j ∈ s.lru, ¬ (c.slots j).key = k :=
        fun j hj => h.placed.search_none.1 hsearch j (List.mem_append_left _ hj)
      have hkeys : ∀ e ∈ content c s, ¬ e.1 = k := by
        intro e he
        obtain ⟨j, hj, rfl⟩ := List.mem_map.1 he
        exact hnone j hj
      have hplaced := h.placed
      refine ⟨s, ?_, by simp [tfcGetValue, hsearch], ?_, ?_⟩
      · simp only [tfcGetValue, hsearch]
        exact ⟨⟨hplaced.slots, hplaced.freeSlot_le, hplaced.slotsNum_le, hplaced.indexSlots, hplaced.index, hplaced.items,
          hplaced.free, hplaced.lru⟩, h.keyed, h.valued, h.full, h.known⟩
      · have hfind : (content c s).find? (fun e => e.1 = k) = none := by
          simpa [List.find?_eq_none] using hkeys
        simp [tfcGetValue, hsearch, cached, hfind]
      · simp only [tfcGetValue, hsearch, getEntry]
        rw [List.filter_eq_self.2 (by simpa using hkeys), List.filter_eq_nil_iff.2 (by simpa using hkeys), List.append_nil]
        rfl
  | some i =>
      obtain ⟨hi, hkey⟩ := h.search_value hk hsearch
      have hikey : (c.slots i).key = k := hkey
      obtain ⟨before, behind, hlru⟩ := List.append_of_mem hi
      have htouch := h.touch hlru
      have hsame := (sameButUse_lruRemove c i).trans (sameButUse_lruAppend (tfcLruRemove c i) i)
      have hframe := (sameFrame_lruRemove c i).trans (sameFrame_lruAppend (tfcLruRemove c i) i)
      have hentry := hsame.data.entry
      have hother : ∀ j ∈ before ++ behind, ¬ (c.slots j).key = k := by
        intro j hj e
        have hapart := h.placed.lru_apart hlru
        have hjlru : j ∈ s.lru := by
          rw [hlru]
          rcases List.mem_append.1 hj with hj | hj
          · exact List.mem_append_left _ hj
          · exact List.mem_append_right _ (List.mem_cons_of_mem _ hj)
        have hji : j = i := by
          apply h.keyed.distinct j (List.mem_append_left _ hjlru) i (List.mem_append_left _ hi)
          rw [hkey]
          exact e
        exact hapart (hji ▸ List.mem_cons_of_mem _ hj)
      have hcontent : content c s = before.map (entry c) ++ entry c i :: behind.map (entry c) := by simp [content, hlru]
      have hkeys : ∀ e ∈ (before ++ behind).map (entry c), ¬ e.1 = k := by
        intro e he
        obtain ⟨j, hj, rfl⟩ := List.mem_map.1 he
        exact hother j hj
      rw [List.map_append] at hkeys
      have hbefore : ∀ e ∈ before.map (entry c), ¬ e.1 = k := fun e he => hkeys e (List.mem_append_left _ he)
      have hbehind : ∀ e ∈ behind.map (entry c), ¬ e.1 = k := fun e he => hkeys e (List.mem_append_right _ he)
      have hik : (entry c i).1 = k := hikey
      refine ⟨{ s with lru := before ++ behind ++ [i] }, ?_, ?_, ?_, ?_⟩
      · simp only [tfcGetValue, hsearch]
        have hplaced := htouch.placed
        exact ⟨⟨hplaced.slots, hplaced.freeSlot_le, hplaced.slotsNum_le, hplaced.indexSlots, hplaced.index, hplaced.items,
          hplaced.free, hplaced.lru⟩, htouch.keyed, htouch.valued, htouch.full, htouch.known⟩
      · simp only [tfcGetValue, hsearch]
        exact hframe.slotsNum
      · have hfind : (content c s).find? (fun e => e.1 = k) = some (entry c i) := by
          rw [hcontent, List.find?_append, List.find?_eq_none.2 (by simpa using hbefore), Option.none_or,
            List.find?_cons_of_pos (by simpa using hik)]
        have hvalue := congrArg Prod.snd (hentry i)
        simp only [tfcGetValue, hsearch, cached, hfind, Option.map_some]
        exact congrArg some hvalue
      · have hfilter : (content c s).filter (fun e => e.1 ≠ k) = (before ++ behind).map (entry c) := by
          rw [hcontent, List.filter_append, List.filter_cons_of_neg (by simpa using hik),
            List.filter_eq_self.2 (by simpa using hbefore), List.filter_eq_self.2 (by simpa using hbehind), List.map_append]
        have hfilter' : (content c s).filter (fun e => e.1 = k) = [entry c i] := by
          rw [hcontent, List.filter_append, List.filter_cons_of_pos (by simpa using hik),
            List.filter_eq_nil_iff.2 (by simpa using hbefore), List.filter_eq_nil_iff.2 (by simpa using hbehind),
            List.nil_append]
        simp only [tfcGetValue, hsearch, getEntry]
        rw [hfilter, hfilter', ← List.map_singleton (f := entry c), ← List.map_append, content]
        apply List.map_congr_left
        intro j _
        exact hentry j

end

section

inductive Call (V : Type) where
  | put (key : Key) (value : V) (state : TrendState) (junk : Data V)
  | get (key : Key)

inductive Event (V : Type) where
  | evicted (key : Key)
  | put (key : Key) (value : V) (state : TrendState)
  | got (key : Key) (answer : Option (V × TrendState))

def step (c : Cache V) : Call V → Option (Cache V × List (Event V))
  | .put key value state junk => do
    let (c, evicted) ← tfcPutValue c key value state junk
    return (c, evicted.map Event.evicted ++ [.put key value state])
  | .get key => some ((tfcGetValue c key).1, [.got key (tfcGetValue c key).2])

def run (c : Cache V) : List (Call V) → Option (Cache V × List (Event V))
  | [] => some (c, [])
  | call :: calls => do
    let (c, events) ← step c call
    let (c, events') ← run c calls
    return (c, events ++ events')

def Call.Valid : Call V → Prop
  | .put key _ state _ => key ≠ reserved key.itemid ∧ state ≠ .unknown
  | .get key => key ≠ reserved key.itemid

def lastPut (k : Key) (events : List (Event V)) : Option (V × TrendState) :=
  events.foldl (fun last event => match event with
    | .evicted key => if key = k then none else last
    | .put key value state => if key = k then some (value, state) else last
    | .got _ _ => last) none

lemma lastPut_evicted (events : List (Event V)) (keys : List Key) :
    lastPut k (events ++ keys.map Event.evicted) = if k ∈ keys then none else lastPut k events := by
  induction keys generalizing events with
  | nil => simp
  | cons key keys ih =>
      rw [List.map_cons, List.append_cons, ih]
      by_cases hkey : key = k
      · simp [lastPut, List.foldl_append, hkey]
      · simp [lastPut, List.foldl_append, hkey, Ne.symm hkey]

lemma lastPut_put (events : List (Event V)) (key : Key) (value : V) (st : TrendState) :
    lastPut k (events ++ [.put key value st]) = if key = k then some (value, st) else lastPut k events := by
  simp [lastPut, List.foldl_append]

lemma lastPut_got (events : List (Event V)) (key : Key) (answer : Option (V × TrendState)) :
    lastPut k (events ++ [.got key answer]) = lastPut k events := by
  simp [lastPut, List.foldl_append]

variable {entries : List (Key × V × TrendState)}

lemma cached_eq_none (h : k ∉ entries.map Prod.fst) : cached k entries = none := by
  rw [cached, List.find?_eq_none.2, Option.map_none]
  intro e he heq
  exact h (List.mem_map.2 ⟨e, he, by simpa using heq⟩)

lemma cached_append (entries entries' : List (Key × V × TrendState)) :
    cached k (entries ++ entries') = (cached k entries).or (cached k entries') := by
  simp only [cached, List.find?_append]
  cases List.find? (fun e => decide (e.1 = k)) entries <;> rfl

lemma cached_drop (h : (entries.map Prod.fst).Nodup) (n : ℕ) :
    cached k (entries.drop n) = if k ∈ (entries.take n).map Prod.fst then none else cached k entries := by
  have hsplit : cached k entries = (cached k (entries.take n)).or (cached k (entries.drop n)) := by
    rw [← cached_append, List.take_append_drop]
  split
  · rename_i hmem
    apply cached_eq_none
    rw [← List.take_append_drop n entries, List.map_append] at h
    exact fun hm => (List.nodup_append.1 h).2.2 k hmem k hm rfl
  · rename_i hmem
    rw [hsplit, cached_eq_none hmem, Option.none_or]

lemma cached_cons (e : Key × V × TrendState) (entries : List (Key × V × TrendState)) :
    cached k (e :: entries) = if e.1 = k then some e.2 else cached k entries := by
  by_cases he : e.1 = k <;> simp [cached, he]

lemma cached_written (value : V) (st : TrendState) (hmem : k ∈ entries.map Prod.fst) :
    cached k (entries.map fun e => if e.1 = k then (k, value, st) else e) = some (value, st) := by
  induction entries with
  | nil => simp at hmem
  | cons e entries ih =>
      rw [List.map_cons, cached_cons]
      by_cases he : e.1 = k
      · simp [he]
      · have hmem' : k ∈ entries.map Prod.fst := by
          rw [List.map_cons] at hmem
          exact List.mem_of_ne_of_mem (Ne.symm he) hmem
        rw [if_neg he, if_neg he, ih hmem']

lemma cached_not_written {key : Key} (hkey : key ≠ k) (value : V) (st : TrendState) :
    cached k (entries.map fun e => if e.1 = key then (key, value, st) else e) = cached k entries := by
  induction entries with
  | nil => rfl
  | cons e entries ih =>
      rw [List.map_cons, cached_cons, cached_cons, ih]
      by_cases he : e.1 = key
      · rw [if_pos he, if_neg hkey, if_neg (he.trans_ne hkey)]
      · rw [if_neg he]

lemma cached_putEntry (key : Key) (value : V) (st : TrendState) :
    cached k (putEntry key value st entries) = if key = k then some (value, st) else cached k entries := by
  rw [putEntry]
  by_cases hmem : key ∈ entries.map Prod.fst
  · rw [if_pos hmem]
    by_cases hkey : key = k
    · subst hkey
      rw [if_pos rfl, cached_written value st hmem]
    · rw [if_neg hkey, cached_not_written hkey]
  · rw [if_neg hmem, cached_append, cached_cons]
    by_cases hkey : key = k
    · subst hkey
      rw [cached_eq_none hmem, if_pos rfl, if_pos rfl, Option.none_or]
    · rw [if_neg hkey, if_neg hkey]
      simp [cached]

lemma cached_filter (p : Key → Bool) :
    cached k (entries.filter fun e => p e.1) = if p k then cached k entries else none := by
  induction entries with
  | nil => simp [cached]
  | cons e entries ih =>
      rw [cached_cons]
      by_cases he : e.1 = k
      · subst he
        cases hp : p e.1 with
        | true => simp [hp, cached_cons]
        | false => simpa [hp] using ih
      · rw [if_neg he]
        cases hp : p e.1 with
        | true => simpa [hp, cached_cons, he] using ih
        | false => simpa [hp] using ih

lemma cached_getEntry (key : Key) : cached k (getEntry key entries) = cached k entries := by
  rw [getEntry, cached_append, cached_filter (fun k => decide (k ≠ key)), cached_filter (fun k => decide (k = key))]
  by_cases hkey : k = key <;> simp [hkey]

def Event.evictedKey : Event V → Option Key
  | .evicted key => some key
  | _ => none

lemma evictedKey_put (keys : List Key) (key : Key) (value : V) (st : TrendState) :
    (keys.map Event.evicted ++ [Event.put key value st]).filterMap Event.evictedKey = keys := by
  induction keys with
  | nil => rfl
  | cons k keys ih => simpa [Event.evictedKey] using ih

structure Tracks (c : Cache V) (s : Shape) (slotsNum : ℕ) (events : List (Event V)) : Prop where
  holds : Holds c s none
  slotsNum : c.slotsNum = slotsNum
  last : ∀ k, cached k (content c s) = lastPut k events

structure Called (c : Cache V) (s : Shape) (events new : List (Event V)) : Prop where
  evicted : ∃ n, new.filterMap Event.evictedKey = ((content c s).take n).map Prod.fst
  answer : ∀ key answer, .got key answer ∈ new → answer = lastPut key events

variable {slotsNum : ℕ} {events : List (Event V)}

lemma Tracks.init (slots : ℕ → Data V) (hmax : slotsNum ≤ uint32Max) :
    Tracks (tfcInit slots slotsNum) ⟨[], [], [], fun _ => []⟩ slotsNum [] := by
  refine ⟨⟨⟨?_, ?_, hmax, ?_, ?_, rfl, ?_, ?_⟩, ⟨?_, ?_, ?_, ?_⟩, ⟨?_, ?_, ?_⟩, ?_, ?_⟩, rfl, fun k => rfl⟩
  · exact .refl _
  · exact Nat.zero_le _
  · exact (Algo.nextPrime_spec _).1
  · exact .refl _
  · simp [FreeList, Lib.Linked.Chain, link, tfcInit]
  · simp [Lib.Circular.Circle, Lib.Circular.Joined, lruNext, lruPrev, tfcInit]
  all_goals simp

lemma Tracks.step (h : Tracks c s slotsNum events) (hslots : 2 ≤ slotsNum) {call : Call V} (hvalid : call.Valid) :
    ∃ c' new s', step c call = some (c', new) ∧ Tracks c' s' slotsNum (events ++ new) ∧ Called c s events new := by
  cases call with
  | put key value st junk =>
      obtain ⟨hkey, hst⟩ := hvalid
      obtain ⟨c', evicted, s', n, hput, hholds, hnum, hevicted, hcontent⟩ :=
        h.holds.put (h.slotsNum ▸ hslots) hkey value hst junk
      refine ⟨c', evicted.map Event.evicted ++ [.put key value st], s', ?_, ⟨hholds, hnum.trans h.slotsNum, fun k => ?_⟩,
        ⟨n, ?_⟩, ?_⟩
      · rw [Trends.step, hput]
        rfl
      · rw [hcontent, cached_putEntry, cached_drop h.holds.content_distinct, ← hevicted, h.last, ← List.append_assoc,
          lastPut_put, lastPut_evicted]
      · rw [evictedKey_put, hevicted]
      · intro k answer hm
        simp at hm
  | get key =>
      obtain ⟨s', hholds, hnum, hanswer, hcontent⟩ := h.holds.get hvalid
      refine ⟨(tfcGetValue c key).1, [.got key (tfcGetValue c key).2], s', rfl, ⟨hholds, hnum.trans h.slotsNum, fun k => ?_⟩,
        ⟨0, rfl⟩, ?_⟩
      · rw [hcontent, cached_getEntry, h.last, lastPut_got]
      · intro k answer hm
        simp only [List.mem_singleton, Event.got.injEq] at hm
        obtain ⟨rfl, rfl⟩ := hm
        rw [hanswer, h.last]

lemma Tracks.run (h : Tracks c s slotsNum events) (hslots : 2 ≤ slotsNum) {calls : List (Call V)}
    (hvalid : ∀ call ∈ calls, call.Valid) :
    ∃ c' new s', run c calls = some (c', new) ∧ Tracks c' s' slotsNum (events ++ new) := by
  induction calls generalizing c s events with
  | nil => exact ⟨c, [], s, rfl, by simpa using h⟩
  | cons call calls ih =>
      obtain ⟨c₁, new₁, s₁, hstep, h₁, -⟩ := h.step hslots (hvalid call List.mem_cons_self)
      obtain ⟨c₂, new₂, s₂, hrun, h₂⟩ := ih h₁ fun call' hcall => hvalid call' (List.mem_cons_of_mem _ hcall)
      refine ⟨c₂, new₁ ++ new₂, s₂, ?_, by rwa [← List.append_assoc]⟩
      simp [Trends.run, hstep, hrun]

theorem cache_runs (slots : ℕ → Data V) (hslots : 2 ≤ slotsNum) (hmax : slotsNum ≤ uint32Max) (calls : List (Call V))
    (hvalid : ∀ call ∈ calls, call.Valid) :
    ∃ c events s, run (tfcInit slots slotsNum) calls = some (c, events) ∧ Holds c s none ∧
      c.itemsNum = s.roots.length ∧ c.index.length - c.itemsNum = s.lru.length ∧
      ∀ call : Call V, call.Valid → ∃ c' new, step c call = some (c', new) ∧ Called c s events new := by
  obtain ⟨c, events, s, hrun, htracks⟩ := (Tracks.init slots hmax).run hslots hvalid
  rw [List.nil_append] at htracks
  have hplaced := htracks.holds.placed
  refine ⟨c, events, s, hrun, htracks.holds, hplaced.items, ?_, fun call hcall => ?_⟩
  · rw [hplaced.index.length_eq, hplaced.items, List.length_append, Nat.add_sub_cancel_right]
  · obtain ⟨c', new, s', hstep, -, hcalled⟩ := htracks.step hslots hcall
    exact ⟨c', new, hstep, hcalled⟩

def blank : Data ℕ := ⟨⟨0, 0, 0, .unknown⟩, .unknown, 0, 0, 0, 0, 0⟩

def sixCalls : List (Call ℕ) :=
  [.put ⟨1, 10, 20, .avg⟩ 5 .normal blank, .put ⟨1, 10, 20, .max⟩ 9 .normal blank, .get ⟨1, 10, 20, .avg⟩,
    .put ⟨2, 10, 20, .avg⟩ 7 .nodata blank, .get ⟨1, 10, 20, .max⟩, .get ⟨1, 10, 20, .avg⟩]

/-- The maximum was used the longest ago when the second item needed room. -/
theorem sixCalls_run : ∃ c events s, run (tfcInit (fun _ => blank) 4) sixCalls = some (c, events) ∧
    (c.hits = 2 ∧ c.misses = 1 ∧ events.filterMap Event.evictedKey = [⟨1, 10, 20, .max⟩]) ∧ Holds c s none ∧
    c.itemsNum = s.roots.length ∧ c.index.length - c.itemsNum = s.lru.length ∧
    ∀ call : Call ℕ, call.Valid → ∃ c' new, step c call = some (c', new) ∧ Called c s events new := by
  have hseen : (run (tfcInit (fun _ => blank) 4) sixCalls).map
      (fun result => (result.1.hits, result.1.misses, result.2.filterMap Event.evictedKey)) =
        some (2, 1, [⟨1, 10, 20, .max⟩]) := by
    decide +kernel
  obtain ⟨c, events, s, hrun, hholds⟩ :=
    cache_runs (fun _ => blank) (by decide : 2 ≤ 4) (by decide) sixCalls (by simp [sixCalls, Call.Valid, reserved])
  rw [hrun] at hseen
  exact ⟨c, events, s, hrun, by simpa using hseen, hholds⟩

theorem root_asked_for : ∃ c events,
    run (tfcInit (fun _ => blank) 2) [.put ⟨1, 10, 20, .avg⟩ 5 .normal blank, .get (reserved 1)] = some (c, events) ∧
      ¬ ∃ s, Holds c s none := by
  have htail : (run (tfcInit (fun _ => blank) 2) [.put ⟨1, 10, 20, .avg⟩ 5 .normal blank, .get (reserved 1)]).map
      (fun result => (lruPrev result.1 uint32Max, key result.1 0)) = some (0, reserved 1) := by
    decide +kernel
  obtain ⟨⟨c, events⟩, hrun, hresult⟩ := Option.map_eq_some_iff.1 htail
  refine ⟨c, events, hrun, ?_⟩
  rintro ⟨s, hholds⟩
  obtain ⟨hlast, hkey⟩ := Prod.mk.inj hresult
  have hmem := hholds.placed.lru.prev_head_mem
  rw [hlast] at hmem
  rcases List.mem_cons.1 hmem with hzero | hmem
  · exact absurd hzero (by decide)
  · exact hholds.keyed.value 0 hmem (by rw [hkey]; rfl)

end

end Glaber.Trends
