import Glaber.Trends.Cache

namespace Glaber.Trends

open Lib.Circular Lib.Linked

variable {V : Type} {c c' c'' : Cache V} {s : Shape} {fresh : Option ℕ} {i j : ℕ}

section

structure SameFrame (c c' : Cache V) : Prop where
  index : c'.index = c.index
  indexSlots : c'.indexSlots = c.indexSlots
  slotsNum : c'.slotsNum = c.slotsNum
  freeSlot : c'.freeSlot = c.freeSlot
  freeHead : c'.freeHead = c.freeHead
  itemsNum : c'.itemsNum = c.itemsNum

lemma SameFrame.trans (h : SameFrame c c') (h' : SameFrame c' c'') : SameFrame c c'' :=
  ⟨h'.index.trans h.index, h'.indexSlots.trans h.indexSlots, h'.slotsNum.trans h.slotsNum, h'.freeSlot.trans h.freeSlot,
    h'.freeHead.trans h.freeHead, h'.itemsNum.trans h.itemsNum⟩

lemma sameFrame_setLruNext (c : Cache V) (i v : ℕ) : SameFrame c (setLruNext c i v) := by
  unfold setLruNext
  split_ifs <;> exact ⟨rfl, rfl, rfl, rfl, rfl, rfl⟩

lemma sameFrame_setLruPrev (c : Cache V) (i v : ℕ) : SameFrame c (setLruPrev c i v) := by
  unfold setLruPrev
  split_ifs <;> exact ⟨rfl, rfl, rfl, rfl, rfl, rfl⟩

lemma sameFrame_lruRemove (c : Cache V) (i : ℕ) : SameFrame c (tfcLruRemove c i) :=
  (sameFrame_setLruNext c _ _).trans (sameFrame_setLruPrev _ _ _)

lemma sameFrame_lruAppend (c : Cache V) (i : ℕ) : SameFrame c (tfcLruAppend c i) := by
  have hset : SameFrame c (setSlot c i fun d => { d with prev := c.lruTail, next := uint32Max }) := ⟨rfl, rfl, rfl, rfl, rfl, rfl⟩
  have hnext := hset.trans (sameFrame_setLruNext _ c.lruTail i)
  exact ⟨hnext.index, hnext.indexSlots, hnext.slotsNum, hnext.freeSlot, hnext.freeHead, hnext.itemsNum⟩

lemma sameFrame_valueRemove (c : Cache V) (i : ℕ) : SameFrame c (tfcValueRemove c i) := ⟨rfl, rfl, rfl, rfl, rfl, rfl⟩

lemma sameFrame_valueAppend (c : Cache V) (root i : ℕ) : SameFrame c (tfcValueAppend c root i) := by
  unfold tfcValueAppend
  split_ifs <;> exact ⟨rfl, rfl, rfl, rfl, rfl, rfl⟩

structure SameData (c c' : Cache V) : Prop where
  key : key c' = key c
  state : state c' = state c
  value : ∀ j, (c'.slots j).value = (c.slots j).value

lemma SameData.trans (h : SameData c c') (h' : SameData c' c'') : SameData c c'' :=
  ⟨h'.key.trans h.key, h'.state.trans h.state, fun j => (h'.value j).trans (h.value j)⟩

lemma SameButUse.field (h : SameButUse c c') {β : Type} (f : Data V → β)
    (hf : ∀ d : Data V, f { d with prev := 0, next := 0 } = f d) (j : ℕ) : f (c'.slots j) = f (c.slots j) :=
  (hf _).symm.trans ((congrArg f (h j)).trans (hf _))

lemma SameButValues.field (h : SameButValues c c') {β : Type} (f : Data V → β)
    (hf : ∀ d : Data V, f { d with prevValue := 0, nextValue := 0 } = f d) (j : ℕ) : f (c'.slots j) = f (c.slots j) :=
  (hf _).symm.trans ((congrArg f (h j)).trans (hf _))

lemma SameButUse.data (h : SameButUse c c') : SameData c c' :=
  ⟨funext (h.field Data.key fun _ => rfl), funext (h.field Data.state fun _ => rfl), h.field Data.value fun _ => rfl⟩

lemma SameButUse.values (h : SameButUse c c') : nextValue c' = nextValue c ∧ prevValue c' = prevValue c :=
  ⟨funext (h.field Data.nextValue fun _ => rfl), funext (h.field Data.prevValue fun _ => rfl)⟩

lemma SameButValues.data (h : SameButValues c c') : SameData c c' :=
  ⟨funext (h.field Data.key fun _ => rfl), funext (h.field Data.state fun _ => rfl), h.field Data.value fun _ => rfl⟩

lemma SameButValues.next (h : SameButValues c c') (j : ℕ) : (c'.slots j).next = (c.slots j).next :=
  h.field Data.next (fun _ => rfl) j

lemma SameButValues.prev (h : SameButValues c c') (j : ℕ) : (c'.slots j).prev = (c.slots j).prev :=
  h.field Data.prev (fun _ => rfl) j

lemma lruNext_eq (hi : i ≠ uint32Max) : lruNext c i = (c.slots i).next := if_neg hi

lemma FreeList.congr {free : List ℕ} (h : FreeList c free) (hhead : c'.freeHead = c.freeHead)
    (hnext : ∀ j ∈ free, (c'.slots j).next = (c.slots j).next) : FreeList c' free := by
  rw [FreeList, hhead]
  exact Chain.congr h fun j hj => by rw [hnext j hj]

lemma FreeList.push {free : List ℕ} (h : FreeList c free) (hi : i ∉ free) (hnil : i ≠ uint32Max) :
    FreeList (tfcFreeSlot c i) (i :: free) := by
  refine ⟨by simp [link, tfcFreeSlot, hnil], (tfcFreeSlot c i |>.slots i).next, rfl, ?_⟩
  have hnext : ((tfcFreeSlot c i).slots i).next = c.freeHead := by simp [tfcFreeSlot, setSlot]
  rw [hnext]
  apply Chain.congr h
  intro j hj
  have hne : j ≠ i := fun e => hi (e ▸ hj)
  simp [tfcFreeSlot, setSlot, hne]

lemma lru_freeSlot (hne : j ≠ i) :
    lruNext (tfcFreeSlot c i) j = lruNext c j ∧ lruPrev (tfcFreeSlot c i) j = lruPrev c j := by
  simp [lruNext, lruPrev, tfcFreeSlot, setSlot, hne]

end

section

variable {lru before behind : List ℕ}

lemma Placed.mem_lru (hlru : s.lru = before ++ i :: behind) : i ∈ s.lru := by simp [hlru]

lemma Placed.lru_apart (h : Placed c s) (hlru : s.lru = before ++ i :: behind) : i ∉ uint32Max :: (before ++ behind) := by
  have hnodup := (List.nodup_append.1 h.lru_nodup).1
  have hnil := h.ne_nil (List.mem_append_right _ (List.mem_append_left _ (Placed.mem_lru hlru)))
  rw [hlru, List.nodup_middle, List.nodup_cons] at hnodup
  simp only [List.mem_cons, not_or]
  exact ⟨hnil, hnodup.1⟩

lemma Placed.lruRemove (h : Placed c s) (hlru : s.lru = before ++ i :: behind) :
    FreeList (tfcLruRemove c i) s.free ∧
      Circle (lruNext (tfcLruRemove c i)) (lruPrev (tfcLruRemove c i)) uint32Max (before ++ behind) := by
  have hcircle := h.lru
  rw [hlru] at hcircle
  have hapart := h.lru_apart hlru
  have hnil : i ≠ uint32Max := fun e => hapart (e ▸ List.mem_cons_self)
  have hprev := hcircle.prev_mem
  have hne : lruPrev c i ≠ i := by
    intro e
    rw [e] at hprev
    apply hapart
    rcases List.mem_cons.1 hprev with hp | hp
    · exact hp ▸ List.mem_cons_self
    · exact List.mem_cons_of_mem _ (List.mem_append_left _ hp)
  obtain ⟨hn, hp⟩ := lru_remove_links hnil hne
  constructor
  · apply FreeList.congr h.free (sameFrame_lruRemove c i).freeHead
    intro j hj
    have hjnil : j ≠ uint32Max := h.ne_nil (List.mem_append_left _ hj)
    have hjne : j ≠ lruPrev c i := by
      rintro rfl
      rcases List.mem_cons.1 hprev with hq | hq
      · exact hjnil hq
      · exact h.not_free (List.mem_append_left _ (by simp [hlru, hq])) hj
    rw [← lruNext_eq (c := tfcLruRemove c i) hjnil, hn, Function.update_of_ne hjne, lruNext_eq hjnil]
  · rw [hn, hp]
    exact hcircle.remove hapart

lemma Holds.cut (h : Holds c s fresh) {r : ℕ} (hr : r ∈ s.roots) (hlru : s.lru = i :: lru)
    (hvalues : s.values r = before ++ i :: behind) :
    SameFrame c (tfcValueRemove (tfcLruRemove c i) i) ∧ SameData c (tfcValueRemove (tfcLruRemove c i) i) ∧
      FreeList (tfcValueRemove (tfcLruRemove c i) i) s.free ∧
      Circle (lruNext (tfcValueRemove (tfcLruRemove c i) i)) (lruPrev (tfcValueRemove (tfcLruRemove c i) i)) uint32Max lru ∧
      nextValue (tfcValueRemove (tfcLruRemove c i) i) = Function.update (nextValue c) (prevValue c i) (nextValue c i) ∧
      prevValue (tfcValueRemove (tfcLruRemove c i) i) = Function.update (prevValue c) (nextValue c i) (prevValue c i) := by
  have huse := sameButUse_lruRemove c i
  obtain ⟨hnv, hpv⟩ := huse.values
  have hlru' : s.lru = [] ++ i :: lru := hlru
  obtain ⟨hfree, hcircle⟩ := h.placed.lruRemove hlru'
  have hr_circle := h.valued.circle r hr
  rw [hvalues] at hr_circle
  have hne : prevValue (tfcLruRemove c i) i ≠ i := by
    rw [hpv]
    intro e
    have hmem := hr_circle.prev_mem
    rw [e] at hmem
    rcases List.mem_cons.1 hmem with rfl | hmem
    · exact h.placed.not_root (by simp [hlru]) hr
    · have hnodup := h.valued.nodup r hr
      rw [hvalues, List.nodup_middle, List.nodup_cons] at hnodup
      exact hnodup.1 (List.mem_append_left _ hmem)
  obtain ⟨hn, hp, hsame⟩ := value_remove_links hne
  refine ⟨(sameFrame_lruRemove c i).trans (sameFrame_valueRemove _ i), huse.data.trans hsame.data, ?_, ?_, ?_, ?_⟩
  · exact FreeList.congr hfree rfl fun j _ => hsame.next j
  · apply Circle.congr hcircle
    · intro j _
      simp only [lruNext, hsame.next j]
      rfl
    · intro j _
      simp only [lruPrev, hsame.prev j]
      rfl
  · rw [hn, hnv, hpv]
  · rw [hp, hnv, hpv]

lemma sameData_indexRemove (c : Cache V) (i : ℕ) : SameData c (indexRemove c i) := by
  have h := sameButUse_freeSlot { c with index := c.index.erase i } i
  exact ⟨h.data.key, h.data.state, h.data.value⟩

lemma values_indexRemove (c : Cache V) (i : ℕ) :
    nextValue (indexRemove c i) = nextValue c ∧ prevValue (indexRemove c i) = prevValue c :=
  (sameButUse_freeSlot { c with index := c.index.erase i } i).values

lemma indexRemove_lists {free : List ℕ} (hfree : FreeList c free) (hi : i ∉ free) (hnil : i ≠ uint32Max)
    (hlru : Circle (lruNext c) (lruPrev c) uint32Max lru) (hilru : i ∉ lru) :
    FreeList (indexRemove c i) (i :: free) ∧ Circle (lruNext (indexRemove c i)) (lruPrev (indexRemove c i)) uint32Max lru := by
  constructor
  · exact FreeList.push (c := { c with index := c.index.erase i }) hfree hi hnil
  · have hne : ∀ j ∈ uint32Max :: lru, j ≠ i := by
      intro j hj e
      rcases List.mem_cons.1 hj with rfl | hj
      · exact hnil e.symm
      · exact hilru (e ▸ hj)
    have hlinks := fun j hj => lru_freeSlot (c := { c with index := c.index.erase i }) (hne j hj)
    exact Circle.congr hlru (fun j hj => (hlinks j hj).1) fun j hj => (hlinks j hj).2

structure Evicted (c c' : Cache V) (s s' : Shape) (lru : List ℕ) : Prop where
  data : SameData c c'
  slotsNum : c'.slotsNum = c.slotsNum
  freeSlot : c'.freeSlot = c.freeSlot
  lru : s'.lru = lru
  free : s'.free ≠ []

/-- What `tfcFreeData` leaves, but for the index and the circles of the items. -/
structure Freed (c c' : Cache V) (free lru : List ℕ) : Prop where
  data : SameData c c'
  slotsNum : c'.slotsNum = c.slotsNum
  freeSlot : c'.freeSlot = c.freeSlot
  indexSlots : c'.indexSlots = c.indexSlots
  free : FreeList c' free
  lru : Circle (lruNext c') (lruPrev c') uint32Max lru

lemma Freed.placed {free roots : List ℕ} (hc : Freed c c' free lru) (h : Placed c s) (values : ℕ → List ℕ)
    (hslots : (free ++ (lru ++ roots)).Perm (s.free ++ (s.lru ++ s.roots))) (hindex : c'.index.Perm (lru ++ roots))
    (hitems : c'.itemsNum = roots.length) : Placed c' ⟨free, lru, roots, values⟩ := by
  refine ⟨?_, ?_, ?_, ?_, hindex, hitems, hc.free, hc.lru⟩
  · rw [hc.freeSlot]
    exact hslots.trans h.slots
  · rw [hc.slotsNum, hc.freeSlot]
    exact h.freeSlot_le
  · rw [hc.slotsNum]
    exact h.slotsNum_le
  · rw [hc.slotsNum, hc.indexSlots]
    exact h.indexSlots

lemma Placed.of_mem_erase (h : Placed c s) {r : ℕ} : ∀ r' ∈ s.roots.erase r, r' ∈ s.roots ∧ r' ≠ r :=
  fun _ hr' => ((List.nodup_append.1 h.lru_nodup).2.1.mem_erase_iff.1 hr').symm

lemma Keyed.mono {key : ℕ → Key} (h : Keyed key s) (hlru : ∀ j ∈ s'.lru, j ∈ s.lru) (hroots : ∀ r ∈ s'.roots, r ∈ s.roots)
    (hrooted : ∀ j ∈ s'.lru, ∃ r ∈ s'.roots, (key r).itemid = (key j).itemid) : Keyed key s' := by
  have hall : ∀ x ∈ s'.lru ++ s'.roots, x ∈ s.lru ++ s.roots := by
    intro x hx
    rcases List.mem_append.1 hx with hx | hx
    · exact List.mem_append_left _ (hlru x hx)
    · exact List.mem_append_right _ (hroots x hx)
  exact ⟨fun r hr => h.root r (hroots r hr), fun j hj => h.value j (hlru j hj),
    fun a ha b hb => h.distinct a (hall a ha) b (hall b hb), hrooted⟩

section

variable {r : ℕ} (h : Holds c s fresh) (hr : r ∈ s.roots) (hlru : s.lru = i :: lru)

include h hlru

lemma Holds.not_tail : i ∉ lru := by
  have hnodup := (List.nodup_append.1 h.placed.lru_nodup).1
  rw [hlru, List.nodup_cons] at hnodup
  exact hnodup.1

include hr

lemma Holds.root_apart : r ∉ i :: lru := fun hm => h.placed.not_root (hlru ▸ hm) hr

variable (hvalues : s.values r = [i])

include hvalues

lemma Holds.free_alone : Freed c (tfcFreeData c i) (i :: r :: s.free) lru ∧
    (tfcFreeData c i).index = (c.index.erase r).erase i ∧ (tfcFreeData c i).itemsNum = c.itemsNum - 1 ∧
      nextValue (tfcFreeData c i) = Function.update (nextValue c) r r ∧
        prevValue (tfcFreeData c i) = Function.update (prevValue c) r r := by
  have hvalues' : s.values r = [] ++ i :: [] := hvalues
  obtain ⟨hframe, hdata, hfree, hcircle, hn, hp⟩ := h.cut hr hlru hvalues'
  set c₂ := tfcValueRemove (tfcLruRemove c i) i with hc₂
  have hi : i ∈ s.lru := by simp [hlru]
  have hrcircle := h.valued.circle r hr
  rw [hvalues'] at hrcircle
  have hprev : prevValue c i = r := by simpa using hrcircle.prev_mem
  have hnext : nextValue c i = r := by simpa using hrcircle.next_mem
  have hir : i ≠ r := fun e => h.placed.not_root hi (e ▸ hr)
  have hroot : (c₂.slots i).prevValue = r := by
    show prevValue c₂ i = r
    rw [hp, hnext, Function.update_of_ne hir, hprev]
  have hroot' : (c₂.slots i).nextValue = r := by
    show nextValue c₂ i = r
    rw [hn, hprev, Function.update_of_ne hir, hnext]
  set c₃ : Cache V := { indexRemove c₂ r with itemsNum := c₂.itemsNum - 1 } with hc₃
  have hresult : tfcFreeData c i = indexRemove c₃ i := by simp only [tfcFreeData, ← hc₂, hroot, hroot', if_true, ← hc₃]
  have hrfree := h.placed.not_free (List.mem_append_right s.lru hr)
  have hifree := h.placed.not_free (List.mem_append_left s.roots hi)
  have hrnil := h.placed.ne_nil (List.mem_append_right s.free (List.mem_append_right s.lru hr))
  have hinil := h.placed.ne_nil (List.mem_append_right s.free (List.mem_append_left s.roots hi))
  have hrlru := h.root_apart hr hlru
  obtain ⟨hfree₁, hcircle₁⟩ := indexRemove_lists hfree hrfree hrnil hcircle fun hm => hrlru (List.mem_cons_of_mem _ hm)
  have hifree₁ : i ∉ r :: s.free := by simp [hir, hifree]
  obtain ⟨hfree₂, hcircle₂⟩ : FreeList (indexRemove c₃ i) _ ∧ _ :=
    indexRemove_lists hfree₁ hifree₁ hinil hcircle₁ (h.not_tail hlru)
  have hdata₂ := sameData_indexRemove c₂ r
  have hdata₃ : SameData c c₃ := hdata.trans ⟨hdata₂.key, hdata₂.state, hdata₂.value⟩
  rw [hresult, ← hframe.index, ← hframe.itemsNum]
  refine ⟨⟨hdata₃.trans (sameData_indexRemove c₃ i), hframe.slotsNum, hframe.freeSlot, hframe.indexSlots, hfree₂, hcircle₂⟩,
    rfl, rfl, ?_, ?_⟩
  · rw [(values_indexRemove c₃ i).1]
    exact (values_indexRemove c₂ r).1.trans (by rw [hn, hprev, hnext])
  · rw [(values_indexRemove c₃ i).2]
    exact (values_indexRemove c₂ r).2.trans (by rw [hp, hprev, hnext])

lemma Holds.alone_item : ∀ j ∈ lru, (key c j).itemid ≠ (key c r).itemid := by
  intro j hj heq
  have hmem : j ∈ s.values r := (h.valued.members r hr j).2 ⟨by simp [hlru, hj], heq⟩
  rw [hvalues, List.mem_singleton] at hmem
  exact h.not_tail hlru (hmem ▸ hj)

lemma Holds.alone_keyed (free : List ℕ) : Keyed (key c) ⟨free, lru, s.roots.erase r, s.values⟩ := by
  have hmem : ∀ j ∈ lru, j ∈ s.lru := fun j hj => by simp [hlru, hj]
  refine h.keyed.mono hmem (fun r' hr' => (h.placed.of_mem_erase r' hr').1) fun j hj => ?_
  obtain ⟨r', hr', hitem⟩ := h.keyed.rooted j (hmem j hj)
  have hne : r' ≠ r := fun e => h.alone_item hr hlru hvalues j hj (by rw [← hitem, e])
  exact ⟨r', (List.mem_erase_of_ne hne).2 hr', hitem⟩

lemma Holds.alone_valued (free : List ℕ) :
    Valued (key c) (Function.update (nextValue c) r r) (Function.update (prevValue c) r r)
      ⟨free, lru, s.roots.erase r, s.values⟩ := by
  have hiitem : (key c i).itemid = (key c r).itemid := ((h.valued.members r hr i).1 (by simp [hvalues])).2
  have hroots := @Placed.of_mem_erase _ _ _ h.placed r
  refine ⟨?_, ?_, fun r' hr' => h.valued.nodup r' (hroots r' hr').1⟩
  · intro r' hr'
    obtain ⟨hmem, hne⟩ := hroots r' hr'
    have hout : ∀ a ∈ r' :: s.values r', a ≠ r := by
      rintro a ha rfl
      exact h.disjoint hmem hr hne ha List.mem_cons_self
    apply (h.valued.circle r' hmem).congr
    · exact fun a ha => Function.update_of_ne (hout a ha) ..
    · exact fun a ha => Function.update_of_ne (hout a ha) ..
  · intro r' hr' j
    obtain ⟨hmem, hne⟩ := hroots r' hr'
    rw [h.valued.members r' hmem j, hlru, List.mem_cons]
    refine ⟨?_, fun hj => ⟨.inr hj.1, hj.2⟩⟩
    rintro ⟨rfl | hj, heq⟩
    · exact absurd (h.keyed.root_unique hr hmem (hiitem.symm.trans heq)) hne.symm
    · exact ⟨hj, heq⟩

lemma Holds.evict_alone : ∃ s', Holds (tfcFreeData c i) s' fresh ∧ Evicted c (tfcFreeData c i) s s' lru ∧
    (∀ r' ∈ s.roots, s.values r' ≠ [i] → r' ∈ s'.roots) := by
  obtain ⟨hfreed, hindex, hitems, hnv, hpv⟩ := h.free_alone hr hlru hvalues
  refine ⟨⟨i :: r :: s.free, lru, s.roots.erase r, s.values⟩, ⟨?_, ?_, ?_, ?_, ?_⟩,
    ⟨hfreed.data, hfreed.slotsNum, hfreed.freeSlot, rfl, by simp⟩, ?_⟩
  · refine hfreed.placed h.placed _ ?_ ?_ (by rw [hitems, h.placed.items, List.length_erase_of_mem hr])
    · rw [hlru]
      apply List.perm_iff_count.2
      intro a
      have hcount := (List.perm_cons_erase hr).count_eq a
      simp only [List.count_append, List.count_cons] at hcount ⊢
      omega
    · rw [hindex]
      have hperm := (h.placed.index.erase r).erase i
      rwa [hlru, List.erase_append_right _ (h.root_apart hr hlru), List.cons_append, List.erase_cons_head] at hperm
  · rw [hfreed.data.key]
    exact h.alone_keyed hr hlru hvalues _
  · rw [hfreed.data.key, hnv, hpv]
    exact h.alone_valued hr hlru hvalues _
  · exact fun r' hr' hempty => h.full r' (h.placed.of_mem_erase r' hr').1 hempty
  · rw [hfreed.data.state]
    exact fun j hj => h.known j (by simp [hlru, hj])
  · intro r' hr' hne
    apply (List.mem_erase_of_ne _).2 hr'
    rintro rfl
    exact hne hvalues

end

lemma Holds.value_apart (h : Holds c s fresh) {r : ℕ} (hr : r ∈ s.roots) (hlru : s.lru = i :: lru)
    (hvalues : s.values r = before ++ i :: behind) : i ∉ r :: (before ++ behind) := by
  have hvnodup := h.valued.nodup r hr
  rw [hvalues, List.nodup_middle, List.nodup_cons] at hvnodup
  rw [List.mem_cons, not_or]
  exact ⟨fun e => h.placed.not_root (i := i) (by simp [hlru]) (e ▸ hr), hvnodup.1⟩

lemma Holds.values_without (h : Holds c s fresh) {r : ℕ} (hr : r ∈ s.roots) (hlru : s.lru = i :: lru)
    (hvalues : s.values r = before ++ i :: behind) (free : List ℕ) :
    Valued (key c) (Function.update (nextValue c) (prevValue c i) (nextValue c i))
      (Function.update (prevValue c) (nextValue c i) (prevValue c i))
      ⟨free, lru, s.roots, Function.update s.values r (before ++ behind)⟩ := by
  have hrcircle := h.valued.circle r hr
  have hiout := h.value_apart hr hlru hvalues
  have hiitem : (key c i).itemid = (key c r).itemid := ((h.valued.members r hr i).1 (by simp [hvalues])).2
  have hnodes : ∀ a, a ∈ r :: before ∨ a ∈ r :: behind → a ∈ r :: s.values r := by
    intro a ha
    rw [hvalues]
    rcases ha with ha | ha
    · exact List.mem_append_left _ ha
    · rcases List.mem_cons.1 ha with rfl | ha
      · exact List.mem_cons_self
      · exact List.mem_cons_of_mem _ (List.mem_append_right _ (List.mem_cons_of_mem _ ha))
  have hin : ∀ r' ∈ s.roots, r' ≠ r → ∀ a ∈ r' :: s.values r', a ∉ r :: s.values r :=
    fun r' hr' hne a ha => h.disjoint hr' hr hne ha
  have hold := h.valued.members r hr
  rw [hvalues] at hrcircle
  have hprev := hnodes _ (.inl hrcircle.prev_mem)
  have hnext := hnodes _ (.inr hrcircle.next_mem)
  refine ⟨?_, ?_, ?_⟩
  · intro r' hr'
    by_cases hne : r' = r
    · subst hne
      dsimp only
      rw [Function.update_self]
      exact hrcircle.remove hiout
    · dsimp only
      rw [Function.update_of_ne hne]
      apply (h.valued.circle r' hr').congr
      · intro a ha
        apply Function.update_of_ne
        rintro rfl
        exact hin r' hr' hne _ ha hprev
      · intro a ha
        apply Function.update_of_ne
        rintro rfl
        exact hin r' hr' hne _ ha hnext
  · intro r' hr' j
    by_cases hne : r' = r
    · subst hne
      have hj := hold j
      rw [hvalues, hlru] at hj
      dsimp only
      rw [Function.update_self]
      constructor
      · intro hm
        have hji : j ≠ i := fun e => hiout (e ▸ List.mem_cons_of_mem _ hm)
        have hall : j ∈ before ++ i :: behind := by
          rcases List.mem_append.1 hm with hm | hm
          · exact List.mem_append_left _ hm
          · exact List.mem_append_right _ (List.mem_cons_of_mem _ hm)
        obtain ⟨hmem, hitem⟩ := hj.1 hall
        exact ⟨List.mem_of_ne_of_mem hji hmem, hitem⟩
      · rintro ⟨hmem, hitem⟩
        have hji : j ≠ i := fun e => h.not_tail hlru (e ▸ hmem)
        rcases List.mem_append.1 (hj.2 ⟨List.mem_cons_of_mem _ hmem, hitem⟩) with hm | hm
        · exact List.mem_append_left _ hm
        · exact List.mem_append_right _ (List.mem_of_ne_of_mem hji hm)
    · dsimp only
      rw [Function.update_of_ne hne, h.valued.members r' hr' j, hlru, List.mem_cons]
      refine ⟨?_, fun hj => ⟨.inr hj.1, hj.2⟩⟩
      rintro ⟨rfl | hj, heq⟩
      · exact absurd (h.keyed.root_unique hr hr' (hiitem.symm.trans heq)) (Ne.symm hne)
      · exact ⟨hj, heq⟩
  · intro r' hr'
    by_cases hne : r' = r
    · subst hne
      have hvnodup := h.valued.nodup r' hr
      rw [hvalues, List.nodup_middle, List.nodup_cons] at hvnodup
      dsimp only
      rw [Function.update_self]
      exact hvnodup.2
    · dsimp only
      rw [Function.update_of_ne hne]
      exact h.valued.nodup r' hr'

lemma Holds.free_other (h : Holds c s fresh) {r : ℕ} (hr : r ∈ s.roots) (hlru : s.lru = i :: lru)
    (hvalues : s.values r = before ++ i :: behind) (hother : ¬ (before = [] ∧ behind = [])) :
    Freed c (tfcFreeData c i) (i :: s.free) lru ∧ (tfcFreeData c i).index = c.index.erase i ∧
      (tfcFreeData c i).itemsNum = c.itemsNum ∧
        nextValue (tfcFreeData c i) = Function.update (nextValue c) (prevValue c i) (nextValue c i) ∧
          prevValue (tfcFreeData c i) = Function.update (prevValue c) (nextValue c i) (prevValue c i) := by
  obtain ⟨hframe, hdata, hfree, hcircle, hn, hp⟩ := h.cut hr hlru hvalues
  set c₂ := tfcValueRemove (tfcLruRemove c i) i with hc₂
  have hi : i ∈ s.lru := by simp [hlru]
  have hrcircle := h.valued.circle r hr
  have hvnodup := h.valued.nodup r hr
  have hrout := h.root_not_value hr
  rw [hvalues] at hrcircle hvnodup hrout
  have hrnodup : (r :: (before ++ i :: behind)).Nodup := List.nodup_cons.2 ⟨hrout, hvnodup⟩
  have hiout := h.value_apart hr hlru hvalues
  have hprev := hrcircle.prev_mem
  have hnext := hrcircle.next_mem
  have hprevne : prevValue c i ≠ i := by
    intro e
    rw [e] at hprev
    apply hiout
    rcases List.mem_cons.1 hprev with rfl | hm
    · exact List.mem_cons_self
    · exact List.mem_cons_of_mem _ (List.mem_append_left _ hm)
  have hnextne : nextValue c i ≠ i := by
    intro e
    rw [e] at hnext
    apply hiout
    rcases List.mem_cons.1 hnext with rfl | hm
    · exact List.mem_cons_self
    · exact List.mem_cons_of_mem _ (List.mem_append_right _ hm)
  have hroot : ¬ (c₂.slots i).prevValue = (c₂.slots i).nextValue := by
    show ¬ prevValue c₂ i = nextValue c₂ i
    rw [hp, hn, Function.update_of_ne hprevne.symm, Function.update_of_ne hnextne.symm]
    exact fun e => hother ((hrcircle.alone_iff hrnodup).1 e)
  have hresult : tfcFreeData c i = indexRemove c₂ i := by
    simp only [tfcFreeData, ← hc₂]
    rw [if_neg hroot]
  have hifree := h.placed.not_free (List.mem_append_left s.roots hi)
  have hinil := h.placed.ne_nil (List.mem_append_right s.free (List.mem_append_left s.roots hi))
  obtain ⟨hfree₁, hcircle₁⟩ := indexRemove_lists hfree hifree hinil hcircle (h.not_tail hlru)
  rw [hresult, ← hframe.index, ← hframe.itemsNum]
  exact ⟨⟨hdata.trans (sameData_indexRemove c₂ i), hframe.slotsNum, hframe.freeSlot, hframe.indexSlots, hfree₁, hcircle₁⟩,
    rfl, rfl, (values_indexRemove c₂ i).1.trans hn, (values_indexRemove c₂ i).2.trans hp⟩

lemma Holds.evict_other (h : Holds c s fresh) {r : ℕ} (hr : r ∈ s.roots) (hlru : s.lru = i :: lru)
    (hvalues : s.values r = before ++ i :: behind) (hother : ¬ (before = [] ∧ behind = [])) :
    ∃ s', Holds (tfcFreeData c i) s' fresh ∧ Evicted c (tfcFreeData c i) s s' lru ∧ s'.roots = s.roots := by
  obtain ⟨hfreed, hindex, hitems, hnv, hpv⟩ := h.free_other hr hlru hvalues hother
  refine ⟨⟨i :: s.free, lru, s.roots, Function.update s.values r (before ++ behind)⟩, ⟨?_, ?_, ?_, ?_, ?_⟩,
    ⟨hfreed.data, hfreed.slotsNum, hfreed.freeSlot, rfl, by simp⟩, rfl⟩
  · refine hfreed.placed h.placed _ ?_ ?_ (hitems.trans h.placed.items)
    · rw [hlru]
      apply List.perm_iff_count.2
      intro a
      simp only [List.cons_append, List.count_append, List.count_cons]
      omega
    · rw [hindex]
      have hperm := h.placed.index.erase i
      rwa [hlru, List.cons_append, List.erase_cons_head] at hperm
  · rw [hfreed.data.key]
    have hmem : ∀ j ∈ lru, j ∈ s.lru := fun j hj => by simp [hlru, hj]
    exact h.keyed.mono hmem (fun r' hr' => hr') fun j hj => h.keyed.rooted j (hmem j hj)
  · rw [hfreed.data.key, hnv, hpv]
    exact h.values_without hr hlru hvalues _
  · intro r' hr' hempty
    by_cases hne : r' = r
    · subst hne
      dsimp only at hempty
      rw [Function.update_self, List.append_eq_nil_iff] at hempty
      exact absurd hempty hother
    · dsimp only at hempty
      rw [Function.update_of_ne hne] at hempty
      exact h.full r' hr' hempty
  · rw [hfreed.data.state]
    exact fun j hj => h.known j (by simp [hlru, hj])

lemma Holds.evict (h : Holds c s fresh) (hlru : s.lru = i :: lru) :
    ∃ s', Holds (tfcFreeData c i) s' fresh ∧ Evicted c (tfcFreeData c i) s s' lru ∧
      ∀ r ∈ s.roots, s.values r = [] → r ∈ s'.roots := by
  obtain ⟨r, hr, -, hmem⟩ := h.root_of (i := i) (by simp [hlru])
  obtain ⟨before, behind, hvalues⟩ := List.append_of_mem hmem
  by_cases halone : before = [] ∧ behind = []
  · obtain ⟨rfl, rfl⟩ := halone
    obtain ⟨s', hholds, hevicted, hroots⟩ := h.evict_alone hr hlru hvalues
    exact ⟨s', hholds, hevicted, fun r' hr' hempty => hroots r' hr' (by simp [hempty])⟩
  · obtain ⟨s', hholds, hevicted, hroots⟩ := h.evict_other hr hlru hvalues halone
    exact ⟨s', hholds, hevicted, fun r' hr' _ => hroots ▸ hr'⟩

end

end Glaber.Trends
