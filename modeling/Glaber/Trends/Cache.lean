import Glaber.Algo.Hashset
import Glaber.Lib.Circular
import Glaber.Lib.Linked

/-! The cache of trend functions (`cache.c` of `zbxtrends`). Its slots are hashset entries at once in an index, a free list
or a list by use, and a circular list of the values of an item. `none` is an exit of the process. -/

namespace Glaber.Trends

inductive TrendFunction where
  | unknown
  | avg
  | count
  | delta
  | max
  | min
  | sum
deriving DecidableEq

inductive TrendState where
  | unknown
  | normal
  | nodata
  | overflow
deriving DecidableEq

structure Key where
  itemid : ℕ
  startTime : ℤ
  endTime : ℤ
  function : TrendFunction
deriving DecidableEq

structure Data (V : Type) where
  key : Key
  state : TrendState
  value : V
  prev : ℕ
  next : ℕ
  prevValue : ℕ
  nextValue : ℕ

/-- `zbx_tfc_t`; the index is the list of the slots that the hashset holds. -/
structure Cache (V : Type) where
  slots : ℕ → Data V
  index : List ℕ
  indexSlots : ℕ
  slotsNum : ℕ
  freeSlot : ℕ
  freeHead : ℕ
  lruHead : ℕ
  lruTail : ℕ
  hits : ℕ
  misses : ℕ
  itemsNum : ℕ

def uint32Max : ℕ := 4294967295

def reserved (itemid : ℕ) : Key := ⟨itemid, 0, 0, .unknown⟩

section

variable {V : Type}

def tfcInit (slots : ℕ → Data V) (slotsNum : ℕ) : Cache V where
  slots := slots
  index := []
  indexSlots := Algo.nextPrime (slotsNum * 5 / 4 + 4)
  slotsNum := slotsNum
  freeSlot := 0
  freeHead := uint32Max
  lruHead := uint32Max
  lruTail := uint32Max
  hits := 0
  misses := 0
  itemsNum := 0

variable (c : Cache V)

def setSlot (i : ℕ) (f : Data V → Data V) : Cache V :=
  { c with slots := Function.update c.slots i (f (c.slots i)) }

def tfcFreeSlot (i : ℕ) : Cache V :=
  { setSlot c i fun d => { d with next := c.freeHead, prev := uint32Max } with freeHead := i }

def tfcAllocSlot : Option (Cache V × ℕ) :=
  let c := if c.freeSlot ≠ c.slotsNum then tfcFreeSlot { c with freeSlot := c.freeSlot + 1 } c.freeSlot else c
  if c.freeHead = uint32Max then none
  else some ({ c with freeHead := (c.slots c.freeHead).next }, c.freeHead)

def tfcLruAppend (i : ℕ) : Cache V :=
  let tail := c.lruTail
  let c := setSlot c i fun d => { d with prev := tail, next := uint32Max }
  let c := if tail ≠ uint32Max then setSlot c tail fun d => { d with next := i } else { c with lruHead := i }
  { c with lruTail := i }

def tfcLruRemove (i : ℕ) : Cache V :=
  let d := c.slots i
  let c := if d.prev ≠ uint32Max then setSlot c d.prev fun e => { e with next := d.next } else { c with lruHead := d.next }
  let d := c.slots i
  if d.next ≠ uint32Max then setSlot c d.next fun e => { e with prev := d.prev } else { c with lruTail := d.prev }

def tfcValueAppend (root i : ℕ) : Cache V :=
  if (c.slots root).prevValue = i then c
  else
    let last := (c.slots root).prevValue
    let c := setSlot c i fun d => { d with nextValue := root, prevValue := last }
    let c := setSlot c root fun d => { d with prevValue := i }
    setSlot c (c.slots i).prevValue fun d => { d with nextValue := i }

def tfcValueRemove (i : ℕ) : Cache V :=
  let d := c.slots i
  let c := setSlot c d.prevValue fun e => { e with nextValue := d.nextValue }
  let d := c.slots i
  setSlot c d.nextValue fun e => { e with prevValue := d.prevValue }

def indexRemove (i : ℕ) : Cache V := tfcFreeSlot { c with index := c.index.erase i } i

def tfcFreeData (i : ℕ) : Cache V :=
  let c := tfcValueRemove (tfcLruRemove c i) i
  let root := (c.slots i).prevValue
  let c := if root = (c.slots i).nextValue then { indexRemove c root with itemsNum := c.itemsNum - 1 } else c
  indexRemove c i

def tfcReserveSlot : Option (Cache V × List Key) :=
  if c.freeHead = uint32Max ∧ c.slotsNum = c.freeSlot then
    if c.lruHead = uint32Max then none else some (tfcFreeData c c.lruHead, [(c.slots c.lruHead).key])
  else some (c, [])

def indexSearch (key : Key) : Option ℕ := c.index.find? fun i => (c.slots i).key = key

/-- `zbx_hashset_insert`: the entry found or made, or nothing where the hashset would have to grow, which its allocator
refuses. -/
def indexInsert (data : Data V) : Option (Cache V × Option ℕ) :=
  match indexSearch c data.key with
  | some i => some (c, some i)
  | none =>
    if c.indexSlots * 4 / 5 ≤ c.index.length + 1 then some (c, none)
    else do
      let (c, i) ← tfcAllocSlot c
      return ({ setSlot c i fun _ => data with index := i :: c.index }, some i)

def tfcIndexAdd (data : Data V) : Option (Cache V × ℕ × List Key) := do
  let (c, found) ← indexInsert c data
  match found with
  | some i => return (c, i, [])
  | none =>
    let c := if c.slotsNum ≠ c.index.length then
        { c with slotsNum := c.index.length, freeSlot := c.index.length, freeHead := uint32Max }
      else c
    let (c, evicted) ← tfcReserveSlot c
    let (c, found) ← indexInsert c data
    let i ← found
    return (c, i, evicted)

/-- The root of an item, made where there is none. `junk` is what the local variable holds in the fields that are not
set. -/
def tfcRoot (itemid : ℕ) (junk : Data V) : Option (Cache V × ℕ × List Key) :=
  match indexSearch c (reserved itemid) with
  | some root => some (c, root, [])
  | none => do
    let (c, root, evicted) ← tfcIndexAdd c { junk with key := reserved itemid }
    let c := setSlot c root fun d => { d with prevValue := root, nextValue := root }
    let (c, evicted') ← tfcReserveSlot { c with itemsNum := c.itemsNum + 1 }
    return (c, root, evicted ++ evicted')

def tfcPutValue (key : Key) (value : V) (state : TrendState) (junk : Data V) : Option (Cache V × List Key) := do
  let (c, evicted) ← tfcReserveSlot c
  let (c, root, evicted') ← tfcRoot c key.itemid junk
  let (c, i, evicted'') ← tfcIndexAdd c { junk with key := key, state := .unknown }
  let c := if (c.slots i).state = .unknown then tfcValueAppend (tfcLruAppend c i) root i else c
  return (setSlot c i fun d => { d with value := value, state := state }, evicted ++ (evicted' ++ evicted''))

def tfcGetValue (key : Key) : Cache V × Option (V × TrendState) :=
  match indexSearch c key with
  | none => ({ c with misses := c.misses + 1 }, none)
  | some i =>
    let c := tfcLruAppend (tfcLruRemove c i) i
    ({ c with hits := c.hits + 1 }, some ((c.slots i).value, (c.slots i).state))

end

open Lib.Circular Lib.Linked

variable {V : Type}

section

variable (c : Cache V)

def lruNext (i : ℕ) : ℕ := if i = uint32Max then c.lruHead else (c.slots i).next
def lruPrev (i : ℕ) : ℕ := if i = uint32Max then c.lruTail else (c.slots i).prev
def nextValue (i : ℕ) : ℕ := (c.slots i).nextValue
def prevValue (i : ℕ) : ℕ := (c.slots i).prevValue
def key (i : ℕ) : Key := (c.slots i).key
def state (c : Cache V) (i : ℕ) : TrendState := (c.slots i).state

def link (i : ℕ) : Option ℕ := if i = uint32Max then none else some i

def FreeList (free : List ℕ) : Prop :=
  Chain (fun i => some (c.slots i).next) link (link c.freeHead) free

end

structure Shape where
  free : List ℕ
  lru : List ℕ
  roots : List ℕ
  values : ℕ → List ℕ

structure Placed (c : Cache V) (s : Shape) : Prop where
  slots : (s.free ++ (s.lru ++ s.roots)).Perm (List.range c.freeSlot)
  freeSlot_le : c.freeSlot ≤ c.slotsNum
  slotsNum_le : c.slotsNum ≤ uint32Max
  indexSlots : c.slotsNum * 5 / 4 + 4 ≤ c.indexSlots
  index : c.index.Perm (s.lru ++ s.roots)
  items : c.itemsNum = s.roots.length
  free : FreeList c s.free
  lru : Circle (lruNext c) (lruPrev c) uint32Max s.lru

structure Keyed (key : ℕ → Key) (s : Shape) : Prop where
  root : ∀ r ∈ s.roots, key r = reserved (key r).itemid
  value : ∀ i ∈ s.lru, key i ≠ reserved (key i).itemid
  distinct : ∀ i ∈ s.lru ++ s.roots, ∀ j ∈ s.lru ++ s.roots, key i = key j → i = j
  rooted : ∀ i ∈ s.lru, ∃ r ∈ s.roots, (key r).itemid = (key i).itemid

structure Valued (key : ℕ → Key) (next prev : ℕ → ℕ) (s : Shape) : Prop where
  circle : ∀ r ∈ s.roots, Circle next prev r (s.values r)
  members : ∀ r ∈ s.roots, ∀ i, i ∈ s.values r ↔ i ∈ s.lru ∧ (key i).itemid = (key r).itemid
  nodup : ∀ r ∈ s.roots, (s.values r).Nodup

structure Holds (c : Cache V) (s : Shape) (fresh : Option ℕ) : Prop where
  placed : Placed c s
  keyed : Keyed (key c) s
  valued : Valued (key c) (nextValue c) (prevValue c) s
  full : ∀ r ∈ s.roots, s.values r = [] → fresh = some r
  known : ∀ i ∈ s.lru, state c i ≠ .unknown

section

variable {c : Cache V} {s : Shape} {fresh : Option ℕ}

lemma Placed.nodup (h : Placed c s) : (s.free ++ (s.lru ++ s.roots)).Nodup :=
  h.slots.nodup_iff.2 List.nodup_range

lemma Placed.lt (h : Placed c s) {i : ℕ} (hi : i ∈ s.free ++ (s.lru ++ s.roots)) : i < c.freeSlot :=
  List.mem_range.1 (h.slots.mem_iff.1 hi)

lemma Placed.ne_nil (h : Placed c s) {i : ℕ} (hi : i ∈ s.free ++ (s.lru ++ s.roots)) : i ≠ uint32Max := by
  have := h.lt hi
  have := h.freeSlot_le
  have := h.slotsNum_le
  omega

lemma Placed.nil_not_mem (h : Placed c s) : uint32Max ∉ s.free ++ (s.lru ++ s.roots) := fun hm => h.ne_nil hm rfl

lemma Placed.lru_nodup (h : Placed c s) : (s.lru ++ s.roots).Nodup := (List.nodup_append.1 h.nodup).2.1

lemma Placed.not_root (h : Placed c s) {i : ℕ} (hi : i ∈ s.lru) : i ∉ s.roots := by
  intro hr
  exact (List.nodup_append.1 h.lru_nodup).2.2 i hi i hr rfl

lemma Placed.not_free (h : Placed c s) {i : ℕ} (hi : i ∈ s.lru ++ s.roots) : i ∉ s.free := by
  intro hf
  exact (List.nodup_append.1 h.nodup).2.2 i hf i hi rfl

lemma Placed.length_eq (h : Placed c s) : s.free.length + (s.lru.length + s.roots.length) = c.freeSlot := by
  simpa using h.slots.length_eq

lemma Placed.lruHead (h : Placed c s) : c.lruHead = s.lru.headD uint32Max := by
  simpa [lruNext] using h.lru.next_head

lemma Placed.freeHead (h : Placed c s) : c.freeHead = uint32Max ↔ s.free = [] := by
  cases hfree : s.free with
  | nil =>
      have hchain := h.free
      rw [FreeList, hfree] at hchain
      by_contra hne
      simp only [iff_true] at hne
      simp [Chain, link, hne] at hchain
  | cons a free =>
      have hchain := h.free
      rw [FreeList, hfree] at hchain
      have hhead := hchain.1
      by_cases hne : c.freeHead = uint32Max
      · simp [link, hne] at hhead
      · simpa using hne

lemma Holds.root_of (h : Holds c s fresh) {i : ℕ} (hi : i ∈ s.lru) :
    ∃ r ∈ s.roots, (key c r).itemid = (key c i).itemid ∧ i ∈ s.values r := by
  obtain ⟨r, hr, hitem⟩ := h.keyed.rooted i hi
  exact ⟨r, hr, hitem, (h.valued.members r hr i).2 ⟨hi, hitem.symm⟩⟩

lemma Keyed.root_unique (h : Keyed (key c) s) {r r' : ℕ} (hr : r ∈ s.roots) (hr' : r' ∈ s.roots)
    (hitem : (key c r).itemid = (key c r').itemid) : r = r' := by
  apply h.distinct r (List.mem_append_right _ hr) r' (List.mem_append_right _ hr')
  rw [h.root r hr, h.root r' hr', hitem]

lemma Holds.disjoint (h : Holds c s fresh) {r r' : ℕ} (hr : r ∈ s.roots) (hr' : r' ∈ s.roots) (hne : r ≠ r') {i : ℕ}
    (hi : i ∈ r :: s.values r) : i ∉ r' :: s.values r' := by
  intro hi'
  rcases List.mem_cons.1 hi with rfl | hi
  · rcases List.mem_cons.1 hi' with heq | hi'
    · exact hne heq
    · exact h.placed.not_root ((h.valued.members r' hr' i).1 hi').1 hr
  · obtain ⟨hlru, hitem⟩ := (h.valued.members r hr i).1 hi
    rcases List.mem_cons.1 hi' with rfl | hi'
    · exact h.placed.not_root hlru hr'
    · obtain ⟨-, hitem'⟩ := (h.valued.members r' hr' i).1 hi'
      exact hne (h.keyed.root_unique hr hr' (hitem.symm.trans hitem'))

lemma Holds.root_not_value (h : Holds c s fresh) {r : ℕ} (hr : r ∈ s.roots) : r ∉ s.values r := by
  intro hm
  exact h.placed.not_root ((h.valued.members r hr r).1 hm).1 hr

end

section

variable {c c' c'' : Cache V} {i j : ℕ}

def SameButUse (c c' : Cache V) : Prop :=
  ∀ j, { c'.slots j with prev := 0, next := 0 } = { c.slots j with prev := 0, next := 0 }

def SameButValues (c c' : Cache V) : Prop :=
  ∀ j, { c'.slots j with prevValue := 0, nextValue := 0 } = { c.slots j with prevValue := 0, nextValue := 0 }

lemma SameButUse.trans (h : SameButUse c c') (h' : SameButUse c' c'') : SameButUse c c'' := fun j => (h' j).trans (h j)

lemma slots_setSlot (f : Data V → Data V) : (setSlot c i f).slots j = if j = i then f (c.slots i) else c.slots j :=
  Function.update_apply ..

lemma sameButUse_setSlot (i : ℕ) {f : Data V → Data V}
    (hf : ∀ d, { f d with prev := 0, next := 0 } = { d with prev := 0, next := 0 }) : SameButUse c (setSlot c i f) := by
  intro j
  rw [slots_setSlot]
  split_ifs with hj
  · rw [hj, hf]
  · rfl

lemma sameButValues_setSlot (i : ℕ) {f : Data V → Data V}
    (hf : ∀ d, { f d with prevValue := 0, nextValue := 0 } = { d with prevValue := 0, nextValue := 0 }) :
    SameButValues c (setSlot c i f) := by
  intro j
  rw [slots_setSlot]
  split_ifs with hj
  · rw [hj, hf]
  · rfl

def setLruNext (c : Cache V) (i v : ℕ) : Cache V :=
  if i ≠ uint32Max then setSlot c i fun e => { e with next := v } else { c with lruHead := v }

def setLruPrev (c : Cache V) (i v : ℕ) : Cache V :=
  if i ≠ uint32Max then setSlot c i fun e => { e with prev := v } else { c with lruTail := v }

lemma tfcLruRemove_eq (c : Cache V) (i : ℕ) : tfcLruRemove c i =
    setLruPrev (setLruNext c (c.slots i).prev (c.slots i).next)
      ((setLruNext c (c.slots i).prev (c.slots i).next).slots i).next
      ((setLruNext c (c.slots i).prev (c.slots i).next).slots i).prev := rfl

lemma links_setLruNext (c : Cache V) (i v : ℕ) :
    lruNext (setLruNext c i v) = Function.update (lruNext c) i v ∧ lruPrev (setLruNext c i v) = lruPrev c := by
  unfold setLruNext
  split_ifs with hi
  · constructor
    · funext j
      by_cases hj : j = i
      · subst hj
        simp [lruNext, hi, slots_setSlot]
      · simp [lruNext, hj, setSlot]
    · funext j
      by_cases hj : j = i
      · subst hj
        simp [lruPrev, hi, slots_setSlot]
      · simp [lruPrev, hj, setSlot]
  · have hi' : i = uint32Max := not_not.1 hi
    refine ⟨?_, rfl⟩
    funext j
    by_cases hj : j = i
    · simp [lruNext, hj, hi']
    · have hj' : j ≠ uint32Max := hi' ▸ hj
      simp [lruNext, hj, hj']

lemma links_setLruPrev (c : Cache V) (i v : ℕ) :
    lruPrev (setLruPrev c i v) = Function.update (lruPrev c) i v ∧ lruNext (setLruPrev c i v) = lruNext c := by
  unfold setLruPrev
  split_ifs with hi
  · constructor
    · funext j
      by_cases hj : j = i
      · subst hj
        simp [lruPrev, hi, slots_setSlot]
      · simp [lruPrev, hj, setSlot]
    · funext j
      by_cases hj : j = i
      · subst hj
        simp [lruNext, hi, slots_setSlot]
      · simp [lruNext, hj, setSlot]
  · have hi' : i = uint32Max := not_not.1 hi
    refine ⟨?_, rfl⟩
    funext j
    by_cases hj : j = i
    · simp [lruPrev, hj, hi']
    · have hj' : j ≠ uint32Max := hi' ▸ hj
      simp [lruPrev, hj, hj']

lemma sameButUse_setLruNext (c : Cache V) (i v : ℕ) : SameButUse c (setLruNext c i v) := by
  unfold setLruNext
  split_ifs
  · exact sameButUse_setSlot i fun _ => rfl
  · exact fun _ => rfl

lemma sameButUse_setLruPrev (c : Cache V) (i v : ℕ) : SameButUse c (setLruPrev c i v) := by
  unfold setLruPrev
  split_ifs
  · exact sameButUse_setSlot i fun _ => rfl
  · exact fun _ => rfl

lemma sameButUse_lruRemove (c : Cache V) (i : ℕ) : SameButUse c (tfcLruRemove c i) :=
  (sameButUse_setLruNext c _ _).trans (sameButUse_setLruPrev _ _ _)

lemma sameButUse_freeSlot (c : Cache V) (i : ℕ) : SameButUse c (tfcFreeSlot c i) := by
  have hset : SameButUse c (setSlot c i fun d => { d with next := c.freeHead, prev := uint32Max }) :=
    sameButUse_setSlot i fun _ => rfl
  exact hset

lemma lru_remove_links (hi : i ≠ uint32Max) (hprev : lruPrev c i ≠ i) :
    lruNext (tfcLruRemove c i) = Function.update (lruNext c) (lruPrev c i) (lruNext c i) ∧
      lruPrev (tfcLruRemove c i) = Function.update (lruPrev c) (lruNext c i) (lruPrev c i) := by
  have hnext : (c.slots i).next = lruNext c i := by simp [lruNext, hi]
  have hprev' : (c.slots i).prev = lruPrev c i := by simp [lruPrev, hi]
  obtain ⟨hn, hp⟩ := links_setLruNext c (lruPrev c i) (lruNext c i)
  have hsame : ((setLruNext c (lruPrev c i) (lruNext c i)).slots i).next = lruNext c i := by
    have := congrFun hn i
    rwa [Function.update_of_ne hprev.symm, lruNext, if_neg hi] at this
  have hsame' : ((setLruNext c (lruPrev c i) (lruNext c i)).slots i).prev = lruPrev c i := by
    have := congrFun hp i
    rwa [lruPrev, if_neg hi] at this
  obtain ⟨hp', hn'⟩ := links_setLruPrev (setLruNext c (lruPrev c i) (lruNext c i)) (lruNext c i) (lruPrev c i)
  rw [tfcLruRemove_eq, hnext, hprev', hsame, hsame', hn', hn, hp', hp]
  exact ⟨rfl, rfl⟩

lemma tfcLruAppend_eq (c : Cache V) (i : ℕ) : tfcLruAppend c i =
    { setLruNext (setSlot c i fun d => { d with prev := c.lruTail, next := uint32Max }) c.lruTail i with lruTail := i } := rfl

lemma sameButUse_lruAppend (c : Cache V) (i : ℕ) : SameButUse c (tfcLruAppend c i) := by
  have hset : SameButUse c (setSlot c i fun d => { d with prev := c.lruTail, next := uint32Max }) :=
    sameButUse_setSlot i fun _ => rfl
  exact hset.trans (sameButUse_setLruNext _ c.lruTail i)

lemma lru_append_links (hi : i ≠ uint32Max) :
    lruNext (tfcLruAppend c i) =
        Function.update (Function.update (lruNext c) i uint32Max) (lruPrev c uint32Max) i ∧
      lruPrev (tfcLruAppend c i) =
        Function.update (Function.update (lruPrev c) i (lruPrev c uint32Max)) uint32Max i := by
  have htail : lruPrev c uint32Max = c.lruTail := if_pos rfl
  obtain ⟨hn, hp⟩ := links_setLruNext (setSlot c i fun d => { d with prev := c.lruTail, next := uint32Max }) c.lruTail i
  have hnext : lruNext (setSlot c i fun d => { d with prev := c.lruTail, next := uint32Max }) =
      Function.update (lruNext c) i uint32Max := by
    funext j
    by_cases hj : j = i
    · subst hj
      simp [lruNext, hi, slots_setSlot]
    · simp [lruNext, hj, setSlot]
  have hprev : lruPrev (setSlot c i fun d => { d with prev := c.lruTail, next := uint32Max }) =
      Function.update (lruPrev c) i c.lruTail := by
    funext j
    by_cases hj : j = i
    · subst hj
      simp [lruPrev, hi, slots_setSlot]
    · simp [lruPrev, hj, setSlot]
  constructor
  · rw [htail, ← hnext, ← hn, tfcLruAppend_eq]
    rfl
  · rw [htail, ← hprev, ← hp, tfcLruAppend_eq]
    funext j
    by_cases hj : j = uint32Max
    · simp [lruPrev, hj]
    · simp [lruPrev, hj]

lemma SameButValues.trans (h : SameButValues c c') (h' : SameButValues c' c'') : SameButValues c c'' :=
  fun j => (h' j).trans (h j)

def setNextValue (c : Cache V) (i v : ℕ) : Cache V := setSlot c i fun e => { e with nextValue := v }

def setPrevValue (c : Cache V) (i v : ℕ) : Cache V := setSlot c i fun e => { e with prevValue := v }

lemma links_setNextValue (c : Cache V) (i v : ℕ) :
    nextValue (setNextValue c i v) = Function.update (nextValue c) i v ∧ prevValue (setNextValue c i v) = prevValue c ∧
      SameButValues c (setNextValue c i v) := by
  refine ⟨?_, ?_, sameButValues_setSlot i fun _ => rfl⟩
  all_goals
    funext j
    by_cases hj : j = i
    · subst hj
      simp [nextValue, prevValue, setNextValue, slots_setSlot]
    · simp [nextValue, prevValue, setNextValue, slots_setSlot, hj]

lemma links_setPrevValue (c : Cache V) (i v : ℕ) :
    prevValue (setPrevValue c i v) = Function.update (prevValue c) i v ∧ nextValue (setPrevValue c i v) = nextValue c ∧
      SameButValues c (setPrevValue c i v) := by
  refine ⟨?_, ?_, sameButValues_setSlot i fun _ => rfl⟩
  all_goals
    funext j
    by_cases hj : j = i
    · subst hj
      simp [nextValue, prevValue, setPrevValue, slots_setSlot]
    · simp [nextValue, prevValue, setPrevValue, slots_setSlot, hj]

lemma tfcValueRemove_eq (c : Cache V) (i : ℕ) : tfcValueRemove c i =
    setPrevValue (setNextValue c (prevValue c i) (nextValue c i)) (nextValue (setNextValue c (prevValue c i) (nextValue c i)) i)
      (prevValue (setNextValue c (prevValue c i) (nextValue c i)) i) := rfl

lemma value_remove_links (hprev : prevValue c i ≠ i) :
    nextValue (tfcValueRemove c i) = Function.update (nextValue c) (prevValue c i) (nextValue c i) ∧
      prevValue (tfcValueRemove c i) = Function.update (prevValue c) (nextValue c i) (prevValue c i) ∧
        SameButValues c (tfcValueRemove c i) := by
  obtain ⟨hn, hp, hsame⟩ := links_setNextValue c (prevValue c i) (nextValue c i)
  have hread : nextValue (setNextValue c (prevValue c i) (nextValue c i)) i = nextValue c i := by
    rw [hn, Function.update_of_ne hprev.symm]
  have hread' : prevValue (setNextValue c (prevValue c i) (nextValue c i)) i = prevValue c i := congrFun hp i
  obtain ⟨hp', hn', hsame'⟩ := links_setPrevValue (setNextValue c (prevValue c i) (nextValue c i)) (nextValue c i) (prevValue c i)
  rw [tfcValueRemove_eq, hread, hread']
  exact ⟨hn'.trans hn, by rw [hp', hp], hsame.trans hsame'⟩

lemma tfcValueAppend_eq {root : ℕ} (h : prevValue c root ≠ i) : tfcValueAppend c root i =
    setNextValue (setPrevValue (setPrevValue (setNextValue c i root) i (prevValue c root)) root i)
      (prevValue (setPrevValue (setPrevValue (setNextValue c i root) i (prevValue c root)) root i) i) i := by
  have hboth : (setSlot c i fun d => { d with nextValue := root, prevValue := (c.slots root).prevValue }) =
      setPrevValue (setNextValue c i root) i (prevValue c root) := by
    simp [setPrevValue, setNextValue, setSlot, prevValue]
  have hno : ¬ (c.slots root).prevValue = i := h
  rw [tfcValueAppend, if_neg hno]
  dsimp only
  rw [hboth]
  rfl

lemma value_append_links {root : ℕ} (hroot : root ≠ i) (hlast : prevValue c root ≠ i) :
    nextValue (tfcValueAppend c root i) = Function.update (Function.update (nextValue c) i root) (prevValue c root) i ∧
      prevValue (tfcValueAppend c root i) =
        Function.update (Function.update (prevValue c) i (prevValue c root)) root i ∧
          SameButValues c (tfcValueAppend c root i) := by
  obtain ⟨hn₁, hp₁, hsame₁⟩ := links_setNextValue c i root
  obtain ⟨hp₂, hn₂, hsame₂⟩ := links_setPrevValue (setNextValue c i root) i (prevValue c root)
  obtain ⟨hp₃, hn₃, hsame₃⟩ := links_setPrevValue (setPrevValue (setNextValue c i root) i (prevValue c root)) root i
  have hread : prevValue (setPrevValue (setPrevValue (setNextValue c i root) i (prevValue c root)) root i) i =
      prevValue c root := by
    rw [hp₃, Function.update_of_ne hroot.symm, hp₂, Function.update_self]
  obtain ⟨hn₄, hp₄, hsame₄⟩ := links_setNextValue
    (setPrevValue (setPrevValue (setNextValue c i root) i (prevValue c root)) root i) (prevValue c root) i
  rw [tfcValueAppend_eq hlast, hread]
  refine ⟨?_, ?_, ((hsame₁.trans hsame₂).trans hsame₃).trans hsame₄⟩
  · rw [hn₄, hn₃, hn₂, hn₁]
  · rw [hp₄, hp₃, hp₂, hp₁]

end

end Glaber.Trends
