import Glaber.Ipc.SerialBuffer

namespace Glaber.Ipc.Serial

open Glaber.Lib.Bytes Glaber.Lib.Linked

def nextOf (v : ℤ) : Option ℕ := if v = 0 then none else some v.toNat

def nodeAt (data : Memory) (off : ℕ) : Option ℤ := some (readInt data off)

def Added.item? (a : Added) : Option ℕ := a.op.item?.map fun _ => a.start

def itemStarts (added : List Added) : List ℕ := added.filterMap Added.item?

structure Laid (buf : SerialBuffer) (added : List Added) : Prop where
  used : sizeofSerialBuffer ≤ buf.used
  fits : added ≠ [] → buf.used ≤ buf.size
  regions : ∀ a ∈ added, sizeofSerialBuffer ≤ a.start ∧ a.offset = a.start + a.op.header ∧ a.stop ≤ buf.used
  ordered : added.Pairwise (fun a b => a.stop ≤ b.start)
  content : ∀ a ∈ added, Holds buf.data a.offset a.op.bytes
  last : buf.last = (itemStarts added).getLast?.getD 0
  chain : itemStarts added ≠ [] →
    Chain (nodeAt buf.data) nextOf (nextOf (readInt buf.data 0)) (itemStarts added)

lemma laid_fresh {buf : SerialBuffer} (hu : buf.used = sizeofSerialBuffer) (hl : buf.last = 0) : Laid buf [] := by
  refine ⟨hu.ge, by simp, by simp, .nil, by simp, hl, ?_⟩
  exact fun h => absurd rfl h

lemma mem_itemStarts {added : List Added} {off : ℕ} (h : off ∈ itemStarts added) :
    ∃ a ∈ added, a.start = off ∧ a.op.header = sizeofItem := by
  obtain ⟨a, ha, hi⟩ := List.mem_filterMap.mp h
  obtain ⟨bytes, hb, rfl⟩ := Option.map_eq_some_iff.mp hi
  refine ⟨a, ha, rfl, ?_⟩
  cases ho : a.op with
  | data => simp [ho, Op.item?] at hb
  | item => rfl

section

variable {buf : SerialBuffer} {added : List Added}

lemma Laid.item_bounds (h : Laid buf added) {off : ℕ} (ho : off ∈ itemStarts added) :
    sizeofSerialBuffer ≤ off ∧ off + sizeofItem ≤ buf.used := by
  obtain ⟨a, ha, rfl, hh⟩ := mem_itemStarts ho
  obtain ⟨h1, h2, h3⟩ := h.regions a ha
  rw [hh] at h2
  rw [Added.stop] at h3
  exact ⟨h1, by omega⟩

lemma Laid.items_ordered (h : Laid buf added) :
    (itemStarts added).Pairwise (fun a b => a + sizeofItem ≤ b) := by
  have hp : added.Pairwise (fun a b => a.stop ≤ b.start ∧ a.offset = a.start + a.op.header) := by
    refine List.Pairwise.imp_of_mem ?_ h.ordered
    intro a b ha _ hab
    exact ⟨hab, (h.regions a ha).2.1⟩
  refine List.Pairwise.filterMap _ ?_ hp
  intro a b hab x hx y hy
  obtain ⟨bytes, hxi, rfl⟩ := Option.map_eq_some_iff.mp hx
  obtain ⟨-, -, rfl⟩ := Option.map_eq_some_iff.mp hy
  cases ho : a.op with
  | data => simp [ho, Op.item?] at hxi
  | item =>
    obtain ⟨h1, h2⟩ := hab
    simp only [ho, Op.header, Added.stop] at h1 h2
    omega

lemma Laid.last_bound (h : Laid buf added) : buf.last + sizeofItem ≤ buf.used := by
  rw [h.last]
  cases hl : (itemStarts added).getLast? with
  | none =>
    have := h.used
    simp only [Option.getD_none, sizeofItem, sizeofSerialBuffer] at this ⊢
    omega
  | some l => exact (h.item_bounds (List.mem_of_getLast? hl)).2

lemma Laid.congr (h : Laid buf added) {buf' : SerialBuffer} (hu : buf'.used = buf.used) (hl : buf'.last = buf.last)
    (hs : buf.used ≤ buf'.size) (hd : added ≠ [] → ∀ k < buf.used, buf'.data k = buf.data k) : Laid buf' added := by
  have hne : ∀ {off}, off ∈ itemStarts added → added ≠ [] := by
    rintro off ho rfl
    cases ho
  have hused := h.used
  simp only [sizeofSerialBuffer] at hused
  refine ⟨hu ▸ h.used, fun _ => hu ▸ hs, fun a ha => hu ▸ h.regions a ha, h.ordered, fun a ha => ?_, hl ▸ h.last,
    fun hi => ?_⟩
  · apply (h.content a ha).congr
    intro k _ hk
    have := (h.regions a ha).2.2
    rw [Added.stop] at this
    exact hd (List.ne_nil_of_mem ha) k (by omega)
  · obtain ⟨off, ho⟩ := List.exists_mem_of_ne_nil _ hi
    have hd' := hd (hne ho)
    rw [readInt_congr fun k _ hk => hd' k (by omega)]
    apply (h.chain hi).congr
    intro a ha
    have := (h.item_bounds ha).2
    simp only [sizeofItem] at this
    rw [nodeAt, nodeAt, readInt_congr fun k _ hk => hd' k (by omega)]

lemma reserve_fields (fresh : Memory) (buf : SerialBuffer) (n : ℕ) :
    (reserve fresh buf n).used = buf.used ∧ (reserve fresh buf n).last = buf.last ∧
    (buf.used ≤ buf.size → ∀ k < buf.used, (reserve fresh buf n).data k = buf.data k) := by
  rw [reserve]
  split_ifs
  · refine ⟨rfl, rfl, fun hs k hk => ?_⟩
    exact if_pos (by omega)
  · exact ⟨rfl, rfl, fun _ _ _ => rfl⟩

lemma Laid.reserve (h : Laid buf added) (fresh : Memory) {n : ℕ}
    (hn : buf.used + n ≤ (reserve fresh buf n).size) : Laid (reserve fresh buf n) added := by
  obtain ⟨hu, hl, hd⟩ := reserve_fields fresh buf n
  exact h.congr hu hl (by omega) fun hne => hd (h.fits hne)

lemma addData_eq (fresh : Memory) (buf : SerialBuffer) (bytes : List UInt8) :
    serialBufferAddData fresh buf bytes =
      let b := Serial.reserve fresh buf bytes.length
      if buf.used + bytes.length ≤ b.size then
        some ({ b with data := write b.data buf.used bytes, used := buf.used + bytes.length }, buf.used)
      else none := by
  obtain ⟨hu, -, -⟩ := reserve_fields fresh buf bytes.length
  simp only [serialBufferAddData, store, hu]
  split_ifs <;> rfl

def withItem (buf : SerialBuffer) (bytes : List UInt8) : SerialBuffer :=
  { buf with
    data := write (write (write buf.data buf.used (encodeInt 0)) buf.last (encodeInt buf.used))
      (buf.used + sizeofItem) bytes
    last := buf.used
    used := buf.used + (bytes.length + sizeofItem)
    itemsCount := buf.itemsCount + 1 }

lemma linkNewItem_eq (buf : SerialBuffer) : linkNewItem buf = store buf buf.last (encodeInt buf.used) := by
  rw [linkNewItem]
  split_ifs with hz
  · rfl
  · rw [← not_not.mp hz]

lemma addItem_eq (fresh : Memory) (h : buf.last + sizeofItem ≤ buf.used) (bytes : List UInt8) :
    serialBufferAddItem fresh buf bytes =
      let b := Serial.reserve fresh buf (bytes.length + sizeofItem)
      if buf.used + (bytes.length + sizeofItem) ≤ b.size then
        some (withItem b bytes, buf.used + sizeofItem)
      else none := by
  obtain ⟨hu, hl, -⟩ := reserve_fields fresh buf (bytes.length + sizeofItem)
  have hlen : ∀ n, (encodeInt n).length = sizeofItem := fun _ => rfl
  simp only [serialBufferAddItem, linkNewItem_eq, store, hu, hl, hlen]
  generalize Serial.reserve fresh buf (bytes.length + sizeofItem) = b at hu hl ⊢
  by_cases h1 : buf.used + sizeofItem ≤ b.size
  · have h2 : buf.last + sizeofItem ≤ b.size := by omega
    by_cases h3 : buf.used + sizeofItem + bytes.length ≤ b.size
    · have hfit : buf.used + (bytes.length + sizeofItem) ≤ b.size := by omega
      simp [h1, h2, h3, hfit, hu, hl, withItem]
    · have hfit : ¬ buf.used + (bytes.length + sizeofItem) ≤ b.size := by omega
      simp [h1, h2, h3, hfit]
  · have hfit : ¬ buf.used + (bytes.length + sizeofItem) ≤ b.size := by omega
    simp [h1, hfit]

lemma Laid.snoc (h : Laid buf added) {buf' : SerialBuffer} (op : Op) (hu : buf'.used = buf.used + op.size)
    (hsize : buf'.used ≤ buf'.size) (hold : ∀ a ∈ added, Holds buf'.data a.offset a.op.bytes)
    (hnew : Holds buf'.data (buf.used + op.header) op.bytes)
    (hlast : buf'.last = (itemStarts (added ++ [⟨op, buf.used + op.header⟩])).getLast?.getD 0)
    (hchain : itemStarts (added ++ [⟨op, buf.used + op.header⟩]) ≠ [] →
      Chain (nodeAt buf'.data) nextOf (nextOf (readInt buf'.data 0))
        (itemStarts (added ++ [⟨op, buf.used + op.header⟩]))) :
    Laid buf' (added ++ [⟨op, buf.used + op.header⟩]) := by
  have hused := h.used
  have hsz : op.size = op.bytes.length + op.header := rfl
  refine ⟨by omega, fun _ => hsize, fun a ha => ?_, ?_, fun a ha => ?_, hlast, hchain⟩
  · rcases List.mem_append.mp ha with ha | ha
    · obtain ⟨h1, h2, h3⟩ := h.regions a ha
      exact ⟨h1, h2, by omega⟩
    · rw [List.mem_singleton.mp ha, Added.start, Added.stop]
      refine ⟨?_, ?_, ?_⟩ <;> simp only <;> omega
  · refine List.pairwise_append.mpr ⟨h.ordered, List.pairwise_singleton _ _, fun a ha b hb => ?_⟩
    have := (h.regions a ha).2.2
    rw [List.mem_singleton.mp hb, Added.start]
    simp only
    omega
  · rcases List.mem_append.mp ha with ha | ha
    · exact hold a ha
    · rw [List.mem_singleton.mp ha]
      exact hnew

lemma Laid.snocData (h : Laid buf added) {bytes : List UInt8} (hfit : buf.used + bytes.length ≤ buf.size) :
    Laid { buf with data := write buf.data buf.used bytes, used := buf.used + bytes.length }
      (added ++ [⟨.data bytes, buf.used⟩]) := by
  have hbelow : ∀ k < buf.used, write buf.data buf.used bytes k = buf.data k :=
    fun k hk => write_outside (.inl hk)
  have hstarts : itemStarts (added ++ [⟨.data bytes, buf.used⟩]) = itemStarts added := by
    simp [itemStarts, Added.item?, Op.item?]
  have hsize : buf.used ≤ buf.size := by omega
  have hc : Laid { buf with data := write buf.data buf.used bytes } added := h.congr rfl rfl hsize fun _ => hbelow
  have hlast : buf.last = (itemStarts (added ++ [⟨.data bytes, buf.used⟩])).getLast?.getD 0 := by
    rw [hstarts]
    exact h.last
  refine h.snoc (.data bytes) rfl hfit hc.content (holds_write _ _ _) hlast fun hi => ?_
  exact hstarts.symm ▸ hc.chain (hstarts ▸ hi)

lemma Laid.last_disjoint (h : Laid buf added) {a : Added} (ha : a ∈ added) :
    a.stop ≤ buf.last ∨ buf.last + sizeofItem ≤ a.offset := by
  obtain ⟨h1, h2, h3⟩ := h.regions a ha
  rw [h.last]
  cases hl : (itemStarts added).getLast? with
  | none =>
    simp only [Option.getD_none, sizeofItem, sizeofSerialBuffer] at h1 ⊢
    omega
  | some l =>
    obtain ⟨b, hb, rfl, hh⟩ := mem_itemStarts (List.mem_of_getLast? hl)
    obtain ⟨-, hb2, -⟩ := h.regions b hb
    obtain ⟨i, hi, rfl⟩ := List.getElem_of_mem ha
    obtain ⟨j, hj, rfl⟩ := List.getElem_of_mem hb
    have hord := List.pairwise_iff_getElem.mp h.ordered
    rw [Option.getD_some]
    rcases lt_trichotomy i j with hij | rfl | hij
    · exact .inl (hord i j hi hj hij)
    · exact .inr (by omega)
    · have := hord j i hj hi hij
      rw [Added.stop] at this
      exact .inr (by omega)

lemma withItem_below (buf : SerialBuffer) (bytes : List UInt8) {k : ℕ} (hk : k < buf.used)
    (hp : k < buf.last ∨ buf.last + sizeofItem ≤ k) : (withItem buf bytes).data k = buf.data k := by
  simp only [withItem]
  rw [write_outside (.inl (by omega)), write_outside hp, write_outside (.inl hk)]

lemma withItem_readInt (buf : SerialBuffer) (bytes : List UInt8) {off : ℕ} (ho : off + sizeofItem ≤ buf.used)
    (hp : off + sizeofItem ≤ buf.last ∨ buf.last + sizeofItem ≤ off) :
    readInt (withItem buf bytes).data off = readInt buf.data off := by
  simp only [sizeofItem] at ho hp
  refine readInt_congr fun k h1 h2 => withItem_below buf bytes (by omega) ?_
  simp only [sizeofItem]
  omega

lemma withItem_next (hb : buf.last + sizeofItem ≤ buf.used) (bytes : List UInt8) :
    readInt (withItem buf bytes).data buf.used = 0 := by
  simp only [sizeofItem] at hb
  have hz := readInt_write (show 0 < 2 ^ 31 by norm_num) buf.data buf.used
  rw [Nat.cast_zero] at hz
  rw [← hz]
  refine readInt_congr fun k h1 h2 => ?_
  simp only [withItem, sizeofItem]
  rw [write_outside (.inl (by omega)), write_outside (.inr ?_)]
  simp only [encodeInt, List.length_cons, List.length_nil]
  omega

lemma withItem_patch (hb : buf.last + sizeofItem ≤ buf.used) (hs : buf.used < 2 ^ 31) (bytes : List UInt8) :
    readInt (withItem buf bytes).data buf.last = buf.used := by
  simp only [sizeofItem] at hb
  rw [← readInt_write hs (write buf.data buf.used (encodeInt 0)) buf.last]
  refine readInt_congr fun k h1 h2 => ?_
  simp only [withItem, sizeofItem]
  rw [write_outside (.inl (by omega))]

lemma Laid.items_nodup (h : Laid buf added) : (itemStarts added).Nodup := by
  refine h.items_ordered.imp ?_
  intro a b hab
  simp only [sizeofItem] at hab
  omega

lemma Laid.withItem_chain (h : Laid buf added) (hs : buf.used < 2 ^ 31) (bytes : List UInt8) :
    Chain (nodeAt (withItem buf bytes).data) nextOf (nextOf (readInt (withItem buf bytes).data 0))
      (itemStarts added ++ [buf.used]) := by
  have hused := h.used
  have hb := h.last_bound
  have hpatch := withItem_patch hb hs bytes
  have hend := withItem_next hb bytes
  have hnext : nextOf (buf.used : ℤ) = some buf.used := by
    simp only [nextOf, sizeofSerialBuffer] at hused ⊢
    rw [if_neg (by omega), Int.toNat_natCast]
  have hlast := h.last
  cases hl : (itemStarts added).getLast? with
  | none =>
    rw [hl, Option.getD_none] at hlast
    rw [List.getLast?_eq_none_iff.mp hl]
    rw [hlast] at hpatch
    exact ⟨by rw [hpatch, hnext], 0, by rw [nodeAt, hend], rfl⟩
  | some l =>
    rw [hl, Option.getD_some] at hlast
    have hmem := List.mem_of_getLast? hl
    have hlb := h.item_bounds hmem
    simp only [sizeofItem, sizeofSerialBuffer] at hlb
    have hfresh : buf.used ∉ itemStarts added := by
      intro hm
      have := (h.item_bounds hm).2
      simp only [sizeofItem] at this
      omega
    have hsep : ∀ a ∈ itemStarts added, a ≠ l → a + sizeofItem ≤ l := by
      intro a ha hal
      obtain ⟨front, hfront⟩ := List.getLast?_eq_some_iff.mp hl
      have hord := h.items_ordered
      rw [hfront] at ha hord
      rcases List.mem_append.mp ha with hm | hm
      · exact (List.pairwise_append.mp hord).2.2 a hm l (List.mem_singleton.mpr rfl)
      · exact absurd (List.mem_singleton.mp hm) hal
    have hhead : readInt (withItem buf bytes).data 0 = readInt buf.data 0 := by
      apply withItem_readInt buf bytes
      · simp only [sizeofItem]
        omega
      · simp only [sizeofItem]
        omega
    have hchain : Chain (Function.update (nodeAt buf.data) buf.used (some 0)) nextOf
        (nextOf (readInt buf.data 0)) (itemStarts added) :=
      (h.chain (List.ne_nil_of_mem hmem)).congr fun a ha =>
        Function.update_of_ne (ne_of_mem_of_not_mem ha hfresh) _ _
    have hsnoc := hchain.snoc h.items_nodup hl hfresh (Function.update_self ..) rfl hnext
    rw [hhead]
    apply hsnoc.congr
    intro a ha
    by_cases hal : a = l
    · rw [hal, Function.update_self, nodeAt, ← hlast, hpatch]
    · rw [Function.update_of_ne hal]
      rcases List.mem_append.mp ha with hm | hm
      · rw [Function.update_of_ne (ne_of_mem_of_not_mem hm hfresh), nodeAt, nodeAt,
          withItem_readInt buf bytes (h.item_bounds hm).2 (.inl (hlast ▸ hsep a hm hal))]
      · rw [List.mem_singleton.mp hm, Function.update_self, nodeAt, hend]

lemma Laid.snocItem (h : Laid buf added) (hs : buf.used < 2 ^ 31) {bytes : List UInt8}
    (hfit : buf.used + (bytes.length + sizeofItem) ≤ buf.size) :
    Laid (withItem buf bytes) (added ++ [⟨.item bytes, buf.used + sizeofItem⟩]) := by
  have hstarts : itemStarts (added ++ [⟨.item bytes, buf.used + sizeofItem⟩]) = itemStarts added ++ [buf.used] := by
    simp [itemStarts, Added.item?, Op.item?, Added.start, Op.header]
  refine h.snoc (.item bytes) rfl hfit (fun a ha => ?_) (holds_write _ _ _) ?_ fun _ => ?_
  · refine (h.content a ha).congr fun k h1 h2 => ?_
    have hstop := (h.regions a ha).2.2
    have hdis := h.last_disjoint ha
    rw [Added.stop] at hstop hdis
    exact withItem_below buf bytes (by omega) (by omega)
  · refine Eq.trans ?_ (congrArg (fun l => l.getLast?.getD 0) hstarts.symm)
    simp [withItem]
  · exact hstarts.symm ▸ h.withItem_chain hs bytes

end

lemma Laid.add {buf buf' : SerialBuffer} {added : List Added} (h : Laid buf added) {fresh : Memory} {op : Op}
    {off : ℕ} (ha : add fresh buf op = some (buf', off)) (hs : buf.used < 2 ^ 31) :
    Laid buf' (added ++ [⟨op, off⟩]) ∧ buf'.used = buf.used + op.size := by
  cases op with
  | data bytes =>
    simp only [Serial.add, addData_eq] at ha
    obtain ⟨hu, -, -⟩ := reserve_fields fresh buf bytes.length
    split_ifs at ha with hfit
    have hr := h.reserve fresh hfit
    generalize Serial.reserve fresh buf bytes.length = b at ha hfit hr hu
    simp only [← hu] at ha hfit ⊢
    cases ha
    exact ⟨hr.snocData hfit, rfl⟩
  | item bytes =>
    simp only [Serial.add, addItem_eq fresh h.last_bound] at ha
    obtain ⟨hu, -, -⟩ := reserve_fields fresh buf (bytes.length + sizeofItem)
    split_ifs at ha with hfit
    have hr := h.reserve fresh hfit
    generalize Serial.reserve fresh buf (bytes.length + sizeofItem) = b at ha hfit hr hu
    simp only [← hu] at ha hfit hs ⊢
    cases ha
    exact ⟨hr.snocItem hs hfit, rfl⟩

lemma Laid.addAll {fresh : ℕ → Memory} {ops : List Op} {buf final : SerialBuffer} {added new : List Added}
    (h : Laid buf added) (ha : addAll fresh buf ops = some (final, new))
    (hs : buf.used + (ops.map Op.size).sum < 2 ^ 31) : Laid final (added ++ new) ∧ new.map Added.op = ops := by
  induction ops generalizing buf added new with
  | nil =>
    cases ha
    simpa using h
  | cons op ops ih =>
    rw [List.map_cons, List.sum_cons] at hs
    simp only [Serial.addAll, Option.bind_eq_bind, Option.bind_eq_some_iff, Prod.exists] at ha
    obtain ⟨buf', off, hadd, final', rest, hrest, he⟩ := ha
    cases he
    obtain ⟨hl, hu⟩ := h.add hadd (by omega)
    obtain ⟨hfinal, hops⟩ := ih hl hrest (by omega)
    exact ⟨by simpa using hfinal, by simp [hops]⟩

variable (buf : SerialBuffer)

lemma copied_byte (buffer : ℕ) {k : ℕ} (hk : k < buf.used) :
    copied buf buffer (buffer + k) = some (buf.data k) := by
  rw [copied, if_pos (by omega), Nat.add_sub_cancel_left]

lemma loadInt_copied (buffer : ℕ) {off : ℕ} (ho : off + sizeofItem ≤ buf.used) :
    loadInt (copied buf buffer) (buffer + off) = some (readInt buf.data off) := by
  simp only [sizeofItem] at ho
  simp [loadInt, Nat.add_assoc, copied_byte buf buffer (show off < buf.used by omega),
    copied_byte buf buffer (show off + 1 < buf.used by omega),
    copied_byte buf buffer (show off + 2 < buf.used by omega),
    copied_byte buf buffer (show off + 3 < buf.used by omega), readInt]

lemma readable_copied {buf : SerialBuffer} {off : ℕ} {bytes : List UInt8} (h : Holds buf.data off bytes)
    (hu : off + bytes.length ≤ buf.used) (buffer : ℕ) : Readable (copied buf buffer) (buffer + off) bytes := by
  intro k b hb
  have hk := (List.getElem?_eq_some_iff.mp hb).1
  rw [Nat.add_assoc, copied_byte buf buffer (by omega), h k b hb]

lemma relative_of_nextOf {v : ℤ} {a : ℕ} (h : nextOf v = some a) (ha : a ≠ 0) (buffer : ℕ) :
    v ≠ 0 ∧ relative buffer v = some (buffer + a) := by
  rw [nextOf] at h
  split_ifs at h with hz
  cases h
  exact ⟨hz, if_pos (by omega)⟩

def callsFrom (buffer i : ℕ) (starts : List ℕ) : List (ℕ × ℕ) :=
  (starts.zipIdx i).map fun p => (buffer + p.1 + sizeofItem, p.2)

lemma processLoop_chain (buffer : ℕ) {starts : List ℕ}
    (hb : ∀ a ∈ starts, a ≠ 0 ∧ a + sizeofItem ≤ buf.used) {a : ℕ}
    (hc : Chain (nodeAt buf.data) nextOf (some a) starts) (fuel i : ℕ) :
    processLoop (copied buf buffer) buffer fuel (buffer + a) i =
      if starts.length ≤ fuel then some (callsFrom buffer i starts, i + starts.length - 1) else none := by
  induction starts generalizing a fuel i with
  | nil => cases hc
  | cons c rest ih =>
    obtain ⟨hca, v, hv, hr⟩ := hc
    cases hca
    cases hv
    obtain ⟨-, hbound⟩ := hb c List.mem_cons_self
    cases fuel with
    | zero => simp [processLoop]
    | succ fuel =>
      simp only [processLoop, loadInt_copied buf buffer hbound]
      cases rest with
      | nil =>
        have hz : readInt buf.data c = 0 := by
          change nextOf (readInt buf.data c) = none at hr
          rw [nextOf] at hr
          split_ifs at hr with hz
          exact hz
        simp [hz, callsFrom]
      | cons d rest =>
        have hhead := hr.1
        have hbr : ∀ a ∈ d :: rest, a ≠ 0 ∧ a + sizeofItem ≤ buf.used :=
          fun a ha => hb a (List.mem_cons_of_mem _ ha)
        obtain ⟨hne, hrel⟩ := relative_of_nextOf hhead (hbr d List.mem_cons_self).1 buffer
        rw [hhead] at hr
        simp only [Option.bind_eq_bind, Option.bind_some, hne, if_false, hrel, ih hbr hr]
        by_cases hlen : (d :: rest).length ≤ fuel
        · have hlen' : (c :: d :: rest).length ≤ fuel + 1 := by
            simp only [List.length_cons] at hlen ⊢
            omega
          rw [if_pos hlen, if_pos hlen']
          simp only [Option.bind_some, callsFrom, List.zipIdx_cons, List.map_cons, List.length_cons]
          congr 2
          omega
        · have hlen' : ¬ (c :: d :: rest).length ≤ fuel + 1 := by
            simp only [List.length_cons] at hlen ⊢
            omega
          rw [if_neg hlen, if_neg hlen']
          rfl

lemma Laid.process {buf : SerialBuffer} {added : List Added} (h : Laid buf added) (hi : itemStarts added ≠ [])
    (buffer fuel : ℕ) :
    serialBufferProcess (copied buf buffer) buffer fuel =
      if (itemStarts added).length ≤ fuel then
        some (callsFrom buffer 0 (itemStarts added), (itemStarts added).length - 1)
      else none := by
  have hused := h.used
  have hb : ∀ a ∈ itemStarts added, a ≠ 0 ∧ a + sizeofItem ≤ buf.used := by
    intro a ha
    obtain ⟨h1, h2⟩ := h.item_bounds ha
    simp only [sizeofSerialBuffer] at h1
    exact ⟨by omega, h2⟩
  have hc := h.chain hi
  have hload := loadInt_copied buf buffer (show 0 + sizeofItem ≤ buf.used by
    simp only [sizeofItem, sizeofSerialBuffer] at hused ⊢
    omega)
  rw [Nat.add_zero] at hload
  obtain ⟨first, rest, hfr⟩ := List.exists_cons_of_ne_nil hi
  have hfirst : nextOf (readInt buf.data 0) = some first := by
    rw [hfr] at hc
    exact hc.1
  obtain ⟨-, hrel⟩ := relative_of_nextOf hfirst (hb first (by simp [hfr])).1 buffer
  rw [hfirst] at hc
  simp only [serialBufferProcess, hload, Option.bind_eq_bind, Option.bind_some, hrel,
    processLoop_chain buf buffer hb hc, Nat.zero_add]

lemma itemStarts_length (added : List Added) :
    (itemStarts added).length = (items (added.map Added.op)).length := by
  induction added with
  | nil => rfl
  | cons a added ih =>
    obtain ⟨op, off⟩ := a
    cases op with
    | data bytes => exact ih
    | item bytes => exact congrArg (· + 1) ih

lemma calls_readable {space : Space} {buffer : ℕ} {added : List Added}
    (h : ∀ a ∈ added, a.offset = a.start + a.op.header ∧ Readable space (buffer + a.offset) a.op.bytes) (i : ℕ) :
    List.Forall₂ (fun call bytes => Readable space call.1 bytes) (callsFrom buffer i (itemStarts added))
      (items (added.map Added.op)) := by
  induction added generalizing i with
  | nil => exact .nil
  | cons a added ih =>
    have ih' := fun i => ih (fun a ha => h a (List.mem_cons_of_mem _ ha)) i
    obtain ⟨ho, hr⟩ := h a List.mem_cons_self
    obtain ⟨op, off⟩ := a
    cases op with
    | data bytes => exact ih' i
    | item bytes =>
      have hcall : buffer + (Added.mk (.item bytes) off).start + sizeofItem = buffer + off := by
        simp only [Op.header] at ho
        omega
      simp only [itemStarts, items, Added.item?, Op.item?, List.map_cons, List.filterMap_cons, Option.map_some,
        callsFrom, List.zipIdx_cons, hcall]
      exact .cons hr (ih' (i + 1))

lemma callsFrom_indices (buffer : ℕ) (starts : List ℕ) :
    (callsFrom buffer 0 starts).map Prod.snd = List.range starts.length := by
  rw [callsFrom, List.map_map, List.range_eq_range', ← List.zipIdx_map_snd]
  rfl

lemma reserve_enough (fresh : Memory) (buf : SerialBuffer) {n : ℕ}
    (hn : buf.used + n + (buf.used + n) / 20 < 2 ^ 31) : buf.used + n ≤ (reserve fresh buf n).size := by
  rw [reserve]
  split_ifs with hg
  · have hmax : max (buf.size + buf.size / minBufferGrowPercent) (buf.used + n) < 2 ^ 31 := by
      simp only [minBufferGrowPercent]
      omega
    have hint : (Int32.ofNat (max (buf.size + buf.size / minBufferGrowPercent) (buf.used + n))).toInt =
        (max (buf.size + buf.size / minBufferGrowPercent) (buf.used + n) : ℕ) := Int32.toInt_ofNat_of_lt hmax
    simp only [serialBufferGrow, hint]
    omega
  · omega

lemma add_succeeds (fresh : Memory) {buf : SerialBuffer} {added : List Added} (h : Laid buf added) (op : Op)
    (hs : buf.used + op.size + (buf.used + op.size) / 20 < 2 ^ 31) : ∃ r, add fresh buf op = some r := by
  cases op with
  | data bytes =>
    have hfit := reserve_enough fresh buf hs
    exact ⟨_, (addData_eq fresh buf bytes).trans (if_pos hfit)⟩
  | item bytes =>
    have hfit := reserve_enough fresh buf hs
    exact ⟨_, (addItem_eq fresh h.last_bound bytes).trans (if_pos hfit)⟩

lemma addAll_succeeds (fresh : ℕ → Memory) (ops : List Op) {buf : SerialBuffer} {added : List Added}
    (h : Laid buf added) {total : ℕ} (ht : buf.used + (ops.map Op.size).sum = total)
    (hs : total + total / 20 < 2 ^ 31) : ∃ r, addAll fresh buf ops = some r := by
  induction ops generalizing buf added with
  | nil => exact ⟨_, rfl⟩
  | cons op ops ih =>
    rw [List.map_cons, List.sum_cons] at ht
    obtain ⟨⟨buf', off⟩, hadd⟩ := add_succeeds (fresh ops.length) h op (by omega)
    obtain ⟨hl, hu⟩ := h.add hadd (by omega)
    obtain ⟨⟨final, rest⟩, hrest⟩ := ih hl (by omega)
    exact ⟨(final, ⟨op, off⟩ :: rest), by simp [Serial.addAll, hadd, hrest]⟩

def Started : Prop :=
  (∃ fresh initSize now, serialBufferInit fresh initSize now = some buf) ∨ ∃ old now, buf = serialBufferClean old now

lemma Started.laid {buf : SerialBuffer} (h : Started buf) : Laid buf [] ∧ buf.used = sizeofSerialBuffer := by
  rcases h with ⟨fresh, initSize, now, hi⟩ | ⟨old, now, rfl⟩
  · rw [serialBufferInit] at hi
    split_ifs at hi
    cases hi
    exact ⟨laid_fresh rfl rfl, rfl⟩
  · exact ⟨laid_fresh rfl rfl, rfl⟩

section

variable {buf : SerialBuffer} {ops : List Op}

lemma not_roundTrip (hstart : Started buf) (fresh : ℕ → Memory) (hitem : items ops ≠ [])
    (hsize : totalSize ops < 2 ^ 31) (buffer : ℕ) : ¬ RoundTrip fresh buf ops buffer := by
  rintro ⟨final, added, calls, fuel, hadd, hproc, -⟩
  obtain ⟨hl, hu⟩ := hstart.laid
  obtain ⟨hfinal, hops⟩ := hl.addAll hadd (by rw [hu]; exact hsize)
  rw [List.nil_append] at hfinal
  have hlen := itemStarts_length added
  rw [hops] at hlen
  have hpos : 0 < (items ops).length := List.length_pos_iff.mpr hitem
  have hne : itemStarts added ≠ [] := List.length_pos_iff.mp (by omega)
  rw [hfinal.process hne] at hproc
  split_ifs at hproc
  have hret := congrArg Prod.snd (Option.some.inj hproc)
  simp only at hret
  omega

lemma delivers_all (hstart : Started buf) (fresh : ℕ → Memory) (hitem : items ops ≠ [])
    (hsize : totalSize ops + totalSize ops / 20 < 2 ^ 31) (buffer : ℕ) :
    Delivers fresh buf ops buffer ((items ops).length - 1) := by
  obtain ⟨hl, hu⟩ := hstart.laid
  have htotal : buf.used + (ops.map Op.size).sum = totalSize ops := by rw [hu, totalSize]
  obtain ⟨⟨final, added⟩, hadd⟩ := addAll_succeeds fresh ops hl htotal hsize
  obtain ⟨hfinal, hops⟩ := hl.addAll hadd (by omega)
  rw [List.nil_append] at hfinal
  have hlen := itemStarts_length added
  rw [hops] at hlen
  have hpos : 0 < (items ops).length := List.length_pos_iff.mpr hitem
  have hne : itemStarts added ≠ [] := List.length_pos_iff.mp (by omega)
  have hread : ∀ a ∈ added, a.offset = a.start + a.op.header ∧
      Readable (copied final buffer) (buffer + a.offset) a.op.bytes := by
    intro a ha
    obtain ⟨-, ho, hstop⟩ := hfinal.regions a ha
    exact ⟨ho, readable_copied (hfinal.content a ha) hstop buffer⟩
  refine ⟨final, added, callsFrom buffer 0 (itemStarts added), (itemStarts added).length, hadd, ?_, ?_, ?_, hops,
    fun a ha => (hread a ha).2, hfinal.ordered, fun a ha => ?_⟩
  · rw [hfinal.process hne, if_pos le_rfl, hlen]
  · rw [callsFrom_indices, hlen]
  · exact hops ▸ calls_readable hread 0
  · have := (hfinal.regions a ha).1
    simp only [sizeofSerialBuffer, sizeofHeader] at this ⊢
    omega

end

theorem process_returns_one_less {buf : SerialBuffer} (hstart : Started buf) (fresh : ℕ → Memory) {ops : List Op}
    (hitem : items ops ≠ []) (hsize : totalSize ops < 2 ^ 31) (buffer : ℕ) :
    ¬ RoundTrip fresh buf ops buffer ∧
    (totalSize ops + totalSize ops / 20 < 2 ^ 31 → Delivers fresh buf ops buffer ((items ops).length - 1)) :=
  ⟨not_roundTrip hstart fresh hitem hsize buffer, fun h => delivers_all hstart fresh hitem h buffer⟩

def emptyBuffer : SerialBuffer := serialBufferReset (fun _ => 0) ⟨fun _ => 0, 0, 0, 0, 0, 0, 0⟩ 1700000000

def metricOps : List Op := [.data [104, 105, 0], .item [1, 2, 3, 4]]

theorem one_metric_returns_zero : Started emptyBuffer ∧ items metricOps ≠ [] ∧ totalSize metricOps < 2 ^ 31 ∧
    ¬ RoundTrip (fun _ _ => 0) emptyBuffer metricOps 4096 ∧ Delivers (fun _ _ => 0) emptyBuffer metricOps 4096 0 := by
  have hstart : Started emptyBuffer := .inl ⟨fun _ => 0, 2048, 1700000000, rfl⟩
  have hitem : items metricOps ≠ [] := by simp [items, metricOps, Op.item?]
  have hsize : totalSize metricOps = 67 := rfl
  have h := process_returns_one_less hstart (fun _ _ => 0) hitem (by rw [hsize]; norm_num) 4096
  exact ⟨hstart, hitem, by rw [hsize]; norm_num, h.1, h.2 (by rw [hsize]; norm_num)⟩

theorem one_item_not_counted : ¬ RoundTrip (fun _ _ => 0) emptyBuffer [.item [1, 2, 3, 4]] 4096 := by
  apply not_roundTrip (.inl ⟨fun _ => 0, 2048, 1700000000, rfl⟩)
  · simp [items, Op.item?]
  · have hsize : totalSize [.item [1, 2, 3, 4]] = 64 := rfl
    rw [hsize]
    norm_num

end Glaber.Ipc.Serial
