import Glaber.Ipc.Metrics
import Glaber.Ipc.SerialRoundTrip

namespace Glaber.Ipc.Metrics

open Glaber.Lib.Bytes Glaber.Lib.Linked Glaber.Ipc.Ipc2 Glaber.Ipc.Serial

section

variable {space space' : Space} {a : ℕ} {bytes bytes' : List UInt8}

lemma readable_congr (h : Readable space a bytes) (heq : ∀ k, a ≤ k → k < a + bytes.length → space' k = space k) :
    Readable space' a bytes := by
  intro k b hb
  have hk := (List.getElem?_eq_some_iff.mp hb).1
  rw [heq _ (by omega) (by omega)]
  exact h k b hb

lemma readable_append : Readable space a (bytes ++ bytes') ↔
    Readable space a bytes ∧ Readable space (a + bytes.length) bytes' := by
  constructor
  · intro h
    refine ⟨fun k b hb => ?_, fun k b hb => ?_⟩
    · have hk := (List.getElem?_eq_some_iff.mp hb).1
      exact h k b (by rw [List.getElem?_append_left hk, hb])
    · have := h (bytes.length + k) b (by rw [List.getElem?_append_right (by omega), Nat.add_sub_cancel_left, hb])
      rwa [← Nat.add_assoc] at this
  · rintro ⟨hl, hr⟩ k b hb
    by_cases hk : k < bytes.length
    · rw [List.getElem?_append_left hk] at hb
      exact hl k b hb
    · rw [List.getElem?_append_right (by omega)] at hb
      have := hr _ b hb
      rwa [Nat.add_assoc, Nat.add_sub_cancel' (by omega)] at this

lemma readable_cons {b : UInt8} : Readable space a (b :: bytes) ↔ space a = some b ∧ Readable space (a + 1) bytes := by
  have h := @readable_append space a [b] bytes
  rw [List.singleton_append, List.length_singleton] at h
  rw [h]
  refine and_congr_left fun _ => ⟨fun h => h 0 b rfl, fun h k c hc => ?_⟩
  obtain ⟨hk, rfl⟩ := List.getElem?_eq_some_iff.mp hc
  obtain rfl : k = 0 := by simpa using hk
  exact h

lemma loadWord_readable (h : Readable space a bytes) : loadWord space a bytes.length = some (decodeWord bytes) := by
  induction bytes generalizing a with
  | nil => rfl
  | cons b bytes ih =>
    rw [readable_cons] at h
    rw [List.length_cons, loadWord, h.1, ih h.2]
    rfl

lemma loadWord_encodeWord {w n : ℕ} (h : Readable space a (encodeWord w n)) : loadWord space a w = some (n % 256 ^ w) := by
  have := loadWord_readable h
  rwa [encodeWord_length, decodeWord_encodeWord] at this

lemma loadMetric_readable {metric : Metric} {pad : Fin 7 → UInt8} (h : Readable space a (metric.encode pad)) :
    loadMetric space a = some metric := by
  rw [Metric.encode, Metric.head] at h
  simp only [readable_append, List.length_append, encodeWord_length, List.length_ofFn, Nat.add_assoc,
    Nat.reduceAdd] at h
  obtain ⟨⟨hitem, hhost, hflags, hsec, hns, htype, -⟩, hdata⟩ := h
  simp only [loadMetric, offsetofData, loadWord_encodeWord hitem, loadWord_encodeWord hhost,
    loadWord_encodeWord hflags, loadWord_encodeWord hsec, loadWord_encodeWord hns, loadWord_encodeWord htype,
    loadWord_encodeWord hdata]
  have hint : ∀ x : Int32, Int32.ofNat x.toUInt32.toNat = x := fun x => by
    rw [← UInt32.toInt32_ofNat', UInt32.ofNat_toNat, Int32.toInt32_toUInt32]
  simp [hint]

lemma head_length (metric : Metric) (pad : Fin 7 → UInt8) : (metric.head pad).length = offsetofData := by
  simp [Metric.head, offsetofData]

lemma encode_length (metric : Metric) (pad : Fin 7 → UInt8) : (metric.encode pad).length = sizeofMetric := by
  rw [Metric.encode, List.length_append, head_length, encodeWord_length, offsetofData, sizeofMetric]

lemma loadString_readable {text : List UInt8} (hz : 0 ∉ text) (h : Readable space a (text ++ [0])) {fuel : ℕ}
    (hfuel : text.length < fuel) : loadString space fuel a = some text := by
  induction text generalizing a fuel with
  | nil =>
    obtain ⟨fuel, rfl⟩ : ∃ f, fuel = f + 1 := ⟨fuel - 1, by simp at hfuel; omega⟩
    rw [loadString, (readable_cons.mp h).1]
    rfl
  | cons b text ih =>
    obtain ⟨fuel, rfl⟩ : ∃ f, fuel = f + 1 := ⟨fuel - 1, by simp at hfuel; omega⟩
    obtain ⟨hb, hz⟩ := List.ne_and_not_mem_of_not_mem_cons hz
    obtain ⟨hhead, htail⟩ := readable_cons.mp h
    rw [loadString, hhead]
    simp only [Option.bind_eq_bind, Option.bind_some, if_neg (Ne.symm hb),
      ih hz htail (Nat.lt_of_succ_lt_succ hfuel)]
    rfl

lemma patch_outside {k : ℕ} (h : k < a ∨ a + bytes.length ≤ k) : patch space a bytes k = space k :=
  if_neg (by omega)

end

section

def Fits (size used needMore : ℕ) : Prop :=
  size < used + needMore → max (size + size / minBufferGrowPercent) (used + needMore) < 2 ^ 31

instance (size used needMore : ℕ) : Decidable (Fits size used needMore) := inferInstanceAs (Decidable (_ → _))

def grown (size used needMore : ℕ) : ℕ :=
  if size < used + needMore then max (max (size + size / minBufferGrowPercent) (used + needMore)) 16384 else size

variable {buf buf' : SerialBuffer} {added : List Added}

lemma reserve_size (fresh : Memory) {n : ℕ} (h : Fits buf.size buf.used n) :
    (reserve fresh buf n).size = grown buf.size buf.used n := by
  rw [reserve, grown]
  split_ifs with hg
  · have hint := Int32.toInt_ofNat_of_lt (h hg)
    simp only [serialBufferGrow, hint, minBufferGrowBytes]
    omega
  · rfl

lemma reserve_enough_iff (fresh : Memory) (hsize : buf.size < 2 ^ 31) {n : ℕ} :
    buf.used + n ≤ (reserve fresh buf n).size ↔ Fits buf.size buf.used n := by
  constructor
  · intro h hg
    rw [reserve, if_pos hg] at h
    simp only [serialBufferGrow, minBufferGrowBytes] at h
    by_contra hbig
    generalize hnew : max (buf.size + buf.size / minBufferGrowPercent) (buf.used + n) = newLen at h hbig
    simp only [minBufferGrowPercent] at hnew
    rw [Int32.toInt_ofNat', Int.bmod, Int32.size] at h
    split_ifs at h <;> omega
  · intro h
    rw [reserve_size fresh h, grown]
    split_ifs with hg <;> omega

lemma reserve_size_lt (fresh : Memory) (hsize : buf.size < 2 ^ 31) (n : ℕ) : (reserve fresh buf n).size < 2 ^ 31 := by
  rw [reserve]
  split_ifs
  · have hlt := (Int32.ofNat (max (buf.size + buf.size / minBufferGrowPercent) (buf.used + n))).toInt_lt
    simp only [serialBufferGrow, minBufferGrowBytes]
    omega
  · exact hsize

lemma add_spec (fresh : Memory) (h : Laid buf added) (hsize : buf.size < 2 ^ 31) (op : Op) :
    (Fits buf.size buf.used op.size → ∃ buf', add fresh buf op = some (buf', buf.used + op.header) ∧
      buf'.size = grown buf.size buf.used op.size ∧ buf'.size < 2 ^ 31 ∧ buf'.used ≤ buf'.size ∧
      buf'.itemsCount = buf.itemsCount + (if op.item?.isSome then 1 else 0)) ∧
    (¬ Fits buf.size buf.used op.size → add fresh buf op = none) := by
  have hlt := reserve_size_lt fresh hsize op.size
  obtain ⟨hu, -, -⟩ := reserve_fields fresh buf op.size
  have hcount : (reserve fresh buf op.size).itemsCount = buf.itemsCount := by
    rw [reserve]
    split_ifs <;> rfl
  cases op with
  | data bytes =>
    change (reserve fresh buf bytes.length).size < 2 ^ 31 at hlt
    refine ⟨fun hfits => ?_, fun hfits => ?_⟩
    · have hroom := (reserve_enough_iff fresh hsize).mpr hfits
      refine ⟨_, (addData_eq fresh buf bytes).trans (if_pos hroom), reserve_size fresh hfits, hlt, hroom, hcount⟩
    · exact (addData_eq fresh buf bytes).trans (if_neg ((reserve_enough_iff fresh hsize).not.mpr hfits))
  | item bytes =>
    change (reserve fresh buf (bytes.length + sizeofItem)).size < 2 ^ 31 at hlt
    change (reserve fresh buf (bytes.length + sizeofItem)).used = _ at hu
    refine ⟨fun hfits => ?_, fun hfits => ?_⟩
    · have hroom := (reserve_enough_iff fresh hsize).mpr hfits
      refine ⟨_, (addItem_eq fresh h.last_bound bytes).trans (if_pos hroom), reserve_size fresh hfits, hlt, ?_,
        congrArg (· + 1) hcount⟩
      change (reserve fresh buf (bytes.length + sizeofItem)).used + (bytes.length + sizeofItem) ≤ _
      rw [hu]
      exact hroom
    · exact (addItem_eq fresh h.last_bound bytes).trans (if_neg ((reserve_enough_iff fresh hsize).not.mpr hfits))

end

section

def Metric.at (metric : Metric) (off : ℕ) : Metric := { metric with data := UInt64.ofNat off }

def Handed.textOp (handed : Handed) : Op := .data (handed.text ++ [0])

def Group (group : List Added) (handed : Handed) : Prop :=
  if isMetricDynamicSize handed.metric then ∃ off off' pad,
    group = [⟨handed.textOp, off⟩, ⟨.item ((handed.metric.at off).encode pad), off'⟩]
  else ∃ off' pad, group = [⟨.item (handed.metric.encode pad), off'⟩]

structure Holding (buf : SerialBuffer) (handed : List Handed) : Prop where
  count : buf.itemsCount = handed.length
  few : handed.length ≤ buf.used
  used_lt : buf.used < 2 ^ 31
  size_lt : buf.size < 2 ^ 31
  laid : ∃ groups, Laid buf groups.flatten ∧ List.Forall₂ Group groups handed

def MetricFits (size used : ℕ) (handed : Handed) : Prop :=
  let itemLen := sizeofMetric + sizeofItem
  if isMetricDynamicSize handed.metric then
    let textLen := handed.text.length + 1
    Fits size used textLen ∧ Fits (grown size used textLen) (used + textLen) itemLen
  else Fits size used itemLen

lemma write_write_tail (data : Memory) (a : ℕ) (xs : List UInt8) {ys zs : List UInt8} (h : ys.length = zs.length) :
    write (write data a (xs ++ ys)) (a + xs.length) zs = write data a (xs ++ zs) := by
  funext k
  simp only [write]
  by_cases hk : a + xs.length ≤ k
  · have hsub : k - a - xs.length = k - (a + xs.length) := by omega
    rw [if_pos hk, if_pos (by omega), if_pos (by omega), List.getElem?_append_right (by omega),
      List.getElem?_append_right (by omega), hsub]
    cases hz : zs[k - (a + xs.length)]? with
    | some c => rfl
    | none =>
      rw [List.getElem?_eq_none_iff, ← h, ← List.getElem?_eq_none_iff] at hz
      rw [hz]
      rfl
  · rw [if_neg hk]
    by_cases ha : a ≤ k
    · rw [if_pos ha, if_pos ha, List.getElem?_append_left (by omega), List.getElem?_append_left (by omega)]
    · rw [if_neg ha, if_neg ha]

lemma patched_item {buf : SerialBuffer} (metric : Metric) (pad : Fin 7 → UInt8) {off : ℕ} (hoff : off < 2 ^ 31)
    (hfit : buf.used + (sizeofMetric + sizeofItem) ≤ buf.size) :
    store (withItem buf (metric.encode pad)) (buf.used + sizeofItem + offsetofData) (encodeWord 8 off) =
      some (withItem buf ((metric.at off).encode pad)) := by
  have hlen : offsetofData + 8 = sizeofMetric := rfl
  have hdata : (metric.at off).data.toNat = off := by
    rw [Metric.at, UInt64.toNat_ofNat', Nat.mod_eq_of_lt (by omega)]
  rw [store, encodeWord_length, if_pos]
  · rw [withItem, withItem, encode_length, encode_length]
    have htail : (encodeWord 8 metric.data.toNat).length = (encodeWord 8 off).length := by simp
    have hwrite := fun data => write_write_tail data (buf.used + sizeofItem) (metric.head pad) htail
    rw [head_length] at hwrite
    simp only [Metric.encode, hdata, hwrite]
    rfl
  · change _ ≤ buf.size
    omega

variable {buf : SerialBuffer} {added : List Added} {handed : List Handed}

lemma addItem_patched (h : Laid buf added) (fresh : Memory) (metric : Metric) (pad : Fin 7 → UInt8) {off : ℕ}
    (hoff : off < 2 ^ 31) :
    ((serialBufferAddItem fresh buf (metric.encode pad)).bind fun (b, m) =>
      store b (m + offsetofData) (encodeWord 8 off)) =
    (add fresh buf (.item ((metric.at off).encode pad))).map Prod.fst := by
  obtain ⟨hu, -, -⟩ := reserve_fields fresh buf (sizeofMetric + sizeofItem)
  simp only [add, addItem_eq fresh h.last_bound, encode_length]
  by_cases hroom : buf.used + (sizeofMetric + sizeofItem) ≤ (reserve fresh buf (sizeofMetric + sizeofItem)).size
  · rw [if_pos hroom, if_pos hroom]
    have := patched_item metric pad hoff (hu.symm ▸ hroom)
    rw [hu] at this
    exact this
  · rw [if_neg hroom, if_neg hroom]
    rfl

lemma used_lt_of_laid (h : Laid buf added) (hne : added ≠ []) (hsize : buf.size < 2 ^ 31) : buf.used < 2 ^ 31 :=
  (h.fits hne).trans_lt hsize

lemma Holding.snoc {buf' : SerialBuffer} {groups : List (List Added)} {group : List Added} {new : Handed}
    (h : Holding buf handed) (hgroups : List.Forall₂ Group groups handed) (hgroup : Group group new)
    (hlaid : Laid buf' (groups.flatten ++ group)) (hne : group ≠ []) (hsize : buf'.size < 2 ^ 31)
    (hused : buf.used < buf'.used) (hcount : buf'.itemsCount = buf.itemsCount + 1) : Holding buf' (handed ++ [new]) := by
  refine ⟨?_, ?_, used_lt_of_laid hlaid (List.append_ne_nil_of_right_ne_nil _ hne) hsize, hsize, groups ++ [group], ?_, ?_⟩
  · rw [hcount, h.count, List.length_append, List.length_singleton]
  · have := h.few
    rw [List.length_append, List.length_singleton]
    omega
  · rwa [List.flatten_append, List.flatten_singleton]
  · exact List.rel_append hgroups (.cons hgroup .nil)

lemma Holding.addMetric (h : Holding buf handed) (fresh₁ fresh₂ : Memory) (pad : Fin 7 → UInt8) (new : Handed) :
    (MetricFits buf.size buf.used new →
      ∃ buf', bufferAddMetric fresh₁ fresh₂ pad buf new = some buf' ∧ Holding buf' (handed ++ [new])) ∧
    (¬ MetricFits buf.size buf.used new → bufferAddMetric fresh₁ fresh₂ pad buf new = none) := by
  obtain ⟨groups, hlaid, hgroups⟩ := h.laid
  have hbase := hlaid.used
  simp only [sizeofSerialBuffer] at hbase
  cases hdyn : isMetricDynamicSize new.metric with
  | true =>
    have hzero : buf.used ≠ 0 := by omega
    simp only [MetricFits, hdyn, if_true, bufferAddMetric]
    obtain ⟨hsome, hnone⟩ := add_spec fresh₁ hlaid h.size_lt new.textOp
    have hlen : new.textOp.size = new.text.length + 1 := by simp [Handed.textOp, Op.size, Op.bytes, Op.header]
    rw [hlen] at hsome hnone
    by_cases htext : Fits buf.size buf.used (new.text.length + 1)
    · obtain ⟨buf₁, hadd, hsize₁, hlt₁, -, hcount₁⟩ := hsome htext
      obtain ⟨hlaid₁, hused₁⟩ := hlaid.add hadd h.used_lt
      rw [hlen] at hused₁
      have hadd' : serialBufferAddData fresh₁ buf (new.text ++ [0]) = some (buf₁, buf.used) := hadd
      obtain ⟨hsome₂, hnone₂⟩ := add_spec fresh₂ hlaid₁ hlt₁ (.item ((new.metric.at buf.used).encode pad))
      have hitem := addItem_patched hlaid₁ fresh₂ new.metric pad h.used_lt
      have hlen₂ : (Op.item ((new.metric.at buf.used).encode pad)).size = sizeofMetric + sizeofItem := by
        rw [Op.size, Op.bytes, encode_length, Op.header]
      rw [hlen₂, hsize₁, hused₁] at hsome₂ hnone₂
      simp only [hadd', htext, true_and, Option.bind_eq_bind, Option.bind_some, ne_eq, hzero, not_false_eq_true,
        if_true, hitem]
      refine ⟨fun hfits => ?_, fun hfits => by rw [hnone₂ hfits]; rfl⟩
      obtain ⟨buf₂, hadd₂, -, hlt₂, -, hcount₂⟩ := hsome₂ hfits
      have hused₁lt := used_lt_of_laid hlaid₁ (by simp) hlt₁
      obtain ⟨hlaid₂, hused₂⟩ := hlaid₁.add (hused₁ ▸ hadd₂) hused₁lt
      refine ⟨buf₂, by rw [hadd₂]; rfl, ?_⟩
      rw [List.append_assoc] at hlaid₂
      refine h.snoc hgroups ?_ hlaid₂ (by simp) hlt₂ (by omega) ?_
      · rw [Group, if_pos hdyn]
        exact ⟨_, _, pad, rfl⟩
      · rw [hcount₂, hcount₁]
        rfl
    · refine ⟨fun hfits => absurd hfits.1 htext, fun _ => ?_⟩
      have hadd : serialBufferAddData fresh₁ buf (new.text ++ [0]) = none := hnone htext
      rw [hadd]
      rfl
  | false =>
    obtain ⟨hsome, hnone⟩ := add_spec fresh₂ hlaid h.size_lt (.item (new.metric.encode pad))
    have hlen : (Op.item (new.metric.encode pad)).size = sizeofMetric + sizeofItem := by
      rw [Op.size, Op.bytes, encode_length, Op.header]
    rw [hlen] at hsome hnone
    simp only [MetricFits, hdyn, bufferAddMetric, Bool.false_eq_true, if_false, Option.bind_eq_bind,
      Option.bind_some, ne_eq, not_true_eq_false]
    refine ⟨fun hfits => ?_, fun hfits => ?_⟩
    · obtain ⟨buf', hadd, -, hlt, -, hcount⟩ := hsome hfits
      obtain ⟨hlaid', hused⟩ := hlaid.add hadd h.used_lt
      have hadd' : serialBufferAddItem fresh₂ buf (new.metric.encode pad) = some (buf', _) := hadd
      refine ⟨buf', by rw [hadd']; rfl, h.snoc hgroups ?_ hlaid' (by simp) hlt ?_ hcount⟩
      · rw [Group, if_neg (by simp [hdyn])]
        exact ⟨_, pad, rfl⟩
      · rw [hused, hlen, sizeofMetric]
        omega
    · have hadd : serialBufferAddItem fresh₂ buf (new.metric.encode pad) = none := hnone hfits
      rw [hadd]
      rfl

end

section

variable {space : Space} {data : Memory} {buffer lo used : ℕ}

def Agrees (space : Space) (data : Memory) (buffer lo used : ℕ) : Prop :=
  ∀ k, lo ≤ k → k < used → space (buffer + k) = some (data k)

structure Region (data : Memory) (lo used : ℕ) (a : Added) : Prop where
  low : lo ≤ a.start
  base : sizeofSerialBuffer ≤ a.start
  offset : a.offset = a.start + a.op.header
  high : a.stop ≤ used
  content : Holds data a.offset a.op.bytes

lemma Agrees.readable (h : Agrees space data buffer lo used) {a : Added} (ha : Region data lo used a) :
    Readable space (buffer + a.offset) a.op.bytes := by
  intro k b hb
  have hk := (List.getElem?_eq_some_iff.mp hb).1
  have hlow := ha.low
  have hhigh := ha.high
  have hoff := ha.offset
  rw [Added.stop] at hhigh
  rw [Nat.add_assoc, h _ (by omega) (by omega), ha.content k b hb]

lemma loadInt_agrees {a off : ℕ} (h : ∀ k < 4, space (a + k) = some (data (off + k))) :
    loadInt space a = some (readInt data off) := by
  have h0 := h 0 (by omega)
  rw [Nat.add_zero, Nat.add_zero] at h0
  rw [loadInt, h0, h 1 (by omega), h 2 (by omega), h 3 (by omega)]
  rfl

lemma at_data {metric : Metric} {off : ℕ} (hoff : off < 2 ^ 31) : (metric.at off).data.toNat = off := by
  rw [Metric.at, UInt64.toNat_ofNat', Nat.mod_eq_of_lt (by omega)]

lemma at_dynamic {metric : Metric} {off : ℕ} (h : isMetricDynamicSize metric = true) (hpos : 0 < off)
    (hoff : off < 2 ^ 31) : isMetricDynamicSize (metric.at off) = true := by
  have hne : (metric.at off).data ≠ 0 := by
    intro h0
    have := @at_data metric off hoff
    rw [h0] at this
    exact absurd this (by simp; omega)
  simp only [isMetricDynamicSize, decide_eq_true_eq] at h ⊢
  exact h.imp id fun h => ⟨h.1, hne⟩

lemma Agrees.item (h : Agrees space data buffer lo used) {metric : Metric} {pad : Fin 7 → UInt8} {off : ℕ}
    (ha : Region data lo used ⟨.item (metric.encode pad), off⟩) :
    ∃ item, itemStarts [⟨.item (metric.encode pad), off⟩] = [item] ∧
      lo ≤ item ∧ (Added.mk (.item (metric.encode pad)) off).start = item ∧
      (Added.mk (.item (metric.encode pad)) off).stop = item + (sizeofItem + sizeofMetric) ∧
      item + (sizeofItem + sizeofMetric) ≤ used ∧ loadMetric space (buffer + item + sizeofItem) = some metric := by
  have hoff : off = (Added.mk (.item (metric.encode pad)) off).start + sizeofItem := ha.offset
  have hstop : (Added.mk (.item (metric.encode pad)) off).stop = off + sizeofMetric := by
    rw [Added.stop, Op.bytes, encode_length]
  have hload := loadMetric_readable (h.readable ha)
  rw [hoff, ← Nat.add_assoc] at hload
  have hhigh := ha.high
  exact ⟨(Added.mk (.item (metric.encode pad)) off).start, rfl, ha.low, rfl, by omega, by omega, hload⟩

lemma metricParseCb_group {group : List Added} {handed : Handed} (hgroup : Group group handed)
    (hregion : ∀ a ∈ group, Region data lo used a) (hordered : group.Pairwise fun a b => a.stop ≤ b.start)
    (hused : used < 2 ^ 31) (hspace : Agrees space data buffer lo used) {fuel : ℕ} (hfuel : used ≤ fuel) :
    ∃ item space', itemStarts group = [item] ∧ lo ≤ item ∧ item + (sizeofItem + sizeofMetric) ≤ used ∧
      (∃ a ∈ group, a.stop = item + (sizeofItem + sizeofMetric)) ∧
      metricParseCb fuel space buffer (buffer + item + sizeofItem) = some (space', handed.reading) ∧
      ∀ k, (k < item + sizeofItem ∨ item + (sizeofItem + sizeofMetric) ≤ k) →
        space' (buffer + k) = space (buffer + k) := by
  rw [Group] at hgroup
  split_ifs at hgroup with hdyn
  · obtain ⟨off, off', pad, rfl⟩ := hgroup
    have htext := hregion _ List.mem_cons_self
    obtain ⟨item, hstarts, hlow, hstart, hstop, hhigh, hload⟩ := hspace.item (hregion _ (List.mem_cons_of_mem _ List.mem_cons_self))
    have hbefore := List.rel_of_pairwise_cons hordered (List.mem_singleton_self _)
    have htextOff : off = (Added.mk handed.textOp off).start := htext.offset
    have htextStop : (Added.mk handed.textOp off).stop = off + (handed.text.length + 1) := by
      simp [Added.stop, Handed.textOp, Op.bytes]
    have hbase := htext.base
    rw [htextStop, hstart] at hbefore
    rw [← htextOff, sizeofSerialBuffer] at hbase
    have hoff : off < 2 ^ 31 := by omega
    have hkeep : ∀ k, (k < item + sizeofItem ∨ item + (sizeofItem + sizeofMetric) ≤ k) →
        patch space (buffer + item + sizeofItem + offsetofData) (encodeWord 8 (buffer + off)) (buffer + k) =
          space (buffer + k) := by
      intro k hk
      apply patch_outside
      simp only [encodeWord_length, offsetofData, sizeofItem, sizeofMetric] at hk ⊢
      omega
    -- the text was laid before the item, so that the new pointer does not touch it
    have hstring : loadString (patch space (buffer + item + sizeofItem + offsetofData) (encodeWord 8 (buffer + off)))
        fuel (buffer + off) = some handed.text := by
      refine loadString_readable handed.terminated (readable_congr (hspace.readable htext) fun k hl hh => ?_) (by omega)
      obtain ⟨k, rfl⟩ : ∃ j, k = buffer + j := ⟨k - buffer, by omega⟩
      simp only [List.length_append, List.length_singleton] at hh
      exact hkeep k (by omega)
    refine ⟨item, _, hstarts, hlow, hhigh, ⟨_, List.mem_cons_of_mem _ List.mem_cons_self, hstop⟩, ?_, hkeep⟩
    simp only [metricParseCb, hload, Option.bind_eq_bind, Option.bind_some,
      at_dynamic hdyn (by omega : 0 < off) hoff, if_true, at_data hoff, serialBufferGetRealAddr, hstring]
    rw [Handed.reading, if_pos hdyn]
    rfl
  · obtain ⟨off', pad, rfl⟩ := hgroup
    obtain ⟨item, hstarts, hlow, -, hstop, hhigh, hload⟩ := hspace.item (hregion _ List.mem_cons_self)
    refine ⟨item, space, hstarts, hlow, hhigh, ⟨_, List.mem_cons_self, hstop⟩, ?_, fun _ _ => rfl⟩
    simp only [metricParseCb, hload, Option.bind_eq_bind, Option.bind_some]
    rw [if_neg hdyn, Handed.reading, if_neg hdyn]
    rfl

lemma itemStarts_append (added added' : List Added) : itemStarts (added ++ added') = itemStarts added ++ itemStarts added' :=
  List.filterMap_append ..

lemma Group.start {group : List Added} {handed : Handed} (h : Group group handed) : ∃ item, itemStarts group = [item] := by
  rw [Group] at h
  split_ifs at h
  · obtain ⟨off, off', pad, rfl⟩ := h
    exact ⟨_, rfl⟩
  · obtain ⟨off', pad, rfl⟩ := h
    exact ⟨_, rfl⟩

lemma processMetrics_groups {groups : List (List Added)} {handed : List Handed}
    (hgroups : List.Forall₂ Group groups handed) (hregion : ∀ a ∈ groups.flatten, Region data lo used a)
    (hordered : groups.flatten.Pairwise fun a b => a.stop ≤ b.start) (hused : used < 2 ^ 31)
    (hspace : Agrees space data buffer lo used) {fuel : ℕ} (hfuel : used ≤ fuel) {first : ℕ}
    (hchain : Chain (nodeAt data) nextOf (some first) (itemStarts groups.flatten)) {n : ℕ} (hn : handed.length ≤ n) :
    processMetrics fuel buffer n space (buffer + first) = some (handed.map Handed.reading) := by
  induction hgroups generalizing space lo first n with
  | nil => cases hchain
  | @cons group new groups handed hgroup hgroups ih =>
    rw [List.flatten_cons] at hregion hordered hchain
    obtain ⟨hown, hothers, hcross⟩ := List.pairwise_append.mp hordered
    obtain ⟨item, space', hstarts, hlow, hhigh, ⟨last, hlast, hstop⟩, hparse, hkeep⟩ := metricParseCb_group hgroup
      (fun a ha => hregion a (List.mem_append_left _ ha)) hown hused hspace hfuel
    rw [itemStarts_append, hstarts] at hchain
    obtain ⟨hfirst, v, hv, hrest⟩ := hchain
    obtain rfl := Option.some.inj hfirst
    obtain rfl := Option.some.inj hv
    obtain ⟨n, rfl⟩ : ∃ m, n = m + 1 := ⟨n - 1, by simp at hn; omega⟩
    have hnext : loadInt space' (buffer + first) = some (readInt data first) := by
      apply loadInt_agrees
      intro k hk
      simp only [sizeofItem, sizeofMetric] at hkeep hhigh
      rw [Nat.add_assoc, hkeep _ (.inl (by omega)), hspace _ (by omega) (by omega)]
    rw [processMetrics, hparse]
    simp only [Option.bind_eq_bind, Option.bind_some, hnext]
    have hspace' : Agrees space' data buffer (first + (sizeofItem + sizeofMetric)) used := by
      intro k hl hu
      rw [hkeep k (.inr hl), hspace k (by omega) hu]
    have hregion' : ∀ a ∈ groups.flatten, Region data (first + (sizeofItem + sizeofMetric)) used a := by
      intro a ha
      have hold := hregion a (List.mem_append_right _ ha)
      exact ⟨hstop ▸ hcross last hlast a ha, hold.base, hold.offset, hold.high, hold.content⟩
    cases hgroups with
    | nil =>
      have hz : readInt data first = 0 := by
        change nextOf (readInt data first) = none at hrest
        rw [nextOf] at hrest
        split_ifs at hrest with hz
        exact hz
      rw [if_pos hz]
      rfl
    | @cons group' _ groups' _ hgroup' hgroups' =>
      obtain ⟨next, hstart⟩ := hgroup'.start
      have hhead : nextOf (readInt data first) = some next := by
        rw [List.flatten_cons, itemStarts_append, hstart] at hrest
        exact hrest.1
      have hmem : next ∈ itemStarts (group' :: groups').flatten := by
        rw [List.flatten_cons, itemStarts_append, hstart]
        exact List.mem_cons_self
      obtain ⟨a, ha, hstart, -⟩ := mem_itemStarts hmem
      have hbase := (hregion' a ha).base
      simp only [sizeofSerialBuffer] at hbase
      obtain ⟨hne, hrel⟩ := relative_of_nextOf hhead (by omega) buffer
      have hlen : (_ :: _ : List Handed).length ≤ n := Nat.le_of_succ_le_succ hn
      rw [if_neg hne, hrel, Option.bind_some, ih hregion' hothers hspace' (hhead ▸ hrest) hlen]
      rfl

lemma received_chunkOf (buf : SerialBuffer) (buffer : ℕ) : received (chunkOf buf) buffer = copied buf buffer := by
  funext a
  rw [received, copied, chunkOf]
  by_cases hlow : buffer ≤ a
  · by_cases hhigh : a < buffer + buf.used
    · rw [if_pos hlow, if_pos ⟨hlow, hhigh⟩, List.getElem?_map, List.getElem?_range (by omega), Option.map_some]
    · rw [if_pos hlow, if_neg fun h => hhigh h.2]
      exact List.getElem?_eq_none (by rw [List.length_map, List.length_range]; omega)
  · rw [if_neg hlow, if_neg fun h => hlow h.1]

lemma Holding.chunk_read {buf : SerialBuffer} {handed : List Handed} (h : Holding buf handed) (hne : handed ≠ [])
    (buffer : ℕ) : metricsChunkProcessCb (chunkOf buf) buffer = some (handed.map Handed.reading) := by
  obtain ⟨groups, hlaid, hgroups⟩ := h.laid
  have hlen : (chunkOf buf).length = buf.used := by rw [chunkOf, List.length_map, List.length_range]
  have hspace : Agrees (copied buf buffer) buf.data buffer 0 buf.used := fun k _ hk => copied_byte buf buffer hk
  have hregion : ∀ a ∈ groups.flatten, Region buf.data 0 buf.used a := fun a ha =>
    let ⟨hbase, hoff, hhigh⟩ := hlaid.regions a ha
    ⟨Nat.zero_le _, hbase, hoff, hhigh, hlaid.content a ha⟩
  cases hgroups with
  | nil => exact absurd rfl hne
  | @cons group new groups handed hgroup hgroups =>
    obtain ⟨first, hstart⟩ := hgroup.start
    have hstarts : itemStarts (group :: groups).flatten = first :: itemStarts groups.flatten := by
      rw [List.flatten_cons, itemStarts_append, hstart, List.singleton_append]
    have hmem : first ∈ itemStarts (group :: groups).flatten := hstarts ▸ List.mem_cons_self
    have hchain := hlaid.chain (List.ne_nil_of_mem hmem)
    have hhead : nextOf (readInt buf.data 0) = some first := by
      rw [hstarts] at hchain
      exact hchain.1
    have hbase := (hlaid.item_bounds hmem).1
    have hused := hlaid.used
    simp only [sizeofSerialBuffer] at hbase hused
    obtain ⟨-, hrel⟩ := relative_of_nextOf hhead (by omega) buffer
    have hload : loadInt (copied buf buffer) buffer = some (readInt buf.data 0) :=
      loadInt_agrees fun k hk => by rw [copied_byte buf buffer (by omega), Nat.zero_add]
    rw [metricsChunkProcessCb, received_chunkOf, hlen, hload]
    simp only [Option.bind_eq_bind, Option.bind_some, hrel]
    exact processMetrics_groups (.cons hgroup hgroups) hregion hlaid.ordered h.used_lt hspace le_rfl (hhead ▸ hchain)
      h.few

end

end Glaber.Ipc.Metrics
