import Glaber.Algo.TsbuffFind
import Glaber.Lib.Runs

namespace Glaber.Algo.Tsbuff

open Glaber.Lib.Ring Glaber.Lib.Runs

variable {α : Type}

def live (b : Tsbuff α) : List (TsValue α) := (List.range b.count).map fun k : ℕ => b.get ((b.tail + k) % b.size)

section

variable {b : Tsbuff α} {l : List (TsValue α)}

lemma Rep.cell_eq_emod (h : Rep b l) (hl : l ≠ []) {k : ℕ} (hk : k ≤ b.size) : (b.cell k : ℤ) = (b.tail + k) % b.size := by
  obtain ⟨ht0, ht1⟩ := h.tail hl
  have hlt := h.cell_lt hl hk
  have hcell : b.cell k = if b.tail.toNat + k < b.size then b.tail.toNat + k else b.tail.toNat + k - b.size := rfl
  split_ifs at hcell with hwrap
  · rw [Int.emod_eq_of_lt] <;> omega
  · have hsub : (b.tail + k) % b.size = (b.tail + k - b.size) % b.size := (Int.sub_emod_right _ _).symm
    rw [hsub, Int.emod_eq_of_lt] <;> omega

lemma Rep.live (h : Rep b l) : b.live = l := by
  apply List.ext_getElem
  · rw [Tsbuff.live, List.length_map, List.length_range, h.count]
  · intro k hk hk'
    have hl : l ≠ [] := List.ne_nil_of_length_pos (by omega)
    have hfit := h.fits
    have hcell := h.cell_eq_emod hl (by omega : k ≤ b.size)
    simp only [Tsbuff.live, List.getElem_map, List.getElem_range]
    rw [← hcell, h.get_cell (List.getElem?_eq_getElem hk')]

lemma Rep.nil_iff (h : Rep b l) : l = [] ↔ b.count = 0 := by
  rw [h.count, List.length_eq_zero_iff]

lemma Rep.head_eq_emod (h : Rep b l) (hl : l ≠ []) : b.head = (b.tail + b.count - 1) % b.size := by
  have hfit := h.fits
  have hpos := List.length_pos_of_ne_nil hl
  rw [h.head hl, h.cell_eq_emod hl (by omega), h.count]
  congr 1
  omega

lemma Rep.ends_iff (h : Rep b l) : (b.head = -1 ↔ b.count = 0) ∧ (b.tail = -1 ↔ b.count = 0) := by
  rw [← h.nil_iff]
  by_cases hl : l = []
  · obtain ⟨hh, ht⟩ := h.empty hl
    exact ⟨⟨fun _ => hl, fun _ => hh⟩, ⟨fun _ => hl, fun _ => ht⟩⟩
  · have hh := h.head hl
    have ht := h.tail hl
    exact ⟨⟨fun hm => by omega, fun hn => absurd hn hl⟩, ⟨fun hm => by omega, fun hn => absurd hn hl⟩⟩

end

section

variable {b : Tsbuff α} {l : List (TsValue α)} {time : ℤ}

lemma getLast?_eq_getElem? {v : TsValue α} (hv : v ∈ l.getLast?) : l[l.length - 1]? = some v := by
  rw [← List.getLast?_eq_getElem?]
  exact hv

def Late (l : List (TsValue α)) (time : ℤ) : Prop := ∃ v ∈ l.getLast?, v.time ≠ zbxJan2038 ∧ time < v.time

instance (l : List (TsValue α)) (time : ℤ) : Decidable (Late l time) :=
  match h : l.getLast? with
  | none => isFalse (by simp [Late, h])
  | some v => decidable_of_iff (v.time ≠ zbxJan2038 ∧ time < v.time) (by simp [Late, h])

lemma Rep.late_iff (h : Rep b l) :
    Late l time ↔ 0 < b.count ∧ b.getTimeHead ≠ zbxJan2038 ∧ time < b.getTimeHead := by
  constructor
  · rintro ⟨v, hv, hne, hlt⟩
    have hl : l ≠ [] := by
      rintro rfl
      cases hv
    rw [h.getTimeHead_eq (getLast?_eq_getElem? hv)]
    exact ⟨Nat.pos_of_ne_zero (h.count_ne_zero hl), hne, hlt⟩
  · rintro ⟨hpos, hlate⟩
    have hl : l ≠ [] := fun hnil => by rw [h.nil_iff] at hnil; omega
    have hlast : l.getLast hl ∈ l.getLast? := List.getLast?_eq_some_getLast hl
    rw [h.getTimeHead_eq (getLast?_eq_getElem? hlast)] at hlate
    exact ⟨_, hlast, hlate⟩

lemma Rep.addToHead_late (h : Rep b l) (hlate : Late l time) : b.addToHead time = none :=
  if_pos (h.late_iff.mp hlate)

lemma Rep.newHead (h : Rep b l) (hl : l ≠ []) :
    b.index (b.head + 1) = b.cell l.length ∧ ((b.cell l.length : ℤ) = b.tail ↔ l.length = b.size) := by
  have hfit := h.fits
  have hpos := List.length_pos_of_ne_nil hl
  obtain ⟨ht0, ht1⟩ := h.tail hl
  have hsucc := h.index_succ hl (k := l.length - 1) (by omega)
  rw [Nat.sub_add_cancel hpos] at hsucc
  refine ⟨by rw [h.head hl, hsucc], ?_⟩
  have hcell : b.cell l.length = if b.tail.toNat + l.length < b.size then b.tail.toNat + l.length
    else b.tail.toNat + l.length - b.size := rfl
  split_ifs at hcell <;> omega

lemma Rep.addToHead_full (h : Rep b l) (hfull : l.length = b.size) (hsize : 1 < b.size) : b.addToHead time = none := by
  have hl : l ≠ [] := List.ne_nil_of_length_pos (by omega)
  have hcount := h.count
  obtain ⟨hindex, hcell⟩ := h.newHead hl
  by_cases hlate : Late l time
  · exact h.addToHead_late hlate
  · have hnew : (if 0 < b.count then b.index (b.head + 1) else 0) = b.tail := by
      rw [if_pos (by omega), hindex, hcell.mpr hfull]
    rw [addToHead, if_neg (mt h.late_iff.mpr hlate)]
    exact if_pos ⟨hnew, hsize⟩

lemma Rep.addToHead_overflow (h : Rep b l) (hfull : l.length = b.size) (hsize : b.size = 1) (hlate : ¬ Late l time) :
    ∃ idx b', b.addToHead time = some (idx, b') ∧ b'.count = b'.size + 1 := by
  have hcount := h.count
  rw [addToHead, if_neg (mt h.late_iff.mpr hlate), if_neg (by omega)]
  exact ⟨_, _, rfl, by show b.count + 1 = b.size + 1; omega⟩

lemma Rep.addToHead_some (h : Rep b l) (hlt : l.length < b.size) (hlate : ¬ Late l time) :
    ∃ idx b', b.addToHead time = some (idx, b') ∧ b'.size = b.size ∧ ∀ x, Rep (b'.put idx ⟨time, x⟩) (l ++ [⟨time, x⟩]) := by
  have hcount := h.count
  have hne : ∀ x, l ++ [(⟨time, x⟩ : TsValue α)] ≠ [] := fun x => List.append_ne_nil_of_right_ne_nil l (List.cons_ne_nil _ _)
  rw [addToHead, if_neg (mt h.late_iff.mpr hlate)]
  dsimp only
  rcases eq_or_ne l [] with rfl | hl
  · have hempty := h.empty rfl
    rw [List.length_nil] at hcount
    have hnew : (if 0 < b.count then b.index (b.head + 1) else 0) = 0 := if_neg (by omega)
    rw [hnew, if_neg (by omega)]
    refine ⟨_, _, rfl, rfl, fun x => ?_⟩
    apply Rep.of_start 0 (hne x)
    · simp [put, hcount]
    · exact h.size_pos
    · simp [put, hcount]
    · exact h.size_pos
    · simp [put, pos]
    · intro k v hk
      obtain ⟨rfl, rfl⟩ : k = 0 ∧ ⟨time, x⟩ = v := by
        rcases k with _ | k <;> simp at hk ⊢
        exact hk
      simp [put, pos, h.size_pos, setTime]
  · obtain ⟨hindex, hcell⟩ := h.newHead hl
    obtain ⟨ht0, ht1⟩ := h.tail hl
    have hpos := List.length_pos_of_ne_nil hl
    have htail : ((b.tail.toNat : ℕ) : ℤ) = b.tail := Int.toNat_of_nonneg ht0
    have hnew : (if 0 < b.count then b.index (b.head + 1) else 0) = b.cell l.length := by rw [if_pos (by omega), hindex]
    rw [hnew, if_neg (by rw [hcell]; omega), if_neg (by omega)]
    refine ⟨_, _, rfl, rfl, fun x => ?_⟩
    apply Rep.of_start b.tail.toNat (hne x)
    · simp [put, hcount]
    · rw [List.length_append]
      exact hlt
    · exact htail.symm
    · exact h.tail_lt hl
    · rw [List.length_append, List.length_singleton, Nat.add_sub_cancel]
      rfl
    · intro k v hk
      show Function.update (Function.update b.data _ _) _ _ (b.cell k) = v
      rw [Int.toNat_natCast, Function.update_idem]
      rcases Nat.lt_or_ge k l.length with hkl | hkl
      · have hcells : b.cell k ≠ b.cell l.length := by
          have := (cell_inj (b := b) (by omega : k < b.size) hlt).not.mpr (by omega)
          exact_mod_cast this
        rw [Function.update_of_ne hcells]
        rw [List.getElem?_append_left hkl] at hk
        exact h.cells k v hk
      · rw [List.getElem?_append_right hkl, List.getElem?_singleton] at hk
        split_ifs at hk with hzero
        obtain rfl : k = l.length := by omega
        rw [Function.update_self]
        exact Option.some.inj hk

end

section

variable {b : Tsbuff α} {l : List (TsValue α)} {time : ℤ}

lemma Rep.addToTail_full (h : Rep b l) (hfull : l.length = b.size) : b.addToTail time = none :=
  h.addToTail_none fun ha => absurd ha.1 (by omega)

end

section

inductive Op (α : Type) where
  | addToHead (v : TsValue α)
  | addToTail (v : TsValue α)
  | freeTail

def fill (b : Tsbuff α) (v : TsValue α) : Option (ℤ × Tsbuff α) → Tsbuff α
  | none => b
  | some (idx, b') => b'.put idx v

def apply (b : Tsbuff α) : Op α → Tsbuff α
  | .addToHead v => b.fill v (b.addToHead v.time)
  | .addToTail v => b.fill v (b.addToTail v.time)
  | .freeTail => b.freeTail.2

def listApply (size : ℕ) (l : List (TsValue α)) : Op α → List (TsValue α)
  | .addToHead v => if l.length < size ∧ ∀ w ∈ l.getLast?, w.time ≤ v.time then l ++ [v] else l
  | .addToTail v => if l.length < size ∧ ∀ w ∈ l.head?, v.time ≤ w.time then v :: l else l
  | .freeTail => l.tail

def Op.Timed : Op α → Prop
  | .addToHead v => 0 < v.time ∧ v.time < zbxJan2038
  | .addToTail v => 0 < v.time ∧ v.time < zbxJan2038
  | .freeTail => True

structure Holds (b : Tsbuff α) (size : ℕ) (l : List (TsValue α)) : Prop where
  rep : Rep b l
  size : b.size = size
  sorted : Sorted l
  timed : ∀ v ∈ l, 0 < v.time ∧ v.time < zbxJan2038

variable {b : Tsbuff α} {l : List (TsValue α)} {size : ℕ}

lemma Holds.late_iff (h : Holds b size l) {time : ℤ} : ¬ Late l time ↔ ∀ w ∈ l.getLast?, w.time ≤ time := by
  constructor
  · intro hlate w hw
    have htimed := h.timed w (List.mem_of_getLast? hw)
    by_contra hlt
    exact hlate ⟨w, hw, by omega, by omega⟩
  · rintro hle ⟨w, hw, -, hlt⟩
    have := hle w hw
    omega

lemma Holds.addToHead (h : Holds b size l) (hsize : 2 ≤ size) {v : TsValue α}
    (hv : 0 < v.time ∧ v.time < zbxJan2038) :
    Holds (b.apply (.addToHead v)) size (listApply size l (.addToHead v)) := by
  have hsize' := h.size
  rw [apply, listApply]
  split_ifs with haccept
  · obtain ⟨hlt, hle⟩ := haccept
    obtain ⟨idx, b', hrun, hkeep, hrep⟩ := h.rep.addToHead_some (by omega) (h.late_iff.mpr hle)
    rw [hrun]
    refine ⟨hrep v.value, hkeep.trans hsize', ?_, ?_⟩
    · refine List.pairwise_append.mpr ⟨h.sorted, List.pairwise_singleton _ _, ?_⟩
      intro u hu w hw
      obtain rfl := List.mem_singleton.mp hw
      have hlast := List.getLast?_eq_some_getLast (List.ne_nil_of_mem hu)
      exact (Sorted.le_getLast h.sorted hlast hu).trans (hle _ hlast)
    · intro w hw
      rcases List.mem_append.mp hw with hw | hw
      · exact h.timed w hw
      · obtain rfl := List.mem_singleton.mp hw
        exact hv
  · have hnone : b.addToHead v.time = none := by
      by_cases hlate : Late l v.time
      · exact h.rep.addToHead_late hlate
      · have hfit := h.rep.fits
        refine h.rep.addToHead_full ?_ (by omega)
        by_contra hne
        exact haccept ⟨by omega, h.late_iff.mp hlate⟩
    rw [hnone]
    exact h

lemma Holds.addToTail (h : Holds b size l) {v : TsValue α} (hv : 0 < v.time ∧ v.time < zbxJan2038) :
    Holds (b.apply (.addToTail v)) size (listApply size l (.addToTail v)) := by
  have hsize' := h.size
  rw [apply, listApply]
  split_ifs with haccept
  · obtain ⟨hlt, hle⟩ := haccept
    have hroom : Accepts l b.size v.time := ⟨by omega, fun w hw _ => hle w hw⟩
    obtain ⟨idx, b', hrun, hkeep, hrep⟩ := h.rep.addToTail_some hroom
    rw [hrun]
    refine ⟨hrep v.value, hkeep.trans hsize', ?_, ?_⟩
    · refine List.pairwise_cons.mpr ⟨?_, h.sorted⟩
      intro u hu
      have hhead := List.head?_eq_some_head (List.ne_nil_of_mem hu)
      exact (hle _ hhead).trans (Sorted.head_le h.sorted hhead hu)
    · intro w hw
      rcases List.mem_cons.mp hw with rfl | hw
      · exact hv
      · exact h.timed w hw
  · have hnone : b.addToTail v.time = none := by
      refine h.rep.addToTail_none fun ha => haccept ⟨by have := ha.1; omega, fun w hw => ?_⟩
      exact ha.2 w hw (h.timed w (List.mem_of_head? hw)).1
    rw [hnone]
    exact h

lemma Holds.freeTail (h : Holds b size l) : Holds b.freeTail.2 size l.tail := by
  cases l with
  | nil =>
    have hsame : b.freeTail.2 = b := by
      rw [Tsbuff.freeTail, if_pos (h.rep.nil_iff.mp rfl)]
    rwa [hsame]
  | cons v l =>
    refine ⟨h.rep.freeTail, freeTail_size.trans h.size, h.sorted.tail, ?_⟩
    exact fun w hw => h.timed w (List.mem_cons_of_mem v hw)

lemma Holds.apply (h : Holds b size l) (hsize : 2 ≤ size) {op : Op α} (hop : op.Timed) :
    Holds (b.apply op) size (listApply size l op) := by
  cases op with
  | addToHead v => exact h.addToHead hsize hop
  | addToTail v => exact h.addToTail hop
  | freeTail => exact h.freeTail

lemma Holds.run (h : Holds b size l) (hsize : 2 ≤ size) (ops : List (Op α)) (hops : ∀ op ∈ ops, op.Timed) :
    Holds (ops.foldl Tsbuff.apply b) size (ops.foldl (listApply size) l) := by
  induction ops generalizing b l with
  | nil => exact h
  | cons op ops ih =>
    obtain ⟨hop, hops⟩ := List.forall_mem_cons.mp hops
    exact ih (h.apply hsize hop) hops

theorem ring_runs_as_list (zero : TsValue α) {size : ℕ} (hsize : 2 ≤ size) (ops : List (Op α))
    (hops : ∀ op ∈ ops, op.Timed) :
    let b := ops.foldl apply (init zero size)
    b.size = size ∧ b.count ≤ b.size ∧ (b.head = -1 ↔ b.count = 0) ∧ (b.tail = -1 ↔ b.count = 0) ∧
      (b.count ≠ 0 → b.head = (b.tail + b.count - 1) % b.size) ∧ Sorted b.live ∧
      b.live = ops.foldl (listApply size) [] := by
  have hinit : Holds (init zero size) size [] :=
    ⟨rep_init zero (by omega), rfl, List.Pairwise.nil, fun v hv => absurd hv List.not_mem_nil⟩
  have h := hinit.run hsize ops hops
  have hcount := h.rep.count
  have hfits := h.rep.fits
  refine ⟨h.size, by omega, h.rep.ends_iff.1, h.rep.ends_iff.2, fun hne => h.rep.head_eq_emod ?_, ?_, h.rep.live⟩
  · exact mt h.rep.nil_iff.mp hne
  · rw [h.rep.live]
    exact h.sorted

theorem ring_of_three_runs_as_list :
    let ops : List (Op ℕ) := [.addToHead ⟨5, 0⟩, .addToTail ⟨3, 1⟩, .addToHead ⟨4, 2⟩, .addToHead ⟨7, 3⟩, .freeTail]
    let b := ops.foldl apply (init ⟨0, 0⟩ 3)
    b.size = 3 ∧ b.count ≤ b.size ∧ (b.head = -1 ↔ b.count = 0) ∧ (b.tail = -1 ↔ b.count = 0) ∧
      (b.count ≠ 0 → b.head = (b.tail + b.count - 1) % b.size) ∧ Sorted b.live ∧
      b.live = ops.foldl (listApply 3) [] :=
  ring_runs_as_list ⟨0, 0⟩ (by decide) _ (by simp [Op.Timed, zbxJan2038])

end

end Glaber.Algo.Tsbuff
