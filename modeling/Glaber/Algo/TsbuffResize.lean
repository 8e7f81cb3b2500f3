import Glaber.Algo.TsbuffRun

namespace Glaber.Algo.Tsbuff

open Glaber.Lib.Ring

variable {α : Type}

def freedValues (b : Tsbuff α) (stop : ℤ) : ℕ → ℤ → Option (List (TsValue α))
  | 0, _ => none
  | turns + 1, i =>
    if b.index i = stop then some []
    else if 0 > i ∨ i ≥ b.size then none
    else (freedValues b stop turns (i + 1)).map (b.get i :: ·)

def resizeFreeing (zero : TsValue α) (hasValFree : Bool) (b : Tsbuff α) (newSize : ℤ) :
    Option (Tsbuff α × List (TsValue α)) :=
  if newSize < b.size ∧ 1 ≤ newSize ∧ hasValFree then
    (b.freedValues (b.index (b.head - newSize + 1)) (b.size + 1) b.tail).map fun freed => (b.resize zero newSize, freed)
  else some (b.resize zero newSize, [])

section

variable {b : Tsbuff α}

lemma walk_eq_map (hsize : 0 < b.size) (m fuel a : ℕ) (ha : a < b.size) (hm : m < b.size) (hfuel : m < fuel) :
    b.walk (pos b.size a m) fuel a = (List.range m).map fun j => b.data (pos b.size a j) := by
  induction m generalizing fuel a with
  | zero =>
    obtain ⟨fuel, rfl⟩ := Nat.exists_eq_succ_of_ne_zero (by omega : fuel ≠ 0)
    rw [pos_zero ha, walk, if_pos rfl]
    rfl
  | succ m ih =>
    obtain ⟨fuel, rfl⟩ := Nat.exists_eq_succ_of_ne_zero (by omega : fuel ≠ 0)
    have hne : (a : ℤ) ≠ pos b.size a (m + 1) := by
      have hcells : pos b.size a 0 ≠ pos b.size a (m + 1) :=
        (pos_inj (by omega : 0 < b.size) (by omega : m + 1 < b.size)).not.mpr (by omega)
      rw [pos_zero ha] at hcells
      exact_mod_cast hcells
    have hnext : b.index ((a : ℤ) + 1) = (pos b.size a 1 : ℕ) := by
      have hlt := pos_lt ha (by omega : 1 ≤ b.size)
      apply tmod_index (by omega) (by omega)
      rw [pos]
      split_ifs <;> omega
    have hshift : ∀ j, j ≤ m → pos b.size (pos b.size a 1) j = pos b.size a (j + 1) := by
      intro j hj
      rw [Nat.add_comm]
      exact pos_shift ha (by omega)
    rw [walk, if_neg hne, hnext, ← hshift m le_rfl, ih fuel _ (pos_lt ha (by omega)) (by omega) (by omega),
      List.range_succ_eq_map, List.map_cons, List.map_map, pos_zero ha]
    refine congrArg₂ _ rfl (List.map_congr_left ?_)
    intro j hj
    rw [hshift j (List.mem_range.mp hj).le]
    rfl

end

structure Resized (b b' : Tsbuff α) (newSize : ℕ) : Prop where
  size : b'.size = newSize
  count : b'.count = min b.count newSize
  live : b'.live = b.live.drop (b.count - min b.count newSize)

def Accepted (b : Tsbuff α) (newSize : ℤ) : Prop := 1 ≤ newSize ∧ newSize ≤ maxSize ∧ newSize ≠ b.size

section

variable {b : Tsbuff α} {l : List (TsValue α)} {newSize : ℕ}

lemma Rep.downsize_window (h : Rep b l) (hpos : 1 ≤ newSize) (hlt : newSize < b.size) :
    ∃ a, a < b.size ∧ b.index (b.head - newSize + 1) = (a : ℤ) ∧ b.index (b.head + 1) = (pos b.size a newSize : ℕ) ∧
      (newSize ≤ l.length → a = b.cell (l.length - newSize)) := by
  have hfits := h.fits
  rcases eq_or_ne l [] with rfl | hl
  · obtain ⟨hh, -⟩ := h.empty rfl
    refine ⟨b.size - newSize, by omega, ?_, ?_, fun hle => ?_⟩
    · exact tmod_index (by omega) (by omega) (by omega)
    · apply tmod_index (by omega) (by rw [pos]; split_ifs <;> omega)
      rw [pos]
      split_ifs <;> omega
    · rw [List.length_nil] at hle
      omega
  · have hlen := List.length_pos_of_ne_nil hl
    obtain ⟨ht0, ht1⟩ := h.tail hl
    have hh := h.head hl
    have hhead : b.cell (l.length - 1) < b.size := h.cell_lt hl (by omega)
    refine ⟨if newSize ≤ b.cell (l.length - 1) + 1 then b.cell (l.length - 1) + 1 - newSize
      else b.cell (l.length - 1) + 1 + b.size - newSize, by split_ifs <;> omega, ?_, ?_, fun hle => ?_⟩
    · rw [hh]
      apply tmod_index (by split_ifs <;> omega) (by split_ifs <;> omega)
      split_ifs <;> omega
    · rw [hh]
      apply tmod_index (by omega) (by rw [pos]; split_ifs <;> omega)
      rw [pos]
      split_ifs <;> omega
    · simp only [cell, pos]
      split_ifs <;> omega

lemma Rep.downsize (h : Rep b l) (zero : TsValue α) (hpos : 1 ≤ newSize) (hlt : newSize < b.size) :
    ∃ moved : List (TsValue α), moved.length = newSize ∧ Rep (b.downsize zero newSize) moved ∧
      (newSize ≤ l.length → moved = l.drop (l.length - newSize)) := by
  obtain ⟨a, ha, hstart, hstop, hcells⟩ := h.downsize_window hpos hlt
  have hfits := h.fits
  have hmoved : b.walk (b.index (b.head + 1)) b.size (b.index (b.head - newSize + 1))
      = (List.range newSize).map fun j => b.data (pos b.size a j) := by
    rw [hstart, hstop]
    exact walk_eq_map h.size_pos newSize b.size a ha hlt hlt
  have hlength : ((List.range newSize).map fun j => b.data (pos b.size a j)).length = newSize := by
    rw [List.length_map, List.length_range]
  refine ⟨_, hlength, ?_, fun hle => ?_⟩
  · rw [Tsbuff.downsize, hmoved]
    have hne : (List.range newSize).map (fun j => b.data (pos b.size a j)) ≠ [] :=
      List.ne_nil_of_length_pos (by omega)
    refine Rep.of_start 0 hne rfl (by exact hlength.le) rfl hpos ?_ ?_
    · dsimp only
      rw [hlength, pos]
      split_ifs <;> omega
    · intro k v hk
      have hkn : k < newSize := by simpa using (List.getElem?_eq_some_iff.mp hk).1
      have hat : pos newSize 0 k = k := by
        rw [pos]
        split_ifs <;> omega
      show Option.getD _ zero = v
      rw [hat, hk]
      rfl
  · apply List.ext_getElem
    · rw [hlength, List.length_drop]
      omega
    · intro k hk hk'
      have hl : l ≠ [] := List.ne_nil_of_length_pos (by omega)
      have hkn : k < newSize := by simpa using hk
      have hshift : pos b.size a k = b.cell (l.length - newSize + k) := by
        rw [hcells hle]
        exact pos_shift (h.tail_lt hl) (by omega)
      rw [List.getElem_map, List.getElem_range, List.getElem_drop, hshift]
      exact h.cells _ _ (List.getElem?_eq_getElem (by omega))

lemma Rep.freedValues (h : Rep b l) {k : ℕ} (hk : k < l.length) (turns j : ℕ) (hj : j ≤ k) (hturns : k - j < turns) :
    (b.tail + k ≤ b.size → b.freedValues (b.cell k) turns (b.tail + j) = some ((l.drop j).take (k - j))) ∧
      (b.tail + j ≤ b.size → b.size < b.tail + k → b.freedValues (b.cell k) turns (b.tail + j) = none) := by
  have hl : l ≠ [] := List.ne_nil_of_length_pos (by omega)
  have hfits := h.fits
  obtain ⟨ht0, ht1⟩ := h.tail hl
  induction turns generalizing j with
  | zero => omega
  | succ turns ih =>
    have hindex : b.index (b.tail + j) = b.cell j := h.index_cell hl (by omega) (by omega)
    have hcells := cell_inj (b := b) (j := j) (k := k) (by omega) (by omega)
    have hnext : b.tail + j + 1 = b.tail + (j + 1 : ℕ) := by push_cast; ring
    rw [Tsbuff.freedValues, hindex]
    rcases eq_or_lt_of_le hj with rfl | hlt
    · rw [if_pos rfl]
      exact ⟨fun _ => by simp, fun hin hout => absurd hin (by omega)⟩
    · obtain ⟨hsome, hnone⟩ := ih (j + 1) hlt (by omega)
      rw [if_neg (hcells.not.mpr hlt.ne), hnext]
      refine ⟨fun hin => ?_, fun hin hout => ?_⟩
      · have hcell : (b.cell j : ℤ) = b.tail + j := by
          rw [cell, pos, if_pos (by omega)]
          omega
        have hjl : j < l.length := by omega
        rw [if_neg (by omega), hsome hin, ← hcell, h.get_cell (List.getElem?_eq_getElem hjl), Option.map_some,
          List.drop_eq_getElem_cons hjl, show k - j = k - (j + 1) + 1 by omega, List.take_succ_cons]
      · split_ifs with hrange
        · rfl
        · rw [hnone (by push_cast; omega) hout]
          rfl

lemma Rep.freed_iff (h : Rep b l) (hpos : 1 ≤ newSize) (hle : newSize ≤ l.length) :
    (∃ freed, b.freedValues (b.index (b.head - newSize + 1)) (b.size + 1) b.tail = some freed) ↔
      b.tail + (l.length - newSize) ≤ b.size := by
  have hl : l ≠ [] := List.ne_nil_of_length_pos (by omega)
  have hfits := h.fits
  obtain ⟨ht0, ht1⟩ := h.tail hl
  have hstart : b.index (b.head - newSize + 1) = b.cell (l.length - newSize) := by
    apply h.index_cell hl (by omega)
    rw [h.head hl, cell, pos]
    split_ifs <;> omega
  obtain ⟨hsome, hnone⟩ := h.freedValues (by omega : l.length - newSize < l.length) (b.size + 1) 0 (Nat.zero_le _)
    (by omega)
  rw [Nat.cast_zero, add_zero] at hsome hnone
  rw [hstart]
  constructor
  · rintro ⟨freed, hfreed⟩
    by_contra hwrap
    rw [hnone (by omega) (by omega)] at hfreed
    cases hfreed
  · intro hin
    exact ⟨_, hsome (by omega)⟩

end

section

variable {b : Tsbuff α} {l : List (TsValue α)} {newSize : ℤ}

lemma Rep.resized_iff {l' : List (TsValue α)} {b' : Tsbuff α} {newSize : ℕ} (h : Rep b l) (h' : Rep b' l')
    (hsize : b'.size = newSize) :
    Resized b b' newSize ↔ l'.length = min l.length newSize ∧ l' = l.drop (l.length - min l.length newSize) := by
  constructor
  · rintro ⟨-, hcount, hlive⟩
    rw [h'.live, h.live, h.count] at hlive
    rw [h'.count, h.count] at hcount
    exact ⟨hcount, hlive⟩
  · rintro ⟨hcount, hlive⟩
    refine ⟨hsize, ?_, ?_⟩
    · rw [h'.count, h.count, hcount]
    · rw [h'.live, h.live, h.count, hlive]

lemma Rep.upsize_empty (h : Rep b []) (zero : TsValue α) {newSize : ℕ} (hn : b.size < newSize) :
    Rep (b.upsize zero newSize) [] := by
  obtain ⟨hh, ht⟩ := h.empty rfl
  have hcount := h.count
  rw [Tsbuff.upsize, if_neg (by omega)]
  exact ⟨by dsimp only; omega, hcount, Nat.zero_le _, fun _ => ⟨hh, ht⟩, fun hne => absurd rfl hne,
    fun hne => absurd rfl hne, by simp⟩

def Unmoved (zero : TsValue α) (b : Tsbuff α) : Prop :=
  b.count = 0 ∨ b.head < b.tail ∨ ∀ i : ℕ, b.tail ≤ i → i ≤ b.head → b.count ≤ i → b.data i = zero

lemma upsize_size (zero : TsValue α) (b : Tsbuff α) (newSize : ℕ) : (b.upsize zero newSize).size = newSize := by
  rw [upsize]
  split_ifs <;> rfl

lemma Rep.upsize_some (h : Rep b l) (zero : TsValue α) {newSize : ℕ} (hn : b.size < newSize) :
    ∃ l', l'.length = l.length ∧ Rep (b.upsize zero newSize) l' ∧ (l' = l ↔ Unmoved zero b) := by
  rcases eq_or_ne l [] with rfl | hl
  · exact ⟨[], rfl, h.upsize_empty zero hn, fun _ => .inl h.count, fun _ => rfl⟩
  rcases lt_or_ge b.head b.tail with hw | hw
  · exact ⟨l, rfl, h.upsize_wrapped zero hl hw hn, fun _ => .inr (.inl hw), fun _ => rfl⟩
  · refine ⟨copied zero b, ?_, h.upsize_unwrapped zero hl hw hn, ?_⟩
    · rw [copied, List.length_map, List.length_range, h.count]
    · rw [h.copied_eq_iff zero hl hw, Unmoved, or_iff_right (h.count_ne_zero hl), or_iff_right (not_lt.mpr hw)]

def KeepsNewest (zero : TsValue α) (hasValFree : Bool) (b : Tsbuff α) (newSize : ℤ) : Prop :=
  if newSize < b.size then newSize ≤ b.count ∧ (hasValFree → b.tail + (b.count - newSize) ≤ b.size)
  else Unmoved zero b

lemma Rep.resize_down (h : Rep b l) (zero : TsValue α) (hasValFree : Bool) (hnew : Accepted b newSize)
    (hlt : newSize < b.size) :
    (∃ b' freed, b.resizeFreeing zero hasValFree newSize = some (b', freed) ∧ Resized b b' newSize.toNat) ↔
      newSize ≤ b.count ∧ (hasValFree → b.tail + (b.count - newSize) ≤ b.size) := by
  obtain ⟨hpos, hmax, -⟩ := hnew
  obtain ⟨n, rfl⟩ := Int.eq_ofNat_of_zero_le (by omega : 0 ≤ newSize)
  have hcount := h.count
  obtain ⟨moved, hlength, hrep, hmoved⟩ := h.downsize zero (by omega) (by omega : n < b.size)
  have hresize : b.resize zero n = b.downsize zero n := by
    rw [resize, if_neg (by omega), if_pos hlt, Int.toNat_natCast]
  have hresized : Resized b (b.downsize zero n) n ↔ n ≤ l.length := by
    have hsize : (b.downsize zero n).size = n := rfl
    rw [h.resized_iff hrep hsize, hlength]
    constructor
    · rintro ⟨hmin, -⟩
      omega
    · intro hle
      rw [min_eq_right hle]
      exact ⟨rfl, hmoved hle⟩
  rw [Int.toNat_natCast, resizeFreeing, hresize, hcount, Nat.cast_le]
  cases hasValFree with
  | false =>
    rw [if_neg (by simp)]
    constructor
    · rintro ⟨b', freed, hrun, hb'⟩
      cases hrun
      exact ⟨hresized.mp hb', by simp⟩
    · rintro ⟨hle, -⟩
      exact ⟨_, _, rfl, hresized.mpr hle⟩
  | true =>
    rw [if_pos ⟨hlt, hpos, rfl⟩]
    constructor
    · rintro ⟨b', freed, hrun, hb'⟩
      obtain ⟨freed', hfreed, heq⟩ := Option.map_eq_some_iff.mp hrun
      cases heq
      have hle := hresized.mp hb'
      exact ⟨hle, fun _ => (h.freed_iff (by omega) hle).mp ⟨_, hfreed⟩⟩
    · rintro ⟨hle, hin⟩
      obtain ⟨freed, hfreed⟩ := (h.freed_iff (by omega) hle).mpr (hin rfl)
      exact ⟨_, freed, by rw [hfreed]; rfl, hresized.mpr hle⟩

lemma Rep.resize_up (h : Rep b l) (zero : TsValue α) (hasValFree : Bool) (hnew : Accepted b newSize)
    (hlt : ¬ newSize < b.size) :
    (∃ b' freed, b.resizeFreeing zero hasValFree newSize = some (b', freed) ∧ Resized b b' newSize.toNat) ↔
      Unmoved zero b := by
  obtain ⟨hpos, hmax, hne⟩ := hnew
  obtain ⟨n, rfl⟩ := Int.eq_ofNat_of_zero_le (by omega : 0 ≤ newSize)
  have hfits := h.fits
  obtain ⟨l', hlength, hrep, hsame⟩ := h.upsize_some zero (by omega : b.size < n)
  have hresize : b.resize zero n = b.upsize zero n := by
    rw [resize, if_neg (by omega), if_neg hlt, Int.toNat_natCast]
  have hresized : Resized b (b.upsize zero n) n ↔ Unmoved zero b := by
    rw [h.resized_iff hrep (upsize_size zero b n), min_eq_left (by omega), Nat.sub_self, List.drop_zero, hsame]
    exact and_iff_right hlength
  rw [Int.toNat_natCast, resizeFreeing, hresize, if_neg fun hdown => hlt hdown.1, ← hresized]
  constructor
  · rintro ⟨b', freed, hrun, hb'⟩
    cases hrun
    exact hb'
  · intro hb'
    exact ⟨_, _, rfl, hb'⟩

theorem resize_keeps_newest_iff (zero : TsValue α) (hasValFree : Bool) (h : Rep b l) (hnew : Accepted b newSize) :
    (∃ b' freed, b.resizeFreeing zero hasValFree newSize = some (b', freed) ∧ Resized b b' newSize.toNat) ↔
      KeepsNewest zero hasValFree b newSize := by
  rw [KeepsNewest]
  split_ifs with hlt
  · exact h.resize_down zero hasValFree hnew hlt
  · exact h.resize_up zero hasValFree hnew hlt

theorem resize_keeps_newest_of_three :
    let b : Tsbuff ℕ := [.addToHead ⟨5, 0⟩, .addToTail ⟨3, 1⟩].foldl apply (init ⟨0, 0⟩ 3)
    (∃ b' freed, b.resizeFreeing ⟨0, 0⟩ true 6 = some (b', freed) ∧ Resized b b' (6 : ℤ).toNat) ↔
      KeepsNewest ⟨0, 0⟩ true b 6 := by
  have hinit : Holds (init (⟨0, 0⟩ : TsValue ℕ) 3) 3 [] :=
    ⟨rep_init ⟨0, 0⟩ (by decide), rfl, List.Pairwise.nil, fun v hv => absurd hv List.not_mem_nil⟩
  have h := hinit.run (by decide) [.addToHead ⟨5, 0⟩, .addToTail ⟨3, 1⟩] (by simp [Op.Timed, zbxJan2038])
  exact resize_keeps_newest_iff ⟨0, 0⟩ true h.rep ⟨by decide, by decide, by rw [h.size]; decide⟩

theorem resize_of_four_loses_value :
    (let b : Tsbuff ℕ := [.addToHead ⟨5, 7⟩, .addToHead ⟨6, 8⟩, .freeTail].foldl apply (init ⟨0, 0⟩ 4)
     Rep b [⟨6, 8⟩] ∧ Accepted b 8 ∧ ¬ ∃ b' freed, b.resizeFreeing ⟨0, 0⟩ false 8 = some (b', freed) ∧ Resized b b' 8) ∧
    (let b : Tsbuff ℕ := init ⟨0, 0⟩ 4
     Rep b [] ∧ Accepted b 1 ∧ ¬ ∃ b' freed, b.resizeFreeing ⟨0, 0⟩ false 1 = some (b', freed) ∧ Resized b b' 1) := by
  have hinit : Holds (init (⟨0, 0⟩ : TsValue ℕ) 4) 4 [] :=
    ⟨rep_init ⟨0, 0⟩ (by decide), rfl, List.Pairwise.nil, fun v hv => absurd hv List.not_mem_nil⟩
  refine ⟨⟨?_, ?_, ?_⟩, hinit.rep, ?_, ?_⟩
  · exact (hinit.run (by decide) [.addToHead ⟨5, 7⟩, .addToHead ⟨6, 8⟩, .freeTail] (by simp [Op.Timed, zbxJan2038])).rep
  · exact ⟨by decide, by decide, by decide⟩
  · rintro ⟨b', freed, hrun, hb'⟩
    cases hrun
    exact absurd hb'.live (by decide)
  · exact ⟨by decide, by decide, by decide⟩
  · rintro ⟨b', freed, hrun, hb'⟩
    cases hrun
    exact absurd hb'.count (by decide)

end

end Glaber.Algo.Tsbuff
