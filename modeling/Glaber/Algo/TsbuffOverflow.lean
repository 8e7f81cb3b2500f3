import Glaber.Algo.TsbuffResize

namespace Glaber.Algo.Tsbuff

open Glaber.Lib.Runs

variable {α : Type}

inductive Event (α : Type) where
  | op (o : Op α)
  | resize (newSize : ℤ)

def step (zero : TsValue α) (b : Tsbuff α) : Event α → Tsbuff α
  | .op o => b.apply o
  | .resize newSize => b.resize zero newSize

def Refused (b : Tsbuff α) : Event α → Prop
  | .op (.addToHead v) => b.isFull → b.addToHead v.time = none
  | .op (.addToTail v) => b.isFull → b.addToTail v.time = none
  | _ => True

def LeavesFull (b b' : Tsbuff α) : Event α → Prop
  | .op (.addToHead _) | .op (.addToTail _) => b.isFull → b' = b
  | _ => True

structure Contained (t : Transition (Tsbuff α) (Event α)) : Prop where
  refused : Refused t.source t.event
  same : LeavesFull t.source t.target t.event
  fits : t.target.count ≤ t.target.size

def Spared (t : Transition (Tsbuff α) (Event α)) : Prop :=
  match t.event with
  | .op (.addToHead v) => t.source.isFull → t.source.size = 1 →
      t.source.getTimeHead ≠ zbxJan2038 ∧ v.time < t.source.getTimeHead
  | _ => True

def Shaped (b : Tsbuff α) : Prop := ∃ l, Rep b l

section

variable {b : Tsbuff α} {l : List (TsValue α)}

lemma Rep.isFull_iff (h : Rep b l) : b.isFull ↔ l.length = b.size := by
  rw [isFull, h.count]

lemma Shaped.fits (h : Shaped b) : b.count ≤ b.size := by
  obtain ⟨l, h⟩ := h
  rw [h.count]
  exact h.fits

lemma Rep.shaped_addToHead (h : Rep b l) (v : TsValue α) (hlt : l.length < b.size) :
    Shaped (b.apply (.addToHead v)) := by
  rw [apply]
  by_cases hlate : Late l v.time
  · rw [h.addToHead_late hlate]
    exact ⟨l, h⟩
  · obtain ⟨idx, b', hrun, -, hrep⟩ := h.addToHead_some hlt hlate
    rw [hrun]
    exact ⟨_, hrep v.value⟩

lemma Rep.shaped_addToTail (h : Rep b l) (v : TsValue α) : Shaped (b.apply (.addToTail v)) := by
  rw [apply]
  by_cases haccept : Accepts l b.size v.time
  · obtain ⟨idx, b', hrun, -, hrep⟩ := h.addToTail_some haccept
    rw [hrun]
    exact ⟨_, hrep v.value⟩
  · rw [h.addToTail_none haccept]
    exact ⟨l, h⟩

lemma Rep.shaped_freeTail (h : Rep b l) : Shaped (b.apply .freeTail) := by
  cases l with
  | nil =>
    have hsame : b.freeTail.2 = b := by rw [Tsbuff.freeTail, if_pos (h.nil_iff.mp rfl)]
    rw [apply, hsame]
    exact ⟨[], h⟩
  | cons v l => exact ⟨l, h.freeTail⟩

lemma Rep.shaped_resize (h : Rep b l) (zero : TsValue α) (newSize : ℤ) : Shaped (b.resize zero newSize) := by
  rw [resize]
  split_ifs with hrefused hlt
  · exact ⟨l, h⟩
  · obtain ⟨moved, -, hrep, -⟩ := h.downsize zero (by omega : 1 ≤ newSize.toNat) (by omega)
    exact ⟨moved, hrep⟩
  · obtain ⟨l', -, hrep, -⟩ := h.upsize_some zero (by omega : b.size < newSize.toNat)
    exact ⟨l', hrep⟩

lemma Rep.overflow_iff (h : Rep b l) (time : ℤ) (hfull : l.length = b.size) :
    b.addToHead time = none ↔ (b.size = 1 → b.getTimeHead ≠ zbxJan2038 ∧ time < b.getTimeHead) := by
  have hpos : 1 ≤ b.size := h.size_pos
  have hcount := h.count
  constructor
  · intro hnone hone
    by_contra hlate
    obtain ⟨idx, b', hrun, -⟩ := h.addToHead_overflow hfull hone fun hl => hlate (h.late_iff.mp hl).2
    rw [hrun] at hnone
    cases hnone
  · intro hlate
    rcases eq_or_lt_of_le hpos with hone | hsize
    · exact h.addToHead_late (h.late_iff.mpr ⟨by omega, hlate hone.symm⟩)
    · exact h.addToHead_full hfull hsize

end

section

variable {zero : TsValue α}

lemma Shaped.step {b : Tsbuff α} (h : Shaped b) (past : List (Event α)) (e : Event α) :
    (Contained ⟨past, b, e, step zero b e⟩ ↔ Spared ⟨past, b, e, step zero b e⟩) ∧
      (Contained ⟨past, b, e, step zero b e⟩ → Shaped (step zero b e)) := by
  have hfits := h.fits
  obtain ⟨l, hrep⟩ := h
  have hcount := hrep.count
  cases e with
  | resize newSize =>
    have hshaped := hrep.shaped_resize zero newSize
    exact ⟨iff_of_true ⟨trivial, trivial, hshaped.fits⟩ trivial, fun _ => hshaped⟩
  | op o =>
    cases o with
    | addToHead v =>
      by_cases hfull : l.length = b.size
      · have hisFull : b.isFull := hrep.isFull_iff.mpr hfull
        have hiff := hrep.overflow_iff v.time hfull
        have hsame : b.addToHead v.time = none → Tsbuff.step zero b (.op (.addToHead v)) = b := by
          intro hnone
          rw [Tsbuff.step, apply, hnone]
          rfl
        constructor
        · constructor
          · intro hin _ hone
            exact hiff.mp (hin.refused hisFull) hone
          · intro hspared
            have hnone := hiff.mpr (hspared hisFull)
            refine ⟨fun _ => hnone, fun _ => hsame hnone, ?_⟩
            dsimp only
            rw [hsame hnone]
            exact hfits
        · intro hin
          rw [hsame (hin.refused hisFull)]
          exact ⟨l, hrep⟩
      · have hshaped := hrep.shaped_addToHead v (by omega)
        have hroom : ¬ b.isFull := mt hrep.isFull_iff.mp hfull
        exact ⟨iff_of_true ⟨fun hf => absurd hf hroom, fun hf => absurd hf hroom, hshaped.fits⟩
          (fun hf => absurd hf hroom), fun _ => hshaped⟩
    | addToTail v =>
      have hshaped := hrep.shaped_addToTail v
      have hrefused : b.isFull → b.addToTail v.time = none :=
        fun hf => hrep.addToTail_full (hrep.isFull_iff.mp hf)
      have hsame : b.isFull → Tsbuff.step zero b (.op (.addToTail v)) = b := by
        intro hf
        rw [Tsbuff.step, apply, hrefused hf]
        rfl
      exact ⟨iff_of_true ⟨hrefused, hsame, hshaped.fits⟩ trivial, fun _ => hshaped⟩
    | freeTail =>
      have hshaped := hrep.shaped_freeTail
      exact ⟨iff_of_true ⟨trivial, trivial, hshaped.fits⟩ trivial, fun _ => hshaped⟩

theorem full_refuses_iff (zero : TsValue α) {size : ℕ} (hsize : 1 ≤ size) (es : List (Event α)) :
    (∀ t ∈ transitions (step zero) (init zero size) es, Contained t) ↔
      ∀ t ∈ transitions (step zero) (init zero size) es, Spared t := by
  apply transitions_iff fun _ b => Shaped b
  · exact ⟨[], rep_init zero hsize⟩
  · intro past b e h
    exact h.step past e

theorem full_refuses_of_two :
    (∀ t ∈ transitions (step ⟨0, 0⟩) (init ⟨0, 0⟩ 2) [.op (.addToHead ⟨5, 1⟩), .resize 1, .op (.addToTail ⟨4, 2⟩)],
        Contained t) ↔
      ∀ t ∈ transitions (step ⟨0, 0⟩) (init ⟨0, 0⟩ 2) [.op (.addToHead ⟨5, 1⟩), .resize 1, .op (.addToTail ⟨4, 2⟩)],
        Spared t :=
  full_refuses_iff ⟨0, 0⟩ (by decide) _

theorem buffer_of_one_takes_two :
    ¬ ∀ t ∈ transitions (step (⟨0, 0⟩ : TsValue ℕ)) (init ⟨0, 0⟩ 1) [.op (.addToHead ⟨5, 1⟩), .op (.addToHead ⟨6, 2⟩)],
      Contained t := by
  intro h
  simp only [transitions, transitionsFrom, List.forall_mem_cons] at h
  exact absurd h.2.1.fits (by decide)

end

end Glaber.Algo.Tsbuff
