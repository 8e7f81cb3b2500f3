import Glaber.Ipc.MetricsDelivery

namespace Glaber.Ipc.Metrics

open Glaber.Lib.Bytes Glaber.Ipc.Ipc2 Glaber.Ipc.Serial

section

variable {consumers : ℕ} {s mid s' s₀ : System} {e : Event} {now : Int32}

def Pc.isIdle : Pc → Bool
  | .idle => true
  | _ => false

lemma Pc.isIdle_iff {pc : Pc} : pc.isIdle = true ↔ pc = .idle := by
  cases pc <;> simp [Pc.isIdle]

def carryOut (consumers : ℕ) : System → List Event → Option System
  | s, [] => if s.pc.isIdle then some s else none
  | s, e :: events => if s.pc.isIdle then none else (sysStep consumers s e).bind (carryOut consumers · events)

def forceFlush (consumers : ℕ) (now : Int32) (events : List Event) (s : System) : Option System :=
  (sysStep consumers s (.flush .force now)).bind (carryOut consumers · events)

inductive Turn (consumers : ℕ) (s mid : System) : Prop
  | stay (hsbuff : mid.sbuff = s.sbuff) (hpc : mid.pc = s.pc)
  | finish {i : ℕ} {t l : Int32} (hlooking : s.pc = .looking i t l) (hlast : consumers ≤ i) (hsbuff : mid.sbuff = s.sbuff)
      (hpc : mid.pc = .idle)
  | skip {i : ℕ} {t l : Int32} (hlooking : s.pc = .looking i t l) (hi : i < consumers)
      (hdue : dueToFlush (s.sbuff i) t l = false) (hsbuff : mid.sbuff = s.sbuff) (hpc : mid.pc = .looking (i + 1) t l)
  | send {i : ℕ} {t l : Int32} (hlooking : s.pc = .looking i t l) (hi : i < consumers)
      (hdue : dueToFlush (s.sbuff i) t l = true) (hsbuff : mid.sbuff = s.sbuff)
      (hpc : mid.pc = .cleaning i t l ∨ mid.pc = .appending i t l)
  | append {i : ℕ} {t l : Int32} (happending : s.pc = .appending i t l) (hsbuff : mid.sbuff = s.sbuff)
      (hpc : mid.pc = .cleaning i t l)
  | clean {i : ℕ} {t l now : Int32} (hcleaning : s.pc = .cleaning i t l)
      (hsbuff : mid.sbuff = Function.update s.sbuff i (serialBufferClean (s.sbuff i) now))
      (hpc : mid.pc = .looking (i + 1) t l)

lemma look_turn {i : ℕ} {t l : Int32} (hpc : s.pc = .looking i t l) {chunk : Addr}
    (h : look consumers s i t l chunk = some mid) : Turn consumers s mid := by
  rw [look] at h
  by_cases hlast : consumers ≤ i
  · rw [if_pos hlast] at h
    cases h
    exact .finish hpc hlast rfl rfl
  rw [if_neg hlast] at h
  cases hdue : dueToFlush (s.sbuff i) t l with
  | false =>
    rw [hdue, if_neg Bool.false_ne_true] at h
    cases h
    exact .skip hpc (not_le.mp hlast) hdue rfl rfl
  | true =>
    rw [hdue, if_pos rfl] at h
    split at h
    · cases h
      exact .stay rfl rfl
    · cases h
    · split_ifs at h
      · cases h
        exact .send hpc (not_le.mp hlast) hdue rfl (.inl rfl)
      · cases h
        exact .send hpc (not_le.mp hlast) hdue rfl (.inr rfl)

lemma turn_of_step (hbusy : s.pc ≠ .idle) (h : sysStep consumers s e = some mid) : Turn consumers s mid := by
  have hstay : some s = some mid → Turn consumers s mid := by
    rintro ⟨⟩
    exact .stay rfl rfl
  cases e with
  | sendMetric handed pad fresh₁ fresh₂ flush now =>
    cases hpc : s.pc with
    | idle => exact absurd hpc hbusy
    | looking | appending | cleaning => exact hstay (by simpa only [sysStep, hpc] using h)
  | flush flush now =>
    cases hpc : s.pc with
    | idle => exact absurd hpc hbusy
    | looking | appending | cleaning => exact hstay (by simpa only [sysStep, hpc] using h)
  | look chunk =>
    cases hpc : s.pc with
    | looking i t l => exact look_turn hpc (by simpa only [sysStep, hpc] using h)
    | idle | appending | cleaning => exact hstay (by simpa only [sysStep, hpc] using h)
  | append =>
    cases hpc : s.pc with
    | appending i t l =>
      simp only [sysStep, hpc] at h
      split at h
      · exact hstay h
      · cases h
      · cases h
        exact .append hpc rfl rfl
    | idle | looking | cleaning => exact hstay (by simpa only [sysStep, hpc] using h)
  | clean now =>
    cases hpc : s.pc with
    | cleaning i t l =>
      simp only [sysStep, hpc] at h
      cases h
      exact .clean hpc rfl rfl
    | idle | looking | appending => exact hstay (by simpa only [sysStep, hpc] using h)
  | consumer c act =>
    simp only [sysStep] at h
    split at h
    · exact hstay h
    · cases h
    · cases h
      exact .stay rfl rfl

def left (s₀ : System) (now : Int32) (c : ℕ) : ℕ :=
  if (s₀.sbuff c).timeCreated < now then 0 else (s₀.sbuff c).itemsCount

structure Upto (consumers : ℕ) (s₀ : System) (now : Int32) (i : ℕ) (s : System) : Prop where
  passed : ∀ c < consumers, c < i → (s.sbuff c).itemsCount = left s₀ now c
  ahead : ∀ c, i ≤ c → s.sbuff c = s₀.sbuff c

def Forced (consumers : ℕ) (s₀ : System) (now : Int32) (s : System) : Prop :=
  match s.pc with
  | .idle => ∀ c < consumers, (s.sbuff c).itemsCount = left s₀ now c
  | .looking i t l => t = now ∧ l = 0 ∧ Upto consumers s₀ now i s
  | .appending i t l => t = now ∧ l = 0 ∧ (s₀.sbuff i).timeCreated < now ∧ Upto consumers s₀ now i s
  | .cleaning i t l => t = now ∧ l = 0 ∧ (s₀.sbuff i).timeCreated < now ∧ Upto consumers s₀ now i s

lemma Upto.congr {i : ℕ} (h : Upto consumers s₀ now i s) (hsbuff : mid.sbuff = s.sbuff) : Upto consumers s₀ now i mid :=
  ⟨fun c hc hi => hsbuff ▸ h.passed c hc hi, fun c hi => hsbuff ▸ h.ahead c hi⟩

lemma dueToFlush_force (sbuff : SerialBuffer) (now : Int32) : dueToFlush sbuff now 0 = true ↔ sbuff.timeCreated < now := by
  simp [dueToFlush]

lemma Forced.turn (h : Forced consumers s₀ now s) (hturn : Turn consumers s mid) : Forced consumers s₀ now mid := by
  rw [Forced] at h ⊢
  cases hturn with
  | stay hsbuff hpc =>
    rw [hpc]
    split at h
    · exact fun c hc => hsbuff ▸ h c hc
    · exact ⟨h.1, h.2.1, h.2.2.congr hsbuff⟩
    · exact ⟨h.1, h.2.1, h.2.2.1, h.2.2.2.congr hsbuff⟩
    · exact ⟨h.1, h.2.1, h.2.2.1, h.2.2.2.congr hsbuff⟩
  | finish hlooking hlast hsbuff hpc =>
    rw [hlooking] at h
    rw [hpc]
    intro c hc
    rw [hsbuff]
    exact h.2.2.passed c hc (hc.trans_le hlast)
  | @skip i t l hlooking hi hdue hsbuff hpc =>
    rw [hlooking] at h
    rw [hpc]
    obtain ⟨rfl, rfl, hupto⟩ := h
    refine ⟨rfl, rfl, fun c hc hle => ?_, fun c hle => hsbuff ▸ hupto.ahead c (Nat.le_of_succ_le hle)⟩
    rw [hsbuff]
    rcases Nat.lt_succ_iff_lt_or_eq.mp hle with hlt | rfl
    · exact hupto.passed c hc hlt
    · rw [hupto.ahead c le_rfl] at hdue ⊢
      rw [left, if_neg fun hold => ?_]
      rw [(dueToFlush_force _ _).mpr hold] at hdue
      cases hdue
  | @send i t l hlooking hi hdue hsbuff hpc =>
    rw [hlooking] at h
    obtain ⟨rfl, rfl, hupto⟩ := h
    rw [hupto.ahead i le_rfl, dueToFlush_force] at hdue
    rcases hpc with hpc | hpc <;> rw [hpc] <;> exact ⟨rfl, rfl, hdue, hupto.congr hsbuff⟩
  | append happending hsbuff hpc =>
    rw [happending] at h
    rw [hpc]
    exact ⟨h.1, h.2.1, h.2.2.1, h.2.2.2.congr hsbuff⟩
  | @clean i t l now' hcleaning hsbuff hpc =>
    rw [hcleaning] at h
    rw [hpc]
    obtain ⟨rfl, rfl, hold, hupto⟩ := h
    refine ⟨rfl, rfl, fun c hc hle => ?_, fun c hle => ?_⟩
    · rw [hsbuff]
      rcases Nat.lt_succ_iff_lt_or_eq.mp hle with hlt | rfl
      · rw [Function.update_of_ne hlt.ne]
        exact hupto.passed c hc hlt
      · rw [Function.update_self, left, if_pos hold]
        rfl
    · rw [hsbuff, Function.update_of_ne (Nat.lt_of_succ_le hle).ne']
      exact hupto.ahead c (Nat.le_of_succ_le hle)

lemma Forced.carryOut {events : List Event} (h : Forced consumers s₀ now s) (hrun : carryOut consumers s events = some s') :
    s'.pc = .idle ∧ Forced consumers s₀ now s' := by
  induction events generalizing s with
  | nil =>
    rw [Metrics.carryOut] at hrun
    split_ifs at hrun with hidle
    cases hrun
    exact ⟨Pc.isIdle_iff.mp hidle, h⟩
  | cons e events ih =>
    rw [Metrics.carryOut] at hrun
    split_ifs at hrun with hidle
    obtain ⟨mid, hstep, hrest⟩ := Option.bind_eq_some_iff.mp hrun
    exact ih (h.turn (turn_of_step (mt Pc.isIdle_iff.mpr hidle) hstep)) hrest

lemma forceFlush_left {events : List Event} (hidle : s.pc = .idle) (hrun : forceFlush consumers now events s = some s') :
    ∀ c < consumers, (s'.sbuff c).itemsCount = left s now c := by
  obtain ⟨mid, hflush, hrest⟩ := Option.bind_eq_some_iff.mp hrun
  have hstart : Forced consumers s now mid := by
    simp only [sysStep, hidle] at hflush
    cases hflush
    exact ⟨Int32.sub_zero now, rfl, fun c _ hc => absurd hc (Nat.not_lt_zero c), fun c _ => rfl⟩
  obtain ⟨hend, hforced⟩ := hstart.carryOut hrest
  rw [Forced, hend] at hforced
  exact hforced

theorem forced_flush_empties_iff {events : List Event} (hidle : s.pc = .idle)
    (hrun : forceFlush consumers now events s = some s') :
    (∀ c < consumers, (s'.sbuff c).itemsCount = 0) ↔
      ∀ c < consumers, (s.sbuff c).itemsCount ≠ 0 → (s.sbuff c).timeCreated < now := by
  refine forall₂_congr fun c hc => ?_
  rw [forceFlush_left hidle hrun c hc, left]
  split_ifs with hold
  · exact iff_of_true rfl fun _ => hold
  · exact ⟨fun hzero hne => absurd hzero hne, fun h => by_contra fun hne => hold (h hne)⟩

def metricOfHost (hostid : UInt64) : Handed where
  metric := ⟨1, hostid, 0, 1700000000, 0, variantStr, 4096⟩
  text := [111, 107]
  terminated := by decide
  pointer _ := by simp

/-- Three metrics for two consumers, all sent in the second 100 and none of them due then. -/
def threeMetrics : List Event :=
  [7, 8, 9].flatMap fun hostid =>
    [.sendMetric (metricOfHost hostid) (fun _ => 0) (fun _ => 0) (fun _ => 0) .timed 100, .look 0, .look 0, .look 0]

theorem forced_flush_of_three_metrics : ∃ s s' : System, sysRun 2 (fun _ _ => 0) 100 threeMetrics = some s ∧
    (s.sbuff 0).itemsCount = 1 ∧ (s.sbuff 1).itemsCount = 2 ∧
    forceFlush 2 105 [.look 64, .append, .clean 105, .look 128, .append, .clean 105, .look 0] s = some s' ∧
    ∀ c < 2, (s'.sbuff c).itemsCount = 0 := by
  have hflushed : ((sysRun 2 (fun _ _ => 0) 100 threeMetrics).filter (fun s => s.pc.isIdle ∧
      ((s.sbuff 0).itemsCount = 1 ∧ (s.sbuff 1).itemsCount = 2) ∧ ∀ c < 2, (s.sbuff c).timeCreated < 105)).any (fun s =>
        (forceFlush 2 105 [.look 64, .append, .clean 105, .look 128, .append, .clean 105, .look 0] s).isSome) = true := by
    decide +kernel
  obtain ⟨s, hs, hsome⟩ := (Option.any_eq_true _ _).mp hflushed
  obtain ⟨hreached, hready⟩ := Option.filter_eq_some_iff.mp hs
  obtain ⟨hidle, ⟨hzero, hone⟩, hold⟩ := of_decide_eq_true hready
  obtain ⟨s', hrun⟩ := Option.isSome_iff_exists.mp hsome
  exact ⟨s, s', hreached, hzero, hone, hrun,
    (forced_flush_empties_iff (Pc.isIdle_iff.mp hidle) hrun).mpr fun c hc _ => hold c hc⟩

theorem forced_flush_keeps_metric : ¬∀ (fresh : ℕ → Memory) (start now : Int32) (before events : List Event) (s s' : System),
    sysRun 1 fresh start before = some s → s.pc = .idle → forceFlush 1 now events s = some s' →
      ∀ c < 1, (s'.sbuff c).itemsCount = 0 := by
  intro h
  have hkept : ((sysRun 1 (fun _ _ => 0) 100
      [.sendMetric shortMetric (fun _ => 0) (fun _ => 0) (fun _ => 0) .timed 100, .look 0, .look 0]).filter (·.pc.isIdle)
        |>.bind (forceFlush 1 100 [.look 0, .look 0])).any (fun s => (s.sbuff 0).itemsCount ≠ 0) = true := by
    decide +kernel
  obtain ⟨s', hs', hcount⟩ := (Option.any_eq_true _ _).mp hkept
  obtain ⟨s, hs, hrun⟩ := Option.bind_eq_some_iff.mp hs'
  obtain ⟨hreached, hidle⟩ := Option.filter_eq_some_iff.mp hs
  exact of_decide_eq_true hcount (h _ 100 100 _ _ s s' hreached (Pc.isIdle_iff.mp hidle) hrun 0 Nat.one_pos)

end

end Glaber.Ipc.Metrics
