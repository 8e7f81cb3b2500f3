import Glaber.Lib.Extremes
import Glaber.State.ItemsFetch

namespace Glaber.State.Items

open Glaber.Algo Glaber.Algo.Tsbuff Glaber.Lib.WindowMax

variable {α : Type}

section

structure DemandCall where
  count : ℕ
  period : ℕ
  now : ℕ

def DemandCall.countRequest (c : DemandCall) : Request := ⟨c.count, c.now⟩

def DemandCall.periodRequest (c : DemandCall) : Request := ⟨c.period, c.now⟩

namespace ItemDemand

def countWindow (d : ItemDemand) : Window := ⟨d.count, d.newCount, d.countChange⟩

def periodWindow (d : ItemDemand) : Window := ⟨d.period, d.newPeriod, d.periodChange⟩

variable {d : ItemDemand} {now : ℤ}

lemma age_eq {change : ℤ} (h : change ≤ now) : unsignedAge now change = now - change := if_pos h

lemma countWindow_step (hd : d.countChange ≤ now) (n : ℕ) :
    (demandCountStep n now d).countWindow = d.countWindow.step itemDemandUpdate ⟨n, now⟩ := by
  have hage := age_eq hd
  have hnow := age_eq (le_refl now)
  simp only [demandCountStep, Window.step, Window.raise, Window.expire, countWindow]
  by_cases hcur : d.count < n
  · simp only [hcur, if_true, hnow]
    split_ifs <;> rfl
  · by_cases hcand : d.newCount < n
    · simp only [hcur, hcand, if_true, if_false, hage]
      split_ifs <;> rfl
    · simp only [hcur, hcand, if_false, hage]
      split_ifs <;> rfl

lemma periodWindow_step (hd : d.periodChange ≤ now) (n : ℕ) :
    (demandPeriodStep n now d).periodWindow = d.periodWindow.step itemDemandUpdate ⟨n, now⟩ := by
  have hage := age_eq hd
  have hnow := age_eq (le_refl now)
  simp only [demandPeriodStep, Window.step, Window.raise, Window.expire, periodWindow]
  by_cases hcur : d.period < n
  · simp only [hcur, if_true, hnow]
    split_ifs <;> rfl
  · by_cases hcand : d.newPeriod < n
    · simp only [hcur, hcand, if_true, if_false, hage]
      split_ifs <;> rfl
    · simp only [hcur, hcand, if_false, hage]
      split_ifs <;> rfl

lemma periodWindow_countStep (n : ℕ) : (demandCountStep n now d).periodWindow = d.periodWindow := by
  simp only [demandCountStep]
  split_ifs <;> rfl

lemma countWindow_periodStep (n : ℕ) : (demandPeriodStep n now d).countWindow = d.countWindow := by
  simp only [demandPeriodStep]
  split_ifs <;> rfl

end ItemDemand

def updateDemand (elm : ItemElem α) (c : DemandCall) : ItemElem α := itemUpdateDemand elm c.count c.period c.now

structure DemandCovers (past : List DemandCall) (last : ℤ) (d : ItemDemand) : Prop where
  count : Covers itemDemandUpdate (past.map DemandCall.countRequest) last d.countWindow
  period : Covers itemDemandUpdate (past.map DemandCall.periodRequest) last d.periodWindow

lemma DemandCovers.updateDemand {past : List DemandCall} {last : ℤ} {elm : ItemElem α}
    (h : DemandCovers past last elm.demand) (c : DemandCall) (hc : last ≤ c.now) :
    DemandCovers (past ++ [c]) c.now (updateDemand elm c).demand := by
  have hcount := h.count.step c.countRequest hc
  have hperiod := h.period.step c.periodRequest hc
  have hchange : elm.demand.countChange ≤ c.now := h.count.change.trans hc
  have hpchange : (demandCountStep c.count c.now elm.demand).periodChange ≤ c.now := by
    have hsame : (demandCountStep c.count c.now elm.demand).periodWindow = elm.demand.periodWindow :=
      ItemDemand.periodWindow_countStep c.count
    exact (congrArg Window.change hsame).trans_le (h.period.change.trans hc)
  constructor
  · rw [List.map_append]
    have hstep := ItemDemand.countWindow_step hchange c.count
    rw [Items.updateDemand, itemUpdateDemand, ItemDemand.countWindow_periodStep, hstep]
    exact hcount
  · rw [List.map_append]
    have hstep := ItemDemand.periodWindow_step hpchange c.period
    rw [ItemDemand.periodWindow_countStep] at hstep
    rw [Items.updateDemand, itemUpdateDemand, hstep]
    exact hperiod

lemma DemandCovers.run {past : List DemandCall} {last : ℤ} {elm : ItemElem α} (h : DemandCovers past last elm.demand)
    (calls : List DemandCall) (c : DemandCall) (hsorted : (calls ++ [c]).Pairwise (fun r s => r.now ≤ s.now))
    (hlast : ∀ r ∈ calls ++ [c], last ≤ r.now) :
    DemandCovers (past ++ (calls ++ [c])) c.now ((calls ++ [c]).foldl Items.updateDemand elm).demand := by
  induction calls generalizing past last elm with
  | nil => exact h.updateDemand c (hlast c List.mem_cons_self)
  | cons r calls ih =>
    obtain ⟨hr, hrest⟩ := List.pairwise_cons.mp hsorted
    have hstep := h.updateDemand r (hlast r List.mem_cons_self)
    have := ih hstep hrest fun s hs => Nat.cast_le.mpr (hr s hs)
    rwa [List.append_assoc] at this

variable [Inhabited α]

theorem demand_covers_last_day (calls : List DemandCall) (c : DemandCall)
    (hsorted : (calls ++ [c]).Pairwise (fun r s => r.now ≤ s.now)) :
    let d := ((calls ++ [c]).foldl updateDemand (itemCreateCb : ItemElem α)).demand
    (∀ r ∈ calls ++ [c], (c.now : ℤ) - itemDemandUpdate ≤ r.now → r.period ≤ d.period ∧ r.count ≤ d.count) ∧
      (∃ r ∈ calls ++ [c], d.period ≤ r.period) ∧ ∃ r ∈ calls ++ [c], d.count ≤ r.count := by
  have hinit : DemandCovers [] 0 (itemCreateCb : ItemElem α).demand :=
    ⟨covers_zero le_rfl, covers_zero le_rfl⟩
  have h := hinit.run calls c hsorted fun r _ => Int.natCast_nonneg r.now
  have hmem : c ∈ [] ++ (calls ++ [c]) := by simp
  refine ⟨fun r hr hin => ⟨?_, ?_⟩, ?_, ?_⟩
  · exact h.period.current r.periodRequest (List.mem_map_of_mem hr) (by dsimp only [DemandCall.periodRequest]; omega)
  · exact h.count.current r.countRequest (List.mem_map_of_mem hr) (by dsimp only [DemandCall.countRequest]; omega)
  · obtain ⟨s, hs, hle⟩ := h.period.current_attained.exists (List.mem_map_of_mem (f := DemandCall.periodRequest) hmem)
    obtain ⟨r, hr, rfl⟩ := List.mem_map.mp hs
    exact ⟨r, hr, hle⟩
  · obtain ⟨s, hs, hle⟩ := h.count.current_attained.exists (List.mem_map_of_mem (f := DemandCall.countRequest) hmem)
    obtain ⟨r, hr, rfl⟩ := List.mem_map.mp hs
    exact ⟨r, hr, hle⟩

theorem demand_of_three_days_covers_last_day :
    let calls : List DemandCall := [⟨5, 600, 1000⟩, ⟨3, 300, 87000⟩]
    let c : DemandCall := ⟨0, 60, 173000⟩
    let d := ((calls ++ [c]).foldl updateDemand (itemCreateCb : ItemElem ℕ)).demand
    (∀ r ∈ calls ++ [c], (c.now : ℤ) - itemDemandUpdate ≤ r.now → r.period ≤ d.period ∧ r.count ≤ d.count) ∧
      (∃ r ∈ calls ++ [c], d.period ≤ r.period) ∧ ∃ r ∈ calls ++ [c], d.count ≤ r.count :=
  demand_covers_last_day _ _ (by decide)

end

section

variable [Inhabited α] {elm : ItemElem α} {l : List (TsValue α)}

theorem eviction_respects_demand (h : Rep elm.tsbuff l) (hfull : elm.tsbuff.isFull) (now : ℤ) :
    ∃ b, ensureTsbuffHasSpace now elm = { elm with tsbuff := b } ∧
      ((∃ v rest, l = v :: rest ∧ Rep b rest ∧ elm.demand.count ≤ rest.length ∧
          (∀ w ∈ rest.head?, (elm.demand.period : ℤ) ≤ now - w.time) ∧ rest.length < b.size) ∨
        Rep b l ∧ ((calcGrowBufferSize elm.tsbuff.size : ℤ) ≤ maxSize →
          b.size = calcGrowBufferSize elm.tsbuff.size ∧ l.length < b.size)) := by
  have hlen : l.length = elm.tsbuff.size := by rw [← h.count]; exact hfull
  have hshows : Shows elm ⟨l, elm.tsbuff.size⟩ := ⟨h, rfl⟩
  have hroom := hshows.ensureTsbuffHasSpace now
  obtain ⟨b, hb⟩ : ∃ b, ensureTsbuffHasSpace now elm = { elm with tsbuff := b } := by
    rw [ensureTsbuffHasSpace]
    dsimp only
    split_ifs
    · exact ⟨_, rfl⟩
    · exact ⟨_, rfl⟩
  rw [hb, View.makeRoom, if_pos hlen] at hroom
  refine ⟨b, hb, ?_⟩
  split_ifs at hroom with hmet hgrow
  · left
    have hpos := h.size_pos
    obtain ⟨v, rest, rfl⟩ := List.exists_cons_of_ne_nil (List.ne_nil_of_length_pos (by omega) : l ≠ [])
    rw [List.length_cons] at hlen
    refine ⟨v, rest, rfl, hroom.rep, hmet.1, ?_, ?_⟩
    · intro w hw
      cases rest with
      | nil => cases hw
      | cons x rest =>
        obtain rfl : x = w := Option.some.inj hw
        exact hmet.2
    · have hsize : b.size = elm.tsbuff.size := hroom.size
      omega
  · right
    have hsize : b.size = calcGrowBufferSize elm.tsbuff.size := hroom.size
    have hlt := lt_calcGrowBufferSize elm.tsbuff.size
    exact ⟨hroom.rep, fun _ => ⟨hsize, by omega⟩⟩
  · exact .inr ⟨hroom.rep, fun hle => absurd hle hgrow⟩

theorem eviction_from_two_respects_demand :
    let elm : ItemElem ℕ := ⟨ofList ⟨0, 0⟩ [⟨100, 1⟩, ⟨160, 2⟩] 2, ⟨1, 60, 0, 0, 0, 0⟩, .uint64, 0, 0⟩
    ∃ b, ensureTsbuffHasSpace 220 elm = { elm with tsbuff := b } ∧
      ((∃ v rest, [(⟨100, 1⟩ : TsValue ℕ), ⟨160, 2⟩] = v :: rest ∧ Rep b rest ∧ elm.demand.count ≤ rest.length ∧
          (∀ w ∈ rest.head?, (elm.demand.period : ℤ) ≤ 220 - w.time) ∧ rest.length < b.size) ∨
        Rep b [⟨100, 1⟩, ⟨160, 2⟩] ∧ ((calcGrowBufferSize elm.tsbuff.size : ℤ) ≤ maxSize →
          b.size = calcGrowBufferSize elm.tsbuff.size ∧ [(⟨100, 1⟩ : TsValue ℕ), ⟨160, 2⟩].length < b.size)) :=
  eviction_respects_demand (rep_ofList ⟨0, 0⟩ (by simp) (by simp)) (by exact rfl) 220

end

end Glaber.State.Items
