import Glaber.Algo.Hashset
import Glaber.Common
import Glaber.Lib.Runs

/-! The hash map from keys to positions (`hashmap.c`). Nothing is returned where the source writes past the end of an
array. -/

namespace Glaber.Algo

structure MapEntry where
  key : UInt64
  value : ℤ
deriving DecidableEq

-- The entries in use; where no cells are allocated the array is a null pointer.
structure MapSlot where
  entries : List MapEntry
  entriesAlloc : ℕ

structure Hashmap where
  slots : ℕ → MapSlot
  numData : ℤ
  numSlots : ℕ

def MapSlot.null : MapSlot := ⟨[], 0⟩

def MapSlot.ensureFreeEntry (slot : MapSlot) : MapSlot :=
  if slot.entriesAlloc = 0 then ⟨[], 6⟩
  else if slot.entries.length = slot.entriesAlloc then { slot with entriesAlloc := slot.entriesAlloc * 2 }
  else slot

def MapSlot.append (slot : MapSlot) (entry : MapEntry) : Option MapSlot :=
  if slot.entries.length < slot.entriesAlloc then some { slot with entries := slot.entries ++ [entry] } else none

def fillHole (i : ℕ) (entries : List MapEntry) : List MapEntry :=
  match entries.getLast? with
  | none => entries
  | some last => (entries.set i last).dropLast

namespace Hashmap

def defaultSlots : ℕ := 10

def initSlots (initSize : ℕ) : Hashmap :=
  if 0 < initSize then ⟨fun _ => .null, 0, nextPrime initSize⟩ else ⟨fun _ => .null, 0, 0⟩

def create (initSize : ℕ) : Hashmap := initSlots initSize

def isMatch (h : HashFuncs UInt64) (key : UInt64) (entry : MapEntry) : Bool := h.compare entry.key key = 0

def get (h : HashFuncs UInt64) (hm : Hashmap) (key : UInt64) : ℤ :=
  if hm.numSlots = 0 then fail
  else
    match (hm.slots ((h.hash key).toNat % hm.numSlots)).entries.find? (isMatch h key) with
    | none => fail
    | some entry => entry.value

def redistributeSlot (h : HashFuncs UInt64) (incSlots s : ℕ) : ℕ → ℕ → (ℕ → MapSlot) → Option (ℕ → MapSlot)
  | 0, _, _ => none
  | fuel + 1, i, slots =>
    match (slots s).entries[i]? with
    | none => some slots
    | some entry =>
      let t := (h.hash entry.key).toNat % incSlots
      if s ≠ t then
        ((slots t).ensureFreeEntry.append entry).bind fun newSlot =>
          -- `i` steps back and forward again, to the entry that came into the hole
          redistributeSlot h incSlots s fuel i
            (Function.update (Function.update slots t newSlot) s
              { slots s with entries := fillHole i (slots s).entries })
      else redistributeSlot h incSlots s fuel (i + 1) slots

def redistribute (h : HashFuncs UInt64) (hm : Hashmap) : Option Hashmap :=
  let incSlots := nextPrime (hm.numSlots * 3 / 2)
  let cleared := fun s => if hm.numSlots ≤ s ∧ s < incSlots then MapSlot.null else hm.slots s
  ((List.range hm.numSlots).foldlM
    (fun slots s => redistributeSlot h incSlots s ((slots s).entries.length + 1) 0 slots) cleared).map
      fun slots => { hm with slots := slots, numSlots := incSlots }

def setInto (h : HashFuncs UInt64) (hm : Hashmap) (key : UInt64) (value : ℤ) : Option Hashmap :=
  let s := (h.hash key).toNat % hm.numSlots
  let slot := hm.slots s
  match slot.entries.findIdx? (isMatch h key) with
  | some i =>
    let entries := slot.entries.modify i fun entry => { entry with value := value }
    some { hm with slots := Function.update hm.slots s { slot with entries := entries } }
  | none =>
    (slot.ensureFreeEntry.append ⟨key, value⟩).bind fun slot =>
      let hm := { hm with slots := Function.update hm.slots s slot, numData := hm.numData + 1 }
      if (hm.numSlots : ℤ) * 5 / 1 ≤ hm.numData then hm.redistribute h else some hm

def set (h : HashFuncs UInt64) (hm : Hashmap) (key : UInt64) (value : ℤ) : Option Hashmap :=
  setInto h (if hm.numSlots = 0 then initSlots defaultSlots else hm) key value

def remove (h : HashFuncs UInt64) (hm : Hashmap) (key : UInt64) : Hashmap :=
  if hm.numSlots = 0 then hm
  else
    let s := (h.hash key).toNat % hm.numSlots
    let slot := hm.slots s
    match slot.entries.findIdx? (isMatch h key) with
    | none => hm
    | some i =>
      { hm with
        slots := Function.update hm.slots s { slot with entries := fillHole i slot.entries }
        numData := hm.numData - 1 }

def clear (hm : Hashmap) : Hashmap :=
  { hm with
    slots := fun s => if s < hm.numSlots then { hm.slots s with entries := [] } else hm.slots s
    numData := 0 }

end Hashmap

open Glaber.Lib.Buckets Glaber.Lib.Runs

section

variable {slot : MapSlot} {entry : MapEntry}

def MapSlot.Fits (slot : MapSlot) : Prop := slot.entries.length ≤ slot.entriesAlloc

lemma MapSlot.append_fits (hfits : slot.Fits) (entry : MapEntry) :
    ∃ slot', slot.ensureFreeEntry.append entry = some slot' ∧ slot'.entries = slot.entries ++ [entry] ∧ slot'.Fits := by
  have hlen : (slot.entries ++ [entry]).length = slot.entries.length + 1 := by simp
  rw [Fits] at hfits
  rw [ensureFreeEntry]
  split_ifs with hnull hfull
  · have hnil : slot.entries = [] := List.length_eq_zero_iff.mp (by omega)
    refine ⟨⟨[entry], 6⟩, rfl, by rw [hnil]; rfl, ?_⟩
    exact (show 1 ≤ 6 by omega)
  · refine ⟨⟨slot.entries ++ [entry], slot.entriesAlloc * 2⟩, if_pos ?_, rfl, ?_⟩
    · dsimp only
      omega
    · rw [Fits]
      dsimp only
      omega
  · refine ⟨⟨slot.entries ++ [entry], slot.entriesAlloc⟩, if_pos (by omega), rfl, ?_⟩
    rw [Fits]
    dsimp only
    omega

lemma fillHole_spec (pre post : List MapEntry) (entry : MapEntry) :
    ∃ rest, fillHole pre.length (pre ++ entry :: post) = pre ++ rest ∧ rest.Perm post := by
  rcases List.eq_nil_or_concat post with rfl | ⟨mid, last, rfl⟩
  · refine ⟨[], ?_, .nil⟩
    rw [fillHole, List.getLast?_concat]
    simp
  · refine ⟨last :: mid, ?_, ?_⟩
    · have hlast : (pre ++ entry :: mid.concat last).getLast? = some last := by
        rw [List.concat_eq_append, ← List.cons_append, ← List.append_assoc, List.getLast?_concat]
      rw [fillHole, hlast]
      dsimp only
      rw [List.set_append_right _ _ le_rfl, Nat.sub_self, List.set_cons_zero, List.concat_eq_append, ← List.cons_append,
        ← List.append_assoc, List.dropLast_concat]
    · rw [List.concat_eq_append]
      exact (List.perm_append_singleton last mid).symm

end

namespace Hashmap

variable {h : HashFuncs UInt64} {slots : ℕ → MapSlot} {inc s : ℕ}

def chains (slots : ℕ → MapSlot) : ℕ → List MapEntry := fun s => (slots s).entries

lemma chains_update (slots : ℕ → MapSlot) (s : ℕ) (slot : MapSlot) :
    chains (Function.update slots s slot) = Function.update (chains slots) s slot.entries := by
  funext t
  by_cases ht : t = s
  · rw [ht, chains, Function.update_self, Function.update_self]
  · rw [chains, Function.update_of_ne ht, Function.update_of_ne ht, chains]

def Placed (h : HashFuncs UInt64) (numSlots : ℕ) (slots : ℕ → MapSlot) (s : ℕ) : Prop :=
  ∀ e ∈ (slots s).entries, (h.hash e.key).toNat % numSlots = s

structure Spread (h : HashFuncs UInt64) (inc : ℕ) (s : ℕ) (slots slots' : ℕ → MapSlot) : Prop where
  entries : total (chains slots') inc = total (chains slots) inc
  fits : ∀ t < inc, (slots' t).Fits
  placed : Placed h inc slots' s
  others : ∀ t, t ≠ s → Placed h inc slots t → Placed h inc slots' t

lemma redistributeSlot_spec (hs : s < inc) (fuel : ℕ) (kept rest : List MapEntry) (slots : ℕ → MapSlot)
    (hchain : (slots s).entries = kept ++ rest) (hkept : ∀ e ∈ kept, (h.hash e.key).toNat % inc = s)
    (hfits : ∀ t < inc, (slots t).Fits) (hfuel : rest.length < fuel) :
    ∃ slots', redistributeSlot h inc s fuel kept.length slots = some slots' ∧ Spread h inc s slots slots' := by
  induction fuel generalizing kept rest slots with
  | zero => omega
  | succ fuel ih =>
    rw [redistributeSlot, hchain]
    cases rest with
    | nil =>
      have hend : (kept ++ [])[kept.length]? = none := by simp
      rw [hend]
      refine ⟨slots, rfl, rfl, hfits, ?_, fun t _ h => h⟩
      rw [List.append_nil] at hchain
      intro e he
      exact hkept e (hchain ▸ he)
    | cons entry rest =>
      have hcell : (kept ++ entry :: rest)[kept.length]? = some entry := by simp
      rw [hcell]
      dsimp only
      rw [List.length_cons] at hfuel
      by_cases hmove : s ≠ (h.hash entry.key).toNat % inc
      · rw [if_pos hmove]
        have hlt : (h.hash entry.key).toNat % inc < inc := Nat.mod_lt _ (by omega)
        generalize htarget : (h.hash entry.key).toNat % inc = t at hmove hlt ⊢
        obtain ⟨slot', happend, hgrown, hroom⟩ := MapSlot.append_fits (hfits t hlt) entry
        obtain ⟨filled, hfill, hperm⟩ := fillHole_spec kept rest entry
        rw [happend, Option.bind_some, hfill]
        generalize hmid : Function.update (Function.update slots t slot') s
          { slots s with entries := kept ++ filled } = mid
        have hmids : mid s = { slots s with entries := kept ++ filled } := by rw [← hmid, Function.update_self]
        have hmidt : mid t = slot' := by rw [← hmid, Function.update_of_ne hmove.symm, Function.update_self]
        have hmidu : ∀ u, u ≠ s → u ≠ t → mid u = slots u := by
          intro u hus hut
          rw [← hmid, Function.update_of_ne hus, Function.update_of_ne hut]
        have hlen := hperm.length_eq
        have hmidfits : ∀ u < inc, (mid u).Fits := by
          intro u hu
          by_cases hus : u = s
          · have hold := hfits s hs
            rw [MapSlot.Fits, hchain] at hold
            rw [hus, hmids, MapSlot.Fits]
            simp only [List.length_append, List.length_cons] at hold ⊢
            omega
          · by_cases hut : u = t
            · rw [hut, hmidt]
              exact hroom
            · rw [hmidu u hus hut]
              exact hfits u hu
        obtain ⟨slots', hrun, hspread⟩ := ih kept filled mid (by rw [hmids]) hkept hmidfits (by omega)
        refine ⟨slots', hrun, ?_, hspread.fits, hspread.placed, ?_⟩
        · rw [hspread.entries, ← hmid, chains_update, chains_update, hgrown]
          refine total_move (a := entry) hs hlt hmove ?_ ?_
          · rw [chains, hchain, Multiset.cons_coe, Multiset.coe_eq_coe]
            exact List.perm_middle.trans ((hperm.symm.append_left kept).cons entry)
          · rw [chains, Multiset.cons_coe, Multiset.coe_eq_coe]
            exact List.perm_append_singleton entry _
        · intro u hus hplaced
          apply hspread.others u hus
          by_cases hut : u = t
          · subst hut
            intro e he
            rw [hmidt, hgrown] at he
            rcases List.mem_append.mp he with he | he
            · exact hplaced e he
            · obtain rfl : e = entry := by simpa using he
              exact htarget
          · intro e he
            rw [hmidu u hus hut] at he
            exact hplaced e he
      · rw [if_neg hmove]
        have hnext := ih (kept ++ [entry]) rest slots (by rw [hchain, List.append_assoc, List.singleton_append])
        rw [List.length_append, List.length_singleton] at hnext
        apply hnext ?_ hfits (by omega)
        intro e he
        rcases List.mem_append.mp he with he | he
        · exact hkept e he
        · obtain rfl : e = entry := by simpa using he
          exact (not_not.mp hmove).symm

def entries (hm : Hashmap) : Multiset MapEntry := total (chains hm.slots) hm.numSlots

structure Walked (h : HashFuncs UInt64) (hm : Hashmap) (inc : ℕ) (past : List ℕ) (slots : ℕ → MapSlot) : Prop where
  entries : total (chains slots) inc = hm.entries
  fits : ∀ t < inc, (slots t).Fits
  placed : ∀ t < inc, t ∈ past ∨ hm.numSlots ≤ t → Placed h inc slots t

section

variable {hm : Hashmap}

lemma Walked.step {past : List ℕ} (hw : Walked h hm inc past slots) (hs : s < inc) :
    ∃ slots', redistributeSlot h inc s ((slots s).entries.length + 1) 0 slots = some slots' ∧
      Walked h hm inc (past ++ [s]) slots' := by
  obtain ⟨slots', hrun, hspread⟩ :=
    redistributeSlot_spec hs _ [] (slots s).entries slots rfl (by simp) hw.fits (Nat.lt_succ_self _)
  refine ⟨slots', hrun, hspread.entries.trans hw.entries, hspread.fits, ?_⟩
  intro t ht hcase
  by_cases hts : t = s
  · rw [hts]
    exact hspread.placed
  · apply hspread.others t hts
    apply hw.placed t ht
    simpa [hts] using hcase

lemma Walked.start (hle : hm.numSlots ≤ inc) (hfits : ∀ t < hm.numSlots, (hm.slots t).Fits) :
    Walked h hm inc [] fun t => if hm.numSlots ≤ t ∧ t < inc then MapSlot.null else hm.slots t := by
  generalize hcleared : (fun t => if hm.numSlots ≤ t ∧ t < inc then MapSlot.null else hm.slots t) = cleared
  have hcell : ∀ t, cleared t = if hm.numSlots ≤ t ∧ t < inc then MapSlot.null else hm.slots t := by
    intro t
    rw [← hcleared]
  have hnew : ∀ t, hm.numSlots ≤ t → t < inc → cleared t = MapSlot.null := by
    intro t hlo hhi
    rw [hcell, if_pos ⟨hlo, hhi⟩]
  have hold : ∀ t < hm.numSlots, cleared t = hm.slots t := by
    intro t ht
    rw [hcell, if_neg (by omega)]
  refine ⟨?_, ?_, ?_⟩
  · rw [total_extend hle fun t hlo hhi => by rw [chains, hnew t hlo hhi, MapSlot.null]]
    apply total_congr
    intro t ht
    rw [chains, hold t ht, chains]
  · intro t ht
    by_cases hlt : t < hm.numSlots
    · rw [hold t hlt]
      exact hfits t hlt
    · rw [hnew t (by omega) ht]
      exact le_rfl
  · intro t ht hcase e he
    rw [hnew t (by simpa using hcase) ht] at he
    cases he

theorem redistribute_spec (h : HashFuncs UInt64) (hfits : ∀ t < hm.numSlots, (hm.slots t).Fits) :
    ∃ hm', hm.redistribute h = some hm' ∧ hm'.entries = hm.entries ∧ hm'.numData = hm.numData ∧ 0 < hm'.numSlots ∧
      (∀ t < hm'.numSlots, (hm'.slots t).Fits) ∧ ∀ t < hm'.numSlots, Placed h hm'.numSlots hm'.slots t := by
  obtain ⟨hge, hprime⟩ := nextPrime_spec (hm.numSlots * 3 / 2)
  rw [redistribute]
  generalize nextPrime (hm.numSlots * 3 / 2) = inc at hge hprime ⊢
  have hle : hm.numSlots ≤ inc := by omega
  obtain ⟨slots, hrun, hend⟩ := foldlM_total_of_mem (Walked h hm inc) (List.range hm.numSlots)
    (fun past slots s hs hw => hw.step (lt_of_lt_of_le (List.mem_range.mp hs) hle)) (.start hle hfits)
  refine ⟨{ hm with slots := slots, numSlots := inc }, ?_, hend.entries, rfl, hprime.pos, hend.fits, ?_⟩
  · rw [hrun]
    rfl
  · intro t ht
    apply hend.placed t ht
    rw [List.nil_append, List.mem_range]
    exact lt_or_ge t hm.numSlots

end

end Hashmap

end Glaber.Algo
