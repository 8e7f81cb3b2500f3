import Mathlib.Tactic

/-! The flags that tell the timer processes to update maintenances (`dbconfig_maintenance.c`). -/

namespace Glaber.Maintenance

section

variable (timers : ℕ)

def updateFlagsNum : ℕ := (timers + 64 - 1) / 64

abbrev Flags := List (BitVec 64)

def initFlags : Flags := List.replicate (updateFlagsNum timers) 0

def setUpdateFlags : Flags :=
  let slotsNum := updateFlagsNum timers
  let flags := List.replicate slotsNum (BitVec.allOnes 64)
  let timersLeft := timers % 64
  if timersLeft ≠ 0 then flags.modify (slotsNum - 1) (· >>> (64 - timersLeft)) else flags

/-- `timer` counts from 1. -/
def resetUpdateFlag (flags : Flags) (timer : ℕ) : Flags :=
  let slot := (timer - 1) / 64
  let bit := (timer - 1) % 64
  flags.modify slot (· &&& ~~~((1 : BitVec 64) <<< bit))

def checkUpdateFlag (flags : Flags) (timer : ℕ) : Bool :=
  let slot := (timer - 1) / 64
  let bit := (timer - 1) % 64
  ((flags[slot]?).getD 0 &&& ((1 : BitVec 64) <<< bit)) ≠ 0

/-- The bytes of the words, as they lie in memory on a little-endian machine. -/
def memory (words : Flags) : List (BitVec 8) :=
  words.flatMap fun word => (List.range 8).map fun k => word.extractLsb' (8 * k) 8

/-- The comparison goes over as many bytes as there are words behind the first one. -/
def checkUpdateFlags (flags : Flags) : Bool :=
  let slotsNum := updateFlagsNum timers
  if (flags[0]?).getD 0 ≠ 0 then true
  else if 1 ≠ slotsNum then (memory flags).take (slotsNum - 1) ≠ (memory (flags.drop 1)).take (slotsNum - 1)
  else false

inductive Op where
  | set
  | reset (timer : ℕ)
deriving DecidableEq

def runOp (flags : Flags) : Op → Flags
  | .set => setUpdateFlags timers
  | .reset timer => resetUpdateFlag flags timer

def run (ops : List Op) : Flags := ops.foldl (runOp timers) (initFlags timers)

end

section

def bitAt (flags : Flags) (k : ℕ) : Bool := ((flags[k / 64]?).getD 0).getLsbD (k % 64)

lemma getLsbD_one_shiftLeft {bit : ℕ} (hbit : bit < 64) (j : ℕ) :
    ((1 : BitVec 64) <<< bit).getLsbD j = decide (j = bit) := by
  rw [BitVec.getLsbD_shiftLeft]
  by_cases h : j = bit
  · simp [h, hbit]
  · simp [h]
    omega

lemma and_bit_eq_zero_iff (word : BitVec 64) {bit : ℕ} (hbit : bit < 64) :
    word &&& ((1 : BitVec 64) <<< bit) = 0 ↔ word.getLsbD bit = false := by
  constructor
  · intro h
    have hget := congrArg (·.getLsbD bit) h
    simp only [BitVec.getLsbD_and, getLsbD_one_shiftLeft hbit, decide_true, Bool.and_true] at hget
    exact hget.trans BitVec.getLsbD_zero
  · intro h
    refine BitVec.eq_of_getLsbD_eq fun j _ => ?_
    rw [BitVec.getLsbD_and, getLsbD_one_shiftLeft hbit]
    by_cases hj : j = bit
    · simp [hj, h]
    · simp [hj]

lemma checkUpdateFlag_eq (flags : Flags) (timer : ℕ) : checkUpdateFlag flags timer = bitAt flags (timer - 1) := by
  have hbit : (timer - 1) % 64 < 64 := Nat.mod_lt _ (by decide)
  rw [checkUpdateFlag, bitAt]
  simp only [ne_eq, and_bit_eq_zero_iff _ hbit, Bool.not_eq_false, Bool.decide_eq_true]

lemma bitAt_init (timers k : ℕ) : bitAt (initFlags timers) k = false := by
  rw [bitAt, initFlags, List.getElem?_replicate]
  split_ifs <;> simp

lemma bitAt_set (timers k : ℕ) : bitAt (setUpdateFlags timers) k = decide (k < timers) := by
  have hmod : k % 64 < 64 := Nat.mod_lt _ (by decide)
  simp only [bitAt, setUpdateFlags, updateFlagsNum]
  split_ifs with hleft
  · rw [List.getElem?_modify, List.getElem?_replicate]
    by_cases hslot : k / 64 < (timers + 64 - 1) / 64
    · by_cases hlast : (timers + 64 - 1) / 64 - 1 = k / 64
      · -- the word that is shifted
        simp only [if_pos hslot, if_pos hlast, Option.map_eq_map, Option.map_some, Option.getD_some, BitVec.getLsbD_ushiftRight,
          BitVec.getLsbD_allOnes, decide_eq_decide]
        omega
      · simp only [if_pos hslot, if_neg hlast, Option.map_eq_map, Option.map_some, Option.getD_some,
          BitVec.getLsbD_allOnes, decide_eq_decide]
        omega
    · have hno : ¬ k < timers := by omega
      simp only [if_neg hslot, hno, decide_false, Option.map_eq_map, Option.map_none, Option.getD_none]
      exact BitVec.getLsbD_zero
  · rw [List.getElem?_replicate]
    split_ifs with hslot
    · simp only [Option.getD_some, BitVec.getLsbD_allOnes, decide_eq_decide]
      omega
    · have hno : ¬ k < timers := by omega
      simp [hno]

lemma bitAt_reset (flags : Flags) (timer k : ℕ) :
    bitAt (resetUpdateFlag flags timer) k = (bitAt flags k && decide (k ≠ timer - 1)) := by
  have hbit : (timer - 1) % 64 < 64 := Nat.mod_lt _ (by decide)
  have hmod : k % 64 < 64 := Nat.mod_lt _ (by decide)
  simp only [bitAt, resetUpdateFlag]
  rw [List.getElem?_modify]
  by_cases hslot : (timer - 1) / 64 = k / 64
  · cases hword : flags[k / 64]? with
    | none => simp
    | some word =>
      have hsame : k % 64 = (timer - 1) % 64 ↔ k = timer - 1 := by omega
      simp only [if_pos hslot, Option.map_eq_map, Option.map_some, Option.getD_some, BitVec.getLsbD_and, BitVec.getLsbD_not,
        getLsbD_one_shiftLeft hbit, hmod, decide_true, Bool.true_and, hsame, ne_eq, decide_not]
  · have hne : k ≠ timer - 1 := by
      rintro rfl
      exact hslot rfl
    simp [hslot, hne]

end

section

variable (flags : Flags)

def byteAt (k : ℕ) : BitVec 8 := ((flags[k / 8]?).getD 0).extractLsb' (8 * (k % 8)) 8

lemma byteAt_eq_zero_iff (k : ℕ) : byteAt flags k = 0 ↔ ∀ i < 8, bitAt flags (8 * k + i) = false := by
  have hbit : ∀ i < 8, (byteAt flags k).getLsbD i = bitAt flags (8 * k + i) := by
    intro i hi
    have hword : (8 * k + i) / 64 = k / 8 := by omega
    have hplace : (8 * k + i) % 64 = 8 * (k % 8) + i := by omega
    rw [byteAt, bitAt, BitVec.getLsbD_extractLsb', hword, hplace]
    simp [hi]
  constructor
  · intro h i hi
    rw [← hbit i hi, h]
    exact BitVec.getLsbD_zero
  · intro h
    refine BitVec.eq_of_getLsbD_eq fun i hi => ?_
    rw [hbit i hi, h i hi]
    exact BitVec.getLsbD_zero.symm

lemma byteAt_drop (k : ℕ) : byteAt (flags.drop 1) k = byteAt flags (k + 8) := by
  have hword : (k + 8) / 8 = 1 + k / 8 := by omega
  rw [byteAt, byteAt, List.getElem?_drop, hword, Nat.add_mod_right]

lemma memory_getElem? {flags : Flags} {k : ℕ} (hk : k < 8 * flags.length) : (memory flags)[k]? = some (byteAt flags k) := by
  induction flags generalizing k with
  | nil => simp at hk
  | cons word flags ih =>
    have hlength : ((List.range 8).map fun k => word.extractLsb' (8 * k) 8).length = 8 := by simp
    rw [memory, List.flatMap_cons, ← memory]
    rcases Nat.lt_or_ge k 8 with hlow | hhigh
    · rw [List.getElem?_append_left (by omega), List.getElem?_map, List.getElem?_range hlow, byteAt]
      have hword : k / 8 = 0 := by omega
      have hplace : k % 8 = k := by omega
      simp [hword, hplace]
    · obtain ⟨k, rfl⟩ := Nat.exists_eq_add_of_le' hhigh
      have hdrop := byteAt_drop (word :: flags) k
      rw [List.drop_one, List.tail_cons] at hdrop
      rw [List.getElem?_append_right (by omega), hlength, Nat.add_sub_cancel, ih (by simp at hk; omega), hdrop]

lemma take_memory_eq_iff {flags : Flags} {n : ℕ} (hn : n ≤ 8 * (flags.length - 1)) :
    (memory flags).take n = (memory (flags.drop 1)).take n ↔ ∀ k < n, byteAt flags k = byteAt flags (k + 8) := by
  have hget : ∀ k < n, (memory flags)[k]? = some (byteAt flags k) := fun k hk => memory_getElem? (by omega)
  have hnext : ∀ k < n, (memory (flags.drop 1))[k]? = some (byteAt flags (k + 8)) := fun k hk => by
    rw [memory_getElem? (by rw [List.length_drop]; omega), byteAt_drop]
  constructor
  · intro h k hk
    have hsame := congrArg (·[k]?) h
    simp only [List.getElem?_take, if_pos hk, hget k hk, hnext k hk] at hsame
    exact Option.some.inj hsame
  · intro h
    refine List.ext_getElem? fun k => ?_
    rw [List.getElem?_take, List.getElem?_take]
    split_ifs with hk
    · rw [hget k hk, hnext k hk, h k hk]
    · rfl

lemma shifted_bytes_iff {flags : Flags} {n : ℕ} (hzero : ∀ k < 8, byteAt flags k = 0) :
    (∀ k < n, byteAt flags k = byteAt flags (k + 8)) ↔ ∀ k < n, byteAt flags (k + 8) = 0 := by
  constructor
  · intro h k
    induction k using Nat.strong_induction_on with
    | _ k ih =>
      intro hk
      rw [← h k hk]
      rcases Nat.lt_or_ge k 8 with hlow | hhigh
      · exact hzero k hlow
      · have hback := ih (k - 8) (by omega) (by omega)
        rwa [Nat.sub_add_cancel hhigh] at hback
  · intro h k hk
    rw [h k hk]
    rcases Nat.lt_or_ge k 8 with hlow | hhigh
    · exact hzero k hlow
    · have hback := h (k - 8) (by omega)
      rwa [Nat.sub_add_cancel hhigh] at hback

lemma bytes_zero_iff (n : ℕ) : (∀ k < n, byteAt flags k = 0) ↔ ∀ k < 8 * n, bitAt flags k = false := by
  simp only [byteAt_eq_zero_iff]
  constructor
  · intro h k hk
    have hbit := h (k / 8) (by omega) (k % 8) (Nat.mod_lt _ (by decide))
    rwa [Nat.div_add_mod] at hbit
  · intro h k hk i hi
    exact h _ (by omega)

lemma word_zero_iff : (flags[0]?).getD 0 = 0 ↔ ∀ k < 64, bitAt flags k = false := by
  have hbit : ∀ k < 64, bitAt flags k = ((flags[0]?).getD 0).getLsbD k := by
    intro k hk
    rw [bitAt, Nat.div_eq_of_lt hk, Nat.mod_eq_of_lt hk]
  constructor
  · intro h k hk
    rw [hbit k hk, h]
    exact BitVec.getLsbD_zero
  · intro h
    refine BitVec.eq_of_getLsbD_eq fun k hk => ?_
    rw [← hbit k hk, h k hk]
    exact BitVec.getLsbD_zero.symm

lemma checkUpdateFlags_false_iff {timers : ℕ} {flags : Flags} (hlength : flags.length = updateFlagsNum timers) :
    checkUpdateFlags timers flags = false ↔ ∀ k < 64 + 8 * (updateFlagsNum timers - 1), bitAt flags k = false := by
  rw [checkUpdateFlags]
  by_cases hword : (flags[0]?).getD 0 = 0
  · have hzero : ∀ k < 8, byteAt flags k = 0 := (bytes_zero_iff flags 8).2 ((word_zero_iff flags).1 hword)
    have hall : (∀ k < updateFlagsNum timers - 1, byteAt flags (k + 8) = 0) ↔
        ∀ k < 64 + 8 * (updateFlagsNum timers - 1), bitAt flags k = false := by
      rw [show 64 + 8 * (updateFlagsNum timers - 1) = 8 * (8 + (updateFlagsNum timers - 1)) by ring, ← bytes_zero_iff]
      constructor
      · intro h k hk
        rcases Nat.lt_or_ge k 8 with hlow | hhigh
        · exact hzero k hlow
        · have hback := h (k - 8) (by omega)
          rwa [Nat.sub_add_cancel hhigh] at hback
      · exact fun h k hk => h _ (by omega)
    rw [if_neg (not_not.2 hword), ← hall]
    split_ifs with hone
    · rw [decide_eq_false_iff_not, not_not, take_memory_eq_iff (by omega), shifted_bytes_iff hzero]
    · exact iff_of_true rfl fun k hk => by omega
  · rw [if_pos hword]
    refine iff_of_false (by simp) fun h => hword ((word_zero_iff flags).2 fun k hk => h k (by omega))

end

section

variable {timers : ℕ} {ops : List Op}

def Pending (ops : List Op) (timer : ℕ) : Prop :=
  ∃ before after, ops = before ++ .set :: after ∧ Op.set ∉ after ∧ Op.reset timer ∉ after

lemma pending_nil (timer : ℕ) : ¬ Pending [] timer := by
  rintro ⟨before, after, h, -⟩
  exact absurd h.symm (by simp)

lemma pending_set (ops : List Op) (timer : ℕ) : Pending (ops ++ [.set]) timer := ⟨ops, [], rfl, by simp, by simp⟩

lemma pending_reset (ops : List Op) (reset timer : ℕ) :
    Pending (ops ++ [.reset reset]) timer ↔ Pending ops timer ∧ timer ≠ reset := by
  constructor
  · rintro ⟨before, after, h, hset, hreset⟩
    rcases List.eq_nil_or_concat after with rfl | ⟨after, last, rfl⟩
    · exact absurd (List.append_inj' h rfl).2 (by simp)
    · rw [List.concat_eq_append] at h hset hreset
      rw [← List.cons_append, ← List.append_assoc] at h
      obtain ⟨rfl, hlast⟩ := List.append_inj' h rfl
      obtain rfl := List.head_eq_of_cons_eq hlast
      simp only [List.mem_append, List.mem_singleton, not_or] at hset hreset
      exact ⟨⟨before, after, rfl, hset.1, hreset.1⟩, fun heq => hreset.2 (by rw [heq])⟩
  · rintro ⟨⟨before, after, rfl, hset, hreset⟩, hne⟩
    refine ⟨before, after ++ [.reset reset], by simp, by simpa using hset, ?_⟩
    simpa [hreset] using hne

lemma run_concat (timers : ℕ) (ops : List Op) (op : Op) : run timers (ops ++ [op]) = runOp timers (run timers ops) op := by
  rw [run, List.foldl_append]
  rfl

lemma length_run (timers : ℕ) (ops : List Op) : (run timers ops).length = updateFlagsNum timers := by
  induction ops using List.reverseRecOn with
  | nil => simp [run, initFlags]
  | append_singleton ops op ih =>
    rw [run_concat]
    cases op with
    | set =>
      simp only [runOp, setUpdateFlags]
      split_ifs <;> simp
    | reset timer => simpa [runOp, resetUpdateFlag] using ih

def TimersOnly (timers : ℕ) (ops : List Op) : Prop := ∀ timer, Op.reset timer ∈ ops → 1 ≤ timer ∧ timer ≤ timers

lemma bitAt_run (hops : TimersOnly timers ops) (k : ℕ) :
    bitAt (run timers ops) k = true ↔ k < timers ∧ Pending ops (k + 1) := by
  induction ops using List.reverseRecOn with
  | nil => simp [run, bitAt_init, pending_nil]
  | append_singleton ops op ih =>
    have hbefore : TimersOnly timers ops := fun timer h => hops timer (List.mem_append_left _ h)
    rw [run_concat]
    cases op with
    | set => simp [runOp, bitAt_set, pending_set]
    | reset timer =>
      obtain ⟨hfrom, -⟩ := hops timer (by simp)
      have hbit : k ≠ timer - 1 ↔ k + 1 ≠ timer := by omega
      rw [runOp, bitAt_reset, pending_reset, Bool.and_eq_true, decide_eq_true_eq, ih hbefore, hbit, and_assoc]

structure FlagsRight (timers : ℕ) (ops : List Op) : Prop where
  each : ∀ timer, 1 ≤ timer → timer ≤ timers → (checkUpdateFlag (run timers ops) timer = true ↔ Pending ops timer)
  beyond : ∀ k, timers ≤ k → bitAt (run timers ops) k = false
  any : checkUpdateFlags timers (run timers ops) = true ↔
    ∃ timer, 1 ≤ timer ∧ timer ≤ timers ∧ checkUpdateFlag (run timers ops) timer = true

theorem flags_right_iff (hops : TimersOnly timers ops) :
    FlagsRight timers ops ↔ ((∃ timer, 1 ≤ timer ∧ timer ≤ timers ∧ Pending ops timer) →
      ∃ timer, 1 ≤ timer ∧ timer ≤ timers ∧ timer ≤ 64 + 8 * (updateFlagsNum timers - 1) ∧ Pending ops timer) := by
  have heach : ∀ timer, 1 ≤ timer → timer ≤ timers → (checkUpdateFlag (run timers ops) timer = true ↔ Pending ops timer) := by
    intro timer hfrom hto
    rw [checkUpdateFlag_eq, bitAt_run hops, Nat.sub_add_cancel hfrom]
    exact and_iff_right (by omega)
  have hbeyond : ∀ k, timers ≤ k → bitAt (run timers ops) k = false := by
    intro k hk
    exact Bool.eq_false_iff.2 fun hbit => absurd ((bitAt_run hops k).1 hbit).1 (by omega)
  have hsome : (∃ timer, 1 ≤ timer ∧ timer ≤ timers ∧ checkUpdateFlag (run timers ops) timer = true) ↔
      ∃ timer, 1 ≤ timer ∧ timer ≤ timers ∧ Pending ops timer :=
    exists_congr fun timer => and_congr_right fun hfrom => and_congr_right fun hto => heach timer hfrom hto
  have hseen : checkUpdateFlags timers (run timers ops) = true ↔
      ∃ timer, 1 ≤ timer ∧ timer ≤ timers ∧ timer ≤ 64 + 8 * (updateFlagsNum timers - 1) ∧ Pending ops timer := by
    rw [← Bool.not_eq_false, checkUpdateFlags_false_iff (length_run timers ops)]
    push Not
    constructor
    · rintro ⟨k, hk, hbit⟩
      obtain ⟨hlt, hpending⟩ := (bitAt_run hops k).1 (by simpa using hbit)
      exact ⟨k + 1, by omega, hlt, hk, hpending⟩
    · rintro ⟨timer, hfrom, hto, hseen, hpending⟩
      refine ⟨timer - 1, by omega, ?_⟩
      rw [ne_eq, Bool.not_eq_false, bitAt_run hops, Nat.sub_add_cancel hfrom]
      exact ⟨by omega, hpending⟩
  constructor
  · intro h hpending
    exact hseen.1 (h.any.2 (hsome.2 hpending))
  · intro h
    refine ⟨heach, hbeyond, ?_⟩
    rw [hseen, hsome]
    refine ⟨?_, h⟩
    rintro ⟨timer, hfrom, hto, -, hpending⟩
    exact ⟨timer, hfrom, hto, hpending⟩

def lastTimerLeft : List Op := .set :: (List.range 72).map fun k => .reset (k + 1)

theorem last_timer_not_seen : ¬ FlagsRight 73 lastTimerLeft := by
  intro h
  have hlast : checkUpdateFlag (run 73 lastTimerLeft) 73 = true := by decide +kernel
  have hseen : checkUpdateFlags 73 (run 73 lastTimerLeft) = true := h.any.2 ⟨73, by decide, le_rfl, hlast⟩
  exact absurd hseen (by decide +kernel)

theorem flags_right_after_set : FlagsRight 73 [.set] :=
  (flags_right_iff (by simp [TimersOnly])).2 fun _ => ⟨1, le_rfl, by decide, by decide, pending_set [] 1⟩

end

end Glaber.Maintenance
