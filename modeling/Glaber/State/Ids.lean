import Mathlib.Data.List.Nodup
import Mathlib.Tactic

/-! The id generator (`glb_state_ids.c`): a millisecond stamp, a sequence number and a process
id packed into 64 bits. -/

namespace Glaber.State.Ids

structure Timespec where
  sec : BitVec 32
  ns : BitVec 32

structure IdState where
  procId : BitVec 32
  sequence : BitVec 32
  lastTime : BitVec 64

def start : IdState := ⟨0, 0, 0⟩

def idInit (s : IdState) (id : BitVec 32) : IdState := if 255 < id then s else { s with procId := id }

def msTime (ts : Timespec) : BitVec 64 := ts.sec.signExtend 64 * 1000 + ts.ns.signExtend 64 / 1000000

/-- One call. `newTime` holds whatever the stack holds until the waiting loop assigns it; the loop
reads the clock once, before it starts, so a pass that does not leave it repeats forever (`none`). -/
def genNew (s : IdState) (newTime : BitVec 64) (ts : Timespec) : Option (BitVec 64 × IdState) :=
  if 999 < s.sequence then
    if msTime ts ≠ s.lastTime then
      some ((msTime ts <<< 18) ||| s.procId.setWidth 64, { s with lastTime := msTime ts, sequence := 1 })
    else none
  else some ((newTime <<< 18) ||| s.procId.setWidth 64, { s with sequence := s.sequence + 1 })

structure Call where
  newTime : BitVec 64
  clock : Timespec

structure Issued where
  id : BitVec 64
  sequence : BitVec 32

def run : IdState → List Call → Option (List Issued)
  | _, [] => some []
  | s, c :: cs => do
    let (id, s') ← genNew s c.newTime c.clock
    let rest ← run s' cs
    return ⟨id, if 999 < s.sequence then 0 else s.sequence⟩ :: rest

def procField (id : BitVec 64) : BitVec 8 := id.extractLsb' 0 8
def sequenceField (id : BitVec 64) : BitVec 10 := id.extractLsb' 8 10

structure UniqueIds (procId : BitVec 32) (calls : List Call) (out : List Issued) : Prop where
  returns : run (idInit start procId) calls = some out
  increasing : out.Pairwise (fun a b => a.id < b.id)
  distinct : (out.map Issued.id).Nodup
  process : ∀ i ∈ out, procField i.id = procId.setWidth 8
  numbered : ∃ first ≤ 1, ∀ i ∈ out, (sequenceField i.id).toNat = i.sequence.toNat + first
  separate : ∀ procId' ≤ 255, procId' ≠ procId → ∀ calls' out', run (idInit start procId') calls' = some out' →
    ∀ i ∈ out, ∀ j ∈ out', i.id ≠ j.id

lemma procField_pack (t : BitVec 64) (p : BitVec 32) :
    procField ((t <<< 18) ||| p.setWidth 64) = p.setWidth 8 := by
  ext i hi
  simp [procField]
  grind

lemma high_bit_clear {p : BitVec 32} (hp : p ≤ 255) {i : ℕ} (hi : 8 ≤ i) : p.getLsbD i = false := by
  apply Nat.testBit_lt_two_pow
  have hlt : p.toNat < 2 ^ 8 := by
    have := BitVec.le_def.mp hp
    simp at this
    omega
  exact hlt.trans_le (Nat.pow_le_pow_right (by omega) hi)

lemma sequenceField_pack (t : BitVec 64) {p : BitVec 32} (hp : p ≤ 255) :
    sequenceField ((t <<< 18) ||| p.setWidth 64) = 0 := by
  ext i hi
  simp [sequenceField, high_bit_clear hp (by omega : 8 ≤ 8 + i)]
  omega

lemma genNew_pack {s s' : IdState} {newTime id : BitVec 64} {ts : Timespec}
    (h : genNew s newTime ts = some (id, s')) :
    s'.procId = s.procId ∧ ∃ t : BitVec 64, id = (t <<< 18) ||| s.procId.setWidth 64 := by
  rw [genNew] at h
  split_ifs at h
  all_goals
    cases h
    exact ⟨rfl, _, rfl⟩

lemma run_pack {s : IdState} {calls : List Call} {out : List Issued} (h : run s calls = some out) :
    ∀ i ∈ out, ∃ t : BitVec 64, i.id = (t <<< 18) ||| s.procId.setWidth 64 := by
  induction calls generalizing s out with
  | nil =>
    cases h
    simp
  | cons c cs ih =>
    simp only [run, Option.bind_eq_bind, Option.bind_eq_some_iff, Prod.exists] at h
    obtain ⟨id, s', hg, rest, hr, ho⟩ := h
    obtain ⟨hp, ht⟩ := genNew_pack hg
    cases ho
    intro i hi
    rcases List.mem_cons.mp hi with rfl | hi
    · exact ht
    · exact hp ▸ ih hr i hi

lemma idInit_procId {p : BitVec 32} (hp : p ≤ 255) : (idInit start p).procId = p := by
  rw [idInit, if_neg (BitVec.not_lt.mpr hp)]

lemma setWidth_injective {p q : BitVec 32} (hp : p ≤ 255) (hq : q ≤ 255)
    (h : p.setWidth 8 = q.setWidth 8) : p = q := by
  apply BitVec.eq_of_getLsbD_eq
  intro i hi
  by_cases h8 : i < 8
  · simpa [h8] using congrArg (fun v => v.getLsbD i) h
  · rw [high_bit_clear hp (by omega : 8 ≤ i), high_bit_clear hq (by omega : 8 ≤ i)]

lemma processes_separate {p q : BitVec 32} (hp : p ≤ 255) (hq : q ≤ 255) (hne : q ≠ p)
    {calls calls' : List Call} {out out' : List Issued} (h : run (idInit start p) calls = some out)
    (h' : run (idInit start q) calls' = some out') : ∀ i ∈ out, ∀ j ∈ out', i.id ≠ j.id := by
  intro i hi j hj he
  obtain ⟨t, ht⟩ := run_pack h i hi
  obtain ⟨u, hu⟩ := run_pack h' j hj
  apply hne
  apply setWidth_injective hq hp
  rw [idInit_procId hp] at ht
  rw [idInit_procId hq] at hu
  rw [← procField_pack u q, ← procField_pack t p, ← ht, ← hu, he]

lemma run_cons_early {s : IdState} (hs : ¬ 999 < s.sequence) (c : Call) (cs : List Call) :
    run s (c :: cs) = (run { s with sequence := s.sequence + 1 } cs).map
      (⟨(c.newTime <<< 18) ||| s.procId.setWidth 64, s.sequence⟩ :: ·) := by
  simp only [run, genNew, if_neg hs, Option.bind_eq_bind, Option.bind_some]
  cases run { s with sequence := s.sequence + 1 } cs <;> rfl

lemma idInit_sequence (p : BitVec 32) : (idInit start p).sequence = 0 := by
  rw [idInit]
  split_ifs <;> rfl

lemma run_two {p : BitVec 32} {c d : Call} {cs : List Call} {out : List Issued}
    (h : run (idInit start p) (c :: d :: cs) = some out) :
    ∃ i ∈ out, ∃ j ∈ out, i.sequence = 0 ∧ j.sequence = 1 := by
  have h0 := idInit_sequence p
  rw [run_cons_early (by rw [h0]; decide), run_cons_early (by simp only [h0]; decide)] at h
  obtain ⟨rest, hr, rfl⟩ := Option.map_eq_some_iff.mp h
  obtain ⟨rest', -, rfl⟩ := Option.map_eq_some_iff.mp hr
  refine ⟨_, List.mem_cons_self, _, List.mem_cons_of_mem _ List.mem_cons_self, h0, ?_⟩
  simp [h0]

lemma run_one (p : BitVec 32) (c : Call) :
    run (idInit start p) [c] =
      some [⟨(c.newTime <<< 18) ||| (idInit start p).procId.setWidth 64, 0⟩] := by
  have h0 := idInit_sequence p
  rw [run_cons_early (by rw [h0]; decide), h0]
  rfl

lemma not_unique_of_two {procId : BitVec 32} (hp : procId ≤ 255) (c d : Call) (cs : List Call)
    (out : List Issued) : ¬ UniqueIds procId (c :: d :: cs) out := by
  intro hu
  obtain ⟨i, hi, j, hj, hs, hs'⟩ := run_two hu.returns
  obtain ⟨first, -, hn⟩ := hu.numbered
  have zero : ∀ i ∈ out, (sequenceField i.id).toNat = 0 := by
    intro i hi
    obtain ⟨t, ht⟩ := run_pack hu.returns i hi
    rw [ht, idInit_procId hp, sequenceField_pack t hp]
    rfl
  have h1 := (hn i hi).symm.trans (zero i hi)
  have h2 := (hn j hj).symm.trans (zero j hj)
  rw [hs] at h1
  rw [hs'] at h2
  simp at h1 h2

theorem uniqueIds_iff_single_call {procId : BitVec 32} (hp : procId ≤ 255) (calls : List Call) :
    (∃ out, UniqueIds procId calls out) ↔ calls.length ≤ 1 := by
  constructor
  · rintro ⟨out, hu⟩
    match calls with
    | [] => simp
    | [c] => simp
    | c :: d :: cs => exact (not_unique_of_two hp c d cs out hu).elim
  · intro hlen
    match calls, hlen with
    | [], _ => exact ⟨[], rfl, .nil, .nil, by simp, ⟨0, by omega, by simp⟩, by simp⟩
    | [c], _ =>
      have hr := run_one procId c
      refine ⟨_, hr, by simp, by simp, ?_, ⟨0, by omega, ?_⟩, ?_⟩
      · simp [procField_pack, idInit_procId hp]
      · simp [sequenceField_pack _ (idInit_procId hp ▸ hp)]
      · intro q hq hne calls' out' hr'
        exact processes_separate hp hq hne hr hr'

theorem first_id_of_process_three : (3 : BitVec 32) ≤ 255 ∧ ∃ out, UniqueIds 3 [⟨5, ⟨1, 0⟩⟩] out :=
  ⟨by decide, (uniqueIds_iff_single_call (by decide) _).mpr (by decide)⟩

theorem second_id_repeats_the_first :
    ¬ ∃ out, UniqueIds 3 [⟨0, ⟨1700000000, 0⟩⟩, ⟨0, ⟨1700000000, 0⟩⟩] out := by
  rintro ⟨out, hu⟩
  exact not_unique_of_two (by decide) _ _ [] out hu

end Glaber.State.Ids
