import Mathlib.Tactic

/-! Digits with bounds of their own, counted through a box of them. A list of digits has the one that counts least in front. -/

namespace Glaber.Lib.MixedRadix

section

variable {ι : Type}

def InBox (lo hi : ι → ℤ) (is : List ι) (a : ι → ℤ) : Prop := ∀ i ∈ is, lo i ≤ a i ∧ a i ≤ hi i

def size (lo hi : ι → ℤ) (i : ι) : ℕ := (hi i - lo i + 1).toNat

def total (lo hi : ι → ℤ) (is : List ι) : ℕ := (is.map (size lo hi)).prod

def value (lo hi : ι → ℤ) : List ι → (ι → ℤ) → ℕ
  | [], _ => 0
  | i :: is, a => (a i - lo i).toNat + size lo hi i * value lo hi is a

def Before : List ι → (ι → ℤ) → (ι → ℤ) → Prop
  | [], _, _ => False
  | i :: is, a, b => a i < b i ∨ a i = b i ∧ Before is a b

variable {lo hi : ι → ℤ} {i : ι} {is : List ι} {a b : ι → ℤ}

@[simp] lemma total_cons : total lo hi (i :: is) = size lo hi i * total lo hi is := by
  rw [total, List.map_cons, List.prod_cons, total]

lemma InBox.head (h : InBox lo hi (i :: is) a) : lo i ≤ a i ∧ a i ≤ hi i := h i List.mem_cons_self

lemma InBox.tail (h : InBox lo hi (i :: is) a) : InBox lo hi is a := fun j hj => h j (List.mem_cons_of_mem i hj)

lemma InBox.digit_lt (h : InBox lo hi (i :: is) a) : (a i - lo i).toNat < size lo hi i := by
  have := h.head
  rw [size]
  omega

lemma value_congr (h : ∀ i ∈ is, a i = b i) : value lo hi is a = value lo hi is b := by
  induction is with
  | nil => rfl
  | cons i is ih =>
    rw [value, value, h i List.mem_cons_self, ih fun j hj => h j (List.mem_cons_of_mem i hj)]

lemma value_lt (h : InBox lo hi is a) : value lo hi is a < total lo hi is := by
  induction is with
  | nil => exact Nat.one_pos
  | cons i is ih =>
    have hdigit := h.digit_lt
    have hrest := ih h.tail
    rw [value, total_cons]
    calc
      (a i - lo i).toNat + size lo hi i * value lo hi is a < size lo hi i + size lo hi i * value lo hi is a :=
        Nat.add_lt_add_right hdigit _
      _ = size lo hi i * (value lo hi is a + 1) := by ring
      _ ≤ size lo hi i * total lo hi is := Nat.mul_le_mul_left _ hrest

lemma total_pos (h : ∀ i ∈ is, lo i ≤ hi i) : 0 < total lo hi is :=
  Nat.zero_lt_of_lt (value_lt (fun i hi' => ⟨le_rfl, h i hi'⟩ : InBox lo hi is lo))

lemma total_reverse (is : List ι) : total lo hi is.reverse = total lo hi is := by
  rw [total, List.map_reverse, List.prod_reverse, total]

lemma value_inj (ha : InBox lo hi is a) (hb : InBox lo hi is b) (h : value lo hi is a = value lo hi is b) :
    ∀ i ∈ is, a i = b i := by
  induction is with
  | nil => simp
  | cons i is ih =>
    have hda := ha.digit_lt
    have hdb := hb.digit_lt
    rw [value, value] at h
    have hmod := congrArg (· % size lo hi i) h
    simp only [Nat.add_mul_mod_self_left, Nat.mod_eq_of_lt hda, Nat.mod_eq_of_lt hdb] at hmod
    have hrest : value lo hi is a = value lo hi is b := by
      rw [hmod] at h
      exact Nat.eq_of_mul_eq_mul_left (Nat.zero_lt_of_lt hdb) (Nat.add_left_cancel h)
    rintro j (_ | ⟨_, hj⟩)
    · have := ha.head
      have := hb.head
      omega
    · exact ih ha.tail hb.tail hrest j hj

lemma value_append (is js : List ι) (a : ι → ℤ) :
    value lo hi (is ++ js) a = value lo hi is a + total lo hi is * value lo hi js a := by
  induction is with
  | nil => simp [value, total]
  | cons i is ih =>
    rw [List.cons_append, value, value, ih, total_cons]
    ring

lemma before_iff (ha : InBox lo hi is a) (hb : InBox lo hi is b) :
    Before is a b ↔ value lo hi is.reverse a < value lo hi is.reverse b := by
  induction is with
  | nil => simp [Before, value]
  | cons i is ih =>
    have hla : value lo hi is.reverse a < total lo hi is.reverse :=
      value_lt fun j hj => ha.tail j (List.mem_reverse.1 hj)
    have hlb : value lo hi is.reverse b < total lo hi is.reverse :=
      value_lt fun j hj => hb.tail j (List.mem_reverse.1 hj)
    have := ha.head
    have := hb.head
    simp only [Before, ih ha.tail hb.tail, List.reverse_cons, value_append, value, Nat.mul_zero, Nat.add_zero]
    obtain hlt | heq | hgt := lt_trichotomy (a i) (b i)
    · have hdigit : (a i - lo i).toNat + 1 ≤ (b i - lo i).toNat := by omega
      have hmul := Nat.mul_le_mul_left (total lo hi is.reverse) hdigit
      rw [Nat.mul_add, Nat.mul_one] at hmul
      exact iff_of_true (.inl hlt) (by omega)
    · simp [heq]
    · have hdigit : (b i - lo i).toNat + 1 ≤ (a i - lo i).toNat := by omega
      have hmul := Nat.mul_le_mul_left (total lo hi is.reverse) hdigit
      rw [Nat.mul_add, Nat.mul_one] at hmul
      exact iff_of_false (by omega) (by omega)

lemma value_lowest (h : ∀ i ∈ is, a i = lo i) : value lo hi is a = 0 := by
  induction is with
  | nil => rfl
  | cons i is ih =>
    rw [value, h i List.mem_cons_self, ih fun j hj => h j (List.mem_cons_of_mem i hj), Int.sub_self]
    rfl

lemma value_highest (h : ∀ i ∈ is, lo i ≤ hi i) : value lo hi is hi + 1 = total lo hi is := by
  induction is with
  | nil => rfl
  | cons i is ih =>
    have hsize : (hi i - lo i).toNat + 1 = size lo hi i := by
      have := h i List.mem_cons_self
      rw [size]
      omega
    have hrest := ih fun j hj => h j (List.mem_cons_of_mem i hj)
    rw [value, total_cons, ← hrest, ← hsize]
    ring

lemma value_highest_iff (ha : InBox lo hi is a) : value lo hi is a + 1 = total lo hi is ↔ ∀ i ∈ is, a i = hi i := by
  have hle : ∀ i ∈ is, lo i ≤ hi i := fun i hi' => (ha i hi').1.trans (ha i hi').2
  have hhi : InBox lo hi is hi := fun i hi' => ⟨hle i hi', le_rfl⟩
  rw [← value_highest hle]
  constructor
  · intro h
    exact value_inj ha hhi (Nat.succ.inj h)
  · intro h
    rw [value_congr h]

end

section

variable {ι : Type} [DecidableEq ι]

def increment (lo hi : ι → ℤ) : List ι → (ι → ℤ) → Option (ι → ℤ)
  | [], _ => none
  | i :: is, a =>
    if a i < hi i then some (Function.update a i (a i + 1)) else increment lo hi is (Function.update a i (lo i))

variable {lo hi : ι → ℤ} {i : ι} {is : List ι} {a b : ι → ℤ}

lemma InBox.update_out (h : InBox lo hi is a) (hi' : i ∉ is) (v : ℤ) : InBox lo hi is (Function.update a i v) := by
  intro j hj
  rw [Function.update_of_ne (ne_of_mem_of_not_mem hj hi')]
  exact h j hj

lemma value_update_out (hi' : i ∉ is) (a : ι → ℤ) (v : ℤ) : value lo hi is (Function.update a i v) = value lo hi is a :=
  value_congr fun _ hj => Function.update_of_ne (ne_of_mem_of_not_mem hj hi') _ _

lemma increment_some (hnodup : is.Nodup) (ha : InBox lo hi is a) (h : increment lo hi is a = some b) :
    InBox lo hi is b ∧ value lo hi is b = value lo hi is a + 1 ∧ ∀ j ∉ is, b j = a j := by
  induction is generalizing a with
  | nil => cases h
  | cons i is ih =>
    obtain ⟨hout, hnodup⟩ := List.nodup_cons.1 hnodup
    have hhead := ha.head
    rw [increment] at h
    split_ifs at h with hroom
    · obtain rfl := Option.some.inj h
      refine ⟨?_, ?_, fun j hj => Function.update_of_ne (List.ne_of_not_mem_cons hj) _ _⟩
      · rintro j (_ | ⟨_, hj⟩)
        · rw [Function.update_self]
          omega
        · exact ha.tail.update_out hout _ j hj
      · have hdigit : (a i + 1 - lo i).toNat = (a i - lo i).toNat + 1 := by omega
        rw [value, value, Function.update_self, value_update_out hout, hdigit]
        ring
    · obtain ⟨hb, hvalue, hother⟩ := ih hnodup (ha.tail.update_out hout _) h
      have hfull : (a i - lo i).toNat + 1 = size lo hi i := by
        rw [size]
        omega
      have hbi : b i = lo i := by rw [hother i hout, Function.update_self]
      refine ⟨?_, ?_, fun j hj => ?_⟩
      · rintro j (_ | ⟨_, hj⟩)
        · rw [hbi]
          omega
        · exact hb j hj
      · rw [value, value, hvalue, value_update_out hout, hbi, Int.sub_self, ← hfull, Int.toNat_zero]
        ring
      · rw [hother j (List.not_mem_of_not_mem_cons hj), Function.update_of_ne (List.ne_of_not_mem_cons hj)]

lemma increment_none (hnodup : is.Nodup) (ha : InBox lo hi is a) (h : increment lo hi is a = none) :
    value lo hi is a + 1 = total lo hi is := by
  refine (value_highest_iff ha).2 ?_
  induction is generalizing a with
  | nil => simp
  | cons i is ih =>
    obtain ⟨hout, hnodup⟩ := List.nodup_cons.1 hnodup
    have hhead := ha.head
    rw [increment] at h
    split_ifs at h with hroom
    rintro j (_ | ⟨_, hj⟩)
    · omega
    · have hrest := ih hnodup (ha.tail.update_out hout _) h j hj
      rwa [Function.update_of_ne (ne_of_mem_of_not_mem hj hout)] at hrest

end

section

variable {σ : Type}

inductive Walk (step : σ → Option σ) : σ → List σ → Prop
  | last {a : σ} (h : step a = none) : Walk step a [a]
  | next {a b : σ} {visited : List σ} (h : step a = some b) (hrest : Walk step b visited) : Walk step a (a :: visited)

variable {step : σ → Option σ} {good : σ → Prop} {count : σ → ℕ} {n : ℕ}

structure CountsTo (step : σ → Option σ) (good : σ → Prop) (count : σ → ℕ) (n : ℕ) : Prop where
  step_good : ∀ a b, good a → step a = some b → good b
  step_count : ∀ a b, good a → step a = some b → count b = count a + 1
  step_lt : ∀ a b, good a → step a = some b → count b < n
  stop_count : ∀ a, good a → step a = none → n ≤ count a + 1

lemma CountsTo.walk (h : CountsTo step good count n) {a : σ} (ha : good a) (hlt : count a < n) :
    ∃ visited, Walk step a visited ∧ visited.map count = List.range' (count a) (n - count a) ∧ ∀ b ∈ visited, good b := by
  induction hk : n - count a generalizing a with
  | zero => omega
  | succ k ih =>
    cases hstep : step a with
    | none =>
      have := h.stop_count a ha hstep
      obtain rfl : k = 0 := by omega
      exact ⟨[a], .last hstep, rfl, by simpa using ha⟩
    | some b =>
      have hcount := h.step_count a b ha hstep
      obtain ⟨visited, hwalk, hmap, hgood⟩ := ih (h.step_good a b ha hstep) (h.step_lt a b ha hstep) (by omega)
      refine ⟨a :: visited, .next hstep hwalk, ?_, by simpa using ⟨ha, hgood⟩⟩
      rw [List.map_cons, hmap, hcount, List.range'_succ]

lemma mem_visited_iff (hinj : ∀ a b, good a → good b → count a = count b → a = b) {visited : List σ} {first : ℕ}
    (hle : first ≤ n) (hmap : visited.map count = List.range' first (n - first)) (hgood : ∀ b ∈ visited, good b) (a : σ) :
    a ∈ visited ↔ good a ∧ first ≤ count a ∧ count a < n := by
  have hrange : count a ∈ visited.map count ↔ first ≤ count a ∧ count a < n := by
    rw [hmap, List.mem_range'_1, Nat.add_sub_cancel' hle]
  rw [← hrange]
  constructor
  · intro ha
    exact ⟨hgood a ha, List.mem_map_of_mem ha⟩
  · rintro ⟨ha, hcount⟩
    obtain ⟨b, hb, heq⟩ := List.mem_map.1 hcount
    exact hinj b a (hgood b hb) ha heq ▸ hb

end

end Glaber.Lib.MixedRadix
