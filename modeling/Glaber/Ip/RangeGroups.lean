import Glaber.Ip.RangeLoops
import Glaber.Lib.Results

namespace Glaber.Ip

open Lib.Results

section

def Group.Ordered (group : Group) : Prop := group.rangeFrom ≤ group.rangeTo ∧ group.rangeTo ≤ 65535

def OrderedAt (iprange : IpRange) (k : ℕ) : Prop := ∀ h : k < groupsV6, (iprange.range ⟨k, h⟩).Ordered

structure Keeps (before after : IpRange) : Prop where
  type : after.type = before.type
  mask : after.mask = before.mask
  ordered : ∀ k, OrderedAt before k → OrderedAt after k

variable {iprange r : IpRange} {bits : Option ℕ} {memory : List Char} {endLength : ℕ}

lemma Keeps.refl (iprange : IpRange) : Keeps iprange iprange := ⟨rfl, rfl, fun _ h => h⟩

lemma Keeps.trans {r' : IpRange} (h : Keeps iprange r) (h' : Keeps r r') : Keeps iprange r' :=
  ⟨h'.type.trans h.type, h'.mask.trans h.mask, fun k hk => h'.ordered k (h.ordered k hk)⟩

lemma keeps_update {group : Group} (hgroup : group.Ordered) (iprange : IpRange) (i : Fin groupsV6) :
    Keeps iprange { iprange with range := Function.update iprange.range i group } ∧
      OrderedAt { iprange with range := Function.update iprange.range i group } i := by
  constructor
  · refine ⟨rfl, rfl, fun k hk h => ?_⟩
    simp only [Function.update_apply]
    split_ifs
    · exact hgroup
    · exact hk h
  · intro h
    simp only [Fin.eta, Function.update_self]
    exact hgroup

lemma set_keeps {index : ℕ} {group : Group} (hgroup : group.Ordered) (h : iprange.set index group = .ok r) :
    Keeps iprange r ∧ OrderedAt r index := by
  rw [IpRange.set] at h
  split_ifs at h with hindex
  cases h
  exact keeps_update hgroup iprange ⟨index, hindex⟩

lemma parseGroup_ordered {base max : ℕ} {number : List Char → Option ℕ} (hnumber : ReadsNumber base max number)
    (hmax : max ≤ 65535) {address ptr : List Char} {group : Group} (h : parseGroup number bits address ptr = some group) :
    group.Ordered := by
  have hle {text : List Char} {value : ℕ} (hvalue : number text = some value) : value ≤ 65535 :=
    ((hnumber.number_iff text value).1 hvalue).2.trans hmax
  have hsingle {text : List Char} (hone : (number text).map (fun value => Group.mk value value) = some group) :
      group.Ordered := by
    obtain ⟨value, hvalue, rfl⟩ := Option.map_eq_some_iff.1 hone
    exact ⟨le_rfl, hle hvalue⟩
  rw [parseGroup] at h
  cases hdash : strchr address '-' with
  | none =>
    rw [hdash] at h
    exact hsingle h
  | some dash =>
    rw [hdash] at h
    simp only at h
    split_ifs at h
    · exact hsingle h
    · obtain ⟨first, -, h⟩ := Option.bind_eq_some_iff.1 h
      obtain ⟨last, hlast, h⟩ := Option.bind_eq_some_iff.1 h
      split_ifs at h with hless
      obtain rfl := Option.some.inj h
      exact ⟨Nat.le_of_not_lt hless, hle hlast⟩

end

section

variable {iprange r : IpRange} {bits : Option ℕ} {memory : List Char} {endLength : ℕ}

lemma v4Loop_ordered {n index : ℕ} (hn : n ≤ groupsV4) {ptr address : List Char}
    (hordered : ∀ k < groupsV4 - n, OrderedAt iprange k) (h : v4Loop bits endLength n ptr address iprange = .ok (index, r)) :
    Keeps iprange r ∧ ∀ k < index, OrderedAt r k := by
  induction n generalizing ptr address iprange with
  | zero =>
    cases h
    exact ⟨.refl _, hordered⟩
  | succ n ih =>
    rw [v4Loop] at h
    simp only at h
    split_ifs at h with hptr
    · cases hgroup : parseGroup decimal255 bits address (groupEnd '.' endLength address) with
      | none =>
        rw [hgroup] at h
        cases h
      | some group =>
        rw [hgroup] at h
        obtain ⟨next, hset, h⟩ := ok_of_bind h
        obtain ⟨hkeeps, hnew⟩ := set_keeps (parseGroup_ordered decimal255_reads (by decide) hgroup) hset
        have hnext : ∀ k < groupsV4 - n, OrderedAt next k := by
          intro k hk
          obtain hlt | rfl := Nat.lt_or_eq_of_le (show k ≤ groupsV4 - (n + 1) by omega)
          · exact hkeeps.ordered k (hordered k hlt)
          · exact hnew
        obtain ⟨hrest, hall⟩ := ih (by omega) hnext h
        exact ⟨hkeeps.trans hrest, hall⟩
    · cases h
      exact ⟨.refl _, hordered⟩

structure V6State.Good (s : V6State) : Prop where
  ordered : ∀ k < s.index, OrderedAt s.iprange k
  fill_lt : ∀ fill, s.fill = some fill → fill < s.index

lemma Good.set {s : V6State} (h : s.Good) {group : Group} (hgroup : group.Ordered) (hset : s.iprange.set s.index group = .ok r)
    {fill : Option ℕ} (hfill : ∀ f, fill = some f → f ≤ s.index) (ptr : List Char) :
    Keeps s.iprange r ∧ V6State.Good ⟨s.index + 1, fill, ptr, r⟩ := by
  obtain ⟨hkeeps, hnew⟩ := set_keeps hgroup hset
  refine ⟨hkeeps, fun k hk => ?_, fun f hf => Nat.lt_succ_of_le (hfill f hf)⟩
  obtain hlt | rfl := Nat.lt_or_eq_of_le (Nat.le_of_lt_succ hk)
  · exact hkeeps.ordered k (h.ordered k hlt)
  · exact hnew

lemma readGroup_good {s s' : V6State} (h : s.Good) {address : List Char}
    (hread : readGroup memory bits endLength s address = .ok s') : Keeps s.iprange s'.iprange ∧ s'.Good := by
  rw [readGroup] at hread
  split_ifs at hread with hempty hcolon
  · cases hread
    exact ⟨.refl _, h.ordered, h.fill_lt⟩
  · cases hgroup : parseGroup hex16 bits address (groupEnd ':' endLength address) with
    | none =>
      rw [hgroup] at hread
      cases hread
    | some group =>
      rw [hgroup] at hread
      obtain ⟨next, hset, hread⟩ := ok_of_bind hread
      cases hread
      exact Good.set h (parseGroup_ordered hex16_reads le_rfl hgroup) hset (fun f hf => (h.fill_lt f hf).le) _

lemma checkFill_good {s s' : V6State} {left : Bool} (h : s.Good) (hcheck : checkFill memory endLength s = .ok (s', left)) :
    Keeps s.iprange s'.iprange ∧ s'.Good := by
  rw [checkFill] at hcheck
  split_ifs at hcheck with hcolon hfill
  · obtain ⟨next, hset, hcheck⟩ := ok_of_bind hcheck
    cases hcheck
    exact Good.set h ⟨le_rfl, Nat.zero_le _⟩ hset (fun f hf => (Option.some.inj hf).ge) _
  · cases hcheck
    exact ⟨.refl _, h⟩

lemma v6Loop_good {fuel : ℕ} {s s' : V6State} (h : s.Good) {address : List Char}
    (hloop : v6Loop memory bits endLength fuel s address = .ok s') : Keeps s.iprange s'.iprange ∧ s'.Good := by
  induction fuel generalizing s address with
  | zero =>
    cases hloop
    exact ⟨.refl _, h⟩
  | succ fuel ih =>
    rw [v6Loop] at hloop
    split_ifs at hloop with hguard
    · obtain ⟨read, hread, hloop⟩ := ok_of_bind hloop
      obtain ⟨⟨checked, left⟩, hcheck, hloop⟩ := ok_of_bind hloop
      obtain ⟨hkeeps, hgood⟩ := readGroup_good h hread
      obtain ⟨hkeeps', hgood'⟩ := checkFill_good hgood hcheck
      simp only at hloop
      split_ifs at hloop with hleft
      · cases hloop
        exact ⟨hkeeps.trans hkeeps', hgood'⟩
      · obtain ⟨hrest, hend⟩ := ih hgood' hloop
        exact ⟨(hkeeps.trans hkeeps').trans hrest, hend⟩
    · cases hloop
      exact ⟨.refl _, h⟩

lemma shiftLoop_ordered {fill index target target' : ℕ} (hindex : ∀ k < index, OrderedAt iprange k)
    (htarget : ∀ k, target < k → OrderedAt iprange k) (h : shiftLoop fill index target iprange = .ok (target', r)) :
    Keeps iprange r ∧ ∀ k, target' < k → OrderedAt r k := by
  induction index generalizing target iprange with
  | zero =>
    cases h
    exact ⟨.refl _, htarget⟩
  | succ index ih =>
    rw [shiftLoop] at h
    split_ifs at h with hfill hin
    · obtain ⟨next, hset, h⟩ := ok_of_bind h
      obtain ⟨hkeeps, hnew⟩ := set_keeps (hindex index (Nat.lt_succ_self index) hin) hset
      have hnext : ∀ k, target - 1 < k → OrderedAt next k := by
        intro k hk
        obtain hlt | rfl := Nat.lt_or_eq_of_le (show target ≤ k by omega)
        · exact hkeeps.ordered k (htarget k hlt)
        · exact hnew
      obtain ⟨hrest, hbehind⟩ := ih (fun k hk => hkeeps.ordered k (hindex k (Nat.lt_succ_of_lt hk))) hnext h
      exact ⟨hkeeps.trans hrest, hbehind⟩
    · cases h
      exact ⟨.refl _, htarget⟩

lemma zeroLoop_ordered {fill target : ℕ} (h : zeroLoop fill target iprange = .ok r) :
    Keeps iprange r ∧ ∀ k, fill < k → k ≤ target → OrderedAt r k := by
  induction target generalizing iprange with
  | zero =>
    cases h
    exact ⟨.refl _, fun k hk hle => by omega⟩
  | succ target ih =>
    rw [zeroLoop] at h
    split_ifs at h with hfill
    · obtain ⟨next, hset, h⟩ := ok_of_bind h
      obtain ⟨hkeeps, hnew⟩ := set_keeps (⟨le_rfl, Nat.zero_le _⟩ : (⟨0, 0⟩ : Group).Ordered) hset
      obtain ⟨hrest, hzero⟩ := ih h
      refine ⟨hkeeps.trans hrest, fun k hk hle => ?_⟩
      obtain hlt | rfl := Nat.lt_or_eq_of_le hle
      · exact hzero k hk (Nat.le_of_lt_succ hlt)
      · exact hrest.ordered _ hnew
    · cases h
      exact ⟨.refl _, fun k hk hle => by omega⟩

lemma expand_ordered {s : V6State} (hgood : s.Good) (h : expand s = .ok r) :
    Keeps s.iprange r ∧ ∀ k, OrderedAt r k := by
  rw [expand] at h
  split_ifs at h with hover hless
  · cases hfill : s.fill with
    | none =>
      rw [hfill] at h
      cases h
    | some fill =>
      rw [hfill] at h
      obtain ⟨⟨target, shifted⟩, hshift, h⟩ := ok_of_bind h
      have hbeyond : ∀ k, 7 < k → OrderedAt s.iprange k := fun k hk hlt => absurd hlt (by simp only [groupsV6]; omega)
      obtain ⟨hkeeps, hbehind⟩ := shiftLoop_ordered hgood.ordered hbeyond hshift
      obtain ⟨hkeeps', hzero⟩ := zeroLoop_ordered h
      refine ⟨hkeeps.trans hkeeps', fun k => ?_⟩
      obtain hle | hgt := Nat.lt_or_ge fill k
      · obtain hin | hout := Nat.lt_or_ge target k
        · exact hkeeps'.ordered k (hbehind k hin)
        · exact hzero k hle hout
      · exact (hkeeps.trans hkeeps').ordered k (hgood.ordered k (hgt.trans_lt (hgood.fill_lt fill hfill)))
  · cases h
    refine ⟨.refl _, fun k hlt => hgood.ordered k (by omega) hlt⟩

end

section

variable {iprange r : IpRange} {groupBits i bits : ℕ}

lemma shift_low (n m : ℕ) : n >>> m <<< m = n / 2 ^ m * 2 ^ m := by rw [Nat.shiftRight_eq_div_pow, Nat.shiftLeft_eq]

lemma or_ones (n m : ℕ) : n ||| (2 ^ m - 1) = n / 2 ^ m * 2 ^ m + (2 ^ m - 1) := by
  have hones : 2 ^ m - 1 < 2 ^ m := Nat.sub_lt (Nat.two_pow_pos m) Nat.one_pos
  rw [Nat.mul_comm, Nat.two_pow_add_eq_or_of_lt hones]
  apply Nat.eq_of_testBit_eq
  intro j
  simp only [Nat.testBit_or, Nat.testBit_two_pow_mul, Nat.testBit_two_pow_sub_one, Nat.testBit_div_two_pow]
  by_cases hj : j < m
  · simp [hj]
  · have hsum : j - m + m = j := by omega
    simp [hj, hsum, Nat.le_of_not_lt hj]

def maskGroup (maskBits : ℕ) (group : Group) : Group :=
  ⟨group.rangeFrom >>> maskBits <<< maskBits, group.rangeTo ||| (2 ^ maskBits - 1)⟩

lemma maskGroup_width {group : Group} (h : group.rangeFrom ≤ group.rangeTo) (maskBits : ℕ) :
    (maskGroup maskBits group).rangeFrom + (2 ^ maskBits - 1) ≤ (maskGroup maskBits group).rangeTo := by
  rw [maskGroup, shift_low, or_ones]
  exact Nat.add_le_add_right (Nat.mul_le_mul_right _ (Nat.div_le_div_right h)) _

lemma maskGroup_ordered {group : Group} (h : group.Ordered) {maskBits : ℕ} (hbits : maskBits ≤ 16) :
    (maskGroup maskBits group).Ordered := by
  refine ⟨(Nat.le_add_right _ _).trans (maskGroup_width h.1 maskBits), ?_⟩
  have hones : 2 ^ maskBits - 1 < 2 ^ 16 :=
    (Nat.sub_lt (Nat.two_pow_pos _) Nat.one_pos).trans_le (Nat.pow_le_pow_right Nat.two_pos hbits)
  exact Nat.le_of_lt_succ (Nat.or_lt_two_pow (Nat.lt_succ_of_le h.2) hones)

lemma applyMaskLoop_keeps (hgroup : groupBits ≤ 16) (hordered : ∀ k < i, OrderedAt iprange k)
    (h : applyMaskLoop groupBits i bits iprange = .ok r) :
    Keeps iprange r ∧ ∀ k : Fin groupsV6, i ≤ k → r.range k = iprange.range k := by
  induction i generalizing bits iprange with
  | zero =>
    cases bits with
    | zero =>
      cases h
      exact ⟨.refl _, fun _ _ => rfl⟩
    | succ bits => cases h
  | succ i ih =>
    cases bits with
    | zero =>
      cases h
      exact ⟨.refl _, fun _ _ => rfl⟩
    | succ bits =>
      rw [applyMaskLoop] at h
      split_ifs at h with hi
      have hmasked := maskGroup_ordered (hordered i (Nat.lt_succ_self i) hi) ((Nat.min_le_right (bits + 1) groupBits).trans hgroup)
      obtain ⟨hkeeps, -⟩ := keeps_update hmasked iprange ⟨i, hi⟩
      obtain ⟨hrest, hsame⟩ := ih (fun k hk => hkeeps.ordered k (hordered k (Nat.lt_succ_of_lt hk))) h
      refine ⟨hkeeps.trans hrest, fun k hk => ?_⟩
      rw [hsame k (Nat.le_of_succ_le hk)]
      exact Function.update_of_ne (Fin.ne_of_val_ne (by simp only; omega)) _ _

def lastV4 : Fin groupsV6 := ⟨groupsV4 - 1, by decide⟩

lemma applyMaskLoop_room (hbits : 2 ≤ bits) (hordered : ∀ k < groupsV4, OrderedAt iprange k)
    (h : applyMaskLoop 8 groupsV4 bits iprange = .ok r) : (r.range lastV4).rangeFrom + 3 ≤ (r.range lastV4).rangeTo := by
  obtain ⟨bits, rfl⟩ := Nat.exists_eq_add_of_le' (Nat.one_le_of_lt hbits)
  rw [groupsV4, applyMaskLoop, dif_pos (by decide)] at h
  have hthree := hordered 3 (by decide) (by decide)
  have hmasked := maskGroup_ordered hthree (show min (bits + 1) 8 ≤ 16 by omega)
  obtain ⟨hkeeps, -⟩ := keeps_update hmasked iprange lastV4
  obtain ⟨-, hsame⟩ := applyMaskLoop_keeps (Nat.le_add_left 8 8)
    (fun k hk => hkeeps.ordered k (hordered k (Nat.lt_succ_of_lt hk))) h
  have hwidth := maskGroup_width hthree.1 (min (bits + 1) 8)
  have hpow : 2 ^ 2 ≤ 2 ^ min (bits + 1) 8 := Nat.pow_le_pow_right Nat.two_pos (by omega)
  rw [hsame lastV4 le_rfl]
  simp only [Function.update_self]
  exact le_trans (Nat.add_le_add_left (show 3 ≤ 2 ^ min (bits + 1) 8 - 1 by omega) _) hwidth

end

section

def IpRange.groups (iprange : IpRange) : ℕ :=
  match iprange.type with
  | .v4 => groupsV4
  | .v6 => groupsV6

structure Parsed (iprange : IpRange) : Prop where
  ordered : ∀ k < iprange.groups, OrderedAt iprange k
  room : iprange.type = .v4 → iprange.mask = true → (iprange.range lastV4).rangeFrom + 3 ≤ (iprange.range lastV4).rangeTo

variable {iprange r : IpRange} {address : List Char}

lemma addressEnd_bits {maxBits endLength bits : ℕ} (hmax : maxBits ≤ 18446744073709551615)
    (h : addressEnd maxBits address = .ok (endLength, some bits)) : bits ≤ maxBits := by
  rw [addressEnd] at h
  split at h
  · split at h
    · cases h
    · rename_i hread
      cases h
      exact ((isUintNRange_numeral hmax).1 hread).2
  · cases h

lemma v4Parse_parsed (h : iprangev4Parse iprange address = .ok r) : Parsed r := by
  obtain ⟨⟨endLength, bits⟩, hend, h⟩ := ok_of_bind h
  obtain ⟨⟨index, read⟩, hloop, h⟩ := ok_of_bind h
  simp only at h
  split_ifs at h with hindex
  obtain ⟨hkeeps, hordered⟩ := v4Loop_ordered le_rfl (fun k hk => absurd hk (by omega)) hloop
  rw [not_ne_iff.1 hindex] at hordered
  cases bits with
  | none =>
    cases h
    refine ⟨fun k hk => hordered k ?_, fun _ hmask => ?_⟩
    · simpa only [IpRange.groups, hkeeps.type] using hk
    · rw [hkeeps.mask] at hmask
      cases hmask
  | some bits =>
    rw [masked, applyMask, hkeeps.type] at h
    have hbits := addressEnd_bits (by decide) hend
    obtain ⟨hkeeps', -⟩ := applyMaskLoop_keeps (by decide) hordered h
    refine ⟨fun k hk => hkeeps'.ordered k (hordered k ?_), fun _ _ => applyMaskLoop_room ?_ hordered h⟩
    · simpa only [IpRange.groups, hkeeps'.type, hkeeps.type] using hk
    · simp only [groupsV4]
      omega

lemma v6Parse_parsed {memory : List Char} (h : iprangev6Parse memory iprange address = .ok r) : Parsed r := by
  obtain ⟨⟨endLength, bits⟩, hend, h⟩ := ok_of_bind h
  obtain ⟨s, hloop, h⟩ := ok_of_bind h
  obtain ⟨expanded, hexpand, h⟩ := ok_of_bind h
  obtain ⟨hkeeps, hgood⟩ := v6Loop_good ⟨fun k hk => absurd hk (Nat.not_lt_zero k), fun _ hfill => by cases hfill⟩ hloop
  obtain ⟨hkeeps', hordered⟩ := expand_ordered hgood hexpand
  have htype : expanded.type = .v6 := hkeeps'.type.trans hkeeps.type
  have hmasked : Keeps expanded r := by
    cases bits with
    | none =>
      cases h
      exact .refl _
    | some bits =>
      rw [masked, applyMask, htype] at h
      exact (applyMaskLoop_keeps le_rfl (fun k _ => hordered k) h).1
  refine ⟨fun k _ => hmasked.ordered k (hordered k), fun hv4 => ?_⟩
  rw [hmasked.type, htype] at hv4
  cases hv4

theorem iprangeParse_parsed {memory : List Char} (h : iprangeParse memory iprange address = .ok r) : Parsed r := by
  rw [iprangeParse] at h
  split_ifs at h
  · exact v4Parse_parsed h
  · exact v6Parse_parsed h

end

end Glaber.Ip
