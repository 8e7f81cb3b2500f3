import Glaber.Ip.RangeGroups
import Glaber.Lib.MixedRadix

namespace Glaber.Ip

open Lib.MixedRadix

section

abbrev Address := Fin groupsV6 → ℤ

variable (iprange : IpRange)

def IpRange.lo (i : Fin groupsV6) : ℤ := (iprange.range i).rangeFrom

def IpRange.hi (i : Fin groupsV6) : ℤ := (iprange.range i).rangeTo

def IpRange.indices : List (Fin groupsV6) := (List.finRange groupsV6).take iprange.groups

def IpRange.lastGroup : Fin groupsV6 :=
  match iprange.type with
  | .v4 => lastV4
  | .v6 => ⟨groupsV6 - 1, by decide⟩

def IpRange.excludesEnds : Bool := iprange.type = .v4 && iprange.mask

def iprangeFirst (address : Address) : Address :=
  let address := iprange.indices.foldl (fun address i => Function.update address i (iprange.lo i)) address
  if iprange.excludesEnds then Function.update address iprange.lastGroup (address iprange.lastGroup + 1) else address

def nextLoop (iprange : IpRange) : List (Fin groupsV6) → Address → Bool × Address
  | [], address => (false, address)
  | i :: is, address =>
    if address i < iprange.hi i then
      let address := Function.update address i (address i + 1)
      if iprange.excludesEnds then (iprange.indices.reverse.any fun i => address i ≠ iprange.hi i, address)
      else (true, address)
    else nextLoop iprange is (if iprange.lo i < iprange.hi i then Function.update address i (iprange.lo i) else address)

def iprangeNext (address : Address) : Bool × Address :=
  nextLoop iprange iprange.indices.reverse address

def iprangeValidate (address : Address) : Bool :=
  iprange.indices.all fun i => !(address i < iprange.lo i || address i > iprange.hi i)

def maxUint64 : ℕ := 2 ^ 64 - 1

def volumeLoop (iprange : IpRange) : List (Fin groupsV6) → ℕ → Option ℕ
  | [], volume => some volume
  | i :: is, volume =>
    let n := ((iprange.hi i - iprange.lo i + 1) % 2 ^ 64).toNat
    if maxUint64 / n < volume then none else volumeLoop iprange is (volume * n % 2 ^ 64)

def iprangeVolume : ℕ :=
  match volumeLoop iprange iprange.indices 1 with
  | none => maxUint64
  | some volume => if iprange.excludesEnds then (volume + (2 ^ 64 - 2)) % 2 ^ 64 else volume

def step (address : Address) : Option Address :=
  match iprangeNext iprange address with
  | (true, next) => some next
  | (false, _) => none

end

section

variable {iprange : IpRange}

lemma lt_groups {i : Fin groupsV6} (hi : i ∈ iprange.indices) : (i : ℕ) < iprange.groups := by
  obtain ⟨k, hk, rfl⟩ := List.mem_iff_getElem.1 hi
  rw [IpRange.indices, List.length_take] at hk
  simp only [IpRange.indices, List.getElem_take, List.getElem_finRange, Fin.val_cast]
  exact hk.trans_le (Nat.min_le_left _ _)

lemma Parsed.bounds (h : Parsed iprange) {i : Fin groupsV6} (hi : i ∈ iprange.indices) :
    iprange.lo i ≤ iprange.hi i ∧ iprange.hi i - iprange.lo i < 65536 := by
  have hordered := h.ordered i (lt_groups hi) i.isLt
  rw [Fin.eta, Group.Ordered] at hordered
  rw [IpRange.lo, IpRange.hi]
  omega

lemma type_of_excludesEnds (hends : iprange.excludesEnds = true) : iprange.type = .v4 ∧ iprange.mask = true := by
  simpa [IpRange.excludesEnds] using hends

lemma indices_v4 (htype : iprange.type = .v4) :
    iprange.lastGroup = lastV4 ∧ ∃ others, iprange.indices.reverse = lastV4 :: others := by
  refine ⟨by rw [IpRange.lastGroup, htype], [⟨2, by decide⟩, ⟨1, by decide⟩, ⟨0, by decide⟩], ?_⟩
  rw [IpRange.indices, IpRange.groups, htype]
  decide

lemma indices_nodup : iprange.indices.Nodup := (List.nodup_finRange groupsV6).sublist (List.take_sublist _ _)

lemma total_four (h : Parsed iprange) (hends : iprange.excludesEnds = true) :
    4 ≤ total iprange.lo iprange.hi iprange.indices := by
  obtain ⟨htype, hmask⟩ := type_of_excludesEnds hends
  obtain ⟨-, others, hothers⟩ := indices_v4 htype
  have hroom := h.room htype hmask
  have hsize : 4 ≤ size iprange.lo iprange.hi lastV4 := by
    rw [size, IpRange.lo, IpRange.hi]
    omega
  have hmem : ∀ i ∈ others, i ∈ iprange.indices := by
    intro i hi
    rw [← List.mem_reverse, hothers]
    exact List.mem_cons_of_mem _ hi
  have hpos := total_pos fun i hi => (h.bounds (hmem i hi)).1
  rw [← total_reverse, hothers, total_cons]
  exact hsize.trans (Nat.le_mul_of_pos_right _ hpos)

lemma volumeLoop_eq {is : List (Fin groupsV6)}
    (hrange : ∀ i ∈ is, iprange.lo i ≤ iprange.hi i ∧ iprange.hi i - iprange.lo i < 65536) {volume : ℕ}
    (hpos : 0 < volume) (hmax : volume ≤ maxUint64) :
    volumeLoop iprange is volume =
      if volume * total iprange.lo iprange.hi is ≤ maxUint64 then some (volume * total iprange.lo iprange.hi is) else none := by
  induction is generalizing volume with
  | nil => simp [volumeLoop, total, hmax]
  | cons i is ih =>
    have hhead := hrange i List.mem_cons_self
    have hrest : ∀ j ∈ is, iprange.lo j ≤ iprange.hi j ∧ iprange.hi j - iprange.lo j < 65536 :=
      fun j hj => hrange j (List.mem_cons_of_mem i hj)
    have hn : ((iprange.hi i - iprange.lo i + 1) % 2 ^ 64).toNat = size iprange.lo iprange.hi i := by
      rw [size, Int.emod_eq_of_lt (by omega) (by omega)]
    have hsize : 0 < size iprange.lo iprange.hi i := by
      rw [size]
      omega
    have htotal := total_pos fun j hj => (hrest j hj).1
    rw [volumeLoop, hn, total_cons, ← Nat.mul_assoc]
    simp only [Nat.div_lt_iff_lt_mul hsize]
    split_ifs with hover hfits
    · have := Nat.le_mul_of_pos_right (volume * size iprange.lo iprange.hi i) htotal
      omega
    · rfl
    all_goals
      have hle : volume * size iprange.lo iprange.hi i ≤ maxUint64 := Nat.le_of_not_lt hover
      rw [Nat.mod_eq_of_lt (Nat.lt_of_le_of_lt hle (by decide)), ih hrest (Nat.mul_pos hpos hsize) hle]
    · exact if_pos ‹_›
    · exact if_neg ‹_›

lemma iprangeVolume_eq (h : Parsed iprange) (hvolume : iprangeVolume iprange < maxUint64) :
    iprangeVolume iprange = total iprange.lo iprange.hi iprange.indices - if iprange.excludesEnds then 2 else 0 := by
  have hloop := volumeLoop_eq (fun i hi => h.bounds hi) Nat.one_pos (by decide : 1 ≤ maxUint64)
  rw [Nat.one_mul] at hloop
  rw [iprangeVolume, hloop] at hvolume ⊢
  split_ifs at hvolume ⊢ with hfits hends
  · have hfour := total_four h hends
    have hmax : total iprange.lo iprange.hi iprange.indices ≤ 2 ^ 64 - 1 := hfits
    simp only
    omega
  · rfl
  · exact absurd hvolume (lt_irrefl _)
  · exact absurd hvolume (lt_irrefl _)

end

section

variable {iprange : IpRange} {address next : Address}

lemma iprangeValidate_iff :
    iprangeValidate iprange address = true ↔ InBox iprange.lo iprange.hi iprange.indices address := by
  simp [iprangeValidate, InBox]

lemma reset_eq {i : Fin groupsV6} (hlo : iprange.lo i ≤ address i) (hfull : ¬ address i < iprange.hi i)
    (hhi : address i ≤ iprange.hi i) :
    (if iprange.lo i < iprange.hi i then Function.update address i (iprange.lo i) else address) =
      Function.update address i (iprange.lo i) := by
  split_ifs with hwide
  · rfl
  · have heq : iprange.lo i = address i := by omega
    rw [heq, Function.update_eq_self]

lemma nextLoop_some {is : List (Fin groupsV6)} (hbox : InBox iprange.lo iprange.hi is address) (hnodup : is.Nodup)
    (h : increment iprange.lo iprange.hi is address = some next) :
    nextLoop iprange is address =
      (!iprange.excludesEnds || iprange.indices.reverse.any fun i => next i ≠ iprange.hi i, next) := by
  induction is generalizing address with
  | nil => cases h
  | cons i is ih =>
    obtain ⟨hout, hnodup⟩ := List.nodup_cons.1 hnodup
    rw [increment] at h
    rw [nextLoop]
    split_ifs at h with hroom
    · obtain rfl := Option.some.inj h
      rw [if_pos hroom]
      cases iprange.excludesEnds with
      | true => rfl
      | false => rfl
    · rw [if_neg hroom, reset_eq hbox.head.1 hroom hbox.head.2]
      exact ih (hbox.tail.update_out hout _) hnodup h

lemma nextLoop_none {is : List (Fin groupsV6)} (hbox : InBox iprange.lo iprange.hi is address) (hnodup : is.Nodup)
    (h : increment iprange.lo iprange.hi is address = none) : (nextLoop iprange is address).1 = false := by
  induction is generalizing address with
  | nil => rfl
  | cons i is ih =>
    obtain ⟨hout, hnodup⟩ := List.nodup_cons.1 hnodup
    rw [increment] at h
    rw [nextLoop]
    split_ifs at h with hroom
    rw [if_neg hroom, reset_eq hbox.head.1 hroom hbox.head.2]
    exact ih (hbox.tail.update_out hout _) hnodup h

def rank (iprange : IpRange) (address : Address) : ℕ := value iprange.lo iprange.hi iprange.indices.reverse address

def rankEnd (iprange : IpRange) : ℕ :=
  total iprange.lo iprange.hi iprange.indices - if iprange.excludesEnds then 1 else 0

structure Within (iprange : IpRange) (buffer address : Address) : Prop where
  box : InBox iprange.lo iprange.hi iprange.indices address
  same : ∀ i ∉ iprange.indices, address i = buffer i

variable {buffer : Address}

lemma Within.box_reverse (h : Within iprange buffer address) :
    InBox iprange.lo iprange.hi iprange.indices.reverse address := fun i hi => h.box i (List.mem_reverse.1 hi)

lemma Within.eq_of_rank {address' : Address} (h : Within iprange buffer address) (h' : Within iprange buffer address')
    (hrank : rank iprange address = rank iprange address') : address = address' := by
  funext i
  by_cases hi : i ∈ iprange.indices
  · exact value_inj h.box_reverse h'.box_reverse hrank i (List.mem_reverse.2 hi)
  · rw [h.same i hi, h'.same i hi]

lemma rank_highest_iff (h : Within iprange buffer address) :
    rank iprange address + 1 = total iprange.lo iprange.hi iprange.indices ↔ ∀ i ∈ iprange.indices, address i = iprange.hi i := by
  rw [rank, ← total_reverse, value_highest_iff h.box_reverse]
  simp only [List.mem_reverse]

lemma rank_zero_iff (h : Within iprange buffer address) :
    rank iprange address = 0 ↔ ∀ i ∈ iprange.indices, address i = iprange.lo i := by
  have hlo : InBox iprange.lo iprange.hi iprange.indices.reverse iprange.lo :=
    fun i hi => ⟨le_rfl, (h.box_reverse i hi).1.trans (h.box_reverse i hi).2⟩
  have hzero : value iprange.lo iprange.hi iprange.indices.reverse iprange.lo = 0 := value_lowest fun _ _ => rfl
  rw [rank]
  constructor
  · intro hrank i hi
    exact value_inj h.box_reverse hlo (hrank.trans hzero.symm) i (List.mem_reverse.2 hi)
  · intro hall
    exact value_lowest fun i hi => hall i (List.mem_reverse.1 hi)

lemma step_eq (h : Within iprange buffer address) :
    step iprange address = (increment iprange.lo iprange.hi iprange.indices.reverse address).filter fun next =>
      !iprange.excludesEnds || iprange.indices.reverse.any fun i => next i ≠ iprange.hi i := by
  have hnodup := List.nodup_reverse.2 (@indices_nodup iprange)
  rw [step, iprangeNext]
  cases hinc : increment iprange.lo iprange.hi iprange.indices.reverse address with
  | none =>
    have hfails := nextLoop_none h.box_reverse hnodup hinc
    split
    · rename_i hsome
      rw [hsome] at hfails
      cases hfails
    · rfl
  | some next =>
    rw [nextLoop_some h.box_reverse hnodup hinc, Option.filter_some]
    split
    · rename_i hpair
      obtain ⟨hgoes, rfl⟩ := Prod.mk.inj hpair
      rw [if_pos hgoes]
    · rename_i hpair
      rw [(Prod.mk.inj hpair).1]
      rfl

lemma increment_within (h : Within iprange buffer address)
    (hinc : increment iprange.lo iprange.hi iprange.indices.reverse address = some next) :
    Within iprange buffer next ∧ rank iprange next = rank iprange address + 1 := by
  obtain ⟨hbox, hvalue, hother⟩ := increment_some (List.nodup_reverse.2 indices_nodup) h.box_reverse hinc
  refine ⟨⟨fun i hi => hbox i (List.mem_reverse.2 hi), fun i hi => ?_⟩, hvalue⟩
  rw [hother i (mt List.mem_reverse.1 hi), h.same i hi]

lemma rank_lt (h : Within iprange buffer address) : rank iprange address < total iprange.lo iprange.hi iprange.indices := by
  rw [rank, ← total_reverse]
  exact value_lt h.box_reverse

lemma step_some (h : Within iprange buffer address) (hstep : step iprange address = some next) :
    increment iprange.lo iprange.hi iprange.indices.reverse address = some next ∧
      (iprange.excludesEnds = true → ∃ i ∈ iprange.indices, next i ≠ iprange.hi i) := by
  rw [step_eq h, Option.filter_eq_some_iff] at hstep
  refine ⟨hstep.1, fun hends => ?_⟩
  simpa [hends] using hstep.2

lemma step_counts (iprange : IpRange) (buffer : Address) :
    CountsTo (step iprange) (Within iprange buffer) (rank iprange) (rankEnd iprange) where
  step_good address next h hstep := (increment_within h (step_some h hstep).1).1
  step_count address next h hstep := (increment_within h (step_some h hstep).1).2
  step_lt address next h hstep := by
    obtain ⟨hinc, hends⟩ := step_some h hstep
    have hnext := (increment_within h hinc).1
    have hlt := rank_lt hnext
    rw [rankEnd]
    split_ifs with hexcl
    · have hlast : rank iprange next + 1 ≠ total iprange.lo iprange.hi iprange.indices := by
        rw [ne_eq, rank_highest_iff hnext]
        obtain ⟨i, hi, hne⟩ := hends hexcl
        exact fun hall => hne (hall i hi)
      omega
    · exact hlt
  stop_count address h hstep := by
    rw [step_eq h] at hstep
    rw [rankEnd]
    cases hinc : increment iprange.lo iprange.hi iprange.indices.reverse address with
    | none =>
      have hlast : rank iprange address + 1 = _ := increment_none (List.nodup_reverse.2 indices_nodup) h.box_reverse hinc
      rw [total_reverse] at hlast
      omega
    | some next =>
      -- the address behind is the one that is left out
      rw [hinc, Option.filter_some, ite_eq_right_iff] at hstep
      obtain ⟨hnext, hrank⟩ := increment_within h hinc
      have hexcl : iprange.excludesEnds = true := by
        by_contra hno
        simp [hno] at hstep
      have hlast : rank iprange next + 1 = total iprange.lo iprange.hi iprange.indices := by
        rw [rank_highest_iff hnext]
        simpa [hexcl] using hstep
      rw [if_pos hexcl]
      omega

end

section

variable {iprange : IpRange}

lemma foldl_update (is : List (Fin groupsV6)) (address : Address) (j : Fin groupsV6) :
    is.foldl (fun address i => Function.update address i (iprange.lo i)) address j =
      if j ∈ is then iprange.lo j else address j := by
  induction is generalizing address with
  | nil => rfl
  | cons i is ih =>
    rw [List.foldl_cons, ih]
    by_cases hmem : j ∈ is
    · rw [if_pos hmem, if_pos (List.mem_cons_of_mem i hmem)]
    · rw [if_neg hmem, Function.update_apply]
      simp only [List.mem_cons, hmem, or_false]
      split_ifs with heq
      · rw [heq]
      · rfl

lemma first_within (h : Parsed iprange) (buffer : Address) :
    Within iprange buffer (iprangeFirst iprange buffer) ∧
      rank iprange (iprangeFirst iprange buffer) = if iprange.excludesEnds then 1 else 0 := by
  rw [iprangeFirst]
  set network := iprange.indices.foldl (fun address i => Function.update address i (iprange.lo i)) buffer with hnetwork
  have hat (j : Fin groupsV6) : network j = if j ∈ iprange.indices then iprange.lo j else buffer j := foldl_update _ _ j
  have hlow : ∀ i ∈ iprange.indices, network i = iprange.lo i := fun i hi => (hat i).trans (if_pos hi)
  have hwithin : Within iprange buffer network := by
    refine ⟨fun i hi => ?_, fun i hi => (hat i).trans (if_neg hi)⟩
    rw [hlow i hi]
    exact ⟨le_rfl, (h.bounds hi).1⟩
  have hzero := (rank_zero_iff hwithin).2 hlow
  by_cases hends : iprange.excludesEnds = true
  · obtain ⟨htype, hmask⟩ := type_of_excludesEnds hends
    obtain ⟨hlast, others, hothers⟩ := indices_v4 htype
    have hroom := h.room htype hmask
    have hmem : lastV4 ∈ iprange.indices := by
      rw [← List.mem_reverse, hothers]
      exact List.mem_cons_self
    have hless : network lastV4 < iprange.hi lastV4 := by
      rw [hlow _ hmem, IpRange.lo, IpRange.hi]
      omega
    have hinc : increment iprange.lo iprange.hi iprange.indices.reverse network =
        some (Function.update network lastV4 (network lastV4 + 1)) := by
      rw [hothers, increment, if_pos hless]
    rw [if_pos hends, if_pos hends, hlast]
    obtain ⟨hnext, hrank⟩ := increment_within hwithin hinc
    exact ⟨hnext, by rw [hrank, hzero]⟩
  · rw [if_neg hends, if_neg hends]
    exact ⟨hwithin, hzero⟩

def IsNetwork (iprange : IpRange) (address : Address) : Prop := ∀ i ∈ iprange.indices, address i = iprange.lo i

def IsBroadcast (iprange : IpRange) (address : Address) : Prop := ∀ i ∈ iprange.indices, address i = iprange.hi i

lemma between_iff {buffer a : Address} (h : Within iprange buffer a) :
    (if iprange.excludesEnds then 1 else 0) ≤ rank iprange a ∧ rank iprange a < rankEnd iprange ↔
      ¬ (iprange.type = .v4 ∧ iprange.mask = true ∧ (IsNetwork iprange a ∨ IsBroadcast iprange a)) := by
  have hlt := rank_lt h
  rw [IsNetwork, IsBroadcast, ← rank_zero_iff h, ← rank_highest_iff h, rankEnd]
  by_cases hends : iprange.excludesEnds = true
  · obtain ⟨htype, hmask⟩ := type_of_excludesEnds hends
    simp only [hends, if_true, htype, hmask, true_and]
    omega
  · have hno : ¬ (iprange.type = .v4 ∧ iprange.mask = true) := fun hboth => hends (by simp [IpRange.excludesEnds, hboth])
    simp only [hends, Bool.false_eq_true, if_false]
    exact iff_of_true ⟨Nat.zero_le _, hlt⟩ fun hall => hno ⟨hall.1, hall.2.1⟩

theorem iprange_walk {memory : List Char} {given iprange : IpRange} {address : List Char}
    (hparse : iprangeParse memory given address = .ok iprange) (hvolume : iprangeVolume iprange < maxUint64)
    (buffer : Address) :
    ∃ visited, Walk (step iprange) (iprangeFirst iprange buffer) visited ∧ visited.Nodup ∧
      visited.Pairwise (Before iprange.indices) ∧
      (∀ a, a ∈ visited ↔ (∀ i ∉ iprange.indices, a i = buffer i) ∧ iprangeValidate iprange a = true ∧
        ¬ (iprange.type = .v4 ∧ iprange.mask = true ∧ (IsNetwork iprange a ∨ IsBroadcast iprange a))) ∧
      visited.length = iprangeVolume iprange := by
  have hparsed := iprangeParse_parsed hparse
  obtain ⟨hfirst, hrank⟩ := first_within hparsed buffer
  have htotal : rank iprange (iprangeFirst iprange buffer) < rankEnd iprange := by
    rw [hrank, rankEnd]
    split_ifs with hends
    · have := total_four hparsed hends
      omega
    · have := rank_lt hfirst
      omega
  obtain ⟨visited, hwalk, hmap, hwithin⟩ := (step_counts iprange buffer).walk hfirst htotal
  have hsorted : visited.Pairwise fun a b => rank iprange a < rank iprange b := by
    rw [← List.pairwise_map, hmap]
    exact List.pairwise_lt_range'
  refine ⟨visited, hwalk, ?_, ?_, fun a => ?_, ?_⟩
  · exact hsorted.imp fun hlt heq => by
      rw [heq] at hlt
      exact lt_irrefl _ hlt
  · refine hsorted.imp_of_mem fun ha hb hlt => ?_
    exact (before_iff (hwithin _ ha).box (hwithin _ hb).box).2 hlt
  · have hmem := mem_visited_iff (fun a b ha hb => ha.eq_of_rank hb) htotal.le hmap hwithin a
    rw [hmem, hrank, iprangeValidate_iff]
    constructor
    · rintro ⟨ha, hbetween⟩
      exact ⟨ha.same, ha.box, (between_iff ha).1 hbetween⟩
    · rintro ⟨hsame, hbox, hends⟩
      exact ⟨⟨hbox, hsame⟩, (between_iff ⟨hbox, hsame⟩).2 hends⟩
  · have hlength := congrArg List.length hmap
    rw [List.length_map, List.length_range', hrank, rankEnd] at hlength
    rw [hlength, iprangeVolume_eq hparsed hvolume]
    split_ifs
    · rw [Nat.sub_sub]
    · rfl

theorem iprange_walk_mask :
    ∃ iprange visited, iprangeParse [] ⟨fun _ => ⟨0, 0⟩, .v6, false⟩ " 10.0.0.5/30".toList = .ok iprange ∧
      Walk (step iprange) (iprangeFirst iprange fun _ => 0) visited ∧ visited.length = 2 := by
  obtain ⟨iprange, hparse, hvolume⟩ : ∃ iprange,
      iprangeParse [] ⟨fun _ => ⟨0, 0⟩, .v6, false⟩ " 10.0.0.5/30".toList = .ok iprange ∧ iprangeVolume iprange = 2 :=
    ⟨_, rfl, rfl⟩
  obtain ⟨visited, hwalk, -, -, -, hlength⟩ := iprange_walk hparse (by rw [hvolume]; decide) fun _ => 0
  exact ⟨iprange, visited, hparse, hwalk, hlength.trans hvolume⟩

end

end Glaber.Ip
