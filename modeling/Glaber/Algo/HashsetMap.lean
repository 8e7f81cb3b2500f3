import Glaber.Algo.Hashset

namespace Glaber.Algo.Hashset

open Glaber.Lib.Buckets

variable {δ : Type}

def entries (hs : Hashset δ) : Multiset (Entry δ) :=
  match hs.slots with
  | none => 0
  | some slots => total slots hs.numSlots

def dataAt (hs : Hashset δ) (addr : Addr) : Option δ :=
  hs.slots.bind fun slots => (entryAt hs.numSlots slots addr).map (·.data)

section

variable {h : HashFuncs δ} {brk : Addr} {slots : ℕ → List (Entry δ)} {numSlots : ℕ} {numData : ℤ} {hs : Hashset δ}

def Apart (h : HashFuncs δ) (a b : Entry δ) : Prop := a.addr ≠ b.addr ∧ h.compare a.data b.data ≠ 0

instance : Std.Symm (Apart h) := ⟨fun a b hab => ⟨hab.1.symm, fun hba => hab.2 (h.symm b.data a.data hba)⟩⟩

structure Table (h : HashFuncs δ) (brk : Addr) (slots : ℕ → List (Entry δ)) (numSlots : ℕ) (numData : ℤ) : Prop where
  pos : 0 < numSlots
  hashed : ∀ e ∈ total slots numSlots, e.hash = h.hash e.data ∧ e.addr < brk
  placed : ∀ t < numSlots, Placed numSlots slots t
  apart : (total slots numSlots).Pairwise (Apart h)
  counted : numData = (total slots numSlots).card

structure Sound (h : HashFuncs δ) (brk : Addr) (hs : Hashset δ) : Prop where
  table : ∀ slots, hs.slots = some slots → Table h brk slots hs.numSlots hs.numData
  empty : hs.slots = none → hs.numData = 0

def Found (h : HashFuncs δ) (hs : Hashset δ) (data : δ) : Prop := ∃ e ∈ hs.entries, h.compare e.data data = 0

def Lost (hs : Hashset δ) : Prop := hs.slots = none ∧ hs.numSlots ≠ 0

structure Sequel (h : HashFuncs δ) (brk : Addr) (refused : Prop) (hs hs' : Hashset δ) : Prop where
  sound : Sound h brk hs'
  lost : hs'.Lost → hs.Lost ∨ (hs.numSlots = 0 ∧ refused)
  slots : hs.numSlots ≤ hs'.numSlots

lemma entries_some (hslots : hs.slots = some slots) : hs.entries = total slots hs.numSlots := by
  rw [entries, hslots]

lemma entries_none (hslots : hs.slots = none) : hs.entries = 0 := by
  rw [entries, hslots]

lemma Table.slot_of_mem (ht : Table h brk slots numSlots numData) {e : Entry δ} (he : e ∈ total slots numSlots) :
    e ∈ slots (e.hash.toNat % numSlots) := by
  obtain ⟨t, hlt, hmem⟩ := mem_total.mp he
  rwa [ht.placed t hlt e hmem]

lemma Table.mem_of_slot (ht : Table h brk slots numSlots numData) {e : Entry δ} {k : ℕ}
    (he : e ∈ slots (k % numSlots)) : e ∈ total slots numSlots :=
  mem_total.mpr ⟨_, Nat.mod_lt _ ht.pos, he⟩

lemma Table.find_some (ht : Table h brk slots numSlots numData) {data : δ} {e : Entry δ}
    (hfind : (slots ((h.hash data).toNat % numSlots)).find? (isMatch h data) = some e) :
    e ∈ total slots numSlots ∧ h.compare e.data data = 0 := by
  have hmatch := List.find?_some hfind
  simp only [isMatch, decide_eq_true_eq] at hmatch
  exact ⟨ht.mem_of_slot (List.mem_of_find?_eq_some hfind), hmatch.2⟩

lemma Table.find_none (ht : Table h brk slots numSlots numData) {data : δ}
    (hfind : (slots ((h.hash data).toNat % numSlots)).find? (isMatch h data) = none) :
    ∀ e ∈ total slots numSlots, h.compare e.data data ≠ 0 := by
  intro e he hcmp
  -- equal data have equal hashes, so the entry is in the chain that was searched
  have hhash : e.hash = h.hash data := (ht.hashed e he).1.trans (h.consistent _ _ hcmp)
  have hslot := ht.slot_of_mem he
  rw [hhash] at hslot
  have := List.find?_eq_none.mp hfind e hslot
  simp [isMatch, hhash, hcmp] at this

lemma Table.rehash (ht : Table h brk slots numSlots numData) {inc : ℕ} (hinc : numSlots ≤ inc) :
    Table h brk (Hashset.rehash numSlots inc slots) inc numData := by
  obtain ⟨htotal, hplaced⟩ := rehash_spec hinc slots
  refine ⟨ht.pos.trans_le hinc, ?_, hplaced, ?_, ?_⟩
  · rw [htotal]
    exact ht.hashed
  · rw [htotal]
    exact ht.apart
  · rw [htotal]
    exact ht.counted

lemma Table.push (ht : Table h brk slots numSlots numData) {data : δ}
    (hnew : ∀ e ∈ total slots numSlots, h.compare e.data data ≠ 0) :
    Table h (brk + 1) (Function.update slots ((h.hash data).toNat % numSlots)
      (⟨brk, h.hash data, data⟩ :: slots ((h.hash data).toNat % numSlots))) numSlots (numData + 1) := by
  have hlt : (h.hash data).toNat % numSlots < numSlots := Nat.mod_lt _ ht.pos
  refine ⟨ht.pos, ?_, fun t htlt e he => ?_, ?_, ?_⟩
  · rw [total_push hlt]
    intro e he
    rcases Multiset.mem_cons.mp he with rfl | he
    · exact ⟨rfl, Nat.lt_succ_self brk⟩
    · obtain ⟨hhash, hold⟩ := ht.hashed e he
      exact ⟨hhash, Nat.lt_succ_of_lt hold⟩
  · by_cases hts : t = (h.hash data).toNat % numSlots
    · rw [hts, Function.update_self] at he
      rcases List.mem_cons.mp he with rfl | he
      · exact hts.symm
      · exact (ht.placed _ hlt e he).trans hts.symm
    · rw [Function.update_of_ne hts] at he
      exact ht.placed t htlt e he
  · rw [total_push hlt, pairwise_cons]
    refine ⟨fun e he => ⟨(ht.hashed e he).2.ne', fun hcmp => hnew e he (h.symm _ _ hcmp)⟩, ht.apart⟩
  · rw [total_push hlt, Multiset.card_cons, ht.counted]
    rfl

lemma Table.erase (ht : Table h brk slots numSlots numData) {slot : ℕ} (hslot : slot < numSlots) {p : Entry δ → Bool}
    {e : Entry δ} (hfind : (slots slot).find? p = some e) :
    Table h brk (Function.update slots slot ((slots slot).eraseP p)) numSlots (numData - 1) := by
  have htotal := total_eraseP hslot hfind
  have hapart := ht.apart
  have hcount := ht.counted
  rw [htotal] at hapart hcount
  refine ⟨ht.pos, fun x hx => ht.hashed x (htotal ▸ Multiset.mem_cons_of_mem hx), fun t htlt x hx => ?_,
    (pairwise_cons.mp hapart).2, ?_⟩
  · by_cases hts : t = slot
    · rw [hts, Function.update_self] at hx
      rw [hts]
      exact ht.placed slot hslot x (List.mem_of_mem_eraseP hx)
    · rw [Function.update_of_ne hts] at hx
      exact ht.placed t htlt x hx
  · rw [hcount, Multiset.card_cons]
    push_cast
    ring

lemma Table.fresh_slots (hpos : 0 < numSlots) : Table h brk (fun _ => []) numSlots 0 := by
  have htotal : total (fun _ => ([] : List (Entry δ))) numSlots = 0 := total_empty fun _ _ => rfl
  refine ⟨hpos, ?_, fun t _ e he => absurd he List.not_mem_nil, ?_, ?_⟩
  · simp [htotal]
  · rw [htotal]
    exact ⟨[], rfl, List.Pairwise.nil⟩
  · rw [htotal]
    rfl

lemma Sound.of_table {slots : ℕ → List (Entry δ)} (ht : Table h brk slots numSlots numData) :
    Sound h brk ⟨some slots, numSlots, numData⟩ := by
  refine ⟨fun s hs => ?_, fun hnone => by cases hnone⟩
  cases hs
  exact ht

end

section

variable {h : HashFuncs δ} {brk : Addr} {hs hs' : Hashset δ} {mem : Memory} {data : δ}

lemma Sound.mono (hsound : Sound h brk hs) : Sound h (brk + 1) hs := by
  refine ⟨fun slots hslots => ?_, hsound.empty⟩
  have ht := hsound.table slots hslots
  exact ⟨ht.pos, fun e he => ⟨(ht.hashed e he).1, Nat.lt_succ_of_lt (ht.hashed e he).2⟩, ht.placed, ht.apart, ht.counted⟩

lemma initSlots_spec (h : HashFuncs δ) (brk : Addr) (hs : Hashset δ) (initSize : ℕ) (mem : Memory) :
    Sound h brk (hs.initSlots initSize mem).1 ∧ (hs.initSlots initSize mem).1.entries = 0 ∧
    ((hs.initSlots initSize mem).1.Lost → mem.slots = false) := by
  rw [initSlots]
  by_cases hsize : 0 < initSize
  · rw [if_pos hsize]
    cases hmem : mem.slots with
    | true =>
      have ht : Table h brk (fun _ => []) (nextPrime initSize) 0 := Table.fresh_slots (nextPrime_spec initSize).2.pos
      refine ⟨Sound.of_table ht, ?_, fun hlost => ?_⟩
      · simp only [if_true, entries]
        exact total_empty fun _ _ => rfl
      · simp [Lost] at hlost
    | false => exact ⟨⟨fun _ hslots => by simp at hslots, fun _ => rfl⟩, rfl, fun _ => rfl⟩
  · rw [if_neg hsize]
    exact ⟨⟨fun _ hslots => by simp at hslots, fun _ => rfl⟩, rfl, fun hlost => absurd rfl hlost.2⟩

lemma Sound.slots_none (hsound : Sound h brk hs) (hn : hs.numSlots = 0) : hs.slots = none := by
  cases hslots : hs.slots with
  | none => rfl
  | some slots => exact absurd hn (hsound.table slots hslots).pos.ne'

lemma reserve_spec (hsound : Sound h brk hs) {numSlotsReq : ℤ} {ok : Bool}
    (heq : hs.reserve numSlotsReq mem = some (hs', ok)) :
    Sequel h brk (mem.slots = false) hs hs' ∧ hs'.entries = hs.entries := by
  rw [reserve] at heq
  by_cases hn : hs.numSlots = 0
  · rw [if_pos hn, Option.some.injEq] at heq
    obtain ⟨hs1, hentries, hlost⟩ := initSlots_spec h brk hs
      (max (defaultSlots : ℤ) (numSlotsReq * 2 + 1)).toNat mem
    rw [heq] at hs1 hentries hlost
    refine ⟨⟨hs1, fun hl => .inr ⟨hn, hlost hl⟩, hn ▸ Nat.zero_le _⟩, ?_⟩
    rw [hentries, entries_none (hsound.slots_none hn)]
  rw [if_neg hn] at heq
  by_cases hreq : (hs.numSlots : ℤ) * 4 / 5 ≤ numSlotsReq
  · rw [if_pos hreq] at heq
    simp only at heq
    by_cases hmem : mem.enlarged
    · rw [if_pos hmem] at heq
      obtain ⟨slots, hslots, heq'⟩ := Option.map_eq_some_iff.mp heq
      obtain ⟨rfl, rfl⟩ := Prod.mk.inj heq'
      have hinc : hs.numSlots ≤ nextPrime (hs.numSlots * 3 / 2) := le_trans (by omega) (nextPrime_spec _).1
      refine ⟨⟨Sound.of_table ((hsound.table slots hslots).rehash hinc), fun hl => (by cases hl.1), hinc⟩, ?_⟩
      rw [entries_some rfl, entries_some hslots]
      exact (rehash_spec hinc slots).1
    · rw [if_neg hmem, Option.some.injEq] at heq
      obtain ⟨rfl, rfl⟩ := Prod.mk.inj heq
      exact ⟨⟨hsound, .inl, le_rfl⟩, rfl⟩
  · rw [if_neg hreq, Option.some.injEq] at heq
    obtain ⟨rfl, rfl⟩ := Prod.mk.inj heq
    exact ⟨⟨hsound, .inl, le_rfl⟩, rfl⟩

def insertInto (h : HashFuncs δ) (hs : Hashset δ) (data : δ) (addr : Addr) (mem : Memory) :
    Option (Hashset δ × Option Addr) :=
  hs.slots.bind fun slots =>
    match (slots ((h.hash data).toNat % hs.numSlots)).find? (isMatch h data) with
    | some entry => some (hs, some entry.addr)
    | none =>
      (hs.reserve (hs.numData + 1) mem).bind fun (hs, ok) =>
        if ok ∧ mem.entry then
          hs.slots.map fun slots =>
            let slot := (h.hash data).toNat % hs.numSlots
            ({ hs with slots := some (Function.update slots slot (⟨addr, h.hash data, data⟩ :: slots slot)),
                       numData := hs.numData + 1 }, some addr)
        else some (hs, none)

lemma insert_eq (hs : Hashset δ) (data : δ) (addr : Addr) (mem : Memory) :
    hs.insert h data addr mem =
      if hs.numSlots = 0 then
        if mem.slots then insertInto h (hs.initSlots defaultSlots mem).1 data addr mem
        else some ((hs.initSlots defaultSlots mem).1, none)
      else insertInto h hs data addr mem := by
  rw [insert]
  by_cases hn : hs.numSlots = 0
  · rw [if_pos hn, if_pos hn]
    rfl
  · rw [if_neg hn, if_neg hn]
    rfl

inductive Inserted (h : HashFuncs δ) (data : δ) (brk : Addr) (hs hs' : Hashset δ) : Option Addr → Prop
  | refused (heq : hs'.entries = hs.entries) : Inserted h data brk hs hs' none
  | present (heq : hs'.entries = hs.entries) (e : Entry δ) (he : e ∈ hs.entries) (hcmp : h.compare e.data data = 0) :
      Inserted h data brk hs hs' (some e.addr)
  | added (heq : hs'.entries = ⟨brk, h.hash data, data⟩ ::ₘ hs.entries) : Inserted h data brk hs hs' (some brk)

lemma insertInto_spec (hsound : Sound h brk hs) {reply : Option Addr}
    (heq : insertInto h hs data brk mem = some (hs', reply)) :
    Sequel h (brk + 1) (mem.slots = false) hs hs' ∧ Inserted h data brk hs hs' reply := by
  rw [insertInto] at heq
  obtain ⟨slots, hslots, heq⟩ := Option.bind_eq_some_iff.mp heq
  have ht := hsound.table slots hslots
  have hentries := entries_some hslots
  cases hfind : (slots ((h.hash data).toNat % hs.numSlots)).find? (isMatch h data) with
  | some e =>
    rw [hfind] at heq
    obtain ⟨rfl, rfl⟩ := Prod.mk.inj (Option.some.inj heq)
    obtain ⟨hmem, hcmp⟩ := ht.find_some hfind
    exact ⟨⟨hsound.mono, .inl, le_rfl⟩, .present rfl e (hentries ▸ hmem) hcmp⟩
  | none =>
    rw [hfind] at heq
    obtain ⟨⟨hs1, ok⟩, hreserve, heq⟩ := Option.bind_eq_some_iff.mp heq
    obtain ⟨hseq, hsame⟩ := reserve_spec hsound hreserve
    by_cases hok : ok ∧ mem.entry
    · simp only [hok, and_self, if_true] at heq
      obtain ⟨slots1, hslots1, heq⟩ := Option.map_eq_some_iff.mp heq
      obtain ⟨rfl, rfl⟩ := Prod.mk.inj heq
      have hentries1 := entries_some hslots1
      have ht1 := hseq.sound.table slots1 hslots1
      have hnew : ∀ e ∈ total slots1 hs1.numSlots, h.compare e.data data ≠ 0 := by
        rw [← hentries1, hsame, hentries]
        exact ht.find_none hfind
      refine ⟨⟨Sound.of_table (ht1.push hnew), fun hlost => (by cases hlost.1), hseq.slots⟩, .added ?_⟩
      rw [entries_some rfl, ← hsame, hentries1]
      exact total_push (Nat.mod_lt _ ht1.pos)
    · simp only [hok, if_false] at heq
      obtain ⟨rfl, rfl⟩ := Prod.mk.inj (Option.some.inj heq)
      exact ⟨⟨hseq.sound.mono, hseq.lost, hseq.slots⟩, .refused hsame⟩

lemma insert_spec (hsound : Sound h brk hs) {reply : Option Addr}
    (heq : hs.insert h data brk mem = some (hs', reply)) :
    Sequel h (brk + 1) (mem.slots = false) hs hs' ∧ Inserted h data brk hs hs' reply := by
  rw [insert_eq] at heq
  by_cases hn : hs.numSlots = 0
  · obtain ⟨hsound0, hentries0, hlost0⟩ := initSlots_spec h brk hs defaultSlots mem
    have hnone : hs.entries = 0 := entries_none (hsound.slots_none hn)
    rw [if_pos hn] at heq
    by_cases hmem : mem.slots
    · rw [if_pos hmem] at heq
      obtain ⟨hseq, hins⟩ := insertInto_spec hsound0 heq
      have hsame : (hs.initSlots defaultSlots mem).1.entries = hs.entries := hentries0.trans hnone.symm
      refine ⟨⟨hseq.sound, fun hl => .inr ⟨hn, (hseq.lost hl).elim hlost0 And.right⟩, hn ▸ Nat.zero_le _⟩, ?_⟩
      cases hins with
      | refused hstock => exact .refused (hstock.trans hsame)
      | present hstock e he hcmp => exact .present (hstock.trans hsame) e (hsame ▸ he) hcmp
      | added hstock => exact .added (by rw [hstock, hsame])
    · rw [if_neg hmem, Option.some.injEq] at heq
      obtain ⟨rfl, rfl⟩ := Prod.mk.inj heq
      exact ⟨⟨hsound0.mono, fun hl => .inr ⟨hn, hlost0 hl⟩, hn ▸ Nat.zero_le _⟩,
        .refused (hentries0.trans hnone.symm)⟩
  · rw [if_neg hn] at heq
    exact insertInto_spec hsound heq

lemma unlink_none {slots : ℕ → List (Entry δ)} {slot : ℕ} {p : Entry δ → Bool}
    (hfind : (slots slot).find? p = none) : hs.unlink slots slot p = hs := by
  have hany : (slots slot).any p = false := by simpa using List.find?_eq_none.mp hfind
  rw [unlink, if_neg (by simp [hany])]

lemma unlink_some (hsound : Sound h brk hs) {slots : ℕ → List (Entry δ)} (hslots : hs.slots = some slots) {slot : ℕ}
    (hslot : slot < hs.numSlots) {p : Entry δ → Bool} {e : Entry δ} (hfind : (slots slot).find? p = some e) :
    Sequel h brk False hs (hs.unlink slots slot p) ∧ hs.entries = e ::ₘ (hs.unlink slots slot p).entries := by
  have ht := hsound.table slots hslots
  have hany : (slots slot).any p = true :=
    List.any_eq_true.mpr ⟨e, List.mem_of_find?_eq_some hfind, List.find?_some hfind⟩
  rw [unlink, if_pos hany]
  refine ⟨⟨Sound.of_table (ht.erase hslot hfind), fun hlost => (by cases hlost.1), le_rfl⟩, ?_⟩
  rw [entries_some hslots]
  exact total_eraseP hslot hfind

lemma remove_spec (hsound : Sound h brk hs) (heq : hs.remove h data = some hs') :
    Sequel h brk False hs hs' ∧
    ((hs'.entries = hs.entries ∧ ∀ e ∈ hs.entries, h.compare e.data data ≠ 0) ∨
      ∃ e, hs.entries = e ::ₘ hs'.entries ∧ h.compare e.data data = 0) := by
  rw [remove] at heq
  by_cases hn : hs.numSlots = 0
  · rw [if_pos hn, Option.some.injEq] at heq
    subst heq
    have hnone := entries_none (hsound.slots_none hn)
    exact ⟨⟨hsound, .inl, le_rfl⟩, .inl ⟨rfl, by simp [hnone]⟩⟩
  · rw [if_neg hn] at heq
    obtain ⟨slots, hslots, rfl⟩ := Option.map_eq_some_iff.mp heq
    have ht := hsound.table slots hslots
    cases hfind : (slots ((h.hash data).toNat % hs.numSlots)).find? (isMatch h data) with
    | none =>
      rw [unlink_none hfind]
      refine ⟨⟨hsound, .inl, le_rfl⟩, .inl ⟨rfl, ?_⟩⟩
      rw [entries_some hslots]
      exact ht.find_none hfind
    | some e =>
      obtain ⟨hseq, hgone⟩ := unlink_some hsound hslots (Nat.mod_lt (h.hash data).toNat ht.pos) hfind
      exact ⟨hseq, .inr ⟨e, hgone, (ht.find_some hfind).2⟩⟩

end

section

variable {h : HashFuncs δ} {brk : Addr} {hs hs' : Hashset δ} {slots : ℕ → List (Entry δ)} {numSlots : ℕ} {numData : ℤ}

lemma Table.addr_inj (ht : Table h brk slots numSlots numData) {e e' : Entry δ} (he : e ∈ total slots numSlots)
    (he' : e' ∈ total slots numSlots) (haddr : e.addr = e'.addr) : e = e' := by
  obtain ⟨rest, hrest⟩ := Multiset.exists_cons_of_mem he
  have hapart := ht.apart
  rw [hrest] at he' hapart
  rcases Multiset.mem_cons.mp he' with rfl | hin
  · rfl
  · exact absurd haddr ((pairwise_cons.mp hapart).1 e' hin).1

lemma Table.find_addr (ht : Table h brk slots numSlots numData) {e : Entry δ} {t : ℕ} (hlt : t < numSlots)
    (he : e ∈ slots t) : (slots t).find? (·.addr = e.addr) = some e := by
  cases hfind : (slots t).find? (·.addr = e.addr) with
  | none => exact absurd (List.find?_eq_none.mp hfind e he) (by simp)
  | some e' =>
    have haddr : e'.addr = e.addr := by simpa using List.find?_some hfind
    rw [ht.addr_inj (mem_total.mpr ⟨t, hlt, List.mem_of_find?_eq_some hfind⟩) (mem_total.mpr ⟨t, hlt, he⟩) haddr]

lemma chainOf_some {addr : Addr} {chain : List (Entry δ)} (hchain : chainOf numSlots slots addr = some chain) :
    ∃ t < numSlots, slots t = chain ∧ ∃ e ∈ slots t, e.addr = addr := by
  have hmem := List.mem_of_find?_eq_some hchain
  obtain ⟨t, ht, rfl⟩ := List.mem_map.mp hmem
  exact ⟨t, List.mem_range.mp ht, rfl, by simpa using List.find?_some hchain⟩

lemma Table.entryAt_eq (ht : Table h brk slots numSlots numData) {e : Entry δ} (he : e ∈ total slots numSlots) :
    entryAt numSlots slots e.addr = some e := by
  rw [entryAt]
  cases hchain : chainOf numSlots slots e.addr with
  | none =>
    obtain ⟨t, hlt, hmem⟩ := mem_total.mp he
    have := List.find?_eq_none.mp hchain (slots t) (List.mem_map.mpr ⟨t, List.mem_range.mpr hlt, rfl⟩)
    simp only [List.any_eq_true, decide_eq_true_eq, not_exists, not_and] at this
    exact absurd rfl (this e hmem)
  | some chain =>
    obtain ⟨t, hlt, rfl, e', he', haddr⟩ := chainOf_some hchain
    obtain rfl : e' = e := ht.addr_inj (mem_total.mpr ⟨t, hlt, he'⟩) he haddr
    exact ht.find_addr hlt he'

lemma Table.entryAt_mem {addr : Addr} {e : Entry δ} (he : entryAt numSlots slots addr = some e) :
    e ∈ total slots numSlots ∧ e.addr = addr := by
  obtain ⟨chain, hchain, hfind⟩ := Option.bind_eq_some_iff.mp he
  obtain ⟨t, hlt, rfl, -⟩ := chainOf_some hchain
  exact ⟨mem_total.mpr ⟨t, hlt, List.mem_of_find?_eq_some hfind⟩, by simpa using List.find?_some hfind⟩

lemma Table.dataAt_eq (hslots : hs.slots = some slots) (ht : Table h brk slots hs.numSlots numData) {e : Entry δ}
    (he : e ∈ total slots hs.numSlots) : hs.dataAt e.addr = some e.data := by
  rw [dataAt, hslots, Option.bind_some, ht.entryAt_eq he]
  rfl

lemma removeDirect_spec (hsound : Sound h brk hs) {addr : Addr} (heq : hs.removeDirect addr = some hs') :
    Sequel h brk False hs hs' ∧
    ((hs'.entries = hs.entries ∧ hs.dataAt addr = none) ∨
      ∃ e, hs.entries = e ::ₘ hs'.entries ∧ hs.dataAt addr = some e.data) := by
  rw [removeDirect] at heq
  by_cases hn : hs.numSlots = 0
  · rw [if_pos hn, Option.some.injEq] at heq
    subst heq
    refine ⟨⟨hsound, .inl, le_rfl⟩, .inl ⟨rfl, ?_⟩⟩
    rw [dataAt, hsound.slots_none hn]
    rfl
  · rw [if_neg hn] at heq
    obtain ⟨slots, hslots, heq⟩ := Option.bind_eq_some_iff.mp heq
    obtain ⟨e, hentry, rfl⟩ := Option.map_eq_some_iff.mp heq
    have ht := hsound.table slots hslots
    obtain ⟨hmem, rfl⟩ := Table.entryAt_mem hentry
    have hlt := Nat.mod_lt e.hash.toNat ht.pos
    obtain ⟨hseq, hgone⟩ := unlink_some hsound hslots hlt (ht.find_addr hlt (ht.slot_of_mem hmem))
    exact ⟨hseq, .inr ⟨e, hgone, ht.dataAt_eq hslots hmem⟩⟩

lemma prevEntry_some {addr prev : Addr} {chain : List (Entry δ)} (hprev : prevEntry addr chain = some prev) :
    ∃ e ∈ chain, e.addr = addr := by
  induction chain with
  | nil => cases hprev
  | cons e chain ih =>
    cases chain with
    | nil => cases hprev
    | cons curr rest =>
      rw [prevEntry] at hprev
      by_cases hcurr : curr.addr = addr
      · exact ⟨curr, by simp, hcurr⟩
      · rw [if_neg hcurr] at hprev
        obtain ⟨e', he', haddr⟩ := ih hprev
        exact ⟨e', List.mem_cons_of_mem e he', haddr⟩

lemma iterRemove_spec (hsound : Sound h brk hs) {iter iter' : Iter} (hiter : iter.slot < hs.numSlots)
    (hlow : iterFinish ≤ iter.slot) (heq : hs.iterRemove iter = some (hs', iter')) :
    Sequel h brk False hs hs' ∧ iter'.slot ≤ iter.slot ∧ iterFinish ≤ iter'.slot ∧
    ∃ e, hs.entries = e ::ₘ hs'.entries ∧ iter.entry.bind hs.dataAt = some e.data := by
  rw [iterRemove] at heq
  by_cases hbad : iter.slot = iterStart ∨ iter.slot = iterFinish
  · rw [if_pos hbad] at heq
    cases heq
  rw [if_neg hbad] at heq
  have hslot0 : 0 ≤ iter.slot := by
    simp only [iterStart, iterFinish] at hbad hlow
    omega
  obtain ⟨addr, hentry, heq⟩ := Option.bind_eq_some_iff.mp heq
  obtain ⟨slots, hslots, heq⟩ := Option.bind_eq_some_iff.mp heq
  have ht := hsound.table slots hslots
  have hlt : iter.slot.toNat < hs.numSlots := by omega
  -- on both branches the entry is in the chain of the iterator's slot
  have hin : ∃ e ∈ slots iter.slot.toNat, e.addr = addr := by
    simp only at heq
    by_cases hhead : (slots iter.slot.toNat).head?.map (·.addr) = some addr
    · obtain ⟨e, he, haddr⟩ := Option.map_eq_some_iff.mp hhead
      exact ⟨e, List.mem_of_head? he, haddr⟩
    · rw [if_neg hhead] at heq
      obtain ⟨prev, hprev, _⟩ := Option.map_eq_some_iff.mp heq
      exact prevEntry_some hprev
  have hres : hs' = hs.unlink slots iter.slot.toNat (·.addr = addr) ∧ iter'.slot ≤ iter.slot ∧
      iterFinish ≤ iter'.slot := by
    simp only at heq
    by_cases hhead : (slots iter.slot.toNat).head?.map (·.addr) = some addr
    · rw [if_pos hhead] at heq
      obtain ⟨rfl, rfl⟩ := Prod.mk.inj (Option.some.inj heq)
      refine ⟨rfl, by simp, ?_⟩
      simp only [iterFinish]
      omega
    · rw [if_neg hhead] at heq
      obtain ⟨prev, _, heq⟩ := Option.map_eq_some_iff.mp heq
      obtain ⟨rfl, rfl⟩ := Prod.mk.inj heq
      exact ⟨rfl, le_rfl, hlow⟩
  obtain ⟨e, he, rfl⟩ := hin
  obtain ⟨rfl, hle, hlow'⟩ := hres
  obtain ⟨hseq, hgone⟩ := unlink_some hsound hslots hlt (ht.find_addr hlt he)
  rw [hentry, Option.bind_some]
  exact ⟨hseq, hle, hlow', e, hgone, ht.dataAt_eq hslots (mem_total.mpr ⟨_, hlt, he⟩)⟩

lemma clear_spec (hsound : Sound h brk hs) (heq : hs.clear = some hs') :
    Sequel h brk False hs hs' ∧ hs'.entries = 0 := by
  rw [clear] at heq
  by_cases hn : hs.numSlots = 0
  · rw [if_pos hn, Option.some.injEq] at heq
    subst heq
    have hnone := hsound.slots_none hn
    exact ⟨⟨⟨fun slots hslots => by simp [hnone] at hslots, fun _ => rfl⟩, .inl, le_rfl⟩, entries_none hnone⟩
  · rw [if_neg hn] at heq
    obtain ⟨slots, hslots, rfl⟩ := Option.map_eq_some_iff.mp heq
    have hcells : ∀ t < hs.numSlots, (if t < hs.numSlots then [] else slots t) = [] := fun t ht => if_pos ht
    have htotal : total (fun t => if t < hs.numSlots then [] else slots t) hs.numSlots = 0 := total_empty hcells
    refine ⟨⟨Sound.of_table ⟨Nat.pos_of_ne_zero hn, ?_, fun t ht e he => ?_, ?_, ?_⟩,
      fun hlost => (by cases hlost.1), le_rfl⟩, htotal⟩
    · simp [htotal]
    · rw [hcells t ht] at he
      cases he
    · rw [htotal]
      exact ⟨[], rfl, List.Pairwise.nil⟩
    · rw [htotal]
      rfl

lemma iterAdvance_slot (numSlots : ℕ) (slots : ℕ → List (Entry δ)) (iter : Iter) (fuel slot : ℕ)
    (hslot : slot ≤ numSlots) :
    (iterAdvance numSlots slots iter fuel slot).1.slot < numSlots ∧
    iterFinish ≤ (iterAdvance numSlots slots iter fuel slot).1.slot := by
  induction fuel generalizing slot with
  | zero =>
    simp only [iterAdvance, iterFinish]
    omega
  | succ fuel ih =>
    rw [iterAdvance]
    by_cases hend : slot = numSlots
    · rw [if_pos hend]
      simp only [iterFinish]
      omega
    · rw [if_neg hend]
      cases (slots slot).head? with
      | none => exact ih (slot + 1) (by omega)
      | some e =>
        simp only [iterFinish]
        omega

lemma iterNext_slot {iter iter' : Iter} {reply : Option Addr} (hiter : iter.slot < hs.numSlots)
    (hlow : iterFinish ≤ iter.slot) (heq : hs.iterNext iter = some (iter', reply)) :
    iter'.slot < hs.numSlots ∧ iterFinish ≤ iter'.slot := by
  rw [iterNext] at heq
  by_cases hfin : iter.slot = iterFinish
  · rw [if_pos hfin] at heq
    obtain ⟨rfl, rfl⟩ := Prod.mk.inj (Option.some.inj heq)
    exact ⟨hiter, hlow⟩
  rw [if_neg hfin] at heq
  by_cases hn : hs.numSlots = 0
  · rw [if_pos hn] at heq
    obtain ⟨rfl, rfl⟩ := Prod.mk.inj (Option.some.inj heq)
    simp only [iterFinish]
    omega
  rw [if_neg hn] at heq
  obtain ⟨slots, _, heq⟩ := Option.bind_eq_some_iff.mp heq
  have hadv := iterAdvance_slot hs.numSlots slots iter hs.numSlots.succ (iter.slot + 1).toNat (by omega)
  simp only at heq
  cases hentry : iter.entry with
  | none =>
    rw [hentry] at heq
    rw [Option.some.inj heq] at hadv
    exact hadv
  | some addr =>
    simp only [hentry] at heq
    by_cases hstart : iter.slot = iterStart
    · rw [if_pos hstart] at heq
      rw [Option.some.inj heq] at hadv
      exact hadv
    · rw [if_neg hstart] at heq
      obtain ⟨next, _, heq⟩ := Option.map_eq_some_iff.mp heq
      cases next with
      | none =>
        simp only at heq
        rw [heq] at hadv
        exact hadv
      | some addr =>
        obtain ⟨rfl, rfl⟩ := Prod.mk.inj heq
        exact ⟨hiter, hlow⟩

end

end Glaber.Algo.Hashset
