import Glaber.Algo.HashsetMap
import Glaber.Lib.Runs

namespace Glaber.Algo.Hashset

open Glaber.Lib.Buckets Glaber.Lib.Runs

variable {δ : Type}

inductive Op (δ : Type) where
  | insert (data : δ) (mem : Memory)
  | search (data : δ)
  | remove (data : δ)
  | removeDirect (addr : Addr)
  | reserve (numSlotsReq : ℤ) (mem : Memory)
  | clear
  | iterReset
  | iterNext
  | iterRemove

inductive Event (δ : Type) where
  | inserted (data : δ)
  | removed (data : δ)
  | cleared
  | none

-- Every allocation gets an address that no earlier one got.
structure World (δ : Type) where
  hs : Hashset δ
  iter : Iter
  brk : Addr

def start (initSize : ℕ) (mem : Memory) : World δ := ⟨create initSize mem, ⟨iterStart, none⟩, 0⟩

def removalOf (hs : Hashset δ) (addr : Option Addr) : Event δ :=
  match addr.bind hs.dataAt with
  | some data => .removed data
  | none => .none

def step (h : HashFuncs δ) (w : World δ) : Op δ → Option (World δ × Event δ)
  | .insert data mem =>
    (w.hs.insert h data w.brk mem).map fun (hs, reply) =>
      (⟨hs, w.iter, w.brk + 1⟩, if reply.isSome then .inserted data else .none)
  | .search data => (w.hs.search h data).map fun _ => (w, .none)
  | .remove data => (w.hs.remove h data).map fun hs => ({ w with hs := hs }, .removed data)
  | .removeDirect addr => (w.hs.removeDirect addr).map fun hs => ({ w with hs := hs }, w.hs.removalOf addr)
  | .reserve numSlotsReq mem => (w.hs.reserve numSlotsReq mem).map fun (hs, _) => ({ w with hs := hs }, .none)
  | .clear => w.hs.clear.map fun hs => ({ w with hs := hs }, .cleared)
  | .iterReset => some ({ w with iter := iterReset w.iter }, .none)
  | .iterNext => (w.hs.iterNext w.iter).map fun (iter, _) => ({ w with iter := iter }, .none)
  | .iterRemove =>
    (w.hs.iterRemove w.iter).map fun (hs, iter) => ({ w with hs := hs, iter := iter }, w.hs.removalOf w.iter.entry)

def run (h : HashFuncs δ) (initSize : ℕ) (mem : Memory) (ops : List (Op δ)) : Option (World δ × List (Event δ)) :=
  ops.foldlM (fun (w, events) op => (step h w op).map fun (w', e) => (w', events ++ [e])) (start initSize mem, [])

section

variable (h : HashFuncs δ)

def Event.Removes (data : δ) : Event δ → Prop
  | .removed data' => h.compare data' data = 0
  | .cleared => True
  | _ => False

def Stored (events : List (Event δ)) (data : δ) : Prop :=
  ∃ past data' later, events = past ++ .inserted data' :: later ∧ h.compare data' data = 0 ∧
    ∀ e ∈ later, ¬ e.Removes h data

variable {h}

lemma stored_iff {events : List (Event δ)} {data : δ} : Stored h events data ↔
    Since (fun e => ∃ data', e = .inserted data' ∧ h.compare data' data = 0) (Event.Removes h data) events := by
  constructor
  · rintro ⟨past, data', later, heq, hcmp, hlater⟩
    exact ⟨past, _, later, heq, ⟨data', rfl, hcmp⟩, hlater⟩
  · rintro ⟨past, _, later, heq, ⟨data', rfl, hcmp⟩, hlater⟩
    exact ⟨past, data', later, heq, hcmp, hlater⟩

lemma stored_snoc {events : List (Event δ)} {e : Event δ} {data : δ} :
    Stored h (events ++ [e]) data ↔
      (∃ data', e = .inserted data' ∧ h.compare data' data = 0) ∨ (Stored h events data ∧ ¬ e.Removes h data) := by
  rw [stored_iff, stored_iff]
  exact since_snoc

end

section

variable {h : HashFuncs δ} {w w' : World δ} {op : Op δ} {e : Event δ}

def Op.Refused : Op δ → Prop
  | .insert _ mem => mem.slots = false
  | .reserve _ mem => mem.slots = false
  | _ => False

structure Valid (h : HashFuncs δ) (w : World δ) : Prop where
  sound : Sound h w.brk w.hs
  slot : w.iter.slot < w.hs.numSlots
  low : iterFinish ≤ w.iter.slot

def Recorded (h : HashFuncs δ) (hs : Hashset δ) (e : Event δ) (hs' : Hashset δ) : Prop :=
  ∀ data, Found h hs' data ↔
    (∃ data', e = .inserted data' ∧ h.compare data' data = 0) ∨ (Found h hs data ∧ ¬ e.Removes h data)

lemma recorded_same {hs hs' : Hashset δ} (hsame : hs'.entries = hs.entries) : Recorded h hs .none hs' := by
  intro data
  simp [Found, hsame, Event.Removes]

lemma recorded_gone {brk : Addr} {hs hs' : Hashset δ} (hsound : Sound h brk hs) {e : Entry δ} {data : δ}
    (hgone : hs.entries = e ::ₘ hs'.entries) (hcmp : h.compare e.data data = 0) :
    Recorded h hs (.removed data) hs' := by
  have hapart : ∀ x ∈ hs'.entries, Apart h e x := by
    cases hslots : hs.slots with
    | none => simp [entries_none hslots] at hgone
    | some slots =>
      have := (hsound.table slots hslots).apart
      rw [← entries_some hslots, hgone, pairwise_cons] at this
      exact this.1
  intro data'
  simp only [Found, hgone, Multiset.mem_cons, Event.Removes, reduceCtorEq, false_and, exists_false, false_or]
  constructor
  · rintro ⟨x, hx, hxd⟩
    refine ⟨⟨x, .inr hx, hxd⟩, fun hdd => (hapart x hx).2 ?_⟩
    exact h.trans _ _ _ hcmp (h.trans _ _ _ hdd (h.symm _ _ hxd))
  · rintro ⟨⟨x, rfl | hx, hxd⟩, hkeep⟩
    · exact absurd (h.trans _ _ _ (h.symm _ _ hcmp) hxd) hkeep
    · exact ⟨x, hx, hxd⟩

lemma recorded_inserted {data : δ} {brk : Addr} {hs hs' : Hashset δ} {reply : Option Addr}
    (hins : Inserted h data brk hs hs' reply) :
    Recorded h hs (if reply.isSome then .inserted data else .none) hs' := by
  cases hins with
  | refused hsame => exact recorded_same hsame
  | present hsame e he hcmp =>
    intro data'
    simp only [Option.isSome_some, if_true, Found, hsame, Event.Removes, not_false_eq_true, and_true,
      Event.inserted.injEq, exists_eq_left']
    refine ⟨.inr, ?_⟩
    rintro (hdd | hfound)
    · exact ⟨e, he, h.trans _ _ _ hcmp hdd⟩
    · exact hfound
  | added hstock =>
    intro data'
    simp only [Option.isSome_some, if_true, Found, hstock, Event.Removes, not_false_eq_true, and_true,
      Event.inserted.injEq, exists_eq_left', Multiset.mem_cons, exists_eq_or_imp]

lemma Valid.of_sequel {refused : Prop} {hs' : Hashset δ} {brk : Addr} (hv : Valid h w)
    (hseq : Sequel h brk refused w.hs hs') : Valid h ⟨hs', w.iter, brk⟩ :=
  ⟨hseq.sound, lt_of_lt_of_le hv.slot (by exact_mod_cast hseq.slots), hv.low⟩

lemma step_spec (hv : Valid h w) (hstep : step h w op = some (w', e)) :
    Valid h w' ∧ Recorded h w.hs e w'.hs ∧ (w'.hs.Lost → w.hs.Lost ∨ (w.hs.numSlots = 0 ∧ op.Refused)) := by
  cases op with
  | insert data mem =>
    obtain ⟨⟨hs', reply⟩, heq, hres⟩ := Option.map_eq_some_iff.mp hstep
    obtain ⟨rfl, rfl⟩ := Prod.mk.inj hres
    obtain ⟨hseq, hins⟩ := insert_spec hv.sound heq
    exact ⟨hv.of_sequel hseq, recorded_inserted hins, hseq.lost⟩
  | search data =>
    obtain ⟨found, heq, hres⟩ := Option.map_eq_some_iff.mp hstep
    obtain ⟨rfl, rfl⟩ := Prod.mk.inj hres
    exact ⟨hv, recorded_same rfl, .inl⟩
  | remove data =>
    obtain ⟨hs', heq, hres⟩ := Option.map_eq_some_iff.mp hstep
    obtain ⟨rfl, rfl⟩ := Prod.mk.inj hres
    obtain ⟨hseq, hcase⟩ := remove_spec hv.sound heq
    refine ⟨hv.of_sequel hseq, ?_, hseq.lost⟩
    rcases hcase with ⟨hsame, hnone⟩ | ⟨e, hgone, hcmp⟩
    · intro data'
      simp only [Found, hsame, Event.Removes, reduceCtorEq, false_and, exists_false, false_or]
      refine ⟨fun ⟨x, hx, hxd⟩ => ⟨⟨x, hx, hxd⟩, fun hdd => ?_⟩, And.left⟩
      exact hnone x hx (h.trans _ _ _ hxd (h.symm _ _ hdd))
    · exact recorded_gone hv.sound hgone hcmp
  | removeDirect addr =>
    obtain ⟨hs', heq, hres⟩ := Option.map_eq_some_iff.mp hstep
    obtain ⟨rfl, rfl⟩ := Prod.mk.inj hres
    obtain ⟨hseq, hcase⟩ := removeDirect_spec hv.sound heq
    refine ⟨hv.of_sequel hseq, ?_, hseq.lost⟩
    rw [removalOf, Option.bind_some]
    rcases hcase with ⟨hsame, hdata⟩ | ⟨e, hgone, hdata⟩
    · rw [hdata]
      exact recorded_same hsame
    · rw [hdata]
      exact recorded_gone hv.sound hgone (h.refl _)
  | reserve numSlotsReq mem =>
    obtain ⟨⟨hs', ok⟩, heq, hres⟩ := Option.map_eq_some_iff.mp hstep
    obtain ⟨rfl, rfl⟩ := Prod.mk.inj hres
    obtain ⟨hseq, hsame⟩ := reserve_spec hv.sound heq
    exact ⟨hv.of_sequel hseq, recorded_same hsame, hseq.lost⟩
  | clear =>
    obtain ⟨hs', heq, hres⟩ := Option.map_eq_some_iff.mp hstep
    obtain ⟨rfl, rfl⟩ := Prod.mk.inj hres
    obtain ⟨hseq, hempty⟩ := clear_spec hv.sound heq
    refine ⟨hv.of_sequel hseq, fun data => ?_, hseq.lost⟩
    simp [Found, hempty, Event.Removes]
  | iterReset =>
    obtain ⟨rfl, rfl⟩ := Prod.mk.inj (Option.some.inj hstep)
    refine ⟨⟨hv.sound, ?_, ?_⟩, recorded_same rfl, .inl⟩
    · simp only [iterReset, iterStart]
      omega
    · simp [iterReset, iterStart, iterFinish]
  | iterNext =>
    obtain ⟨⟨iter, reply⟩, heq, hres⟩ := Option.map_eq_some_iff.mp hstep
    obtain ⟨rfl, rfl⟩ := Prod.mk.inj hres
    obtain ⟨hslot, hlow⟩ := iterNext_slot hv.slot hv.low heq
    exact ⟨⟨hv.sound, hslot, hlow⟩, recorded_same rfl, .inl⟩
  | iterRemove =>
    obtain ⟨⟨hs', iter⟩, heq, hres⟩ := Option.map_eq_some_iff.mp hstep
    obtain ⟨rfl, rfl⟩ := Prod.mk.inj hres
    obtain ⟨hseq, hslot, hlow, e, hgone, hdata⟩ := iterRemove_spec hv.sound hv.slot hv.low heq
    refine ⟨⟨hseq.sound, ?_, hlow⟩, ?_, hseq.lost⟩
    · have := hv.slot
      have := hseq.slots
      simp only
      omega
    · rw [removalOf, hdata]
      exact recorded_gone hv.sound hgone (h.refl _)

lemma slots_of_live {hs : Hashset δ} (hlive : ¬ hs.Lost) (hn : hs.numSlots ≠ 0) :
    ∃ slots, hs.slots = some slots := by
  cases hslots : hs.slots with
  | none => exact absurd ⟨hslots, hn⟩ hlive
  | some slots => exact ⟨slots, rfl⟩

lemma search_spec {brk : Addr} {hs : Hashset δ} (hsound : Sound h brk hs) (hlive : ¬ hs.Lost) (data : δ) :
    ∃ found, hs.search h data = some found ∧ (found.isSome ↔ Found h hs data) ∧
      ∀ e, found = some e → e ∈ hs.entries ∧ h.compare e.data data = 0 := by
  rw [search]
  by_cases hn : hs.numSlots = 0
  · rw [if_pos hn]
    refine ⟨none, rfl, ?_, fun e he => by cases he⟩
    simp [Found, entries_none (hsound.slots_none hn)]
  · obtain ⟨slots, hslots⟩ := slots_of_live hlive hn
    have ht := hsound.table slots hslots
    rw [if_neg hn, hslots, Option.map_some]
    refine ⟨_, rfl, ?_, fun e he => ?_⟩
    · rw [Found, entries_some hslots]
      cases hfind : (slots ((h.hash data).toNat % hs.numSlots)).find? (isMatch h data) with
      | none => exact iff_of_false (by simp) fun ⟨e, he, hcmp⟩ => ht.find_none hfind e he hcmp
      | some e => exact iff_of_true rfl ⟨e, ht.find_some hfind⟩
    · rw [entries_some hslots]
      exact ht.find_some he

def Proper (w : World δ) : Op δ → Prop
  | .removeDirect addr => ∃ e ∈ w.hs.entries, e.addr = addr
  | .iterNext => ∀ addr, w.iter.entry = some addr → ∃ e ∈ w.hs.entries, e.addr = addr
  | .iterRemove => 0 ≤ w.iter.slot ∧
      ∃ slots, w.hs.slots = some slots ∧ ∃ e ∈ slots w.iter.slot.toNat, w.iter.entry = some e.addr
  | _ => True

lemma start_valid (initSize : ℕ) (mem : Memory) :
    Valid h (start initSize mem) ∧ (start (δ := δ) initSize mem).hs.entries = 0 ∧
    ((start (δ := δ) initSize mem).hs.Lost → mem.slots = false) := by
  obtain ⟨hsound, hentries, hlost⟩ := initSlots_spec h 0 (⟨none, 0, 0⟩ : Hashset δ) initSize mem
  refine ⟨⟨hsound, ?_, by simp [start, iterStart, iterFinish]⟩, hentries, hlost⟩
  simp only [start, iterStart]
  omega

structure Kept (h : HashFuncs δ) (mem : Memory) (past : List (Op δ)) (s : World δ × List (Event δ)) : Prop where
  valid : Valid h s.1
  stored : ∀ data, Found h s.1.hs data ↔ Stored h s.2 data
  lost : s.1.hs.Lost → mem.slots = false ∨ ∃ op ∈ past, op.Refused

lemma start_kept (initSize : ℕ) (mem : Memory) : Kept h mem [] (start initSize mem, []) := by
  obtain ⟨hvalid, hentries, hlost⟩ := start_valid (h := h) initSize mem
  refine ⟨hvalid, fun data => ?_, fun hl => .inl (hlost hl)⟩
  refine iff_of_false ?_ ?_
  · rintro ⟨e, he, _⟩
    have hnone : e ∈ (0 : Multiset (Entry δ)) := hentries ▸ he
    simp at hnone
  · rintro ⟨past, data', later, heq, _⟩
    simp at heq

lemma run_kept {initSize : ℕ} {mem : Memory} {ops : List (Op δ)} {events : List (Event δ)}
    (hrun : run h initSize mem ops = some (w, events)) : Kept h mem ops (w, events) := by
  refine foldlM_rule (Kept h mem) ?_ ops (start_kept initSize mem) hrun
  rintro past ⟨w, events⟩ op ⟨w', events'⟩ hkept hop
  obtain ⟨⟨w1, e⟩, hstep, hres⟩ := Option.map_eq_some_iff.mp hop
  obtain ⟨rfl, rfl⟩ := Prod.mk.inj hres
  obtain ⟨hv', hrec, hlost'⟩ := step_spec hkept.valid hstep
  refine ⟨hv', fun data => ?_, fun hl => ?_⟩
  · rw [hrec data, hkept.stored data, stored_snoc]
  · rcases hlost' hl with hl | ⟨_, href⟩
    · rcases hkept.lost hl with hmem | ⟨op', hop', href⟩
      · exact .inl hmem
      · exact .inr ⟨op', List.mem_append_left _ hop', href⟩
    · exact .inr ⟨op, by simp, href⟩

section

variable {hs : Hashset δ} {slots : ℕ → List (Entry δ)}

lemma reserve_total (hlive : ¬ hs.Lost) (numSlotsReq : ℤ) (mem : Memory) :
    ∃ res, hs.reserve numSlotsReq mem = some res := by
  rw [reserve]
  by_cases hn : hs.numSlots = 0
  · exact ⟨_, if_pos hn⟩
  · obtain ⟨slots, hslots⟩ := slots_of_live hlive hn
    rw [if_neg hn, hslots]
    split_ifs
    · exact ⟨_, rfl⟩
    · exact ⟨_, rfl⟩
    · exact ⟨_, rfl⟩

lemma insertInto_total {brk : Addr} (hsound : Sound h brk hs) (hslots : hs.slots = some slots) (data : δ) (addr : Addr)
    (mem : Memory) : ∃ res, insertInto h hs data addr mem = some res := by
  have hpos := (hsound.table slots hslots).pos
  have hlive : ¬ hs.Lost := fun hlost => by
    have hnone := hlost.1
    rw [hslots] at hnone
    cases hnone
  rw [insertInto, hslots, Option.bind_some]
  cases (slots ((h.hash data).toNat % hs.numSlots)).find? (isMatch h data) with
  | some e => exact ⟨_, rfl⟩
  | none =>
    obtain ⟨⟨hs1, ok⟩, hreserve⟩ := reserve_total hlive (hs.numData + 1) mem
    obtain ⟨hseq, _⟩ := reserve_spec hsound hreserve
    have hlive1 : ¬ hs1.Lost := fun hl => (hseq.lost hl).elim hlive fun h0 => absurd h0.1 hpos.ne'
    obtain ⟨slots1, hslots1⟩ := slots_of_live hlive1 (hpos.trans_le hseq.slots).ne'
    simp only [hreserve, Option.bind_some, hslots1, Option.map_some]
    split_ifs
    · exact ⟨_, rfl⟩
    · exact ⟨_, rfl⟩

lemma insert_total {brk : Addr} (hsound : Sound h brk hs) (hlive : ¬ hs.Lost) (data : δ) (addr : Addr) (mem : Memory) :
    ∃ res, hs.insert h data addr mem = some res := by
  rw [insert_eq]
  by_cases hn : hs.numSlots = 0
  · rw [if_pos hn]
    cases hmem : mem.slots with
    | true =>
      have hslots : (hs.initSlots defaultSlots mem).1.slots = some fun _ => [] := by simp [initSlots, defaultSlots, hmem]
      exact insertInto_total (initSlots_spec h brk hs defaultSlots mem).1 hslots data addr mem
    | false => exact ⟨_, rfl⟩
  · obtain ⟨slots, hslots⟩ := slots_of_live hlive hn
    rw [if_neg hn]
    exact insertInto_total hsound hslots data addr mem

lemma prevEntry_total {addr : Addr} {chain : List (Entry δ)} (hin : ∃ e ∈ chain, e.addr = addr)
    (hhead : chain.head?.map (·.addr) ≠ some addr) : ∃ prev, prevEntry addr chain = some prev := by
  induction chain with
  | nil => simp at hin
  | cons prev chain ih =>
    obtain ⟨e, he, haddr⟩ := hin
    have htail : e ∈ chain := by
      rcases List.mem_cons.mp he with rfl | he
      · exact absurd (by simp [haddr]) hhead
      · exact he
    cases chain with
    | nil => cases htail
    | cons curr rest =>
      rw [prevEntry]
      by_cases hcurr : curr.addr = addr
      · exact ⟨_, if_pos hcurr⟩
      · rw [if_neg hcurr]
        exact ih ⟨e, htail, haddr⟩ (by simpa using hcurr)

lemma iterNext_total {brk : Addr} (hsound : Sound h brk hs) (hlive : ¬ hs.Lost) (iter : Iter)
    (hentry : ∀ addr, iter.entry = some addr → ∃ e ∈ hs.entries, e.addr = addr) :
    ∃ res, hs.iterNext iter = some res := by
  rw [iterNext]
  by_cases hfin : iter.slot = iterFinish
  · exact ⟨_, if_pos hfin⟩
  rw [if_neg hfin]
  by_cases hn : hs.numSlots = 0
  · exact ⟨_, if_pos hn⟩
  obtain ⟨slots, hslots⟩ := slots_of_live hlive hn
  rw [if_neg hn, hslots, Option.bind_some]
  cases haddr : iter.entry with
  | none => exact ⟨_, rfl⟩
  | some addr =>
    simp only
    by_cases hstart : iter.slot = iterStart
    · exact ⟨_, if_pos hstart⟩
    obtain ⟨e, he, rfl⟩ := hentry addr haddr
    rw [entries_some hslots] at he
    have hentryAt := (hsound.table slots hslots).entryAt_eq he
    obtain ⟨chain, hchain, _⟩ := Option.bind_eq_some_iff.mp hentryAt
    rw [if_neg hstart, nextEntry, hchain]
    exact ⟨_, rfl⟩

lemma iterRemove_total {iter : Iter} (hslots : hs.slots = some slots) (hslot : 0 ≤ iter.slot)
    (hin : ∃ e ∈ slots iter.slot.toNat, iter.entry = some e.addr) : ∃ res, hs.iterRemove iter = some res := by
  obtain ⟨e, he, hentry⟩ := hin
  have hgood : ¬ (iter.slot = iterStart ∨ iter.slot = iterFinish) := by
    simp only [iterStart, iterFinish]
    omega
  rw [iterRemove, if_neg hgood, hentry, hslots, Option.bind_some, Option.bind_some]
  simp only
  by_cases hhead : (slots iter.slot.toNat).head?.map (·.addr) = some e.addr
  · exact ⟨_, if_pos hhead⟩
  · obtain ⟨prev, hprev⟩ := prevEntry_total ⟨e, he, rfl⟩ hhead
    rw [if_neg hhead, hprev]
    exact ⟨_, rfl⟩

lemma step_total (hv : Valid h w) (hlive : ¬ w.hs.Lost) (hproper : Proper w op) : (step h w op).isSome := by
  cases op with
  | insert data mem =>
    obtain ⟨res, hres⟩ := insert_total hv.sound hlive data w.brk mem
    simp [step, hres]
  | search data =>
    obtain ⟨found, hres, _⟩ := search_spec hv.sound hlive data
    simp [step, hres]
  | remove data =>
    by_cases hn : w.hs.numSlots = 0
    · simp [step, remove, hn]
    · obtain ⟨slots, hslots⟩ := slots_of_live hlive hn
      simp [step, remove, hn, hslots]
  | removeDirect addr =>
    by_cases hn : w.hs.numSlots = 0
    · simp [step, removeDirect, hn]
    · obtain ⟨slots, hslots⟩ := slots_of_live hlive hn
      obtain ⟨e, he, rfl⟩ := hproper
      rw [entries_some hslots] at he
      simp [step, removeDirect, hn, hslots, (hv.sound.table slots hslots).entryAt_eq he]
  | reserve numSlotsReq mem =>
    obtain ⟨res, hres⟩ := reserve_total hlive numSlotsReq mem
    simp [step, hres]
  | clear =>
    by_cases hn : w.hs.numSlots = 0
    · simp [step, clear, hn]
    · obtain ⟨slots, hslots⟩ := slots_of_live hlive hn
      simp [step, clear, hn, hslots]
  | iterReset => rfl
  | iterNext =>
    obtain ⟨res, hres⟩ := iterNext_total hv.sound hlive w.iter hproper
    simp [step, hres]
  | iterRemove =>
    obtain ⟨hslot, slots, hslots, hin⟩ := hproper
    obtain ⟨res, hres⟩ := iterRemove_total hslots hslot hin
    simp [step, hres]

end

def byKey : HashFuncs (ℕ × ℕ) where
  hash a := UInt32.ofNat a.1
  compare a b := a.1 - b.1
  refl a := by simp
  symm a b := by omega
  trans a b c := by omega
  consistent a b hab := by rw [show a.1 = b.1 by omega]

def eightOps : List (Op (ℕ × ℕ)) :=
  [.insert (5, 50) ⟨true, true, true⟩, .insert (7, 70) ⟨true, true, true⟩, .insert (12, 120) ⟨true, true, true⟩,
    .insert (5, 51) ⟨true, true, true⟩, .remove (7, 0), .iterReset, .iterNext, .iterRemove]

end

end Glaber.Algo.Hashset
