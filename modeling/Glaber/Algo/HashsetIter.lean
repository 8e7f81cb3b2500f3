import Glaber.Algo.HashsetRun

namespace Glaber.Algo.Hashset

open Glaber.Lib.Buckets

variable {δ : Type}

def iterLoop (removed : Addr → Bool) : ℕ → Hashset δ → Iter → Option (Hashset δ × List Addr)
  | 0, _, _ => none
  | turns + 1, hs, iter =>
    (hs.iterNext iter).bind fun (iter, reply) =>
      match reply with
      | none => some (hs, [])
      | some addr =>
        (if removed addr then hs.iterRemove iter else some (hs, iter)).bind fun (hs, iter) =>
          (iterLoop removed turns hs iter).map fun (hs, visited) => (hs, addr :: visited)

def chainsFrom (slots : ℕ → List (Entry δ)) (k n : ℕ) : List (Entry δ) := (List.range' k (n - k)).flatMap slots

section

variable {slots : ℕ → List (Entry δ)} {k n : ℕ}

lemma chainsFrom_end (slots : ℕ → List (Entry δ)) (n : ℕ) : chainsFrom slots n n = [] := by
  rw [chainsFrom, Nat.sub_self]
  rfl

lemma chainsFrom_step (hk : k < n) : chainsFrom slots k n = slots k ++ chainsFrom slots (k + 1) n := by
  rw [chainsFrom, chainsFrom, show n - k = n - (k + 1) + 1 by omega, List.range'_succ, List.flatMap_cons]

lemma chainsFrom_update {i : ℕ} (hi : i < k) (l : List (Entry δ)) :
    chainsFrom (Function.update slots i l) k n = chainsFrom slots k n := by
  apply List.flatMap_congr
  intro j hj
  have := (List.mem_range'_1.mp hj).1
  exact Function.update_of_ne (by omega) _ _

lemma coe_chainsFrom (slots : ℕ → List (Entry δ)) (n : ℕ) : (chainsFrom slots 0 n : Multiset (Entry δ)) = total slots n := by
  induction n with
  | zero => rfl
  | succ n ih =>
    rw [chainsFrom, Nat.sub_zero] at ih ⊢
    rw [List.range'_1_concat, List.flatMap_append, ← Multiset.coe_add, ih, total, total, Finset.sum_range_succ]
    simp

end

inductive Ahead (slots : ℕ → List (Entry δ)) (n : ℕ) : Iter → List (Entry δ) → Prop
  | between (iter : Iter) (k : ℕ) (hslot : iter.slot + 1 = k) (hk : k ≤ n)
      (hentry : iter.slot = iterStart ∨ iter.entry = none) : Ahead slots n iter (chainsFrom slots k n)
  | inside (k : ℕ) (pre post : List (Entry δ)) (e : Entry δ) (hk : k < n) (hchain : slots k = pre ++ e :: post) :
      Ahead slots n ⟨k, some e.addr⟩ (post ++ chainsFrom slots (k + 1) n)

section

variable {h : HashFuncs δ} {brk : Addr} {slots : ℕ → List (Entry δ)} {n k : ℕ} {numData : ℤ} {hs : Hashset δ}
  {pre post : List (Entry δ)} {e : Entry δ} {iter : Iter} {ahead : List (Entry δ)}

lemma iterAdvance_spec (iter : Iter) (fuel slot : ℕ) (hslot : slot ≤ n) (hfuel : n < slot + fuel) :
    (chainsFrom slots slot n = [] ∧ iterAdvance n slots iter fuel slot = ({ iter with slot := iterFinish }, none)) ∨
    ∃ k post e, k < n ∧ slots k = e :: post ∧ chainsFrom slots slot n = e :: (post ++ chainsFrom slots (k + 1) n) ∧
      iterAdvance n slots iter fuel slot = (⟨k, some e.addr⟩, some e.addr) := by
  induction fuel generalizing slot with
  | zero => omega
  | succ fuel ih =>
    rw [iterAdvance]
    rcases eq_or_lt_of_le hslot with rfl | hlt
    · rw [if_pos rfl]
      exact .inl ⟨chainsFrom_end slots slot, rfl⟩
    · rw [if_neg hlt.ne, chainsFrom_step hlt]
      cases hchain : slots slot with
      | nil => exact ih (slot + 1) hlt (by omega)
      | cons e post => exact .inr ⟨slot, post, e, hlt, hchain, rfl, rfl⟩

lemma Table.chain_apart (ht : Table h brk slots n numData) (hk : k < n) :
    (slots k).Pairwise fun a b => a.addr ≠ b.addr := by
  have htotal := total_update (f := slots) hk []
  rw [Multiset.coe_nil, add_zero] at htotal
  have hapart := ht.apart
  rw [← htotal, ← Multiset.coe_toList (total (Function.update slots k []) n), Multiset.coe_add,
    Multiset.pairwise_coe_iff_pairwise] at hapart
  exact (List.pairwise_append.mp hapart).2.1.imp And.left

lemma Table.before (ht : Table h brk slots n numData) (hk : k < n) (hchain : slots k = pre ++ e :: post) :
    ∀ a ∈ pre, a.addr ≠ e.addr := by
  have hapart := ht.chain_apart hk
  rw [hchain] at hapart
  intro a ha
  exact (List.pairwise_append.mp hapart).2.2 a ha e List.mem_cons_self

lemma Table.nextEntry_eq (ht : Table h brk slots n numData) (hk : k < n) (hchain : slots k = pre ++ e :: post) :
    nextEntry n slots e.addr = some (post.head?.map (·.addr)) := by
  have hmem : e ∈ slots k := by simp [hchain]
  have hchainOf : chainOf n slots e.addr = some (slots k) := by
    obtain ⟨chain, hfound, -⟩ := Option.bind_eq_some_iff.mp (ht.entryAt_eq (mem_total.mpr ⟨k, hk, hmem⟩))
    obtain ⟨t, hlt, rfl, e', he', haddr⟩ := chainOf_some hfound
    obtain rfl : e' = e := ht.addr_inj (mem_total.mpr ⟨t, hlt, he'⟩) (mem_total.mpr ⟨k, hk, hmem⟩) haddr
    obtain rfl : t = k := (ht.placed t hlt e' he').symm.trans (ht.placed k hk e' hmem)
    exact hfound
  have hpre := ht.before hk hchain
  have hdrop : (slots k).dropWhile (fun a => a.addr ≠ e.addr) = e :: post := by
    rw [hchain, List.dropWhile_append_of_pos (by simpa using hpre), List.dropWhile_cons_of_neg (by simp)]
  rw [nextEntry, hchainOf, Option.map_some, hdrop]
  rfl

lemma Ahead.next (ha : Ahead slots hs.numSlots iter ahead) (hslots : hs.slots = some slots)
    (ht : Table h brk slots hs.numSlots numData) :
    (ahead = [] ∧ ∃ iter', hs.iterNext iter = some (iter', none)) ∨
    ∃ k pre post e, k < hs.numSlots ∧ slots k = pre ++ e :: post ∧
      ahead = e :: (post ++ chainsFrom slots (k + 1) hs.numSlots) ∧
      hs.iterNext iter = some (⟨k, some e.addr⟩, some e.addr) := by
  have hn := ht.pos
  cases ha with
  | between _ k hslot hk hentry =>
    have hrun : hs.iterNext iter = some (iterAdvance hs.numSlots slots iter hs.numSlots.succ k) := by
      have hk' : (iter.slot + 1).toNat = k := by omega
      rw [iterNext, if_neg (by simp only [iterFinish]; omega), if_neg hn.ne', hslots, Option.bind_some, hk']
      dsimp only
      rcases hentry with hstart | hnone
      · cases iter.entry with
        | none => rfl
        | some addr => exact if_pos hstart
      · rw [hnone]
    rcases iterAdvance_spec iter hs.numSlots.succ k hk (by omega) with ⟨hnil, heq⟩ | ⟨j, post, e, hj, hchain, hrest, heq⟩
    · exact .inl ⟨hnil, _, hrun.trans (congrArg some heq)⟩
    · exact .inr ⟨j, [], post, e, hj, hchain, hrest, hrun.trans (congrArg some heq)⟩
  | inside k pre post e hk hchain =>
    have hnext := ht.nextEntry_eq hk hchain
    have hstep : hs.iterNext ⟨k, some e.addr⟩ = (nextEntry hs.numSlots slots e.addr).bind fun next =>
        some (next.elim (iterAdvance hs.numSlots slots ⟨k, some e.addr⟩ hs.numSlots.succ (k + 1))
          fun addr => (⟨k, some addr⟩, some addr)) := by
      rw [iterNext, if_neg (by simp only [iterFinish]; omega), if_neg hn.ne', hslots, Option.bind_some]
      dsimp only
      rw [if_neg (by simp only [iterStart]; omega), hnext]
      cases post <;> rfl
    have hrun := hstep.trans (by rw [hnext, Option.bind_some])
    cases post with
    | nil =>
      rcases iterAdvance_spec ⟨k, some e.addr⟩ hs.numSlots.succ (k + 1) hk (by omega) with
        ⟨hnil, heq⟩ | ⟨j, post, e', hj, hchain', hrest, heq⟩
      · exact .inl ⟨hnil, _, hrun.trans (congrArg some heq)⟩
      · exact .inr ⟨j, [], post, e', hj, hchain', hrest, hrun.trans (congrArg some heq)⟩
    | cons e' post =>
      exact .inr ⟨k, pre ++ [e], post, e', hk, by simp [hchain], rfl, hrun⟩

lemma prevEntry_append (pre post : List (Entry δ)) (prev e : Entry δ) (hpre : ∀ a ∈ pre ++ [prev], a.addr ≠ e.addr) :
    prevEntry e.addr (pre ++ prev :: e :: post) = some prev.addr := by
  induction pre with
  | nil => exact if_pos rfl
  | cons a pre ih =>
    obtain ⟨-, hrest⟩ := List.forall_mem_cons.mp hpre
    have hgo := ih hrest
    cases pre with
    | nil =>
      rw [List.cons_append, List.nil_append, prevEntry, if_neg (hpre prev (by simp))]
      exact hgo
    | cons b pre =>
      rw [List.cons_append, List.cons_append, prevEntry, if_neg (hpre b (by simp))]
      exact hgo

lemma Table.remove_inside (ht : Table h brk slots hs.numSlots numData) (hslots : hs.slots = some slots)
    (hk : k < hs.numSlots) (hchain : slots k = pre ++ e :: post) :
    ∃ iter', hs.iterRemove ⟨k, some e.addr⟩ = some (hs.unlink slots k (·.addr = e.addr), iter') ∧
      (hs.unlink slots k (·.addr = e.addr)).slots = some (Function.update slots k (pre ++ post)) ∧
      (hs.unlink slots k (·.addr = e.addr)).numSlots = hs.numSlots ∧
      Ahead (Function.update slots k (pre ++ post)) hs.numSlots iter' (post ++ chainsFrom slots (k + 1) hs.numSlots) := by
  have hpre := ht.before hk hchain
  have hany : (slots k).any (·.addr = e.addr) = true := by simp [hchain]
  have herase : (slots k).eraseP (·.addr = e.addr) = pre ++ post := by
    rw [hchain, List.eraseP_append_right _ (by simpa using hpre), List.eraseP_cons_of_pos (by simp)]
  have hafter : chainsFrom (Function.update slots k (pre ++ post)) (k + 1) hs.numSlots = chainsFrom slots (k + 1) hs.numSlots :=
    chainsFrom_update (Nat.lt_succ_self k) _
  have hunlink : (hs.unlink slots k (·.addr = e.addr)).slots = some (Function.update slots k (pre ++ post)) ∧
      (hs.unlink slots k (·.addr = e.addr)).numSlots = hs.numSlots := by
    rw [unlink, if_pos hany, herase]
    exact ⟨rfl, rfl⟩
  have hremove : hs.iterRemove ⟨k, some e.addr⟩ =
      if (slots k).head?.map (·.addr) = some e.addr then some (hs.unlink slots k (·.addr = e.addr), ⟨k - 1, none⟩)
      else (prevEntry e.addr (slots k)).map fun prev => (hs.unlink slots k (·.addr = e.addr), ⟨k, some prev⟩) := by
    rw [iterRemove, if_neg (by simp only [iterStart, iterFinish]; omega), Option.bind_some, hslots, Option.bind_some]
    rfl
  rcases List.eq_nil_or_concat pre with rfl | ⟨before, prev, rfl⟩
  · refine ⟨⟨k - 1, none⟩, ?_, hunlink.1, hunlink.2, ?_⟩
    · rw [hremove, hchain]
      exact if_pos rfl
    · have hcell : Function.update slots k post k = post := Function.update_self _ _ _
      have hbetween : Ahead (Function.update slots k post) hs.numSlots ⟨(k : ℤ) - 1, none⟩ _ :=
        .between _ k (by simp) hk.le (.inr rfl)
      rw [chainsFrom_step hk, hcell] at hbetween
      rw [List.nil_append] at hafter ⊢
      rwa [hafter] at hbetween
  · rw [List.concat_eq_append] at hchain hpre hunlink hafter ⊢
    have hhead : (slots k).head?.map (·.addr) ≠ some e.addr := by
      rw [hchain]
      cases before with
      | nil =>
        intro heq
        exact hpre prev (by simp) (Option.some.inj heq)
      | cons a before =>
        intro heq
        exact hpre a (by simp) (Option.some.inj heq)
    refine ⟨⟨k, some prev.addr⟩, ?_, hunlink.1, hunlink.2, ?_⟩
    · have hprev := prevEntry_append before post prev e hpre
      rw [hremove, if_neg hhead, hchain, List.append_assoc, List.singleton_append, hprev]
      rfl
    · have hcell : Function.update slots k (before ++ [prev] ++ post) k = before ++ prev :: post := by
        rw [Function.update_self, List.append_assoc]
        rfl
      have hinside := Ahead.inside k before post prev hk hcell
      rwa [hafter] at hinside

lemma iterLoop_spec (removed : Addr → Bool) (turns : ℕ) (hsound : Sound h brk hs) (hslots : hs.slots = some slots)
    (ha : Ahead slots hs.numSlots iter ahead) (hturns : ahead.length < turns) :
    ∃ hs', iterLoop removed turns hs iter = some (hs', ahead.map (·.addr)) ∧ Sound h brk hs' ∧
      (ahead : Multiset (Entry δ)).filter (removed ·.addr) + hs'.entries = hs.entries := by
  induction turns generalizing hs slots iter ahead with
  | zero => omega
  | succ turns ih =>
    have ht := hsound.table slots hslots
    rcases ha.next hslots ht with ⟨rfl, iter', hnext⟩ | ⟨k, pre, post, e, hk, hchain, rfl, hnext⟩
    · refine ⟨hs, ?_, hsound, by simp⟩
      rw [iterLoop, hnext]
      rfl
    · rw [List.length_cons] at hturns
      cases hrem : removed e.addr with
      | false =>
        obtain ⟨hs', hloop, hsound', hrest⟩ := ih hsound hslots (.inside k pre post e hk hchain) (by omega)
        refine ⟨hs', ?_, hsound', ?_⟩
        · rw [iterLoop, hnext, Option.bind_some]
          dsimp only
          rw [hrem, if_neg Bool.false_ne_true, Option.bind_some, hloop]
          rfl
        · rwa [← Multiset.cons_coe, Multiset.filter_cons_of_neg _ (by simp [hrem])]
      | true =>
        obtain ⟨iter', hremove, hslots1, hnum1, hahead⟩ := ht.remove_inside hslots hk hchain
        have hfind := ht.find_addr hk (show e ∈ slots k by simp [hchain])
        obtain ⟨hseq, hgone⟩ := unlink_some hsound hslots hk hfind
        rw [← hnum1] at hahead
        obtain ⟨hs', hloop, hsound', hrest⟩ := ih hseq.sound hslots1 hahead (by rw [hnum1]; omega)
        refine ⟨hs', ?_, hsound', ?_⟩
        · rw [iterLoop, hnext, Option.bind_some]
          dsimp only
          rw [hrem, if_pos rfl, hremove, Option.bind_some, hloop, hnum1]
          rfl
        · rw [hgone, ← hrest, hnum1, ← Multiset.cons_coe, Multiset.filter_cons_of_pos _ (by simp [hrem]),
            Multiset.cons_add]

lemma Sound.addr_nodup (hsound : Sound h brk hs) : (hs.entries.map (·.addr)).Nodup := by
  cases hslots : hs.slots with
  | none =>
    rw [entries_none hslots]
    exact Multiset.nodup_zero
  | some slots =>
    obtain ⟨l, hl, hpair⟩ := (hsound.table slots hslots).apart
    rw [entries_some hslots, hl, Multiset.map_coe, Multiset.coe_nodup]
    exact List.pairwise_map.mpr (hpair.imp And.left)

lemma Sound.numData_eq (hsound : Sound h brk hs) : hs.numData = hs.entries.card := by
  cases hslots : hs.slots with
  | none =>
    rw [entries_none hslots, hsound.empty hslots]
    rfl
  | some slots =>
    rw [entries_some hslots]
    exact (hsound.table slots hslots).counted

lemma iterLoop_reset (hsound : Sound h brk hs) (hlive : ¬ hs.Lost) (iter : Iter) (removed : Addr → Bool) {turns : ℕ}
    (hturns : hs.entries.card < turns) :
    ∃ hs' visited, iterLoop removed turns hs (iterReset iter) = some (hs', visited) ∧ Sound h brk hs' ∧
      (visited : Multiset Addr) = hs.entries.map (·.addr) ∧
      hs'.entries = hs.entries.filter fun e => removed e.addr = false := by
  cases hslots : hs.slots with
  | none =>
    have hn : hs.numSlots = 0 := by
      by_contra hn
      exact hlive ⟨hslots, hn⟩
    have hnone := entries_none hslots
    obtain ⟨turns, rfl⟩ : ∃ n, turns = n + 1 := ⟨turns - 1, by omega⟩
    refine ⟨hs, [], ?_, hsound, by rw [hnone]; rfl, by rw [hnone]; rfl⟩
    rw [iterLoop, iterNext, if_neg (by simp [iterReset, iterStart, iterFinish]), if_pos hn]
    rfl
  | some slots =>
    have hall := entries_some hslots
    rw [← coe_chainsFrom] at hall
    have hahead : Ahead slots hs.numSlots (iterReset iter) (chainsFrom slots 0 hs.numSlots) :=
      .between _ 0 (by simp [iterReset, iterStart]) (Nat.zero_le _) (.inl rfl)
    rw [hall, Multiset.coe_card] at hturns
    obtain ⟨hs', hloop, hsound', hrest⟩ := iterLoop_spec removed turns hsound hslots hahead hturns
    refine ⟨hs', _, hloop, hsound', by rw [hall, Multiset.map_coe], ?_⟩
    rw [← hall] at hrest
    have hsplit := Multiset.filter_add_not (fun e : Entry δ => removed e.addr) hs.entries
    have hkept := add_left_cancel (hrest.trans hsplit.symm)
    simpa only [Bool.not_eq_true] using hkept

end

theorem iteration_visits_each_once (h : HashFuncs δ) (initSize : ℕ) (mem : Memory) (ops : List (Op δ)) (w : World δ)
    (events : List (Event δ)) (hrun : run h initSize mem ops = some (w, events)) (hlive : ¬ w.hs.Lost) (iter : Iter)
    (removed : Addr → Bool) (turns : ℕ) (hturns : w.hs.entries.card < turns) :
    ∃ hs' visited, iterLoop removed turns w.hs (iterReset iter) = some (hs', visited) ∧
      visited.Nodup ∧ (visited : Multiset Addr) = w.hs.entries.map (·.addr) ∧
      hs'.entries = (w.hs.entries.filter fun e => removed e.addr = false) ∧ hs'.numData = hs'.entries.card := by
  have hsound := (run_kept hrun).valid.sound
  obtain ⟨hs', visited, hloop, hsound', hvisited, hrest⟩ := iterLoop_reset hsound hlive iter removed hturns
  refine ⟨hs', visited, hloop, ?_, hvisited, hrest, ?_⟩
  · rw [← Multiset.coe_nodup, hvisited]
    exact hsound.addr_nodup
  · exact hsound'.numData_eq

-- The three entries share slot 0 of five; the chain loses its first and its last.
def threeInserts : List (Op (ℕ × ℕ)) :=
  [.insert (5, 50) ⟨true, true, true⟩, .insert (0, 70) ⟨true, true, true⟩, .insert (10, 51) ⟨true, true, true⟩]

theorem iteration_over_one_chain :
    ∃ w events hs' visited, run byKey 2 ⟨true, true, true⟩ threeInserts = some (w, events) ∧ w.hs.numSlots = 5 ∧
      iterLoop (fun addr => addr ≠ 1) 4 w.hs (iterReset ⟨0, none⟩) = some (hs', visited) ∧ visited.length = 3 ∧
      (hs'.entries = w.hs.entries.filter fun e => (e.addr ≠ 1 : Bool) = false) := by
  have hend : (run byKey 2 ⟨true, true, true⟩ threeInserts).map
      (fun s => (s.1.hs.numSlots, s.1.hs.numData, s.1.hs.slots.isSome)) = some (5, 3, true) := by decide +kernel
  obtain ⟨⟨w, events⟩, hrun, hres⟩ := Option.map_eq_some_iff.mp hend
  obtain ⟨hslots, hdata, halive⟩ : w.hs.numSlots = 5 ∧ w.hs.numData = 3 ∧ w.hs.slots.isSome = true := by
    simpa using hres
  have hlive : ¬ w.hs.Lost := fun hlost => by simp [hlost.1] at halive
  have hcard : w.hs.entries.card = 3 := by
    have hcount := (run_kept hrun).valid.sound.numData_eq
    rw [show (w, events).1.hs = w.hs from rfl] at hcount
    omega
  obtain ⟨hs', visited, hloop, _, hvisited, hrest, _⟩ := iteration_visits_each_once byKey 2 ⟨true, true, true⟩
    threeInserts w events hrun hlive ⟨0, none⟩ (fun addr => addr ≠ 1) 4 (by omega)
  refine ⟨w, events, hs', visited, hrun, hslots, hloop, ?_, hrest⟩
  rw [← Multiset.coe_card, hvisited, Multiset.card_map, hcard]

end Glaber.Algo.Hashset
