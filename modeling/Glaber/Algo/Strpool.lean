import Glaber.Lib.Assoc

/-! The pool of shared strings (`strpool.c`): every text once, with the number of its holders. A pointer
into the pool is the text it leads to. -/

namespace Glaber.Algo

variable {τ : Type} [DecidableEq τ]

-- The counter is a `zbx_uint32_t`; the hash sets that hold the pointers index their entries with an `int`,
-- so fewer than 2^31 holders exist and it never wraps.
structure Strpool (τ : Type) [DecidableEq τ] where
  strs : AList fun _ : τ => ℕ

namespace Strpool

def init : Strpool τ := ⟨∅⟩

def intern (pool : Strpool τ) (str : τ) : Strpool τ :=
  match pool.strs.lookup str with
  | none => ⟨pool.strs.insert str 1⟩
  | some refcount => ⟨pool.strs.replace str (refcount + 1)⟩

/-- Nothing when the pointer does not lead to a counted record. -/
def release (pool : Strpool τ) (str : τ) : Option (Strpool τ) :=
  match pool.strs.lookup str with
  | none => none
  | some 0 => none
  | some (refcount + 1) =>
    if refcount = 0 then some ⟨pool.strs.erase str⟩ else some ⟨pool.strs.replace str refcount⟩

def Counts (pool : Strpool τ) (holders : τ → ℕ) : Prop :=
  ∀ str, pool.strs.lookup str = if holders str = 0 then none else some (holders str)

lemma init_counts : (init : Strpool τ).Counts fun _ => 0 := fun _ => rfl

variable {pool : Strpool τ} {holders holders' : τ → ℕ} {str : τ}

lemma Counts.congr (h : pool.Counts holders) (heq : ∀ t, holders' t = holders t) : pool.Counts holders' := by
  intro t
  rw [heq t]
  exact h t

lemma Counts.intern (h : pool.Counts holders)
    (hnew : ∀ t, holders' t = holders t + if t = str then 1 else 0) : (pool.intern str).Counts holders' := by
  intro t
  have hs := h str
  rw [Strpool.intern]
  by_cases ht : t = str
  · subst ht
    rw [hnew t, if_pos rfl, if_neg (by omega)]
    by_cases hz : holders t = 0
    · rw [if_pos hz] at hs
      simp [hs, hz]
    · rw [if_neg hz] at hs
      simp only [hs]
      exact Lib.Assoc.lookup_replace_self _ (Lib.Assoc.lookup_eq_some_mem hs)
  · rw [hnew t, if_neg ht, Nat.add_zero, ← h t]
    by_cases hz : holders str = 0
    · rw [if_pos hz] at hs
      simp only [hs]
      exact AList.lookup_insert_ne ht
    · rw [if_neg hz] at hs
      simp only [hs]
      exact Lib.Assoc.lookup_replace_ne ht _ _

lemma Counts.release (h : pool.Counts holders)
    (hold : ∀ t, holders t = holders' t + if t = str then 1 else 0) :
    ∃ pool', pool.release str = some pool' ∧ pool'.Counts holders' := by
  have hs := h str
  have hstr := hold str
  rw [if_pos rfl] at hstr
  rw [if_neg (by omega), hstr] at hs
  have hother : ∀ t, t ≠ str → holders' t = holders t := by
    intro t ht
    rw [hold t, if_neg ht, Nat.add_zero]
  by_cases hz : holders' str = 0
  · refine ⟨⟨pool.strs.erase str⟩, by simp [Strpool.release, hs, hz], fun t => ?_⟩
    by_cases ht : t = str
    · subst ht
      rw [if_pos hz]
      exact AList.lookup_erase _ _
    · rw [hother t ht, ← h t]
      exact AList.lookup_erase_ne ht
  · refine ⟨⟨pool.strs.replace str (holders' str)⟩, by simp [Strpool.release, hs, hz], fun t => ?_⟩
    by_cases ht : t = str
    · subst ht
      rw [if_neg hz]
      exact Lib.Assoc.lookup_replace_self _ (Lib.Assoc.lookup_eq_some_mem hs)
    · rw [hother t ht, ← h t]
      exact Lib.Assoc.lookup_replace_ne ht _ _

end Strpool

/-! The records of the pool of shared strings (`strpool.c`). -/

abbrev CString := List UInt8

/-- `malloc_func`: it may answer differently at every call, but never with `NULL` or with an address that is in use. -/
structure Malloc where
  address : (call : ℕ) → (live : List ℕ) → ℕ
  nonnull : ∀ call live, address call live ≠ 0
  fresh : ∀ call live, address call live ∉ live

def Malloc.bump : Malloc where
  address := fun _ live => live.foldr max 0 + 1
  nonnull := fun _ _ => Nat.succ_ne_zero _
  fresh := by
    intro _ live h
    have hle : live.foldr max 0 + 1 ≤ live.foldr max 0 := List.le_max_of_le h le_rfl
    exact absurd hle (Nat.not_succ_le_self _)

structure StrRecord where
  refcount : UInt32
  str : CString
deriving DecidableEq

structure StrRecords where
  strs : AList fun _ : ℕ => StrRecord
  calls : ℕ

namespace StrRecords

def init : StrRecords := ⟨∅, 0⟩

def search (pool : StrRecords) (str : CString) : Option ℕ :=
  (pool.strs.entries.find? fun e => e.2.str = str).map Sigma.fst

def acquire (pool : StrRecords) (ptr : ℕ) : Option StrRecords :=
  match pool.strs.lookup ptr with
  | none => none
  | some r => some { pool with strs := pool.strs.replace ptr { r with refcount := r.refcount + 1 } }

def insert (m : Malloc) (pool : StrRecords) (str : CString) : ℕ × StrRecords :=
  let ptr := m.address pool.calls pool.strs.keys
  (ptr, ⟨pool.strs.insert ptr ⟨0, str⟩, pool.calls + 1⟩)

def intern (m : Malloc) (pool : StrRecords) : Option CString → Option (ℕ × StrRecords)
  | none => some (0, pool)
  | some str =>
    match pool.search str with
    | some ptr => (pool.acquire ptr).map (ptr, ·)
    | none =>
      let (ptr, pool) := pool.insert m str
      (pool.acquire ptr).map (ptr, ·)

def release (pool : StrRecords) (ptr : ℕ) : Option StrRecords :=
  if ptr = 0 then some pool
  else match pool.strs.lookup ptr with
    | none => none
    | some r =>
      if r.refcount - 1 = 0 then some { pool with strs := pool.strs.erase ptr }
      else some { pool with strs := pool.strs.replace ptr { r with refcount := r.refcount - 1 } }

def At (pool : StrRecords) (ptr : ℕ) (str : CString) : Prop := ∃ r, pool.strs.lookup ptr = some r ∧ r.str = str

structure Counts (pool : StrRecords) (holders : CString → ℕ) : Prop where
  refs : ∀ ptr r, pool.strs.lookup ptr = some r → r.refcount.toNat = holders r.str ∧ holders r.str ≠ 0
  held : ∀ str, holders str ≠ 0 → ∃ ptr, pool.At ptr str
  unique : ∀ ptr ptr' str, pool.At ptr str → pool.At ptr' str → ptr = ptr'
  nonnull : ∀ ptr str, pool.At ptr str → ptr ≠ 0

lemma init_counts : init.Counts fun _ => 0 where
  refs := by intro ptr r h; cases h
  held := fun _ h => absurd rfl h
  unique := by rintro ptr ptr' str ⟨r, h, -⟩; cases h
  nonnull := by rintro ptr str ⟨r, h, -⟩; cases h

variable {pool : StrRecords} {holders holders' : CString → ℕ} {ptr : ℕ} {str : CString}

lemma At.text {str' : CString} (h : pool.At ptr str) (h' : pool.At ptr str') : str = str' := by
  obtain ⟨r, hr, rfl⟩ := h
  obtain ⟨r', hr', rfl⟩ := h'
  obtain rfl : r = r' := Option.some.inj (hr.symm.trans hr')
  rfl

lemma search_some (h : pool.search str = some ptr) : pool.At ptr str := by
  obtain ⟨⟨p, r⟩, hfind, rfl⟩ := Option.map_eq_some_iff.mp h
  exact ⟨r, AList.mem_lookup_iff.mpr (List.mem_of_find?_eq_some hfind), by simpa using List.find?_some hfind⟩

lemma search_none (h : pool.search str = none) (ptr : ℕ) : ¬ pool.At ptr str := by
  rintro ⟨r, hr, rfl⟩
  have hnone := List.find?_eq_none.mp (Option.map_eq_none_iff.mp h) ⟨ptr, r⟩ (AList.mem_lookup_iff.mp hr)
  exact hnone (by simp)

lemma at_replace {r : StrRecord} (hr : pool.strs.lookup ptr = some r) (refcount : UInt32) (calls : ℕ) (q : ℕ) (t : CString) :
    At ⟨pool.strs.replace ptr { r with refcount := refcount }, calls⟩ q t ↔ pool.At q t := by
  by_cases hq : q = ptr
  · subst hq
    rw [At, At, Lib.Assoc.lookup_replace_self _ (Lib.Assoc.lookup_eq_some_mem hr), hr]
    simp
  · rw [At, At, Lib.Assoc.lookup_replace_ne hq]

lemma Counts.replace {r : StrRecord} {refcount : UInt32} (h : pool.Counts holders) (hr : pool.strs.lookup ptr = some r)
    (hne : holders' r.str ≠ 0) (hcount : refcount.toNat = holders' r.str)
    (hother : ∀ t, t ≠ r.str → holders' t = holders t) (calls : ℕ) :
    Counts ⟨pool.strs.replace ptr { r with refcount := refcount }, calls⟩ holders' where
  refs := by
    intro q r' hr'
    by_cases hq : q = ptr
    · subst hq
      rw [Lib.Assoc.lookup_replace_self _ (Lib.Assoc.lookup_eq_some_mem hr)] at hr'
      obtain rfl := Option.some.inj hr'
      exact ⟨hcount, hne⟩
    · rw [Lib.Assoc.lookup_replace_ne hq] at hr'
      have htext : r'.str ≠ r.str := fun heq => hq (h.unique q ptr r'.str ⟨r', hr', rfl⟩ ⟨r, hr, heq.symm⟩)
      rw [hother _ htext]
      exact h.refs q r' hr'
  held := by
    intro t ht
    by_cases htext : t = r.str
    · exact ⟨ptr, (at_replace hr refcount calls ptr t).mpr ⟨r, hr, htext.symm⟩⟩
    · rw [hother t htext] at ht
      obtain ⟨q, hq⟩ := h.held t ht
      exact ⟨q, (at_replace hr refcount calls q t).mpr hq⟩
  unique := by
    intro q q' t hq hq'
    exact h.unique q q' t ((at_replace hr refcount calls q t).mp hq) ((at_replace hr refcount calls q' t).mp hq')
  nonnull := by
    intro q t hq
    exact h.nonnull q t ((at_replace hr refcount calls q t).mp hq)

lemma Counts.acquire (h : pool.Counts holders) (hat : pool.At ptr str) (hfits : holders str + 1 < 4294967296)
    (hnew : ∀ t, holders' t = holders t + if t = str then 1 else 0) :
    ∃ pool', pool.acquire ptr = some pool' ∧ pool'.Counts holders' ∧ ∀ q t, pool'.At q t ↔ pool.At q t := by
  obtain ⟨r, hr, rfl⟩ := hat
  have hcount := (h.refs ptr r hr).1
  have hself := hnew r.str
  rw [if_pos rfl] at hself
  have hsucc : (r.refcount + 1).toNat = holders' r.str := by
    rw [UInt32.toNat_add, hcount, hself]
    exact Nat.mod_eq_of_lt hfits
  refine ⟨_, by rw [StrRecords.acquire, hr], ?_, ?_⟩
  · apply h.replace hr (by omega) hsucc
    intro t ht
    rw [hnew t, if_neg ht, Nat.add_zero]
  · exact at_replace hr _ _

lemma insert_acquire (m : Malloc) (pool : StrRecords) (str : CString) :
    (pool.insert m str).2.acquire (pool.insert m str).1 =
      some ⟨(pool.strs.insert (pool.insert m str).1 ⟨0, str⟩).replace (pool.insert m str).1 ⟨0 + 1, str⟩, pool.calls + 1⟩ := by
  rw [StrRecords.acquire, insert, AList.lookup_insert]

lemma Counts.insert (h : pool.Counts holders) (m : Malloc) (hnone : ∀ q, ¬ pool.At q str)
    (hnew : ∀ t, holders' t = holders t + if t = str then 1 else 0) :
    ∃ pool', (pool.insert m str).2.acquire (pool.insert m str).1 = some pool' ∧ pool'.Counts holders' ∧
      pool'.At (pool.insert m str).1 str ∧ ∀ q t, pool.At q t → pool'.At q t := by
  obtain ⟨p, hp⟩ : ∃ p, (pool.insert m str).1 = p := ⟨_, rfl⟩
  have hfresh : p ∉ pool.strs := hp ▸ m.fresh pool.calls pool.strs.keys
  have hzero : holders str = 0 := by
    by_contra hne
    obtain ⟨q, hq⟩ := h.held str hne
    exact hnone q hq
  have hself := hnew str
  rw [if_pos rfl, hzero] at hself
  have hlookup : ∀ q r, ((pool.strs.insert p ⟨0, str⟩).replace p ⟨0 + 1, str⟩).lookup q = some r ↔
      (q = p ∧ r = ⟨0 + 1, str⟩) ∨ pool.strs.lookup q = some r := by
    intro q r
    by_cases hq : q = p
    · subst hq
      have hmem : q ∈ pool.strs.insert q ⟨0, str⟩ := AList.mem_insert _ |>.mpr (.inl rfl)
      rw [Lib.Assoc.lookup_replace_self _ hmem, AList.lookup_eq_none.mpr hfresh]
      simp [eq_comm]
    · rw [Lib.Assoc.lookup_replace_ne hq, AList.lookup_insert_ne hq]
      simp [hq]
  have hat : ∀ q t, At ⟨(pool.strs.insert p ⟨0, str⟩).replace p ⟨0 + 1, str⟩, pool.calls + 1⟩ q t ↔
      (q = p ∧ t = str) ∨ pool.At q t := by
    intro q t
    constructor
    · rintro ⟨r, hr, rfl⟩
      rcases (hlookup q r).mp hr with ⟨rfl, rfl⟩ | hr
      · exact .inl ⟨rfl, rfl⟩
      · exact .inr ⟨r, hr, rfl⟩
    · rintro (⟨rfl, rfl⟩ | ⟨r, hr, rfl⟩)
      · exact ⟨_, (hlookup q _).mpr (.inl ⟨rfl, rfl⟩), rfl⟩
      · exact ⟨r, (hlookup q r).mpr (.inr hr), rfl⟩
  rw [insert_acquire, hp]
  refine ⟨_, rfl, ⟨?_, ?_, ?_, ?_⟩, (hat p str).mpr (.inl ⟨rfl, rfl⟩), fun q t hq => (hat q t).mpr (.inr hq)⟩
  · intro q r hr
    rcases (hlookup q r).mp hr with ⟨rfl, rfl⟩ | hr
    · exact ⟨hself.symm, by rw [hself]; omega⟩
    · have htext : r.str ≠ str := fun heq => hnone q ⟨r, hr, heq⟩
      rw [hnew r.str, if_neg htext, Nat.add_zero]
      exact h.refs q r hr
  · intro t ht
    by_cases htext : t = str
    · exact ⟨p, (hat p t).mpr (.inl ⟨rfl, htext⟩)⟩
    · rw [hnew t, if_neg htext, Nat.add_zero] at ht
      obtain ⟨q, hq⟩ := h.held t ht
      exact ⟨q, (hat q t).mpr (.inr hq)⟩
  · intro q q' t hq hq'
    rcases (hat q t).mp hq with ⟨rfl, rfl⟩ | hin
    · rcases (hat q' t).mp hq' with ⟨rfl, -⟩ | hin'
      · rfl
      · exact absurd hin' (hnone q')
    · rcases (hat q' t).mp hq' with ⟨rfl, rfl⟩ | hin'
      · exact absurd hin (hnone q)
      · exact h.unique q q' t hin hin'
  · intro q t hq
    rcases (hat q t).mp hq with ⟨rfl, -⟩ | hq
    · rw [← hp]
      exact m.nonnull _ _
    · exact h.nonnull q t hq

lemma Counts.intern (h : pool.Counts holders) (m : Malloc) (hfits : holders str + 1 < 4294967296)
    (hnew : ∀ t, holders' t = holders t + if t = str then 1 else 0) :
    ∃ ptr pool', pool.intern m (some str) = some (ptr, pool') ∧ pool'.Counts holders' ∧ pool'.At ptr str ∧
      ∀ q t, pool.At q t → pool'.At q t := by
  rw [StrRecords.intern]
  cases hsearch : pool.search str with
  | some ptr =>
    have hat := search_some hsearch
    obtain ⟨pool', hrun, hcounts, hsame⟩ := h.acquire hat hfits hnew
    refine ⟨ptr, pool', ?_, hcounts, (hsame ptr str).mpr hat, fun q t hq => (hsame q t).mpr hq⟩
    dsimp only
    rw [hrun]
    rfl
  | none =>
    obtain ⟨pool', hrun, hcounts, hat, hkeep⟩ := h.insert m (search_none hsearch) hnew
    refine ⟨_, pool', ?_, hcounts, hat, hkeep⟩
    dsimp only
    rw [hrun]
    rfl

lemma Counts.release (h : pool.Counts holders) (hat : pool.At ptr str)
    (hold : ∀ t, holders t = holders' t + if t = str then 1 else 0) :
    ∃ pool', pool.release ptr = some pool' ∧ pool'.Counts holders' ∧
      ∀ q t, holders' t ≠ 0 → pool.At q t → pool'.At q t := by
  have hnull := h.nonnull ptr str hat
  obtain ⟨r, hr, rfl⟩ := hat
  have hcount := (h.refs ptr r hr).1
  have hself := hold r.str
  rw [if_pos rfl] at hself
  have hother : ∀ t, t ≠ r.str → holders' t = holders t := by
    intro t ht
    rw [hold t, if_neg ht, Nat.add_zero]
  have hpred : (r.refcount - 1).toNat = holders' r.str := by
    rw [UInt32.toNat_sub_of_le r.refcount 1 (by rw [UInt32.le_iff_toNat_le]; simp; omega), hcount, hself]
    simp
  rw [StrRecords.release, if_neg hnull, hr]
  dsimp only
  by_cases hz : holders' r.str = 0
  · have hzero : r.refcount - 1 = 0 := UInt32.toNat_inj.mp (hpred.trans hz)
    rw [if_pos hzero]
    have hlookup : ∀ q r', (pool.strs.erase ptr).lookup q = some r' ↔ q ≠ ptr ∧ pool.strs.lookup q = some r' := by
      intro q r'
      by_cases hq : q = ptr
      · subst hq
        simp
      · rw [AList.lookup_erase_ne hq]
        simp [hq]
    have hat' : ∀ q t, At ⟨pool.strs.erase ptr, pool.calls⟩ q t ↔ q ≠ ptr ∧ pool.At q t := by
      intro q t
      simp only [At, hlookup]
      tauto
    refine ⟨_, rfl, ⟨?_, ?_, ?_, ?_⟩, ?_⟩
    · intro q r' hr'
      obtain ⟨hq, hr'⟩ := (hlookup q r').mp hr'
      have htext : r'.str ≠ r.str := fun heq => hq (h.unique q ptr r'.str ⟨r', hr', rfl⟩ ⟨r, hr, heq.symm⟩)
      rw [hother _ htext]
      exact h.refs q r' hr'
    · intro t ht
      have htext : t ≠ r.str := fun heq => ht (heq ▸ hz)
      rw [hother t htext] at ht
      obtain ⟨q, hq⟩ := h.held t ht
      refine ⟨q, (hat' q t).mpr ⟨?_, hq⟩⟩
      rintro rfl
      exact htext (hq.text ⟨r, hr, rfl⟩)
    · intro q q' t hq hq'
      exact h.unique q q' t ((hat' q t).mp hq).2 ((hat' q' t).mp hq').2
    · intro q t hq
      exact h.nonnull q t ((hat' q t).mp hq).2
    · intro q t ht hq
      refine (hat' q t).mpr ⟨?_, hq⟩
      rintro rfl
      obtain rfl := hq.text ⟨r, hr, rfl⟩
      exact ht hz
  · have hne : r.refcount - 1 ≠ 0 := by
      intro heq
      rw [heq] at hpred
      exact hz hpred.symm
    rw [if_neg hne]
    exact ⟨_, rfl, h.replace hr hz hpred hother _, fun q t _ hq => (at_replace hr _ _ q t).mpr hq⟩

lemma Counts.empty (h : pool.Counts holders) (hzero : ∀ t, holders t = 0) : pool.strs = ∅ := by
  apply AList.ext
  refine List.eq_nil_iff_forall_not_mem.mpr ?_
  rintro ⟨p, r⟩ hmem
  exact (h.refs p r (AList.mem_lookup_iff.mpr hmem)).2 (hzero _)

end StrRecords

end Glaber.Algo
