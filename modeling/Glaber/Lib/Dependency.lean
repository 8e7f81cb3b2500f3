import Glaber.Lib.Runs
import Mathlib.Logic.Function.DependsOn

/-! Values on a finite acyclic graph, each computed from the values it depends on, and their recomputation one by
one along the links that lead up from a changed value. -/

namespace Glaber.Lib.Dependency

variable {ι α : Type} {dep : ι → ι → Prop} {parents : ι → List ι} {f : (ι → α) → ι → α}

def Acyclic (dep : ι → ι → Prop) : Prop := ∀ v, ¬ Relation.TransGen dep v v

lemma Acyclic.irrefl (h : Acyclic dep) (v : ι) : ¬ dep v v := fun hv => h v (.single hv)

lemma Acyclic.of_rank (rank : ι → ℕ) (h : ∀ c p, dep c p → rank c < rank p) : Acyclic dep := by
  intro v hv
  have hlt : ∀ p, Relation.TransGen dep v p → rank v < rank p := by
    intro p hp
    induction hp with
    | single hdep => exact h _ _ hdep
    | tail _ hdep ih => exact ih.trans (h _ _ hdep)
  exact lt_irrefl _ (hlt v hv)

lemma Acyclic.swap (h : Acyclic dep) : Acyclic (Function.swap dep) :=
  fun v hv => h v (Relation.transGen_swap.mp hv)

lemma Acyclic.wellFounded [Finite ι] (h : Acyclic dep) : WellFounded dep := by
  have : Std.Irrefl (Relation.TransGen dep) := ⟨h⟩
  exact Subrelation.wf Relation.TransGen.single (Finite.wellFounded_of_trans_of_irrefl (Relation.TransGen dep))

def Local (dep : ι → ι → Prop) (f : (ι → α) → ι → α) : Prop := ∀ u, DependsOn (fun s => f s u) {c | dep c u}

def Settled (f : (ι → α) → ι → α) (s : ι → α) (u : ι) : Prop := s u = f s u

theorem settled_unique (hwf : WellFounded dep) (hf : Local dep f) {s s' : ι → α}
    (h : ∀ u, s u = s' u ∨ Settled f s u ∧ Settled f s' u) : s = s' := by
  funext u
  induction u using hwf.induction with
  | _ u ih =>
    rcases h u with heq | ⟨hs, hs'⟩
    · exact heq
    · calc s u = f s u := hs
        _ = f s' u := hf u ih
        _ = s' u := hs'.symm

section

variable {next : (ι → α) → ι → Option (ι → α)} {P : ι → Prop}

def Settles (f : (ι → α) → ι → α) (next : (ι → α) → ι → Option (ι → α)) : Prop :=
  ∀ s v s', next s v = some s' → ∀ u, u = v ∨ Settled f s u → Settled f s' u

lemma Settles.foldlM (h : Settles f next) {vs : List ι} {s s' : ι → α} (hrun : vs.foldlM next s = some s') {u : ι}
    (hu : u ∈ vs ∨ Settled f s u) : Settled f s' u := by
  induction vs generalizing s with
  | nil =>
    obtain rfl : s = s' := by simpa using hrun
    simpa using hu
  | cons v vs ih =>
    rw [List.foldlM_cons] at hrun
    obtain ⟨mid, hmid, hrest⟩ := Option.bind_eq_some_iff.mp hrun
    refine ih hrest ?_
    rcases hu with hu | hu
    · rcases List.mem_cons.mp hu with rfl | hu
      · exact .inr (h s u mid hmid u (.inl rfl))
      · exact .inl hu
    · exact .inr (h s v mid hmid u (.inr hu))

def Confined (P : ι → Prop) (next : (ι → α) → ι → Option (ι → α)) : Prop :=
  ∀ s v s', P v → next s v = some s' → ∀ u, ¬ P u → s' u = s u

lemma Confined.foldlM (h : Confined P next) {vs : List ι} (hvs : ∀ v ∈ vs, P v) {s s' : ι → α}
    (hrun : vs.foldlM next s = some s') {u : ι} (hu : ¬ P u) : s' u = s u := by
  induction vs generalizing s with
  | nil =>
    obtain rfl : s = s' := by simpa using hrun
    rfl
  | cons v vs ih =>
    obtain ⟨hv, hvs⟩ := List.forall_mem_cons.mp hvs
    rw [List.foldlM_cons] at hrun
    obtain ⟨mid, hmid, hrest⟩ := Option.bind_eq_some_iff.mp hrun
    rw [ih hvs hrest, h s v mid hv hmid u hu]

end

section

variable [DecidableEq ι]

lemma Settled.update (hf : Local dep f) {s : ι → α} {u v : ι} (hs : Settled f s u) (hne : u ≠ v) (hdep : ¬ dep v u)
    (x : α) : Settled f (Function.update s v x) u := by
  have hsame : f (Function.update s v x) u = f s u := by
    apply hf u
    intro c hc
    have hcv : c ≠ v := by
      rintro rfl
      exact hdep hc
    exact Function.update_of_ne hcv _ _
  rw [Settled, Function.update_of_ne hne, hsame]
  exact hs

lemma settled_recomputed (hf : Local dep f) (s : ι → α) {v : ι} (hdep : ¬ dep v v) :
    Settled f (Function.update s v (f s v)) v := by
  rw [Settled, Function.update_self]
  apply hf v
  intro c hc
  have hcv : c ≠ v := by
    rintro rfl
    exact hdep hc
  exact (Function.update_of_ne hcv _ _).symm

variable [DecidableEq α] {next : (ι → α) → ι → Option (ι → α)} {P : ι → Prop} {always : Bool}

def assign (next : (ι → α) → ι → Option (ι → α)) (parents : ι → List ι) (always : Bool) (s : ι → α) (v : ι) (x : α) :
    Option (ι → α) :=
  if s v ≠ x then (parents v).foldlM next (Function.update s v x)
  else if always then (parents v).foldlM next s
  else some s

def propagate (parents : ι → List ι) (f : (ι → α) → ι → α) (always : Bool) :
    ℕ → (ι → α) → ι → Option (ι → α)
  | 0, _, _ => none
  | fuel + 1, s, v => assign (propagate parents f always fuel) parents always s v (f s v)

lemma assign_isSome {v : ι} (h : ∀ p ∈ parents v, ∀ s, (next s p).isSome) (s : ι → α) (x : α) :
    (assign next parents always s v x).isSome := by
  rw [assign]
  split_ifs
  · exact Runs.foldlM_isSome h _
  · exact Runs.foldlM_isSome h _
  · rfl

theorem exists_fuel (hwf : WellFounded (Function.swap dep)) [Finite ι] : ∃ N, ∀ (parents : ι → List ι),
    (∀ c, ∀ p ∈ parents c, dep c p) → ∀ (f : (ι → α) → ι → α) always, ∀ fuel ≥ N, ∀ v s,
      (propagate parents f always fuel s v).isSome := by
  have hone : ∀ v, ∃ N, ∀ (parents : ι → List ι), (∀ c, ∀ p ∈ parents c, dep c p) →
      ∀ (f : (ι → α) → ι → α) always, ∀ fuel ≥ N, ∀ s, (propagate parents f always fuel s v).isSome := by
    intro v
    induction v using hwf.induction with
    | _ v ih =>
      choose! N hN using ih
      obtain ⟨M, hM⟩ := (Set.finite_range N).bddAbove
      refine ⟨M + 1, fun parents hpar f always fuel hfuel s => ?_⟩
      obtain ⟨fuel, rfl⟩ : ∃ k, fuel = k + 1 := ⟨fuel - 1, by omega⟩
      apply assign_isSome
      intro p hp
      have hle : N p ≤ M := hM ⟨p, rfl⟩
      exact hN p (hpar v p hp) parents hpar f always fuel (by omega)
  choose N hN using hone
  obtain ⟨M, hM⟩ := (Set.finite_range N).bddAbove
  refine ⟨M, fun parents hpar f always fuel hfuel v => ?_⟩
  have hle : N v ≤ M := hM ⟨v, rfl⟩
  exact hN v parents hpar f always fuel (by omega)

lemma assign_settles (hf : Local dep f) (hpar : ∀ c p, dep c p → p ∈ parents c) (hnext : Settles f next) {s s' : ι → α}
    {v : ι} {x : α} (hrun : assign next parents always s v x = some s') {u : ι} (hne : u ≠ v) (hu : Settled f s u) :
    Settled f s' u := by
  rw [assign] at hrun
  split_ifs at hrun
  · by_cases hdep : dep v u
    · exact hnext.foldlM hrun (.inl (hpar v u hdep))
    · exact hnext.foldlM hrun (.inr (hu.update hf hne hdep x))
  · exact hnext.foldlM hrun (.inr hu)
  · obtain rfl : s = s' := by simpa using hrun
    exact hu

lemma assign_settles_self (hf : Local dep f) (hnext : Settles f next) {s s' : ι → α} {v : ι} (hdep : ¬ dep v v)
    (hrun : assign next parents always s v (f s v) = some s') : Settled f s' v := by
  rw [assign] at hrun
  split_ifs at hrun with hchange
  · exact hnext.foldlM hrun (.inr (settled_recomputed hf s hdep))
  · exact hnext.foldlM hrun (.inr (not_not.mp hchange))
  · obtain rfl : s = s' := by simpa using hrun
    exact not_not.mp hchange

theorem propagate_settles (hf : Local dep f) (hacyclic : ∀ v, ¬ dep v v) (hpar : ∀ c p, dep c p → p ∈ parents c)
    (fuel : ℕ) : Settles f (propagate parents f always fuel) := by
  induction fuel with
  | zero =>
    intro s v s' hrun
    cases hrun
  | succ fuel ih =>
    intro s v s' hrun u hu
    by_cases huv : u = v
    · subst huv
      exact assign_settles_self hf ih (hacyclic u) hrun
    · exact assign_settles hf hpar ih hrun huv (hu.resolve_left huv)

omit [DecidableEq ι] [DecidableEq α] in
lemma foldlM_reaches {next : (ι → α) → ι → Option (ι → α)} (h : Settles f next)
    (hnext : ∀ s p s', next s p = some s' → ∀ u, Relation.ReflTransGen dep p u → Settled f s' u) {vs : List ι}
    {s s' : ι → α} (hrun : vs.foldlM next s = some s') {p u : ι} (hp : p ∈ vs) (hu : Relation.ReflTransGen dep p u) :
    Settled f s' u := by
  induction vs generalizing s with
  | nil => cases hp
  | cons v vs ih =>
    rw [List.foldlM_cons] at hrun
    obtain ⟨mid, hmid, hrest⟩ := Option.bind_eq_some_iff.mp hrun
    rcases List.mem_cons.mp hp with rfl | hp
    · exact h.foldlM hrest (.inr (hnext s p mid hmid u hu))
    · exact ih hrest hp

lemma assign_reaches (hpar : ∀ c p, dep c p → p ∈ parents c) (h : Settles f next)
    (hnext : ∀ s p s', next s p = some s' → ∀ u, Relation.ReflTransGen dep p u → Settled f s' u) {s s' : ι → α} {v : ι}
    {x : α} (hrun : assign next parents true s v x = some s') {u : ι} (hu : Relation.TransGen dep v u) :
    Settled f s' u := by
  obtain ⟨p, hdep, hup⟩ := Relation.TransGen.head'_iff.mp hu
  rw [assign, if_pos rfl] at hrun
  split at hrun <;> exact foldlM_reaches h hnext hrun (hpar v p hdep) hup

theorem propagate_reaches (hf : Local dep f) (hacyclic : ∀ v, ¬ dep v v) (hpar : ∀ c p, dep c p → p ∈ parents c)
    (fuel : ℕ) : ∀ s v s', propagate parents f true fuel s v = some s' →
      ∀ u, Relation.ReflTransGen dep v u → Settled f s' u := by
  induction fuel with
  | zero =>
    intro s v s' hrun
    cases hrun
  | succ fuel ih =>
    intro s v s' hrun u hu
    have hsettles : ∀ fuel, Settles f (propagate parents f true fuel) := propagate_settles hf hacyclic hpar
    rcases Relation.reflTransGen_iff_eq_or_transGen.mp hu with rfl | hu
    · exact hsettles (fuel + 1) s u s' hrun u (.inl rfl)
    · exact assign_reaches hpar (hsettles fuel) ih hrun hu

lemma assign_confined (hpar : ∀ c, ∀ p ∈ parents c, P p) (hnext : Confined P next) {s s' : ι → α} {v : ι} {x : α}
    (hrun : assign next parents always s v x = some s') {u : ι} (hu : ¬ P u) : s' u = Function.update s v x u := by
  rw [assign] at hrun
  split_ifs at hrun with hchange
  · exact hnext.foldlM (hpar v) hrun hu
  all_goals rw [← not_not.mp hchange, Function.update_eq_self]
  · exact hnext.foldlM (hpar v) hrun hu
  · obtain rfl : s = s' := by simpa using hrun
    rfl

theorem propagate_confined (hpar : ∀ c, ∀ p ∈ parents c, P p) (fuel : ℕ) :
    Confined P (propagate parents f always fuel) := by
  induction fuel with
  | zero =>
    intro s v s' _ hrun
    cases hrun
  | succ fuel ih =>
    intro s v s' hv hrun u hu
    rw [assign_confined hpar ih hrun hu]
    have hne : u ≠ v := by
      rintro rfl
      exact hu hv
    exact Function.update_of_ne hne _ _

end

end Glaber.Lib.Dependency
