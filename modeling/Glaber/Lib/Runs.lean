import Mathlib.Tactic

/-! Runs of an event-driven machine, with the events already consumed kept beside every
transition, and the rule that derives a property of all transitions from one step. -/

namespace Glaber.Lib.Runs

variable {σ ε : Type}

structure Transition (σ ε : Type) where
  past : List ε
  source : σ
  event : ε
  target : σ

def transitionsFrom (step : σ → ε → σ) : List ε → σ → List ε → List (Transition σ ε)
  | _, _, [] => []
  | past, s, e :: es => ⟨past, s, e, step s e⟩ :: transitionsFrom step (past ++ [e]) (step s e) es

def transitions (step : σ → ε → σ) (s : σ) (es : List ε) : List (Transition σ ε) :=
  transitionsFrom step [] s es

lemma transitionsFrom_rule {step : σ → ε → σ} (I : List ε → σ → Prop) {C Q : Transition σ ε → Prop}
    (hstep : ∀ past s e, I past s → C ⟨past, s, e, step s e⟩ →
      I (past ++ [e]) (step s e) ∧ Q ⟨past, s, e, step s e⟩)
    (es : List ε) (past : List ε) (s : σ) (hi : I past s)
    (hc : ∀ t ∈ transitionsFrom step past s es, C t) :
    ∀ t ∈ transitionsFrom step past s es, Q t := by
  induction es generalizing past s with
  | nil => simp [transitionsFrom]
  | cons e es ih =>
    simp only [transitionsFrom, List.forall_mem_cons] at hc ⊢
    obtain ⟨hn, hq⟩ := hstep past s e hi hc.1
    exact ⟨hq, ih _ _ hn hc.2⟩

theorem transitions_rule {step : σ → ε → σ} (I : List ε → σ → Prop) {C Q : Transition σ ε → Prop}
    {s : σ} {es : List ε} (h₀ : I [] s)
    (hstep : ∀ past s e, I past s → C ⟨past, s, e, step s e⟩ →
      I (past ++ [e]) (step s e) ∧ Q ⟨past, s, e, step s e⟩)
    (hc : ∀ t ∈ transitions step s es, C t) : ∀ t ∈ transitions step s es, Q t :=
  transitionsFrom_rule I hstep es [] s h₀ hc

theorem transitions_iff {step : σ → ε → σ} (I : List ε → σ → Prop) {C Q : Transition σ ε → Prop}
    {s : σ} {es : List ε} (h₀ : I [] s)
    (hstep : ∀ past s e, I past s → (Q ⟨past, s, e, step s e⟩ ↔ C ⟨past, s, e, step s e⟩) ∧
      (Q ⟨past, s, e, step s e⟩ → I (past ++ [e]) (step s e))) :
    (∀ t ∈ transitions step s es, Q t) ↔ ∀ t ∈ transitions step s es, C t := by
  constructor
  · refine transitions_rule (C := Q) (Q := C) I h₀ ?_
    intro past s e hi hq
    exact ⟨(hstep past s e hi).2 hq, (hstep past s e hi).1.mp hq⟩
  · refine transitions_rule I h₀ ?_
    intro past s e hi hc
    have hq := (hstep past s e hi).1.mpr hc
    exact ⟨(hstep past s e hi).2 hq, hq⟩

theorem foldlM_rule_of_mem {step : σ → ε → Option σ} (I : List ε → σ → Prop) (es : List ε)
    (hstep : ∀ past s, ∀ e ∈ es, ∀ s', I past s → step s e = some s' → I (past ++ [e]) s')
    {past : List ε} {s s' : σ} (hi : I past s) (hrun : es.foldlM step s = some s') : I (past ++ es) s' := by
  induction es generalizing past s with
  | nil =>
    obtain rfl : s = s' := by simpa using hrun
    simpa using hi
  | cons e es ih =>
    rw [List.foldlM_cons] at hrun
    obtain ⟨mid, hmid, hrest⟩ := Option.bind_eq_some_iff.mp hrun
    have hmid' := hstep past s e List.mem_cons_self mid hi hmid
    have := ih (fun past s e he => hstep past s e (List.mem_cons_of_mem _ he)) hmid' hrest
    rwa [List.append_assoc] at this

theorem foldlM_rule {step : σ → ε → Option σ} (I : List ε → σ → Prop)
    (hstep : ∀ past s e s', I past s → step s e = some s' → I (past ++ [e]) s')
    (es : List ε) {past : List ε} {s s' : σ} (hi : I past s) (hrun : es.foldlM step s = some s') :
    I (past ++ es) s' :=
  foldlM_rule_of_mem I es (fun past s e _ => hstep past s e) hi hrun

theorem foldlM_total_of_mem {step : σ → ε → Option σ} (I : List ε → σ → Prop) (es : List ε)
    (hstep : ∀ past s, ∀ e ∈ es, I past s → ∃ s', step s e = some s' ∧ I (past ++ [e]) s') {past : List ε} {s : σ}
    (hi : I past s) : ∃ s', es.foldlM step s = some s' ∧ I (past ++ es) s' := by
  induction es generalizing past s with
  | nil => exact ⟨s, rfl, by rwa [List.append_nil]⟩
  | cons e es ih =>
    obtain ⟨mid, hmid, hi'⟩ := hstep past s e List.mem_cons_self hi
    obtain ⟨s', hrun, hend⟩ := ih (fun past s e he => hstep past s e (List.mem_cons_of_mem _ he)) hi'
    refine ⟨s', by rwa [List.foldlM_cons, hmid], ?_⟩
    rwa [List.append_assoc] at hend

theorem foldlM_total {step : σ → ε → Option σ} (I : List ε → σ → Prop)
    (hstep : ∀ past s e, I past s → ∃ s', step s e = some s' ∧ I (past ++ [e]) s') (es : List ε) {past : List ε} {s : σ}
    (hi : I past s) : ∃ s', es.foldlM step s = some s' ∧ I (past ++ es) s' :=
  foldlM_total_of_mem I es (fun past s e _ => hstep past s e) hi

lemma foldlM_isSome {step : σ → ε → Option σ} {es : List ε} (h : ∀ e ∈ es, ∀ s, (step s e).isSome) (s : σ) :
    (es.foldlM step s).isSome := by
  induction es generalizing s with
  | nil => rfl
  | cons e es ih =>
    obtain ⟨he, hes⟩ := List.forall_mem_cons.mp h
    obtain ⟨s', hs'⟩ := Option.isSome_iff_exists.mp (he s)
    rw [List.foldlM_cons, hs']
    exact ih hes s'

def AllMeet (step : σ → ε → Option σ) (C : σ → ε → Prop) : σ → List ε → Prop
  | _, [] => True
  | s, e :: es => C s e ∧ ∀ s', step s e = some s' → AllMeet step C s' es

lemma foldlM_allMeet {step : σ → ε → Option σ} {C : σ → ε → Prop} (I : σ → Prop)
    (hstep : ∀ s e, I s → (C s e → ∃ s', step s e = some s' ∧ I s') ∧ (¬C s e → step s e = none)) (es : List ε) {s : σ}
    (hi : I s) : (AllMeet step C s es → ∃ s', es.foldlM step s = some s' ∧ I s') ∧
      (¬AllMeet step C s es → es.foldlM step s = none) := by
  induction es generalizing s with
  | nil => exact ⟨fun _ => ⟨s, rfl, hi⟩, fun h => absurd trivial h⟩
  | cons e es ih =>
    obtain ⟨hsome, hnone⟩ := hstep s e hi
    rw [List.foldlM_cons, AllMeet]
    by_cases hmeets : C s e
    · obtain ⟨mid, hmid, hi'⟩ := hsome hmeets
      have hrest : (C s e ∧ ∀ s', step s e = some s' → AllMeet step C s' es) ↔ AllMeet step C mid es := by
        refine ⟨fun h => h.2 mid hmid, fun h => ⟨hmeets, fun s' hs' => ?_⟩⟩
        rwa [← Option.some.inj (hmid.symm.trans hs')]
      rw [hrest, hmid]
      exact ih hi'
    · rw [hnone hmeets]
      exact ⟨fun h => absurd h.1 hmeets, fun _ => rfl⟩

lemma allMeet_congr {step : σ → ε → Option σ} {C C' : σ → ε → Prop} (I : σ → Prop)
    (hcongr : ∀ s e, I s → (C s e ↔ C' s e)) (hkeep : ∀ s e s', I s → step s e = some s' → I s') (es : List ε) {s : σ}
    (hi : I s) : AllMeet step C s es ↔ AllMeet step C' s es := by
  induction es generalizing s with
  | nil => exact Iff.rfl
  | cons e es ih =>
    rw [AllMeet, AllMeet, hcongr s e hi]
    exact and_congr_right fun _ => forall₂_congr fun s' hs' => ih (hkeep s e s' hi hs')

lemma foldlM_isSome_of_allMeet {step : σ → ε → Option σ} {C : σ → ε → Prop} (hsome : ∀ s e, C s e → (step s e).isSome)
    (es : List ε) {s : σ} (h : AllMeet step C s es) : (es.foldlM step s).isSome := by
  induction es generalizing s with
  | nil => rfl
  | cons e es ih =>
    obtain ⟨s', hs'⟩ := Option.isSome_iff_exists.mp (hsome s e h.1)
    rw [List.foldlM_cons, hs']
    exact ih (h.2 s' hs')

lemma foldlM_view {σ' : Type} {step : σ → ε → Option σ} {step' : σ' → ε → Option σ'} (view : σ → σ')
    (hstep : ∀ s e, (step s e).map view = step' (view s) e) (es : List ε) (s : σ) :
    (es.foldlM step s).map view = es.foldlM step' (view s) := by
  induction es generalizing s with
  | nil => rfl
  | cons e es ih =>
    rw [List.foldlM_cons, List.foldlM_cons, ← hstep]
    cases step s e with
    | none => rfl
    | some mid => exact ih mid

section

variable {α : Type} {step : σ → ε → σ} {update : σ → ε → α → α}

def follow (step : σ → ε → σ) (update : σ → ε → α → α) : σ → α → List ε → α
  | _, a, [] => a
  | s, a, e :: es => follow step update (step s e) (update s e a) es

lemma follow_rule_of_mem {R : σ → α → Prop} (es : List ε) (hstep : ∀ s, ∀ e ∈ es, ∀ a, R s a → R (step s e) (update s e a))
    {s : σ} {a : α} (h : R s a) : R (es.foldl step s) (follow step update s a es) := by
  induction es generalizing s a with
  | nil => exact h
  | cons e es ih =>
    exact ih (fun s e' he' => hstep s e' (List.mem_cons_of_mem _ he')) (hstep s e List.mem_cons_self a h)

lemma follow_rule {R : σ → α → Prop} (hstep : ∀ s e a, R s a → R (step s e) (update s e a)) (es : List ε) {s : σ} {a : α}
    (h : R s a) : R (es.foldl step s) (follow step update s a es) :=
  follow_rule_of_mem es (fun s e _ => hstep s e) h

end

section

def Since (P Q : ε → Prop) (events : List ε) : Prop :=
  ∃ past e later, events = past ++ e :: later ∧ P e ∧ ∀ e' ∈ later, ¬ Q e'

variable {P Q : ε → Prop}

lemma not_since_nil : ¬ Since P Q [] := by
  rintro ⟨past, e, later, heq, _⟩
  simp at heq

lemma since_snoc {events : List ε} {e : ε} : Since P Q (events ++ [e]) ↔ P e ∨ (Since P Q events ∧ ¬ Q e) := by
  constructor
  · rintro ⟨past, e', later, heq, hp, hlater⟩
    rcases List.eq_nil_or_concat later with rfl | ⟨later, last, rfl⟩
    · obtain ⟨-, hlast⟩ := List.append_inj' heq rfl
      obtain rfl : e = e' := by simpa using hlast
      exact .inl hp
    · rw [List.concat_eq_append, ← List.cons_append, ← List.append_assoc] at heq
      obtain ⟨rfl, hlast⟩ := List.append_inj' heq rfl
      obtain rfl : e = last := by simpa using hlast
      exact .inr ⟨⟨past, e', later, rfl, hp, fun x hx => hlater x (by simp [hx])⟩, hlater e (by simp)⟩
  · rintro (hp | ⟨⟨past, e', later, rfl, hp, hlater⟩, hlast⟩)
    · exact ⟨events, e, [], rfl, hp, by simp⟩
    · refine ⟨past, e', later ++ [e], by simp, hp, ?_⟩
      intro x hx
      rcases List.mem_append.mp hx with hx | hx
      · exact hlater x hx
      · obtain rfl : x = e := by simpa using hx
        exact hlast

end

end Glaber.Lib.Runs
