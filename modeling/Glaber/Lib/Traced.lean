import Mathlib.Tactic

/-! Computations that may fail, that move a state, and that leave a record of what they touched. -/

namespace Glaber.Lib

def Traced (σ τ ε α : Type) : Type := σ → Except ε α × σ × List τ

namespace Traced

variable {σ τ ε α β : Type}

instance : Monad (Traced σ τ ε) where
  pure a := fun s => (.ok a, s, [])
  bind m f := fun s =>
    match m s with
    | (.ok a, s', record) => let (res, s'', rest) := f a s'; (res, s'', record ++ rest)
    | (.error e, s', record) => (.error e, s', record)

def get : Traced σ τ ε σ := fun s => (.ok s, s, [])

def set (s : σ) : Traced σ τ ε Unit := fun _ => (.ok (), s, [])

def note (e : τ) : Traced σ τ ε Unit := fun s => (.ok (), s, [e])

def fail (e : ε) : Traced σ τ ε α := fun s => (.error e, s, [])

def mapError (f : σ → ε → ε) (m : Traced σ τ ε α) : Traced σ τ ε α := fun s =>
  match m s with
  | (.error e, s', record) => (.error (f s' e), s', record)
  | res => res

def Safe (ok : τ → Prop) (m : Traced σ τ ε α) (s : σ) : Prop := ∀ e ∈ (m s).2.2, ok e

def Ends (m : Traced σ τ ε α) (s : σ) (a : α) (s' : σ) : Prop := (m s).1 = .ok a ∧ (m s).2.1 = s'

instance [DecidableEq σ] [DecidableEq ε] [DecidableEq α] (m : Traced σ τ ε α) (s : σ) (a : α) (s' : σ) :
    Decidable (Ends m s a s') := inferInstanceAs (Decidable (_ ∧ _))

variable {ok : τ → Prop} {s s' : σ} {m : Traced σ τ ε α} {f : α → Traced σ τ ε β}

lemma Ends.det {a a' : α} {t t' : σ} (h : Ends m s a t) (h' : Ends m s a' t') : a = a' ∧ t = t' :=
  ⟨Except.ok.inj (h.1.symm.trans h'.1), h.2.symm.trans h'.2⟩

@[simp] lemma safe_pure (a : α) : Safe ok (pure a : Traced σ τ ε α) s ↔ True := by
  simp [Safe, pure]

@[simp] lemma safe_get : Safe ok (get : Traced σ τ ε σ) s ↔ True := by
  simp [Safe, get]

@[simp] lemma safe_set (t : σ) : Safe ok (set t : Traced σ τ ε Unit) s ↔ True := by
  simp [Safe, set]

@[simp] lemma safe_fail (e : ε) : Safe ok (fail e : Traced σ τ ε α) s ↔ True := by
  simp [Safe, fail]

@[simp] lemma safe_note (e : τ) : Safe ok (note e : Traced σ τ ε Unit) s ↔ ok e := by
  simp [Safe, note]

@[simp] lemma safe_mapError (g : σ → ε → ε) : Safe ok (mapError g m) s ↔ Safe ok m s := by
  simp only [Safe, mapError]
  rcases m s with ⟨res, t, record⟩
  cases res <;> rfl

lemma safe_bind : Safe ok (m >>= f) s ↔ Safe ok m s ∧ ∀ a s', Ends m s a s' → Safe ok (f a) s' := by
  simp only [Safe, Ends, bind]
  rcases m s with ⟨res, t, record⟩
  cases res with
  | error e => simp
  | ok a =>
    simp only [List.mem_append, Except.ok.injEq]
    constructor
    · intro h
      refine ⟨fun e he => h e (.inl he), ?_⟩
      rintro a' s' ⟨rfl, rfl⟩ e he
      exact h e (.inr he)
    · rintro ⟨hl, hr⟩ e (he | he)
      · exact hl e he
      · exact hr a t ⟨rfl, rfl⟩ e he

@[simp] lemma ends_pure (a b : α) : Ends (pure a : Traced σ τ ε α) s b s' ↔ a = b ∧ s = s' := by
  simp [Ends, pure]

@[simp] lemma ends_get (t : σ) : Ends (get : Traced σ τ ε σ) s t s' ↔ s = t ∧ s = s' := by
  simp [Ends, get]

@[simp] lemma ends_set (t : σ) (u : Unit) : Ends (set t : Traced σ τ ε Unit) s u s' ↔ t = s' := by
  simp [Ends, set]

@[simp] lemma ends_note (e : τ) (u : Unit) : Ends (note e : Traced σ τ ε Unit) s u s' ↔ s = s' := by
  simp [Ends, note]

@[simp] lemma ends_fail (e : ε) (a : α) : Ends (fail e : Traced σ τ ε α) s a s' ↔ False := by
  simp [Ends, fail]

@[simp] lemma ends_mapError (g : σ → ε → ε) (a : α) : Ends (mapError g m) s a s' ↔ Ends m s a s' := by
  simp only [Ends, mapError]
  rcases m s with ⟨res, t, record⟩
  cases res <;> simp

lemma ends_bind {b : β} : Ends (m >>= f) s b s' ↔ ∃ a t, Ends m s a t ∧ Ends (f a) t b s' := by
  simp only [Ends, bind]
  rcases m s with ⟨res, t, record⟩
  cases res with
  | error e => simp
  | ok a => simp

section

variable {u : σ} {e : τ} {g : Unit → Traced σ τ ε β} {k : σ → Traced σ τ ε β} {b : β}

@[simp] lemma safe_get_bind : Safe ok (get >>= k) s ↔ Safe ok (k s) s := by
  simp [safe_bind]

@[simp] lemma safe_set_bind : Safe ok (set u >>= g) s ↔ Safe ok (g ()) u := by
  simp [safe_bind, Unique.forall_iff]

@[simp] lemma safe_note_bind : Safe ok (note e >>= g) s ↔ ok e ∧ Safe ok (g ()) s := by
  simp [safe_bind, Unique.forall_iff]

@[simp] lemma ends_get_bind : Ends (get >>= k) s b s' ↔ Ends (k s) s b s' := by
  simp [ends_bind]

@[simp] lemma ends_set_bind : Ends (set u >>= g) s b s' ↔ Ends (g ()) u b s' := by
  simp [ends_bind, Unique.exists_iff]

@[simp] lemma ends_note_bind : Ends (note e >>= g) s b s' ↔ Ends (g ()) s b s' := by
  simp [ends_bind, Unique.exists_iff]

lemma safe_bind_pure {c : α → β} : Safe ok (m >>= fun a => pure (c a)) s ↔ Safe ok m s := by
  simp [safe_bind]

lemma ends_bind_pure {c : α → β} : Ends (m >>= fun a => pure (c a)) s b s' ↔ ∃ a, c a = b ∧ Ends m s a s' := by
  simp only [ends_bind, ends_pure]
  constructor
  · rintro ⟨a, t, hm, hc, rfl⟩
    exact ⟨a, hc, hm⟩
  · rintro ⟨a, hc, hm⟩
    exact ⟨a, s', hm, hc, rfl⟩

end

end Traced

end Glaber.Lib
