import Glaber.Expr.Interval

namespace Glaber.Expr

section

variable {str rest : List Char} {value factor : ℕ}

lemma readDigits_split {max v : ℕ} (h : readDigits max v str = some (value, rest)) :
    ∃ digits, str = digits ++ rest ∧ ∀ c ∈ digits, c.isDigit = true := by
  induction str generalizing v with
  | nil =>
    cases h
    exact ⟨[], rfl, by simp⟩
  | cons c str ih =>
    rw [readDigits] at h
    split_ifs at h with hd hmax
    · obtain ⟨digits, rfl, hall⟩ := ih h
      refine ⟨c :: digits, rfl, ?_⟩
      simpa [hd] using hall
    · cases h
      exact ⟨[], rfl, by simp⟩

lemma suffixFactor_nil (h : suffixFactor str = some (factor, [])) : ';' ∉ str := by
  rw [suffixFactor.eq_def] at h
  split at h <;> cases h <;> decide

lemma isTimeSuffix_some (h : isTimeSuffix str = some value) :
    (str.head?.map Char.isDigit).getD false = true ∧ ';' ∉ str := by
  rw [isTimeSuffix] at h
  split_ifs at h with hd
  refine ⟨hd, ?_⟩
  obtain ⟨⟨v, rest⟩, hdigits, h⟩ := Option.bind_eq_some_iff.mp h
  obtain ⟨⟨factor, rest'⟩, hfactor, h⟩ := Option.bind_eq_some_iff.mp h
  simp only at h
  split_ifs at h with hbad
  obtain ⟨digits, rfl, hall⟩ := readDigits_split hdigits
  obtain rfl : rest' = [] := by
    by_contra hne
    exact hbad (.inl hne)
  intro hmem
  rcases List.mem_append.mp hmem with hmem | hmem
  · exact absurd (hall _ hmem) (by decide)
  · exact suffixFactor_nil hfactor hmem

lemma schedulerUnitParse_digit {c : Char} (hc : c.isDigit = true) (interval : SchedulerInterval) (text : List Char) :
    schedulerUnitParse interval (c :: text) = none := by
  rw [schedulerUnitParse.eq_def]
  split <;> first | rfl | (rename_i heq; cases heq; exact absurd hc (by decide))

end

section

variable {str : List Char} {sep c : Char}

lemma mem_of_after {after : List Char} (h : (cut sep str).2 = some after) (hc : c ∈ after) : c ∈ str := by
  induction str with
  | nil => cases h
  | cons d str ih =>
    rw [cut] at h
    split_ifs at h with hd
    · cases h
      exact List.mem_cons_of_mem _ hc
    · exact List.mem_cons_of_mem _ (ih h)

lemma cut_slash (str : List Char) :
    ((';' ∈ (cut '/' str).1 ∨ (cut '/' str).2 = none) ∧ (cut '/' (cut ';' str).1).2 = none) ∨
    ∃ after, (cut '/' str).2 = some after ∧ (cut ';' str).2 = (cut ';' after).2 ∧
      cut '/' (cut ';' str).1 = ((cut '/' str).1, some (cut ';' after).1) := by
  induction str with
  | nil => exact .inl ⟨.inr rfl, rfl⟩
  | cons c str ih =>
    by_cases hslash : c = '/'
    · subst hslash
      refine .inr ⟨str, ?_, ?_, ?_⟩ <;> simp [cut]
    · by_cases hsemi : c = ';'
      · subst hsemi
        refine .inl ⟨.inl ?_, ?_⟩ <;> simp [cut]
      · simp only [cut, if_neg hslash, if_neg hsemi]
        rcases ih with ⟨hout, hnone⟩ | ⟨after, hafter, hdelim, hcut⟩
        · exact .inl ⟨hout.imp (List.mem_cons_of_mem c) id, hnone⟩
        · exact .inr ⟨after, hafter, hdelim, by rw [hcut]⟩

end

section

variable {macroEnd : List Char → Option ℕ} {simple : ℕ} {str : List Char}

lemma parseUserMacro_none (h : '\x7b' ∉ str) : parseUserMacro macroEnd str = none := by
  simp only [parseUserMacro]
  split
  · exact absurd List.mem_cons_self h
  · rfl

lemma afterMacro_none (h : '\x7b' ∉ str) : afterMacro macroEnd str = none := by
  rw [afterMacro, parseUserMacro_none h]

lemma delayOf_eq (h : '\x7b' ∉ str) : delayOf macroEnd str =
    (isTimeSuffix (cut '/' str).1).bind fun interval => (cut '/' str).2.map fun after => (interval, after) := by
  rw [delayOf, parseUserMacro_none h]
  cases isTimeSuffix (cut '/' str).1 <;> cases (cut '/' str).2 <;> rfl

lemma digit_of_cut (h : ((cut '/' str).1.head?.map Char.isDigit).getD false = true) :
    (str.head?.map Char.isDigit).getD false = true := by
  cases str with
  | nil => cases h
  | cons c str =>
    rw [cut] at h
    split_ifs at h
    · cases h
    · exact h

lemma schedulerIntervalParse_digit (h : (str.head?.map Char.isDigit).getD false = true) :
    schedulerIntervalParse (cut ';' str).1 = none := by
  cases str with
  | nil => cases h
  | cons c str =>
    have hc : c.isDigit = true := h
    have hne : c ≠ ';' := by
      rintro rfl
      exact absurd hc (by decide)
    have hunit := schedulerUnitParse_digit hc ⟨[], [], [], [], [], 0⟩ (cut ';' str).1
    rw [cut, if_neg hne]
    simp only [schedulerIntervalParse, List.length_cons, schedulerIntervalLoop, hunit]
    rfl

lemma segment_agrees (h : '\x7b' ∉ str) (custom : CustomInterval) (next : Option (List Char)) :
    validateSegment macroEnd simple str = .ok next ↔
      ∃ custom', preprocSegment simple custom str = .ok (custom', next) := by
  rw [validateSegment, preprocSegment, delayOf_eq h, afterMacro_none h]
  cases hd : (str.head?.map Char.isDigit).getD false with
  | true =>
    rw [schedulerIntervalParse_digit hd, flexibleIntervalParse]
    rcases cut_slash str with ⟨hout, hnone⟩ | ⟨after, hafter, hdelim, hcut⟩
    · have hdelay : ((isTimeSuffix (cut '/' str).1).bind fun interval =>
          (cut '/' str).2.map fun after => (interval, after)) = none := by
        cases hs : isTimeSuffix (cut '/' str).1 with
        | none => rfl
        | some v =>
          rcases hout with hsemi | hout
          · exact absurd hsemi (isTimeSuffix_some hs).2
          · rw [hout]
            rfl
      rw [hdelay, hnone]
      cases isTimeSuffix (cut '/' (cut ';' str).1).1 <;> simp
    · rw [hafter, hcut, hdelim]
      have hmacro : '\x7b' ∉ after := fun hm => h (mem_of_after hafter hm)
      cases hs : isTimeSuffix (cut '/' str).1 with
      | none => simp
      | some v =>
        simp only [Option.bind_some, Option.map_some, afterMacro_none hmacro, Option.bind_eq_bind]
        by_cases hzero : v = 0 ∧ simple = 0
        · cases hp : timePeriodParse (cut ';' after).1 <;> simp [hzero]
        · have hzero' : ¬ (simple = 0 ∧ v = 0) := fun hz => hzero hz.symm
          cases hp : timePeriodParse (cut ';' after).1 with
          | none => simp [hzero]
          | some period =>
            simp only [if_neg hzero, if_neg hzero', Option.bind_some, Option.pure_def, if_true]
            constructor
            · intro hok
              obtain rfl := Except.ok.inj hok
              exact ⟨_, rfl⟩
            · rintro ⟨custom', hok⟩
              rw [(Prod.mk.inj (Except.ok.inj hok)).2]
  | false =>
    have hsuffix : isTimeSuffix (cut '/' str).1 = none := by
      by_contra hs
      obtain ⟨v, hv⟩ := Option.ne_none_iff_exists'.mp hs
      rw [digit_of_cut (isTimeSuffix_some hv).1] at hd
      cases hd
    rw [hsuffix]
    cases hp : schedulerIntervalParse (cut ';' str).1 with
    | none => simp
    | some new =>
      simp only [Option.bind_none, Bool.false_eq_true, if_false]
      constructor
      · intro hok
        obtain rfl := Except.ok.inj hok
        exact ⟨_, rfl⟩
      · rintro ⟨custom', hok⟩
        rw [(Prod.mk.inj (Except.ok.inj hok)).2]

lemma preprocLoop_eq (custom : CustomInterval) : preprocLoop simple custom str =
    match preprocSegment simple custom str with
    | .error e => .error e
    | .ok (custom, none) => .ok (custom, str)
    | .ok (custom, some rest) => preprocLoop simple custom rest := by
  rw [preprocLoop]
  split <;> rename_i h <;> rw [h]

lemma validateLoop_eq : validateLoop macroEnd simple str =
    match validateSegment macroEnd simple str with
    | .error e => .error e
    | .ok none => .ok ()
    | .ok (some rest) => validateLoop macroEnd simple rest := by
  rw [validateLoop]
  split <;> rename_i h <;> rw [h]

lemma preprocLoop_rule {I Q : CustomInterval → Prop} {custom custom' : CustomInterval} {last : List Char}
    (hstep : ∀ {custom str custom' next}, I custom → preprocSegment simple custom str = .ok (custom', next) →
      I custom' ∧ Q custom')
    (hi : I custom) (h : preprocLoop simple custom str = .ok (custom', last)) : Q custom' := by
  induction hn : str.length using Nat.strong_induction_on generalizing str custom with
  | _ n ih =>
    subst hn
    rw [preprocLoop_eq] at h
    split at h
    · cases h
    · rename_i hp
      obtain ⟨rfl, -⟩ := Prod.mk.inj (Except.ok.inj h)
      exact (hstep hi hp).2
    · rename_i hp
      exact ih _ (preprocSegment_shorter hp) (hstep hi hp).1 h rfl

lemma preprocLoop_nonempty {custom custom' : CustomInterval} {last : List Char}
    (h : preprocLoop simple custom str = .ok (custom', last)) :
    custom'.flexible ≠ [] ∨ custom'.scheduling ≠ [] := by
  apply preprocLoop_rule (I := fun _ => True) _ trivial h
  intro _ _ _ _ _ hseg
  exact ⟨trivial, (preprocSegment_next hseg).2⟩

lemma loop_agrees (h : '\x7b' ∉ str) (custom : CustomInterval) :
    validateLoop macroEnd simple str = .ok () ↔ ∃ result, preprocLoop simple custom str = .ok result := by
  induction hn : str.length using Nat.strong_induction_on generalizing str custom with
  | _ n ih =>
    subst hn
    rw [validateLoop_eq, preprocLoop_eq]
    cases hp : preprocSegment simple custom str with
    | error e =>
      cases hv : validateSegment macroEnd simple str with
      | error e' => simp
      | ok next =>
        obtain ⟨custom', hok⟩ := (segment_agrees h custom next).mp hv
        cases hp.symm.trans hok
    | ok result =>
      obtain ⟨custom', next⟩ := result
      rw [(segment_agrees h custom next).mpr ⟨custom', hp⟩]
      cases next with
      | none => simp
      | some rest =>
        have hrest : '\x7b' ∉ rest := fun hm => h (mem_of_after (preprocSegment_next hp).1 hm)
        exact ih rest.length (preprocSegment_shorter hp) hrest custom' rfl

end

theorem validator_agrees (macroEnd : List Char → Option ℕ) (str : List Char) (h : '\x7b' ∉ str) :
    validateInterval macroEnd str = .ok () ↔ ∃ result, intervalPreproc str = .ok result := by
  rw [validateInterval, intervalPreproc, updateOf, afterMacro_none h]
  cases hs : isTimeSuffix (cut ';' str).1 with
  | none => simp
  | some simple =>
    cases hc : (cut ';' str).2 with
    | none =>
      simp only [Option.map_some]
      by_cases hbad : simple = 0 ∨ secPerDay < simple
      · simp [hbad]
      · simp [hbad, bind, Except.bind, pure, Except.pure]
    | some rest =>
      have hrest : '\x7b' ∉ rest := fun hm => h (mem_of_after hc hm)
      have hloop := @loop_agrees macroEnd simple rest hrest ⟨[], []⟩
      simp only [Option.map_some]
      cases hp : preprocLoop simple ⟨[], []⟩ rest with
      | error e =>
        have hv : validateLoop macroEnd simple rest ≠ .ok () := fun hok => by
          obtain ⟨result, hr⟩ := hloop.mp hok
          cases hp.symm.trans hr
        cases hvl : validateLoop macroEnd simple rest with
        | error e' => simp [bind, Except.bind]
        | ok u => exact absurd hvl hv
      | ok result =>
        obtain ⟨custom, last⟩ := result
        rw [hloop.mpr ⟨_, hp⟩]
        have hempty : ¬ (custom.flexible = [] ∧ custom.scheduling = [] ∧ simple = 0) := by
          rintro ⟨hf, hs, -⟩
          exact (preprocLoop_nonempty hp).elim (· hf) (· hs)
        by_cases hday : secPerDay < simple
        · simp [hday, bind, Except.bind]
        · simp [hday, hempty, bind, Except.bind, pure, Except.pure]

theorem flexible_text_accepted :
    '\x7b' ∉ "30s;10/1-5,09:00-18:00;wd6-7h12".toList ∧
    (validateInterval (fun _ => none) "30s;10/1-5,09:00-18:00;wd6-7h12".toList = .ok () ↔
      ∃ result, intervalPreproc "30s;10/1-5,09:00-18:00;wd6-7h12".toList = .ok result) := by
  have h : '\x7b' ∉ "30s;10/1-5,09:00-18:00;wd6-7h12".toList := by decide
  exact ⟨h, validator_agrees _ _ h⟩

end Glaber.Expr
