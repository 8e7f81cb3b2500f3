import Glaber.Expr.Delays
import Mathlib.Logic.Relation

namespace Glaber.Expr

section

def Due (seed delay attempt t n : ℕ) : Prop :=
  n % delay = seed % delay ∧ ¬early attempt (t + min (delay / 4) 30) n

variable {seed delay attempt t n fuel : ℕ}

lemma Due.after (h : Due seed delay attempt t n) : t ≤ n ∧ (attempt = 0 → t < n) := by
  have hearly := h.2
  rw [early] at hearly
  split_ifs at hearly <;> simp only [decide_eq_true_eq] at hearly <;> omega

lemma early_mono {bound m : ℕ} (h : ¬early attempt bound n) (hm : early attempt bound m) : m < n := by
  rw [early] at h hm
  split_ifs at h hm <;> simp only [decide_eq_true_eq] at h hm <;> omega

def Found (seed delay attempt t : ℕ) : Option ℕ → Prop
  | some n => Due seed delay attempt t n ∧ n ≤ intMax ∧ ∀ m, Due seed delay attempt t m → n ≤ m
  | none => ∀ m, Due seed delay attempt t m → intMax < m

lemma alignLoop_found {nextcheck : ℕ} (hmod : nextcheck % delay = seed % delay)
    (hint : nextcheck ≤ intMax) (hleast : ∀ m, Due seed delay attempt t m → nextcheck ≤ m)
    (hfuel : t + 30 < nextcheck + fuel * delay) :
    Found seed delay attempt t (alignLoop delay attempt (t + min (delay / 4) 30) (fuel + 1) nextcheck) := by
  induction fuel generalizing nextcheck with
  | zero =>
    have hlate : ¬early attempt (t + min (delay / 4) 30) nextcheck := by
      rw [early]
      split_ifs <;> simp only [decide_eq_true_eq] <;> omega
    rw [alignLoop, if_neg hlate]
    exact ⟨⟨hmod, hlate⟩, hint, hleast⟩
  | succ fuel ih =>
    rw [alignLoop]
    split_ifs with hearly hover
    -- a moment that is due lies behind this one, so a whole delay behind it
    · intro m hm
      have hlt := early_mono hm.2 hearly
      have := Nat.ModEq.add_le_of_lt (hmod.trans hm.1.symm) hlt
      omega
    · apply ih
      · rw [Nat.add_mod_right, hmod]
      · exact not_lt.mp hover
      · intro m hm
        exact Nat.ModEq.add_le_of_lt (hmod.trans hm.1.symm) (early_mono hm.2 hearly)
      · rw [Nat.succ_mul] at hfuel
        omega
    · exact ⟨⟨hmod, hearly⟩, hint, hleast⟩

lemma delayNextcheck_found (seed attempt t : ℕ) (hd : delay ≠ 0) (hfuel : 32 ≤ fuel) :
    Found seed delay attempt t (delayNextcheck fuel seed delay attempt t) := by
  have hfirst : ∀ m, Due seed delay attempt t m → delay * (t / delay) + seed % delay ≤ m := by
    intro m hm
    have hdiv : t / delay ≤ m / delay := Nat.div_le_div_right hm.after.1
    have hmul := Nat.mul_le_mul_left delay hdiv
    have hm' := Nat.div_add_mod m delay
    rw [hm.1] at hm'
    omega
  have hstart : t < delay * (t / delay) + delay := by
    have hlt := Nat.mod_lt t (Nat.pos_of_ne_zero hd)
    have ht := Nat.div_add_mod t delay
    omega
  obtain ⟨fuel, rfl⟩ := Nat.exists_eq_add_of_le' hfuel
  have hmul : 31 * delay ≤ (fuel + 31) * delay := Nat.mul_le_mul_right _ (Nat.le_add_left _ _)
  simp only [delayNextcheck, ne_eq, hd, not_false_eq_true, if_true]
  split_ifs with hover
  · exact fun m hm => hover.trans_le (hfirst m hm)
  · apply alignLoop_found
    · rw [Nat.mul_add_mod, Nat.mod_mod]
    · exact not_lt.mp hover
    · exact hfirst
    · omega

end

section

structure Place where
  attempt : ℕ
  t : ℕ

variable (seed simple : ℕ) (flexIntervals : List FlexibleInterval) (now : ℕ)

inductive Moves : Place → Place → Prop
  | next {attempt t next : ℕ} (hyear : t < now + secPerYear) (hnext : getNextDelayInterval flexIntervals t = some next)
      (hdue : ∀ delay, getCurrentDelay simple flexIntervals t = delay → delay ≠ 0 →
        ∀ m, Due seed delay attempt t m → next ≤ m) :
    Moves ⟨attempt, t⟩ ⟨attempt + 1, next⟩

def Fits (place : Place) : Prop :=
  place.t < now + secPerYear → ∀ delay, getCurrentDelay simple flexIntervals place.t = delay → delay ≠ 0 →
    ∃ m ≤ intMax, Due seed delay place.attempt place.t m

def FitsFrom (place : Place) : Prop :=
  ∀ reached, Relation.ReflTransGen (Moves seed simple flexIntervals now) place reached →
    Fits seed simple flexIntervals now reached

def Aligned (n : ℕ) : Prop :=
  now < n ∧ (n < now + secPerYear → ∃ delay, InForce simple flexIntervals n delay ∧ delay ≠ 0 ∧
    n % delay = seed % delay)

variable {seed simple flexIntervals now} {place next : Place}

lemma Moves.deterministic {other : Place} (h : Moves seed simple flexIntervals now place next)
    (h' : Moves seed simple flexIntervals now place other) : next = other := by
  cases h with
  | next _ hnext _ =>
    cases h' with
    | next _ hother _ =>
      rw [Option.some.inj (hnext.symm.trans hother)]

lemma fitsFrom_of_stuck (hfits : Fits seed simple flexIntervals now place)
    (hstuck : ∀ next, ¬Moves seed simple flexIntervals now place next) : FitsFrom seed simple flexIntervals now place := by
  intro reached hreach
  obtain rfl | ⟨next, hmove, -⟩ := Relation.ReflTransGen.cases_head hreach
  · exact hfits
  · exact absurd hmove (hstuck next)

lemma fitsFrom_of_move (hmove : Moves seed simple flexIntervals now place next) :
    FitsFrom seed simple flexIntervals now place ↔
      Fits seed simple flexIntervals now place ∧ FitsFrom seed simple flexIntervals now next := by
  constructor
  · intro h
    exact ⟨h place .refl, fun reached hreach => h reached (.head hmove hreach)⟩
  · rintro ⟨hfits, hnext⟩ reached hreach
    obtain rfl | ⟨other, hother, hrest⟩ := Relation.ReflTransGen.cases_head hreach
    · exact hfits
    · rw [← hmove.deterministic hother] at hrest
      exact hnext reached hrest

def Outcome (seed simple : ℕ) (flexIntervals : List FlexibleInterval) (now : ℕ) (place : Place) : Option ℕ → Prop
  | some n => Aligned seed simple flexIntervals now n ∧ FitsFrom seed simple flexIntervals now place
  | none => ¬FitsFrom seed simple flexIntervals now place

lemma Outcome.of_move {answer : Option ℕ} (hmove : Moves seed simple flexIntervals now place next)
    (hfits : Fits seed simple flexIntervals now place) (h : Outcome seed simple flexIntervals now next answer) :
    Outcome seed simple flexIntervals now place answer := by
  cases answer with
  | none => exact fun hall => h ((fitsFrom_of_move hmove).mp hall).2
  | some n => exact ⟨h.1, (fitsFrom_of_move hmove).mpr ⟨hfits, h.2⟩⟩

lemma Outcome.of_due {attempt t n delay : ℕ} (hw : WeekPeriods flexIntervals)
    (hdelay : getCurrentDelay simple flexIntervals t = delay) (hzero : delay ≠ 0) (hafter : now < n)
    (hdue : Due seed delay attempt t n) (hint : n ≤ intMax)
    (hnext : ∀ next, getNextDelayInterval flexIntervals t = some next → n < next) :
    Outcome seed simple flexIntervals now ⟨attempt, t⟩ (some n) := by
  have hsame : getCurrentDelay simple flexIntervals n = delay := by
    cases hchange : getNextDelayInterval flexIntervals t with
    | none =>
      rw [← hdelay, getNextDelayInterval_none hw hchange]
      rfl
    | some next =>
      rw [(getNextDelayInterval_some hw hchange).2.2 simple n hdue.after.1 (hnext next hchange), hdelay]
  refine ⟨⟨hafter, fun _ => ⟨delay, ?_, hzero, hdue.1⟩⟩, fitsFrom_of_stuck ?_ ?_⟩
  · rw [← hsame]
    exact getCurrentDelay_inForce flexIntervals n simple
  · rintro - _ rfl -
    exact ⟨n, hint, hdelay ▸ hdue⟩
  · rintro _ ⟨-, hchange, hlate⟩
    exact absurd (hlate delay hdelay hzero n hdue) (not_le.mpr (hnext _ hchange))

def onward (flexIntervals : List FlexibleInterval) (t found : ℕ) (rest : ℕ → Option ℕ) : Option ℕ :=
  match getNextDelayInterval flexIntervals t with
  | none => some found
  | some next => if next ≤ found then rest next else some found

section

variable {attempt t : ℕ} {rest : ℕ → Option ℕ} (hw : WeekPeriods flexIntervals) (hlt : t < now + secPerYear)
include hw hlt

lemma onward_zero (hnow : now + 2 * secPerYear < jan2038) (hzero : getCurrentDelay simple flexIntervals t = 0)
    (hrest : ∀ next, getNextDelayInterval flexIntervals t = some next → next ≤ jan2038 →
      Outcome seed simple flexIntervals now ⟨attempt + 1, next⟩ (rest next)) :
    Outcome seed simple flexIntervals now ⟨attempt, t⟩ (onward flexIntervals t jan2038 rest) := by
  have hfits : Fits seed simple flexIntervals now ⟨attempt, t⟩ :=
    fun _ delay hdelay hne => absurd (hdelay.symm.trans hzero) hne
  rw [onward]
  cases hchange : getNextDelayInterval flexIntervals t with
  | none =>
    refine ⟨⟨by omega, fun h => by omega⟩, fitsFrom_of_stuck hfits ?_⟩
    rintro _ ⟨-, h, -⟩
    exact absurd (hchange.symm.trans h) (Option.some_ne_none _).symm
  | some next =>
    have hnear := (getNextDelayInterval_some hw hchange).2.1
    have hweeks : 14 * secPerDay ≤ secPerYear := by decide
    have hle : next ≤ jan2038 := by omega
    dsimp only
    rw [if_pos hle]
    refine (hrest next hchange hle).of_move ?_ hfits
    exact .next hlt hchange fun delay hdelay hne => absurd (hdelay.symm.trans hzero) hne

lemma onward_due {delay found : ℕ} (hdelay : getCurrentDelay simple flexIntervals t = delay) (hzero : delay ≠ 0)
    (hfound : Found seed delay attempt t (some found)) (hafter : now < found)
    (hrest : ∀ next, getNextDelayInterval flexIntervals t = some next → next ≤ found →
      Outcome seed simple flexIntervals now ⟨attempt + 1, next⟩ (rest next)) :
    Outcome seed simple flexIntervals now ⟨attempt, t⟩ (onward flexIntervals t found rest) := by
  obtain ⟨hdue, hint, hleast⟩ := hfound
  rw [onward]
  cases hchange : getNextDelayInterval flexIntervals t with
  | none =>
    apply Outcome.of_due hw hdelay hzero hafter hdue hint
    intro next h
    exact absurd (hchange.symm.trans h) (Option.some_ne_none _).symm
  | some next =>
    dsimp only
    split_ifs with hle
    · refine (hrest next hchange hle).of_move ?_ ?_
      · refine .next hlt hchange ?_
        rintro _ h - m hm
        exact hle.trans (hleast m (hdelay.symm.trans h ▸ hm))
      · rintro - _ h -
        exact ⟨found, hint, hdelay.symm.trans h ▸ hdue⟩
    · apply Outcome.of_due hw hdelay hzero hafter hdue hint
      intro next' h
      rw [← Option.some.inj (hchange.symm.trans h)]
      exact not_le.mp hle

end

def Standing (now attempt t nextcheck : ℕ) : Prop :=
  attempt = 0 ∧ t = now ∨ attempt ≠ 0 ∧ now < t ∧ t ≤ nextcheck

variable {custom : CustomInterval} {fuel n attempt t nextcheck : ℕ}

lemma nextcheckLoop_past (hpast : ¬t < now + secPerYear)
    (hstart : Standing now attempt t nextcheck) :
    Outcome seed simple custom.flexible now ⟨attempt, t⟩
      (nextcheckLoop fuel seed simple (some custom) (now + secPerYear) (n + 1) attempt t nextcheck) := by
  rw [nextcheckLoop, if_neg hpast]
  have hyear : 0 < secPerYear := by decide
  obtain ⟨-, rfl⟩ | ⟨-, hafter, hle⟩ := hstart
  · exact absurd (Nat.lt_add_of_pos_right hyear) hpast
  · refine ⟨⟨hafter.trans_le hle, fun h => absurd (hle.trans_lt h) hpast⟩, fitsFrom_of_stuck ?_ ?_⟩
    · exact fun h => absurd h hpast
    · rintro _ ⟨h, -, -⟩
      exact hpast h

lemma nextcheckLoop_turn (hlt : t < now + secPerYear) :
    nextcheckLoop fuel seed simple (some custom) (now + secPerYear) (n + 1) attempt t nextcheck =
      (delayNextcheck fuel seed (getCurrentDelay simple custom.flexible t) attempt t).bind fun found =>
        onward custom.flexible t found fun next =>
          nextcheckLoop fuel seed simple (some custom) (now + secPerYear) n (attempt + 1) next found := by
  rw [nextcheckLoop, if_pos hlt]
  rfl

lemma nextcheckLoop_outcome (seed simple : ℕ) (hw : WeekPeriods custom.flexible) (hnow : now + 2 * secPerYear < jan2038)
    (hfuel : 32 ≤ fuel) (hstart : Standing now attempt t nextcheck)
    (hn : now + secPerYear ≤ t + n) :
    Outcome seed simple custom.flexible now ⟨attempt, t⟩
      (nextcheckLoop fuel seed simple (some custom) (now + secPerYear) (n + 1) attempt t nextcheck) := by
  induction n generalizing attempt t nextcheck with
  | zero => exact nextcheckLoop_past (not_lt.mpr hn) hstart
  | succ n ih =>
    by_cases hlt : t < now + secPerYear
    swap
    · exact nextcheckLoop_past hlt hstart
    rw [nextcheckLoop_turn hlt]
    have hrest : ∀ found next, getNextDelayInterval custom.flexible t = some next → next ≤ found →
        Outcome seed simple custom.flexible now ⟨attempt + 1, next⟩
          (nextcheckLoop fuel seed simple (some custom) (now + secPerYear) (n + 1) (attempt + 1) next found) := by
      intro found next hchange hle
      have hlater := (getNextDelayInterval_some hw hchange).1
      rw [Standing] at hstart
      exact ih (.inr ⟨Nat.succ_ne_zero _, by omega, hle⟩) (by omega)
    obtain hzero | hzero := eq_or_ne (getCurrentDelay simple custom.flexible t) 0
    · rw [delayNextcheck, if_neg (not_not.mpr hzero)]
      exact onward_zero hw hlt hnow hzero (hrest _)
    · have hfound := delayNextcheck_found seed attempt t hzero hfuel
      cases hcheck : delayNextcheck fuel seed (getCurrentDelay simple custom.flexible t) attempt t with
      | none =>
        rw [hcheck] at hfound
        intro hall
        obtain ⟨m, hm, hdue⟩ := hall _ .refl hlt _ rfl hzero
        exact absurd (hfound m hdue) (not_lt.mpr hm)
      | some found =>
        rw [hcheck] at hfound
        have hafter := hfound.1.after
        rw [Standing] at hstart
        exact onward_due hw hlt rfl hzero hfound (by omega) (hrest _)

end

variable {seed simple now : ℕ} {custom : CustomInterval}

lemma calculateItemNextcheck_flexible {fuel itemType : ℕ} (hscheduling : custom.scheduling = [])
    (htype : itemType ≠ itemTypeZabbixActive) :
    calculateItemNextcheck fuel seed simple (some custom) itemType now =
      nextcheckLoop fuel seed simple (some custom) (now + secPerYear) fuel 0 now 0 := by
  rw [calculateItemNextcheck, if_neg htype]
  simp [hscheduling, schedulerGetNextcheck]

theorem nextcheck_aligned_iff_fits {str : List Char} {parsed fuel itemType : ℕ}
    (hparsed : intervalPreproc str = .ok (parsed, custom)) (hscheduling : custom.scheduling = [])
    (hnow : now + 2 * secPerYear < jan2038) (htype : itemType ≠ itemTypeZabbixActive) (hfuel : secPerYear < fuel) :
    (∃ n, calculateItemNextcheck fuel seed simple (some custom) itemType now = some n ∧ now < n ∧
      (n < now + secPerYear → ∃ delay, InForce simple custom.flexible n delay ∧ delay ≠ 0 ∧
        n % delay = seed % delay)) ↔
      FitsFrom seed simple custom.flexible now ⟨0, now⟩ := by
  rw [calculateItemNextcheck_flexible hscheduling htype]
  obtain ⟨n, rfl⟩ := Nat.exists_eq_add_of_le' (Nat.one_le_of_lt hfuel)
  have hstart : Standing now 0 now 0 := .inl ⟨rfl, rfl⟩
  have hyear : now + secPerYear ≤ now + n := Nat.add_le_add_left (Nat.le_of_lt_succ hfuel) _
  have hloop := nextcheckLoop_outcome seed simple (intervalPreproc_weekPeriods hparsed) hnow
    (le_trans (by decide) hfuel) hstart hyear
  cases hcheck : nextcheckLoop (n + 1) seed simple (some custom) (now + secPerYear) (n + 1) 0 now 0 with
  | none =>
    rw [hcheck] at hloop
    exact iff_of_false (fun ⟨_, h, _⟩ => Option.some_ne_none _ h.symm) hloop
  | some found =>
    rw [hcheck] at hloop
    exact iff_of_true ⟨found, rfl, hloop.1⟩ hloop.2

lemma fitsFrom_of_short {flexIntervals : List FlexibleInterval}
    (h : ∀ t, now + secPerYear + 30 + 2 * getCurrentDelay simple flexIntervals t ≤ intMax) (place : Place) :
    FitsFrom seed simple flexIntervals now place := by
  rintro reached - hyear _ rfl hzero
  set delay := getCurrentDelay simple flexIntervals reached.t with hdelay
  have hshort := h reached.t
  have hpos := Nat.pos_of_ne_zero hzero
  have hmod := Nat.mod_lt seed hpos
  have hdiv := Nat.div_add_mod (reached.t + 30) delay
  have hrest := Nat.mod_lt (reached.t + 30) hpos
  refine ⟨delay * ((reached.t + 30) / delay + 1) + seed % delay, ?_, ?_, ?_⟩
  · rw [Nat.mul_succ]
    omega
  · rw [Nat.mul_add_mod, Nat.mod_mod]
  · rw [early, Nat.mul_succ]
    split_ifs <;> simp only [decide_eq_true_eq] <;> omega

lemma intervalPreproc_single {str : List Char} (rest : List Char) (hfirst : isTimeSuffix (cut ';' str).1 = some simple)
    (hrest : (cut ';' str).2 = some rest) (hseg : preprocSegment simple ⟨[], []⟩ rest = .ok (custom, none))
    (hday : simple ≤ secPerDay) : intervalPreproc str = .ok (simple, custom) := by
  obtain ⟨-, hne⟩ := preprocSegment_next hseg
  have hbad : ¬(custom.flexible = [] ∧ custom.scheduling = [] ∧ simple = 0 ∨ secPerDay < simple) := by
    rintro (⟨hf, hs, -⟩ | h)
    · exact hne.elim (· hf) (· hs)
    · exact absurd h (not_lt.mpr hday)
  rw [intervalPreproc]
  simp only [hfirst, hrest, preprocLoop_eq, hseg, bind, Except.bind, hbad, if_false]
  rfl

theorem working_hours_aligned :
    ∃ n, calculateItemNextcheck (secPerYear + 1) 7 60 (some ⟨[⟨⟨1, 5, 32400, 64800⟩, 300⟩], []⟩) 0 1700000000 = some n ∧
      1700000000 < n ∧ (n < 1700000000 + secPerYear → ∃ delay,
        InForce 60 [⟨⟨1, 5, 32400, 64800⟩, 300⟩] n delay ∧ delay ≠ 0 ∧ n % delay = 7 % delay) := by
  have hparsed : intervalPreproc "60;300/1-5,09:00-18:00".toList = .ok (60, ⟨[⟨⟨1, 5, 32400, 64800⟩, 300⟩], []⟩) :=
    intervalPreproc_single "300/1-5,09:00-18:00".toList (by decide) (by decide) (by decide) (by decide)
  refine (nextcheck_aligned_iff_fits hparsed rfl (by decide) (by decide) (Nat.lt_succ_self _)).mpr ?_
  apply fitsFrom_of_short
  intro t
  simp only [getCurrentDelay, currentLoop]
  split_ifs <;> decide

theorem delay_of_gibisecond_overflows :
    intervalPreproc "60;1073741824/1-7,00:00-24:00".toList = .ok (60, ⟨[⟨⟨1, 7, 0, 86400⟩, 1073741824⟩], []⟩) ∧
    1700000000 + 2 * secPerYear < jan2038 ∧ 0 ≠ itemTypeZabbixActive ∧
    ¬∃ fuel n, calculateItemNextcheck fuel 0 60 (some ⟨[⟨⟨1, 7, 0, 86400⟩, 1073741824⟩], []⟩) 0 1700000000 = some n := by
  refine ⟨intervalPreproc_single "1073741824/1-7,00:00-24:00".toList (by decide) (by decide) (by decide) (by decide),
    by decide, by decide, ?_⟩
  rintro ⟨fuel, n, h⟩
  rw [calculateItemNextcheck_flexible rfl (by decide)] at h
  cases fuel with
  | zero => cases h
  | succ fuel =>
    rw [nextcheckLoop_turn (by decide)] at h
    have hdelay : getCurrentDelay 60 [⟨⟨1, 7, 0, 86400⟩, 1073741824⟩] 1700000000 = 1073741824 := by decide
    rw [hdelay] at h
    cases h

end Glaber.Expr
