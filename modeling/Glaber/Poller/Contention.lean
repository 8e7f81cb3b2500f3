import Glaber.Lib.Runs

/-! The sessions counted for every address (`poller_contention.c`). An address is the pointer of a pooled string, and
the table may hold an entry for the null pointer. -/

namespace Glaber.Poller.Contention

structure Sess where
  sessCount : ℕ
  lastAddedTime : ℤ
deriving DecidableEq

abbrev Table (Addr : Type) := Option Addr → Option Sess

variable {Addr : Type} [DecidableEq Addr]

def addSession (now : ℤ) (sessions : Table Addr) (name : Option Addr) : Table Addr :=
  match sessions name with
  | some sess => Function.update sessions name (some ⟨sess.sessCount + 1, now⟩)
  | none => Function.update sessions name (some ⟨1, now⟩)

def removeSession (sessions : Table Addr) (name : Option Addr) : Table Addr :=
  if name = none then sessions
  else
    match sessions name with
    | none => sessions
    | some sess =>
      let count := if 0 < sess.sessCount then sess.sessCount - 1 else sess.sessCount
      if count = 0 then Function.update sessions name none
      else Function.update sessions name (some ⟨count, sess.lastAddedTime⟩)

def Expired (unreachableDelay now : ℤ) (sess : Sess) : Prop := sess.lastAddedTime + unreachableDelay < now

instance (unreachableDelay now : ℤ) (sess : Sess) : Decidable (Expired unreachableDelay now sess) :=
  inferInstanceAs (Decidable (_ < _))

def getSessions (unreachableDelay now : ℤ) (sessions : Table Addr) (name : Option Addr) : ℕ × Table Addr :=
  match sessions name with
  | none => (0, sessions)
  | some sess =>
    if Expired unreachableDelay now sess then (0, Function.update sessions name none)
    else (sess.sessCount, sessions)

def dropExpired (unreachableDelay now : ℤ) (sessions : Table Addr) : Table Addr := fun name =>
  (sessions name).filter fun sess => ¬Expired unreachableDelay now sess

def housekeep (unreachableDelay now lastHousekeep : ℤ) (sessions : Table Addr) : ℤ × Table Addr :=
  if now - lastHousekeep < unreachableDelay.tdiv 4 then (lastHousekeep, sessions)
  else (now, dropExpired unreachableDelay now sessions)

def count (sessions : Table Addr) (name : Option Addr) : ℕ := ((sessions name).map Sess.sessCount).getD 0

def Fresh (unreachableDelay now : ℤ) (sessions : Table Addr) (name : Option Addr) : Prop :=
  ∀ sess, sessions name = some sess → ¬Expired unreachableDelay now sess

section

variable {sessions : Table Addr} {unreachableDelay now : ℤ} {name other : Option Addr}

lemma count_addSession : count (addSession now sessions name) other =
    count sessions other + if other = name then 1 else 0 := by
  by_cases hname : other = name
  · subst hname
    cases h : sessions other <;> simp [count, addSession, h]
  · cases h : sessions name <;> simp [count, addSession, h, hname]

lemma count_removeSession {addr : Addr} : count (removeSession sessions (some addr)) other =
    count sessions other - if other = some addr then 1 else 0 := by
  by_cases hname : other = some addr
  · subst hname
    cases h : sessions (some addr) with
    | none => simp [count, removeSession, h]
    | some sess =>
      obtain ⟨n, t⟩ := sess
      cases n with
      | zero => simp [count, removeSession, h]
      | succ n => cases n <;> simp [count, removeSession, h]
  · cases h : sessions (some addr) with
    | none => simp [count, removeSession, h, hname]
    | some sess =>
      simp only [count, removeSession, h, hname, if_false, reduceCtorEq]
      split_ifs <;> simp [hname]

lemma getSessions_fresh (h : Fresh unreachableDelay now sessions name) :
    (getSessions unreachableDelay now sessions name).2 = sessions := by
  cases hsess : sessions name with
  | none => simp [getSessions, hsess]
  | some sess => simp [getSessions, hsess, h sess hsess]

omit [DecidableEq Addr] in
lemma housekeep_fresh {lastHousekeep : ℤ}
    (h : unreachableDelay.tdiv 4 ≤ now - lastHousekeep → ∀ name, Fresh unreachableDelay now sessions name) :
    (housekeep unreachableDelay now lastHousekeep sessions).2 = sessions := by
  rw [housekeep]
  split_ifs with hearly
  · rfl
  · funext name
    cases hsess : sessions name with
    | none => simp [dropExpired, hsess]
    | some sess => simpa [dropExpired, hsess] using h (by omega) name sess hsess

end

open Finset Glaber.Lib.Runs

variable {Addr : Type} [DecidableEq Addr]

section

variable {sessions : Table Addr} {names : Finset (Option Addr)} {name other : Option Addr} {sess : Sess}
  {unreachableDelay now lastHousekeep : ℤ}

def Positive (sessions : Table Addr) : Prop := ∀ name sess, sessions name = some sess → 0 < sess.sessCount

def Covers (names : Finset (Option Addr)) (sessions : Table Addr) : Prop :=
  ∀ name sess, sessions name = some sess → name ∈ names

def sum (names : Finset (Option Addr)) (sessions : Table Addr) : ℤ := ∑ name ∈ names, (count sessions name : ℤ)

lemma addSession_eq (now : ℤ) (sessions : Table Addr) (name : Option Addr) :
    addSession now sessions name = Function.update sessions name (some ⟨count sessions name + 1, now⟩) := by
  cases h : sessions name <;> simp [addSession, count, h]

lemma removeSession_eq (hpositive : Positive sessions) (hname : name ≠ none) (hsess : sessions name = some sess) :
    ∃ left : Option Sess, removeSession sessions name = Function.update sessions name left ∧
      (left.map Sess.sessCount).getD 0 + 1 = sess.sessCount ∧ ∀ sess ∈ left, 0 < sess.sessCount := by
  have hcount := hpositive name sess hsess
  simp only [removeSession, hsess, if_neg hname, if_pos hcount]
  split_ifs with hlast
  · exact ⟨none, rfl, by simp; omega, by simp⟩
  · refine ⟨some ⟨sess.sessCount - 1, sess.lastAddedTime⟩, rfl, by simp; omega, ?_⟩
    simp only [Option.mem_some_iff, forall_eq']
    omega

lemma removeSession_unknown (h : name = none ∨ sessions name = none) : removeSession sessions name = sessions := by
  rcases h with rfl | h
  · rfl
  · simp [removeSession, h]

lemma Positive.update {entry : Option Sess} (h : Positive sessions) (hentry : ∀ sess ∈ entry, 0 < sess.sessCount) :
    Positive (Function.update sessions name entry) := by
  intro other sess hsess
  by_cases hother : other = name
  · subst hother
    rw [Function.update_self] at hsess
    exact hentry sess hsess
  · rw [Function.update_of_ne hother] at hsess
    exact h other sess hsess

lemma Covers.update {entry : Option Sess} (h : Covers names sessions) (hname : entry.isSome → name ∈ names) :
    Covers names (Function.update sessions name entry) := by
  intro other sess hsess
  by_cases hother : other = name
  · subst hother
    rw [Function.update_self] at hsess
    exact hname (by simp [hsess])
  · rw [Function.update_of_ne hother] at hsess
    exact h other sess hsess

lemma Covers.insert (h : Covers names sessions) (name : Option Addr) : Covers (insert name names) sessions :=
  fun other sess hsess => mem_insert_of_mem (h other sess hsess)

lemma sum_update (sessions : Table Addr) (hname : name ∈ names) (entry : Option Sess) :
    sum names (Function.update sessions name entry) + count sessions name =
      sum names sessions + ((entry.map Sess.sessCount).getD 0 : ℕ) := by
  have hothers : ∀ other ∈ names.erase name, (count (Function.update sessions name entry) other : ℤ) = count sessions other :=
    fun other hother => by rw [count, count, Function.update_of_ne (ne_of_mem_erase hother)]
  rw [sum, sum, ← add_sum_erase names _ hname, ← add_sum_erase names _ hname, sum_congr rfl hothers]
  simp only [count, Function.update_self]
  ring

lemma sum_insert_name (h : Covers names sessions) (name : Option Addr) : sum (insert name names) sessions = sum names sessions := by
  apply sum_insert_of_eq_zero_if_notMem
  intro hname
  cases hsess : sessions name with
  | none => simp [count, hsess]
  | some sess => exact absurd (h name sess hsess) hname

lemma removeSession_kept (hcovers : Covers names sessions) (hpositive : Positive sessions) (name : Option Addr) :
    Covers names (removeSession sessions name) ∧ Positive (removeSession sessions name) := by
  by_cases hunknown : name = none ∨ sessions name = none
  · rw [removeSession_unknown hunknown]
    exact ⟨hcovers, hpositive⟩
  · push Not at hunknown
    obtain ⟨sess, hsess⟩ := Option.ne_none_iff_exists'.mp hunknown.2
    obtain ⟨left, hremove, -, hleft⟩ := removeSession_eq hpositive hunknown.1 hsess
    rw [hremove]
    exact ⟨hcovers.update fun _ => hcovers name sess hsess, hpositive.update hleft⟩

def Within (fewer sessions : Table Addr) : Prop := ∀ name sess, fewer name = some sess → sessions name = some sess

lemma getSessions_cases (unreachableDelay now : ℤ) (sessions : Table Addr) (name : Option Addr) :
    ((∀ sess, sessions name = some sess → ¬Expired unreachableDelay now sess) ∧
      (getSessions unreachableDelay now sessions name).2 = sessions) ∨
    ∃ sess, sessions name = some sess ∧ Expired unreachableDelay now sess ∧
      (getSessions unreachableDelay now sessions name).2 = Function.update sessions name none := by
  by_cases hfresh : Fresh unreachableDelay now sessions name
  · exact .inl ⟨hfresh, getSessions_fresh hfresh⟩
  · rw [Fresh] at hfresh
    push Not at hfresh
    obtain ⟨sess, hsess, hexpired⟩ := hfresh
    exact .inr ⟨sess, hsess, hexpired, by simp [getSessions, hsess, hexpired]⟩

lemma getSessions_within (unreachableDelay now : ℤ) (sessions : Table Addr) (name : Option Addr) :
    Within (getSessions unreachableDelay now sessions name).2 sessions := by
  intro other sess hsess
  rcases getSessions_cases unreachableDelay now sessions name with ⟨-, hget⟩ | ⟨_, -, -, hget⟩
  · rwa [hget] at hsess
  · rw [hget] at hsess
    by_cases hother : other = name
    · subst hother
      rw [Function.update_self] at hsess
      cases hsess
    · rwa [Function.update_of_ne hother] at hsess

omit [DecidableEq Addr] in
lemma housekeep_within (unreachableDelay now lastHousekeep : ℤ) (sessions : Table Addr) :
    Within (housekeep unreachableDelay now lastHousekeep sessions).2 sessions := by
  intro name sess hsess
  rw [housekeep] at hsess
  split_ifs at hsess
  · exact hsess
  · exact (Option.filter_eq_some_iff.mp hsess).1

end

section

structure Conf (Addr : Type) [DecidableEq Addr] where
  sessions : Table Addr
  names : Finset (Option Addr)
  total : ℤ
  lastHousekeep : ℤ
  covers : Covers names sessions
  positive : Positive sessions

def Conf.init : Conf Addr where
  sessions := fun _ => none
  names := ∅
  total := 0
  lastHousekeep := 0
  covers := by
    intro name sess h
    cases h
  positive := by
    intro name sess h
    cases h

namespace Conf

variable (unreachableDelay now : ℤ) (conf : Conf Addr) (name : Option Addr)

def addSession : Conf Addr where
  sessions := Contention.addSession now conf.sessions name
  names := insert name conf.names
  total := conf.total + 1
  lastHousekeep := conf.lastHousekeep
  covers := by
    rw [addSession_eq]
    exact (conf.covers.insert name).update fun _ => mem_insert_self _ _
  positive := by
    rw [addSession_eq]
    exact conf.positive.update (by simp)

def removeSession : Conf Addr where
  sessions := Contention.removeSession conf.sessions name
  names := conf.names
  total := if name = none ∨ conf.sessions name = none then conf.total else conf.total - 1
  lastHousekeep := conf.lastHousekeep
  covers := (removeSession_kept conf.covers conf.positive name).1
  positive := (removeSession_kept conf.covers conf.positive name).2

def getSessions : ℕ × Conf Addr where
  fst := (Contention.getSessions unreachableDelay now conf.sessions name).1
  snd := {
    sessions := (Contention.getSessions unreachableDelay now conf.sessions name).2
    names := conf.names
    total := (conf.sessions name).elim conf.total fun sess =>
      if Expired unreachableDelay now sess then conf.total - sess.sessCount else conf.total
    lastHousekeep := conf.lastHousekeep
    covers := fun other sess h => conf.covers other sess (getSessions_within unreachableDelay now conf.sessions name other sess h)
    positive := fun other sess h =>
      conf.positive other sess (getSessions_within unreachableDelay now conf.sessions name other sess h) }

/-- The pass adds up the entries it meets, those it has just given up included. What such an entry counts is read after
the entry was freed, and is `freed`. -/
def housekeep (freed : Option Addr → Sess → ℕ) : Conf Addr where
  sessions := (Contention.housekeep unreachableDelay now conf.lastHousekeep conf.sessions).2
  names := conf.names
  total :=
    if now - conf.lastHousekeep < unreachableDelay.tdiv 4 then conf.total
    else ∑ name ∈ conf.names, (conf.sessions name).elim 0 fun sess =>
      ((if Expired unreachableDelay now sess then freed name sess else sess.sessCount : ℕ) : ℤ)
  lastHousekeep := (Contention.housekeep unreachableDelay now conf.lastHousekeep conf.sessions).1
  covers := fun name sess h => conf.covers name sess (housekeep_within unreachableDelay now _ conf.sessions name sess h)
  positive := fun name sess h => conf.positive name sess (housekeep_within unreachableDelay now _ conf.sessions name sess h)

end Conf

inductive Event (Addr : Type) where
  | add (now : ℤ) (name : Option Addr)
  | remove (name : Option Addr)
  | get (now : ℤ) (name : Option Addr)
  | housekeep (now : ℤ)

variable (unreachableDelay : ℤ) (freed : Option Addr → Sess → ℕ)

def step (conf : Conf Addr) : Event Addr → Conf Addr
  | .add now name => conf.addSession now name
  | .remove name => conf.removeSession name
  | .get now name => (conf.getSessions unreachableDelay now name).2
  | .housekeep now => conf.housekeep unreachableDelay now freed

def run (events : List (Event Addr)) : Conf Addr := events.foldl (step unreachableDelay freed) .init

def passes (conf : Conf Addr) : Event Addr → Bool
  | .housekeep now => unreachableDelay.tdiv 4 ≤ now - conf.lastHousekeep
  | _ => false

def drops (conf : Conf Addr) (name : Option Addr) : Event Addr → Bool
  | .housekeep now => passes unreachableDelay conf (.housekeep now) && (conf.sessions name).any (Expired unreachableDelay now ·)
  | .get now asked => asked == name && (conf.sessions name).any (Expired unreachableDelay now ·)
  | _ => false

def net (name : Option Addr) (sessCount : ℕ) : Event Addr → ℕ
  | .add _ added => if name = added then sessCount + 1 else sessCount
  | .remove removed => if name = removed ∧ removed ≠ none then sessCount - 1 else sessCount
  | _ => sessCount

def owed (name : Option Addr) : List (Event Addr) → ℕ :=
  follow (step unreachableDelay freed) (fun conf event sessCount =>
    if drops unreachableDelay conf name event then 0 else net name sessCount event) .init 0

def recounted : List (Event Addr) → Bool :=
  follow (step unreachableDelay freed) (fun conf event whole =>
    if passes unreachableDelay conf event then decide (∀ name ∈ conf.names, drops unreachableDelay conf name event = false)
    else whole) .init true

end

section

variable {unreachableDelay : ℤ} {freed : Option Addr → Sess → ℕ}

lemma drops_get {conf : Conf Addr} {now : ℤ} {asked name : Option Addr} : drops unreachableDelay conf name (.get now asked) = true ↔
    asked = name ∧ ∃ sess, conf.sessions name = some sess ∧ Expired unreachableDelay now sess := by
  simp only [drops, Bool.and_eq_true, beq_iff_eq, Option.any_eq_true, decide_eq_true_eq]

lemma drops_housekeep {conf : Conf Addr} {now : ℤ} {name : Option Addr} :
    drops unreachableDelay conf name (.housekeep now) = true ↔
      ¬now - conf.lastHousekeep < unreachableDelay.tdiv 4 ∧
        ∃ sess, conf.sessions name = some sess ∧ Expired unreachableDelay now sess := by
  simp only [drops, passes, Bool.and_eq_true, decide_eq_true_eq, Option.any_eq_true, not_lt]

lemma count_step (unreachableDelay : ℤ) (freed : Option Addr → Sess → ℕ) (conf : Conf Addr) (event : Event Addr)
    (name : Option Addr) : count (step unreachableDelay freed conf event).sessions name =
      if drops unreachableDelay conf name event then 0 else net name (count conf.sessions name) event := by
  cases event with
  | add now added =>
    change count (addSession now conf.sessions added) name = _
    rw [count_addSession]
    simp only [drops, net, Bool.false_eq_true, if_false]
    split_ifs <;> rfl
  | remove removed =>
    change count (removeSession conf.sessions removed) name = _
    simp only [drops, net, Bool.false_eq_true, if_false]
    cases removed with
    | none =>
      rw [removeSession_unknown (.inl rfl)]
      simp
    | some addr =>
      rw [count_removeSession]
      simp only [ne_eq, reduceCtorEq, not_false_eq_true, and_true]
      split_ifs <;> rfl
  | get now asked =>
    change count (getSessions unreachableDelay now conf.sessions asked).2 name = _
    rcases getSessions_cases unreachableDelay now conf.sessions asked with ⟨hfresh, hget⟩ | ⟨sess, hsess, hexpired, hget⟩
    · rw [hget, if_neg]
      · rfl
      · rw [drops_get]
        rintro ⟨rfl, sess, hsess, hexpired⟩
        exact hfresh sess hsess hexpired
    · rw [hget]
      by_cases hname : asked = name
      · subst hname
        rw [if_pos (drops_get.mpr ⟨rfl, sess, hsess, hexpired⟩), count, Function.update_self]
        rfl
      · rw [if_neg fun hdrops => hname (drops_get.mp hdrops).1, count, Function.update_of_ne (Ne.symm hname)]
        rfl
  | housekeep now =>
    change count (housekeep unreachableDelay now conf.lastHousekeep conf.sessions).2 name = _
    by_cases hearly : now - conf.lastHousekeep < unreachableDelay.tdiv 4
    · rw [housekeep, if_pos hearly, if_neg fun hdrops => (drops_housekeep.mp hdrops).1 hearly]
      rfl
    · rw [housekeep, if_neg hearly, count]
      change (((conf.sessions name).filter fun sess => ¬Expired unreachableDelay now sess).map Sess.sessCount).getD 0 = _
      split_ifs with hdrops
      · obtain ⟨-, sess, hsess, hexpired⟩ := drops_housekeep.mp hdrops
        simp [hsess, Option.filter_some, hexpired]
      · cases hsess : conf.sessions name with
        | none => simp [net, count, hsess]
        | some sess =>
          have hfresh : ¬Expired unreachableDelay now sess := fun hexpired =>
            hdrops (drops_housekeep.mpr ⟨hearly, sess, hsess, hexpired⟩)
          simp [net, count, hsess, Option.filter_some, hfresh]

lemma total_step (conf : Conf Addr) (event : Event Addr)
    (h : if passes unreachableDelay conf event then ∀ name ∈ conf.names, drops unreachableDelay conf name event = false
      else conf.total = sum conf.names conf.sessions) :
    (step unreachableDelay freed conf event).total =
      sum (step unreachableDelay freed conf event).names (step unreachableDelay freed conf event).sessions := by
  cases event with
  | add now name =>
    have hsum := sum_update conf.sessions (mem_insert_self name conf.names) (some ⟨count conf.sessions name + 1, now⟩)
    rw [sum_insert_name conf.covers] at hsum
    change conf.total + 1 = sum (insert name conf.names) (addSession now conf.sessions name)
    rw [addSession_eq]
    have h : conf.total = sum conf.names conf.sessions := h
    simp only [Option.map_some, Option.getD_some] at hsum
    omega
  | remove name =>
    have h : conf.total = sum conf.names conf.sessions := h
    change (if name = none ∨ conf.sessions name = none then conf.total else conf.total - 1) =
      sum conf.names (removeSession conf.sessions name)
    by_cases hunknown : name = none ∨ conf.sessions name = none
    · rw [if_pos hunknown, removeSession_unknown hunknown, h]
    · rw [if_neg hunknown]
      push Not at hunknown
      obtain ⟨sess, hsess⟩ := Option.ne_none_iff_exists'.mp hunknown.2
      obtain ⟨left, hremove, hleft, -⟩ := removeSession_eq conf.positive hunknown.1 hsess
      have hsum := sum_update conf.sessions (conf.covers name sess hsess) left
      have hcount : count conf.sessions name = sess.sessCount := by rw [count, hsess, Option.map_some, Option.getD_some]
      rw [hremove]
      omega
  | get now name =>
    have h : conf.total = sum conf.names conf.sessions := h
    change ((conf.sessions name).elim conf.total fun sess =>
      if Expired unreachableDelay now sess then conf.total - sess.sessCount else conf.total) =
        sum conf.names (getSessions unreachableDelay now conf.sessions name).2
    rcases getSessions_cases unreachableDelay now conf.sessions name with ⟨hfresh, hget⟩ | ⟨sess, hsess, hexpired, hget⟩
    · rw [hget]
      cases hsess : conf.sessions name with
      | none => exact h
      | some sess => rwa [Option.elim_some, if_neg (hfresh sess hsess)]
    · have hsum := sum_update conf.sessions (conf.covers name sess hsess) none
      rw [hget, hsess, Option.elim_some, if_pos hexpired]
      simp only [count, hsess, Option.map_some, Option.map_none, Option.getD_some, Option.getD_none] at hsum
      omega
  | housekeep now =>
    change (if now - conf.lastHousekeep < unreachableDelay.tdiv 4 then conf.total
      else ∑ name ∈ conf.names, (conf.sessions name).elim 0 fun sess =>
        ((if Expired unreachableDelay now sess then freed name sess else sess.sessCount : ℕ) : ℤ)) =
          sum conf.names (housekeep unreachableDelay now conf.lastHousekeep conf.sessions).2
    by_cases hearly : now - conf.lastHousekeep < unreachableDelay.tdiv 4
    · rw [if_neg (by simp [passes, hearly])] at h
      rw [if_pos hearly, housekeep, if_pos hearly, h]
    · have hdue : passes unreachableDelay conf (.housekeep now) := by simpa [passes] using hearly
      rw [if_pos hdue] at h
      rw [if_neg hearly]
      apply sum_congr rfl
      intro name hname
      have hkept := h name hname
      have hcount := count_step unreachableDelay freed conf (.housekeep now) name
      rw [if_neg (by rw [hkept]; exact Bool.false_ne_true)] at hcount
      refine Eq.trans ?_ (congrArg Nat.cast hcount.symm)
      cases hsess : conf.sessions name with
      | none => simp [net, count, hsess]
      | some sess =>
        have hfresh : ¬Expired unreachableDelay now sess := fun hexpired => by
          rw [drops_housekeep.mpr ⟨hearly, sess, hsess, hexpired⟩] at hkept
          exact Bool.noConfusion hkept
        simp [net, count, hsess, hfresh]

end

theorem total_and_counters (unreachableDelay : ℤ) (freed : Option Addr → Sess → ℕ) (events : List (Event Addr)) :
    (∀ name, count (run unreachableDelay freed events).sessions name = owed unreachableDelay freed name events) ∧
    (recounted unreachableDelay freed events → (run unreachableDelay freed events).total =
      sum (run unreachableDelay freed events).names (run unreachableDelay freed events).sessions) := by
  constructor
  · intro name
    refine follow_rule (R := fun (conf : Conf Addr) sessCount => count conf.sessions name = sessCount) ?_ events rfl
    rintro conf event _ rfl
    exact count_step unreachableDelay freed conf event name
  · refine follow_rule (R := fun (conf : Conf Addr) whole => whole = true → conf.total = sum conf.names conf.sessions) ?_ events
      fun _ => rfl
    intro conf event whole h hwhole
    apply total_step
    split_ifs at hwhole ⊢ with hdue
    · exact of_decide_eq_true hwhole
    · exact h hwhole

def Event.adds (name : Option Addr) : Event Addr → Bool
  | .add _ added => added == name
  | _ => false

def Event.removes (name : Option Addr) : Event Addr → Bool
  | .remove removed => removed == name
  | _ => false

theorem open_session_given_up : ¬∀ (freed : Option ℕ → Sess → ℕ) (events : List (Event ℕ)),
    (run 15 freed events).total = sum (run 15 freed events).names (run 15 freed events).sessions ∧
    ∀ name, count (run 15 freed events).sessions name = events.countP (·.adds name) - events.countP (·.removes name) := by
  intro h
  have hcount := (h (fun _ sess => sess.sessCount) [.add 100 (some 0), .housekeep 116]).2 (some 0)
  revert hcount
  decide

end Glaber.Poller.Contention
