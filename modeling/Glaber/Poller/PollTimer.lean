import Glaber.Expr.NextcheckAligned
import Glaber.Poller.Csnmp

/-! The timers of item polls (`glb_poller.c`). Next checks are seconds, timers are armed for milliseconds. -/

namespace Glaber.Poller.PollTimer

open Glaber.Expr Glaber.Poller.Csnmp

section

inductive PollState where
  | queued
  | polling
deriving DecidableEq

inductive PollRet where
  | startedOk
  | startedFail
  | needDelay
deriving DecidableEq

def itemTypeWorkerServer : ℕ := 47
def fail : ℤ := -1
def pollerMaxSessions : ℤ := 8 * 1024
def pollerMaxSessionsDelay : ℤ := 10000
def pollerNotInQueueDelay : ℤ := 60 * 1000
def configRepollDelay : ℤ := 10

structure Item where
  itemid : ℕ
  itemType : ℕ
  delay : List Char
  boundToInterface : Bool
  pollState : PollState
  lastpolltime : ℕ

structure Timeval where
  sec : ℕ
  usec : ℕ
deriving DecidableEq

inductive Effect where
  | updateNextcheck (itemid : ℕ) (nextcheck : ℤ)
  | preprocessError (itemid : ℕ) (error : String)
  | eventDel
  | eventAdd (tv : Timeval)
deriving DecidableEq

structure Engine where
  sessionsCount : ℤ
  contentionSessions : ℤ
  isIfaceBound : Bool
  disabledTill : Item → Option ℕ
  startPoll : Option (Item → PollRet × Item × List Effect)

def u64 (x : ℤ) : ℕ := (x % 2 ^ 64).toNat

def pollerRunTimerEvent (msecRelative : ℕ) : Effect := .eventAdd ⟨msecRelative / 1000, msecRelative % 1000 * 1000⟩

def delayText (item : Item) : List Char := if item.itemType = itemTypeWorkerServer then "86400s".toList else item.delay

def pollerUpdateItemNextcheck (fuel : ℕ) (item : Item) (baseTime : ℕ) : Option (ℤ × List Effect) :=
  match intervalPreproc (delayText item) with
  | .error _ => some (fail, [.preprocessError item.itemid "error", .updateNextcheck item.itemid fail])
  | .ok (simpleInterval, customIntervals) => do
    let nextcheck ← calculateItemNextcheck fuel item.itemid simpleInterval (some customIntervals) item.itemType (baseTime + 1)
    return (cint nextcheck, [.updateNextcheck item.itemid (cint nextcheck)])

def repollDelay (rand : ℕ) : ℤ := configRepollDelay + (rand % 5 : ℕ)

def pollerReturnDelayedItemToQueue (rand now : ℕ) (item : Item) : Item × List Effect :=
  ({ item with lastpolltime := now, pollState := .queued },
    [.updateNextcheck item.itemid (cint (now + repollDelay rand * 1000)), .eventDel,
      pollerRunTimerEvent (u64 (repollDelay rand * 1000))])

def itemInterfaceIsPollable (engine : Engine) (item : Item) : Option ℕ :=
  if ¬engine.isIfaceBound ∨ ¬item.boundToInterface then none else engine.disabledTill item

def startPoll (engine : Engine) (now : ℕ) (item : Item) : PollRet × Item × List Effect :=
  let item := { item with pollState := .polling, lastpolltime := now }
  engine.startPoll.elim (.startedOk, item, []) (· item)

def itemPollCb (engine : Engine) (fuel rand now later : ℕ) (item : Item) : Option (Item × List Effect) :=
  if pollerMaxSessions < engine.sessionsCount ∨ pollerMaxSessions < engine.contentionSessions then
    some (item, [pollerRunTimerEvent (u64 pollerMaxSessionsDelay)])
  else if item.pollState ≠ .queued then some (item, [pollerRunTimerEvent (u64 pollerNotInQueueDelay)])
  else
    match itemInterfaceIsPollable engine item with
    | some disabledTill => do
      let (nextcheck, effects) ← pollerUpdateItemNextcheck fuel item disabledTill
      if nextcheck = fail then return (item, effects)
      else
        let msec := (u64 (cint (nextcheck - now)) * 1000 + rand % 1000) % 2 ^ 64
        return (item, effects ++ [pollerRunTimerEvent msec])
    | none =>
      let (pollRet, item, started) := startPoll engine now item
      if pollRet = .needDelay then
        let (item, effects) := pollerReturnDelayedItemToQueue rand later item
        some (item, started ++ effects)
      else do
        let (nextcheck, effects) ← pollerUpdateItemNextcheck fuel item now
        if nextcheck = fail then return (item, started ++ effects)
        else return (item, started ++ effects ++ [pollerRunTimerEvent (u64 (cint (cint (nextcheck - now) * 1000)))])

end

section

def Timeval.msec (tv : Timeval) : ℕ := tv.sec * 1000 + tv.usec / 1000

def Effect.pending (timer : Option ℕ) : Effect → Option ℕ
  | .eventAdd tv => some tv.msec
  | .eventDel => none
  | _ => timer

def armed (effects : List Effect) : Option ℕ := effects.foldl Effect.pending none

def Effect.recorded (nextcheck : Option ℤ) : Effect → Option ℤ
  | .updateNextcheck _ next => some next
  | _ => nextcheck

def recorded (effects : List Effect) : Option ℤ := effects.foldl Effect.recorded none

lemma armed_timer (effects : List Effect) (msec : ℕ) : armed (effects ++ [pollerRunTimerEvent msec]) = some msec := by
  rw [armed, List.foldl_append, List.foldl_cons, List.foldl_nil, pollerRunTimerEvent, Effect.pending, Timeval.msec]
  congr 1
  simp only
  omega

lemma u64_cint_eq_iff {x : ℤ} (hlow : -2 ^ 32 < x) (hhigh : x < 2 ^ 31) :
    (u64 (cint (cint x * 1000)) : ℤ) = 1000 * x ↔ 0 ≤ x ∧ x ≤ 2147483 := by
  constructor
  · intro h
    have hrange := cint_range (cint x * 1000)
    rw [u64] at h
    generalize cint (cint x * 1000) = y at h hrange
    rcases lt_or_ge y 0 with hneg | hpos
    · have hmod : y % 2 ^ 64 = y + 2 ^ 64 := by omega
      rw [hmod] at h
      omega
    · rw [Int.emod_eq_of_lt hpos (by omega)] at h
      omega
  · rintro ⟨hnonneg, hshort⟩
    rw [cint_of_lt (by omega) hhigh, cint_of_lt (by omega) (by omega), u64, Int.emod_eq_of_lt (by omega) (by omega),
      Int.toNat_of_nonneg (by omega), Int.mul_comm]

end

section

variable {engine : Engine} {fuel rand now later : ℕ} {item : Item} {next : ℤ}

structure Polls (engine : Engine) (now : ℕ) (item : Item) : Prop where
  sessions : engine.sessionsCount ≤ pollerMaxSessions
  contention : engine.contentionSessions ≤ pollerMaxSessions
  queued : item.pollState = .queued
  pollable : itemInterfaceIsPollable engine item = none
  started : (startPoll engine now item).1 ≠ .needDelay

def scheduled (fuel : ℕ) (item : Item) (baseTime : ℕ) : Option ℤ :=
  match intervalPreproc (delayText item) with
  | .error _ => none
  | .ok (simpleInterval, customIntervals) =>
    (calculateItemNextcheck fuel item.itemid simpleInterval (some customIntervals) item.itemType (baseTime + 1)).map fun nextcheck : ℕ =>
      cint nextcheck

lemma pollerUpdateItemNextcheck_scheduled {baseTime : ℕ} (h : scheduled fuel item baseTime = some next) :
    pollerUpdateItemNextcheck fuel item baseTime = some (next, [.updateNextcheck item.itemid next]) := by
  rw [scheduled] at h
  rw [pollerUpdateItemNextcheck]
  split at h
  · cases h
  · rename_i simpleInterval customIntervals hdelay
    obtain ⟨nextcheck, hnext, rfl⟩ := Option.map_eq_some_iff.mp h
    simp only [hnext, Option.bind_eq_bind, Option.bind_some]
    rfl

lemma scheduled_eq (item : Item) {baseTime simpleInterval nextcheck : ℕ} {customIntervals : CustomInterval}
    (hparsed : intervalPreproc (delayText item) = .ok (simpleInterval, customIntervals))
    (hnext : calculateItemNextcheck fuel item.itemid simpleInterval (some customIntervals) item.itemType (baseTime + 1) =
      some nextcheck) : scheduled fuel item baseTime = some (cint nextcheck) := by
  rw [scheduled, hparsed]
  exact congrArg (Option.map fun nextcheck : ℕ => cint nextcheck) hnext

lemma scheduled_range {baseTime : ℕ} (h : scheduled fuel item baseTime = some next) : -2 ^ 31 ≤ next ∧ next < 2 ^ 31 := by
  rw [scheduled] at h
  split at h
  · cases h
  · obtain ⟨nextcheck, -, rfl⟩ := Option.map_eq_some_iff.mp h
    exact cint_range _

lemma itemPollCb_polls (h : Polls engine now item)
    (hnext : scheduled fuel (startPoll engine now item).2.1 now = some next) :
    itemPollCb engine fuel rand now later item = some ((startPoll engine now item).2.1,
      (startPoll engine now item).2.2 ++ [.updateNextcheck (startPoll engine now item).2.1.itemid next] ++
        if next = fail then [] else [pollerRunTimerEvent (u64 (cint (cint (next - now) * 1000)))]) := by
  have hsessions := h.sessions
  have hcontention := h.contention
  rw [itemPollCb, if_neg (by omega), if_neg (not_not.mpr h.queued), h.pollable]
  simp only [if_neg h.started, pollerUpdateItemNextcheck_scheduled hnext, Option.bind_eq_bind, Option.bind_some]
  split_ifs <;> simp

theorem poll_timer_exact_iff (engine : Engine) (fuel rand : ℕ) :
    (∀ now later item next, now < 2 ^ 31 → Polls engine now item →
      scheduled fuel (startPoll engine now item).2.1 now = some next →
        ((∃ item' effects, itemPollCb engine fuel rand now later item = some (item', effects) ∧
          (armed effects).map (Nat.cast : ℕ → ℤ) = some (1000 * (next - now))) ↔ 0 ≤ next - now ∧ next - now ≤ 2147483)) ∧
    ∀ now item, (armed (pollerReturnDelayedItemToQueue rand now item).2).map (Nat.cast : ℕ → ℤ) = some (1000 * repollDelay rand) ∧
      recorded (pollerReturnDelayedItemToQueue rand now item).2 ≠ some (now + repollDelay rand) := by
  constructor
  · intro now later item next hnow hpolls hnext
    have hrange := scheduled_range hnext
    rw [itemPollCb_polls hpolls hnext]
    have hexact := @u64_cint_eq_iff (next - now) (by omega) (by omega)
    simp only [Option.some.injEq, Prod.mk.injEq, ↓existsAndEq, true_and]
    split_ifs with hfail
    · -- nothing is armed by the poll, and the moment is in the past
      have hpast : next = -1 := hfail
      refine iff_of_false ?_ (by omega)
      rw [List.append_nil, Option.map_eq_some_iff]
      rintro ⟨msec, -, hmsec⟩
      omega
    · rw [armed_timer, Option.map_some, Option.some_inj]
      exact hexact
  · intro now item
    have hdelay : 10 ≤ repollDelay rand ∧ repollDelay rand ≤ 14 := by
      rw [repollDelay, configRepollDelay]
      omega
    constructor
    · have harmed := armed_timer [.updateNextcheck item.itemid (cint (now + repollDelay rand * 1000)), .eventDel]
        (u64 (repollDelay rand * 1000))
      refine (congrArg (Option.map (Nat.cast : ℕ → ℤ)) harmed).trans ?_
      rw [Option.map_some, u64]
      congr 1
      omega
    · intro h
      have hnext : cint (now + repollDelay rand * 1000) = now + repollDelay rand := Option.some_inj.mp h
      rw [cint, Int.bmod] at hnext
      split_ifs at hnext <;> omega

def quietEngine : Engine := ⟨0, 0, false, fun _ => none, none⟩

lemma polls_quiet (now : ℕ) (h : item.pollState = .queued) : Polls quietEngine now item where
  sessions := by decide
  contention := by decide
  queued := h
  pollable := rfl
  started := PollRet.noConfusion

def minuteItem : Item := ⟨5, 0, "60".toList, false, .queued, 0⟩

theorem minute_item_armed : ∃ item' effects, itemPollCb quietEngine 40 0 1767225600 1767225600 minuteItem = some (item', effects) ∧
    (armed effects).map (Nat.cast : ℕ → ℤ) = some (1000 * (1767225665 - 1767225600)) := by
  have hparsed : intervalPreproc "60".toList = .ok (60, ⟨[], []⟩) := by decide +kernel
  have hnext : calculateItemNextcheck 40 5 60 (some ⟨[], []⟩) 0 1767225601 = some 1767225665 := by decide +kernel
  have hscheduled := scheduled_eq (startPoll quietEngine 1767225600 minuteItem).2.1 hparsed hnext
  exact ((poll_timer_exact_iff quietEngine 40 0).1 1767225600 1767225600 minuteItem 1767225665 (by decide)
    (polls_quiet _ rfl) hscheduled).mpr (by decide)

def monthItem : Item := ⟨2070000, 0, "60;2592000/1-7,00:00-24:00".toList, false, .queued, 0⟩

theorem month_item_overflows : ¬∀ (engine : Engine) (fuel rand now later : ℕ) (item : Item) (next : ℤ), now < 2 ^ 31 →
    Polls engine now item → scheduled fuel (startPoll engine now item).2.1 now = some next →
      ∃ item' effects, itemPollCb engine fuel rand now later item = some (item', effects) ∧
        (armed effects).map (Nat.cast : ℕ → ℤ) = some (1000 * (next - now)) := by
  intro h
  have hparsed : intervalPreproc "60;2592000/1-7,00:00-24:00".toList = .ok (60, ⟨[⟨⟨1, 7, 0, 86400⟩, 2592000⟩], []⟩) :=
    intervalPreproc_single "2592000/1-7,00:00-24:00".toList (by decide) (by decide) (by decide) (by decide)
  have hnext : calculateItemNextcheck 40 2070000 60 (some ⟨[⟨⟨1, 7, 0, 86400⟩, 2592000⟩], []⟩) 0 1767225601 =
      some 1769814000 := by decide +kernel
  have hscheduled := scheduled_eq (startPoll quietEngine 1767225600 monthItem).2.1 hparsed hnext
  have hpolls : Polls quietEngine 1767225600 monthItem := polls_quiet _ rfl
  obtain ⟨item', effects, hrun, harmed⟩ := h quietEngine 40 0 1767225600 1767225600 monthItem _ (by decide) hpolls hscheduled
  rw [itemPollCb_polls hpolls hscheduled] at hrun
  cases hrun
  rw [if_neg (by decide), armed_timer, Option.map_some, Option.some_inj] at harmed
  have := ((u64_cint_eq_iff (by decide) (by decide)).mp harmed).2
  revert this
  decide

end

end Glaber.Poller.PollTimer
