import Glaber.Algo.Tsbuff

/-! The value cache of items (`glb_state_items.c`). -/

namespace Glaber.State.Items

open Glaber.Algo

inductive ValueType where
  | float
  | str
  | log
  | uint64
  | text
  | none
deriving DecidableEq

structure HistoryRecord (α : Type) where
  sec : ℤ
  ns : ℤ
  value : α

def HistoryRecord.slot {α : Type} (r : HistoryRecord α) : TsValue α := ⟨r.sec, r.value⟩

def historyRecordCompareDesc {α : Type} (d1 d2 : HistoryRecord α) : ℤ :=
  if d1.sec = d2.sec then d2.ns - d1.ns else d2.sec - d1.sec

def sortDesc {α : Type} (values : List (HistoryRecord α)) : List (HistoryRecord α) :=
  values.mergeSort (fun d1 d2 => historyRecordCompareDesc d1 d2 ≤ 0)

/-- `glb_history_get_history` for one item: the records of `]start, end]`, the newest `count` of them
when `count` is not zero. -/
abbrev HistoryStorage (α : Type) :=
  (valueType : ValueType) → (start count stop : ℤ) → Option (List (HistoryRecord α))

structure ItemDemand where
  count : ℕ
  period : ℕ
  countChange : ℤ
  periodChange : ℤ
  newCount : ℕ
  newPeriod : ℕ

structure ItemElem (α : Type) where
  tsbuff : Tsbuff α
  demand : ItemDemand
  valueType : ValueType
  dbFetchedTime : ℤ
  dbFetchedCount : ℤ

structure FetchReq (α : Type) where
  count : ℤ
  valueType : ValueType
  tsHead : ℤ
  seconds : ℤ
  values : List (TsValue α)

structure Reply (α : Type) where
  ret : ℤ
  elm : ItemElem α
  values : List (TsValue α)

def itemMinValues : ℕ := 10
def itemDemandUpdate : ℤ := 86400

def unsignedAge (now change : ℤ) : ℤ := if change ≤ now then now - change else now - change + 4294967296

def demandCountStep (newCount : ℕ) (now : ℤ) (d : ItemDemand) : ItemDemand :=
  let d :=
    if d.count < newCount then { d with count := newCount, newCount := 0, countChange := now }
    else if d.newCount < newCount then { d with newCount := newCount }
    else d
  if itemDemandUpdate < unsignedAge now d.countChange then
    { d with countChange := now, count := d.newCount, newCount := 0 }
  else d

def demandPeriodStep (newPeriod : ℕ) (now : ℤ) (d : ItemDemand) : ItemDemand :=
  let d :=
    if d.period < newPeriod then { d with period := newPeriod, newPeriod := 0, periodChange := now }
    else if d.newPeriod < newPeriod then { d with newPeriod := newPeriod }
    else d
  if itemDemandUpdate < unsignedAge now d.periodChange then
    { d with periodChange := now, period := d.newPeriod, newPeriod := 0 }
  else d

section

variable {α : Type} (elm : ItemElem α)

def itemUpdateDemand (newCount newPeriod : ℕ) (now : ℤ) : ItemElem α :=
  { elm with demand := demandPeriodStep newPeriod now (demandCountStep newCount now elm.demand) }

def updateDbFetch (fetchTime : ℤ) : ItemElem α :=
  if fetchTime < elm.dbFetchedTime then { elm with dbFetchedTime := fetchTime } else elm

def addRecord (r : HistoryRecord α) : ItemElem α :=
  match elm.tsbuff.addToTail r.sec with
  | none => elm
  | some (idx, b) => { elm with tsbuff := b.put idx r.slot }

def fetchFromDbByCount (hist : HistoryStorage α) (elm : ItemElem α) (count headTime now : ℤ) : ℤ × ItemElem α :=
  let elm := updateDbFetch elm now
  if elm.dbFetchedTime < headTime ∧ count ≤ elm.dbFetchedCount then (succeed, elm)
  else
    let headTime := elm.dbFetchedTime - 1
    match hist elm.valueType 0 count headTime with
    | none => (fail, elm)
    | some [] =>
      (succeed, { elm with dbFetchedCount := max elm.dbFetchedCount count, dbFetchedTime := headTime })
    | some (v :: vs) =>
      let elm := { elm with
        dbFetchedCount := max elm.dbFetchedCount count
        dbFetchedTime := min elm.dbFetchedTime v.sec }
      (succeed, (sortDesc (v :: vs)).foldl addRecord elm)

def minGrowCount : ℕ := 8
def growPercent : ℕ := 120

def calcGrowBufferSize (oldSize : ℕ) : ℕ :=
  let newSize := oldSize * growPercent / 100
  if newSize - oldSize < minGrowCount then oldSize + minGrowCount else newSize

def ensureCacheDemandCountMet (count : ℕ) : Prop := elm.demand.count ≤ count

def ensureCacheDemandTimeMet (cTime now : ℤ) : Prop := (elm.demand.period : ℤ) ≤ now - cTime

instance (elm : ItemElem α) (count : ℕ) : Decidable (ensureCacheDemandCountMet elm count) :=
  inferInstanceAs (Decidable (_ ≤ _))

instance (elm : ItemElem α) (cTime now : ℤ) : Decidable (ensureCacheDemandTimeMet elm cTime now) :=
  inferInstanceAs (Decidable (_ ≤ _))

section

variable [Inhabited α]

def blank : TsValue α := ⟨0, default⟩

def itemCreateCb : ItemElem α :=
  ⟨Tsbuff.init blank itemMinValues, ⟨0, 0, 0, 0, 0, 0⟩, .none, zbxJan2038, 0⟩

def ensureTsbuffHasSpace (now : ℤ) (elm : ItemElem α) : ItemElem α :=
  if elm.tsbuff.isFull then
    let cVal := elm.tsbuff.get (elm.tsbuff.index (elm.tsbuff.tail + 1))
    if ensureCacheDemandCountMet elm (elm.tsbuff.count - 1) ∧ ensureCacheDemandTimeMet elm cVal.time now then
      { elm with tsbuff := elm.tsbuff.freeTail.2 }
    else { elm with tsbuff := elm.tsbuff.resize blank (calcGrowBufferSize elm.tsbuff.size) }
  else elm

def addFetched (now : ℤ) (elm : ItemElem α) (r : HistoryRecord α) : ItemElem α :=
  addRecord (ensureTsbuffHasSpace now elm) r

def fetchFromDbByTime (hist : HistoryStorage α) (elm : ItemElem α) (seconds headTime now : ℤ) :
    ℤ × ItemElem α :=
  if elm.dbFetchedTime ≤ headTime - seconds then (succeed, elm)
  else
    let elm := updateDbFetch elm now
    match hist elm.valueType (headTime - seconds) 0 elm.dbFetchedTime with
    | none => (fail, elm)
    | some values =>
      (succeed, { (sortDesc values).foldl (addFetched now) elm with dbFetchedTime := headTime - seconds })

end

def fillItemsValuesByIndex (tailIdx headIdx : ℤ) : Option (List (TsValue α)) :=
  if headIdx < 0 ∨ tailIdx < 0 then none
  else
    let b := elm.tsbuff
    some (b.get tailIdx :: b.walk (b.index (headIdx + 1)) b.size (b.index (tailIdx + 1)))

def fillItemsValuesByCount (count headIdx : ℤ) : Option (List (TsValue α)) :=
  fillItemsValuesByIndex elm (elm.tsbuff.index (headIdx - count + 1)) headIdx

def answerCount (req : FetchReq α) (elm : ItemElem α) : Option (Reply α) :=
  let headIdx := elm.tsbuff.findTimeIdx req.tsHead
  if headIdx = -1 then some ⟨fail, elm, req.values⟩
  else if elm.tsbuff.checkHasEnoughCountDataIdx req.count headIdx = fail then some ⟨fail, elm, req.values⟩
  else (fillItemsValuesByCount elm req.count headIdx).map fun values =>
    match values with
    | [] => ⟨succeed, elm, []⟩
    | v :: vs => ⟨succeed, updateDbFetch elm v.time, v :: vs⟩

def fetchMissing (hist : HistoryStorage α) (now : ℤ) (req : FetchReq α) (elm : ItemElem α) : ℤ × ItemElem α :=
  let b := elm.tsbuff
  let headIdx := b.findTimeIdx req.tsHead
  let needCount := if headIdx = -1 then req.count else req.count - (headIdx - b.tail + b.size).tmod b.size
  if 0 < needCount then
    match fetchFromDbByCount hist elm needCount req.tsHead now with
    | (ret, elm) => if ret = succeed then (succeed, updateDbFetch elm req.tsHead) else (fail, elm)
  else (succeed, elm)

section

variable [Inhabited α]

def fetchNewer (hist : HistoryStorage α) (now : ℤ) (req : FetchReq α) (elm : ItemElem α) : ℤ × ItemElem α :=
  match fetchFromDbByTime hist elm (now - req.tsHead) now now with
  | (ret, elm) => if ret = fail then (fail, elm) else (succeed, updateDbFetch elm req.tsHead)

def retypeCount (req : FetchReq α) (elm : ItemElem α) : ItemElem α :=
  { (if req.valueType ≠ elm.valueType ∧ 0 < elm.tsbuff.count then itemCreateCb else elm) with
    valueType := req.valueType }

def cacheFetchCountCb (hist : HistoryStorage α) (now : ℤ) (req : FetchReq α) (elm : ItemElem α) :
    Option (Reply α) :=
  let elm := retypeCount req elm
  let headIdx :=
    if elm.tsbuff.getTimeHead < req.tsHead then elm.tsbuff.head else elm.tsbuff.findTimeIdx req.tsHead
  if -1 < headIdx ∧ elm.tsbuff.checkHasEnoughCountDataIdx req.count headIdx = succeed then
    (fillItemsValuesByCount elm req.count headIdx).map fun values => ⟨succeed, elm, values⟩
  else
    match if headIdx = -1 then fetchNewer hist now req elm else (succeed, elm) with
    | (ret, elm) =>
      if ret = fail then some ⟨fail, elm, req.values⟩
      else
        match fetchMissing hist now req elm with
        | (ret, elm) => if ret = fail then some ⟨fail, elm, req.values⟩ else answerCount req elm

def calcTimeDataOverhead (fetchSeconds : ℤ) : ℤ :=
  if fetchSeconds < 300 then fetchSeconds + 300 else fetchSeconds * 12 / 10

def retypeTime (req : FetchReq α) (elm : ItemElem α) : ItemElem α :=
  if req.valueType ≠ elm.valueType then { itemCreateCb with valueType := req.valueType } else elm

def fetchForTime (hist : HistoryStorage α) (now : ℤ) (req : FetchReq α) (elm : ItemElem α) : ℤ × ItemElem α :=
  if 0 < elm.tsbuff.count ∧ elm.tsbuff.getTimeTail ≤ req.tsHead then
    let fetchHeadTime := elm.tsbuff.getTimeTail + 1
    let fetchSeconds := req.seconds - (req.tsHead - fetchHeadTime)
    fetchFromDbByTime hist elm (calcTimeDataOverhead fetchSeconds) fetchHeadTime now
  else fetchFromDbByTime hist elm req.seconds now now

def answerTime (now : ℤ) (req : FetchReq α) (elm : ItemElem α) : Option (Reply α) :=
  let headIdx :=
    if elm.tsbuff.getTimeHead ≤ req.tsHead then elm.tsbuff.head else elm.tsbuff.findTimeIdx req.tsHead
  let tailIdx := elm.tsbuff.findTimeIdx (now - req.seconds)
  if tailIdx = -1 then some ⟨fail, elm, req.values⟩
  else if headIdx ≠ -1 then
    (fillItemsValuesByIndex elm tailIdx headIdx).map fun values => ⟨succeed, elm, values⟩
  else some ⟨succeed, elm, req.values⟩

def cacheFetchTimeCb (hist : HistoryStorage α) (now : ℤ) (req : FetchReq α) (elm : ItemElem α) :
    Option (Reply α) :=
  let elm := retypeTime req elm
  let tailIdx := elm.tsbuff.findTimeIdx (req.tsHead - req.seconds)
  let foundIdx := elm.tsbuff.findTimeIdx req.tsHead
  let headIdx := if tailIdx ≠ -1 ∧ foundIdx = -1 then elm.tsbuff.head else foundIdx
  let elm := itemUpdateDemand elm 0 (max 0 req.seconds).toNat now
  if headIdx ≠ -1 ∧ tailIdx ≠ -1 then
    (fillItemsValuesByIndex elm tailIdx headIdx).map fun values => ⟨succeed, elm, values⟩
  else
    match fetchForTime hist now req elm with
    | (ret, elm) =>
      if ret ≠ succeed then some ⟨fail, elm, req.values⟩ else answerTime now req (updateDbFetch elm req.tsHead)

end

end

end Glaber.State.Items
