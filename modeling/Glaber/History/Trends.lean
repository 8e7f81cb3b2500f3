import Glaber.History.Worker
import Mathlib.Data.List.SplitBy
import Mathlib.Order.Bounds.Basic

/-! Hourly trends (`trends.c`) and their storage writers (`history_clickhouse.c`, `history_worker.c`). Doubles are an
ordered type. -/

namespace Glaber.History.Trends

open Glaber.Lib.Print

structure Arith (D : Type) where
  zero : D
  add : D → D → D
  divNum : D → ℕ → D

inductive ValueType where
  | float
  | uint64
deriving DecidableEq

inductive Value (D : Type) where
  | float (x : D)
  | uint64 (n : UInt64)

def Value.type {D : Type} : Value D → ValueType
  | .float _ => .float
  | .uint64 _ => .uint64

structure Metric (D : Type) where
  itemid : UInt64
  hostid : UInt64
  now : ℤ
  value : Option (Value D)
  hostName : List UInt8
  itemKey : List UInt8

inductive Stats (D : Type) where
  | float (min avg max : D)
  | uint64 (min avg max : UInt64)

def Stats.type {D : Type} : Stats D → ValueType
  | .float .. => .float
  | .uint64 .. => .uint64

/-- `avg` holds the sum until the trend is exported; `run` are the values accounted since the last reset. -/
structure Trend (D : Type) where
  itemid : UInt64
  hostid : UInt64
  accountHour : ℤ
  stats : Stats D
  num : ℕ
  run : List (Value D)

structure Exported (D : Type) where
  trend : Trend D
  hostName : List UInt8
  itemKey : List UInt8

structure State (D : Type) where
  trends : UInt64 → Option (Trend D)
  lastCleanupHour : ℤ
  exported : List (Exported D)
  closed : UInt64 → List (ℤ × List (Value D))

variable {D : Type}

def maxTrendTtl : ℤ := 2 * 86400

def nowHour (now : ℤ) : ℤ := now - now % 3600

variable (A : Arith D)

def zeroStats : ValueType → Stats D
  | .float => .float A.zero A.zero A.zero
  | .uint64 => .uint64 0 0 0

def getTrend (s : State D) (h : Metric D) (type : ValueType) (hour : ℤ) : Trend D :=
  match s.trends h.itemid with
  | some trend => trend
  | none => ⟨h.itemid, h.hostid, hour, zeroStats A type, 0, []⟩

def resetTrend (trend : Trend D) (type : ValueType) (hour : ℤ) : Trend D :=
  { trend with stats := zeroStats A type, num := 0, accountHour := hour, run := [] }

def average (num : ℕ) : Stats D → Stats D
  | .uint64 min avg max => .uint64 min (UInt64.ofNat (avg.toNat / num)) max
  | .float min avg max => .float min (A.divNum avg num) max

def exportTrend (trend : Trend D) (h : Metric D) : List (Exported D) :=
  if trend.num = 0 then []
  else [⟨{ trend with stats := average A trend.num trend.stats }, h.hostName, h.itemKey⟩]

def Trend.isOld (hour : ℤ) (trend : Trend D) : Bool := trend.accountHour + maxTrendTtl ≤ hour

def cleanupOldTrends (hour : ℤ) (s : State D) : State D :=
  if s.lastCleanupHour = hour then s
  else { s with
    lastCleanupHour := hour
    trends := fun itemid => (s.trends itemid).filter fun trend => !trend.isOld hour
    closed := fun itemid => s.closed itemid ++
      (((s.trends itemid).filter (Trend.isOld hour)).map fun trend => (trend.accountHour, trend.run)).toList }

section

variable [LinearOrder D] (A : Arith D)

def accountStats (num : ℕ) (stats : Stats D) (value : Value D) : Stats D :=
  match stats, value with
  | .float min avg max, .float x =>
    .float (if num = 0 ∨ x < min then x else min) (A.add avg x) (if num = 0 ∨ max < x then x else max)
  | .uint64 min avg max, .uint64 n =>
    .uint64 (if num = 0 ∨ n < min then n else min) (avg + n) (if num = 0 ∨ max < n then n else max)
  | stats, _ => stats

def accountMetric (trend : Trend D) (value : Value D) : Trend D :=
  { trend with
    stats := accountStats A trend.num trend.stats value
    num := trend.num + 1
    run := trend.run ++ [value] }

def accountItem (s : State D) (h : Metric D) (value : Value D) (hour : ℤ) : State D :=
  let trend := getTrend A s h value.type hour
  if trend.accountHour ≠ hour ∨ trend.stats.type ≠ value.type then
    { s with
      trends := Function.update s.trends h.itemid (some (accountMetric A (resetTrend A trend value.type hour) value))
      exported := s.exported ++ exportTrend A trend h
      closed := Function.update s.closed h.itemid (s.closed h.itemid ++ [(trend.accountHour, trend.run)]) }
  else { s with trends := Function.update s.trends h.itemid (some (accountMetric A trend value)) }

def trendsAccountMetric (s : State D) (h : Metric D) : State D :=
  match h.value with
  | none => s
  | some value => cleanupOldTrends (nowHour h.now) (accountItem A s h value (nowHour h.now))

def accountAll (metrics : List (Metric D)) : State D :=
  metrics.foldl (trendsAccountMetric A) ⟨fun _ => none, 0, [], fun _ => []⟩

end

/-- The conversion `%.*f` of a double, and the number that a text reads as. -/
structure FloatFormat (D : Type) where
  fixed : ℕ → D → List Char
  read : List Char → Option D

inductive Num where
  | int (n : ℤ)
  | dbl (text : List Char)

structure Row where
  itemid : ℤ
  time : ℤ
  min : Num
  max : Num
  avg : Num
  count : ℤ
  hostName : List UInt8
  itemKey : List UInt8

inductive Writer where
  | clickhouse
  | worker
deriving DecidableEq

variable (F : FloatFormat D)

def precision (x : D) : List Char := F.fixed 4 x

def addFloat (x : D) : List Char := Worker.idBuffer (F.fixed 6 x)

def addTrendValues (e : Exported D) : Row :=
  let (min, max, avg) : Num × Num × Num :=
    match e.trend.stats with
    | .float min avg max => (.dbl (precision F min), .dbl (precision F max), .dbl (precision F avg))
    | .uint64 min avg max => (.int (ld min), .int (ld max), .int (ld (UInt64.ofNat (avg.toNat / e.trend.num))))
  ⟨ld e.trend.itemid, e.trend.accountHour, min, max, avg, e.trend.num, e.hostName, e.itemKey⟩

def workerAddTrends (e : Exported D) : Row :=
  let (min, max, avg) : Num × Num × Num :=
    match e.trend.stats with
    | .float min avg max => (.dbl (addFloat F min), .dbl (addFloat F max), .dbl (addFloat F avg))
    | .uint64 min avg max => (.int min.toNat, .int max.toNat, .int (avg.toNat / e.trend.num))
  ⟨e.trend.itemid.toNat, e.trend.accountHour % 2 ^ 64, min, max, avg, e.trend.num, e.hostName, e.itemKey⟩

def emit : Writer → Exported D → Row
  | .clickhouse => addTrendValues F
  | .worker => workerAddTrends F

def doubleText : Writer → D → List Char
  | .clickhouse => precision F
  | .worker => addFloat F

def Num.double : Num → Option D
  | .int _ => none
  | .dbl text => F.read text

def Value.nat : Value D → ℕ
  | .float _ => 0
  | .uint64 n => n.toNat

def sumOf (run : List (Value D)) : ℕ := (run.map Value.nat).sum

def doubles (run : List (Value D)) : Set D := {x | .float x ∈ run}

def nats (run : List (Value D)) : Set ℕ := {n | ∃ u, .uint64 u ∈ run ∧ u.toNat = n}

lemma emit_extremes (writer : Writer) (trend : Trend D) (hostName itemKey : List UInt8) {min avg max : D}
    (h : trend.stats = .float min avg max) :
    (emit F writer ⟨trend, hostName, itemKey⟩).min = .dbl (doubleText F writer min) ∧
      (emit F writer ⟨trend, hostName, itemKey⟩).max = .dbl (doubleText F writer max) := by
  cases writer <;> simp [emit, addTrendValues, workerAddTrends, doubleText, h]

lemma emit_count (writer : Writer) (e : Exported D) : (emit F writer e).count = e.trend.num := by
  cases writer <;> rfl

lemma zeroStats_type (type : ValueType) : (zeroStats A type).type = type := by
  cases type <;> rfl

lemma average_type (num : ℕ) (stats : Stats D) : (average A num stats).type = stats.type := by
  cases stats <;> rfl

lemma doubles_append (run : List (Value D)) (x : D) : doubles (run ++ [.float x]) = insert x (doubles run) := by
  ext y
  simp [doubles, or_comm]

lemma nats_append (run : List (Value D)) (u : UInt64) : nats (run ++ [.uint64 u]) = insert u.toNat (nats run) := by
  ext n
  simp only [nats, List.mem_append, List.mem_singleton, Set.mem_ofPred_eq, Set.mem_insert_iff, Value.uint64.injEq]
  constructor
  · rintro ⟨v, hv | rfl, rfl⟩
    · exact .inr ⟨v, hv, rfl⟩
    · exact .inl rfl
  · rintro (rfl | ⟨v, hv, rfl⟩)
    · exact ⟨u, .inr rfl, rfl⟩
    · exact ⟨v, .inl hv, rfl⟩

lemma sumOf_append (run : List (Value D)) (value : Value D) : sumOf (run ++ [value]) = sumOf run + value.nat := by
  simp [sumOf]

lemma div_div_eq_iff {n sum r : ℕ} (hn : 0 < n) (hr : r ≤ sum) (hsame : n = 1 → r = sum) :
    r / n / n = sum / n ↔ n = 1 ∨ sum < n := by
  constructor
  · intro h
    by_contra hcon
    push Not at hcon
    have hq : 0 < sum / n := Nat.div_pos hcon.2 hn
    have hle : r / n ≤ sum / n := Nat.div_le_div_right hr
    have hlt : r / n / n < sum / n := by
      rcases Nat.eq_zero_or_pos (r / n) with hz | hp
      · rw [hz]
        simpa using hq
      · exact (Nat.div_lt_self hp (by omega)).trans_le hle
    omega
  · rintro (rfl | hlt)
    · simp [hsame rfl]
    · rw [Nat.div_eq_of_lt hlt, Nat.div_eq_of_lt (hr.trans_lt hlt), Nat.zero_div]

lemma sumOf_single_lt {run : List (Value D)} (h : run.length = 1) : sumOf run < 2 ^ 64 := by
  obtain ⟨value, rfl⟩ := List.length_eq_one_iff.mp h
  cases value with
  | float x => simp [sumOf, Value.nat]
  | uint64 n => simpa [sumOf, Value.nat] using UInt64.toNat_lt n

lemma twice_divided_iff {run : List (Value D)} {sum : UInt64} {num : ℕ} (hrun : run ≠ [])
    (hsum : sum.toNat = sumOf run % 2 ^ 64) (hnum : num = run.length) :
    (UInt64.ofNat ((UInt64.ofNat (sum.toNat / num)).toNat / num)).toNat = sumOf run / run.length ↔
      run.length = 1 ∨ sumOf run < run.length := by
  subst hnum
  have hlt := UInt64.toNat_lt sum
  have hq : sum.toNat / run.length < 2 ^ 64 := (Nat.div_le_self _ _).trans_lt hlt
  have hqq : sum.toNat / run.length / run.length < 2 ^ 64 := (Nat.div_le_self _ _).trans_lt hq
  rw [UInt64.toNat_ofNat_of_lt' hq, UInt64.toNat_ofNat_of_lt' hqq, hsum]
  apply div_div_eq_iff (List.length_pos_of_ne_nil hrun) (Nat.mod_le _ _)
  intro hone
  exact Nat.mod_eq_of_lt (sumOf_single_lt hone)

lemma twice_divided_small {run : List (Value D)} (h : run.length = 1 ∨ sumOf run < run.length)
    (hsmall : ∀ n ∈ nats run, n < 2 ^ 63) : sumOf run / run.length < 2 ^ 63 := by
  rcases h with hone | hlt
  · obtain ⟨value, rfl⟩ := List.length_eq_one_iff.mp hone
    cases value with
    | float x => simp [sumOf, Value.nat]
    | uint64 n => simpa [sumOf, Value.nat] using hsmall n.toNat ⟨n, by simp, rfl⟩
  · rw [Nat.div_eq_of_lt hlt]
    exact Nat.two_pow_pos 63

section

variable [LinearOrder D] (F : FloatFormat D)

def Right (type : ValueType) (run : List (Value D)) (row : Row) : Prop :=
  row.count = run.length ∧
  match type with
  | .float => ∃ lo hi, row.min.double F = some lo ∧ row.max.double F = some hi ∧ IsLeast (doubles run) lo ∧
      IsGreatest (doubles run) hi
  | .uint64 => ∃ lo hi : ℕ, row.min = .int lo ∧ row.max = .int hi ∧ IsLeast (nats run) lo ∧ IsGreatest (nats run) hi ∧
      row.avg = .int ((sumOf run / run.length : ℕ) : ℤ)

def Faithful (writer : Writer) (type : ValueType) (run : List (Value D)) : Prop :=
  match type with
  | .float => ∀ x, IsLeast (doubles run) x ∨ IsGreatest (doubles run) x → F.read (doubleText F writer x) = some x
  | .uint64 => (run.length = 1 ∨ sumOf run < run.length) ∧ (writer = .clickhouse → ∀ n ∈ nats run, n < 2 ^ 63)

def StatsOf (run : List (Value D)) : Stats D → Prop
  | .float min _ max => run ≠ [] → IsLeast (doubles run) min ∧ IsGreatest (doubles run) max
  | .uint64 min sum max => sum.toNat = sumOf run % 2 ^ 64 ∧
      (run ≠ [] → IsLeast (nats run) min.toNat ∧ IsGreatest (nats run) max.toNat)

structure Trend.Sound (trend : Trend D) : Prop where
  type : ∀ value ∈ trend.run, value.type = trend.stats.type
  num : trend.num = trend.run.length
  stats : StatsOf trend.run trend.stats

lemma isLeast_insert {α : Type} [LinearOrder α] {set : Set α} {lo x : α} {first : Prop} [Decidable first]
    (hfirst : first → set = ∅) (hlo : ¬first → IsLeast set lo) :
    IsLeast (insert x set) (if first ∨ x < lo then x else lo) := by
  by_cases h : first
  · simp [h, hfirst h]
  · have := (hlo h).insert x
    rw [min_def_lt] at this
    simpa only [h, false_or] using this

lemma isGreatest_insert {α : Type} [LinearOrder α] {set : Set α} {hi x : α} {first : Prop} [Decidable first]
    (hfirst : first → set = ∅) (hhi : ¬first → IsGreatest set hi) :
    IsGreatest (insert x set) (if first ∨ hi < x then x else hi) := by
  by_cases h : first
  · simp [h, hfirst h]
  · have := (hhi h).insert x
    rw [max_comm, max_def_lt] at this
    simpa only [h, false_or] using this

variable (A : Arith D)

lemma accountStats_type (num : ℕ) (stats : Stats D) (value : Value D) :
    (accountStats A num stats value).type = stats.type := by
  cases stats <;> cases value <;> rfl

lemma accountStats_of {run : List (Value D)} {stats : Stats D} {value : Value D}
    (h : StatsOf run stats) (htype : value.type = stats.type) :
    StatsOf (run ++ [value]) (accountStats A run.length stats value) := by
  have hsome : ¬run.length = 0 → run ≠ [] := fun hne hnil => hne (by simp [hnil])
  cases stats with
  | float min avg max =>
    cases value with
    | uint64 n => cases htype
    | float x =>
      have hnone : run.length = 0 → doubles run = ∅ := by
        intro hzero
        simp [List.eq_nil_of_length_eq_zero hzero, doubles]
      intro _
      rw [doubles_append]
      exact ⟨isLeast_insert hnone fun hne => (h (hsome hne)).1, isGreatest_insert hnone fun hne => (h (hsome hne)).2⟩
  | uint64 min sum max =>
    cases value with
    | float x => cases htype
    | uint64 n =>
      have hnone : run.length = 0 → nats run = ∅ := by
        intro hzero
        simp [List.eq_nil_of_length_eq_zero hzero, nats]
      obtain ⟨hsum, hextremes⟩ := h
      refine ⟨?_, fun _ => ?_⟩
      · rw [sumOf_append, UInt64.toNat_add, hsum, Value.nat]
        exact Nat.mod_add_mod _ _ _
      · rw [nats_append]
        simp only [apply_ite UInt64.toNat, UInt64.lt_iff_toNat_lt]
        exact ⟨isLeast_insert hnone fun hne => (hextremes (hsome hne)).1,
          isGreatest_insert hnone fun hne => (hextremes (hsome hne)).2⟩

lemma accountMetric_sound {trend : Trend D} {value : Value D} (h : trend.Sound)
    (htype : value.type = trend.stats.type) : (accountMetric A trend value).Sound where
  type := by
    simp only [accountMetric, accountStats_type, List.mem_append, List.mem_singleton]
    rintro v (hv | rfl)
    · exact h.type v hv
    · exact htype
  num := by simp [accountMetric, h.num]
  stats := by
    have := accountStats_of A h.stats htype
    rwa [← h.num] at this

lemma zeroStats_of (type : ValueType) : StatsOf [] (zeroStats A type) := by
  cases type with
  | float => simp [zeroStats, StatsOf]
  | uint64 => simp [zeroStats, StatsOf, sumOf]

lemma float_right_iff {trend : Trend D} (h : trend.Sound) (hrun : trend.run ≠ [])
    (hostName itemKey : List UInt8) (writer : Writer) (htype : trend.stats.type = .float) :
    Right F .float trend.run
        (emit F writer ⟨{ trend with stats := average A trend.num trend.stats }, hostName, itemKey⟩) ↔
      Faithful F writer .float trend.run := by
  have hstats := h.stats
  cases hs : trend.stats with
  | uint64 min sum max =>
    rw [hs] at htype
    cases htype
  | float min avg max =>
    rw [hs] at hstats
    obtain ⟨hmin, hmax⟩ := hstats hrun
    obtain ⟨hrowMin, hrowMax⟩ := emit_extremes F writer
      { trend with stats := average A trend.num (.float min avg max) } hostName itemKey rfl
    rw [Right, hrowMin, hrowMax, emit_count]
    constructor
    · rintro ⟨_, lo, hi, hlo, hhi, hleast, hgreatest⟩ x (hx | hx)
      · rw [hmin.unique hx, hleast.unique hx] at hlo
        exact hlo
      · rw [hmax.unique hx, hgreatest.unique hx] at hhi
        exact hhi
    · intro hread
      exact ⟨congrArg Nat.cast h.num, min, max, hread min (.inl hmin), hread max (.inr hmax), hmin, hmax⟩

lemma uint64_right_iff {trend : Trend D} (h : trend.Sound) (hrun : trend.run ≠ [])
    (hostName itemKey : List UInt8) (writer : Writer) (htype : trend.stats.type = .uint64) :
    Right F .uint64 trend.run
        (emit F writer ⟨{ trend with stats := average A trend.num trend.stats }, hostName, itemKey⟩) ↔
      Faithful F writer .uint64 trend.run := by
  have hnum := h.num
  have hstats := h.stats
  cases hs : trend.stats with
  | float min avg max =>
    rw [hs] at htype
    cases htype
  | uint64 min sum max =>
    rw [hs] at hstats
    obtain ⟨hsum, hextremes⟩ := hstats
    obtain ⟨hmin, hmax⟩ := hextremes hrun
    have havg := twice_divided_iff hrun hsum hnum
    cases writer with
    | worker =>
      have hq : (UInt64.ofNat (sum.toNat / trend.num)).toNat / trend.num < 2 ^ 64 :=
        (Nat.div_le_self _ _).trans_lt (UInt64.toNat_lt _)
      rw [UInt64.toNat_ofNat_of_lt' hq] at havg
      constructor
      · rintro ⟨_, lo, hi, _, _, _, _, hrow⟩
        refine ⟨havg.mp ?_, fun h => by cases h⟩
        exact_mod_cast Num.int.inj hrow
      · rintro ⟨hdivided, _⟩
        refine ⟨congrArg Nat.cast hnum, min.toNat, max.toNat, rfl, rfl, hmin, hmax, congrArg Num.int ?_⟩
        exact_mod_cast havg.mpr hdivided
    | clickhouse =>
      constructor
      · rintro ⟨_, lo, hi, _, hrowMax, _, hhi, hrow⟩
        obtain ⟨hrowAvg, _⟩ := (ld_eq_natCast_iff _ _).mp (Num.int.inj hrow)
        obtain ⟨_, hsmall⟩ := (ld_eq_natCast_iff _ _).mp (Num.int.inj hrowMax)
        exact ⟨havg.mp hrowAvg, fun _ n hn => (hhi.2 hn).trans_lt hsmall⟩
      · rintro ⟨hdivided, hsmall⟩
        have hsmall := hsmall rfl
        refine ⟨congrArg Nat.cast hnum, min.toNat, max.toNat, congrArg Num.int ?_, congrArg Num.int ?_, hmin, hmax,
          congrArg Num.int ?_⟩
        · exact (ld_eq_natCast_iff _ _).mpr ⟨rfl, hsmall _ hmin.1⟩
        · exact (ld_eq_natCast_iff _ _).mpr ⟨rfl, hsmall _ hmax.1⟩
        · exact (ld_eq_natCast_iff _ _).mpr ⟨havg.mpr hdivided, twice_divided_small hdivided hsmall⟩

lemma right_iff_faithful {trend : Trend D} (h : trend.Sound) (hrun : trend.run ≠ [])
    (hostName itemKey : List UInt8) (writer : Writer) :
    Right F trend.stats.type trend.run
        (emit F writer ⟨{ trend with stats := average A trend.num trend.stats }, hostName, itemKey⟩) ↔
      Faithful F writer trend.stats.type trend.run := by
  cases htype : trend.stats.type with
  | float => exact float_right_iff F A h hrun hostName itemKey writer htype
  | uint64 => exact uint64_right_iff F A h hrun hostName itemKey writer htype

end

section

variable {α : Type} {r : α → α → Bool} {l : List α} {groups : List (List α)} {group : List α} {x : α}

lemma splitBy_snoc_same (h : l.splitBy r = groups ++ [group]) (hr : ∀ y ∈ group.getLast?, r y x = true) :
    (l ++ [x]).splitBy r = groups ++ [group ++ [x]] := by
  obtain ⟨hl, hnil, hchain, hbreak⟩ := List.splitBy_eq_iff.mp h
  have hgroup : group ≠ [] := by
    rintro rfl
    exact hnil (by simp)
  refine List.splitBy_eq_iff.mpr ⟨by simp [hl], ?_, ?_, ?_⟩
  · simp only [List.mem_append, List.mem_singleton, not_or] at hnil ⊢
    exact ⟨hnil.1, by simp⟩
  · intro g hg
    rcases List.mem_append.mp hg with hold | hlast
    · exact hchain g (by simp [hold])
    · rw [List.mem_singleton.mp hlast]
      apply (hchain group (by simp)).append (by simp)
      intro y hy z hz
      obtain rfl : x = z := by simpa using hz
      exact hr y hy
  · rw [List.isChain_append] at hbreak ⊢
    refine ⟨hbreak.1, by simp, ?_⟩
    intro a ha b hb
    obtain ⟨hane, hbne, hab⟩ := hbreak.2.2 a ha group (by simp)
    obtain rfl : group ++ [x] = b := by simpa using hb
    exact ⟨hane, by simp, by rwa [List.head_append_of_ne_nil hgroup]⟩

lemma splitBy_snoc_new (h : l.splitBy r = groups) (hr : ∀ g ∈ groups.getLast?, ∀ y ∈ g.getLast?, r y x = false) :
    (l ++ [x]).splitBy r = groups ++ [[x]] := by
  rw [List.splitBy_append, h]
  · rfl
  · intro y hy z hz
    obtain rfl : x = z := by simpa using hz
    obtain ⟨hl, hnil, _, _⟩ := List.splitBy_eq_iff.mp h
    rcases List.eq_nil_or_concat' groups with rfl | ⟨front, g, rfl⟩
    · simp [hl] at hy
    · have hg : g ≠ [] := by
        rintro rfl
        exact hnil (by simp)
      apply hr g (by simp)
      rw [hl, List.flatten_append, List.flatten_singleton, List.getLast?_append_of_ne_nil _ hg] at hy
      exact hy

end

def sameRun (a b : ℤ × Value D) : Bool := a.1 = b.1 && a.2.type = b.2.type

def accounted (itemid : UInt64) (metrics : List (Metric D)) : List (ℤ × Value D) :=
  metrics.filterMap fun h => if h.itemid = itemid then h.value.map fun value => (nowHour h.now, value) else none

def Trend.hourRun (trend : Trend D) : ℤ × List (Value D) := (trend.accountHour, trend.run)

def State.runs (s : State D) (itemid : UInt64) : List (ℤ × List (Value D)) :=
  s.closed itemid ++ ((s.trends itemid).map Trend.hourRun).toList

def expand (run : ℤ × List (Value D)) : List (ℤ × Value D) := run.2.map (run.1, ·)

lemma cleanupOldTrends_runs (hour : ℤ) (s : State D) : (cleanupOldTrends hour s).runs = s.runs := by
  funext itemid
  rw [cleanupOldTrends]
  split_ifs
  · rfl
  · cases h : s.trends itemid with
    | none => simp [State.runs, h]
    | some trend => by_cases hold : trend.isOld hour <;> simp [State.runs, h, hold, Option.filter, Trend.hourRun]

lemma accounted_append (itemid : UInt64) (metrics : List (Metric D)) (h : Metric D) :
    accounted itemid (metrics ++ [h]) = accounted itemid metrics ++
      if h.itemid = itemid then (h.value.map fun value => (nowHour h.now, value)).toList else [] := by
  rw [accounted, List.filterMap_append, ← accounted]
  by_cases hitem : h.itemid = itemid
  · cases hv : h.value <;> simp [hitem, hv]
  · simp [hitem]

lemma getLast?_expand {run : ℤ × List (Value D)} {y : ℤ × Value D} (h : y ∈ (expand run).getLast?) :
    y.1 = run.1 ∧ y.2 ∈ run.2 := by
  obtain ⟨v, hv, rfl⟩ := List.mem_map.mp (List.mem_of_mem_getLast? h)
  exact ⟨rfl, hv⟩

lemma sameRun_false {a b : ℤ × Value D} (hne : a.1 ≠ b.1 ∨ a.2.type ≠ b.2.type) : sameRun a b = false := by
  rcases hne with hhour | htype
  · simp [sameRun, hhour]
  · simp [sameRun, htype]

lemma cleanupOldTrends_trends (hour : ℤ) (s : State D) (itemid : UInt64) :
    (cleanupOldTrends hour s).trends itemid = s.trends itemid ∧
        (cleanupOldTrends hour s).closed itemid = s.closed itemid ∨
      ∃ trend, s.trends itemid = some trend ∧ trend.accountHour < hour ∧
        (cleanupOldTrends hour s).trends itemid = none ∧
        (cleanupOldTrends hour s).closed itemid = s.closed itemid ++ [trend.hourRun] := by
  rw [cleanupOldTrends]
  split_ifs
  · exact .inl ⟨rfl, rfl⟩
  · cases htrend : s.trends itemid with
    | none => exact .inl (by simp [htrend])
    | some trend =>
      by_cases hold : trend.isOld hour
      · right
        have htime : trend.accountHour < hour := by
          have := of_decide_eq_true hold
          rw [maxTrendTtl] at this
          omega
        exact ⟨trend, rfl, htime, by simp [htrend, hold, Option.filter], by simp [htrend, hold, Option.filter, Trend.hourRun]⟩
      · exact .inl (by simp [htrend, hold, Option.filter])

lemma cleanupOldTrends_exported (hour : ℤ) (s : State D) : (cleanupOldTrends hour s).exported = s.exported := by
  rw [cleanupOldTrends]
  split_ifs <;> rfl

section

variable [LinearOrder D]

structure Accounted (A : Arith D) (hour : ℤ) (metrics : List (Metric D)) (s : State D) : Prop where
  sound : ∀ itemid trend, s.trends itemid = some trend → trend.itemid = itemid ∧ trend.run ≠ [] ∧ trend.Sound
  dropped : ∀ itemid, s.trends itemid = none → ∀ run ∈ (s.closed itemid).getLast?, run.1 < hour
  runs : ∀ itemid, (accounted itemid metrics).splitBy sameRun = (s.runs itemid).map expand
  exported : ∀ e ∈ s.exported, ∃ trend : Trend D, trend.Sound ∧ trend.run ≠ [] ∧
    e.trend = { trend with stats := average A trend.num trend.stats } ∧ trend.hourRun ∈ s.closed trend.itemid

variable {A : Arith D} {s : State D} {h : Metric D} {value : Value D} {hour : ℤ} {metrics : List (Metric D)}

lemma reset_sound (trend : Trend D) (type : ValueType) (hour : ℤ) : (resetTrend A trend type hour).Sound :=
  ⟨by simp [resetTrend], rfl, zeroStats_of A type⟩

lemma accountItem_cases (A : Arith D) (h : Metric D) (value : Value D) (hour : ℤ)
    (hs : ∀ itemid trend, s.trends itemid = some trend → trend.itemid = itemid ∧ trend.run ≠ [] ∧ trend.Sound) :
    ∃ trend, (accountItem A s h value hour).trends = Function.update s.trends h.itemid (some trend) ∧
      trend.itemid = h.itemid ∧ trend.accountHour = hour ∧ trend.Sound ∧
      (s.trends h.itemid = none ∧ trend.run = [value] ∧ (accountItem A s h value hour).closed = s.closed ∧
          (accountItem A s h value hour).exported = s.exported ∨
        ∃ old, s.trends h.itemid = some old ∧
          ((old.accountHour ≠ hour ∨ old.stats.type ≠ value.type) ∧ trend.run = [value] ∧
            (accountItem A s h value hour).closed =
              Function.update s.closed h.itemid (s.closed h.itemid ++ [old.hourRun]) ∧
            (accountItem A s h value hour).exported = s.exported ++ exportTrend A old h ∨
          (old.accountHour = hour ∧ old.stats.type = value.type) ∧ trend.run = old.run ++ [value] ∧
            (accountItem A s h value hour).closed = s.closed ∧
            (accountItem A s h value hour).exported = s.exported)) := by
  cases htrend : s.trends h.itemid with
  | none =>
    have hget : getTrend A s h value.type hour = ⟨h.itemid, h.hostid, hour, zeroStats A value.type, 0, []⟩ := by
      simp [getTrend, htrend]
    have hsame : ¬(hour ≠ hour ∨ (zeroStats A value.type).type ≠ value.type) := by simp [zeroStats_type]
    rw [accountItem, hget]
    simp only [if_neg hsame]
    refine ⟨_, rfl, rfl, rfl, ?_, .inl ⟨trivial, rfl, trivial, trivial⟩⟩
    exact accountMetric_sound A ⟨by simp, rfl, zeroStats_of A _⟩ (zeroStats_type A _).symm
  | some old =>
    have hget : getTrend A s h value.type hour = old := by simp [getTrend, htrend]
    obtain ⟨hitemid, _, hsound⟩ := hs _ _ htrend
    rw [accountItem, hget]
    by_cases hdone : old.accountHour ≠ hour ∨ old.stats.type ≠ value.type
    · simp only [if_pos hdone]
      refine ⟨_, rfl, hitemid, rfl, ?_, .inr ⟨old, rfl, .inl ⟨hdone, rfl, rfl, rfl⟩⟩⟩
      exact accountMetric_sound A (reset_sound old _ _) (zeroStats_type A _).symm
    · simp only [if_neg hdone]
      have hsame : old.accountHour = hour ∧ old.stats.type = value.type := by
        simpa only [not_or, not_not, ne_eq] using hdone
      refine ⟨_, rfl, hitemid, hsame.1, ?_, .inr ⟨old, rfl, .inr ⟨hsame, rfl, trivial, trivial⟩⟩⟩
      exact accountMetric_sound A hsound hsame.2.symm

lemma accountItem_runs (hs : Accounted A hour metrics s) (hvalue : h.value = some value)
    (hhour : hour ≤ nowHour h.now) (itemid : UInt64) : (accounted itemid (metrics ++ [h])).splitBy sameRun =
      ((accountItem A s h value (nowHour h.now)).runs itemid).map expand := by
  obtain ⟨trend, htrends, _, htime, hsound, hcases⟩ := accountItem_cases A h value (nowHour h.now) hs.sound
  have hold := hs.runs itemid
  rw [accounted_append]
  by_cases hitem : h.itemid = itemid
  · subst hitem
    simp only [if_true, hvalue, Option.map_some, Option.toList_some]
    obtain ⟨hnone, hrun, hclosed, _⟩ | ⟨old, hsome, ⟨hdone, hrun, hclosed, _⟩ | ⟨⟨hsame, htype⟩, hrun, hclosed, _⟩⟩ := hcases
    · have hnew : (accountItem A s h value (nowHour h.now)).runs h.itemid =
          s.runs h.itemid ++ [(nowHour h.now, [value])] := by
        simp [State.runs, htrends, hclosed, hnone, Trend.hourRun, htime, hrun]
      rw [hnew, List.map_append]
      apply splitBy_snoc_new hold
      intro g hg y hy
      rw [List.getLast?_map] at hg
      obtain ⟨run, hlast, rfl⟩ := Option.map_eq_some_iff.mp hg
      have hdropped := hs.dropped h.itemid hnone run (by simpa [State.runs, hnone] using hlast)
      apply sameRun_false
      left
      rw [(getLast?_expand hy).1]
      dsimp only
      omega
    · have hnew : (accountItem A s h value (nowHour h.now)).runs h.itemid =
          s.runs h.itemid ++ [(nowHour h.now, [value])] := by
        simp [State.runs, htrends, hclosed, hsome, Trend.hourRun, htime, hrun]
      rw [hnew, List.map_append]
      apply splitBy_snoc_new hold
      intro g hg y hy
      obtain rfl : expand old.hourRun = g := by simpa [State.runs, hsome] using hg
      obtain ⟨hy1, hy2⟩ := getLast?_expand hy
      apply sameRun_false
      rw [hy1, (hs.sound _ _ hsome).2.2.type _ hy2]
      exact hdone
    · have hbefore : s.runs h.itemid = s.closed h.itemid ++ [old.hourRun] := by simp [State.runs, hsome]
      have hnew : (accountItem A s h value (nowHour h.now)).runs h.itemid =
          s.closed h.itemid ++ [(nowHour h.now, old.run ++ [value])] := by
        simp [State.runs, htrends, hclosed, Trend.hourRun, htime, hrun]
      rw [hbefore, List.map_append, List.map_singleton] at hold
      have hlast : ∀ y ∈ (expand old.hourRun).getLast?, sameRun y (nowHour h.now, value) = true := by
        intro y hy
        obtain ⟨hy1, hy2⟩ := getLast?_expand hy
        rw [sameRun, hy1, (hs.sound _ _ hsome).2.2.type _ hy2, htype, Trend.hourRun, hsame]
        simp
      rw [splitBy_snoc_same hold hlast, hnew]
      simp [expand, Trend.hourRun, hsame]
  · have hnew : (accountItem A s h value (nowHour h.now)).runs itemid = s.runs itemid := by
      obtain ⟨_, _, hclosed, _⟩ | ⟨old, _, ⟨_, _, hclosed, _⟩ | ⟨_, _, hclosed, _⟩⟩ := hcases
      all_goals simp [State.runs, htrends, hclosed, Function.update_of_ne (Ne.symm hitem)]
    simp only [if_neg hitem, List.append_nil, hnew]
    exact hold

lemma accountItem_exported (hs : Accounted A hour metrics s) (h : Metric D) (value : Value D) (hour' : ℤ) :
    ∀ e ∈ (accountItem A s h value hour').exported, ∃ trend : Trend D, trend.Sound ∧ trend.run ≠ [] ∧
      e.trend = { trend with stats := average A trend.num trend.stats } ∧
      trend.hourRun ∈ (accountItem A s h value hour').closed trend.itemid := by
  obtain ⟨_, _, _, _, _, hcases⟩ := accountItem_cases A h value hour' hs.sound
  intro e he
  obtain ⟨_, _, hclosed, hexported⟩ | ⟨old, hsome, ⟨_, _, hclosed, hexported⟩ | ⟨_, _, hclosed, hexported⟩⟩ := hcases
  · rw [hexported] at he
    rw [hclosed]
    exact hs.exported e he
  · obtain ⟨hitemid, hrun, hsound⟩ := hs.sound _ _ hsome
    rw [hexported] at he
    rw [hclosed]
    rcases List.mem_append.mp he with hbefore | hnew
    · obtain ⟨trend, hok, hne, heq, hmem⟩ := hs.exported e hbefore
      refine ⟨trend, hok, hne, heq, ?_⟩
      by_cases hitem : trend.itemid = h.itemid
      · rw [hitem] at hmem ⊢
        simp [hmem]
      · simpa [hitem] using hmem
    · refine ⟨old, hsound, hrun, ?_, by simp [hitemid]⟩
      rw [exportTrend] at hnew
      split_ifs at hnew with hzero
      · cases hnew
      · rw [List.mem_singleton.mp hnew]
  · rw [hexported] at he
    rw [hclosed]
    exact hs.exported e he

lemma trendsAccountMetric_accounted (hs : Accounted A hour metrics s) (hhour : hour ≤ nowHour h.now) :
    Accounted A (nowHour h.now) (metrics ++ [h]) (trendsAccountMetric A s h) := by
  rw [trendsAccountMetric]
  cases hvalue : h.value with
  | none =>
    refine ⟨hs.sound, ?_, ?_, hs.exported⟩
    · intro itemid hnone run hrun
      exact (hs.dropped itemid hnone run hrun).trans_le hhour
    · intro itemid
      rw [accounted_append, hvalue]
      simpa using hs.runs itemid
  | some value =>
    obtain ⟨trend, htrends, hitemid, _, hsound, hcases⟩ := accountItem_cases A h value (nowHour h.now) hs.sound
    have hne : trend.run ≠ [] := by
      obtain ⟨_, hrun, _⟩ | ⟨old, _, ⟨_, hrun, _⟩ | ⟨_, hrun, _⟩⟩ := hcases
      all_goals simp [hrun]
    have hsounds : ∀ itemid found, (accountItem A s h value (nowHour h.now)).trends itemid = some found →
        found.itemid = itemid ∧ found.run ≠ [] ∧ found.Sound := by
      intro itemid found hfound
      rw [htrends] at hfound
      by_cases hitem : itemid = h.itemid
      · subst hitem
        obtain rfl : trend = found := by simpa using hfound
        exact ⟨hitemid, hne, hsound⟩
      · exact hs.sound itemid found (by simpa [hitem] using hfound)
    refine ⟨?_, ?_, ?_, ?_⟩
    · intro itemid found hfound
      obtain ⟨hsame, _⟩ | ⟨_, _, _, hnone, _⟩ := cleanupOldTrends_trends (nowHour h.now)
          (accountItem A s h value (nowHour h.now)) itemid
      · exact hsounds itemid found (hsame ▸ hfound)
      · rw [hnone] at hfound
        cases hfound
    · intro itemid hnone run hrun
      obtain ⟨hsame, hclosed⟩ | ⟨old, _, htime, _, hclosed⟩ := cleanupOldTrends_trends (nowHour h.now)
          (accountItem A s h value (nowHour h.now)) itemid
      · rw [hsame, htrends] at hnone
        have hitem : itemid ≠ h.itemid := by
          rintro rfl
          simp at hnone
        have hother : (accountItem A s h value (nowHour h.now)).closed itemid = s.closed itemid := by
          obtain ⟨_, _, hc, _⟩ | ⟨_, _, ⟨_, _, hc, _⟩ | ⟨_, _, hc, _⟩⟩ := hcases
          all_goals simp [hc, hitem]
        rw [hclosed, hother] at hrun
        exact (hs.dropped itemid (by simpa [hitem] using hnone) run hrun).trans_le hhour
      · rw [hclosed] at hrun
        obtain rfl : old.hourRun = run := by simpa using hrun
        exact htime
    · intro itemid
      rw [cleanupOldTrends_runs]
      exact accountItem_runs hs hvalue hhour itemid
    · intro e he
      rw [cleanupOldTrends_exported] at he
      obtain ⟨old, hok, hrun, heq, hmem⟩ := accountItem_exported hs h value (nowHour h.now) e he
      refine ⟨old, hok, hrun, heq, ?_⟩
      obtain ⟨_, hclosed⟩ | ⟨_, _, _, _, hclosed⟩ := cleanupOldTrends_trends (nowHour h.now)
          (accountItem A s h value (nowHour h.now)) old.itemid
      · rwa [hclosed]
      · rw [hclosed]
        exact List.mem_append_left _ hmem

lemma accountAll_accounted (A : Arith D) (metrics : List (Metric D)) (hsorted : metrics.Pairwise fun a b => a.now ≤ b.now)
    (hour : ℤ) (hhour : ∀ h ∈ metrics, nowHour h.now ≤ hour) : Accounted A hour metrics (accountAll A metrics) := by
  induction metrics using List.reverseRecOn generalizing hour with
  | nil => exact ⟨by simp [accountAll], by simp [accountAll], by simp [accountAll, accounted, State.runs], by simp [accountAll]⟩
  | append_singleton metrics h ih =>
    obtain ⟨hbefore, _, hlast⟩ := List.pairwise_append.mp hsorted
    have hnow : ∀ g ∈ metrics, nowHour g.now ≤ nowHour h.now := by
      intro g hg
      have := hlast g hg h (by simp)
      rw [nowHour, nowHour]
      omega
    have hstep := trendsAccountMetric_accounted (ih hbefore (nowHour h.now) hnow) (le_refl (nowHour h.now))
    have hall : accountAll A (metrics ++ [h]) = trendsAccountMetric A (accountAll A metrics) h := by
      simp [accountAll]
    rw [hall]
    refine ⟨hstep.sound, ?_, hstep.runs, hstep.exported⟩
    intro itemid hnone run hrun
    exact (hstep.dropped itemid hnone run hrun).trans_le (hhour h (by simp))

theorem trend_rows_of_runs (A : Arith D) (F : FloatFormat D) (metrics : List (Metric D))
    (hsorted : metrics.Pairwise fun a b => a.now ≤ b.now) :
    (∀ e ∈ (accountAll A metrics).exported, ∀ writer,
      (e.trend.accountHour, e.trend.run) ∈ (accountAll A metrics).runs e.trend.itemid ∧
      (Right F e.trend.stats.type e.trend.run (emit F writer e) ↔ Faithful F writer e.trend.stats.type e.trend.run)) ∧
    ∀ itemid, (accounted itemid metrics).splitBy sameRun = ((accountAll A metrics).runs itemid).map expand := by
  obtain ⟨hour, hhour⟩ : ∃ hour, ∀ h ∈ metrics, nowHour h.now ≤ hour := by
    obtain ⟨hour, hle⟩ := (metrics.map fun h => nowHour h.now).toFinset.exists_le
    exact ⟨hour, fun h hh => hle _ (List.mem_toFinset.mpr (List.mem_map_of_mem hh))⟩
  have hs := accountAll_accounted A metrics hsorted hour hhour
  refine ⟨?_, hs.runs⟩
  rintro ⟨trend, hostName, itemKey⟩ he writer
  obtain ⟨old, hok, hrun, rfl, hmem⟩ := hs.exported _ he
  refine ⟨List.mem_append_left _ hmem, ?_⟩
  rw [average_type]
  exact right_iff_faithful F A hok hrun hostName itemKey writer

end

def micros : Arith ℕ := ⟨0, (· + ·), fun sum num => sum / num⟩

def fixedText (digits x : ℕ) : List Char :=
  let n := (x + 10 ^ (6 - digits) / 2) / 10 ^ (6 - digits)
  Nat.toDigits 10 (n / 10 ^ digits) ++ '.' ::
    (List.range digits).reverse.map fun k => Nat.digitChar (n / 10 ^ k % 10)

def readMicros (text : List Char) : Option ℕ :=
  let whole := text.takeWhile Char.isDigit
  let fraction := text.drop (whole.length + 1)
  if text = whole ++ '.' :: fraction ∧ fraction.all Char.isDigit then
    some (Nat.ofDigitChars 10 whole 0 * 10 ^ 6 + Nat.ofDigitChars 10 fraction 0 * 10 ^ (6 - fraction.length))
  else none

/-- Numbers of six decimals, in millionths. -/
def microsFormat : FloatFormat ℕ := ⟨fixedText, readMicros⟩

example : doubleText microsFormat .clickhouse 20 = "0.0000".toList ∧
    doubleText microsFormat .worker 20 = "0.000020".toList := by
  decide

def sevenMetrics : List (Metric ℕ) :=
  [⟨1, 1, 100, some (.uint64 10), [], []⟩, ⟨2, 1, 110, some (.float 20), [], []⟩,
    ⟨1, 1, 200, some (.uint64 20), [], []⟩, ⟨2, 1, 210, some (.float 500000), [], []⟩,
    ⟨1, 1, 300, some (.uint64 30), [], []⟩, ⟨2, 1, 310, some (.uint64 7), [], []⟩,
    ⟨1, 1, 4000, some (.uint64 5), [], []⟩]

theorem sevenMetrics_runs :
    (∀ e ∈ (accountAll micros sevenMetrics).exported, ∀ writer,
      (e.trend.accountHour, e.trend.run) ∈ (accountAll micros sevenMetrics).runs e.trend.itemid ∧
      (Right microsFormat e.trend.stats.type e.trend.run (emit microsFormat writer e) ↔
        Faithful microsFormat writer e.trend.stats.type e.trend.run)) ∧
    ∀ itemid, (accounted itemid sevenMetrics).splitBy sameRun =
      ((accountAll micros sevenMetrics).runs itemid).map expand := by
  apply trend_rows_of_runs
  simp [sevenMetrics]

theorem sevenMetrics_average_six : ¬∀ e ∈ (accountAll micros sevenMetrics).exported, ∀ writer,
    Right microsFormat e.trend.stats.type e.trend.run (emit microsFormat writer e) := by
  intro h
  have hexported : (accountAll micros sevenMetrics).exported =
      [⟨⟨2, 1, 0, .float 20 250010 500000, 2, [.float 20, .float 500000]⟩, [], []⟩,
        ⟨⟨1, 1, 0, .uint64 10 20 30, 3, [.uint64 10, .uint64 20, .uint64 30]⟩, [], []⟩] := rfl
  have hright := h _ (hexported ▸ List.mem_cons_of_mem _ (List.mem_singleton_self _)) .worker
  obtain ⟨_, _, _, _, _, _, _, havg⟩ := hright
  have hsix : (6 : ℤ) = 20 := Num.int.inj havg
  cases hsix

end Glaber.History.Trends
