import Glaber.Lib.Parts
import Glaber.Preproc.Execute
import Mathlib.Algebra.Order.Field.Basic
import Mathlib.Data.Rat.Cast.Order

namespace Glaber.Preproc

open Eval Lib.Cuts

section

variable {K : Type} [Field K] [LinearOrder K]

structure Numerics.Exact (F : Numerics K) : Prop where
  ofNat : ∀ n, F.ofNat n = n
  add : ∀ x y, F.add x y = x + y
  div : ∀ x y, F.div x y = x / y
  lt : ∀ x y, F.lt x y = decide (x < y)

abbrev Timed (K : Type) := Timespec × Variant K

def Numeric (F : Numerics K) : Variant K → Prop
  | .dbl _ => True
  | .ui64 _ => True
  | .str text => text ≠ ['N', 'a', 'N'] ∧ (variantToDbl F.toDoubles (.str text)).isSome
  | _ => False

def number (F : Numerics K) (value : Variant K) : K := (variantToDbl F.toDoubles value).getD 0

def aggregate (func : AggFunc) (xs : List K) : Variant K :=
  match func with
  | .sum => .dbl xs.sum
  | .count => .ui64 (UInt64.ofNat xs.length)
  | .avg => .dbl (xs.sum / xs.length)
  | .max => .dbl (xs.max?.getD 0)
  | .min => .dbl (xs.min?.getD 0)

def late (period : ℕ) (first x : Timed K) : Prop :=
  (period : ℤ) * 1000000000 < (x.1.sec - first.1.sec) * 1000000000 + (x.1.ns - first.1.ns)

/-- The window has no unsigned value that would be read as a double, none that comes in the second in which the period ends
but behind its end, and no number that an `int` cannot hold. -/
structure WindowFits (func : AggFunc) (period : ℕ) (w : List (Timed K)) : Prop where
  readable : func ≠ .count → ∀ x ∈ w, ∀ n, x.2 ≠ .ui64 n
  wholeSeconds : ∀ first ∈ w.head?, ∀ x ∈ w, x.1.sec = first.1.sec + period → x.1.ns ≤ first.1.ns
  short : w.length < 2 ^ 31
  noOverflow : ∀ first ∈ w.head?, first.1.sec + period < 2 ^ 31

def windowOutputs (F : Numerics K) (func : AggFunc) (w : List (Timed K)) : List (Variant K) :=
  List.replicate (w.length - 1) .none ++ [aggregate func (w.map fun x => number F x.2)]

end

section

variable {K : Type} [Field K] [LinearOrder K] {F : Numerics K}

def accumulated (F : Numerics K) (func : AggFunc) (w : List (Timed K)) : Variant K :=
  let xs := w.map fun x => number F x.2
  match func with
  | .sum => .dbl xs.sum
  | .avg => .dbl xs.sum
  | .count => .ui64 0
  | .max => .dbl (xs.max?.getD 0)
  | .min => .dbl (xs.min?.getD 0)

def windowHistory (F : Numerics K) (func : AggFunc) (w : List (Timed K)) : Variant K × Timespec :=
  match w with
  | [] => (.none, ⟨0, 0⟩)
  | first :: w => (accumulated F func (first :: w), ⟨first.1.sec, (first :: w).length⟩)

omit [LinearOrder K] in
lemma aggNumeric_numeric {func : AggFunc} {value : Variant K} (h : Numeric F value)
    (hread : func ≠ .count → ∀ n, value ≠ .ui64 n) :
    ∃ taken, aggNumeric F func value = some taken ∧ (func ≠ .count → dataDbl F taken = number F value) := by
  cases value with
  | dbl x => exact ⟨.dbl x, rfl, fun _ => rfl⟩
  | ui64 n => exact ⟨.ui64 n, rfl, fun hfunc => absurd rfl (hread hfunc n)⟩
  | str text =>
    obtain ⟨-, hsome⟩ := h
    obtain ⟨x, hx⟩ := Option.isSome_iff_exists.1 hsome
    by_cases hfunc : func = .count
    · exact ⟨.str text, by rw [aggNumeric, if_pos hfunc], fun hne => absurd hfunc hne⟩
    · refine ⟨.dbl x, ?_, fun _ => ?_⟩
      · rw [aggNumeric, if_neg hfunc, convertDbl, hx]
        rfl
      · rw [number, hx]
        rfl
  | _ => exact absurd h id

lemma max?_concat (x y : K) (xs : List K) : ((x :: xs) ++ [y]).max?.getD 0 = max ((x :: xs).max?.getD 0) y := by
  simp only [List.cons_append, List.max?_cons', List.foldl_append, List.foldl_cons, List.foldl_nil, Option.getD_some]

lemma min?_concat (x y : K) (xs : List K) : ((x :: xs) ++ [y]).min?.getD 0 = min ((x :: xs).min?.getD 0) y := by
  simp only [List.cons_append, List.min?_cons', List.foldl_append, List.foldl_cons, List.foldl_nil, Option.getD_some]

lemma accumulated_not_none (func : AggFunc) (w : List (Timed K)) : (accumulated F func w).isNone = false := by
  cases func <;> rfl

omit [Field K] [LinearOrder K] in
@[simp] lemma dataDbl_dbl (x : K) : dataDbl F (.dbl x) = x := rfl

lemma aggTake_first (hF : F.Exact) {func : AggFunc} {taken : Variant K} {x : Timed K}
    (hx : func ≠ .count → dataDbl F taken = number F x.2) :
    aggTake F func taken (if func = .count then .ui64 0 else .dbl (dataDbl F taken)) ⟨x.1.sec, 0⟩ =
      accumulated F func [x] := by
  cases func with
  | count => rfl
  | sum => simp [aggTake, accumulated, hx]
  | avg => simp [aggTake, accumulated, hx]
  | max => simp [aggTake, accumulated, hx, hF.lt]
  | min => simp [aggTake, accumulated, hx, hF.lt]

lemma aggTake_next (hF : F.Exact) {func : AggFunc} {taken : Variant K} (first : Timed K) {x : Timed K} {w : List (Timed K)}
    (hx : func ≠ .count → dataDbl F taken = number F x.2) (sec : ℤ) :
    aggTake F func taken (accumulated F func (first :: w)) ⟨sec, (first :: w).length⟩ =
      accumulated F func (first :: w ++ [x]) := by
  have hne : (w.length : ℤ) + 1 ≠ 0 := by omega
  cases func with
  | count => rfl
  | sum => simp [aggTake, accumulated, hx, hF.add, hne, add_assoc]
  | avg => simp [aggTake, accumulated, hx, hF.add, hne, add_assoc]
  | max =>
    have hmax := max?_concat (number F first.2) (number F x.2) (w.map fun x => number F x.2)
    simp only [aggTake, accumulated, dataDbl_dbl, List.map_append, List.map_cons, List.map_nil, hmax,
      hx (by decide), hF.lt, decide_eq_true_eq]
    congr 1
    split_ifs with h
    · exact (max_eq_left h.le).symm
    · exact (max_eq_right (not_lt.1 h)).symm
  | min =>
    have hmin := min?_concat (number F first.2) (number F x.2) (w.map fun x => number F x.2)
    simp only [aggTake, accumulated, dataDbl_dbl, List.map_append, List.map_cons, List.map_nil, hmin,
      hx (by decide), hF.lt, decide_eq_true_eq]
    congr 1
    split_ifs with h
    · exact (min_eq_left h.le).symm
    · exact (min_eq_right (not_lt.1 h)).symm

lemma aggResult_accumulated (hF : F.Exact) (func : AggFunc) (w : List (Timed K)) :
    aggResult F func (accumulated F func w) w.length = aggregate func (w.map fun x => number F x.2) := by
  have hlen : F.ofInt (w.length : ℤ) = (w.length : K) := by
    rw [Numerics.ofInt, if_neg (by omega), hF.ofNat]
    rfl
  cases func with
  | avg => simp [aggResult, accumulated, aggregate, hF.div, hlen]
  | count =>
    simp only [aggResult, aggregate, List.length_map]
    congr 1
    apply UInt64.toNat.inj
    rw [UInt64.ofInt, UInt64.toNat_ofNat', UInt64.toNat_ofNat']
    omega
  | _ => rfl

lemma aggAdd_window (hF : F.Exact) {func : AggFunc} {taken : Variant K} {x : Timed K}
    (hx : func ≠ .count → dataDbl F taken = number F x.2) (period : ℕ) (w : List (Timed K)) {first : Timed K}
    (hfirst : (w ++ [x]).head? = some first) :
    aggAdd F func period taken x.1 (windowHistory F func w).1 (windowHistory F func w).2 =
      if first.1.sec + period < x.1.sec then
        ⟨true, aggregate func ((w ++ [x]).map fun x => number F x.2), .none, (windowHistory F func (w ++ [x])).2⟩
      else ⟨true, .none, (windowHistory F func (w ++ [x])).1, (windowHistory F func (w ++ [x])).2⟩ := by
  have hresult := aggResult_accumulated hF func (w ++ [x])
  cases w with
  | nil =>
    obtain rfl : x = first := by simpa using hfirst
    have htake := aggTake_first hF hx
    simp only [List.nil_append, List.length_singleton, Nat.cast_one] at hresult
    simp only [aggAdd, aggStart, windowHistory, Variant.isNone, if_true, List.nil_append, htake, zero_add, hresult,
      List.length_singleton, Nat.cast_one]
  | cons y w =>
    obtain rfl : y = first := by simpa using hfirst
    have htake := aggTake_next hF y (w := w) hx y.1.sec
    have hcount : ((y :: w).length : ℤ) + 1 = ((y :: w ++ [x]).length : ℤ) := by simp
    simp only [aggAdd, aggStart, windowHistory, accumulated_not_none, Bool.false_eq_true, if_false, htake, hcount, hresult]
    rfl

omit [Field K] [LinearOrder K] in
lemma throttleValueAgg_eq {params time name : List Char} {func : AggFunc} {period : ℕ}
    (hcut : Expr.cut '\n' params = (time, some name))
    (hfunc : getAggFunc name = some func) (htime : Expr.isTimeSuffix time = some period) {value taken : Variant K}
    (hvalue : Numeric F value) (htaken : aggNumeric F func value = some taken) (ts : Timespec) (historyValue : Variant K)
    (historyTs : Timespec) :
    throttleValueAgg F params value ts historyValue historyTs = aggAdd F func period taken ts historyValue historyTs := by
  have hne : time ≠ [] := by
    rintro rfl
    simp [Expr.isTimeSuffix] at htime
  unfold throttleValueAgg
  split
  · exact absurd rfl hvalue.1
  · simp only [hcut, hfunc, htime, htaken, if_neg hne]

end

section

variable {K : Type} [Field K] [LinearOrder K] {F : Numerics K}

def Holding (F : Numerics K) (func : AggFunc) (w : List (Timed K)) (history : Option (History K)) : Prop :=
  history.getD [] = if w = [] then [] else [⟨0, (windowHistory F func w).1, (windowHistory F func w).2⟩]

lemma historyPop_holding {func : AggFunc} {w : List (Timed K)} {history : Option (History K)}
    (h : Holding F func w history) : (historyPop history 0).2 = windowHistory F func w := by
  cases w with
  | nil =>
    rw [Holding, if_pos rfl] at h
    cases history with
    | none => rfl
    | some entries =>
      obtain rfl : entries = [] := h
      rfl
  | cons first w =>
    rw [Holding, if_neg (List.cons_ne_nil _ _)] at h
    cases history with
    | none => exact absurd h (by simp)
    | some entries =>
      obtain rfl : entries = [_] := h
      rfl

lemma aggregate_plain (func : AggFunc) (xs : List K) :
    (aggregate func xs).isErr = false ∧ (aggregate func xs).isNone = false := by
  cases func <;> exact ⟨rfl, rfl⟩

structure Asks (step : Step) (func : AggFunc) (period : ℕ) : Prop where
  type : step.type = .throttleTimedValueAgg
  params : ∃ time name, Expr.cut '\n' step.params = (time, some name) ∧ getAggFunc name = some func ∧
    Expr.isTimeSuffix time = some period

variable {valueType : ValueType} {step : Step} {func : AggFunc} {period : ℕ}
  (formatError : Variant K → List (Result K) → List Char)

omit [Field K] [LinearOrder K] in
lemma ppExecute_single {history : Option (History K)} {value : Variant K} {ts : Timespec} {outcome : StepOutcome K}
    (hinput : value.isErr = false)
    (hout : executeStep F valueType step value ts (historyPop history 0).2.1 (historyPop history 0).2.2 = outcome)
    (hok : outcome.succeeded = true) (hplain : outcome.value.isErr = false) :
    ppExecute F formatError ⟨valueType, [step], history⟩ value ts =
      (outcome.value, ⟨valueType, [step],
        some (if outcome.historyValue.isNone then [] else [⟨0, outcome.historyValue, outcome.historyTs⟩])⟩) := by
  have hnum : (⟨valueType, [step], history⟩ : ItemPreproc K).historyNum ≠ 0 := by
    cases h : step.type <;> simp [ItemPreproc.historyNum, hasHistory, h]
  have hkept : hasHistory step.type = true := by cases step.type <;> rfl
  have hrun : (Exec.start ⟨valueType, [step], history⟩ value).run F valueType ts 0 [step] =
      (Exec.start ⟨valueType, [step], history⟩ value).step F valueType ts 0 step := by
    simp only [Exec.run, Exec.start, hinput, Bool.false_eq_true, if_false]
    split_ifs <;> rfl
  have hafter : ((Exec.start ⟨valueType, [step], history⟩ value).step F valueType ts 0 step).value = outcome.value ∧
      ((Exec.start ⟨valueType, [step], history⟩ value).step F valueType ts 0 step).history =
        some (if outcome.historyValue.isNone then [] else [⟨0, outcome.historyValue, outcome.historyTs⟩]) := by
    simp only [Exec.step, Exec.outcome, Exec.start, hout, hok, if_true, if_neg hnum, hplain, hkept, Option.map_some,
      historyAdd]
    cases outcome.historyValue.isNone <;> simp
  rw [ppExecute, if_neg (List.cons_ne_nil _ _)]
  simp only [hrun, hafter.1, hafter.2, hplain, Bool.false_eq_true, if_false]

variable (valueType) in
lemma executeStep_window (hF : F.Exact) (hstep : Asks step func period) {w : List (Timed K)} {x first : Timed K}
    (hvalue : Numeric F x.2) (hread : func ≠ .count → ∀ n, x.2 ≠ .ui64 n) (hfirst : (w ++ [x]).head? = some first) :
    executeStep F valueType step x.2 x.1 (windowHistory F func w).1 (windowHistory F func w).2 =
      if first.1.sec + period < x.1.sec then
        ⟨true, aggregate func ((w ++ [x]).map fun x => number F x.2), .none, (windowHistory F func (w ++ [x])).2⟩
      else ⟨true, .none, (windowHistory F func (w ++ [x])).1, (windowHistory F func (w ++ [x])).2⟩ := by
  obtain ⟨time, name, hcut, hfunc, htime⟩ := hstep.params
  obtain ⟨taken, htaken, hx⟩ := aggNumeric_numeric hvalue hread
  rw [executeStep, hstep.type]
  dsimp only
  rw [throttleValueAgg_eq hcut hfunc htime hvalue htaken]
  exact aggAdd_window hF hx period w hfirst

omit [Field K] [LinearOrder K] in
lemma numeric_not_err {value : Variant K} (h : Numeric F value) : value.isErr = false := by
  cases value with
  | err message => exact absurd h id
  | _ => rfl

variable (valueType) in
lemma ppExecute_window (hF : F.Exact) (hstep : Asks step func period) {w : List (Timed K)} {x first : Timed K}
    (hvalue : Numeric F x.2) (hread : func ≠ .count → ∀ n, x.2 ≠ .ui64 n) (hfirst : (w ++ [x]).head? = some first)
    {history : Option (History K)} (hhold : Holding F func w history) :
    ∃ history', (first.1.sec + period < x.1.sec →
        ppExecute F formatError ⟨valueType, [step], history⟩ x.2 x.1 =
            (aggregate func ((w ++ [x]).map fun x => number F x.2), ⟨valueType, [step], history'⟩) ∧
          Holding F func [] history') ∧
      (¬ first.1.sec + period < x.1.sec →
        ppExecute F formatError ⟨valueType, [step], history⟩ x.2 x.1 = (.none, ⟨valueType, [step], history'⟩) ∧
          Holding F func (w ++ [x]) history') := by
  have hout := executeStep_window valueType hF hstep hvalue hread hfirst
  rw [← historyPop_holding hhold] at hout
  have hinput := numeric_not_err hvalue
  by_cases hlate : first.1.sec + period < x.1.sec
  · rw [if_pos hlate] at hout
    refine ⟨some [], fun _ => ⟨?_, rfl⟩, fun h => absurd hlate h⟩
    exact ppExecute_single formatError hinput hout rfl (aggregate_plain _ _).1
  · rw [if_neg hlate] at hout
    obtain ⟨y, ys, hwindow⟩ := List.exists_cons_of_ne_nil (show w ++ [x] ≠ [] by simp)
    refine ⟨some [⟨0, (windowHistory F func (w ++ [x])).1, (windowHistory F func (w ++ [x])).2⟩], fun h => absurd h hlate,
      fun _ => ⟨?_, ?_⟩⟩
    · have hsome : (windowHistory F func (w ++ [x])).1.isNone = false := by
        rw [hwindow]
        exact accumulated_not_none func (y :: ys)
      have hsingle := ppExecute_single formatError hinput hout rfl rfl
      rwa [hsome] at hsingle
    · rw [Holding, if_neg (show w ++ [x] ≠ [] by simp)]
      rfl

def Leads (F : Numerics K) (valueType : ValueType) (step : Step) (history : Option (History K)) (xs : List (Timed K))
    (outs : List (Variant K)) (history' : Option (History K)) : Prop :=
  ∀ ys, ppExecuteAll F formatError ⟨valueType, [step], history⟩ (xs ++ ys) =
    outs ++ ppExecuteAll F formatError ⟨valueType, [step], history'⟩ ys

omit [Field K] [LinearOrder K] in
lemma Leads.trans {h₁ h₂ h₃ : Option (History K)} {xs ys : List (Timed K)} {outs outs' : List (Variant K)}
    (hfirst : Leads formatError F valueType step h₁ xs outs h₂)
    (hsecond : Leads formatError F valueType step h₂ ys outs' h₃) :
    Leads formatError F valueType step h₁ (xs ++ ys) (outs ++ outs') h₃ := by
  intro zs
  rw [List.append_assoc, hfirst, hsecond, List.append_assoc]

omit [Field K] [LinearOrder K] in
lemma Leads.one {h₁ h₂ : Option (History K)} {x : Timed K} {out : Variant K}
    (h : ppExecute F formatError ⟨valueType, [step], h₁⟩ x.2 x.1 = (out, ⟨valueType, [step], h₂⟩)) :
    Leads formatError F valueType step h₁ [x] [out] h₂ := by
  intro ys
  rw [List.singleton_append, ppExecuteAll, h]
  rfl

structure Fit (F : Numerics K) (func : AggFunc) (period : ℕ) (first x : Timed K) : Prop where
  numeric : Numeric F x.2
  readable : func ≠ .count → ∀ n, x.2 ≠ .ui64 n
  wholeSeconds : x.1.sec = first.1.sec + period → x.1.ns ≤ first.1.ns
  nanoseconds : (0 ≤ first.1.ns ∧ first.1.ns < 1000000000) ∧ 0 ≤ x.1.ns ∧ x.1.ns < 1000000000

omit [Field K] [LinearOrder K] in
lemma late_iff_seconds {first x : Timed K}
    (hns : (0 ≤ first.1.ns ∧ first.1.ns < 1000000000) ∧ 0 ≤ x.1.ns ∧ x.1.ns < 1000000000)
    (hsame : x.1.sec = first.1.sec + period → x.1.ns ≤ first.1.ns) :
    late period first x ↔ first.1.sec + period < x.1.sec := by
  rw [late]
  constructor
  · intro h
    by_contra hnot
    rcases lt_or_eq_of_le (not_lt.1 hnot) with hlt | heq
    · omega
    · have := hsame heq
      omega
  · intro h
    omega

variable (valueType) in
lemma open_leads (hF : F.Exact) (hstep : Asks step func period) {w xs : List (Timed K)} (hopen : Open (late period) (w ++ xs))
    (hfit : ∀ first ∈ (w ++ xs).head?, ∀ x ∈ xs, Fit F func period first x) {history : Option (History K)}
    (hhold : Holding F func w history) :
    ∃ history', Leads formatError F valueType step history xs (List.replicate xs.length .none) history' ∧
      Holding F func (w ++ xs) history' := by
  induction xs generalizing w history with
  | nil => exact ⟨history, fun ys => rfl, by simpa using hhold⟩
  | cons x xs ih =>
    obtain ⟨first, hfirst⟩ : ∃ first, (w ++ [x]).head? = some first := by
      cases w with
      | nil => exact ⟨x, rfl⟩
      | cons a w => exact ⟨a, rfl⟩
    have hhead : (w ++ x :: xs).head? = some first := by
      cases w with
      | nil => exact hfirst
      | cons a w => exact hfirst
    have hx := hfit first hhead x List.mem_cons_self
    have hearly : ¬ first.1.sec + period < x.1.sec := by
      rw [← late_iff_seconds hx.nanoseconds hx.wholeSeconds]
      exact hopen first hhead x (List.mem_append_right w List.mem_cons_self)
    obtain ⟨history₁, -, hheld⟩ := ppExecute_window valueType formatError hF hstep hx.numeric hx.readable
      hfirst hhold
    obtain ⟨hout, hhold₁⟩ := hheld hearly
    rw [List.append_cons] at hopen hfit ⊢
    obtain ⟨history₂, hleads, hhold₂⟩ := ih hopen
      (fun first hfirst y hy => hfit first hfirst y (List.mem_cons_of_mem x hy)) hhold₁
    exact ⟨history₂, (Leads.one formatError hout).trans formatError hleads, hhold₂⟩

variable (valueType) in
lemma closed_leads (hF : F.Exact) (hstep : Asks step func period) {w : List (Timed K)} (hclosed : Closed (late period) w)
    (hfit : ∀ first ∈ w.head?, ∀ x ∈ w, Fit F func period first x) {history : Option (History K)}
    (hhold : Holding F func [] history) :
    ∃ history', Leads formatError F valueType step history w (windowOutputs F func w) history' ∧
      Holding F func [] history' := by
  obtain ⟨early, last, first, rfl, hopen, hfirst, hlate⟩ := hclosed
  have hearly : ∀ first ∈ ([] ++ early).head?, ∀ x ∈ early, Fit F func period first x := by
    intro first' hfirst' x hx
    cases early with
    | nil => simp at hx
    | cons a early => exact hfit first' hfirst' x (List.mem_append_left _ hx)
  obtain ⟨history₁, hleads, hhold₁⟩ := open_leads valueType formatError hF hstep
    (w := []) (by simpa using hopen) hearly hhold
  have hlast := hfit first hfirst last (List.mem_append_right early (List.mem_singleton_self last))
  rw [late_iff_seconds hlast.nanoseconds hlast.wholeSeconds] at hlate
  obtain ⟨history₂, hemitted, -⟩ := ppExecute_window valueType formatError hF hstep hlast.numeric
    hlast.readable hfirst (by simpa using hhold₁)
  obtain ⟨hout, hhold₂⟩ := hemitted hlate
  refine ⟨history₂, ?_, hhold₂⟩
  have hboth := hleads.trans formatError (Leads.one formatError hout)
  rwa [windowOutputs, List.length_append, List.length_singleton, Nat.add_sub_cancel]

variable (valueType) in
lemma windows_lead (hF : F.Exact) (hstep : Asks step func period) {closed : List (List (Timed K))}
    (hclosed : ∀ w ∈ closed, Closed (late period) w)
    (hfit : ∀ w ∈ closed, ∀ first ∈ w.head?, ∀ x ∈ w, Fit F func period first x) {history : Option (History K)}
    (hhold : Holding F func [] history) :
    ∃ history', Leads formatError F valueType step history closed.flatten (closed.flatMap (windowOutputs F func)) history' ∧
      Holding F func [] history' := by
  induction closed generalizing history with
  | nil => exact ⟨history, fun ys => rfl, hhold⟩
  | cons w closed ih =>
    obtain ⟨hw, hws⟩ := List.forall_mem_cons.1 hclosed
    obtain ⟨hfw, hfws⟩ := List.forall_mem_cons.1 hfit
    obtain ⟨history₁, hfirst, hhold₁⟩ := closed_leads valueType formatError hF hstep hw hfw hhold
    obtain ⟨history₂, hrest, hhold₂⟩ := ih hws hfws hhold₁
    exact ⟨history₂, hfirst.trans formatError hrest, hhold₂⟩

end

section

variable {K : Type} [Field K] [LinearOrder K] {F : Numerics K}

theorem aggregation_by_windows (hF : F.Exact) {valueType : ValueType} {step : Step} {func : AggFunc} {period : ℕ}
    (hstep : Asks step func period) (formatError : Variant K → List (Result K) → List Char) {inputs : List (Timed K)}
    (hinputs : ∀ x ∈ inputs, Numeric F x.2 ∧ 0 ≤ x.1.ns ∧ x.1.ns < 1000000000) :
    ∃ closed rest, Windows (late period) inputs closed rest ∧
      ((∀ w ∈ rest :: closed, WindowFits func period w) →
        ppExecuteAll F formatError ⟨valueType, [step], none⟩ inputs =
          closed.flatMap (windowOutputs F func) ++ List.replicate rest.length .none) := by
  obtain ⟨closed, rest, hwindows⟩ := exists_windows (late period) inputs
  refine ⟨closed, rest, hwindows, fun hfits => ?_⟩
  have hfit : ∀ w ∈ rest :: closed, ∀ first ∈ w.head?, ∀ x ∈ w, Fit F func period first x := by
    intro w hw first hfirst x hx
    have hsub : ∀ y ∈ w, y ∈ inputs := fun y hy => (hwindows.sublist hw).subset hy
    have hwfits := hfits w hw
    have hx' := hinputs x (hsub x hx)
    exact ⟨hx'.1, fun hfunc => hwfits.readable hfunc x hx, hwfits.wholeSeconds first hfirst x hx,
      (hinputs first (hsub first (List.mem_of_head? hfirst))).2, hx'.2⟩
  obtain ⟨hrest, hclosed⟩ := List.forall_mem_cons.1 hfit
  obtain ⟨history₁, hleads, hhold⟩ := windows_lead valueType formatError hF hstep
    hwindows.closed hclosed (show Holding F func [] none from rfl)
  obtain ⟨history₂, hlast, -⟩ := open_leads valueType formatError hF hstep (w := []) hwindows.opened
    hrest hhold
  have hall := hleads.trans formatError hlast []
  rw [List.append_nil, ← hwindows.split] at hall
  rw [hall, ppExecuteAll, List.append_nil]

def bitsAsDouble (bits : UInt64) : ℚ :=
  let sign : ℚ := if bits.toNat / 2 ^ 63 = 0 then 1 else -1
  let exponent : ℕ := bits.toNat / 2 ^ 52 % 2 ^ 11
  let mantissa : ℕ := bits.toNat % 2 ^ 52
  if exponent = 0 then sign * mantissa / 2 ^ 1074 else sign * (2 ^ 52 + mantissa) * 2 ^ ((exponent : ℤ) - 1075)

def rationals : Numerics ℚ where
  ofNat := fun n => n
  neg := fun x => -x
  add := fun x y => x + y
  sub := fun x y => x - y
  mul := fun x y => x * y
  div := fun x y => x / y
  lt := fun x y => decide (x < y)
  near := fun x y => decide (x = y)
  normal := fun _ => true
  atof := fun _ => 0
  isDouble := fun _ => none
  print := fun x => (Int.repr x.num).toList
  le := fun x y => decide (x ≤ y)
  truncate := fun x => UInt64.ofNat x.floor.toNat
  reinterpret := fun value => match value with
    | .ui64 bits => bitsAsDouble bits
    | _ => 0

lemma rationals_exact : rationals.Exact := ⟨fun _ => rfl, fun _ _ => rfl, fun _ _ => rfl, fun _ _ => rfl⟩

def sumOfMinute : Step := ⟨.throttleTimedValueAgg, ['1', 'm', '\n', 's', 'u', 'm'], .default, []⟩

lemma sumOfMinute_asks : Asks sumOfMinute .sum 60 := by
  refine ⟨rfl, ['1', 'm'], ['s', 'u', 'm'], ?_, ?_, ?_⟩ <;> decide

def sevenFloats : List (Timed ℚ) :=
  [(⟨0, 0⟩, .dbl 1), (⟨30, 0⟩, .dbl 2), (⟨61, 0⟩, .dbl 4), (⟨70, 0⟩, .dbl 8), (⟨100, 0⟩, .dbl 16), (⟨131, 0⟩, .dbl 32),
    (⟨140, 0⟩, .dbl 64)]

theorem sevenFloats_by_windows :
    ppExecuteAll rationals (fun _ _ => []) ⟨.float, [sumOfMinute], none⟩ sevenFloats =
      [.none, .none, .dbl 7, .none, .none, .dbl 56, .none] ∧
    ∃ closed rest, Windows (late 60) sevenFloats closed rest ∧
      ppExecuteAll rationals (fun _ _ => []) ⟨.float, [sumOfMinute], none⟩ sevenFloats =
        closed.flatMap (windowOutputs rationals .sum) ++ List.replicate rest.length .none := by
  have hvalues : ∀ x ∈ sevenFloats, (∀ n, x.2 ≠ .ui64 n) ∧ x.1.ns = 0 ∧ x.1.sec ≤ 140 := by simp [sevenFloats]
  have hnumbers : ∀ x ∈ sevenFloats, Numeric rationals x.2 ∧ 0 ≤ x.1.ns ∧ x.1.ns < 1000000000 := by
    simp [sevenFloats, Numeric]
  obtain ⟨closed, rest, hwindows, houtputs⟩ :=
    @aggregation_by_windows _ _ _ _ rationals_exact .float _ _ _ sumOfMinute_asks (fun _ _ => []) _ hnumbers
  refine ⟨by decide +kernel, closed, rest, hwindows, houtputs fun w hw => ?_⟩
  have hsub := hwindows.sublist hw
  refine ⟨fun _ x hx => (hvalues x (hsub.subset hx)).1, fun first hfirst x hx _ => ?_, ?_, fun first hfirst => ?_⟩
  · rw [(hvalues x (hsub.subset hx)).2.1, (hvalues first (hsub.subset (List.mem_of_head? hfirst))).2.1]
  · exact hsub.length_le.trans_lt (show 7 < 2 ^ 31 by norm_num)
  · have := (hvalues first (hsub.subset (List.mem_of_head? hfirst))).2.2
    omega

def twoUnsigned : List (Timed ℚ) := [(⟨0, 0⟩, .ui64 5), (⟨61, 0⟩, .ui64 7)]

theorem twoUnsigned_not_summed :
    Windows (late 60) twoUnsigned [twoUnsigned] [] ∧
      ppExecuteAll rationals (fun _ _ => []) ⟨.uint64, [sumOfMinute], none⟩ twoUnsigned ≠
        [twoUnsigned].flatMap (windowOutputs rationals .sum) := by
  constructor
  · refine ⟨by simp, ?_, fun first hfirst => by simp at hfirst⟩
    intro w hw
    rw [List.mem_singleton.1 hw]
    refine ⟨[(⟨0, 0⟩, .ui64 5)], (⟨61, 0⟩, .ui64 7), (⟨0, 0⟩, .ui64 5), rfl, ?_, rfl, ?_⟩
    · simp [Open, late]
    · simp [late]
  · decide +kernel

end

end Glaber.Preproc
