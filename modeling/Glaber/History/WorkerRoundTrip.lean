import Glaber.History.Worker
import Mathlib.Data.List.ReduceOption

namespace Glaber.History.Worker

open Json Lib.Print Clickhouse

section

lemma toDigits_zero_head {n : ℕ} (h : (Nat.toDigits 10 n).head? = some '0') : Nat.toDigits 10 n = ['0'] := by
  induction n using Nat.strong_induction_on with
  | _ n ih =>
      by_cases hn : n < 10
      · rw [Nat.toDigits_of_lt_base hn] at h ⊢
        simpa using h
      · have hsplit := Nat.toDigits_of_base_le (b := 10) (n := n) (by omega) (by omega)
        have hhead : (Nat.toDigits 10 (n / 10)).head? = some '0' := by
          rw [hsplit] at h
          obtain ⟨d, ds, hds⟩ := List.exists_cons_of_ne_nil (Nat.toDigits_ne_nil (n := n / 10) (b := 10))
          simpa [hds] using h
        have hzero := ih (n / 10) (by omega) hhead
        have hvalue : Nat.ofDigitChars 10 (Nat.toDigits 10 (n / 10)) 0 = 0 := by
          rw [hzero]
          rfl
        rw [Nat.ofDigitChars_ten_toDigits] at hvalue
        omega

lemma numberToken_toDigits (n : ℕ) {sign : List Char} (hsign : sign = [] ∨ sign = ['-']) :
    NumberToken (sign ++ Nat.toDigits 10 n) := by
  refine ⟨sign, Nat.toDigits 10 n, [], [], by simp, hsign, ?_, .inl rfl, .inl rfl⟩
  exact ⟨Nat.toDigits_ne_nil, fun c hc => isDigit_of_mem_toDigits hc, toDigits_zero_head⟩

lemma length_toDigits_le {n : ℕ} (h : n < 2 ^ 64) : (Nat.toDigits 10 n).length ≤ 20 := by
  apply (Nat.length_toDigits_le_iff (by omega) (by omega)).2
  omega

lemma idBuffer_short {text : List Char} (h : text.length ≤ 20) : idBuffer text = text := by
  exact List.take_of_length_le h

lemma numberToken_decimal (z : ℤ) : NumberToken (decimal z) := by
  unfold decimal
  split_ifs
  · exact numberToken_toDigits _ (.inr rfl)
  · exact numberToken_toDigits _ (.inl rfl)

lemma length_decimal_le {z : ℤ} (h : z.natAbs ≤ 2 ^ 63) : (decimal z).length ≤ 20 := by
  have hdigits : (Nat.toDigits 10 z.natAbs).length ≤ 19 := by
    apply (Nat.length_toDigits_le_iff (by omega) (by omega)).2
    omega
  unfold decimal
  split_ifs <;> simp <;> omega

lemma numberToken_idBuffer {D : Type} (fmt : FloatText D) (x : D) : NumberToken (idBuffer (fmt.print x)) := by
  obtain ⟨sign, whole, fraction, htext, hsign, ⟨hne, hwhole, hzero⟩, hfraction⟩ := fmt.print_fixed x
  have hshort : sign.length ≤ 1 := by rcases hsign with rfl | rfl <;> simp
  obtain ⟨d, ds, rfl⟩ := List.exists_cons_of_ne_nil hne
  rw [idBuffer, htext, show maxIdLen - 1 = 20 from rfl, List.append_assoc, List.take_append,
    List.take_of_length_le (by omega : sign.length ≤ 20), List.take_append]
  have hroom : 0 < 20 - sign.length := by omega
  generalize 20 - sign.length = room at hroom
  obtain ⟨room, rfl⟩ := Nat.exists_eq_add_one_of_ne_zero (Nat.ne_of_gt hroom)
  refine ⟨sign, d :: ds.take room, ('.' :: fraction).take (room - ds.length), [], ?_, hsign, ⟨by simp, ?_, ?_⟩, ?_, .inl rfl⟩
  · simp
  · intro c hc
    rcases List.mem_cons.1 hc with rfl | hc
    · exact hwhole _ List.mem_cons_self
    · exact hwhole c (List.mem_cons_of_mem _ (List.mem_of_mem_take hc))
  · intro hhead
    obtain ⟨-, rfl⟩ : d = '0' ∧ ds = [] := by simpa using hzero (by simpa using hhead)
    simpa using hhead
  · cases room - ds.length with
    | zero => exact .inl rfl
    | succ n => exact .inr ⟨fraction.take n, rfl, fun c hc => hfraction c (List.mem_of_mem_take hc)⟩

end

section

variable {D : Type} (fmt : FloatText D)

def memberOf : Op → List Char × Tree
  | .addString name string isString => (name.getD [], leaf string isString)
  | _ => ([], .literal [])

def metricMembers (h : DcHistory D) : List (List Char × Tree) := (headOps h ++ valueOps fmt h.value).map memberOf

def metricTree (h : DcHistory D) : Tree := .node true (metricMembers fmt h)

structure Typed (h : DcHistory D) : Prop where
  sec : -2 ^ 31 ≤ h.sec ∧ h.sec < 2 ^ 31
  ns : -2 ^ 31 ≤ h.ns ∧ h.ns < 2 ^ 31
  hostName : ∀ text, h.hostName = some text → '\x00' ∉ text
  itemKey : ∀ text, h.itemKey = some text → '\x00' ∉ text
  str : ∀ text, h.value = .str (some text) ∨ h.value = .text (some text) → '\x00' ∉ text
  log : ∀ log, h.value = .log log → (-2 ^ 31 ≤ log.severity ∧ log.severity < 2 ^ 31) ∧ '\x00' ∉ log.value ∧
    ∀ text, log.source = some text → '\x00' ∉ text

def LeafOp (op : Op) : Prop :=
  ∃ name string isString, op = .addString (some name) string isString ∧ '\x00' ∉ name ∧ name.length < maxStringLen ∧
    StringFits string isString

lemma addStr_leafOp {name : String} (hname : '\x00' ∉ name.toList) (hlength : name.toList.length < maxStringLen)
    {string : Option (List Char)} (h : ∀ text, string = some text → '\x00' ∉ text) : LeafOp (addStr name string) :=
  ⟨name.toList, string, true, rfl, hname, hlength, h⟩

lemma addNumber_leafOp {name : String} (hname : '\x00' ∉ name.toList) (hlength : name.toList.length < maxStringLen)
    {text : List Char} (h : NumberToken (idBuffer text)) : LeafOp (addNumber name text) := by
  refine ⟨name.toList, some (idBuffer text), false, rfl, hname, hlength, ?_⟩
  rintro text ⟨rfl⟩
  exact .inl h

lemma addUint64_leafOp {name : String} (hname : '\x00' ∉ name.toList) (hlength : name.toList.length < maxStringLen)
    {value : ℕ} (h : value < 2 ^ 64) : LeafOp (addUint64 name value) := by
  apply addNumber_leafOp hname hlength
  rw [idBuffer_short (length_toDigits_le h)]
  exact numberToken_toDigits value (.inl rfl)

lemma addInt64_leafOp {name : String} (hname : '\x00' ∉ name.toList) (hlength : name.toList.length < maxStringLen)
    {value : ℤ} (h : value.natAbs ≤ 2 ^ 63) : LeafOp (addInt64 name value) := by
  apply addNumber_leafOp hname hlength
  rw [idBuffer_short (length_decimal_le h)]
  exact numberToken_decimal value

lemma toUint64_lt (z : ℤ) : toUint64 z < 2 ^ 64 := by
  unfold toUint64
  omega

variable {fmt} {h : DcHistory D}

lemma headOps_leaf (ht : Typed h) : ∀ op ∈ headOps h, LeafOp op := by
  have htype : (itemValueType h.value.type).natAbs ≤ 2 ^ 63 := by cases h.value.type <;> simp [itemValueType]
  intro op hop
  simp only [headOps, List.mem_cons, List.not_mem_nil, or_false] at hop
  rcases hop with rfl | rfl | rfl | rfl | rfl | rfl
  · exact addStr_leafOp (by decide) (by decide) ht.hostName
  · exact addStr_leafOp (by decide) (by decide) ht.itemKey
  · exact addUint64_leafOp (by decide) (by decide) h.itemid.toNat_lt
  · exact addUint64_leafOp (by decide) (by decide) (toUint64_lt _)
  · exact addUint64_leafOp (by decide) (by decide) (toUint64_lt _)
  · exact addInt64_leafOp (by decide) (by decide) htype

lemma natAbs_ld (u : UInt64) : (ld u).natAbs ≤ 2 ^ 63 := by
  have := UInt64.toNat_lt u
  rw [ld_eq]
  split_ifs <;> omega

lemma valueOps_leaf (ht : Typed h) : ∀ op ∈ valueOps fmt h.value, LeafOp op := by
  intro op hop
  cases hvalue : h.value with
  | ui64 value =>
      simp only [hvalue, valueOps, List.mem_singleton] at hop
      exact hop ▸ addInt64_leafOp (by decide) (by decide) (natAbs_ld value)
  | dbl value =>
      simp only [hvalue, valueOps, List.mem_singleton] at hop
      exact hop ▸ addNumber_leafOp (by decide) (by decide) (numberToken_idBuffer fmt value)
  | str value =>
      simp only [hvalue, valueOps, List.mem_singleton] at hop
      exact hop ▸ addStr_leafOp (by decide) (by decide) fun text htext => ht.str text (.inl (htext ▸ hvalue))
  | text value =>
      simp only [hvalue, valueOps, List.mem_singleton] at hop
      exact hop ▸ addStr_leafOp (by decide) (by decide) fun text htext => ht.str text (.inr (htext ▸ hvalue))
  | log log =>
      obtain ⟨-, hlog, hsource⟩ := ht.log log hvalue
      simp only [hvalue, valueOps, List.mem_append, List.mem_cons, List.not_mem_nil, or_false, Option.mem_toList,
        Option.map_eq_some_iff] at hop
      rcases hop with ((rfl | rfl) | ⟨source, hs, rfl⟩) | rfl
      · exact addUint64_leafOp (by decide) (by decide) log.logeventid.toNat_lt
      · exact addUint64_leafOp (by decide) (by decide) (toUint64_lt _)
      · exact addStr_leafOp (by decide) (by decide) fun text htext => hsource text (htext ▸ hs)
      · exact addStr_leafOp (by decide) (by decide) fun text htext => Option.some.inj htext ▸ hlog

lemma metricOps_leaf (fmt : FloatText D) (ht : Typed h) : ∀ op ∈ headOps h ++ valueOps fmt h.value, LeafOp op := by
  intro op hop
  rcases List.mem_append.1 hop with hop | hop
  · exact headOps_leaf ht op hop
  · exact valueOps_leaf ht op hop

lemma applyOps_append (ops ops' : List Op) (frame : Frame) (frames : List Frame) :
    applyOps (ops ++ ops') frame frames = applyOps ops' (applyOps ops frame frames).1 (applyOps ops frame frames).2 := by
  induction ops generalizing frame frames with
  | nil => rfl
  | cons op ops ih => exact ih _ _

lemma fitsAll_append {ops ops' : List Op} {frame : Frame} {frames : List Frame} (h : FitsAll ops frame frames)
    (h' : FitsAll ops' (applyOps ops frame frames).1 (applyOps ops frame frames).2) : FitsAll (ops ++ ops') frame frames := by
  induction ops generalizing frame frames with
  | nil => exact h'
  | cons op ops ih => exact ⟨h.1, ih h.2 h'⟩

lemma applyOps_leaves {ops : List Op} (hleaf : ∀ op ∈ ops, LeafOp op) (frame : Frame) (frames : List Frame)
    (hobject : frame.object = true) :
    applyOps ops frame frames = (⟨frame.name, true, frame.members ++ ops.map memberOf⟩, frames) ∧
      FitsAll ops frame frames := by
  induction ops generalizing frame with
  | nil =>
      obtain ⟨name, object, members⟩ := frame
      simp only at hobject
      simp [applyOps, FitsAll, hobject]
  | cons op ops ih =>
      obtain ⟨name, string, isString, rfl, hname, -, hstring⟩ := hleaf op List.mem_cons_self
      have hrest := ih (fun o ho => hleaf o (List.mem_cons_of_mem _ ho)) (frame.add name (leaf string isString)) hobject
      refine ⟨?_, ⟨⟨by simp [hobject], ?_⟩, hstring⟩, hrest.2⟩
      · rw [applyOps, Op.apply]
        simp only [Option.getD_some, hrest.1]
        simp [Frame.add, memberOf]
      · rintro text ⟨rfl⟩
        exact hname

lemma applyOps_metric (fmt : FloatText D) (ht : Typed h) (frame : Frame) (frames : List Frame)
    (harray : frame.object = false) :
    applyOps (metricOps fmt h) frame frames = (frame.add [] (metricTree fmt h), frames) ∧
      FitsAll (metricOps fmt h) frame frames := by
  obtain ⟨happly, hfits⟩ := applyOps_leaves (metricOps_leaf fmt ht) ⟨[], true, []⟩ (frame :: frames) rfl
  refine ⟨?_, ⟨by simp [harray], by simp⟩, fitsAll_append hfits ⟨trivial, trivial⟩⟩
  rw [metricOps, applyOps, Op.apply]
  simp only [Option.getD_none]
  rw [applyOps_append, happly]
  rfl

lemma applyOps_metrics (fmt : FloatText D) {rows : List (DcHistory D)} (ht : ∀ h ∈ rows, Typed h) (frame : Frame)
    (frames : List Frame) (harray : frame.object = false) :
    applyOps (rows.flatMap (metricOps fmt)) frame frames =
        (⟨frame.name, false, frame.members ++ rows.map fun h => ([], metricTree fmt h)⟩, frames) ∧
      FitsAll (rows.flatMap (metricOps fmt)) frame frames := by
  induction rows generalizing frame with
  | nil =>
      obtain ⟨name, object, members⟩ := frame
      simp only at harray
      simp [applyOps, FitsAll, harray]
  | cons h rows ih =>
      obtain ⟨happly, hfits⟩ := applyOps_metric fmt (ht h List.mem_cons_self) frame frames harray
      have hrest := ih (fun x hx => ht x (List.mem_cons_of_mem _ hx)) (frame.add [] (metricTree fmt h)) harray
      rw [List.flatMap_cons]
      refine ⟨?_, fitsAll_append hfits ?_⟩
      · rw [applyOps_append, happly, hrest.1]
        simp [Frame.add]
      · rw [happly]
        exact hrest.2

lemma requestOps_built (fmt : FloatText D) {rows : List (DcHistory D)} (ht : ∀ h ∈ rows, Typed h) :
    builtTree true (requestOps fmt rows) = .node true [("request".toList, .str "put_history".toList),
        ("metrics".toList, .node false (rows.map fun h => ([], metricTree fmt h)))] ∧
      FitsAll (requestOps fmt rows) (rootFrame true) [] := by
  have hrequest : LeafOp (addStr "request" (some "put_history".toList)) := by
    apply addStr_leafOp (by decide) (by decide)
    rintro text ⟨rfl⟩
    decide
  have hleaf : ∀ op ∈ [addStr "request" (some "put_history".toList)], LeafOp op := by simpa using hrequest
  obtain ⟨happly, hfits⟩ := applyOps_leaves hleaf (rootFrame true) [] rfl
  have hmetrics := applyOps_metrics fmt ht ⟨"metrics".toList, false, []⟩
    [⟨[], true, [("request".toList, .str "put_history".toList)]⟩] rfl
  have hops : requestOps fmt rows = [addStr "request" (some "put_history".toList)] ++
      ([.addArray (some "metrics".toList)] ++ (rows.flatMap (metricOps fmt) ++ [.close])) := by simp [requestOps]
  have hmember : memberOf (addStr "request" (some "put_history".toList)) =
      ("request".toList, .str "put_history".toList) := rfl
  have hname : '\x00' ∉ "metrics".toList := by decide
  simp only [rootFrame, List.map_cons, List.map_nil, List.nil_append, hmember] at happly hfits
  generalize "request".toList = request at *
  generalize "put_history".toList = command at *
  generalize "metrics".toList = metrics at *
  have hbuilt : applyOps (requestOps fmt rows) (rootFrame true) [] = (⟨[], true, [(request, .str command),
      (metrics, .node false (rows.map fun h => ([], metricTree fmt h)))]⟩, []) := by
    rw [hops, applyOps_append, rootFrame, happly, applyOps_append]
    simp only [applyOps, Op.apply, Option.getD_some, applyOps_append, hmetrics.1]
    simp [Frame.add, Frame.toTree]
  refine ⟨?_, ?_⟩
  · rw [builtTree, hbuilt]
    rfl
  · rw [hops]
    apply fitsAll_append hfits
    rw [happly]
    have hbehind : FitsAll (rows.flatMap (metricOps fmt) ++ [.close]) ⟨metrics, false, []⟩
        [⟨[], true, [(request, .str command)]⟩] := fitsAll_append hmetrics.2 ⟨trivial, trivial⟩
    refine ⟨⟨by simp, ?_⟩, hbehind⟩
    rintro text ⟨rfl⟩
    exact hname

end

section

lemma dropWhile_toDigits (n : ℕ) :
    (Nat.toDigits 10 n).dropWhile (fun c => c = ' ' || ('\t' ≤ c && c ≤ '\r')) = Nat.toDigits 10 n := by
  obtain ⟨d, ds, hds⟩ := List.exists_cons_of_ne_nil (Nat.toDigits_ne_nil (n := n) (b := 10))
  have hdigit : d.isDigit = true := isDigit_of_mem_toDigits (n := n) (by simp [hds])
  have hmem : d ∈ literalChars := mem_literalChars_of_isDigit hdigit
  have hspace : ∀ x ∈ literalChars, (decide (x = ' ') || (decide ('\t' ≤ x) && decide (x ≤ '\r'))) = false := by decide
  rw [hds, List.dropWhile_cons, hspace d hmem]
  rfl

lemma strtol_toDigits (n : ℕ) : strtol (Nat.toDigits 10 n) = min (n : ℤ) (2 ^ 63 - 1) := by
  have htake : (Nat.toDigits 10 n).takeWhile Char.isDigit = Nat.toDigits 10 n :=
    List.takeWhile_eq_self_iff.2 fun c hc => isDigit_of_mem_toDigits hc
  have hno : ∀ c ∈ ['-', '+'], ∀ text, Nat.toDigits 10 n ≠ c :: text := by
    intro c hc text htext
    have hdigit : c.isDigit = true := isDigit_of_mem_toDigits (n := n) (by simp [htext])
    simp only [List.mem_cons, List.not_mem_nil, or_false] at hc
    rcases hc with rfl | rfl <;> simp at hdigit
  simp only [strtol, dropWhile_toDigits]
  split
  · rename_i text htext
    exact absurd htext (hno '-' (by simp) text)
  · rename_i text htext
    exact absurd htext (hno '+' (by simp) text)
  · rw [htake, Nat.ofDigitChars_ten_toDigits]

lemma atoi_toUint64_iff {z : ℤ} (h : -2 ^ 31 ≤ z ∧ z < 2 ^ 31) :
    atoi (Nat.toDigits 10 (toUint64 z)) = z ↔ -1 ≤ z := by
  rw [atoi, strtol_toDigits, toInt, toUint64]
  omega

lemma toUint64_atoi_iff (u : UInt64) :
    UInt64.ofNat (toUint64 (atoi (Nat.toDigits 10 u.toNat))) = u ↔ u.toNat < 2 ^ 31 ∨ u.toNat = 2 ^ 64 - 1 := by
  have hu := u.toNat_lt
  have hofNat : ∀ m < 2 ^ 64, UInt64.ofNat m = u ↔ m = u.toNat := by
    intro m hm
    rw [← UInt64.toNat_inj, UInt64.toNat_ofNat_of_lt' hm]
  rw [hofNat _ (toUint64_lt _), atoi, strtol_toDigits, toInt, toUint64]
  omega

lemma readDigits_digits {max value : ℕ} {digits : List Char} (hdigits : ∀ c ∈ digits, c.isDigit = true)
    (hmax : Nat.ofDigitChars 10 digits value ≤ max) :
    Expr.readDigits max value digits = some (Nat.ofDigitChars 10 digits value, []) := by
  induction digits generalizing value with
  | nil => rfl
  | cons c digits ih =>
      have hdigit : Expr.digit c = c.toNat - '0'.toNat := rfl
      have hstep : 10 * value + Expr.digit c ≤ Nat.ofDigitChars 10 digits (10 * value + Expr.digit c) := by
        rw [Nat.ofDigitChars_eq_ofDigitChars_zero]
        have hpow : 1 ≤ 10 ^ digits.length := Nat.one_le_pow _ _ (by omega)
        nlinarith
      rw [Nat.ofDigitChars_cons, ← hdigit] at hmax ⊢
      have hfits : ¬ (max - Expr.digit c) / 10 < value := by omega
      rw [Expr.readDigits, if_pos (hdigits c List.mem_cons_self), if_neg hfits, mul_comm value 10]
      exact ih (fun x hx => hdigits x (List.mem_cons_of_mem _ hx)) hmax

lemma str2Uint64_iff (u : UInt64) (stack : Stack) :
    str2Uint64 (decimal (ld u)) stack = u ↔ u.toNat < 2 ^ 63 ∨ stack.value = u := by
  by_cases hu : u.toNat < 2 ^ 63
  · have hld : decimal (ld u) = Nat.toDigits 10 u.toNat := by
      rw [ld_eq, if_pos hu, decimal, if_neg (by omega), Int.natAbs_natCast]
    have hmax : Nat.ofDigitChars 10 (Nat.toDigits 10 u.toNat) 0 ≤ 18446744073709551615 := by
      rw [Nat.ofDigitChars_ten_toDigits]
      omega
    have hread := readDigits_digits (fun c hc => isDigit_of_mem_toDigits hc) hmax
    rw [Nat.ofDigitChars_ten_toDigits] at hread
    have hrange : Expr.isUintNRange (Nat.toDigits 10 u.toNat) 0 18446744073709551615 = some u.toNat := by
      have hle : u.toNat ≤ 18446744073709551615 := by omega
      simp [Expr.isUintNRange, Nat.toDigits_ne_nil, hread, hle]
    rw [str2Uint64, hld, hrange]
    simpa using Or.inl hu
  · have hld : ∃ digits, decimal (ld u) = '-' :: digits := by
      have hneg : ld u < 0 := by
        have := u.toNat_lt
        rw [ld_eq, if_neg hu]
        omega
      exact ⟨_, by rw [decimal, if_pos hneg]⟩
    obtain ⟨digits, hdigits⟩ := hld
    have hrange : Expr.isUintNRange ('-' :: digits) 0 18446744073709551615 = none := by
      simp [Expr.isUintNRange, Expr.readDigits]
    rw [str2Uint64, hdigits, hrange, or_iff_right hu]
    rfl

end

section

variable {D : Type} {fmt : FloatText D} {h : DcHistory D}

lemma leafOps_members {ops : List Op} (hleaf : ∀ op ∈ ops, LeafOp op) :
    MembersWellFormed true (ops.map memberOf) ∧ NamesShort (ops.map memberOf) := by
  induction ops with
  | nil => exact ⟨trivial, by simp [NamesShort]⟩
  | cons op ops ih =>
      obtain ⟨name, string, isString, rfl, -, hlength, hstring⟩ := hleaf op List.mem_cons_self
      obtain ⟨hwf, hshort⟩ := ih fun o ho => hleaf o (List.mem_cons_of_mem _ ho)
      refine ⟨⟨by simp, leaf_wellFormed hstring, hwf⟩, ?_⟩
      intro member hm
      rcases List.mem_cons.1 hm with rfl | hm
      · exact hlength
      · exact hshort member hm

lemma metricTree_wellFormed (fmt : FloatText D) (ht : Typed h) : WellFormed (metricTree fmt h) :=
  (leafOps_members (metricOps_leaf fmt ht)).1

def metricValue (fmt : FloatText D) (h : DcHistory D) (name : List Char) (size : ℕ) : Option (List Char × JsonType) :=
  (findMember name (metricMembers fmt h)).bind fun found => decodeTree size found.1

lemma valueByName_metric (ht : Typed h) (rest name : List Char) (size : ℕ) :
    valueByName (window true (metricMembers fmt h) rest) name size = metricValue fmt h name size := by
  obtain ⟨hwf, hshort⟩ := leafOps_members (metricOps_leaf fmt ht)
  exact valueByName_window name size hwf hshort

lemma metricValue_number {name text : List Char} {size : ℕ} (hnumber : NumberToken text)
    (hfind : (findMember name (metricMembers fmt h)).map Prod.fst = some (.literal text)) (hsize : text.length < size) :
    metricValue fmt h name size = some (text, .int) := by
  obtain ⟨found, hfound, htext⟩ := Option.map_eq_some_iff.1 hfind
  rw [metricValue, hfound, Option.bind_some, htext]
  exact decodeTree_number hnumber hsize

lemma findMember_append {name : List Char} {members : List (List Char × Tree)} (behind : List (List Char × Tree))
    (hno : findMember name members = none) : findMember name (members ++ behind) = findMember name behind := by
  induction members with
  | nil => rfl
  | cons member members ih =>
      obtain ⟨other, value⟩ := member
      rw [findMember] at hno
      split_ifs at hno with hname
      rw [List.cons_append, findMember, if_neg hname, ih hno]

lemma findMember_self (name : List Char) (value : Tree) (members : List (List Char × Tree)) :
    findMember name ((name, value) :: members) = some (value, members) := if_pos rfl

lemma findMember_other {name other : List Char} (h : other ≠ name) (value : Tree) (members : List (List Char × Tree)) :
    findMember name ((other, value) :: members) = findMember name members := if_neg h

lemma memberOf_addStr (name : String) (string : Option (List Char)) :
    memberOf (addStr name string) = (name.toList, leaf string true) := rfl

lemma memberOf_addNumber (name : String) (text : List Char) :
    memberOf (addNumber name text) = (name.toList, .literal (idBuffer text)) := rfl

lemma find_timeSec (fmt : FloatText D) (h : DcHistory D) : (findMember "time_sec".toList (metricMembers fmt h)).map Prod.fst =
    some (.literal (idBuffer (Nat.toDigits 10 (toUint64 h.sec)))) := by
  simp [metricMembers, headOps, memberOf, findMember, addStr, addUint64, addNumber, addInt64, leaf]

lemma find_value (h : DcHistory D) {name : List Char}
    (hname : name ∈ ["value_int".toList, "value_dbl".toList, "value_str".toList, "logeventid".toList, "severity".toList,
      "source".toList]) :
    findMember name (metricMembers fmt h) = findMember name ((valueOps fmt h.value).map memberOf) := by
  rw [metricMembers, List.map_append]
  apply findMember_append
  simp only [List.mem_cons, List.not_mem_nil, or_false] at hname
  rcases hname with rfl | rfl | rfl | rfl | rfl | rfl
  all_goals simp [headOps, memberOf, findMember, addStr, addUint64, addNumber, addInt64]

def ValueSurvives (fmt : FloatText D) (stack : Stack) : HistoryValue D → Prop
  | .ui64 value => value.toNat < 2 ^ 63 ∨ stack.value = value
  | .dbl value => fmt.atof (idBuffer (fmt.print value)) = value
  | .log log => log.value.length < maxStringLen ∧ (log.logeventid.toNat < 2 ^ 31 ∨ log.logeventid.toNat = 2 ^ 64 - 1) ∧
    -1 ≤ log.severity ∧ ∀ source, log.source = some source → source.length < maxIdLen
  | .str value | .text value => ∃ text, value = some text ∧ text.length < maxStringLen

def Survives (fmt : FloatText D) (h : DcHistory D) (stack : Stack) : Prop :=
  -1 ≤ h.sec ∧ atoi stack.ns = h.ns ∧ ValueSurvives fmt stack h.value

def record (h : DcHistory D) : HistoryRecord D := ⟨h.sec, h.ns, h.value⟩

lemma metricValue_ui64 {value : UInt64} (hvalue : h.value = .ui64 value) :
    metricValue fmt h "value_int".toList maxStringLen = some (decimal (ld value), .int) := by
  have hshort := length_decimal_le (natAbs_ld value)
  have hsize : (decimal (ld value)).length < maxStringLen := by
    rw [maxStringLen]
    omega
  apply metricValue_number (numberToken_decimal _) ?_ hsize
  rw [find_value h (by simp), hvalue, valueOps, List.map_singleton, addInt64, memberOf_addNumber, findMember_self,
    idBuffer_short hshort]
  rfl

lemma metricValue_dbl {value : D} (hvalue : h.value = .dbl value) :
    metricValue fmt h "value_dbl".toList maxStringLen = some (idBuffer (fmt.print value), .int) := by
  have hsize : (idBuffer (fmt.print value)).length < maxStringLen := by
    rw [idBuffer, List.length_take, maxStringLen, maxIdLen]
    omega
  apply metricValue_number (numberToken_idBuffer fmt value) ?_ hsize
  rw [find_value h (by simp), hvalue, valueOps, List.map_singleton, memberOf_addNumber, findMember_self]
  rfl

lemma metricValue_str {value : Option (List Char)} (hvalue : h.value = .str value ∨ h.value = .text value) :
    metricValue fmt h "value_str".toList maxStringLen = decodeTree maxStringLen (leaf value true) := by
  have hops : valueOps fmt h.value = [addStr "value_str" value] := by
    rcases hvalue with hvalue | hvalue <;> rw [hvalue, valueOps]
  rw [metricValue, find_value h (by simp), hops, List.map_singleton, memberOf_addStr, findMember_self]
  rfl

lemma decodeTree_string_iff {value : Option (List Char)} {make : Option (List Char) → HistoryValue D}
    (hmake : Function.Injective make) :
    (decodeTree maxStringLen (leaf value true)).map (fun found => make (some found.1)) = some (make value) ↔
      ∃ text, value = some text ∧ text.length < maxStringLen := by
  cases value with
  | none =>
      have hnull : decodeTree maxStringLen (leaf none true) = some ([], .null) := by
        simp [decodeTree, leaf, jsonType, maxStringLen]
      simp [hnull, hmake.eq_iff]
  | some text =>
      have hleaf : leaf (some text) true = .str text := rfl
      rw [hleaf, decodeTree]
      split_ifs with hlength
      · simp [hlength]
      · simp [hlength]

lemma valueOps_log (log : LogValue) : (valueOps fmt (.log log)).map memberOf =
    ("logeventid".toList, .literal (idBuffer (Nat.toDigits 10 log.logeventid.toNat))) ::
      ("severity".toList, .literal (idBuffer (Nat.toDigits 10 (toUint64 log.severity)))) ::
        ((log.source.map fun source => ("source".toList, .str source)).toList ++ [("value_str".toList, .str log.value)]) := by
  cases hsource : log.source with
  | none => simp only [valueOps, hsource]; rfl
  | some source => simp only [valueOps, hsource]; rfl

lemma metricValue_numbers (fmt : FloatText D) {log : LogValue} (hvalue : h.value = .log log) :
    metricValue fmt h "logeventid".toList maxIdLen = some (Nat.toDigits 10 log.logeventid.toNat, .int) ∧
    metricValue fmt h "severity".toList maxIdLen = some (Nat.toDigits 10 (toUint64 log.severity), .int) := by
  have hid := length_toDigits_le log.logeventid.toNat_lt
  have hseverity := length_toDigits_le (toUint64_lt log.severity)
  have hne : "logeventid".toList ≠ "severity".toList := by decide
  constructor
  · apply metricValue_number (numberToken_toDigits _ (.inl rfl)) ?_ (Nat.lt_succ_of_le hid)
    rw [find_value h (by simp), hvalue, valueOps_log, findMember_self, idBuffer_short hid]
    rfl
  · apply metricValue_number (numberToken_toDigits _ (.inl rfl)) ?_ (Nat.lt_succ_of_le hseverity)
    rw [find_value h (by simp), hvalue, valueOps_log, findMember_other hne, findMember_self, idBuffer_short hseverity]
    rfl

lemma metricValue_texts (fmt : FloatText D) {log : LogValue} (hvalue : h.value = .log log) :
    metricValue fmt h "value_str".toList maxStringLen = decodeTree maxStringLen (.str log.value) ∧
    metricValue fmt h "source".toList maxIdLen = log.source.bind fun source => decodeTree maxIdLen (.str source) := by
  have hdistinct : ["logeventid".toList, "severity".toList, "source".toList, "value_str".toList].Nodup := by decide
  simp only [List.nodup_cons, List.mem_cons, List.not_mem_nil, or_false, not_or] at hdistinct
  obtain ⟨⟨-, hidSource, hidValue⟩, ⟨hseveritySource, hseverityValue⟩, hsourceValue, -⟩ := hdistinct
  rw [metricValue, find_value h (by simp), metricValue, find_value h (by simp), hvalue, valueOps_log,
    findMember_other hidValue, findMember_other hseverityValue, findMember_other hidSource, findMember_other hseveritySource]
  cases log.source with
  | none =>
      rw [Option.map_none, Option.toList_none, List.nil_append, findMember_self, findMember_other (Ne.symm hsourceValue)]
      exact ⟨rfl, rfl⟩
  | some source =>
      rw [Option.map_some, Option.toList_some, List.singleton_append, findMember_other hsourceValue, findMember_self,
        findMember_self]
      exact ⟨rfl, rfl⟩

lemma decodeTree_source_iff (source : Option (List Char)) :
    (source.bind fun text => decodeTree maxIdLen (.str text)).map Prod.fst = source ↔
      ∀ text, source = some text → text.length < maxIdLen := by
  cases source with
  | none => simp
  | some text =>
      rw [Option.bind_some, decodeTree]
      split_ifs with hlength
      · simp [hlength]
      · simp [hlength]

lemma readValue_iff (fmt : FloatText D) (ht : Typed h) (rest : List Char) (stack : Stack) :
    readValue fmt stack (window true (metricMembers fmt h) rest) h.value.type = some h.value ↔
      ValueSurvives fmt stack h.value := by
  cases hvalue : h.value with
  | ui64 value =>
      simp only [HistoryValue.type, readValue, valueByName_metric ht, metricValue_ui64 hvalue, Option.map_some,
        Option.some.injEq, HistoryValue.ui64.injEq, ValueSurvives]
      exact str2Uint64_iff value stack
  | dbl value =>
      simp only [HistoryValue.type, readValue, valueByName_metric ht, metricValue_dbl hvalue, Option.map_some,
        Option.some.injEq, HistoryValue.dbl.injEq, ValueSurvives]
  | str value =>
      simp only [HistoryValue.type, readValue, valueByName_metric ht, metricValue_str (.inl hvalue), ValueSurvives]
      exact decodeTree_string_iff fun _ _ => HistoryValue.str.inj
  | text value =>
      simp only [HistoryValue.type, readValue, valueByName_metric ht, metricValue_str (.inr hvalue), ValueSurvives]
      exact decodeTree_string_iff fun _ _ => HistoryValue.text.inj
  | log log =>
      obtain ⟨hid, hseverity⟩ := metricValue_numbers fmt hvalue
      obtain ⟨htext, hsource⟩ := metricValue_texts fmt hvalue
      obtain ⟨logeventid, severity, source, text⟩ := log
      have hrange : -2 ^ 31 ≤ severity ∧ severity < 2 ^ 31 := (ht.log _ hvalue).1
      have hback := toUint64_atoi_iff logeventid
      have hseverityBack := atoi_toUint64_iff hrange
      simp only [HistoryValue.type, readValue, readLog, valueByName_metric ht, hid, hseverity, htext, hsource, ValueSurvives,
        Option.map_some, Option.getD_some]
      rw [← hback, ← hseverityBack, ← decodeTree_source_iff]
      by_cases hlength : text.length < maxStringLen
      · have hdecode : decodeTree maxStringLen (.str text) = some (text, .string) := by rw [decodeTree, if_pos hlength]
        simp only [hdecode, Option.bind_eq_bind, Option.bind_some, Option.pure_def, Option.map_some, Option.some.injEq,
          HistoryValue.log.injEq, LogValue.mk.injEq, hlength, true_and, and_true]
      · have hdecode : decodeTree maxStringLen (.str text) = none := by rw [decodeTree, if_neg hlength]
        simp [hdecode, hlength]

lemma readRow_iff (fmt : FloatText D) (ht : Typed h) (rest : List Char) (stack : Stack) :
    readRow fmt h.value.type stack (window true (metricMembers fmt h) rest) = some (record h) ↔ Survives fmt h stack := by
  have hshort := length_toDigits_le (toUint64_lt h.sec)
  have hclck : metricValue fmt h "time_sec".toList maxIdLen = some (Nat.toDigits 10 (toUint64 h.sec), .int) := by
    have hfind := find_timeSec fmt h
    rw [idBuffer_short hshort] at hfind
    exact metricValue_number (numberToken_toDigits _ (.inl rfl)) hfind (Nat.lt_succ_of_le hshort)
  have hsec := atoi_toUint64_iff ht.sec
  have hvalue := readValue_iff fmt ht rest stack
  rw [readRow, valueByName_metric ht, hclck, Survives, ← hsec, ← hvalue]
  cases readValue fmt stack (window true (metricMembers fmt h) rest) h.value.type with
  | none => simp
  | some value => simp [record]

end

section

variable {D : Type} {fmt : FloatText D}

def readAll (fmt : FloatText D) (valueType : ValueType) (memory : ℕ → Stack) : ℕ → List (DcHistory D) →
    List (Option (HistoryRecord D))
  | _, [] => []
  | k, h :: rows => readRow fmt valueType (memory k) (window true (metricMembers fmt h) []) ::
      readAll fmt valueType memory (k + 1) rows

def elements (fmt : FloatText D) (rows : List (DcHistory D)) : List (List Char × Tree) :=
  rows.map fun h => ([], metricTree fmt h)

lemma readRow_window {h : DcHistory D} (ht : Typed h) (rest : List Char) (valueType : ValueType) (stack : Stack) :
    readRow fmt valueType stack (window true (metricMembers fmt h) rest) =
      readRow fmt valueType stack (window true (metricMembers fmt h) []) := by
  cases valueType <;> simp only [readRow, readValue, readLog, valueByName_metric ht]

lemma elements_wellFormed (fmt : FloatText D) {rows : List (DcHistory D)} (ht : ∀ h ∈ rows, Typed h) :
    MembersWellFormed false (elements fmt rows) := by
  induction rows with
  | nil => trivial
  | cons h rows ih =>
      exact ⟨fun _ => rfl, metricTree_wellFormed fmt (ht h List.mem_cons_self), ih fun x hx => ht x (List.mem_cons_of_mem _ hx)⟩

variable {valueType : ValueType} {memory : ℕ → Stack}

lemma rowsLoop_step {jp : JsonParse} {p : Option (List Char)} {h : DcHistory D} {rows : List (DcHistory D)} {rest : List Char}
    (fuel k : ℕ) (ht : Typed h) (hnext : jsonNext jp p = some (valueText false (metricTree fmt h) (elements fmt rows) rest)) :
    rowsLoop fmt valueType memory jp (fuel + 1) k p =
      (readRow fmt valueType (memory k) (window true (metricMembers fmt h) [])).toList ++
        rowsLoop fmt valueType memory jp fuel (k + 1) (some (valueText false (metricTree fmt h) (elements fmt rows) rest)) := by
  have hopen : bracketsOpen (valueText false (metricTree fmt h) (elements fmt rows) rest) =
      some (window true (metricMembers fmt h) _) := bracketsOpen_node (metricTree_wellFormed fmt ht) _
  rw [rowsLoop, hnext]
  simp only [hopen, Option.bind_some, readRow_window ht]

lemma rowsLoop_later {all : List (DcHistory D)} (hall : ∀ h ∈ all, Typed h) (hne : all ≠ []) {rows : List (DcHistory D)}
    (ht : ∀ h ∈ rows, Typed h) {previous : Tree} (hprevious : WellFormed previous) (rest : List Char) {fuel k : ℕ}
    (hfuel : rows.length < fuel) :
    rowsLoop fmt valueType memory (window false (elements fmt all) rest) fuel k
        (some (valueText false previous (elements fmt rows) rest)) = (readAll fmt valueType memory k rows).reduceOption := by
  induction rows generalizing previous fuel k with
  | nil =>
      obtain ⟨fuel, rfl⟩ : ∃ n, fuel = n + 1 := ⟨fuel - 1, by omega⟩
      have hlast : jsonNext (window false (elements fmt all) rest) (some (valueText false previous (elements fmt []) rest)) =
          none := jsonNext_last hprevious
      rw [rowsLoop, hlast]
      rfl
  | cons h rows ih =>
      obtain ⟨fuel, rfl⟩ : ∃ n, fuel = n + 1 := ⟨fuel - 1, by omega⟩
      have htyped := ht h List.mem_cons_self
      have hwf := metricTree_wellFormed fmt htyped
      have hnext : jsonNext (window false (elements fmt all) rest)
          (some (valueText false previous (elements fmt (h :: rows)) rest)) =
            some (valueText false (metricTree fmt h) (elements fmt rows) rest) :=
        jsonNext_later (elements_wellFormed fmt hall) (by simpa [elements] using hne) hprevious hwf
      rw [rowsLoop_step fuel k htyped hnext, ih (fun x hx => ht x (List.mem_cons_of_mem _ hx)) hwf (by simp at hfuel; omega)]
      cases hrow : readRow fmt valueType (memory k) (window true (metricMembers fmt h) []) <;> simp [readAll, hrow]

lemma rowsLoop_elements {rows : List (DcHistory D)} (ht : ∀ h ∈ rows, Typed h) (rest : List Char) {fuel : ℕ}
    (hfuel : rows.length < fuel) :
    rowsLoop fmt valueType memory (window false (elements fmt rows) rest) fuel 0 none =
      (readAll fmt valueType memory 0 rows).reduceOption := by
  obtain ⟨fuel, rfl⟩ : ∃ n, fuel = n + 1 := ⟨fuel - 1, by omega⟩
  cases rows with
  | nil =>
      have hempty : jsonNext (window false (elements fmt []) rest) none = none := jsonNext_empty none
      rw [rowsLoop, hempty]
      rfl
  | cons h rows =>
      have htyped := ht h List.mem_cons_self
      have hnext : jsonNext (window false (elements fmt (h :: rows)) rest) none =
          some (valueText false (metricTree fmt h) (elements fmt rows) rest) := jsonNext_first (elements_wellFormed fmt ht)
      rw [rowsLoop_step fuel 0 htyped hnext, rowsLoop_later ht (by simp) (fun x hx => ht x (List.mem_cons_of_mem _ hx))
        (metricTree_wellFormed fmt htyped) rest (by simp at hfuel; omega)]
      cases hrow : readRow fmt valueType (memory 0) (window true (metricMembers fmt h) []) <;> simp [readAll, hrow]

lemma readAll_iff {rows : List (DcHistory D)} (ht : ∀ h ∈ rows, Typed h) (htype : ∀ h ∈ rows, h.value.type = valueType)
    (k : ℕ) :
    (readAll fmt valueType memory k rows).reduceOption = rows.map record ↔
      ∀ i (hi : i < rows.length), Survives fmt rows[i] (memory (k + i)) := by
  induction rows generalizing k with
  | nil => simp [readAll]
  | cons h rows ih =>
      have hrow := readRow_iff fmt (ht h List.mem_cons_self) [] (memory k)
      rw [htype h List.mem_cons_self] at hrow
      have hrest := ih (fun x hx => ht x (List.mem_cons_of_mem _ hx)) (fun x hx => htype x (List.mem_cons_of_mem _ hx)) (k + 1)
      have hsplit : (∀ i (hi : i < (h :: rows).length), Survives fmt (h :: rows)[i] (memory (k + i))) ↔
          Survives fmt h (memory k) ∧ ∀ i (hi : i < rows.length), Survives fmt rows[i] (memory (k + 1 + i)) := by
        constructor
        · intro hall
          refine ⟨hall 0 (by simp), fun i hi => ?_⟩
          have := hall (i + 1) (by simpa using hi)
          rwa [show k + (i + 1) = k + 1 + i by omega] at this
        · rintro ⟨hfirst, hlater⟩ i hi
          cases i with
          | zero => exact hfirst
          | succ i =>
              rw [show k + (i + 1) = k + 1 + i by omega]
              exact hlater i (by simpa using hi)
      rw [hsplit, ← hrow, ← hrest, readAll]
      cases hread : readRow fmt valueType (memory k) (window true (metricMembers fmt h) []) with
      | none =>
          have hlength : (readAll fmt valueType memory (k + 1) rows).reduceOption.length ≤ rows.length := by
            have hcount : ∀ k (rows : List (DcHistory D)), (readAll fmt valueType memory k rows).length = rows.length := by
              intro k rows
              induction rows generalizing k with
              | nil => rfl
              | cons h rows ih => simp [readAll, ih]
            exact (List.reduceOption_length_le _).trans (hcount _ _).le
          have hne : (readAll fmt valueType memory (k + 1) rows).reduceOption ≠ record h :: rows.map record := by
            intro heq
            have := congrArg List.length heq
            simp at this
            omega
          simpa using hne
      | some r => simp

structure Response (front behind : List (List Char × Tree)) : Prop where
  front_ok : MembersWellFormed true front ∧ NamesShort front
  behind_ok : MembersWellFormed true behind ∧ NamesShort behind
  first : ∀ member ∈ front, member.1 ≠ "metrics".toList

def responseText (fmt : FloatText D) (front behind : List (List Char × Tree)) (rows : List (DcHistory D)) : List Char :=
  render (.node true (front ++ ("metrics".toList, .node false (elements fmt rows)) :: behind))

lemma workerGetHistory_iff {front behind : List (List Char × Tree)} (hresponse : Response front behind)
    {rows : List (DcHistory D)} (ht : ∀ h ∈ rows, Typed h) (htype : ∀ h ∈ rows, h.value.type = valueType) :
    workerGetHistory fmt valueType memory (responseText fmt front behind rows) = rows.map record ↔
      ∀ i (hi : i < rows.length), Survives fmt rows[i] (memory i) := by
  obtain ⟨⟨hfront, hfrontNames⟩, ⟨hbehind, hbehindNames⟩, hfirst⟩ := hresponse
  have hname : "metrics".toList.length < maxStringLen := by decide
  have hrows : WellFormed (.node false (elements fmt rows)) := elements_wellFormed fmt ht
  have hmembers : MembersWellFormed true (front ++ ("metrics".toList, .node false (elements fmt rows)) :: behind) :=
    hfront.append ⟨by simp, hrows, hbehind⟩
  have hnames : NamesShort (front ++ ("metrics".toList, .node false (elements fmt rows)) :: behind) := by
    intro member hm
    rcases List.mem_append.1 hm with hm | hm
    · exact hfrontNames member hm
    · rcases List.mem_cons.1 hm with rfl | hm
      · exact hname
      · exact hbehindNames member hm
  have hopen : jsonOpen (render (.node true (front ++ ("metrics".toList, .node false (elements fmt rows)) :: behind))) =
      some (window true _ []) := jsonOpen_render hmembers
  have harray : bracketsByName (window true (front ++ ("metrics".toList, .node false (elements fmt rows)) :: behind) [])
      "metrics".toList = some (window false (elements fmt rows) (renderTail true behind ++ [closeBracket true])) := by
    rw [bracketsByName, pairByName_window _ hmembers hnames, findMember_first hfirst]
    exact bracketsOpen_node hrows _
  have hcount : rows.length <
      (window false (elements fmt rows) (renderTail true behind ++ [closeBracket true])).start.length + 1 := by
    have := length_lt_window false (elements fmt rows) (renderTail true behind ++ [closeBracket true])
    rw [elements, List.length_map] at this
    exact Nat.lt_succ_of_lt this
  rw [workerGetHistory, responseText, hopen, Option.bind_some, harray]
  dsimp only
  rw [rowsLoop_elements ht _ hcount, readAll_iff ht htype 0]
  simp

theorem history_comes_back_iff (fmt : FloatText D) (writeTypes : ValueType → Bool) (garbage : ℕ → Char)
    (hist : List (DcHistory D)) (ht : ∀ h ∈ hist, Typed h) :
    (∀ text, workerAddHistory fmt writeTypes garbage hist = some text →
      jsonValidate text = some (.node true [("request".toList, .str "put_history".toList),
        ("metrics".toList, .node false (elements fmt (accepted writeTypes hist)))], [])) ∧
    ∀ (valueType : ValueType) (rows : List (DcHistory D)) (front behind : List (List Char × Tree)) (memory : ℕ → Stack),
      (∀ h ∈ rows, h ∈ accepted writeTypes hist ∧ h.value.type = valueType) → Response front behind →
      (workerGetHistory fmt valueType memory (responseText fmt front behind rows) = rows.map record ↔
        ∀ i (hi : i < rows.length), Survives fmt rows[i] (memory i)) := by
  have haccepted : ∀ h ∈ accepted writeTypes hist, Typed h := fun h hh => ht h (List.mem_of_mem_filter hh)
  constructor
  · intro text htext
    rw [workerAddHistory] at htext
    split_ifs at htext
    obtain rfl := Option.some.inj htext
    obtain ⟨htree, hfits⟩ := requestOps_built fmt haccepted
    obtain ⟨hbuffer, top, members, hnode, hwf⟩ := builtJson_text garbage hfits
    rw [hbuffer, hnode, jsonValidate_render hwf, ← hnode, htree]
    rfl
  · intro valueType rows front behind memory hrows hresponse
    exact workerGetHistory_iff hresponse (fun h hh => haccepted h (hrows h hh).1) fun h hh => (hrows h hh).2

def wholeNumbers : FloatText ℤ where
  print x := decimal x ++ ".000000".toList
  atof text := (readDecimal (text.takeWhile (· ≠ '.'))).getD 0
  print_fixed := by
    intro x
    have hdigits : ∀ n : ℕ, Nat.toDigits 10 n ≠ [] ∧ (∀ c ∈ Nat.toDigits 10 n, c.isDigit = true) ∧
        ((Nat.toDigits 10 n).head? = some '0' → Nat.toDigits 10 n = ['0']) :=
      fun n => ⟨Nat.toDigits_ne_nil, fun c hc => isDigit_of_mem_toDigits hc, toDigits_zero_head⟩
    unfold decimal
    split_ifs
    · exact ⟨['-'], Nat.toDigits 10 x.natAbs, "000000".toList, by simp, .inr rfl, hdigits _, by decide⟩
    · exact ⟨[], Nat.toDigits 10 x.natAbs, "000000".toList, by simp, .inl rfl, hdigits _, by decide⟩

def counterValue : DcHistory ℤ where
  itemid := 23001
  value := .ui64 5
  sec := 1700000000
  ns := 7
  flags := 0
  stateNormal := true
  hostName := some ['h']
  itemKey := some ['k']

lemma counterValue_typed : ∀ h ∈ [counterValue], Typed h := by
  intro h hh
  rw [List.mem_singleton] at hh
  subst hh
  exact ⟨by decide, by decide, by simp [counterValue], by simp [counterValue], by simp [counterValue], by simp [counterValue]⟩

lemma counterValue_accepted : accepted (fun _ => true) [counterValue] = [counterValue] := by
  simp [accepted, counterValue]

lemma noSurroundings : Response [] [] :=
  ⟨⟨trivial, by simp [NamesShort]⟩, ⟨trivial, by simp [NamesShort]⟩, by simp⟩

theorem counterValue_comes_back :
    (∀ h ∈ [counterValue], Typed h) ∧
      workerGetHistory wholeNumbers .uint64 (fun _ => ⟨['7'], 0⟩) (responseText wholeNumbers [] [] [counterValue]) =
        [record counterValue] := by
  refine ⟨counterValue_typed, ?_⟩
  have hrows : ∀ h ∈ [counterValue], h ∈ accepted (fun _ => true) [counterValue] ∧ h.value.type = .uint64 := by
    rw [counterValue_accepted]
    intro h hh
    exact ⟨hh, by rw [List.mem_singleton.1 hh]; rfl⟩
  have hiff := (history_comes_back_iff wholeNumbers (fun _ => true) (fun _ => 'x') [counterValue] counterValue_typed).2
    .uint64 [counterValue] [] [] (fun _ => ⟨['7'], 0⟩) hrows noSurroundings
  have hsurvives : Survives wholeNumbers counterValue ⟨['7'], 0⟩ := ⟨by decide, by decide, .inl (by decide)⟩
  apply hiff.2
  intro i hi
  obtain rfl : i = 0 := by simpa using hi
  exact hsurvives

theorem nanoseconds_lost :
    (∀ h ∈ [counterValue], Typed h) ∧ accepted (fun _ => true) [counterValue] = [counterValue] ∧
      workerGetHistory wholeNumbers .uint64 (fun _ => ⟨[], 0⟩) (responseText wholeNumbers [] [] [counterValue]) ≠
        [record counterValue] := by
  refine ⟨counterValue_typed, counterValue_accepted, ?_⟩
  intro hback
  have htype : ∀ h ∈ [counterValue], h.value.type = .uint64 := by
    intro h hh
    rw [List.mem_singleton.1 hh]
    rfl
  have hsurvives := (workerGetHistory_iff noSurroundings counterValue_typed htype).1 hback 0 (by simp)
  exact absurd hsurvives.2.1 (by decide)

end

end Glaber.History.Worker
