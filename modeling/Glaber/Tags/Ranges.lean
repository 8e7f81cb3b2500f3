import Glaber.Eval.Variant
import Glaber.Lib.Cursor
import Mathlib.Data.Char
import Mathlib.Data.List.Lex

/-! Tags sorted by their names: the ranges that `match_tag_range` (`tagfilter.c`) and `dc_maintenance_match_tag_range`
(`dbconfig_maintenance.c`) find. -/

namespace Glaber.Tags

open Eval (strcmp)
open Lib.Cursor

section

structure Tag where
  tag : List Char
  value : List Char
deriving DecidableEq

structure Ranges where
  mtEnd : ℕ
  etStart : Option ℕ
  etEnd : ℕ

variable {μ : Type}

/-- The scans of both functions. Where the first one over the tags of the entity stops, the last comparison says whether
the name has been found. -/
def tagRanges (name : μ → List Char) (mtags : List μ) (etags : List Tag) (mtPos etPos : ℕ) : Option Ranges := do
  let mtag ← mtags[mtPos]?
  let tagName := name mtag
  let mtEnd ← advance (fun m => 0 ≠ strcmp (name m) tagName) mtags (mtags.length + 1) (mtPos + 1)
  let i ← advance (fun e : Tag => 0 ≤ strcmp e.tag tagName) etags (etags.length + 1) etPos
  if i = etags.length then return ⟨mtEnd, none, i⟩
  else do
    let etag ← etags[i]?
    if 0 < strcmp etag.tag tagName then return ⟨mtEnd, none, i⟩
    else do
      let etEnd ← advance (fun e : Tag => 0 ≠ strcmp e.tag tagName) etags (etags.length + 1) (i + 1)
      return ⟨mtEnd, some i, etEnd⟩

def strstr (text pattern : List Char) : Bool := pattern <:+: text

end

section

lemma strcmp_cons_self (c : Char) (as bs : List Char) : strcmp (c :: as) (c :: bs) = strcmp as bs := if_pos rfl

lemma strcmp_cons_ne {a b : Char} (h : a ≠ b) (as bs : List Char) : strcmp (a :: as) (b :: bs) = (a.toNat : ℤ) - b.toNat :=
  if_neg h

lemma char_lt_iff {a b : Char} : a < b ↔ a.toNat < b.toNat := Iff.rfl

lemma strcmp_eq_zero_iff (a b : List Char) : 0 = strcmp a b ↔ a = b := by
  induction a generalizing b with
  | nil => cases b <;> simp [strcmp]
  | cons c as ih =>
    cases b with
    | nil => simp [strcmp]
    | cons d bs =>
      by_cases h : c = d
      · rw [h, strcmp_cons_self, ih, List.cons.injEq, eq_self, true_and]
      · have hne : c.toNat ≠ d.toNat := fun heq => h (Char.toNat_inj.1 heq)
        rw [strcmp_cons_ne h]
        simp only [List.cons.injEq, h, false_and, iff_false]
        omega

lemma strcmp_pos_iff (a b : List Char) : 0 < strcmp a b ↔ b < a := by
  induction a generalizing b with
  | nil => cases b <;> simp [strcmp]
  | cons c as ih =>
    cases b with
    | nil => simp [strcmp]
    | cons d bs =>
      rw [List.cons_lt_cons_iff]
      by_cases h : c = d
      · rw [h, strcmp_cons_self, ih]
        simp
      · rw [strcmp_cons_ne h, char_lt_iff]
        simp only [Ne.symm h, false_and, or_false]
        omega

lemma strcmp_nonneg_iff (a b : List Char) : 0 ≤ strcmp a b ↔ b ≤ a := by
  rw [le_iff_eq_or_lt, strcmp_eq_zero_iff, strcmp_pos_iff, le_iff_eq_or_lt, eq_comm (a := a)]

end

section

variable {μ : Type} {name : μ → List Char}

structure Split (name : μ → List Char) (mtags : List μ) (etags : List Tag) (mfront mback : List μ)
    (efront eback : List Tag) : Prop where
  mtags_eq : mtags = mfront ++ mback
  etags_eq : etags = efront ++ eback
  ascending : Ascending name mback
  eascending : Ascending Tag.tag eback
  behind : ∀ e ∈ efront, ∀ m ∈ mback, e.tag < name m

def named (etags : List Tag) (tagName : List Char) : List Tag := etags.filter (·.tag = tagName)

variable {mtags mfront mback : List μ} {etags efront eback : List Tag}

lemma split_start (hm : Ascending name mtags) (he : Ascending Tag.tag etags) : Split name mtags etags [] mtags [] etags :=
  ⟨rfl, rfl, hm, he, by simp⟩

variable {mtag : μ} {ms : List μ}

lemma filter_none {es : List Tag} {tagName : List Char} (h : ∀ e ∈ es, e.tag ≠ tagName) : named es tagName = [] :=
  List.filter_eq_nil_iff.2 fun e he => by simpa using h e he

lemma filter_all {es : List Tag} {tagName : List Char} (h : ∀ e ∈ es, e.tag = tagName) : named es tagName = es :=
  List.filter_eq_self.2 fun e he => by simpa using h e he

structure Pass (name : μ → List Char) (mtags : List μ) (etags : List Tag) (mfront mback : List μ) (efront : List Tag)
    (mtag : μ) (same rest : List μ) (below above : List Tag) : Prop where
  mback_eq : mback = same ++ rest
  etags_eq : etags = efront ++ (below ++ (named etags (name mtag) ++ above))
  same_name : ∀ m ∈ same, name m = name mtag
  rest_name : ∀ m ∈ rest, name m ≠ name mtag
  split : Split name mtags etags (mfront ++ same) rest (efront ++ (below ++ named etags (name mtag))) above
  ranges : tagRanges name mtags etags mfront.length efront.length = some
    ⟨(mfront ++ same).length, if named etags (name mtag) = [] then none else some (efront ++ below).length,
      (efront ++ (below ++ named etags (name mtag))).length⟩

lemma tagRanges_eq {mtPos etPos mtEnd : ℕ} {front back : List Tag} (hfirst : mtags[mtPos]? = some mtag)
    (hmscan : advance (fun m => 0 ≠ strcmp (name m) (name mtag)) mtags (mtags.length + 1) (mtPos + 1) = some mtEnd)
    (hescan : advance (fun e : Tag => 0 ≤ strcmp e.tag (name mtag)) (front ++ back) ((front ++ back).length + 1) etPos =
      some front.length) (heasc : Ascending Tag.tag back) (hback : ∀ e ∈ back, name mtag ≤ e.tag) :
    ∃ above, back = named back (name mtag) ++ above ∧ (∀ e ∈ above, name mtag < e.tag) ∧
      tagRanges name mtags (front ++ back) mtPos etPos = some
        ⟨mtEnd, if named back (name mtag) = [] then none else some front.length,
          (front ++ named back (name mtag)).length⟩ := by
  rw [tagRanges, hfirst]
  simp only [Option.bind_eq_bind, Option.bind_some, hmscan, hescan]
  cases back with
  | nil => exact ⟨[], rfl, by simp, by simp [named]⟩
  | cons etag back =>
    have hat : (front ++ etag :: back)[front.length]? = some etag := by simp
    have hlen : front.length ≠ (front ++ etag :: back).length := by simp
    rw [if_neg hlen, hat, Option.bind_some]
    rcases (hback etag List.mem_cons_self).lt_or_eq with hlt | heq
    · have hlarger : ∀ e ∈ etag :: back, name mtag < e.tag := by
        intro e he
        rcases List.mem_cons.1 he with rfl | he
        · exact hlt
        · exact hlt.trans_le ((List.pairwise_cons.1 heasc).1 e he)
      have hnone : named (etag :: back) (name mtag) = [] := filter_none fun e he => (hlarger e he).ne'
      rw [if_pos ((strcmp_pos_iff _ _).2 hlt), hnone]
      exact ⟨etag :: back, rfl, hlarger, by simp⟩
    · have hstop (e : Tag) : decide (0 ≠ strcmp e.tag (name mtag)) = true ↔ e.tag ≠ etag.tag := by
        simp [strcmp_eq_zero_iff, heq]
      obtain ⟨same, above, rfl, hsame, habove, hscan⟩ := heasc.advance_same hstop front
      have hall : ∀ e ∈ etag :: same, e.tag = name mtag := by simpa [heq] using hsame
      have hnamed : named (etag :: (same ++ above)) (name mtag) = etag :: same := by
        rw [← List.cons_append, named, List.filter_append, ← named, ← named, filter_all hall,
          filter_none fun e he => by simpa [heq] using (habove e he).ne', List.append_nil]
      rw [if_neg fun hpos => ((strcmp_pos_iff _ _).1 hpos).ne heq, hnamed]
      simp only [hscan]
      exact ⟨above, rfl, by simpa [heq] using habove, by simp⟩

lemma Split.pass (h : Split name mtags etags mfront (mtag :: ms) efront eback) :
    ∃ same rest below above, Pass name mtags etags mfront (mtag :: ms) efront mtag same rest below above := by
  have hmstop (m : μ) : decide (0 ≠ strcmp (name m) (name mtag)) = true ↔ name m ≠ name mtag := by
    simp [strcmp_eq_zero_iff]
  have hestop (e : Tag) : decide (0 ≤ strcmp e.tag (name mtag)) = true ↔ name mtag ≤ e.tag := by
    simp [strcmp_nonneg_iff]
  obtain ⟨same, rest, rfl, hsame, hrest, hmscan⟩ := h.ascending.advance_same hmstop mfront
  obtain ⟨below, back, rfl, hbelow, hback, hescan⟩ := h.eascending.advance_below hestop efront
  obtain ⟨rfl, rfl, hasc, heasc, hbehind⟩ := h
  have hfirst : (mfront ++ mtag :: (same ++ rest))[mfront.length]? = some mtag := by simp
  have hpassed : ∀ e ∈ efront ++ below, e.tag < name mtag := by
    intro e he
    rcases List.mem_append.1 he with he | he
    · exact hbehind e he mtag List.mem_cons_self
    · exact hbelow e he
  have hnamed : named (efront ++ (below ++ back)) (name mtag) = named back (name mtag) := by
    rw [← List.append_assoc, named, List.filter_append, ← named, filter_none fun e he => (hpassed e he).ne, List.nil_append,
      named]
  have hgroup : ∀ m ∈ mtag :: same, name m = name mtag := by simpa using hsame
  rw [← List.append_assoc] at hescan
  obtain ⟨above, habove, hlarger, hranges⟩ := tagRanges_eq hfirst hmscan hescan
    (heasc.sublist (List.sublist_append_right _ _)) hback
  rw [List.append_assoc, List.append_assoc] at hranges
  refine ⟨mtag :: same, rest, below, above, by simp, ?_, hgroup, fun m hm => (hrest m hm).ne', ⟨?_, ?_, ?_, ?_, ?_⟩, ?_⟩
  · rw [hnamed, ← habove]
  · simp
  · rw [hnamed, List.append_assoc, List.append_assoc, ← habove]
  · exact hasc.sublist (List.Sublist.cons _ (List.sublist_append_right _ _))
  · rw [habove] at heasc
    exact heasc.sublist (((List.sublist_append_right _ _)).trans (List.sublist_append_right _ _))
  · intro e he m hm
    refine lt_of_le_of_lt ?_ (hrest m hm)
    rw [← List.append_assoc] at he
    rcases List.mem_append.1 he with he | he
    · exact (hpassed e he).le
    · exact le_of_eq (by simpa [named] using (List.mem_filter.1 he).2)
  · rw [hnamed]
    exact hranges

variable {same rest : List μ} {below above : List Tag}

lemma Pass.mtag_mem (h : Pass name mtags etags mfront (mtag :: ms) efront mtag same rest below above) : mtag ∈ same := by
  have hmem : mtag ∈ same ++ rest := h.mback_eq ▸ List.mem_cons_self
  exact (List.mem_append.1 hmem).resolve_right fun hrest => h.rest_name mtag hrest rfl

lemma Pass.shorter (h : Pass name mtags etags mfront (mtag :: ms) efront mtag same rest below above) :
    rest.length < (mtag :: ms).length := by
  have hpos := List.length_pos_of_mem h.mtag_mem
  rw [h.mback_eq, List.length_append]
  omega

lemma Pass.forall_names_iff (h : Pass name mtags etags mfront (mtag :: ms) efront mtag same rest below above) (p : μ → Prop) :
    (∀ m ∈ mtag :: ms, ∃ m' ∈ mtag :: ms, name m' = name m ∧ p m') ↔
      (∃ m ∈ same, p m) ∧ ∀ m ∈ rest, ∃ m' ∈ rest, name m' = name m ∧ p m' := by
  rw [h.mback_eq]
  constructor
  · intro hall
    constructor
    · obtain ⟨m, hm, hname, hp⟩ := hall mtag (List.mem_append_left _ h.mtag_mem)
      exact ⟨m, (List.mem_append.1 hm).resolve_right fun hrest => h.rest_name m hrest hname, hp⟩
    · intro m hm
      obtain ⟨m', hm', hname, hp⟩ := hall m (List.mem_append_right _ hm)
      refine ⟨m', (List.mem_append.1 hm').resolve_left fun hsame => ?_, hname, hp⟩
      exact h.rest_name m hm (hname.symm.trans (h.same_name m' hsame))
  · rintro ⟨⟨m₀, hm₀, hp₀⟩, hrest⟩ m hm
    rcases List.mem_append.1 hm with hm | hm
    · exact ⟨m₀, List.mem_append_left _ hm₀, (h.same_name m₀ hm₀).trans (h.same_name m hm).symm, hp₀⟩
    · obtain ⟨m', hm', hname, hp⟩ := hrest m hm
      exact ⟨m', List.mem_append_right _ hm', hname, hp⟩

lemma Pass.exists_iff (h : Pass name mtags etags mfront mback efront mtag same rest below above) (p : μ → Prop) :
    (∃ m ∈ mback, p m) ↔ (∃ m ∈ same, p m) ∨ ∃ m ∈ rest, p m := by
  rw [h.mback_eq]
  simp only [List.mem_append, or_and_right, exists_or]

end

end Glaber.Tags
