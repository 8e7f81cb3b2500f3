import Glaber.Tags.Ranges

/-! Filters of tags (`tagfilter.c`). -/

namespace Glaber.Tags

open Eval (strcmp)
open Lib.Cursor

section

inductive Operator where
  | equal
  | notEqual
  | like
  | notLike
  | exist
  | notExist
  | other
deriving DecidableEq

structure MatchTag where
  op : Operator
  tag : List Char
  value : List Char
deriving DecidableEq

inductive EvalType where
  | andOr
  | or
  | other
deriving DecidableEq

def strmatchCondition (value pattern : List Char) : Operator → Bool
  | .equal => 0 = strcmp value pattern
  | .notEqual => 0 ≠ strcmp value pattern
  | .like => strstr value pattern
  | .notLike => !strstr value pattern
  | _ => false

/-- `tags` is a null pointer, or an array. -/
def matchSingleTag (mtag : MatchTag) (tags : Option (List Tag)) (tagsNum : ℕ) : Option Bool :=
  match mtag.op with
  | .exist => some tags.isSome
  | .notExist => some tags.isNone
  | .equal | .like =>
    anyFrom (fun etag => some (strmatchCondition etag.value mtag.value mtag.op)) (tags.getD []) tagsNum 0
  | .notEqual | .notLike =>
    (anyFrom (fun etag => some (!strmatchCondition etag.value mtag.value mtag.op)) (tags.getD []) tagsNum 0).map (!·)
  | .other => some false

def matchTagRange (mtags : List MatchTag) (etags : List Tag) (mtPos etPos : ℕ) : Option (Bool × ℕ × ℕ) := do
  let r ← tagRanges MatchTag.tag mtags etags mtPos etPos
  let tags := r.etStart.map etags.drop
  let tagsNum := (r.etStart.map (r.etEnd - ·)).getD 0
  let matched ← anyFrom (matchSingleTag · tags tagsNum) mtags (r.mtEnd - mtPos) mtPos
  return (matched, r.mtEnd, r.etEnd)

def matchTagsAndorLoop (mtags : List MatchTag) (etags : List Tag) : ℕ → ℕ → ℕ → Option Bool
  | 0, _, _ => none
  | turns + 1, mtPos, etPos =>
    if mtPos < mtags.length then do
      let (matched, mtPos, etPos) ← matchTagRange mtags etags mtPos etPos
      if matched then matchTagsAndorLoop mtags etags turns mtPos etPos else return false
    else return (mtPos = mtags.length)

def matchTagsOrLoop (mtags : List MatchTag) (etags : List Tag) : ℕ → ℕ → ℕ → Option Bool
  | 0, _, _ => none
  | turns + 1, mtPos, etPos =>
    if mtPos < mtags.length then do
      let (matched, mtPos, etPos) ← matchTagRange mtags etags mtPos etPos
      if matched then return true else matchTagsOrLoop mtags etags turns mtPos etPos
    else return false

/-- `zbx_match_tags`; `none` is a read past the end of a vector, or a loop that goes on after as many passes as there are
filter tags. -/
def matchTags (evalType : EvalType) (mtags : List MatchTag) (etags : List Tag) : Option Bool :=
  match evalType with
  | .other => some false
  | .andOr => if mtags = [] then some true else matchTagsAndorLoop mtags etags (mtags.length + 1) 0 0
  | .or => if mtags = [] then some true else matchTagsOrLoop mtags etags (mtags.length + 1) 0 0

end

section

def MatchTag.Satisfied (mtag : MatchTag) (etags : List Tag) : Prop :=
  let values : Multiset (List Char) := (named etags mtag.tag).map Tag.value
  match mtag.op with
  | .equal => ∃ value ∈ values, value = mtag.value
  | .notEqual => ∀ value ∈ values, value ≠ mtag.value
  | .like => ∃ value ∈ values, mtag.value <:+: value
  | .notLike => ∀ value ∈ values, ¬ mtag.value <:+: value
  | .exist => values ≠ 0
  | .notExist => values = 0
  | .other => False

def Matches (evalType : EvalType) (mtags : List MatchTag) (etags : List Tag) : Prop :=
  match evalType with
  | .andOr => ∀ mtag ∈ mtags, ∃ mtag' ∈ mtags, mtag'.tag = mtag.tag ∧ mtag'.Satisfied etags
  | .or => mtags = [] ∨ ∃ mtag ∈ mtags, mtag.Satisfied etags
  | .other => False

end

section

lemma anyFrom_range (found : Tag → Bool) {range behind : List Tag} {tags : Option (List Tag)}
    (htags : tags = if range = [] then none else some (range ++ behind)) :
    anyFrom (fun etag => some (found etag)) (tags.getD []) range.length 0 = some (range.any found) := by
  by_cases hempty : range = []
  · rw [hempty]
    rfl
  · rw [htags, if_neg hempty]
    exact anyFrom_append [] range behind fun _ _ => rfl

lemma matchSingleTag_satisfied (mtag : MatchTag) (etags : List Tag) {behind : List Tag} {tags : Option (List Tag)}
    (htags : tags = if named etags mtag.tag = [] then none else some (named etags mtag.tag ++ behind)) :
    ∃ matched, matchSingleTag mtag tags (named etags mtag.tag).length = some matched ∧
      (matched = true ↔ mtag.Satisfied etags) := by
  unfold matchSingleTag MatchTag.Satisfied
  cases mtag.op with
  | exist =>
    refine ⟨_, rfl, ?_⟩
    rw [htags]
    by_cases hempty : named etags mtag.tag = [] <;> simp [hempty]
  | notExist =>
    refine ⟨_, rfl, ?_⟩
    rw [htags]
    by_cases hempty : named etags mtag.tag = [] <;> simp [hempty]
  | equal =>
    refine ⟨_, anyFrom_range _ htags, ?_⟩
    simp [strmatchCondition, strcmp_eq_zero_iff]
  | like =>
    refine ⟨_, anyFrom_range _ htags, ?_⟩
    simp [strmatchCondition, strstr]
  | notEqual =>
    refine ⟨_, congrArg (Option.map (!·)) (anyFrom_range _ htags), ?_⟩
    simp [strmatchCondition, strcmp_eq_zero_iff]
  | notLike =>
    refine ⟨_, congrArg (Option.map (!·)) (anyFrom_range _ htags), ?_⟩
    simp [strmatchCondition, strstr]
  | other => exact ⟨false, rfl, by simp⟩

variable {mtags mfront mback : List MatchTag} {etags efront eback : List Tag} {mtag : MatchTag} {ms : List MatchTag}

lemma matchTagRange_pass {same rest : List MatchTag} {below above : List Tag}
    (h : Pass MatchTag.tag mtags etags mfront mback efront mtag same rest below above) :
    ∃ matched, matchTagRange mtags etags mfront.length efront.length =
        some (matched, (mfront ++ same).length, (efront ++ (below ++ named etags mtag.tag)).length) ∧
      (matched = true ↔ ∃ m ∈ same, m.Satisfied etags) := by
  have hranges := h.ranges
  set start := if named etags mtag.tag = [] then none else some (efront ++ below).length with hstart
  set tags := start.map etags.drop with htags
  have hpointer : tags = if named etags mtag.tag = [] then none else some (named etags mtag.tag ++ above) := by
    by_cases hempty : named etags mtag.tag = []
    · rw [htags, hstart, if_pos hempty, if_pos hempty, Option.map_none]
    · have hsplit : etags = (efront ++ below) ++ (named etags mtag.tag ++ above) := by
        rw [List.append_assoc, ← h.etags_eq]
      rw [htags, hstart, if_neg hempty, if_neg hempty, Option.map_some]
      conv_lhs => rw [hsplit, List.drop_left]
  have hnum : (start.map ((efront ++ (below ++ named etags mtag.tag)).length - ·)).getD 0 =
      (named etags mtag.tag).length := by
    by_cases hempty : named etags mtag.tag = []
    · rw [hstart, if_pos hempty, hempty]
      rfl
    · rw [hstart, if_neg hempty, ← List.append_assoc, @List.length_append _ (efront ++ below)]
      simp
  have hsingle : ∀ m ∈ same, ∃ matched, matchSingleTag m tags (named etags mtag.tag).length = some matched ∧
      (matched = true ↔ m.Satisfied etags) := by
    intro m hm
    rw [← h.same_name m hm] at hpointer ⊢
    exact matchSingleTag_satisfied m etags hpointer
  choose! holds hholds hsatisfied using hsingle
  have hcross : anyFrom (matchSingleTag · tags (named etags mtag.tag).length) mtags same.length mfront.length =
      some (same.any holds) := by
    rw [h.split.mtags_eq, List.append_assoc]
    exact anyFrom_append mfront same rest hholds
  refine ⟨same.any holds, ?_, ?_⟩
  · simp only [matchTagRange, hranges, Option.bind_eq_bind, Option.bind_some, hnum, @List.length_append _ mfront,
      Nat.add_sub_cancel_left]
    rw [hcross]
    rfl
  · rw [List.any_eq_true]
    exact exists_congr fun m => and_congr_right fun hm => hsatisfied m hm

lemma matchTagsAndorLoop_eq {turns : ℕ} (h : Split MatchTag.tag mtags etags mfront mback efront eback)
    (hturns : mback.length < turns) :
    ∃ matched, matchTagsAndorLoop mtags etags turns mfront.length efront.length = some matched ∧
      (matched = true ↔ ∀ m ∈ mback, ∃ m' ∈ mback, m'.tag = m.tag ∧ m'.Satisfied etags) := by
  induction turns generalizing mfront mback efront eback with
  | zero => omega
  | succ turns ih =>
    rw [matchTagsAndorLoop]
    cases mback with
    | nil =>
      rw [if_neg (by simp [h.mtags_eq])]
      exact ⟨true, by simp [h.mtags_eq], by simp⟩
    | cons mtag ms =>
      obtain ⟨same, rest, below, above, hpass⟩ := h.pass
      obtain ⟨matched, hrange, hmatched⟩ := matchTagRange_pass hpass
      have hshorter := hpass.shorter
      obtain ⟨all, hloop, hall⟩ := ih hpass.split (by omega)
      rw [if_pos (by simp [h.mtags_eq]), hrange, hpass.forall_names_iff, ← hmatched, ← hall]
      cases matched with
      | true => exact ⟨all, by simpa using hloop, by simp⟩
      | false => exact ⟨false, by simp, by simp⟩

lemma matchTagsOrLoop_eq {turns : ℕ} (h : Split MatchTag.tag mtags etags mfront mback efront eback)
    (hturns : mback.length < turns) :
    ∃ matched, matchTagsOrLoop mtags etags turns mfront.length efront.length = some matched ∧
      (matched = true ↔ ∃ m ∈ mback, m.Satisfied etags) := by
  induction turns generalizing mfront mback efront eback with
  | zero => omega
  | succ turns ih =>
    rw [matchTagsOrLoop]
    cases mback with
    | nil =>
      rw [if_neg (by simp [h.mtags_eq])]
      exact ⟨false, rfl, by simp⟩
    | cons mtag ms =>
      obtain ⟨same, rest, below, above, hpass⟩ := h.pass
      obtain ⟨matched, hrange, hmatched⟩ := matchTagRange_pass hpass
      have hshorter := hpass.shorter
      obtain ⟨some', hloop, hsome⟩ := ih hpass.split (by omega)
      rw [if_pos (by simp [h.mtags_eq]), hrange, hpass.exists_iff, ← hmatched, ← hsome]
      cases matched with
      | true => exact ⟨true, by simp, by simp⟩
      | false => exact ⟨some', by simpa using hloop, by simp⟩

theorem match_tags_naive (hm : Ascending MatchTag.tag mtags) (he : Ascending Tag.tag etags) (evalType : EvalType) :
    ∃ matched, matchTags evalType mtags etags = some matched ∧ (matched = true ↔ Matches evalType mtags etags) := by
  have hstart := split_start hm he
  unfold matchTags
  cases evalType with
  | andOr =>
    dsimp only [Matches]
    split_ifs with hempty
    · exact ⟨true, rfl, by simp [hempty]⟩
    · exact matchTagsAndorLoop_eq hstart (Nat.lt_succ_self _)
  | or =>
    dsimp only [Matches]
    split_ifs with hempty
    · exact ⟨true, rfl, by simp [hempty]⟩
    · obtain ⟨matched, hloop, hmatched⟩ := matchTagsOrLoop_eq hstart (Nat.lt_succ_self _)
      exact ⟨matched, hloop, by simp [hmatched, hempty]⟩
  | other => exact ⟨false, rfl, by simp [Matches]⟩

def fourFilters : List MatchTag :=
  [⟨.notEqual, ['a'], ['x']⟩, ⟨.equal, ['b'], ['y']⟩, ⟨.like, ['b'], ['z']⟩, ⟨.notExist, ['d'], []⟩]

def fourTags : List Tag := [⟨['a'], ['y']⟩, ⟨['a'], ['z']⟩, ⟨['b'], ['x', 'z']⟩, ⟨['c'], ['w']⟩]

theorem fourFilters_match : matchTags .andOr fourFilters fourTags = some true ∧ Matches .andOr fourFilters fourTags := by
  have hrun : matchTags .andOr fourFilters fourTags = some true := by decide
  obtain ⟨matched, hmatched, hnaive⟩ := match_tags_naive
    (show Ascending MatchTag.tag fourFilters by rw [Ascending]; decide)
    (show Ascending Tag.tag fourTags by rw [Ascending]; decide) .andOr
  rw [hrun] at hmatched
  cases hmatched
  exact ⟨hrun, hnaive.mp rfl⟩

end

end Glaber.Tags
