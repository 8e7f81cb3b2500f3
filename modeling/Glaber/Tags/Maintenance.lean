import Glaber.Tags.Ranges

/-! The tags of maintenances against the tags of events (`dbconfig_maintenance.c`). -/

namespace Glaber.Tags

open Eval (strcmp)
open Lib.Cursor

section

inductive MaintenanceTagOperator where
  | equal
  | like
  | other
deriving DecidableEq

structure MaintenanceTag where
  op : MaintenanceTagOperator
  tag : List Char
  value : List Char
deriving DecidableEq

inductive MaintenanceEvalType where
  | andOr
  | or
  | other
deriving DecidableEq

def dcMaintenanceTagValueMatch (mt : MaintenanceTag) (tag : Tag) : Bool :=
  match mt.op with
  | .like => strstr tag.value mt.value
  | .equal => 0 = strcmp tag.value mt.value
  | .other => false

def dcMaintenanceMatchTagRange (mtags : List MaintenanceTag) (etags : List Tag) (mtPos etPos : ℕ) :
    Option (Bool × ℕ × ℕ) := do
  let r ← tagRanges MaintenanceTag.tag mtags etags mtPos etPos
  match r.etStart with
  | none => return (false, r.mtEnd, r.etEnd)
  | some etStart =>
    let row := fun mtag =>
      anyFrom (fun etag => some (dcMaintenanceTagValueMatch mtag etag)) etags (r.etEnd - etStart) etStart
    let matched ← anyFrom row mtags (r.mtEnd - mtPos) mtPos
    return (matched, r.mtEnd, r.etEnd)

def dcMaintenanceMatchTagsOrLoop (mtags : List MaintenanceTag) (etags : List Tag) : ℕ → ℕ → ℕ → Option Bool
  | 0, _, _ => none
  | turns + 1, mtPos, etPos =>
    if mtPos < mtags.length ∧ etPos < etags.length then do
      let (matched, mtPos, etPos) ← dcMaintenanceMatchTagRange mtags etags mtPos etPos
      if matched then return true else dcMaintenanceMatchTagsOrLoop mtags etags turns mtPos etPos
    else return false

def dcMaintenanceMatchTagsAndorLoop (mtags : List MaintenanceTag) (etags : List Tag) : ℕ → ℕ → ℕ → Option Bool
  | 0, _, _ => none
  | turns + 1, mtPos, etPos =>
    if mtPos < mtags.length ∧ etPos < etags.length then do
      let (matched, mtPos, etPos) ← dcMaintenanceMatchTagRange mtags etags mtPos etPos
      if matched then dcMaintenanceMatchTagsAndorLoop mtags etags turns mtPos etPos else return false
    else return (mtPos = mtags.length)

/-- `dc_maintenance_match_tags`; `none` is a read past the end of a list, or a loop that goes on after as many passes as
there are tags of the maintenance. -/
def dcMaintenanceMatchTags (evalType : MaintenanceEvalType) (mtags : List MaintenanceTag) (etags : List Tag) : Option Bool :=
  match evalType with
  | .other => some false
  | .andOr =>
    if mtags = [] then some true
    else if etags = [] then some false
    else dcMaintenanceMatchTagsAndorLoop mtags etags (mtags.length + 1) 0 0
  | .or =>
    if mtags = [] then some true
    else if etags = [] then some false
    else dcMaintenanceMatchTagsOrLoop mtags etags (mtags.length + 1) 0 0

end

section

def MaintenanceTag.ValueMatches (mtag : MaintenanceTag) (value : List Char) : Prop :=
  match mtag.op with
  | .equal => value = mtag.value
  | .like => mtag.value <:+: value
  | .other => False

def MaintenanceTag.Meets (mtag : MaintenanceTag) (etags : List Tag) : Prop :=
  ∃ etag ∈ etags, etag.tag = mtag.tag ∧ mtag.ValueMatches etag.value

def Covers (evalType : MaintenanceEvalType) (mtags : List MaintenanceTag) (etags : List Tag) : Prop :=
  match evalType with
  | .or => mtags = [] ∨ ∃ mtag ∈ mtags, mtag.Meets etags
  | .andOr => ∀ mtag ∈ mtags, ∃ mtag' ∈ mtags, mtag'.tag = mtag.tag ∧ mtag'.Meets etags
  | .other => False

end

section

variable {mtags mfront mback : List MaintenanceTag} {etags efront eback : List Tag} {mtag : MaintenanceTag}
  {ms same rest : List MaintenanceTag} {below above : List Tag}

lemma valueMatch_iff (mtag : MaintenanceTag) (etag : Tag) :
    dcMaintenanceTagValueMatch mtag etag = true ↔ mtag.ValueMatches etag.value := by
  unfold dcMaintenanceTagValueMatch MaintenanceTag.ValueMatches
  cases mtag.op <;> simp [strstr, strcmp_eq_zero_iff]

lemma meets_iff (mtag : MaintenanceTag) (etags : List Tag) :
    mtag.Meets etags ↔ (named etags mtag.tag).any (dcMaintenanceTagValueMatch mtag) = true := by
  simp only [MaintenanceTag.Meets, named, List.any_eq_true, List.mem_filter, valueMatch_iff, decide_eq_true_eq, and_assoc]

lemma Split.not_meets (h : Split MaintenanceTag.tag mtags etags mfront mback efront []) :
    ∀ m ∈ mback, ¬ m.Meets etags := by
  rintro m hm ⟨etag, hetag, hname, -⟩
  rw [h.etags_eq, List.append_nil] at hetag
  exact (h.behind etag hetag m hm).ne hname

lemma maintenanceRange_pass (h : Pass MaintenanceTag.tag mtags etags mfront mback efront mtag same rest below above) :
    ∃ matched, dcMaintenanceMatchTagRange mtags etags mfront.length efront.length =
        some (matched, (mfront ++ same).length, (efront ++ (below ++ named etags mtag.tag)).length) ∧
      (matched = true ↔ ∃ m ∈ same, m.Meets etags) := by
  rw [dcMaintenanceMatchTagRange, h.ranges]
  have hmeets : ∀ m ∈ same, (m.Meets etags ↔ (named etags mtag.tag).any (dcMaintenanceTagValueMatch m) = true) := by
    intro m hm
    rw [meets_iff, h.same_name m hm]
  by_cases hempty : named etags mtag.tag = []
  · refine ⟨false, by simp [hempty], ?_⟩
    simp only [Bool.false_eq_true, false_iff, not_exists, not_and]
    intro m hm
    simp [hmeets m hm, hempty]
  · have hetags : etags = (efront ++ below) ++ (named etags mtag.tag ++ above) := by
      rw [List.append_assoc, ← h.etags_eq]
    have hnum : (efront ++ (below ++ named etags mtag.tag)).length - (efront ++ below).length =
        (named etags mtag.tag).length := by
      rw [← List.append_assoc, @List.length_append _ (efront ++ below), Nat.add_sub_cancel_left]
    have hrow : ∀ m ∈ same, anyFrom (fun etag => some (dcMaintenanceTagValueMatch m etag)) etags
        (named etags mtag.tag).length (efront ++ below).length =
          some ((named etags mtag.tag).any (dcMaintenanceTagValueMatch m)) := by
      intro m _
      have hscan := @anyFrom_append _ (fun etag => some (dcMaintenanceTagValueMatch m etag))
        (dcMaintenanceTagValueMatch m) (efront ++ below) (named etags mtag.tag) above fun _ _ => rfl
      rwa [← hetags] at hscan
    have hcross := anyFrom_append mfront same rest hrow
    rw [← List.append_assoc, ← h.split.mtags_eq] at hcross
    refine ⟨same.any fun m => (named etags mtag.tag).any (dcMaintenanceTagValueMatch m), ?_, ?_⟩
    · simp only [if_neg hempty, Option.bind_eq_bind, Option.bind_some, hnum, @List.length_append _ mfront,
        Nat.add_sub_cancel_left]
      rw [hcross]
      rfl
    · rw [List.any_eq_true]
      exact exists_congr fun m => and_congr_right fun hm => (hmeets m hm).symm

lemma orLoop_eq {turns : ℕ} (h : Split MaintenanceTag.tag mtags etags mfront mback efront eback)
    (hturns : mback.length < turns) :
    ∃ matched, dcMaintenanceMatchTagsOrLoop mtags etags turns mfront.length efront.length = some matched ∧
      (matched = true ↔ ∃ m ∈ mback, m.Meets etags) := by
  induction turns generalizing mfront mback efront eback with
  | zero => omega
  | succ turns ih =>
    rw [dcMaintenanceMatchTagsOrLoop]
    cases mback with
    | nil => exact ⟨false, by simp [h.mtags_eq], by simp⟩
    | cons mtag ms =>
      cases eback with
      | nil =>
        refine ⟨false, by simp [h.etags_eq], ?_⟩
        simpa using h.not_meets
      | cons etag es =>
        obtain ⟨same, rest, below, above, hpass⟩ := h.pass
        obtain ⟨matched, hrange, hmatched⟩ := maintenanceRange_pass hpass
        have hshorter := hpass.shorter
        obtain ⟨later, hloop, hlater⟩ := ih hpass.split (by omega)
        rw [if_pos (by simp [h.mtags_eq, h.etags_eq]), hrange, hpass.exists_iff, ← hmatched, ← hlater]
        cases matched with
        | true => exact ⟨true, by simp, by simp⟩
        | false => exact ⟨later, by simpa using hloop, by simp⟩

lemma andorLoop_eq {turns : ℕ} (h : Split MaintenanceTag.tag mtags etags mfront mback efront eback)
    (hturns : mback.length < turns) :
    ∃ matched, dcMaintenanceMatchTagsAndorLoop mtags etags turns mfront.length efront.length = some matched ∧
      (matched = true ↔ ∀ m ∈ mback, ∃ m' ∈ mback, m'.tag = m.tag ∧ m'.Meets etags) := by
  induction turns generalizing mfront mback efront eback with
  | zero => omega
  | succ turns ih =>
    rw [dcMaintenanceMatchTagsAndorLoop]
    cases mback with
    | nil => exact ⟨true, by simp [h.mtags_eq], by simp⟩
    | cons mtag ms =>
      cases eback with
      | nil =>
        refine ⟨false, by simp [h.mtags_eq, h.etags_eq], ?_⟩
        -- the first tag of the maintenance finds no tag of the event any more
        simp only [Bool.false_eq_true, false_iff]
        intro hall
        obtain ⟨m, hm, -, hmeets⟩ := hall mtag List.mem_cons_self
        exact h.not_meets m hm hmeets
      | cons etag es =>
        obtain ⟨same, rest, below, above, hpass⟩ := h.pass
        obtain ⟨matched, hrange, hmatched⟩ := maintenanceRange_pass hpass
        have hshorter := hpass.shorter
        obtain ⟨later, hloop, hlater⟩ := ih hpass.split (by omega)
        rw [if_pos (by simp [h.mtags_eq, h.etags_eq]), hrange, hpass.forall_names_iff, ← hmatched, ← hlater]
        cases matched with
        | true => exact ⟨later, by simpa using hloop, by simp⟩
        | false => exact ⟨false, by simp, by simp⟩

theorem maintenance_match_covers (hm : Ascending MaintenanceTag.tag mtags) (he : Ascending Tag.tag etags)
    (evalType : MaintenanceEvalType) :
    ∃ matched, dcMaintenanceMatchTags evalType mtags etags = some matched ∧
      (matched = true ↔ Covers evalType mtags etags) := by
  have hstart := split_start hm he
  have hnone : etags = [] → ∀ m : MaintenanceTag, ¬ m.Meets etags := by
    rintro rfl m ⟨etag, hetag, -⟩
    exact absurd hetag List.not_mem_nil
  unfold dcMaintenanceMatchTags
  cases evalType with
  | other => exact ⟨false, rfl, by simp [Covers]⟩
  | andOr =>
    dsimp only [Covers]
    split_ifs with hempty hno
    · exact ⟨true, rfl, by simp [hempty]⟩
    · refine ⟨false, rfl, ?_⟩
      obtain ⟨mtag, hmtag⟩ := List.exists_mem_of_ne_nil _ hempty
      simp only [Bool.false_eq_true, false_iff]
      intro hall
      obtain ⟨m, -, -, hmeets⟩ := hall mtag hmtag
      exact hnone hno m hmeets
    · exact andorLoop_eq hstart (Nat.lt_succ_self _)
  | or =>
    dsimp only [Covers]
    split_ifs with hempty hno
    · exact ⟨true, rfl, by simp [hempty]⟩
    · exact ⟨false, rfl, by simp [hempty, hnone hno]⟩
    · obtain ⟨matched, hloop, hmatched⟩ := orLoop_eq hstart (Nat.lt_succ_self _)
      exact ⟨matched, hloop, by simp [hmatched, hempty]⟩

def threeConditions : List MaintenanceTag := [⟨.equal, ['a'], ['x']⟩, ⟨.like, ['a'], ['z']⟩, ⟨.equal, ['c'], ['w']⟩]

def threeTags : List Tag := [⟨['a'], ['y']⟩, ⟨['a'], ['x', 'z']⟩, ⟨['c'], ['w']⟩]

theorem threeConditions_cover : dcMaintenanceMatchTags .andOr threeConditions threeTags = some true ∧
    Covers .andOr threeConditions threeTags := by
  have hrun : dcMaintenanceMatchTags .andOr threeConditions threeTags = some true := by decide
  obtain ⟨matched, hmatched, hcovers⟩ :=
    maintenance_match_covers (show Ascending MaintenanceTag.tag threeConditions by rw [Ascending]; decide)
      (show Ascending Tag.tag threeTags by rw [Ascending]; decide) .andOr
  rw [hrun] at hmatched
  cases hmatched
  exact ⟨hrun, hcovers.mp rfl⟩

end

end Glaber.Tags
