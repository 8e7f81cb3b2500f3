import Mathlib.Data.List.Basic
import Mathlib.Data.List.DropRight
import Mathlib.Data.List.TakeDrop
import Mathlib.Data.List.TakeWhile
import Mathlib.Tactic

/-! Lists in parts between separators. -/

namespace Glaber.Lib.Parts

variable {α : Type} {sep : α}

lemma intercalate_append {parts parts' : List (List α)} (h : parts ≠ []) (h' : parts' ≠ []) :
    [sep].intercalate (parts ++ parts') = [sep].intercalate parts ++ sep :: [sep].intercalate parts' := by
  induction parts with
  | nil => exact absurd rfl h
  | cons part parts ih =>
    cases parts with
    | nil =>
      rw [List.singleton_append, List.intercalate_cons_of_ne_nil h']
      simp
    | cons next parts =>
      rw [List.cons_append, List.intercalate_cons_of_ne_nil (by simp), List.intercalate_cons_of_ne_nil (by simp),
        ih (List.cons_ne_nil _ _)]
      simp

lemma append_cons_inj {part part' rest rest' : List α} (h : sep ∉ part) (h' : sep ∉ part')
    (heq : part ++ sep :: rest = part' ++ sep :: rest') : part = part' ∧ rest = rest' := by
  induction part generalizing part' with
  | nil =>
    cases part' with
    | nil => exact ⟨rfl, (List.cons.inj heq).2⟩
    | cons x part' => exact absurd (List.cons.inj heq).1 fun hx => h' (hx ▸ List.mem_cons_self)
  | cons x part ih =>
    cases part' with
    | nil => exact absurd (List.cons.inj heq).1.symm fun hx => h (hx ▸ List.mem_cons_self)
    | cons y part' =>
      obtain ⟨rfl, htail⟩ := List.cons.inj heq
      obtain ⟨rfl, hrest⟩ := ih (fun hmem => h (List.mem_cons_of_mem x hmem)) (fun hmem => h' (List.mem_cons_of_mem x hmem)) htail
      exact ⟨rfl, hrest⟩

variable [DecidableEq α]

lemma splitOn_cases (sep : α) (text : List α) : sep ∉ text ∧ text.splitOn sep = [text] ∨
    ∃ part rest, text = part ++ sep :: rest ∧ sep ∉ part ∧ text.splitOn sep = part :: rest.splitOn sep := by
  by_cases hmem : sep ∈ text
  · obtain ⟨part, rest, rfl, hpart⟩ := List.eq_append_cons_of_mem hmem
    exact .inr ⟨part, rest, rfl, hpart, List.splitOn_append_cons_self_of_not_mem hpart rest⟩
  · exact .inl ⟨hmem, List.splitOn_eq_singleton hmem⟩

lemma splitOn_eq_empty_part_iff (text : List α) : text.splitOn sep = [[]] ↔ text = [] := by
  constructor
  · intro h
    rcases splitOn_cases sep text with ⟨-, hsplit⟩ | ⟨part, rest, -, -, hsplit⟩
    · rw [hsplit] at h
      exact (List.cons.inj h).1
    · rw [hsplit] at h
      exact absurd (List.cons.inj h).2 (List.splitOn_ne_nil sep rest)
  · rintro rfl
    rfl

lemma head_eq_sep_iff (text : List α) :
    text.head? = some sep ↔ ∃ parts, parts ≠ [] ∧ text.splitOn sep = [] :: parts := by
  constructor
  · intro h
    cases text with
    | nil => cases h
    | cons x text =>
      obtain rfl := Option.some.inj h
      exact ⟨text.splitOn x, List.splitOn_ne_nil x text, List.splitOn_append_cons_self_of_not_mem (List.not_mem_nil) text⟩
  · rintro ⟨parts, hparts, hsplit⟩
    rcases splitOn_cases sep text with ⟨-, hsingle⟩ | ⟨part, rest, rfl, -, hcons⟩
    · rw [hsingle] at hsplit
      exact absurd (List.cons.inj hsplit).2.symm hparts
    · rw [hcons] at hsplit
      rw [(List.cons.inj hsplit).1]
      rfl

lemma not_mem_of_mem_splitOn {text part : List α} (h : part ∈ text.splitOn sep) : sep ∉ part := by
  induction hlen : text.length using Nat.strongRecOn generalizing text with
  | ind len ih =>
    rcases splitOn_cases sep text with ⟨hnone, hsplit⟩ | ⟨first, rest, rfl, hfirst, hsplit⟩
    · rw [hsplit, List.mem_singleton] at h
      rwa [h]
    · rw [hsplit] at h
      rcases List.mem_cons.1 h with rfl | hrest
      · exact hfirst
      · apply ih rest.length _ hrest rfl
        rw [← hlen, List.length_append, List.length_cons]
        omega

lemma splitOn_eq_iff {text : List α} {parts : List (List α)} (hne : parts ≠ []) (hparts : ∀ part ∈ parts, sep ∉ part) :
    text.splitOn sep = parts ↔ text = [sep].intercalate parts := by
  constructor
  · rintro rfl
    exact (List.intercalate_splitOn sep).symm
  · rintro rfl
    exact List.splitOn_intercalate sep hparts hne

lemma splitOn_eq_append_iff {text rest : List α} {parts : List (List α)} (hne : parts ≠ [])
    (hparts : ∀ part ∈ parts, sep ∉ part) :
    text.splitOn sep = parts ++ rest.splitOn sep ↔ text = [sep].intercalate parts ++ sep :: rest := by
  have hall : ∀ part ∈ parts ++ rest.splitOn sep, sep ∉ part := by
    intro part hpart
    exact (List.mem_append.1 hpart).elim (hparts part) not_mem_of_mem_splitOn
  rw [splitOn_eq_iff (by simp [hne]) hall, intercalate_append hne (List.splitOn_ne_nil sep rest), List.intercalate_splitOn]

lemma exists_rest {text : List α} {parts behind : List (List α)} (h : text.splitOn sep = parts ++ behind) (hne : behind ≠ []) :
    ∃ rest : List α, behind = rest.splitOn sep := by
  refine ⟨[sep].intercalate behind, (List.splitOn_intercalate sep (fun part hpart => ?_) hne).symm⟩
  have hmem : part ∈ text.splitOn sep := by
    rw [h]
    exact List.mem_append_right _ hpart
  exact not_mem_of_mem_splitOn hmem

end Glaber.Lib.Parts

/-! A list as a run of elements of one kind and what follows the run. -/

namespace Glaber.Lib.Spans

variable {α : Type*} {p : α → Bool} {run run' rest rest' : List α}

def Ends (p : α → Bool) (rest : List α) : Prop := ∀ a ∈ rest.head?, p a = false

lemma ends_nil : Ends p [] := by
  intro a ha
  cases ha

lemma ends_cons {a : α} (h : p a = false) (rest : List α) : Ends p (a :: rest) := by
  intro b hb
  obtain rfl := Option.some_inj.mp hb
  exact h

lemma Ends.take (hrest : Ends p rest) (n : ℕ) : Ends p (rest.take n) := by
  cases rest with
  | nil => rwa [List.take_nil]
  | cons b rest =>
    cases n with
    | zero => exact ends_nil
    | succ n => exact ends_cons (hrest b rfl) _

lemma Ends.takeWhile (hrest : Ends p rest) : rest.takeWhile p = [] := by
  cases rest with
  | nil => rfl
  | cons a rest => exact List.takeWhile_cons_of_neg (by simpa using hrest a rfl)

lemma Ends.dropWhile (hrest : Ends p rest) : rest.dropWhile p = rest := by
  cases rest with
  | nil => rfl
  | cons a rest => exact List.dropWhile_cons_of_neg (by simpa using hrest a rfl)

lemma ends_dropWhile (l : List α) : Ends p (l.dropWhile p) := by
  intro a ha
  have hnot := List.head?_dropWhile_not p l
  rwa [Option.mem_def.mp ha] at hnot

lemma Ends.takeWhile_append (hrest : Ends p rest) (l : List α) : (l ++ rest).takeWhile p = l.takeWhile p := by
  induction l with
  | nil => exact hrest.takeWhile
  | cons a l ih => rw [List.cons_append, List.takeWhile_cons, List.takeWhile_cons, ih]

lemma takeWhile_run (hrun : ∀ a ∈ run, p a) (hrest : Ends p rest) : (run ++ rest).takeWhile p = run := by
  rw [hrest.takeWhile_append, List.takeWhile_eq_self_iff.mpr hrun]

lemma dropWhile_run (hrun : ∀ a ∈ run, p a) (hrest : Ends p rest) : (run ++ rest).dropWhile p = rest := by
  rw [List.dropWhile_append_of_pos hrun, hrest.dropWhile]

lemma span_run (hrun : ∀ a ∈ run, p a) (hrest : Ends p rest) : (run ++ rest).span p = (run, rest) := by
  rw [List.span_eq_takeWhile_dropWhile, takeWhile_run hrun hrest, dropWhile_run hrun hrest]

lemma run_inj (hrun : ∀ a ∈ run, p a) (hrun' : ∀ a ∈ run', p a) (hrest : Ends p rest) (hrest' : Ends p rest')
    (h : run ++ rest = run' ++ rest') : run = run' ∧ rest = rest' := by
  have hsame := congrArg (List.takeWhile p) h
  rw [takeWhile_run hrun hrest, takeWhile_run hrun' hrest'] at hsame
  subst hsame
  exact ⟨rfl, List.append_cancel_left h⟩

end Glaber.Lib.Spans

/-! The last `n` elements of a list. -/

namespace Glaber.Lib.Newest

variable {α : Type}

lemma length_rtake (l : List α) (n : ℕ) : (l.rtake n).length = min n l.length := by
  rw [List.rtake, List.length_drop]
  omega

lemma rtake_of_length_le {l : List α} {n : ℕ} (h : l.length ≤ n) : l.rtake n = l := by
  rw [List.rtake, Nat.sub_eq_zero_of_le h, List.drop_zero]

lemma rtake_rtake (l : List α) (m n : ℕ) : (l.rtake m).rtake n = l.rtake (min m n) := by
  rw [List.rtake, length_rtake, List.rtake, List.drop_drop, List.rtake]
  congr 1
  omega

lemma rtake_append (l l' : List α) (n : ℕ) : (l ++ l').rtake n = l.rtake (n - l'.length) ++ l'.rtake n := by
  rw [List.rtake, List.drop_append, List.length_append, List.rtake, List.rtake]
  congr 1
  · rcases le_total n l'.length with h | h
    · rw [List.drop_eq_nil_of_le (by omega), List.drop_eq_nil_of_le (by omega)]
    · congr 1
      omega
  · congr 1
    omega

lemma rtake_append_of_le {l l' : List α} {n : ℕ} (h : n ≤ l'.length) : (l ++ l').rtake n = l'.rtake n := by
  rw [rtake_append, Nat.sub_eq_zero_of_le h, List.rtake_zero, List.nil_append]

lemma rtake_append_of_ge {l l' : List α} {n : ℕ} (h : l'.length ≤ n) :
    (l ++ l').rtake n = l.rtake (n - l'.length) ++ l' := by
  rw [rtake_append, rtake_of_length_le h]

lemma getLast?_rtake {l : List α} {n : ℕ} (h : 0 < n) : (l.rtake n).getLast? = l.getLast? := by
  rcases List.eq_nil_or_concat l with rfl | ⟨l', a, rfl⟩
  · simp
  · rw [List.concat_eq_append, rtake_append_of_ge (show [a].length ≤ n from h)]
    simp

lemma getLast?_eq_of_rtake_eq {l l' : List α} {n : ℕ} (hn : 0 < n) (h : l.rtake n = l'.rtake n) :
    l.getLast? = l'.getLast? := by
  rw [← getLast?_rtake hn, h, getLast?_rtake hn]

lemma le_length_of_rtake_eq {l l' : List α} {n : ℕ} (h : l.rtake n = l'.rtake n) (hl : n ≤ l'.length) :
    n ≤ l.length := by
  have := congrArg List.length h
  rw [length_rtake, length_rtake] at this
  omega

lemma reverse_take_reverse_rtake (l : List α) (m n : ℕ) :
    (((l.rtake m).reverse).take n).reverse = l.rtake (min m n) := by
  rw [← List.rtake_eq_reverse_take_reverse, rtake_rtake]

end Glaber.Lib.Newest

/-! Lists cut into windows: a window opens at an element and is closed by the first one that comes late for it. -/

namespace Glaber.Lib.Cuts

variable {α : Type}

def Open (late : α → α → Prop) (w : List α) : Prop := ∀ first ∈ w.head?, ∀ x ∈ w, ¬ late first x

def Closed (late : α → α → Prop) (w : List α) : Prop :=
  ∃ early last first, w = early ++ [last] ∧ Open late early ∧ w.head? = some first ∧ late first last

structure Windows (late : α → α → Prop) (xs : List α) (closed : List (List α)) (rest : List α) : Prop where
  split : xs = closed.flatten ++ rest
  closed : ∀ w ∈ closed, Closed late w
  opened : Open late rest

variable {late : α → α → Prop}

lemma Windows.sublist {xs rest w : List α} {closed : List (List α)} (h : Windows late xs closed rest)
    (hw : w ∈ rest :: closed) : w.Sublist xs := by
  rw [h.split]
  rcases List.mem_cons.1 hw with rfl | hw
  · exact List.sublist_append_right _ _
  · exact (List.sublist_flatten_of_mem hw).trans (List.sublist_append_left _ _)

lemma Open.append {w : List α} {x : α} (h : Open late w) (hx : ∀ first ∈ (w ++ [x]).head?, ¬ late first x) :
    Open late (w ++ [x]) := by
  intro first hfirst y hy
  rcases List.mem_append.1 hy with hy | hy
  · cases w with
    | nil => simp at hy
    | cons a w => exact h first (by simpa using hfirst) y hy
  · rw [List.mem_singleton.1 hy]
    exact hx first hfirst

variable (late) in
lemma exists_windows (xs : List α) : ∃ closed rest, Windows late xs closed rest := by
  suffices h : ∀ w, Open late w → ∃ closed rest, Windows late (w ++ xs) closed rest from
    h [] fun _ hfirst => by simp at hfirst
  induction xs with
  | nil =>
    intro w hw
    exact ⟨[], w, by simp, by simp, hw⟩
  | cons x xs ih =>
    intro w hw
    obtain ⟨first, hfirst⟩ : ∃ first, (w ++ [x]).head? = some first := by
      cases w with
      | nil => exact ⟨x, rfl⟩
      | cons a w => exact ⟨a, rfl⟩
    by_cases hlate : late first x
    · obtain ⟨closed, rest, hsplit, hclosed, hopened⟩ := ih [] fun _ hfirst => by simp at hfirst
      refine ⟨(w ++ [x]) :: closed, rest, ?_, List.forall_mem_cons.2 ⟨?_, hclosed⟩, hopened⟩
      · rw [List.flatten_cons, List.append_assoc, ← hsplit]
        simp
      · exact ⟨w, x, first, rfl, hw, hfirst, hlate⟩
    · have hopen : Open late (w ++ [x]) := by
        apply hw.append
        intro y hy
        obtain rfl : first = y := Option.some.inj (hfirst.symm.trans hy)
        exact hlate
      have hrest := ih (w ++ [x]) hopen
      rwa [List.append_assoc] at hrest

end Glaber.Lib.Cuts
