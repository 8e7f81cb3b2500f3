import Glaber.Ip.RangeLoops

namespace Glaber.Ip

open Lib.Parts

section

variable {ok : List Char → Prop} {parts : List (List Char)} {n : ℕ}

def Doubled (parts : List (List Char)) : Prop := ∃ behind, behind ≠ [] ∧ parts = [] :: behind

lemma v4Reading_exact_iff (hne : parts ≠ []) : v4Reading ok n parts = .exact ↔ parts.length = n ∧ ∀ part ∈ parts, ok part := by
  induction n generalizing parts with
  | zero => simp [v4Reading, hne]
  | succ n ih =>
    rcases parts with _ | ⟨part, _ | ⟨next, parts⟩⟩
    · exact absurd rfl hne
    · rw [v4Reading]
      split_ifs with h
      · simp [h.1, h.2]
      · simp only [false_iff, List.length_singleton, List.mem_singleton, forall_eq]
        exact fun hboth => h ⟨hboth.2, by omega⟩
    · rw [v4Reading]
      split_ifs with h
      · rw [ih (List.cons_ne_nil next parts)]
        simp [h]
      · simp [h]

lemma v4Reading_leftOver_iff (hne : parts ≠ []) :
    v4Reading ok n parts = .leftOver ↔ n < parts.length ∧ ∀ part ∈ parts.take n, ok part := by
  induction n generalizing parts with
  | zero => simp [v4Reading, List.length_pos_iff, hne]
  | succ n ih =>
    rcases parts with _ | ⟨part, _ | ⟨next, parts⟩⟩
    · exact absurd rfl hne
    · rw [v4Reading]
      split_ifs with h <;> simp
    · rw [v4Reading]
      split_ifs with h
      · rw [ih (List.cons_ne_nil next parts), List.take_succ_cons, List.forall_mem_cons, and_iff_right h]
        simp
      · simp [h]

lemma v4Reading_inside : v4Reading ok n parts ≠ .overflow ∧ v4Reading ok n parts ≠ .stray := by
  induction n generalizing parts with
  | zero => simp [v4Reading]
  | succ n ih =>
    rcases parts with _ | ⟨part, _ | ⟨next, parts⟩⟩
    · simp [v4Reading]
    · rw [v4Reading]
      split_ifs <;> simp
    · rw [v4Reading]
      split_ifs
      · exact ih
      · simp

variable (hok : ¬ ok [])
include hok

lemma tailReading_exact_iff (hne : parts ≠ []) :
    tailReading ok n parts = .exact ↔ parts.length ≤ n ∧ ∀ part ∈ parts, ok part := by
  induction n generalizing parts with
  | zero => simp [tailReading, hne]
  | succ n ih =>
    rcases parts with _ | ⟨part, _ | ⟨next, parts⟩⟩
    · exact absurd rfl hne
    · rw [tailReading]
      split_ifs with hempty h
      · simp [hempty, hok]
      · simp [h]
      · simp [h]
    · rw [tailReading]
      split_ifs with h
      · refine iff_of_false (by simp) ?_
        rintro ⟨-, hall⟩
        rcases h with hbad | ⟨rfl, -⟩
        · exact hbad (hall part List.mem_cons_self)
        · exact hok (hall [] (by simp))
      · have hpart : ok part := not_not.1 fun hbad => h (.inl hbad)
        rw [ih (List.cons_ne_nil next parts)]
        simp [hpart]

lemma tailReading_stray_iff (hne : parts ≠ []) :
    tailReading ok n parts = .stray ↔ parts.length ≤ n ∧ (∀ part ∈ parts.dropLast, ok part) ∧ parts.getLast hne = [] := by
  induction n generalizing parts with
  | zero => simp [tailReading, hne]
  | succ n ih =>
    rcases parts with _ | ⟨part, _ | ⟨next, parts⟩⟩
    · exact absurd rfl hne
    · rw [tailReading]
      split_ifs with hempty h <;> simp [hempty]
    · rw [tailReading, List.getLast_cons (List.cons_ne_nil next parts), List.dropLast_cons_cons, List.forall_mem_cons]
      split_ifs with h
      · refine iff_of_false (by simp) ?_
        rintro ⟨-, ⟨hpart, hall⟩, -⟩
        rcases h with hbad | ⟨rfl, hmore⟩
        · exact hbad hpart
        · obtain ⟨last, parts, rfl⟩ := List.exists_cons_of_ne_nil hmore
          exact hok (hall [] (by simp))
      · rw [ih (List.cons_ne_nil next parts), and_iff_right (not_not.1 fun hbad => h (.inl hbad))]
        simp

lemma tailReading_leftOver_iff (hne : parts ≠ []) : tailReading ok n parts = .leftOver ↔
    n < parts.length ∧ (∀ part ∈ parts.take n, ok part) ∧ (n ≠ 0 → ¬ Doubled (parts.drop n)) := by
  induction n generalizing parts with
  | zero => simp [tailReading, List.length_pos_iff, hne]
  | succ n ih =>
    rcases parts with _ | ⟨part, _ | ⟨next, parts⟩⟩
    · exact absurd rfl hne
    · rw [tailReading]
      split_ifs <;> simp
    · rw [tailReading, List.take_succ_cons, List.forall_mem_cons, List.drop_succ_cons]
      split_ifs with h
      · refine iff_of_false (by simp) ?_
        rintro ⟨-, ⟨hpart, hall⟩, hsingle⟩
        rcases h with hbad | ⟨rfl, hmore⟩
        · exact hbad hpart
        · cases n with
          | zero => exact hsingle (by simp) ⟨parts, hmore, rfl⟩
          | succ n => exact hok (hall [] (by simp))
      · have hpart : ok part := not_not.1 fun hbad => h (.inl hbad)
        have hsingle : ¬ Doubled (next :: parts) := by
          rintro ⟨behind, hmore, heq⟩
          obtain ⟨rfl, rfl⟩ := List.cons.inj heq
          exact h (.inr ⟨rfl, hmore⟩)
        rw [ih (List.cons_ne_nil next parts), and_iff_right hpart]
        refine and_congr (by simp) (and_congr_right fun _ => ⟨fun hlater _ => ?_, fun hlater _ => hlater (by simp)⟩)
        by_cases hzero : n = 0
        · rw [hzero]
          exact hsingle
        · exact hlater hzero

omit hok in
lemma tailReading_inside : tailReading ok n parts ≠ .overflow := by
  induction n generalizing parts with
  | zero => simp [tailReading]
  | succ n ih =>
    rcases parts with _ | ⟨part, _ | ⟨next, parts⟩⟩
    · simp [tailReading]
    · rw [tailReading]
      split_ifs <;> simp
    · rw [tailReading]
      split_ifs
      · simp
      · exact ih

def side (groups : List (List Char)) : List (List Char) := if groups = [] then [[]] else groups

omit hok in
lemma side_of_ne_nil {groups : List (List Char)} (h : groups ≠ []) : side groups = groups := if_neg h

lemma fillReading_exact_iff (hne : parts ≠ []) : fillReading ok n parts = .exact ↔
    ∃ right, parts = side right ∧ right.length ≤ n ∧ ∀ part ∈ right, ok part := by
  rw [fillReading]
  split_ifs with hempty
  · exact iff_of_true rfl ⟨[], hempty, Nat.zero_le n, by simp⟩
  · rw [tailReading_exact_iff hok hne]
    constructor
    · rintro ⟨hlength, hall⟩
      exact ⟨parts, (side_of_ne_nil hne).symm, hlength, hall⟩
    · rintro ⟨right, rfl, hlength, hall⟩
      have hright : right ≠ [] := fun h => hempty (by rw [h]; rfl)
      rw [side_of_ne_nil hright]
      exact ⟨hlength, hall⟩

lemma fillReading_stray_iff (hne : parts ≠ []) : fillReading ok n parts = .stray ↔
    ∃ right, right ≠ [] ∧ parts = right ++ [[]] ∧ right.length < n ∧ ∀ part ∈ right, ok part := by
  rw [fillReading]
  split_ifs with hempty
  · refine iff_of_false (by simp) ?_
    rintro ⟨right, hright, heq, -⟩
    rw [hempty] at heq
    exact hright (List.append_left_eq_self.1 heq.symm)
  · rw [tailReading_stray_iff hok hne]
    constructor
    · rintro ⟨hlength, hall, hlast⟩
      have hparts : parts = parts.dropLast ++ [[]] := by rw [← hlast, List.dropLast_append_getLast]
      refine ⟨parts.dropLast, fun h => hempty (by rw [hparts, h]; rfl), hparts, ?_, hall⟩
      have := List.length_pos_of_ne_nil hne
      rw [List.length_dropLast]
      omega
    · rintro ⟨right, -, rfl, hlength, hall⟩
      rw [List.length_append, List.dropLast_concat]
      exact ⟨hlength, hall, List.getLast_append_singleton right⟩

lemma fillReading_leftOver_iff (hne : parts ≠ []) : fillReading ok n parts = .leftOver ↔
    parts ≠ [[]] ∧ ∃ right rest, rest ≠ [] ∧ parts = right ++ rest ∧ right.length = n ∧ (∀ part ∈ right, ok part) ∧
      (right ≠ [] → ¬ Doubled rest) := by
  rw [fillReading]
  split_ifs with hempty
  · exact iff_of_false (by simp) fun h => h.1 hempty
  · rw [tailReading_leftOver_iff hok hne, and_iff_right hempty]
    constructor
    · rintro ⟨hlength, hall, hsingle⟩
      refine ⟨parts.take n, parts.drop n, ?_, (List.take_append_drop n parts).symm, ?_, hall, fun h => hsingle ?_⟩
      · rw [ne_eq, List.drop_eq_nil_iff]
        omega
      · rw [List.length_take]
        omega
      · rintro rfl
        exact h rfl
    · rintro ⟨right, rest, hrest, rfl, rfl, hall, hsingle⟩
      have := List.length_pos_of_ne_nil hrest
      rw [List.length_append, List.take_left, List.drop_left]
      exact ⟨by omega, hall, fun h => hsingle fun hnil => h (by rw [hnil]; rfl)⟩

omit hok in
lemma fillReading_inside : fillReading ok n parts ≠ .overflow := by
  rw [fillReading]
  split_ifs
  · simp
  · exact tailReading_inside

variable (ok n) in
omit hok in
lemma headReading_cases (hne : parts ≠ []) : headReading ok n parts = .fails ∨
    (headReading ok n parts = .exact ∧ parts.length = n ∧ ∀ part ∈ parts, ok part) ∨
    ((headReading ok n parts = .leftOver ∨ headReading ok n parts = .overflow) ∧
      n < parts.length ∧ ∀ part ∈ parts.take n, ok part) ∨
    ∃ left behind, behind ≠ [] ∧ parts = side left ++ [] :: behind ∧ (∀ part ∈ left, ok part) ∧ left.length < n ∧
      headReading ok n parts = fillReading ok (n - left.length - 1) behind := by
  induction n generalizing parts with
  | zero => exact .inr (.inr (.inl ⟨.inl rfl, List.length_pos_of_ne_nil hne, by simp⟩))
  | succ n ih =>
    rcases parts with _ | ⟨part, _ | ⟨next, parts⟩⟩
    · exact absurd rfl hne
    · rw [headReading]
      split_ifs with h
      · exact .inr (.inl ⟨rfl, by simp [h.2], by simpa using h.1⟩)
      · exact .inl rfl
    · rw [headReading]
      split_ifs with hempty hdouble hpart hdouble hzero
      · exact .inr (.inr (.inr ⟨[], parts, hdouble.2, by rw [hempty, hdouble.1]; rfl, by simp, Nat.succ_pos n, rfl⟩))
      · exact .inl rfl
      · exact .inr (.inr (.inl ⟨.inr rfl, by simp [hzero], by simpa [hzero] using hpart⟩))
      · refine .inr (.inr (.inr ⟨[part], parts, hdouble.2, by rw [hdouble.1]; rfl, by simpa using hpart, ?_, rfl⟩))
        rw [List.length_singleton]
        omega
      · rcases ih (List.cons_ne_nil next parts) with hfails | ⟨hexact, hlength, hall⟩ | ⟨hover, hlength, hall⟩ |
          ⟨left, behind, hbehind, hparts, hall, hlength, hfill⟩
        · exact .inl hfails
        · exact .inr (.inl ⟨hexact, by simpa using hlength, List.forall_mem_cons.2 ⟨hpart, hall⟩⟩)
        · refine .inr (.inr (.inl ⟨hover, by simpa using hlength, ?_⟩))
          rw [List.take_succ_cons]
          exact List.forall_mem_cons.2 ⟨hpart, hall⟩
        · have hleft : left ≠ [] := by
            rintro rfl
            obtain ⟨hnext, hparts⟩ := List.cons.inj hparts
            exact hdouble ⟨hnext, by rw [hparts]; simp⟩
          refine .inr (.inr (.inr ⟨part :: left, behind, hbehind, ?_, List.forall_mem_cons.2 ⟨hpart, hall⟩, ?_, ?_⟩))
          · rw [hparts, side_of_ne_nil hleft, side_of_ne_nil (List.cons_ne_nil part left), List.cons_append]
          · rw [List.length_cons]
            omega
          · rw [hfill, List.length_cons, Nat.add_sub_add_right]
      · exact .inl rfl

lemma headReading_whole (hne : parts ≠ []) (hall : ∀ part ∈ parts, ok part) : headReading ok parts.length parts = .exact := by
  induction parts with
  | nil => exact absurd rfl hne
  | cons part parts ih =>
    obtain ⟨hpart, hrest⟩ := List.forall_mem_cons.1 hall
    cases parts with
    | nil => exact if_pos ⟨hpart, rfl⟩
    | cons next parts =>
      have hempty : part ≠ [] := fun h => hok (h ▸ hpart)
      have hnext : next ≠ [] := fun h => hok (h ▸ hrest next List.mem_cons_self)
      rw [List.length_cons, headReading, if_neg hempty, if_neg (not_not.2 hpart), if_neg fun h => hnext h.1]
      exact ih (List.cons_ne_nil next parts) hrest

lemma headReading_beyond {left rest : List (List Char)} (hrest : rest ≠ []) (hall : ∀ part ∈ left, ok part) :
    headReading ok left.length (left ++ rest) = .leftOver ∨ headReading ok left.length (left ++ rest) = .overflow := by
  induction left with
  | nil => exact .inl rfl
  | cons part left ih =>
    obtain ⟨hpart, hleft⟩ := List.forall_mem_cons.1 hall
    have hempty : part ≠ [] := fun h => hok (h ▸ hpart)
    obtain ⟨next, parts, hparts⟩ : ∃ next parts, left ++ rest = next :: parts := List.exists_cons_of_ne_nil (by simp [hrest])
    rw [List.cons_append, List.length_cons, hparts, headReading, if_neg hempty, if_neg (not_not.2 hpart)]
    split_ifs with hdouble hzero
    · exact .inr rfl
    · obtain ⟨group, left, rfl⟩ : ∃ group left', left = group :: left' :=
        List.exists_cons_of_ne_nil fun h => hzero (by rw [h]; rfl)
      rw [List.cons_append] at hparts
      exact absurd (hleft group List.mem_cons_self) (by rw [(List.cons.inj hparts).1, hdouble.1]; exact hok)
    · rw [← hparts]
      exact ih hleft

lemma headReading_fill {left behind : List (List Char)} (hbehind : behind ≠ []) (hall : ∀ part ∈ left, ok part)
    (hlength : left.length < n) :
    headReading ok n (side left ++ [] :: behind) = fillReading ok (n - left.length - 1) behind := by
  induction left generalizing n with
  | nil =>
    obtain ⟨n, rfl⟩ := Nat.exists_eq_add_one_of_ne_zero (Nat.ne_of_gt hlength)
    exact (if_pos rfl).trans (if_pos ⟨rfl, hbehind⟩)
  | cons part left ih =>
    obtain ⟨n, rfl⟩ := Nat.exists_eq_add_one_of_ne_zero (Nat.ne_of_gt (Nat.zero_lt_of_lt hlength))
    obtain ⟨hpart, hleft⟩ := List.forall_mem_cons.1 hall
    have hempty : part ≠ [] := fun h => hok (h ▸ hpart)
    rw [side_of_ne_nil (List.cons_ne_nil part left), List.length_cons, Nat.add_sub_add_right]
    rw [List.length_cons] at hlength
    cases left with
    | nil =>
      rw [List.cons_append, List.nil_append, headReading, if_neg hempty, if_neg (not_not.2 hpart), if_pos ⟨rfl, hbehind⟩,
        if_neg (by simp only [List.length_nil] at hlength; omega)]
      rfl
    | cons next left =>
      have hnext : next ≠ [] := fun h => hok (h ▸ hleft next List.mem_cons_self)
      have hagain := ih hleft (show (next :: left).length < n by omega)
      rw [side_of_ne_nil (List.cons_ne_nil next left)] at hagain
      rw [List.cons_append, List.cons_append, headReading, if_neg hempty, if_neg (not_not.2 hpart), if_neg fun h => hnext h.1]
      exact hagain

end

section

lemma IsGroup.plain {base max : ℕ} {text : List Char} (h : IsGroup base max text) {c : Char} (hc : hexValue c = none)
    (hdash : c ≠ '-') : c ∉ text := by
  rcases h with ⟨value, hvalue, -⟩ | ⟨low, high, first, last, hfirst, hlast, -, -, rfl⟩
  · exact hvalue.plain hc
  · simp [hfirst.plain hc, hlast.plain hc, hdash]

abbrev IsGroup4 := IsGroup 10 255

abbrev IsGroup6 := IsGroup 16 65535

lemma IsGroup4.no_dot {text : List Char} (h : IsGroup4 text) : '.' ∉ text := h.plain rfl (by decide)

lemma IsGroup6.no_colon {text : List Char} (h : IsGroup6 text) : ':' ∉ text := h.plain rfl (by decide)

inductive Form4 : List Char → Prop
  | whole {groups : List (List Char)} (length : groups.length = groupsV4) (all : ∀ group ∈ groups, IsGroup4 group) :
    Form4 (['.'].intercalate groups)

inductive LeftOver4 : List Char → Prop
  | whole {groups : List (List Char)} {rest : List Char} (length : groups.length = groupsV4)
    (all : ∀ group ∈ groups, IsGroup4 group) (plain : '/' ∉ rest) : LeftOver4 (['.'].intercalate groups ++ '.' :: rest)

/-- Eight hexadecimal groups, one or more of them written as two colons in a row or none. -/
inductive Form6 : List Char → Prop
  | whole {groups : List (List Char)} (length : groups.length = groupsV6) (all : ∀ group ∈ groups, IsGroup6 group) :
    Form6 ([':'].intercalate groups)
  | filled {left right : List (List Char)} (length : left.length + right.length < groupsV6)
    (allLeft : ∀ group ∈ left, IsGroup6 group) (allRight : ∀ group ∈ right, IsGroup6 group) :
    Form6 ([':'].intercalate left ++ ':' :: ':' :: [':'].intercalate right)

inductive LeftOver6 : List Char → Prop
  | whole {groups : List (List Char)} {rest : List Char} (length : groups.length = groupsV6)
    (all : ∀ group ∈ groups, IsGroup6 group) (plain : '/' ∉ rest ∧ '.' ∉ rest) :
    LeftOver6 ([':'].intercalate groups ++ ':' :: rest)
  | filledLast {left : List (List Char)} {rest : List Char} (length : left.length + 1 = groupsV6)
    (all : ∀ group ∈ left, IsGroup6 group) (more : rest ≠ []) (plain : '/' ∉ rest ∧ '.' ∉ rest) :
    LeftOver6 ([':'].intercalate left ++ ':' :: ':' :: rest)
  | filled {left right : List (List Char)} {rest : List Char} (length : left.length + right.length + 1 = groupsV6)
    (allLeft : ∀ group ∈ left, IsGroup6 group) (present : right ≠ []) (allRight : ∀ group ∈ right, IsGroup6 group)
    (single : rest.head? ≠ some ':') (plain : '/' ∉ rest ∧ '.' ∉ rest) :
    LeftOver6 ([':'].intercalate left ++ ':' :: ':' :: ([':'].intercalate right ++ ':' :: rest))

inductive Trailing6 : List Char → Prop
  | filled {left right : List (List Char)} (length : left.length + right.length + 1 < groupsV6)
    (allLeft : ∀ group ∈ left, IsGroup6 group) (present : right ≠ []) (allRight : ∀ group ∈ right, IsGroup6 group) :
    Trailing6 ([':'].intercalate left ++ ':' :: ':' :: ([':'].intercalate right ++ [':']))

variable {text : List Char}

lemma form4_iff : v4Reading IsGroup4 groupsV4 (text.splitOn '.') = .exact ↔ Form4 text := by
  rw [v4Reading_exact_iff (List.splitOn_ne_nil _ _)]
  constructor
  · rintro ⟨hlength, hall⟩
    have h := Form4.whole hlength hall
    rwa [List.intercalate_splitOn] at h
  · rintro ⟨hlength, hall⟩
    rw [List.splitOn_intercalate '.' (fun group hgroup => (hall group hgroup).no_dot) (by rintro rfl; cases hlength)]
    exact ⟨hlength, hall⟩

lemma leftOver4_iff (hplain : '/' ∉ text) : v4Reading IsGroup4 groupsV4 (text.splitOn '.') = .leftOver ↔ LeftOver4 text := by
  rw [v4Reading_leftOver_iff (List.splitOn_ne_nil _ _)]
  constructor
  · rintro ⟨hlength, hall⟩
    have hgroups : ((text.splitOn '.').take groupsV4).length = groupsV4 := List.length_take_of_le hlength.le
    obtain ⟨rest, hrest⟩ := exists_rest (List.take_append_drop groupsV4 (text.splitOn '.')).symm
      (by rw [ne_eq, List.drop_eq_nil_iff]; omega)
    have htext : text = ['.'].intercalate ((text.splitOn '.').take groupsV4) ++ '.' :: rest := by
      rw [← splitOn_eq_append_iff (List.ne_nil_of_length_eq_add_one hgroups) fun group hgroup => (hall group hgroup).no_dot,
        ← hrest, List.take_append_drop]
    have hrestPlain : '/' ∉ rest := by
      intro hmem
      apply hplain
      rw [htext]
      exact List.mem_append_right _ (List.mem_cons_of_mem _ hmem)
    have h := LeftOver4.whole hgroups hall hrestPlain
    rwa [← htext] at h
  · rintro ⟨hlength, hall, -⟩
    rename_i groups rest
    have hsplit : (['.'].intercalate groups ++ '.' :: rest).splitOn '.' = groups ++ rest.splitOn '.' :=
      (splitOn_eq_append_iff (List.ne_nil_of_length_eq_add_one hlength) fun group hgroup => (hall group hgroup).no_dot).2 rfl
    have := List.length_pos_of_ne_nil (List.splitOn_ne_nil '.' rest)
    rw [hsplit, List.length_append, ← hlength, List.take_left]
    exact ⟨by omega, hall⟩

lemma intercalate_side (groups : List (List Char)) : [':'].intercalate (side groups) = [':'].intercalate groups := by
  by_cases h : groups = []
  · rw [h]
    rfl
  · rw [side_of_ne_nil h]

lemma side_ne_nil (groups : List (List Char)) : side groups ≠ [] := by
  rw [side]
  split_ifs with h
  · simp
  · exact h

lemma side_no_colon {groups : List (List Char)} (hall : ∀ group ∈ groups, IsGroup6 group) : ∀ part ∈ side groups, ':' ∉ part := by
  intro part hpart
  rw [side] at hpart
  split_ifs at hpart
  · rw [List.mem_singleton.1 hpart]
    exact List.not_mem_nil
  · exact (hall part hpart).no_colon

lemma splitOn_double_iff {left : List (List Char)} {rest : List Char} (hall : ∀ group ∈ left, IsGroup6 group) :
    text.splitOn ':' = side left ++ [] :: rest.splitOn ':' ↔ text = [':'].intercalate left ++ ':' :: ':' :: rest := by
  have hno : ∀ part ∈ side left ++ [[]], ':' ∉ part := by
    intro part hpart
    rcases List.mem_append.1 hpart with hside | hempty
    · exact side_no_colon hall part hside
    · rw [List.mem_singleton.1 hempty]
      exact List.not_mem_nil
  have hparts : side left ++ [] :: rest.splitOn ':' = (side left ++ [[]]) ++ rest.splitOn ':' := by simp
  rw [hparts, splitOn_eq_append_iff (by simp) hno, intercalate_append (side_ne_nil left) (by simp), intercalate_side]
  simp

lemma splitOn_right_iff {right : List (List Char)} {behind rest : List Char} (hpresent : right ≠ [])
    (hall : ∀ group ∈ right, IsGroup6 group) :
    behind.splitOn ':' = right ++ rest.splitOn ':' ↔ behind = [':'].intercalate right ++ ':' :: rest :=
  splitOn_eq_append_iff hpresent fun group hgroup => (hall group hgroup).no_colon

lemma not_isGroup6_nil : ¬ IsGroup6 [] := fun h => isGroup_ne_nil h rfl

lemma form6_iff : headReading IsGroup6 groupsV6 (text.splitOn ':') = .exact ↔ Form6 text := by
  constructor
  · intro h
    rcases headReading_cases IsGroup6 groupsV6 (List.splitOn_ne_nil ':' text) with hfails | ⟨-, hlength, hall⟩ | ⟨hover, -⟩ |
      ⟨left, behind, hbehind, hparts, hall, hlength, hfill⟩
    · rw [h] at hfails
      cases hfails
    · have hform := Form6.whole hlength hall
      rwa [List.intercalate_splitOn] at hform
    · rw [h] at hover
      simp at hover
    · rw [h] at hfill
      obtain ⟨right, rfl, hfits, hright⟩ := (fillReading_exact_iff not_isGroup6_nil hbehind).1 hfill.symm
      have hrest : side right = ([':'].intercalate right).splitOn ':' := by
        rw [← intercalate_side, List.splitOn_intercalate ':' (side_no_colon hright) hbehind]
      rw [hrest] at hparts
      rw [(splitOn_double_iff hall).1 hparts]
      exact .filled (by omega) hall hright
  · rintro (⟨hlength, hall⟩ | ⟨hlength, hleft, hright⟩)
    · rename_i groups
      have hne : groups ≠ [] := List.ne_nil_of_length_eq_add_one hlength
      rw [List.splitOn_intercalate ':' (fun group hgroup => (hall group hgroup).no_colon) hne, ← hlength]
      exact headReading_whole not_isGroup6_nil hne hall
    · rename_i left right
      rw [(splitOn_double_iff hleft).2 rfl, ← intercalate_side right,
        List.splitOn_intercalate ':' (side_no_colon hright) (side_ne_nil right),
        headReading_fill not_isGroup6_nil (side_ne_nil right) hleft (by omega),
        fillReading_exact_iff not_isGroup6_nil (side_ne_nil right)]
      exact ⟨right, rfl, by omega, hright⟩

lemma doubled_iff (rest : List Char) : Doubled (rest.splitOn ':') ↔ rest.head? = some ':' := (head_eq_sep_iff rest).symm

lemma exists_double {left behind : List (List Char)} (hparts : text.splitOn ':' = side left ++ [] :: behind)
    (hbehind : behind ≠ []) : ∃ rest : List Char, behind = rest.splitOn ':' := by
  have happend : text.splitOn ':' = (side left ++ [[]]) ++ behind := by simp [hparts]
  exact exists_rest happend hbehind

lemma leftOver6_iff (hslash : '/' ∉ text) (hdot : '.' ∉ text) :
    (headReading IsGroup6 groupsV6 (text.splitOn ':') = .leftOver ∨ headReading IsGroup6 groupsV6 (text.splitOn ':') = .overflow) ↔
      LeftOver6 text := by
  have hplain : ∀ before rest, text = before ++ ':' :: rest → '/' ∉ rest ∧ '.' ∉ rest := by
    intro before rest htext
    have hmem : ∀ c ∈ rest, c ∈ text := fun c hc => htext ▸ List.mem_append_right _ (List.mem_cons_of_mem _ hc)
    exact ⟨fun h => hslash (hmem _ h), fun h => hdot (hmem _ h)⟩
  constructor
  · intro h
    rcases headReading_cases IsGroup6 groupsV6 (List.splitOn_ne_nil ':' text) with hfails | ⟨hexact, -⟩ | ⟨-, hlength, hall⟩ |
      ⟨left, behind, hbehind, hparts, hleft, hlength, hfill⟩
    · simp [hfails] at h
    · simp [hexact] at h
    · have hgroups : ((text.splitOn ':').take groupsV6).length = groupsV6 := List.length_take_of_le hlength.le
      have hmore : (text.splitOn ':').drop groupsV6 ≠ [] := by
        rw [ne_eq, List.drop_eq_nil_iff]
        omega
      obtain ⟨rest, hrest⟩ := exists_rest (List.take_append_drop groupsV6 (text.splitOn ':')).symm hmore
      have htext : text = [':'].intercalate ((text.splitOn ':').take groupsV6) ++ ':' :: rest := by
        rw [← splitOn_right_iff (List.ne_nil_of_length_eq_add_one hgroups) hall, ← hrest, List.take_append_drop]
      have hform := LeftOver6.whole hgroups hall (hplain _ _ htext)
      rwa [← htext] at hform
    · rw [hfill, or_iff_left fillReading_inside] at h
      obtain ⟨hsome, right, rest, hrest, hright, hfull, hall, hsingle⟩ :=
        (fillReading_leftOver_iff not_isGroup6_nil hbehind).1 h
      obtain ⟨behind, rfl⟩ := exists_double hparts hbehind
      have htext := (splitOn_double_iff hleft).1 hparts
      by_cases hnone : right = []
      · subst hnone
        rw [ne_eq, splitOn_eq_empty_part_iff] at hsome
        have hlast : left.length + 1 = groupsV6 := by
          rw [List.length_nil] at hfull
          omega
        rw [htext]
        exact .filledLast hlast hleft hsome (hplain _ _ (by rw [htext, List.append_cons]))
      · obtain ⟨rest, rfl⟩ := exists_rest hright hrest
        have hbehindText := (splitOn_right_iff hnone hall).1 hright
        have hsplit : text = [':'].intercalate left ++ ':' :: ':' :: [':'].intercalate right ++ ':' :: rest := by
          rw [htext, hbehindText]
          simp
        rw [htext, hbehindText]
        exact .filled (by omega) hleft hnone hall (fun hhead => hsingle hnone ((doubled_iff rest).2 hhead)) (hplain _ _ hsplit)
  · rintro (⟨hlength, hall, -⟩ | ⟨hlength, hleft, hmore, -⟩ | ⟨hlength, hleft, hpresent, hall, hsingle, -⟩)
    · rename_i groups rest
      rw [(splitOn_right_iff (List.ne_nil_of_length_eq_add_one hlength) hall).2 rfl, ← hlength]
      exact headReading_beyond not_isGroup6_nil (List.splitOn_ne_nil ':' rest) hall
    · rename_i left rest
      rw [(splitOn_double_iff hleft).2 rfl, headReading_fill not_isGroup6_nil (List.splitOn_ne_nil ':' rest) hleft (by omega),
        fillReading_leftOver_iff not_isGroup6_nil (List.splitOn_ne_nil ':' rest), ne_eq, splitOn_eq_empty_part_iff]
      exact .inl ⟨hmore, [], rest.splitOn ':', List.splitOn_ne_nil ':' rest, rfl, by rw [List.length_nil]; omega, by simp, by simp⟩
    · rename_i left right rest
      have hbehind : ([':'].intercalate right ++ ':' :: rest).splitOn ':' = right ++ rest.splitOn ':' :=
        (splitOn_right_iff hpresent hall).2 rfl
      have hne := List.splitOn_ne_nil ':' rest
      rw [(splitOn_double_iff hleft).2 rfl, hbehind,
        headReading_fill not_isGroup6_nil (List.append_ne_nil_of_left_ne_nil hpresent _) hleft (by omega),
        fillReading_leftOver_iff not_isGroup6_nil (List.append_ne_nil_of_left_ne_nil hpresent _)]
      refine .inl ⟨fun h => ?_, right, rest.splitOn ':', hne, rfl, by omega, hall, fun _ h => hsingle ((doubled_iff rest).1 h)⟩
      rw [List.append_eq_singleton_iff] at h
      rcases h with ⟨hnil, -⟩ | ⟨-, hnil⟩
      · exact hpresent hnil
      · exact hne hnil

lemma trailing6_iff : headReading IsGroup6 groupsV6 (text.splitOn ':') = .stray ↔ Trailing6 text := by
  have hempty : ([] : List Char).splitOn ':' = [[]] := rfl
  constructor
  · intro h
    rcases headReading_cases IsGroup6 groupsV6 (List.splitOn_ne_nil ':' text) with hfails | ⟨hexact, -⟩ | ⟨hover, -⟩ |
      ⟨left, behind, hbehind, hparts, hleft, hlength, hfill⟩
    · simp [hfails] at h
    · simp [hexact] at h
    · simp [h] at hover
    · rw [h] at hfill
      obtain ⟨right, hpresent, rfl, hfits, hall⟩ := (fillReading_stray_iff not_isGroup6_nil hbehind).1 hfill.symm
      obtain ⟨behind, hsplit⟩ := exists_double hparts hbehind
      rw [hsplit] at hparts
      rw [← hempty] at hsplit
      rw [(splitOn_double_iff hleft).1 hparts, (splitOn_right_iff hpresent hall).1 hsplit.symm]
      exact .filled (by omega) hleft hpresent hall
  · rintro ⟨hlength, hleft, hpresent, hall⟩
    rename_i left right
    have hbehind : ([':'].intercalate right ++ [':']).splitOn ':' = right ++ [[]] := by
      rw [← hempty]
      exact (splitOn_right_iff hpresent hall).2 rfl
    rw [(splitOn_double_iff hleft).2 rfl, hbehind,
      headReading_fill not_isGroup6_nil (by simp) hleft (by omega), fillReading_stray_iff not_isGroup6_nil (by simp)]
    exact ⟨right, hpresent, rfl, by omega, hall⟩

end

end Glaber.Ip
