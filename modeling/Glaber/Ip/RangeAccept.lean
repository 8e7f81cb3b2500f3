import Glaber.Ip.RangeGrammar

namespace Glaber.Ip

section

def trimmed (address : List Char) : List Char := (address.dropWhile isWhitespaceCharacter).rdropWhile isWhitespaceCharacter

def Masked (maxBits : ℕ) (form : List Char → Prop) (text : List Char) : Prop :=
  form text ∨ ∃ body mask bits, text = body ++ '/' :: mask ∧ form body ∧ '-' ∉ body ∧ Numeral 10 mask bits ∧ bits ≤ maxBits

def IsIpRange (address : List Char) : Prop := Masked 30 Form4 (trimmed address) ∨ Masked 128 Form6 (trimmed address)

def LeftOver (memory address : List Char) : Prop :=
  Masked 30 LeftOver4 (trimmed address) ∨ Masked 128 LeftOver6 (trimmed address) ∨
    Trailing6 (trimmed address) ∧ address.dropWhile isWhitespaceCharacter = trimmed address ∧ memory.head? = some ':'

variable {maxBits : ℕ} {form : List Char → Prop}

lemma masked_plain_iff {text : List Char} (hslash : '/' ∉ text) : Masked maxBits form text ↔ form text := by
  refine or_iff_left ?_
  rintro ⟨body, mask, bits, rfl, -⟩
  exact hslash (List.mem_append_right _ List.mem_cons_self)

variable (hform : ∀ text, form text → '/' ∉ text)
include hform

lemma masked_slash_iff {body mask : List Char} (hslash : '/' ∉ body) : Masked maxBits form (body ++ '/' :: mask) ↔
    form body ∧ '-' ∉ body ∧ ∃ bits, Numeral 10 mask bits ∧ bits ≤ maxBits := by
  constructor
  · rintro (hwhole | ⟨body', mask', bits, heq, hbody, hdash, hmask, hbits⟩)
    · exact absurd (List.mem_append_right _ List.mem_cons_self) (hform _ hwhole)
    · obtain ⟨rfl, rfl⟩ := Lib.Parts.append_cons_inj hslash (hform _ hbody) heq
      exact ⟨hbody, hdash, bits, hmask, hbits⟩
  · rintro ⟨hbody, hdash, bits, hmask, hbits⟩
    exact .inr ⟨body, mask, bits, rfl, hbody, hdash, hmask, hbits⟩

lemma masked_mask_iff {body mask : List Char} (hslash : '/' ∉ body) {bits : ℕ} (hmask : Numeral 10 mask bits ∧ bits ≤ maxBits) :
    Masked maxBits form (body ++ '/' :: mask) ↔ form body ∧ '-' ∉ body := by
  rw [masked_slash_iff hform hslash]
  exact and_congr_right fun _ => and_iff_left ⟨bits, hmask⟩

end

section

lemma not_isWhitespace {c : Char} (hc : c ∈ ['.', ':', '-', '/']) : isWhitespaceCharacter c = false := by
  simp only [List.mem_cons, List.not_mem_nil, or_false] at hc
  rcases hc with rfl | rfl | rfl | rfl <;> rfl

inductive EndsAt (maxBits : ℕ) (text : List Char) : Run (ℕ × Option ℕ) → Prop
  | plain {stop : List Char} (split : text = text.rdropWhile isWhitespaceCharacter ++ stop)
    (slash : '/' ∉ text.rdropWhile isWhitespaceCharacter) (behind : Behind stop) :
    EndsAt maxBits text (.ok (stop.length, none))
  | bad {body mask : List Char} (split : text.rdropWhile isWhitespaceCharacter = body ++ '/' :: mask) (slash : '/' ∉ body)
    (mask : ¬ ∃ bits, Numeral 10 mask bits ∧ bits ≤ maxBits) : EndsAt maxBits text (.error .fail)
  | masked {body mask stop : List Char} {bits : ℕ} (split : text.rdropWhile isWhitespaceCharacter = body ++ '/' :: mask)
    (slash : '/' ∉ body) (mask : Numeral 10 mask bits ∧ bits ≤ maxBits) (whole : text = body ++ '/' :: stop)
    (behind : Behind ('/' :: stop)) : EndsAt maxBits text (.ok (('/' :: stop).length, some bits))

lemma addressLength_eq (text : List Char) : addressLength text = (text.rdropWhile isWhitespaceCharacter).length := by
  rw [List.rdropWhile, List.length_reverse, addressLength]

lemma addressEnd_cases {maxBits : ℕ} (hmax : maxBits ≤ 18446744073709551615) (text : List Char) :
    EndsAt maxBits text (addressEnd maxBits text) := by
  have hlength := addressLength_eq text
  have hwhite : ∀ c ∈ text.rtakeWhile isWhitespaceCharacter, isWhitespaceCharacter c = true := fun c => List.mem_rtakeWhile_imp
  have hsplit : text = text.rdropWhile isWhitespaceCharacter ++ text.rtakeWhile isWhitespaceCharacter :=
    (List.rdropWhile_append_rtakeWhile).symm
  generalize htrail : text.rtakeWhile isWhitespaceCharacter = trail at hwhite hsplit
  have hnot : ∀ c ∈ trail, c ∉ ['.', ':', '-', '/'] := by
    intro c hc hmem
    have := hwhite c hc
    rw [not_isWhitespace hmem] at this
    cases this
  have hbehind : Behind trail := by
    intro c hc
    refine ⟨?_, ?_, ?_⟩ <;> rintro rfl <;> exact hnot _ hc (by simp)
  by_cases hslash : '/' ∈ text.rdropWhile isWhitespaceCharacter
  · obtain ⟨body, mask, hbody, hno⟩ := List.eq_append_cons_of_mem hslash
    have htext : text = body ++ '/' :: (mask ++ trail) := by
      rw [hsplit, hbody]
      simp
    have hstop : strchr text '/' = some ('/' :: (mask ++ trail)) := by
      rw [htext]
      exact strchr_append_cons hno
    have hmask : (mask ++ trail).take (addressLength text - (text.length - ('/' :: (mask ++ trail)).length + 1)) = mask := by
      rw [hlength, hbody, htext, List.length_append, List.length_append, Nat.add_sub_cancel, List.length_cons]
      rw [show body.length + (mask.length + 1) - (body.length + 1) = mask.length by omega, List.take_left]
    rw [addressEnd, hstop]
    dsimp only
    rw [List.tail_cons, hmask]
    cases hbits : Expr.isUintNRange mask 0 maxBits with
    | none =>
      apply EndsAt.bad hbody hno
      rintro ⟨bits, hnumeral⟩
      rw [(isUintNRange_numeral hmax).2 hnumeral] at hbits
      cases hbits
    | some bits =>
      have hnumeral := (isUintNRange_numeral hmax).1 hbits
      refine .masked hbody hno hnumeral htext ?_
      intro c hc
      rcases List.mem_cons.1 hc with rfl | hc
      · decide
      · rcases List.mem_append.1 hc with hc | hc
        · obtain ⟨digit, -, hdigit⟩ := hnumeral.1.digits c hc
          refine ⟨?_, ?_, ?_⟩ <;> rintro rfl <;> cases hdigit
        · exact hbehind c hc
  · have hnone : '/' ∉ text := by
      rw [hsplit, List.mem_append]
      rintro (h | h)
      · exact hslash h
      · exact hnot _ h (by simp)
    have hend : text.length - addressLength text = trail.length := by
      rw [hlength]
      have := congrArg List.length hsplit
      rw [List.length_append] at this
      omega
    rw [addressEnd, strchr_none hnone]
    dsimp only
    rw [hend]
    exact .plain hsplit hslash hbehind

end

section

lemma not_mem_intercalate {sep c : Char} {groups : List (List Char)} (hsep : c ≠ sep) (hall : ∀ group ∈ groups, c ∉ group) :
    c ∉ [sep].intercalate groups := by
  induction groups with
  | nil => exact List.not_mem_nil
  | cons group groups ih =>
    obtain ⟨hgroup, hgroups⟩ := List.forall_mem_cons.1 hall
    cases groups with
    | nil => simpa using hgroup
    | cons next groups =>
      rw [List.intercalate_cons_of_ne_nil (List.cons_ne_nil _ _)]
      simp only [List.mem_append, List.mem_singleton, not_or]
      exact ⟨⟨hgroup, hsep⟩, ih hgroups⟩

lemma Form4.no_slash (text : List Char) (h : Form4 text) : '/' ∉ text := by
  obtain ⟨-, hall⟩ := h
  exact not_mem_intercalate (by decide) fun group hgroup => (hall group hgroup).plain rfl (by decide)

lemma LeftOver4.no_slash (text : List Char) (h : LeftOver4 text) : '/' ∉ text := by
  obtain ⟨hlength, hall, hplain⟩ := h
  have hgroups := Form4.no_slash _ (.whole hlength hall)
  simp [hgroups, hplain]

lemma Form4.dot {text : List Char} (h : Form4 text) : '.' ∈ text := by
  obtain ⟨hlength, -⟩ := h
  rename_i groups
  match groups, hlength with
  | [first, second, third, fourth], _ =>
    rw [List.intercalate_cons_of_ne_nil (List.cons_ne_nil _ _)]
    simp

lemma LeftOver4.dot {text : List Char} (h : LeftOver4 text) : '.' ∈ text := by
  obtain ⟨-, -, -⟩ := h
  simp

lemma groups6_plain {c : Char} (hc : hexValue c = none) (hdash : c ≠ '-') (hcolon : c ≠ ':') {groups : List (List Char)}
    (hall : ∀ group ∈ groups, IsGroup6 group) : c ∉ [':'].intercalate groups :=
  not_mem_intercalate hcolon fun group hgroup => (hall group hgroup).plain hc hdash

lemma Form6.plain {c : Char} (hc : hexValue c = none) (hdash : c ≠ '-') (hcolon : c ≠ ':') (text : List Char) (h : Form6 text) :
    c ∉ text := by
  have hplain {groups : List (List Char)} (hall : ∀ group ∈ groups, IsGroup6 group) := groups6_plain hc hdash hcolon hall
  cases h with
  | whole hlength hall => exact hplain hall
  | filled hlength hleft hright => simp [hplain hleft, hplain hright, hcolon]

lemma Trailing6.plain {c : Char} (hc : hexValue c = none) (hdash : c ≠ '-') (hcolon : c ≠ ':') (text : List Char)
    (h : Trailing6 text) : c ∉ text := by
  obtain ⟨-, hleft, -, hright⟩ := h
  simp [groups6_plain hc hdash hcolon hleft, groups6_plain hc hdash hcolon hright, hcolon]

lemma LeftOver6.plain (text : List Char) (h : LeftOver6 text) : '/' ∉ text ∧ '.' ∉ text := by
  have hslash {groups : List (List Char)} (hall : ∀ group ∈ groups, IsGroup6 group) : '/' ∉ [':'].intercalate groups :=
    groups6_plain rfl (by decide) (by decide) hall
  have hdot {groups : List (List Char)} (hall : ∀ group ∈ groups, IsGroup6 group) : '.' ∉ [':'].intercalate groups :=
    groups6_plain rfl (by decide) (by decide) hall
  cases h with
  | whole hlength hall hrest => simp [hslash hall, hdot hall, hrest.1, hrest.2]
  | filledLast hlength hall hmore hrest => simp [hslash hall, hdot hall, hrest.1, hrest.2]
  | filled hlength hleft hpresent hright hsingle hrest =>
    simp [hslash hleft, hdot hleft, hslash hright, hdot hright, hrest.1, hrest.2]

end

section

lemma Reading.Describes.settled {r : Reading} {colonBehind : Prop} {run : Run IpRange} (h : r.Describes colonBehind run)
    {inForm beyond : Prop} (hform : r = .exact ↔ inForm)
    (hbeyond : (r = .leftOver ∨ r = .overflow) ∨ r = .stray ∧ colonBehind ↔ beyond) :
    (run ≠ .error .overflow ∧ ((∃ iprange, run = .ok iprange) ↔ inForm)) ↔ ¬ beyond := by
  rw [← hform, ← hbeyond]
  cases r with
  | fails =>
    obtain rfl : run = .error .fail := h
    simp
  | exact =>
    obtain ⟨iprange, rfl⟩ := h
    simp
  | leftOver =>
    obtain ⟨iprange, rfl⟩ := h
    simp
  | overflow =>
    obtain rfl : run = .error .overflow := h
    simp
  | stray =>
    by_cases hcolon : colonBehind
    · obtain ⟨iprange, rfl⟩ := h.1 hcolon
      simp [hcolon]
    · obtain rfl : run = .error .fail := h.2 hcolon
      simp [hcolon]

lemma settled_of_fail {run : Run IpRange} (h : run = .error .fail) {inForm beyond : Prop} (hform : ¬ inForm) (hbeyond : ¬ beyond) :
    (run ≠ .error .overflow ∧ ((∃ iprange, run = .ok iprange) ↔ inForm)) ↔ ¬ beyond := by
  subst h
  simp [hform, hbeyond]

variable {text : List Char}

lemma v4_settled {stop body : List Char} (hstop : Behind stop) {bits : Option ℕ} (hbits : bits = none ∨ '-' ∉ body ++ stop)
    (hbody : body ≠ []) (hslash : '/' ∉ body) (iprange : IpRange) {run : Run IpRange} (hrun : run = do
      let (index, iprange) ← v4Loop bits stop.length groupsV4 (body ++ stop) (body ++ stop) iprange
      if index ≠ groupsV4 then .error .fail else masked bits iprange) :
    (run ≠ .error .overflow ∧ ((∃ r, run = .ok r) ↔ Form4 body)) ↔ ¬ LeftOver4 body := by
  have hptr : stop.length < (body ++ stop).length := by
    have := List.length_pos_of_ne_nil hbody
    rw [List.length_append]
    omega
  have hread : (v4Reading IsGroup4 groupsV4 (body.splitOn '.')).Describes False run := by
    rw [hrun]
    exact v4Loop_reads hstop le_rfl hbits hptr iprange
  apply hread.settled form4_iff
  rw [← leftOver4_iff hslash, or_iff_left v4Reading_inside.1, or_iff_left (fun h => h.2)]

lemma iprangev4Parse_iff (hdot : '.' ∈ text) (iprange : IpRange) :
    (iprangev4Parse iprange text ≠ .error .overflow ∧
      ((∃ r, iprangev4Parse iprange text = .ok r) ↔ Masked 30 Form4 (text.rdropWhile isWhitespaceCharacter))) ↔
    ¬ Masked 30 LeftOver4 (text.rdropWhile isWhitespaceCharacter) := by
  have hends : EndsAt 30 text (addressEnd 30 text) := addressEnd_cases (by decide) text
  unfold iprangev4Parse
  generalize addressEnd 30 text = ends at hends
  cases hends with
  | plain hsplit hslash hbehind =>
    rw [masked_plain_iff hslash, masked_plain_iff hslash]
    have hne : text.rdropWhile isWhitespaceCharacter ≠ [] := by
      intro hempty
      rw [hempty] at hsplit
      rw [hsplit] at hdot
      exact (hbehind '.' hdot).1 rfl
    apply v4_settled hbehind (.inl rfl) hne hslash
    rw [← hsplit]
    rfl
  | bad hsplit hslash hmask =>
    rw [hsplit]
    apply settled_of_fail rfl
    · rw [masked_slash_iff Form4.no_slash hslash]
      exact fun h => hmask h.2.2
    · rw [masked_slash_iff LeftOver4.no_slash hslash]
      exact fun h => hmask h.2.2
  | masked hsplit hslash hmask hwhole hbehind =>
    rename_i body mask stop bits
    rw [hsplit, masked_mask_iff Form4.no_slash hslash hmask, masked_mask_iff LeftOver4.no_slash hslash hmask]
    have hne : body ≠ [] := by
      rintro rfl
      rw [hwhole] at hdot
      exact (hbehind '.' hdot).1 rfl
    have hptr : ('/' :: stop).length < text.length := by
      have := List.length_pos_of_ne_nil hne
      rw [hwhole, List.length_append]
      omega
    by_cases hdash : '-' ∈ body
    · have hfail (range : IpRange) : v4Loop (some bits) ('/' :: stop).length groupsV4 text text range = .error .fail :=
        v4Loop_masked rfl (hwhole ▸ List.mem_append_left _ hdash) hptr range
      apply settled_of_fail
      · dsimp only [bind, Except.bind]
        rw [hfail]
      · exact fun h => h.2 hdash
      · exact fun h => h.2 hdash
    · have hplain : '-' ∉ body ++ '/' :: stop := by
        intro h
        rcases List.mem_append.1 h with h | h
        · exact hdash h
        · exact (hbehind '-' h).2.2 rfl
      rw [and_iff_left hdash, and_iff_left hdash]
      apply v4_settled hbehind (.inr hplain) hne hslash
      rw [← hwhole]
      rfl

variable {memory : List Char}

lemma v6_settled {stop body : List Char} (hstop : Behind stop) {bits : Option ℕ} (hbits : bits = none ∨ '-' ∉ body ++ stop)
    (hslash : '/' ∉ body) (hdot : '.' ∉ body) (iprange : IpRange) {run : Run IpRange} (hrun : run =
      v6Loop memory bits stop.length (groupsV6 + 2) ⟨0, none, body ++ stop, iprange⟩ (body ++ stop) >>= finish bits) :
    (run ≠ .error .overflow ∧ ((∃ r, run = .ok r) ↔ Form6 body)) ↔
      ¬ (LeftOver6 body ∨ Trailing6 body ∧ ColonBehind memory stop) := by
  have hread : (headReading IsGroup6 groupsV6 (body.splitOn ':')).Describes (ColonBehind memory stop) run := by
    rw [hrun]
    by_cases hempty : body = []
    · subst hempty
      have hreading : headReading IsGroup6 groupsV6 (([] : List Char).splitOn ':') = .fails :=
        if_neg fun h => isGroup_ne_nil h.1 rfl
      rw [hreading, v6Loop, if_neg fun h => lt_irrefl _ h.1]
      have hindex : (0 : ℕ) < groupsV6 := by decide
      exact finish_short bits (s := ⟨0, none, [] ++ stop, iprange⟩) hindex rfl
    · refine head_reads hstop (by omega) (Nat.zero_add _) rfl ?_ hbits
      have := List.length_pos_of_ne_nil hempty
      simp only [List.length_append]
      omega
  apply hread.settled form6_iff
  rw [leftOver6_iff hslash hdot, trailing6_iff]

lemma iprangev6Parse_iff (hdot : '.' ∉ text) (iprange : IpRange) :
    (iprangev6Parse memory iprange text ≠ .error .overflow ∧
      ((∃ r, iprangev6Parse memory iprange text = .ok r) ↔ Masked 128 Form6 (text.rdropWhile isWhitespaceCharacter))) ↔
    ¬ (Masked 128 LeftOver6 (text.rdropWhile isWhitespaceCharacter) ∨ Trailing6 (text.rdropWhile isWhitespaceCharacter) ∧
      text = text.rdropWhile isWhitespaceCharacter ∧ memory.head? = some ':') := by
  have hends : EndsAt 128 text (addressEnd 128 text) := addressEnd_cases (by decide) text
  have hformSlash := Form6.plain (show hexValue '/' = none from rfl) (by decide) (by decide)
  have hbeyondSlash (text : List Char) (h : LeftOver6 text) := (h.plain text).1
  have htrailingSlash := Trailing6.plain (show hexValue '/' = none from rfl) (by decide) (by decide)
  unfold iprangev6Parse
  generalize addressEnd 128 text = ends at hends
  cases hends with
  | plain hsplit hslash hbehind =>
    rename_i stop
    rw [masked_plain_iff hslash, masked_plain_iff hslash]
    have hend : text = text.rdropWhile isWhitespaceCharacter ↔ stop = [] := by
      constructor
      · intro h
        exact List.append_right_eq_self.1 (hsplit.symm.trans h)
      · rintro rfl
        rwa [List.append_nil] at hsplit
    have hplain : '.' ∉ text.rdropWhile isWhitespaceCharacter := fun h => hdot ((List.rdropWhile_prefix _ _).subset h)
    rw [hend]
    apply v6_settled hbehind (.inl rfl) hslash hplain
    rw [← hsplit]
    rfl
  | bad hsplit hslash hmask =>
    rw [hsplit]
    apply settled_of_fail rfl
    · rw [masked_slash_iff hformSlash hslash]
      exact fun h => hmask h.2.2
    · rw [masked_slash_iff hbeyondSlash hslash]
      rintro (h | ⟨h, -⟩)
      · exact hmask h.2.2
      · exact htrailingSlash _ h (by simp)
  | masked hsplit hslash hmask hwhole hbehind =>
    rename_i body mask stop bits
    have hnoTrailing : ¬ Trailing6 (body ++ '/' :: mask) := fun h => htrailingSlash _ h (by simp)
    rw [hsplit, masked_mask_iff hformSlash hslash hmask, masked_mask_iff hbeyondSlash hslash hmask,
      or_iff_left (fun h => hnoTrailing h.1)]
    by_cases hdash : '-' ∈ body
    · have hfail (range : IpRange) : v6Loop memory (some bits) ('/' :: stop).length (groupsV6 + 2) ⟨0, none, text, range⟩ text =
          .error .fail := by
        rw [hwhole]
        apply v6Loop_masked hbehind rfl hdash (show 0 + 1 < groupsV6 by decide) rfl
        have := List.length_pos_of_mem hdash
        simp only [List.length_append]
        omega
      apply settled_of_fail
      · dsimp only [bind, Except.bind]
        rw [hfail]
      · exact fun h => h.2 hdash
      · exact fun h => h.2 hdash
    · have hplain : '-' ∉ body ++ '/' :: stop := by
        intro h
        rcases List.mem_append.1 h with h | h
        · exact hdash h
        · exact (hbehind '-' h).2.2 rfl
      have hno : '.' ∉ body := fun h => hdot (hwhole ▸ List.mem_append_left _ h)
      have hnoColon : ¬ (Trailing6 body ∧ ColonBehind memory ('/' :: stop)) := fun h => absurd h.2.1 (List.cons_ne_nil _ _)
      rw [and_iff_left hdash, and_iff_left hdash, ← or_iff_left (a := LeftOver6 body) hnoColon]
      apply v6_settled hbehind (.inr hplain) hslash hno
      rw [← hwhole]
      rfl

lemma strchr_isSome_iff {c : Char} : (strchr text c).isSome = true ↔ c ∈ text := by
  constructor
  · intro h
    by_contra hno
    rw [strchr_none hno] at h
    cases h
  · intro h
    obtain ⟨before, rest, rfl, hbefore⟩ := List.eq_append_cons_of_mem h
    rw [strchr_append_cons hbefore]
    rfl

lemma masked_no_dot {maxBits : ℕ} {form : List Char → Prop} (hform : ∀ text, form text → '.' ∉ text)
    (h : Masked maxBits form text) : '.' ∉ text := by
  rcases h with hwhole | ⟨body, mask, bits, rfl, hbody, -, hmask, -⟩
  · exact hform _ hwhole
  · have hnumeral : '.' ∉ mask := hmask.plain rfl
    simp [hform body hbody, hnumeral]

lemma masked_dot {maxBits : ℕ} {form : List Char → Prop} (hform : ∀ text, form text → '.' ∈ text)
    (h : Masked maxBits form text) : '.' ∈ text := by
  rcases h with hwhole | ⟨body, mask, bits, rfl, hbody, -⟩
  · exact hform _ hwhole
  · exact List.mem_append_left _ (hform body hbody)

theorem iprange_grammar_iff (memory : List Char) (iprange : IpRange) (address : List Char) :
    (iprangeParse memory iprange address ≠ .error .overflow ∧
      ((∃ r, iprangeParse memory iprange address = .ok r) ↔ IsIpRange address)) ↔ ¬ LeftOver memory address := by
  have hdotIff : (strchr (address.dropWhile isWhitespaceCharacter) '.').isSome = true ↔ '.' ∈ trimmed address := by
    have hwhite : '.' ∉ (address.dropWhile isWhitespaceCharacter).rtakeWhile isWhitespaceCharacter :=
      fun h => by cases List.mem_rtakeWhile_imp h
    have hsplit : address.dropWhile isWhitespaceCharacter =
        trimmed address ++ (address.dropWhile isWhitespaceCharacter).rtakeWhile isWhitespaceCharacter :=
      (List.rdropWhile_append_rtakeWhile).symm
    rw [strchr_isSome_iff, hsplit, List.mem_append, or_iff_left hwhite]
  rw [iprangeParse]
  split_ifs with h
  · have hdot := hdotIff.1 h
    have hno : ¬ Masked 128 Form6 (trimmed address) := fun hform =>
      masked_no_dot (Form6.plain rfl (by decide) (by decide)) hform hdot
    have hnoBeyond : ¬ Masked 128 LeftOver6 (trimmed address) := fun hform =>
      masked_no_dot (fun text h => (h.plain text).2) hform hdot
    have hnoTrailing : ¬ Trailing6 (trimmed address) := fun hform => hform.plain rfl (by decide) (by decide) _ hdot
    rw [IsIpRange, or_iff_left hno, LeftOver, or_iff_left (not_or.2 ⟨hnoBeyond, fun h => hnoTrailing h.1⟩)]
    exact iprangev4Parse_iff (strchr_isSome_iff.1 h) iprange
  · have hdot : '.' ∉ trimmed address := fun hmem => h (hdotIff.2 hmem)
    have hno : ¬ Masked 30 Form4 (trimmed address) := fun hform => hdot (masked_dot (fun _ => Form4.dot) hform)
    have hnoBeyond : ¬ Masked 30 LeftOver4 (trimmed address) := fun hform => hdot (masked_dot (fun _ => LeftOver4.dot) hform)
    rw [IsIpRange, or_iff_right hno, LeftOver, or_iff_right hnoBeyond]
    exact iprangev6Parse_iff (fun hmem => h (strchr_isSome_iff.2 hmem)) iprange

end

section

def noRange : IpRange := ⟨fun _ => ⟨0, 0⟩, .v4, false⟩

lemma digit_group {c : Char} (digit : ∃ digit < 10, hexValue c = some digit) : IsGroup4 [c] := by
  obtain ⟨digit, hlt, hc⟩ := digit
  refine .inl ⟨digit, ⟨by simp, ?_, by simp [hc]⟩, by omega⟩
  intro d hd
  rw [List.mem_singleton.1 hd]
  exact ⟨digit, hlt, hc⟩

theorem group_too_many : iprangeParse [] noRange "1:2:3:4:5:6:7:8::".toList = .error .overflow ∧
    (∃ r, iprangeParse [] noRange "1.2.3.4.5".toList = .ok r) ∧ ¬ IsIpRange "1.2.3.4.5".toList := by
  have haccepted : ∃ r, iprangev4Parse noRange "1.2.3.4.5".toList = .ok r := ⟨_, rfl⟩
  refine ⟨by decide, haccepted, ?_⟩
  have hgroups : ∀ group ∈ ["1".toList, "2".toList, "3".toList, "4".toList], IsGroup4 group := by
    simp only [List.mem_cons, List.not_mem_nil, or_false, forall_eq_or_imp, forall_eq]
    exact ⟨digit_group (by decide), digit_group (by decide), digit_group (by decide), digit_group (by decide)⟩
  have hfifth : '/' ∉ "5".toList := by decide
  have hbeyond : LeftOver4 "1.2.3.4.5".toList := .whole rfl hgroups hfifth
  have hdot : '.' ∈ "1.2.3.4.5".toList := by decide
  have hsettled := iprangev4Parse_iff hdot noRange
  rintro (hform | hform)
  · refine hsettled.1 ⟨?_, iff_of_true haccepted hform⟩ (.inl hbeyond)
    obtain ⟨r, hr⟩ := haccepted
    rw [hr]
    simp
  · exact masked_no_dot (Form6.plain rfl (by decide) (by decide)) hform (by decide)

end

end Glaber.Ip
