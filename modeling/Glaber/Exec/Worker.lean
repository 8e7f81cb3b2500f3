import Glaber.Json.Text

/-! Arguments of external workers (`worker.c`), escaped and read back as a field of the line. -/

namespace Glaber.Exec

open Json

section

def workerEscapeChar (c : Char) : List Char :=
  match c with
  | '"' => ['\\', c]
  | '\n' => ['\\', 'n']
  | c => [c]

def workerEscapeString (inString : List Char) : List Char := inString.flatMap workerEscapeChar

def bareQuote : List Char → Bool
  | [] => false
  | [c] => c = '"'
  | c :: d :: text => if c = '\\' then bareQuote text else c = '"' || bareQuote (d :: text)

def ReadBack (s : List Char) : Prop :=
  (∀ rest size, s.length < size → copyString ('"' :: (workerEscapeString s ++ '"' :: rest)) size = some (s, rest)) ∧
    bareQuote (workerEscapeString s) = false ∧ '\n' ∉ workerEscapeString s

end

section

lemma workerEscapeString_quote (s : List Char) : workerEscapeString ('"' :: s) = '\\' :: '"' :: workerEscapeString s := rfl

lemma workerEscapeString_line (s : List Char) : workerEscapeString ('\n' :: s) = '\\' :: 'n' :: workerEscapeString s := rfl

lemma workerEscapeString_plain {c : Char} (hquote : c ≠ '"') (hline : c ≠ '\n') (s : List Char) :
    workerEscapeString (c :: s) = c :: workerEscapeString s := by
  have hc : workerEscapeChar c = [c] := by
    unfold workerEscapeChar
    split
    · contradiction
    · contradiction
    · rfl
  rw [workerEscapeString, List.flatMap_cons, hc]
  rfl

lemma line_not_mem (s : List Char) : '\n' ∉ workerEscapeString s := by
  induction s with
  | nil => simp [workerEscapeString]
  | cons c s ih =>
    by_cases hquote : c = '"'
    · subst hquote
      simpa [workerEscapeString_quote] using ih
    · by_cases hline : c = '\n'
      · subst hline
        simpa [workerEscapeString_line] using ih
      · rw [workerEscapeString_plain hquote hline]
        simp only [List.mem_cons, not_or]
        exact ⟨Ne.symm hline, ih⟩

lemma bareQuote_escaped (d : Char) (text : List Char) : bareQuote ('\\' :: d :: text) = bareQuote text := by
  rw [bareQuote, if_pos rfl]

lemma bareQuote_plain {c : Char} (hquote : c ≠ '"') (hback : c ≠ '\\') (text : List Char) :
    bareQuote (c :: text) = bareQuote text := by
  cases text with
  | nil => simp [bareQuote, hquote]
  | cons d text => simp [bareQuote, hback, hquote]

lemma bareQuote_workerEscapeString {s : List Char} (h : '\\' ∉ s) : bareQuote (workerEscapeString s) = false := by
  induction s with
  | nil => rfl
  | cons c s ih =>
    have htail := ih fun hs => h (List.mem_cons_of_mem c hs)
    by_cases hquote : c = '"'
    · rw [hquote, workerEscapeString_quote, bareQuote_escaped]
      exact htail
    · by_cases hline : c = '\n'
      · rw [hline, workerEscapeString_line, bareQuote_escaped]
        exact htail
      · rw [workerEscapeString_plain hquote hline, bareQuote_plain hquote fun hc => h (hc ▸ List.mem_cons_self)]
        exact htail

lemma copyLoop_letter {size fuel : ℕ} {out p : List Char} {x c : Char} (hdecode : decodeCharacter (x :: p) = some ([c], p))
    (hroom : out.length + 1 < size) :
    copyLoop size (fuel + 1) out ('\\' :: x :: p) = copyLoop size fuel (out ++ [c]) p := by
  have hfit : ¬ size ≤ out.length + 1 := by omega
  have hfull : ¬ (out ++ [c]).length = size := by simp; omega
  simp only [copyLoop, hdecode, Option.bind_eq_bind, Option.bind_some, List.length_singleton, if_neg hfit, if_neg hfull]

lemma copyLoop_workerEscapeString (fuel : ℕ) {size : ℕ} (out : List Char) {s : List Char} (rest : List Char) (h : '\\' ∉ s)
    (hsize : out.length + s.length < size) :
    copyLoop size (fuel + s.length) out (workerEscapeString s ++ rest) = copyLoop size fuel (out ++ s) rest := by
  induction s generalizing out with
  | nil => simp [workerEscapeString]
  | cons c s ih =>
    simp only [List.length_cons] at hsize
    have htail := ih (out ++ [c]) (fun hs => h (List.mem_cons_of_mem c hs)) (by simp; omega)
    have hout : out ++ [c] ++ s = out ++ c :: s := by simp
    rw [hout] at htail
    rw [List.length_cons, ← Nat.add_assoc, ← htail]
    by_cases hquote : c = '"'
    · rw [hquote, workerEscapeString_quote]
      exact copyLoop_letter rfl (by omega)
    · by_cases hline : c = '\n'
      · rw [hline, workerEscapeString_line]
        exact copyLoop_letter rfl (by omega)
      · have hfull : ¬ (out ++ [c]).length = size := by simp; omega
        rw [workerEscapeString_plain hquote hline, List.cons_append,
          copyLoop_plain hquote fun hc => h (hc ▸ List.mem_cons_self), if_neg hfull]

end

section

lemma copyLoop_back {size fuel : ℕ} {out p : List Char} {r : List Char × List Char}
    (h : copyLoop size (fuel + 1) out ('\\' :: p) = some r) :
    ∃ bytes q, decodeCharacter p = some (bytes, q) ∧ copyLoop size fuel (out ++ bytes) q = some r := by
  rw [copyLoop, Option.bind_eq_bind, Option.bind_eq_some_iff] at h
  obtain ⟨⟨bytes, q⟩, hdecode, h⟩ := h
  dsimp only at h
  split_ifs at h
  exact ⟨bytes, q, hdecode, h⟩

lemma copyLoop_char {size fuel : ℕ} {out p : List Char} {c : Char} {r : List Char × List Char} (hquote : c ≠ '"')
    (hback : c ≠ '\\') (h : copyLoop size (fuel + 1) out (c :: p) = some r) :
    copyLoop size fuel (out ++ [c]) p = some r := by
  rw [copyLoop_plain hquote hback] at h
  split_ifs at h
  exact h

lemma copyLoop_nil (size fuel : ℕ) (out : List Char) : copyLoop size fuel out [] = none := by
  cases fuel <;> rfl

lemma copyLoop_quote {size fuel : ℕ} {out p : List Char} {r : List Char × List Char}
    (h : copyLoop size fuel out ('"' :: p) = some r) : r = (out, p) := by
  cases fuel with
  | zero => exact absurd h (by simp [copyLoop])
  | succ fuel => exact (Option.some.inj h).symm

lemma copyLoop_prefix {size fuel : ℕ} {out p : List Char} {r : List Char × List Char}
    (h : copyLoop size fuel out p = some r) : out <+: r.1 := by
  induction fuel generalizing out p with
  | zero => exact absurd h (by simp [copyLoop])
  | succ fuel ih =>
    cases p with
    | nil => exact absurd h (by simp [copyLoop])
    | cons c p =>
      by_cases hback : c = '\\'
      · subst hback
        obtain ⟨bytes, q, -, h⟩ := copyLoop_back h
        exact (List.prefix_append out bytes).trans (ih h)
      · by_cases hquote : c = '"'
        · subst hquote
          rw [copyLoop_quote h]
        · exact (List.prefix_append out [c]).trans (ih (copyLoop_char hquote hback h))

lemma head_of_escaped {s p : List Char} {a : Char} (h : workerEscapeString s ++ ['"'] = a :: p) (hback : a ≠ '\\')
    (hquote : a ≠ '"') : ∃ t, s = a :: t ∧ p = workerEscapeString t ++ ['"'] := by
  cases s with
  | nil =>
    simp only [workerEscapeString, List.flatMap_nil, List.nil_append, List.cons.injEq] at h
    exact absurd h.1.symm hquote
  | cons c s =>
    by_cases hc : c = '"'
    · rw [hc, workerEscapeString_quote] at h
      exact absurd (List.cons.inj h).1.symm hback
    · by_cases hline : c = '\n'
      · rw [hline, workerEscapeString_line] at h
        exact absurd (List.cons.inj h).1.symm hback
      · rw [workerEscapeString_plain hc hline] at h
        obtain ⟨rfl, rfl⟩ := List.cons.inj h
        exact ⟨s, rfl, rfl⟩

lemma readHex_escaped {s p : List Char} {n : ℕ} (h : readHex (workerEscapeString s ++ ['"']) = some (n, p)) :
    ∃ digits t, s = digits ++ t ∧ digits.length = 4 ∧ p = workerEscapeString t ++ ['"'] := by
  have hplain : ∀ x, isXdigit x = true → x ≠ '\\' ∧ x ≠ '"' := by
    rintro x hx
    constructor <;> rintro rfl <;> exact absurd hx (by decide)
  generalize htext : workerEscapeString s ++ ['"'] = text at h
  unfold readHex at h
  split at h
  · rename_i a b c d q
    split_ifs at h with hdigits
    simp only [Bool.and_eq_true] at hdigits
    obtain ⟨⟨⟨ha, hb⟩, hc⟩, hd⟩ := hdigits
    obtain ⟨s₁, rfl, h₁⟩ := head_of_escaped htext (hplain a ha).1 (hplain a ha).2
    obtain ⟨s₂, rfl, h₂⟩ := head_of_escaped h₁.symm (hplain b hb).1 (hplain b hb).2
    obtain ⟨s₃, rfl, h₃⟩ := head_of_escaped h₂.symm (hplain c hc).1 (hplain c hc).2
    obtain ⟨s₄, rfl, h₄⟩ := head_of_escaped h₃.symm (hplain d hd).1 (hplain d hd).2
    simp only [Option.some.injEq, Prod.mk.injEq] at h
    exact ⟨[a, b, c, d], s₄, rfl, rfl, h.2 ▸ h₄⟩
  · exact absurd h (by simp)

lemma back_of_escaped {s p : List Char} (h : workerEscapeString s ++ ['"'] = '\\' :: 'u' :: p) :
    ∃ t, s = '\\' :: 'u' :: t ∧ p = workerEscapeString t ++ ['"'] := by
  cases s with
  | nil => simp [workerEscapeString] at h
  | cons c s =>
    by_cases hquote : c = '"'
    · rw [hquote, workerEscapeString_quote] at h
      simp at h
    · by_cases hline : c = '\n'
      · rw [hline, workerEscapeString_line] at h
        simp at h
      · rw [workerEscapeString_plain hquote hline, List.cons_append] at h
        obtain ⟨rfl, htail⟩ := List.cons.inj h
        obtain ⟨t, rfl, rfl⟩ := head_of_escaped htail (by decide) (by decide)
        exact ⟨t, rfl, rfl⟩

lemma decodeUnit_escaped {s bytes p : List Char} {num : ℕ}
    (h : decodeUnit num (workerEscapeString s ++ ['"']) = some (bytes, p)) :
    ∃ taken t, s = taken ++ t ∧ bytes.length ≤ taken.length + 3 ∧ p = workerEscapeString t ++ ['"'] := by
  unfold decodeUnit at h
  split_ifs at h
  · simp only [Option.some.injEq, Prod.mk.injEq] at h
    exact ⟨[], s, rfl, by simp [← h.1], h.2.symm⟩
  · simp only [Option.some.injEq, Prod.mk.injEq] at h
    exact ⟨[], s, rfl, by simp [← h.1], h.2.symm⟩
  · simp only [Option.some.injEq, Prod.mk.injEq] at h
    exact ⟨[], s, rfl, by simp [← h.1], h.2.symm⟩
  · split at h
    · rename_i q htext
      obtain ⟨t, rfl, rfl⟩ := back_of_escaped htext
      rw [Option.bind_eq_bind, Option.bind_eq_some_iff] at h
      obtain ⟨⟨low, q⟩, hhex, h⟩ := h
      obtain ⟨digits, t, rfl, hdigits, rfl⟩ := readHex_escaped hhex
      dsimp only at h
      split_ifs at h
      simp only [Option.pure_def, Option.some.injEq, Prod.mk.injEq] at h
      exact ⟨'\\' :: 'u' :: digits, t, rfl, by simp [← h.1], h.2.symm⟩
    · exact absurd h (by simp)

lemma decode_escaped {s bytes p : List Char} (h : decodeCharacter (workerEscapeString s ++ ['"']) = some (bytes, p)) :
    p = [] ∨ (∃ t, s = '"' :: t ∧ bytes = ['\\'] ∧ p = '"' :: (workerEscapeString t ++ ['"'])) ∨
      (∃ t, s = '\n' :: t ∧ bytes = ['\\'] ∧ p = 'n' :: (workerEscapeString t ++ ['"'])) ∨
      ∃ taken t, s = taken ++ t ∧ bytes.length ≤ taken.length ∧ p = workerEscapeString t ++ ['"'] := by
  cases s with
  | nil =>
    simp only [workerEscapeString, List.flatMap_nil, List.nil_append, decodeCharacter, Option.some.injEq,
      Prod.mk.injEq] at h
    exact .inl h.2.symm
  | cons c s =>
    by_cases hquote : c = '"'
    · rw [hquote, workerEscapeString_quote] at h
      simp only [List.cons_append, decodeCharacter, Option.some.injEq, Prod.mk.injEq] at h
      exact .inr (.inl ⟨s, hquote ▸ rfl, h.1.symm, h.2.symm⟩)
    · by_cases hline : c = '\n'
      · rw [hline, workerEscapeString_line] at h
        simp only [List.cons_append, decodeCharacter, Option.some.injEq, Prod.mk.injEq] at h
        exact .inr (.inr (.inl ⟨s, hline ▸ rfl, h.1.symm, h.2.symm⟩))
      · rw [workerEscapeString_plain hquote hline, List.cons_append] at h
        refine .inr (.inr (.inr ?_))
        by_cases hu : c = 'u'
        · subst hu
          rw [decodeCharacter, Option.bind_eq_bind, Option.bind_eq_some_iff] at h
          obtain ⟨⟨num, q⟩, hhex, h⟩ := h
          obtain ⟨digits, t, rfl, hdigits, rfl⟩ := readHex_escaped hhex
          obtain ⟨taken, t, rfl, hbytes, rfl⟩ := decodeUnit_escaped h
          exact ⟨'u' :: (digits ++ taken), t, by simp, by simp; omega, rfl⟩
        · have hone : bytes.length = 1 ∧ p = workerEscapeString s ++ ['"'] := by
            unfold decodeCharacter at h
            split at h
            all_goals simp_all
            all_goals simp [← h.1]
          exact ⟨[c], s, rfl, by simp [hone.1], hone.2⟩

lemma copyLoop_length_le {size fuel : ℕ} {out s : List Char} {r : List Char × List Char}
    (h : copyLoop size fuel out (workerEscapeString s ++ ['"']) = some r) : r.1.length ≤ out.length + s.length := by
  induction fuel using Nat.strong_induction_on generalizing out s with
  | _ fuel ih =>
    cases fuel with
    | zero => exact absurd h (by simp [copyLoop])
    | succ fuel =>
      cases s with
      | nil =>
        rw [copyLoop_quote h]
        simp
      | cons c s =>
        by_cases hback : c = '\\'
        · subst hback
          rw [workerEscapeString_plain (by decide) (by decide), List.cons_append] at h
          obtain ⟨bytes, q, hdecode, h⟩ := copyLoop_back h
          obtain rfl | ⟨t, rfl, rfl, rfl⟩ | ⟨t, rfl, rfl, rfl⟩ | ⟨taken, t, rfl, hbytes, rfl⟩ := decode_escaped hdecode
          · exact absurd h (by simp [copyLoop_nil])
          · rw [copyLoop_quote h]
            simp
          · cases fuel with
            | zero => exact absurd h (by simp [copyLoop])
            | succ fuel =>
              have hle := ih fuel (by omega) (copyLoop_char (by decide) (by decide) h)
              simp only [List.length_append, List.length_cons, List.length_nil] at hle ⊢
              omega
          · have hle := ih fuel (by omega) h
            simp only [List.length_append, List.length_cons] at hle ⊢
            omega
        · have hone : copyLoop size fuel (out ++ [c]) (workerEscapeString s ++ ['"']) = some r := by
            by_cases hquote : c = '"'
            · rw [hquote, workerEscapeString_quote] at h
              obtain ⟨bytes, q, hdecode, h⟩ := copyLoop_back h
              obtain ⟨rfl, rfl⟩ : bytes = ['"'] ∧ q = workerEscapeString s ++ ['"'] := by
                simpa [decodeCharacter, eq_comm] using hdecode
              exact hquote ▸ h
            · by_cases hline : c = '\n'
              · rw [hline, workerEscapeString_line] at h
                obtain ⟨bytes, q, hdecode, h⟩ := copyLoop_back h
                obtain ⟨rfl, rfl⟩ : bytes = ['\n'] ∧ q = workerEscapeString s ++ ['"'] := by
                  simpa [decodeCharacter, eq_comm] using hdecode
                exact hline ▸ h
              · rw [workerEscapeString_plain hquote hline, List.cons_append] at h
                exact copyLoop_char hquote hback h
          have hle := ih fuel (by omega) hone
          simp only [List.length_append, List.length_cons, List.length_nil] at hle ⊢
          omega

lemma copyLoop_backslash_ne {size fuel : ℕ} {out s : List Char}
    (h : copyLoop size fuel out (workerEscapeString ('\\' :: s) ++ ['"']) = some (out ++ '\\' :: s, [])) : False := by
  cases fuel with
  | zero => exact absurd h (by simp [copyLoop])
  | succ fuel =>
    rw [workerEscapeString_plain (by decide) (by decide), List.cons_append] at h
    obtain ⟨bytes, q, hdecode, h⟩ := copyLoop_back h
    obtain rfl | ⟨t, rfl, rfl, rfl⟩ | ⟨t, rfl, rfl, rfl⟩ | ⟨taken, t, rfl, hbytes, rfl⟩ := decode_escaped hdecode
    · exact absurd h (by simp [copyLoop_nil])
    · have hread := copyLoop_quote h
      simp at hread
    · cases fuel with
      | zero => exact absurd h (by simp [copyLoop])
      | succ fuel =>
        have hprefix := copyLoop_prefix (copyLoop_char (by decide) (by decide) h)
        simp at hprefix
    · have hle := copyLoop_length_le h
      simp only [List.length_append, List.length_cons] at hle
      omega

end

lemma workerEscapeString_append (s t : List Char) :
    workerEscapeString (s ++ t) = workerEscapeString s ++ workerEscapeString t := List.flatMap_append

lemma length_le_workerEscapeString (s : List Char) : s.length ≤ (workerEscapeString s).length := by
  induction s with
  | nil => exact Nat.le_refl 0
  | cons c s ih =>
    have hone : 1 ≤ (workerEscapeChar c).length := by
      unfold workerEscapeChar
      split <;> simp
    simp only [workerEscapeString, List.flatMap_cons, List.length_append, List.length_cons] at ih ⊢
    omega

lemma copyString_workerEscapeString {s : List Char} (h : '\\' ∉ s) (tail rest : List Char) {size : ℕ}
    (hsize : s.length < size) :
    ∃ fuel, copyString ('"' :: (workerEscapeString (s ++ tail) ++ '"' :: rest)) size =
      copyLoop size (fuel + 1) s (workerEscapeString tail ++ '"' :: rest) := by
  have hlen := length_le_workerEscapeString s
  refine ⟨1 + (workerEscapeString s).length - s.length + (workerEscapeString tail ++ rest).length, ?_⟩
  have hloop := copyLoop_workerEscapeString
    (1 + (workerEscapeString s).length - s.length + (workerEscapeString tail ++ rest).length + 1) []
    (workerEscapeString tail ++ '"' :: rest) h (by simpa using hsize)
  rw [List.nil_append] at hloop
  rw [copyString, if_neg (by omega), List.tail_cons, ← hloop, workerEscapeString_append, List.append_assoc]
  congr 1
  simp only [List.length_cons, List.length_append]
  omega

theorem escaped_string_read_back_iff (s : List Char) : ReadBack s ↔ '\\' ∉ s := by
  constructor
  · rintro ⟨hread, -, -⟩ hback
    obtain ⟨front, tail, rfl, hfront⟩ := List.eq_append_cons_of_mem hback
    have hall := hread [] ((front ++ '\\' :: tail).length + 1) (by omega)
    obtain ⟨fuel, hcopy⟩ := copyString_workerEscapeString hfront ('\\' :: tail) []
      (show front.length < (front ++ '\\' :: tail).length + 1 by simp)
    rw [hcopy] at hall
    exact copyLoop_backslash_ne hall
  · intro h
    refine ⟨fun rest size hsize => ?_, bareQuote_workerEscapeString h, line_not_mem s⟩
    obtain ⟨fuel, hcopy⟩ := copyString_workerEscapeString h [] rest hsize
    rw [List.append_nil] at hcopy
    rw [hcopy]
    rfl

theorem backslash_not_read_back : ¬ ReadBack ['\\'] := by
  rintro ⟨hread, -⟩
  have hcopy := hread [] 2 (by decide)
  exact absurd hcopy (by decide)

end Glaber.Exec
