import Glaber.Expr.PeriodGrammar
import Glaber.Ip.Range

namespace Glaber.Ip

open Lib.Parts

section

structure Numeral (base : ℕ) (text : List Char) (value : ℕ) : Prop where
  nonempty : text ≠ []
  digits : ∀ c ∈ text, ∃ digit < base, hexValue c = some digit
  value_eq : value = text.foldl (fun value c => value * base + (hexValue c).getD 0) 0

def IsGroup (base max : ℕ) (text : List Char) : Prop :=
  (∃ value, Numeral base text value ∧ value ≤ max) ∨
    ∃ low high first last, Numeral base low first ∧ Numeral base high last ∧ first ≤ last ∧ last ≤ max ∧
      text = low ++ '-' :: high

lemma hexValue_decimal (c : Char) : (∃ digit < 10, hexValue c = some digit) ↔ c.isDigit = true := by
  have hle : ∀ a b : Char, a ≤ b ↔ a.toNat ≤ b.toNat := fun a b => UInt32.le_iff_toNat_le
  have h0 : '0'.toNat = 48 := rfl
  have h9 : '9'.toNat = 57 := rfl
  rw [Char.isDigit_iff_toNat, h0, h9]
  unfold hexValue
  simp only [hle, h0, h9]
  split_ifs with hdigit hlower hupper
  · refine iff_of_true ⟨_, ?_, rfl⟩ hdigit
    omega
  · refine iff_of_false ?_ hdigit
    rintro ⟨digit, hlt, hsome⟩
    have := Option.some.inj hsome
    omega
  · refine iff_of_false ?_ hdigit
    rintro ⟨digit, hlt, hsome⟩
    have := Option.some.inj hsome
    omega
  · exact iff_of_false (by simp) hdigit

lemma hexValue_digit {c : Char} (hc : c.isDigit = true) : (hexValue c).getD 0 = Expr.digit c := by
  have hle : ∀ a b : Char, a ≤ b ↔ a.toNat ≤ b.toNat := fun a b => UInt32.le_iff_toNat_le
  rw [hexValue, if_pos]
  · rfl
  · rw [hle, hle]
    exact Char.isDigit_iff_toNat.1 hc

lemma numeral_decimal_iff {text : List Char} {value : ℕ} :
    Numeral 10 text value ↔ text ≠ [] ∧ (∀ c ∈ text, c.isDigit) ∧ value = Expr.number text := by
  have hfold : (∀ c ∈ text, c.isDigit) →
      text.foldl (fun value c => value * 10 + (hexValue c).getD 0) 0 = Expr.number text := by
    intro hdigits
    rw [Expr.number]
    apply List.foldl_ext
    intro value c hc
    rw [hexValue_digit (hdigits c hc)]
  constructor
  · rintro ⟨hne, hdigits, hvalue⟩
    have hall : ∀ c ∈ text, c.isDigit := fun c hc => (hexValue_decimal c).1 (hdigits c hc)
    exact ⟨hne, hall, hvalue.trans (hfold hall)⟩
  · rintro ⟨hne, hdigits, hvalue⟩
    exact ⟨hne, fun c hc => (hexValue_decimal c).2 (hdigits c hc), hvalue.trans (hfold hdigits).symm⟩

lemma isUintNRange_numeral {text : List Char} {max value : ℕ} (hmax : max ≤ 18446744073709551615) :
    Expr.isUintNRange text 0 max = some value ↔ Numeral 10 text value ∧ value ≤ max := by
  rw [Expr.isUintNRange_iff hmax, numeral_decimal_iff]
  constructor
  · rintro ⟨hne, hdigits, -, hle, hvalue⟩
    exact ⟨⟨hne, hdigits, hvalue⟩, hvalue ▸ hle⟩
  · rintro ⟨⟨hne, hdigits, hvalue⟩, hle⟩
    exact ⟨hne, hdigits, Nat.zero_le _, hvalue ▸ hle, hvalue⟩

lemma hexValue_lt {c : Char} {digit : ℕ} (h : hexValue c = some digit) : digit < 16 := by
  have hle : ∀ a b : Char, a ≤ b ↔ a.toNat ≤ b.toNat := fun a b => UInt32.le_iff_toNat_le
  have hcodes : '0'.toNat = 48 ∧ '9'.toNat = 57 ∧ 'a'.toNat = 97 ∧ 'f'.toNat = 102 ∧ 'A'.toNat = 65 ∧ 'F'.toNat = 70 :=
    ⟨rfl, rfl, rfl, rfl, rfl, rfl⟩
  unfold hexValue at h
  simp only [hle] at h
  split_ifs at h
  · have := Option.some.inj h
    omega
  · have := Option.some.inj h
    omega
  · have := Option.some.inj h
    omega

lemma le_foldl_hex (value : ℕ) (text : List Char) :
    value ≤ text.foldl (fun value c => value * 16 + (hexValue c).getD 0) value := by
  induction text generalizing value with
  | nil => exact le_rfl
  | cons c text ih => exact (by omega : value ≤ value * 16 + (hexValue c).getD 0).trans (ih _)

lemma hexLoop_digits {text : List Char} {value len : ℕ} (hdigits : ∀ c ∈ text, ∃ digit < 16, hexValue c = some digit)
    (hlen : len ≤ 16 → value < 16 ^ len) (hvalue : value < 2 ^ 64) :
    hexLoop value len text = some (text.foldl (fun value c => value * 16 + (hexValue c).getD 0) value) ∨
      hexLoop value len text = none ∧ 65535 < text.foldl (fun value c => value * 16 + (hexValue c).getD 0) value := by
  induction text generalizing value len with
  | nil => exact .inl rfl
  | cons c text ih =>
    obtain ⟨digit, hlt, hc⟩ := hdigits c List.mem_cons_self
    have hbound := le_foldl_hex (value * 16 + digit) text
    rw [hexLoop, hc, List.foldl_cons, hc]
    simp only [Option.bind_eq_bind, Option.bind_some, Option.getD_some]
    split_ifs with hlarge
    · exact .inr ⟨rfl, by omega⟩
    · have hsmall : value < 2 ^ 60 := by
        by_cases hshort : len ≤ 15
        · exact (hlen (by omega)).trans_le (Nat.pow_le_pow_right (by decide) hshort)
        · omega
      rw [Nat.mod_eq_of_lt (by omega)]
      apply ih (fun d hd => hdigits d (List.mem_cons_of_mem c hd))
      · intro hnext
        have := hlen (by omega)
        rw [Nat.pow_succ]
        omega
      · omega

lemma digits_of_hexLoop {text : List Char} {value len result : ℕ} (h : hexLoop value len text = some result) :
    ∀ c ∈ text, ∃ digit < 16, hexValue c = some digit := by
  induction text generalizing value len with
  | nil => simp
  | cons c text ih =>
    rw [hexLoop] at h
    obtain ⟨digit, hc, hrest⟩ := Option.bind_eq_some_iff.1 h
    split_ifs at hrest
    exact List.forall_mem_cons.2 ⟨⟨digit, hexValue_lt hc, hc⟩, ih hrest⟩

lemma hex16_numeral {text : List Char} {value : ℕ} : hex16 text = some value ↔ Numeral 16 text value ∧ value ≤ 65535 := by
  rw [hex16, isHexNRange]
  split_ifs with hempty
  · exact iff_of_false (by simp) fun h => h.1.nonempty hempty
  · have hloop : (∀ c ∈ text, ∃ digit < 16, hexValue c = some digit) →
        hexLoop 0 0 text = some (text.foldl (fun value c => value * 16 + (hexValue c).getD 0) 0) ∨
          hexLoop 0 0 text = none ∧ 65535 < text.foldl (fun value c => value * 16 + (hexValue c).getD 0) 0 :=
      fun hdigits => hexLoop_digits hdigits (fun _ => by decide) (by decide)
    constructor
    · intro h
      obtain ⟨result, hresult, hrange⟩ := Option.bind_eq_some_iff.1 h
      split_ifs at hrange with hbad
      obtain rfl := Option.some.inj hrange
      have hdigits := digits_of_hexLoop hresult
      rcases hloop hdigits with hread | ⟨hnone, -⟩
      · rw [hread] at hresult
        exact ⟨⟨hempty, hdigits, (Option.some.inj hresult).symm⟩, by omega⟩
      · rw [hnone] at hresult
        cases hresult
    · rintro ⟨⟨-, hdigits, hvalue⟩, hle⟩
      rcases hloop hdigits with hread | ⟨-, hlarge⟩
      · rw [hread, ← hvalue]
        simp only [Option.bind_eq_bind, Option.bind_some]
        rw [if_neg (by omega)]
        rfl
      · omega

lemma Numeral.plain {base : ℕ} {text : List Char} {value : ℕ} (h : Numeral base text value) {c : Char}
    (hc : hexValue c = none) : c ∉ text := by
  intro hmem
  obtain ⟨digit, -, hdigit⟩ := h.digits c hmem
  rw [hc] at hdigit
  cases hdigit

end

section

structure ReadsNumber (base max : ℕ) (number : List Char → Option ℕ) : Prop where
  number_iff : ∀ text value, number text = some value ↔ Numeral base text value ∧ value ≤ max

lemma decimal255_reads : ReadsNumber 10 255 decimal255 := ⟨fun _ _ => isUintNRange_numeral (by decide)⟩

lemma hex16_reads : ReadsNumber 16 65535 hex16 := ⟨fun _ _ => hex16_numeral⟩

lemma dropWhile_append_cons {part rest : List Char} {c : Char} (h : c ∉ part) :
    (part ++ c :: rest).dropWhile (· ≠ c) = c :: rest := by
  have hall : ∀ d ∈ part, decide (d ≠ c) = true := by
    intro d hd
    simp only [ne_eq, decide_not, Bool.not_eq_true', decide_eq_false_iff_not]
    rintro rfl
    exact h hd
  rw [List.dropWhile_append_of_pos hall]
  simp

lemma strchr_append_cons {part rest : List Char} {c : Char} (h : c ∉ part) : strchr (part ++ c :: rest) c = some (c :: rest) := by
  rw [strchr, dropWhile_append_cons h]

lemma strchr_none {text : List Char} {c : Char} (h : c ∉ text) : strchr text c = none := by
  have hnil : text.dropWhile (· ≠ c) = [] := by
    rw [List.dropWhile_eq_nil_iff]
    intro d hd
    simp only [ne_eq, decide_not, Bool.not_eq_true', decide_eq_false_iff_not]
    rintro rfl
    exact h hd
  rw [strchr, hnil]

variable {base max : ℕ} {number : List Char → Option ℕ} (hnumber : ReadsNumber base max number)
include hnumber

lemma ReadsNumber.number_isSome_iff (text : List Char) : (number text).isSome ↔ ∃ value, Numeral base text value ∧ value ≤ max := by
  rw [Option.isSome_iff_exists]
  exact exists_congr (hnumber.number_iff text)

lemma parseGroup_isSome_iff {bits : Option ℕ} {part ptr : List Char} (hbits : bits = none ∨ '-' ∉ part ++ ptr)
    (hptr : ptr.head? ≠ some '-') :
    (parseGroup number bits (part ++ ptr) ptr).isSome ↔ IsGroup base max part := by
  have hpart : (part ++ ptr).take ((part ++ ptr).length - ptr.length) = part := by
    rw [List.length_append, Nat.add_sub_cancel, List.take_left]
  by_cases hdash : '-' ∈ part
  · obtain ⟨low, high, rfl, hlow⟩ := List.eq_append_cons_of_mem hdash
    obtain rfl : bits = none := hbits.resolve_right fun h => h (List.mem_append_left _ hdash)
    have hbehind : low ++ '-' :: high ++ ptr = low ++ '-' :: (high ++ ptr) := by simp
    have hfirst :
        (low ++ '-' :: (high ++ ptr)).take ((low ++ '-' :: (high ++ ptr)).length - ('-' :: (high ++ ptr)).length) = low := by
      rw [List.length_append, Nat.add_sub_cancel, List.take_left]
    have hlast : (high ++ ptr).take ((high ++ ptr).length - ptr.length) = high := by
      rw [List.length_append, Nat.add_sub_cancel, List.take_left]
    have hlater : ¬ ('-' :: (high ++ ptr)).length < ptr.length := by simp; omega
    rw [parseGroup, hbehind, strchr_append_cons hlow]
    simp only [Option.isSome_none, Bool.false_eq_true, if_false, if_neg hlater, hfirst, List.tail_cons, hlast]
    constructor
    · intro h
      obtain ⟨group, hgroup⟩ := Option.isSome_iff_exists.1 h
      obtain ⟨first, hfirst, hrest⟩ := Option.bind_eq_some_iff.1 hgroup
      obtain ⟨last, hlast, hrange⟩ := Option.bind_eq_some_iff.1 hrest
      split_ifs at hrange with hless
      obtain ⟨hfirstNumeral, -⟩ := (hnumber.number_iff low first).1 hfirst
      obtain ⟨hlastNumeral, hle⟩ := (hnumber.number_iff high last).1 hlast
      exact .inr ⟨low, high, first, last, hfirstNumeral, hlastNumeral, not_lt.1 hless, hle, rfl⟩
    · rintro (⟨value, hvalue, -⟩ | ⟨low', high', first, last, hfirst, hlast, hle, hmax, heq⟩)
      · exact absurd hdash (hvalue.plain rfl)
      · obtain ⟨rfl, rfl⟩ := append_cons_inj hlow (hfirst.plain rfl) heq
        have hnumberFirst : number low = some first := (hnumber.number_iff low first).2 ⟨hfirst, hle.trans hmax⟩
        have hnumberLast : number high = some last := (hnumber.number_iff high last).2 ⟨hlast, hmax⟩
        simp [hnumberFirst, hnumberLast, hle]
  · have hsingle : (parseGroup number bits (part ++ ptr) ptr).isSome ↔ (number part).isSome := by
      by_cases hlater : '-' ∈ ptr
      · obtain ⟨before, behind, rfl, hbefore⟩ := List.eq_append_cons_of_mem hlater
        obtain rfl : bits = none := hbits.resolve_right fun h => h (List.mem_append_right _ hlater)
        have hnone : '-' ∉ part ++ before := by simp [hdash, hbefore]
        have hsplit : part ++ (before ++ '-' :: behind) = part ++ before ++ '-' :: behind := (List.append_assoc _ _ _).symm
        have hbeyond : ('-' :: behind).length < (before ++ '-' :: behind).length := by
          have hne : before ≠ [] := fun hempty => hptr (by rw [hempty]; rfl)
          have hpos := List.length_pos_of_ne_nil hne
          rw [List.length_append]
          omega
        rw [parseGroup, hpart, hsplit, strchr_append_cons hnone]
        simp only [Option.isSome_none, Bool.false_eq_true, if_false, if_pos hbeyond, Option.isSome_map]
      · have hnone : '-' ∉ part ++ ptr := by simp [hdash, hlater]
        rw [parseGroup, hpart, strchr_none hnone, Option.isSome_map]
    rw [hsingle, hnumber.number_isSome_iff, IsGroup]
    refine (or_iff_left ?_).symm
    rintro ⟨low, high, first, last, -, -, -, -, rfl⟩
    exact hdash (List.mem_append_right _ List.mem_cons_self)

omit hnumber in
lemma parseGroup_masked {bits : Option ℕ} {address ptr : List Char} (hbits : bits.isSome = true) (hdash : '-' ∈ address) :
    parseGroup number bits address ptr = none := by
  obtain ⟨before, behind, rfl, hbefore⟩ := List.eq_append_cons_of_mem hdash
  rw [parseGroup, strchr_append_cons hbefore]
  simp only [hbits, if_true]

end

section

inductive Reading where
  | fails
  | exact
  | leftOver
  | overflow
  | stray
deriving DecidableEq

def Reading.Describes (colonBehind : Prop) : Reading → Run IpRange → Prop
  | .fails, run => run = .error .fail
  | .exact, run => ∃ iprange, run = .ok iprange
  | .leftOver, run => ∃ iprange, run = .ok iprange
  | .overflow, run => run = .error .overflow
  | .stray, run => (colonBehind → ∃ iprange, run = .ok iprange) ∧ (¬ colonBehind → run = .error .fail)

variable (ok : List Char → Prop)

open Classical in
noncomputable def v4Reading : ℕ → List (List Char) → Reading
  | 0, _ => .leftOver
  | _ + 1, [] => .fails
  | n + 1, [part] => if ok part ∧ n = 0 then .exact else .fails
  | n + 1, part :: next :: parts => if ok part then v4Reading n (next :: parts) else .fails

open Classical in
noncomputable def tailReading : ℕ → List (List Char) → Reading
  | 0, _ => .leftOver
  | _ + 1, [] => .fails
  | _ + 1, [part] => if part = [] then .stray else if ok part then .exact else .fails
  | n + 1, part :: next :: parts =>
    if ¬ ok part ∨ next = [] ∧ parts ≠ [] then .fails else tailReading n (next :: parts)

noncomputable def fillReading (n : ℕ) (parts : List (List Char)) : Reading :=
  if parts = [[]] then .exact else tailReading ok n parts

open Classical in
noncomputable def headReading : ℕ → List (List Char) → Reading
  | 0, _ => .leftOver
  | _ + 1, [] => .fails
  | n + 1, [part] => if ok part ∧ n = 0 then .exact else .fails
  | n + 1, part :: next :: parts =>
    if part = [] then if next = [] ∧ parts ≠ [] then fillReading ok n parts else .fails
    else if ¬ ok part then .fails
    else if next = [] ∧ parts ≠ [] then if n = 0 then .overflow else fillReading ok (n - 1) parts
    else headReading n (next :: parts)

end

section

variable {stop : List Char}

def Behind (stop : List Char) : Prop := ∀ c ∈ stop, c ≠ '.' ∧ c ≠ ':' ∧ c ≠ '-'

lemma groupEnd_last {separator : Char} {part : List Char} (hpart : separator ∉ part) (hstop : separator ∉ stop) :
    groupEnd separator stop.length (part ++ stop) = stop := by
  have hnone : separator ∉ part ++ stop := by simp [hpart, hstop]
  rw [groupEnd, strchr_none hnone, Option.getD_none, List.length_append, Nat.add_sub_cancel, List.drop_left]

lemma groupEnd_cons {separator : Char} {part rest : List Char} (hpart : separator ∉ part) (endLength : ℕ) :
    groupEnd separator endLength (part ++ separator :: rest) = separator :: rest := by
  rw [groupEnd, strchr_append_cons hpart, Option.getD_some]

lemma IpRange.set_ok (iprange : IpRange) {index : ℕ} (h : index < groupsV6) (group : Group) :
    ∃ iprange', iprange.set index group = .ok iprange' := ⟨_, dif_pos h⟩

lemma applyMaskLoop_ok {groupBits i bits : ℕ} (iprange : IpRange) (hi : i ≤ groupsV6) (hbits : bits ≤ i * groupBits) :
    ∃ iprange', applyMaskLoop groupBits i bits iprange = .ok iprange' := by
  induction i generalizing bits iprange with
  | zero =>
    obtain rfl : bits = 0 := by omega
    exact ⟨iprange, rfl⟩
  | succ i ih =>
    cases bits with
    | zero => exact ⟨iprange, rfl⟩
    | succ bits =>
      rw [applyMaskLoop, dif_pos (Nat.lt_of_succ_le hi)]
      apply ih
      · omega
      · rw [Nat.succ_mul] at hbits
        omega

lemma masked_ok (bits : Option ℕ) (iprange : IpRange) : ∃ iprange', masked bits iprange = .ok iprange' := by
  cases bits with
  | none => exact ⟨iprange, rfl⟩
  | some bits =>
    rw [masked, applyMask]
    split
    · exact applyMaskLoop_ok iprange (by decide) (by simp only [groupsV4]; omega)
    · exact applyMaskLoop_ok iprange le_rfl (by simp only [groupsV6]; omega)

lemma v4Loop_reads (hstop : Behind stop) {bits : Option ℕ} {n : ℕ} (hn : n ≤ groupsV4) {text ptr : List Char} {colonBehind : Prop}
    (hbits : bits = none ∨ '-' ∉ text ++ stop) (hptr : stop.length < ptr.length) (iprange : IpRange) :
    (v4Reading (IsGroup 10 255) n (text.splitOn '.')).Describes colonBehind (do
      let (index, iprange) ← v4Loop bits stop.length n ptr (text ++ stop) iprange
      if index ≠ groupsV4 then .error .fail else masked bits iprange) := by
  induction n generalizing text ptr iprange with
  | zero =>
    obtain ⟨iprange', hmasked⟩ := masked_ok bits iprange
    exact ⟨iprange', hmasked⟩
  | succ n ih =>
    have hgroups : groupsV4 ≤ groupsV6 := by decide
    have hdash : stop.head? ≠ some '-' := by
      intro h
      exact (hstop '-' (List.mem_of_mem_head? h)).2.2 rfl
    have hdot : '.' ∉ stop := fun h => (hstop '.' h).1 rfl
    rw [v4Loop, if_pos hptr]
    rcases splitOn_cases '.' text with ⟨hnone, hsplit⟩ | ⟨part, rest, rfl, hpart, hsplit⟩
    · have hgroup := parseGroup_isSome_iff decimal255_reads hbits hdash
      rw [hsplit, groupEnd_last hnone hdot, v4Reading]
      dsimp only
      cases hparse : parseGroup decimal255 bits (text ++ stop) stop with
      | none =>
        have hbad : ¬ IsGroup 10 255 text := by
          rw [← hgroup, hparse]
          simp
        rw [if_neg fun h => hbad h.1]
        rfl
      | some group =>
        have hok : IsGroup 10 255 text := by
          rw [← hgroup, hparse]
          rfl
        obtain ⟨first, hfirst⟩ := iprange.set_ok (show groupsV4 - (n + 1) < groupsV6 by omega) group
        dsimp only [bind, Except.bind]
        rw [hfirst]
        dsimp only
        cases n with
        | zero =>
          obtain ⟨iprange', hmasked⟩ := masked_ok bits first
          rw [if_pos ⟨hok, rfl⟩]
          exact ⟨iprange', hmasked⟩
        | succ n =>
          rw [if_neg (by simp), v4Loop, if_neg (lt_irrefl _)]
          dsimp only
          rw [if_pos (by simp only [groupsV4] at hn ⊢; omega)]
          rfl
    · have hbehind : part ++ '.' :: rest ++ stop = part ++ '.' :: (rest ++ stop) := by simp
      have hgroup : (parseGroup decimal255 bits (part ++ '.' :: (rest ++ stop)) ('.' :: (rest ++ stop))).isSome ↔
          IsGroup 10 255 part := parseGroup_isSome_iff decimal255_reads (hbehind ▸ hbits) (by simp)
      obtain ⟨next, parts, hparts⟩ := List.exists_cons_of_ne_nil (List.splitOn_ne_nil '.' rest)
      rw [hsplit, hbehind, groupEnd_cons hpart, hparts, v4Reading]
      dsimp only
      cases hparse : parseGroup decimal255 bits (part ++ '.' :: (rest ++ stop)) ('.' :: (rest ++ stop)) with
      | none =>
        have hbad : ¬ IsGroup 10 255 part := by
          rw [← hgroup, hparse]
          simp
        rw [if_neg hbad]
        rfl
      | some group =>
        have hok : IsGroup 10 255 part := by
          rw [← hgroup, hparse]
          rfl
        obtain ⟨first, hfirst⟩ := iprange.set_ok (show groupsV4 - (n + 1) < groupsV6 by omega) group
        have hlater : bits = none ∨ '-' ∉ rest ++ stop := by
          refine hbits.imp_right fun h hmem => h ?_
          rw [hbehind]
          exact List.mem_append_right _ (List.mem_cons_of_mem _ hmem)
        rw [if_pos hok, ← hparts]
        dsimp only [bind, Except.bind]
        rw [hfirst]
        exact ih (by omega) hlater (by simp) first

lemma v4Loop_masked {bits : Option ℕ} (hbits : bits.isSome = true) {endLength n : ℕ} {address ptr : List Char}
    (hdash : '-' ∈ address) (hptr : endLength < ptr.length) (iprange : IpRange) :
    v4Loop bits endLength (n + 1) ptr address iprange = .error .fail := by
  rw [v4Loop, if_pos hptr]
  simp only [parseGroup_masked hbits hdash]

end

section

lemma shiftLoop_ok {fill index target : ℕ} (iprange : IpRange) (hindex : index ≤ groupsV6) (htarget : target < groupsV6) :
    ∃ target' iprange', shiftLoop fill index target iprange = .ok (target', iprange') ∧ target' < groupsV6 := by
  induction index generalizing target iprange with
  | zero => exact ⟨target, iprange, rfl, htarget⟩
  | succ index ih =>
    rw [shiftLoop]
    split_ifs with hfill hin
    · obtain ⟨next, hnext⟩ := iprange.set_ok htarget (iprange.range ⟨index, hin⟩)
      rw [hnext]
      exact ih next (by omega) (by omega)
    · omega
    · exact ⟨target, iprange, rfl, htarget⟩

lemma zeroLoop_ok {fill target : ℕ} (iprange : IpRange) (htarget : target < groupsV6) :
    ∃ iprange', zeroLoop fill target iprange = .ok iprange' := by
  induction target generalizing iprange with
  | zero => exact ⟨iprange, rfl⟩
  | succ target ih =>
    rw [zeroLoop]
    split_ifs with hfill
    · obtain ⟨next, hnext⟩ := iprange.set_ok htarget ⟨0, 0⟩
      rw [hnext]
      exact ih next (by omega)
    · exact ⟨iprange, rfl⟩

def finish (bits : Option ℕ) (s : V6State) : Run IpRange := do
  let iprange ← expand s
  masked bits iprange

lemma finish_full (bits : Option ℕ) {s : V6State} (h : s.index = groupsV6) : ∃ iprange, finish bits s = .ok iprange := by
  have hexpand : expand s = .ok s.iprange := by rw [expand, if_neg (by omega), if_neg (by omega)]
  rw [finish, hexpand]
  exact masked_ok bits s.iprange

lemma finish_filled (bits : Option ℕ) {s : V6State} {fill : ℕ} (hindex : s.index ≤ groupsV6) (hfill : s.fill = some fill) :
    ∃ iprange, finish bits s = .ok iprange := by
  rcases Nat.lt_or_eq_of_le hindex with hless | hfull
  · obtain ⟨target, shifted, hshift, htarget⟩ := shiftLoop_ok s.iprange hindex (show 7 < groupsV6 by decide)
    obtain ⟨zeroed, hzero⟩ : ∃ zeroed, zeroLoop fill target shifted = .ok zeroed := zeroLoop_ok shifted htarget
    have hexpand : expand s = .ok zeroed := by
      rw [expand, if_neg (by omega), if_pos hless, hfill]
      dsimp only [bind, Except.bind]
      rw [hshift]
      exact hzero
    rw [finish, hexpand]
    exact masked_ok bits zeroed
  · exact finish_full bits hfull

lemma finish_short (bits : Option ℕ) {s : V6State} (hindex : s.index < groupsV6) (hfill : s.fill = none) :
    finish bits s = .error .fail := by
  have hexpand : expand s = .error .fail := by rw [expand, if_neg (by omega), if_pos hindex, hfill]
  rw [finish, hexpand]
  rfl

variable {memory stop : List Char}

def ColonBehind (memory stop : List Char) : Prop := stop = [] ∧ memory.head? = some ':'

lemma charBehind_stop (hstop : Behind stop) : charBehind memory stop = ':' ↔ ColonBehind memory stop := by
  match stop with
  | [] =>
    rw [charBehind, ColonBehind, and_iff_right rfl]
    cases memory with
    | nil => simp
    | cons c memory => simp
  | [c] => simp [charBehind, ColonBehind]
  | c :: d :: stop =>
    have hd := (hstop d (by simp)).2.1
    simp [charBehind, ColonBehind, hd]

lemma charBehind_colon (hstop : Behind stop) (rest : List Char) :
    charBehind memory (':' :: (rest ++ stop)) = ':' ↔ rest.head? = some ':' := by
  cases rest with
  | nil =>
    cases stop with
    | nil => simp [charBehind]
    | cons c stop =>
      have hc := (hstop c List.mem_cons_self).2.1
      simp [charBehind, hc]
  | cons c rest => simp [charBehind]

end

section

variable {memory stop : List Char} {bits : Option ℕ} {s : V6State}

lemma isGroup_ne_nil {base max : ℕ} {text : List Char} (h : IsGroup base max text) : text ≠ [] := by
  rcases h with ⟨value, hvalue, -⟩ | ⟨low, high, first, last, -, -, -, -, rfl⟩
  · exact hvalue.nonempty
  · simp

lemma readGroup_group {part ptr : List Char} (hend : groupEnd ':' stop.length (part ++ ptr) = ptr) (hpart : part ≠ [])
    (hbits : bits = none ∨ '-' ∉ part ++ ptr) (hdash : ptr.head? ≠ some '-') (hindex : s.index < groupsV6) :
    (IsGroup 16 65535 part → ∃ iprange,
      readGroup memory bits stop.length s (part ++ ptr) = .ok ⟨s.index + 1, s.fill, ptr, iprange⟩) ∧
    (¬ IsGroup 16 65535 part → readGroup memory bits stop.length s (part ++ ptr) = .error .fail) := by
  have hgroup := parseGroup_isSome_iff hex16_reads hbits hdash
  have hlength : ¬ ptr.length = (part ++ ptr).length := by
    have := List.length_pos_of_ne_nil hpart
    rw [List.length_append]
    omega
  rw [readGroup, hend]
  simp only [if_neg hlength]
  constructor
  · intro hok
    obtain ⟨group, hparse⟩ := Option.isSome_iff_exists.1 (hgroup.2 hok)
    obtain ⟨iprange, hset⟩ := s.iprange.set_ok hindex group
    rw [hparse]
    dsimp only [bind, Except.bind]
    rw [hset]
    exact ⟨iprange, rfl⟩
  · intro hbad
    rw [Option.not_isSome_iff_eq_none.1 fun h => hbad (hgroup.1 h)]

lemma readGroup_empty {address : List Char} (hend : groupEnd ':' stop.length address = address) :
    (charBehind memory address = ':' → readGroup memory bits stop.length s address = .ok { s with ptr := address }) ∧
    (charBehind memory address ≠ ':' → readGroup memory bits stop.length s address = .error .fail) := by
  rw [readGroup, hend]
  simp only [if_true]
  exact ⟨fun h => if_neg (not_not.2 h), fun h => if_pos h⟩

lemma checkFill_stop (hstop : Behind stop) (hptr : s.ptr = stop) (endLength : ℕ) :
    checkFill memory endLength s = .ok (s, false) := by
  rw [checkFill, if_neg]
  · rfl
  · rw [hptr, charBehind_stop hstop]
    exact fun h => h.1 h.2.1

lemma checkFill_single (hstop : Behind stop) {rest : List Char} (hptr : s.ptr = ':' :: (rest ++ stop))
    (hrest : rest.head? ≠ some ':') (endLength : ℕ) : checkFill memory endLength s = .ok (s, false) := by
  rw [checkFill, if_neg]
  · rfl
  · rw [hptr, charBehind_colon hstop]
    exact fun h => hrest h.2

lemma checkFill_double (hstop : Behind stop) {rest : List Char} (hptr : s.ptr = ':' :: (':' :: rest ++ stop)) :
    (s.fill.isSome = true → checkFill memory stop.length s = .error .fail) ∧
    (s.fill = none → s.index = groupsV6 → checkFill memory stop.length s = .error .overflow) ∧
    (s.fill = none → s.index < groupsV6 → ∃ iprange, checkFill memory stop.length s =
      .ok (⟨s.index + 1, some s.index, ':' :: (rest ++ stop), iprange⟩, decide (rest = []))) := by
  have hboth : s.ptr ≠ [] ∧ charBehind memory s.ptr = ':' := by
    rw [hptr, charBehind_colon hstop]
    exact ⟨by simp, rfl⟩
  rw [checkFill, if_pos hboth]
  refine ⟨fun hfill => if_pos hfill, fun hfill hfull => ?_, fun hfill hindex => ?_⟩
  · rw [if_neg (by simp [hfill]), IpRange.set, dif_neg (by omega)]
    rfl
  · obtain ⟨iprange, hset⟩ := s.iprange.set_ok hindex ⟨0, 0⟩
    refine ⟨iprange, ?_⟩
    rw [if_neg (by simp [hfill]), hset]
    have hlength : (':' :: (rest ++ stop)).length = stop.length + 1 ↔ rest = [] := by
      rw [List.length_cons, List.length_append, ← List.length_eq_zero_iff]
      omega
    have htail : s.ptr.tail = ':' :: (rest ++ stop) := by rw [hptr]; rfl
    dsimp only [bind, Except.bind, pure, Except.pure]
    rw [htail]
    simp only [hlength]

section

variable {address : List Char} {endLength : ℕ}

lemma v6Loop_step (hptr : endLength < s.ptr.length) (hindex : s.index < groupsV6) {s' s'' : V6State} {left : Bool}
    (hread : readGroup memory bits endLength s address = .ok s') (hcheck : checkFill memory endLength s' = .ok (s'', left))
    (fuel : ℕ) : v6Loop memory bits endLength (fuel + 1) s address =
      if left then .ok s'' else v6Loop memory bits endLength fuel s'' s''.ptr.tail := by
  rw [v6Loop, if_pos ⟨hptr, hindex⟩, hread]
  dsimp only [bind, Except.bind]
  rw [hcheck]
  rfl

lemma v6Loop_read_error (hptr : endLength < s.ptr.length) (hindex : s.index < groupsV6) {e : Stop}
    (hread : readGroup memory bits endLength s address = .error e) (fuel : ℕ) :
    v6Loop memory bits endLength (fuel + 1) s address = .error e := by
  rw [v6Loop, if_pos ⟨hptr, hindex⟩, hread]
  rfl

lemma v6Loop_check_error (hptr : endLength < s.ptr.length) (hindex : s.index < groupsV6) {s' : V6State} {e : Stop}
    (hread : readGroup memory bits endLength s address = .ok s') (hcheck : checkFill memory endLength s' = .error e)
    (fuel : ℕ) : v6Loop memory bits endLength (fuel + 1) s address = .error e := by
  rw [v6Loop, if_pos ⟨hptr, hindex⟩, hread]
  dsimp only [bind, Except.bind]
  rw [hcheck]

lemma v6Loop_last (hstop : Behind stop) (hptr : stop.length < s.ptr.length) (hindex : s.index < groupsV6) {s' : V6State}
    (hread : readGroup memory bits stop.length s address = .ok s') (hend : s'.ptr = stop) (fuel : ℕ) :
    v6Loop memory bits stop.length (fuel + 1) s address = .ok s' := by
  rw [v6Loop_step hptr hindex hread (checkFill_stop hstop hend _)]
  simp only [Bool.false_eq_true, if_false]
  cases fuel with
  | zero => rfl
  | succ fuel => rw [v6Loop, if_neg fun h => absurd h.1 (by rw [hend]; exact lt_irrefl _)]

end

lemma head_colon_iff {rest next : List Char} {parts : List (List Char)} (h : rest.splitOn ':' = next :: parts) :
    rest.head? = some ':' ↔ next = [] ∧ parts ≠ [] := by
  rw [head_eq_sep_iff, h]
  constructor
  · rintro ⟨parts', hne, heq⟩
    obtain ⟨rfl, rfl⟩ := List.cons.inj heq
    exact ⟨rfl, hne⟩
  · rintro ⟨rfl, hne⟩
    exact ⟨parts, hne, rfl⟩

lemma tail_reads (hstop : Behind stop) {n fuel fill : ℕ} (hn : n < fuel) {text : List Char} (hindex : s.index + n = groupsV6)
    (hfill : s.fill = some fill) (hptr : stop.length < s.ptr.length) (hbits : bits = none ∨ '-' ∉ text ++ stop) :
    (tailReading (IsGroup 16 65535) n (text.splitOn ':')).Describes (ColonBehind memory stop)
      (v6Loop memory bits stop.length fuel s (text ++ stop) >>= finish bits) := by
  induction n generalizing fuel s text with
  | zero =>
    obtain ⟨iprange, hfinish⟩ := finish_full bits (show s.index = groupsV6 by omega)
    obtain ⟨fuel, rfl⟩ := Nat.exists_eq_add_one_of_ne_zero (Nat.ne_of_gt hn)
    rw [v6Loop, if_neg (by omega)]
    exact ⟨iprange, hfinish⟩
  | succ n ih =>
    obtain ⟨fuel, rfl⟩ := Nat.exists_eq_add_one_of_ne_zero (Nat.ne_of_gt (Nat.zero_lt_of_lt hn))
    have hless : s.index < groupsV6 := by omega
    have hcolon : ':' ∉ stop := fun h => (hstop ':' h).2.1 rfl
    have hdash : stop.head? ≠ some '-' := fun h => (hstop '-' (List.mem_of_mem_head? h)).2.2 rfl
    rcases splitOn_cases ':' text with ⟨hnone, hsplit⟩ | ⟨part, rest, rfl, hpart, hsplit⟩
    · rw [hsplit, tailReading]
      have hend := groupEnd_last hnone hcolon
      by_cases hempty : text = []
      · subst hempty
        obtain ⟨hread, hfail⟩ := readGroup_empty hend
        rw [if_pos rfl]
        refine ⟨fun hbehind => ?_, fun hbehind => ?_⟩
        · have hdone := v6Loop_last hstop hptr hless (hread ((charBehind_stop hstop).2 hbehind)) rfl fuel
          rw [hdone]
          exact finish_filled bits hless.le hfill
        · rw [v6Loop_read_error hptr hless (hfail fun h => hbehind ((charBehind_stop hstop).1 h))]
          rfl
      · rw [if_neg hempty]
        obtain ⟨hread, hfail⟩ := readGroup_group hend hempty hbits hdash hless
        split_ifs with hok
        · obtain ⟨iprange, hgroup⟩ := hread hok
          rw [v6Loop_last hstop hptr hless hgroup rfl]
          exact finish_filled bits (Nat.succ_le_of_lt hless) hfill
        · rw [v6Loop_read_error hptr hless (hfail hok)]
          rfl
    · have hbehind : part ++ ':' :: rest ++ stop = part ++ ':' :: (rest ++ stop) := by simp
      obtain ⟨next, parts, hparts⟩ := List.exists_cons_of_ne_nil (List.splitOn_ne_nil ':' rest)
      have hend : groupEnd ':' stop.length (part ++ ':' :: (rest ++ stop)) = ':' :: (rest ++ stop) := groupEnd_cons hpart _
      have hcolons := head_colon_iff hparts
      rw [hsplit, hbehind, hparts, tailReading]
      by_cases hempty : part = []
      · subst hempty
        obtain ⟨hread, hfail⟩ := readGroup_empty hend
        rw [if_pos (.inl fun h => isGroup_ne_nil h rfl)]
        by_cases hdouble : rest.head? = some ':'
        · obtain ⟨rest, rfl⟩ : ∃ rest', rest = ':' :: rest' := List.head?_eq_some_iff.1 hdouble
          obtain ⟨htwice, -, -⟩ := checkFill_double hstop (s := { s with ptr := ':' :: (':' :: rest ++ stop) }) rfl
          rw [v6Loop_check_error hptr hless (hread ((charBehind_colon hstop _).2 hdouble)) (htwice (by simp [hfill]))]
          rfl
        · rw [v6Loop_read_error hptr hless (hfail fun h => hdouble ((charBehind_colon hstop _).1 h))]
          rfl
      · obtain ⟨hread, hfail⟩ := readGroup_group hend hempty (hbehind ▸ hbits) (by simp) hless
        by_cases hok : IsGroup 16 65535 part
        · obtain ⟨iprange, hgroup⟩ := hread hok
          by_cases hdouble : rest.head? = some ':'
          · rw [if_pos (.inr (hcolons.1 hdouble))]
            obtain ⟨rest, rfl⟩ : ∃ rest', rest = ':' :: rest' := List.head?_eq_some_iff.1 hdouble
            obtain ⟨htwice, -, -⟩ := checkFill_double hstop
              (s := ⟨s.index + 1, s.fill, ':' :: (':' :: rest ++ stop), iprange⟩) rfl
            rw [v6Loop_check_error hptr hless hgroup (htwice (by simp [hfill]))]
            rfl
          · rw [if_neg fun h => h.elim (fun h => h hok) fun h => hdouble (hcolons.2 h), ← hparts,
              v6Loop_step hptr hless hgroup (checkFill_single hstop rfl hdouble _)]
            simp only [Bool.false_eq_true, if_false]
            refine ih (by omega) (by simp only; omega) hfill (by simp) ?_
            refine hbits.imp_right fun h hmem => h ?_
            rw [hbehind]
            exact List.mem_append_right _ (List.mem_cons_of_mem _ hmem)
        · rw [if_pos (.inl hok), v6Loop_read_error hptr hless (hfail hok)]
          rfl

lemma double_parts {rest next : List Char} {parts : List (List Char)} (h : (':' :: rest).splitOn ':' = next :: parts) :
    next = [] ∧ parts = rest.splitOn ':' := by
  have hcons : (':' :: rest).splitOn ':' = [] :: rest.splitOn ':' :=
    List.splitOn_append_cons_self_of_not_mem List.not_mem_nil rest
  rw [hcons] at h
  exact ⟨(List.cons.inj h).1.symm, (List.cons.inj h).2.symm⟩

lemma fill_reads (hstop : Behind stop) {n fuel : ℕ} (hn : n < fuel) {rest : List Char} {s' : V6State} {address : List Char}
    (hptr : stop.length < s.ptr.length) (hindex : s.index < groupsV6)
    (hread : readGroup memory bits stop.length s address = .ok s') (hdouble : s'.ptr = ':' :: (':' :: rest ++ stop))
    (hfill : s'.fill = none) (hroom : s'.index + 1 + n = groupsV6) (hbits : bits = none ∨ '-' ∉ rest ++ stop) :
    (fillReading (IsGroup 16 65535) n (rest.splitOn ':')).Describes (ColonBehind memory stop)
      (v6Loop memory bits stop.length (fuel + 1) s address >>= finish bits) := by
  obtain ⟨-, -, hchecked⟩ := checkFill_double hstop hdouble
  obtain ⟨iprange, hcheck⟩ := hchecked hfill (by omega)
  rw [v6Loop_step hptr hindex hread hcheck, fillReading]
  by_cases hempty : rest = []
  · rw [if_pos ((splitOn_eq_empty_part_iff rest).2 hempty), if_pos (by simp [hempty])]
    exact finish_filled bits (show s'.index + 1 ≤ groupsV6 by omega) rfl
  · rw [if_neg fun h => hempty ((splitOn_eq_empty_part_iff rest).1 h), if_neg (by simp [hempty])]
    exact tail_reads (s := ⟨s'.index + 1, some s'.index, ':' :: (rest ++ stop), iprange⟩) hstop hn hroom rfl (by simp) hbits

lemma head_reads (hstop : Behind stop) {n fuel : ℕ} (hn : n < fuel) {text : List Char} (hindex : s.index + n = groupsV6)
    (hfill : s.fill = none) (hptr : stop.length < s.ptr.length) (hbits : bits = none ∨ '-' ∉ text ++ stop) :
    (headReading (IsGroup 16 65535) n (text.splitOn ':')).Describes (ColonBehind memory stop)
      (v6Loop memory bits stop.length fuel s (text ++ stop) >>= finish bits) := by
  induction n generalizing fuel s text with
  | zero =>
    obtain ⟨iprange, hfinish⟩ := finish_full bits (show s.index = groupsV6 by omega)
    obtain ⟨fuel, rfl⟩ := Nat.exists_eq_add_one_of_ne_zero (Nat.ne_of_gt hn)
    rw [v6Loop, if_neg (by omega)]
    exact ⟨iprange, hfinish⟩
  | succ n ih =>
    obtain ⟨fuel, rfl⟩ := Nat.exists_eq_add_one_of_ne_zero (Nat.ne_of_gt (Nat.zero_lt_of_lt hn))
    have hless : s.index < groupsV6 := by omega
    have hcolon : ':' ∉ stop := fun h => (hstop ':' h).2.1 rfl
    have hdash : stop.head? ≠ some '-' := fun h => (hstop '-' (List.mem_of_mem_head? h)).2.2 rfl
    rcases splitOn_cases ':' text with ⟨hnone, hsplit⟩ | ⟨part, rest, rfl, hpart, hsplit⟩
    · rw [hsplit, headReading]
      have hend := groupEnd_last hnone hcolon
      by_cases hempty : text = []
      · subst hempty
        obtain ⟨hread, hfail⟩ := readGroup_empty hend
        rw [if_neg fun h => isGroup_ne_nil h.1 rfl]
        by_cases hbehind : charBehind memory ([] ++ stop) = ':'
        · rw [v6Loop_last hstop hptr hless (hread hbehind) rfl]
          exact finish_short bits hless hfill
        · rw [v6Loop_read_error hptr hless (hfail hbehind)]
          rfl
      · obtain ⟨hread, hfail⟩ := readGroup_group hend hempty hbits hdash hless
        by_cases hok : IsGroup 16 65535 text
        · obtain ⟨iprange, hgroup⟩ := hread hok
          rw [v6Loop_last hstop hptr hless hgroup rfl]
          by_cases hlast : n = 0
          · rw [if_pos ⟨hok, hlast⟩]
            exact finish_full bits (show s.index + 1 = groupsV6 by omega)
          · rw [if_neg fun h => hlast h.2]
            exact finish_short bits (show s.index + 1 < groupsV6 by omega) hfill
        · rw [if_neg fun h => hok h.1, v6Loop_read_error hptr hless (hfail hok)]
          rfl
    · have hbehind : part ++ ':' :: rest ++ stop = part ++ ':' :: (rest ++ stop) := by simp
      obtain ⟨next, parts, hparts⟩ := List.exists_cons_of_ne_nil (List.splitOn_ne_nil ':' rest)
      have hend : groupEnd ':' stop.length (part ++ ':' :: (rest ++ stop)) = ':' :: (rest ++ stop) := groupEnd_cons hpart _
      have hlater : ∀ {after : List Char}, (∀ c ∈ after, c ∈ rest) → bits = none ∨ '-' ∉ after ++ stop := by
        intro after hafter
        refine hbits.imp_right fun h hmem => h ?_
        rw [hbehind]
        refine List.mem_append_right _ (List.mem_cons_of_mem _ ?_)
        exact List.mem_append.2 ((List.mem_append.1 hmem).imp_left (hafter '-'))
      have hcolons := head_colon_iff hparts
      rw [hsplit, hbehind, hparts, headReading]
      by_cases hempty : part = []
      · subst hempty
        obtain ⟨hread, hfail⟩ := readGroup_empty hend
        rw [if_pos rfl]
        by_cases hdouble : rest.head? = some ':'
        · rw [if_pos (hcolons.1 hdouble)]
          have hcolonBehind : charBehind memory (':' :: (rest ++ stop)) = ':' := (charBehind_colon hstop rest).2 hdouble
          have hgroup := hread hcolonBehind
          obtain ⟨rest, rfl⟩ : ∃ rest', rest = ':' :: rest' := List.head?_eq_some_iff.1 hdouble
          rw [(double_parts hparts).2]
          exact fill_reads hstop (by omega) hptr hless hgroup rfl hfill (by simp only; omega)
            (hlater fun c hc => List.mem_cons_of_mem _ hc)
        · rw [if_neg fun h => hdouble (hcolons.2 h), v6Loop_read_error hptr hless
            (hfail fun h => hdouble ((charBehind_colon hstop _).1 h))]
          rfl
      · rw [if_neg hempty]
        obtain ⟨hread, hfail⟩ := readGroup_group hend hempty (hbehind ▸ hbits) (by simp) hless
        by_cases hok : IsGroup 16 65535 part
        · obtain ⟨iprange, hgroup⟩ := hread hok
          rw [if_neg (not_not.2 hok)]
          by_cases hdouble : rest.head? = some ':'
          · rw [if_pos (hcolons.1 hdouble)]
            obtain ⟨rest, rfl⟩ : ∃ rest', rest = ':' :: rest' := List.head?_eq_some_iff.1 hdouble
            by_cases hlast : n = 0
            · obtain ⟨-, hover, -⟩ := checkFill_double hstop
                (s := ⟨s.index + 1, s.fill, ':' :: (':' :: rest ++ stop), iprange⟩) rfl
              rw [if_pos hlast, v6Loop_check_error hptr hless hgroup (hover hfill (by simp only; omega))]
              rfl
            · rw [if_neg hlast, (double_parts hparts).2]
              exact fill_reads hstop (by omega) hptr hless hgroup rfl hfill (by simp only; omega)
                (hlater fun c hc => List.mem_cons_of_mem _ hc)
          · rw [if_neg fun h => hdouble (hcolons.2 h), ← hparts,
              v6Loop_step hptr hless hgroup (checkFill_single hstop rfl hdouble _)]
            simp only [Bool.false_eq_true, if_false]
            exact ih (by omega) (by simp only; omega) hfill (by simp) (hlater fun c hc => hc)
        · rw [if_pos hok, v6Loop_read_error hptr hless (hfail hok)]
          rfl

lemma readGroup_masked (hstop : Behind stop) (hmask : bits.isSome = true) {text : List Char} (hdash : '-' ∈ text) :
    readGroup memory bits stop.length s (text ++ stop) = .error .fail ∨
      ∃ rest, text = ':' :: ':' :: rest ∧
        readGroup memory bits stop.length s (text ++ stop) = .ok { s with ptr := ':' :: (':' :: rest ++ stop) } := by
  have hahead : '-' ∈ text ++ stop := List.mem_append_left _ hdash
  by_cases hcolon : text.head? = some ':'
  · obtain ⟨rest, rfl⟩ : ∃ rest, text = ':' :: rest := List.head?_eq_some_iff.1 hcolon
    have hnone : ':' ∉ ([] : List Char) := List.not_mem_nil
    have hend : groupEnd ':' stop.length (':' :: rest ++ stop) = ':' :: rest ++ stop := groupEnd_cons hnone _
    obtain ⟨hread, hfail⟩ := readGroup_empty hend
    by_cases hdouble : rest.head? = some ':'
    · have hcolonBehind : charBehind memory (':' :: (rest ++ stop)) = ':' := (charBehind_colon hstop rest).2 hdouble
      obtain ⟨rest, rfl⟩ : ∃ rest', rest = ':' :: rest' := List.head?_eq_some_iff.1 hdouble
      exact .inr ⟨rest, rfl, hread hcolonBehind⟩
    · exact .inl (hfail fun h => hdouble ((charBehind_colon hstop rest).1 h))
  · left
    have hlength : ¬ (groupEnd ':' stop.length (text ++ stop)).length = (text ++ stop).length := by
      have hstopColon : ':' ∉ stop := fun h => (hstop ':' h).2.1 rfl
      rcases splitOn_cases ':' text with ⟨hnone, -⟩ | ⟨part, rest, rfl, hpart, -⟩
      · have hpos := List.length_pos_of_mem hdash
        rw [groupEnd_last hnone hstopColon, List.length_append]
        omega
      · have hbehind : part ++ ':' :: rest ++ stop = part ++ ':' :: (rest ++ stop) := by simp
        have hne : part ≠ [] := fun h => hcolon (by rw [h]; rfl)
        have hpos := List.length_pos_of_ne_nil hne
        rw [hbehind, groupEnd_cons hpart, List.length_append]
        omega
    rw [readGroup]
    simp only [if_neg hlength, parseGroup_masked hmask hahead]

lemma v6Loop_masked (hstop : Behind stop) (hmask : bits.isSome = true) {text : List Char} (hdash : '-' ∈ text)
    (hindex : s.index + 1 < groupsV6) (hfill : s.fill = none) (hptr : stop.length < s.ptr.length) (fuel : ℕ) :
    v6Loop memory bits stop.length (fuel + 2) s (text ++ stop) = .error .fail := by
  have hless : s.index < groupsV6 := by omega
  rcases readGroup_masked hstop hmask hdash with hfail | ⟨rest, rfl, hread⟩
  · exact v6Loop_read_error hptr hless hfail _
  · obtain ⟨-, -, hchecked⟩ := checkFill_double hstop (s := { s with ptr := ':' :: (':' :: rest ++ stop) }) rfl
    obtain ⟨iprange, hcheck⟩ := hchecked hfill hless
    have hrest : '-' ∈ rest := by simpa using hdash
    rw [v6Loop_step hptr hless hread hcheck, if_neg (by simp [List.ne_nil_of_mem hrest])]
    -- the second time around two colons are no longer passed
    have hagain : ∀ s' : V6State, s'.fill = some s.index → s'.index = s.index + 1 → stop.length < s'.ptr.length →
        v6Loop memory bits stop.length (fuel + 1) s' (rest ++ stop) = .error .fail := by
      intro s' hfilled hnext hptr'
      rcases readGroup_masked hstop hmask hrest with hfail | ⟨behind, rfl, hread⟩
      · exact v6Loop_read_error hptr' (by omega) hfail _
      · obtain ⟨htwice, -, -⟩ := checkFill_double hstop (s := { s' with ptr := ':' :: (':' :: behind ++ stop) }) rfl
        exact v6Loop_check_error hptr' (by omega) hread (htwice (by simp [hfilled])) _
    exact hagain _ rfl rfl (by simp)

end

end Glaber.Ip
