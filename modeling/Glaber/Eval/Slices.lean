import Glaber.Eval.CommonFunctions

namespace Glaber.Eval

open Str

section

variable {D : Type}

def Fails {α : Type} (run : Run α) : Prop := ∃ message, run = .error (.fail message)

variable (text : List Char)

def Returns (run : Run (Variant D)) : Prop := run = .ok (.str (encode text))

def MidSlices (start len : ℕ) (run : Run (Variant D)) : Prop :=
  (Fails run ↔ start = 0 ∨ text.length < start) ∧ (¬ Fails run → Returns ((text.drop (start - 1)).take len) run)

def InsertReplaces (start len : ℕ) (replacement : List Char) (run : Run (Variant D)) : Prop :=
  (Fails run ↔ start = 0 ∨ text.length < start ∨ text.length < start - 1 + len) ∧
    (¬ Fails run → Returns (text.take (start - 1) ++ (replacement ++ text.drop (start - 1 + len))) run)

def RepeatCopies (num : ℕ) (run : Run (Variant D)) : Prop :=
  (Fails run ↔ maxStringLen ≤ num * text.length) ∧ (¬ Fails run → Returns (List.replicate num text).flatten run)

lemma fails_failed (message : Message) : Fails (.error (.fail message) : Run (Variant D)) := ⟨message, rfl⟩

lemma Returns.not_fails {text : List Char} {run : Run (Variant D)} (h : Returns text run) : ¬ Fails run := by
  rintro ⟨message, hfail⟩
  rw [h] at hfail
  cases hfail

end

section

variable (text : List Char)

lemma copyNchars_encode (n : ℕ) : copyNchars (encode text) n = encode (text.take n) :=
  strlcpyUtf8_encode text n

lemma right_encode (len : UInt64) :
    right (encode text) len = encode (text.drop (text.length - len.toNat)) := by
  unfold right
  rw [strlenUtf8_encode]
  dsimp only
  split_ifs with hshort
  · rw [strshiftUtf8_encode, copyNchars_encode, List.take_of_length_le]
    rw [List.length_drop]
    omega
  · rw [Nat.sub_eq_zero_of_le (not_lt.1 hshort), List.drop_zero]

lemma toNat_add_cases (a b : UInt64) :
    (a + b).toNat = a.toNat + b.toNat ∨ 2 ^ 64 ≤ a.toNat + b.toNat ∧ (a + b).toNat = a.toNat + b.toNat - 2 ^ 64 := by
  have ha := a.toNat_lt
  have hb := b.toNat_lt
  rw [UInt64.toNat_add]
  omega

lemma mid_encode (start len : UInt64) :
    mid (encode text) start len = encode ((text.drop (start.toNat - 1)).take len.toNat) := by
  unfold mid
  rw [strlenUtf8_encode, strshiftUtf8_encode]
  dsimp only
  split_ifs with hin
  · exact copyNchars_encode _ _
  · rw [List.take_of_length_le]
    rw [List.length_drop]
    have hlen := len.toNat_lt
    rcases toNat_add_cases start len with hsum | ⟨hwrap, hsum⟩
    · omega
    · omega

lemma insert_encode (start len : UInt64) (replacement : List Char) :
    insert (encode text) start len (encode replacement) =
      encode (text.take (start.toNat - 1) ++ (replacement ++ text.drop (start.toNat - 1 + len.toNat))) := by
  have hsplit : encode text = encode (text.take (start.toNat - 1)) ++ encode (text.drop (start.toNat - 1)) := by
    rw [← encode_append, List.take_append_drop]
  have hslice : encode (text.drop (start.toNat - 1)) = encode ((text.drop (start.toNat - 1)).take len.toNat) ++
      encode (text.drop (start.toNat - 1 + len.toNat)) := by
    rw [← encode_append, ← List.drop_drop, List.take_append_drop]
  have hoffset : (encode text).length - (encode (text.drop (start.toNat - 1))).length =
      (encode (text.take (start.toNat - 1))).length := by
    rw [hsplit, List.length_append, Nat.add_sub_cancel]
  have hbefore : (encode text).take (encode (text.take (start.toNat - 1))).length = encode (text.take (start.toNat - 1)) := by
    rw [hsplit, List.take_left]
  have hbehind : (encode text).drop ((encode (text.take (start.toNat - 1))).length +
      (encode ((text.drop (start.toNat - 1)).take len.toNat)).length) = encode (text.drop (start.toNat - 1 + len.toNat)) := by
    rw [hsplit, hslice, ← List.append_assoc, ← List.length_append, List.drop_left]
  unfold insert
  dsimp only
  rw [strshiftUtf8_encode, strlenUtf8Nchars_encode, replaceMemDyn, hoffset, hbefore, hbehind, encode_append, encode_append]

lemma repeatText_encode (n : ℕ) :
    repeatText (encode text) n = encode (List.replicate n text).flatten := by
  induction n with
  | zero => rfl
  | succ n ih => rw [repeatText, ih, List.replicate_succ', List.flatten_concat, encode_append]

end

section

variable {D : Type} (P : Platform D) (ctx : Context D) (token : Token D)

lemma validated {args : List (Variant D)} {run : Run (Variant D)} (h : ∀ arg ∈ args, arg.isErr = false) :
    evalValidateFunctionArgs args run = run := by
  have hnone : args.find? Variant.isErr = none := by
    rw [List.find?_eq_none]
    intro arg harg
    simp [h arg harg]
  rw [evalValidateFunctionArgs, hnone]

variable (text : List Char)

lemma left_returns (len : UInt64) :
    Returns (text.take len.toNat) (evalExecuteFunctionLeft P ctx token [.str (encode text), .ui64 len]) := by
  unfold evalExecuteFunctionLeft
  rw [if_neg (by simp), validated (by simp [Variant.isErr])]
  exact congrArg (fun text => Except.ok (Variant.str text)) (copyNchars_encode text len.toNat)

lemma right_returns (len : UInt64) :
    Returns (text.drop (text.length - len.toNat)) (evalExecuteFunctionRight P ctx token [.str (encode text), .ui64 len]) := by
  unfold evalExecuteFunctionRight
  rw [if_neg (by simp), validated (by simp [Variant.isErr])]
  exact congrArg (fun text => Except.ok (Variant.str text)) (right_encode text len)

lemma mid_slices (start len : UInt64) :
    MidSlices text start.toNat len.toNat (evalExecuteFunctionMid P ctx token [.str (encode text), .ui64 start, .ui64 len]) := by
  have hrun : evalExecuteFunctionMid P ctx token [.str (encode text), .ui64 start, .ui64 len] =
      if start.toNat = 0 ∨ text.length < start.toNat then failAt ctx token "invalid function second argument"
      else .ok (.str (mid (encode text) start len)) := by
    rw [← strlenUtf8_encode text]
    unfold evalExecuteFunctionMid
    rw [if_neg (by simp), validated (by simp [Variant.isErr])]
    rfl
  rw [hrun]
  split_ifs with hstart
  · exact ⟨iff_of_true (fails_failed _) hstart, fun h => absurd (fails_failed _) h⟩
  · have hreturns :
        Returns ((text.drop (start.toNat - 1)).take len.toNat) (.ok (.str (mid (encode text) start len)) : Run (Variant D)) :=
      congrArg (fun text => Except.ok (Variant.str text)) (mid_encode text start len)
    exact ⟨iff_of_false hreturns.not_fails hstart, fun _ => hreturns⟩

lemma insert_run (start len : UInt64) (replacement : List Char) :
    evalExecuteFunctionInsert P ctx token [.str (encode text), .ui64 start, .ui64 len, .str (encode replacement)] =
      if start.toNat = 0 ∨ text.length < start.toNat then failAt ctx token "invalid function second argument"
      else if text.length < (start - 1 + len).toNat then failAt ctx token "invalid function third argument"
      else .ok (.str (insert (encode text) start len (encode replacement))) := by
  rw [← strlenUtf8_encode text]
  unfold evalExecuteFunctionInsert
  rw [if_neg (by simp), validated (by simp [Variant.isErr])]
  rfl

lemma insert_replaces_iff (start len : UInt64) (replacement : List Char) :
    InsertReplaces text start.toNat len.toNat replacement
        (evalExecuteFunctionInsert P ctx token [.str (encode text), .ui64 start, .ui64 len, .str (encode replacement)]) ↔
      start.toNat = 0 ∨ text.length < start.toNat ∨ start.toNat - 1 + len.toNat < 2 ^ 64 ∨
        start.toNat - 1 + len.toNat ≤ text.length := by
  rw [insert_run]
  by_cases hstart : start.toNat = 0 ∨ text.length < start.toNat
  · rw [if_pos hstart]
    refine iff_of_true ⟨iff_of_true (fails_failed _) ?_, fun h => absurd (fails_failed _) h⟩ ?_
    · exact hstart.imp_right .inl
    · exact hstart.imp_right .inl
  · rw [if_neg hstart]
    have hone : (start - 1).toNat = start.toNat - 1 := by
      rw [UInt64.toNat_sub_of_le]
      · rfl
      · rw [UInt64.le_iff_toNat_le]
        show 1 ≤ start.toNat
        omega
    have hlen := len.toNat_lt
    have hend := (start - 1 + len).toNat_lt
    have hsum := toNat_add_cases (start - 1) len
    rw [hone] at hsum
    split_ifs with hlong
    · refine iff_of_true ⟨iff_of_true (fails_failed _) ?_, fun h => absurd (fails_failed _) h⟩ ?_
      · omega
      · omega
    · have hreturns : Returns (text.take (start.toNat - 1) ++ (replacement ++ text.drop (start.toNat - 1 + len.toNat)))
          (.ok (.str (insert (encode text) start len (encode replacement))) : Run (Variant D)) :=
        congrArg (fun text => Except.ok (Variant.str text)) (insert_encode text start len replacement)
      rw [InsertReplaces, iff_false_left hreturns.not_fails, and_iff_left fun _ => hreturns]
      omega

lemma repeat_run (num : UInt64) :
    evalExecuteFunctionRepeat P ctx token [.str (encode text), .ui64 num] =
      if text.length = 0 then .ok (.str [])
      else if maxStringLen ≤ num.toNat * text.length % 2 ^ 64 then
        .error (.fail ("maximum allowed string length (2048) exceeded: ".toList ++
          (Nat.repr (num.toNat * text.length % 2 ^ 64)).toList))
      else .ok (.str (repeatText (encode text) num.toNat)) := by
  have hproduct : num.toNat * text.length % 2 ^ 64 = (num * UInt64.ofNat (strlenUtf8 (encode text))).toNat := by
    rw [strlenUtf8_encode, UInt64.toNat_mul, UInt64.toNat_ofNat', Nat.mul_mod_mod]
  rw [hproduct, ← strlenUtf8_encode text]
  unfold evalExecuteFunctionRepeat
  rw [if_neg (by simp), validated (by simp [Variant.isErr])]
  rfl

lemma repeat_copies_iff (num : UInt64) :
    RepeatCopies text num.toNat (evalExecuteFunctionRepeat P ctx token [.str (encode text), .ui64 num]) ↔
      num.toNat * text.length < 2 ^ 64 ∨ maxStringLen ≤ num.toNat * text.length % 2 ^ 64 := by
  have hcopies : Returns (List.replicate num.toNat text).flatten
      (.ok (.str (repeatText (encode text) num.toNat)) : Run (Variant D)) :=
    congrArg (fun text => Except.ok (Variant.str text)) (repeatText_encode text num.toNat)
  rw [repeat_run, RepeatCopies]
  have hmax : maxStringLen = 2048 := rfl
  split_ifs with hempty hlong
  · have hreturns : Returns (List.replicate num.toNat text).flatten (.ok (.str []) : Run (Variant D)) := by
      rw [List.length_eq_zero_iff.1 hempty, List.flatten_eq_nil_iff.2 fun _ h => List.eq_of_mem_replicate h]
      rfl
    rw [iff_false_left hreturns.not_fails, and_iff_left fun _ => hreturns, hempty]
    omega
  · refine iff_of_true ⟨iff_of_true (fails_failed _) ?_, fun h => absurd (fails_failed _) h⟩ (.inr hlong)
    exact hlong.trans (Nat.mod_le _ _)
  · rw [iff_false_left hcopies.not_fails, and_iff_left fun _ => hcopies]
    omega

theorem string_functions_slice_iff :
    (∀ text len, Returns (text.take len.toNat) (evalExecuteFunctionLeft P ctx token [.str (encode text), .ui64 len])) ∧
    (∀ text len, Returns (text.drop (text.length - len.toNat))
      (evalExecuteFunctionRight P ctx token [.str (encode text), .ui64 len])) ∧
    (∀ text start len, MidSlices text start.toNat len.toNat
      (evalExecuteFunctionMid P ctx token [.str (encode text), .ui64 start, .ui64 len])) ∧
    (∀ text start len replacement, InsertReplaces text start.toNat len.toNat replacement
        (evalExecuteFunctionInsert P ctx token [.str (encode text), .ui64 start, .ui64 len, .str (encode replacement)]) ↔
      start.toNat = 0 ∨ text.length < start.toNat ∨ start.toNat - 1 + len.toNat < 2 ^ 64 ∨
        start.toNat - 1 + len.toNat ≤ text.length) ∧
    ∀ text num, RepeatCopies text num.toNat (evalExecuteFunctionRepeat P ctx token [.str (encode text), .ui64 num]) ↔
      num.toNat * text.length < 2 ^ 64 ∨ maxStringLen ≤ num.toNat * text.length % 2 ^ 64 :=
  ⟨left_returns P ctx token, right_returns P ctx token, mid_slices P ctx token, insert_replaces_iff P ctx token,
    repeat_copies_iff P ctx token⟩

end

section

theorem insert_and_repeat_wrap_around :
    ¬ InsertReplaces "abc".toList 2 (2 ^ 64 - 1) "X".toList (evalExecuteFunctionInsert wholePlatform (callOf "insert")
        (callToken "insert" 4) [.str (encode "abc".toList), .ui64 2, .ui64 18446744073709551615, .str (encode "X".toList)]) ∧
      ¬ RepeatCopies "ab".toList (2 ^ 63) (evalExecuteFunctionRepeat wholePlatform (callOf "repeat") (callToken "repeat" 2)
        [.str (encode "ab".toList), .ui64 9223372036854775808]) := by
  constructor
  · rintro ⟨hfails, -⟩
    obtain ⟨message, hmessage⟩ := hfails.2 (.inr (.inr (by decide)))
    rw [insert_run, if_neg (by decide), if_neg (by decide)] at hmessage
    cases hmessage
  · rintro ⟨hfails, -⟩
    obtain ⟨message, hmessage⟩ := hfails.2 (by decide)
    rw [repeat_run, if_neg (by decide), if_neg (by decide)] at hmessage
    cases hmessage

end

end Glaber.Eval
