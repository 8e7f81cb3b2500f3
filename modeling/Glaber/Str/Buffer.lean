import Mathlib.Tactic

/-! Buffers of a fixed size with a C string in them (`common_str.c`). A write past the end of its buffer has no result. -/

namespace Glaber.Str

@[ext] structure Buffer (size : ℕ) where
  text : List Char
  fits : text.length < size
deriving DecidableEq

variable {size : ℕ}

def Buffer.write (buffer : Buffer size) (offset : ℕ) (text : List Char) : Option (Buffer size) :=
  if h : offset + text.length < size then
    some ⟨buffer.text.take offset ++ text, by
      rw [List.length_append, List.length_take]
      omega⟩
  else none

def Buffer.strlcpy (dst : Buffer size) (src : List Char) (siz : ℕ) : Option (Buffer size) :=
  if siz = 0 then some dst else dst.write 0 (src.take (siz - 1))

def Buffer.snprintf (str : Buffer size) (offset count : ℕ) (text : List Char) : Option (Buffer size × ℕ) :=
  (str.write offset (text.take (count - 1))).map fun str => (str, (text.take (count - 1)).length)

def cString (text : List Char) : List Char := text.takeWhile (· ≠ '\x00')

def printed (text : Option (List Char)) : List Char := text.getD "(null)".toList

lemma length_cString_le (text : List Char) : (cString text).length ≤ text.length := (List.takeWhile_prefix _).length_le

lemma Buffer.write_some_iff {buffer buffer' : Buffer size} {offset : ℕ} {text : List Char} :
    buffer.write offset text = some buffer' ↔
      offset + text.length < size ∧ buffer'.text = buffer.text.take offset ++ text := by
  unfold Buffer.write
  split_ifs with h
  · refine ⟨fun hwrite => ?_, fun htext => ?_⟩
    · obtain rfl := Option.some.inj hwrite
      exact ⟨h, rfl⟩
    · exact congrArg some (Buffer.ext htext.2.symm)
  · exact iff_of_false (by simp) fun htext => h htext.1

lemma Buffer.write_none_iff {buffer : Buffer size} {offset : ℕ} {text : List Char} :
    buffer.write offset text = none ↔ size ≤ offset + text.length := by
  unfold Buffer.write
  split_ifs with h
  · exact iff_of_false (by simp) (not_le.2 h)
  · exact iff_of_true rfl (not_lt.1 h)

lemma Buffer.strlcpy_front (buffer : Buffer size) (text rest : List Char) :
    (text.length < size → ∃ copied, buffer.strlcpy (text ++ rest) (text.length + 1) = some copied ∧ copied.text = text) ∧
      (size ≤ text.length → buffer.strlcpy (text ++ rest) (text.length + 1) = none) := by
  rw [Buffer.strlcpy, if_neg (Nat.succ_ne_zero _), Nat.add_sub_cancel, List.take_left]
  constructor
  · intro hfits
    refine ⟨⟨text, hfits⟩, ?_, rfl⟩
    rw [Buffer.write_some_iff]
    exact ⟨by rwa [Nat.zero_add], by simp⟩
  · intro hlong
    rw [Buffer.write_none_iff]
    rwa [Nat.zero_add]

end Glaber.Str
