import Glaber.Common

/-! The strings of JSON texts (`json.c`): how the builder escapes them and sizes the escapes, and how the reader decodes
them. A byte is the character with its code, a text ends where its NUL stands. -/

namespace Glaber.Json

section

def charSize (c : Char) : ℕ :=
  match c with
  | '"' | '\\' | '\x08' | '\x0c' | '\n' | '\r' | '\t' => 2
  | c => if c.toNat ≤ 0x1f then 6 else 1

def stringSize (string : Option (List Char)) (quoted : Bool) : ℕ :=
  ((string.getD "null".toList).map charSize).sum + if string.isSome && quoted then 2 else 0

def zbxNum2hex (c : ℕ) : Char := if 10 ≤ c then Char.ofNat (c + 0x57) else Char.ofNat (c + 0x30)

def escapeChar (c : Char) : List Char :=
  match c with
  | '"' => ['\\', '"']
  | '\\' => ['\\', '\\']
  | '\x08' => ['\\', 'b']
  | '\x0c' => ['\\', 'f']
  | '\n' => ['\\', 'n']
  | '\r' => ['\\', 'r']
  | '\t' => ['\\', 't']
  | c =>
    if c.toNat ≤ 0x1f then ['\\', 'u', '0', '0', zbxNum2hex (c.toNat / 16), zbxNum2hex (c.toNat % 16)] else [c]

def escape (text : List Char) : List Char := text.flatMap escapeChar

def insString (string : Option (List Char)) (quoted : Bool) : List Char :=
  let body := escape (string.getD "null".toList)
  if string.isSome && quoted then '"' :: body ++ ['"'] else body

lemma length_escapeChar (c : Char) : (escapeChar c).length = charSize c := by
  unfold escapeChar charSize
  split <;> try rfl
  split_ifs <;> rfl

lemma length_escape (text : List Char) : (escape text).length = (text.map charSize).sum := by
  induction text with
  | nil => rfl
  | cons c text ih =>
      simp only [escape, List.flatMap_cons, List.length_append, length_escapeChar, List.map_cons, List.sum_cons] at ih ⊢
      omega

lemma length_insString (string : Option (List Char)) (quoted : Bool) :
    (insString string quoted).length = stringSize string quoted := by
  unfold insString stringSize
  split_ifs
  · simp [length_escape]
  · simp [length_escape]

end

section

def isXdigit (c : Char) : Bool := c.isDigit || ('a' ≤ c && c ≤ 'f') || ('A' ≤ c && c ≤ 'F')

def zbxHex2num (c : Char) : ℕ :=
  if 'a' ≤ c then c.toNat - 'a'.toNat + 10 else if 'A' ≤ c then c.toNat - 'A'.toNat + 10 else c.toNat - '0'.toNat

def readHex : List Char → Option (ℕ × List Char)
  | a :: b :: c :: d :: p =>
    if isXdigit a && isXdigit b && isXdigit c && isXdigit d then
      some (zbxHex2num a * 4096 + zbxHex2num b * 256 + zbxHex2num c * 16 + zbxHex2num d, p)
    else none
  | _ => none

def decodeUnit (num : ℕ) (p : List Char) : Option (List Char × List Char) :=
  if num ≤ 0x7f then some ([Char.ofNat num], p)
  else if num ≤ 0x7ff then some ([Char.ofNat (0xc0 + num / 64 % 32), Char.ofNat (0x80 + num % 64)], p)
  else if num ≤ 0xd7ff ∨ 0xe000 ≤ num then
    some ([Char.ofNat (0xe0 + num / 4096 % 16), Char.ofNat (0x80 + num / 64 % 64), Char.ofNat (0x80 + num % 64)], p)
  else if num ≤ 0xdbff then
    match p with
    | '\\' :: 'u' :: p => do
      let (low, p) ← readHex p
      if low < 0xdc00 ∨ 0xdfff < low then none
      else
        let uc := 0x10000 + num % 1024 * 1024 + low % 1024
        return ([Char.ofNat (0xf0 + uc / 262144 % 8), Char.ofNat (0x80 + uc / 4096 % 64),
          Char.ofNat (0x80 + uc / 64 % 64), Char.ofNat (0x80 + uc % 64)], p)
    | _ => none
  else none

def decodeCharacter : List Char → Option (List Char × List Char)
  | '"' :: p => some (['"'], p)
  | '\\' :: p => some (['\\'], p)
  | '/' :: p => some (['/'], p)
  | 'b' :: p => some (['\x08'], p)
  | 'f' :: p => some (['\x0c'], p)
  | 'n' :: p => some (['\n'], p)
  | 'r' :: p => some (['\r'], p)
  | 't' :: p => some (['\t'], p)
  | 'u' :: p => do
    let (num, p) ← readHex p
    decodeUnit num p
  | _ => none

def escapeLetters : List Char := ['"', '\\', '/', 'b', 'f', 'n', 'r', 't']

def copyLoop (size : ℕ) : ℕ → List Char → List Char → Option (List Char × List Char)
  | 0, _, _ => none
  | fuel + 1, out, p =>
    match p with
    | [] => none
    | '\\' :: p => do
      let (bytes, p) ← decodeCharacter p
      if size ≤ out.length + bytes.length then none
      else if (out ++ bytes).length = size then none
      else copyLoop size fuel (out ++ bytes) p
    | '"' :: p => some (out, p)
    | c :: p => if (out ++ [c]).length = size then none else copyLoop size fuel (out ++ [c]) p

def copyString (p : List Char) (size : ℕ) : Option (List Char × List Char) :=
  if size = 0 then none else copyLoop size p.length [] p.tail

lemma readHex_control {n : ℕ} (h : n ≤ 0x1f) (p : List Char) :
    readHex ('0' :: '0' :: zbxNum2hex (n / 16) :: zbxNum2hex (n % 16) :: p) = some (n, p) := by
  interval_cases n <;> rfl

lemma escapeChar_cases (c : Char) :
    (escapeChar c = [c] ∧ c ≠ '"' ∧ c ≠ '\\' ∧ 0x1f < c.toNat) ∨
      ∃ e, escapeChar c = '\\' :: e ∧ (∀ p, decodeCharacter (e ++ p) = some ([c], p)) ∧
        ((∃ digits, e = 'u' :: digits) ∨ ∃ x ∈ escapeLetters, e = [x]) := by
  unfold escapeChar
  split
  · exact .inr ⟨['"'], rfl, fun _ => rfl, .inr ⟨'"', by decide, rfl⟩⟩
  · exact .inr ⟨['\\'], rfl, fun _ => rfl, .inr ⟨'\\', by decide, rfl⟩⟩
  · exact .inr ⟨['b'], rfl, fun _ => rfl, .inr ⟨'b', by decide, rfl⟩⟩
  · exact .inr ⟨['f'], rfl, fun _ => rfl, .inr ⟨'f', by decide, rfl⟩⟩
  · exact .inr ⟨['n'], rfl, fun _ => rfl, .inr ⟨'n', by decide, rfl⟩⟩
  · exact .inr ⟨['r'], rfl, fun _ => rfl, .inr ⟨'r', by decide, rfl⟩⟩
  · exact .inr ⟨['t'], rfl, fun _ => rfl, .inr ⟨'t', by decide, rfl⟩⟩
  · rename_i hquote hback _ _ _ _ _
    split_ifs with hc
    · refine .inr ⟨['u', '0', '0', zbxNum2hex (c.toNat / 16), zbxNum2hex (c.toNat % 16)], rfl, fun p => ?_,
        .inl ⟨_, rfl⟩⟩
      have hunit : decodeUnit c.toNat p = some ([c], p) := by
        unfold decodeUnit
        rw [if_pos (by omega), Char.ofNat_toNat]
      simp [decodeCharacter, readHex_control hc, hunit]
    · exact .inl ⟨rfl, hquote, hback, by omega⟩

lemma copyLoop_plain {size fuel : ℕ} {out p : List Char} {c : Char} (hquote : c ≠ '"') (hback : c ≠ '\\') :
    copyLoop size (fuel + 1) out (c :: p) =
      if (out ++ [c]).length = size then none else copyLoop size fuel (out ++ [c]) p := by
  rw [copyLoop]
  · exact hback
  · exact hquote

lemma copyLoop_escape {size fuel : ℕ} {out text : List Char} (rest : List Char) (hsize : out.length + text.length < size)
    (hfuel : text.length < fuel) : copyLoop size fuel out (escape text ++ '"' :: rest) = some (out ++ text, rest) := by
  induction text generalizing out fuel with
  | nil =>
      obtain ⟨fuel, rfl⟩ := Nat.exists_eq_add_one_of_ne_zero (Nat.ne_of_gt hfuel)
      simp [escape, copyLoop]
  | cons c text ih =>
      obtain ⟨fuel, rfl⟩ := Nat.exists_eq_add_one_of_ne_zero (Nat.ne_of_gt (Nat.zero_lt_of_lt hfuel))
      simp only [List.length_cons] at hsize hfuel
      have hnext : copyLoop size fuel (out ++ [c]) (escape text ++ '"' :: rest) = some (out ++ [c] ++ text, rest) :=
        ih (by simp; omega) (by omega)
      have hout : ¬ (out ++ [c]).length = size := by simp; omega
      have hcons : escape (c :: text) = escapeChar c ++ escape text := rfl
      rcases escapeChar_cases c with ⟨hc, hquote, hback, -⟩ | ⟨e, he, hdecode, -⟩
      · rw [hcons, hc, List.singleton_append, List.cons_append, copyLoop_plain hquote hback, if_neg hout, hnext]
        simp
      · rw [hcons, he, List.cons_append, List.cons_append, List.append_assoc, copyLoop]
        have hroom : ¬ size ≤ out.length + 1 := by omega
        simp only [hdecode, Option.bind_eq_bind, Option.bind_some, List.length_singleton, if_neg hroom, if_neg hout, hnext]
        simp

lemma length_le_escape (text : List Char) : text.length ≤ (escape text).length := by
  induction text with
  | nil => simp
  | cons c text ih =>
      have hone : 1 ≤ (escapeChar c).length := by
        rcases escapeChar_cases c with ⟨hc, -⟩ | ⟨e, he, -⟩
        · simp [hc]
        · simp [he]
      simp only [escape, List.flatMap_cons, List.length_append, List.length_cons] at ih ⊢
      omega

lemma copyString_quoted {size : ℕ} {text : List Char} (rest : List Char) (hsize : text.length < size) :
    copyString ('"' :: (escape text ++ '"' :: rest)) size = some (text, rest) := by
  have hlen := length_le_escape text
  have hloop : copyLoop size ('"' :: (escape text ++ '"' :: rest)).length [] (escape text ++ '"' :: rest) =
      some ([] ++ text, rest) := copyLoop_escape rest (by simpa using hsize) (by simp; omega)
  rw [copyString, if_neg (by omega), List.tail_cons]
  exact hloop

end

end Glaber.Json
