import Mathlib.Data.List.Basic
import Mathlib.Tactic

/-! Byte memories: block writes, the blocks a memory holds, four-byte little-endian signed integers
and little-endian words of any width. -/

namespace Glaber.Lib.Bytes

abbrev Memory := ℕ → UInt8

def write (data : Memory) (off : ℕ) (bytes : List UInt8) : Memory :=
  fun k => if off ≤ k then (bytes[k - off]?).getD (data k) else data k

def Holds (data : Memory) (off : ℕ) (bytes : List UInt8) : Prop :=
  ∀ k b, bytes[k]? = some b → data (off + k) = b

def encodeInt (n : ℕ) : List UInt8 :=
  [UInt8.ofNat n, UInt8.ofNat (n / 256), UInt8.ofNat (n / 65536), UInt8.ofNat (n / 16777216)]

def decodeInt (b₀ b₁ b₂ b₃ : UInt8) : ℤ :=
  let n := b₀.toNat + 256 * b₁.toNat + 65536 * b₂.toNat + 16777216 * b₃.toNat
  if n < 2147483648 then n else n - 4294967296

def readInt (data : Memory) (off : ℕ) : ℤ :=
  decodeInt (data off) (data (off + 1)) (data (off + 2)) (data (off + 3))

def encodeWord : ℕ → ℕ → List UInt8
  | 0, _ => []
  | w + 1, n => UInt8.ofNat n :: encodeWord w (n / 256)

def decodeWord : List UInt8 → ℕ
  | [] => 0
  | b :: bytes => b.toNat + 256 * decodeWord bytes

@[simp] lemma encodeWord_length (w n : ℕ) : (encodeWord w n).length = w := by
  induction w generalizing n with
  | zero => rfl
  | succ w ih => rw [encodeWord, List.length_cons, ih]

lemma decodeWord_encodeWord (w n : ℕ) : decodeWord (encodeWord w n) = n % 256 ^ w := by
  induction w generalizing n with
  | zero => rw [encodeWord, decodeWord, pow_zero, Nat.mod_one]
  | succ w ih =>
    rw [encodeWord, decodeWord, ih, UInt8.toNat_ofNat', pow_succ' 256 w]
    exact (Nat.mod_mul).symm

lemma decodeWord_lt (bytes : List UInt8) : decodeWord bytes < 256 ^ bytes.length := by
  induction bytes with
  | nil => simp [decodeWord]
  | cons b bytes ih =>
    have := UInt8.toNat_lt b
    rw [decodeWord, List.length_cons, pow_succ]
    omega

section

variable {data data' : Memory} {off off' : ℕ} {bytes bytes' : List UInt8}

lemma write_outside {k : ℕ} (h : k < off ∨ off + bytes.length ≤ k) : write data off bytes k = data k := by
  rw [write]
  split_ifs with hk
  · rw [List.getElem?_eq_none (by omega), Option.getD_none]
  · rfl

lemma holds_write (data : Memory) (off : ℕ) (bytes : List UInt8) : Holds (write data off bytes) off bytes := by
  intro k b hb
  rw [write, if_pos (by omega), Nat.add_sub_cancel_left, hb, Option.getD_some]

lemma write_nil (data : Memory) (off : ℕ) : write data off [] = data :=
  funext fun _ => write_outside (by simp; omega)

lemma write_over (data : Memory) (off : ℕ) {bytes lost bytes' : List UInt8} (h : lost.length ≤ bytes'.length) :
    write (write data off (bytes ++ lost)) (off + bytes.length) bytes' = write data off (bytes ++ bytes') := by
  funext k
  obtain hlt | hge := Nat.lt_or_ge k (off + bytes.length)
  · rw [write_outside (.inl hlt), write, write]
    split_ifs with hk
    · rw [List.getElem?_append_left (by omega), List.getElem?_append_left (by omega)]
    · rfl
  · have hright (ys : List UInt8) : (bytes ++ ys)[k - off]? = ys[k - (off + bytes.length)]? := by
      rw [List.getElem?_append_right (by omega), Nat.sub_sub]
    obtain hin | hout := Nat.lt_or_ge k (off + bytes.length + bytes'.length)
    · rw [write, if_pos hge, write, write, if_pos (by omega), if_pos (by omega), hright, hright,
        List.getElem?_eq_getElem (by omega), Option.getD_some, Option.getD_some]
    · rw [write_outside (.inr hout), write_outside (.inr (by rw [List.length_append]; omega)),
        write_outside (.inr (by rw [List.length_append]; omega))]

lemma write_append (data : Memory) (off : ℕ) (bytes bytes' : List UInt8) :
    write (write data off bytes) (off + bytes.length) bytes' = write data off (bytes ++ bytes') := by
  have h := @write_over data off bytes [] bytes' (Nat.zero_le _)
  rwa [List.append_nil] at h

lemma Holds.congr (h : Holds data off bytes) (hd : ∀ k, off ≤ k → k < off + bytes.length → data' k = data k) :
    Holds data' off bytes := by
  intro k b hb
  have hk := (List.getElem?_eq_some_iff.mp hb).1
  rw [hd _ (by omega) (by omega)]
  exact h k b hb

lemma Holds.drop (h : Holds data off bytes) (n : ℕ) :
    Holds data (off + n) (bytes.drop n) := by
  intro k b hb
  rw [List.getElem?_drop] at hb
  rw [Nat.add_assoc]
  exact h _ _ hb

lemma Holds.take (h : Holds data off bytes) (n : ℕ) : Holds data off (bytes.take n) := by
  intro k b hb
  rw [List.getElem?_take] at hb
  split_ifs at hb
  exact h _ _ hb

lemma Holds.shift (h : Holds data off bytes) :
    Holds (fun k => data (off + k)) 0 bytes := by
  intro k b hb
  simp only [Nat.zero_add]
  exact h k b hb

lemma readInt_congr (hd : ∀ k, off ≤ k → k < off + 4 → data' k = data k) : readInt data' off = readInt data off := by
  simp only [readInt, hd off (by omega) (by omega), hd (off + 1) (by omega) (by omega),
    hd (off + 2) (by omega) (by omega), hd (off + 3) (by omega) (by omega)]

lemma decodeInt_encodeInt {n : ℕ} (hn : n < 2 ^ 31) :
    decodeInt (UInt8.ofNat n) (UInt8.ofNat (n / 256)) (UInt8.ofNat (n / 65536)) (UInt8.ofNat (n / 16777216)) = n := by
  have hsum : n % 256 + 256 * (n / 256 % 256) + 65536 * (n / 65536 % 256) + 16777216 * (n / 16777216 % 256) = n := by
    omega
  simp only [decodeInt, UInt8.toNat_ofNat', Nat.reducePow, hsum]
  exact if_pos hn

lemma readInt_write {n : ℕ} (hn : n < 2 ^ 31) (data : Memory) (off : ℕ) :
    readInt (write data off (encodeInt n)) off = n := by
  have h := holds_write data off (encodeInt n)
  have h0 := h 0 _ rfl
  have h1 := h 1 _ rfl
  have h2 := h 2 _ rfl
  have h3 := h 3 _ rfl
  rw [readInt, ← decodeInt_encodeInt hn]
  simp only [Nat.add_zero] at h0
  rw [h0, h1, h2, h3]

end

end Glaber.Lib.Bytes

/-! Codes whose letters are told apart by their first element: every other element of a letter continues it. -/

namespace Glaber.Lib.Letters

variable {β : Type} {continues : β → Bool}

def Letter (continues : β → Bool) (w : List β) : Prop :=
  ∃ b t, w = b :: t ∧ continues b = false ∧ ∀ c ∈ t, continues c = true

def next (continues : β → Bool) (text : List β) : List β := text.tail.dropWhile continues

lemma Letter.ne_nil {w : List β} (h : Letter continues w) : w ≠ [] := by
  obtain ⟨b, t, rfl, -⟩ := h
  exact List.cons_ne_nil b t

lemma head_flatten {ws : List (List β)} (h : ∀ w ∈ ws, Letter continues w) :
    ∀ b ∈ ws.flatten.head?, continues b = false := by
  cases ws with
  | nil => simp
  | cons w ws =>
    obtain ⟨b, t, rfl, hb, -⟩ := h w List.mem_cons_self
    intro c hc
    obtain rfl : b = c := by simpa using hc
    exact hb

lemma countP_flatten {ws : List (List β)} (h : ∀ w ∈ ws, Letter continues w) :
    ws.flatten.countP (fun b => !continues b) = ws.length := by
  induction ws with
  | nil => rfl
  | cons w ws ih =>
    obtain ⟨b, t, rfl, hb, ht⟩ := h w List.mem_cons_self
    have htail : t.countP (fun b => !continues b) = 0 := by
      rw [List.countP_eq_zero]
      intro c hc
      simp [ht c hc]
    rw [List.flatten_cons, List.countP_append, ih fun w hw => h w (List.mem_cons_of_mem _ hw)]
    simp [hb, htail, Nat.add_comm]

lemma length_le_flatten {ws : List (List β)} (h : ∀ w ∈ ws, Letter continues w) : ws.length ≤ ws.flatten.length := by
  rw [← countP_flatten h]
  exact List.countP_le_length

end Glaber.Lib.Letters
