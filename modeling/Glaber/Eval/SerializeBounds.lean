import Glaber.Eval.SerializeRoundTrip

namespace Glaber.Eval

open Glaber.Lib.Bytes

section

structure Access where
  offset : ℕ
  length : ℕ
  size : ℕ
deriving DecidableEq

def Access.Inside (access : Access) : Prop := access.offset + access.length ≤ access.size

structure Cursor where
  size : ℕ
  offset : ℕ
  log : List Access

variable (c : Cursor)

def Cursor.reserve (n : ℕ) : Cursor :=
  let size := reserveBuffer c.size c.offset n
  ⟨size, c.offset, c.log ++ [⟨c.offset, n, size⟩]⟩

def Cursor.write (n : ℕ) : Cursor := ⟨c.size, c.offset + n, c.log ++ [⟨c.offset, n, c.size⟩]⟩

def Cursor.writeCompact (value : ℕ) : Option Cursor :=
  (serializeUint31Compact value).map fun bytes => c.write bytes.length

def Cursor.serializeVariant (value : Variant UInt64) : Cursor :=
  let c := (c.reserve 1).write 1
  match value with
  | .ui64 _ => (c.reserve 8).write 8
  | .dbl _ => (c.reserve 8).write 8
  | .str text => (c.reserve (text.length + 1)).write (text.length + 1)
  | _ => c

def Cursor.serializeToken (token : Token UInt64) : Option Cursor := do
  let c := (c.reserve 23).write 4
  let c ← c.writeCompact token.opt.toNat
  let c ← c.writeCompact (token.loc.l % 2 ^ 32)
  let c ← c.writeCompact (token.loc.r % 2 ^ 32)
  return c.serializeVariant token.value

def Cursor.serializeTokens : Cursor → List (Token UInt64) → Option Cursor
  | c, [] => some c
  | c, token :: tokens => do Cursor.serializeTokens (← c.serializeToken token) tokens

def evalSerializeTrace (ctx : Context UInt64) : Option Cursor := do
  let c ← Cursor.writeCompact ⟨evalStaticBufferSize, 0, []⟩ ctx.stack.length
  c.serializeTokens ctx.stack

def WritesInside (ctx : Context UInt64) : Prop :=
  ∃ c, evalSerializeTrace ctx = some c ∧ ∀ access ∈ c.log, access.Inside

end

section

def Token.narrow (token : Token UInt64) : Token UInt64 :=
  { token with loc := ⟨token.loc.l % 2 ^ 32, token.loc.r % 2 ^ 32⟩ }

@[simp] lemma Token.narrow_value (token : Token UInt64) : token.narrow.value = token.value := rfl

variable (c : Cursor)

lemma writeCompact_eq {value : ℕ} (h : value < 2 ^ 31) :
    c.writeCompact value = some (c.write (compactBytes value).length) := by
  rw [Cursor.writeCompact, serializeUint31Compact_eq h, Option.map_some]

lemma writeCompact_none {value : ℕ} (h : 2 ^ 31 ≤ value) : c.writeCompact value = none := by
  rw [Cursor.writeCompact, serializeUint31Compact_none h, Option.map_none]

lemma serializeToken_numbered {c c' : Cursor} {token : Token UInt64} (h : c.serializeToken token = some c') :
    token.narrow.Numbered := by
  simp only [Cursor.serializeToken, Option.bind_eq_bind, Option.bind_eq_some_iff] at h
  obtain ⟨c₁, hopt, c₂, hleft, c₃, hright, -⟩ := h
  refine ⟨?_, ?_, ?_⟩
  all_goals
    by_contra hlarge
    simp_all [writeCompact_none, Token.narrow]

@[simp] lemma reserve_size (n : ℕ) : (c.reserve n).size = reserveBuffer c.size c.offset n := rfl
@[simp] lemma reserve_offset (n : ℕ) : (c.reserve n).offset = c.offset := rfl
@[simp] lemma write_size (n : ℕ) : (c.write n).size = c.size := rfl
@[simp] lemma write_offset (n : ℕ) : (c.write n).offset = c.offset + n := rfl

def Cursor.Safe : Prop := ∀ access ∈ c.log, access.Inside

lemma reserve_safe (n : ℕ) : (c.reserve n).Safe ↔ c.Safe ∧ c.offset + n ≤ reserveBuffer c.size c.offset n := by
  simp only [Cursor.Safe, Cursor.reserve, List.forall_mem_append, List.forall_mem_singleton]
  rfl

lemma write_safe (n : ℕ) : (c.write n).Safe ↔ c.Safe ∧ c.offset + n ≤ c.size := by
  simp only [Cursor.Safe, Cursor.write, List.forall_mem_append, List.forall_mem_singleton]
  rfl

lemma reserve_write_safe (n : ℕ) :
    ((c.reserve n).write n).Safe ↔ c.Safe ∧ c.offset + n ≤ reserveBuffer c.size c.offset n := by
  rw [write_safe, reserve_safe]
  exact and_iff_left_of_imp fun h => h.2

lemma serializeVariant_cursor {c : Cursor} (h : c.offset + 1 ≤ c.size) (value : Variant UInt64) :
    let rest := (variantBytes value).length - 1
    let size := reserveBuffer c.size (c.offset + 1) rest
    (c.serializeVariant value).size = size ∧ (c.serializeVariant value).offset = c.offset + (variantBytes value).length ∧
      ((c.serializeVariant value).Safe ↔ c.Safe ∧ c.offset + 1 + rest ≤ size) := by
  have hsize : reserveBuffer c.size c.offset 1 = c.size := if_pos h
  have htype : ((c.reserve 1).write 1).Safe ↔ c.Safe := by
    rw [reserve_write_safe, hsize]
    exact and_iff_left h
  have hpayload : ∀ n, ((((c.reserve 1).write 1).reserve n).write n).Safe ↔
      c.Safe ∧ c.offset + 1 + n ≤ reserveBuffer c.size (c.offset + 1) n := by
    intro n
    rw [reserve_write_safe, htype, write_size, write_offset, reserve_size, reserve_offset, hsize]
  have hempty : reserveBuffer c.size (c.offset + 1) 0 = c.size := if_pos h
  have hplain : (variantBytes value).length = 1 → c.serializeVariant value = (c.reserve 1).write 1 →
      (c.serializeVariant value).size = reserveBuffer c.size (c.offset + 1) ((variantBytes value).length - 1) ∧
        (c.serializeVariant value).offset = c.offset + (variantBytes value).length ∧
        ((c.serializeVariant value).Safe ↔ c.Safe ∧ c.offset + 1 + ((variantBytes value).length - 1) ≤
          reserveBuffer c.size (c.offset + 1) ((variantBytes value).length - 1)) := by
    intro hlen hc
    rw [hc, hlen, htype, Nat.sub_self, hempty]
    exact ⟨hsize, rfl, (and_iff_left h).symm⟩
  cases value with
  | ui64 n =>
    refine ⟨?_, rfl, hpayload 8⟩
    simp only [Cursor.serializeVariant, write_size, reserve_size, write_offset, reserve_offset, hsize]
    rfl
  | dbl bits =>
    refine ⟨?_, rfl, hpayload 8⟩
    simp only [Cursor.serializeVariant, write_size, reserve_size, write_offset, reserve_offset, hsize]
    rfl
  | str text =>
    have hlen : (variantBytes (.str text)).length = text.length + 2 := by simp [variantBytes]
    rw [hlen]
    refine ⟨?_, ?_, hpayload (text.length + 1)⟩
    · simp only [Cursor.serializeVariant, write_size, reserve_size, write_offset, reserve_offset, hsize]
      rfl
    · simp only [Cursor.serializeVariant, write_offset, reserve_offset]
      omega
  | _ => exact hplain rfl rfl

lemma serializeToken_cursor {c : Cursor} (hs : evalStaticBufferSize ≤ c.size) (ho : c.offset ≤ c.size)
    {token : Token UInt64} (ht : token.narrow.Numbered) :
    ∃ c', c.serializeToken token = some c' ∧ c'.size = sizeAfter c.size c.offset token.narrow ∧
      c'.offset = c.offset + (tokenBytes token.narrow).length ∧
      (c'.Safe ↔ c.Safe ∧ StringFits c.size c.offset token.narrow) := by
  have hopt : 1 ≤ (compactBytes token.opt.toNat).length ∧ _ := compactBytes_length ht.opt
  have hleft := compactBytes_length ht.left
  have hright := compactBytes_length ht.right
  have hhead := headBytes_length ht
  have hroom := reserveBuffer_small hs ho (n := 23) (by omega)
  set head : Cursor := ((((c.reserve 23).write 4).write (compactBytes token.opt.toNat).length).write
    (compactBytes token.narrow.loc.l).length).write (compactBytes token.narrow.loc.r).length with hdef
  have hsize : head.size = reserveBuffer c.size c.offset 23 := rfl
  have hlength : (headBytes token.narrow).length = 4 + (compactBytes token.opt.toNat).length +
      (compactBytes token.narrow.loc.l).length + (compactBytes token.narrow.loc.r).length := by
    simp only [headBytes, List.length_append, encodeWord_length]
    rw [show token.narrow.opt = token.opt from rfl]
    omega
  have hoffset : head.offset = c.offset + (headBytes token.narrow).length := by
    simp only [hlength, hdef, write_offset, reserve_offset]
    omega
  have hhere : head.offset + 1 ≤ head.size := by omega
  have hsafe : head.Safe ↔ c.Safe := by
    rw [hdef, write_safe, write_safe, write_safe, write_safe, reserve_safe]
    simp only [write_size, write_offset, reserve_size, reserve_offset]
    constructor
    · intro h
      exact h.1.1.1.1.1
    · intro h
      exact ⟨⟨⟨⟨⟨h, hroom⟩, by omega⟩, by omega⟩, by omega⟩, by omega⟩
  obtain ⟨hsize', hoffset', hsafe'⟩ := serializeVariant_cursor hhere token.value
  refine ⟨head.serializeVariant token.value, ?_, ?_, ?_, ?_⟩
  · have hleft := writeCompact_eq ((((c.reserve 23).write 4).write (compactBytes token.opt.toNat).length)) ht.left
    have hright := writeCompact_eq (((((c.reserve 23).write 4).write (compactBytes token.opt.toNat).length).write
      (compactBytes token.narrow.loc.l).length)) ht.right
    rw [Cursor.serializeToken, writeCompact_eq ((c.reserve 23).write 4) (show token.opt.toNat < 2 ^ 31 from ht.opt)]
    simp only [Token.narrow] at hleft hright hdef
    simp only [Option.bind_eq_bind, Option.bind_some, hleft, hright, hdef]
    rfl
  · rw [hsize', hsize, hoffset]
    rfl
  · rw [hoffset', hoffset]
    simp only [tokenBytes, List.length_append, Token.narrow_value]
    omega
  · rw [hsafe', hsafe, StringFits_iff hs ho ht, hsize, hoffset]
    rfl

lemma writeCompact_log {c c' : Cursor} {value : ℕ} (h : c.writeCompact value = some c') : c.log <+: c'.log := by
  rw [Cursor.writeCompact, Option.map_eq_some_iff] at h
  obtain ⟨bytes, -, rfl⟩ := h
  exact List.prefix_append _ _

lemma serializeVariant_log (value : Variant UInt64) : c.log <+: (c.serializeVariant value).log := by
  have htype : c.log <+: ((c.reserve 1).write 1).log := (List.prefix_append _ _).trans (List.prefix_append _ _)
  cases value with
  | ui64 n => exact htype.trans ((List.prefix_append _ _).trans (List.prefix_append _ _))
  | dbl bits => exact htype.trans ((List.prefix_append _ _).trans (List.prefix_append _ _))
  | str text => exact htype.trans ((List.prefix_append _ _).trans (List.prefix_append _ _))
  | _ => exact htype

lemma serializeToken_log {c c' : Cursor} {token : Token UInt64} (h : c.serializeToken token = some c') :
    c.log <+: c'.log := by
  simp only [Cursor.serializeToken, Option.bind_eq_bind, Option.bind_eq_some_iff] at h
  obtain ⟨c₁, hopt, c₂, hleft, c₃, hright, hvalue⟩ := h
  have hhead : c.log <+: ((c.reserve 23).write 4).log := (List.prefix_append _ _).trans (List.prefix_append _ _)
  have hnumbers := (hhead.trans (writeCompact_log hopt)).trans ((writeCompact_log hleft).trans (writeCompact_log hright))
  rw [← Option.some.inj hvalue]
  exact hnumbers.trans (serializeVariant_log c₃ token.value)

lemma serializeTokens_log {c c' : Cursor} {tokens : List (Token UInt64)} (h : c.serializeTokens tokens = some c') :
    c.log <+: c'.log := by
  induction tokens generalizing c with
  | nil => exact Option.some.inj h ▸ List.prefix_rfl
  | cons token tokens ih =>
    rw [Cursor.serializeTokens, Option.bind_eq_bind, Option.bind_eq_some_iff] at h
    obtain ⟨c₁, htoken, h⟩ := h
    exact (serializeToken_log htoken).trans (ih h)

lemma Cursor.Safe.of_prefix {c c' : Cursor} (h : c'.Safe) (hlog : c.log <+: c'.log) : c.Safe :=
  fun access haccess => h access (hlog.subset haccess)

lemma serializeTokens_numbered {c c' : Cursor} {tokens : List (Token UInt64)} (h : c.serializeTokens tokens = some c') :
    ∀ token ∈ tokens, token.narrow.Numbered := by
  induction tokens generalizing c with
  | nil => simp
  | cons token tokens ih =>
    rw [Cursor.serializeTokens, Option.bind_eq_bind, Option.bind_eq_some_iff] at h
    obtain ⟨c₁, htoken, h⟩ := h
    exact List.forall_mem_cons.2 ⟨serializeToken_numbered htoken, ih h⟩

lemma serializeTokens_cursor (tokens : List (Token UInt64)) {c : Cursor} (hs : evalStaticBufferSize ≤ c.size)
    (ho : c.offset ≤ c.size) (hsafe : c.Safe) :
    (∃ c', c.serializeTokens tokens = some c' ∧ c'.Safe) ↔
      (∀ token ∈ tokens, token.narrow.Numbered) ∧ StringsFit c.size c.offset (tokens.map Token.narrow) := by
  induction tokens generalizing c with
  | nil => exact ⟨fun _ => ⟨by simp, trivial⟩, fun _ => ⟨c, rfl, hsafe⟩⟩
  | cons token tokens ih =>
    have hstep : token.narrow.Numbered → StringFits c.size c.offset token.narrow →
        ∃ c₁, c.serializeToken token = some c₁ ∧ ((∃ c', c₁.serializeTokens tokens = some c' ∧ c'.Safe) ↔
          (∀ token ∈ tokens, token.narrow.Numbered) ∧ StringsFit (sizeAfter c.size c.offset token.narrow)
            (c.offset + (tokenBytes token.narrow).length) (tokens.map Token.narrow)) := by
      intro ht hfits
      obtain ⟨c₁, htoken, hsize, hoffset, hafter⟩ := serializeToken_cursor hs ho ht
      have hgrown : evalStaticBufferSize ≤ c₁.size := by
        rw [hsize]
        exact le_trans hs (le_trans (le_reserveBuffer _ _ 23) (le_reserveBuffer _ _ _))
      have hwithin : c₁.offset ≤ c₁.size := by
        have hvalue := variantBytes_length token.narrow.value
        rw [StringFits_iff hs ho ht] at hfits
        rw [hsize, hoffset, tokenBytes, List.length_append]
        omega
      refine ⟨c₁, htoken, ?_⟩
      rw [ih hgrown hwithin (hafter.2 ⟨hsafe, hfits⟩), hsize, hoffset]
    constructor
    · rintro ⟨c', h, hend⟩
      have hnumbers := serializeTokens_numbered h
      have ht := hnumbers token List.mem_cons_self
      rw [Cursor.serializeTokens, Option.bind_eq_bind, Option.bind_eq_some_iff] at h
      obtain ⟨c₁, htoken, h⟩ := h
      obtain ⟨c₂, htoken', -, -, hafter⟩ := serializeToken_cursor hs ho ht
      obtain rfl : c₁ = c₂ := Option.some.inj (htoken.symm.trans htoken')
      have hfits := (hafter.1 (hend.of_prefix (serializeTokens_log h))).2
      obtain ⟨c₃, htoken', hrest⟩ := hstep ht hfits
      obtain rfl : c₁ = c₃ := Option.some.inj (htoken.symm.trans htoken')
      exact ⟨hnumbers, hfits, (hrest.1 ⟨c', h, hend⟩).2⟩
    · rintro ⟨hnumbers, hfits, hstrings⟩
      obtain ⟨ht, htokens⟩ := List.forall_mem_cons.1 hnumbers
      obtain ⟨c₁, htoken, hrest⟩ := hstep ht hfits
      obtain ⟨c', h, hend⟩ := hrest.2 ⟨htokens, hstrings⟩
      refine ⟨c', ?_, hend⟩
      rw [Cursor.serializeTokens, htoken]
      exact h

end

structure Context.Numbered (ctx : Context UInt64) : Prop where
  tokens : ctx.stack.length < 2 ^ 31
  numbered : ∀ token ∈ ctx.stack, token.narrow.Numbered

theorem serializer_writes_inside_iff (ctx : Context UInt64) :
    WritesInside ctx ↔ ctx.Numbered ∧ BufferHolds (ctx.stack.map Token.narrow) := by
  by_cases hcount : ctx.stack.length < 2 ^ 31
  · have hlen := compactBytes_length hcount
    have hstart : evalSerializeTrace ctx =
        ((⟨evalStaticBufferSize, 0, []⟩ : Cursor).write (compactBytes ctx.stack.length).length).serializeTokens ctx.stack := by
      rw [evalSerializeTrace, writeCompact_eq _ hcount]
      rfl
    have hfirst : ((⟨evalStaticBufferSize, 0, []⟩ : Cursor).write (compactBytes ctx.stack.length).length).Safe := by
      rw [write_safe]
      refine ⟨by simp [Cursor.Safe], ?_⟩
      show 0 + (compactBytes ctx.stack.length).length ≤ 4096
      omega
    have hwithin : 0 + (compactBytes ctx.stack.length).length ≤ evalStaticBufferSize := by
      rw [evalStaticBufferSize]
      omega
    have hrun := serializeTokens_cursor ctx.stack (c := (⟨evalStaticBufferSize, 0, []⟩ : Cursor).write
      (compactBytes ctx.stack.length).length) le_rfl hwithin hfirst
    rw [WritesInside, hstart]
    refine hrun.trans ?_
    rw [BufferHolds, List.length_map, write_size, write_offset, Nat.zero_add]
    constructor
    · rintro ⟨hnumbers, hstrings⟩
      exact ⟨⟨hcount, hnumbers⟩, hstrings⟩
    · rintro ⟨hnumbers, hstrings⟩
      exact ⟨hnumbers.numbered, hstrings⟩
  · constructor
    · rintro ⟨c, htrace, -⟩
      rw [evalSerializeTrace, writeCompact_none _ (not_lt.1 hcount)] at htrace
      exact absurd htrace (by simp)
    · rintro ⟨hnumbers, -⟩
      exact absurd hnumbers.tokens hcount

theorem long_message_written_outside : ¬ WritesInside (evalSetException (List.replicate 10000 'a')) := by
  intro hinside
  have hfits := ((serializer_writes_inside_iff _).1 hinside).2.1
  simp only [evalSetException, Token.narrow, StringFits, List.length_replicate, List.map_cons, List.map_nil] at hfits
  rw [reserveBuffer] at hfits
  have hhead : reserveBuffer evalStaticBufferSize (compactBytes 2).length 23 = 4096 := by decide
  simp only [List.length_cons, List.length_nil, hhead] at hfits
  split_ifs at hfits
  all_goals omega

end Glaber.Eval
