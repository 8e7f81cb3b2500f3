import Glaber.Eval.Balance

namespace Glaber.Eval

open Lib.Results (ok_of_bind)

variable {D : Type} {S : Scanners} {p q : Parser D} {token : Token D} {ops stack moved rest read : List (Token D)} {pos : ℕ}
  {extra : ℤ}

section

inductive Phase where
  | surplus (n : ℕ)
  | owing (first : Option TokenType)
  | broken
deriving DecidableEq

structure Scan where
  prev : TokenType
  opens : List Bool
  phase : Phase

def initialScan : Scan := ⟨classSeparator, [], .surplus 0⟩

def scanOpens (prev : TokenType) (opens : List Bool) (type : TokenType) : List Bool :=
  if type = tokenGroupOpen then decide (prev = tokenFunction) :: opens
  else if type = tokenGroupClose then opens.tail
  else opens

def takeValue : ℕ → Phase
  | 0 => .owing none
  | n + 1 => .surplus n

def waitFor (type : TokenType) : Option TokenType → Phase
  | none => .owing (some type)
  | some first => if priority first ≤ priority type then .broken else .owing (some first)

def scanPhase (prev : TokenType) (opens : List Bool) (type : TokenType) : Phase → Phase
  | .surplus n =>
    if type = tokenGroupClose then
      if opens = [] then .broken
      else if prev = tokenGroupOpen ∧ opens.head? = some false then takeValue n
      else .surplus n
    else if type = tokenComma ∧ true ∉ opens then .surplus (n + 1)
    else .surplus n
  | .owing first =>
    if type = tokenGroupClose then if opens = [] then .broken else .owing first
    else if type = tokenComma ∧ true ∉ opens then if opens = [] then .broken else .surplus 0
    else if type ∈ binaryTypes ∧ opens = [] then waitFor type first
    else .owing first
  | .broken => .broken

def scanToken (s : Scan) (token : Token D) : Scan where
  prev := token.type
  opens := scanOpens s.prev s.opens token.type
  phase := scanPhase s.prev s.opens token.type s.phase

def SurplusFree (tokens : List (Token D)) : Prop := (tokens.foldl scanToken initialScan).phase = .surplus 0

end

section

lemma opensOf_group {group : Token D} (hg : group.type = tokenGroupOpen) :
    opensOf (group :: ops) = (ops.head?.any fun below => below.type = tokenFunction) :: opensOf ops := by
  rw [opensOf, if_pos hg]

lemma opensOf_other {op : Token D} (hne : op.type ≠ tokenGroupOpen) : opensOf (op :: ops) = opensOf ops := by
  rw [opensOf, if_neg hne]

lemma any_function_iff : (ops.head?.any fun below => below.type = tokenFunction) = true ↔
    ∃ top ∈ ops.head?, top.type = tokenFunction := by
  cases ops.head? <;> simp

lemma opensOf_plain {group : Token D} (hg : group.type = tokenGroupOpen)
    (htop : ∀ top ∈ ops.head?, top.type ≠ tokenFunction) : opensOf (group :: ops) = false :: opensOf ops := by
  rw [opensOf_group hg]
  congr 1
  rw [← Bool.not_eq_true, any_function_iff]
  rintro ⟨top, hm, hf⟩
  exact htop top hm hf

lemma opensOf_call {group func : Token D} (hg : group.type = tokenGroupOpen) (hf : func.type = tokenFunction) :
    opensOf (group :: func :: ops) = true :: opensOf ops := by
  rw [opensOf_group hg, opensOf_other (by rw [hf]; decide)]
  simp [hf]

lemma Step.opens (hc : Consistent p pos) (hs : Step p pos token q) :
    opensOf q.ops = scanOpens p.lastTokenType (opensOf p.ops) token.type := by
  have hplain : ∀ type ∈ tokenComma :: tokenFunction :: (operandTypes ++ operatorTypes),
      type ≠ tokenGroupOpen ∧ type ≠ tokenGroupClose := by decide
  have hsame : token.type ∈ tokenComma :: tokenFunction :: (operandTypes ++ operatorTypes) →
      opensOf q.ops = opensOf p.ops → opensOf q.ops = scanOpens p.lastTokenType (opensOf p.ops) token.type := by
    intro ht he
    obtain ⟨hopen, hclose⟩ := hplain _ ht
    rw [scanOpens, if_neg hopen, if_neg hclose, he]
  have hclosed : token.type = tokenGroupClose → opensOf q.ops = (opensOf p.ops).tail →
      opensOf q.ops = scanOpens p.lastTokenType (opensOf p.ops) token.type := by
    intro ht he
    rw [scanOpens, ht, if_neg (by decide), if_pos rfl, he]
  have hmoves := hs.moves
  generalize q.stack = stack', q.ops = ops' at hmoves hsame hclosed ⊢
  cases hmoves with
  | openGroup ht hl =>
    rw [scanOpens, if_pos ht, opensOf_group ht]
    congr 1
    rw [Bool.eq_iff_iff, any_function_iff, decide_eq_true_iff]
    constructor
    · rintro ⟨top, hm, hf⟩
      exact (hc.call top hm hf).1
    · intro hlast
      obtain ⟨top, below, hops, htype⟩ := hc.top (by rw [hlast]; decide)
      exact ⟨top, by rw [hops]; rfl, htype.trans hlast⟩
  | openCall ht hl =>
    apply hsame (by rw [ht]; decide)
    rw [opensOf_other (by rw [ht]; decide)]
  | comma ht hl hne hops hmoved hrest =>
    apply hsame (by rw [ht]; decide)
    rw [hops, opensOf_operators hmoved]
  | closeStray ht hmoved more =>
    apply hclosed ht
    rw [hmoved.opens]
    rfl
  | closeEmpty ht hl hops hg =>
    apply hclosed ht
    rw [hops, opensOf_plain hg (by rintro _ ⟨⟩)]
    rfl
  | closeEmptyCall ht hl hops hg hf =>
    apply hclosed ht
    rw [hops, opensOf_call hg hf, List.tail_cons]
  | closeGroup ht hl hops hmoved hg hbelow =>
    apply hclosed ht
    rw [hops, opensOf_operators hmoved, opensOf_plain hg hbelow, List.tail_cons]
  | closeCall ht hl hops hmoved hg hf =>
    apply hclosed ht
    rw [hops, opensOf_operators hmoved, opensOf_call hg hf, List.tail_cons]
  | operand ht hl =>
    exact hsame (List.mem_cons_of_mem _ (List.mem_cons_of_mem _ (List.mem_append_left _ ht))) rfl
  | unary ht hl =>
    have hop : token.type ∈ operatorTypes := List.mem_append_left _ ht
    apply hsame (List.mem_cons_of_mem _ (List.mem_cons_of_mem _ (List.mem_append_right _ hop)))
    rw [opensOf_other (operatorTypes_classes _ hop).2.1]
  | binary ht hl hops hmoved hle hrest =>
    have hop : token.type ∈ operatorTypes := List.mem_append_right _ ht
    apply hsame (List.mem_cons_of_mem _ (List.mem_cons_of_mem _ (List.mem_append_right _ hop)))
    rw [opensOf_other (operatorTypes_classes _ hop).2.1, hops, opensOf_operators hmoved]

end

section

structure Alive (p : Parser D) (pos : ℕ) (read : List (Token D)) (extra : ℤ) : Prop where
  types : ∀ t ∈ p.stack, t.type ∈ stackTypes
  runs : Runs p.stack
  holds : Holds p.ops p.stack (valueOf p.lastTokenType) extra
  balanced : PrefixBalanced read
  parens : level read = (opensOf p.ops).length
  size : p.stack.length + p.ops.length ≤ pos

lemma Alive.next {extra' : ℤ} (hc : Consistent p pos) (hs : Step p pos token q) (ha : Alive p pos read extra)
    (hstray : token.type = tokenGroupClose → opensOf p.ops ≠ []) (htypes : ∀ t ∈ q.stack, t.type ∈ stackTypes)
    (hruns : Runs q.stack) (hholds : Holds q.ops q.stack (valueOf token.type) extra')
    (hsize : q.stack.length + q.ops.length ≤ p.stack.length + p.ops.length + 1) :
    Alive q (token.loc.r + 1) (read ++ [token]) extra' := by
  have hopens := hs.opens hc
  have hlevel : level (read ++ [token]) = (opensOf q.ops).length := by
    rw [level_snoc, ha.parens, hopens, scanOpens, nesting]
    by_cases hopen : token.type = tokenGroupOpen
    · rw [if_pos hopen, if_pos hopen, List.length_cons]
      push_cast
      rfl
    rw [if_neg hopen, if_neg hopen]
    by_cases hclose : token.type = tokenGroupClose
    · have hpos := List.length_pos_of_ne_nil (hstray hclose)
      rw [if_pos hclose, if_pos hclose, List.length_tail]
      omega
    · rw [if_neg hclose, if_neg hclose, add_zero]
  refine ⟨htypes, hruns, by rwa [hs.last], (prefixBalanced_snoc read token).mpr ⟨ha.balanced, ?_⟩, hlevel, ?_⟩
  · rw [hlevel]
    exact Int.natCast_nonneg _
  · have hsmall := ha.size
    have hprog := hs.progress
    omega

lemma Alive.small (hs : Step p pos token q) (ha : Alive p pos read extra) : p.stack.length + p.ops.length < 2 ^ 31 := by
  have hsize := ha.size
  have hprog := hs.progress
  have hbound := hs.bound
  omega

lemma Consistent.last_mem (hc : Consistent p pos) : p.lastTokenType ∈ classSeparator :: textTypes := by
  rcases hc.last with ⟨hlast, -⟩ | hlast
  · rw [hlast]
    exact List.mem_cons_self
  · exact List.mem_cons_of_mem _ hlast

lemma valueOf_before : ∀ type ∈ classSeparator :: textTypes, has type (beforeOperand ||| classFunction) = true →
    valueOf type = 0 := by
  decide

lemma valueOf_beforeOperand : ∀ type ∈ classSeparator :: textTypes, has type beforeOperand = true → valueOf type = 0 := by
  decide

lemma valueOf_beforeOperator : ∀ type ∈ classSeparator :: textTypes, has type beforeOperator = true → valueOf type = 1 := by
  decide

lemma value_or_gap : ∀ type ∈ classSeparator :: textTypes, has type classOperand = true ∨ has type classSeparator = true →
    has type classOperand = true ∧ has type classSeparator = false ∨
      has type classOperand = false ∧ has type classSeparator = true := by
  decide

lemma length_completed (last : TokenType) (stack : List (Token D)) : (completed last stack).length ≤ stack.length + 1 := by
  rw [completed]
  split_ifs
  · rw [List.length_append, List.length_singleton]
  · exact Nat.le_succ _

lemma Holds.waiting {op : Token D} (hf : has op.type classFunction = false) (h2 : has op.type classOperator2 = false)
    {above : ℤ} (h : Holds ops stack above extra) : Holds (op :: ops) stack above extra := by
  rw [Holds, hf, if_neg Bool.false_ne_true, h2, if_neg Bool.false_ne_true, add_zero]
  exact h

lemma Holds.group {group : Token D} (hg : group.type = tokenGroupOpen) {above : ℤ} :
    Holds (group :: ops) stack above extra ↔ Holds ops stack above extra := by
  rw [Holds, hg, if_neg (by decide), if_neg (by decide), add_zero]

lemma hasCall_func {func : Token D} (hf : func.type = tokenFunction) (below : List (Token D)) :
    hasCall (func :: below) = true := by
  rw [hasCall, List.any_cons, hf, show has tokenFunction classFunction = true by decide, Bool.true_or]

variable (hc : Consistent p pos) (hs : Step p pos token q) (ha : Alive p pos read extra)
include hc hs ha

lemma Alive.openGroup (ht : token.type = tokenGroupOpen) (hl : has p.lastTokenType (beforeOperand ||| classFunction) = true)
    (hstack : q.stack = p.stack) (hops : q.ops = token :: p.ops) : Alive q (token.loc.r + 1) (read ++ [token]) extra := by
  have hholds := ha.holds
  rw [valueOf_before _ hc.last_mem hl] at hholds
  refine ha.next hc hs (fun he => ?_) (hstack ▸ ha.types) (hstack ▸ ha.runs) ?_ ?_
  · rw [ht] at he
    exact absurd he (by decide)
  · rw [hstack, hops, Holds.group ht, ht]
    exact hholds
  · rw [hstack, hops, List.length_cons]
    omega

lemma Alive.openCall (ht : token.type = tokenFunction) (hl : has p.lastTokenType beforeOperand = true)
    (hstack : q.stack = p.stack) (hops : q.ops = token :: p.ops) : Alive q (token.loc.r + 1) (read ++ [token]) extra := by
  have hsmall := ha.small hs
  have hholds := ha.holds
  have hopt : token.opt.toNat = p.stack.length := by
    rw [(hs.function ht).1, UInt32.toNat_ofNat', Nat.mod_eq_of_lt (by omega)]
  rw [valueOf_beforeOperand _ hc.last_mem hl] at hholds
  refine ha.next hc hs (fun he => ?_) (hstack ▸ ha.types) (hstack ▸ ha.runs) ?_ ?_
  · rw [ht] at he
    exact absurd he (by decide)
  · rw [hstack, hops, Holds, ht, if_pos (by decide), hopt, List.drop_length, List.take_length]
    exact ⟨le_rfl, le_rfl, hholds⟩
  · rw [hstack, hops, List.length_cons]
    omega

lemma Alive.operand (ht : token.type ∈ operandTypes) (hl : has p.lastTokenType beforeOperand = true)
    (hstack : q.stack = p.stack ++ [token]) (hops : q.ops = p.ops) :
    Alive q (token.loc.r + 1) (read ++ [token]) extra := by
  have hmem : token.type ∈ tokenArgNull :: operandTypes := List.mem_cons_of_mem _ ht
  have hholds := ha.holds.append [token]
  rw [valueOf_beforeOperand _ hc.last_mem hl, zero_add, depthOf_singleton, contribution_operand hmem] at hholds
  refine ha.next hc hs (fun he => absurd he (operandTypes_classes _ ht).2.2.2.1) ?_ ?_ ?_ ?_
  · rw [hstack]
    exact types_snoc ha.types (operands_classes _ hmem).1
  · rw [hstack]
    exact ha.runs.operand ha.types hmem
  · rw [hstack, hops, valueOf, if_pos (operands_classes _ hmem).2.2.1]
    exact hholds
  · rw [hstack, hops, List.length_append, List.length_singleton]
    omega

lemma Alive.unary (ht : token.type ∈ unaryTypes) (hl : has p.lastTokenType beforeOperand = true)
    (hstack : q.stack = p.stack) (hops : q.ops = token :: p.ops) : Alive q (token.loc.r + 1) (read ++ [token]) extra := by
  have hop : token.type ∈ operatorTypes := List.mem_append_left _ ht
  have hholds := ha.holds
  rw [valueOf_beforeOperand _ hc.last_mem hl] at hholds
  refine ha.next hc hs (fun he => absurd he (operatorTypes_addToken _ hop).2.2.2.1) (hstack ▸ ha.types)
    (hstack ▸ ha.runs) ?_ ?_
  · rw [hstack, hops, valueOf, (operatorTypes_cases _ hop).2.1, if_neg Bool.false_ne_true]
    exact hholds.waiting (operatorTypes_cases _ hop).1 (unaryTypes_classes _ ht).1
  · rw [hstack, hops, List.length_cons]
    omega

lemma Alive.binary (ht : token.type ∈ binaryTypes) (hl : has p.lastTokenType beforeOperator = true)
    (hsplit : p.ops = moved ++ rest) (hmoved : Operators moved) (he : moved ≠ [] → Enough rest extra)
    (hstack : q.stack = p.stack ++ moved) (hops : q.ops = token :: rest) :
    Alive q (token.loc.r + 1) (read ++ [token]) extra := by
  have hop : token.type ∈ operatorTypes := List.mem_append_right _ ht
  have hholds := ha.holds
  rw [valueOf_beforeOperator _ hc.last_mem hl, hsplit] at hholds
  obtain ⟨hruns, hleft⟩ := hholds.move he hmoved ha.types ha.runs
  refine ha.next hc hs (fun he => absurd he (operatorTypes_addToken _ hop).2.2.2.1)
    (hstack ▸ types_moved ha.types hmoved) (hstack ▸ hruns) ?_ ?_
  · rw [hstack, hops, valueOf, (operatorTypes_cases _ hop).2.1, if_neg Bool.false_ne_true, Holds,
      (operatorTypes_cases _ hop).1, if_neg Bool.false_ne_true, (binaryTypes_classes _ ht).1, if_pos rfl, zero_add]
    exact hleft
  · rw [hstack, hops, hsplit, List.length_cons, List.length_append, List.length_append]
    omega

omit hs in
lemma Alive.move {below : List (Token D)}
    (hl : has p.lastTokenType classOperand = true ∨ has p.lastTokenType classSeparator = true)
    (hsplit : p.ops = moved ++ below) (hmoved : Operators moved) (he : Enough below extra) :
    Runs (completed p.lastTokenType p.stack ++ moved) ∧
      Holds below (completed p.lastTokenType p.stack ++ moved) 1 extra := by
  have hholds := holds_completed (value_or_gap _ hc.last_mem hl) ha.holds
  rw [hsplit] at hholds
  exact hholds.move (fun _ => he) hmoved (types_completed p.lastTokenType ha.types) (runs_completed ha.types ha.runs)

lemma Alive.comma (ht : token.type = tokenComma)
    (hl : has p.lastTokenType classOperand = true ∨ has p.lastTokenType classSeparator = true)
    (hsplit : p.ops = moved ++ rest) (hmoved : Operators moved) (hrest : StopsAt rest) (he : Enough rest extra)
    (hstack : q.stack = completed p.lastTokenType p.stack ++ moved) (hops : q.ops = rest) :
    Alive q (token.loc.r + 1) (read ++ [token]) (extra + if true ∈ opensOf p.ops then 0 else 1) := by
  have hlen := length_completed p.lastTokenType p.stack
  have htypes := types_completed p.lastTokenType ha.types
  obtain ⟨hruns, hleft⟩ := ha.move hc hl hsplit hmoved he
  have hcall := mem_opensOf (hsplit ▸ hc.shape).of_append hrest.no_call
  refine ha.next hc hs (fun he => ?_) (hstack ▸ types_moved htypes hmoved) (hstack ▸ hruns) ?_ ?_
  · rw [ht] at he
    exact absurd he (by decide)
  · rw [hstack, hops, hsplit, opensOf_operators hmoved, ht, show valueOf tokenComma = 0 by decide]
    by_cases hin : hasCall rest = true
    · rw [if_pos (hcall.mpr hin), add_zero]
      exact hleft.anti hin Int.one_nonneg
    · rw [if_neg fun hmem => hin (hcall.mp hmem)]
      rw [holds_iff_of_no_call ((Bool.not_eq_true _).mp hin)] at hleft ⊢
      omega
  · rw [hstack, hops, hsplit, List.length_append, List.length_append]
    omega

lemma Alive.closeEmpty {group : Token D} (ht : token.type = tokenGroupClose) (hl : p.lastTokenType = tokenGroupOpen)
    (hsplit : p.ops = [group]) (hg : group.type = tokenGroupOpen) (hstack : q.stack = p.stack) (hops : q.ops = []) :
    Alive q (token.loc.r + 1) (read ++ [token]) (extra - 1) := by
  have hholds := ha.holds
  rw [hsplit, hl, Holds.group hg] at hholds
  refine ha.next hc hs (fun _ => ?_) (hstack ▸ ha.types) (hstack ▸ ha.runs) ?_ ?_
  · rw [hsplit, opensOf_group hg]
    exact List.cons_ne_nil _ _
  · rw [hstack, hops, ht, show valueOf tokenGroupClose = 1 by decide, Holds]
    rw [show valueOf tokenGroupOpen = 0 by decide, Holds] at hholds
    omega
  · rw [hstack, hops, hsplit]
    exact Nat.le_succ_of_le (Nat.add_le_add_left (Nat.zero_le _) _)

lemma Alive.closeGroup {group : Token D} {below : List (Token D)} (ht : token.type = tokenGroupClose)
    (hl : has p.lastTokenType classOperand = true ∨ p.lastTokenType = tokenComma)
    (hsplit : p.ops = moved ++ group :: below) (hmoved : Operators moved) (hg : group.type = tokenGroupOpen)
    (he : Enough (group :: below) extra) (hstack : q.stack = completed p.lastTokenType p.stack ++ moved)
    (hops : q.ops = below) : Alive q (token.loc.r + 1) (read ++ [token]) extra := by
  have hlen := length_completed p.lastTokenType p.stack
  have htypes := types_completed p.lastTokenType ha.types
  have hgap : has p.lastTokenType classOperand = true ∨ has p.lastTokenType classSeparator = true :=
    hl.imp_right fun hcomma => by rw [hcomma]; decide
  obtain ⟨hruns, hleft⟩ := ha.move hc hgap hsplit hmoved he
  refine ha.next hc hs (fun _ => ?_) (hstack ▸ types_moved htypes hmoved) (hstack ▸ hruns) ?_ ?_
  · rw [hsplit, opensOf_operators hmoved, opensOf_group hg]
    exact List.cons_ne_nil _ _
  · rw [hstack, hops, ht, show valueOf tokenGroupClose = 1 by decide]
    exact (Holds.group hg).mp hleft
  · rw [hstack, hops, hsplit, List.length_append, List.length_append, List.length_cons]
    omega

lemma Alive.call {group func : Token D} {below full : List (Token D)} (ht : token.type = tokenGroupClose)
    (hsplit : p.ops = moved ++ group :: func :: below) (hmoved : Operators moved) (hg : group.type = tokenGroupOpen)
    (hf : func.type = tokenFunction) (htypes : ∀ t ∈ full, t.type ∈ stackTypes) (hruns : Runs full) {above : ℤ}
    (habove : 0 ≤ above) (hholds : Holds (func :: below) full above extra)
    (hlen : full.length ≤ p.stack.length + moved.length + 1) (hstack : q.stack = full ++ [called full func])
    (hops : q.ops = below) : Alive q (token.loc.r + 1) (read ++ [token]) extra := by
  have hsmall := ha.small hs
  rw [hsplit, List.length_append, List.length_cons, List.length_cons] at hsmall
  obtain ⟨hruns', hbelow⟩ := hholds.call hf (by omega) htypes hruns habove
  have hfunc : (called full func).type ∈ stackTypes := by
    rw [show (called full func).type = func.type from rfl, hf]
    exact List.mem_cons_self
  refine ha.next hc hs (fun _ => ?_) (hstack ▸ types_snoc htypes hfunc) (hstack ▸ hruns') ?_ ?_
  · rw [hsplit, opensOf_operators hmoved, opensOf_group hg]
    exact List.cons_ne_nil _ _
  · rw [hstack, hops, ht, show valueOf tokenGroupClose = 1 by decide]
    exact hbelow
  · rw [hstack, hops, hsplit, List.length_append, List.length_append, List.length_singleton, List.length_cons,
      List.length_cons]
    omega

lemma Alive.closeEmptyCall {group func : Token D} {below : List (Token D)} (ht : token.type = tokenGroupClose)
    (hsplit : p.ops = group :: func :: below) (hl : p.lastTokenType = tokenGroupOpen) (hg : group.type = tokenGroupOpen)
    (hf : func.type = tokenFunction) (hstack : q.stack = p.stack ++ [called p.stack func]) (hops : q.ops = below) :
    Alive q (token.loc.r + 1) (read ++ [token]) extra := by
  have hholds := ha.holds
  rw [hsplit, hl, Holds.group hg, show valueOf tokenGroupOpen = 0 by decide] at hholds
  have hsplit' : p.ops = [] ++ group :: func :: below := hsplit
  exact ha.call hc hs ht hsplit' (by simp [Operators]) hg hf ha.types ha.runs le_rfl hholds
    (Nat.le_succ _) hstack hops

lemma Alive.closeCall {group func : Token D} {below : List (Token D)} (ht : token.type = tokenGroupClose)
    (hl : has p.lastTokenType classOperand = true ∨ p.lastTokenType = tokenComma)
    (hsplit : p.ops = moved ++ group :: func :: below) (hmoved : Operators moved) (hg : group.type = tokenGroupOpen)
    (hf : func.type = tokenFunction)
    (hstack : q.stack = completed p.lastTokenType p.stack ++ moved ++
      [called (completed p.lastTokenType p.stack ++ moved) func])
    (hops : q.ops = below) : Alive q (token.loc.r + 1) (read ++ [token]) extra := by
  have hlen := length_completed p.lastTokenType p.stack
  have htypes := types_completed p.lastTokenType ha.types
  have hgap : has p.lastTokenType classOperand = true ∨ has p.lastTokenType classSeparator = true :=
    hl.imp_right fun hcomma => by rw [hcomma]; decide
  have he : Enough (group :: func :: below) extra := Enough.cons (.inl (hasCall_func hf below))
  obtain ⟨hruns, hleft⟩ := ha.move hc hgap hsplit hmoved he
  refine ha.call hc hs ht hsplit hmoved hg hf (types_moved htypes hmoved) hruns Int.one_nonneg ((Holds.group hg).mp hleft)
    ?_ hstack hops
  rw [List.length_append]
  omega

end

section

def BottomLe (first : TokenType) : List (Token D) → Prop
  | [] => True
  | op :: ops => (opensOf (op :: ops) = [] → priority op.type ≤ priority first) ∧ BottomLe first ops

structure Owes (first : TokenType) (ops : List (Token D)) : Prop where
  bottom : ∃ op, ops.getLast? = some op ∧ op.type = first
  binary : first ∈ binaryTypes
  le : BottomLe first ops

def Tracks (p : Parser D) (pos : ℕ) (read : List (Token D)) (s : Scan) : Prop :=
  match s.phase with
  | .surplus n => Alive p pos read n ∧ s.opens = opensOf p.ops ∧ s.prev = p.lastTokenType
  | .owing none => Alive p pos read (-1) ∧ s.opens = opensOf p.ops ∧ s.prev = p.lastTokenType ∧ p.ops = [] ∧ p.stack = [] ∧
      p.lastTokenType = tokenGroupClose
  | .owing (some first) => Alive p pos read (-1) ∧ s.opens = opensOf p.ops ∧ s.prev = p.lastTokenType ∧ Owes first p.ops
  | .broken => ¬PrefixBalanced read ∨ ¬Runs p.stack

variable {first : TokenType}

lemma BottomLe.of_append (h : BottomLe first (moved ++ rest)) : BottomLe first rest := by
  induction moved with
  | nil => exact h
  | cons op moved ih => exact ih h.2

lemma BottomLe.all (h : BottomLe first ops) (ho : opensOf ops = []) : ∀ op ∈ ops, priority op.type ≤ priority first := by
  induction ops with
  | nil => simp
  | cons op ops ih =>
    have hnone := opensOf_eq_nil.mp ho
    have hrest : opensOf ops = [] := opensOf_eq_nil.mpr fun t hm => hnone t (List.mem_cons_of_mem _ hm)
    intro t hm
    rcases List.mem_cons.mp hm with rfl | hm
    · exact h.1 ho
    · exact ih h.2 hrest t hm

lemma Owes.ne_nil (h : Owes first ops) : ops ≠ [] := by
  rintro rfl
  obtain ⟨op, hlast, -⟩ := h.bottom
  cases hlast

lemma Owes.suffix (h : Owes first (moved ++ rest)) (hne : rest ≠ []) : Owes first rest := by
  obtain ⟨op, hlast, htype⟩ := h.bottom
  rw [List.getLast?_append_of_ne_nil _ hne] at hlast
  exact ⟨⟨op, hlast, htype⟩, h.binary, h.le.of_append⟩

lemma Owes.below {group : Token D} (hg : group.type ∉ binaryTypes) (h : Owes first (group :: ops)) : Owes first ops := by
  have hne : ops ≠ [] := by
    rintro rfl
    obtain ⟨op, hlast, htype⟩ := h.bottom
    cases hlast
    exact hg (htype ▸ h.binary)
  exact Owes.suffix (List.singleton_append ▸ h) hne

lemma Owes.push {op : Token D} (h : Owes first ops) (hle : opensOf (op :: ops) = [] → priority op.type ≤ priority first) :
    Owes first (op :: ops) := by
  obtain ⟨b, hlast, htype⟩ := h.bottom
  refine ⟨⟨b, ?_, htype⟩, h.binary, hle, h.le⟩
  rw [← List.singleton_append, List.getLast?_append_of_ne_nil _ h.ne_nil, hlast]

lemma Owes.enough (h : Owes first ops) : Enough ops (-1) := by
  obtain ⟨op, hlast, htype⟩ := h.bottom
  right
  have hpos : 0 < binaries ops := by
    rw [binaries, List.countP_pos_iff]
    refine ⟨op, List.mem_of_getLast? hlast, ?_⟩
    rw [htype]
    exact (binaryTypes_classes _ h.binary).1
  omega

lemma Owes.underflow (h : Owes first ops) (hm : Operators ops) (ht : ∀ t ∈ stack, t.type ∈ stackTypes)
    (hr : Runs stack) (hholds : Holds ops stack 1 (-1)) : ¬Runs (stack ++ ops) := by
  obtain ⟨op, hlast, htype⟩ := h.bottom
  obtain ⟨front, rfl⟩ := List.getLast?_eq_some_iff.mp hlast
  obtain ⟨h2, h1⟩ := binaryTypes_classes _ h.binary
  have hfront : Operators front := fun t hmem => hm t (List.mem_append_left _ hmem)
  obtain ⟨hruns, hleft⟩ := hholds.move (fun _ => (h.suffix (List.cons_ne_nil _ _)).enough) hfront ht hr
  have hf : has op.type classFunction = false := (operatorTypes_cases _ (hm op (by simp))).1
  rw [Holds, hf, if_neg Bool.false_ne_true, htype, h2, if_pos rfl, Holds] at hleft
  obtain ⟨depth, hrun, hdepth⟩ := hruns.depth (types_moved ht hfront)
  rintro ⟨final, hfinal⟩
  rw [← List.append_assoc, runDepth_append, hrun, Option.bind_some, runDepth, stackEffect, htype, h1,
    if_neg Bool.false_ne_true, if_pos h2, if_pos (by omega)] at hfinal
  cases hfinal

lemma Moves.grows {stack' ops' : List (Token D)} {last : TokenType} (h : Moves last stack ops token stack' ops') :
    ∃ more, stack' = stack ++ more := by
  have hcompleted : ∃ more, completed last stack = stack ++ more := by
    rw [completed]
    split_ifs
    · exact ⟨_, rfl⟩
    · exact ⟨[], (List.append_nil _).symm⟩
  obtain ⟨more, hmore⟩ := hcompleted
  cases h with
  | openGroup => exact ⟨[], (List.append_nil _).symm⟩
  | openCall => exact ⟨[], (List.append_nil _).symm⟩
  | comma => exact ⟨_, by rw [hmore, List.append_assoc]⟩
  | closeStray => exact ⟨_, rfl⟩
  | closeEmpty => exact ⟨[], (List.append_nil _).symm⟩
  | closeEmptyCall => exact ⟨_, rfl⟩
  | closeGroup => exact ⟨_, by rw [hmore, List.append_assoc]⟩
  | closeCall => exact ⟨_, by rw [hmore, List.append_assoc, List.append_assoc]⟩
  | operand => exact ⟨_, rfl⟩
  | unary => exact ⟨[], (List.append_nil _).symm⟩
  | binary => exact ⟨_, rfl⟩

lemma tracks_broken {s : Scan} (hphase : s.phase = .broken) (h : ¬PrefixBalanced read ∨ ¬Runs p.stack) :
    Tracks p pos read s := by
  rw [Tracks, hphase]
  exact h

lemma Step.broken (hs : Step p pos token q) (h : ¬PrefixBalanced read ∨ ¬Runs p.stack) :
    ¬PrefixBalanced (read ++ [token]) ∨ ¬Runs q.stack := by
  rcases h with h | h
  · exact .inl fun hb => h ((prefixBalanced_snoc read token).mp hb).1
  · obtain ⟨more, hmore⟩ := hs.moves.grows
    rw [hmore]
    exact .inr (not_runs_append h more)

lemma Alive.stray (ha : Alive p pos read extra) (ht : token.type = tokenGroupClose) (ho : opensOf p.ops = []) :
    ¬PrefixBalanced (read ++ [token]) := by
  rw [prefixBalanced_snoc, level_snoc, ha.parens, ho, nesting, ht, if_neg (by decide), if_pos rfl]
  exact fun hand => absurd hand.2 (by decide)

lemma scanToken_phase (prev : TokenType) (opens : List Bool) (phase : Phase) (token : Token D) :
    (scanToken ⟨prev, opens, phase⟩ token).phase = scanPhase prev opens token.type phase :=
  rfl

lemma Runs.eq_nil (ht : ∀ t ∈ stack, t.type ∈ stackTypes) (hr : Runs stack) (hdepth : depthOf stack = 0) : stack = [] := by
  by_contra hne
  obtain ⟨depth, hrun, heq⟩ := hr.depth ht
  have hpos := runDepth_pos hne hrun
  omega

lemma scanPhase_surplus {prev type : TokenType} {opens : List Bool} {n : ℕ} (hclose : type ≠ tokenGroupClose)
    (hcomma : type ≠ tokenComma) : scanPhase prev opens type (.surplus n) = .surplus n := by
  rw [scanPhase, if_neg hclose, if_neg fun hand => hcomma hand.1]

lemma scanPhase_surplus_close {prev : TokenType} {opens : List Bool} {n : ℕ} (hne : opens ≠ [])
    (hplain : ¬(prev = tokenGroupOpen ∧ opens.head? = some false)) :
    scanPhase prev opens tokenGroupClose (.surplus n) = .surplus n := by
  rw [scanPhase, if_pos rfl, if_neg hne, if_neg hplain]

lemma scanPhase_owing {prev type : TokenType} {opens : List Bool} (hclose : type ≠ tokenGroupClose)
    (hcomma : type ≠ tokenComma) (hbinary : type ∉ binaryTypes) :
    scanPhase prev opens type (.owing (some first)) = .owing (some first) := by
  rw [scanPhase, if_neg hclose, if_neg fun hand => hcomma hand.1, if_neg fun hand => hbinary hand.1]

lemma scanPhase_owing_close {prev : TokenType} {opens : List Bool} (hne : opens ≠ []) :
    scanPhase prev opens tokenGroupClose (.owing (some first)) = .owing (some first) := by
  rw [scanPhase, if_pos rfl, if_neg hne]

lemma unary_le_binary : ∀ unary ∈ unaryTypes, ∀ binary ∈ binaryTypes, priority unary ≤ priority binary := by decide

lemma not_binary : ∀ type ∈ tokenGroupOpen :: tokenFunction :: (operandTypes ++ unaryTypes), type ≠ tokenGroupClose ∧
    type ≠ tokenComma ∧ type ∉ binaryTypes := by
  decide

lemma StopsAt.eq_nil (h : StopsAt rest) (ho : opensOf rest = []) : rest = [] := by
  rcases h with h | ⟨group, below, rfl, hg⟩
  · exact h
  · rw [opensOf_group hg] at ho
    cases ho

lemma BindsBelow.eq_nil (h : BindsBelow token rest) (ho : opensOf rest = [])
    (hle : ∀ op ∈ rest, priority op.type ≤ priority token.type) : rest = [] := by
  rcases h with h | ⟨op, below, rfl, hp⟩
  · exact h.eq_nil ho
  · exact absurd hp (UInt32.not_lt.mpr (hle op List.mem_cons_self))

lemma before_close_ne_open : ∀ type ∈ classSeparator :: textTypes, has type classOperand = true ∨ type = tokenComma →
    type ≠ tokenGroupOpen := by
  decide

section

variable (hc : Consistent p pos) (hs : Step p pos token q)
include hc hs

lemma tracks_surplus {n : ℕ} {phase : Phase} (ha : Alive q (token.loc.r + 1) (read ++ [token]) n)
    (hphase : scanPhase p.lastTokenType (opensOf p.ops) token.type phase = .surplus n) :
    Tracks q (token.loc.r + 1) (read ++ [token]) (scanToken ⟨p.lastTokenType, opensOf p.ops, phase⟩ token) := by
  rw [Tracks, show (scanToken ⟨p.lastTokenType, opensOf p.ops, phase⟩ token).phase = .surplus n from hphase]
  exact ⟨ha, (hs.opens hc).symm, hs.last.symm⟩

lemma tracks_owing {phase : Phase} (ha : Alive q (token.loc.r + 1) (read ++ [token]) (-1)) (ho : Owes first q.ops)
    (hphase : scanPhase p.lastTokenType (opensOf p.ops) token.type phase = .owing (some first)) :
    Tracks q (token.loc.r + 1) (read ++ [token]) (scanToken ⟨p.lastTokenType, opensOf p.ops, phase⟩ token) := by
  rw [Tracks, show (scanToken ⟨p.lastTokenType, opensOf p.ops, phase⟩ token).phase = .owing (some first) from hphase]
  exact ⟨ha, (hs.opens hc).symm, hs.last.symm, ho⟩

lemma Alive.surplus_step {n : ℕ} (ha : Alive p pos read n) :
    Tracks q (token.loc.r + 1) (read ++ [token]) (scanToken ⟨p.lastTokenType, opensOf p.ops, .surplus n⟩ token) := by
  have henough : ∀ rest : List (Token D), Enough rest n := fun rest => .inr (by omega)
  have hmoves := hs.moves
  generalize hstack : q.stack = stack', hops : q.ops = ops' at hmoves
  cases hmoves with
  | openGroup ht hl =>
    exact tracks_surplus hc hs (ha.openGroup hc hs ht hl hstack hops)
      (scanPhase_surplus (by rw [ht]; decide) (by rw [ht]; decide))
  | openCall ht hl =>
    exact tracks_surplus hc hs (ha.openCall hc hs ht hl hstack hops)
      (scanPhase_surplus (by rw [ht]; decide) (by rw [ht]; decide))
  | comma ht hl hne hsplit hmoved hrest =>
    have hnext := ha.comma hc hs ht hl hsplit hmoved hrest (henough _) hstack hops
    by_cases hin : true ∈ opensOf p.ops
    · rw [if_pos hin, add_zero] at hnext
      refine tracks_surplus hc hs hnext ?_
      rw [scanPhase, ht, if_neg (by decide), if_neg fun hand => hand.2 hin]
    · rw [if_neg hin] at hnext
      refine tracks_surplus (n := n + 1) hc hs hnext ?_
      rw [scanPhase, ht, if_neg (by decide), if_pos ⟨rfl, hin⟩]
  | closeStray ht hmoved more =>
    refine tracks_broken ?_ (.inl (ha.stray ht hmoved.opens))
    rw [scanToken_phase, scanPhase, if_pos ht, if_pos hmoved.opens]
  | closeEmpty ht hl hsplit hg =>
    have hnext := ha.closeEmpty hc hs ht hl hsplit hg hstack hops
    have ho : opensOf p.ops = [false] := by rw [hsplit, opensOf_plain hg (by rintro _ ⟨⟩)]; rfl
    have hphase : scanPhase p.lastTokenType (opensOf p.ops) token.type (.surplus n) = takeValue n := by
      rw [scanPhase, if_pos ht, ho, if_neg (List.cons_ne_nil _ _), if_pos ⟨hl, rfl⟩]
    cases n with
    | zero =>
      have hholds := ha.holds
      rw [hsplit, hl, Holds.group hg, show valueOf tokenGroupOpen = 0 by decide, Holds] at hholds
      have hnil := ha.runs.eq_nil ha.types hholds
      rw [Tracks, scanToken_phase, hphase]
      exact ⟨hnext, (hs.opens hc).symm, hs.last.symm, hops, hstack.trans hnil, hs.last.trans ht⟩
    | succ n =>
      push_cast at hnext
      rw [add_sub_cancel_right] at hnext
      exact tracks_surplus hc hs hnext hphase
  | closeEmptyCall ht hl hsplit hg hf =>
    refine tracks_surplus hc hs (ha.closeEmptyCall hc hs ht hsplit hl hg hf hstack hops) ?_
    rw [ht, hsplit, opensOf_call hg hf]
    exact scanPhase_surplus_close (List.cons_ne_nil _ _) fun hand => Bool.false_ne_true (Option.some.inj hand.2).symm
  | closeGroup ht hl hsplit hmoved hg hbelow =>
    refine tracks_surplus hc hs (ha.closeGroup hc hs ht hl hsplit hmoved hg (henough _) hstack hops) ?_
    rw [ht, hsplit, opensOf_operators hmoved, opensOf_group hg]
    exact scanPhase_surplus_close (List.cons_ne_nil _ _) fun hand => before_close_ne_open _ hc.last_mem hl hand.1
  | closeCall ht hl hsplit hmoved hg hf =>
    refine tracks_surplus hc hs (ha.closeCall hc hs ht hl hsplit hmoved hg hf hstack hops) ?_
    rw [ht, hsplit, opensOf_operators hmoved, opensOf_group hg]
    exact scanPhase_surplus_close (List.cons_ne_nil _ _) fun hand => before_close_ne_open _ hc.last_mem hl hand.1
  | operand ht hl =>
    obtain ⟨-, -, hcomma, hclose, -⟩ := operandTypes_classes _ ht
    exact tracks_surplus hc hs (ha.operand hc hs ht hl hstack hops) (scanPhase_surplus hclose hcomma)
  | unary ht hl =>
    obtain ⟨-, -, hcomma, hclose, -⟩ := operatorTypes_addToken _ (List.mem_append_left _ ht)
    exact tracks_surplus hc hs (ha.unary hc hs ht hl hstack hops) (scanPhase_surplus hclose hcomma)
  | binary ht hl hsplit hmoved hle hrest =>
    obtain ⟨-, -, hcomma, hclose, -⟩ := operatorTypes_addToken _ (List.mem_append_right _ ht)
    exact tracks_surplus hc hs (ha.binary hc hs ht hl hsplit hmoved (fun _ => henough _) hstack hops)
      (scanPhase_surplus hclose hcomma)

lemma Alive.empty_step (ha : Alive p pos read (-1)) (hnone : p.ops = []) (hl : p.lastTokenType = tokenGroupClose) :
    Tracks q (token.loc.r + 1) (read ++ [token]) (scanToken ⟨p.lastTokenType, opensOf p.ops, .owing none⟩ token) := by
  have hmoves := hs.moves
  rw [hnone, hl] at hmoves
  generalize hstack : q.stack = stack', hops : q.ops = ops' at hmoves
  cases hmoves with
  | openGroup ht hl => exact absurd hl (by decide)
  | openCall ht hl => exact absurd hl (by decide)
  | comma ht hl hne => exact absurd rfl hne
  | closeStray ht hmoved more =>
    have ho : opensOf p.ops = [] := by rw [hnone]; rfl
    refine tracks_broken ?_ (.inl (ha.stray ht ho))
    rw [scanToken_phase, scanPhase, if_pos ht, if_pos ho]
  | closeEmpty ht hl => exact absurd hl (by decide)
  | closeEmptyCall ht hl => exact absurd hl (by decide)
  | closeGroup ht hl hsplit => exact absurd hsplit.symm (List.append_ne_nil_of_right_ne_nil _ (List.cons_ne_nil _ _))
  | closeCall ht hl hsplit => exact absurd hsplit.symm (List.append_ne_nil_of_right_ne_nil _ (List.cons_ne_nil _ _))
  | operand ht hl => exact absurd hl (by decide)
  | unary ht hl => exact absurd hl (by decide)
  | binary ht hbefore hsplit hmoved hle hrest =>
    obtain ⟨rfl, rfl⟩ := List.nil_eq_append_iff.mp hsplit
    have hop : token.type ∈ operatorTypes := List.mem_append_right _ ht
    obtain ⟨hopen, -, hcomma, hclose, -⟩ := operatorTypes_addToken _ hop
    have hsplit' : p.ops = [] ++ [] := hnone
    have ho : Owes token.type q.ops := by
      rw [hops]
      exact ⟨⟨token, rfl, rfl⟩, ht, fun _ => UInt32.le_refl _, trivial⟩
    refine tracks_owing hc hs (ha.binary hc hs ht (hl ▸ hbefore) hsplit' hmoved (fun hne => absurd rfl hne) hstack hops)
      ho ?_
    rw [scanPhase, if_neg hclose, if_neg fun hand => hcomma hand.1, if_pos ⟨ht, by rw [hnone]; rfl⟩, waitFor]

lemma Alive.owing_comma (ha : Alive p pos read (-1)) (ho : Owes first p.ops) (ht : token.type = tokenComma)
    (hl : has p.lastTokenType classOperand = true ∨ has p.lastTokenType classSeparator = true)
    (hsplit : p.ops = moved ++ rest) (hmoved : Operators moved) (hrest : StopsAt rest)
    (hstack : q.stack = completed p.lastTokenType p.stack ++ moved) (hops : q.ops = rest) :
    Tracks q (token.loc.r + 1) (read ++ [token]) (scanToken ⟨p.lastTokenType, opensOf p.ops, .owing (some first)⟩ token) := by
  have hopens : opensOf p.ops = opensOf rest := by rw [hsplit, opensOf_operators hmoved]
  by_cases hnil : rest = []
  · -- the first operator is moved to a stack that lacks a value
    rw [hnil, List.append_nil] at hsplit
    have hholds := holds_completed (value_or_gap _ hc.last_mem hl) ha.holds
    have hunder := ho.underflow (hsplit ▸ hmoved) (types_completed p.lastTokenType ha.types)
      (runs_completed ha.types ha.runs) hholds
    have hnone : opensOf p.ops = [] := hopens.trans (hnil ▸ rfl)
    refine tracks_broken ?_ (.inr ?_)
    · rw [scanToken_phase, scanPhase, ht, if_neg (by decide), hnone, if_pos ⟨rfl, List.not_mem_nil⟩, if_pos rfl]
    · rwa [hstack, ← hsplit]
  have howes := (hsplit ▸ ho).suffix hnil
  have hnext := ha.comma hc hs ht hl hsplit hmoved hrest howes.enough hstack hops
  by_cases hin : true ∈ opensOf p.ops
  · rw [if_pos hin, add_zero] at hnext
    refine tracks_owing hc hs hnext (hops ▸ howes) ?_
    rw [scanPhase, ht, if_neg (by decide), if_neg fun hand => hand.2 hin, if_neg fun hand => absurd hand.1 (by decide)]
  · rw [if_neg hin] at hnext
    have hne : opensOf p.ops ≠ [] := by
      rw [hopens]
      exact fun he => hnil (hrest.eq_nil he)
    refine tracks_surplus (n := 0) hc hs hnext ?_
    rw [scanPhase, ht, if_neg (by decide), if_pos ⟨rfl, hin⟩, if_neg hne]

lemma Alive.owing_binary (ha : Alive p pos read (-1)) (ho : Owes first p.ops) (ht : token.type ∈ binaryTypes)
    (hl : has p.lastTokenType beforeOperator = true) (hsplit : p.ops = moved ++ rest) (hmoved : Operators moved)
    (hle : ∀ op ∈ moved, priority op.type ≤ priority token.type) (hrest : BindsBelow token rest)
    (hstack : q.stack = p.stack ++ moved) (hops : q.ops = token :: rest) :
    Tracks q (token.loc.r + 1) (read ++ [token]) (scanToken ⟨p.lastTokenType, opensOf p.ops, .owing (some first)⟩ token) := by
  have hop : token.type ∈ operatorTypes := List.mem_append_right _ ht
  obtain ⟨hopen, -, hcomma, hclose, -⟩ := operatorTypes_addToken _ hop
  have hopens : opensOf p.ops = opensOf rest := by rw [hsplit, opensOf_operators hmoved]
  have hphase : scanPhase p.lastTokenType (opensOf p.ops) token.type (.owing (some first)) =
      if opensOf p.ops = [] ∧ priority first ≤ priority token.type then .broken else .owing (some first) := by
    rw [scanPhase, if_neg hclose, if_neg fun hand => hcomma hand.1]
    by_cases hnone : opensOf p.ops = []
    · simp only [hnone, ht, and_self, true_and, if_true, waitFor]
    · rw [if_neg fun hand => hnone hand.2, if_neg fun hand => hnone hand.1]
  by_cases hbroken : opensOf p.ops = [] ∧ priority first ≤ priority token.type
  · have hall : ∀ op ∈ p.ops, priority op.type ≤ priority token.type :=
      fun op hm => UInt32.le_trans (ho.le.all hbroken.1 op hm) hbroken.2
    have hnil : rest = [] := hrest.eq_nil (hopens ▸ hbroken.1) fun op hm =>
      hall op (hsplit ▸ List.mem_append_right _ hm)
    rw [hnil, List.append_nil] at hsplit
    have hholds := ha.holds
    rw [valueOf_beforeOperator _ hc.last_mem hl] at hholds
    refine tracks_broken ?_ (.inr ?_)
    · rw [scanToken_phase, hphase, if_pos hbroken]
    · rw [hstack, ← hsplit]
      exact ho.underflow (hsplit ▸ hmoved) ha.types ha.runs hholds
  · rw [if_neg hbroken] at hphase
    have hne : rest ≠ [] := by
      rintro rfl
      rw [List.append_nil] at hsplit
      obtain ⟨op, hlast, htype⟩ := ho.bottom
      refine hbroken ⟨hopens.trans rfl, htype ▸ hle op ?_⟩
      rw [← hsplit]
      exact List.mem_of_getLast? hlast
    have howes := (hsplit ▸ ho).suffix hne
    refine tracks_owing hc hs (ha.binary hc hs ht hl hsplit hmoved (fun _ => howes.enough) hstack hops) ?_ hphase
    rw [hops]
    apply howes.push
    rw [opensOf_other hopen]
    intro hnone
    exact UInt32.le_of_lt (UInt32.not_le.mp fun hle => hbroken ⟨hopens.trans hnone, hle⟩)

lemma Alive.owing_step (ha : Alive p pos read (-1)) (ho : Owes first p.ops) :
    Tracks q (token.loc.r + 1) (read ++ [token]) (scanToken ⟨p.lastTokenType, opensOf p.ops, .owing (some first)⟩ token) := by
  have hmoves := hs.moves
  have hgroup : ∀ group : Token D, group.type = tokenGroupOpen → group.type ∉ binaryTypes := by
    intro group hg
    rw [hg]
    decide
  have hfunc : ∀ func : Token D, func.type = tokenFunction → func.type ∉ binaryTypes := by
    intro func hf
    rw [hf]
    decide
  generalize hstack : q.stack = stack', hops : q.ops = ops' at hmoves
  cases hmoves with
  | openGroup ht hl =>
    obtain ⟨hclose, hcomma, hbinary⟩ := not_binary token.type (by rw [ht]; decide)
    refine tracks_owing hc hs (ha.openGroup hc hs ht hl hstack hops) ?_ (scanPhase_owing hclose hcomma hbinary)
    rw [hops]
    apply ho.push
    rw [opensOf_group ht]
    exact nofun
  | openCall ht hl =>
    obtain ⟨hclose, hcomma, hbinary⟩ := not_binary token.type (by rw [ht]; decide)
    refine tracks_owing hc hs (ha.openCall hc hs ht hl hstack hops) ?_ (scanPhase_owing hclose hcomma hbinary)
    rw [hops]
    apply ho.push
    intro _
    rw [ht, show priority tokenFunction = 0 by decide]
    exact UInt32.zero_le
  | comma ht hl hne hsplit hmoved hrest => exact ha.owing_comma hc hs ho ht hl hsplit hmoved hrest hstack hops
  | closeStray ht hmoved more =>
    refine tracks_broken ?_ (.inl (ha.stray ht hmoved.opens))
    rw [scanToken_phase, scanPhase, if_pos ht, if_pos hmoved.opens]
  | closeEmpty ht hl hsplit hg => exact absurd rfl ((hsplit ▸ ho).below (hgroup _ hg)).ne_nil
  | closeEmptyCall ht hl hsplit hg hf =>
    have howes := ((hsplit ▸ ho).below (hgroup _ hg)).below (hfunc _ hf)
    refine tracks_owing hc hs (ha.closeEmptyCall hc hs ht hsplit hl hg hf hstack hops) (hops ▸ howes) ?_
    rw [ht, hsplit, opensOf_call hg hf]
    exact scanPhase_owing_close (List.cons_ne_nil _ _)
  | closeGroup ht hl hsplit hmoved hg hbelow =>
    have howes := (hsplit ▸ ho).suffix (List.cons_ne_nil _ _)
    refine tracks_owing hc hs (ha.closeGroup hc hs ht hl hsplit hmoved hg howes.enough hstack hops)
      (hops ▸ howes.below (hgroup _ hg)) ?_
    rw [ht, hsplit, opensOf_operators hmoved, opensOf_group hg]
    exact scanPhase_owing_close (List.cons_ne_nil _ _)
  | closeCall ht hl hsplit hmoved hg hf =>
    have howes := (((hsplit ▸ ho).suffix (List.cons_ne_nil _ _)).below (hgroup _ hg)).below (hfunc _ hf)
    refine tracks_owing hc hs (ha.closeCall hc hs ht hl hsplit hmoved hg hf hstack hops) (hops ▸ howes) ?_
    rw [ht, hsplit, opensOf_operators hmoved, opensOf_call hg hf]
    exact scanPhase_owing_close (List.cons_ne_nil _ _)
  | operand ht hl =>
    obtain ⟨hclose, hcomma, hbinary⟩ := not_binary token.type
      (List.mem_cons_of_mem _ (List.mem_cons_of_mem _ (List.mem_append_left _ ht)))
    exact tracks_owing hc hs (ha.operand hc hs ht hl hstack hops) (hops ▸ ho) (scanPhase_owing hclose hcomma hbinary)
  | unary ht hl =>
    obtain ⟨hclose, hcomma, hbinary⟩ := not_binary token.type
      (List.mem_cons_of_mem _ (List.mem_cons_of_mem _ (List.mem_append_right _ ht)))
    refine tracks_owing hc hs (ha.unary hc hs ht hl hstack hops) ?_ (scanPhase_owing hclose hcomma hbinary)
    rw [hops]
    exact ho.push fun _ => unary_le_binary _ ht _ ho.binary
  | binary ht hl hsplit hmoved hle hrest => exact ha.owing_binary hc hs ho ht hl hsplit hmoved hle hrest hstack hops

lemma Tracks.step {s : Scan} (h : Tracks p pos read s) :
    Tracks q (token.loc.r + 1) (read ++ [token]) (scanToken s token) := by
  obtain ⟨prev, opens, phase⟩ := s
  match phase with
  | .surplus n =>
    obtain ⟨ha, rfl, rfl⟩ := h
    exact ha.surplus_step hc hs
  | .owing none =>
    obtain ⟨ha, rfl, rfl, hops, -, hl⟩ := h
    exact ha.empty_step hc hs hops hl
  | .owing (some first) =>
    obtain ⟨ha, rfl, rfl, ho⟩ := h
    exact ha.owing_step hc hs ho
  | .broken => exact tracks_broken rfl (hs.broken h)

end

lemma initial_consistent {expression : List Char} {rules : Rules} (hrules : PlainRules rules) :
    Consistent (initialParser expression rules : Parser D) 0 where
  rules := hrules
  shape := trivial
  call := nofun
  last := .inl ⟨rfl, rfl, rfl⟩
  top h := absurd h (show classSeparator ∉ waitingTypes by decide)

lemma initial_tracks (expression : List Char) (rules : Rules) :
    Tracks (initialParser expression rules : Parser D) 0 [] initialScan := by
  refine ⟨⟨nofun, ⟨0, rfl⟩, ?_, ?_, rfl, le_rfl⟩, rfl, rfl⟩
  · rw [show valueOf (initialParser expression rules : Parser D).lastTokenType = 0 from
      show valueOf classSeparator = 0 by decide]
    rfl
  · intro k
    rw [List.take_nil]
    exact le_rfl

lemma parseLoop_tracks {fuel : ℕ} {tokens : List (Token D)} (hc : Consistent p pos) {s : Scan} (h : Tracks p pos read s)
    (hloop : parseLoop S fuel p pos = .ok (q, tokens)) :
    ∃ last, Consistent q last ∧ Tracks q last (read ++ tokens) (tokens.foldl scanToken s) ∧
      parseStep S q last = .ok none := by
  induction fuel generalizing p pos read s tokens with
  | zero => cases hloop
  | succ fuel ih =>
    obtain ⟨step, hstep, hloop⟩ := ok_of_bind hloop
    cases step with
    | none =>
      cases hloop
      exact ⟨pos, hc, by rwa [List.append_nil], hstep⟩
    | some turn =>
      obtain ⟨token, next⟩ := turn
      obtain ⟨⟨final, more⟩, hmore, hloop⟩ := ok_of_bind hloop
      cases hloop
      have hs := parseStep_step hc hstep
      obtain ⟨last, hlast, htracks, hend⟩ := ih (hs.consistent hc) (h.step hc hs) hmore
      refine ⟨last, hlast, ?_, hend⟩
      rwa [List.append_assoc, List.singleton_append] at htracks

lemma parseLoop_fuel {fuel : ℕ} (more : ℕ) (hc : Consistent p pos) (hfuel : p.expression.length ≤ pos + fuel) :
    parseLoop S (fuel + 1 + more) p pos = parseLoop S (fuel + 1) p pos := by
  induction fuel generalizing p pos with
  | zero =>
    have hend : p.char pos = '\x00' := by
      rw [Nat.add_zero] at hfuel
      rw [Parser.char, List.getD_eq_getElem?_getD, List.getElem?_eq_none hfuel]
      rfl
    have hstep : parseStep S p pos = .ok none := by rw [parseStep, if_pos hend]
    rw [Nat.zero_add, Nat.add_comm, parseLoop, parseLoop, hstep]
    rfl
  | succ fuel ih =>
    rw [show fuel + 1 + 1 + more = fuel + 1 + more + 1 by omega, parseLoop, parseLoop]
    cases hstep : parseStep S p pos with
    | error e => rfl
    | ok step =>
      cases step with
      | none => rfl
      | some turn =>
        obtain ⟨token, q⟩ := turn
        have hs := parseStep_step hc hstep
        have hprog := hs.progress
        have hrest := ih (hs.consistent hc) (by rw [hs.expression]; omega)
        change (parseLoop S (fuel + 1 + more) q (token.loc.r + 1) >>= _) = _
        rw [hrest]
        rfl

end

section

lemma parseStep_end (hc : Consistent p pos) (h : parseStep S p pos = .ok none) :
    ∀ top ∈ p.ops.head?, top.type ≠ tokenFunction := by
  intro top htop hf
  have hchar := (hc.call top htop hf).2
  rw [parseStep, hchar, if_neg (by decide)] at h
  obtain ⟨⟨token, r⟩, hread, h⟩ := ok_of_bind h
  simp only at h
  have htype := evalParseToken_paren hchar hread
  rw [htype, if_neg (by decide)] at h
  obtain ⟨checked, -, h⟩ := ok_of_bind h
  obtain ⟨added, -, h⟩ := ok_of_bind h
  cases h

lemma flushOps_spec (hrules : PlainRules p.rules) (hs : Shape ops) (htop : ∀ top ∈ ops.head?, top.type ≠ tokenFunction)
    (h : flushOps ops p = .ok q) : Operators ops ∧ q.stack = p.stack ++ ops := by
  induction ops generalizing p with
  | nil =>
    cases h
    exact ⟨by simp [Operators], (List.append_nil _).symm⟩
  | cons op ops ih =>
    rw [flushOps] at h
    split_ifs at h with hg
    have hop := hs.operator (htop op rfl) hg
    obtain ⟨next, hnext, h⟩ := ok_of_bind h
    rw [evalAppendOperator_operator hrules hop] at hnext
    cases hnext
    obtain ⟨hops, hstack⟩ := ih (p := { p with stack := p.stack ++ [op] }) hrules hs.2.2 (hs.2.1 hg) h
    refine ⟨?_, by rw [hstack, List.append_assoc, List.singleton_append]⟩
    intro t hm
    rcases List.mem_cons.mp hm with rfl | hm
    · exact hop
    · exact hops t hm

structure Ends (p q : Parser D) : Prop where
  operators : Operators p.ops
  stack : q.stack = p.stack ++ p.ops
  nonempty : q.stack ≠ []
  value : valueOf p.lastTokenType = 1

lemma value_at_end : ∀ type ∈ textTypes, has type classOperator = false → type ≠ tokenComma → type ∉ waitingTypes →
    valueOf type = 1 := by
  decide

lemma finish_ends (hc : Consistent p pos) (htop : ∀ top ∈ p.ops.head?, top.type ≠ tokenFunction)
    (h : finish p = .ok q) : Ends p q := by
  rw [finish] at h
  split_ifs at h with hoperator hcomma
  obtain ⟨flushed, hflush, h⟩ := ok_of_bind h
  obtain ⟨hops, hstack⟩ := flushOps_spec hc.rules hc.shape htop hflush
  have hq : q = flushed ∧ flushed.stack ≠ [] := by
    split at h
    · cases h
    · rename_i token hone
      split_ifs at h
      cases h
      exact ⟨rfl, by rw [hone]; exact List.cons_ne_nil _ _⟩
    · rename_i hnil hone
      cases h
      exact ⟨rfl, hnil⟩
  obtain ⟨rfl, hne⟩ := hq
  refine ⟨hops, hstack, hne, ?_⟩
  have htext : p.lastTokenType ∈ textTypes := by
    rcases hc.last with ⟨-, hnil, hempty⟩ | htext
    · rw [hstack, hnil, hempty] at hne
      exact absurd rfl hne
    · exact htext
  refine value_at_end _ htext ((Bool.not_eq_true _).mp hoperator) hcomma fun hwait => ?_
  obtain ⟨top, below, hsplit, htype⟩ := hc.top hwait
  have hop := hops top (hsplit ▸ List.mem_cons_self)
  rw [htype] at hop
  exact hoperator (operatorTypes_addToken _ hop).2.2.2.2.2

structure WellFormed (tokens : List (Token D)) (stack : List (Token D)) : Prop where
  prefixes : PrefixBalanced tokens
  balanced : level tokens = 0
  one : runDepth stack 0 = some 1

lemma Alive.final {n : ℕ} (ha : Alive p pos read n) (hends : Ends p q) :
    PrefixBalanced read ∧ level read = 0 ∧ runDepth q.stack 0 = some (1 + n) := by
  have hholds := ha.holds
  have hsplit := (List.append_nil p.ops).symm
  rw [hends.value, hsplit] at hholds
  obtain ⟨hruns, hleft⟩ := hholds.move (fun _ => .inr (by simp [binaries])) hends.operators ha.types ha.runs
  obtain ⟨depth, hrun, hdepth⟩ := hruns.depth (types_moved ha.types hends.operators)
  rw [Holds] at hleft
  refine ⟨ha.balanced, by rw [ha.parens, hends.operators.opens]; rfl, ?_⟩
  rw [hends.stack, hrun, show depth = 1 + n by omega]

lemma Tracks.wellFormed_iff {s : Scan} (h : Tracks p pos read s) (hends : Ends p q) :
    WellFormed read q.stack ↔ s.phase = .surplus 0 := by
  obtain ⟨prev, opens, phase⟩ := s
  match phase with
  | .surplus n =>
    obtain ⟨hprefixes, hbalanced, hrun⟩ := h.1.final hends
    constructor
    · intro hwf
      have hn : n = 0 := by
        have hone := hrun.symm.trans hwf.one
        injection hone with hone
        omega
      rw [hn]
    · intro hphase
      injection hphase with hn
      exact ⟨hprefixes, hbalanced, by rw [hrun, hn]⟩
  | .owing none =>
    obtain ⟨-, -, -, hops, hstack, -⟩ := h
    exact absurd (by rw [hends.stack, hops, hstack]; rfl) hends.nonempty
  | .owing (some first) =>
    obtain ⟨ha, -, -, ho⟩ := h
    refine ⟨fun hwf => ?_, nofun⟩
    have hholds := ha.holds
    rw [hends.value] at hholds
    refine absurd ⟨1, ?_⟩ (ho.underflow hends.operators ha.types ha.runs hholds)
    rw [← hends.stack]
    exact hwf.one
  | .broken =>
    refine ⟨fun hwf => ?_, nofun⟩
    rcases h with h | h
    · exact absurd hwf.prefixes h
    · refine absurd ⟨1, ?_⟩ (not_runs_append h p.ops)
      rw [← hends.stack]
      exact hwf.one

end

section

def textTokens (S : Scanners) (expression : List Char) (rules : Rules) : List (Token D) :=
  match parseWithTokens S expression rules with
  | .ok (_, tokens) => tokens
  | .error _ => []

theorem accepted_well_formed_iff {expression : List Char} {rules : Rules} {ctx : Context D}
    (hrules : rules = parseTriggerExpression ∨ rules = triggerExpression)
    (h : evalParseExpression S expression rules = .ok ctx) :
    WellFormed (textTokens S expression rules) ctx.stack ↔ SurplusFree (textTokens (D := D) S expression rules) := by
  obtain ⟨⟨parsed, tokens⟩, hparse, h⟩ := ok_of_bind h
  cases h
  have htokens : textTokens S expression rules = tokens := by rw [textTokens, hparse]
  rw [htokens]
  obtain ⟨⟨p, read⟩, hloop, hparse⟩ := ok_of_bind hparse
  obtain ⟨q, hfinish, hparse⟩ := ok_of_bind hparse
  cases hparse
  have hplain := plainRules_of_trigger hrules
  obtain ⟨last, hc, htracks, hend⟩ := parseLoop_tracks (initial_consistent hplain) (initial_tracks expression rules) hloop
  exact htracks.wellFormed_iff (finish_ends hc (parseStep_end hc hend) hfinish)

def noMacros : Scanners where
  plainMacro _ := none
  userMacro _ := none
  lldMacro _ := none
  nestedMacro _ := none
  query _ := 0
  overflows _ _ := false

theorem call_of_two_well_formed : ∃ ctx : Context ℕ,
    evalParseExpression noMacros ['f', '(', '1', ',', '2', ')'] parseTriggerExpression = .ok ctx ∧
    WellFormed (textTokens noMacros ['f', '(', '1', ',', '2', ')'] parseTriggerExpression) ctx.stack :=
  ⟨_, rfl, (accepted_well_formed_iff (.inl rfl) rfl).mpr rfl⟩

theorem stray_parenthesis_accepted : ∃ ctx : Context ℕ,
    evalParseExpression noMacros ['1', '+', '2', ')'] parseTriggerExpression = .ok ctx ∧
    ¬WellFormed (textTokens noMacros ['1', '+', '2', ')'] parseTriggerExpression) ctx.stack := by
  refine ⟨_, rfl, fun h => ?_⟩
  have hfour : level ((textTokens (D := ℕ) noMacros ['1', '+', '2', ')'] parseTriggerExpression).take 4) = -1 := rfl
  have hprefix := h.prefixes 4
  rw [hfour] at hprefix
  exact absurd hprefix (by decide)

end

end Glaber.Eval
