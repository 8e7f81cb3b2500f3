import Glaber.Eval.Depth
import Glaber.Eval.Moves

namespace Glaber.Eval

variable {D : Type} {p q : Parser D} {token op : Token D} {ops stack moved rest : List (Token D)} {pos : ℕ}
  {last : TokenType} {above extra : ℤ}

section

def nesting (token : Token D) : ℤ :=
  if token.type = tokenGroupOpen then 1 else if token.type = tokenGroupClose then -1 else 0

def level (tokens : List (Token D)) : ℤ := (tokens.map nesting).sum

def PrefixBalanced (tokens : List (Token D)) : Prop := ∀ k, 0 ≤ level (tokens.take k)

lemma level_snoc (tokens : List (Token D)) (token : Token D) : level (tokens ++ [token]) = level tokens + nesting token := by
  rw [level, List.map_append, List.sum_append, List.map_singleton, List.sum_singleton]
  rfl

lemma prefixBalanced_snoc (tokens : List (Token D)) (token : Token D) :
    PrefixBalanced (tokens ++ [token]) ↔ PrefixBalanced tokens ∧ 0 ≤ level (tokens ++ [token]) := by
  constructor
  · intro h
    refine ⟨fun k => ?_, ?_⟩
    · have hk := h (min k tokens.length)
      rwa [List.take_append_of_le_length (min_le_right _ _), ← List.take_eq_take_min] at hk
    · have hk := h (tokens ++ [token]).length
      rwa [List.take_length] at hk
  · rintro ⟨h, hlast⟩ k
    rcases Nat.lt_or_ge k (tokens ++ [token]).length with hk | hk
    · rw [List.length_append, List.length_singleton] at hk
      rw [List.take_append_of_le_length (by omega)]
      exact h k
    · rwa [List.take_of_length_le hk]

def opensOf : List (Token D) → List Bool
  | [] => []
  | op :: ops =>
    if op.type = tokenGroupOpen then (ops.head?.any fun below => below.type = tokenFunction) :: opensOf ops
    else opensOf ops

lemma opensOf_operators (hm : Operators moved) : opensOf (moved ++ rest) = opensOf rest := by
  induction moved with
  | nil => rfl
  | cons op moved ih =>
    rw [List.cons_append, opensOf, if_neg (operatorTypes_classes _ (hm op List.mem_cons_self)).2.1]
    exact ih fun t ht => hm t (List.mem_cons_of_mem _ ht)

lemma Operators.opens (hm : Operators ops) : opensOf ops = [] := by
  have hnil : opensOf (ops ++ []) = opensOf [] := opensOf_operators hm
  rwa [List.append_nil] at hnil

lemma opensOf_eq_nil : opensOf ops = [] ↔ ∀ op ∈ ops, op.type ≠ tokenGroupOpen := by
  induction ops with
  | nil => simp [opensOf]
  | cons op ops ih =>
    rw [opensOf]
    split_ifs with hg
    · simp [hg]
    · simp [hg, ih]

lemma hasCall_of_class : ∀ type ∈ waitingTypes, has type classFunction = true ↔ type = tokenFunction := by decide

lemma mem_opensOf (hs : Shape ops) (htop : ∀ top ∈ ops.head?, top.type ≠ tokenFunction) :
    true ∈ opensOf ops ↔ hasCall ops = true := by
  induction ops with
  | nil => simp [opensOf, hasCall]
  | cons op ops ih =>
    have hclass := hasCall_of_class _ hs.1
    have hop : has op.type classFunction = false := by
      cases hf : has op.type classFunction with
      | true => exact absurd (hclass.mp hf) (htop op rfl)
      | false => rfl
    rw [opensOf, hasCall, List.any_cons, hop, Bool.false_or]
    split_ifs with hg
    · cases ops with
      | nil => simp [opensOf]
      | cons func ops =>
        by_cases hf : func.type = tokenFunction
        · have hc := (hasCall_of_class _ hs.2.2.1).mpr hf
          rw [hf] at hc
          simp [hf, hc]
        · have hrec := ih hs.2.2 (by rintro top ⟨⟩; exact hf)
          simpa [hf, hasCall] using hrec
    · exact ih hs.2.2 (hs.2.1 hg)

end

section

def valueOf (type : TokenType) : ℤ := if has type classOperand then 1 else 0

lemma operands_classes : ∀ type ∈ tokenArgNull :: operandTypes, type ∈ stackTypes ∧ has type classFunction = false ∧
    has type classOperand = true ∧ has type classOperator1 = false ∧ has type classOperator2 = false := by
  decide

lemma nullToken_type : (nullToken : Token D).type ∈ tokenArgNull :: operandTypes := List.mem_cons_self

lemma contribution_operand (hop : op.type ∈ tokenArgNull :: operandTypes) : contribution op = 1 := by
  obtain ⟨-, hf, ho, -⟩ := operands_classes _ hop
  rw [contribution, hf, if_neg Bool.false_ne_true, if_pos ho]

lemma Runs.operand (ht : ∀ token ∈ stack, token.type ∈ stackTypes) (hr : Runs stack)
    (hop : op.type ∈ tokenArgNull :: operandTypes) : Runs (stack ++ [op]) := by
  obtain ⟨-, hf, -, h1, h2⟩ := operands_classes _ hop
  apply hr.append ht
  intro depth _
  simp [stackEffect, hf, h1, h2]

lemma operatorTypes_stack : ∀ type ∈ operatorTypes, type ∈ stackTypes := by decide

lemma runs_completed (ht : ∀ token ∈ stack, token.type ∈ stackTypes) (hr : Runs stack) : Runs (completed last stack) := by
  rw [completed]
  split_ifs
  · exact hr.operand ht nullToken_type
  · exact hr

lemma types_snoc (ht : ∀ token ∈ stack, token.type ∈ stackTypes) (hop : op.type ∈ stackTypes) :
    ∀ token ∈ stack ++ [op], token.type ∈ stackTypes := by
  intro token hm
  rcases List.mem_append.mp hm with hm | hm
  · exact ht token hm
  · rw [List.mem_singleton.mp hm]
    exact hop

lemma types_completed (last : TokenType) (ht : ∀ token ∈ stack, token.type ∈ stackTypes) :
    ∀ token ∈ completed last stack, token.type ∈ stackTypes := by
  rw [completed]
  split_ifs
  · exact types_snoc ht (operands_classes _ nullToken_type).1
  · exact ht

lemma holds_completed (hl : has last classOperand = true ∧ has last classSeparator = false ∨
      has last classOperand = false ∧ has last classSeparator = true)
    (h : Holds ops stack (valueOf last) extra) : Holds ops (completed last stack) 1 extra := by
  rw [valueOf] at h
  rw [completed]
  rcases hl with ⟨ho, hs⟩ | ⟨ho, hs⟩
  · rw [hs, if_neg Bool.false_ne_true]
    rwa [if_pos ho] at h
  · rw [if_pos hs]
    rw [ho, if_neg Bool.false_ne_true] at h
    have happ := h.append [nullToken]
    rwa [depthOf_singleton, contribution_operand nullToken_type, zero_add] at happ

lemma operatorTypes_cases : ∀ type ∈ operatorTypes, has type classFunction = false ∧ has type classOperand = false ∧
    (has type classOperator1 = true ∧ has type classOperator2 = false ∨
      has type classOperator1 = false ∧ has type classOperator2 = true) := by
  decide

lemma Holds.move_one (he : Enough ops extra) (hop : op.type ∈ operatorTypes)
    (ht : ∀ token ∈ stack, token.type ∈ stackTypes) (hr : Runs stack) (h : Holds (op :: ops) stack 1 extra) :
    Runs (stack ++ [op]) ∧ Holds ops (stack ++ [op]) 1 extra := by
  obtain ⟨hf, ho, hkind⟩ := operatorTypes_cases _ hop
  rw [Holds, hf, if_neg Bool.false_ne_true] at h
  rcases hkind with ⟨h1, h2⟩ | ⟨h1, h2⟩
  · rw [h2, if_neg Bool.false_ne_true, add_zero] at h
    have hle := h.le he ht hr
    have hc : contribution op = 0 := by simp [contribution, hf, ho, h2]
    constructor
    · apply hr.append ht
      intro depth hdepth
      rw [stackEffect, if_pos h1, if_neg (by omega)]
      rfl
    · have happ := h.append [op]
      rwa [depthOf_singleton, hc, add_zero] at happ
  · rw [h2, if_pos rfl] at h
    have hle := h.le he ht hr
    have hc : contribution op = -1 := by simp [contribution, hf, ho, h2]
    constructor
    · apply hr.append ht
      intro depth hdepth
      rw [stackEffect, h1, if_neg Bool.false_ne_true, if_pos h2, if_neg (by omega)]
      rfl
    · have happ := h.append [op]
      rwa [depthOf_singleton, hc] at happ

lemma types_moved (ht : ∀ token ∈ stack, token.type ∈ stackTypes) (hm : Operators moved) :
    ∀ token ∈ stack ++ moved, token.type ∈ stackTypes := by
  intro token hmem
  rcases List.mem_append.mp hmem with hmem | hmem
  · exact ht token hmem
  · exact operatorTypes_stack _ (hm token hmem)

lemma Enough.append (h : Enough rest extra) : Enough (moved ++ rest) extra := by
  induction moved with
  | nil => exact h
  | cons op moved ih => exact ih.cons

lemma Holds.move (he : moved ≠ [] → Enough rest extra) (hm : Operators moved) (ht : ∀ token ∈ stack, token.type ∈ stackTypes)
    (hr : Runs stack) (h : Holds (moved ++ rest) stack 1 extra) :
    Runs (stack ++ moved) ∧ Holds rest (stack ++ moved) 1 extra := by
  induction moved generalizing stack with
  | nil =>
    rw [List.append_nil]
    exact ⟨hr, h⟩
  | cons op moved ih =>
    have hop := hm op List.mem_cons_self
    have hrestEnough := he (List.cons_ne_nil _ _)
    obtain ⟨hr', h'⟩ := h.move_one hrestEnough.append hop ht hr
    have hrest := ih (fun _ => hrestEnough) (fun t hmem => hm t (List.mem_cons_of_mem _ hmem))
      (types_snoc ht (operatorTypes_stack _ hop)) hr' h'
    rwa [List.append_assoc, List.singleton_append] at hrest

lemma called_opt {func : Token D} (hsize : stack.length < 2 ^ 32) (hnonneg : 0 ≤ depthOf (stack.drop func.opt.toNat)) :
    ((called stack func).opt.toNat : ℤ) = depthOf (stack.drop func.opt.toNat) := by
  have hle := depthOf_le_length (stack.drop func.opt.toNat)
  rw [List.length_drop] at hle
  rw [called]
  simp only [UInt32.toNat_ofNat']
  rw [← depthOf]
  omega

lemma Holds.call {func : Token D} {below : List (Token D)} (hf : func.type = tokenFunction)
    (hsize : stack.length < 2 ^ 32) (ht : ∀ token ∈ stack, token.type ∈ stackTypes) (hr : Runs stack)
    (habove : 0 ≤ above) (h : Holds (func :: below) stack above extra) :
    Runs (stack ++ [called stack func]) ∧ Holds below (stack ++ [called stack func]) 1 extra := by
  have hclass : has tokenFunction classFunction = true ∧ has tokenFunction classOperator1 = false ∧
      has tokenFunction classOperator2 = false := by
    decide
  obtain ⟨hfun, h1, h2⟩ := hclass
  rw [← hf] at hfun h1 h2
  rw [Holds, if_pos hfun] at h
  obtain ⟨hlen, hle, hbelow⟩ := h
  have hsplit := List.take_append_drop func.opt.toNat stack
  have hopt := called_opt hsize (le_trans habove hle)
  have htake : 0 ≤ depthOf (stack.take func.opt.toNat) := by
    rw [← hsplit] at hr
    exact hr.left.nonneg fun t hm => ht t (List.mem_of_mem_take hm)
  have hsum : depthOf stack = depthOf (stack.take func.opt.toNat) + depthOf (stack.drop func.opt.toNat) := by
    rw [← depthOf_append, hsplit]
  constructor
  · apply hr.append ht
    intro depth hdepth
    have heffect : stackEffect (called stack func) depth = some (depth - (called stack func).opt.toNat + 1) := by
      rw [stackEffect, show (called stack func).type = func.type from rfl, h1, if_neg Bool.false_ne_true, h2,
        if_neg Bool.false_ne_true, if_pos hfun, if_neg (by omega)]
    rw [heffect]
    rfl
  · have happ := hbelow.append (stack.drop func.opt.toNat ++ [called stack func])
    rw [← List.append_assoc, hsplit, depthOf_append, depthOf_singleton] at happ
    rw [contribution, show (called stack func).type = func.type from rfl, if_pos hfun, hopt] at happ
    rwa [zero_add, add_sub_cancel] at happ

end

end Glaber.Eval
