import Glaber.Eval.ParseTokens

namespace Glaber.Eval

variable {D : Type}

section

def stackEffect (token : Token D) (depth : ℕ) : Option ℕ :=
  if has token.type classOperator1 then if depth < 1 then none else some depth
  else if has token.type classOperator2 then if depth < 2 then none else some (depth - 1)
  else if has token.type classFunction then
    if depth < token.opt.toNat then none else some (depth - token.opt.toNat + 1)
  else some (depth + 1)

def runDepth : List (Token D) → ℕ → Option ℕ
  | [], depth => some depth
  | token :: tokens, depth => (stackEffect token depth).bind (runDepth tokens)

def Runs (stack : List (Token D)) : Prop := ∃ depth, runDepth stack 0 = some depth

def depthOf (stack : List (Token D)) : ℤ := (stack.map contribution).sum

def stackTypes : List TokenType := tokenFunction :: tokenArgNull :: (operandTypes ++ (unaryTypes ++ binaryTypes))

@[simp] lemma depthOf_nil : depthOf ([] : List (Token D)) = 0 := rfl

@[simp] lemma depthOf_append (first second : List (Token D)) : depthOf (first ++ second) = depthOf first + depthOf second := by
  rw [depthOf, List.map_append, List.sum_append]
  rfl

@[simp] lemma depthOf_singleton (token : Token D) : depthOf [token] = contribution token := by
  rw [depthOf, List.map_singleton, List.sum_singleton]

lemma contribution_le_one (token : Token D) : contribution token ≤ 1 := by
  rw [contribution]
  split_ifs <;> omega

lemma depthOf_le_length (stack : List (Token D)) : depthOf stack ≤ stack.length := by
  induction stack with
  | nil => rfl
  | cons token stack ih =>
    have hle := contribution_le_one token
    rw [← List.singleton_append, depthOf_append, depthOf_singleton, List.length_append, List.length_singleton]
    push_cast
    omega

lemma runDepth_append (first second : List (Token D)) (depth : ℕ) :
    runDepth (first ++ second) depth = (runDepth first depth).bind (runDepth second) := by
  induction first generalizing depth with
  | nil => rfl
  | cons token first ih =>
    rw [List.cons_append, runDepth, runDepth]
    cases stackEffect token depth with
    | none => rfl
    | some next => exact ih next

lemma stackEffect_pos {token : Token D} {depth next : ℕ} (h : stackEffect token depth = some next) : 1 ≤ next := by
  rw [stackEffect] at h
  split_ifs at h <;> cases h <;> omega

lemma classes_of_stackTypes : ∀ type ∈ stackTypes,
    (has type classOperator1 = true → has type classFunction = false ∧ has type classOperand = false ∧
      has type classOperator2 = false) ∧
    (has type classOperator2 = true → has type classFunction = false ∧ has type classOperand = false) ∧
    (has type classOperator1 = false → has type classOperator2 = false → has type classFunction = false →
      has type classOperand = true) := by
  decide

lemma stackEffect_contribution {token : Token D} (ht : token.type ∈ stackTypes) {depth next : ℕ}
    (h : stackEffect token depth = some next) : (next : ℤ) = depth + contribution token := by
  obtain ⟨h1, h2, h3⟩ := classes_of_stackTypes token.type ht
  rw [stackEffect] at h
  rw [contribution]
  cases ho1 : has token.type classOperator1 with
  | true =>
    obtain ⟨hf, ha, hb⟩ := h1 ho1
    rw [if_pos ho1] at h
    split_ifs at h
    cases h
    simp [hf, ha, hb]
  | false =>
    rw [ho1, if_neg Bool.false_ne_true] at h
    cases ho2 : has token.type classOperator2 with
    | true =>
      obtain ⟨hf, ha⟩ := h2 ho2
      rw [if_pos ho2] at h
      split_ifs at h
      cases h
      simp only [hf, ha, Bool.false_eq_true, if_false, if_true]
      omega
    | false =>
      rw [ho2, if_neg Bool.false_ne_true] at h
      cases hf : has token.type classFunction with
      | true =>
        rw [if_pos hf] at h
        split_ifs at h
        cases h
        rw [if_pos rfl]
        omega
      | false =>
        rw [hf, if_neg Bool.false_ne_true] at h
        cases h
        simp [h3 ho1 ho2 hf]

lemma runDepth_eq {stack : List (Token D)} (ht : ∀ token ∈ stack, token.type ∈ stackTypes) {depth final : ℕ}
    (h : runDepth stack depth = some final) : (final : ℤ) = depth + depthOf stack := by
  induction stack generalizing depth with
  | nil =>
    cases h
    simp
  | cons token stack ih =>
    obtain ⟨next, hnext, hrest⟩ := Option.bind_eq_some_iff.mp h
    have hstep := stackEffect_contribution (ht token List.mem_cons_self) hnext
    have hind := ih (fun t hm => ht t (List.mem_cons_of_mem _ hm)) hrest
    rw [← List.singleton_append, depthOf_append, depthOf_singleton]
    omega

lemma runDepth_pos {stack : List (Token D)} (hne : stack ≠ []) {depth final : ℕ}
    (h : runDepth stack depth = some final) : 1 ≤ final := by
  obtain ⟨first, token, rfl⟩ := (List.eq_nil_or_concat stack).resolve_left hne
  rw [List.concat_eq_append, runDepth_append] at h
  obtain ⟨mid, -, h⟩ := Option.bind_eq_some_iff.mp h
  obtain ⟨next, hnext, h⟩ := Option.bind_eq_some_iff.mp h
  cases h
  exact stackEffect_pos hnext

lemma Runs.left {first second : List (Token D)} (h : Runs (first ++ second)) : Runs first := by
  obtain ⟨depth, h⟩ := h
  rw [runDepth_append] at h
  obtain ⟨mid, hmid, -⟩ := Option.bind_eq_some_iff.mp h
  exact ⟨mid, hmid⟩

lemma Runs.depth {stack : List (Token D)} (ht : ∀ token ∈ stack, token.type ∈ stackTypes) (h : Runs stack) :
    ∃ depth : ℕ, runDepth stack 0 = some depth ∧ (depth : ℤ) = depthOf stack := by
  obtain ⟨depth, h⟩ := h
  have heq := runDepth_eq ht h
  rw [Nat.cast_zero, zero_add] at heq
  exact ⟨depth, h, heq⟩

lemma Runs.nonneg {stack : List (Token D)} (ht : ∀ token ∈ stack, token.type ∈ stackTypes) (h : Runs stack) :
    0 ≤ depthOf stack := by
  obtain ⟨depth, -, heq⟩ := h.depth ht
  omega

lemma Runs.append {stack : List (Token D)} (ht : ∀ token ∈ stack, token.type ∈ stackTypes) (h : Runs stack)
    {token : Token D} (htoken : ∀ depth : ℕ, (depth : ℤ) = depthOf stack → (stackEffect token depth).isSome) :
    Runs (stack ++ [token]) := by
  obtain ⟨depth, hrun, heq⟩ := h.depth ht
  obtain ⟨next, hnext⟩ := Option.isSome_iff_exists.mp (htoken depth heq)
  refine ⟨next, ?_⟩
  rw [runDepth_append, hrun, Option.bind_some, runDepth, hnext]
  rfl

lemma not_runs_append {stack : List (Token D)} (h : ¬Runs stack) (more : List (Token D)) : ¬Runs (stack ++ more) :=
  fun hruns => h hruns.left

end

section

def Holds : List (Token D) → List (Token D) → ℤ → ℤ → Prop
  | [], stack, above, extra => depthOf stack = above + extra
  | op :: ops, stack, above, extra =>
    if has op.type classFunction then
      op.opt.toNat ≤ stack.length ∧ above ≤ depthOf (stack.drop op.opt.toNat) ∧ Holds ops (stack.take op.opt.toNat) 0 extra
    else Holds ops stack (above + if has op.type classOperator2 then 1 else 0) extra

variable {ops stack : List (Token D)} {op : Token D} {above extra : ℤ}

lemma Holds.append (h : Holds ops stack above extra) (more : List (Token D)) :
    Holds ops (stack ++ more) (above + depthOf more) extra := by
  induction ops generalizing above with
  | nil =>
    rw [Holds] at h ⊢
    rw [depthOf_append]
    omega
  | cons op ops ih =>
    rw [Holds] at h ⊢
    by_cases hf : has op.type classFunction = true
    · rw [if_pos hf] at h ⊢
      obtain ⟨hlen, hle, hbelow⟩ := h
      rw [List.drop_append_of_le_length hlen, List.take_append_of_le_length hlen, depthOf_append, List.length_append]
      exact ⟨by omega, by omega, hbelow⟩
    · rw [if_neg hf] at h ⊢
      have hmore := ih h
      rwa [add_right_comm] at hmore

def binaries (ops : List (Token D)) : ℕ := ops.countP fun op => has op.type classOperator2

def hasCall (ops : List (Token D)) : Bool := ops.any fun op => has op.type classFunction

lemma holds_iff_of_no_call (hc : hasCall ops = false) :
    Holds ops stack above extra ↔ depthOf stack = binaries ops + above + extra := by
  induction ops generalizing above with
  | nil => simp [Holds, binaries]
  | cons op ops ih =>
    rw [hasCall, List.any_cons, Bool.or_eq_false_iff] at hc
    rw [Holds, hc.1, if_neg Bool.false_ne_true, ih hc.2, binaries, binaries, List.countP_cons]
    split_ifs <;> push_cast <;> omega

lemma Holds.le_of_call (hc : hasCall ops = true) (ht : ∀ token ∈ stack, token.type ∈ stackTypes) (hr : Runs stack)
    (h : Holds ops stack above extra) : above ≤ depthOf stack := by
  induction ops generalizing above with
  | nil => cases hc
  | cons op ops ih =>
    rw [Holds] at h
    split_ifs at h with hf hb
    · obtain ⟨hlen, hle, -⟩ := h
      have hsplit := List.take_append_drop op.opt.toNat stack
      have hbelow : 0 ≤ depthOf (stack.take op.opt.toNat) := by
        rw [← hsplit] at hr
        exact hr.left.nonneg fun t hm => ht t (List.mem_of_mem_take hm)
      rw [← hsplit, depthOf_append]
      omega
    · rw [hasCall, List.any_cons, Bool.or_eq_true] at hc
      have hle := ih (hc.resolve_left hf) h
      omega
    · rw [hasCall, List.any_cons, Bool.or_eq_true] at hc
      have hle := ih (hc.resolve_left hf) h
      omega

def Enough (ops : List (Token D)) (extra : ℤ) : Prop := hasCall ops = true ∨ 0 ≤ binaries ops + extra

lemma Enough.cons (h : Enough ops extra) : Enough (op :: ops) extra := by
  rcases h with hc | hb
  · exact .inl (by rw [hasCall, List.any_cons]; rw [hasCall] at hc; rw [hc, Bool.or_true])
  · right
    rw [binaries, List.countP_cons]
    rw [binaries] at hb
    split_ifs <;> push_cast <;> omega

lemma Holds.le (he : Enough ops extra) (ht : ∀ token ∈ stack, token.type ∈ stackTypes) (hr : Runs stack)
    (h : Holds ops stack above extra) : above ≤ depthOf stack := by
  cases hc : hasCall ops with
  | true => exact h.le_of_call hc ht hr
  | false =>
    rw [holds_iff_of_no_call hc] at h
    rcases he with hcall | hb
    · rw [hc] at hcall
      cases hcall
    · omega

lemma Holds.anti (hc : hasCall ops = true) {less : ℤ} (hle : less ≤ above) (h : Holds ops stack above extra) :
    Holds ops stack less extra := by
  induction ops generalizing above less with
  | nil => cases hc
  | cons op ops ih =>
    rw [Holds] at h ⊢
    split_ifs at h ⊢ with hf hb
    · exact ⟨h.1, by omega, h.2.2⟩
    · rw [hasCall, List.any_cons, Bool.or_eq_true] at hc
      exact ih (hc.resolve_left hf) (by omega) h
    · rw [hasCall, List.any_cons, Bool.or_eq_true] at hc
      exact ih (hc.resolve_left hf) (by omega) h

end

end Glaber.Eval
