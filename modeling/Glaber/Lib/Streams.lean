import Mathlib.Data.List.Infix
import Mathlib.Data.List.TakeDrop
import Mathlib.Tactic

/-! Blocks of memory with checked accesses. -/

namespace Glaber.Lib.Blocks

variable {β : Type}

def load (block : List β) (off len : ℕ) : Option (List β) :=
  if off + len ≤ block.length then some ((block.drop off).take len) else none

def store (block : List β) (off : ℕ) (cells : List β) : Option (List β) :=
  if off + cells.length ≤ block.length then some (block.take off ++ cells ++ block.drop (off + cells.length)) else none

variable {block : List β} {off len : ℕ}

lemma load_eq (h : off + len ≤ block.length) : load block off len = some ((block.drop off).take len) := if_pos h

structure Stored (block : List β) (off : ℕ) (cells block' : List β) : Prop where
  length : block'.length = block.length
  take : block'.take (off + cells.length) = block.take off ++ cells

lemma store_eq (block : List β) (off : ℕ) (cells : List β) (h : off + cells.length ≤ block.length) :
    ∃ block', store block off cells = some block' ∧ Stored block off cells block' := by
  refine ⟨_, if_pos h, ?_, ?_⟩
  · simp only [List.length_append, List.length_take, List.length_drop]
    omega
  · apply List.take_left'
    simp only [List.length_append, List.length_take]
    omega

end Glaber.Lib.Blocks

/-! Decoding a stream that arrives in chunks: a decoder that answers `none` while it waits for more is
asked again after every chunk, with all the data so far. -/

namespace Glaber.Lib.Reassembly

variable {β ρ : Type}

def feed (decode : List β → Option ρ) : List β → List (List β) → Option ρ
  | _, [] => none
  | pending, chunk :: chunks =>
    match decode (pending ++ chunk) with
    | some r => some r
    | none => feed decode (pending ++ chunk) chunks

def Settles (decode : List β → Option ρ) (stream : List β) : Prop :=
  ∀ early, early <+: stream → ∀ r, decode early = some r → decode stream = some r

variable {decode : List β → Option ρ}

lemma feed_settled {chunks : List (List β)} {pending : List β} (hpending : decode pending = none)
    (h : Settles decode (pending ++ chunks.flatten)) :
    feed decode pending chunks = decode (pending ++ chunks.flatten) := by
  induction chunks generalizing pending with
  | nil => simpa [feed] using hpending.symm
  | cons chunk chunks ih =>
    rw [List.flatten_cons, ← List.append_assoc] at h ⊢
    rw [feed]
    cases hd : decode (pending ++ chunk) with
    | some r => exact (h _ (List.prefix_append _ _) r hd).symm
    | none => exact ih hd h

@[simp] lemma feed_whole (stream : List β) : feed decode [] [stream] = decode stream := by
  cases hd : decode stream <;> simp [feed, hd]

theorem feed_iff_settles (hnil : decode [] = none) (stream : List β) :
    (∀ chunks : List (List β), chunks.flatten = stream → feed decode [] chunks = decode stream) ↔
      Settles decode stream := by
  constructor
  · rintro h early ⟨rest, rfl⟩ r hr
    rw [← h [early, rest] (by simp)]
    simp [feed, hr]
  · rintro h chunks rfl
    simpa using feed_settled hnil (by simpa using h)

end Glaber.Lib.Reassembly

/-! Stateful processors of a stream with holes: a processor keeps its state at a hole and may turn a value into a hole. -/

namespace Glaber.Lib.Streams

variable {σ α : Type*}

abbrev Processor (σ α : Type*) := σ → α → σ × Option α

def Processor.run (p : Processor σ α) : σ → List (Option α) → List (Option α)
  | _, [] => []
  | s, none :: xs => none :: run p s xs
  | s, some x :: xs => (p s x).2 :: run p (p s x).1 xs

def pipeline : List (Processor σ α × σ) → List (Option α) → List (Option α)
  | [], xs => xs
  | (p, s) :: ps, xs => pipeline ps (p.run s xs)

def cascade : List (Processor σ α × σ) → α → List (Processor σ α × σ) × Option α
  | [], x => ([], some x)
  | (p, s) :: ps, x =>
    match (p s x).2 with
    | none => ((p, (p s x).1) :: ps, none)
    | some y => ((p, (p s x).1) :: (cascade ps y).1, (cascade ps y).2)

lemma pipeline_nil (ps : List (Processor σ α × σ)) : pipeline ps [] = [] := by
  induction ps with
  | nil => rfl
  | cons p ps ih => exact ih

lemma pipeline_none (ps : List (Processor σ α × σ)) (xs : List (Option α)) :
    pipeline ps (none :: xs) = none :: pipeline ps xs := by
  induction ps generalizing xs with
  | nil => rfl
  | cons p ps ih => exact ih _

lemma pipeline_some (ps : List (Processor σ α × σ)) (x : α) (xs : List (Option α)) :
    pipeline ps (some x :: xs) = (cascade ps x).2 :: pipeline (cascade ps x).1 xs := by
  induction ps generalizing x xs with
  | nil => rfl
  | cons p ps ih =>
      obtain ⟨p, s⟩ := p
      cases hy : (p s x).2 with
      | none =>
          simp only [pipeline, Processor.run, cascade, hy]
          exact pipeline_none ps _
      | some y =>
          simp only [pipeline, Processor.run, cascade, hy]
          exact ih y _

end Glaber.Lib.Streams
