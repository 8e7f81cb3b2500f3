import Glaber.Common
import Mathlib.Data.List.Basic

/-! The ring buffer of timestamped values (`ring_buffer.c`) and the list it represents, oldest
value first. -/

namespace Glaber.Algo

structure TsValue (α : Type) where
  time : ℤ
  value : α
deriving DecidableEq

structure Tsbuff (α : Type) where
  data : ℕ → TsValue α
  size : ℕ
  count : ℕ
  head : ℤ
  tail : ℤ

namespace Tsbuff

variable {α : Type}

def maxSize : ℤ := 1000000

variable (b : Tsbuff α)

def index (i : ℤ) : ℤ := (i + b.size).tmod b.size

def get (idx : ℤ) : TsValue α := b.data idx.toNat

def put (idx : ℤ) (v : TsValue α) : Tsbuff α :=
  { b with data := Function.update b.data idx.toNat v }

def init (zero : TsValue α) (size : ℕ) : Tsbuff α := ⟨fun _ => zero, size, 0, -1, -1⟩

def freeTail : ℤ × Tsbuff α :=
  if b.count = 0 then (fail, b)
  else if b.count - 1 = 0 then (succeed, { b with count := b.count - 1, tail := -1, head := -1 })
  else (succeed, { b with count := b.count - 1, tail := b.index (b.tail + 1) })

def getTimeTail : ℤ := if b.count = 0 then -1 else (b.get b.tail).time

def getTimeHead : ℤ := if b.count = 0 then -1 else (b.get b.head).time

def isFull : Prop := b.count = b.size

instance (b : Tsbuff α) : Decidable b.isFull := inferInstanceAs (Decidable (_ = _))

def setTime (idx : ℤ) (time : ℤ) : Tsbuff α := b.put idx { b.get idx with time := time }

def addToTail (time : ℤ) : Option (ℤ × Tsbuff α) :=
  if 0 < b.count ∧ 0 < b.getTimeTail ∧ b.getTimeTail < time then none
  else if 0 < b.count then
    let newTail := b.index (b.tail - 1)
    if newTail = b.head then none
    else some (newTail, { b.setTime newTail time with tail := newTail, count := b.count + 1 })
  else some (0, { b.setTime 0 time with tail := 0, head := 0, count := b.count + 1 })

def addToHead (time : ℤ) : Option (ℤ × Tsbuff α) :=
  if 0 < b.count ∧ b.getTimeHead ≠ zbxJan2038 ∧ time < b.getTimeHead then none
  else
    let newHead := if 0 < b.count then b.index (b.head + 1) else 0
    if newHead = b.tail ∧ 1 < b.size then none
    else some (newHead, { b.setTime newHead time with
      head := newHead
      count := b.count + 1
      tail := if b.count + 1 = 1 then newHead else b.tail })

def findLoop (b : Tsbuff α) (tm : ℤ) : ℕ → ℤ → ℤ → Option ℤ
  | 0, _, _ => none
  | fuel + 1, tailIdx, headIdx =>
    let guessIdx := if headIdx < tailIdx then (tailIdx + headIdx + b.size).tdiv 2
      else b.index ((tailIdx + headIdx).tdiv 2 + b.size)
    let guessVal := b.get (b.index guessIdx)
    if tm = guessVal.time then some (b.index guessIdx)
    else if tm = (b.get headIdx).time then some headIdx
    else if b.index guessIdx = tailIdx then some tailIdx
    else if guessVal.time < tm then
      if b.index (guessIdx + 1) = headIdx then some (b.index guessIdx)
      else findLoop b tm fuel (b.index guessIdx) headIdx
    else if b.index (guessIdx - 1) = tailIdx then some tailIdx
    else findLoop b tm fuel tailIdx (b.index guessIdx)

def findTimeIdx (tm : ℤ) : ℤ :=
  if b.count = 0 then fail
  else if tm < b.getTimeTail ∨ b.getTimeHead < tm then fail
  else (b.findLoop tm b.size b.tail b.head).getD fail

def upsize (zero : TsValue α) (b : Tsbuff α) (newSize : ℕ) : Tsbuff α :=
  if -1 < b.head then
    if b.tail ≤ b.head then
      { b with data := fun k => if k < b.count then b.data k else zero, size := newSize }
    else
      let firstSize := b.size - b.tail.toNat
      { b with
        data := fun k =>
          if k < firstSize then b.data (b.tail.toNat + k)
          else if k < firstSize + (b.head.toNat + 1) then b.data (k - firstSize)
          else zero
        size := newSize
        tail := 0
        head := b.count - 1 }
  else { b with data := fun _ => zero, size := newSize }

def walk (b : Tsbuff α) (stop : ℤ) : ℕ → ℤ → List (TsValue α)
  | 0, _ => []
  | fuel + 1, i => if i = stop then [] else b.get i :: walk b stop fuel (b.index (i + 1))

def downsize (zero : TsValue α) (b : Tsbuff α) (newSize : ℕ) : Tsbuff α :=
  let moved := b.walk (b.index (b.head + 1)) b.size (b.index (b.head - newSize + 1))
  { data := fun k => moved[k]?.getD zero
    size := newSize
    count := moved.length
    tail := 0
    head := moved.length - 1 }

def resize (zero : TsValue α) (b : Tsbuff α) (newSize : ℤ) : Tsbuff α :=
  if maxSize < newSize ∨ newSize < 1 ∨ newSize = b.size then b
  else if newSize < b.size then b.downsize zero newSize.toNat
  else b.upsize zero newSize.toNat

def checkHasEnoughCountDataIdx (needCount headIdx : ℤ) : ℤ :=
  if needCount = 0 then fail
  else if headIdx < b.tail then
    if b.tail ≤ headIdx + b.size - needCount + 1 then succeed else fail
  else if b.tail ≤ headIdx - needCount + 1 then succeed else fail

end Tsbuff

end Glaber.Algo
