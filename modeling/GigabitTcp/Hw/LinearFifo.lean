/-
  GigabitTcp.Hw.LinearFifo — a bounded queue over a buffer that is filled from its start.

  New items go behind all items that the buffer has held since it was last drained, and what
  does not fit is cut off; the buffer is used from its start again only when nothing waits.
  Items leave from the front, up to `chunk` of them in one frame, and every frame carries the
  number of its first item.

  Main results:
    * `LinearFifo.conserves`   — what was sent, followed by what waits, is what was accepted,
    * `LinearFifo.contiguous`  — the frames number their items without a gap.
-/
import GigabitTcp.Hw.Machine
import GigabitTcp.Hw.Stream

namespace Hw

open Machine

/-! ## §1. Frames in a row. -/

/-- The frames follow one another without a gap, from number `s` on. -/
def FramesFrom {w : Nat} {α : Type} : BitVec w → List (StreamFrame w α) → Prop
  | _, [] => True
  | s, f :: fs => f.seq = s ∧ FramesFrom f.stop fs

/-- What a queue can be asked for. -/
inductive FifoOp (α : Type) where
  /-- Take the items `l` in, as far as they fit. -/
  | put (l : List α)
  /-- Send a frame from the front. -/
  | take
  deriving Repr, DecidableEq

/-- The places used up since the buffer was last drained, the items that wait, and the number
of the next item to be sent. -/
structure LinearFifo (w : Nat) (α : Type) where
  used : Nat
  waiting : List α
  next : BitVec w

namespace LinearFifo

variable {w : Nat} {α : Type} (cap chunk : Nat)

/-- The places used up; a drained buffer starts over. -/
def level (q : LinearFifo w α) : Nat := if q.waiting.isEmpty then 0 else q.used

/-- What of `l` fits behind the places used up. -/
def accepts (q : LinearFifo w α) (l : List α) : List α := l.take (cap - q.level)

/-- The frame at the front. -/
def front (q : LinearFifo w α) : StreamFrame w α :=
  { seq := q.next, items := q.waiting.take chunk, last := false }

/-- The queue as a machine; it puts out the frames it sends. -/
def step : Machine (LinearFifo w α) (FifoOp α) (List (StreamFrame w α))
  | q, .put l =>
      ({ q with
        used := q.level + (q.accepts cap l).length
        waiting := q.waiting ++ q.accepts cap l }, [])
  | q, .take =>
      if q.waiting.isEmpty then (q, [])
      else
        ({ used := if (q.waiting.drop chunk).isEmpty then 0 else q.used
           waiting := q.waiting.drop chunk
           next := (q.front chunk).stop }, [q.front chunk])

theorem step_take_drained {q : LinearFifo w α} (h : q.waiting = []) :
    step cap chunk q .take = (q, []) := by
  unfold step
  dsimp only
  rw [h]
  rfl

theorem step_take_waiting {q : LinearFifo w α} (h : q.waiting ≠ []) :
    step cap chunk q .take
      = ({ used := if (q.waiting.drop chunk).isEmpty then 0 else q.used
           waiting := q.waiting.drop chunk
           next := (q.front chunk).stop }, [q.front chunk]) :=
  if_neg (by rwa [List.isEmpty_iff])

/-- What an operation takes in. -/
def takenIn (q : LinearFifo w α) : FifoOp α → List α
  | .put l => q.accepts cap l
  | .take => []

/-! ## §2. Runs. -/

/-- One operation hands on what waits and what comes in. -/
theorem step_conserves (q : LinearFifo w α) (op : FifoOp α) :
    q.waiting ++ q.takenIn cap op
      = (step cap chunk q op).2.flatMap StreamFrame.items ++ (step cap chunk q op).1.waiting := by
  cases op with
  | put l => rfl
  | take =>
      show q.waiting ++ [] = _
      rw [List.append_nil]
      by_cases hempty : q.waiting = []
      · rw [step_take_drained cap chunk hempty]
        rfl
      · rw [step_take_waiting cap chunk hempty]
        show q.waiting = (q.waiting.take chunk ++ []) ++ q.waiting.drop chunk
        rw [List.append_nil, List.take_append_drop]

/-- **Conservation**: what was sent, followed by what waits, is what waited at the start and
what was accepted since. -/
theorem conserves (q : LinearFifo w α) (ops : List (FifoOp α)) :
    ((step cap chunk).outs q ops).flatten.flatMap StreamFrame.items
        ++ ((step cap chunk).after q ops).waiting
      = q.waiting ++ (step cap chunk).record (takenIn cap) q ops := by
  induction ops generalizing q with
  | nil =>
      show q.waiting = q.waiting ++ []
      rw [List.append_nil]
  | cons op ops ih =>
      rw [outs_cons, after_cons, List.flatten_cons, List.flatMap_append, List.append_assoc, ih,
        ← List.append_assoc, ← step_conserves, List.append_assoc]
      rfl

/-- **Contiguity**: the frames of a run number their items without a gap. -/
theorem contiguous (q : LinearFifo w α) (ops : List (FifoOp α)) :
    FramesFrom q.next ((step cap chunk).outs q ops).flatten := by
  induction ops generalizing q with
  | nil => trivial
  | cons op ops ih =>
      rw [outs_cons, List.flatten_cons]
      have hrest := ih (step cap chunk q op).1
      cases op with
      | put l => exact hrest
      | take =>
          by_cases hempty : q.waiting = []
          · rw [step_take_drained cap chunk hempty] at hrest ⊢
            exact hrest
          · rw [step_take_waiting cap chunk hempty] at hrest ⊢
            exact ⟨rfl, hrest⟩

end LinearFifo

end Hw
