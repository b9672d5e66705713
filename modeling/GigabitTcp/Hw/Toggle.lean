/-
  GigabitTcp.Hw.Toggle — events counted across a clock boundary.

  The sender flips a level for each event; the receiver takes the level into a chain of three
  registers with its own clock and counts the changes between the last two.  The two clocks have
  no order: a run is any sequence of flips and samples.  A flip that finds the one before
  unsampled takes it back, and both are lost.

  Main results:
    * `Crossing.balance`   — what is counted, what is on its way and what is lost,
    * `Crossing.lost_eq_zero_iff` — nothing is lost exactly if a sample lies between any two flips,
    * `Crossing.settled`   — after three samples nothing is on its way.
-/
import GigabitTcp.Hw.Machine

namespace Hw

/-- One edge: of the sender's clock with an event, or of the receiver's clock. -/
inductive CrossingEdge where
  | flip | sample
  deriving Repr, DecidableEq

/-- The level, the three registers that it passes, and the number of changes. -/
structure Crossing where
  level : Bool := false
  t1 : Bool := false
  t2 : Bool := false
  t3 : Bool := false
  count : Nat := 0
  deriving Repr, DecidableEq

namespace Crossing

/-! ## §1. One edge. -/

def next (s : Crossing) : CrossingEdge → Crossing
  | .flip => { s with level := !s.level }
  | .sample =>
      { s with t1 := s.level, t2 := s.t1, t3 := s.t2, count := s.count + (s.t2 ^^ s.t3).toNat }

/-- Changes between the level and the last register. -/
def onWay (s : Crossing) : Nat := (s.level ^^ s.t1).toNat + (s.t1 ^^ s.t2).toNat + (s.t2 ^^ s.t3).toNat

/-- A flip that takes back one that no edge has sampled. -/
def loses (s : Crossing) (e : CrossingEdge) : Bool := (e == .flip) && (s.level ^^ s.t1)

/-- **One edge**: a flip is on its way or takes one back; a sample moves everything on. -/
theorem balance_next (s : Crossing) (e : CrossingEdge) :
    (s.next e).count + (s.next e).onWay + 2 * (s.loses e).toNat
      = s.count + s.onWay + (e == .flip).toNat := by
  obtain ⟨level, t1, t2, t3, count⟩ := s
  cases e with
  | flip =>
      show count + onWay { level := !level, t1, t2, t3, count } + 2 * (true && (level ^^ t1)).toNat
        = count + onWay { level, t1, t2, t3, count } + 1
      cases level <;> cases t1 <;> simp [onWay] <;> omega
  | sample =>
      show count + (t2 ^^ t3).toNat + onWay { level, t1 := level, t2 := t1, t3 := t2 } + 2 * 0
        = count + onWay { level, t1, t2, t3, count } + 0
      cases level <;> cases t1 <;> cases t2 <;> cases t3 <;> simp [onWay]

/-! ## §2. Runs. -/

/-- The machine of the crossing. -/
def machine : Machine Crossing CrossingEdge Unit := fun s e => (s.next e, ())

/-- The flips of a run. -/
def flips (es : List CrossingEdge) : Nat := es.count .flip

/-- The flips of a run that take another one back. -/
def lost : Crossing → List CrossingEdge → Nat
  | _, [] => 0
  | s, e :: es => (s.loses e).toNat + lost (s.next e) es

/-- **The balance of a run**: each flip is counted, on its way, or lost with another one. -/
theorem balance (s : Crossing) (es : List CrossingEdge) :
    (machine.after s es).count + (machine.after s es).onWay + 2 * lost s es
      = s.count + s.onWay + flips es := by
  induction es generalizing s with
  | nil => rfl
  | cons e es ih =>
      have hstep := balance_next s e
      have hrest := ih (s.next e)
      have hflips : flips (e :: es) = (e == .flip).toNat + flips es := by
        show List.count _ (e :: es) = _ + List.count _ es
        rw [List.count_cons]
        cases e <;> simp [Nat.add_comm]
      show (machine.after (s.next e) es).count + (machine.after (s.next e) es).onWay
        + 2 * ((s.loses e).toNat + lost (s.next e) es) = _
      rw [hflips]
      omega

/-- After three samples without a flip nothing is on its way. -/
theorem settled (s : Crossing) :
    (machine.after s [.sample, .sample, .sample]).onWay = 0 := by
  obtain ⟨level, t1, t2, t3, count⟩ := s
  show onWay { level, t1 := level, t2 := level, t3 := level } = 0
  cases level <;> rfl

/-- Two edges that may follow one another: not two flips. -/
def Apart (e e' : CrossingEdge) : Prop := ¬ (e = .flip ∧ e' = .flip)

instance (e e' : CrossingEdge) : Decidable (Apart e e') := inferInstanceAs (Decidable (¬ _))

/-- A flip that has not been sampled counts as an edge before the run. -/
theorem lost_eq_zero_iff_pending (s : Crossing) (es : List CrossingEdge) :
    (s.level = s.t1 → (lost s es = 0 ↔ es.IsChain Apart)) ∧
      (s.level ≠ s.t1 → (lost s es = 0 ↔ (CrossingEdge.flip :: es).IsChain Apart)) := by
  induction es generalizing s with
  | nil => exact ⟨fun _ => by simp [lost], fun _ => by simp [lost]⟩
  | cons e es ih =>
      obtain ⟨hsame, hdiff⟩ := ih (s.next e)
      cases e with
      | flip =>
          constructor
          · intro hlevel
            have hloses : s.loses .flip = false := by simp [loses, hlevel]
            have hnext : (s.next .flip).level ≠ (s.next .flip).t1 := by simp [next, hlevel]
            show (s.loses .flip).toNat + lost (s.next .flip) es = 0 ↔ _
            rw [hloses, Bool.toNat_false, Nat.zero_add]
            exact hdiff hnext
          · intro hlevel
            have hloses : s.loses .flip = true := by simp [loses, hlevel]
            show (s.loses .flip).toNat + lost (s.next .flip) es = 0 ↔ _
            rw [hloses]
            simp [Apart]
      | sample =>
          have hloses : s.loses .sample = false := rfl
          have hdrop : (CrossingEdge.sample :: es).IsChain Apart ↔ es.IsChain Apart := by
            cases es with
            | nil => simp
            | cons e es => simp [Apart]
          have hlost : lost s (.sample :: es) = 0 ↔ es.IsChain Apart := by
            show (s.loses .sample).toNat + lost (s.next .sample) es = 0 ↔ _
            rw [hloses, Bool.toNat_false, Nat.zero_add]
            exact hsame rfl
          constructor
          · intro _
            rw [hlost, hdrop]
          · intro _
            rw [hlost, List.isChain_cons_cons, hdrop]
            simp [Apart]

/-- **Nothing is lost exactly if a sample lies between any two flips.** -/
theorem lost_eq_zero_iff (es : List CrossingEdge) : lost {} es = 0 ↔ es.IsChain Apart :=
  (lost_eq_zero_iff_pending {} es).1 rfl

/-- Samples behind a run lose nothing. -/
theorem lost_append_samples (s : Crossing) (es : List CrossingEdge) :
    lost s (es ++ [.sample, .sample, .sample]) = lost s es := by
  induction es generalizing s with
  | nil => rfl
  | cons e es ih => exact congrArg ((s.loses e).toNat + ·) (ih (s.next e))

end Crossing

end Hw
