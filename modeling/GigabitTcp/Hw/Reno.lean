/-
  GigabitTcp.Hw.Reno — the congestion window of Reno, in unbounded arithmetic.

  The window opens by a segment for each ACK below the threshold and by `mss * mss / cwnd`
  above it; the third duplicate ACK in a row halves it, and a timeout closes it to one segment.
  Half of what is in flight, and never less than two segments, becomes the new threshold.

  `Reno.Safe` bounds the window from both sides: below because the divisor must not be zero,
  above so that an implementation in machine words knows how far its additions can go.

  Main results:
    * `Safe.step` — the bounds are kept by every event, as long as half of the flight stays
      within the bound of the threshold.
-/
import Mathlib.Data.Nat.Basic
import Mathlib.Tactic.SplitIfs

namespace Hw

/-- The window, the slow-start threshold and the duplicate ACKs in a row. -/
structure Reno where
  cwnd : Nat
  ssthresh : Nat
  dup : Nat
  deriving Repr, DecidableEq

/-- What the window reacts to. -/
inductive RenoEvent where
  /-- An ACK that acknowledges nothing new, with `flight` bytes in flight. -/
  | duplicate (flight : Nat)
  | newAck
  | timeout (flight : Nat)
  deriving Repr, DecidableEq

/-- Half of the flight stays within the bound of the threshold. -/
def RenoEvent.Within (top : Nat) : RenoEvent → Prop
  | .duplicate flight => flight / 2 ≤ top
  | .newAck => True
  | .timeout flight => flight / 2 ≤ top

namespace Reno

variable (mss : Nat)

/-- The threshold after a loss. -/
def threshold (flight : Nat) : Nat := max (flight / 2) (2 * mss)

def step (r : Reno) : RenoEvent → Reno
  | .duplicate flight =>
      if r.dup + 1 = 3 then
        { cwnd := threshold mss flight + 3 * mss, ssthresh := threshold mss flight, dup := 0 }
      else if 3 < r.dup + 1 then { r with cwnd := r.cwnd + mss, dup := r.dup + 1 }
      else { r with dup := r.dup + 1 }
  | .newAck =>
      if r.cwnd < r.ssthresh then { r with cwnd := min (r.cwnd + mss) r.ssthresh, dup := 0 }
      else { r with cwnd := r.cwnd + mss * mss / r.cwnd, dup := 0 }
  | .timeout flight => { cwnd := mss, ssthresh := threshold mss flight, dup := 0 }

/-- The greatest window, when thresholds stay at or below `top`. -/
def limit (top : Nat) : Nat := max (top + 3 * mss) (mss * mss + mss)

/-- The window is open, neither value leaves its bounds, and the count of duplicates is reset at
the third one. -/
structure Safe (top : Nat) (r : Reno) : Prop where
  opened : 1 ≤ r.cwnd
  cwnd_le : r.cwnd ≤ limit mss top
  floor : 2 * mss ≤ r.ssthresh
  ssthresh_le : r.ssthresh ≤ top
  dup_le : r.dup ≤ 2

variable {mss} {top : Nat} {r : Reno}

theorem threshold_le {flight : Nat} (hfloor : 2 * mss ≤ top) (h : flight / 2 ≤ top) :
    threshold mss flight ≤ top := Nat.max_le.mpr ⟨h, hfloor⟩

theorem le_threshold (flight : Nat) : 2 * mss ≤ threshold mss flight := Nat.le_max_right _ _

/-- Congestion avoidance does not pass the limit: a window above `mss * mss` stands still. -/
theorem avoidance_le (hopen : mss ≤ r.cwnd) (hle : r.cwnd ≤ limit mss top) :
    r.cwnd + mss * mss / r.cwnd ≤ limit mss top := by
  rcases Nat.lt_or_ge (mss * mss) r.cwnd with hlarge | hsmall
  · rw [Nat.div_eq_of_lt hlarge]
    exact hle
  · have hgrow : mss * mss / r.cwnd ≤ mss :=
      Nat.div_le_of_le_mul (Nat.mul_le_mul_right mss hopen)
    have hbound : mss * mss + mss ≤ limit mss top := Nat.le_max_right _ _
    omega

/-- **One event** keeps the bounds. -/
theorem Safe.step (h : r.Safe mss top) (hmss : 0 < mss) (hfloor : 2 * mss ≤ top) {e : RenoEvent}
    (he : RenoEvent.Within top e) : (r.step mss e).Safe mss top := by
  have hopened := h.opened
  have hceil : top + 3 * mss ≤ limit mss top := Nat.le_max_left _ _
  cases e with
  | duplicate flight =>
      have hthr := threshold_le hfloor he
      have hdup := h.dup_le
      unfold Reno.step
      dsimp only
      split_ifs with hthird hmore
      · exact ⟨by show 1 ≤ _ + _; omega, by show _ + _ ≤ _; omega, le_threshold flight, hthr,
          Nat.zero_le 2⟩
      -- the count never gets past two, so the window is not inflated
      · omega
      · exact ⟨hopened, h.cwnd_le, h.floor, h.ssthresh_le, by show r.dup + 1 ≤ 2; omega⟩
  | newAck =>
      unfold Reno.step
      dsimp only
      split_ifs with hslow
      · refine ⟨?_, ?_, h.floor, h.ssthresh_le, Nat.zero_le 2⟩
        · show 1 ≤ min _ _
          have hss := h.floor
          omega
        · show min _ _ ≤ _
          have hss := h.ssthresh_le
          omega
      · have hss := h.floor
        refine ⟨?_, ?_, h.floor, h.ssthresh_le, Nat.zero_le 2⟩
        · exact Nat.le_add_right_of_le hopened
        · exact avoidance_le (by omega) h.cwnd_le
  | timeout flight =>
      refine ⟨hmss, ?_, le_threshold flight, threshold_le hfloor he, Nat.zero_le 2⟩
      show mss ≤ _
      omega

end Reno

end Hw
