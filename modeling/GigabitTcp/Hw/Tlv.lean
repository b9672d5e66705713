/-
  GigabitTcp.Hw.Tlv — lists of options: kind, length, value.

  An option is a kind, a length that counts all of its bytes, and a value.  Two kinds stand
  alone: one ends the list, one is padding.  `walk` reads the options of a byte string that are
  complete; where an option is longer than what is left, it keeps the rest from there on.

  Main results:
    * `walk_drop`   — bytes that are skipped do not matter,
    * `walk_option`, `walk_cut` — an option that is complete, and one that is not.
-/
import Mathlib.Data.List.Basic

namespace Hw

/-- The options of a byte string, and the rest from an incomplete one on. -/
structure Tlv where
  opts : List (BitVec 8 × List (BitVec 8)) := []
  cut : List (BitVec 8) := []
  deriving Repr, DecidableEq

namespace Tlv

/-- One more option in front. -/
def cons (o : BitVec 8 × List (BitVec 8)) (t : Tlv) : Tlv := { t with opts := o :: t.opts }

variable (stop pad : BitVec 8)

/-- Read the options, after `skip` bytes of no concern. -/
def walk : Nat → List (BitVec 8) → Tlv
  | _, [] => {}
  | skip + 1, _ :: l => walk skip l
  | 0, k :: l =>
      if k = stop then {}
      else if k = pad then walk 0 l
      else
        match l with
        | [] => {}
        | ln :: v =>
            -- a length below two does not count kind and length
            if ln < 2 then {}
            else if v.length + 2 < ln.toNat then { cut := k :: ln :: v }
            else (walk (ln.toNat - 1) l).cons (k, v.take (ln.toNat - 2))

variable {stop pad}

@[simp] theorem walk_nil (skip : Nat) : walk stop pad skip [] = {} := by
  unfold walk
  rfl

/-- Skipped bytes do not matter. -/
theorem walk_drop (skip : Nat) (l : List (BitVec 8)) :
    walk stop pad skip l = walk stop pad 0 (l.drop skip) := by
  induction skip generalizing l with
  | zero => rfl
  | succ skip ih =>
      cases l with
      | nil => rw [List.drop_nil, walk_nil, walk_nil]
      | cons b l =>
          rw [walk, List.drop_succ_cons]
          exact ih l

theorem walk_stop (l : List (BitVec 8)) : walk stop pad 0 (stop :: l) = {} := by
  rw [walk.eq_def]
  exact if_pos rfl

theorem walk_pad (hpad : pad ≠ stop) (l : List (BitVec 8)) :
    walk stop pad 0 (pad :: l) = walk stop pad 0 l := by
  rw [walk.eq_def]
  dsimp only
  rw [if_neg hpad, if_pos rfl]

section Option

variable {k ln : BitVec 8}

/-- A kind without a length. -/
theorem walk_kind (hpad : pad ≠ stop) (k : BitVec 8) : walk stop pad 0 [k] = {} := by
  by_cases hstop : k = stop
  · rw [hstop, walk_stop]
  · by_cases hk : k = pad
    · rw [hk, walk_pad hpad, walk_nil]
    · rw [walk, if_neg hstop, if_neg hk]

theorem walk_short (hstop : k ≠ stop) (hpad : k ≠ pad) (hln : ln < 2) (v : List (BitVec 8)) :
    walk stop pad 0 (k :: ln :: v) = {} := by
  rw [walk, if_neg hstop, if_neg hpad]
  exact if_pos hln

/-- **An incomplete option** ends the list. -/
theorem walk_cut (hstop : k ≠ stop) (hpad : k ≠ pad) (hln : ¬ ln < 2) {v : List (BitVec 8)}
    (hlong : v.length + 2 < ln.toNat) :
    walk stop pad 0 (k :: ln :: v) = { cut := k :: ln :: v } := by
  rw [walk, if_neg hstop, if_neg hpad]
  rw [if_neg hln, if_pos hlong]

/-- **A complete option**, and the options behind it. -/
theorem walk_option (hstop : k ≠ stop) (hpad : k ≠ pad) (hln : ¬ ln < 2) {v : List (BitVec 8)}
    (hfits : ln.toNat ≤ v.length + 2) :
    walk stop pad 0 (k :: ln :: v)
      = (walk stop pad 0 (v.drop (ln.toNat - 2))).cons (k, v.take (ln.toNat - 2)) := by
  have htwo : 2 ≤ ln.toNat := Nat.not_lt.mp hln
  rw [walk, if_neg hstop, if_neg hpad]
  rw [if_neg hln, if_neg (Nat.not_lt.mpr hfits), walk_drop,
    show ln.toNat - 1 = (ln.toNat - 2) + 1 by omega, List.drop_succ_cons]

end Option

end Tlv

end Hw
