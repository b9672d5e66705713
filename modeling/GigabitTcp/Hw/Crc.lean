/-
  GigabitTcp.Hw.Crc — reflected cyclic redundancy checks, at any width and polynomial.

  The register shifts right; a set low bit folds the polynomial in.  One shift is linear in
  exclusive-or (`crcShift_xor`), and a register whose low bits are clear just moves down
  (`crcShifts_low_clear`).  Together they say what `n` appended bytes do to the register
  (`crc_leBytes`), and from that follows the receiver's constant: a message followed by its
  own masked check value, least significant byte first, leaves a register that depends on
  the mask alone (`crc_append_check`).
-/
import GigabitTcp.Hw.Words

namespace Hw

variable {w : Nat}

/-! ## §1. The register. -/

/-- One shift of the register: a set low bit folds `poly` in. -/
def crcShift (poly c : BitVec w) : BitVec w :=
  if c.getLsbD 0 then (c >>> 1) ^^^ poly else c >>> 1

/-- `n` shifts of the register. -/
def crcShifts (poly : BitVec w) : Nat → BitVec w → BitVec w
  | 0, c => c
  | n + 1, c => crcShifts poly n (crcShift poly c)

/-- Fold one byte into the register. -/
def crcByte (poly : BitVec w) (c : BitVec w) (b : U8) : BitVec w :=
  crcShifts poly 8 (c ^^^ b.setWidth w)

/-- Fold a byte string into the register. -/
def crc (poly : BitVec w) (c : BitVec w) (bs : List U8) : BitVec w :=
  bs.foldl (crcByte poly) c

theorem crc_append (poly c : BitVec w) (bs cs : List U8) :
    crc poly c (bs ++ cs) = crc poly (crc poly c bs) cs :=
  List.foldl_append

/-! ## §2. Linearity. -/

theorem crcShift_xor (poly a b : BitVec w) :
    crcShift poly (a ^^^ b) = crcShift poly a ^^^ crcShift poly b := by
  unfold crcShift
  rw [BitVec.getLsbD_xor, BitVec.ushiftRight_xor_distrib]
  -- both low bits set: the two copies of `poly` cancel
  cases a.getLsbD 0 <;> cases b.getLsbD 0 <;>
    simp only [Bool.xor_self, Bool.xor_true, Bool.xor_false, Bool.not_false,
      Bool.false_eq_true, if_true, if_false]
  · rw [BitVec.xor_assoc]
  · rw [BitVec.xor_assoc, BitVec.xor_comm (b >>> 1), ← BitVec.xor_assoc]
  · rw [BitVec.xor_assoc, ← BitVec.xor_assoc poly, BitVec.xor_comm poly, BitVec.xor_assoc,
      BitVec.xor_self, BitVec.xor_zero]

theorem crcShifts_xor (poly : BitVec w) : ∀ (n : Nat) (a b : BitVec w),
    crcShifts poly n (a ^^^ b) = crcShifts poly n a ^^^ crcShifts poly n b
  | 0, _, _ => rfl
  | n + 1, a, b => by
      simp only [crcShifts]
      rw [crcShift_xor, crcShifts_xor poly n]

/-- A register whose `n` low bits are clear only moves down through `n` shifts. -/
theorem crcShifts_low_clear (poly : BitVec w) : ∀ (n : Nat) (c : BitVec w),
    (∀ i, i < n → c.getLsbD i = false) → crcShifts poly n c = c >>> n
  | 0, c, _ => by simp [crcShifts]
  | n + 1, c, h => by
      have h0 : c.getLsbD 0 = false := h 0 (by omega)
      have hshift : crcShift poly c = c >>> 1 := by simp [crcShift, h0]
      have hrest : ∀ i, i < n → (c >>> 1).getLsbD i = false := by
        intro i hi
        rw [BitVec.getLsbD_ushiftRight]
        exact h (1 + i) (by omega)
      rw [crcShifts, hshift, crcShifts_low_clear poly n (c >>> 1) hrest,
        ← BitVec.shiftRight_add, Nat.add_comm]

theorem crcShifts_add (poly : BitVec w) (m : Nat) : ∀ (n : Nat) (c : BitVec w),
    crcShifts poly (n + m) c = crcShifts poly m (crcShifts poly n c)
  | 0, c => by simp [crcShifts]
  | n + 1, c => by
      rw [show n + 1 + m = (n + m) + 1 by omega, crcShifts, crcShifts_add poly m n]
      rfl

/-! ## §3. What appended bytes do to the register. -/

/-- The `n` low bytes of `x`, least significant first. -/
def leBytes (n : Nat) (x : BitVec w) : List U8 :=
  (List.range n).map (lsByte x)

theorem leBytes_succ (n : Nat) (x : BitVec w) :
    leBytes (n + 1) x = lsByte x 0 :: leBytes n (x >>> 8) := by
  simp only [leBytes, List.range_succ_eq_map, List.map_cons, List.map_map]
  congr 1
  apply List.map_congr_left
  intro i _
  simp only [Function.comp_apply, lsByte, ← BitVec.shiftRight_add]
  congr 2
  omega

@[simp] theorem length_leBytes (n : Nat) (x : BitVec w) : (leBytes n x).length = n := by
  simp [leBytes]

/-- A value is its low byte and the rest of it. -/
theorem low_byte_xor_high (x : BitVec w) :
    (lsByte x 0).setWidth w ^^^ ((x >>> 8) <<< 8) = x := by
  apply BitVec.eq_of_getLsbD_eq
  intro i hi
  simp only [lsByte, BitVec.getLsbD_xor, BitVec.getLsbD_setWidth, BitVec.getLsbD_shiftLeft,
    BitVec.getLsbD_ushiftRight, hi, decide_true, Bool.true_and]
  by_cases h8 : i < 8
  · simp [h8]
  · simp only [h8, decide_false, Bool.false_and, Bool.not_false, Bool.true_and, Bool.false_xor]
    congr 1
    omega

/-- The part of a value above its low byte moves down by one byte. -/
theorem crcShifts_high (poly x : BitVec w) :
    crcShifts poly 8 ((x >>> 8) <<< 8) = x >>> 8 := by
  rw [crcShifts_low_clear]
  · apply BitVec.eq_of_getLsbD_eq
    intro i hi
    simp only [BitVec.getLsbD_ushiftRight, BitVec.getLsbD_shiftLeft]
    by_cases h : 8 + i < w
    · simp [h]
    · rw [BitVec.getLsbD_of_ge x (8 + i) (by omega)]
      simp [h]
  · intro i hi
    simp [hi]

/-- **`n` appended bytes**: folding the `n` low bytes of `x` in, least significant first, is
xor-ing `x` into the register and shifting `8 n` times, if `x` has no bits beyond them. -/
theorem crc_leBytes (poly : BitVec w) : ∀ (n : Nat) (c x : BitVec w), x >>> (8 * n) = 0 →
    crc poly c (leBytes n x) = crcShifts poly (8 * n) (c ^^^ x)
  | 0, c, x, hx => by
      have h0 : x = 0 := by simpa using hx
      simp [crc, leBytes, crcShifts, h0]
  | n + 1, c, x, hx => by
      have hrest : (x >>> 8) >>> (8 * n) = 0 := by
        rw [← BitVec.shiftRight_add, ← hx]
        congr 1
        omega
      have hbyte : crcByte poly c (lsByte x 0) ^^^ (x >>> 8) = crcShifts poly 8 (c ^^^ x) := by
        calc crcByte poly c (lsByte x 0) ^^^ (x >>> 8)
            = crcShifts poly 8 (c ^^^ (lsByte x 0).setWidth w)
                ^^^ crcShifts poly 8 ((x >>> 8) <<< 8) := by rw [crcByte, crcShifts_high]
          _ = crcShifts poly 8 (c ^^^ x) := by
                rw [← crcShifts_xor, BitVec.xor_assoc, low_byte_xor_high]
      rw [leBytes_succ, show 8 * (n + 1) = 8 + 8 * n by omega, crcShifts_add, ← hbyte,
        ← crc_leBytes poly n _ (x >>> 8) hrest]
      rfl

/-- **The receiver's constant**: after a message and its check value masked with `mask`, the
register holds the same value for every message. -/
theorem crc_append_check (poly : BitVec w) (n : Nat) (hn : w ≤ 8 * n) (c mask : BitVec w)
    (msg : List U8) :
    crc poly c (msg ++ leBytes n (crc poly c msg ^^^ mask)) = crcShifts poly (8 * n) mask := by
  have hover : ∀ x : BitVec w, x >>> (8 * n) = 0 := by
    intro x
    apply BitVec.eq_of_toNat_eq
    have hx : x.toNat < 2 ^ (8 * n) :=
      lt_of_lt_of_le x.isLt (Nat.pow_le_pow_right (by omega) hn)
    rw [BitVec.toNat_ushiftRight, Nat.shiftRight_eq_div_pow, Nat.div_eq_of_lt hx]
    simp
  rw [crc_append, crc_leBytes poly n _ _ (hover _), ← BitVec.xor_assoc, BitVec.xor_self,
    BitVec.zero_xor]

end Hw
