/-
  GigabitTcp.Hw.Words — bytes and big-endian machine words.

  A byte-serial datapath builds a word by shifting bytes in from the right and takes one
  apart by shifting the wanted byte down and masking it.  This file fixes both operations
  at an arbitrary width, reads each of them as arithmetic on naturals (`toNat_pushByte`,
  `toNat_wordByte`), and derives the round trips between four bytes and a 32-bit word and
  between a byte list and the list of words it is packed into.

  Main results:
    * `wordByte_packWord`   — a packed word gives its four bytes back,
    * `packWord_wordByte`   — a word is the packing of its own bytes,
    * `toNat_foldl_pushByte` — shifting the bytes of a value in restores the value,
    * `wordByte_packWords_getD` — byte `k` of a packed list is byte `k % 4` of word `k / 4`,
    * `countTo_succ`        — a wrapping counter comes one step closer to its target.
-/
import Mathlib.Data.BitVec
import Mathlib.Tactic.Linarith
import Mathlib.Tactic.Positivity
import Mathlib.Tactic.Ring

namespace Hw

/-! ## §1. Fixed-width values. -/

abbrev U8 := BitVec 8
abbrev U10 := BitVec 10
abbrev U16 := BitVec 16
abbrev U32 := BitVec 32
abbrev U48 := BitVec 48
abbrev U64 := BitVec 64

/-- Shift the byte `b` into `acc` from the right. -/
def pushByte {w : Nat} (acc : BitVec w) (b : U8) : BitVec w :=
  (acc <<< 8) ||| b.setWidth w

/-- Byte `k` of `v`, counted from the least significant one. -/
def lsByte {w : Nat} (v : BitVec w) (k : Nat) : U8 :=
  (v >>> (k * 8)).setWidth 8

/-- Byte `i` of a word, counted from the most significant one. -/
def wordByte (x : U32) (i : Nat) : U8 :=
  ((x >>> ((3 - i) * 8)) &&& 0xFF#32).setWidth 8

/-- Two bytes, most significant first. -/
def be16 (b0 b1 : U8) : U16 :=
  (b0.setWidth 16 <<< 8) ||| b1.setWidth 16

/-- Four bytes, most significant first. -/
def packWord (b0 b1 b2 b3 : U8) : U32 :=
  (b0.setWidth 32 <<< 24) ||| (b1.setWidth 32 <<< 16) ||| (b2.setWidth 32 <<< 8)
    ||| b3.setWidth 32

/-! ## §2. Reading the operations as arithmetic. -/

/-- A counter that steps once and then `k` times has stepped `k + 1` times. -/
theorem add_ofNat_succ {w : Nat} (n : BitVec w) (k : Nat) :
    n + BitVec.ofNat w (k + 1) = n + 1 + BitVec.ofNat w k := by
  rw [BitVec.ofNat_add, BitVec.add_assoc, BitVec.add_comm (BitVec.ofNat w k)]
  rfl

/-- Disjoint bit ranges: `or` of a multiple of `2 ^ k` and a value below `2 ^ k` is a sum. -/
theorem mul_two_pow_or {a b k : Nat} (hb : b < 2 ^ k) : a * 2 ^ k ||| b = a * 2 ^ k + b := by
  rw [← Nat.shiftLeft_eq, ← Nat.shiftLeft_add_eq_or_of_lt hb]

theorem toNat_pushByte {w : Nat} (hw : 8 ≤ w) (acc : BitVec w) (b : U8) :
    (pushByte acc b).toNat = (acc.toNat * 256 + b.toNat) % 2 ^ w := by
  have hb : b.toNat < 2 ^ 8 := b.isLt
  have hpow : 2 ^ w = 2 ^ (w - 8) * 2 ^ 8 := by rw [← Nat.pow_add]; congr 1; omega
  have hbw : b.toNat < 2 ^ w := by
    have : 1 ≤ 2 ^ (w - 8) := Nat.one_le_two_pow
    rw [hpow]; nlinarith
  have hshl : acc.toNat * 2 ^ 8 % 2 ^ w = acc.toNat % 2 ^ (w - 8) * 2 ^ 8 := by
    rw [hpow, Nat.mul_mod_mul_right]
  simp only [pushByte, BitVec.toNat_or, BitVec.toNat_shiftLeft, BitVec.toNat_setWidth,
    Nat.shiftLeft_eq, Nat.mod_eq_of_lt hbw]
  rw [hshl, mul_two_pow_or hb]
  have hlt : acc.toNat % 2 ^ (w - 8) * 2 ^ 8 + b.toNat < 2 ^ w := by
    have : acc.toNat % 2 ^ (w - 8) < 2 ^ (w - 8) := Nat.mod_lt _ (by positivity)
    rw [hpow]; nlinarith
  have hsplit : acc.toNat * 256 = acc.toNat / 2 ^ (w - 8) * 2 ^ w
      + acc.toNat % 2 ^ (w - 8) * 2 ^ 8 := by
    have hdm := Nat.div_add_mod acc.toNat (2 ^ (w - 8))
    calc acc.toNat * 256
        = (2 ^ (w - 8) * (acc.toNat / 2 ^ (w - 8)) + acc.toNat % 2 ^ (w - 8)) * 2 ^ 8 := by
          rw [hdm]; norm_num
      _ = _ := by rw [hpow]; ring
  rw [hsplit, Nat.add_assoc, Nat.mul_add_mod_self_right, Nat.mod_eq_of_lt hlt]

theorem toNat_lsByte {w : Nat} (v : BitVec w) (k : Nat) :
    (lsByte v k).toNat = v.toNat / 2 ^ (k * 8) % 256 := by
  simp [lsByte, Nat.shiftRight_eq_div_pow]

theorem toNat_wordByte (x : U32) (i : Nat) :
    (wordByte x i).toNat = x.toNat / 2 ^ ((3 - i) * 8) % 256 := by
  have h255 : ∀ n : Nat, n &&& 255 = n % 256 := fun n => Nat.and_two_pow_sub_one_eq_mod n 8
  simp [wordByte, Nat.shiftRight_eq_div_pow, h255]

theorem wordByte_eq_lsByte (x : U32) (i : Nat) : wordByte x i = lsByte x (3 - i) := by
  apply BitVec.eq_of_toNat_eq
  rw [toNat_wordByte, toNat_lsByte]

theorem toNat_be16 (b0 b1 : U8) : (be16 b0 b1).toNat = b0.toNat * 256 + b1.toNat := by
  have h0 : b0.toNat < 256 := b0.isLt
  have h1 : b1.toNat < 2 ^ 8 := b1.isLt
  simp only [be16, BitVec.toNat_or, BitVec.toNat_shiftLeft, BitVec.toNat_setWidth,
    Nat.shiftLeft_eq]
  rw [Nat.mod_eq_of_lt (by omega : b0.toNat < 2 ^ 16), Nat.mod_eq_of_lt (by omega : b1.toNat < 2 ^ 16),
    Nat.mod_eq_of_lt (by omega), mul_two_pow_or h1]
  rfl

theorem toNat_packWord (b0 b1 b2 b3 : U8) :
    (packWord b0 b1 b2 b3).toNat
      = b0.toNat * 2 ^ 24 + b1.toNat * 2 ^ 16 + b2.toNat * 2 ^ 8 + b3.toNat := by
  have h0 : b0.toNat < 256 := b0.isLt
  have h1 : b1.toNat < 256 := b1.isLt
  have h2 : b2.toNat < 256 := b2.isLt
  have h3 : b3.toNat < 256 := b3.isLt
  simp only [packWord, BitVec.toNat_or, BitVec.toNat_shiftLeft, BitVec.toNat_setWidth,
    Nat.shiftLeft_eq]
  rw [Nat.mod_eq_of_lt (by omega : b0.toNat < 2 ^ 32), Nat.mod_eq_of_lt (by omega : b1.toNat < 2 ^ 32),
    Nat.mod_eq_of_lt (by omega : b2.toNat < 2 ^ 32), Nat.mod_eq_of_lt (by omega : b3.toNat < 2 ^ 32),
    Nat.mod_eq_of_lt (by omega : b0.toNat * 2 ^ 24 < 2 ^ 32),
    Nat.mod_eq_of_lt (by omega : b1.toNat * 2 ^ 16 < 2 ^ 32),
    Nat.mod_eq_of_lt (by omega : b2.toNat * 2 ^ 8 < 2 ^ 32),
    mul_two_pow_or (by omega : b1.toNat * 2 ^ 16 < 2 ^ 24),
    show b0.toNat * 2 ^ 24 + b1.toNat * 2 ^ 16 = (b0.toNat * 256 + b1.toNat) * 2 ^ 16 by ring,
    mul_two_pow_or (by omega : b2.toNat * 2 ^ 8 < 2 ^ 16),
    show (b0.toNat * 256 + b1.toNat) * 2 ^ 16 + b2.toNat * 2 ^ 8
      = ((b0.toNat * 256 + b1.toNat) * 256 + b2.toNat) * 2 ^ 8 by ring,
    mul_two_pow_or (by omega : b3.toNat < 2 ^ 8)]

/-! ## §3. Round trips between words and bytes. -/

@[simp] theorem wordByte_packWord_zero (b0 b1 b2 b3 : U8) :
    wordByte (packWord b0 b1 b2 b3) 0 = b0 := by
  apply BitVec.eq_of_toNat_eq
  rw [toNat_wordByte, toNat_packWord]
  omega

@[simp] theorem wordByte_packWord_one (b0 b1 b2 b3 : U8) :
    wordByte (packWord b0 b1 b2 b3) 1 = b1 := by
  apply BitVec.eq_of_toNat_eq
  rw [toNat_wordByte, toNat_packWord]
  omega

@[simp] theorem wordByte_packWord_two (b0 b1 b2 b3 : U8) :
    wordByte (packWord b0 b1 b2 b3) 2 = b2 := by
  apply BitVec.eq_of_toNat_eq
  rw [toNat_wordByte, toNat_packWord]
  omega

@[simp] theorem wordByte_packWord_three (b0 b1 b2 b3 : U8) :
    wordByte (packWord b0 b1 b2 b3) 3 = b3 := by
  apply BitVec.eq_of_toNat_eq
  rw [toNat_wordByte, toNat_packWord]
  omega

/-- Byte `i` of a packed word, for the four byte positions at once. -/
theorem wordByte_packWord (f : Nat → U8) (i : Nat) (hi : i < 4) :
    wordByte (packWord (f 0) (f 1) (f 2) (f 3)) i = f i := by
  match i, hi with
  | 0, _ => exact wordByte_packWord_zero ..
  | 1, _ => exact wordByte_packWord_one ..
  | 2, _ => exact wordByte_packWord_two ..
  | 3, _ => exact wordByte_packWord_three ..

/-- A word is the packing of its own four bytes. -/
theorem packWord_wordByte (x : U32) :
    packWord (wordByte x 0) (wordByte x 1) (wordByte x 2) (wordByte x 3) = x := by
  apply BitVec.eq_of_toNat_eq
  have hx : x.toNat < 2 ^ 32 := x.isLt
  simp only [toNat_packWord, toNat_wordByte]
  omega

theorem getLsbD_byteMask (n : Nat) : (0xFF#32).getLsbD n = decide (n < 8) := by
  by_cases hn : n < 32
  · revert n
    decide
  · rw [BitVec.getLsbD_of_ge _ _ (by omega)]
    exact (decide_eq_false (by omega)).symm

/-- Byte `o` of a word is replaced through a mask; the other bytes stand. -/
theorem wordByte_mask (w : U32) (v : U8) {i o : Nat} (hi : i < 4) (ho : o < 4) :
    wordByte ((w &&& ~~~(0xFF#32 <<< ((3 - o) * 8))) ||| (v.setWidth 32 <<< ((3 - o) * 8))) i
      = if i = o then v else wordByte w i := by
  unfold wordByte
  apply BitVec.eq_of_getLsbD_eq
  intro j hj
  simp only [BitVec.getLsbD_setWidth, BitVec.getLsbD_and, BitVec.getLsbD_ushiftRight,
    BitVec.getLsbD_or, BitVec.getLsbD_not, BitVec.getLsbD_shiftLeft, getLsbD_byteMask]
  by_cases hio : i = o
  · subst hio
    simp [hj, show (3 - i) * 8 + j < 32 by omega, show j < 32 by omega]
  · rw [if_neg hio]
    simp only [BitVec.getLsbD_setWidth, BitVec.getLsbD_and, BitVec.getLsbD_ushiftRight, getLsbD_byteMask]
    rcases Nat.lt_or_gt_of_ne hio with hlt | hgt
    · -- the byte lies above the one that is replaced
      have hout : v.getLsbD ((3 - i) * 8 + j - (3 - o) * 8) = false :=
        BitVec.getLsbD_of_ge _ _ (by omega)
      simp [hout, show (3 - i) * 8 + j < 32 by omega, show ¬ (3 - i) * 8 + j - (3 - o) * 8 < 8 by omega]
    · have hbelow : (3 - i) * 8 + j < (3 - o) * 8 := by omega
      simp [hbelow, show (3 - i) * 8 + j < 32 by omega]

theorem getLsbD_highHalf {n : Nat} (hn : n < 32) : (0xFFFF0000#32).getLsbD n = decide (16 ≤ n) := by
  revert n
  decide

/-- The lower half of a word is replaced through a mask; the upper half stands. -/
theorem wordByte_lowHalf (w : U32) (c : U16) {i : Nat} (hi : i < 4) :
    wordByte ((w &&& 0xFFFF0000#32) ||| c.setWidth 32) i
      = if i < 2 then wordByte w i else lsByte c (3 - i) := by
  unfold wordByte lsByte
  apply BitVec.eq_of_getLsbD_eq
  intro j hj
  have hn : (3 - i) * 8 + j < 32 := by omega
  simp only [BitVec.getLsbD_setWidth, BitVec.getLsbD_and, BitVec.getLsbD_ushiftRight,
    BitVec.getLsbD_or, getLsbD_byteMask, getLsbD_highHalf hn]
  by_cases h : i < 2
  · have hout : c.getLsbD ((3 - i) * 8 + j) = false := BitVec.getLsbD_of_ge _ _ (by omega)
    rw [if_pos h]
    simp only [BitVec.getLsbD_setWidth, BitVec.getLsbD_and, BitVec.getLsbD_ushiftRight,
      getLsbD_byteMask, hout]
    simp [hj, show 16 ≤ (3 - i) * 8 + j by omega]
  · simp [h, hj, hn, show ¬ 16 ≤ (3 - i) * 8 + j by omega]
/-- The first byte pushed into an empty accumulator is a single-byte word. -/
theorem packWord_eq_pushByte (b0 b1 b2 b3 : U8) :
    pushByte (pushByte (pushByte (pushByte (0 : U32) b0) b1) b2) b3 = packWord b0 b1 b2 b3 := by
  have h0 : b0.toNat < 256 := b0.isLt
  have h1 : b1.toNat < 256 := b1.isLt
  have h2 : b2.toNat < 256 := b2.isLt
  have h3 : b3.toNat < 256 := b3.isLt
  apply BitVec.eq_of_toNat_eq
  simp only [toNat_pushByte (show 8 ≤ 32 by omega), toNat_packWord]
  omega

/-! ## §4. Big-endian byte strings of a fixed-width value. -/

/-- The `n` low bytes of `v`, most significant first. -/
def wordBytes {w : Nat} (n : Nat) (v : BitVec w) : List U8 :=
  (List.range n).map (fun i => lsByte v (n - 1 - i))

@[simp] theorem length_wordBytes {w : Nat} (n : Nat) (v : BitVec w) :
    (wordBytes n v).length = n := by
  simp [wordBytes]

/-- Four bytes of a word make the word. -/
theorem packWord_wordBytes (x : U32) :
    packWord ((wordBytes 4 x).getD 0 0) ((wordBytes 4 x).getD 1 0) ((wordBytes 4 x).getD 2 0)
      ((wordBytes 4 x).getD 3 0) = x := by
  have hword := packWord_wordByte x
  simp only [wordByte_eq_lsByte] at hword
  exact hword

theorem wordBytes_succ {w : Nat} (n : Nat) (v : BitVec w) :
    wordBytes (n + 1) v = lsByte v n :: wordBytes n v := by
  simp only [wordBytes, List.range_succ_eq_map, List.map_cons, List.map_map]
  congr 1
  apply List.map_congr_left
  intro i _
  simp only [Function.comp_apply]
  congr 1
  omega

/-- Shifting the `n` low bytes of `v` into an accumulator appends them in base `256`. -/
theorem toNat_foldl_pushByte {w w' : Nat} (hw : 8 ≤ w) (v : BitVec w') :
    ∀ (n : Nat) (acc : BitVec w), acc.toNat * 2 ^ (n * 8) + v.toNat % 2 ^ (n * 8) < 2 ^ w →
      ((wordBytes n v).foldl pushByte acc).toNat
        = acc.toNat * 2 ^ (n * 8) + v.toNat % 2 ^ (n * 8)
  | 0, acc, _ => by simp [wordBytes, Nat.mod_one]
  | n + 1, acc, h => by
      have hstep : v.toNat % 2 ^ ((n + 1) * 8)
          = v.toNat / 2 ^ (n * 8) % 256 * 2 ^ (n * 8) + v.toNat % 2 ^ (n * 8) := by
        rw [show (n + 1) * 8 = n * 8 + 8 by ring, Nat.pow_add, Nat.mod_mul]
        ring
      have hpow : 2 ^ ((n + 1) * 8) = 256 * 2 ^ (n * 8) := by
        rw [show (n + 1) * 8 = n * 8 + 8 by ring, Nat.pow_add]
        ring
      -- pushing the next byte does not overflow, the whole value still fitting
      have hpush : (pushByte acc (lsByte v n)).toNat
          = acc.toNat * 256 + v.toNat / 2 ^ (n * 8) % 256 := by
        rw [toNat_pushByte hw, toNat_lsByte, Nat.mod_eq_of_lt]
        refine lt_of_le_of_lt ?_ h
        rw [hstep, hpow]
        have hone : 1 ≤ 2 ^ (n * 8) := Nat.one_le_two_pow
        calc acc.toNat * 256 + v.toNat / 2 ^ (n * 8) % 256
            ≤ (acc.toNat * 256 + v.toNat / 2 ^ (n * 8) % 256) * 2 ^ (n * 8) :=
              Nat.le_mul_of_pos_right _ hone
          _ ≤ _ := by
              rw [Nat.add_mul, Nat.mul_assoc]
              omega
      rw [wordBytes_succ, List.foldl_cons,
        toNat_foldl_pushByte hw v n (pushByte acc (lsByte v n)) ?_, hpush, hstep, hpow]
      · ring
      · rw [hpush]
        refine lt_of_le_of_lt (le_of_eq ?_) h
        rw [hstep, hpow]
        ring

theorem lsByte_pushByte_zero {w : Nat} (hw : 8 ≤ w) (v : BitVec w) (b : U8) :
    lsByte (pushByte v b) 0 = b := by
  apply BitVec.eq_of_toNat_eq
  have hb : b.toNat < 256 := b.isLt
  have hdvd : 256 ∣ 2 ^ w := Nat.pow_dvd_pow 2 hw
  rw [toNat_lsByte, toNat_pushByte hw]
  simp only [Nat.zero_mul, Nat.pow_zero, Nat.div_one]
  rw [Nat.mod_mod_of_dvd _ hdvd]
  omega

/-- Pushing a byte moves the others up, as long as the one looked at stays inside. -/
theorem lsByte_pushByte_succ {w : Nat} (v : BitVec w) (b : U8) {k : Nat} (hk : (k + 2) * 8 ≤ w) :
    lsByte (pushByte v b) (k + 1) = lsByte v k := by
  apply BitVec.eq_of_toNat_eq
  have hb : b.toNat < 256 := b.isLt
  have hsplit : 2 ^ w = 2 ^ ((k + 1) * 8) * 2 ^ (w - (k + 1) * 8) := by
    rw [← Nat.pow_add]; congr 1; omega
  have hdvd : 256 ∣ 2 ^ (w - (k + 1) * 8) := Nat.pow_dvd_pow 2 (by omega : 8 ≤ w - (k + 1) * 8)
  have hpow : 2 ^ ((k + 1) * 8) = 256 * 2 ^ (k * 8) := by
    rw [show (k + 1) * 8 = k * 8 + 8 by ring, Nat.pow_add]
    ring
  have hdiv : (v.toNat * 256 + b.toNat) / 256 = v.toNat := by omega
  rw [toNat_lsByte, toNat_lsByte, toNat_pushByte (by omega), hsplit, Nat.mod_mul_right_div_self,
    Nat.mod_mod_of_dvd _ hdvd, hpow, ← Nat.div_div_eq_div_mul, hdiv]

/-- An accumulator holds the bytes shifted in last, the latest one lowest. -/
theorem lsByte_foldl_pushByte {w : Nat} (l : List U8) (acc : BitVec w) {k : Nat}
    (hk : (k + 1) * 8 ≤ w) {b : U8} (hb : l.reverse[k]? = some b) :
    lsByte (l.foldl pushByte acc) k = b := by
  induction l using List.reverseRecOn generalizing k with
  | nil => simp at hb
  | append_singleton l x ih =>
      rw [List.foldl_append, List.foldl_cons, List.foldl_nil]
      rw [List.reverse_append, List.reverse_singleton, List.singleton_append] at hb
      cases k with
      | zero =>
          rw [lsByte_pushByte_zero (by omega)]
          simpa using hb
      | succ k =>
          rw [lsByte_pushByte_succ _ _ hk]
          exact ih (by omega) (by simpa using hb)

theorem wordBytes_pushByte {w : Nat} (v : BitVec w) (b : U8) {n : Nat} (hn : (n + 1) * 8 ≤ w) :
    wordBytes (n + 1) (pushByte v b) = wordBytes n v ++ [b] := by
  simp only [wordBytes, List.range_succ, List.map_append, List.map_singleton]
  congr 1
  · refine List.map_congr_left (fun i hi => ?_)
    rw [List.mem_range] at hi
    rw [show n + 1 - 1 - i = (n - 1 - i) + 1 by omega]
    exact lsByte_pushByte_succ v b (le_trans (Nat.mul_le_mul_right 8 (by omega)) hn)
  · rw [show n + 1 - 1 - n = 0 by omega, lsByte_pushByte_zero (by omega)]

/-- A byte string shifted into an empty accumulator is read back. -/
theorem wordBytes_foldl_pushByte {w : Nat} (l : List U8) (h : l.length * 8 ≤ w) :
    wordBytes l.length (l.foldl pushByte (0 : BitVec w)) = l := by
  induction l using List.reverseRecOn with
  | nil => rfl
  | append_singleton l b ih =>
      rw [List.length_append, List.length_singleton] at h ⊢
      rw [List.foldl_append, List.foldl_cons, List.foldl_nil, wordBytes_pushByte _ _ h,
        ih (by omega)]

/-! ## §5. Packing a byte string into words. -/

/-- Big-endian packing of a byte string; the last word is zero-padded on the right. -/
def packWords : List U8 → List U32
  | [] => []
  | [b0] => [packWord b0 0 0 0]
  | [b0, b1] => [packWord b0 b1 0 0]
  | [b0, b1, b2] => [packWord b0 b1 b2 0]
  | b0 :: b1 :: b2 :: b3 :: rest => packWord b0 b1 b2 b3 :: packWords rest

theorem length_packWords : ∀ l : List U8, (packWords l).length = (l.length + 3) / 4
  | [] => rfl
  | [_] => by simp [packWords]
  | [_, _] => by simp [packWords]
  | [_, _, _] => by simp [packWords]
  | b0 :: b1 :: b2 :: b3 :: rest => by
      simp only [packWords, List.length_cons, length_packWords rest]
      omega

/-- Byte `k` of a packed string is found in word `k / 4` at position `k % 4`. -/
theorem wordByte_packWords_getD :
    ∀ (l : List U8) (k : Nat), k < l.length →
      wordByte ((packWords l).getD (k / 4) 0) (k % 4) = l.getD k 0
  | [], k, h => by simp at h
  | [b0], k, h => by
      obtain rfl : k = 0 := by simpa using h
      simp [packWords]
  | [b0, b1], k, h => by
      rcases (show k = 0 ∨ k = 1 by simp at h; omega) with rfl | rfl <;> simp [packWords]
  | [b0, b1, b2], k, h => by
      rcases (show k = 0 ∨ k = 1 ∨ k = 2 by simp at h; omega) with rfl | rfl | rfl <;>
        simp [packWords]
  | b0 :: b1 :: b2 :: b3 :: rest, k, h => by
      rcases (show k = 0 ∨ k = 1 ∨ k = 2 ∨ k = 3 ∨ 4 ≤ k by omega) with
        rfl | rfl | rfl | rfl | hk
      · simp [packWords]
      · simp [packWords]
      · simp [packWords]
      · simp [packWords]
      -- a byte of a later word
      · obtain ⟨j, rfl⟩ : ∃ j, k = j + 4 := ⟨k - 4, by omega⟩
        have hj : j < rest.length := by simp at h; omega
        have hdiv : (j + 4) / 4 = j / 4 + 1 := by omega
        have hmod : (j + 4) % 4 = j % 4 := by omega
        rw [packWords, hdiv, hmod, List.getD_cons_succ, wordByte_packWords_getD rest j hj]
        rfl

/-! ## §6. Counters. -/

/-- How many steps a counter takes that counts up by one, with wrap-around, until it meets
`target`; at least one. -/
def countTo {w : Nat} (target cnt : BitVec w) : Nat := (target - cnt - 1).toNat + 1

theorem countTo_last {w : Nat} {target cnt : BitVec w} (h : cnt + 1 = target) :
    countTo target cnt = 1 := by
  have hnone : target - cnt - 1 = 0 := by grind
  unfold countTo
  rw [hnone]
  simp

theorem countTo_succ {w : Nat} {target cnt : BitVec w} (h : cnt + 1 ≠ target) :
    countTo target (cnt + 1) + 1 = countTo target cnt := by
  have hleft : target - cnt - 1 ≠ 0 := fun h0 => h (by grind)
  have hnext : target - (cnt + 1) - 1 = target - cnt - 1 - 1 := by grind
  have hpos : 0 < (target - cnt - 1).toNat := by
    rw [Nat.pos_iff_ne_zero]
    exact fun h0 => hleft (BitVec.eq_of_toNat_eq (by simpa using h0))
  have hone : (1 : BitVec w).toNat = 1 := by
    have hlt := (target - cnt - 1).isLt
    show 1 % 2 ^ w = 1
    exact Nat.mod_eq_of_lt (by omega)
  unfold countTo
  rw [hnext, BitVec.toNat_sub_of_le (by rw [BitVec.le_def, hone]; omega), hone]
  omega

/-- From zero, `target` steps. -/
theorem countTo_zero {w : Nat} {target : BitVec w} (h : 0 < target.toNat) :
    countTo target 0 = target.toNat := by
  have hlt := target.isLt
  have hone : (1 : BitVec w).toNat = 1 := by
    show 1 % 2 ^ w = 1
    exact Nat.mod_eq_of_lt (by omega)
  have hstart : target - 0 - 1 = target - 1 := by grind
  unfold countTo
  rw [hstart, BitVec.toNat_sub_of_le (by rw [BitVec.le_def, hone]; omega), hone]
  omega

end Hw
