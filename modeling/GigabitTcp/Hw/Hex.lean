/-
  GigabitTcp.Hw.Hex — hexadecimal text of words, written and read.

  A word is written with a fixed number of digits, the highest one first, and letters in upper
  case.  The reader takes digits of either case and stops at nothing: a text with another
  character in it is refused.

  Main results:
    * `digitValue?_digit` — one digit is read back,
    * `readHex?_text`     — the text of a word gives back its value.
-/
import GigabitTcp.Hw.Words

namespace Hw.Hex

open Hw

/-! ## §1. One digit. -/

/-- The character of a digit. -/
def digit (d : BitVec 4) : U8 := if d < 10 then 0x30 + d.setWidth 8 else 0x37 + d.setWidth 8

/-- The value of a character, if it is a digit. -/
def digitValue? (b : U8) : Option Nat :=
  if 0x30 ≤ b ∧ b ≤ 0x39 then some (b.toNat - 0x30)
  else if 0x41 ≤ b ∧ b ≤ 0x46 then some (b.toNat - 0x37)
  else if 0x61 ≤ b ∧ b ≤ 0x66 then some (b.toNat - 0x57)
  else none

/-- **One digit is read back.** -/
theorem digitValue?_digit (d : BitVec 4) : digitValue? (digit d) = some d.toNat := by
  unfold digit digitValue?
  by_cases hd : d < 10
  · have hval : (0x30 + d.setWidth 8 : U8).toNat = 0x30 + d.toNat := by bv_omega
    have hdigit : (0x30 : U8) ≤ 0x30 + d.setWidth 8 ∧ 0x30 + d.setWidth 8 ≤ (0x39 : U8) := by bv_omega
    rw [if_pos hd, if_pos hdigit, hval, Nat.add_sub_cancel_left]
  · have hval : (0x37 + d.setWidth 8 : U8).toNat = 0x37 + d.toNat := by bv_omega
    have hdigit : ¬ ((0x30 : U8) ≤ 0x37 + d.setWidth 8 ∧ 0x37 + d.setWidth 8 ≤ (0x39 : U8)) := by bv_omega
    have hletter : (0x41 : U8) ≤ 0x37 + d.setWidth 8 ∧ 0x37 + d.setWidth 8 ≤ (0x46 : U8) := by bv_omega
    rw [if_neg hd, if_neg hdigit, if_pos hletter, hval, Nat.add_sub_cancel_left]

/-! ## §2. Words. -/

/-- Digit `k` of the `n` digits of a word. -/
def wordDigit {w : Nat} (n : Nat) (v : BitVec w) (k : Nat) : BitVec 4 := v.extractLsb' (4 * (n - 1 - k)) 4

/-- The `n` digits of a word. -/
def text {w : Nat} (n : Nat) (v : BitVec w) : List U8 :=
  (List.range n).map fun k => digit (wordDigit n v k)

/-- The number that a text stands for. -/
def readHex? (l : List U8) : Option Nat :=
  l.foldl (fun acc b => acc.bind fun v => (digitValue? b).map fun d => v * 16 + d) (some 0)

@[simp] theorem length_text {w : Nat} (n : Nat) (v : BitVec w) : (text n v).length = n := by
  simp [text]

/-- The last digit is the lowest one. -/
theorem text_succ {w : Nat} (n : Nat) (v : BitVec w) :
    text (n + 1) v = text n (v >>> 4) ++ [digit (v.extractLsb' 0 4)] := by
  have hlast : wordDigit (n + 1) v n = v.extractLsb' 0 4 := by
    unfold wordDigit
    rw [Nat.add_sub_cancel, Nat.sub_self]
  have hfront : ∀ k, k < n → wordDigit (n + 1) v k = wordDigit n (v >>> 4) k := by
    intro k hk
    apply BitVec.eq_of_getLsbD_eq
    intro j hj
    simp only [wordDigit, BitVec.getLsbD_extractLsb', BitVec.getLsbD_ushiftRight]
    rw [show 4 * (n + 1 - 1 - k) + j = 4 + (4 * (n - 1 - k) + j) by omega]
  rw [text, List.range_succ, List.map_append, List.map_singleton, hlast]
  refine congrArg (· ++ [digit (v.extractLsb' 0 4)]) (List.map_congr_left ?_)
  intro k hk
  rw [hfront k (List.mem_range.mp hk)]

/-- **The text of a word** gives back its value. -/
theorem readHex?_text {w : Nat} (n : Nat) (v : BitVec w) : readHex? (text n v) = some (v.toNat % 16 ^ n) := by
  induction n generalizing v with
  | zero => simp [text, readHex?, Nat.mod_one]
  | succ n ih =>
      have hfront := ih (v >>> 4)
      unfold readHex? at hfront ⊢
      rw [text_succ, List.foldl_append, hfront]
      have hlow : (v.extractLsb' 0 4).toNat = v.toNat % 16 := by
        simp [BitVec.extractLsb'_toNat]
      have hhigh : (v >>> 4).toNat = v.toNat / 16 := by
        simp [BitVec.toNat_ushiftRight, Nat.shiftRight_eq_div_pow]
      have hsplit : v.toNat / 16 % 16 ^ n * 16 + v.toNat % 16 = v.toNat % 16 ^ (n + 1) := by
        rw [Nat.pow_succ', Nat.mod_mul, Nat.mul_comm, Nat.add_comm]
      simp [digitValue?_digit, hlow, hhigh, hsplit]

/-- Enough digits for the whole word. -/
theorem readHex?_text_word {n : Nat} (v : BitVec (4 * n)) : readHex? (text n v) = some v.toNat := by
  have hlt : v.toNat < 16 ^ n := by
    have h := v.isLt
    rwa [Nat.pow_mul] at h
  rw [readHex?_text, Nat.mod_eq_of_lt hlt]

end Hw.Hex
