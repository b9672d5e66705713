/-
  GigabitTcp.Hw.Decimal — decimal text, written and read.

  The numeral of a number is its decimal digits, most significant first, with no zero in front;
  four numerals with dots between them are a dotted quad.  The reader takes the longest run of
  digits, so a numeral is read back in front of anything that is not a digit.

  Main results:
    * `readNumber?_numeral` — a numeral is read back, up to the first byte that is no digit,
    * `numeral_one`, `numeral_two`, `numeral_three` — the numerals below a thousand,
    * `readDotted?_dotted`  — a dotted quad gives back its four octets.
-/
import GigabitTcp.Hw.Words
import Mathlib.Data.Nat.Digits.Defs

namespace Hw.Decimal

open Hw

/-! ## §1. Numerals. -/

/-- The character of a digit. -/
def digit (d : Nat) : U8 := BitVec.ofNat 8 (0x30 + d)

def isDigit (b : U8) : Bool := 0x30 ≤ b && b ≤ 0x39

/-- The decimal numeral of a number. -/
def numeral (n : Nat) : List U8 :=
  if n = 0 then [digit 0] else ((Nat.digits 10 n).map digit).reverse

/-- The number that a string of digits stands for. -/
def value (l : List U8) : Nat := l.foldl (fun v b => v * 10 + (b.toNat - 0x30)) 0

theorem toNat_digit {d : Nat} (h : d < 10) : (digit d).toNat = 0x30 + d := by
  unfold digit
  rw [BitVec.toNat_ofNat]
  exact Nat.mod_eq_of_lt (by omega)

theorem isDigit_digit {d : Nat} (h : d < 10) : isDigit (digit d) = true := by
  have hd := toNat_digit h
  unfold isDigit
  rw [Bool.and_eq_true, decide_eq_true_eq, decide_eq_true_eq, BitVec.le_def, BitVec.le_def, hd]
  constructor
  · show 48 ≤ 48 + d
    omega
  · show 48 + d ≤ 57
    omega

theorem value_concat (l : List U8) (b : U8) : value (l ++ [b]) = value l * 10 + (b.toNat - 0x30) := by
  unfold value
  rw [List.foldl_append]
  rfl

/-- Digits, least significant first, turned round. -/
theorem value_reverse (ds : List Nat) (h : ∀ d ∈ ds, d < 10) :
    value (ds.map digit).reverse = Nat.ofDigits 10 ds := by
  induction ds with
  | nil => rfl
  | cons d ds ih =>
      rw [List.map_cons, List.reverse_cons, value_concat, ih fun x hx => h x (List.mem_cons_of_mem _ hx),
        toNat_digit (h d List.mem_cons_self), Nat.ofDigits_cons, Nat.add_sub_cancel_left]
      omega

theorem digits_lt {n d : Nat} (h : d ∈ Nat.digits 10 n) : d < 10 := Nat.digits_lt_base (by omega) h

/-- **A numeral stands for its number.** -/
theorem value_numeral (n : Nat) : value (numeral n) = n := by
  unfold numeral
  by_cases hn : n = 0
  · rw [if_pos hn, hn]
    rfl
  · rw [if_neg hn, value_reverse _ fun d => digits_lt, Nat.ofDigits_digits]

theorem numeral_isDigit {n : Nat} {b : U8} (h : b ∈ numeral n) : isDigit b = true := by
  unfold numeral at h
  split at h
  · rw [List.mem_singleton.mp h]
    exact isDigit_digit (by omega)
  · obtain ⟨d, hd, rfl⟩ := List.mem_map.mp (List.mem_reverse.mp h)
    exact isDigit_digit (digits_lt hd)

theorem numeral_ne_nil (n : Nat) : numeral n ≠ [] := by
  unfold numeral
  split
  · exact List.cons_ne_nil _ _
  · rename_i hn
    rw [ne_eq, List.reverse_eq_nil_iff, List.map_eq_nil_iff, Nat.digits_eq_nil_iff_eq_zero]
    exact hn

/-- One more digit at the end. -/
theorem numeral_append {n d : Nat} (hn : n ≠ 0) (hd : d < 10) :
    numeral (n * 10 + d) = numeral n ++ [digit d] := by
  have hmod : (n * 10 + d) % 10 = d := by omega
  have hdiv : (n * 10 + d) / 10 = n := by omega
  unfold numeral
  rw [if_neg (by omega), if_neg hn, Nat.digits_def' (by omega) (by omega), hmod, hdiv, List.map_cons,
    List.reverse_cons]

theorem numeral_one {d : Nat} (hd : d < 10) : numeral d = [digit d] := by
  unfold numeral
  by_cases hzero : d = 0
  · rw [if_pos hzero, hzero]
  · rw [if_neg hzero, Nat.digits_of_lt 10 d hzero hd]
    rfl

theorem numeral_two {n : Nat} (hmin : 10 ≤ n) (hmax : n < 100) :
    numeral n = [digit (n / 10), digit (n % 10)] := by
  have h := numeral_append (n := n / 10) (d := n % 10) (by omega) (Nat.mod_lt _ (by omega))
  rw [show n / 10 * 10 + n % 10 = n by omega, numeral_one (d := n / 10) (by omega)] at h
  exact h

theorem numeral_three {n : Nat} (hmin : 100 ≤ n) (hmax : n < 1000) :
    numeral n = [digit (n / 100), digit (n % 100 / 10), digit (n % 10)] := by
  have h := numeral_append (n := n / 10) (d := n % 10) (by omega) (Nat.mod_lt _ (by omega))
  rw [show n / 10 * 10 + n % 10 = n by omega, numeral_two (n := n / 10) (by omega) (by omega),
    show n / 10 / 10 = n / 100 by omega, show n / 10 % 10 = n % 100 / 10 by omega] at h
  exact h

/-! ## §2. Reading. -/

/-- Read the longest run of digits: the number, and what follows. -/
def readNumber? (l : List U8) : Option (Nat × List U8) :=
  if l.takeWhile isDigit = [] then none
  else some (value (l.takeWhile isDigit), l.dropWhile isDigit)

/-- Read a given string. -/
def expect? : List U8 → List U8 → Option (List U8)
  | [], l => some l
  | b :: bs, c :: l => if c = b then expect? bs l else none
  | _ :: _, [] => none

/-- Read a string that is a number. -/
def readNumeral? (l : List U8) : Option Nat :=
  match readNumber? l with
  | some (n, []) => some n
  | _ => none

theorem expect?_append (bs l : List U8) : expect? bs (bs ++ l) = some l := by
  induction bs with
  | nil => rfl
  | cons b bs ih =>
      rw [List.cons_append, expect?, if_pos rfl]
      exact ih

/-- What follows does not start with a digit. -/
def Stops (l : List U8) : Prop := l.head?.any isDigit = false

@[simp] theorem stops_nil : Stops [] := rfl

theorem stops_cons {b : U8} (l : List U8) (h : isDigit b = false) : Stops (b :: l) := h

theorem takeWhile_of_stops {l : List U8} (h : Stops l) :
    l.takeWhile isDigit = [] ∧ l.dropWhile isDigit = l := by
  cases l with
  | nil => exact ⟨rfl, rfl⟩
  | cons b l =>
      have hb : isDigit b = false := h
      rw [List.takeWhile_cons, List.dropWhile_cons, hb]
      exact ⟨rfl, rfl⟩

/-- **A numeral is read back**, up to the first byte that is no digit. -/
theorem readNumber?_numeral (n : Nat) {l : List U8} (h : Stops l) :
    readNumber? (numeral n ++ l) = some (n, l) := by
  obtain ⟨htake, hdrop⟩ := takeWhile_of_stops h
  have hall : ∀ b ∈ numeral n, isDigit b = true := fun b hb => numeral_isDigit hb
  unfold readNumber?
  rw [List.takeWhile_append_of_pos hall, List.dropWhile_append_of_pos hall, htake, hdrop, List.append_nil,
    if_neg (numeral_ne_nil n), value_numeral]

theorem readNumeral?_numeral (n : Nat) : readNumeral? (numeral n) = some n := by
  have h := readNumber?_numeral n stops_nil
  rw [List.append_nil] at h
  unfold readNumeral?
  rw [h]

/-! ## §3. Dotted quads. -/

def dot : U8 := 0x2E

/-- Four numerals with dots between them. -/
def dotted (a b c d : Nat) : List U8 :=
  numeral a ++ dot :: (numeral b ++ dot :: (numeral c ++ dot :: numeral d))

/-- Read four numbers with dots between them, each of them an octet. -/
def readDotted? (l : List U8) : Option (U32 × List U8) := do
  let (a, l) ← readNumber? l
  let l ← expect? [dot] l
  let (b, l) ← readNumber? l
  let l ← expect? [dot] l
  let (c, l) ← readNumber? l
  let l ← expect? [dot] l
  let (d, l) ← readNumber? l
  if a < 256 ∧ b < 256 ∧ c < 256 ∧ d < 256 then
    some (packWord (BitVec.ofNat 8 a) (BitVec.ofNat 8 b) (BitVec.ofNat 8 c) (BitVec.ofNat 8 d), l)
  else none

/-- **A dotted quad is read back.** -/
theorem readDotted?_dotted {a b c d : Nat} (ha : a < 256) (hb : b < 256) (hc : c < 256) (hd : d < 256)
    {l : List U8} (h : Stops l) :
    readDotted? (dotted a b c d ++ l)
      = some (packWord (BitVec.ofNat 8 a) (BitVec.ofNat 8 b) (BitVec.ofNat 8 c) (BitVec.ofNat 8 d), l) := by
  have hdot : ∀ m : List U8, Stops (dot :: m) := fun m => stops_cons m rfl
  have hexpect : ∀ m : List U8, expect? [dot] (dot :: m) = some m := fun m => expect?_append [dot] m
  unfold readDotted? dotted
  simp only [List.append_assoc, List.cons_append, readNumber?_numeral _ (hdot _), hexpect,
    readNumber?_numeral _ h, Option.bind_eq_bind, Option.bind_some]
  rw [if_pos ⟨ha, hb, hc, hd⟩]

end Hw.Decimal
