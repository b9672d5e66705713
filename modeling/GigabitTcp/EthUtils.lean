/-
  GigabitTcp.EthUtils — the CRC and the checksum of `eth_utils.h`.

  `crc32Byte` is tied to the general reflected CRC (`crc32Byte_eq_crcByte`); the carry loop
  of the one's-complement sum is a bounded recursion, and `foldCarries_done` says that its
  bound is enough for the loop of the source to have left.
-/
import GigabitTcp.EthTypes
import GigabitTcp.Hw.Crc
import GigabitTcp.Hw.Inet

namespace GigabitTcp

open Hw

/-! ## §1. CRC32 of one byte. -/

/-- The reflected polynomial of Ethernet. -/
def crcPoly : U32 := 0xEDB88320

/-- One round of the loop of `crc32_byte`. -/
def crc32Bit (crc : U32) : U32 :=
  if crc &&& 1#32 ≠ 0#32 then (crc >>> 1) ^^^ crcPoly else crc >>> 1

def crc32Byte (data : U8) (crc : U32) : U32 :=
  (List.range 8).foldl (fun c _ => crc32Bit c) (crc ^^^ data.setWidth 32)

/-- The test `crc & 1` looks at the lowest bit. -/
theorem and_one_ne_zero_iff (c : U32) : c &&& 1#32 ≠ 0#32 ↔ c.getLsbD 0 = true := by
  rw [BitVec.and_one_eq_setWidth_ofBool_getLsbD]
  cases c.getLsbD 0 <;> decide

theorem crc32Bit_eq_crcShift (c : U32) : crc32Bit c = crcShift crcPoly c := by
  simp only [crc32Bit, crcShift, and_one_ne_zero_iff]

theorem crc32Byte_eq_crcByte (data : U8) (c : U32) :
    crc32Byte data c = crcByte crcPoly c data := by
  simp only [crc32Byte, crcByte, crcShifts, List.range, List.range.loop, List.foldl_cons,
    List.foldl_nil, crc32Bit_eq_crcShift]

/-- Folding `crc32_byte` over a byte string is the general CRC. -/
theorem foldl_crc32Byte (bs : List U8) (c : U32) :
    bs.foldl (fun acc b => crc32Byte b acc) c = crc crcPoly c bs := by
  simp only [crc32Byte_eq_crcByte]
  rfl

/-! ## §2. The one's-complement checksum. -/

/-- `n` rounds of `while (sum >> 16) sum = (sum & 0xFFFF) + (sum >> 16);`. -/
def foldCarry : Nat → U32 → U32
  | 0, sum => sum
  | n + 1, sum =>
      if sum >>> 16 ≠ 0#32 then foldCarry n ((sum &&& 0xFFFF#32) + (sum >>> 16)) else sum

/-- The carry loop: two rounds always suffice. -/
def foldCarries (sum : U32) : U32 := foldCarry 2 sum

theorem toNat_foldRound (sum : U32) :
    ((sum &&& 0xFFFF#32) + (sum >>> 16)).toNat = sum.toNat % 65536 + sum.toNat / 65536 := by
  have hmask : sum.toNat &&& 65535 = sum.toNat % 65536 := Nat.and_two_pow_sub_one_eq_mod _ 16
  have hlt : sum.toNat < 2 ^ 32 := sum.isLt
  simp only [BitVec.toNat_add, BitVec.toNat_and, BitVec.toNat_ushiftRight, BitVec.toNat_ofNat,
    Nat.shiftRight_eq_div_pow]
  rw [show 65535 % 2 ^ 32 = 65535 from rfl, hmask]
  omega

theorem ushiftRight_sixteen_eq_zero_iff (sum : U32) : sum >>> 16 = 0#32 ↔ sum.toNat < 65536 := by
  rw [← BitVec.toNat_inj, BitVec.toNat_ushiftRight, Nat.shiftRight_eq_div_pow]
  simp only [BitVec.toNat_ofNat, Nat.zero_mod]
  omega

/-- The carry loop of the source has left: no carry remains above bit 15. -/
theorem foldCarries_done (sum : U32) : foldCarries sum >>> 16 = 0#32 := by
  have hlt : sum.toNat < 2 ^ 32 := sum.isLt
  have h1 := toNat_foldRound sum
  have h2 := toNat_foldRound ((sum &&& 0xFFFF#32) + (sum >>> 16))
  simp only [foldCarries, foldCarry]
  split_ifs with hs hs'
  · rw [ushiftRight_sixteen_eq_zero_iff, h2, h1]
    omega
  · exact not_ne_iff.mp hs'
  · exact not_ne_iff.mp hs

/-- A run of the carry loop from one sum to another, with nothing above bit 15 at its end. -/
inductive CarryLoop : U32 → U32 → Prop where
  | exit {sum : U32} (h : sum >>> 16 = 0#32) : CarryLoop sum sum
  | round {sum r : U32} (h : sum >>> 16 ≠ 0#32)
      (next : CarryLoop ((sum &&& 0xFFFF#32) + (sum >>> 16)) r) : CarryLoop sum r

/-- What the bounded recursion reaches is where the loop ends. -/
theorem foldCarry_loop (n : Nat) (sum : U32) (h : foldCarry n sum >>> 16 = 0#32) :
    CarryLoop sum (foldCarry n sum) := by
  induction n generalizing sum with
  | zero => exact .exit h
  | succ n ih =>
      unfold foldCarry at h ⊢
      by_cases hcarry : sum >>> 16 ≠ 0#32
      · rw [if_pos hcarry] at h ⊢
        exact .round hcarry (ih _ h)
      · rw [if_neg hcarry] at h ⊢
        exact .exit h

/-- **The loop terminates**, from every sum. -/
theorem foldCarries_loop (sum : U32) : CarryLoop sum (foldCarries sum) :=
  foldCarry_loop 2 sum (foldCarries_done sum)

/-- No round overflows. -/
theorem foldRound_exact (sum : U32) :
    ((sum &&& 0xFFFF#32) + (sum >>> 16)).toNat = (sum &&& 0xFFFF#32).toNat + (sum >>> 16).toNat := by
  have hmask : sum.toNat &&& 65535 = sum.toNat % 65536 := Nat.and_two_pow_sub_one_eq_mod _ 16
  rw [toNat_foldRound, BitVec.toNat_and, BitVec.toNat_ushiftRight, Nat.shiftRight_eq_div_pow]
  exact congrArg (· + _) hmask.symm

def onesComplementChecksum (words : List U16) : U16 :=
  ~~~ (foldCarries (words.foldl (fun sum w => sum + w.setWidth 32) 0)).setWidth 16

/-- The 16-bit words `b[0..1], b[2..3], …` of a byte string. -/
def be16Words (b : Nat → U8) (n : Nat) : List U16 :=
  (List.range n).map (fun i => be16 (b (i * 2)) (b (i * 2 + 1)))

/-- The byte checksum that ICMP, IGMP and TCP each write out: the sum starts at `init`, an
odd last byte is padded with zero. -/
def byteChecksum (init : U32) (b : Nat → U8) (len : Nat) : U16 :=
  let sum := (be16Words b (len / 2)).foldl (fun s w => s + w.setWidth 32) init
  let sum := if len % 2 = 1 then sum + ((b (len - 1)).setWidth 32 <<< 8) else sum
  ~~~ (foldCarries sum).setWidth 16

theorem be16Words_congr {b b' : Nat → U8} {n : Nat} (h : ∀ k, k < n * 2 → b k = b' k) :
    be16Words b n = be16Words b' n := by
  unfold be16Words
  apply List.map_congr_left
  intro i hi
  rw [List.mem_range] at hi
  rw [h (i * 2) (by omega), h (i * 2 + 1) (by omega)]

/-- The checksum looks at the bytes below `len` only. -/
theorem byteChecksum_congr {b b' : Nat → U8} {len : Nat} (h : ∀ k, k < len → b k = b' k)
    (init : U32) : byteChecksum init b len = byteChecksum init b' len := by
  have hwords : be16Words b (len / 2) = be16Words b' (len / 2) :=
    be16Words_congr fun k hk => h k (by omega)
  unfold byteChecksum
  dsimp only
  rw [hwords]
  by_cases hodd : len % 2 = 1
  · rw [if_pos hodd, if_pos hodd, h (len - 1) (by omega)]
  · rw [if_neg hodd, if_neg hodd]

/-! ## §3. A checksum verifies. -/

/-- The carry loop computes the representative of the sum. -/
theorem toNat_foldCarries (sum : U32) : (foldCarries sum).toNat = OnesComplement.wrap 16 sum.toNat := by
  have hround : ∀ x : U32, OnesComplement.wrap 16 ((x &&& 0xFFFF#32) + (x >>> 16)).toNat
      = OnesComplement.wrap 16 x.toNat := by
    intro x
    rw [toNat_foldRound]
    exact OnesComplement.wrap_round (by omega) _
  -- the loop keeps the representative and ends below `2 ^ 16`
  have hfold : ∀ n x, OnesComplement.wrap 16 (foldCarry n x).toNat = OnesComplement.wrap 16 x.toNat := by
    intro n
    induction n with
    | zero => intro x; rfl
    | succ n ih =>
        intro x
        unfold foldCarry
        split
        · rw [ih, hround]
        · rfl
  have hsmall : (foldCarries sum).toNat < 2 ^ 16 :=
    (ushiftRight_sixteen_eq_zero_iff _).mp (foldCarries_done sum)
  rw [← OnesComplement.wrap_of_lt (by omega) hsmall]
  exact hfold 2 sum

/-- The sum over at most 65536 words does not overflow. -/
theorem toNat_sumWords (ws : List U16) (init : U32) (h : init.toNat + 65535 * ws.length < 2 ^ 32) :
    (ws.foldl (fun sum w => sum + w.setWidth 32) init).toNat
      = init.toNat + (ws.map BitVec.toNat).sum := by
  induction ws generalizing init with
  | nil => simp
  | cons w ws ih =>
      have hw : w.toNat < 2 ^ 16 := w.isLt
      rw [List.length_cons] at h
      have hadd : (init + w.setWidth 32).toNat = init.toNat + w.toNat := by
        rw [BitVec.toNat_add, BitVec.toNat_setWidth]
        omega
      rw [List.foldl_cons, ih _ (by rw [hadd]; omega), hadd, List.map_cons, List.sum_cons]
      omega

theorem toNat_onesComplementChecksum {ws : List U16} (h : ws.length ≤ 65536) :
    (onesComplementChecksum ws).toNat
      = 65535 - OnesComplement.wrap 16 (ws.map BitVec.toNat).sum := by
  have hsum := toNat_sumWords ws 0 (by show 0 + 65535 * ws.length < _; omega)
  rw [show (0 : U32).toNat = 0 from rfl, Nat.zero_add] at hsum
  have hle := OnesComplement.wrap_le (w := 16) (by omega) (ws.map BitVec.toNat).sum
  unfold onesComplementChecksum
  rw [BitVec.toNat_not, BitVec.toNat_setWidth, toNat_foldCarries, hsum]
  omega

/-- **A list verifies** exactly if its sum is a positive multiple of 65535. -/
theorem onesComplementChecksum_eq_zero_iff {ws : List U16} (h : ws.length ≤ 65536) :
    onesComplementChecksum ws = 0
      ↔ 0 < (ws.map BitVec.toNat).sum ∧ 65535 ∣ (ws.map BitVec.toNat).sum := by
  have hle := OnesComplement.wrap_le (w := 16) (by omega) (ws.map BitVec.toNat).sum
  have hones := OnesComplement.wrap_eq_ones_iff (w := 16) (by omega) (ws.map BitVec.toNat).sum
  rw [show 2 ^ 16 - 1 = 65535 from rfl] at hle hones
  rw [← hones, ← BitVec.toNat_inj, toNat_onesComplementChecksum h, show (0 : U16).toNat = 0 from rfl]
  omega

/-- **A checksum verifies**: put in the place of a zero, it makes the checksum zero. -/
theorem checksum_verifies (as bs : List U16) (h : as.length + bs.length < 65536) :
    onesComplementChecksum (as ++ onesComplementChecksum (as ++ 0 :: bs) :: bs) = 0 := by
  have hlen : ∀ c : U16, (as ++ c :: bs).length ≤ 65536 := by
    intro c
    simp
    omega
  have hsum : ∀ c : U16, ((as ++ c :: bs).map BitVec.toNat).sum
      = ((as ++ 0 :: bs).map BitVec.toNat).sum + c.toNat := by
    intro c
    simp
    omega
  apply BitVec.eq_of_toNat_eq
  rw [toNat_onesComplementChecksum (hlen _), hsum, toNat_onesComplementChecksum (hlen 0)]
  have hones := OnesComplement.wrap_complement (w := 16) (by omega)
    ((as ++ (0 : U16) :: bs).map BitVec.toNat).sum
  rw [show (65535 : Nat) = 2 ^ 16 - 1 from rfl, hones]
  rfl

/-! ## §4. The checksums are the ones a receiver recomputes. -/

/-- The word checksum, over the bytes of the words. -/
theorem toNat_onesComplementChecksum_be16Words (b : Nat → U8) {n : Nat} (hn : n ≤ 65536) :
    (onesComplementChecksum (be16Words b n)).toNat = Inet.checksum ((List.range (n * 2)).map b) := by
  have hlen : (be16Words b n).length ≤ 65536 := by
    simpa [be16Words] using hn
  rw [toNat_onesComplementChecksum hlen, Inet.checksum, Inet.sum_map_range, be16Words, List.map_map]
  rfl

/-- The byte checksum: the bytes are summed on top of `init`. -/
theorem toNat_byteChecksum (b : Nat → U8) {init : U32} {len : Nat} (hinit : init.toNat < 2 ^ 30)
    (hlen : len < 65536) :
    (byteChecksum init b len).toNat
      = 65535 - OnesComplement.wrap 16 (init.toNat + Inet.sum ((List.range len).map b)) := by
  have hwords : ((be16Words b (len / 2)).map BitVec.toNat).sum
      = Inet.sum ((List.range (len / 2 * 2)).map b) := by
    rw [Inet.sum_map_range, be16Words, List.map_map]
    rfl
  have hcount : (be16Words b (len / 2)).length = len / 2 := by simp [be16Words]
  have hsum := toNat_sumWords (be16Words b (len / 2)) init (by rw [hcount]; omega)
  have hbound : Inet.sum ((List.range (len / 2 * 2)).map b) ≤ 65535 * (len / 2) := by
    rw [← hwords]
    refine (List.sum_le_card_nsmul _ 65535 ?_).trans (by simp [hcount]; omega)
    intro x hx
    obtain ⟨w, -, rfl⟩ := List.mem_map.mp hx
    have hw : w.toNat < 2 ^ 16 := w.isLt
    omega
  rw [hwords] at hsum
  unfold byteChecksum
  dsimp only
  generalize (be16Words b (len / 2)).foldl (fun s w => s + w.setWidth 32) init = s at hsum ⊢
  -- the last byte of an odd string counts as the upper half of a word
  have hlast : (if len % 2 = 1 then s + ((b (len - 1)).setWidth 32 <<< 8) else s).toNat
      = init.toNat + Inet.sum ((List.range len).map b) := by
    by_cases hodd : len % 2 = 1
    · have hb : (b (len - 1)).toNat < 2 ^ 8 := (b (len - 1)).isLt
      have hsplit : (List.range (len / 2 * 2 + 1)).map b
          = (List.range (len / 2 * 2)).map b ++ [b (len / 2 * 2)] := by
        rw [List.range_succ, List.map_append, List.map_singleton]
      rw [show len / 2 * 2 + 1 = len by omega, show b (len / 2 * 2) = b (len - 1) by congr 1; omega]
        at hsplit
      rw [if_pos hodd, hsplit, Inet.sum_append _ _ (by simp), BitVec.toNat_add, BitVec.toNat_shiftLeft,
        BitVec.toNat_setWidth, Nat.shiftLeft_eq, hsum]
      show _ = _ + (_ + (b (len - 1)).toNat * 256)
      omega
    · rw [if_neg hodd, hsum, show len / 2 * 2 = len by omega]
  have hle := OnesComplement.wrap_le (w := 16) (by omega) (init.toNat + Inet.sum ((List.range len).map b))
  rw [BitVec.toNat_not, BitVec.toNat_setWidth, toNat_foldCarries, hlast]
  omega

end GigabitTcp
