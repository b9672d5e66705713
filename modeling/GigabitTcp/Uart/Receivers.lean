/-
  GigabitTcp.Uart.Receivers — the two UART receivers read every 8N1 line alike.

  The receiver of `uart_console` waits for a fall of the line and counts the bits up from the
  lowest; the receiver of `net_stats` waits for a low line and shifts the bits in from the top.
  Both are the sampler of `Hw.Serial` with different rules for the start, and at every cell
  length from 4948 to 5497 cycles the ten instants of that sampler fall into their cells.

  Main results:
    * `UartConsole.received_eq`, `NetStats.received_eq` — each receiver refines the sampler,
    * `uartRule_fits`              — the cell lengths at which the instants fall into the cells,
    * `uart_receivers_decode`      — both receive exactly the bytes on the pin.
-/
import GigabitTcp.Hw.Serial
import GigabitTcp.NetStats
import GigabitTcp.Uart.Cycle
import GigabitTcp.Wrapper1g
import Mathlib.Tactic.IntervalCases

namespace GigabitTcp

open Hw Hw.Serial

/-! ## §1. The rules of the two receivers. -/

/-- Half a bit after the start the first instant, then one in each bit. -/
def uartRule (starts : Bool → Bool → Bool) : Rule := { starts, first := 2604, gap := 5208 }

/-- `uart_console` waits for a fall. -/
def uartConsoleRule : Rule := uartRule fun prev2 prev1 => prev2 && !prev1

/-- `net_stats` waits for a low line. -/
def netStatsRule : Rule := uartRule fun _ uartRx => !uartRx

/-- The cell lengths at which all ten instants fall into their cells. -/
theorem uartRule_fits {starts : Bool → Bool → Bool} (hfall : starts true false = true)
    (hhigh : ∀ x, starts x true = false) {P : Nat} (hlo : 4948 ≤ P) (hhi : P ≤ 5497) :
    Sampler.Fits (uartRule starts) P := by
  refine ⟨hfall, hhigh, Nat.succ_pos 2603, Nat.succ_pos 5207, ?_⟩
  intro k hk
  show k * P ≤ 2604 + k * 5208 ∧ 2604 + k * 5208 < (k + 1) * P
  interval_cases k <;> omega

/-- The wait until the next instant, against a bit counter that runs from 0 to 5207 and meets the
instant at 2603. -/
def CountsTo (cnt wait : Nat) : Prop :=
  (0 < wait ∧ wait ≤ 5208) ∧ cnt ≤ 5207 ∧ (cnt + wait = 2604 ∨ cnt + wait = 7812)

theorem CountsTo.instant_iff {w : Nat} (hw : 13 ≤ w) {cnt : BitVec w} {wait : Nat}
    (h : CountsTo cnt.toNat wait) : cnt = 2603#w ↔ wait = 1 := by
  obtain ⟨hpos, hcnt, hsum⟩ := h
  rw [eq_ofNat_iff hw (by omega)]
  omega

/-- The counter steps and wraps. -/
theorem CountsTo.tick {w : Nat} (hw : 13 ≤ w) {cnt : BitVec w} {wait : Nat}
    (h : CountsTo cnt.toNat wait) (hwait : wait ≠ 1) : CountsTo (uartTick cnt).toNat (wait - 1) := by
  obtain ⟨hpos, hcnt, hsum⟩ := h
  rw [toNat_uartTick hw hcnt]
  show (0 < wait - 1 ∧ wait - 1 ≤ 5208) ∧ _ ≤ 5207 ∧ (_ = 2604 ∨ _ = 7812)
  split <;> omega

/-- Behind an instant the next one is a bit away. -/
theorem CountsTo.again : CountsTo 2604 5208 := ⟨by decide, by decide, .inr rfl⟩

theorem CountsTo.first : CountsTo 0 2604 := ⟨by decide, by decide, .inl rfl⟩

/-! ## §2. The receiver of `uart_console`. -/

namespace UartConsole

/-- The bytes completed in a run. -/
def received : UartConsole → List Bool → List U8 :=
  Machine.record uartConsoleMachine fun s rx => (s.completed rx).toList

/-- The registers of the receiver are those of a sampler. -/
inductive Samples (s : UartConsole) (a : Sampler) : Prop where
  | idle (hprev : s.syncSr.getLsbD 0 = a.prev) (hbusy : a.busy = none) (hactive : s.rxActive = false)
  | frame (wait : Nat) (seen : List Bool) (hprev : s.syncSr.getLsbD 0 = a.prev)
      (hbusy : a.busy = some (wait, seen)) (hactive : s.rxActive = true)
      (hcnt : CountsTo s.rcnt.toNat wait) (hnum : s.rnum.toNat = seen.length)
      (hlen : seen.length ≤ 9) (hbyte : ∀ k, k < 8 → s.rxByte.getLsbD k = seen.getD (k + 1) false)

/-- The levels seen so far, with one more. -/
theorem getD_snoc (seen : List Bool) (x : Bool) (k : Nat) :
    (seen ++ [x]).getD k false = if k = seen.length then x else seen.getD k false := by
  rcases Nat.lt_trichotomy k seen.length with hlt | heq | hgt
  · simp [List.getD_eq_getElem?_getD, List.getElem?_append_left hlt, Nat.ne_of_lt hlt]
  · simp [List.getD_eq_getElem?_getD, heq]
  · have hnone : (seen ++ [x])[k]? = none := by simp; omega
    have hnone' : seen[k]? = none := by simp; omega
    simp [List.getD_eq_getElem?_getD, hnone, hnone', Nat.ne_of_gt hgt]

/-- One bit of a byte is set to the level. -/
theorem getLsbD_or_shiftLeft (byte : U8) (x : Bool) {n k : Nat} (hk : k < 8) :
    (byte ||| ((BitVec.ofBool x).setWidth 8 <<< n)).getLsbD k
      = (byte.getLsbD k || (decide (k = n) && x)) := by
  have hbit : ((BitVec.ofBool x).setWidth 8 <<< n).getLsbD k = (decide (k = n) && x) := by
    rw [BitVec.getLsbD_shiftLeft, BitVec.getLsbD_setWidth, BitVec.getLsbD_ofBool]
    rcases Nat.lt_trichotomy k n with hlt | heq | hgt
    · simp [hlt, Nat.ne_of_lt hlt]
    · subst heq
      simp [hk]
    · have h0 : k - n ≠ 0 := by omega
      simp [h0, Nat.ne_of_gt hgt]
  rw [BitVec.getLsbD_or, hbit]

/-- The middle of a bit extends what the byte holds of the levels seen. -/
theorem getLsbD_rxByte {byte : U8} {seen : List Bool} (x : Bool) {num : BitVec 4}
    (hnum : num.toNat = seen.length) (hlen : seen.length ≤ 8)
    (hbyte : ∀ k, k < 8 → byte.getLsbD k = seen.getD (k + 1) false) :
    ∀ k, k < 8 →
      (if 1 ≤ num ∧ num ≤ 8 then
        byte ||| ((BitVec.ofBool x).setWidth 8 <<< (num - 1).toNat) else byte).getLsbD k
        = (seen ++ [x]).getD (k + 1) false := by
  intro k hk
  rw [getD_snoc, ← hbyte k hk]
  by_cases h1 : 1 ≤ num
  · have h8 : num ≤ 8 := by bv_omega
    have hpred : (num - 1).toNat = seen.length - 1 := by bv_omega
    have hpos : 0 < seen.length := by bv_omega
    rw [if_pos ⟨h1, h8⟩, hpred, getLsbD_or_shiftLeft byte x hk]
    by_cases hlast : k + 1 = seen.length
    · have hnew : byte.getLsbD k = false := by
        rw [hbyte k hk, hlast]
        simp [List.getD_eq_getElem?_getD]
      have hat : k = seen.length - 1 := by omega
      simp [hlast, hnew, ← hat]
    · have hat : k ≠ seen.length - 1 := by omega
      simp [hlast, hat]
  · have hempty : seen.length = 0 := by bv_omega
    have hne : k + 1 ≠ seen.length := by omega
    rw [if_neg (fun h => h1 h.1), if_neg hne]

/-- The transmitter does not disturb the receiver. -/
theorem Samples.txSide {s : UartConsole} {a : Sampler} (h : s.Samples a) : s.txSide.Samples a := by
  obtain ⟨hsync, hactive, hcnt, hnum, hbyte, -, -⟩ := txSide_rx s
  cases h with
  | idle hprev hbusy hidle => exact .idle (by rw [hsync, hprev]) hbusy (by rw [hactive, hidle])
  | frame wait seen hprev hbusy hframe hcounts hseen hlen hbits =>
      refine .frame wait seen (by rw [hsync, hprev]) hbusy (by rw [hactive, hframe])
        (by rw [hcnt]; exact hcounts) (by rw [hnum, hseen]) hlen ?_
      rw [hbyte]
      exact hbits

/-- **One cycle**: the receiver does what the sampler does, and completes the byte that the
sampler receives. -/
theorem Samples.step {s : UartConsole} {a : Sampler} (h : s.Samples a) (rx : Bool) :
    (uartConsoleMachine s rx).1.Samples (Sampler.step uartConsoleRule a rx).1 ∧
      (s.completed rx).toList = (Sampler.step uartConsoleRule a rx).2.toList := by
  have hline : (s.shiftIn rx).syncSr.getLsbD 0 = rx := prev1_shiftIn s rx
  rw [completed_eq, step_eq]
  cases h with
  | idle hprev hbusy hactive =>
      have hstop : ¬ s.AtStop := fun h => absurd (h.1.symm.trans hactive) (by decide)
      have hedge : ((s.shiftIn rx).prev2 && !(s.shiftIn rx).prev1) = (a.prev && !rx) := by
        rw [prev1_shiftIn, prev2_shiftIn, hprev]
      rw [if_neg hstop]
      cases hfall : (a.prev && !rx) with
      | false =>
          have hrx : s.afterRx rx = s.shiftIn rx := rxSide_idle hactive (hedge.trans hfall)
          rw [hrx]
          refine ⟨Samples.txSide (.idle ?_ ?_ hactive), ?_⟩
          · exact hline.trans (Sampler.prev_step ..).symm
          · simp [Sampler.step, hbusy, uartConsoleRule, uartRule, hfall]
          · simp [Sampler.step, hbusy]
      | true =>
          have hrx : s.afterRx rx = { s.shiftIn rx with rxActive := true, rxByte := 0, rcnt := 0, rnum := 0 } :=
            rxSide_start hactive (hedge.trans hfall)
          rw [hrx]
          refine ⟨Samples.txSide (.frame 2604 [] ?_ ?_ rfl .first rfl (by simp) ?_), ?_⟩
          · exact hline.trans (Sampler.prev_step ..).symm
          · simp [Sampler.step, hbusy, uartConsoleRule, uartRule, hfall]
          · simp
          · simp [Sampler.step, hbusy]
  | frame wait seen hprev hbusy hactive hcnt hnum hlen hbyte =>
      by_cases hwait : wait = 1
      · have hhalf : s.rcnt = bpsHalf := (hcnt.instant_iff (by omega)).mpr hwait
        by_cases h9 : seen.length = 9
        · -- the stop bit: the nine levels seen spell the byte
          have hnum9 : s.rnum = 9 := BitVec.eq_of_toNat_eq (hnum.trans h9)
          have hstop : s.AtStop := ⟨hactive, hhalf, hnum9⟩
          have hrx : s.afterRx rx = { (s.shiftIn rx).rxComplete with rcnt := 2604 } := rxSide_stop hstop
          have hspelled : s.rxByte = spelled seen := by
            apply BitVec.eq_of_getLsbD_eq
            intro k hk
            rw [hbyte k hk, getLsbD_spelled seen hk]
          rw [hrx, rxComplete_eq, if_pos hstop]
          refine ⟨Samples.txSide (.idle ?_ ?_ rfl), ?_⟩
          · exact hline.trans (Sampler.prev_step ..).symm
          · simp [Sampler.step, hbusy, hwait, h9]
          · simp [Sampler.step, hbusy, hwait, h9, hspelled]
        · have hnum9 : s.rnum ≠ 9 := fun heq => h9 (by rw [← hnum, heq]; rfl)
          have hstop : ¬ s.AtStop := fun h => hnum9 h.2.2
          have hrx := rxSide_bit (s := s.shiftIn rx) hactive hhalf hnum9
          change s.afterRx rx = _ at hrx
          rw [hrx, if_neg hstop, prev1_shiftIn]
          refine ⟨Samples.txSide (.frame 5208 (seen ++ [rx]) ?_ ?_ hactive .again ?_ ?_ ?_), ?_⟩
          · exact hline.trans (Sampler.prev_step ..).symm
          · simp [Sampler.step, hbusy, hwait, h9, uartConsoleRule, uartRule]
          · show (s.rnum + 1).toNat = _
            rw [List.length_append, List.length_singleton]
            bv_omega
          · rw [List.length_append, List.length_singleton]
            omega
          · exact getLsbD_rxByte rx hnum (by omega) hbyte
          · simp [Sampler.step, hbusy, hwait, h9]
      · have hhalf : s.rcnt ≠ bpsHalf := fun heq => hwait ((hcnt.instant_iff (by omega)).mp heq)
        have hstop : ¬ s.AtStop := fun h => hhalf h.2.1
        have hrx : s.afterRx rx = { s.shiftIn rx with rcnt := uartTick s.rcnt } := rxSide_wait hactive hhalf
        rw [hrx, if_neg hstop]
        refine ⟨Samples.txSide (.frame (wait - 1) seen ?_ ?_ hactive ?_ hnum hlen hbyte), ?_⟩
        · exact hline.trans (Sampler.prev_step ..).symm
        · simp [Sampler.step, hbusy, hwait]
        · exact hcnt.tick (by omega) hwait
        · simp [Sampler.step, hbusy, hwait]

/-- **The receiver of `uart_console` refines the sampler** with its rule. -/
theorem received_eq {s : UartConsole} {a : Sampler} (h : s.Samples a) (rxs : List Bool) :
    s.received rxs = Sampler.received uartConsoleRule a rxs :=
  (Machine.record_sim (R := Samples) (fun _ _ rx hs => hs.step rx) h rxs).2

end UartConsole

/-! ## §3. The receiver of `net_stats`. -/

namespace NetStats

/-- The middle of a stop bit. -/
def AtStop (s : NetStats) : Prop := s.brxActive = true ∧ s.brxCnt = 2603 ∧ 8 < s.brxBitn

instance (s : NetStats) : Decidable s.AtStop := inferInstanceAs (Decidable (_ ∧ _ ∧ _))

/-- The byte that enters the command history with this edge. -/
def completed (s : NetStats) : Option U8 := if s.AtStop then some s.brxShift else none

/-- The bytes completed in a run. -/
def received : NetStats → List Bool → List U8 :=
  Machine.record netStatsMachine fun s _ => s.completed.toList

variable {s : NetStats} {uartRx : Bool}

/-- The pulses are taken back. -/
def clear (s : NetStats) : NetStats :=
  { s with netGo := false, txdGo := false, rxdGo := false, rawGo := false }

theorem next_idle (hactive : s.brxActive = false) (hhigh : uartRx = true) :
    s.next uartRx = s.clear := by
  simp [next, clear, hactive, hhigh]

theorem next_start (hactive : s.brxActive = false) (hlow : uartRx = false) :
    s.next uartRx = { s.clear with brxActive := true, brxCnt := 0, brxBitn := 0 } := by
  simp [next, clear, hactive, hlow]

theorem next_wait (hactive : s.brxActive = true) (hcnt : s.brxCnt ≠ 2603) :
    s.next uartRx = { s.clear with brxCnt := uartTick s.brxCnt } := by
  have hnot : ¬ (!s.brxActive) = true := by simp [hactive]
  unfold next
  simp only [if_neg hnot, if_neg hcnt]
  rfl

theorem next_middle (hactive : s.brxActive = true) (hcnt : s.brxCnt = 2603) :
    s.next uartRx = { s.clear.middle uartRx with brxCnt := 2604 } := by
  have hnot : ¬ (!s.brxActive) = true := by simp [hactive]
  have hcount : (if s.brxCnt = 5207 then 0 else s.brxCnt + 1) = (2604 : U16) := by rw [hcnt]; decide
  unfold next
  simp only [if_neg hnot, if_pos hcnt, hcount]
  rfl

/-- The middle of the start bit or of a data bit. -/
theorem middle_bit (hbitn : s.brxBitn ≤ 8) :
    s.middle uartRx = { s with
      brxShift := if s.brxBitn = 0 then s.brxShift
        else BitVec.ofBool uartRx ++ s.brxShift.extractLsb' 1 7
      brxBitn := s.brxBitn + 1 } := by
  have hlt : s.brxBitn < 9 := by bv_omega
  unfold middle
  by_cases h0 : s.brxBitn = 0
  · simp only [if_pos h0, if_pos hlt]
  · simp only [if_neg h0, if_pos hbitn, if_pos hlt]

theorem middle_stop (hbitn : 8 < s.brxBitn) : s.middle uartRx = s.byteDone := by
  have h0 : s.brxBitn ≠ 0 := by bv_omega
  have h8 : ¬ s.brxBitn ≤ 8 := by bv_omega
  have h9 : ¬ s.brxBitn < 9 := by bv_omega
  unfold middle
  simp only [if_neg h0, if_neg h8, if_neg h9]

/-- **The command history** takes in exactly the bytes that are completed. -/
theorem cmdHist_next (s : NetStats) (uartRx : Bool) :
    (s.next uartRx).cmdHist = s.completed.elim s.cmdHist (pushByte s.cmdHist) := by
  by_cases hstop : s.AtStop
  · obtain ⟨hactive, hcnt, hbitn⟩ := hstop
    have hbitn' : 8 < s.clear.brxBitn := hbitn
    rw [completed, if_pos ⟨hactive, hcnt, hbitn⟩, next_middle hactive hcnt, middle_stop hbitn']
    rfl
  · rw [completed, if_neg hstop]
    cases hactive : s.brxActive with
    | false =>
        cases uartRx with
        | false => rw [next_start hactive rfl]; rfl
        | true => rw [next_idle hactive rfl]; rfl
    | true =>
        by_cases hcnt : s.brxCnt = 2603
        · have hbitn : s.clear.brxBitn ≤ 8 := by
            have h : ¬ 8 < s.brxBitn := fun h => hstop ⟨hactive, hcnt, h⟩
            show s.brxBitn ≤ 8
            bv_omega
          rw [next_middle hactive hcnt, middle_bit hbitn]
          rfl
        · rw [next_wait hactive hcnt]
          rfl

/-- The registers of the receiver are those of a sampler; what it does not keep is the level. -/
inductive Samples (s : NetStats) (a : Sampler) : Prop where
  | idle (hbusy : a.busy = none) (hactive : s.brxActive = false)
  | frame (wait : Nat) (seen : List Bool) (hbusy : a.busy = some (wait, seen))
      (hactive : s.brxActive = true) (hcnt : CountsTo s.brxCnt.toNat wait)
      (hbitn : s.brxBitn.toNat = seen.length) (hlen : seen.length ≤ 9)
      (hshift : ∀ k, k + 1 < seen.length →
        s.brxShift.getLsbD (9 - seen.length + k) = seen.getD (k + 1) false)

/-- The bit goes in at the top. -/
theorem getLsbD_shiftIn (byte : U8) (x : Bool) {k : Nat} (hk : k < 8) :
    (BitVec.ofBool x ++ byte.extractLsb' 1 7 : U8).getLsbD k
      = if k = 7 then x else byte.getLsbD (k + 1) := by
  rw [BitVec.getLsbD_append, BitVec.getLsbD_extractLsb', BitVec.getLsbD_ofBool]
  by_cases h7 : k = 7
  · subst h7
    rfl
  · have hlt : k < 7 := by omega
    simp [hlt, h7, Nat.add_comm]

/-- The middle of a bit moves the levels seen down by one. -/
theorem getLsbD_brxShift {shift : U8} {seen : List Bool} (x : Bool) {bitn : BitVec 4}
    (hbitn : bitn.toNat = seen.length) (hlen : seen.length ≤ 8)
    (hshift : ∀ k, k + 1 < seen.length →
      shift.getLsbD (9 - seen.length + k) = seen.getD (k + 1) false) :
    ∀ k, k + 1 < (seen ++ [x]).length →
      (if bitn = 0 then shift else BitVec.ofBool x ++ shift.extractLsb' 1 7 : U8).getLsbD
        (9 - (seen ++ [x]).length + k) = (seen ++ [x]).getD (k + 1) false := by
  intro k hk
  rw [List.length_append, List.length_singleton] at hk ⊢
  have h0 : bitn ≠ 0 := by bv_omega
  rw [if_neg h0, getLsbD_shiftIn shift x (by omega), UartConsole.getD_snoc]
  by_cases hlast : k + 1 = seen.length
  · rw [if_pos (by omega), if_pos hlast]
  · rw [if_neg (by omega), if_neg hlast, ← hshift k (by omega)]
    congr 1
    omega

/-- **One edge**: the receiver does what the sampler does, and completes the byte that the
sampler receives. -/
theorem Samples.step {a : Sampler} (h : s.Samples a) (uartRx : Bool) :
    (netStatsMachine s uartRx).1.Samples (Sampler.step netStatsRule a uartRx).1 ∧
      s.completed.toList = (Sampler.step netStatsRule a uartRx).2.toList := by
  show (s.next uartRx).Samples _ ∧ _
  cases h with
  | idle hbusy hactive =>
      have hstop : ¬ s.AtStop := fun h => absurd (h.1.symm.trans hactive) (by decide)
      rw [completed, if_neg hstop]
      cases uartRx with
      | true =>
          rw [next_idle hactive rfl]
          refine ⟨.idle ?_ hactive, ?_⟩
          · simp [Sampler.step, hbusy, netStatsRule, uartRule]
          · simp [Sampler.step, hbusy]
      | false =>
          rw [next_start hactive rfl]
          refine ⟨.frame 2604 [] ?_ rfl .first rfl (by simp) (by simp), ?_⟩
          · simp [Sampler.step, hbusy, netStatsRule, uartRule]
          · simp [Sampler.step, hbusy]
  | frame wait seen hbusy hactive hcnt hbitn hlen hshift =>
      by_cases hwait : wait = 1
      · have hhalf : s.brxCnt = 2603 := (hcnt.instant_iff (by omega)).mpr hwait
        rw [next_middle hactive hhalf]
        by_cases h9 : seen.length = 9
        · -- the stop bit: the shift register holds the eight levels behind the start bit
          have hbitn9 : 8 < s.brxBitn := by bv_omega
          have hspelled : s.brxShift = spelled seen := by
            apply BitVec.eq_of_getLsbD_eq
            intro k hk
            have hbit := hshift k (by omega)
            rw [h9, Nat.sub_self, Nat.zero_add] at hbit
            rw [hbit, getLsbD_spelled seen hk]
          rw [completed, if_pos ⟨hactive, hhalf, hbitn9⟩, middle_stop (s := s.clear) hbitn9]
          refine ⟨.idle ?_ rfl, ?_⟩
          · simp [Sampler.step, hbusy, hwait, h9]
          · simp [Sampler.step, hbusy, hwait, h9, hspelled]
        · have hbitn9 : s.brxBitn ≤ 8 := by bv_omega
          have hstop : ¬ s.AtStop := fun h => by have := h.2.2; bv_omega
          rw [completed, if_neg hstop, middle_bit (s := s.clear) hbitn9]
          refine ⟨.frame 5208 (seen ++ [uartRx]) ?_ hactive .again ?_ ?_ ?_, ?_⟩
          · simp [Sampler.step, hbusy, hwait, h9, netStatsRule, uartRule]
          · show (s.brxBitn + 1).toNat = _
            rw [List.length_append, List.length_singleton]
            bv_omega
          · rw [List.length_append, List.length_singleton]
            omega
          · exact getLsbD_brxShift uartRx hbitn (by omega) hshift
          · simp [Sampler.step, hbusy, hwait, h9]
      · have hhalf : s.brxCnt ≠ 2603 := fun heq => hwait ((hcnt.instant_iff (by omega)).mp heq)
        have hstop : ¬ s.AtStop := fun h => hhalf h.2.1
        rw [completed, if_neg hstop, next_wait hactive hhalf]
        refine ⟨.frame (wait - 1) seen ?_ hactive ?_ hbitn hlen hshift, ?_⟩
        · simp [Sampler.step, hbusy, hwait]
        · exact hcnt.tick (by omega) hwait
        · simp [Sampler.step, hbusy, hwait]

/-- **The receiver of `net_stats` refines the sampler** with its rule. -/
theorem received_eq {a : Sampler} (h : s.Samples a) (line : List Bool) :
    s.received line = Sampler.received netStatsRule a line :=
  (Machine.record_sim (R := Samples) (fun _ _ x hs => hs.step x) h line).2

/-- The command history behind a run: the bytes received have entered it one by one. -/
theorem cmdHist_after : ∀ (line : List Bool) (s : NetStats),
    (netStatsMachine.after s line).cmdHist = (s.received line).foldl pushByte s.cmdHist
  | [], _ => rfl
  | x :: line, s => by
      have ih := cmdHist_after line (s.next x)
      show (netStatsMachine.after (s.next x) line).cmdHist
        = (s.completed.toList ++ (s.next x).received line).foldl pushByte s.cmdHist
      rw [ih, cmdHist_next, List.foldl_append]
      cases s.completed <;> rfl

end NetStats

/-! ## §4. The line behind the pin. -/

/-- Two registers delay the pin by two cycles. -/
theorem uartSyncSr_outs (pin : List Bool) (x y : Bool) (q : BitVec 2) :
    uartSyncSr.outs q (pin ++ [x, y]) = q.getLsbD 1 :: q.getLsbD 0 :: pin := by
  induction pin generalizing q with
  | nil => simp [uartSyncSr]
  | cons p pin ih =>
      show q.getLsbD 1 :: uartSyncSr.outs (uartSyncSr q p).1 (pin ++ [x, y]) = _
      rw [ih]
      simp [uartSyncSr]

/-- The two registers start high, and the pin stays high behind what was sent. -/
theorem uartSyncSr_line (P : Nat) (sent : List (Nat × U8)) (rest : Nat) :
    uartSyncSr.outs 3 (line P sent ++ List.replicate (rest + 2) true)
      = List.replicate 2 true ++ (line P sent ++ List.replicate rest true) := by
  have hsplit : List.replicate (rest + 2) true = List.replicate rest true ++ [true, true] :=
    List.replicate_add rest 2 true
  rw [hsplit, ← List.append_assoc, uartSyncSr_outs]
  rfl

/-- What a sampler receives behind the synchronizer. -/
theorem sampler_received {starts : Bool → Bool → Bool} (hfall : starts true false = true)
    (hhigh : ∀ x, starts x true = false) {P : Nat} (hlo : 4948 ≤ P) (hhi : P ≤ 5497)
    (sent : List (Nat × U8)) (rest : Nat) {a : Sampler} (ha : a.Ready) :
    Sampler.received (uartRule starts) a
        (uartSyncSr.outs 3 (line P sent ++ List.replicate (rest + 2) true))
      = sent.map Prod.snd := by
  have hfits := uartRule_fits hfall hhigh hlo hhi
  rw [uartSyncSr_line, Sampler.received_append, Sampler.received_append]
  obtain ⟨hready, hnone⟩ := Sampler.idle_received hfits 2 ha
  obtain ⟨hready', hsent⟩ := Sampler.line_received hfits sent hready
  obtain ⟨-, hrest⟩ := Sampler.idle_received hfits rest hready'
  rw [hnone, hsent, hrest, List.nil_append, List.append_nil]

/-- **Both receivers decode every 8N1 line alike.**  The pin carries the bytes `sent` at `P` cycles
a bit, each behind some idle time, and stays high behind them until the synchronizer has
passed the last cell on.  Whatever the transmitter, the queue and the matcher of the console
hold, and whatever stood in the history: both receivers complete exactly these bytes, and the
last four of them stand in `cmd_hist`. -/
theorem uart_receivers_decode (P : Nat) (hlo : 4948 ≤ P) (hhi : P ≤ 5497) (sent : List (Nat × U8))
    (rest : Nat) (s : UartConsole) (hhigh : s.syncSr.getLsbD 0 = true) (hrx : s.rxActive = false)
    (r : NetStats) (hbrx : r.brxActive = false) :
    let uartRx := uartSyncSr.outs 3 (line P sent ++ List.replicate (rest + 2) true)
    s.received uartRx = sent.map Prod.snd ∧ r.received uartRx = sent.map Prod.snd ∧
      ∀ k b, k < 4 → (sent.map Prod.snd).reverse[k]? = some b →
        lsByte (netStatsMachine.after r uartRx).cmdHist k = b := by
  intro uartRx
  let a : Sampler := { prev := true, busy := none }
  have ha : a.Ready := ⟨rfl, rfl⟩
  have hconsole : s.received uartRx = sent.map Prod.snd := by
    rw [UartConsole.received_eq (a := a) (.idle hhigh rfl hrx)]
    exact sampler_received rfl (by decide) hlo hhi sent rest ha
  have hstats : r.received uartRx = sent.map Prod.snd := by
    rw [NetStats.received_eq (a := a) (.idle rfl hbrx)]
    exact sampler_received rfl (by decide) hlo hhi sent rest ha
  refine ⟨hconsole, hstats, ?_⟩
  intro k b hk hb
  rw [NetStats.cmdHist_after, hstats]
  exact lsByte_foldl_pushByte _ _ (by omega) hb

/-- `?` and Enter at 9600 baud, behind a reset. -/
theorem uart_receivers_decode_reset :
    let uartRx := uartSyncSr.outs 3 (line 5208 [(0, 0x3F), (40, 13)] ++ List.replicate 2 true)
    ({} : UartConsole).received uartRx = [0x3F, 13] ∧ ({} : NetStats).received uartRx = [0x3F, 13] :=
  have h := uart_receivers_decode 5208 (by decide) (by decide) [(0, 0x3F), (40, 13)] 0 {} rfl rfl {} rfl
  ⟨h.1, h.2.1⟩

end GigabitTcp
