/-
  GigabitTcp.Uart.Cycle — what one cycle of `uart_console` does.

  The receiver has five branches and the transmitter five.  Each is stated once, with all the
  registers it writes; the rest of the development takes a cycle apart by these lemmas and
  does not look into the body again.

  Main results:
    * `rxSide_idle`, `rxSide_start`, `rxSide_wait`, `rxSide_bit`, `rxSide_stop` — the receiver,
    * `rxSide_quiet`    — short of a stop bit it writes no register of the other parts,
    * `txBranch`        — the transmitter,
    * `txSide_rx`       — it writes no register of the receiver,
    * `completed_eq`    — the byte that `rx_done_p` announces.
-/
import GigabitTcp.UartConsole
import Mathlib.Tactic.Common

namespace GigabitTcp

open Hw

/-! ## §1. Bit counters. -/

/-- A bit counter one cycle on: it runs from 0 to 5207. -/
def uartTick {w : Nat} (cnt : BitVec w) : BitVec w := if cnt = 5207#w then 0#w else cnt + 1#w

/-- A number that a bit counter can hold. -/
theorem toNat_ofNat_of_le {w n : Nat} (hw : 13 ≤ w) (hn : n ≤ 5208) : (BitVec.ofNat w n).toNat = n := by
  have hpow : 2 ^ 13 ≤ 2 ^ w := Nat.pow_le_pow_right (by omega) hw
  rw [BitVec.toNat_ofNat, Nat.mod_eq_of_lt (by omega)]

theorem eq_ofNat_iff {w n : Nat} (hw : 13 ≤ w) (hn : n ≤ 5208) (cnt : BitVec w) :
    cnt = BitVec.ofNat w n ↔ cnt.toNat = n := by
  constructor
  · intro heq
    rw [heq, toNat_ofNat_of_le hw hn]
  · intro heq
    apply BitVec.eq_of_toNat_eq
    rw [heq, toNat_ofNat_of_le hw hn]

theorem toNat_uartTick {w : Nat} (hw : 13 ≤ w) {cnt : BitVec w} (hcnt : cnt.toNat ≤ 5207) :
    (uartTick cnt).toNat = if cnt.toNat = 5207 then 0 else cnt.toNat + 1 := by
  have hpow : 2 ^ 13 ≤ 2 ^ w := Nat.pow_le_pow_right (by omega) hw
  unfold uartTick
  by_cases h : cnt = 5207#w
  · rw [if_pos h, if_pos ((eq_ofNat_iff hw (by omega) cnt).mp h), toNat_ofNat_of_le hw (by omega)]
  · rw [if_neg h, if_neg (fun heq => h ((eq_ofNat_iff hw (by omega) cnt).mpr heq)), BitVec.toNat_add,
      toNat_ofNat_of_le hw (by omega), Nat.mod_eq_of_lt (by omega)]

namespace UartConsole

variable {s : UartConsole}

/-! ## §2. The line. -/

@[simp] theorem prev1_shiftIn (s : UartConsole) (rx : Bool) : (s.shiftIn rx).prev1 = rx := by
  simp [prev1, shiftIn]

@[simp] theorem prev2_shiftIn (s : UartConsole) (rx : Bool) :
    (s.shiftIn rx).prev2 = s.syncSr.getLsbD 0 := by
  simp [prev2, shiftIn]

/-! ## §3. The receiver. -/

theorem rxSide_idle (hactive : s.rxActive = false) (hno : (s.prev2 && !s.prev1) = false) :
    s.rxSide = s := by
  simp [rxSide, hactive, hno]

theorem rxSide_start (hactive : s.rxActive = false) (hfall : (s.prev2 && !s.prev1) = true) :
    s.rxSide = { s with rxActive := true, rxByte := 0, rcnt := 0, rnum := 0 } := by
  simp [rxSide, hactive, hfall]

theorem rxSide_wait (hactive : s.rxActive = true) (hcnt : s.rcnt ≠ bpsHalf) :
    s.rxSide = { s with rcnt := uartTick s.rcnt } := by
  simp only [rxSide, hactive, hcnt, Bool.not_true, Bool.false_eq_true, if_false]
  by_cases hdiv : s.rcnt = bpsDiv
  · have htick : uartTick s.rcnt = 0 := if_pos hdiv
    rw [if_pos hdiv, htick]
  · have htick : uartTick s.rcnt = s.rcnt + 1 := if_neg hdiv
    rw [if_neg hdiv, htick]

/-- The counter goes on behind an instant. -/
theorem rxSide_instant (hactive : s.rxActive = true) (hcnt : s.rcnt = bpsHalf)
    (hkeep : s.rxMiddle.rcnt = s.rcnt) : s.rxSide = { s.rxMiddle with rcnt := 2604 } := by
  have htick : bpsHalf + 1 = 2604 := by decide
  have hne : bpsHalf ≠ bpsDiv := by decide
  have hif : (if s.rcnt = bpsHalf then s.rxMiddle else s) = s.rxMiddle := if_pos hcnt
  simp only [rxSide, hactive, hif, Bool.not_true, Bool.false_eq_true, if_false]
  simp only [hkeep, hcnt, htick, hne, if_false]

/-- The middle of the start bit or of a data bit. -/
theorem rxSide_bit (hactive : s.rxActive = true) (hcnt : s.rcnt = bpsHalf) (hnum : s.rnum ≠ 9) :
    s.rxSide = { s with
      rxByte := if 1 ≤ s.rnum ∧ s.rnum ≤ 8 then
          s.rxByte ||| ((BitVec.ofBool s.prev1).setWidth 8 <<< (s.rnum - 1).toNat)
        else s.rxByte
      rnum := s.rnum + 1, rcnt := 2604 } := by
  have hmiddle : s.rxMiddle = { s with
      rxByte := if 1 ≤ s.rnum ∧ s.rnum ≤ 8 then
          s.rxByte ||| ((BitVec.ofBool s.prev1).setWidth 8 <<< (s.rnum - 1).toNat)
        else s.rxByte
      rnum := s.rnum + 1 } := by
    unfold rxMiddle
    by_cases hdata : 1 ≤ s.rnum ∧ s.rnum ≤ 8
    · simp only [if_pos hdata, if_neg hnum]
    · simp only [if_neg hdata, if_neg hnum]
  rw [rxSide_instant hactive hcnt (by rw [hmiddle]), hmiddle]

/-- A byte is complete: the middle of its stop bit. -/
def AtStop (s : UartConsole) : Prop := s.rxActive = true ∧ s.rcnt = bpsHalf ∧ s.rnum = 9

instance (s : UartConsole) : Decidable s.AtStop := inferInstanceAs (Decidable (_ ∧ _ ∧ _))

/-- The registers that a complete byte leaves behind. -/
theorem rxComplete_eq (s : UartConsole) :
    s.rxComplete = { s with
      rxActive := false, rxDoneP := true
      txHold := if s.txActive then s.txHold else s.rxByte
      txPending := if s.txActive then s.txPending else true
      respSr := if (s.rxByte = 13 ∨ s.rxByte = 10) ∧ s.respRemain = 0 then
          leftAligned (response s.cmdSt).1 else s.respSr
      respRemain := if (s.rxByte = 13 ∨ s.rxByte = 10) ∧ s.respRemain = 0 then
          (response s.cmdSt).2 else s.respRemain
      cmdSt := if s.rxByte = 13 ∨ s.rxByte = 10 then 0 else nextCmd s.cmdSt s.rxByte } := by
  cases htx : s.txActive <;> by_cases henter : s.rxByte = 13 ∨ s.rxByte = 10 <;>
    by_cases hremain : s.respRemain = 0 <;>
    simp only [rxComplete, enter, htx, henter, hremain, Bool.not_true, Bool.not_false,
      Bool.false_eq_true, if_true, if_false, and_true, and_false]

/-- The middle of the stop bit. -/
theorem rxSide_stop (h : s.AtStop) : s.rxSide = { s.rxComplete with rcnt := 2604 } := by
  obtain ⟨hactive, hcnt, hnum⟩ := h
  have hcell : ¬ (1 ≤ s.rnum ∧ s.rnum ≤ 8) := by rw [hnum]; decide
  have hmiddle : s.rxMiddle = s.rxComplete := by
    unfold rxMiddle
    simp only [if_neg hcell, if_pos hnum]
  rw [rxSide_instant hactive hcnt (by rw [hmiddle, rxComplete_eq]), hmiddle]

/-- Short of a stop bit the receiver writes no register but its own four. -/
theorem rxSide_quiet (h : ¬ s.AtStop) :
    ∃ rxActive rxByte rcnt rnum, s.rxSide = { s with rxActive, rxByte, rcnt, rnum } := by
  cases hactive : s.rxActive with
  | false =>
      cases hfall : (s.prev2 && !s.prev1) with
      | false => exact ⟨_, _, _, _, rxSide_idle hactive hfall⟩
      | true => exact ⟨_, _, _, _, rxSide_start hactive hfall⟩
  | true =>
      by_cases hcnt : s.rcnt = bpsHalf
      · have hnum : s.rnum ≠ 9 := fun hnum => h ⟨hactive, hcnt, hnum⟩
        exact ⟨_, _, _, _, rxSide_bit hactive hcnt hnum⟩
      · exact ⟨_, _, _, _, rxSide_wait hactive hcnt⟩

/-! ## §4. The transmitter. -/

theorem txSide_echo (hactive : s.txActive = false) (hpending : s.txPending = true) :
    s.txSide = { s with
      txOut := true, txActive := true, txPending := false, txByte := s.txHold, tcnt := 0, tnum := 0 } := by
  simp [txSide, txFree, hactive, hpending]

theorem txSide_resp (hactive : s.txActive = false) (hpending : s.txPending = false)
    (hremain : s.respRemain ≠ 0) :
    s.txSide = { s with
      txOut := true, txActive := true, txByte := s.respTop, respSr := s.respSr <<< 8
      respRemain := s.respRemain - 1, tcnt := 0, tnum := 0 } := by
  have hpos : 0 < s.respRemain := by bv_omega
  simp only [txSide, txFree, hactive, hpending, Bool.not_false, Bool.false_eq_true, if_true, if_false,
    if_pos hpos]
  rfl

theorem txSide_rest (hactive : s.txActive = false) (hpending : s.txPending = false)
    (hremain : s.respRemain = 0) : s.txSide = { s with txOut := true } := by
  simp [txSide, txFree, hactive, hpending, hremain]

/-- The next cell goes on the line. -/
theorem txSide_drive (hactive : s.txActive = true) (hcnt : s.tcnt = bpsHalf) :
    s.txSide = { s.txDrive with tcnt := 2604 } := by
  have htick : bpsHalf + 1 = 2604 := by decide
  have hne : bpsHalf ≠ bpsDiv := by decide
  have hif : (if s.tcnt = bpsHalf then s.txDrive else s) = s.txDrive := if_pos hcnt
  have hkeep : s.txDrive.tcnt = s.tcnt := rfl
  simp only [txSide, txBusy, hactive, hif, Bool.not_true, Bool.false_eq_true, if_false]
  simp only [hkeep, hcnt, htick, hne, if_false]

/-- Between two cells the line is held; the byte ends behind its stop cell. -/
theorem txSide_hold (hactive : s.txActive = true) (hcnt : s.tcnt ≠ bpsHalf) :
    s.txSide = { s with
      tcnt := uartTick s.tcnt, txActive := !(s.tcnt == bpsDiv && s.tnum == 10) } := by
  have hif : (if s.tcnt = bpsHalf then s.txDrive else s) = s := if_neg hcnt
  simp only [txSide, txBusy, hactive, hif, Bool.not_true, Bool.false_eq_true, if_false]
  by_cases hdiv : s.tcnt = bpsDiv
  · have htick : uartTick s.tcnt = 0 := if_pos hdiv
    rw [if_pos hdiv, htick]
    simp [hdiv]
  · have htick : uartTick s.tcnt = s.tcnt + 1 := if_neg hdiv
    rw [if_neg hdiv, htick]
    simp [hdiv]

/-- **The five branches of the transmitter.** -/
inductive TxBranch (s : UartConsole) : Prop where
  | echo (hactive : s.txActive = false) (hpending : s.txPending = true)
      (heq : s.txSide = { s with
        txOut := true, txActive := true, txPending := false, txByte := s.txHold, tcnt := 0, tnum := 0 })
  | resp (hactive : s.txActive = false) (hpending : s.txPending = false) (hremain : s.respRemain ≠ 0)
      (heq : s.txSide = { s with
        txOut := true, txActive := true, txByte := s.respTop, respSr := s.respSr <<< 8
        respRemain := s.respRemain - 1, tcnt := 0, tnum := 0 })
  | rest (hactive : s.txActive = false) (hpending : s.txPending = false) (hremain : s.respRemain = 0)
      (heq : s.txSide = { s with txOut := true })
  | drive (hactive : s.txActive = true) (hcnt : s.tcnt = bpsHalf)
      (heq : s.txSide = { s.txDrive with tcnt := 2604 })
  | hold (hactive : s.txActive = true) (hcnt : s.tcnt ≠ bpsHalf)
      (heq : s.txSide = { s with
        tcnt := uartTick s.tcnt, txActive := !(s.tcnt == bpsDiv && s.tnum == 10) })

theorem txBranch (s : UartConsole) : s.TxBranch := by
  cases hactive : s.txActive with
  | false =>
      cases hpending : s.txPending with
      | true => exact .echo hactive hpending (txSide_echo hactive hpending)
      | false =>
          by_cases hremain : s.respRemain = 0
          · exact .rest hactive hpending hremain (txSide_rest hactive hpending hremain)
          · exact .resp hactive hpending hremain (txSide_resp hactive hpending hremain)
  | true =>
      by_cases hcnt : s.tcnt = bpsHalf
      · exact .drive hactive hcnt (txSide_drive hactive hcnt)
      · exact .hold hactive hcnt (txSide_hold hactive hcnt)

/-- The transmitter writes no register of the receiver. -/
theorem txSide_rx (s : UartConsole) :
    s.txSide.syncSr = s.syncSr ∧ s.txSide.rxActive = s.rxActive ∧ s.txSide.rcnt = s.rcnt ∧
      s.txSide.rnum = s.rnum ∧ s.txSide.rxByte = s.rxByte ∧ s.txSide.rxDoneP = s.rxDoneP ∧
      s.txSide.cmdSt = s.cmdSt := by
  cases txBranch s with
  | echo _ _ heq => simp [heq]
  | resp _ _ _ heq => simp [heq]
  | rest _ _ _ heq => simp [heq]
  | drive _ _ heq => simp [heq, txDrive]
  | hold _ _ heq => simp [heq]

/-! ## §5. A cycle. -/

/-- The registers between the receiver and the transmitter. -/
def afterRx (s : UartConsole) (rx : Bool) : UartConsole := (s.shiftIn rx).rxSide

theorem step_eq (s : UartConsole) (rx : Bool) :
    (uartConsoleMachine s rx).1 = (s.afterRx rx).txSide := rfl

/-- The byte that the receiver completes in a cycle: `rx_done_p` announces it. -/
def completed (s : UartConsole) (rx : Bool) : Option U8 :=
  let t := (uartConsoleMachine s rx).1
  if t.rxDoneP then some t.rxByte else none

theorem atStop_shiftIn (s : UartConsole) (rx : Bool) : (s.shiftIn rx).AtStop ↔ s.AtStop := Iff.rfl

/-- A byte is complete in the middle of its stop bit. -/
theorem completed_eq (s : UartConsole) (rx : Bool) :
    s.completed rx = if s.AtStop then some s.rxByte else none := by
  obtain ⟨-, -, -, -, hbyte, hdone, -⟩ := txSide_rx (s.afterRx rx)
  simp only [completed, step_eq, hbyte, hdone]
  by_cases h : s.AtStop
  · have hstop : s.afterRx rx = { (s.shiftIn rx).rxComplete with rcnt := 2604 } := rxSide_stop h
    rw [hstop, rxComplete_eq, if_pos h]
    rfl
  · obtain ⟨_, _, _, _, hquiet⟩ := rxSide_quiet (s := s.shiftIn rx) h
    have hnone : (s.afterRx rx).rxDoneP = false := by
      rw [afterRx, hquiet]
      rfl
    rw [if_neg h, hnone]
    rfl

end UartConsole

end GigabitTcp
