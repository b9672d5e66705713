/-
  GigabitTcp.Mac.TxProgress — how far MAC TX is with a frame.

  Whatever the mailbox and the buffer hold, MAC TX sends one byte a cycle and counts.  The
  number of cycles it takes to come back to IDLE can be read off its statics in every state,
  also in states that no run reaches.  After a latch the statics themselves are known byte
  by byte, as long as the words it still has to read are left alone.

  Main results:
    * `macTxLeft_cycle` — every cycle that sends a byte brings IDLE one cycle closer,
    * `macTxLeft_latch` — after the latch it is the length of the frame,
    * `macTx_txAt`      — byte `j` of the frame goes out and the statics move on.
-/
import GigabitTcp.Mac.TxFraming

namespace GigabitTcp

open Hw Machine

/-! ## §1. The time left. -/

/-- The cycles MAC TX takes to come back to IDLE. -/
def macTxLeft (s : MacTxFsm) : Nat :=
  match s.state with
  | .idle => 0
  | .sendCrc => countTo 4 s.byteCnt
  | .sendData => countTo (macTxPayloadLen s) s.sentBytes + 4
  | .sendMac => countTo (macTxHdrTotal s) s.byteCnt + countTo (macTxPayloadLen s) s.sentBytes + 4
  | .send55 =>
      countTo 8 s.byteCnt + countTo (macTxHdrTotal s) 0 + countTo (macTxPayloadLen s) s.sentBytes + 4

theorem macTxLeft_idle {s : MacTxFsm} (hs : s.state = .idle) : macTxLeft s = 0 := by
  unfold macTxLeft
  rw [hs]

theorem macTxLeft_send55 {s : MacTxFsm} (hs : s.state = .send55) :
    macTxLeft (macTxSend55 s).1 + 1 = macTxLeft s := by
  unfold macTxSend55
  dsimp only
  split_ifs with hend
  · have hlast := countTo_last hend
    simp only [macTxLeft, hs]
    show countTo (macTxHdrTotal s) 0 + countTo (macTxPayloadLen s) s.sentBytes + 4 + 1 = _
    omega
  · have hnext := countTo_succ hend
    simp only [macTxLeft, hs]
    show countTo 8 (s.byteCnt + 1) + countTo (macTxHdrTotal s) 0
      + countTo (macTxPayloadLen s) s.sentBytes + 4 + 1 = _
    omega

theorem macTxLeft_sendMac {s : MacTxFsm} (hs : s.state = .sendMac) :
    macTxLeft (macTxSendMac s).1 + 1 = macTxLeft s := by
  unfold macTxSendMac
  dsimp only
  split_ifs with hend
  · have hlast : countTo (macTxHdrTotal s) s.byteCnt = 1 := countTo_last hend
    simp only [macTxLeft, hs]
    show countTo (macTxPayloadLen s) s.sentBytes + 4 + 1 = _
    omega
  · have hnext : countTo (macTxHdrTotal s) (s.byteCnt + 1) + 1
        = countTo (macTxHdrTotal s) s.byteCnt := countTo_succ hend
    simp only [macTxLeft, hs]
    show countTo (macTxHdrTotal s) (s.byteCnt + 1) + countTo (macTxPayloadLen s) s.sentBytes + 4 + 1
      = _
    omega

theorem macTxLeft_sendData {s : MacTxFsm} (hs : s.state = .sendData) (buffer : Mem U32) :
    macTxLeft (macTxSendData s buffer).1 + 1 = macTxLeft s := by
  unfold macTxSendData
  dsimp only
  split_ifs with hend
  · have hlast : countTo (macTxPayloadLen s) s.sentBytes = 1 := countTo_last hend
    simp only [macTxLeft, hs]
    rw [countTo_zero (by decide), hlast]
    rfl
  · have hnext : countTo (macTxPayloadLen s) (s.sentBytes + 1) + 1
        = countTo (macTxPayloadLen s) s.sentBytes := countTo_succ hend
    simp only [macTxLeft, hs]
    show countTo (macTxPayloadLen s) (s.sentBytes + 1) + 4 + 1 = _
    omega

theorem macTxLeft_sendCrc {s : MacTxFsm} (hs : s.state = .sendCrc) :
    macTxLeft (macTxSendCrc s).1 + 1 = macTxLeft s := by
  unfold macTxSendCrc
  dsimp only
  split_ifs with hend
  · have hlast := countTo_last hend
    simp only [macTxLeft, hs]
    exact hlast.symm
  · simp only [macTxLeft, hs]
    exact countTo_succ hend

/-- **One cycle closer**, as long as MAC TX is not in IDLE. -/
theorem macTxLeft_cycle {s : MacTxFsm} (hs : s.state ≠ .idle) (i : MacTxReq × Mem U32) :
    macTxLeft (macTxCycle s i).1 + 1 = macTxLeft s := by
  unfold macTxCycle macTxProcess
  cases hst : s.state with
  | idle => exact absurd hst hs
  | send55 => exact macTxLeft_send55 hst
  | sendMac => exact macTxLeft_sendMac hst
  | sendData => exact macTxLeft_sendData hst i.2
  | sendCrc => exact macTxLeft_sendCrc hst

/-- Meanwhile the mailbox is not looked at. -/
theorem macTxCycle_sending {s : MacTxFsm} (hs : s.state ≠ .idle) (i : MacTxReq × Mem U32) :
    (macTxCycle s i).2.txReq = i.1 ∧ (macTxCycle s i).2.busy = true := by
  unfold macTxCycle macTxProcess
  cases hst : s.state with
  | idle => exact absurd hst hs
  | send55 | sendMac | sendData | sendCrc => exact ⟨rfl, rfl⟩

/-- In IDLE it sends nothing. -/
theorem macTxCycle_idle_byte {s : MacTxFsm} (hs : s.state = .idle) (i : MacTxReq × Mem U32) :
    (macTxCycle s i).2.byte = none := by
  unfold macTxCycle macTxProcess
  rw [hs]
  rfl

/-- An idle MAC TX that finds no request does nothing. -/
theorem macTx_rests {m : MacTxFsm} (hidle : m.state = .idle) {req : MacTxReq}
    (hfree : req.request = false) (buffer : Mem U32) :
    (macTxCycle m (req, buffer)).1.state = .idle
      ∧ (macTxCycle m (req, buffer)).2 = { txReq := req, byte := none, busy := false } := by
  unfold macTxCycle macTxProcess macTxIdle
  simp [hidle, hfree]

/-- **The length of the frame** is the time it takes. -/
theorem macTxLeft_latch (req : MacTxReq) (m : Mem U32) :
    macTxLeft (txLatch req) = (txWire req m).length := by
  have hhdr : (macTxHdrTotal (txLatch req)).toNat = (txHeader req).length := toNat_macTxHdrTotal req
  have hpay : (macTxPayloadLen (txLatch req)).toNat = (txPadded req m).length :=
    toNat_macTxPayloadLen req m
  have hpre : countTo (8 : U8) 0 = 8 := countTo_zero (by decide)
  have hposHdr := txHeader_pos req
  have hposPay := txPadded_pos req m
  show countTo 8 0 + countTo (macTxHdrTotal (txLatch req)) 0
    + countTo (macTxPayloadLen (txLatch req)) 0 + 4 = _
  rw [hpre, countTo_zero (by omega), countTo_zero (by omega), hhdr, hpay, length_txWire]
  omega

/-! ## §2. The statics after each byte. -/

/-- The words that MAC TX has still to read: those of the frame in flight until its last
data byte is out. -/
def MacTxFsm.Reads (s : MacTxFsm) (a : Nat) : Prop :=
  (s.state = .send55 ∨ s.state = .sendMac ∨ (s.state = .sendData ∧ s.sentBytes < s.reqBytes))
    ∧ s.reqWbase.toNat ≤ a ∧ a < s.reqWbase.toNat + (s.reqBytes.toNat + 3) / 4

/-- After `j` bytes of the frame. -/
def txAt (req : MacTxReq) (m : Mem U32) (j : Nat) : MacTxFsm :=
  if j < 8 then txSend55 req j
  else if j < 8 + (txHeader req).length then txSendMac req (j - 8)
  else if j < 8 + (txHeader req).length + (txPadded req m).length then
    txSendData req m (j - 8 - (txHeader req).length)
  else txSendCrc req m (j - 8 - (txHeader req).length - (txPadded req m).length)

theorem txAt_zero (req : MacTxReq) (m : Mem U32) : txAt req m 0 = txLatch req := rfl

/-- Behind the last byte it is in IDLE. -/
theorem txAt_end (req : MacTxReq) (m : Mem U32) : (txAt req m (txWire req m).length).state = .idle := by
  have hwire := length_txWire req m
  have hfcs : (txWire req m).length - 8 - (txHeader req).length - (txPadded req m).length = 4 := by omega
  unfold txAt
  rw [if_neg (by omega), if_neg (by omega), if_neg (by omega), hfcs]
  rfl

/-- The words of the frame are read until its last data byte. -/
theorem txAt_reads_iff (req : MacTxReq) (m : Mem U32) {j : Nat} (hj : j < (txWire req m).length)
    (a : Nat) :
    (txAt req m j).Reads a ↔ j < 8 + (txHeader req).length + req.bufLen.toNat
      ∧ req.bufAddr.toNat ≤ a ∧ a < req.bufAddr.toNat + (req.bufLen.toNat + 3) / 4 := by
  have hlt : req.bufLen.toNat < 2 ^ 16 := req.bufLen.isLt
  have hpad := length_txPadded req m
  have hwire := length_txWire req m
  unfold txAt MacTxFsm.Reads
  by_cases h55 : j < 8
  · rw [if_pos h55]
    unfold txSend55
    rw [if_pos h55]
    simp only [txLatch, true_or, true_and]
    omega
  · rw [if_neg h55]
    by_cases hhdr : j < 8 + (txHeader req).length
    · have hk : j - 8 < (txHeader req).length := by omega
      rw [if_pos hhdr]
      simp only [txSendMac, txLatch, hk, if_true, true_or, or_true, true_and]
      omega
    · rw [if_neg hhdr]
      -- of the data phase the first `bufLen` bytes come from the buffer
      by_cases hdat : j < 8 + (txHeader req).length + (txPadded req m).length
      · have hk : j - 8 - (txHeader req).length < (txPadded req m).length := by omega
        have hcnt : (BitVec.ofNat 16 (j - 8 - (txHeader req).length)).toNat
            = j - 8 - (txHeader req).length := by
          rw [BitVec.toNat_ofNat]
          omega
        rw [if_pos hdat]
        simp only [txSendData, txLatch, hk, if_true, BitVec.lt_def, hcnt, reduceCtorEq, false_or,
          true_and]
        omega
      -- the FCS phase reads no word
      · have hk : j - 8 - (txHeader req).length - (txPadded req m).length < 4 := by omega
        rw [if_neg hdat]
        simp only [txSendCrc, txLatch, hk, if_true, reduceCtorEq, false_or, false_and, false_iff]
        omega

theorem map_plainByte_getElem {bs : List U8} {k : Nat} (hk : k < bs.length) :
    (bs.map plainByte)[k]? = some (plainByte (bs.getD k 0)) := by
  rw [List.getElem?_map, List.getD_eq_getElem?_getD, List.getElem?_eq_getElem hk]
  rfl

/-- The bytes of the frame, phase by phase. -/
theorem gmiiFrame_txWire_getElem (req : MacTxReq) (m : Mem U32) {j : Nat}
    (hj : j < (txWire req m).length) :
    (gmiiFrame (txWire req m))[j]? =
      if j < 8 then some (plainByte (preamble.getD j 0))
      else if j < 8 + (txHeader req).length then some (plainByte ((txHeader req).getD (j - 8) 0))
      else if j < 8 + (txHeader req).length + (txPadded req m).length then
        some (plainByte ((txPadded req m).getD (j - 8 - (txHeader req).length) 0))
      else
        some { data := (txFcs req m).getD (j - 8 - (txHeader req).length - (txPadded req m).length) 0
               last := j - 8 - (txHeader req).length - (txPadded req m).length == 3 } := by
  have hwire := length_txWire req m
  have hpre : (preamble.map plainByte).length = 8 := rfl
  rw [gmiiFrame_txWire]
  by_cases h55 : j < 8
  · rw [if_pos h55, List.getElem?_append_left (by omega)]
    exact map_plainByte_getElem h55
  · rw [if_neg h55, List.getElem?_append_right (by omega), hpre]
    by_cases hhdr : j < 8 + (txHeader req).length
    · rw [if_pos hhdr, List.getElem?_append_left (by rw [List.length_map]; omega)]
      exact map_plainByte_getElem (by omega)
    · rw [if_neg hhdr, List.getElem?_append_right (by rw [List.length_map]; omega), List.length_map]
      by_cases hdat : j < 8 + (txHeader req).length + (txPadded req m).length
      · rw [if_pos hdat, List.getElem?_append_left (by rw [List.length_map]; omega)]
        exact map_plainByte_getElem (by omega)
      · rw [if_neg hdat, List.getElem?_append_right (by rw [List.length_map]; omega), List.length_map]
        have hlast : j - 8 - (txHeader req).length - (txPadded req m).length < 4 := by omega
        generalize j - 8 - (txHeader req).length - (txPadded req m).length = k at hlast ⊢
        match k, hlast with
        | 0, _ | 1, _ | 2, _ | 3, _ => rfl

/-- **Byte `j`**: it goes out and the statics move on, if the words that are still to be read
are as they were. -/
theorem macTx_txAt (req : MacTxReq) (m : Mem U32) {j : Nat} (hj : j < (txWire req m).length)
    (i : MacTxReq × Mem U32) (hi : ∀ a, (txAt req m j).Reads a → i.2 a = m a) :
    (macTxCycle (txAt req m j) i).1 = txAt req m (j + 1)
      ∧ (macTxCycle (txAt req m j) i).2.byte = (gmiiFrame (txWire req m))[j]? := by
  have hwire := length_txWire req m
  have hhdrPos := txHeader_pos req
  have hpadPos := txPadded_pos req m
  have hreads := txAt_reads_iff req m hj
  rw [gmiiFrame_txWire_getElem req m hj]
  by_cases h55 : j < 8
  · obtain ⟨hnext, hbyte⟩ := macTx_send55 req j i h55
    have hnow : txAt req m j = txSend55 req j := if_pos h55
    rw [hnow, if_pos h55]
    refine ⟨hnext.trans ?_, hbyte⟩
    by_cases hend : j + 1 < 8
    · exact (if_pos hend).symm
    · have hlast : j + 1 = 8 := by omega
      unfold txAt
      rw [if_neg hend, if_pos (by omega), hlast, txSend55_end]
  · rw [if_neg h55]
    by_cases hhdr : j < 8 + (txHeader req).length
    · obtain ⟨hnext, hbyte⟩ := macTx_sendMac req (j - 8) i (by omega)
      have hnow : txAt req m j = txSendMac req (j - 8) := by
        unfold txAt
        rw [if_neg h55, if_pos hhdr]
      rw [hnow, if_pos hhdr]
      refine ⟨hnext.trans ?_, hbyte⟩
      unfold txAt
      rw [if_neg (by omega)]
      by_cases hend : j + 1 < 8 + (txHeader req).length
      · rw [if_pos hend]
        congr 1
        omega
      · rw [if_neg hend, if_pos (by omega), show j + 1 - 8 - (txHeader req).length = 0 by omega,
          show j - 8 + 1 = (txHeader req).length by omega, txSendMac_end req m]
    · rw [if_neg hhdr]
      by_cases hdat : j < 8 + (txHeader req).length + (txPadded req m).length
      · -- only here is the buffer looked at
        have hnow : txAt req m j = txSendData req m (j - 8 - (txHeader req).length) := by
          unfold txAt
          rw [if_neg h55, if_neg hhdr, if_pos hdat]
        have hwords : j - 8 - (txHeader req).length < req.bufLen.toNat → txWindow req m i.2 :=
          fun hin a hlo hhi => (hi a ((hreads a).mpr ⟨by omega, hlo, hhi⟩)).symm
        obtain ⟨hnext, hbyte⟩ :=
          macTx_sendData req m (j - 8 - (txHeader req).length) i (by omega) hwords
        rw [hnow, if_pos hdat]
        refine ⟨hnext.trans ?_, hbyte⟩
        unfold txAt
        rw [if_neg (by omega), if_neg (by omega)]
        by_cases hend : j + 1 < 8 + (txHeader req).length + (txPadded req m).length
        · rw [if_pos hend]
          congr 1
          omega
        · rw [if_neg hend, show j + 1 - 8 - (txHeader req).length - (txPadded req m).length = 0 by omega,
            show j - 8 - (txHeader req).length + 1 = (txPadded req m).length by omega,
            txSendData_end]
      · obtain ⟨hnext, hbyte⟩ := macTx_sendCrc req m
          (j - 8 - (txHeader req).length - (txPadded req m).length) i (by omega)
        have hnow : txAt req m j
            = txSendCrc req m (j - 8 - (txHeader req).length - (txPadded req m).length) := by
          unfold txAt
          rw [if_neg h55, if_neg hhdr, if_neg hdat]
        rw [hnow, if_neg hdat]
        refine ⟨hnext.trans ?_, hbyte⟩
        unfold txAt
        rw [if_neg (by omega), if_neg (by omega), if_neg (by omega)]
        congr 1
        omega

/-- While the buffer stands still, every cycle sends the next byte. -/
theorem macTx_after_txAt (req : MacTxReq) (m : Mem U32) : ∀ (is : List (MacTxReq × Mem U32)) (j : Nat),
    j + is.length ≤ (txWire req m).length → (∀ i ∈ is, i.2 = m) →
      macTxCycle.after (txAt req m j) is = txAt req m (j + is.length)
  | [], _, _, _ => rfl
  | i :: is, j, hlen, hm => by
      rw [List.length_cons] at hlen ⊢
      have hstep := (macTx_txAt req m (j := j) (by omega) i
        (fun a _ => by rw [hm i List.mem_cons_self])).1
      rw [after_cons, hstep, macTx_after_txAt req m is (j + 1) (by omega)
        (fun i hi => hm i (List.mem_cons_of_mem _ hi))]
      congr 1
      omega

end GigabitTcp
