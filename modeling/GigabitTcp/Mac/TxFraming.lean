/-
  GigabitTcp.Mac.TxFraming — the bytes MAC TX emits for a request.

  The transmitter counts through four phases: preamble, header, data, FCS.  Within a phase
  the state after `k` bytes is known (`txSend55`, `txSendMac`, `txSendData`, `txSendCrc`), so
  each phase is an instance of the counting rule `shows_counted`; `macTx_emits` chains them.
  The mailbox is not looked at while a frame is sent, and of the buffer only the words of
  the request matter, so both may change in any other way meanwhile.

  The FCS is the complement of the register, least significant byte first; that this makes
  every frame leave the same residue is `crc_append_check` (`txWire_residue`).
-/
import GigabitTcp.Mac.RxDecode
import Mathlib.Data.List.GetD
import Mathlib.Tactic.IntervalCases

namespace GigabitTcp

open Hw Machine

/-! ## §1. The frame of a request. -/

/-- The tag MAC TX inserts on request. -/
def txTags (req : MacTxReq) : List VlanTag :=
  if req.insertVlan then [⟨tpidVlan, req.vlanTci, tpidVlan_isTag⟩] else []

/-- The 14 or 18 header bytes. -/
def txHeader (req : MacTxReq) : List U8 :=
  headerBytes req.dstMac boardMac (txTags req) req.ethertype

/-- Byte `k` of the words the request points at, big-endian. -/
def txByte (req : MacTxReq) (buffer : Mem U32) (k : Nat) : U8 :=
  buffer.byteAt req.bufAddr.toNat k

/-- The payload, zero-padded to 46 bytes. -/
def txPadded (req : MacTxReq) (buffer : Mem U32) : List U8 :=
  (List.range req.bufLen.toNat).map (txByte req buffer)
    ++ List.replicate (46 - req.bufLen.toNat) 0

/-- What the FCS protects. -/
def txBody (req : MacTxReq) (buffer : Mem U32) : List U8 := txHeader req ++ txPadded req buffer

/-- The four FCS bytes. -/
def txFcs (req : MacTxReq) (buffer : Mem U32) : List U8 :=
  leBytes 4 (crc crcPoly 0xFFFFFFFF (txBody req buffer) ^^^ 0xFFFFFFFF)

/-- The whole frame from the preamble on. -/
def txWire (req : MacTxReq) (buffer : Mem U32) : List U8 :=
  preamble ++ (txBody req buffer ++ txFcs req buffer)

/-- An Ethernet frame from the preamble on: the payload is zero-padded to 46 bytes, and the FCS
is the complement of the CRC, least significant byte first. -/
def ethernetFrame (dst src : U48) (tags : List VlanTag) (ethertype : U16) (payload : List U8) : List U8 :=
  let body := headerBytes dst src tags ethertype
    ++ (payload ++ List.replicate (46 - payload.length) 0)
  preamble ++ (body ++ leBytes 4 (crc crcPoly 0xFFFFFFFF body ^^^ 0xFFFFFFFF))

/-- The words of the buffer a request points at. -/
def txWindow (req : MacTxReq) (m m' : Mem U32) : Prop :=
  m.AgreeOn req.bufAddr.toNat (req.bufAddr.toNat + (req.bufLen.toNat + 3) / 4) m'

theorem length_txHeader (req : MacTxReq) :
    (txHeader req).length = if req.insertVlan then 18 else 14 := by
  cases h : req.insertVlan <;> simp [txHeader, headerBytes, txTags, h, VlanTag.bytes]

theorem length_txPadded (req : MacTxReq) (m : Mem U32) :
    (txPadded req m).length = max 46 req.bufLen.toNat := by
  simp only [txPadded, List.length_append, List.length_map, List.length_range,
    List.length_replicate]
  omega

theorem txPadded_getD (req : MacTxReq) (m : Mem U32) (k : Nat) :
    (txPadded req m).getD k 0 = if k < req.bufLen.toNat then txByte req m k else 0 := by
  by_cases hk : k < req.bufLen.toNat
  · rw [if_pos hk, txPadded, List.getD_append _ _ _ _ (by simpa using hk)]
    simp [List.getD_eq_getElem?_getD, hk]
  · rw [if_neg hk, txPadded, List.getD_append_right _ _ _ _ (by simpa using hk),
      List.length_map, List.length_range, List.getD_eq_getElem?_getD, List.getElem?_replicate]
    split <;> rfl

/-- Reading the same words gives the same payload. -/
theorem txPadded_congr {req : MacTxReq} {m m' : Mem U32} (h : txWindow req m m') :
    txPadded req m = txPadded req m' := by
  simp only [txPadded]
  congr 1
  refine List.map_congr_left (fun k hk => ?_)
  rw [List.mem_range] at hk
  exact Mem.byteAt_congr (h _ (by omega) (by omega))

theorem txWire_congr {req : MacTxReq} {m m' : Mem U32} (h : txWindow req m m') :
    txWire req m = txWire req m' := by
  unfold txWire txFcs txBody
  rw [txPadded_congr h]

/-! ## §2. The states of the four phases. -/

/-- The statics after the latch. -/
def txLatch (req : MacTxReq) : MacTxFsm :=
  { state := .send55, byteCnt := 0, sentBytes := 0, crcReg := 0xFFFFFFFF, dstMac := req.dstMac
    ethertype := req.ethertype, reqWbase := req.bufAddr, reqBytes := req.bufLen
    doVlan := req.insertVlan, vlanTci := req.vlanTci }

/-- After `k` bytes of the preamble. -/
def txSend55 (req : MacTxReq) (k : Nat) : MacTxFsm :=
  if k < 8 then { txLatch req with byteCnt := BitVec.ofNat 8 k }
  else { txLatch req with state := .sendMac }

/-- After `k` bytes of the header. -/
def txSendMac (req : MacTxReq) (k : Nat) : MacTxFsm :=
  { txLatch req with
    state := if k < (txHeader req).length then .sendMac else .sendData
    byteCnt := if k < (txHeader req).length then BitVec.ofNat 8 k else 0
    crcReg := crc crcPoly 0xFFFFFFFF ((txHeader req).take k) }

/-- After `k` data bytes. -/
def txSendData (req : MacTxReq) (m : Mem U32) (k : Nat) : MacTxFsm :=
  { txLatch req with
    state := if k < (txPadded req m).length then .sendData else .sendCrc
    sentBytes := BitVec.ofNat 16 k
    crcReg := crc crcPoly 0xFFFFFFFF (txHeader req ++ (txPadded req m).take k) }

/-- After `k` bytes of the FCS. -/
def txSendCrc (req : MacTxReq) (m : Mem U32) (k : Nat) : MacTxFsm :=
  { txLatch req with
    state := if k < 4 then .sendCrc else .idle
    byteCnt := if k < 4 then BitVec.ofNat 8 k else 0
    sentBytes := BitVec.ofNat 16 (txPadded req m).length
    crcReg := crc crcPoly 0xFFFFFFFF (txBody req m) }

/-! ## §3. One byte of each phase. -/

/-- **The latch**: the statics no longer depend on the frame before. -/
theorem macTx_latch {s : MacTxFsm} (hs : s.state = .idle) {req : MacTxReq}
    (hreq : req.request = true) (m : Mem U32) :
    macTxCycle s (req, m)
      = (txLatch req, { txReq := { req with request := false }, byte := none, busy := true }) := by
  simp [macTxCycle, macTxProcess, hs, macTxIdle, hreq, txLatch]

theorem macTx_send55 (req : MacTxReq) (k : Nat) (i : MacTxReq × Mem U32) (hk : k < 8) :
    (macTxCycle (txSend55 req k) i).1 = txSend55 req (k + 1)
      ∧ (macTxCycle (txSend55 req k) i).2.byte = some (plainByte (preamble.getD k 0)) := by
  match k, hk with
  | 0, _ | 1, _ | 2, _ | 3, _ | 4, _ | 5, _ | 6, _ | 7, _ => exact ⟨rfl, rfl⟩

/-- The header byte that `MAC_TX_SENDMAC` selects by its counter. -/
theorem macTxHdrByte_eq (req : MacTxReq) {k : Nat} (hk : k < (txHeader req).length)
    (st : MacTxState) (c : U32) :
    macTxHdrByte { txLatch req with state := st, byteCnt := BitVec.ofNat 8 k, crcReg := c }
      = (txHeader req).getD k 0 := by
  rw [length_txHeader] at hk
  obtain ⟨dst, eth, addr, len, request, insertVlan, tci⟩ := req
  cases insertVlan with
  | false =>
      replace hk : k < 14 := hk
      interval_cases k <;> rfl
  | true =>
      replace hk : k < 18 := hk
      interval_cases k <;> rfl

/-- One more byte in the register. -/
theorem crc_take_succ (c : U32) (bs : List U8) {k : Nat} (hk : k < bs.length) :
    crc32Byte (bs.getD k 0) (crc crcPoly c (bs.take k)) = crc crcPoly c (bs.take (k + 1)) := by
  have hget : bs.getD k 0 = bs[k] := by simp [hk]
  rw [List.take_succ_eq_append_getElem hk, crc_append, crc32Byte_eq_crcByte, hget]
  rfl

theorem toNat_macTxHdrTotal (req : MacTxReq) :
    (macTxHdrTotal (txLatch req)).toNat = (txHeader req).length := by
  rw [length_txHeader]
  cases hv : req.insertVlan <;> simp [macTxHdrTotal, txLatch, hv]

/-- The counter reaches the header length exactly at its end. -/
theorem macTxHdrTotal_eq_iff (req : MacTxReq) {k : Nat} (hk : k < (txHeader req).length) :
    BitVec.ofNat 8 k + 1 = macTxHdrTotal (txLatch req) ↔ ¬ k + 1 < (txHeader req).length := by
  have htotal := toNat_macTxHdrTotal req
  have hle : (txHeader req).length ≤ 18 := by rw [length_txHeader]; split <;> omega
  rw [← BitVec.toNat_inj, htotal, BitVec.toNat_add, BitVec.toNat_ofNat]
  simp
  omega

theorem macTx_sendMac (req : MacTxReq) (k : Nat) (i : MacTxReq × Mem U32)
    (hk : k < (txHeader req).length) :
    (macTxCycle (txSendMac req k) i).1 = txSendMac req (k + 1)
      ∧ (macTxCycle (txSendMac req k) i).2.byte = some (plainByte ((txHeader req).getD k 0)) := by
  have hst : txSendMac req k = { txLatch req with
      state := .sendMac, byteCnt := BitVec.ofNat 8 k
      crcReg := crc crcPoly 0xFFFFFFFF ((txHeader req).take k) } := by
    simp only [txSendMac, hk, if_true]
  have hbyte := macTxHdrByte_eq req hk .sendMac (crc crcPoly 0xFFFFFFFF ((txHeader req).take k))
  have hcrc := crc_take_succ 0xFFFFFFFF (txHeader req) hk
  have hcnt := macTxHdrTotal_eq_iff req hk
  have hstep : macTxCycle (txSendMac req k) i
      = let r := macTxSendMac (txSendMac req k)
        (r.1, { txReq := i.1, byte := some r.2, busy := true }) := by
    rw [hst]
    rfl
  rw [hstep, hst]
  constructor
  · simp only [macTxSendMac, hbyte, hcrc]
    -- the counter runs over the header and starts again at its end
    by_cases hend : k + 1 < (txHeader req).length
    · refine (if_neg (fun h => hcnt.mp h hend)).trans ?_
      simp only [txSendMac, hend, if_true, BitVec.ofNat_add]
      rfl
    · refine (if_pos (hcnt.mpr hend)).trans ?_
      simp only [txSendMac, hend, if_false]
  · simp only [macTxSendMac, hbyte, plainByte]

theorem toNat_macTxPayloadLen (req : MacTxReq) (m : Mem U32) :
    (macTxPayloadLen (txLatch req)).toNat = (txPadded req m).length := by
  rw [length_txPadded]
  simp only [macTxPayloadLen, txLatch, BitVec.lt_def]
  by_cases h46 : req.bufLen.toNat < 46
  · rw [if_pos (by simpa using h46)]
    simp
    omega
  · rw [if_neg (by simpa using h46)]
    omega

/-- The payload counter reaches the padded length exactly at its end. -/
theorem macTxPayloadLen_eq_iff (req : MacTxReq) (m : Mem U32) {k : Nat}
    (hk : k < (txPadded req m).length) :
    BitVec.ofNat 16 k + 1 = macTxPayloadLen (txLatch req) ↔ ¬ k + 1 < (txPadded req m).length := by
  have hlt : req.bufLen.toNat < 2 ^ 16 := req.bufLen.isLt
  have htotal := toNat_macTxPayloadLen req m
  rw [length_txPadded] at hk htotal ⊢
  rw [← BitVec.toNat_inj, htotal, BitVec.toNat_add, BitVec.toNat_ofNat]
  simp
  omega

/-- The data byte that `MAC_TX_SENDDATA` selects by its counter. -/
theorem macTxDataByte_eq (req : MacTxReq) {m m' : Mem U32} {k : Nat}
    (hm : k < req.bufLen.toNat → txWindow req m m') (hk : k < (txPadded req m).length) {s : MacTxFsm}
    (hsent : s.sentBytes = BitVec.ofNat 16 k)
    (hbase : s.reqWbase = req.bufAddr) (hbytes : s.reqBytes = req.bufLen) :
    macTxDataByte s m' = (txPadded req m).getD k 0 := by
  have hlt : req.bufLen.toNat < 2 ^ 16 := req.bufLen.isLt
  rw [length_txPadded] at hk
  have hcnt : (BitVec.ofNat 16 k).toNat = k := by
    rw [BitVec.toNat_ofNat]
    omega
  have hless : s.sentBytes < s.reqBytes ↔ k < req.bufLen.toNat := by
    rw [hsent, hbytes, BitVec.lt_def, hcnt]
  rw [txPadded_getD, macTxDataByte]
  by_cases hin : k < req.bufLen.toNat
  · rw [if_pos (hless.mpr hin), if_pos hin, hsent, hbase, hcnt]
    exact (Mem.byteAt_congr (hm hin _ (by omega) (by omega))).symm
  · rw [if_neg (fun h => hin (hless.mp h)), if_neg hin]

theorem macTx_sendData (req : MacTxReq) (m : Mem U32) (k : Nat) (i : MacTxReq × Mem U32)
    (hk : k < (txPadded req m).length) (hi : k < req.bufLen.toNat → txWindow req m i.2) :
    (macTxCycle (txSendData req m k) i).1 = txSendData req m (k + 1)
      ∧ (macTxCycle (txSendData req m k) i).2.byte
          = some (plainByte ((txPadded req m).getD k 0)) := by
  have hst : txSendData req m k = { txLatch req with
      state := .sendData, sentBytes := BitVec.ofNat 16 k
      crcReg := crc crcPoly 0xFFFFFFFF (txHeader req ++ (txPadded req m).take k) } := by
    simp only [txSendData, hk, if_true]
  have hbyte := macTxDataByte_eq req hi hk (s := txSendData req m k) rfl rfl rfl
  have hcrc := crc_take_succ (crc crcPoly 0xFFFFFFFF (txHeader req)) (txPadded req m) hk
  simp only [← crc_append] at hcrc
  have hcnt := macTxPayloadLen_eq_iff req m hk
  have hstep : macTxCycle (txSendData req m k) i
      = let r := macTxSendData (txSendData req m k) i.2
        (r.1, { txReq := i.1, byte := some r.2, busy := true }) := by
    rw [hst]
    rfl
  rw [hstep]
  constructor
  · simp only [macTxSendData, hbyte]
    simp only [hst, hcrc]
    -- the byte goes into the register, and behind the last one the FCS starts
    by_cases hend : k + 1 < (txPadded req m).length
    · refine (if_neg (fun h => hcnt.mp h hend)).trans ?_
      simp only [txSendData, hend, if_true, BitVec.ofNat_add]
      rfl
    · refine (if_pos (hcnt.mpr hend)).trans ?_
      simp only [txSendData, hend, if_false, BitVec.ofNat_add]
      rfl
  · simp only [macTxSendData, hbyte, plainByte]

/-- The bytes MAC TX reads for a request, below its length. -/
def macTxReads (req : MacTxReq) (buffer : Mem U32) : List U8 :=
  (List.range req.bufLen.toNat).map fun k =>
    macTxDataByte { txLatch req with sentBytes := BitVec.ofNat 16 k } buffer

theorem macTxReads_eq (req : MacTxReq) (buffer : Mem U32) :
    macTxReads req buffer = (List.range req.bufLen.toNat).map (txByte req buffer) := by
  apply List.map_congr_left
  intro k hk
  rw [List.mem_range] at hk
  have hpadded : k < (txPadded req buffer).length := by
    rw [length_txPadded]
    omega
  rw [macTxDataByte_eq req (fun _ => Mem.AgreeOn.refl _ _ _) hpadded rfl rfl rfl, txPadded_getD,
    if_pos hk]

@[simp] theorem length_macTxReads (req : MacTxReq) (buffer : Mem U32) :
    (macTxReads req buffer).length = req.bufLen.toNat := by
  simp [macTxReads]

theorem macTxReads_getD (req : MacTxReq) (buffer : Mem U32) {k : Nat} (hk : k < req.bufLen.toNat) :
    (macTxReads req buffer).getD k 0 = txByte req buffer k := by
  rw [macTxReads_eq, getD_map_range _ _ hk]

/-- What goes out is what is read, with the padding. -/
theorem txPadded_reads (req : MacTxReq) (buffer : Mem U32) :
    txPadded req buffer = macTxReads req buffer ++ List.replicate (46 - req.bufLen.toNat) 0 := by
  rw [macTxReads_eq, txPadded]

/-- **The frame of a request** is the Ethernet frame around the bytes that are read. -/
theorem txWire_eq (req : MacTxReq) (buffer : Mem U32) :
    txWire req buffer
      = ethernetFrame req.dstMac boardMac (txTags req) req.ethertype (macTxReads req buffer) := by
  unfold txWire txFcs txBody ethernetFrame
  rw [txPadded_reads, length_macTxReads]
  rfl

/-- The FCS byte that `MAC_TX_SENDCRC` selects by its counter. -/
theorem macTxFcsByte_eq (s : MacTxFsm) {k : Nat} (hk : k < 4) (hcnt : s.byteCnt = BitVec.ofNat 8 k) :
    macTxFcsByte s = lsByte (s.crcReg ^^^ 0xFFFFFFFF) k := by
  match k, hk with
  | 0, _ | 1, _ | 2, _ | 3, _ => simp [macTxFcsByte, hcnt, lsByte]

/-- The FCS goes out least significant byte first, `last` with its fourth byte. -/
theorem macTx_sendCrc (req : MacTxReq) (m : Mem U32) (k : Nat) (i : MacTxReq × Mem U32)
    (hk : k < 4) :
    (macTxCycle (txSendCrc req m k) i).1 = txSendCrc req m (k + 1)
      ∧ (macTxCycle (txSendCrc req m k) i).2.byte
          = some { data := (txFcs req m).getD k 0, last := k == 3 } := by
  have hst : txSendCrc req m k = { txLatch req with
      state := .sendCrc, byteCnt := BitVec.ofNat 8 k
      sentBytes := BitVec.ofNat 16 (txPadded req m).length
      crcReg := crc crcPoly 0xFFFFFFFF (txBody req m) } := by
    simp only [txSendCrc, hk, if_true]
  have hbyte : macTxFcsByte (txSendCrc req m k) = (txFcs req m).getD k 0 := by
    rw [macTxFcsByte_eq _ hk (by rw [hst])]
    simp [txFcs, leBytes, txSendCrc, hk]
  have hstep : macTxCycle (txSendCrc req m k) i
      = let r := macTxSendCrc (txSendCrc req m k)
        (r.1, { txReq := i.1, byte := some r.2, busy := true }) := by
    rw [hst]
    rfl
  rw [hstep]
  constructor
  · rw [hst]
    obtain rfl | rfl | rfl | rfl : k = 0 ∨ k = 1 ∨ k = 2 ∨ k = 3 := by omega
    all_goals simp [macTxSendCrc, txSendCrc]
  · simp only [macTxSendCrc, hbyte]
    rw [hst]
    obtain rfl | rfl | rfl | rfl : k = 0 ∨ k = 1 ∨ k = 2 ∨ k = 3 := by omega
    all_goals rfl

/-! ## §4. The whole frame. -/

/-- The transmitter's byte on each pass. -/
abbrev TxShows (s : MacTxFsm) (is : List (MacTxReq × Mem U32)) (bs : List (Option GmiiByte))
    (s' : MacTxFsm) : Prop :=
  Shows macTxCycle MacTxOut.byte s is bs s'

/-- A counted phase that shows the bytes of a list. -/
theorem range'_map_getD (bs : List U8) (n : Nat) (hn : n = bs.length) :
    (List.range' 0 n).map (fun k => some (plainByte (bs.getD k 0)))
      = (bs.map plainByte).map some := by
  subst hn
  rw [← List.range_eq_range']
  apply List.ext_getElem
  · simp
  · intro k h1 h2
    have hk : k < bs.length := by simpa using h1
    simp [hk]

theorem length_txFcs (req : MacTxReq) (m : Mem U32) : (txFcs req m).length = 4 := by
  simp [txFcs]

theorem gmiiFrame_txFcs (req : MacTxReq) (m : Mem U32) :
    (List.range' 0 4).map (fun k => some { data := (txFcs req m).getD k 0, last := k == 3 })
      = (gmiiFrame (txFcs req m)).map some := rfl

theorem txHeader_pos (req : MacTxReq) : 0 < (txHeader req).length := by
  rw [length_txHeader]
  split <;> omega

theorem txPadded_pos (req : MacTxReq) (m : Mem U32) : 0 < (txPadded req m).length := by
  rw [length_txPadded]
  omega

/-- The end of each phase is the start of the next. -/
theorem txSend55_end (req : MacTxReq) : txSend55 req 8 = txSendMac req 0 := by
  simp [txSend55, txSendMac, txHeader_pos, crc, txLatch]

theorem txSendMac_end (req : MacTxReq) (m : Mem U32) :
    txSendMac req (txHeader req).length = txSendData req m 0 := by
  simp [txSendMac, txSendData, txPadded_pos, txLatch]

theorem txSendData_end (req : MacTxReq) (m : Mem U32) :
    txSendData req m (txPadded req m).length = txSendCrc req m 0 := by
  simp [txSendData, txSendCrc, txBody, txLatch]

theorem length_txWire (req : MacTxReq) (m : Mem U32) :
    (txWire req m).length = 8 + ((txHeader req).length + ((txPadded req m).length + 4)) := by
  simp only [txWire, txBody, List.length_append, length_txFcs]
  rw [show preamble.length = 8 from rfl]
  omega

theorem gmiiFrame_txWire (req : MacTxReq) (m : Mem U32) :
    gmiiFrame (txWire req m) = preamble.map plainByte ++ ((txHeader req).map plainByte
      ++ ((txPadded req m).map plainByte ++ gmiiFrame (txFcs req m))) := by
  have hfcs : txFcs req m ≠ [] := by
    rw [← List.length_pos_iff, length_txFcs]
    omega
  rw [txWire, txBody, ← List.append_assoc, ← List.append_assoc, gmiiFrame_append _ hfcs]
  simp only [List.map_append, List.append_assoc]

/-- **A latched request is sent**: one byte a pass, whatever happens to the mailbox and to the
rest of the buffer. -/
theorem macTx_sends (req : MacTxReq) (m : Mem U32) (is : List (MacTxReq × Mem U32))
    (hlen : is.length = (txWire req m).length) (hbuf : ∀ i ∈ is, txWindow req m i.2) :
    TxShows (txLatch req) is ((gmiiFrame (txWire req m)).map some) (txSendCrc req m 4) := by
  rw [length_txWire] at hlen
  -- the inputs of the four phases
  obtain ⟨i₁, j₁, rfl, h₁⟩ := exists_append_of_le_length (n := 8) is (by omega)
  rw [List.length_append, h₁] at hlen
  obtain ⟨i₂, j₂, rfl, h₂⟩ := exists_append_of_le_length (n := (txHeader req).length) j₁ (by omega)
  rw [List.length_append, h₂] at hlen
  obtain ⟨i₃, i₄, rfl, h₃⟩ := exists_append_of_le_length (n := (txPadded req m).length) j₂ (by omega)
  rw [List.length_append, h₃] at hlen
  have h₄ : i₄.length = 4 := by omega
  have hpre := shows_counted (M := macTxCycle) MacTxOut.byte (txSend55 req) (fun _ => True)
    (fun k i hk _ => macTx_send55 req k i hk) i₁ 0 (by omega) (by simp)
  have hhdr := shows_counted (M := macTxCycle) MacTxOut.byte (txSendMac req) (fun _ => True)
    (fun k i hk _ => macTx_sendMac req k i hk) i₂ 0 (by omega) (by simp)
  have hdat := shows_counted (M := macTxCycle) MacTxOut.byte (txSendData req m) (fun i => txWindow req m i.2)
    (fun k i hk hi => macTx_sendData req m k i hk (fun _ => hi)) i₃ 0
    (by omega) (fun i hi => hbuf i (by simp [hi]))
  have hfcs := shows_counted (M := macTxCycle) MacTxOut.byte (txSendCrc req m) (fun _ => True)
    (fun k i hk _ => macTx_sendCrc req m k i hk) i₄ 0 (by omega) (by simp)
  rw [range'_map_getD preamble _ h₁, txSend55_end] at hpre
  rw [range'_map_getD _ _ h₂, txSendMac_end req m] at hhdr
  rw [range'_map_getD _ _ h₃, txSendData_end] at hdat
  rw [h₄, gmiiFrame_txFcs] at hfcs
  rw [gmiiFrame_txWire]
  simp only [List.map_append]
  exact hpre.append (hhdr.append (hdat.append hfcs))

/-- **From IDLE**: the latch pass, then the frame, then IDLE again. -/
theorem macTx_emits {s : MacTxFsm} (hs : s.state = .idle) {req : MacTxReq}
    (hreq : req.request = true) (m : Mem U32) (is : List (MacTxReq × Mem U32))
    (hlen : is.length = (txWire req m).length) (hbuf : ∀ i ∈ is, txWindow req m i.2) :
    TxShows s ((req, m) :: is) (none :: (gmiiFrame (txWire req m)).map some)
      (txSendCrc req m 4) :=
  Shows.step (macTx_latch hs hreq m) (macTx_sends req m is hlen hbuf)

/-- **The residue**: the register after everything behind the delimiter, FCS included. -/
theorem txWire_residue (req : MacTxReq) (m : Mem U32) :
    (txBody req m ++ txFcs req m).foldl (fun c b => crc32Byte b c) 0xFFFFFFFF = 0xDEBB20E3 := by
  rw [foldl_crc32Byte, txFcs, crc_append_check crcPoly 4 (by omega)]
  decide +kernel

/-! ## §5. Back through MAC RX. -/

/-- The frame of a request, as a receiver reads it: the FCS counts as payload. -/
def txFrame (req : MacTxReq) (m : Mem U32)
    (h : req.ethertype ≠ tpidVlan ∧ req.ethertype ≠ tpidQinq) : TaggedFrame where
  dst := req.dstMac
  src := boardMac
  tags := txTags req
  ethertype := req.ethertype
  payload := txPadded req m ++ txFcs req m
  notTag := h
  nonempty := by
    rw [← List.length_pos_iff, List.length_append, length_txFcs]
    omega

theorem txFrame_bytes (req : MacTxReq) (m : Mem U32)
    (h : req.ethertype ≠ tpidVlan ∧ req.ethertype ≠ tpidQinq) :
    (txFrame req m h).bytes = txWire req m := by
  simp [TaggedFrame.bytes, TaggedFrame.lead, txFrame, txWire, txBody, txHeader]

/-- **MAC TX framing and its round trip.**  From IDLE a request is latched, then its frame goes
out one byte a pass with `last` on the final byte, then the machine is in IDLE; the register
over everything behind the delimiter ends in the residue of Ethernet; and MAC RX reads the
frame back, if it is addressed to the board and the words fit the FIFO. -/
theorem macTx_frames_and_macRx_reads_back (s : MacTxFsm) (hs : s.state = .idle) (req : MacTxReq)
    (hreq : req.request = true) (hety : req.ethertype ≠ tpidVlan ∧ req.ethertype ≠ tpidQinq)
    (m : Mem U32) (is : List (MacTxReq × Mem U32)) (hlen : is.length = (txWire req m).length)
    (hbuf : ∀ i ∈ is, txWindow req m i.2) :
    (macTxCycle.outs s ((req, m) :: is)).map MacTxOut.byte
        = none :: (gmiiFrame (txWire req m)).map some
      ∧ (macTxCycle.after s ((req, m) :: is)).state = .idle
      ∧ (txBody req m ++ txFcs req m).foldl (fun c b => crc32Byte b c) 0xFFFFFFFF = 0xDEBB20E3
      ∧ (macAccepts req.dstMac → ((txPadded req m ++ txFcs req m).length + 3) / 4 ≤ 512 →
          ∀ r : MacRxFsm, r.state = .idle →
            let rep : MacRx :=
              { ethertype := req.ethertype, srcMac := boardMac, dstMac := req.dstMac, valid := true
                nwords := BitVec.ofNat 10 (((txPadded req m ++ txFcs req m).length + 3) / 4) }
            let wire := (gmiiFrame (txWire req m)).map some
            (macRxCycle.after r wire).state = .idle
            ∧ (macRxCycle.outs r wire).flatMap MacRxOut.frameWords
                = packWords (txPadded req m ++ txFcs req m)
            ∧ rep.nwords.toNat = (packWords (txPadded req m ++ txFcs req m)).length
            ∧ List.Forall₂ (ReportsAtEnd rep) (gmiiFrame (txWire req m))
                (macRxCycle.outs r wire)) := by
  have hsend := macTx_emits hs hreq m is hlen hbuf
  refine ⟨hsend.outs, ?_, txWire_residue req m, ?_⟩
  · rw [hsend.after]
    rfl
  · intro hacc hfifo r hr
    -- padding and FCS are payload to MAC RX
    have hread := macRx_frame hr (txFrame req m hety) hacc
    rw [txFrame_bytes] at hread
    intro rep wire
    rw [show wire = (gmiiFrame (txWire req m)).map some from rfl, after_map_some, outs_map_some]
    refine ⟨hread.idle, hread.words, ?_, hread.report⟩
    rw [length_packWords]
    simp only [rep, BitVec.toNat_ofNat]
    omega

/-- A tagged request of five bytes, addressed to the board itself. -/
def roundTripReq : MacTxReq :=
  { dstMac := boardMac, ethertype := ethertypeIpv4, bufAddr := 512, bufLen := 5, request := true
    insertVlan := true, vlanTci := 100 }

def roundTripMem : Mem U32 := fun i => BitVec.ofNat 32 (0x01020304 + i)

theorem macTx_macRx_roundTrip_five_bytes :
    (macTxCycle.after {} ((roundTripReq, roundTripMem)
        :: List.replicate 76 ({}, roundTripMem))).state = .idle
      ∧ (macRxCycle.outs {} ((gmiiFrame (txWire roundTripReq roundTripMem)).map some)).flatMap
          MacRxOut.frameWords
        = packWords (txPadded roundTripReq roundTripMem ++ txFcs roundTripReq roundTripMem) := by
  have h := macTx_frames_and_macRx_reads_back {} rfl roundTripReq rfl (by decide) roundTripMem
    (List.replicate 76 ({}, roundTripMem)) (by rw [length_txWire]; decide)
    (fun i hi => by rw [List.eq_of_mem_replicate hi]; exact Mem.AgreeOn.refl _ _ _)
  exact ⟨h.2.1, (h.2.2.2 (.inl rfl) (by rw [List.length_append, length_txFcs]; decide) {} rfl).2.1⟩

end GigabitTcp
