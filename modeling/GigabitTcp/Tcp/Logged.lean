/-
  GigabitTcp.Tcp.Logged — the TCP layer with its array accesses logged.

  `tcp_rx_process` and `tcp_maintenance` are written a second time, loop for loop as in the
  source, with every array access logged; without the log they are the functions of the
  model (`val_tcpMachineLogged`), so the log is about these functions.  The 16-bit
  subtractions of the queue code are logged too: `a - b` counts as an access with index `b`
  to an array of `a + 1` cells.
-/
import GigabitTcp.Tcp.Runs
import GigabitTcp.Hw.Logged

namespace GigabitTcp

open Hw Machine Logged

/-! ## §1. The arrays. -/

/-- The arrays of `layer_tcp.cpp`; of the two-dimensional ones each row is an array. -/
inductive TcpArr where
  | frameBuf
  /-- The local `payload[]` of `tcp_rx_process`. -/
  | payload
  | sendBufs (cid : Nat)
  | retransBuf (cid : Nat)
  /-- The local `seg[]` of `tcp_send`. -/
  | seg
  | tcpConn
  | buffer
  /-- Not an array: what can be subtracted from `a` in 16 bits without a wrap. -/
  | minus (a : U16)
  deriving Repr, DecidableEq

/-- The cells an access may touch: of `buffer` the TX region only, of a row that does not
exist none. -/
def TcpArr.bounds : TcpArr → Nat × Nat
  | .frameBuf => (0, frameBufWords)
  | .payload => (0, 576)
  | .sendBufs cid => (0, if cid < maxTcpConn then 576 else 0)
  | .retransBuf cid => (0, if cid < maxTcpConn then 576 else 0)
  | .seg => (0, 564)
  | .tcpConn => (0, maxTcpConn)
  | .buffer => (txUdpBase, txUdpBase + txUdpSize)
  | .minus a => (0, a.toNat + 1)

/-- `a - b` in 16 bits. -/
def minusLogged (a b : U16) : Logged TcpArr U16 := ⟨a - b, [(.minus a, b.toNat)]⟩

/-- Store the bytes `bs` from `off` on. -/
def storeBytes (a : TcpArr) (m : Mem U8) (off : Nat) (bs : List U8) : Logged TcpArr (Mem U8) :=
  loop (fun i m => store a m (off + i) (bs.getD i 0)) (List.range bs.length) m

/-- The `payload` pointer of `tcp_send`: an array and an offset into it. -/
structure TcpPointer where
  arr : TcpArr
  mem : Mem U8
  off : Nat

/-- `payload[i]`. -/
def TcpPointer.load (p : TcpPointer) (i : Nat) : Logged TcpArr U8 :=
  Logged.load p.arr p.mem (p.off + i)

/-- What the pointer points to. -/
def TcpPointer.bytes (p : TcpPointer) : Nat → U8 := fun i => p.mem (p.off + i)

/-! ## §2. Sending. -/

/-- `tcp_build_hdr`. -/
def tcpBuildHdrLogged (b : Mem U8) (sp dp : U16) (seq ack : U32) (f : U8) (w : U16) (syn : Bool) :
    Logged TcpArr (Mem U8) := do
  let doff : U8 := if syn then 7 else 5
  let b ← storeBytes .seg b 0 ([hi8 sp, lo8 sp, hi8 dp, lo8 dp] ++ wordBytes 4 seq
    ++ wordBytes 4 ack ++ [doff <<< 4, f, hi8 w, lo8 w, 0, 0, 0, 0])
  if syn then storeBytes .seg b 20 [2, 4, hi8 460, lo8 460, 3, 3, 7, 1] else pure b

/-- `tcp_csum`, reading `seg`. -/
def tcpCsumLogged (sip dip : U32) (seg : Mem U8) (len : U16) : Logged TcpArr U16 := do
  let s : U32 := 6 + len.setWidth 32
  let s := s + (sip >>> 16) + (sip &&& 0xFFFF) + (dip >>> 16) + (dip &&& 0xFFFF)
  let s ← loop (fun i s => do
    let hi ← load .seg seg (i * 2)
    let lo ← load .seg seg (i * 2 + 1)
    pure (s + (be16 hi lo).setWidth 32)) (List.range (len.toNat / 2)) s
  -- an odd last byte is the high byte of a word
  if len.toNat % 2 = 1 then
    let b ← load .seg seg (len.toNat - 1)
    pure (~~~ (foldCarries (s + (b.setWidth 32 <<< 8))).setWidth 16)
  else pure (~~~ (foldCarries s).setWidth 16)

/-- The copy of the payload to `seg[]`. -/
def tcpFillLogged (payload : Option TcpPointer) (payLen : U16) (seg : Mem U8) :
    Logged TcpArr (Mem U8) :=
  match payload with
  | some p => loop (fun i seg => do
      let b ← p.load i
      store .seg seg (20 + i) b) (List.range payLen.toNat) seg
  | none => pure seg

/-- The construction of `seg[]`. -/
def tcpSegmentLogged (un : Uninit) (c : TcpConn) (flags : U8) (payload : Option TcpPointer)
    (payLen : U16) : Logged TcpArr (Mem U8) := do
  let syn := hasFlag flags tcpSyn
  let seg ← tcpBuildHdrLogged un.seg tcpPortEcho c.peerPort c.seq c.peerSeq flags 0xFFFF syn
  let seg ← tcpFillLogged payload payLen seg
  let cs ← tcpCsumLogged boardIp c.peerIp seg (tcpTotal flags payLen)
  storeBytes .seg seg 16 [hi8 cs, lo8 cs]

/-- The frame in `buffer`: IP header, then the words of the segment. -/
def tcpWriteFrameLogged (un : Uninit) (c : TcpConn) (flags : U8) (payload : Option TcpPointer)
    (payLen : U16) (buffer : Mem U32) : Logged TcpArr (Mem U32) := do
  let total := tcpTotal flags payLen
  let seg ← tcpSegmentLogged un c flags payload payLen
  let hdr := ipHeader (20 + total) 0 128 ipProtoTcp boardIpBytes (wordBytes 4 c.peerIp)
  let buffer ← loop (fun i b => store .buffer b (txUdpBase + i) (Mem.wordOf hdr i))
    (List.range 5) buffer
  loop (fun i b => do
    let b0 ← load .seg seg (i * 4)
    let b1 ← load .seg seg (i * 4 + 1)
    let b2 ← load .seg seg (i * 4 + 2)
    let b3 ← load .seg seg (i * 4 + 3)
    store .buffer b (txUdpBase + 5 + i) (packWord b0 b1 b2 b3))
    (List.range ((total.toNat + 3) / 4)) buffer

/-- The copy to `tcp_retrans_buf`. -/
def tcpSaveRetransLogged (t : TcpState) (cid : Nat) (flags : U8) (payload : Option TcpPointer)
    (payLen : U16) : Logged TcpArr TcpState :=
  -- a SYN is repeated from the record, so its slot needs no copy
  if hasFlag flags tcpSyn then pure t
  else
    match payload with
    | some p => do
        let row ← loop (fun i b => do
          let v ← p.load i
          store (.retransBuf cid) b (0 + i) v) (List.range payLen.toNat) (t.retransBuf cid)
        pure { t with retransBuf := fun i => if i = cid then row else t.retransBuf i }
    | none => pure t

/-- `tcp_send`. -/
def tcpSendLogged (un : Uninit) (cid : Nat) (flags : U8) (payload : Option TcpPointer)
    (payLen : U16) (t : TcpState) (sh : Shared) : Logged TcpArr (TcpState × Shared) :=
  if maxTcpConn ≤ cid then pure (t, sh)
  else do
    let c ← load .tcpConn t.conn cid
    let buffer ← tcpWriteFrameLogged un c flags payload payLen sh.buffer
    let t ← tcpSaveRetransLogged t cid flags payload payLen
    let conn ← store .tcpConn t.conn cid (tcpSendConn c flags payLen)
    let r := replyMac { sh with buffer } c.peerIp
    pure ({ t with conn }, r.2.issue r.1 ethertypeIpv4 txUdpBase (20 + tcpTotal flags payLen))

/-! ## §3. The queue. -/

/-- `tcp_queue`. -/
def tcpQueueLogged (cid : Nat) (payload : Mem U8) (payLen : U16) (t : TcpState) :
    Logged TcpArr TcpState :=
  if maxTcpConn ≤ cid ∨ payLen = 0 then pure t
  else do
    let t := tcpQueueRestart t cid
    -- `room` would be 65536 - x if more than the buffer were queued
    let room ← minusLogged tcpRxPayload t.qLen
    let room := if payLen < room then payLen else room
    let row ← loop (fun i b => do
      let v ← load .payload payload (0 + i)
      store (.sendBufs cid) b (t.qLen.toNat + i) v) (List.range room.toNat) (t.sendBufs cid)
    pure { t with
      sendBufs := fun i => if i = cid then row else t.sendBufs i
      qLen := t.qLen + room }

/-- What `tcp_maintenance` sends again for slot `i` with record `c`. -/
def tcpResendLogged (un : Uninit) (i : Nat) (c : TcpConn) (t : TcpState) (sh : Shared) :
    Logged TcpArr (TcpState × Shared) :=
  match c.state with
  | .synRcvd => tcpSendLogged un i (tcpSyn ||| tcpAck) none 0 t sh
  | .established =>
      if 0 < c.retransLen then
        tcpSendLogged un i tcpAck (some { arr := .retransBuf i, mem := t.retransBuf i, off := 0 })
          c.retransLen t sh
      else pure (t, sh)
  | .lastAck => tcpSendLogged un i (tcpFin ||| tcpAck) none 0 t sh
  | _ => pure (t, sh)

/-- The retransmission branch of `tcp_maintenance`. -/
def tcpRetransmitLogged (un : Uninit) (t : TcpState) (sh : Shared) :
    Logged TcpArr (TcpState × Shared) := do
  let c ← load .tcpConn t.conn t.retransCid
  let r ← tcpResendLogged un t.retransCid c t sh
  pure ({ r.1 with retransDue := false }, r.2)

/-- The queue branch of `tcp_maintenance`. -/
def tcpFlushLogged (un : Uninit) (t : TcpState) (sh : Shared) :
    Logged TcpArr (TcpState × Shared) := do
  -- and `rem`, if more had been sent than was queued
  let rem ← minusLogged t.qLen t.qOff
  let chunk := if tcpTxChunk < rem then tcpTxChunk else rem
  let r ← tcpSendLogged un t.qCid tcpAck
    (some { arr := .sendBufs t.qCid, mem := t.sendBufs t.qCid, off := t.qOff.toNat }) chunk t sh
  let qOff := r.1.qOff + chunk
  if r.1.qLen ≤ qOff then pure ({ r.1 with qLen := 0, qOff := 0 }, r.2)
  else pure ({ r.1 with qOff }, r.2)

/-- `tcp_maintenance`. -/
def tcpMaintenanceLogged (un : Uninit) (t : TcpState) (sh : Shared) :
    Logged TcpArr (TcpState × Shared) :=
  if t.retransDue ∧ ¬ sh.txReq.request then tcpRetransmitLogged un t sh
  else if t.qOff < t.qLen ∧ ¬ sh.txReq.request then tcpFlushLogged un t sh
  else pure (t, sh)

/-! ## §4. Reception. -/

/-- One connection in the retransmission scan. -/
def tcpScanOneLogged (i : Nat) (t : TcpState) : Logged TcpArr TcpState := do
  let c ← load .tcpConn t.conn i
  if c.retransPending then
    let c := { c with rtoTimer := c.rtoTimer + 1 }
    if c.rto ≤ c.rtoTimer then
      let rto := c.rto * 2
      let c := { c with
        rtoTimer := 0, rto := if tcpRtoMax < rto then tcpRtoMax else rto
        ssthresh := tcpHalfFlight c, cwnd := tcpMss, flightSize := 0, dupAckCnt := 0 }
      let conn ← store .tcpConn t.conn i c
      pure { t with conn, retransDue := true, retransCid := i }
    else
      let conn ← store .tcpConn t.conn i c
      pure { t with conn }
  else pure t

/-- The copy to `payload[]`. -/
def tcpPayloadLogged (un : Uninit) (frameBuf : Mem U32) (seg : TcpSeg) : Logged TcpArr (Mem U8) :=
  -- the only guard on the 16-bit difference `plen`
  if 0 < seg.plen ∧ seg.plen ≤ tcpRxPayload then
    loop (fun i p => do
      let w ← load .frameBuf frameBuf (5 + seg.doff.toNat + i / 4)
      store .payload p (0 + i) (wordByte w (i % 4))) (List.range seg.plen.toNat) un.payload
  else pure un.payload

/-- `tcp_find`. -/
def tcpFindLogged (t : TcpState) (port : U16) (ip : U32) : Logged TcpArr (Option Nat) :=
  go (List.range maxTcpConn) none
where
  go : List Nat → Option Nat → Logged TcpArr (Option Nat)
    | [], free => pure free
    | i :: is, free => do
        let c ← load .tcpConn t.conn i
        if c.state ≠ .free ∧ c.peerPort = port ∧ c.peerIp = ip then pure (some i)
        else if c.state = .free ∧ free = none then go is (some i)
        else go is free

/-- An option byte; the options start at word 10. -/
def tcpOptLogged (frameBuf : Mem U32) (o : Nat) : Logged TcpArr U8 := do
  let w ← load .frameBuf frameBuf (10 + o / 4)
  pure (wordByte w (o % 4))

/-- The option loop over the SYN. -/
def tcpOptLoopLogged (frameBuf : Mem U32) (optEnd : Nat) : Nat → Nat → TcpConn →
    Logged TcpArr TcpConn
  | 0, _, c => pure c
  | fuel + 1, o, c =>
      if o + 1 < optEnd then do
        -- end of the options, padding, then options with a length
        let k ← tcpOptLogged frameBuf o
        if k = 0 then pure c
        else if k = 1 then tcpOptLoopLogged frameBuf optEnd fuel (o + 1) c
        else
          let ln ← tcpOptLogged frameBuf (o + 1)
          if ln < 2 then pure c
          else if k = 2 ∧ 4 ≤ ln then
            let b0 ← tcpOptLogged frameBuf (o + 2)
            let b1 ← tcpOptLogged frameBuf (o + 3)
            tcpOptLoopLogged frameBuf optEnd fuel (o + ln.toNat) { c with peerMss := be16 b0 b1 }
          else if k = 3 ∧ 3 ≤ ln then
            let ws ← tcpOptLogged frameBuf (o + 2)
            tcpOptLoopLogged frameBuf optEnd fuel (o + ln.toNat)
              { c with peerWscale := if ws ≤ 7 then ws else 0 }
          else tcpOptLoopLogged frameBuf optEnd fuel (o + ln.toNat) c
      else pure c

/-- The initialisation of a free slot that receives a SYN. -/
def tcpOpenLogged (cid : Nat) (seg : TcpSeg) (frameBuf : Mem U32) (c : TcpConn) :
    Logged TcpArr TcpConn := do
  let c := { c with
    state := .listen, cwnd := tcpMss, ssthresh := 65535, srtt := 0, rttvar := 0
    rto := tcpRtoMin, dupAckCnt := 0, seq := 0x12345678#32 ||| (BitVec.ofNat 32 cid <<< 20)
    peerSeq := 0, lastAckRecv := 0, flightSize := 0, peerMss := 460, peerWscale := 0
    ourWscale := 7 }
  let optEnd := (seg.doff.toNat - 5) * 4
  let c ← tcpOptLoopLogged frameBuf optEnd optEnd 0 c
  pure (if c.peerMss < 460 ∧ 0 < c.peerMss then { c with cwnd := c.peerMss.setWidth 32 } else c)

/-- `case T_LISTEN`. -/
def tcpListenLogged (un : Uninit) (cid : Nat) (seg : TcpSeg) (ipRx : IpRx) (t : TcpState)
    (sh : Shared) : Logged TcpArr (TcpState × Shared) :=
  if hasFlag seg.flags tcpSyn then do
    let c ← load .tcpConn t.conn cid
    let conn ← store .tcpConn t.conn cid { c with
      peerSeq := seg.seq + 1, peerIp := ipRx.srcIp, peerPort := seg.sp, state := .synRcvd }
    tcpSendLogged un cid (tcpSyn ||| tcpAck) none 0 { t with conn } sh
  else pure (t, sh)

/-- The data of a segment: queued, or, without data, the ACK noted. -/
def tcpTakeDataLogged (cid : Nat) (seg : TcpSeg) (payload : Mem U8) (t : TcpState) :
    Logged TcpArr TcpState :=
  if 0 < seg.plen then tcpQueueLogged cid payload seg.plen t
  else if hasFlag seg.flags tcpAck then do
    let c ← load .tcpConn t.conn cid
    let conn ← store .tcpConn t.conn cid { c with retransPending := false }
    pure { t with conn }
  else pure t

/-- `case T_ESTABLISHED`. -/
def tcpEstablishedLogged (un : Uninit) (cid : Nat) (seg : TcpSeg) (payload : Mem U8)
    (t : TcpState) (sh : Shared) : Logged TcpArr (TcpState × Shared) := do
  let c ← load .tcpConn t.conn cid
  let conn ← store .tcpConn t.conn cid { c with peerSeq := tcpAdvance seg }
  let t ← tcpTakeDataLogged cid seg payload { t with conn }
  if hasFlag seg.flags tcpFin then do
    let r ← tcpSendLogged un cid (tcpFin ||| tcpAck) none 0 t sh
    let c ← load .tcpConn r.1.conn cid
    let conn ← store .tcpConn r.1.conn cid { c with state := .lastAck }
    pure ({ r.1 with conn }, r.2)
  else pure (t, sh)

/-- The state switch of `tcp_rx_process`. -/
def tcpSwitchLogged (un : Uninit) (cid : Nat) (seg : TcpSeg) (payload : Mem U8) (ipRx : IpRx)
    (t : TcpState) (sh : Shared) : Logged TcpArr (TcpState × Shared) := do
  let c ← load .tcpConn t.conn cid
  match c.state with
  | .listen => tcpListenLogged un cid seg ipRx t sh
  | .synRcvd => do
      let conn ← store .tcpConn t.conn cid (tcpSynRcvd seg c)
      pure ({ t with conn }, sh)
  | .established => tcpEstablishedLogged un cid seg payload t sh
  | .lastAck => do
      let conn ← store .tcpConn t.conn cid (tcpLastAck seg c)
      pure ({ t with conn }, sh)
  | .free => pure (t, sh)

/-- A free slot that receives a SYN is opened. -/
def tcpOpenSlotLogged (cid : Nat) (seg : TcpSeg) (frameBuf : Mem U32) (t : TcpState) :
    Logged TcpArr TcpState := do
  let c ← load .tcpConn t.conn cid
  if c.state = .free ∧ seg.opens then do
    let c ← tcpOpenLogged cid seg frameBuf c
    let conn ← store .tcpConn t.conn cid c
    pure { t with conn }
  else pure t

/-- A segment to the echo port, from the copy to `payload[]` on. -/
def tcpReceiveLogged (un : Uninit) (ipRx : IpRx) (seg : TcpSeg) (frameBuf : Mem U32) (t : TcpState)
    (sh : Shared) : Logged TcpArr (TcpState × Shared) := do
  let payload ← tcpPayloadLogged un frameBuf seg
  match ← tcpFindLogged t seg.sp ipRx.srcIp with
  | none => pure (t, sh)
  | some cid => do
      -- a free slot with a SYN listens for the rest of the call
      let t ← tcpOpenSlotLogged cid seg frameBuf t
      let c ← load .tcpConn t.conn cid
      if c.state = .free then pure (t, sh)
      else do
        let conn ← store .tcpConn t.conn cid (tcpOnSegment c seg)
        tcpSwitchLogged un cid seg payload ipRx { t with conn } sh

/-- `tcp_rx_process`. -/
def tcpRxProcessLogged (un : Uninit) (rst : Bool) (ipRx : IpRx) (frameBuf : Mem U32) (t : TcpState)
    (sh : Shared) : Logged TcpArr (TcpState × Shared) :=
  if !rst then do
    let conn ← loop (fun i conn => do
      let c ← load .tcpConn conn i
      store .tcpConn conn i { c with state := .free }) (List.range maxTcpConn) t.conn
    pure ({ t with conn }, sh)
  else if !ipRx.valid || ipRx.protocol != ipProtoTcp then do
    let t ← loop tcpScanOneLogged (List.range maxTcpConn) t
    pure (t, sh)
  else do
    -- the copy to `th[]`, five words
    let _ ← loop (fun i _ => load .frameBuf frameBuf (5 + i)) (List.range 5) 0
    let seg := tcpParse ipRx frameBuf
    if seg.dp ≠ tcpPortEcho then pure (t, sh) else tcpReceiveLogged un ipRx seg frameBuf t sh

/-- One call into the TCP layer. -/
def tcpMachineLogged (t : TcpState) : TcpEvent → Logged TcpArr (TcpState × Shared)
  | .segment un rst ipRx frameBuf sh => tcpRxProcessLogged un rst ipRx frameBuf t sh
  | .maintenance un sh => tcpMaintenanceLogged un t sh

/-! ## §5. Without the log. -/

theorem val_storeBytes (a : TcpArr) (m : Mem U8) (off : Nat) (bs : List U8) :
    (storeBytes a m off bs).val = putBytes m off bs := by
  unfold storeBytes
  rw [val_fillLoop]
  rfl

theorem val_tcpBuildHdrLogged (b : Mem U8) (sp dp : U16) (seq ack : U32) (f : U8) (w : U16)
    (syn : Bool) :
    (tcpBuildHdrLogged b sp dp seq ack f w syn).val = tcpBuildHdr b sp dp seq ack f w syn := by
  unfold tcpBuildHdrLogged tcpBuildHdr
  dsimp only
  rw [val_bind, val_storeBytes]
  cases syn with
  | true => exact val_storeBytes _ _ _ _
  | false => rfl

theorem val_tcpCsumLogged (sip dip : U32) (seg : Mem U8) (len : U16) :
    (tcpCsumLogged sip dip seg len).val = tcpCsum sip dip seg len := by
  unfold tcpCsumLogged tcpCsum byteChecksum be16Words
  dsimp only
  rw [List.foldl_map, val_bind, val_loop]
  split <;> rfl

/-- A loop that copies from the payload pointer. -/
theorem val_pointerLoop (p : TcpPointer) (a : TcpArr) (m : Mem U8) (base n : Nat) :
    (loop (fun i m => do let b ← p.load i; store a m (base + i) b) (List.range n) m).val
      = m.fill base n p.bytes :=
  val_copyLoop p.arr a p.mem m p.off base n

theorem val_tcpSegmentLogged (un : Uninit) (c : TcpConn) (flags : U8) (payload : Option TcpPointer)
    (payLen : U16) :
    (tcpSegmentLogged un c flags payload payLen).val
      = tcpSegment un c flags (payload.map TcpPointer.bytes) payLen := by
  unfold tcpSegmentLogged tcpSegment
  dsimp only
  rw [val_bind, val_bind, val_bind, val_tcpBuildHdrLogged, val_tcpCsumLogged, val_storeBytes]
  unfold tcpFillLogged
  cases payload with
  | none => rfl
  | some p =>
      dsimp only
      rw [val_pointerLoop]
      rfl

theorem val_tcpWriteFrameLogged (un : Uninit) (c : TcpConn) (flags : U8)
    (payload : Option TcpPointer) (payLen : U16) (buffer : Mem U32) :
    (tcpWriteFrameLogged un c flags payload payLen buffer).val
      = tcpWriteFrame un c flags (payload.map TcpPointer.bytes) payLen buffer := by
  unfold tcpWriteFrameLogged tcpWriteFrame
  dsimp only
  rw [val_bind, val_bind, val_tcpSegmentLogged, val_fillLoop]
  generalize tcpSegment un c flags (payload.map TcpPointer.bytes) payLen = seg
  rw [val_loop]
  exact Mem.foldl_set_eq_fill _ (txUdpBase + 5) _ (Mem.wordOf seg)

theorem val_tcpSaveRetransLogged (t : TcpState) (cid : Nat) (flags : U8)
    (payload : Option TcpPointer) (payLen : U16) :
    (tcpSaveRetransLogged t cid flags payload payLen).val
      = tcpSaveRetrans t cid flags (payload.map TcpPointer.bytes) payLen := by
  unfold tcpSaveRetransLogged tcpSaveRetrans
  split
  · rfl
  · cases payload with
    | none => rfl
    | some p =>
        dsimp only [Option.map_some]
        rw [val_bind, val_pointerLoop, val_pure]
        refine congrArg (fun r => { t with retransBuf := r }) (funext fun i => ?_)
        by_cases hi : i = cid
        · rw [if_pos hi, if_pos hi, hi]
        · rw [if_neg hi, if_neg hi]

theorem val_tcpSendLogged (un : Uninit) (cid : Nat) (flags : U8) (payload : Option TcpPointer)
    (payLen : U16) (t : TcpState) (sh : Shared) :
    (tcpSendLogged un cid flags payload payLen t sh).val
      = tcpSend un cid flags (payload.map TcpPointer.bytes) payLen t sh := by
  unfold tcpSendLogged tcpSend
  split
  · rfl
  · simp only [val_bind, val_load, val_store, val_pure, val_tcpWriteFrameLogged,
      val_tcpSaveRetransLogged]
    rfl

theorem val_tcpQueueLogged (cid : Nat) (payload : Mem U8) (payLen : U16) (t : TcpState) :
    (tcpQueueLogged cid payload payLen t).val = tcpQueue cid payload payLen t := by
  unfold tcpQueueLogged tcpQueue
  split
  · rfl
  · dsimp only
    rw [val_bind, val_bind, val_copyLoop, val_pure]
    simp only [Nat.zero_add]
    refine congrArg (fun b => ({ tcpQueueRestart t cid with
      sendBufs := b
      qLen := (tcpQueueRestart t cid).qLen + tcpQueueRoom (tcpQueueRestart t cid) payLen }
        : TcpState)) (funext fun i => ?_)
    by_cases hi : i = cid
    · rw [if_pos hi, if_pos hi, hi]
      rfl
    · rw [if_neg hi, if_neg hi]

theorem val_tcpRetransmitLogged (un : Uninit) (t : TcpState) (sh : Shared) :
    (tcpRetransmitLogged un t sh).val = tcpRetransmit un t sh := by
  unfold tcpRetransmitLogged tcpResendLogged tcpRetransmit
  dsimp only
  rw [val_bind, val_bind, val_load, val_pure]
  -- the pointer to the first byte of the row
  have hrow : ∀ (a : TcpArr) (m : Mem U8),
      (some ({ arr := a, mem := m, off := 0 } : TcpPointer)).map TcpPointer.bytes = some m := by
    intro a m
    refine congrArg some (funext fun i => ?_)
    show m (0 + i) = m i
    rw [Nat.zero_add]
  refine congrArg (fun r : TcpState × Shared => ({ r.1 with retransDue := false }, r.2)) ?_
  cases (t.conn t.retransCid).state with
  | free => rfl
  | listen => rfl
  | synRcvd => exact val_tcpSendLogged _ _ _ _ _ _ _
  | lastAck => exact val_tcpSendLogged _ _ _ _ _ _ _
  | established =>
      dsimp only
      split
      · rw [val_tcpSendLogged, hrow]
      · rfl

theorem val_tcpFlushLogged (un : Uninit) (t : TcpState) (sh : Shared) :
    (tcpFlushLogged un t sh).val = tcpFlush un t sh := by
  unfold tcpFlushLogged tcpFlush
  dsimp only
  rw [val_bind, val_bind, val_tcpSendLogged]
  show (if _ then _ else _ : Logged TcpArr (TcpState × Shared)).val = _
  rw [apply_ite val]
  rfl

/-- **The logged maintenance is `tcp_maintenance`.** -/
theorem val_tcpMaintenanceLogged (un : Uninit) (t : TcpState) (sh : Shared) :
    (tcpMaintenanceLogged un t sh).val = tcpMaintenance un t sh := by
  unfold tcpMaintenanceLogged tcpMaintenance
  split
  · exact val_tcpRetransmitLogged un t sh
  · split
    · exact val_tcpFlushLogged un t sh
    · rfl

theorem val_tcpScanOneLogged (i : Nat) (t : TcpState) :
    (tcpScanOneLogged i t).val = tcpScanOne t i := by
  unfold tcpScanOneLogged tcpScanOne
  rw [val_bind, val_load]
  dsimp only
  split
  · split <;> rfl
  · rfl

theorem val_tcpPayloadLogged (un : Uninit) (frameBuf : Mem U32) (seg : TcpSeg) :
    (tcpPayloadLogged un frameBuf seg).val = tcpPayload un frameBuf seg := by
  unfold tcpPayloadLogged
  by_cases h : 0 < seg.plen ∧ seg.plen ≤ tcpRxPayload
  · rw [if_pos h, val_loop]
    have hfill := Mem.foldl_set_eq_fill un.payload 0 seg.plen.toNat
      (frameBuf.byteAt (5 + seg.doff.toNat))
    refine Eq.trans hfill (funext fun i => ?_)
    unfold tcpPayload
    by_cases hi : i < seg.plen.toNat
    · rw [Mem.fill_inside _ _ ⟨Nat.zero_le i, by omega⟩, if_pos ⟨h.1, h.2, hi⟩]
      rfl
    · rw [Mem.fill_outside _ _ (by omega), if_neg (fun hc => hi hc.2.2)]
  -- without a copy the array stays what it was
  · rw [if_neg h]
    apply funext
    intro i
    unfold tcpPayload
    exact (if_neg (fun hc => h ⟨hc.1, hc.2.1⟩)).symm

theorem val_tcpFindLogged (t : TcpState) (port : U16) (ip : U32) :
    (tcpFindLogged t port ip).val = tcpFind t port ip := by
  -- over the slots still to be looked at, with any free slot remembered so far
  have hgo : ∀ (is : List Nat) (free : Option Nat),
      (tcpFindLogged.go t port ip is free).val = tcpFind.go t port ip is free := by
    intro is
    induction is with
    | nil =>
        intro free
        rfl
    | cons i is ih =>
        intro free
        unfold tcpFindLogged.go tcpFind.go
        rw [val_bind, val_load]
        split
        · rfl
        · split
          · exact ih (some i)
          · exact ih free
  exact hgo _ none

theorem val_tcpOptLogged (frameBuf : Mem U32) (o : Nat) :
    (tcpOptLogged frameBuf o).val = frameBuf.byteAt 10 o := rfl

theorem val_tcpOptLoopLogged (frameBuf : Mem U32) (optEnd fuel o : Nat) (c : TcpConn) :
    (tcpOptLoopLogged frameBuf optEnd fuel o c).val = tcpOptLoop frameBuf optEnd fuel o c := by
  induction fuel generalizing o c with
  | zero => rfl
  | succ fuel ih =>
      unfold tcpOptLoopLogged tcpOptLoop
      split
      · rw [val_bind, val_tcpOptLogged]
        dsimp only
        split
        · rfl
        · split
          · exact ih (o + 1) c
          · rw [val_bind, val_tcpOptLogged]
            split
            · rfl
            · split
              · exact ih _ _
              · split
                · exact ih _ _
                · exact ih _ _
      · rfl

theorem val_tcpOpenSlotLogged (cid : Nat) (seg : TcpSeg) (frameBuf : Mem U32) (t : TcpState) :
    (tcpOpenSlotLogged cid seg frameBuf t).val
      = if (t.conn cid).state = .free ∧ seg.opens then
          t.setConn cid (tcpOpen cid seg frameBuf (t.conn cid))
        else t := by
  unfold tcpOpenSlotLogged
  rw [val_bind, val_load]
  split
  · rw [val_bind, val_bind, val_store]
    unfold tcpOpenLogged tcpOpen
    rw [val_bind, val_tcpOptLoopLogged]
    rfl
  · rfl

theorem val_tcpListenLogged (un : Uninit) (cid : Nat) (seg : TcpSeg) (ipRx : IpRx) (t : TcpState)
    (sh : Shared) : (tcpListenLogged un cid seg ipRx t sh).val = tcpListen un cid seg ipRx t sh := by
  unfold tcpListenLogged tcpListen
  split
  · rw [val_bind, val_bind, val_load, val_store]
    exact val_tcpSendLogged un cid _ none 0 _ sh
  · rfl

theorem val_tcpTakeDataLogged (cid : Nat) (seg : TcpSeg) (payload : Mem U8) (t : TcpState) :
    (tcpTakeDataLogged cid seg payload t).val
      = if 0 < seg.plen then tcpQueue cid payload seg.plen t
        else if hasFlag seg.flags tcpAck then
          t.setConn cid { t.conn cid with retransPending := false }
        else t := by
  unfold tcpTakeDataLogged
  split
  · exact val_tcpQueueLogged cid payload seg.plen t
  · split <;> rfl

theorem val_tcpEstablishedLogged (un : Uninit) (cid : Nat) (seg : TcpSeg) (payload : Mem U8)
    (t : TcpState) (sh : Shared) :
    (tcpEstablishedLogged un cid seg payload t sh).val
      = tcpEstablished un cid seg payload t sh := by
  unfold tcpEstablishedLogged tcpEstablished
  rw [val_bind, val_bind, val_bind, val_load, val_store, val_tcpTakeDataLogged]
  dsimp only
  split
  · rw [val_bind, val_bind, val_bind, val_load, val_store, val_tcpSendLogged]
    rfl
  · rfl

theorem val_tcpSwitchLogged (un : Uninit) (cid : Nat) (seg : TcpSeg) (payload : Mem U8)
    (ipRx : IpRx) (t : TcpState) (sh : Shared) :
    (tcpSwitchLogged un cid seg payload ipRx t sh).val
      = tcpSwitch un cid seg payload ipRx t sh := by
  unfold tcpSwitchLogged tcpSwitch
  rw [val_bind, val_load]
  cases (t.conn cid).state with
  | free => rfl
  | listen => exact val_tcpListenLogged un cid seg ipRx t sh
  | synRcvd => rfl
  | established => exact val_tcpEstablishedLogged un cid seg payload t sh
  | lastAck => rfl

theorem val_tcpReceiveLogged (un : Uninit) (ipRx : IpRx) (seg : TcpSeg) (frameBuf : Mem U32)
    (t : TcpState) (sh : Shared) :
    (tcpReceiveLogged un ipRx seg frameBuf t sh).val = tcpReceive un ipRx seg frameBuf t sh := by
  unfold tcpReceiveLogged tcpReceive
  rw [val_bind, val_bind, val_tcpPayloadLogged, val_tcpFindLogged]
  cases tcpFind t seg.sp ipRx.srcIp with
  | none => rfl
  | some cid =>
      dsimp only
      rw [val_bind, val_bind, val_tcpOpenSlotLogged, val_load]
      -- the slot, opened or not, is the same on both sides
      generalize (if (t.conn cid).state = .free ∧ seg.opens = true then
        t.setConn cid (tcpOpen cid seg frameBuf (t.conn cid)) else t) = t₁
      split
      · rfl
      · rw [val_bind, val_store, val_tcpSwitchLogged]
        rfl

/-- The reset loop over the slots. -/
theorem val_freeLoop (conn : Mem TcpConn) :
    (loop (fun i conn => do
        let c ← load TcpArr.tcpConn conn i
        store .tcpConn conn i { c with state := .free }) (List.range maxTcpConn) conn).val
      = fun i => if i < maxTcpConn then { conn i with state := .free } else conn i := by
  funext i
  -- three slots are written, and nothing behind them
  match i with
  | 0 => rfl
  | 1 => rfl
  | 2 => rfl
  | _ + 3 => rfl

/-- **The logged reception is `tcp_rx_process`.** -/
theorem val_tcpRxProcessLogged (un : Uninit) (rst : Bool) (ipRx : IpRx) (frameBuf : Mem U32)
    (t : TcpState) (sh : Shared) :
    (tcpRxProcessLogged un rst ipRx frameBuf t sh).val
      = tcpRxProcess un rst ipRx frameBuf t sh := by
  unfold tcpRxProcessLogged tcpRxProcess
  split
  · rw [val_bind, val_freeLoop]
    rfl
  · split
    · rw [val_bind, val_loop, val_pure]
      simp only [val_tcpScanOneLogged]
    · rw [val_bind]
      dsimp only
      split
      · rfl
      · exact val_tcpReceiveLogged un ipRx _ frameBuf t sh

theorem val_tcpMachineLogged (t : TcpState) (e : TcpEvent) :
    (tcpMachineLogged t e).val = tcpMachine t e := by
  cases e with
  | segment un rst ipRx frameBuf sh => exact val_tcpRxProcessLogged un rst ipRx frameBuf t sh
  | maintenance un sh => exact val_tcpMaintenanceLogged un t sh

end GigabitTcp
