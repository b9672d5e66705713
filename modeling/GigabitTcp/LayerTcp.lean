/-
  GigabitTcp.LayerTcp — the TCP echo server of `layer_tcp.cpp`.

  Three connection slots, one retransmission buffer and one echo buffer for each slot, and
  one global queue descriptor (`qLen`, `qOff`, `qCid`) over the echo buffers.  A slot index
  is a natural number; `tcpFind` returns `none` where the source returns -1.
-/
import GigabitTcp.LayerIp

namespace GigabitTcp

open Hw

/-! ## §1. Constants and state. -/

def maxTcpConn : Nat := 3
def tcpPortEcho : U16 := 7
def tcpMss : U32 := 460
/-- `TCP_TX_CHUNK`. -/
def tcpTxChunk : U16 := 536
/-- `TCP_RX_PAYLOAD`, also `TCP_SEND_BUF`. -/
def tcpRxPayload : U16 := 576
def tcpRtoMin : U32 := 10000000
def tcpRtoMax : U32 := 80000000
def tcpHeaderBytes : U16 := 20
def tcpMaxHdr : U16 := 28

def tcpFin : U8 := 0x01
def tcpSyn : U8 := 0x02
def tcpAck : U8 := 0x10

/-- `flags & f`. -/
def hasFlag (flags f : U8) : Bool := flags &&& f != 0

inductive TcpSt where
  | free | listen | synRcvd | established | lastAck
  deriving Repr, DecidableEq

/-- `tcp_conn_t`. -/
structure TcpConn where
  state : TcpSt := .free
  peerPort : U16 := 0
  peerIp : U32 := 0
  peerWindow : U32 := 0
  peerMss : U16 := 0
  peerWscale : U8 := 0
  ourWscale : U8 := 0
  seq : U32 := 0
  peerSeq : U32 := 0
  lastAckRecv : U32 := 0
  dupAckCnt : U8 := 0
  cwnd : U32 := 0
  ssthresh : U32 := 0
  flightSize : U32 := 0
  srtt : U32 := 0
  rttvar : U32 := 0
  rto : U32 := 0
  rtoTimer : U32 := 0
  rttSeq : U32 := 0
  rttStart : U32 := 0
  retransLen : U16 := 0
  retransFlags : U8 := 0
  retransPending : Bool := false
  deriving Repr, DecidableEq

/-- The statics of `layer_tcp.cpp`. -/
structure TcpState where
  conn : Mem TcpConn := fun _ => {}
  retransBuf : Nat → Mem U8 := fun _ _ => 0
  sendBufs : Nat → Mem U8 := fun _ _ => 0
  retransDue : Bool := false
  retransCid : Nat := 0
  /-- Bytes queued: `sendBufs qCid [0, qLen)`. -/
  qLen : U16 := 0
  /-- Next byte to send. -/
  qOff : U16 := 0
  /-- The connection owning the queue. -/
  qCid : Nat := 0

/-- Replace the record of slot `cid`. -/
def TcpState.setConn (t : TcpState) (cid : Nat) (c : TcpConn) : TcpState :=
  { t with conn := t.conn.set cid c }

/-- `tcp_find`: the slot of a live connection, else the first free slot. -/
def tcpFind (t : TcpState) (port : U16) (ip : U32) : Option Nat :=
  go (List.range maxTcpConn) none
where
  go : List Nat → Option Nat → Option Nat
    | [], free => free
    | i :: is, free =>
        if (t.conn i).state ≠ .free ∧ (t.conn i).peerPort = port ∧ (t.conn i).peerIp = ip then
          some i
        else if (t.conn i).state = .free ∧ free = none then go is (some i)
        else go is free

/-! ## §2. Segment construction. -/

/-- `tcp_csum`: pseudo header and segment. -/
def tcpCsum (sip dip : U32) (seg : Nat → U8) (len : U16) : U16 :=
  let s : U32 := 6 + len.setWidth 32
  let s := s + (sip >>> 16) + (sip &&& 0xFFFF) + (dip >>> 16) + (dip &&& 0xFFFF)
  byteChecksum s seg len.toNat

/-- `tcp_build_hdr`. -/
def tcpBuildHdr (b : Nat → U8) (sp dp : U16) (seq ack : U32) (f : U8) (w : U16) (syn : Bool) :
    Nat → U8 :=
  let doff : U8 := if syn then 7 else 5
  let b := putBytes b 0 ([hi8 sp, lo8 sp, hi8 dp, lo8 dp] ++ wordBytes 4 seq ++ wordBytes 4 ack
    ++ [doff <<< 4, f, hi8 w, lo8 w, 0, 0, 0, 0])
  -- MSS, window scale 7, NOP
  if syn then putBytes b 20 [2, 4, hi8 460, lo8 460, 3, 3, 7, 1] else b

/-- `total`: header and payload bytes of a segment. -/
def tcpTotal (flags : U8) (payLen : U16) : U16 :=
  (if hasFlag flags tcpSyn then tcpMaxHdr else tcpHeaderBytes) + payLen

/-- The sequence numbers a segment consumes. -/
def tcpSeqInc (flags : U8) (payLen : U16) : U32 :=
  (if hasFlag flags tcpSyn then 1 else 0) + (if hasFlag flags tcpFin then 1 else 0)
    + payLen.setWidth 32

/-- `seg[]` of `tcp_send`: header, payload and checksum. -/
def tcpSegment (un : Uninit) (c : TcpConn) (flags : U8) (payload : Option (Nat → U8))
    (payLen : U16) : Nat → U8 :=
  let syn := hasFlag flags tcpSyn
  let seg := tcpBuildHdr un.seg tcpPortEcho c.peerPort c.seq c.peerSeq flags 0xFFFF syn
  let seg := match payload with
    | some p => fun i => if 20 ≤ i ∧ i < 20 + payLen.toNat then p (i - 20) else seg i
    | none => seg
  let cs := tcpCsum boardIp c.peerIp seg (tcpTotal flags payLen)
  putBytes seg 16 [hi8 cs, lo8 cs]

/-- The sequence, retransmission and RTT bookkeeping of `tcp_send`. -/
def tcpSendConn (c : TcpConn) (flags : U8) (payLen : U16) : TcpConn :=
  let c : TcpConn :=
    if 0 < payLen ∨ hasFlag flags (tcpSyn ||| tcpFin) then
      { c with seq := c.seq + tcpSeqInc flags payLen,
               flightSize := c.flightSize + tcpSeqInc flags payLen }
    else c
  let c : TcpConn :=
    if hasFlag flags tcpSyn then
      { c with retransFlags := flags, retransLen := 0, retransPending := true, rtoTimer := 0 }
    else if 0 < payLen then
      { c with retransFlags := flags, retransLen := payLen, retransPending := true, rtoTimer := 0 }
    else c
  if 0 < payLen ∧ c.rttSeq = 0 then
    { c with rttSeq := c.seq - payLen.setWidth 32, rttStart := 0 }
  else c

/-- The copy to `tcp_retrans_buf` of `tcp_send`. -/
def tcpSaveRetrans (t : TcpState) (cid : Nat) (flags : U8) (payload : Option (Nat → U8))
    (payLen : U16) : TcpState :=
  -- a SYN is repeated from the record, so its slot needs no copy
  if hasFlag flags tcpSyn then t
  else
    match payload with
    | some p =>
        { t with retransBuf := fun i =>
            if i = cid then (t.retransBuf i).fill 0 payLen.toNat p else t.retransBuf i }
    | none => t

/-- The frame `tcp_send` writes: IP header at `TX_UDP_BASE`, the segment behind it. -/
def tcpWriteFrame (un : Uninit) (c : TcpConn) (flags : U8) (payload : Option (Nat → U8))
    (payLen : U16) (buffer : Mem U32) : Mem U32 :=
  let total := tcpTotal flags payLen
  let hdr := ipHeader (20 + total) 0 128 ipProtoTcp boardIpBytes (wordBytes 4 c.peerIp)
  (buffer.fill txUdpBase 5 (Mem.wordOf hdr)).fill (txUdpBase + 5) ((total.toNat + 3) / 4)
    (Mem.wordOf (tcpSegment un c flags payload payLen))

/-- `tcp_send`. -/
def tcpSend (un : Uninit) (cid : Nat) (flags : U8) (payload : Option (Nat → U8)) (payLen : U16)
    (t : TcpState) (sh : Shared) : TcpState × Shared :=
  if maxTcpConn ≤ cid then (t, sh)
  else
    let c := t.conn cid
    let buffer := tcpWriteFrame un c flags payload payLen sh.buffer
    let t := tcpSaveRetrans t cid flags payload payLen
    let t := t.setConn cid (tcpSendConn c flags payLen)
    let (mac, sh) := replyMac { sh with buffer } c.peerIp
    (t, sh.issue mac ethertypeIpv4 txUdpBase (20 + tcpTotal flags payLen))

/-! ## §3. The echo queue. -/

/-- The queue is drained: everything queued has been sent. -/
def TcpState.qDrained (t : TcpState) : Bool := t.qLen == t.qOff

/-- The restart of a drained queue for a new owner. -/
def tcpQueueRestart (t : TcpState) (cid : Nat) : TcpState :=
  if t.qDrained then { t with qLen := 0, qOff := 0, qCid := cid } else t

/-- `room`: how many of `payLen` bytes fit behind the `qLen` bytes already queued. -/
def tcpQueueRoom (t : TcpState) (payLen : U16) : U16 :=
  let room := tcpRxPayload - t.qLen
  if payLen < room then payLen else room

/-- `tcp_queue`. -/
def tcpQueue (cid : Nat) (payload : Nat → U8) (payLen : U16) (t : TcpState) : TcpState :=
  if maxTcpConn ≤ cid ∨ payLen = 0 then t
  else
    let t := tcpQueueRestart t cid
    let room := tcpQueueRoom t payLen
    { t with
      sendBufs := fun i =>
        if i = cid then (t.sendBufs i).fill t.qLen.toNat room.toNat payload else t.sendBufs i
      qLen := t.qLen + room }

/-- The retransmission branch of `tcp_maintenance`. -/
def tcpRetransmit (un : Uninit) (t : TcpState) (sh : Shared) : TcpState × Shared :=
  let i := t.retransCid
  let c := t.conn i
  let r :=
    match c.state with
    -- SYN+ACK, data and FIN are repeated, nothing else
    | .synRcvd => tcpSend un i (tcpSyn ||| tcpAck) none 0 t sh
    | .established =>
        if 0 < c.retransLen then tcpSend un i tcpAck (some (t.retransBuf i)) c.retransLen t sh
        else (t, sh)
    | .lastAck => tcpSend un i (tcpFin ||| tcpAck) none 0 t sh
    | _ => (t, sh)
  ({ r.1 with retransDue := false }, r.2)

/-- `chunk`: what one pass sends of the queued bytes. -/
def tcpChunk (t : TcpState) : U16 :=
  let rem := t.qLen - t.qOff
  if tcpTxChunk < rem then tcpTxChunk else rem

/-- The queue branch of `tcp_maintenance`: one chunk to the owner. -/
def tcpFlush (un : Uninit) (t : TcpState) (sh : Shared) : TcpState × Shared :=
  let chunk := tcpChunk t
  let payload := fun i => t.sendBufs t.qCid (t.qOff.toNat + i)
  let r := tcpSend un t.qCid tcpAck (some payload) chunk t sh
  let qOff := r.1.qOff + chunk
  -- sent to the end: the buffer is used from its start again
  if r.1.qLen ≤ qOff then ({ r.1 with qLen := 0, qOff := 0 }, r.2)
  else ({ r.1 with qOff }, r.2)

/-- `tcp_maintenance`. -/
def tcpMaintenance (un : Uninit) (t : TcpState) (sh : Shared) : TcpState × Shared :=
  -- a retransmission goes before the queue, and both need an idle mailbox
  if t.retransDue ∧ ¬ sh.txReq.request then tcpRetransmit un t sh
  else if t.qOff < t.qLen ∧ ¬ sh.txReq.request then tcpFlush un t sh
  else (t, sh)

/-! ## §4. Congestion control and timers. -/

/-- The slow-start threshold after a loss: half the flight, at least two segments. -/
def tcpHalfFlight (c : TcpConn) : U32 :=
  if 2 * tcpMss < c.flightSize / 2 then c.flightSize / 2 else 2 * tcpMss

/-- `tcp_reno_on_ack`. -/
def tcpRenoOnAck (c : TcpConn) (newAck : U32) : TcpConn :=
  let bytesAcked := newAck - c.lastAckRecv
  if bytesAcked = 0 then
    -- a duplicate ACK; the third one in a row is a fast retransmit
    let c := { c with dupAckCnt := c.dupAckCnt + 1 }
    if c.dupAckCnt = 3 then
      { c with dupAckCnt := 0, ssthresh := tcpHalfFlight c, cwnd := tcpHalfFlight c + 3 * tcpMss,
               retransPending := true, rtoTimer := 0 }
    else if 3 < c.dupAckCnt then { c with cwnd := c.cwnd + tcpMss }
    else c
  else
    let c := { c with
      dupAckCnt := 0
      flightSize := if bytesAcked ≤ c.flightSize then c.flightSize - bytesAcked else 0
      lastAckRecv := newAck }
    -- slow start below the threshold, congestion avoidance above
    if c.cwnd < c.ssthresh then
      let cwnd := c.cwnd + tcpMss
      { c with cwnd := if c.ssthresh < cwnd then c.ssthresh else cwnd }
    else { c with cwnd := c.cwnd + tcpMss * tcpMss / c.cwnd }

/-- `tcp_update_rto`. -/
def tcpUpdateRto (c : TcpConn) (rttSample : U32) : TcpConn :=
  let c : TcpConn :=
    if c.srtt = 0 then { c with srtt := rttSample <<< 3, rttvar := rttSample <<< 1 }
    else
      let delta := rttSample - (c.srtt >>> 3)
      let delta := if delta.msb then -delta else delta
      { c with rttvar := (c.rttvar * c.srtt + delta * 3) / 4
               srtt := c.srtt - (c.srtt >>> 3) + rttSample }
  let rto := (c.srtt >>> 3) + (c.rttvar <<< 1)
  let rto := if rto < tcpRtoMin then tcpRtoMin else rto
  { c with rto := if tcpRtoMax < rto then tcpRtoMax else rto }

/-- One connection in the retransmission scan. -/
def tcpScanOne (t : TcpState) (i : Nat) : TcpState :=
  let c := t.conn i
  if c.retransPending then
    let c := { c with rtoTimer := c.rtoTimer + 1 }
    -- timeout: back off, and close the window to one segment
    if c.rto ≤ c.rtoTimer then
      let rto := c.rto * 2
      let c := { c with
        rtoTimer := 0, rto := if tcpRtoMax < rto then tcpRtoMax else rto
        ssthresh := tcpHalfFlight c, cwnd := tcpMss, flightSize := 0, dupAckCnt := 0 }
      { t.setConn i c with retransDue := true, retransCid := i }
    else t.setConn i c
  else t

/-! ## §5. Reception. -/

/-- The header fields `tcp_rx_process` reads, and the two derived lengths. -/
structure TcpSeg where
  sp : U16
  dp : U16
  seq : U32
  ack : U32
  doff : U8
  flags : U8
  wnd : U16
  plen : U16
  deriving Repr, DecidableEq

def tcpParse (ipRx : IpRx) (frameBuf : Mem U32) : TcpSeg :=
  let th := frameBuf.byteAt 5
  let doff := th 12 >>> 4 &&& 0xF#8
  let tlen := ipRx.totalLen - ipHeaderBytes
  { sp := be16 (th 0) (th 1)
    dp := be16 (th 2) (th 3)
    seq := packWord (th 4) (th 5) (th 6) (th 7)
    ack := packWord (th 8) (th 9) (th 10) (th 11)
    doff
    flags := th 13
    wnd := be16 (th 14) (th 15)
    plen := tlen - doff.setWidth 16 * 4 }

/-- The local `payload[]`: filled from the frame if the length fits, else left as it was. -/
def tcpPayload (un : Uninit) (frameBuf : Mem U32) (seg : TcpSeg) : Nat → U8 :=
  fun i =>
    if 0 < seg.plen ∧ seg.plen ≤ tcpRxPayload ∧ i < seg.plen.toNat then
      frameBuf.byteAt (5 + seg.doff.toNat) i
    else un.payload i

/-- The option loop over the SYN, `o` from 0; every round moves `o` on by at least one, so
`fuel = opt_end` never runs out. -/
def tcpOptLoop (frameBuf : Mem U32) (optEnd : Nat) : Nat → Nat → TcpConn → TcpConn
  | 0, _, c => c
  | fuel + 1, o, c =>
      if o + 1 < optEnd then
        let opt := frameBuf.byteAt 10
        let k := opt o
        -- end of the options, padding, then options with a length
        if k = 0 then c
        else if k = 1 then tcpOptLoop frameBuf optEnd fuel (o + 1) c
        else
          let ln := opt (o + 1)
          if ln < 2 then c
          else
            let c :=
              if k = 2 ∧ 4 ≤ ln then { c with peerMss := be16 (opt (o + 2)) (opt (o + 3)) }
              else if k = 3 ∧ 3 ≤ ln then
                { c with peerWscale := if opt (o + 2) ≤ 7 then opt (o + 2) else 0 }
              else c
            tcpOptLoop frameBuf optEnd fuel (o + ln.toNat) c
      else c

/-- The initialisation of a free slot that receives a SYN. -/
def tcpOpen (cid : Nat) (seg : TcpSeg) (frameBuf : Mem U32) (c : TcpConn) : TcpConn :=
  let c := { c with
    state := .listen, cwnd := tcpMss, ssthresh := 65535, srtt := 0, rttvar := 0
    rto := tcpRtoMin, dupAckCnt := 0, seq := 0x12345678#32 ||| (BitVec.ofNat 32 cid <<< 20)
    peerSeq := 0, lastAckRecv := 0, flightSize := 0, peerMss := 460, peerWscale := 0
    ourWscale := 7 }
  let optEnd := (seg.doff.toNat - 5) * 4
  let c := tcpOptLoop frameBuf optEnd optEnd 0 c
  if c.peerMss < 460 ∧ 0 < c.peerMss then { c with cwnd := c.peerMss.setWidth 32 } else c

/-- A SYN without ACK. -/
def TcpSeg.opens (seg : TcpSeg) : Bool :=
  hasFlag seg.flags tcpSyn && !hasFlag seg.flags tcpAck

/-- The window update and the congestion-control step before the state switch. -/
def tcpOnSegment (c : TcpConn) (seg : TcpSeg) : TcpConn :=
  let wnd := seg.wnd.setWidth 32
  let c := { c with peerWindow := if 0 < seg.wnd then wnd <<< c.peerWscale.toNat else wnd }
  if hasFlag seg.flags tcpAck then tcpRenoOnAck c seg.ack else c

/-- `case T_LISTEN`. -/
def tcpListen (un : Uninit) (cid : Nat) (seg : TcpSeg) (ipRx : IpRx) (t : TcpState) (sh : Shared) :
    TcpState × Shared :=
  if hasFlag seg.flags tcpSyn then
    let c := t.conn cid
    let t := t.setConn cid { c with
      peerSeq := seg.seq + 1, peerIp := ipRx.srcIp, peerPort := seg.sp, state := .synRcvd }
    tcpSend un cid (tcpSyn ||| tcpAck) none 0 t sh
  else (t, sh)

/-- `case T_SYN_RCVD`. -/
def tcpSynRcvd (seg : TcpSeg) (c : TcpConn) : TcpConn :=
  if hasFlag seg.flags tcpAck ∧ seg.ack = c.seq then
    { c with retransPending := false, state := .established, rtoTimer := 0 }
  else c

/-- `c.peer_seq=seq+plen; if(flags&TCP_FIN)c.peer_seq++;` -/
def tcpAdvance (seg : TcpSeg) : U32 :=
  seg.seq + seg.plen.setWidth 32 + (if hasFlag seg.flags tcpFin then 1 else 0)

/-- `case T_ESTABLISHED`. -/
def tcpEstablished (un : Uninit) (cid : Nat) (seg : TcpSeg) (payload : Nat → U8) (t : TcpState)
    (sh : Shared) : TcpState × Shared :=
  let t := t.setConn cid { t.conn cid with peerSeq := tcpAdvance seg }
  let t :=
    if 0 < seg.plen then tcpQueue cid payload seg.plen t
    else if hasFlag seg.flags tcpAck then
      t.setConn cid { t.conn cid with retransPending := false }
    else t
  if hasFlag seg.flags tcpFin then
    let r := tcpSend un cid (tcpFin ||| tcpAck) none 0 t sh
    (r.1.setConn cid { r.1.conn cid with state := .lastAck }, r.2)
  else (t, sh)

/-- `case T_LAST_ACK`. -/
def tcpLastAck (seg : TcpSeg) (c : TcpConn) : TcpConn :=
  if hasFlag seg.flags tcpAck then { c with retransPending := false, state := .free } else c

/-- The state switch of `tcp_rx_process`. -/
def tcpSwitch (un : Uninit) (cid : Nat) (seg : TcpSeg) (payload : Nat → U8) (ipRx : IpRx)
    (t : TcpState) (sh : Shared) : TcpState × Shared :=
  match (t.conn cid).state with
  | .listen => tcpListen un cid seg ipRx t sh
  | .synRcvd => (t.setConn cid (tcpSynRcvd seg (t.conn cid)), sh)
  | .established => tcpEstablished un cid seg payload t sh
  | .lastAck => (t.setConn cid (tcpLastAck seg (t.conn cid)), sh)
  | .free => (t, sh)

/-- A segment to the echo port, from the slot search on. -/
def tcpReceive (un : Uninit) (ipRx : IpRx) (seg : TcpSeg) (frameBuf : Mem U32) (t : TcpState)
    (sh : Shared) : TcpState × Shared :=
  match tcpFind t seg.sp ipRx.srcIp with
  | none => (t, sh)
  | some cid =>
      -- a free slot with a SYN listens for the rest of the call
      let t :=
        if (t.conn cid).state = .free ∧ seg.opens then
          t.setConn cid (tcpOpen cid seg frameBuf (t.conn cid))
        else t
      if (t.conn cid).state = .free then (t, sh)
      else
        let t := t.setConn cid (tcpOnSegment (t.conn cid) seg)
        tcpSwitch un cid seg (tcpPayload un frameBuf seg) ipRx t sh

/-- `tcp_rx_process`. -/
def tcpRxProcess (un : Uninit) (rst : Bool) (ipRx : IpRx) (frameBuf : Mem U32) (t : TcpState)
    (sh : Shared) : TcpState × Shared :=
  -- a reset clears the states only; queue and marks survive
  if !rst then
    ({ t with conn := fun i =>
        if i < maxTcpConn then { t.conn i with state := .free } else t.conn i }, sh)
  else if !ipRx.valid || ipRx.protocol != ipProtoTcp then
    ((List.range maxTcpConn).foldl tcpScanOne t, sh)
  else
    let seg := tcpParse ipRx frameBuf
    if seg.dp ≠ tcpPortEcho then (t, sh) else tcpReceive un ipRx seg frameBuf t sh

end GigabitTcp
