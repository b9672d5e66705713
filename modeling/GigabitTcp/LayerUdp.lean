/-
  GigabitTcp.LayerUdp — UDP reception and transmission (`layer_udp.cpp`).
-/
import GigabitTcp.LayerIp

namespace GigabitTcp

open Hw

/-- 8080. -/
def udpPort : U16 := 0x1F90

/-! ## §1. Reception. -/

/-- The header fields `udp_rx_process` reads before its port filter. -/
def udpFields (frameBuf : Mem U32) : UdpRx :=
  let b := frameBuf.byteAt 5
  { srcPort := be16 (b 0) (b 1)
    dstPort := be16 (b 2) (b 3)
    length := be16 (b 4) (b 5)
    checksum := be16 (b 6) (b 7) }

/-- `udp_rx_process`. -/
def udpRxProcess (resetN : Bool) (ipRx : IpRx) (frameBuf : Mem U32) : UdpRx :=
  if !resetN then {}
  else if !ipRx.valid then {}
  else if ipRx.protocol ≠ ipProtoUdp then {}
  else
    let f := udpFields frameBuf
    -- the fields are handed out, but not as valid
    if f.dstPort ≠ udpPort then f
    else { f with payloadLen := f.length - udpHeaderBytes, bufBase := ipRx.bufBase, valid := true }

/-! ## §2. Transmission. -/

/-- The statics of `udp_tx_process`. -/
structure UdpTx where
  timeCnt : U32 := 0
  txDataLen : U16 := defaultUdpLength
  txTotal : U16 := defaultIpTotalLen
  txIpId : U32 := 0
  arpPending : Bool := false
  pendingIp : U32 := 0
  deriving Repr, DecidableEq

/-- The request captured by `udp_echo`. -/
structure UdpRequest where
  dataReceived : Bool := false
  rxUdpLen : U16 := 0
  rxIpLen : U16 := 0
  rxSrcPort : U16 := 0
  rxSrcIp : U32 := 0
  deriving Repr, DecidableEq

/-- The fixed destination of the periodic frame, 192.168.100.1. -/
def helloIp : U32 := 0xC0A86401

/-- `"HELLO       PERFXLAB"`. -/
def helloWords : List U32 := [0x48454C4C, 0x4F202020, 0x20202020, 0x50455246, 0x584C4142]

/-- Write the default payload behind the UDP header. -/
def writeHello (buffer : Mem U32) : Mem U32 :=
  buffer.fill (txUdpBase + 7) 5 (fun i => helloWords.getD i 0)

/-- Which frame `udp_tx_process` wants to send this pass, and the statics after the pacing
tick: an echo takes precedence over the periodic frame. -/
def udpTxArbitrate (pacing : U32) (u : UdpTx) (rq : UdpRequest) : Bool × UdpTx :=
  let u := if rq.dataReceived then { u with txDataLen := rq.rxUdpLen, txTotal := rq.rxIpLen } else u
  let u := { u with timeCnt := u.timeCnt + 1 }
  if pacing ≤ u.timeCnt then
    let u := { u with timeCnt := 0, txIpId := u.txIpId + 1 }
    if rq.dataReceived then (true, u)
    else (true, { u with txDataLen := defaultUdpLength, txTotal := defaultIpTotalLen })
  else (rq.dataReceived, u)

/-- MAC resolution: an unknown destination of the periodic frame is asked for once. -/
def udpTxResolve (u : UdpTx) (echoSent : Bool) (dstIp : U32) (sh : Shared) : U48 × UdpTx × Shared :=
  match arpLookup sh.arp dstIp with
  | (some mac, arp) => (mac, { u with arpPending := false }, { sh with arp })
  | (none, arp) =>
      let sh := { sh with arp }
      if !echoSent && !u.arpPending then
        (broadcastMac, { u with arpPending := true, pendingIp := dstIp }, arpSendRequest sh dstIp)
      else (broadcastMac, u, sh)

/-- The 28 header bytes of a UDP frame. -/
def udpTxHeader (u : UdpTx) (dstIp : U32) (dstPort : U16) : Nat → U8 :=
  let hdr := ipHeader u.txTotal (u.txIpId.setWidth 16) 128 ipProtoUdp boardIpBytes
    (wordBytes 4 dstIp)
  putBytes hdr 20
    [hi8 udpPort, lo8 udpPort, hi8 dstPort, lo8 dstPort, hi8 u.txDataLen, lo8 u.txDataLen, 0, 0]

/-- The first 20 bytes are an IP header. -/
theorem udpTxHeader_ip (u : UdpTx) (dstIp : U32) (dstPort : U16) {k : Nat} (hk : k < 20) :
    udpTxHeader u dstIp dstPort k
      = ipHeader u.txTotal (u.txIpId.setWidth 16) 128 ipProtoUdp boardIpBytes (wordBytes 4 dstIp) k :=
  putBytes_outside _ _ (by simp; omega)

/-- The UDP header stands behind it. -/
theorem udpTxHeader_udp (u : UdpTx) (dstIp : U32) (dstPort : U16) {k : Nat} (hk : k < 8) :
    udpTxHeader u dstIp dstPort (20 + k) = [hi8 udpPort, lo8 udpPort, hi8 dstPort, lo8 dstPort,
      hi8 u.txDataLen, lo8 u.txDataLen, 0, 0].getD k 0 := by
  unfold udpTxHeader
  rw [putBytes_inside _ _ (by simp; omega), Nat.add_sub_cancel_left]

/-- `udp_tx_process`; `pacing` is `TX_PACING_COUNT` of the build. -/
def udpTxProcess (pacing : U32) (resetN : Bool) (rq : UdpRequest) (u : UdpTx) (sh : Shared) :
    UdpTx × Shared :=
  if !resetN then ({}, sh)
  else
    let (wantSend, u) := udpTxArbitrate pacing u rq
    if !wantSend then (u, sh)
    else
      let echoSent := rq.dataReceived
      let dstPort := if echoSent then rq.rxSrcPort else udpPort
      let dstIp := if echoSent then rq.rxSrcIp else helloIp
      let (dstMac, u, sh) := udpTxResolve u echoSent dstIp sh
      let buffer := sh.buffer.fill txUdpBase 7 (Mem.wordOf (udpTxHeader u dstIp dstPort))
      let buffer := if echoSent then buffer else writeHello buffer
      let sh := { sh with buffer }.issue dstMac ethertypeIpv4 txUdpBase (ipHeaderBytes + u.txDataLen)
      if echoSent then
        ({ u with txDataLen := defaultUdpLength, txTotal := defaultIpTotalLen }, sh)
      else (u, sh)

end GigabitTcp
