/-
  GigabitTcp.LayerDhcp — the DHCP client of `layer_dhcp.cpp`.
-/
import GigabitTcp.LayerUdp

namespace GigabitTcp

open Hw

/-- `DHCP_BUF_WORDS`. -/
def dhcpBufWords : Nat := 75
/-- `DHCP_BUF_BASE`: the message follows the IP and UDP headers. -/
def dhcpBufBase : Nat := dhcpFrameBase + 7

/-- The client state that `udp_echo` owns and passes by reference, and `retry_cnt`. -/
structure DhcpClient where
  state : DhcpState := .idle
  xid : U32 := 0
  offeredIp : U32 := 0
  serverIp : U32 := 0
  timer : U32 := 0
  /-- `dhcp_start`; `dhcp_rx_process` receives it as its `dhcp_done` argument. -/
  start : Bool := false
  retryCnt : U32 := 0
  deriving Repr, DecidableEq

/-! ## §1. Message bytes and options. -/

/-- `dhcp_write_byte`. -/
def dhcpWriteByte (buf : Mem U32) (byteOff : Nat) (val : U8) : Mem U32 :=
  let wi := dhcpBufBase + byteOff / 4
  let sh := (3 - byteOff % 4) * 8
  buf.set wi ((buf wi &&& ~~~(0xFF#32 <<< sh)) ||| (val.setWidth 32 <<< sh))

/-- `dhcp_read_byte`. -/
def dhcpReadByte (buf : Mem U32) (base byteOff : Nat) : U8 := buf.byteAt base byteOff

/-- `dhcp_write_opt`: the buffer and the offset behind the option. -/
def dhcpWriteOpt (buf : Mem U32) (off : Nat) (code len : U8) (d : List U8) : Mem U32 × Nat :=
  let buf := dhcpWriteByte buf off code
  let buf := dhcpWriteByte buf (off + 1) len
  (d.take len.toNat).foldl (fun (b : Mem U32 × Nat) v => (dhcpWriteByte b.1 b.2 v, b.2 + 1))
    (buf, off + 2)

/-- The option scan of `dhcp_read_opt` from offset `off`; every round moves `off` on, so
`fuel = msg_bytes` never runs out. -/
def dhcpScanOpt (buf : Mem U32) (base msgBytes : Nat) (target : U8) : Nat → Nat → List U8
  | 0, _ => []
  | fuel + 1, off =>
      if off + 1 < msgBytes then
        let c := dhcpReadByte buf base off
        if c = 255 then []
        else if c = 0 then dhcpScanOpt buf base msgBytes target fuel (off + 1)
        else
          let l := dhcpReadByte buf base (off + 1)
          if c = target ∧ l ≤ 4 then
            (List.range l.toNat).map (fun i => dhcpReadByte buf base (off + 2 + i))
          else dhcpScanOpt buf base msgBytes target fuel (off + 2 + l.toNat)
      else []

/-- `dhcp_read_opt`: the bytes stored to `out`; their number is the returned length. -/
def dhcpReadOpt (buf : Mem U32) (base msgBytes : Nat) (target : U8) : List U8 :=
  dhcpScanOpt buf base msgBytes target msgBytes 240

/-! ## §2. Reception. -/

/-- `dhcp_rx_process`. -/
def dhcpRxProcess (resetN : Bool) (un : Uninit) (udpRx : UdpRx) (frameBuf : Mem U32)
    (d : DhcpClient) : DhcpClient :=
  if !resetN || !udpRx.valid || udpRx.dstPort != dhcpClientPort then d
  else
    let msgBytes := udpRx.payloadLen.toNat
    let msgType := (dhcpReadOpt frameBuf 7 msgBytes 53).getD 0 0
    if d.state = .waitOffer ∧ msgType = dhcpMsgOffer then
      let srv := dhcpReadOpt frameBuf 7 msgBytes 54
      let b := putBytes un.srv 0 srv
      { d with
        offeredIp := frameBuf 11
        serverIp := if srv = [] then d.serverIp else packWord (b 0) (b 1) (b 2) (b 3)
        state := .request }
    else if d.state = .waitAck ∧ msgType = dhcpMsgAck then
      { d with start := true, state := .done }
    else d

/-! ## §3. Transmission. -/

/-- `dhcp_build_header`. -/
def dhcpBuildHeader (buf : Mem U32) (op : U8) (xid ciaddr : U32) : Mem U32 :=
  let buf := buf.fill dhcpBufBase dhcpBufWords (fun _ => 0)
  let buf := buf.set dhcpBufBase (packWord op dhcpHtypeEth dhcpHlen 0)
  let buf := buf.set (dhcpBufBase + 1) xid
  let buf := buf.set (dhcpBufBase + 2) (dhcpFlagBroadcast <<< 16)
  let buf := buf.set (dhcpBufBase + 3) ciaddr
  let chaddr := fun i => boardMacBytes.getD i 0
  let buf := buf.set (dhcpBufBase + 7) (packWord (chaddr 0) (chaddr 1) (chaddr 2) (chaddr 3))
  let buf := buf.set (dhcpBufBase + 8) (packWord (chaddr 4) (chaddr 5) 0 0)
  buf.set (dhcpBufBase + 59) dhcpMagicCookie

/-- `dhcp_build_headers`: IPv4 and UDP headers in front of the message. -/
def dhcpBuildHeaders (buf : Mem U32) (udpLen : U16) (srcIp dstIp : U32) : Mem U32 :=
  let ip := ipHeader (ipHeaderBytes + udpLen) 0 64 ipProtoUdp (wordBytes 4 srcIp)
    (wordBytes 4 dstIp)
  let udp := fun i => List.getD [hi8 dhcpClientPort, lo8 dhcpClientPort, hi8 dhcpServerPort,
    lo8 dhcpServerPort, hi8 udpLen, lo8 udpLen, 0, 0] i 0
  (buf.fill dhcpFrameBase 5 (Mem.wordOf ip)).fill (dhcpFrameBase + 5) 2 (Mem.wordOf udp)

/-- Write a list of options from offset 240 on, then the end option (code 255, length 0). -/
def dhcpWriteOpts (buf : Mem U32) (opts : List (U8 × U8 × List U8)) : Mem U32 :=
  let r := opts.foldl (fun (b : Mem U32 × Nat) o => dhcpWriteOpt b.1 b.2 o.1 o.2.1 o.2.2)
    (buf, 240)
  (dhcpWriteOpt r.1 r.2 255 0 []).1

/-- A whole DHCP frame with the given options, requested for broadcast. -/
def dhcpSend (sh : Shared) (xid : U32) (opts : List (U8 × U8 × List U8)) : Shared :=
  let buf := dhcpWriteOpts (dhcpBuildHeader sh.buffer dhcpOpRequest xid 0) opts
  let buf := dhcpBuildHeaders buf (udpHeaderBytes + dhcpMsgSize) 0 broadcastIp
  { sh with buffer := buf }.issue broadcastMac ethertypeIpv4 dhcpFrameBase
    (ipHeaderBytes + udpHeaderBytes + dhcpMsgSize)

def dhcpDiscoverOpts : List (U8 × U8 × List U8) :=
  [(53, 1, [dhcpMsgDiscover, 0, 0, 0]), (55, 4, [1, 3, 6, 15])]

def dhcpRequestOpts (offeredIp serverIp : U32) : List (U8 × U8 × List U8) :=
  [(53, 1, [dhcpMsgRequest, 0, 0, 0]), (50, 4, wordBytes 4 offeredIp),
    (54, 4, wordBytes 4 serverIp)]

/-- The timer tick and the start trigger at the top of `dhcp_tx_process`. -/
def dhcpTick (d : DhcpClient) : DhcpClient :=
  let d := if d.state ≠ .idle ∧ d.state ≠ .done ∧ d.state ≠ .failed then
    { d with timer := d.timer + 1 } else d
  if d.start ∧ d.state = .idle then
    { d with state := .discover, timer := 0, retryCnt := 0, xid := 0x12345678 }
  else d

/-- The timeout branch: retry from the phase that got no answer, or give up. -/
def dhcpRetry (d : DhcpClient) : DhcpClient :=
  if d.retryCnt < 3 then
    { d with
      retryCnt := d.retryCnt + 1
      state := if d.state = .waitOffer then .discover else .request
      timer := 0 }
  else { d with state := .failed, retryCnt := 0 }

/-- `dhcp_tx_process`. -/
def dhcpTxProcess (resetN : Bool) (d : DhcpClient) (sh : Shared) : DhcpClient × Shared :=
  if !resetN then
    ({ d with state := .idle, xid := 0x12345678, offeredIp := 0, serverIp := 0, timer := 0,
              retryCnt := 0 }, sh)
  else
    let d := dhcpTick d
    if dhcpTimeout ≤ d.timer ∧ (d.state = .waitOffer ∨ d.state = .waitAck) then
      (dhcpRetry d, sh)
    else if d.state = .discover then
      ({ d with state := .waitOffer, timer := 0 }, dhcpSend sh d.xid dhcpDiscoverOpts)
    else if d.state = .request then
      ({ d with state := .waitAck, timer := 0 },
        dhcpSend sh d.xid (dhcpRequestOpts d.offeredIp d.serverIp))
    else (d, sh)

end GigabitTcp
