/-
  GigabitTcp.UdpEcho — the top level of `udp_echo.cpp`: one call is one pass.

  A pass runs, in this order: reset or initialisation, MAC RX, MAC TX, staging and dispatch
  of a frame that completes in this pass, DHCP TX, UDP TX, TCP maintenance, statistics.
  Each stage is a definition over `UdpEcho`; `udpEcho` chains them.
-/
import GigabitTcp.LayerMac
import GigabitTcp.LayerIcmp
import GigabitTcp.LayerDhcp
import GigabitTcp.LayerTcp
import GigabitTcp.LayerStats

namespace GigabitTcp

open Hw

/-! ## §1. State, inputs and outputs of a pass. -/

/-- The statics of `udp_echo` and of the layers. -/
structure UdpEcho where
  shared : Shared := {}
  /-- `frame_fifo`, without its depth: the source waits at the 513th word. -/
  frameFifo : List U32 := []
  frameBuf : Mem U32 := fun _ => 0
  macRx : MacRxFsm := {}
  macTx : MacTxFsm := {}
  request : UdpRequest := {}
  udpTx : UdpTx := {}
  initDone : Bool := false
  dhcp : DhcpClient := {}
  dhcpDelay : U32 := 0
  tcp : TcpState := {}
  stats : Stats := {}
  dhcpReported : Bool := false
  lastTx : Bool := false

/-- What a pass sees of its surroundings. -/
structure PassIn where
  resetN : Bool
  /-- The head of `rx_stream`, `none` when it is empty. -/
  rx : Option GmiiByte
  /-- The contents of uninitialised local arrays, with whatever earlier calls left there. -/
  uninit : Uninit
  /-- The room left in `msg_stream`. -/
  msgRoom : Nat

/-- A pass out of reset that reads no byte. -/
def PassIn.quiet : PassIn := { resetN := true, rx := none, uninit := .zero, msgRoom := 0 }

/-- What a pass shows to its surroundings. -/
structure PassOut where
  tx : Option GmiiByte
  msg : List U8
  ledD0 : Bool
  ledD1 : Bool := false
  ledD2 : Bool := false
  ledD3 : Bool := false
  deriving Repr, DecidableEq

/-! ## §2. The stages of a pass. -/

/-- The reset branch, or the one-time initialisation and the DHCP start delay. -/
def UdpEcho.resetOrInit (s : UdpEcho) (resetN : Bool) : UdpEcho :=
  if !resetN then
    { s with
      shared.txReq.request := false, request := {}, initDone := false
      dhcp := { retryCnt := s.dhcp.retryCnt }, dhcpDelay := 0 }
  else
    let s :=
      if !s.initDone then
        { s with shared.buffer := writeHello s.shared.buffer, initDone := true }
      else s
    -- the client starts after 100000000 passes
    if !s.dhcp.start && s.dhcp.state = .idle then
      let delay := s.dhcpDelay + 1
      if 100000000 < delay then { s with dhcp.start := true, dhcpDelay := 0 }
      else { s with dhcpDelay := delay }
    else s

/-- MAC RX: the pass's frame metadata, with the accepted words in `frame_fifo`. -/
def UdpEcho.runMacRx (s : UdpEcho) (i : PassIn) : UdpEcho × MacRx :=
  let r := macRxProcess s.macRx i.resetN i.rx
  ({ s with macRx := r.1, frameFifo := s.frameFifo ++ r.2.frameWords }, r.2.rx)

/-- MAC TX: the byte sent in this pass and `mac_tx_busy`. -/
def UdpEcho.runMacTx (s : UdpEcho) (resetN : Bool) : UdpEcho × Option GmiiByte × Bool :=
  let r := macTxProcess s.macTx resetN s.shared.txReq s.shared.buffer
  ({ s with macTx := r.1, shared.txReq := r.2.txReq }, r.2.byte, r.2.busy)

/-- Pop `nwords` words: the first 400 go to `frame_buf`, the others are drained. -/
def UdpEcho.stage (s : UdpEcho) (nwords : Nat) : UdpEcho :=
  let n := min nwords frameBufWords
  { s with
    frameBuf := s.frameBuf.fill 0 n (fun i => s.frameFifo.getD i 0)
    frameFifo := s.frameFifo.drop nwords }

/-- The words a UDP payload copy moves. -/
def udpCopyWords (udpRx : UdpRx) : Nat := (udpRx.payloadLen.toNat + 3) / 4

/-- Capture of a UDP request: the payload goes behind the header place in the TX region. -/
def UdpEcho.captureUdp (s : UdpEcho) (ipRx : IpRx) (udpRx : UdpRx) : UdpEcho :=
  { s with
    shared.buffer := s.shared.buffer.fill (txUdpBase + 7) (udpCopyWords udpRx)
      (fun i => s.frameBuf (7 + i))
    request :=
      { dataReceived := true, rxUdpLen := udpRx.length, rxIpLen := ipRx.totalLen
        rxSrcPort := udpRx.srcPort, rxSrcIp := ipRx.srcIp } }

/-- The UDP branch of the dispatch: DHCP port first, then the echo capture. -/
def UdpEcho.receiveUdp (s : UdpEcho) (i : PassIn) (ipRx : IpRx) : UdpEcho :=
  let udpRx := udpRxProcess i.resetN ipRx s.frameBuf
  if udpRx.valid then
    -- the port filter has let 8080 through only
    if udpRx.dstPort = dhcpClientPort then
      { s with dhcp := dhcpRxProcess i.resetN i.uninit udpRx s.frameBuf s.dhcp }
    else s.captureUdp ipRx udpRx
  else s

/-- The IPv4 branch of the dispatch. -/
def UdpEcho.receiveIp (s : UdpEcho) (i : PassIn) (ipRx : IpRx) : UdpEcho :=
  if !ipRx.valid then s
  else if ipRx.protocol = ipProtoIcmp then
    { s with shared := icmpRxProcess i.resetN ipRx s.frameBuf s.shared }
  else if ipRx.protocol = ipProtoIgmp then
    { s with shared := igmpRxProcess i.resetN ipRx s.frameBuf s.shared }
  else if ipRx.protocol = ipProtoTcp then
    let r := tcpRxProcess i.uninit i.resetN ipRx s.frameBuf s.tcp s.shared
    { s with tcp := r.1, shared := r.2 }
  else if ipRx.protocol = ipProtoUdp then s.receiveUdp i ipRx
  else s

/-- The dispatch of a staged frame. -/
def UdpEcho.dispatch (s : UdpEcho) (i : PassIn) (rx : MacRx) : UdpEcho :=
  -- other EtherTypes are drained and dropped
  if rx.ethertype = ethertypeArp then
    { s with shared := arpRxProcess i.resetN rx s.frameBuf s.shared }
  else if rx.ethertype = ethertypeIpv4 then
    s.receiveIp i (ipRxProcess i.resetN rx s.frameBuf)
  else s

/-- A frame is processed in the pass that completes it. -/
def UdpEcho.receive (s : UdpEcho) (i : PassIn) (rx : MacRx) : UdpEcho :=
  if rx.valid then (s.stage rx.nwords.toNat).dispatch i rx else s

/-- DHCP TX, if no request is waiting. -/
def UdpEcho.runDhcpTx (s : UdpEcho) (resetN : Bool) : UdpEcho :=
  if !s.shared.txReq.request then
    let r := dhcpTxProcess resetN s.dhcp s.shared
    { s with dhcp := r.1, shared := r.2 }
  else s

/-- UDP TX, if no request is waiting and MAC TX is idle; it consumes the captured request. -/
def UdpEcho.runUdpTx (s : UdpEcho) (pacing : U32) (resetN busy : Bool) : UdpEcho :=
  if !s.shared.txReq.request && !busy then
    let r := udpTxProcess pacing resetN s.request s.udpTx s.shared
    { s with udpTx := r.1, shared := r.2, request := { s.request with dataReceived := false } }
  else s

/-- TCP maintenance, under the same gate. -/
def UdpEcho.runTcpMaintenance (s : UdpEcho) (un : Uninit) (busy : Bool) : UdpEcho :=
  if !s.shared.txReq.request && !busy then
    let r := tcpMaintenance un s.tcp s.shared
    { s with tcp := r.1, shared := r.2 }
  else s

/-- The receive counters: ARP frames, and IP frames with their length. -/
def statsOfFrame (st : Stats) (rx : MacRx) (ipRx : IpRx) : Stats :=
  if !rx.valid then st
  else if rx.ethertype = ethertypeArp then statsEvent st 2 0
  else if rx.ethertype = ethertypeIpv4 then statsEvent st 0 (if ipRx.valid then ipRx.totalLen else 60)
  else st

/-- The statistics block at the end of a pass. -/
def UdpEcho.runStats (s : UdpEcho) (i : PassIn) (rx : MacRx) : UdpEcho × List U8 :=
  let st := statsOfFrame s.stats rx (ipRxProcess i.resetN rx s.frameBuf)
  let report := s.dhcp.state = .done && !s.dhcpReported
  let st := if report then statsDhcpDone (statsEvent st 4 0) s.dhcp.offeredIp else st
  -- a reset clears both flags, whatever this pass has reported
  let dhcpReported := i.resetN && (s.dhcpReported || report)
  let lastTx := i.resetN && s.lastTx
  let st := if s.shared.txReq.request && !lastTx then statsEvent st 1 (s.shared.txReq.bufLen + 18)
    else st
  let r := statsReport i.resetN i.msgRoom st s.shared.arp st.forceArp 0
  ({ s with stats := r.1, dhcpReported, lastTx := s.shared.txReq.request }, r.2)

/-! ## §3. The pass. -/

/-- `udp_echo`; `pacing` is `TX_PACING_COUNT`, 625000000 in the synthesised build and 256 in
the C simulation. -/
def udpEcho (pacing : U32) (s : UdpEcho) (i : PassIn) : UdpEcho × PassOut :=
  let s := s.resetOrInit i.resetN
  let (s, rx) := s.runMacRx i
  let (s, tx, busy) := s.runMacTx i.resetN
  let s := s.receive i rx
  let s := s.runDhcpTx i.resetN
  let s := s.runUdpTx pacing i.resetN busy
  let s := s.runTcpMaintenance i.uninit busy
  let (s, msg) := s.runStats i rx
  (s, { tx, msg, ledD0 := s.dhcp.state == .done })

/-- The stack as a machine over passes. -/
def udpEchoMachine (pacing : U32) : Machine UdpEcho PassIn PassOut := udpEcho pacing

end GigabitTcp
