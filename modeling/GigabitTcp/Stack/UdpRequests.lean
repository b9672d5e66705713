/-
  GigabitTcp.Stack.UdpRequests — the pending UDP request, between its capture and its echo.

  A datagram is captured in the pass that completes it: five statics take its addresses and
  lengths, and its payload goes into the transmit region behind the place of the headers.
  The echo is built when MAC TX is idle.  Until then the payload lies in words that a reply
  of another protocol may use.

  The record of a run lists the captured datagrams; the invariant says that a pending request
  is the last of them, with its payload still in place.

  Main results:
    * `HoldsPending.pass`       — one pass keeps the pending request together,
    * `udp_echoes_not_mixed`    — an echo repeats one captured datagram, in every run whose
      replies stay clear of the staged payload,
    * `udp_echo_mixed`          — a SYN+ACK that does not.
-/
import GigabitTcp.Stack.Ipv4Out
import GigabitTcp.Stack.Timers

namespace GigabitTcp

open Hw Machine

/-! ## §1. Datagrams. -/

/-- A datagram as it is captured, or as a frame answers it. -/
structure UdpDatagram where
  ip : U32
  port : U16
  /-- Of UDP, and of IP. -/
  length : U16
  totalLen : U16
  payload : List U32
  deriving Repr, DecidableEq

/-- The payload words of a datagram of this UDP length. -/
def payloadWords (length : U16) : Nat := ((length - udpHeaderBytes).toNat + 3) / 4

/-- The datagram that this pass captures, if any. -/
def UdpEcho.capturedIn (s : UdpEcho) (i : PassIn) : List UdpDatagram :=
  if s.capturesIn i then
    [{ ip := (s.packetIn i).srcIp, port := (s.datagramIn i).srcPort
       length := (s.datagramIn i).length, totalLen := (s.packetIn i).totalLen
       payload := (List.range (payloadWords (s.datagramIn i).length)).map
        (fun k => (s.staged i).frameBuf (7 + k)) }]
  else []

/-- The first `n` words of the staged payload. -/
def stagedWords (buffer : Mem U32) (n : Nat) : List U32 :=
  (List.range n).map (fun k => buffer (txUdpBase + 7 + k))

/-- The pending request, with the payload that stands in the buffer. -/
def pendingDatagram (rq : UdpRequest) (buffer : Mem U32) : UdpDatagram :=
  { ip := rq.rxSrcIp, port := rq.rxSrcPort, length := rq.rxUdpLen, totalLen := rq.rxIpLen
    payload := stagedWords buffer (payloadWords rq.rxUdpLen) }

/-- The datagram that a requested UDP frame answers: its destination, lengths and payload. -/
def Shared.answered (sh : Shared) : UdpDatagram :=
  let b := sh.packet.byteAt 0
  { ip := packWord (b 16) (b 17) (b 18) (b 19), port := be16 (b 22) (b 23)
    length := (udpFields sh.packet).length, totalLen := (ipFields sh.packet).totalLen
    payload := (List.range (payloadWords (udpFields sh.packet).length)).map
      (fun k => sh.packet (7 + k)) }

/-- A reply of this pass stays clear of the payload of a pending request. -/
def SparesStaged (s : UdpEcho) (i : PassIn) : Prop :=
  s.request.dataReceived = true →
    match s.reception i with
    | .answers lo hi =>
        hi ≤ txUdpBase + 7 ∨ txUdpBase + 7 + payloadWords s.request.rxUdpLen ≤ lo
    | _ => True

instance (s : UdpEcho) (i : PassIn) : Decidable (SparesStaged s i) := by
  unfold SparesStaged
  cases s.reception i <;> infer_instance

/-- **A pending request** is the last captured datagram, with its payload in place. -/
def Pending (rq : UdpRequest) (buffer : Mem U32) (log : List UdpDatagram) : Prop :=
  rq.dataReceived = true → log.getLast? = some (pendingDatagram rq buffer)

/-! ## §2. What the stages do to the staged payload. -/

theorem stagedWords_congr {m m' : Mem U32} {n : Nat}
    (h : ∀ k, k < n → m' (txUdpBase + 7 + k) = m (txUdpBase + 7 + k)) :
    stagedWords m' n = stagedWords m n := by
  unfold stagedWords
  apply List.map_congr_left
  intro k hk
  rw [List.mem_range] at hk
  exact h k hk

/-- Writing outside of the staged payload keeps it pending. -/
theorem Pending.changesOnly {rq : UdpRequest} {m m' : Mem U32} {log : List UdpDatagram} {lo hi : Nat}
    (h : Pending rq m log) (hm : Mem.ChangesOnly lo hi m m')
    (hclear : hi ≤ txUdpBase + 7 ∨ txUdpBase + 7 + payloadWords rq.rxUdpLen ≤ lo) :
    Pending rq m' log := by
  have hsame : stagedWords m' (payloadWords rq.rxUdpLen) = stagedWords m (payloadWords rq.rxUdpLen) := by
    apply stagedWords_congr
    intro k hk
    apply hm
    omega
  intro hdata
  rw [h hdata]
  unfold pendingDatagram
  rw [hsame]

/-- What reception does when it neither captures nor answers: nothing. -/
theorem reception_captures {s : UdpEcho} {i : PassIn} {lo hi : Nat}
    (h : s.reception i = .captures lo hi) : s.capturesIn i = true := by
  unfold UdpEcho.reception at h
  split at h
  · rename_i hvalid
    unfold dispatchReception at h
    split at h
    · unfold arpReception at h
      split_ifs at h
    · split at h
      · unfold ipReception at h
        split_ifs at h
        · unfold icmpReception at h
          split_ifs at h
        · unfold igmpReception at h
          split_ifs at h
        · unfold tcpReception at h
          split at h
          · cases h
          · unfold tcpSlotReception at h
            split_ifs at h
        · unfold udpReception at h
          split at h
          · rename_i hudp
            unfold UdpEcho.capturesIn
            rw [hvalid, Bool.true_and]
            exact hudp
          · cases h
      · cases h
  · cases h

/-- What reception does with a datagram for port 8080. -/
theorem afterReceive_captures {s : UdpEcho} {i : PassIn} (h : s.capturesIn i = true) :
    s.afterReceive i = (s.staged i).captureUdp (s.packetIn i) (s.datagramIn i) := by
  unfold UdpEcho.capturesIn at h
  rw [Bool.and_eq_true] at h
  rw [afterReceive_frame h.1, dispatch_captures (s.staged i) i h.2]
  rfl

theorem afterReceive_captures_buffer {s : UdpEcho} {i : PassIn} (h : s.capturesIn i = true) :
    (s.afterReceive i).shared.buffer
      = (s.staged i).shared.buffer.fill (txUdpBase + 7) (udpCopyWords (s.datagramIn i))
        (fun k => (s.staged i).frameBuf (7 + k)) := by
  rw [afterReceive_captures h]
  rfl

/-- All of the payload is copied: `payload_len` is the UDP length without its header. -/
theorem udpCopyWords_captured {s : UdpEcho} {i : PassIn} (h : s.capturesIn i = true) :
    udpCopyWords (s.datagramIn i) = payloadWords (s.datagramIn i).length := by
  unfold UdpEcho.capturesIn at h
  rw [Bool.and_eq_true] at h
  have hlen : (s.datagramIn i).payloadLen = (s.datagramIn i).length - udpHeaderBytes :=
    udpRxProcess_payloadLen h.2
  unfold udpCopyWords payloadWords
  rw [hlen]

/-- The captured payload stands in the buffer. -/
theorem captured_pending {s : UdpEcho} {i : PassIn} (h : s.capturesIn i = true) :
    s.capturedIn i
      = [pendingDatagram (s.requestIn i) (s.afterReceive i).shared.buffer] := by
  have hbuffer := afterReceive_captures_buffer h
  unfold UdpEcho.capturedIn
  rw [if_pos h]
  unfold pendingDatagram stagedWords UdpEcho.requestIn
  dsimp only
  refine congrArg (fun l => [UdpDatagram.mk _ _ _ _ l]) ?_
  apply List.map_congr_left
  intro k hk
  rw [List.mem_range] at hk
  rw [hbuffer, udpCopyWords_captured h, Mem.fill_at _ _ hk]

/-! ## §3. One pass. -/

/-- The pending request of a state, which is initialised if there is one. -/
structure HoldsPending (s : UdpEcho) (log : List UdpDatagram) : Prop where
  pending : Pending s.request s.shared.buffer log
  init : s.request.dataReceived = true → s.initDone = true

variable {s : UdpEcho} {i : PassIn} {log : List UdpDatagram}

/-- Reception captures a new request, or leaves the pending one in place. -/
theorem HoldsPending.receive (h : HoldsPending s log) (hspares : SparesStaged s i) :
    Pending (s.afterReceive i).request (s.afterReceive i).shared.buffer (log ++ s.capturedIn i) := by
  by_cases hcaptured : s.capturesIn i = true
  · rw [afterReceive_request, if_pos hcaptured, captured_pending hcaptured]
    intro _
    rw [List.getLast?_append]
    rfl
  · have hnone : s.capturedIn i = [] := if_neg hcaptured
    rw [afterReceive_request, if_neg hcaptured, hnone, List.append_nil]
    cases hreset : i.resetN with
    | false =>
        -- a reset drops the request
        have hcleared : (s.afterMacTx i).request = {} := by
          show (s.resetOrInit i.resetN).request = {}
          rw [hreset]
          rfl
        rw [hcleared]
        exact fun hno => absurd hno (by decide)
    | true =>
        have hkept : (s.afterMacTx i).request = s.request := by
          show (s.resetOrInit i.resetN).request = s.request
          rw [hreset]
          obtain ⟨_, _, _, hinit⟩ := resetOrInit_eq s true rfl
          rw [hinit]
        rw [hkept]
        by_cases hdata : s.request.dataReceived = true
        · have hmac : (s.afterMacTx i).shared.buffer = s.shared.buffer := by
            rw [(afterMacTx_cycle s i hreset).2.1]
            show s.txBuffer i = _
            rw [txBuffer_eq, h.init hdata, if_neg (by simp)]
          have hwrites := receive_writes s i
          have hclear := hspares hdata
          cases hrec : s.reception i with
          | quiet =>
              rw [hrec] at hwrites
              rw [hwrites.1, hmac]
              exact h.pending
          | answers lo hi =>
              rw [hrec] at hwrites hclear
              have hchanges := hwrites.1
              rw [hmac] at hchanges
              exact h.pending.changesOnly hchanges hclear
          | captures lo hi => exact absurd (reception_captures hrec) hcaptured
        · exact fun hno => absurd hno hdata

/-- The DHCP client writes in front of the transmit region. -/
theorem HoldsPending.dhcp (h : HoldsPending s log) (hspares : SparesStaged s i) :
    Pending (s.afterReceive i).request (s.afterDhcp i).shared.buffer (log ++ s.capturedIn i) := by
  have hreceive := h.receive hspares
  unfold UdpEcho.afterDhcp UdpEcho.runDhcpTx
  split
  · have hwrites := (dhcpTx_writes i.resetN (s.afterReceive i).dhcp (s.afterReceive i).shared).1
    exact hreceive.changesOnly hwrites (.inl (by decide))
  · exact hreceive

/-- The builder consumes the request. -/
theorem udpEcho_consumes (pacing : U32) (h : s.callsUdpTx i = true) :
    (udpEcho pacing s i).1.request.dataReceived = false := by
  obtain ⟨_, _, _, hstats⟩ := udpEcho_eq pacing s i
  obtain ⟨_, _, htcp⟩ := afterTcp_eq pacing s i
  unfold UdpEcho.callsUdpTx at h
  rw [hstats, htcp]
  unfold UdpEcho.afterUdp UdpEcho.runUdpTx
  rw [if_pos h]

/-- **One pass** keeps a pending request together, or answers it. -/
theorem HoldsPending.pass (pacing : U32) (h : HoldsPending s log) (hspares : SparesStaged s i) :
    HoldsPending (udpEcho pacing s i).1 (log ++ s.capturedIn i) := by
  have hdhcp := h.dhcp hspares
  obtain ⟨_, _, _, hstats⟩ := udpEcho_eq pacing s i
  obtain ⟨_, _, htcp⟩ := afterTcp_eq pacing s i
  obtain ⟨_, _, hdhcpEq⟩ := afterDhcp_eq s i
  have hrequest : (udpEcho pacing s i).1.request = (s.afterUdp pacing i).request := by rw [hstats, htcp]
  have hbefore : (s.afterDhcp i).request = (s.afterReceive i).request := by rw [hdhcpEq]
  by_cases hcalled : s.callsUdpTx i = true
  · have hconsumed := udpEcho_consumes pacing hcalled
    constructor
    · intro hdata
      rw [hconsumed] at hdata
      cases hdata
    · intro hdata
      rw [hconsumed] at hdata
      cases hdata
  · -- neither sender is called
    obtain ⟨hudp, hlast⟩ := after_closed pacing s i (Bool.eq_false_iff.mpr hcalled)
    have hshared : (udpEcho pacing s i).1.shared = (s.afterDhcp i).shared := by
      rw [udpEcho_shared, hlast]
    rw [hudp, hbefore] at hrequest
    constructor
    · rw [hrequest, hshared]
      exact hdhcp
    · rw [hrequest]
      intro hdata
      cases hreset : i.resetN with
      | true => exact udpEcho_initDone pacing s i hreset
      | false =>
          -- a reset pass ends without a request
          have hno : s.capturesIn i = false := by
            by_contra hcaptured
            have hvalid : s.capturesIn i = true := by simpa using hcaptured
            unfold UdpEcho.capturesIn at hvalid
            rw [Bool.and_eq_true] at hvalid
            have hpacket := (ipRxProcess_valid (udpRxProcess_packet hvalid.2).1).1
            rw [hreset] at hpacket
            cases hpacket
          rw [afterReceive_request, hno] at hdata
          have hcleared : (s.afterMacTx i).request = {} := by
            show (s.resetOrInit i.resetN).request = {}
            rw [hreset]
            rfl
          rw [if_neg Bool.false_ne_true, hcleared] at hdata
          cases hdata

/-- **The frame of an echo** answers the pending request, with the payload that is in place. -/
theorem echo_answers (pacing : U32) (hechoes : s.EchoesUdp i) :
    (udpEcho pacing s i).1.shared.answered
      = pendingDatagram (s.afterReceive i).request (s.afterDhcp i).shared.buffer := by
  obtain ⟨arp, u', hlen, htotal, hsent⟩ := echo_frame pacing hechoes
  rw [hsent]
  generalize (s.afterReceive i).request = rq at *
  generalize (s.afterDhcp i).shared = sh at *
  generalize hheader : udpTxHeader u' rq.rxSrcIp rq.rxSrcPort = hdr
  generalize (arpLookup sh.arp rq.rxSrcIp).1.getD broadcastMac = mac
  generalize hframe : Shared.issue { sh with
      arp, buffer := sh.buffer.fill txUdpBase 7 (Mem.wordOf hdr) }
    mac ethertypeIpv4 txUdpBase (ipHeaderBytes + rq.rxUdpLen) = frame
  have hbyte : ∀ k, k < 28 → frame.packet.byteAt 0 k = hdr k := by
    intro k hk
    rw [← hframe, packet_issue _ _ _ _ (by decide)]
    exact Mem.byteAt_fill_wordOf _ _ _ _ (by omega)
  have hword : ∀ k, frame.packet (7 + k) = sh.buffer (txUdpBase + 7 + k) := by
    intro k
    rw [← hframe]
    show (sh.buffer.fill txUdpBase 7 (Mem.wordOf hdr)) (txUdpBase + (7 + k)) = _
    rw [Mem.fill_outside _ _ (by omega), ← Nat.add_assoc]
  -- the header has the addresses and lengths of the request
  have hip : ∀ k, k < 4 → hdr (16 + k) = (wordBytes 4 rq.rxSrcIp).getD k 0 := by
    intro k hk
    rw [← hheader, udpTxHeader_ip _ _ _ (by omega), ipHeader_dst _ _ _ _ rfl (length_wordBytes 4 _) hk]
  have hudp : ∀ k, k < 8 → hdr (20 + k) = [hi8 udpPort, lo8 udpPort, hi8 rq.rxSrcPort,
      lo8 rq.rxSrcPort, hi8 u'.txDataLen, lo8 u'.txDataLen, 0, 0].getD k 0 := by
    intro k hk
    rw [← hheader, udpTxHeader_udp _ _ _ hk]
  have hlength : (udpFields frame.packet).length = rq.rxUdpLen := by
    show be16 (frame.packet.byteAt 0 24) (frame.packet.byteAt 0 25) = _
    rw [hbyte 24 (by omega), hbyte 25 (by omega), hudp 4 (by omega), hudp 5 (by omega), ← hlen]
    exact be16_hi8_lo8 u'.txDataLen
  have htotalLen : (ipFields frame.packet).totalLen = rq.rxIpLen := by
    obtain ⟨-, h2, h3, -⟩ := ipHeader_fields u'.txTotal (u'.txIpId.setWidth 16) 128 ipProtoUdp
      (show boardIpBytes.length = 4 from rfl) (length_wordBytes 4 rq.rxSrcIp)
    show be16 (frame.packet.byteAt 0 2) (frame.packet.byteAt 0 3) = _
    rw [hbyte 2 (by omega), hbyte 3 (by omega), ← hheader, udpTxHeader_ip _ _ _ (show 2 < 20 by omega),
      udpTxHeader_ip _ _ _ (show 3 < 20 by omega), h2, h3, ← htotal]
    exact be16_hi8_lo8 u'.txTotal
  unfold Shared.answered pendingDatagram stagedWords
  dsimp only
  rw [hbyte 16 (by omega), hbyte 17 (by omega), hbyte 18 (by omega), hbyte 19 (by omega),
    hip 0 (by omega), hip 1 (by omega), hip 2 (by omega), hip 3 (by omega), packWord_wordBytes,
    hbyte 22 (by omega), hbyte 23 (by omega), hudp 2 (by omega), hudp 3 (by omega), hlength, htotalLen]
  simp only [hword]
  exact congrArg (fun p => UdpDatagram.mk _ p _ _ _) (be16_hi8_lo8 rq.rxSrcPort)

/-! ## §4. Runs. -/

/-- **UDP echoes are not mixed**: in a run whose replies stay clear of the staged payload, a
pending request is the last captured datagram with its payload in place, and an echo answers
the last captured datagram. -/
theorem udp_echoes_not_mixed (pacing : U32) (is : List PassIn) (i : PassIn)
    (hspares : Along (udpEchoMachine pacing) SparesStaged {} (is ++ [i])) :
    let s := (udpEchoMachine pacing).after {} is
    let s' := (udpEcho pacing s i).1
    let log := (udpEchoMachine pacing).record UdpEcho.capturedIn {} (is ++ [i])
    (s'.request.dataReceived = true →
      log.getLast? = some (pendingDatagram s'.request s'.shared.buffer))
    ∧ (s.EchoesUdp i → log.getLast? = some s'.shared.answered) := by
  intro s s' log
  obtain ⟨hbefore, hnow, -⟩ := Along.append.mp hspares
  have hstart : HoldsPending {} [] := ⟨nofun, nofun⟩
  have hs : HoldsPending s ([] ++ (udpEchoMachine pacing).record UdpEcho.capturedIn {} is) :=
    Along.invariant_record (P := HoldsPending)
      (fun t l j ht hj => ht.pass pacing hj) is hstart hbefore
  have hlog : log = [] ++ (udpEchoMachine pacing).record UdpEcho.capturedIn {} is ++ s.capturedIn i := by
    show (udpEchoMachine pacing).record UdpEcho.capturedIn {} (is ++ [i]) = _
    rw [record_append, List.nil_append]
    show _ ++ (UdpEcho.capturedIn s i ++ []) = _
    rw [List.append_nil]
  rw [hlog]
  refine ⟨(hs.pass pacing hnow).pending, ?_⟩
  intro hechoes
  rw [echo_answers pacing hechoes]
  exact hs.dhcp hnow hechoes.2.2

/-- An ARP request, a datagram while the reply is sent, and the passes until MAC TX is idle. -/
def waitingPasses : List PassIn :=
  (gmiiFrame (arpRequestFrame 1).bytes).map readPass ++ (gmiiFrame datagramFrame.bytes).map readPass
    ++ List.replicate 19 .quiet

set_option maxRecDepth 100000 in
/-- The datagram waits behind the ARP reply, and is answered as it came. -/
theorem udp_echo_behind_reply :
    let s := (udpEchoMachine 625000000).after {} waitingPasses
    let log := (udpEchoMachine 625000000).record UdpEcho.capturedIn {} (waitingPasses ++ [.quiet])
    s.request.dataReceived = true ∧ s.EchoesUdp .quiet
      ∧ log.getLast? = some (udpEcho 625000000 s .quiet).1.shared.answered := by
  intro s log
  have hspares : Along (udpEchoMachine 625000000) SparesStaged {} (waitingPasses ++ [.quiet]) := by
    decide +kernel
  have hechoes : s.EchoesUdp .quiet := ⟨rfl, by decide +kernel, by decide +kernel⟩
  exact ⟨by decide +kernel, hechoes,
    (udp_echoes_not_mixed 625000000 waitingPasses .quiet hspares).2 hechoes⟩

/-- An echo request of 192.168.100.1 with 64 bytes of data. -/
def pingFrame : TaggedFrame where
  dst := boardMac
  src := hostMac 1
  tags := []
  ethertype := ethertypeIpv4
  payload := (List.range 20).map (ipHeader 92 0 64 ipProtoIcmp [192, 168, 100, 1] boardIpBytes)
    ++ [icmpEchoRequest, 0, 0, 0, 0, 0, 0, 0] ++ List.replicate 64 0x41
  notTag := ethertypeIpv4_notTag
  nonempty := by decide

/-- The datagram and a SYN arrive while the echo request is answered; both answers are sent. -/
def mixedPasses : List PassIn :=
  (gmiiFrame pingFrame.bytes).map readPass ++ (gmiiFrame datagramFrame.bytes).map readPass
    ++ (gmiiFrame synFrame.bytes).map readPass ++ List.replicate 78 .quiet

set_option maxRecDepth 100000 in
/-- The echo of `ABCD` carries a word of the SYN+ACK. -/
theorem udp_echo_mixed :
    let s := (udpEchoMachine 625000000).after {} mixedPasses
    let log := (udpEchoMachine 625000000).record UdpEcho.capturedIn {} (mixedPasses ++ [.quiet])
    s.EchoesUdp .quiet ∧ log.map (fun d => d.payload) = [[0x41424344]]
      ∧ (udpEcho 625000000 s .quiet).1.shared.answered.payload = [0x65] := by
  intro s log
  refine ⟨⟨rfl, ?_, ?_⟩, ?_, ?_⟩ <;> decide +kernel

end GigabitTcp
