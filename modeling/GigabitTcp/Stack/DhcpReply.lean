/-
  GigabitTcp.Stack.DhcpReply — what becomes of a DHCP reply.

  The dispatch of `udp_echo` looks for the DHCP client port behind `udp_rx_process`, which
  raises `valid` for port 8080 alone.  So the branch that calls `dhcp_rx_process` is dead:
  no frame moves the client (`afterReceive_dhcp`), and what is left of the exchange is the
  timer of `dhcp_tx_process`, which never leads from WAIT_OFFER to REQUEST or from WAIT_ACK
  to DONE.

  Main results:
    * `dhcp_reply_never_taken` — for every state and every well-formed reply,
    * `dhcp_offer_and_ack_dropped` — an OFFER and an ACK, byte for byte.
-/
import GigabitTcp.Stack.Pass

namespace GigabitTcp

open Hw

/-! ## §1. Passes that complete a DHCP reply. -/

/-- The pass completes a frame with a well-formed DHCP reply of type `msgType` to our `xid`:
IPv4 to the board or to broadcast, header checksum right, UDP to port 68. -/
structure DhcpReplyPass (s : UdpEcho) (i : PassIn) (msgType : U8) : Prop where
  resetN : i.resetN = true
  completes : (s.frameIn i).valid = true
  ipv4 : (s.frameIn i).ethertype = ethertypeIpv4
  ip : (ipRxProcess i.resetN (s.frameIn i) (s.staged i).frameBuf).valid = true
  udp : (ipRxProcess i.resetN (s.frameIn i) (s.staged i).frameBuf).protocol = ipProtoUdp
  port : (udpFields (s.staged i).frameBuf).dstPort = dhcpClientPort
  op : (s.staged i).frameBuf.byteAt 7 0 = dhcpOpReply
  xid : (s.staged i).frameBuf 8 = s.dhcp.xid
  cookie : (s.staged i).frameBuf 66 = dhcpMagicCookie
  msgType : dhcpReadOpt (s.staged i).frameBuf 7
    ((udpFields (s.staged i).frameBuf).length - udpHeaderBytes).toNat 53 = [msgType]

/-- The OFFER is taken: `yiaddr` is stored and the client asks for it. -/
def DhcpOfferTaken (pacing : U32) (s : UdpEcho) (i : PassIn) : Prop :=
  (udpEcho pacing s i).1.dhcp.offeredIp = (s.staged i).frameBuf 11
    ∧ ((udpEcho pacing s i).1.dhcp.state = .request ∨ (udpEcho pacing s i).1.dhcp.state = .waitAck)

/-- The ACK is taken: the client is done and the LED shows it. -/
def DhcpAckTaken (pacing : U32) (s : UdpEcho) (i : PassIn) : Prop :=
  (udpEcho pacing s i).1.dhcp.state = .done ∧ (udpEcho pacing s i).2.ledD0 = true

/-! ## §2. The client in a pass. -/

/-- A client that has left IDLE is not touched by the initialisation. -/
theorem resetOrInit_dhcp {s : UdpEcho} (h : s.dhcp.state ≠ .idle) :
    (s.resetOrInit true).dhcp = s.dhcp := by
  have hstart : ∀ t : UdpEcho, t.dhcp = s.dhcp → ¬ (!t.dhcp.start && t.dhcp.state = .idle) = true := by
    intro t ht
    rw [ht]
    simp [h]
  unfold UdpEcho.resetOrInit
  simp only [Bool.not_true, Bool.false_eq_true, if_false]
  by_cases hinit : (!s.initDone) = true
  · rw [if_pos hinit, if_neg (hstart _ rfl)]
  · rw [if_neg hinit, if_neg (hstart _ rfl)]

/-- Before DHCP TX runs, a pass has not moved the client. -/
theorem afterReceive_dhcp_eq {s : UdpEcho} {i : PassIn} (hreset : i.resetN = true)
    (h : s.dhcp.state ≠ .idle) : (s.afterReceive i).dhcp = s.dhcp := by
  rw [afterReceive_dhcp]
  show (s.resetOrInit i.resetN).dhcp = s.dhcp
  rw [hreset, resetOrInit_dhcp h]

/-- The tick moves no client that waits. -/
theorem dhcpTick_state {d : DhcpClient} (h : d.state ≠ .idle) : (dhcpTick d).state = d.state := by
  have hstart : ∀ e : DhcpClient, e.state = d.state → ¬ (e.start ∧ e.state = .idle) := by
    intro e he hs
    exact h (he.symm.trans hs.2)
  unfold dhcpTick
  by_cases hwait : d.state ≠ .idle ∧ d.state ≠ .done ∧ d.state ≠ .failed
  · rw [if_pos hwait, if_neg (hstart _ rfl)]
  · rw [if_neg hwait, if_neg (hstart _ rfl)]

/-- From WAIT_OFFER the timer leads back to DISCOVER or to FAILED. -/
theorem dhcpTx_of_waitOffer {d : DhcpClient} (h : d.state = .waitOffer) (sh : Shared) :
    (dhcpTxProcess true d sh).1.state ∈ [DhcpState.waitOffer, .discover, .failed] := by
  have htick : (dhcpTick d).state = .waitOffer := (dhcpTick_state (by rw [h]; simp)).trans h
  unfold dhcpTxProcess dhcpRetry
  simp only [Bool.not_true, Bool.false_eq_true, if_false, htick]
  split_ifs <;> simp_all

/-- From WAIT_ACK the timer leads back to REQUEST or to FAILED. -/
theorem dhcpTx_of_waitAck {d : DhcpClient} (h : d.state = .waitAck) (sh : Shared) :
    (dhcpTxProcess true d sh).1.state ∈ [DhcpState.waitAck, .request, .failed] := by
  have htick : (dhcpTick d).state = .waitAck := (dhcpTick_state (by rw [h]; simp)).trans h
  unfold dhcpTxProcess dhcpRetry
  simp only [Bool.not_true, Bool.false_eq_true, if_false, htick]
  split_ifs <;> simp_all

/-- The client of a pass: as before, or as DHCP TX leaves it. -/
theorem udpEcho_dhcp_cases (pacing : U32) {s : UdpEcho} {i : PassIn} (hreset : i.resetN = true)
    (h : s.dhcp.state ≠ .idle) :
    (udpEcho pacing s i).1.dhcp = s.dhcp
      ∨ ∃ sh, (udpEcho pacing s i).1.dhcp = (dhcpTxProcess true s.dhcp sh).1 := by
  have hrecv := afterReceive_dhcp_eq hreset h
  rw [udpEcho_dhcp, afterTcp_dhcp, afterUdp_dhcp, UdpEcho.afterDhcp, UdpEcho.runDhcpTx]
  split
  · right
    refine ⟨(s.afterReceive i).shared, ?_⟩
    show (dhcpTxProcess i.resetN (s.afterReceive i).dhcp (s.afterReceive i).shared).1 = _
    rw [hreset, hrecv]
  · exact .inl hrecv

/-- No pass leads from WAIT_OFFER to REQUEST or WAIT_ACK. -/
theorem udpEcho_waitOffer (pacing : U32) {s : UdpEcho} {i : PassIn} (hreset : i.resetN = true)
    (h : s.dhcp.state = .waitOffer) :
    (udpEcho pacing s i).1.dhcp.state ∈ [DhcpState.waitOffer, .discover, .failed] := by
  rcases udpEcho_dhcp_cases pacing hreset (by rw [h]; simp) with hd | ⟨sh, hd⟩
  · rw [hd, h]
    simp
  · rw [hd]
    exact dhcpTx_of_waitOffer h sh

/-- No pass leads from WAIT_ACK to DONE. -/
theorem udpEcho_waitAck (pacing : U32) {s : UdpEcho} {i : PassIn} (hreset : i.resetN = true)
    (h : s.dhcp.state = .waitAck) :
    (udpEcho pacing s i).1.dhcp.state ∈ [DhcpState.waitAck, .request, .failed] := by
  rcases udpEcho_dhcp_cases pacing hreset (by rw [h]; simp) with hd | ⟨sh, hd⟩
  · rw [hd, h]
    simp
  · rw [hd]
    exact dhcpTx_of_waitAck h sh

/-! ## §3. Replies are never taken. -/

theorem not_offerTaken (pacing : U32) {s : UdpEcho} {i : PassIn} (hreset : i.resetN = true)
    (h : s.dhcp.state = .waitOffer) : ¬ DhcpOfferTaken pacing s i := by
  rintro ⟨-, hstate⟩
  have hmem := udpEcho_waitOffer pacing hreset h
  rcases hstate with hstate | hstate
  · rw [hstate] at hmem
    simp at hmem
  · rw [hstate] at hmem
    simp at hmem

theorem not_ackTaken (pacing : U32) {s : UdpEcho} {i : PassIn} (hreset : i.resetN = true)
    (h : s.dhcp.state = .waitAck) : ¬ DhcpAckTaken pacing s i := by
  rintro ⟨hstate, -⟩
  have hmem := udpEcho_waitAck pacing hreset h
  rw [hstate] at hmem
  simp at hmem

/-- **The exchange is never completed**: every well-formed OFFER and every well-formed ACK is
dropped, in every state that waits for it. -/
theorem dhcp_reply_never_taken (pacing : U32) (s : UdpEcho) (i : PassIn) :
    (s.dhcp.state = .waitOffer → DhcpReplyPass s i dhcpMsgOffer → ¬ DhcpOfferTaken pacing s i)
      ∧ (s.dhcp.state = .waitAck → DhcpReplyPass s i dhcpMsgAck → ¬ DhcpAckTaken pacing s i) :=
  ⟨fun h hpass => not_offerTaken pacing hpass.resetN h,
    fun h hpass => not_ackTaken pacing hpass.resetN h⟩

/-! ## §4. A reply, byte for byte. -/

/-- A BOOTREPLY from 192.168.100.1 that grants 192.168.100.50, with options 53 and 54. -/
def dhcpReplyMessage (msgType : U8) : List U8 :=
  [dhcpOpReply, dhcpHtypeEth, dhcpHlen, 0] ++ wordBytes 4 (0x12345678 : U32)
    ++ List.replicate 8 0 ++ [192, 168, 100, 50, 192, 168, 100, 1] ++ List.replicate 4 0
    ++ boardMacBytes ++ List.replicate 202 0 ++ wordBytes 4 dhcpMagicCookie
    ++ [53, 1, msgType, 54, 4, 192, 168, 100, 1, 255, 0, 0]

/-- The IPv4 payload of the frame: 280 bytes, a whole number of words. -/
def dhcpReplyPacket (msgType : U8) : List U8 :=
  (List.range 20).map (ipHeader 280 0 64 ipProtoUdp [192, 168, 100, 1] [255, 255, 255, 255])
    ++ [0, 67, 0, 68, 1, 4, 0, 0] ++ dhcpReplyMessage msgType

/-- A client that waits, one byte before the end of the reply. -/
def dhcpWaiting (state : DhcpState) (msgType : U8) : UdpEcho :=
  { initDone := true
    dhcp := { state, xid := 0x12345678, start := true }
    frameFifo := packWords ((dhcpReplyPacket msgType).take 276)
    macRx :=
      { state := .payload, byteCnt := 1, savedEthertype := ethertypeIpv4
        savedDstMac := broadcastMac, savedSrcMac := 0x020304050607, wrWord := 0x0001FF00
        wrByte := 3, nwords := 69 } }

/-- The pass that reads the last byte, a zero behind the end option. -/
def lastBytePass : PassIn :=
  { resetN := true, rx := some { data := 0, last := true }
    uninit := { payload := fun _ => 0, seg := fun _ => 0, srv := fun _ => 0 }, msgRoom := 0 }

theorem dhcpOffer_pass :
    DhcpReplyPass (dhcpWaiting .waitOffer dhcpMsgOffer) lastBytePass dhcpMsgOffer := by
  constructor <;> decide +kernel

theorem dhcpAck_pass :
    DhcpReplyPass (dhcpWaiting .waitAck dhcpMsgAck) lastBytePass dhcpMsgAck := by
  constructor <;> decide +kernel

/-- The two replies that would complete the exchange: both are dropped. -/
theorem dhcp_offer_and_ack_dropped :
    ((dhcpWaiting .waitOffer dhcpMsgOffer).dhcp.state = .waitOffer
        ∧ DhcpReplyPass (dhcpWaiting .waitOffer dhcpMsgOffer) lastBytePass dhcpMsgOffer
        ∧ ¬ DhcpOfferTaken 256 (dhcpWaiting .waitOffer dhcpMsgOffer) lastBytePass)
      ∧ ((dhcpWaiting .waitAck dhcpMsgAck).dhcp.state = .waitAck
        ∧ DhcpReplyPass (dhcpWaiting .waitAck dhcpMsgAck) lastBytePass dhcpMsgAck
        ∧ ¬ DhcpAckTaken 256 (dhcpWaiting .waitAck dhcpMsgAck) lastBytePass) :=
  ⟨⟨rfl, dhcpOffer_pass, not_offerTaken 256 rfl rfl⟩, rfl, dhcpAck_pass, not_ackTaken 256 rfl rfl⟩

theorem dhcp_replies_never_taken_here :
    ¬ DhcpOfferTaken 256 (dhcpWaiting .waitOffer dhcpMsgOffer) lastBytePass
      ∧ ¬ DhcpAckTaken 256 (dhcpWaiting .waitAck dhcpMsgAck) lastBytePass :=
  ⟨(dhcp_reply_never_taken 256 _ _).1 rfl dhcpOffer_pass,
    (dhcp_reply_never_taken 256 _ _).2 rfl dhcpAck_pass⟩

end GigabitTcp
