/-
  GigabitTcp.Stack.Senders — what the senders behind reception ask for.

  DHCP TX, UDP TX and TCP maintenance run after a frame has been received, each of them only if
  the mailbox is still empty.  So a pass ends with what reception has left, or with the frame
  of the one of them that has sent; and that is an IPv4 frame with UDP or TCP in it, never an
  ARP frame and never a report.

  Main result:
    * `senders_frame` — what a pass leaves in the mailbox behind reception.
-/
import GigabitTcp.Stack.HeaderChecks

namespace GigabitTcp

open Hw

/-- A waiting request for an IPv4 frame with UDP or TCP in it. -/
structure SenderFrame (sh : Shared) : Prop where
  request : sh.txReq.request = true
  ethertype : sh.txReq.ethertype = ethertypeIpv4
  protocol : (ipFields sh.packet).protocol = ipProtoUdp ∨ (ipFields sh.packet).protocol = ipProtoTcp

/-- The protocol of a header that was built. -/
theorem protocol_of_header {m : Mem U32} {totalLen id : U16} {ttl protocol : U8} {src dst : List U8}
    (hsrc : src.length = 4) (hdst : dst.length = 4)
    (hbytes : ∀ k, k < 20 → m.byteAt 0 k = ipHeader totalLen id ttl protocol src dst k) :
    (ipFields m).protocol = protocol :=
  (hbytes 9 (by omega)).trans (ipHeader_fields totalLen id ttl protocol hsrc hdst).2.2.2

/-! ## §1. The three senders. -/

theorem tcpSend_senderFrame (un : Uninit) {cid : Nat} (flags : U8) (payload : Option (Nat → U8))
    (payLen : U16) (t : TcpState) (sh : Shared) (hcid : cid < maxTcpConn) :
    SenderFrame (tcpSend un cid flags payload payLen t sh).2 := by
  obtain ⟨mac, arp, hsent⟩ := tcpSend_issue un flags payload payLen t sh hcid
  have hbytes : ∀ k, k < 20 → (tcpSend un cid flags payload payLen t sh).2.packet.byteAt 0 k
      = ipHeader (20 + tcpTotal flags payLen) 0 128 ipProtoTcp boardIpBytes
        (wordBytes 4 (t.conn cid).peerIp) k := by
    intro k hk
    rw [hsent, packet_issue _ _ _ _ (by decide)]
    exact tcpWriteFrame_header un (t.conn cid) flags payload payLen sh.buffer hk
  have hproto := protocol_of_header rfl (length_wordBytes 4 (t.conn cid).peerIp) hbytes
  rw [hsent] at hproto ⊢
  exact ⟨rfl, rfl, .inr hproto⟩

theorem dhcpSend_senderFrame (sh : Shared) (xid : U32) (opts : List (U8 × U8 × List U8)) :
    SenderFrame (dhcpSend sh xid opts) :=
  ⟨rfl, rfl, .inl (protocol_of_header (length_wordBytes 4 0) (length_wordBytes 4 broadcastIp)
    fun _ hk => dhcpSend_ipHeader sh xid opts hk)⟩

/-- `udp_tx_process` leaves the shared part alone, or it sends: an echo or the periodic frame, with
or without a question for the address before it. -/
theorem udpTx_senderFrame (pacing : U32) (resetN : Bool) (rq : UdpRequest) (u : UdpTx) (sh : Shared) :
    (udpTxProcess pacing resetN rq u sh).2 = sh ∨ SenderFrame (udpTxProcess pacing resetN rq u sh).2 := by
  cases resetN with
  | false => exact .inl rfl
  | true =>
      cases hsend : (udpTxArbitrate pacing u rq).1 with
      | false =>
          left
          unfold udpTxProcess
          rw [if_neg (by decide)]
          dsimp only
          rw [hsend]
          rfl
      | true =>
          right
          obtain ⟨u', dstIp, hbytes⟩ := udpTx_ipHeader sh hsend
          have hissued : (udpTxProcess pacing true rq u sh).2.txReq.request = true
              ∧ (udpTxProcess pacing true rq u sh).2.txReq.ethertype = ethertypeIpv4 := by
            unfold udpTxProcess
            rw [if_neg (by decide)]
            dsimp only
            rw [hsend]
            cases rq.dataReceived <;> exact ⟨rfl, rfl⟩
          exact ⟨hissued.1, hissued.2, .inl (protocol_of_header rfl (length_wordBytes 4 dstIp) hbytes)⟩

theorem tcpMaintenance_senderFrame (un : Uninit) (t : TcpState) (sh : Shared) :
    (tcpMaintenance un t sh).2 = sh ∨ SenderFrame (tcpMaintenance un t sh).2 := by
  rcases tcpMaintenance_sends un t sh with h | ⟨cid, flags, payload, payLen, hcid, h⟩
  · exact .inl h
  · right
    rw [h]
    exact tcpSend_senderFrame un flags payload payLen t sh hcid

/-! ## §2. The pass. -/

variable (pacing : U32) (s : UdpEcho) (i : PassIn)

theorem afterDhcp_frame :
    (s.afterDhcp i).shared = (s.afterReceive i).shared ∨ SenderFrame (s.afterDhcp i).shared := by
  unfold UdpEcho.afterDhcp UdpEcho.runDhcpTx
  split
  · rcases dhcpTx_sends i.resetN (s.afterReceive i).dhcp (s.afterReceive i).shared with h | ⟨xid, opts, h⟩
    · exact .inl h
    · right
      show SenderFrame (dhcpTxProcess _ _ _).2
      rw [h]
      exact dhcpSend_senderFrame _ xid opts
  · exact .inl rfl

theorem afterUdp_frame : (s.afterUdp pacing i).shared = (s.afterDhcp i).shared
    ∨ SenderFrame (s.afterUdp pacing i).shared := by
  unfold UdpEcho.afterUdp UdpEcho.runUdpTx
  split
  · exact udpTx_senderFrame pacing i.resetN _ _ _
  · exact .inl rfl

/-- **Behind reception** a pass leaves the shared part alone, or one of the senders has sent. -/
theorem senders_frame : (s.afterTcp pacing i).shared = (s.afterReceive i).shared
    ∨ SenderFrame (s.afterTcp pacing i).shared := by
  by_cases hpending : (s.afterUdp pacing i).shared.txReq.request = true
  · rw [afterTcp_of_pending hpending]
    rcases afterUdp_frame pacing s i with h | h
    · rw [h]
      exact afterDhcp_frame s i
    · exact .inr h
  · -- nobody has sent yet
    have hudp : (s.afterUdp pacing i).shared = (s.afterDhcp i).shared :=
      (afterUdp_frame pacing s i).resolve_right fun h => hpending h.request
    have hdhcp : (s.afterDhcp i).shared = (s.afterReceive i).shared :=
      (afterDhcp_frame s i).resolve_right fun h => hpending (by rw [hudp]; exact h.request)
    rw [← hdhcp, ← hudp]
    unfold UdpEcho.afterTcp UdpEcho.runTcpMaintenance
    split
    · exact tcpMaintenance_senderFrame i.uninit _ _
    · exact .inl rfl

end GigabitTcp
