/-
  GigabitTcp.Stack.Segments — a segment in the pass of its last byte, and every request.

  A segment is what its receiver reads of the packet, so the TCP layer serves it as the echo server
  does.  A reply of `tcp_rx_process` closes the gates; data waits for the maintenance call of
  the same pass, which finds the gate open.

  Main results:
    * `PacketFor.segment` — `tcp_rx_process` reads the segment as its receiver does,
    * `LastByte.answers`  — the stack answers any request as the responder does.
-/
import GigabitTcp.Stack.LastByte

namespace GigabitTcp

open Hw Machine

/-! ## §1. The staged segment. -/

/-- **`tcp_rx_process` reads the segment**, as its receiver does. -/
theorem PacketFor.segment {f : TaggedFrame} {p : Inet.Ipv4Packet} {g : Inet.TcpSegment} {fb : Mem U32}
    (h : PacketFor f p) (hproto : p.protocol = ipProtoTcp)
    (hg : Inet.tcp? p.src p.dst p.data = some g) (hport : g.dstPort = tcpPortEcho)
    (hbytes : ∀ j, j < f.payload.length → fb.byteAt 0 j = f.payload.getD j 0) :
    HoldsSegment (ipRxProcess true f.report fb) fb (sender p g) g := by
  obtain ⟨hvalid, hprotocol, hsrc, htotal, hdata⟩ := h.ipRx hbytes
  obtain ⟨hlen, -, -⟩ := h.data
  obtain ⟨hsp, hdp, hseq, hack, hoffset, hflags, hmin, hfit, hrest⟩ := Inet.tcp?_some hg
  generalize ipRxProcess true f.report fb = ipRx at *
  have hbyte : ∀ {k : Nat}, k < 20 → fb.byteAt 5 k = p.data.getD k 0 := fun hk => hdata _ (by omega)
  have hdoff : (tcpParse ipRx fb).doff.toNat = g.dataOffset := by
    rw [hoffset, ← hbyte (by omega)]
    show (fb.byteAt 5 12 >>> 4 &&& 0xF#8).toNat = _
    have hsmall : (fb.byteAt 5 12 >>> 4).toNat < 16 := by
      rw [BitVec.toNat_ushiftRight, Nat.shiftRight_eq_div_pow]
      have hlt := (fb.byteAt 5 12).isLt
      omega
    rw [BitVec.toNat_and, show (0xF#8).toNat = 2 ^ 4 - 1 from rfl, Nat.and_two_pow_sub_one_eq_mod]
    exact Nat.mod_eq_of_lt hsmall
  have hcount : g.data.length = p.data.length - g.dataOffset * 4 := by rw [hrest, List.length_drop]
  have hoffsetLt : g.dataOffset < 16 := by
    rw [← hdoff]
    show (fb.byteAt 5 12 >>> 4 &&& 0xF#8).toNat < 16
    rw [BitVec.toNat_and, show (0xF#8).toNat = 2 ^ 4 - 1 from rfl, Nat.and_two_pow_sub_one_eq_mod]
    exact Nat.mod_lt _ (by decide)
  refine ⟨hvalid, hprotocol.trans hproto, hsrc, ?_, ?_, ?_, ?_, ?_, ?_, ?_⟩
  · show be16 (fb.byteAt 5 0) (fb.byteAt 5 1) = g.srcPort
    rw [hbyte (by omega), hbyte (by omega), hsp]
  · show be16 (fb.byteAt 5 2) (fb.byteAt 5 3) = _
    rw [hbyte (by omega), hbyte (by omega), ← hdp, hport]
  · show packWord (fb.byteAt 5 4) (fb.byteAt 5 5) (fb.byteAt 5 6) (fb.byteAt 5 7) = g.seq
    rw [hbyte (by omega), hbyte (by omega), hbyte (by omega), hbyte (by omega), hseq]
  · show packWord (fb.byteAt 5 8) (fb.byteAt 5 9) (fb.byteAt 5 10) (fb.byteAt 5 11) = g.ack
    rw [hbyte (by omega), hbyte (by omega), hbyte (by omega), hbyte (by omega), hack]
  · show fb.byteAt 5 13 = g.flags
    rw [hbyte (by omega), hflags]
  · show (ipRx.totalLen - ipHeaderBytes - (tcpParse ipRx fb).doff.setWidth 16 * 4).toNat = _
    have hheader : ((tcpParse ipRx fb).doff.setWidth 16 * 4).toNat = g.dataOffset * 4 := by
      rw [BitVec.toNat_mul, BitVec.toNat_setWidth, hdoff]
      show g.dataOffset % 2 ^ 16 * 4 % 2 ^ 16 = _
      omega
    have htlen : (ipRx.totalLen - ipHeaderBytes).toNat = p.data.length := by
      rw [BitVec.toNat_sub, htotal, show ipHeaderBytes.toNat = 20 from rfl]
      omega
    rw [BitVec.toNat_sub, hheader, htlen, hcount]
    have htlenLt : p.data.length < 2 ^ 16 := htlen ▸ (ipRx.totalLen - ipHeaderBytes).isLt
    omega
  · intro k hk
    have hword : (tcpParse ipRx fb).payloadByte fb k = fb.byteAt 5 (g.dataOffset * 4 + k) := by
      unfold TcpSeg.payloadByte
      rw [hdoff]
      exact (Mem.byteAt_add fb 5 g.dataOffset k).symm
    rw [hword, hdata _ (by omega), hrest, List.getD_eq_getElem?_getD, List.getD_eq_getElem?_getD,
      List.getElem?_drop]

/-! ## §2. The pass of a segment. -/

section Last

variable {pacing : U32} {n : Nat} {f : TaggedFrame} {s : UdpEcho} {i : PassIn}

/-- **Data that reception queues** is sent by the maintenance call of the same pass. -/
theorem LastByte.postsBehind (h : LastByte pacing n f s i) {t : TcpState}
    (hreceive : s.afterReceive i = { s.staged i with tcp := t }) (hdue : t.retransDue = false)
    (hqueued : t.qOff < t.qLen) :
    let m := tcpFlush i.uninit t s.shared
    m.1.Quiet → m.2.txReq.request = true → m.2.txReq.insertVlan = false →
      Posted pacing n (udpEcho pacing s i).1 ∧ (udpEcho pacing s i).1.shared = m.2
        ∧ (udpEcho pacing s i).1.tcp = m.1 := by
  intro m hquiet hpending htag
  obtain ⟨fb, rx, x, hstaged, hrx, hx, -⟩ := h.staged
  have hr := h.rests
  have hearly := hr.early
  obtain ⟨-, -, hbusy, -⟩ := hr.macTx (i := i) h.reset
  rw [hstaged] at hreceive
  have hdhcp : s.afterDhcp i = s.afterReceive i := hr.toCalm.afterDhcp h.reset
  have hopen : (!(s.afterDhcp i).shared.txReq.request && !s.busyIn i) = true := by
    rw [hdhcp, hreceive, hbusy]
    show (!s.shared.txReq.request && !false) = true
    rw [hr.free]
    rfl
  -- the builder has nothing to do
  have hcount : s.udpTx.timeCnt.toNat + 1 < pacing.toNat := by omega
  have hudp : s.afterUdp pacing i = { s.afterReceive i with
      udpTx := { s.udpTx with timeCnt := s.udpTx.timeCnt + 1 }
      request := { s.request with dataReceived := false } } := by
    unfold UdpEcho.afterUdp UdpEcho.runUdpTx
    rw [if_pos hopen, hdhcp, h.reset, hreceive, udpTx_early hr.noEcho hcount]
  -- the maintenance call sends
  have htcp : s.afterTcp pacing i = { s.afterUdp pacing i with tcp := m.1, shared := m.2 } := by
    have hflush : tcpMaintenance i.uninit t s.shared = m :=
      tcpMaintenance_flush i.uninit hdue ⟨hqueued, hr.free⟩
    unfold UdpEcho.afterTcp UdpEcho.runTcpMaintenance
    rw [hudp, hreceive, hbusy]
    dsimp only
    rw [hr.free, hflush]
    rfl
  obtain ⟨st, rep, last, hpass⟩ := udpEcho_eq pacing s i
  rw [htcp, hudp, hreceive] at hpass
  rw [hpass]
  refine ⟨⟨⟨hr.init, hr.dhcp, rfl, hquiet, htag, ?_⟩, hx, hpending, hrx, rfl⟩, rfl, rfl⟩
  show (s.udpTx.timeCnt + 1).toNat + n < pacing.toNat
  rw [(tick_early pacing (c := s.udpTx.timeCnt) (by omega)).2]
  omega

/-- **A segment.** -/
theorem LastByte.segment (h : LastByte pacing n f s i) {p : Inet.Ipv4Packet} {g : Inet.TcpSegment}
    (hin : (Request.segment p g).In f) (hexp : (Request.segment p g).Expected s.responder) :
    ∃ reply, (Request.segment p g).Answered s.responder reply
      ∧ Leaves pacing n s i reply (s.responder.next (.segment p g)) := by
  obtain ⟨hp, hproto, hg, hport⟩ := hin
  have hholds := hp.segment hproto hg hport h.bytes
  obtain ⟨hvalid, hprotocol, -, -, -⟩ := hp.ipRx h.bytes
  obtain ⟨_, _, _, hstaged, -⟩ := h.staged
  have hreceive := h.receiveIp hp.ethertype
  generalize ipRxProcess true f.report (s.staged i).frameBuf = ipRx at *
  have hserves := h.rests.quiet.serves i.uninit s.shared hholds hexp
  have hshared : (s.staged i).shared = s.shared := by rw [hstaged]
  rw [UdpEcho.receiveIp, hvalid, hprotocol, hproto, if_neg (by simp), if_neg (by decide), if_neg (by decide),
    if_pos rfl, h.reset, hshared, h.tcpKept] at hreceive
  change TcpServes (sender p g) (s.responder.serve p g) s.shared _ at hserves
  generalize tcpRxProcess i.uninit true ipRx (s.staged i).frameBuf s.tcp s.shared = r at *
  change s.afterReceive i = { s.staged i with tcp := r.1, shared := r.2 } at hreceive
  -- a reply that was posted, as the responder sends it
  have hreplies : ∀ (reply : EchoServer.Reply) (t : TcpState) (sh : Shared),
      (s.responder.serve p g).2 = some reply → t.table = (s.responder.serve p g).1 →
      TcpReply (sender p g) reply s.shared sh → Posted pacing n (udpEcho pacing s i).1 →
      (udpEcho pacing s i).1.shared = sh → (udpEcho pacing s i).1.tcp = t →
      ∃ frame, (Request.segment p g).Answered s.responder frame
        ∧ Leaves pacing n s i frame (s.responder.next (.segment p g)) := by
    intro reply t sh hsome htable hsends hposted hposts htcp
    obtain ⟨segment, hlength, hpacket, hip, hread⟩ := hsends.packet
    have hleaves := Leaves.replies hposted hposts htcp hsends.mac hsends.ethertype rfl
    have hnext : s.responder.next (.segment p g) = { arp := sh.arp, tcp := t.table } := by
      rw [Responder.next_segment, hsome, hsends.arp, htable]
      rfl
    rw [hnext]
    exact ⟨_, .inr ⟨reply, _, segment, hsome, rfl, hpacket, hlength, hip, hread⟩, hleaves⟩
  cases hserves with
  | silent hnone hkept hquiet htable =>
      have hnext : s.responder.next (.segment p g) = { arp := s.shared.arp, tcp := r.1.table } := by
        rw [Responder.next_segment, hnone, htable]
        rfl
      rw [hnext]
      refine ⟨none, .inl ⟨hnone, rfl⟩, h.quietTcp ?_ hquiet⟩
      rw [hreceive, hkept, ← hshared]
  | posts reply hsome hquiet htable hsends =>
      obtain ⟨hposted, hposts, htcp⟩ := h.postsTcp hreceive hquiet hsends.pending
        (hsends.untouched.trans h.rests.untagged)
      exact hreplies reply _ _ hsome htable hsends hposted hposts htcp
  | waits reply hsome hkept hdue hqueued hflushes =>
      obtain ⟨hquiet, htable, hsends⟩ := hflushes i.uninit s.shared
      rw [hkept, ← hshared] at hreceive
      obtain ⟨hposted, hposts, htcp⟩ := h.postsBehind hreceive hdue hqueued hquiet hsends.pending
        (hsends.untouched.trans h.rests.untagged)
      exact hreplies reply _ _ hsome htable hsends hposted hposts htcp

/-! ## §3. Every request. -/

/-- **The stack answers** any request that is expected, as the responder does. -/
theorem LastByte.answers (h : LastByte pacing n f s i) {r : Request} (hin : r.In f)
    (hexp : r.Expected s.responder) :
    ∃ reply, r.Answered s.responder reply ∧ Leaves pacing n s i reply (s.responder.next r) := by
  cases r with
  | arp q => exact h.arp hin
  | ping p => exact h.ping hin
  | query p => exact h.query hin
  | datagram p => exact h.datagram hin
  | segment p g => exact h.segment hin hexp
  | dropped => exact ⟨none, rfl, h.dropped hin⟩

end Last

end GigabitTcp
