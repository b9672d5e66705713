/-
  GigabitTcp.Stack.LastByte — the pass of a frame's last byte, at rest.

  In this pass the frame is staged whole and dispatched.  A reply of reception closes the gates
  behind it, that of the UDP builder is posted in the same pass, and what is dropped leaves the stack
  at rest.

  Main results:
    * `PacketFor.ipRx` — `ip_rx_process` reads a packet as its receiver does,
    * `LastByte.arp`, `LastByte.ping`, `LastByte.query`, `LastByte.datagram`, `LastByte.dropped` —
      what the responder does, frame by frame.
-/
import GigabitTcp.Stack.IcmpReply
import GigabitTcp.Stack.Responder
import GigabitTcp.Stack.Rest

namespace GigabitTcp

open Hw Machine

/-! ## §1. The staged frame. -/

section Staged

variable {f : TaggedFrame} {p : Inet.Ipv4Packet} {fb : Mem U32}

/-- The packet fills the payload up to its total length. -/
theorem PacketFor.data (h : PacketFor f p) :
    p.data.length + 20 = p.totalLen ∧ p.totalLen ≤ f.payload.length
      ∧ ∀ k, k < p.data.length → p.data.getD k 0 = f.payload.getD (20 + k) 0 := by
  obtain ⟨-, -, -, -, -, hmin, hfit, hdata⟩ := Inet.ipv4?_some h.packet h.plain
  have hlen : p.data.length + 20 = p.totalLen := by
    rw [hdata, List.length_drop, List.length_take]
    omega
  refine ⟨hlen, hfit, ?_⟩
  intro k hk
  rw [hdata, List.getD_eq_getElem?_getD, List.getElem?_drop, List.getElem?_take_of_lt (by omega),
    ← List.getD_eq_getElem?_getD]

/-- **`ip_rx_process` reads the packet**, as its receiver does. -/
theorem PacketFor.ipRx (h : PacketFor f p)
    (hbytes : ∀ j, j < f.payload.length → fb.byteAt 0 j = f.payload.getD j 0) :
    let ipRx := ipRxProcess true f.report fb
    ipRx.valid = true ∧ ipRx.protocol = p.protocol ∧ ipRx.srcIp = p.src
      ∧ ipRx.totalLen.toNat = p.totalLen
      ∧ ∀ k, k < p.data.length → fb.byteAt 5 k = p.data.getD k 0 := by
  obtain ⟨hsum, hsrc, hdst, hproto, htotal, hmin, hfit, -⟩ := Inet.ipv4?_some h.packet h.plain
  obtain ⟨hlen, -, hdata⟩ := h.data
  have hbyte : ∀ {k : Nat}, k < 20 → f.payload.getD k 0 = fb.byteAt 0 k :=
    fun hk => (hbytes _ (by omega)).symm
  have htaken : f.payload.take 20 = (List.range (10 * 2)).map (fb.byteAt 0) :=
    take_eq_map_range (by omega) fun k hk => hbyte hk
  have hchecksum : (ipFields fb).checksumOk = true := by
    show (onesComplementChecksum (be16Words (fb.byteAt 0) 10) == 0) = true
    rw [htaken, ← toNat_onesComplementChecksum_be16Words _ (by omega)] at hsum
    rw [beq_iff_eq]
    exact BitVec.eq_of_toNat_eq hsum
  have haddr : (ipFields fb).dstIp = p.dst := by
    rw [hdst, hbyte (by omega), hbyte (by omega), hbyte (by omega), hbyte (by omega)]
    rfl
  have hplain := h.plain
  rw [hbyte (by omega)] at hplain
  have hread : ipRxProcess true f.report fb
      = { ipFields fb with valid := true, bufBase := f.report.bufBase } := by
    have htype : f.report.ethertype = ethertypeIpv4 := h.ethertype
    have hvalid : f.report.valid = true := rfl
    unfold ipRxProcess
    rw [hvalid, htype, hplain, if_neg (by decide), if_neg (by decide), if_neg (by decide),
      if_neg (by decide), if_neg (by decide)]
    dsimp only
    rw [haddr, if_pos h.dst, hchecksum]
  rw [hbyte (by omega), hbyte (by omega), hbyte (by omega), hbyte (by omega)] at hsrc
  rw [hbyte (by omega), hbyte (by omega)] at htotal
  rw [hbyte (by omega)] at hproto
  intro ipRx
  have hipRx : ipRx = _ := hread
  rw [hipRx]
  refine ⟨rfl, hproto.symm, hsrc.symm, htotal.symm, ?_⟩
  intro k hk
  rw [hdata k hk, ← hbytes _ (by omega)]
  exact (Mem.byteAt_add fb 0 5 k).symm

/-- A refused header is no valid packet. -/
theorem ipRx_refused (h : Refused f.payload)
    (hbytes : ∀ j, j < f.payload.length → fb.byteAt 0 j = f.payload.getD j 0) :
    (ipRxProcess true f.report fb).valid = false := by
  obtain ⟨hlen, hno⟩ := h
  have hbyte : ∀ {k : Nat}, k < 20 → f.payload.getD k 0 = fb.byteAt 0 k :=
    fun hk => (hbytes _ (by omega)).symm
  have htaken : f.payload.take 20 = (List.range (10 * 2)).map (fb.byteAt 0) :=
    take_eq_map_range (by omega) fun k hk => hbyte hk
  rw [Bool.eq_false_iff]
  intro hvalid
  apply hno
  unfold ipRxProcess at hvalid
  dsimp only at hvalid
  split_ifs at hvalid with h1 h2 h3 h4 h5 h6
  · have hplain : fb.byteAt 0 0 = 0x45 := by
      have hhigh := congrArg BitVec.toNat (not_not.mp h4)
      have hlow := congrArg BitVec.toNat (not_not.mp h5)
      rw [BitVec.toNat_ushiftRight, Nat.shiftRight_eq_div_pow] at hhigh
      rw [BitVec.toNat_and, show (0xF#8).toNat = 2 ^ 4 - 1 from rfl, Nat.and_two_pow_sub_one_eq_mod] at hlow
      apply BitVec.eq_of_toNat_eq
      show _ = 69
      change _ = 4 at hhigh
      change _ = 5 at hlow
      omega
    have hsum : onesComplementChecksum (be16Words (fb.byteAt 0) 10) = 0 := by simpa [ipFields] using hvalid
    refine ⟨by rw [hbyte (by omega)]; exact hplain, ?_, ?_⟩
    · rw [htaken, ← toNat_onesComplementChecksum_be16Words _ (by omega), hsum]
      rfl
    · rw [hbyte (by omega), hbyte (by omega), hbyte (by omega), hbyte (by omega)]
      exact h6
  · cases hvalid

/-- The fields that `arp_rx_process` reads are those of a receiver. -/
theorem arpFields_read {bytes : List U8} (hlen : 28 ≤ bytes.length)
    (hbytes : ∀ j, j < bytes.length → fb.byteAt 0 j = bytes.getD j 0) :
    let a := arpFields fb
    let q := Inet.arpRead bytes
    a.opcode = q.opcode ∧ a.senderMac = q.senderMac ∧ a.senderIp = q.senderIp ∧ a.targetIp = q.targetIp := by
  have hbyte : ∀ {k : Nat}, k < 28 → fb.byteAt 0 k = bytes.getD k 0 := fun hk => hbytes _ (by omega)
  unfold arpFields Inet.arpRead
  simp (disch := omega) only [hbyte, and_self]

end Staged

/-! ## §2. The pass of the last byte. -/

/-- The last byte of the frame is read in this pass, at rest. -/
structure LastByte (pacing : U32) (n : Nat) (f : TaggedFrame) (s : UdpEcho) (i : PassIn) : Prop where
  rests : Rests pacing (n + 1) s
  reset : i.resetN = true
  report : s.frameIn i = f.report
  macRx : (s.afterMacTx i).macRx.state = .idle
  fifo : (s.staged i).frameFifo = []
  bytes : ∀ j, j < f.payload.length → (s.staged i).frameBuf.byteAt 0 j = f.payload.getD j 0

/-- What the stack remembers, as a responder. -/
def UdpEcho.responder (s : UdpEcho) : Responder := { arp := s.shared.arp, tcp := s.tcp.table }

/-- What such a pass leaves: the reply posted, or a stack at rest. -/
structure Leaves (pacing : U32) (n : Nat) (s : UdpEcho) (i : PassIn) (reply : Option (List U8))
    (σ : Responder) : Prop where
  responder : (udpEcho pacing s i).1.responder = σ
  posted : ∀ w, reply = some w → Posted pacing n (udpEcho pacing s i).1
    ∧ txWire (udpEcho pacing s i).1.shared.txReq (udpEcho pacing s i).1.shared.buffer = w
  rests : reply = none → Rests pacing n (udpEcho pacing s i).1
    ∧ (udpEcho pacing s i).1.macRx.state = .idle ∧ (udpEcho pacing s i).1.frameFifo = []

section Last

variable {pacing : U32} {n : Nat} {f : TaggedFrame} {s : UdpEcho} {i : PassIn}

/-- The staged state, and the dispatch of the frame. -/
theorem LastByte.staged (h : LastByte pacing n f s i) : ∃ fb m x,
    s.staged i = { s with frameBuf := fb, frameFifo := [], macRx := m, macTx := x }
      ∧ m.state = .idle ∧ x.state = .idle ∧ s.afterReceive i = (s.staged i).dispatch i f.report := by
  obtain ⟨hidle, hreq, -, -⟩ := h.rests.macTx (i := i) h.reset
  have hafter := h.rests.afterMacTx h.reset
  rw [hreq] at hafter
  have hmac := h.macRx
  have hfifo := h.fifo
  rw [hafter] at hmac
  have hvalid : (s.frameIn i).valid = true := by
    rw [h.report]
    rfl
  have hstaged : s.staged i = { s.afterMacTx i with
      frameBuf := (s.staged i).frameBuf, frameFifo := (s.staged i).frameFifo } := rfl
  rw [hfifo, hafter] at hstaged
  refine ⟨(s.staged i).frameBuf, _, _, hstaged, hmac, hidle, ?_⟩
  rw [afterReceive_frame hvalid, h.report]

theorem LastByte.tcpKept (h : LastByte pacing n f s i) : (s.staged i).tcp = s.tcp := by
  obtain ⟨_, _, _, hstaged, -⟩ := h.staged
  rw [hstaged]

/-- **A reply posted by reception** closes the gates. -/
theorem LastByte.postsTcp (h : LastByte pacing n f s i) {t : TcpState} {sh : Shared}
    (hreceive : s.afterReceive i = { s.staged i with tcp := t, shared := sh }) (hquiet : t.Quiet)
    (hpending : sh.txReq.request = true) (htag : sh.txReq.insertVlan = false) :
    Posted pacing n (udpEcho pacing s i).1 ∧ (udpEcho pacing s i).1.shared = sh
      ∧ (udpEcho pacing s i).1.tcp = t := by
  obtain ⟨fb, m, x, hstaged, hm, hx, -⟩ := h.staged
  have hclosed : (!(s.afterReceive i).shared.txReq.request && !s.busyIn i) = false := by
    rw [hreceive]
    show (!sh.txReq.request && !s.busyIn i) = false
    rw [hpending]
    rfl
  obtain ⟨st, rep, last, hpass⟩ := h.rests.toCalm.closed h.reset hclosed
  have hr := h.rests
  rw [hreceive, hstaged] at hpass
  rw [hpass]
  have hearly := hr.early
  refine ⟨⟨⟨hr.init, hr.dhcp, hr.noEcho, hquiet, htag, ?_⟩, hx, hpending, hm, rfl⟩, rfl, rfl⟩
  show s.udpTx.timeCnt.toNat + n < pacing.toNat
  omega

/-- The same for what leaves TCP alone. -/
theorem LastByte.posts (h : LastByte pacing n f s i) {sh : Shared}
    (hreceive : s.afterReceive i = { s.staged i with shared := sh }) (hpending : sh.txReq.request = true)
    (htag : sh.txReq.insertVlan = false) :
    Posted pacing n (udpEcho pacing s i).1 ∧ (udpEcho pacing s i).1.shared = sh
      ∧ (udpEcho pacing s i).1.tcp = s.tcp := by
  refine h.postsTcp (hreceive.trans ?_) h.rests.quiet hpending htag
  rw [← h.tcpKept]

/-- **A frame that posts nothing** leaves the stack at rest. -/
theorem LastByte.quietTcp (h : LastByte pacing n f s i) {t : TcpState} {arp : ArpTables}
    (hreceive : s.afterReceive i = { s.staged i with tcp := t, shared.arp := arp }) (hquiet : t.Quiet) :
    Leaves pacing n s i none { arp, tcp := t.table } := by
  obtain ⟨fb, m, x, hstaged, hm, -, -⟩ := h.staged
  rw [hstaged] at hreceive
  obtain ⟨hrest, hmac, hfifo, hshared, htcp, -⟩ := h.rests.opened h.reset (by rw [hreceive])
    (by rw [hreceive]; exact hquiet) (by rw [hreceive])
  refine ⟨?_, fun w hw => (Option.some_ne_none w hw.symm).elim, fun _ => ⟨hrest, ?_, ?_⟩⟩
  · unfold UdpEcho.responder
    rw [hshared, htcp, hreceive]
  · rw [hmac]
    exact h.macRx
  · rw [hfifo, hreceive]

theorem LastByte.quiet (h : LastByte pacing n f s i) (arp : ArpTables)
    (hreceive : s.afterReceive i = { s.staged i with shared.arp := arp }) :
    Leaves pacing n s i none { s.responder with arp } := by
  refine h.quietTcp (hreceive.trans ?_) h.rests.quiet
  rw [← h.tcpKept]

/-- **A posted reply** leaves as an Ethernet frame of what MAC TX reads. -/
theorem Leaves.replies {t : TcpState} {sh : Shared} {mac : U48} {ethertype : U16}
    {packet : List U8} (hposted : Posted pacing n (udpEcho pacing s i).1)
    (hshared : (udpEcho pacing s i).1.shared = sh) (htcp : (udpEcho pacing s i).1.tcp = t)
    (hmac : sh.txReq.dstMac = mac) (htype : sh.txReq.ethertype = ethertype)
    (hreads : macTxReads sh.txReq sh.buffer = packet) :
    Leaves pacing n s i (some (ethernetFrame mac boardMac [] ethertype packet))
      { arp := sh.arp, tcp := t.table } := by
  have htags : txTags sh.txReq = [] := by
    have huntagged := hposted.untagged
    rw [hshared] at huntagged
    unfold txTags
    rw [huntagged]
    rfl
  refine ⟨?_, fun w hw => ⟨hposted, ?_⟩, fun hno => (Option.some_ne_none _ hno).elim⟩
  · unfold UdpEcho.responder
    rw [hshared, htcp]
  rw [hshared, txWire_eq, hmac, htype, hreads, htags]
  exact Option.some.inj hw

/-- MAC TX reads the ARP packet that was written to the scratch region. -/
theorem macTxReads_arp (req : MacTxReq) (m : Mem U32) (packet : List U8)
    (haddr : req.bufAddr.toNat = txScratchBase) (hlen : req.bufLen.toNat = 28)
    (hpacket : packet.length = 28) : macTxReads req (writeArpPacket m packet) = packet := by
  have hbyte : ∀ k, k < 28 → packet.getD k 0 = txByte req (writeArpPacket m packet) k := by
    intro k hk
    unfold txByte writeArpPacket
    rw [haddr, Mem.byteAt_fill_wordOf m txScratchBase 7 (fun k => packet.getD k 0) (by omega)]
  have hwhole := take_eq_map_range hpacket.ge hbyte
  rw [List.take_of_length_le hpacket.le] at hwhole
  rw [macTxReads_eq, hlen]
  exact hwhole.symm

/-- A receiver reads an ARP reply of the board. -/
theorem arp?_reply (m0 m1 m2 m3 m4 m5 i0 i1 i2 i3 : U8) :
    Inet.arp? (arpPacket 2 [m0, m1, m2, m3, m4, m5] [i0, i1, i2, i3]) = some
      { opcode := 2, senderMac := boardMac, senderIp := boardIp
        targetMac := [m0, m1, m2, m3, m4, m5].foldl pushByte 0, targetIp := packWord i0 i1 i2 i3 } := by
  have hop : be16 0 2 = 2 := by decide
  have hmac : boardMacBytes.foldl pushByte (0 : U48) = boardMac := by decide
  have hip : packWord 192 168 100 2 = boardIp := by decide
  rw [Inet.arp?, if_pos ⟨Nat.le_refl 28, rfl⟩, ← hop, ← hmac, ← hip]
  rfl

/-- **An ARP packet.** -/
theorem LastByte.arp (h : LastByte pacing n f s i) {q : Inet.ArpPacket} (hin : (Request.arp q).In f) :
    ∃ reply, (Request.arp q).Answered s.responder reply
      ∧ Leaves pacing n s i reply (s.responder.next (.arp q)) := by
  obtain ⟨htype, hlen, hq⟩ := hin
  obtain ⟨fb, m, x, hstaged, -, -, hdispatch⟩ := h.staged
  have hbytes := h.bytes
  rw [hstaged] at hbytes
  change ∀ j, j < f.payload.length → fb.byteAt 0 j = f.payload.getD j 0 at hbytes
  obtain ⟨hop, hmac, hip, htarget⟩ := arpFields_read hlen hbytes
  rw [hq] at hop hmac hip htarget
  have harp : arpRxProcess true f.report fb s.shared
      = if q.opcode = arpRequest ∧ q.targetIp = boardIp then
          arpReply { s.shared with arp := arpUpdate s.shared.arp q.senderIp q.senderMac } fb
        else { s.shared with arp := arpUpdate s.shared.arp q.senderIp q.senderMac } := by
    have htype' : f.report.ethertype = ethertypeArp := htype
    have hvalid : f.report.valid = true := rfl
    unfold arpRxProcess
    rw [hvalid, htype', if_neg (by simp), if_neg (by simp)]
    dsimp only
    rw [hop, hmac, hip, htarget]
  have hreceive : s.afterReceive i
      = { s.staged i with shared := arpRxProcess true f.report fb s.shared } := by
    rw [hdispatch]
    unfold UdpEcho.dispatch
    rw [if_pos (show f.report.ethertype = ethertypeArp from htype), h.reset, hstaged]
  rw [harp] at hreceive
  by_cases hasks : q.opcode = arpRequest ∧ q.targetIp = boardIp
  · rw [if_pos hasks] at hreceive
    obtain ⟨hposted, hshared, htcp⟩ := h.posts hreceive rfl h.rests.untagged
    have hreads := macTxReads_arp (arpReply s.shared fb).txReq s.shared.buffer
      (arpPacket 2 [fb.byteAt 0 8, fb.byteAt 0 9, fb.byteAt 0 10, fb.byteAt 0 11, fb.byteAt 0 12,
        fb.byteAt 0 13] [fb.byteAt 0 14, fb.byteAt 0 15, fb.byteAt 0 16, fb.byteAt 0 17]) rfl rfl rfl
    refine ⟨_, ?_, Leaves.replies hposted hshared htcp hmac rfl hreads⟩
    rw [Request.answered_arp, if_pos hasks, ← hmac, ← hip]
    exact ⟨_, rfl, rfl, arp?_reply ..⟩
  · rw [if_neg hasks] at hreceive
    refine ⟨none, ?_, h.quiet (arpUpdate s.shared.arp q.senderIp q.senderMac) ?_⟩
    · rw [Request.answered_arp, if_neg hasks]
    · rw [hreceive, hstaged]

/-- **The echo reply in the scratch region**, as its receiver reads it. -/
theorem icmpReply_reads (req : MacTxReq) (buffer fb : Mem U32) {ipRx : IpRx} {len : Nat}
    (hlen : (icmpTotalLen ipRx).toNat = len) (hmin : 8 ≤ len) (hmax : len ≤ 236)
    (haddr : req.bufAddr.toNat = txScratchBase)
    (hbufLen : req.bufLen = ipHeaderBytes + icmpTotalLen ipRx) :
    let packet := macTxReads req (icmpReplyFrame buffer fb ipRx)
    let message := (List.range len).map (icmpReplyBytes (fb.byteAt 5) len)
    packet.length = len + 20 ∧ Inet.ipv4? packet = some
      { src := boardIp, dst := ipRx.srcIp, protocol := ipProtoIcmp, totalLen := len + 20
        data := message } := by
  intro packet message
  have htotal : (ipHeaderBytes + icmpTotalLen ipRx).toNat = 20 + len := by
    rw [BitVec.toNat_add, hlen, show ipHeaderBytes.toNat = 20 from rfl]
    omega
  have hlength : packet.length = 20 + len := by
    rw [← htotal, ← hbufLen]
    exact length_macTxReads _ _
  have hbyte : ∀ k, k < 20 + len →
      packet.getD k 0 = (icmpReplyFrame buffer fb ipRx).byteAt txScratchBase k := by
    intro k hk
    rw [← haddr]
    exact macTxReads_getD _ _ (by rw [hbufLen, htotal]; exact hk)
  have hheader : ∀ k, k < 20 → packet.getD k 0 = ipHeader (ipHeaderBytes + icmpTotalLen ipRx) 0 128
      ipProtoIcmp (wordBytes 4 boardIp) (wordBytes 4 ipRx.srcIp) k := by
    intro k hk
    rw [hbyte k (by omega)]
    exact icmpReplyFrame_header buffer fb ipRx hk
  have hmessage : packet.drop 20 = message := by
    rw [← hlen] at hlength hbyte
    have hdrop := icmpReplyFrame_drop buffer fb ipRx hlength hbyte
    rwa [hlen] at hdrop
  have hreads := ipv4?_ipHeader hheader (by omega) (by omega)
  rw [htotal, List.take_of_length_le hlength.le, hmessage, Nat.add_comm 20] at hreads
  exact ⟨by omega, hreads⟩

/-- The dispatch of a packet, at rest. -/
theorem LastByte.receiveIp (h : LastByte pacing n f s i) (htype : f.ethertype = ethertypeIpv4) :
    s.afterReceive i
      = (s.staged i).receiveIp i (ipRxProcess true f.report (s.staged i).frameBuf) := by
  obtain ⟨_, _, _, -, -, -, hdispatch⟩ := h.staged
  have htype' : f.report.ethertype = ethertypeIpv4 := htype
  rw [hdispatch]
  unfold UdpEcho.dispatch
  rw [htype', if_neg (by decide), if_pos rfl, h.reset]

/-- **A ping.** -/
theorem LastByte.ping (h : LastByte pacing n f s i) {p : Inet.Ipv4Packet} (hin : (Request.ping p).In f) :
    ∃ reply, (Request.ping p).Answered s.responder reply
      ∧ Leaves pacing n s i reply (s.responder.next (.ping p)) := by
  obtain ⟨hp, hproto, htype, hcode, hmin, hmax⟩ := hin
  obtain ⟨hlen, -, -⟩ := hp.data
  obtain ⟨hvalid, hprotocol, hsrc, htotal, hdata⟩ := hp.ipRx h.bytes
  obtain ⟨_, _, _, hstaged, -⟩ := h.staged
  have hreceive := h.receiveIp hp.ethertype
  generalize hipRx : ipRxProcess true f.report (s.staged i).frameBuf = ipRx at *
  have hshared : (s.staged i).shared = s.shared := by rw [hstaged]
  have hecho : icmpIsEcho (s.staged i).frameBuf = true := by
    unfold icmpIsEcho
    rw [hdata 0 (by omega), hdata 1 (by omega), htype, hcode]
    rfl
  have hicmp : icmpRxProcess true ipRx (s.staged i).frameBuf s.shared = Shared.issue
      { s.shared with
        arp := (arpLookup s.shared.arp p.src).2
        buffer := icmpReplyFrame s.shared.buffer (s.staged i).frameBuf ipRx }
      ((arpLookup s.shared.arp p.src).1.getD broadcastMac) ethertypeIpv4 txScratchBase
      (ipHeaderBytes + icmpTotalLen ipRx) := by
    unfold icmpRxProcess
    rw [hvalid, hprotocol, hproto, if_neg (by simp), if_pos hecho, hsrc]
    rfl
  rw [UdpEcho.receiveIp, hvalid, hprotocol, hproto, if_neg (by simp), if_pos rfl, h.reset, hshared, hicmp]
    at hreceive
  obtain ⟨hposted, hposts, htcp⟩ := h.posts hreceive rfl h.rests.untagged
  have hcount : (icmpTotalLen ipRx).toNat = p.data.length := by
    show (ipRx.totalLen - ipHeaderBytes).toNat = _
    rw [BitVec.toNat_sub, htotal, show ipHeaderBytes.toNat = 20 from rfl]
    omega
  obtain ⟨hlength, hreads⟩ := icmpReply_reads (Shared.issue s.shared
    ((arpLookup s.shared.arp p.src).1.getD broadcastMac) ethertypeIpv4 txScratchBase
    (ipHeaderBytes + icmpTotalLen ipRx)).txReq s.shared.buffer (s.staged i).frameBuf hcount hmin hmax rfl rfl
  rw [hlen] at hlength hreads
  rw [hsrc] at hreads
  refine ⟨_, ⟨_, _, rfl, hlength, hreads, by simp, ?_, ?_, ?_⟩,
    Leaves.replies hposted hposts htcp rfl rfl rfl⟩
  · rw [getD_map_range _ _ (by omega), icmpReplyBytes_other _ _ (by omega)]
    rfl
  · exact icmpReplyBytes_verify _ (by omega) (by omega)
  · intro k hk h0 hfield
    rw [getD_map_range _ _ hk, icmpReplyBytes_copied _ _ h0 hfield, hdata k hk]

/-- Both reports are well formed. -/
theorem igmpReport_reads {reportType : U8} (h : reportType = igmpReportV1 ∨ reportType = igmpReportV2) :
    let report := (List.range 8).map (igmpReport reportType)
    Inet.checksum report = 0 ∧ report.getD 0 0 = reportType
      ∧ packWord (report.getD 4 0) (report.getD 5 0) (report.getD 6 0) (report.getD 7 0) = boardMcast := by
  rcases h with rfl | rfl <;> decide

/-- **The report in the scratch region**, as its receiver reads it. -/
theorem igmpReport_packet (req : MacTxReq) (m : Mem U32) (reportType : U8)
    (haddr : req.bufAddr.toNat = txScratchBase) (hlen : req.bufLen.toNat = 28) :
    let packet := macTxReads req (((m.fill (txScratchBase + 5) 2 (Mem.wordOf (igmpReport reportType))).fill
      txScratchBase 5 (Mem.wordOf (ipHeader 28 0 1 ipProtoIgmp boardIpBytes boardMcastBytes))))
    packet.length = 28 ∧ Inet.ipv4? packet = some
      { src := boardIp, dst := boardMcast, protocol := ipProtoIgmp, totalLen := 28
        data := (List.range 8).map (igmpReport reportType) } := by
  intro packet
  have hlength : packet.length = 28 := (length_macTxReads _ _).trans hlen
  have hheader : ∀ k, k < 20 → packet.getD k 0
      = ipHeader 28 0 1 ipProtoIgmp (wordBytes 4 boardIp) (wordBytes 4 boardMcast) k := by
    intro k hk
    refine (macTxReads_getD _ _ (by omega)).trans ?_
    unfold txByte
    rw [haddr]
    exact Mem.byteAt_fill_wordOf _ _ _ _ (by omega)
  have hreport : ∀ k, k < 8 → packet.getD (20 + k) 0 = igmpReport reportType k := by
    intro k hk
    refine (macTxReads_getD _ _ (by omega)).trans ?_
    unfold txByte
    rw [haddr, show 20 + k = 5 * 4 + k from rfl, Mem.byteAt_add]
    refine (Mem.byteAt_congr (Mem.fill_outside _ _ (by omega))).trans ?_
    exact Mem.byteAt_fill_wordOf _ _ _ _ (by omega)
  have hdrop : packet.drop 20 = (List.range 8).map (igmpReport reportType) := by
    have hwhole := take_eq_map_range (d := 0) (n := 8) (l := packet.drop 20)
      (f := igmpReport reportType) (by rw [List.length_drop]; omega) (fun k hk => by
        rw [List.getD_eq_getElem?_getD, List.getElem?_drop, ← List.getD_eq_getElem?_getD]
        exact hreport k hk)
    rwa [List.take_of_length_le (by rw [List.length_drop]; omega)] at hwhole
  have hreads := ipv4?_ipHeader hheader (by decide) hlength.ge
  have hwhole : packet.take (28 : U16).toNat = packet := List.take_of_length_le hlength.le
  rw [hwhole, hdrop] at hreads
  exact ⟨hlength, hreads⟩

/-- The test of `igmp_rx_process` on the staged message. -/
theorem igmpShouldRespond_iff {fb : Mem U32} {data : List U8} (hlen : 8 ≤ data.length)
    (hdata : ∀ k, k < data.length → fb.byteAt 5 k = data.getD k 0) :
    igmpShouldRespond fb = true ↔ AsksGroup data := by
  unfold igmpShouldRespond AsksGroup
  dsimp only
  rw [hdata 0 (by omega), hdata 4 (by omega), hdata 5 (by omega), hdata 6 (by omega), hdata 7 (by omega),
    Bool.and_eq_true, Bool.or_eq_true, beq_iff_eq, beq_iff_eq, beq_iff_eq]

/-- **A membership query.** -/
theorem LastByte.query (h : LastByte pacing n f s i) {p : Inet.Ipv4Packet} (hin : (Request.query p).In f) :
    ∃ reply, (Request.query p).Answered s.responder reply
      ∧ Leaves pacing n s i reply (s.responder.next (.query p)) := by
  obtain ⟨hp, hproto, hlen, hasks⟩ := hin
  obtain ⟨hvalid, hprotocol, -, -, hdata⟩ := hp.ipRx h.bytes
  obtain ⟨_, _, _, hstaged, -⟩ := h.staged
  have hreceive := h.receiveIp hp.ethertype
  generalize ipRxProcess true f.report (s.staged i).frameBuf = ipRx at *
  have hshared : (s.staged i).shared = s.shared := by rw [hstaged]
  have htype : igmpReportType (s.staged i).frameBuf
      = if p.data.getD 1 0 = 0 then igmpReportV1 else igmpReportV2 := by
    unfold igmpReportType
    rw [hdata 1 (by omega)]
  have higmp : igmpRxProcess true ipRx (s.staged i).frameBuf s.shared = Shared.issue
      { s.shared with
        buffer := (s.shared.buffer.fill (txScratchBase + 5) 2
            (Mem.wordOf (igmpReport (igmpReportType (s.staged i).frameBuf)))).fill txScratchBase 5
          (Mem.wordOf (ipHeader 28 0 1 ipProtoIgmp boardIpBytes boardMcastBytes)) }
      broadcastMac ethertypeIpv4 txScratchBase 28 := by
    unfold igmpRxProcess
    rw [hvalid, hprotocol, hproto, if_neg (by simp), if_pos ((igmpShouldRespond_iff hlen hdata).mpr hasks)]
    rfl
  rw [UdpEcho.receiveIp, hvalid, hprotocol, hproto, if_neg (by simp), if_neg (by decide), if_pos rfl, h.reset,
    hshared, higmp] at hreceive
  obtain ⟨hposted, hposts, htcp⟩ := h.posts hreceive rfl h.rests.untagged
  obtain ⟨hlength, hreads⟩ := igmpReport_packet
    (Shared.issue s.shared broadcastMac ethertypeIpv4 txScratchBase 28).txReq s.shared.buffer
    (igmpReportType (s.staged i).frameBuf) rfl rfl
  have hkinds : igmpReportType (s.staged i).frameBuf = igmpReportV1
      ∨ igmpReportType (s.staged i).frameBuf = igmpReportV2 := by
    unfold igmpReportType
    split
    · exact .inl rfl
    · exact .inr rfl
  obtain ⟨hsum, hkind, hgroup⟩ := igmpReport_reads hkinds
  have hleaves := Leaves.replies hposted hposts htcp rfl rfl rfl
  refine ⟨_, ⟨_, _, rfl, hlength, hreads, by simp, hsum, ?_, hgroup⟩, hleaves⟩
  rw [hkind, htype]

/-- A datagram for the echo port is staged. -/
theorem LastByte.stages (h : LastByte pacing n f s i) {p : Inet.Ipv4Packet}
    (hin : (Request.datagram p).In f) : StagesRequest s i p := by
  obtain ⟨hp, hproto, hport, hlen, hmin, hmax⟩ := hin
  obtain ⟨htotal, hfit, -⟩ := hp.data
  obtain ⟨hsum, hsrc, hdst, hprotocol, htotalLen, -, -, hdata⟩ := Inet.ipv4?_some hp.packet hp.plain
  have hlength : (s.staged i).stagedBytes.length = 1600 := by
    unfold UdpEcho.stagedBytes
    rw [List.length_map, List.length_range]
    rfl
  have hbyte : ∀ {k : Nat}, k < p.totalLen →
      (s.staged i).stagedBytes.getD k 0 = f.payload.getD k 0 := by
    intro k hk
    rw [stagedBytes_getD _ (by omega), h.bytes k (by omega)]
  have htake : ∀ {k : Nat}, k ≤ p.totalLen → (s.staged i).stagedBytes.take k = f.payload.take k := by
    intro k hk
    rw [take_eq_map_range (d := 0) (by omega) (fun j hj => hbyte (by omega)),
      take_eq_map_range (d := 0) (f := fun j => f.payload.getD j 0) (by omega) (fun _ _ => rfl)]
  have hpacket : Inet.ipv4? (s.staged i).stagedBytes = some p := by
    have hread := @Inet.ipv4?_eq (s.staged i).stagedBytes
      (be16 (f.payload.getD 2 0) (f.payload.getD 3 0))
      ((hbyte (by omega)).trans hp.plain) (by rw [hbyte (by omega), hbyte (by omega)]) (by omega) (by omega)
      (by rw [htake (by omega), hsum])
    rw [hread, hbyte (by omega), hbyte (by omega), hbyte (by omega), hbyte (by omega), hbyte (by omega),
      hbyte (by omega), hbyte (by omega), hbyte (by omega), hbyte (by omega), ← hsrc, ← hdst, ← hprotocol,
      ← htotalLen, htake (Nat.le_refl _), ← hdata]
  refine ⟨?_, ?_, hpacket, (hbyte (by omega)).trans hp.plain, hproto, hp.dst, hport, ?_, ?_, ?_⟩
  · rw [h.report]
    rfl
  · rw [h.report]
    exact hp.ethertype
  · rw [hlen, htotal]
  · rwa [hlen]
  · rwa [hlen]

/-- **A datagram.** -/
theorem LastByte.datagram (h : LastByte pacing n f s i) {p : Inet.Ipv4Packet}
    (hin : (Request.datagram p).In f) :
    ∃ reply, (Request.datagram p).Answered s.responder reply
      ∧ Leaves pacing n s i reply (s.responder.next (.datagram p)) := by
  have hstages := h.stages hin
  obtain ⟨-, -, -, hlen, -, -⟩ := hin
  obtain ⟨fb, m, x, hstaged, hm, hx, -⟩ := h.staged
  have hr := h.rests
  have hearly := hr.early
  have hdhcp : ¬ DhcpSends i.resetN (s.afterMacTx i).dhcp := by
    have hclient : (s.afterMacTx i).dhcp = s.dhcp := by rw [hr.afterMacTx h.reset]
    rw [hclient]
    exact dhcpSends_over hr.dhcp
  obtain ⟨hcaptures, hsrc, -⟩ := hstages.captured
  obtain ⟨hechoes, -, -⟩ := hstages.echoes hr.idle hr.free hdhcp
  obtain ⟨arp, u', -, -, hsh⟩ := hstages.posts pacing hr.idle hr.free hdhcp
  obtain ⟨hlength, -, hip, hudp⟩ := hstages.reply_reads pacing hr.idle hr.free hdhcp
  -- the state behind the builder
  have hreceive := afterReceive_captures hcaptures
  have hcalled : (!(s.afterDhcp i).shared.txReq.request && !s.busyIn i) = true := hechoes.2.1
  have htcp : s.afterTcp pacing i = s.afterUdp pacing i := by
    refine hr.toCalm.afterTcp h.reset ?_
    rw [hreceive, hstaged]
    exact hr.quiet
  obtain ⟨st, rep, last, hpass⟩ := udpEcho_eq pacing s i
  have hudpTx : s.afterUdp pacing i = { s.afterReceive i with
      udpTx := (udpTxProcess pacing true (s.afterReceive i).request s.udpTx (s.afterReceive i).shared).1
      shared := (udpTxProcess pacing true (s.afterReceive i).request s.udpTx (s.afterReceive i).shared).2
      request := { (s.afterReceive i).request with dataReceived := false } } := by
    have hsame : (s.afterReceive i).udpTx = s.udpTx := by
      rw [hreceive, hstaged]
      rfl
    unfold UdpEcho.afterUdp UdpEcho.runUdpTx
    rw [if_pos hcalled, h.reset, hr.toCalm.afterDhcp h.reset, hsame]
  obtain ⟨htick, harp, htag⟩ := udpTx_early_echo pacing (u := s.udpTx) hechoes.2.2 (by omega)
    (s.afterReceive i).shared
  rw [htcp, hudpTx] at hpass
  have hip' : (s.afterReceive i).request.rxSrcIp = p.src := by
    rw [afterReceive_request, if_pos hcaptures, ← hsrc]
    rfl
  have hcopied : (s.afterReceive i).shared.arp = s.shared.arp
      ∧ (s.afterReceive i).shared.txReq = s.shared.txReq := by
    rw [hreceive, hstaged]
    exact ⟨rfl, rfl⟩
  rw [hip', hcopied.1] at harp
  rw [hcopied.2] at htag
  have harp' : (udpEcho pacing s i).1.shared.arp = (arpLookup s.shared.arp p.src).2 := by
    rw [hpass]
    exact harp
  have hposted : Posted pacing n (udpEcho pacing s i).1 := by
    have hpending : (udpEcho pacing s i).1.shared.txReq.request = true := by
      rw [hsh]
      rfl
    refine ⟨?_, ?_, hpending, ?_, ?_⟩
    · rw [hpass, hreceive, hstaged]
      rw [hreceive, hstaged] at htick htag
      refine ⟨hr.init, hr.dhcp, rfl, hr.quiet, htag.trans hr.untagged, ?_⟩
      show BitVec.toNat (UdpTx.timeCnt _) + n < pacing.toNat
      rw [htick, (tick_early pacing (c := s.udpTx.timeCnt) (by omega)).2]
      omega
    · rw [hpass, hreceive, hstaged]
      exact hx
    · rw [hpass, hreceive, hstaged]
      exact hm
    · rw [hpass, hreceive, hstaged]
      rfl
  have hkept : (udpEcho pacing s i).1.tcp = s.tcp := by
    rw [hpass, hreceive, hstaged]
    rfl
  have hleaves : Leaves pacing n s i (some (ethernetFrame ((arpLookup s.shared.arp p.src).1.getD broadcastMac)
      boardMac [] ethertypeIpv4 _)) _ :=
    Leaves.replies hposted rfl hkept (by rw [hsh]; rfl) (by rw [hsh]; rfl) rfl
  rw [harp'] at hleaves
  rw [hlen] at hudp
  exact ⟨_, ⟨_, _, rfl, hlength, hip, hudp⟩, hleaves⟩

/-- **Everything else** is dropped. -/
theorem LastByte.dropped (h : LastByte pacing n f s i) (hin : Request.dropped.In f) :
    Leaves pacing n s i none s.responder := by
  obtain ⟨fb, m, x, hstaged, -, -, hdispatch⟩ := h.staged
  refine h.quiet s.shared.arp ?_
  -- reception leaves the stack as staged
  suffices hsame : s.afterReceive i = s.staged i by rw [hsame, hstaged]
  rcases hin with ⟨harp, hip⟩ | ⟨htype, hrefused⟩ | ⟨p, hp, htcp, hicmp, higmp, hudp⟩
  · have harp' : f.report.ethertype ≠ ethertypeArp := harp
    have hip' : f.report.ethertype ≠ ethertypeIpv4 := hip
    rw [hdispatch]
    unfold UdpEcho.dispatch
    rw [if_neg harp', if_neg hip']
  · rw [h.receiveIp htype, UdpEcho.receiveIp, ipRx_refused hrefused h.bytes]
    rfl
  · obtain ⟨hvalid, hprotocol, -, -, hdata⟩ := hp.ipRx h.bytes
    rw [h.receiveIp hp.ethertype]
    generalize ipRxProcess true f.report (s.staged i).frameBuf = ipRx at *
    rw [UdpEcho.receiveIp, hvalid, if_neg (by simp)]
    by_cases hping : ipRx.protocol = ipProtoIcmp
    · obtain ⟨hlen, hno⟩ := hicmp (hprotocol.symm.trans hping)
      have hecho : icmpIsEcho (s.staged i).frameBuf = false := by
        unfold icmpIsEcho
        rw [hdata 0 (by omega), hdata 1 (by omega), Bool.and_eq_false_iff]
        rw [not_and_or] at hno
        exact hno.imp beq_eq_false_iff_ne.mpr beq_eq_false_iff_ne.mpr
      have hkept : icmpRxProcess i.resetN ipRx (s.staged i).frameBuf (s.staged i).shared
          = (s.staged i).shared := by
        unfold icmpRxProcess
        rw [hecho]
        split <;> rfl
      rw [if_pos hping, hkept]
    rw [if_neg hping]
    by_cases hquery : ipRx.protocol = ipProtoIgmp
    · obtain ⟨hlen, hno⟩ := higmp (hprotocol.symm.trans hquery)
      have hkept : igmpRxProcess i.resetN ipRx (s.staged i).frameBuf (s.staged i).shared
          = (s.staged i).shared := by
        unfold igmpRxProcess
        rw [if_neg (fun hyes => hno ((igmpShouldRespond_iff hlen hdata).mp hyes))]
        split <;> rfl
      rw [if_pos hquery, hkept]
    rw [if_neg hquery]
    by_cases hsegment : ipRx.protocol = ipProtoTcp
    · obtain ⟨hlen, hport⟩ := htcp (hprotocol.symm.trans hsegment)
      have hother : (tcpParse ipRx (s.staged i).frameBuf).dp ≠ tcpPortEcho := by
        show be16 ((s.staged i).frameBuf.byteAt 5 2) ((s.staged i).frameBuf.byteAt 5 3) ≠ tcpPortEcho
        rw [hdata 2 (by omega), hdata 3 (by omega)]
        exact hport
      have hkept : tcpRxProcess i.uninit i.resetN ipRx (s.staged i).frameBuf (s.staged i).tcp
          (s.staged i).shared = ((s.staged i).tcp, (s.staged i).shared) := by
        unfold tcpRxProcess
        rw [h.reset, hvalid, hsegment, if_neg (by simp), if_neg (by simp)]
        exact if_pos hother
      rw [if_pos hsegment, hkept]
    · rw [if_neg hsegment]
      by_cases hdatagram : ipRx.protocol = ipProtoUdp
      · obtain ⟨hlen, hport⟩ := hudp (hprotocol.symm.trans hdatagram)
        have hother : (udpFields (s.staged i).frameBuf).dstPort ≠ udpPort := by
          show be16 ((s.staged i).frameBuf.byteAt 5 2) ((s.staged i).frameBuf.byteAt 5 3) ≠ udpPort
          rw [hdata 2 (by omega), hdata 3 (by omega)]
          exact hport
        have hno : (udpRxProcess i.resetN ipRx (s.staged i).frameBuf).valid = false := by
          unfold udpRxProcess
          rw [h.reset, hvalid, hdatagram, if_neg (by simp), if_neg (by simp), if_neg (by simp), if_pos hother]
          rfl
        rw [if_pos hdatagram, UdpEcho.receiveUdp, hno]
        rfl
      · rw [if_neg hdatagram]

end Last

end GigabitTcp
