/-
  GigabitTcp.Stack.UdpReply — the echo of a datagram, from the staged frame to the wire.

  Both ends are read by a receiver: the request in the words of `frame_buf`, the reply in the
  bytes that MAC TX puts out.  In between the payload is copied word by word, its last word
  perhaps half empty, seven words of header are written in front of it, and MAC TX takes the
  frame apart again while the DHCP client may write to its own words.

  Main results:
    * `StagesRequest.captured` — a request is captured with the fields a receiver reads,
    * `StagesRequest.posts`    — the pass that completes it posts the reply,
    * `posted_is_sent`         — passes without input put a posted frame out,
    * `udp_echo_reply`         — the reply, as its receiver reads it.
-/
import GigabitTcp.Stack.UdpRequests

namespace GigabitTcp

open Hw Machine

/-! ## §1. The request. -/

/-- The bytes of `frame_buf`. -/
def UdpEcho.stagedBytes (s : UdpEcho) : List U8 :=
  (List.range (frameBufWords * 4)).map (s.frameBuf.byteAt 0)

/-- **A UDP request is staged** in this pass: a packet without options for the board or for
everybody, with a datagram for port 8080 that fills it. -/
structure StagesRequest (s : UdpEcho) (i : PassIn) (p : Inet.Ipv4Packet) : Prop where
  frame : (s.frameIn i).valid = true
  ethertype : (s.frameIn i).ethertype = ethertypeIpv4
  packet : Inet.ipv4? (s.staged i).stagedBytes = some p
  plain : (s.staged i).stagedBytes.getD 0 0 = 0x45
  protocol : p.protocol = ipProtoUdp
  dst : p.dst = boardIp ∨ p.dst = broadcastIp
  port : (Inet.udpRead p.data).dstPort = udpPort
  total : (Inet.udpRead p.data).length + 20 = p.totalLen
  min : 8 ≤ (Inet.udpRead p.data).length
  max : (Inet.udpRead p.data).length ≤ 1004

section Request

variable {s : UdpEcho} {i : PassIn} {p : Inet.Ipv4Packet}

theorem stagedBytes_getD (s : UdpEcho) {k : Nat} (hk : k < 1600) :
    s.stagedBytes.getD k 0 = s.frameBuf.byteAt 0 k :=
  getD_map_range _ _ hk

/-- The datagram stands behind the five words of the IP header. -/
theorem StagesRequest.data (h : StagesRequest s i p) :
    p.data = (List.range (Inet.udpRead p.data).length).map ((s.staged i).frameBuf.byteAt 5) := by
  obtain ⟨-, -, -, -, -, -, hfit, hdata⟩ := Inet.ipv4?_some h.packet h.plain
  have htotal := h.total
  have hlen : (s.staged i).stagedBytes.length = 1600 := by
    unfold UdpEcho.stagedBytes
    rw [List.length_map, List.length_range]
    rfl
  rw [hlen] at hfit
  rw [← htotal, Nat.add_comm] at hdata
  refine hdata.trans ?_
  unfold UdpEcho.stagedBytes
  rw [take_map_range, Nat.min_eq_left (by show _ ≤ 1600; omega), drop_map_range]
  exact List.map_congr_left fun k _ => Mem.byteAt_add _ 0 5 k

theorem StagesRequest.data_getD (h : StagesRequest s i p) {k : Nat} (hk : k < 8) :
    p.data.getD k 0 = (s.staged i).frameBuf.byteAt 5 k := by
  have hmin := h.min
  rw [h.data]
  exact getD_map_range _ _ (by omega)

/-- The header is accepted by `ip_rx_process`. -/
theorem StagesRequest.packetIn (h : StagesRequest s i p) :
    s.packetIn i = { ipFields (s.staged i).frameBuf with
      valid := true, bufBase := (s.frameIn i).bufBase } := by
  obtain ⟨hsum, -, hdst, -⟩ := Inet.ipv4?_some h.packet h.plain
  have hbyte := fun {k : Nat} (hk : k < 20) => stagedBytes_getD (s.staged i) (show k < 1600 by omega)
  have hplain := h.plain
  have htaken : (s.staged i).stagedBytes.take 20
      = (List.range (10 * 2)).map ((s.staged i).frameBuf.byteAt 0) := by
    unfold UdpEcho.stagedBytes
    rw [take_map_range]
    rfl
  have hchecksum : (ipFields (s.staged i).frameBuf).checksumOk = true := by
    show (onesComplementChecksum (be16Words ((s.staged i).frameBuf.byteAt 0) 10) == 0) = true
    rw [htaken, ← toNat_onesComplementChecksum_be16Words _ (by omega)] at hsum
    rw [beq_iff_eq]
    exact BitVec.eq_of_toNat_eq hsum
  have haddr : (ipFields (s.staged i).frameBuf).dstIp = p.dst := by
    rw [hdst, hbyte (by omega), hbyte (by omega), hbyte (by omega), hbyte (by omega)]
    rfl
  rw [hbyte (by omega)] at hplain
  unfold UdpEcho.packetIn ipRxProcess
  rw [resetN_of_frameIn h.frame, h.frame, h.ethertype, hplain, if_neg (by decide), if_neg (by decide),
    if_neg (by decide), if_neg (by decide), if_neg (by decide)]
  dsimp only
  rw [haddr, if_pos h.dst, hchecksum]

/-- **A request is captured**, with the fields that a receiver reads. -/
theorem StagesRequest.captured (h : StagesRequest s i p) :
    s.capturesIn i = true ∧ (s.packetIn i).srcIp = p.src
      ∧ (s.packetIn i).totalLen.toNat = p.totalLen
      ∧ (s.datagramIn i).srcPort = (Inet.udpRead p.data).srcPort
      ∧ (s.datagramIn i).length.toNat = (Inet.udpRead p.data).length := by
  obtain ⟨-, hsrc, -, hproto, htotal, -⟩ := Inet.ipv4?_some h.packet h.plain
  have hbyte := fun {k : Nat} (hk : k < 20) => stagedBytes_getD (s.staged i) (show k < 1600 by omega)
  have hpacket := h.packetIn
  have hudp : (s.packetIn i).protocol = ipProtoUdp := by
    rw [hpacket, ← h.protocol, hproto, hbyte (by omega)]
    rfl
  have hport : (udpFields (s.staged i).frameBuf).dstPort = udpPort := by
    rw [← h.port]
    unfold Inet.udpRead
    dsimp only
    rw [h.data_getD (by omega), h.data_getD (by omega)]
    rfl
  have hdatagram : s.datagramIn i = { udpFields (s.staged i).frameBuf with
      payloadLen := (udpFields (s.staged i).frameBuf).length - udpHeaderBytes
      bufBase := (s.packetIn i).bufBase, valid := true } := by
    unfold UdpEcho.datagramIn udpRxProcess
    rw [resetN_of_frameIn h.frame, hudp, show (s.packetIn i).valid = true by rw [hpacket]]
    simp only [Bool.not_true, Bool.false_eq_true, if_false, ne_eq, not_true_eq_false, hport]
  refine ⟨?_, ?_, ?_, ?_, ?_⟩
  · unfold UdpEcho.capturesIn
    rw [h.frame, hdatagram]
    rfl
  · rw [hpacket, hsrc, hbyte (by omega), hbyte (by omega), hbyte (by omega), hbyte (by omega)]
    rfl
  · rw [hpacket, htotal, hbyte (by omega), hbyte (by omega)]
    rfl
  · rw [hdatagram]
    unfold Inet.udpRead
    dsimp only
    rw [h.data_getD (by omega), h.data_getD (by omega)]
    rfl
  · rw [hdatagram]
    unfold Inet.udpRead
    dsimp only
    rw [h.data_getD (by omega), h.data_getD (by omega)]
    rfl

/-- The payload stands behind the seven words of the headers. -/
theorem StagesRequest.payload (h : StagesRequest s i p) :
    (Inet.udpRead p.data).data
      = (List.range ((Inet.udpRead p.data).length - 8)).map ((s.staged i).frameBuf.byteAt 7) := by
  have hmin := h.min
  have hdata := h.data
  have hall : (Inet.udpRead p.data).data = p.data.drop 8 := by
    show (p.data.take (Inet.udpRead p.data).length).drop 8 = _
    rw [List.take_of_length_le]
    rw [hdata, List.length_map, List.length_range, ← hdata]
  obtain ⟨n, hn⟩ : ∃ n, (Inet.udpRead p.data).length = 8 + n := ⟨_, (Nat.add_sub_cancel' hmin).symm⟩
  rw [hn] at hdata
  rw [hall, hdata, drop_map_range, ← hdata, hn, Nat.add_sub_cancel_left]
  exact List.map_congr_left fun k _ => Mem.byteAt_add _ 5 2 k

/-! ## §2. The reply is posted. -/

/-- **A request is answered at once**: the payload is copied behind the place of the headers,
the DHCP client keeps still, and the gate of the builder is open. -/
theorem StagesRequest.echoes (h : StagesRequest s i p) (hidle : s.macTx.state = .idle)
    (hfree : s.shared.txReq.request = false) (hdhcp : ¬ DhcpSends i.resetN (s.afterMacTx i).dhcp) :
    s.EchoesUdp i ∧ (s.afterMacTx i).macTx.state = .idle
      ∧ (s.afterDhcp i).shared = { s.shared with
        buffer := (s.txBuffer i).fill (txUdpBase + 7) (udpCopyWords (s.datagramIn i))
          (fun k => (s.staged i).frameBuf (7 + k)) } := by
  have hreset : i.resetN = true := resetN_of_frameIn h.frame
  have hcaptures := h.captured.1
  obtain ⟨hmac, hbefore, -, hbusy⟩ := afterMacTx_cycle s i hreset
  obtain ⟨hrests, hout⟩ := macTx_rests hidle hfree (s.txBuffer i)
  rw [hout] at hbefore hbusy
  have hshared : (s.afterReceive i).shared = { s.shared with
      buffer := (s.txBuffer i).fill (txUdpBase + 7) (udpCopyWords (s.datagramIn i))
        (fun k => (s.staged i).frameBuf (7 + k)) } := by
    rw [afterReceive_captures hcaptures]
    unfold UdpEcho.captureUdp UdpEcho.staged UdpEcho.stage
    dsimp only
    rw [hbefore]
  have hsame : (s.afterDhcp i).shared = (s.afterReceive i).shared := by
    unfold UdpEcho.afterDhcp UdpEcho.runDhcpTx
    split
    · rw [← afterReceive_dhcp] at hdhcp
      exact (dhcpTx_writes i.resetN (s.afterReceive i).dhcp (s.afterReceive i).shared).2 hdhcp
    · rfl
  have hcalled : s.callsUdpTx i = true := by
    unfold UdpEcho.callsUdpTx
    rw [hsame, hshared, hbusy]
    show (!s.shared.txReq.request && !false) = true
    rw [hfree]
    rfl
  have hdata : (s.afterReceive i).request.dataReceived = true := by
    rw [afterReceive_request, if_pos hcaptures]
    rfl
  refine ⟨⟨hreset, hcalled, hdata⟩, ?_, hsame.trans hshared⟩
  rw [hmac]
  exact hrests

/-- **The reply is posted** in the pass that completes the request: headers over the copied
payload, for the MAC that the cache has or for everybody. -/
theorem StagesRequest.posts (pacing : U32) (h : StagesRequest s i p) (hidle : s.macTx.state = .idle)
    (hfree : s.shared.txReq.request = false) (hdhcp : ¬ DhcpSends i.resetN (s.afterMacTx i).dhcp) :
    ∃ arp u', u'.txDataLen = (s.datagramIn i).length ∧ u'.txTotal = (s.packetIn i).totalLen
      ∧ (udpEcho pacing s i).1.shared = Shared.issue
        { s.shared with
          arp
          buffer := ((s.txBuffer i).fill (txUdpBase + 7) (udpCopyWords (s.datagramIn i))
              (fun k => (s.staged i).frameBuf (7 + k))).fill txUdpBase 7
            (Mem.wordOf (udpTxHeader u' p.src (s.datagramIn i).srcPort)) }
        ((arpLookup s.shared.arp p.src).1.getD broadcastMac) ethertypeIpv4 txUdpBase
        (ipHeaderBytes + (s.datagramIn i).length) := by
  obtain ⟨hcaptures, hsrc, -⟩ := h.captured
  obtain ⟨hechoes, -, hshared⟩ := h.echoes hidle hfree hdhcp
  obtain ⟨arp, u', hlen, htotal, hframe⟩ := echo_frame pacing hechoes
  have hrequest : (s.afterReceive i).request = s.requestIn i := by
    rw [afterReceive_request, if_pos hcaptures]
  rw [hrequest] at hlen htotal
  refine ⟨arp, u', hlen, htotal, ?_⟩
  rw [hframe, hrequest, hshared, ← hsrc]
  rfl

end Request

/-! ## §3. The reply, read back. -/

/-- **A UDP frame, read back**: what MAC TX reads behind 28 header bytes with consistent lengths
is a packet of the board with a datagram of the port 8080. -/
theorem udpFrame_reads {req : MacTxReq} {buffer : Mem U32} {u : UdpTx} {ip : U32} {port : U16}
    (hlen : req.bufLen.toNat = u.txTotal.toNat) (htotal : u.txTotal.toNat = u.txDataLen.toNat + 20)
    (hmin : 8 ≤ u.txDataLen.toNat)
    (hheader : ∀ k, k < 28 → txByte req buffer k = udpTxHeader u ip port k) :
    let packet := macTxReads req buffer
    Inet.checksum (packet.take 20) = 0
      ∧ Inet.ipv4? packet = some
        { src := boardIp, dst := ip, protocol := ipProtoUdp, totalLen := u.txTotal.toNat
          data := packet.drop 20 }
      ∧ Inet.udp? boardIp ip (packet.drop 20) = some
        { srcPort := udpPort, dstPort := port, length := u.txDataLen.toNat, data := packet.drop 28 } := by
  intro packet
  have hcount : packet.length = u.txTotal.toNat := (length_macTxReads _ _).trans hlen
  have hbyte : ∀ k, k < 28 → packet.getD k 0 = udpTxHeader u ip port k := by
    intro k hk
    rw [← hheader k hk]
    exact macTxReads_getD _ _ (by omega)
  have hip : ∀ k, k < 20 → packet.getD k 0 = ipHeader u.txTotal (u.txIpId.setWidth 16) 128 ipProtoUdp
      (wordBytes 4 boardIp) (wordBytes 4 ip) k := by
    intro k hk
    exact (hbyte k (by omega)).trans (udpTxHeader_ip u ip port hk)
  have hudp : ∀ k, k < 8 → (packet.drop 20).getD k 0 = [hi8 udpPort, lo8 udpPort, hi8 port, lo8 port,
      hi8 u.txDataLen, lo8 u.txDataLen, 0, 0].getD k 0 := by
    intro k hk
    rw [List.getD_eq_getElem?_getD, List.getElem?_drop, ← List.getD_eq_getElem?_getD, hbyte _ (by omega),
      udpTxHeader_udp u ip port hk]
  have hdatagram : (packet.drop 20).length = u.txDataLen.toNat := by
    rw [List.length_drop]
    omega
  have hfields : be16 ((packet.drop 20).getD 0 0) ((packet.drop 20).getD 1 0) = udpPort
      ∧ be16 ((packet.drop 20).getD 2 0) ((packet.drop 20).getD 3 0) = port
      ∧ be16 ((packet.drop 20).getD 4 0) ((packet.drop 20).getD 5 0) = u.txDataLen := by
    rw [hudp 0 (by omega), hudp 1 (by omega), hudp 2 (by omega), hudp 3 (by omega), hudp 4 (by omega),
      hudp 5 (by omega)]
    exact ⟨be16_hi8_lo8 udpPort, be16_hi8_lo8 port, be16_hi8_lo8 u.txDataLen⟩
  have hread : Inet.udpRead (packet.drop 20) = {
      srcPort := udpPort, dstPort := port, length := u.txDataLen.toNat, data := packet.drop 28 } := by
    unfold Inet.udpRead
    dsimp only
    rw [hfields.1, hfields.2.1, hfields.2.2, ← hdatagram, List.take_length, List.drop_drop]
  refine ⟨ipHeader_checksum (length_wordBytes 4 _) (length_wordBytes 4 _) hip (by omega), ?_, ?_⟩
  · rw [ipv4?_ipHeader hip (by omega) hcount.ge, ← hcount, List.take_length]
  · rw [← hread]
    refine Inet.udp?_eq ?_ ?_ ?_
    · rw [hread]
      exact hmin
    · rw [hread, hdatagram]
    · rw [hudp 6 (by omega), hudp 7 (by omega)]
      show be16 0 0 = 0
      decide

/-! ## §4. A posted frame is sent. -/

/-- Byte `j` of the frame that the request `req` found in `m` is the next one. -/
structure SendsAt (req : MacTxReq) (m : Mem U32) (j : Nat) (s : UdpEcho) : Prop where
  macTx : s.macTx = txAt req m j
  words : txWindow req m s.shared.buffer
  init : s.initDone = true

section Flight

variable (pacing : U32) {s : UdpEcho} {i : PassIn} {req : MacTxReq} {m : Mem U32} {j : Nat}

/-- A busy pass without input changes no more than the words of the DHCP client. -/
theorem busy_quiet_writes (hinit : s.initDone = true) (hreset : i.resetN = true) (hrx : i.rx = none)
    (hbusy : s.busyIn i = true) :
    DhcpWrites s.shared.buffer (udpEcho pacing s i).1.shared.buffer := by
  have hreceive := afterReceive_quiet (frameIn_of_rx_none s hrx)
  have hbefore : (s.afterReceive i).shared.buffer = s.shared.buffer := by
    rw [hreceive, (afterMacTx_cycle s i hreset).2.1]
    show s.txBuffer i = _
    rw [txBuffer_eq, hinit, if_neg (by simp)]
  rw [udpEcho_shared_of_busy pacing s i hbusy, ← hbefore]
  unfold UdpEcho.afterDhcp UdpEcho.runDhcpTx
  split
  · exact (dhcpTx_writes _ _ _).1
  · exact Mem.ChangesOnly.refl _ _ _

/-- A request behind the words of the DHCP client keeps its own. -/
theorem txWindow.dhcpWrites {m₁ m₂ : Mem U32} (h : txWindow req m m₁) (hwrites : DhcpWrites m₁ m₂)
    (hclear : dhcpFrameBase + 82 ≤ req.bufAddr.toNat) : txWindow req m m₂ :=
  h.trans (hwrites.agreeOn (.inr hclear))

/-- **The latch pass** takes a posted request off the mailbox. -/
theorem latch_pass (hidle : s.macTx.state = .idle) (hpending : s.shared.txReq.request = true)
    (hinit : s.initDone = true) (hclear : dhcpFrameBase + 82 ≤ s.shared.txReq.bufAddr.toNat)
    (hreset : i.resetN = true) (hrx : i.rx = none) :
    (udpEcho pacing s i).2.tx = none
      ∧ SendsAt s.shared.txReq s.shared.buffer 0 (udpEcho pacing s i).1 := by
  obtain ⟨-, -, hbyte, hbusy⟩ := afterMacTx_cycle s i hreset
  rw [macTx_latch hidle hpending] at hbyte hbusy
  refine ⟨(udpEcho_tx pacing s i).trans hbyte, ?_, ?_, udpEcho_initDone pacing s i hreset⟩
  · rw [udpEcho_macTx_cycle pacing s i hreset, macTx_latch hidle hpending, txAt_zero]
  · exact txWindow.dhcpWrites (Mem.AgreeOn.refl _ _ _)
      (busy_quiet_writes pacing hinit hreset hrx hbusy) hclear

/-- **One byte**: it goes out, and the words of the frame stay. -/
theorem SendsAt.pass (h : SendsAt req m j s) (hj : j < (txWire req m).length)
    (hclear : dhcpFrameBase + 82 ≤ req.bufAddr.toNat) (hreset : i.resetN = true) (hrx : i.rx = none) :
    SendsAt req m (j + 1) (udpEcho pacing s i).1
      ∧ (udpEcho pacing s i).2.tx = (gmiiFrame (txWire req m))[j]? := by
  have hbuffer : s.txBuffer i = s.shared.buffer := by
    rw [txBuffer_eq, h.init, if_neg (by simp)]
  obtain ⟨-, -, hbyte, hbusy⟩ := afterMacTx_cycle s i hreset
  have hstep := udpEcho_macTx_cycle pacing s i hreset
  have hread : ∀ a, (txAt req m j).Reads a → s.shared.buffer a = m a := by
    intro a ha
    rw [txAt_reads_iff req m hj] at ha
    exact (h.words a ha.2.1 ha.2.2).symm
  obtain ⟨hnext, hout⟩ := macTx_txAt req m hj (s.shared.txReq, s.shared.buffer) hread
  have hsending : s.macTx.state ≠ .idle := by
    intro hidle
    have hrests := macTxCycle_idle_byte hidle (s.shared.txReq, s.shared.buffer)
    rw [h.macTx, hout, List.getElem?_eq_getElem (by rwa [length_gmiiFrame])] at hrests
    cases hrests
  rw [(macTxCycle_sending hsending _).2] at hbusy
  rw [hbuffer, h.macTx] at hbyte hstep
  refine ⟨⟨hstep.trans hnext, ?_, udpEcho_initDone pacing s i hreset⟩, ?_⟩
  · exact h.words.dhcpWrites (busy_quiet_writes pacing h.init hreset hrx hbusy) hclear
  · rw [udpEcho_tx, hbyte, hout]

/-- **A posted frame is sent**: the latch, then one byte a pass, and MAC TX is idle again. -/
theorem posted_is_sent (hidle : s.macTx.state = .idle) (hpending : s.shared.txReq.request = true)
    (hinit : s.initDone = true) (hclear : dhcpFrameBase + 82 ≤ s.shared.txReq.bufAddr.toNat)
    (js : List PassIn) (hjs : ∀ j ∈ js, j.resetN = true ∧ j.rx = none) :
    let wire := txWire s.shared.txReq s.shared.buffer
    js.length = 1 + wire.length →
      ((udpEchoMachine pacing).outs s js).map PassOut.tx = none :: (gmiiFrame wire).map some
        ∧ ((udpEchoMachine pacing).after s js).macTx.state = .idle := by
  intro wire hlen
  cases js with
  | nil =>
      rw [List.length_nil] at hlen
      omega
  | cons i is =>
      rw [List.length_cons] at hlen
      obtain ⟨hreset, hrx⟩ := hjs i List.mem_cons_self
      obtain ⟨hquiet, hlatched⟩ := latch_pass pacing hidle hpending hinit hclear hreset hrx
      have hrun := counted_outs (M := udpEchoMachine pacing) PassOut.tx
        (SendsAt s.shared.txReq s.shared.buffer) (fun j => j.resetN = true ∧ j.rx = none)
        (fun k t j hk ht hj => ht.pass pacing hk hclear hj.1 hj.2) is 0 _ hlatched
        (by show 0 + is.length = wire.length; omega) (fun j hj => hjs j (List.mem_cons_of_mem _ hj))
      constructor
      · rw [outs_cons, List.map_cons]
        refine congrArg₂ List.cons hquiet (hrun.2.trans ?_)
        -- the bytes of the frame, one after the other
        have hcount : is.length = (gmiiFrame wire).length := by
          rw [length_gmiiFrame]
          omega
        rw [hcount]
        apply List.ext_getElem (by simp)
        intro k hk _
        have hk' : k < (gmiiFrame wire).length := by simpa using hk
        simp [wire, hk']
      · rw [after_cons]
        show ((udpEchoMachine pacing).after (udpEcho pacing s i).1 is).macTx.state = .idle
        rw [hrun.1.macTx]
        exact txAt_end _ _

end Flight

/-! ## §5. The echo. -/

/-- A valid entry of a table. -/
def HasEntry (table : Mem ArpEntry) (n : Nat) (ip : U32) (mac : U48) : Prop :=
  ∃ k, k < n ∧ table k = { ip, mac, valid := true }

/-- **The MAC for an address**: that of the cache, L1 before L2, or the broadcast address if
neither knows it. -/
def ArpTables.Resolves (t : ArpTables) (ip : U32) (mac : U48) : Prop :=
  HasEntry t.l1Cache l1Size ip mac
    ∨ (∀ m, ¬ HasEntry t.l1Cache l1Size ip m)
      ∧ (HasEntry t.l2Table l2Size ip mac
        ∨ (∀ m, ¬ HasEntry t.l2Table l2Size ip m) ∧ mac = broadcastMac)

theorem findEntry_some {table : Mem ArpEntry} {n k : Nat} {ip : U32} (h : findEntry table n ip = some k) :
    HasEntry table n ip (table k).mac := by
  obtain ⟨hfound, hk, -⟩ := List.find?_range_eq_some.mp h
  rw [Bool.and_eq_true, beq_iff_eq] at hfound
  exact ⟨k, List.mem_range.mp hk, by rw [← hfound.1, ← hfound.2]⟩

theorem findEntry_none {table : Mem ArpEntry} {n : Nat} {ip : U32} (h : findEntry table n ip = none)
    (mac : U48) : ¬ HasEntry table n ip mac := by
  rintro ⟨k, hk, hentry⟩
  have hno := List.find?_range_eq_none.mp h k hk
  rw [hentry] at hno
  simp at hno

/-- A lookup finds the MAC for its address. -/
theorem arpLookup_resolves (t : ArpTables) (ip : U32) :
    t.Resolves ip ((arpLookup t ip).1.getD broadcastMac) := by
  unfold arpLookup l1Lookup
  cases hl1 : findEntry t.l1Cache l1Size ip with
  | some k => exact .inl (findEntry_some hl1)
  | none =>
      refine .inr ⟨findEntry_none hl1, ?_⟩
      cases hl2 : findEntry t.l2Table l2Size ip with
      | some k => exact .inl (findEntry_some hl2)
      | none => exact .inr ⟨findEntry_none hl2, rfl⟩

/-- **The bytes of the posted reply**: 28 bytes of header, and the payload as it was staged. -/
theorem StagesRequest.posted_bytes (pacing : U32) {s : UdpEcho} {i : PassIn} {p : Inet.Ipv4Packet}
    (h : StagesRequest s i p) (hidle : s.macTx.state = .idle) (hfree : s.shared.txReq.request = false)
    (hdhcp : ¬ DhcpSends i.resetN (s.afterMacTx i).dhcp) :
    let d := Inet.udpRead p.data
    let sh := (udpEcho pacing s i).1.shared
    sh.txReq.bufLen.toNat = p.totalLen
      ∧ (∃ u : UdpTx, u.txDataLen.toNat = d.length ∧ u.txTotal.toNat = p.totalLen
        ∧ ∀ k, k < 28 → txByte sh.txReq sh.buffer k = udpTxHeader u p.src d.srcPort k)
      ∧ ∀ k, k < d.length - 8 → txByte sh.txReq sh.buffer (28 + k)
        = (s.staged i).frameBuf.byteAt 7 k := by
  intro d sh
  obtain ⟨arp, u', hlen, htotal, hsh⟩ := h.posts pacing hidle hfree hdhcp
  obtain ⟨hcaptures, -, htotalLen, hport, hlength⟩ := h.captured
  have hsum : d.length + 20 = p.totalLen := h.total
  have hmin : 8 ≤ d.length := h.min
  have hmax : d.length ≤ 1004 := h.max
  replace hlength : (s.datagramIn i).length.toNat = d.length := hlength
  replace hsh : sh = _ := hsh
  have haddr : sh.txReq.bufAddr.toNat = txUdpBase := by
    rw [hsh]
    rfl
  refine ⟨?_, ⟨u', by rw [hlen, hlength], by rw [htotal, htotalLen], fun k hk => ?_⟩, fun k hk => ?_⟩
  · rw [hsh]
    show (ipHeaderBytes + (s.datagramIn i).length).toNat = _
    rw [BitVec.toNat_add, hlength, show ipHeaderBytes.toNat = 20 from rfl]
    omega
  · unfold txByte
    rw [haddr, hsh, ← show (s.datagramIn i).srcPort = d.srcPort from hport]
    exact Mem.byteAt_fill_wordOf _ _ _ _ hk
  · -- the last word is copied whole
    have hcopied : d.length - 8 ≤ udpCopyWords (s.datagramIn i) * 4 := by
      rw [udpCopyWords_captured hcaptures, payloadWords, BitVec.toNat_sub, hlength,
        show udpHeaderBytes.toNat = 8 from rfl]
      omega
    unfold txByte
    rw [haddr, show 28 + k = 7 * 4 + k from rfl, Mem.byteAt_add, hsh]
    refine (Mem.byteAt_congr (Mem.fill_outside _ _ (by omega))).trans ?_
    exact Mem.byteAt_fill _ _ _ _ (by omega)

/-- **The posted reply, read back**: the addresses and ports are swapped, the lengths and the
payload are those of the request. -/
theorem StagesRequest.reply_reads (pacing : U32) {s : UdpEcho} {i : PassIn} {p : Inet.Ipv4Packet}
    (h : StagesRequest s i p) (hidle : s.macTx.state = .idle) (hfree : s.shared.txReq.request = false)
    (hdhcp : ¬ DhcpSends i.resetN (s.afterMacTx i).dhcp) :
    let d := Inet.udpRead p.data
    let sh := (udpEcho pacing s i).1.shared
    let packet := macTxReads sh.txReq sh.buffer
    packet.length = p.totalLen ∧ Inet.checksum (packet.take 20) = 0
      ∧ Inet.ipv4? packet = some
        { src := boardIp, dst := p.src, protocol := ipProtoUdp, totalLen := p.totalLen
          data := packet.drop 20 }
      ∧ Inet.udp? boardIp p.src (packet.drop 20) = some
        { srcPort := udpPort, dstPort := d.srcPort, length := d.length, data := d.data } := by
  intro d sh packet
  have hposted := h.posted_bytes pacing hidle hfree hdhcp
  dsimp only at hposted
  obtain ⟨hbufLen, ⟨u, hlen, htotal, hheader⟩, hbehind⟩ := hposted
  have hsum : d.length + 20 = p.totalLen := h.total
  have hmin : 8 ≤ d.length := h.min
  have hreads := udpFrame_reads (by rw [hbufLen, htotal]) (by rw [htotal, hlen]; exact hsum.symm)
    (by rw [hlen]; exact hmin) hheader
  have hdata : packet.drop 28 = d.data := by
    rw [show d.data = _ from h.payload, show packet = _ from macTxReads_eq _ _, hbufLen, ← hsum,
      show d.length + 20 = 28 + (d.length - 8) by omega, drop_map_range]
    apply List.map_congr_left
    intro k hk
    rw [List.mem_range] at hk
    exact hbehind k hk
  dsimp only at hreads
  rw [show (macTxReads _ _).drop 28 = _ from hdata, htotal, hlen] at hreads
  exact ⟨(length_macTxReads _ _).trans hbufLen, hreads⟩

/-- **The echo of a datagram.**  Whatever state the stack is in: if the pass that completes a
request finds MAC TX idle, the mailbox empty and the DHCP client without a frame to send, it
posts one reply; and passes without input put out one frame, to the MAC that the cache has for
the requester or to everybody, zero-padded to 46 bytes, in which a receiver reads a packet of
the board with the datagram's own data, addressed back to where it came from. -/
theorem udp_echo_reply (pacing : U32) {s : UdpEcho} {i : PassIn} {p : Inet.Ipv4Packet}
    (h : StagesRequest s i p) (hidle : s.macTx.state = .idle) (hfree : s.shared.txReq.request = false)
    (hdhcp : ¬ DhcpSends i.resetN (s.afterMacTx i).dhcp) :
    let d := Inet.udpRead p.data
    let u := (udpEcho pacing s i).1
    u.shared.txReq.request = true ∧ u.request.dataReceived = false
      ∧ ∃ (mac : U48) (packet datagram : List U8),
        s.shared.arp.Resolves p.src mac ∧ packet.length = p.totalLen
        ∧ Inet.checksum (packet.take 20) = 0
        ∧ Inet.ipv4? packet = some
          { src := boardIp, dst := p.src, protocol := ipProtoUdp, totalLen := p.totalLen
            data := datagram }
        ∧ Inet.udp? boardIp p.src datagram = some
          { srcPort := 8080, dstPort := d.srcPort, length := d.length, data := d.data }
        ∧ ∀ js : List PassIn, (∀ j ∈ js, j.resetN = true ∧ j.rx = none) →
          let frame := ethernetFrame mac boardMac (txTags s.shared.txReq) ethertypeIpv4 packet
          js.length = 1 + frame.length →
            ((udpEchoMachine pacing).outs u js).map PassOut.tx = none :: (gmiiFrame frame).map some
              ∧ ((udpEchoMachine pacing).after u js).macTx.state = .idle := by
  intro d u
  obtain ⟨hechoes, hrests, -⟩ := h.echoes hidle hfree hdhcp
  obtain ⟨arp, u', -, -, hsh⟩ := h.posts pacing hidle hfree hdhcp
  obtain ⟨hlen, hsum, hip, hudp⟩ := h.reply_reads pacing hidle hfree hdhcp
  have hpending : u.shared.txReq.request = true := by
    show (udpEcho pacing s i).1.shared.txReq.request = true
    rw [hsh]
    rfl
  have hinit : u.initDone = true := udpEcho_initDone pacing s i (resetN_of_frameIn h.frame)
  have hstate : u.macTx.state = .idle := (congrArg _ (udpEcho_macTx_afterMacTx pacing s i)).trans hrests
  refine ⟨hpending, udpEcho_consumes pacing hechoes.2.1,
    (arpLookup s.shared.arp p.src).1.getD broadcastMac, _, _, arpLookup_resolves _ _, hlen, hsum, hip,
    hudp, fun js hjs => ?_⟩
  have hclear : dhcpFrameBase + 82 ≤ u.shared.txReq.bufAddr.toNat := by
    show _ ≤ (udpEcho pacing s i).1.shared.txReq.bufAddr.toNat
    rw [hsh]
    show 384 + 82 ≤ 512
    omega
  have hsent := posted_is_sent pacing hstate hpending hinit hclear js hjs
  have hwire : txWire u.shared.txReq u.shared.buffer
      = ethernetFrame ((arpLookup s.shared.arp p.src).1.getD broadcastMac) boardMac
        (txTags s.shared.txReq) ethertypeIpv4 (macTxReads u.shared.txReq u.shared.buffer) := by
    rw [txWire_eq]
    show ethernetFrame (udpEcho pacing s i).1.shared.txReq.dstMac boardMac
      (txTags (udpEcho pacing s i).1.shared.txReq) (udpEcho pacing s i).1.shared.txReq.ethertype _ = _
    rw [hsh]
    rfl
  rw [hwire] at hsent
  exact hsent

/-- The datagram of `datagramFrame`. -/
def datagramPacket : Inet.Ipv4Packet :=
  { src := 0xC0A86401, dst := boardIp, protocol := ipProtoUdp, totalLen := 32
    data := [hi8 5000, lo8 5000, hi8 udpPort, lo8 udpPort, 0, 12, 0, 0, 0x41, 0x42, 0x43, 0x44] }

/-- Four bytes of data come back to port 5000. -/
theorem udp_echo_reply_four_bytes :
    let bytes := gmiiFrame datagramFrame.bytes
    let s := (udpEchoMachine 625000000).after {} (bytes.dropLast.map readPass)
    let u := (udpEcho 625000000 s (readPass (bytes.getLast?.getD (plainByte 0)))).1
    ∃ (mac : U48) (packet datagram : List U8),
      Inet.ipv4? packet = some
        { src := boardIp, dst := 0xC0A86401, protocol := ipProtoUdp, totalLen := 32, data := datagram }
      ∧ Inet.udp? boardIp 0xC0A86401 datagram = some
        { srcPort := 8080, dstPort := 5000, length := 12, data := [0x41, 0x42, 0x43, 0x44] }
      ∧ let frame := ethernetFrame mac boardMac (txTags s.shared.txReq) ethertypeIpv4 packet
        ((udpEchoMachine 625000000).outs u (List.replicate (1 + frame.length) .quiet)).map PassOut.tx
          = none :: (gmiiFrame frame).map some := by
  intro bytes s u
  have hstaged : StagesRequest s (readPass (bytes.getLast?.getD (plainByte 0))) datagramPacket := by
    constructor <;> decide +kernel
  have hdhcp : ¬ DhcpSends (readPass (bytes.getLast?.getD (plainByte 0))).resetN
      (s.afterMacTx (readPass (bytes.getLast?.getD (plainByte 0)))).dhcp := by
    rintro ⟨-, -, hsends⟩
    revert hsends
    decide +kernel
  obtain ⟨-, -, mac, packet, datagram, -, -, -, hip, hudp, hsent⟩ :=
    udp_echo_reply 625000000 hstaged (by decide +kernel) (by decide +kernel) hdhcp
  refine ⟨mac, packet, datagram, hip, ?_, (hsent _ (fun j hj => ?_) (by simp)).1⟩
  · rw [show (0xC0A86401 : U32) = datagramPacket.src from rfl, hudp]
    decide +kernel
  · rw [List.eq_of_mem_replicate hj]
    exact ⟨rfl, rfl⟩

end GigabitTcp
