/-
  GigabitTcp.Stack.Ipv4Out — the IPv4 headers that the builders ask MAC TX to send.

  Five builders write a header of their own: ICMP, IGMP, TCP, DHCP and UDP.  The first four
  take the total length of the header and the length in the mailbox from one number.  The UDP
  builder takes the total length from the IP header of the request it answers and the length
  in the mailbox from the UDP header, and nothing has compared the two.

  Main results:
    * `ipv4Consistent_iff`   — a written header is consistent if its lengths agree,
    * `udpFrame_consistent_iff` — the frames of the UDP builder,
    * `ipv4_pass_iff`        — one pass, whichever builder sets its request,
    * `ipv4_output_iff`      — the exact passes whose requests are consistent.
-/
import GigabitTcp.Stack.Gates
import GigabitTcp.Stack.Arrival
import GigabitTcp.Tcp.Frame

namespace GigabitTcp

open Hw Machine

/-! ## §1. Consistent headers. -/

/-- The words the mailbox points to. -/
def Shared.packet (sh : Shared) : Mem U32 := fun k => sh.buffer (sh.txReq.bufAddr.toNat + k)

/-- The header in front of the requested bytes is the one of a packet of this length. -/
structure Ipv4Consistent (sh : Shared) : Prop where
  version : sh.packet.byteAt 0 0 = 0x45
  /-- The test of `ip_rx_process`. -/
  checksum : (ipFields sh.packet).checksumOk = true
  total : (ipFields sh.packet).totalLen = sh.txReq.bufLen
  udp : (ipFields sh.packet).protocol = ipProtoUdp →
    (udpFields sh.packet).length.toNat + 20 = (ipFields sh.packet).totalLen.toNat

/-- **A header that was built** is consistent if its lengths agree; the rest always is. -/
theorem ipv4Consistent_iff (sh : Shared) (totalLen id : U16) (ttl protocol : U8) {src dst : List U8}
    (hsrc : src.length = 4) (hdst : dst.length = 4)
    (hbytes : ∀ k, k < 20 → sh.packet.byteAt 0 k = ipHeader totalLen id ttl protocol src dst k) :
    Ipv4Consistent sh ↔ totalLen = sh.txReq.bufLen
      ∧ (protocol = ipProtoUdp → (udpFields sh.packet).length.toNat + 20 = totalLen.toNat) := by
  obtain ⟨h0, h2, h3, h9⟩ := ipHeader_fields totalLen id ttl protocol hsrc hdst
  have htotal : (ipFields sh.packet).totalLen = totalLen := by
    show be16 (sh.packet.byteAt 0 2) (sh.packet.byteAt 0 3) = totalLen
    rw [hbytes 2 (by omega), hbytes 3 (by omega), h2, h3, be16_hi8_lo8]
  have hproto : (ipFields sh.packet).protocol = protocol := by
    show sh.packet.byteAt 0 9 = protocol
    rw [hbytes 9 (by omega), h9]
  have hchecksum : (ipFields sh.packet).checksumOk = true := by
    show (onesComplementChecksum (be16Words (sh.packet.byteAt 0) 10) == 0) = true
    rw [be16Words_congr (n := 10) hbytes, ipHeader_verifies totalLen id ttl protocol hsrc hdst]
    rfl
  constructor
  · intro h
    refine ⟨htotal.symm.trans h.total, fun hudp => ?_⟩
    rw [← htotal]
    exact h.udp (hproto.trans hudp)
  · rintro ⟨hlen, hudp⟩
    constructor
    · rw [hbytes 0 (by omega), h0]
    · exact hchecksum
    · rw [htotal, hlen]
    · rw [hproto, htotal]
      exact hudp

/-- A request for the words from `base` on shows the bytes that stand there. -/
theorem packet_issue {sh : Shared} (mac : U48) (ethertype : U16) {base : Nat} (len : U16) (k : Nat)
    (hbase : base < 1024) :
    (sh.issue mac ethertype base len).packet.byteAt 0 k = sh.buffer.byteAt base k := by
  have haddr : (BitVec.ofNat 10 base).toNat = base := by
    rw [BitVec.toNat_ofNat]
    exact Nat.mod_eq_of_lt hbase
  show wordByte (sh.buffer ((BitVec.ofNat 10 base).toNat + (0 + k / 4))) (k % 4) = _
  rw [haddr, Nat.zero_add]
  rfl

/-- **A request with its own length in the header** is consistent. -/
theorem Ipv4Consistent.of_issue (sh : Shared) (mac : U48) {base : Nat} (len id : U16)
    (ttl protocol : U8) (src dst : List U8) (hbase : base < 1024) (hsrc : src.length = 4)
    (hdst : dst.length = 4) (hproto : protocol ≠ ipProtoUdp)
    (hbytes : ∀ k, k < 20 → sh.buffer.byteAt base k = ipHeader len id ttl protocol src dst k) :
    Ipv4Consistent (sh.issue mac ethertypeIpv4 base len) := by
  rw [ipv4Consistent_iff _ len id ttl protocol hsrc hdst]
  · exact ⟨rfl, fun h => absurd h hproto⟩
  · intro k hk
    rw [packet_issue mac ethertypeIpv4 len k hbase, hbytes k hk]

/-! ## §2. The builders. -/

theorem icmpRx_consistent {resetN : Bool} {ipRx : IpRx} {frameBuf : Mem U32} (sh : Shared) {lo hi : Nat}
    (h : icmpReception resetN ipRx frameBuf = .answers lo hi) :
    Ipv4Consistent (icmpRxProcess resetN ipRx frameBuf sh) := by
  unfold icmpReception at h
  split_ifs at h with hskip hecho
  unfold icmpRxProcess
  rw [if_neg hskip, if_pos hecho]
  dsimp only
  obtain ⟨mac, arp, hmac⟩ := replyMac_eq
    { sh with buffer := icmpReplyFrame sh.buffer frameBuf ipRx } ipRx.srcIp
  rw [hmac]
  refine Ipv4Consistent.of_issue _ mac (ipHeaderBytes + icmpTotalLen ipRx) 0 128 ipProtoIcmp
    boardIpBytes (wordBytes 4 ipRx.srcIp) (by decide) rfl (length_wordBytes 4 _) (by decide) ?_
  intro k hk
  -- the header is written last
  exact Mem.byteAt_fill_wordOf _ _ _ _ (by omega)

theorem igmpRx_consistent {resetN : Bool} {ipRx : IpRx} {frameBuf : Mem U32} (sh : Shared) {lo hi : Nat}
    (h : igmpReception resetN ipRx frameBuf = .answers lo hi) :
    Ipv4Consistent (igmpRxProcess resetN ipRx frameBuf sh) := by
  unfold igmpReception at h
  split_ifs at h with hskip hquery
  unfold igmpRxProcess
  rw [if_neg hskip, if_pos hquery]
  refine Ipv4Consistent.of_issue _ broadcastMac (ipHeaderBytes + 8) 0 1 ipProtoIgmp boardIpBytes
    boardMcastBytes (by decide) rfl rfl (by decide) ?_
  intro k hk
  exact Mem.byteAt_fill_wordOf _ _ _ _ (by omega)

theorem tcpSend_consistent (un : Uninit) {cid : Nat} (flags : U8) (payload : Option (Nat → U8))
    (payLen : U16) (t : TcpState) (sh : Shared) (hcid : cid < maxTcpConn) :
    Ipv4Consistent (tcpSend un cid flags payload payLen t sh).2 := by
  obtain ⟨mac, arp, hsent⟩ := tcpSend_issue un flags payload payLen t sh hcid
  rw [hsent]
  refine Ipv4Consistent.of_issue _ mac (20 + tcpTotal flags payLen) 0 128 ipProtoTcp boardIpBytes
    (wordBytes 4 (t.conn cid).peerIp) (by decide) rfl (length_wordBytes 4 _) (by decide) ?_
  intro k hk
  exact tcpWriteFrame_header un (t.conn cid) flags payload payLen sh.buffer hk

/-- The IP header of a DHCP frame. -/
theorem dhcpSend_ipHeader (sh : Shared) (xid : U32) (opts : List (U8 × U8 × List U8)) {k : Nat} (hk : k < 20) :
    (dhcpSend sh xid opts).packet.byteAt 0 k
      = ipHeader (ipHeaderBytes + (udpHeaderBytes + dhcpMsgSize)) 0 64 ipProtoUdp (wordBytes 4 (0 : U32))
        (wordBytes 4 broadcastIp) k := by
  unfold dhcpSend
  dsimp only
  rw [packet_issue _ _ _ _ (by decide)]
  unfold dhcpBuildHeaders
  dsimp only
  rw [Mem.byteAt_congr (Mem.fill_outside _ _ (by omega))]
  exact Mem.byteAt_fill_wordOf _ _ _ _ (by omega)

/-- The DHCP headers say 328 bytes of IP and 308 of UDP, and 328 bytes are requested. -/
theorem dhcpSend_consistent (sh : Shared) (xid : U32) (opts : List (U8 × U8 × List U8)) :
    Ipv4Consistent (dhcpSend sh xid opts) := by
  rw [ipv4Consistent_iff _ (ipHeaderBytes + (udpHeaderBytes + dhcpMsgSize)) 0 64 ipProtoUdp
    (length_wordBytes 4 0) (length_wordBytes 4 broadcastIp) fun k hk => dhcpSend_ipHeader sh xid opts hk]
  refine ⟨rfl, fun _ => ?_⟩
  unfold dhcpSend
  dsimp only
  generalize dhcpWriteOpts (dhcpBuildHeader sh.buffer dhcpOpRequest xid 0) opts = m
  generalize hsh : ({ sh with buffer := dhcpBuildHeaders m (udpHeaderBytes + dhcpMsgSize) 0 broadcastIp } : Shared)
    = sh'
  have hbuf : sh'.buffer = dhcpBuildHeaders m (udpHeaderBytes + dhcpMsgSize) 0 broadcastIp := by
    rw [← hsh]
  -- the length field is the third half-word of the UDP header
  have hlen : ∀ k, k < 8 → (sh'.issue broadcastMac ethertypeIpv4 dhcpFrameBase
      (ipHeaderBytes + udpHeaderBytes + dhcpMsgSize)).packet.byteAt 5 k
      = List.getD [hi8 dhcpClientPort, lo8 dhcpClientPort, hi8 dhcpServerPort, lo8 dhcpServerPort,
        hi8 (udpHeaderBytes + dhcpMsgSize), lo8 (udpHeaderBytes + dhcpMsgSize), 0, 0] k 0 := by
    intro k hk
    show wordByte (sh'.buffer (384 + (5 + k / 4))) (k % 4) = _
    rw [hbuf, ← Nat.add_assoc]
    exact Mem.byteAt_fill_wordOf _ _ _ _ (by omega)
  show (be16 _ _).toNat + 20 = _
  rw [hlen 4 (by omega), hlen 5 (by omega)]
  rfl

/-! ### The UDP builder. -/

/-- An echo asks for no address: what the cache does not have is broadcast. -/
theorem udpTxResolve_echo (u : UdpTx) (dstIp : U32) (sh : Shared) :
    (udpTxResolve u true dstIp sh).1 = (arpLookup sh.arp dstIp).1.getD broadcastMac
      ∧ ∃ arp, (udpTxResolve u true dstIp sh).2.2 = { sh with arp } := by
  unfold udpTxResolve
  split
  · rename_i hfound
    rw [hfound]
    exact ⟨rfl, _, rfl⟩
  · rename_i hnone
    rw [hnone]
    exact ⟨rfl, _, rfl⟩

/-- **The frame of an echo**: seven words of header over the payload that was captured. -/
theorem udpTx_echo (pacing : U32) (u : UdpTx) (sh : Shared) {rq : UdpRequest} (h : rq.dataReceived = true) :
    ∃ arp u', u'.txDataLen = rq.rxUdpLen ∧ u'.txTotal = rq.rxIpLen
      ∧ (udpTxProcess pacing true rq u sh).2
        = Shared.issue { sh with
            arp, buffer := sh.buffer.fill txUdpBase 7
              (Mem.wordOf (udpTxHeader u' rq.rxSrcIp rq.rxSrcPort)) }
          ((arpLookup sh.arp rq.rxSrcIp).1.getD broadcastMac) ethertypeIpv4 txUdpBase
          (ipHeaderBytes + rq.rxUdpLen) := by
  have hwant := udpTxArbitrate_echo pacing u h
  obtain ⟨hlen, htotal⟩ := udpTxArbitrate_lengths hwant
  rw [if_pos h] at hlen htotal
  unfold udpTxProcess
  rw [if_neg (by decide)]
  dsimp only
  rw [hwant, h]
  simp only [Bool.not_true, Bool.false_eq_true, if_false, if_true]
  generalize (udpTxArbitrate pacing u rq).2 = u₁ at hlen htotal ⊢
  obtain ⟨hlen', htotal'⟩ := udpTxResolve_lengths u₁ true rq.rxSrcIp sh
  obtain ⟨hmac, arp, hsh⟩ := udpTxResolve_echo u₁ rq.rxSrcIp sh
  refine ⟨arp, (udpTxResolve u₁ true rq.rxSrcIp sh).2.1, hlen'.trans hlen, htotal'.trans htotal, ?_⟩
  rw [hsh, hmac, hlen', hlen]

/-- **The periodic frame**, if the builder sends at all. -/
theorem udpTx_hello (pacing : U32) (resetN : Bool) (u : UdpTx) (sh : Shared) {rq : UdpRequest}
    (h : rq.dataReceived = false) :
    (udpTxProcess pacing resetN rq u sh).2 = sh
      ∨ ∃ (mac : U48) (sh₁ : Shared) (u' : UdpTx), u'.txDataLen = defaultUdpLength ∧ u'.txTotal = defaultIpTotalLen
        ∧ (udpTxProcess pacing resetN rq u sh).2
          = Shared.issue { sh₁ with
              buffer := writeHello (sh₁.buffer.fill txUdpBase 7
                (Mem.wordOf (udpTxHeader u' helloIp udpPort))) }
            mac ethertypeIpv4 txUdpBase (ipHeaderBytes + defaultUdpLength) := by
  unfold udpTxProcess
  split
  · exact .inl rfl
  · dsimp only
    by_cases hwant : (udpTxArbitrate pacing u rq).1 = true
    · right
      obtain ⟨hlen, htotal⟩ := udpTxArbitrate_lengths hwant
      have hno : ¬ rq.dataReceived = true := by simp [h]
      rw [if_neg hno] at hlen htotal
      rw [hwant, h]
      simp only [Bool.not_true, Bool.false_eq_true, if_false]
      generalize (udpTxArbitrate pacing u rq).2 = u₁ at hlen htotal ⊢
      obtain ⟨hlen', htotal'⟩ := udpTxResolve_lengths u₁ false helloIp sh
      refine ⟨(udpTxResolve u₁ false helloIp sh).1, (udpTxResolve u₁ false helloIp sh).2.2,
        (udpTxResolve u₁ false helloIp sh).2.1, hlen'.trans hlen, htotal'.trans htotal, ?_⟩
      rw [hlen', hlen]
    · left
      rw [if_pos (by simpa using hwant)]

/-- **The headers of a UDP frame** that stands in front of a payload. -/
theorem udpFrame_consistent_iff (sh : Shared) (m : Mem U32) (mac : U48) (u : UdpTx) (dstIp : U32)
    (dstPort : U16) (hwords : ∀ k, k < 7 → sh.buffer (txUdpBase + k)
      = m.fill txUdpBase 7 (Mem.wordOf (udpTxHeader u dstIp dstPort)) (txUdpBase + k)) :
    Ipv4Consistent (sh.issue mac ethertypeIpv4 txUdpBase (ipHeaderBytes + u.txDataLen))
      ↔ u.txTotal.toNat = u.txDataLen.toNat + 20 := by
  have hbyte : ∀ k, k < 28 → (sh.issue mac ethertypeIpv4 txUdpBase
      (ipHeaderBytes + u.txDataLen)).packet.byteAt 0 k = udpTxHeader u dstIp dstPort k := by
    intro k hk
    rw [packet_issue _ _ _ _ (by decide), Mem.byteAt_congr (hwords (k / 4) (by omega))]
    exact Mem.byteAt_fill_wordOf _ _ _ _ (by omega)
  have hudp : (udpFields (sh.issue mac ethertypeIpv4 txUdpBase
      (ipHeaderBytes + u.txDataLen)).packet).length = u.txDataLen := by
    show be16 ((sh.issue mac ethertypeIpv4 txUdpBase (ipHeaderBytes + u.txDataLen)).packet.byteAt 0 24)
      ((sh.issue mac ethertypeIpv4 txUdpBase (ipHeaderBytes + u.txDataLen)).packet.byteAt 0 25) = _
    rw [hbyte 24 (by omega), hbyte 25 (by omega), udpTxHeader_udp u dstIp dstPort (show 4 < 8 by omega),
      udpTxHeader_udp u dstIp dstPort (show 5 < 8 by omega)]
    exact be16_hi8_lo8 u.txDataLen
  rw [ipv4Consistent_iff _ u.txTotal (u.txIpId.setWidth 16) 128 ipProtoUdp (show boardIpBytes.length = 4 from rfl)
    (length_wordBytes 4 dstIp)]
  · rw [hudp]
    constructor
    · rintro ⟨-, h⟩
      have hsum := h rfl
      omega
    · intro h
      refine ⟨?_, fun _ => by omega⟩
      -- in 16 bits the sum of the lengths is the total as well
      apply BitVec.eq_of_toNat_eq
      show u.txTotal.toNat = (ipHeaderBytes + u.txDataLen).toNat
      have hlt : u.txTotal.toNat < 2 ^ 16 := u.txTotal.isLt
      rw [BitVec.toNat_add, show ipHeaderBytes.toNat = 20 from rfl]
      omega
  · intro k hk
    rw [hbyte k (by omega), udpTxHeader_ip u dstIp dstPort hk]

theorem udpTx_hello_consistent (pacing : U32) (resetN : Bool) (u : UdpTx) (sh : Shared) {rq : UdpRequest}
    (h : rq.dataReceived = false) :
    (udpTxProcess pacing resetN rq u sh).2 = sh
      ∨ Ipv4Consistent (udpTxProcess pacing resetN rq u sh).2 := by
  rcases udpTx_hello pacing resetN u sh h with hsame | ⟨mac, sh₁, u', hlen, htotal, hsent⟩
  · exact .inl hsame
  · right
    -- the payload is written behind the header
    have hbehind : ∀ (m : Mem U32) k, k < 7 → writeHello m (txUdpBase + k) = m (txUdpBase + k) := by
      intro m k hk
      unfold writeHello
      exact Mem.fill_outside _ _ (by omega)
    have hiff := udpFrame_consistent_iff { sh₁ with
        buffer := writeHello (sh₁.buffer.fill txUdpBase 7
          (Mem.wordOf (udpTxHeader u' helloIp udpPort))) } sh₁.buffer mac u' helloIp udpPort
      (fun k hk => hbehind _ k hk)
    rw [hsent, ← hlen, hiff, hlen, htotal]
    rfl

/-! ### TCP replies. -/

/-- What the state switch sends does not depend on what the rest of the stack shares. -/
theorem tcpSwitch_sends (un : Uninit) (cid : Nat) (seg : TcpSeg) (payload : Nat → U8) (ipRx : IpRx)
    (t : TcpState) :
    (∀ sh, (tcpSwitch un cid seg payload ipRx t sh).2 = sh)
      ∨ ∃ flags t', ∀ sh, (tcpSwitch un cid seg payload ipRx t sh).2
        = (tcpSend un cid flags none 0 t' sh).2 := by
  unfold tcpSwitch
  cases (t.conn cid).state with
  | free => exact .inl fun _ => rfl
  | listen =>
      dsimp only
      unfold tcpListen
      by_cases hsyn : hasFlag seg.flags tcpSyn = true
      · simp only [if_pos hsyn]
        exact .inr ⟨_, _, fun _ => rfl⟩
      · simp only [if_neg hsyn]
        exact .inl fun _ => trivial
  | synRcvd => exact .inl fun _ => rfl
  | established =>
      dsimp only
      unfold tcpEstablished
      by_cases hfin : hasFlag seg.flags tcpFin = true
      · simp only [if_pos hfin]
        exact .inr ⟨_, _, fun _ => rfl⟩
      · simp only [if_neg hfin]
        exact .inl fun _ => trivial
  | lastAck => exact .inl fun _ => rfl

theorem tcpReceive_sends (un : Uninit) (ipRx : IpRx) (seg : TcpSeg) (frameBuf : Mem U32) (t : TcpState) :
    (∀ sh, (tcpReceive un ipRx seg frameBuf t sh).2 = sh)
      ∨ ∃ cid flags t', cid < maxTcpConn ∧ ∀ sh, (tcpReceive un ipRx seg frameBuf t sh).2
        = (tcpSend un cid flags none 0 t' sh).2 := by
  rcases tcpReceive_cases un ipRx seg frameBuf t with hquiet | ⟨cid, c, hfind, hswitch⟩
  · exact .inl fun sh => by rw [hquiet]
  · simp only [hswitch]
    rcases tcpSwitch_sends un cid seg (tcpPayload un frameBuf seg) ipRx (t.setConn cid c)
      with h | ⟨flags, t', h⟩
    · exact .inl h
    · exact .inr ⟨cid, flags, t', (tcpFind_some hfind).1, h⟩

/-- An answer of `tcp_rx_process` is a segment that `tcp_send` builds. -/
theorem tcpRx_answers (un : Uninit) {resetN : Bool} {ipRx : IpRx} {frameBuf : Mem U32} (t : TcpState)
    (sh : Shared) {lo hi : Nat} (h : tcpReception resetN ipRx frameBuf t = .answers lo hi) :
    ∃ cid flags t', cid < maxTcpConn
      ∧ (tcpRxProcess un resetN ipRx frameBuf t sh).2 = (tcpSend un cid flags none 0 t' sh).2 := by
  by_cases hecho : tcpForEcho resetN ipRx frameBuf = true
  · rw [(tcpRxProcess_forEcho un t sh hecho).2]
    rcases tcpReceive_sends un ipRx (tcpParse ipRx frameBuf) frameBuf t with hquiet | ⟨cid, flags, t', hcid, hsend⟩
    · -- with an empty mailbox the answer would have to show
      have hwrites := tcpRx_writes un resetN ipRx frameBuf t {}
      rw [h, (tcpRxProcess_forEcho un t {} hecho).2, hquiet] at hwrites
      exact absurd hwrites.2 (by decide)
    · exact ⟨cid, flags, t', hcid, hsend sh⟩
  · unfold tcpReception at h
    rw [(tcpRxProcess_notForEcho un t sh hecho).1] at h
    cases h

theorem tcpRx_consistent (un : Uninit) {resetN : Bool} {ipRx : IpRx} {frameBuf : Mem U32} (t : TcpState)
    (sh : Shared) {lo hi : Nat} (h : tcpReception resetN ipRx frameBuf t = .answers lo hi) :
    Ipv4Consistent (tcpRxProcess un resetN ipRx frameBuf t sh).2 := by
  obtain ⟨cid, flags, t', hcid, hsend⟩ := tcpRx_answers un t sh h
  rw [hsend]
  exact tcpSend_consistent un flags none 0 t' sh hcid

/-! ## §3. The pass. -/

theorem arpRx_ethertype {resetN : Bool} {macRx : MacRx} {frameBuf : Mem U32} (sh : Shared) {lo hi : Nat}
    (h : arpReception resetN macRx frameBuf = .answers lo hi) :
    (arpRxProcess resetN macRx frameBuf sh).txReq.ethertype = ethertypeArp := by
  unfold arpReception at h
  split_ifs at h with hskip hreq
  unfold arpRxProcess
  rw [if_neg (by intro hrst; rw [hrst] at hskip; simp at hskip),
    if_neg (by intro hno; apply hskip; rw [Bool.or_assoc, hno, Bool.or_true])]
  dsimp only
  rw [if_pos hreq]
  rfl

theorem receiveIp_consistent {s : UdpEcho} {i : PassIn} {ipRx : IpRx} {lo hi : Nat}
    (h : ipReception s i ipRx = .answers lo hi) : Ipv4Consistent (s.receiveIp i ipRx).shared := by
  unfold ipReception at h
  unfold UdpEcho.receiveIp
  split_ifs at h ⊢
  · exact icmpRx_consistent s.shared h
  · exact igmpRx_consistent s.shared h
  · exact tcpRx_consistent i.uninit s.tcp s.shared h
  · unfold udpReception at h
    split at h <;> cases h

/-- A reply at reception is consistent, or an ARP frame. -/
theorem receive_consistent {s : UdpEcho} {i : PassIn} {lo hi : Nat} (h : s.reception i = .answers lo hi)
    (htype : (s.afterReceive i).shared.txReq.ethertype = ethertypeIpv4) :
    Ipv4Consistent (s.afterReceive i).shared := by
  unfold UdpEcho.reception at h
  split at h
  · rename_i hvalid
    rw [afterReceive_frame hvalid] at htype ⊢
    unfold dispatchReception at h
    unfold UdpEcho.dispatch at htype ⊢
    split_ifs at h htype ⊢
    · rw [arpRx_ethertype (s.staged i).shared h] at htype
      exact absurd htype (by decide)
    · exact receiveIp_consistent h
  · cases h

/-- The DHCP client leaves the shared part alone, or sends a frame. -/
theorem dhcpTx_sends (resetN : Bool) (d : DhcpClient) (sh : Shared) :
    (dhcpTxProcess resetN d sh).2 = sh
      ∨ ∃ xid opts, (dhcpTxProcess resetN d sh).2 = dhcpSend sh xid opts := by
  unfold dhcpTxProcess
  split
  · exact .inl rfl
  · dsimp only
    split_ifs
    · exact .inl rfl
    · exact .inr ⟨_, _, rfl⟩
    · exact .inr ⟨_, _, rfl⟩
    · exact .inl rfl

/-- A request is set in this pass: by a reply at reception, or by a sender that finds the
mailbox empty. -/
def UdpEcho.SetsRequest (s : UdpEcho) (pacing : U32) (i : PassIn) : Prop :=
  (∃ lo hi, s.reception i = .answers lo hi)
    ∨ ((s.afterReceive i).shared.txReq.request = false
      ∧ (udpEcho pacing s i).1.shared.txReq.request = true)

/-- A request for an IPv4 frame that is set in this pass is consistent. -/
def Ipv4OutputHolds (pacing : U32) (s : UdpEcho) (i : PassIn) : Prop :=
  s.SetsRequest pacing i → (udpEcho pacing s i).1.shared.txReq.ethertype = ethertypeIpv4 →
    Ipv4Consistent (udpEcho pacing s i).1.shared

/-- The pass answers a captured datagram. -/
def UdpEcho.EchoesUdp (s : UdpEcho) (i : PassIn) : Prop :=
  i.resetN = true ∧ s.callsUdpTx i = true ∧ (s.afterReceive i).request.dataReceived = true

/-- The datagram that is answered fills its IP packet. -/
def EchoLengthsAgree (s : UdpEcho) (i : PassIn) : Prop :=
  s.EchoesUdp i →
    (s.afterReceive i).request.rxIpLen.toNat = (s.afterReceive i).request.rxUdpLen.toNat + 20

/-- What the UDP stage of a pass does when it is called. -/
theorem afterUdp_called (pacing : U32) {s : UdpEcho} {i : PassIn} (h : s.callsUdpTx i = true) :
    (s.afterUdp pacing i).shared
      = (udpTxProcess pacing i.resetN (s.afterReceive i).request (s.afterDhcp i).udpTx
          (s.afterDhcp i).shared).2 := by
  obtain ⟨_, _, hdhcp⟩ := afterDhcp_eq s i
  have hrq : (s.afterDhcp i).request = (s.afterReceive i).request := by rw [hdhcp]
  unfold UdpEcho.callsUdpTx at h
  unfold UdpEcho.afterUdp UdpEcho.runUdpTx
  rw [if_pos h, hrq]

/-- **A pass that echoes** ends with the frame of the echo. -/
theorem echo_frame (pacing : U32) {s : UdpEcho} {i : PassIn} (hechoes : s.EchoesUdp i) :
    let rq := (s.afterReceive i).request
    let sh := (s.afterDhcp i).shared
    ∃ arp u', u'.txDataLen = rq.rxUdpLen ∧ u'.txTotal = rq.rxIpLen
      ∧ (udpEcho pacing s i).1.shared
        = Shared.issue { sh with
            arp, buffer := sh.buffer.fill txUdpBase 7
              (Mem.wordOf (udpTxHeader u' rq.rxSrcIp rq.rxSrcPort)) }
          ((arpLookup sh.arp rq.rxSrcIp).1.getD broadcastMac) ethertypeIpv4 txUdpBase
          (ipHeaderBytes + rq.rxUdpLen) := by
  intro rq sh
  obtain ⟨hreset, hcalled, hdata⟩ := hechoes
  have hbuilt := afterUdp_called pacing hcalled
  obtain ⟨arp, u', hlen, htotal, hsent⟩ := udpTx_echo pacing (s.afterDhcp i).udpTx sh hdata
  rw [hreset, hsent] at hbuilt
  refine ⟨arp, u', hlen, htotal, ?_⟩
  rw [udpEcho_shared, afterTcp_of_pending (by rw [hbuilt]; rfl), hbuilt]

/-- What UDP TX and TCP maintenance leave when no datagram is answered. -/
theorem senders_consistent (pacing : U32) {s : UdpEcho} {i : PassIn} (hno : ¬ s.EchoesUdp i) :
    (s.afterTcp pacing i).shared = (s.afterDhcp i).shared
      ∨ Ipv4Consistent (s.afterTcp pacing i).shared := by
  have hudp : (s.afterUdp pacing i).shared = (s.afterDhcp i).shared
      ∨ (Ipv4Consistent (s.afterUdp pacing i).shared
        ∧ (s.afterUdp pacing i).shared.txReq.request = true) := by
    by_cases hcalled : s.callsUdpTx i = true
    · rw [afterUdp_called pacing hcalled]
      cases hreset : i.resetN with
      | false => exact .inl rfl
      | true =>
          have hquiet : (s.afterReceive i).request.dataReceived = false := by
            by_contra h
            exact hno ⟨hreset, hcalled, by simpa using h⟩
          rcases udpTx_hello_consistent pacing true (s.afterDhcp i).udpTx (s.afterDhcp i).shared hquiet
            with h | h
          · exact .inl h
          · rcases udpTx_requests pacing true (s.afterReceive i).request (s.afterDhcp i).udpTx
              (s.afterDhcp i).shared with hsame | hreq
            · exact .inl hsame
            · exact .inr ⟨h, hreq⟩
    · left
      rw [(after_closed pacing s i (Bool.eq_false_iff.mpr hcalled)).1]
  rcases hudp with hsame | ⟨hconsistent, hreq⟩
  · rw [← hsame]
    unfold UdpEcho.afterTcp UdpEcho.runTcpMaintenance
    split
    · rcases tcpMaintenance_sends i.uninit (s.afterUdp pacing i).tcp (s.afterUdp pacing i).shared
        with h | ⟨cid, flags, payload, payLen, hcid, h⟩
      · exact .inl h
      · right
        show Ipv4Consistent (tcpMaintenance i.uninit _ _).2
        rw [h]
        exact tcpSend_consistent i.uninit flags payload payLen _ _ hcid
    · exact .inl rfl
  · rw [afterTcp_of_pending hreq]
    exact .inr hconsistent

/-- **The requests of one pass** are consistent exactly if a datagram that is answered fills
its IP packet. -/
theorem ipv4_pass_iff (pacing : U32) (s : UdpEcho) (i : PassIn) :
    Ipv4OutputHolds pacing s i ↔ EchoLengthsAgree s i := by
  unfold Ipv4OutputHolds EchoLengthsAgree
  by_cases hpending : (s.afterReceive i).shared.txReq.request = true
  · -- a request waits behind reception: no sender runs
    have hlast := udpEcho_shared_of_pending pacing s i hpending
    have hno : ¬ s.EchoesUdp i := by
      rintro ⟨-, hcalled, -⟩
      unfold UdpEcho.callsUdpTx UdpEcho.afterDhcp UdpEcho.runDhcpTx at hcalled
      simp [hpending] at hcalled
    refine ⟨fun _ h => absurd h hno, fun _ hsets htype => ?_⟩
    rw [hlast] at htype ⊢
    rcases hsets with ⟨lo, hi, hanswers⟩ | ⟨hfree, -⟩
    · exact receive_consistent hanswers htype
    · rw [hfree] at hpending
      cases hpending
  · have hfree : (s.afterReceive i).shared.txReq.request = false := by simpa using hpending
    by_cases hechoes : s.EchoesUdp i
    · -- the echo is what the pass ends with
      obtain ⟨arp, u', hlen, htotal, hsent⟩ := echo_frame pacing hechoes
      have hiff : Ipv4Consistent (udpEcho pacing s i).1.shared ↔
          (s.afterReceive i).request.rxIpLen.toNat = (s.afterReceive i).request.rxUdpLen.toNat + 20 := by
        rw [hsent, ← hlen, ← htotal]
        exact udpFrame_consistent_iff _ (s.afterDhcp i).shared.buffer _ u' _ _ (fun k _ => rfl)
      rw [hiff]
      constructor
      · intro h _
        refine h (.inr ⟨hfree, ?_⟩) ?_
        · rw [hsent]
          rfl
        · rw [hsent]
          rfl
      · exact fun h _ _ => h hechoes
    · refine ⟨fun _ h => absurd h hechoes, fun _ hsets _ => ?_⟩
      rcases hsets with ⟨lo, hi, hanswers⟩ | ⟨-, hfull⟩
      · exact absurd hanswers ((free_before_receive hfree).2 lo hi)
      · rw [udpEcho_shared] at hfull ⊢
        rcases senders_consistent pacing hechoes with hsame | hconsistent
        · -- it is the DHCP client that has sent
          rw [hsame] at hfull ⊢
          have hdhcp : (s.afterDhcp i).shared
              = (dhcpTxProcess i.resetN (s.afterReceive i).dhcp (s.afterReceive i).shared).2 := by
            unfold UdpEcho.afterDhcp UdpEcho.runDhcpTx
            rw [if_pos (by rw [hfree]; rfl)]
          rcases dhcpTx_sends i.resetN (s.afterReceive i).dhcp (s.afterReceive i).shared
            with hquiet | ⟨xid, opts, hsend⟩
          · rw [hdhcp, hquiet, hfree] at hfull
            cases hfull
          · rw [hdhcp, hsend]
            exact dhcpSend_consistent _ xid opts
        · exact hconsistent

/-! ## §4. Runs. -/

/-- A datagram that this pass captures fills its IP packet. -/
def UdpLengthsAgree (s : UdpEcho) (i : PassIn) : Prop :=
  s.capturesIn i = true → (s.packetIn i).totalLen.toNat = (s.datagramIn i).length.toNat + 20

/-- The lengths of a captured request agree. -/
def UdpRequest.Fills (rq : UdpRequest) : Prop :=
  rq.dataReceived = true → rq.rxIpLen.toNat = rq.rxUdpLen.toNat + 20

theorem afterReceive_fills {s : UdpEcho} {i : PassIn} (hs : s.request.Fills) (hi : UdpLengthsAgree s i) :
    (s.afterReceive i).request.Fills := by
  rw [afterReceive_request]
  by_cases hcaptured : s.capturesIn i = true
  · rw [if_pos hcaptured]
    exact fun _ => hi hcaptured
  · rw [if_neg hcaptured]
    show (s.resetOrInit i.resetN).request.Fills
    cases hreset : i.resetN with
    | false =>
        intro h
        exact absurd (show false = true from h) Bool.false_ne_true
    | true =>
        obtain ⟨_, _, _, hinit⟩ := resetOrInit_eq s true rfl
        rw [hinit]
        exact hs

/-- The pass keeps the lengths, whether it answers the request or not. -/
theorem udpEcho_fills (pacing : U32) {s : UdpEcho} {i : PassIn} (hs : s.request.Fills)
    (hi : UdpLengthsAgree s i) : (udpEcho pacing s i).1.request.Fills := by
  obtain ⟨_, _, _, hstats⟩ := udpEcho_eq pacing s i
  obtain ⟨_, _, htcp⟩ := afterTcp_eq pacing s i
  obtain ⟨_, _, hdhcp⟩ := afterDhcp_eq s i
  have hreceive := afterReceive_fills hs hi
  have hsame : (s.afterDhcp i).request = (s.afterReceive i).request := by rw [hdhcp]
  rw [hstats, htcp]
  show (s.afterUdp pacing i).request.Fills
  unfold UdpEcho.afterUdp UdpEcho.runUdpTx
  split
  · intro h
    cases h
  · rw [hsame]
    exact hreceive

/-- **Self-consistent IPv4 output**: after any run, the requests of the next pass are
consistent exactly if a datagram that it answers fills its IP packet; and in a run in which
every captured datagram does, every request is consistent. -/
theorem ipv4_output_iff (pacing : U32) (is : List PassIn) :
    (∀ i, Ipv4OutputHolds pacing ((udpEchoMachine pacing).after {} is) i
      ↔ EchoLengthsAgree ((udpEchoMachine pacing).after {} is) i)
    ∧ (Along (udpEchoMachine pacing) UdpLengthsAgree {} is →
      Along (udpEchoMachine pacing) (Ipv4OutputHolds pacing) {} is) := by
  refine ⟨fun i => ipv4_pass_iff pacing _ i, ?_⟩
  -- the request that waits fills its packet, in every state of such a run
  refine Along.of_invariant (P := fun s => s.request.Fills) ?_ (fun h => absurd h (by decide)) is
  intro s i hs hi
  refine ⟨?_, udpEcho_fills pacing hs hi⟩
  rw [ipv4_pass_iff]
  rintro ⟨-, -, hdata⟩
  exact afterReceive_fills hs hi hdata

/-- A datagram of 192.168.100.1 with four bytes of data, and 16 more bytes in its IP packet. -/
def surplusFrame : TaggedFrame where
  dst := boardMac
  src := hostMac 1
  tags := []
  ethertype := ethertypeIpv4
  payload := (List.range 20).map (ipHeader 48 0 64 ipProtoUdp [192, 168, 100, 1] boardIpBytes)
    ++ [hi8 5000, lo8 5000, hi8 udpPort, lo8 udpPort, 0, 12, 0, 0] ++ List.replicate 20 0x41
  notTag := ethertypeIpv4_notTag
  nonempty := by decide

/-- The echo announces 48 bytes of IP, and 32 bytes are requested. -/
theorem ipv4_output_short :
    let bytes := gmiiFrame surplusFrame.bytes
    let s := (udpEchoMachine 625000000).after {} (bytes.dropLast.map readPass)
    let i := readPass (bytes.getLast?.getD (plainByte 0))
    ¬ Ipv4OutputHolds 625000000 s i
      ∧ (ipFields (udpEcho 625000000 s i).1.shared.packet).totalLen = 48
      ∧ (udpEcho 625000000 s i).1.shared.txReq.bufLen = 32 := by
  intro bytes s i
  have hechoes : s.EchoesUdp i := ⟨rfl, by decide +kernel, by decide +kernel⟩
  have hlens : (s.afterReceive i).request.rxIpLen = 48 ∧ (s.afterReceive i).request.rxUdpLen = 12 := by
    constructor <;> decide +kernel
  refine ⟨?_, by decide +kernel, by decide +kernel⟩
  rw [ipv4_pass_iff]
  intro h
  have hagree := h hechoes
  rw [hlens.1, hlens.2] at hagree
  exact absurd hagree (by decide)

end GigabitTcp
