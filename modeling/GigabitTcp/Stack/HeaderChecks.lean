/-
  GigabitTcp.Stack.HeaderChecks — the checksum test of `ip_rx_process` and the headers that pass it.

  A header passes exactly if the sum of its ten words is a positive multiple of 65535.  Every
  builder inserts the checksum of the header with a zero field, so all of them pass: the sum of
  ten words is far from the 32-bit limit, and the carry loop ends after two rounds.

  Main results:
    * `ipRx_checksumOk_iff`     — the headers that are accepted,
    * `BuildsHeader.passes`     — the headers that are built,
    * `HeaderPasses.accepted`   — what `ip_rx_process` says of them,
    * `checksum_insertion`      — insertion and acceptance, over any list of words.
-/
import GigabitTcp.Stack.Ipv4Out

namespace GigabitTcp

open Hw

/-! ## §1. Accepted headers. -/

/-- The sum of the ten words of the header at the start of a frame. -/
def headerSum (m : Mem U32) : Nat := ((be16Words (m.byteAt 0) 10).map BitVec.toNat).sum

theorem headerSum_congr {m m' : Mem U32} (h : ∀ k, k < 5 → m k = m' k) : headerSum m = headerSum m' := by
  have hbytes : ∀ k, k < 10 * 2 → m.byteAt 0 k = m'.byteAt 0 k := by
    intro k hk
    exact Mem.byteAt_congr (h _ (by omega))
  unfold headerSum
  rw [be16Words_congr hbytes]

/-- **The verdict of `ip_rx_process`** on a header without options. -/
theorem ipRx_checksumOk_iff {macRx : MacRx} {frameBuf : Mem U32} (hvalid : macRx.valid = true)
    (htype : macRx.ethertype = ethertypeIpv4) (hversion : frameBuf.byteAt 0 0 = 0x45) :
    (ipRxProcess true macRx frameBuf).checksumOk = true
      ↔ 0 < headerSum frameBuf ∧ 65535 ∣ headerSum frameBuf := by
  have hverdict : (ipRxProcess true macRx frameBuf).checksumOk = (ipFields frameBuf).checksumOk := by
    unfold ipRxProcess
    rw [if_neg (by decide), if_neg (by simp [hvalid]), if_neg (by simp [htype]),
      if_neg (by rw [hversion]; decide), if_neg (by rw [hversion]; decide)]
    dsimp only
    split
    · rfl
    · rfl
  rw [hverdict]
  show (onesComplementChecksum (be16Words (frameBuf.byteAt 0) 10) == 0) = true ↔ _
  rw [beq_iff_eq]
  exact onesComplementChecksum_eq_zero_iff (by simp [be16Words])

/-! ## §2. Headers that are built. -/

/-- The calls that build a header, and what they leave. -/
inductive BuildsHeader : Shared → Prop where
  | icmp (ipRx : IpRx) (frameBuf : Mem U32) (sh : Shared) (valid : ipRx.valid = true)
      (protocol : ipRx.protocol = ipProtoIcmp) (echo : icmpIsEcho frameBuf = true) :
      BuildsHeader (icmpRxProcess true ipRx frameBuf sh)
  | igmp (ipRx : IpRx) (frameBuf : Mem U32) (sh : Shared) (valid : ipRx.valid = true)
      (protocol : ipRx.protocol = ipProtoIgmp) (query : igmpShouldRespond frameBuf = true) :
      BuildsHeader (igmpRxProcess true ipRx frameBuf sh)
  | tcp (un : Uninit) (cid : Nat) (flags : U8) (payload : Option (Nat → U8)) (payLen : U16)
      (t : TcpState) (sh : Shared) (conn : cid < maxTcpConn) :
      BuildsHeader (tcpSend un cid flags payload payLen t sh).2
  | udp (pacing : U32) (rq : UdpRequest) (u : UdpTx) (sh : Shared)
      (send : (udpTxArbitrate pacing u rq).1 = true) :
      BuildsHeader (udpTxProcess pacing true rq u sh).2
  | dhcp (sh : Shared) (xid : U32) (opts : List (U8 × U8 × List U8)) :
      BuildsHeader (dhcpSend sh xid opts)

/-- The header in front of the requested bytes passes. -/
structure HeaderPasses (sh : Shared) : Prop where
  version : sh.packet.byteAt 0 0 = 0x45
  positive : 0 < headerSum sh.packet
  multiple : 65535 ∣ headerSum sh.packet

theorem HeaderPasses.of_checksum {sh : Shared} (hversion : sh.packet.byteAt 0 0 = 0x45)
    (hsum : onesComplementChecksum (be16Words (sh.packet.byteAt 0) 10) = 0) : HeaderPasses sh := by
  obtain ⟨hpos, hdvd⟩ := (onesComplementChecksum_eq_zero_iff (by simp [be16Words])).mp hsum
  exact ⟨hversion, hpos, hdvd⟩

theorem HeaderPasses.of_consistent {sh : Shared} (h : Ipv4Consistent sh) : HeaderPasses sh :=
  .of_checksum h.version (beq_iff_eq.mp h.checksum)

/-- The frames of the UDP builder carry its header, whatever their lengths are. -/
theorem udpTx_header {pacing : U32} {rq : UdpRequest} {u : UdpTx} (sh : Shared)
    (hsend : (udpTxArbitrate pacing u rq).1 = true) :
    ∃ u' dstIp dstPort, ∀ k, k < 7 →
      (udpTxProcess pacing true rq u sh).2.packet k = Mem.wordOf (udpTxHeader u' dstIp dstPort) k := by
  have hbehind : ∀ (m : Mem U32) k, k < 7 → writeHello m (txUdpBase + k) = m (txUdpBase + k) := by
    intro m k hk
    unfold writeHello
    exact Mem.fill_outside _ _ (by omega)
  unfold udpTxProcess
  rw [if_neg (by decide)]
  dsimp only
  rw [hsend]
  simp only [Bool.not_true, Bool.false_eq_true, if_false]
  generalize (udpTxArbitrate pacing u rq).2 = u₁
  cases rq.dataReceived with
  | true =>
      refine ⟨(udpTxResolve u₁ true rq.rxSrcIp sh).2.1, rq.rxSrcIp, rq.rxSrcPort, fun k hk => ?_⟩
      exact Mem.fill_at _ _ hk
  | false =>
      refine ⟨(udpTxResolve u₁ false helloIp sh).2.1, helloIp, udpPort, fun k hk => ?_⟩
      exact (hbehind _ k hk).trans (Mem.fill_at _ _ hk)

theorem udpTx_ipHeader {pacing : U32} {rq : UdpRequest} {u : UdpTx} (sh : Shared)
    (hsend : (udpTxArbitrate pacing u rq).1 = true) :
    ∃ (u' : UdpTx) (dstIp : U32), ∀ k, k < 20 → (udpTxProcess pacing true rq u sh).2.packet.byteAt 0 k
      = ipHeader u'.txTotal (u'.txIpId.setWidth 16) 128 ipProtoUdp boardIpBytes (wordBytes 4 dstIp) k := by
  obtain ⟨u', dstIp, dstPort, hwords⟩ := udpTx_header sh hsend
  refine ⟨u', dstIp, fun k hk => ?_⟩
  rw [Mem.byteAt, Nat.zero_add, hwords _ (by omega), Mem.wordByte_wordOf, udpTxHeader_ip _ _ _ hk]

theorem udpTx_passes {pacing : U32} {rq : UdpRequest} {u : UdpTx} (sh : Shared)
    (hsend : (udpTxArbitrate pacing u rq).1 = true) :
    HeaderPasses (udpTxProcess pacing true rq u sh).2 := by
  obtain ⟨u', dstIp, hbytes⟩ := udpTx_ipHeader sh hsend
  apply HeaderPasses.of_checksum
  · rw [hbytes 0 (by omega)]
    exact (ipHeader_fields _ _ _ _ rfl (length_wordBytes 4 dstIp)).1
  · rw [be16Words_congr (n := 10) hbytes]
    exact ipHeader_verifies _ _ _ _ rfl (length_wordBytes 4 dstIp)

/-- **Every header that is built passes.** -/
theorem BuildsHeader.passes {sh : Shared} (h : BuildsHeader sh) : HeaderPasses sh := by
  cases h with
  | icmp ipRx frameBuf sh valid protocol echo =>
      have hanswers : icmpReception true ipRx frameBuf
          = .answers txScratchBase (txScratchBase + 5 + icmpWords ipRx) := by
        unfold icmpReception
        rw [if_neg (by simp [valid, protocol]), if_pos echo]
      exact .of_consistent (icmpRx_consistent sh hanswers)
  | igmp ipRx frameBuf sh valid protocol query =>
      have hanswers : igmpReception true ipRx frameBuf = .answers txScratchBase (txScratchBase + 7) := by
        unfold igmpReception
        rw [if_neg (by simp [valid, protocol]), if_pos query]
      exact .of_consistent (igmpRx_consistent sh hanswers)
  | tcp un cid flags payload payLen t sh conn =>
      exact .of_consistent (tcpSend_consistent un flags payload payLen t sh conn)
  | udp pacing rq u sh send => exact udpTx_passes sh send
  | dhcp sh xid opts => exact .of_consistent (dhcpSend_consistent sh xid opts)

/-- A header that passes is accepted where it is staged. -/
theorem HeaderPasses.accepted {sh : Shared} (h : HeaderPasses sh) {macRx : MacRx} {frameBuf : Mem U32}
    (hvalid : macRx.valid = true) (htype : macRx.ethertype = ethertypeIpv4)
    (hstaged : ∀ k, k < 5 → frameBuf k = sh.packet k) :
    (ipRxProcess true macRx frameBuf).checksumOk = true := by
  have hversion : frameBuf.byteAt 0 0 = 0x45 :=
    (Mem.byteAt_congr (hstaged 0 (by omega))).trans h.version
  rw [ipRx_checksumOk_iff hvalid htype hversion, headerSum_congr hstaged]
  exact ⟨h.positive, h.multiple⟩

/-! ## §3. Insertion. -/

/-- The sum that `ones_complement_checksum` accumulates over the words. -/
def sumWords (ws : List U16) : U32 := ws.foldl (fun sum w => sum + w.setWidth 32) 0

/-- It never wraps, however far the loop has come. -/
theorem toNat_sumWords_take {ws : List U16} (h : ws.length ≤ 65536) (k : Nat) :
    (sumWords (ws.take k)).toNat = ((ws.take k).map BitVec.toNat).sum := by
  have hlen : (ws.take k).length ≤ 65536 := (List.length_take_le' k ws).trans h
  have hsum := toNat_sumWords (ws.take k) 0 (by
    show 0 + 65535 * (ws.take k).length < _
    omega)
  rw [show (0 : U32).toNat = 0 from rfl, Nat.zero_add] at hsum
  exact hsum

/-- **Checksum insertion.**  For every list of at most 65536 words with a zero field: neither the
accumulation nor the carry loop wraps, the loop ends, and with its value in the field the list
verifies.  A list verifies exactly if its sum is a positive multiple of 65535; so do the headers
that `ip_rx_process` accepts, and every header that is built is one of them. -/
theorem checksum_insertion (as bs : List U16) (hlen : as.length + bs.length < 65536) :
    let ws := as ++ 0 :: bs
    (∀ k, (sumWords (ws.take k)).toNat = ((ws.take k).map BitVec.toNat).sum)
      ∧ CarryLoop (sumWords ws) (foldCarries (sumWords ws))
      ∧ (∀ sum : U32, ((sum &&& 0xFFFF#32) + (sum >>> 16)).toNat
          = (sum &&& 0xFFFF#32).toNat + (sum >>> 16).toNat)
      ∧ onesComplementChecksum ws = ~~~ (foldCarries (sumWords ws)).setWidth 16
      ∧ onesComplementChecksum (as ++ onesComplementChecksum ws :: bs) = 0
      ∧ (∀ vs : List U16, vs.length ≤ 65536 → (onesComplementChecksum vs = 0
          ↔ 0 < (vs.map BitVec.toNat).sum ∧ 65535 ∣ (vs.map BitVec.toNat).sum))
      ∧ (∀ (macRx : MacRx) (frameBuf : Mem U32), macRx.valid = true → macRx.ethertype = ethertypeIpv4 →
          frameBuf.byteAt 0 0 = 0x45 → ((ipRxProcess true macRx frameBuf).checksumOk = true
            ↔ 0 < headerSum frameBuf ∧ 65535 ∣ headerSum frameBuf))
      ∧ ∀ sh, BuildsHeader sh → ∀ (macRx : MacRx) (frameBuf : Mem U32), macRx.valid = true →
          macRx.ethertype = ethertypeIpv4 → (∀ k, k < 5 → frameBuf k = sh.packet k) →
            (ipRxProcess true macRx frameBuf).checksumOk = true := by
  intro ws
  have hws : ws.length ≤ 65536 := by
    show (as ++ 0 :: bs).length ≤ 65536
    rw [List.length_append, List.length_cons]
    omega
  refine ⟨toNat_sumWords_take hws, foldCarries_loop _, foldRound_exact, rfl,
    checksum_verifies as bs hlen, fun vs hvs => onesComplementChecksum_eq_zero_iff hvs,
    fun macRx frameBuf hvalid htype hversion => ipRx_checksumOk_iff hvalid htype hversion, ?_⟩
  intro sh hbuilt macRx frameBuf hvalid htype hstaged
  exact hbuilt.passes.accepted hvalid htype hstaged

/-- Words whose sum needs two rounds of carry. -/
theorem checksum_insertion_two_rounds :
    let ws : List U16 := [0xFFFF, 0xFFFF, 0, 0x0001]
    onesComplementChecksum ws = 0xFFFE ∧ onesComplementChecksum [0xFFFF, 0xFFFF, 0xFFFE, 0x0001] = 0 := by
  have h := (checksum_insertion [0xFFFF, 0xFFFF] [0x0001] (by decide)).2.2.2.2.1
  have hvalue : onesComplementChecksum [0xFFFF, 0xFFFF, 0, 0x0001] = 0xFFFE := by decide
  refine ⟨hvalue, ?_⟩
  rw [show ([0xFFFF, 0xFFFF] ++ 0 :: [0x0001] : List U16) = [0xFFFF, 0xFFFF, 0, 0x0001] from rfl,
    hvalue] at h
  exact h

end GigabitTcp
