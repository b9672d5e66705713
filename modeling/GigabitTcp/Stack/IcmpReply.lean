/-
  GigabitTcp.Stack.IcmpReply — the echo of an ICMP message, as its receiver reads it.

  The message is copied to the scratch region, its type and checksum field are patched there,
  the sum is taken over bytes read back from the patched words, and the whole message moves up
  by five words to make room for the IP header.  The last word may hold stray bytes of the
  staged frame; neither the sum nor MAC TX looks at them.

  Main results:
    * `icmpEchoMessage_byte`   — the patched message, byte by byte,
    * `icmpReplyBytes_verify`  — its checksum is the one a receiver recomputes,
    * `icmpReplyFrame_message` — the message arrives whole behind the header,
    * `icmp_echo_reply`        — the reply of `icmp_rx_process`.
-/
import GigabitTcp.Stack.UdpReply

namespace GigabitTcp

open Hw

/-! ## §1. The message. -/

/-- A message turned into a reply, its checksum field still empty. -/
def icmpCleared (b : Nat → U8) : Nat → U8 := fun k => if k = 0 ∨ k = 2 ∨ k = 3 then 0 else b k

/-- The reply to a message of `len` bytes. -/
def icmpReplyBytes (b : Nat → U8) (len : Nat) : Nat → U8 :=
  let csum := icmpChecksum (icmpCleared b) len
  putBytes (icmpCleared b) 2 [hi8 csum, lo8 csum]

theorem icmpReplyBytes_checksum (b : Nat → U8) (len : Nat) :
    icmpReplyBytes b len 2 = hi8 (icmpChecksum (icmpCleared b) len)
      ∧ icmpReplyBytes b len 3 = lo8 (icmpChecksum (icmpCleared b) len) :=
  ⟨putBytes_inside _ _ (by simp), putBytes_inside _ _ (by simp)⟩

theorem icmpReplyBytes_other (b : Nat → U8) (len : Nat) {k : Nat} (hk : ¬ (2 ≤ k ∧ k < 4)) :
    icmpReplyBytes b len k = icmpCleared b k :=
  putBytes_outside _ _ (by simpa using hk)

/-- Behind the checksum the reply is the request. -/
theorem icmpReplyBytes_copied (b : Nat → U8) (len : Nat) {k : Nat} (h0 : k ≠ 0)
    (hk : ¬ (2 ≤ k ∧ k < 4)) : icmpReplyBytes b len k = b k := by
  rw [icmpReplyBytes_other b len hk]
  exact if_neg (by omega)

/-- **The checksum of a reply** is the one its receiver recomputes, of odd length or not. -/
theorem icmpReplyBytes_verify (b : Nat → U8) {len : Nat} (hmin : 4 ≤ len) (hmax : len < 65536) :
    Inet.checksum ((List.range len).map (icmpReplyBytes b len)) = 0 := by
  have hcsum := toNat_byteChecksum (icmpCleared b) (show (0 : U32).toNat < 2 ^ 30 by decide) hmax
  have hfield := icmpReplyBytes_checksum b len
  have hpre : (List.range 2).map (icmpReplyBytes b len) = (List.range 2).map (icmpCleared b) := by
    refine List.map_congr_left fun k hk => icmpReplyBytes_other b len ?_
    rw [List.mem_range] at hk
    omega
  have hpost : (List.range' 4 (len - 4)).map (icmpReplyBytes b len)
      = (List.range' 4 (len - 4)).map (icmpCleared b) := by
    refine List.map_congr_left fun k hk => icmpReplyBytes_other b len ?_
    rw [List.mem_range'_1] at hk
    omega
  -- the sum was taken with zero in the field
  rw [show (0 : U32).toNat = 0 from rfl, Nat.zero_add, map_range_split _ (a := 2) (by omega)] at hcsum
  rw [map_range_split _ (a := 2) (by omega), hfield.1, hfield.2, hpre, hpost]
  exact Inet.checksum_insert (by simp) ((toNat_hi8_lo8 _).trans hcsum)

section Message

variable (buffer frameBuf : Mem U32) (ipRx : IpRx)

/-- The words of the message hold its bytes. -/
theorem icmpWords_bounds :
    (icmpTotalLen ipRx).toNat ≤ icmpWords ipRx * 4 ∧ icmpWords ipRx * 4 ≤ (icmpTotalLen ipRx).toNat + 3 := by
  unfold icmpWords
  omega

/-- The words while the sum is taken: copied, type and checksum field patched. -/
def icmpPatched : Mem U32 :=
  (buffer.fill txScratchBase (icmpWords ipRx) (fun i => frameBuf (5 + i))).set txScratchBase
    (((frameBuf 5 &&& 0x00FFFFFF#32) ||| (icmpEchoReply.setWidth 32 <<< 24)) &&& 0xFFFF0000#32)

theorem icmpEchoMessage_eq :
    icmpEchoMessage buffer frameBuf ipRx
      = (icmpPatched buffer frameBuf ipRx).set txScratchBase
        ((icmpPatched buffer frameBuf ipRx txScratchBase &&& 0xFFFF0000#32)
          ||| (icmpChecksum ((icmpPatched buffer frameBuf ipRx).byteAt txScratchBase)
            (icmpTotalLen ipRx).toNat).setWidth 32) := by
  unfold icmpEchoMessage icmpPatched
  simp only [Mem.set_same, Mem.set_set]

/-- The first word: type and checksum field are zero. -/
theorem wordByte_icmpPatched {k : Nat} (hk : k < 4) :
    wordByte (icmpPatched buffer frameBuf ipRx txScratchBase) k = icmpCleared (frameBuf.byteAt 5) k := by
  have hmask : (0x00FFFFFF#32) = ~~~(0xFF#32 <<< ((3 - 0) * 8)) := rfl
  have hcleared : ∀ w : U32, w &&& 0xFFFF0000#32 = (w &&& 0xFFFF0000#32) ||| (0 : U16).setWidth 32 := by
    intro w
    rw [show (0 : U16).setWidth 32 = (0 : U32) from rfl]
    exact (BitVec.or_zero).symm
  unfold icmpPatched
  rw [Mem.set_same, hcleared, wordByte_lowHalf _ _ hk, hmask]
  unfold icmpCleared
  by_cases hlow : k < 2
  · rw [if_pos hlow]
    refine (wordByte_mask _ icmpEchoReply hk (by omega)).trans ?_
    by_cases h0 : k = 0
    · rw [if_pos h0, if_pos (.inl h0)]
      rfl
    · rw [if_neg h0, if_neg (by omega), Mem.byteAt, show 5 + k / 4 = 5 by omega, Nat.mod_eq_of_lt hk]
  · rw [if_neg hlow, if_pos (by omega)]
    unfold lsByte
    simp

theorem icmpPatched_byte {k : Nat} (hk : k < icmpWords ipRx * 4) :
    (icmpPatched buffer frameBuf ipRx).byteAt txScratchBase k = icmpCleared (frameBuf.byteAt 5) k := by
  by_cases hfirst : k < 4
  · rw [Mem.byteAt, show txScratchBase + k / 4 = txScratchBase by omega, Nat.mod_eq_of_lt hfirst]
    exact wordByte_icmpPatched buffer frameBuf ipRx hfirst
  · unfold icmpPatched icmpCleared
    rw [if_neg (by omega), Mem.byteAt, Mem.set_other _ _ (by omega), Mem.fill_at _ _ (by omega)]
    rfl

/-- **The patched message**, byte by byte, with its checksum. -/
theorem icmpEchoMessage_byte {k : Nat} (hk : k < (icmpTotalLen ipRx).toNat) :
    (icmpEchoMessage buffer frameBuf ipRx).byteAt txScratchBase k
      = icmpReplyBytes (frameBuf.byteAt 5) (icmpTotalLen ipRx).toNat k := by
  have hwords := icmpWords_bounds ipRx
  have hcsum : icmpChecksum ((icmpPatched buffer frameBuf ipRx).byteAt txScratchBase)
      (icmpTotalLen ipRx).toNat = icmpChecksum (icmpCleared (frameBuf.byteAt 5)) (icmpTotalLen ipRx).toNat :=
    byteChecksum_congr (fun k hk => icmpPatched_byte buffer frameBuf ipRx (by omega)) 0
  rw [icmpEchoMessage_eq, hcsum]
  by_cases hfirst : k < 4
  · rw [Mem.byteAt, show txScratchBase + k / 4 = txScratchBase by omega, Nat.mod_eq_of_lt hfirst,
      Mem.set_same, wordByte_lowHalf _ _ hfirst]
    by_cases hlow : k < 2
    · rw [if_pos hlow, wordByte_icmpPatched buffer frameBuf ipRx hfirst,
        icmpReplyBytes_other _ _ (by omega)]
    · have hfield := icmpReplyBytes_checksum (frameBuf.byteAt 5) (icmpTotalLen ipRx).toNat
      rw [if_neg hlow]
      obtain rfl | rfl : k = 2 ∨ k = 3 := by omega
      · exact hfield.1.symm
      · rw [hfield.2]
        simp [lsByte, lo8]
  · rw [Mem.byteAt, Mem.set_other _ _ (by omega)]
    show (icmpPatched buffer frameBuf ipRx).byteAt txScratchBase k = _
    rw [icmpPatched_byte buffer frameBuf ipRx (by omega), icmpReplyBytes_other _ _ (by omega)]

/-! ## §2. The frame. -/

/-- The header is written last. -/
theorem icmpReplyFrame_header {k : Nat} (hk : k < 20) :
    (icmpReplyFrame buffer frameBuf ipRx).byteAt txScratchBase k
      = ipHeader (ipHeaderBytes + icmpTotalLen ipRx) 0 128 ipProtoIcmp boardIpBytes
        (wordBytes 4 ipRx.srcIp) k :=
  Mem.byteAt_fill_wordOf _ _ _ _ (by omega)

/-- **The message moves up whole**, its words read before they are overwritten. -/
theorem icmpReplyFrame_message {k : Nat} (hk : k < (icmpTotalLen ipRx).toNat) :
    (icmpReplyFrame buffer frameBuf ipRx).byteAt txScratchBase (20 + k)
      = icmpReplyBytes (frameBuf.byteAt 5) (icmpTotalLen ipRx).toNat k := by
  have hwords := icmpWords_bounds ipRx
  rw [← icmpEchoMessage_byte buffer frameBuf ipRx hk, show 20 + k = 5 * 4 + k from rfl, Mem.byteAt_add]
  unfold icmpReplyFrame
  rw [Mem.byteAt, Mem.fill_outside _ _ (by omega), Mem.moveUp_inside _ (by omega),
    show txScratchBase + 5 + k / 4 - 5 = txScratchBase + k / 4 by omega]
  rfl

/-- A packet that shows the words of the frame holds the reply behind its header. -/
theorem icmpReplyFrame_drop {packet : List U8} (hlength : packet.length = 20 + (icmpTotalLen ipRx).toNat)
    (hbyte : ∀ k, k < 20 + (icmpTotalLen ipRx).toNat →
      packet.getD k 0 = (icmpReplyFrame buffer frameBuf ipRx).byteAt txScratchBase k) :
    packet.drop 20 = (List.range (icmpTotalLen ipRx).toNat).map
      (icmpReplyBytes (frameBuf.byteAt 5) (icmpTotalLen ipRx).toNat) := by
  have hwhole := take_eq_map_range hlength.ge hbyte
  rw [List.take_of_length_le hlength.le] at hwhole
  rw [hwhole, drop_map_range]
  apply List.map_congr_left
  intro k hk
  rw [List.mem_range] at hk
  exact icmpReplyFrame_message buffer frameBuf ipRx hk

end Message

/-! ## §3. The reply. -/

/-- What a call that answers leaves: the frame in the scratch region, requested for the sender. -/
theorem icmpRx_posts {ipRx : IpRx} {frameBuf : Mem U32} (sh : Shared) (hvalid : ipRx.valid = true)
    (hproto : ipRx.protocol = ipProtoIcmp) (hecho : icmpIsEcho frameBuf = true) :
    ∃ arp, icmpRxProcess true ipRx frameBuf sh
      = Shared.issue { sh with arp, buffer := icmpReplyFrame sh.buffer frameBuf ipRx }
        ((arpLookup sh.arp ipRx.srcIp).1.getD broadcastMac) ethertypeIpv4 txScratchBase
        (ipHeaderBytes + icmpTotalLen ipRx) := by
  unfold icmpRxProcess
  rw [if_neg (by simp [hvalid, hproto]), if_pos hecho]
  exact ⟨_, rfl⟩

/-- The lengths of the message and of the packet. -/
theorem toNat_icmpTotalLen {ipRx : IpRx} (h : 0 < ipRx.totalLen.toNat - 20) :
    (icmpTotalLen ipRx).toNat = ipRx.totalLen.toNat - 20
      ∧ (ipHeaderBytes + icmpTotalLen ipRx).toNat = 20 + (ipRx.totalLen.toNat - 20) := by
  have hlt : ipRx.totalLen.toNat < 2 ^ 16 := ipRx.totalLen.isLt
  have hlen : (icmpTotalLen ipRx).toNat = ipRx.totalLen.toNat - 20 := by
    show (ipRx.totalLen - ipHeaderBytes).toNat = _
    rw [BitVec.toNat_sub, show ipHeaderBytes.toNat = 20 from rfl]
    omega
  refine ⟨hlen, ?_⟩
  rw [BitVec.toNat_add, hlen, show ipHeaderBytes.toNat = 20 from rfl]
  omega

/-- **The echo reply.**  For every echo request that `ip_rx_process` accepts and that fits the
scratch region: what MAC TX reads for the request is an IPv4 packet from the board to the sender,
with the message of the request but for its type and its checksum, and a receiver finds both
checksums to be zero. -/
theorem icmp_echo_reply {macRx : MacRx} {frameBuf : Mem U32} (sh : Shared)
    (hvalid : (ipRxProcess true macRx frameBuf).valid = true)
    (hproto : (ipRxProcess true macRx frameBuf).protocol = ipProtoIcmp)
    (htype : frameBuf.byteAt 5 0 = icmpEchoRequest) (hcode : frameBuf.byteAt 5 1 = 0)
    (hmin : 8 ≤ (ipRxProcess true macRx frameBuf).totalLen.toNat - 20)
    (hmax : (ipRxProcess true macRx frameBuf).totalLen.toNat - 20 ≤ 236) :
    let ipRx := ipRxProcess true macRx frameBuf
    let len := ipRx.totalLen.toNat - 20
    let sh' := icmpRxProcess true ipRx frameBuf sh
    let packet := macTxReads sh'.txReq sh'.buffer
    sh'.txReq.request = true ∧ sh'.txReq.ethertype = ethertypeIpv4
      ∧ sh.arp.Resolves ipRx.srcIp sh'.txReq.dstMac
      ∧ Mem.ChangesOnly txScratchBase (txScratchBase + txScratchSize) sh.buffer sh'.buffer
      ∧ packet.length = 20 + len ∧ Inet.checksum (packet.take 20) = 0
      ∧ ∃ message : List U8,
        Inet.ipv4? packet = some
            { src := boardIp, dst := ipRx.srcIp, protocol := ipProtoIcmp, totalLen := 20 + len
              data := message }
          ∧ message.length = len ∧ message.getD 0 0 = icmpEchoReply
          ∧ (∀ k, k < len → k ≠ 0 → ¬ (2 ≤ k ∧ k < 4) → message.getD k 0 = frameBuf.byteAt 5 k)
          ∧ Inet.checksum message = 0 := by
  intro ipRx len sh' packet
  replace hmin : 8 ≤ len := hmin
  replace hmax : len ≤ 236 := hmax
  have hecho : icmpIsEcho frameBuf = true := by
    unfold icmpIsEcho
    rw [htype, hcode]
    rfl
  obtain ⟨arp, hsh⟩ := icmpRx_posts sh hvalid hproto hecho
  obtain ⟨hlen, htotal⟩ := toNat_icmpTotalLen (show 0 < len by omega)
  change _ = len at hlen
  change _ = 20 + len at htotal
  have hcount : sh'.txReq.bufLen.toNat = 20 + len := by
    rw [show sh' = _ from hsh]
    exact htotal
  have hlength : packet.length = 20 + len := (length_macTxReads _ _).trans hcount
  have hbyte : ∀ k, k < 20 + len →
      packet.getD k 0 = (icmpReplyFrame sh.buffer frameBuf ipRx).byteAt txScratchBase k := by
    intro k hk
    refine (macTxReads_getD _ _ (by omega)).trans ?_
    rw [show sh' = _ from hsh]
    rfl
  have hheader : ∀ k, k < 20 → packet.getD k 0 = ipHeader (ipHeaderBytes + icmpTotalLen ipRx) 0 128
      ipProtoIcmp (wordBytes 4 boardIp) (wordBytes 4 ipRx.srcIp) k := by
    intro k hk
    rw [hbyte k (by omega)]
    exact icmpReplyFrame_header sh.buffer frameBuf ipRx hk
  have hmessage : packet.drop 20 = (List.range len).map (icmpReplyBytes (frameBuf.byteAt 5) len) := by
    rw [← hlen] at hlength hbyte ⊢
    exact icmpReplyFrame_drop sh.buffer frameBuf ipRx hlength hbyte
  have hreads := ipv4?_ipHeader hheader (by omega) (by omega)
  rw [htotal, List.take_of_length_le hlength.le, hmessage] at hreads
  refine ⟨by rw [show sh' = _ from hsh]; rfl, by rw [show sh' = _ from hsh]; rfl, ?_, ?_, hlength,
    ipHeader_checksum (length_wordBytes 4 _) (length_wordBytes 4 _) hheader (by omega), _, hreads,
    by simp, ?_, ?_, icmpReplyBytes_verify _ (by omega) (by omega)⟩
  · rw [show sh' = _ from hsh]
    exact arpLookup_resolves _ _
  · rw [show sh' = _ from hsh]
    have hwords := icmpWords_bounds ipRx
    refine (icmpReplyFrame_changesOnly sh.buffer frameBuf ipRx).mono (by omega) ?_
    unfold txScratchSize
    omega
  · rw [getD_map_range _ _ (by omega), icmpReplyBytes_other _ _ (by omega)]
    rfl
  · intro k hk h0 hno
    rw [getD_map_range _ _ hk, icmpReplyBytes_copied _ _ h0 hno]

/-- An echo request of nine bytes from 192.168.100.1: its last word holds three stray bytes. -/
def pingBuf : Mem U32 :=
  Mem.wordOf (putBytes (ipHeader 29 0 64 ipProtoIcmp [192, 168, 100, 1] boardIpBytes) 20
    [8, 0, 0x12, 0x34, 0, 7, 0, 1, 0x61, 0xAA, 0xBB, 0xCC])

theorem icmp_echo_reply_odd :
    let ipRx := ipRxProcess true { valid := true, ethertype := ethertypeIpv4 } pingBuf
    let sh' := icmpRxProcess true ipRx pingBuf {}
    let packet := macTxReads sh'.txReq sh'.buffer
    packet.length = 29 ∧ ∃ message : List U8,
      Inet.ipv4? packet = some
          { src := boardIp, dst := 0xC0A86401, protocol := ipProtoIcmp, totalLen := 29, data := message }
        ∧ message.getD 8 0 = 0x61 ∧ Inet.checksum message = 0 := by
  have h := @icmp_echo_reply { valid := true, ethertype := ethertypeIpv4 } pingBuf
    {} (by decide) (by decide) (by decide) (by decide) (by decide) (by decide)
  obtain ⟨-, -, -, -, hlen, -, message, hpacket, -, -, hcopied, hsum⟩ := h
  exact ⟨hlen, message, hpacket, hcopied 8 (by decide) (by decide) (by decide), hsum⟩

end GigabitTcp
