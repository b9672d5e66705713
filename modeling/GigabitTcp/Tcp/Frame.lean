/-
  GigabitTcp.Tcp.Frame — the frame `tcp_send` leaves in the buffer, read back byte by byte.

  `tcp_send` packs header and segment into words; MAC TX later takes them apart again.  The
  receiver sees the bytes from `TX_UDP_BASE` on, so this is where a statement about what is
  sent to whom has to look.
-/
import GigabitTcp.LayerTcp

namespace GigabitTcp

open Hw

/-- The address of a peer. -/
structure TcpPeer where
  ip : U32
  port : U16
  deriving Repr, DecidableEq

/-- The peer of a connection. -/
def TcpConn.peer (c : TcpConn) : TcpPeer := { ip := c.peerIp, port := c.peerPort }

/-- The bytes of the words from `TX_UDP_BASE` on. -/
def Shared.txBytes (sh : Shared) : Nat → U8 := sh.buffer.byteAt txUdpBase

/-- The destination of the TCP frame in the buffer. -/
def Shared.tcpDestination (sh : Shared) : TcpPeer :=
  let b := sh.txBytes
  { ip := packWord (b 16) (b 17) (b 18) (b 19), port := be16 (b 22) (b 23) }

/-- The sequence number of the TCP frame in the buffer. -/
def Shared.tcpSeq (sh : Shared) : U32 :=
  let b := sh.txBytes
  packWord (b 24) (b 25) (b 26) (b 27)

/-- The flags of the TCP frame in the buffer. -/
def Shared.tcpFlags (sh : Shared) : U8 := sh.txBytes 33

/-- What the requested frame carries behind 40 bytes of headers. -/
def Shared.tcpCarried (sh : Shared) : List U8 :=
  (List.range (sh.txReq.bufLen.toNat - 40)).map (fun i => sh.txBytes (40 + i))

/-! ## §1. Header and segment in the buffer. -/

theorem tcpWriteFrame_header (un : Uninit) (c : TcpConn) (flags : U8) (payload : Option (Nat → U8))
    (payLen : U16) (buffer : Mem U32) {k : Nat} (hk : k < 20) :
    (tcpWriteFrame un c flags payload payLen buffer).byteAt txUdpBase k
      = ipHeader (20 + tcpTotal flags payLen) 0 128 ipProtoTcp boardIpBytes
          (wordBytes 4 c.peerIp) k := by
  unfold tcpWriteFrame
  dsimp only
  -- the segment starts five words further on
  have hword : ∀ f n, (Mem.fill (buffer.fill txUdpBase 5 f) (txUdpBase + 5) n
      (Mem.wordOf (tcpSegment un c flags payload payLen))) (txUdpBase + k / 4)
        = (buffer.fill txUdpBase 5 f) (txUdpBase + k / 4) := by
    intro f n
    exact Mem.fill_outside _ _ (by omega)
  rw [Mem.byteAt_congr (hword _ _), Mem.byteAt_fill_wordOf _ _ _ _ (by omega)]

theorem tcpWriteFrame_segment (un : Uninit) (c : TcpConn) (flags : U8) (payload : Option (Nat → U8))
    (payLen : U16) (buffer : Mem U32) {k : Nat} (hk : k < (tcpTotal flags payLen).toNat) :
    (tcpWriteFrame un c flags payload payLen buffer).byteAt txUdpBase (20 + k)
      = tcpSegment un c flags payload payLen k := by
  unfold tcpWriteFrame
  dsimp only
  have h := Mem.byteAt_fill_wordOf (buffer.fill txUdpBase 5 (Mem.wordOf (ipHeader
    (20 + tcpTotal flags payLen) 0 128 ipProtoTcp boardIpBytes (wordBytes 4 c.peerIp))))
    (txUdpBase + 5) (((tcpTotal flags payLen).toNat + 3) / 4)
    (tcpSegment un c flags payload payLen) (k := k) (by omega)
  unfold Mem.byteAt at h ⊢
  rw [show txUdpBase + (20 + k) / 4 = txUdpBase + 5 + k / 4 by omega,
    show (20 + k) % 4 = k % 4 by omega]
  exact h

/-! ## §2. The segment. -/

/-- The first 20 bytes of a segment, up to the checksum. -/
def TcpConn.header (c : TcpConn) (flags : U8) : List U8 :=
  [hi8 tcpPortEcho, lo8 tcpPortEcho, hi8 c.peerPort, lo8 c.peerPort] ++ wordBytes 4 c.seq
    ++ wordBytes 4 c.peerSeq
    ++ [(if hasFlag flags tcpSyn then 7 else 5 : U8) <<< 4, flags, hi8 0xFFFF, lo8 0xFFFF, 0, 0, 0, 0]

/-- `seg[]` before its checksum is known. -/
def tcpUnsummed (un : Uninit) (c : TcpConn) (flags : U8) (payload : Option (Nat → U8))
    (payLen : U16) : Nat → U8 :=
  let seg := tcpBuildHdr un.seg tcpPortEcho c.peerPort c.seq c.peerSeq flags 0xFFFF (hasFlag flags tcpSyn)
  match payload with
  | some p => fun i => if 20 ≤ i ∧ i < 20 + payLen.toNat then p (i - 20) else seg i
  | none => seg

/-- The checksum goes to bytes 16 and 17 of the segment it covers. -/
theorem tcpSegment_eq (un : Uninit) (c : TcpConn) (flags : U8) (payload : Option (Nat → U8))
    (payLen : U16) :
    tcpSegment un c flags payload payLen
      = putBytes (tcpUnsummed un c flags payload payLen) 16
        [hi8 (tcpCsum boardIp c.peerIp (tcpUnsummed un c flags payload payLen) (tcpTotal flags payLen)),
          lo8 (tcpCsum boardIp c.peerIp (tcpUnsummed un c flags payload payLen) (tcpTotal flags payLen))] :=
  rfl

theorem tcpSegment_unsummed (un : Uninit) (c : TcpConn) (flags : U8) (payload : Option (Nat → U8))
    (payLen : U16) {k : Nat} (hk : ¬ (16 ≤ k ∧ k < 18)) :
    tcpSegment un c flags payload payLen k = tcpUnsummed un c flags payload payLen k := by
  rw [tcpSegment_eq]
  exact putBytes_outside _ _ (by simpa using hk)

/-- Options and payload stand behind the first 20 bytes. -/
theorem tcpUnsummed_header (un : Uninit) (c : TcpConn) (flags : U8) (payload : Option (Nat → U8))
    (payLen : U16) {k : Nat} (hk : k < 20) :
    tcpUnsummed un c flags payload payLen k = (c.header flags).getD k 0 := by
  have hbuild : tcpBuildHdr un.seg tcpPortEcho c.peerPort c.seq c.peerSeq flags 0xFFFF
      (hasFlag flags tcpSyn) k = (c.header flags).getD k 0 := by
    have hbase : putBytes un.seg 0 (c.header flags) k = (c.header flags).getD k 0 := by
      refine putBytes_inside _ _ ⟨Nat.zero_le k, ?_⟩
      show k < 0 + 20
      omega
    unfold tcpBuildHdr
    by_cases hsyn : hasFlag flags tcpSyn = true
    · refine (congrFun (if_pos hsyn) k).trans ?_
      rw [putBytes_outside _ _ (by simp; omega)]
      exact hbase
    · exact (congrFun (if_neg hsyn) k).trans hbase
  unfold tcpUnsummed
  cases payload with
  | none => exact hbuild
  | some p =>
      dsimp only
      rw [if_neg (by omega)]
      exact hbuild

/-- The option block of a SYN: MSS, window scale 7, NOP. -/
def tcpBuildOptions : List U8 := [2, 4, hi8 460, lo8 460, 3, 3, 7, 1]

/-- A SYN carries the option block and no payload. -/
theorem tcpUnsummed_options (un : Uninit) (c : TcpConn) {flags : U8} (payload : Option (Nat → U8))
    (hsyn : hasFlag flags tcpSyn = true) {i : Nat} (hi : i < 8) :
    tcpUnsummed un c flags payload 0 (20 + i) = tcpBuildOptions.getD i 0 := by
  have hbuild : tcpBuildHdr un.seg tcpPortEcho c.peerPort c.seq c.peerSeq flags 0xFFFF
      (hasFlag flags tcpSyn) (20 + i) = tcpBuildOptions.getD i 0 := by
    unfold tcpBuildHdr
    refine (congrFun (if_pos hsyn) (20 + i)).trans ?_
    rw [putBytes_inside _ _ ⟨Nat.le_add_right 20 i, by simp; omega⟩, Nat.add_sub_cancel_left]
    rfl
  unfold tcpUnsummed
  cases payload with
  | none => exact hbuild
  | some p =>
      dsimp only
      rw [if_neg (by simp)]
      exact hbuild

theorem tcpUnsummed_payload (un : Uninit) (c : TcpConn) (flags : U8) (payload : Nat → U8) {payLen : U16}
    {i : Nat} (hi : i < payLen.toNat) :
    tcpUnsummed un c flags (some payload) payLen (20 + i) = payload i := by
  unfold tcpUnsummed
  dsimp only
  rw [if_pos ⟨by omega, by omega⟩, Nat.add_sub_cancel_left]

theorem tcpSegment_header (un : Uninit) (c : TcpConn) (flags : U8) (payload : Option (Nat → U8))
    (payLen : U16) {k : Nat} (hk : k < 16) :
    tcpSegment un c flags payload payLen k = (c.header flags).getD k 0 := by
  rw [tcpSegment_unsummed _ _ _ _ _ (by omega), tcpUnsummed_header _ _ _ _ _ (by omega)]

/-- The flags of a data segment. -/
theorem hasFlag_tcpAck_syn : hasFlag tcpAck tcpSyn = false := by decide

theorem tcpTotal_ack (payLen : U16) : tcpTotal tcpAck payLen = 20 + payLen := by
  unfold tcpTotal
  rw [hasFlag_tcpAck_syn]
  rfl

/-- The payload stands behind 20 header bytes. -/
theorem tcpSegment_payload (un : Uninit) (c : TcpConn) (payload : Nat → U8) {payLen : U16} {i : Nat}
    (hi : i < payLen.toNat) : tcpSegment un c tcpAck (some payload) payLen (20 + i) = payload i := by
  rw [tcpSegment_unsummed _ _ _ _ _ (by omega), tcpUnsummed_payload _ _ _ _ hi]

/-! ## §3. What `tcp_send` sends. -/

/-- **The frame in the buffer**: it goes to the peer of the slot, with the position of the
connection and the flags asked for. -/
theorem tcpSend_frame (un : Uninit) {cid : Nat} (flags : U8) (payload : Option (Nat → U8))
    {payLen : U16} (t : TcpState) (sh : Shared) (hcid : cid < maxTcpConn)
    (hlen : payLen.toNat ≤ 576) :
    (tcpSend un cid flags payload payLen t sh).2.txReq.request = true
      ∧ (tcpSend un cid flags payload payLen t sh).2.txReq.bufLen = 20 + tcpTotal flags payLen
      ∧ (tcpSend un cid flags payload payLen t sh).2.buffer
        = tcpWriteFrame un (t.conn cid) flags payload payLen sh.buffer
      ∧ (tcpSend un cid flags payload payLen t sh).2.tcpDestination = (t.conn cid).peer
      ∧ (tcpSend un cid flags payload payLen t sh).2.tcpSeq = (t.conn cid).seq
      ∧ (tcpSend un cid flags payload payLen t sh).2.tcpFlags = flags := by
  obtain ⟨sh', hsend, hreq, hlen', hbuf⟩ : ∃ sh' : Shared,
      (tcpSend un cid flags payload payLen t sh).2 = sh' ∧ sh'.txReq.request = true
        ∧ sh'.txReq.bufLen = 20 + tcpTotal flags payLen
        ∧ sh'.buffer = tcpWriteFrame un (t.conn cid) flags payload payLen sh.buffer := by
    refine ⟨_, rfl, ?_⟩
    unfold tcpSend
    rw [if_neg (by omega)]
    exact ⟨rfl, rfl, rfl⟩
  have htotal : 20 ≤ (tcpTotal flags payLen).toNat := by
    have hmax : tcpMaxHdr.toNat = 28 := rfl
    have hmin : tcpHeaderBytes.toNat = 20 := rfl
    unfold tcpTotal
    rw [BitVec.toNat_add]
    split
    · omega
    · omega
  rw [hsend]
  -- the destination address is in the IP header
  have hip : ∀ i, i < 4 → sh'.txBytes (16 + i) = (wordBytes 4 (t.conn cid).peerIp).getD i 0 := by
    intro i hi
    unfold Shared.txBytes
    rw [hbuf, tcpWriteFrame_header _ _ _ _ _ _ (by omega), ipHeader_dst _ _ _ _ rfl (by simp) hi]
  -- port, SEQ and flags are in the first 16 bytes of the segment
  have hseg : ∀ i, i < 16 → sh'.txBytes (20 + i) = ((t.conn cid).header flags).getD i 0 := by
    intro i hi
    unfold Shared.txBytes
    rw [hbuf, tcpWriteFrame_segment _ _ _ _ _ _ (by omega), tcpSegment_header _ _ _ _ _ hi]
  refine ⟨hreq, hlen', hbuf, ?_, ?_, ?_⟩
  · unfold Shared.tcpDestination TcpConn.peer
    dsimp only
    rw [hip 0 (by omega), hip 1 (by omega), hip 2 (by omega), hip 3 (by omega), packWord_wordBytes,
      hseg 2 (by omega), hseg 3 (by omega)]
    exact congrArg _ (be16_hi8_lo8 (t.conn cid).peerPort)
  · unfold Shared.tcpSeq
    dsimp only
    rw [hseg 4 (by omega), hseg 5 (by omega), hseg 6 (by omega), hseg 7 (by omega)]
    exact packWord_wordBytes (t.conn cid).seq
  · exact hseg 13 (by omega)

/-- **A data segment in the buffer** carries the payload. -/
theorem tcpSend_carries (un : Uninit) {cid : Nat} (payload : Nat → U8) {payLen : U16} (t : TcpState)
    (sh : Shared) (hcid : cid < maxTcpConn) (hlen : payLen.toNat ≤ 576) :
    (tcpSend un cid tcpAck (some payload) payLen t sh).2.txReq.request = true
      ∧ (tcpSend un cid tcpAck (some payload) payLen t sh).2.tcpDestination = (t.conn cid).peer
      ∧ (tcpSend un cid tcpAck (some payload) payLen t sh).2.tcpCarried
        = (List.range payLen.toNat).map payload := by
  obtain ⟨hreq, hlen', hbuf, hdest, -, -⟩ := tcpSend_frame un tcpAck (some payload) t sh hcid hlen
  generalize (tcpSend un cid tcpAck (some payload) payLen t sh).2 = sh' at hreq hlen' hbuf hdest ⊢
  have htotal : (tcpTotal tcpAck payLen).toNat = 20 + payLen.toNat := by
    rw [tcpTotal_ack, BitVec.toNat_add]
    show (20 + payLen.toNat) % 2 ^ 16 = _
    omega
  refine ⟨hreq, hdest, ?_⟩
  unfold Shared.tcpCarried
  -- without options the payload begins 40 bytes into the packet
  have hcount : sh'.txReq.bufLen.toNat - 40 = payLen.toNat := by
    rw [hlen', BitVec.toNat_add, htotal]
    show (20 + (20 + payLen.toNat)) % 2 ^ 16 - 40 = _
    omega
  rw [hcount]
  apply List.map_congr_left
  intro i hi
  rw [List.mem_range] at hi
  unfold Shared.txBytes
  rw [hbuf, show 40 + i = 20 + (20 + i) by omega, tcpWriteFrame_segment _ _ _ _ _ _ (by omega),
    tcpSegment_payload _ _ _ hi]

/-- A FIN+ACK carries nothing. -/
theorem tcpSend_fin_carries (un : Uninit) {cid : Nat} (t : TcpState) (sh : Shared)
    (hcid : cid < maxTcpConn) :
    (tcpSend un cid (tcpFin ||| tcpAck) none 0 t sh).2.tcpCarried = [] := by
  have hempty : (0 : U16).toNat ≤ 576 := by decide
  obtain ⟨-, hlen, -⟩ := tcpSend_frame un (tcpFin ||| tcpAck) none t sh hcid hempty
  unfold Shared.tcpCarried
  rw [hlen]
  rfl

end GigabitTcp
