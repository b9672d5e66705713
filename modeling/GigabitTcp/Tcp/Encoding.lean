/-
  GigabitTcp.Tcp.Encoding — the segments `tcp_send` builds, as their receiver reads them.

  The bytes MAC TX reads for the request are taken apart by the receiver of `Hw.Inet`.  The
  checksum of `tcp_csum` starts from six halves that are the words of the pseudo header, so it
  is the checksum over pseudo header and segment, whose own field is still zero.

  Main results:
    * `toNat_tcpCsum`         — `tcp_csum` is the checksum over pseudo header and segment,
    * `tcpSegment_verifies`   — a finished segment has checksum zero, of odd length or not,
    * `tcp_segment_encoding`  — the whole frame, field by field.
-/
import GigabitTcp.Tcp.Frame
import GigabitTcp.Mac.TxFraming

namespace GigabitTcp

open Hw

/-! ## §1. The checksum. -/

/-- `tcp_csum` is the checksum over pseudo header and segment. -/
theorem toNat_tcpCsum (sip dip : U32) (seg : Nat → U8) (len : U16) :
    (tcpCsum sip dip seg len).toNat
      = Inet.checksum (Inet.pseudoHeader sip dip ipProtoTcp len.toNat
        ++ (List.range len.toNat).map seg) := by
  have hlen : len.toNat < 2 ^ 16 := len.isLt
  have hsip : sip.toNat < 2 ^ 32 := sip.isLt
  have hdip : dip.toNat < 2 ^ 32 := dip.isLt
  have hmask : ∀ n : Nat, n &&& 65535 = n % 65536 := fun n => Nat.and_two_pow_sub_one_eq_mod n 16
  have hsix : (6 : U32).toNat = 6 := rfl
  have hhalf : (0xFFFF : U32).toNat = 65535 := rfl
  obtain ⟨init, hcsum, hinit⟩ : ∃ init : U32, tcpCsum sip dip seg len = byteChecksum init seg len.toNat
      ∧ init.toNat = Inet.sum (Inet.pseudoHeader sip dip ipProtoTcp len.toNat) := by
    refine ⟨_, rfl, ?_⟩
    rw [Inet.sum_pseudoHeader _ _ _ hlen, show ipProtoTcp.toNat = 6 from rfl]
    simp only [BitVec.toNat_add, BitVec.toNat_setWidth, BitVec.toNat_ushiftRight, BitVec.toNat_and,
      Nat.shiftRight_eq_div_pow, Nat.cast_ofNat, hsix, hhalf, hmask]
    omega
  have hbound : init.toNat < 2 ^ 30 := by
    rw [hinit, Inet.sum_pseudoHeader _ _ _ hlen, show ipProtoTcp.toNat = 6 from rfl]
    omega
  rw [hcsum, toNat_byteChecksum seg hbound hlen, hinit, Inet.checksum, Inet.sum_append]
  rw [Inet.length_pseudoHeader]

/-- **A finished segment verifies**: its checksum over pseudo header and segment is zero. -/
theorem tcpSegment_verifies (un : Uninit) (c : TcpConn) (flags : U8) (payload : Option (Nat → U8))
    (payLen : U16) (hmin : 20 ≤ (tcpTotal flags payLen).toNat) :
    Inet.checksum (Inet.pseudoHeader boardIp c.peerIp ipProtoTcp (tcpTotal flags payLen).toNat
      ++ (List.range (tcpTotal flags payLen).toNat).map (tcpSegment un c flags payload payLen)) = 0 := by
  generalize hseg : tcpUnsummed un c flags payload payLen = seg
  generalize hcs : tcpCsum boardIp c.peerIp seg (tcpTotal flags payLen) = cs
  have hfield : tcpSegment un c flags payload payLen 16 = hi8 cs
      ∧ tcpSegment un c flags payload payLen 17 = lo8 cs := by
    rw [tcpSegment_eq, hseg, hcs]
    exact ⟨putBytes_inside _ _ (by simp), putBytes_inside _ _ (by simp)⟩
  have hzero : seg 16 = 0 ∧ seg 17 = 0 := by
    rw [← hseg, tcpUnsummed_header _ _ _ _ _ (by omega), tcpUnsummed_header _ _ _ _ _ (by omega)]
    exact ⟨rfl, rfl⟩
  have hsame : ∀ k, ¬ (16 ≤ k ∧ k < 18) → tcpSegment un c flags payload payLen k = seg k := by
    intro k hk
    rw [← hseg, tcpSegment_unsummed _ _ _ _ _ hk]
  have hpre : (List.range 16).map (tcpSegment un c flags payload payLen) = (List.range 16).map seg :=
    List.map_congr_left fun k hk => hsame k (by rw [List.mem_range] at hk; omega)
  have hpost : ∀ n, (List.range' 18 n).map (tcpSegment un c flags payload payLen)
      = (List.range' 18 n).map seg := by
    intro n
    refine List.map_congr_left fun k hk => hsame k ?_
    rw [List.mem_range'_1] at hk
    omega
  -- the checksum was taken with zero in its place
  have hsum := toNat_tcpCsum boardIp c.peerIp seg (tcpTotal flags payLen)
  rw [hcs, map_range_split seg (a := 16) (by omega), hzero.1, hzero.2, ← List.append_assoc] at hsum
  rw [map_range_split _ (a := 16) (by omega), hfield.1, hfield.2, hpre, hpost, ← List.append_assoc]
  refine Inet.checksum_insert ?_ ((toNat_hi8_lo8 cs).trans hsum)
  rw [List.length_append, Inet.length_pseudoHeader, List.length_map, List.length_range]

/-! ## §2. The segment, read back. -/

/-- The bytes a call of `tcp_send` is given. -/
def tcpPayloadBytes (payload : Option (Nat → U8)) (payLen : U16) : List U8 :=
  match payload with
  | some p => (List.range payLen.toNat).map p
  | none => []

/-- The words of the header: the options of a SYN are two of them. -/
def tcpOffset (flags : U8) : Nat := if hasFlag flags tcpSyn then 7 else 5

theorem tcpOffset_bounds (flags : U8) : 5 ≤ tcpOffset flags ∧ tcpOffset flags ≤ 7 := by
  unfold tcpOffset
  split
  · omega
  · omega

/-- The segment with these flags and data at the position of a connection. -/
def TcpConn.segment (c : TcpConn) (flags : U8) (data : List U8) : Inet.TcpSegment :=
  { srcPort := tcpPortEcho
    dstPort := c.peerPort
    seq := c.seq
    ack := c.peerSeq
    dataOffset := tcpOffset flags
    flags
    window := 0xFFFF
    options := if hasFlag flags tcpSyn then tcpBuildOptions else []
    data }

/-- The fields in the first 16 bytes. -/
theorem TcpConn.header_fields (c : TcpConn) (flags : U8) :
    let h := fun k => (c.header flags).getD k 0
    be16 (h 0) (h 1) = tcpPortEcho ∧ be16 (h 2) (h 3) = c.peerPort
      ∧ packWord (h 4) (h 5) (h 6) (h 7) = c.seq ∧ packWord (h 8) (h 9) (h 10) (h 11) = c.peerSeq
      ∧ (h 12 >>> 4).toNat = tcpOffset flags ∧ h 13 = flags ∧ be16 (h 14) (h 15) = 0xFFFF := by
  have hoffset : (((if hasFlag flags tcpSyn then 7 else 5 : U8) <<< 4) >>> 4).toNat = tcpOffset flags := by
    unfold tcpOffset
    split
    · rfl
    · rfl
  exact ⟨be16_hi8_lo8 tcpPortEcho, be16_hi8_lo8 c.peerPort, packWord_wordBytes c.seq,
    packWord_wordBytes c.peerSeq, hoffset, rfl, be16_hi8_lo8 0xFFFF⟩

section Call

variable (un : Uninit) (c : TcpConn) {flags : U8} {payload : Option (Nat → U8)} {payLen : U16}
  (hlen : payLen.toNat ≤ 536) (hsyn : hasFlag flags tcpSyn = true → payLen = 0)
  (hnull : payload = none → payLen = 0)

include hnull in
/-- A call gives `payLen` bytes. -/
theorem length_tcpPayloadBytes : (tcpPayloadBytes payload payLen).length = payLen.toNat := by
  cases payload with
  | none => rw [hnull rfl]; rfl
  | some p => simp [tcpPayloadBytes]

include hlen hsyn in
/-- Header and payload make the segment. -/
theorem toNat_tcpTotal : (tcpTotal flags payLen).toNat = tcpOffset flags * 4 + payLen.toNat := by
  unfold tcpTotal tcpOffset
  by_cases h : hasFlag flags tcpSyn = true
  · rw [if_pos h, if_pos h, hsyn h]
    rfl
  · rw [if_neg h, if_neg h, BitVec.toNat_add, show tcpHeaderBytes.toNat = 20 from rfl]
    omega

variable (payload) in
include hsyn in
/-- The bytes behind the first 20: options, or payload. -/
theorem tcpSegment_options :
    (((List.range (tcpOffset flags * 4 + payLen.toNat)).map (tcpSegment un c flags payload payLen)).take
        (tcpOffset flags * 4)).drop 20
      = if hasFlag flags tcpSyn then tcpBuildOptions else [] := by
  rw [take_map_range, Nat.min_eq_left (Nat.le_add_right _ _)]
  unfold tcpOffset
  by_cases h : hasFlag flags tcpSyn = true
  · rw [if_pos h, if_pos h, hsyn h]
    refine (drop_map_range _ 20 8).trans (List.ext_getElem rfl fun i hi _ => ?_)
    have hi' : i < 8 := by simpa using hi
    rw [List.getElem_map, List.getElem_range, tcpSegment_unsummed _ _ _ _ _ (by omega),
      tcpUnsummed_options un c payload h hi', List.getD_eq_getElem]
  · rw [if_neg h, if_neg h]
    rfl

include hsyn hnull in
theorem tcpSegment_data :
    ((List.range (tcpOffset flags * 4 + payLen.toNat)).map (tcpSegment un c flags payload payLen)).drop
        (tcpOffset flags * 4)
      = tcpPayloadBytes payload payLen := by
  rw [drop_map_range]
  by_cases hempty : payLen = 0
  · have hnone := length_tcpPayloadBytes hnull
    rw [hempty] at hnone ⊢
    exact (List.eq_nil_of_length_eq_zero hnone).symm
  · have hno : ¬ hasFlag flags tcpSyn = true := fun h => hempty (hsyn h)
    cases payload with
    | none => exact absurd (hnull rfl) hempty
    | some p =>
        apply List.map_congr_left
        intro i hi
        rw [List.mem_range] at hi
        rw [tcpOffset, if_neg hno, tcpSegment_unsummed _ _ _ _ _ (by omega),
          tcpUnsummed_payload _ _ _ _ hi]

include hlen hsyn hnull in
/-- **A segment, read back**: the fields of the record, the options of a SYN and the payload. -/
theorem tcpSegment_reads :
    Inet.tcp? boardIp c.peerIp
        ((List.range (tcpTotal flags payLen).toNat).map (tcpSegment un c flags payload payLen))
      = some (c.segment flags (tcpPayloadBytes payload payLen)) := by
  have hoffset := tcpOffset_bounds flags
  have htotal := toNat_tcpTotal hlen hsyn
  have hverifies := tcpSegment_verifies un c flags payload payLen (by omega)
  have hoptions := tcpSegment_options un c payload hsyn
  have hdata := tcpSegment_data un c hsyn hnull
  rw [← htotal] at hoptions hdata
  generalize (tcpTotal flags payLen).toNat = total at htotal hverifies hoptions hdata ⊢
  have hget : ∀ k, k < 16 → ((List.range total).map (tcpSegment un c flags payload payLen)).getD k 0
      = (c.header flags).getD k 0 := by
    intro k hk
    rw [getD_map_range _ _ (by omega), tcpSegment_header _ _ _ _ _ hk]
  have hcount : ((List.range total).map (tcpSegment un c flags payload payLen)).length = total := by
    simp
  generalize (List.range total).map (tcpSegment un c flags payload payLen) = seg at *
  have hfields := c.header_fields flags
  dsimp only at hfields
  obtain ⟨hsp, hdp, hseq, hack, hwords, hflags, hwindow⟩ := hfields
  rw [Inet.tcp?_eq (by rw [hget 12 (by omega)]; exact hwords) hoffset.1 (by omega)
      (by rw [hcount]; exact hverifies),
    hget 0 (by omega), hget 1 (by omega), hget 2 (by omega), hget 3 (by omega), hget 4 (by omega),
    hget 5 (by omega), hget 6 (by omega), hget 7 (by omega), hget 8 (by omega), hget 9 (by omega),
    hget 10 (by omega), hget 11 (by omega), hget 13 (by omega), hget 14 (by omega), hget 15 (by omega),
    hsp, hdp, hseq, hack, hflags, hwindow, hoptions, hdata]
  rfl

/-! ## §3. The frame, read back. -/

include hlen hsyn in
/-- The frame is as long as header and segment. -/
theorem toNat_tcpTotal_frame :
    (20 + tcpTotal flags payLen).toNat = 20 + (tcpTotal flags payLen).toNat := by
  have htotal := toNat_tcpTotal hlen hsyn
  have hoffset := tcpOffset_bounds flags
  rw [BitVec.toNat_add, show (20 : U16).toNat = 20 from rfl]
  omega

variable (payload) in
include hlen hsyn in
/-- What MAC TX reads for the request of `tcp_send`: the IP header, then the segment. -/
theorem tcpSend_reads {cid : Nat} (t : TcpState) (sh : Shared) (hcid : cid < maxTcpConn) :
    let sh' := (tcpSend un cid flags payload payLen t sh).2
    (∀ k, k < 20 → (macTxReads sh'.txReq sh'.buffer).getD k 0
        = ipHeader (20 + tcpTotal flags payLen) 0 128 ipProtoTcp boardIpBytes
          (wordBytes 4 (t.conn cid).peerIp) k)
      ∧ (macTxReads sh'.txReq sh'.buffer).drop 20
        = (List.range (tcpTotal flags payLen).toNat).map
          (tcpSegment un (t.conn cid) flags payload payLen) := by
  intro sh'
  obtain ⟨-, hbufLen, hbuffer, -⟩ := tcpSend_frame un flags payload t sh hcid
    (show payLen.toNat ≤ 576 by omega)
  have haddr : sh'.txReq.bufAddr.toNat = txUdpBase := by
    show (tcpSend un cid flags payload payLen t sh).2.txReq.bufAddr.toNat = txUdpBase
    unfold tcpSend
    rw [if_neg (by omega)]
    rfl
  have hframe := toNat_tcpTotal_frame hlen hsyn
  have hcount : sh'.txReq.bufLen.toNat = 20 + (tcpTotal flags payLen).toNat := by
    rw [show sh'.txReq.bufLen = _ from hbufLen, hframe]
  have hbyte : ∀ k, txByte sh'.txReq sh'.buffer k
      = (tcpWriteFrame un (t.conn cid) flags payload payLen sh.buffer).byteAt txUdpBase k := by
    intro k
    unfold txByte
    rw [haddr, show sh'.buffer = _ from hbuffer]
  constructor
  · intro k hk
    rw [macTxReads_getD _ _ (by omega), hbyte, tcpWriteFrame_header _ _ _ _ _ _ hk]
  · rw [macTxReads_eq, hcount, drop_map_range]
    apply List.map_congr_left
    intro k hk
    rw [List.mem_range] at hk
    rw [hbyte, tcpWriteFrame_segment _ _ _ _ _ _ hk]

variable (payload) in
include hlen hsyn in
/-- **The packet of `tcp_send`**, as its receiver reads it. -/
theorem tcpSend_ipv4 {cid : Nat} (t : TcpState) (sh : Shared) (hcid : cid < maxTcpConn) :
    let sh' := (tcpSend un cid flags payload payLen t sh).2
    let packet := macTxReads sh'.txReq sh'.buffer
    Inet.checksum (packet.take 20) = 0
      ∧ Inet.ipv4? packet = some
        { src := boardIp, dst := (t.conn cid).peerIp, protocol := ipProtoTcp
          totalLen := sh'.txReq.bufLen.toNat
          data := (List.range (tcpTotal flags payLen).toNat).map
            (tcpSegment un (t.conn cid) flags payload payLen) } := by
  intro sh' packet
  obtain ⟨-, hbufLen, -⟩ := tcpSend_frame un flags payload t sh hcid (show payLen.toNat ≤ 576 by omega)
  have hreads := tcpSend_reads un payload hlen hsyn t sh hcid
  dsimp only at hreads
  obtain ⟨hheader, hsegment⟩ := hreads
  have hframe := toNat_tcpTotal_frame hlen hsyn
  have hlength : packet.length = sh'.txReq.bufLen.toNat := length_macTxReads _ _
  have hbytes : packet.length = (20 + tcpTotal flags payLen).toNat := by
    rw [hlength, show sh'.txReq.bufLen = _ from hbufLen]
  have hfit : 20 ≤ packet.length := by omega
  refine ⟨ipHeader_checksum rfl (length_wordBytes 4 _) hheader hfit, ?_⟩
  have hstart : ∀ k, k < 20 → packet.getD k 0 = ipHeader (20 + tcpTotal flags payLen) 0 128 ipProtoTcp
      (wordBytes 4 boardIp) (wordBytes 4 (t.conn cid).peerIp) k := hheader
  have hip := ipv4?_ipHeader hstart (by omega) hbytes.ge
  rw [List.take_of_length_le hbytes.le, ← hbytes, hlength, show packet.drop 20 = _ from hsegment] at hip
  exact hip

end Call

/-- **The encoding of a segment.**  Whatever the record, the flags and the payload: the bytes
MAC TX reads for the request are an IPv4 packet from the board to the peer of the record, and
what it carries is the segment at the position the record had before the call, with its
options, its payload and a checksum that the receiver finds to be zero. -/
theorem tcp_segment_encoding (un : Uninit) {cid : Nat} (flags : U8) (payload : Option (Nat → U8))
    (payLen : U16) (t : TcpState) (sh : Shared) (hcid : cid < maxTcpConn) (hlen : payLen.toNat ≤ 536)
    (hsyn : hasFlag flags tcpSyn = true → payLen = 0) (hnull : payload = none → payLen = 0) :
    let c := t.conn cid
    let sh' := (tcpSend un cid flags payload payLen t sh).2
    let packet := macTxReads sh'.txReq sh'.buffer
    sh'.txReq.request = true ∧ packet.length = sh'.txReq.bufLen.toNat
      ∧ Inet.checksum (packet.take 20) = 0
      ∧ ∃ segment : List U8,
        Inet.ipv4? packet = some
            { src := boardIp, dst := c.peerIp, protocol := ipProtoTcp
              totalLen := sh'.txReq.bufLen.toNat, data := segment }
          ∧ Inet.checksum (Inet.pseudoHeader boardIp c.peerIp ipProtoTcp segment.length ++ segment) = 0
          ∧ Inet.tcp? boardIp c.peerIp segment = some
            { srcPort := 7
              dstPort := c.peerPort
              seq := c.seq
              ack := c.peerSeq
              dataOffset := if hasFlag flags tcpSyn then 7 else 5
              flags
              window := 0xFFFF
              options := if hasFlag flags tcpSyn then tcpBuildOptions else []
              data := tcpPayloadBytes payload payLen } := by
  intro c sh' packet
  obtain ⟨hrequest, -⟩ := tcpSend_frame un flags payload t sh hcid (show payLen.toNat ≤ 576 by omega)
  obtain ⟨hheader, hip⟩ := tcpSend_ipv4 un payload hlen hsyn t sh hcid
  have hmin : 20 ≤ (tcpTotal flags payLen).toNat := by
    have hoffset := tcpOffset_bounds flags
    have htotal := toNat_tcpTotal hlen hsyn
    omega
  refine ⟨hrequest, length_macTxReads _ _, hheader, _, hip, ?_, tcpSegment_reads un c hlen hsyn hnull⟩
  rw [List.length_map, List.length_range]
  exact tcpSegment_verifies un c flags payload payLen hmin

/-- An established connection in the middle of its stream. -/
def encodedConn : TcpState :=
  ({} : TcpState).setConn 0
    { state := .established, peerIp := 0xC0A86401, peerPort := 50000, seq := 0x12345679, peerSeq := 1001 }

/-- A segment of three bytes: its last word is half empty. -/
theorem tcp_segment_encoding_odd :
    let sh' := (tcpSend Uninit.zero 0 tcpAck (some fun i => BitVec.ofNat 8 (97 + i)) 3 encodedConn {}).2
    ∃ segment, Inet.ipv4? (macTxReads sh'.txReq sh'.buffer) = some
          { src := boardIp, dst := 0xC0A86401, protocol := ipProtoTcp, totalLen := 43, data := segment }
      ∧ Inet.tcp? boardIp 0xC0A86401 segment = some
          { srcPort := 7, dstPort := 50000, seq := 0x12345679, ack := 1001, dataOffset := 5
            flags := tcpAck, window := 0xFFFF, options := [], data := [97, 98, 99] } := by
  have h := tcp_segment_encoding Uninit.zero tcpAck (some fun i => BitVec.ofNat 8 (97 + i)) 3 encodedConn
    {} (show 0 < maxTcpConn by decide) (by decide) (by decide) (by decide)
  dsimp only at h
  obtain ⟨-, -, -, segment, hip, -, htcp⟩ := h
  exact ⟨segment, hip, htcp⟩

end GigabitTcp
