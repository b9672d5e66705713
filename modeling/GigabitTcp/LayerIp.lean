/-
  GigabitTcp.LayerIp — IPv4 reception (`layer_ip.cpp`) and the header every builder writes.
-/
import GigabitTcp.LayerArp

namespace GigabitTcp

open Hw

/-! ## §1. Reception. -/

/-- The broadcast MAC unless the ARP cache knows better, with the tables after the lookup. -/
def replyMac (sh : Shared) (ip : U32) : U48 × Shared :=
  let r := arpLookup sh.arp ip
  (r.1.getD broadcastMac, { sh with arp := r.2 })

/-- The header fields of the staged frame, with the checksum verdict. -/
def ipFields (frameBuf : Mem U32) : IpRx :=
  let hdr := frameBuf.byteAt 0
  { totalLen := be16 (hdr 2) (hdr 3)
    id := be16 (hdr 4) (hdr 5)
    ttl := hdr 8
    protocol := hdr 9
    hdrChecksum := be16 (hdr 10) (hdr 11)
    srcIp := packWord (hdr 12) (hdr 13) (hdr 14) (hdr 15)
    dstIp := packWord (hdr 16) (hdr 17) (hdr 18) (hdr 19)
    checksumOk := onesComplementChecksum (be16Words hdr 10) == 0 }

/-- `ip_rx_process`. -/
def ipRxProcess (resetN : Bool) (macRx : MacRx) (frameBuf : Mem U32) : IpRx :=
  if !resetN then {}
  else if !macRx.valid then {}
  else if macRx.ethertype ≠ ethertypeIpv4 then {}
  else if frameBuf.byteAt 0 0 >>> 4 ≠ 4#8 then {}
  else if frameBuf.byteAt 0 0 &&& 0xF#8 ≠ 5#8 then {}
  else
    let f := ipFields frameBuf
    -- a wrong checksum leaves the fields, but no valid packet
    if f.dstIp = boardIp ∨ f.dstIp = broadcastIp then
      { f with valid := f.checksumOk, bufBase := macRx.bufBase }
    else f

/-! ## §2. The header the builders write. -/

def hi8 (x : U16) : U8 := (x >>> 8).setWidth 8
def lo8 (x : U16) : U8 := x.setWidth 8

/-- The 20 header bytes that the ICMP, IGMP, UDP, TCP and DHCP builders each write out, with
the checksum inserted. -/
def ipHeader (totalLen id : U16) (ttl protocol : U8) (src dst : List U8) : Nat → U8 :=
  let h := putBytes (fun _ => 0) 0
    ([0x45, 0x00, hi8 totalLen, lo8 totalLen, hi8 id, lo8 id, 0x40, 0x00, ttl, protocol, 0, 0]
      ++ src ++ dst)
  let csum := onesComplementChecksum (be16Words h 10)
  putBytes h 10 [hi8 csum, lo8 csum]

theorem be16_hi8_lo8 (x : U16) : be16 (hi8 x) (lo8 x) = x := by
  apply BitVec.eq_of_toNat_eq
  have hx : x.toNat < 2 ^ 16 := x.isLt
  rw [toNat_be16]
  unfold hi8 lo8
  simp only [BitVec.toNat_setWidth, BitVec.toNat_ushiftRight, Nat.shiftRight_eq_div_pow]
  omega

theorem toNat_hi8_lo8 (x : U16) : (hi8 x).toNat * 256 + (lo8 x).toNat = x.toNat := by
  rw [← toNat_be16, be16_hi8_lo8]

/-- The bytes of a header around its checksum. -/
theorem ipHeader_byte (totalLen id : U16) (ttl protocol : U8) {src dst : List U8}
    (hsrc : src.length = 4) (hdst : dst.length = 4) {k : Nat} (hk : k < 20)
    (hcsum : ¬ (10 ≤ k ∧ k < 12)) :
    ipHeader totalLen id ttl protocol src dst k
      = ([0x45, 0x00, hi8 totalLen, lo8 totalLen, hi8 id, lo8 id, 0x40, 0x00, ttl, protocol, 0, 0]
        ++ src ++ dst).getD k 0 := by
  unfold ipHeader
  rw [putBytes_outside _ _ (by simpa using hcsum), putBytes_inside _ _ (by simp [hsrc, hdst]; omega)]
  rfl

/-- The source address of a header. -/
theorem ipHeader_src (totalLen id : U16) (ttl protocol : U8) {src dst : List U8}
    (hsrc : src.length = 4) (hdst : dst.length = 4) {i : Nat} (hi : i < 4) :
    ipHeader totalLen id ttl protocol src dst (12 + i) = src.getD i 0 := by
  rw [ipHeader_byte _ _ _ _ hsrc hdst (by omega) (by omega), List.append_assoc,
    List.getD_eq_getElem?_getD, List.getElem?_append_right (by simp),
    List.getElem?_append_left (by simp; omega), List.getD_eq_getElem?_getD]
  simp

/-- The destination address of a header. -/
theorem ipHeader_dst (totalLen id : U16) (ttl protocol : U8) {src dst : List U8}
    (hsrc : src.length = 4) (hdst : dst.length = 4) {i : Nat} (hi : i < 4) :
    ipHeader totalLen id ttl protocol src dst (16 + i) = dst.getD i 0 := by
  rw [ipHeader_byte _ _ _ _ hsrc hdst (by omega) (by omega), List.getD_eq_getElem?_getD,
    List.getElem?_append_right (by simp [hsrc]), List.getD_eq_getElem?_getD]
  simp [hsrc]

/-! ### Read back. -/

/-- The checksum field is empty while the sum is taken, so the finished header verifies. -/
theorem ipHeader_verifies (totalLen id : U16) (ttl protocol : U8) {src dst : List U8}
    (hsrc : src.length = 4) (hdst : dst.length = 4) :
    onesComplementChecksum (be16Words (ipHeader totalLen id ttl protocol src dst) 10) = 0 := by
  unfold ipHeader
  dsimp only
  generalize hh : putBytes (fun _ => 0) 0 ([0x45, 0x00, hi8 totalLen, lo8 totalLen, hi8 id, lo8 id,
    0x40, 0x00, ttl, protocol, 0, 0] ++ src ++ dst) = h
  have hempty : h 10 = 0 ∧ h 11 = 0 := by
    rw [← hh]
    constructor <;> rw [putBytes_inside _ _ (by simp [hsrc, hdst])] <;> rfl
  have hwords : ∀ b : Nat → U8, be16Words b 10
      = [be16 (b 0) (b 1), be16 (b 2) (b 3), be16 (b 4) (b 5), be16 (b 6) (b 7), be16 (b 8) (b 9)]
        ++ be16 (b 10) (b 11) :: [be16 (b 12) (b 13), be16 (b 14) (b 15), be16 (b 16) (b 17),
          be16 (b 18) (b 19)] := fun _ => rfl
  have hzero : be16 (h 10) (h 11) = 0 := by
    rw [hempty.1, hempty.2]
    rfl
  generalize hc : onesComplementChecksum (be16Words h 10) = c
  -- the checksum goes into its own place, and nothing else changes
  have hput : ∀ k, putBytes h 10 [hi8 c, lo8 c] k
      = if k = 10 then hi8 c else if k = 11 then lo8 c else h k := by
    intro k
    by_cases h10 : k = 10
    · rw [if_pos h10, h10, putBytes_inside _ _ (by simp)]
      rfl
    · by_cases h11 : k = 11
      · rw [if_neg h10, if_pos h11, h11, putBytes_inside _ _ (by simp)]
        rfl
      · rw [if_neg h10, if_neg h11, putBytes_outside _ _ (by simp; omega)]
  rw [hwords]
  simp only [hput, Nat.reduceEqDiff, if_true, if_false]
  rw [be16_hi8_lo8, ← hc, hwords, hzero]
  exact checksum_verifies _ _ (by simp)

/-- The fields of a header. -/
theorem ipHeader_fields (totalLen id : U16) (ttl protocol : U8) {src dst : List U8}
    (hsrc : src.length = 4) (hdst : dst.length = 4) :
    let h := ipHeader totalLen id ttl protocol src dst
    h 0 = 0x45 ∧ h 2 = hi8 totalLen ∧ h 3 = lo8 totalLen ∧ h 9 = protocol := by
  have hbyte : ∀ k, k < 10 → ipHeader totalLen id ttl protocol src dst k
      = ([0x45, 0x00, hi8 totalLen, lo8 totalLen, hi8 id, lo8 id, 0x40, 0x00, ttl, protocol, 0, 0]
        ++ src ++ dst).getD k 0 :=
    fun k hk => ipHeader_byte _ _ _ _ hsrc hdst (by omega) (by omega)
  exact ⟨hbyte 0 (by omega), hbyte 2 (by omega), hbyte 3 (by omega), hbyte 9 (by omega)⟩

/-- A written header verifies where it stands. -/
theorem ipHeader_checksum {bytes : List U8} {totalLen id : U16} {ttl protocol : U8} {src dst : List U8}
    (hsrc : src.length = 4) (hdst : dst.length = 4)
    (hbytes : ∀ k, k < 20 → bytes.getD k 0 = ipHeader totalLen id ttl protocol src dst k)
    (hfit : 20 ≤ bytes.length) : Inet.checksum (bytes.take 20) = 0 := by
  rw [take_eq_map_range hfit hbytes, show (20 : Nat) = 10 * 2 from rfl,
    ← toNat_onesComplementChecksum_be16Words _ (by omega),
    ipHeader_verifies totalLen id ttl protocol hsrc hdst]
  rfl

/-- **A packet that starts with a written header is accepted**, with the fields that were
asked for and the bytes behind the header. -/
theorem ipv4?_ipHeader {bytes : List U8} {totalLen id : U16} {ttl protocol : U8} {src dst : U32}
    (hbytes : ∀ k, k < 20 → bytes.getD k 0
      = ipHeader totalLen id ttl protocol (wordBytes 4 src) (wordBytes 4 dst) k)
    (hmin : 20 ≤ totalLen.toNat) (hfit : totalLen.toNat ≤ bytes.length) :
    Inet.ipv4? bytes = some
      { src, dst, protocol, totalLen := totalLen.toNat
        data := (bytes.take totalLen.toNat).drop 20 } := by
  have hsrc := length_wordBytes 4 src
  have hdst := length_wordBytes 4 dst
  obtain ⟨h0, h2, h3, h9⟩ := ipHeader_fields totalLen id ttl protocol hsrc hdst
  have hsum := ipHeader_checksum hsrc hdst hbytes (by omega)
  have hsrcs : ∀ i, i < 4 → bytes.getD (12 + i) 0 = (wordBytes 4 src).getD i 0 := fun i hi => by
    rw [hbytes _ (by omega), ipHeader_src _ _ _ _ hsrc hdst hi]
  have hdsts : ∀ i, i < 4 → bytes.getD (16 + i) 0 = (wordBytes 4 dst).getD i 0 := fun i hi => by
    rw [hbytes _ (by omega), ipHeader_dst _ _ _ _ hsrc hdst hi]
  have htotal : be16 (bytes.getD 2 0) (bytes.getD 3 0) = totalLen := by
    rw [hbytes 2 (by omega), hbytes 3 (by omega), h2, h3, be16_hi8_lo8]
  rw [Inet.ipv4?_eq (by rw [hbytes 0 (by omega), h0]) htotal hmin hfit hsum, hbytes 9 (by omega), h9,
    hsrcs 0 (by omega), hsrcs 1 (by omega), hsrcs 2 (by omega), hsrcs 3 (by omega),
    hdsts 0 (by omega), hdsts 1 (by omega), hdsts 2 (by omega), hdsts 3 (by omega),
    packWord_wordBytes, packWord_wordBytes]

end GigabitTcp
