/-
  GigabitTcp.Hw.Inet — IPv4, TCP, UDP and ARP as a receiver reads them.

  The receiver's side of the formats: a byte string is taken apart into its fields and
  its data, or refused.  The Internet checksum of a string is the complement of the folded sum
  of its 16-bit words, an odd last byte padded with zero; a string that carries its own
  checksum has checksum zero, which is what the receiver recomputes.

  Main results:
    * `sum_append`          — sums add up over a prefix of even length,
    * `checksum_insert`     — a checksum put in the place of a zero word verifies,
    * `ipv4?_eq`, `tcp?_eq`, `udp?_eq` — what is enough for a string to be accepted.
-/
import GigabitTcp.Hw.Words
import GigabitTcp.Hw.OnesComplement

namespace Hw.Inet

open Hw

/-! ## §1. The Internet checksum. -/

/-- The sum of the 16-bit words of a string. -/
def sum : List U8 → Nat
  | [] => 0
  | [b] => b.toNat * 256
  | b0 :: b1 :: rest => b0.toNat * 256 + b1.toNat + sum rest

/-- The checksum over a string. -/
def checksum (bytes : List U8) : Nat := 65535 - OnesComplement.wrap 16 (sum bytes)

/-- Sums add up as long as no word straddles the seam. -/
theorem sum_append (xs ys : List U8) (h : xs.length % 2 = 0) : sum (xs ++ ys) = sum xs + sum ys := by
  induction xs using sum.induct with
  | case1 => rw [List.nil_append, sum, Nat.zero_add]
  | case2 b => simp at h
  | case3 b0 b1 rest ih =>
      have hrest : rest.length % 2 = 0 := by
        simp only [List.length_cons] at h
        omega
      rw [List.cons_append, List.cons_append, sum, sum, ih hrest, ← Nat.add_assoc]

theorem sum_pair (b0 b1 : U8) : sum [b0, b1] = b0.toNat * 256 + b1.toNat := by
  rw [sum, sum, Nat.add_zero]

/-- The words of a byte function, summed one by one. -/
theorem sum_map_range (b : Nat → U8) (n : Nat) :
    sum ((List.range (n * 2)).map b)
      = ((List.range n).map (fun i => (be16 (b (i * 2)) (b (i * 2 + 1))).toNat)).sum := by
  induction n with
  | zero => rfl
  | succ n ih =>
      rw [show (n + 1) * 2 = n * 2 + 1 + 1 by omega, List.range_succ, List.range_succ,
        List.append_assoc, List.map_append, sum_append _ _ (by simp), ih, List.range_succ]
      simp [sum_pair, toNat_be16]

/-- **A checksum verifies**: put in the place of a zero word, it makes the checksum zero. -/
theorem checksum_insert {pre post : List U8} {c0 c1 : U8} (hpre : pre.length % 2 = 0)
    (hc : c0.toNat * 256 + c1.toNat = checksum (pre ++ ([0, 0] ++ post))) :
    checksum (pre ++ ([c0, c1] ++ post)) = 0 := by
  have hsum : ∀ b0 b1 : U8, sum (pre ++ ([b0, b1] ++ post))
      = sum pre + sum post + (b0.toNat * 256 + b1.toNat) := by
    intro b0 b1
    rw [sum_append _ _ hpre, sum_append [b0, b1] post (by simp), sum_pair]
    omega
  have hones := OnesComplement.wrap_complement (w := 16) (by omega) (sum (pre ++ ([0, 0] ++ post)))
  have hzero : sum (pre ++ ([0, 0] ++ post)) = sum pre + sum post := hsum 0 0
  unfold checksum at hc ⊢
  rw [hsum, hc, ← hzero, show (65535 : Nat) = 2 ^ 16 - 1 from rfl, hones, Nat.sub_self]

/-! ## §2. IPv4. -/

/-- What a receiver takes out of an IPv4 packet. -/
structure Ipv4Packet where
  src : U32
  dst : U32
  protocol : U8
  totalLen : Nat
  data : List U8
  deriving Repr, DecidableEq

/-- Read an IPv4 packet; bytes behind its total length are padding. -/
def ipv4? (bytes : List U8) : Option Ipv4Packet :=
  let b := fun k => bytes.getD k 0
  let header := (b 0 &&& 0xF#8).toNat * 4
  let total := (be16 (b 2) (b 3)).toNat
  if b 0 >>> 4 ≠ 4#8 then none
  else if header < 20 ∨ total < header ∨ bytes.length < total then none
  else if checksum (bytes.take header) ≠ 0 then none
  else some
    { src := packWord (b 12) (b 13) (b 14) (b 15)
      dst := packWord (b 16) (b 17) (b 18) (b 19)
      protocol := b 9
      totalLen := total
      data := (bytes.take total).drop header }

/-- A header without options that fits and verifies is accepted. -/
theorem ipv4?_eq {bytes : List U8} {total : U16} (hver : bytes.getD 0 0 = 0x45)
    (htotal : be16 (bytes.getD 2 0) (bytes.getD 3 0) = total) (hmin : 20 ≤ total.toNat)
    (hfit : total.toNat ≤ bytes.length) (hsum : checksum (bytes.take 20) = 0) :
    ipv4? bytes = some
      { src := packWord (bytes.getD 12 0) (bytes.getD 13 0) (bytes.getD 14 0) (bytes.getD 15 0)
        dst := packWord (bytes.getD 16 0) (bytes.getD 17 0) (bytes.getD 18 0) (bytes.getD 19 0)
        protocol := bytes.getD 9 0
        totalLen := total.toNat
        data := (bytes.take total.toNat).drop 20 } := by
  have hheader : ((0x45 : U8) &&& 0xF#8).toNat * 4 = 20 := rfl
  unfold ipv4?
  dsimp only
  simp only [hver, htotal, hheader]
  rw [if_neg (by decide), if_neg (by omega), if_neg (by simpa using hsum)]

/-- What an accepted packet without options says about its bytes. -/
theorem ipv4?_some {bytes : List U8} {p : Ipv4Packet} (h : ipv4? bytes = some p)
    (hplain : bytes.getD 0 0 = 0x45) :
    checksum (bytes.take 20) = 0
      ∧ p.src = packWord (bytes.getD 12 0) (bytes.getD 13 0) (bytes.getD 14 0) (bytes.getD 15 0)
      ∧ p.dst = packWord (bytes.getD 16 0) (bytes.getD 17 0) (bytes.getD 18 0) (bytes.getD 19 0)
      ∧ p.protocol = bytes.getD 9 0 ∧ p.totalLen = (be16 (bytes.getD 2 0) (bytes.getD 3 0)).toNat
      ∧ 20 ≤ p.totalLen ∧ p.totalLen ≤ bytes.length
      ∧ p.data = (bytes.take p.totalLen).drop 20 := by
  have hheader : ((0x45 : U8) &&& 0xF#8).toNat * 4 = 20 := rfl
  unfold ipv4? at h
  simp only [hplain, hheader] at h
  split_ifs at h with hversion hfit hsum
  obtain ⟨hmin, hmax⟩ : 20 ≤ (be16 (bytes.getD 2 0) (bytes.getD 3 0)).toNat
      ∧ (be16 (bytes.getD 2 0) (bytes.getD 3 0)).toNat ≤ bytes.length := by omega
  obtain rfl := Option.some_inj.mp h
  exact ⟨not_not.mp hsum, rfl, rfl, rfl, rfl, hmin, hmax, rfl⟩

/-- Padding behind a packet is not looked at. -/
theorem ipv4?_append {bytes : List U8} {p : Ipv4Packet} (h : ipv4? bytes = some p) (pad : List U8) :
    ipv4? (bytes ++ pad) = some p := by
  unfold ipv4? at h ⊢
  dsimp only at h ⊢
  split_ifs at h with hversion hfit hsum
  obtain rfl := Option.some_inj.mp h
  have hlen : 20 ≤ bytes.length := by omega
  have hb : ∀ {k : Nat}, k < 20 → (bytes ++ pad).getD k 0 = bytes.getD k 0 := by
    intro k hk
    rw [List.getD_eq_getElem?_getD, List.getElem?_append_left (by omega), ← List.getD_eq_getElem?_getD]
  have htake : ∀ {n : Nat}, n ≤ bytes.length → (bytes ++ pad).take n = bytes.take n :=
    fun hn => List.take_append_of_le_length hn
  simp (disch := omega) only [hb, htake, List.length_append]
  rw [if_neg hversion, if_neg (by omega), if_neg hsum]

/-! ## §3. TCP and UDP. -/

/-- What TCP and UDP checksums cover in front of the segment. -/
def pseudoHeader (src dst : U32) (protocol : U8) (len : Nat) : List U8 :=
  wordBytes 4 src ++ wordBytes 4 dst ++ [0, protocol] ++ wordBytes 2 (BitVec.ofNat 16 len)

theorem length_pseudoHeader (src dst : U32) (protocol : U8) (len : Nat) :
    (pseudoHeader src dst protocol len).length = 12 := by
  simp [pseudoHeader]

/-- The halves of the addresses, the protocol and the length. -/
theorem sum_pseudoHeader (src dst : U32) (protocol : U8) {len : Nat} (hlen : len < 65536) :
    sum (pseudoHeader src dst protocol len)
      = src.toNat / 65536 + src.toNat % 65536 + (dst.toNat / 65536 + dst.toNat % 65536)
        + protocol.toNat + len := by
  have hsrc : src.toNat < 2 ^ 32 := src.isLt
  have hdst : dst.toNat < 2 ^ 32 := dst.isLt
  have hbytes : pseudoHeader src dst protocol len
      = [lsByte src 3, lsByte src 2, lsByte src 1, lsByte src 0, lsByte dst 3, lsByte dst 2,
        lsByte dst 1, lsByte dst 0, 0, protocol, lsByte (BitVec.ofNat 16 len) 1,
        lsByte (BitVec.ofNat 16 len) 0] := rfl
  rw [hbytes]
  have hzero : (0 : U8).toNat = 0 := rfl
  simp only [sum, toNat_lsByte, BitVec.toNat_ofNat, Nat.reduceMul, Nat.reducePow,
    Nat.mod_eq_of_lt hlen, hzero]
  omega

/-- What a receiver takes out of a TCP segment. -/
structure TcpSegment where
  srcPort : U16
  dstPort : U16
  seq : U32
  ack : U32
  /-- In words. -/
  dataOffset : Nat
  flags : U8
  window : U16
  options : List U8
  data : List U8
  deriving Repr, DecidableEq

/-- Read the TCP segment of a packet between two addresses. -/
def tcp? (src dst : U32) (bytes : List U8) : Option TcpSegment :=
  let b := fun k => bytes.getD k 0
  let offset := (b 12 >>> 4).toNat
  if offset < 5 ∨ bytes.length < offset * 4 then none
  else if checksum (pseudoHeader src dst 6 bytes.length ++ bytes) ≠ 0 then none
  else some
    { srcPort := be16 (b 0) (b 1)
      dstPort := be16 (b 2) (b 3)
      seq := packWord (b 4) (b 5) (b 6) (b 7)
      ack := packWord (b 8) (b 9) (b 10) (b 11)
      dataOffset := offset
      flags := b 13
      window := be16 (b 14) (b 15)
      options := (bytes.take (offset * 4)).drop 20
      data := bytes.drop (offset * 4) }

/-- A segment whose header fits and whose checksum verifies is accepted. -/
theorem tcp?_eq {src dst : U32} {bytes : List U8} {offset : Nat}
    (hoffset : (bytes.getD 12 0 >>> 4).toNat = offset) (hmin : 5 ≤ offset)
    (hfit : offset * 4 ≤ bytes.length)
    (hsum : checksum (pseudoHeader src dst 6 bytes.length ++ bytes) = 0) :
    tcp? src dst bytes = some
      { srcPort := be16 (bytes.getD 0 0) (bytes.getD 1 0)
        dstPort := be16 (bytes.getD 2 0) (bytes.getD 3 0)
        seq := packWord (bytes.getD 4 0) (bytes.getD 5 0) (bytes.getD 6 0) (bytes.getD 7 0)
        ack := packWord (bytes.getD 8 0) (bytes.getD 9 0) (bytes.getD 10 0) (bytes.getD 11 0)
        dataOffset := offset
        flags := bytes.getD 13 0
        window := be16 (bytes.getD 14 0) (bytes.getD 15 0)
        options := (bytes.take (offset * 4)).drop 20
        data := bytes.drop (offset * 4) } := by
  unfold tcp?
  dsimp only
  simp only [hoffset]
  rw [if_neg (by omega), if_neg (by simpa using hsum)]

/-- What an accepted segment says about its bytes. -/
theorem tcp?_some {src dst : U32} {bytes : List U8} {g : TcpSegment} (h : tcp? src dst bytes = some g) :
    g.srcPort = be16 (bytes.getD 0 0) (bytes.getD 1 0) ∧ g.dstPort = be16 (bytes.getD 2 0) (bytes.getD 3 0)
      ∧ g.seq = packWord (bytes.getD 4 0) (bytes.getD 5 0) (bytes.getD 6 0) (bytes.getD 7 0)
      ∧ g.ack = packWord (bytes.getD 8 0) (bytes.getD 9 0) (bytes.getD 10 0) (bytes.getD 11 0)
      ∧ g.dataOffset = (bytes.getD 12 0 >>> 4).toNat ∧ g.flags = bytes.getD 13 0
      ∧ 5 ≤ g.dataOffset ∧ g.dataOffset * 4 ≤ bytes.length ∧ g.data = bytes.drop (g.dataOffset * 4) := by
  unfold tcp? at h
  dsimp only at h
  split_ifs at h with hfit hsum
  obtain rfl := Option.some_inj.mp h
  refine ⟨rfl, rfl, rfl, rfl, rfl, rfl, ?_, ?_, rfl⟩
  · exact Nat.le_of_not_lt fun hlt => hfit (.inl hlt)
  · exact Nat.le_of_not_lt fun hlt => hfit (.inr hlt)

/-- What a receiver takes out of a UDP datagram. -/
structure UdpDatagram where
  srcPort : U16
  dstPort : U16
  length : Nat
  data : List U8
  deriving Repr, DecidableEq

/-- The fields of a datagram, as they stand in its bytes. -/
def udpRead (bytes : List U8) : UdpDatagram :=
  let b := fun k => bytes.getD k 0
  let len := (be16 (b 4) (b 5)).toNat
  { srcPort := be16 (b 0) (b 1)
    dstPort := be16 (b 2) (b 3)
    length := len
    data := (bytes.take len).drop 8 }

/-- Read the UDP datagram of a packet between two addresses; a zero checksum is not checked. -/
def udp? (src dst : U32) (bytes : List U8) : Option UdpDatagram :=
  let len := (udpRead bytes).length
  if len < 8 ∨ bytes.length < len then none
  else if be16 (bytes.getD 6 0) (bytes.getD 7 0) ≠ 0
    ∧ checksum (pseudoHeader src dst 17 len ++ bytes.take len) ≠ 0 then none
  else some (udpRead bytes)

/-- A datagram without a checksum is accepted if its length fits. -/
theorem udp?_eq {src dst : U32} {bytes : List U8} (hmin : 8 ≤ (udpRead bytes).length)
    (hfit : (udpRead bytes).length ≤ bytes.length)
    (hnone : be16 (bytes.getD 6 0) (bytes.getD 7 0) = 0) :
    udp? src dst bytes = some (udpRead bytes) := by
  unfold udp?
  dsimp only
  rw [if_neg (by omega), if_neg (fun h => h.1 hnone)]

/-! ## §4. ARP. -/

/-- What a receiver takes out of an ARP packet. -/
structure ArpPacket where
  opcode : U16
  senderMac : U48
  senderIp : U32
  targetMac : U48
  targetIp : U32
  deriving Repr, DecidableEq

/-- The fields of a packet, as they stand in its bytes. -/
def arpRead (bytes : List U8) : ArpPacket :=
  let b := fun k => bytes.getD k 0
  { opcode := be16 (b 6) (b 7)
    senderMac := [b 8, b 9, b 10, b 11, b 12, b 13].foldl pushByte 0
    senderIp := packWord (b 14) (b 15) (b 16) (b 17)
    targetMac := [b 18, b 19, b 20, b 21, b 22, b 23].foldl pushByte 0
    targetIp := packWord (b 24) (b 25) (b 26) (b 27) }

/-- Read an ARP packet for IPv4 over Ethernet. -/
def arp? (bytes : List U8) : Option ArpPacket :=
  if 28 ≤ bytes.length ∧ bytes.take 6 = [0, 1, 8, 0, 6, 4] then some (arpRead bytes) else none

/-- Padding behind an ARP packet is not looked at. -/
theorem arp?_append {bytes : List U8} {q : ArpPacket} (h : arp? bytes = some q) (pad : List U8) :
    arp? (bytes ++ pad) = some q := by
  unfold arp? at h ⊢
  split_ifs at h with hcond
  obtain ⟨hlen, hkind⟩ := hcond
  have hb : ∀ {k : Nat}, k < 28 → (bytes ++ pad).getD k 0 = bytes.getD k 0 := by
    intro k hk
    rw [List.getD_eq_getElem?_getD, List.getElem?_append_left (by omega), ← List.getD_eq_getElem?_getD]
  have hread : arpRead (bytes ++ pad) = arpRead bytes := by
    unfold arpRead
    simp (disch := omega) only [hb]
  rw [if_pos ⟨by rw [List.length_append]; omega, by rwa [List.take_append_of_le_length (by omega)]⟩, hread]
  exact h

end Hw.Inet
