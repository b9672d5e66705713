/-
  GigabitTcp.LayerIcmp — ICMP echo (`layer_icmp.cpp`) and IGMP reports (`layer_igmp.cpp`).

  Both answer in the pass in which the request completes: they build the reply in the
  scratch region and fill the mailbox, whatever MAC TX is doing.
-/
import GigabitTcp.LayerIp

namespace GigabitTcp

open Hw

/-! ## §1. ICMP. -/

/-- `icmp_checksum`. -/
def icmpChecksum (b : Nat → U8) (len : Nat) : U16 := byteChecksum 0 b len

/-- `icmp_total_len`: a 16-bit subtraction that wraps below 20. -/
def icmpTotalLen (ipRx : IpRx) : U16 := ipRx.totalLen - ipHeaderBytes

/-- `icmp_words`: the length rounded up to words. -/
def icmpWords (ipRx : IpRx) : Nat := ((icmpTotalLen ipRx).toNat + 3) / 4

/-- The request test of `icmp_rx_process`. -/
def icmpIsEcho (frameBuf : Mem U32) : Bool :=
  frameBuf.byteAt 5 0 == icmpEchoRequest && frameBuf.byteAt 5 1 == 0

/-- The echo message at the start of the scratch region: copied, type and checksum field
rewritten, checksum inserted. -/
def icmpEchoMessage (buffer : Mem U32) (frameBuf : Mem U32) (ipRx : IpRx) : Mem U32 :=
  let buffer := buffer.fill txScratchBase (icmpWords ipRx) (fun i => frameBuf (5 + i))
  let w0 := (frameBuf 5 &&& 0x00FFFFFF#32) ||| (icmpEchoReply.setWidth 32 <<< 24)
  let buffer := buffer.set txScratchBase w0
  -- the checksum field is zero while the sum is taken
  let buffer := buffer.set txScratchBase (buffer txScratchBase &&& 0xFFFF0000#32)
  let csum := icmpChecksum (buffer.byteAt txScratchBase) (icmpTotalLen ipRx).toNat
  buffer.set txScratchBase ((buffer txScratchBase &&& 0xFFFF0000#32) ||| csum.setWidth 32)

/-- The whole reply: the message shifted up by five words, and the IP header before it. -/
def icmpReplyFrame (buffer : Mem U32) (frameBuf : Mem U32) (ipRx : IpRx) : Mem U32 :=
  let buffer := (icmpEchoMessage buffer frameBuf ipRx).moveUp txScratchBase 5 (icmpWords ipRx)
  let hdr := ipHeader (ipHeaderBytes + icmpTotalLen ipRx) 0 128 ipProtoIcmp boardIpBytes
    (wordBytes 4 ipRx.srcIp)
  buffer.fill txScratchBase 5 (Mem.wordOf hdr)

/-- `icmp_rx_process`. -/
def icmpRxProcess (resetN : Bool) (ipRx : IpRx) (frameBuf : Mem U32) (sh : Shared) : Shared :=
  if !resetN || !ipRx.valid || ipRx.protocol != ipProtoIcmp then sh
  else if icmpIsEcho frameBuf then
    let sh := { sh with buffer := icmpReplyFrame sh.buffer frameBuf ipRx }
    let (mac, sh) := replyMac sh ipRx.srcIp
    sh.issue mac ethertypeIpv4 txScratchBase (ipHeaderBytes + icmpTotalLen ipRx)
  else sh

/-! ## §2. IGMP. -/

/-- `igmp_checksum`. -/
def igmpChecksum (b : Nat → U8) (len : Nat) : U16 := byteChecksum 0 b len

/-- `should_respond`: a general query or a query for the board's group. -/
def igmpShouldRespond (frameBuf : Mem U32) : Bool :=
  let b := frameBuf.byteAt 5
  let group := packWord (b 4) (b 5) (b 6) (b 7)
  b 0 == igmpQuery && (group == 0 || group == boardMcast)

/-- `report_type`: a v1 router sends max-response 0. -/
def igmpReportType (frameBuf : Mem U32) : U8 :=
  if frameBuf.byteAt 5 1 = 0 then igmpReportV1 else igmpReportV2

/-- The 8 bytes of the membership report. -/
def igmpReport (reportType : U8) : Nat → U8 :=
  let r := putBytes (fun _ => 0) 0 ([reportType, 0, 0, 0] ++ boardMcastBytes)
  let csum := igmpChecksum r 8
  putBytes r 2 [hi8 csum, lo8 csum]

/-- `igmp_rx_process`. -/
def igmpRxProcess (resetN : Bool) (ipRx : IpRx) (frameBuf : Mem U32) (sh : Shared) : Shared :=
  if !resetN || !ipRx.valid || ipRx.protocol != ipProtoIgmp then sh
  else if igmpShouldRespond frameBuf then
    let buffer := sh.buffer.fill (txScratchBase + 5) 2
      (Mem.wordOf (igmpReport (igmpReportType frameBuf)))
    let hdr := ipHeader (ipHeaderBytes + 8) 0 1 ipProtoIgmp boardIpBytes boardMcastBytes
    let sh := { sh with buffer := buffer.fill txScratchBase 5 (Mem.wordOf hdr) }
    sh.issue broadcastMac ethertypeIpv4 txScratchBase (ipHeaderBytes + 8)
  else sh

end GigabitTcp
