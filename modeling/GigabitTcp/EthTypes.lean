/-
  GigabitTcp.EthTypes — the interface records and protocol constants of `eth_types.h`.

  Every `ap_uint<n>` and `uintN_t` field is a bit vector of that width.  Arrays are total
  functions (`Hw.Mem`): an index the C++ array does not have reads or writes a cell of its
  own, so an out-of-range access never disturbs an in-range cell of the model.  Which
  indices the code really uses is a separate question, settled where it matters.
-/
import GigabitTcp.Hw.Mem

namespace GigabitTcp

open Hw

/-! ## §1. Protocol constants. -/

def ethertypeIpv4 : U16 := 0x0800
def ethertypeArp : U16 := 0x0806

/-- 802.1Q single tag. -/
def tpidVlan : U16 := 0x8100
/-- 802.1ad provider bridge. -/
def tpidQinq : U16 := 0x88A8

def ipProtoIcmp : U8 := 1
def ipProtoIgmp : U8 := 2
def ipProtoTcp : U8 := 6
def ipProtoUdp : U8 := 17

def icmpEchoReply : U8 := 0
def icmpEchoRequest : U8 := 8

def igmpQuery : U8 := 0x11
def igmpReportV1 : U8 := 0x12
def igmpReportV2 : U8 := 0x16

def dhcpClientPort : U16 := 68
def dhcpServerPort : U16 := 67
def dhcpOpRequest : U8 := 1
def dhcpOpReply : U8 := 2
def dhcpHtypeEth : U8 := 1
def dhcpHlen : U8 := 6
def dhcpMagicCookie : U32 := 0x63825363
def dhcpMsgDiscover : U8 := 1
def dhcpMsgOffer : U8 := 2
def dhcpMsgRequest : U8 := 3
def dhcpMsgAck : U8 := 5
def dhcpFlagBroadcast : U32 := 0x8000
def dhcpTimeout : U32 := 0x1000000
def dhcpMsgSize : U16 := 300

def arpRequest : U16 := 1
def arpPayloadBytes : U16 := 28

/-- `DHCP_IDLE … DHCP_FAILED`. -/
inductive DhcpState where
  | idle | discover | waitOffer | request | waitAck | done | failed
  deriving Repr, DecidableEq

/-! ## §2. Board identity and the shared buffer. -/

/-- 00:0A:35:01:FE:C0. -/
def boardMac : U48 := 0x000A3501FEC0
def broadcastMac : U48 := 0xFFFFFFFFFFFF

def boardMacBytes : List U8 := [0x00, 0x0A, 0x35, 0x01, 0xFE, 0xC0]
/-- 192.168.100.2. -/
def boardIpBytes : List U8 := [192, 168, 100, 2]
def boardIp : U32 := 0xC0A86402
def broadcastIp : U32 := 0xFFFFFFFF
/-- 239.0.0.1. -/
def boardMcastBytes : List U8 := [239, 0, 0, 1]
def boardMcast : U32 := 0xEF000001

def frameBufWords : Nat := 400
def bufferDepth : Nat := 768
/-- ARP/ICMP/IGMP frames: words 320..383. -/
def txScratchBase : Nat := 320
def txScratchSize : Nat := 64
/-- DHCP frames: words 384..511. -/
def dhcpFrameBase : Nat := 384
/-- UDP/TCP frames: words 512..767. -/
def txUdpBase : Nat := 512
def txUdpSize : Nat := 256

def ipHeaderBytes : U16 := 20
def udpHeaderBytes : U16 := 8
def defaultUdpLength : U16 := 28
def defaultIpTotalLen : U16 := 48

/-! ## §3. Interface records. -/

/-- `gmii_byte_t`: one byte of a GMII stream, `last` on the final byte of a frame. -/
structure GmiiByte where
  data : U8
  last : Bool
  deriving Repr, DecidableEq

/-- `mac_rx_t`: MAC layer → upper layers. -/
structure MacRx where
  ethertype : U16 := 0
  srcMac : U48 := 0
  dstMac : U48 := 0
  isBroadcast : Bool := false
  isUnicast : Bool := false
  valid : Bool := false
  bufBase : U10 := 0
  nwords : U10 := 0
  deriving Repr, DecidableEq

/-- `mac_tx_req_t`: upper layers → MAC TX, a mailbox with one slot. -/
structure MacTxReq where
  dstMac : U48 := 0
  ethertype : U16 := 0
  bufAddr : U10 := 0
  bufLen : U16 := 0
  request : Bool := false
  insertVlan : Bool := false
  vlanTci : U16 := 0
  deriving Repr, DecidableEq

/-- `ip_rx_t`: IP layer → transport layers. -/
structure IpRx where
  protocol : U8 := 0
  ttl : U8 := 0
  srcIp : U32 := 0
  dstIp : U32 := 0
  totalLen : U16 := 0
  hdrChecksum : U16 := 0
  id : U16 := 0
  checksumOk : Bool := false
  valid : Bool := false
  bufBase : U10 := 0
  deriving Repr, DecidableEq

/-- `arp_entry_t`. -/
structure ArpEntry where
  ip : U32 := 0
  mac : U48 := 0
  valid : Bool := false
  deriving Repr, DecidableEq

/-- `udp_rx_t`. -/
structure UdpRx where
  srcPort : U16 := 0
  dstPort : U16 := 0
  length : U16 := 0
  checksum : U16 := 0
  payloadLen : U16 := 0
  valid : Bool := false
  bufBase : U10 := 0
  deriving Repr, DecidableEq

/-- What uninitialised local arrays hold in one pass.  C++ leaves it open, so it is an
input of the model and every result holds for every value of it. -/
structure Uninit where
  /-- `payload[]` of `tcp_rx_process`. -/
  payload : Nat → U8
  /-- `seg[]` of `tcp_send`. -/
  seg : Nat → U8
  /-- `srv[]` of `dhcp_rx_process`. -/
  srv : Nat → U8

/-- Cleared arrays. -/
def Uninit.zero : Uninit := { payload := fun _ => 0, seg := fun _ => 0, srv := fun _ => 0 }

end GigabitTcp
