/-
  GigabitTcp.Stack.Responder — what the stack answers when it rests.

  The responder remembers the ARP cache and the slots of the TCP echo server.  An ARP packet updates
  the cache, a question for the board's address is answered to the asker, a ping or a
  datagram for the echo port comes back to its sender, at the MAC that the cache has for it, a
  membership query to the board gets a report, and a segment what the echo server answers.
  Everything else is dropped.  The frames are described as their receivers read them.
-/
import GigabitTcp.Stack.Arrival
import GigabitTcp.Tcp.Server

namespace GigabitTcp

open Hw

/-! ## §1. Requests. -/

/-- A receiver at the board reads the packet `p`, without options, in the frame. -/
structure PacketFor (f : TaggedFrame) (p : Inet.Ipv4Packet) : Prop where
  ethertype : f.ethertype = ethertypeIpv4
  packet : Inet.ipv4? f.payload = some p
  plain : f.payload.getD 0 0 = 0x45
  dst : p.dst = boardIp ∨ p.dst = broadcastIp

/-- What a frame asks for. -/
inductive Request where
  | arp (q : Inet.ArpPacket)
  | ping (p : Inet.Ipv4Packet)
  | query (p : Inet.Ipv4Packet)
  | datagram (p : Inet.Ipv4Packet)
  | segment (p : Inet.Ipv4Packet) (g : Inet.TcpSegment)
  | dropped

/-- A membership query for all groups or for that of the board. -/
def AsksGroup (data : List U8) : Prop :=
  data.getD 0 0 = igmpQuery
    ∧ (packWord (data.getD 4 0) (data.getD 5 0) (data.getD 6 0) (data.getD 7 0) = 0
      ∨ packWord (data.getD 4 0) (data.getD 5 0) (data.getD 6 0) (data.getD 7 0) = boardMcast)

/-- The message of a packet is none that the board handles: neither a ping, nor a query, nor a
datagram or a segment for an echo port. -/
def Unhandled (p : Inet.Ipv4Packet) : Prop :=
  (p.protocol = ipProtoTcp → 4 ≤ p.data.length ∧ be16 (p.data.getD 2 0) (p.data.getD 3 0) ≠ tcpPortEcho)
    ∧ (p.protocol = ipProtoIcmp →
      2 ≤ p.data.length ∧ ¬ (p.data.getD 0 0 = icmpEchoRequest ∧ p.data.getD 1 0 = 0))
    ∧ (p.protocol = ipProtoIgmp → 8 ≤ p.data.length ∧ ¬ AsksGroup p.data)
    ∧ (p.protocol = ipProtoUdp → 4 ≤ p.data.length ∧ (Inet.udpRead p.data).dstPort ≠ udpPort)

/-- The header is none of IPv4 without options that verifies and has an address of the board. -/
def Refused (payload : List U8) : Prop :=
  20 ≤ payload.length ∧ ¬ (payload.getD 0 0 = 0x45 ∧ Inet.checksum (payload.take 20) = 0
    ∧ (packWord (payload.getD 16 0) (payload.getD 17 0) (payload.getD 18 0) (payload.getD 19 0) = boardIp
      ∨ packWord (payload.getD 16 0) (payload.getD 17 0) (payload.getD 18 0) (payload.getD 19 0)
        = broadcastIp))

/-- The frame `f` carries the request.  A ping fits the scratch region, a datagram the TX region. -/
def Request.In (f : TaggedFrame) : Request → Prop
  | .arp q => f.ethertype = ethertypeArp ∧ 28 ≤ f.payload.length ∧ Inet.arpRead f.payload = q
  | .ping p => PacketFor f p ∧ p.protocol = ipProtoIcmp ∧ p.data.getD 0 0 = icmpEchoRequest
      ∧ p.data.getD 1 0 = 0 ∧ 8 ≤ p.data.length ∧ p.data.length ≤ 236
  | .query p => PacketFor f p ∧ p.protocol = ipProtoIgmp ∧ 8 ≤ p.data.length ∧ AsksGroup p.data
  | .datagram p => PacketFor f p ∧ p.protocol = ipProtoUdp ∧ (Inet.udpRead p.data).dstPort = udpPort
      ∧ (Inet.udpRead p.data).length = p.data.length ∧ 8 ≤ p.data.length ∧ p.data.length ≤ 1004
  | .segment p g => PacketFor f p ∧ p.protocol = ipProtoTcp ∧ Inet.tcp? p.src p.dst p.data = some g
      ∧ g.dstPort = tcpPortEcho
  | .dropped => (f.ethertype ≠ ethertypeArp ∧ f.ethertype ≠ ethertypeIpv4)
      ∨ (f.ethertype = ethertypeIpv4 ∧ Refused f.payload)
      ∨ ∃ p, PacketFor f p ∧ Unhandled p

/-- What the responder remembers: the ARP cache, and the slots of the TCP server. -/
structure Responder where
  arp : ArpTables
  tcp : EchoServer.Table TcpPeer

/-- Where a segment comes from. -/
def sender (p : Inet.Ipv4Packet) (g : Inet.TcpSegment) : TcpPeer := { ip := p.src, port := g.srcPort }

/-- The TCP server's step: three slots. -/
def Responder.serve (σ : Responder) (p : Inet.Ipv4Packet) (g : Inet.TcpSegment) :
    EchoServer.Table TcpPeer × Option EchoServer.Reply :=
  EchoServer.serve maxTcpConn tcpIss σ.tcp (sender p g, g)

/-- What the responder remembers of a request.  A reply looks up the MAC of its receiver. -/
def Responder.next (σ : Responder) : Request → Responder
  | .arp q => { σ with arp := arpUpdate σ.arp q.senderIp q.senderMac }
  | .ping p => { σ with arp := (arpLookup σ.arp p.src).2 }
  | .datagram p => { σ with arp := (arpLookup σ.arp p.src).2 }
  | .segment p g =>
      { arp := if (σ.serve p g).2.isSome then (arpLookup σ.arp p.src).2 else σ.arp
        tcp := (σ.serve p g).1 }
  | .query _ => σ
  | .dropped => σ

theorem Responder.next_segment (σ : Responder) (p : Inet.Ipv4Packet) (g : Inet.TcpSegment) :
    σ.next (.segment p g) =
      { arp := if (σ.serve p g).2.isSome then (arpLookup σ.arp p.src).2 else σ.arp
        tcp := (σ.serve p g).1 } := rfl

/-- The MAC a reply goes to. -/
def Responder.mac (σ : Responder) (ip : U32) : U48 := (arpLookup σ.arp ip).1.getD broadcastMac

/-- **What the responder answers** to a request. -/
def Request.Answered (σ : Responder) : Request → Option (List U8) → Prop
  | .arp q, reply => if q.opcode = arpRequest ∧ q.targetIp = boardIp then
        ∃ packet : List U8, reply = some (ethernetFrame q.senderMac boardMac [] ethertypeArp packet)
          ∧ packet.length = 28
          ∧ Inet.arp? packet = some
            { opcode := 2, senderMac := boardMac, senderIp := boardIp, targetMac := q.senderMac
              targetIp := q.senderIp }
      else reply = none
  | .ping p, reply => ∃ packet message : List U8,
      reply = some (ethernetFrame (σ.mac p.src) boardMac [] ethertypeIpv4 packet)
      ∧ packet.length = p.totalLen ∧ Inet.ipv4? packet = some
        { src := boardIp, dst := p.src, protocol := ipProtoIcmp, totalLen := p.totalLen, data := message }
      ∧ message.length = p.data.length ∧ message.getD 0 0 = icmpEchoReply ∧ Inet.checksum message = 0
      ∧ ∀ k, k < p.data.length → k ≠ 0 → ¬ (2 ≤ k ∧ k < 4) → message.getD k 0 = p.data.getD k 0
  | .query p, reply => ∃ packet report : List U8,
      reply = some (ethernetFrame broadcastMac boardMac [] ethertypeIpv4 packet)
      ∧ packet.length = 28 ∧ Inet.ipv4? packet = some
        { src := boardIp, dst := boardMcast, protocol := ipProtoIgmp, totalLen := 28, data := report }
      ∧ report.length = 8 ∧ Inet.checksum report = 0
      ∧ report.getD 0 0 = (if p.data.getD 1 0 = 0 then igmpReportV1 else igmpReportV2)
      ∧ packWord (report.getD 4 0) (report.getD 5 0) (report.getD 6 0) (report.getD 7 0) = boardMcast
  | .datagram p, reply => ∃ packet datagram : List U8,
      reply = some (ethernetFrame (σ.mac p.src) boardMac [] ethertypeIpv4 packet)
      ∧ packet.length = p.totalLen ∧ Inet.ipv4? packet = some
        { src := boardIp, dst := p.src, protocol := ipProtoUdp, totalLen := p.totalLen, data := datagram }
      ∧ Inet.udp? boardIp p.src datagram = some
        { srcPort := udpPort, dstPort := (Inet.udpRead p.data).srcPort, length := p.data.length
          data := (Inet.udpRead p.data).data }
  | .segment p g, reply =>
      ((σ.serve p g).2 = none ∧ reply = none) ∨ ∃ r packet segment, (σ.serve p g).2 = some r
        ∧ reply = some (ethernetFrame (σ.mac p.src) boardMac [] ethertypeIpv4 packet)
        ∧ packet.length = 20 + segment.length ∧ segment.length = tcpOffset r.flags * 4 + r.data.length
        ∧ Inet.ipv4? packet = some
          { src := boardIp, dst := p.src, protocol := ipProtoTcp, totalLen := 20 + segment.length
            data := segment }
        ∧ Inet.tcp? boardIp p.src segment = some (replySegment g.srcPort r)
  | .dropped, reply => reply = none

theorem Request.answered_arp (σ : Responder) (q : Inet.ArpPacket) (reply : Option (List U8)) :
    (Request.arp q).Answered σ reply = if q.opcode = arpRequest ∧ q.targetIp = boardIp then
        ∃ packet : List U8, reply = some (ethernetFrame q.senderMac boardMac [] ethertypeArp packet)
          ∧ packet.length = 28
          ∧ Inet.arp? packet = some
            { opcode := 2, senderMac := boardMac, senderIp := boardIp, targetMac := q.senderMac
              targetIp := q.senderIp }
      else reply = none := rfl

/-- What is expected of the peers: in an opened connection the next bytes of the stream, no more
than fit a frame of the board, and none with a FIN. -/
def Request.Expected (σ : Responder) : Request → Prop
  | .segment p g => EchoServer.Expects maxTcpConn 536 σ.tcp (sender p g, g)
  | _ => True

/-- Requests that are expected one after another. -/
def Polite : Responder → List Request → Prop
  | _, [] => True
  | σ, r :: rs => r.Expected σ ∧ Polite (σ.next r) rs

instance (σ : Responder) : ∀ r : Request, Decidable (r.Expected σ)
  | .segment p g => inferInstanceAs (Decidable (EchoServer.Expects maxTcpConn 536 σ.tcp (sender p g, g)))
  | .arp _ => inferInstanceAs (Decidable True)
  | .ping _ => inferInstanceAs (Decidable True)
  | .query _ => inferInstanceAs (Decidable True)
  | .datagram _ => inferInstanceAs (Decidable True)
  | .dropped => inferInstanceAs (Decidable True)

instance instDecidablePolite : ∀ (rs : List Request) (σ : Responder), Decidable (Polite σ rs)
  | [], _ => isTrue trivial
  | r :: rs, σ =>
      have := instDecidablePolite rs (σ.next r)
      inferInstanceAs (Decidable (r.Expected σ ∧ Polite (σ.next r) rs))

/-- The responder over a sequence of requests. -/
inductive Served : Responder → List Request → List (List U8) → Responder → Prop where
  | nil (σ : Responder) : Served σ [] [] σ
  | cons {σ σ' : Responder} {r : Request} {rs : List Request} {reply : Option (List U8)}
      {replies : List (List U8)} (now : r.Answered σ reply) (later : Served (σ.next r) rs replies σ') :
      Served σ (r :: rs) (reply.toList ++ replies) σ'

end GigabitTcp
