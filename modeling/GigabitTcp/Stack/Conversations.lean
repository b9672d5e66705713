/-
  GigabitTcp.Stack.Conversations — a TCP conversation, from wire to wire.

  A SYN finds a free slot.  Behind it the peer acknowledges, sends its data segment by segment, and
  closes; other requests, of other peers too, come between.  On the TX stream the peer hears SYN and
  ACK, every byte of its data in order, FIN and ACK.

  Main results:
    * `tcp_conversation` — a conversation among any other requests.
-/
import GigabitTcp.Stack.Hosts

namespace GigabitTcp

open Hw Machine

/-! ## §1. A conversation. -/

/-- **A TCP conversation.**  A SYN of a peer finds a free slot of the stack at rest.  Behind every
frame there is the silence of a longest reply, no periodic frame is due before the end, and every
segment is one that the server expects, with 536 bytes of data at most.  Whatever other requests
arrive between, other peers' segments among them, the peer hears the whole conversation: SYN and ACK,
its own bytes in order at consecutive positions, each acknowledged, FIN and ACK. -/
theorem tcp_conversation {pacing : U32} (x : Exchange) (xs : List Exchange) (hxs : ∀ y ∈ x :: xs, y.Fits)
    {s : UdpEcho} (hpolite : Polite s.responder ((x :: xs).map Exchange.request))
    (h : Ready pacing (sessionPasses (x :: xs)).length s) (peer : TcpPeer) (cid : Nat)
    (hslot : tcpFind s.tcp peer.port peer.ip = some cid) (hfree : (s.tcp.conn cid).state = .free)
    (c : EchoServer.Conversation (tcpIss cid)) (hstart : x.request.segment? = some (peer, c.start))
    (hlater : EchoServer.sentBy peer ((xs.map Exchange.request).filterMap Request.segment?) = c.later) :
    let t := (udpEchoMachine pacing).after s (sessionPasses (x :: xs))
    ∃ frames : List (List U8),
      (((udpEchoMachine pacing).outs s (sessionPasses (x :: xs))).map PassOut.tx).reduceOption = frames.flatMap gmiiFrame
      ∧ frames.filterMap (segmentFor peer.port peer.ip) = c.replies.map (replySegment peer.port)
      ∧ (frames.filterMap (segmentFor peer.port peer.ip)).flatMap Inet.TcpSegment.data
        = c.data.flatMap Inet.TcpSegment.data
      ∧ t.tcp.table cid = some (peer, c.closing) ∧ Ready pacing 0 t := by
  intro t
  obtain ⟨frames, hserved, hout, hready⟩ := h.session (x :: xs) hxs hpolite
  obtain ⟨hheard, htable⟩ := hserved.hears peer
  rw [List.map_cons, List.filterMap_cons_some hstart] at hheard htable
  -- the conversation of the server
  have hfound : EchoServer.slotOf maxTcpConn s.tcp.table peer = some cid :=
    (slotOf_table h.quiet peer).trans hslot
  have hempty : s.tcp.table cid = none := by
    show (s.tcp.conn cid).entry = none
    unfold TcpConn.entry TcpConn.phase
    rw [hfree]
    rfl
  obtain ⟨hreplies, hclosing⟩ := EchoServer.conversation tcpIss _ hfound hempty c hlater
  have hsegments : frames.filterMap (segmentFor peer.port peer.ip) = c.replies.map (replySegment peer.port) :=
    hheard.trans (congrArg (List.map (replySegment peer.port)) hreplies)
  refine ⟨frames, hout, hsegments, ?_, ?_, hready⟩
  · have hdata : ∀ rs : List EchoServer.Reply,
        (rs.map (replySegment peer.port)).flatMap Inet.TcpSegment.data
          = rs.flatMap EchoServer.Reply.data := by
      intro rs
      rw [List.flatMap_map]
      rfl
    rw [hsegments, hdata, c.replies_data]
  · exact (congrFun htable cid).trans hclosing

/-- A segment of 192.168.100.1, port 5000, for the echo port. -/
def hostSegment (seq ack : U32) (flags : U8) (data : List U8) : Inet.TcpSegment :=
  { srcPort := 5000, dstPort := tcpPortEcho, seq, ack, dataOffset := 5, flags, window := 0x2000
    options := [], data }

/-- The packet that carries it. -/
def hostPacket (seq ack : U32) (flags : U8) (data : List U8) : Inet.Ipv4Packet :=
  { src := 0xC0A86401, dst := boardIp, protocol := ipProtoTcp, totalLen := 40 + data.length
    data := hostSegmentBytes seq ack flags data }

/-- The segment arrives. -/
def hostExchange (seq ack : U32) (flags : U8) (data : List U8) : Exchange :=
  Exchange.plain (hostFrame seq ack flags data)
    (.segment (hostPacket seq ack flags data) (hostSegment seq ack flags data))

/-- The conversation of the host: two bytes. -/
def hostConversation : EchoServer.Conversation (tcpIss 0) where
  start := hostSegment 1000 0 0x02 []
  confirm := hostSegment 1001 (tcpIss 0 + 1) 0x10 []
  data := [hostSegment 1001 (tcpIss 0 + 1) 0x18 [0x41, 0x42]]
  finish := hostSegment 1003 (tcpIss 0 + 3) 0x11 []
  opens := by decide
  confirms := by decide
  goesOn := by decide
  ends := by decide

/-- The host converses while another one asks for the board. -/
def hostSession : List Exchange :=
  [ Exchange.plain (arpRequestFrame 2) (.arp (Inet.arpRead (arpRequestFrame 2).payload)),
    hostExchange 1001 (tcpIss 0 + 1) 0x10 [], hostExchange 1001 (tcpIss 0 + 1) 0x18 [0x41, 0x42],
    hostExchange 1003 (tcpIss 0 + 3) 0x11 [] ]

/-- A segment without or with data is one for the board. -/
theorem hostExchange_fits {seq ack : U32} {flags : U8} {data : List U8}
    (hip : Inet.ipv4? (hostFrame seq ack flags data).payload = some (hostPacket seq ack flags data))
    (htcp : Inet.tcp? 0xC0A86401 boardIp (hostSegmentBytes seq ack flags data)
      = some (hostSegment seq ack flags data))
    (hshort : (hostFrame seq ack flags data).payload.length ≤ 1600)
    (hplain : (hostFrame seq ack flags data).payload.getD 0 0 = 0x45) :
    (hostExchange seq ack flags data).Fits :=
  Exchange.plain_fits (.inl rfl) hshort ⟨⟨rfl, hip, hplain, .inl rfl⟩, rfl, htcp, rfl⟩

/-- Both bytes come back. -/
theorem tcp_conversation_two_bytes :
    let passes := sessionPasses (hostExchange 1000 0 0x02 [] :: hostSession)
    ∃ frames : List (List U8),
      (((udpEchoMachine 625000000).outs restingStack passes).map PassOut.tx).reduceOption
        = frames.flatMap gmiiFrame
      ∧ (frames.filterMap (segmentFor 5000 0xC0A86401)).map (fun g => (g.flags, g.seq, g.ack, g.data))
        = [(0x12, 0x12345678, 1001, []), (0x10, 0x12345679, 1003, [0x41, 0x42]),
          (0x11, 0x1234567B, 1004, [])] := by
  intro passes
  have hfits : ∀ x ∈ hostExchange 1000 0 0x02 [] :: hostSession, x.Fits := by
    intro x hx
    simp only [hostSession, List.mem_cons, List.not_mem_nil, or_false] at hx
    rcases hx with rfl | rfl | rfl | rfl | rfl
    · exact hostExchange_fits (by decide +kernel) (by decide +kernel) (by decide) rfl
    · exact Exchange.plain_fits (.inl rfl) (by decide) ⟨rfl, by decide, rfl⟩
    · exact hostExchange_fits (by decide +kernel) (by decide +kernel) (by decide) rfl
    · exact hostExchange_fits (by decide +kernel) (by decide +kernel) (by decide) rfl
    · exact hostExchange_fits (by decide +kernel) (by decide +kernel) (by decide) rfl
  have hlen : passes.length < 625000000 := by decide +kernel
  have hready : Ready 625000000 passes.length restingStack :=
    ⟨⟨⟨rfl, .inr rfl, rfl, restingStack_quiet, rfl, by simpa [restingStack] using hlen⟩, rfl, rfl⟩, rfl, rfl⟩
  obtain ⟨frames, hout, hheard, -⟩ := tcp_conversation (hostExchange 1000 0 0x02 []) hostSession hfits
    (by decide +kernel) hready { ip := 0xC0A86401, port := 5000 } 0 rfl rfl hostConversation rfl
    (by decide +kernel)
  refine ⟨frames, hout, ?_⟩
  rw [show frames.filterMap (segmentFor 5000 0xC0A86401) = _ from hheard]
  decide +kernel

end GigabitTcp
