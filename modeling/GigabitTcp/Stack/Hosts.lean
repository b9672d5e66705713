/-
  GigabitTcp.Stack.Hosts — what the hosts hear of a session.

  A host reads the frames of the board: the FCS and the IPv4 header verify, the packet is for its
  address, the message is of its protocol and verifies.  The answers of a session are heard
  where the requests came from and nowhere else: every question for the board's address, every
  ping, every datagram comes back to its own sender, in order, and the segments are those of the
  TCP server.

  Main results:
    * `ethernet?_ethernetFrame` — a host reads what the board frames,
    * `Served.hears`            — the segments that a peer hears,
    * `sessions_answered`       — a session, and what its hosts hear.
-/
import GigabitTcp.Stack.Sessions

namespace GigabitTcp

open Hw Machine

/-! ## §1. Frames. -/

/-- What a host takes out of a frame. -/
structure HostFrame where
  dst : U48
  src : U48
  ethertype : U16
  payload : List U8
  deriving Repr, DecidableEq

/-- Read a frame: the preamble, 14 header bytes, the payload with its padding, and the FCS, which
has to verify. -/
def ethernet? (frame : List U8) : Option HostFrame :=
  let body := (frame.drop 8).take (frame.length - 12)
  if frame.take 8 = preamble
      ∧ frame.drop (frame.length - 4) = leBytes 4 (crc crcPoly 0xFFFFFFFF body ^^^ 0xFFFFFFFF) then
    some
      { dst := (body.take 6).foldl pushByte 0
        src := ((body.drop 6).take 6).foldl pushByte 0
        ethertype := be16 (body.getD 12 0) (body.getD 13 0)
        payload := body.drop 14 }
  else none

theorem foldl_wordBytes (mac : U48) : (wordBytes 6 mac).foldl pushByte (0 : U48) = mac := by
  have hmac : mac.toNat < 2 ^ 48 := mac.isLt
  apply BitVec.eq_of_toNat_eq
  rw [toNat_foldl_pushByte (by omega) mac 6 0 (by
    show 0 * _ + mac.toNat % 2 ^ 48 < _
    omega)]
  show 0 * _ + mac.toNat % 2 ^ 48 = _
  omega

/-- **A host reads what the board frames**: the payload with its padding. -/
theorem ethernet?_ethernetFrame (dst src : U48) (ethertype : U16) (payload : List U8) :
    ethernet? (ethernetFrame dst src [] ethertype payload) = some
      { dst, src, ethertype, payload := payload ++ List.replicate (46 - payload.length) 0 } := by
  have hheader : headerBytes dst src [] ethertype
      = wordBytes 6 dst ++ (wordBytes 6 src ++ wordBytes 2 ethertype) := by
    simp [headerBytes]
  generalize hpadded : payload ++ List.replicate (46 - payload.length) 0 = padded
  generalize hbody : wordBytes 6 dst ++ (wordBytes 6 src ++ wordBytes 2 ethertype) ++ padded = body
  have hframe : ethernetFrame dst src [] ethertype payload
      = preamble ++ (body ++ leBytes 4 (crc crcPoly 0xFFFFFFFF body ^^^ 0xFFFFFFFF)) := by
    unfold ethernetFrame
    rw [hheader, hpadded, hbody]
  generalize hfcs : leBytes 4 (crc crcPoly 0xFFFFFFFF body ^^^ 0xFFFFFFFF) = fcs at hframe
  have hfour : fcs.length = 4 := by rw [← hfcs, length_leBytes]
  have hlen : (ethernetFrame dst src [] ethertype payload).length = 8 + (body.length + 4) := by
    rw [hframe, List.length_append, List.length_append, hfour]
    rfl
  -- the frame falls apart into its body and the FCS
  have hcut : ((ethernetFrame dst src [] ethertype payload).drop 8).take
      ((ethernetFrame dst src [] ethertype payload).length - 12) = body := by
    rw [hlen, hframe, show 8 + (body.length + 4) - 12 = body.length by omega,
      List.drop_left' (by rfl), List.take_left]
  have hend : (ethernetFrame dst src [] ethertype payload).drop
      ((ethernetFrame dst src [] ethertype payload).length - 4) = fcs := by
    rw [hlen, hframe, show 8 + (body.length + 4) - 4 = (preamble ++ body).length by
      rw [List.length_append]
      show _ = 8 + _
      omega, ← List.append_assoc, List.drop_left]
  have hstart : (ethernetFrame dst src [] ethertype payload).take 8 = preamble := by
    rw [hframe]
    exact List.take_left' rfl
  unfold ethernet?
  dsimp only
  rw [hcut, hend, hstart, hfcs, if_pos ⟨rfl, rfl⟩]
  have htype : be16 (body.getD 12 0) (body.getD 13 0) = ethertype := by
    rw [← hbody]
    exact be16_wordBytes ethertype
  have hdst : (body.take 6).foldl pushByte 0 = dst := by
    rw [← hbody, List.append_assoc, List.take_left' (length_wordBytes 6 dst), foldl_wordBytes]
  have hsrc : ((body.drop 6).take 6).foldl pushByte 0 = src := by
    rw [← hbody, List.append_assoc, List.drop_left' (length_wordBytes 6 dst), List.append_assoc,
      List.take_left' (length_wordBytes 6 src), foldl_wordBytes]
  have hpayload : body.drop 14 = padded := by
    rw [← hbody]
    exact List.drop_left' (by simp)
  rw [htype, hdst, hsrc, hpayload]

/-! ## §2. Hosts. -/

/-- The ARP packet for the address `ip` in a frame. -/
def arpFor (ip : U32) (frame : List U8) : Option Inet.ArpPacket :=
  (ethernet? frame).bind fun f =>
    if f.ethertype = ethertypeArp then (Inet.arp? f.payload).filter fun q => q.targetIp = ip else none

/-- The packet from the board for the address `ip` in a frame. -/
def packetFor (ip : U32) (frame : List U8) : Option Inet.Ipv4Packet :=
  (ethernet? frame).bind fun f =>
    if f.ethertype = ethertypeIpv4 then
      (Inet.ipv4? f.payload).filter fun q => q.src = boardIp ∧ q.dst = ip
    else none

/-- What `read` makes of a packet for `ip` with the protocol `proto`. -/
def messageFor {β : Type} (proto : U8) (read : Inet.Ipv4Packet → Option β) (ip : U32) (frame : List U8) :
    Option β :=
  (packetFor ip frame).bind fun q => if q.protocol = proto then read q else none

/-- The echo reply for `ip` in a frame: identifier, sequence number and data. -/
def echoFor : U32 → List U8 → Option (List U8) :=
  messageFor ipProtoIcmp fun q =>
    if q.data.getD 0 0 = icmpEchoReply ∧ Inet.checksum q.data = 0 then some (q.data.drop 4) else none

/-- The datagram for `port` at `ip` in a frame. -/
def datagramFor (port : U16) : U32 → List U8 → Option Inet.UdpDatagram :=
  messageFor ipProtoUdp fun q => (Inet.udp? q.src q.dst q.data).filter fun d => d.dstPort = port

/-- The segment for `port` at `ip` in a frame. -/
def segmentFor (port : U16) : U32 → List U8 → Option Inet.TcpSegment :=
  messageFor ipProtoTcp fun q => (Inet.tcp? q.src q.dst q.data).filter fun g => g.dstPort = port

/-- No ARP packet is in an IPv4 frame. -/
theorem arpFor_packet (ip : U32) (mac : U48) (packet : List U8) :
    arpFor ip (ethernetFrame mac boardMac [] ethertypeIpv4 packet) = none := by
  have hother : ethertypeIpv4 ≠ ethertypeArp := by decide
  unfold arpFor
  rw [ethernet?_ethernetFrame, Option.bind_some, if_neg hother]

/-- What a host finds in an ARP frame of the board. -/
theorem arpFor_arp (ip : U32) (mac : U48) {packet : List U8} {q : Inet.ArpPacket}
    (hq : Inet.arp? packet = some q) :
    arpFor ip (ethernetFrame mac boardMac [] ethertypeArp packet)
      = if q.targetIp = ip then some q else none := by
  unfold arpFor
  rw [ethernet?_ethernetFrame, Option.bind_some, if_pos rfl, Inet.arp?_append hq, Option.filter_some]
  simp only [decide_eq_true_eq]

section Message

variable {β : Type} (proto : U8) (read : Inet.Ipv4Packet → Option β) (ip : U32) (mac : U48)

/-- No message is in an ARP frame. -/
theorem messageFor_arp (packet : List U8) :
    messageFor proto read ip (ethernetFrame mac boardMac [] ethertypeArp packet) = none := by
  have hother : ethertypeArp ≠ ethertypeIpv4 := by decide
  unfold messageFor packetFor
  rw [ethernet?_ethernetFrame, Option.bind_some, if_neg hother, Option.bind_none]

/-- What a host finds in an IPv4 frame of the board. -/
theorem messageFor_packet {packet : List U8} {q : Inet.Ipv4Packet} (hq : Inet.ipv4? packet = some q)
    (hsrc : q.src = boardIp) :
    messageFor proto read ip (ethernetFrame mac boardMac [] ethertypeIpv4 packet)
      = if q.dst = ip ∧ q.protocol = proto then read q else none := by
  unfold messageFor packetFor
  rw [ethernet?_ethernetFrame, Option.bind_some, if_pos rfl, Inet.ipv4?_append hq, Option.filter_some]
  by_cases hip : q.dst = ip
  · rw [if_pos (decide_eq_true ⟨hsrc, hip⟩), Option.bind_some]
    simp only [hip, true_and]
  · simp only [hip, and_false, decide_false, Bool.false_eq_true, if_false, Option.bind_none, false_and]

end Message

/-! ## §3. What a request brings back. -/

/-- The answer to a question for the board's address, at the asker `ip`. -/
def Request.arpBack (ip : U32) : Request → Option Inet.ArpPacket
  | .arp q =>
      if q.opcode = arpRequest ∧ q.targetIp = boardIp ∧ q.senderIp = ip then
        some { opcode := 2, senderMac := boardMac, senderIp := boardIp, targetMac := q.senderMac
               targetIp := ip }
      else none
  | _ => none

/-- What a ping of `ip` brings back. -/
def Request.echoBack (ip : U32) : Request → Option (List U8)
  | .ping p => if p.src = ip then some (p.data.drop 4) else none
  | _ => none

/-- What a datagram of `port` at `ip` brings back. -/
def Request.datagramBack (ip : U32) (port : U16) : Request → Option Inet.UdpDatagram
  | .datagram p =>
      if p.src = ip ∧ (Inet.udpRead p.data).srcPort = port then
        some { srcPort := udpPort, dstPort := port, length := p.data.length
               data := (Inet.udpRead p.data).data }
      else none
  | _ => none

/-- The segment of a request, and who sent it. -/
def Request.segment? : Request → Option (TcpPeer × Inet.TcpSegment)
  | .segment p g => some (sender p g, g)
  | _ => none

/-- The protocol of an answer. -/
def Request.protocol : Request → Option U8
  | .ping _ => some ipProtoIcmp
  | .query _ => some ipProtoIgmp
  | .datagram _ => some ipProtoUdp
  | .segment _ _ => some ipProtoTcp
  | .arp _ => none
  | .dropped => none

section Answered

variable {σ : Responder} {reply : Option (List U8)} {r : Request}

/-- A reply is an ARP frame, or an IPv4 frame with the protocol of the request. -/
theorem Request.Answered.frame (h : r.Answered σ reply) {w : List U8} (hw : reply = some w) :
    (∃ q mac packet, r = .arp q ∧ w = ethernetFrame mac boardMac [] ethertypeArp packet)
      ∨ ∃ mac packet q, w = ethernetFrame mac boardMac [] ethertypeIpv4 packet
        ∧ Inet.ipv4? packet = some q ∧ q.src = boardIp ∧ r.protocol = some q.protocol := by
  cases r with
  | arp q =>
      rw [Request.answered_arp] at h
      split at h
      · obtain ⟨packet, hpacket, -⟩ := h
        exact .inl ⟨q, _, packet, rfl, Option.some.inj (hw.symm.trans hpacket)⟩
      · exact (Option.some_ne_none w (hw.symm.trans h)).elim
  | ping p =>
      obtain ⟨packet, message, hpacket, -, hip, -⟩ := h
      exact .inr ⟨_, packet, _, Option.some.inj (hw.symm.trans hpacket), hip, rfl, rfl⟩
  | query p =>
      obtain ⟨packet, report, hpacket, -, hip, -⟩ := h
      exact .inr ⟨_, packet, _, Option.some.inj (hw.symm.trans hpacket), hip, rfl, rfl⟩
  | datagram p =>
      obtain ⟨packet, datagram, hpacket, -, hip, -⟩ := h
      exact .inr ⟨_, packet, _, Option.some.inj (hw.symm.trans hpacket), hip, rfl, rfl⟩
  | segment p g =>
      rcases h with ⟨-, hnone⟩ | ⟨r, packet, segment, -, hpacket, -, -, hip, -⟩
      · exact (Option.some_ne_none w (hw.symm.trans hnone)).elim
      · exact .inr ⟨_, packet, _, Option.some.inj (hw.symm.trans hpacket), hip, rfl, rfl⟩
  | dropped => exact (Option.some_ne_none w (hw.symm.trans h)).elim

/-- **A message is heard** only of a request of its protocol. -/
theorem Request.Answered.otherMessage (h : r.Answered σ reply) {β : Type} {proto : U8}
    (read : Inet.Ipv4Packet → Option β) (ip : U32) (hproto : r.protocol ≠ some proto) :
    reply.toList.filterMap (messageFor proto read ip) = [] := by
  cases hreply : reply with
  | none => rfl
  | some w =>
      have hnone : messageFor proto read ip w = none := by
        rcases h.frame hreply with ⟨q, mac, packet, -, rfl⟩ | ⟨mac, packet, q, rfl, hq, hsrc, hkind⟩
        · exact messageFor_arp ..
        · rw [messageFor_packet _ _ _ _ hq hsrc]
          exact if_neg fun hyes => hproto (hkind.trans (congrArg some hyes.2))
      rw [Option.toList_some, List.filterMap_cons_none hnone, List.filterMap_nil]

/-- One reply, as it is heard. -/
theorem filterMap_toList {β : Type} {read : List U8 → Option β} {w : List U8} {o : Option β}
    (h : read w = o) : (some w).toList.filterMap read = o.toList := by
  subst h
  rw [Option.toList_some]
  cases hread : read w <;> simp [hread]

/-- **ARP.** -/
theorem Request.Answered.arpHeard (h : r.Answered σ reply) (ip : U32) :
    reply.toList.filterMap (arpFor ip) = (r.arpBack ip).toList := by
  cases hreply : reply with
  | none =>
      cases r with
      | arp q =>
          rw [Request.answered_arp] at h
          split at h
          · obtain ⟨packet, hpacket, -⟩ := h
            exact (Option.some_ne_none _ (hpacket.symm.trans hreply)).elim
          · rename_i hno
            have hback : (Request.arp q).arpBack ip = none := if_neg fun hyes => hno ⟨hyes.1, hyes.2.1⟩
            rw [hback]
            rfl
      | _ => rfl
  | some w =>
      cases r with
      | arp q =>
          rw [Request.answered_arp] at h
          split at h
          · rename_i hasks
            obtain ⟨packet, hpacket, -, harp⟩ := h
            obtain rfl : w = _ := Option.some.inj (hreply.symm.trans hpacket)
            refine filterMap_toList ((arpFor_arp ip _ harp).trans ?_)
            unfold Request.arpBack
            simp only [hasks, true_and]
            split_ifs with hip
            · rw [hip]
            · rfl
          · exact (Option.some_ne_none w (hreply.symm.trans h)).elim
      | _ =>
          rcases h.frame hreply with ⟨q, mac, packet, hno, -⟩ | ⟨mac, packet, q, rfl, -⟩
          · cases hno
          · exact filterMap_toList (arpFor_packet ..)

/-- **Pings.** -/
theorem Request.Answered.echoHeard (h : r.Answered σ reply) (ip : U32) :
    reply.toList.filterMap (echoFor ip) = (r.echoBack ip).toList := by
  cases r with
  | ping p =>
      obtain ⟨packet, message, rfl, -, hip, hlen, htype, hsum, hsame⟩ := h
      refine filterMap_toList ((messageFor_packet _ _ ip _ hip rfl).trans ?_)
      have hdata : message.drop 4 = p.data.drop 4 := by
        apply List.ext_getElem (by rw [List.length_drop, List.length_drop, hlen])
        intro k hk hk'
        rw [List.length_drop] at hk hk'
        rw [List.getElem_drop, List.getElem_drop]
        have hbyte := hsame (4 + k) (by omega) (by omega) (by omega)
        rw [List.getD_eq_getElem _ _ (by omega), List.getD_eq_getElem _ _ (by omega)] at hbyte
        exact hbyte
      show (if p.src = ip ∧ ipProtoIcmp = ipProtoIcmp then
        if message.getD 0 0 = icmpEchoReply ∧ Inet.checksum message = 0 then some (message.drop 4) else none
        else none) = if p.src = ip then some (p.data.drop 4) else none
      simp only [and_true, htype, hsum, if_true, hdata]
  | arp q => exact h.otherMessage _ ip (by simp [Request.protocol])
  | query p => exact h.otherMessage _ ip (show some ipProtoIgmp ≠ some ipProtoIcmp by decide)
  | datagram p => exact h.otherMessage _ ip (show some ipProtoUdp ≠ some ipProtoIcmp by decide)
  | segment p g => exact h.otherMessage _ ip (show some ipProtoTcp ≠ some ipProtoIcmp by decide)
  | dropped => exact h.otherMessage _ ip (by simp [Request.protocol])

/-- **Datagrams.** -/
theorem Request.Answered.datagramHeard (h : r.Answered σ reply) (ip : U32) (port : U16) :
    reply.toList.filterMap (datagramFor port ip) = (r.datagramBack ip port).toList := by
  cases r with
  | datagram p =>
      obtain ⟨packet, datagram, rfl, -, hip, hudp⟩ := h
      refine filterMap_toList ((messageFor_packet _ _ ip _ hip rfl).trans ?_)
      dsimp only
      rw [hudp, Option.filter_some]
      unfold Request.datagramBack
      simp only [and_true, decide_eq_true_eq]
      split_ifs with hsrc hport hboth hboth hboth
      · rw [hport]
      · exact (hboth ⟨hsrc, hport⟩).elim
      · exact (hport hboth.2).elim
      · rfl
      · exact (hsrc hboth.1).elim
      · rfl
  | arp q => exact h.otherMessage _ ip (by simp [Request.protocol])
  | query p => exact h.otherMessage _ ip (show some ipProtoIgmp ≠ some ipProtoUdp by decide)
  | ping p => exact h.otherMessage _ ip (show some ipProtoIcmp ≠ some ipProtoUdp by decide)
  | segment p g => exact h.otherMessage _ ip (show some ipProtoTcp ≠ some ipProtoUdp by decide)
  | dropped => exact h.otherMessage _ ip (by simp [Request.protocol])

/-- **Segments.** -/
theorem Request.Answered.segmentHeard {p : Inet.Ipv4Packet} {g : Inet.TcpSegment}
    (h : (Request.segment p g).Answered σ reply) (peer : TcpPeer) :
    reply.toList.filterMap (segmentFor peer.port peer.ip)
      = (if sender p g = peer then (σ.serve p g).2.toList else []).map (replySegment peer.port) := by
  rcases h with ⟨hnone, rfl⟩ | ⟨r, packet, segment, hr, rfl, -, -, hip, htcp⟩
  · rw [hnone]
    split <;> rfl
  · rw [hr, Option.toList_some]
    have hread := messageFor_packet ipProtoTcp
      (fun q => (Inet.tcp? q.src q.dst q.data).filter fun g => g.dstPort = peer.port) peer.ip (σ.mac p.src)
      hip rfl
    dsimp only at hread
    rw [htcp, Option.filter_some] at hread
    refine (filterMap_toList hread).trans ?_
    simp only [and_true, decide_eq_true_eq]
    have hport : (replySegment g.srcPort r).dstPort = g.srcPort := rfl
    rw [hport]
    by_cases hpeer : sender p g = peer
    · subst hpeer
      rw [if_pos rfl]
      show (if p.src = p.src then if g.srcPort = g.srcPort then _ else none else none : Option _).toList = _
      rw [if_pos rfl, if_pos rfl]
      rfl
    · rw [if_neg hpeer]
      split_ifs with hsrc hsame
      · exact (hpeer (by unfold sender; rw [hsrc, hsame])).elim
      · rfl
      · rfl

end Answered

/-! ## §4. Sessions. -/

/-- What is heard of a session is what each request brings back. -/
theorem Served.heard {β : Type} {read : List U8 → Option β} {back : Request → Option β}
    (hone : ∀ {σ : Responder} {r : Request} {reply : Option (List U8)}, r.Answered σ reply →
      reply.toList.filterMap read = (back r).toList)
    {σ σ' : Responder} {rs : List Request} {frames : List (List U8)} (h : Served σ rs frames σ') :
    frames.filterMap read = rs.filterMap back := by
  induction h with
  | nil σ => rfl
  | @cons σ σ' r rs reply replies now later ih =>
      rw [List.filterMap_append, hone now, ih]
      cases hback : back r with
      | none => rw [List.filterMap_cons_none hback]; rfl
      | some b => rw [List.filterMap_cons_some hback]; rfl

/-- The TCP server of the stack. -/
abbrev tcpServe : Machine (EchoServer.Table TcpPeer) (TcpPeer × Inet.TcpSegment) (Option EchoServer.Reply) :=
  EchoServer.serve maxTcpConn tcpIss

/-- Only segments move the slots. -/
theorem Responder.next_tcp {σ : Responder} {r : Request} (h : r.segment? = none) :
    (σ.next r).tcp = σ.tcp := by
  cases r with
  | segment p g => cases h
  | _ => rfl

/-- **The segments that a peer hears** are those that the TCP server sends to it. -/
theorem Served.hears {σ σ' : Responder} {rs : List Request} {frames : List (List U8)}
    (h : Served σ rs frames σ') (peer : TcpPeer) :
    let is := rs.filterMap Request.segment?
    frames.filterMap (segmentFor peer.port peer.ip)
        = (EchoServer.sentTo peer is (tcpServe.outs σ.tcp is)).map (replySegment peer.port)
      ∧ σ'.tcp = tcpServe.after σ.tcp is := by
  induction h with
  | nil σ => exact ⟨rfl, rfl⟩
  | @cons σ σ' r rs reply replies now later ih =>
      rw [List.filterMap_append]
      cases hr : r.segment? with
      | none =>
          have hproto : r.protocol ≠ some ipProtoTcp := by
            cases r with
            | segment p g => cases hr
            | arp q => simp [Request.protocol]
            | ping p => exact show some ipProtoIcmp ≠ some ipProtoTcp by decide
            | query p => exact show some ipProtoIgmp ≠ some ipProtoTcp by decide
            | datagram p => exact show some ipProtoUdp ≠ some ipProtoTcp by decide
            | dropped => simp [Request.protocol]
          have hsilent : reply.toList.filterMap (segmentFor peer.port peer.ip) = [] :=
            now.otherMessage _ peer.ip hproto
          rw [List.filterMap_cons_none hr, hsilent]
          rw [Responder.next_tcp hr] at ih
          exact ih
      | some x =>
          obtain ⟨p, g, rfl⟩ : ∃ p g, r = .segment p g := by
            cases r with
            | segment p g => exact ⟨p, g, rfl⟩
            | _ => cases hr
          obtain ⟨hheard, hlast⟩ := ih
          have hx : x = (sender p g, g) := (Option.some.inj hr).symm
          rw [List.filterMap_cons_some hr, hx]
          dsimp only
          rw [outs_cons, EchoServer.sentTo_cons, List.map_append, now.segmentHeard peer, hheard, after_cons]
          exact ⟨rfl, hlast⟩

/-- **A session, and what its hosts hear.**  A stack that rests gets any number of frames, one after
another, with the silence of a longest reply behind each of them and before the periodic frame is
due; the segments among them are ones that the server expects.  Its TX stream has the replies of
the responder and nothing else, its ARP cache and TCP slots are the responder's, and it rests again.
Every host hears an answer to each of its questions for the board's address, and its own pings and
datagrams, in the order in which it sent them. -/
theorem sessions_answered {pacing : U32} (xs : List Exchange) (hxs : ∀ x ∈ xs, x.Fits) {s : UdpEcho}
    (hpolite : Polite s.responder (xs.map Exchange.request))
    (h : Ready pacing (sessionPasses xs).length s) :
    let rs := xs.map Exchange.request
    let t := (udpEchoMachine pacing).after s (sessionPasses xs)
    ∃ frames : List (List U8), Served s.responder rs frames t.responder ∧ Ready pacing 0 t
      ∧ (((udpEchoMachine pacing).outs s (sessionPasses xs)).map PassOut.tx).reduceOption
        = frames.flatMap gmiiFrame
      ∧ ∀ ip : U32, frames.filterMap (arpFor ip) = rs.filterMap (Request.arpBack ip)
        ∧ frames.filterMap (echoFor ip) = rs.filterMap (Request.echoBack ip)
        ∧ ∀ port : U16,
          frames.filterMap (datagramFor port ip) = rs.filterMap (Request.datagramBack ip port) := by
  intro rs t
  obtain ⟨frames, hserved, hout, hready⟩ := h.session xs hxs hpolite
  refine ⟨frames, hserved, hready, hout, ?_⟩
  intro ip
  refine ⟨hserved.heard fun h => h.arpHeard ip, hserved.heard fun h => h.echoHeard ip, ?_⟩
  intro port
  exact hserved.heard fun h => h.datagramHeard ip port

/-- A host asks for the board, and sends four bytes. -/
theorem sessions_answered_arp_datagram :
    let xs := [Exchange.plain (arpRequestFrame 1) (.arp (Inet.arpRead (arpRequestFrame 1).payload)),
      Exchange.plain datagramFrame (.datagram datagramPacket)]
    ∃ frames : List (List U8),
      (((udpEchoMachine 625000000).outs restingStack (sessionPasses xs)).map PassOut.tx).reduceOption
        = frames.flatMap gmiiFrame
      ∧ frames.filterMap (arpFor 0xC0A86401) = [{
        opcode := 2, senderMac := boardMac, senderIp := boardIp
        targetMac := hostMac 1, targetIp := 0xC0A86401 }]
      ∧ frames.filterMap (datagramFor 5000 0xC0A86401)
        = [{ srcPort := udpPort, dstPort := 5000, length := 12, data := [0x41, 0x42, 0x43, 0x44] }] := by
  intro xs
  have hfits : ∀ x ∈ xs, x.Fits := by
    intro x hx
    simp only [xs, List.mem_cons, List.not_mem_nil, or_false] at hx
    rcases hx with rfl | rfl
    · exact Exchange.plain_fits (.inl rfl) (by decide) ⟨rfl, by decide, rfl⟩
    · refine Exchange.plain_fits (.inl rfl) (by decide) ⟨⟨rfl, ?_, rfl, .inl rfl⟩, rfl, ?_, ?_, ?_, ?_⟩
      all_goals decide +kernel
  have hlen : (sessionPasses xs).length < 625000000 := by decide +kernel
  have hready : Ready 625000000 (sessionPasses xs).length restingStack :=
    ⟨⟨⟨rfl, .inr rfl, rfl, restingStack_quiet, rfl, by simpa [restingStack] using hlen⟩, rfl, rfl⟩, rfl, rfl⟩
  have hpolite : Polite restingStack.responder (xs.map Exchange.request) := ⟨trivial, trivial, trivial⟩
  obtain ⟨frames, -, -, hout, hheard⟩ := sessions_answered xs hfits hpolite hready
  obtain ⟨harp, -, hdatagrams⟩ := hheard 0xC0A86401
  refine ⟨frames, hout, harp.trans ?_, (hdatagrams 5000).trans ?_⟩
  · decide +kernel
  · decide +kernel

end GigabitTcp
