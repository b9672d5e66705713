/-
  GigabitTcp.Tcp.Server — the TCP layer as an echo server.

  Between two passes at rest nothing waits in the echo queue and no retransmission is due.  From
  such a state on, the slots, the sequence numbers and the replies are those of the echo server of
  `Hw.EchoServer` with three slots: a SYN, an ACK and a FIN are answered by `tcp_rx_process`
  itself, data by the maintenance call behind it.

  Main results:
    * `TcpReply.of_send`      — a reply, as its receiver reads it,
    * `TcpState.Quiet.serves` — one segment.
-/
import GigabitTcp.Hw.EchoServer
import GigabitTcp.Tcp.Encoding
import GigabitTcp.Tcp.EchoQueue
import GigabitTcp.Tcp.Payload

namespace GigabitTcp

open Hw

/-! ## §1. The slots. -/

/-- The initial sequence number of a slot. -/
def tcpIss (cid : Nat) : U32 := 0x12345678#32 ||| (BitVec.ofNat 32 cid <<< 20)

/-- The connection of a record that is in use. -/
def TcpConn.phase (c : TcpConn) : Option EchoServer.Phase :=
  match c.state with
  | .free => none
  | .listen => none
  | .synRcvd => some (.opening c.seq c.peerSeq)
  | .established => some (.opened c.seq c.peerSeq)
  | .lastAck => some (.closing c.seq c.peerSeq)

/-- The entry of a record. -/
def TcpConn.entry (c : TcpConn) : Option (TcpPeer × EchoServer.Phase) := c.phase.map fun ph => (c.peer, ph)

/-- The slots of the server. -/
def TcpState.table (t : TcpState) : EchoServer.Table TcpPeer := fun i => (t.conn i).entry

/-- The TCP layer between two passes at rest. -/
structure TcpState.Quiet (t : TcpState) : Prop where
  settled : ∀ i, i < maxTcpConn → (t.conn i).state ≠ .listen
  drained : t.qLen = t.qOff
  noRetrans : t.retransDue = false

theorem table_setConn (t : TcpState) (cid : Nat) (c : TcpConn) :
    (t.setConn cid c).table = t.table.set cid c.entry := by
  funext i
  by_cases hi : i = cid
  · rw [hi, Mem.set_same]
    exact congrArg TcpConn.entry (setConn_same t cid c)
  · rw [Mem.set_other _ _ hi]
    exact congrArg TcpConn.entry (setConn_other t c hi)

/-- An entry is made of the core of a record and its position. -/
theorem TcpConn.entry_congr {c d : TcpConn} (hcore : c.core = d.core) (hseq : c.seq = d.seq) :
    c.entry = d.entry := by
  have hstate : c.state = d.state := congrArg TcpCore.state hcore
  have hip : c.peerIp = d.peerIp := congrArg TcpCore.peerIp hcore
  have hport : c.peerPort = d.peerPort := congrArg TcpCore.peerPort hcore
  have hrcv : c.peerSeq = d.peerSeq := congrArg TcpCore.peerSeq hcore
  unfold TcpConn.entry TcpConn.phase TcpConn.peer
  rw [hstate, hip, hport, hrcv, hseq]

theorem entry_onSegment (c : TcpConn) (seg : TcpSeg) : (tcpOnSegment c seg).entry = c.entry := by
  refine TcpConn.entry_congr (tcpOnSegment_core c seg) ?_
  obtain ⟨_, _, _, _, _, _, _, _, hstatics⟩ := tcpOnSegment_statics c seg
  rw [hstatics]

theorem holder_table {t : TcpState} (h : t.Quiet) {i : Nat} (hi : i < maxTcpConn) :
    EchoServer.holder t.table i = t.key i := by
  have hsettled := h.settled i hi
  show ((t.conn i).entry).map Prod.fst = t.key i
  unfold TcpConn.entry TcpConn.phase TcpState.key
  cases hst : (t.conn i).state with
  | listen => exact (hsettled hst).elim
  | free => rfl
  | synRcvd => rfl
  | established => rfl
  | lastAck => rfl

/-- **The slot search** is that of the server. -/
theorem slotOf_table {t : TcpState} (h : t.Quiet) (p : TcpPeer) :
    EchoServer.slotOf maxTcpConn t.table p = tcpFind t p.port p.ip := by
  rw [tcpFind_eq_search]
  exact Slots.search_congr p none fun i hi => holder_table h (List.mem_range.mp hi)

/-! ## §2. Segments and replies. -/

/-- The staged frame holds the segment `g` of the peer `p`. -/
structure HoldsSegment (ipRx : IpRx) (frameBuf : Mem U32) (p : TcpPeer) (g : Inet.TcpSegment) : Prop where
  valid : ipRx.valid = true
  protocol : ipRx.protocol = ipProtoTcp
  ip : ipRx.srcIp = p.ip
  srcPort : (tcpParse ipRx frameBuf).sp = p.port
  dstPort : (tcpParse ipRx frameBuf).dp = tcpPortEcho
  seq : (tcpParse ipRx frameBuf).seq = g.seq
  ack : (tcpParse ipRx frameBuf).ack = g.ack
  flags : (tcpParse ipRx frameBuf).flags = g.flags
  length : (tcpParse ipRx frameBuf).plen.toNat = g.data.length
  data : ∀ k, k < g.data.length → (tcpParse ipRx frameBuf).payloadByte frameBuf k = g.data.getD k 0

/-- The segment of a reply. -/
def replySegment (port : U16) (r : EchoServer.Reply) : Inet.TcpSegment :=
  { srcPort := tcpPortEcho, dstPort := port, seq := r.seq, ack := r.ack, dataOffset := tcpOffset r.flags
    flags := r.flags, window := 0xFFFF, options := if hasFlag r.flags tcpSyn then tcpBuildOptions else []
    data := r.data }

/-- `sh'` asks MAC TX for the reply `r` to the peer `p`, and looked up its MAC in the cache of `sh`. -/
structure TcpReply (p : TcpPeer) (r : EchoServer.Reply) (sh sh' : Shared) : Prop where
  pending : sh'.txReq.request = true
  untouched : sh'.txReq.insertVlan = sh.txReq.insertVlan
  arp : sh'.arp = (arpLookup sh.arp p.ip).2
  mac : sh'.txReq.dstMac = (arpLookup sh.arp p.ip).1.getD broadcastMac
  ethertype : sh'.txReq.ethertype = ethertypeIpv4
  packet : ∃ segment : List U8, segment.length = tcpOffset r.flags * 4 + r.data.length
    ∧ (macTxReads sh'.txReq sh'.buffer).length = 20 + segment.length
    ∧ Inet.ipv4? (macTxReads sh'.txReq sh'.buffer) = some
      { src := boardIp, dst := p.ip, protocol := ipProtoTcp, totalLen := 20 + segment.length
        data := segment }
    ∧ Inet.tcp? boardIp p.ip segment = some (replySegment p.port r)

/-- **A reply that `tcp_send` builds**, as its receiver reads it. -/
theorem TcpReply.of_send (un : Uninit) {cid : Nat} (flags : U8) (payload : Option (Nat → U8)) (payLen : U16)
    (t : TcpState) (sh : Shared) (hcid : cid < maxTcpConn) (hlen : payLen.toNat ≤ 536)
    (hsyn : hasFlag flags tcpSyn = true → payLen = 0) (hnull : payload = none → payLen = 0) {p : TcpPeer}
    (hpeer : (t.conn cid).peer = p) :
    TcpReply p { flags, seq := (t.conn cid).seq, ack := (t.conn cid).peerSeq
                 data := tcpPayloadBytes payload payLen }
      sh (tcpSend un cid flags payload payLen t sh).2 := by
  subst hpeer
  obtain ⟨-, hip⟩ := tcpSend_ipv4 un payload hlen hsyn t sh hcid
  obtain ⟨hpending, hbufLen, -⟩ := tcpSend_frame un flags payload t sh hcid
    (show payLen.toNat ≤ 576 by omega)
  have hreads := tcpSegment_reads un (t.conn cid) hlen hsyn hnull
  have htotal := toNat_tcpTotal hlen hsyn
  have hframe := toNat_tcpTotal_frame hlen hsyn
  have hbytes := length_tcpPayloadBytes hnull
  have hbufLen' : (tcpSend un cid flags payload payLen t sh).2.txReq.bufLen.toNat
      = 20 + (tcpTotal flags payLen).toNat := by
    rw [hbufLen, hframe]
  rw [hbufLen'] at hip
  have hsent : (tcpSend un cid flags payload payLen t sh).2 = Shared.issue
      { sh with
        buffer := tcpWriteFrame un (t.conn cid) flags payload payLen sh.buffer
        arp := (arpLookup sh.arp (t.conn cid).peerIp).2 }
      ((arpLookup sh.arp (t.conn cid).peerIp).1.getD broadcastMac) ethertypeIpv4 txUdpBase
      (20 + tcpTotal flags payLen) := by
    unfold tcpSend
    rw [if_neg (Nat.not_le_of_lt hcid)]
    rfl
  refine ⟨hpending, ?_, ?_, ?_, ?_, _, ?_, ?_, ?_, hreads⟩
  · rw [hsent]
    rfl
  · rw [hsent]
    rfl
  · rw [hsent]
    rfl
  · rw [hsent]
    rfl
  · rw [List.length_map, List.length_range, htotal, hbytes]
  · rw [length_macTxReads, hbufLen', List.length_map, List.length_range]
  · rw [List.length_map, List.length_range]
    exact hip

/-! ## §3. Sending. -/

theorem TcpState.Quiet.setConn {t : TcpState} (h : t.Quiet) (cid : Nat) {c : TcpConn}
    (hc : c.state ≠ .listen) : (t.setConn cid c).Quiet := by
  refine ⟨?_, h.drained, h.noRetrans⟩
  intro i hi
  by_cases hcid : i = cid
  · rw [hcid, setConn_same]
    exact hc
  · rw [setConn_other t c hcid]
    exact h.settled i hi

/-- The position behind a segment that consumes sequence numbers. -/
theorem tcpSendConn_position (c : TcpConn) (flags : U8) (payLen : U16)
    (h : 0 < payLen ∨ hasFlag flags (tcpSyn ||| tcpFin) = true) :
    (tcpSendConn c flags payLen).seq = c.seq + tcpSeqInc flags payLen := by
  unfold tcpSendConn
  simp only [h, if_true]
  split_ifs <;> rfl

/-- **A call of `tcp_send`** moves the position of its slot. -/
theorem tcpSend_table (un : Uninit) {cid : Nat} (flags : U8) (payload : Option (Nat → U8)) (payLen : U16)
    (t : TcpState) (sh : Shared) (hcid : cid < maxTcpConn)
    (h : 0 < payLen ∨ hasFlag flags (tcpSyn ||| tcpFin) = true) :
    (tcpSend un cid flags payload payLen t sh).1.table
      = t.table.set cid { t.conn cid with seq := (t.conn cid).seq + tcpSeqInc flags payLen }.entry := by
  obtain ⟨buf, hstatics⟩ := tcpSend_statics un flags payload payLen t sh hcid
  have htable : (tcpSend un cid flags payload payLen t sh).1.table
      = (t.setConn cid (tcpSendConn (t.conn cid) flags payLen)).table := by
    rw [hstatics]
    rfl
  rw [htable, table_setConn]
  exact congrArg _ (TcpConn.entry_congr (tcpSendConn_core (t.conn cid) flags payLen)
    (tcpSendConn_position _ _ _ h))

theorem TcpState.Quiet.send {t : TcpState} (h : t.Quiet) (un : Uninit) {cid : Nat} (flags : U8)
    (payload : Option (Nat → U8)) (payLen : U16) (sh : Shared) (hcid : cid < maxTcpConn) :
    (tcpSend un cid flags payload payLen t sh).1.Quiet := by
  obtain ⟨buf, hstatics⟩ := tcpSend_statics un flags payload payLen t sh hcid
  have hstate : (tcpSendConn (t.conn cid) flags payLen).state = (t.conn cid).state :=
    congrArg TcpCore.state (tcpSendConn_core (t.conn cid) flags payLen)
  have hquiet := h.setConn cid (c := tcpSendConn (t.conn cid) flags payLen)
    (by rw [hstate]; exact h.settled cid hcid)
  rw [hstatics]
  exact ⟨hquiet.settled, hquiet.drained, hquiet.noRetrans⟩

/-- **Data that finds the queue drained** waits for one maintenance call, which sends all of it. -/
theorem TcpState.Quiet.queue {t : TcpState} (h : t.Quiet) {cid : Nat} (hcid : cid < maxTcpConn)
    (payload : Nat → U8) (payLen : U16) (hpos : 0 < payLen.toNat) (hlen : payLen.toNat ≤ 536) {p : TcpPeer}
    (hpeer : (t.conn cid).peer = p) :
    let q := tcpQueue cid payload payLen t
    q.retransDue = false ∧ q.qOff < q.qLen ∧ ∀ un sh,
      let m := tcpFlush un q sh
      m.1.Quiet
        ∧ m.1.table = t.table.set cid { t.conn cid with
            seq := (t.conn cid).seq + BitVec.ofNat 32 payLen.toNat }.entry
        ∧ TcpReply p { flags := tcpAck, seq := (t.conn cid).seq, ack := (t.conn cid).peerSeq
                       data := (List.range payLen.toNat).map payload } sh m.2 := by
  intro q
  have hadd : (0 : U16) + payLen = payLen := BitVec.zero_add payLen
  have hsub : payLen - (0 : U16) = payLen := BitVec.sub_zero payLen
  -- the restarted queue takes all of it
  have hdrained : t.qDrained = true := t.qDrained_iff.mpr h.drained
  have hq : q = { t with
      sendBufs := fun i => if i = cid then (t.sendBufs i).fill 0 payLen.toNat payload else t.sendBufs i
      qLen := payLen, qOff := 0, qCid := cid } := by
    have hgo : ¬ (maxTcpConn ≤ cid ∨ payLen = 0) := by
      rintro (hout | rfl)
      · omega
      · exact absurd hpos (by decide)
    have hroom : payLen < tcpRxPayload - 0 := by
      rw [BitVec.lt_def]
      show payLen.toNat < 576
      omega
    show tcpQueue cid payload payLen t = _
    unfold tcpQueue tcpQueueRestart tcpQueueRoom
    rw [if_neg hgo, if_pos hdrained]
    dsimp only
    rw [if_pos hroom, hadd]
    rfl
  have hpos' : (0 : U16) < payLen := by
    rw [BitVec.lt_def]
    exact hpos
  refine ⟨by rw [hq]; exact h.noRetrans, by rw [hq]; exact hpos', ?_⟩
  intro un sh m
  have hconn : q.conn = t.conn := by rw [hq]
  have hchunk : tcpChunk q = payLen := by
    have hsmall : ¬ tcpTxChunk < payLen - 0 := by
      rw [BitVec.lt_def, hsub]
      show ¬ 536 < payLen.toNat
      omega
    rw [hq, tcpChunk]
    exact (if_neg hsmall).trans hsub
  -- what the flush sends
  obtain ⟨buf, hstatics⟩ := tcpSend_statics un tcpAck (some fun i => q.sendBufs cid (q.qOff.toNat + i)) payLen
    q sh hcid
  have hcidq : q.qCid = cid := by rw [hq]
  have hm : m = (
      { (tcpSend un cid tcpAck (some fun i => q.sendBufs cid (q.qOff.toNat + i)) payLen q sh).1 with
        qLen := 0, qOff := 0 },
      (tcpSend un cid tcpAck (some fun i => q.sendBufs cid (q.qOff.toNat + i)) payLen q sh).2) := by
    show tcpFlush un q sh = _
    unfold tcpFlush
    dsimp only
    rw [hchunk, hcidq]
    refine if_pos ?_
    rw [hstatics]
    show q.qLen ≤ q.qOff + payLen
    rw [hq]
    show payLen ≤ 0 + payLen
    rw [hadd]
    exact BitVec.le_refl payLen
  have htable := tcpSend_table un tcpAck (some fun i => q.sendBufs cid (q.qOff.toNat + i)) payLen q sh hcid
    (.inl hpos')
  have hsame : q.table = t.table := by rw [hq]; rfl
  have hinc : tcpSeqInc tcpAck payLen = BitVec.ofNat 32 payLen.toNat := by
    have hflags : tcpSeqInc tcpAck payLen = payLen.setWidth 32 := BitVec.zero_add _
    rw [hflags]
    exact BitVec.eq_of_toNat_eq (by rw [BitVec.toNat_setWidth, BitVec.toNat_ofNat])
  rw [hsame, hconn, hinc] at htable
  have hreply := TcpReply.of_send un tcpAck
    (some fun i => q.sendBufs cid (q.qOff.toNat + i)) payLen q sh hcid hlen
    (fun hsyn => absurd hsyn (by decide)) nofun (p := p) (by rw [hconn]; exact hpeer)
  have hbytes : tcpPayloadBytes (some fun i => q.sendBufs cid (q.qOff.toNat + i)) payLen
      = (List.range payLen.toNat).map payload := by
    apply List.map_congr_left
    intro i hi
    rw [hq]
    show (if cid = cid then (t.sendBufs cid).fill 0 payLen.toNat payload else _ : Mem U8) (0 + i) = _
    rw [if_pos rfl, Mem.fill_at _ _ (List.mem_range.mp hi)]
  rw [hbytes, hconn] at hreply
  rw [hm]
  refine ⟨⟨?_, rfl, ?_⟩, htable, hreply⟩
  · rw [hstatics]
    intro i hi
    have hquiet := h.setConn cid (c := tcpSendConn (t.conn cid) tcpAck payLen) (by
      rw [show (tcpSendConn (t.conn cid) tcpAck payLen).state = (t.conn cid).state from
        congrArg TcpCore.state (tcpSendConn_core _ _ _)]
      exact h.settled cid hcid)
    show ((q.setConn cid (tcpSendConn (q.conn cid) tcpAck payLen)).conn i).state ≠ .listen
    have hsettled := hquiet.settled i hi
    unfold TcpState.setConn at hsettled ⊢
    rw [hconn]
    exact hsettled
  · rw [hstatics, hq]
    exact h.noRetrans

/-! ## §4. One segment. -/

/-- A call of `tcp_rx_process` from a quiet state does what the server does: nothing is sent, or the
reply is posted at once, or it waits for the next maintenance call. -/
inductive TcpServes (p : TcpPeer) (out : EchoServer.Table TcpPeer × Option EchoServer.Reply) (sh : Shared)
    (r : TcpState × Shared) : Prop where
  | silent (none : out.2 = none) (shared : r.2 = sh) (quiet : r.1.Quiet) (table : r.1.table = out.1)
  | posts (reply : EchoServer.Reply) (some : out.2 = some reply) (quiet : r.1.Quiet)
      (table : r.1.table = out.1) (sends : TcpReply p reply sh r.2)
  | waits (reply : EchoServer.Reply) (some : out.2 = some reply) (shared : r.2 = sh)
      (noRetrans : r.1.retransDue = false) (queued : r.1.qOff < r.1.qLen)
      (flushes : ∀ un sh', (tcpFlush un r.1 sh').1.Quiet ∧ (tcpFlush un r.1 sh').1.table = out.1
        ∧ TcpReply p reply sh' (tcpFlush un r.1 sh').2)

section Segment

variable (un : Uninit) {t : TcpState} {ipRx : IpRx} {frameBuf : Mem U32} {p : TcpPeer} {g : Inet.TcpSegment}
  {cid : Nat} (sh : Shared)

/-- The flags mean the same to both sides. -/
theorem HoldsSegment.flag (h : HoldsSegment ipRx frameBuf p g) :
    hasFlag (tcpParse ipRx frameBuf).flags tcpFin = EchoServer.fin g
      ∧ hasFlag (tcpParse ipRx frameBuf).flags tcpAck = EchoServer.acks g
      ∧ (tcpParse ipRx frameBuf).opens = (EchoServer.syn g && !EchoServer.acks g) := by
  unfold TcpSeg.opens
  rw [h.flags]
  exact ⟨rfl, rfl, rfl⟩

/-- **A SYN to a free slot.** -/
theorem TcpState.Quiet.opens (h : t.Quiet) (hg : HoldsSegment ipRx frameBuf p g)
    (hfind : tcpFind t (tcpParse ipRx frameBuf).sp ipRx.srcIp = some cid) (hfree : (t.conn cid).state = .free)
    (hopens : (tcpParse ipRx frameBuf).opens = true) :
    TcpServes p (t.table.set cid (some (p, .opening (tcpIss cid + 1) (g.seq + 1))),
        some { flags := 0x12, seq := tcpIss cid, ack := g.seq + 1, data := [] }) sh
      (tcpReceive un ipRx (tcpParse ipRx frameBuf) frameBuf t sh) := by
  have hcid := (tcpFind_some hfind).1
  have hseq := hg.seq
  have hip := hg.ip
  have hport := hg.srcPort
  rw [tcpReceive_opened un frameBuf sh hfind hfree hopens]
  generalize hseg : tcpParse ipRx frameBuf = seg at *
  obtain ⟨_, _, _, _, _, _, _, _, hon⟩ := tcpOnSegment_statics (tcpOpen cid seg frameBuf (t.conn cid)) seg
  obtain ⟨_, _, _, -, hopen⟩ := tcpOpen_statics cid seg frameBuf (t.conn cid)
  have hposition : (tcpOnSegment (tcpOpen cid seg frameBuf (t.conn cid)) seg).seq = tcpIss cid := by
    rw [hon, hopen]
    rfl
  have hlisten := tcpOpened_state cid seg frameBuf (t.conn cid)
  generalize tcpOnSegment (tcpOpen cid seg frameBuf (t.conn cid)) seg = c at *
  rw [setConn_setConn]
  -- the switch finds the slot listening, and answers
  have hswitch : tcpSwitch un cid seg (tcpPayload un frameBuf seg) ipRx (t.setConn cid c) sh
      = tcpSend un cid (tcpSyn ||| tcpAck) none 0 (t.setConn cid { c with
          peerSeq := g.seq + 1, peerIp := p.ip, peerPort := p.port, state := .synRcvd }) sh := by
    unfold tcpSwitch
    rw [setConn_same, hlisten]
    show tcpListen un cid seg ipRx (t.setConn cid c) sh = _
    unfold tcpListen
    rw [if_pos (TcpSeg.opens_syn hopens), setConn_same]
    dsimp only
    rw [setConn_setConn, hseq, hip, hport]
  rw [hswitch, ← hposition]
  have hquiet := h.setConn cid (c := { c with
    peerSeq := g.seq + 1, peerIp := p.ip, peerPort := p.port, state := .synRcvd }) nofun
  have htable := tcpSend_table un (tcpSyn ||| tcpAck) none 0 (t.setConn cid { c with
    peerSeq := g.seq + 1, peerIp := p.ip, peerPort := p.port, state := .synRcvd }) sh hcid (.inr (by decide))
  have hreply := TcpReply.of_send un (tcpSyn ||| tcpAck) none 0
    (t.setConn cid { c with
      peerSeq := g.seq + 1, peerIp := p.ip, peerPort := p.port, state := .synRcvd }) sh hcid (by decide)
    (fun _ => rfl) (fun _ => rfl) (p := p) (by rw [setConn_same]; rfl)
  rw [setConn_same] at htable hreply
  refine .posts _ rfl (hquiet.send un _ _ _ _ hcid) ?_ hreply
  rw [htable, table_setConn, Mem.set_set]
  rfl

/-- A record that is written with its position kept. -/
theorem TcpState.Quiet.rewritten (h : t.Quiet) {c : TcpConn} (ph : Option EchoServer.Phase)
    (hentry : c.entry = ph.map fun ph' => (p, ph')) (hlisten : c.state ≠ .listen) :
    TcpServes p (t.table.set cid (ph.map fun ph' => (p, ph')), none) sh (t.setConn cid c, sh) := by
  refine .silent rfl rfl (h.setConn cid hlisten) ?_
  rw [table_setConn, hentry]

/-- What `case T_ESTABLISHED` writes for a segment without data. -/
theorem tcpTakeData_empty (t : TcpState) (cid : Nat) {seg : TcpSeg} (payload : Nat → U8) (c : TcpConn)
    (hempty : ¬ 0 < seg.plen) :
    ∃ d, tcpTakeData cid seg payload (t.setConn cid c) = t.setConn cid d
      ∧ d.core = { c.core with peerSeq := tcpAdvance seg } ∧ d.seq = c.seq := by
  have hset : (t.setConn cid c).setConn cid { (t.setConn cid c).conn cid with peerSeq := tcpAdvance seg }
      = t.setConn cid { c with peerSeq := tcpAdvance seg } := by
    rw [setConn_same, setConn_setConn]
  unfold tcpTakeData
  dsimp only
  rw [if_neg hempty, hset]
  split
  · rw [setConn_same, setConn_setConn]
    exact ⟨_, rfl, rfl, rfl⟩
  · exact ⟨{ c with peerSeq := tcpAdvance seg }, rfl, rfl, rfl⟩

/-- **A segment of an opened connection.** -/
theorem TcpState.Quiet.established (h : t.Quiet) (hg : HoldsSegment ipRx frameBuf p g) {c : TcpConn}
    {snd rcv : U32} (hcid : cid < maxTcpConn) (hpeer : c.peer = p) (hstate : c.state = .established)
    (hsnd : c.seq = snd) (hexp : EchoServer.Phase.Expects 536 (.opened snd rcv) g) :
    let out := EchoServer.Phase.answer (.opened snd rcv) g
    TcpServes p (t.table.set cid (out.1.map fun ph => (p, ph)), out.2) sh
      (tcpEstablished un cid (tcpParse ipRx frameBuf) (tcpPayload un frameBuf (tcpParse ipRx frameBuf))
        (t.setConn cid c) sh) := by
  obtain ⟨hseq, hmss, hbare⟩ := hexp
  obtain ⟨hfin, -, -⟩ := hg.flag
  have hplen := hg.length
  have hbytes := hg.data
  have hpos := hg.seq
  rw [tcpEstablished_eq]
  generalize hseg : tcpParse ipRx frameBuf = seg at *
  have hadvance : tcpAdvance seg = rcv + BitVec.ofNat 32 g.data.length
      + if EchoServer.fin g = true then 1 else 0 := by
    have hcount : seg.plen.setWidth 32 = BitVec.ofNat 32 g.data.length := by
      apply BitVec.eq_of_toNat_eq
      rw [BitVec.toNat_setWidth, BitVec.toNat_ofNat, hplen]
    unfold tcpAdvance
    rw [hpos, hseq, hfin, hcount]
  by_cases hnil : g.data = []
  · have hempty : ¬ 0 < seg.plen := by
      rw [BitVec.lt_def, hplen, hnil]
      exact Nat.lt_irrefl 0
    obtain ⟨d, htaken, hcore, hkept⟩ :=
      tcpTakeData_empty t cid (tcpPayload un frameBuf seg) c hempty
    have hd : d.state = .established := (congrArg TcpCore.state hcore).trans hstate
    have hrcv : d.peerSeq = tcpAdvance seg := congrArg TcpCore.peerSeq hcore
    have hpeer' : d.peer = p := (TcpConn.peer_of_core hcore).trans hpeer
    rw [htaken]
    unfold tcpTakeFin
    rw [hfin]
    rw [hnil, List.length_nil, show BitVec.ofNat 32 0 = 0#32 from rfl, BitVec.add_zero] at hadvance
    by_cases hf : EchoServer.fin g = true
    · -- the FIN is answered at once
      rw [if_pos hf] at hadvance
      have hanswer : EchoServer.Phase.answer (.opened snd rcv) g = (some (.closing (snd + 1) (rcv + 1)),
          some { flags := 0x11, seq := snd, ack := rcv + 1, data := [] }) := if_pos hf
      have hquiet := h.setConn cid (c := d) (by rw [hd]; decide)
      have htable := tcpSend_table un (tcpFin ||| tcpAck) none 0 (t.setConn cid d) sh hcid (.inr (by decide))
      have hreply := TcpReply.of_send un (tcpFin ||| tcpAck) none 0
        (t.setConn cid d) sh hcid (by decide) (fun _ => rfl) (fun _ => rfl) (p := p)
        (by rw [setConn_same]; exact hpeer')
      have hsent := tcpSend_conn un (tcpFin ||| tcpAck) none 0 (t.setConn cid d) sh hcid
      rw [setConn_same] at htable hreply hsent
      rw [hkept, hsnd, hrcv, hadvance] at hreply
      intro out
      rw [show out = _ from hanswer, if_pos hf]
      refine .posts _ rfl ((hquiet.send un _ _ _ _ hcid).setConn cid nofun) ?_ hreply
      have hcore' := tcpSendConn_core d (tcpFin ||| tcpAck) 0
      have hseq' := tcpSendConn_position d (tcpFin ||| tcpAck) 0 (.inr (by decide))
      show ((tcpSend un cid (tcpFin ||| tcpAck) none 0 (t.setConn cid d) sh).1.setConn cid _).table = _
      rw [table_setConn, htable, table_setConn, Mem.set_set, Mem.set_set, hsent, Mem.set_same]
      refine congrArg _ ?_
      show some ((tcpSendConn d (tcpFin ||| tcpAck) 0).peer, EchoServer.Phase.closing
        (tcpSendConn d (tcpFin ||| tcpAck) 0).seq (tcpSendConn d (tcpFin ||| tcpAck) 0).peerSeq) = _
      have hrcv' : (tcpSendConn d (tcpFin ||| tcpAck) 0).peerSeq = d.peerSeq :=
        congrArg TcpCore.peerSeq hcore'
      have hpeer'' : (tcpSendConn d (tcpFin ||| tcpAck) 0).peer = d.peer :=
        TcpConn.peer_of_core hcore'
      rw [hseq', hrcv', hpeer'', hkept, hsnd, hrcv, hpeer', hadvance]
      rfl
    · rw [if_neg hf] at hadvance
      have hanswer : EchoServer.Phase.answer (.opened snd rcv) g = (some (.opened snd rcv), none) :=
        (if_neg hf).trans (if_pos hnil)
      intro out
      rw [show out = _ from hanswer, if_neg hf]
      refine h.rewritten sh (c := d) (some (.opened snd rcv)) ?_ (by rw [hd]; decide)
      unfold TcpConn.entry TcpConn.phase
      rw [hd, hpeer', hkept, hsnd, hrcv, hadvance]
      show some (p, EchoServer.Phase.opened snd (rcv + 0#32)) = _
      rw [BitVec.add_zero]
      rfl
  · -- data waits for the maintenance call of the same pass
    have hf : ¬ EchoServer.fin g = true := fun hf => hnil (hbare hf)
    have hlen : 0 < g.data.length := List.length_pos_of_ne_nil hnil
    have hplenPos : 0 < seg.plen := by
      rw [BitVec.lt_def, hplen]
      exact hlen
    rw [if_neg hf] at hadvance
    have hadvance' : tcpAdvance seg = rcv + BitVec.ofNat 32 g.data.length :=
      hadvance.trans (BitVec.add_zero _)
    have hanswer : EchoServer.Phase.answer (.opened snd rcv) g
        = (some (.opened (snd + BitVec.ofNat 32 g.data.length) (rcv + BitVec.ofNat 32 g.data.length)),
          some { flags := 0x10, seq := snd, ack := rcv + BitVec.ofNat 32 g.data.length, data := g.data }) :=
      (if_neg hf).trans (if_neg hnil)
    have htaken : tcpTakeData cid seg (tcpPayload un frameBuf seg) (t.setConn cid c)
        = tcpQueue cid (tcpPayload un frameBuf seg) seg.plen
          (t.setConn cid { c with peerSeq := tcpAdvance seg }) := by
      unfold tcpTakeData
      dsimp only
      rw [if_pos hplenPos, setConn_same, setConn_setConn]
    have hquiet := h.setConn cid (c := { c with peerSeq := tcpAdvance seg }) (by
      show c.state ≠ _
      rw [hstate]
      decide)
    obtain ⟨hdue, hqueued, hflush⟩ := hquiet.queue hcid (tcpPayload un frameBuf seg) seg.plen
      (by omega) (by omega) (p := p) (by rw [setConn_same]; exact hpeer)
    have hpayload : (List.range seg.plen.toNat).map (tcpPayload un frameBuf seg) = g.data := by
      rw [hplen]
      refine ((take_eq_map_range (d := 0) (Nat.le_refl _) ?_).symm.trans (List.take_length))
      intro k hk
      rw [tcpPayload_filled un frameBuf (by rw [BitVec.le_def, hplen]; show _ ≤ 576; omega) (by omega)]
      exact (hbytes k hk).symm
    rw [htaken]
    unfold tcpTakeFin
    rw [hfin, if_neg hf]
    intro out
    rw [show out = _ from hanswer, ← hadvance', ← hsnd]
    refine .waits _ rfl rfl hdue hqueued ?_
    intro un' sh'
    obtain ⟨hquiet', htable, hreply⟩ := hflush un' sh'
    rw [setConn_same] at htable hreply
    rw [hpayload] at hreply
    refine ⟨hquiet', ?_, hreply⟩
    rw [htable, table_setConn, Mem.set_set]
    refine congrArg _ ?_
    unfold TcpConn.entry TcpConn.phase
    dsimp only
    rw [hstate, hplen]
    show some (c.peer, _) = _
    rw [hpeer]
    rfl

/-- **One segment.**  From a quiet state, `tcp_rx_process` and the maintenance call behind it do what
the echo server does with three slots. -/
theorem TcpState.Quiet.serves (h : t.Quiet) (hg : HoldsSegment ipRx frameBuf p g)
    (hexp : EchoServer.Expects maxTcpConn 536 t.table (p, g)) :
    TcpServes p (EchoServer.serve maxTcpConn tcpIss t.table (p, g)) sh
      (tcpRxProcess un true ipRx frameBuf t sh) := by
  have hecho : tcpForEcho true ipRx frameBuf = true := by
    unfold tcpForEcho
    rw [hg.valid, hg.protocol, hg.dstPort]
    rfl
  obtain ⟨-, hcall⟩ := tcpRxProcess_forEcho un t sh hecho
  rw [hcall]
  obtain ⟨hfin, hack, hopens⟩ := hg.flag
  have hslot := slotOf_table h p
  rw [← hg.srcPort, ← hg.ip] at hslot
  cases hfind : tcpFind t (tcpParse ipRx frameBuf).sp ipRx.srcIp with
  | none =>
      rw [hfind] at hslot
      rw [EchoServer.serve_refused hslot, tcpReceive_none un frameBuf sh hfind]
      exact .silent rfl rfl h rfl
  | some cid =>
      rw [hfind] at hslot
      have hcid := (tcpFind_some hfind).1
      by_cases hfree : (t.conn cid).state = .free
      · have hentry : t.table cid = none := by
          show (t.conn cid).entry = none
          unfold TcpConn.entry TcpConn.phase
          rw [hfree]
          rfl
        rw [EchoServer.serve_free hslot hentry, ← hopens]
        by_cases hopen : (tcpParse ipRx frameBuf).opens = true
        · rw [if_pos hopen]
          exact h.opens un sh hg hfind hfree hopen
        · rw [if_neg hopen, tcpReceive_closed un frameBuf sh hfind hfree hopen]
          exact .silent rfl rfl h rfl
      · have hpeer : (t.conn cid).peer = p := by
          obtain ⟨hport, hip⟩ := (tcpFind_some hfind).2.resolve_left hfree
          unfold TcpConn.peer
          rw [hport, hip, hg.srcPort, hg.ip]
        have hon := entry_onSegment (t.conn cid) (tcpParse ipRx frameBuf)
        have hcore := tcpOnSegment_core (t.conn cid) (tcpParse ipRx frameBuf)
        have hseq := tcpOnSegment_seq (t.conn cid) (tcpParse ipRx frameBuf)
        have hpeer' := (TcpConn.peer_of_core hcore).trans hpeer
        have hstate' : (tcpOnSegment (t.conn cid) (tcpParse ipRx frameBuf)).state = (t.conn cid).state :=
          congrArg TcpCore.state hcore
        have hrcv' : (tcpOnSegment (t.conn cid) (tcpParse ipRx frameBuf)).peerSeq = (t.conn cid).peerSeq :=
          congrArg TcpCore.peerSeq hcore
        rw [tcpReceive_live un frameBuf sh hfind hfree]
        unfold tcpSwitch
        rw [setConn_same, hstate']
        generalize tcpOnSegment (t.conn cid) (tcpParse ipRx frameBuf) = c at *
        have hentry : ∀ ph, (t.conn cid).phase = some ph → t.table cid = some (p, ph) := by
          intro ph hph
          show (t.conn cid).entry = _
          unfold TcpConn.entry
          rw [hph, hpeer]
          rfl
        cases hst : (t.conn cid).state with
        | free => exact (hfree hst).elim
        | listen => exact (h.settled cid hcid hst).elim
        | synRcvd =>
            have hph := hentry _ (show (t.conn cid).phase = some (.opening c.seq c.peerSeq) by
              rw [TcpConn.phase, hst, hseq, hrcv'])
            rw [EchoServer.serve_taken hslot hph]
            show TcpServes p _ sh ((t.setConn cid c).setConn cid (tcpSynRcvd (tcpParse ipRx frameBuf) c), sh)
            rw [setConn_setConn]
            have hguard : (hasFlag (tcpParse ipRx frameBuf).flags tcpAck = true
                ∧ (tcpParse ipRx frameBuf).ack = c.seq) ↔ (EchoServer.acks g = true ∧ g.ack = c.seq) := by
              rw [hack, hg.ack]
            by_cases hgo : EchoServer.acks g = true ∧ g.ack = c.seq
            · rw [show EchoServer.Phase.answer (.opening c.seq c.peerSeq) g
                  = (some (.opened c.seq c.peerSeq), none) from
                    congrArg (fun ph => (some ph, none)) (if_pos hgo),
                show tcpSynRcvd (tcpParse ipRx frameBuf) c = _ from if_pos (hguard.mpr hgo)]
              refine h.rewritten sh (some _) ?_ nofun
              exact congrArg (fun q => some (q, EchoServer.Phase.opened c.seq c.peerSeq)) hpeer'
            · rw [show EchoServer.Phase.answer (.opening c.seq c.peerSeq) g
                  = (some (.opening c.seq c.peerSeq), none) from
                    congrArg (fun ph => (some ph, none)) (if_neg hgo),
                show tcpSynRcvd (tcpParse ipRx frameBuf) c = _ from if_neg fun hno => hgo (hguard.mp hno)]
              refine h.rewritten sh (some _) ?_ (by rw [hstate', hst]; decide)
              unfold TcpConn.entry TcpConn.phase
              rw [hstate', hst, hpeer']
        | established =>
            have hph := hentry _ (show (t.conn cid).phase = some (.opened c.seq c.peerSeq) by
              rw [TcpConn.phase, hst, hseq, hrcv'])
            rw [EchoServer.serve_taken hslot hph]
            exact h.established un sh hg hcid hpeer' (hstate'.trans hst) rfl (hexp cid _ hslot hph)
        | lastAck =>
            have hph := hentry _ (show (t.conn cid).phase = some (.closing c.seq c.peerSeq) by
              rw [TcpConn.phase, hst, hseq, hrcv'])
            rw [EchoServer.serve_taken hslot hph]
            show TcpServes p _ sh ((t.setConn cid c).setConn cid (tcpLastAck (tcpParse ipRx frameBuf) c), sh)
            rw [setConn_setConn]
            by_cases hgo : EchoServer.acks g = true
            · rw [show EchoServer.Phase.answer (.closing c.seq c.peerSeq) g = (none, none) from
                  congrArg (fun ph => (ph, none)) (if_pos hgo),
                show tcpLastAck (tcpParse ipRx frameBuf) c = _ from if_pos (hack.trans hgo)]
              exact h.rewritten sh none rfl nofun
            · rw [show EchoServer.Phase.answer (.closing c.seq c.peerSeq) g
                  = (some (.closing c.seq c.peerSeq), none) from congrArg (fun ph => (ph, none)) (if_neg hgo),
                show tcpLastAck (tcpParse ipRx frameBuf) c = _ from if_neg (by rw [hack]; exact hgo)]
              refine h.rewritten sh (some _) ?_ (by rw [hstate', hst]; decide)
              unfold TcpConn.entry TcpConn.phase
              rw [hstate', hst, hpeer']

end Segment

end GigabitTcp
