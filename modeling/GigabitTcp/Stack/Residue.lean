/-
  GigabitTcp.Stack.Residue — what earlier frames leave behind in `frame_buf`.

  A frame is staged at the start of `frame_buf`, over whatever an earlier frame left there.
  The handlers trust the lengths that the headers claim and the layout of their protocol, and
  never look at the number of words that was staged.  So two runs that differ only in what
  was left behind agree as long as the handlers make do with the staged words.

  Main results:
    * `no_residue_in_replies` — in that case the pass and all passes after it agree,
    * `reply_from_residue`    — an ARP request that ends behind its opcode is answered or not,
      depending on what was there before.
-/
import GigabitTcp.Stack.Arrival
import GigabitTcp.Tcp.Uninit

namespace GigabitTcp

open Hw Machine

/-! ## §1. The words a handler depends on. -/

theorem byteAt_agree {m m' : Mem U32} {n base k : Nat} (h : Mem.AgreeOn 0 n m m')
    (hk : base + k / 4 < n) : m.byteAt base k = m'.byteAt base k :=
  Mem.byteAt_congr (h _ (Nat.zero_le _) hk)

/-- ARP: the sender, and the target of a request. -/
def arpNeeds (frameBuf : Mem U32) : Nat := if (arpFields frameBuf).opcode = arpRequest then 7 else 5

theorem arpRx_congr (resetN : Bool) (macRx : MacRx) {fb fb' : Mem U32} (sh : Shared)
    (h : Mem.AgreeOn 0 (arpNeeds fb) fb fb') :
    arpRxProcess resetN macRx fb sh = arpRxProcess resetN macRx fb' sh := by
  have hfive : 5 ≤ arpNeeds fb := by
    unfold arpNeeds
    split <;> omega
  -- opcode and sender are in the first five words
  have hsender : ∀ k, k < 20 → fb.byteAt 0 k = fb'.byteAt 0 k :=
    fun k hk => byteAt_agree h (by omega)
  have hopcode : (arpFields fb).opcode = (arpFields fb').opcode := by
    unfold arpFields
    simp (disch := omega) only [hsender]
  have hfrom : (arpFields fb).senderMac = (arpFields fb').senderMac
      ∧ (arpFields fb).senderIp = (arpFields fb').senderIp := by
    unfold arpFields
    simp (disch := omega) only [hsender, and_self]
  have hreply : ∀ sh, arpReply sh fb = arpReply sh fb' := by
    intro sh
    unfold arpReply
    rw [hfrom.1]
    simp (disch := omega) only [hsender]
  unfold arpRxProcess
  dsimp only
  rw [hfrom.1, hfrom.2, ← hopcode]
  by_cases hreq : (arpFields fb).opcode = arpRequest
  -- only a request is asked for its target, and it needs seven
  · have htarget : (arpFields fb).targetIp = (arpFields fb').targetIp := by
      have hseven : arpNeeds fb = 7 := if_pos hreq
      have hall : ∀ k, k < 28 → fb.byteAt 0 k = fb'.byteAt 0 k :=
        fun k hk => byteAt_agree h (by omega)
      unfold arpFields
      simp (disch := omega) only [hall]
    simp only [htarget, hreply]
  · simp only [hreq, false_and, if_false]

/-- The IPv4 header, unless its first byte already rules it out. -/
def ipNeeds (frameBuf : Mem U32) : Nat :=
  if frameBuf.byteAt 0 0 >>> 4 = 4#8 ∧ frameBuf.byteAt 0 0 &&& 0xF#8 = 5#8 then 5 else 1

theorem ipRx_congr (resetN : Bool) (macRx : MacRx) {fb fb' : Mem U32}
    (h : Mem.AgreeOn 0 (ipNeeds fb) fb fb') :
    ipRxProcess resetN macRx fb = ipRxProcess resetN macRx fb' := by
  have hone : 1 ≤ ipNeeds fb := by
    unfold ipNeeds
    split <;> omega
  have hfirst : fb.byteAt 0 0 = fb'.byteAt 0 0 := byteAt_agree h (by omega)
  unfold ipRxProcess
  rw [← hfirst]
  by_cases hver : fb.byteAt 0 0 >>> 4 = 4#8 ∧ fb.byteAt 0 0 &&& 0xF#8 = 5#8
  -- version and length are right, so the whole header is read
  · have hfive : ipNeeds fb = 5 := if_pos hver
    have hall : ∀ k, k < 20 → fb.byteAt 0 k = fb'.byteAt 0 k :=
      fun k hk => byteAt_agree h (by omega)
    have hfields : ipFields fb = ipFields fb' := by
      have hwords : be16Words (fb.byteAt 0) 10 = be16Words (fb'.byteAt 0) 10 := be16Words_congr hall
      unfold ipFields
      dsimp only
      rw [hwords]
      simp (disch := omega) only [hall]
    rw [hfields]
  -- the first byte rules it out, on both sides for the same reason
  · have hdropped : fb.byteAt 0 0 >>> 4 ≠ 4#8 ∨ fb.byteAt 0 0 &&& 0xF#8 ≠ 5#8 := not_and_or.mp hver
    by_cases hversion : fb.byteAt 0 0 >>> 4 ≠ 4#8
    · rw [if_pos hversion, if_pos hversion]
    · have hihl := hdropped.resolve_left hversion
      rw [if_neg hversion, if_neg hversion, if_pos hihl, if_pos hihl]

/-- ICMP: type and code, and as many words of an echo request as the IP header claims. -/
def icmpNeeds (ipRx : IpRx) (frameBuf : Mem U32) : Nat :=
  if icmpIsEcho frameBuf then max 6 (5 + icmpWords ipRx) else 6

theorem icmpRx_congr (resetN : Bool) (ipRx : IpRx) {fb fb' : Mem U32} (sh : Shared)
    (h : Mem.AgreeOn 0 (icmpNeeds ipRx fb) fb fb') :
    icmpRxProcess resetN ipRx fb sh = icmpRxProcess resetN ipRx fb' sh := by
  have hsix : 6 ≤ icmpNeeds ipRx fb := by
    unfold icmpNeeds
    split <;> omega
  have hecho : icmpIsEcho fb = icmpIsEcho fb' := by
    unfold icmpIsEcho
    rw [byteAt_agree h (k := 0) (by omega), byteAt_agree h (k := 1) (by omega)]
  unfold icmpRxProcess
  rw [← hecho]
  by_cases hanswer : icmpIsEcho fb = true
  · have hwords : 5 + icmpWords ipRx ≤ icmpNeeds ipRx fb := by
      unfold icmpNeeds
      rw [if_pos hanswer]
      omega
    have hframe : icmpReplyFrame sh.buffer fb ipRx = icmpReplyFrame sh.buffer fb' ipRx := by
      have hcopy : sh.buffer.fill txScratchBase (icmpWords ipRx) (fun i => fb (5 + i))
          = sh.buffer.fill txScratchBase (icmpWords ipRx) (fun i => fb' (5 + i)) :=
        Mem.fill_congr _ _ (fun i hi => h _ (by omega) (by omega))
      unfold icmpReplyFrame icmpEchoMessage
      rw [hcopy, h 5 (by omega) (by omega)]
    rw [hframe]
  · rw [if_neg hanswer, if_neg hanswer]

/-- IGMP: the type, and the rest of a query. -/
def igmpNeeds (frameBuf : Mem U32) : Nat := if frameBuf.byteAt 5 0 = igmpQuery then 7 else 6

theorem igmpRx_congr (resetN : Bool) (ipRx : IpRx) {fb fb' : Mem U32} (sh : Shared)
    (h : Mem.AgreeOn 0 (igmpNeeds fb) fb fb') :
    igmpRxProcess resetN ipRx fb sh = igmpRxProcess resetN ipRx fb' sh := by
  have hsix : 6 ≤ igmpNeeds fb := by
    unfold igmpNeeds
    split <;> omega
  have htype : fb.byteAt 5 0 = fb'.byteAt 5 0 := byteAt_agree h (by omega)
  have hcode : fb.byteAt 5 1 = fb'.byteAt 5 1 := byteAt_agree h (by omega)
  have hrespond : igmpShouldRespond fb = igmpShouldRespond fb' := by
    unfold igmpShouldRespond
    dsimp only
    by_cases hquery : fb.byteAt 5 0 = igmpQuery
    · have hseven : igmpNeeds fb = 7 := if_pos hquery
      have hall : ∀ k, k < 8 → fb.byteAt 5 k = fb'.byteAt 5 k :=
        fun k hk => byteAt_agree h (by omega)
      simp (disch := omega) only [hall]
    · have hno : (fb.byteAt 5 0 == igmpQuery) = false := by simpa using hquery
      rw [← htype, hno, Bool.false_and, Bool.false_and]
  have hreport : igmpReportType fb = igmpReportType fb' := by
    unfold igmpReportType
    rw [hcode]
  unfold igmpRxProcess
  rw [hrespond, hreport]

/-- UDP: the ports, and for port 8080 as much payload as the UDP header claims. -/
def udpNeeds (resetN : Bool) (ipRx : IpRx) (frameBuf : Mem U32) : Nat :=
  if (udpRxProcess resetN ipRx frameBuf).valid then
    7 + udpCopyWords (udpRxProcess resetN ipRx frameBuf)
  else 6

theorem udpRx_congr (resetN : Bool) (ipRx : IpRx) {fb fb' : Mem U32}
    (h : Mem.AgreeOn 0 (udpNeeds resetN ipRx fb) fb fb') :
    (udpRxProcess resetN ipRx fb').valid = (udpRxProcess resetN ipRx fb).valid
      ∧ ((udpRxProcess resetN ipRx fb).valid = true →
        udpRxProcess resetN ipRx fb' = udpRxProcess resetN ipRx fb) := by
  have hsix : 6 ≤ udpNeeds resetN ipRx fb := by
    unfold udpNeeds
    split <;> omega
  -- the port filter decides with the first header word
  have hport : (udpFields fb').dstPort = (udpFields fb).dstPort := by
    unfold udpFields
    dsimp only
    rw [byteAt_agree h (k := 2) (by omega), byteAt_agree h (k := 3) (by omega)]
  have hvalid : (udpRxProcess resetN ipRx fb').valid = (udpRxProcess resetN ipRx fb).valid := by
    unfold udpRxProcess
    dsimp only
    rw [hport]
    split_ifs <;> rfl
  refine ⟨hvalid, fun hv => ?_⟩
  -- a datagram that passes is read with its whole header
  have hseven : 7 ≤ udpNeeds resetN ipRx fb := by
    unfold udpNeeds
    rw [if_pos hv]
    omega
  have hfields : udpFields fb' = udpFields fb := by
    have hall : ∀ k, k < 8 → fb'.byteAt 5 k = fb.byteAt 5 k :=
      fun k hk => (byteAt_agree h (by omega)).symm
    unfold udpFields
    simp (disch := omega) only [hall]
  unfold udpRxProcess
  rw [hfields]

/-- The bytes of the options that the loop over a SYN looks at, from offset `o` on. -/
def tcpOptNeeds (frameBuf : Mem U32) (optEnd : Nat) : Nat → Nat → Nat
  | 0, _ => 0
  | fuel + 1, o =>
      if o + 1 < optEnd then
        let opt := frameBuf.byteAt 10
        if opt o = 0 then o + 1
        else if opt o = 1 then max (o + 1) (tcpOptNeeds frameBuf optEnd fuel (o + 1))
        else if opt (o + 1) < 2 then o + 2
        else
          let last :=
            if opt o = 2 ∧ 4 ≤ opt (o + 1) then o + 4
            else if opt o = 3 ∧ 3 ≤ opt (o + 1) then o + 3
            else o + 2
          max last (tcpOptNeeds frameBuf optEnd fuel (o + (opt (o + 1)).toNat))
      else 0

theorem tcpOptLoop_congr {fb fb' : Mem U32} (optEnd : Nat) : ∀ (fuel o : Nat) (c : TcpConn),
    (∀ k, k < tcpOptNeeds fb optEnd fuel o → fb.byteAt 10 k = fb'.byteAt 10 k) →
      tcpOptLoop fb optEnd fuel o c = tcpOptLoop fb' optEnd fuel o c
  | 0, _, _, _ => rfl
  | fuel + 1, o, c, h => by
      unfold tcpOptNeeds at h
      unfold tcpOptLoop
      dsimp only at h ⊢
      by_cases hmore : o + 1 < optEnd
      · rw [if_pos hmore, if_pos hmore]
        rw [if_pos hmore] at h
        by_cases hend : fb.byteAt 10 o = 0
        · rw [if_pos hend] at h
          rw [← h o (by omega), if_pos hend, if_pos hend]
        · rw [if_neg hend] at h
          by_cases hnop : fb.byteAt 10 o = 1
          · rw [if_pos hnop] at h
            rw [← h o (by omega), if_neg hend, if_neg hend, if_pos hnop, if_pos hnop]
            exact tcpOptLoop_congr optEnd fuel (o + 1) c (fun k hk => h k (by omega))
          · rw [if_neg hnop] at h
            by_cases hshort : fb.byteAt 10 (o + 1) < 2
            · rw [if_pos hshort] at h
              rw [← h o (by omega), ← h (o + 1) (by omega), if_neg hend, if_neg hend, if_neg hnop,
                if_neg hnop, if_pos hshort, if_pos hshort]
            · -- the value of an MSS or a window scale option is read too
              rw [if_neg hshort] at h
              have hkind : fb.byteAt 10 o = fb'.byteAt 10 o := h o (by split_ifs <;> omega)
              have hlen : fb.byteAt 10 (o + 1) = fb'.byteAt 10 (o + 1) := h (o + 1) (by split_ifs <;> omega)
              rw [← hkind, ← hlen, if_neg hend, if_neg hend, if_neg hnop, if_neg hnop, if_neg hshort,
                if_neg hshort]
              -- the loop goes on behind the option, whatever it has set
              have hrest : ∀ c, tcpOptLoop fb optEnd fuel (o + (fb.byteAt 10 (o + 1)).toNat) c
                  = tcpOptLoop fb' optEnd fuel (o + (fb.byteAt 10 (o + 1)).toNat) c :=
                fun c => tcpOptLoop_congr optEnd fuel _ c (fun k hk => h k (by omega))
              by_cases hmss : fb.byteAt 10 o = 2 ∧ 4 ≤ fb.byteAt 10 (o + 1)
              · rw [if_pos hmss] at h
                rw [if_pos hmss, if_pos hmss, ← h (o + 2) (by omega), ← h (o + 3) (by omega)]
                exact hrest _
              · rw [if_neg hmss] at h
                rw [if_neg hmss, if_neg hmss]
                by_cases hscale : fb.byteAt 10 o = 3 ∧ 3 ≤ fb.byteAt 10 (o + 1)
                · rw [if_pos hscale] at h
                  rw [if_pos hscale, if_pos hscale, ← h (o + 2) (by omega)]
                  exact hrest _
                · rw [if_neg hscale, if_neg hscale]
                  exact hrest _
      · rw [if_neg hmore, if_neg hmore]

/-- The options of a SYN, in bytes. -/
def tcpOptEnd (seg : TcpSeg) : Nat := (seg.doff.toNat - 5) * 4

/-- TCP: the ports; for the echo port and a slot in use the header up to the window; the
options of a SYN that takes a free slot; the payload of an established connection, if it is
taken from the frame at all. -/
def tcpNeeds (t : TcpState) (ipRx : IpRx) (frameBuf : Mem U32) : Nat :=
  let seg := tcpParse ipRx frameBuf
  if seg.dp ≠ tcpPortEcho then 6
  else
    match tcpFind t seg.sp ipRx.srcIp with
    | none => 6
    | some cid =>
        if (t.conn cid).state = .free ∧ seg.opens then
          max 9 (10 + (tcpOptNeeds frameBuf (tcpOptEnd seg) (tcpOptEnd seg) 0 + 3) / 4)
        else if (t.conn cid).state = .established ∧ 0 < seg.plen ∧ seg.plen ≤ tcpRxPayload then
          max 9 (5 + seg.doff.toNat + (seg.plen.toNat + 3) / 4)
        else 9

theorem tcpOpen_congr {fb fb' : Mem U32} (cid : Nat) (seg : TcpSeg) (c : TcpConn)
    (h : Mem.AgreeOn 0 (10 + (tcpOptNeeds fb (tcpOptEnd seg) (tcpOptEnd seg) 0 + 3) / 4) fb fb') :
    tcpOpen cid seg fb c = tcpOpen cid seg fb' c := by
  have hloop : ∀ c, tcpOptLoop fb (tcpOptEnd seg) (tcpOptEnd seg) 0 c
      = tcpOptLoop fb' (tcpOptEnd seg) (tcpOptEnd seg) 0 c :=
    fun c => tcpOptLoop_congr _ _ 0 c (fun k hk => byteAt_agree h (by omega))
  unfold tcpOpen
  dsimp only
  rw [show (seg.doff.toNat - 5) * 4 = tcpOptEnd seg from rfl, hloop]

theorem tcpPayload_congr {fb fb' : Mem U32} (un : Uninit) (seg : TcpSeg)
    (h : 0 < seg.plen ∧ seg.plen ≤ tcpRxPayload →
      Mem.AgreeOn 0 (5 + seg.doff.toNat + (seg.plen.toNat + 3) / 4) fb fb') :
    tcpPayload un fb seg = tcpPayload un fb' seg := by
  funext k
  unfold tcpPayload
  by_cases hk : 0 < seg.plen ∧ seg.plen ≤ tcpRxPayload ∧ k < seg.plen.toNat
  · rw [if_pos hk, if_pos hk]
    exact byteAt_agree (h ⟨hk.1, hk.2.1⟩) (by omega)
  · rw [if_neg hk, if_neg hk]

theorem tcpReceive_congr {fb fb' : Mem U32} (un : Uninit) (ipRx : IpRx) (t : TcpState) (sh : Shared)
    (hecho : ¬ (tcpParse ipRx fb).dp ≠ tcpPortEcho) (h : Mem.AgreeOn 0 (tcpNeeds t ipRx fb) fb fb')
    (hseg : tcpParse ipRx fb = tcpParse ipRx fb') :
    tcpReceive un ipRx (tcpParse ipRx fb) fb t sh = tcpReceive un ipRx (tcpParse ipRx fb') fb' t sh := by
  rw [← hseg]
  unfold tcpNeeds at h
  dsimp only at h
  rw [if_neg hecho] at h
  generalize tcpParse ipRx fb = seg at h ⊢
  cases hfind : tcpFind t seg.sp ipRx.srcIp with
  | none => rw [tcpReceive_none un fb sh hfind, tcpReceive_none un fb' sh hfind]
  | some cid =>
      rw [hfind] at h
      dsimp only at h
      by_cases hfree : (t.conn cid).state = .free
      · by_cases hopens : seg.opens = true
        · -- the SYN that takes the slot: its options
          rw [if_pos ⟨hfree, hopens⟩] at h
          have hconn : tcpOpen cid seg fb (t.conn cid) = tcpOpen cid seg fb' (t.conn cid) :=
            tcpOpen_congr cid seg (t.conn cid) (h.mono (Nat.le_refl 0) (Nat.le_max_right _ _))
          rw [tcpReceive_opened un fb sh hfind hfree hopens,
            tcpReceive_opened un fb' sh hfind hfree hopens, hconn]
          refine tcpSwitch_uninit un un ipRx sh fun hest => ?_
          rw [setConn_same, tcpOpened_state] at hest
          cases hest
        · rw [tcpReceive_closed un fb sh hfind hfree hopens,
            tcpReceive_closed un fb' sh hfind hfree hopens]
      · -- any other segment: its payload, where the connection is established
        have hno : ¬ ((t.conn cid).state = .free ∧ seg.opens = true) := fun hopen => hfree hopen.1
        rw [if_neg hno] at h
        rw [tcpReceive_live un fb sh hfind hfree, tcpReceive_live un fb' sh hfind hfree]
        refine tcpSwitch_uninit un un ipRx sh fun hest _ k _ => ?_
        rw [setConn_same, tcpOnSegment_state] at hest
        refine congrFun (tcpPayload_congr un seg fun hplen => ?_) k
        rw [if_pos ⟨hest, hplen⟩] at h
        exact h.mono (Nat.le_refl 0) (Nat.le_max_right _ _)

/-- TCP as a whole, on an IPv4 packet. -/
theorem tcpRx_congr {fb fb' : Mem U32} (un : Uninit) {ipRx : IpRx} (t : TcpState) (sh : Shared)
    (hvalid : ipRx.valid = true) (hproto : ipRx.protocol = ipProtoTcp)
    (h : Mem.AgreeOn 0 (tcpNeeds t ipRx fb) fb fb') :
    tcpRxProcess un true ipRx fb t sh = tcpRxProcess un true ipRx fb' t sh := by
  have hsix : 6 ≤ tcpNeeds t ipRx fb := by
    unfold tcpNeeds
    dsimp only
    split_ifs
    · omega
    · split
      · omega
      · split_ifs <;> omega
  have hbytes : ∀ k, k < 4 → fb.byteAt 5 k = fb'.byteAt 5 k := fun k hk => byteAt_agree h (by omega)
  have hports : (tcpParse ipRx fb).sp = (tcpParse ipRx fb').sp
      ∧ (tcpParse ipRx fb).dp = (tcpParse ipRx fb').dp := by
    unfold tcpParse
    dsimp only
    rw [hbytes 0 (by omega), hbytes 1 (by omega), hbytes 2 (by omega), hbytes 3 (by omega)]
    exact ⟨rfl, rfl⟩
  unfold tcpRxProcess
  rw [hvalid, hproto]
  show (if (tcpParse ipRx fb).dp ≠ tcpPortEcho then (t, sh)
      else tcpReceive un ipRx (tcpParse ipRx fb) fb t sh)
    = (if (tcpParse ipRx fb').dp ≠ tcpPortEcho then (t, sh)
      else tcpReceive un ipRx (tcpParse ipRx fb') fb' t sh)
  rw [← hports.2]
  by_cases hecho : (tcpParse ipRx fb).dp ≠ tcpPortEcho
  · rw [if_pos hecho, if_pos hecho]
  · rw [if_neg hecho, if_neg hecho]
    cases hfind : tcpFind t (tcpParse ipRx fb).sp ipRx.srcIp with
    | none =>
        -- no slot: the rest of the header is never looked at
        have hfind' : tcpFind t (tcpParse ipRx fb').sp ipRx.srcIp = none := by
          rw [← hports.1]
          exact hfind
        rw [tcpReceive_none un fb sh hfind, tcpReceive_none un fb' sh hfind']
    | some cid =>
        have hnine : 9 ≤ tcpNeeds t ipRx fb := by
          unfold tcpNeeds
          dsimp only
          rw [if_neg hecho, hfind]
          dsimp only
          split_ifs <;> omega
        have hall : ∀ k, k < 16 → fb.byteAt 5 k = fb'.byteAt 5 k :=
          fun k hk => byteAt_agree h (by omega)
        have hseg : tcpParse ipRx fb = tcpParse ipRx fb' := by
          unfold tcpParse
          simp (disch := omega) only [hall]
        exact tcpReceive_congr un ipRx t sh hecho h hseg

/-! ## §2. The words a frame depends on. -/

/-- What the protocol of an IPv4 packet depends on. -/
def UdpEcho.packetNeeds (s : UdpEcho) (i : PassIn) (ipRx : IpRx) : Nat :=
  if !ipRx.valid then 0
  else if ipRx.protocol = ipProtoIcmp then icmpNeeds ipRx s.frameBuf
  else if ipRx.protocol = ipProtoIgmp then igmpNeeds s.frameBuf
  else if ipRx.protocol = ipProtoTcp then tcpNeeds s.tcp ipRx s.frameBuf
  else if ipRx.protocol = ipProtoUdp then udpNeeds i.resetN ipRx s.frameBuf
  else 0

/-- What the dispatch of a staged frame depends on. -/
def UdpEcho.dispatchNeeds (s : UdpEcho) (i : PassIn) (rx : MacRx) : Nat :=
  if rx.ethertype = ethertypeArp then arpNeeds s.frameBuf
  else if rx.ethertype = ethertypeIpv4 then
    max (ipNeeds s.frameBuf) (s.packetNeeds i (ipRxProcess i.resetN rx s.frameBuf))
  else 0

/-- What the frame that completes in this pass depends on, in words of `frame_buf`. -/
def UdpEcho.frameNeeds (s : UdpEcho) (i : PassIn) : Nat :=
  if (s.frameIn i).valid then (s.staged i).dispatchNeeds i (s.frameIn i) else 0

/-- The frame makes do with the words staged for it. -/
def UdpEcho.MakesDo (s : UdpEcho) (i : PassIn) : Prop :=
  s.frameNeeds i ≤ min (s.frameIn i).nwords.toNat frameBufWords

instance (s : UdpEcho) (i : PassIn) : Decidable (s.MakesDo i) :=
  inferInstanceAs (Decidable (_ ≤ _))

/-! ## §3. One pass in two states that differ in `frame_buf`. -/

/-- The two states differ in the contents of `frame_buf` only. -/
def UdpEcho.SameButFrameBuf (s s' : UdpEcho) : Prop := ∃ fb, s' = { s with frameBuf := fb }

/-- The stages before reception do not look at `frame_buf`. -/
theorem resetOrInit_frameBuf (s : UdpEcho) (fb : Mem U32) (resetN : Bool) :
    { s with frameBuf := fb }.resetOrInit resetN = { s.resetOrInit resetN with frameBuf := fb } := by
  unfold UdpEcho.resetOrInit
  dsimp only
  split_ifs <;> rfl

theorem beforeReceive_frameBuf (s : UdpEcho) (fb : Mem U32) (i : PassIn) :
    let s' : UdpEcho := { s with frameBuf := fb }
    s'.afterMacTx i = { s.afterMacTx i with frameBuf := fb } ∧ s'.frameIn i = s.frameIn i
      ∧ s'.txByteIn i = s.txByteIn i ∧ s'.busyIn i = s.busyIn i := by
  intro s'
  unfold UdpEcho.afterMacTx UdpEcho.frameIn UdpEcho.txByteIn UdpEcho.busyIn UdpEcho.afterMacRx
  rw [resetOrInit_frameBuf]
  exact ⟨rfl, rfl, rfl, rfl⟩

/-- Staging makes the two buffers equal on the staged words. -/
theorem stage_agree (s : UdpEcho) (fb : Mem U32) (nwords : Nat) :
    ∃ fb', { s with frameBuf := fb }.stage nwords = { s.stage nwords with frameBuf := fb' }
      ∧ Mem.AgreeOn 0 (min nwords frameBufWords) (s.stage nwords).frameBuf fb' := by
  let words : Nat → U32 := fun i => s.frameFifo.getD i 0
  refine ⟨fb.fill 0 (min nwords frameBufWords) words, rfl, fun j _ hj => ?_⟩
  show s.frameBuf.fill 0 _ words j = fb.fill 0 _ words j
  rw [Mem.fill_inside _ _ (by omega), Mem.fill_inside _ _ (by omega)]

theorem receiveUdp_frameBuf (s : UdpEcho) {fb : Mem U32} (i : PassIn) (ipRx : IpRx)
    (h : Mem.AgreeOn 0 (udpNeeds i.resetN ipRx s.frameBuf) s.frameBuf fb) :
    { s with frameBuf := fb }.receiveUdp i ipRx = { s.receiveUdp i ipRx with frameBuf := fb } := by
  obtain ⟨hsame, hfields⟩ := udpRx_congr i.resetN ipRx h
  unfold UdpEcho.receiveUdp
  dsimp only
  by_cases hv : (udpRxProcess i.resetN ipRx s.frameBuf).valid = true
  · have hport : (udpRxProcess i.resetN ipRx s.frameBuf).dstPort ≠ dhcpClientPort := by
      rw [udpRxProcess_valid hv]
      decide
    have hcopy : s.shared.buffer.fill (txUdpBase + 7)
          (udpCopyWords (udpRxProcess i.resetN ipRx s.frameBuf)) (fun i => s.frameBuf (7 + i))
        = s.shared.buffer.fill (txUdpBase + 7)
          (udpCopyWords (udpRxProcess i.resetN ipRx s.frameBuf)) (fun i => fb (7 + i)) := by
      unfold udpNeeds at h
      rw [if_pos hv] at h
      exact Mem.fill_congr _ _ (fun k hk => h _ (by omega) (by omega))
    rw [hfields hv, if_pos hv, if_pos hv, if_neg hport, if_neg hport]
    unfold UdpEcho.captureUdp
    rw [hcopy]
  · rw [hsame, if_neg hv, if_neg hv]

theorem receiveIp_frameBuf (s : UdpEcho) {fb : Mem U32} (i : PassIn) (ipRx : IpRx)
    (hreset : i.resetN = true) (h : Mem.AgreeOn 0 (s.packetNeeds i ipRx) s.frameBuf fb) :
    { s with frameBuf := fb }.receiveIp i ipRx = { s.receiveIp i ipRx with frameBuf := fb } := by
  unfold UdpEcho.packetNeeds at h
  unfold UdpEcho.receiveIp
  by_cases hvalid : ipRx.valid = true
  · rw [hvalid] at h ⊢
    simp only [Bool.not_true, Bool.false_eq_true, if_false] at h ⊢
    by_cases hicmp : ipRx.protocol = ipProtoIcmp
    · rw [if_pos hicmp] at h
      rw [if_pos hicmp, if_pos hicmp, icmpRx_congr i.resetN ipRx s.shared h]
    rw [if_neg hicmp] at h
    rw [if_neg hicmp, if_neg hicmp]
    by_cases higmp : ipRx.protocol = ipProtoIgmp
    · rw [if_pos higmp] at h
      rw [if_pos higmp, if_pos higmp, igmpRx_congr i.resetN ipRx s.shared h]
    rw [if_neg higmp] at h
    rw [if_neg higmp, if_neg higmp]
    by_cases htcp : ipRx.protocol = ipProtoTcp
    · rw [if_pos htcp] at h
      rw [if_pos htcp, if_pos htcp, hreset, tcpRx_congr i.uninit s.tcp s.shared hvalid htcp h]
    rw [if_neg htcp] at h
    rw [if_neg htcp, if_neg htcp]
    by_cases hudp : ipRx.protocol = ipProtoUdp
    · rw [if_pos hudp] at h
      rw [if_pos hudp, if_pos hudp]
      exact receiveUdp_frameBuf s i ipRx h
    · rw [if_neg hudp, if_neg hudp]
  -- no IPv4 packet: nothing behind the header is looked at
  · have hno : (!ipRx.valid) = true := by simpa using hvalid
    rw [if_pos hno, if_pos hno]

/-- **The dispatch** does the same with every buffer that agrees on the words it needs. -/
theorem dispatch_frameBuf (s : UdpEcho) {fb : Mem U32} (i : PassIn) (rx : MacRx)
    (hreset : i.resetN = true) (h : Mem.AgreeOn 0 (s.dispatchNeeds i rx) s.frameBuf fb) :
    { s with frameBuf := fb }.dispatch i rx = { s.dispatch i rx with frameBuf := fb } := by
  unfold UdpEcho.dispatchNeeds at h
  unfold UdpEcho.dispatch
  by_cases harp : rx.ethertype = ethertypeArp
  · rw [if_pos harp] at h
    rw [if_pos harp, if_pos harp, arpRx_congr i.resetN rx s.shared h]
  rw [if_neg harp] at h
  rw [if_neg harp, if_neg harp]
  by_cases hip : rx.ethertype = ethertypeIpv4
  · rw [if_pos hip] at h
    rw [if_pos hip, if_pos hip]
    have hhdr : ipRxProcess i.resetN rx s.frameBuf = ipRxProcess i.resetN rx fb :=
      ipRx_congr i.resetN rx (h.mono (Nat.le_refl 0) (Nat.le_max_left _ _))
    dsimp only
    rw [← hhdr]
    exact receiveIp_frameBuf s i _ hreset (h.mono (Nat.le_refl 0) (Nat.le_max_right _ _))
  · rw [if_neg hip, if_neg hip]

/-- Reception, with the receive counters that depend on the same words. -/
theorem afterReceive_frameBuf (s : UdpEcho) (fb : Mem U32) (i : PassIn) (h : s.MakesDo i) :
    ∃ fb', { s with frameBuf := fb }.afterReceive i = { s.afterReceive i with frameBuf := fb' }
      ∧ ∀ st, statsOfFrame st (s.frameIn i)
          (ipRxProcess i.resetN (s.frameIn i) (s.afterReceive i).frameBuf)
        = statsOfFrame st (s.frameIn i) (ipRxProcess i.resetN (s.frameIn i) fb') := by
  obtain ⟨hbefore, hframe, -, -⟩ := beforeReceive_frameBuf s fb i
  unfold UdpEcho.afterReceive
  rw [hbefore, hframe]
  unfold UdpEcho.receive
  by_cases hv : (s.frameIn i).valid = true
  · have hreset : i.resetN = true := resetN_of_frameIn hv
    -- staging overwrites the words of the frame on both sides
    obtain ⟨fb', hstage, hagree⟩ := stage_agree (s.afterMacTx i) fb (s.frameIn i).nwords.toNat
    have hneeds : Mem.AgreeOn 0 ((s.staged i).dispatchNeeds i (s.frameIn i)) (s.staged i).frameBuf fb' := by
      unfold UdpEcho.MakesDo UdpEcho.frameNeeds at h
      rw [if_pos hv] at h
      exact hagree.mono (Nat.le_refl 0) h
    rw [if_pos hv, if_pos hv, hstage]
    refine ⟨fb', dispatch_frameBuf (s.staged i) i (s.frameIn i) hreset hneeds, fun st => ?_⟩
    obtain ⟨_, _, _, hdispatch⟩ := dispatch_eq (s.staged i) i (s.frameIn i)
    show statsOfFrame st _ (ipRxProcess _ _ ((s.staged i).dispatch i (s.frameIn i)).frameBuf) = _
    rw [hdispatch]
    unfold statsOfFrame
    by_cases harp : (s.frameIn i).ethertype = ethertypeArp
    · rw [if_pos harp, if_pos harp]
    by_cases hip : (s.frameIn i).ethertype = ethertypeIpv4
    · -- an IPv4 frame is counted with the length in its header
      have hhdr : ipRxProcess i.resetN (s.frameIn i) (s.staged i).frameBuf
          = ipRxProcess i.resetN (s.frameIn i) fb' := by
        unfold UdpEcho.dispatchNeeds at hneeds
        rw [if_neg harp, if_pos hip] at hneeds
        exact ipRx_congr _ _ (hneeds.mono (Nat.le_refl 0) (Nat.le_max_left _ _))
      rw [hhdr]
    · rw [if_neg harp, if_neg harp, if_neg hip, if_neg hip]
  -- no frame completes in this pass
  · rw [if_neg hv, if_neg hv]
    refine ⟨fb, rfl, fun st => ?_⟩
    have hno : (!(s.frameIn i).valid) = true := by simpa using hv
    unfold statsOfFrame
    rw [if_pos hno, if_pos hno]

/-- The senders do not look at `frame_buf`. -/
theorem runDhcpTx_frameBuf (s : UdpEcho) (fb : Mem U32) (resetN : Bool) :
    { s with frameBuf := fb }.runDhcpTx resetN = { s.runDhcpTx resetN with frameBuf := fb } := by
  unfold UdpEcho.runDhcpTx
  dsimp only
  split_ifs <;> rfl

theorem runUdpTx_frameBuf (s : UdpEcho) (fb : Mem U32) (pacing : U32) (resetN busy : Bool) :
    { s with frameBuf := fb }.runUdpTx pacing resetN busy
      = { s.runUdpTx pacing resetN busy with frameBuf := fb } := by
  unfold UdpEcho.runUdpTx
  dsimp only
  split_ifs <;> rfl

theorem runTcpMaintenance_frameBuf (s : UdpEcho) (fb : Mem U32) (un : Uninit) (busy : Bool) :
    { s with frameBuf := fb }.runTcpMaintenance un busy
      = { s.runTcpMaintenance un busy with frameBuf := fb } := by
  unfold UdpEcho.runTcpMaintenance
  dsimp only
  split_ifs <;> rfl

/-- No sender touches it either. -/
theorem afterTcp_frameBuf (pacing : U32) (s : UdpEcho) (i : PassIn) :
    (s.afterTcp pacing i).frameBuf = (s.afterReceive i).frameBuf := by
  obtain ⟨_, _, _, _, _, hsenders⟩ := senders_eq pacing s i
  rw [hsenders]

/-- **One pass**: if the frame that completes in it, if any, makes do with its staged words,
two states that differ in `frame_buf` only show the same and still differ there only. -/
theorem udpEcho_frameBuf (pacing : U32) {s s' : UdpEcho} (i : PassIn) (hs : s.SameButFrameBuf s')
    (h : s.MakesDo i) :
    (udpEcho pacing s i).1.SameButFrameBuf (udpEcho pacing s' i).1
      ∧ (udpEcho pacing s i).2 = (udpEcho pacing s' i).2 := by
  obtain ⟨fb, rfl⟩ := hs
  obtain ⟨-, hframe, htx, hbusy⟩ := beforeReceive_frameBuf s fb i
  obtain ⟨fb', hreceive, hcounted⟩ := afterReceive_frameBuf s fb i h
  have htcp : { s with frameBuf := fb }.afterTcp pacing i = { s.afterTcp pacing i with frameBuf := fb' } := by
    unfold UdpEcho.afterTcp UdpEcho.afterUdp UdpEcho.afterDhcp
    rw [hreceive, hbusy, runDhcpTx_frameBuf, runUdpTx_frameBuf, runTcpMaintenance_frameBuf]
  rw [← afterTcp_frameBuf pacing] at hcounted
  -- the receive counters read the header of the frame
  have hstats : { s.afterTcp pacing i with frameBuf := fb' }.runStats i (s.frameIn i)
      = ({ ((s.afterTcp pacing i).runStats i (s.frameIn i)).1 with frameBuf := fb' },
        ((s.afterTcp pacing i).runStats i (s.frameIn i)).2) := by
    unfold UdpEcho.runStats
    dsimp only
    rw [hcounted]
  have hpass : ∀ t : UdpEcho, udpEcho pacing t i =
      (((t.afterTcp pacing i).runStats i (t.frameIn i)).1,
        { tx := t.txByteIn i
          msg := ((t.afterTcp pacing i).runStats i (t.frameIn i)).2
          ledD0 := ((t.afterTcp pacing i).runStats i (t.frameIn i)).1.dhcp.state == .done }) := by
    intro t
    unfold udpEcho
    rfl
  rw [hpass, hpass, hframe, htx, htcp, hstats]
  exact ⟨⟨fb', rfl⟩, rfl⟩

/-! ## §4. Runs. -/

/-- **Whole runs**: as long as every frame makes do with its staged words, nothing shows what
earlier frames left in `frame_buf`. -/
theorem udpEcho_frameBuf_run (pacing : U32) {s s' : UdpEcho} (hs : s.SameButFrameBuf s')
    (is : List PassIn) (h : Along (udpEchoMachine pacing) UdpEcho.MakesDo s is) :
    ((udpEchoMachine pacing).after s is).SameButFrameBuf ((udpEchoMachine pacing).after s' is)
      ∧ (udpEchoMachine pacing).outs s is = (udpEchoMachine pacing).outs s' is :=
  Along.bisim (fun _ _ i hst hmakes => udpEcho_frameBuf pacing i hst hmakes) hs is h

/-- Passes that read no byte complete no frame. -/
theorem along_makesDo_of_rx_none (pacing : U32) {is : List PassIn} (hquiet : ∀ i ∈ is, i.rx = none)
    (s : UdpEcho) : Along (udpEchoMachine pacing) UdpEcho.MakesDo s is := by
  induction is generalizing s with
  | nil => trivial
  | cons i is ih =>
      have hnone : (s.frameIn i).valid = false := frameIn_of_rx_none s (hquiet i (by simp))
      have hmakes : s.MakesDo i := by
        unfold UdpEcho.MakesDo UdpEcho.frameNeeds
        rw [if_neg (by simp [hnone])]
        exact Nat.zero_le _
      exact ⟨hmakes, ih (fun j hj => hquiet j (by simp [hj])) _⟩

/-! ## §5. Replies. -/

/-- The stack before the last byte of the first frame it reads. -/
def beforeFrameEnd (f : TaggedFrame) : UdpEcho :=
  (udpEchoMachine 625000000).after {} ((gmiiFrame f.bytes).dropLast.map readPass)

/-- The pass that reads it. -/
def frameEndPass (f : TaggedFrame) : PassIn :=
  readPass ((gmiiFrame f.bytes).getLastD { data := 0, last := true })

/-- Two states that differ in what earlier frames left in `frame_buf` answer a frame in the
same way, if the frame makes do with the words staged for it. -/
theorem no_residue_in_replies (pacing : U32) {s s' : UdpEcho} (hs : s.SameButFrameBuf s') (i : PassIn)
    (h : s.MakesDo i) (is : List PassIn) (hquiet : ∀ j ∈ is, j.rx = none) :
    (udpEcho pacing s i).1.shared.txReq = (udpEcho pacing s' i).1.shared.txReq
      ∧ (udpEchoMachine pacing).outs s (i :: is) = (udpEchoMachine pacing).outs s' (i :: is) := by
  have hrun : Along (udpEchoMachine pacing) UdpEcho.MakesDo s (i :: is) :=
    ⟨h, along_makesDo_of_rx_none pacing hquiet _⟩
  obtain ⟨fb, hpass⟩ := (udpEcho_frameBuf pacing i hs h).1
  exact ⟨by rw [hpass], (udpEcho_frameBuf_run pacing hs (i :: is) hrun).2⟩

/-- A complete ARP request makes do with its seven words. -/
theorem no_residue_in_arp_reply :
    let s := beforeFrameEnd (arpRequestFrame 1)
    let s' : UdpEcho := { s with frameBuf := fun _ => 0xFFFFFFFF }
    let i := frameEndPass (arpRequestFrame 1)
    (udpEcho 625000000 s i).1.shared.txReq = (udpEcho 625000000 s' i).1.shared.txReq
      ∧ (udpEchoMachine 625000000).outs s (i :: List.replicate 100 .quiet)
        = (udpEchoMachine 625000000).outs s' (i :: List.replicate 100 .quiet) := by
  have hmakes : (beforeFrameEnd (arpRequestFrame 1)).MakesDo (frameEndPass (arpRequestFrame 1)) := by
    decide +kernel
  exact no_residue_in_replies 625000000 ⟨fun _ => 0xFFFFFFFF, rfl⟩ _ hmakes (List.replicate 100 .quiet)
    (fun j hj => by rw [List.eq_of_mem_replicate hj]; rfl)

/-- An ARP request that ends behind its opcode. -/
def arpRequestHead : TaggedFrame where
  dst := boardMac
  src := hostMac 1
  tags := []
  ethertype := ethertypeArp
  payload := [0, 1, 8, 0, 6, 4, 0, 1]
  notTag := ethertypeArp_notTag
  nonempty := by simp

/-- What the complete request of host 1 leaves in `frame_buf`. -/
def arpRequestResidue : Mem U32 := fun j => (packWords (arpRequestFrame 1).payload).getD j 0

/-- The request that ends behind its opcode is answered if a complete one was there before
it, and not answered otherwise. -/
theorem reply_from_residue :
    let s := beforeFrameEnd arpRequestHead
    let s' : UdpEcho := { s with frameBuf := arpRequestResidue }
    let i := frameEndPass arpRequestHead
    s.SameButFrameBuf s' ∧ (s.frameIn i).valid = true ∧ (s.frameIn i).nwords = 2
      ∧ (udpEcho 625000000 s i).1.shared.txReq.request = false
      ∧ (udpEcho 625000000 s' i).1.shared.txReq.request = true
      ∧ (udpEcho 625000000 s' i).1.shared.txReq.dstMac = hostMac 1 := by
  refine ⟨⟨arpRequestResidue, rfl⟩, ?_⟩
  decide +kernel

end GigabitTcp
