/-
  GigabitTcp.Stack.Reception — what the frame that completes in a pass does to the buffer.

  A received frame is processed in the pass that completes it, whatever MAC TX is doing.
  Some frames are answered at once: ARP requests for the board, echo requests, IGMP queries,
  and the TCP segments that open or close a connection.  A datagram for port 8080 has its
  payload copied.  `Reception` names these three outcomes with the words that are written,
  and `receive_writes` ties them to the handlers.
-/
import GigabitTcp.Stack.Pass
import GigabitTcp.Tcp.Runs

namespace GigabitTcp

open Hw

/-! ## §1. The three outcomes. -/

/-- What a received frame writes to the shared buffer. -/
inductive Reception where
  /-- Nothing. -/
  | quiet
  /-- A reply in the words `[lo, hi)`, which is requested in the same pass. -/
  | answers (lo hi : Nat)
  /-- A UDP payload in the words `[lo, hi)`. -/
  | captures (lo hi : Nat)
  deriving Repr, DecidableEq

/-- `r` describes what happens to the buffer and the mailbox between `sh` and `sh'`. -/
def Reception.Writes (r : Reception) (sh sh' : Shared) : Prop :=
  match r with
  | .quiet => sh'.buffer = sh.buffer ∧ sh'.txReq = sh.txReq
  | .answers lo hi => Mem.ChangesOnly lo hi sh.buffer sh'.buffer ∧ sh'.txReq.request = true
  | .captures lo hi => Mem.ChangesOnly lo hi sh.buffer sh'.buffer ∧ sh'.txReq = sh.txReq

/-- An ARP request for the board is answered. -/
def arpReception (resetN : Bool) (macRx : MacRx) (frameBuf : Mem U32) : Reception :=
  if !resetN || !macRx.valid || macRx.ethertype != ethertypeArp then .quiet
  else if (arpFields frameBuf).opcode = arpRequest ∧ (arpFields frameBuf).targetIp = boardIp then
    .answers txScratchBase (txScratchBase + 7)
  else .quiet

/-- An echo request is answered; message and header together are five words longer. -/
def icmpReception (resetN : Bool) (ipRx : IpRx) (frameBuf : Mem U32) : Reception :=
  if !resetN || !ipRx.valid || ipRx.protocol != ipProtoIcmp then .quiet
  else if icmpIsEcho frameBuf then
    .answers txScratchBase (txScratchBase + 5 + icmpWords ipRx)
  else .quiet

/-- An IGMP query for the board is answered. -/
def igmpReception (resetN : Bool) (ipRx : IpRx) (frameBuf : Mem U32) : Reception :=
  if !resetN || !ipRx.valid || ipRx.protocol != ipProtoIgmp then .quiet
  else if igmpShouldRespond frameBuf then .answers txScratchBase (txScratchBase + 7)
  else .quiet

/-- A segment that opens a connection is answered with 28 bytes of TCP, one that closes an
established connection with 20. -/
def tcpSlotReception (t : TcpState) (cid : Nat) (seg : TcpSeg) : Reception :=
  if TcpConnects t cid seg then .answers txUdpBase (txUdpBase + 12)
  else if (t.conn cid).state = .established ∧ hasFlag seg.flags tcpFin = true then
    .answers txUdpBase (txUdpBase + 10)
  else .quiet

def tcpReception (resetN : Bool) (ipRx : IpRx) (frameBuf : Mem U32) (t : TcpState) : Reception :=
  match tcpTarget resetN ipRx frameBuf t with
  | none => .quiet
  | some cid => tcpSlotReception t cid (tcpParse ipRx frameBuf)

/-- The payload of a datagram for port 8080 is copied. -/
def udpReception (resetN : Bool) (ipRx : IpRx) (frameBuf : Mem U32) : Reception :=
  if (udpRxProcess resetN ipRx frameBuf).valid then
    .captures (txUdpBase + 7) (txUdpBase + 7 + udpCopyWords (udpRxProcess resetN ipRx frameBuf))
  else .quiet

/-- The IPv4 branch of the dispatch. -/
def ipReception (s : UdpEcho) (i : PassIn) (ipRx : IpRx) : Reception :=
  if !ipRx.valid then .quiet
  else if ipRx.protocol = ipProtoIcmp then icmpReception i.resetN ipRx s.frameBuf
  else if ipRx.protocol = ipProtoIgmp then igmpReception i.resetN ipRx s.frameBuf
  else if ipRx.protocol = ipProtoTcp then tcpReception i.resetN ipRx s.frameBuf s.tcp
  else if ipRx.protocol = ipProtoUdp then udpReception i.resetN ipRx s.frameBuf
  else .quiet

/-- The dispatch of a staged frame. -/
def dispatchReception (s : UdpEcho) (i : PassIn) (rx : MacRx) : Reception :=
  if rx.ethertype = ethertypeArp then arpReception i.resetN rx s.frameBuf
  else if rx.ethertype = ethertypeIpv4 then
    ipReception s i (ipRxProcess i.resetN rx s.frameBuf)
  else .quiet

/-- What reception does in this pass. -/
def UdpEcho.reception (s : UdpEcho) (i : PassIn) : Reception :=
  if (s.frameIn i).valid then dispatchReception (s.staged i) i (s.frameIn i) else .quiet

/-! ## §2. The handlers. -/

theorem Reception.writes_quiet (sh : Shared) (arp : ArpTables) :
    Reception.quiet.Writes sh { sh with arp } := ⟨rfl, rfl⟩

/-- The resolution of a MAC address touches neither buffer nor mailbox. -/
theorem replyMac_eq (sh : Shared) (ip : U32) : ∃ mac arp, replyMac sh ip = (mac, { sh with arp }) := by
  unfold replyMac
  exact ⟨_, _, rfl⟩

theorem arpRx_writes (resetN : Bool) (macRx : MacRx) (frameBuf : Mem U32) (sh : Shared) :
    (arpReception resetN macRx frameBuf).Writes sh (arpRxProcess resetN macRx frameBuf sh) := by
  unfold arpReception arpRxProcess
  by_cases hrst : (!resetN) = true
  · rw [if_pos (by rw [hrst]; rfl), if_pos hrst]
    exact Reception.writes_quiet sh _
  · rw [if_neg hrst]
    by_cases hskip : (!macRx.valid || macRx.ethertype != ethertypeArp) = true
    · rw [if_pos (by rw [Bool.or_assoc, hskip, Bool.or_true]), if_pos hskip]
      exact Reception.writes_quiet sh sh.arp
    · rw [if_neg (by rw [Bool.or_assoc, Bool.or_eq_true]; tauto), if_neg hskip]
      dsimp only
      split
      · exact ⟨Mem.fill_changesOnly _ _ _ _, rfl⟩
      · exact Reception.writes_quiet sh _

/-- The echo message stays in the words of the reply. -/
theorem icmpEchoMessage_changesOnly (buffer frameBuf : Mem U32) (ipRx : IpRx) :
    Mem.ChangesOnly txScratchBase (txScratchBase + 5 + icmpWords ipRx) buffer
      (icmpEchoMessage buffer frameBuf ipRx) := by
  have hset : ∀ (m : Mem U32) (v : U32),
      Mem.ChangesOnly txScratchBase (txScratchBase + 5 + icmpWords ipRx) m (m.set txScratchBase v) :=
    fun m v => (Mem.set_changesOnly m _ v).mono (Nat.le_refl _) (by omega)
  have hcopy : Mem.ChangesOnly txScratchBase (txScratchBase + 5 + icmpWords ipRx) buffer
      (buffer.fill txScratchBase (icmpWords ipRx) (fun i => frameBuf (5 + i))) :=
    (Mem.fill_changesOnly _ _ _ _).mono (Nat.le_refl _) (by omega)
  unfold icmpEchoMessage
  exact ((hcopy.trans (hset _ _)).trans (hset _ _)).trans (hset _ _)

theorem icmpReplyFrame_changesOnly (buffer frameBuf : Mem U32) (ipRx : IpRx) :
    Mem.ChangesOnly txScratchBase (txScratchBase + 5 + icmpWords ipRx) buffer
      (icmpReplyFrame buffer frameBuf ipRx) := by
  have hshift : Mem.ChangesOnly txScratchBase (txScratchBase + 5 + icmpWords ipRx)
      (icmpEchoMessage buffer frameBuf ipRx)
      ((icmpEchoMessage buffer frameBuf ipRx).moveUp txScratchBase 5 (icmpWords ipRx)) :=
    (Mem.moveUp_changesOnly _ _ _ _).mono (by omega) (Nat.le_refl _)
  unfold icmpReplyFrame
  refine ((icmpEchoMessage_changesOnly buffer frameBuf ipRx).trans hshift).trans ?_
  exact (Mem.fill_changesOnly _ _ _ _).mono (Nat.le_refl _) (by omega)

theorem icmpRx_writes (resetN : Bool) (ipRx : IpRx) (frameBuf : Mem U32) (sh : Shared) :
    (icmpReception resetN ipRx frameBuf).Writes sh (icmpRxProcess resetN ipRx frameBuf sh) := by
  unfold icmpReception icmpRxProcess
  split
  · exact Reception.writes_quiet sh sh.arp
  · split
    · dsimp only
      obtain ⟨mac, arp, hmac⟩ := replyMac_eq
        { sh with buffer := icmpReplyFrame sh.buffer frameBuf ipRx } ipRx.srcIp
      rw [hmac]
      exact ⟨icmpReplyFrame_changesOnly sh.buffer frameBuf ipRx, rfl⟩
    · exact Reception.writes_quiet sh sh.arp

theorem igmpRx_writes (resetN : Bool) (ipRx : IpRx) (frameBuf : Mem U32) (sh : Shared) :
    (igmpReception resetN ipRx frameBuf).Writes sh (igmpRxProcess resetN ipRx frameBuf sh) := by
  unfold igmpReception igmpRxProcess
  split
  · exact Reception.writes_quiet sh sh.arp
  · split
    · have hreport : Mem.ChangesOnly txScratchBase (txScratchBase + 7) sh.buffer
          (sh.buffer.fill (txScratchBase + 5) 2 (Mem.wordOf (igmpReport (igmpReportType frameBuf)))) :=
        (Mem.fill_changesOnly _ _ _ _).mono (by omega) (by omega)
      refine ⟨hreport.trans ?_, rfl⟩
      exact (Mem.fill_changesOnly _ _ _ _).mono (Nat.le_refl _) (by omega)
    · exact Reception.writes_quiet sh sh.arp

/-- The frame that `tcp_send` asks for. -/
theorem tcpSend_issue (un : Uninit) {cid : Nat} (flags : U8) (payload : Option (Nat → U8))
    (payLen : U16) (t : TcpState) (sh : Shared) (hcid : cid < maxTcpConn) :
    ∃ mac arp, (tcpSend un cid flags payload payLen t sh).2
      = Shared.issue { sh with arp, buffer := tcpWriteFrame un (t.conn cid) flags payload payLen sh.buffer }
        mac ethertypeIpv4 txUdpBase (20 + tcpTotal flags payLen) := by
  unfold tcpSend
  rw [if_neg (by omega)]
  dsimp only
  obtain ⟨mac, arp, hmac⟩ := replyMac_eq
    { sh with buffer := tcpWriteFrame un (t.conn cid) flags payload payLen sh.buffer } (t.conn cid).peerIp
  rw [hmac]
  exact ⟨mac, arp, rfl⟩

/-- `tcp_send` writes its frame and requests it. -/
theorem tcpSend_writes (un : Uninit) {cid : Nat} (flags : U8) (payload : Option (Nat → U8))
    (payLen : U16) (t : TcpState) (sh : Shared) (hcid : cid < maxTcpConn) :
    (Reception.answers txUdpBase (txUdpBase + 5 + ((tcpTotal flags payLen).toNat + 3) / 4)).Writes sh
      (tcpSend un cid flags payload payLen t sh).2 := by
  obtain ⟨mac, arp, hsent⟩ := tcpSend_issue un flags payload payLen t sh hcid
  rw [hsent]
  refine ⟨?_, rfl⟩
  show Mem.ChangesOnly _ _ sh.buffer (tcpWriteFrame un (t.conn cid) flags payload payLen sh.buffer)
  unfold tcpWriteFrame
  dsimp only
  have hheader : ∀ hdr : Nat → U8, Mem.ChangesOnly txUdpBase
      (txUdpBase + 5 + ((tcpTotal flags payLen).toNat + 3) / 4) sh.buffer
      (sh.buffer.fill txUdpBase 5 (Mem.wordOf hdr)) :=
    fun hdr => (Mem.fill_changesOnly _ _ _ _).mono (Nat.le_refl _) (by omega)
  refine (hheader (ipHeader (20 + tcpTotal flags payLen) 0 128 ipProtoTcp boardIpBytes
    (wordBytes 4 (t.conn cid).peerIp))).trans ?_
  exact (Mem.fill_changesOnly _ _ _ _).mono (by omega) (Nat.le_refl _)

/-- A SYN-ACK takes 28 bytes of TCP. -/
theorem tcpSend_syn_writes (un : Uninit) {cid : Nat} (t : TcpState) (sh : Shared)
    (hcid : cid < maxTcpConn) :
    (Reception.answers txUdpBase (txUdpBase + 12)).Writes sh
      (tcpSend un cid (tcpSyn ||| tcpAck) none 0 t sh).2 := by
  have hwords : txUdpBase + 5 + ((tcpTotal (tcpSyn ||| tcpAck) 0).toNat + 3) / 4
      = txUdpBase + 12 := by decide
  have h := tcpSend_writes un (tcpSyn ||| tcpAck) none 0 t sh hcid
  rwa [hwords] at h

/-- A FIN-ACK takes 20 bytes of TCP. -/
theorem tcpSend_fin_writes (un : Uninit) {cid : Nat} (t : TcpState) (sh : Shared)
    (hcid : cid < maxTcpConn) :
    (Reception.answers txUdpBase (txUdpBase + 10)).Writes sh
      (tcpSend un cid (tcpFin ||| tcpAck) none 0 t sh).2 := by
  have hwords : txUdpBase + 5 + ((tcpTotal (tcpFin ||| tcpAck) 0).toNat + 3) / 4
      = txUdpBase + 10 := by decide
  have h := tcpSend_writes un (tcpFin ||| tcpAck) none 0 t sh hcid
  rwa [hwords] at h

/-- The state switch answers a SYN in LISTEN and a FIN in ESTABLISHED. -/
theorem tcpSwitch_writes (un : Uninit) {cid : Nat} (seg : TcpSeg) (payload : Nat → U8) (ipRx : IpRx)
    (t : TcpState) (sh : Shared) (hcid : cid < maxTcpConn) (hfree : (t.conn cid).state ≠ .free) :
    (tcpSlotReception t cid seg).Writes sh (tcpSwitch un cid seg payload ipRx t sh).2 := by
  -- everything but the two answers leaves the shared state alone
  have hquiet : ¬ TcpConnects t cid seg →
      ¬ ((t.conn cid).state = .established ∧ hasFlag seg.flags tcpFin = true) →
      (tcpSlotReception t cid seg).Writes sh sh := by
    intro hconn hfin
    unfold tcpSlotReception
    rw [if_neg hconn, if_neg hfin]
    exact ⟨rfl, rfl⟩
  unfold tcpSwitch
  cases hst : (t.conn cid).state with
  | free => exact absurd hst hfree
  | listen =>
      show (tcpSlotReception t cid seg).Writes sh (tcpListen un cid seg ipRx t sh).2
      by_cases hsyn : hasFlag seg.flags tcpSyn = true
      · have hconn : TcpConnects t cid seg := .inr ⟨hst, hsyn⟩
        unfold tcpSlotReception tcpListen
        rw [if_pos hconn, if_pos hsyn]
        exact tcpSend_syn_writes un _ sh hcid
      · have hlisten : tcpListen un cid seg ipRx t sh = (t, sh) := by
          unfold tcpListen
          exact if_neg hsyn
        rw [hlisten]
        refine hquiet ?_ (by rw [hst]; simp)
        rintro (⟨h, _⟩ | ⟨_, h⟩)
        · exact hfree h
        · exact hsyn h
  | synRcvd => exact hquiet (not_tcpConnects seg hfree (by rw [hst]; decide)) (by rw [hst]; simp)
  | established =>
      have hconn := not_tcpConnects seg hfree (by rw [hst]; decide)
      show (tcpSlotReception t cid seg).Writes sh (tcpEstablished un cid seg payload t sh).2
      by_cases hfin : hasFlag seg.flags tcpFin = true
      · unfold tcpSlotReception tcpEstablished
        rw [if_neg hconn, if_pos ⟨hst, hfin⟩]
        dsimp only
        rw [if_pos hfin]
        exact tcpSend_fin_writes un _ sh hcid
      -- data without FIN goes to the queue, and sends nothing here
      · have hshared : (tcpEstablished un cid seg payload t sh).2 = sh := by
          unfold tcpEstablished
          dsimp only
          rw [if_neg hfin]
        rw [hshared]
        exact hquiet hconn (fun h => hfin h.2)
  | lastAck => exact hquiet (not_tcpConnects seg hfree (by rw [hst]; decide)) (by rw [hst]; simp)

/-- The outcome depends on the state of the slot only. -/
theorem tcpSlotReception_congr {t t₁ : TcpState} {cid : Nat} (seg : TcpSeg)
    (h : (t₁.conn cid).state = (t.conn cid).state) :
    tcpSlotReception t₁ cid seg = tcpSlotReception t cid seg := by
  have hconn : TcpConnects t₁ cid seg ↔ TcpConnects t cid seg := by
    unfold TcpConnects
    rw [h]
  unfold tcpSlotReception
  simp only [hconn, h]

theorem tcpReceive_writes (un : Uninit) {cid : Nat} (ipRx : IpRx) (seg : TcpSeg)
    (frameBuf : Mem U32) (t : TcpState) (sh : Shared)
    (hfind : tcpFind t seg.sp ipRx.srcIp = some cid) :
    (tcpSlotReception t cid seg).Writes sh (tcpReceive un ipRx seg frameBuf t sh).2 := by
  have hcid : cid < maxTcpConn := (tcpFind_some hfind).1
  by_cases hfree : (t.conn cid).state = .free
  · by_cases hopens : seg.opens = true
    · rw [tcpReceive_opened un frameBuf sh hfind hfree hopens]
      have hlisten := tcpOpened_state cid seg frameBuf (t.conn cid)
      generalize tcpOnSegment (tcpOpen cid seg frameBuf (t.conn cid)) seg = c at hlisten ⊢
      generalize t.setConn cid (tcpOpen cid seg frameBuf (t.conn cid)) = t₁
      have hwrites := tcpSwitch_writes un seg (tcpPayload un frameBuf seg) ipRx
        (t₁.setConn cid c) sh hcid (by rw [setConn_same, hlisten]; decide)
      -- the SYN that opens the slot is the one the listening slot takes
      have hsame : tcpSlotReception (t₁.setConn cid c) cid seg = tcpSlotReception t cid seg := by
        have hlistens : TcpConnects (t₁.setConn cid c) cid seg :=
          .inr ⟨by rw [setConn_same, hlisten], TcpSeg.opens_syn hopens⟩
        unfold tcpSlotReception
        rw [if_pos hlistens, if_pos (.inl ⟨hfree, hopens⟩)]
      rw [hsame] at hwrites
      exact hwrites
    · rw [tcpReceive_closed un frameBuf sh hfind hfree hopens]
      have hconn : ¬ TcpConnects t cid seg := by
        rintro (⟨_, h⟩ | ⟨h, _⟩)
        · exact hopens h
        · rw [hfree] at h
          cases h
      unfold tcpSlotReception
      rw [if_neg hconn, if_neg (by rw [hfree]; simp)]
      exact ⟨rfl, rfl⟩
  · rw [tcpReceive_live un frameBuf sh hfind hfree]
    have hstate : ((t.setConn cid (tcpOnSegment (t.conn cid) seg)).conn cid).state
        = (t.conn cid).state := by
      rw [setConn_same, tcpOnSegment_state]
    have hwrites := tcpSwitch_writes un seg (tcpPayload un frameBuf seg) ipRx
      (t.setConn cid (tcpOnSegment (t.conn cid) seg)) sh hcid (by rw [hstate]; exact hfree)
    rw [tcpSlotReception_congr seg hstate] at hwrites
    exact hwrites

theorem tcpRx_writes (un : Uninit) (resetN : Bool) (ipRx : IpRx) (frameBuf : Mem U32) (t : TcpState)
    (sh : Shared) :
    (tcpReception resetN ipRx frameBuf t).Writes sh
      (tcpRxProcess un resetN ipRx frameBuf t sh).2 := by
  unfold tcpReception
  by_cases hecho : tcpForEcho resetN ipRx frameBuf = true
  · obtain ⟨htarget, hcall⟩ := tcpRxProcess_forEcho un t sh hecho
    rw [htarget, hcall]
    cases hfind : tcpFind t (tcpParse ipRx frameBuf).sp ipRx.srcIp with
    | none =>
        rw [tcpReceive_none un frameBuf sh hfind]
        exact ⟨rfl, rfl⟩
    | some cid => exact tcpReceive_writes un ipRx _ frameBuf t sh hfind
  · obtain ⟨hnone, hshared, _⟩ := tcpRxProcess_notForEcho un t sh hecho
    rw [hnone, hshared]
    exact ⟨rfl, rfl⟩

/-! ## §3. The pass. -/

theorem receiveUdp_writes (s : UdpEcho) (i : PassIn) (ipRx : IpRx) :
    (udpReception i.resetN ipRx s.frameBuf).Writes s.shared (s.receiveUdp i ipRx).shared := by
  unfold udpReception
  rcases receiveUdp_eq s i ipRx with h | ⟨hvalid, h⟩
  · rw [h]
    split
    · exact ⟨Mem.ChangesOnly.refl _ _ _, rfl⟩
    · exact ⟨rfl, rfl⟩
  · rw [if_pos hvalid, h]
    generalize udpRxProcess i.resetN ipRx s.frameBuf = udpRx
    unfold UdpEcho.captureUdp Reception.Writes
    dsimp only
    exact ⟨Mem.fill_changesOnly _ _ _ _, rfl⟩

theorem receiveIp_writes (s : UdpEcho) (i : PassIn) (ipRx : IpRx) :
    (ipReception s i ipRx).Writes s.shared (s.receiveIp i ipRx).shared := by
  unfold ipReception UdpEcho.receiveIp
  split_ifs
  · exact ⟨rfl, rfl⟩
  · exact icmpRx_writes _ _ _ _
  · exact igmpRx_writes _ _ _ _
  · exact tcpRx_writes _ _ _ _ _ _
  · exact receiveUdp_writes s i ipRx
  · exact ⟨rfl, rfl⟩

/-- **What reception writes** in a pass, whatever MAC TX is doing. -/
theorem receive_writes (s : UdpEcho) (i : PassIn) :
    (s.reception i).Writes (s.afterMacTx i).shared (s.afterReceive i).shared := by
  unfold UdpEcho.reception
  cases hvalid : (s.frameIn i).valid with
  | true =>
      rw [afterReceive_frame hvalid]
      show (dispatchReception (s.staged i) i (s.frameIn i)).Writes (s.staged i).shared _
      unfold dispatchReception UdpEcho.dispatch
      split_ifs
      · exact arpRx_writes _ _ _ _
      · exact receiveIp_writes _ i _
      · exact ⟨rfl, rfl⟩
  | false =>
      rw [afterReceive_quiet hvalid]
      exact ⟨rfl, rfl⟩

end GigabitTcp
