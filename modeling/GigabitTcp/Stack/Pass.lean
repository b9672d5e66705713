/-
  GigabitTcp.Stack.Pass — the states inside one pass, and what each stage leaves alone.

  A pass is a chain of stages; the states between them get names, so that a property of a
  pass is a property of a few stages and a frame lemma for each of the others:

      s ─ resetOrInit ─ MAC RX ─ MAC TX ─ receive ─ DHCP TX ─ UDP TX ─ TCP ─ statistics
                         │         │         │         │         │       │
                      frameIn  afterMacTx afterReceive afterDhcp afterUdp afterTcp
-/
import GigabitTcp.UdpEcho

namespace GigabitTcp

open Hw

/-! ## §1. The states between the stages. -/

namespace UdpEcho

/-- The frame metadata MAC RX hands out in this pass. -/
def frameIn (s : UdpEcho) (i : PassIn) : MacRx := ((s.resetOrInit i.resetN).runMacRx i).2

def afterMacRx (s : UdpEcho) (i : PassIn) : UdpEcho := ((s.resetOrInit i.resetN).runMacRx i).1

def afterMacTx (s : UdpEcho) (i : PassIn) : UdpEcho := ((s.afterMacRx i).runMacTx i.resetN).1

/-- `mac_tx_busy` of this pass. -/
def busyIn (s : UdpEcho) (i : PassIn) : Bool := ((s.afterMacRx i).runMacTx i.resetN).2.2

/-- The byte MAC TX sends in this pass. -/
def txByteIn (s : UdpEcho) (i : PassIn) : Option GmiiByte :=
  ((s.afterMacRx i).runMacTx i.resetN).2.1

/-- The staged frame, if one completes in this pass. -/
def staged (s : UdpEcho) (i : PassIn) : UdpEcho :=
  (s.afterMacTx i).stage (s.frameIn i).nwords.toNat

/-- What `ip_rx_process` makes of the frame of this pass. -/
def packetIn (s : UdpEcho) (i : PassIn) : IpRx :=
  ipRxProcess i.resetN (s.frameIn i) (s.staged i).frameBuf

/-- What `udp_rx_process` makes of it. -/
def datagramIn (s : UdpEcho) (i : PassIn) : UdpRx :=
  udpRxProcess i.resetN (s.packetIn i) (s.staged i).frameBuf

/-- The frame of this pass is captured as a UDP request. -/
def capturesIn (s : UdpEcho) (i : PassIn) : Bool := (s.frameIn i).valid && (s.datagramIn i).valid

def afterReceive (s : UdpEcho) (i : PassIn) : UdpEcho := (s.afterMacTx i).receive i (s.frameIn i)

def afterDhcp (s : UdpEcho) (i : PassIn) : UdpEcho := (s.afterReceive i).runDhcpTx i.resetN

def afterUdp (s : UdpEcho) (pacing : U32) (i : PassIn) : UdpEcho :=
  (s.afterDhcp i).runUdpTx pacing i.resetN (s.busyIn i)

def afterTcp (s : UdpEcho) (pacing : U32) (i : PassIn) : UdpEcho :=
  (s.afterUdp pacing i).runTcpMaintenance i.uninit (s.busyIn i)

end UdpEcho

variable (pacing : U32) (s : UdpEcho) (i : PassIn)

theorem udpEcho_state :
    (udpEcho pacing s i).1 = ((s.afterTcp pacing i).runStats i (s.frameIn i)).1 := by
  unfold udpEcho
  rfl

theorem udpEcho_tx : (udpEcho pacing s i).2.tx = s.txByteIn i := by
  unfold udpEcho
  rfl

/-! ## §2. The statistics touch nothing else. -/

theorem runStats_eq (rx : MacRx) : ∃ st rep last, (s.runStats i rx).1
    = { s with stats := st, dhcpReported := rep, lastTx := last } := by
  unfold UdpEcho.runStats
  exact ⟨_, _, _, rfl⟩

theorem udpEcho_eq : ∃ st rep last, (udpEcho pacing s i).1
    = { s.afterTcp pacing i with stats := st, dhcpReported := rep, lastTx := last } := by
  rw [udpEcho_state]
  exact runStats_eq _ i _

theorem udpEcho_shared : (udpEcho pacing s i).1.shared = (s.afterTcp pacing i).shared := by
  obtain ⟨_, _, _, h⟩ := udpEcho_eq pacing s i
  rw [h]

theorem udpEcho_macTx : (udpEcho pacing s i).1.macTx = (s.afterTcp pacing i).macTx := by
  obtain ⟨_, _, _, h⟩ := udpEcho_eq pacing s i
  rw [h]

theorem udpEcho_dhcp : (udpEcho pacing s i).1.dhcp = (s.afterTcp pacing i).dhcp := by
  obtain ⟨_, _, _, h⟩ := udpEcho_eq pacing s i
  rw [h]

/-! ## §3. The senders touch the shared part and their own statics. -/

/-- DHCP TX changes the shared part and the client. -/
theorem afterDhcp_eq : ∃ sh d, s.afterDhcp i = { s.afterReceive i with shared := sh, dhcp := d } := by
  unfold UdpEcho.afterDhcp UdpEcho.runDhcpTx
  split
  · exact ⟨_, _, rfl⟩
  · exact ⟨_, _, rfl⟩

/-- UDP TX changes the shared part, its statics and the captured request. -/
theorem afterUdp_eq : ∃ sh u rq,
    s.afterUdp pacing i = { s.afterDhcp i with shared := sh, udpTx := u, request := rq } := by
  unfold UdpEcho.afterUdp UdpEcho.runUdpTx
  split
  · exact ⟨_, _, _, rfl⟩
  · exact ⟨_, _, _, rfl⟩

/-- TCP maintenance changes the shared part and the TCP statics. -/
theorem afterTcp_eq : ∃ sh t,
    s.afterTcp pacing i = { s.afterUdp pacing i with shared := sh, tcp := t } := by
  unfold UdpEcho.afterTcp UdpEcho.runTcpMaintenance
  split
  · exact ⟨_, _, rfl⟩
  · exact ⟨_, _, rfl⟩

/-- **The senders** change the shared part, their own statics and the captured request. -/
theorem senders_eq : ∃ sh d u rq t, s.afterTcp pacing i = { s.afterReceive i with
    shared := sh, dhcp := d, udpTx := u, request := rq, tcp := t } := by
  obtain ⟨sh, t, htcp⟩ := afterTcp_eq pacing s i
  obtain ⟨_, u, rq, hudp⟩ := afterUdp_eq pacing s i
  obtain ⟨_, d, hdhcp⟩ := afterDhcp_eq s i
  exact ⟨sh, d, u, rq, t, by rw [htcp, hudp, hdhcp]⟩

/-- What a pass changes behind reception. -/
theorem udpEcho_behind_receive : ∃ sh d u rq t st rep last, (udpEcho pacing s i).1
    = { s.afterReceive i with
        shared := sh, dhcp := d, udpTx := u, request := rq, tcp := t
        stats := st, dhcpReported := rep, lastTx := last } := by
  obtain ⟨st, rep, last, hstats⟩ := udpEcho_eq pacing s i
  obtain ⟨sh, d, u, rq, t, hsenders⟩ := senders_eq pacing s i
  exact ⟨sh, d, u, rq, t, st, rep, last, by rw [hstats, hsenders]⟩

/-- **The closed gate**: neither UDP TX nor TCP maintenance runs. -/
theorem after_closed (h : (!(s.afterDhcp i).shared.txReq.request && !s.busyIn i) = false) :
    s.afterUdp pacing i = s.afterDhcp i ∧ s.afterTcp pacing i = s.afterDhcp i := by
  have hudp : s.afterUdp pacing i = s.afterDhcp i := by
    unfold UdpEcho.afterUdp UdpEcho.runUdpTx
    rw [h]
    rfl
  refine ⟨hudp, ?_⟩
  unfold UdpEcho.afterTcp UdpEcho.runTcpMaintenance
  rw [hudp, h]
  rfl

/-! ## §4. Reception. -/

/-- A frame completes out of reset only. -/
theorem resetN_of_frameIn {s : UdpEcho} {i : PassIn} (h : (s.frameIn i).valid = true) :
    i.resetN = true := by
  by_contra hreset
  have hno : (s.frameIn i).valid = false := by
    unfold UdpEcho.frameIn UdpEcho.runMacRx
    rw [Bool.not_eq_true] at hreset
    rw [hreset]
    rfl
  rw [hno] at h
  exact absurd h (by decide)

/-- A pass that reads no byte completes no frame. -/
theorem frameIn_of_rx_none (s : UdpEcho) {i : PassIn} (h : i.rx = none) :
    (s.frameIn i).valid = false := by
  unfold UdpEcho.frameIn UdpEcho.runMacRx
  rw [h]
  cases i.resetN <;> rfl

/-- A valid packet came in an IPv4 frame, out of reset. -/
theorem ipRxProcess_valid {resetN : Bool} {rx : MacRx} {frameBuf : Mem U32}
    (h : (ipRxProcess resetN rx frameBuf).valid = true) :
    resetN = true ∧ rx.ethertype = ethertypeIpv4 := by
  unfold ipRxProcess at h
  split_ifs at h with hreset hrx htype hversion hlength
  exact ⟨by simpa using hreset, not_not.mp htype⟩

/-- A UDP datagram that `udp_rx_process` accepts is never one for the DHCP port. -/
theorem udpRxProcess_valid {resetN : Bool} {ipRx : IpRx} {frameBuf : Mem U32}
    (h : (udpRxProcess resetN ipRx frameBuf).valid = true) :
    (udpRxProcess resetN ipRx frameBuf).dstPort = udpPort := by
  unfold udpRxProcess at h ⊢
  dsimp only at h ⊢
  split_ifs at h ⊢ with hreset hip hproto hport
  · simp [udpFields] at h
  · exact not_not.mp hport

/-- So the UDP branch of the dispatch either captures the datagram or does nothing. -/
theorem receiveUdp_eq (ipRx : IpRx) :
    s.receiveUdp i ipRx = s ∨
      ((udpRxProcess i.resetN ipRx s.frameBuf).valid = true
        ∧ s.receiveUdp i ipRx = s.captureUdp ipRx (udpRxProcess i.resetN ipRx s.frameBuf)) := by
  unfold UdpEcho.receiveUdp
  by_cases hv : (udpRxProcess i.resetN ipRx s.frameBuf).valid = true
  · right
    have hport : (udpRxProcess i.resetN ipRx s.frameBuf).dstPort ≠ dhcpClientPort := by
      rw [udpRxProcess_valid hv]
      decide
    exact ⟨hv, by rw [if_pos hv, if_neg hport]⟩
  · left
    rw [if_neg hv]

/-- Reception changes the staging, the shared part, TCP and the captured request; nothing
that a frame carries reaches the DHCP client. -/
theorem dispatch_eq (rx : MacRx) : ∃ sh t rq,
    s.dispatch i rx = { s with shared := sh, tcp := t, request := rq } := by
  unfold UdpEcho.dispatch UdpEcho.receiveIp
  split_ifs
  · exact ⟨_, _, _, rfl⟩
  · exact ⟨_, _, _, rfl⟩
  · exact ⟨_, _, _, rfl⟩
  · exact ⟨_, _, _, rfl⟩
  · exact ⟨_, _, _, rfl⟩
  · rcases receiveUdp_eq s i (ipRxProcess i.resetN rx s.frameBuf) with h | ⟨_, h⟩
    · rw [h]
      exact ⟨_, _, _, rfl⟩
    · rw [h]
      exact ⟨_, _, _, rfl⟩
  · exact ⟨_, _, _, rfl⟩
  · exact ⟨_, _, _, rfl⟩

variable {s i} in
/-- A frame that completes is staged and dispatched in the same pass. -/
theorem afterReceive_frame (h : (s.frameIn i).valid = true) :
    s.afterReceive i = (s.staged i).dispatch i (s.frameIn i) :=
  if_pos h

variable {s i} in
/-- Without one, reception does nothing. -/
theorem afterReceive_quiet (h : (s.frameIn i).valid = false) : s.afterReceive i = s.afterMacTx i := by
  unfold UdpEcho.afterReceive UdpEcho.receive
  rw [h]
  rfl

theorem afterReceive_eq : ∃ fb ff sh t rq,
    s.afterReceive i = { s.afterMacTx i with
      frameBuf := fb, frameFifo := ff, shared := sh, tcp := t, request := rq } := by
  cases hvalid : (s.frameIn i).valid with
  | true =>
      obtain ⟨sh, t, rq, h⟩ := dispatch_eq (s.staged i) i (s.frameIn i)
      exact ⟨_, _, sh, t, rq, (afterReceive_frame hvalid).trans h⟩
  | false => exact ⟨_, _, _, _, _, afterReceive_quiet hvalid⟩

/-- A datagram that is accepted came in a valid UDP packet. -/
theorem udpRxProcess_packet {resetN : Bool} {ipRx : IpRx} {frameBuf : Mem U32}
    (h : (udpRxProcess resetN ipRx frameBuf).valid = true) :
    ipRx.valid = true ∧ ipRx.protocol = ipProtoUdp := by
  unfold udpRxProcess at h
  split_ifs at h with hreset hip hproto
  exact ⟨by simpa using hip, not_not.mp hproto⟩

/-- The payload length of an accepted datagram. -/
theorem udpRxProcess_payloadLen {resetN : Bool} {ipRx : IpRx} {frameBuf : Mem U32}
    (h : (udpRxProcess resetN ipRx frameBuf).valid = true) :
    (udpRxProcess resetN ipRx frameBuf).payloadLen
      = (udpRxProcess resetN ipRx frameBuf).length - udpHeaderBytes := by
  unfold udpRxProcess at h ⊢
  dsimp only at h ⊢
  split_ifs at h ⊢
  · cases h
  · rfl

/-- **A datagram for port 8080 is captured**, whatever else is going on. -/
theorem dispatch_captures {rx : MacRx}
    (h : (udpRxProcess i.resetN (ipRxProcess i.resetN rx s.frameBuf) s.frameBuf).valid = true) :
    s.dispatch i rx = s.captureUdp (ipRxProcess i.resetN rx s.frameBuf)
      (udpRxProcess i.resetN (ipRxProcess i.resetN rx s.frameBuf) s.frameBuf) := by
  obtain ⟨hvalid, hproto⟩ := udpRxProcess_packet h
  have htype := (ipRxProcess_valid hvalid).2
  unfold UdpEcho.dispatch
  rw [if_neg (by rw [htype]; decide), if_pos htype]
  generalize ipRxProcess i.resetN rx s.frameBuf = ipRx at h hvalid hproto ⊢
  unfold UdpEcho.receiveIp UdpEcho.receiveUdp
  rw [hvalid, hproto]
  simp only [Bool.not_true, Bool.false_eq_true, if_false, if_true]
  rw [if_neg (by decide), if_neg (by decide), if_neg (by decide), if_pos h,
    if_neg (by rw [udpRxProcess_valid h]; decide)]

/-- Any other frame leaves the captured request alone. -/
theorem dispatch_request {rx : MacRx}
    (h : (udpRxProcess i.resetN (ipRxProcess i.resetN rx s.frameBuf) s.frameBuf).valid = false) :
    (s.dispatch i rx).request = s.request := by
  unfold UdpEcho.dispatch UdpEcho.receiveIp
  split_ifs
  · rfl
  · rfl
  · rfl
  · rfl
  · rfl
  · rcases receiveUdp_eq s i (ipRxProcess i.resetN rx s.frameBuf) with hsame | ⟨hvalid, -⟩
    · rw [hsame]
    · rw [h] at hvalid
      cases hvalid
  · rfl
  · rfl

/-- What a captured datagram leaves in the request. -/
def UdpEcho.requestIn (s : UdpEcho) (i : PassIn) : UdpRequest :=
  { dataReceived := true, rxUdpLen := (s.datagramIn i).length, rxIpLen := (s.packetIn i).totalLen
    rxSrcPort := (s.datagramIn i).srcPort, rxSrcIp := (s.packetIn i).srcIp }

/-- **The captured request** after reception. -/
theorem afterReceive_request : (s.afterReceive i).request
    = if s.capturesIn i then s.requestIn i else (s.afterMacTx i).request := by
  unfold UdpEcho.capturesIn
  cases hvalid : (s.frameIn i).valid with
  | true =>
      rw [afterReceive_frame hvalid, Bool.true_and]
      by_cases hudp : (s.datagramIn i).valid = true
      · rw [if_pos hudp, dispatch_captures (s.staged i) i hudp]
        rfl
      · have hno : (s.datagramIn i).valid = false := by simpa using hudp
        rw [if_neg hudp, dispatch_request (s.staged i) i hno]
        rfl
  | false =>
      rw [afterReceive_quiet hvalid]
      rfl

@[simp] theorem afterReceive_dhcp : (s.afterReceive i).dhcp = (s.afterMacTx i).dhcp := by
  obtain ⟨_, _, _, _, _, h⟩ := afterReceive_eq s i
  rw [h]

@[simp] theorem afterReceive_macTx : (s.afterReceive i).macTx = (s.afterMacTx i).macTx := by
  obtain ⟨_, _, _, _, _, h⟩ := afterReceive_eq s i
  rw [h]

@[simp] theorem afterDhcp_macTx : (s.afterDhcp i).macTx = (s.afterReceive i).macTx := by
  obtain ⟨_, _, h⟩ := afterDhcp_eq s i
  rw [h]

@[simp] theorem afterUdp_macTx : (s.afterUdp pacing i).macTx = (s.afterDhcp i).macTx := by
  obtain ⟨_, _, _, h⟩ := afterUdp_eq pacing s i
  rw [h]

@[simp] theorem afterUdp_dhcp : (s.afterUdp pacing i).dhcp = (s.afterDhcp i).dhcp := by
  obtain ⟨_, _, _, h⟩ := afterUdp_eq pacing s i
  rw [h]

@[simp] theorem afterTcp_macTx : (s.afterTcp pacing i).macTx = (s.afterUdp pacing i).macTx := by
  obtain ⟨_, _, h⟩ := afterTcp_eq pacing s i
  rw [h]

@[simp] theorem afterTcp_dhcp : (s.afterTcp pacing i).dhcp = (s.afterUdp pacing i).dhcp := by
  obtain ⟨_, _, h⟩ := afterTcp_eq pacing s i
  rw [h]

/-! ## §5. The stages before reception, out of reset. -/

/-- Out of reset, initialisation only writes the buffer and starts the DHCP delay. -/
theorem resetOrInit_eq (resetN : Bool) (h : resetN = true) : ∃ m d delay,
    s.resetOrInit resetN = { s with
      shared := { s.shared with buffer := m }, initDone := true, dhcp := d, dhcpDelay := delay } := by
  subst h
  unfold UdpEcho.resetOrInit
  simp only [Bool.not_true, Bool.false_eq_true, if_false]
  cases hinit : s.initDone with
  | true =>
      simp only [Bool.not_true, Bool.false_eq_true, if_false]
      have hs : s = { s with initDone := true } := by rw [← hinit]
      split_ifs
      · exact ⟨_, _, _, by rw [hs]⟩
      · exact ⟨_, _, _, by rw [hs]⟩
      · exact ⟨_, _, _, hs⟩
  | false =>
      simp only [Bool.not_false, if_true]
      split_ifs
      · exact ⟨_, _, _, rfl⟩
      · exact ⟨_, _, _, rfl⟩
      · exact ⟨_, _, _, rfl⟩

/-- A pass out of reset leaves the stack initialised. -/
theorem udpEcho_initDone (h : i.resetN = true) : (udpEcho pacing s i).1.initDone = true := by
  obtain ⟨_, _, _, _, _, _, _, _, hlast⟩ := udpEcho_behind_receive pacing s i
  obtain ⟨_, _, _, _, _, hreceive⟩ := afterReceive_eq s i
  obtain ⟨_, _, _, hinit⟩ := resetOrInit_eq s i.resetN h
  rw [hlast, hreceive]
  unfold UdpEcho.afterMacTx UdpEcho.afterMacRx
  rw [hinit]
  rfl

/-! ## §6. MAC TX in a pass. -/

/-- The buffer as MAC TX sees it in this pass. -/
def UdpEcho.txBuffer (s : UdpEcho) (i : PassIn) : Mem U32 :=
  (s.resetOrInit i.resetN).shared.buffer

/-- The first pass out of reset writes the default payload. -/
theorem txBuffer_eq : s.txBuffer i
    = if i.resetN = true ∧ s.initDone = false then writeHello s.shared.buffer else s.shared.buffer := by
  unfold UdpEcho.txBuffer UdpEcho.resetOrInit
  cases hreset : i.resetN with
  | false => rfl
  | true =>
      cases hinit : s.initDone with
      | true =>
          simp only [Bool.not_true, Bool.false_eq_true, if_false, reduceCtorEq, and_false]
          split_ifs <;> rfl
      | false =>
          simp only [Bool.not_true, Bool.not_false, Bool.false_eq_true, if_false, if_true, and_self]
          split_ifs <;> rfl

/-- Out of reset, MAC TX makes one cycle on the mailbox that the last pass left. -/
theorem afterMacTx_cycle (h : i.resetN = true) :
    let r := macTxCycle s.macTx (s.shared.txReq, s.txBuffer i)
    (s.afterMacTx i).macTx = r.1
      ∧ (s.afterMacTx i).shared = { s.shared with buffer := s.txBuffer i, txReq := r.2.txReq }
      ∧ s.txByteIn i = r.2.byte ∧ s.busyIn i = r.2.busy := by
  obtain ⟨m, d, delay, hinit⟩ := resetOrInit_eq s i.resetN h
  unfold UdpEcho.afterMacTx UdpEcho.txByteIn UdpEcho.busyIn UdpEcho.afterMacRx UdpEcho.runMacTx
    UdpEcho.runMacRx UdpEcho.txBuffer
  rw [hinit, h]
  exact ⟨rfl, rfl, rfl, rfl⟩

/-- MAC TX is as its cycle leaves it. -/
theorem udpEcho_macTx_afterMacTx : (udpEcho pacing s i).1.macTx = (s.afterMacTx i).macTx := by
  rw [udpEcho_macTx, afterTcp_macTx, afterUdp_macTx, afterDhcp_macTx, afterReceive_macTx]

theorem udpEcho_macTx_cycle (h : i.resetN = true) :
    (udpEcho pacing s i).1.macTx = (macTxCycle s.macTx (s.shared.txReq, s.txBuffer i)).1 := by
  rw [udpEcho_macTx_afterMacTx]
  exact (afterMacTx_cycle s i h).1

/-- **The gates**: while MAC TX is busy, UDP TX and TCP maintenance keep still. -/
theorem udpEcho_shared_of_busy (h : s.busyIn i = true) :
    (udpEcho pacing s i).1.shared = (s.afterDhcp i).shared := by
  have hclosed : (!(s.afterDhcp i).shared.txReq.request && !s.busyIn i) = false := by
    rw [h, Bool.not_true, Bool.and_false]
  rw [udpEcho_shared, (after_closed pacing s i hclosed).2]

/-- **The gates**: a request that waits after reception stops the senders, and the pass ends
with the shared part as reception left it. -/
theorem udpEcho_shared_of_pending (h : (s.afterReceive i).shared.txReq.request = true) :
    (udpEcho pacing s i).1.shared = (s.afterReceive i).shared := by
  have hdhcp : s.afterDhcp i = s.afterReceive i := by
    unfold UdpEcho.afterDhcp UdpEcho.runDhcpTx
    rw [h]
    rfl
  have hclosed : (!(s.afterDhcp i).shared.txReq.request && !s.busyIn i) = false := by
    rw [hdhcp, h]
    rfl
  rw [udpEcho_shared, (after_closed pacing s i hclosed).2, hdhcp]

/-! ## §7. The UDP builder. -/

/-- An echo is always sent. -/
theorem udpTxArbitrate_echo (pacing : U32) (u : UdpTx) {rq : UdpRequest} (h : rq.dataReceived = true) :
    (udpTxArbitrate pacing u rq).1 = true := by
  unfold udpTxArbitrate
  rw [if_pos h]
  dsimp only
  split
  · rfl
  · exact h

/-- An echo takes its lengths from the captured request, the periodic frame has the default ones. -/
theorem udpTxArbitrate_lengths {pacing : U32} {u : UdpTx} {rq : UdpRequest}
    (h : (udpTxArbitrate pacing u rq).1 = true) :
    (udpTxArbitrate pacing u rq).2.txDataLen = (if rq.dataReceived then rq.rxUdpLen else defaultUdpLength)
      ∧ (udpTxArbitrate pacing u rq).2.txTotal
        = if rq.dataReceived then rq.rxIpLen else defaultIpTotalLen := by
  unfold udpTxArbitrate at h ⊢
  cases hd : rq.dataReceived with
  | true =>
      simp only [if_true]
      split <;> exact ⟨rfl, rfl⟩
  | false =>
      simp only [hd, Bool.false_eq_true, if_false] at h ⊢
      split at h
      · rename_i htick
        rw [if_pos htick]
        exact ⟨rfl, rfl⟩
      · cases h

/-- The resolution of the destination keeps the lengths. -/
theorem udpTxResolve_lengths (u : UdpTx) (echoSent : Bool) (dstIp : U32) (sh : Shared) :
    (udpTxResolve u echoSent dstIp sh).2.1.txDataLen = u.txDataLen
      ∧ (udpTxResolve u echoSent dstIp sh).2.1.txTotal = u.txTotal := by
  unfold udpTxResolve
  split
  · exact ⟨rfl, rfl⟩
  · dsimp only
    split_ifs <;> exact ⟨rfl, rfl⟩

end GigabitTcp
