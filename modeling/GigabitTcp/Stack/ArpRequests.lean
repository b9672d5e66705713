/-
  GigabitTcp.Stack.ArpRequests — active ARP resolution, and the question that is never asked.

  `udp_tx_process` asks for an unresolved destination of the periodic frame: `arp_send_request`
  writes the question to the scratch region and fills the mailbox.  The same call goes on to
  build the UDP frame and fills the mailbox again.  So no question ever leaves a pass, while
  `arp_pending` stays set and stops every further attempt.

  Main results:
    * `OnlyReplies.pass`  — an ARP frame that waits in the mailbox is a reply,
    * `arp_request_iff`   — the runs in which active resolution keeps its word are those that
      never come to ask.
-/
import GigabitTcp.Stack.Senders
import GigabitTcp.Stack.UdpRequests

namespace GigabitTcp

open Hw Machine

/-! ## §1. The ARP frames that wait. -/

/-- A request for an ARP question about `ip` waits in the mailbox. -/
structure ArpRequestWaits (sh : Shared) (ip : U32) : Prop where
  request : sh.txReq.request = true
  ethertype : sh.txReq.ethertype = ethertypeArp
  opcode : (arpFields sh.packet).opcode = arpRequest
  targetIp : (arpFields sh.packet).targetIp = ip

/-- The second word of an ARP reply: address lengths, and the opcode. -/
def arpReplyWord : U32 := 0x06040002

/-- An ARP frame that waits in the mailbox is a reply, at the start of the scratch region. -/
def OnlyReplies (sh : Shared) : Prop :=
  sh.txReq.request = true → sh.txReq.ethertype = ethertypeArp →
    sh.txReq.bufAddr = BitVec.ofNat 10 txScratchBase ∧ sh.buffer (txScratchBase + 1) = arpReplyWord

/-- So no question waits. -/
theorem OnlyReplies.no_question {sh : Shared} (h : OnlyReplies sh) (ip : U32) : ¬ ArpRequestWaits sh ip := by
  intro hwaits
  obtain ⟨haddr, hword⟩ := h hwaits.request hwaits.ethertype
  have hpacket : sh.packet 1 = arpReplyWord := by
    unfold Shared.packet
    rw [haddr]
    exact hword
  have hopcode : (arpFields sh.packet).opcode
      = be16 (wordByte (sh.packet 1) 2) (wordByte (sh.packet 1) 3) := rfl
  have hreply : (arpFields sh.packet).opcode = 2 := by
    rw [hopcode, hpacket]
    rfl
  rw [hwaits.opcode] at hreply
  exact absurd hreply (by decide)

/-- A request that is kept, with the opcode in place. -/
theorem OnlyReplies.keep {sh sh' : Shared} (h : OnlyReplies sh)
    (hreq : sh'.txReq.request = true → sh'.txReq = sh.txReq)
    (hword : sh'.buffer (txScratchBase + 1) = sh.buffer (txScratchBase + 1)) : OnlyReplies sh' := by
  intro hpending htype
  have hsame := hreq hpending
  rw [hsame] at hpending htype ⊢
  rw [hword]
  exact h hpending htype

theorem OnlyReplies.of_ethertype {sh : Shared} (h : sh.txReq.ethertype = ethertypeIpv4) : OnlyReplies sh := by
  intro _ htype
  rw [h] at htype
  exact absurd htype (by decide)

/-! ## §2. One pass. -/

theorem arpReply_onlyReplies (sh : Shared) (frameBuf : Mem U32) : OnlyReplies (arpReply sh frameBuf) := by
  intro _ _
  refine ⟨rfl, ?_⟩
  -- the second of the seven words
  unfold arpReply writeArpPacket Shared.issue
  dsimp only
  rw [Mem.fill_at _ _ (by decide)]
  show packWord 6 4 0 2 = arpReplyWord
  decide

theorem arpRx_onlyReplies {sh : Shared} (h : OnlyReplies sh) (resetN : Bool) (macRx : MacRx)
    (frameBuf : Mem U32) : OnlyReplies (arpRxProcess resetN macRx frameBuf sh) := by
  unfold arpRxProcess
  split
  · exact h
  · split
    · exact h
    · dsimp only
      split
      · exact arpReply_onlyReplies _ frameBuf
      · exact h

/-- An answer to a packet is an IPv4 frame. -/
theorem receiveIp_ethertype {s : UdpEcho} {i : PassIn} {ipRx : IpRx} {lo hi : Nat}
    (h : ipReception s i ipRx = .answers lo hi) :
    (s.receiveIp i ipRx).shared.txReq.ethertype = ethertypeIpv4 := by
  have htcp : tcpReception i.resetN ipRx s.frameBuf s.tcp = .answers lo hi →
      (tcpRxProcess i.uninit i.resetN ipRx s.frameBuf s.tcp s.shared).2.txReq.ethertype = ethertypeIpv4 := by
    intro hanswers
    obtain ⟨cid, flags, t', hcid, hsend⟩ := tcpRx_answers i.uninit s.tcp s.shared hanswers
    rw [hsend]
    exact (tcpSend_senderFrame i.uninit flags none 0 t' s.shared hcid).ethertype
  unfold ipReception icmpReception igmpReception udpReception at h
  unfold UdpEcho.receiveIp icmpRxProcess igmpRxProcess
  split_ifs at h ⊢
  · rfl
  · rfl
  · exact htcp h

/-- The frame that completes in this pass. -/
theorem receive_onlyReplies {s : UdpEcho} {i : PassIn} (h : OnlyReplies (s.afterMacTx i).shared) :
    OnlyReplies (s.afterReceive i).shared := by
  have hwrites := receive_writes s i
  cases hrec : s.reception i with
  | quiet =>
      rw [hrec] at hwrites
      exact h.keep (fun _ => hwrites.2) (congrFun hwrites.1 _)
  | captures lo hi =>
      rw [hrec] at hwrites
      have hcaptured := reception_captures hrec
      refine h.keep (fun _ => hwrites.2) ?_
      -- the payload goes behind the place of the headers, in the transmit region
      rw [afterReceive_captures_buffer hcaptured]
      exact Mem.fill_outside _ _ fun hin => absurd hin.1 (by decide)
  | answers lo hi =>
      unfold UdpEcho.reception at hrec
      split at hrec
      · rename_i hvalid
        rw [afterReceive_frame hvalid]
        unfold dispatchReception at hrec
        unfold UdpEcho.dispatch
        split_ifs at hrec ⊢
        · exact arpRx_onlyReplies h i.resetN _ _
        · exact .of_ethertype (receiveIp_ethertype hrec)
      · cases hrec

/-- Reset drops a request, and MAC TX keeps it or takes it away. -/
theorem afterMacTx_onlyReplies {s : UdpEcho} (i : PassIn) (h : OnlyReplies s.shared) :
    OnlyReplies (s.afterMacTx i).shared := by
  cases hreset : i.resetN with
  | false =>
      intro hpending
      exfalso
      have hdropped : (s.afterMacTx i).shared.txReq.request = false := by
        unfold UdpEcho.afterMacTx UdpEcho.runMacTx macTxProcess
        rw [hreset]
        rfl
      rw [hdropped] at hpending
      cases hpending
  | true =>
      have hbuffer : s.txBuffer i (txScratchBase + 1) = s.shared.buffer (txScratchBase + 1) := by
        rw [txBuffer_eq]
        split
        · exact Mem.fill_outside _ _ fun hin => absurd hin.1 (by decide)
        · rfl
      rw [(afterMacTx_cycle s i hreset).2.1]
      refine OnlyReplies.keep h ?_ hbuffer
      intro hpending
      by_cases hidle : s.macTx.state = .idle
      · unfold macTxCycle macTxProcess macTxIdle at hpending ⊢
        rw [hidle] at hpending ⊢
        by_cases hreq : s.shared.txReq.request = true
        · -- latched, and taken out of the mailbox
          simp [hreq] at hpending
        · simp [hreq]
      · exact (macTxCycle_sending hidle _).1

/-- **One pass** leaves no question in the mailbox. -/
theorem OnlyReplies.pass (pacing : U32) {s : UdpEcho} (i : PassIn) (h : OnlyReplies s.shared) :
    OnlyReplies (udpEcho pacing s i).1.shared := by
  have hreceive := receive_onlyReplies (afterMacTx_onlyReplies i h)
  rw [udpEcho_shared]
  rcases senders_frame pacing s i with hsame | hsent
  · rw [hsame]
    exact hreceive
  · exact .of_ethertype hsent.ethertype

/-- Nor does a run from power-up. -/
theorem run_onlyReplies (pacing : U32) (is : List PassIn) :
    OnlyReplies ((udpEchoMachine pacing).after {} is).shared := by
  have hpowerUp : OnlyReplies ({} : UdpEcho).shared := fun hno => absurd hno (by decide)
  exact invariant_after (P := fun s : UdpEcho => OnlyReplies s.shared)
    (fun s i h => OnlyReplies.pass pacing i h) hpowerUp is

/-! ## §3. The pass that asks. -/

/-- `udp_tx_process` comes to `arp_send_request`: it is called without a captured datagram when the
pacing count is reached, 192.168.100.1 is in neither level of the cache, and no answer is awaited. -/
structure UdpEcho.AsksArp (s : UdpEcho) (pacing : U32) (i : PassIn) : Prop where
  resetN : i.resetN = true
  called : s.callsUdpTx i = true
  periodic : (s.afterReceive i).request.dataReceived = false
  due : pacing ≤ s.udpTx.timeCnt + 1
  unresolved : (arpLookup (s.afterReceive i).shared.arp helloIp).1 = none
  unasked : s.udpTx.arpPending = false

/-- The arbitration does not touch `arp_pending`. -/
theorem udpTxArbitrate_arpPending (pacing : U32) (u : UdpTx) (rq : UdpRequest) :
    (udpTxArbitrate pacing u rq).2.arpPending = u.arpPending := by
  unfold udpTxArbitrate
  dsimp only
  split_ifs <;> rfl

/-- Without a captured datagram, the pacing count decides. -/
theorem udpTxArbitrate_periodic (pacing : U32) (u : UdpTx) {rq : UdpRequest} (h : rq.dataReceived = false) :
    (udpTxArbitrate pacing u rq).1 = true ↔ pacing ≤ u.timeCnt + 1 := by
  unfold udpTxArbitrate
  rw [h]
  simp only [Bool.false_eq_true, if_false]
  split <;> simp_all

theorem udpTxResolve_arpPending {u : UdpTx} (h : u.arpPending = false) (echoSent : Bool) (dstIp : U32)
    (sh : Shared) : (udpTxResolve u echoSent dstIp sh).2.1.arpPending = true
      ↔ echoSent = false ∧ (arpLookup sh.arp dstIp).1 = none := by
  unfold udpTxResolve
  generalize arpLookup sh.arp dstIp = r
  obtain ⟨mac, arp⟩ := r
  cases mac with
  | some mac => simp
  | none => cases echoSent <;> simp [h]

/-- Where no answer is awaited, `arp_pending` is set by the periodic frame to an unresolved
destination. -/
theorem udpTx_arpPending (pacing : U32) (resetN : Bool) (rq : UdpRequest) {u : UdpTx} (sh : Shared)
    (h : u.arpPending = false) : (udpTxProcess pacing resetN rq u sh).1.arpPending = true
      ↔ resetN = true ∧ rq.dataReceived = false ∧ pacing ≤ u.timeCnt + 1
        ∧ (arpLookup sh.arp helloIp).1 = none := by
  have hkept : (udpTxArbitrate pacing u rq).2.arpPending = false := by
    rw [udpTxArbitrate_arpPending, h]
  cases resetN with
  | false => simp [udpTxProcess]
  | true =>
      unfold udpTxProcess
      rw [if_neg (by decide)]
      dsimp only
      cases hdata : rq.dataReceived with
      | true =>
          -- an echo is never asked for
          have hresolve := udpTxResolve_arpPending hkept true rq.rxSrcIp sh
          rw [udpTxArbitrate_echo pacing u hdata]
          simpa using hresolve
      | false =>
          have hdue := udpTxArbitrate_periodic pacing u hdata
          have hresolve := udpTxResolve_arpPending hkept false helloIp sh
          cases hsend : (udpTxArbitrate pacing u rq).1 with
          | false =>
              have hearly : ¬ pacing ≤ u.timeCnt + 1 := fun hreached => by
                rw [hdue.mpr hreached] at hsend
                cases hsend
              constructor
              · intro hset
                rw [show (udpTxArbitrate pacing u rq).2.arpPending = true from hset] at hkept
                cases hkept
              · rintro ⟨-, -, hreached, -⟩
                exact absurd hreached hearly
          | true =>
              have hreached := hdue.mp hsend
              constructor
              · intro hset
                exact ⟨rfl, rfl, hreached, (hresolve.mp hset).2⟩
              · rintro ⟨-, -, -, hmiss⟩
                exact hresolve.mpr ⟨rfl, hmiss⟩

/-- The statics of `udp_tx_process` before its stage of the pass. -/
theorem afterDhcp_udpTx (s : UdpEcho) (i : PassIn) : (s.afterDhcp i).udpTx = s.udpTx := by
  obtain ⟨_, _, hdhcp⟩ := afterDhcp_eq s i
  obtain ⟨_, _, _, _, _, hreceive⟩ := afterReceive_eq s i
  rw [hdhcp, hreceive]
  show (s.resetOrInit i.resetN).udpTx = s.udpTx
  cases hreset : i.resetN with
  | false => rfl
  | true =>
      obtain ⟨_, _, _, hinit⟩ := resetOrInit_eq s true rfl
      rw [hinit]

/-- The open gate of UDP TX: DHCP TX has not sent. -/
theorem callsUdpTx_shared {s : UdpEcho} {i : PassIn} (h : s.callsUdpTx i = true) :
    (s.afterDhcp i).shared = (s.afterReceive i).shared := by
  unfold UdpEcho.callsUdpTx at h
  rw [Bool.and_eq_true] at h
  refine (afterDhcp_frame s i).resolve_right fun hsent => ?_
  rw [hsent.request] at h
  exact absurd h.1 (by decide)

/-- **One pass**: `arp_pending` is set in the passes that come to ask. -/
theorem arpPending_iff (pacing : U32) {s : UdpEcho} (i : PassIn) (h : s.udpTx.arpPending = false) :
    (udpEcho pacing s i).1.udpTx.arpPending = true ↔ s.AsksArp pacing i := by
  obtain ⟨_, _, _, hstats⟩ := udpEcho_eq pacing s i
  obtain ⟨_, _, htcp⟩ := afterTcp_eq pacing s i
  obtain ⟨_, _, hdhcp⟩ := afterDhcp_eq s i
  have hlast : (udpEcho pacing s i).1.udpTx = (s.afterUdp pacing i).udpTx := by rw [hstats, htcp]
  rw [hlast]
  cases hcalled : s.callsUdpTx i with
  | true =>
      have hrq : (s.afterDhcp i).request = (s.afterReceive i).request := by rw [hdhcp]
      have hbuilt : (s.afterUdp pacing i).udpTx = (udpTxProcess pacing i.resetN
          (s.afterReceive i).request s.udpTx (s.afterReceive i).shared).1 := by
        rw [← callsUdpTx_shared hcalled, ← hrq, ← afterDhcp_udpTx s i]
        unfold UdpEcho.afterUdp UdpEcho.runUdpTx
        exact congrArg UdpEcho.udpTx (if_pos hcalled)
      rw [hbuilt, udpTx_arpPending pacing i.resetN _ _ h]
      constructor
      · rintro ⟨hreset, hperiodic, hdue, hmiss⟩
        exact ⟨hreset, hcalled, hperiodic, hdue, hmiss, h⟩
      · intro hasks
        exact ⟨hasks.resetN, hasks.periodic, hasks.due, hasks.unresolved⟩
  | false =>
      rw [(after_closed pacing s i hcalled).1, afterDhcp_udpTx, h]
      constructor
      · intro hno
        cases hno
      · intro hasks
        rw [hasks.called] at hcalled
        cases hcalled

/-! ## §4. The run. -/

/-- MAC TX latches a waiting request in this pass. -/
structure UdpEcho.Latches (s : UdpEcho) (i : PassIn) : Prop where
  resetN : i.resetN = true
  idle : s.macTx.state = .idle
  request : s.shared.txReq.request = true

/-- **Active resolution keeps its word** in the run from power-up over `is`. -/
structure AsksAsPromised (pacing : U32) (is : List PassIn) : Prop where
  /-- Behind a pass that sets `arp_pending`, the next frame that MAC TX latches is the question. -/
  next : ∀ js i ms j ks, is = js ++ i :: (ms ++ j :: ks) →
    let before := (udpEchoMachine pacing).after {} js
    let asked := (udpEchoMachine pacing).after {} (js ++ [i])
    let latching := (udpEchoMachine pacing).after asked ms
    before.udpTx.arpPending = false → asked.udpTx.arpPending = true →
      Along (udpEchoMachine pacing) (fun s i => ¬ s.Latches i) asked ms → latching.Latches j →
        ArpRequestWaits latching.shared asked.udpTx.pendingIp
  /-- While `arp_pending` is set, the question waits, or it has been latched. -/
  pending : ∀ js ks, is = js ++ ks →
    let s := (udpEchoMachine pacing).after {} js
    s.udpTx.arpPending = true → ArpRequestWaits s.shared s.udpTx.pendingIp
      ∨ ∃ ls i ms, js = ls ++ i :: ms ∧ ((udpEchoMachine pacing).after {} ls).Latches i
        ∧ ArpRequestWaits ((udpEchoMachine pacing).after {} ls).shared s.udpTx.pendingIp

/-- No question has ever waited. -/
theorem no_question_run (pacing : U32) (is : List PassIn) (ip : U32) :
    ¬ ArpRequestWaits ((udpEchoMachine pacing).after {} is).shared ip :=
  (run_onlyReplies pacing is).no_question ip

/-- A run in which `arp_pending` comes to be set breaks the promise. -/
theorem arpPending_breaks {pacing : U32} {is : List PassIn}
    (h : ((udpEchoMachine pacing).after {} is).udpTx.arpPending = true) (ks : List PassIn) :
    ¬ AsksAsPromised pacing (is ++ ks) := by
  intro hlaw
  rcases hlaw.pending is ks rfl h with hwaits | ⟨ls, _, _, _, _, hwaits⟩
  · exact no_question_run pacing is _ hwaits
  · exact no_question_run pacing ls _ hwaits

/-- A run that never comes to ask leaves `arp_pending` clear. -/
theorem unasked_run (pacing : U32) {is : List PassIn}
    (h : Along (udpEchoMachine pacing) (fun s i => ¬ s.AsksArp pacing i) {} is) :
    ((udpEchoMachine pacing).after {} is).udpTx.arpPending = false := by
  refine Along.invariant (P := fun s : UdpEcho => s.udpTx.arpPending = false) ?_ rfl is h
  intro s i hclear hno
  rw [← Bool.not_eq_true]
  exact fun hset => hno ((arpPending_iff pacing i hclear).mp hset)

/-- **Active resolution asks** in no run: the promise is kept exactly by the runs in which
`udp_tx_process` never comes to ask. -/
theorem arp_request_iff (pacing : U32) (is : List PassIn) :
    AsksAsPromised pacing is
      ↔ Along (udpEchoMachine pacing) (fun s i => ¬ s.AsksArp pacing i) {} is := by
  constructor
  · intro hlaw
    rw [Along.iff_at_steps]
    rintro js i ks rfl hasks
    have hset : ((udpEchoMachine pacing).after {} (js ++ [i])).udpTx.arpPending = true := by
      rw [after_append]
      exact (arpPending_iff pacing i hasks.unasked).mpr hasks
    have hbreaks := arpPending_breaks hset ks
    rw [List.append_assoc] at hbreaks
    exact hbreaks hlaw
  · intro hnever
    -- every prefix of the run leaves the flag clear
    have hclear : ∀ js ks, is = js ++ ks →
        ((udpEchoMachine pacing).after {} js).udpTx.arpPending = false := by
      rintro js ks rfl
      exact unasked_run pacing (Along.append.mp hnever).1
    constructor
    · intro js i ms j ks his before asked latching _ hset
      have hno := hclear (js ++ [i]) (ms ++ j :: ks) (by rw [his, List.append_assoc]; rfl)
      rw [hno] at hset
      cases hset
    · intro js ks his s hset
      have hno := hclear js ks his
      rw [hno] at hset
      cases hset

/-- The stack `n` quiet passes after power-up, up to its statistics. -/
def quietStack (n : U32) (stats : Stats) (dhcpReported lastTx : Bool) : UdpEcho :=
  { shared.buffer := writeHello fun _ => 0, initDone := true, udpTx.timeCnt := n, dhcpDelay := n
    stats, dhcpReported, lastTx }

/-- Its next pass, up to UDP TX: the DHCP client waits on, and nobody sends. -/
theorem quietStack_afterDhcp {n : U32} (hn : n < 256) (stats : Stats) (dhcpReported lastTx : Bool) :
    (quietStack n stats dhcpReported lastTx).afterDhcp .quiet
        = { quietStack n stats dhcpReported lastTx with dhcpDelay := n + 1 }
      ∧ (quietStack n stats dhcpReported lastTx).busyIn .quiet = false := by
  have hdelay : ¬ (100000000 : U32) < n + 1 := by bv_omega
  have hinit : (quietStack n stats dhcpReported lastTx).resetOrInit true
      = { quietStack n stats dhcpReported lastTx with dhcpDelay := n + 1 } := by
    unfold UdpEcho.resetOrInit
    exact if_neg hdelay
  unfold UdpEcho.afterDhcp UdpEcho.afterReceive UdpEcho.busyIn UdpEcho.frameIn UdpEcho.afterMacTx
    UdpEcho.afterMacRx
  rw [show PassIn.quiet.resetN = true from rfl, hinit]
  exact ⟨rfl, rfl⟩

/-- Below the pacing count, UDP TX only counts. -/
theorem quietStack_next {n : U32} (hn : n < 255) (stats : Stats) (dhcpReported lastTx : Bool) :
    (quietStack n stats dhcpReported lastTx).afterTcp 256 .quiet
      = quietStack (n + 1) stats dhcpReported lastTx := by
  have hfirst : n < 256 := by bv_omega
  obtain ⟨hdhcp, hbusy⟩ := quietStack_afterDhcp hfirst stats dhcpReported lastTx
  have hpacing : ¬ (256 : U32) ≤ n + 1 := by bv_omega
  have htick : udpTxArbitrate 256 { timeCnt := n } {} = (false, { timeCnt := n + 1 }) := if_neg hpacing
  have hcounts : ∀ sh, udpTxProcess 256 true {} { timeCnt := n } sh = ({ timeCnt := n + 1 }, sh) := by
    intro sh
    unfold udpTxProcess
    rw [htick]
    rfl
  have hudp : (quietStack n stats dhcpReported lastTx).afterUdp 256 .quiet
      = quietStack (n + 1) stats dhcpReported lastTx := by
    unfold UdpEcho.afterUdp
    rw [hdhcp, hbusy]
    exact congrArg (fun r : UdpTx × Shared => { quietStack n stats dhcpReported lastTx with
      udpTx := r.1, shared := r.2, dhcpDelay := n + 1 }) (hcounts { buffer := writeHello fun _ => 0 })
  unfold UdpEcho.afterTcp
  rw [hudp, hbusy]
  rfl

theorem quietStack_run (n : Nat) (hn : n < 255) : ∃ stats dhcpReported lastTx,
    (udpEchoMachine 256).after {} (List.replicate (n + 1) .quiet)
      = quietStack (BitVec.ofNat 32 (n + 1)) stats dhcpReported lastTx := by
  induction n with
  | zero =>
      obtain ⟨_, _, _, hstats⟩ := udpEcho_eq 256 {} .quiet
      exact ⟨_, _, _, hstats⟩
  | succ n ih =>
      obtain ⟨stats, dhcpReported, lastTx, hrun⟩ := ih (by omega)
      obtain ⟨stats', dhcpReported', lastTx', hstats⟩ := udpEcho_eq 256
        (quietStack (BitVec.ofNat 32 (n + 1)) stats dhcpReported lastTx) .quiet
      have hcount : BitVec.ofNat 32 (n + 1) < (255 : U32) := by
        rw [BitVec.lt_def, BitVec.toNat_ofNat, Nat.mod_eq_of_lt (by omega)]
        exact hn
      rw [quietStack_next hcount] at hstats
      refine ⟨stats', dhcpReported', lastTx', ?_⟩
      rw [List.replicate_succ', after_append, hrun, BitVec.ofNat_add (n + 1) 1]
      exact hstats

/-- In the C simulation the 256th quiet pass sets `arp_pending`, and no question goes out. -/
theorem arp_request_lost : ¬ AsksAsPromised 256 (List.replicate 256 PassIn.quiet) := by
  obtain ⟨stats, dhcpReported, lastTx, hrun⟩ := quietStack_run 254 (by decide)
  obtain ⟨hdhcp, hbusy⟩ := quietStack_afterDhcp (show (255 : U32) < 256 by decide) stats
    dhcpReported lastTx
  have hasks : (quietStack 255 stats dhcpReported lastTx).AsksArp 256 .quiet := by
    have hcalled : (quietStack 255 stats dhcpReported lastTx).callsUdpTx .quiet = true := by
      unfold UdpEcho.callsUdpTx
      rw [hdhcp, hbusy]
      rfl
    exact ⟨rfl, hcalled, rfl, (show (256 : U32) ≤ 255 + 1 by decide), rfl, rfl⟩
  have hset : ((udpEchoMachine 256).after {} (List.replicate 256 PassIn.quiet)).udpTx.arpPending = true := by
    rw [List.replicate_succ', after_append, hrun]
    exact (arpPending_iff 256 .quiet rfl).mpr hasks
  have hbreaks := arpPending_breaks hset []
  rwa [List.append_nil] at hbreaks

end GigabitTcp
