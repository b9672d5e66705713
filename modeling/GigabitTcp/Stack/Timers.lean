/-
  GigabitTcp.Stack.Timers — the calls a pass makes into the TCP layer, and the timers that
  none of them runs.

  The retransmission scan of `tcp_rx_process` stands behind its test for packets that are
  *not* TCP, and `udp_echo` calls the function for TCP packets only.  So the scan is never
  reached, no timer moves, and nothing is ever marked for retransmission.

  Main results:
    * `udpEcho_tcp_run`     — the TCP statics of a run of the stack are those of a run of the
      TCP machine over the calls of the passes,
    * `tcp_timers_run_iff`  — in a pass without a TCP segment the timers run exactly if there
      is none to run.
-/
import GigabitTcp.Stack.Arrival
import GigabitTcp.Tcp.Streams

namespace GigabitTcp

open Hw Machine

/-! ## §1. The TCP calls of a pass. -/

/-- The pass completes a frame with a valid TCP packet. -/
def UdpEcho.tcpSegmentIn (s : UdpEcho) (i : PassIn) : Bool :=
  (s.frameIn i).valid && (s.packetIn i).valid && (s.packetIn i).protocol == ipProtoTcp

/-- The calls a pass makes into the TCP layer: one for a received TCP packet, and
`tcp_maintenance` if its gate is open. -/
def UdpEcho.tcpCalls (s : UdpEcho) (pacing : U32) (i : PassIn) : List TcpEvent :=
  (if s.tcpSegmentIn i then
    [.segment i.uninit i.resetN (s.packetIn i) (s.staged i).frameBuf (s.staged i).shared] else [])
  ++ (if !(s.afterUdp pacing i).shared.txReq.request && !s.busyIn i then
    [.maintenance i.uninit (s.afterUdp pacing i).shared] else [])

/-- The dispatch calls `tcp_rx_process` for a TCP packet, and for nothing else. -/
theorem dispatch_tcp (s : UdpEcho) (i : PassIn) (rx : MacRx) :
    (s.dispatch i rx).tcp
      = if (ipRxProcess i.resetN rx s.frameBuf).valid
            && (ipRxProcess i.resetN rx s.frameBuf).protocol == ipProtoTcp then
          (tcpRxProcess i.uninit i.resetN (ipRxProcess i.resetN rx s.frameBuf) s.frameBuf s.tcp
            s.shared).1
        else s.tcp := by
  generalize hip : ipRxProcess i.resetN rx s.frameBuf = ipRx
  by_cases hvalid : ipRx.valid = true
  · have htype : rx.ethertype = ethertypeIpv4 := (ipRxProcess_valid (by rw [hip]; exact hvalid)).2
    unfold UdpEcho.dispatch UdpEcho.receiveIp
    rw [htype, if_neg (by decide), if_pos rfl, hip, hvalid]
    simp only [Bool.not_true, Bool.false_eq_true, if_false, Bool.true_and, beq_iff_eq]
    -- the protocols are tested one after the other
    split_ifs with hicmp htcp higmp hudp
    · rw [hicmp] at htcp
      exact absurd htcp (by decide)
    · rfl
    · rw [higmp] at hudp
      exact absurd hudp (by decide)
    · rfl
    · rfl
    · rcases receiveUdp_eq s i ipRx with h | ⟨-, h⟩
      · rw [h]
      · rw [h]
        rfl
    · rfl
  · have hno : ipRx.valid = false := by simpa using hvalid
    unfold UdpEcho.dispatch UdpEcho.receiveIp
    rw [hip, hno]
    simp only [Bool.not_false, if_true, Bool.false_and, Bool.false_eq_true, if_false]
    split_ifs <;> rfl

theorem resetOrInit_tcp (s : UdpEcho) (resetN : Bool) : (s.resetOrInit resetN).tcp = s.tcp := by
  unfold UdpEcho.resetOrInit
  cases resetN with
  | false => rfl
  | true =>
      obtain ⟨_, _, _, h⟩ := resetOrInit_eq s true rfl
      unfold UdpEcho.resetOrInit at h
      rw [h]

/-- The TCP statics when `tcp_maintenance` finds them. -/
theorem afterUdp_tcp (pacing : U32) (s : UdpEcho) (i : PassIn) :
    (s.afterUdp pacing i).tcp
      = if s.tcpSegmentIn i then
          (tcpRxProcess i.uninit i.resetN (s.packetIn i) (s.staged i).frameBuf s.tcp
            (s.staged i).shared).1
        else s.tcp := by
  have hbefore : (s.afterMacTx i).tcp = s.tcp := resetOrInit_tcp s i.resetN
  obtain ⟨_, _, _, hudp⟩ := afterUdp_eq pacing s i
  obtain ⟨_, _, hdhcp⟩ := afterDhcp_eq s i
  rw [hudp, hdhcp]
  show (s.afterReceive i).tcp = _
  unfold UdpEcho.tcpSegmentIn
  cases hvalid : (s.frameIn i).valid with
  | true =>
      rw [afterReceive_frame hvalid, Bool.true_and, dispatch_tcp,
        show (s.staged i).tcp = s.tcp from hbefore]
      rfl
  | false =>
      rw [afterReceive_quiet hvalid]
      exact hbefore

/-- **A pass is a few events of the TCP machine.** -/
theorem udpEcho_tcp (pacing : U32) (s : UdpEcho) (i : PassIn) :
    (udpEcho pacing s i).1.tcp = tcpMachine.after s.tcp (s.tcpCalls pacing i) := by
  obtain ⟨_, _, _, hstats⟩ := udpEcho_eq pacing s i
  rw [hstats]
  show ((s.afterUdp pacing i).runTcpMaintenance i.uninit (s.busyIn i)).tcp = _
  unfold UdpEcho.tcpCalls UdpEcho.runTcpMaintenance
  rw [after_append]
  have hreceive : tcpMachine.after s.tcp (if s.tcpSegmentIn i = true then
      [.segment i.uninit i.resetN (s.packetIn i) (s.staged i).frameBuf (s.staged i).shared]
        else []) = (s.afterUdp pacing i).tcp := by
    rw [afterUdp_tcp]
    split <;> rfl
  rw [hreceive]
  split <;> rfl

/-- **The TCP layer inside the stack**: a run of the stack is a run of the TCP machine over
the calls its passes make. -/
theorem udpEcho_tcp_run (pacing : U32) (s : UdpEcho) (is : List PassIn) :
    ((udpEchoMachine pacing).after s is).tcp
      = tcpMachine.after s.tcp
          ((udpEchoMachine pacing).record (fun s i => s.tcpCalls pacing i) s is) := by
  induction is generalizing s with
  | nil => rfl
  | cons i is ih =>
      show ((udpEchoMachine pacing).after (udpEcho pacing s i).1 is).tcp
        = tcpMachine.after s.tcp (s.tcpCalls pacing i ++ _)
      rw [ih, udpEcho_tcp, after_append]
      rfl

/-! ## §2. Nothing is marked for retransmission. -/

/-- The calls the dispatch can make: no reset, and only TCP packets. -/
def TcpEvent.Dispatched : TcpEvent → Prop
  | .segment _ rst ipRx _ _ => rst = true ∧ ipRx.valid = true ∧ ipRx.protocol = ipProtoTcp
  | .maintenance _ _ => True

theorem tcpCalls_dispatched (pacing : U32) (s : UdpEcho) (i : PassIn) :
    ∀ e ∈ s.tcpCalls pacing i, e.Dispatched := by
  intro e he
  unfold UdpEcho.tcpCalls at he
  rw [List.mem_append] at he
  rcases he with he | he
  · split at he
    · rename_i hseg
      rw [List.mem_singleton] at he
      subst he
      unfold UdpEcho.tcpSegmentIn at hseg
      simp only [Bool.and_eq_true, beq_iff_eq] at hseg
      obtain ⟨⟨-, hvalid⟩, hproto⟩ := hseg
      exact ⟨(ipRxProcess_valid hvalid).1, hvalid, hproto⟩
    · cases he
  · split at he
    · rw [List.mem_singleton] at he
      subst he
      trivial
    · cases he

/-- The state switch neither sets nor clears the mark. -/
theorem tcpSwitch_due (un : Uninit) (cid : Nat) (seg : TcpSeg) (payload : Nat → U8) (ipRx : IpRx)
    (t : TcpState) (sh : Shared) :
    (tcpSwitch un cid seg payload ipRx t sh).1.retransDue = t.retransDue := by
  unfold tcpSwitch
  cases (t.conn cid).state with
  | free => rfl
  | listen =>
      show (tcpListen un cid seg ipRx t sh).1.retransDue = _
      unfold tcpListen
      split
      · exact (tcpSend_due un cid _ none 0 _ sh).1
      · rfl
  | synRcvd => rfl
  | established =>
      show (tcpTakeFin un cid seg (tcpTakeData cid seg payload t) sh).1.retransDue = _
      unfold tcpTakeFin
      split
      · exact (tcpSend_due un cid _ none 0 _ sh).1.trans (tcpTakeData_due cid seg payload t)
      · exact tcpTakeData_due cid seg payload t
  | lastAck => rfl

theorem tcpReceive_due (un : Uninit) (ipRx : IpRx) (seg : TcpSeg) (frameBuf : Mem U32) (t : TcpState)
    (sh : Shared) : (tcpReceive un ipRx seg frameBuf t sh).1.retransDue = t.retransDue := by
  rcases tcpReceive_cases un ipRx seg frameBuf t with hquiet | ⟨cid, c, -, hswitch⟩
  · rw [hquiet]
  · rw [hswitch, tcpSwitch_due]
    rfl

/-- A call that the dispatch can make marks nothing. -/
theorem tcpMachine_due {t : TcpState} {e : TcpEvent} (hdue : t.retransDue = false)
    (he : e.Dispatched) : (tcpMachine t e).1.retransDue = false := by
  cases e with
  | segment un rst ipRx frameBuf sh =>
      obtain ⟨rfl, hvalid, hproto⟩ := he
      show (tcpRxProcess un true ipRx frameBuf t sh).1.retransDue = false
      unfold tcpRxProcess
      rw [if_neg (by decide), if_neg (by simp [hvalid, hproto])]
      dsimp only
      split
      · exact hdue
      · exact (tcpReceive_due un ipRx _ frameBuf t sh).trans hdue
  | maintenance un sh =>
      show (tcpMaintenance un t sh).1.retransDue = false
      unfold tcpMaintenance
      rw [if_neg (by rw [hdue]; simp)]
      split
      · obtain ⟨_, _, hflush⟩ := tcpFlush_statics un t sh
        rw [hflush]
        exact (tcpSend_due un _ _ _ _ t sh).1.trans hdue
      · exact hdue

/-- **Nothing is ever due**, from power-up on. -/
theorem udpEcho_never_due (pacing : U32) (is : List PassIn) :
    ((udpEchoMachine pacing).after {} is).tcp.retransDue = false := by
  refine invariant_after (M := udpEchoMachine pacing) (P := fun s => s.tcp.retransDue = false) ?_ rfl is
  intro s i hs
  show (udpEcho pacing s i).1.tcp.retransDue = false
  rw [udpEcho_tcp]
  refine Along.invariant (M := tcpMachine) (C := fun _ e => e.Dispatched)
    (P := fun t => t.retransDue = false) (fun t e ht he => tcpMachine_due ht he) hs _ ?_
  exact Along.of_inputs (tcpCalls_dispatched pacing s i)

/-! ## §3. The timers. -/

/-- The timer of slot `cid` counts on between `t` and `t'`, or runs out and marks the slot. -/
def TcpTimerRuns (t t' : TcpState) (cid : Nat) : Prop :=
  if (t.conn cid).rtoTimer + 1 < (t.conn cid).rto then
    (t'.conn cid).rtoTimer = (t.conn cid).rtoTimer + 1
  else (t'.conn cid).rtoTimer = 0 ∧ t'.retransDue = true ∧ t'.retransCid = cid

instance (t t' : TcpState) (cid : Nat) : Decidable (TcpTimerRuns t t' cid) := by
  unfold TcpTimerRuns
  infer_instance

/-- No timer runs where nothing changes and nothing is due. -/
theorem not_tcpTimerRuns {t : TcpState} (hdue : t.retransDue = false) (cid : Nat) :
    ¬ TcpTimerRuns t t cid := by
  unfold TcpTimerRuns
  split
  · intro h
    have hnat := congrArg BitVec.toNat h
    rw [BitVec.toNat_add, show (1 : U32).toNat = 1 from rfl] at hnat
    omega
  · rw [hdue]
    rintro ⟨-, h, -⟩
    cases h

/-- The timers of the slots that wait for an acknowledgement all run in this pass, before
`tcp_maintenance` looks at the mark. -/
def TcpTimersRun (pacing : U32) (s : UdpEcho) (i : PassIn) : Prop :=
  ∀ cid, cid < maxTcpConn → (s.tcp.conn cid).retransPending = true →
    TcpTimerRuns s.tcp (s.afterUdp pacing i).tcp cid

/-- **Retransmission timers**: in a pass out of reset that handles no TCP segment the timers
run exactly if no slot waits for an acknowledgement; and `tcp_maintenance` never finds a slot
marked, whatever was received before. -/
theorem tcp_timers_run_iff (pacing : U32) (is : List PassIn) (i : PassIn) :
    let s := (udpEchoMachine pacing).after {} is
    (i.resetN = true → s.tcpSegmentIn i = false →
      (TcpTimersRun pacing s i ↔ ∀ cid, cid < maxTcpConn → (s.tcp.conn cid).retransPending = false))
    ∧ (s.afterUdp pacing i).tcp.retransDue = false := by
  intro s
  have hdue : s.tcp.retransDue = false := udpEcho_never_due pacing is
  constructor
  · intro _ hno
    have hsame : (s.afterUdp pacing i).tcp = s.tcp := by
      rw [afterUdp_tcp, hno]
      rfl
    unfold TcpTimersRun
    rw [hsame]
    constructor
    · intro h cid hcid
      by_contra hpending
      exact not_tcpTimerRuns hdue cid (h cid hcid (by simpa using hpending))
    · intro h cid hcid hpending
      rw [h cid hcid] at hpending
      cases hpending
  · rw [afterUdp_tcp]
    split
    · rename_i hseg
      have hcall : TcpEvent.Dispatched
          (.segment i.uninit i.resetN (s.packetIn i) (s.staged i).frameBuf (s.staged i).shared) :=
        tcpCalls_dispatched pacing s i _ (by unfold UdpEcho.tcpCalls; rw [if_pos hseg]; simp)
      exact tcpMachine_due hdue hcall
    · exact hdue

/-- A SYN of 192.168.100.1, port 5000. -/
def synFrame : TaggedFrame where
  dst := boardMac
  src := hostMac 1
  tags := []
  ethertype := ethertypeIpv4
  payload := (List.range 20).map (ipHeader 40 0 64 ipProtoTcp [192, 168, 100, 1] boardIpBytes)
    ++ [hi8 5000, lo8 5000, hi8 tcpPortEcho, lo8 tcpPortEcho] ++ wordBytes 4 (100 : U32)
    ++ wordBytes 4 (0 : U32) ++ [0x50, tcpSyn, 0xFF, 0xFF, 0, 0, 0, 0]
  notTag := ethertypeIpv4_notTag
  nonempty := by decide

/-- The SYN is answered, and the timer of the SYN+ACK stands still in the next pass. -/
theorem tcp_timer_stands :
    let s := (udpEchoMachine 625000000).after {} ((gmiiFrame synFrame.bytes).map readPass)
    s.tcpSegmentIn .quiet = false ∧ (s.tcp.conn 0).state = .synRcvd
      ∧ (s.tcp.conn 0).retransPending = true
      ∧ ¬ TcpTimerRuns s.tcp (s.afterUdp 625000000 .quiet).tcp 0 := by
  intro s
  have hno : s.tcpSegmentIn .quiet = false := by
    unfold UdpEcho.tcpSegmentIn
    rw [frameIn_quiet, Bool.false_and, Bool.false_and]
  have hslot : (s.tcp.conn 0).state = .synRcvd ∧ (s.tcp.conn 0).retransPending = true := by
    decide +kernel
  refine ⟨hno, hslot.1, hslot.2, ?_⟩
  rw [afterUdp_tcp, hno]
  exact not_tcpTimerRuns (udpEcho_never_due 625000000 _) 0

end GigabitTcp
