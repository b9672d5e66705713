/-
  GigabitTcp.Stack.Gates — the two gated senders of a pass.

  `udp_tx_process` and `tcp_maintenance` run behind `!tx_req.request && !mac_tx_busy`.  The
  flag was sampled at the start of MAC TX, the request is looked at when the sender starts;
  together they say that MAC TX has stayed idle in this pass and that nobody waits.

  Main results:
    * `macTx_not_busy`      — a pass that is not busy leaves MAC TX idle and the mailbox empty,
    * `gated_senders_safe`  — the senders disturb no frame and no request, and what they ask
      for is latched in the next pass with the words they wrote.
-/
import GigabitTcp.Stack.InFlight

namespace GigabitTcp

open Hw Machine

/-! ## §1. The gates. -/

/-- `udp_tx_process` is called in this pass. -/
def UdpEcho.callsUdpTx (s : UdpEcho) (i : PassIn) : Bool :=
  !(s.afterDhcp i).shared.txReq.request && !s.busyIn i

/-- `tcp_maintenance` is called in this pass. -/
def UdpEcho.callsMaintenance (s : UdpEcho) (pacing : U32) (i : PassIn) : Bool :=
  !(s.afterUdp pacing i).shared.txReq.request && !s.busyIn i

/-- **What a gated sender may do** between `before` and `after` in the pass `i`, which ends in
`next`; `called` tells if its gate is open. -/
structure GatedSender (s : UdpEcho) (i : PassIn) (called : Bool) (before after next : UdpEcho) :
    Prop where
  /-- It writes if it is called, and then MAC TX is idle and no request waits. -/
  closed : called = false → after.shared = before.shared
  idle : called = true → (s.afterMacTx i).macTx.state = .idle
  free : called = true → before.shared.txReq.request = false
  /-- So no word that MAC TX reads for a frame changes, and no request is replaced. -/
  inFlight : ∀ a, (s.afterMacTx i).macTx.Reads a → after.shared.buffer a = before.shared.buffer a
  waiting : before.shared.txReq.request = true → after.shared = before.shared
  /-- If it has written, it has left a request. -/
  requests : after.shared.buffer ≠ before.shared.buffer ∨ after.shared.txReq ≠ before.shared.txReq →
    after.shared.txReq.request = true
  /-- The next pass latches this request, and shows MAC TX the words of the sender. -/
  latched : ∀ j : PassIn, called = true → after.shared.txReq.request = true → i.resetN = true →
    j.resetN = true → (next.afterMacTx j).macTx = txLatch after.shared.txReq
      ∧ (next.afterMacTx j).shared.buffer = after.shared.buffer

/-! ## §2. MAC TX behind an open gate. -/

/-- A pass in which `mac_tx_busy` is not set leaves MAC TX idle. -/
theorem macTx_not_busy (s : UdpEcho) (i : PassIn) (h : s.busyIn i = false) :
    (s.afterMacTx i).macTx.state = .idle := by
  cases hreset : i.resetN with
  | false =>
      unfold UdpEcho.afterMacTx UdpEcho.runMacTx macTxProcess
      rw [hreset]
      rfl
  | true =>
      obtain ⟨hmac, -, -, hbusy⟩ := afterMacTx_cycle s i hreset
      rw [hbusy] at h
      rw [hmac]
      by_cases hidle : s.macTx.state = .idle
      · by_cases hreq : s.shared.txReq.request = true
        · -- a request that is latched makes the pass a busy one
          rw [macTx_latch hidle hreq] at h
          cases h
        · unfold macTxCycle macTxProcess macTxIdle
          simp [hidle, hreq]
      · rw [(macTxCycle_sending hidle _).2] at h
        cases h

/-- A request that an idle MAC TX finds at the end of a pass is latched in the next one. -/
theorem latched_next (pacing : U32) (s : UdpEcho) (i j : PassIn)
    (hidle : (s.afterMacTx i).macTx.state = .idle) (hi : i.resetN = true) (hj : j.resetN = true)
    (hreq : (s.afterTcp pacing i).shared.txReq.request = true) :
    (((udpEcho pacing s i).1).afterMacTx j).macTx = txLatch (s.afterTcp pacing i).shared.txReq
      ∧ (((udpEcho pacing s i).1).afterMacTx j).shared.buffer
        = (s.afterTcp pacing i).shared.buffer := by
  obtain ⟨hmac, hshared, -, -⟩ := afterMacTx_cycle (udpEcho pacing s i).1 j hj
  have hstate : (udpEcho pacing s i).1.macTx.state = .idle := by
    rw [udpEcho_macTx_afterMacTx]
    exact hidle
  rw [hmac, hshared]
  rw [udpEcho_shared]
  constructor
  · rw [macTx_latch hstate hreq]
  · -- the stack is initialised by now, so nothing is written before MAC TX
    show ((udpEcho pacing s i).1).txBuffer j = _
    rw [txBuffer_eq, udpEcho_initDone pacing s i hi, if_neg (by simp), udpEcho_shared]

/-! ## §3. The senders leave a request. -/

/-- `udp_tx_process` leaves the shared part alone, or a request in the mailbox. -/
theorem udpTx_requests (pacing : U32) (resetN : Bool) (rq : UdpRequest) (u : UdpTx) (sh : Shared) :
    (udpTxProcess pacing resetN rq u sh).2 = sh
      ∨ (udpTxProcess pacing resetN rq u sh).2.txReq.request = true := by
  unfold udpTxProcess
  split
  · exact .inl rfl
  · dsimp only
    split
    · exact .inl rfl
    · right
      split <;> rfl

/-- `tcp_maintenance` leaves the shared part alone, or calls `tcp_send` for one of the slots. -/
theorem tcpMaintenance_sends (un : Uninit) (t : TcpState) (sh : Shared) :
    (tcpMaintenance un t sh).2 = sh
      ∨ ∃ cid flags payload payLen, cid < maxTcpConn
        ∧ (tcpMaintenance un t sh).2 = (tcpSend un cid flags payload payLen t sh).2 := by
  have hsend : ∀ cid flags payload payLen, (tcpSend un cid flags payload payLen t sh).2 = sh
      ∨ ∃ cid' flags' payload' payLen', cid' < maxTcpConn
        ∧ (tcpSend un cid flags payload payLen t sh).2 = (tcpSend un cid' flags' payload' payLen' t sh).2 := by
    intro cid flags payload payLen
    by_cases hcid : cid < maxTcpConn
    · exact .inr ⟨cid, flags, payload, payLen, hcid, rfl⟩
    · rw [tcpSend_outside un flags payload payLen t sh hcid]
      exact .inl rfl
  unfold tcpMaintenance
  split
  · unfold tcpRetransmit
    dsimp only
    cases (t.conn t.retransCid).state with
    | free => exact .inl rfl
    | listen => exact .inl rfl
    | synRcvd => exact hsend _ _ none 0
    | established =>
        dsimp only
        split
        · exact hsend _ _ _ _
        · exact .inl rfl
    | lastAck => exact hsend _ _ none 0
  · split
    · obtain ⟨_, _, hflush⟩ := tcpFlush_statics un t sh
      rw [hflush]
      exact hsend _ _ _ _
    · exact .inl rfl

theorem tcpMaintenance_requests (un : Uninit) (t : TcpState) (sh : Shared) :
    (tcpMaintenance un t sh).2 = sh ∨ (tcpMaintenance un t sh).2.txReq.request = true := by
  rcases tcpMaintenance_sends un t sh with h | ⟨cid, flags, payload, payLen, hcid, h⟩
  · exact .inl h
  · have hwrites := tcpSend_writes un flags payload payLen t sh hcid
    rw [h]
    exact .inr hwrites.2

/-! ## §4. The senders. -/

/-- A stage that does nothing unless both flags are clear is a gated sender. -/
theorem GatedSender.of_gate {pacing : U32} {s : UdpEcho} {i : PassIn} {before after : UdpEcho}
    {called : Bool} (hcalled : called = (!before.shared.txReq.request && !s.busyIn i))
    (hclosed : called = false → after.shared = before.shared)
    (hrequests : after.shared = before.shared ∨ after.shared.txReq.request = true)
    (hlast : after.shared.txReq.request = true → (s.afterTcp pacing i).shared = after.shared) :
    GatedSender s i called before after (udpEcho pacing s i).1 := by
  have hopen : called = true → before.shared.txReq.request = false ∧ s.busyIn i = false := by
    intro h
    rw [hcalled] at h
    simpa using h
  have hidle : called = true → (s.afterMacTx i).macTx.state = .idle :=
    fun h => macTx_not_busy s i (hopen h).2
  constructor
  · exact hclosed
  · exact hidle
  · exact fun h => (hopen h).1
  · intro a ha
    -- MAC TX reads a frame, so the gate is closed
    have hno : called = false := by
      by_contra h
      exact ha.sending (hidle (by simpa using h))
    rw [hclosed hno]
  · intro hpending
    apply hclosed
    rw [hcalled, hpending]
    rfl
  · intro hchanged
    rcases hrequests with hsame | hreq
    · rw [hsame] at hchanged
      simp at hchanged
    · exact hreq
  · intro j h hreq hi hj
    have hnext := latched_next pacing s i j (hidle h) hi hj (by rw [hlast hreq]; exact hreq)
    rw [hlast hreq] at hnext
    exact hnext

/-- A request that UDP TX leaves closes the gate behind it. -/
theorem afterTcp_of_pending {pacing : U32} {s : UdpEcho} {i : PassIn}
    (h : (s.afterUdp pacing i).shared.txReq.request = true) :
    (s.afterTcp pacing i).shared = (s.afterUdp pacing i).shared := by
  unfold UdpEcho.afterTcp UdpEcho.runTcpMaintenance
  rw [h]
  rfl

/-- **The gated builders never disturb a frame**, in any pass of any run. -/
theorem gated_senders_safe (pacing : U32) (is : List PassIn) (i : PassIn) :
    let s := (udpEchoMachine pacing).after {} is
    GatedSender s i (s.callsUdpTx i) (s.afterDhcp i) (s.afterUdp pacing i) (udpEcho pacing s i).1
      ∧ GatedSender s i (s.callsMaintenance pacing i) (s.afterUdp pacing i) (s.afterTcp pacing i)
        (udpEcho pacing s i).1 := by
  intro s
  constructor
  · refine GatedSender.of_gate rfl ?_ ?_ afterTcp_of_pending
    · intro hclosed
      rw [(after_closed pacing s i hclosed).1]
    · unfold UdpEcho.afterUdp UdpEcho.runUdpTx
      split
      · exact udpTx_requests pacing i.resetN _ _ _
      · exact .inl rfl
  · refine GatedSender.of_gate rfl ?_ ?_ (fun _ => rfl)
    · intro hclosed
      unfold UdpEcho.callsMaintenance at hclosed
      unfold UdpEcho.afterTcp UdpEcho.runTcpMaintenance
      rw [hclosed]
      rfl
    · unfold UdpEcho.afterTcp UdpEcho.runTcpMaintenance
      split
      · exact tcpMaintenance_requests i.uninit _ _
      · exact .inl rfl

end GigabitTcp
