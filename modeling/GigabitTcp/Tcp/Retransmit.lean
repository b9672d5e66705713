/-
  GigabitTcp.Tcp.Retransmit — what a retransmission sends.

  `tcp_maintenance` repeats the SYN+ACK, the saved data or the FIN of the slot that is due by
  calling `tcp_send` again.  `tcp_send` does not know that the segment is an old one: it takes
  `c.seq` for its number and moves `c.seq` on behind it.  So the segment goes out under the
  number of the next new byte, and the position of the connection is lost with every round.

  Main results:
    * `tcpRetransmit_reads`         — the segment a retransmission sends, read back,
    * `tcp_retransmission_skips`    — no retransmission repeats a segment, after any run,
    * `tcp_syn_ack_skipped`         — the SYN+ACK of a handshake that times out.
-/
import GigabitTcp.Tcp.Encoding
import GigabitTcp.Tcp.Reno
import GigabitTcp.Tcp.Bounds

namespace GigabitTcp

open Hw Machine

/-! ## §1. A retransmission that repeats. -/

/-- The TCP segment of the request in the mailbox, as its receiver reads it. -/
def Shared.tcpRead (sh : Shared) : Option Inet.TcpSegment :=
  (Inet.ipv4? (macTxReads sh.txReq sh.buffer)).bind fun p => Inet.tcp? p.src p.dst p.data

/-- The sequence numbers a segment takes: SYN and FIN count as one byte each. -/
def tcpSpan (s : Inet.TcpSegment) : Nat :=
  (if hasFlag s.flags tcpSyn then 1 else 0) + (if hasFlag s.flags tcpFin then 1 else 0)
    + s.data.length

/-- The slot that is due has something to repeat: the SYN+ACK, saved data, or the FIN. -/
def TcpState.Saved (t : TcpState) : Prop :=
  match (t.conn t.retransCid).state with
  | .synRcvd => True
  | .established => 0 < (t.conn t.retransCid).retransLen
  | .lastAck => True
  | _ => False

theorem TcpState.saved_synRcvd {t : TcpState} (h : (t.conn t.retransCid).state = .synRcvd) : t.Saved := by
  unfold TcpState.Saved
  rw [h]
  trivial

/-- The call of `tcp_maintenance` sends the segment `first` once more, and the connection
stays where it is. -/
structure TcpRepeats (t : TcpState) (un : Uninit) (sh : Shared) (first : Inet.TcpSegment) : Prop where
  request : (tcpMaintenance un t sh).2.txReq.request = true
  segment : ∃ s, (tcpMaintenance un t sh).2.tcpRead = some s
    ∧ s.seq = first.seq ∧ tcpSpan s = tcpSpan first ∧ s.data = first.data
  position : ((tcpMaintenance un t sh).1.conn t.retransCid).seq = (t.conn t.retransCid).seq

/-! ## §2. What `tcp_send` sends. -/

section Call

variable (un : Uninit) {flags : U8} {payload : Option (Nat → U8)} {payLen : U16}
  (hlen : payLen.toNat ≤ 536) (hsyn : hasFlag flags tcpSyn = true → payLen = 0)
  (hnull : payload = none → payLen = 0)

include hlen hsyn hnull in
/-- The segment stands at the position the record had before. -/
theorem tcpSend_tcpRead {cid : Nat} (t : TcpState) (sh : Shared) (hcid : cid < maxTcpConn) :
    (tcpSend un cid flags payload payLen t sh).2.tcpRead
      = some ((t.conn cid).segment flags (tcpPayloadBytes payload payLen)) := by
  obtain ⟨-, hip⟩ := tcpSend_ipv4 un payload hlen hsyn t sh hcid
  unfold Shared.tcpRead
  rw [hip]
  exact tcpSegment_reads un (t.conn cid) hlen hsyn hnull

include hnull in
/-- A segment that takes sequence numbers moves the record behind it. -/
theorem tcpSendConn_seq_span (c : TcpConn)
    (htakes : 0 < payLen ∨ hasFlag flags (tcpSyn ||| tcpFin) = true) :
    (tcpSendConn c flags payLen).seq
      = c.seq + BitVec.ofNat 32 (tcpSpan (c.segment flags (tcpPayloadBytes payload payLen))) := by
  have hinc : tcpSeqInc flags payLen
      = BitVec.ofNat 32 (tcpSpan (c.segment flags (tcpPayloadBytes payload payLen))) := by
    have hbit : ∀ b : Bool, (if b then 1 else 0 : U32) = BitVec.ofNat 32 (if b then 1 else 0) := by decide
    have hpay : payLen.setWidth 32 = BitVec.ofNat 32 payLen.toNat := BitVec.eq_of_toNat_eq (by simp)
    unfold tcpSeqInc tcpSpan
    rw [show (c.segment flags (tcpPayloadBytes payload payLen)).data.length = payLen.toNat from
        length_tcpPayloadBytes hnull, BitVec.ofNat_add, BitVec.ofNat_add, hpay]
    show (if hasFlag flags tcpSyn then 1 else 0) + (if hasFlag flags tcpFin then 1 else 0) + _ = _
    rw [hbit, hbit]
    rfl
  rw [← hinc]
  unfold tcpSendConn
  dsimp only
  rw [if_pos htakes]
  split_ifs <;> rfl

end Call

/-! ## §3. The retransmission. -/

/-- A retransmission is a call of `tcp_send` for the slot that is due. -/
theorem tcpRetransmit_sends (un : Uninit) {t : TcpState} (sh : Shared) (h : TcpBounded t)
    (hsaved : t.Saved) :
    ∃ flags payload payLen, BitVec.toNat payLen ≤ 536 ∧ (hasFlag flags tcpSyn = true → payLen = 0)
      ∧ (payload = none → payLen = 0) ∧ (0 < payLen ∨ hasFlag flags (tcpSyn ||| tcpFin) = true)
      ∧ tcpRetransmit un t sh
        = ({ (tcpSend un t.retransCid flags payload payLen t sh).1 with retransDue := false },
          (tcpSend un t.retransCid flags payload payLen t sh).2) := by
  unfold TcpState.Saved at hsaved
  unfold tcpRetransmit
  dsimp only
  cases hstate : (t.conn t.retransCid).state with
  | free => simp [hstate] at hsaved
  | listen => simp [hstate] at hsaved
  | synRcvd =>
      exact ⟨tcpSyn ||| tcpAck, none, 0, by decide, fun _ => rfl, fun _ => rfl, .inr (by decide), rfl⟩
  | established =>
      have hpos : 0 < (t.conn t.retransCid).retransLen := by simpa [hstate] using hsaved
      simp only [if_pos hpos]
      exact ⟨tcpAck, some (t.retransBuf t.retransCid), (t.conn t.retransCid).retransLen,
        h.saved t.retransCid, fun hno => absurd hno (by decide), fun hno => (nomatch hno), .inl hpos, rfl⟩
  | lastAck =>
      exact ⟨tcpFin ||| tcpAck, none, 0, by decide, fun hno => absurd hno (by decide), fun _ => rfl,
        .inr (by decide), rfl⟩

/-- A segment of `tcp_send` takes at least one sequence number, and not all of them. -/
theorem tcpSpan_pos (c : TcpConn) {flags : U8} {payload : Option (Nat → U8)} {payLen : U16}
    (hlen : payLen.toNat ≤ 536) (hnull : payload = none → payLen = 0)
    (htakes : 0 < payLen ∨ hasFlag flags (tcpSyn ||| tcpFin) = true) :
    0 < tcpSpan (c.segment flags (tcpPayloadBytes payload payLen))
      ∧ tcpSpan (c.segment flags (tcpPayloadBytes payload payLen)) < 2 ^ 32 := by
  have hdata : (c.segment flags (tcpPayloadBytes payload payLen)).data.length = payLen.toNat :=
    length_tcpPayloadBytes hnull
  have hflags : ∀ f : U8, hasFlag f (tcpSyn ||| tcpFin) = true →
      hasFlag f tcpSyn = true ∨ hasFlag f tcpFin = true := by
    decide +kernel
  unfold tcpSpan
  rw [hdata]
  show 0 < (if hasFlag flags tcpSyn then 1 else 0) + (if hasFlag flags tcpFin then 1 else 0) + _ ∧ _
  rcases htakes with hpos | hbits
  · rw [BitVec.lt_def] at hpos
    change 0 < payLen.toNat at hpos
    split_ifs <;> omega
  · rcases hflags flags hbits with hbit | hbit
    · rw [if_pos hbit]
      split_ifs <;> omega
    · rw [if_pos hbit]
      split_ifs <;> omega

/-- **A retransmission, read back**: it carries the position of the connection, not the one it
was first sent at, and the connection moves on behind it. -/
theorem tcpRetransmit_reads (un : Uninit) {t : TcpState} (sh : Shared) (h : TcpBounded t)
    (hdue : t.retransDue = true) (hsaved : t.Saved) (hfree : sh.txReq.request = false) :
    (tcpMaintenance un t sh).2.txReq.request = true
      ∧ ∃ s, (tcpMaintenance un t sh).2.tcpRead = some s ∧ s.seq = (t.conn t.retransCid).seq
        ∧ 0 < tcpSpan s ∧ tcpSpan s < 2 ^ 32
        ∧ ((tcpMaintenance un t sh).1.conn t.retransCid).seq
          = (t.conn t.retransCid).seq + BitVec.ofNat 32 (tcpSpan s) := by
  have hcall : tcpMaintenance un t sh = tcpRetransmit un t sh :=
    if_pos ⟨hdue, by rw [hfree]; exact Bool.false_ne_true⟩
  obtain ⟨flags, payload, payLen, hlen, hsyn, hnull, htakes, hsend⟩ := tcpRetransmit_sends un sh h hsaved
  rw [hcall, hsend]
  obtain ⟨hrequest, -⟩ := tcpSend_frame un flags payload t sh h.due (show payLen.toNat ≤ 576 by omega)
  obtain ⟨hpos, hlt⟩ := tcpSpan_pos (t.conn t.retransCid) hlen hnull htakes
  refine ⟨hrequest, _, tcpSend_tcpRead un hlen hsyn hnull t sh h.due, rfl, hpos, hlt, ?_⟩
  show ((tcpSend un t.retransCid flags payload payLen t sh).1.conn t.retransCid).seq = _
  rw [tcpSend_conn un flags payload payLen t sh h.due, Mem.set_same]
  exact tcpSendConn_seq_span hnull _ htakes

/-- Moving on by less than a whole turn changes the position. -/
theorem seq_add_ne {seq : U32} {n : Nat} (hpos : 0 < n) (hlt : n < 2 ^ 32) : seq + BitVec.ofNat 32 n ≠ seq := by
  intro hsame
  have hseq : seq.toNat < 2 ^ 32 := seq.isLt
  have hnat := congrArg BitVec.toNat hsame
  rw [BitVec.toNat_add, BitVec.toNat_ofNat] at hnat
  omega

/-! ## §4. A timer that runs out. -/

/-- A call of `tcp_rx_process` without a segment. -/
def tcpIdleCall : TcpEvent := .segment .zero true {} (fun _ => 0) {}

/-- Slot 0 is the only one that waits for an acknowledgement. -/
structure TcpOneWaits (t : TcpState) : Prop where
  waits : (t.conn 0).retransPending = true
  others : ∀ i, i < maxTcpConn → 0 < i → (t.conn i).retransPending = false

theorem tcpScanOne_quiet {t : TcpState} {i : Nat} (h : (t.conn i).retransPending = false) :
    tcpScanOne t i = t := by
  unfold tcpScanOne
  dsimp only
  rw [if_neg (by rw [h]; exact Bool.false_ne_true)]

/-- A timer that runs out marks its slot. -/
theorem tcpScanOne_expires {t : TcpState} {i : Nat} (h : (t.conn i).expires) :
    (tcpScanOne t i).retransDue = true ∧ (tcpScanOne t i).retransCid = i
      ∧ (tcpScanOne t i).conn i = tcpTimeout (t.conn i) := by
  refine ⟨?_, ?_, ?_⟩
  · unfold tcpScanOne
    dsimp only
    rw [if_pos h.1, if_pos h.2]
  · unfold tcpScanOne
    dsimp only
    rw [if_pos h.1, if_pos h.2]
  · rw [tcpScanOne_conn, Mem.set_same, tcpScanConn, if_pos h]

/-- The scan comes down to slot 0. -/
theorem TcpOneWaits.scan {t : TcpState} (h : TcpOneWaits t) :
    (tcpMachine t tcpIdleCall).1 = tcpScanOne t 0 := by
  have hquiet : ∀ i, i < maxTcpConn → 0 < i → ((tcpScanOne t 0).conn i).retransPending = false := by
    intro i hi hpos
    rw [tcpScanOne_conn, Mem.set_other _ _ (by omega)]
    exact h.others i hi hpos
  show tcpScanOne (tcpScanOne (tcpScanOne t 0) 1) 2 = _
  rw [tcpScanOne_quiet (hquiet 1 (by decide) (by decide)),
    tcpScanOne_quiet (hquiet 2 (by decide) (by decide))]

theorem TcpOneWaits.setConn {t : TcpState} (h : TcpOneWaits t) {c : TcpConn}
    (hc : c.retransPending = true) : TcpOneWaits (t.setConn 0 c) := by
  refine ⟨by rw [setConn_same]; exact hc, fun i hi hpos => ?_⟩
  rw [setConn_other t c (by omega)]
  exact h.others i hi hpos

/-- The record after `n` scans that found the timer running. -/
def TcpConn.ticked (c : TcpConn) (n : Nat) : TcpConn :=
  { c with rtoTimer := c.rtoTimer + BitVec.ofNat 32 n }

theorem TcpConn.ticked_zero (c : TcpConn) : c.ticked 0 = c := by
  have hzero : c.rtoTimer + BitVec.ofNat 32 0 = c.rtoTimer := BitVec.add_zero _
  unfold TcpConn.ticked
  rw [hzero]

theorem TcpConn.ticked_succ (c : TcpConn) (n : Nat) :
    { c.ticked n with rtoTimer := (c.ticked n).rtoTimer + 1 } = c.ticked (n + 1) := by
  have hstep : c.rtoTimer + BitVec.ofNat 32 (n + 1) = c.rtoTimer + BitVec.ofNat 32 n + 1 := by
    rw [BitVec.ofNat_add, ← BitVec.add_assoc]
    rfl
  unfold TcpConn.ticked
  rw [hstep]

/-- The next step of the timer, as a number. -/
theorem TcpConn.toNat_ticked_succ (c : TcpConn) {n : Nat} (hn : c.rtoTimer.toNat + n + 1 < 2 ^ 32) :
    ((c.ticked n).rtoTimer + 1).toNat = c.rtoTimer.toNat + n + 1 := by
  have hone : (1 : U32).toNat = 1 := rfl
  unfold TcpConn.ticked
  rw [BitVec.toNat_add, BitVec.toNat_add, BitVec.toNat_ofNat, hone]
  omega

/-- **The timer counts**: one step for each call, and nothing else moves. -/
theorem TcpOneWaits.after_idle {t : TcpState} (h : TcpOneWaits t) (n : Nat)
    (hn : (t.conn 0).rtoTimer.toNat + n < (t.conn 0).rto.toNat) :
    tcpMachine.after t (List.replicate n tcpIdleCall) = t.setConn 0 ((t.conn 0).ticked n) := by
  induction n with
  | zero =>
      rw [TcpConn.ticked_zero]
      exact (setConn_self t 0).symm
  | succ n ih =>
      have hrto : (t.conn 0).rto.toNat < 2 ^ 32 := (t.conn 0).rto.isLt
      have hwaits := h.setConn (c := (t.conn 0).ticked n) h.waits
      rw [List.replicate_succ', after_append, ih (by omega), after_cons, after_nil, hwaits.scan]
      -- the timer has not run out yet
      have hruns : ¬ ((t.conn 0).ticked n).rto ≤ ((t.conn 0).ticked n).rtoTimer + 1 := by
        rw [BitVec.le_def, TcpConn.toNat_ticked_succ _ (by omega)]
        show ¬ (t.conn 0).rto.toNat ≤ _
        omega
      unfold tcpScanOne
      rw [setConn_same]
      dsimp only
      rw [if_pos (show ((t.conn 0).ticked n).retransPending = true from h.waits), if_neg hruns,
        setConn_setConn]
      exact congrArg (t.setConn 0) ((t.conn 0).ticked_succ n)

/-- **The timer runs out**: slot 0 is due, where it was. -/
theorem TcpOneWaits.runs_out {t : TcpState} (h : TcpOneWaits t) (n : Nat)
    (hn : (t.conn 0).rtoTimer.toNat + n + 1 = (t.conn 0).rto.toNat) :
    (tcpMachine.after t (List.replicate (n + 1) tcpIdleCall)).retransDue = true
      ∧ (tcpMachine.after t (List.replicate (n + 1) tcpIdleCall)).retransCid = 0
      ∧ ((tcpMachine.after t (List.replicate (n + 1) tcpIdleCall)).conn 0).state = (t.conn 0).state
      ∧ ((tcpMachine.after t (List.replicate (n + 1) tcpIdleCall)).conn 0).seq = (t.conn 0).seq := by
  have hrto : (t.conn 0).rto.toNat < 2 ^ 32 := (t.conn 0).rto.isLt
  have hwaits := h.setConn (c := (t.conn 0).ticked n) h.waits
  have hexpires : ((t.setConn 0 ((t.conn 0).ticked n)).conn 0).expires := by
    rw [setConn_same]
    refine ⟨h.waits, ?_⟩
    rw [BitVec.le_def, TcpConn.toNat_ticked_succ _ (by omega)]
    show (t.conn 0).rto.toNat ≤ _
    omega
  obtain ⟨hdue, hcid, hconn⟩ := tcpScanOne_expires hexpires
  rw [List.replicate_succ', after_append, h.after_idle n (by omega), after_cons, after_nil, hwaits.scan,
    hconn, setConn_same]
  exact ⟨hdue, hcid, rfl, rfl⟩

/-! ## §5. After any run. -/

/-- **No retransmission repeats its segment.**  After any run, if the slot that is due has
something to repeat and the mailbox is free: the call sends a segment under the number of the
next new byte and moves the connection on behind it, so it repeats no segment at all. -/
theorem tcp_retransmission_skips (es : List TcpEvent) (un : Uninit) (sh : Shared)
    (hdue : (tcpMachine.after {} es).retransDue = true) (hsaved : (tcpMachine.after {} es).Saved)
    (hfree : sh.txReq.request = false) :
    let t := tcpMachine.after {} es
    (∀ first, ¬ TcpRepeats t un sh first)
      ∧ ∃ s, (tcpMaintenance un t sh).2.tcpRead = some s ∧ s.seq = (t.conn t.retransCid).seq
        ∧ ((tcpMaintenance un t sh).1.conn t.retransCid).seq
          = (t.conn t.retransCid).seq + BitVec.ofNat 32 (tcpSpan s)
        ∧ ((tcpMaintenance un t sh).1.conn t.retransCid).seq ≠ (t.conn t.retransCid).seq := by
  intro t
  obtain ⟨-, s, hread, hseq, hpos, hlt, hmoves⟩ :=
    tcpRetransmit_reads un sh (tcpBounded_after es) hdue hsaved hfree
  have hleaves : ((tcpMaintenance un t sh).1.conn t.retransCid).seq ≠ (t.conn t.retransCid).seq := by
    rw [show ((tcpMaintenance un t sh).1.conn t.retransCid).seq = _ from hmoves]
    exact seq_add_ne hpos hlt
  exact ⟨fun first hrepeats => hleaves hrepeats.position, s, hread, hseq, hmoves, hleaves⟩

/-- The SYN of 192.168.100.3:5000, and nothing more until the timer runs out.  The run is too
long to be evaluated. -/
@[irreducible] def tcpUnanswered : List TcpEvent :=
  (tcpHandshake 3).take 1 ++ List.replicate (9999999 + 1) tcpIdleCall

/-- After the SYN, slot 0 waits with the full timer. -/
theorem tcpUnanswered_due :
    (tcpMachine.after {} tcpUnanswered).retransDue = true
      ∧ (tcpMachine.after {} tcpUnanswered).retransCid = 0
      ∧ ((tcpMachine.after {} tcpUnanswered).conn 0).state = .synRcvd
      ∧ ((tcpMachine.after {} tcpUnanswered).conn 0).seq = 0x12345679 := by
  have hwaits : TcpOneWaits (tcpMachine.after {} ((tcpHandshake 3).take 1)) :=
    ⟨by decide +kernel, by decide +kernel⟩
  have hstart : ((tcpMachine.after {} ((tcpHandshake 3).take 1)).conn 0).rtoTimer = 0
      ∧ ((tcpMachine.after {} ((tcpHandshake 3).take 1)).conn 0).rto = 10000000
      ∧ ((tcpMachine.after {} ((tcpHandshake 3).take 1)).conn 0).state = .synRcvd
      ∧ ((tcpMachine.after {} ((tcpHandshake 3).take 1)).conn 0).seq = 0x12345679 := by
    decide +kernel
  obtain ⟨htimer, hrto, hstate, hseq⟩ := hstart
  have hrun := hwaits.runs_out 9999999 (by rw [htimer, hrto]; rfl)
  unfold tcpUnanswered
  rw [after_append]
  exact ⟨hrun.1, hrun.2.1, hrun.2.2.1.trans hstate, hrun.2.2.2.trans hseq⟩

theorem tcpUnanswered_saved : (tcpMachine.after {} tcpUnanswered).Saved := by
  obtain ⟨-, hcid, hstate, -⟩ := tcpUnanswered_due
  exact TcpState.saved_synRcvd (by rw [hcid, hstate])

theorem tcp_retransmission_skips_syn_ack :
    ∃ s, (tcpMaintenance .zero (tcpMachine.after {} tcpUnanswered) {}).2.tcpRead = some s
      ∧ s.seq = 0x12345679 := by
  have h := (tcp_retransmission_skips tcpUnanswered .zero {} tcpUnanswered_due.1 tcpUnanswered_saved rfl).2
  obtain ⟨s, hread, hseq, -, -⟩ := h
  obtain ⟨-, hcid, -, hat⟩ := tcpUnanswered_due
  exact ⟨s, hread, by rw [hseq, hcid, hat]⟩

/-- **A SYN+ACK that is not repeated**: it first went out under the number 12345678h; when the
timer has run out it goes out under 12345679h, and the connection moves to 1234567Ah. -/
theorem tcp_syn_ack_skipped :
    ∃ first s, (tcpMachine {} ((tcpHandshake 3).headD tcpIdleCall)).2.tcpRead = some first
      ∧ first.seq = 0x12345678
      ∧ (tcpMaintenance .zero (tcpMachine.after {} tcpUnanswered) {}).2.tcpRead = some s
      ∧ s.seq = 0x12345679
      ∧ ¬ TcpRepeats (tcpMachine.after {} tcpUnanswered) .zero {} first := by
  obtain ⟨hdue, hcid, -, hat⟩ := tcpUnanswered_due
  obtain ⟨-, s, hread, hseq, -⟩ :=
    tcpRetransmit_reads .zero {} (tcpBounded_after tcpUnanswered) hdue tcpUnanswered_saved rfl
  rw [hcid, hat] at hseq
  obtain ⟨first, hfirst, hnumber⟩ : ∃ first,
      (tcpMachine {} ((tcpHandshake 3).headD tcpIdleCall)).2.tcpRead = some first
        ∧ first.seq = 0x12345678 := by
    have hsome : (tcpMachine {} ((tcpHandshake 3).headD tcpIdleCall)).2.tcpRead.map Inet.TcpSegment.seq
        = some 0x12345678 := by
      decide +kernel
    exact Option.map_eq_some_iff.mp hsome
  refine ⟨first, s, hfirst, hnumber, hread, hseq, fun hrepeats => ?_⟩
  obtain ⟨s', hread', hsame, -, -⟩ := hrepeats.segment
  rw [hread, Option.some_inj] at hread'
  rw [← hread', hseq, hnumber] at hsame
  exact absurd hsame (by decide)

end GigabitTcp
