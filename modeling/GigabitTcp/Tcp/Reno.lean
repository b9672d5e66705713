/-
  GigabitTcp.Tcp.Reno — the congestion control of a connection, and why its arithmetic is safe.

  `tcp_reno_on_ack` and the timeout of the retransmission scan compute in 32-bit words what
  the Reno window does in unbounded numbers, as long as the window is within its bounds; and the
  bounds are kept.  A record meets them from the SYN that opens its slot.

  `TcpKept` says what it takes for a property of connection records to hold of every slot in
  use in every run.

  Main results:
    * `tcpRenoOnAck_reno`, `tcpTimeout_reno` — the words compute the Reno window,
    * `TcpKept.after`       — a property that the pieces of a call keep,
    * `tcp_reno_safe`       — no addition wraps and no division is by zero.
-/
import GigabitTcp.Tcp.Table
import GigabitTcp.Hw.Reno

namespace GigabitTcp

open Hw Machine

/-! ## §1. The scan, record by record. -/

/-- The timeout of a connection: back off, and close the window to one segment. -/
def tcpTimeout (c : TcpConn) : TcpConn :=
  let rto := c.rto * 2
  { c with
    rtoTimer := 0, rto := if tcpRtoMax < rto then tcpRtoMax else rto
    ssthresh := tcpHalfFlight c, cwnd := tcpMss, flightSize := 0, dupAckCnt := 0 }

/-- The timer of the connection runs out at the next scan. -/
def TcpConn.expires (c : TcpConn) : Prop :=
  c.retransPending = true ∧ c.rto ≤ c.rtoTimer + 1

instance (c : TcpConn) : Decidable c.expires := inferInstanceAs (Decidable (_ ∧ _))

/-- What the scan does to the record of a connection. -/
def tcpScanConn (c : TcpConn) : TcpConn :=
  if c.expires then tcpTimeout c
  else if c.retransPending then { c with rtoTimer := c.rtoTimer + 1 }
  else c

theorem tcpScanOne_conn (t : TcpState) (i : Nat) :
    (tcpScanOne t i).conn = t.conn.set i (tcpScanConn (t.conn i)) := by
  unfold tcpScanOne tcpScanConn
  dsimp only
  by_cases hpending : (t.conn i).retransPending = true
  · by_cases hout : (t.conn i).rto ≤ (t.conn i).rtoTimer + 1
    · have hexpires : (t.conn i).expires := ⟨hpending, hout⟩
      rw [if_pos hpending, if_pos hexpires, if_pos hout]
      rfl
    · have hruns : ¬ (t.conn i).expires := fun h => hout h.2
      rw [if_pos hpending, if_neg hruns, if_neg hout, if_pos hpending]
      rfl
  · have hruns : ¬ (t.conn i).expires := fun h => hpending h.1
    rw [if_neg hpending, if_neg hruns, if_neg hpending]
    exact (congrArg TcpState.conn (setConn_self t i)).symm

/-- **The scan** treats each of the first `n` slots once. -/
theorem tcpScan_conn (t : TcpState) (n j : Nat) :
    ((List.range n).foldl tcpScanOne t).conn j
      = if j < n then tcpScanConn (t.conn j) else t.conn j := by
  induction n with
  | zero => exact (if_neg (Nat.not_lt_zero j)).symm
  | succ n ih =>
      rw [List.range_succ, List.foldl_append, List.foldl_cons, List.foldl_nil, tcpScanOne_conn]
      by_cases hj : j = n
      · rw [hj, Mem.set_same, if_pos (Nat.lt_succ_self n)]
        rw [hj, if_neg (Nat.lt_irrefl n)] at ih
        rw [ih]
      · rw [Mem.set_other _ _ hj, ih]
        have hless : j < n + 1 ↔ j < n := by omega
        by_cases hlt : j < n
        · rw [if_pos hlt, if_pos (hless.mpr hlt)]
        · rw [if_neg hlt, if_neg (fun h => hlt (hless.mp h))]

/-! ## §2. The words compute the window. -/

/-- The congestion window of a connection, as numbers. -/
def TcpConn.reno (c : TcpConn) : Reno :=
  { cwnd := c.cwnd.toNat, ssthresh := c.ssthresh.toNat, dup := c.dupAckCnt.toNat }

/-- What an ACK means to the window. -/
def tcpRenoEvent (c : TcpConn) (newAck : U32) : RenoEvent :=
  if newAck - c.lastAckRecv = 0 then .duplicate c.flightSize.toNat else .newAck

/-- Half of a 32-bit flight. -/
def tcpTop : Nat := 2 ^ 31 - 1

/-- The window of the connection is within its bounds. -/
def TcpConn.RenoSafe (c : TcpConn) : Prop := c.reno.Safe 460 tcpTop

theorem tcpLimit : Reno.limit 460 tcpTop = 2 ^ 31 + 1379 := by decide

theorem within_tcpTop (x : U32) : x.toNat / 2 ≤ tcpTop := by
  have hlt : x.toNat < 2 ^ 32 := x.isLt
  unfold tcpTop
  omega

theorem toNat_tcpHalfFlight (c : TcpConn) :
    (tcpHalfFlight c).toNat = Reno.threshold 460 c.flightSize.toNat := by
  have htwo : (2 * tcpMss).toNat = 920 := by decide
  have hhalf : (c.flightSize / 2).toNat = c.flightSize.toNat / 2 := BitVec.toNat_udiv
  unfold tcpHalfFlight Reno.threshold
  split
  · rename_i hlt
    rw [BitVec.lt_def, htwo, hhalf] at hlt
    rw [hhalf]
    omega
  · rename_i hlt
    rw [BitVec.lt_def, htwo, hhalf] at hlt
    rw [htwo]
    omega

variable {c : TcpConn}

/-- What the additions to the window and the division start from: each sum is below `2 ^ 32`, and
the divisor is not zero. -/
structure TcpConn.NoWrap (c : TcpConn) : Prop where
  /-- `c.ssthresh + 3 * TCP_MSS` after three duplicate ACKs. -/
  recovery : (tcpHalfFlight c).toNat + (3 * tcpMss).toNat < 2 ^ 32
  /-- `c.cwnd + TCP_MSS`, in slow start and for a further duplicate ACK. -/
  segment : c.cwnd.toNat + tcpMss.toNat < 2 ^ 32
  /-- `c.cwnd + TCP_MSS * TCP_MSS / c.cwnd` in congestion avoidance. -/
  avoidance : c.cwnd.toNat + (tcpMss * tcpMss / c.cwnd).toNat < 2 ^ 32
  divisor : c.cwnd ≠ 0

theorem TcpConn.RenoSafe.noWrap (h : c.RenoSafe) : c.NoWrap := by
  have hopened : 1 ≤ c.cwnd.toNat := h.opened
  have hcwnd : c.cwnd.toNat ≤ 2 ^ 31 + 1379 := by
    rw [← tcpLimit]
    exact h.cwnd_le
  have hmss : tcpMss.toNat = 460 := rfl
  refine ⟨?_, by omega, ?_, ?_⟩
  · have hthr : Reno.threshold 460 c.flightSize.toNat ≤ tcpTop :=
      Reno.threshold_le (by decide) (within_tcpTop _)
    have htop : tcpTop = 2 ^ 31 - 1 := rfl
    rw [toNat_tcpHalfFlight, show (3 * tcpMss).toNat = 1380 from rfl]
    omega
  · have hquot : (tcpMss * tcpMss / c.cwnd).toNat ≤ 211600 := by
      rw [BitVec.toNat_udiv, show (tcpMss * tcpMss).toNat = 211600 from rfl]
      exact Nat.div_le_self _ _
    omega
  · intro hzero
    rw [hzero] at hopened
    exact absurd hopened (by decide)

/-- **An ACK** does to the words what it does to the window. -/
theorem tcpRenoOnAck_reno (h : c.RenoSafe) (newAck : U32) :
    (tcpRenoOnAck c newAck).reno = c.reno.step 460 (tcpRenoEvent c newAck) := by
  have hwrap := h.noWrap
  have hmss : tcpMss.toNat = 460 := rfl
  have hdup : c.dupAckCnt.toNat ≤ 2 := h.dup_le
  have hcount : (c.dupAckCnt + 1).toNat = c.dupAckCnt.toNat + 1 := by
    rw [BitVec.toNat_add]
    show (_ + 1) % 256 = _
    omega
  unfold tcpRenoOnAck tcpRenoEvent
  dsimp only
  by_cases hsame : newAck - c.lastAckRecv = 0
  · rw [if_pos hsame, if_pos hsame]
    unfold Reno.step
    dsimp only
    show _ = if c.dupAckCnt.toNat + 1 = 3 then _ else if 3 < c.dupAckCnt.toNat + 1 then _ else _
    by_cases hthird : c.dupAckCnt + 1 = 3
    · have hthird' : c.dupAckCnt.toNat + 1 = 3 := by
        rw [← hcount, hthird]
        rfl
      rw [if_pos hthird, if_pos hthird', ← toNat_tcpHalfFlight]
      show Reno.mk (tcpHalfFlight c + 3 * tcpMss).toNat (tcpHalfFlight c).toNat 0 = _
      rw [BitVec.toNat_add_of_lt hwrap.recovery]
      rfl
    · have hthird' : ¬ c.dupAckCnt.toNat + 1 = 3 := by
        intro heq
        apply hthird
        apply BitVec.eq_of_toNat_eq
        rw [hcount, heq]
        rfl
      have hmore : ¬ (3 : U8) < c.dupAckCnt + 1 := by
        rw [BitVec.lt_def, hcount]
        show ¬ 3 < _
        omega
      rw [if_neg hthird, if_neg hthird', if_neg hmore, if_neg (by omega)]
      show Reno.mk c.cwnd.toNat c.ssthresh.toNat (c.dupAckCnt + 1).toNat = _
      rw [hcount]
      rfl
  · rw [if_neg hsame, if_neg hsame]
    unfold Reno.step
    dsimp only
    show _ = if c.cwnd.toNat < c.ssthresh.toNat then _ else _
    by_cases hslow : c.cwnd < c.ssthresh
    · have hsum : (c.cwnd + tcpMss).toNat = c.cwnd.toNat + 460 :=
        BitVec.toNat_add_of_lt hwrap.segment
      have hslow' : c.cwnd.toNat < c.ssthresh.toNat := hslow
      rw [if_pos hslow, if_pos hslow']
      have hcap : (if c.ssthresh < c.cwnd + tcpMss then c.ssthresh else c.cwnd + tcpMss).toNat
          = min (c.cwnd.toNat + 460) c.ssthresh.toNat := by
        split
        · rename_i hover
          rw [BitVec.lt_def, hsum] at hover
          omega
        · rename_i hunder
          rw [BitVec.lt_def, hsum] at hunder
          omega
      unfold TcpConn.reno
      dsimp only
      rw [hcap]
      rfl
    · have hslow' : ¬ c.cwnd.toNat < c.ssthresh.toNat := hslow
      have hsum : (c.cwnd + tcpMss * tcpMss / c.cwnd).toNat
          = c.cwnd.toNat + 460 * 460 / c.cwnd.toNat := by
        rw [BitVec.toNat_add_of_lt hwrap.avoidance, BitVec.toNat_udiv]
        rfl
      rw [if_neg hslow, if_neg hslow']
      unfold TcpConn.reno
      dsimp only
      rw [hsum]
      rfl

/-- **A timeout** closes the window. -/
theorem tcpTimeout_reno (c : TcpConn) :
    (tcpTimeout c).reno = c.reno.step 460 (.timeout c.flightSize.toNat) := by
  show Reno.mk _ _ _ = Reno.mk _ _ _
  rw [← toNat_tcpHalfFlight]
  rfl

/-! ## §3. The bounds are kept. -/

theorem TcpConn.RenoSafe.ack (h : c.RenoSafe) (newAck : U32) : (tcpRenoOnAck c newAck).RenoSafe := by
  have hwithin : RenoEvent.Within tcpTop (tcpRenoEvent c newAck) := by
    unfold tcpRenoEvent
    split
    · exact within_tcpTop _
    · trivial
  unfold TcpConn.RenoSafe
  rw [tcpRenoOnAck_reno h]
  exact Reno.Safe.step h (by decide) (by decide) hwithin

theorem TcpConn.RenoSafe.timeout (h : c.RenoSafe) : (tcpTimeout c).RenoSafe := by
  unfold TcpConn.RenoSafe
  rw [tcpTimeout_reno]
  exact Reno.Safe.step h (by decide) (by decide) (within_tcpTop _)

/-- Sending does not touch the window. -/
theorem tcpSendConn_reno (c : TcpConn) (flags : U8) (payLen : U16) :
    (tcpSendConn c flags payLen).reno = c.reno := by
  unfold tcpSendConn
  dsimp only
  split_ifs <;> rfl

/-- A window of at most one segment under the initial threshold. -/
theorem TcpConn.RenoSafe.initial (hopen : 1 ≤ c.cwnd.toNat) (hseg : c.cwnd.toNat ≤ 460)
    (hthr : c.ssthresh = 65535) (hdup : c.dupAckCnt = 0) : c.RenoSafe := by
  have hthr' : c.reno.ssthresh = 65535 := congrArg BitVec.toNat hthr
  have hdup' : c.reno.dup = 0 := congrArg BitVec.toNat hdup
  refine ⟨hopen, ?_, ?_, ?_, ?_⟩
  · show c.cwnd.toNat ≤ _
    rw [tcpLimit]
    omega
  · rw [hthr']
    decide
  · rw [hthr']
    decide
  · rw [hdup']
    decide

/-- **A slot that is opened** starts within the bounds, whatever the options say. -/
theorem tcpOpen_renoSafe (cid : Nat) (seg : TcpSeg) (frameBuf : Mem U32) (c : TcpConn) :
    (tcpOpen cid seg frameBuf c).RenoSafe := by
  obtain ⟨cwnd, peerMss, peerWscale, ⟨hlow, hhigh⟩, hopen⟩ := tcpOpen_statics cid seg frameBuf c
  rw [hopen]
  apply TcpConn.RenoSafe.initial
  · show 1 ≤ cwnd.toNat
    exact hlow
  · show cwnd.toNat ≤ 460
    exact hhigh
  · rfl
  · rfl

/-! ## §4. Properties of connection records. -/

/-- A property of connection records that an opened slot has and that no piece of a call
takes away. -/
structure TcpKept (P : TcpConn → Prop) : Prop where
  opened : ∀ cid seg frameBuf c, P (tcpOpen cid seg frameBuf c)
  acked : ∀ c seg, P c → P (tcpOnSegment c seg)
  sent : ∀ c flags payLen, P c → P (tcpSendConn c flags payLen)
  scanned : ∀ c, P c → P (tcpScanConn c)
  /-- State, peer, receive position and the timer marks do not matter. -/
  moved : ∀ c state peerIp peerPort peerSeq retransPending rtoTimer, P c →
    P { c with state, peerIp, peerPort, peerSeq, retransPending, rtoTimer }

namespace TcpKept

variable {P : TcpConn → Prop} {t : TcpState}

/-- The property holds of the slots in use. -/
def Holds (P : TcpConn → Prop) (t : TcpState) : Prop :=
  ∀ i, i < maxTcpConn → (t.conn i).state ≠ .free → P (t.conn i)

/-- Sending for any slot. -/
theorem send (hP : TcpKept P) (un : Uninit) (cid : Nat) (flags : U8) (payload : Option (Nat → U8))
    (payLen : U16) (sh : Shared) {i : Nat} (h : P (t.conn i)) :
    P ((tcpSend un cid flags payload payLen t sh).1.conn i) := by
  rcases tcpSend_record un cid flags payload payLen t sh i with hkept | hsent
  · rw [hkept]
    exact h
  · rw [hsent]
    exact hP.sent _ flags payLen h

theorem maintenance (hP : TcpKept P) (un : Uninit) (sh : Shared) {i : Nat} (h : P (t.conn i)) :
    P ((tcpMaintenance un t sh).1.conn i) := by
  rcases tcpMaintenance_record un t sh i with hkept | ⟨flags, payLen, hsent⟩
  · rw [hkept]
    exact h
  · rw [hsent]
    exact hP.sent _ flags payLen h

/-- The state switch. -/
theorem switch (hP : TcpKept P) (un : Uninit) (cid : Nat) (seg : TcpSeg) (payload : Nat → U8)
    (ipRx : IpRx) (sh : Shared) (h : P (t.conn cid)) :
    P ((tcpSwitch un cid seg payload ipRx t sh).1.conn cid) := by
  unfold tcpSwitch
  cases (t.conn cid).state with
  | free => exact h
  | listen =>
      show P ((tcpListen un cid seg ipRx t sh).1.conn cid)
      unfold tcpListen
      split
      · apply hP.send
        rw [setConn_same]
        exact hP.moved _ _ _ _ _ _ _ h
      · exact h
  | synRcvd =>
      show P ((t.setConn cid _).conn cid)
      rw [setConn_same]
      unfold tcpSynRcvd
      split
      · exact hP.moved _ _ _ _ _ _ _ h
      · exact h
  | established =>
      show P ((tcpTakeFin un cid seg (tcpTakeData cid seg payload t) sh).1.conn cid)
      have hdata : P ((tcpTakeData cid seg payload t).conn cid) := by
        have hseq : P { t.conn cid with peerSeq := tcpAdvance seg } := hP.moved _ _ _ _ _ _ _ h
        unfold tcpTakeData
        dsimp only
        split
        · rw [tcpQueue_conn, setConn_same]
          exact hseq
        · split
          · rw [setConn_same, setConn_same]
            exact hP.moved _ _ _ _ _ _ _ hseq
          · rw [setConn_same]
            exact hseq
      unfold tcpTakeFin
      split
      · rw [setConn_same]
        exact hP.moved _ _ _ _ _ _ _ (hP.send un cid _ none 0 sh hdata)
      · exact hdata
  | lastAck =>
      show P ((t.setConn cid _).conn cid)
      rw [setConn_same]
      unfold tcpLastAck
      split
      · exact hP.moved _ _ _ _ _ _ _ h
      · exact h

/-- A segment with a slot. -/
theorem receive (hP : TcpKept P) (un : Uninit) {cid : Nat} (ipRx : IpRx) (seg : TcpSeg)
    (frameBuf : Mem U32) (sh : Shared) (h : Holds P t)
    (hfind : tcpFind t seg.sp ipRx.srcIp = some cid) :
    Holds P (tcpReceive un ipRx seg frameBuf t sh).1 := by
  intro i hi hlive
  by_cases hic : i = cid
  · rw [hic]
    rw [hic] at hlive hi
    by_cases hfree : (t.conn cid).state = .free
    · by_cases hopens : seg.opens = true
      · rw [tcpReceive_opened un frameBuf sh hfind hfree hopens]
        apply hP.switch
        rw [setConn_same]
        exact hP.acked _ seg (hP.opened cid seg frameBuf _)
      · rw [tcpReceive_closed un frameBuf sh hfind hfree hopens] at hlive
        exact absurd hfree hlive
    · rw [tcpReceive_live un frameBuf sh hfind hfree]
      apply hP.switch
      rw [setConn_same]
      exact hP.acked _ seg (h cid hi hfree)
  · have hother := tcpReceive_other un ipRx seg frameBuf t sh hfind hic
    rw [hother] at hlive ⊢
    exact h i hi hlive

theorem step (hP : TcpKept P) (h : Holds P t) (e : TcpEvent) : Holds P (tcpMachine t e).1 := by
  cases e with
  | maintenance un sh =>
      intro i hi hlive
      have hstate : ((tcpMaintenance un t sh).1.conn i).state = (t.conn i).state :=
        congrArg TcpCore.state (tcpMaintenance_core un t sh i)
      change ((tcpMaintenance un t sh).1.conn i).state ≠ .free at hlive
      rw [hstate] at hlive
      exact hP.maintenance un sh (h i hi hlive)
  | segment un rst ipRx frameBuf sh =>
      show Holds P (tcpRxProcess un rst ipRx frameBuf t sh).1
      by_cases hecho : tcpForEcho rst ipRx frameBuf = true
      · rw [(tcpRxProcess_forEcho un t sh hecho).2]
        cases hfind : tcpFind t (tcpParse ipRx frameBuf).sp ipRx.srcIp with
        | none =>
            rw [tcpReceive_none un frameBuf sh hfind]
            exact h
        | some cid => exact hP.receive un ipRx _ frameBuf sh h hfind
      · rcases tcpRxProcess_idle un t hecho with ⟨-, hcall⟩ | ⟨-, hcall⟩ | ⟨-, hcall⟩
        -- a reset frees every slot
        · rw [hcall]
          intro i hi hlive
          change (if i < maxTcpConn then _ else _ : TcpConn).state ≠ _ at hlive
          rw [if_pos hi] at hlive
          exact absurd rfl hlive
        · rw [hcall]
          intro i hi hlive
          have hstate := congrArg TcpCore.state (tcpScan_core (List.range maxTcpConn) t i).1
          change (((List.range maxTcpConn).foldl tcpScanOne t).conn i).state = (t.conn i).state at hstate
          rw [hstate] at hlive
          rw [tcpScan_conn, if_pos hi]
          exact hP.scanned _ (h i hi hlive)
        · rw [hcall]
          exact h

/-- **A property that the pieces keep** holds of every slot in use, in every run from power-on. -/
theorem after (hP : TcpKept P) (es : List TcpEvent) : Holds P (tcpMachine.after {} es) := by
  have hstart : Holds P ({} : TcpState) := by
    intro i _ hlive
    exact absurd rfl hlive
  exact invariant_after (M := tcpMachine) (P := Holds P) (fun _ e h => hP.step h e) hstart es

end TcpKept

/-! ## §5. Runs. -/

/-- A call that works on the congestion window of a connection. -/
inductive TcpRenoCall where
  /-- `tcp_reno_on_ack`. -/
  | ack (newAck : U32)
  /-- `tcp_send`. -/
  | send (flags : U8) (payLen : U16)
  /-- A timeout of the retransmission scan. -/
  | timeout
  deriving Repr, DecidableEq

/-- The calls as a machine over the record of the connection. -/
def tcpRenoCalls : Machine TcpConn TcpRenoCall Unit
  | c, .ack newAck => (tcpRenoOnAck c newAck, ())
  | c, .send flags payLen => (tcpSendConn c flags payLen, ())
  | c, .timeout => (tcpTimeout c, ())

theorem TcpConn.RenoSafe.call (h : c.RenoSafe) (call : TcpRenoCall) :
    (tcpRenoCalls c call).1.RenoSafe := by
  cases call with
  | ack newAck => exact h.ack newAck
  | send flags payLen =>
      show (tcpSendConn c flags payLen).RenoSafe
      unfold TcpConn.RenoSafe
      rw [tcpSendConn_reno]
      exact h
  | timeout => exact h.timeout

/-- What the bounds say of a connection: the window is open, the threshold is at least two
segments, no addition wraps and no division is by zero. -/
def TcpConn.ArithmeticSafe (c : TcpConn) : Prop :=
  1 ≤ c.cwnd ∧ 2 * tcpMss ≤ c.ssthresh ∧ c.NoWrap

theorem TcpConn.RenoSafe.arithmeticSafe (h : c.RenoSafe) : c.ArithmeticSafe :=
  ⟨h.opened, h.floor, h.noWrap⟩

/-- The bounds are kept by all pieces of a call. -/
theorem tcpKept_renoSafe : TcpKept TcpConn.RenoSafe where
  opened := tcpOpen_renoSafe
  acked c seg h := by
    unfold tcpOnSegment
    dsimp only
    split
    · apply TcpConn.RenoSafe.ack
      exact h
    · exact h
  sent c flags payLen h := h.call (.send flags payLen)
  scanned c h := by
    unfold tcpScanConn
    split
    · exact h.timeout
    · split <;> exact h
  moved _ _ _ _ _ _ _ h := h

/-- **Reno arithmetic is safe**: from the SYN that opens a slot, with any options, and over every
sequence of ACKs with any numbers, sends and timeouts, the window is open, the threshold is at
least two segments, no 32-bit addition to the window wraps and no division is by zero; and so
for every slot in use in every run of the TCP layer. -/
theorem tcp_reno_safe :
    (∀ cid seg frameBuf c calls,
        (tcpRenoCalls.after (tcpOpen cid seg frameBuf c) calls).ArithmeticSafe)
      ∧ ∀ es i, i < maxTcpConn → ((tcpMachine.after {} es).conn i).state ≠ .free →
        ((tcpMachine.after {} es).conn i).ArithmeticSafe := by
  constructor
  · intro cid seg frameBuf c calls
    have hrun : (tcpRenoCalls.after (tcpOpen cid seg frameBuf c) calls).RenoSafe :=
      invariant_after (fun _ call h => h.call call) (tcpOpen_renoSafe cid seg frameBuf c) calls
    exact hrun.arithmeticSafe
  · intro es i hi hlive
    exact (tcpKept_renoSafe.after es i hi hlive).arithmeticSafe

end GigabitTcp
